import CapnpEs.Serialization.Pointers.FieldAccess

/-! What is set in a field of a struct is what the field shows, but for two masks of 32 bits. -/

namespace CapnpEs

open LittleEndian (read encode store)

def World.bit (w : World) (message segment index : Nat) : Bool :=
  ((w message).memory segment (index / 8)).toNat.testBit (index % 8)

namespace Pointer

variable {w w' : World} {s : Pointer} {byteOffset : Int} {width : Nat}

def fieldBytes (s : Pointer) (byteOffset : Int) (width : Nat) (w : World) : Set Byte :=
  span (s.dataSection w).segment ((s.dataSection w).byteOffset + byteOffset) width

theorem StructAt.like (struct : s.StructAt w) (like : World.Like s.message (s.path w ∪ (s.sizeWord w).word) w w') :
    s.StructAt w' ∧ s.size w' = s.size w ∧ s.dataSection w' = s.dataSection w := by
  have kind := struct.kind
  have sized := struct.sized
  have lower := struct.resolves.inBounds.lower
  obtain ⟨lo, hi, target, targetLo, targetHi, start⟩ := path_like like lower Set.subset_union_left
  have sizeLo := word_like like sizeWord_message sized.lower Set.subset_union_right
  have same : SameNode s w w' := by
    refine ⟨lo, hi, target, targetLo, targetHi, start, ?_, ?_⟩
    all_goals
      intro composite
      cases element : s.compositeIndex with
      | none =>
          rw [element] at kind
          rw [isComposite_struct (by simpa using kind)] at composite
          cases composite
      | some compositeIndex =>
          rw [sizeWord, element] at sizeLo
          first
            | exact sizeLo.1
            | exact sizeLo.2
  have word : s.sizeWord w' = s.sizeWord w := by
    rw [sizeWord, sizeWord, start, target]
  have size : s.size w' = s.size w := by
    rw [Pointer.size, Pointer.size, word, sizeLo.2]
  have section_ : s.dataSection w' = s.dataSection w := by
    rw [dataSection, dataSection, same.content, size]
  refine ⟨⟨same.resolves like struct.resolves, ?_, ?_, ?_, ?_, ?_⟩, size, section_⟩
  · rw [same.isNullWord]
    exact struct.notNull
  · rw [same.isComposite, same.targetType]
    exact kind
  · rw [word]
    exact sized.like like sizeWord_message
  · rw [section_, size, like.allocated]
    exact struct.inside
  · rw [dataBytes, section_, size, same.path, word]
    exact struct.apart

theorem fieldBytes_subset (lower : 0 ≤ byteOffset) (upper : byteOffset + width ≤ (s.size w).dataByteLength) :
    s.fieldBytes byteOffset width w ⊆ s.dataBytes w := by
  rintro byte ⟨segment, above, below⟩
  exact ⟨segment, by omega, by omega⟩

structure Stored (s : Pointer) (byteOffset : Int) (width bits : Nat) (w written : World) : Prop where
  wellFormed : (written s.message).WellFormed
  budget : (w s.message).traversalLimit - 64 ≤ (written s.message).traversalLimit
  struct : s.StructAt written
  size : s.size written = s.size w
  dataSection : s.dataSection written = s.dataSection w
  field : s.field byteOffset width written = bits
  others : ∀ message segment address, (message ≠ s.message ∨ (segment, address) ∉ s.fieldBytes byteOffset width w) →
    (written message).memory segment address = (w message).memory segment address

theorem Stores.after {program : WorldM Unit} {bits : Nat} (stores : Stores program s byteOffset width bits w)
    (wf : (w s.message).WellFormed) (struct : s.StructAt w) (lower : 0 ≤ byteOffset)
    (upper : byteOffset + width ≤ (s.size w).dataByteLength) (small : bits < 256 ^ width) :
    ∃ written, program w = .ok () written ∧ Stored s byteOffset width bits w written := by
  obtain ⟨count, le, run⟩ := stores
  have start := struct.holds.dataSection_nonneg
  have inside := struct.inside
  have room := wf.allocated_le (s.dataSection w).segment
  have length := LittleEndian.encode_length width bits
  let before := w.spend s.message count
  let place := (s.dataSection w).byteOffset + byteOffset
  let after := before.overwrite s.message (s.dataSection w).segment place (encode width bits)
  have fits : place.toNat + (encode width bits).length ≤ (before s.message).capacity (s.dataSection w).segment := by
    simp only [place, before, World.spend_capacity]
    omega
  have here : after s.message = (before s.message).patch (s.dataSection w).segment place.toNat (encode width bits) :=
    World.overwrite_self ..
  have others : ∀ message segment address, (message ≠ s.message ∨ (segment, address) ∉ s.fieldBytes byteOffset width w) →
      (after message).memory segment address = (w message).memory segment address := by
    intro message segment address outside
    by_cases same : message = s.message
    · subst same
      rw [here, Message.patch_memory _ _ _ fits]
      split
      · rename_i target
        have apart : ¬ (place.toNat ≤ address ∧ address < place.toNat + (encode width bits).length) := by
          intro within
          rcases outside with other | outside
          · exact other rfl
          · exact outside ⟨target, by simp only [place] at within; omega, by simp only [place] at within; omega⟩
        rw [store, if_neg apart, target, World.spend_memory]
      · simp [before]
    · simp [after, World.overwrite, same, before, World.spend]
  have like : World.Like s.message (s.path w ∪ (s.sizeWord w).word) w after := by
    constructor
    · rw [here]
      exact Message.WellFormed.patch _ _ _ (wf.spend s.message count)
    · simp [here, before]
    · simp [here, before]
    · simp [here, before]
    · simp [here, before]
    · intro byte member
      apply others
      right
      intro inField
      exact Set.disjoint_left.mp struct.apart member (fieldBytes_subset lower upper inField)
  obtain ⟨still, size, section_⟩ := struct.like like
  refine ⟨after, run, like.wellFormed, ?_, still, size, section_, ?_, others⟩
  · rw [here, Message.patch_traversalLimit, World.spend_traversalLimit]
    omega
  · rw [field, section_, here, Message.patch_memory _ _ _ fits, if_pos rfl]
    exact (LittleEndian.read_store_same ..).trans (Nat.mod_eq_of_lt small)

end Pointer

/-- Where a field lies: the numbers of its bits in a segment. -/
def fieldBits (s : Pointer) (bitOffset : Int) (bitWidth : Nat) (w : World) : Set (Nat × Nat) :=
  { place | place.1 = (s.dataSection w).segment ∧ 8 * (s.dataSection w).byteOffset + bitOffset ≤ place.2 ∧
    place.2 < 8 * (s.dataSection w).byteOffset + bitOffset + bitWidth }

structure FieldAccess (Value : Type) where
  get : TmpWord → Option Bytes → WorldM Value
  set : TmpWord → Value → Option Bytes → WorldM Unit
  mask : Value → Except CapnpError Bytes
  zero : Value

/-- The getter gives the value that was set, only the field changes, and a field of zeros shows the default. -/
def FieldAccess.RoundTrips {Value : Type} (a : FieldAccess Value) (message : Nat) (field : Set (Nat × Nat))
    (default : Option Value) (value : Value) (w : World) : Prop :=
  ∃ mask, default.mapM a.mask = .ok mask ∧ ∀ tmp tmp' : TmpWord,
    (∃ written seen, a.set tmp value mask w = .ok () written ∧ a.get tmp' mask written = .ok value seen ∧
      ∀ other segment index, (other ≠ message ∨ (segment, index) ∉ field) →
        written.bit other segment index = w.bit other segment index) ∧
    ((∀ place ∈ field, w.bit message place.1 place.2 = false) →
      ∃ seen, a.get tmp mask w = .ok (default.getD a.zero) seen)

inductive FieldType
  | int8
  | int16
  | int32
  | int64
  | uint8
  | uint16
  | uint32
  | uint64
  | bit
  deriving DecidableEq, Repr

namespace FieldType

abbrev Value : FieldType → Type
  | bit => Bool
  | _ => Int

def bitWidth : FieldType → Nat
  | int8 | uint8 => 8
  | int16 | uint16 => 16
  | int32 | uint32 => 32
  | int64 | uint64 => 64
  | bit => 1

def bitOffset : FieldType → Int → Int
  | bit, offset => offset
  | _, offset => 8 * offset

def InRange : (type : FieldType) → type.Value → Prop
  | bit, _ => True
  | int8, (value : Int) => -2 ^ 7 ≤ value ∧ value < 2 ^ 7
  | int16, (value : Int) => -2 ^ 15 ≤ value ∧ value < 2 ^ 15
  | int32, (value : Int) => -2 ^ 31 ≤ value ∧ value < 2 ^ 31
  | int64, (value : Int) => -2 ^ 63 ≤ value ∧ value < 2 ^ 63
  | uint8, (value : Int) => 0 ≤ value ∧ value < 2 ^ 8
  | uint16, (value : Int) => 0 ≤ value ∧ value < 2 ^ 16
  | uint32, (value : Int) => 0 ≤ value ∧ value < 2 ^ 32
  | uint64, (value : Int) => 0 ≤ value ∧ value < 2 ^ 64

def access (native : Bool) (s : Pointer) (offset : Int) : (type : FieldType) → FieldAccess type.Value
  | int8 => ⟨fun tmp => getInt8 native tmp offset s, fun tmp value => setInt8 native tmp offset value s,
      getInt8Mask, (0 : Int)⟩
  | int16 => ⟨fun tmp => getInt16 native tmp offset s, fun tmp value => setInt16 native tmp offset value s,
      getInt16Mask, (0 : Int)⟩
  | int32 => ⟨fun tmp => getInt32 native tmp offset s, fun tmp value => setInt32 native tmp offset value s,
      getInt32Mask, (0 : Int)⟩
  | int64 => ⟨fun tmp => getInt64 native tmp offset s, fun tmp value => setInt64 native tmp offset value s,
      getInt64Mask, (0 : Int)⟩
  | uint8 => ⟨fun _ => getUint8 offset s, fun _ value => setUint8 offset value s, getUint8Mask, (0 : Int)⟩
  | uint16 => ⟨fun _ => getUint16 offset s, fun _ value => setUint16 offset value s, getUint16Mask, (0 : Int)⟩
  | uint32 => ⟨fun _ => getUint32 offset s, fun _ value => setUint32 offset value s, getUint32Mask, (0 : Int)⟩
  | uint64 => ⟨fun tmp => getUint64 native tmp offset s, fun tmp value => setUint64 native tmp offset value s,
      getUint64Mask, (0 : Int)⟩
  | bit => ⟨fun _ => getBit offset s, fun _ value => setBit offset value s, fun value => getBitMask value offset,
      false⟩

/-- The masks that the accessors carry over to the value: `getInt32` takes half of its mask, and the result of
`getUint32` is a signed exclusive or. -/
def Faithful (fieldIsZero : Prop) : (type : FieldType) → Option type.Value → type.Value → Prop
  | int32, default, _ => ∀ mask ∈ default, (0 : Int) ≤ mask ∧ mask < (2 ^ 16 : Int)
  | uint32, default, value => ∀ mask ∈ default, value < (2 ^ 31 : Int) ∧ (fieldIsZero → mask < (2 ^ 31 : Int))
  | _, _, _ => True

end FieldType

/-! The bits of a field. -/

section bits

variable {w written : World} {s : Pointer} {offset : Int} {width : Nat}

theorem bits_false (byte : UInt8) : (∀ index < 8, byte.toNat.testBit index = false) ↔ byte = 0 := by
  constructor
  · intro clear
    apply UInt8.toNat_inj.mp
    apply Nat.eq_of_testBit_eq
    intro index
    change byte.toNat.testBit index = (0 : Nat).testBit index
    rw [Nat.zero_testBit]
    by_cases inside : index < 8
    · exact clear index inside
    · have power : 2 ^ 8 ≤ 2 ^ index := Nat.pow_le_pow_right (by decide) (by omega)
      exact Nat.testBit_lt_two_pow (Nat.lt_of_lt_of_le byte.toNat_lt power)
  · rintro rfl index _
    exact Nat.zero_testBit index

theorem fieldBits_zero (struct : s.StructAt w) (lower : 0 ≤ offset) :
    (∀ place ∈ fieldBits s (8 * offset) (8 * width) w, w.bit s.message place.1 place.2 = false) ↔
      s.field offset width w = 0 := by
  have start := struct.holds.dataSection_nonneg
  rw [Pointer.field, LittleEndian.read_eq_zero]
  constructor
  · intro clear address above below
    apply (bits_false _).mp
    intro index inside
    have bit := clear ((s.dataSection w).segment, 8 * address + index)
      ⟨rfl, by dsimp only; omega, by dsimp only; omega⟩
    rw [World.bit] at bit
    dsimp only at bit
    rwa [show (8 * address + index) / 8 = address by omega, show (8 * address + index) % 8 = index by omega] at bit
  · rintro zeros ⟨segment, index⟩ ⟨here, above, below⟩
    dsimp only at here above below ⊢
    rw [World.bit, here, zeros (index / 8) (by omega) (by omega)]
    exact Nat.zero_testBit _

theorem bit_of_field {index : Nat} (here : index / 8 = ((s.dataSection w).byteOffset + offset).toNat) :
    w.bit s.message (s.dataSection w).segment index = (s.field offset 1 w).testBit (index % 8) := by
  simp [World.bit, Pointer.field, here, LittleEndian.read]

theorem keeps_bits {bits : Nat} (stored : Pointer.Stored s offset width bits w written)
    (other segment index : Nat)
    (outside : other ≠ s.message ∨ (segment, index) ∉ fieldBits s (8 * offset) (8 * width) w) :
    written.bit other segment index = w.bit other segment index := by
  rw [World.bit, World.bit, stored.others]
  rcases outside with elsewhere | outside
  · exact .inl elsewhere
  · right
    rintro ⟨here, above, below⟩
    exact outside ⟨here, by dsimp only at *; omega, by dsimp only at *; omega⟩

end bits

def wrap (width : Nat) (value : Int) : Nat := (value % 256 ^ width).toNat

theorem mapM_mask (width : Nat) (default : Option Int) :
    default.mapM (makePrimitiveMaskFn width) = .ok ((default.map (wrap width)).map (encode width)) := by
  cases default with
  | none => rfl
  | some d =>
      change (makePrimitiveMaskFn width d >>= fun mask => pure (some mask)) = _
      rw [makePrimitiveMaskFn_eq, Outcome.except_ok_bind]
      rfl

section bitMask

variable {offset : Int} (lower : 0 ≤ offset) (default : Option Bool)
include lower

theorem mapM_bitMask : default.mapM (fun value => getBitMask value offset) =
    .ok ((default.map fun value => if value then 2 ^ (offset % 8).toNat else 0).map (encode 1)) := by
  cases default with
  | none => rfl
  | some d =>
      change (getBitMask d offset >>= fun mask => pure (some mask)) = _
      rw [getBitMask_eq d lower, Outcome.except_ok_bind]
      rfl

omit lower in
theorem bitMask_lt : ∀ m ∈ default.map fun value => if value then 2 ^ (offset % 8).toNat else 0, m < 256 ^ 1 := by
  intro m member
  obtain ⟨d, _, rfl⟩ := Option.mem_map.mp member
  have power : 2 ^ (offset % 8).toNat < 2 ^ 8 := Nat.pow_lt_pow_right (by decide) (by omega)
  split <;> omega

end bitMask

theorem roundTrips_bytes {a : FieldAccess Int} {default : Option Int} {value : Int} {w : World} {s : Pointer} {offset : Int}
    {width raw : Nat} (shown : Option Nat → Nat → Int) (zero : a.zero = 0) (masks : a.mask = makePrimitiveMaskFn width)
    (wf : (w s.message).WellFormed) (struct : s.StructAt w) (budget : 128 < (w s.message).traversalLimit)
    (lower : 0 ≤ offset) (upper : offset + width ≤ (s.size w).dataByteLength) (small : raw < 256 ^ width)
    (stores : ∀ (tmp : TmpWord) (mask : Option Nat), (∀ m ∈ mask, m < 256 ^ width) →
      Pointer.Stores (a.set tmp value (mask.map (encode width))) s offset width (raw ^^^ mask.getD 0) w)
    (reads : ∀ (tmp : TmpWord) (mask : Option Nat) (w' : World), (∀ m ∈ mask, m < 256 ^ width) → (w' s.message).WellFormed → s.StructAt w' →
      64 < (w' s.message).traversalLimit → s.size w' = s.size w →
        Reads (a.get tmp (mask.map (encode width))) s.message 8 w' (shown mask (s.field offset width w'))) :
    a.RoundTrips s.message (fieldBits s (8 * offset) (8 * width) w) default value w ↔
      shown (default.map (wrap width)) (raw ^^^ (default.map (wrap width)).getD 0) = value ∧
        (s.field offset width w = 0 → shown (default.map (wrap width)) 0 = default.getD 0) := by
  have masked : default.mapM a.mask = .ok ((default.map (wrap width)).map (encode width)) := by
    rw [masks]
    exact mapM_mask width default
  generalize numbers : default.map (wrap width) = mask at *
  have bounded : ∀ m ∈ mask, m < 256 ^ width := by
    intro m member
    rw [← numbers] at member
    obtain ⟨d, _, rfl⟩ := Option.mem_map.mp member
    exact DataView.toNat_emod_lt d width
  have stored : raw ^^^ mask.getD 0 < 256 ^ width := by
    cases mask with
    | none => simpa using small
    | some m => exact xor_lt small (bounded m rfl)
  have field : (∀ place ∈ fieldBits s (8 * offset) (8 * width) w, w.bit s.message place.1 place.2 = false) ↔
      s.field offset width w = 0 := fieldBits_zero struct lower
  have run (tmp tmp' : TmpWord) : ∃ written seen, a.set tmp value (mask.map (encode width)) w = .ok () written ∧
      a.get tmp' (mask.map (encode width)) written = .ok (shown mask (raw ^^^ mask.getD 0)) seen ∧
        Pointer.Stored s offset width (raw ^^^ mask.getD 0) w written := by
    obtain ⟨written, ran, result⟩ := (stores tmp mask bounded).after wf struct lower upper stored
    have left := result.budget
    obtain ⟨count, _, read⟩ := reads tmp' mask written bounded result.wellFormed result.struct (by omega) result.size
    rw [result.field] at read
    exact ⟨written, _, ran, read, result⟩
  have before (tmp : TmpWord) : ∃ seen, a.get tmp (mask.map (encode width)) w =
      .ok (shown mask (s.field offset width w)) seen := by
    obtain ⟨count, _, read⟩ := reads tmp mask w bounded wf struct (by omega) rfl
    exact ⟨_, read⟩
  constructor
  · rintro ⟨_, same, trips⟩
    rw [masked] at same
    cases same
    let tmp : TmpWord := ⟨List.replicate 8 0, rfl⟩
    obtain ⟨⟨written, seen, set, get, _⟩, shows⟩ := trips tmp tmp
    obtain ⟨after, last, ran, read, _⟩ := run tmp tmp
    obtain ⟨first, found⟩ := before tmp
    rw [ran] at set
    cases set
    rw [read] at get
    refine ⟨(EStateM.Result.ok.inj get).1, ?_⟩
    intro empty
    obtain ⟨seen, default_⟩ := shows (field.mpr empty)
    rw [found, empty, zero] at default_
    exact (EStateM.Result.ok.inj default_).1
  · rintro ⟨same, shows⟩
    refine ⟨_, masked, ?_⟩
    intro tmp tmp'
    obtain ⟨after, last, ran, read, result⟩ := run tmp tmp'
    refine ⟨⟨after, last, ran, ?_, keeps_bits result⟩, ?_⟩
    · rw [read, same]
    · intro clear
      have empty := field.mp clear
      obtain ⟨first, found⟩ := before tmp
      refine ⟨first, ?_⟩
      rw [found, empty, shows empty, zero]

/-! The values. -/

section values

variable {default : Option Int} {value : Int} {width : Nat} {signed : Bool}

def Shows (signed : Bool) (width : Nat) (value : Int) : Prop :=
  DataView.number signed width (wrap width value) = value

theorem shows_signed (lower : -(256 ^ width : Nat) ≤ 2 * value) (upper : 2 * value < (256 ^ width : Nat)) :
    Shows true width value :=
  DataView.number_true lower upper

theorem shows_unsigned (lower : 0 ≤ value) (upper : value < 256 ^ width) : Shows false width value := by
  rw [Shows, DataView.number_false, wrap, Int.emod_eq_of_lt lower upper, Int.toNat_of_nonneg lower]

theorem shows_zero : DataView.number signed width 0 = 0 := by
  cases signed <;> simp [DataView.number]

theorem shows_default (fits : ∀ mask ∈ default, Shows signed width mask) :
    DataView.number signed width ((default.map (wrap width)).getD 0) = default.getD 0 := by
  cases default with
  | none => exact shows_zero
  | some mask => exact fits mask rfl

theorem default_lt : (default.map (wrap width)).getD 0 < 256 ^ width := by
  cases default with
  | none => exact Nat.pow_pos (by decide)
  | some mask => exact DataView.toNat_emod_lt mask width

theorem shows_masked (fits : Shows signed width value) (masks : ∀ mask ∈ default, Shows signed width mask) (empty : Prop) :
    DataView.number signed width (wrap width value ^^^ (default.map (wrap width)).getD 0 ^^^
        (default.map (wrap width)).getD 0) = value ∧
      (empty → DataView.number signed width (0 ^^^ (default.map (wrap width)).getD 0) = default.getD 0) := by
  rw [Nat.xor_assoc, Nat.xor_self, Nat.xor_zero, Nat.zero_xor]
  exact ⟨fits, fun _ => shows_default masks⟩

theorem number_injective {first second : Nat} (low : first < 256 ^ width) (high : second < 256 ^ width)
    (same : DataView.number true width first = DataView.number true width second) : first = second := by
  have bits := congrArg (fun number => number % ((256 ^ width : Nat) : Int)) same
  simp only [DataView.number, if_true, Int.bmod_emod] at bits
  rw [← Int.natCast_mod, ← Int.natCast_mod, Nat.mod_eq_of_lt low, Nat.mod_eq_of_lt high] at bits
  exact Int.ofNat.inj bits

theorem shownUint_iff (narrow : width ≤ 4) (fits : Shows false width value) (masks : ∀ mask ∈ default, Shows false width mask)
    (empty : Prop) :
    (Pointer.shownUint (default.map (wrap width)) (wrap width value ^^^ (default.map (wrap width)).getD 0) = value ∧
        (empty → Pointer.shownUint (default.map (wrap width)) 0 = default.getD 0)) ↔
      ∀ mask ∈ default, value < 2 ^ 31 ∧ (empty → mask < 2 ^ 31) := by
  have widest : 256 ^ width ≤ 2 ^ 32 := by
    rw [show (2 : Nat) ^ 32 = 256 ^ 4 from rfl]
    exact Nat.pow_le_pow_right (by decide) narrow
  have bound := DataView.toNat_emod_lt value width
  rw [Shows, DataView.number_false] at fits
  cases default with
  | none => simp [Pointer.shownUint, fits]
  | some mask =>
      have maskFits := masks mask rfl
      have maskBound := DataView.toNat_emod_lt mask width
      have stored := xor_lt bound maskBound
      rw [Shows, DataView.number_false] at maskFits
      rw [wrap] at fits maskFits
      simp only [Option.map_some, Option.getD_some, Pointer.shownUint, Option.mem_some_iff, forall_eq', wrap]
      generalize (value % 256 ^ width).toNat = raw at *
      generalize (mask % 256 ^ width).toNat = m at *
      subst fits maskFits
      have again : raw ^^^ m ^^^ m = raw := by
        rw [Nat.xor_assoc, Nat.xor_self, Nat.xor_zero]
      have first := @xor32_eq_iff (raw ^^^ m) m (by omega) (by omega)
      have second := @xor32_eq_iff 0 m (by omega) (by omega)
      rw [again] at first
      rw [Nat.zero_xor] at second
      change (xor32 (raw ^^^ m : Nat) m = raw ∧ (empty → xor32 (0 : Nat) m = m)) ↔ _
      rw [first, second]
      constructor
      · rintro ⟨small, zeros⟩
        exact ⟨by omega, fun holds => by have bits := zeros holds; omega⟩
      · rintro ⟨small, zeros⟩
        exact ⟨by omega, fun holds => by have bits := zeros holds; omega⟩

theorem halfMask_iff (fits : Shows true 4 value) (masks : ∀ mask ∈ default, -2 ^ 31 ≤ mask ∧ mask < 2 ^ 31)
    (empty : Prop) :
    (DataView.number true 4 (wrap 4 value ^^^ (default.map (wrap 4)).getD 0 ^^^
          (default.map (wrap 4)).getD 0 % 256 ^ 2) = value ∧
        (empty → DataView.number true 4 (0 ^^^ (default.map (wrap 4)).getD 0 % 256 ^ 2) = default.getD 0)) ↔
      ∀ mask ∈ default, 0 ≤ mask ∧ mask < 2 ^ 16 := by
  have bound := DataView.toNat_emod_lt value 4
  cases default with
  | none =>
      have zero : DataView.number true 4 0 = 0 := shows_zero
      rw [Shows] at fits
      simpa [zero] using fits
  | some mask =>
      have inRange := masks mask rfl
      have maskFits : Shows true 4 mask := shows_signed (by omega) (by omega)
      have maskBound := DataView.toNat_emod_lt mask 4
      have low : (mask % 256 ^ 4).toNat < 2 ^ 16 ↔ 0 ≤ mask ∧ mask < 2 ^ 16 := by omega
      rw [Shows, wrap] at fits maskFits
      simp only [Option.map_some, Option.getD_some, Option.mem_some_iff, forall_eq', wrap]
      rw [← low]
      generalize (value % 256 ^ 4).toNat = raw at *
      generalize (mask % 256 ^ 4).toNat = m at *
      constructor
      · rintro ⟨same, _⟩
        have shown : raw ^^^ m ^^^ m % 256 ^ 2 = raw := by
          apply number_injective (xor_lt (xor_lt bound maskBound) (by omega)) bound
          rw [same, fits]
        rw [Nat.xor_assoc] at shown
        have nothing : m ^^^ m % 256 ^ 2 = 0 := by
          calc m ^^^ m % 256 ^ 2 = raw ^^^ (raw ^^^ (m ^^^ m % 256 ^ 2)) := by
                rw [← Nat.xor_assoc, Nat.xor_self, Nat.zero_xor]
            _ = 0 := by rw [shown, Nat.xor_self]
        have half : m % 256 ^ 2 = m := by
          calc m % 256 ^ 2 = m ^^^ (m ^^^ m % 256 ^ 2) := by
                rw [← Nat.xor_assoc, Nat.xor_self, Nat.zero_xor]
            _ = m := by rw [nothing, Nat.xor_zero]
        omega
      · intro small
        rw [Nat.mod_eq_of_lt (by omega), Nat.xor_assoc, Nat.xor_self, Nat.xor_zero, Nat.zero_xor]
        exact ⟨fits, fun _ => maskFits⟩

end values

/-! The accessors. -/

section accessors

variable {native : Bool} {w : World} {s : Pointer} {offset : Int}
variable (wf : (w s.message).WellFormed) (struct : s.StructAt w) (writable : (w s.message).readonly = false)
variable (budget : 128 < (w s.message).traversalLimit) (lower : 0 ≤ offset)
include wf struct writable budget lower

theorem roundTrips_int {a : FieldAccess Int} {default : Option Int} {value : Int} {width maskWidth : Nat}
    (get : a.get = fun tmp => getIntOf native tmp width maskWidth offset s)
    (set : a.set = fun tmp value => setIntOf native tmp width offset value s)
    (mask : a.mask = makePrimitiveMaskFn width) (zero : a.zero = 0) (positive : 0 < width)
    (narrow : maskWidth ≤ width) (fits : width ≤ 4) (upper : offset + width ≤ (s.size w).dataByteLength) :
    a.RoundTrips s.message (fieldBits s (8 * offset) (8 * width) w) default value w ↔
      DataView.number true width (wrap width value ^^^ (default.map (wrap width)).getD 0 ^^^
          (default.map (wrap width)).getD 0 % 256 ^ maskWidth) = value ∧
        (s.field offset width w = 0 → DataView.number true width (0 ^^^
          (default.map (wrap width)).getD 0 % 256 ^ maskWidth) = default.getD 0) := by
  refine roundTrips_bytes (fun mask bits => DataView.number true width (bits ^^^ mask.getD 0 % 256 ^ maskWidth)) zero mask
    wf struct budget lower upper (DataView.toNat_emod_lt value width) ?_ ?_
  · intro tmp mask bounded
    rw [set]
    exact Pointer.setIntOf_stores wf struct.holds writable (by omega) positive fits lower upper bounded
  · intro tmp mask w' bounded wf' struct' budget' size
    rw [get]
    exact Pointer.getIntOf_reads wf' struct'.holds budget' positive narrow fits lower (by rw [size]; exact upper) bounded

theorem roundTrips_signed {a : FieldAccess Int} {default : Option Int} {value : Int} {width : Nat}
    (get : a.get = fun tmp => getIntOf native tmp width width offset s)
    (set : a.set = fun tmp value => setIntOf native tmp width offset value s)
    (mask : a.mask = makePrimitiveMaskFn width) (zero : a.zero = 0) (positive : 0 < width) (fits : width ≤ 4)
    (shows : Shows true width value) (masks : ∀ mask ∈ default, Shows true width mask)
    (upper : offset + width ≤ (s.size w).dataByteLength) :
    a.RoundTrips s.message (fieldBits s (8 * offset) (8 * width) w) default value w := by
  apply (roundTrips_int wf struct writable budget lower get set mask zero positive (Nat.le_refl _) fits upper).mpr
  rw [Nat.mod_eq_of_lt default_lt]
  exact shows_masked shows masks _

theorem roundTrips_uint {a : FieldAccess Int} {default : Option Int} {value : Int} {width : Nat}
    (get : a.get = fun _ => getUintOf width offset s) (set : a.set = fun _ value => setUintOf width offset value s)
    (mask : a.mask = makePrimitiveMaskFn width) (zero : a.zero = 0) (positive : 0 < width) (fits : width ≤ 4)
    (nonneg : 0 ≤ value) (small : value < 256 ^ width)
    (masks : ∀ mask ∈ default, 0 ≤ mask ∧ mask < 256 ^ width) (upper : offset + width ≤ (s.size w).dataByteLength) :
    a.RoundTrips s.message (fieldBits s (8 * offset) (8 * width) w) default value w ↔
      ∀ mask ∈ default, value < 2 ^ 31 ∧ (s.field offset width w = 0 → mask < 2 ^ 31) := by
  rw [← shownUint_iff fits (shows_unsigned nonneg small) fun mask member =>
    shows_unsigned (masks mask member).1 (masks mask member).2]
  refine roundTrips_bytes Pointer.shownUint zero mask wf struct budget lower upper (DataView.toNat_emod_lt value width) ?_ ?_
  · intro tmp mask bounded
    rw [set]
    exact Pointer.setUintOf_stores wf struct.holds writable (by omega) positive fits nonneg small lower upper bounded
  · intro tmp mask w' bounded wf' struct' budget' size
    rw [get]
    exact Pointer.getUintOf_reads wf' struct'.holds budget' positive lower (by rw [size]; exact upper) bounded

theorem roundTrips_big {a : FieldAccess Int} {default : Option Int} {value : Int} {signed : Bool}
    (get : a.get = fun tmp => getBigOf native tmp signed offset s)
    (set : a.set = fun tmp value => setBigOf native tmp offset value s)
    (mask : a.mask = makePrimitiveMaskFn 8) (zero : a.zero = 0) (fits : Shows signed 8 value)
    (masks : ∀ mask ∈ default, Shows signed 8 mask) (upper : offset + (8 : Nat) ≤ (s.size w).dataByteLength) :
    a.RoundTrips s.message (fieldBits s (8 * offset) (8 * 8) w) default value w := by
  refine (roundTrips_bytes (fun mask bits => DataView.number signed 8 (bits ^^^ mask.getD 0)) zero mask
    wf struct budget lower upper (DataView.toNat_emod_lt value 8) ?_ ?_).mpr (shows_masked fits masks _)
  · intro tmp mask bounded
    rw [set]
    exact Pointer.setBigOf_stores wf struct.holds writable (by omega) lower upper bounded
  · intro tmp mask w' bounded wf' struct' budget' size
    rw [get]
    exact Pointer.getBigOf_reads wf' struct'.holds budget' lower (by rw [size]; exact upper) bounded

theorem roundTrips_bit {a : FieldAccess Bool} {default : Option Bool} {value : Bool}
    (get : a.get = fun _ => getBit offset s) (set : a.set = fun _ value => setBit offset value s)
    (mask : a.mask = fun value => getBitMask value offset) (zero : a.zero = false)
    (upper : offset < 8 * (s.size w).dataByteLength) :
    a.RoundTrips s.message (fieldBits s offset 1 w) default value w := by
  have inside : offset / 8 + (1 : Nat) ≤ (s.size w).dataByteLength := by omega
  have start := struct.holds.dataSection_nonneg
  let index := (offset % 8).toNat
  have bound : index < 8 := by omega
  let number : Option Nat := default.map fun value => if value then 2 ^ index else 0
  have masked : default.mapM a.mask = .ok (number.map (encode 1)) := by
    rw [mask]
    exact mapM_bitMask lower default
  have bounded : ∀ m ∈ number, m < 256 ^ 1 := bitMask_lt default
  have flag : (number.getD 0).testBit index = default.getD false := by
    cases default with
    | none => simp [number]
    | some d => cases d <;> simp [number]
  have byte : s.field (offset / 8) 1 w < 256 := Pointer.field_lt
  refine ⟨_, masked, ?_⟩
  intro tmp tmp'
  constructor
  · have stores : Pointer.Stores (setBit offset value s (number.map (encode 1))) s (offset / 8) 1
        (putBit (s.field (offset / 8) 1 w) index (value != (number.getD 0).testBit index)) w :=
      Pointer.setBit_stores wf struct.holds writable (by omega) lower upper bounded
    obtain ⟨written, ran, result⟩ := stores.after wf struct (by omega) inside (putBit_lt _ byte bound)
    have left := result.budget
    obtain ⟨count, _, read⟩ := Pointer.getBit_reads result.wellFormed result.struct.holds (by omega) lower
      (by rw [result.size]; exact upper) bounded
    rw [result.field, Nat.testBit_xor, testBit_putBit, if_pos rfl] at read
    refine ⟨written, written.spend s.message count, ?_, ?_, ?_⟩
    · rw [set]
      exact ran
    · rw [get]
      dsimp only
      rw [read]
      simp [index]
    · intro other segment place outside
      by_cases same : other = s.message ∧ (segment, place) ∈ fieldBits s (8 * (offset / 8)) (8 * 1) w
      · obtain ⟨rfl, here, above, below⟩ := same
        dsimp only at here above below
        have address : place / 8 = ((s.dataSection w).byteOffset + offset / 8).toNat := by omega
        have elsewhere : place % 8 ≠ index := by
          intro equal
          rcases outside with other | outside
          · exact other rfl
          · exact outside ⟨here, by dsimp only; omega, by dsimp only; omega⟩
        have after : written.bit s.message (s.dataSection written).segment place =
            (s.field (offset / 8) 1 written).testBit (place % 8) :=
          bit_of_field (by rw [result.dataSection]; exact address)
        rw [result.dataSection, result.field, testBit_putBit, if_neg elsewhere] at after
        rw [here, after, bit_of_field address]
      · apply keeps_bits result
        exact not_and_or.mp same
  · intro clear
    obtain ⟨count, _, read⟩ := Pointer.getBit_reads wf struct.holds (by omega) lower upper bounded
    have empty : (s.field (offset / 8) 1 w).testBit index = false := by
      have place : (8 * (s.dataSection w).byteOffset + offset).toNat / 8 =
          ((s.dataSection w).byteOffset + offset / 8).toNat := by omega
      have within : (8 * (s.dataSection w).byteOffset + offset).toNat % 8 = index := by omega
      rw [← within, ← bit_of_field place]
      exact clear ((s.dataSection w).segment, (8 * (s.dataSection w).byteOffset + offset).toNat) ⟨rfl, by dsimp only; omega, by dsimp only; omega⟩
    refine ⟨w.spend s.message count, ?_⟩
    rw [get, zero]
    dsimp only
    rw [read, Nat.testBit_xor]
    change EStateM.Result.ok ((s.field (offset / 8) 1 w).testBit index ^^ (number.getD 0).testBit index) _ = _
    rw [empty, flag, Bool.false_xor]

end accessors

/-- Every pair of accessors round trips, but for the two that cut their mask or its result. -/
theorem FieldType.field_roundTrips_iff (type : FieldType) (native : Bool) {w : World} {s : Pointer} {offset : Int}
    {default : Option type.Value} {value : type.Value} (wf : (w s.message).WellFormed) (struct : s.StructAt w)
    (writable : (w s.message).readonly = false) (budget : 128 < (w s.message).traversalLimit) (lower : 0 ≤ offset)
    (upper : type.bitOffset offset + type.bitWidth ≤ 8 * (s.size w).dataByteLength)
    (inRange : type.InRange value) (defaultInRange : ∀ mask ∈ default, type.InRange mask) :
    (type.access native s offset).RoundTrips s.message (fieldBits s (type.bitOffset offset) type.bitWidth w) default value w ↔
      type.Faithful (∀ place ∈ fieldBits s (type.bitOffset offset) type.bitWidth w,
        w.bit s.message place.1 place.2 = false) default value := by
  cases type with
  | int8 =>
      have inside : offset + (1 : Nat) ≤ (s.size w).dataByteLength := by
        simp only [bitOffset, bitWidth] at upper
        omega
      have shows (number : Int) (bounds : InRange .int8 number) : Shows true 1 number := by
        obtain ⟨low, high⟩ := bounds
        exact shows_signed (by omega) (by omega)
      exact iff_of_true (roundTrips_signed wf struct writable budget lower rfl rfl rfl rfl (by decide) (by decide)
        (shows value inRange) (fun mask member => shows mask (defaultInRange mask member)) inside) trivial
  | int16 =>
      have inside : offset + (2 : Nat) ≤ (s.size w).dataByteLength := by
        simp only [bitOffset, bitWidth] at upper
        omega
      have shows (number : Int) (bounds : InRange .int16 number) : Shows true 2 number := by
        obtain ⟨low, high⟩ := bounds
        exact shows_signed (by omega) (by omega)
      exact iff_of_true (roundTrips_signed wf struct writable budget lower rfl rfl rfl rfl (by decide) (by decide)
        (shows value inRange) (fun mask member => shows mask (defaultInRange mask member)) inside) trivial
  | int32 =>
      have inside : offset + (4 : Nat) ≤ (s.size w).dataByteLength := by
        simp only [bitOffset, bitWidth] at upper
        omega
      obtain ⟨low, high⟩ := inRange
      refine (roundTrips_int wf struct writable budget lower rfl rfl rfl rfl (by decide) (by decide) (by decide)
        inside).trans ?_
      exact halfMask_iff (shows_signed (by omega) (by omega)) defaultInRange _
  | int64 =>
      have inside : offset + (8 : Nat) ≤ (s.size w).dataByteLength := by
        simp only [bitOffset, bitWidth] at upper
        omega
      have shows (number : Int) (bounds : InRange .int64 number) : Shows true 8 number := by
        obtain ⟨low, high⟩ := bounds
        exact shows_signed (by omega) (by omega)
      exact iff_of_true (roundTrips_big wf struct writable budget lower rfl rfl rfl rfl
        (shows value inRange) (fun mask member => shows mask (defaultInRange mask member)) inside) trivial
  | uint8 =>
      have inside : offset + (1 : Nat) ≤ (s.size w).dataByteLength := by
        simp only [bitOffset, bitWidth] at upper
        omega
      refine iff_of_true ((roundTrips_uint wf struct writable budget lower rfl rfl rfl rfl (by decide) (by decide)
        inRange.1 inRange.2 defaultInRange inside).mpr ?_) trivial
      intro mask member
      obtain ⟨_, valueSmall⟩ := inRange
      obtain ⟨_, maskSmall⟩ := defaultInRange mask member
      exact ⟨by omega, fun _ => by omega⟩
  | uint16 =>
      have inside : offset + (2 : Nat) ≤ (s.size w).dataByteLength := by
        simp only [bitOffset, bitWidth] at upper
        omega
      refine iff_of_true ((roundTrips_uint wf struct writable budget lower rfl rfl rfl rfl (by decide) (by decide)
        inRange.1 inRange.2 defaultInRange inside).mpr ?_) trivial
      intro mask member
      obtain ⟨_, valueSmall⟩ := inRange
      obtain ⟨_, maskSmall⟩ := defaultInRange mask member
      exact ⟨by omega, fun _ => by omega⟩
  | uint32 =>
      have inside : offset + (4 : Nat) ≤ (s.size w).dataByteLength := by
        simp only [bitOffset, bitWidth] at upper
        omega
      refine (roundTrips_uint wf struct writable budget lower rfl rfl rfl rfl (by decide) (by decide) inRange.1 inRange.2
        defaultInRange inside).trans ?_
      rw [← fieldBits_zero struct lower]
      exact Iff.rfl
  | uint64 =>
      have inside : offset + (8 : Nat) ≤ (s.size w).dataByteLength := by
        simp only [bitOffset, bitWidth] at upper
        omega
      have shows (number : Int) (bounds : InRange .uint64 number) : Shows false 8 number :=
        shows_unsigned bounds.1 bounds.2
      exact iff_of_true (roundTrips_big wf struct writable budget lower rfl rfl rfl rfl
        (shows value inRange) (fun mask member => shows mask (defaultInRange mask member)) inside) trivial
  | bit =>
      have inside : offset < 8 * (s.size w).dataByteLength := by
        simp only [bitOffset, bitWidth] at upper
        omega
      exact iff_of_true (roundTrips_bit wf struct writable budget lower rfl rfl rfl rfl inside) trivial

/-! A message with a root struct of one data word. -/

def dataWordMessage : Message :=
  { arena := { kind := .SINGLE_SEGMENT, buffers := [] }
    segments := [{ buffer := [0, 0, 0, 0, 1, 0, 0, 0, 0, 0, 0, 0, 0, 0, 0, 0], byteLength := 16 }]
    traversalLimit := DEFAULT_TRAVERSE_LIMIT
    readonly := false
    capTable := none }

def dataWordWorld : World := fun _ => dataWordMessage

def dataWordStruct : Pointer := { message := 0, segment := 0, byteOffset := 0, depthLimit := 64 }

theorem dataWord_facts :
    (0 ≤ dataWordStruct.byteOffset ∧ dataWordStruct.byteOffset + 8 ≤ dataWordMessage.allocated 0) ∧
      PointerType.ofBits (dataWordStruct.lo dataWordWorld) ≠ .FAR ∧
      dataWordStruct.target dataWordWorld = dataWordStruct ∧
      dataWordStruct.targetType dataWordWorld = .STRUCT ∧
      dataWordStruct.objectStart dataWordWorld = ⟨0, 0, 8, 64, none, false⟩ ∧
      dataWordStruct.isNullWord dataWordWorld = false ∧
      dataWordStruct.dataSection dataWordWorld = ⟨0, 0, 8, 64, none, false⟩ ∧
      dataWordStruct.size dataWordWorld = ⟨8, 0⟩ ∧
      dataWordMessage.allocated 0 = 16 ∧ dataWordMessage.segments.length = 1 := by
  decide +kernel

theorem dataWord_struct : dataWordStruct.StructAt dataWordWorld := by
  obtain ⟨inBounds, notFar, target, type, start, notNull, section_, size, allocated, length⟩ := dataWord_facts
  have word : dataWordStruct.InBounds dataWordWorld := ⟨inBounds.1, inBounds.2⟩
  have sized : dataWordStruct.sizeWord dataWordWorld = dataWordStruct := target
  have path : dataWordStruct.path dataWordWorld = dataWordStruct.word := by
    rw [Pointer.path, Pointer.pads, if_neg notFar, Set.union_empty]
  refine ⟨⟨⟨word, fun far => absurd far notFar, fun far => absurd far notFar, ?_⟩, ?_, ?_, ?_, ?_⟩, notNull, type, ?_, ?_, ?_⟩
  · rw [target]
    exact word
  · rw [type]
    decide
  · rw [start]
    exact length.symm.le
  · rw [start]
    decide
  · rw [start]
    exact allocated.symm.le.trans' (by decide)
  · rw [sized]
    exact word
  · rw [section_, size]
    exact allocated.symm.le
  · rw [path, sized, Set.union_self, Pointer.dataBytes, section_, size]
    apply Set.disjoint_left.mpr
    rintro byte ⟨_, _, below⟩ ⟨_, above, _⟩
    simp only [dataWordStruct] at below above
    omega

theorem dataWord_wellFormed : dataWordMessage.WellFormed := by
  constructor <;> decide

theorem FieldType.field_roundTrips_iff_dataWord :
    (int32.access true dataWordStruct 4).RoundTrips 0 (fieldBits dataWordStruct 32 32 dataWordWorld) (some (5 : Int))
      (-1 : Int) dataWordWorld := by
  apply (int32.field_roundTrips_iff true dataWord_wellFormed dataWord_struct rfl (by decide) (by decide) ?_ ?_ ?_).mpr
  · rintro mask ⟨⟩
    exact ⟨by decide, by decide⟩
  · rw [dataWord_facts.2.2.2.2.2.2.2.1]
    decide
  · exact ⟨by decide, by decide⟩
  · rintro mask ⟨⟩
    exact ⟨by decide, by decide⟩

/-- The default 65536 of an `Int32` field reads as zero. -/
theorem FieldType.int32_default_lost :
    ¬ (int32.access true dataWordStruct 0).RoundTrips 0 (fieldBits dataWordStruct 0 32 dataWordWorld) (some (65536 : Int))
      (0 : Int) dataWordWorld := by
  let tmp : TmpWord := ⟨List.replicate 8 0, rfl⟩
  have mask : (some (65536 : Int)).mapM getInt32Mask = .ok (some [0, 0, 1, 0]) := by decide +kernel
  have shown : (match getInt32 true tmp 0 dataWordStruct (some [0, 0, 1, 0]) dataWordWorld with
      | .ok value _ => some value
      | .error _ _ => none) = some 0 := by decide +kernel
  have clear : ∀ place ∈ fieldBits dataWordStruct 0 32 dataWordWorld, dataWordWorld.bit 0 place.1 place.2 = false := by
    have empty : dataWordStruct.field 0 4 dataWordWorld = 0 := by decide +kernel
    exact (fieldBits_zero dataWord_struct (Int.le_refl 0)).mpr empty
  rintro ⟨_, same, trips⟩
  rw [show (int32.access true dataWordStruct 0).mask = getInt32Mask from rfl, mask] at same
  cases same
  obtain ⟨seen, default_⟩ := (trips tmp tmp).2 clear
  rw [show (int32.access true dataWordStruct 0).get tmp = getInt32 true tmp 0 dataWordStruct from rfl] at default_
  rw [default_] at shown
  exact absurd (Option.some.inj shown) (by decide)

end CapnpEs
