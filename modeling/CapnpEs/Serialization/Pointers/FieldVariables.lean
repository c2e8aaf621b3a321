import CapnpEs.Serialization.Pointers.FieldRoundTrip
import CapnpEs.Library.Assignments

/-! The fields of structs are variables: each shows what was written to it last, and no write reaches another. -/

namespace LittleEndian

theorem testBit_read (memory : Nat → UInt8) {offset width index : Nat} (inside : index < 8 * width) :
    (read memory offset width).testBit index = (memory (offset + index / 8)).toNat.testBit (index % 8) := by
  induction width generalizing offset index with
  | zero => omega
  | succ width ih =>
      have head : (memory offset).toNat < 2 ^ 8 := (memory offset).toNat_lt
      rw [read, Nat.add_comm, show 256 = 2 ^ 8 from rfl, Nat.testBit_two_pow_mul_add _ head]
      by_cases first : index < 8
      · rw [if_pos first, Nat.div_eq_of_lt first, Nat.mod_eq_of_lt first, Nat.add_zero]
      · rw [if_neg first, ih (by omega), show offset + 1 + (index - 8) / 8 = offset + index / 8 by omega,
          show (index - 8) % 8 = index % 8 by omega]

end LittleEndian

namespace CapnpEs

open Assignments (assign)
open LittleEndian (encode)

/-- Some bits in some bytes: what is put there for a value, and which value they show. What is put for a value it
carries is shown, from these bits alone, and the other bits stay. -/
structure Cell (Value : Type) (carries : Value → Prop) where
  byteOffset : Int
  width : Nat
  first : Nat
  count : Nat
  put : Nat → Value → Nat
  shown : Nat → Value
  put_lt : ∀ old value, old < 256 ^ width → put old value < 256 ^ width
  put_frame : ∀ old value index, index < 8 * width → (index < first ∨ first + count ≤ index) →
    (put old value).testBit index = old.testBit index
  shown_put : ∀ old value, carries value → shown (put old value) = value
  shown_congr : ∀ old new, old < 256 ^ width → new < 256 ^ width →
    (∀ index, first ≤ index → index < first + count → new.testBit index = old.testBit index) → shown new = shown old

namespace Cell

def bytes {carries : Int → Prop} (byteOffset : Int) (width : Nat) (raw : Int → Nat) (shown : Nat → Int)
    (small : ∀ value, raw value < 256 ^ width) (shows : ∀ value, carries value → shown (raw value) = value) :
    Cell Int carries where
  byteOffset := byteOffset
  width := width
  first := 0
  count := 8 * width
  put := fun _ value => raw value
  shown := shown
  put_lt := fun _ value _ => small value
  put_frame := fun _ _ _ _ outside => by omega
  shown_put := fun _ value carried => shows value carried
  shown_congr := fun old new oldSmall newSmall same => by
    apply congrArg shown
    apply Nat.eq_of_testBit_eq
    intro index
    by_cases inside : index < 8 * width
    · exact same index (Nat.zero_le index) (by omega)
    · have power : 256 ^ width ≤ 2 ^ index := by
        rw [show 256 = 2 ^ 8 from rfl, ← Nat.pow_mul]
        exact Nat.pow_le_pow_right (by decide) (by omega)
      rw [Nat.testBit_lt_two_pow (Nat.lt_of_lt_of_le newSmall power),
        Nat.testBit_lt_two_pow (Nat.lt_of_lt_of_le oldSmall power)]

/-- One bit of a byte. The bit of the mask is kept in it. -/
def bit {carries : Bool → Prop} (byteOffset : Int) (index : Nat) (bound : index < 8) (flag : Bool) : Cell Bool carries where
  byteOffset := byteOffset
  width := 1
  first := index
  count := 1
  put := fun old value => putBit old index (value != flag)
  shown := fun bits => bits.testBit index != flag
  put_lt := fun _ _ small => putBit_lt _ small bound
  put_frame := fun _ _ _ _ outside => by rw [testBit_putBit, if_neg (by omega)]
  shown_put := fun _ value _ => by
    rw [testBit_putBit, if_pos rfl]
    cases value <;> cases flag <;> rfl
  shown_congr := fun _ _ _ _ same => by rw [same index (Nat.le_refl index) (by omega)]

end Cell

section cells

variable {default : Option Int} {carries : Int → Prop} {width : Nat}

theorem masked_lt (default : Option Int) (width : Nat) (value : Int) :
    wrap width value ^^^ (default.map (wrap width)).getD 0 < 256 ^ width :=
  xor_lt (DataView.toNat_emod_lt value width) default_lt

theorem masks_lt (width : Nat) (default : Option Int) : ∀ m ∈ default.map (wrap width), m < 256 ^ width := by
  intro m member
  obtain ⟨d, _, rfl⟩ := Option.mem_map.mp member
  exact DataView.toNat_emod_lt d width

def intCell (offset : Int) (width maskWidth : Nat) (default : Option Int)
    (shows : ∀ value, carries value → DataView.number true width (wrap width value ^^^ (default.map (wrap width)).getD 0 ^^^
      (default.map (wrap width)).getD 0 % 256 ^ maskWidth) = value) : Cell Int carries :=
  .bytes offset width (fun value => wrap width value ^^^ (default.map (wrap width)).getD 0)
    (fun bits => DataView.number true width (bits ^^^ (default.map (wrap width)).getD 0 % 256 ^ maskWidth))
    (masked_lt default width) shows

def uintCell (offset : Int) (width : Nat) (default : Option Int)
    (shows : ∀ value, carries value → Pointer.shownUint (default.map (wrap width))
      (wrap width value ^^^ (default.map (wrap width)).getD 0) = value) : Cell Int carries :=
  .bytes offset width (fun value => wrap width value ^^^ (default.map (wrap width)).getD 0)
    (Pointer.shownUint (default.map (wrap width))) (masked_lt default width) shows

def bigCell (offset : Int) (signed : Bool) (default : Option Int)
    (shows : ∀ value, carries value → DataView.number signed 8 (wrap 8 value ^^^ (default.map (wrap 8)).getD 0 ^^^
      (default.map (wrap 8)).getD 0) = value) : Cell Int carries :=
  .bytes offset 8 (fun value => wrap 8 value ^^^ (default.map (wrap 8)).getD 0)
    (fun bits => DataView.number signed 8 (bits ^^^ (default.map (wrap 8)).getD 0)) (masked_lt default 8) shows

def bitCell {carries : Bool → Prop} (offset : Int) (default : Option Bool) : Cell Bool carries :=
  .bit (offset / 8) (offset % 8).toNat (by omega) (default.getD false)

theorem shows_wholeMask {value : Int} (fits : Shows true width value) (masks : ∀ mask ∈ default, Shows true width mask) :
    DataView.number true width (wrap width value ^^^ (default.map (wrap width)).getD 0 ^^^
      (default.map (wrap width)).getD 0 % 256 ^ width) = value := by
  rw [Nat.mod_eq_of_lt default_lt]
  exact (shows_masked fits masks False).1

theorem shows_narrowUint {value : Int} (narrow : width ≤ 4) (lower : 0 ≤ value) (upper : value < 256 ^ width)
    (masks : ∀ mask ∈ default, 0 ≤ mask ∧ mask < 256 ^ width) (small : ∀ mask ∈ default, value < 2 ^ 31) :
    Pointer.shownUint (default.map (wrap width)) (wrap width value ^^^ (default.map (wrap width)).getD 0) = value := by
  have masksFit : ∀ mask ∈ default, Shows false width mask := by
    intro mask member
    obtain ⟨low, high⟩ := masks mask member
    exact shows_unsigned low high
  exact ((shownUint_iff narrow (shows_unsigned lower upper) masksFit False).mpr
    fun mask member => ⟨small mask member, False.elim⟩).1

end cells

namespace FieldType

/-- The values that a field carries: those of its type, but for the masks that cut them. -/
def Carries (type : FieldType) (default : Option type.Value) (value : type.Value) : Prop :=
  type.InRange value ∧ type.Faithful False default value

def cell (offset : Int) : (type : FieldType) → (default : Option type.Value) →
    (∀ mask ∈ default, type.InRange mask) → Cell type.Value (type.Carries default)
  | int8, default, inRange => intCell offset 1 1 default fun value carried => by
      have shows (number : Int) (bounds : InRange .int8 number) : Shows true 1 number := by
        obtain ⟨low, high⟩ := bounds
        exact shows_signed (by omega) (by omega)
      exact shows_wholeMask (shows value carried.1) fun mask member => shows mask (inRange mask member)
  | int16, default, inRange => intCell offset 2 2 default fun value carried => by
      have shows (number : Int) (bounds : InRange .int16 number) : Shows true 2 number := by
        obtain ⟨low, high⟩ := bounds
        exact shows_signed (by omega) (by omega)
      exact shows_wholeMask (shows value carried.1) fun mask member => shows mask (inRange mask member)
  | int32, default, inRange => intCell offset 4 2 default fun value carried => by
      obtain ⟨⟨low, high⟩, small⟩ := carried
      exact ((halfMask_iff (shows_signed (by omega) (by omega)) inRange False).mpr small).1
  | int64, default, inRange => bigCell offset true default fun value carried => by
      have shows (number : Int) (bounds : InRange .int64 number) : Shows true 8 number := by
        obtain ⟨low, high⟩ := bounds
        exact shows_signed (by omega) (by omega)
      exact (shows_masked (shows value carried.1) (fun mask member => shows mask (inRange mask member)) False).1
  | uint8, default, inRange => uintCell offset 1 default fun value carried => by
      obtain ⟨low, high⟩ := carried.1
      exact shows_narrowUint (by decide) low high inRange fun mask member => by omega
  | uint16, default, inRange => uintCell offset 2 default fun value carried => by
      obtain ⟨low, high⟩ := carried.1
      exact shows_narrowUint (by decide) low high inRange fun mask member => by omega
  | uint32, default, inRange => uintCell offset 4 default fun value carried => by
      obtain ⟨⟨low, high⟩, small⟩ := carried
      exact shows_narrowUint (by decide) low high inRange fun mask member => (small mask member).1
  | uint64, default, inRange => bigCell offset false default fun value carried => by
      have shows (number : Int) (bounds : InRange .uint64 number) : Shows false 8 number :=
        shows_unsigned bounds.1 bounds.2
      exact (shows_masked (shows value carried.1) (fun mask member => shows mask (inRange mask member)) False).1
  | bit, default, _ => bitCell offset default

section places

variable {offset : Int} (type : FieldType) {default : Option type.Value} (inRange : ∀ mask ∈ default, type.InRange mask)

theorem cell_place (offset : Int) : 8 * (type.cell offset default inRange).byteOffset +
      (type.cell offset default inRange).first = type.bitOffset offset ∧
    (type.cell offset default inRange).count = type.bitWidth := by
  cases type with
  | bit =>
      refine ⟨?_, rfl⟩
      change 8 * (offset / 8) + ((offset % 8).toNat : Int) = offset
      omega
  | _ => exact ⟨Int.add_zero _, rfl⟩

theorem cell_lower (lower : 0 ≤ offset) : 0 ≤ (type.cell offset default inRange).byteOffset := by
  cases type with
  | bit => exact Int.ediv_nonneg lower (by decide)
  | _ => exact lower

theorem cell_within (offset : Int) : (type.cell offset default inRange).first + (type.cell offset default inRange).count ≤
    8 * (type.cell offset default inRange).width := by
  cases type with
  | bit =>
      change (offset % 8).toNat + 1 ≤ 8
      omega
  | _ => exact Nat.le_of_eq (Nat.zero_add _)

theorem cell_upper (offset : Int) {length : Nat} (upper : type.bitOffset offset + type.bitWidth ≤ 8 * length) :
    (type.cell offset default inRange).byteOffset + (type.cell offset default inRange).width ≤ length := by
  cases type with
  | bit =>
      simp only [bitOffset, bitWidth] at upper
      change offset / 8 + ((1 : Nat) : Int) ≤ length
      omega
  | int8 | uint8 =>
      simp only [bitOffset, bitWidth] at upper
      change offset + ((1 : Nat) : Int) ≤ length
      omega
  | int16 | uint16 =>
      simp only [bitOffset, bitWidth] at upper
      change offset + ((2 : Nat) : Int) ≤ length
      omega
  | int32 | uint32 =>
      simp only [bitOffset, bitWidth] at upper
      change offset + ((4 : Nat) : Int) ≤ length
      omega
  | int64 | uint64 =>
      simp only [bitOffset, bitWidth] at upper
      change offset + ((8 : Nat) : Int) ≤ length
      omega

end places

end FieldType

structure FieldAccess.Uses {Value : Type} {carries : Value → Prop} (a : FieldAccess Value) (default : Option Value)
    (s : Pointer) (cell : Cell Value carries) (mask : Option Bytes) : Prop where
  masked : default.mapM a.mask = .ok mask
  reads : ∀ tmp w, (w s.message).WellFormed → s.HoldsStruct w → 64 < (w s.message).traversalLimit →
    cell.byteOffset + cell.width ≤ (s.size w).dataByteLength →
      Reads (a.get tmp mask) s.message 8 w (cell.shown (s.field cell.byteOffset cell.width w))
  stores : ∀ tmp value w, (w s.message).WellFormed → s.HoldsStruct w → (w s.message).readonly = false →
    64 < (w s.message).traversalLimit → cell.byteOffset + cell.width ≤ (s.size w).dataByteLength → carries value →
      Pointer.Stores (a.set tmp value mask) s cell.byteOffset cell.width
        (cell.put (s.field cell.byteOffset cell.width w) value) w

section accessors

variable {native : Bool} {s : Pointer} {offset : Int} (lower : 0 ≤ offset)
include lower

theorem uses_int {a : FieldAccess Int} {default : Option Int} {carries : Int → Prop} {width maskWidth : Nat}
    (get : a.get = fun tmp => getIntOf native tmp width maskWidth offset s)
    (set : a.set = fun tmp value => setIntOf native tmp width offset value s)
    (mask : a.mask = makePrimitiveMaskFn width) (positive : 0 < width) (narrow : maskWidth ≤ width) (fits : width ≤ 4)
    {shows : ∀ value, carries value → DataView.number true width (wrap width value ^^^ (default.map (wrap width)).getD 0 ^^^
      (default.map (wrap width)).getD 0 % 256 ^ maskWidth) = value} :
    a.Uses default s (intCell offset width maskWidth default shows) ((default.map (wrap width)).map (encode width)) := by
  constructor
  · rw [mask]
    exact mapM_mask width default
  · intro tmp w wf struct budget upper
    rw [get]
    exact Pointer.getIntOf_reads wf struct budget positive narrow fits lower upper (masks_lt width default)
  · intro tmp value w wf struct writable budget upper _
    rw [set]
    exact Pointer.setIntOf_stores wf struct writable budget positive fits lower upper (masks_lt width default)

theorem uses_uint {a : FieldAccess Int} {default : Option Int} {carries : Int → Prop} {width : Nat}
    (get : a.get = fun _ => getUintOf width offset s) (set : a.set = fun _ value => setUintOf width offset value s)
    (mask : a.mask = makePrimitiveMaskFn width) (positive : 0 < width) (fits : width ≤ 4)
    (bounds : ∀ value, carries value → 0 ≤ value ∧ value < 256 ^ width)
    {shows : ∀ value, carries value → Pointer.shownUint (default.map (wrap width))
      (wrap width value ^^^ (default.map (wrap width)).getD 0) = value} :
    a.Uses default s (uintCell offset width default shows) ((default.map (wrap width)).map (encode width)) := by
  constructor
  · rw [mask]
    exact mapM_mask width default
  · intro tmp w wf struct budget upper
    rw [get]
    exact Pointer.getUintOf_reads wf struct budget positive lower upper (masks_lt width default)
  · intro tmp value w wf struct writable budget upper carried
    obtain ⟨nonneg, small⟩ := bounds value carried
    rw [set]
    exact Pointer.setUintOf_stores wf struct writable budget positive fits nonneg small lower upper
      (masks_lt width default)

theorem uses_big {a : FieldAccess Int} {default : Option Int} {carries : Int → Prop} {signed : Bool}
    (get : a.get = fun tmp => getBigOf native tmp signed offset s)
    (set : a.set = fun tmp value => setBigOf native tmp offset value s) (mask : a.mask = makePrimitiveMaskFn 8)
    {shows : ∀ value, carries value → DataView.number signed 8 (wrap 8 value ^^^ (default.map (wrap 8)).getD 0 ^^^
      (default.map (wrap 8)).getD 0) = value} :
    a.Uses default s (bigCell offset signed default shows) ((default.map (wrap 8)).map (encode 8)) := by
  constructor
  · rw [mask]
    exact mapM_mask 8 default
  · intro tmp w wf struct budget upper
    rw [get]
    exact Pointer.getBigOf_reads wf struct budget lower upper (masks_lt 8 default)
  · intro tmp value w wf struct writable budget upper _
    rw [set]
    exact Pointer.setBigOf_stores wf struct writable budget lower upper (masks_lt 8 default)

theorem uses_bit {a : FieldAccess Bool} {default : Option Bool} {carries : Bool → Prop}
    (get : a.get = fun _ => getBit offset s) (set : a.set = fun _ value => setBit offset value s)
    (mask : a.mask = fun value => getBitMask value offset) :
    ∃ masked, a.Uses default s (bitCell offset default : Cell Bool carries) masked := by
  let index := (offset % 8).toNat
  let number : Option Nat := default.map fun value => if value then 2 ^ index else 0
  have flag : (number.getD 0).testBit index = default.getD false := by
    cases default with
    | none => simp [number]
    | some d => cases d <;> simp [number]
  have bounded : ∀ m ∈ number, m < 256 ^ 1 := bitMask_lt default
  refine ⟨number.map (encode 1), ?_, ?_, ?_⟩
  · rw [mask]
    exact mapM_bitMask lower default
  · intro tmp w wf struct budget upper
    have inside : offset < 8 * (s.size w).dataByteLength := by
      change offset / 8 + ((1 : Nat) : Int) ≤ _ at upper
      omega
    have reads := Pointer.getBit_reads wf struct budget lower inside bounded
    rw [Nat.testBit_xor, flag] at reads
    rw [get]
    exact reads
  · intro tmp value w wf struct writable budget upper _
    have inside : offset < 8 * (s.size w).dataByteLength := by
      change offset / 8 + ((1 : Nat) : Int) ≤ _ at upper
      omega
    have stores : Pointer.Stores (setBit offset value s (number.map (encode 1))) s (offset / 8) 1
        (putBit (s.field (offset / 8) 1 w) index (value != (number.getD 0).testBit index)) w :=
      Pointer.setBit_stores wf struct writable budget lower inside bounded
    rw [flag] at stores
    rw [set]
    exact stores

theorem FieldType.access_uses_cell (type : FieldType) {default : Option type.Value}
    (inRange : ∀ mask ∈ default, type.InRange mask) :
    ∃ mask, (type.access native s offset).Uses default s (type.cell offset default inRange) mask := by
  cases type with
  | int8 => exact ⟨_, uses_int lower rfl rfl rfl (by decide) (by decide) (by decide)⟩
  | int16 => exact ⟨_, uses_int lower rfl rfl rfl (by decide) (by decide) (by decide)⟩
  | int32 => exact ⟨_, uses_int lower rfl rfl rfl (by decide) (by decide) (by decide)⟩
  | int64 => exact ⟨_, uses_big lower rfl rfl rfl⟩
  | uint8 => exact ⟨_, uses_uint lower rfl rfl rfl (by decide) (by decide) fun _ carried => carried.1⟩
  | uint16 => exact ⟨_, uses_uint lower rfl rfl rfl (by decide) (by decide) fun _ carried => carried.1⟩
  | uint32 => exact ⟨_, uses_uint lower rfl rfl rfl (by decide) (by decide) fun _ carried => carried.1⟩
  | uint64 => exact ⟨_, uses_big lower rfl rfl rfl⟩
  | bit => exact uses_bit lower rfl rfl rfl

end accessors

/-- A field of a struct, with the mask that its class keeps for it. -/
structure Field where
  struct : Pointer
  type : FieldType
  offset : Int
  default : Option type.Value
  lower : 0 ≤ offset
  inRange : ∀ mask ∈ default, type.InRange mask

namespace Field

variable (f : Field)

def access (native : Bool) : FieldAccess f.type.Value := f.type.access native f.struct f.offset

def get (native : Bool) (tmp : TmpWord) : WorldM f.type.Value := do
  let mask ← ofExcept (f.default.mapM (f.access native).mask)
  (f.access native).get tmp mask

def set (native : Bool) (tmp : TmpWord) (value : f.type.Value) : WorldM Unit := do
  let mask ← ofExcept (f.default.mapM (f.access native).mask)
  (f.access native).set tmp value mask

def Carries : f.type.Value → Prop := f.type.Carries f.default

def place (w : World) : Set (Nat × Nat) := fieldBits f.struct (f.type.bitOffset f.offset) f.type.bitWidth w

/-- The words that lead to the struct, and the one with its size. -/
def leads (w : World) : Set Byte := f.struct.path w ∪ (f.struct.sizeWord w).word

def cell : Cell f.type.Value f.Carries := f.type.cell f.offset f.default f.inRange

def shown (w : World) : f.type.Value := f.cell.shown (f.struct.field f.cell.byteOffset f.cell.width w)

/-- The field is in the data section of a struct of the message. -/
structure LiesIn (message : Nat) (w : World) : Prop where
  here : f.struct.message = message
  struct : f.struct.StructAt w
  upper : f.type.bitOffset f.offset + f.type.bitWidth ≤ 8 * (f.struct.size w).dataByteLength

variable {f} {w w' : World} {message : Nat}

theorem place_eq : f.place w = fieldBits f.struct (8 * f.cell.byteOffset + f.cell.first) f.cell.count w := by
  obtain ⟨first, count⟩ := f.type.cell_place f.inRange f.offset
  rw [place, cell, first, count]

theorem LiesIn.cell_upper (lies : f.LiesIn message w) :
    f.cell.byteOffset + f.cell.width ≤ (f.struct.size w).dataByteLength :=
  f.type.cell_upper f.inRange f.offset lies.upper

theorem bit_of_bytes (s : Pointer) (byteOffset : Int) {width index : Nat} (inside : index < 8 * width) :
    w.bit s.message (s.dataSection w).segment (8 * ((s.dataSection w).byteOffset + byteOffset).toNat + index) =
      (s.field byteOffset width w).testBit index := by
  rw [World.bit, Pointer.field, LittleEndian.testBit_read _ inside, Nat.mul_add_div (by decide), Nat.mul_add_mod]

theorem LiesIn.mem_place (lies : f.LiesIn message w) {index : Nat} :
    ((f.struct.dataSection w).segment,
        8 * ((f.struct.dataSection w).byteOffset + f.cell.byteOffset).toNat + index) ∈ f.place w ↔
      f.cell.first ≤ index ∧ index < f.cell.first + f.cell.count := by
  have start := lies.struct.holds.dataSection_nonneg
  have lower : 0 ≤ f.cell.byteOffset := f.type.cell_lower f.inRange f.lower
  rw [place_eq]
  constructor
  · rintro ⟨_, above, below⟩
    dsimp only at above below
    omega
  · rintro ⟨above, below⟩
    exact ⟨rfl, by dsimp only; omega, by dsimp only; omega⟩

theorem LiesIn.shown_congr (lies : f.LiesIn message w) (section_ : f.struct.dataSection w' = f.struct.dataSection w)
    (same : ∀ place ∈ f.place w, w'.bit message place.1 place.2 = w.bit message place.1 place.2) :
    f.shown w' = f.shown w := by
  have within : f.cell.first + f.cell.count ≤ 8 * f.cell.width := f.type.cell_within f.inRange f.offset
  have here := lies.here
  subst here
  apply f.cell.shown_congr
  · exact Pointer.field_lt
  · exact Pointer.field_lt
  · intro index above below
    have bits := same _ (lies.mem_place.mpr ⟨above, below⟩)
    have inside : index < 8 * f.cell.width := by omega
    rw [← bit_of_bytes f.struct f.cell.byteOffset inside, ← bit_of_bytes f.struct f.cell.byteOffset inside, section_]
    exact bits

theorem LiesIn.get_reads (lies : f.LiesIn message w) (wf : (w message).WellFormed)
    (budget : 64 < (w message).traversalLimit) (native : Bool) (tmp : TmpWord) :
    Reads (f.get native tmp) message 8 w (f.shown w) := by
  have here := lies.here
  subst here
  obtain ⟨mask, uses⟩ : ∃ mask, (f.access native).Uses f.default f.struct f.cell mask :=
    f.type.access_uses_cell f.lower f.inRange
  obtain ⟨count, le, run⟩ := uses.reads tmp w wf lies.struct.holds budget lies.cell_upper
  exact ⟨count, le, (Outcome.ofExcept_bind uses.masked _ w).trans run⟩

structure Wrote (f : Field) (value : f.type.Value) (w written : World) : Prop where
  budget : (w f.struct.message).traversalLimit - 64 ≤ (written f.struct.message).traversalLimit
  like : ∀ bytes, Disjoint bytes (f.struct.dataBytes w) → World.Like f.struct.message bytes w written
  shown : f.shown written = value
  others : ∀ other segment index, (other ≠ f.struct.message ∨ (segment, index) ∉ f.place w) →
    written.bit other segment index = w.bit other segment index

theorem LiesIn.set_run (lies : f.LiesIn message w) (wf : (w message).WellFormed)
    (writable : (w message).readonly = false) (budget : 64 < (w message).traversalLimit) (native : Bool) (tmp : TmpWord)
    {value : f.type.Value} (carried : f.Carries value) :
    ∃ written, f.set native tmp value w = .ok () written ∧ f.Wrote value w written := by
  have here := lies.here
  subst here
  have upper := lies.cell_upper
  have lower : 0 ≤ f.cell.byteOffset := f.type.cell_lower f.inRange f.lower
  have start := lies.struct.holds.dataSection_nonneg
  obtain ⟨mask, uses⟩ : ∃ mask, (f.access native).Uses f.default f.struct f.cell mask :=
    f.type.access_uses_cell f.lower f.inRange
  have stores := uses.stores tmp value w wf lies.struct.holds writable budget upper carried
  obtain ⟨written, ran, stored⟩ := stores.after wf lies.struct lower upper (f.cell.put_lt _ _ Pointer.field_lt)
  obtain ⟨count, _, overwritten⟩ := stores
  rw [ran] at overwritten
  have result := (EStateM.Result.ok.inj overwritten).2
  refine ⟨written, (Outcome.ofExcept_bind uses.masked _ w).trans ran, stored.budget, ?_, ?_, ?_⟩
  · intro bytes apart
    constructor
    · exact stored.wellFormed
    · simp [result]
    · simp [result]
    · simp [result]
    · simp [result]
    · intro byte member
      apply stored.others
      right
      intro inField
      exact Set.disjoint_left.mp apart member (Pointer.fieldBytes_subset lower upper inField)
  · rw [shown, stored.field]
    exact f.cell.shown_put _ value carried
  · intro other segment index outside
    by_cases same : other = f.struct.message ∧
        (segment, index) ∈ fieldBits f.struct (8 * f.cell.byteOffset) (8 * f.cell.width) w
    · -- a bit of the same bytes, beside the field
      obtain ⟨rfl, rfl, above, below⟩ := same
      dsimp only at above below outside ⊢
      obtain ⟨inside, rfl⟩ : ∃ inside, index =
          8 * ((f.struct.dataSection w).byteOffset + f.cell.byteOffset).toNat + inside :=
        ⟨index - 8 * ((f.struct.dataSection w).byteOffset + f.cell.byteOffset).toNat, by omega⟩
      have bound : inside < 8 * f.cell.width := by omega
      have beside : inside < f.cell.first ∨ f.cell.first + f.cell.count ≤ inside := by
        have apart : ¬ (f.cell.first ≤ inside ∧ inside < f.cell.first + f.cell.count) := by
          rw [← lies.mem_place]
          exact outside.resolve_left fun other => other rfl
        omega
      have after := bit_of_bytes (w := written) f.struct f.cell.byteOffset bound
      rw [stored.dataSection, stored.field, f.cell.put_frame _ _ _ bound beside] at after
      rw [after, bit_of_bytes f.struct f.cell.byteOffset bound]
    · exact keeps_bits stored other segment index (not_and_or.mp same)

end Field

/-- Fields of structs in one message that share no bits. What leads to the structs is in none of their data sections. -/
structure FieldsApart {ι : Type} (fields : ι → Field) (message : Nat) (w : World) : Prop where
  wellFormed : (w message).WellFormed
  writable : (w message).readonly = false
  lies : ∀ i, (fields i).LiesIn message w
  places : ∀ i j, i ≠ j → Disjoint ((fields i).place w) ((fields j).place w)
  leads : ∀ i j, Disjoint ((fields i).leads w) ((fields j).struct.dataBytes w)

structure FieldWrite {ι : Type} (fields : ι → Field) where
  index : ι
  value : (fields index).type.Value
  tmp : TmpWord

namespace FieldWrite

variable {ι : Type} {fields : ι → Field}

def run (native : Bool) (write : FieldWrite fields) : WorldM Unit :=
  (fields write.index).set native write.tmp write.value

def Carried (write : FieldWrite fields) : Prop := (fields write.index).Carries write.value

def assigned (write : FieldWrite fields) : Sigma fun i => (fields i).type.Value := ⟨write.index, write.value⟩

end FieldWrite

/-- The world `v` after some writes to fields of `w`: they show `values`, and `left` more writes are paid for. -/
structure FieldsShow {ι : Type} (fields : ι → Field) (message : Nat) (w : World) (left : Nat)
    (values : (i : ι) → (fields i).type.Value) (v : World) : Prop where
  like : World.Like message (⋃ i, (fields i).leads w) w v
  budget : 64 * (left + 1) < (v message).traversalLimit
  shown : ∀ i, (fields i).shown v = values i
  others : ∀ other segment index, (other ≠ message ∨ ∀ i, (segment, index) ∉ (fields i).place w) →
    v.bit other segment index = w.bit other segment index

section run

variable {ι : Type} {fields : ι → Field} {message : Nat} {w v : World} {left : Nat}
  {values : (i : ι) → (fields i).type.Value}

theorem FieldsApart.shows (apart : FieldsApart fields message w) (budget : 64 * (left + 1) < (w message).traversalLimit) :
    FieldsShow fields message w left (fun i => (fields i).shown w) w :=
  ⟨⟨apart.wellFormed, rfl, rfl, fun _ => rfl, fun _ => rfl, fun _ _ => rfl⟩, budget, fun _ => rfl, fun _ _ _ _ => rfl⟩

theorem FieldsApart.stays (apart : FieldsApart fields message w)
    (like : World.Like message (⋃ i, (fields i).leads w) w v) (i : ι) :
    (fields i).LiesIn message v ∧ (fields i).struct.dataSection v = (fields i).struct.dataSection w ∧
      (fields i).struct.dataBytes v = (fields i).struct.dataBytes w := by
  obtain ⟨here, struct, upper⟩ := apart.lies i
  have alike := like.mono (Set.subset_iUnion (fun i => (fields i).leads w) i)
  rw [← here] at alike
  obtain ⟨still, size, section_⟩ := struct.like alike
  refine ⟨⟨here, still, ?_⟩, section_, ?_⟩
  · rw [size]
    exact upper
  · rw [Pointer.dataBytes, Pointer.dataBytes, section_, size]

theorem FieldsShow.place_eq (apart : FieldsApart fields message w) (shows : FieldsShow fields message w left values v)
    (i : ι) : (fields i).place v = (fields i).place w := by
  rw [Field.place, Field.place, fieldBits, fieldBits, (apart.stays shows.like i).2.1]

theorem FieldsShow.step [DecidableEq ι] (apart : FieldsApart fields message w)
    (shows : FieldsShow fields message w (left + 1) values v) (native : Bool) (write : FieldWrite fields)
    (carried : write.Carried) :
    ∃ after, write.run native v = .ok () after ∧
      FieldsShow fields message w left (Function.update values write.index write.value) after := by
  obtain ⟨lies, -, bytes⟩ := apart.stays shows.like write.index
  have budget := shows.budget
  have writable : (v message).readonly = false := shows.like.readonly.trans apart.writable
  obtain ⟨after, ran, wrote⟩ :=
    lies.set_run shows.like.wellFormed writable (by omega) native write.tmp carried
  have here := lies.here
  have left_ := wrote.budget
  have leads : Disjoint (⋃ i, (fields i).leads w) ((fields write.index).struct.dataBytes v) := by
    rw [bytes]
    exact Set.disjoint_iUnion_left.mpr fun i => apart.leads i write.index
  have step := wrote.like _ leads
  have others := wrote.others
  rw [here] at left_ step others
  have like := shows.like.trans step
  refine ⟨after, ran, like, by omega, ?_, ?_⟩
  · intro i
    by_cases same : i = write.index
    · subst same
      rw [Function.update_self]
      exact wrote.shown
    · rw [Function.update_of_ne same, ← shows.shown i]
      have sections := (apart.stays like i).2.1.trans (apart.stays shows.like i).2.1.symm
      apply (apart.stays shows.like i).1.shown_congr sections
      intro place member
      apply others
      right
      rw [shows.place_eq apart] at member ⊢
      exact Set.disjoint_left.mp (apart.places i write.index same) member
  · intro other segment index outside
    rw [others other segment index, shows.others other segment index outside]
    rw [shows.place_eq apart]
    exact outside.imp_right fun none => none write.index

end run

/-- Fields are variables: after any writes each getter gives what was written to its field last, or what it gave
before, and no bit outside the fields has changed. -/
theorem fields_are_variables {ι : Type} [DecidableEq ι] (native : Bool) {fields : ι → Field} {message : Nat} {w : World}
    (apart : FieldsApart fields message w) :
    ∃ values : (i : ι) → (fields i).type.Value, ∀ writes : List (FieldWrite fields),
      (∀ write ∈ writes, write.Carried) → 64 * (writes.length + 1) < (w message).traversalLimit →
        ∃ written, writes.forM (FieldWrite.run native) w = .ok () written ∧
          (∀ i tmp, ∃ seen, (fields i).get native tmp written =
            .ok (assign values (writes.map FieldWrite.assigned) i) seen) ∧
          ∀ other segment index, (other ≠ message ∨ ∀ i, (segment, index) ∉ (fields i).place w) →
            written.bit other segment index = w.bit other segment index := by
  refine ⟨fun i => (fields i).shown w, ?_⟩
  intro writes carried budget
  have start : FieldsShow fields message w (0 + writes.length) (fun i => (fields i).shown w) w :=
    apart.shows (by omega)
  obtain ⟨written, ran, shows⟩ := Assignments.forM_follows
    (fun _ _ write _ fine shows => shows.step apart native write fine) carried start
  refine ⟨written, ran, ?_, shows.others⟩
  intro i tmp
  have enough := shows.budget
  obtain ⟨count, _, read⟩ := (apart.stays shows.like i).1.get_reads shows.like.wellFormed (by omega) native tmp
  refine ⟨written.spend message count, ?_⟩
  rw [read, shows.shown i, assign, List.foldl_map]
  rfl

def dataWordFields (i : Bool) : Field :=
  cond i
    ⟨dataWordStruct, .uint16, 0, some (7 : Int), by decide, by rintro mask ⟨⟩; exact ⟨by decide, by decide⟩⟩
    ⟨dataWordStruct, .bit, 35, some true, by decide, fun _ _ => trivial⟩

theorem dataWordFields_apart : FieldsApart dataWordFields 0 dataWordWorld := by
  have section_ := dataWord_facts.2.2.2.2.2.2.1
  have size := dataWord_facts.2.2.2.2.2.2.2.1
  have struct (i : Bool) : (dataWordFields i).struct = dataWordStruct := by
    cases i <;> rfl
  refine ⟨dataWord_wellFormed, rfl, ?_, ?_, ?_⟩
  · intro i
    refine ⟨?_, ?_, ?_⟩
    · rw [struct]
      rfl
    · rw [struct]
      exact dataWord_struct
    · rw [struct, size]
      cases i <;> decide
  · intro i j other
    apply Set.disjoint_left.mpr
    rintro ⟨segment, index⟩ ⟨_, above, below⟩ ⟨_, above', below'⟩
    rw [struct, section_] at above below above' below'
    cases i <;> cases j
    · exact other rfl
    · simp only [dataWordFields, cond_true, cond_false, FieldType.bitOffset, FieldType.bitWidth] at above below above' below'
      omega
    · simp only [dataWordFields, cond_true, cond_false, FieldType.bitOffset, FieldType.bitWidth] at above below above' below'
      omega
    · exact other rfl
  · intro i j
    rw [Field.leads, struct, struct]
    exact dataWord_struct.apart

def zeroWord : TmpWord := ⟨List.replicate 8 0, rfl⟩

def dataWordWrites : List (FieldWrite dataWordFields) :=
  [⟨true, (5 : Int), zeroWord⟩, ⟨false, true, zeroWord⟩, ⟨true, (9 : Int), zeroWord⟩]

theorem dataWordWrites_carried : ∀ write ∈ dataWordWrites, write.Carried := by
  intro write member
  simp only [dataWordWrites, List.mem_cons, List.not_mem_nil, or_false] at member
  obtain rfl | rfl | rfl := member
  · exact ⟨⟨(by decide : (0 : Int) ≤ 5), (by decide : (5 : Int) < 2 ^ 16)⟩, trivial⟩
  · exact ⟨trivial, trivial⟩
  · exact ⟨⟨(by decide : (0 : Int) ≤ 9), (by decide : (9 : Int) < 2 ^ 16)⟩, trivial⟩

/-- The number written last, and the bit beside it. -/
theorem fields_are_variables_dataWord : ∃ written seen last,
    dataWordWrites.forM (FieldWrite.run true) dataWordWorld = .ok () written ∧
      (dataWordFields true).get true zeroWord written = .ok (9 : Int) seen ∧
      (dataWordFields false).get true zeroWord written = .ok true last := by
  obtain ⟨values, shows⟩ := fields_are_variables true dataWordFields_apart
  obtain ⟨written, ran, reads, -⟩ := shows dataWordWrites dataWordWrites_carried (by decide)
  obtain ⟨seen, number⟩ := reads true zeroWord
  obtain ⟨last, flag⟩ := reads false zeroWord
  exact ⟨written, seen, last, ran, number, flag⟩

end CapnpEs
