import CapnpEs.Serialization.Pointers.FieldRoundTrip
import CapnpEs.Serialization.Pointers.SharedDefaults
import CapnpEs.Serialization.Pointers.ShownObjects

/-! A struct of an older schema reads as if it were padded with zeros, but for two masks of 32 bits. -/

namespace CapnpEs

open LittleEndian (read encode)

/-- Both programs end alike: with the same error, or with results that show the same. -/
def Alike {α β : Type} (shows : α → World → β) : (first second : EStateM.Result CapnpError World α) → Prop
  | .ok value after, .ok value' after' => shows value after = shows value' after'
  | .error reason _, .error reason' _ => reason = reason'
  | _, _ => False

/-- `s'` is `s` with more data, all zero, and more pointers, all null. -/
structure Pointer.Padded (s s' : Pointer) (w : World) : Prop where
  depthLimit : s'.depthLimit = s.depthLimit
  data : (s.readSize w).dataByteLength ≤ (s'.readSize w).dataByteLength
  pointers : (s.readSize w).pointerLength ≤ (s'.readSize w).pointerLength
  stored : ∀ i : Int, 0 ≤ i → i < (s.readSize w).dataByteLength → s'.field i 1 w = s.field i 1 w
  zeros : ∀ i : Int, (s.readSize w).dataByteLength ≤ i → i < (s'.readSize w).dataByteLength → s'.field i 1 w = 0
  shown : ∀ i : Int, 0 ≤ i → i < (s.readSize w).pointerLength →
    ∀ depth, shown w depth (s.slot i w) = shown w depth (s'.slot i w)
  nulls : ∀ i : Int, (s.readSize w).pointerLength ≤ i → i < (s'.readSize w).pointerLength →
    (s'.slot i w).isNullWord w = true

namespace FieldType

def byteWidth : FieldType → Nat
  | int8 | uint8 | bit => 1
  | int16 | uint16 => 2
  | int32 | uint32 => 4
  | int64 | uint64 => 8

def byteOffset : FieldType → Int → Int
  | bit, offset => offset / 8
  | _, offset => offset

def maskBits (offset : Int) : (type : FieldType) → Option type.Value → Option Nat
  | bit, defaultValue => defaultValue.map fun (value : Bool) => if value then 2 ^ (offset % 8).toNat else 0
  | int8, defaultValue | uint8, defaultValue => defaultValue.map (wrap 1)
  | int16, defaultValue | uint16, defaultValue => defaultValue.map (wrap 2)
  | int32, defaultValue | uint32, defaultValue => defaultValue.map (wrap 4)
  | int64, defaultValue | uint64, defaultValue => defaultValue.map (wrap 8)

def seenInt (width maskWidth : Nat) (mask bits : Option Nat) : Int :=
  DataView.number true width (match bits with
    | some bits => bits ^^^ mask.getD 0 % 256 ^ maskWidth
    | none => mask.getD 0)

def seenUint (mask bits : Option Nat) : Int :=
  match bits with
  | some bits => Pointer.shownUint mask bits
  | none => mask.getD 0

def seenBig (signed : Bool) (mask bits : Option Nat) : Int :=
  DataView.number signed 8 (bits.getD 0 ^^^ mask.getD 0)

/-- What the getter makes of the bits of the mask, and of the field where it is stored. -/
def seen (offset : Int) (mask bits : Option Nat) : (type : FieldType) → type.Value
  | int8 => seenInt 1 1 mask bits
  | int16 => seenInt 2 2 mask bits
  | int32 => seenInt 4 2 mask bits
  | int64 => seenBig true mask bits
  | uint8 | uint16 | uint32 => seenUint mask bits
  | uint64 => seenBig false mask bits
  | bit => (bits.getD 0 ^^^ mask.getD 0).testBit (offset % 8).toNat

/-- The masks that are not cut: `getInt32` takes half of its mask in bounds, and the result of `getUint32` is signed. -/
def Uncut : (type : FieldType) → Option type.Value → Prop
  | int32, defaultValue => ∀ value ∈ defaultValue, (0 : Int) ≤ value ∧ value < (2 ^ 16 : Int)
  | uint32, defaultValue => ∀ value ∈ defaultValue, value < (2 ^ 31 : Int)
  | _, _ => True

end FieldType

inductive Getter
  | field (type : FieldType) (offset : Int) (defaultValue : Option type.Value)
  | pointer (index : Int)
  | pointerAs (index : Int)
  | text (index : Int) (defaultValue : Option String)
  | object (field : DefaultField) (index : Int) (defaultValue : Option Pointer)

namespace Getter

/-- Offsets are aligned, and a default is a value of the type, or a pointer that was made. -/
def Takes (nullMessage : Nat) (w : World) : Getter → Prop
  | field type offset defaultValue => 0 ≤ offset ∧ type.bitOffset offset % type.bitWidth = 0 ∧
      ∀ value ∈ defaultValue, type.InRange value
  | pointer index | pointerAs index | text index _ => 0 ≤ index
  | object _ index defaultValue => 0 ≤ index ∧ ∀ d ∈ defaultValue, d.message ≠ nullMessage ∧
      d.segment < (w d.message).segments.length ∧ 0 ≤ d.byteOffset ∧ d.byteOffset ≤ (w d.message).allocated d.segment ∧
        256 < (w d.message).traversalLimit

/-- The mask of a field that is only in the padding is not cut. -/
def CarriesMask (s s' : Pointer) (w : World) : Getter → Prop
  | field type offset defaultValue => 8 * (s.readSize w).dataByteLength ≤ type.bitOffset offset →
      type.bitOffset offset < 8 * (s'.readSize w).dataByteLength → type.Uncut defaultValue
  | _ => True

def showsValue {α : Type} (value : α) (_ : World) : α := value

def showsTree (p : Pointer) (after : World) : Nat → Shown := fun depth => Pointer.shown after depth p

/-- A pointer getter gives the same for both, and beyond the pointers of `s` its default. -/
def PointersAgree (index : Int) (defaultValue : Option Pointer) (get : Pointer → WorldM Pointer) (s s' : Pointer)
    (w : World) : Prop :=
  Alike showsTree (get s w) (get s' w) ∧ ((s.readSize w).pointerLength ≤ index →
    match defaultValue with
    | none => ∃ p after, get s w = .ok p after ∧ p.isNullWord after = true
    | some d => (w d.message).readonly = true → ∃ after, get s w =
        .ok { message := d.message, segment := d.segment, byteOffset := d.byteOffset, depthLimit := s.depthLimit - 1 } after)

/-- The getter gives the same for both structs, and beyond the sections of `s` its default. -/
def Agrees (native : Bool) (nullMessage copied : Nat) (encoder : String → Bytes) (decoder : Bytes → String)
    (s s' : Pointer) (w : World) : Getter → Prop
  | field type offset defaultValue =>
      ∃ mask, defaultValue.mapM (type.access native s offset).mask = .ok mask ∧ ∀ tmp tmp' : TmpWord,
        Alike showsValue ((type.access native s offset).get tmp mask w) ((type.access native s' offset).get tmp' mask w) ∧
          (8 * (s.readSize w).dataByteLength ≤ type.bitOffset offset → ∃ after,
            (type.access native s offset).get tmp mask w = .ok (defaultValue.getD (type.access native s offset).zero) after)
  | pointer index => PointersAgree index none (getPointer nullMessage index) s s' w
  | pointerAs index => PointersAgree index none (getPointerAs nullMessage index) s s' w
  | text index defaultValue =>
      Alike showsValue (getText nullMessage encoder decoder index s defaultValue w)
        (getText nullMessage encoder decoder index s' defaultValue w) ∧
      ((s.readSize w).pointerLength ≤ index →
        ∃ after, getText nullMessage encoder decoder index s defaultValue w = .ok (defaultValue.getD "") after)
  | object defaultField index defaultValue =>
      PointersAgree index defaultValue (fun s => defaultField.get nullMessage copied index s defaultValue) s s' w

end Getter

/-! The stored fields. -/

namespace Pointer

variable {w : World} {s s' : Pointer}

theorem readSize_aligned : (s.readSize w).dataByteLength % 8 = 0 := by
  rw [readSize]
  split
  · rfl
  · exact structSize_aligned _

def dataByte (s : Pointer) (w : World) (i : Nat) : UInt8 :=
  (w s.message).memory (s.dataSection w).segment ((s.dataSection w).byteOffset.toNat + i)

theorem HoldsStruct.field_eq (struct : s.HoldsStruct w) {offset : Int} (lower : 0 ≤ offset) (width : Nat) :
    s.field offset width w = read (s.dataByte w) offset.toNat width := by
  have start := struct.dataSection_nonneg
  have place : ((s.dataSection w).byteOffset + offset).toNat = (s.dataSection w).byteOffset.toNat + offset.toNat := by omega
  rw [field, place, ← LittleEndian.read_shift]
  rfl

theorem HoldsStruct.field_one (struct : s.HoldsStruct w) (i : Nat) : s.field i 1 w = (s.dataByte w i).toNat := by
  rw [struct.field_eq (Int.natCast_nonneg i), Int.toNat_natCast]
  rfl

theorem Padded.stored_cases (readable : s.Readable w) (readable' : s'.Readable w) (padded : Padded s s' w)
    {offset : Int} {width : Nat} (lower : 0 ≤ offset) (positive : 0 < width)
    (wholly : ¬ offset + width ≤ (s.readSize w).dataByteLength → (s.readSize w).dataByteLength ≤ offset) :
    (∃ bits, s.stored offset width w = some bits ∧ s'.stored offset width w = some bits) ∨
      (s.stored offset width w = none ∧ s'.stored offset width w = none) ∨
        (s.stored offset width w = none ∧ s'.stored offset width w = some 0) := by
  have data := padded.data
  have storedBytes := padded.stored
  have zeros := padded.zeros
  simp only [Pointer.stored]
  by_cases inside : offset + width ≤ (s.readSize w).dataByteLength
  · have struct := readable.holds (notNull_of_data (by omega) inside)
    have struct' := readable'.holds (notNull_of_data (by omega) (by omega : offset + width ≤ (s'.readSize w).dataByteLength))
    have same : s'.field offset width w = s.field offset width w := by
      rw [struct.field_eq lower, struct'.field_eq lower]
      apply LittleEndian.read_congr
      intro i above below
      have byte := storedBytes i (Int.natCast_nonneg i) (by omega)
      rw [struct.field_one, struct'.field_one] at byte
      exact UInt8.toNat_inj.mp byte
    rw [if_pos inside, if_pos (by omega), same]
    exact Or.inl ⟨_, rfl, rfl⟩
  · rw [if_neg inside]
    by_cases inside' : offset + width ≤ (s'.readSize w).dataByteLength
    · have struct' := readable'.holds (notNull_of_data (by omega) inside')
      have zero : s'.field offset width w = 0 := by
        rw [struct'.field_eq lower]
        apply LittleEndian.read_eq_zero.mpr
        intro i above below
        have byte := zeros i (by have whole := wholly inside; omega) (by omega)
        rw [struct'.field_one] at byte
        exact UInt8.toNat_inj.mp byte
      rw [if_pos inside', zero]
      exact Or.inr (Or.inr ⟨rfl, rfl⟩)
    · rw [if_neg inside']
      exact Or.inr (Or.inl ⟨rfl, rfl⟩)

end Pointer

namespace FieldType

variable {w : World} {s : Pointer} {offset : Int} {native : Bool}

theorem byteWidth_positive (type : FieldType) : 0 < type.byteWidth := by
  cases type <;> decide

theorem maskBits_lt (type : FieldType) (defaultValue : Option type.Value) :
    ∀ m ∈ type.maskBits offset defaultValue, m < 256 ^ type.byteWidth := by
  have wrapped (width : Nat) (values : Option Int) : ∀ m ∈ values.map (wrap width), m < 256 ^ width := by
    intro m member
    obtain ⟨value, _, rfl⟩ := Option.mem_map.mp member
    exact DataView.toNat_emod_lt value width
  cases type with
  | int8 => exact wrapped 1 defaultValue
  | int16 => exact wrapped 2 defaultValue
  | int32 => exact wrapped 4 defaultValue
  | int64 => exact wrapped 8 defaultValue
  | uint8 => exact wrapped 1 defaultValue
  | uint16 => exact wrapped 2 defaultValue
  | uint32 => exact wrapped 4 defaultValue
  | uint64 => exact wrapped 8 defaultValue
  | bit => exact bitMask_lt defaultValue

theorem mapM_access (type : FieldType) (defaultValue : Option type.Value) (lower : 0 ≤ offset) :
    defaultValue.mapM (type.access native s offset).mask =
      .ok ((type.maskBits offset defaultValue).map (encode type.byteWidth)) := by
  cases type with
  | int8 => exact mapM_mask 1 defaultValue
  | int16 => exact mapM_mask 2 defaultValue
  | int32 => exact mapM_mask 4 defaultValue
  | int64 => exact mapM_mask 8 defaultValue
  | uint8 => exact mapM_mask 1 defaultValue
  | uint16 => exact mapM_mask 2 defaultValue
  | uint32 => exact mapM_mask 4 defaultValue
  | uint64 => exact mapM_mask 8 defaultValue
  | bit => exact mapM_bitMask lower defaultValue

theorem access_reads (type : FieldType) (defaultValue : Option type.Value) (readable : s.Readable w)
    (budget : 64 < (w s.message).traversalLimit) (lower : 0 ≤ offset) (tmp : TmpWord) :
    Reads ((type.access native s offset).get tmp ((type.maskBits offset defaultValue).map (encode type.byteWidth)))
      s.message 8 w (type.seen offset (type.maskBits offset defaultValue)
        (s.stored (type.byteOffset offset) type.byteWidth w)) := by
  have bounded : ∀ m ∈ type.maskBits offset defaultValue, m < 256 ^ type.byteWidth := type.maskBits_lt defaultValue
  cases type with
  | int8 => exact Pointer.getIntOf_readable readable budget (by decide) (by decide) (by decide) lower bounded
  | int16 => exact Pointer.getIntOf_readable readable budget (by decide) (by decide) (by decide) lower bounded
  | int32 => exact Pointer.getIntOf_readable readable budget (by decide) (by decide) (by decide) lower bounded
  | int64 => exact Pointer.getBigOf_readable readable budget lower bounded
  | uint8 => exact Pointer.getUintOf_readable readable budget (by decide) lower bounded
  | uint16 => exact Pointer.getUintOf_readable readable budget (by decide) lower bounded
  | uint32 => exact Pointer.getUintOf_readable readable budget (by decide) lower bounded
  | uint64 => exact Pointer.getBigOf_readable readable budget lower bounded
  | bit => exact Pointer.getBit_readable readable budget lower bounded

theorem xor32_zero {bits : Nat} (small : bits < 2 ^ 32) : (bits : Int) = xor32 (0 : Nat) bits ↔ bits < 2 ^ 31 := by
  have same := @xor32_eq_iff 0 bits (by decide) small
  rw [Nat.zero_xor] at same
  rw [← same]
  exact eq_comm

theorem seen_default (type : FieldType) {defaultValue : Option type.Value} (inRange : ∀ value ∈ defaultValue, type.InRange value) :
    type.seen offset (type.maskBits offset defaultValue) none = defaultValue.getD (type.access native s offset).zero := by
  have unsigned {width : Nat} {values : Option Int} (fits : ∀ value ∈ values, 0 ≤ value ∧ value < 256 ^ width) :
      (((values.map (wrap width)).getD 0 : Nat) : Int) = values.getD 0 := by
    have same : DataView.number false width ((values.map (wrap width)).getD 0) = values.getD 0 :=
      shows_default fun value member => shows_unsigned (fits value member).1 (fits value member).2
    rwa [DataView.number_false] at same
  cases type with
  | int8 =>
      have fits : ∀ value ∈ (defaultValue : Option Int), Shows true 1 value := by
        intro value member
        obtain ⟨low, high⟩ := inRange value member
        exact shows_signed (by omega) (by omega)
      rw [seen, seenInt, maskBits]
      exact shows_default fits
  | int16 =>
      have fits : ∀ value ∈ (defaultValue : Option Int), Shows true 2 value := by
        intro value member
        obtain ⟨low, high⟩ := inRange value member
        exact shows_signed (by omega) (by omega)
      rw [seen, seenInt, maskBits]
      exact shows_default fits
  | int32 =>
      have fits : ∀ value ∈ (defaultValue : Option Int), Shows true 4 value := by
        intro value member
        obtain ⟨low, high⟩ := inRange value member
        exact shows_signed (by omega) (by omega)
      rw [seen, seenInt, maskBits]
      exact shows_default fits
  | int64 =>
      have fits : ∀ value ∈ (defaultValue : Option Int), Shows true 8 value := by
        intro value member
        obtain ⟨low, high⟩ := inRange value member
        exact shows_signed (by omega) (by omega)
      rw [seen, seenBig, Option.getD_none, Nat.zero_xor]
      exact shows_default fits
  | uint8 => exact unsigned inRange
  | uint16 => exact unsigned inRange
  | uint32 => exact unsigned inRange
  | uint64 =>
      rw [seen, seenBig, Option.getD_none, Nat.zero_xor, DataView.number_false]
      exact unsigned inRange
  | bit =>
      rw [seen, Option.getD_none, Nat.zero_xor]
      cases defaultValue with
      | none => exact Nat.zero_testBit _
      | some value =>
          change (if value then 2 ^ (offset % 8).toNat else 0).testBit (offset % 8).toNat = value
          cases value with
          | false => exact Nat.zero_testBit _
          | true => exact Nat.testBit_two_pow_self

theorem seenInt_padding {width maskWidth : Nat} {mask : Option Nat} (small : mask.getD 0 < 256 ^ width) :
    seenInt width maskWidth mask none = seenInt width maskWidth mask (some 0) ↔ mask.getD 0 % 256 ^ maskWidth = mask.getD 0 := by
  have cut := Nat.lt_of_le_of_lt (Nat.mod_le (mask.getD 0) (256 ^ maskWidth)) small
  rw [seenInt, seenInt, Nat.zero_xor]
  exact ⟨fun same => (number_injective small cut same).symm, fun same => by rw [same]⟩

theorem seenUint_padding {mask : Option Nat} (small : ∀ m ∈ mask, m < 2 ^ 32) :
    seenUint mask none = seenUint mask (some 0) ↔ ∀ m ∈ mask, m < 2 ^ 31 := by
  cases mask with
  | none => exact iff_of_true rfl fun _ impossible => absurd impossible (by simp)
  | some m =>
      simp only [Option.mem_some_iff, forall_eq']
      exact xor32_zero (small m rfl)

theorem wrap_half {value : Int} (low : -2 ^ 31 ≤ value) (high : value < 2 ^ 31) :
    wrap 4 value % 256 ^ 2 = wrap 4 value ↔ 0 ≤ value ∧ value < 2 ^ 16 := by
  rw [wrap]
  omega

theorem wrap_sign {value : Int} (low : 0 ≤ value) (high : value < 2 ^ 32) : wrap 4 value < 2 ^ 31 ↔ value < 2 ^ 31 := by
  rw [wrap]
  omega

theorem seen_padding (type : FieldType) {defaultValue : Option type.Value} (inRange : ∀ value ∈ defaultValue, type.InRange value) :
    type.seen offset (type.maskBits offset defaultValue) none = type.seen offset (type.maskBits offset defaultValue) (some 0) ↔
      type.Uncut defaultValue := by
  have narrow (width : Nat) (values : Option Int) (narrow : 256 ^ width ≤ 2 ^ 31) : ∀ m ∈ values.map (wrap width), m < 2 ^ 31 := by
    intro m member
    obtain ⟨value, _, rfl⟩ := Option.mem_map.mp member
    exact Nat.lt_of_lt_of_le (DataView.toNat_emod_lt value width) narrow
  cases type with
  | int8 => exact iff_of_true ((seenInt_padding default_lt).mpr (Nat.mod_eq_of_lt default_lt)) trivial
  | int16 => exact iff_of_true ((seenInt_padding default_lt).mpr (Nat.mod_eq_of_lt default_lt)) trivial
  | int32 =>
      refine (seenInt_padding default_lt).trans ?_
      cases defaultValue with
      | none => exact iff_of_true rfl fun _ impossible => absurd impossible (by simp)
      | some value =>
          obtain ⟨low, high⟩ := inRange value rfl
          simp only [Uncut, Option.mem_some_iff, forall_eq', Option.map_some, Option.getD_some]
          exact wrap_half low high
  | int64 => exact iff_of_true rfl trivial
  | uint8 =>
      have small := narrow 1 defaultValue (by decide)
      exact iff_of_true ((seenUint_padding fun m member => Nat.lt_trans (small m member) (by decide)).mpr small) trivial
  | uint16 =>
      have small := narrow 2 defaultValue (by decide)
      exact iff_of_true ((seenUint_padding fun m member => Nat.lt_trans (small m member) (by decide)).mpr small) trivial
  | uint32 =>
      have small : ∀ m ∈ (defaultValue : Option Int).map (wrap 4), m < 2 ^ 32 := by
        intro m member
        obtain ⟨value, _, rfl⟩ := Option.mem_map.mp member
        exact DataView.toNat_emod_lt value 4
      refine (seenUint_padding small).trans ?_
      cases defaultValue with
      | none => exact iff_of_true (fun _ impossible => absurd impossible (by simp)) fun _ impossible => absurd impossible (by simp)
      | some value =>
          obtain ⟨low, high⟩ := inRange value rfl
          simp only [Uncut, Option.mem_some_iff, forall_eq', Option.map_some]
          exact wrap_sign low high
  | uint64 => exact iff_of_true rfl trivial
  | bit => exact iff_of_true rfl trivial

end FieldType

theorem FieldType.stored_iff (type : FieldType) {offset : Int} (aligned : type.bitOffset offset % type.bitWidth = 0)
    {length : Nat} (words : length % 8 = 0) :
    type.byteOffset offset + type.byteWidth ≤ length ↔ type.bitOffset offset < 8 * length := by
  cases type <;> simp only [byteOffset, byteWidth, bitOffset, bitWidth] at aligned ⊢ <;> omega

/-! The getters. -/

namespace Getter

variable {w : World} {s s' : Pointer} {nullMessage copied : Nat} {encoder : String → Bytes} {decoder : Bytes → String}
variable (readable : s.Readable w) (readable' : s'.Readable w) (padded : Pointer.Padded s s' w)
variable (budget : 256 < (w s.message).traversalLimit) (budget' : 256 < (w s'.message).traversalLimit)
include readable readable' padded budget budget'

theorem field_agrees_iff (native : Bool) {type : FieldType} {offset : Int} {defaultValue : Option type.Value}
    (takes : (field type offset defaultValue).Takes nullMessage w) :
    (field type offset defaultValue).Agrees native nullMessage copied encoder decoder s s' w ↔
      (field type offset defaultValue).CarriesMask s s' w := by
  obtain ⟨lower, aligned, inRange⟩ := takes
  let mask := type.maskBits offset defaultValue
  have reads (tmp : TmpWord) : ∃ after, (type.access native s offset).get tmp (mask.map (encode type.byteWidth)) w =
      .ok (type.seen offset mask (s.stored (type.byteOffset offset) type.byteWidth w)) after := by
    obtain ⟨count, _, run⟩ := type.access_reads defaultValue readable (by omega) lower tmp
    exact ⟨_, run⟩
  have reads' (tmp : TmpWord) : ∃ after, (type.access native s' offset).get tmp (mask.map (encode type.byteWidth)) w =
      .ok (type.seen offset mask (s'.stored (type.byteOffset offset) type.byteWidth w)) after := by
    obtain ⟨count, _, run⟩ := type.access_reads defaultValue readable' (by omega) lower tmp
    exact ⟨_, run⟩
  have start : 0 ≤ type.byteOffset offset := by
    cases type <;> simp only [FieldType.byteOffset] <;> omega
  have inside := type.stored_iff aligned (Pointer.readSize_aligned (s := s) (w := w))
  have inside' := type.stored_iff aligned (Pointer.readSize_aligned (s := s') (w := w))
  have wholly : ¬ type.byteOffset offset + type.byteWidth ≤ (s.readSize w).dataByteLength →
      ((s.readSize w).dataByteLength : Int) ≤ type.byteOffset offset := by
    rw [inside]
    cases type <;> simp only [FieldType.byteOffset, FieldType.bitOffset] <;> omega
  have cases_ := padded.stored_cases readable readable' start type.byteWidth_positive wholly
  have padding : type.seen offset mask none = type.seen offset mask (some 0) ↔ type.Uncut defaultValue :=
    type.seen_padding inRange
  have beyond (far : 8 * ((s.readSize w).dataByteLength : Int) ≤ type.bitOffset offset) :
      s.stored (type.byteOffset offset) type.byteWidth w = none := by
    rw [Pointer.stored, if_neg (by rw [inside]; omega)]
  constructor
  · rintro ⟨_, same, agrees⟩ far near
    rw [type.mapM_access defaultValue lower] at same
    cases same
    let tmp : TmpWord := ⟨List.replicate 8 0, rfl⟩
    obtain ⟨alike, _⟩ := agrees tmp tmp
    obtain ⟨after, run⟩ := reads tmp
    obtain ⟨after', run'⟩ := reads' tmp
    rw [run, run', beyond far] at alike
    apply padding.mp
    rcases cases_ with ⟨bits, stored, _⟩ | ⟨_, stored⟩ | ⟨_, stored⟩
    · rw [beyond far] at stored
      cases stored
    · rw [Pointer.stored, if_pos (inside'.mpr near)] at stored
      cases stored
    · rw [stored] at alike
      exact alike
  · intro carries
    refine ⟨_, type.mapM_access defaultValue lower, ?_⟩
    intro tmp tmp'
    obtain ⟨after, run⟩ := reads tmp
    obtain ⟨after', run'⟩ := reads' tmp'
    refine ⟨?_, ?_⟩
    · rw [run, run']
      rcases cases_ with ⟨bits, stored, stored'⟩ | ⟨stored, stored'⟩ | ⟨stored, stored'⟩
      · rw [stored, stored']
        exact rfl
      · rw [stored, stored']
        exact rfl
      · rw [stored, stored']
        apply padding.mpr
        apply carries
        · by_contra near
          rw [Pointer.stored, if_pos (inside.mpr (by omega))] at stored
          cases stored
        · by_contra far
          rw [Pointer.stored, if_neg (by rw [inside']; exact far)] at stored'
          cases stored'
    · intro far
      refine ⟨after, ?_⟩
      rw [run, beyond far]
      exact congrArg (fun value => EStateM.Result.ok value after) (type.seen_default inRange)

/-! A null pointer, and the default in its place. -/

section defaults

variable {l : Pointer} {w' : World} {index : Int} {defaultValue : Option Pointer}

omit readable readable' padded budget budget' in
theorem reads_other {message : Nat} (field : Pointer.NullField nullMessage s l w w') (other : message ≠ nullMessage) :
    (w' message).segments = (w message).segments ∧ (w' message).readonly = (w message).readonly ∧
      (w message).traversalLimit - 128 ≤ (w' message).traversalLimit := by
  obtain ⟨count, le, same⟩ := field.reads
  rw [same message other]
  by_cases here : message = s.message
  · subst here
    refine ⟨World.spend_segments .., ?_, ?_⟩
    · rw [World.spend, Function.update_self]
    · rw [World.spend_traversalLimit]
      omega
  · rw [World.spend, Function.update_of_ne here]
    exact ⟨rfl, rfl, by omega⟩

omit readable readable' padded budget budget' in
theorem defaultOr_readonly {d : Pointer} (copied : Nat) (field : Pointer.NullField nullMessage s l w w') (depth : 2 ≤ s.depthLimit)
    (other : d.message ≠ nullMessage) (bound : d.segment < (w d.message).segments.length) (lower : 0 ≤ d.byteOffset)
    (upper : d.byteOffset ≤ (w d.message).allocated d.segment) (limit : 256 < (w d.message).traversalLimit)
    (readonly : (w d.message).readonly = true) :
    ∃ count, Pointer.defaultOr copied (some d) l w' =
      .ok { message := d.message, segment := d.segment, byteOffset := d.byteOffset, depthLimit := s.depthLimit - 1 }
        (w'.spend d.message count) := by
  obtain ⟨segments, still, left⟩ := reads_other field other
  have allocated : (w' d.message).allocated d.segment = (w d.message).allocated d.segment := by
    rw [Message.allocated, Message.allocated, segments]
  have made (count : Nat) (le : count ≤ 1) : Reads (newPointer d.message d.segment d.byteOffset (s.depthLimit - 1)) d.message 1
      (w'.spend d.message count)
      { message := d.message, segment := d.segment, byteOffset := d.byteOffset, depthLimit := s.depthLimit - 1 } := by
    apply newPointer_reads (by omega)
    · rw [World.spend_traversalLimit]
      omega
    · rw [World.spend_segments, segments]
      exact bound
    · exact lower
    · rw [World.spend_allocated, allocated]
      exact upper
  have first := made 0 (by omega)
  rw [World.spend_zero] at first
  have isRead : isReadOnly d w' = .ok true w' := Pointer.isReadOnly_run (still.trans readonly)
  have found : Reads (getReadOnlyPointer copied d l.depthLimit) d.message 1 w'
      { message := d.message, segment := d.segment, byteOffset := d.byteOffset, depthLimit := s.depthLimit - 1 } := by
    rw [field.depth]
    exact Reads.bind (k := 0) (r := 1) (Reads.of_run isRead) fun none le => by
      rw [Nat.le_zero.mp le, World.spend_zero, if_pos rfl]
      exact first
  have both : Reads (getReadOnlyPointer copied d l.depthLimit >>= newPointerAt) d.message 2 w'
      { message := d.message, segment := d.segment, byteOffset := d.byteOffset, depthLimit := s.depthLimit - 1 } :=
    Reads.bind (k := 1) (r := 1) found made
  obtain ⟨count, _, run⟩ := both
  exact ⟨count, run⟩

omit readable readable' padded budget budget' in
theorem onMessage_update {α : Type} (run : MessageM α) (w : World) (id : Nat) (m : Message) :
    onMessage id run (Function.update w id m) = match run m with
      | .ok value after => .ok value (Function.update w id after)
      | .error reason after => .error reason (Function.update w id after) := by
  rw [onMessage, Function.update_self]
  cases run m <;> simp only [Function.update_idem]

/-- What is done with the message of a copy is done with the world that holds it. -/
def placedCopy {α β : Type} (world : World) (copied : Nat) (value : β) :
    EStateM.Result CapnpError Message α → EStateM.Result CapnpError World β
  | .ok _ after => .ok value (Function.update world copied after)
  | .error reason after => .error reason (Function.update world copied after)

def openedCopy (copied : Nat) (pointer : Nat → Pointer) (visit : MessageM Nat) (world : World) :
    Except CapnpError Message → EStateM.Result CapnpError World Pointer
  | .error reason => .error reason world
  | .ok message =>
      match visit { message with readonly := true } with
      | .ok segment after => .ok (pointer segment) (Function.update world copied after)
      | .error reason after => .error reason (Function.update world copied after)

omit readable readable' padded budget budget' in
theorem defaultOr_writable {d l' : Pointer} {w'' : World} (same : w' d.message = w'' d.message)
    (writable : (w' d.message).readonly = false) (depth : l.depthLimit = l'.depthLimit) :
    Alike showsTree (Pointer.defaultOr copied (some d) l w') (Pointer.defaultOr copied (some d) l' w'') := by
  -- What is done with the copy, in any world that holds it.
  let pointer (segment : Nat) : Pointer :=
    { message := copied, segment, byteOffset := d.byteOffset, depthLimit := l.depthLimit }
  let visit : MessageM Nat := do
    let segment ← Message.getSegment d.segment
    Message.trackPointer segment d.byteOffset l.depthLimit
    Message.trackPointer segment d.byteOffset l.depthLimit
    return segment
  have opened (world : World) (here : world d.message = w' d.message) (l' : Pointer) (depth : l.depthLimit = l'.depthLimit) :
      Pointer.defaultOr copied (some d) l' world =
        openedCopy copied pointer visit world (w' d.message).copy := by
    rw [Pointer.defaultOr, Outcome.bind_apply, getReadOnlyPointer, Outcome.bind_apply, isReadOnly, here, writable, ← depth]
    simp only [Bool.false_eq_true, if_false]
    rw [Outcome.bind_apply, Outcome.get_apply]
    simp only [here]
    cases (w' d.message).copy with
    | error reason => rfl
    | ok message =>
        let m : Message := { message with readonly := true }
        have track (segment : Nat) (m : Message) : newPointer copied segment d.byteOffset l.depthLimit
            (Function.update world copied m) =
              placedCopy world copied (pointer segment) (Message.trackPointer segment d.byteOffset l.depthLimit m) := by
          rw [newPointer, Outcome.bind_apply, onMessage_update]
          cases Message.trackPointer segment d.byteOffset l.depthLimit m <;> rfl
        rw [Outcome.bind_apply, Outcome.ofExcept_ok]
        simp only
        rw [Outcome.bind_apply, show (set (Function.update world copied m) : WorldM PUnit) world =
          .ok ⟨⟩ (Function.update world copied m) from rfl]
        simp only
        rw [Outcome.bind_apply, onMessage_update]
        simp only [visit, openedCopy]
        rw [Outcome.bind_apply]
        cases Message.getSegment d.segment m with
        | error reason after => rfl
        | ok segment after =>
            simp only
            rw [track, Outcome.bind_apply]
            cases Message.trackPointer segment d.byteOffset l.depthLimit after with
            | error reason last => rfl
            | ok _ last =>
                change newPointer copied segment d.byteOffset l.depthLimit (Function.update world copied last) = _
                simp only
                rw [track, Outcome.bind_apply]
                cases Message.trackPointer segment d.byteOffset l.depthLimit last <;> rfl
  have first := opened w' rfl l rfl
  have second := opened w'' same.symm l' depth
  rw [first, second]
  cases (w' d.message).copy with
  | error reason => exact rfl
  | ok message =>
      simp only [openedCopy]
      cases visit { message with readonly := true } with
      | error reason after => exact rfl
      | ok segment after =>
          funext depth
          apply Pointer.shown_of_memory
          simp only [pointer, Function.update_self]

end defaults

variable {index : Int} {defaultValue : Option Pointer}

omit readable readable' budget budget' in
/-- A null field of `s` is null in `s'`. -/
theorem null_padded (lower : 0 ≤ index) (null : s.IsNullField index w) : s'.IsNullField index w := by
  intro inside'
  by_cases inside : index < (s.readSize w).pointerLength
  · rw [← Pointer.isNullWord_of_shown (padded.shown index lower inside)]
    exact null inside
  · exact padded.nulls index (by omega) inside'

omit budget budget' in
theorem pointers_agree (copied : Nat) {get : Pointer → WorldM Pointer} (lower : 0 ≤ index) (depth : 2 ≤ s.depthLimit)
    (takes : ∀ d ∈ defaultValue, d.message ≠ nullMessage ∧ d.segment < (w d.message).segments.length ∧ 0 ≤ d.byteOffset ∧
      d.byteOffset ≤ (w d.message).allocated d.segment ∧ 256 < (w d.message).traversalLimit)
    (falls : s.IsNullField index w → Pointer.FallsBack nullMessage copied defaultValue (get s) s w)
    (falls' : s'.IsNullField index w → Pointer.FallsBack nullMessage copied defaultValue (get s') s' w)
    (stored : index < (s.readSize w).pointerLength → (s.slot index w).isNullWord w = false →
      Alike showsTree (get s w) (get s' w)) : PointersAgree index defaultValue get s s' w := by
  by_cases null : s.IsNullField index w
  · obtain ⟨l, after, run, field⟩ := falls null
    obtain ⟨l', after', run', field'⟩ := falls' (null_padded padded lower null)
    have depth' : 2 ≤ s'.depthLimit := padded.depthLimit ▸ depth
    cases defaultValue with
    | none =>
        refine ⟨?_, fun _ => ⟨l, after, run, field.null⟩⟩
        rw [run, run']
        funext depth
        rw [showsTree, showsTree, Pointer.shown_null field.null, Pointer.shown_null field'.null]
    | some d =>
        obtain ⟨other, bound, start, upper, limit⟩ := takes d rfl
        by_cases readonly : (w d.message).readonly = true
        · obtain ⟨count, found⟩ := defaultOr_readonly copied field depth other bound start upper limit readonly
          obtain ⟨count', found'⟩ := defaultOr_readonly copied field' depth' other bound start upper limit readonly
          refine ⟨?_, fun _ _ => ⟨_, run.trans found⟩⟩
          rw [run, run', found, found', padded.depthLimit]
          funext depth
          apply Pointer.shown_of_memory
          funext segment
          rw [World.spend_memory, World.spend_memory, Message.memory, Message.memory, (reads_other field other).1,
            (reads_other field' other).1]
        · rw [Bool.not_eq_true] at readonly
          have same {t l : Pointer} {after : World} (field : Pointer.NullField nullMessage t l w after)
              (read : (w t.message).readonly = true) : after d.message = w d.message := by
            obtain ⟨count, _, kept⟩ := field.reads
            have apart : d.message ≠ t.message := by
              intro here
              rw [here, read] at readonly
              cases readonly
            rw [kept _ other, World.spend, Function.update_of_ne apart]
          refine ⟨?_, fun _ read => absurd (read.symm.trans readonly) (by decide)⟩
          rw [run, run']
          apply defaultOr_writable
          · rw [same field readable.readonly, same field' readable'.readonly]
          · rw [same field readable.readonly]
            exact readonly
          · rw [field.depth, field'.depth, padded.depthLimit]
  · have inside : index < (s.readSize w).pointerLength := by
      by_contra beyond
      exact null fun inside => absurd inside beyond
    have notNull : (s.slot index w).isNullWord w = false := by
      rw [Bool.eq_false_iff]
      exact fun isNull => null fun _ => isNull
    exact ⟨stored inside notNull, fun beyond => absurd inside (by omega)⟩

omit readable readable' budget budget' in
theorem slots_alike {program program' : WorldM Pointer} (lower : 0 ≤ index) (inside : index < (s.readSize w).pointerLength)
    (gives : Pointer.GivesSlot program s index w) (gives' : Pointer.GivesSlot program' s' index w) :
    Alike showsTree (program w) (program' w) := by
  obtain ⟨count, run⟩ := gives
  obtain ⟨count', run'⟩ := gives'
  rw [run, run']
  funext depth
  rw [showsTree, showsTree, Pointer.shown_spend, Pointer.shown_spend]
  exact padded.shown index lower inside depth

theorem text_agrees {text : Option String} (lower : 0 ≤ index) (depth : 2 ≤ s.depthLimit) (native : Bool) :
    (Getter.text index text).Agrees native nullMessage copied encoder decoder s s' w := by
  have depth' : 2 ≤ s'.depthLimit := padded.depthLimit ▸ depth
  by_cases null : s.IsNullField index w
  · obtain ⟨after, run⟩ := Pointer.getText_null readable budget depth lower null
    obtain ⟨after', run'⟩ := Pointer.getText_null readable' budget' depth' lower (null_padded padded lower null)
    refine ⟨?_, fun _ => ⟨after, run⟩⟩
    rw [run, run']
    exact rfl
  · have inside : index < (s.readSize w).pointerLength := by
      by_contra beyond
      exact null fun inside => absurd inside beyond
    have notNull : (s.slot index w).isNullWord w = false := by
      rw [Bool.eq_false_iff]
      exact fun isNull => null fun _ => isNull
    have pointers := padded.pointers
    have inside' : index < (s'.readSize w).pointerLength := by omega
    have same := padded.shown index lower inside
    have notNull' : (s'.slot index w).isNullWord w = false := by
      rw [← Pointer.isNullWord_of_shown same]
      exact notNull
    have start {t : Pointer} (readable : t.Readable w) (inside : index < (t.readSize w).pointerLength)
        (notNull : (t.slot index w).isNullWord w = false) : 0 ≤ ((t.slot index w).content w).byteOffset := by
      have lower := (readable.leads index lower inside notNull).resolves.lower
      rw [Pointer.content]
      split
      · exact Int.add_nonneg lower (by decide)
      · exact lower
    obtain ⟨after, run⟩ := Pointer.getText_stored readable budget depth lower inside notNull
    obtain ⟨after', run'⟩ := Pointer.getText_stored readable' budget' depth' lower inside' notNull'
    refine ⟨?_, fun beyond => absurd inside (by omega)⟩
    rw [run, run', Pointer.textAt_of_shown same notNull decoder (start readable inside notNull) (start readable' inside' notNull')]
    cases (s'.slot index w).textAt decoder w <;> exact rfl

theorem object_agrees {defaultField : DefaultField} (depth : 2 ≤ s.depthLimit) (native : Bool)
    (takes : (object defaultField index defaultValue).Takes nullMessage w) :
    (object defaultField index defaultValue).Agrees native nullMessage copied encoder decoder s s' w := by
  obtain ⟨lower, default_⟩ := takes
  have depth' : 2 ≤ s'.depthLimit := padded.depthLimit ▸ depth
  have pointers := padded.pointers
  have notNull' (inside : index < (s.readSize w).pointerLength) (notNull : (s.slot index w).isNullWord w = false) :
      (s'.slot index w).isNullWord w = false := by
    rw [← Pointer.isNullWord_of_shown (padded.shown index lower inside)]
    exact notNull
  cases defaultField with
  | struct size =>
      apply pointers_agree readable readable' padded copied lower depth default_
      · exact Pointer.getStruct_fallsBack readable budget depth lower size
      · exact Pointer.getStruct_fallsBack readable' budget' depth' lower size
      · intro inside notNull
        have same := padded.shown index lower inside
        obtain ⟨type, _, _⟩ := Pointer.node_of_shown same notNull
        obtain ⟨count, run⟩ := Pointer.getStruct_stored readable budget depth lower inside notNull nullMessage copied size
          defaultValue
        obtain ⟨count', run'⟩ := Pointer.getStruct_stored readable' budget' depth' lower (by omega) (notNull' inside notNull)
          nullMessage copied size defaultValue
        change Alike showsTree (getStruct nullMessage copied index size s defaultValue w)
          (getStruct nullMessage copied index size s' defaultValue w)
        rw [run, run', ← type]
        by_cases struct : (s.slot index w).targetType w = .STRUCT
        · rw [if_pos struct, if_pos struct]
          funext depth
          rw [showsTree, showsTree, Pointer.shown_spend, Pointer.shown_spend]
          exact same depth
        · rw [if_neg struct, if_neg struct]
          exact rfl
  | list elementSize compositeSize =>
      apply pointers_agree readable readable' padded copied lower depth default_
      · exact Pointer.getList_fallsBack readable budget depth lower elementSize compositeSize
      · exact Pointer.getList_fallsBack readable' budget' depth' lower elementSize compositeSize
      · intro inside notNull
        exact slots_alike padded lower inside
          (Pointer.getList_givesSlot readable budget depth lower inside notNull elementSize compositeSize)
          (Pointer.getList_givesSlot readable' budget' depth' lower (by omega) (notNull' inside notNull) elementSize compositeSize)
  | data =>
      apply pointers_agree readable readable' padded copied lower depth default_
      · exact Pointer.getData_fallsBack readable budget depth lower
      · exact Pointer.getData_fallsBack readable' budget' depth' lower
      · intro inside notNull
        exact slots_alike padded lower inside (Pointer.getData_givesSlot readable budget depth lower inside notNull)
          (Pointer.getData_givesSlot readable' budget' depth' lower (by omega) (notNull' inside notNull))

/-- Every getter reads the padded struct as the stored one, but for two masks of fields that are only in the padding. -/
theorem reads_padded_iff (g : Getter) (native : Bool) (takes : g.Takes nullMessage w) (depth : 2 ≤ s.depthLimit) :
    g.Agrees native nullMessage copied encoder decoder s s' w ↔ g.CarriesMask s s' w := by
  have depth' : 2 ≤ s'.depthLimit := padded.depthLimit ▸ depth
  have pointers := padded.pointers
  cases g with
  | field type offset defaultValue => exact field_agrees_iff readable readable' padded budget budget' native takes
  | pointer index =>
      refine iff_of_true (pointers_agree readable readable' padded copied takes depth (by simp)
        (Pointer.getPointer_fallsBack readable budget depth takes nullMessage copied)
        (Pointer.getPointer_fallsBack readable' budget' depth' takes nullMessage copied) ?_) trivial
      intro inside _
      exact slots_alike padded takes inside (Pointer.getPointer_givesSlot readable budget depth takes inside)
        (Pointer.getPointer_givesSlot readable' budget' depth' takes (by omega))
  | pointerAs index =>
      refine iff_of_true (pointers_agree readable readable' padded copied takes depth (by simp)
        (Pointer.getPointerAs_fallsBack readable budget depth takes nullMessage copied)
        (Pointer.getPointerAs_fallsBack readable' budget' depth' takes nullMessage copied) ?_) trivial
      intro inside _
      exact slots_alike padded takes inside (Pointer.getPointerAs_givesSlot readable budget depth takes inside)
        (Pointer.getPointerAs_givesSlot readable' budget' depth' takes (by omega))
  | text index defaultValue =>
      exact iff_of_true (text_agrees readable readable' padded budget budget' takes depth native) trivial
  | object defaultField index defaultValue =>
      exact iff_of_true (object_agrees readable readable' padded budget budget' depth native takes) trivial

end Getter

/-! A null struct, and a struct of one data word and one pointer. -/

def paddedRoot : Message :=
  { DefaultField.nullRoot with
    segments := [{ buffer := [0, 0, 0, 0, 1, 0, 1, 0] ++ List.replicate 16 0, byteLength := 24 }] }

def paddedWorld : World := fun id => if id = 1 then paddedRoot else DefaultField.nullRoot

def oldRoot : Pointer := DefaultField.rootOf 0

def newRoot : Pointer := DefaultField.rootOf 1

theorem oldRoot_facts : (0 ≤ oldRoot.byteOffset ∧ oldRoot.byteOffset + 8 ≤ (paddedWorld 0).allocated 0) ∧
    oldRoot.isNullWord paddedWorld = true ∧ oldRoot.readSize paddedWorld = ⟨0, 0⟩ := by
  decide +kernel

theorem newRoot_facts :
    (0 ≤ newRoot.byteOffset ∧ newRoot.byteOffset + 8 ≤ paddedRoot.allocated 0) ∧
      PointerType.ofBits (newRoot.lo paddedWorld) ≠ .FAR ∧
      newRoot.target paddedWorld = newRoot ∧
      newRoot.targetType paddedWorld = .STRUCT ∧
      newRoot.objectStart paddedWorld = ⟨1, 0, 8, 64, none, false⟩ ∧
      newRoot.isNullWord paddedWorld = false ∧
      newRoot.dataSection paddedWorld = ⟨1, 0, 8, 64, none, false⟩ ∧
      newRoot.size paddedWorld = ⟨8, 1⟩ ∧
      newRoot.readSize paddedWorld = ⟨8, 1⟩ ∧
      (∀ i < 8, newRoot.field (i : Nat) 1 paddedWorld = 0) ∧
      (newRoot.slot 0 paddedWorld).isNullWord paddedWorld = true ∧
      paddedRoot.allocated 0 = 24 ∧ paddedRoot.segments.length = 1 := by
  decide +kernel

theorem oldRoot_readable : oldRoot.Readable paddedWorld := by
  obtain ⟨inBounds, null, size⟩ := oldRoot_facts
  refine ⟨?_, rfl, ⟨inBounds.1, inBounds.2⟩, fun notNull => ?_, fun notNull => ?_, fun index lower inside _ => ?_⟩
  · constructor <;> decide
  · rw [null] at notNull
    cases notNull
  · rw [null] at notNull
    cases notNull
  · rw [size] at inside
    exact absurd lower (by simpa using inside)

theorem newRoot_readable : newRoot.Readable paddedWorld := by
  obtain ⟨inBounds, notFar, target, type, start, notNull, section_, size, readSize, _, null, allocated, length⟩ := newRoot_facts
  have word : newRoot.InBounds paddedWorld := ⟨inBounds.1, inBounds.2⟩
  have sized : newRoot.sizeWord paddedWorld = newRoot := target
  have here : paddedWorld newRoot.message = paddedRoot := rfl
  have resolves : newRoot.Resolves paddedWorld := by
    refine ⟨⟨word, fun far => absurd far notFar, fun far => absurd far notFar, ?_⟩, ?_, ?_, ?_, ?_⟩
    · rw [target]
      exact word
    · rw [type]
      decide
    · rw [start, here]
      exact length.symm.le
    · rw [start]
      decide
    · rw [start, here]
      exact allocated.symm.le.trans' (by decide)
  refine ⟨?_, rfl, word, fun _ => ⟨resolves, notNull, type, ?_, ?_⟩, fun _ => ?_, fun index lower inside stored => ?_⟩
  · constructor <;> decide
  · rw [sized]
    exact word
  · rw [section_, size, here]
    exact allocated.symm.le.trans' (by decide)
  · rw [section_, size, here]
    exact allocated.symm.le
  · rw [readSize] at inside
    have first : index = 0 := by
      dsimp only at inside
      omega
    rw [first, null] at stored
    cases stored

theorem roots_padded : Pointer.Padded oldRoot newRoot paddedWorld := by
  obtain ⟨_, _, oldSize⟩ := oldRoot_facts
  obtain ⟨_, _, _, _, _, _, _, _, newSize, zeros, null, _, _⟩ := newRoot_facts
  constructor
  · rfl
  · rw [oldSize]
    exact Nat.zero_le _
  · rw [oldSize]
    exact Nat.zero_le _
  · intro i lower inside
    rw [oldSize] at inside
    exact absurd lower (by simpa using inside)
  · intro i lower inside
    rw [oldSize] at lower
    rw [newSize] at inside
    obtain ⟨n, rfl⟩ := Int.eq_ofNat_of_zero_le lower
    exact zeros n (by dsimp only at inside; omega)
  · intro i lower inside
    rw [oldSize] at inside
    exact absurd lower (by simpa using inside)
  · intro i lower inside
    rw [oldSize] at lower
    rw [newSize] at inside
    have first : i = 0 := by
      dsimp only at lower inside
      omega
    rw [first]
    exact null

theorem Getter.reads_padded_iff_oldRoot :
    (Getter.field .int32 4 (some (5 : Int))).Agrees true 2 3 (fun _ => []) (fun _ => "") oldRoot newRoot paddedWorld := by
  refine (reads_padded_iff oldRoot_readable newRoot_readable roots_padded (by decide) (by decide) (.field .int32 4 (some (5 : Int)))
    true ⟨by decide, by decide, ?_⟩ (by decide)).mpr ?_
  · rintro value ⟨⟩
    exact ⟨by decide, by decide⟩
  · rintro _ _ value ⟨⟩
    exact ⟨by decide, by decide⟩

/-- The default 65536 of an `Int32` field is what the null struct shows, and zero is what the padded one shows. -/
theorem Getter.int32_padding_lost : ¬ (Getter.field .int32 0 (some (65536 : Int))).Agrees true 2 3 (fun _ => [])
    (fun _ => "") oldRoot newRoot paddedWorld := by
  intro agrees
  have carries := (field_agrees_iff oldRoot_readable newRoot_readable roots_padded (by decide) (by decide) true
    ⟨by decide, by decide, by rintro value ⟨⟩; exact ⟨by decide, by decide⟩⟩).mp agrees
  rw [CarriesMask, oldRoot_facts.2.2, newRoot_facts.2.2.2.2.2.2.2.2.1] at carries
  exact absurd (carries (by decide) (by decide) 65536 rfl).2 (by decide)

end CapnpEs
