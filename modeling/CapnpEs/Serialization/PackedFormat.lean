import CapnpEs.Serialization.Packing
import Mathlib.Data.List.Basic

/-!
The meaning of a packed byte string, and the proof that `unpack` computes it. The meaning has no
output buffer: it says which bytes each tag stands for.
-/

namespace CapnpEs

/-- `src` cut or filled with zeros to `count` bytes. -/
def padTo (count : Nat) (src : Bytes) : Bytes :=
  src.take count ++ List.replicate (count - src.length) 0

@[simp] theorem padTo_length (count : Nat) (src : Bytes) : (padTo count src).length = count := by
  simp only [padTo, List.length_append, List.length_take, List.length_replicate]
  omega

theorem padTo_append (src rest : Bytes) : padTo src.length (src ++ rest) = src := by
  simp [padTo]

def expandTag (tag : UInt8) : List UInt8 → Bytes → Bytes
  | [], _ => []
  | mask :: masks, src =>
      if tag &&& mask ≠ 0 then src.headD 0 :: expandTag tag masks src.tail
      else 0 :: expandTag tag masks src

def maskCount (tag : UInt8) (masks : List UInt8) : Nat :=
  masks.countP fun mask => tag &&& mask ≠ 0

@[simp] theorem expandTag_length (tag : UInt8) (masks : List UInt8) (src : Bytes) :
    (expandTag tag masks src).length = masks.length := by
  induction masks generalizing src with
  | nil => rfl
  | cons mask masks ih =>
      rw [expandTag]
      split <;> simp [ih]

theorem maskCount_tagMasks (tag : UInt8) : maskCount tag tagMasks = getHammingWeight tag.toNat := by
  have checked : ∀ value : Fin 256, maskCount (UInt8.ofNat value.val) tagMasks =
      getHammingWeight value.val := by decide +kernel
  have found := checked ⟨tag.toNat, tag.toNat_lt⟩
  simpa using found

/-- The bytes a packed string stands for, when the previous tag was `lastTag`. -/
def unpackedBytes (lastTag : UInt8) : Bytes → Bytes
  | [] => []
  | tag :: rest =>
      if lastTag = PackedTag.ZERO then
        List.replicate (tag.toNat * 8) 0 ++ unpackedBytes PackedTag.NONZERO_NONSPAN rest
      else if lastTag = PackedTag.SPAN then
        padTo (tag.toNat * 8) rest ++
          unpackedBytes PackedTag.NONZERO_NONSPAN (rest.drop (tag.toNat * 8))
      else
        expandTag tag tagMasks rest ++ unpackedBytes tag (rest.drop (getHammingWeight tag.toNat))
  termination_by packed => packed.length
  decreasing_by all_goals simp; try omega

theorem unpackedBytes_length (lastTag : UInt8) (packed : Bytes) :
    (unpackedBytes lastTag packed).length = countWords lastTag packed * 8 := by
  induction lastTag, packed using unpackedBytes.induct with
  | case1 lastTag => simp [unpackedBytes, countWords]
  | case2 tag rest ih =>
      rw [unpackedBytes, countWords, if_pos rfl, if_pos rfl, List.length_append, ih,
        List.length_replicate, Nat.add_mul]
  | case3 tag rest notZero ih =>
      rw [unpackedBytes, countWords, if_neg notZero, if_neg notZero, if_pos rfl, if_pos rfl,
        List.length_append, ih, padTo_length, Nat.add_mul]
  | case4 lastTag tag rest notZero notSpan ih =>
      rw [unpackedBytes, countWords, if_neg notZero, if_neg notZero, if_neg notSpan, if_neg notSpan,
        List.length_append, ih, expandTag_length, show tagMasks.length = 8 from rfl, Nat.add_mul]

theorem getUnpackedByteLength_eq (packed : Bytes) :
    getUnpackedByteLength packed =
      (unpackedBytes PackedTag.NONZERO_NONSPAN packed).length := by
  rw [unpackedBytes_length, getUnpackedByteLength]

theorem unpackedBytes_ordinary {lastTag : UInt8} (notZero : lastTag ≠ PackedTag.ZERO)
    (notSpan : lastTag ≠ PackedTag.SPAN) (packed : Bytes) :
    unpackedBytes lastTag packed = unpackedBytes PackedTag.NONZERO_NONSPAN packed := by
  cases packed with
  | nil => simp [unpackedBytes]
  | cons tag rest =>
      rw [unpackedBytes, unpackedBytes, if_neg notZero, if_neg notSpan,
        if_neg (by decide), if_neg (by decide)]

/-! `unpack` writes into a buffer of zeros: what is behind the write position is still zero. -/

theorem copyTagged_spec (tag : UInt8) (masks : List UInt8) (out : Bytes) (spare : Nat)
    (src : Bytes) (room : masks.length ≤ spare) :
    copyTagged tag masks (out ++ List.replicate spare 0) out.length src =
      (out ++ expandTag tag masks src ++ List.replicate (spare - masks.length) 0,
        out.length + masks.length, src.drop (maskCount tag masks)) := by
  induction masks generalizing out spare src with
  | nil => simp [copyTagged, expandTag, maskCount]
  | cons mask masks ih =>
      obtain ⟨spare, rfl⟩ : ∃ smaller, spare = smaller + 1 :=
        ⟨spare - 1, by simp only [List.length_cons] at room; omega⟩
      have smallRoom : masks.length ≤ spare := by simpa using room
      have written (byte : UInt8) : (out ++ List.replicate (spare + 1) 0).set out.length byte =
          (out ++ [byte]) ++ List.replicate spare 0 := by
        rw [List.set_append_right _ _ (Nat.le_refl _), List.replicate_succ]
        simp
      have skipped : out ++ List.replicate (spare + 1) (0 : UInt8) =
          (out ++ [0]) ++ List.replicate spare 0 := by
        rw [List.replicate_succ]
        simp
      have position (byte : UInt8) : out.length + 1 = (out ++ [byte]).length := by simp
      rw [copyTagged, expandTag, maskCount, List.countP_cons]
      by_cases present : tag &&& mask ≠ 0
      · rw [if_pos present, if_pos present, written, position, ih _ _ _ smallRoom]
        simp [present, maskCount, Nat.add_comm, Nat.add_left_comm]
      · rw [if_neg present, if_neg present, skipped, position 0, ih _ _ _ smallRoom]
        simp [present, maskCount, Nat.add_comm, Nat.add_left_comm]

theorem setBytes_spec (out src : Bytes) (count spare : Nat) (room : count ≤ spare) :
    setBytes (out ++ List.replicate spare 0) (src.take count) out.length =
      .ok (out ++ padTo count src ++ List.replicate (spare - count) 0) := by
  have size : (src.take count).length ≤ spare := by
    simp only [List.length_take]
    omega
  rw [setBytes, if_neg (by simp only [List.length_append, List.length_replicate]; omega)]
  have front : (out ++ List.replicate spare (0 : UInt8)).take out.length = out := by simp
  have back : (out ++ List.replicate spare (0 : UInt8)).drop
      (out.length + (src.take count).length) =
        List.replicate (count - src.length) 0 ++ List.replicate (spare - count) 0 := by
    rw [List.drop_append, List.drop_eq_nil_of_le (by omega), List.nil_append, List.drop_replicate,
      ← List.replicate_add]
    congr 1
    simp only [List.length_take]
    omega
  rw [front, back, padTo]
  simp

theorem unpackFrom_spec (lastTag : UInt8) (packed out : Bytes) :
    unpackFrom lastTag (out ++ List.replicate (countWords lastTag packed * 8) 0) out.length packed =
      .ok (out ++ unpackedBytes lastTag packed) := by
  induction lastTag, packed using unpackedBytes.induct generalizing out with
  | case1 lastTag => simp [unpackFrom, unpackedBytes, countWords]
  | case2 tag rest ih =>
      rw [unpackFrom, if_pos rfl, unpackedBytes, if_pos rfl, countWords, if_pos rfl]
      have zeros := ih (out ++ List.replicate (tag.toNat * 8) 0)
      rw [List.length_append, List.length_replicate] at zeros
      rw [Nat.add_mul, List.replicate_add, ← List.append_assoc, zeros, List.append_assoc]
  | case3 tag rest notZero ih =>
      rw [unpackFrom, if_neg notZero, if_pos rfl, unpackedBytes, if_neg notZero, if_pos rfl,
        countWords, if_neg notZero, if_pos rfl, setBytes_spec _ _ _ _ (by omega)]
      have spare : (tag.toNat + countWords PackedTag.NONZERO_NONSPAN (rest.drop (tag.toNat * 8))) * 8 -
          tag.toNat * 8 = countWords PackedTag.NONZERO_NONSPAN (rest.drop (tag.toNat * 8)) * 8 := by
        omega
      have span := ih (out ++ padTo (tag.toNat * 8) rest)
      rw [List.length_append, padTo_length] at span
      simp only [spare, span]
      rw [List.append_assoc]
  | case4 lastTag tag rest notZero notSpan ih =>
      rw [unpackFrom, if_neg notZero, if_neg notSpan, unpackedBytes, if_neg notZero, if_neg notSpan,
        countWords, if_neg notZero, if_neg notSpan,
        copyTagged_spec _ _ _ _ _ (by simp only [tagMasks, List.length_cons, List.length_nil]; omega),
        maskCount_tagMasks]
      have word := ih (out ++ expandTag tag tagMasks rest)
      have spare : (1 + countWords tag (rest.drop (getHammingWeight tag.toNat))) * 8 -
          tagMasks.length = countWords tag (rest.drop (getHammingWeight tag.toNat)) * 8 := by
        simp only [tagMasks, List.length_cons, List.length_nil]
        omega
      rw [List.length_append, expandTag_length] at word
      simp only [spare, word]
      rw [List.append_assoc]

/-- `unpack` never throws and returns what the packed bytes stand for. -/
theorem unpack_eq (packed : Bytes) :
    unpack packed = .ok (unpackedBytes PackedTag.NONZERO_NONSPAN packed) := by
  have run := unpackFrom_spec PackedTag.NONZERO_NONSPAN packed []
  simpa [unpack, getUnpackedByteLength] using run

end CapnpEs
