import CapnpEs.Serialization.PackedFormat

/-! Everything `pack` has written so far decodes to the words it has read so far. -/

namespace CapnpEs

open PackedTag (ZERO SPAN NONZERO_NONSPAN)

/-! The tag byte of a word tells its zero bytes from the others. -/

/-- A byte is present in the packed word exactly if its mask is set in the tag. -/
def TagDescribes (tag : UInt8) (masks word : Bytes) : Prop :=
  List.Forall₂ (fun mask byte => tag &&& mask ≠ 0 ↔ byte ≠ 0) masks word

theorem getTagByte_describes (a b c d e f g h : UInt8) :
    TagDescribes (getTagByte a b c d e f g h) tagMasks [a, b, c, d, e, f, g, h] := by
  have checked : ∀ p q r s t u v w : Bool,
      let tag : UInt8 := (if p then 1 else 0) ||| (if q then 2 else 0) ||| (if r then 4 else 0) |||
        (if s then 8 else 0) ||| (if t then 16 else 0) ||| (if u then 32 else 0) |||
        (if v then 64 else 0) ||| (if w then 128 else 0)
      (tag &&& 1 ≠ 0 ↔ p = true) ∧ (tag &&& 2 ≠ 0 ↔ q = true) ∧ (tag &&& 4 ≠ 0 ↔ r = true) ∧
      (tag &&& 8 ≠ 0 ↔ s = true) ∧ (tag &&& 16 ≠ 0 ↔ t = true) ∧ (tag &&& 32 ≠ 0 ↔ u = true) ∧
      (tag &&& 64 ≠ 0 ↔ v = true) ∧ (tag &&& 128 ≠ 0 ↔ w = true) := by decide +kernel
  have found := checked (a != 0) (b != 0) (c != 0) (d != 0) (e != 0) (f != 0) (g != 0) (h != 0)
  simp only [bne_iff_ne, ne_eq, ite_not] at found
  obtain ⟨first, second, third, fourth, fifth, sixth, seventh, eighth⟩ := found
  exact .cons first (.cons second (.cons third (.cons fourth (.cons fifth (.cons sixth
    (.cons seventh (.cons eighth .nil)))))))

theorem TagDescribes.expandTag {tag : UInt8} {masks word : Bytes}
    (describes : TagDescribes tag masks word) (rest : Bytes) :
    expandTag tag masks (word.filter (· != 0) ++ rest) = word := by
  induction describes with
  | nil => rfl
  | @cons mask byte masks word first _ ih =>
      rw [CapnpEs.expandTag]
      by_cases zero : byte = 0
      · have absent : ¬ tag &&& mask ≠ 0 := fun present => first.mp present zero
        simp [zero, absent, ih]
      · simp [zero, first.mpr zero, ih]

theorem TagDescribes.maskCount {tag : UInt8} {masks word : Bytes}
    (describes : TagDescribes tag masks word) :
    maskCount tag masks = (word.filter (· != 0)).length := by
  induction describes with
  | nil => rfl
  | @cons mask byte masks word first _ ih =>
      rw [CapnpEs.maskCount] at ih
      rw [CapnpEs.maskCount, List.countP_cons, ih]
      by_cases zero : byte = 0
      · have absent : ¬ tag &&& mask ≠ 0 := fun present => first.mp present zero
        simp [zero, absent]
      · simp [zero, first.mpr zero]

theorem unpackedBytes_word (a b c d e f g h : UInt8) (rest : Bytes) :
    unpackedBytes NONZERO_NONSPAN
      (getTagByte a b c d e f g h :: ([a, b, c, d, e, f, g, h].filter (· != 0) ++ rest)) =
        [a, b, c, d, e, f, g, h] ++ unpackedBytes (getTagByte a b c d e f g h) rest := by
  have describes := getTagByte_describes a b c d e f g h
  rw [unpackedBytes, if_neg (by decide), if_neg (by decide), describes.expandTag,
    ← maskCount_tagMasks, describes.maskCount, List.drop_left]

theorem getTagByte_zero {a b c d e f g h : UInt8} (zero : getTagByte a b c d e f g h = ZERO) :
    [a, b, c, d, e, f, g, h] = List.replicate 8 0 := by
  have word := (getTagByte_describes a b c d e f g h).expandTag []
  rw [zero] at word
  rw [← word]
  rfl

/-! The loop invariant. -/

/-- `packed` stands for `words` and leaves the decoder with `lastTag`, whatever follows. -/
def Decodes (packed words : Bytes) (lastTag : UInt8) : Prop :=
  ∀ rest, unpackedBytes NONZERO_NONSPAN (packed ++ rest) = words ++ unpackedBytes lastTag rest

theorem Decodes.zeros {packed words : Bytes} (decodes : Decodes packed words ZERO) {count : Nat}
    (bound : count ≤ 255) :
    Decodes (packed ++ [UInt8.ofNat count]) (words ++ List.replicate (count * 8) 0)
      NONZERO_NONSPAN := by
  intro rest
  have value : (UInt8.ofNat count).toNat = count := by
    rw [UInt8.toNat_ofNat']
    omega
  have counted := decodes (UInt8.ofNat count :: rest)
  rw [unpackedBytes, if_pos rfl, value] at counted
  simpa using counted

theorem Decodes.span {packed words : Bytes} (decodes : Decodes packed words SPAN) {span : Bytes}
    {count : Nat} (bound : count ≤ 255) (size : span.length = count * 8) :
    Decodes (packed ++ UInt8.ofNat count :: span) (words ++ span) NONZERO_NONSPAN := by
  intro rest
  have value : (UInt8.ofNat count).toNat = count := by
    rw [UInt8.toNat_ofNat']
    omega
  have counted := decodes (UInt8.ofNat count :: (span ++ rest))
  rw [unpackedBytes, if_neg (by decide), if_pos rfl, value, ← size, padTo_append,
    List.drop_left] at counted
  simpa using counted

/-- What the state of `pack` says about the words read so far. -/
inductive PackInvariant : PackState → Bytes → Prop
  | ordinary {state words} : state.lastTag ≠ ZERO → state.lastTag ≠ SPAN →
      state.rangeWordCount = 0 → Decodes state.dst words NONZERO_NONSPAN →
      PackInvariant state words
  | zeros {state before words} : state.lastTag = ZERO → state.rangeWordCount ≤ 255 →
      Decodes state.dst before ZERO →
      words = before ++ List.replicate (state.rangeWordCount * 8) 0 →
      PackInvariant state words
  /-- The zero behind `front` is the place left for the word count of the span. -/
  | span {state before front span words} : state.lastTag = SPAN → state.rangeWordCount ≤ 255 →
      state.dst = front ++ 0 :: span → state.spanWordCountOffset = front.length →
      span.length = state.rangeWordCount * 8 → Decodes front before SPAN →
      words = before ++ span → PackInvariant state words

theorem PackInvariant.initial : PackInvariant .initial [] :=
  .ordinary (by decide) (by decide) rfl fun _ => rfl

theorem PackInvariant.finish {state : PackState} {words : Bytes}
    (invariant : PackInvariant state words) : Decodes state.finish words NONZERO_NONSPAN := by
  cases invariant with
  | ordinary notZero notSpan _ decodes => rwa [PackState.finish, if_neg notZero, if_neg notSpan]
  | zeros isZero bound decodes words =>
      rw [PackState.finish, if_pos isZero, words]
      exact decodes.zeros bound
  | span isSpan bound dst offset size decodes words =>
      have patched (count : UInt8) (front span : Bytes) :
          (front ++ 0 :: span).set front.length count = front ++ count :: span := by simp
      rw [PackState.finish, if_neg (by rw [isSpan]; decide), if_pos isSpan, dst, offset, patched,
        words]
      exact decodes.span bound size

theorem writeWord_invariant {state : PackState} {words : Bytes} (a b c d e f g h : UInt8)
    (count : state.rangeWordCount = 0) (decodes : Decodes state.dst words NONZERO_NONSPAN) :
    PackInvariant (writeWord state a b c d e f g h) (words ++ [a, b, c, d, e, f, g, h]) := by
  have written : Decodes
      (state.dst ++ [getTagByte a b c d e f g h] ++ [a, b, c, d, e, f, g, h].filter (· != 0))
      (words ++ [a, b, c, d, e, f, g, h]) (getTagByte a b c d e f g h) := by
    intro rest
    have tail := decodes
      (getTagByte a b c d e f g h :: ([a, b, c, d, e, f, g, h].filter (· != 0) ++ rest))
    rw [unpackedBytes_word] at tail
    rw [List.append_assoc, List.append_assoc, List.append_assoc]
    exact tail
  rw [writeWord]
  by_cases isSpan : getTagByte a b c d e f g h = SPAN
  · rw [if_pos isSpan]
    rw [isSpan] at written ⊢
    exact .span rfl (by simp [count]) rfl rfl (by simp [count]) written (by simp)
  · rw [if_neg isSpan]
    by_cases isZero : getTagByte a b c d e f g h = ZERO
    · rw [isZero] at written ⊢
      exact .zeros rfl (by simp [count]) written (by simp [count])
    · refine .ordinary isZero isSpan count ?_
      intro rest
      rw [written rest, unpackedBytes_ordinary isZero isSpan]

theorem packWord_invariant {state : PackState} {words : Bytes} (a b c d e f g h : UInt8)
    (invariant : PackInvariant state words) :
    PackInvariant (packWord state a b c d e f g h) (words ++ [a, b, c, d, e, f, g, h]) := by
  have finished := invariant.finish
  rw [packWord]
  cases invariant with
  | ordinary notZero notSpan count decodes =>
      rw [if_neg notZero, if_neg notSpan]
      exact writeWord_invariant a b c d e f g h count decodes
  | zeros isZero bound decodes words =>
      rename_i before
      rw [if_pos isZero]
      split
      · rw [PackState.finish, if_pos isZero] at finished
        exact writeWord_invariant a b c d e f g h rfl finished
      · rename_i stays
        simp only [ne_eq, ge_iff_le, not_or, not_not, not_le] at stays
        have grown : state.rangeWordCount + 1 ≤ 255 := by omega
        refine .zeros isZero grown decodes ?_
        rw [words, getTagByte_zero stays.1, List.append_assoc, ← List.replicate_add,
          Nat.succ_mul]
  | span isSpan bound dst offset size decodes words =>
      rename_i before front span
      have notZero : state.lastTag ≠ ZERO := by
        rw [isSpan]
        decide
      rw [if_neg notZero, if_pos isSpan]
      split
      · rw [PackState.finish, if_neg notZero, if_pos isSpan] at finished
        exact writeWord_invariant a b c d e f g h rfl finished
      · rename_i stays
        simp only [ge_iff_le, not_or, not_le] at stays
        have grown : state.rangeWordCount + 1 ≤ 255 := by omega
        have moved : state.dst ++ [a, b, c, d, e, f, g, h] = front ++ 0 :: (span ++ [a, b, c, d, e, f, g, h]) := by
          simp [dst]
        refine .span isSpan grown moved offset ?_ decodes ?_
        · simp only [List.length_append, List.length_cons, List.length_nil, size]
          omega
        · simp [words]

theorem packWords_invariant (state : PackState) (src words : Bytes) (aligned : src.length % 8 = 0)
    (invariant : PackInvariant state words) :
    PackInvariant (packWords state src) (words ++ src) := by
  induction state, src using packWords.induct generalizing words with
  | case1 state a b c d e f g h rest ih =>
      have step := packWord_invariant a b c d e f g h invariant
      have tail := ih (words ++ [a, b, c, d, e, f, g, h])
        (by simp only [List.length_cons] at aligned; omega) step
      rw [packWords]
      simpa using tail
  | case2 src state short =>
      have empty : src = [] := by
        match src, short, aligned with
        | [], _, _ => rfl
        | a :: b :: c :: d :: e :: f :: g :: h :: rest, short, _ =>
            exact absurd rfl (short a b c d e f g h rest)
      rw [empty, packWords, List.append_nil]
      · exact invariant
      · simp

theorem packView_decodes {unpacked view : Bytes} {byteOffset byteLength : Int}
    (buffer : unpacked.length % 8 = 0) (aligned : byteLength % 8 = 0)
    (found : uint8View unpacked byteOffset byteLength = .ok view) :
    ∃ packed, packView unpacked byteOffset byteLength = .ok packed ∧
      Decodes packed view NONZERO_NONSPAN := by
  have length := uint8View_length found
  have run := packWords_invariant .initial view [] (by omega) .initial
  refine ⟨_, ?_, run.finish⟩
  rw [packView, if_neg (by omega), found]
  rfl

theorem packView_eq_ok {unpacked packed : Bytes} {byteOffset byteLength : Int}
    (done : packView unpacked byteOffset byteLength = .ok packed) :
    unpacked.length % 8 = 0 ∧ ∃ view, uint8View unpacked byteOffset byteLength = .ok view := by
  rw [packView] at done
  split at done
  · simp at done
  · rename_i aligned
    cases found : uint8View unpacked byteOffset byteLength with
    | error reason => simp [found, bind, Except.bind] at done
    | ok view => exact ⟨by omega, view, rfl⟩

theorem pack_decodes {unpacked : Bytes} (aligned : unpacked.length % 8 = 0) :
    ∃ packed, pack unpacked = .ok packed ∧ Decodes packed unpacked NONZERO_NONSPAN :=
  packView_decodes aligned (by omega) (uint8View_whole unpacked)

theorem Decodes.append {packed words more others : Bytes}
    (first : Decodes packed words NONZERO_NONSPAN) (second : Decodes more others NONZERO_NONSPAN) :
    Decodes (packed ++ more) (words ++ others) NONZERO_NONSPAN := by
  intro rest
  rw [List.append_assoc, first, second, List.append_assoc]

theorem Decodes.unpack {packed words : Bytes} (decodes : Decodes packed words NONZERO_NONSPAN) :
    unpack packed = .ok words := by
  have all := decodes []
  rw [List.append_nil, unpackedBytes, List.append_nil] at all
  rw [unpack_eq, all]

theorem Decodes.byteLength {packed words : Bytes}
    (decodes : Decodes packed words NONZERO_NONSPAN) :
    getUnpackedByteLength packed = words.length := by
  have all := decodes []
  rw [List.append_nil, unpackedBytes, List.append_nil] at all
  rw [getUnpackedByteLength_eq, all]

theorem mapM_pack_decodes (buffers : List Bytes) (aligned : ∀ b ∈ buffers, b.length % 8 = 0) :
    ∃ packed, buffers.mapM pack = .ok packed ∧
      Decodes packed.flatten buffers.flatten NONZERO_NONSPAN := by
  induction buffers with
  | nil => exact ⟨[], rfl, fun _ => rfl⟩
  | cons buffer buffers ih =>
      obtain ⟨first, firstRun, firstDecodes⟩ := pack_decodes (aligned buffer (by simp))
      obtain ⟨others, othersRun, othersDecode⟩ := ih fun b member => aligned b (by simp [member])
      refine ⟨first :: others, ?_, firstDecodes.append othersDecode⟩
      rw [List.mapM_cons, firstRun, othersRun]
      rfl

end CapnpEs
