import CapnpEs.Serialization.PackingRoundTrip

/-! How large packing and unpacking can make a buffer. -/

namespace CapnpEs

open PackedTag (ZERO SPAN NONZERO_NONSPAN)

/-! Packing. -/

theorem filter_length_weight (a b c d e f g h : UInt8) :
    ([a, b, c, d, e, f, g, h].filter (· != 0)).length = getHammingWeight (getTagByte a b c d e f g h).toNat := by
  rw [← maskCount_tagMasks, (getTagByte_describes a b c d e f g h).maskCount]

theorem filter_length_zeros (a b c d e f g h : UInt8) :
    ([a, b, c, d, e, f, g, h].filter (· != 0)).length + getZeroByteCount a b c d e f g h = 8 := by
  have one : ∀ x : UInt8, (if (x != 0) = true then 1 else 0) + (if x = 0 then 1 else 0) = 1 := by
    intro x
    by_cases zero : x = 0
    · simp [zero]
    · simp [zero]
  have first := one a
  have second := one b
  have third := one c
  have fourth := one d
  have fifth := one e
  have sixth := one f
  have seventh := one g
  have eighth := one h
  rw [← List.countP_eq_length_filter]
  simp only [List.countP_cons, List.countP_nil, getZeroByteCount]
  omega

theorem getHammingWeight_le {tag : UInt8} (ordinary : tag ≠ SPAN) : getHammingWeight tag.toNat ≤ 7 := by
  have all : ∀ n < 256, n ≠ 255 → getHammingWeight n ≤ 7 := by decide +kernel
  apply all tag.toNat tag.toNat_lt
  intro same
  exact ordinary (UInt8.toNat_inj.mp same)

namespace PackState

/-- How long the output is once an open range is finished. -/
def size (state : PackState) : Nat := state.dst.length + if state.lastTag = ZERO then 1 else 0

theorem finish_length (state : PackState) : state.finish.length = state.size := by
  unfold finish size
  split
  · rw [List.length_append]
    rfl
  · split
    · rw [List.length_set]
      rfl
    · rfl

/-- Seventeen bytes for two words, and three halves of a byte more for a span that has just begun; each further word
of a span gains half a byte. -/
structure Bounded (state : PackState) (words : Nat) : Prop where
  inSpan : state.lastTag = SPAN → 2 * state.size + state.rangeWordCount ≤ 17 * words + 3
  outside : state.lastTag ≠ SPAN → 2 * state.size ≤ 17 * words

theorem bounded_initial : Bounded .initial 0 where
  inSpan isSpan := absurd isSpan (by decide)
  outside _ := Nat.le_refl _

theorem Bounded.le {state : PackState} {words : Nat} (bounded : state.Bounded words) :
    2 * state.size ≤ 17 * words + 3 := by
  by_cases isSpan : state.lastTag = SPAN
  · have := bounded.inSpan isSpan
    omega
  · have := bounded.outside isSpan
    omega

end PackState

section word

variable (a b c d e f g h : UInt8)

theorem writeWord_span (state : PackState) (isSpan : getTagByte a b c d e f g h = SPAN) :
    (writeWord state a b c d e f g h).lastTag = SPAN ∧
      (writeWord state a b c d e f g h).rangeWordCount = state.rangeWordCount ∧
      (writeWord state a b c d e f g h).size = state.dst.length + 10 := by
  have eight := filter_length_weight a b c d e f g h
  rw [isSpan] at eight
  have weight : getHammingWeight SPAN.toNat = 8 := by decide
  have notZero : SPAN ≠ ZERO := by decide
  rw [writeWord, if_pos isSpan]
  refine ⟨isSpan, rfl, ?_⟩
  simp only [PackState.size, isSpan, if_neg notZero, List.length_append, eight, weight, List.length_cons, List.length_nil]

theorem writeWord_ordinary (state : PackState) (ordinary : getTagByte a b c d e f g h ≠ SPAN) :
    (writeWord state a b c d e f g h).lastTag ≠ SPAN ∧
      (writeWord state a b c d e f g h).size ≤
        state.dst.length + 1 + max 1 ([a, b, c, d, e, f, g, h].filter (· != 0)).length := by
  rw [writeWord, if_neg ordinary]
  refine ⟨ordinary, ?_⟩
  simp only [PackState.size, List.length_append, List.length_cons, List.length_nil]
  split
  · rename_i isZero
    have none := filter_length_weight a b c d e f g h
    rw [isZero] at none
    have weight : getHammingWeight ZERO.toNat = 0 := by decide
    omega
  · omega

variable {state : PackState} {words : Nat}

theorem writeWord_bounded (bounded : 2 * state.dst.length ≤ 17 * words) (count : state.rangeWordCount = 0) :
    (writeWord state a b c d e f g h).Bounded (words + 1) := by
  by_cases isSpan : getTagByte a b c d e f g h = SPAN
  · obtain ⟨tag, range, size⟩ := writeWord_span a b c d e f g h state isSpan
    exact ⟨fun _ => by omega, fun other => absurd tag other⟩
  · obtain ⟨tag, size⟩ := writeWord_ordinary a b c d e f g h state isSpan
    have seven := filter_length_weight a b c d e f g h
    have short := getHammingWeight_le isSpan
    exact ⟨fun other => absurd other tag, fun _ => by omega⟩

theorem packWord_bounded (bounded : state.Bounded words)
    (range : state.lastTag ≠ ZERO → state.lastTag ≠ SPAN → state.rangeWordCount = 0) :
    (packWord state a b c d e f g h).Bounded (words + 1) := by
  rw [packWord]
  by_cases isZero : state.lastTag = ZERO
  · have notSpan : state.lastTag ≠ SPAN := by
      rw [isZero]
      decide
    have before := bounded.outside notSpan
    rw [PackState.size, if_pos isZero] at before
    rw [if_pos isZero]
    split
    · apply writeWord_bounded
      · rw [List.length_append]
        exact before
      · rfl
    · refine ⟨fun other => absurd other notSpan, fun _ => ?_⟩
      rw [PackState.size, if_pos isZero]
      dsimp only
      omega
  · rw [if_neg isZero]
    by_cases isSpan : state.lastTag = SPAN
    · have before := bounded.inSpan isSpan
      rw [PackState.size, if_neg isZero] at before
      rw [if_pos isSpan]
      split
      · rename_i stops
        have eight := filter_length_zeros a b c d e f g h
        by_cases again : getTagByte a b c d e f g h = SPAN
        · have full := filter_length_weight a b c d e f g h
          rw [again] at full
          have weight : getHammingWeight SPAN.toNat = 8 := by decide
          rw [PACK_SPAN_THRESHOLD] at stops
          apply writeWord_bounded
          · rw [List.length_set]
            omega
          · rfl
        · obtain ⟨tag, size⟩ := writeWord_ordinary a b c d e f g h
            { state with
              dst := state.dst.set state.spanWordCountOffset (UInt8.ofNat state.rangeWordCount)
              rangeWordCount := 0 } again
          rw [List.length_set] at size
          have seven := filter_length_weight a b c d e f g h
          have short := getHammingWeight_le again
          rw [PACK_SPAN_THRESHOLD] at stops
          exact ⟨fun other => absurd other tag, fun _ => by omega⟩
      · refine ⟨fun _ => ?_, fun other => absurd isSpan other⟩
        rw [PackState.size, if_neg isZero, List.length_append]
        simp only [List.length_cons, List.length_nil]
        omega
    · rw [if_neg isSpan]
      apply writeWord_bounded
      · have before := bounded.outside isSpan
        rw [PackState.size, if_neg isZero] at before
        exact before
      · exact range isZero isSpan

end word

theorem PackInvariant.range {state : PackState} {words : Bytes} (invariant : PackInvariant state words)
    (notZero : state.lastTag ≠ ZERO) (notSpan : state.lastTag ≠ SPAN) : state.rangeWordCount = 0 := by
  cases invariant with
  | ordinary _ _ count _ => exact count
  | zeros isZero _ _ _ => exact absurd isZero notZero
  | span isSpan _ _ _ _ _ _ => exact absurd isSpan notSpan

theorem packWords_bounded {state : PackState} {words : Bytes} {count : Nat} (src : Bytes)
    (invariant : PackInvariant state words) (bounded : state.Bounded count) :
    (packWords state src).Bounded (count + src.length / 8) := by
  induction state, src using packWords.induct generalizing words count with
  | case1 state a b c d e f g h rest ih =>
      have step := packWord_bounded a b c d e f g h bounded invariant.range
      have tail := ih (packWord_invariant a b c d e f g h invariant) step
      rw [packWords]
      have length : (a :: b :: c :: d :: e :: f :: g :: h :: rest).length / 8 = 1 + rest.length / 8 := by
        simp only [List.length_cons]
        omega
      rwa [length, ← Nat.add_assoc]
  | case2 src state short =>
      rw [packWords]
      · have few : src.length / 8 = 0 := by
          rcases src with _ | ⟨a, _ | ⟨b, _ | ⟨c, _ | ⟨d, _ | ⟨e, _ | ⟨f, _ | ⟨g, _ | ⟨h, rest⟩⟩⟩⟩⟩⟩⟩⟩
          case cons.cons.cons.cons.cons.cons.cons.cons => exact absurd rfl (short a b c d e f g h rest)
          all_goals simp
        rw [few]
        exact bounded
      · exact short

theorem pack_eq {unpacked : Bytes} (aligned : unpacked.length % 8 = 0) :
    pack unpacked = .ok (packWords .initial unpacked).finish := by
  rw [pack, packView, if_neg (by omega), uint8View_whole]
  rfl

theorem pack_aligned {unpacked packed : Bytes} (done : pack unpacked = .ok packed) : unpacked.length % 8 = 0 :=
  (packView_eq_ok done).1

/-- Words without a zero byte, and between each two of them one with two zero bytes, which ends the span. -/
def denseWords : Nat → Bytes
  | 0 => [1, 1, 1, 1, 1, 1, 1, 1]
  | n + 1 => [1, 1, 1, 1, 1, 1, 1, 1] ++ ([1, 1, 1, 1, 1, 1, 0, 0] ++ denseWords n)

theorem denseWords_length (n : Nat) : (denseWords n).length = 16 * n + 8 := by
  induction n with
  | zero => rfl
  | succ n ih =>
      rw [denseWords, List.length_append, List.length_append, ih]
      simp only [List.length_cons, List.length_nil]
      omega

theorem packWords_dense (n : Nat) (state : PackState) (notZero : state.lastTag ≠ ZERO) (notSpan : state.lastTag ≠ SPAN)
    (count : state.rangeWordCount = 0) : (packWords state (denseWords n)).size = state.dst.length + 17 * n + 10 := by
  induction n generalizing state with
  | zero =>
      rw [denseWords, packWords, packWords, packWord, if_neg notZero, if_neg notSpan]
      · exact (writeWord_span 1 1 1 1 1 1 1 1 state (by decide)).2.2
      · simp
  | succ n ih =>
      have full : getTagByte 1 1 1 1 1 1 1 1 = SPAN := by decide
      have mixed : getTagByte 1 1 1 1 1 1 0 0 = 63 := by decide
      obtain ⟨tag, range, size⟩ := writeWord_span 1 1 1 1 1 1 1 1 state full
      have ended : (writeWord state 1 1 1 1 1 1 1 1).lastTag ≠ ZERO := by
        rw [tag]
        decide
      rw [PackState.size, if_neg ended, Nat.add_zero] at size
      have first : packWord state 1 1 1 1 1 1 1 1 = writeWord state 1 1 1 1 1 1 1 1 := by
        rw [packWord, if_neg notZero, if_neg notSpan]
      simp only [denseWords, List.cons_append, List.nil_append]
      rw [packWords, packWords, first, packWord, if_neg ended, if_pos tag, if_pos (Or.inl (by decide)), writeWord, mixed,
        if_neg (by decide), ih]
      · have six : ([1, 1, 1, 1, 1, 1, 0, 0].filter (· != (0 : UInt8))).length = 6 := by decide
        simp only [List.length_append, List.length_set, six, List.length_cons, List.length_nil]
        omega
      · show (63 : UInt8) ≠ ZERO
        decide
      · show (63 : UInt8) ≠ SPAN
        decide
      · rfl

theorem pack_dense (n : Nat) :
    ∃ packed, pack (denseWords n) = .ok packed ∧ 2 * packed.length = 17 * ((denseWords n).length / 8) + 3 := by
  have length := denseWords_length n
  refine ⟨_, pack_eq (by omega), ?_⟩
  rw [PackState.finish_length, packWords_dense n .initial (by decide) (by decide) rfl]
  have fresh : PackState.initial.dst.length = 0 := rfl
  omega

/-! Unpacking. -/

theorem countWords_le (lastTag : UInt8) (packed : Bytes) :
    countWords lastTag packed ≤ 128 * packed.length + if lastTag = ZERO ∨ lastTag = SPAN then 127 else 0 := by
  induction lastTag, packed using countWords.induct with
  | case1 lastTag =>
      rw [countWords]
      exact Nat.zero_le _
  | case2 tag rest ih =>
      have count := tag.toNat_lt
      have ordinary : ¬ (NONZERO_NONSPAN = ZERO ∨ NONZERO_NONSPAN = SPAN) := by decide
      rw [if_neg ordinary] at ih
      rw [countWords, if_pos rfl, if_pos (Or.inl rfl), List.length_cons]
      omega
  | case3 tag rest notZero ih =>
      have count := tag.toNat_lt
      have ordinary : ¬ (NONZERO_NONSPAN = ZERO ∨ NONZERO_NONSPAN = SPAN) := by decide
      rw [if_neg ordinary, List.length_drop] at ih
      rw [countWords, if_neg notZero, if_pos rfl, if_pos (Or.inr rfl), List.length_cons]
      omega
  | case4 lastTag tag rest notZero notSpan ih =>
      rw [List.length_drop] at ih
      have most : (if tag = ZERO ∨ tag = SPAN then 127 else 0) ≤ 127 := by
        split
        · exact Nat.le_refl _
        · exact Nat.zero_le _
      rw [countWords, if_neg notZero, if_neg notSpan, List.length_cons]
      omega

def zeroRuns : Nat → Bytes
  | 0 => []
  | n + 1 => 0 :: 255 :: zeroRuns n

theorem zeroRuns_length (n : Nat) : (zeroRuns n).length = 2 * n := by
  induction n with
  | zero => rfl
  | succ n ih =>
      rw [zeroRuns, List.length_cons, List.length_cons, ih]
      omega

theorem countWords_zeroRuns (n : Nat) : countWords NONZERO_NONSPAN (zeroRuns n) = 256 * n := by
  induction n with
  | zero => rw [zeroRuns, countWords]
  | succ n ih =>
      have none : getHammingWeight (0 : UInt8).toNat = 0 := by decide
      have most : (255 : UInt8).toNat = 255 := rfl
      rw [zeroRuns, countWords, if_neg (by decide), if_neg (by decide), none, List.drop_zero, countWords,
        if_pos (show 0 = ZERO from rfl), ih, most]
      omega

/-- Packing adds at most half a byte for each word and three halves in all; unpacking makes at most 1024 bytes of each
byte. There are arbitrarily long buffers that reach either bound. -/
theorem packed_sizes :
    (∀ unpacked packed, pack unpacked = .ok packed → 2 * packed.length ≤ 17 * (unpacked.length / 8) + 3) ∧
      (∀ packed unpacked, unpack packed = .ok unpacked → unpacked.length ≤ 1024 * packed.length) ∧
      ∀ size, (∃ unpacked packed, size ≤ unpacked.length ∧ pack unpacked = .ok packed ∧
          2 * packed.length = 17 * (unpacked.length / 8) + 3) ∧
        ∃ packed unpacked, size ≤ packed.length ∧ unpack packed = .ok unpacked ∧
          unpacked.length = 1024 * packed.length := by
  have ordinary : ¬ (NONZERO_NONSPAN = ZERO ∨ NONZERO_NONSPAN = SPAN) := by decide
  refine ⟨?_, ?_, fun size => ⟨?_, ?_⟩⟩
  · intro unpacked packed done
    rw [pack_eq (pack_aligned done)] at done
    cases done
    rw [PackState.finish_length]
    have bounded := packWords_bounded unpacked .initial PackState.bounded_initial
    rw [Nat.zero_add] at bounded
    exact bounded.le
  · intro packed unpacked done
    rw [unpack_eq] at done
    cases done
    have most := countWords_le NONZERO_NONSPAN packed
    rw [if_neg ordinary] at most
    rw [unpackedBytes_length]
    omega
  · obtain ⟨packed, done, exact⟩ := pack_dense size
    refine ⟨denseWords size, packed, ?_, done, exact⟩
    rw [denseWords_length]
    omega
  · refine ⟨zeroRuns size, _, ?_, unpack_eq _, ?_⟩
    · rw [zeroRuns_length]
      omega
    · rw [unpackedBytes_length, countWords_zeroRuns, zeroRuns_length]
      omega

end CapnpEs
