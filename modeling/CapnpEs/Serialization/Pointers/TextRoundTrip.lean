import CapnpEs.Serialization.Pointers.TextVariables

/-! Setting a text and reading it back, with the encoder and the decoder of `text.ts`. -/

namespace CapnpEs

open Outcome

/-- What `TextEncoder` gives. -/
def utf8 (value : String) : Bytes := value.toUTF8.data.toList

def byteOrderMark : Char := Char.ofNat 0xFEFF

def Marked (value : String) : Prop := value.toList.head? = some byteOrderMark

instance (value : String) : Decidable (Marked value) := inferInstanceAs (Decidable (_ = _))

/-- What a `TextDecoder` made without options gives for a string that was encoded: it drops a byte order mark. -/
def unmarked (value : String) : String := if Marked value then String.ofList value.toList.tail else value

theorem unmarked_eq_iff {value : String} : unmarked value = value ↔ ¬ Marked value := by
  constructor
  · intro same marked
    rw [unmarked, if_pos marked] at same
    have lengths := congrArg (fun value => value.toList.length) same
    simp only [String.toList_ofList, List.length_tail] at lengths
    have some : value.toList.length ≠ 0 := by
      intro none
      rw [Marked, List.length_eq_zero_iff.mp none] at marked
      cases marked
    omega
  · intro plain
    rw [unmarked, if_neg plain]

namespace Pointer

variable {decode : Bytes → String} {t : Pointer} {w after : World} {index : Nat} {value : String}

/-- `after` holds what was set, its length can be read, and so can the whole text if it was set from its start. -/
structure SetAgrees (decode : Bytes → String) (t : Pointer) (index : Nat) (value : String) (w after : World) : Prop where
  text : t.HoldsText after
  stored : t.storedBytes after = (t.textBytes w).take index ++
    List.replicate (index - min (t.textBytes w).length index) 0 ++ utf8 value ++ [0]
  length : ∃ last, Text.length t after = .ok (index + (utf8 value).length) last
  reads : index = 0 → ∃ last, Text.get decode 0 t after = .ok value last

theorem length_storedBytes (text : t.HoldsText w) : ((t.storedBytes w).length : Int) = t.listLength w := by
  have nul := text.nul
  rw [storedBytes, notNull_of_list text.list.1, if_neg (by decide), bytesAt, List.length_map, List.length_range]
  omega

theorem HoldsText.listLength_lt (text : t.HoldsText w) : t.listLength w < 2 ^ 29 := by
  have bound := ((t.target w).hi w).isLt
  rw [listLength, text.single, if_neg (by decide), BitVec.toNat_ushiftRight, Nat.shiftRight_eq_div_pow]
  omega

theorem HoldsText.length (text : t.HoldsText w) (wf : (w t.message).WellFormed) (plain : t.compositeIndex = none)
    (budget : 40 < (w t.message).traversalLimit) : ∃ last, Text.length t w = .ok (t.listLength w - 1) last := by
  obtain ⟨count, _, read⟩ := getTargetListLength_reads wf text.resolves budget plain text.list.1
    (by rw [text.single]; exact fun impossible => absurd impossible (by decide))
  refine ⟨w.spend t.message count, ?_⟩
  rw [Text.length, bind_apply, read]
  rfl

theorem spliced_eq (old : Bytes) (index : Nat) (bytes : Bytes) :
    spliced old index bytes = old.take index ++ List.replicate (index - min old.length index) 0 ++ bytes := by
  rw [spliced, List.length_take, Nat.min_comm]

theorem length_spliced (old : Bytes) (index : Nat) (bytes : Bytes) :
    (spliced old index bytes).length = index + bytes.length := by
  simp only [spliced, List.length_append, List.length_replicate, List.length_take]
  omega

/-- What is read back of a text that was set from its start. -/
theorem set_reads (decodes : ∀ value, decode (utf8 value) = unmarked value) (site : t.TextSite w)
    (short : (utf8 value).length + 1 < 2 ^ 29) (compact : (after t.message).Compact)
    (budget : 256 < (after t.message).traversalLimit) (run : Text.set utf8 0 value t w = .ok () after) :
    ∃ last, Text.get decode 0 t after = .ok (unmarked value) last := by
  have shows := set_shows site (by omega) compact budget run
  have empty : decode [] = "" := decodes ""
  obtain ⟨last, read⟩ := shows.site.get empty budget
  refine ⟨last, ?_⟩
  rw [read, shows.bytes, spliced_eq, List.take_zero, Nat.zero_sub, List.replicate_zero, List.nil_append,
    List.nil_append, decodes]

/-- After a call of `set` that returns, the text is as it was set if and only if its length fits the pointer and, where
it was set from the start, it does not begin with a byte order mark. -/
theorem set_agrees_iff (decodes : ∀ value, decode (utf8 value) = unmarked value) (site : t.TextSite w)
    (compact : (after t.message).Compact) (budget : 256 < (after t.message).traversalLimit)
    (run : Text.set utf8 index value t w = .ok () after) :
    t.SetAgrees decode index value w after ↔
      index + (utf8 value).length + 1 < 2 ^ 29 ∧ (index = 0 → ¬ Marked value) := by
  have shown (short : index + (utf8 value).length + 1 < 2 ^ 29) :
      t.Shows w after (spliced (t.textBytes w) index (utf8 value)) := set_shows site short compact budget run
  have whole (short : index + (utf8 value).length + 1 < 2 ^ 29) (start : index = 0) :
      ∃ last, Text.get decode 0 t after = .ok (unmarked value) last := by
    subst start
    exact set_reads decodes site (by omega) compact budget run
  constructor
  · rintro ⟨text, stored, _, reads⟩
    have short : index + (utf8 value).length + 1 < 2 ^ 29 := by
      have length := length_storedBytes text
      have bound := text.listLength_lt
      rw [stored, ← spliced_eq, List.length_append, length_spliced, List.length_singleton] at length
      omega
    refine ⟨short, fun start => ?_⟩
    obtain ⟨last, read⟩ := reads start
    obtain ⟨last', read'⟩ := whole short start
    have same : value = unmarked value := (EStateM.Result.ok.inj (read.symm.trans read')).1
    exact unmarked_eq_iff.mp same.symm
  · rintro ⟨short, plain⟩
    have shows := shown short
    have stored := shows.stored
    have notNull : t.isNullWord after = false := by
      rw [Bool.eq_false_iff]
      intro null
      rw [storedBytes, if_pos null] at stored
      exact List.append_ne_nil_of_right_ne_nil _ (List.cons_ne_nil _ _) stored.symm
    have text : t.HoldsText after := shows.site.text notNull
    have length := length_storedBytes text
    rw [stored, List.length_append, length_spliced, List.length_singleton] at length
    refine ⟨text, ?_, ?_, ?_⟩
    · rw [stored, spliced_eq]
    · obtain ⟨last, read⟩ := text.length shows.site.slot.wellFormed site.slot.plain (by omega)
      refine ⟨last, ?_⟩
      rw [read, ← length]
      congr 1
      omega
    · intro start
      obtain ⟨last, read⟩ := whole short start
      rw [unmarked_eq_iff.mpr (plain start)] at read
      exact ⟨last, read⟩

end Pointer

open Pointer

/-- A decoder for bytes that are well formed. -/
def decodeUtf8 (bytes : Bytes) : String := unmarked ((String.fromUTF8? ⟨bytes.toArray⟩).getD "")

theorem decodeUtf8_utf8 (value : String) : decodeUtf8 (utf8 value) = unmarked value := by
  have whole : (⟨(utf8 value).toArray⟩ : ByteArray) = value.toByteArray := by
    rw [utf8, Array.toArray_toList, String.toUTF8_eq_toByteArray]
  rw [decodeUtf8, whole, String.fromUTF8?, dif_pos value.isValidUTF8]
  rfl

def setFirst (index : Nat) (value : String) : WorldM Unit := Text.set utf8 index value (twoTexts true)

theorem setFirst_runs {index : Nat} {value : String} {w : World} (returned : (outcome (setFirst index value) w).1 = true)
    (small : let after := (outcome (setFirst index value) w).2
      (after 0).segments.length < 2 ^ 32 ∧ (∀ s ∈ (after 0).segments, s.byteLength < 2 ^ 31) ∧ 256 < (after 0).traversalLimit) :
    ∃ after, after = (outcome (setFirst index value) w).2 ∧ Text.set utf8 index value (twoTexts true) w = .ok () after ∧
      (after 0).Compact ∧ 256 < (after 0).traversalLimit := by
  obtain ⟨_, ran⟩ := outcome_returns returned
  obtain ⟨few, short, budget⟩ := small
  exact ⟨_, rfl, ran, Message.compact_of_segments few short, budget⟩

/-- A text with a NUL and a letter of two bytes, and then another one behind its first three bytes. -/
theorem set_agrees_iff_twice : ∃ middle after,
    Text.set utf8 0 "a\x00é" (twoTexts true) twoWords = .ok () middle ∧
      Text.set utf8 3 "b" (twoTexts true) middle = .ok () after ∧
      (twoTexts true).SetAgrees decodeUtf8 0 "a\x00é" twoWords middle ∧
      (twoTexts true).SetAgrees decodeUtf8 3 "b" middle after := by
  obtain ⟨middle, same, first, compact, budget⟩ := @setFirst_runs 0 "a\x00é" twoWords (by decide +kernel) (by decide +kernel)
  obtain ⟨after, -, second, compact', budget'⟩ :=
    @setFirst_runs 3 "b" middle (by rw [same]; decide +kernel) (by rw [same]; decide +kernel)
  have site : (twoTexts true).TextSite middle :=
    (set_shows (twoTexts_site true) (by decide +kernel) compact budget first).site
  refine ⟨middle, after, first, second, ?_, ?_⟩
  · exact (set_agrees_iff decodeUtf8_utf8 (twoTexts_site true) compact budget first).mpr (by decide +kernel)
  · exact (set_agrees_iff decodeUtf8_utf8 site compact' budget' second).mpr (by decide +kernel)

/-- The byte order mark at the start of a text is stored, and not read back. -/
theorem set_drops_mark : ¬ ∀ (decode : Bytes → String) (t : Pointer) (w after : World) (index : Nat) (value : String),
    (∀ value, decode (utf8 value) = unmarked value) → t.TextSite w → (after t.message).Compact →
      256 < (after t.message).traversalLimit → Text.set utf8 index value t w = .ok () after →
        t.SetAgrees decode index value w after := by
  intro agrees
  obtain ⟨after, -, run, compact, budget⟩ :=
    @setFirst_runs 0 "\uFEFFa" twoWords (by decide +kernel) (by decide +kernel)
  obtain ⟨last, read⟩ := set_reads decodeUtf8_utf8 (twoTexts_site true) (by decide +kernel) compact budget run
  obtain ⟨last', whole⟩ :=
    (agrees decodeUtf8 _ _ after 0 "\uFEFFa" decodeUtf8_utf8 (twoTexts_site true) compact budget run).reads rfl
  have same := (EStateM.Result.ok.inj (whole.symm.trans read)).1
  exact unmarked_eq_iff.mp same.symm (by decide +kernel)

end CapnpEs
