import CapnpEs.Serialization.Pointers.WrittenTexts

/-! Several texts of a message are variables: setting one changes none of the others, wherever its new list is put. -/

namespace CapnpEs

open LittleEndian (encode)
open Outcome

namespace Pointer

variable {t : Pointer} {w after : World}

/-! Where a text lies. -/

theorem TextSite.isComposite (site : t.TextSite w) : t.isComposite w = false := by
  cases null : t.isNullWord w with
  | true => exact isComposite_of_null null
  | false => exact (site.text null).single

theorem TextSite.allocated (site : t.TextSite w) :
    ∀ byte ∈ t.path w ∪ t.own w, byte.2 < (w t.message).allocated byte.1 := by
  intro byte member
  cases null : t.isNullWord w with
  | true =>
      rw [bytes_of_null null] at member
      obtain ⟨here, above, below⟩ := member
      have upper := site.slot.inBounds.upper
      rw [here]
      omega
  | false =>
      have text := site.text null
      exact member.elim (text.resolves.path_allocated byte) (text.own_allocated byte)

/-! A text that is left alone while the message grows. -/

theorem HoldsText.kept (text : t.HoldsText w) (kept : World.Kept t.message (t.path w ∪ t.own w) w after) :
    t.HoldsText after ∧ t.textBytes after = t.textBytes w := by
  have resolves := text.resolves
  have same := sameNode_single kept resolves.inBounds.lower text.single
  have start : 0 ≤ (t.content w).byteOffset := by
    rw [content_plain text.single]
    exact resolves.lower
  refine ⟨⟨same.resolves_kept kept resolves, ?_, ?_, same.fits_kept kept text.fits, ?_⟩, ?_⟩
  · rw [same.targetType, same.elementSize]
    exact text.list
  · rw [same.listLength]
    exact text.nul
  · rw [same.path, same.own]
    exact text.apart
  · rw [textBytes, textBytes, same.isNullWord, same.content, same.listLength]
    split
    · rfl
    · rw [bytesAt, bytesAt]
      apply List.map_congr_left
      intro i member
      have below := List.mem_range.mp member
      refine kept.memory ((t.content w).segment, (t.content w).byteOffset.toNat + i) (Or.inr ?_)
      rw [text.own_eq]
      exact ⟨rfl, by dsimp only; omega, by dsimp only; omega⟩

theorem Shows.kept {other : Pointer} {bytes : Bytes} (shows : t.Shows w after bytes) (here : other.message = t.message)
    (larger : (w t.message).Larger (after t.message)) (apart : other.path w ∪ other.own w ⊆ t.Besides w) :
    World.Kept other.message (other.path w ∪ other.own w) w after := by
  rw [here]
  exact ⟨larger.length, larger.allocated, fun byte member => shows.memory byte (apart member)⟩

theorem TextSite.kept {other : Pointer} (site : other.TextSite w)
    (kept : World.Kept other.message (other.path w ∪ other.own w) w after) (here : other.message = t.message)
    (written : t.TextSite after) :
    other.TextSite after ∧ SameNode other w after ∧ other.textBytes after = other.textBytes w := by
  have slot := site.slot
  have same := sameNode_single kept slot.inBounds.lower site.isComposite
  have readable : other.isNullWord after = false → other.HoldsText after := by
    intro notNull
    rw [same.isNullWord] at notNull
    exact ((site.text notNull).kept kept).1
  have grown := slot.inBounds.kept kept rfl
  refine ⟨⟨⟨?_, grown, slot.aligned, slot.plain, slot.depth⟩, readable, ?_, ?_⟩, same, ?_⟩
  · rw [here]
    exact written.slot.wellFormed
  · rw [here]
    exact written.clean
  · rw [here]
    exact written.writable
  · cases null : other.isNullWord w with
    | true => rw [textBytes, textBytes, same.isNullWord, null, if_pos rfl, if_pos rfl]
    | false => exact ((site.text null).kept kept).2

/-- What `get` gives. -/
theorem TextSite.get {decode : Bytes → String} (empty : decode [] = "") (site : t.TextSite w)
    (budget : 256 < (w t.message).traversalLimit) : ∃ last, Text.get decode 0 t w = .ok (decode (t.textBytes w)) last := by
  cases null : t.isNullWord w with
  | true =>
      refine ⟨w, ?_⟩
      rw [Text.get, bind_apply, isNull_run site.slot.wellFormed site.slot.inBounds, null, textBytes, null, if_pos rfl, empty]
      rfl
  | false =>
      have text := site.text null
      have nul := text.nul
      have leads : t.LeadsToObject w := ⟨text.resolves, fun _ _ => text.inside⟩
      obtain ⟨last, read⟩ := get_text decode site.slot.wellFormed leads null site.slot.plain (by omega) text.list.1 text.list.2
      refine ⟨last, ?_⟩
      rw [read, textAt, if_neg (by simp [text.list.1]), if_neg (by simp [text.list.2]), if_neg (by omega), textBytes, null,
        if_neg (by decide)]

end Pointer

open Pointer

variable {ι : Type} [DecidableEq ι] {encode : String → Bytes} {texts : ι → Pointer} {message : Nat} {w after : World}

/-- A call of `set` on one of the texts. -/
structure TextSet (ι : Type) where
  text : ι
  index : Nat
  value : String

namespace TextSet

def run (encode : String → Bytes) (texts : ι → Pointer) (set : TextSet ι) : WorldM Unit :=
  Text.set encode set.index set.value (texts set.text)

def next (encode : String → Bytes) (values : ι → Bytes) (set : TextSet ι) : ι → Bytes :=
  Function.update values set.text (spliced (values set.text) set.index (encode set.value))

end TextSet

/-- Slots of one message, each null or with a text, that share no bytes. -/
structure TextsApart (texts : ι → Pointer) (message : Nat) (w : World) : Prop where
  here : ∀ i, (texts i).message = message
  site : ∀ i, (texts i).TextSite w
  apart : ∀ i j, i ≠ j → (texts j).path w ∪ (texts j).own w ⊆ (texts i).Besides w

/-- The bytes that have been allocated and belong to none of the texts. -/
def BesidesTexts (texts : ι → Pointer) (message : Nat) (w : World) : Set Byte :=
  { byte | (∀ i, byte ∉ (texts i).path w ∪ (texts i).own w) ∧ byte.2 < (w message).allocated byte.1 }

theorem TextsApart.step (apart : TextsApart texts message w) {set : TextSet ι} (larger : (w message).Larger (after message))
    (shows : (texts set.text).Shows w after (spliced ((texts set.text).textBytes w) set.index (encode set.value))) :
    TextsApart texts message after ∧
      (fun i => (texts i).textBytes after) = set.next encode (fun i => (texts i).textBytes w) ∧
      BesidesTexts texts message w ⊆ BesidesTexts texts message after := by
  have larger' : (w (texts set.text).message).Larger (after (texts set.text).message) := by
    rw [apart.here]
    exact larger
  have others (j : ι) (other : j ≠ set.text) : (texts j).TextSite after ∧ SameNode (texts j) w after ∧
      (texts j).textBytes after = (texts j).textBytes w := by
    have here : (texts j).message = (texts set.text).message := by
      rw [apart.here, apart.here]
    exact (apart.site j).kept (shows.kept here larger' (apart.apart _ j (Ne.symm other))) here shows.site
  have place (j : ι) (other : j ≠ set.text) :
      (texts j).path after ∪ (texts j).own after = (texts j).path w ∪ (texts j).own w := by
    obtain ⟨_, same, _⟩ := others j other
    rw [same.path, same.own]
  have below (i : ι) : ∀ byte ∈ (texts i).Besides w, byte.2 < (after message).allocated byte.1 := by
    intro byte beside
    have allocated := beside.2
    rw [apart.here] at allocated
    exact Int.lt_of_lt_of_le allocated (larger.allocated byte.1)
  refine ⟨⟨apart.here, ?_, ?_⟩, ?_, ?_⟩
  · intro i
    by_cases here : i = set.text
    · rw [here]
      exact shows.site
    · exact (others i here).1
  · intro i j differ byte member
    by_cases written : i = set.text
    · subst written
      rw [place j (Ne.symm differ)] at member
      exact shows.besides (apart.apart _ j differ member)
    · refine ⟨?_, ?_⟩
      · rw [place i written]
        intro inside
        by_cases new : j = set.text
        · subst new
          exact (shows.besides (apart.apart _ i (Ne.symm written) inside)).1 member
        · rw [place j new] at member
          exact (apart.apart i j differ member).1 inside
      · by_cases new : j = set.text
        · subst new
          have allocated := shows.site.allocated byte member
          rw [apart.here] at allocated ⊢
          exact allocated
        · rw [place j new] at member
          rw [apart.here]
          exact below i byte (apart.apart i j differ member)
  · funext i
    rw [TextSet.next]
    by_cases here : i = set.text
    · rw [here, Function.update_self]
      exact shows.bytes
    · rw [Function.update_of_ne here]
      exact (others i here).2.2
  · rintro byte ⟨free, allocated⟩
    refine ⟨?_, Int.lt_of_lt_of_le allocated (larger.allocated byte.1)⟩
    intro i
    by_cases here : i = set.text
    · rw [here]
      refine (shows.besides ⟨free set.text, ?_⟩).1
      rw [apart.here]
      exact allocated
    · rw [place i here]
      exact free i

omit [DecidableEq ι] in
theorem sets_grow {sets : List (TextSet ι)} (run : sets.forM (TextSet.run encode texts) w = .ok () after) :
    w.Grows message after := by
  induction sets generalizing w with
  | nil =>
      cases run
      exact refl_of (World.Grows message) _
  | cons set sets ih =>
      obtain ⟨_, middle, first, rest⟩ := bind_eq_ok.mp run
      exact trans_of (World.Grows message) (Text.set_grows first) (ih rest)

theorem sets_show {sets : List (TextSet ι)} (apart : TextsApart texts message w)
    (short : ∀ set ∈ sets, set.index + (encode set.value).length + 1 < 2 ^ 29) (compact : (after message).Compact)
    (budget : 256 < (after message).traversalLimit) (run : sets.forM (TextSet.run encode texts) w = .ok () after) :
    TextsApart texts message after ∧
      (fun i => (texts i).textBytes after) = sets.foldl (TextSet.next encode) (fun i => (texts i).textBytes w) ∧
      BesidesTexts texts message w ⊆ BesidesTexts texts message after ∧
      ∀ byte ∈ BesidesTexts texts message w, (after message).memory byte.1 byte.2 = (w message).memory byte.1 byte.2 := by
  induction sets generalizing w with
  | nil =>
      cases run
      exact ⟨apart, rfl, subset_rfl, fun _ _ => rfl⟩
  | cons set sets ih =>
      obtain ⟨_, middle, first, rest⟩ := bind_eq_ok.mp run
      have here := apart.here set.text
      have sound : (w message).Sound := by
        rw [← here]
        exact (apart.site set.text).slot.sound
      have early : (w message).Larger (middle message) := Message.Grows.larger (Text.set_grows first) sound
      have late : (middle message).Larger (after message) := Message.Grows.larger (sets_grow rest) early.sound
      have limit := late.traversalLimit
      have shows := set_shows (apart.site set.text) (short set List.mem_cons_self)
        (by rw [here]; exact late.compact compact) (by rw [here]; omega) first
      obtain ⟨still, bytes, besides⟩ := apart.step early shows
      obtain ⟨apartAfter, values, further, memory⟩ :=
        ih still (fun other member => short other (List.mem_cons_of_mem _ member)) rest
      refine ⟨apartAfter, ?_, besides.trans further, ?_⟩
      · rw [values, bytes]
        rfl
      · intro byte free
        rw [memory byte (besides free)]
        have same := shows.memory byte ⟨free.1 set.text, by rw [here]; exact free.2⟩
        rwa [here] at same

/-- Texts are variables: after any calls of `set` each gives what the calls on it have made of its bytes, and no byte
beside the texts has changed. -/
theorem texts_are_variables {decode : Bytes → String} (empty : decode [] = "") {sets : List (TextSet ι)}
    (apart : TextsApart texts message w) (short : ∀ set ∈ sets, set.index + (encode set.value).length + 1 < 2 ^ 29)
    (compact : (after message).Compact) (budget : 256 < (after message).traversalLimit)
    (run : sets.forM (TextSet.run encode texts) w = .ok () after) :
    (∀ i, ∃ last, Text.get decode 0 (texts i) after =
      .ok (decode (sets.foldl (TextSet.next encode) (fun i => (texts i).textBytes w) i)) last) ∧
      ∀ byte ∈ BesidesTexts texts message w, (after message).memory byte.1 byte.2 = (w message).memory byte.1 byte.2 := by
  obtain ⟨still, bytes, _, memory⟩ := sets_show apart short compact budget run
  refine ⟨?_, memory⟩
  intro i
  rw [← bytes]
  exact (still.site i).get empty (by rw [still.here]; exact budget)

def twoWords : World := fun _ =>
  { arena := { kind := .SINGLE_SEGMENT, buffers := [] }
    segments := [{ buffer := List.replicate 16 0, byteLength := 16 }]
    traversalLimit := DEFAULT_TRAVERSE_LIMIT
    readonly := false
    capTable := none }

def twoTexts (i : Bool) : Pointer := cond i (fresh 0 0 0) (fresh 0 0 8)

def encodeAscii (value : String) : Bytes := value.toList.map fun c => UInt8.ofNat c.toNat

def decodeAscii (bytes : Bytes) : String := String.ofList (bytes.map fun byte => Char.ofNat byte.toNat)

theorem twoTexts_null (i : Bool) : (twoTexts i).isNullWord twoWords = true := by
  cases i <;> decide

theorem twoTexts_site (i : Bool) : (twoTexts i).TextSite twoWords := by
  have slot : (twoTexts i).Slot twoWords := by
    cases i
    · refine ⟨?_, ⟨by decide, by decide⟩, rfl, rfl, by decide⟩
      constructor <;> decide
    · refine ⟨?_, ⟨by decide, by decide⟩, rfl, rfl, by decide⟩
      constructor <;> decide
  refine ⟨slot, fun notNull => ?_, ?_, rfl⟩
  · rw [twoTexts_null] at notNull
    cases notNull
  · intro segment address _
    cases segment with
    | zero =>
        change (List.replicate 16 0).getD address 0 = (0 : UInt8)
        rw [List.getD_eq_getElem?_getD, List.getElem?_replicate]
        split <;> rfl
    | succ segment => rfl

theorem twoTexts_apart : TextsApart twoTexts 0 twoWords := by
  refine ⟨fun i => by cases i <;> rfl, twoTexts_site, ?_⟩
  intro i j differ byte member
  refine ⟨?_, (twoTexts_site j).allocated byte member⟩
  rw [bytes_of_null (twoTexts_null _)] at member ⊢
  obtain ⟨_, above, below⟩ := member
  rintro ⟨_, lower, upper⟩
  cases i <;> cases j
  · exact differ rfl
  · simp only [twoTexts, fresh, cond_true, cond_false] at *
    omega
  · simp only [twoTexts, fresh, cond_true, cond_false] at *
    omega
  · exact differ rfl

def greetings : List (TextSet Bool) := [⟨true, 0, "hi"⟩, ⟨false, 0, "ho"⟩, ⟨true, 1, "ello"⟩]

theorem greetings_set : ∃ after, greetings.forM (TextSet.run encodeAscii twoTexts) twoWords = .ok () after ∧
    (after 0).segments.length < 2 ^ 32 ∧ (∀ s ∈ (after 0).segments, s.byteLength < 2 ^ 31) ∧
      256 < (after 0).traversalLimit := by
  have returned : (outcome (greetings.forM (TextSet.run encodeAscii twoTexts)) twoWords).1 = true := by
    decide +kernel
  obtain ⟨_, ran⟩ := outcome_returns returned
  exact ⟨_, ran, by decide +kernel⟩

/-- The first text is set again behind its first letter, after the other one was put in between. -/
theorem texts_are_variables_greetings : ∃ after first second,
    greetings.forM (TextSet.run encodeAscii twoTexts) twoWords = .ok () after ∧
      Text.get decodeAscii 0 (twoTexts true) after = .ok "hello" first ∧
      Text.get decodeAscii 0 (twoTexts false) after = .ok "ho" second := by
  obtain ⟨after, run, few, small, budget⟩ := greetings_set
  obtain ⟨reads, -⟩ := texts_are_variables (show decodeAscii [] = "" by decide) twoTexts_apart (by decide)
    (Message.compact_of_segments few small) budget run
  obtain ⟨first, hello⟩ := reads true
  obtain ⟨second, ho⟩ := reads false
  refine ⟨after, first, second, run, ?_, ?_⟩
  · rw [hello]
    rfl
  · rw [ho]
    rfl

end CapnpEs
