import Mathlib.Data.List.Basic

/-! Tables of numbered slots, kept as a list that grows when a slot past its end is filled. -/

namespace SlotTable

variable {α : Type}

def find (slots : List (Option α)) (id : Nat) : Option α := (slots[id]?).getD none

def put (slots : List (Option α)) (id : Nat) (value : Option α) : List (Option α) :=
  if id < slots.length then
    slots.set id value
  else
    slots ++ List.replicate (id - slots.length) none ++ [value]

@[simp] theorem find_nil (id : Nat) : find ([] : List (Option α)) id = none := by
  simp [find]

theorem find_of_length_le {slots : List (Option α)} {id : Nat} (beyond : slots.length ≤ id) :
    find slots id = none := by
  simp [find, List.getElem?_eq_none beyond]

theorem lt_length_of_find {slots : List (Option α)} {id : Nat} {value : α}
    (found : find slots id = some value) : id < slots.length := by
  by_contra beyond
  rw [find_of_length_le (by omega)] at found
  cases found

theorem find_put (slots : List (Option α)) (id other : Nat) (value : Option α) :
    find (put slots id value) other = if other = id then value else find slots other := by
  unfold find put
  by_cases inside : id < slots.length
  · by_cases same : other = id
    · subst same
      simp [inside]
    · simp [inside, same, Ne.symm same]
  · by_cases same : other = id
    · subst same
      simp only [inside, ↓reduceIte]
      rw [List.getElem?_append_right (by simp; omega)]
      simp [show other - (slots.length + (other - slots.length)) = 0 by omega]
    · simp only [inside, same, ↓reduceIte]
      by_cases before : other < slots.length
      · rw [List.getElem?_append_left (by simp; omega), List.getElem?_append_left before]
      · rw [List.getElem?_eq_none (l := slots) (by omega)]
        by_cases gap : other < id
        · rw [List.getElem?_append_left (by simp; omega), List.getElem?_append_right (by omega)]
          simp only [List.getElem?_replicate]
          split <;> rfl
        · rw [List.getElem?_eq_none (by simp; omega)]

@[simp] theorem find_put_same (slots : List (Option α)) (id : Nat) (value : Option α) :
    find (put slots id value) id = value := by
  simp [find_put]

theorem find_put_other (slots : List (Option α)) {id other : Nat} (value : Option α) (different : other ≠ id) :
    find (put slots id value) other = find slots other := by
  simp [find_put, different]

theorem length_put (slots : List (Option α)) (id : Nat) (value : Option α) :
    (put slots id value).length = max slots.length (id + 1) := by
  unfold put
  split
  · rename_i inside
    rw [List.length_set]
    omega
  · rename_i beyond
    simp only [List.length_append, List.length_replicate, List.length_singleton]
    omega

end SlotTable
