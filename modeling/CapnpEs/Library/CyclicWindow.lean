import Mathlib.Data.List.Range

/-! Reading a list of cells in a circle: `count` cells from `start` on, where the first cell follows the last. -/

namespace CyclicWindow

variable {α : Type}

def window (cells : List (Option α)) (start count : Nat) : List (Option α) :=
  (List.range count).map fun offset => (cells[(start + offset) % cells.length]?).join

variable {cells : List (Option α)} {start count : Nat}

@[simp]
theorem length_window : (window cells start count).length = count := by
  simp [window]

theorem cell_ne {size offset other : Nat} (less : offset < other) (turn : other < size) :
    (start + offset) % size ≠ (start + other) % size := by
  intro same
  have divides : size ∣ start + other - (start + offset) :=
    Nat.dvd_of_mod_eq_zero (Nat.sub_mod_eq_zero_of_mod_eq same.symm)
  have gap := Nat.le_of_dvd (by omega) divides
  omega

theorem window_succ :
    window cells start (count + 1) = window cells start count ++ [(cells[(start + count) % cells.length]?).join] := by
  simp [window, List.range_succ]

theorem window_cons :
    window cells start (count + 1) =
      (cells[start % cells.length]?).join :: window cells ((start + 1) % cells.length) count := by
  unfold window
  rw [List.range_succ_eq_map, List.map_cons, List.map_map, Nat.add_zero]
  congr 1
  refine List.map_congr_left fun offset _ => ?_
  change (cells[(start + (offset + 1)) % cells.length]?).join = _
  rw [Nat.mod_add_mod, Nat.add_right_comm, Nat.add_assoc]

theorem window_set {index : Nat} {cell : Option α}
    (outside : ∀ offset, offset < count → (start + offset) % cells.length ≠ index) :
    window (cells.set index cell) start count = window cells start count := by
  unfold window
  refine List.map_congr_left fun offset member => ?_
  rw [List.length_set, List.getElem?_set_ne (outside offset (List.mem_range.mp member)).symm]

theorem window_push (free : count < cells.length) (value : α) :
    window (cells.set ((start + count) % cells.length) (some value)) start (count + 1) =
      window cells start count ++ [some value] := by
  have inside : (start + count) % cells.length < cells.length := Nat.mod_lt _ (by omega)
  rw [window_succ, window_set fun offset less => cell_ne less free, List.length_set, List.getElem?_set_self inside]
  rfl

theorem window_pop (inside : start < cells.length) (fits : count < cells.length) :
    window (cells.set start none) ((start + 1) % cells.length) count =
      window cells ((start + 1) % cells.length) count := by
  refine window_set fun offset less => ?_
  rw [Nat.mod_add_mod, Nat.add_assoc, Nat.add_comm 1]
  have other : (start + 0) % cells.length ≠ (start + (offset + 1)) % cells.length := cell_ne (by omega) (by omega)
  rw [Nat.add_zero, Nat.mod_eq_of_lt inside] at other
  exact other.symm

theorem window_start {values : List α} {more : List (Option α)} :
    window (values.map some ++ more) 0 values.length = values.map some := by
  refine List.ext_getElem? fun index => ?_
  unfold window
  by_cases less : index < values.length
  · have turn : index < (values.map some ++ more).length := by
      rw [List.length_append, List.length_map]
      omega
    rw [List.getElem?_map, List.getElem?_range less, Option.map_some, Nat.zero_add, Nat.mod_eq_of_lt turn,
      List.getElem?_append_left (by simpa using less)]
    simp [less]
  · simp [less]

end CyclicWindow
