import Mathlib.Data.List.Flatten
import Mathlib.Data.List.Nodup

/-!
Calls whose targets make further calls before they return. A tree is a call, whether its target throws in the end,
and the calls made in between; they arrive in the order of `trail` when each goes straight to the target.
-/

namespace Overtaking

variable {α β : Type} (head : β → α) (tail : β → List α)

def nested (items : List β) : List α := items.flatMap fun item => head item :: tail item

def made (items : List β) : List α := items.map head ++ items.flatMap tail

/-- No item is overtaken by something that an earlier item leads to. -/
def InOrder (p : α → Bool) (items : List β) : Prop :=
  items.Pairwise fun earlier later => (∃ x ∈ tail earlier, p x) → p (head later) = false

variable {head tail}

theorem nested_cons (item : β) (items : List β) :
    nested head tail (item :: items) = head item :: (tail item ++ nested head tail items) := rfl

theorem mem_nested {items : List β} {x : α} :
    x ∈ nested head tail items ↔ x ∈ items.map head ∨ x ∈ items.flatMap tail := by
  induction items with
  | nil => simp [nested]
  | cons item items ih =>
      rw [nested_cons, List.map_cons, List.flatMap_cons, List.mem_cons, List.mem_append, List.mem_cons,
        List.mem_append, ih]
      tauto

theorem length_nested (items : List β) :
    (nested head tail items).length = items.length + (items.flatMap tail).length := by
  induction items with
  | nil => rfl
  | cons item items ih =>
      rw [nested_cons, List.length_cons, List.length_append, List.flatMap_cons, List.length_append, List.length_cons,
        ih]
      omega

theorem filter_order_iff (p : α → Bool) {items : List β} (distinct : (nested head tail items).Nodup) :
    (nested head tail items).filter p = (made head tail items).filter p ↔ InOrder head tail p items := by
  induction items with
  | nil => simp [nested, made, InOrder]
  | cons item items ih =>
      rw [nested_cons] at distinct
      have rest : (nested head tail items).Nodup := (List.nodup_append.mp (List.nodup_cons.mp distinct).2).2.1
      have apart : ∀ x ∈ tail item, x ∉ items.map head := by
        intro x inside member
        have later : x ∈ nested head tail items := mem_nested.mpr (Or.inl member)
        exact (List.nodup_append.mp (List.nodup_cons.mp distinct).2).2.2 x inside x later rfl
      have heads : (nested head tail (item :: items)).filter p = (made head tail (item :: items)).filter p ↔
          (tail item).filter p ++ (nested head tail items).filter p =
            (items.map head).filter p ++ ((tail item).filter p ++ (items.flatMap tail).filter p) := by
        rw [nested_cons, made, List.map_cons, List.flatMap_cons, List.cons_append, List.filter_cons, List.filter_cons]
        split
        · rw [List.cons_inj_right, List.filter_append, List.filter_append, List.filter_append]
        · rw [List.filter_append, List.filter_append, List.filter_append]
      have none : (tail item).filter p = [] ↔ ¬ ∃ x ∈ tail item, p x := by
        rw [List.filter_eq_nil_iff]
        simp
      rw [heads, InOrder, List.pairwise_cons]
      constructor
      · intro same
        by_cases quiet : (tail item).filter p = []
        · rw [quiet, List.nil_append, List.nil_append, ← List.filter_append] at same
          exact ⟨fun _ _ some => absurd some (none.mp quiet), (ih rest).mp same⟩
        · cases early : (items.map head).filter p with
          | nil =>
              rw [early, List.nil_append, List.append_cancel_left_eq] at same
              have later : (nested head tail items).filter p = (made head tail items).filter p := by
                rw [made, List.filter_append, early, List.nil_append, same]
              refine ⟨?_, (ih rest).mp later⟩
              intro other member _
              have absent := List.filter_eq_nil_iff.mp early (head other) (List.mem_map_of_mem member)
              simpa using absent
          | cons first others =>
              obtain ⟨x, more, shape⟩ := List.exists_cons_of_ne_nil quiet
              rw [early, shape, List.cons_append, List.cons_append] at same
              have equal : x = first := (List.cons.inj same).1
              have inside : x ∈ tail item := List.mem_of_mem_filter (by rw [shape]; simp)
              have outside : first ∈ items.map head := List.mem_of_mem_filter (p := p) (by rw [early]; simp)
              exact absurd (equal ▸ outside) (apart x inside)
      · rintro ⟨first, later⟩
        have tails := (ih rest).mpr later
        rw [made, List.filter_append] at tails
        rw [tails]
        by_cases quiet : (tail item).filter p = []
        · rw [quiet, List.nil_append, List.nil_append]
        · have some := not_not.mp (mt none.mpr quiet)
          have early : (items.map head).filter p = [] := by
            rw [List.filter_eq_nil_iff]
            intro x member
            obtain ⟨other, inside, rfl⟩ := List.mem_map.mp member
            simpa using first other inside some
          rw [early, List.nil_append, List.nil_append]

end Overtaking

inductive CallTree (α : Type) where
  | mk (call : α) (throws : Bool) (within : List (CallTree α))

namespace CallTree

variable {α : Type}

def call : CallTree α → α
  | mk call _ _ => call

def throws : CallTree α → Bool
  | mk _ throws _ => throws

def within : CallTree α → List (CallTree α)
  | mk _ _ within => within

mutual

def trail : CallTree α → List α
  | mk call _ within => call :: trails within

def trails : List (CallTree α) → List α
  | [] => []
  | tree :: trees => trail tree ++ trails trees

end

/-- What the target is called with while it takes this call. -/
def inner (tree : CallTree α) : List α := trails tree.within

theorem trail_eq (tree : CallTree α) : tree.trail = tree.call :: tree.inner := by
  cases tree with
  | mk call throws within => rw [trail, CallTree.call, inner, CallTree.within]

theorem trails_eq (trees : List (CallTree α)) : trails trees = Overtaking.nested call inner trees := by
  induction trees with
  | nil => rfl
  | cons tree trees ih => rw [trails, trail_eq, ih, Overtaking.nested_cons, List.cons_append]

theorem inner_nil_iff (tree : CallTree α) : tree.inner = [] ↔ tree.within = [] := by
  unfold inner
  cases tree.within with
  | nil => simp [trails]
  | cons first others => simp [trails, trail_eq]

/-- The trees that a loop over the list gets to: it stops at the first that throws. -/
def reached : List (CallTree α) → List (CallTree α)
  | [] => []
  | tree :: trees => if tree.throws then [tree] else tree :: reached trees

theorem reached_of_quiet {trees : List (CallTree α)}
    (quiet : trees.Pairwise fun earlier _ => earlier.throws = false) : reached trees = trees := by
  induction trees with
  | nil => rfl
  | cons tree trees ih =>
      obtain ⟨first, rest⟩ := List.pairwise_cons.mp quiet
      rw [reached, ih rest]
      split
      · rename_i throws
        cases trees with
        | nil => rfl
        | cons other others => cases throws.symm.trans (first other (by simp))
      · rfl

theorem reached_initial (trees : List (CallTree α)) : reached trees <+: trees := by
  induction trees with
  | nil => exact List.prefix_refl _
  | cons tree trees ih =>
      rw [reached]
      split
      · exact ⟨trees, rfl⟩
      · exact (List.prefix_cons_inj tree).mpr ih

theorem quiet_of_reached {trees : List (CallTree α)} (all : reached trees = trees) :
    trees.Pairwise fun earlier _ => earlier.throws = false := by
  induction trees with
  | nil => exact .nil
  | cons tree trees ih =>
      rw [reached] at all
      split at all
      · cases trees with
        | nil => exact List.pairwise_singleton _ _
        | cons other others => cases all
      · rename_i quiet
        rw [List.cons_inj_right] at all
        exact List.pairwise_cons.mpr ⟨fun _ _ => Bool.eq_false_iff.mpr quiet, ih all⟩

end CallTree
