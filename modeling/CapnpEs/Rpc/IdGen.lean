import Mathlib.Data.List.Basic

/-! `idgen.ts`: numbers handed out in order, with the returned ones handed out again first. -/

namespace CapnpEs.Rpc

/-- The head of `free` is the end of the source's array: `pop` and `push` work there. -/
structure IdGen where
  i : Nat := 0
  free : List Nat := []
  deriving DecidableEq, Repr

namespace IdGen

def next (gen : IdGen) : Nat × IdGen :=
  match gen.free with
  | id :: free => (id, { gen with free := free })
  | [] => (gen.i, { gen with i := gen.i + 1 })

def remove (gen : IdGen) (id : Nat) : IdGen := { gen with free := id :: gen.free }

/-- The generator agrees with the numbers in use: what it may hand out next is none of them. -/
structure Serves (gen : IdGen) (used : Nat → Prop) : Prop where
  used_lt : ∀ id, used id → id < gen.i
  free_lt : ∀ id ∈ gen.free, id < gen.i
  free_unused : ∀ id ∈ gen.free, ¬ used id
  free_nodup : gen.free.Nodup
  covers : ∀ id < gen.i, used id ∨ id ∈ gen.free

theorem serves_empty : Serves {} fun _ => False := by
  constructor
  · intro id used
    exact used.elim
  · intro id member
    cases member
  · intro id member
    cases member
  · exact List.nodup_nil
  · intro id bound
    cases bound

theorem Serves.next_unused {gen : IdGen} {used : Nat → Prop} (serves : gen.Serves used) :
    ¬ used gen.next.1 := by
  intro taken
  cases shape : gen.free with
  | nil =>
      simp only [next, shape] at taken
      have below := serves.used_lt _ taken
      omega
  | cons id free =>
      simp only [next, shape] at taken
      exact serves.free_unused id (by simp [shape]) taken

theorem Serves.next {gen : IdGen} {used : Nat → Prop} (serves : gen.Serves used) :
    gen.next.2.Serves fun id => id = gen.next.1 ∨ used id := by
  obtain ⟨usedLt, freeLt, freeUnused, freeNodup, covers⟩ := serves
  cases shape : gen.free with
  | nil =>
      simp only [IdGen.next, shape]
      constructor
      · rintro id (rfl | taken)
        · exact Nat.lt_succ_self _
        · exact Nat.lt_succ_of_lt (usedLt id taken)
      · simp
      · simp
      · simp
      · intro id bound
        rcases Nat.lt_succ_iff_lt_or_eq.mp bound with below | same
        · rcases covers id below with taken | free
          · exact Or.inl (Or.inr taken)
          · simp [shape] at free
        · exact Or.inl (Or.inl same)
  | cons first free =>
      rw [shape] at freeLt freeUnused freeNodup covers
      simp only [IdGen.next, shape]
      constructor
      · rintro id (rfl | taken)
        · exact freeLt id (by simp)
        · exact usedLt id taken
      · intro id member
        exact freeLt id (List.mem_cons_of_mem _ member)
      · rintro id member (rfl | taken)
        · exact (List.nodup_cons.mp freeNodup).1 member
        · exact freeUnused id (List.mem_cons_of_mem _ member) taken
      · exact (List.nodup_cons.mp freeNodup).2
      · intro id bound
        rcases covers id bound with taken | member
        · exact Or.inl (Or.inr taken)
        · rcases List.mem_cons.mp member with same | member
          · exact Or.inl (Or.inl same)
          · exact Or.inr member

theorem Serves.remove {gen : IdGen} {used : Nat → Prop} (serves : gen.Serves used) {i : Nat} (taken : used i) :
    (gen.remove i).Serves fun other => used other ∧ other ≠ i := by
  obtain ⟨usedLt, freeLt, freeUnused, freeNodup, covers⟩ := serves
  constructor
  · rintro other ⟨usedOther, _⟩
    exact usedLt other usedOther
  · intro other member
    rcases List.mem_cons.mp member with rfl | member
    · exact usedLt _ taken
    · exact freeLt other member
  · rintro other member ⟨usedOther, different⟩
    rcases List.mem_cons.mp member with rfl | member
    · exact different rfl
    · exact freeUnused other member usedOther
  · exact List.nodup_cons.mpr ⟨fun member => freeUnused i member taken, freeNodup⟩
  · intro other bound
    by_cases same : other = i
    · exact Or.inr (List.mem_cons.mpr (Or.inl same))
    · rcases covers other bound with usedOther | member
      · exact Or.inl ⟨usedOther, same⟩
      · exact Or.inr (List.mem_cons_of_mem _ member)

theorem Serves.of_iff {gen : IdGen} {used other : Nat → Prop} (serves : gen.Serves used)
    (same : ∀ id, other id ↔ used id) : gen.Serves other := by
  obtain rfl : other = used := funext fun id => propext (same id)
  exact serves

end IdGen

end CapnpEs.Rpc
