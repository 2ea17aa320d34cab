import Mathlib.Algebra.BigOperators.Group.Finset.Basic
import Mathlib.Algebra.Order.BigOperators.Group.Finset
import Mathlib.Tactic

/-!
# Pooled accounts

Two general facts about keeping many claims in one place. `weight w f` adds up a
weight over the defined entries of a partial map, and changes by the difference
of the two weights when one entry is rewritten. `move` takes an amount from one
holder of a book of balances to another.
-/

namespace Pool

section Weight

variable {ι α M : Type*} [Fintype ι]

/-- The total weight of the entries a partial map defines. -/
def weight [AddCommMonoid M] (w : α → M) (f : ι → Option α) : M := ∑ i, (f i).elim 0 w

theorem weight_empty [AddCommMonoid M] (w : α → M) : weight w (fun _ : ι => none) = 0 := by
  simp [weight]

theorem weight_update [DecidableEq ι] [AddCommGroup M] (w : α → M) (f : ι → Option α) (i : ι)
    (b : α) :
    weight w (Function.update f i (some b)) = weight w f + (w b - (f i).elim 0 w) := by
  have hupd : (fun j => (Function.update f i (some b) j).elim 0 w) =
      Function.update (fun j => (f j).elim 0 w) i (w b) := by
    funext j
    by_cases h : j = i
    · subst h; simp
    · simp [h]
  unfold weight
  rw [hupd, Finset.sum_update_of_mem (Finset.mem_univ i), Finset.sdiff_singleton_eq_erase,
    Finset.sum_erase_eq_sub (Finset.mem_univ i)]
  abel

/-- With no negative entry, each entry is covered by the total. -/
theorem le_weight [AddCommMonoid M] [PartialOrder M] [IsOrderedAddMonoid M] (w : α → M)
    (f : ι → Option α) (hw : ∀ i a, f i = some a → 0 ≤ w a) {i : ι} {a : α} (hi : f i = some a) :
    w a ≤ weight w f := by
  have hnonneg : ∀ j ∈ Finset.univ, 0 ≤ (f j).elim 0 w := by
    intro j _
    cases hj : f j with
    | none => exact le_rfl
    | some b => exact hw j b hj
  have h := Finset.single_le_sum hnonneg (Finset.mem_univ i)
  rwa [hi] at h

/-- Leaving out one entry leaves out its weight. -/
theorem weight_eq_add_erase [DecidableEq ι] [AddCommMonoid M] (w : α → M) (f : ι → Option α)
    (i : ι) : weight w f = (f i).elim 0 w + weight w (Function.update f i none) := by
  have hrest : ∑ j ∈ Finset.univ.erase i, (Function.update f i none j).elim 0 w =
      ∑ j ∈ Finset.univ.erase i, (f j).elim 0 w := by
    refine Finset.sum_congr rfl ?_
    intro j hj
    rw [Function.update_of_ne (Finset.ne_of_mem_erase hj)]
  unfold weight
  rw [← Finset.add_sum_erase _ _ (Finset.mem_univ i),
    ← Finset.add_sum_erase _ (fun j => (Function.update f i none j).elim 0 w) (Finset.mem_univ i),
    hrest, Function.update_self]
  exact congrArg _ (zero_add _).symm

section Listing

variable [DecidableEq ι] [AddCommMonoid M] [PartialOrder M] [IsOrderedAddMonoid M] {w : α → M}
  {f : ι → Option α} {xs : List (ι × α)}

/-- Entries that are listed once, and under no more than their weight, weigh no less than
their list. -/
theorem sum_le_weight (hnonneg : ∀ i a, f i = some a → 0 ≤ w a)
    (hnodup : (xs.map Prod.fst).Nodup)
    (hlisted : ∀ x ∈ xs, ∃ a, f x.1 = some a ∧ w x.2 ≤ w a) :
    (xs.map fun x => w x.2).sum ≤ weight w f := by
  induction xs generalizing f with
  | nil =>
    refine Finset.sum_nonneg ?_
    intro i _
    cases hi : f i with
    | none => exact le_rfl
    | some a => exact hnonneg i a hi
  | cons x xs ih =>
    obtain ⟨hfresh, hrest⟩ := List.nodup_cons.mp hnodup
    obtain ⟨⟨a, ha, hle⟩, hothers⟩ := List.forall_mem_cons.mp hlisted
    rw [weight_eq_add_erase w f x.1, ha, List.map_cons, List.sum_cons]
    refine add_le_add hle (ih ?_ hrest ?_)
    · intro i b hi
      by_cases hx : i = x.1
      · rw [hx, Function.update_self] at hi
        cases hi
      · rw [Function.update_of_ne hx] at hi
        exact hnonneg i b hi
    · intro y hy
      have hne : y.1 ≠ x.1 := fun he => hfresh (he ▸ List.mem_map_of_mem hy)
      rw [Function.update_of_ne hne]
      exact hothers y hy

/-- Entries that are all listed, and under no less than their weight, weigh no more. -/
theorem weight_le_sum (hnonneg : ∀ x ∈ xs, 0 ≤ w x.2) (hnodup : (xs.map Prod.fst).Nodup)
    (hcover : ∀ i a, f i = some a → ∃ x ∈ xs, x.1 = i ∧ w a ≤ w x.2) :
    weight w f ≤ (xs.map fun x => w x.2).sum := by
  induction xs generalizing f with
  | nil =>
    have hnone : ∀ i, (f i).elim 0 w = 0 := by
      intro i
      cases hi : f i with
      | none => rfl
      | some a =>
        obtain ⟨x, hx, _⟩ := hcover i a hi
        cases hx
    exact (Finset.sum_eq_zero fun i _ => hnone i).le
  | cons x xs ih =>
    obtain ⟨hfresh, hrest⟩ := List.nodup_cons.mp hnodup
    obtain ⟨hx, hothers⟩ := List.forall_mem_cons.mp hnonneg
    rw [weight_eq_add_erase w f x.1, List.map_cons, List.sum_cons]
    refine add_le_add ?_ (ih hothers hrest ?_)
    · cases hi : f x.1 with
      | none => exact hx
      | some a =>
        obtain ⟨y, hy, hyx, hle⟩ := hcover x.1 a hi
        rcases List.mem_cons.mp hy with rfl | hy
        · exact hle
        · exact absurd (hyx ▸ List.mem_map_of_mem hy) hfresh
    · intro i a hi
      by_cases hne : i = x.1
      · rw [hne, Function.update_self] at hi
        cases hi
      · rw [Function.update_of_ne hne] at hi
        obtain ⟨y, hy, hyi, hle⟩ := hcover i a hi
        rcases List.mem_cons.mp hy with rfl | hy
        · exact absurd hyi.symm hne
        · exact ⟨y, hy, hyi, hle⟩

end Listing
end Weight

section Move

variable {κ M : Type*} [DecidableEq κ] [AddCommGroup M]

/-- Debit one holder, then credit the other. -/
def move (book : κ → M) (source target : κ) (amount : M) : κ → M := fun holder =>
  book holder - (if holder = source then amount else 0) + (if holder = target then amount else 0)

theorem move_source (book : κ → M) {source target : κ} (h : target ≠ source) (amount : M) :
    move book source target amount source = book source - amount := by
  simp [move, h.symm]

theorem move_target (book : κ → M) {source target : κ} (h : target ≠ source) (amount : M) :
    move book source target amount target = book target + amount := by
  simp [move, h]

theorem move_comm (book : κ → M) (s t s' t' : κ) (a b : M) :
    move (move book s t a) s' t' b = move (move book s' t' b) s t a := by
  funext holder
  simp only [move]
  abel

end Move
end Pool
