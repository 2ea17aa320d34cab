import Mathlib.Data.ENat.Basic
import Mathlib.Order.Interval.Finset.Nat
import Mathlib.Tactic.Linarith

/-!
# Leases kept alive by renewal

A lease has an expiry, and is touched from time to time. A touch guarantees a
margin of remaining life, by renewing the lease or by finding enough of it left,
and nothing else shortens it. If no two consecutive touches are further apart
than the margin, the lease has not run out at any touch, however long the
schedule; it need not be finite. Times are read off the steps of the schedule.

A renewal that waits until the lease has no more than `margin` left, and then gives it
`term`, cannot be had often: two renewals are at least `term - margin` apart, whoever
asks for them and however often.
-/

namespace Lease

variable {touched : ℕ → Prop} {i j : ℕ}

/-- `i` and `j` are touches with no touch between them. -/
structure Consecutive (touched : ℕ → Prop) (i j : ℕ) : Prop where
  lt : i < j
  first : touched i
  second : touched j
  between : ∀ k, i < k → k < j → ¬ touched k

/-- A touch that is not the first has a last one before it. -/
theorem exists_last (h : ∃ i, i < j ∧ touched i) :
    ∃ i, i < j ∧ touched i ∧ ∀ k, i < k → k < j → ¬ touched k := by
  induction j with
  | zero =>
    obtain ⟨i, hi, _⟩ := h
    exact absurd hi (Nat.not_lt_zero i)
  | succ j ih =>
    by_cases hj : touched j
    · refine ⟨j, Nat.lt_succ_self j, hj, ?_⟩
      intro k hk hk'
      omega
    · obtain ⟨i, hi, htouched⟩ := h
      have hne : i ≠ j := by
        rintro rfl
        exact hj htouched
      obtain ⟨last, hlast, htouched', hnone⟩ := ih ⟨i, by omega, htouched⟩
      refine ⟨last, by omega, htouched', ?_⟩
      intro k hk hk'
      rcases Nat.lt_succ_iff_lt_or_eq.mp hk' with hlt | rfl
      · exact hnone k hk hlt
      · exact hj

theorem exists_consecutive (h : ∃ i, i < j ∧ touched i) (hj : touched j) :
    ∃ i, Consecutive touched i j := by
  obtain ⟨i, hi, htouched, hnone⟩ := exists_last h
  exact ⟨i, hi, htouched, hj, hnone⟩

section Schedule

variable {N : ℕ∞} {clock expiry : ℕ → ℕ} {margin : ℕ}

/-- What a touch guarantees lasts until the next one. -/
theorem margin_kept (hkept : ∀ n : ℕ, n < N → ¬ touched n → expiry n ≤ expiry (n + 1))
    (hrenewed : ∀ n : ℕ, n < N → touched n → clock n + margin ≤ expiry (n + 1)) (hi : touched i)
    (hij : i < j) (hj : (j : ℕ∞) ≤ N) (hnone : ∀ k, i < k → k < j → ¬ touched k) :
    clock i + margin ≤ expiry j := by
  induction j with
  | zero => exact absurd hij (Nat.not_lt_zero i)
  | succ j ih =>
    have hlt : (j : ℕ∞) < N := lt_of_lt_of_le (by exact_mod_cast Nat.lt_succ_self j) hj
    rcases Nat.lt_succ_iff_lt_or_eq.mp hij with hlater | rfl
    · have hbefore := ih hlater hlt.le fun k hk hk' => hnone k hk (by omega)
      exact hbefore.trans (hkept j hlt (hnone j hlater (Nat.lt_succ_self j)))
    · exact hrenewed i hlt hi

/-- Touched often enough, the lease is alive at every touch but the first. -/
theorem alive (hkept : ∀ n : ℕ, n < N → ¬ touched n → expiry n ≤ expiry (n + 1))
    (hrenewed : ∀ n : ℕ, n < N → touched n → clock n + margin ≤ expiry (n + 1))
    (hgap : ∀ i j : ℕ, j < N → Consecutive touched i j → clock j ≤ clock i + margin)
    (hj : (j : ℕ∞) < N) (htouched : touched j) (hearlier : ∃ i, i < j ∧ touched i) :
    clock j ≤ expiry j := by
  obtain ⟨i, hconsecutive⟩ := exists_consecutive hearlier htouched
  have hmargin := margin_kept hkept hrenewed hconsecutive.first hconsecutive.lt hj.le
    hconsecutive.between
  exact (hgap i j hj hconsecutive).trans hmargin

end Schedule

section Renewals

variable {N : ℕ∞} {clock expiry : ℕ → ℕ} {margin term : ℕ} {renewed : ℕ → Prop}
  [DecidablePred renewed]

/-- How many renewals there are from step `i` to step `j`. -/
def count (renewed : ℕ → Prop) [DecidablePred renewed] (i j : ℕ) : ℕ :=
  ((Finset.Ico i j).filter renewed).card

theorem count_self (i : ℕ) : count renewed i i = 0 := by simp [count]

theorem count_succ (hij : i ≤ j) :
    count renewed i (j + 1) = count renewed i j + if renewed j then 1 else 0 := by
  unfold count
  rw [Nat.Ico_succ_right_eq_insert_Ico hij, Finset.filter_insert]
  split_ifs with h
  · rw [Finset.card_insert_of_notMem (by simp)]
  · rfl

/-- Every renewal but the first has used up a whole `term - margin` of the clock. -/
theorem count_mul_le (hclock : ∀ n : ℕ, n < N → clock n ≤ clock (n + 1))
    (hkept : ∀ n m : ℕ, n < N → m < n → renewed m → ¬ renewed n → expiry (n + 1) = expiry n)
    (hrenewed : ∀ n : ℕ, n < N → renewed n →
      expiry n ≤ clock n + margin ∧ expiry (n + 1) = clock n + term)
    (hmargin : margin ≤ term) (hij : i ≤ j) (hj : (j : ℕ∞) ≤ N) :
    count renewed i j * (term - margin) + clock i ≤ clock j + (term - margin) := by
  -- the last renewal was `count - 1` times `term - margin` after `clock i`, or later
  have hinvariant : clock i ≤ clock j ∧ (count renewed i j = 0 ∨
      (∃ m, m < j ∧ renewed m) ∧ expiry j ≤ clock j + term ∧
        count renewed i j * (term - margin) + clock i + margin ≤ expiry j) := by
    induction j, hij using Nat.le_induction with
    | base => exact ⟨le_rfl, Or.inl (count_self i)⟩
    | succ j hij ih =>
      have hlt : (j : ℕ∞) < N := lt_of_lt_of_le (by exact_mod_cast Nat.lt_succ_self j) hj
      obtain ⟨hsince, hbefore⟩ := ih hlt.le
      have hlater := hclock j hlt
      refine ⟨hsince.trans hlater, ?_⟩
      rw [count_succ hij]
      by_cases h : renewed j
      · obtain ⟨hlow, hset⟩ := hrenewed j hlt h
        refine Or.inr ⟨⟨j, Nat.lt_succ_self j, h⟩, by omega, ?_⟩
        rw [if_pos h, hset, Nat.add_mul, one_mul]
        rcases hbefore with hnone | ⟨_, _, hspent⟩
        · rw [hnone]
          omega
        · omega
      · rw [if_neg h, add_zero]
        refine hbefore.imp_right ?_
        rintro ⟨⟨m, hm, hearlier⟩, hupper, hspent⟩
        rw [hkept j m hlt hm hearlier h]
        exact ⟨⟨m, by omega, hearlier⟩, by omega, hspent⟩
  obtain ⟨hsince, hnone | ⟨_, hupper, hspent⟩⟩ := hinvariant
  · rw [hnone]
    omega
  · omega

end Renewals
end Lease
