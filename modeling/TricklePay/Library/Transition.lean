import Mathlib.Data.ENat.Basic
import Mathlib.Data.List.Induction

/-!
# Labelled transition systems and their runs

A run records the labels of its steps, oldest first. The rules below are the
inductions over runs that a development needs once: invariants that may mention
the labels so far, and forward simulation between two systems that share their
labels, or show the same of them. A trace numbers its states instead, and may be
endless.
-/

namespace Transition

variable {σ τ α : Type*}

/-- `Run step s ls s'`: performing the steps labelled `ls` leads from `s` to `s'`. -/
inductive Run (step : σ → α → σ → Prop) (s : σ) : List α → σ → Prop
  | nil : Run step s [] s
  | snoc {ls : List α} {m : σ} {l : α} {s' : σ} :
      Run step s ls m → step m l s' → Run step s (ls ++ [l]) s'

namespace Run

variable {step : σ → α → σ → Prop} {s s' m : σ} {ls ls' : List α} {l : α}

theorem single (h : step s l s') : Run step s [l] s' := snoc nil h

theorem append (h : Run step s ls m) (h' : Run step m ls' s') : Run step s (ls ++ ls') s' := by
  induction h' with
  | nil => simpa using h
  | snoc _ hstep ih => simpa using snoc ih hstep

/-- The last step of a nonempty run. -/
theorem last_step (h : Run step s (ls ++ [l]) s') : ∃ m, Run step s ls m ∧ step m l s' := by
  generalize hall : ls ++ [l] = all at h
  cases h with
  | nil => simp at hall
  | @snoc _ m k _ hrun hstep =>
    obtain ⟨rfl, hlast⟩ := List.append_inj' hall rfl
    obtain rfl : l = k := by simpa using hlast
    exact ⟨m, hrun, hstep⟩

/-- Invariants: a property of the labels so far and of the state reached. -/
theorem invariant (I : List α → σ → Prop) (h₀ : I [] s)
    (hstep : ∀ ls m l m', Run step s ls m → I ls m → step m l m' → I (ls ++ [l]) m')
    (h : Run step s ls s') : I ls s' := by
  induction h with
  | nil => exact h₀
  | snoc hrun hst ih => exact hstep _ _ _ _ hrun ih hst

/-- Forward simulation: related states answer every step of the first system with
a step of the second under the same label. -/
theorem simulate {step' : τ → α → τ → Prop} (R : σ → τ → Prop)
    (hstep : ∀ ls m l m' t, Run step s ls m → R m t → step m l m' → ∃ t', step' t l t' ∧ R m' t')
    {t : τ} (h₀ : R s t) (h : Run step s ls s') : ∃ t', Run step' t ls t' ∧ R s' t' := by
  induction h with
  | nil => exact ⟨t, nil, h₀⟩
  | snoc hrun hst ih =>
    obtain ⟨u, hu, hR⟩ := ih
    obtain ⟨u', hu', hR'⟩ := hstep _ _ _ _ _ hrun hR hst
    exact ⟨u', snoc hu hu', hR'⟩

/-- Forward simulation up to hidden steps: related states answer a step of the first
system with a run of the second that shows what the step shows. -/
theorem simulate_shown {β γ : Type*} {step' : τ → β → τ → Prop} (R : σ → τ → Prop)
    (shown : α → Option γ) (shown' : β → Option γ)
    (hstep : ∀ m l m' t, R m t → step m l m' →
      ∃ ks t', Run step' t ks t' ∧ ks.filterMap shown' = (shown l).toList ∧ R m' t')
    {t : τ} (h₀ : R s t) (h : Run step s ls s') :
    ∃ ks t', Run step' t ks t' ∧ ks.filterMap shown' = ls.filterMap shown ∧ R s' t' := by
  induction h with
  | nil => exact ⟨[], t, nil, rfl, h₀⟩
  | @snoc ls m l s' _ hst ih =>
    obtain ⟨ks, u, hu, hks, hR⟩ := ih
    obtain ⟨ks', u', hu', hks', hR'⟩ := hstep m l s' u hR hst
    have hlast : [l].filterMap shown = (shown l).toList := by
      cases hl : shown l with
      | none => exact List.filterMap_cons_none hl
      | some c => exact List.filterMap_cons_some hl
    refine ⟨ks ++ ks', u', hu.append hu', ?_, hR'⟩
    rw [List.filterMap_append, List.filterMap_append, hks, hks', hlast]

end Run

/-- A sequence of `N` steps, or an endless one if `N` is `⊤`. -/
structure Trace (step : σ → α → σ → Prop) (N : ℕ∞) where
  state : ℕ → σ
  label : ℕ → α
  steps : ∀ n : ℕ, n < N → step (state n) (label n) (state (n + 1))

/-- What holds at one position of a trace, and is kept by the steps from there on. -/
theorem Trace.kept {step : σ → α → σ → Prop} {N : ℕ∞} (trace : Trace step N) {P : ℕ → Prop}
    {i j : ℕ} (hij : i ≤ j) (hj : (j : ℕ∞) ≤ N) (hi : P i)
    (hstep : ∀ n, i ≤ n → n < j → step (trace.state n) (trace.label n) (trace.state (n + 1)) →
      P n → P (n + 1)) : P j := by
  induction j, hij using Nat.le_induction with
  | base => exact hi
  | succ j hij ih =>
    have hlt : (j : ℕ∞) < N := lt_of_lt_of_le (by exact_mod_cast Nat.lt_succ_self j) hj
    have hbefore := ih hlt.le fun n hn hn' => hstep n hn (hn'.trans (Nat.lt_succ_self j))
    exact hstep j hij (Nat.lt_succ_self j) (trace.steps j hlt) hbefore

end Transition
