import TricklePay.Proofs.Lifetime

/-!
# What keeping entries alive costs

Anybody may call a view and so have the contract extend the entry it loads, and rent
is paid for every extension. It cannot be driven up this way: a call extends an entry
only when its life has run down to `bumpThreshold`, and then to the full `entryTtl`.
-/

namespace TricklePay

open Checked Transition

variable {Address : Type}

/-- A life is left alone, or it is about to run out and renewed in full. -/
def Renewal (sequence before after : ℕ) : Prop :=
  after = before ∨ before ≤ sequence + bumpThreshold ∧ after = sequence + entryTtl

theorem Renewal.trans {sequence a b c : ℕ} (h : Renewal sequence a b) (h' : Renewal sequence b c) :
    Renewal sequence a c := by
  rcases h with rfl | ⟨hlow, rfl⟩
  · exact h'
  · rcases h' with rfl | ⟨_, rfl⟩
    · exact Or.inr ⟨hlow, rfl⟩
    · exact Or.inr ⟨hlow, rfl⟩

section Helpers

variable {w : World Address} {env : Env Address} {key : DataKey}

theorem World.extendTtl_renewal (w : World Address) (env : Env Address) (extended key : DataKey) :
    Renewal w.sequence (w.liveUntil key)
      ((w.extendTtl env extended bumpThreshold entryTtl).liveUntil key) := by
  by_cases hkey : key = extended
  · subst hkey
    simp only [World.extendTtl]
    split_ifs with hlow
    · rw [Function.update_self]
      exact Or.inr ⟨by omega, rfl⟩
    · exact Or.inl rfl
  · exact Or.inl (extendTtl_liveUntil_of_ne hkey)

variable [DecidableEq Address]

theorem World.stored_renewal (env : Env Address) (id : UInt64) (stream : Stream Address)
    (h : w.Has key) :
    Renewal w.sequence (w.liveUntil key) ((w.stored env id stream).liveUntil key) := by
  by_cases hkey : key = .stream id
  · subst hkey
    have hset : (w.setStream env id stream).liveUntil = w.liveUntil := if_pos h
    have hrenewal := (w.setStream env id stream).extendTtl_renewal env (.stream id) (.stream id)
    rw [hset] at hrenewal
    exact hrenewal
  · exact Or.inl (stored_liveUntil_of_ne hkey)

/-- In every step the life of an entry is left alone or renewed. -/
theorem Step.renewal {w' : World Address} {l : Label Address} (h : Step w l w')
    (hhas : w.Has key) : Renewal w.sequence (w.liveUntil key) (w'.liveUntil key) := by
  cases h with
  | clock => exact Or.inl rfl
  | credited => exact Or.inl rfl
  | refused => exact Or.inl rfl
  | bookkeeping => exact Or.inl rfl
  | @call _ env call receipt hinvoke =>
    cases World.invoke_effect hinvoke with
    | rejected _ _ hworld =>
      rw [hworld]
      exact Or.inl rfl
    | viewed _ _ hview _ _ =>
      unfold World.invoke at hinvoke
      cases hr : call.run env ⟨w, [], []⟩ with
      | error failure next =>
        rw [hr] at hinvoke
        cases hinvoke
        exact Or.inl rfl
      | ok response next =>
        have hnext := Call.view_run hview hr
        rw [hr] at hinvoke
        cases hinvoke
        cases hloads : call.loads with
        | none =>
          rw [hloads] at hnext
          rw [hnext]
          exact Or.inl rfl
        | some id =>
          rw [hloads] at hnext
          rw [hnext]
          exact w.extendTtl_renewal env (.stream id) key
    | opened o next book _ _ _ _ _ _ hworld =>
      rw [hworld]
      have hfunded : (w.setBook o.token book).Has key := (World.has_of_streams_eq rfl).mpr hhas
      have hstored := World.stored_renewal env (w.streamCount.getD 0) o.stream hfunded
      exact hstored.trans (World.extendTtl_renewal _ env .streamCount key)
    | settled op id _ z _ _ _ _ hpaid =>
      rcases Settled.paid_cases hpaid with hrejected | ⟨_, balance, hworld⟩
      · cases hrejected
        exact Or.inl rfl
      · rw [hworld]
        have hrefreshed := w.extendTtl_renewal env (.stream id) key
        have hhas' : (w.refreshed env id).Has key := (World.has_of_streams_eq rfl).mpr hhas
        exact hrefreshed.trans (World.stored_renewal env id z.stream hhas')

theorem Step.has {w' : World Address} {l : Label Address} (h : Step w l w') (hhas : w.Has key) :
    w'.Has key := by
  have hwritten : ∀ (v : World Address) (id : UInt64) (stream : Stream Address),
      v.streams = Function.update w.streams id (some stream) → v.Has key := by
    intro v id stream hstreams
    by_cases hkey : key = .stream id
    · subst hkey
      change (v.streams id).isSome = true
      rw [hstreams, Function.update_self]
      rfl
    · exact (World.has_of_update hstreams hkey).mpr hhas
  cases h with
  | clock => exact (World.has_of_streams_eq rfl).mpr hhas
  | credited => exact (World.has_of_streams_eq rfl).mpr hhas
  | refused => exact hhas
  | bookkeeping => exact (World.has_of_streams_eq rfl).mpr hhas
  | call hinvoke =>
    cases World.invoke_effect hinvoke with
    | rejected _ _ hworld =>
      rw [hworld]
      exact hhas
    | viewed _ _ _ _ hworld =>
      rw [hworld]
      exact (World.has_of_streams_eq rfl).mpr hhas
    | opened o next book _ _ _ _ _ _ hworld =>
      rw [hworld]
      exact hwritten _ _ o.stream rfl
    | settled op id _ z _ _ _ _ hpaid =>
      rcases Settled.paid_cases hpaid with hrejected | ⟨_, balance, hworld⟩
      · cases hrejected
        exact hhas
      · rw [hworld]
        exact hwritten _ id z.stream rfl

end Helpers

instance (w : World Address) (key : DataKey) : Decidable (w.Has key) :=
  match key with
  | .streamCount => inferInstanceAs (Decidable True)
  | .stream id => inferInstanceAs (Decidable ((w.streams id).isSome = true))

section Schedule

variable [DecidableEq Address] {N : ℕ∞} {trace : Trace (@Step Address _) N} {key : DataKey}

/-- An entry that was there is given another life in step `n`. -/
def Renewed (trace : Trace (@Step Address _) N) (key : DataKey) (n : ℕ) : Prop :=
  (trace.state n).Has key ∧ (trace.state (n + 1)).liveUntil key ≠ (trace.state n).liveUntil key

instance : DecidablePred (Renewed trace key) := fun _ => inferInstanceAs (Decidable (_ ∧ _))

theorem has_later {m n : ℕ} (hmn : m ≤ n) (hn : (n : ℕ∞) ≤ N) (hhas : (trace.state m).Has key) :
    (trace.state n).Has key :=
  trace.kept hmn hn hhas fun _ _ _ hstep hbefore => hstep.has hbefore

/-- Renewals are rare, whatever is called, by whomever, and however often: in any part of
any trace, the renewals of one entry after the first take up a whole
`entryTtl - bumpThreshold` ledgers each. -/
theorem renewals_are_rare (trace : Trace (@Step Address _) N) (key : DataKey) {i j : ℕ}
    (hij : i ≤ j) (hj : (j : ℕ∞) ≤ N) :
    Lease.count (Renewed trace key) i j * (entryTtl - bumpThreshold) + (trace.state i).sequence ≤
      (trace.state j).sequence + (entryTtl - bumpThreshold) := by
  have hclock : ∀ n : ℕ, n < N → (trace.state n).sequence ≤ (trace.state (n + 1)).sequence :=
    fun n hn => ((trace.steps n hn).lives key).sequence_le
  have hkept : ∀ n m : ℕ, n < N → m < n → Renewed trace key m → ¬ Renewed trace key n →
      (trace.state (n + 1)).liveUntil key = (trace.state n).liveUntil key := by
    intro n m hn hmn hearlier hnot
    have hhas := has_later hmn.le hn.le hearlier.1
    by_contra hchanged
    exact hnot ⟨hhas, hchanged⟩
  have hrenewed : ∀ n : ℕ, n < N → Renewed trace key n →
      (trace.state n).liveUntil key ≤ (trace.state n).sequence + bumpThreshold ∧
        (trace.state (n + 1)).liveUntil key = (trace.state n).sequence + entryTtl := by
    rintro n hn ⟨hhas, hchanged⟩
    exact ((trace.steps n hn).renewal hhas).resolve_left hchanged
  exact Lease.count_mul_le hclock hkept hrenewed bumpThreshold_le_entryTtl hij hj

end Schedule

/-- The instance is renewed once, when the stream is opened. -/
theorem renewals_are_rare_drained :
    Lease.count (Renewed Sample.drainTrace .streamCount) 0 3 = 1 ∧
      Lease.count (Renewed Sample.drainTrace .streamCount) 0 3 * (entryTtl - bumpThreshold) +
          (Sample.drainTrace.state 0).sequence ≤
        (Sample.drainTrace.state 3).sequence + (entryTtl - bumpThreshold) :=
  ⟨by decide +kernel, renewals_are_rare Sample.drainTrace .streamCount (by decide) (by norm_num)⟩

end TricklePay
