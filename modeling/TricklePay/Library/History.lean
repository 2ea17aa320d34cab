import Mathlib.Data.List.Induction

/-!
# Logs read in order

A log is justified when every entry is admitted by the entries before it. A reader
digests a log key by key, absorbing one entry after another.
-/

namespace History

variable {α κ φ : Type*}

/-- Every entry of the log is one that the entries before it admit. -/
def Justified (P : List α → α → Prop) (log : List α) : Prop :=
  ∀ before e, before ++ [e] <+: log → P before e

section Justified

variable {P : List α → α → Prop} {log before after : List α} {e : α}

theorem justified_nil : Justified P [] := by
  intro before e h
  have hlength := h.length_le
  simp at hlength

theorem Justified.snoc (h : Justified P log) (he : P log e) : Justified P (log ++ [e]) := by
  intro before e' hinit
  rcases List.prefix_concat_iff.mp hinit with heq | hold
  · obtain ⟨rfl, hlast⟩ := List.append_inj' heq rfl
    obtain rfl : e' = e := by simpa using hlast
    exact he
  · exact h before e' hold

theorem Justified.of_prefix (h : Justified P log) (hinit : before <+: log) :
    Justified P before := by
  intro earlier e hearlier
  exact h earlier e (hearlier.trans hinit)

theorem Justified.until (h : Justified P (before ++ e :: after)) : Justified P before :=
  h.of_prefix (List.prefix_append before (e :: after))

theorem Justified.admits (h : Justified P (before ++ e :: after)) : P before e := by
  apply h before e
  have hinit := List.prefix_append (before ++ [e]) after
  rwa [← List.append_cons] at hinit

/-- Induction on a justified log: what its admitted entries preserve holds at its end. -/
theorem Justified.invariant (h : Justified P log) (I : List α → Prop) (h₀ : I [])
    (hstep : ∀ before e, I before → P before e → I (before ++ [e])) : I log := by
  induction log using List.reverseRecOn with
  | nil => exact h₀
  | append_singleton init e ih =>
    apply hstep
    · exact ih (h.of_prefix (List.prefix_append init [e]))
    · exact h init e List.prefix_rfl

end Justified

section Digest

variable [DecidableEq κ] (key : α → κ) (absorb : Option φ → α → Option φ) (k : κ) (log : List α)

/-- What a reader that absorbs the entries with key `k` one by one ends up with. -/
def digest : Option φ :=
  (log.filter fun e => key e = k).foldl absorb none

theorem digest_snoc_self (e : α) :
    digest key absorb (key e) (log ++ [e]) = absorb (digest key absorb (key e) log) e := by
  simp [digest]

theorem digest_snoc_of_ne {e : α} (h : key e ≠ k) :
    digest key absorb k (log ++ [e]) = digest key absorb k log := by
  simp [digest, h]

end Digest

end History
