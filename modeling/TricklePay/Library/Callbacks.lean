import TricklePay.Library.Transition

/-!
# Calls that are suspended, called back into, and rolled back

A component runs calls in two parts, around a call out of it. While a call is out
it is suspended, and the component may be called again, to any depth. A call that
fails takes back everything done since it was made, the calls inside it included.

What the parts of the calls keep, given what is suspended below them, holds at
every moment of every execution: `Parts.Keeps.holds`. Rolling back restores a
moment that had it.
-/

namespace Callbacks

open Transition

variable {σ π α : Type*}

/-- What the calls of a component do between calls out of it. `σ` is the state that
is rolled back, `π` what a suspended call has in hand; the lists are what is
suspended, innermost first. -/
structure Parts (σ π α : Type*) where
  act : List π → σ → α → σ → Prop
  enter : List π → σ → α → π → σ → Prop
  progress : π → σ → α → π → σ → Prop
  leave : π → σ → α → σ → Prop
  fail : π → α → Prop

/-- A suspended call, with the state it was made in. -/
structure Level (σ π : Type*) where
  pending : π
  saved : σ

structure Config (σ π : Type*) where
  state : σ
  levels : List (Level σ π)

/-- Nothing is suspended. -/
def Config.idle (s : σ) : Config σ π := ⟨s, []⟩

inductive Step (C : Parts σ π α) : Config σ π → α → Config σ π → Prop
  | act {s s' : σ} {levels : List (Level σ π)} {l : α}
      (h : C.act (levels.map Level.pending) s l s') : Step C ⟨s, levels⟩ l ⟨s', levels⟩
  | enter {s s' : σ} {levels : List (Level σ π)} {l : α} {p : π}
      (h : C.enter (levels.map Level.pending) s l p s') :
      Step C ⟨s, levels⟩ l ⟨s', ⟨p, s⟩ :: levels⟩
  | progress {s s' saved : σ} {levels : List (Level σ π)} {l : α} {p p' : π}
      (h : C.progress p s l p' s') :
      Step C ⟨s, ⟨p, saved⟩ :: levels⟩ l ⟨s', ⟨p', saved⟩ :: levels⟩
  | leave {s s' saved : σ} {levels : List (Level σ π)} {l : α} {p : π} (h : C.leave p s l s') :
      Step C ⟨s, ⟨p, saved⟩ :: levels⟩ l ⟨s', levels⟩
  | fail {s saved : σ} {levels : List (Level σ π)} {l : α} {p : π} (h : C.fail p l) :
      Step C ⟨s, ⟨p, saved⟩ :: levels⟩ l ⟨saved, levels⟩

variable {C : Parts σ π α} {A : α → Prop} {I : List π → σ → Prop}

/-- Every part of a call keeps `I`, as long as the labels satisfy `A`. -/
structure Parts.Keeps (C : Parts σ π α) (A : α → Prop) (I : List π → σ → Prop) : Prop where
  act : ∀ {ps s l s'}, A l → I ps s → C.act ps s l s' → I ps s'
  enter : ∀ {ps s l p s'}, A l → I ps s → C.enter ps s l p s' → I (p :: ps) s'
  progress : ∀ {ps s l p p' s'}, A l → I (p :: ps) s → C.progress p s l p' s' → I (p' :: ps) s'
  leave : ∀ {ps s l p s'}, A l → I (p :: ps) s → C.leave p s l s' → I ps s'

/-- `I` holds now, and held whenever a call was made that is still suspended. -/
def Held (I : List π → σ → Prop) : List (Level σ π) → σ → Prop
  | [], s => I [] s
  | level :: levels, s =>
    I (level.pending :: levels.map Level.pending) s ∧ Held I levels level.saved

theorem Held.now {levels : List (Level σ π)} {s : σ} (h : Held I levels s) :
    I (levels.map Level.pending) s := by
  cases levels with
  | nil => exact h
  | cons level levels => exact h.1

/-- What is suspended need not be looked at again when only the present changes. -/
theorem Held.change {levels : List (Level σ π)} {s s' : σ} (h : Held I levels s)
    (hnow : I (levels.map Level.pending) s') : Held I levels s' := by
  cases levels with
  | nil => exact hnow
  | cons level levels => exact ⟨hnow, h.2⟩

theorem Parts.Keeps.held_step (hkeeps : C.Keeps A I) {c c' : Config σ π} {l : α} (hl : A l)
    (h : Step C c l c') (hheld : Held I c.levels c.state) : Held I c'.levels c'.state := by
  cases h with
  | act h => exact hheld.change (hkeeps.act hl hheld.now h)
  | enter h => exact ⟨hkeeps.enter hl hheld.now h, hheld⟩
  | progress h => exact ⟨hkeeps.progress hl hheld.1 h, hheld.2⟩
  | leave h => exact hheld.2.change (hkeeps.leave hl hheld.1 h)
  | fail _ => exact hheld.2

/-- At every moment of an execution, however deep, what the parts keep holds. -/
theorem Parts.Keeps.holds (hkeeps : C.Keeps A I) {c c' : Config σ π} {ls : List α}
    (h : Run (Step C) c ls c') (hls : ∀ l ∈ ls, A l) (hheld : Held I c.levels c.state) :
    I (c'.levels.map Level.pending) c'.state := by
  have hrun : Held I c'.levels c'.state := by
    induction h with
    | nil => exact hheld
    | snoc _ hstep ih =>
      have hbefore := ih fun l hl => hls l (List.mem_append_left _ hl)
      exact hkeeps.held_step (hls _ (List.mem_append_right _ List.mem_cons_self)) hstep hbefore
  exact hrun.now

end Callbacks
