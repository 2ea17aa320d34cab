import Mathlib.Data.List.Basic

/-!
# Replaying inputs on a machine that answers

`replay` feeds a list of inputs to a machine and pairs each input with the answer
it got. Two rules about it: a part of the state that only some of the inputs
touch, and that alone decides their answers, sees nothing of the others; and an
input that commutes with all the others may be inserted anywhere among them.
-/

namespace Replay

variable {σ τ α β : Type*}

def replay (step : σ → α → β × σ) : σ → List α → List (α × β) × σ
  | s, [] => ([], s)
  | s, a :: as =>
    let rest := replay step (step s a).2 as
    ((a, (step s a).1) :: rest.1, rest.2)

section Basic

variable (step : σ → α → β × σ)

@[simp] theorem replay_nil (s : σ) : replay step s [] = ([], s) := rfl

@[simp] theorem replay_cons (s : σ) (a : α) (as : List α) :
    replay step s (a :: as) =
      ((a, (step s a).1) :: (replay step (step s a).2 as).1, (replay step (step s a).2 as).2) := rfl

theorem replay_append (s : σ) (as bs : List α) :
    replay step s (as ++ bs) =
      ((replay step s as).1 ++ (replay step (replay step s as).2 bs).1,
        (replay step (replay step s as).2 bs).2) := by
  induction as generalizing s with
  | nil => simp
  | cons a as ih => simp [ih]

/-- The answers come with the inputs they answer, in order. -/
theorem replay_inputs (s : σ) (as : List α) : (replay step s as).1.map Prod.fst = as := by
  induction as generalizing s with
  | nil => rfl
  | cons a as ih => simp [ih]

theorem mem_replay {s : σ} {as : List α} {x : α × β} (h : x ∈ (replay step s as).1) :
    x.1 ∈ as := by
  have hinput := List.mem_map_of_mem (f := Prod.fst) h
  rwa [replay_inputs] at hinput

/-- Invariants of a replay, which may look ahead. -/
theorem replay_invariant (I : List α → σ → Prop)
    (hkeep : ∀ a as s, I (a :: as) s → I as (step s a).2) {s : σ} {as : List α} (h : I as s) :
    I [] (replay step s as).2 := by
  induction as generalizing s with
  | nil => exact h
  | cons a as ih => exact ih (hkeep a as s h)

end Basic

section Project

variable {step : σ → α → β × σ}

/-- If the inputs in `p` are answered by a part of the state and change it as
`part` says, and the others leave that part alone, then replaying everything shows
on `p` what replaying only the inputs in `p` shows. `I` may look ahead. -/
theorem replay_project (part : τ → α → β × τ) (view : σ → τ) (p : α → Bool)
    (I : List α → σ → Prop)
    (hkeep : ∀ a as s, I (a :: as) s → I as (step s a).2)
    (hpart : ∀ a as s, I (a :: as) s → p a = true →
      (step s a).1 = (part (view s) a).1 ∧ view (step s a).2 = (part (view s) a).2)
    (hframe : ∀ a as s, I (a :: as) s → p a = false → view (step s a).2 = view s)
    {s : σ} {as : List α} (h : I as s) :
    (replay step s as).1.filter (fun x => p x.1) = (replay part (view s) (as.filter p)).1 ∧
      view (replay step s as).2 = (replay part (view s) (as.filter p)).2 := by
  induction as generalizing s with
  | nil => exact ⟨rfl, rfl⟩
  | cons a as ih =>
    have hrest := ih (hkeep a as s h)
    cases hp : p a with
    | true =>
      obtain ⟨hanswer, hview⟩ := hpart a as s h hp
      rw [hview] at hrest
      simp only [replay_cons, List.filter_cons, hp, if_true, hanswer, hrest.1]
      exact ⟨trivial, hrest.2⟩
    | false =>
      rw [hframe a as s h hp] at hrest
      simp only [replay_cons, List.filter_cons, hp, Bool.false_eq_true, if_false]
      exact hrest

end Project

section Insert

variable {step : σ → α → β × σ} {c : α}

/-- In the state `s` the inputs `c` and `a` may be made in either order. -/
structure Commute (step : σ → α → β × σ) (c a : α) (s : σ) : Prop where
  first : (step (step s a).2 c).1 = (step s c).1
  second : (step (step s c).2 a).1 = (step s a).1
  meet : (step (step s a).2 c).2 = (step (step s c).2 a).2

/-- An input that leaves the state alone commutes, if it is answered alike afterwards. -/
theorem Commute.of_still_second {a : α} {s : σ} (hstill : (step s a).2 = s)
    (hafter : step (step s c).2 a = ((step s a).1, (step s c).2)) : Commute step c a s where
  first := by rw [hstill]
  second := by rw [hafter]
  meet := by rw [hafter, hstill]

theorem Commute.of_still_first {a : α} {s : σ} (hstill : (step s c).2 = s)
    (hafter : step (step s a).2 c = ((step s c).1, (step s a).2)) : Commute step c a s where
  first := by rw [hafter]
  second := by rw [hstill]
  meet := by rw [hafter, hstill]

theorem replay_commute (I : σ → Prop) {as : List α}
    (hkeep : ∀ a ∈ as, ∀ s, I s → I (step s a).2)
    (hcommute : ∀ a ∈ as, ∀ s, I s → Commute step c a s) {s : σ} (h : I s) :
    (step (replay step s as).2 c).1 = (step s c).1 ∧
      (replay step (step s c).2 as).1 = (replay step s as).1 ∧
      (step (replay step s as).2 c).2 = (replay step (step s c).2 as).2 := by
  induction as generalizing s with
  | nil => exact ⟨rfl, rfl, rfl⟩
  | cons a as ih =>
    have hswap := hcommute a List.mem_cons_self s h
    obtain ⟨hfirst, hanswers, hmeet⟩ := ih (fun b hb => hkeep b (List.mem_cons_of_mem a hb))
      (fun b hb => hcommute b (List.mem_cons_of_mem a hb)) (hkeep a List.mem_cons_self s h)
    rw [hswap.first] at hfirst
    rw [hswap.meet] at hanswers hmeet
    simp only [replay_cons]
    rw [hswap.second, hanswers]
    exact ⟨hfirst, rfl, hmeet⟩

/-- Wherever `c` is inserted, it gets the same answer, the others get the answers
they get after `c`, and the same state is reached. -/
theorem replay_insert (I : σ → Prop) (as bs : List α)
    (hkeep : ∀ a ∈ as, ∀ s, I s → I (step s a).2)
    (hcommute : ∀ a ∈ as, ∀ s, I s → Commute step c a s) {s : σ} (h : I s) :
    replay step s (as ++ c :: bs) =
      ((replay step (step s c).2 as).1 ++ (c, (step s c).1) ::
          (replay step (replay step (step s c).2 as).2 bs).1,
        (replay step (step s c).2 (as ++ bs)).2) := by
  obtain ⟨hfirst, hanswers, hmeet⟩ := replay_commute I hkeep hcommute h
  simp only [replay_append, replay_cons]
  rw [hfirst, hmeet, hanswers]

end Insert
end Replay
