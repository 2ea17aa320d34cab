import TricklePay.Library.Transition

/-!
# Two runs side by side

`Agree R S V x y` compares two fallible stateful programs: started in states related
by `R`, they fail with the same error, or return values related by `V` in states
related by `S`. The rules follow the syntax of programs. `Run.agree` does the same for
the runs of two transition systems of which only some steps are looked at: if steps
with equal inputs give equal outputs and keep the relation, and the others keep it
on their own, then equal inputs give equal outputs over whole runs.
-/

namespace Relational

open Transition

section Programs

universe u

variable {ε σ τ α β γ δ : Type u}

/-- The two programs ended with the same error, or with related values in related states. -/
inductive Ends (S : σ → τ → Prop) (V : α → β → Prop) :
    EStateM.Result ε σ α → EStateM.Result ε τ β → Prop
  | ok {a : α} {b : β} {s : σ} {t : τ} (h : S s t) (hvalue : V a b) : Ends S V (.ok a s) (.ok b t)
  | error {e : ε} {s : σ} {t : τ} : Ends S V (.error e s) (.error e t)

def Agree (R S : σ → τ → Prop) (V : α → β → Prop) (x : EStateM ε σ α) (y : EStateM ε τ β) :
    Prop :=
  ∀ s t, R s t → Ends S V (x s) (y t)

namespace Agree

variable {R S T : σ → τ → Prop} {V : α → β → Prop} {W : γ → δ → Prop} {x : EStateM ε σ α}
  {y : EStateM ε τ β}

theorem pure {a : α} {b : β} (h : V a b) :
    Agree R R V (Pure.pure a : EStateM ε σ α) (Pure.pure b) :=
  fun _ _ hst => .ok hst h

theorem throw (e : ε) : Agree R S V (MonadExcept.throw e : EStateM ε σ α) (MonadExcept.throw e) :=
  fun _ _ _ => .error

theorem bind {f : α → EStateM ε σ γ} {g : β → EStateM ε τ δ} (hx : Agree R S V x y)
    (hf : ∀ a b, V a b → Agree S T W (f a) (g b)) : Agree R T W (x >>= f) (y >>= g) := by
  intro s t hst
  change Ends T W (EStateM.bind x f s) (EStateM.bind y g t)
  unfold EStateM.bind
  cases hxs : x s with
  | error e s' =>
    cases hyt : y t with
    | error e' t' =>
      have hends := hx s t hst
      rw [hxs, hyt] at hends
      cases hends
      exact .error
    | ok b t' =>
      have hends := hx s t hst
      rw [hxs, hyt] at hends
      cases hends
  | ok a s' =>
    cases hyt : y t with
    | error e' t' =>
      have hends := hx s t hst
      rw [hxs, hyt] at hends
      cases hends
    | ok b t' =>
      have hends := hx s t hst
      rw [hxs, hyt] at hends
      cases hends with
      | ok h hvalue => exact hf a b hvalue s' t' h

theorem map {f : α → γ} {g : β → δ} (hf : ∀ a b, V a b → W (f a) (g b)) (hx : Agree R S V x y) :
    Agree R S W (f <$> x) (g <$> y) := by
  rw [map_eq_pure_bind, map_eq_pure_bind]
  exact hx.bind fun a b h => pure (hf a b h)

theorem mapM {f : γ → EStateM ε σ α} {g : γ → EStateM ε τ β} {cs : List γ}
    (hf : ∀ c ∈ cs, Agree R R V (f c) (g c)) :
    Agree R R (List.Forall₂ V) (cs.mapM f) (cs.mapM g) := by
  induction cs with
  | nil => exact pure .nil
  | cons c cs ih =>
    rw [List.mapM_cons, List.mapM_cons]
    have hrest := ih fun d hd => hf d (List.mem_cons_of_mem c hd)
    exact (hf c List.mem_cons_self).bind fun a b h => hrest.bind fun as bs hs => pure (.cons h hs)

end Agree
end Programs

section Runs

variable {σ τ α α' ι β : Type*} {step : σ → α → σ → Prop} {step' : τ → α' → τ → Prop}
  (R : σ → τ → Prop) (input : α → Option ι) (input' : α' → Option ι) (output : α → Option β)
  (output' : α' → Option β)

/-- Steps that show an input answer it alike, and the hidden ones show nothing; both keep `R`. -/
structure Matched (step : σ → α → σ → Prop) (step' : τ → α' → τ → Prop) : Prop where
  hidden : ∀ {m l m' t}, R m t → step m l m' → input l = none → output l = none ∧ R m' t
  hidden' : ∀ {m t l t'}, R m t → step' t l t' → input' l = none → output' l = none ∧ R m t'
  shown : ∀ {m l m' t l' t' i}, R m t → step m l m' → step' t l' t' → input l = some i →
    input' l' = some i → output l = output' l' ∧ R m' t'

variable {R input input' output output'} {s s' : σ} {t t' : τ} {ls : List α} {ls' : List α'}

theorem Matched.agree_nil (h : Matched R input input' output output' step step') (hst : R s t)
    (hrun' : Run step' t ls' t') (hnone : ls'.filterMap input' = []) :
    ls'.filterMap output' = [] ∧ R s t' := by
  induction hrun' with
  | nil => exact ⟨rfl, hst⟩
  | snoc _ hstep ih =>
    rw [List.filterMap_append, List.append_eq_nil_iff] at hnone
    obtain ⟨houtputs, hrelated⟩ := ih hnone.1
    have hlast := List.filterMap_eq_nil_iff.mp hnone.2 _ List.mem_cons_self
    obtain ⟨houtput, hrelated'⟩ := h.hidden' hrelated hstep hlast
    rw [List.filterMap_append, houtputs, List.filterMap_cons_none houtput]
    exact ⟨rfl, hrelated'⟩

/-- A run with a last input, cut at the step that shows it. -/
theorem exists_last_input {ι : Type*} {input : α → Option ι} {is : List ι} {i : ι}
    (hrun : Run step s ls s') (hinputs : ls.filterMap input = is ++ [i]) :
    ∃ ks k us m m', ls = ks ++ k :: us ∧ Run step s ks m ∧ ks.filterMap input = is ∧
      step m k m' ∧ input k = some i ∧ Run step m' us s' ∧ us.filterMap input = [] := by
  induction hrun with
  | nil => simp at hinputs
  | @snoc ls m l s' hrun hstep ih =>
    rw [List.filterMap_append] at hinputs
    cases hshown : input l with
    | none =>
      rw [List.filterMap_cons_none hshown, List.filterMap_nil, List.append_nil] at hinputs
      obtain ⟨ks, k, us, p, q, rfl, hbefore, his, hat, hi, hafter, hnone⟩ := ih hinputs
      refine ⟨ks, k, us ++ [l], p, q, by simp, hbefore, his, hat, hi, hafter.snoc hstep, ?_⟩
      rw [List.filterMap_append, hnone, List.filterMap_cons_none hshown]
      rfl
    | some j =>
      rw [List.filterMap_cons_some hshown, List.filterMap_nil] at hinputs
      obtain ⟨his, hlast⟩ := List.append_inj' hinputs rfl
      obtain rfl : j = i := by simpa using hlast
      exact ⟨ls, l, [], m, s', rfl, hrun, his, hstep, hshown, .nil, rfl⟩

/-- Runs with the same inputs give the same outputs and end in related states. -/
theorem Matched.agree (h : Matched R input input' output output' step step') (hst : R s t)
    (hrun : Run step s ls s') (hrun' : Run step' t ls' t')
    (hinputs : ls.filterMap input = ls'.filterMap input') :
    ls.filterMap output = ls'.filterMap output' ∧ R s' t' := by
  induction hrun generalizing ls' t' with
  | nil =>
    obtain ⟨houtputs, hrelated⟩ := h.agree_nil hst hrun' hinputs.symm
    exact ⟨houtputs.symm, hrelated⟩
  | @snoc ls m l s' hrun hstep ih =>
    rw [List.filterMap_append] at hinputs
    cases hshown : input l with
    | none =>
      rw [List.filterMap_cons_none hshown, List.filterMap_nil, List.append_nil] at hinputs
      obtain ⟨houtputs, hrelated⟩ := ih hrun' hinputs
      obtain ⟨houtput, hrelated'⟩ := h.hidden hrelated hstep hshown
      rw [List.filterMap_append, houtputs, List.filterMap_cons_none houtput, List.filterMap_nil,
        List.append_nil]
      exact ⟨rfl, hrelated'⟩
    | some i =>
      rw [List.filterMap_cons_some hshown, List.filterMap_nil] at hinputs
      obtain ⟨ks, k, us, p, q, rfl, hbefore, his, hat, hi, hafter, hnone⟩ :=
        exists_last_input hrun' hinputs.symm
      obtain ⟨houtputs, hrelated⟩ := ih hbefore his.symm
      obtain ⟨houtput, hrelated'⟩ := h.shown hrelated hstep hat hshown hi
      obtain ⟨hsilent, hrelated''⟩ := h.agree_nil hrelated' hafter hnone
      refine ⟨?_, hrelated''⟩
      rw [List.filterMap_append, List.filterMap_append, houtputs, List.filterMap_cons,
        List.filterMap_cons, hsilent, houtput]
      rfl

end Runs
end Relational
