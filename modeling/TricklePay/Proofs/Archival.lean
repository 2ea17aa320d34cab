import TricklePay.Proofs.Renewals
import TricklePay.Proofs.Observation

/-!
# Entries that are archived

The network archives an entry whose life has run out: a call that needs it is refused
by the host, before the contract is asked, until somebody restores the entry. The
contract cannot tell. What is done on such a ledger is what is done on one that keeps
every entry, with pauses in between.
-/

namespace TricklePay

open Checked Transition

variable {Address : Type}

/-- The same ledger with other entry lives. -/
def World.relive (w : World Address) (liveUntil : DataKey → ℕ) : World Address :=
  { w with liveUntil }

section Relive

variable (w : World Address) (liveUntil : DataKey → ℕ)

@[simp] theorem World.relive_balance : (w.relive liveUntil).balance = w.balance := rfl

@[simp] theorem World.relive_contractAddress :
    (w.relive liveUntil).contractAddress = w.contractAddress := rfl

end Relive

/-! ### A host that archives -/

/-- The life of the entry has run out. -/
def World.Archived (w : World Address) (key : DataKey) : Prop :=
  w.Has key ∧ w.liveUntil key < w.sequence

instance (w : World Address) (key : DataKey) : Decidable (w.Archived key) :=
  inferInstanceAs (Decidable (_ ∧ _))

def World.setLife (w : World Address) (key : DataKey) (life : ℕ) : World Address :=
  w.relive (Function.update w.liveUntil key (w.sequence + life))

theorem World.Archived.of_setLife {w : World Address} {key k : DataKey} {life : ℕ}
    (h : (w.setLife key life).Archived k) : k ≠ key ∧ w.Archived k := by
  obtain ⟨hhas, hout⟩ := h
  have hne : k ≠ key := by
    rintro rfl
    change Function.update w.liveUntil k (w.sequence + life) k < w.sequence at hout
    rw [Function.update_self] at hout
    omega
  change Function.update w.liveUntil key (w.sequence + life) k < w.sequence at hout
  rw [Function.update_of_ne hne] at hout
  exact ⟨hne, (World.has_of_streams_eq rfl).mp hhas, hout⟩

/-- The entries that the code of an entry point may read or write, where they exist. -/
def Call.entries : Call Address → List DataKey
  | .createStream .. | .streamCount => [.streamCount]
  | .maxAmount => []
  | entry => entry.ids.map .stream

/-- What happens on a ledger that archives: a step of the ordinary host, a call that is
refused for want of an entry, and an entry that somebody restores or extends. -/
inductive ArchiveLabel (Address : Type)
  | step (l : Label Address)
  | refused (call : Call Address) (key : DataKey)
  | restored (key : DataKey) (life : ℕ)
  | extended (key : DataKey) (life : ℕ)

/-- What the host needs for a step, if it needs `needs call` for a call. -/
def Label.needs (needs : Call Address → List DataKey) : Label Address → List DataKey
  | .call _ entry _ => needs entry
  | _ => []

/-- What is done on the ledger, the archive apart. -/
def ArchiveLabel.performed : ArchiveLabel Address → Option (Label Address)
  | .step l => some l
  | _ => none

/-- What happens on the ledger, restored entries apart. -/
def ArchiveLabel.unrestored : ArchiveLabel Address → Option (ArchiveLabel Address)
  | .restored .. => none
  | e => some e

theorem performed_unrestored (entries : List (ArchiveLabel Address)) :
    (entries.filterMap ArchiveLabel.unrestored).filterMap ArchiveLabel.performed =
      entries.filterMap ArchiveLabel.performed := by
  rw [List.filterMap_filterMap]
  congr 1
  funext e
  cases e <;> rfl

theorem performed_steps (ls : List (Label Address)) :
    (ls.map ArchiveLabel.step).filterMap ArchiveLabel.performed = ls := by
  rw [List.filterMap_map]
  exact List.filterMap_some

variable [DecidableEq Address]

/-- Which entries the host wants live before it runs a call is left open: it may load
the instance with every call, or only what the code of the entry point asks for. -/
inductive ArchiveStep (needs : Call Address → List DataKey) :
    World Address → ArchiveLabel Address → World Address → Prop
  | step {w w' : World Address} {l : Label Address}
      (hlive : ∀ key ∈ l.needs needs, ¬ w.Archived key) (hstep : Step w l w') :
      ArchiveStep needs w (.step l) w'
  | refused {w : World Address} {call : Call Address} {key : DataKey} (hneeds : key ∈ needs call)
      (harchived : w.Archived key) : ArchiveStep needs w (.refused call key) w
  | restored {w : World Address} {key : DataKey} {life : ℕ} (harchived : w.Archived key) :
      ArchiveStep needs w (.restored key life) (w.setLife key life)
  | extended {w : World Address} {key : DataKey} {life : ℕ} (hhas : w.Has key)
      (hlive : ¬ w.Archived key) (hlonger : w.liveUntil key ≤ w.sequence + life) :
      ArchiveStep needs w (.extended key life) (w.setLife key life)

/-! ### Calls do not see lives -/

section Relive

variable {w w' : World Address} {env : Env Address} {call : Call Address}
  {receipt : Receipt Address}

theorem Settled.paid_relive {z : Settled Address} {id : UInt64} {token target : Address}
    (h : z.paid env id token target w = (receipt, w')) (lives : DataKey → ℕ) :
    ∃ lives', z.paid env id token target (w.relive lives) = (receipt, w'.relive lives') := by
  unfold Settled.paid at h ⊢
  dsimp only [World.relive_balance, World.relive_contractAddress] at h ⊢
  split_ifs at h ⊢
  · cases hbook : env.token token (w.balance token) w.contractAddress target z.amount with
    | none =>
      rw [hbook] at h
      cases h
      exact ⟨lives, rfl⟩
    | some book =>
      rw [hbook] at h
      cases h
      exact ⟨(((w.relive lives).refreshed env id).stored env id z.stream).liveUntil, rfl⟩
  · cases h
    exact ⟨(((w.relive lives).refreshed env id).stored env id z.stream).liveUntil, rfl⟩

theorem World.invoke_op_relive (op : StreamOp) {id : UInt64}
    (h : w.invoke env (op.call id) = (receipt, w')) (lives : DataKey → ℕ) :
    ∃ lives', (w.relive lives).invoke env (op.call id) = (receipt, w'.relive lives') := by
  have hstreams : (w.relive lives).streams id = w.streams id := rfl
  rcases World.invoke_op_alike op hstreams rfl rfl with
    ⟨failure, hw, hrelived⟩ | ⟨stream, z, _, hw, hrelived⟩
  · rw [hw] at h
    cases h
    exact ⟨lives, hrelived⟩
  · rw [hw] at h
    rw [hrelived]
    exact Settled.paid_relive h lives

theorem World.invoke_create_relive {o : Opening Address}
    (h : w.invoke env o.call = (receipt, w')) (lives : DataKey → ℕ) :
    ∃ lives', (w.relive lives).invoke env o.call = (receipt, w'.relive lives') := by
  have hcontract : (w.relive lives).contractAddress = w.contractAddress := rfl
  rcases World.invoke_create_alike o hcontract rfl rfl rfl with
    ⟨failure, hw, hrelived⟩ | ⟨next, hw, hrelived⟩
  · rw [hw] at h
    cases h
    exact ⟨lives, hrelived⟩
  · rw [hw] at h
    rw [hrelived]
    unfold Opening.funded at h ⊢
    rw [World.relive_balance, World.relive_contractAddress]
    cases hbook : env.token o.token (w.balance o.token) o.sender w.contractAddress
        o.totalAmount with
    | none =>
      rw [hbook] at h
      cases h
      exact ⟨lives, rfl⟩
    | some book =>
      rw [hbook] at h
      cases h
      exact ⟨((w.relive lives).opened env o book (w.streamCount.getD 0) next).liveUntil, rfl⟩

theorem World.view_relives (hview : call.isView = true) (h : w.invoke env call = (receipt, w')) :
    ∃ lives, w' = w.relive lives := by
  have hunchanged : w = w.relive w.liveUntil := rfl
  cases World.view_effect hview h with
  | rejected _ _ hworld => exact ⟨w.liveUntil, hworld.trans hunchanged⟩
  | viewed _ liveUntil _ _ hworld => exact ⟨liveUntil, hworld⟩
  | opened o _ _ hcall _ _ _ _ _ _ =>
    rw [hcall] at hview
    cases hview
  | settled op _ _ _ hcall _ _ _ _ =>
    rw [hcall] at hview
    cases op <;> cases hview

theorem World.invoke_view_relive (hview : call.isView = true)
    (h : w.invoke env call = (receipt, w')) (lives : DataKey → ℕ) :
    ∃ lives', (w.relive lives).invoke env call = (receipt, w'.relive lives') := by
  have halike : w.AlikeOn (fun _ => True) (w.relive lives) := ⟨rfl, rfl, fun _ _ => rfl, rfl⟩
  rcases hinvoke : (w.relive lives).invoke env call with ⟨receipt', v⟩
  obtain ⟨rfl, _⟩ := halike.invoke_view hview (fun _ _ => trivial) h hinvoke
  obtain ⟨left, hleft⟩ := World.view_relives hview h
  obtain ⟨left', hleft'⟩ := World.view_relives hview hinvoke
  refine ⟨left', congrArg (Prod.mk receipt) ?_⟩
  rw [hleft', hleft]
  rfl

/-- A call is answered alike whatever the lives of entries. -/
theorem World.invoke_relive (h : w.invoke env call = (receipt, w')) (lives : DataKey → ℕ) :
    ∃ lives', (w.relive lives).invoke env call = (receipt, w'.relive lives') := by
  cases call with
  | createStream sender recipient token totalAmount startTime endTime cliffTime =>
    exact invoke_create_relive (o := ⟨sender, recipient, token, totalAmount, startTime, endTime,
      cliffTime⟩) h lives
  | withdraw id => exact invoke_op_relive .withdraw h lives
  | withdrawAmount id amount => exact invoke_op_relive (.withdrawAmount amount) h lives
  | cancel id => exact invoke_op_relive .cancel h lives
  | _ => exact invoke_view_relive rfl h lives

theorem Step.relive {l : Label Address} (h : Step w l w') (lives : DataKey → ℕ) :
    ∃ lives', Step (w.relive lives) l (w'.relive lives') := by
  cases h with
  | clock htime hsequence => exact ⟨lives, .clock htime hsequence⟩
  | call hinvoke =>
    obtain ⟨lives', hinvoke'⟩ := World.invoke_relive hinvoke lives
    exact ⟨lives', .call hinvoke'⟩
  | credited hsource hamount hbook => exact ⟨lives, .credited hsource hamount hbook⟩
  | refused hbook => exact ⟨lives, .refused hbook⟩
  | bookkeeping => exact ⟨lives, .bookkeeping⟩

end Relive

/-! ### Nothing is lost by archiving -/

section Pauses

variable {needs : Call Address → List DataKey}

/-- Whatever is needed can be restored first. -/
theorem exists_restored (needs : Call Address → List DataKey) (keys : List DataKey)
    (w : World Address) : ∃ restores lives, Run (ArchiveStep needs) w restores (w.relive lives) ∧
      restores.filterMap ArchiveLabel.unrestored = [] ∧
      ∀ key ∈ keys, ¬ (w.relive lives).Archived key := by
  induction keys with
  | nil => exact ⟨[], w.liveUntil, .nil, rfl, fun _ h => absurd h List.not_mem_nil⟩
  | cons key keys ih =>
    obtain ⟨restores, lives, hrun, hnone, hlive⟩ := ih
    by_cases harchived : (w.relive lives).Archived key
    · have hrestore : ArchiveStep needs (w.relive lives) (.restored key 0)
          ((w.relive lives).setLife key 0) := .restored harchived
      refine ⟨restores ++ [.restored key 0], _, hrun.snoc hrestore, ?_, ?_⟩
      · rw [List.filterMap_append, hnone]
        rfl
      · intro k hk (hout : ((w.relive lives).setLife key 0).Archived k)
        obtain ⟨hne, hbefore⟩ := hout.of_setLife
        rcases List.mem_cons.mp hk with rfl | hmem
        · exact hne rfl
        · exact hlive k hmem hbefore
    · exact ⟨restores, lives, hrun, hnone, List.forall_mem_cons.mpr ⟨harchived, hlive⟩⟩

/-- A step on a ledger that archives is a step of the ordinary host or leaves everything
but lives alone. -/
theorem ArchiveStep.plain {w w' : World Address} {e : ArchiveLabel Address}
    (h : ArchiveStep needs w e w') (lives : DataKey → ℕ) : ∃ ls lives',
      Run Step (w.relive lives) ls (w'.relive lives') ∧ ls.filterMap some = e.performed.toList := by
  cases h with
  | step _ hstep =>
    obtain ⟨lives', hstep'⟩ := hstep.relive lives
    exact ⟨[_], lives', .single hstep', rfl⟩
  | refused => exact ⟨[], lives, .nil, rfl⟩
  | restored => exact ⟨[], lives, .nil, rfl⟩
  | extended => exact ⟨[], lives, .nil, rfl⟩

/-- A step of the ordinary host can be taken where entries have been archived, once
those that it needs have been restored. -/
theorem Step.archiving {w w' : World Address} {l : Label Address} (h : Step w l w')
    (lives : DataKey → ℕ) : ∃ entries lives',
      Run (ArchiveStep needs) (w.relive lives) entries (w'.relive lives') ∧
        entries.filterMap ArchiveLabel.unrestored = [.step l] := by
  obtain ⟨restores, restored, hrestores, hnone, hlive⟩ :=
    exists_restored needs (l.needs needs) (w.relive lives)
  obtain ⟨lives', hstep⟩ := h.relive restored
  refine ⟨restores ++ [.step l], lives', hrestores.snoc (.step hlive hstep), ?_⟩
  rw [List.filterMap_append, hnone]
  rfl

/-- Archival only pauses. What can be done from a ledger whose host archives entries is
exactly what can be done with an ordinary host: the same steps, in which the same calls
get the same receipts, with the same ledger at the end but for the lives of entries.
Calls that are refused, and entries that are restored or extended, only stand in
between; and to restore entries is all it takes. -/
theorem archival_only_pauses (needs : Call Address → List DataKey) (w z : World Address)
    (ls : List (Label Address)) :
    ((∃ entries lives, Run (ArchiveStep needs) w entries (z.relive lives) ∧
        entries.filterMap ArchiveLabel.performed = ls) ↔
      ∃ lives, Run Step w ls (z.relive lives)) ∧
    ((∃ lives, Run Step w ls (z.relive lives)) ↔
      ∃ entries lives, Run (ArchiveStep needs) w entries (z.relive lives) ∧
        entries.filterMap ArchiveLabel.unrestored = ls.map .step) := by
  let alike : World Address → World Address → Prop := fun m t => ∃ lives, t = m.relive lives
  have hplain : ∀ m e m' t, alike m t → ArchiveStep needs m e m' → ∃ ks t',
      Run Step t ks t' ∧ ks.filterMap some = e.performed.toList ∧ alike m' t' := by
    rintro m e m' _ ⟨given, rfl⟩ hstep
    obtain ⟨ks, lives, hks, hshown⟩ := hstep.plain given
    exact ⟨ks, _, hks, hshown, lives, rfl⟩
  have harchiving : ∀ m l m' t, alike m t → Step m l m' → ∃ ks t',
      Run (ArchiveStep needs) t ks t' ∧
        ks.filterMap ArchiveLabel.unrestored = (some (.step l)).toList ∧ alike m' t' := by
    rintro m l m' _ ⟨given, rfl⟩ hstep
    obtain ⟨ks, lives, hks, hshown⟩ := hstep.archiving given
    exact ⟨ks, _, hks, hshown, lives, rfl⟩
  have hdone : (∃ entries lives, Run (ArchiveStep needs) w entries (z.relive lives) ∧
      entries.filterMap ArchiveLabel.performed = ls) → ∃ lives, Run Step w ls (z.relive lives) := by
    rintro ⟨entries, lives, hrun, hperformed⟩
    obtain ⟨ks, _, hks, hshown, lives', rfl⟩ :=
      hrun.simulate_shown alike ArchiveLabel.performed some hplain ⟨w.liveUntil, rfl⟩
    rw [List.filterMap_some, hperformed] at hshown
    exact ⟨lives', hshown ▸ hks⟩
  have hredone : (∃ lives, Run Step w ls (z.relive lives)) →
      ∃ entries lives, Run (ArchiveStep needs) w entries (z.relive lives) ∧
        entries.filterMap ArchiveLabel.unrestored = ls.map .step := by
    rintro ⟨lives, hrun⟩
    obtain ⟨entries, _, hentries, hshown, lives', rfl⟩ :=
      hrun.simulate_shown alike (fun l => some (.step l)) ArchiveLabel.unrestored harchiving
        ⟨w.liveUntil, rfl⟩
    rw [List.filterMap_eq_map'] at hshown
    exact ⟨entries, lives', hentries, hshown⟩
  have hkept : (∃ entries lives, Run (ArchiveStep needs) w entries (z.relive lives) ∧
      entries.filterMap ArchiveLabel.unrestored = ls.map .step) →
      ∃ entries lives, Run (ArchiveStep needs) w entries (z.relive lives) ∧
        entries.filterMap ArchiveLabel.performed = ls := by
    rintro ⟨entries, lives, hrun, hsteps⟩
    refine ⟨entries, lives, hrun, ?_⟩
    rw [← performed_unrestored, hsteps, performed_steps]
  exact ⟨⟨hdone, fun h => hkept (hredone h)⟩, ⟨hredone, fun h => hdone (hkept h)⟩⟩

end Pauses

end TricklePay
