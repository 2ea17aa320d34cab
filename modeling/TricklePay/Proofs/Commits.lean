import TricklePay.Proofs.Observation

/-!
# Committed calls

Views, failed calls, third-party transfers and the tokens' own bookkeeping can be
left out of a run, or put into it, without a trace in the rest: the clock readings
and the calls that committed, in their order, decide every receipt of theirs and
every record.
-/

namespace TricklePay

open Checked Transition Relational

variable {Address : Type}

theorem StreamOp.call_inj {op op' : StreamOp} {id id' : UInt64}
    (h : (op.call id : Call Address) = op'.call id') : op = op' ∧ id = id' := by
  cases op <;> cases op' <;> cases h <;> exact ⟨rfl, rfl⟩

theorem Opening.call_ne_op (o : Opening Address) (op : StreamOp) (id : UInt64) :
    o.call ≠ op.call id := by
  cases op <;> exact fun h => by cases h

/-- What a run leaves in the store: time passing, and the calls that changed it. -/
inductive Commit (Address : Type)
  | clock (timestamp : UInt64)
  | call (call : Call Address)

/-- Failed calls, views and third-party transfers commit nothing. -/
def Label.commit : Label Address → Option (Commit Address)
  | .clock timestamp _ => some (.clock timestamp)
  | .call _ entry receipt =>
    match entry.isView, receipt.result with
    | false, .ok _ => some (.call entry)
    | _, _ => none
  | .deposit .. | .bookkeeping .. => none

/-- The receipt of a committed call. -/
def Label.committed (l : Label Address) : Option (Receipt Address) :=
  match l.commit with
  | some (.call _) => l.receipt
  | _ => none

theorem Label.of_call_commit {l : Label Address} {call : Call Address}
    (h : l.commit = some (.call call)) :
    ∃ env receipt response, l = .call env call receipt ∧ call.isView = false ∧
      receipt.result = .ok response ∧ l.committed = some receipt := by
  cases l with
  | clock => cases h
  | call env entry receipt =>
    cases hview : entry.isView with
    | true => simp [commit, hview] at h
    | false =>
      cases hresult : receipt.result with
      | error => simp [commit, hview, hresult] at h
      | ok response =>
        have hentry : entry = call := by simpa [commit, hview, hresult] using h
        subst hentry
        exact ⟨env, receipt, response, rfl, hview, hresult, by rw [committed, h]; rfl⟩
  | deposit => cases h
  | bookkeeping => cases h

/-- The receipt of a committed call and the records it leaves, from the records and
the clock alone. -/
inductive Commits (w : World Address) (call : Call Address) (receipt : Receipt Address)
    (w' : World Address) : Prop
  | opened (o : Opening Address) (next : UInt64) (hcall : call = o.call)
      (hnext : next.toNat = (w.streamCount.getD 0).toNat + 1)
      (hreceipt : receipt = ⟨w.timestamp, .ok (.id (w.streamCount.getD 0)),
        [⟨o.token, o.sender, w.contractAddress, o.totalAmount⟩],
        [.created (o.created (w.streamCount.getD 0))]⟩)
      (hworld : w'.Alike { w with
        streams := Function.update w.streams (w.streamCount.getD 0) (some o.stream)
        streamCount := some next })
  | settled (op : StreamOp) (id : UInt64) (stream : Stream Address) (z : Settled Address)
      (hcall : call = op.call id) (hstream : w.streams id = some stream)
      (hsettle : op.settle w.timestamp id stream = .ok z)
      (hreceipt : receipt = ⟨w.timestamp, .ok (.amount z.amount),
        [⟨stream.token, w.contractAddress, op.party stream, z.amount⟩], [z.event]⟩)
      (hworld : w'.Alike { w with streams := Function.update w.streams id (some z.stream) })

/-- Alike ledgers commit a call alike. -/
theorem Commits.alike {w w' v v' : World Address} {call : Call Address} {r r' : Receipt Address}
    (h : w.Alike v) (hw : Commits w call r w') (hv : Commits v call r' v') :
    r = r' ∧ w'.Alike v' := by
  cases hw with
  | opened o next hcall hnext hreceipt hworld =>
    cases hv with
    | opened o' next' hcall' hnext' hreceipt' hworld' =>
      obtain rfl : o = o' := Opening.call_inj (hcall.symm.trans hcall')
      rw [← h.streamCount, ← hnext] at hnext'
      obtain rfl : next' = next := UInt64.toNat_inj.mp hnext'
      subst hreceipt hreceipt'
      rw [h.timestamp, h.streamCount, h.contractAddress]
      refine ⟨rfl, hworld.trans (.trans ?_ hworld'.symm)⟩
      exact ⟨h.contractAddress, h.timestamp, by rw [h.streams, h.streamCount], rfl⟩
    | settled op id _ _ hcall' _ _ _ _ =>
      exact absurd (hcall.symm.trans hcall') (o.call_ne_op op id)
  | settled op id stream z hcall hstream hsettle hreceipt hworld =>
    cases hv with
    | opened o _ hcall' _ _ _ => exact absurd (hcall'.symm.trans hcall) (o.call_ne_op op id)
    | settled op' id' stream' z' hcall' hstream' hsettle' hreceipt' hworld' =>
      obtain ⟨rfl, rfl⟩ := StreamOp.call_inj (hcall.symm.trans hcall')
      rw [← h.streams, hstream] at hstream'
      cases hstream'
      rw [← h.timestamp, hsettle] at hsettle'
      cases hsettle'
      subst hreceipt hreceipt'
      rw [h.timestamp, h.contractAddress]
      refine ⟨rfl, hworld.trans (.trans ?_ hworld'.symm)⟩
      exact ⟨h.contractAddress, h.timestamp, by rw [h.streams], h.streamCount⟩

variable [DecidableEq Address]

section Steps

variable {w w' : World Address} {l : Label Address}

theorem Step.of_no_commit (hw : w.Sound) (h : Step w l w') (hcommit : l.commit = none) :
    w.Alike w' := by
  cases h with
  | clock => cases hcommit
  | call hinvoke =>
    have htime := World.invoke_timestamp hinvoke
    cases (Step.call hinvoke).change hw with
    | idle _ _ _ hcontract _ hstreams hcount _ =>
      exact ⟨hcontract.symm, htime.symm, hstreams.symm, hcount.symm⟩
    | opened env o next book hlabel _ _ _ _ =>
      rw [hlabel] at hcommit
      cases hcommit
    | settled env op id stream z book hlabel _ _ _ _ =>
      rw [hlabel] at hcommit
      cases op <;> cases hcommit
  | credited => exact ⟨rfl, rfl, rfl, rfl⟩
  | refused => exact .refl w
  | bookkeeping => exact ⟨rfl, rfl, rfl, rfl⟩

theorem Step.of_clock_commit (h : Step w l w') {timestamp : UInt64}
    (hcommit : l.commit = some (.clock timestamp)) :
    ∃ sequence, w' = { w with timestamp, sequence } := by
  cases h with
  | clock =>
    cases hcommit
    exact ⟨_, rfl⟩
  | @call _ env entry receipt hinvoke =>
    cases hview : entry.isView <;> cases hresult : receipt.result <;>
      simp [Label.commit, hview, hresult] at hcommit
  | credited => cases hcommit
  | refused => cases hcommit
  | bookkeeping => cases hcommit

theorem Step.of_call_commit (hw : w.Sound) (h : Step w l w') {call : Call Address}
    (hcommit : l.commit = some (.call call)) :
    ∃ receipt, l.committed = some receipt ∧ Commits w call receipt w' := by
  obtain ⟨env, receipt, response, rfl, hview, hresult, hcommitted⟩ := l.of_call_commit hcommit
  refine ⟨receipt, hcommitted, ?_⟩
  cases h.change hw with
  | idle hrefused _ _ _ _ _ _ _ =>
    obtain ⟨failure, hfailure⟩ := hrefused hview
    rw [hresult] at hfailure
    cases hfailure
  | opened env o next book hlabel _ hnext _ hworld =>
    cases hlabel
    refine .opened o next rfl hnext rfl ?_
    rw [hworld]
    exact ⟨rfl, rfl, rfl, rfl⟩
  | settled env op id stream z book hlabel hstream houtcome _ hworld =>
    cases hlabel
    refine .settled op id stream z rfl hstream (houtcome.settle_eq (hw.records id stream hstream))
      rfl ?_
    rw [hworld]
    exact ⟨rfl, rfl, rfl, rfl⟩

end Steps

theorem sound_alike_matched :
    Matched (fun w v : World Address => w.Sound ∧ w.Alike v) Label.commit Label.commit
      Label.committed Label.committed Step Step where
  hidden := by
    rintro m l m' t ⟨hm, h⟩ hstep hcommit
    refine ⟨by rw [Label.committed, hcommit], hstep.sound hm, ?_⟩
    exact (hstep.of_no_commit hm hcommit).symm.trans h
  hidden' := by
    rintro m t l t' ⟨hm, h⟩ hstep hcommit
    refine ⟨by rw [Label.committed, hcommit], hm, ?_⟩
    exact h.trans (hstep.of_no_commit (h.sound hm) hcommit)
  shown := by
    rintro m l m' t l' t' i ⟨hm, h⟩ hstep hstep' hcommit hcommit'
    have hm' := hstep.sound hm
    cases i with
    | clock timestamp =>
      rw [Label.committed, Label.committed, hcommit, hcommit']
      obtain ⟨sequence, rfl⟩ := hstep.of_clock_commit hcommit
      obtain ⟨sequence', rfl⟩ := hstep'.of_clock_commit hcommit'
      exact ⟨rfl, hm', h.contractAddress, rfl, h.streams, h.streamCount⟩
    | call call =>
      obtain ⟨r, hreceipt, hcommits⟩ := hstep.of_call_commit hm hcommit
      obtain ⟨r', hreceipt', hcommits'⟩ := hstep'.of_call_commit (h.sound hm) hcommit'
      obtain ⟨rfl, halike⟩ := hcommits.alike h hcommits'
      rw [hreceipt, hreceipt']
      exact ⟨rfl, hm', halike⟩

/-- Two runs in which the clock reads the same and the same calls commit, in the same
order, give these calls the same receipts and leave the same records, whatever views,
failed calls, third-party transfers and token bookkeeping stand in between. -/
theorem committed_calls_decide {w v w' v' : World Address} (h : Reachable w) (halike : w.Alike v)
    {ls ls' : List (Label Address)} (hrun : Run Step w ls w') (hrun' : Run Step v ls' v')
    (hcommits : ls.filterMap Label.commit = ls'.filterMap Label.commit) :
    ls.filterMap Label.committed = ls'.filterMap Label.committed ∧ w'.Alike v' := by
  obtain ⟨hreceipts, _, hleft⟩ := sound_alike_matched.agree ⟨h.sound, halike⟩ hrun hrun' hcommits
  exact ⟨hreceipts, hleft⟩

theorem committed_calls_decide_busy :
    Sample.drained.Alike (Sample.toppedLater.invoke Sample.stranger (.withdraw 0)).2 :=
  (committed_calls_decide Sample.opened_reachable (.refl _) Sample.drain_run Sample.busy_run rfl).2

end TricklePay
