import TricklePay.Proofs.Accounts

/-!
# The sequential reading of a log

A log can be read as a run of the ordinary host in which every token was willing
and the calls came one after the other, in the order of their writes. `Sequential`
says that such a run has the same records and the same requests. Ordinary steps
keep it, and so does each write of a call on its own, wherever its token call is.
-/

namespace TricklePay

open Checked Transition

variable {Address : Type}

/-- The same as far as the contract can tell: balances and entry lives apart. -/
structure World.Alike (g w : World Address) : Prop where
  contractAddress : g.contractAddress = w.contractAddress
  timestamp : g.timestamp = w.timestamp
  streams : g.streams = w.streams
  streamCount : g.streamCount = w.streamCount

theorem World.Alike.refl (w : World Address) : w.Alike w := ⟨rfl, rfl, rfl, rfl⟩

theorem World.Alike.trans {g w w' : World Address} (h : g.Alike w) (h' : w.Alike w') :
    g.Alike w' :=
  ⟨h.contractAddress.trans h'.contractAddress, h.timestamp.trans h'.timestamp,
    h.streams.trans h'.streams, h.streamCount.trans h'.streamCount⟩

theorem World.Alike.sound {g w : World Address} (h : g.Alike w) (hg : g.Sound) : w.Sound where
  records := by
    rw [← h.streams, ← h.timestamp]
    exact hg.records
  sender_ne := by
    rw [← h.streams, ← h.contractAddress]
    exact hg.sender_ne
  recipient_ne := by
    rw [← h.streams, ← h.contractAddress]
    exact hg.recipient_ne
  token_ne := by
    rw [← h.streams, ← h.contractAddress]
    exact hg.token_ne
  ids := by
    rw [← h.streams, ← h.streamCount]
    exact hg.ids

/-- The same environment with everyone's authorization and tokens that are willing. -/
def Env.willing (env : Env Address) : Env Address :=
  { env with
    authorized := fun _ => true
    token := fun _ book _ _ _ => some book }

/-- Two logs that put the same questions to the same tokens, stream by stream. -/
structure SameRequests (ls ls' : List (Label Address)) : Prop where
  funding : ∀ id, ls.flatMap (Label.funding id) = ls'.flatMap (Label.funding id)
  payouts : ∀ id, ls.flatMap (Label.payouts id) = ls'.flatMap (Label.payouts id)
  refunds : ∀ id, ls.flatMap (Label.refunds id) = ls'.flatMap (Label.refunds id)

namespace SameRequests

variable {ls ls' : List (Label Address)} {l : Label Address}

theorem skip (h : SameRequests ls ls') (hfunding : ∀ id, l.funding id = [])
    (hpayouts : ∀ id, l.payouts id = []) (hrefunds : ∀ id, l.refunds id = []) :
    SameRequests (ls ++ [l]) ls' where
  funding := fun id => by simp [h.funding id, hfunding id]
  payouts := fun id => by simp [h.payouts id, hpayouts id]
  refunds := fun id => by simp [h.refunds id, hrefunds id]

theorem clock (h : SameRequests ls ls') (timestamp : UInt64) (sequence : ℕ) :
    SameRequests ls (ls' ++ [.clock timestamp sequence]) where
  funding := fun id => by simp [h.funding id, Label.funding]
  payouts := fun id => by simp [h.payouts id, Label.payouts]
  refunds := fun id => by simp [h.refunds id, Label.refunds]

/-- Who was asked is all that counts: environments and events may differ. -/
theorem snoc (h : SameRequests ls ls') {env env' : Env Address} {call : Call Address}
    {receipt receipt' : Receipt Address} (hresult : receipt.result = receipt'.result)
    (htransfers : receipt.transfers = receipt'.transfers) :
    SameRequests (ls ++ [.call env call receipt]) (ls' ++ [.call env' call receipt']) := by
  have hentry : ∀ id, (Label.call env call receipt).funding id =
      (Label.call env' call receipt').funding id ∧
        (Label.call env call receipt).payouts id = (Label.call env' call receipt').payouts id ∧
        (Label.call env call receipt).refunds id = (Label.call env' call receipt').refunds id := by
    intro id
    obtain ⟨time, result, transfers, events⟩ := receipt
    obtain ⟨time', result', transfers', events'⟩ := receipt'
    cases hresult
    cases htransfers
    cases call with
    | createStream => cases result with
      | error failure => exact ⟨rfl, rfl, rfl⟩
      | ok response => cases response <;> exact ⟨rfl, rfl, rfl⟩
    | _ => exact ⟨rfl, rfl, rfl⟩
  refine ⟨?_, ?_, ?_⟩ <;> intro id <;> obtain ⟨hfunding, hpayouts, hrefunds⟩ := hentry id
  · simp [h.funding id, hfunding]
  · simp [h.payouts id, hpayouts]
  · simp [h.refunds id, hrefunds]

theorem accounted (h : SameRequests ls ls') {this : Address} {id : UInt64}
    {record : Option (Stream Address)} (haccounted : Accounted this id ls' record) :
    Accounted this id ls record := by
  cases haccounted with
  | absent hfunding hpayouts hrefunds =>
    exact .absent ((h.funding id).trans hfunding) ((h.payouts id).trans hpayouts)
      ((h.refunds id).trans hrefunds)
  | stored hfunding hpayouts hrefunds hreceived hlive honce hfunded =>
    rw [received, ← h.payouts id] at hreceived
    rw [funded, refunded, ← h.funding id, ← h.refunds id] at hfunded
    rw [← h.funding id] at hfunding
    rw [← h.payouts id] at hpayouts
    rw [← h.refunds id] at hrefunds hlive honce
    exact .stored hfunding hpayouts hrefunds hreceived hlive honce hfunded

end SameRequests

variable [DecidableEq Address]

/-- Some sequential run from `w₀` explains the records of `w` and the requests logged. -/
inductive Sequential (w₀ : World Address) (log : List (Label Address)) (w : World Address) : Prop
  | intro (ls : List (Label Address)) (g : World Address) (hrun : Run Step w₀ ls g)
      (halike : g.Alike w) (hrequests : SameRequests log ls)

namespace Sequential

variable {w₀ w w' : World Address} {log : List (Label Address)}

theorem of_run (hrun : Run Step w₀ log w) : Sequential w₀ log w :=
  .intro log w hrun (.refl w) ⟨fun _ => rfl, fun _ => rfl, fun _ => rfl⟩

theorem alike (h : Sequential w₀ log w) (halike : w.Alike w') : Sequential w₀ log w' := by
  obtain ⟨ls, g, hrun, hg, hrequests⟩ := h
  exact ⟨ls, g, hrun, hg.trans halike, hrequests⟩

theorem sound (h : Sequential w₀ log w) (hfresh : Fresh w₀) : w.Sound := by
  obtain ⟨ls, g, hrun, hg, _⟩ := h
  exact hg.sound (hfresh.sound.run hrun)

theorem contractAddress_eq (h : Sequential w₀ log w) (hfresh : Fresh w₀) :
    w.contractAddress = w₀.contractAddress := by
  obtain ⟨ls, g, hrun, hg, _⟩ := h
  exact hg.contractAddress.symm.trans (hfresh.sound.run_contractAddress hrun)

/-- The log accounts for every record. -/
theorem accounted (h : Sequential w₀ log w) (hfresh : Fresh w₀) (id : UInt64) :
    Accounted w₀.contractAddress id log (w.streams id) := by
  obtain ⟨ls, g, hrun, hg, hrequests⟩ := h
  rw [← hg.streams]
  exact hrequests.accounted (hfresh.accounted hrun id)

/-- A step that stores nothing, by which time may pass. -/
theorem idle (h : Sequential w₀ log w) {l : Label Address}
    (hcontract : w'.contractAddress = w.contractAddress)
    (htime : w.timestamp.toNat ≤ w'.timestamp.toNat) (hstreams : w'.streams = w.streams)
    (hcount : w'.streamCount = w.streamCount) (hfunding : ∀ id, l.funding id = [])
    (hpayouts : ∀ id, l.payouts id = []) (hrefunds : ∀ id, l.refunds id = []) :
    Sequential w₀ (log ++ [l]) w' := by
  obtain ⟨ls, g, hrun, hg, hrequests⟩ := h
  have hclock : g.timestamp ≤ w'.timestamp := by
    rw [hg.timestamp, UInt64.le_iff_toNat_le]
    exact htime
  have hstep : Step g (.clock w'.timestamp g.sequence)
      { g with timestamp := w'.timestamp, sequence := g.sequence } := .clock hclock le_rfl
  refine .intro _ _ (hrun.snoc hstep) ?_ ((hrequests.clock _ _).skip hfunding hpayouts hrefunds)
  exact ⟨hg.contractAddress.trans hcontract.symm, rfl, hg.streams.trans hstreams.symm,
    hg.streamCount.trans hcount.symm⟩

/-- A settling call has written its record, whatever its token does then. -/
theorem settled (h : Sequential w₀ log w) (hfresh : Fresh w₀) {env : Env Address} {op : StreamOp}
    {id : UInt64} {stream : Stream Address} {z : Settled Address} {receipt : Receipt Address}
    (hstream : w.streams id = some stream) (houtcome : op.Outcome w.timestamp id stream z)
    (hresult : receipt.result = .ok (.amount z.amount))
    (htransfers : receipt.transfers =
      [⟨stream.token, w.contractAddress, op.party stream, z.amount⟩])
    (hcontract : w'.contractAddress = w.contractAddress) (htime : w'.timestamp = w.timestamp)
    (hstreams : w'.streams = Function.update w.streams id (some z.stream))
    (hcount : w'.streamCount = w.streamCount) :
    Sequential w₀ (log ++ [.call env (op.call id) receipt]) w' := by
  have hformed := (h.sound hfresh).records id stream hstream
  have hpos : 0 < z.amount := houtcome.amount_pos hformed
  obtain ⟨ls, g, hrun, hg, hrequests⟩ := h
  have hstep : Step g (.call env.willing (op.call id) ⟨g.timestamp, .ok (.amount z.amount),
      [⟨stream.token, g.contractAddress, op.party stream, z.amount⟩], [z.event]⟩)
      (((g.refreshed env.willing id).stored env.willing id z.stream).setBook stream.token
        (g.balance stream.token)) := by
    apply Step.call
    have hauth : env.willing.authorized (op.party stream) = true := rfl
    have hrecord : g.streams id = some stream := by rw [hg.streams, hstream]
    have hsettle : op.settle g.timestamp id stream = .ok z := by
      rw [hg.timestamp]
      exact houtcome.settle_eq hformed
    rw [g.invoke_op, hrecord]
    simp only [if_pos hauth, hsettle, Settled.paid, if_pos hpos]
    rfl
  refine .intro _ _ (hrun.snoc hstep) ?_ (hrequests.snoc hresult ?_)
  · refine ⟨hg.contractAddress.trans hcontract.symm, hg.timestamp.trans htime.symm, ?_,
      hg.streamCount.trans hcount.symm⟩
    change Function.update g.streams id (some z.stream) = _
    rw [hg.streams, hstreams]
  · rw [htransfers, hg.contractAddress]

theorem opened (h : Sequential w₀ log w) {env : Env Address} {o : Opening Address}
    {next : UInt64} {receipt : Receipt Address}
    (hvalid : o.Valid w.contractAddress w.timestamp)
    (hnext : next.toNat = (w.streamCount.getD 0).toNat + 1)
    (hresult : receipt.result = .ok (.id (w.streamCount.getD 0)))
    (htransfers : receipt.transfers = [⟨o.token, o.sender, w.contractAddress, o.totalAmount⟩])
    (hcontract : w'.contractAddress = w.contractAddress) (htime : w'.timestamp = w.timestamp)
    (hstreams : w'.streams = Function.update w.streams (w.streamCount.getD 0) (some o.stream))
    (hcount : w'.streamCount = some next) :
    Sequential w₀ (log ++ [.call env o.call receipt]) w' := by
  obtain ⟨ls, g, hrun, hg, hrequests⟩ := h
  rw [← hg.streamCount] at hnext hresult hstreams
  have hstep : Step g (.call env.willing o.call ⟨g.timestamp, .ok (.id (g.streamCount.getD 0)),
      [⟨o.token, o.sender, g.contractAddress, o.totalAmount⟩],
      [.created (o.created (g.streamCount.getD 0))]⟩)
      (g.opened env.willing o (g.balance o.token) (g.streamCount.getD 0) next) := by
    apply Step.call
    have hauth : env.willing.authorized o.sender = true := rfl
    have hcheck : o.check g.contractAddress g.timestamp = .ok () := by
      rw [hg.contractAddress, hg.timestamp]
      exact o.check_of_valid hvalid
    rw [g.invoke_create, if_pos hauth, hcheck, U64.checkedAdd_eq_some_iff.mpr hnext]
    rfl
  refine .intro _ _ (hrun.snoc hstep) ?_ (hrequests.snoc hresult ?_)
  · refine ⟨hg.contractAddress.trans hcontract.symm, hg.timestamp.trans htime.symm, ?_,
      hcount.symm⟩
    change Function.update g.streams _ (some o.stream) = _
    rw [hstreams, hg.streams]
  · rw [htransfers, hg.contractAddress]

theorem step (h : Sequential w₀ log w) (hfresh : Fresh w₀) {l : Label Address}
    (hstep : Step w l w') : Sequential w₀ (log ++ [l]) w' := by
  cases hstep.change (h.sound hfresh) with
  | idle hrefused _ htransfers hcontract htime hstreams hcount _ =>
    exact h.idle hcontract htime hstreams hcount (Label.funding_of_refused hrefused)
      (fun id => (l.silent hrefused htransfers id).1)
      fun id => (l.silent hrefused htransfers id).2.1
  | opened env o next book hlabel hvalid hnext _ hworld =>
    subst hlabel hworld
    exact h.opened hvalid hnext rfl rfl rfl rfl rfl rfl
  | settled env op id stream z book hlabel hstream houtcome _ hworld =>
    subst hlabel hworld
    exact h.settled hfresh hstream houtcome rfl rfl rfl rfl rfl rfl

end Sequential
end TricklePay
