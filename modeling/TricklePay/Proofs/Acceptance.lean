import TricklePay.Proofs.Isolation
import TricklePay.Proofs.Views

/-!
# What the settling calls accept

Whether `withdraw`, `withdrawAmount` and `cancel` succeed is decided by what the
views report, and nothing else: once the checks have passed the pooled escrow
covers the payment, and a call that fails has not written anything by then.
-/

namespace TricklePay

open Checked Transition

variable {Address : Type} [DecidableEq Address]

/-- The token of stream `id`, if there is one, conforms and is not in deficit. -/
def World.Funded (w : World Address) (env : Env Address) (id : UInt64) : Prop :=
  ∀ stream, w.streams id = some stream →
    0 ≤ w.surplus stream.token ∧ (env.token stream.token).Conforming

/-- The call returns `amount` and moves it, exactly once, out of what the contract
holds of `token`. -/
structure World.Pays (w : World Address) (env : Env Address) (call : Call Address)
    (token target : Address) (amount : I128) : Prop where
  result : w.answer env call = .ok (.amount amount)
  transfers : (w.invoke env call).1.transfers = [⟨token, w.contractAddress, target, amount⟩]
  balance : (w.invoke env call).2.balance = Function.update w.balance token
    (Pool.move (w.balance token) w.contractAddress target amount.toInt)

/-- It pays out of stream `id`: it stores `after` there, leaves the other records and
the counter alone, and publishes `event`. -/
structure World.PaysFrom (w : World Address) (env : Env Address) (call : Call Address)
    (id : UInt64) (token target : Address) (amount : I128) (after : Stream Address)
    (event : Event Address) : Prop extends w.Pays env call token target amount where
  streams : (w.invoke env call).2.streams = Function.update w.streams id (some after)
  streamCount : (w.invoke env call).2.streamCount = w.streamCount
  events : (w.invoke env call).1.events = [event]

section Answers

variable {w : World Address} {id : UInt64} {stream : Stream Address} {env : Env Address}

theorem World.Funded.of_stored (hstream : w.streams id = some stream)
    (hsurplus : 0 ≤ w.surplus stream.token) (hconforming : (env.token stream.token).Conforming) :
    w.Funded env id := by
  intro s hs
  obtain rfl : s = stream := Option.some_inj.mp (hs.symm.trans hstream)
  exact ⟨hsurplus, hconforming⟩

theorem World.Sound.answer_select (hw : w.Sound) (hstream : w.streams id = some stream)
    (hsurplus : 0 ≤ w.surplus stream.token) (hconforming : (env.token stream.token).Conforming)
    {op : StreamOp} {select : I128 → Except StreamError I128} (hselect : op.select? = some select)
    (hauth : env.authorized stream.recipient = true) :
    w.answer env (op.call id) =
      ((select (stream.available w.timestamp)).mapError .error).map .amount := by
  have hready := World.Funded.of_stored hstream hsurplus hconforming
  have hsettle := op.settle_select (hw.records id stream hstream) hselect id
  rw [← op.party_of_select hselect stream] at hauth
  unfold World.answer
  rw [(hw.invoke_respond op hready).1, hstream]
  cases hamount : select (stream.available w.timestamp) with
  | error e =>
    rw [hamount] at hsettle
    rw [op.respond_error hauth hsettle]
    rfl
  | ok amount =>
    rw [hamount] at hsettle
    rw [op.respond_ok hauth hsettle]
    rfl

/-- The receipt of a cancellation is the one its preview announces. -/
theorem World.Sound.invoke_cancel (hw : w.Sound) (hstream : w.streams id = some stream)
    (hsurplus : 0 ≤ w.surplus stream.token) (hconforming : (env.token stream.token).Conforming)
    (hauth : env.authorized stream.sender = true) :
    (w.invoke env (.cancel id)).1 = match stream.preview w.timestamp with
      | .error e => .failed w.timestamp (.error e)
      | .ok split => ⟨w.timestamp, .ok (.amount split.refund),
          [⟨stream.token, w.contractAddress, stream.sender, split.refund⟩],
          [.cancelled ⟨stream.sender, id, split.recipientRemaining, split.refund⟩]⟩ := by
  have hready := World.Funded.of_stored hstream hsurplus hconforming
  have hsettle : StreamOp.cancel.settle w.timestamp id stream = _ :=
    settleCancel_preview (hw.records id stream hstream) id
  have hinvoke := (hw.invoke_respond .cancel hready).1
  change (w.invoke env (.cancel id)).1 = _ at hinvoke
  rw [hinvoke, hstream]
  cases hpreview : stream.preview w.timestamp with
  | error e =>
    rw [hpreview] at hsettle
    rw [StreamOp.respond_error hauth hsettle]
  | ok split =>
    rw [hpreview] at hsettle
    rw [StreamOp.respond_ok hauth hsettle]
    rfl

theorem World.Sound.answer_cancel (hw : w.Sound) (hstream : w.streams id = some stream)
    (hsurplus : 0 ≤ w.surplus stream.token) (hconforming : (env.token stream.token).Conforming)
    (hauth : env.authorized stream.sender = true) :
    w.answer env (.cancel id) =
      ((stream.preview w.timestamp).mapError .error).map fun split => .amount split.refund := by
  unfold World.answer
  rw [hw.invoke_cancel hstream hsurplus hconforming hauth]
  cases stream.preview w.timestamp <;> rfl

/-- Once its checks have passed, a settling call pays: the pooled escrow covers it. -/
theorem World.Sound.op_pays (hw : w.Sound) (hstream : w.streams id = some stream)
    (hsurplus : 0 ≤ w.surplus stream.token) (hconforming : (env.token stream.token).Conforming)
    {op : StreamOp} (hauth : env.authorized (op.party stream) = true) {z : Settled Address}
    (hsettle : op.settle w.timestamp id stream = .ok z) :
    w.PaysFrom env (op.call id) id stream.token (op.party stream) z.amount z.stream z.event := by
  have hformed := hw.records id stream hstream
  have houtcome := op.settle_outcome hformed hsettle
  have hpos : 0 < z.amount := houtcome.amount_pos hformed
  have hbook := hw.payment_made hstream hsurplus hconforming houtcome
  have hinvoke := w.invoke_op env op id
  rw [hstream] at hinvoke
  simp only [if_pos hauth, hsettle, Settled.paid, if_pos hpos, hbook] at hinvoke
  refine ⟨⟨World.answer_of_invoke hinvoke, ?_, ?_⟩, ?_, ?_, ?_⟩ <;> rw [hinvoke]
  · rfl
  · rfl
  · rfl

theorem World.Sound.select_pays (hw : w.Sound) (hstream : w.streams id = some stream)
    (hsurplus : 0 ≤ w.surplus stream.token) (hconforming : (env.token stream.token).Conforming)
    {op : StreamOp} {select : I128 → Except StreamError I128} (hselect : op.select? = some select)
    (hauth : env.authorized stream.recipient = true) {amount : I128}
    (hamount : select (stream.available w.timestamp) = .ok amount) :
    w.PaysFrom env (op.call id) id stream.token stream.recipient amount (stream.pay amount)
      (.withdrawn ⟨stream.recipient, id, amount⟩) := by
  have hsettle := op.settle_select (hw.records id stream hstream) hselect id
  have hparty := op.party_of_select hselect stream
  rw [hamount] at hsettle
  rw [← hparty] at hauth
  have hpays := hw.op_pays hstream hsurplus hconforming hauth hsettle
  rwa [hparty] at hpays

theorem World.Sound.cancel_pays (hw : w.Sound) (hstream : w.streams id = some stream)
    (hsurplus : 0 ≤ w.surplus stream.token) (hconforming : (env.token stream.token).Conforming)
    (hauth : env.authorized stream.sender = true) {split : Settlement}
    (hpreview : stream.preview w.timestamp = .ok split) :
    w.PaysFrom env (.cancel id) id stream.token stream.sender split.refund
      (stream.close (stream.vestedUnits w.timestamp) w.timestamp)
      (.cancelled ⟨stream.sender, id, split.recipientRemaining, split.refund⟩) := by
  have hsettle : StreamOp.cancel.settle w.timestamp id stream = _ :=
    settleCancel_preview (hw.records id stream hstream) id
  have hparty : env.authorized (StreamOp.cancel.party stream) = true := hauth
  rw [hpreview] at hsettle
  exact hw.op_pays hstream hsurplus hconforming hparty hsettle

end Answers

/-! ### Failures -/

/-- No record, no counter, no balance has been changed, no token moved and no
event published. -/
structure Frame.Untouched (w : World Address) (frame : Frame Address) : Prop where
  streams : frame.world.streams = w.streams
  streamCount : frame.world.streamCount = w.streamCount
  balance : frame.world.balance = w.balance
  transfers : frame.transfers = []
  events : frame.events = []

/-- The frame in which a settling call fails is still untouched. Nothing is left
for the host to undo but the life of the entry that was read. -/
theorem World.Sound.op_error_untouched {w : World Address} (hw : w.Sound) {env : Env Address}
    {id : UInt64} (hready : w.Funded env id) (op : StreamOp) {failure : Failure}
    {frame : Frame Address} (h : (op.call id).run env ⟨w, [], []⟩ = .error failure frame) :
    frame.Untouched w := by
  rw [op.run_call, map_run, op.program_run] at h
  cases hstream : w.streams id with
  | none =>
    simp only [hstream] at h
    cases h
    exact ⟨rfl, rfl, rfl, rfl, rfl⟩
  | some stream =>
    by_cases hauth : env.authorized (op.party stream) = true
    · simp only [hstream, if_pos hauth] at h
      cases hsettle : op.settle w.timestamp id stream with
      | error failure =>
        rw [hsettle] at h
        cases h
        exact ⟨rfl, rfl, rfl, rfl, rfl⟩
      | ok z =>
        have hformed := hw.records id stream hstream
        have houtcome := op.settle_outcome hformed hsettle
        have hpos : 0 < z.amount := houtcome.amount_pos hformed
        obtain ⟨hsurplus, hconforming⟩ := hready stream hstream
        have hbook := hw.payment_made hstream hsurplus hconforming houtcome
        simp only [hsettle, Settled.commit, if_pos hpos, Frame.refreshed, refreshed_balance,
          refreshed_contractAddress, hbook] at h
        cases h
    · simp only [hstream, if_neg hauth] at h
      cases h
      exact ⟨rfl, rfl, rfl, rfl, rfl⟩

theorem World.Sound.invoke_withdraw_eq {w : World Address} (hw : w.Sound) (env : Env Address)
    {id : UInt64} {stream : Stream Address} (hstream : w.streams id = some stream)
    (hpos : 0 < (stream.available w.timestamp).toInt) :
    w.invoke env (.withdraw id) =
      w.invoke env (.withdrawAmount id (stream.available w.timestamp)) := by
  have hformed := hw.records id stream hstream
  have hnone : ¬ stream.available w.timestamp ≤ 0 := not_le.mpr hpos
  have hall : selectAll (stream.available w.timestamp) = .ok (stream.available w.timestamp) :=
    if_neg hnone
  have hamount : selectAmount (stream.available w.timestamp) (stream.available w.timestamp) =
      .ok (stream.available w.timestamp) := by
    have hself : ¬ stream.available w.timestamp < stream.available w.timestamp :=
      lt_irrefl (stream.available w.timestamp).toInt
    rw [selectAmount, if_neg hnone, if_neg hself]
  have hsettle : StreamOp.withdraw.settle w.timestamp id stream =
      (StreamOp.withdrawAmount (stream.available w.timestamp)).settle w.timestamp id stream := by
    rw [StreamOp.settle_select hformed rfl, StreamOp.settle_select hformed rfl, hall, hamount]
  have hinvoke := w.invoke_op env .withdraw id
  have hinvoke' := w.invoke_op env (.withdrawAmount (stream.available w.timestamp)) id
  rw [hstream] at hinvoke hinvoke'
  simp only [hsettle] at hinvoke
  exact hinvoke.trans hinvoke'.symm

/-! ### Acceptance -/

/-- What the settling calls do about a stored stream whose views report `r`: they fail,
with the first of the reasons that applies, or pay what the views report. -/
structure World.Accepts (w : World Address) (env : Env Address) (id : UInt64)
    (stream : Stream Address) (r : Reading) : Prop where
  withdraw : env.authorized stream.recipient = true →
    if r.withdrawable = 0 then w.answer env (.withdraw id) = .error (.error .nothingToWithdraw)
    else w.PaysFrom env (.withdraw id) id stream.token stream.recipient r.withdrawable
      (stream.pay r.withdrawable) (.withdrawn ⟨stream.recipient, id, r.withdrawable⟩)
  withdrawAmount : env.authorized stream.recipient = true → ∀ amount,
    if amount ≤ 0 then
      w.answer env (.withdrawAmount id amount) = .error (.error .invalidAmount)
    else if r.withdrawable < amount then
      w.answer env (.withdrawAmount id amount) = .error (.error .insufficientBalance)
    else w.PaysFrom env (.withdrawAmount id amount) id stream.token stream.recipient amount
      (stream.pay amount) (.withdrawn ⟨stream.recipient, id, amount⟩)
  cancel : env.authorized stream.sender = true →
    if stream.cancelled then w.answer env (.cancel id) = .error (.error .alreadyCancelled)
    else if stream.endTime ≤ w.timestamp then
      w.answer env (.cancel id) = .error (.error .streamAlreadyCompleted)
    else w.PaysFrom env (.cancel id) id stream.token stream.sender r.locked
      (stream.close r.vested w.timestamp)
      (.cancelled ⟨stream.sender, id, r.withdrawable, r.locked⟩)
  covered : r.withdrawable.toInt + r.locked.toInt ≤ w.balance stream.token w.contractAddress
  all : 0 < r.withdrawable → ∀ env,
    w.invoke env (.withdraw id) = w.invoke env (.withdrawAmount id r.withdrawable)

section Accepts

variable {w : World Address} {env : Env Address} {id : UInt64} {stream : Stream Address}

theorem World.Sound.answer_withdraw (hw : w.Sound) (hstream : w.streams id = some stream)
    (hsurplus : 0 ≤ w.surplus stream.token) (hconforming : (env.token stream.token).Conforming)
    (hauth : env.authorized stream.recipient = true) : w.answer env (.withdraw id) =
      if stream.available w.timestamp = 0 then .error (.error .nothingToWithdraw)
      else .ok (.amount (stream.available w.timestamp)) := by
  have hanswer := hw.answer_select hstream hsurplus hconforming
    (rfl : StreamOp.withdraw.select? = some selectAll) hauth
  change w.answer env (.withdraw id) = _ at hanswer
  simp only [selectAll, (hw.records id stream hstream).available_le_zero] at hanswer
  rw [hanswer]
  split_ifs <;> rfl

theorem World.Sound.answer_withdrawAmount (hw : w.Sound) (hstream : w.streams id = some stream)
    (hsurplus : 0 ≤ w.surplus stream.token) (hconforming : (env.token stream.token).Conforming)
    (hauth : env.authorized stream.recipient = true) (amount : I128) :
    w.answer env (.withdrawAmount id amount) =
      if amount ≤ 0 then .error (.error .invalidAmount)
      else if stream.available w.timestamp < amount then .error (.error .insufficientBalance)
      else .ok (.amount amount) := by
  have hanswer := hw.answer_select hstream hsurplus hconforming
    (rfl : (StreamOp.withdrawAmount amount).select? = some (selectAmount amount)) hauth
  change w.answer env (.withdrawAmount id amount) = _ at hanswer
  rw [hanswer, selectAmount]
  split_ifs <;> rfl

theorem World.Sound.accepts (hw : w.Sound) (hstream : w.streams id = some stream)
    (hsurplus : 0 ≤ w.surplus stream.token) (hconforming : (env.token stream.token).Conforming) :
    w.Accepts env id stream (stream.reading w.timestamp) := by
  have hformed := hw.records id stream hstream
  constructor
  · intro hauth
    have hanswer := hw.answer_withdraw hstream hsurplus hconforming hauth
    change if stream.available w.timestamp = 0 then _ else _
    split_ifs with hzero
    · rwa [if_pos hzero] at hanswer
    · have hall : selectAll (stream.available w.timestamp) =
          .ok (stream.available w.timestamp) := by
        rw [selectAll, if_neg (hformed.available_le_zero.not.mpr hzero)]
      exact hw.select_pays hstream hsurplus hconforming
        (rfl : StreamOp.withdraw.select? = some selectAll) hauth hall
  · intro hauth amount
    have hanswer := hw.answer_withdrawAmount hstream hsurplus hconforming hauth amount
    change if amount ≤ 0 then _ else if stream.available w.timestamp < amount then _ else _
    split_ifs with hpos hle
    · rwa [if_pos hpos] at hanswer
    · rwa [if_neg hpos, if_pos hle] at hanswer
    · have hamount : selectAmount amount (stream.available w.timestamp) = .ok amount := by
        rw [selectAmount, if_neg hpos, if_neg hle]
      exact hw.select_pays hstream hsurplus hconforming
        (rfl : (StreamOp.withdrawAmount amount).select? = some (selectAmount amount)) hauth hamount
  · intro hauth
    have hanswer := hw.answer_cancel hstream hsurplus hconforming hauth
    rw [Stream.preview] at hanswer
    split_ifs with hcancelled hend
    · rwa [if_pos hcancelled] at hanswer
    · rwa [if_neg hcancelled, if_pos hend] at hanswer
    · have hpreview : stream.preview w.timestamp =
          .ok ⟨stream.refund w.timestamp, stream.available w.timestamp⟩ := by
        rw [Stream.preview, if_neg hcancelled, if_neg hend]
      exact hw.cancel_pays hstream hsurplus hconforming hauth hpreview
  · have hcovers := hw.escrow_covers hstream
    change (stream.available _).toInt + (stream.refund _).toInt ≤ _
    rw [hformed.toInt_available, hformed.toInt_refund]
    unfold World.surplus at hsurplus
    omega
  · intro hpos env
    exact hw.invoke_withdraw_eq env hstream hpos

end Accepts

/-- On every reachable ledger with conforming tokens, the settling calls do exactly
what the views announce: an unknown id is not found; a withdrawal fails only for want
of something to withdraw, or of a proper amount within it; a cancellation only when
the stream is over. Otherwise the payment is made, whatever the other streams are
owed, and every failure leaves the frame it struck in untouched. -/
theorem settling_calls_accept_exactly {w : World Address} (h : Reachable w) {env : Env Address}
    {id : UInt64} (htokens : ∀ stream, w.streams id = some stream →
      ReachableWith stream.token w ∧ (env.token stream.token).Conforming) :
    (w.streams id = none →
      w.answer env (.withdraw id) = .error (.error .streamNotFound) ∧
      (∀ amount, w.answer env (.withdrawAmount id amount) = .error (.error .streamNotFound)) ∧
      w.answer env (.cancel id) = .error (.error .streamNotFound)) ∧
    (∀ stream, w.streams id = some stream →
      ∃ r, w.Reports id r ∧ w.Accepts env id stream r) ∧
    ∀ (op : StreamOp) (failure : Failure) (frame : Frame Address),
      (op.call id).run env ⟨w, [], []⟩ = .error failure frame → frame.Untouched w := by
  have hfunded : w.Funded env id := fun stream hstream =>
    ⟨(htokens stream hstream).1.surplus_nonneg, (htokens stream hstream).2⟩
  refine ⟨?_, ?_, ?_⟩
  · intro hstream
    have hmissing : ∀ op : StreamOp,
        w.answer env (op.call id) = .error (.error .streamNotFound) := by
      intro op
      rw [World.answer, w.invoke_op, hstream]
      rfl
    exact ⟨hmissing .withdraw, fun amount => hmissing (.withdrawAmount amount), hmissing .cancel⟩
  · intro stream hstream
    obtain ⟨hsurplus, hconforming⟩ := hfunded stream hstream
    exact ⟨stream.reading w.timestamp, (h.sound.stores hstream).reports,
      h.sound.accepts hstream hsurplus hconforming⟩
  · intro op failure frame hrun
    exact h.sound.op_error_untouched hfunded op hrun

theorem settling_calls_accept_exactly_later :
    ∃ r, Sample.later.Reports 0 r ∧ Sample.later.Accepts Sample.env 0 Sample.opening.stream r ∧
      Sample.later.Pays Sample.env (.withdraw 0) 9 2 (Sample.units 40) := by
  have htokens : ∀ stream, Sample.later.streams 0 = some stream →
      ReachableWith stream.token Sample.later ∧ (Sample.env.token stream.token).Conforming :=
    fun stream _ => ⟨Sample.later_reachableWith stream.token, Sample.ledgerToken_conforming⟩
  obtain ⟨_, hstored, _⟩ := settling_calls_accept_exactly Sample.later_reachable htokens
  obtain ⟨r, hr, haccepts⟩ := hstored Sample.opening.stream Sample.later_stream
  have hanswer : Except.ok (Response.amount (Sample.units 40) : Response ℕ) =
      .ok (.amount r.withdrawable) := hr.withdrawable Sample.env
  injection hanswer with hresponse
  injection hresponse with hdue
  have hpays := haccepts.withdraw rfl
  rw [← hdue, if_neg (by decide)] at hpays
  exact ⟨r, hr, haccepts, hpays.toPays⟩

end TricklePay
