import TricklePay.Model.Contract

/-!
# The mutating calls, split at their token call

Each of the four mutating entry points makes at most one call out of the contract,
to a token. `begin…` is what it does up to that call and `finish` what it does once
the call has returned; `…_split` puts the pieces together again.
-/

namespace TricklePay

open Checked

variable {Address : Type}

/-! ### The calls -/

/-- The calls that settle part of an existing stream. -/
inductive StreamOp
  | withdraw
  | withdrawAmount (amount : I128)
  | cancel
  deriving DecidableEq

def StreamOp.call (op : StreamOp) (id : UInt64) : Call Address :=
  match op with
  | .withdraw => .withdraw id
  | .withdrawAmount amount => .withdrawAmount id amount
  | .cancel => .cancel id

/-- The arguments of `createStream`. -/
structure Opening (Address : Type) where
  sender : Address
  recipient : Address
  token : Address
  totalAmount : I128
  startTime : UInt64
  endTime : UInt64
  cliffTime : UInt64

namespace Opening

variable (o : Opening Address)

def call : Call Address :=
  .createStream o.sender o.recipient o.token o.totalAmount o.startTime o.endTime o.cliffTime

theorem call_inj {o o' : Opening Address} (h : o.call = o'.call) : o = o' := by
  cases o
  cases o'
  cases h
  rfl

/-- The record a creation stores. -/
def stream : Stream Address where
  sender := o.sender
  recipient := o.recipient
  token := o.token
  totalAmount := o.totalAmount
  withdrawn := 0
  startTime := o.startTime
  endTime := o.endTime
  cliffTime := o.cliffTime
  cancelled := false

end Opening

variable [DecidableEq Address]

def StreamOp.program (op : StreamOp) (env : Env Address) (id : UInt64) : Host Address I128 :=
  match op with
  | .withdraw => StreamContract.withdraw env id
  | .withdrawAmount amount => StreamContract.withdrawAmount env id amount
  | .cancel => StreamContract.cancel env id

theorem StreamOp.run_call (op : StreamOp) (env : Env Address) (id : UInt64) :
    (op.call id : Call Address).run env = .amount <$> op.program env id := by
  cases op <;> rfl

def Opening.program (o : Opening Address) (env : Env Address) : Host Address UInt64 :=
  StreamContract.createStream env o.sender o.recipient o.token o.totalAmount o.startTime o.endTime
    o.cliffTime

theorem Opening.run_call (o : Opening Address) (env : Env Address) :
    o.call.run env = .id <$> o.program env := rfl

/-! ### The settling calls -/

/-- What a settling call asks of a token, if anything, and what is left to do then. -/
structure Pending (Address : Type) where
  transfer : Option (Transfer Address)
  event : Event Address
  amount : I128

/-- The call out of the contract. -/
def ask (env : Env Address) : Option (Transfer Address) → Host Address Unit
  | none => pure ()
  | some t => transfer env t.token t.source t.target t.amount

def Pending.finish (p : Pending Address) : Host Address I128 := do
  publish p.event
  return p.amount

/-- A settling call in one piece. -/
def perform (env : Env Address) (x : Host Address (Pending Address)) : Host Address I128 := do
  let p ← x
  ask env p.transfer
  p.finish

def beginWithdraw (env : Env Address) (id : UInt64) (select : I128 → Except StreamError I128) :
    Host Address (Pending Address) := do
  let stream ← okOr (← getStream env id) .streamNotFound
  requireAuth env stream.recipient
  let vested ← stream.vestedAmount (← timestamp)
  let amount ← select (← withdrawableAmount vested stream.withdrawn)
  let stream := { stream with withdrawn := ← stream.withdrawn.add amount }
  setStream env id stream
  let this ← currentContractAddress
  return {
    transfer := some ⟨stream.token, this, stream.recipient, amount⟩
    event := .withdrawn { recipient := stream.recipient, id, amount }
    amount }

theorem withdrawWith_split (env : Env Address) (id : UInt64)
    (select : I128 → Except StreamError I128) :
    withdrawWith env id select = perform env (beginWithdraw env id select) := by
  simp only [perform, withdrawWith, beginWithdraw, bind_assoc, pure_bind]
  rfl

def beginCancel (env : Env Address) (id : UInt64) : Host Address (Pending Address) := do
  let stream ← okOr (← getStream env id) .streamNotFound
  requireAuth env stream.sender
  rejectIf stream.cancelled .alreadyCancelled
  let now ← timestamp
  rejectIf (stream.endTime ≤ now) .streamAlreadyCompleted
  let vested ← stream.vestedAmount now
  let settlement ← settlement stream.totalAmount vested stream.withdrawn
  let stream := { stream with
    totalAmount := vested
    startTime := min stream.startTime now
    cliffTime := min stream.cliffTime now
    endTime := now
    cancelled := true }
  setStream env id stream
  let this ← currentContractAddress
  return {
    transfer :=
      if 0 < settlement.refund then some ⟨stream.token, this, stream.sender, settlement.refund⟩
      else none
    event := .cancelled {
      sender := stream.sender
      id
      recipientAmount := settlement.recipientRemaining
      senderRefund := settlement.refund }
    amount := settlement.refund }

theorem cancel_split (env : Env Address) (id : UInt64) :
    StreamContract.cancel env id = perform env (beginCancel env id) := by
  simp only [perform, StreamContract.cancel, beginCancel, bind_assoc, pure_bind]
  refine bind_congr (x := getStream env id) fun found => ?_
  refine bind_congr (x := liftM (okOr found .streamNotFound)) fun stream => ?_
  refine bind_congr (x := requireAuth env stream.sender) fun _ => ?_
  refine bind_congr (x := rejectIf stream.cancelled .alreadyCancelled) fun _ => ?_
  refine bind_congr (x := timestamp) fun now => ?_
  refine bind_congr (x := rejectIf (stream.endTime ≤ now) .streamAlreadyCompleted) fun _ => ?_
  refine bind_congr (x := liftM (stream.vestedAmount now)) fun vested => ?_
  refine bind_congr (x := liftM (settlement stream.totalAmount vested stream.withdrawn))
    fun split => ?_
  refine bind_congr (x := setStream env id _) fun _ => ?_
  -- the refund is decided on before the token call in one, and around it in the other
  split_ifs <;> rfl

def StreamOp.begin (op : StreamOp) (env : Env Address) (id : UInt64) :
    Host Address (Pending Address) :=
  match op with
  | .withdraw => beginWithdraw env id selectAll
  | .withdrawAmount amount => beginWithdraw env id (selectAmount amount)
  | .cancel => beginCancel env id

theorem StreamOp.program_split (op : StreamOp) (env : Env Address) (id : UInt64) :
    op.program env id = perform env (op.begin env id) := by
  cases op with
  | withdraw => exact withdrawWith_split env id selectAll
  | withdrawAmount amount => exact withdrawWith_split env id (selectAmount amount)
  | cancel => exact cancel_split env id

/-! ### Creation -/

/-- The checks of `createStream`, and the id it reserves with the one after it. -/
def Opening.begin (o : Opening Address) (env : Env Address) : Host Address (UInt64 × UInt64) := do
  requireAuth env o.sender
  let this ← currentContractAddress
  rejectIf (o.sender = this ∨ o.recipient = this ∨ o.token = this) .invalidParticipant
  rejectIf (o.totalAmount ≤ 0) .invalidAmount
  rejectIf (maxAmount < o.totalAmount) .amountTooLarge
  rejectIf (o.endTime ≤ o.startTime) .invalidTimeRange
  rejectIf (o.cliffTime < o.startTime ∨ o.endTime < o.cliffTime) .invalidCliff
  rejectIf (o.endTime ≤ (← timestamp)) .streamWindowInPast
  let id ← streamCount
  let nextId ← okOr (U64.checkedAdd id 1) .streamCountExhausted
  return (id, nextId)

def Opening.finish (o : Opening Address) (env : Env Address) (id nextId : UInt64) :
    Host Address UInt64 := do
  setStream env id o.stream
  setStreamCount nextId
  extendInstanceTtl env
  publishCreated id o.stream
  return id

theorem Opening.program_split (o : Opening Address) (env : Env Address) :
    o.program env = (do
      let reserved ← o.begin env
      let this ← currentContractAddress
      ask env (some ⟨o.token, o.sender, this, o.totalAmount⟩)
      o.finish env reserved.1 reserved.2) := by
  simp only [Opening.program, StreamContract.createStream, Opening.begin, bind_assoc, pure_bind]
  rfl

end TricklePay
