import TricklePay.Model.Storage
import TricklePay.Model.Vesting

/-!
# Entry points of the stream contract

`contract.rs`, entry point by entry point, with the checks, the storage accesses
and the token calls in the order of the source.
-/

namespace TricklePay

open Checked

variable {Address : Type} [DecidableEq Address]

def vestedAmountAt (stream : Stream Address) (timestamp : UInt64) : Except Trap I128 :=
  stream.vestedAmount timestamp

/-- Move `amount` of `token` from `source` to `target`. -/
def transfer (env : Env Address) (token source target : Address) (amount : I128) :
    Host Address Unit :=
  TokenClient.transfer env token source target amount

def publishCreated (id : UInt64) (stream : Stream Address) : Host Address Unit :=
  publish (.created {
    sender := stream.sender
    recipient := stream.recipient
    id
    token := stream.token
    totalAmount := stream.totalAmount
    startTime := stream.startTime
    endTime := stream.endTime
    cliffTime := stream.cliffTime })

def publishWithdrawn (recipient : Address) (id : UInt64) (amount : I128) : Host Address Unit :=
  publish (.withdrawn { recipient, id, amount })

/-- Shared body of `withdraw` and `withdrawAmount`. `select` receives the
withdrawable balance and returns the amount to send, or the error to reject with. -/
def withdrawWith (env : Env Address) (id : UInt64) (select : I128 → Except StreamError I128) :
    Host Address I128 := do
  let stream ← okOr (← getStream env id) .streamNotFound
  requireAuth env stream.recipient
  let vested ← stream.vestedAmount (← timestamp)
  let amount ← select (← withdrawableAmount vested stream.withdrawn)
  let stream := { stream with withdrawn := ← stream.withdrawn.add amount }
  setStream env id stream
  transfer env stream.token (← currentContractAddress) stream.recipient amount
  publishWithdrawn stream.recipient id amount
  return amount

/-- The selection made by `withdraw`. -/
def selectAll (available : I128) : Except StreamError I128 :=
  if available ≤ 0 then .error .nothingToWithdraw else .ok available

/-- The selection made by `withdrawAmount`. -/
def selectAmount (amount available : I128) : Except StreamError I128 :=
  if amount ≤ 0 then .error .invalidAmount
  else if available < amount then .error .insufficientBalance
  else .ok amount

namespace StreamContract

/-- Open a new stream from `sender` to `recipient`. Returns the id assigned to it. -/
def createStream (env : Env Address) (sender recipient token : Address) (totalAmount : I128)
    (startTime endTime cliffTime : UInt64) : Host Address UInt64 := do
  requireAuth env sender
  let this ← currentContractAddress
  rejectIf (sender = this ∨ recipient = this ∨ token = this) .invalidParticipant
  rejectIf (totalAmount ≤ 0) .invalidAmount
  rejectIf (TricklePay.maxAmount < totalAmount) .amountTooLarge
  rejectIf (endTime ≤ startTime) .invalidTimeRange
  rejectIf (cliffTime < startTime ∨ endTime < cliffTime) .invalidCliff
  rejectIf (endTime ≤ (← timestamp)) .streamWindowInPast
  let id ← TricklePay.streamCount
  let nextId ← okOr (U64.checkedAdd id 1) .streamCountExhausted
  TokenClient.transfer env token sender (← currentContractAddress) totalAmount
  let stream : Stream Address :=
    { sender, recipient, token, totalAmount, withdrawn := 0, startTime, endTime, cliffTime,
      cancelled := false }
  setStream env id stream
  setStreamCount nextId
  extendInstanceTtl env
  publishCreated id stream
  return id

/-- Transfers the recipient's full withdrawable balance and returns the amount. -/
def withdraw (env : Env Address) (id : UInt64) : Host Address I128 :=
  withdrawWith env id selectAll

/-- Transfers a requested amount up to the recipient's withdrawable balance. -/
def withdrawAmount (env : Env Address) (id : UInt64) (amount : I128) : Host Address I128 :=
  withdrawWith env id (selectAmount amount)

/-- Cancel a stream and refund the unvested remainder to the sender. -/
def cancel (env : Env Address) (id : UInt64) : Host Address I128 := do
  let stream ← okOr (← TricklePay.getStream env id) .streamNotFound
  requireAuth env stream.sender
  rejectIf stream.cancelled .alreadyCancelled
  let now ← timestamp
  rejectIf (stream.endTime ≤ now) .streamAlreadyCompleted
  let vested ← stream.vestedAmount now
  let settlement ← TricklePay.settlement stream.totalAmount vested stream.withdrawn
  let stream := { stream with
    totalAmount := vested
    startTime := min stream.startTime now
    cliffTime := min stream.cliffTime now
    endTime := now
    cancelled := true }
  setStream env id stream
  if 0 < settlement.refund then
    transfer env stream.token (← currentContractAddress) stream.sender settlement.refund
  publish (.cancelled {
    sender := stream.sender
    id
    recipientAmount := settlement.recipientRemaining
    senderRefund := settlement.refund })
  return settlement.refund

def getStream (env : Env Address) (id : UInt64) : Host Address (Stream Address) := do
  okOr (← TricklePay.getStream env id) .streamNotFound

/-- Preview the settlement for cancelling a stream at the current ledger time. -/
def cancelPreview (id : UInt64) : Host Address Settlement := do
  let stream ← okOr (← getStreamReadonly id) .streamNotFound
  rejectIf stream.cancelled .alreadyCancelled
  let now ← timestamp
  rejectIf (stream.endTime ≤ now) .streamAlreadyCompleted
  let vested ← stream.vestedAmount now
  TricklePay.settlement stream.totalAmount vested stream.withdrawn

/-- Fetch several streams in request order, with `none` for unknown ids. -/
def getStreams (ids : List UInt64) : Host Address (List (Option (Stream Address))) := do
  rejectIf (maxBatchSize < ids.length) .batchTooLarge
  ids.mapM getStreamReadonly

def streamExists (id : UInt64) : Host Address Bool := hasStream id

/-- The vested balance not yet withdrawn. -/
def withdrawable (env : Env Address) (id : UInt64) : Host Address I128 := do
  let stream ← okOr (← TricklePay.getStream env id) .streamNotFound
  let vested ← stream.vestedAmount (← timestamp)
  withdrawableAmount vested stream.withdrawn

/-- The total amount vested at the current ledger time, including withdrawals. -/
def vested (env : Env Address) (id : UInt64) : Host Address I128 := do
  let stream ← okOr (← TricklePay.getStream env id) .streamNotFound
  vestedAmountAt stream (← timestamp)

def vestedAt (env : Env Address) (id timestamp : UInt64) : Host Address I128 := do
  let stream ← okOr (← TricklePay.getStream env id) .streamNotFound
  vestedAmountAt stream timestamp

/-- The amount not yet vested. -/
def locked (env : Env Address) (id : UInt64) : Host Address I128 := do
  let stream ← okOr (← TricklePay.getStream env id) .streamNotFound
  let vested ← stream.vestedAmount (← timestamp)
  return (← stream.totalAmount.sub vested).max 0

/-- Vesting progress in basis points. -/
def progress (env : Env Address) (id : UInt64) : Host Address UInt32 := do
  let stream ← okOr (← TricklePay.getStream env id) .streamNotFound
  if stream.totalAmount = 0 then
    return bpsScale
  let vested ← stream.vestedAmount (← timestamp)
  let scale := Signed.ofUInt32 bpsScale
  let progress ← (← vested.mul scale).div stream.totalAmount
  expect (← progress.clamp 0 scale).toUInt32? "clamped progress fits in u32"

/-- The lifecycle status derived from the stream and current ledger time. -/
def status (env : Env Address) (id : UInt64) : Host Address StreamStatus := do
  let stream ← okOr (← TricklePay.getStream env id) .streamNotFound
  return streamStatus stream (← timestamp)

def streamCount : Host Address UInt64 := TricklePay.streamCount

def maxAmount : Host Address I128 := return TricklePay.maxAmount

end StreamContract

/-- A call of an entry point, with its arguments. -/
inductive Call (Address : Type)
  | createStream (sender recipient token : Address) (totalAmount : I128)
      (startTime endTime cliffTime : UInt64)
  | withdraw (id : UInt64)
  | withdrawAmount (id : UInt64) (amount : I128)
  | cancel (id : UInt64)
  | getStream (id : UInt64)
  | cancelPreview (id : UInt64)
  | getStreams (ids : List UInt64)
  | streamExists (id : UInt64)
  | withdrawable (id : UInt64)
  | vested (id : UInt64)
  | vestedAt (id timestamp : UInt64)
  | locked (id : UInt64)
  | progress (id : UInt64)
  | status (id : UInt64)
  | streamCount
  | maxAmount
  deriving DecidableEq

/-- The calls that are meant to change nothing but the lives of entries. -/
def Call.isView : Call Address → Bool
  | .createStream .. | .withdraw _ | .withdrawAmount .. | .cancel _ => false
  | _ => true

/-- What a call returns. -/
inductive Response (Address : Type)
  | id (id : UInt64)
  | amount (amount : I128)
  | stream (stream : Stream Address)
  | settlement (settlement : Settlement)
  | streams (streams : List (Option (Stream Address)))
  | flag (flag : Bool)
  | bps (bps : UInt32)
  | status (status : StreamStatus)
  deriving DecidableEq

def Call.run (env : Env Address) : Call Address → Host Address (Response Address)
  | .createStream sender recipient token totalAmount startTime endTime cliffTime =>
    .id <$> StreamContract.createStream env sender recipient token totalAmount startTime endTime
      cliffTime
  | .withdraw id => .amount <$> StreamContract.withdraw env id
  | .withdrawAmount id amount => .amount <$> StreamContract.withdrawAmount env id amount
  | .cancel id => .amount <$> StreamContract.cancel env id
  | .getStream id => .stream <$> StreamContract.getStream env id
  | .cancelPreview id => .settlement <$> StreamContract.cancelPreview id
  | .getStreams ids => .streams <$> StreamContract.getStreams ids
  | .streamExists id => .flag <$> StreamContract.streamExists id
  | .withdrawable id => .amount <$> StreamContract.withdrawable env id
  | .vested id => .amount <$> StreamContract.vested env id
  | .vestedAt id timestamp => .amount <$> StreamContract.vestedAt env id timestamp
  | .locked id => .amount <$> StreamContract.locked env id
  | .progress id => .bps <$> StreamContract.progress env id
  | .status id => .status <$> StreamContract.status env id
  | .streamCount => .id <$> StreamContract.streamCount
  | .maxAmount => .amount <$> StreamContract.maxAmount

end TricklePay
