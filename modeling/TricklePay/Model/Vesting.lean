import TricklePay.Model.Types

/-!
# Vesting arithmetic and lifecycle status

`vesting.rs` and `status.rs`, on machine integers. A function that contains a
checked operation returns the trap it may stop with.
-/

namespace TricklePay

open Checked

variable {Address : Type}

/-- Amount vested at `now` for a stream that runs linearly from `startTime` to
`endTime`, with nothing available before `cliffTime`. -/
def vestedAmount (totalAmount : I128) (startTime endTime cliffTime now : UInt64) :
    Except Trap I128 :=
  if now < cliffTime ∨ now < startTime then .ok 0
  else if endTime ≤ now then .ok totalAmount
  else do
    let elapsed := Signed.ofUInt64 (← U64.sub now startTime)
    let duration := Signed.ofUInt64 (← U64.sub endTime startTime)
    (← totalAmount.mul elapsed).div duration

/-- Whatever has vested minus whatever has already been taken, never negative. -/
def withdrawableAmount (vested withdrawn : I128) : Except Trap I128 := do
  let available ← vested.sub withdrawn
  return if available < 0 then 0 else available

/-- Split a stream's escrow at cancellation. -/
def settlement (totalAmount vested withdrawn : I128) : Except Trap Settlement := do
  let refund ← totalAmount.sub vested
  let recipientRemaining ← vested.sub withdrawn
  return { refund, recipientRemaining }

def Stream.vestedAmount (stream : Stream Address) (now : UInt64) : Except Trap I128 :=
  TricklePay.vestedAmount stream.totalAmount stream.startTime stream.endTime stream.cliffTime now

/-- Lifecycle status of `stream` at the time `now`. Cancellation outranks the clock. -/
def streamStatus (stream : Stream Address) (now : UInt64) : StreamStatus :=
  if stream.cancelled then .cancelled
  else if now < stream.startTime then .pending
  else if stream.endTime ≤ now then .completed
  else .streaming

end TricklePay
