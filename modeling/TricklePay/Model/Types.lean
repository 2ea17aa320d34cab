import TricklePay.Library.Checked

/-!
# Records, errors and events of the stream contract

The data of `types.rs`, `error.rs`, `events.rs` and the two storage keys of
`storage.rs`. Addresses stay abstract: the contract only compares them.
-/

namespace TricklePay

open Checked

/-- A token stream with a linear schedule and optional cliff. -/
structure Stream (Address : Type) where
  sender : Address
  recipient : Address
  token : Address
  totalAmount : I128
  withdrawn : I128
  startTime : UInt64
  endTime : UInt64
  cliffTime : UInt64
  cancelled : Bool
  deriving DecidableEq

/-- Lifecycle state derived from a stream and the current ledger time. -/
inductive StreamStatus
  | pending
  | streaming
  | completed
  | cancelled
  deriving DecidableEq, Repr

/-- Errors returned by the stream contract. -/
inductive StreamError
  | streamNotFound
  | invalidTimeRange
  | invalidAmount
  | invalidCliff
  | alreadyCancelled
  | nothingToWithdraw
  | insufficientBalance
  | streamAlreadyCompleted
  | amountTooLarge
  | streamWindowInPast
  | streamCountExhausted
  | invalidParticipant
  | batchTooLarge
  deriving DecidableEq, Repr

/-- How a cancelled stream's escrow is divided between the two parties. -/
structure Settlement where
  refund : I128
  recipientRemaining : I128
  deriving DecidableEq

/-- Emitted when a stream is opened. -/
structure Created (Address : Type) where
  sender : Address
  recipient : Address
  id : UInt64
  token : Address
  totalAmount : I128
  startTime : UInt64
  endTime : UInt64
  cliffTime : UInt64
  deriving DecidableEq

/-- Emitted when a recipient withdraws vested tokens. -/
structure Withdrawn (Address : Type) where
  recipient : Address
  id : UInt64
  amount : I128
  deriving DecidableEq

/-- Emitted when a stream is cancelled. -/
structure Cancelled (Address : Type) where
  sender : Address
  id : UInt64
  recipientAmount : I128
  senderRefund : I128
  deriving DecidableEq

inductive Event (Address : Type)
  | created (event : Created Address)
  | withdrawn (event : Withdrawn Address)
  | cancelled (event : Cancelled Address)
  deriving DecidableEq

/-- Keys for entries the contract keeps in storage. The counter lives in the
instance entry, each stream in a persistent entry of its own. -/
inductive DataKey
  | streamCount
  | stream (id : UInt64)
  deriving DecidableEq

/-- Maximum `totalAmount` accepted when creating a stream, `i64::MAX as i128`. -/
def maxAmount : I128 := ⟨2 ^ 63 - 1, by decide⟩

/-- Basis points in 100%. -/
def bpsScale : UInt32 := 10000

/-- Maximum number of stream ids accepted by `getStreams`. -/
def maxBatchSize : ℕ := 20

end TricklePay
