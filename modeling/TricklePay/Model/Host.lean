import TricklePay.Model.Types

/-!
# The host as the contract sees it

A contract function is a program over the frame of one invocation: the ledger it
runs on, and what the invocation has done so far. A failure leaves the frame as
it was when it struck, so that what a failing call has touched can be stated;
undoing it is the business of the host, in `Chain`.

Reads do not consult entry lives: whether an entry is still live at a call is
something to prove of `liveUntil`, not something the contract can observe.
-/

namespace TricklePay

open Checked

/-- What a token's `transfer` does to that token's balances, or that it fails. -/
abbrev TokenTransfer (Address : Type) :=
  (Address → ℤ) → Address → Address → I128 → Option (Address → ℤ)

/-- What the host supplies to one invocation: who has authorized it, how each
token contract behaves, and the network's rules for the life of entries. -/
structure Env (Address : Type) where
  authorized : Address → Bool
  token : Address → TokenTransfer Address
  minLife : ℕ
  extendsAtThreshold : Bool

/-- The ledger: clock, storage of the contract, life of its entries, and the
balances each token keeps. -/
structure World (Address : Type) where
  contractAddress : Address
  timestamp : UInt64
  sequence : ℕ
  streamCount : Option UInt64
  streams : UInt64 → Option (Stream Address)
  liveUntil : DataKey → ℕ
  balance : Address → Address → ℤ

/-- A token transfer the contract has made. -/
structure Transfer (Address : Type) where
  token : Address
  source : Address
  target : Address
  amount : I128
  deriving DecidableEq

/-- One invocation in progress. -/
structure Frame (Address : Type) where
  world : World Address
  transfers : List (Transfer Address)
  events : List (Event Address)

/-- Why an invocation ended without a result: an error the contract returned, a
missing authorization, a token transfer that failed, or a trap. -/
inductive Failure
  | error (error : StreamError)
  | unauthorized
  | transferFailed
  | trap (trap : Trap)
  deriving DecidableEq, Repr

abbrev Host (Address : Type) := EStateM Failure (Frame Address)

instance {Address : Type} : MonadLift (Except Trap) (Host Address) where
  monadLift x := match x with
    | .ok a => pure a
    | .error t => throw (.trap t)

instance {Address : Type} : MonadLift (Except StreamError) (Host Address) where
  monadLift x := match x with
    | .ok a => pure a
    | .error e => throw (.error e)

variable {Address : Type}

/-- The operator `?` applied to `ok_or`. -/
def okOr {α : Type} (x : Option α) (e : StreamError) : Except StreamError α :=
  match x with
  | some a => .ok a
  | none => .error e

def expect {α : Type} (x : Option α) (message : String) : Except Trap α :=
  match x with
  | some a => .ok a
  | none => .error (.panic message)

/-- The early return `if condition { return Err(e) }`. -/
def rejectIf (condition : Prop) [Decidable condition] (e : StreamError) : Host Address Unit :=
  if condition then throw (.error e) else pure ()

def modifyWorld (f : World Address → World Address) : Host Address Unit :=
  modify fun frame => { frame with world := f frame.world }

def timestamp : Host Address UInt64 := do return (← get).world.timestamp

def currentContractAddress : Host Address Address := do return (← get).world.contractAddress

def requireAuth (env : Env Address) (address : Address) : Host Address Unit :=
  if env.authorized address then pure () else throw .unauthorized

namespace World

/-- Extending does nothing unless the remaining life is below the threshold (or
at it, as the network has it). -/
def extendTtl (env : Env Address) (key : DataKey) (threshold extendTo : ℕ) (w : World Address) :
    World Address :=
  let life := w.liveUntil key - w.sequence
  { w with
    liveUntil := if life < threshold ∨ (env.extendsAtThreshold ∧ life = threshold) then
        Function.update w.liveUntil key (w.sequence + extendTo)
      else w.liveUntil }

/-- Writing a stream creates its entry, with the network's minimum life, when
there is none. -/
def setStream [DecidableEq Address] (env : Env Address) (id : UInt64) (stream : Stream Address)
    (w : World Address) : World Address :=
  { w with
    streams := Function.update w.streams id (some stream)
    liveUntil := if (w.streams id).isSome then w.liveUntil
      else Function.update w.liveUntil (.stream id) (w.sequence + env.minLife) }

def setBook [DecidableEq Address] (token : Address) (book : Address → ℤ) (w : World Address) :
    World Address :=
  { w with balance := Function.update w.balance token book }

end World

/-- Call `transfer` on a token contract. -/
def TokenClient.transfer [DecidableEq Address] (env : Env Address) (token source target : Address)
    (amount : I128) : Host Address Unit := do
  let frame : Frame Address ← get
  match env.token token (frame.world.balance token) source target amount with
  | none => throw .transferFailed
  | some book =>
    modify fun frame => { frame with
      world := frame.world.setBook token book
      transfers := frame.transfers ++ [{ token, source, target, amount }] }

def publish (event : Event Address) : Host Address Unit :=
  modify fun frame => { frame with events := frame.events ++ [event] }

end TricklePay
