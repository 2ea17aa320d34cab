import TricklePay.Model.Contract
import TricklePay.Library.Transition
import TricklePay.Library.Pool
import Mathlib.Data.FinEnum

/-!
# Invocations and runs

The host runs a call against a fresh frame, and keeps what it did only if it
returned a value: a failed invocation leaves the ledger as it was. Between
invocations the clock advances, third parties transfer tokens into the contract,
and tokens keep their own books. Nothing else touches the contract's storage, and
a token neither re-enters the contract nor spends its balance unasked.
-/

namespace TricklePay

open Checked Transition

variable {Address : Type} [DecidableEq Address]

/-- What an invocation leaves behind: its result, and, when it returned a value,
the token transfers it made and the events it published. -/
structure Receipt (Address : Type) where
  timestamp : UInt64
  result : Except Failure (Response Address)
  transfers : List (Transfer Address)
  events : List (Event Address)

/-- Run one call and commit or roll back. -/
def World.invoke (env : Env Address) (call : Call Address) (w : World Address) :
    Receipt Address × World Address :=
  match call.run env { world := w, transfers := [], events := [] } with
  | .ok response frame =>
    (⟨w.timestamp, .ok response, frame.transfers, frame.events⟩, frame.world)
  | .error failure _ => (⟨w.timestamp, .error failure, [], []⟩, w)

/-- What happens on the ledger in one step of a run. -/
inductive Label (Address : Type)
  | clock (timestamp : UInt64) (sequence : ℕ)
  | call (env : Env Address) (call : Call Address) (receipt : Receipt Address)
  | deposit (env : Env Address) (token source : Address) (amount : I128) (credited : Bool)
  | bookkeeping (token : Address) (act : (Address → ℤ) → Address → ℤ)

/-- One step of a run. The clock never goes back. Third parties deposit
nonnegative amounts of their own. -/
inductive Step : World Address → Label Address → World Address → Prop
  | clock {w : World Address} {timestamp : UInt64} {sequence : ℕ}
      (htime : w.timestamp ≤ timestamp) (hsequence : w.sequence ≤ sequence) :
      Step w (.clock timestamp sequence) { w with timestamp, sequence }
  | call {w w' : World Address} {env : Env Address} {call : Call Address}
      {receipt : Receipt Address} (hinvoke : w.invoke env call = (receipt, w')) :
      Step w (.call env call receipt) w'
  | credited {w : World Address} {env : Env Address} {token source : Address} {amount : I128}
      {book : Address → ℤ} (hsource : source ≠ w.contractAddress) (hamount : 0 ≤ amount)
      (hbook : env.token token (w.balance token) source w.contractAddress amount = some book) :
      Step w (.deposit env token source amount true) (w.setBook token book)
  | refused {w : World Address} {env : Env Address} {token source : Address} {amount : I128}
      (hbook : env.token token (w.balance token) source w.contractAddress amount = none) :
      Step w (.deposit env token source amount false) w
  | bookkeeping {w : World Address} {token : Address} {act : (Address → ℤ) → Address → ℤ} :
      Step w (.bookkeeping token act) (w.setBook token (act (w.balance token)))

/-- A freshly deployed contract: nothing stored, nothing held. -/
structure Fresh (w : World Address) : Prop where
  streamCount : w.streamCount = none
  streams : w.streams = fun _ => none
  balance : ∀ token, w.balance token w.contractAddress = 0

def Reachable (w : World Address) : Prop := ∃ w₀ labels, Fresh w₀ ∧ Run Step w₀ labels w

namespace TokenTransfer

/-- The token moves exactly the requested amount or fails with no effect. -/
def Exact (transfer : TokenTransfer Address) : Prop :=
  ∀ book source target amount, transfer book source target amount = none ∨
    transfer book source target amount = some (Pool.move book source target amount.toInt)

/-- Moreover it fails only when the source balance is too small. -/
structure Conforming (transfer : TokenTransfer Address) : Prop where
  exact : Exact transfer
  funded : ∀ book source target (amount : I128), 0 ≤ amount.toInt → amount.toInt ≤ book source →
    transfer book source target amount ≠ none

end TokenTransfer

/-- In this step `token`, held by `holder`, moves exactly what it is asked to
move, and leaves the holder's balance alone when it is not asked. -/
def Label.ExactFor (token holder : Address) : Label Address → Prop
  | .clock _ _ => True
  | .call env _ _ => (env.token token).Exact
  | .deposit env t _ _ _ => t = token → (env.token token).Exact
  | .bookkeeping t act => t = token → ∀ book, act book holder = book holder

/-- If a mutating call is made in this step, it fails. -/
def Label.Refused : Label Address → Prop
  | .call _ entry receipt => entry.isView = false → ∃ failure, receipt.result = .error failure
  | _ => True

/-- The events the contract publishes in this step. -/
def Label.events : Label Address → List (Event Address)
  | .call _ _ receipt => receipt.events
  | _ => []

/-- The token transfers the contract makes in this step. -/
def Label.transfers : Label Address → List (Transfer Address)
  | .call _ _ receipt => receipt.transfers
  | _ => []

/-- What third parties transfer directly into the contract in this step. -/
def Label.transferredIn (token : Address) : Label Address → ℤ
  | .deposit _ t _ amount true => if t = token then amount.toInt else 0
  | _ => 0

end TricklePay
