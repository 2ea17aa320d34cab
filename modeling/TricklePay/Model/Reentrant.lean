import TricklePay.Model.Chain
import TricklePay.Model.Phases
import TricklePay.Library.Callbacks

/-!
# A host that lets tokens call back

Soroban turns away a token that calls back into the contract. This host does not:
while a call waits for its token, the token may make settling calls on any stream,
and so may the tokens of those. The code is the code of `Contract`, split at its
token calls; the host decides when a token moves what it was asked to move, and
takes back all that was done since a failing call was made.

Creations are not nested, and the clock stands still while a call is suspended.
-/

namespace TricklePay

open Checked Callbacks

/-- The ledger, and what has been done to it and not taken back. A call is logged
when it writes its record, with what it asks of its token. -/
structure Moment (Address : Type) where
  world : World Address
  log : List (Label Address)

/-- What a call has left to do when its token has returned. -/
inductive Rest (Address : Type)
  | settling (pending : Pending Address)
  | opening (o : Opening Address) (id nextId : UInt64)

/-- A call that waits for its token, with what the token has not moved yet. -/
structure Suspended (Address : Type) where
  env : Env Address
  owed : Option (Transfer Address)
  rest : Rest Address

/-- What happens next on this host. -/
inductive Interaction (Address : Type)
  | ordinary (l : Label Address)
  | refused (env : Env Address) (op : StreamOp) (id : UInt64)
  | entered (env : Env Address) (op : StreamOp) (id : UInt64)
  | opening (env : Env Address) (o : Opening Address)
  | moved (env : Env Address)
  | returned
  | failed

variable {Address : Type}

/-- The steps that may be taken while a call is suspended, other than by callbacks. -/
def Label.isAside : Label Address → Bool
  | .clock .. => false
  | .call _ entry _ => entry.isView
  | .deposit .. | .bookkeeping .. => true

def Moment.logged (m : Moment Address) (world : World Address) (l : Label Address) :
    Moment Address :=
  ⟨world, m.log ++ [l]⟩

variable [DecidableEq Address]

/-- Steps of the ordinary host, and calls that fail before they reach their token. -/
inductive Acts (ps : List (Suspended Address)) (m : Moment Address) :
    Interaction Address → Moment Address → Prop
  | ordinary {l : Label Address} {w : World Address} (hstep : Step m.world l w)
      (haside : ps = [] ∨ l.isAside = true) : Acts ps m (.ordinary l) (m.logged w l)
  | refused {env : Env Address} {op : StreamOp} {id : UInt64} {failure : Failure}
      {frame : Frame Address} (hbegin : op.begin env id ⟨m.world, [], []⟩ = .error failure frame) :
      Acts ps m (.refused env op id) m

/-- A call runs up to its token call. -/
inductive Enters (m : Moment Address) :
    List (Suspended Address) → Interaction Address → Suspended Address → Moment Address → Prop
  | settling {ps : List (Suspended Address)} {env : Env Address} {op : StreamOp} {id : UInt64}
      {pending : Pending Address} {frame : Frame Address}
      (hbegin : op.begin env id ⟨m.world, [], []⟩ = .ok pending frame) :
      Enters m ps (.entered env op id) ⟨env, pending.transfer, .settling pending⟩
        (m.logged frame.world (.call env (op.call id) ⟨m.world.timestamp,
          .ok (.amount pending.amount), pending.transfer.toList, [pending.event]⟩))
  | opening {env : Env Address} {o : Opening Address} {id nextId : UInt64} {frame : Frame Address}
      (hbegin : o.begin env ⟨m.world, [], []⟩ = .ok (id, nextId) frame) :
      Enters m [] (.opening env o)
        ⟨env, some ⟨o.token, o.sender, m.world.contractAddress, o.totalAmount⟩,
          .opening o id nextId⟩ ⟨frame.world, m.log⟩

/-- The token of the innermost call moves what it was asked to move. -/
inductive Moves (m : Moment Address) :
    Suspended Address → Interaction Address → Suspended Address → Moment Address → Prop
  | moved {env : Env Address} {t : Transfer Address} {rest : Rest Address} {book : Address → ℤ}
      (hbook : env.token t.token (m.world.balance t.token) t.source t.target t.amount =
        some book) :
      Moves m ⟨env, some t, rest⟩ (.moved env) ⟨env, none, rest⟩
        ⟨m.world.setBook t.token book, m.log⟩

/-- The token has returned, and the innermost call finishes. -/
inductive Leaves (m : Moment Address) :
    Suspended Address → Interaction Address → Moment Address → Prop
  | settled {env : Env Address} {pending : Pending Address} {amount : I128} {frame : Frame Address}
      (hfinish : pending.finish ⟨m.world, [], []⟩ = .ok amount frame) :
      Leaves m ⟨env, none, .settling pending⟩ .returned ⟨frame.world, m.log⟩
  | opened {env : Env Address} {o : Opening Address} {id nextId created : UInt64}
      {frame : Frame Address}
      (hfinish : o.finish env id nextId ⟨m.world, [], []⟩ = .ok created frame) :
      Leaves m ⟨env, none, .opening o id nextId⟩ .returned
        (m.logged frame.world (.call env o.call ⟨m.world.timestamp, .ok (.id created),
          [⟨o.token, o.sender, m.world.contractAddress, o.totalAmount⟩], frame.events⟩))

/-- The calls of the contract, in their parts. -/
def reentrant : Parts (Moment Address) (Suspended Address) (Interaction Address) where
  act ps m i m' := Acts ps m i m'
  enter ps m i p m' := Enters m ps i p m'
  progress p m i p' m' := Moves m p i p' m'
  leave p m i m' := Leaves m p i m'
  fail _ i := i = .failed

/-- A moment of an execution on this host. -/
abbrev Execution (Address : Type) := Config (Moment Address) (Suspended Address)

/-- Whenever `token` moves anything in this step, it moves exactly what it is asked to. -/
def Interaction.ExactFor (token holder : Address) : Interaction Address → Prop
  | .ordinary l => l.ExactFor token holder
  | .moved env => (env.token token).Exact
  | _ => True

end TricklePay
