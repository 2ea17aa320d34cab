import TricklePay.Spec.Agreement
import TricklePay.Library.History

/-!
# The index behind an event log

What an off-chain reader keeps of the event log: for each stream the fields of its
`Created`, the running total of its `Withdrawn`, and its `Cancelled` once seen.
Figures that move with the clock are derived when they are read.
-/

namespace TricklePay

open Checked

variable {Address : Type}

/-! ### Events -/

namespace Event

def id : Event Address → UInt64
  | .created e => e.id
  | .withdrawn e => e.id
  | .cancelled e => e.id

/-- The amount of tokens that an event announces. -/
def amount : Event Address → I128
  | .created e => e.totalAmount
  | .withdrawn e => e.amount
  | .cancelled e => e.senderRefund

def created? : Event Address → Option (Created Address)
  | .created e => some e
  | _ => none

def withdrawn? : Event Address → Option (Withdrawn Address)
  | .withdrawn e => some e
  | _ => none

def cancelled? : Event Address → Option (Cancelled Address)
  | .cancelled e => some e
  | _ => none

end Event

/-- The event that announces a successful mutating call and its answer. -/
inductive Announces : Call Address → Response Address → Event Address → Prop
  | created (sender recipient token : Address) (totalAmount : I128)
      (startTime endTime cliffTime id : UInt64) :
      Announces (.createStream sender recipient token totalAmount startTime endTime cliffTime)
        (.id id)
        (.created ⟨sender, recipient, id, token, totalAmount, startTime, endTime, cliffTime⟩)
  | withdrawn (recipient : Address) (id : UInt64) (amount : I128) :
      Announces (.withdraw id) (.amount amount) (.withdrawn ⟨recipient, id, amount⟩)
  | withdrawnAmount (recipient : Address) (id : UInt64) (amount : I128) :
      Announces (.withdrawAmount id amount) (.amount amount) (.withdrawn ⟨recipient, id, amount⟩)
  | cancelled (sender : Address) (id : UInt64) (share refund : I128) :
      Announces (.cancel id) (.amount refund) (.cancelled ⟨sender, id, share, refund⟩)

/-! ### Selections from a log -/

def createdOf (id : UInt64) (log : List (Event Address)) : List (Created Address) :=
  (log.filterMap Event.created?).filter fun e => e.id = id

def withdrawnOf (id : UInt64) (log : List (Event Address)) : List (Withdrawn Address) :=
  (log.filterMap Event.withdrawn?).filter fun e => e.id = id

def cancelledOf (id : UInt64) (log : List (Event Address)) : List (Cancelled Address) :=
  (log.filterMap Event.cancelled?).filter fun e => e.id = id

/-- The sum of what the log says was withdrawn from stream `id`. -/
def withdrawnTotal (id : UInt64) (log : List (Event Address)) : ℤ :=
  ((withdrawnOf id log).map fun e => e.amount.toInt).sum

/-! ### The index -/

/-- What the index keeps of one stream. -/
structure Facts (Address : Type) where
  created : Created Address
  withdrawn : ℤ
  cancelled : Option (Cancelled Address)
  deriving DecidableEq

/-- What a reader derives about one stream at a given time. -/
structure Figures where
  vested : ℤ
  withdrawable : ℤ
  locked : ℤ
  progress : ℤ
  status : StreamStatus
  deriving DecidableEq

def Created.terms (e : Created Address) : Terms :=
  ⟨e.totalAmount, e.startTime, e.endTime, e.cliffTime⟩

namespace Facts

/-- A reader skips what it has no stream for. -/
def absorb : Option (Facts Address) → Event Address → Option (Facts Address)
  | _, .created e => some ⟨e, 0, none⟩
  | some f, .withdrawn e => some { f with withdrawn := f.withdrawn + e.amount.toInt }
  | some f, .cancelled e => some { f with cancelled := some e }
  | none, _ => none

def totalAmount (f : Facts Address) : ℤ :=
  match f.cancelled with
  | none => f.created.totalAmount.toInt
  | some c => f.created.totalAmount.toInt - c.senderRefund.toInt

/-- Of a cancelled stream everything left is vested, whenever it was cancelled. -/
def figures (f : Facts Address) (now : UInt64) : Figures :=
  match f.cancelled with
  | none =>
    let vested := f.created.terms.vested now
    { vested
      withdrawable := vested - f.withdrawn
      locked := f.created.totalAmount.toInt - vested
      progress := vested * 10000 / f.created.totalAmount.toInt
      status :=
        if now < f.created.startTime then .pending
        else if f.created.endTime ≤ now then .completed
        else .streaming }
  | some _ =>
    { vested := f.totalAmount
      withdrawable := f.totalAmount - f.withdrawn
      locked := 0
      progress := 10000
      status := .cancelled }

end Facts

/-- The index of stream `id` after a log. -/
def index (id : UInt64) (log : List (Event Address)) : Option (Facts Address) :=
  History.digest Event.id Facts.absorb id log

/-- What the events of a whole run are allowed to be, one after another: a stream is
announced before anything happens to it and cancelled at most once, and its
cancellation divides what was not withdrawn so far. -/
inductive Admitted : List (Event Address) → Event Address → Prop
  | created {log : List (Event Address)} {e : Created Address} (hnew : index e.id log = none) :
      Admitted log (.created e)
  | withdrawn {log : List (Event Address)} {e : Withdrawn Address} {f : Facts Address}
      (hindex : index e.id log = some f) : Admitted log (.withdrawn e)
  | cancelled {log : List (Event Address)} {e : Cancelled Address} {f : Facts Address}
      (hindex : index e.id log = some f) (hrunning : f.cancelled = none)
      (hshare : e.recipientAmount.toInt =
        f.created.totalAmount.toInt - e.senderRefund.toInt - f.withdrawn) :
      Admitted log (.cancelled e)

end TricklePay
