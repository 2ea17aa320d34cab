import TricklePay.Model.Chain
import TricklePay.Library.GatedLine

/-!
# The agreement behind a stream

What a stream is for, told without the contract's record. The terms are kept for
ever; a cancellation only notes when the stream was stopped; what has been paid is
counted. The recipient is entitled to what the terms release up to the stop.
-/

namespace TricklePay

open Checked

/-- The terms of a stream, fixed when it is created. -/
structure Terms where
  totalAmount : I128
  startTime : UInt64
  endTime : UInt64
  cliffTime : UInt64

/-- What the terms have released at a given time. -/
def Terms.vested (terms : Terms) (t : UInt64) : ℤ :=
  gatedFloor terms.totalAmount.toInt terms.startTime.toNat terms.endTime.toNat
    terms.cliffTime.toNat t.toNat

variable {Address : Type}

/-- What two parties agreed on, and what has become of it. -/
structure Agreement (Address : Type) where
  sender : Address
  recipient : Address
  token : Address
  terms : Terms
  stopped : Option UInt64
  paid : ℤ

namespace Agreement

/-- The time up to which the terms apply. -/
def clock (g : Agreement Address) (t : UInt64) : UInt64 :=
  match g.stopped with
  | none => t
  | some n => min t n

def entitlement (g : Agreement Address) (t : UInt64) : ℤ := g.terms.vested (g.clock t)

end Agreement

/-- All agreements by id, and the time. -/
structure Agreements (Address : Type) where
  now : UInt64
  entries : UInt64 → Option (Agreement Address)

def Agreements.set (a : Agreements Address) (id : UInt64) (g : Agreement Address) :
    Agreements Address :=
  { a with entries := Function.update a.entries id (some g) }

/-- How agreements whose deposits `holder` keeps answer what happens on the ledger. A
creation brings in the deposit. A withdrawal pays the recipient part of what is due
and not yet paid, a cancellation stops a running stream before its end and gives back
to the sender what the recipient is not entitled to; each moves what it returns, once.
A failed call and a view change nothing and move nothing. -/
inductive Agreements.Step (holder : Address) :
    Agreements Address → Label Address → Agreements Address → Prop
  | clock {a : Agreements Address} {t : UInt64} {sequence : ℕ} (htime : a.now ≤ t) :
      Step holder a (.clock t sequence) { a with now := t }
  | created {a : Agreements Address} {env : Env Address} {sender recipient token : Address}
      {totalAmount : I128} {startTime endTime cliffTime : UInt64} {receipt : Receipt Address}
      {id : UInt64} (hresult : receipt.result = .ok (.id id))
      (htransfers : receipt.transfers = [⟨token, sender, holder, totalAmount⟩])
      (hnew : a.entries id = none) :
      Step holder a (.call env (.createStream sender recipient token totalAmount startTime endTime
        cliffTime) receipt) (a.set id
          ⟨sender, recipient, token, ⟨totalAmount, startTime, endTime, cliffTime⟩, none, 0⟩)
  | withdrawn {a : Agreements Address} {env : Env Address} {receipt : Receipt Address}
      {id : UInt64} {g : Agreement Address} {amount : I128}
      (hresult : receipt.result = .ok (.amount amount))
      (htransfers : receipt.transfers = [⟨g.token, holder, g.recipient, amount⟩])
      (hentry : a.entries id = some g) (hpos : 0 < amount.toInt)
      (hall : amount.toInt = g.entitlement a.now - g.paid) :
      Step holder a (.call env (.withdraw id) receipt)
        (a.set id { g with paid := g.paid + amount.toInt })
  | withdrawnAmount {a : Agreements Address} {env : Env Address} {receipt : Receipt Address}
      {id : UInt64} {g : Agreement Address} {amount : I128}
      (hresult : receipt.result = .ok (.amount amount))
      (htransfers : receipt.transfers = [⟨g.token, holder, g.recipient, amount⟩])
      (hentry : a.entries id = some g) (hpos : 0 < amount.toInt)
      (hdue : amount.toInt ≤ g.entitlement a.now - g.paid) :
      Step holder a (.call env (.withdrawAmount id amount) receipt)
        (a.set id { g with paid := g.paid + amount.toInt })
  | cancelled {a : Agreements Address} {env : Env Address} {receipt : Receipt Address}
      {id : UInt64} {g : Agreement Address} {refund : I128}
      (hresult : receipt.result = .ok (.amount refund))
      (htransfers : receipt.transfers = [⟨g.token, holder, g.sender, refund⟩])
      (hentry : a.entries id = some g) (hrunning : g.stopped = none)
      (hend : a.now < g.terms.endTime)
      (hrefund : refund.toInt = g.terms.totalAmount.toInt - g.entitlement a.now) :
      Step holder a (.call env (.cancel id) receipt) (a.set id { g with stopped := some a.now })
  | unchanged {a : Agreements Address} {env : Env Address} {call : Call Address}
      {receipt : Receipt Address} (hrefused : (Label.call env call receipt).Refused)
      (htransfers : receipt.transfers = []) : Step holder a (.call env call receipt) a
  | deposit {a : Agreements Address} {env : Env Address} {token source : Address} {amount : I128}
      {credited : Bool} : Step holder a (.deposit env token source amount credited) a
  | bookkeeping {a : Agreements Address} {token : Address}
      {act : (Address → ℤ) → Address → ℤ} : Step holder a (.bookkeeping token act) a

end TricklePay
