import TricklePay.Proofs.Views

/-!
# One stream along a run

`Touch` is what one step can do to one stored record. Over a run it adds up to
`Evolved`: the record is the one at the start, or that record stopped once, and
its counter has grown by exactly what the log says was paid out.
-/

namespace TricklePay

open Checked Transition

variable {Address : Type}

/-! ### What the log says about one stream -/

/-- The transfers made by withdrawals from stream `id` in this step. -/
def Label.payouts (id : UInt64) : Label Address → List (Transfer Address)
  | .call _ (.withdraw i) receipt => if i = id then receipt.transfers else []
  | .call _ (.withdrawAmount i _) receipt => if i = id then receipt.transfers else []
  | _ => []

/-- The transfers made by cancelling stream `id` in this step. -/
def Label.refunds (id : UInt64) : Label Address → List (Transfer Address)
  | .call _ (.cancel i) receipt => if i = id then receipt.transfers else []
  | _ => []

/-- The ledger time of a successful cancellation of stream `id` in this step. -/
def Label.cancellations (id : UInt64) : Label Address → List UInt64
  | .call _ (.cancel i) ⟨timestamp, .ok _, _, _⟩ => if i = id then [timestamp] else []
  | _ => []

/-- The sum of the amounts of some transfers. -/
def amounts (transfers : List (Transfer Address)) : ℤ :=
  (transfers.map fun t => t.amount.toInt).sum

def received (id : UInt64) (ls : List (Label Address)) : ℤ :=
  amounts (ls.flatMap (Label.payouts id))

def refunded (id : UInt64) (ls : List (Label Address)) : ℤ :=
  amounts (ls.flatMap (Label.refunds id))

def cancellations (id : UInt64) (ls : List (Label Address)) : List UInt64 :=
  ls.flatMap (Label.cancellations id)

@[simp] theorem amounts_nil : amounts ([] : List (Transfer Address)) = 0 := rfl

@[simp] theorem amounts_append (ts us : List (Transfer Address)) :
    amounts (ts ++ us) = amounts ts + amounts us := by
  simp [amounts]

@[simp] theorem received_snoc (id : UInt64) (ls : List (Label Address)) (l : Label Address) :
    received id (ls ++ [l]) = received id ls + amounts (l.payouts id) := by
  simp [received]

@[simp] theorem refunded_snoc (id : UInt64) (ls : List (Label Address)) (l : Label Address) :
    refunded id (ls ++ [l]) = refunded id ls + amounts (l.refunds id) := by
  simp [refunded]

@[simp] theorem cancellations_snoc (id : UInt64) (ls : List (Label Address)) (l : Label Address) :
    cancellations id (ls ++ [l]) = cancellations id ls ++ l.cancellations id := by
  simp [cancellations]

theorem Label.silent {l : Label Address} (hrefused : l.Refused) (htransfers : l.transfers = [])
    (id : UInt64) : l.payouts id = [] ∧ l.refunds id = [] ∧ l.cancellations id = [] := by
  cases l with
  | call env call receipt =>
    have hnone : receipt.transfers = [] := htransfers
    cases call with
    | withdraw i => simp [payouts, refunds, cancellations, hnone]
    | withdrawAmount i amount => simp [payouts, refunds, cancellations, hnone]
    | cancel i =>
      obtain ⟨failure, hfailure⟩ := hrefused rfl
      cases receipt
      cases hfailure
      simp_all [payouts, refunds, cancellations]
    | _ => simp [payouts, refunds, cancellations]
  | _ => simp [payouts, refunds, cancellations]

/-! ### One step -/

/-- What a step can do to the record `stream` stored under `id`. -/
inductive Touch (w : World Address) (l : Label Address) (w' : World Address) (id : UInt64)
    (stream : Stream Address) : Prop
  | kept (hstream : w'.streams id = some stream) (htime : w.timestamp.toNat ≤ w'.timestamp.toNat)
      (hpayouts : l.payouts id = []) (hrefunds : l.refunds id = [])
      (hcancelled : l.cancellations id = [])
  | paid (amount : I128) (hpos : 0 < amount.toInt)
      (hle : amount.toInt ≤ (stream.available w.timestamp).toInt)
      (hstream : w'.streams id = some (stream.pay amount)) (htime : w'.timestamp = w.timestamp)
      (hpayouts : l.payouts id = [⟨stream.token, w.contractAddress, stream.recipient, amount⟩])
      (hrefunds : l.refunds id = []) (hcancelled : l.cancellations id = [])
  | closed (hlive : stream.cancelled = false) (hend : w.timestamp.toNat < stream.endTime.toNat)
      (hstream : w'.streams id =
        some (stream.close (stream.vestedUnits w.timestamp) w.timestamp))
      (htime : w'.timestamp = w.timestamp) (hpayouts : l.payouts id = [])
      (hrefunds : l.refunds id =
        [⟨stream.token, w.contractAddress, stream.sender, stream.refund w.timestamp⟩])
      (hcancelled : l.cancellations id = [w.timestamp])

/-- A step pays out of a stream to its two parties only. -/
theorem Touch.addressed {w w' : World Address} {l : Label Address} {id : UInt64}
    {stream : Stream Address} (h : Touch w l w' id stream) :
    (∀ t ∈ l.payouts id,
      t.token = stream.token ∧ t.source = w.contractAddress ∧ t.target = stream.recipient) ∧
    ∀ t ∈ l.refunds id,
      t.token = stream.token ∧ t.source = w.contractAddress ∧ t.target = stream.sender := by
  cases h with
  | kept _ _ hpayouts hrefunds _ => simp [hpayouts, hrefunds]
  | paid amount _ _ _ _ hpayouts hrefunds _ => simp [hpayouts, hrefunds]
  | closed _ _ _ _ hpayouts hrefunds _ => simp [hpayouts, hrefunds]

/-! ### A sequence of steps -/

/-- How the record of stream `id` has evolved over a run with labels `ls`. -/
inductive Evolved (id : UInt64) (stream : Stream Address) (now : UInt64)
    (ls : List (Label Address)) (stream' : Stream Address) (later : UInt64) : Prop
  | running (hcancelled : cancellations id ls = []) (hrefunded : refunded id ls = 0)
      (htime : now.toNat ≤ later.toNat)
      (hrecord : stream' = { stream with withdrawn := stream'.withdrawn })
  | stopped (n : UInt64) (hcancelled : cancellations id ls = [n])
      (hlive : stream.cancelled = false) (hstart : now.toNat ≤ n.toNat)
      (hend : n.toNat < stream.endTime.toNat) (htime : n.toNat ≤ later.toNat)
      (hrefunded : refunded id ls = stream.totalAmount.toInt - stream.vested n)
      (hrecord : stream' =
        { stream.close (stream.vestedUnits n) n with withdrawn := stream'.withdrawn })

namespace Evolved

variable {id : UInt64} {stream stream' current : Stream Address} {now later : UInt64}
  {ls : List (Label Address)}

theorem time_le (h : Evolved id stream now ls stream' later) : now.toNat ≤ later.toNat := by
  cases h with
  | running _ _ htime _ => exact htime
  | stopped n _ _ hstart _ htime _ _ => exact hstart.trans htime

theorem parties_eq (h : Evolved id stream now ls stream' later) :
    stream'.sender = stream.sender ∧ stream'.recipient = stream.recipient ∧
      stream'.token = stream.token := by
  cases h with
  | running _ _ _ hrecord =>
    rw [hrecord]
    exact ⟨rfl, rfl, rfl⟩
  | stopped n _ _ _ _ _ _ hrecord =>
    rw [hrecord]
    exact ⟨rfl, rfl, rfl⟩

theorem refl (id : UInt64) (stream : Stream Address) (now : UInt64) :
    Evolved id stream now [] stream now :=
  .running rfl rfl le_rfl rfl

/-- A stopped record stays stopped, and only its counter moves. -/
theorem step {w w' : World Address} {l : Label Address} (hcurrent : current.WellFormed w.timestamp)
    (h : Evolved id stream now ls current w.timestamp) (ht : Touch w l w' id current) :
    ∃ stream', w'.streams id = some stream' ∧
      Evolved id stream now (ls ++ [l]) stream' w'.timestamp ∧
      stream'.withdrawn.toInt = current.withdrawn.toInt + amounts (l.payouts id) ∧
      0 ≤ amounts (l.payouts id) := by
  cases ht with
  | kept hstream htime hpayouts hrefunds hcancelled =>
    refine ⟨current, hstream, ?_, by simp [hpayouts], by simp [hpayouts]⟩
    cases h with
    | running hnone hzero hle hrecord =>
      exact .running (by simp [hnone, hcancelled]) (by simp [hzero, hrefunds]) (hle.trans htime)
        hrecord
    | stopped n hone hlive hstart hend hle hrefunded hrecord =>
      exact .stopped n (by simp [hone, hcancelled]) hlive hstart hend (hle.trans htime)
        (by simp [hrefunded, hrefunds]) hrecord
  | paid amount hpos hle hstream htime hpayouts hrefunds hcancelled =>
    have hamount : amounts (l.payouts id) = amount.toInt := by simp [hpayouts, amounts]
    refine ⟨current.pay amount, hstream, ?_, ?_, by omega⟩
    · rw [htime]
      cases h with
      | running hnone hzero hle hrecord =>
        refine .running (by simp [hnone, hcancelled]) (by simp [hzero, hrefunds]) hle ?_
        rw [hrecord]
        rfl
      | stopped n hone hlive hstart hend hle hrefunded hrecord =>
        refine .stopped n (by simp [hone, hcancelled]) hlive hstart hend hle
          (by simp [hrefunded, hrefunds]) ?_
        rw [hrecord]
        rfl
    · rw [hamount]
      exact hcurrent.toInt_pay hpos hle
  | closed hlive hend hstream htime hpayouts hrefunds hcancelled =>
    refine ⟨_, hstream, ?_, by simp [hpayouts, Stream.close], by simp [hpayouts]⟩
    rw [htime]
    cases h with
    | running hnone hzero hle hrecord =>
      have hvested : current.vested w.timestamp = stream.vested w.timestamp := by
        rw [hrecord]
        rfl
      have htotal : current.totalAmount = stream.totalAmount := by rw [hrecord]
      have hstart : current.cancelled = stream.cancelled := by rw [hrecord]
      have hstop : current.endTime = stream.endTime := by rw [hrecord]
      refine .stopped w.timestamp (by simp [hnone, hcancelled]) (hstart ▸ hlive) hle (hstop ▸ hend)
        le_rfl ?_ ?_
      · simp [hzero, hrefunds, amounts, hcurrent.toInt_refund, hvested, htotal]
      · rw [hrecord]
        rfl
    | stopped n hone _ _ _ _ _ hrecord =>
      rw [hrecord] at hlive
      cases hlive

end Evolved

/-! ### Steps and runs -/

variable [DecidableEq Address]

theorem Change.touch {w w' : World Address} {l : Label Address} (hw : w.Sound)
    (h : Change w l w') {id : UInt64} {stream : Stream Address}
    (hstream : w.streams id = some stream) : Touch w l w' id stream := by
  cases h with
  | idle hrefused _ htransfers _ htime hstreams _ _ =>
    obtain ⟨hpayouts, hrefunds, hcancelled⟩ := l.silent hrefused htransfers id
    exact .kept (by rw [hstreams]; exact hstream) htime hpayouts hrefunds hcancelled
  | opened env o next book hlabel hvalid hnext hbook hworld =>
    subst hlabel hworld
    have hne : id ≠ w.streamCount.getD 0 := by
      rintro rfl
      rw [hw.next_id_free] at hstream
      cases hstream
    refine .kept ?_ le_rfl rfl rfl rfl
    change Function.update w.streams _ _ id = _
    rw [Function.update_of_ne hne]
    exact hstream
  | settled env op i s z book hlabel hs houtcome hbook hworld =>
    subst hlabel hworld
    by_cases hid : i = id
    · subst hid
      obtain rfl : s = stream := Option.some_inj.mp (hs.symm.trans hstream)
      have hstored : (((w.refreshed env i).stored env i z.stream).setBook s.token book).streams i =
          some z.stream := Function.update_self _ _ _
      cases houtcome with
      | paid select amount hselect hamount hpos hle hz =>
        subst hz
        cases op with
        | withdraw => exact .paid amount hpos hle hstored rfl (if_pos rfl) rfl rfl
        | withdrawAmount => exact .paid amount hpos hle hstored rfl (if_pos rfl) rfl rfl
        | cancel => cases hselect
      | closed hop hlive hend hz =>
        subst hop hz
        exact .closed hlive hend hstored rfl rfl (if_pos rfl) (if_pos rfl)
    · have hkept : (((w.refreshed env i).stored env i z.stream).setBook s.token book).streams id =
          some stream := by
        change Function.update w.streams i _ id = _
        rw [Function.update_of_ne (Ne.symm hid)]
        exact hstream
      refine .kept hkept le_rfl ?_ ?_ ?_ <;> cases op <;>
        simp [StreamOp.call, Label.payouts, Label.refunds, Label.cancellations, hid]

/-- A stored record stays stored, evolves as the log says, and has been counted up
by exactly what was paid out of it. -/
theorem World.Sound.evolved {w w' : World Address} {ls : List (Label Address)} (hw : w.Sound)
    (h : Run Step w ls w') {id : UInt64} {stream : Stream Address}
    (hstream : w.streams id = some stream) :
    ∃ stream', w'.streams id = some stream' ∧
      Evolved id stream w.timestamp ls stream' w'.timestamp ∧
      stream'.withdrawn.toInt = stream.withdrawn.toInt + received id ls ∧ 0 ≤ received id ls := by
  induction h with
  | nil =>
    exact ⟨stream, hstream, .refl id stream w.timestamp, by simp [received], by simp [received]⟩
  | @snoc ls m l m' hrun hstep ih =>
    obtain ⟨current, hcurrent, hevolved, hwithdrawn, hnonneg⟩ := ih
    have hsound := hw.run hrun
    have htouch := (hstep.change hsound).touch hsound hcurrent
    obtain ⟨stream', hstream', hevolved', hpaid, hpositive⟩ :=
      hevolved.step (hsound.records id current hcurrent) htouch
    refine ⟨stream', hstream', hevolved', ?_, ?_⟩
    · rw [received_snoc]
      omega
    · rw [received_snoc]
      omega

theorem World.Sound.transfers_addressed {w w' : World Address} {ls : List (Label Address)}
    (hw : w.Sound) (h : Run Step w ls w') {id : UInt64} {stream : Stream Address}
    (hstream : w.streams id = some stream) :
    (∀ t ∈ ls.flatMap (Label.payouts id),
      t.token = stream.token ∧ t.source = w.contractAddress ∧ t.target = stream.recipient) ∧
    ∀ t ∈ ls.flatMap (Label.refunds id),
      t.token = stream.token ∧ t.source = w.contractAddress ∧ t.target = stream.sender := by
  induction h with
  | nil => simp
  | @snoc ls m l m' hrun hstep ih =>
    obtain ⟨hpayouts, hrefunds⟩ := ih
    obtain ⟨current, hcurrent, hevolved, _⟩ := hw.evolved hrun hstream
    obtain ⟨hsender, hrecipient, htoken⟩ := hevolved.parties_eq
    have hsound := hw.run hrun
    have haddressed := ((hstep.change hsound).touch hsound hcurrent).addressed
    rw [hw.run_contractAddress hrun, hsender, hrecipient, htoken] at haddressed
    obtain ⟨hpaid, hback⟩ := haddressed
    simp only [List.flatMap_append, List.flatMap_cons, List.flatMap_nil, List.append_nil,
      List.mem_append]
    constructor
    · rintro t (ht | ht)
      · exact hpayouts t ht
      · exact hpaid t ht
    · rintro t (ht | ht)
      · exact hrefunds t ht
      · exact hback t ht

end TricklePay
