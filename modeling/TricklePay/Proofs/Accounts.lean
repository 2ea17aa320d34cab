import TricklePay.Proofs.Trace

/-!
# The account of one stream

Read from deployment on, the log accounts for every unit of a stream: what funded
it has been paid to the recipient, refunded to the sender, or is still held.
-/

namespace TricklePay

open Checked Transition

variable {Address : Type}

/-- The transfers made by creating stream `id` in this step. -/
def Label.funding (id : UInt64) : Label Address → List (Transfer Address)
  | .call _ (.createStream ..) ⟨_, .ok (.id i), transfers, _⟩ => if i = id then transfers else []
  | _ => []

def funded (id : UInt64) (ls : List (Label Address)) : ℤ :=
  amounts (ls.flatMap (Label.funding id))

@[simp] theorem funded_snoc (id : UInt64) (ls : List (Label Address)) (l : Label Address) :
    funded id (ls ++ [l]) = funded id ls + amounts (l.funding id) := by
  simp [funded]

theorem Label.funding_of_refused {l : Label Address} (h : l.Refused) (id : UInt64) :
    l.funding id = [] := by
  cases l with
  | call env call receipt =>
    cases call with
    | createStream sender recipient token totalAmount startTime endTime cliffTime =>
      obtain ⟨failure, hfailure⟩ := h rfl
      cases receipt
      cases hfailure
      rfl
    | _ => rfl
  | _ => rfl

/-- Every one of some transfers is of one token, from one address to one other. -/
def Addressed (token source target : Address) (transfers : List (Transfer Address)) : Prop :=
  ∀ t ∈ transfers, t.token = token ∧ t.source = source ∧ t.target = target

theorem Addressed.append {token source target : Address} {ts us : List (Transfer Address)}
    (hts : Addressed token source target ts) (hus : Addressed token source target us) :
    Addressed token source target (ts ++ us) := by
  intro t ht
  rcases List.mem_append.mp ht with h | h
  · exact hts t h
  · exact hus t h

/-- What the log from deployment on says about stream `id`, given its record. -/
inductive Accounted (this : Address) (id : UInt64) (ls : List (Label Address)) :
    Option (Stream Address) → Prop
  | absent (hfunding : ls.flatMap (Label.funding id) = [])
      (hpayouts : ls.flatMap (Label.payouts id) = [])
      (hrefunds : ls.flatMap (Label.refunds id) = []) : Accounted this id ls none
  | stored {stream : Stream Address} (hfunding : ls.flatMap (Label.funding id) ≠ [])
      (hpayouts : Addressed stream.token this stream.recipient (ls.flatMap (Label.payouts id)))
      (hrefunds : Addressed stream.token this stream.sender (ls.flatMap (Label.refunds id)))
      (hreceived : received id ls = stream.withdrawn.toInt)
      (hlive : stream.cancelled = false → ls.flatMap (Label.refunds id) = [])
      (honce : (ls.flatMap (Label.refunds id)).length ≤ 1)
      (hfunded : funded id ls = stream.totalAmount.toInt + refunded id ls) :
      Accounted this id ls (some stream)

namespace Accounted

variable {this : Address} {id : UInt64} {ls : List (Label Address)} {l : Label Address}

theorem received_eq {record : Option (Stream Address)} (h : Accounted this id ls record) :
    received id ls = record.elim 0 fun s => s.withdrawn.toInt := by
  cases h with
  | absent _ hpayouts _ =>
    rw [received, hpayouts]
    rfl
  | stored _ _ _ hreceived _ _ _ => exact hreceived

/-- A step that does not concern the stream leaves its account as it is. -/
theorem skip {record : Option (Stream Address)} (h : Accounted this id ls record)
    (hfunding : l.funding id = []) (hpayouts : l.payouts id = []) (hrefunds : l.refunds id = []) :
    Accounted this id (ls ++ [l]) record := by
  have hpaid : (ls ++ [l]).flatMap (Label.payouts id) = ls.flatMap (Label.payouts id) := by
    simp [hpayouts]
  have hback : (ls ++ [l]).flatMap (Label.refunds id) = ls.flatMap (Label.refunds id) := by
    simp [hrefunds]
  have hput : (ls ++ [l]).flatMap (Label.funding id) = ls.flatMap (Label.funding id) := by
    simp [hfunding]
  cases h with
  | absent h₁ h₂ h₃ => exact .absent (hput.trans h₁) (hpaid.trans h₂) (hback.trans h₃)
  | stored h₁ h₂ h₃ hreceived hlive honce hfunded =>
    refine .stored ?_ ?_ ?_ ?_ ?_ ?_ ?_
    · rwa [hput]
    · rwa [hpaid]
    · rwa [hback]
    · rwa [received, hpaid]
    · rwa [hback]
    · rwa [hback]
    · rwa [funded, refunded, hput, hback]

/-- A settlement is entered in the account of its stream: what it pays is counted, and
what it refunds comes off the total and closes the stream. -/
theorem extend {stream stream' : Stream Address} (h : Accounted this id ls (some stream))
    (hparties : stream'.sender = stream.sender ∧ stream'.recipient = stream.recipient ∧
      stream'.token = stream.token)
    (hfunding : l.funding id = [])
    (hpaid : Addressed stream.token this stream.recipient (l.payouts id))
    (hback : Addressed stream.token this stream.sender (l.refunds id))
    (hcount : stream'.withdrawn.toInt = stream.withdrawn.toInt + amounts (l.payouts id))
    (htotal : stream'.totalAmount.toInt = stream.totalAmount.toInt - amounts (l.refunds id))
    (hrefunds : l.refunds id = [] ∧ stream'.cancelled = stream.cancelled ∨
      (l.refunds id).length = 1 ∧ stream.cancelled = false ∧ stream'.cancelled = true) :
    Accounted this id (ls ++ [l]) (some stream') := by
  obtain ⟨hsender, hrecipient, htoken⟩ := hparties
  cases h with
  | stored hput htargets hsenders hreceived hlive honce hfunded =>
  refine .stored ?_ ?_ ?_ ?_ ?_ ?_ ?_
  · simp [hfunding, hput]
  · rw [List.flatMap_append, List.flatMap_singleton, htoken, hrecipient]
    exact htargets.append hpaid
  · rw [List.flatMap_append, List.flatMap_singleton, htoken, hsender]
    exact hsenders.append hback
  · rw [received_snoc, hreceived, hcount]
  · intro hopen
    rcases hrefunds with ⟨hnone, hsame⟩ | ⟨_, _, hclosed⟩
    · simp [hlive (hsame.symm.trans hopen), hnone]
    · rw [hclosed] at hopen
      cases hopen
  · rw [List.flatMap_append, List.flatMap_singleton, List.length_append]
    rcases hrefunds with ⟨hnone, _⟩ | ⟨hone, hopen, _⟩
    · rw [hnone]
      exact honce
    · rw [hlive hopen, hone]
      exact le_rfl
  · rw [funded_snoc, refunded_snoc, hfunding, amounts_nil]
    omega

theorem touched {w w' : World Address} {stream : Stream Address}
    (hformed : stream.WellFormed w.timestamp)
    (h : Accounted w.contractAddress id ls (some stream)) (hfunding : l.funding id = [])
    (htouch : Touch w l w' id stream) :
    Accounted w.contractAddress id (ls ++ [l]) (w'.streams id) := by
  obtain ⟨hpaid, hback⟩ := htouch.addressed
  cases htouch with
  | kept hstream _ hpayouts hrefunds _ =>
    rw [hstream]
    exact h.skip hfunding hpayouts hrefunds
  | paid amount hpos hle hstream _ hpayouts hrefunds _ =>
    have hcount := hformed.toInt_pay hpos hle
    rw [hstream]
    refine h.extend ⟨rfl, rfl, rfl⟩ hfunding hpaid hback ?_ ?_ (Or.inl ⟨hrefunds, rfl⟩)
    · simpa [hpayouts, amounts] using hcount
    · simp [hrefunds, Stream.pay]
  | closed hopen _ hstream _ hpayouts hrefunds _ =>
    have hvested := hformed.toInt_vestedUnits w.timestamp
    have hrefund := hformed.toInt_refund
    rw [hstream]
    refine h.extend ⟨rfl, rfl, rfl⟩ hfunding hpaid hback ?_ ?_ (Or.inr ⟨?_, hopen, rfl⟩)
    · simp [hpayouts, Stream.close]
    · simp [hrefunds, amounts, Stream.close, hvested, hrefund]
    · simp [hrefunds]

theorem opened {env : Env Address} {o : Opening Address} {receipt : Receipt Address}
    {source : Address} (h : Accounted this id ls none)
    (hresult : receipt.result = .ok (.id id))
    (htransfers : receipt.transfers = [⟨o.token, o.sender, source, o.totalAmount⟩]) :
    Accounted this id (ls ++ [.call env o.call receipt]) (some o.stream) := by
  have hentry : (Label.call env o.call receipt).funding id =
      [⟨o.token, o.sender, source, o.totalAmount⟩] := by
    cases receipt
    cases hresult
    cases htransfers
    exact if_pos rfl
  cases h with
  | absent hfunding hpayouts hrefunds =>
  have hpaid : (ls ++ [Label.call env o.call receipt]).flatMap (Label.payouts id) = [] := by
    rw [List.flatMap_append, hpayouts]
    rfl
  have hback : (ls ++ [Label.call env o.call receipt]).flatMap (Label.refunds id) = [] := by
    rw [List.flatMap_append, hrefunds]
    rfl
  refine .stored ?_ ?_ ?_ ?_ ?_ ?_ ?_
  · simp [hentry]
  · rw [hpaid]
    intro t ht
    cases ht
  · rw [hback]
    intro t ht
    cases ht
  · rw [received, hpaid]
    rfl
  · exact fun _ => hback
  · rw [hback]
    exact Nat.zero_le 1
  · rw [funded_snoc, hentry, refunded, hback, funded, hfunding]
    simp [amounts, Opening.stream]

end Accounted

variable [DecidableEq Address]

/-- No stream is funded twice. -/
theorem Change.funding_of_stored {w w' : World Address} {l : Label Address} (hw : w.Sound)
    (h : Change w l w') {id : UInt64} {stream : Stream Address}
    (hstream : w.streams id = some stream) : l.funding id = [] := by
  cases h with
  | idle hrefused _ _ _ _ _ _ _ => exact Label.funding_of_refused hrefused id
  | opened env o next book hlabel _ _ _ _ =>
    subst hlabel
    have hne : w.streamCount.getD 0 ≠ id := by
      rintro rfl
      rw [hw.next_id_free] at hstream
      cases hstream
    exact if_neg hne
  | settled env op i s z book hlabel _ _ _ _ =>
    subst hlabel
    cases op <;> rfl

theorem Change.accounted {w w' : World Address} {l : Label Address} (hw : w.Sound)
    (h : Change w l w') {id : UInt64} {ls : List (Label Address)}
    (haccounted : Accounted w.contractAddress id ls (w.streams id)) :
    Accounted w.contractAddress id (ls ++ [l]) (w'.streams id) := by
  cases hrecord : w.streams id with
  | none =>
    rw [hrecord] at haccounted
    cases h with
    | idle hrefused _ htransfers _ _ hstreams _ _ =>
      obtain ⟨hpayouts, hrefunds, _⟩ := l.silent hrefused htransfers id
      rw [hstreams, hrecord]
      exact haccounted.skip (Label.funding_of_refused hrefused id) hpayouts hrefunds
    | opened env o next book hlabel _ _ _ hworld =>
      subst hlabel hworld
      change Accounted _ _ _ (Function.update w.streams (w.streamCount.getD 0) (some o.stream) id)
      by_cases hid : id = w.streamCount.getD 0
      · subst hid
        rw [Function.update_self]
        exact haccounted.opened rfl rfl
      · rw [Function.update_of_ne hid, hrecord]
        exact haccounted.skip (if_neg (Ne.symm hid)) rfl rfl
    | settled env op i s z book hlabel hs _ _ hworld =>
      subst hlabel hworld
      have hne : i ≠ id := by
        rintro rfl
        rw [hrecord] at hs
        cases hs
      change Accounted _ _ _ (Function.update w.streams i (some z.stream) id)
      rw [Function.update_of_ne hne.symm, hrecord]
      apply haccounted.skip <;> cases op <;>
        simp [StreamOp.call, Label.funding, Label.payouts, Label.refunds, hne]
  | some stream =>
    rw [hrecord] at haccounted
    exact haccounted.touched (hw.records id stream hrecord) (h.funding_of_stored hw hrecord)
      (h.touch hw hrecord)

theorem Fresh.accounted {w₀ w : World Address} {ls : List (Label Address)} (hfresh : Fresh w₀)
    (hrun : Run Step w₀ ls w) (id : UInt64) :
    Accounted w₀.contractAddress id ls (w.streams id) := by
  induction hrun with
  | nil =>
    rw [hfresh.streams]
    exact .absent rfl rfl rfl
  | @snoc ls m l m' hrun hstep ih =>
    have hsound := hfresh.sound.run hrun
    rw [← hfresh.sound.run_contractAddress hrun] at ih ⊢
    exact (hstep.change hsound).accounted hsound ih

end TricklePay
