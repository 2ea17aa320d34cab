import TricklePay.Spec.Agreement
import TricklePay.Proofs.Acceptance

/-!
# The contract refines its agreements

`cancel` rewrites the total and the whole window of a record. `Describes` says that
what it leaves is the record of an agreement that has only been stopped, and the
contract takes no step that the agreements do not answer.
-/

namespace TricklePay

open Checked Transition

variable {Address : Type}

namespace Agreement

/-- The record with the parties, the window and the total of the agreement. -/
def origin (g : Agreement Address) (stream : Stream Address) : Stream Address :=
  { stream with
    sender := g.sender
    recipient := g.recipient
    token := g.token
    totalAmount := g.terms.totalAmount
    startTime := g.terms.startTime
    endTime := g.terms.endTime
    cliffTime := g.terms.cliffTime
    cancelled := false }

/-- The record the contract keeps for the agreement. -/
def record (g : Agreement Address) (stream : Stream Address) : Stream Address :=
  match g.stopped with
  | none => g.origin stream
  | some n => (g.origin stream).close (Signed.wrap (g.terms.vested n)) n

/-- The record at `now` is the one the agreement prescribes. -/
structure Describes (g : Agreement Address) (now : UInt64) (stream : Stream Address) : Prop where
  total_pos : 0 < g.terms.totalAmount.toInt
  total_le : g.terms.totalAmount.toInt ≤ maxAmount.toInt
  stopped_le : ∀ n, g.stopped = some n → n.toNat ≤ now.toNat
  stopped_lt : ∀ n, g.stopped = some n → n.toNat < g.terms.endTime.toNat
  paid : stream.withdrawn.toInt = g.paid
  record : stream = g.record stream

namespace Describes

variable {g : Agreement Address} {now later : UInt64} {stream : Stream Address}

theorem toInt_vested (h : g.Describes now stream) (t : UInt64) :
    (Signed.wrap (g.terms.vested t) : I128).toInt = g.terms.vested t :=
  Signed.toInt_wrap_of_fits (by omega)
    (fits_of_le (gatedFloor_nonneg h.total_pos.le _ _ _ _)
      ((gatedFloor_le_total h.total_pos.le _ _ _ _).trans h.total_le))

/-- From now on the record releases what the agreement entitles to. -/
theorem vested_eq (h : g.Describes now stream) {t : UInt64} (ht : now.toNat ≤ t.toNat) :
    stream.vested t = g.entitlement t := by
  rw [h.record]
  unfold Agreement.record entitlement clock
  cases hstopped : g.stopped with
  | none => rfl
  | some n =>
    have hn := (h.stopped_le n hstopped).trans ht
    have hmin : min t n = n := by
      rw [← UInt64.toNat_inj, U64.toNat_min]
      exact min_eq_right hn
    dsimp only
    rw [Stream.vested_close _ _ hn, h.toInt_vested, hmin]

/-- The code's own formula computes the entitlement, at the stopped clock. -/
theorem formula (h : g.Describes now stream) (t : UInt64) :
    ∃ v, vestedAmount g.terms.totalAmount g.terms.startTime g.terms.endTime g.terms.cliffTime
      (g.clock t) = .ok v ∧ v.toInt = g.entitlement t :=
  vestedAmount_spec h.total_pos.le h.total_le _ _ _ _

theorem cancelled_iff (h : g.Describes now stream) :
    stream.cancelled = false ↔ g.stopped = none := by
  rw [h.record]
  unfold Agreement.record
  cases g.stopped with
  | none => simp [origin]
  | some n => simp [Stream.close]

theorem running (h : g.Describes now stream) (hlive : stream.cancelled = false) :
    g.stopped = none ∧ stream = g.origin stream := by
  have hstopped := h.cancelled_iff.mp hlive
  have hrecord := h.record
  unfold Agreement.record at hrecord
  rw [hstopped] at hrecord
  exact ⟨hstopped, hrecord⟩

theorem terms_of_live (h : g.Describes now stream) (hlive : stream.cancelled = false) :
    stream.totalAmount = g.terms.totalAmount ∧ stream.endTime = g.terms.endTime := by
  rw [(h.running hlive).2]
  exact ⟨rfl, rfl⟩

theorem parties (h : g.Describes now stream) :
    stream.sender = g.sender ∧ stream.recipient = g.recipient ∧ stream.token = g.token := by
  rw [h.record]
  unfold Agreement.record
  cases g.stopped <;> exact ⟨rfl, rfl, rfl⟩

/-- What the record has available is what is due and not yet paid. -/
theorem available_eq (h : g.Describes now stream) (hformed : stream.WellFormed now) :
    (stream.available now).toInt = g.entitlement now - g.paid := by
  rw [hformed.toInt_available, h.vested_eq le_rfl, h.paid]

theorem advance (h : g.Describes now stream) (hle : now.toNat ≤ later.toNat) :
    g.Describes later stream :=
  { h with stopped_le := fun n hn => (h.stopped_le n hn).trans hle }

theorem pay (h : g.Describes now stream) (hformed : stream.WellFormed now) {amount : I128}
    (hpos : 0 < amount.toInt) (hle : amount.toInt ≤ (stream.available now).toInt) :
    Describes { g with paid := g.paid + amount.toInt } now (stream.pay amount) where
  total_pos := h.total_pos
  total_le := h.total_le
  stopped_le := h.stopped_le
  stopped_lt := h.stopped_lt
  paid := by rw [hformed.toInt_pay hpos hle, h.paid]
  record := by
    have hrecord := h.record
    unfold Agreement.record at hrecord ⊢
    dsimp only
    cases hstopped : g.stopped with
    | none =>
      rw [hstopped] at hrecord
      exact congrArg (fun s : Stream Address => s.pay amount) hrecord
    | some n =>
      rw [hstopped] at hrecord
      exact congrArg (fun s : Stream Address => s.pay amount) hrecord

theorem close (h : g.Describes now stream) (hlive : stream.cancelled = false)
    (hend : now.toNat < stream.endTime.toNat) :
    Describes { g with stopped := some now } now (stream.close (stream.vestedUnits now) now) := by
  refine ⟨h.total_pos, h.total_le, ?_, ?_, h.paid, ?_⟩
  · intro n hn
    cases hn
    exact le_rfl
  · intro n hn
    cases hn
    rw [← (h.terms_of_live hlive).2]
    exact hend
  · rw [(h.running hlive).2]
    rfl

end Describes
end Agreement

/-! ### The simulation -/

/-- The ledger stores exactly the agreed streams, each as agreed. -/
structure Realizes (w : World Address) (a : Agreements Address) : Prop where
  now : a.now = w.timestamp
  stored : ∀ id, (a.entries id).isSome = (w.streams id).isSome
  described : ∀ id stream g, w.streams id = some stream → a.entries id = some g →
    g.Describes w.timestamp stream

namespace Realizes

variable {w w' : World Address} {a : Agreements Address}

theorem unchanged (h : Realizes w a) (htime : w'.timestamp = w.timestamp)
    (hstreams : w'.streams = w.streams) : Realizes w' a where
  now := h.now.trans htime.symm
  stored := by
    intro id
    rw [hstreams]
    exact h.stored id
  described := by
    intro id stream g hstream hentry
    rw [hstreams] at hstream
    rw [htime]
    exact h.described id stream g hstream hentry

theorem set (h : Realizes w a) {id : UInt64} {stream : Stream Address} {g : Agreement Address}
    (htime : w'.timestamp = w.timestamp)
    (hstreams : w'.streams = Function.update w.streams id (some stream))
    (hdescribes : g.Describes w.timestamp stream) : Realizes w' (a.set id g) where
  now := h.now.trans htime.symm
  stored := by
    intro i
    rw [hstreams]
    change (Function.update a.entries id (some g) i).isSome = _
    by_cases hid : i = id
    · subst hid
      simp
    · rw [Function.update_of_ne hid, Function.update_of_ne hid]
      exact h.stored i
  described := by
    intro i s g' hs hentry
    rw [hstreams] at hs
    rw [htime]
    change Function.update a.entries id (some g) i = some g' at hentry
    by_cases hid : i = id
    · subst hid
      rw [Function.update_self] at hs hentry
      cases hs
      cases hentry
      exact hdescribes
    · rw [Function.update_of_ne hid] at hs hentry
      exact h.described i s g' hs hentry

theorem entry (h : Realizes w a) {id : UInt64} {stream : Stream Address}
    (hstream : w.streams id = some stream) :
    ∃ g, a.entries id = some g ∧ g.Describes w.timestamp stream := by
  have hstored := h.stored id
  rw [hstream, Option.isSome_some, Option.isSome_iff_exists] at hstored
  obtain ⟨g, hg⟩ := hstored
  exact ⟨g, hg, h.described id stream g hstream hg⟩

end Realizes

/-- A settling call that succeeds is a payment that is due, or stops a running stream. -/
theorem Realizes.settled {w w' : World Address} {a : Agreements Address} (h : Realizes w a)
    (hw : w.Sound) {env : Env Address} {op : StreamOp} {id : UInt64} {stream : Stream Address}
    {z : Settled Address} (hstream : w.streams id = some stream)
    (houtcome : op.Outcome w.timestamp id stream z) (htime : w'.timestamp = w.timestamp)
    (hstreams : w'.streams = Function.update w.streams id (some z.stream)) :
    ∃ a', Agreements.Step w.contractAddress a (.call env (op.call id)
      ⟨w.timestamp, .ok (.amount z.amount),
        [⟨stream.token, w.contractAddress, op.party stream, z.amount⟩], [z.event]⟩) a' ∧
      Realizes w' a' := by
  have hformed := hw.records id stream hstream
  obtain ⟨g, hentry, hdescribes⟩ := h.entry hstream
  obtain ⟨hsender, hrecipient, htoken⟩ := hdescribes.parties
  have havailable := hdescribes.available_eq hformed
  cases houtcome with
  | paid select amount hselect hamount hpos hle hz =>
    subst hz
    refine ⟨_, ?_, h.set htime hstreams (hdescribes.pay hformed hpos hle)⟩
    rw [op.party_of_select hselect stream, htoken, hrecipient]
    cases op with
    | withdraw =>
      cases hselect
      refine .withdrawn rfl rfl hentry hpos ?_
      rw [selectAll_eq hamount, havailable, h.now]
    | withdrawAmount requested =>
      cases hselect
      obtain rfl : amount = requested := selectAmount_eq hamount
      refine .withdrawnAmount rfl rfl hentry hpos ?_
      rw [h.now, ← havailable]
      exact hle
    | cancel => cases hselect
  | closed hop hlive hend hz =>
    subst hop hz
    obtain ⟨htotal, hwindow⟩ := hdescribes.terms_of_live hlive
    have hparty : StreamOp.cancel.party stream = g.sender := hsender
    rw [hparty, htoken]
    refine ⟨_, .cancelled rfl rfl hentry (hdescribes.running hlive).1 ?_ ?_, ?_⟩
    · rw [h.now, UInt64.lt_iff_toNat_lt, ← hwindow]
      exact hend
    · rw [hformed.toInt_refund, hdescribes.vested_eq le_rfl, htotal, h.now]
    · rw [h.now]
      exact h.set htime hstreams (hdescribes.close hlive hend)

/-- A creation that succeeds enters a new agreement on the terms asked for. -/
theorem Realizes.opened {w w' : World Address} {a : Agreements Address} (h : Realizes w a)
    (hw : w.Sound) {env : Env Address} {o : Opening Address} {events : List (Event Address)}
    (hvalid : o.Valid w.contractAddress w.timestamp) (htime : w'.timestamp = w.timestamp)
    (hstreams : w'.streams =
      Function.update w.streams (w.streamCount.getD 0) (some o.stream)) :
    ∃ a', Agreements.Step w.contractAddress a (.call env o.call
      ⟨w.timestamp, .ok (.id (w.streamCount.getD 0)),
        [⟨o.token, o.sender, w.contractAddress, o.totalAmount⟩], events⟩) a' ∧
      Realizes w' a' := by
  have hnew : a.entries (w.streamCount.getD 0) = none := by
    have hstored := h.stored (w.streamCount.getD 0)
    rw [hw.next_id_free] at hstored
    simpa using hstored
  refine ⟨_, .created rfl rfl hnew, h.set htime hstreams ?_⟩
  refine ⟨hvalid.total_pos, hvalid.total_le, ?_, ?_, rfl, rfl⟩
  · intro n hn
    cases hn
  · intro n hn
    cases hn

variable [DecidableEq Address]

theorem Realizes.step {w w' : World Address} {a : Agreements Address} {l : Label Address}
    (h : Realizes w a) (hw : w.Sound) (hstep : Step w l w') :
    ∃ a', Agreements.Step w.contractAddress a l a' ∧ Realizes w' a' := by
  cases hstep with
  | @clock t sequence htime hsequence =>
    refine ⟨{ a with now := t }, .clock (h.now ▸ htime), rfl, h.stored, ?_⟩
    intro id stream g hstream hentry
    exact (h.described id stream g hstream hentry).advance (UInt64.le_iff_toNat_le.mp htime)
  | credited hsource hamount hbook => exact ⟨a, .deposit, h.unchanged rfl rfl⟩
  | refused hbook => exact ⟨a, .deposit, h⟩
  | bookkeeping => exact ⟨a, .bookkeeping, h.unchanged rfl rfl⟩
  | call hinvoke =>
    have htime := World.invoke_timestamp hinvoke
    cases (Step.call hinvoke).change hw with
    | idle hrefused _ htransfers _ _ hstreams _ _ =>
      exact ⟨a, .unchanged hrefused htransfers, h.unchanged htime hstreams⟩
    | opened env o next book hlabel hvalid _ _ hworld =>
      rw [hlabel]
      exact h.opened hw hvalid htime (by rw [hworld]; rfl)
    | settled env op id stream z book hlabel hstream houtcome _ hworld =>
      rw [hlabel]
      exact h.settled hw hstream houtcome htime (by rw [hworld]; rfl)

/-! ### What the agreement decides -/

/-- What the record and the views of stream `id` report is what its agreement says. -/
structure Honours (w : World Address) (id : UInt64) (stream : Stream Address)
    (g : Agreement Address) : Prop where
  sender : stream.sender = g.sender
  recipient : stream.recipient = g.recipient
  token : stream.token = g.token
  withdrawn : stream.withdrawn.toInt = g.paid
  paid_le : g.paid ≤ g.entitlement w.timestamp
  formula : ∀ t, ∃ v, vestedAmount g.terms.totalAmount g.terms.startTime g.terms.endTime
    g.terms.cliffTime (g.clock t) = .ok v ∧ v.toInt = g.entitlement t
  vested : ∃ v, (∀ env, w.answer env (.vested id) = .ok (.amount v)) ∧
    v.toInt = g.entitlement w.timestamp
  withdrawable : ∃ v, (∀ env, w.answer env (.withdrawable id) = .ok (.amount v)) ∧
    v.toInt = g.entitlement w.timestamp - g.paid
  vestedAt : ∀ t, w.timestamp ≤ t → ∃ v,
    (∀ env, w.answer env (.vestedAt id t) = .ok (.amount v)) ∧ v.toInt = g.entitlement t

/-- What an authorized settling call with a conforming token does is what the
agreement allows, and what it allows is paid. -/
structure Performs (w : World Address) (id : UInt64) (g : Agreement Address)
    (env : Env Address) : Prop where
  withdrawAmount : env.authorized g.recipient = true → ∀ amount : I128,
    (∃ response, w.answer env (.withdrawAmount id amount) = .ok response) ↔
      0 < amount.toInt ∧ amount.toInt ≤ g.entitlement w.timestamp - g.paid
  paid : env.authorized g.recipient = true → ∀ (amount : I128) response,
    w.answer env (.withdrawAmount id amount) = .ok response →
      w.Pays env (.withdrawAmount id amount) g.token g.recipient amount
  withdraw : env.authorized g.recipient = true → 0 < g.entitlement w.timestamp - g.paid →
    ∃ amount : I128, amount.toInt = g.entitlement w.timestamp - g.paid ∧
      w.Pays env (.withdraw id) g.token g.recipient amount
  cancel : env.authorized g.sender = true →
    ((∃ response, w.answer env (.cancel id) = .ok response) ↔
      g.stopped = none ∧ w.timestamp < g.terms.endTime)
  refund : env.authorized g.sender = true → ∀ response,
    w.answer env (.cancel id) = .ok response →
      ∃ refund : I128, refund.toInt = g.terms.totalAmount.toInt - g.entitlement w.timestamp ∧
        w.Pays env (.cancel id) g.token g.sender refund

section Decide

variable {w : World Address} {id : UInt64} {stream : Stream Address} {g : Agreement Address}

theorem Agreement.Describes.honours (h : g.Describes w.timestamp stream) (hw : w.Sound)
    (hstream : w.streams id = some stream) : Honours w id stream g := by
  have hformed := hw.records id stream hstream
  have hvested := h.vested_eq (le_refl w.timestamp.toNat)
  obtain ⟨hsender, hrecipient, htoken⟩ := h.parties
  refine ⟨hsender, hrecipient, htoken, h.paid, ?_, h.formula, ?_, ?_, ?_⟩
  · rw [← h.paid, ← hvested]
    exact hformed.withdrawn_le
  · refine ⟨_, (hw.stores hstream).answer_vested, ?_⟩
    rw [hformed.toInt_vestedUnits, hvested]
  · refine ⟨_, (hw.stores hstream).answer_withdrawable, ?_⟩
    rw [hformed.toInt_available, hvested, h.paid]
  · intro t ht
    refine ⟨_, fun env => (hw.stores hstream).answer_vestedAt env t, ?_⟩
    rw [hformed.toInt_vestedUnits, h.vested_eq (UInt64.le_iff_toNat_le.mp ht)]

theorem World.Sound.withdrawAmount_pays (hw : w.Sound) (hstream : w.streams id = some stream)
    (hsurplus : 0 ≤ w.surplus stream.token) {env : Env Address}
    (hconforming : (env.token stream.token).Conforming)
    (hauth : env.authorized stream.recipient = true) {amount : I128} {response : Response Address}
    (hresponse : w.answer env (.withdrawAmount id amount) = .ok response) :
    w.Pays env (.withdrawAmount id amount) stream.token stream.recipient amount := by
  have haccepts := (hw.accepts hstream hsurplus hconforming).withdrawAmount hauth amount
  split_ifs at haccepts with hpos hle
  · rw [haccepts] at hresponse
    cases hresponse
  · rw [haccepts] at hresponse
    cases hresponse
  · exact haccepts.toPays

variable (h : g.Describes w.timestamp stream) (hw : w.Sound) (hstream : w.streams id = some stream)
  (hsurplus : 0 ≤ w.surplus stream.token) {env : Env Address}
  (hconforming : (env.token stream.token).Conforming)
include h hw hstream hsurplus hconforming

theorem Agreement.Describes.withdrawAmount_succeeds_iff
    (hauth : env.authorized stream.recipient = true) (amount : I128) :
    (∃ response, w.answer env (.withdrawAmount id amount) = .ok response) ↔
      0 < amount.toInt ∧ amount.toInt ≤ g.entitlement w.timestamp - g.paid := by
  have havailable := h.available_eq (hw.records id stream hstream)
  rw [hw.answer_withdrawAmount hstream hsurplus hconforming hauth]
  simp only [Signed.le_iff, Signed.lt_iff, Signed.toInt_zero, havailable]
  split_ifs with hpos hle
  · simp only [exists_false, false_iff]
    omega
  · simp only [exists_false, false_iff]
    omega
  · simp only [Except.ok.injEq, exists_eq', true_iff]
    omega

theorem Agreement.Describes.withdraw_pays (hauth : env.authorized stream.recipient = true)
    (hdue : 0 < g.entitlement w.timestamp - g.paid) :
    ∃ amount : I128, amount.toInt = g.entitlement w.timestamp - g.paid ∧
      w.Pays env (.withdraw id) stream.token stream.recipient amount := by
  have havailable := h.available_eq (hw.records id stream hstream)
  have hpos : stream.available w.timestamp ≠ 0 := by
    intro hzero
    rw [hzero, Signed.toInt_zero] at havailable
    omega
  have haccepts := (hw.accepts hstream hsurplus hconforming).withdraw hauth
  exact ⟨stream.available w.timestamp, havailable, ((if_neg hpos).mp haccepts).toPays⟩

theorem Agreement.Describes.cancel_succeeds_iff (hauth : env.authorized stream.sender = true) :
    (∃ response, w.answer env (.cancel id) = .ok response) ↔
      g.stopped = none ∧ w.timestamp < g.terms.endTime := by
  rw [hw.answer_cancel hstream hsurplus hconforming hauth]
  constructor
  · rintro ⟨response, hresponse⟩
    unfold Stream.preview at hresponse
    split_ifs at hresponse with hcancelled hend
    · cases hresponse
    · cases hresponse
    · rw [Bool.not_eq_true] at hcancelled
      rw [(h.terms_of_live hcancelled).2] at hend
      exact ⟨(h.running hcancelled).1, UInt64.not_le.mp hend⟩
  · rintro ⟨hstopped, hend⟩
    have hlive := h.cancelled_iff.mpr hstopped
    rw [← (h.terms_of_live hlive).2] at hend
    rw [Stream.preview, hlive, if_neg (by decide), if_neg (UInt64.not_le.mpr hend)]
    exact ⟨_, rfl⟩

theorem Agreement.Describes.cancel_refunds (hauth : env.authorized stream.sender = true)
    {response : Response Address} (hresponse : w.answer env (.cancel id) = .ok response) :
    ∃ refund : I128, refund.toInt = g.terms.totalAmount.toInt - g.entitlement w.timestamp ∧
      w.Pays env (.cancel id) stream.token stream.sender refund := by
  have haccepts := (hw.accepts hstream hsurplus hconforming).cancel hauth
  split_ifs at haccepts with hcancelled hend
  · rw [haccepts] at hresponse
    cases hresponse
  · rw [haccepts] at hresponse
    cases hresponse
  · rw [Bool.not_eq_true] at hcancelled
    refine ⟨stream.refund w.timestamp, ?_, haccepts.toPays⟩
    rw [(hw.records id stream hstream).toInt_refund, h.vested_eq le_rfl,
      (h.terms_of_live hcancelled).1]

theorem Agreement.Describes.performs : Performs w id g env := by
  obtain ⟨hsender, hrecipient, htoken⟩ := h.parties
  constructor
  · rw [← hrecipient]
    exact h.withdrawAmount_succeeds_iff hw hstream hsurplus hconforming
  · rw [← hrecipient, ← htoken]
    exact fun hauth _ _ => hw.withdrawAmount_pays hstream hsurplus hconforming hauth
  · rw [← hrecipient, ← htoken]
    exact h.withdraw_pays hw hstream hsurplus hconforming
  · rw [← hsender]
    exact h.cancel_succeeds_iff hw hstream hsurplus hconforming
  · rw [← hsender, ← htoken]
    exact fun hauth _ => h.cancel_refunds hw hstream hsurplus hconforming hauth

end Decide

/-- Cancelling by rewriting the record is stopping the original schedule. Every run
of the contract is a run of the agreements under the same labels; at every ledger
reached the views report the agreement; and, with tokens that conform, the calls
succeed and pay exactly as the agreement says. -/
theorem contract_refines_agreements {w₀ w : World Address} {ls : List (Label Address)}
    (hfresh : Fresh w₀) (hrun : Run Step w₀ ls w) :
    ∃ a, Run (Agreements.Step w₀.contractAddress) ⟨w₀.timestamp, fun _ => none⟩ ls a ∧
      a.now = w.timestamp ∧
      (∀ id, (a.entries id).isSome = (w.streams id).isSome) ∧
      ∀ id stream, w.streams id = some stream → ∃ g, a.entries id = some g ∧
        Honours w id stream g ∧
        ((∀ l ∈ ls, l.ExactFor stream.token w₀.contractAddress) →
          ∀ env : Env Address, (env.token stream.token).Conforming →
            Performs w id g env) := by
  have hsound := hfresh.sound.run hrun
  have hinitial : Realizes w₀ ⟨w₀.timestamp, fun _ => none⟩ := by
    refine ⟨rfl, ?_, ?_⟩
    · intro id
      rw [hfresh.streams]
      rfl
    · intro id stream g hstream hentry
      cases hentry
  obtain ⟨a, hsimulation, hrealizes⟩ := hrun.simulate Realizes
    (fun _ _ _ _ _ hbefore hm hstep => hfresh.sound.run_contractAddress hbefore ▸
      hm.step (hfresh.sound.run hbefore) hstep) hinitial
  refine ⟨a, hsimulation, hrealizes.now, hrealizes.stored, ?_⟩
  intro id stream hstream
  obtain ⟨g, hentry, hdescribes⟩ := hrealizes.entry hstream
  refine ⟨g, hentry, hdescribes.honours hsound hstream, ?_⟩
  intro hexact env hconforming
  have hreachable : ReachableWith stream.token w := ⟨w₀, ls, hfresh, hrun, hexact⟩
  exact hdescribes.performs hsound hstream hreachable.surplus_nonneg hconforming

theorem contract_refines_agreements_cancelled :
    ∃ a, Run (Agreements.Step 0) ⟨0, fun _ => none⟩ Sample.cancelledLabels a ∧
      ∃ g, a.entries 0 = some g ∧
        Honours Sample.cancelled 0 Sample.remnant g ∧
        Performs Sample.cancelled 0 g Sample.env := by
  obtain ⟨a, hsimulation, _, _, hentries⟩ :=
    contract_refines_agreements Sample.genesis_fresh
      (Sample.drained_run.append Sample.cancelled_run)
  obtain ⟨g, hentry, hhonours, hperforms⟩ := hentries 0 _ Sample.cancelled_stream
  exact ⟨a, hsimulation, g, hentry, hhonours,
    hperforms (Sample.cancelledLabels_exact _) Sample.env Sample.ledgerToken_conforming⟩

end TricklePay
