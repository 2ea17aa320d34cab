import TricklePay.Proofs.Isolation

/-!
# Plans of withdrawals

When an amount falls due can be computed from the schedule alone. So can whether a
whole plan of partial withdrawals will be met: each of them is, exactly if everything
drawn up to and including it has fallen due by its time.
-/

namespace TricklePay

open Checked Replay

variable {Address : Type}

/-! ### One draw -/

namespace Stream

/-- The ledger time at which `amount` units of a live stream have vested. -/
def due (stream : Stream Address) (amount : ℤ) : ℕ :=
  gatedDue stream.totalAmount.toInt stream.startTime.toNat stream.endTime.toNat
    stream.cliffTime.toNat amount

/-- Every amount of the plan is due at its time, when `drawn` has been drawn before. -/
def Affords (stream : Stream Address) (drawn : ℤ) : List (UInt64 × I128) → Prop
  | [] => True
  | (time, amount) :: plan =>
    (0 < amount.toInt ∧ drawn + amount.toInt ≤ stream.totalAmount.toInt ∧
      stream.due (drawn + amount.toInt) ≤ time.toNat) ∧
    stream.Affords (drawn + amount.toInt) plan

theorem affords_pay (stream : Stream Address) (amount : I128) (drawn : ℤ)
    (plan : List (UInt64 × I128)) : (stream.pay amount).Affords drawn plan ↔
      stream.Affords drawn plan := by
  induction plan generalizing drawn with
  | nil => exact Iff.rfl
  | cons draw plan ih => exact and_congr Iff.rfl (ih _)

variable {stream : Stream Address} {now : UInt64}

theorem WellFormed.le_vested_iff (h : stream.WellFormed now) (hlive : stream.cancelled = false)
    {amount : ℤ} (hpos : 0 < amount) (t : UInt64) :
    amount ≤ stream.vested t ↔
      amount ≤ stream.totalAmount.toInt ∧ stream.due amount ≤ t.toNat := by
  have hopen := (h.live hlive).1
  constructor
  · intro hvested
    have hle := hvested.trans (h.vested_le_total t)
    exact ⟨hle, (le_gatedFloor_iff hpos hle hopen).mp hvested⟩
  · rintro ⟨hle, hdue⟩
    exact (le_gatedFloor_iff hpos hle hopen).mpr hdue

theorem WellFormed.draw_due_iff (h : stream.WellFormed now) (hlive : stream.cancelled = false)
    (amount : ℤ) (t : UInt64) : 0 < amount ∧ stream.withdrawn.toInt + amount ≤ stream.vested t ↔
      0 < amount ∧ stream.withdrawn.toInt + amount ≤ stream.totalAmount.toInt ∧
        stream.due (stream.withdrawn.toInt + amount) ≤ t.toNat := by
  refine and_congr_right fun hpos => h.le_vested_iff hlive ?_ t
  have hdrawn := h.withdrawn_nonneg
  omega

end Stream

/-- The time and the amount of a partial withdrawal. -/
def Entry.draw (e : Entry Address) : UInt64 × I128 :=
  match e.op with
  | .withdrawAmount amount => (e.timestamp, amount)
  | .withdraw | .cancel => (e.timestamp, 0)

/-- The call is a partial withdrawal, and its receipt shows that contract `this` returned
its amount and moved it, once, from itself to the recipient of the stream. -/
def Entry.Paid (this : Address) (stream : Stream Address) (e : Entry Address)
    (receipt : Receipt Address) : Prop :=
  ∃ amount, e.op = .withdrawAmount amount ∧ receipt.result = .ok (.amount amount) ∧
    receipt.transfers = [⟨stream.token, this, stream.recipient, amount⟩]

section Record

variable {stream : Stream Address} {now : UInt64} {env : Env Address} {amount : I128}

theorem Stream.WellFormed.respond_due (h : stream.WellFormed now) (id : UInt64) (this : Address)
    (hauth : env.authorized stream.recipient = true) (hpos : 0 < amount.toInt)
    (hdue : stream.withdrawn.toInt + amount.toInt ≤ stream.vested now) :
    (StreamOp.withdrawAmount amount).respond env now id this (some stream) =
        (⟨now, .ok (.amount amount), [⟨stream.token, this, stream.recipient, amount⟩],
          [.withdrawn ⟨stream.recipient, id, amount⟩]⟩, some (stream.pay amount)) ∧
      (stream.pay amount).WellFormed now ∧
      (stream.pay amount).withdrawn.toInt = stream.withdrawn.toInt + amount.toInt := by
  have havailable := h.toInt_available
  have hle : amount.toInt ≤ (stream.available now).toInt := by omega
  have hselect : selectAmount amount (stream.available now) = .ok amount := by
    have hpositive : ¬ amount ≤ 0 := by
      rw [Signed.le_iff, Signed.toInt_zero]
      omega
    have hcovered : ¬ stream.available now < amount := by
      rw [Signed.lt_iff]
      omega
    unfold selectAmount
    rw [if_neg hpositive, if_neg hcovered]
  have hsettle := StreamOp.settle_select h
    (rfl : (StreamOp.withdrawAmount amount).select? = some (selectAmount amount)) id
  rw [hselect] at hsettle
  exact ⟨StreamOp.respond_ok hauth hsettle, h.pay hpos hle, h.toInt_pay hpos hle⟩

theorem Stream.WellFormed.respond_undue (h : stream.WellFormed now) (id : UInt64) (this : Address)
    (hauth : env.authorized stream.recipient = true)
    (hundue : ¬ (0 < amount.toInt ∧
      stream.withdrawn.toInt + amount.toInt ≤ stream.vested now)) (response : Response Address) :
    ((StreamOp.withdrawAmount amount).respond env now id this (some stream)).1.result ≠
      .ok response := by
  have havailable := h.toInt_available
  have hsettle := StreamOp.settle_select h
    (rfl : (StreamOp.withdrawAmount amount).select? = some (selectAmount amount)) id
  have hselect : ∃ e, selectAmount amount (stream.available now) = .error e := by
    unfold selectAmount
    by_cases hpos : amount ≤ 0
    · exact ⟨_, if_pos hpos⟩
    · have hlt : stream.available now < amount := by
        rw [Signed.le_iff, Signed.toInt_zero] at hpos
        rw [Signed.lt_iff]
        omega
      exact ⟨_, by rw [if_neg hpos, if_pos hlt]⟩
  obtain ⟨e, he⟩ := hselect
  rw [he] at hsettle
  rw [StreamOp.respond_error hauth hsettle]
  exact fun hok => by cases hok

/-! ### A plan -/

theorem Stream.WellFormed.draws_met_iff (h : stream.WellFormed now) (id : UInt64) (this : Address)
    (hlive : stream.cancelled = false) {entries : List (Entry Address)}
    (hlater : ∀ e ∈ entries, now ≤ e.timestamp)
    (hsorted : entries.Pairwise fun e f => e.timestamp ≤ f.timestamp)
    (hdraws : ∀ e ∈ entries, e.env.authorized stream.recipient = true ∧
      ∃ amount, e.op = .withdrawAmount amount) :
    (∀ x ∈ (replay (fun record e => StreamOp.respond e.op e.env e.timestamp id this record)
        (some stream) entries).1, x.1.Paid this stream x.2) ↔
      stream.Affords stream.withdrawn.toInt (entries.map Entry.draw) := by
  induction entries generalizing stream now with
  | nil => simp [Stream.Affords]
  | cons e entries ih =>
    obtain ⟨hfirst, hrest⟩ := List.pairwise_cons.mp hsorted
    obtain ⟨⟨hauth, amount, hop⟩, hlast⟩ := List.forall_mem_cons.mp hdraws
    have hnow := h.advance (UInt64.le_iff_toNat_le.mp (hlater e List.mem_cons_self))
    have hdraw : e.draw = (e.timestamp, amount) := by rw [Entry.draw, hop]
    simp only [replay_cons, List.forall_mem_cons, List.map_cons, hdraw, Stream.Affords, hop,
      ← hnow.draw_due_iff hlive]
    by_cases hdue : 0 < amount.toInt ∧
        stream.withdrawn.toInt + amount.toInt ≤ stream.vested e.timestamp
    · obtain ⟨hrespond, hformed, hwithdrawn⟩ := hnow.respond_due id this hauth hdue.1 hdue.2
      have hpaid : e.Paid this stream
          ((StreamOp.withdrawAmount amount).respond e.env e.timestamp id this (some stream)).1 := by
        rw [hrespond]
        exact ⟨amount, hop, rfl, rfl⟩
      have hmet := ih hformed hlive hfirst hrest hlast
      rw [stream.affords_pay, hwithdrawn] at hmet
      have hrecord := congrArg Prod.snd hrespond
      rw [hrecord, ← hmet]
      exact ⟨fun hboth => ⟨hdue, hboth.2⟩, fun hboth => ⟨hpaid, hboth.2⟩⟩
    · refine ⟨fun hboth => ?_, fun hboth => absurd hboth.1 hdue⟩
      obtain ⟨_, _, hresult, _⟩ := hboth.1
      exact absurd hresult (hnow.respond_undue id this hauth hdue _)

end Record

variable [DecidableEq Address]

/-- Plans can be checked beforehand. Take any reachable ledger, a live stream on it, and
any schedule of settling calls on any streams in which those on this one are draws its
recipient authorizes. All these draws are paid, each to the recipient and in the
amount it asks for, if and only if each of them is positive and everything drawn up to
it, what was drawn before included, is part of the deposit and has fallen due by its
time: which says nothing of the other calls, of other streams, or of when the other
draws are made. -/
theorem draws_met_iff_due {w : World Address} (h : ∀ token, ReachableWith token w) {id : UInt64}
    {stream : Stream Address} (hstream : w.streams id = some stream)
    (hlive : stream.cancelled = false) {entries : List (Entry Address)}
    (hlater : ∀ e ∈ entries, w.timestamp ≤ e.timestamp)
    (hsorted : entries.Pairwise fun e f => e.timestamp ≤ f.timestamp)
    (hconforming : ∀ e ∈ entries, ∀ token, (e.env.token token).Conforming)
    (hdraws : ∀ e ∈ entries, e.id = id → e.env.authorized stream.recipient = true ∧
      ∃ amount, e.op = .withdrawAmount amount) :
    (∀ x ∈ (replay World.execute w entries).1, x.1.id = id →
        x.1.Paid w.contractAddress stream x.2) ↔
      stream.Affords stream.withdrawn.toInt
        ((entries.filter fun e => decide (e.id = id)).map Entry.draw) := by
  have hschedule : Schedulable entries w :=
    ⟨(h w.contractAddress).reachable.sound, fun token => (h token).surplus_nonneg, hlater, hsorted,
      hconforming⟩
  have hown := hschedule.filter fun e => decide (e.id = id)
  have hmet := (hschedule.sound.records id stream hstream).draws_met_iff id
    w.contractAddress hlive hown.later hown.sorted fun e he => by
      obtain ⟨hmem, hid⟩ := List.mem_filter.mp he
      exact hdraws e hmem (of_decide_eq_true hid)
  rw [← hstream, ← (hschedule.project id).1] at hmet
  rw [← hmet]
  constructor
  · intro hall x hx
    obtain ⟨hmem, hid⟩ := List.mem_filter.mp hx
    exact hall x hmem (of_decide_eq_true hid)
  · intro hall x hx hid
    exact hall x (List.mem_filter.mpr ⟨hx, decide_eq_true hid⟩)

namespace Sample

/-- A quarter of the first stream is drawn, the second is cancelled, and more is drawn. -/
def drawing : List (Entry ℕ) :=
  [⟨3, 1, env, 0, .withdrawAmount (units 25)⟩, ⟨4, 1, env, 1, .cancel⟩,
    ⟨6, 2, env, 0, .withdrawAmount (units 30)⟩]

end Sample

theorem draws_met_iff_due_drawing :
    Sample.opening.stream.Affords 0
        ((Sample.drawing.filter fun e => decide (e.id = 0)).map Entry.draw) ∧
      ∀ x ∈ (replay World.execute Sample.twin Sample.drawing).1, x.1.id = 0 →
        x.1.Paid 0 Sample.opening.stream x.2 := by
  have hstream : Sample.twin.streams 0 = some Sample.opening.stream := rfl
  have haffords : Sample.opening.stream.Affords 0
      ((Sample.drawing.filter fun e => decide (e.id = 0)).map Entry.draw) :=
    ⟨⟨by decide, by decide, by decide⟩, ⟨by decide, by decide, by decide⟩, trivial⟩
  refine ⟨haffords, (draws_met_iff_due Sample.twin_reachableWith hstream rfl (by decide)
    (by decide) ?_ ?_).mpr haffords⟩
  · intro e he token
    simp only [Sample.drawing, List.mem_cons, List.not_mem_nil, or_false] at he
    rcases he with rfl | rfl | rfl <;> exact Sample.ledgerToken_conforming
  · intro e he hid
    simp only [Sample.drawing, List.mem_cons, List.not_mem_nil, or_false] at he
    rcases he with rfl | rfl | rfl
    · exact ⟨rfl, _, rfl⟩
    · cases hid
    · exact ⟨rfl, _, rfl⟩

end TricklePay
