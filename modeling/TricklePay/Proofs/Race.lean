import TricklePay.Proofs.Isolation
import TricklePay.Proofs.Trace

/-!
# A cancel racing with withdrawals

Within one ledger it does not matter where among the recipient's withdrawals the
sender's cancel is executed. Each withdrawal commutes with the cancel: closing the
window leaves what has vested, and what has been paid plays no part in the refund.
-/

namespace TricklePay

open Checked Transition Replay

variable {Address : Type}

/-- The event without the one field that depends on what was withdrawn before. -/
def Event.blur : Event Address → Event Address
  | .cancelled e => .cancelled { e with recipientAmount := 0 }
  | e => e

/-- The receipt up to the `recipientAmount` of a `Cancelled` event. -/
def Receipt.blur (receipt : Receipt Address) : Receipt Address :=
  { receipt with events := receipt.events.map Event.blur }

@[simp] theorem Receipt.blur_transfers (receipt : Receipt Address) :
    receipt.blur.transfers = receipt.transfers := rfl

section Record

variable {stream : Stream Address} {now : UInt64}

theorem preview_pay (amount : I128) :
    (stream.pay amount).preview now =
      (stream.preview now).map fun split => ⟨split.refund, (stream.pay amount).available now⟩ := by
  unfold Stream.preview
  split_ifs <;> first | rfl | simp_all [Stream.pay]

theorem Stream.WellFormed.available_close (h : stream.WellFormed now) :
    (stream.close (stream.vestedUnits now) now).available now = stream.available now := by
  unfold Stream.available
  rw [Stream.vested_close _ _ le_rfl, h.toInt_vestedUnits]
  rfl

/-- A withdrawal fails alike, or pays alike, before and after the stream is closed. -/
theorem StreamOp.respond_withdraw (h : stream.WellFormed now) {op : StreamOp}
    {select : I128 → Except StreamError I128} (hselect : op.select? = some select)
    (env : Env Address) (id : UInt64) (this : Address) :
    (∃ failure,
      op.respond env now id this (some stream) = (.failed now failure, some stream) ∧
      op.respond env now id this (some (stream.close (stream.vestedUnits now) now)) =
        (.failed now failure, some (stream.close (stream.vestedUnits now) now))) ∨
    ∃ amount receipt, (stream.pay amount).WellFormed now ∧
      op.respond env now id this (some stream) = (receipt, some (stream.pay amount)) ∧
      op.respond env now id this (some (stream.close (stream.vestedUnits now) now)) =
        (receipt, some ((stream.close (stream.vestedUnits now) now).pay amount)) := by
  have hparty := op.party_of_select hselect stream
  have hparty' : op.party (stream.close (stream.vestedUnits now) now) = stream.recipient :=
    op.party_of_select hselect _
  have hsettle := op.settle_select h hselect id
  have hsettle' := op.settle_select h.close hselect id
  rw [h.available_close] at hsettle'
  by_cases hauth : env.authorized stream.recipient = true
  · cases hamount : select (stream.available now) with
    | error e =>
      rw [hamount] at hsettle hsettle'
      exact Or.inl ⟨.error e, op.respond_error (hparty ▸ hauth) hsettle,
        op.respond_error (hparty' ▸ hauth) hsettle'⟩
    | ok amount =>
      rw [hamount] at hsettle hsettle'
      have hbound := StreamOp.select?_bounded hselect _ _ hamount
      refine Or.inr ⟨amount, _, h.pay hbound.1 hbound.2,
        op.respond_ok (hparty ▸ hauth) hsettle, ?_⟩
      rw [op.respond_ok (hparty' ▸ hauth) hsettle', hparty, hparty']
      rfl
  · exact Or.inl ⟨.unauthorized, op.respond_unauthorized (hparty ▸ hauth),
      op.respond_unauthorized (hparty' ▸ hauth)⟩

/-- A cancel fails alike, or refunds alike, before and after a withdrawal. -/
theorem StreamOp.respond_cancel (h : stream.WellFormed now) (env : Env Address) (id : UInt64)
    (this : Address) :
    (∃ failure,
      StreamOp.cancel.respond env now id this (some stream) = (.failed now failure, some stream) ∧
      ∀ amount, (stream.pay amount).WellFormed now →
        StreamOp.cancel.respond env now id this (some (stream.pay amount)) =
          (.failed now failure, some (stream.pay amount))) ∨
    ∃ receipt,
      StreamOp.cancel.respond env now id this (some stream) =
        (receipt, some (stream.close (stream.vestedUnits now) now)) ∧
      ∀ amount, (stream.pay amount).WellFormed now → ∃ receipt', receipt'.blur = receipt.blur ∧
        StreamOp.cancel.respond env now id this (some (stream.pay amount)) =
          (receipt', some ((stream.close (stream.vestedUnits now) now).pay amount)) := by
  have hsettle := settleCancel_preview h id
  by_cases hauth : env.authorized stream.sender = true
  · cases hpreview : stream.preview now with
    | error e =>
      rw [hpreview] at hsettle
      refine Or.inl ⟨.error e, StreamOp.respond_error hauth hsettle, fun amount hpaid => ?_⟩
      have hsettle' := settleCancel_preview hpaid id
      rw [preview_pay, hpreview] at hsettle'
      exact StreamOp.respond_error hauth hsettle'
    | ok split =>
      rw [hpreview] at hsettle
      have hclosed : StreamOp.cancel.settle now id stream = .ok _ := hsettle
      refine Or.inr ⟨⟨now, .ok (.amount split.refund),
        [⟨stream.token, this, stream.sender, split.refund⟩],
        [.cancelled ⟨stream.sender, id, split.recipientRemaining, split.refund⟩]⟩,
        StreamOp.respond_ok hauth hclosed, fun amount hpaid => ?_⟩
      have hsettle' := settleCancel_preview hpaid id
      rw [preview_pay, hpreview] at hsettle'
      have hclosed' : StreamOp.cancel.settle now id (stream.pay amount) = .ok _ := hsettle'
      exact ⟨⟨now, .ok (.amount split.refund),
        [⟨stream.token, this, stream.sender, split.refund⟩],
        [.cancelled ⟨stream.sender, id, (stream.pay amount).available now, split.refund⟩]⟩,
        rfl, StreamOp.respond_ok hauth hclosed'⟩
  · exact Or.inl ⟨.unauthorized, StreamOp.respond_unauthorized hauth,
      fun amount _ => StreamOp.respond_unauthorized hauth⟩

end Record

variable [DecidableEq Address]

/-- One call on stream `id` at `now`, seen from its record and the balances alone. -/
def respondCell (now id : UInt64) (this : Address)
    (cell : Option (Stream Address) × (Address → Address → ℤ)) (x : Env Address × StreamOp) :
    Receipt Address × Option (Stream Address) × (Address → Address → ℤ) :=
  let answer := x.2.respond x.1 now id this cell.1
  (answer.1.blur, answer.2, post cell.2 answer.1.transfers)

section Commute

variable {stream : Stream Address} {now : UInt64} {balance : Address → Address → ℤ}
  {select : I128 → Except StreamError I128} {env cancelEnv : Env Address} {op : StreamOp}

theorem respondCell_eq {id : UInt64} {this : Address} {record record' : Option (Stream Address)}
    {receipt : Receipt Address}
    (h : op.respond env now id this record = (receipt, record')) :
    respondCell now id this (record, balance) (env, op) =
      (receipt.blur, record', post balance receipt.transfers) := by
  unfold respondCell
  rw [h]

/-- A withdrawal and a cancel on the same record commute. -/
theorem commute_cancel (h : stream.WellFormed now) (hselect : op.select? = some select)
    (id : UInt64) (this : Address) :
    Commute (respondCell now id this) (cancelEnv, .cancel) (env, op) (some stream, balance) := by
  rcases StreamOp.respond_cancel h cancelEnv id this with
    ⟨failure, hcancel, hlater⟩ | ⟨receipt, hcancel, hlater⟩
  · -- the cancel fails, before the withdrawal and after it
    apply Commute.of_still_first
    · rw [respondCell_eq hcancel]
      rfl
    · rcases op.respond_withdraw h hselect env id this with
        ⟨failure', hwithdraw, _⟩ | ⟨amount, receipt', hpaid, hwithdraw, _⟩
      · rw [respondCell_eq hwithdraw, respondCell_eq hcancel, respondCell_eq hcancel]
        rfl
      · rw [respondCell_eq hwithdraw, respondCell_eq hcancel, respondCell_eq (hlater amount hpaid)]
        rfl
  · rcases op.respond_withdraw h hselect env id this with
      ⟨failure', hwithdraw, hclosed⟩ | ⟨amount, receipt', hpaid, hwithdraw, hclosed⟩
    · -- the withdrawal fails, before the cancel and after it
      apply Commute.of_still_second
      · rw [respondCell_eq hwithdraw]
        rfl
      · rw [respondCell_eq hcancel, respondCell_eq hwithdraw, respondCell_eq hclosed]
        rfl
    · obtain ⟨receipt'', hblur, hpaying⟩ := hlater amount hpaid
      have htransfers : receipt''.transfers = receipt.transfers := by
        rw [← receipt''.blur_transfers, hblur, receipt.blur_transfers]
      have hposted : post balance (receipt'.transfers ++ receipt.transfers) =
          post balance (receipt.transfers ++ receipt'.transfers) :=
        post_perm List.perm_append_comm balance
      constructor
      · rw [respondCell_eq hwithdraw, respondCell_eq hpaying, respondCell_eq hcancel]
        exact hblur
      · rw [respondCell_eq hcancel, respondCell_eq hclosed, respondCell_eq hwithdraw]
      · rw [respondCell_eq hwithdraw, respondCell_eq hpaying, respondCell_eq hcancel,
          respondCell_eq hclosed, htransfers, ← post_append, ← post_append]
        simp only [hposted]

end Commute

/-! ### On the ledger -/

/-- One call on stream `id`, its receipt read up to `recipientAmount`. -/
def World.race (id : UInt64) (w : World Address) (x : Env Address × StreamOp) :
    Receipt Address × World Address :=
  ((w.invoke x.1 (x.2.call id)).1.blur, (w.invoke x.1 (x.2.call id)).2)

/-- A ledger at `now` on which calls on stream `id` can be made: its token conforms
and is not in deficit. -/
structure Raceable (id : UInt64) (this : Address) (now : UInt64) (token : Address)
    (xs : List (Env Address × StreamOp)) (w : World Address) : Prop where
  sound : w.Sound
  contract : w.contractAddress = this
  time : w.timestamp = now
  surplus_nonneg : 0 ≤ w.surplus token
  stored : ∃ stream, w.streams id = some stream ∧ stream.token = token
  conforming : ∀ x ∈ xs, (x.1.token token).Conforming

namespace Raceable

variable {id : UInt64} {this : Address} {now : UInt64} {token : Address}
  {x : Env Address × StreamOp} {xs : List (Env Address × StreamOp)} {w : World Address}

/-- On such a ledger a call is answered by the cell of its stream. -/
theorem respond (h : Raceable id this now token (x :: xs) w) :
    (w.race id x).1 = (respondCell now id this (w.streams id, w.balance) x).1 ∧
      ((w.race id x).2.streams id, (w.race id x).2.balance) =
        (respondCell now id this (w.streams id, w.balance) x).2 := by
  obtain ⟨stream, hstream, htoken⟩ := h.stored
  have hready : ∀ s, w.streams id = some s →
      0 ≤ w.surplus s.token ∧ (x.1.token s.token).Conforming := by
    intro s hs
    obtain rfl : s = stream := Option.some_inj.mp (hs.symm.trans hstream)
    rw [htoken]
    exact ⟨h.surplus_nonneg, h.conforming x List.mem_cons_self⟩
  obtain ⟨hreceipt, hstreams, hbalance⟩ := h.sound.invoke_respond x.2 hready
  rw [h.contract, h.time] at hreceipt hstreams hbalance
  simp only [World.race, respondCell, hreceipt, hstreams, hbalance, Function.update_self]
  exact ⟨trivial, trivial⟩

theorem tail (h : Raceable id this now token (x :: xs) w) :
    Raceable id this now token xs (w.race id x).2 := by
  obtain ⟨stream, hstream, htoken⟩ := h.stored
  have hinvoke : w.invoke x.1 (x.2.call id) = ((w.invoke x.1 (x.2.call id)).1, (w.race id x).2) :=
    rfl
  have hstep := Step.call hinvoke
  obtain ⟨stream', hstream', hevolved, _⟩ := h.sound.evolved (.single hstep) hstream
  constructor
  · exact hstep.sound h.sound
  · exact (hstep.change h.sound).contractAddress_eq.trans h.contract
  · exact (World.invoke_timestamp hinvoke).trans h.time
  · rw [h.sound.invoke_surplus hinvoke (h.conforming x List.mem_cons_self).exact]
    exact h.surplus_nonneg
  · exact ⟨stream', hstream', hevolved.parties_eq.2.2.trans htoken⟩
  · intro y hy
    exact h.conforming y (List.mem_cons_of_mem x hy)

theorem replay_cell (h : Raceable id this now token xs w) :
    (replay (World.race id) w xs).1 =
        (replay (respondCell now id this) (w.streams id, w.balance) xs).1 ∧
      ((replay (World.race id) w xs).2.streams id, (replay (World.race id) w xs).2.balance) =
        (replay (respondCell now id this) (w.streams id, w.balance) xs).2 := by
  have hproject := replay_project (respondCell now id this)
    (fun m : World Address => (m.streams id, m.balance)) (fun _ => true)
    (fun xs m => Raceable id this now token xs m) (fun _ _ _ hm => hm.tail)
    (fun _ _ _ hm _ => hm.respond) (fun _ _ _ _ hp => by cases hp) h
  simpa using hproject

end Raceable

theorem StreamOp.exists_select {op : StreamOp} (h : op ≠ .cancel) :
    ∃ select, op.select? = some select := by
  cases op with
  | withdraw => exact ⟨selectAll, rfl⟩
  | withdrawAmount amount => exact ⟨selectAmount amount, rfl⟩
  | cancel => exact absurd rfl h

/-- The calls `ops` on stream `id`, with a cancel inserted before the `p`-th. -/
def World.raceAt (w : World Address) (id : UInt64) (ops : List (Env Address × StreamOp))
    (cancelEnv : Env Address) (p : ℕ) :
    List ((Env Address × StreamOp) × Receipt Address) × World Address :=
  replay (World.race id) w (ops.take p ++ (cancelEnv, .cancel) :: ops.drop p)

/-- From a cell with a well-formed record the cancel may be inserted anywhere. -/
theorem replay_cell_insert (id : UInt64) (this : Address) {now : UInt64}
    {ops : List (Env Address × StreamOp)} (hops : ∀ x ∈ ops, x.2 ≠ .cancel)
    (cancelEnv : Env Address) (p : ℕ)
    {cell : Option (Stream Address) × (Address → Address → ℤ)}
    (hcell : ∃ stream, cell.1 = some stream ∧ stream.WellFormed now) :
    replay (respondCell now id this) cell (ops.take p ++ (cancelEnv, .cancel) :: ops.drop p) =
      let closed := respondCell now id this cell (cancelEnv, .cancel)
      ((replay (respondCell now id this) closed.2 (ops.take p)).1 ++
          ((cancelEnv, .cancel), closed.1) ::
            (replay (respondCell now id this)
              (replay (respondCell now id this) closed.2 (ops.take p)).2 (ops.drop p)).1,
        (replay (respondCell now id this) closed.2 ops).2) := by
  have hkeep : ∀ x ∈ ops.take p, ∀ cell : Option (Stream Address) × (Address → Address → ℤ),
      (∃ stream, cell.1 = some stream ∧ stream.WellFormed now) →
      ∃ stream, (respondCell now id this cell x).2.1 = some stream ∧ stream.WellFormed now := by
    rintro ⟨env, op⟩ hx ⟨record, balance⟩ ⟨stream, rfl, hformed⟩
    obtain ⟨select, hselect⟩ := StreamOp.exists_select (hops _ (List.mem_of_mem_take hx))
    rcases op.respond_withdraw hformed hselect env id this with
      ⟨failure, hrespond, _⟩ | ⟨amount, receipt, hpaid, hrespond, _⟩
    · rw [respondCell_eq hrespond]
      exact ⟨stream, rfl, hformed⟩
    · rw [respondCell_eq hrespond]
      exact ⟨stream.pay amount, rfl, hpaid⟩
  have hcommute : ∀ x ∈ ops.take p, ∀ cell : Option (Stream Address) × (Address → Address → ℤ),
      (∃ stream, cell.1 = some stream ∧ stream.WellFormed now) →
      Commute (respondCell now id this) (cancelEnv, .cancel) x cell := by
    rintro ⟨env, op⟩ hx ⟨record, balance⟩ ⟨stream, rfl, hformed⟩
    obtain ⟨select, hselect⟩ := StreamOp.exists_select (hops _ (List.mem_of_mem_take hx))
    exact commute_cancel hformed hselect id this
  have hinsert := replay_insert _ (ops.take p) (ops.drop p) hkeep hcommute hcell
  rw [List.take_append_drop] at hinsert
  exact hinsert

/-- Executing the cancel at any position gives what executing it first gives. -/
theorem Raceable.raceAt_eq {w : World Address} {id : UInt64} {token : Address}
    {ops : List (Env Address × StreamOp)} {cancelEnv : Env Address}
    (hops : ∀ x ∈ ops, x.2 ≠ .cancel)
    (h : Raceable id w.contractAddress w.timestamp token ((cancelEnv, .cancel) :: ops) w) (p : ℕ) :
    let cell := respondCell w.timestamp id w.contractAddress
    let closed := cell (w.streams id, w.balance) (cancelEnv, .cancel)
    (w.raceAt id ops cancelEnv p).1.filter (fun x => decide (x.1.2 ≠ .cancel)) =
        (replay cell closed.2 ops).1 ∧
      (w.raceAt id ops cancelEnv p).1.filter (fun x => decide (x.1.2 = .cancel)) =
        [((cancelEnv, .cancel), closed.1)] ∧
      ((w.raceAt id ops cancelEnv p).2.streams id, (w.raceAt id ops cancelEnv p).2.balance) =
        (replay cell closed.2 ops).2 := by
  intro cell closed
  have hready : Raceable id w.contractAddress w.timestamp token
      (ops.take p ++ (cancelEnv, .cancel) :: ops.drop p) w := by
    refine ⟨h.sound, h.contract, h.time, h.surplus_nonneg, h.stored, ?_⟩
    intro x hx
    apply h.conforming
    rcases List.mem_append.mp hx with hbefore | hrest
    · exact List.mem_cons_of_mem _ (List.mem_of_mem_take hbefore)
    · rcases List.mem_cons.mp hrest with rfl | hafter
      · exact List.mem_cons_self
      · exact List.mem_cons_of_mem _ (List.mem_of_mem_drop hafter)
  obtain ⟨stream, hstream, _⟩ := h.stored
  have hcell : ∃ s, (w.streams id, w.balance).1 = some s ∧ s.WellFormed w.timestamp :=
    ⟨stream, hstream, h.sound.records id stream hstream⟩
  have hinsert := replay_cell_insert id w.contractAddress hops cancelEnv p hcell
  obtain ⟨hanswers, hview⟩ := hready.replay_cell
  rw [hinsert] at hanswers hview
  have hbefore : ∀ x ∈ (replay cell closed.2 (ops.take p)).1, x.1.2 ≠ .cancel := fun x hx =>
    hops _ (List.mem_of_mem_take (mem_replay cell hx))
  have hafter : ∀ x ∈ (replay cell (replay cell closed.2 (ops.take p)).2 (ops.drop p)).1,
      x.1.2 ≠ .cancel := fun x hx => hops _ (List.mem_of_mem_drop (mem_replay cell hx))
  have hall : (replay cell closed.2 ops).1 = (replay cell closed.2 (ops.take p)).1 ++
      (replay cell (replay cell closed.2 (ops.take p)).2 (ops.drop p)).1 := by
    have happend := replay_append cell closed.2 (ops.take p) (ops.drop p)
    rw [List.take_append_drop] at happend
    rw [happend]
  refine ⟨?_, ?_, hview⟩
  · unfold World.raceAt
    rw [hanswers, List.filter_append, List.filter_cons_of_neg (by simp), hall]
    rw [List.filter_eq_self.mpr fun x hx => decide_eq_true (hbefore x hx),
      List.filter_eq_self.mpr fun x hx => decide_eq_true (hafter x hx)]
  · unfold World.raceAt
    rw [hanswers, List.filter_append, List.filter_cons_of_pos (by simp)]
    rw [List.filter_eq_nil_iff.mpr fun x hx => by simpa using hbefore x hx,
      List.filter_eq_nil_iff.mpr fun x hx => by simpa using hafter x hx]
    rfl

/-- A cancel racing with withdrawals: wherever the sender's cancel is executed among
the withdrawals that are made from a stream within one ledger, every withdrawal has
the same receipt, the cancel has the same receipt but for `recipientAmount`, and the
record and all balances end up the same. -/
theorem cancel_race {w : World Address} {id : UInt64} {stream : Stream Address}
    (h : ReachableWith stream.token w) (hstream : w.streams id = some stream)
    {ops : List (Env Address × StreamOp)} {cancelEnv : Env Address}
    (hops : ∀ x ∈ ops, x.2 ≠ .cancel ∧ (x.1.token stream.token).Conforming)
    (hcancel : (cancelEnv.token stream.token).Conforming) (j k : ℕ) :
    (w.raceAt id ops cancelEnv j).1.filter (fun x => decide (x.1.2 ≠ .cancel)) =
        (w.raceAt id ops cancelEnv k).1.filter (fun x => decide (x.1.2 ≠ .cancel)) ∧
      (w.raceAt id ops cancelEnv j).1.filter (fun x => decide (x.1.2 = .cancel)) =
        (w.raceAt id ops cancelEnv k).1.filter (fun x => decide (x.1.2 = .cancel)) ∧
      (w.raceAt id ops cancelEnv j).2.streams id = (w.raceAt id ops cancelEnv k).2.streams id ∧
      (w.raceAt id ops cancelEnv j).2.balance = (w.raceAt id ops cancelEnv k).2.balance := by
  have hready : Raceable id w.contractAddress w.timestamp stream.token
      ((cancelEnv, .cancel) :: ops) w := by
    refine ⟨h.reachable.sound, rfl, rfl, h.surplus_nonneg, ⟨stream, hstream, rfl⟩, ?_⟩
    intro x hx
    rcases List.mem_cons.mp hx with rfl | hmem
    · exact hcancel
    · exact (hops x hmem).2
  obtain ⟨hpay, hstop, hend⟩ := hready.raceAt_eq (fun x hx => (hops x hx).1) j
  obtain ⟨hpay', hstop', hend'⟩ := hready.raceAt_eq (fun x hx => (hops x hx).1) k
  have hsame := Prod.ext_iff.mp (hend.trans hend'.symm)
  exact ⟨hpay.trans hpay'.symm, hstop.trans hstop'.symm, hsame.1, hsame.2⟩

namespace Sample

/-- Two withdrawals of the recipient. -/
def takings : List (Env ℕ × StreamOp) := [(env, .withdrawAmount (units 10)), (env, .withdraw)]

theorem takings_conforming :
    ∀ x ∈ takings, x.2 ≠ .cancel ∧ (x.1.token opening.stream.token).Conforming := by
  intro x hx
  simp only [takings, List.mem_cons, List.not_mem_nil, or_false] at hx
  rcases hx with rfl | rfl
  · exact ⟨by decide, ledgerToken_conforming⟩
  · exact ⟨by decide, ledgerToken_conforming⟩

end Sample

theorem cancel_race_first_last :
    (Sample.later.raceAt 0 Sample.takings Sample.env 0).2.balance =
      (Sample.later.raceAt 0 Sample.takings Sample.env 2).2.balance :=
  (cancel_race (Sample.later_reachableWith _) Sample.later_stream Sample.takings_conforming
    Sample.ledgerToken_conforming 0 2).2.2.2

end TricklePay
