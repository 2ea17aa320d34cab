import TricklePay.Proofs.Isolation

/-!
# Winding a contract down

Nothing the contract owes can get stuck. In any schedule of settling calls by which
every stream is brought to its end, by its sender's cancel or by the clock, and then
withdrawn from by its recipient, everything is paid out: no escrow is left in any
token, and what the contract still holds is what third parties sent in unasked. The
sweep that cancels and withdraws every stream there is does it at any ledger time.
-/

namespace TricklePay

open Checked Transition Replay

variable {Address : Type}

/-! ### One record -/

namespace Stream

/-- Nothing more will vest that has not vested at `now`. -/
def Over (now : UInt64) (stream : Stream Address) : Prop :=
  stream.cancelled = true ∨ stream.endTime.toNat ≤ now.toNat

/-- Everything has been withdrawn. -/
def Drained (stream : Stream Address) : Prop := stream.withdrawn.toInt = stream.totalAmount.toInt

variable {stream : Stream Address} {now : UInt64}

theorem WellFormed.vested_of_over (h : stream.WellFormed now) (hover : stream.Over now) :
    stream.vested now = stream.totalAmount.toInt := by
  rcases hover with hc | hend
  · exact h.vested_of_cancelled hc
  · exact h.vested_of_end_le hend

end Stream

section Record

variable {stream : Stream Address} {now : UInt64} {op : StreamOp} {id : UInt64}
  {z : Settled Address}

theorem StreamOp.Outcome.not_drained (h : stream.WellFormed now)
    (ho : op.Outcome now id stream z) : ¬ stream.Drained := by
  intro hdrained
  have hpos := ho.amount_pos h
  have hescrow := ho.escrow_eq h
  have hafter := ho.wellFormed h
  have hle := hafter.withdrawn_le.trans (hafter.vested_le_total now)
  unfold Stream.Drained at hdrained
  omega

/-- A stream that will be over stays so, whatever is settled of it before. -/
theorem StreamOp.Outcome.over {later : UInt64} (ho : op.Outcome now id stream z)
    (hover : stream.Over later) : z.stream.Over later := by
  cases ho with
  | paid _ _ _ _ _ _ hz =>
    rw [hz]
    exact hover
  | closed _ _ _ hz =>
    rw [hz]
    exact Or.inl rfl

variable {env : Env Address} {this : Address}

/-- What any call keeps of a record: its parties, that it is over, that it is drained. -/
theorem StreamOp.respond_kept (op : StreamOp) (env : Env Address) (id : UInt64) (this : Address)
    (h : stream.WellFormed now) :
    ∃ stream', (op.respond env now id this (some stream)).2 = some stream' ∧
      stream'.WellFormed now ∧ stream'.sender = stream.sender ∧
      stream'.recipient = stream.recipient ∧ (∀ later, stream.Over later → stream'.Over later) ∧
      (stream.Drained → stream'.Drained) := by
  by_cases hauth : env.authorized (op.party stream) = true
  · cases hsettle : op.settle now id stream with
    | error failure =>
      rw [op.respond_error hauth hsettle]
      exact ⟨stream, rfl, h, rfl, rfl, fun _ hover => hover, fun hdrained => hdrained⟩
    | ok z =>
      have houtcome := op.settle_outcome h hsettle
      obtain ⟨hsender, hrecipient, _⟩ := houtcome.parties_eq
      rw [op.respond_ok hauth hsettle]
      exact ⟨z.stream, rfl, houtcome.wellFormed h, hsender, hrecipient, fun _ => houtcome.over,
        fun hdrained => absurd hdrained (houtcome.not_drained h)⟩
  · rw [op.respond_unauthorized hauth]
    exact ⟨stream, rfl, h, rfl, rfl, fun _ hover => hover, fun hdrained => hdrained⟩

theorem StreamOp.respond_withdraw_drains (id : UInt64) (this : Address)
    (h : stream.WellFormed now) (hover : stream.Over now)
    (hauth : env.authorized stream.recipient = true) :
    ∃ stream', (StreamOp.withdraw.respond env now id this (some stream)).2 = some stream' ∧
      stream'.Drained := by
  have hvested := h.vested_of_over hover
  have havailable := h.toInt_available
  have hsettle := StreamOp.settle_select h (rfl : StreamOp.withdraw.select? = some selectAll) id
  by_cases hnone : stream.available now ≤ 0
  · have hselect : selectAll (stream.available now) = .error .nothingToWithdraw := if_pos hnone
    rw [hselect] at hsettle
    have hzero := (h.available_le_zero).mp hnone
    rw [StreamOp.respond_error hauth hsettle]
    refine ⟨stream, rfl, ?_⟩
    rw [hzero, Signed.toInt_zero] at havailable
    unfold Stream.Drained
    omega
  · have hselect : selectAll (stream.available now) = .ok (stream.available now) := if_neg hnone
    have hbound := selectAll_bounded _ _ hselect
    rw [hselect] at hsettle
    rw [StreamOp.respond_ok hauth hsettle]
    refine ⟨stream.pay (stream.available now), rfl, ?_⟩
    unfold Stream.Drained
    rw [h.toInt_pay hbound.1 hbound.2]
    change _ = stream.totalAmount.toInt
    omega

theorem StreamOp.respond_cancel_over (id : UInt64) (this : Address) (h : stream.WellFormed now)
    (hauth : env.authorized stream.sender = true) :
    ∃ stream', (StreamOp.cancel.respond env now id this (some stream)).2 = some stream' ∧
      stream'.Over now := by
  have hsettle : StreamOp.cancel.settle now id stream = _ := settleCancel_eq h id
  split_ifs at hsettle with hcancelled hend
  · rw [StreamOp.respond_error hauth hsettle]
    exact ⟨stream, rfl, Or.inl hcancelled⟩
  · rw [StreamOp.respond_error hauth hsettle]
    exact ⟨stream, rfl, Or.inr (UInt64.le_iff_toNat_le.mp hend)⟩
  · rw [StreamOp.respond_ok hauth hsettle]
    exact ⟨_, rfl, Or.inl rfl⟩

end Record

/-! ### One stream in a schedule -/

/-- Some entry is a withdrawal by the recipient, made when the stream is over or after
its sender has cancelled it. -/
def Stream.Swept (id : UInt64) (stream : Stream Address) (entries : List (Entry Address)) : Prop :=
  ∃ before e after, entries = before ++ e :: after ∧ e.id = id ∧ e.op = .withdraw ∧
    e.env.authorized stream.recipient = true ∧
    (stream.Over e.timestamp ∨
      ∃ c ∈ before, c.id = id ∧ c.op = .cancel ∧ c.env.authorized stream.sender = true)

theorem Stream.Swept.filter {id : UInt64} {stream : Stream Address}
    {entries : List (Entry Address)} (h : stream.Swept id entries) :
    stream.Swept id (entries.filter fun e => decide (e.id = id)) := by
  obtain ⟨before, e, after, rfl, hid, hop, hauth, hover⟩ := h
  refine ⟨before.filter fun e => decide (e.id = id), e, after.filter fun e => decide (e.id = id),
    ?_, hid, hop, hauth, ?_⟩
  · simp [List.filter_append, hid]
  · rcases hover with hover | ⟨c, hc, hcid, hcancel⟩
    · exact Or.inl hover
    · exact Or.inr ⟨c, List.mem_filter.mpr ⟨hc, decide_eq_true hcid⟩, hcid, hcancel⟩

/-- A record to which the remaining entries can be made, and which is drained already
or will be by one of them. -/
structure Sweepable (id : UInt64) (entries : List (Entry Address))
    (record : Option (Stream Address)) : Prop where
  sorted : entries.Pairwise fun e f => e.timestamp ≤ f.timestamp
  stored : ∃ stream now, record = some stream ∧ stream.WellFormed now ∧
    (∀ e ∈ entries, now ≤ e.timestamp) ∧ (stream.Drained ∨ stream.Swept id entries)

theorem Stream.Over.later {stream : Stream Address} {now later : UInt64} (h : stream.Over now)
    (hle : now ≤ later) : stream.Over later :=
  h.imp_right fun hend => hend.trans (UInt64.le_iff_toNat_le.mp hle)

theorem Sweepable.tail {id : UInt64} {this : Address} {a : Entry Address}
    {entries : List (Entry Address)} {record : Option (Stream Address)}
    (h : Sweepable id (a :: entries) record) :
    Sweepable id entries (a.op.respond a.env a.timestamp id this record).2 := by
  obtain ⟨hsorted, stream, now, rfl, hformed, hlater, hswept⟩ := h
  obtain ⟨hfirst, hrest⟩ := List.pairwise_cons.mp hsorted
  have hnow := hformed.advance (UInt64.le_iff_toNat_le.mp (hlater a List.mem_cons_self))
  obtain ⟨stream', hrespond, hformed', hsender, hrecipient, hover, hdrained⟩ :=
    a.op.respond_kept a.env id this hnow
  refine ⟨hrest, stream', a.timestamp, hrespond, hformed', hfirst, ?_⟩
  rcases hswept with hdone | ⟨before, e, after, hsplit, hid, hop, hauth, hready⟩
  · exact Or.inl (hdrained hdone)
  cases before with
  | nil =>
    -- the withdrawal itself
    obtain ⟨rfl, rfl⟩ := List.cons.inj hsplit
    rcases hready with hready | ⟨c, hc, _⟩
    · rw [hop] at hrespond
      obtain ⟨last, hlast, hleft⟩ :=
        StreamOp.respond_withdraw_drains id this hnow hready hauth
      rw [hrespond] at hlast
      cases hlast
      exact Or.inl hleft
    · cases hc
  | cons b before =>
    obtain ⟨rfl, hentries⟩ := List.cons.inj hsplit
    have hmem : e ∈ entries := by simp [hentries]
    refine Or.inr ⟨before, e, after, hentries, hid, hop, hrecipient ▸ hauth, ?_⟩
    rcases hready with hready | ⟨c, hc, hcid, hcancel, hcauth⟩
    · exact Or.inl (hover _ hready)
    · rcases List.mem_cons.mp hc with rfl | hc
      · -- the cancel itself
        rw [hcancel] at hrespond
        obtain ⟨last, hlast, hleft⟩ :=
          StreamOp.respond_cancel_over id this hnow hcauth
        rw [hrespond] at hlast
        cases hlast
        exact Or.inl (hleft.later (hfirst e hmem))
      · exact Or.inr ⟨c, hc, hcid, hcancel, hsender ▸ hcauth⟩

/-! ### The sweep -/

/-- Cancel and withdraw every stream there is, now. -/
def World.sweep (w : World Address) (env : Env Address) : List (Entry Address) :=
  (List.range (w.streamCount.getD 0).toNat).flatMap fun i =>
    [⟨w.timestamp, w.sequence, env, .ofNat i, .cancel⟩,
      ⟨w.timestamp, w.sequence, env, .ofNat i, .withdraw⟩]

theorem World.mem_sweep {w : World Address} {env : Env Address} {e : Entry Address}
    (h : e ∈ w.sweep env) : e.timestamp = w.timestamp ∧ e.env = env := by
  simp only [World.sweep, List.mem_flatMap, List.mem_cons, List.not_mem_nil, or_false] at h
  obtain ⟨i, _, rfl | rfl⟩ := h
  · exact ⟨rfl, rfl⟩
  · exact ⟨rfl, rfl⟩

/-- The sweep passes over every stream, since the identifiers are counted up. -/
theorem World.Sound.swept_sweep {w : World Address} (h : w.Sound) {env : Env Address}
    (hauth : ∀ address, env.authorized address = true) {id : UInt64} {stream : Stream Address}
    (hstream : w.streams id = some stream) : stream.Swept id (w.sweep env) := by
  have hbelow : id.toNat < (w.streamCount.getD 0).toNat := by
    rw [← h.ids, hstream]
    rfl
  obtain ⟨before, after, hrange⟩ := List.append_of_mem (List.mem_range.mpr hbelow)
  have hid : UInt64.ofNat id.toNat = id := UInt64.ofNat_toNat
  let entry : StreamOp → Entry Address := fun op => ⟨w.timestamp, w.sequence, env, id, op⟩
  let both : ℕ → List (Entry Address) := fun i =>
    [⟨w.timestamp, w.sequence, env, .ofNat i, .cancel⟩,
      ⟨w.timestamp, w.sequence, env, .ofNat i, .withdraw⟩]
  refine ⟨before.flatMap both ++ [entry .cancel], entry .withdraw, after.flatMap both, ?_, rfl, rfl,
    hauth _, Or.inr ⟨entry .cancel, by simp, rfl, rfl, hauth _⟩⟩
  have hboth : both id.toNat = [entry .cancel, entry .withdraw] := by
    simp only [both, entry, hid]
  change (List.range _).flatMap both = _
  rw [hrange, List.flatMap_append, List.flatMap_cons, hboth]
  simp

/-! ### The whole contract -/

variable [DecidableEq Address]

theorem World.escrow_of_drained {w : World Address}
    (h : ∀ id stream, w.streams id = some stream → stream.Drained) (token : Address) :
    w.escrow token = 0 := by
  unfold World.escrow Pool.weight
  refine Finset.sum_eq_zero ?_
  intro id _
  cases hstream : w.streams id with
  | none => rfl
  | some stream =>
    have hdrained := h id stream hstream
    unfold Stream.Drained at hdrained
    change stream.holds token = 0
    unfold Stream.holds
    split_ifs <;> omega

namespace Schedulable

variable {entries : List (Entry Address)} {w : World Address}

theorem surplus_kept (h : Schedulable entries w) (token : Address) :
    (replay World.execute w entries).2.surplus token = w.surplus token := by
  have hkept := replay_invariant World.execute
    (fun entries m => Schedulable entries m ∧ m.surplus token = w.surplus token) ?_ ⟨h, rfl⟩
  · exact hkept.2
  · rintro e rest m ⟨hm, hsurplus⟩
    have hcall := hm.head_sound.invoke_surplus (Prod.eta (m.execute e)).symm
      (hm.conforming e List.mem_cons_self token).exact
    exact ⟨hm.tail, hcall.trans hsurplus⟩

theorem contractAddress_kept (h : Schedulable entries w) :
    (replay World.execute w entries).2.contractAddress = w.contractAddress := by
  have hkept := replay_invariant World.execute
    (fun entries m => Schedulable entries m ∧ m.contractAddress = w.contractAddress) ?_ ⟨h, rfl⟩
  · exact hkept.2
  · rintro e rest m ⟨hm, hcontract⟩
    exact ⟨hm.tail, hm.contractAddress_eq.trans hcontract⟩

theorem streams_none (h : Schedulable entries w) {id : UInt64} (hnone : w.streams id = none) :
    (replay World.execute w entries).2.streams id = none := by
  rw [(h.project id).2, hnone]
  refine replay_invariant _ (fun _ record => record = none) ?_ rfl
  intro _ _ _ hrecord
  rw [hrecord]
  rfl

theorem drained (h : Schedulable entries w) {id : UInt64} {stream : Stream Address}
    (hstream : w.streams id = some stream) (hswept : stream.Swept id entries) :
    ∃ stream', (replay World.execute w entries).2.streams id = some stream' ∧ stream'.Drained := by
  have hfilter := h.filter fun e => decide (e.id = id)
  have hsweepable : Sweepable id (entries.filter fun e => decide (e.id = id)) (w.streams id) :=
    ⟨hfilter.sorted, stream, w.timestamp, hstream, h.sound.records id stream hstream,
      hfilter.later, Or.inr hswept.filter⟩
  have hend := replay_invariant
    (fun record e => StreamOp.respond e.op e.env e.timestamp id w.contractAddress record)
    (Sweepable id) (fun _ _ _ hrecord => hrecord.tail) hsweepable
  rw [← (h.project id).2] at hend
  obtain ⟨_, last, now, hlast, _, _, hdone | ⟨before, e, after, hsplit, _⟩⟩ := hend
  · exact ⟨last, hlast, hdone⟩
  · simp at hsplit

end Schedulable

/-- Nothing is owed in `w'` any more, and of each token the contract is left with what
backed no stream in `w`. -/
structure World.PaidOut (w w' : World Address) : Prop where
  drained : ∀ id stream, w'.streams id = some stream → stream.Drained
  escrow : ∀ token, w'.escrow token = 0
  left : ∀ token, w'.balance token w.contractAddress = w.surplus token

theorem Schedulable.paidOut {entries : List (Entry Address)} {w : World Address}
    (h : Schedulable entries w)
    (hswept : ∀ id stream, w.streams id = some stream → stream.Swept id entries) :
    w.PaidOut (replay World.execute w entries).2 := by
  have hdrained : ∀ id stream, (replay World.execute w entries).2.streams id = some stream →
      stream.Drained := by
    intro id stream hstream
    cases hbefore : w.streams id with
    | none =>
      rw [h.streams_none hbefore] at hstream
      cases hstream
    | some s =>
      obtain ⟨last, hlast, hdone⟩ := h.drained hbefore (hswept id s hbefore)
      rw [hstream] at hlast
      cases hlast
      exact hdone
  have hescrow := World.escrow_of_drained hdrained
  refine ⟨hdrained, hescrow, fun token => ?_⟩
  rw [← h.surplus_kept token, World.surplus, hescrow, h.contractAddress_kept, sub_zero]

/-- Nothing owed can get stuck: from every reachable ledger, any schedule of settling
calls that ends every stream and then has its recipient withdraw pays everything out,
and the sweep, once everyone authorizes it, does so at the present ledger time. -/
theorem everything_can_be_paid_out {w : World Address} (h : ∀ token, ReachableWith token w) :
    (∀ entries : List (Entry Address), (∀ e ∈ entries, w.timestamp ≤ e.timestamp) →
      (entries.Pairwise fun e f => e.timestamp ≤ f.timestamp) →
      (∀ e ∈ entries, ∀ token, (e.env.token token).Conforming) →
      (∀ id stream, w.streams id = some stream → stream.Swept id entries) →
      w.PaidOut (replay World.execute w entries).2) ∧
    ∀ env : Env Address, (∀ address, env.authorized address = true) →
      (∀ token, (env.token token).Conforming) →
      w.PaidOut (replay World.execute w (w.sweep env)).2 := by
  have hsound := (h w.contractAddress).reachable.sound
  have hsurplus := fun token => (h token).surplus_nonneg
  constructor
  · intro entries hlater hsorted hconforming hswept
    exact Schedulable.paidOut ⟨hsound, hsurplus, hlater, hsorted, hconforming⟩ hswept
  · intro env hauth hconforming
    have hschedule : Schedulable (w.sweep env) w := by
      refine ⟨hsound, hsurplus, ?_, ?_, ?_⟩
      · intro e he
        rw [(World.mem_sweep he).1]
        exact UInt64.le_refl _
      · refine List.pairwise_of_forall_mem_list (fun e he f hf => ?_)
        rw [(World.mem_sweep he).1, (World.mem_sweep hf).1]
        exact UInt64.le_refl _
      · intro e he token
        rw [(World.mem_sweep he).2]
        exact hconforming token
    exact hschedule.paidOut fun _ _ hstream => hsound.swept_sweep hauth hstream

theorem everything_can_be_paid_out_twin :
    Sample.twin.PaidOut (replay World.execute Sample.twin (Sample.twin.sweep Sample.env)).2 :=
  (everything_can_be_paid_out Sample.twin_reachableWith).2 Sample.env (fun _ => rfl)
    fun _ => Sample.ledgerToken_conforming

end TricklePay
