import TricklePay.Proofs.Solvency

/-!
# Which records can be stored

The invariant of a stored record, sharpened until it is exact: a record that
satisfies it is stored at the ledger time by some run with conforming tokens, so no
stronger invariant of single records holds. What `World.Sound` does not say is what
a cancelled record keeps of the schedule it was cut from: its window closed before
the last instant there is, and its total is the share of an admissible one.
-/

namespace TricklePay

open Checked Transition

variable {Address : Type}

/-- A cancelled record was cut from a longer window and an admissible total. -/
structure Stream.Cut (stream : Stream Address) : Prop where
  before_last : stream.endTime.toNat + 1 < 2 ^ 64
  share_le : stream.totalAmount.toInt * ((stream.endTime.toNat : ℤ) - stream.startTime.toNat + 1) ≤
    maxAmount.toInt * ((stream.endTime.toNat : ℤ) - stream.startTime.toNat)

/-- The exact condition on a record that contract `this` stores at `now`. -/
structure Stream.Storable (this : Address) (now : UInt64) (stream : Stream Address) : Prop where
  wellFormed : stream.WellFormed now
  sender_ne : stream.sender ≠ this
  recipient_ne : stream.recipient ≠ this
  token_ne : stream.token ≠ this
  cut : stream.cancelled = true → stream.Cut

/-! ### Every stored record is storable -/

theorem Stream.WellFormed.cut_close {stream : Stream Address} {now : UInt64}
    (h : stream.WellFormed now) (hend : now.toNat < stream.endTime.toNat) :
    (stream.close (stream.vestedUnits now) now).Cut where
  before_last := by
    have hlast := stream.endTime.toNat_lt
    change now.toNat + 1 < 2 ^ 64
    omega
  share_le := by
    change (stream.vestedUnits now).toInt *
      ((now.toNat : ℤ) - (min stream.startTime now).toNat + 1) ≤ _ *
        ((now.toNat : ℤ) - (min stream.startTime now).toNat)
    rw [h.toInt_vestedUnits, U64.toNat_min]
    by_cases hstart : stream.startTime.toNat ≤ now.toNat
    · rw [min_eq_left hstart]
      refine (gatedFloor_mul_le h.total_nonneg hstart hend).trans ?_
      exact mul_le_mul_of_nonneg_right h.total_le (by omega)
    · -- nothing vests before the start
      have hnothing : stream.vested now = 0 := gatedFloor_of_gated (by omega)
      rw [hnothing, min_eq_right (by omega)]
      simp

theorem StreamOp.Outcome.cut {op : StreamOp} {now id : UInt64} {stream : Stream Address}
    {z : Settled Address} (h : stream.WellFormed now) (ho : op.Outcome now id stream z)
    (hcut : stream.cancelled = true → stream.Cut) (hcancelled : z.stream.cancelled = true) :
    z.stream.Cut := by
  cases ho with
  | paid _ amount _ _ _ _ hz =>
    subst hz
    have hcut' := hcut hcancelled
    exact ⟨hcut'.before_last, hcut'.share_le⟩
  | closed _ _ hend hz =>
    subst hz
    exact h.cut_close hend

variable [DecidableEq Address]

theorem Change.cut {w w' : World Address} {l : Label Address} (hw : w.Sound) (h : Change w l w')
    (hcut : ∀ id stream, w.streams id = some stream → stream.cancelled = true → stream.Cut) :
    ∀ id stream, w'.streams id = some stream → stream.cancelled = true → stream.Cut := by
  cases h with
  | idle _ _ _ _ _ hstreams _ _ =>
    rw [hstreams]
    exact hcut
  | opened env o next book _ _ _ _ hworld =>
    subst hworld
    exact forall_stored_update hcut _ fun hc => by cases hc
  | settled env op id stream z book _ hstream houtcome _ hworld =>
    subst hworld
    exact forall_stored_update hcut id
      (houtcome.cut (hw.records id stream hstream) (hcut id stream hstream))

theorem Reachable.storable {w : World Address} (h : Reachable w) {id : UInt64}
    {stream : Stream Address} (hstream : w.streams id = some stream) :
    stream.Storable w.contractAddress w.timestamp := by
  have hw := h.sound
  obtain ⟨w₀, ls, hfresh, hrun⟩ := h
  have hcut : ∀ id stream, w.streams id = some stream → stream.cancelled = true → stream.Cut := by
    refine hrun.invariant (fun _ m => ∀ id stream, m.streams id = some stream →
      stream.cancelled = true → stream.Cut) (by simp [hfresh.streams]) ?_
    intro ls m l m' hbefore hm hstep
    have hsound := hfresh.sound.run hbefore
    exact (hstep.change hsound).cut hsound hm
  exact ⟨hw.records id stream hstream, hw.sender_ne id stream hstream,
    hw.recipient_ne id stream hstream, hw.token_ne id stream hstream, hcut id stream hstream⟩

/-! ### Every storable record is stored by some run -/

/-- Everyone authorizes everything, and tokens move what they are asked to. -/
def Env.obliging : Env Address where
  authorized := fun _ => true
  token := fun _ book source target amount => some (Pool.move book source target amount.toInt)
  minLife := 0
  extendsAtThreshold := false

/-- Reachable by a run in which every token was exact throughout. -/
def ReachableExactly (w : World Address) : Prop :=
  ∃ w₀ ls, Fresh w₀ ∧ Run Step w₀ ls w ∧
    ∀ token, ∀ l ∈ ls, l.ExactFor token w₀.contractAddress

theorem ReachableExactly.reachable {w : World Address} (h : ReachableExactly w) : Reachable w := by
  obtain ⟨w₀, ls, hfresh, hrun, _⟩ := h
  exact ⟨w₀, ls, hfresh, hrun⟩

theorem ReachableExactly.step {w w' : World Address} {l : Label Address}
    (h : ReachableExactly w) (hstep : Step w l w')
    (hexact : ∀ token, l.ExactFor token w.contractAddress) : ReachableExactly w' := by
  obtain ⟨w₀, ls, hfresh, hrun, hall⟩ := h
  rw [hfresh.sound.run_contractAddress hrun] at hexact
  refine ⟨w₀, ls ++ [l], hfresh, hrun.snoc hstep, ?_⟩
  intro token k hk
  rcases List.mem_append.mp hk with hk | hk
  · exact hall token k hk
  · obtain rfl := List.mem_singleton.mp hk
    exact hexact token

/-- Some run with exact tokens has the record stored, at the time `now`. -/
def Stream.Realized (this : Address) (now : UInt64) (stream : Stream Address) : Prop :=
  ∃ w id, ReachableExactly w ∧ w.contractAddress = this ∧ w.timestamp = now ∧
    w.streams id = some stream

namespace Stream.Realized

variable {this : Address} {now later : UInt64} {stream : Stream Address}

theorem opened {o : Opening Address} (h : o.Valid this 0) : o.stream.Realized this 0 := by
  let w₀ : World Address :=
    { contractAddress := this, timestamp := 0, sequence := 0, streamCount := none,
      streams := fun _ => none, liveUntil := fun _ => 0, balance := fun _ _ => 0 }
  have hfresh : Fresh w₀ := ⟨rfl, rfl, fun _ => rfl⟩
  have hstep : Step w₀ (.call .obliging o.call ⟨0, .ok (.id 0),
      [⟨o.token, o.sender, this, o.totalAmount⟩], [.created (o.created 0)]⟩)
      (w₀.opened .obliging o (Pool.move (fun _ => 0) o.sender this o.totalAmount.toInt) 0 1) := by
    apply Step.call
    have hauth : Env.obliging.authorized o.sender = true := rfl
    have hcheck : o.check w₀.contractAddress w₀.timestamp = .ok () := o.check_of_valid h
    rw [World.invoke_create, if_pos hauth, hcheck]
    rfl
  refine ⟨_, 0, ⟨w₀, _, hfresh, .single hstep, ?_⟩, rfl, rfl, by
    change Function.update w₀.streams 0 (some o.stream) 0 = _
    rw [Function.update_self]⟩
  intro token l hl
  obtain rfl := List.mem_singleton.mp hl
  exact fun _ _ _ _ => Or.inr rfl

theorem wait (h : stream.Realized this now) (hle : now.toNat ≤ later.toNat) :
    stream.Realized this later := by
  obtain ⟨w, id, hexact, hthis, hnow, hstream⟩ := h
  have hstep : Step w (.clock later w.sequence) { w with timestamp := later, sequence := _ } :=
    .clock (by rw [hnow, UInt64.le_iff_toNat_le]; exact hle) le_rfl
  exact ⟨_, id, hexact.step hstep fun _ => trivial, hthis, rfl, hstream⟩

/-- A settling call that its record allows can be made. -/
theorem settle (h : stream.Realized this now) {stream' : Stream Address} (op : StreamOp)
    (hsettle : ∀ id, ∃ z, op.Outcome now id stream z ∧ z.stream = stream') :
    stream'.Realized this now := by
  obtain ⟨w, id, hexact, hthis, rfl, hstream⟩ := h
  obtain ⟨z, houtcome, rfl⟩ := hsettle id
  have hformed := hexact.reachable.sound.records id stream hstream
  have hpos : 0 < z.amount := houtcome.amount_pos hformed
  have hstep : Step w (.call .obliging (op.call id) ⟨w.timestamp, .ok (.amount z.amount),
      [⟨stream.token, w.contractAddress, op.party stream, z.amount⟩], [z.event]⟩)
      (((w.refreshed .obliging id).stored .obliging id z.stream).setBook stream.token
        (Pool.move (w.balance stream.token) w.contractAddress (op.party stream)
          z.amount.toInt)) := by
    apply Step.call
    rw [w.invoke_op, hstream]
    simp only [Env.obliging, if_true, houtcome.settle_eq hformed, Settled.paid, if_pos hpos]
  refine ⟨_, id, hexact.step hstep fun token => ?_, hthis, rfl, Function.update_self _ _ _⟩
  exact fun _ _ _ _ => Or.inr rfl

theorem close (h : stream.Realized this now) (hlive : stream.cancelled = false)
    (hend : now.toNat < stream.endTime.toNat) :
    (stream.close (stream.vestedUnits now) now).Realized this now :=
  h.settle .cancel fun _ => ⟨_, .closed rfl hlive hend rfl, rfl⟩

/-- What has been withdrawn from a record may have been withdrawn at once. -/
theorem withdrawn (hformed : stream.WellFormed now)
    (h : { stream with withdrawn := 0 }.Realized this now) : stream.Realized this now := by
  have hfresh : { stream with withdrawn := 0 }.WellFormed now :=
    { hformed with
      withdrawn_nonneg := le_rfl
      withdrawn_le := hformed.vested_nonneg now }
  have hwrap : Signed.wrap (0 + stream.withdrawn.toInt) = stream.withdrawn :=
    Signed.ext (by rw [zero_add, Signed.toInt_wrap_of_fits (by omega) stream.withdrawn.fits])
  have hpaid : { stream with withdrawn := 0 }.pay stream.withdrawn = stream := by
    simp only [pay, Signed.toInt_zero, hwrap]
  by_cases hzero : stream.withdrawn = 0
  · rw [← hzero] at h
    exact h
  · have hpos : 0 < stream.withdrawn.toInt := by
      refine lt_of_le_of_ne hformed.withdrawn_nonneg fun he => hzero (Signed.ext ?_)
      rw [← he, Signed.toInt_zero]
    have hle : stream.withdrawn.toInt ≤ ({ stream with withdrawn := 0 }.available now).toInt := by
      rw [hfresh.toInt_available, Signed.toInt_zero, sub_zero]
      exact hformed.withdrawn_le
    refine h.settle (.withdrawAmount stream.withdrawn) fun id => ⟨⟨stream.withdrawn,
      { stream with withdrawn := 0 }.pay stream.withdrawn,
      .withdrawn ⟨stream.recipient, id, stream.withdrawn⟩⟩, ?_, hpaid⟩
    refine .paid (selectAmount stream.withdrawn) stream.withdrawn rfl ?_ hpos hle rfl
    have hpositive : ¬ stream.withdrawn ≤ 0 := not_le.mpr hpos
    have hwithin : ¬ { stream with withdrawn := 0 }.available now < stream.withdrawn :=
      not_lt.mpr hle
    rw [selectAmount, if_neg hpositive, if_neg hwithin]

end Stream.Realized

namespace Stream.Storable

variable {this : Address} {now : UInt64} {stream : Stream Address}

theorem realized_live (h : stream.Storable this now) (hlive : stream.cancelled = false) :
    stream.Realized this now := by
  have hformed := h.wellFormed
  let o : Opening Address := ⟨stream.sender, stream.recipient, stream.token, stream.totalAmount,
    stream.startTime, stream.endTime, stream.cliffTime⟩
  have hstream : o.stream = { stream with withdrawn := 0 } := by simp [o, Opening.stream, hlive]
  have hstart := (hformed.live hlive).1
  have hvalid : o.Valid this 0 :=
    ⟨h.sender_ne, h.recipient_ne, h.token_ne, (hformed.live hlive).2, hformed.total_le, hstart,
      hformed.start_le_cliff, hformed.cliff_le_end, (Nat.zero_le _).trans_lt hstart⟩
  have hopened : o.stream.Realized this now := (Realized.opened hvalid).wait (Nat.zero_le _)
  rw [hstream] at hopened
  exact hopened.withdrawn hformed

/-- A cancelled record is cut from a window that would have ended one second later. -/
theorem realized_cancelled (h : stream.Storable this now) (hc : stream.cancelled = true) :
    stream.Realized this now := by
  have hformed := h.wellFormed
  have hcut := h.cut hc
  have hcliff := hformed.cliff_le_end
  have hstart := hformed.start_le_cliff
  obtain ⟨total, hpos, hle, hfloor⟩ := exists_gatedFloor_eq hformed.total_nonneg (by decide)
    (hstart.trans hcliff) hcliff hcut.share_le
  have hlast : (UInt64.ofNat (stream.endTime.toNat + 1)).toNat = stream.endTime.toNat + 1 :=
    UInt64.toNat_ofNat_of_lt' hcut.before_last
  let o : Opening Address := ⟨stream.sender, stream.recipient, stream.token,
    ⟨total, fits_of_le hpos.le hle⟩, stream.startTime, .ofNat (stream.endTime.toNat + 1),
    stream.cliffTime⟩
  have hvalid : o.Valid this 0 := by
    refine ⟨h.sender_ne, h.recipient_ne, h.token_ne, hpos, hle, ?_, hstart, ?_, ?_⟩ <;>
      simp only [o, hlast, UInt64.toNat_zero] <;> omega
  have hbefore := (o.stream_wellFormed hvalid).advance (Nat.zero_le stream.endTime.toNat)
  have hunits : o.stream.vestedUnits stream.endTime = stream.totalAmount := by
    apply Signed.ext
    rw [hbefore.toInt_vestedUnits, ← hfloor, ← hlast]
    rfl
  have hclosed : o.stream.close (o.stream.vestedUnits stream.endTime) stream.endTime =
      { stream with withdrawn := 0 } := by
    have hmin : min stream.startTime stream.endTime = stream.startTime :=
      UInt64.toNat_inj.mp (by rw [U64.toNat_min, min_eq_left (hstart.trans hcliff)])
    have hmin' : min stream.cliffTime stream.endTime = stream.cliffTime :=
      UInt64.toNat_inj.mp (by rw [U64.toNat_min, min_eq_left hcliff])
    rw [hunits]
    simp [o, Opening.stream, close, hmin, hmin', hc]
  have hend : stream.endTime.toNat < o.stream.endTime.toNat := by
    simp only [o, Opening.stream, hlast]
    omega
  have hcancelled :=
    (((Realized.opened hvalid).wait (Nat.zero_le _)).close rfl hend).wait (hformed.closed hc)
  rw [hclosed] at hcancelled
  exact hcancelled.withdrawn hformed

end Stream.Storable

/-- The records that contract `this` can hold at ledger time `now` are exactly the
storable ones: every run stores only these, and each of them is stored by some run,
even by one in which every token is exact throughout. -/
theorem storable_iff_stored (this : Address) (now : UInt64) (stream : Stream Address) :
    (stream.Storable this now ↔ ∃ w id, Reachable w ∧ w.contractAddress = this ∧
      w.timestamp = now ∧ w.streams id = some stream) ∧
    (stream.Storable this now ↔ ∃ w id, ReachableExactly w ∧ w.contractAddress = this ∧
      w.timestamp = now ∧ w.streams id = some stream) := by
  have hstored : ∀ w id, Reachable w ∧ w.contractAddress = this ∧ w.timestamp = now ∧
      w.streams id = some stream → stream.Storable this now := by
    rintro w id ⟨hreachable, rfl, rfl, hstream⟩
    exact hreachable.storable hstream
  have hrealized : stream.Storable this now → stream.Realized this now := by
    intro h
    cases hc : stream.cancelled with
    | false => exact h.realized_live hc
    | true => exact h.realized_cancelled hc
  refine ⟨⟨fun h => ?_, fun ⟨w, id, h⟩ => hstored w id h⟩, ⟨hrealized, fun ⟨w, id, h⟩ => ?_⟩⟩
  · obtain ⟨w, id, hexact, hrest⟩ := hrealized h
    exact ⟨w, id, hexact.reachable, hrest⟩
  · exact hstored w id ⟨h.1.reachable, h.2⟩

end TricklePay
