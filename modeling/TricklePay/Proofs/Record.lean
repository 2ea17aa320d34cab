import TricklePay.Model.Phases
import TricklePay.Library.GatedLine

/-!
# One record over time

The exact schedule of a record, the invariant every stored record keeps, and
what the three settling calls do to one record. Under the invariant the machine
arithmetic never traps and computes the exact schedule.
-/

namespace TricklePay

open Checked

variable {Address : Type}

theorem toInt_maxAmount : maxAmount.toInt = 2 ^ 63 - 1 := rfl

/-- The exact number of units vested at `now`. -/
def Stream.vested (stream : Stream Address) (now : UInt64) : ℤ :=
  gatedFloor stream.totalAmount.toInt stream.startTime.toNat stream.endTime.toNat
    stream.cliffTime.toNat now.toNat

/-- What every stored record satisfies at every ledger time reached. -/
structure Stream.WellFormed (now : UInt64) (stream : Stream Address) : Prop where
  withdrawn_nonneg : 0 ≤ stream.withdrawn.toInt
  withdrawn_le : stream.withdrawn.toInt ≤ stream.vested now
  total_le : stream.totalAmount.toInt ≤ maxAmount.toInt
  start_le_cliff : stream.startTime.toNat ≤ stream.cliffTime.toNat
  cliff_le_end : stream.cliffTime.toNat ≤ stream.endTime.toNat
  live : stream.cancelled = false →
    stream.startTime.toNat < stream.endTime.toNat ∧ 0 < stream.totalAmount.toInt
  closed : stream.cancelled = true → stream.endTime.toNat ≤ now.toNat

section Arithmetic

variable {totalAmount : I128}

theorem product_fits (elapsed : ℕ) (h₀ : 0 ≤ totalAmount.toInt)
    (h₁ : totalAmount.toInt ≤ maxAmount.toInt) (he : elapsed < 2 ^ 64) :
    0 ≤ totalAmount.toInt * elapsed ∧ Fits 128 (totalAmount.toInt * elapsed) := by
  rw [toInt_maxAmount] at h₁
  have hnonneg : 0 ≤ totalAmount.toInt * elapsed := mul_nonneg h₀ (Int.natCast_nonneg _)
  have hle : totalAmount.toInt * elapsed ≤ (2 ^ 63 - 1) * (2 ^ 64 - 1) :=
    mul_le_mul h₁ (by omega) (Int.natCast_nonneg _) (by norm_num)
  refine ⟨hnonneg, ?_⟩
  unfold Fits
  norm_num at hle ⊢
  omega

theorem fits_of_le {n : ℤ} (h₀ : 0 ≤ n) (h₁ : n ≤ maxAmount.toInt) : Fits 128 n := by
  rw [toInt_maxAmount] at h₁
  unfold Fits
  norm_num at h₁ ⊢
  omega

/-- On every amount `createStream` accepts, and on any window, the machine
computes the floor of the gated line. -/
theorem vestedAmount_spec (h₀ : 0 ≤ totalAmount.toInt) (h₁ : totalAmount.toInt ≤ maxAmount.toInt)
    (startTime endTime cliffTime now : UInt64) :
    ∃ v, vestedAmount totalAmount startTime endTime cliffTime now = .ok v ∧
      v.toInt = gatedFloor totalAmount.toInt startTime.toNat endTime.toNat cliffTime.toNat
        now.toNat := by
  unfold vestedAmount gatedFloor
  simp only [UInt64.lt_iff_toNat_lt, UInt64.le_iff_toNat_le]
  split_ifs with hgate hend
  · exact ⟨0, rfl, rfl⟩
  · exact ⟨totalAmount, rfl, rfl⟩
  · rw [not_or, not_lt, not_lt] at hgate
    obtain ⟨elapsed, helapsed, he⟩ := U64.sub_of_le (a := now) (b := startTime) hgate.2
    obtain ⟨duration, hduration, hd⟩ := U64.sub_of_le (a := endTime) (b := startTime) (by omega)
    have hproduct := product_fits elapsed.toNat h₀ h₁ elapsed.toNat_lt
    have hquotient := Int.tdiv_eq_ediv_of_nonneg (b := (duration.toNat : ℤ)) hproduct.1
    have hfits : Fits 128 ((totalAmount.toInt * elapsed.toNat).tdiv duration.toNat) := by
      have hle := Int.ediv_le_self (duration.toNat : ℤ) hproduct.1
      have hnonneg := Int.ediv_nonneg hproduct.1 (Int.natCast_nonneg duration.toNat)
      have hupper := hproduct.2.2
      rw [hquotient]
      exact ⟨le_trans (by norm_num) hnonneg, hle.trans_lt hupper⟩
    have hels : (elapsed.toNat : ℤ) = now.toNat - startTime.toNat := by omega
    have hdur : (duration.toNat : ℤ) = endTime.toNat - startTime.toNat := by omega
    refine ⟨⟨_, hfits⟩, ?_, ?_⟩
    · rw [helapsed, hduration, ok_bind, ok_bind]
      simp only [← I128.toInt_ofUInt64] at hproduct hfits ⊢
      refine Signed.mul_div_of_fits hproduct.2 ?_ hfits
      rw [I128.toInt_ofUInt64]
      omega
    · rw [← hels, ← hdur]
      exact hquotient

theorem withdrawableAmount_spec {vested withdrawn : I128} (h₀ : 0 ≤ withdrawn.toInt)
    (h₁ : withdrawn.toInt ≤ vested.toInt) :
    ∃ available, withdrawableAmount vested withdrawn = .ok available ∧
      available.toInt = vested.toInt - withdrawn.toInt := by
  have hfits : Fits 128 (vested.toInt - withdrawn.toInt) := by
    have hupper := vested.fits.2
    exact ⟨le_trans (by norm_num) (sub_nonneg.mpr h₁), by omega⟩
  refine ⟨⟨_, hfits⟩, ?_, rfl⟩
  have hnonneg : ¬ (⟨_, hfits⟩ : I128) < 0 := by
    rw [Signed.lt_iff, Signed.toInt_zero]
    exact not_lt.mpr (sub_nonneg.mpr h₁)
  simp [withdrawableAmount, Signed.sub_of_fits hfits, hnonneg, pure, Except.pure]

theorem settlement_spec {vested withdrawn : I128} (h₀ : 0 ≤ withdrawn.toInt)
    (h₁ : withdrawn.toInt ≤ vested.toInt) (h₂ : vested.toInt ≤ totalAmount.toInt) :
    ∃ split, settlement totalAmount vested withdrawn = .ok split ∧
      split.refund.toInt = totalAmount.toInt - vested.toInt ∧
      split.recipientRemaining.toInt = vested.toInt - withdrawn.toInt := by
  have htotal := totalAmount.fits.2
  have hrefund : Fits 128 (totalAmount.toInt - vested.toInt) :=
    ⟨le_trans (by norm_num) (sub_nonneg.mpr h₂), by omega⟩
  have hremaining : Fits 128 (vested.toInt - withdrawn.toInt) :=
    ⟨le_trans (by norm_num) (sub_nonneg.mpr h₁), by omega⟩
  refine ⟨⟨⟨_, hrefund⟩, ⟨_, hremaining⟩⟩, ?_, rfl, rfl⟩
  simp [settlement, Signed.sub_of_fits hrefund, Signed.sub_of_fits hremaining, pure, Except.pure]

end Arithmetic

namespace Stream

variable {stream : Stream Address} {now later : UInt64}

/-- The vested, the withdrawable and the unvested amount as machine integers. -/
def vestedUnits (stream : Stream Address) (now : UInt64) : I128 := Signed.wrap (stream.vested now)

def available (stream : Stream Address) (now : UInt64) : I128 :=
  Signed.wrap (stream.vested now - stream.withdrawn.toInt)

def refund (stream : Stream Address) (now : UInt64) : I128 :=
  Signed.wrap (stream.totalAmount.toInt - stream.vested now)

/-- The record a withdrawal of `amount` writes back. -/
def pay (stream : Stream Address) (amount : I128) : Stream Address :=
  { stream with withdrawn := Signed.wrap (stream.withdrawn.toInt + amount.toInt) }

/-- The record `cancel` writes back: nothing more vests, and the window closes
at the ledger time. -/
def close (stream : Stream Address) (vested : I128) (now : UInt64) : Stream Address :=
  { stream with
    totalAmount := vested
    startTime := min stream.startTime now
    cliffTime := min stream.cliffTime now
    endTime := now
    cancelled := true }

/-- From the moment it is reached a closed window releases everything left in it. -/
theorem vested_close (stream : Stream Address) (amount : I128) (h : now.toNat ≤ later.toNat) :
    (stream.close amount now).vested later = amount.toInt := by
  simp only [vested, close, U64.toNat_min]
  exact gatedFloor_closed _ _ _ h

@[simp] theorem vested_pay (stream : Stream Address) (amount : I128) (now : UInt64) :
    (stream.pay amount).vested now = stream.vested now := rfl

namespace WellFormed

theorem vested_of_cancelled (h : stream.WellFormed now) (hc : stream.cancelled = true) :
    stream.vested now = stream.totalAmount.toInt := by
  have hend := h.closed hc
  have hcliff := h.cliff_le_end
  have hstart := h.start_le_cliff
  exact gatedFloor_of_stop_le (by omega) (by omega) hend

theorem total_nonneg (h : stream.WellFormed now) : 0 ≤ stream.totalAmount.toInt := by
  cases hc : stream.cancelled with
  | false => exact (h.live hc).2.le
  | true =>
    rw [← h.vested_of_cancelled hc]
    exact h.withdrawn_nonneg.trans h.withdrawn_le

theorem vested_nonneg (h : stream.WellFormed now) (t : UInt64) : 0 ≤ stream.vested t :=
  gatedFloor_nonneg h.total_nonneg _ _ _ _

theorem vested_le_total (h : stream.WellFormed now) (t : UInt64) :
    stream.vested t ≤ stream.totalAmount.toInt :=
  gatedFloor_le_total h.total_nonneg _ _ _ _

theorem vested_mono (h : stream.WellFormed now) {a b : UInt64} (hab : a.toNat ≤ b.toNat) :
    stream.vested a ≤ stream.vested b :=
  gatedFloor_mono h.total_nonneg _ _ _ hab

theorem vested_of_end_le (h : stream.WellFormed now) {t : UInt64}
    (ht : stream.endTime.toNat ≤ t.toNat) : stream.vested t = stream.totalAmount.toInt := by
  have hcliff := h.cliff_le_end
  have hstart := h.start_le_cliff
  exact gatedFloor_of_stop_le (by omega) (by omega) ht

/-- Before its end a live stream has always something left to vest. -/
theorem vested_lt_total (h : stream.WellFormed now) (hc : stream.cancelled = false) {t : UInt64}
    (ht : t.toNat < stream.endTime.toNat) : stream.vested t < stream.totalAmount.toInt :=
  gatedFloor_lt_total (h.live hc).2 _ _ ht

theorem toInt_vestedUnits (h : stream.WellFormed now) (t : UInt64) :
    (stream.vestedUnits t).toInt = stream.vested t :=
  Signed.toInt_wrap_of_fits (by omega)
    (fits_of_le (h.vested_nonneg t) ((h.vested_le_total t).trans h.total_le))

/-- The machine computes the exact schedule, at any time. -/
theorem vestedAmount_eq (h : stream.WellFormed now) (t : UInt64) :
    stream.vestedAmount t = .ok (stream.vestedUnits t) := by
  obtain ⟨v, hv, hexact⟩ := vestedAmount_spec h.total_nonneg h.total_le stream.startTime
    stream.endTime stream.cliffTime t
  have hunits : stream.vestedUnits t = v := Signed.ext ((h.toInt_vestedUnits t).trans hexact.symm)
  rw [hunits]
  exact hv

theorem toInt_available (h : stream.WellFormed now) :
    (stream.available now).toInt = stream.vested now - stream.withdrawn.toInt := by
  have hupper := (h.vested_le_total now).trans h.total_le
  have hnonneg := h.withdrawn_nonneg
  have hle := h.withdrawn_le
  exact Signed.toInt_wrap_of_fits (by omega) (fits_of_le (by omega) (by omega))

/-- There is never less than nothing available. -/
theorem available_le_zero (h : stream.WellFormed now) :
    stream.available now ≤ 0 ↔ stream.available now = 0 := by
  have hdue := h.toInt_available
  have hle := h.withdrawn_le
  rw [Signed.le_iff, Signed.toInt_zero]
  constructor
  · intro hnonpos
    apply Signed.ext
    rw [Signed.toInt_zero]
    omega
  · intro hzero
    rw [hzero, Signed.toInt_zero]

theorem toInt_refund (h : stream.WellFormed now) :
    (stream.refund now).toInt = stream.totalAmount.toInt - stream.vested now := by
  have hupper := h.total_le
  have hnonneg := h.vested_nonneg now
  have hle := h.vested_le_total now
  exact Signed.toInt_wrap_of_fits (by omega) (fits_of_le (by omega) (by omega))

theorem toInt_pay (h : stream.WellFormed now) {amount : I128} (h₀ : 0 < amount.toInt)
    (hle : amount.toInt ≤ (stream.available now).toInt) :
    (stream.pay amount).withdrawn.toInt = stream.withdrawn.toInt + amount.toInt := by
  have hupper := (h.vested_le_total now).trans h.total_le
  have hnonneg := h.withdrawn_nonneg
  rw [h.toInt_available] at hle
  exact Signed.toInt_wrap_of_fits (by omega) (fits_of_le (by omega) (by omega))

theorem advance (h : stream.WellFormed now) (hle : now.toNat ≤ later.toNat) :
    stream.WellFormed later where
  withdrawn_nonneg := h.withdrawn_nonneg
  withdrawn_le := h.withdrawn_le.trans (h.vested_mono hle)
  total_le := h.total_le
  start_le_cliff := h.start_le_cliff
  cliff_le_end := h.cliff_le_end
  live := h.live
  closed := fun hc => (h.closed hc).trans hle

theorem withdrawableAmount_eq (h : stream.WellFormed now) :
    withdrawableAmount (stream.vestedUnits now) stream.withdrawn = .ok (stream.available now) := by
  have hle := h.withdrawn_le
  rw [← h.toInt_vestedUnits] at hle
  obtain ⟨available, havailable, hexact⟩ := withdrawableAmount_spec h.withdrawn_nonneg hle
  rw [h.toInt_vestedUnits, ← h.toInt_available] at hexact
  rw [havailable, Signed.ext hexact]

theorem settlement_eq (h : stream.WellFormed now) :
    settlement stream.totalAmount (stream.vestedUnits now) stream.withdrawn =
      .ok ⟨stream.refund now, stream.available now⟩ := by
  have hle := h.withdrawn_le
  have htotal := h.vested_le_total now
  rw [← h.toInt_vestedUnits] at hle htotal
  obtain ⟨split, hsplit, hrefund, hremaining⟩ := settlement_spec h.withdrawn_nonneg hle htotal
  rw [h.toInt_vestedUnits] at hrefund hremaining
  rw [← h.toInt_refund] at hrefund
  rw [← h.toInt_available] at hremaining
  rw [hsplit, ← Signed.ext hrefund, ← Signed.ext hremaining]

theorem pay (h : stream.WellFormed now) {amount : I128} (h₀ : 0 < amount.toInt)
    (hle : amount.toInt ≤ (stream.available now).toInt) : (stream.pay amount).WellFormed now where
  withdrawn_nonneg := by
    have hnonneg := h.withdrawn_nonneg
    rw [h.toInt_pay h₀ hle]
    omega
  withdrawn_le := by
    rw [h.toInt_pay h₀ hle, vested_pay]
    rw [h.toInt_available] at hle
    omega
  total_le := h.total_le
  start_le_cliff := h.start_le_cliff
  cliff_le_end := h.cliff_le_end
  live := h.live
  closed := h.closed

theorem close (h : stream.WellFormed now) :
    (stream.close (stream.vestedUnits now) now).WellFormed now where
  withdrawn_nonneg := h.withdrawn_nonneg
  withdrawn_le := by
    rw [vested_close _ _ le_rfl, h.toInt_vestedUnits]
    exact h.withdrawn_le
  total_le := by
    change (stream.vestedUnits now).toInt ≤ _
    rw [h.toInt_vestedUnits]
    exact (h.vested_le_total now).trans h.total_le
  start_le_cliff := by
    have hle := h.start_le_cliff
    simp only [Stream.close, U64.toNat_min]
    omega
  cliff_le_end := by
    simp only [Stream.close, U64.toNat_min]
    omega
  live := by simp [Stream.close]
  closed := fun _ => le_rfl

end WellFormed
end Stream

/-- Who must authorize the call, and who is paid by it. -/
def StreamOp.party (op : StreamOp) (stream : Stream Address) : Address :=
  match op with
  | .withdraw => stream.recipient
  | .withdrawAmount _ => stream.recipient
  | .cancel => stream.sender

/-- What a settling call does once its record is loaded and its party has
authorized it: the amount it pays, the record it writes back, the event. -/
structure Settled (Address : Type) where
  amount : I128
  stream : Stream Address
  event : Event Address

def settleWithdraw (select : I128 → Except StreamError I128) (now id : UInt64)
    (stream : Stream Address) : Except Failure (Settled Address) := do
  let vested ← (stream.vestedAmount now).mapError .trap
  let available ← (withdrawableAmount vested stream.withdrawn).mapError .trap
  let amount ← (select available).mapError .error
  let withdrawn ← (stream.withdrawn.add amount).mapError .trap
  return ⟨amount, { stream with withdrawn }, .withdrawn ⟨stream.recipient, id, amount⟩⟩

def settleCancel (now id : UInt64) (stream : Stream Address) :
    Except Failure (Settled Address) :=
  if stream.cancelled then .error (.error .alreadyCancelled)
  else if stream.endTime ≤ now then .error (.error .streamAlreadyCompleted)
  else do
    let vested ← (stream.vestedAmount now).mapError .trap
    let split ← (settlement stream.totalAmount vested stream.withdrawn).mapError .trap
    return ⟨split.refund, stream.close vested now,
      .cancelled ⟨stream.sender, id, split.recipientRemaining, split.refund⟩⟩

def StreamOp.settle (op : StreamOp) (now id : UInt64) (stream : Stream Address) :
    Except Failure (Settled Address) :=
  match op with
  | .withdraw => settleWithdraw selectAll now id stream
  | .withdrawAmount amount => settleWithdraw (selectAmount amount) now id stream
  | .cancel => settleCancel now id stream

/-- A selection that pays something, and never more than is available. -/
def Bounded (select : I128 → Except StreamError I128) : Prop :=
  ∀ available amount, select available = .ok amount →
    0 < amount.toInt ∧ amount.toInt ≤ available.toInt

theorem selectAll_bounded : Bounded selectAll := by
  intro available amount h
  unfold selectAll at h
  split_ifs at h with hle
  cases h
  rw [Signed.le_iff, Signed.toInt_zero] at hle
  exact ⟨not_le.mp hle, le_rfl⟩

theorem selectAmount_bounded (requested : I128) : Bounded (selectAmount requested) := by
  intro available amount h
  unfold selectAmount at h
  split_ifs at h with hle hlt
  cases h
  rw [Signed.le_iff, Signed.toInt_zero] at hle
  rw [Signed.lt_iff] at hlt
  exact ⟨not_le.mp hle, not_lt.mp hlt⟩

theorem selectAll_eq {available amount : I128} (h : selectAll available = .ok amount) :
    amount = available := by
  unfold selectAll at h
  split_ifs at h
  exact (Except.ok.inj h).symm

theorem selectAmount_eq {requested available amount : I128}
    (h : selectAmount requested available = .ok amount) : amount = requested := by
  unfold selectAmount at h
  split_ifs at h
  exact (Except.ok.inj h).symm

section Settle

variable {stream : Stream Address} {now : UInt64}

/-- A withdrawal from a well-formed record never traps: it is decided by the
selection alone. -/
theorem settleWithdraw_eq (h : stream.WellFormed now) {select : I128 → Except StreamError I128}
    (hselect : Bounded select) (id : UInt64) :
    settleWithdraw select now id stream = ((select (stream.available now)).mapError .error).map
      fun amount => ⟨amount, stream.pay amount, .withdrawn ⟨stream.recipient, id, amount⟩⟩ := by
  unfold settleWithdraw
  rw [h.vestedAmount_eq]
  simp only [Except.mapError, ok_bind, h.withdrawableAmount_eq]
  cases hs : select (stream.available now) with
  | error e => rfl
  | ok amount =>
    have hbound := hselect (stream.available now) amount hs
    have hpay := h.toInt_pay hbound.1 hbound.2
    have hadd := Signed.add_eq_ok_iff.mpr hpay
    simp only [ok_bind, hadd]
    rfl

theorem settleCancel_eq (h : stream.WellFormed now) (id : UInt64) :
    settleCancel now id stream =
      if stream.cancelled then .error (.error .alreadyCancelled)
      else if stream.endTime ≤ now then .error (.error .streamAlreadyCompleted)
      else .ok ⟨stream.refund now, stream.close (stream.vestedUnits now) now,
        .cancelled ⟨stream.sender, id, stream.available now, stream.refund now⟩⟩ := by
  unfold settleCancel
  split_ifs with hcancelled hend
  · rfl
  · rfl
  · rw [h.vestedAmount_eq]
    simp only [Except.mapError, ok_bind, h.settlement_eq]
    rfl

/-- How a withdrawal chooses its amount; `cancel` chooses none. -/
def StreamOp.select? : StreamOp → Option (I128 → Except StreamError I128)
  | .withdraw => some selectAll
  | .withdrawAmount amount => some (selectAmount amount)
  | .cancel => none

theorem StreamOp.select?_bounded {op : StreamOp} {select : I128 → Except StreamError I128}
    (h : op.select? = some select) : Bounded select := by
  cases op with
  | withdraw =>
    cases h
    exact selectAll_bounded
  | withdrawAmount amount =>
    cases h
    exact selectAmount_bounded amount
  | cancel => cases h

theorem StreamOp.party_of_select {op : StreamOp} {select : I128 → Except StreamError I128}
    (h : op.select? = some select) (stream : Stream Address) :
    op.party stream = stream.recipient := by
  cases op with
  | withdraw => rfl
  | withdrawAmount amount => rfl
  | cancel => cases h

/-- The two ways a settling call succeeds on a record. -/
inductive StreamOp.Outcome (op : StreamOp) (now id : UInt64) (stream : Stream Address)
    (z : Settled Address) : Prop
  | paid (select : I128 → Except StreamError I128) (amount : I128)
      (hselect : op.select? = some select) (hamount : select (stream.available now) = .ok amount)
      (hpos : 0 < amount.toInt) (hle : amount.toInt ≤ (stream.available now).toInt)
      (hz : z = ⟨amount, stream.pay amount, .withdrawn ⟨stream.recipient, id, amount⟩⟩)
  | closed (hop : op = .cancel) (hlive : stream.cancelled = false)
      (hend : now.toNat < stream.endTime.toNat)
      (hz : z = ⟨stream.refund now, stream.close (stream.vestedUnits now) now,
        .cancelled ⟨stream.sender, id, stream.available now, stream.refund now⟩⟩)

theorem StreamOp.settle_select (h : stream.WellFormed now) {op : StreamOp}
    {select : I128 → Except StreamError I128} (hselect : op.select? = some select) (id : UInt64) :
    op.settle now id stream = ((select (stream.available now)).mapError .error).map
      fun amount => ⟨amount, stream.pay amount, .withdrawn ⟨stream.recipient, id, amount⟩⟩ := by
  have hbounded := select?_bounded hselect
  cases op with
  | withdraw =>
    cases hselect
    exact settleWithdraw_eq h hbounded id
  | withdrawAmount amount =>
    cases hselect
    exact settleWithdraw_eq h hbounded id
  | cancel => cases hselect

theorem StreamOp.settle_outcome (h : stream.WellFormed now) {op : StreamOp} {id : UInt64}
    {z : Settled Address} (hz : op.settle now id stream = .ok z) : op.Outcome now id stream z := by
  cases hselect : op.select? with
  | some select =>
    rw [op.settle_select h hselect] at hz
    cases hamount : select (stream.available now) with
    | error e =>
      rw [hamount] at hz
      cases hz
    | ok amount =>
      rw [hamount] at hz
      cases hz
      have hbound := select?_bounded hselect _ _ hamount
      exact .paid select amount hselect hamount hbound.1 hbound.2 rfl
  | none =>
    obtain rfl : op = .cancel := by cases op <;> first | rfl | cases hselect
    change settleCancel now id stream = .ok z at hz
    rw [settleCancel_eq h] at hz
    split_ifs at hz with hcancelled hend
    cases hz
    rw [UInt64.le_iff_toNat_le, not_le] at hend
    exact .closed rfl (by simpa using hcancelled) hend rfl

namespace StreamOp.Outcome

variable {op : StreamOp} {id : UInt64} {z : Settled Address}

/-- The outcome of a settling call is what it computes. -/
theorem settle_eq (h : stream.WellFormed now) (ho : op.Outcome now id stream z) :
    op.settle now id stream = .ok z := by
  cases ho with
  | paid select amount hselect hamount _ _ hz =>
    rw [op.settle_select h hselect, hamount, hz]
    rfl
  | closed hop hlive hend hz =>
    subst hop hz
    have hopen : ¬ stream.endTime ≤ now := by
      rw [UInt64.le_iff_toNat_le]
      exact not_le.mpr hend
    change settleCancel now id stream = _
    rw [settleCancel_eq h, hlive, if_neg (by decide), if_neg hopen]

/-- Every settling call that succeeds pays something: a live stream before its
end has at least one unit left to refund. -/
theorem amount_pos (h : stream.WellFormed now) (ho : op.Outcome now id stream z) :
    0 < z.amount.toInt := by
  cases ho with
  | paid _ _ _ _ hpos _ hz => rwa [hz]
  | closed _ hlive hend hz =>
    have hlt := h.vested_lt_total hlive hend
    rw [hz, h.toInt_refund]
    omega

theorem wellFormed (h : stream.WellFormed now) (ho : op.Outcome now id stream z) :
    z.stream.WellFormed now := by
  cases ho with
  | paid _ _ _ _ hpos hle hz => exact hz ▸ h.pay hpos hle
  | closed _ _ _ hz => exact hz ▸ h.close

theorem parties_eq (ho : op.Outcome now id stream z) :
    z.stream.sender = stream.sender ∧ z.stream.recipient = stream.recipient ∧
      z.stream.token = stream.token := by
  cases ho with
  | paid _ _ _ _ _ _ hz => exact hz ▸ ⟨rfl, rfl, rfl⟩
  | closed _ _ _ hz => exact hz ▸ ⟨rfl, rfl, rfl⟩

/-- What a settling call pays leaves the escrow of its stream, and nothing else does. -/
theorem escrow_eq (h : stream.WellFormed now) (ho : op.Outcome now id stream z) :
    z.stream.totalAmount.toInt - z.stream.withdrawn.toInt =
      stream.totalAmount.toInt - stream.withdrawn.toInt - z.amount.toInt := by
  cases ho with
  | paid _ amount _ _ hpos hle hz =>
    rw [hz]
    change stream.totalAmount.toInt - (stream.pay amount).withdrawn.toInt =
      stream.totalAmount.toInt - stream.withdrawn.toInt - amount.toInt
    rw [h.toInt_pay hpos hle]
    omega
  | closed _ _ _ hz =>
    rw [hz]
    change (stream.vestedUnits now).toInt - stream.withdrawn.toInt = _
    rw [h.toInt_vestedUnits, h.toInt_refund]
    omega

end StreamOp.Outcome

end Settle

end TricklePay
