import TricklePay.Proofs.Lifecycle

/-!
# The views tell one story

The views compute what they report along separate paths: from times, from rounded
amounts, from a flag. On every record the contract can hold they agree, and the
different notions of a finished stream are one.
-/

namespace TricklePay

open Checked Transition

variable {Address : Type}

/-- Nothing more will vest: the stream was cancelled, or its window is over. -/
def Stream.Finished (stream : Stream Address) (now : UInt64) : Prop :=
  stream.cancelled = true ∨ stream.endTime.toNat ≤ now.toNat

namespace Stream.WellFormed

variable {stream : Stream Address} {now : UInt64}

theorem finished_iff_vested (h : stream.WellFormed now) :
    stream.Finished now ↔ stream.vested now = stream.totalAmount.toInt := by
  constructor
  · rintro (hcancelled | hend)
    · exact h.vested_of_cancelled hcancelled
    · exact h.vested_of_end_le hend
  · intro hvested
    by_contra hopen
    rw [Stream.Finished, not_or, not_le, Bool.not_eq_true] at hopen
    have hlt := h.vested_lt_total hopen.1 hopen.2
    omega

theorem finished_iff_status (h : stream.WellFormed now) :
    stream.Finished now ↔
      streamStatus stream now = .completed ∨ streamStatus stream now = .cancelled := by
  unfold streamStatus Stream.Finished
  simp only [UInt64.lt_iff_toNat_lt, UInt64.le_iff_toNat_le]
  cases hcancelled : stream.cancelled with
  | true => simp
  | false =>
    have hlive := (h.live hcancelled).1
    rw [if_neg (by decide)]
    split_ifs with hstart hend
    · simp only [false_or, or_self, iff_false]
      omega
    · simp [hend]
    · simp [hend]

theorem finished_iff_bps (h : stream.WellFormed now) :
    stream.Finished now ↔ stream.bps now = 10000 := by
  rw [h.finished_iff_vested]
  have hnonneg := h.vested_nonneg now
  have hle := h.vested_le_total now
  unfold Stream.bps
  split_ifs with hzero
  · simp only [iff_true]
    omega
  · have hpos : 0 < stream.totalAmount.toInt := lt_of_le_of_ne h.total_nonneg (Ne.symm hzero)
    constructor
    · intro hvested
      rw [hvested]
      exact Int.mul_ediv_cancel_left 10000 hzero
    · intro hbps
      have hmul := Int.ediv_mul_le (stream.vested now * 10000) hzero
      rw [hbps] at hmul
      omega

theorem finished_iff_locked (h : stream.WellFormed now) :
    stream.Finished now ↔ stream.refund now = 0 := by
  have hrefund := h.toInt_refund
  rw [h.finished_iff_vested]
  constructor
  · intro hvested
    apply Signed.ext
    rw [hrefund, hvested]
    exact sub_self _
  · intro hlocked
    rw [hlocked, Signed.toInt_zero] at hrefund
    omega

theorem finished_iff_progress (h : stream.WellFormed now) :
    stream.Finished now ↔ (stream.reading now).progress = 10000 := by
  have hprogress := h.toNat_progress now
  rw [h.finished_iff_bps, ← UInt32.toNat_inj, ← hprogress]
  exact Nat.cast_inj

theorem vested_of_pending (h : streamStatus stream now = .pending) : stream.vested now = 0 := by
  unfold streamStatus at h
  split_ifs at h with hcancelled hstart
  exact gatedFloor_of_gated (Or.inr (UInt64.lt_iff_toNat_lt.mp hstart))

theorem vested_of_streaming (hformed : stream.WellFormed now)
    (h : streamStatus stream now = .streaming) :
    stream.vested now < stream.totalAmount.toInt ∧ stream.bps now < 10000 := by
  have hopen : ¬ stream.Finished now := by
    rw [hformed.finished_iff_status, h]
    decide
  have hvested := hopen ∘ hformed.finished_iff_vested.mpr
  have hbps := hopen ∘ hformed.finished_iff_bps.mpr
  exact ⟨lt_of_le_of_ne (hformed.vested_le_total now) hvested,
    lt_of_le_of_ne (hformed.bps_le now) hbps⟩

end Stream.WellFormed

theorem Stream.finished_iff_preview {stream : Stream Address} {now : UInt64} :
    stream.Finished now ↔ ∃ e, stream.preview now = .error e := by
  unfold Stream.Finished Stream.preview
  simp only [UInt64.le_iff_toNat_le]
  split_ifs with hcancelled hend
  · simp [hcancelled]
  · simp [hend]
  · simp [hcancelled, hend]

variable [DecidableEq Address]

theorem World.Stores.finished_iff_cancelPreview {w : World Address} {id : UInt64}
    {stream : Stream Address} (h : w.Stores id stream) (env : Env Address) :
    stream.Finished w.timestamp ↔ ∃ failure, w.answer env (.cancelPreview id) = .error failure := by
  rw [h.answer_cancelPreview, Stream.finished_iff_preview]
  cases stream.preview w.timestamp with
  | error e => simp [Except.mapError, Except.map]
  | ok split => simp [Except.mapError, Except.map]

/-- On every reachable ledger the views of a stored stream add up exactly, with no
clamp in effect: the differences and the quotient they clamp are the values they
report. Finished by status, by the locked amount, by progress and by the answer of
`cancelPreview` is the same thing. -/
theorem views_tell_one_story {w : World Address} (h : Reachable w) {id : UInt64}
    {stream : Stream Address} (hstream : w.streams id = some stream) :
    ∃ r, w.Reports id r ∧
      r.vested.toInt + r.locked.toInt = stream.totalAmount.toInt ∧
      r.withdrawable.toInt = r.vested.toInt - stream.withdrawn.toInt ∧
      r.locked.toInt + r.withdrawable.toInt =
        stream.totalAmount.toInt - stream.withdrawn.toInt ∧
      stream.totalAmount.sub r.vested = .ok r.locked ∧
      r.vested.sub stream.withdrawn = .ok r.withdrawable ∧
      (stream.totalAmount ≠ 0 → ∃ scaled quotient,
        r.vested.mul (Signed.ofUInt32 bpsScale) = .ok scaled ∧
        scaled.div stream.totalAmount = .ok quotient ∧ quotient.toUInt32? = some r.progress) ∧
      (∀ env, w.answer env (.vestedAt id w.timestamp) = .ok (.amount r.vested)) ∧
      (r.progress.toNat : ℤ) = (if stream.totalAmount = 0 then 10000
        else 10000 * r.vested.toInt / stream.totalAmount.toInt) ∧
      ((r.status = .completed ∨ r.status = .cancelled) ↔ r.locked = 0) ∧
      (r.locked = 0 ↔ r.progress = 10000) ∧
      (∀ env, r.progress = 10000 ↔
        ∃ failure, w.answer env (.cancelPreview id) = .error failure) ∧
      (r.status = .pending → r.vested = 0) ∧
      (r.status = .streaming → r.vested < stream.totalAmount ∧ r.progress < 10000) := by
  have hstores := h.sound.stores hstream
  have hformed := hstores.wellFormed
  have hvested := hformed.toInt_vestedUnits w.timestamp
  have hprogress := hformed.toNat_progress w.timestamp
  refine ⟨stream.reading w.timestamp, hstores.reports, ?_, ?_, ?_, ?_, ?_, ?_,
    fun env => hstores.answer_vestedAt env w.timestamp, ?_, ?_, ?_, ?_, ?_, ?_⟩
  · change (stream.vestedUnits _).toInt + (stream.refund _).toInt = _
    rw [hvested, hformed.toInt_refund]
    omega
  · change (stream.available _).toInt = (stream.vestedUnits _).toInt - _
    rw [hvested, hformed.toInt_available]
  · change (stream.refund _).toInt + (stream.available _).toInt = _
    rw [hformed.toInt_refund, hformed.toInt_available]
    omega
  · rw [Signed.sub_eq_ok_iff]
    exact hformed.toInt_refund.trans (congrArg _ hvested.symm)
  · rw [Signed.sub_eq_ok_iff]
    exact hformed.toInt_available.trans (congrArg (· - _) hvested.symm)
  · intro hzero
    obtain ⟨scaled, quotient, hmul, hdiv, _, hcast⟩ :=
      hformed.progress_spec fun he => hzero (Signed.ext he)
    exact ⟨scaled, quotient, hmul, hdiv, hcast⟩
  · have hzero : stream.totalAmount = 0 ↔ stream.totalAmount.toInt = 0 :=
      ⟨fun he => by rw [he]; rfl, fun he => Signed.ext he⟩
    change _ = ite _ _ (10000 * (stream.vestedUnits w.timestamp).toInt / _)
    simp only [hprogress, Stream.bps, hvested, hzero, mul_comm]
  · exact hformed.finished_iff_status.symm.trans hformed.finished_iff_locked
  · exact hformed.finished_iff_locked.symm.trans hformed.finished_iff_progress
  · intro env
    exact hformed.finished_iff_progress.symm.trans (hstores.finished_iff_cancelPreview env)
  · intro hstatus
    apply Signed.ext
    exact hvested.trans (Stream.WellFormed.vested_of_pending hstatus)
  · intro hstatus
    obtain ⟨hlt, hbps⟩ := hformed.vested_of_streaming hstatus
    rw [← hprogress] at hbps
    constructor
    · rw [Signed.lt_iff]
      exact hvested.trans_lt hlt
    · rw [UInt32.lt_iff_toNat_lt]
      exact_mod_cast hbps

theorem views_tell_one_story_drained :
    ∃ r, Sample.drained.Reports 0 r ∧
      r.vested.toInt + r.locked.toInt = 100 ∧ r.withdrawable.toInt = r.vested.toInt - 40 ∧
      (r.locked = 0 ↔ r.progress = 10000) := by
  obtain ⟨r, hreports, hsum, hdue, _, _, _, _, _, _, _, hfinished, _⟩ :=
    views_tell_one_story Sample.drained_reachable Sample.drained_stream
  exact ⟨r, hreports, hsum, hdue, hfinished⟩

end TricklePay
