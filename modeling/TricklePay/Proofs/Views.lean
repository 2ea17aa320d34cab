import TricklePay.Proofs.Invariant

/-!
# What the views report

On a sound ledger every view of a stored stream returns, and what it returns is
the exact schedule of the record. With the closed forms of the other calls this
also shows that no call at all can stop with an arithmetic trap.
-/

namespace TricklePay

open Checked Transition

variable {Address : Type}

/-! ### The views of one record -/

/-- What the views report about one stream. -/
structure Reading where
  vested : I128
  withdrawable : I128
  locked : I128
  progress : UInt32
  status : StreamStatus
  deriving DecidableEq

namespace Stream

/-- Vesting progress in basis points; a stream cancelled before anything vested
is complete. -/
def bps (stream : Stream Address) (now : UInt64) : ℤ :=
  if stream.totalAmount.toInt = 0 then 10000
  else stream.vested now * 10000 / stream.totalAmount.toInt

def reading (stream : Stream Address) (now : UInt64) : Reading where
  vested := stream.vestedUnits now
  withdrawable := stream.available now
  locked := stream.refund now
  progress := UInt32.ofNat (stream.bps now).toNat
  status := streamStatus stream now

/-- What `cancelPreview` answers for a stored record. -/
def preview (stream : Stream Address) (now : UInt64) : Except StreamError Settlement :=
  if stream.cancelled then .error .alreadyCancelled
  else if stream.endTime ≤ now then .error .streamAlreadyCompleted
  else .ok ⟨stream.refund now, stream.available now⟩

variable {stream : Stream Address} {now : UInt64}

namespace WellFormed

theorem bps_nonneg (h : stream.WellFormed now) (t : UInt64) : 0 ≤ stream.bps t := by
  unfold bps
  split_ifs
  · decide
  · have hvested := h.vested_nonneg t
    exact Int.ediv_nonneg (by omega) h.total_nonneg

theorem bps_le (h : stream.WellFormed now) (t : UInt64) : stream.bps t ≤ 10000 := by
  unfold bps
  split_ifs with hzero
  · exact le_rfl
  · have hle := h.vested_le_total t
    have hpos : 0 < stream.totalAmount.toInt := lt_of_le_of_ne h.total_nonneg (Ne.symm hzero)
    have hdiv : stream.vested t * 10000 / stream.totalAmount.toInt < 10001 := by
      apply Int.ediv_lt_of_lt_mul hpos
      omega
    omega

/-- A cancelled stream is complete, even when nothing had vested. -/
theorem bps_of_cancelled (h : stream.WellFormed now) (hc : stream.cancelled = true) :
    stream.bps now = 10000 := by
  unfold bps
  split_ifs with hzero
  · rfl
  · rw [h.vested_of_cancelled hc]
    exact Int.mul_ediv_cancel_left 10000 hzero

theorem toNat_progress (h : stream.WellFormed now) (t : UInt64) :
    ((stream.reading t).progress.toNat : ℤ) = stream.bps t := by
  have hnonneg := h.bps_nonneg t
  have hle := h.bps_le t
  have hlt : (stream.bps t).toNat < 2 ^ 32 := by omega
  change ((UInt32.ofNat (stream.bps t).toNat).toNat : ℤ) = stream.bps t
  rw [UInt32.toNat_ofNat_of_lt' hlt]
  exact Int.toNat_of_nonneg hnonneg

theorem toUInt32_bps (h : stream.WellFormed now) (t : UInt64) {progress : I128}
    (hprogress : progress.toInt = stream.bps t) :
    progress.toUInt32? = some (stream.reading t).progress := by
  have hnonneg := h.bps_nonneg t
  have hle := h.bps_le t
  unfold Signed.toUInt32?
  rw [hprogress, if_pos ⟨hnonneg, by omega⟩]
  rfl

/-- The quotient that `progress` computes is exact, stays in its type, and is
already within its clamp. -/
theorem progress_spec (h : stream.WellFormed now) (hzero : stream.totalAmount.toInt ≠ 0) :
    ∃ scaled quotient : I128,
      (stream.vestedUnits now).mul (Signed.ofUInt32 bpsScale) = .ok scaled ∧
      scaled.div stream.totalAmount = .ok quotient ∧
      quotient.clamp 0 (Signed.ofUInt32 bpsScale) = .ok quotient ∧
      quotient.toUInt32? = some (stream.reading now).progress := by
  have hscale : (Signed.ofUInt32 bpsScale : I128).toInt = 10000 := I128.toInt_ofUInt32 bpsScale
  have hnonneg := h.vested_nonneg now
  have hupper := (h.vested_le_total now).trans h.total_le
  have hbps : stream.bps now = stream.vested now * 10000 / stream.totalAmount.toInt :=
    if_neg hzero
  have hscaled :
      Fits 128 ((stream.vestedUnits now).toInt * (Signed.ofUInt32 bpsScale : I128).toInt) := by
    rw [h.toInt_vestedUnits, hscale]
    rw [toInt_maxAmount] at hupper
    unfold Fits
    norm_num at hupper ⊢
    omega
  have hquotient : ((stream.vestedUnits now).toInt * (Signed.ofUInt32 bpsScale : I128).toInt).tdiv
      stream.totalAmount.toInt = stream.bps now := by
    rw [h.toInt_vestedUnits, hscale, hbps]
    exact Int.tdiv_eq_ediv_of_nonneg (by omega)
  have hfits : Fits 128 (stream.bps now) := by
    have hlow := h.bps_nonneg now
    have hhigh := h.bps_le now
    exact ⟨le_trans (by norm_num) hlow, hhigh.trans_lt (by norm_num)⟩
  refine ⟨⟨_, hscaled⟩, ⟨stream.bps now, hfits⟩, Signed.mul_of_fits hscaled, ?_, ?_, ?_⟩
  · rw [Signed.div, if_neg hzero]
    exact Signed.checked_eq_ok_iff.mpr hquotient.symm
  · apply Signed.clamp_of_mem
    · exact h.bps_nonneg now
    · rw [hscale]
      exact h.bps_le now
  · exact h.toUInt32_bps now rfl

end WellFormed
end Stream

/-- `cancel` is decided exactly as `cancelPreview` announces it. -/
theorem settleCancel_preview {stream : Stream Address} {now : UInt64} (h : stream.WellFormed now)
    (id : UInt64) :
    settleCancel now id stream = ((stream.preview now).mapError .error).map fun split =>
      ⟨split.refund, stream.close (stream.vestedUnits now) now,
        .cancelled ⟨stream.sender, id, split.recipientRemaining, split.refund⟩⟩ := by
  rw [settleCancel_eq h]
  unfold Stream.preview
  split_ifs <;> rfl

/-! ### Loading a record -/

section Loading

variable {env : Env Address} {id : UInt64} {frame : Frame Address} {β : Type}

/-- Loading a stored record hands it on, and refreshes its entry. -/
theorem load_run {stream : Stream Address} (hstream : frame.world.streams id = some stream)
    (f : Stream Address → Host Address β) :
    (getStream env id >>= fun found =>
      (liftM (okOr found .streamNotFound) : Host Address (Stream Address)) >>= f) frame =
      f stream (frame.refreshed env id) := by
  simp only [bind_run, getStream_run, hstream, Option.isSome_some, if_true, okOr, liftError_run]

theorem peek_run {stream : Stream Address} (hstream : frame.world.streams id = some stream)
    (f : Stream Address → Host Address β) :
    (getStreamReadonly id >>= fun found =>
      (liftM (okOr found .streamNotFound) : Host Address (Stream Address)) >>= f) frame =
      f stream frame := by
  simp only [bind_run, getStreamReadonly_run, hstream, okOr, liftError_run]

theorem load_none_run (hstream : frame.world.streams id = none)
    (f : Stream Address → Host Address β) :
    (getStream env id >>= fun found =>
      (liftM (okOr found .streamNotFound) : Host Address (Stream Address)) >>= f) frame =
      .error (.error .streamNotFound) frame := by
  simp [getStream_run, hstream, okOr]

theorem getStreams_run (ids : List UInt64) :
    ids.mapM getStreamReadonly frame = .ok (ids.map frame.world.streams) frame := by
  induction ids with
  | nil => rfl
  | cons id ids ih =>
    rw [List.mapM_cons, bind_run, getStreamReadonly_run]
    simp only [bind_run, ih, pure_run, List.map_cons]

end Loading

/-! ### Traps -/

/-- The computation may fail, but not by trapping. -/
def Untrapped {α : Type} (x : Except Failure α) : Prop := ∀ t, x ≠ .error (.trap t)

theorem untrapped_ok {α : Type} (a : α) : Untrapped (.ok a) := by
  intro t h
  cases h

theorem untrapped_error {α : Type} (e : StreamError) : Untrapped (α := α) (.error (.error e)) := by
  intro t h
  cases h

theorem StreamOp.settle_untrapped {stream : Stream Address} {now : UInt64}
    (h : stream.WellFormed now) (op : StreamOp) (id : UInt64) :
    Untrapped (op.settle now id stream) := by
  cases hselect : op.select? with
  | some select =>
    rw [op.settle_select h hselect]
    cases select (stream.available now) with
    | error e => exact untrapped_error e
    | ok amount => exact untrapped_ok _
  | none =>
    obtain rfl : op = .cancel := by cases op <;> first | rfl | cases hselect
    change Untrapped (settleCancel now id stream)
    rw [settleCancel_eq h]
    split_ifs
    · exact untrapped_error _
    · exact untrapped_error _
    · exact untrapped_ok _

/-! ### Answers -/

/-- A stored record, well formed at the ledger time. -/
structure World.Stores (w : World Address) (id : UInt64) (stream : Stream Address) : Prop where
  stored : w.streams id = some stream
  wellFormed : stream.WellFormed w.timestamp

theorem World.Sound.stores {w : World Address} (h : w.Sound) {id : UInt64}
    {stream : Stream Address} (hstream : w.streams id = some stream) : w.Stores id stream :=
  ⟨hstream, h.records id stream hstream⟩

variable [DecidableEq Address]

/-- What a call answers on a given ledger. -/
def World.answer (w : World Address) (env : Env Address) (call : Call Address) :
    Except Failure (Response Address) :=
  (w.invoke env call).1.result

theorem World.answer_of_invoke {w w' : World Address} {env : Env Address} {call : Call Address}
    {receipt : Receipt Address} (h : w.invoke env call = (receipt, w')) :
    w.answer env call = receipt.result := by
  rw [World.answer, h]

theorem World.answer_eq (w : World Address) (env : Env Address) (call : Call Address) :
    w.answer env call = match call.run env ⟨w, [], []⟩ with
      | .ok response _ => .ok response
      | .error failure _ => .error failure := by
  unfold World.answer World.invoke
  cases call.run env ⟨w, [], []⟩ <;> rfl

/-- The views of stream `id` report this reading, whoever asks. -/
structure World.Reports (w : World Address) (id : UInt64) (r : Reading) : Prop where
  vested : ∀ env, w.answer env (.vested id) = .ok (.amount r.vested)
  withdrawable : ∀ env, w.answer env (.withdrawable id) = .ok (.amount r.withdrawable)
  locked : ∀ env, w.answer env (.locked id) = .ok (.amount r.locked)
  progress : ∀ env, w.answer env (.progress id) = .ok (.bps r.progress)
  status : ∀ env, w.answer env (.status id) = .ok (.status r.status)

namespace World.Stores

variable {w : World Address} {id : UInt64} {stream : Stream Address}

theorem answer_vestedAt (h : w.Stores id stream) (env : Env Address) (t : UInt64) :
    w.answer env (.vestedAt id t) = .ok (.amount (stream.vestedUnits t)) := by
  have hvested := h.wellFormed.vestedAmount_eq t
  rw [World.answer_eq, Call.run, map_run, StreamContract.vestedAt, load_run h.stored]
  simp only [vestedAmountAt, hvested, liftTrap_run]

theorem answer_vested (h : w.Stores id stream) (env : Env Address) :
    w.answer env (.vested id) = .ok (.amount (stream.vestedUnits w.timestamp)) := by
  have hvested := h.wellFormed.vestedAmount_eq w.timestamp
  rw [World.answer_eq, Call.run, map_run, StreamContract.vested, load_run h.stored]
  simp only [bind_run, timestamp_run, vestedAmountAt, Frame.refreshed, refreshed_timestamp, hvested,
    liftTrap_run]

theorem answer_withdrawable (h : w.Stores id stream) (env : Env Address) :
    w.answer env (.withdrawable id) = .ok (.amount (stream.available w.timestamp)) := by
  have hvested := h.wellFormed.vestedAmount_eq w.timestamp
  have havailable := h.wellFormed.withdrawableAmount_eq
  rw [World.answer_eq, Call.run, map_run, StreamContract.withdrawable, load_run h.stored]
  simp only [bind_run, timestamp_run, Frame.refreshed, refreshed_timestamp, hvested, havailable,
    liftTrap_run]

theorem answer_locked (h : w.Stores id stream) (env : Env Address) :
    w.answer env (.locked id) = .ok (.amount (stream.refund w.timestamp)) := by
  have hformed := h.wellFormed
  have hvested := hformed.vestedAmount_eq w.timestamp
  have hle := hformed.vested_le_total w.timestamp
  have hsub : stream.totalAmount.sub (stream.vestedUnits w.timestamp) =
      .ok (stream.refund w.timestamp) := by
    rw [Signed.sub_eq_ok_iff, hformed.toInt_vestedUnits]
    exact hformed.toInt_refund
  have hmax : (stream.refund w.timestamp).max 0 = stream.refund w.timestamp := by
    apply Signed.ext
    rw [Signed.toInt_max, Signed.toInt_zero, hformed.toInt_refund]
    exact max_eq_left (sub_nonneg.mpr hle)
  rw [World.answer_eq, Call.run, map_run, StreamContract.locked, load_run h.stored]
  simp only [bind_run, timestamp_run, Frame.refreshed, refreshed_timestamp, hvested, hsub,
    liftTrap_run, pure_run, hmax]

theorem answer_progress (h : w.Stores id stream) (env : Env Address) :
    w.answer env (.progress id) = .ok (.bps (stream.reading w.timestamp).progress) := by
  have hformed := h.wellFormed
  have hvested := hformed.vestedAmount_eq w.timestamp
  rw [World.answer_eq, Call.run, map_run, StreamContract.progress, load_run h.stored]
  by_cases hzero : stream.totalAmount = 0
  · have hbps : stream.bps w.timestamp = 10000 := if_pos (by rw [hzero]; rfl)
    rw [if_pos hzero]
    simp only [pure_run, Stream.reading, hbps]
    rfl
  · have hne : stream.totalAmount.toInt ≠ 0 := fun he => hzero (Signed.ext he)
    obtain ⟨scaled, quotient, hmul, hdiv, hclamp, hcast⟩ := hformed.progress_spec hne
    rw [if_neg hzero]
    simp only [bind_run, timestamp_run, Frame.refreshed, refreshed_timestamp, hvested, hmul, hdiv,
      hclamp, hcast, expect, liftTrap_run]

theorem answer_status (h : w.Stores id stream) (env : Env Address) :
    w.answer env (.status id) = .ok (.status (streamStatus stream w.timestamp)) := by
  rw [World.answer_eq, Call.run, map_run, StreamContract.status, load_run h.stored]
  simp only [bind_run, timestamp_run, Frame.refreshed, refreshed_timestamp, pure_run]

/-- Every view of a stored stream returns, and reports the record's reading. -/
theorem reports (h : w.Stores id stream) : w.Reports id (stream.reading w.timestamp) where
  vested := h.answer_vested
  withdrawable := h.answer_withdrawable
  locked := h.answer_locked
  progress := h.answer_progress
  status := h.answer_status

theorem answer_cancelPreview (h : w.Stores id stream) (env : Env Address) :
    w.answer env (.cancelPreview id) =
      ((stream.preview w.timestamp).mapError .error).map .settlement := by
  have hformed := h.wellFormed
  rw [World.answer_eq, Call.run, map_run, StreamContract.cancelPreview, peek_run h.stored]
  unfold Stream.preview
  by_cases hcancelled : stream.cancelled = true
  · simp [hcancelled, Except.mapError, Except.map]
  by_cases hend : stream.endTime ≤ w.timestamp
  · simp [hcancelled, hend, Except.mapError, Except.map]
  simp [hcancelled, hend, hformed.vestedAmount_eq, hformed.settlement_eq, Except.mapError,
    Except.map]

theorem answer_getStream (h : w.Stores id stream) (env : Env Address) :
    w.answer env (.getStream id) = .ok (.stream stream) := by
  rw [World.answer_eq]
  simp [Call.run, StreamContract.getStream, getStream_run, h.stored, okOr]

end World.Stores

/-! ### No arithmetic trap -/

theorem Settled.paid_untrapped (z : Settled Address) (env : Env Address) (id : UInt64)
    (token target : Address) (w : World Address) :
    Untrapped (z.paid env id token target w).1.result := by
  intro t h
  unfold Settled.paid at h
  dsimp only at h
  split_ifs at h
  · cases hbook : env.token token (w.balance token) w.contractAddress target z.amount with
    | none => simp [hbook, World.rejected] at h
    | some book => simp [hbook] at h

theorem World.Sound.answer_op_untrapped {w : World Address} (h : w.Sound) (env : Env Address)
    (op : StreamOp) (id : UInt64) : Untrapped (w.answer env (op.call id)) := by
  unfold World.answer
  rw [World.invoke_op]
  cases hstream : w.streams id with
  | none => exact untrapped_error _
  | some stream =>
    by_cases hauth : env.authorized (op.party stream) = true
    · simp only [if_pos hauth]
      have hsettle := op.settle_untrapped (h.records id stream hstream) id
      cases hz : op.settle w.timestamp id stream with
      | error e =>
        intro t ht
        cases ht
        exact hsettle t hz
      | ok z => exact z.paid_untrapped env id stream.token (op.party stream) w
    · simp only [if_neg hauth]
      intro t ht
      cases ht

theorem World.answer_create_untrapped (w : World Address) (env : Env Address)
    (o : Opening Address) : Untrapped (w.answer env o.call) := by
  intro t
  unfold World.answer
  rw [World.invoke_create]
  by_cases hauth : env.authorized o.sender = true
  · rw [if_pos hauth]
    cases o.check w.contractAddress w.timestamp with
    | error e => exact untrapped_error e t
    | ok =>
      cases U64.checkedAdd (w.streamCount.getD 0) 1 with
      | none => exact untrapped_error _ t
      | some next =>
        cases env.token o.token (w.balance o.token) o.sender w.contractAddress o.totalAmount with
        | none =>
          intro ht
          cases ht
        | some book => exact untrapped_ok _ t
  · rw [if_neg hauth]
    intro ht
    cases ht

theorem World.answer_load_untrapped {w : World Address} {env : Env Address} {call : Call Address}
    {β : Type} (id : UInt64) (f : Stream Address → Host Address β) (g : β → Response Address)
    (hcall : call.run env = g <$> (TricklePay.getStream env id >>= fun found =>
      (liftM (okOr found .streamNotFound) : Host Address (Stream Address)) >>= f))
    (hstored : ∀ stream, w.streams id = some stream →
      ∃ response, w.answer env call = .ok response) :
    Untrapped (w.answer env call) := by
  cases hstream : w.streams id with
  | some stream =>
    obtain ⟨response, hresponse⟩ := hstored stream hstream
    rw [hresponse]
    exact untrapped_ok response
  | none =>
    rw [w.answer_eq, hcall, map_run, load_none_run hstream]
    exact untrapped_error _

theorem World.Sound.answer_view_untrapped {w : World Address} (h : w.Sound) (env : Env Address)
    {call : Call Address} (hview : call.isView = true) : Untrapped (w.answer env call) := by
  cases call with
  | createStream => cases hview
  | withdraw => cases hview
  | withdrawAmount => cases hview
  | cancel => cases hview
  | getStream id =>
    cases hstream : w.streams id with
    | some stream =>
      rw [(h.stores hstream).answer_getStream]
      exact untrapped_ok _
    | none =>
      rw [World.answer_eq]
      simp [Call.run, StreamContract.getStream, getStream_run, hstream, okOr, untrapped_error]
  | cancelPreview id =>
    cases hstream : w.streams id with
    | some stream =>
      rw [(h.stores hstream).answer_cancelPreview]
      cases stream.preview w.timestamp with
      | error e => exact untrapped_error e
      | ok split => exact untrapped_ok _
    | none =>
      rw [World.answer_eq]
      simp [Call.run, StreamContract.cancelPreview, hstream, okOr, untrapped_error]
  | getStreams ids =>
    rw [World.answer_eq]
    simp only [Call.run, map_run, StreamContract.getStreams, bind_run, rejectIf_run, getStreams_run]
    split_ifs
    · exact untrapped_error _
    · exact untrapped_ok _
  | streamExists id => exact untrapped_ok _
  | withdrawable id =>
    exact w.answer_load_untrapped id _ _ rfl fun _ hs =>
      ⟨_, (h.stores hs).answer_withdrawable env⟩
  | vested id =>
    exact w.answer_load_untrapped id _ _ rfl fun _ hs =>
      ⟨_, (h.stores hs).answer_vested env⟩
  | vestedAt id t =>
    exact w.answer_load_untrapped id _ _ rfl fun _ hs =>
      ⟨_, (h.stores hs).answer_vestedAt env t⟩
  | locked id => exact w.answer_load_untrapped id _ _ rfl fun _ hs =>
      ⟨_, (h.stores hs).answer_locked env⟩
  | progress id =>
    exact w.answer_load_untrapped id _ _ rfl fun _ hs =>
      ⟨_, (h.stores hs).answer_progress env⟩
  | status id => exact w.answer_load_untrapped id _ _ rfl fun _ hs =>
      ⟨_, (h.stores hs).answer_status env⟩
  | streamCount => exact untrapped_ok _
  | maxAmount => exact untrapped_ok _

theorem World.Sound.answer_untrapped {w : World Address} (h : w.Sound) (env : Env Address)
    (call : Call Address) : Untrapped (w.answer env call) := by
  cases call with
  | createStream sender recipient token totalAmount startTime endTime cliffTime =>
    exact w.answer_create_untrapped env ⟨sender, recipient, token, totalAmount, startTime, endTime,
      cliffTime⟩
  | withdraw id => exact h.answer_op_untrapped env .withdraw id
  | withdrawAmount id amount => exact h.answer_op_untrapped env (.withdrawAmount amount) id
  | cancel id => exact h.answer_op_untrapped env .cancel id
  | _ => exact h.answer_view_untrapped env rfl

/-- No call of any entry point, on any reachable ledger, stops with an overflow, a
division by zero or a failed conversion, and the casts it uses keep their values. -/
theorem reachable_call_untrapped {w : World Address} (h : Reachable w) (env : Env Address)
    (call : Call Address) :
    (∀ t, (w.invoke env call).1.result ≠ .error (.trap t)) ∧
      (∀ x : UInt64, (Signed.ofUInt64 x : I128).toInt = x.toNat) ∧
      (∀ x : UInt32, (Signed.ofUInt32 x : I128).toInt = x.toNat) :=
  ⟨h.sound.answer_untrapped env call, I128.toInt_ofUInt64, I128.toInt_ofUInt32⟩

theorem reachable_call_untrapped_later :
    Untrapped (Sample.later.answer Sample.env (.progress 0)) ∧
      (Signed.ofUInt64 7 : I128).toInt = (7 : UInt64).toNat := by
  obtain ⟨huntrapped, hkept, _⟩ :=
    reachable_call_untrapped Sample.later_reachable Sample.env (.progress 0)
  exact ⟨huntrapped, hkept 7⟩

end TricklePay
