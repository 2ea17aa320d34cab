import TricklePay.Proofs.Entitlement

/-!
# The lifecycle of a stream

The status is not stored: it is derived from the clock and from fields that
`cancel` rewrites. Read at any two points of a run it still only moves forward,
and its two final states are final for `cancel` and `cancelPreview` as well.
-/

namespace TricklePay

open Checked Transition

variable {Address : Type}

/-- The forward moves between lifecycle states. -/
inductive StreamStatus.Moves : StreamStatus → StreamStatus → Prop
  | stay (status : StreamStatus) : Moves status status
  | start : Moves .pending .streaming
  | skip : Moves .pending .completed
  | withdrawn : Moves .pending .cancelled
  | finish : Moves .streaming .completed
  | stop : Moves .streaming .cancelled

theorem streamStatus_of_cancelled {stream : Stream Address} (h : stream.cancelled = true)
    (now : UInt64) : streamStatus stream now = .cancelled :=
  if_pos h

theorem cancelled_of_streamStatus {stream : Stream Address} {now : UInt64}
    (h : streamStatus stream now = .cancelled) : stream.cancelled = true := by
  unfold streamStatus at h
  split_ifs at h with hcancelled
  exact hcancelled

theorem completed_of_streamStatus {stream : Stream Address} {now : UInt64}
    (h : streamStatus stream now = .completed) :
    stream.cancelled = false ∧ stream.endTime.toNat ≤ now.toNat := by
  unfold streamStatus at h
  split_ifs at h with hcancelled hstart hend
  exact ⟨by simpa using hcancelled, UInt64.le_iff_toNat_le.mp hend⟩

/-- With the record unchanged, the clock alone moves the status forward. -/
theorem streamStatus_moves (stream : Stream Address) {now later : UInt64}
    (hle : now.toNat ≤ later.toNat) :
    StreamStatus.Moves (streamStatus stream now) (streamStatus stream later) := by
  unfold streamStatus
  simp only [UInt64.lt_iff_toNat_lt, UInt64.le_iff_toNat_le]
  split_ifs
  · exact .stay _
  · exact .stay _
  · exact .skip
  · exact .start
  · omega
  · exact .stay _
  · omega
  · omega
  · exact .finish
  · exact .stay _

theorem Evolved.status_moves {id : UInt64} {stream stream' : Stream Address} {now later : UInt64}
    {ls : List (Label Address)} (h : Evolved id stream now ls stream' later) :
    StreamStatus.Moves (streamStatus stream now) (streamStatus stream' later) := by
  cases h with
  | running _ _ htime hrecord =>
    have hsame : streamStatus stream' later = streamStatus stream later := by
      rw [hrecord]
      rfl
    rw [hsame]
    exact streamStatus_moves stream htime
  | stopped n _ hlive hstart hend _ _ hrecord =>
    have hcancelled : stream'.cancelled = true := by
      rw [hrecord]
      rfl
    rw [streamStatus_of_cancelled hcancelled]
    unfold streamStatus
    rw [hlive, if_neg (by decide)]
    simp only [UInt64.le_iff_toNat_le]
    split_ifs
    · exact .withdrawn
    · omega
    · exact .stop

theorem Evolved.frozen {id : UInt64} {stream stream' : Stream Address} {now later : UInt64}
    {ls : List (Label Address)} (h : Evolved id stream now ls stream' later)
    (hcancelled : stream.cancelled = true) :
    stream' = { stream with withdrawn := stream'.withdrawn } := by
  cases h with
  | running _ _ _ hrecord => exact hrecord
  | stopped _ _ hlive _ _ _ _ _ =>
    rw [hlive] at hcancelled
    cases hcancelled

theorem Evolved.completed {id : UInt64} {stream stream' : Stream Address} {now later : UInt64}
    {ls : List (Label Address)} (h : Evolved id stream now ls stream' later)
    (hlive : stream.cancelled = false) (hend : stream.endTime.toNat ≤ now.toNat) :
    stream'.cancelled = false ∧ stream'.endTime.toNat ≤ later.toNat := by
  cases h with
  | running _ _ htime hrecord =>
    rw [hrecord]
    exact ⟨hlive, hend.trans htime⟩
  | stopped n _ _ hstart hstop _ _ _ => omega

theorem preview_of_cancelled {stream : Stream Address} (h : stream.cancelled = true)
    (now : UInt64) : stream.preview now = .error .alreadyCancelled :=
  if_pos h

theorem preview_of_completed {stream : Stream Address} {now : UInt64}
    (hlive : stream.cancelled = false) (hend : stream.endTime.toNat ≤ now.toNat) :
    stream.preview now = .error .streamAlreadyCompleted := by
  rw [Stream.preview, hlive, if_neg (by decide), if_pos (UInt64.le_iff_toNat_le.mpr hend)]

variable [DecidableEq Address]

/-- What the preview rejects is rejected by both calls, with the same error. -/
theorem World.Sound.answer_of_preview_error {w : World Address} (h : w.Sound) {id : UInt64}
    {stream : Stream Address} (hstream : w.streams id = some stream) {e : StreamError}
    (hpreview : stream.preview w.timestamp = .error e) (env : Env Address) :
    (env.authorized stream.sender = true → w.answer env (.cancel id) = .error (.error e)) ∧
      w.answer env (.cancelPreview id) = .error (.error e) := by
  constructor
  · intro hauth
    have hsettle := settleCancel_preview (h.records id stream hstream) id
    rw [hpreview] at hsettle
    have hinvoke := w.invoke_op env .cancel id
    unfold World.answer
    change (w.invoke env (StreamOp.cancel.call id)).1.result = _
    rw [hinvoke, hstream]
    simp only [StreamOp.party, StreamOp.settle, hauth, if_true, hsettle]
    rfl
  · rw [(h.stores hstream).answer_cancelPreview, hpreview]
    rfl

/-- Along every run the reported status only moves forward. From the moment it is
completed both cancelling calls say so; from the moment it is cancelled both say
that, the record keeps every field but its counter, everything in it stays
vested, and what is still paid out is at most what was left at that moment. -/
theorem lifecycle {w w' : World Address} {ls : List (Label Address)} (h : Reachable w)
    (hrun : Run Step w ls w') {id : UInt64} {stream : Stream Address}
    (hstream : w.streams id = some stream) :
    ∃ stream' r r', w'.streams id = some stream' ∧ w.Reports id r ∧ w'.Reports id r' ∧
      r.status.Moves r'.status ∧
      (r.status = .completed → ∀ env,
        (env.authorized stream.sender = true →
          w'.answer env (.cancel id) = .error (.error .streamAlreadyCompleted)) ∧
        w'.answer env (.cancelPreview id) = .error (.error .streamAlreadyCompleted)) ∧
      (r.status = .cancelled →
        (∀ env, (env.authorized stream.sender = true →
            w'.answer env (.cancel id) = .error (.error .alreadyCancelled)) ∧
          w'.answer env (.cancelPreview id) = .error (.error .alreadyCancelled)) ∧
        stream' = { stream with withdrawn := stream'.withdrawn } ∧
        r'.vested = stream.totalAmount ∧ r'.locked = 0 ∧ r'.progress = 10000 ∧
        received id ls ≤ stream.totalAmount.toInt - stream.withdrawn.toInt) := by
  obtain ⟨stream', hstream', hevolved, hpaid, hnonneg⟩ := h.sound.evolved hrun hstream
  have hsound := h.sound.run hrun
  have hformed' := hsound.records id stream' hstream'
  have hsender := hevolved.parties_eq.1
  refine ⟨stream', stream.reading w.timestamp, stream'.reading w'.timestamp, hstream',
    (h.sound.stores hstream).reports, (hsound.stores hstream').reports, hevolved.status_moves,
    ?_, ?_⟩
  · intro hstatus env
    obtain ⟨hlive, hend⟩ := completed_of_streamStatus hstatus
    obtain ⟨hlive', hend'⟩ := hevolved.completed hlive hend
    rw [← hsender]
    exact hsound.answer_of_preview_error hstream' (preview_of_completed hlive' hend') env
  · intro hstatus
    have hcancelled := cancelled_of_streamStatus hstatus
    have hfrozen := hevolved.frozen hcancelled
    have hcancelled' : stream'.cancelled = true := by
      rw [hfrozen]
      exact hcancelled
    have htotal : stream'.totalAmount = stream.totalAmount := by rw [hfrozen]
    have hvested := hformed'.vested_of_cancelled hcancelled'
    refine ⟨?_, hfrozen, ?_, ?_, ?_, ?_⟩
    · intro env
      rw [← hsender]
      exact hsound.answer_of_preview_error hstream'
        (preview_of_cancelled hcancelled' w'.timestamp) env
    · apply Signed.ext
      rw [← htotal, ← hvested]
      exact hformed'.toInt_vestedUnits w'.timestamp
    · apply Signed.ext
      change (stream'.refund w'.timestamp).toInt = 0
      rw [hformed'.toInt_refund, hvested]
      omega
    · have hbps := hformed'.bps_of_cancelled hcancelled'
      change UInt32.ofNat (stream'.bps w'.timestamp).toNat = 10000
      rw [hbps]
      rfl
    · have hle := hformed'.withdrawn_le
      rw [hvested, htotal] at hle
      omega

namespace Sample

/-- The sender cancels before anything has been withdrawn. -/
def halted : World ℕ := (later.invoke env (.cancel 0)).2

/-- After the end that was agreed on, the recipient withdraws what is left. -/
def paidOff : World ℕ := ({ halted with timestamp := 12 }.invoke env (.withdraw 0)).2

def paidOffLabels : List (Label ℕ) :=
  [.clock 12 1,
    .call env (.withdraw 0) ({ halted with timestamp := 12 }.invoke env (.withdraw 0)).1]

theorem halted_reachable : Reachable halted := by
  have hcancel : later.invoke env (.cancel 0) = ((later.invoke env (.cancel 0)).1, halted) := rfl
  exact later_reachable.run (.single (.call hcancel))

theorem paidOff_run : Run Step halted paidOffLabels paidOff :=
  (Run.single (.clock (by decide) le_rfl)).snoc (.call rfl)

end Sample

theorem lifecycle_paidOff :
    ∃ stream' r r', Sample.paidOff.streams 0 = some stream' ∧ Sample.halted.Reports 0 r ∧
      Sample.paidOff.Reports 0 r' ∧ r.status = .cancelled ∧ r.status.Moves r'.status ∧
      Sample.paidOff.answer Sample.env (.cancel 0) = .error (.error .alreadyCancelled) ∧
      Sample.paidOff.answer Sample.env (.cancelPreview 0) = .error (.error .alreadyCancelled) ∧
      stream' = { Sample.opening.stream.close (Sample.units 40) 4 with
        withdrawn := stream'.withdrawn } ∧
      r'.vested = Sample.units 40 ∧ r'.locked = 0 ∧ r'.progress = 10000 ∧
      received 0 Sample.paidOffLabels ≤ 40 := by
  have hstream : Sample.halted.streams 0 =
      some (Sample.opening.stream.close (Sample.units 40) 4) := rfl
  obtain ⟨stream', r, r', hstream', hr, hr', hmoves, _, hover⟩ :=
    lifecycle Sample.halted_reachable Sample.paidOff_run hstream
  have hstatus : r.status = .cancelled := by
    have hanswer : Except.ok (Response.status .cancelled : Response ℕ) = .ok (.status r.status) :=
      hr.status Sample.env
    injection hanswer with hresponse
    injection hresponse with hstatus
    exact hstatus.symm
  obtain ⟨hanswers, hfrozen, hvested, hlocked, hprogress, hreceived⟩ := hover hstatus
  obtain ⟨hcancel, hpreview⟩ := hanswers Sample.env
  exact ⟨stream', r, r', hstream', hr, hr', hstatus, hmoves, hcancel rfl, hpreview, hfrozen,
    hvested, hlocked, hprogress, hreceived⟩

end TricklePay
