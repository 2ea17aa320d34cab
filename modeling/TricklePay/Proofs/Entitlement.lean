import TricklePay.Proofs.Trace

/-!
# Entitlements are irrevocable

What a recipient has accrued is never taken back: over any stretch of a run the
vested amount and the progress only grow, the locked amount and the total only
shrink, and the total never falls below what had vested. Nothing that happens
within one instant changes the vested amount.
-/

namespace TricklePay

open Checked Transition

variable {Address : Type}

namespace Evolved

variable {id : UInt64} {stream stream' : Stream Address} {now later : UInt64}
  {ls : List (Label Address)}

/-- A running record keeps its schedule; a stopped one holds what had vested when
it was stopped, all of it released. -/
theorem schedule_cases (hformed : stream.WellFormed now)
    (h : Evolved id stream now ls stream' later) :
    (stream'.cancelled = stream.cancelled ∧ stream'.totalAmount = stream.totalAmount ∧
        ∀ t, stream'.vested t = stream.vested t) ∨
      ∃ n, now.toNat ≤ n.toNat ∧ n.toNat ≤ later.toNat ∧ stream'.cancelled = true ∧
        stream'.totalAmount.toInt = stream.vested n ∧
        ∀ t, n.toNat ≤ t.toNat → stream'.vested t = stream.vested n := by
  cases h with
  | running _ _ _ hrecord =>
    refine Or.inl ⟨?_, ?_, ?_⟩
    · rw [hrecord]
    · rw [hrecord]
    · intro t
      rw [hrecord]
      rfl
  | stopped n _ _ hstart _ htime _ hrecord =>
    refine Or.inr ⟨n, hstart, htime, ?_, ?_, ?_⟩
    · rw [hrecord]
      rfl
    · rw [hrecord]
      exact hformed.toInt_vestedUnits n
    · intro t ht
      rw [hrecord]
      exact (Stream.vested_close stream _ ht).trans (hformed.toInt_vestedUnits n)

theorem vested_le (hformed : stream.WellFormed now) (h : Evolved id stream now ls stream' later) :
    stream.vested now ≤ stream'.vested later := by
  have htime := h.time_le
  rcases h.schedule_cases hformed with ⟨_, _, hvested⟩ | ⟨n, hstart, hlater, _, _, hvested⟩
  · rw [hvested]
    exact hformed.vested_mono htime
  · rw [hvested later hlater]
    exact hformed.vested_mono hstart

theorem total_le (hformed : stream.WellFormed now) (h : Evolved id stream now ls stream' later) :
    stream'.totalAmount.toInt ≤ stream.totalAmount.toInt := by
  rcases h.schedule_cases hformed with ⟨_, htotal, _⟩ | ⟨n, _, _, _, htotal, _⟩
  · rw [htotal]
  · rw [htotal]
    exact hformed.vested_le_total n

theorem unvested_le (hformed : stream.WellFormed now) (h : Evolved id stream now ls stream' later) :
    stream'.totalAmount.toInt - stream'.vested later ≤
      stream.totalAmount.toInt - stream.vested now := by
  have htime := h.time_le
  rcases h.schedule_cases hformed with ⟨_, htotal, hvested⟩ | ⟨n, _, hlater, _, htotal, hvested⟩
  · have hmono := hformed.vested_mono htime
    rw [htotal, hvested]
    omega
  · have hle := hformed.vested_le_total now
    rw [htotal, hvested later hlater]
    omega

end Evolved

theorem Stream.WellFormed.bps_mono {stream : Stream Address} {now : UInt64}
    (h : stream.WellFormed now) {a b : UInt64} (hab : a.toNat ≤ b.toNat) :
    stream.bps a ≤ stream.bps b := by
  unfold Stream.bps
  split_ifs
  · exact le_rfl
  · have hmono := h.vested_mono hab
    have hpos : 0 < stream.totalAmount.toInt := by
      have hnonneg := h.total_nonneg
      omega
    apply Int.ediv_le_ediv hpos
    omega

theorem Evolved.bps_le {id : UInt64} {stream stream' : Stream Address} {now later : UInt64}
    {ls : List (Label Address)} (hformed : stream.WellFormed now)
    (hformed' : stream'.WellFormed later) (h : Evolved id stream now ls stream' later) :
    stream.bps now ≤ stream'.bps later := by
  rcases h.schedule_cases hformed with ⟨_, htotal, hvested⟩ | ⟨_, _, _, hcancelled, _, _⟩
  · have hsame : stream'.bps later = stream.bps later := by
      unfold Stream.bps
      rw [htotal, hvested]
    rw [hsame]
    exact hformed.bps_mono h.time_le
  · rw [hformed'.bps_of_cancelled hcancelled]
    exact hformed.bps_le now

variable [DecidableEq Address]

/-- What a call does to a record within one instant: what has vested stays, the
counter grows by what the recipient is paid, and only the recipient is paid. -/
theorem World.Sound.invoke_record {w w' : World Address} (hw : w.Sound) {env : Env Address}
    {call : Call Address} {receipt : Receipt Address} (hinvoke : w.invoke env call = (receipt, w'))
    {id : UInt64} {stream : Stream Address} (hstream : w.streams id = some stream) :
    ∃ stream', w'.streams id = some stream' ∧ w'.timestamp = w.timestamp ∧
      stream'.vested w.timestamp = stream.vested w.timestamp ∧
      stream'.withdrawn.toInt =
        stream.withdrawn.toInt + amounts ((Label.call env call receipt).payouts id) ∧
      ∀ t ∈ (Label.call env call receipt).payouts id,
        t.token = stream.token ∧ t.source = w.contractAddress ∧ t.target = stream.recipient := by
  have hformed := hw.records id stream hstream
  have htime := w.invoke_timestamp hinvoke
  have htouch := ((Step.call hinvoke).change hw).touch hw hstream
  have haddressed := htouch.addressed.1
  cases htouch with
  | kept hstream' _ hpayouts _ _ =>
    exact ⟨stream, hstream', htime, rfl, by simp [hpayouts], haddressed⟩
  | paid amount hpos hle hstream' _ hpayouts _ _ =>
    refine ⟨_, hstream', htime, rfl, ?_, haddressed⟩
    rw [hformed.toInt_pay hpos hle, hpayouts]
    simp [amounts]
  | closed _ _ hstream' _ hpayouts _ _ =>
    refine ⟨_, hstream', htime, ?_, by simp [hpayouts, Stream.close], haddressed⟩
    rw [Stream.vested_close _ _ le_rfl]
    exact hformed.toInt_vestedUnits w.timestamp

/-- Between any two points of a run after a stream's creation, whoever calls what
in between: vested, progress and withdrawn never decrease, locked and the total
never increase, and the total stays above what had vested. At the later point any
single call leaves vested as it is, and lowers withdrawable by exactly what it
transfers to the recipient: nothing, unless it is a withdrawal from the stream. -/
theorem entitlement_irrevocable {w w' : World Address} {ls : List (Label Address)}
    (h : Reachable w) (hrun : Run Step w ls w') {id : UInt64} {stream : Stream Address}
    (hstream : w.streams id = some stream) :
    ∃ stream' r r', w'.streams id = some stream' ∧ w.Reports id r ∧ w'.Reports id r' ∧
      r.vested ≤ r'.vested ∧ r.progress ≤ r'.progress ∧
      stream.withdrawn ≤ stream'.withdrawn ∧ r'.locked ≤ r.locked ∧
      stream'.totalAmount ≤ stream.totalAmount ∧ r.vested ≤ stream'.totalAmount ∧
      ∀ env call, ∃ r'', (w'.invoke env call).2.Reports id r'' ∧ r''.vested = r'.vested ∧
        r''.withdrawable.toInt = r'.withdrawable.toInt -
          amounts ((Label.call env call (w'.invoke env call).1).payouts id) ∧
        ∀ t ∈ (Label.call env call (w'.invoke env call).1).payouts id,
          t.token = stream.token ∧ t.source = w'.contractAddress ∧ t.target = stream.recipient := by
  obtain ⟨stream', hstream', hevolved, hpaid, hnonneg⟩ := h.sound.evolved hrun hstream
  have hsound := h.sound.run hrun
  have hformed := h.sound.records id stream hstream
  have hformed' := hsound.records id stream' hstream'
  have hvested := hevolved.vested_le hformed
  have hbps := hevolved.bps_le hformed hformed'
  have hunvested := hevolved.unvested_le hformed
  refine ⟨stream', stream.reading w.timestamp, stream'.reading w'.timestamp, hstream',
    (h.sound.stores hstream).reports, (hsound.stores hstream').reports, ?_, ?_, ?_, ?_, ?_, ?_, ?_⟩
  · change (stream.vestedUnits w.timestamp).toInt ≤ (stream'.vestedUnits w'.timestamp).toInt
    rw [hformed.toInt_vestedUnits, hformed'.toInt_vestedUnits]
    exact hvested
  · rw [UInt32.le_iff_toNat_le]
    have hleft := hformed.toNat_progress w.timestamp
    have hright := hformed'.toNat_progress w'.timestamp
    omega
  · rw [Signed.le_iff]
    omega
  · change (stream'.refund w'.timestamp).toInt ≤ (stream.refund w.timestamp).toInt
    rw [hformed.toInt_refund, hformed'.toInt_refund]
    exact hunvested
  · exact hevolved.total_le hformed
  · change (stream.vestedUnits w.timestamp).toInt ≤ stream'.totalAmount.toInt
    rw [hformed.toInt_vestedUnits]
    exact hvested.trans (hformed'.vested_le_total w'.timestamp)
  · intro env call
    cases hinvoke : w'.invoke env call with
    | mk receipt w'' =>
    obtain ⟨stream'', hstream'', htime, hkeep, hcount, hpayouts⟩ :=
      hsound.invoke_record hinvoke hstream'
    have hsound' := (Step.call hinvoke).sound hsound
    have hformed'' := hsound'.records id stream'' hstream''
    refine ⟨_, (hsound'.stores hstream'').reports, ?_, ?_, ?_⟩
    · change Signed.wrap _ = Signed.wrap _
      rw [htime, hkeep]
    · change (stream''.available _).toInt = (stream'.available w'.timestamp).toInt - _
      rw [hformed''.toInt_available, hformed'.toInt_available, htime, hkeep, hcount]
      dsimp only
      omega
    · intro t ht
      obtain ⟨htoken, hsource, htarget⟩ := hpayouts t ht
      exact ⟨htoken.trans hevolved.parties_eq.2.2, hsource,
        htarget.trans hevolved.parties_eq.2.1⟩

theorem entitlement_irrevocable_waiting :
    ∃ stream' r r', Sample.toppedLater.streams 0 = some stream' ∧ Sample.opened.Reports 0 r ∧
      Sample.toppedLater.Reports 0 r' ∧ r.vested ≤ r'.vested ∧ r.progress ≤ r'.progress ∧
      0 ≤ stream'.withdrawn ∧ r'.locked ≤ r.locked ∧ stream'.totalAmount ≤ Sample.units 100 ∧
      r.vested ≤ stream'.totalAmount ∧
      ∃ r'', (Sample.toppedLater.invoke Sample.stranger (.withdraw 0)).2.Reports 0 r'' ∧
        r''.vested = r'.vested ∧ r''.withdrawable.toInt = r'.withdrawable.toInt - 40 := by
  obtain ⟨stream', r, r', hstream', hr, hr', hvested, hprogress, hwithdrawn, hlocked, htotal,
    hkept, hcall⟩ :=
    entitlement_irrevocable Sample.opened_reachable Sample.waiting_run Sample.opened_stream
  obtain ⟨r'', hr'', hsame, hpaid, _⟩ := hcall Sample.stranger (.withdraw 0)
  exact ⟨stream', r, r', hstream', hr, hr', hvested, hprogress, hwithdrawn, hlocked, htotal, hkept,
    r'', hr'', hsame, hpaid⟩

end TricklePay
