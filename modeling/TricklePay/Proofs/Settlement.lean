import TricklePay.Proofs.Entitlement

/-!
# Final settlement

However a stream is drained, once it is over and its recipient has made a last
withdrawal, the two parties have between them the whole deposit, divided as the
original schedule says at the instant the stream ended or was cancelled.
-/

namespace TricklePay

open Checked Transition

variable {Address : Type} [DecidableEq Address]

theorem World.Sound.withdraw_ok {w w' : World Address} (hw : w.Sound) {env : Env Address}
    {id : UInt64} {receipt : Receipt Address}
    (hinvoke : w.invoke env (.withdraw id) = (receipt, w')) {response : Response Address}
    (hresult : receipt.result = .ok response) :
    ∃ stream, w.streams id = some stream ∧ 0 < (stream.available w.timestamp).toInt ∧
      w'.streams id = some (stream.pay (stream.available w.timestamp)) := by
  have hcall : w.invoke env (StreamOp.withdraw.call id) = (receipt, w') := hinvoke
  obtain ⟨stream, z, book, hstream, _, houtcome, _, _, hworld⟩ := hw.op_ok hcall hresult
  cases houtcome with
  | paid select amount hselect hamount hpos _ hz =>
    cases hselect
    obtain rfl : amount = stream.available w.timestamp := selectAll_eq hamount
    refine ⟨stream, hstream, hpos, ?_⟩
    rw [hworld, hz]
    exact Function.update_self _ _ _
  | closed hop _ _ _ => cases hop

/-- A withdrawal that finds nothing to pay is right, and changes nothing. -/
theorem World.Sound.withdraw_nothing {w w' : World Address} (hw : w.Sound) {env : Env Address}
    {id : UInt64} {receipt : Receipt Address} {stream : Stream Address}
    (hinvoke : w.invoke env (.withdraw id) = (receipt, w')) (hstream : w.streams id = some stream)
    (hresult : receipt.result = .error (.error .nothingToWithdraw)) :
    w' = w ∧ (stream.available w.timestamp).toInt ≤ 0 := by
  have hsettle := StreamOp.settle_select (hw.records id stream hstream)
    (rfl : StreamOp.withdraw.select? = some selectAll) id
  have hclosed := w.invoke_op env .withdraw id
  change w.invoke env (.withdraw id) = _ at hclosed
  simp only [hinvoke, hstream, hsettle] at hclosed
  by_cases hnone : stream.available w.timestamp ≤ 0
  · have hworld : w' = w := by
      have hcall : w.invoke env (StreamOp.withdraw.call id) = (receipt, w') := hinvoke
      rcases hw.op_cases hcall with ⟨failure, hrejected⟩ | ⟨_, _, _, hsettles⟩
      · cases hrejected
        rfl
      · rw [hsettles.receipt_eq] at hresult
        cases hresult
    exact ⟨hworld, Signed.le_iff.mp hnone⟩
  · have hselect : selectAll (stream.available w.timestamp) =
        .ok (stream.available w.timestamp) := if_neg hnone
    rw [hselect] at hclosed
    split_ifs at hclosed
    · rcases Settled.paid_cases hclosed.symm with hrejected | ⟨hpaid, _⟩
      · cases hrejected
        cases hresult
      · rw [hpaid] at hresult
        cases hresult
    · cases hclosed
      cases hresult

theorem World.Sound.withdraw_drains {w w' : World Address} (hw : w.Sound) {env : Env Address}
    {id : UInt64} {receipt : Receipt Address} {stream : Stream Address}
    (hinvoke : w.invoke env (.withdraw id) = (receipt, w')) (hstream : w.streams id = some stream)
    (hresult : (∃ amount, receipt.result = .ok (.amount amount)) ∨
      receipt.result = .error (.error .nothingToWithdraw)) :
    ∃ stream', w'.streams id = some stream' ∧
      stream'.withdrawn.toInt = stream'.vested w'.timestamp := by
  have hformed := hw.records id stream hstream
  have htime := w.invoke_timestamp hinvoke
  have havailable := hformed.toInt_available
  rcases hresult with ⟨amount, hresult⟩ | hresult
  · obtain ⟨s, hs, hpos, hstream'⟩ := hw.withdraw_ok hinvoke hresult
    obtain rfl : s = stream := Option.some_inj.mp (hs.symm.trans hstream)
    refine ⟨_, hstream', ?_⟩
    rw [hformed.toInt_pay hpos le_rfl, htime, Stream.vested_pay]
    omega
  · obtain ⟨hworld, hnone⟩ := hw.withdraw_nothing hinvoke hstream hresult
    have hle := hformed.withdrawn_le
    rw [hworld]
    exact ⟨stream, hstream, by omega⟩

/-- A run from the creation of stream `id` on: `life` are the labels since then.
It ends with a withdrawal that pays or finds nothing to pay, at a time by which
the window is over or the stream has been cancelled. -/
structure SettledRun (o : Opening Address) (id : UInt64) (opened : World Address)
    (life : List (Label Address)) (w : World Address) : Prop where
  created : ∃ w₀ env receipt, Reachable w₀ ∧ w₀.invoke env o.call = (receipt, opened) ∧
    receipt.result = .ok (.id id)
  run : Run Step opened life w
  withdrawn : ∃ before env receipt, life = before ++ [.call env (.withdraw id) receipt] ∧
    ((∃ amount, receipt.result = .ok (.amount amount)) ∨
      receipt.result = .error (.error .nothingToWithdraw)) ∧
    (o.endTime ≤ receipt.timestamp ∨ ∃ n ∈ cancellations id life, n ≤ receipt.timestamp)

namespace SettledRun

variable {o : Opening Address} {id : UInt64} {opened w : World Address}
  {life : List (Label Address)}

theorem opening (h : SettledRun o id opened life w) :
    opened.Sound ∧ opened.streams id = some o.stream := by
  obtain ⟨w₀, env, receipt, hreachable, hinvoke, hresult⟩ := h.created
  exact ⟨(Step.call hinvoke).sound hreachable.sound, (World.create_stored hinvoke hresult).1⟩

/-- The record at the end of the run, with nothing vested left in it. -/
theorem ending (h : SettledRun o id opened life w) :
    ∃ stream, w.streams id = some stream ∧ stream.WellFormed w.timestamp ∧
      Evolved id o.stream opened.timestamp life stream w.timestamp ∧
      stream.withdrawn.toInt = received id life ∧
      stream.withdrawn.toInt = stream.vested w.timestamp ∧
      (o.endTime.toNat ≤ w.timestamp.toNat ∨ cancellations id life ≠ []) := by
  obtain ⟨hsound, hopened⟩ := h.opening
  obtain ⟨stream, hstream, hevolved, hpaid, _⟩ := hsound.evolved h.run hopened
  obtain ⟨before, env, receipt, hlife, hresult, hover⟩ := h.withdrawn
  have hrun := h.run
  rw [hlife] at hrun
  obtain ⟨m, hbefore, hlast⟩ := hrun.last_step
  cases hlast with
  | call hinvoke =>
    obtain ⟨current, hcurrent, _⟩ := hsound.evolved hbefore hopened
    obtain ⟨stream', hstream', hdrained⟩ :=
      (hsound.run hbefore).withdraw_drains hinvoke hcurrent hresult
    obtain rfl : stream' = stream := Option.some_inj.mp (hstream'.symm.trans hstream)
    refine ⟨stream', hstream, (hsound.run h.run).records id stream' hstream, hevolved, ?_, hdrained,
      ?_⟩
    · rw [hpaid]
      exact zero_add _
    · have hclock : receipt.timestamp = w.timestamp :=
        (World.invoke_receipt_timestamp hinvoke).trans (World.invoke_timestamp hinvoke).symm
      rcases hover with hend | ⟨n, hn, _⟩
      · rw [hclock] at hend
        exact Or.inl (UInt64.le_iff_toNat_le.mp hend)
      · exact Or.inr (List.ne_nil_of_mem hn)

/-- The division of the deposit at the end: the original schedule, read at the
instant the stream was cancelled, or everything. -/
theorem division (h : SettledRun o id opened life w) :
    (∃ stream, w.streams id = some stream ∧ stream.totalAmount = stream.withdrawn) ∧
    ((cancellations id life = [] ∧ received id life = o.totalAmount.toInt ∧ refunded id life = 0) ∨
      ∃ n, cancellations id life = [n] ∧ received id life = o.stream.vested n ∧
        refunded id life = o.totalAmount.toInt - o.stream.vested n) := by
  obtain ⟨hsound, hopened⟩ := h.opening
  obtain ⟨stream, hstream, hformed, hevolved, hreceived, hdrained, hover⟩ := h.ending
  have horigin := hsound.records id o.stream hopened
  cases hevolved with
  | running hnone hzero _ hrecord =>
    have hend : stream.endTime = o.endTime := by
      rw [hrecord]
      rfl
    have htotal : stream.totalAmount = o.totalAmount := by
      rw [hrecord]
      rfl
    have hall : stream.vested w.timestamp = stream.totalAmount.toInt := by
      apply hformed.vested_of_end_le
      rw [hend]
      exact hover.resolve_right (not_not_intro hnone)
    refine ⟨⟨stream, hstream, ?_⟩, Or.inl ⟨hnone, ?_, hzero⟩⟩
    · exact Signed.ext (hall.symm.trans hdrained.symm)
    · rw [← hreceived, hdrained, hall, htotal]
  | stopped n hone _ _ _ _ hback hrecord =>
    have hcancelled : stream.cancelled = true := by
      rw [hrecord]
      rfl
    have htotal : stream.totalAmount.toInt = o.stream.vested n := by
      rw [hrecord]
      exact horigin.toInt_vestedUnits n
    have hall := hformed.vested_of_cancelled hcancelled
    refine ⟨⟨stream, hstream, ?_⟩, Or.inr ⟨n, hone, ?_, hback⟩⟩
    · exact Signed.ext (hall.symm.trans hdrained.symm)
    · rw [← hreceived, hdrained, hall, htotal]

end SettledRun

/-- Two runs on streams with the same deposit and window, which agree on whether
and when the stream is cancelled and differ in whatever else, end with the same
division: the recipient has received what the schedule gives at the cancellation,
or the whole deposit, the sender has the rest back, and nothing is left. All of it
moved between the contract and the two parties. -/
theorem settlement_independent {o₁ o₂ : Opening Address} {id₁ id₂ : UInt64}
    {opened₁ opened₂ w₁ w₂ : World Address} {life₁ life₂ : List (Label Address)}
    (htotal : o₁.totalAmount = o₂.totalAmount) (hstart : o₁.startTime = o₂.startTime)
    (hend : o₁.endTime = o₂.endTime) (hcliff : o₁.cliffTime = o₂.cliffTime)
    (h₁ : SettledRun o₁ id₁ opened₁ life₁ w₁) (h₂ : SettledRun o₂ id₂ opened₂ life₂ w₂)
    (hagree : cancellations id₁ life₁ = cancellations id₂ life₂) :
    received id₁ life₁ = received id₂ life₂ ∧ refunded id₁ life₁ = refunded id₂ life₂ ∧
      received id₁ life₁ + refunded id₁ life₁ = o₁.totalAmount.toInt ∧
      (cancellations id₁ life₁ = [] → received id₁ life₁ = o₁.totalAmount.toInt) ∧
      (∀ n ∈ cancellations id₁ life₁, ∃ vested,
        vestedAmount o₁.totalAmount o₁.startTime o₁.endTime o₁.cliffTime n = .ok vested ∧
          received id₁ life₁ = vested.toInt) ∧
      (∃ stream, w₁.streams id₁ = some stream ∧ stream.totalAmount = stream.withdrawn) ∧
      (∃ stream, w₂.streams id₂ = some stream ∧ stream.totalAmount = stream.withdrawn) ∧
      (∀ t ∈ life₁.flatMap (Label.payouts id₁),
        t.token = o₁.token ∧ t.source = opened₁.contractAddress ∧ t.target = o₁.recipient) ∧
      ∀ t ∈ life₁.flatMap (Label.refunds id₁),
        t.token = o₁.token ∧ t.source = opened₁.contractAddress ∧ t.target = o₁.sender := by
  obtain ⟨hempty₁, hdivision₁⟩ := h₁.division
  obtain ⟨hempty₂, hdivision₂⟩ := h₂.division
  obtain ⟨hsound, hopened⟩ := h₁.opening
  have horigin := hsound.records id₁ o₁.stream hopened
  obtain ⟨hpayouts, hrefunds⟩ := hsound.transfers_addressed h₁.run hopened
  have hschedule : ∀ n, o₁.stream.vested n = o₂.stream.vested n := by
    intro n
    simp only [Stream.vested, Opening.stream, htotal, hstart, hend, hcliff]
  rcases hdivision₁ with ⟨hnone, hreceived₁, hrefunded₁⟩ | ⟨n, hone, hreceived₁, hrefunded₁⟩
  · rcases hdivision₂ with ⟨_, hreceived₂, hrefunded₂⟩ | ⟨n, hone, _, _⟩
    · refine ⟨by rw [hreceived₁, hreceived₂, htotal], hrefunded₁.trans hrefunded₂.symm, by omega,
        fun _ => hreceived₁, ?_, hempty₁, hempty₂, hpayouts, hrefunds⟩
      rw [hnone]
      simp
    · rw [← hagree, hnone] at hone
      cases hone
  · rcases hdivision₂ with ⟨hnone, _, _⟩ | ⟨k, hone', hreceived₂, hrefunded₂⟩
    · rw [← hagree, hone] at hnone
      cases hnone
    · obtain rfl : n = k := by
        rw [← hagree, hone] at hone'
        exact List.singleton_inj.mp hone'
      refine ⟨by rw [hreceived₁, hreceived₂, hschedule],
        by rw [hrefunded₁, hrefunded₂, hschedule, htotal], by omega, ?_, ?_, hempty₁, hempty₂,
        hpayouts, hrefunds⟩
      · intro hnone
        rw [hone] at hnone
        cases hnone
      · intro k hk
        rw [hone, List.mem_singleton] at hk
        subst hk
        exact ⟨_, horigin.vestedAmount_eq k, hreceived₁.trans (horigin.toInt_vestedUnits k).symm⟩

namespace Sample

/-- Withdraw, cancel, and find nothing more. -/
def patientLife : List (Label ℕ) :=
  [.clock 4 1, .call env (.withdraw 0) (later.invoke env (.withdraw 0)).1,
    .call env (.cancel 0) (drained.invoke env (.cancel 0)).1,
    .call env (.withdraw 0) (cancelled.invoke env (.withdraw 0)).1]

/-- Cancel first, then withdraw. -/
def hastyLife : List (Label ℕ) :=
  [.clock 4 1, .call env (.cancel 0) (later.invoke env (.cancel 0)).1,
    .call env (.withdraw 0) ((later.invoke env (.cancel 0)).2.invoke env (.withdraw 0)).1]

theorem patientRun :
    SettledRun opening 0 opened patientLife (cancelled.invoke env (.withdraw 0)).2 where
  created := ⟨genesis, env, _, genesis_reachable, rfl, by decide⟩
  run := (drain_run.append cancelled_run).snoc (.call rfl)
  withdrawn := ⟨patientLife.take 3, env, _, rfl, Or.inr (by decide), Or.inr ⟨4, by decide⟩⟩

theorem hastyRun :
    SettledRun opening 0 opened hastyLife
      ((later.invoke env (.cancel 0)).2.invoke env (.withdraw 0)).2 where
  created := ⟨genesis, env, _, genesis_reachable, rfl, by decide⟩
  run := (later_run.snoc (.call rfl)).snoc (.call rfl)
  withdrawn := ⟨hastyLife.take 2, env, _, rfl, Or.inl ⟨units 40, by decide⟩, Or.inr ⟨4, by decide⟩⟩

end Sample

theorem settlement_independent_patient_hasty :
    received 0 Sample.patientLife = received 0 Sample.hastyLife ∧
      refunded 0 Sample.patientLife = refunded 0 Sample.hastyLife :=
  have h := settlement_independent rfl rfl rfl rfl Sample.patientRun Sample.hastyRun (by decide)
  ⟨h.1, h.2.1⟩

end TricklePay
