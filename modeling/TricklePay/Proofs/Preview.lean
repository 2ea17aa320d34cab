import TricklePay.Proofs.Acceptance
import TricklePay.Proofs.Schedule

/-!
# The preview of a cancellation

`cancelPreview`, `cancel`, `withdrawable` and `locked` compute the same two
amounts along different paths, some clamped and some not. On a reachable ledger
they agree, and from the cancellation on the views keep reporting its split.
-/

namespace TricklePay

open Checked Transition

variable {Address : Type} [DecidableEq Address]

/-- The division `split` is what the views of stream `id` report as locked and
withdrawable, what `cancel` does, and what is left in the stream afterwards. -/
structure World.Foretells (w : World Address) (env : Env Address) (id : UInt64)
    (stream : Stream Address) (r : Reading) (split : Settlement) : Prop where
  refund_eq : split.refund = r.locked
  refund_pos : 1 ≤ split.refund.toInt
  remaining_eq : split.recipientRemaining = r.withdrawable
  remaining_nonneg : 0 ≤ split.recipientRemaining.toInt
  sum_eq : split.refund.toInt + split.recipientRemaining.toInt =
    stream.totalAmount.toInt - stream.withdrawn.toInt
  receipt_eq : (w.invoke env (.cancel id)).1 = ⟨w.timestamp, .ok (.amount split.refund),
    [⟨stream.token, w.contractAddress, stream.sender, split.refund⟩],
    [.cancelled ⟨stream.sender, id, split.recipientRemaining, split.refund⟩]⟩
  balance_eq : (w.invoke env (.cancel id)).2.balance = Function.update w.balance stream.token
    (Pool.move (w.balance stream.token) w.contractAddress stream.sender split.refund.toInt)
  after : ∀ ls w', Run Step (w.invoke env (.cancel id)).2 ls w' →
    ∃ r', w'.Reports id r' ∧ r'.vested = r.vested ∧ r'.locked = 0 ∧
      (received id ls = 0 → r'.withdrawable = split.recipientRemaining)

section Stored

variable {w : World Address} {id : UInt64} {stream : Stream Address} {env : Env Address}

/-- From a cancellation on, the views report everything left as vested. -/
theorem World.Sound.reports_after_cancel {w' w'' : World Address} (hw : w.Sound)
    {receipt : Receipt Address} (hcancel : w.invoke env (.cancel id) = (receipt, w'))
    {response : Response Address} (hresult : receipt.result = .ok response)
    (hstream : w.streams id = some stream) {ls : List (Label Address)}
    (hrun : Run Step w' ls w'') :
    ∃ r, w''.Reports id r ∧ r.vested = stream.vestedUnits w.timestamp ∧ r.locked = 0 ∧
      (received id ls = 0 → r.withdrawable = stream.available w.timestamp) := by
  obtain ⟨s, hs, _, hclosed⟩ := hw.cancel_ok hcancel hresult
  obtain rfl : s = stream := Option.some_inj.mp (hs.symm.trans hstream)
  have hformed := hw.records id s hstream
  have htime : w'.timestamp = w.timestamp := World.invoke_timestamp hcancel
  have hsound' := (Step.call hcancel).sound hw
  have hsound'' := hsound'.run hrun
  obtain ⟨frozen, hfrozen, hevolved, hpaid, _⟩ := hsound'.evolved hrun hclosed
  have hformed'' := hsound''.records id frozen hfrozen
  have hsame := hevolved.frozen rfl
  have hlater : w.timestamp.toNat ≤ w''.timestamp.toNat := htime ▸ hevolved.time_le
  have htotal : frozen.totalAmount = s.vestedUnits w.timestamp := by
    rw [hsame]
    rfl
  have hvested : frozen.vested w''.timestamp = s.vested w.timestamp := by
    rw [← hformed.toInt_vestedUnits, ← htotal]
    apply hformed''.vested_of_cancelled
    rw [hsame]
    rfl
  refine ⟨frozen.reading w''.timestamp, (hsound''.stores hfrozen).reports, ?_, ?_, ?_⟩
  · apply Signed.ext
    rw [hformed.toInt_vestedUnits, ← hvested]
    exact hformed''.toInt_vestedUnits _
  · apply Signed.ext
    change (frozen.refund _).toInt = 0
    rw [hformed''.toInt_refund, htotal, hvested, hformed.toInt_vestedUnits]
    exact sub_self _
  · intro hnone
    apply Signed.ext
    change (frozen.available _).toInt = _
    rw [hformed''.toInt_available, hvested, hpaid, hnone, hformed.toInt_available]
    exact congrArg _ (add_zero _)

theorem World.Sound.foretells (hw : w.Sound) (hstream : w.streams id = some stream)
    (hsurplus : 0 ≤ w.surplus stream.token) (hconforming : (env.token stream.token).Conforming)
    (hauth : env.authorized stream.sender = true) {split : Settlement}
    (hpreview : stream.preview w.timestamp = .ok split) :
    w.Foretells env id stream (stream.reading w.timestamp) split := by
  have hformed := hw.records id stream hstream
  have hlocked := hformed.toInt_refund
  have hdue := hformed.toInt_available
  have hle := hformed.withdrawn_le
  have hreceipt := hw.invoke_cancel hstream hsurplus hconforming hauth
  have hbalance := (hw.cancel_pays hstream hsurplus hconforming hauth hpreview).balance
  rw [hpreview] at hreceipt
  unfold Stream.preview at hpreview
  split_ifs at hpreview with hcancelled hend
  rw [Bool.not_eq_true] at hcancelled
  rw [UInt64.le_iff_toNat_le, not_le] at hend
  have hopen := hformed.vested_lt_total hcancelled hend
  cases hpreview
  refine ⟨rfl, ?_, rfl, ?_, ?_, hreceipt, hbalance, ?_⟩
  · change 1 ≤ (stream.refund w.timestamp).toInt
    omega
  · change 0 ≤ (stream.available w.timestamp).toInt
    omega
  · change (stream.refund w.timestamp).toInt + (stream.available w.timestamp).toInt = _
    omega
  · intro ls w' hrun
    exact hw.reports_after_cancel (Prod.mk.eta).symm (congrArg Receipt.result hreceipt) hstream hrun

end Stored

/-- On every reachable ledger with conforming tokens `cancelPreview` fails exactly
when `cancel`, authorized by the sender, fails, and with the same error; otherwise
it returns the division that the views report and that `cancel` carries out: the
locked amount, at least one unit, to the sender, and the withdrawable amount left
in the stream, where the views report it until the next withdrawal. -/
theorem preview_foretells_cancel {w : World Address} (h : Reachable w) {env : Env Address}
    {id : UInt64} (htokens : ∀ stream, w.streams id = some stream →
      ReachableWith stream.token w ∧ (env.token stream.token).Conforming)
    (hauth : ∀ stream, w.streams id = some stream → env.authorized stream.sender = true) :
    (∀ viewer failure, w.answer viewer (.cancelPreview id) = .error failure ↔
      w.answer env (.cancel id) = .error failure) ∧
    ((∃ failure, w.answer env (.cancel id) = .error failure) ∨
      ∃ stream r split, w.streams id = some stream ∧ w.Reports id r ∧
        (∀ viewer, w.answer viewer (.cancelPreview id) = .ok (.settlement split)) ∧
        w.Foretells env id stream r split) := by
  cases hstream : w.streams id with
  | none =>
    have hpreview : ∀ viewer, w.answer viewer (.cancelPreview id) =
        .error (.error .streamNotFound) := by
      intro viewer
      rw [World.answer_eq]
      simp [Call.run, StreamContract.cancelPreview, hstream, okOr]
    have hcancel : w.answer env (.cancel id) = .error (.error .streamNotFound) := by
      have hinvoke := w.invoke_op env .cancel id
      rw [hstream] at hinvoke
      exact World.answer_of_invoke hinvoke
    refine ⟨?_, Or.inl ⟨_, hcancel⟩⟩
    intro viewer failure
    rw [hpreview, hcancel]
  | some stream =>
    obtain ⟨hrun, hconforming⟩ := htokens stream hstream
    have hstores := h.sound.stores hstream
    have hcancel := h.sound.answer_cancel hstream hrun.surplus_nonneg hconforming
      (hauth stream hstream)
    cases hpreview : stream.preview w.timestamp with
    | error e =>
      rw [hpreview] at hcancel
      refine ⟨?_, Or.inl ⟨_, hcancel⟩⟩
      intro viewer failure
      rw [hstores.answer_cancelPreview, hpreview, hcancel]
      simp [Except.mapError, Except.map]
    | ok split =>
      rw [hpreview] at hcancel
      refine ⟨?_, Or.inr ⟨stream, _, split, rfl, hstores.reports, ?_, ?_⟩⟩
      · intro viewer failure
        rw [hstores.answer_cancelPreview, hpreview, hcancel]
        simp [Except.mapError, Except.map]
      · intro viewer
        rw [hstores.answer_cancelPreview, hpreview]
        rfl
      · exact h.sound.foretells hstream hrun.surplus_nonneg hconforming (hauth stream hstream)
          hpreview

theorem preview_foretells_cancel_drained :
    ∃ stream r split, Sample.drained.streams 0 = some stream ∧ Sample.drained.Reports 0 r ∧
      (∀ viewer, Sample.drained.answer viewer (.cancelPreview 0) = .ok (.settlement split)) ∧
      Sample.drained.Foretells Sample.env 0 stream r split := by
  have htokens : ∀ stream, Sample.drained.streams 0 = some stream →
      ReachableWith stream.token Sample.drained ∧ (Sample.env.token stream.token).Conforming :=
    fun stream _ => ⟨Sample.drained_reachableWith stream.token, Sample.ledgerToken_conforming⟩
  have hok : Sample.drained.answer Sample.env (.cancel 0) = .ok (.amount (Sample.units 60)) := rfl
  have hforetold := preview_foretells_cancel Sample.drained_reachable htokens fun _ _ => rfl
  refine hforetold.2.resolve_left ?_
  rintro ⟨failure, hfailure⟩
  rw [hok] at hfailure
  cases hfailure

end TricklePay
