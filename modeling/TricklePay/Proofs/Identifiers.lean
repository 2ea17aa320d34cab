import TricklePay.Proofs.Creation
import TricklePay.Proofs.Trace

/-!
# The allocation of ids

The counter lives in one entry and the records in others, and nothing but the order
of the writes ties them together. Over every run they stay in step: ids are handed
out as 0, 1, 2, … whatever else happens, and no record is overwritten or lost.
-/

namespace TricklePay

open Checked Transition

variable {Address : Type}

/-- The id a successful creation returns in this step. -/
def Label.allocated : Label Address → List UInt64
  | .call _ (.createStream ..) ⟨_, .ok (.id id), _, _⟩ => [id]
  | _ => []

/-- The ids whose records this step may write. -/
def Label.written : Label Address → List UInt64
  | .call _ (.withdraw id) _ => [id]
  | .call _ (.withdrawAmount id _) _ => [id]
  | .call _ (.cancel id) _ => [id]
  | l => l.allocated

theorem Label.allocated_of_refused {l : Label Address} (h : l.Refused) : l.allocated = [] := by
  cases l with
  | call env call receipt =>
    cases call with
    | createStream sender recipient token totalAmount startTime endTime cliffTime =>
      obtain ⟨failure, hfailure⟩ := h rfl
      cases receipt
      cases hfailure
      rfl
    | _ => rfl
  | _ => rfl

variable [DecidableEq Address]

/-- What a step does to the counter and to the records. -/
structure Allocates (w : World Address) (l : Label Address) (w' : World Address) : Prop where
  created : ∀ env o receipt response, l = .call env (Opening.call o) receipt →
    receipt.result = .ok response →
      response = .id (w.streamCount.getD 0) ∧ l.allocated = [w.streamCount.getD 0] ∧
        w.streams (w.streamCount.getD 0) = none
  count_eq : (w'.streamCount.getD 0).toNat = (w.streamCount.getD 0).toNat + l.allocated.length
  others : ∀ id, id ∉ l.written → w'.streams id = w.streams id
  persists : ∀ id stream, w.streams id = some stream → ∃ stream', w'.streams id = some stream' ∧
    stream'.sender = stream.sender ∧ stream'.recipient = stream.recipient ∧
      stream'.token = stream.token

theorem Change.others {w w' : World Address} {l : Label Address} (h : Change w l w')
    {id : UInt64} (hid : id ∉ l.written) : w'.streams id = w.streams id := by
  cases h with
  | idle _ _ _ _ _ hstreams _ _ => rw [hstreams]
  | opened env o next book hlabel _ _ _ hworld =>
    subst hlabel hworld
    exact Function.update_of_ne (List.ne_of_not_mem_cons hid) _ _
  | settled env op i stream z book hlabel _ _ _ hworld =>
    subst hlabel hworld
    have hne : id ≠ i := by
      cases op <;> exact List.ne_of_not_mem_cons hid
    exact Function.update_of_ne hne _ _

theorem Change.count_eq {w w' : World Address} {l : Label Address} (h : Change w l w') :
    (w'.streamCount.getD 0).toNat = (w.streamCount.getD 0).toNat + l.allocated.length := by
  cases h with
  | idle hrefused _ _ _ _ _ hcount _ =>
    rw [Label.allocated_of_refused hrefused, hcount]
    rfl
  | opened env o next book hlabel _ hnext _ hworld =>
    subst hlabel hworld
    exact hnext
  | settled env op i stream z book hlabel _ _ _ hworld =>
    subst hlabel hworld
    cases op <;> rfl

theorem Change.allocated_eq {w w' : World Address} {l : Label Address} (h : Change w l w') :
    l.allocated = [] ∨ l.allocated = [w.streamCount.getD 0] := by
  cases h with
  | idle hrefused _ _ _ _ _ _ _ => exact Or.inl (Label.allocated_of_refused hrefused)
  | opened env o next book hlabel _ _ _ _ =>
    subst hlabel
    exact Or.inr rfl
  | settled env op i stream z book hlabel _ _ _ _ =>
    subst hlabel
    cases op <;> exact Or.inl rfl

theorem Step.allocates {w w' : World Address} {l : Label Address} (hw : w.Sound)
    (h : Step w l w') : Allocates w l w' where
  created := by
    rintro env o receipt response rfl hresult
    cases h.change hw with
    | idle hrefused _ _ _ _ _ _ _ =>
      obtain ⟨failure, hfailure⟩ := hrefused rfl
      rw [hfailure] at hresult
      cases hresult
    | opened env' o' next book hlabel _ _ _ _ =>
      injection hlabel with _ _ hreceipt
      subst hreceipt
      cases hresult
      exact ⟨rfl, rfl, hw.next_id_free⟩
    | settled env' op i stream z book hlabel _ _ _ _ => cases op <;> cases hlabel
  count_eq := (h.change hw).count_eq
  others := fun _ => (h.change hw).others
  persists := by
    intro id stream hstream
    obtain ⟨stream', hstream', hevolved, _⟩ := hw.evolved (.single h) hstream
    exact ⟨stream', hstream', hevolved.parties_eq⟩

/-- With the counter at its limit a creation fails before it calls the token. -/
theorem Opening.exhausted (o : Opening Address) (env : Env Address) {w : World Address}
    (hfull : (w.streamCount.getD 0).toNat = 2 ^ 64 - 1) :
    ∃ failure, o.begin env ⟨w, [], []⟩ = .error failure ⟨w, [], []⟩ ∧
      w.invoke env o.call = w.rejected failure := by
  have hnext := (checkedAdd_one_eq_none_iff _).mpr hfull
  have hbegin := o.begin_run env ⟨w, [], []⟩
  have hinvoke := w.invoke_create env o
  rw [hnext] at hbegin hinvoke
  by_cases hauth : env.authorized o.sender = true
  · rw [if_pos hauth] at hbegin hinvoke
    cases hcheck : o.check w.contractAddress w.timestamp with
    | error e =>
      rw [hcheck] at hbegin hinvoke
      exact ⟨_, hbegin, hinvoke⟩
    | ok =>
      rw [hcheck] at hbegin hinvoke
      exact ⟨_, hbegin, hinvoke⟩
  · rw [if_neg hauth] at hbegin hinvoke
    exact ⟨_, hbegin, hinvoke⟩

/-- The ids handed out over a run are 0, 1, 2, … up to the counter. -/
theorem Fresh.allocated_eq_range {w₀ w : World Address} {ls : List (Label Address)}
    (hfresh : Fresh w₀) (hrun : Run Step w₀ ls w) :
    (ls.flatMap Label.allocated).map UInt64.toNat =
      List.range (w.streamCount.getD 0).toNat := by
  induction hrun with
  | nil =>
    rw [hfresh.streamCount]
    rfl
  | @snoc ls m l m' hrun hstep ih =>
    have hchange := hstep.change (hfresh.sound.run hrun)
    have hcount := hchange.count_eq
    rw [List.flatMap_append, List.map_append, ih]
    rcases hchange.allocated_eq with hnone | hnext
    · rw [hnone] at hcount
      simp [hnone, hcount]
    · rw [hnext] at hcount
      simp [hnext, hcount, List.range_succ]

/-- Along every run from deployment records exist exactly below the counter, and
the ids returned are 0, 1, 2, … without a gap or a repetition. Each step hands out
the next id or none, writes no record but the one it addresses, and removes none;
the parties and the token of a record never change. Once the counter is at its
limit every creation fails, before any token is called, and changes nothing. -/
theorem ids_allocated_in_order {w₀ w : World Address} {ls : List (Label Address)}
    (hfresh : Fresh w₀) (hrun : Run Step w₀ ls w) :
    (∀ id, (w.streams id).isSome = true ↔ id.toNat < (w.streamCount.getD 0).toNat) ∧
    (ls.flatMap Label.allocated).map UInt64.toNat = List.range (w.streamCount.getD 0).toNat ∧
    (∀ l w', Step w l w' → Allocates w l w') ∧
    (∀ ls' w', Run Step w ls' w' → ∀ id stream, w.streams id = some stream →
      ∃ stream', w'.streams id = some stream' ∧ stream'.sender = stream.sender ∧
        stream'.recipient = stream.recipient ∧ stream'.token = stream.token) ∧
    ∀ full : World Address, (full.streamCount.getD 0).toNat = 2 ^ 64 - 1 → ∀ env o,
      ∃ failure, Opening.begin o env ⟨full, [], []⟩ = .error failure ⟨full, [], []⟩ ∧
        full.invoke env o.call = (⟨full.timestamp, .error failure, [], []⟩, full) := by
  have hsound := hfresh.sound.run hrun
  refine ⟨hsound.ids, hfresh.allocated_eq_range hrun, fun l w' => Step.allocates hsound, ?_,
    fun full hfull env o => o.exhausted env hfull⟩
  intro ls' w' hrun' id stream hstream
  obtain ⟨stream', hstream', hevolved, _⟩ := hsound.evolved hrun' hstream
  exact ⟨stream', hstream', hevolved.parties_eq⟩

theorem ids_allocated_in_order_drained :
    (∀ id, (Sample.drained.streams id).isSome = true ↔
      id.toNat < (Sample.drained.streamCount.getD 0).toNat) ∧
    (Sample.drainedLabels.flatMap Label.allocated).map UInt64.toNat =
      List.range (Sample.drained.streamCount.getD 0).toNat := by
  obtain ⟨hids, hrange, _⟩ := ids_allocated_in_order Sample.genesis_fresh Sample.drained_run
  exact ⟨hids, hrange⟩

end TricklePay
