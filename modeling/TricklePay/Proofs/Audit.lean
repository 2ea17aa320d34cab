import TricklePay.Proofs.Solvency
import TricklePay.Proofs.Views

/-!
# Audits page by page

What the contract owes in a token can be added up from its records, but one call returns
only so many of them, and between two pages the contract is in use. What is added up over
the pages still means something: it lies between what was owed when the audit began and
what is still owed on the same streams when it ends.
-/

namespace TricklePay

open Checked Transition

variable {Address : Type}

/-- The records a page lists, with their identifiers. -/
def Label.page : Label Address → List (UInt64 × Stream Address)
  | .call _ (.getStreams ids) ⟨_, .ok (.streams records), _, _⟩ =>
    (ids.zip records).filterMap fun x => x.2.map fun stream => (x.1, stream)
  | _ => []

variable [DecidableEq Address]

/-- What the streams with identifiers below `count` hold of a token. -/
def World.escrowBelow (w : World Address) (count : ℕ) (token : Address) : ℤ :=
  Pool.weight (Stream.holds token) fun id => if id.toNat < count then w.streams id else none

/-- What the pages of a run add up to. -/
def audited (token : Address) (ls : List (Label Address)) : ℤ :=
  ((ls.flatMap Label.page).map fun x => x.2.holds token).sum

section Steps

variable {w w' : World Address} {l : Label Address}

/-- A page lists what is stored. -/
theorem Step.page (h : Step w l w') {x : UInt64 × Stream Address} (hx : x ∈ l.page) :
    w.streams x.1 = some x.2 := by
  cases h with
  | clock => cases hx
  | credited => cases hx
  | refused => cases hx
  | bookkeeping => cases hx
  | @call _ env call receipt hinvoke =>
    cases call with
    | getStreams ids =>
      unfold World.invoke at hinvoke
      rw [Call.run, map_run, StreamContract.getStreams, bind_run, rejectIf_run] at hinvoke
      by_cases hlarge : maxBatchSize < ids.length
      · rw [if_pos hlarge] at hinvoke
        cases hinvoke
        cases hx
      · rw [if_neg hlarge] at hinvoke
        dsimp only at hinvoke
        rw [getStreams_run] at hinvoke
        cases hinvoke
        obtain ⟨⟨id, found⟩, hzip, hfound⟩ := List.mem_filterMap.mp hx
        obtain ⟨stream, rfl, rfl⟩ := Option.map_eq_some_iff.mp hfound
        rw [← List.map_prod_left_eq_zip] at hzip
        obtain ⟨i, _, hi⟩ := List.mem_map.mp hzip
        obtain ⟨rfl, hstream⟩ := Prod.mk.inj hi
        exact hstream
    | _ =>
      simp [Label.page] at hx

theorem Step.holds_le (h : Step w l w') (hw : w.Sound) {id : UInt64} {stream : Stream Address}
    (hstream : w.streams id = some stream) (token : Address) :
    ∃ stream', w'.streams id = some stream' ∧ stream'.holds token ≤ stream.holds token := by
  cases h.change hw with
  | idle _ _ _ _ _ hstreams _ _ =>
    rw [hstreams]
    exact ⟨stream, hstream, le_rfl⟩
  | opened env o next book _ _ _ _ hworld =>
    have hne : id ≠ w.streamCount.getD 0 := by
      rintro rfl
      rw [hw.next_id_free] at hstream
      cases hstream
    rw [hworld]
    exact ⟨stream, (Function.update_of_ne hne _ _).trans hstream, le_rfl⟩
  | settled env op i s z book _ hs houtcome _ hworld =>
    rw [hworld]
    by_cases hid : id = i
    · subst hid
      rw [hs] at hstream
      cases hstream
      have hformed := hw.records id stream hs
      have hchange := Settled.holds_change hformed houtcome token
      have hpos := houtcome.amount_pos hformed
      refine ⟨z.stream, Function.update_self _ _ _, ?_⟩
      split_ifs at hchange <;> omega
    · exact ⟨stream, (Function.update_of_ne hid _ _).trans hstream, le_rfl⟩

end Steps

section Runs

variable {w w' : World Address} {ls : List (Label Address)}

theorem run_holds_le (hrun : Run Step w ls w') (hw : w.Sound) {id : UInt64}
    {stream : Stream Address} (hstream : w.streams id = some stream) (token : Address) :
    ∃ stream', w'.streams id = some stream' ∧ stream'.holds token ≤ stream.holds token := by
  induction hrun with
  | nil => exact ⟨stream, hstream, le_rfl⟩
  | snoc hrun hstep ih =>
    obtain ⟨mid, hmid, hle⟩ := ih
    obtain ⟨last, hlast, hle'⟩ := hstep.holds_le (hw.run hrun) hmid token
    exact ⟨last, hlast, hle'.trans hle⟩

/-- A listed record holds no more than the record did at first, and no less than it does
in the end. -/
theorem run_page (hrun : Run Step w ls w') (hw : w.Sound) {x : UInt64 × Stream Address}
    (hx : x ∈ ls.flatMap Label.page) (token : Address) :
    (∀ stream, w.streams x.1 = some stream → x.2.holds token ≤ stream.holds token) ∧
      ∃ stream', w'.streams x.1 = some stream' ∧ stream'.holds token ≤ x.2.holds token := by
  induction hrun with
  | nil => cases hx
  | @snoc ls m l w' hrun hstep ih =>
    have hm := hw.run hrun
    rw [List.flatMap_append, List.mem_append] at hx
    rcases hx with hearlier | hnow
    · obtain ⟨hfirst, mid, hmid, hle⟩ := ih hearlier
      obtain ⟨last, hlast, hle'⟩ := hstep.holds_le hm hmid token
      exact ⟨hfirst, last, hlast, hle'.trans hle⟩
    · have hlisted : m.streams x.1 = some x.2 := hstep.page (by simpa using hnow)
      refine ⟨fun stream hstream => ?_, hstep.holds_le hm hlisted token⟩
      obtain ⟨mid, hmid, hle⟩ := run_holds_le hrun hw hstream token
      rw [hlisted] at hmid
      cases hmid
      exact hle

/-- Audits are sound while the contract is in use. When the pages read during a run list
every stream there was at its start once, in any order and between any other calls, what
they add up to is at most what the contract owed in the token at the start, and at
least what it still owes on those streams at the end. -/
theorem audit_brackets_escrow (h : Reachable w) (hrun : Run Step w ls w')
    (hpages : ((ls.flatMap Label.page).map Prod.fst).Perm
      ((List.range (w.streamCount.getD 0).toNat).map UInt64.ofNat)) (token : Address) :
    w'.escrowBelow (w.streamCount.getD 0).toNat token ≤ audited token ls ∧
      audited token ls ≤ w.escrow token := by
  have hw := h.sound
  have hcount := (w.streamCount.getD 0).toNat_lt
  have htoNat : ∀ i ∈ List.range (w.streamCount.getD 0).toNat, (UInt64.ofNat i).toNat = i := by
    intro i hi
    exact UInt64.toNat_ofNat_of_lt' ((List.mem_range.mp hi).trans hcount)
  have hnodup : ((ls.flatMap Label.page).map Prod.fst).Nodup := by
    refine hpages.nodup_iff.mpr (List.nodup_range.map_on ?_)
    intro i hi j hj hij
    rw [← htoNat i hi, ← htoNat j hj, hij]
  have hmem : ∀ id : UInt64, id ∈ (ls.flatMap Label.page).map Prod.fst ↔
      (w.streams id).isSome = true := by
    intro id
    rw [hpages.mem_iff, hw.ids, List.mem_map]
    constructor
    · rintro ⟨i, hi, rfl⟩
      rw [htoNat i hi]
      exact List.mem_range.mp hi
    · intro hlt
      exact ⟨id.toNat, List.mem_range.mpr hlt, UInt64.ofNat_toNat⟩
  have hstored : ∀ x ∈ ls.flatMap Label.page, ∃ stream, w.streams x.1 = some stream ∧
      x.2.holds token ≤ stream.holds token := by
    intro x hx
    obtain ⟨stream, hstream⟩ :=
      Option.isSome_iff_exists.mp ((hmem x.1).mp (List.mem_map_of_mem hx))
    exact ⟨stream, hstream, (run_page hrun hw hx token).1 stream hstream⟩
  constructor
  · refine Pool.weight_le_sum ?_ hnodup ?_
    · intro x hx
      obtain ⟨_, last, hlast, hle⟩ := run_page hrun hw hx token
      exact ((((hw.run hrun).records x.1 last hlast).holds_nonneg token).trans hle)
    · intro id stream hstream
      by_cases hbelow : id.toNat < (w.streamCount.getD 0).toNat
      · rw [if_pos hbelow] at hstream
        obtain ⟨x, hx, rfl⟩ := List.mem_map.mp ((hmem id).mpr ((hw.ids id).mpr hbelow))
        obtain ⟨_, last, hlast, hle⟩ := run_page hrun hw hx token
        rw [hstream] at hlast
        cases hlast
        exact ⟨x, hx, rfl, hle⟩
      · rw [if_neg hbelow] at hstream
        cases hstream
  · refine Pool.sum_le_weight ?_ hnodup hstored
    intro id stream hstream
    exact (hw.records id stream hstream).holds_nonneg token

end Runs

namespace Sample

/-- The only page of an audit, read after a withdrawal. -/
def auditLabels : List (Label ℕ) :=
  [.clock 4 1, .call env (.withdraw 0) (later.invoke env (.withdraw 0)).1,
    .call env (.getStreams [0]) (drained.invoke env (.getStreams [0])).1]

theorem audit_run : Run Step opened auditLabels (drained.invoke env (.getStreams [0])).2 :=
  drain_run.snoc (.call rfl)

end Sample

theorem audit_brackets_escrow_drained :
    (Sample.drained.invoke Sample.env (.getStreams [0])).2.escrowBelow 1 9 ≤
        audited 9 Sample.auditLabels ∧
      audited 9 Sample.auditLabels ≤ Sample.opened.escrow 9 :=
  audit_brackets_escrow Sample.opened_reachable Sample.audit_run (.refl [0]) 9

end TricklePay
