import TricklePay.Proofs.Identifiers
import TricklePay.Proofs.Reentrancy

/-!
# What a creation asks of its host

A creation reserves its id before it calls its token, and writes it when the token has
returned. Nothing in the contract keeps others from creating streams in between: that
is left to the host, which lets nobody back in while a call is on its way. Here a host
lets anybody do anything in between, and what becomes of the reserved id is stated.
-/

namespace TricklePay

open Checked Transition

variable {Address : Type} [DecidableEq Address] {w m : World Address} {ls : List (Label Address)}

/-- The ids handed out along a run continue where the counter stood. -/
theorem World.Sound.allocated_eq (hw : w.Sound) (hrun : Run Step w ls m) :
    (m.streamCount.getD 0).toNat =
        (w.streamCount.getD 0).toNat + (ls.flatMap Label.allocated).length ∧
      (ls.flatMap Label.allocated).map UInt64.toNat =
        List.range' (w.streamCount.getD 0).toNat (ls.flatMap Label.allocated).length := by
  induction hrun with
  | nil => exact ⟨rfl, rfl⟩
  | @snoc ls m l m' hrun hstep ih =>
    obtain ⟨hcount, hrange⟩ := ih
    have hchange := hstep.change (hw.run hrun)
    have hlast := hchange.count_eq
    rw [List.flatMap_append, List.map_append, hrange, List.length_append]
    rcases hchange.allocated_eq with hnone | hnext
    · rw [hnone] at hlast
      simp only [List.flatMap_singleton, hnone, List.length_nil, List.map_nil, List.append_nil,
        add_zero]
      exact ⟨hlast.trans hcount, trivial⟩
    · rw [hnext] at hlast
      simp only [List.flatMap_singleton, hnext, List.length_singleton, List.map_singleton,
        List.range'_1_concat, hcount]
      exact ⟨by rw [hlast, hcount, List.length_singleton, add_assoc], trivial⟩

theorem World.Sound.first_allocated (hw : w.Sound) (hrun : Run Step w ls m) :
    w.streamCount.getD 0 ∈ ls.flatMap Label.allocated ↔ ls.flatMap Label.allocated ≠ [] := by
  obtain ⟨_, hrange⟩ := hw.allocated_eq hrun
  constructor
  · exact List.ne_nil_of_mem
  · intro hne
    have hpos : 0 < (ls.flatMap Label.allocated).length := List.length_pos_iff.mpr hne
    have hmem : (w.streamCount.getD 0).toNat ∈ (ls.flatMap Label.allocated).map UInt64.toNat := by
      rw [hrange, List.mem_range'_1]
      omega
    obtain ⟨id, hid, heq⟩ := List.mem_map.mp hmem
    rwa [← UInt64.toNat_inj.mp heq]

theorem run_time_le (hrun : Run Step w ls m) : w.timestamp.toNat ≤ m.timestamp.toNat := by
  induction hrun with
  | nil => exact le_rfl
  | snoc _ hstep ih =>
    refine ih.trans ?_
    cases hstep with
    | clock htime _ => exact UInt64.le_iff_toNat_le.mp htime
    | call hinvoke => rw [World.invoke_timestamp hinvoke]
    | credited => exact le_rfl
    | refused => exact le_rfl
    | bookkeeping => exact le_rfl

theorem World.Sound.finished_iff (hm : m.Sound) {env : Env Address} {o : Opening Address}
    {id nextId : UInt64} {n : ℕ} (hvalid : o.Valid m.contractAddress w.timestamp)
    (htime : w.timestamp.toNat ≤ m.timestamp.toNat) (hnext : nextId.toNat = id.toNat + 1)
    (hcount : (m.streamCount.getD 0).toNat = id.toNat + n) :
    (m.finished env o id nextId).Sound ↔ n ≤ 1 := by
  have hstreams : (m.finished env o id nextId).streams =
      Function.update m.streams id (some o.stream) := rfl
  have hleft : (m.finished env o id nextId).streamCount.getD 0 = nextId := rfl
  constructor
  · intro hsound
    by_contra hmany
    have hstored : (m.streams nextId).isSome = true := (hm.ids nextId).mpr (by omega)
    have hne : nextId ≠ id := fun heq => by
      rw [heq] at hnext
      omega
    have hbelow := hsound.ids nextId
    rw [hleft, hstreams, Function.update_of_ne hne, hstored] at hbelow
    exact absurd (hbelow.mp rfl) (lt_irrefl _)
  · intro hfew
    refine hm.update_records id o.stream rfl rfl hstreams
      ((o.stream_wellFormed hvalid).advance htime) hvalid.sender_ne hvalid.recipient_ne
      hvalid.token_ne fun i => ?_
    rw [hleft, hstreams]
    by_cases hi : i = id
    · subst hi
      rw [Function.update_self]
      simp only [Option.isSome_some, true_iff]
      omega
    · have hne : i.toNat ≠ id.toNat := fun heq => hi (UInt64.toNat_inj.mp heq)
      rw [Function.update_of_ne hi, hm.ids]
      omega

/-- A creation relies on its host. It returns the id it reserved, whatever happens
between its two halves. If others create streams in between, this id has been handed
out before, the record that was stored under it is overwritten, and what that record
held is no longer counted; from two creations on, records are left beyond the counter.
If nobody does, the id is new and the ledger as sound as after a creation in one piece. -/
theorem reserved_id_relies_on_host (h : Reachable w) {env : Env Address} {o : Opening Address}
    {id nextId created : UInt64} {frame final : Frame Address}
    (hbegin : o.begin env ⟨w, [], []⟩ = .ok (id, nextId) frame)
    (hrun : Run Step frame.world ls m)
    (hfinish : o.finish env id nextId ⟨m, [], []⟩ = .ok created final) :
    (created ∈ ls.flatMap Label.allocated ↔ ls.flatMap Label.allocated ≠ []) ∧
      ((m.streams created).isSome = true ↔ ls.flatMap Label.allocated ≠ []) ∧
      (final.world.Sound ↔ (ls.flatMap Label.allocated).length ≤ 1) ∧
      ∀ token, final.world.escrow token = m.escrow token +
        (o.stream.holds token - (m.streams created).elim 0 (Stream.holds token)) := by
  obtain ⟨hvalid, hid, hnext, hworld⟩ := Opening.begin_ok hbegin
  rw [Opening.finish_run] at hfinish
  cases hfinish
  rw [hworld] at hrun
  subst hid
  have hw := h.sound
  have hm := hw.run hrun
  obtain ⟨hcount, _⟩ := hw.allocated_eq hrun
  rw [← hw.run_contractAddress hrun] at hvalid
  refine ⟨hw.first_allocated hrun, ?_, ?_, fun token => World.escrow_of_update rfl token⟩
  · rw [hm.ids, hcount, ← List.length_pos_iff]
    omega
  · exact hm.finished_iff hvalid (run_time_le hrun) hnext hcount

namespace Sample

/-- A smaller stream, whose token opens the sample stream before it returns. -/
def smaller : Opening ℕ := { opening with totalAmount := units 40 }

end Sample

theorem reserved_id_relies_on_host_nested : ∃ final : Frame ℕ,
    Sample.smaller.finish Sample.env 0 1 ⟨Sample.opened, [], []⟩ = .ok 0 final ∧
      0 ∈ (Label.call Sample.env Sample.opening.call
        (Sample.genesis.invoke Sample.env Sample.opening.call).1).allocated ∧
      final.world.escrow 9 = Sample.opened.escrow 9 + (40 - 100) := by
  have hbegin : Sample.smaller.begin Sample.env ⟨Sample.genesis, [], []⟩ =
      .ok (0, 1) ⟨Sample.genesis, [], []⟩ := rfl
  obtain ⟨hagain, _, _, hescrow⟩ :=
    reserved_id_relies_on_host Sample.genesis_reachable hbegin Sample.opened_run rfl
  exact ⟨_, rfl, List.mem_singleton.mpr rfl, hescrow 9⟩

end TricklePay
