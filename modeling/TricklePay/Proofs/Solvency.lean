import TricklePay.Proofs.Invariant

/-!
# Escrow solvency

All streams of a token share one balance of the contract. Along every run, for
every token that moves exactly what it is asked to move, that balance is the
sum of what the stored streams still hold, plus what third parties sent in.
-/

namespace TricklePay

open Checked Transition

variable {Address : Type} [DecidableEq Address]

/-- What a stream still holds of a given token: its total less what was withdrawn. -/
def Stream.holds (token : Address) (stream : Stream Address) : ℤ :=
  if stream.token = token then stream.totalAmount.toInt - stream.withdrawn.toInt else 0

/-- The sum of what all stored streams hold of a token. -/
def World.escrow (w : World Address) (token : Address) : ℤ :=
  Pool.weight (Stream.holds token) w.streams

theorem Stream.WellFormed.holds_nonneg {stream : Stream Address} {now : UInt64}
    (h : stream.WellFormed now) (token : Address) : 0 ≤ stream.holds token := by
  have hle := h.withdrawn_le.trans (h.vested_le_total now)
  unfold Stream.holds
  split_ifs <;> omega

/-- With every record well formed, the pooled escrow covers each single stream. -/
theorem World.Sound.escrow_covers {w : World Address} (h : w.Sound) {id : UInt64}
    {stream : Stream Address} (hstream : w.streams id = some stream) :
    stream.totalAmount.toInt - stream.withdrawn.toInt ≤ w.escrow stream.token := by
  have hle : stream.holds stream.token ≤ w.escrow stream.token :=
    Pool.le_weight (Stream.holds stream.token) w.streams
      (fun i s hi => (h.records i s hi).holds_nonneg stream.token) hstream
  unfold Stream.holds at hle
  rwa [if_pos rfl] at hle

/-- The part of the balance that backs no stream. -/
def World.surplus (w : World Address) (token : Address) : ℤ :=
  w.balance token w.contractAddress - w.escrow token

/-- Writing one record changes the escrow by the difference of what the two hold. -/
theorem World.escrow_of_update {w w' : World Address} {id : UInt64} {stream : Stream Address}
    (hstreams : w'.streams = Function.update w.streams id (some stream)) (token : Address) :
    w'.escrow token =
      w.escrow token + (stream.holds token - (w.streams id).elim 0 (Stream.holds token)) := by
  unfold World.escrow
  rw [hstreams, Pool.weight_update]

theorem Settled.holds_change {op : StreamOp} {now id : UInt64} {stream : Stream Address}
    {z : Settled Address} (h : stream.WellFormed now) (ho : op.Outcome now id stream z)
    (token : Address) :
    z.stream.holds token - stream.holds token =
      if stream.token = token then -z.amount.toInt else 0 := by
  have hescrow := ho.escrow_eq h
  have htoken := ho.parties_eq.2.2
  unfold Stream.holds
  rw [htoken]
  split_ifs <;> omega

/-- Writing back what a settling call leaves frees what it is going to pay. -/
theorem StreamOp.Outcome.surplus_stored {op : StreamOp} {w : World Address} {id : UInt64}
    {stream : Stream Address} {z : Settled Address} (ho : op.Outcome w.timestamp id stream z)
    (hformed : stream.WellFormed w.timestamp) (hstream : w.streams id = some stream)
    (env : Env Address) (token : Address) :
    ((w.refreshed env id).stored env id z.stream).surplus token =
      w.surplus token + if stream.token = token then z.amount.toInt else 0 := by
  have hchange := Settled.holds_change hformed ho token
  have hescrow : ((w.refreshed env id).stored env id z.stream).escrow token =
      w.escrow token + (z.stream.holds token - stream.holds token) := by
    rw [World.escrow_of_update (w := w) rfl, hstream]
    rfl
  simp only [World.surplus, hescrow, hchange, stored_balance, refreshed_balance,
    stored_contractAddress, refreshed_contractAddress]
  split_ifs <;> omega

theorem World.surplus_setBook (w : World Address) (token t : Address) (book : Address → ℤ) :
    (w.setBook t book).surplus token = w.surplus token +
      (if t = token then book w.contractAddress - w.balance t w.contractAddress else 0) := by
  have hescrow : (w.setBook t book).escrow token = w.escrow token := rfl
  unfold World.surplus
  rw [hescrow, setBook_balance, setBook_contractAddress]
  by_cases ht : t = token
  · subst ht
    rw [Function.update_self, if_pos rfl]
    omega
  · rw [Function.update_of_ne (Ne.symm ht), if_neg ht]
    omega

theorem Opening.holds_eq (o : Opening Address) (token : Address) :
    o.stream.holds token = if o.token = token then o.totalAmount.toInt else 0 := by
  simp [Stream.holds, Opening.stream]

theorem World.surplus_finished (w : World Address) (env : Env Address) (o : Opening Address)
    (next : UInt64) {id : UInt64} (hfree : w.streams id = none) (token : Address) :
    (w.finished env o id next).surplus token = w.surplus token - o.stream.holds token := by
  have hescrow : (w.finished env o id next).escrow token =
      w.escrow token + (o.stream.holds token - 0) := by
    rw [World.escrow_of_update (w := w) rfl, hfree]
    rfl
  have hbalance : (w.finished env o id next).balance = w.balance := rfl
  have hcontract : (w.finished env o id next).contractAddress = w.contractAddress := rfl
  rw [World.surplus, World.surplus, hescrow, hbalance, hcontract]
  omega

/-- A step changes the surplus of an exact token by what third parties send in. -/
theorem Change.surplus_eq {w w' : World Address} {l : Label Address} (hw : w.Sound)
    (h : Change w l w') {token : Address} (hexact : l.ExactFor token w.contractAddress) :
    w'.surplus token = w.surplus token + l.transferredIn token := by
  cases h with
  | idle _ _ _ hcontract _ hstreams _ hbalance =>
    simp only [World.surplus, World.escrow, hcontract, hstreams, hbalance token hexact]
    omega
  | opened env o next book hlabel hvalid _ hbook hworld =>
    subst hlabel
    have hfinished : w' =
        (w.setBook o.token book).finished env o (w.streamCount.getD 0) next := hworld
    have hfree : (w.setBook o.token book).streams (w.streamCount.getD 0) = none :=
      hw.next_id_free
    rw [hfinished, World.surplus_finished _ _ _ _ hfree, World.surplus_setBook, o.holds_eq]
    by_cases htoken : o.token = token
    · subst htoken
      have hmove := TokenTransfer.Exact.eq_move hexact hbook
      rw [hmove, Pool.move_target _ hvalid.sender_ne.symm]
      simp [Label.transferredIn]
    · simp [Label.transferredIn, htoken]
  | settled env op id stream z book hlabel hstream houtcome hbook hworld =>
    subst hlabel hworld
    have hstored := houtcome.surplus_stored (hw.records id stream hstream) hstream env token
    rw [World.surplus_setBook, hstored]
    by_cases htoken : stream.token = token
    · subst htoken
      have hparty := hw.party_ne hstream op
      have hmove := TokenTransfer.Exact.eq_move hexact hbook
      rw [hmove, stored_contractAddress, refreshed_contractAddress, Pool.move_source _ hparty]
      simp [Label.transferredIn]
    · simp [Label.transferredIn, htoken]

/-- What third parties transferred directly into the contract along a run. -/
def transferredIn (token : Address) (ls : List (Label Address)) : ℤ :=
  (ls.map (Label.transferredIn token)).sum

theorem surplus_run {w w' : World Address} {ls : List (Label Address)} (hw : w.Sound)
    (h : Run Step w ls w') {token : Address}
    (hexact : ∀ l ∈ ls, l.ExactFor token w.contractAddress) :
    w'.contractAddress = w.contractAddress ∧
      w'.surplus token = w.surplus token + transferredIn token ls := by
  induction h with
  | nil => simp [transferredIn]
  | @snoc ls m l m' hrun hstep ih =>
    obtain ⟨hcontract, hsurplus⟩ := ih fun l hl => hexact l (by simp [hl])
    have hsound := hw.run hrun
    have hchange := hstep.change hsound
    have hl : l.ExactFor token m.contractAddress := hcontract ▸ hexact l (by simp)
    refine ⟨hchange.contractAddress_eq.trans hcontract, ?_⟩
    rw [hchange.surplus_eq hsound hl, hsurplus]
    simp [transferredIn, add_assoc]

theorem transferredIn_nonneg {w w' : World Address} {ls : List (Label Address)}
    (h : Run Step w ls w') (token : Address) : 0 ≤ transferredIn token ls := by
  induction h with
  | nil => simp [transferredIn]
  | @snoc ls m l m' _ hstep ih =>
    have hlast : 0 ≤ l.transferredIn token := by
      cases hstep with
      | clock => exact le_rfl
      | call => exact le_rfl
      | credited _ hamount _ =>
        simp only [Label.transferredIn]
        split_ifs
        · exact hamount
        · exact le_rfl
      | refused => exact le_rfl
      | bookkeeping => exact le_rfl
    have hsum : transferredIn token (ls ++ [l]) =
        transferredIn token ls + l.transferredIn token := by
      simp [transferredIn]
    omega

theorem Fresh.surplus {w : World Address} (h : Fresh w) (token : Address) :
    w.surplus token = 0 := by
  simp [World.surplus, World.escrow, h.balance, h.streams, Pool.weight_empty]

/-- Reachable by a run in which `token` was exact throughout. -/
def ReachableWith (token : Address) (w : World Address) : Prop :=
  ∃ w₀ labels, Fresh w₀ ∧ Run Step w₀ labels w ∧
    ∀ l ∈ labels, l.ExactFor token w₀.contractAddress

theorem ReachableWith.reachable {token : Address} {w : World Address} (h : ReachableWith token w) :
    Reachable w := by
  obtain ⟨w₀, labels, hfresh, hrun, _⟩ := h
  exact ⟨w₀, labels, hfresh, hrun⟩

/-- The contract always holds at least what the streams of an exact token hold. -/
theorem ReachableWith.surplus_nonneg {token : Address} {w : World Address}
    (h : ReachableWith token w) : 0 ≤ w.surplus token := by
  obtain ⟨w₀, labels, hfresh, hrun, hexact⟩ := h
  obtain ⟨_, hsurplus⟩ := surplus_run hfresh.sound hrun hexact
  rw [hsurplus, hfresh.surplus, zero_add]
  exact transferredIn_nonneg hrun token

theorem Sample.later_reachableWith (token : ℕ) : ReachableWith token later := by
  refine ⟨genesis, _, genesis_fresh, opened_run.append later_run, ?_⟩
  simp [Label.ExactFor, env, ledgerToken_exact]

theorem Sample.drained_reachableWith (token : ℕ) : ReachableWith token drained :=
  ⟨genesis, drainedLabels, genesis_fresh, drained_run, drainedLabels_exact token⟩

/-- Escrow solvency: after every step of a run from deployment, the contract's
balance of an exact token is what the stored streams of that token hold, plus
what third parties transferred in directly. Nothing is asked of other tokens. -/
theorem balance_eq_escrow_add_transferredIn {w₀ w : World Address} {ls : List (Label Address)}
    (hfresh : Fresh w₀) (hrun : Run Step w₀ ls w) {token : Address}
    (hexact : ∀ l ∈ ls, l.ExactFor token w₀.contractAddress) :
    w.balance token w.contractAddress = w.escrow token + transferredIn token ls := by
  obtain ⟨_, hsurplus⟩ := surplus_run hfresh.sound hrun hexact
  rw [hfresh.surplus, zero_add] at hsurplus
  rw [← hsurplus, World.surplus]
  omega

theorem balance_eq_escrow_add_transferredIn_busy :
    (Sample.toppedLater.invoke Sample.stranger (.withdraw 0)).2.balance 9 0 =
      (Sample.toppedLater.invoke Sample.stranger (.withdraw 0)).2.escrow 9 + 7 := by
  have hin : transferredIn 9 ([.call Sample.env Sample.opening.call
      (Sample.genesis.invoke Sample.env Sample.opening.call).1] ++ Sample.busyLabels) = 7 := rfl
  rw [← hin]
  refine balance_eq_escrow_add_transferredIn Sample.genesis_fresh
    (Sample.opened_run.append Sample.busy_run) ?_
  intro l hl
  rcases List.mem_append.mp hl with hopen | hbusy
  · obtain rfl := List.mem_singleton.mp hopen
    exact Sample.ledgerToken_exact
  · exact Sample.busyLabels_exact 9 l hbusy

end TricklePay
