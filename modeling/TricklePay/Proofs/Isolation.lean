import TricklePay.Proofs.Solvency
import TricklePay.Library.Replay

/-!
# Streams do not interfere

All streams of a token share one balance, so whether a payment succeeds could
depend on the others. It does not: as long as the tokens conform, what a settling
call answers and writes is decided by its own record, and its payment is covered.
-/

namespace TricklePay

open Checked Transition Replay

variable {Address : Type}

/-- What a settling call does to its record when its token is willing: the
receipt, and the record afterwards. -/
def StreamOp.respond (op : StreamOp) (env : Env Address) (now id : UInt64) (this : Address)
    (record : Option (Stream Address)) : Receipt Address × Option (Stream Address) :=
  match record with
  | none => (⟨now, .error (.error .streamNotFound), [], []⟩, none)
  | some stream =>
    if env.authorized (op.party stream) then
      match op.settle now id stream with
      | .error e => (⟨now, .error e, [], []⟩, some stream)
      | .ok z => (⟨now, .ok (.amount z.amount), [⟨stream.token, this, op.party stream, z.amount⟩],
          [z.event]⟩, some z.stream)
    else (⟨now, .error .unauthorized, [], []⟩, some stream)

/-- The receipt of a call that fails. -/
def Receipt.failed (now : UInt64) (failure : Failure) : Receipt Address :=
  ⟨now, .error failure, [], []⟩

section Respond

variable {op : StreamOp} {env : Env Address} {now id : UInt64} {this : Address}
  {stream : Stream Address}

theorem StreamOp.respond_unauthorized (hauth : ¬ env.authorized (op.party stream) = true) :
    op.respond env now id this (some stream) = (.failed now .unauthorized, some stream) :=
  if_neg hauth

theorem StreamOp.respond_error (hauth : env.authorized (op.party stream) = true)
    {failure : Failure} (hsettle : op.settle now id stream = .error failure) :
    op.respond env now id this (some stream) = (.failed now failure, some stream) := by
  unfold StreamOp.respond
  simp only [if_pos hauth, hsettle, Receipt.failed]

theorem StreamOp.respond_ok (hauth : env.authorized (op.party stream) = true)
    {z : Settled Address} (hsettle : op.settle now id stream = .ok z) :
    op.respond env now id this (some stream) =
      (⟨now, .ok (.amount z.amount), [⟨stream.token, this, op.party stream, z.amount⟩], [z.event]⟩,
        some z.stream) := by
  unfold StreamOp.respond
  simp only [if_pos hauth, hsettle]

end Respond

/-- A settling call, and the ledger close it is made in. -/
structure Entry (Address : Type) where
  timestamp : UInt64
  sequence : ℕ
  env : Env Address
  id : UInt64
  op : StreamOp

def World.tick (w : World Address) (timestamp : UInt64) (sequence : ℕ) : World Address :=
  { w with timestamp, sequence }

theorem World.Sound.tick {w : World Address} (h : w.Sound) {timestamp : UInt64} (sequence : ℕ)
    (hle : w.timestamp ≤ timestamp) : (w.tick timestamp sequence).Sound where
  records := fun id stream hstream =>
    (h.records id stream hstream).advance (UInt64.le_iff_toNat_le.mp hle)
  sender_ne := h.sender_ne
  recipient_ne := h.recipient_ne
  token_ne := h.token_ne
  ids := h.ids

/-! ### Payments -/

variable [DecidableEq Address]

/-- The balances after some transfers, each moving exactly its amount. -/
def post (balance : Address → Address → ℤ) (transfers : List (Transfer Address)) :
    Address → Address → ℤ :=
  transfers.foldl (fun b t => Function.update b t.token
    (Pool.move (b t.token) t.source t.target t.amount.toInt)) balance

theorem post_append (balance : Address → Address → ℤ) (ts us : List (Transfer Address)) :
    post balance (ts ++ us) = post (post balance ts) us :=
  List.foldl_append

theorem post_comm (balance : Address → Address → ℤ) (t u : Transfer Address) :
    post balance [t, u] = post balance [u, t] := by
  simp only [post, List.foldl_cons, List.foldl_nil]
  by_cases h : t.token = u.token
  · rw [h, Function.update_self, Function.update_self, Function.update_idem, Function.update_idem,
      Pool.move_comm]
  · rw [Function.update_of_ne h, Function.update_of_ne (Ne.symm h), Function.update_comm h]

/-- The order of transfers does not matter for where the balances end up. -/
theorem post_perm {ts us : List (Transfer Address)} (h : ts.Perm us)
    (balance : Address → Address → ℤ) : post balance ts = post balance us := by
  induction h generalizing balance with
  | nil => rfl
  | cons t _ ih => exact ih _
  | swap t u ts =>
    have hswap := post_comm balance u t
    exact congrArg (fun b => post b ts) hswap
  | trans _ _ ih₁ ih₂ => exact (ih₁ balance).trans (ih₂ balance)

theorem World.Sound.amount_le_balance {w : World Address} (hw : w.Sound) {id : UInt64}
    {stream : Stream Address} (hstream : w.streams id = some stream)
    (hsurplus : 0 ≤ w.surplus stream.token) {op : StreamOp} {z : Settled Address}
    (ho : op.Outcome w.timestamp id stream z) :
    z.amount.toInt ≤ w.balance stream.token w.contractAddress := by
  have hformed := hw.records id stream hstream
  have hcovers := hw.escrow_covers hstream
  have hescrow := ho.escrow_eq hformed
  have hafter := ho.wellFormed hformed
  have hle := hafter.withdrawn_le.trans (hafter.vested_le_total w.timestamp)
  unfold World.surplus at hsurplus
  omega

/-- With a conforming token and no deficit, what a settling call pays is paid. -/
theorem World.Sound.payment_made {w : World Address} (hw : w.Sound) {id : UInt64}
    {stream : Stream Address} (hstream : w.streams id = some stream)
    (hsurplus : 0 ≤ w.surplus stream.token) {env : Env Address}
    (hconforming : (env.token stream.token).Conforming) {op : StreamOp} {z : Settled Address}
    (ho : op.Outcome w.timestamp id stream z) :
    env.token stream.token (w.balance stream.token) w.contractAddress (op.party stream) z.amount =
      some (Pool.move (w.balance stream.token) w.contractAddress (op.party stream)
        z.amount.toInt) := by
  have hpos := ho.amount_pos (hw.records id stream hstream)
  have hcovered := hw.amount_le_balance hstream hsurplus ho
  have hfunded := hconforming.funded (w.balance stream.token) w.contractAddress
    (op.party stream) z.amount hpos.le hcovered
  exact (hconforming.exact _ _ _ _).resolve_left hfunded

/-- With a conforming token and no deficit, a settling call does to the ledger
what it does to its record alone, and posts what it transfers. -/
theorem World.Sound.invoke_respond {w : World Address} (hw : w.Sound) {env : Env Address}
    (op : StreamOp) {id : UInt64}
    (hready : ∀ stream, w.streams id = some stream →
      0 ≤ w.surplus stream.token ∧ (env.token stream.token).Conforming) :
    (w.invoke env (op.call id)).1 =
        (op.respond env w.timestamp id w.contractAddress (w.streams id)).1 ∧
      (w.invoke env (op.call id)).2.streams = Function.update w.streams id
        (op.respond env w.timestamp id w.contractAddress (w.streams id)).2 ∧
      (w.invoke env (op.call id)).2.balance = post w.balance
        (op.respond env w.timestamp id w.contractAddress (w.streams id)).1.transfers := by
  have hkeep : ∀ record, w.streams id = record →
      w.streams = Function.update w.streams id record := by
    rintro record rfl
    rw [Function.update_eq_self]
  rw [w.invoke_op]
  unfold StreamOp.respond
  cases hstream : w.streams id with
  | none => exact ⟨rfl, hkeep none hstream, rfl⟩
  | some stream =>
    obtain ⟨hsurplus, hconforming⟩ := hready stream hstream
    by_cases hauth : env.authorized (op.party stream) = true
    · simp only [if_pos hauth]
      cases hsettle : op.settle w.timestamp id stream with
      | error e => exact ⟨rfl, hkeep _ hstream, rfl⟩
      | ok z =>
        have hformed := hw.records id stream hstream
        have houtcome := op.settle_outcome hformed hsettle
        have hpos : 0 < z.amount := houtcome.amount_pos hformed
        have hbook := hw.payment_made hstream hsurplus hconforming houtcome
        simp only [Settled.paid, if_pos hpos, hbook]
        exact ⟨trivial, rfl, rfl⟩
    · simp only [if_neg hauth]
      exact ⟨rfl, hkeep _ hstream, rfl⟩

/-- Every call keeps the surplus of a token that moves exactly what it is asked to. -/
theorem World.Sound.invoke_surplus {w w' : World Address} (hw : w.Sound) {env : Env Address}
    {call : Call Address} {receipt : Receipt Address} (hinvoke : w.invoke env call = (receipt, w'))
    {token : Address} (hexact : (env.token token).Exact) : w'.surplus token = w.surplus token := by
  have hchange := (Step.call hinvoke).change hw
  have hlabel : (Label.call env call receipt).ExactFor token w.contractAddress := hexact
  rw [hchange.surplus_eq hw hlabel]
  exact add_zero _

/-! ### Schedules of calls -/

def World.execute (w : World Address) (e : Entry Address) : Receipt Address × World Address :=
  (w.tick e.timestamp e.sequence).invoke e.env (e.op.call e.id)

/-- The calls can be made one after the other from this ledger: the clock does not
go back, the tokens conform, and no token is in deficit. -/
structure Schedulable (entries : List (Entry Address)) (w : World Address) : Prop where
  sound : w.Sound
  surplus_nonneg : ∀ token, 0 ≤ w.surplus token
  later : ∀ e ∈ entries, w.timestamp ≤ e.timestamp
  sorted : entries.Pairwise fun e f => e.timestamp ≤ f.timestamp
  conforming : ∀ e ∈ entries, ∀ token, (e.env.token token).Conforming

namespace Schedulable

variable {entries : List (Entry Address)} {e : Entry Address} {w : World Address}

theorem filter (h : Schedulable entries w) (p : Entry Address → Bool) :
    Schedulable (entries.filter p) w where
  sound := h.sound
  surplus_nonneg := h.surplus_nonneg
  later := fun f hf => h.later f (List.mem_of_mem_filter hf)
  sorted := h.sorted.filter p
  conforming := fun f hf => h.conforming f (List.mem_of_mem_filter hf)

theorem head_sound (h : Schedulable (e :: entries) w) : (w.tick e.timestamp e.sequence).Sound :=
  h.sound.tick e.sequence (h.later e List.mem_cons_self)

/-- The first call is answered by its record alone. -/
theorem respond (h : Schedulable (e :: entries) w) :
    (w.execute e).1 =
        (e.op.respond e.env e.timestamp e.id w.contractAddress (w.streams e.id)).1 ∧
      (w.execute e).2.streams = Function.update w.streams e.id
        (e.op.respond e.env e.timestamp e.id w.contractAddress (w.streams e.id)).2 ∧
      (w.execute e).2.balance = post w.balance
        (e.op.respond e.env e.timestamp e.id w.contractAddress (w.streams e.id)).1.transfers :=
  h.head_sound.invoke_respond e.op fun stream _ =>
    ⟨h.surplus_nonneg stream.token, h.conforming e List.mem_cons_self stream.token⟩

theorem contractAddress_eq (h : Schedulable (e :: entries) w) :
    (w.execute e).2.contractAddress = w.contractAddress := by
  have hinvoke : (w.tick e.timestamp e.sequence).invoke e.env (e.op.call e.id) =
      ((w.execute e).1, (w.execute e).2) := rfl
  exact ((Step.call hinvoke).change h.head_sound).contractAddress_eq

theorem tail (h : Schedulable (e :: entries) w) : Schedulable entries (w.execute e).2 := by
  have hinvoke := (Prod.eta (w.execute e)).symm
  have htime : (w.execute e).2.timestamp = e.timestamp := World.invoke_timestamp hinvoke
  obtain ⟨hfirst, hrest⟩ := List.pairwise_cons.mp h.sorted
  constructor
  · exact (Step.call hinvoke).sound h.head_sound
  · intro token
    have hkeep := h.head_sound.invoke_surplus hinvoke
      (h.conforming e List.mem_cons_self token).exact
    rw [hkeep]
    exact h.surplus_nonneg token
  · intro f hf
    rw [htime]
    exact hfirst f hf
  · exact hrest
  · intro f hf
    exact h.conforming f (List.mem_cons_of_mem e hf)

/-- What a schedule shows of one stream: the calls on it, answered by its record
alone, and the record they leave. -/
theorem project (h : Schedulable entries w) (id : UInt64) :
    (replay World.execute w entries).1.filter (fun x => decide (x.1.id = id)) =
        (replay (fun record e => e.op.respond e.env e.timestamp id w.contractAddress record)
          (w.streams id) (entries.filter fun e => decide (e.id = id))).1 ∧
      (replay World.execute w entries).2.streams id =
        (replay (fun record e => e.op.respond e.env e.timestamp id w.contractAddress record)
          (w.streams id) (entries.filter fun e => decide (e.id = id))).2 := by
  refine replay_project _ (fun w => w.streams id) (fun e => decide (e.id = id))
    (fun entries m => Schedulable entries m ∧ m.contractAddress = w.contractAddress)
    ?_ ?_ ?_ ⟨h, rfl⟩
  · rintro e rest m ⟨hm, hcontract⟩
    exact ⟨hm.tail, hm.contractAddress_eq.trans hcontract⟩
  · rintro e rest m ⟨hm, hcontract⟩ hp
    have hid : e.id = id := of_decide_eq_true hp
    obtain ⟨hreceipt, hstreams, _⟩ := hm.respond
    rw [hid, hcontract] at hreceipt hstreams
    refine ⟨hreceipt, ?_⟩
    rw [hstreams, Function.update_self]
  · rintro e rest m ⟨hm, _⟩ hp
    have hid : e.id ≠ id := of_decide_eq_false hp
    obtain ⟨_, hstreams, _⟩ := hm.respond
    rw [hstreams, Function.update_of_ne (Ne.symm hid)]

/-- Two calls on different streams, made at the same time, may be made in either order. -/
theorem swap {f : Entry Address} (h : Schedulable [e, f] w) (h' : Schedulable [f, e] w)
    (hid : e.id ≠ f.id) :
    ((w.execute f).2.execute e).1 = (w.execute e).1 ∧
      ((w.execute e).2.execute f).1 = (w.execute f).1 ∧
      ((w.execute e).2.execute f).2.streams = ((w.execute f).2.execute e).2.streams ∧
      ((w.execute e).2.execute f).2.balance = ((w.execute f).2.execute e).2.balance := by
  obtain ⟨hreceipt₁, hstreams₁, hbalance₁⟩ := h.respond
  obtain ⟨hreceipt₂, hstreams₂, hbalance₂⟩ := h'.respond
  obtain ⟨hreceipt₃, hstreams₃, hbalance₃⟩ := h.tail.respond
  obtain ⟨hreceipt₄, hstreams₄, hbalance₄⟩ := h'.tail.respond
  rw [hstreams₁, Function.update_of_ne (Ne.symm hid), h.contractAddress_eq]
    at hreceipt₃ hstreams₃ hbalance₃
  rw [hstreams₂, Function.update_of_ne hid, h'.contractAddress_eq]
    at hreceipt₄ hstreams₄ hbalance₄
  refine ⟨hreceipt₄.trans hreceipt₁.symm, hreceipt₃.trans hreceipt₂.symm, ?_, ?_⟩
  · rw [hstreams₃, hstreams₄]
    exact Function.update_comm hid _ _ _
  · rw [hbalance₃, hbalance₄, hbalance₁, hbalance₂, ← post_append, ← post_append]
    exact post_perm List.perm_append_comm w.balance

end Schedulable

/-- Noninterference between streams: from every reachable ledger, making a whole
schedule of settling calls, or only those on one stream, gives the calls on that
stream the same receipts (results, errors, payments and events alike) and leaves
the same record; and two calls on different streams commute. -/
theorem streams_isolated {w : World Address} (h : ∀ token, ReachableWith token w)
    {entries : List (Entry Address)} (hlater : ∀ e ∈ entries, w.timestamp ≤ e.timestamp)
    (hsorted : entries.Pairwise fun e f => e.timestamp ≤ f.timestamp)
    (hconforming : ∀ e ∈ entries, ∀ token, (e.env.token token).Conforming) :
    (∀ id, (replay World.execute w entries).1.filter (fun x => decide (x.1.id = id)) =
        (replay World.execute w (entries.filter fun e => decide (e.id = id))).1 ∧
      (replay World.execute w entries).2.streams id =
        (replay World.execute w (entries.filter fun e => decide (e.id = id))).2.streams id) ∧
    ∀ e ∈ entries, ∀ f ∈ entries, e.id ≠ f.id → e.timestamp = f.timestamp →
      ((w.execute f).2.execute e).1 = (w.execute e).1 ∧
      ((w.execute e).2.execute f).1 = (w.execute f).1 ∧
      ((w.execute e).2.execute f).2.streams = ((w.execute f).2.execute e).2.streams ∧
      ((w.execute e).2.execute f).2.balance = ((w.execute f).2.execute e).2.balance := by
  have hschedule : Schedulable entries w :=
    ⟨(h w.contractAddress).reachable.sound, fun token => (h token).surplus_nonneg, hlater, hsorted,
      hconforming⟩
  constructor
  · intro id
    obtain ⟨hwhole, hrecord⟩ := hschedule.project id
    obtain ⟨halone, hrecord'⟩ := (hschedule.filter fun e => decide (e.id = id)).project id
    rw [List.filter_filter] at halone hrecord'
    simp only [Bool.and_self] at halone hrecord'
    have hall : ∀ x ∈ (replay World.execute w (entries.filter fun e => decide (e.id = id))).1,
        decide (x.1.id = id) = true := by
      intro x hx
      exact (List.mem_filter.mp (mem_replay World.execute hx)).2
    rw [List.filter_eq_self.mpr hall] at halone
    exact ⟨hwhole.trans halone.symm, hrecord.trans hrecord'.symm⟩
  · intro e he f hf hid htime
    have hpair : ∀ a ∈ entries, ∀ b ∈ entries, a.timestamp = b.timestamp →
        Schedulable [a, b] w := by
      intro a ha b hb hab
      have hmem : ∀ x ∈ [a, b], x ∈ entries := by simp [ha, hb]
      refine ⟨hschedule.sound, hschedule.surplus_nonneg, fun x hx => hlater x (hmem x hx), ?_,
        fun x hx => hconforming x (hmem x hx)⟩
      simp [hab]
    exact (hpair e he f hf htime).swap (hpair f hf e he htime.symm) hid

namespace Sample

/-- A second stream with the same parties and the same token. -/
def twin : World ℕ := (opened.invoke env opening.call).2

theorem twin_run :
    Run Step opened [.call env opening.call (opened.invoke env opening.call).1] twin :=
  .single (.call rfl)

theorem twin_reachableWith (token : ℕ) : ReachableWith token twin := by
  refine ⟨genesis, _, genesis_fresh, opened_run.append twin_run, ?_⟩
  simp [Label.ExactFor, env, ledgerToken_exact]

def schedule : List (Entry ℕ) :=
  [⟨4, 1, env, 0, .cancel⟩, ⟨4, 1, env, 1, .withdraw⟩, ⟨5, 2, env, 0, .withdraw⟩]

theorem schedule_conforming : ∀ e ∈ schedule, ∀ token, (e.env.token token).Conforming := by
  intro e he token
  simp only [schedule, List.mem_cons, List.not_mem_nil, or_false] at he
  rcases he with rfl | rfl | rfl <;> exact ledgerToken_conforming

end Sample

theorem streams_isolated_twin :
    (replay World.execute Sample.twin Sample.schedule).2.streams 0 =
      (replay World.execute Sample.twin
        (Sample.schedule.filter fun e => decide (e.id = 0))).2.streams 0 := by
  have hlater : ∀ e ∈ Sample.schedule, Sample.twin.timestamp ≤ e.timestamp := by decide
  have hsorted : Sample.schedule.Pairwise fun e f => e.timestamp ≤ f.timestamp := by decide
  exact ((streams_isolated Sample.twin_reachableWith hlater hsorted
    Sample.schedule_conforming).1 0).2

end TricklePay
