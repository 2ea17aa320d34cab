import TricklePay.Proofs.Invocation

/-!
# The invariant of the stored records

`World.Sound` holds of every reachable ledger. Its proof is the induction over
runs that every other result goes through: `Step.change` says what one step can
do to a sound ledger, and each later invariant is a case analysis on it.
-/

namespace TricklePay

open Checked Transition

variable {Address : Type}

/-- Every stored record is well formed at the ledger time, none of its roles is
the contract itself, and records exist exactly below the counter. -/
structure World.Sound (w : World Address) : Prop where
  records : ∀ id stream, w.streams id = some stream → stream.WellFormed w.timestamp
  sender_ne : ∀ id stream, w.streams id = some stream → stream.sender ≠ w.contractAddress
  recipient_ne : ∀ id stream, w.streams id = some stream → stream.recipient ≠ w.contractAddress
  token_ne : ∀ id stream, w.streams id = some stream → stream.token ≠ w.contractAddress
  ids : ∀ id, (w.streams id).isSome = true ↔ id.toNat < (w.streamCount.getD 0).toNat

theorem World.Sound.party_ne {w : World Address} (h : w.Sound) {id : UInt64}
    {stream : Stream Address} (hstream : w.streams id = some stream) (op : StreamOp) :
    op.party stream ≠ w.contractAddress := by
  cases op with
  | withdraw => exact h.recipient_ne id stream hstream
  | withdrawAmount amount => exact h.recipient_ne id stream hstream
  | cancel => exact h.sender_ne id stream hstream

theorem World.Sound.next_id_free {w : World Address} (h : w.Sound) :
    w.streams (w.streamCount.getD 0) = none := by
  have hids := h.ids (w.streamCount.getD 0)
  simpa using hids

/-! ### Establishing the invariant -/

theorem Opening.stream_wellFormed {o : Opening Address} {this : Address} {now : UInt64}
    (h : o.Valid this now) : o.stream.WellFormed now where
  withdrawn_nonneg := le_rfl
  withdrawn_le := gatedFloor_nonneg h.total_pos.le _ _ _ _
  total_le := h.total_le
  start_le_cliff := h.start_le_cliff
  cliff_le_end := h.cliff_le_end
  live := fun _ => ⟨h.start_lt_end, h.total_pos⟩
  closed := fun hc => by cases hc

theorem Fresh.sound {w : World Address} (h : Fresh w) : w.Sound := by
  constructor <;> simp [h.streams, h.streamCount]

/-- What holds of every stored record still does once a record it holds of is stored. -/
theorem forall_stored_update {streams : UInt64 → Option (Stream Address)}
    {P : Stream Address → Prop} (h : ∀ i s, streams i = some s → P s) (id : UInt64)
    {stream : Stream Address} (hstream : P stream) :
    ∀ i s, Function.update streams id (some stream) i = some s → P s := by
  intro i s hs
  by_cases hid : i = id
  · subst hid
    rw [Function.update_self] at hs
    cases hs
    exact hstream
  · rw [Function.update_of_ne hid] at hs
    exact h i s hs

/-- Storing a record keeps the per-record parts of the invariant, whatever else
the step does to balances, lives and the counter. -/
theorem World.Sound.update_records {w w' : World Address} (h : w.Sound) (id : UInt64)
    (stream : Stream Address) (hcontract : w'.contractAddress = w.contractAddress)
    (htime : w'.timestamp = w.timestamp)
    (hstreams : w'.streams = Function.update w.streams id (some stream))
    (hformed : stream.WellFormed w.timestamp) (hsender : stream.sender ≠ w.contractAddress)
    (hrecipient : stream.recipient ≠ w.contractAddress) (htoken : stream.token ≠ w.contractAddress)
    (hids : ∀ id, (w'.streams id).isSome = true ↔ id.toNat < (w'.streamCount.getD 0).toNat) :
    w'.Sound := by
  refine ⟨?_, ?_, ?_, ?_, hids⟩
  · rw [hstreams, htime]
    exact forall_stored_update h.records id hformed
  · rw [hstreams, hcontract]
    exact forall_stored_update h.sender_ne id hsender
  · rw [hstreams, hcontract]
    exact forall_stored_update h.recipient_ne id hrecipient
  · rw [hstreams, hcontract]
    exact forall_stored_update h.token_ne id htoken

/-! ### What a step does -/

variable [DecidableEq Address]

theorem TokenTransfer.Exact.eq_move {transfer : TokenTransfer Address} (h : transfer.Exact)
    {book book' : Address → ℤ} {source target : Address} {amount : I128}
    (hbook : transfer book source target amount = some book') :
    book' = Pool.move book source target amount.toInt := by
  rcases h book source target amount with hnone | hsome
  · rw [hnone] at hbook
    cases hbook
  · rw [hsome] at hbook
    exact (Option.some_inj.mp hbook).symm

/-- A settling call that succeeds: who authorized it, what it paid, what it left. -/
structure World.Settles (w : World Address) (env : Env Address) (op : StreamOp) (id : UInt64)
    (stream : Stream Address) (z : Settled Address) (book : Address → ℤ)
    (receipt : Receipt Address) (w' : World Address) : Prop where
  stored : w.streams id = some stream
  authorized : env.authorized (op.party stream) = true
  outcome : op.Outcome w.timestamp id stream z
  paid : env.token stream.token (w.balance stream.token) w.contractAddress (op.party stream)
    z.amount = some book
  receipt_eq : receipt = ⟨w.timestamp, .ok (.amount z.amount),
    [⟨stream.token, w.contractAddress, op.party stream, z.amount⟩], [z.event]⟩
  world_eq : w' = ((w.refreshed env id).stored env id z.stream).setBook stream.token book

theorem World.Sound.op_cases {w w' : World Address} (hw : w.Sound) {op : StreamOp} {id : UInt64}
    {env : Env Address} {receipt : Receipt Address}
    (hinvoke : w.invoke env (op.call id) = (receipt, w')) :
    (∃ failure, (receipt, w') = w.rejected failure) ∨
      ∃ stream z book, w.Settles env op id stream z book receipt w' := by
  rw [w.invoke_op] at hinvoke
  cases hstream : w.streams id with
  | none =>
    rw [hstream] at hinvoke
    exact Or.inl ⟨_, hinvoke.symm⟩
  | some stream =>
    rw [hstream] at hinvoke
    by_cases hauth : env.authorized (op.party stream) = true
    · simp only [if_pos hauth] at hinvoke
      cases hsettle : op.settle w.timestamp id stream with
      | error failure =>
        rw [hsettle] at hinvoke
        exact Or.inl ⟨failure, hinvoke.symm⟩
      | ok z =>
        have hformed := hw.records id stream hstream
        have houtcome := op.settle_outcome hformed hsettle
        have hpos : 0 < z.amount := houtcome.amount_pos hformed
        rw [hsettle] at hinvoke
        simp only [Settled.paid, if_pos hpos] at hinvoke
        cases hbook : env.token stream.token (w.balance stream.token) w.contractAddress
            (op.party stream) z.amount with
        | none =>
          rw [hbook] at hinvoke
          exact Or.inl ⟨_, hinvoke.symm⟩
        | some book =>
          rw [hbook] at hinvoke
          cases hinvoke
          exact Or.inr ⟨stream, z, book, hstream, hauth, houtcome, hbook, rfl, rfl⟩
    · simp only [if_neg hauth] at hinvoke
      exact Or.inl ⟨_, hinvoke.symm⟩

theorem World.Sound.op_ok {w w' : World Address} (hw : w.Sound) {op : StreamOp} {id : UInt64}
    {env : Env Address} {receipt : Receipt Address}
    (hinvoke : w.invoke env (op.call id) = (receipt, w')) {response : Response Address}
    (hresult : receipt.result = .ok response) :
    ∃ stream z book, w.Settles env op id stream z book receipt w' := by
  rcases hw.op_cases hinvoke with ⟨failure, hrejected⟩ | hsettles
  · cases hrejected
    cases hresult
  · exact hsettles

/-- What a step does to a sound ledger: nothing to the store, a creation, or the
settlement of part of one stream. -/
inductive Change (w : World Address) (l : Label Address) (w' : World Address) : Prop
  | idle (hrefused : l.Refused) (hevents : l.events = []) (htransfers : l.transfers = [])
      (hcontract : w'.contractAddress = w.contractAddress)
      (htime : w.timestamp.toNat ≤ w'.timestamp.toNat) (hstreams : w'.streams = w.streams)
      (hcount : w'.streamCount = w.streamCount)
      (hbalance : ∀ token, l.ExactFor token w.contractAddress →
        w'.balance token w.contractAddress =
          w.balance token w.contractAddress + l.transferredIn token)
  | opened (env : Env Address) (o : Opening Address) (next : UInt64) (book : Address → ℤ)
      (hlabel : l = .call env o.call ⟨w.timestamp, .ok (.id (w.streamCount.getD 0)),
        [⟨o.token, o.sender, w.contractAddress, o.totalAmount⟩],
        [.created (o.created (w.streamCount.getD 0))]⟩)
      (hvalid : o.Valid w.contractAddress w.timestamp)
      (hnext : next.toNat = (w.streamCount.getD 0).toNat + 1)
      (hbook : env.token o.token (w.balance o.token) o.sender w.contractAddress o.totalAmount =
        some book)
      (hworld : w' = w.opened env o book (w.streamCount.getD 0) next)
  | settled (env : Env Address) (op : StreamOp) (id : UInt64) (stream : Stream Address)
      (z : Settled Address) (book : Address → ℤ)
      (hlabel : l = .call env (op.call id) ⟨w.timestamp, .ok (.amount z.amount),
        [⟨stream.token, w.contractAddress, op.party stream, z.amount⟩], [z.event]⟩)
      (hstream : w.streams id = some stream) (houtcome : op.Outcome w.timestamp id stream z)
      (hbook : env.token stream.token (w.balance stream.token) w.contractAddress
        (op.party stream) z.amount = some book)
      (hworld : w' = ((w.refreshed env id).stored env id z.stream).setBook stream.token book)

theorem Step.change {w w' : World Address} {l : Label Address} (hw : w.Sound) (h : Step w l w') :
    Change w l w' := by
  cases h with
  | clock htime _ =>
    exact .idle trivial rfl rfl rfl (UInt64.le_iff_toNat_le.mp htime) rfl rfl
      (by simp [Label.transferredIn])
  | refused _ => exact .idle trivial rfl rfl rfl le_rfl rfl rfl (by simp [Label.transferredIn])
  | @credited env token source amount book hsource _ hbook =>
    refine .idle trivial rfl rfl rfl le_rfl rfl rfl ?_
    intro t hexact
    by_cases ht : token = t
    · subst ht
      have hmove := (hexact rfl).eq_move hbook
      simp [Label.transferredIn, hmove, Pool.move_target _ hsource.symm]
    · simp [Label.transferredIn, ht, Function.update_of_ne (Ne.symm ht)]
  | @bookkeeping token act =>
    refine .idle trivial rfl rfl rfl le_rfl rfl rfl ?_
    intro t hexact
    by_cases ht : token = t
    · subst ht
      simp [Label.transferredIn, hexact rfl (w.balance token)]
    · simp [Label.transferredIn, Function.update_of_ne (Ne.symm ht)]
  | @call _ env call receipt hinvoke =>
    cases w.invoke_effect hinvoke with
    | rejected failure hreceipt hworld =>
      subst hreceipt hworld
      exact .idle (fun _ => ⟨failure, rfl⟩) rfl rfl rfl le_rfl rfl rfl
        (by simp [Label.transferredIn])
    | viewed response liveUntil hview hreceipt hworld =>
      subst hreceipt hworld
      refine .idle ?_ rfl rfl rfl le_rfl rfl rfl (by simp [Label.transferredIn])
      intro hmutating
      rw [hview] at hmutating
      cases hmutating
    | opened o next book hcall _ hvalid hnext hbook hreceipt hworld =>
      subst hcall hreceipt hworld
      exact .opened env o next book rfl hvalid (U64.checkedAdd_eq_some_iff.mp hnext) hbook rfl
    | settled op id _ _ hcall _ _ _ _ =>
      subst hcall
      rcases hw.op_cases hinvoke with ⟨failure, hrejected⟩ | ⟨stream, z, book, hsettles⟩
      · cases hrejected
        exact .idle (fun _ => ⟨_, rfl⟩) rfl rfl rfl le_rfl rfl rfl (by simp [Label.transferredIn])
      · obtain ⟨hstream, _, houtcome, hbook, hreceipt, hworld⟩ := hsettles
        subst hreceipt
        exact .settled env op id stream z book rfl hstream houtcome hbook hworld

/-! ### Preservation -/

theorem Change.sound {w w' : World Address} {l : Label Address} (hw : w.Sound)
    (h : Change w l w') : w'.Sound := by
  cases h with
  | idle _ _ _ hcontract htime hstreams hcount _ =>
    constructor
    · intro id stream hstream
      rw [hstreams] at hstream
      exact (hw.records id stream hstream).advance htime
    · rw [hstreams, hcontract]
      exact hw.sender_ne
    · rw [hstreams, hcontract]
      exact hw.recipient_ne
    · rw [hstreams, hcontract]
      exact hw.token_ne
    · rw [hstreams, hcount]
      exact hw.ids
  | opened env o next book hlabel hvalid hnext hbook hworld =>
    subst hworld
    refine hw.update_records (w.streamCount.getD 0) o.stream rfl rfl rfl
      (o.stream_wellFormed hvalid) hvalid.sender_ne hvalid.recipient_ne hvalid.token_ne ?_
    intro id
    change (Function.update w.streams _ (some o.stream) id).isSome = true ↔ id.toNat < next.toNat
    by_cases hid : id = w.streamCount.getD 0
    · subst hid
      rw [Function.update_self]
      simp [hnext]
    · have hne : id.toNat ≠ (w.streamCount.getD 0).toNat := fun he => hid (UInt64.toNat_inj.mp he)
      rw [Function.update_of_ne hid, hw.ids]
      omega
  | settled env op id stream z book hlabel hstream houtcome hbook hworld =>
    subst hworld
    obtain ⟨hsender, hrecipient, htoken⟩ := houtcome.parties_eq
    refine hw.update_records id z.stream rfl rfl rfl
      (houtcome.wellFormed (hw.records id stream hstream))
      (hsender ▸ hw.sender_ne id stream hstream) (hrecipient ▸ hw.recipient_ne id stream hstream)
      (htoken ▸ hw.token_ne id stream hstream) ?_
    intro i
    change (Function.update w.streams id (some z.stream) i).isSome = true ↔ _
    by_cases hid : i = id
    · subst hid
      have hi := hw.ids i
      rw [hstream] at hi
      rw [Function.update_self]
      simpa using hi
    · rw [Function.update_of_ne hid]
      exact hw.ids i

theorem Step.sound {w w' : World Address} {l : Label Address} (hw : w.Sound) (h : Step w l w') :
    w'.Sound :=
  (h.change hw).sound hw

theorem World.Sound.run {w w' : World Address} {ls : List (Label Address)} (hw : w.Sound)
    (h : Run Step w ls w') : w'.Sound :=
  h.invariant (fun _ m => m.Sound) hw fun _ _ _ _ _ hm hstep => hstep.sound hm

theorem Change.contractAddress_eq {w w' : World Address} {l : Label Address}
    (h : Change w l w') : w'.contractAddress = w.contractAddress := by
  cases h with
  | idle _ _ _ hcontract _ _ _ _ => exact hcontract
  | opened env o next book _ _ _ _ hworld => exact hworld ▸ rfl
  | settled env op id stream z book _ _ _ _ hworld => exact hworld ▸ rfl

theorem World.Sound.run_contractAddress {w w' : World Address} {ls : List (Label Address)}
    (hw : w.Sound) (h : Run Step w ls w') : w'.contractAddress = w.contractAddress := by
  induction h with
  | nil => rfl
  | snoc hrun hstep ih => exact (hstep.change (hw.run hrun)).contractAddress_eq.trans ih

theorem Reachable.sound {w : World Address} (h : Reachable w) : w.Sound := by
  obtain ⟨w₀, ls, hfresh, hrun⟩ := h
  exact hfresh.sound.run hrun

theorem Reachable.run {w w' : World Address} {ls : List (Label Address)} (h : Reachable w)
    (hrun : Run Step w ls w') : Reachable w' := by
  obtain ⟨w₀, ls₀, hfresh, hrun₀⟩ := h
  exact ⟨w₀, ls₀ ++ ls, hfresh, hrun₀.append hrun⟩

/-! ### A concrete deployment

One contract at address `0`, one funded sender `1`, one recipient `2`, one token
`9` that moves exactly what its books cover. -/

namespace Sample

def ledgerToken : TokenTransfer ℕ := fun book source target amount =>
  if 0 ≤ amount.toInt ∧ amount.toInt ≤ book source then
    some (Pool.move book source target amount.toInt)
  else none

theorem ledgerToken_exact : ledgerToken.Exact := by
  intro book source target amount
  unfold ledgerToken
  split_ifs with h
  · exact Or.inr rfl
  · exact Or.inl rfl

theorem ledgerToken_conforming : ledgerToken.Conforming where
  exact := ledgerToken_exact
  funded := by
    intro book source target amount h₀ hle
    unfold ledgerToken
    rw [if_pos ⟨h₀, hle⟩]
    exact Option.some_ne_none _

def env : Env ℕ where
  authorized := fun _ => true
  token := fun _ => ledgerToken
  minLife := 4096
  extendsAtThreshold := true

def genesis : World ℕ where
  contractAddress := 0
  timestamp := 0
  sequence := 0
  streamCount := none
  streams := fun _ => none
  liveUntil := fun _ => 4096
  balance := fun _ holder => if holder = 1 then 1000 else 0

def units (n : ℕ) (h : Fits 128 n := by decide) : I128 := ⟨n, h⟩

/-- One hundred units over ten seconds, no cliff. -/
def opening : Opening ℕ where
  sender := 1
  recipient := 2
  token := 9
  totalAmount := units 100
  startTime := 0
  endTime := 10
  cliffTime := 0

def opened : World ℕ := (genesis.invoke env opening.call).2

/-- The same ledger four seconds later. -/
def later : World ℕ := { opened with timestamp := 4, sequence := 1 }

theorem genesis_fresh : Fresh genesis := ⟨rfl, rfl, fun _ => rfl⟩

theorem genesis_reachable : Reachable genesis := ⟨genesis, [], genesis_fresh, .nil⟩

theorem opened_run :
    Run Step genesis [.call env opening.call (genesis.invoke env opening.call).1] opened :=
  .single (.call rfl)

theorem opened_reachable : Reachable opened := ⟨genesis, _, genesis_fresh, opened_run⟩

theorem opened_stream : opened.streams 0 = some opening.stream := rfl

theorem later_run : Run Step opened [.clock 4 1] later :=
  .single (.clock (by decide) (by decide))

theorem later_reachable : Reachable later := opened_reachable.run later_run

theorem later_stream : later.streams 0 = some opening.stream := rfl

/-- The recipient withdraws on the later ledger. -/
def drained : World ℕ := (later.invoke env (.withdraw 0)).2

def drainedLabels : List (Label ℕ) :=
  [.call env opening.call (genesis.invoke env opening.call).1, .clock 4 1,
    .call env (.withdraw 0) (later.invoke env (.withdraw 0)).1]

theorem drain_run :
    Run Step opened [.clock 4 1, .call env (.withdraw 0) (later.invoke env (.withdraw 0)).1]
      drained :=
  later_run.snoc (.call rfl)

theorem drained_run : Run Step genesis drainedLabels drained := opened_run.append drain_run

theorem drained_reachable : Reachable drained := ⟨genesis, _, genesis_fresh, drained_run⟩

theorem drained_stream : drained.streams 0 = some (opening.stream.pay (units 40)) := rfl

/-- The sender cancels after that withdrawal. -/
def cancelled : World ℕ := (drained.invoke env (.cancel 0)).2

theorem cancelled_run :
    Run Step drained [.call env (.cancel 0) (drained.invoke env (.cancel 0)).1] cancelled :=
  .single (.call rfl)

def cancelledLabels : List (Label ℕ) :=
  drainedLabels ++ [.call env (.cancel 0) (drained.invoke env (.cancel 0)).1]

theorem drainedLabels_exact (token : ℕ) : ∀ l ∈ drainedLabels, l.ExactFor token 0 := by
  simp [drainedLabels, Label.ExactFor, env, ledgerToken_exact]

theorem cancelledLabels_exact (token : ℕ) : ∀ l ∈ cancelledLabels, l.ExactFor token 0 := by
  simp [cancelledLabels, drainedLabels, Label.ExactFor, env, ledgerToken_exact]

theorem cancelled_reachable : Reachable cancelled := drained_reachable.run cancelled_run

/-- What the cancellation leaves of the sample stream: what has vested, all of it withdrawn. -/
def remnant : Stream ℕ :=
  (opening.stream.pay (opening.stream.available 4)).close (opening.stream.vestedUnits 4) 4

theorem cancelled_stream : cancelled.streams 0 = some remnant := rfl

/-- Only the recipient authorizes anything here. -/
def stranger : Env ℕ := { env with authorized := fun address => address = 2 }

/-- The opened ledger after the sender has paid seven more units into the contract. -/
def topped : World ℕ := opened.setBook 9 (Pool.move (opened.balance 9) 1 0 7)

def toppedLater : World ℕ := { topped with timestamp := 4, sequence := 1 }

/-- A cancel that is refused and a direct payment, before time passes; then a view. -/
def waitingLabels : List (Label ℕ) :=
  [.call stranger (.cancel 0) (opened.invoke stranger (.cancel 0)).1,
    .deposit env 9 1 (units 7) true, .clock 4 1,
    .call stranger (.streamExists 3) (toppedLater.invoke stranger (.streamExists 3)).1]

def busyLabels : List (Label ℕ) :=
  waitingLabels ++ [.call stranger (.withdraw 0) (toppedLater.invoke stranger (.withdraw 0)).1]

theorem topped_step : Step opened (.deposit env 9 1 (units 7) true) topped :=
  .credited (by decide) (by decide) rfl

theorem waiting_run : Run Step opened waitingLabels toppedLater := by
  have hrefused :
      Run Step opened [.call stranger (.cancel 0) (opened.invoke stranger (.cancel 0)).1] opened :=
    .single (.call rfl)
  have htopped : Run Step topped [.clock 4 1] toppedLater :=
    .single (.clock (by decide) (by decide))
  exact ((hrefused.snoc topped_step).append htopped).snoc (.call rfl)

theorem busy_run : Run Step opened busyLabels (toppedLater.invoke stranger (.withdraw 0)).2 :=
  waiting_run.snoc (.call rfl)

theorem busyLabels_exact (token : ℕ) : ∀ l ∈ busyLabels, l.ExactFor token 0 := by
  simp [busyLabels, waitingLabels, Label.ExactFor, env, stranger, ledgerToken_exact]

end Sample

/-- At every reachable ledger every stored record is well formed: what has been
withdrawn is vested, what has vested is within the total, the window is in
order; a live stream has a proper window and a positive total, a cancelled one
is over and fully vested. -/
theorem reachable_record_wellFormed {w : World Address} (h : Reachable w) {id : UInt64}
    {stream : Stream Address} (hstream : w.streams id = some stream) :
    ∃ vested, stream.vestedAmount w.timestamp = .ok vested ∧
      0 ≤ stream.withdrawn ∧ stream.withdrawn ≤ vested ∧ vested ≤ stream.totalAmount ∧
      stream.totalAmount ≤ maxAmount ∧
      stream.startTime ≤ stream.cliffTime ∧ stream.cliffTime ≤ stream.endTime ∧
      (stream.cancelled = false → stream.startTime < stream.endTime ∧ 0 < stream.totalAmount) ∧
      (stream.cancelled = true → stream.endTime ≤ w.timestamp ∧ vested = stream.totalAmount) := by
  have hformed := h.sound.records id stream hstream
  have hunits := hformed.toInt_vestedUnits w.timestamp
  refine ⟨stream.vestedUnits w.timestamp, hformed.vestedAmount_eq w.timestamp,
    hformed.withdrawn_nonneg, ?_, ?_, hformed.total_le,
    UInt64.le_iff_toNat_le.mpr hformed.start_le_cliff,
    UInt64.le_iff_toNat_le.mpr hformed.cliff_le_end, ?_, ?_⟩
  · rw [Signed.le_iff, hunits]
    exact hformed.withdrawn_le
  · rw [Signed.le_iff, hunits]
    exact hformed.vested_le_total w.timestamp
  · intro hc
    exact ⟨UInt64.lt_iff_toNat_lt.mpr (hformed.live hc).1, Signed.lt_iff.mpr (hformed.live hc).2⟩
  · intro hc
    refine ⟨UInt64.le_iff_toNat_le.mpr (hformed.closed hc), Signed.ext ?_⟩
    rw [hunits]
    exact hformed.vested_of_cancelled hc

theorem reachable_record_wellFormed_cancelled :
    ∃ vested, Sample.remnant.vestedAmount Sample.cancelled.timestamp = .ok vested ∧
      0 ≤ Sample.remnant.withdrawn ∧ Sample.remnant.withdrawn ≤ vested ∧
      vested ≤ Sample.remnant.totalAmount ∧ Sample.remnant.totalAmount ≤ maxAmount ∧
      Sample.remnant.startTime ≤ Sample.remnant.cliffTime ∧
      Sample.remnant.cliffTime ≤ Sample.remnant.endTime ∧
      Sample.remnant.endTime ≤ Sample.cancelled.timestamp ∧
      vested = Sample.remnant.totalAmount := by
  obtain ⟨vested, hok, h₀, hle, htotal, hmax, hcliff, hend, _, hover⟩ :=
    reachable_record_wellFormed Sample.cancelled_reachable Sample.cancelled_stream
  exact ⟨vested, hok, h₀, hle, htotal, hmax, hcliff, hend, hover rfl⟩

end TricklePay
