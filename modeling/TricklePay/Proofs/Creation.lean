import TricklePay.Proofs.Coherence
import TricklePay.Proofs.Lifetime

/-!
# Opening a stream

`createStream` answers with the first rule its arguments break, and is all or
nothing. The rules are listed here apart from the code, in their documented order.
-/

namespace TricklePay

open Checked Transition

variable {Address : Type}

variable [DecidableEq Address]

/-- The error of the first rule that is broken. -/
def firstBroken {ε : Type} (rules : List (Bool × ε)) : Option ε :=
  (rules.find? Prod.fst).map Prod.snd

theorem firstBroken_cons {ε : Type} (broken : Prop) [Decidable broken] (e : ε)
    (rules : List (Bool × ε)) :
    firstBroken ((decide broken, e) :: rules) = if broken then some e else firstBroken rules := by
  unfold firstBroken
  split_ifs with h <;> simp [h]

namespace Opening

/-- The rules of `createStream` in order: whether the arguments break the rule,
and the error that says so. -/
def rules (o : Opening Address) (this : Address) (now count : UInt64) :
    List (Bool × StreamError) :=
  [(decide (this ∈ [o.sender, o.recipient, o.token]), .invalidParticipant),
    (decide (o.totalAmount.toInt ≤ 0), .invalidAmount),
    (decide (2 ^ 63 - 1 < o.totalAmount.toInt), .amountTooLarge),
    (decide (o.endTime.toNat ≤ o.startTime.toNat), .invalidTimeRange),
    (decide (o.cliffTime.toNat < o.startTime.toNat ∨ o.endTime.toNat < o.cliffTime.toNat),
      .invalidCliff),
    (decide (o.endTime.toNat ≤ now.toNat), .streamWindowInPast),
    (decide (count.toNat = 2 ^ 64 - 1), .streamCountExhausted)]

/-- The first rule that the arguments break on a given ledger. -/
def rejection (o : Opening Address) (w : World Address) : Option StreamError :=
  firstBroken (o.rules w.contractAddress w.timestamp (w.streamCount.getD 0))

theorem checkedAdd_one_eq_none_iff (count : UInt64) :
    U64.checkedAdd count 1 = none ↔ count.toNat = 2 ^ 64 - 1 := by
  have hlt := count.toNat_lt
  have hone : (1 : UInt64).toNat = 1 := rfl
  unfold U64.checkedAdd
  rw [hone]
  split_ifs with h
  · simp only [false_iff]
    omega
  · simp only [true_iff]
    omega

/-- What the code checks, in its order, are the rules. -/
theorem rejection_eq (o : Opening Address) (w : World Address) :
    o.rejection w = match o.check w.contractAddress w.timestamp with
      | .error e => some e
      | .ok () =>
        if U64.checkedAdd (w.streamCount.getD 0) 1 = none then some .streamCountExhausted
        else none := by
  have hparties : w.contractAddress ∈ [o.sender, o.recipient, o.token] ↔
      o.sender = w.contractAddress ∨ o.recipient = w.contractAddress ∨
        o.token = w.contractAddress := by
    simp only [List.mem_cons, List.not_mem_nil, or_false, eq_comm]
  simp only [rejection, rules, firstBroken_cons, check, hparties, checkedAdd_one_eq_none_iff,
    Signed.le_iff, Signed.lt_iff, Signed.toInt_zero, toInt_maxAmount, UInt64.le_iff_toNat_le,
    UInt64.lt_iff_toNat_lt]
  split_ifs <;> rfl

/-- Up to its token call a creation only reads, and decides by the rules. -/
theorem begin_of_rejection (o : Opening Address) {env : Env Address} {w : World Address}
    (hauth : env.authorized o.sender = true) {e : StreamError} (h : o.rejection w = some e) :
    o.begin env ⟨w, [], []⟩ = .error (.error e) ⟨w, [], []⟩ := by
  rw [o.rejection_eq] at h
  rw [o.begin_run, if_pos hauth]
  cases hcheck : o.check w.contractAddress w.timestamp with
  | error e' =>
    rw [hcheck] at h
    cases h
    rfl
  | ok =>
    rw [hcheck] at h
    cases hnext : U64.checkedAdd (w.streamCount.getD 0) 1 with
    | none =>
      rw [hnext] at h
      cases h
      rfl
    | some next =>
      rw [hnext] at h
      cases h

/-- A creation that fails leaves its frame as it found it. -/
theorem run_error (o : Opening Address) {env : Env Address} {frame frame' : Frame Address}
    {failure : Failure} (h : o.call.run env frame = .error failure frame') : frame' = frame := by
  rw [o.run_call, map_run, o.program_run] at h
  by_cases hauth : env.authorized o.sender = true
  · rw [if_pos hauth] at h
    cases hcheck : o.check frame.world.contractAddress frame.world.timestamp with
    | error e =>
      rw [hcheck] at h
      cases h
      rfl
    | ok =>
      cases hnext : U64.checkedAdd (frame.world.streamCount.getD 0) 1 with
      | none =>
        rw [hcheck, hnext] at h
        cases h
        rfl
      | some next =>
        cases hbook : env.token o.token (frame.world.balance o.token) o.sender
            frame.world.contractAddress o.totalAmount with
        | none =>
          rw [hcheck, hnext, hbook] at h
          cases h
          rfl
        | some book =>
          rw [hcheck, hnext, hbook] at h
          cases h
  · rw [if_neg hauth] at h
    cases h
    rfl

/-- What a creation that returns `id` has done, and all of it. -/
structure Creates (o : Opening Address) (w : World Address) (env : Env Address) (id : UInt64)
    (w' : World Address) : Prop where
  id_eq : id = w.streamCount.getD 0
  free : Reachable w → w.streams id = none
  receipt_eq : (w.invoke env o.call).1 = ⟨w.timestamp, .ok (.id id),
    [⟨o.token, o.sender, w.contractAddress, o.totalAmount⟩], [.created (o.created id)]⟩
  streams_eq : w'.streams = Function.update w.streams id (some o.stream)
  streamCount_eq : ∃ next, w'.streamCount = some next ∧ next.toNat = id.toNat + 1
  balance_eq : w'.balance = Function.update w.balance o.token
    (Pool.move (w.balance o.token) o.sender w.contractAddress o.totalAmount.toInt)
  host_eq : w'.contractAddress = w.contractAddress ∧ w'.timestamp = w.timestamp ∧
    w'.sequence = w.sequence
  lives_eq : ∀ key, key ≠ .stream id → key ≠ .streamCount → w'.liveUntil key = w.liveUntil key
  reports : ∃ r, w'.Reports id r ∧ (r.status = .pending ∨ r.status = .streaming) ∧
    r.vested < o.totalAmount ∧ r.withdrawable = r.vested ∧ 1 ≤ r.locked.toInt

end Opening

/-- A new stream is not over: nothing has been withdrawn, and not everything has vested. -/
theorem World.Stores.reports_new {w : World Address} {id : UInt64} {stream : Stream Address}
    (h : w.Stores id stream) (hlive : stream.cancelled = false)
    (hend : w.timestamp.toNat < stream.endTime.toNat) (hnone : stream.withdrawn = 0) :
    ∃ r, w.Reports id r ∧ (r.status = .pending ∨ r.status = .streaming) ∧
      r.vested < stream.totalAmount ∧ r.withdrawable = r.vested ∧ 1 ≤ r.locked.toInt := by
  have hformed := h.wellFormed
  have hvested := hformed.toInt_vestedUnits w.timestamp
  have hlt := hformed.vested_lt_total hlive hend
  refine ⟨stream.reading w.timestamp, h.reports, ?_, ?_, ?_, ?_⟩
  · change streamStatus stream w.timestamp = _ ∨ streamStatus stream w.timestamp = _
    have hopen : ¬ stream.endTime ≤ w.timestamp := by
      rw [UInt64.le_iff_toNat_le]
      exact not_le.mpr hend
    unfold streamStatus
    rw [hlive, if_neg (by decide), if_neg hopen]
    split_ifs
    · exact Or.inl rfl
    · exact Or.inr rfl
  · rw [Signed.lt_iff]
    exact hvested.trans_lt hlt
  · apply Signed.ext
    change (stream.available w.timestamp).toInt = (stream.vestedUnits w.timestamp).toInt
    rw [hformed.toInt_available, hvested, hnone]
    exact sub_zero _
  · change 1 ≤ (stream.refund w.timestamp).toInt
    rw [hformed.toInt_refund]
    omega

theorem Opening.creates (o : Opening Address) {w : World Address} {env : Env Address}
    (hvalid : o.Valid w.contractAddress w.timestamp) {next : UInt64}
    (hnext : U64.checkedAdd (w.streamCount.getD 0) 1 = some next) {book : Address → ℤ}
    (hbook : book = Pool.move (w.balance o.token) o.sender w.contractAddress o.totalAmount.toInt)
    (hreceipt : (w.invoke env o.call).1 = ⟨w.timestamp, .ok (.id (w.streamCount.getD 0)),
      [⟨o.token, o.sender, w.contractAddress, o.totalAmount⟩],
      [.created (o.created (w.streamCount.getD 0))]⟩) :
    o.Creates w env (w.streamCount.getD 0) (w.opened env o book (w.streamCount.getD 0) next) := by
  refine ⟨rfl, fun h => h.sound.next_id_free, hreceipt, rfl,
    ⟨next, rfl, U64.checkedAdd_eq_some_iff.mp hnext⟩, ?_, ⟨rfl, rfl, rfl⟩, ?_, ?_⟩
  · rw [← hbook]
    rfl
  · intro key hstream hcount
    rw [World.opened, World.extendTtl_liveUntil_of_ne hcount]
    exact World.stored_liveUntil_of_ne hstream
  · have hstores : (w.opened env o book (w.streamCount.getD 0) next).Stores
        (w.streamCount.getD 0) o.stream :=
      ⟨Function.update_self _ _ _, o.stream_wellFormed hvalid⟩
    exact hstores.reports_new rfl hvalid.now_lt_end rfl

/-- The three ways an authorized creation can end. -/
inductive Opening.Decided (o : Opening Address) (w : World Address) (env : Env Address) : Prop
  | rejected (e : StreamError) (hrule : o.rejection w = some e)
      (hinvoke : w.invoke env o.call = w.rejected (.error e))
  | unfunded (hrule : o.rejection w = none)
      (htoken : env.token o.token (w.balance o.token) o.sender w.contractAddress o.totalAmount =
        none)
      (hinvoke : w.invoke env o.call = w.rejected .transferFailed)
  | opened (next : UInt64) (book : Address → ℤ) (hrule : o.rejection w = none)
      (hvalid : o.Valid w.contractAddress w.timestamp)
      (hnext : U64.checkedAdd (w.streamCount.getD 0) 1 = some next)
      (htoken : env.token o.token (w.balance o.token) o.sender w.contractAddress o.totalAmount =
        some book)
      (hinvoke : w.invoke env o.call = (⟨w.timestamp, .ok (.id (w.streamCount.getD 0)),
        [⟨o.token, o.sender, w.contractAddress, o.totalAmount⟩],
        [.created (o.created (w.streamCount.getD 0))]⟩,
        w.opened env o book (w.streamCount.getD 0) next))

theorem Opening.decided (o : Opening Address) (w : World Address) {env : Env Address}
    (hauth : env.authorized o.sender = true) : o.Decided w env := by
  have hrule := o.rejection_eq w
  have hinvoke := w.invoke_create env o
  rw [if_pos hauth] at hinvoke
  cases hcheck : o.check w.contractAddress w.timestamp with
  | error e =>
    rw [hcheck] at hrule hinvoke
    exact .rejected e hrule hinvoke
  | ok =>
    rw [hcheck] at hrule hinvoke
    cases hnext : U64.checkedAdd (w.streamCount.getD 0) 1 with
    | none =>
      rw [hnext] at hrule hinvoke
      exact .rejected .streamCountExhausted hrule hinvoke
    | some next =>
      rw [hnext] at hrule hinvoke
      cases htoken : env.token o.token (w.balance o.token) o.sender w.contractAddress
          o.totalAmount with
      | none =>
        rw [htoken] at hinvoke
        exact .unfunded hrule htoken hinvoke
      | some book =>
        rw [htoken] at hinvoke
        exact .opened next book hrule (o.valid_of_check hcheck) hnext htoken hinvoke

namespace Opening.Decided

variable {o : Opening Address} {w : World Address} {env : Env Address}

/-- The answer, case by case. -/
theorem answer_eq (h : o.Decided w env) :
    (∃ e, o.rejection w = some e ∧ w.answer env o.call = .error (.error e)) ∨
    (o.rejection w = none ∧ env.token o.token (w.balance o.token) o.sender w.contractAddress
      o.totalAmount = none ∧ w.answer env o.call = .error .transferFailed) ∨
    (o.rejection w = none ∧ env.token o.token (w.balance o.token) o.sender w.contractAddress
      o.totalAmount ≠ none ∧ w.answer env o.call = .ok (.id (w.streamCount.getD 0))) := by
  cases h with
  | rejected e hrule hinvoke =>
    exact Or.inl ⟨e, hrule, World.answer_of_invoke hinvoke⟩
  | unfunded hrule htoken hinvoke =>
    exact Or.inr (Or.inl ⟨hrule, htoken, World.answer_of_invoke hinvoke⟩)
  | opened next book hrule _ _ htoken hinvoke =>
    refine Or.inr (Or.inr ⟨hrule, ?_, World.answer_of_invoke hinvoke⟩)
    rw [htoken]
    exact Option.some_ne_none book

theorem error_iff (h : o.Decided w env) (e : StreamError) :
    w.answer env o.call = .error (.error e) ↔ o.rejection w = some e := by
  rcases h.answer_eq with ⟨e', hrule, hanswer⟩ | ⟨hrule, _, hanswer⟩ | ⟨hrule, _, hanswer⟩ <;>
    simp [hrule, hanswer]

theorem ok_iff (h : o.Decided w env) :
    (∃ response, w.answer env o.call = .ok response) ↔ o.rejection w = none ∧
      env.token o.token (w.balance o.token) o.sender w.contractAddress o.totalAmount ≠ none := by
  rcases h.answer_eq with ⟨e, hrule, hanswer⟩ | ⟨_, htoken, hanswer⟩ | ⟨hrule, htoken, hanswer⟩
  · simp [hrule, hanswer]
  · simp [htoken, hanswer]
  · simp [hrule, htoken, hanswer]

theorem failed (h : o.Decided w env) {failure : Failure}
    (hfailure : w.answer env o.call = .error failure) :
    w.invoke env o.call = (⟨w.timestamp, .error failure, [], []⟩, w) := by
  cases h with
  | rejected e hrule hinvoke =>
    have hanswer : w.answer env o.call = _ := World.answer_of_invoke hinvoke
    cases hanswer.symm.trans hfailure
    exact hinvoke
  | unfunded hrule htoken hinvoke =>
    have hanswer : w.answer env o.call = _ := World.answer_of_invoke hinvoke
    cases hanswer.symm.trans hfailure
    exact hinvoke
  | opened next book _ _ _ _ hinvoke =>
    have hanswer : w.answer env o.call = _ := World.answer_of_invoke hinvoke
    cases hanswer.symm.trans hfailure

theorem created (h : o.Decided w env) (hexact : (env.token o.token).Exact)
    {response : Response Address} (hresponse : w.answer env o.call = .ok response) :
    ∃ id, response = .id id ∧ o.Creates w env id (w.invoke env o.call).2 := by
  cases h with
  | rejected e hrule hinvoke =>
    have hanswer : w.answer env o.call = _ := World.answer_of_invoke hinvoke
    cases hanswer.symm.trans hresponse
  | unfunded hrule htoken hinvoke =>
    have hanswer : w.answer env o.call = _ := World.answer_of_invoke hinvoke
    cases hanswer.symm.trans hresponse
  | opened next book hrule hvalid hnext htoken hinvoke =>
    have hanswer : w.answer env o.call = _ := World.answer_of_invoke hinvoke
    cases hanswer.symm.trans hresponse
    have hreceipt := congrArg Prod.fst hinvoke
    have hworld := congrArg Prod.snd hinvoke
    rw [hworld]
    exact ⟨_, rfl, o.creates hvalid hnext (hexact.eq_move htoken) hreceipt⟩

end Opening.Decided

/-- On every ledger, with the sender's authorization and a token that moves exactly
what it is asked to or fails: `createStream` answers with the error of the first
rule its arguments break, and succeeds exactly when they break none and the
funding transfer succeeds. A broken rule is found before the token is called; any
failure leaves the frame as it was, and the ledger too. -/
theorem create_stream_all_or_nothing {w : World Address} {env : Env Address}
    {o : Opening Address} (hauth : env.authorized o.sender = true)
    (hexact : (env.token o.token).Exact) :
    (∀ e, w.answer env o.call = .error (.error e) ↔ o.rejection w = some e) ∧
    ((∃ response, w.answer env o.call = .ok response) ↔ o.rejection w = none ∧
      env.token o.token (w.balance o.token) o.sender w.contractAddress o.totalAmount ≠ none) ∧
    (∀ e, o.rejection w = some e → o.begin env ⟨w, [], []⟩ = .error (.error e) ⟨w, [], []⟩) ∧
    (∀ failure frame, o.call.run env ⟨w, [], []⟩ = .error failure frame →
      frame = ⟨w, [], []⟩) ∧
    (∀ failure, w.answer env o.call = .error failure →
      w.invoke env o.call = (⟨w.timestamp, .error failure, [], []⟩, w)) ∧
    ∀ response, w.answer env o.call = .ok response →
      ∃ id, response = .id id ∧ o.Creates w env id (w.invoke env o.call).2 := by
  have hdecided := o.decided w hauth
  refine ⟨hdecided.error_iff, hdecided.ok_iff, fun e => o.begin_of_rejection hauth,
    fun _ _ => o.run_error, fun _ => hdecided.failed, fun _ => hdecided.created hexact⟩

theorem create_stream_all_or_nothing_genesis :
    Sample.genesis.answer Sample.env Sample.opening.call = .ok (.id 0) ∧
      ∃ id, (.id 0 : Response ℕ) = .id id ∧
        Sample.opening.Creates Sample.genesis Sample.env id Sample.opened := by
  have hanswer : Sample.genesis.answer Sample.env Sample.opening.call = .ok (.id 0) := rfl
  have hauth : Sample.env.authorized Sample.opening.sender = true := rfl
  obtain ⟨_, _, _, _, _, hcreated⟩ :=
    create_stream_all_or_nothing (w := Sample.genesis) hauth Sample.ledgerToken_exact
  exact ⟨hanswer, hcreated _ hanswer⟩

end TricklePay
