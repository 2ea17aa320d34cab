import TricklePay.Library.Relational
import TricklePay.Proofs.Sequential

/-!
# What the contract can observe

The contract sees the clock, its own records, who authorized a call, and whether
the token it turns to moved the amount. It does not see balances, the lives of its
entries, the network's settings, or how a token keeps its books. Two runs that
differ only in what it does not see give the same receipts and leave the same
records; and the failed calls, the views and whatever happens in the tokens can be
left out of a run without a trace in the rest of it.
-/

namespace TricklePay

open Checked Transition Relational

variable {Address : Type}

theorem World.Alike.symm {g w : World Address} (h : g.Alike w) : w.Alike g :=
  ⟨h.contractAddress.symm, h.timestamp.symm, h.streams.symm, h.streamCount.symm⟩

/-- The same as far as a call can tell that looks at the records in `p` only. -/
structure World.AlikeOn (p : UInt64 → Prop) (g w : World Address) : Prop where
  contractAddress : g.contractAddress = w.contractAddress
  timestamp : g.timestamp = w.timestamp
  streams : ∀ id, p id → g.streams id = w.streams id
  streamCount : g.streamCount = w.streamCount

theorem World.Alike.on {g w : World Address} (h : g.Alike w) (p : UInt64 → Prop) :
    g.AlikeOn p w :=
  ⟨h.contractAddress, h.timestamp, fun _ _ => by rw [h.streams], h.streamCount⟩

theorem World.AlikeOn.alike {g w : World Address} (h : g.AlikeOn (fun _ => True) w) :
    g.Alike w :=
  ⟨h.contractAddress, h.timestamp, funext fun id => h.streams id trivial, h.streamCount⟩

/-- Frames of two invocations that have seen and done the same. -/
structure Frame.AlikeOn (p : UInt64 → Prop) (f g : Frame Address) : Prop where
  world : f.world.AlikeOn p g.world
  transfers : f.transfers = g.transfers
  events : f.events = g.events

theorem Frame.AlikeOn.refreshed {p : UInt64 → Prop} {f g : Frame Address} (h : f.AlikeOn p g)
    (env env' : Env Address) (id : UInt64) :
    (f.refreshed env id).AlikeOn p (g.refreshed env' id) where
  world := ⟨h.world.contractAddress, h.world.timestamp, h.world.streams, h.world.streamCount⟩
  transfers := h.transfers
  events := h.events

/-- The streams a call names. -/
def Call.ids : Call Address → List UInt64
  | .withdraw id | .withdrawAmount id _ | .cancel id | .getStream id | .cancelPreview id
  | .streamExists id | .withdrawable id | .vested id | .vestedAt id _ | .locked id | .progress id
  | .status id => [id]
  | .getStreams ids => ids
  | .createStream .. | .streamCount | .maxAmount => []

/-! ### The views -/

/-- Neither program sees more than the records in `p` and the clock. -/
abbrev Blind {α : Type} (p : UInt64 → Prop) (x y : Host Address α) : Prop :=
  Agree (Frame.AlikeOn p) (Frame.AlikeOn p) Eq x y

namespace Blind

variable {α β : Type} {p : UInt64 → Prop} {x y : Host Address α}

theorem pure (a : α) : Blind p (Pure.pure a : Host Address α) (Pure.pure a) := Agree.pure rfl

theorem bind {f g : α → Host Address β} (hx : Blind p x y) (hf : ∀ a, Blind p (f a) (g a)) :
    Blind p (x >>= f) (y >>= g) :=
  Agree.bind hx fun a _ h => h ▸ hf a

theorem map (f : α → β) (hx : Blind p x y) : Blind p (f <$> x) (f <$> y) :=
  Agree.map (fun _ _ => congrArg f) hx

theorem mapM {f g : β → Host Address α} {cs : List β} (hf : ∀ c ∈ cs, Blind p (f c) (g c)) :
    Blind p (cs.mapM f) (cs.mapM g) := by
  intro s t h
  have hends := Agree.mapM hf s t h
  simp only [List.forall₂_eq_eq_eq] at hends
  exact hends

theorem timestamp :
    Blind p (TricklePay.timestamp : Host Address UInt64) TricklePay.timestamp := by
  intro f g h
  exact .ok h h.world.timestamp

theorem rejectIf (condition : Prop) [Decidable condition] (e : StreamError) :
    Blind p (TricklePay.rejectIf condition e : Host Address Unit)
      (TricklePay.rejectIf condition e) := by
  intro f g h
  rw [rejectIf_run, rejectIf_run]
  split_ifs
  · exact .error
  · exact .ok h rfl

theorem liftTrap (y : Except Trap α) : Blind p (liftM y : Host Address α) (liftM y) := by
  cases y with
  | error t => exact .throw _
  | ok a => exact .pure a

theorem liftError (y : Except StreamError α) :
    Blind p (liftM y : Host Address α) (liftM y) := by
  cases y with
  | error e => exact .throw _
  | ok a => exact .pure a

theorem getStream (env env' : Env Address) {id : UInt64} (hid : p id) :
    Blind p (TricklePay.getStream env id) (TricklePay.getStream env' id) := by
  intro f g h
  rw [getStream_run, getStream_run, h.world.streams id hid]
  split_ifs
  · exact .ok (h.refreshed env env' id) rfl
  · exact .ok h rfl

theorem getStreamReadonly {id : UInt64} (hid : p id) :
    Blind p (TricklePay.getStreamReadonly id : Host Address (Option (Stream Address)))
      (TricklePay.getStreamReadonly id) := by
  intro f g h
  rw [getStreamReadonly_run, getStreamReadonly_run, h.world.streams id hid]
  exact .ok h rfl

theorem hasStream {id : UInt64} (hid : p id) :
    Blind p (TricklePay.hasStream id : Host Address Bool) (TricklePay.hasStream id) := by
  intro f g h
  exact .ok h (congrArg Option.isSome (h.world.streams id hid))

theorem streamCount :
    Blind p (TricklePay.streamCount : Host Address UInt64) TricklePay.streamCount := by
  intro f g h
  rw [streamCount_run, streamCount_run, h.world.streamCount]
  exact .ok h rfl

/-- What is computed from a loaded record sees no more than the record and the clock. -/
theorem load (env env' : Env Address) {id : UInt64} (hid : p id)
    {f : Stream Address → Host Address β}
    (hf : ∀ stream, Blind p (f stream) (f stream)) :
    Blind p
      (TricklePay.getStream env id >>= fun found =>
        (liftM (okOr found .streamNotFound) : Host Address (Stream Address)) >>= f)
      (TricklePay.getStream env' id >>= fun found =>
        (liftM (okOr found .streamNotFound) : Host Address (Stream Address)) >>= f) :=
  (getStream env env' hid).bind fun _ => (liftError _).bind hf

end Blind

section Answers

variable {p : UInt64 → Prop} {w w' z z' : World Address} {r r' : Receipt Address}

/-- The call failed because the token it turned to refused. -/
def Receipt.refused (receipt : Receipt Address) : Bool :=
  match receipt.result with
  | .error .transferFailed => true
  | _ => false

theorem World.AlikeOn.rejected (h : w.AlikeOn p w') {failure : Failure}
    (hr : w.rejected failure = (r, z)) (hr' : w'.rejected failure = (r', z')) :
    r = r' ∧ z.AlikeOn p z' := by
  cases hr
  cases hr'
  rw [h.timestamp]
  exact ⟨rfl, h⟩

/-- Tokens that answer alike leave the call to go on alike, or to fail. -/
theorem World.AlikeOn.asked (h : w.AlikeOn p w') {answer answer' : Option (Address → ℤ)}
    {next next' : (Address → ℤ) → Receipt Address × World Address}
    (hr : (match answer with
      | none => w.rejected .transferFailed
      | some book => next book) = (r, z))
    (hr' : (match answer' with
      | none => w'.rejected .transferFailed
      | some book => next' book) = (r', z'))
    (hmoved : ∀ book, (next book).1.refused = false)
    (hmoved' : ∀ book, (next' book).1.refused = false)
    (hnext : ∀ book book',
      (next book).1 = (next' book').1 ∧ (next book).2.AlikeOn p (next' book').2)
    (hrefused : r.refused = r'.refused) : r = r' ∧ z.AlikeOn p z' := by
  cases answer with
  | none =>
    cases answer' with
    | none => exact h.rejected hr hr'
    | some book' =>
      have hlast := hmoved' book'
      cases hr
      dsimp only at hr'
      rw [hr'] at hlast
      rw [hlast] at hrefused
      cases hrefused
  | some book =>
    dsimp only at hr
    cases answer' with
    | none =>
      have hlast := hmoved book
      cases hr'
      rw [hr] at hlast
      rw [hlast] at hrefused
      cases hrefused
    | some book' =>
      dsimp only at hr'
      have hboth := hnext book book'
      rw [hr, hr'] at hboth
      exact hboth

theorem World.AlikeOn.update (h : w.AlikeOn p w') (id : UInt64) (record : Option (Stream Address)) :
    ∀ i, p i → Function.update w.streams id record i = Function.update w'.streams id record i := by
  intro i hi
  by_cases hid : i = id
  · rw [hid, Function.update_self, Function.update_self]
  · rw [Function.update_of_ne hid, Function.update_of_ne hid, h.streams i hi]

end Answers

variable [DecidableEq Address]

/-- No view sees more than the records it names and the clock, whoever calls it. -/
theorem Call.view_blind {p : UInt64 → Prop} {call : Call Address} (hview : call.isView = true)
    (hids : ∀ id ∈ call.ids, p id) (env env' : Env Address) :
    Blind p (call.run env) (call.run env') := by
  have hfirst : ∀ id, call.ids = [id] → p id := fun id hid => hids id (by simp [hid])
  cases call with
  | createStream => cases hview
  | withdraw => cases hview
  | withdrawAmount => cases hview
  | cancel => cases hview
  | getStream id =>
    exact ((Blind.getStream env env' (hfirst id rfl)).bind fun _ => Blind.liftError _).map _
  | cancelPreview id =>
    refine ((Blind.getStreamReadonly (hfirst id rfl)).bind fun _ =>
      (Blind.liftError _).bind fun _ => (Blind.rejectIf _ _).bind fun _ => ?_).map _
    refine Blind.timestamp.bind fun _ => (Blind.rejectIf _ _).bind fun _ => ?_
    exact (Blind.liftTrap _).bind fun _ => Blind.liftTrap _
  | getStreams ids =>
    refine ((Blind.rejectIf _ _).bind fun _ => .mapM fun id hid => ?_).map _
    exact Blind.getStreamReadonly (hids id hid)
  | streamExists id => exact (Blind.hasStream (hfirst id rfl)).map _
  | withdrawable id =>
    exact (Blind.load env env' (hfirst id rfl) fun _ =>
      Blind.timestamp.bind fun _ => (Blind.liftTrap _).bind fun _ => Blind.liftTrap _).map _
  | vested id =>
    exact (Blind.load env env' (hfirst id rfl) fun _ =>
      Blind.timestamp.bind fun _ => Blind.liftTrap _).map _
  | vestedAt id t =>
    exact (Blind.load env env' (hfirst id rfl) fun _ => Blind.liftTrap _).map _
  | locked id =>
    refine (Blind.load env env' (hfirst id rfl) fun _ => Blind.timestamp.bind fun _ => ?_).map _
    exact (Blind.liftTrap _).bind fun _ => (Blind.liftTrap _).bind fun _ => .pure _
  | progress id =>
    refine (Blind.load env env' (hfirst id rfl) fun stream => ?_).map _
    split_ifs
    · exact .pure _
    · refine Blind.timestamp.bind fun _ => (Blind.liftTrap _).bind fun _ => ?_
      refine (Blind.liftTrap _).bind fun _ => (Blind.liftTrap _).bind fun _ => ?_
      exact (Blind.liftTrap _).bind fun _ => Blind.liftTrap _
  | status id =>
    exact (Blind.load env env' (hfirst id rfl) fun _ =>
      Blind.timestamp.bind fun _ => .pure _).map _
  | streamCount => exact Blind.streamCount.map _
  | maxAmount => exact .map _ (.pure _)

/-! ### Invocations -/

/-- What becomes of a creation whose arguments are accepted. -/
def Opening.funded (o : Opening Address) (env : Env Address) (next : UInt64) (w : World Address) :
    Receipt Address × World Address :=
  match env.token o.token (w.balance o.token) o.sender w.contractAddress o.totalAmount with
  | none => w.rejected .transferFailed
  | some book =>
    (⟨w.timestamp, .ok (.id (w.streamCount.getD 0)),
      [⟨o.token, o.sender, w.contractAddress, o.totalAmount⟩],
      [.created (o.created (w.streamCount.getD 0))]⟩,
      w.opened env o book (w.streamCount.getD 0) next)

section Alike

variable {w v : World Address} {env env' : Env Address}

/-- Where the record, the time and the authorizations are the same, a settling call fails
alike or pays the same out. -/
theorem World.invoke_op_alike (op : StreamOp) {id : UInt64}
    (hstreams : v.streams id = w.streams id) (htime : v.timestamp = w.timestamp)
    (hauth : env'.authorized = env.authorized) :
    (∃ failure, w.invoke env (op.call id) = w.rejected failure ∧
        v.invoke env' (op.call id) = v.rejected failure) ∨
      ∃ (stream : Stream Address) (z : Settled Address), w.streams id = some stream ∧
        w.invoke env (op.call id) = z.paid env id stream.token (op.party stream) w ∧
        v.invoke env' (op.call id) = z.paid env' id stream.token (op.party stream) v := by
  rw [World.invoke_op, World.invoke_op, hstreams, htime, hauth]
  cases w.streams id with
  | none => exact Or.inl ⟨_, rfl, rfl⟩
  | some stream =>
    by_cases hparty : env.authorized (op.party stream) = true
    · simp only [if_pos hparty]
      cases op.settle w.timestamp id stream with
      | error e => exact Or.inl ⟨e, rfl, rfl⟩
      | ok z => exact Or.inr ⟨stream, z, rfl, rfl, rfl⟩
    · simp only [if_neg hparty]
      exact Or.inl ⟨_, rfl, rfl⟩

/-- Where the time, the counter and the authorizations are the same, a creation fails
alike or asks for its funding. -/
theorem World.invoke_create_alike (o : Opening Address)
    (hcontract : v.contractAddress = w.contractAddress) (htime : v.timestamp = w.timestamp)
    (hcount : v.streamCount = w.streamCount) (hauth : env'.authorized = env.authorized) :
    (∃ failure, w.invoke env o.call = w.rejected failure ∧
        v.invoke env' o.call = v.rejected failure) ∨
      ∃ next, w.invoke env o.call = o.funded env next w ∧
        v.invoke env' o.call = o.funded env' next v := by
  unfold Opening.funded
  rw [World.invoke_create, World.invoke_create, hcontract, htime, hcount, hauth]
  by_cases hsender : env.authorized o.sender = true
  · simp only [if_pos hsender]
    cases o.check w.contractAddress w.timestamp with
    | error e => exact Or.inl ⟨_, rfl, rfl⟩
    | ok =>
      cases U64.checkedAdd (w.streamCount.getD 0) 1 with
      | none => exact Or.inl ⟨_, rfl, rfl⟩
      | some next => exact Or.inr ⟨next, rfl, rfl⟩
  · simp only [if_neg hsender]
    exact Or.inl ⟨_, rfl, rfl⟩

end Alike

namespace World.AlikeOn

variable {p : UInt64 → Prop} {w w' z z' : World Address} {env env' : Env Address}
  {r r' : Receipt Address}

theorem paid (h : w.AlikeOn p w') {s : Settled Address} {id : UInt64} {token target : Address}
    (hr : s.paid env id token target w = (r, z)) (hr' : s.paid env' id token target w' = (r', z'))
    (hrefused : r.refused = r'.refused) : r = r' ∧ z.AlikeOn p z' := by
  have hstreams := h.update id (some s.stream)
  unfold Settled.paid at hr hr'
  by_cases hpos : 0 < s.amount
  · simp only [if_pos hpos] at hr hr'
    rw [h.contractAddress, h.timestamp] at hr
    exact h.asked hr hr' (fun _ => rfl) (fun _ => rfl)
      (fun _ _ => ⟨rfl, h.contractAddress, h.timestamp, hstreams, h.streamCount⟩) hrefused
  · simp only [if_neg hpos] at hr hr'
    cases hr
    cases hr'
    rw [h.timestamp]
    exact ⟨rfl, h.contractAddress, h.timestamp, hstreams, h.streamCount⟩

theorem invoke_op (h : w.AlikeOn p w') (op : StreamOp) {id : UInt64} (hid : p id)
    (hauth : env.authorized = env'.authorized) (hr : w.invoke env (op.call id) = (r, z))
    (hr' : w'.invoke env' (op.call id) = (r', z')) (hrefused : r.refused = r'.refused) :
    r = r' ∧ z.AlikeOn p z' := by
  rcases World.invoke_op_alike op (h.streams id hid).symm h.timestamp.symm hauth.symm with
    ⟨failure, hw, hw'⟩ | ⟨stream, s, _, hw, hw'⟩
  · rw [hw] at hr
    rw [hw'] at hr'
    exact h.rejected hr hr'
  · rw [hw] at hr
    rw [hw'] at hr'
    exact h.paid hr hr' hrefused

theorem invoke_create (h : w.AlikeOn p w') {o : Opening Address}
    (hauth : env.authorized = env'.authorized) (hr : w.invoke env o.call = (r, z))
    (hr' : w'.invoke env' o.call = (r', z')) (hrefused : r.refused = r'.refused) :
    r = r' ∧ z.AlikeOn p z' := by
  rcases World.invoke_create_alike o h.contractAddress.symm h.timestamp.symm h.streamCount.symm
    hauth.symm with ⟨failure, hw, hw'⟩ | ⟨next, hw, hw'⟩
  · rw [hw] at hr
    rw [hw'] at hr'
    exact h.rejected hr hr'
  · rw [hw] at hr
    rw [hw'] at hr'
    unfold Opening.funded at hr hr'
    rw [← h.contractAddress, ← h.timestamp, ← h.streamCount] at hr'
    have hstreams := h.update (w.streamCount.getD 0) (some o.stream)
    exact h.asked hr hr' (fun _ => rfl) (fun _ => rfl)
      (fun _ _ => ⟨rfl, h.contractAddress, h.timestamp, hstreams, rfl⟩) hrefused

theorem invoke_view (h : w.AlikeOn p w') {call : Call Address} (hview : call.isView = true)
    (hids : ∀ id ∈ call.ids, p id) (hr : w.invoke env call = (r, z))
    (hr' : w'.invoke env' call = (r', z')) : r = r' ∧ z.AlikeOn p z' := by
  have hends := Call.view_blind hview hids env env' ⟨w, [], []⟩ ⟨w', [], []⟩ ⟨h, rfl, rfl⟩
  unfold World.invoke at hr hr'
  generalize call.run env ⟨w, [], []⟩ = result at hends hr
  generalize call.run env' ⟨w', [], []⟩ = result' at hends hr'
  cases hends with
  | ok hframe hvalue =>
    cases hr
    cases hr'
    rw [h.timestamp, hframe.transfers, hframe.events, hvalue]
    exact ⟨rfl, hframe.world⟩
  | error => exact h.rejected hr hr'

/-- A call that is authorized alike, and refused by its token alike, is answered
alike and leaves the ledgers alike. -/
theorem invoke (h : w.AlikeOn p w') {call : Call Address} (hids : ∀ id ∈ call.ids, p id)
    (hauth : env.authorized = env'.authorized) (hr : w.invoke env call = (r, z))
    (hr' : w'.invoke env' call = (r', z')) (hrefused : r.refused = r'.refused) :
    r = r' ∧ z.AlikeOn p z' := by
  cases call with
  | createStream sender recipient token totalAmount startTime endTime cliffTime =>
    exact h.invoke_create (o := ⟨sender, recipient, token, totalAmount, startTime, endTime,
      cliffTime⟩) hauth hr hr' hrefused
  | withdraw id =>
    exact h.invoke_op .withdraw (hids id List.mem_cons_self) hauth hr hr' hrefused
  | withdrawAmount id amount =>
    exact h.invoke_op (.withdrawAmount amount) (hids id List.mem_cons_self) hauth hr hr'
      hrefused
  | cancel id =>
    exact h.invoke_op .cancel (hids id List.mem_cons_self) hauth hr hr' hrefused
  | _ => exact h.invoke_view rfl hids hr hr'

end World.AlikeOn

theorem World.Alike.invoke {w w' z z' : World Address} {env env' : Env Address}
    {r r' : Receipt Address} {call : Call Address} (h : w.Alike w')
    (hauth : env.authorized = env'.authorized) (hr : w.invoke env call = (r, z))
    (hr' : w'.invoke env' call = (r', z')) (hrefused : r.refused = r'.refused) :
    r = r' ∧ z.Alike z' := by
  obtain ⟨hreceipt, halike⟩ :=
    (h.on fun _ => True).invoke (fun _ _ => trivial) hauth hr hr' hrefused
  exact ⟨hreceipt, halike.alike⟩

/-! ### Runs -/

/-- What reaches the contract in one step: the time, or a call, with who authorized
it and whether the token it turned to refused. -/
inductive Input (Address : Type)
  | clock (timestamp : UInt64)
  | call (authorized : Address → Bool) (call : Call Address) (refused : Bool)

def Label.input : Label Address → Option (Input Address)
  | .clock timestamp _ => some (.clock timestamp)
  | .call env entry receipt => some (.call env.authorized entry receipt.refused)
  | .deposit .. | .bookkeeping .. => none

def Label.receipt : Label Address → Option (Receipt Address)
  | .call _ _ receipt => some receipt
  | .clock .. | .deposit .. | .bookkeeping .. => none

section Inputs

variable {w w' : World Address} {l : Label Address}

theorem Step.of_no_input (h : Step w l w') (hinput : l.input = none) :
    l.receipt = none ∧ w.Alike w' := by
  cases h with
  | clock => cases hinput
  | call => cases hinput
  | credited => exact ⟨rfl, rfl, rfl, rfl, rfl⟩
  | refused => exact ⟨rfl, .refl w⟩
  | bookkeeping => exact ⟨rfl, rfl, rfl, rfl, rfl⟩

theorem Step.of_clock_input (h : Step w l w') {timestamp : UInt64}
    (hinput : l.input = some (.clock timestamp)) :
    l.receipt = none ∧ ∃ sequence, w' = { w with timestamp, sequence } := by
  cases h with
  | clock =>
    cases hinput
    exact ⟨rfl, _, rfl⟩
  | call => cases hinput
  | credited => cases hinput
  | refused => cases hinput
  | bookkeeping => cases hinput

theorem Step.of_call_input (h : Step w l w') {authorized : Address → Bool} {call : Call Address}
    {refused : Bool} (hinput : l.input = some (.call authorized call refused)) :
    ∃ env receipt, l.receipt = some receipt ∧ env.authorized = authorized ∧
      receipt.refused = refused ∧ w.invoke env call = (receipt, w') := by
  cases h with
  | clock => cases hinput
  | call hinvoke =>
    cases hinput
    exact ⟨_, _, rfl, rfl, rfl, hinvoke⟩
  | credited => cases hinput
  | refused => cases hinput
  | bookkeeping => cases hinput

end Inputs

theorem alike_matched :
    Matched World.Alike Label.input Label.input Label.receipt Label.receipt
      (Step : World Address → Label Address → World Address → Prop) Step where
  hidden := by
    intro m l m' t h hstep hinput
    obtain ⟨hreceipt, halike⟩ := hstep.of_no_input hinput
    exact ⟨hreceipt, halike.symm.trans h⟩
  hidden' := by
    intro m t l t' h hstep hinput
    obtain ⟨hreceipt, halike⟩ := hstep.of_no_input hinput
    exact ⟨hreceipt, h.trans halike⟩
  shown := by
    intro m l m' t l' t' i h hstep hstep' hinput hinput'
    cases i with
    | clock timestamp =>
      obtain ⟨hreceipt, sequence, rfl⟩ := hstep.of_clock_input hinput
      obtain ⟨hreceipt', sequence', rfl⟩ := hstep'.of_clock_input hinput'
      rw [hreceipt, hreceipt']
      exact ⟨rfl, h.contractAddress, rfl, h.streams, h.streamCount⟩
    | call authorized call refused =>
      obtain ⟨env, r, hreceipt, hauth, hrefused, hinvoke⟩ := hstep.of_call_input hinput
      obtain ⟨env', r', hreceipt', hauth', hrefused', hinvoke'⟩ := hstep'.of_call_input hinput'
      obtain ⟨rfl, halike⟩ := h.invoke (hauth.trans hauth'.symm) hinvoke hinvoke'
        (hrefused.trans hrefused'.symm)
      rw [hreceipt, hreceipt']
      exact ⟨rfl, halike⟩

/-- Two runs in which the clock reads the same, the same calls are made with the same
authorizations, and the same of them are refused by their tokens, give every call
the same receipt and leave the same records, whatever else their tokens, balances,
entry lives and network settings are. -/
theorem same_inputs_same_receipts {w w' z z' : World Address} {ls ls' : List (Label Address)}
    (h : w.Alike w') (hrun : Run Step w ls z) (hrun' : Run Step w' ls' z')
    (hinputs : ls.filterMap Label.input = ls'.filterMap Label.input) :
    ls.filterMap Label.receipt = ls'.filterMap Label.receipt ∧ z.Alike z' :=
  alike_matched.agree h hrun hrun' hinputs

namespace Sample

/-- The sample ledger with empty books, dying entries and a token that keeps none. -/
def hollow : World ℕ := { genesis with balance := fun _ _ => 0, liveUntil := fun _ => 0 }

def hollowEnv : Env ℕ where
  authorized := fun _ => true
  token := fun _ book _ _ _ => some book
  minLife := 0
  extendsAtThreshold := false

def hollowOpened : World ℕ := (hollow.invoke hollowEnv opening.call).2

def hollowLater : World ℕ :=
  { hollowOpened.setBook 9 (fun _ => 7) with timestamp := 4, sequence := 90 }

def hollowLabels : List (Label ℕ) :=
  [.call hollowEnv opening.call (hollow.invoke hollowEnv opening.call).1,
    .bookkeeping 9 (fun _ _ => 7), .clock 4 90,
    .call hollowEnv (.withdraw 0) (hollowLater.invoke hollowEnv (.withdraw 0)).1]

theorem hollow_run :
    Run Step hollow hollowLabels (hollowLater.invoke hollowEnv (.withdraw 0)).2 :=
  (((Run.single (.call rfl)).snoc .bookkeeping).snoc (.clock (by decide) (by decide))).snoc
    (.call rfl)

end Sample

theorem same_inputs_same_receipts_hollow :
    Sample.drainedLabels.filterMap Label.receipt =
      Sample.hollowLabels.filterMap Label.receipt := by
  have halike : Sample.genesis.Alike Sample.hollow := ⟨rfl, rfl, rfl, rfl⟩
  exact (same_inputs_same_receipts halike Sample.drained_run Sample.hollow_run rfl).1

end TricklePay
