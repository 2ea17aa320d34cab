import TricklePay.Proofs.Reentrancy
import TricklePay.Proofs.Observation
import TricklePay.Proofs.Isolation

/-!
# Executions with callbacks are sequential runs

A call takes effect in one piece, when it writes its record. Told in the order of
these writes, with tokens that move at once what they are asked to, an execution in
which tokens call back is a run of the ordinary host: the calls return what they
returned, and the ledger is the one that was reached, but for what is still to be moved.
-/

namespace TricklePay

open Checked Transition Callbacks

variable {Address : Type}

/-- The same ledger with other balances. -/
def World.rebook (w : World Address) (balance : Address → Address → ℤ) : World Address :=
  { w with balance }

section Rebook

variable (w : World Address) (balance : Address → Address → ℤ)

@[simp] theorem World.rebook_balance : (w.rebook balance).balance = balance := rfl

@[simp] theorem World.rebook_contractAddress :
    (w.rebook balance).contractAddress = w.contractAddress := rfl

@[simp] theorem World.rebook_timestamp : (w.rebook balance).timestamp = w.timestamp := rfl

@[simp] theorem World.rebook_streams : (w.rebook balance).streams = w.streams := rfl

@[simp] theorem World.rebook_streamCount : (w.rebook balance).streamCount = w.streamCount := rfl

end Rebook

variable [DecidableEq Address]

/-- The same environment as far as the contract goes, with tokens that move exactly what
they are asked to or fail. -/
structure Env.Retold (env env' : Env Address) : Prop where
  authorized : env'.authorized = env.authorized
  minLife : env'.minLife = env.minLife
  extendsAtThreshold : env'.extendsAtThreshold = env.extendsAtThreshold
  exact : ∀ token, (env'.token token).Exact

/-- Tokens that move exactly what they are asked to, when it is granted. -/
def Env.retell (env : Env Address) (granted : Address → Address → Address → I128 → Bool) :
    Env Address :=
  { env with
    token := fun token book source target amount =>
      if granted token source target amount then some (Pool.move book source target amount.toInt)
      else none }

theorem Env.retold_retell (env : Env Address)
    (granted : Address → Address → Address → I128 → Bool) : env.Retold (env.retell granted) where
  authorized := rfl
  minLife := rfl
  extendsAtThreshold := rfl
  exact := by
    intro token book source target amount
    by_cases h : granted token source target amount = true
    · exact Or.inr (if_pos h)
    · exact Or.inl (if_neg h)

/-- The same entry, told with other tokens. -/
inductive Label.Retold : Label Address → Label Address → Prop
  | clock (timestamp : UInt64) (sequence : ℕ) :
      Retold (.clock timestamp sequence) (.clock timestamp sequence)
  | call {env env' : Env Address} (call : Call Address) (receipt : Receipt Address)
      (henv : env.Retold env') : Retold (.call env call receipt) (.call env' call receipt)
  | deposit {env env' : Env Address} (token source : Address) (amount : I128) (credited : Bool)
      (henv : env.Retold env') :
      Retold (.deposit env token source amount credited)
        (.deposit env' token source amount credited)
  | bookkeeping (token : Address) (act : (Address → ℤ) → Address → ℤ) :
      Retold (.bookkeeping token act) (.bookkeeping token act)

/-! ### Balances told apart -/

/-- Transfers change any two books alike. -/
theorem post_sub (ts : List (Transfer Address)) (b b' : Address → Address → ℤ)
    (token holder : Address) :
    post b ts token holder - b token holder = post b' ts token holder - b' token holder := by
  induction ts generalizing b b' with
  | nil => simp [post]
  | cons t ts ih =>
    have hcons : ∀ c, post c (t :: ts) = post (Function.update c t.token
        (Pool.move (c t.token) t.source t.target t.amount.toInt)) ts := fun _ => rfl
    have hrest := ih
      (Function.update b t.token (Pool.move (b t.token) t.source t.target t.amount.toInt))
      (Function.update b' t.token (Pool.move (b' t.token) t.source t.target t.amount.toInt))
    rw [hcons, hcons]
    by_cases ht : token = t.token
    · subst ht
      simp only [Function.update_self, Pool.move] at hrest ⊢
      omega
    · simp only [Function.update_of_ne ht] at hrest ⊢
      exact hrest

/-- A token that is exact moves what the receipt says it was asked to. -/
theorem World.invoke_post {w w' : World Address} {env : Env Address} {call : Call Address}
    {receipt : Receipt Address} (h : w.invoke env call = (receipt, w')) {token : Address}
    (hexact : (env.token token).Exact) :
    w'.balance token = post w.balance receipt.transfers token := by
  have hsingle : ∀ (t : Transfer Address) (book : Address → ℤ),
      env.token t.token (w.balance t.token) t.source t.target t.amount = some book →
      Function.update w.balance t.token book token = post w.balance [t] token := by
    intro t book hbook
    by_cases ht : token = t.token
    · subst ht
      rw [hexact.eq_move hbook]
      rfl
    · change _ = Function.update w.balance t.token _ token
      rw [Function.update_of_ne ht, Function.update_of_ne ht]
  cases World.invoke_effect h with
  | rejected _ hreceipt hworld =>
    subst hreceipt hworld
    rfl
  | viewed _ _ _ hreceipt hworld =>
    subst hreceipt hworld
    rfl
  | opened o next book _ _ _ _ hbook hreceipt hworld =>
    subst hreceipt hworld
    exact hsingle ⟨o.token, o.sender, w.contractAddress, o.totalAmount⟩ book hbook
  | settled op id stream z _ _ _ _ hpaid =>
    unfold Settled.paid at hpaid
    dsimp only at hpaid
    split_ifs at hpaid
    · cases hbook : env.token stream.token (w.balance stream.token) w.contractAddress
          (op.party stream) z.amount with
      | none =>
        rw [hbook] at hpaid
        cases hpaid
        rfl
      | some book =>
        rw [hbook] at hpaid
        cases hpaid
        exact hsingle ⟨stream.token, w.contractAddress, op.party stream, z.amount⟩ book hbook
    · cases hpaid
      rfl

/-! ### Steps retold -/

section Retell

variable {w w' : World Address} {env : Env Address} {receipt : Receipt Address}

/-- What the tokens of `env` would answer now. -/
def Env.answers (env : Env Address) (w : World Address) (token source target : Address)
    (amount : I128) : Bool :=
  (env.token token (w.balance token) source target amount).isSome

/-- They answer as they did on any other book. -/
theorem Env.retell_answers (token source target : Address) (amount : I128) (book : Address → ℤ) :
    (env.retell (env.answers w)).token token book source target amount =
      (env.token token (w.balance token) source target amount).map fun _ =>
        Pool.move book source target amount.toInt := by
  unfold Env.retell Env.answers
  cases hbook : env.token token (w.balance token) source target amount <;> simp [hbook]

theorem Settled.paid_retell {z : Settled Address} {id : UInt64} {token target : Address}
    (h : z.paid env id token target w = (receipt, w')) (b : Address → Address → ℤ) :
    z.paid (env.retell (env.answers w)) id token target (w.rebook b) =
      (receipt, w'.rebook (post b receipt.transfers)) := by
  unfold Settled.paid at h ⊢
  dsimp only [World.rebook_balance, World.rebook_contractAddress] at h ⊢
  rw [Env.retell_answers]
  split_ifs at h ⊢
  · cases hbook : env.token token (w.balance token) w.contractAddress target z.amount with
    | none =>
      rw [hbook] at h
      cases h
      rfl
    | some book =>
      rw [hbook] at h
      cases h
      rfl
  · cases h
    rfl

theorem World.invoke_op_retell (op : StreamOp) {id : UInt64}
    (h : w.invoke env (op.call id) = (receipt, w')) (b : Address → Address → ℤ) :
    (w.rebook b).invoke (env.retell (env.answers w)) (op.call id) =
      (receipt, w'.rebook (post b receipt.transfers)) := by
  have hauth : (env.retell (env.answers w)).authorized = env.authorized := rfl
  have hstreams : (w.rebook b).streams id = w.streams id := rfl
  rcases World.invoke_op_alike op hstreams rfl hauth with
    ⟨failure, hw, hrebooked⟩ | ⟨stream, z, _, hw, hrebooked⟩
  · rw [hw] at h
    cases h
    exact hrebooked
  · rw [hw] at h
    rw [hrebooked]
    exact Settled.paid_retell h b

theorem World.invoke_create_retell {o : Opening Address}
    (h : w.invoke env o.call = (receipt, w')) (b : Address → Address → ℤ) :
    (w.rebook b).invoke (env.retell (env.answers w)) o.call =
      (receipt, w'.rebook (post b receipt.transfers)) := by
  have hauth : (env.retell (env.answers w)).authorized = env.authorized := rfl
  have hcontract : (w.rebook b).contractAddress = w.contractAddress := rfl
  rcases World.invoke_create_alike o hcontract rfl rfl hauth with
    ⟨failure, hw, hrebooked⟩ | ⟨next, hw, hrebooked⟩
  · rw [hw] at h
    cases h
    exact hrebooked
  · rw [hw] at h
    rw [hrebooked]
    unfold Opening.funded at h ⊢
    rw [World.rebook_balance, World.rebook_contractAddress, Env.retell_answers]
    cases hbook : env.token o.token (w.balance o.token) o.sender w.contractAddress
        o.totalAmount with
    | none =>
      rw [hbook] at h
      cases h
      rfl
    | some book =>
      rw [hbook] at h
      cases h
      rfl

theorem World.invoke_view_retell {call : Call Address} (hview : call.isView = true)
    (h : w.invoke env call = (receipt, w')) (b : Address → Address → ℤ)
    (granted : Address → Address → Address → I128 → Bool) :
    (w.rebook b).invoke (env.retell granted) call =
      (receipt, w'.rebook (post b receipt.transfers)) := by
  have hends := Call.view_blind (p := fun _ => True) hview (fun _ _ => trivial) env
    (env.retell granted) ⟨w, [], []⟩ ⟨w.rebook b, [], []⟩
    ⟨⟨rfl, rfl, fun _ _ => rfl, rfl⟩, rfl, rfl⟩
  unfold World.invoke at h ⊢
  cases hrun : call.run env ⟨w, [], []⟩ with
  | error failure frame =>
    cases hrun' : call.run (env.retell granted) ⟨w.rebook b, [], []⟩ with
    | error failure' frame' =>
      rw [hrun, hrun'] at hends
      cases hends
      rw [hrun] at h
      cases h
      rfl
    | ok response frame' =>
      rw [hrun, hrun'] at hends
      cases hends
  | ok response frame =>
    cases hrun' : call.run (env.retell granted) ⟨w.rebook b, [], []⟩ with
    | error failure frame' =>
      rw [hrun, hrun'] at hends
      cases hends
    | ok response' frame' =>
      rw [hrun, hrun'] at hends
      cases hends with
      | ok _ hvalue =>
      subst hvalue
      rw [hrun] at h
      cases h
      have hframe := Call.view_run hview hrun
      have hframe' := Call.view_run hview hrun'
      cases hloads : call.loads with
      | none =>
        rw [hloads] at hframe hframe'
        subst hframe hframe'
        rfl
      | some id =>
        rw [hloads] at hframe hframe'
        subst hframe hframe'
        rfl

/-- A call is answered and committed alike on other balances by tokens that answer as
they do here. -/
theorem World.invoke_retell {call : Call Address} (h : w.invoke env call = (receipt, w'))
    (b : Address → Address → ℤ) :
    (w.rebook b).invoke (env.retell (env.answers w)) call =
      (receipt, w'.rebook (post b receipt.transfers)) := by
  cases call with
  | createStream sender recipient token totalAmount startTime endTime cliffTime =>
    exact invoke_create_retell (o := ⟨sender, recipient, token, totalAmount, startTime, endTime,
      cliffTime⟩) h b
  | withdraw id => exact invoke_op_retell .withdraw h b
  | withdrawAmount id amount => exact invoke_op_retell (.withdrawAmount amount) h b
  | cancel id => exact invoke_op_retell .cancel h b
  | _ => exact invoke_view_retell rfl h b _

/-- A step of the ordinary host can be taken on other balances too, and a token that is
exact in it changes what the contract holds alike. -/
theorem Step.retell {l : Label Address} (h : Step w l w') (b : Address → Address → ℤ) :
    ∃ l' b', l.Retold l' ∧ Step (w.rebook b) l' (w'.rebook b') ∧
      ∀ token, l.ExactFor token w.contractAddress →
        b' token w.contractAddress - b token w.contractAddress =
          w'.balance token w.contractAddress - w.balance token w.contractAddress := by
  cases h with
  | @clock timestamp sequence htime hsequence =>
    refine ⟨_, b, .clock timestamp sequence, .clock htime hsequence, fun token _ => ?_⟩
    rw [sub_self]
    exact (sub_self _).symm
  | @call _ env call receipt hinvoke =>
    refine ⟨_, _, .call call receipt (env.retold_retell (env.answers w)),
      .call (World.invoke_retell hinvoke b), fun token hexact => ?_⟩
    rw [World.invoke_post hinvoke hexact]
    exact post_sub receipt.transfers b w.balance token w.contractAddress
  | @credited env token source amount book hsource hamount hbook =>
    have hanswer : (env.retell (env.answers w)).token token (b token) source w.contractAddress
        amount = some (Pool.move (b token) source w.contractAddress amount.toInt) := by
      rw [Env.retell_answers, hbook, Option.map_some]
    refine ⟨_, Function.update b token (Pool.move (b token) source w.contractAddress amount.toInt),
      .deposit token source amount true (env.retold_retell (env.answers w)),
      .credited hsource hamount hanswer, fun t hexact => ?_⟩
    by_cases ht : t = token
    · subst ht
      have hmove := TokenTransfer.Exact.eq_move (hexact rfl) hbook
      change Function.update b t _ t _ - _ = Function.update w.balance t book t _ - _
      rw [Function.update_self, Function.update_self, hmove, Pool.move_target _ hsource.symm,
        Pool.move_target _ hsource.symm]
      omega
    · change Function.update b token _ t _ - _ = Function.update w.balance token book t _ - _
      rw [Function.update_of_ne ht, Function.update_of_ne ht, sub_self, sub_self]
  | @refused env token source amount hbook =>
    have hanswer : (env.retell (env.answers w)).token token (b token) source w.contractAddress
        amount = none := by
      rw [Env.retell_answers, hbook, Option.map_none]
    refine ⟨_, b, .deposit token source amount false (env.retold_retell (env.answers w)),
      .refused hanswer, fun _ _ => ?_⟩
    rw [sub_self, sub_self]
  | @bookkeeping token act =>
    refine ⟨_, Function.update b token (act (b token)), .bookkeeping token act, .bookkeeping,
      fun t hexact => ?_⟩
    by_cases ht : t = token
    · subst ht
      change Function.update b t _ t _ - _ = Function.update w.balance t _ t _ - _
      rw [Function.update_self, Function.update_self, hexact rfl, hexact rfl, sub_self, sub_self]
    · change Function.update b token _ t _ - _ = Function.update w.balance token _ t _ - _
      rw [Function.update_of_ne ht, Function.update_of_ne ht, sub_self, sub_self]

/-- A settling call that has reached its token is done, once the token grants it. -/
theorem StreamOp.begin_retell {op : StreamOp} {id : UInt64} {pending : Pending Address}
    {frame : Frame Address} (h : op.begin env id ⟨w, [], []⟩ = .ok pending frame)
    (b : Address → Address → ℤ) :
    (w.rebook b).invoke (env.retell fun _ _ _ _ => true) (op.call id) =
      (⟨w.timestamp, .ok (.amount pending.amount), pending.transfer.toList, [pending.event]⟩,
        frame.world.rebook (post b pending.transfer.toList)) := by
  rw [op.begin_run] at h
  rw [World.invoke_op, World.rebook_streams, World.rebook_timestamp]
  cases hstream : w.streams id with
  | none => simp [hstream] at h
  | some stream =>
    by_cases hauth : env.authorized (op.party stream) = true
    · have hretold : (env.retell fun _ _ _ _ => true).authorized (op.party stream) = true := hauth
      simp only [hstream, if_pos hauth, if_pos hretold] at h ⊢
      cases hsettle : op.settle w.timestamp id stream with
      | error e => simp [hsettle] at h
      | ok z =>
        rw [hsettle] at h
        cases h
        unfold Settled.paid Settled.pending
        dsimp only
        split_ifs <;> rfl
    · simp [hstream, hauth] at h

theorem World.finished_retell {o : Opening Address} {nextId : UInt64}
    (hauth : env.authorized o.sender = true) (hvalid : o.Valid w.contractAddress w.timestamp)
    (hnext : nextId.toNat = (w.streamCount.getD 0).toNat + 1) (b : Address → Address → ℤ) :
    (w.rebook b).invoke (env.retell fun _ _ _ _ => true) o.call =
      (⟨w.timestamp, .ok (.id (w.streamCount.getD 0)),
          [⟨o.token, o.sender, w.contractAddress, o.totalAmount⟩],
          [.created (o.created (w.streamCount.getD 0))]⟩,
        (w.finished env o (w.streamCount.getD 0) nextId).rebook
          (post b [⟨o.token, o.sender, w.contractAddress, o.totalAmount⟩])) := by
  have hretold : (env.retell fun _ _ _ _ => true).authorized o.sender = true := hauth
  rw [World.invoke_create, if_pos hretold, World.rebook_contractAddress, World.rebook_timestamp,
    World.rebook_streamCount, o.check_of_valid hvalid, U64.checkedAdd_eq_some_iff.mpr hnext]
  rfl

end Retell

/-! ### The invariant -/

/-- A creation that waits for its funding was authorized. -/
def Suspended.Granted (p : Suspended Address) : Prop :=
  match p.rest with
  | .settling _ => True
  | .opening o _ _ => p.env.authorized o.sender = true

/-- The log since `start` can be told as a run from `w`. Of a token that is exact that
run leaves the contract what it holds here, less what suspended calls have set aside. -/
structure Linear (w : World Address) (start : List (Label Address)) (exact : Address → Prop)
    (ps : List (Suspended Address)) (m : Moment Address) : Prop where
  granted : ∀ p ∈ ps, p.Granted
  told : ∃ new labels balance, m.log = start ++ new ∧ List.Forall₂ Label.Retold new labels ∧
    Run Step w labels (m.world.rebook balance) ∧
    ∀ token, exact token → balance token m.world.contractAddress + reserves token ps =
      m.world.balance token m.world.contractAddress

namespace Linear

variable {w : World Address} {start : List (Label Address)} {exact : Address → Prop}
  {ps ps' : List (Suspended Address)} {p p' : Suspended Address} {m m' : Moment Address}
  {i : Interaction Address}

/-- Nothing is logged: what the contract holds of a token and what is set aside of it
change by the same amount. -/
theorem wait (h : Linear w start exact ps m) (moved : Address → Address → ℤ)
    (hgranted : ∀ p ∈ ps', p.Granted) (hlog : m'.log = m.log)
    (hworld : m'.world = m.world.rebook moved)
    (hexact : ∀ token, exact token → moved token m.world.contractAddress + reserves token ps =
      m.world.balance token m.world.contractAddress + reserves token ps') :
    Linear w start exact ps' m' := by
  obtain ⟨new, labels, balance, hnew, hretold, hrun, hbalance⟩ := h.told
  refine ⟨hgranted, new, labels, balance, hlog.trans hnew, hretold, ?_, fun token htoken => ?_⟩
  · rw [hworld]
    exact hrun
  · have hbefore := hbalance token htoken
    have hmoved := hexact token htoken
    rw [hworld]
    change balance token m.world.contractAddress + _ = moved token m.world.contractAddress
    omega

theorem log (h : Linear w start exact ps m) (hgranted : ∀ p ∈ ps', p.Granted)
    {next : World Address} {l : Label Address}
    (hnext : next.contractAddress = m.world.contractAddress)
    (hstep : ∀ b, ∃ l' b', l.Retold l' ∧ Step (m.world.rebook b) l' (next.rebook b') ∧
      ∀ token, exact token → b' token m.world.contractAddress + reserves token ps' +
          m.world.balance token m.world.contractAddress =
        b token m.world.contractAddress + reserves token ps +
          next.balance token m.world.contractAddress) :
    Linear w start exact ps' (m.logged next l) := by
  obtain ⟨new, labels, balance, hnew, hretold, hrun, hbalance⟩ := h.told
  obtain ⟨l', balance', hl, hlast, hbalance'⟩ := hstep balance
  refine ⟨hgranted, new ++ [l], labels ++ [l'], balance', ?_, ?_, hrun.snoc hlast,
    fun token htoken => ?_⟩
  · rw [Moment.logged, hnew, List.append_assoc]
  · exact List.rel_append hretold (.cons hl .nil)
  · have hbefore := hbalance token htoken
    have hafter := hbalance' token htoken
    rw [Moment.logged, hnext]
    change _ = next.balance token m.world.contractAddress
    omega

variable {w₀ : World Address}

theorem act (hsteady : Steady w₀ start exact ps m)
    (hfresh : Fresh w₀) (hi : ∀ token, exact token → i.ExactFor token w₀.contractAddress)
    (h : Linear w start exact ps m) (hacts : Acts ps m i m') : Linear w start exact ps m' := by
  cases hacts with
  | refused => exact h
  | @ordinary l next hstep haside =>
    have hsound := hsteady.sequential.sound hfresh
    have hcontract := hsteady.sequential.contractAddress_eq hfresh
    refine h.log h.granted (hstep.change hsound).contractAddress_eq fun b => ?_
    obtain ⟨l', b', hretold, hstep', hbalance⟩ := hstep.retell b
    refine ⟨l', b', hretold, hstep', fun token htoken => ?_⟩
    have hexact : l.ExactFor token m.world.contractAddress := hcontract ▸ hi token htoken
    have hchange := hbalance token hexact
    omega

theorem enter (hsteady : Steady w₀ start exact ps m) (hfresh : Fresh w₀)
    (h : Linear w start exact ps m) (henters : Enters m ps i p m') :
    Linear w start exact (p :: ps) m' := by
  cases henters with
  | @settling _ env op id pending frame hbegin =>
    have hsound := hsteady.sequential.sound hfresh
    obtain ⟨stream, z, hstream, _, hpending, hworld⟩ := hsound.begin_ok hbegin
    have hgranted : ∀ q ∈ (⟨env, pending.transfer, .settling pending⟩ : Suspended Address) :: ps,
        q.Granted := List.forall_mem_cons.mpr ⟨trivial, h.granted⟩
    have hnext : frame.world.contractAddress = m.world.contractAddress := by
      rw [hworld]
      rfl
    have hbooks : frame.world.balance = m.world.balance := by
      rw [hworld]
      rfl
    refine h.log hgranted hnext fun b => ?_
    refine ⟨_, _, .call (op.call id) _ (env.retold_retell fun _ _ _ _ => true),
      .call (StreamOp.begin_retell hbegin b), fun token _ => ?_⟩
    rw [hbooks, reserves_cons, hpending]
    simp only [Option.toList_some, Suspended.reserve]
    by_cases ht : stream.token = token
    · subst ht
      change Function.update b stream.token (Pool.move (b stream.token) m.world.contractAddress
        (op.party stream) z.amount.toInt) stream.token m.world.contractAddress + _ + _ = _
      rw [Function.update_self, Pool.move_source _ (hsound.party_ne hstream op), if_pos rfl]
      omega
    · change Function.update b stream.token _ token _ + _ + _ = _
      rw [Function.update_of_ne (Ne.symm ht), if_neg ht, zero_add]
  | @opening env o id nextId frame hbegin =>
    have hauth : env.authorized o.sender = true := by
      by_contra hauth
      rw [o.begin_run, if_neg hauth] at hbegin
      cases hbegin
    obtain ⟨_, _, _, hworld⟩ := Opening.begin_ok hbegin
    refine h.wait m.world.balance (List.forall_mem_cons.mpr ⟨hauth, h.granted⟩) rfl hworld
      fun token _ => ?_
    simp [Suspended.reserve]

theorem progress (hsteady : Steady w₀ start exact (p :: ps) m)
    (hi : ∀ token, exact token → i.ExactFor token w₀.contractAddress)
    (h : Linear w start exact (p :: ps) m) (hmoves : Moves m p i p' m') :
    Linear w start exact (p' :: ps) m' := by
  cases hmoves with
  | @moved env t rest book hbook =>
    obtain ⟨hp, hps⟩ := List.forall_mem_cons.mp h.granted
    refine h.wait (Function.update m.world.balance t.token book)
      (List.forall_mem_cons.mpr ⟨hp, hps⟩) rfl rfl fun token htoken => ?_
    have hfits := hsteady.fits
    simp only [reserves_cons]
    by_cases ht : t.token = token
    · subst ht
      have hmove := TokenTransfer.Exact.eq_move (hi _ htoken) hbook
      rw [Function.update_self, hmove]
      cases hfits with
      | owing hsource htarget _ _ =>
        rw [hsource, Pool.move_source _ htarget]
        simp only [Suspended.reserve, if_true]
        omega
      | unfunded hvalid _ _ =>
        rw [Pool.move_target _ hvalid.sender_ne.symm]
        simp only [Suspended.reserve, if_true]
        omega
    · rw [Function.update_of_ne (Ne.symm ht)]
      cases hfits with
      | owing _ _ _ _ => simp only [Suspended.reserve, if_neg ht]
      | unfunded _ _ _ => simp only [Suspended.reserve, if_neg ht]

theorem leave (hsteady : Steady w₀ start exact (p :: ps) m)
    (h : Linear w start exact (p :: ps) m) (hleaves : Leaves m p i m') :
    Linear w start exact ps m' := by
  obtain ⟨hp, hps⟩ := List.forall_mem_cons.mp h.granted
  have hfits := hsteady.fits
  cases hleaves with
  | settled hfinish =>
    rw [Pending.finish_run] at hfinish
    cases hfinish
    refine h.wait m.world.balance hps rfl rfl fun token _ => ?_
    simp [Suspended.reserve]
  | @opened env o id nextId created frame hfinish =>
    rw [Opening.finish_run] at hfinish
    cases hfinish
    cases hfits with
    | funded hvalid hid hnext =>
    subst hid
    refine h.log hps rfl fun b => ?_
    refine ⟨_, _, .call o.call _ (env.retold_retell fun _ _ _ _ => true),
      .call (World.finished_retell hp hvalid hnext b), fun token _ => ?_⟩
    simp only [reserves_cons, reserves_nil, Suspended.reserve]
    by_cases ht : o.token = token
    · subst ht
      change Function.update b o.token (Pool.move (b o.token) o.sender m.world.contractAddress
        o.totalAmount.toInt) o.token m.world.contractAddress + _ + _ = _ + _ + m.world.balance _ _
      rw [Function.update_self, Pool.move_target _ hvalid.sender_ne.symm, if_pos rfl]
      omega
    · change Function.update b o.token _ token _ + _ + _ = _ + _ + m.world.balance _ _
      rw [Function.update_of_ne (Ne.symm ht), if_neg ht, zero_add]

end Linear

theorem linear_keeps {w₀ : World Address} (hfresh : Fresh w₀) (w : World Address)
    (start : List (Label Address)) (exact : Address → Prop) : reentrant.Keeps
      (fun i => ∀ token, exact token → i.ExactFor token w₀.contractAddress)
      (fun ps m => Steady w₀ start exact ps m ∧ Linear w start exact ps m) where
  act := fun hi h hacts => ⟨h.1.act hfresh hi hacts, h.2.act h.1 hfresh hi hacts⟩
  enter := fun _ h henters => ⟨h.1.enter hfresh henters, h.2.enter h.1 hfresh henters⟩
  progress := fun hi h hmoves => ⟨h.1.progress hi hmoves, h.2.progress h.1 hi hmoves⟩
  leave := fun _ h hleaves => ⟨h.1.leave hfresh hleaves, h.2.leave h.1 hleaves⟩

theorem Linear.start (w : World Address) (ls : List (Label Address)) (exact : Address → Prop) :
    Linear w ls exact [] ⟨w, ls⟩ := by
  refine ⟨fun _ hp => absurd hp List.not_mem_nil, [], [], w.balance, ?_, .nil, .nil, ?_⟩
  · exact (List.append_nil ls).symm
  · intro token _
    exact add_zero _

/-- Executions with callbacks linearize. At every moment of an execution in which tokens
call back into the contract, what has been logged since its start is, but for how the
tokens behaved, a run of the ordinary host that reaches the same ledger: the same calls,
in the order of their writes, with the same results, payments and events. A token that
is exact throughout leaves the contract the same, once what suspended calls have still
set aside is taken off. -/
theorem executions_linearize {w₀ w : World Address} {ls : List (Label Address)}
    (hfresh : Fresh w₀) (hrun : Run Step w₀ ls w) {is : List (Interaction Address)}
    {c : Execution Address}
    (hexecution : Run (Callbacks.Step reentrant) (.idle ⟨w, ls⟩) is c) :
    ∃ new labels balance, c.state.log = ls ++ new ∧ List.Forall₂ Label.Retold new labels ∧
      Run Step w labels (c.state.world.rebook balance) ∧
      ∀ token, ExactThroughout w₀.contractAddress ls is token →
        balance token c.state.world.contractAddress + reserves token (c.levels.map Level.pending) =
          c.state.world.balance token c.state.world.contractAddress := by
  have hlinear := (linear_keeps hfresh w ls _).holds hexecution
    (fun i hi token htoken => htoken.2 i hi)
    ⟨hfresh.steady hrun is, Linear.start w ls (ExactThroughout w₀.contractAddress ls is)⟩
  exact hlinear.2.told

theorem executions_linearize_nested : ∃ (c : Execution ℕ) (labels : List (Label ℕ))
    (balance : ℕ → ℕ → ℤ),
    c.state.world.streams 0 = some (Sample.opening.stream.pay (Sample.units 40)) ∧
      Run Step Sample.later labels (c.state.world.rebook balance) ∧
      balance 9 c.state.world.contractAddress =
        c.state.world.balance 9 c.state.world.contractAddress := by
  obtain ⟨c, hexecution, hidle, hstream⟩ := Sample.nestedWithdrawal_execution
  obtain ⟨_, labels, balance, _, _, hrun, hbalance⟩ :=
    executions_linearize Sample.genesis_fresh (Sample.opened_run.append Sample.later_run) hexecution
  have hholds := hbalance 9 (Sample.nestedWithdrawal_exact 9)
  rw [hidle, List.map_nil, reserves_nil, add_zero] at hholds
  exact ⟨c, labels, balance, hstream, hrun, hholds⟩

end TricklePay
