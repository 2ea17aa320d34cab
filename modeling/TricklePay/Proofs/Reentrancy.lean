import TricklePay.Proofs.Sequential
import TricklePay.Proofs.Solvency
import TricklePay.Model.Reentrant

/-!
# Callbacks from tokens

A settling call writes its record before it calls its token. So a host that lets
tokens call back does no harm: at every moment the log reads as a sequential run,
and what suspended calls still have to move is set aside.
-/

namespace TricklePay

open Checked Transition Callbacks

variable {Address : Type}

/-! ### Suspended calls -/

/-- What the suspended calls have in hand agrees with the ledger. A creation can only
be the outermost of them, and nobody has taken the id it reserved. -/
inductive Fits (w : World Address) : List (Suspended Address) → Prop
  | nil : Fits w []
  | owing {env : Env Address} {t : Transfer Address} {pending : Pending Address}
      {ps : List (Suspended Address)} (hsource : t.source = w.contractAddress)
      (htarget : t.target ≠ w.contractAddress) (hamount : 0 ≤ t.amount.toInt) (h : Fits w ps) :
      Fits w (⟨env, some t, .settling pending⟩ :: ps)
  | paid {env : Env Address} {pending : Pending Address} {ps : List (Suspended Address)}
      (h : Fits w ps) : Fits w (⟨env, none, .settling pending⟩ :: ps)
  | unfunded {env : Env Address} {o : Opening Address} {id nextId : UInt64}
      (hvalid : o.Valid w.contractAddress w.timestamp) (hid : w.streamCount.getD 0 = id)
      (hnext : nextId.toNat = id.toNat + 1) :
      Fits w [⟨env, some ⟨o.token, o.sender, w.contractAddress, o.totalAmount⟩,
        .opening o id nextId⟩]
  | funded {env : Env Address} {o : Opening Address} {id nextId : UInt64}
      (hvalid : o.Valid w.contractAddress w.timestamp) (hid : w.streamCount.getD 0 = id)
      (hnext : nextId.toNat = id.toNat + 1) : Fits w [⟨env, none, .opening o id nextId⟩]

theorem Fits.frame {w w' : World Address} {ps : List (Suspended Address)} (h : Fits w ps)
    (hcontract : w'.contractAddress = w.contractAddress) (htime : w'.timestamp = w.timestamp)
    (hcount : w'.streamCount = w.streamCount) : Fits w' ps := by
  induction h with
  | nil => exact .nil
  | owing hsource htarget hamount _ ih =>
    rw [← hcontract] at hsource htarget
    exact .owing hsource htarget hamount ih
  | paid _ ih => exact .paid ih
  | unfunded hvalid hid hnext =>
    rw [← hcontract, ← htime] at hvalid
    rw [← hcount] at hid
    rw [← hcontract]
    exact .unfunded hvalid hid hnext
  | funded hvalid hid hnext =>
    rw [← hcontract, ← htime] at hvalid
    rw [← hcount] at hid
    exact .funded hvalid hid hnext

theorem Pending.finish_run (p : Pending Address) (frame : Frame Address) :
    p.finish frame = .ok p.amount { frame with events := frame.events ++ [p.event] } := rfl

variable [DecidableEq Address]

/-- How much of what the contract holds of `token` a suspended call has set aside: what
it still has to pay, or what has arrived to fund a stream not yet stored. -/
def Suspended.reserve (token : Address) (p : Suspended Address) : ℤ :=
  match p.rest, p.owed with
  | .settling _, some t => if t.token = token then t.amount.toInt else 0
  | .opening o _ _, none => if o.token = token then o.totalAmount.toInt else 0
  | _, _ => 0

def reserves (token : Address) (ps : List (Suspended Address)) : ℤ :=
  (ps.map (Suspended.reserve token)).sum

@[simp] theorem reserves_nil (token : Address) : reserves token [] = 0 := rfl

@[simp] theorem reserves_cons (token : Address) (p : Suspended Address)
    (ps : List (Suspended Address)) :
    reserves token (p :: ps) = p.reserve token + reserves token ps := by
  simp [reserves]

theorem Fits.reserves_nonneg {w : World Address} {ps : List (Suspended Address)} (h : Fits w ps)
    (token : Address) : 0 ≤ reserves token ps := by
  induction h with
  | nil => exact le_rfl
  | @owing env t pending ps _ _ hamount _ ih =>
    simp only [reserves_cons, Suspended.reserve]
    split_ifs <;> omega
  | paid _ ih => simpa [Suspended.reserve] using ih
  | unfunded => simp [Suspended.reserve]
  | @funded env o id nextId hvalid _ _ =>
    have hpos := hvalid.total_pos
    simp only [reserves_cons, reserves_nil, Suspended.reserve]
    split_ifs <;> omega

/-! ### The parts of the calls -/

/-- What a settling call has done when it reaches its token. -/
theorem World.Sound.begin_ok {w : World Address} (hw : w.Sound) {env : Env Address}
    {op : StreamOp} {id : UInt64} {pending : Pending Address} {frame : Frame Address}
    (h : op.begin env id ⟨w, [], []⟩ = .ok pending frame) :
    ∃ stream z, w.streams id = some stream ∧ op.Outcome w.timestamp id stream z ∧
      pending = ⟨some ⟨stream.token, w.contractAddress, op.party stream, z.amount⟩, z.event,
        z.amount⟩ ∧
      frame.world = (w.refreshed env id).stored env id z.stream := by
  rw [op.begin_run] at h
  cases hstream : w.streams id with
  | none => simp [hstream] at h
  | some stream =>
    by_cases hauth : env.authorized (op.party stream) = true
    · simp only [hstream, if_pos hauth] at h
      cases hsettle : op.settle w.timestamp id stream with
      | error e => simp [hsettle] at h
      | ok z =>
        have hformed := hw.records id stream hstream
        have houtcome := op.settle_outcome hformed hsettle
        have hpos : 0 < z.amount := houtcome.amount_pos hformed
        rw [hsettle] at h
        cases h
        refine ⟨stream, z, rfl, houtcome, ?_, rfl⟩
        rw [Settled.pending, if_pos hpos]
    · simp [hstream, hauth] at h

/-- What a creation knows when it reaches its token; it has changed nothing. -/
theorem Opening.begin_ok {w : World Address} {env : Env Address} {o : Opening Address}
    {id nextId : UInt64} {frame : Frame Address}
    (h : o.begin env ⟨w, [], []⟩ = .ok (id, nextId) frame) :
    o.Valid w.contractAddress w.timestamp ∧ w.streamCount.getD 0 = id ∧
      nextId.toNat = id.toNat + 1 ∧ frame.world = w := by
  rw [o.begin_run] at h
  by_cases hauth : env.authorized o.sender = true
  · simp only [if_pos hauth] at h
    cases hcheck : o.check w.contractAddress w.timestamp with
    | error e => simp [hcheck] at h
    | ok =>
      cases hnext : U64.checkedAdd (w.streamCount.getD 0) 1 with
      | none => simp [hcheck, hnext] at h
      | some next =>
        rw [hcheck, hnext] at h
        cases h
        exact ⟨o.valid_of_check hcheck, rfl, U64.checkedAdd_eq_some_iff.mp hnext, rfl⟩
  · simp [hauth] at h

/-- What third parties do while a call is suspended leaves the contract as it is. -/
theorem Step.aside_frame {w w' : World Address} {l : Label Address} (h : Step w l w')
    (haside : l.isAside = true) : w'.contractAddress = w.contractAddress ∧
      w'.timestamp = w.timestamp ∧ w'.streamCount = w.streamCount := by
  cases h with
  | clock => cases haside
  | credited => exact ⟨rfl, rfl, rfl⟩
  | refused => exact ⟨rfl, rfl, rfl⟩
  | bookkeeping => exact ⟨rfl, rfl, rfl⟩
  | call hinvoke =>
    cases World.view_effect haside hinvoke with
    | rejected _ _ hworld =>
      subst hworld
      exact ⟨rfl, rfl, rfl⟩
    | viewed _ _ _ _ hworld =>
      subst hworld
      exact ⟨rfl, rfl, rfl⟩
    | opened _ _ _ hcall =>
      subst hcall
      cases haside
    | settled op _ _ _ hcall =>
      subst hcall
      cases op <;> cases haside

/-! ### The invariant -/

/-- What holds at every moment, whatever is suspended: the log reads as a sequential
run and only grows, and of the tokens that are exact enough is left for what the
streams hold and what is set aside. -/
structure Steady (w₀ : World Address) (start : List (Label Address)) (exact : Address → Prop)
    (ps : List (Suspended Address)) (m : Moment Address) : Prop where
  sequential : Sequential w₀ m.log m.world
  extends_start : start <+: m.log
  fits : Fits m.world ps
  covered : ∀ token, exact token → reserves token ps ≤ m.world.surplus token

namespace Steady

variable {w₀ : World Address} {start : List (Label Address)} {exact : Address → Prop}
  {ps : List (Suspended Address)} {p p' : Suspended Address} {m m' : Moment Address}
  {i : Interaction Address}

theorem act (hfresh : Fresh w₀)
    (hi : ∀ token, exact token → i.ExactFor token w₀.contractAddress)
    (h : Steady w₀ start exact ps m) (hacts : Acts ps m i m') : Steady w₀ start exact ps m' := by
  cases hacts with
  | refused => exact h
  | @ordinary l w hstep haside =>
    have hsound := h.sequential.sound hfresh
    have hcontract := h.sequential.contractAddress_eq hfresh
    refine ⟨h.sequential.step hfresh hstep, h.extends_start.trans (List.prefix_append _ _), ?_, ?_⟩
    · rcases haside with hnone | haside
      · rw [hnone]
        exact .nil
      · obtain ⟨hcontract', htime, hcount⟩ := hstep.aside_frame haside
        exact h.fits.frame hcontract' htime hcount
    · intro token htoken
      have hexact : l.ExactFor token m.world.contractAddress := hcontract ▸ hi token htoken
      have hsurplus := (hstep.change hsound).surplus_eq hsound hexact
      have hcovered := h.covered token htoken
      have hnonneg := transferredIn_nonneg (.single hstep) token
      simp only [transferredIn, List.map_cons, List.map_nil, List.sum_singleton] at hnonneg
      change _ ≤ w.surplus token
      omega

theorem enter (hfresh : Fresh w₀) (h : Steady w₀ start exact ps m) (henters : Enters m ps i p m') :
    Steady w₀ start exact (p :: ps) m' := by
  have hsound := h.sequential.sound hfresh
  cases henters with
  | @settling _ env op id pending frame hbegin =>
    obtain ⟨stream, z, hstream, houtcome, rfl, hworld⟩ := hsound.begin_ok hbegin
    have hformed := hsound.records id stream hstream
    refine ⟨?_, h.extends_start.trans (List.prefix_append _ _), ?_, ?_⟩
    · apply h.sequential.settled hfresh hstream houtcome rfl rfl <;> rw [Moment.logged, hworld] <;>
        rfl
    · apply Fits.owing
      · rw [Moment.logged, hworld]
        rfl
      · rw [Moment.logged, hworld]
        exact hsound.party_ne hstream op
      · exact (houtcome.amount_pos hformed).le
      · apply h.fits.frame <;> rw [Moment.logged, hworld] <;> rfl
    · intro token htoken
      have hcovered := h.covered token htoken
      have hstored := houtcome.surplus_stored hformed hstream env token
      rw [Moment.logged, hworld, reserves_cons]
      simp only [Suspended.reserve]
      omega
  | opening hbegin =>
    obtain ⟨hvalid, hid, hnext, hworld⟩ := Opening.begin_ok hbegin
    rw [hworld]
    refine ⟨h.sequential, h.extends_start, .unfunded hvalid hid hnext, ?_⟩
    intro token htoken
    have hcovered := h.covered token htoken
    simpa [Suspended.reserve] using hcovered

theorem progress (hi : ∀ token, exact token → i.ExactFor token w₀.contractAddress)
    (h : Steady w₀ start exact (p :: ps) m) (hmoves : Moves m p i p' m') :
    Steady w₀ start exact (p' :: ps) m' := by
  cases hmoves with
  | @moved env t rest book hbook =>
    have hfits := h.fits
    refine ⟨h.sequential.alike ⟨rfl, rfl, rfl, rfl⟩, h.extends_start, ?_, ?_⟩
    · cases hfits with
      | owing _ _ _ hrest => exact .paid (hrest.frame rfl rfl rfl)
      | unfunded hvalid hid hnext => exact .funded hvalid hid hnext
    · intro token htoken
      have hcovered := h.covered token htoken
      have hexact : (env.token token).Exact := hi token htoken
      rw [World.surplus_setBook]
      rw [reserves_cons] at hcovered ⊢
      by_cases ht : t.token = token
      · subst ht
        have hmove := TokenTransfer.Exact.eq_move hexact hbook
        cases hfits with
        | owing hsource htarget _ _ =>
          rw [hsource] at hmove
          rw [hmove, if_pos rfl, Pool.move_source _ htarget]
          simp only [Suspended.reserve, if_true] at hcovered ⊢
          omega
        | unfunded hvalid _ _ =>
          rw [hmove, if_pos rfl, Pool.move_target _ hvalid.sender_ne.symm]
          simp only [Suspended.reserve, if_true] at hcovered ⊢
          omega
      · rw [if_neg ht]
        cases hfits with
        | owing _ _ _ _ =>
          simp only [Suspended.reserve, if_neg ht] at hcovered ⊢
          omega
        | unfunded _ _ _ =>
          simp only [Suspended.reserve, if_neg ht] at hcovered ⊢
          omega

theorem leave (hfresh : Fresh w₀) (h : Steady w₀ start exact (p :: ps) m)
    (hleaves : Leaves m p i m') : Steady w₀ start exact ps m' := by
  have hfits := h.fits
  cases hleaves with
  | settled hfinish =>
    rw [Pending.finish_run] at hfinish
    cases hfinish
    cases hfits with
    | paid hrest =>
    refine ⟨h.sequential, h.extends_start, hrest, ?_⟩
    intro token htoken
    have hcovered := h.covered token htoken
    simpa [Suspended.reserve] using hcovered
  | @opened env o id nextId created frame hfinish =>
    rw [Opening.finish_run] at hfinish
    cases hfinish
    cases hfits with
    | funded hvalid hid hnext =>
    subst hid
    have hfree := (h.sequential.sound hfresh).next_id_free
    refine ⟨?_, h.extends_start.trans (List.prefix_append _ _), .nil, ?_⟩
    · exact h.sequential.opened hvalid hnext rfl rfl rfl rfl rfl rfl
    · intro token htoken
      have hcovered := h.covered token htoken
      have hsurplus := m.world.surplus_finished env o nextId hfree token
      rw [o.holds_eq] at hsurplus
      simp only [reserves_cons, reserves_nil, Suspended.reserve] at hcovered
      change 0 ≤ (m.world.finished env o (m.world.streamCount.getD 0) nextId).surplus token
      omega

end Steady

theorem steady_keeps {w₀ : World Address} (hfresh : Fresh w₀) (start : List (Label Address))
    (exact : Address → Prop) : reentrant.Keeps
      (fun i => ∀ token, exact token → i.ExactFor token w₀.contractAddress)
      (Steady w₀ start exact) where
  act := fun hi h hacts => h.act hfresh hi hacts
  enter := fun _ h henters => h.enter hfresh henters
  progress := fun hi h hmoves => h.progress hi hmoves
  leave := fun _ h hleaves => h.leave hfresh hleaves

/-! ### Calls without callbacks -/

section Plain

variable {w w' : World Address} {env : Env Address} {receipt : Receipt Address}
  {response : Response Address} {log : List (Label Address)}

theorem Enters.step {m m' : Moment Address} {i : Interaction Address} {p : Suspended Address}
    (h : Enters m [] i p m') : Callbacks.Step reentrant (.idle m) i ⟨m', [⟨p, m⟩]⟩ :=
  .enter h

/-- A settling call whose token does not call back does what it does on the ordinary host. -/
theorem World.Sound.op_execution (hw : w.Sound) {op : StreamOp} {id : UInt64}
    (hinvoke : w.invoke env (op.call id) = (receipt, w'))
    (hresult : receipt.result = .ok response) :
    Run (Callbacks.Step reentrant) (.idle ⟨w, log⟩)
      [.entered env op id, .moved env, .returned]
      (.idle ⟨w', log ++ [.call env (op.call id) receipt]⟩) := by
  obtain ⟨stream, z, book, hsettles⟩ := hw.op_ok hinvoke hresult
  obtain ⟨hstream, hauth, houtcome, hbook, rfl, rfl⟩ := hsettles
  have hformed := hw.records id stream hstream
  have hpos : 0 < z.amount := houtcome.amount_pos hformed
  have hbegin : op.begin env id ⟨w, [], []⟩ =
      .ok ⟨some ⟨stream.token, w.contractAddress, op.party stream, z.amount⟩, z.event, z.amount⟩
        ⟨(w.refreshed env id).stored env id z.stream, [], []⟩ := by
    rw [op.begin_run, hstream]
    simp only [if_pos hauth, houtcome.settle_eq hformed, Settled.pending, if_pos hpos]
    rfl
  have hentered := (Enters.settling (m := ⟨w, log⟩) hbegin).step
  exact ((Run.nil.snoc hentered).snoc (.progress (.moved hbook))).snoc (.leave (.settled rfl))

theorem World.create_execution {o : Opening Address}
    (hinvoke : w.invoke env o.call = (receipt, w')) (hresult : receipt.result = .ok response) :
    Run (Callbacks.Step reentrant) (.idle ⟨w, log⟩) [.opening env o, .moved env, .returned]
      (.idle ⟨w', log ++ [.call env o.call receipt]⟩) := by
  cases World.create_effect hinvoke with
  | rejected _ hreceipt _ =>
    rw [hreceipt] at hresult
    cases hresult
  | viewed _ _ hcall _ _ => cases hcall
  | settled op _ _ _ hcall _ _ _ _ => cases op <;> cases hcall
  | opened o' next book hcall hauth hvalid hnext hbook hreceipt hworld =>
    obtain rfl := Opening.call_inj hcall
    subst hreceipt hworld
    have hbegin : o.begin env ⟨w, [], []⟩ = .ok (w.streamCount.getD 0, next) ⟨w, [], []⟩ := by
      rw [o.begin_run, if_pos hauth, o.check_of_valid hvalid, hnext]
    have hentered := (Enters.opening (m := ⟨w, log⟩) hbegin).step
    exact ((Run.nil.snoc hentered).snoc (.progress (.moved hbook))).snoc (.leave (.opened rfl))

end Plain

/-! ### Executions -/

/-- What the log says of stream `id` at moment `m`, when the entries `new` were made
since `w`: the recipient was to be paid exactly what the counter grew by, never more
than has vested; the sender was to be refunded at most once; and all of it was to come
out of the deposit. -/
structure Orderly (w : World Address) (new : List (Label Address)) (m : Moment Address)
    (id : UInt64) (stream : Stream Address) : Prop where
  received_eq : received id new =
    stream.withdrawn.toInt - (w.streams id).elim 0 fun s => s.withdrawn.toInt
  payouts : Addressed stream.token m.world.contractAddress stream.recipient
    (m.log.flatMap (Label.payouts id))
  refunds : Addressed stream.token m.world.contractAddress stream.sender
    (m.log.flatMap (Label.refunds id))
  vested : ∃ vested, stream.vestedAmount m.world.timestamp = .ok vested ∧
    stream.withdrawn ≤ vested
  once : (m.log.flatMap (Label.refunds id)).length ≤ 1
  within : received id m.log + refunded id m.log ≤ funded id m.log

theorem Steady.orderly {w₀ w : World Address} {ls new : List (Label Address)}
    {exact : Address → Prop} {ps : List (Suspended Address)} {m : Moment Address}
    (h : Steady w₀ ls exact ps m) (hfresh : Fresh w₀) (hrun : Run Step w₀ ls w)
    (hlog : m.log = ls ++ new) {id : UInt64} {stream : Stream Address}
    (hstream : m.world.streams id = some stream) : Orderly w new m id stream := by
  have hformed := (h.sequential.sound hfresh).records id stream hstream
  have hcontract := h.sequential.contractAddress_eq hfresh
  have hbefore := (hfresh.accounted hrun id).received_eq
  have haccounted := h.sequential.accounted hfresh id
  rw [hstream, ← hcontract] at haccounted
  cases haccounted with
  | stored _ hpayouts hrefunds hreceived _ honce hfunded =>
  have hunits := hformed.toInt_vestedUnits m.world.timestamp
  have hvested := hformed.withdrawn_le
  have htotal := hformed.vested_le_total m.world.timestamp
  refine ⟨?_, hpayouts, hrefunds, ?_, honce, ?_⟩
  · have hsplit : received id m.log = received id ls + received id new := by
      simp [hlog, received]
    omega
  · refine ⟨stream.vestedUnits m.world.timestamp, hformed.vestedAmount_eq _, ?_⟩
    rw [Signed.le_iff, hunits]
    exact hvested
  · omega

/-- `token` is exact all along: in the ordinary run, and in the execution after it. -/
def ExactThroughout (holder : Address) (ls : List (Label Address)) (is : List (Interaction Address))
    (token : Address) : Prop :=
  (∀ l ∈ ls, l.ExactFor token holder) ∧ ∀ i ∈ is, i.ExactFor token holder

theorem Fresh.steady {w₀ w : World Address} {ls : List (Label Address)} (hfresh : Fresh w₀)
    (hrun : Run Step w₀ ls w) (is : List (Interaction Address)) :
    Steady w₀ ls (ExactThroughout w₀.contractAddress ls is) [] ⟨w, ls⟩ := by
  refine ⟨.of_run hrun, List.prefix_rfl, .nil, ?_⟩
  intro token htoken
  have hreachable : ReachableWith token w := ⟨w₀, ls, hfresh, hrun, htoken.1⟩
  exact hreachable.surplus_nonneg

/-- Callbacks do no harm. Take a host on which a token may, from inside any transfer the
contract makes, make settling calls of its own, to any depth and in any order, and on
which a failing call takes back whatever was done inside it. Start it on any ledger the
contract can be in, with the log of how it got there. Then at every moment, with any calls
suspended, the log has only grown, no stream is lost, and every stored stream is
orderly; and of a token that is exact throughout, the contract holds at least what
all its streams do. -/
theorem callbacks_do_no_harm {w₀ w : World Address} {ls : List (Label Address)}
    (hfresh : Fresh w₀) (hrun : Run Step w₀ ls w) {is : List (Interaction Address)}
    {c : Execution Address}
    (hexecution : Run (Callbacks.Step reentrant) (.idle ⟨w, ls⟩) is c) :
    (∃ new, c.state.log = ls ++ new ∧
      (∀ id, (w.streams id).isSome = true → (c.state.world.streams id).isSome = true) ∧
      ∀ id stream, c.state.world.streams id = some stream → Orderly w new c.state id stream) ∧
    ∀ token, ExactThroughout w₀.contractAddress ls is token →
      c.state.world.escrow token ≤ c.state.world.balance token c.state.world.contractAddress := by
  have hsteady := (steady_keeps hfresh ls _).holds hexecution
    (fun i hi token htoken => htoken.2 i hi) (hfresh.steady hrun is)
  obtain ⟨new, hlog⟩ := hsteady.extends_start
  refine ⟨⟨new, hlog.symm, ?_, ?_⟩, ?_⟩
  · intro id hsome
    obtain ⟨stream, hstream⟩ := Option.isSome_iff_exists.mp hsome
    have hbefore := hfresh.accounted hrun id
    have hafter := hsteady.sequential.accounted hfresh id
    rw [hstream] at hbefore
    cases hrecord : c.state.world.streams id with
    | some _ => rfl
    | none =>
      rw [hrecord] at hafter
      cases hbefore with
      | stored hfunding _ _ _ _ _ _ =>
      cases hafter with
      | absent hnone _ _ =>
      rw [← hlog, List.flatMap_append, List.append_eq_nil_iff] at hnone
      exact absurd hnone.1 hfunding
  · intro id stream hstream
    exact hsteady.orderly hfresh hrun hlog.symm hstream
  · intro token htoken
    have hcovered := hsteady.covered token htoken
    have hnonneg := hsteady.fits.reserves_nonneg token
    unfold World.surplus at hcovered
    omega

namespace Sample

def laterLabels : List (Label ℕ) :=
  [.call env opening.call (genesis.invoke env opening.call).1, .clock 4 1]

/-- While fifteen units are on their way to the recipient, the recipient withdraws the rest. -/
def nestedWithdrawal : List (Interaction ℕ) :=
  [.entered env (.withdrawAmount (units 15)) 0, .entered env .withdraw 0, .moved env, .returned,
    .moved env, .returned]

theorem nestedWithdrawal_execution : ∃ c : Execution ℕ,
    Run (Callbacks.Step reentrant) (.idle ⟨later, laterLabels⟩) nestedWithdrawal c ∧
      c.levels = [] ∧ c.state.world.streams 0 = some (opening.stream.pay (units 40)) :=
  ⟨_, (((((Run.nil.snoc (.enter (.settling rfl))).snoc (.enter (.settling rfl))).snoc
    (.progress (.moved rfl))).snoc (.leave (.settled rfl))).snoc (.progress (.moved rfl))).snoc
    (.leave (.settled rfl)), rfl, rfl⟩

theorem nestedWithdrawal_exact (token : ℕ) :
    ExactThroughout 0 laterLabels nestedWithdrawal token := by
  simp [ExactThroughout, laterLabels, nestedWithdrawal, Label.ExactFor, Interaction.ExactFor, env,
    ledgerToken_exact]

end Sample

theorem callbacks_do_no_harm_nested : ∃ (c : Execution ℕ) (new : List (Label ℕ)),
    c.levels = [] ∧ c.state.log = Sample.laterLabels ++ new ∧ received 0 new = 40 ∧
      c.state.world.escrow 9 ≤ c.state.world.balance 9 c.state.world.contractAddress := by
  obtain ⟨c, hexecution, hidle, hstream⟩ := Sample.nestedWithdrawal_execution
  obtain ⟨⟨new, hlog, _, horderly⟩, hcovered⟩ :=
    callbacks_do_no_harm Sample.genesis_fresh (Sample.opened_run.append Sample.later_run) hexecution
  refine ⟨c, new, hidle, hlog, (horderly 0 _ hstream).received_eq, ?_⟩
  exact hcovered 9 (Sample.nestedWithdrawal_exact 9)

end TricklePay
