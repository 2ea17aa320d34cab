import TricklePay.Proofs.Commits

/-!
# Containment of a misbehaving token

A token that starts to refuse transfers, or to move what it likes, harms only its
own streams. Two runs that differ in nothing but what one token does leave the
streams of all the other tokens, and the balances of those tokens, the same. The
one thing such a token can do to the others is to fail a creation, which shifts
the ids that come after; that is why creations in it have to be answered alike.
-/

namespace TricklePay

open Checked Transition Relational

variable {Address : Type}

/-- The same record, unless both are paid in token `u`. -/
structure SameOutside (u : Address) (a b : Option (Stream Address)) : Prop where
  stored : a.isSome = b.isSome
  stream : ∀ stream, stream.token ≠ u → (a = some stream ↔ b = some stream)

theorem SameOutside.refl (u : Address) (a : Option (Stream Address)) : SameOutside u a a :=
  ⟨rfl, fun _ _ => .rfl⟩

theorem SameOutside.of_token {u : Address} {stream stream' : Stream Address}
    (h : stream.token = u) (h' : stream'.token = u) :
    SameOutside u (some stream) (some stream') where
  stored := rfl
  stream := by
    intro s hs
    rw [Option.some_inj, Option.some_inj]
    constructor
    · rintro rfl
      exact absurd h hs
    · rintro rfl
      exact absurd h' hs

/-- The same outside token `u`: the streams paid in other tokens, and their balances. -/
structure World.Outside (u : Address) (w v : World Address) : Prop where
  contractAddress : w.contractAddress = v.contractAddress
  timestamp : w.timestamp = v.timestamp
  streamCount : w.streamCount = v.streamCount
  records : ∀ id, SameOutside u (w.streams id) (v.streams id)
  balance : ∀ token, token ≠ u → w.balance token = v.balance token

/-- No stream of token `u` is stored at `id`. -/
def World.Foreign (u : Address) (w : World Address) (id : UInt64) : Prop :=
  ∀ stream, w.streams id = some stream → stream.token ≠ u

namespace World.Outside

variable {u : Address} {w v x : World Address}

theorem refl (u : Address) (w : World Address) : w.Outside u w :=
  ⟨rfl, rfl, rfl, fun _ => .refl u _, fun _ _ => rfl⟩

theorem symm (h : w.Outside u v) : v.Outside u w where
  contractAddress := h.contractAddress.symm
  timestamp := h.timestamp.symm
  streamCount := h.streamCount.symm
  records := fun id => ⟨(h.records id).stored.symm, fun s hs => ((h.records id).stream s hs).symm⟩
  balance := fun token ht => (h.balance token ht).symm

theorem trans (h : w.Outside u v) (h' : v.Outside u x) : w.Outside u x where
  contractAddress := h.contractAddress.trans h'.contractAddress
  timestamp := h.timestamp.trans h'.timestamp
  streamCount := h.streamCount.trans h'.streamCount
  records := fun id => ⟨(h.records id).stored.trans (h'.records id).stored,
    fun s hs => ((h.records id).stream s hs).trans ((h'.records id).stream s hs)⟩
  balance := fun token ht => (h.balance token ht).trans (h'.balance token ht)

theorem streams_eq (h : w.Outside u v) {id : UInt64} (hid : w.Foreign u id) :
    w.streams id = v.streams id := by
  cases hstream : w.streams id with
  | some stream => exact (((h.records id).stream stream (hid stream hstream)).mp hstream).symm
  | none =>
    have hstored := (h.records id).stored
    rw [hstream] at hstored
    exact (Option.isNone_iff_eq_none.mp (by simpa using hstored.symm)).symm

theorem foreign (h : w.Outside u v) {id : UInt64} (hid : w.Foreign u id) : v.Foreign u id := by
  intro stream hstream
  exact hid stream ((h.streams_eq hid).trans hstream)

theorem alikeOn (h : w.Outside u v) : w.AlikeOn (w.Foreign u) v :=
  ⟨h.contractAddress, h.timestamp, fun _ => h.streams_eq, h.streamCount⟩

/-- Writing records that are the same outside `u` on both ledgers. -/
theorem records_update (h : w.Outside u v) (id : UInt64) {a b : Option (Stream Address)}
    (hab : SameOutside u a b) (i : UInt64) :
    SameOutside u (Function.update w.streams id a i) (Function.update v.streams id b i) := by
  by_cases hi : i = id
  · rw [hi, Function.update_self, Function.update_self]
    exact hab
  · rw [Function.update_of_ne hi, Function.update_of_ne hi]
    exact h.records i

theorem rejected (h : w.Outside u v) {failure : Failure} {r r' : Receipt Address}
    {w' v' : World Address} (hr : w.rejected failure = (r, w'))
    (hr' : v.rejected failure = (r', v')) : r = r' ∧ w'.Outside u v' := by
  cases hr
  cases hr'
  rw [h.timestamp]
  exact ⟨rfl, h⟩

end World.Outside

variable [DecidableEq Address]

/-! ### Calls -/

theorem World.Outside.balance_update {u : Address} {w v : World Address} (h : w.Outside u v)
    (token : Address) (book : Address → ℤ) (t : Address) (ht : t ≠ u) :
    Function.update w.balance token book t = Function.update v.balance token book t := by
  by_cases htoken : t = token
  · rw [htoken, Function.update_self, Function.update_self]
  · rw [Function.update_of_ne htoken, Function.update_of_ne htoken, h.balance t ht]

section Calls

variable {u : Address} {w w' v v' : World Address} {env env' : Env Address}
  {r r' : Receipt Address}

/-- The transfers in other tokens than `u`. -/
def Receipt.outside (u : Address) (receipt : Receipt Address) : List (Transfer Address) :=
  receipt.transfers.filter fun t => decide (t.token ≠ u)

/-- The same authorizations, and the same tokens apart from `u`. -/
structure Env.Outside (u : Address) (env env' : Env Address) : Prop where
  authorized : env.authorized = env'.authorized
  token : ∀ token, token ≠ u → env.token token = env'.token token

/-- A call on a stream of token `u` shows nothing outside `u`. -/
theorem World.Sound.op_outside (hw : w.Sound) {op : StreamOp} {id : UInt64}
    (hinvoke : w.invoke env (op.call id) = (r, w')) (hid : ¬ w.Foreign u id) :
    r.outside u = [] ∧ w'.Outside u w := by
  obtain ⟨stream, hstream, htoken⟩ : ∃ stream, w.streams id = some stream ∧ stream.token = u := by
    simpa [World.Foreign] using hid
  rcases hw.op_cases hinvoke with ⟨failure, hrejected⟩ | ⟨s, z, book, hsettles⟩
  · cases hrejected
    exact ⟨rfl, .refl u w⟩
  · obtain rfl : s = stream := Option.some_inj.mp (hsettles.stored.symm.trans hstream)
    rw [hsettles.receipt_eq, hsettles.world_eq]
    refine ⟨by simp [Receipt.outside, htoken], ?_⟩
    refine ⟨rfl, rfl, rfl, fun i => ?_, fun token ht => Function.update_of_ne (htoken ▸ ht) _ _⟩
    have hupdate := (World.Outside.refl u w).records_update id
      (.of_token (hsettles.outcome.parties_eq.2.2.trans htoken) htoken) i
    rw [← hstream, Function.update_eq_self] at hupdate
    exact hupdate

/-- A call on any other stream is answered alike, and leaves the same outside `u`. -/
theorem World.Outside.op (h : w.Outside u v) (op : StreamOp) (henv : env.Outside u env')
    {id : UInt64} (hid : w.Foreign u id) (hinvoke : w.invoke env (op.call id) = (r, w'))
    (hinvoke' : v.invoke env' (op.call id) = (r', v')) : r = r' ∧ w'.Outside u v' := by
  rcases World.invoke_op_alike op (h.streams_eq hid).symm h.timestamp.symm henv.authorized.symm with
    ⟨failure, hw, hv⟩ | ⟨stream, z, hstream, hw, hv⟩
  · rw [hw] at hinvoke
    rw [hv] at hinvoke'
    exact h.rejected hinvoke hinvoke'
  · have htoken := hid stream hstream
    rw [hw] at hinvoke
    rw [hv] at hinvoke'
    simp only [Settled.paid] at hinvoke hinvoke'
    rw [← henv.token stream.token htoken, ← h.balance stream.token htoken,
      ← h.contractAddress, ← h.timestamp] at hinvoke'
    by_cases hpos : 0 < z.amount
    · simp only [if_pos hpos] at hinvoke hinvoke'
      cases hbook : env.token stream.token (w.balance stream.token) w.contractAddress
          (op.party stream) z.amount with
      | none =>
        rw [hbook] at hinvoke hinvoke'
        exact h.rejected hinvoke hinvoke'
      | some book =>
        rw [hbook] at hinvoke hinvoke'
        cases hinvoke
        cases hinvoke'
        exact ⟨rfl, h.contractAddress, h.timestamp, h.streamCount,
          h.records_update id (.refl u _), h.balance_update stream.token book⟩
    · simp only [if_neg hpos] at hinvoke hinvoke'
      cases hinvoke
      cases hinvoke'
      exact ⟨rfl, h.contractAddress, h.timestamp, h.streamCount,
        h.records_update id (.refl u _), h.balance⟩

/-- The call asks token `u` to fund a stream. -/
def Call.opens (u : Address) : Call Address → Bool
  | .createStream _ _ token .. => decide (token = u)
  | _ => false

/-- A creation in another token is answered alike, and leaves the same outside `u`. -/
theorem World.Outside.create (h : w.Outside u v) (henv : env.Outside u env') {o : Opening Address}
    (htoken : o.token ≠ u) (hinvoke : w.invoke env o.call = (r, w'))
    (hinvoke' : v.invoke env' o.call = (r', v')) : r = r' ∧ w'.Outside u v' := by
  rcases World.invoke_create_alike o h.contractAddress.symm h.timestamp.symm h.streamCount.symm
    henv.authorized.symm with ⟨failure, hw, hv⟩ | ⟨next, hw, hv⟩
  · rw [hw] at hinvoke
    rw [hv] at hinvoke'
    exact h.rejected hinvoke hinvoke'
  · rw [hw] at hinvoke
    rw [hv] at hinvoke'
    unfold Opening.funded at hinvoke hinvoke'
    rw [← henv.token o.token htoken, ← h.balance o.token htoken, ← h.contractAddress,
      ← h.timestamp, ← h.streamCount] at hinvoke'
    cases hbook : env.token o.token (w.balance o.token) o.sender w.contractAddress
        o.totalAmount with
    | none =>
      rw [hbook] at hinvoke hinvoke'
      exact h.rejected hinvoke hinvoke'
    | some book =>
      rw [hbook] at hinvoke hinvoke'
      cases hinvoke
      cases hinvoke'
      exact ⟨rfl, h.contractAddress, h.timestamp, rfl,
        h.records_update (w.streamCount.getD 0) (.refl u _), h.balance_update o.token book⟩

/-- So is a creation in `u` itself, if `u` accepts it on both sides or on neither. -/
theorem World.Outside.create_token (h : w.Outside u v) (henv : env.Outside u env')
    {o : Opening Address} (htoken : o.token = u) (hrefused : r.refused = r'.refused)
    (hinvoke : w.invoke env o.call = (r, w')) (hinvoke' : v.invoke env' o.call = (r', v')) :
    r = r' ∧ w'.Outside u v' := by
  obtain ⟨rfl, hleft⟩ := h.alikeOn.invoke_create henv.authorized hinvoke hinvoke' hrefused
  suffices hrest : (∀ id, SameOutside u (w'.streams id) (v'.streams id)) ∧
      ∀ token, token ≠ u → w'.balance token = v'.balance token from
    ⟨rfl, hleft.contractAddress, hleft.timestamp, hleft.streamCount, hrest.1, hrest.2⟩
  cases World.create_effect hinvoke with
  | viewed _ _ hcall _ _ => cases hcall
  | settled op _ _ _ hcall _ _ _ _ => exact absurd hcall (o.call_ne_op op _)
  | rejected failure hreceipt hworld =>
    cases World.create_effect hinvoke' with
    | viewed _ _ hcall _ _ => cases hcall
    | settled op _ _ _ hcall _ _ _ _ => exact absurd hcall (o.call_ne_op op _)
    | opened _ _ _ _ _ _ _ _ hreceipt' _ =>
      have hresult := congrArg Receipt.result (hreceipt.symm.trans hreceipt')
      cases hresult
    | rejected _ _ hworld' =>
      subst hworld hworld'
      exact ⟨h.records, h.balance⟩
  | opened o₁ next book hcall _ _ _ _ hreceipt hworld =>
    cases World.create_effect hinvoke' with
    | viewed _ _ hcall _ _ => cases hcall
    | settled op _ _ _ hcall _ _ _ _ => exact absurd hcall (o.call_ne_op op _)
    | rejected _ hreceipt' _ =>
      have hresult := congrArg Receipt.result (hreceipt.symm.trans hreceipt')
      cases hresult
    | opened o₂ next' book' hcall' _ _ _ _ _ hworld' =>
      obtain rfl := Opening.call_inj hcall
      obtain rfl := Opening.call_inj hcall'
      subst hworld hworld'
      constructor
      · change ∀ i, SameOutside u (Function.update w.streams (w.streamCount.getD 0) _ i)
          (Function.update v.streams (v.streamCount.getD 0) _ i)
        rw [← h.streamCount]
        exact h.records_update _ (.refl u _)
      · intro t ht
        have hne : t ≠ o.token := fun he => ht (he.trans htoken)
        change Function.update w.balance o.token book t = Function.update v.balance o.token book' t
        rw [Function.update_of_ne hne, Function.update_of_ne hne, h.balance t ht]

theorem World.view_outside {call : Call Address} (hview : call.isView = true)
    (hinvoke : w.invoke env call = (r, w')) : r.outside u = [] ∧ w'.Outside u w := by
  cases World.view_effect hview hinvoke with
  | rejected failure hreceipt hworld =>
    rw [hreceipt, hworld]
    exact ⟨rfl, .refl u w⟩
  | viewed response liveUntil _ hreceipt hworld =>
    rw [hreceipt, hworld]
    exact ⟨rfl, rfl, rfl, rfl, fun id => .refl u _, fun _ _ => rfl⟩
  | opened o _ _ hcall _ _ _ _ _ _ =>
    rw [hcall] at hview
    cases hview
  | settled op id _ _ hcall _ _ _ _ =>
    rw [hcall] at hview
    cases op <;> cases hview

theorem World.Outside.op_or_foreign (h : w.Outside u v) (op : StreamOp) (hw : w.Sound)
    (hv : v.Sound) (henv : env.Outside u env') {id : UInt64}
    (hinvoke : w.invoke env (op.call id) = (r, w'))
    (hinvoke' : v.invoke env' (op.call id) = (r', v')) :
    r.outside u = r'.outside u ∧ w'.Outside u v' := by
  by_cases hid : w.Foreign u id
  · obtain ⟨rfl, hleft⟩ := h.op op henv hid hinvoke hinvoke'
    exact ⟨rfl, hleft⟩
  · have hid' : ¬ v.Foreign u id := fun hforeign => hid (h.symm.foreign hforeign)
    obtain ⟨hnone, hleft⟩ := hw.op_outside hinvoke hid
    obtain ⟨hnone', hleft'⟩ := hv.op_outside hinvoke' hid'
    exact ⟨hnone.trans hnone'.symm, (hleft.trans h).trans hleft'.symm⟩

theorem World.Outside.invoke (h : w.Outside u v) (hw : w.Sound) (hv : v.Sound)
    (henv : env.Outside u env') {call : Call Address}
    (hrefused : call.opens u = true → r.refused = r'.refused)
    (hinvoke : w.invoke env call = (r, w')) (hinvoke' : v.invoke env' call = (r', v')) :
    r.outside u = r'.outside u ∧ w'.Outside u v' := by
  have hview : call.isView = true → r.outside u = r'.outside u ∧ w'.Outside u v' := by
    intro hview
    obtain ⟨hnone, hleft⟩ := World.view_outside (u := u) hview hinvoke
    obtain ⟨hnone', hleft'⟩ := World.view_outside (u := u) hview hinvoke'
    exact ⟨hnone.trans hnone'.symm, (hleft.trans h).trans hleft'.symm⟩
  cases call with
  | createStream sender recipient token totalAmount startTime endTime cliffTime =>
    have hboth : r = r' ∧ w'.Outside u v' := by
      by_cases htoken : token = u
      · exact h.create_token (o := ⟨sender, recipient, token, totalAmount, startTime, endTime,
          cliffTime⟩) henv htoken (hrefused (decide_eq_true htoken)) hinvoke hinvoke'
      · exact h.create (o := ⟨sender, recipient, token, totalAmount, startTime, endTime,
          cliffTime⟩) henv htoken hinvoke hinvoke'
    exact ⟨by rw [hboth.1], hboth.2⟩
  | withdraw id => exact h.op_or_foreign .withdraw hw hv henv hinvoke hinvoke'
  | withdrawAmount id amount =>
    exact h.op_or_foreign (.withdrawAmount amount) hw hv henv hinvoke hinvoke'
  | cancel id => exact h.op_or_foreign .cancel hw hv henv hinvoke hinvoke'
  | _ => exact hview rfl

/-- A call that has nothing to do with `u` cannot tell the two ledgers apart. -/
theorem World.Outside.answer (h : w.Outside u v) (henv : env.Outside u env') {call : Call Address}
    (hopens : call.opens u = false) (hids : ∀ id ∈ call.ids, w.Foreign u id)
    (hinvoke : w.invoke env call = (r, w')) (hinvoke' : v.invoke env' call = (r', v')) :
    r = r' := by
  cases call with
  | createStream sender recipient token totalAmount startTime endTime cliffTime =>
    exact (h.create (o := ⟨sender, recipient, token, totalAmount, startTime, endTime, cliffTime⟩)
      henv (of_decide_eq_false hopens) hinvoke hinvoke').1
  | withdraw id =>
    exact (h.op .withdraw henv (hids id List.mem_cons_self) hinvoke hinvoke').1
  | withdrawAmount id amount =>
    exact (h.op (.withdrawAmount amount) henv (hids id List.mem_cons_self) hinvoke
      hinvoke').1
  | cancel id =>
    exact (h.op .cancel henv (hids id List.mem_cons_self) hinvoke hinvoke').1
  | _ => exact (h.alikeOn.invoke_view rfl hids hinvoke hinvoke').1

end Calls

/-! ### Runs -/

/-- What one step brings to the streams of the tokens other than `u`. -/
inductive OutsideInput (Address : Type)
  | clock (timestamp : UInt64)
  | call (authorized : Address → Bool) (token : Address → Option (TokenTransfer Address))
      (call : Call Address) (refused : Bool)
  | deposit (transfer : TokenTransfer Address) (token source : Address) (amount : I128)
      (credited : Bool)
  | bookkeeping (token : Address) (act : (Address → ℤ) → Address → ℤ)

/-- Everything but what token `u` does; of a creation in `u`, whether `u` refused it. -/
def Label.outsideInput (u : Address) : Label Address → Option (OutsideInput Address)
  | .clock timestamp _ => some (.clock timestamp)
  | .call env entry receipt => some (.call env.authorized
      (fun t => if t = u then none else some (env.token t)) entry
      (entry.opens u && receipt.refused))
  | .deposit env token source amount credited =>
    if token = u then none else some (.deposit (env.token token) token source amount credited)
  | .bookkeeping token act => if token = u then none else some (.bookkeeping token act)

/-- The transfers a call makes in other tokens than `u`. -/
def Label.outside (u : Address) : Label Address → Option (List (Transfer Address))
  | .call _ _ receipt => some (receipt.outside u)
  | .clock .. | .deposit .. | .bookkeeping .. => none

section Inputs

variable {u : Address} {w w' v : World Address} {l : Label Address}

theorem World.setBook_outside (w : World Address) (u : Address) (book : Address → ℤ) :
    (w.setBook u book).Outside u w :=
  ⟨rfl, rfl, rfl, fun _ => .refl u _, fun _ ht => Function.update_of_ne ht _ _⟩

theorem World.Outside.setBook (h : w.Outside u v) (token : Address) (book : Address → ℤ) :
    (w.setBook token book).Outside u (v.setBook token book) :=
  ⟨h.contractAddress, h.timestamp, h.streamCount, h.records, h.balance_update token book⟩

theorem Step.of_no_outsideInput (h : Step w l w') (hinput : l.outsideInput u = none) :
    l.outside u = none ∧ w'.Outside u w := by
  cases h with
  | clock => cases hinput
  | call => cases hinput
  | @credited env token source amount book _ _ _ =>
    by_cases htoken : token = u
    · rw [htoken]
      exact ⟨rfl, w.setBook_outside u book⟩
    · simp [Label.outsideInput, htoken] at hinput
  | refused => exact ⟨rfl, .refl u w⟩
  | @bookkeeping token act =>
    by_cases htoken : token = u
    · rw [htoken]
      exact ⟨rfl, w.setBook_outside u _⟩
    · simp [Label.outsideInput, htoken] at hinput

/-- Which steps bring what: deposits in `u` and its bookkeeping bring nothing. -/
inductive Label.Brings (u : Address) : Label Address → OutsideInput Address → Prop
  | clock {timestamp : UInt64} {sequence : ℕ} :
      Brings u (.clock timestamp sequence) (.clock timestamp)
  | call {env : Env Address} {entry : Call Address} {receipt : Receipt Address} :
      Brings u (.call env entry receipt) (.call env.authorized
        (fun t => if t = u then none else some (env.token t)) entry
        (entry.opens u && receipt.refused))
  | deposit {env : Env Address} {token source : Address} {amount : I128} {credited : Bool}
      (htoken : token ≠ u) : Brings u (.deposit env token source amount credited)
        (.deposit (env.token token) token source amount credited)
  | bookkeeping {token : Address} {act : (Address → ℤ) → Address → ℤ} (htoken : token ≠ u) :
      Brings u (.bookkeeping token act) (.bookkeeping token act)

theorem Label.brings {i : OutsideInput Address} (hinput : l.outsideInput u = some i) :
    l.Brings u i := by
  cases l with
  | clock =>
    cases hinput
    exact .clock
  | call =>
    cases hinput
    exact .call
  | deposit env token =>
    by_cases htoken : token = u
    · simp [outsideInput, htoken] at hinput
    · rw [outsideInput, if_neg htoken] at hinput
      cases hinput
      exact .deposit htoken
  | bookkeeping token =>
    by_cases htoken : token = u
    · simp [outsideInput, htoken] at hinput
    · rw [outsideInput, if_neg htoken] at hinput
      cases hinput
      exact .bookkeeping htoken

/-- What an input other than a call does to a ledger. -/
def OutsideInput.apply (w : World Address) : OutsideInput Address → World Address
  | .clock timestamp => { w with timestamp }
  | .call .. => w
  | .deposit transfer token source amount credited =>
    match credited, transfer (w.balance token) source w.contractAddress amount with
    | true, some book => w.setBook token book
    | _, _ => w
  | .bookkeeping token act => w.setBook token (act (w.balance token))

theorem World.Outside.apply (h : w.Outside u v) {i : OutsideInput Address}
    (hinput : l.outsideInput u = some i) : (i.apply w).Outside u (i.apply v) := by
  cases Label.brings hinput with
  | clock => exact ⟨h.contractAddress, rfl, h.streamCount, h.records, h.balance⟩
  | call => exact h
  | @deposit env token source amount credited htoken =>
    cases credited with
    | false => exact h
    | true =>
      simp only [OutsideInput.apply, ← h.balance token htoken, ← h.contractAddress]
      cases env.token token (w.balance token) source w.contractAddress amount with
      | none => exact h
      | some book => exact h.setBook token book
  | @bookkeeping token act htoken =>
    simp only [OutsideInput.apply, ← h.balance token htoken]
    exact h.setBook token _

theorem Step.of_outsideInput (h : Step w l w') {i : OutsideInput Address}
    (hinput : l.outsideInput u = some i) :
    (l.outside u = none ∧ w'.Outside u (i.apply w)) ∨
      ∃ env call receipt, l = .call env call receipt ∧ w.invoke env call = (receipt, w') := by
  cases Label.brings hinput with
  | clock =>
    cases h
    exact Or.inl ⟨rfl, rfl, rfl, rfl, fun _ => .refl u _, fun _ _ => rfl⟩
  | call =>
    cases h with
    | call hinvoke => exact Or.inr ⟨_, _, _, rfl, hinvoke⟩
  | deposit _ =>
    cases h with
    | credited _ _ hbook =>
      simp only [OutsideInput.apply, hbook]
      exact Or.inl ⟨rfl, .refl u _⟩
    | refused _ => exact Or.inl ⟨rfl, .refl u w⟩
  | bookkeeping _ =>
    cases h
    exact Or.inl ⟨rfl, .refl u _⟩

/-- Calls that bring the same are made in environments that are the same outside `u`. -/
theorem Label.env_outside {env env' : Env Address} {call call' : Call Address}
    {r r' : Receipt Address}
    (h : (Label.call env call r).outsideInput u = (Label.call env' call' r').outsideInput u) :
    call = call' ∧ env.Outside u env' ∧ (call.opens u = true → r.refused = r'.refused) := by
  simp only [Label.outsideInput, Option.some_inj, OutsideInput.call.injEq] at h
  obtain ⟨hauth, htokens, rfl, hrefused⟩ := h
  refine ⟨rfl, ⟨hauth, fun t ht => ?_⟩, fun hopens => ?_⟩
  · have hat := congrFun htokens t
    simpa [if_neg ht] using hat
  · simpa [hopens] using hrefused

theorem Label.outside_ne_none {env : Env Address} {call : Call Address} {r : Receipt Address}
    (h : l.outsideInput u = (Label.call env call r).outsideInput u) : l.outside u ≠ none := by
  have hbrings := Label.brings h
  cases l with
  | call => exact Option.some_ne_none _
  | _ => cases hbrings

end Inputs

theorem outside_matched (u : Address) :
    Matched (fun w v : World Address => w.Sound ∧ v.Sound ∧ w.Outside u v) (Label.outsideInput u)
      (Label.outsideInput u) (Label.outside u) (Label.outside u) Step Step where
  hidden := by
    rintro m l m' t ⟨hm, ht, h⟩ hstep hinput
    obtain ⟨hnone, hleft⟩ := hstep.of_no_outsideInput hinput
    exact ⟨hnone, hstep.sound hm, ht, hleft.trans h⟩
  hidden' := by
    rintro m t l t' ⟨hm, ht, h⟩ hstep hinput
    obtain ⟨hnone, hleft⟩ := hstep.of_no_outsideInput hinput
    exact ⟨hnone, hm, hstep.sound ht, h.trans hleft.symm⟩
  shown := by
    rintro m l m' t l' t' i ⟨hm, ht, h⟩ hstep hstep' hinput hinput'
    have hm' := hstep.sound hm
    have ht' := hstep'.sound ht
    rcases hstep.of_outsideInput hinput with
      ⟨hnone, hleft⟩ | ⟨env, call, r, rfl, hinvoke⟩
    · rcases hstep'.of_outsideInput hinput' with
        ⟨hnone', hleft'⟩ | ⟨env', call', r', rfl, hinvoke'⟩
      · exact ⟨hnone.trans hnone'.symm, hm', ht', (hleft.trans (h.apply hinput)).trans hleft'.symm⟩
      · exact absurd hnone (Label.outside_ne_none (hinput.trans hinput'.symm))
    · rcases hstep'.of_outsideInput hinput' with
        ⟨hnone', hleft'⟩ | ⟨env', call', r', rfl, hinvoke'⟩
      · exact absurd hnone' (Label.outside_ne_none (hinput'.trans hinput.symm))
      · obtain ⟨rfl, henv, hrefused⟩ := Label.env_outside (hinput.trans hinput'.symm)
        obtain ⟨htransfers, hleft⟩ := h.invoke hm ht henv hrefused hinvoke hinvoke'
        exact ⟨congrArg some htransfers, hm', ht', hleft⟩

/-- Two runs from one reachable ledger that differ in nothing but what token `u` does,
and in which the same creations in `u` are refused, make the same transfers in all
other tokens, leave the same streams, ids and balances outside `u`, and any further
call that has nothing to do with `u` gets the same receipt after both. Token `u` need
not conform to anything. -/
theorem token_misbehaviour_contained {w w' v' : World Address} (h : Reachable w) (u : Address)
    {ls ls' : List (Label Address)} (hrun : Run Step w ls w') (hrun' : Run Step w ls' v')
    (hinputs : ls.filterMap (Label.outsideInput u) = ls'.filterMap (Label.outsideInput u)) :
    ls.filterMap (Label.outside u) = ls'.filterMap (Label.outside u) ∧ w'.Outside u v' ∧
      ∀ env env' call, env.Outside u env' → call.opens u = false →
        (∀ id ∈ call.ids, w'.Foreign u id) →
        (w'.invoke env call).1 = (v'.invoke env' call).1 := by
  obtain ⟨htransfers, _, _, hleft⟩ :=
    (outside_matched u).agree ⟨h.sound, h.sound, .refl u w⟩ hrun hrun' hinputs
  exact ⟨htransfers, hleft, fun env env' call henv hopens hids =>
    hleft.answer henv hopens hids rfl rfl⟩

namespace Sample

/-- A second stream of the same parties, paid in token `8`. -/
def mixed : World ℕ :=
  { (opened.invoke env { opening with token := 8 }.call).2 with timestamp := 4 }

theorem mixed_reachable : Reachable mixed := by
  have hcall : Run Step opened [.call env { opening with token := 8 }.call
      (opened.invoke env { opening with token := 8 }.call).1]
      (opened.invoke env { opening with token := 8 }.call).2 := .single (.call rfl)
  exact opened_reachable.run (hcall.snoc (.clock (by decide) le_rfl))

/-- The sample environment with a token `9` that refuses every transfer. -/
def frozenEnv : Env ℕ :=
  { env with token := fun token => if token = 9 then fun _ _ _ _ => none else ledgerToken }

theorem frozen_outside : env.Outside 9 frozenEnv where
  authorized := rfl
  token := fun _ ht => (if_neg ht).symm

def paidLabels (e : Env ℕ) : List (Label ℕ) :=
  [.call e (.withdraw 0) (mixed.invoke e (.withdraw 0)).1]

theorem paidLabels_run (e : Env ℕ) :
    Run Step mixed (paidLabels e) (mixed.invoke e (.withdraw 0)).2 := .single (.call rfl)

end Sample

theorem token_misbehaviour_contained_mixed :
    ((Sample.mixed.invoke Sample.env (.withdraw 0)).2.invoke Sample.env (.withdraw 1)).1 =
      ((Sample.mixed.invoke Sample.frozenEnv (.withdraw 0)).2.invoke Sample.frozenEnv
        (.withdraw 1)).1 := by
  have hinputs : (Sample.paidLabels Sample.env).filterMap (Label.outsideInput 9) =
      (Sample.paidLabels Sample.frozenEnv).filterMap (Label.outsideInput 9) := by
    have htokens : (fun t => if t = 9 then none else some (Sample.env.token t)) =
        fun t => if t = 9 then none else some (Sample.frozenEnv.token t) := by
      funext t
      by_cases ht : t = 9
      · rw [if_pos ht, if_pos ht]
      · rw [if_neg ht, if_neg ht, Sample.frozen_outside.token t ht]
    simp only [Sample.paidLabels, List.filterMap_cons, Label.outsideInput, htokens]
    rfl
  have hforeign : ∀ id ∈ Call.ids (.withdraw 1 : Call ℕ),
      (Sample.mixed.invoke Sample.env (.withdraw 0)).2.Foreign 9 id := by
    intro id hid stream hstream
    obtain rfl : id = 1 := by simpa [Call.ids] using hid
    cases hstream
    decide
  exact (token_misbehaviour_contained Sample.mixed_reachable 9 (Sample.paidLabels_run _)
    (Sample.paidLabels_run _) hinputs).2.2 _ _ _ Sample.frozen_outside rfl hforeign

end TricklePay
