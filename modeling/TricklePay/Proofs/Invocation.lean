import TricklePay.Proofs.Record
import TricklePay.Model.Chain

/-!
# What an invocation does

Each entry point, run on a frame, is brought into closed form: which checks
decide it, in which order, and what it leaves behind. The closed forms hold on
every frame, with no invariant assumed. From them comes the one case analysis
that every invariant of the contract starts from, `World.invoke_effect`.
-/

namespace TricklePay

open Checked

variable {Address : Type}

section Primitives

variable {α β : Type} (frame : Frame Address)

@[simp] theorem bind_run (x : Host Address α) (f : α → Host Address β) :
    (x >>= f) frame = match x frame with
      | .ok a next => f a next
      | .error e next => .error e next := by
  change EStateM.bind x f frame = _
  unfold EStateM.bind
  cases x frame <;> rfl

@[simp] theorem map_run (f : α → β) (x : Host Address α) :
    (f <$> x) frame = match x frame with
      | .ok a next => .ok (f a) next
      | .error e next => .error e next := by
  change EStateM.map f x frame = _
  unfold EStateM.map
  cases x frame <;> rfl

@[simp] theorem pure_run (a : α) : (pure a : Host Address α) frame = .ok a frame := rfl

@[simp] theorem get_run : (get : Host Address (Frame Address)) frame = .ok frame frame := rfl

@[simp] theorem modifyWorld_run (f : World Address → World Address) :
    modifyWorld f frame = .ok () { frame with world := f frame.world } := rfl

@[simp] theorem timestamp_run : timestamp frame = .ok frame.world.timestamp frame := rfl

@[simp] theorem currentContractAddress_run :
    currentContractAddress frame = .ok frame.world.contractAddress frame := rfl

@[simp] theorem publish_run (event : Event Address) :
    publish event frame = .ok () { frame with events := frame.events ++ [event] } := rfl

@[simp] theorem requireAuth_run (env : Env Address) (address : Address) :
    requireAuth env address frame =
      if env.authorized address then .ok () frame else .error .unauthorized frame := by
  unfold requireAuth
  split_ifs <;> rfl

@[simp] theorem rejectIf_run (condition : Prop) [Decidable condition] (e : StreamError) :
    rejectIf condition e frame =
      if condition then .error (.error e) frame else .ok () frame := by
  unfold rejectIf
  split_ifs <;> rfl

@[simp] theorem liftTrap_run (x : Except Trap α) :
    (liftM x : Host Address α) frame = match x with
      | .ok a => .ok a frame
      | .error t => .error (.trap t) frame := by
  cases x <;> rfl

@[simp] theorem liftError_run (x : Except StreamError α) :
    (liftM x : Host Address α) frame = match x with
      | .ok a => .ok a frame
      | .error e => .error (.error e) frame := by
  cases x <;> rfl

end Primitives

section Storage

variable (env : Env Address) (id : UInt64)

/-- The ledger after an existing record has been read. -/
def World.refreshed (w : World Address) : World Address :=
  w.extendTtl env (.stream id) bumpThreshold entryTtl

/-- The ledger after a record has been written. -/
def World.stored [DecidableEq Address] (stream : Stream Address) (w : World Address) :
    World Address :=
  (w.setStream env id stream).refreshed env id

section Fields

variable (w : World Address)

@[simp] theorem refreshed_contractAddress :
    (w.refreshed env id).contractAddress = w.contractAddress := rfl
@[simp] theorem refreshed_timestamp : (w.refreshed env id).timestamp = w.timestamp := rfl
@[simp] theorem refreshed_streams : (w.refreshed env id).streams = w.streams := rfl
@[simp] theorem refreshed_streamCount :
    (w.refreshed env id).streamCount = w.streamCount := rfl
@[simp] theorem refreshed_balance : (w.refreshed env id).balance = w.balance := rfl

variable [DecidableEq Address] (stream : Stream Address) (token : Address) (book : Address → ℤ)

@[simp] theorem stored_contractAddress :
    (w.stored env id stream).contractAddress = w.contractAddress := rfl
@[simp] theorem stored_timestamp : (w.stored env id stream).timestamp = w.timestamp := rfl
@[simp] theorem stored_streams :
    (w.stored env id stream).streams = Function.update w.streams id (some stream) := rfl
@[simp] theorem stored_streamCount : (w.stored env id stream).streamCount = w.streamCount := rfl
@[simp] theorem stored_balance : (w.stored env id stream).balance = w.balance := rfl

@[simp] theorem setBook_contractAddress :
    (w.setBook token book).contractAddress = w.contractAddress := rfl
@[simp] theorem setBook_timestamp : (w.setBook token book).timestamp = w.timestamp := rfl
@[simp] theorem setBook_streams : (w.setBook token book).streams = w.streams := rfl
@[simp] theorem setBook_streamCount : (w.setBook token book).streamCount = w.streamCount := rfl
@[simp] theorem setBook_balance :
    (w.setBook token book).balance = Function.update w.balance token book := rfl

end Fields

def Frame.refreshed (frame : Frame Address) : Frame Address :=
  { frame with world := frame.world.refreshed env id }

theorem getStream_run (frame : Frame Address) :
    getStream env id frame = .ok (frame.world.streams id)
      (if (frame.world.streams id).isSome then frame.refreshed env id else frame) := by
  unfold getStream
  cases h : frame.world.streams id <;> simp [h, Frame.refreshed, World.refreshed]

@[simp] theorem setStream_run [DecidableEq Address] (stream : Stream Address)
    (frame : Frame Address) :
    setStream env id stream frame =
      .ok () { frame with world := frame.world.stored env id stream } := by
  simp [setStream, World.stored, World.refreshed]

@[simp] theorem getStreamReadonly_run (frame : Frame Address) :
    getStreamReadonly id frame = .ok (frame.world.streams id) frame := rfl

@[simp] theorem streamCount_run (frame : Frame Address) :
    streamCount frame = .ok (frame.world.streamCount.getD 0) frame := rfl

@[simp] theorem transfer_run [DecidableEq Address] (token source target : Address) (amount : I128)
    (frame : Frame Address) :
    TokenClient.transfer env token source target amount frame =
      match env.token token (frame.world.balance token) source target amount with
      | none => .error .transferFailed frame
      | some book => .ok () { frame with
          world := frame.world.setBook token book
          transfers := frame.transfers ++ [⟨token, source, target, amount⟩] } := by
  simp only [TokenClient.transfer, bind_run, get_run]
  cases env.token token (frame.world.balance token) source target amount <;> rfl

end Storage

/-! ### The settling calls -/

section Settling

variable [DecidableEq Address]

/-- What a settling call has in hand once its record is written. -/
def Settled.pending (z : Settled Address) (token this target : Address) : Pending Address where
  transfer := if 0 < z.amount then some ⟨token, this, target, z.amount⟩ else none
  event := z.event
  amount := z.amount

def Frame.stored (env : Env Address) (id : UInt64) (stream : Stream Address)
    (frame : Frame Address) : Frame Address :=
  { frame with world := frame.world.stored env id stream }

theorem beginWithdraw_run (env : Env Address) (id : UInt64)
    {select : I128 → Except StreamError I128} (hselect : Bounded select) (frame : Frame Address) :
    beginWithdraw env id select frame =
      match frame.world.streams id with
      | none => .error (.error .streamNotFound) frame
      | some stream =>
        if env.authorized stream.recipient then
          match settleWithdraw select frame.world.timestamp id stream with
          | .error e => .error e (frame.refreshed env id)
          | .ok z => .ok (z.pending stream.token frame.world.contractAddress stream.recipient)
              ((frame.refreshed env id).stored env id z.stream)
        else .error .unauthorized (frame.refreshed env id) := by
  cases hs : frame.world.streams id with
  | none => simp [beginWithdraw, getStream_run, hs, okOr]
  | some stream =>
    have hclock : (frame.refreshed env id).world.timestamp = frame.world.timestamp := rfl
    by_cases hauth : env.authorized stream.recipient = true
    · simp only [beginWithdraw, settleWithdraw, bind_run, getStream_run, hs, okOr, liftError_run,
        Option.isSome_some, if_true, requireAuth_run, hauth, timestamp_run, hclock, liftTrap_run]
      cases stream.vestedAmount frame.world.timestamp with
      | error t => rfl
      | ok vested =>
        simp only [Except.mapError, ok_bind]
        cases withdrawableAmount vested stream.withdrawn with
        | error t => rfl
        | ok available =>
          simp only [ok_bind]
          cases hamount : select available with
          | error e => rfl
          | ok amount =>
            have hpos : 0 < amount := Signed.lt_iff.mpr (hselect available amount hamount).1
            simp only [ok_bind]
            cases stream.withdrawn.add amount with
            | error t => rfl
            | ok withdrawn =>
              simp only [ok_bind, pure, Except.pure, Settled.pending, if_pos hpos, setStream_run]
              rfl
    · simp [beginWithdraw, getStream_run, hs, okOr, hauth]

theorem beginCancel_run (env : Env Address) (id : UInt64) (frame : Frame Address) :
    beginCancel env id frame =
      match frame.world.streams id with
      | none => .error (.error .streamNotFound) frame
      | some stream =>
        if env.authorized stream.sender then
          match settleCancel frame.world.timestamp id stream with
          | .error e => .error e (frame.refreshed env id)
          | .ok z => .ok (z.pending stream.token frame.world.contractAddress stream.sender)
              ((frame.refreshed env id).stored env id z.stream)
        else .error .unauthorized (frame.refreshed env id) := by
  cases hs : frame.world.streams id with
  | none => simp [beginCancel, getStream_run, hs, okOr]
  | some stream =>
    have hclock : (frame.refreshed env id).world.timestamp = frame.world.timestamp := rfl
    by_cases hauth : env.authorized stream.sender = true
    · by_cases hcancelled : stream.cancelled = true
      · simp [beginCancel, getStream_run, hs, okOr, hauth, hcancelled, settleCancel]
      · by_cases hend : stream.endTime ≤ frame.world.timestamp
        · simp [beginCancel, getStream_run, hs, okOr, hauth, hcancelled, settleCancel, hend, hclock]
        · simp only [beginCancel, settleCancel, bind_run, getStream_run, hs, okOr, liftError_run,
            Option.isSome_some, if_true, requireAuth_run, hauth, timestamp_run, hclock,
            rejectIf_run, hcancelled, hend, liftTrap_run, Bool.false_eq_true, if_false]
          cases stream.vestedAmount frame.world.timestamp with
          | error t => rfl
          | ok vested =>
            simp only [Except.mapError, ok_bind]
            cases settlement stream.totalAmount vested stream.withdrawn with
            | error t => rfl
            | ok split =>
              simp only [ok_bind, pure, Except.pure, setStream_run]
              rfl
    · simp [beginCancel, getStream_run, hs, okOr, hauth]

/-- The three settling calls in one form, up to their token call. -/
theorem StreamOp.begin_run (op : StreamOp) (env : Env Address) (id : UInt64)
    (frame : Frame Address) :
    op.begin env id frame =
      match frame.world.streams id with
      | none => .error (.error .streamNotFound) frame
      | some stream =>
        if env.authorized (op.party stream) then
          match op.settle frame.world.timestamp id stream with
          | .error e => .error e (frame.refreshed env id)
          | .ok z => .ok (z.pending stream.token frame.world.contractAddress (op.party stream))
              ((frame.refreshed env id).stored env id z.stream)
        else .error .unauthorized (frame.refreshed env id) := by
  cases op with
  | withdraw => exact beginWithdraw_run env id selectAll_bounded frame
  | withdrawAmount amount => exact beginWithdraw_run env id (selectAmount_bounded amount) frame
  | cancel => exact beginCancel_run env id frame

/-- Pay out a settled record: store it, move the tokens, publish the event. -/
def Settled.commit (z : Settled Address) (env : Env Address) (id : UInt64) (token target : Address)
    (frame : Frame Address) : EStateM.Result Failure (Frame Address) I128 :=
  let stored := frame.stored env id z.stream
  if 0 < z.amount then
    match env.token token (frame.world.balance token) frame.world.contractAddress target
        z.amount with
    | none => .error .transferFailed stored
    | some book => .ok z.amount {
        world := stored.world.setBook token book
        transfers := frame.transfers ++ [⟨token, frame.world.contractAddress, target, z.amount⟩]
        events := frame.events ++ [z.event] }
  else .ok z.amount { stored with events := frame.events ++ [z.event] }

theorem Settled.perform_run (z : Settled Address) (env : Env Address) (id : UInt64)
    (token target : Address) (frame : Frame Address) :
    (ask env (z.pending token frame.world.contractAddress target).transfer >>= fun _ =>
      (z.pending token frame.world.contractAddress target).finish)
        (frame.stored env id z.stream) = z.commit env id token target frame := by
  unfold Settled.commit Settled.pending
  by_cases hpos : 0 < z.amount
  · simp only [if_pos hpos, ask, transfer, bind_run, transfer_run, Frame.stored, stored_balance]
    cases env.token token (frame.world.balance token) frame.world.contractAddress target
      z.amount <;> rfl
  · simp only [if_neg hpos]
    rfl

/-- The three settling calls in one form. -/
theorem StreamOp.program_run (op : StreamOp) (env : Env Address) (id : UInt64)
    (frame : Frame Address) :
    op.program env id frame =
      match frame.world.streams id with
      | none => .error (.error .streamNotFound) frame
      | some stream =>
        if env.authorized (op.party stream) then
          match op.settle frame.world.timestamp id stream with
          | .error e => .error e (frame.refreshed env id)
          | .ok z => z.commit env id stream.token (op.party stream) (frame.refreshed env id)
        else .error .unauthorized (frame.refreshed env id) := by
  rw [op.program_split, perform, bind_run, op.begin_run]
  cases hs : frame.world.streams id with
  | none => rfl
  | some stream =>
    by_cases hauth : env.authorized (op.party stream) = true
    · simp only [if_pos hauth]
      cases op.settle frame.world.timestamp id stream with
      | error e => rfl
      | ok z => exact z.perform_run env id stream.token (op.party stream) (frame.refreshed env id)
    · simp only [if_neg hauth]

/-- A rejected call leaves no trace. -/
def World.rejected (w : World Address) (failure : Failure) : Receipt Address × World Address :=
  (⟨w.timestamp, .error failure, [], []⟩, w)

def Settled.paid (z : Settled Address) (env : Env Address) (id : UInt64) (token target : Address)
    (w : World Address) : Receipt Address × World Address :=
  let stored := (w.refreshed env id).stored env id z.stream
  if 0 < z.amount then
    match env.token token (w.balance token) w.contractAddress target z.amount with
    | none => w.rejected .transferFailed
    | some book =>
      (⟨w.timestamp, .ok (.amount z.amount), [⟨token, w.contractAddress, target, z.amount⟩],
        [z.event]⟩, stored.setBook token book)
  else (⟨w.timestamp, .ok (.amount z.amount), [], [z.event]⟩, stored)

theorem World.invoke_op (w : World Address) (env : Env Address) (op : StreamOp) (id : UInt64) :
    w.invoke env (op.call id) =
      match w.streams id with
      | none => w.rejected (.error .streamNotFound)
      | some stream =>
        if env.authorized (op.party stream) then
          match op.settle w.timestamp id stream with
          | .error e => w.rejected e
          | .ok z => z.paid env id stream.token (op.party stream) w
        else w.rejected .unauthorized := by
  unfold World.invoke
  rw [op.run_call, map_run, op.program_run]
  cases hs : w.streams id with
  | none => rfl
  | some stream =>
    by_cases hauth : env.authorized (op.party stream) = true
    · simp only [if_pos hauth]
      cases hz : op.settle w.timestamp id stream with
      | error e => rfl
      | ok z =>
        simp only [Settled.commit, Settled.paid, Frame.refreshed, refreshed_balance,
          refreshed_contractAddress]
        by_cases hpos : 0 < z.amount
        · simp only [if_pos hpos]
          cases env.token stream.token (w.balance stream.token) w.contractAddress
            (op.party stream) z.amount <;> rfl
        · simp only [if_neg hpos]
          rfl
    · simp only [if_neg hauth]
      rfl

end Settling

/-! ### Creation -/

namespace Opening

variable (o : Opening Address)

def created (id : UInt64) : Created Address where
  sender := o.sender
  recipient := o.recipient
  id := id
  token := o.token
  totalAmount := o.totalAmount
  startTime := o.startTime
  endTime := o.endTime
  cliffTime := o.cliffTime

variable [DecidableEq Address]

/-- The argument checks of `createStream`, in their order. -/
def check (this : Address) (now : UInt64) : Except StreamError Unit :=
  if o.sender = this ∨ o.recipient = this ∨ o.token = this then .error .invalidParticipant
  else if o.totalAmount ≤ 0 then .error .invalidAmount
  else if maxAmount < o.totalAmount then .error .amountTooLarge
  else if o.endTime ≤ o.startTime then .error .invalidTimeRange
  else if o.cliffTime < o.startTime ∨ o.endTime < o.cliffTime then .error .invalidCliff
  else if o.endTime ≤ now then .error .streamWindowInPast
  else .ok ()

/-- What the checks guarantee of the arguments they let through. -/
structure Valid (this : Address) (now : UInt64) : Prop where
  sender_ne : o.sender ≠ this
  recipient_ne : o.recipient ≠ this
  token_ne : o.token ≠ this
  total_pos : 0 < o.totalAmount.toInt
  total_le : o.totalAmount.toInt ≤ maxAmount.toInt
  start_lt_end : o.startTime.toNat < o.endTime.toNat
  start_le_cliff : o.startTime.toNat ≤ o.cliffTime.toNat
  cliff_le_end : o.cliffTime.toNat ≤ o.endTime.toNat
  now_lt_end : now.toNat < o.endTime.toNat

theorem valid_of_check {this : Address} {now : UInt64} (h : o.check this now = .ok ()) :
    o.Valid this now := by
  unfold check at h
  split_ifs at h with h₁ h₂ h₃ h₄ h₅ h₆
  simp only [not_or, Signed.le_iff, Signed.lt_iff, Signed.toInt_zero, UInt64.le_iff_toNat_le,
    UInt64.lt_iff_toNat_lt, not_le, not_lt] at h₁ h₂ h₃ h₄ h₅ h₆
  exact ⟨h₁.1, h₁.2.1, h₁.2.2, h₂, h₃, h₄, h₅.1, h₅.2, h₆⟩

theorem check_of_valid {this : Address} {now : UInt64} (h : o.Valid this now) :
    o.check this now = .ok () := by
  have hparties : ¬ (o.sender = this ∨ o.recipient = this ∨ o.token = this) :=
    not_or.mpr ⟨h.sender_ne, not_or.mpr ⟨h.recipient_ne, h.token_ne⟩⟩
  have hpositive : ¬ o.totalAmount ≤ 0 := not_le.mpr h.total_pos
  have hlarge : ¬ maxAmount < o.totalAmount := not_lt.mpr h.total_le
  have hrange : ¬ o.endTime ≤ o.startTime := not_le.mpr h.start_lt_end
  have hcliff : ¬ (o.cliffTime < o.startTime ∨ o.endTime < o.cliffTime) :=
    not_or.mpr ⟨not_lt.mpr h.start_le_cliff, not_lt.mpr h.cliff_le_end⟩
  have hpast : ¬ o.endTime ≤ now := not_le.mpr h.now_lt_end
  unfold check
  rw [if_neg hparties, if_neg hpositive, if_neg hlarge, if_neg hrange, if_neg hcliff,
    if_neg hpast]

end Opening

section Creation

variable [DecidableEq Address]

/-- The ledger after a creation: the record stored, the counter advanced. -/
def World.opened (w : World Address) (env : Env Address) (o : Opening Address)
    (book : Address → ℤ) (id next : UInt64) : World Address :=
  ({ (w.setBook o.token book).stored env id o.stream with streamCount := some next }).extendTtl env
    .streamCount bumpThreshold entryTtl

/-- The ledger once the pending creation of a funded stream has been finished. -/
def World.finished (w : World Address) (env : Env Address) (o : Opening Address)
    (id next : UInt64) : World Address :=
  ({ w.stored env id o.stream with streamCount := some next }).extendTtl env .streamCount
    bumpThreshold entryTtl

theorem Opening.begin_run (o : Opening Address) (env : Env Address) (frame : Frame Address) :
    o.begin env frame =
      if env.authorized o.sender then
        match o.check frame.world.contractAddress frame.world.timestamp with
        | .error e => .error (.error e) frame
        | .ok () =>
          match U64.checkedAdd (frame.world.streamCount.getD 0) 1 with
          | none => .error (.error .streamCountExhausted) frame
          | some next => .ok (frame.world.streamCount.getD 0, next) frame
      else .error .unauthorized frame := by
  unfold Opening.begin Opening.check
  simp only [bind_run, requireAuth_run]
  by_cases hauth : env.authorized o.sender = true
  · simp only [if_pos hauth, currentContractAddress_run]
    by_cases hparties : o.sender = frame.world.contractAddress ∨
        o.recipient = frame.world.contractAddress ∨ o.token = frame.world.contractAddress
    · simp only [rejectIf_run, if_pos hparties]
    by_cases hpositive : o.totalAmount ≤ 0
    · simp only [rejectIf_run, if_neg hparties, if_pos hpositive]
    by_cases hlarge : maxAmount < o.totalAmount
    · simp only [rejectIf_run, if_neg hparties, if_neg hpositive, if_pos hlarge]
    by_cases hrange : o.endTime ≤ o.startTime
    · simp only [rejectIf_run, if_neg hparties, if_neg hpositive, if_neg hlarge, if_pos hrange]
    by_cases hcliff : o.cliffTime < o.startTime ∨ o.endTime < o.cliffTime
    · simp only [rejectIf_run, if_neg hparties, if_neg hpositive, if_neg hlarge, if_neg hrange,
        if_pos hcliff]
    simp only [rejectIf_run, if_neg hparties, if_neg hpositive, if_neg hlarge, if_neg hrange,
      if_neg hcliff, timestamp_run]
    by_cases hpast : o.endTime ≤ frame.world.timestamp
    · simp only [if_pos hpast]
    simp only [if_neg hpast, streamCount_run]
    cases hnext : U64.checkedAdd (frame.world.streamCount.getD 0) 1 with
    | none => simp only [okOr, liftError_run]
    | some next => simp only [okOr, liftError_run, pure_run]
  · simp only [if_neg hauth]

theorem Opening.finish_run (o : Opening Address) (env : Env Address) (id next : UInt64)
    (frame : Frame Address) :
    o.finish env id next frame = .ok id { frame with
      world := frame.world.finished env o id next
      events := frame.events ++ [.created (o.created id)] } := rfl

theorem Opening.program_run (o : Opening Address) (env : Env Address) (frame : Frame Address) :
    o.program env frame =
      if env.authorized o.sender then
        match o.check frame.world.contractAddress frame.world.timestamp with
        | .error e => .error (.error e) frame
        | .ok () =>
          match U64.checkedAdd (frame.world.streamCount.getD 0) 1 with
          | none => .error (.error .streamCountExhausted) frame
          | some next =>
            match env.token o.token (frame.world.balance o.token) o.sender
                frame.world.contractAddress o.totalAmount with
            | none => .error .transferFailed frame
            | some book => .ok (frame.world.streamCount.getD 0) {
                world := frame.world.opened env o book (frame.world.streamCount.getD 0) next
                transfers := frame.transfers ++
                  [⟨o.token, o.sender, frame.world.contractAddress, o.totalAmount⟩]
                events := frame.events ++
                  [.created (o.created (frame.world.streamCount.getD 0))] }
      else .error .unauthorized frame := by
  rw [o.program_split, bind_run, o.begin_run]
  by_cases hauth : env.authorized o.sender = true
  · simp only [if_pos hauth]
    cases o.check frame.world.contractAddress frame.world.timestamp with
    | error e => rfl
    | ok =>
      cases U64.checkedAdd (frame.world.streamCount.getD 0) 1 with
      | none => rfl
      | some next =>
        simp only [bind_run, currentContractAddress_run, ask, transfer, transfer_run]
        cases env.token o.token (frame.world.balance o.token) o.sender
          frame.world.contractAddress o.totalAmount <;> rfl
  · simp only [if_neg hauth]

theorem World.invoke_create (w : World Address) (env : Env Address) (o : Opening Address) :
    w.invoke env o.call =
      if env.authorized o.sender then
        match o.check w.contractAddress w.timestamp with
        | .error e => w.rejected (.error e)
        | .ok () =>
          match U64.checkedAdd (w.streamCount.getD 0) 1 with
          | none => w.rejected (.error .streamCountExhausted)
          | some next =>
            match env.token o.token (w.balance o.token) o.sender w.contractAddress
                o.totalAmount with
            | none => w.rejected .transferFailed
            | some book =>
              (⟨w.timestamp, .ok (.id (w.streamCount.getD 0)),
                [⟨o.token, o.sender, w.contractAddress, o.totalAmount⟩],
                [.created (o.created (w.streamCount.getD 0))]⟩,
                w.opened env o book (w.streamCount.getD 0) next)
      else w.rejected .unauthorized := by
  unfold World.invoke
  rw [o.run_call, map_run, o.program_run]
  by_cases hauth : env.authorized o.sender = true
  · simp only [if_pos hauth]
    cases o.check w.contractAddress w.timestamp with
    | error e => rfl
    | ok =>
      cases U64.checkedAdd (w.streamCount.getD 0) 1 with
      | none => rfl
      | some next =>
        cases env.token o.token (w.balance o.token) o.sender w.contractAddress o.totalAmount <;> rfl
  · simp only [if_neg hauth]
    rfl

end Creation

/-! ### Views -/

/-- A program that leaves the frame as it is when it returns. -/
def Reads {α : Type} (x : Host Address α) : Prop :=
  ∀ frame a next, x frame = .ok a next → next = frame

namespace Reads

variable {α β : Type} {x : Host Address α}

theorem pure (a : α) : Reads (Pure.pure a : Host Address α) := by
  intro frame b next h
  cases h
  rfl

theorem bind {f : α → Host Address β} (hx : Reads x) (hf : ∀ a, Reads (f a)) :
    Reads (x >>= f) := by
  intro frame b next h
  rw [bind_run] at h
  cases hr : x frame with
  | error e mid => simp [hr] at h
  | ok a mid =>
    rw [hr] at h
    obtain rfl := hx frame a mid hr
    exact hf a _ _ _ h

theorem map (f : α → β) (hx : Reads x) : Reads (f <$> x) := by
  intro frame b next h
  rw [map_run] at h
  cases hr : x frame with
  | error e mid => simp [hr] at h
  | ok a mid =>
    rw [hr] at h
    cases h
    exact hx frame a _ hr

theorem liftTrap (y : Except Trap α) : Reads (liftM y : Host Address α) := by
  cases y with
  | error t =>
    intro frame a next h
    cases h
  | ok a => exact pure a

theorem liftError (y : Except StreamError α) : Reads (liftM y : Host Address α) := by
  cases y with
  | error e =>
    intro frame a next h
    cases h
  | ok a => exact pure a

theorem rejectIf (condition : Prop) [Decidable condition] (e : StreamError) :
    Reads (TricklePay.rejectIf condition e : Host Address Unit) := by
  intro frame a next h
  rw [rejectIf_run] at h
  split_ifs at h
  cases h
  rfl

theorem get : Reads (MonadState.get : Host Address (Frame Address)) := by
  intro frame a next h
  cases h
  rfl

theorem timestamp : Reads (TricklePay.timestamp : Host Address UInt64) :=
  bind get fun _ => pure _

theorem getStreamReadonly (id : UInt64) :
    Reads (TricklePay.getStreamReadonly id : Host Address (Option (Stream Address))) :=
  bind get fun _ => pure _

theorem getStreams (ids : List UInt64) :
    Reads (ids.mapM TricklePay.getStreamReadonly :
      Host Address (List (Option (Stream Address)))) := by
  induction ids with
  | nil => exact pure []
  | cons id ids ih =>
    rw [List.mapM_cons]
    exact bind (getStreamReadonly id) fun _ => bind ih fun _ => pure _

end Reads

/-- The stream whose entry a view refreshes, if there is one. -/
def Call.loads : Call Address → Option UInt64
  | .getStream id | .withdrawable id | .vested id | .vestedAt id _ | .locked id | .progress id
  | .status id => some id
  | _ => none

/-- What is computed from a stored record by reading only refreshes its entry. -/
theorem load_refreshes {α β : Type} {env : Env Address} {id : UInt64} (g : α → β)
    {f : Stream Address → Host Address α} (hf : ∀ stream, Reads (f stream))
    {frame next : Frame Address} {b : β}
    (h : (g <$> (getStream env id >>= fun found =>
      (liftM (okOr found .streamNotFound) : Host Address (Stream Address)) >>= f)) frame =
        .ok b next) : next = frame.refreshed env id := by
  rw [map_run, bind_run, getStream_run] at h
  cases hstream : frame.world.streams id with
  | none => simp [hstream, okOr] at h
  | some stream =>
    simp only [hstream, Option.isSome_some, if_true, bind_run, okOr, liftError_run] at h
    cases hr : f stream (frame.refreshed env id) with
    | error e mid => simp [hr] at h
    | ok a mid =>
      rw [hr] at h
      cases h
      exact hf stream _ a _ hr

theorem Call.view_run [DecidableEq Address] {env : Env Address} {call : Call Address}
    (hview : call.isView = true) {frame next : Frame Address} {response : Response Address}
    (h : call.run env frame = .ok response next) :
    next = (call.loads.elim frame fun id => frame.refreshed env id) := by
  cases call with
  | createStream => simp [isView] at hview
  | withdraw => simp [isView] at hview
  | withdrawAmount => simp [isView] at hview
  | cancel => simp [isView] at hview
  | getStream id =>
    refine load_refreshes .stream (fun stream => .pure stream) (b := response) ?_
    simp only [bind_pure]
    exact h
  | cancelPreview id =>
    refine Reads.map _ (.bind (.getStreamReadonly id) fun _ => .bind (.liftError _) fun _ => ?_)
      _ _ _ h
    refine .bind (.rejectIf _ _) fun _ => .bind .timestamp fun now => ?_
    exact .bind (.rejectIf _ _) fun _ => .bind (.liftTrap _) fun _ => .liftTrap _
  | getStreams ids =>
    exact Reads.map _ (.bind (.rejectIf _ _) fun _ => .getStreams ids) _ _ _ h
  | streamExists id => exact Reads.map _ (.bind .get fun _ => .pure _) _ _ _ h
  | withdrawable id =>
    refine load_refreshes _ (fun stream => ?_) h
    exact .bind .timestamp fun _ => .bind (.liftTrap _) fun _ => .liftTrap _
  | vested id =>
    exact load_refreshes _ (fun stream => .bind .timestamp fun _ => .liftTrap _) h
  | vestedAt id t => exact load_refreshes _ (fun stream => .liftTrap _) h
  | locked id =>
    refine load_refreshes _ (fun stream => ?_) h
    exact .bind .timestamp fun _ => .bind (.liftTrap _) fun _ =>
      .bind (.liftTrap _) fun _ => .pure _
  | progress id =>
    refine load_refreshes _ (fun stream => ?_) h
    split_ifs
    · exact .pure _
    · refine .bind .timestamp fun _ => .bind (.liftTrap _) fun _ => .bind (.liftTrap _) fun _ => ?_
      exact .bind (.liftTrap _) fun _ => .bind (.liftTrap _) fun _ => .liftTrap _
  | status id => exact load_refreshes _ (fun stream => .bind .timestamp fun _ => .pure _) h
  | streamCount => exact Reads.map _ (.bind .get fun _ => .pure _) _ _ _ h
  | maxAmount => exact Reads.map _ (.pure _) _ _ _ h

/-! ### The effects of a call -/

/-- Everything an invocation can do. -/
inductive Effect [DecidableEq Address] (w : World Address) (env : Env Address)
    (call : Call Address) (receipt : Receipt Address) (w' : World Address) : Prop
  | rejected (failure : Failure) (hreceipt : receipt = ⟨w.timestamp, .error failure, [], []⟩)
      (hworld : w' = w)
  | viewed (response : Response Address) (liveUntil : DataKey → ℕ) (hcall : call.isView = true)
      (hreceipt : receipt = ⟨w.timestamp, .ok response, [], []⟩)
      (hworld : w' = { w with liveUntil })
  | opened (o : Opening Address) (next : UInt64) (book : Address → ℤ) (hcall : call = o.call)
      (hauth : env.authorized o.sender = true) (hvalid : o.Valid w.contractAddress w.timestamp)
      (hnext : U64.checkedAdd (w.streamCount.getD 0) 1 = some next)
      (hbook : env.token o.token (w.balance o.token) o.sender w.contractAddress o.totalAmount =
        some book)
      (hreceipt : receipt = ⟨w.timestamp, .ok (.id (w.streamCount.getD 0)),
        [⟨o.token, o.sender, w.contractAddress, o.totalAmount⟩],
        [.created (o.created (w.streamCount.getD 0))]⟩)
      (hworld : w' = w.opened env o book (w.streamCount.getD 0) next)
  | settled (op : StreamOp) (id : UInt64) (stream : Stream Address) (z : Settled Address)
      (hcall : call = op.call id) (hstream : w.streams id = some stream)
      (hauth : env.authorized (op.party stream) = true)
      (hsettle : op.settle w.timestamp id stream = .ok z)
      (hpaid : z.paid env id stream.token (op.party stream) w = (receipt, w'))

section Inversion

variable [DecidableEq Address] {w w' : World Address} {env : Env Address} {call : Call Address}
  {receipt : Receipt Address}

theorem Effect.of_rejected {failure : Failure} (h : w.rejected failure = (receipt, w')) :
    Effect w env call receipt w' := by
  cases h
  exact .rejected failure rfl rfl

theorem World.view_effect (hview : call.isView = true) (h : w.invoke env call = (receipt, w')) :
    Effect w env call receipt w' := by
  unfold World.invoke at h
  cases hr : call.run env { world := w, transfers := [], events := [] } with
  | error failure next =>
    rw [hr] at h
    exact .of_rejected h
  | ok response next =>
    have hnext := Call.view_run hview hr
    rw [hr] at h
    cases h
    cases hloads : call.loads with
    | none =>
      rw [hloads] at hnext
      subst hnext
      exact .viewed response w.liveUntil hview rfl rfl
    | some id =>
      rw [hloads] at hnext
      subst hnext
      exact .viewed response _ hview rfl rfl

theorem World.create_effect {o : Opening Address} (h : w.invoke env o.call = (receipt, w')) :
    Effect w env o.call receipt w' := by
  rw [w.invoke_create] at h
  by_cases hauth : env.authorized o.sender = true
  · rw [if_pos hauth] at h
    cases hcheck : o.check w.contractAddress w.timestamp with
    | error e =>
      rw [hcheck] at h
      exact .of_rejected h
    | ok =>
      rw [hcheck] at h
      cases hnext : U64.checkedAdd (w.streamCount.getD 0) 1 with
      | none =>
        rw [hnext] at h
        exact .of_rejected h
      | some next =>
        rw [hnext] at h
        cases hbook : env.token o.token (w.balance o.token) o.sender w.contractAddress
            o.totalAmount with
        | none =>
          rw [hbook] at h
          exact .of_rejected h
        | some book =>
          rw [hbook] at h
          cases h
          exact .opened o next book rfl hauth (o.valid_of_check hcheck) hnext hbook rfl rfl
  · rw [if_neg hauth] at h
    exact .of_rejected h

theorem World.op_effect (op : StreamOp) {id : UInt64}
    (h : w.invoke env (op.call id) = (receipt, w')) : Effect w env (op.call id) receipt w' := by
  rw [w.invoke_op] at h
  cases hstream : w.streams id with
  | none =>
    rw [hstream] at h
    exact .of_rejected h
  | some stream =>
    rw [hstream] at h
    by_cases hauth : env.authorized (op.party stream) = true
    · simp only [if_pos hauth] at h
      cases hsettle : op.settle w.timestamp id stream with
      | error e =>
        rw [hsettle] at h
        exact .of_rejected h
      | ok z =>
        rw [hsettle] at h
        exact .settled op id stream z rfl hstream hauth hsettle h
    · simp only [if_neg hauth] at h
      exact .of_rejected h

theorem World.invoke_effect (h : w.invoke env call = (receipt, w')) :
    Effect w env call receipt w' := by
  cases call with
  | createStream sender recipient token totalAmount startTime endTime cliffTime =>
    exact create_effect (o := ⟨sender, recipient, token, totalAmount, startTime, endTime,
      cliffTime⟩) h
  | withdraw id => exact op_effect .withdraw h
  | withdrawAmount id amount => exact op_effect (.withdrawAmount amount) h
  | cancel id => exact op_effect .cancel h
  | _ => exact view_effect rfl h

/-- A payment is refused, or it leaves the settled record and some balances. -/
theorem Settled.paid_cases {z : Settled Address} {id : UInt64} {token target : Address}
    (h : z.paid env id token target w = (receipt, w')) :
    (receipt, w') = w.rejected .transferFailed ∨
      receipt.result = .ok (.amount z.amount) ∧
        ∃ balance, w' = { (w.refreshed env id).stored env id z.stream with balance } := by
  unfold Settled.paid at h
  dsimp only at h
  split_ifs at h
  · cases hbook : env.token token (w.balance token) w.contractAddress target z.amount with
    | none =>
      rw [hbook] at h
      exact Or.inl h.symm
    | some book =>
      rw [hbook] at h
      cases h
      exact Or.inr ⟨rfl, _, rfl⟩
  · cases h
    exact Or.inr ⟨rfl, _, rfl⟩

theorem Settled.paid_timestamp {z : Settled Address} {id : UInt64} {token target : Address}
    (h : z.paid env id token target w = (receipt, w')) : w'.timestamp = w.timestamp := by
  rcases Settled.paid_cases h with hrejected | ⟨_, balance, hworld⟩
  · cases hrejected
    rfl
  · rw [hworld]
    rfl

theorem World.invoke_timestamp (h : w.invoke env call = (receipt, w')) :
    w'.timestamp = w.timestamp := by
  cases World.invoke_effect h with
  | rejected _ _ hworld => rw [hworld]
  | viewed _ _ _ _ hworld => rw [hworld]
  | opened _ _ _ _ _ _ _ _ _ hworld =>
    rw [hworld]
    rfl
  | settled _ _ _ _ _ _ _ _ hpaid => exact Settled.paid_timestamp hpaid

theorem World.invoke_receipt_timestamp (h : w.invoke env call = (receipt, w')) :
    receipt.timestamp = w.timestamp := by
  unfold World.invoke at h
  cases hr : call.run env { world := w, transfers := [], events := [] } with
  | ok response frame =>
    rw [hr] at h
    cases h
    rfl
  | error failure frame =>
    rw [hr] at h
    cases h
    rfl

/-- A creation that returns an id has stored the record it was asked for, there. -/
theorem World.create_stored {o : Opening Address} (h : w.invoke env o.call = (receipt, w'))
    {id : UInt64} (hresult : receipt.result = .ok (.id id)) :
    w'.streams id = some o.stream ∧ o.Valid w.contractAddress w.timestamp := by
  cases World.create_effect h with
  | rejected _ hreceipt _ =>
    rw [hreceipt] at hresult
    cases hresult
  | viewed _ _ hcall _ _ => cases hcall
  | opened o' next book hcall _ hvalid _ _ hreceipt hworld =>
    obtain rfl := Opening.call_inj hcall
    rw [hreceipt] at hresult
    cases hresult
    rw [hworld]
    exact ⟨Function.update_self _ _ _, hvalid⟩
  | settled op _ _ _ hcall _ _ _ _ => cases op <;> cases hcall

end Inversion

end TricklePay
