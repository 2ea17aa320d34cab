import TricklePay.Library.Shift
import TricklePay.Library.Relational
import TricklePay.Proofs.Invariant

/-!
# Time is relative

The contract compares ledger times with one another and takes their differences, and
does nothing else with them. So a whole history, moved to a later time together with
every schedule in it, is again a history: every call returns, pays and publishes what
it did, with the times in it moved.
-/

namespace TricklePay

open Checked Checked.U64 Transition Relational

variable {Address : Type}

/-! ### Moving everything -/

namespace Stream

def shift (delta : UInt64) (stream : Stream Address) : Stream Address :=
  { stream with
    startTime := U64.shift delta stream.startTime
    endTime := U64.shift delta stream.endTime
    cliffTime := U64.shift delta stream.cliffTime }

structure Room (delta : UInt64) (stream : Stream Address) : Prop where
  start : U64.Room delta stream.startTime
  «end» : U64.Room delta stream.endTime
  cliff : U64.Room delta stream.cliffTime

end Stream

def Event.shift (delta : UInt64) : Event Address → Event Address
  | .created event => .created
      { event with
        startTime := U64.shift delta event.startTime
        endTime := U64.shift delta event.endTime
        cliffTime := U64.shift delta event.cliffTime }
  | .withdrawn event => .withdrawn event
  | .cancelled event => .cancelled event

namespace Call

def shift (delta : UInt64) : Call Address → Call Address
  | .createStream sender recipient token totalAmount startTime endTime cliffTime =>
    .createStream sender recipient token totalAmount (U64.shift delta startTime)
      (U64.shift delta endTime) (U64.shift delta cliffTime)
  | .vestedAt id timestamp => .vestedAt id (U64.shift delta timestamp)
  | call => call

/-- The times in the arguments can be moved. -/
def Room (delta : UInt64) : Call Address → Prop
  | .createStream _ _ _ _ startTime endTime cliffTime =>
    U64.Room delta startTime ∧ U64.Room delta endTime ∧ U64.Room delta cliffTime
  | .vestedAt _ timestamp => U64.Room delta timestamp
  | _ => True

end Call

def Response.shift (delta : UInt64) : Response Address → Response Address
  | .stream record => .stream (record.shift delta)
  | .streams records => .streams (records.map fun found => found.map (Stream.shift delta))
  | response => response

namespace World

def shift (delta : UInt64) (w : World Address) : World Address :=
  { w with
    timestamp := U64.shift delta w.timestamp
    streams := fun id => (w.streams id).map (Stream.shift delta) }

/-- The clock and every schedule can be moved. -/
structure Room (delta : UInt64) (w : World Address) : Prop where
  timestamp : U64.Room delta w.timestamp
  streams : ∀ id stream, w.streams id = some stream → stream.Room delta

end World

def Receipt.shift (delta : UInt64) (receipt : Receipt Address) : Receipt Address where
  timestamp := U64.shift delta receipt.timestamp
  result := receipt.result.map (Response.shift delta)
  transfers := receipt.transfers
  events := receipt.events.map (Event.shift delta)

namespace Label

def shift (delta : UInt64) : Label Address → Label Address
  | .clock timestamp sequence => .clock (U64.shift delta timestamp) sequence
  | .call env entry receipt => .call env (entry.shift delta) (receipt.shift delta)
  | .deposit env token source amount credited => .deposit env token source amount credited
  | .bookkeeping token act => .bookkeeping token act

def Room (delta : UInt64) : Label Address → Prop
  | .clock timestamp _ => U64.Room delta timestamp
  | .call _ entry _ => entry.Room delta
  | _ => True

end Label

/-! ### The programs -/

/-- The same invocation in progress, at the later time. -/
structure Frame.Shifted (delta : UInt64) (f g : Frame Address) : Prop where
  room : f.world.Room delta
  world : g.world = f.world.shift delta
  transfers : g.transfers = f.transfers
  events : g.events = f.events.map (Event.shift delta)

/-- At the later time `y` does what `x` does now, and returns what `V` says. -/
abbrev Delayed {α β : Type} (delta : UInt64) (V : α → β → Prop) (x : Host Address α)
    (y : Host Address β) : Prop :=
  Agree (Frame.Shifted delta) (Frame.Shifted delta) V x y

/-- A time and the later one. -/
def TimeShifted (delta s t : UInt64) : Prop := U64.Room delta s ∧ t = U64.shift delta s

def StreamShifted (delta : UInt64) (s t : Stream Address) : Prop :=
  s.Room delta ∧ t = s.shift delta

def FoundShifted (delta : UInt64) (s t : Option (Stream Address)) : Prop :=
  (∀ stream, s = some stream → stream.Room delta) ∧ t = s.map (Stream.shift delta)

section Arithmetic

variable {delta now later : UInt64} {stream stream' : Stream Address}

theorem StreamShifted.vestedAmount (h : StreamShifted delta stream stream')
    (ht : TimeShifted delta now later) : stream'.vestedAmount later = stream.vestedAmount now := by
  obtain ⟨⟨hstart, hend, hcliff⟩, rfl⟩ := h
  obtain ⟨hnow, rfl⟩ := ht
  unfold Stream.vestedAmount TricklePay.vestedAmount Stream.shift
  simp only [shift_lt_shift_iff hnow hcliff, shift_lt_shift_iff hnow hstart,
    shift_le_shift_iff hend hnow, sub_shift hnow hstart, sub_shift hend hstart]

theorem StreamShifted.streamStatus (h : StreamShifted delta stream stream')
    (ht : TimeShifted delta now later) : streamStatus stream' later = streamStatus stream now := by
  obtain ⟨⟨hstart, hend, _⟩, rfl⟩ := h
  obtain ⟨hnow, rfl⟩ := ht
  unfold TricklePay.streamStatus Stream.shift
  simp only [shift_lt_shift_iff hnow hstart, shift_le_shift_iff hend hnow]

end Arithmetic

namespace Delayed

variable {delta : UInt64} {α β γ : Type} {V : α → β → Prop} {x : Host Address α}
  {y : Host Address β}

/-- Equal intermediate values are passed on. -/
theorem bind_eq {x' : Host Address α} {f : α → Host Address β} {g : α → Host Address γ}
    {W : β → γ → Prop} (hx : Delayed delta Eq x x') (hf : ∀ a, Delayed delta W (f a) (g a)) :
    Delayed delta W (x >>= f) (x' >>= g) := by
  refine Agree.bind hx ?_
  rintro a _ rfl
  exact hf a

theorem timestamp : Delayed delta (TimeShifted delta)
    (TricklePay.timestamp : Host Address UInt64) TricklePay.timestamp := by
  intro f g h
  refine .ok h ⟨h.room.timestamp, ?_⟩
  rw [h.world]
  rfl

theorem currentContractAddress : Delayed delta Eq
    (TricklePay.currentContractAddress : Host Address Address)
    TricklePay.currentContractAddress := by
  intro f g h
  refine .ok h ?_
  rw [h.world]
  rfl

theorem requireAuth (env : Env Address) (address : Address) :
    Delayed delta Eq (TricklePay.requireAuth env address) (TricklePay.requireAuth env address) := by
  intro f g h
  rw [requireAuth_run, requireAuth_run]
  split_ifs
  · exact .ok h rfl
  · exact .error

theorem rejectIf {condition condition' : Prop} [Decidable condition] [Decidable condition']
    (hiff : condition' ↔ condition) (e : StreamError) :
    Delayed delta Eq (TricklePay.rejectIf condition e : Host Address Unit)
      (TricklePay.rejectIf condition' e) := by
  intro f g h
  rw [rejectIf_run, rejectIf_run]
  by_cases hc : condition
  · rw [if_pos hc, if_pos (hiff.mpr hc)]
    exact .error
  · rw [if_neg hc, if_neg fun hc' => hc (hiff.mp hc')]
    exact .ok h rfl

theorem liftTrap {z z' : Except Trap α} (hz : z' = z) :
    Delayed delta Eq (liftM z : Host Address α) (liftM z') := by
  subst hz
  cases z' with
  | error t => exact .throw _
  | ok a => exact .pure rfl

theorem liftError {z z' : Except StreamError α} (hz : z' = z) :
    Delayed delta Eq (liftM z : Host Address α) (liftM z') := by
  subst hz
  cases z' with
  | error e => exact .throw _
  | ok a => exact .pure rfl

theorem found {found found' : Option (Stream Address)} (h : FoundShifted delta found found')
    (e : StreamError) :
    Delayed delta (StreamShifted delta) (liftM (okOr found e) : Host Address (Stream Address))
      (liftM (okOr found' e)) := by
  obtain ⟨hroom, rfl⟩ := h
  cases found with
  | none => exact .throw _
  | some stream => exact .pure ⟨hroom stream rfl, rfl⟩

theorem getStreamReadonly (id : UInt64) : Delayed delta (FoundShifted delta)
    (TricklePay.getStreamReadonly id : Host Address (Option (Stream Address)))
    (TricklePay.getStreamReadonly id) := by
  intro f g h
  refine .ok h ⟨h.room.streams id, ?_⟩
  rw [h.world]
  rfl

theorem refreshed (env : Env Address) (id : UInt64) {f g : Frame Address}
    (h : f.Shifted delta g) : (f.refreshed env id).Shifted delta (g.refreshed env id) := by
  refine ⟨⟨h.room.timestamp, h.room.streams⟩, ?_, h.transfers, h.events⟩
  change g.world.refreshed env id = _
  rw [h.world]
  rfl

theorem getStream (env : Env Address) (id : UInt64) : Delayed delta (FoundShifted delta)
    (TricklePay.getStream env id) (TricklePay.getStream env id) := by
  intro f g h
  rw [getStream_run, getStream_run]
  have hstream : g.world.streams id = (f.world.streams id).map (Stream.shift delta) := by
    rw [h.world]
    rfl
  rw [hstream, Option.isSome_map]
  split_ifs
  · exact .ok (refreshed env id h) ⟨h.room.streams id, rfl⟩
  · exact .ok h ⟨h.room.streams id, rfl⟩

theorem hasStream (id : UInt64) : Delayed delta Eq
    (TricklePay.hasStream id : Host Address Bool) (TricklePay.hasStream id) := by
  intro f g h
  refine .ok h ?_
  rw [h.world]
  exact Option.isSome_map.symm

theorem streamCount : Delayed delta Eq
    (TricklePay.streamCount : Host Address UInt64) TricklePay.streamCount := by
  intro f g h
  refine .ok h ?_
  rw [h.world]
  rfl

/-- A step that only touches the ledger, alike at both times. -/
theorem modifyWorld {act act' : World Address → World Address}
    (hact : ∀ w : World Address, w.Room delta →
      (act w).Room delta ∧ act' (w.shift delta) = (act w).shift delta) :
    Delayed delta Eq (TricklePay.modifyWorld act) (TricklePay.modifyWorld act') := by
  intro f g h
  obtain ⟨hroom, hworld⟩ := hact f.world h.room
  refine .ok ⟨hroom, ?_, h.transfers, h.events⟩ rfl
  change act' g.world = _
  rw [h.world, hworld]

theorem publish {event event' : Event Address} (he : event' = event.shift delta) :
    Delayed delta Eq (TricklePay.publish event) (TricklePay.publish event') := by
  intro f g h
  refine .ok ⟨h.room, h.world, h.transfers, ?_⟩ rfl
  change g.events ++ [event'] = (f.events ++ [event]).map _
  rw [h.events, he, List.map_append]
  rfl

theorem setStreamCount (count : UInt64) :
    Delayed delta Eq (TricklePay.setStreamCount count : Host Address Unit)
      (TricklePay.setStreamCount count) :=
  modifyWorld fun _ hw => ⟨⟨hw.timestamp, hw.streams⟩, rfl⟩

theorem extendInstanceTtl (env : Env Address) :
    Delayed delta Eq (TricklePay.extendInstanceTtl env) (TricklePay.extendInstanceTtl env) :=
  modifyWorld fun _ hw => ⟨⟨hw.timestamp, hw.streams⟩, rfl⟩

section Writes

variable [DecidableEq Address]

theorem setStream (env : Env Address) (id : UInt64) {stream stream' : Stream Address}
    (h : StreamShifted delta stream stream') :
    Delayed delta Eq (TricklePay.setStream env id stream)
      (TricklePay.setStream env id stream') := by
  obtain ⟨hstream, rfl⟩ := h
  have hwrite : Delayed delta Eq (TricklePay.modifyWorld (World.setStream env id stream))
      (TricklePay.modifyWorld (World.setStream env id (stream.shift delta))) := by
    refine modifyWorld fun w hw => ⟨⟨hw.timestamp, ?_⟩, ?_⟩
    · intro i s hs
      by_cases hi : i = id
      · subst hi
        change Function.update w.streams i (some stream) i = some s at hs
        rw [Function.update_self] at hs
        cases hs
        exact hstream
      · change Function.update w.streams id (some stream) i = some s at hs
        rw [Function.update_of_ne hi] at hs
        exact hw.streams i s hs
    · unfold World.setStream World.shift
      simp only [Option.isSome_map]
      congr 1
      funext i
      by_cases hi : i = id
      · subst hi
        simp only [Function.update_self, Option.map_some]
      · simp only [Function.update_of_ne hi]
  refine hwrite.bind fun _ _ _ => modifyWorld fun w hw => ⟨⟨hw.timestamp, hw.streams⟩, rfl⟩

/-- Tokens are not told the time. -/
theorem transfer (env : Env Address) (token source target : Address) (amount : I128) :
    Delayed delta Eq (TokenClient.transfer env token source target amount)
      (TokenClient.transfer env token source target amount) := by
  intro f g h
  rw [transfer_run, transfer_run]
  have hbalance : g.world.balance = f.world.balance := by
    rw [h.world]
    rfl
  rw [hbalance]
  cases env.token token (f.world.balance token) source target amount with
  | none => exact .error
  | some book =>
    refine .ok ⟨⟨h.room.timestamp, h.room.streams⟩, ?_, ?_, h.events⟩ rfl
    · rw [h.world]
      rfl
    · rw [h.transfers]

end Writes

/-- What is computed from a loaded record is computed alike at the later time. -/
theorem load (env : Env Address) (id : UInt64) {f : Stream Address → Host Address α}
    {g : Stream Address → Host Address β}
    (hf : ∀ s t, StreamShifted delta s t → Delayed delta V (f s) (g t)) :
    Delayed delta V
      (TricklePay.getStream env id >>= fun found =>
        (liftM (okOr found .streamNotFound) : Host Address (Stream Address)) >>= f)
      (TricklePay.getStream env id >>= fun found =>
        (liftM (okOr found .streamNotFound) : Host Address (Stream Address)) >>= g) :=
  (getStream env id).bind fun _ _ hfound => (found hfound _).bind hf

theorem withVested {s t : Stream Address} (h : StreamShifted delta s t)
    {f : I128 → Host Address α} {g : I128 → Host Address β}
    (hf : ∀ vested, Delayed delta V (f vested) (g vested)) :
    Delayed delta V
      (TricklePay.timestamp >>= fun now =>
        (liftM (s.vestedAmount now) : Host Address I128) >>= f)
      (TricklePay.timestamp >>= fun now =>
        (liftM (t.vestedAmount now) : Host Address I128) >>= g) := by
  refine timestamp.bind fun _ _ htime => (liftTrap (h.vestedAmount htime)).bind ?_
  rintro vested _ rfl
  exact hf vested

/-! ### The longer views -/

theorem cancelPreview (id : UInt64) :
    Delayed delta Eq (StreamContract.cancelPreview id : Host Address Settlement)
      (StreamContract.cancelPreview id) := by
  refine (getStreamReadonly id).bind fun _ _ hfound => (found hfound _).bind ?_
  rintro s _ ⟨hs, rfl⟩
  refine (rejectIf Iff.rfl _).bind_eq fun _ => timestamp.bind ?_
  rintro now _ ⟨hnow, rfl⟩
  refine (rejectIf (shift_le_shift_iff hs.end hnow) _).bind_eq fun _ => ?_
  have hvested := StreamShifted.vestedAmount ⟨hs, rfl⟩ ⟨hnow, rfl⟩
  exact (liftTrap hvested).bind_eq fun _ => liftTrap rfl

theorem getStreams (ids : List UInt64) : Delayed delta (List.Forall₂ (FoundShifted delta))
    (StreamContract.getStreams ids : Host Address (List (Option (Stream Address))))
    (StreamContract.getStreams ids) :=
  (rejectIf Iff.rfl _).bind_eq fun _ => .mapM fun id _ => getStreamReadonly id

theorem progress (env : Env Address) (id : UInt64) :
    Delayed delta Eq (StreamContract.progress env id) (StreamContract.progress env id) := by
  refine load env id ?_
  rintro s _ ⟨hs, rfl⟩
  have htotal : (s.shift delta).totalAmount = s.totalAmount := rfl
  rw [htotal]
  split_ifs
  · exact .pure rfl
  · refine withVested ⟨hs, rfl⟩ fun _ => (liftTrap rfl).bind_eq fun _ => ?_
    exact (liftTrap rfl).bind_eq fun _ => (liftTrap rfl).bind_eq fun _ => liftTrap rfl

end Delayed

theorem shift_streams {delta : UInt64} {records records' : List (Option (Stream Address))}
    (h : List.Forall₂ (FoundShifted delta) records records') :
    (Response.streams records).shift delta = .streams records' := by
  induction h with
  | nil => rfl
  | cons hfirst _ ih =>
    obtain ⟨_, rfl⟩ := hfirst
    simp only [Response.shift, Response.streams.injEq, List.map_cons] at ih ⊢
    rw [ih]

/-! ### The entry points -/

variable [DecidableEq Address]

namespace Delayed

variable {delta : UInt64}

theorem withdrawWith (env : Env Address) (id : UInt64) (select : I128 → Except StreamError I128) :
    Delayed delta Eq (TricklePay.withdrawWith env id select)
      (TricklePay.withdrawWith env id select) := by
  refine load env id ?_
  rintro s _ ⟨hroom, rfl⟩
  refine (requireAuth env s.recipient).bind_eq fun _ => withVested ⟨hroom, rfl⟩ fun vested => ?_
  refine (liftTrap rfl).bind_eq fun available => (liftError rfl).bind_eq fun amount => ?_
  refine (liftTrap rfl).bind_eq fun withdrawn => ?_
  have hpaid : StreamShifted delta { s with withdrawn } { s.shift delta with withdrawn } :=
    ⟨⟨hroom.start, hroom.end, hroom.cliff⟩, rfl⟩
  refine (setStream env id hpaid).bind_eq fun _ => ?_
  refine currentContractAddress.bind_eq fun this => (transfer env _ _ _ _).bind_eq fun _ => ?_
  exact (publish rfl).bind_eq fun _ => .pure rfl

theorem cancel (env : Env Address) (id : UInt64) :
    Delayed delta Eq (StreamContract.cancel env id) (StreamContract.cancel env id) := by
  refine load env id ?_
  rintro s _ ⟨hroom, rfl⟩
  refine (requireAuth env s.sender).bind_eq fun _ => (rejectIf Iff.rfl _).bind_eq fun _ => ?_
  refine timestamp.bind ?_
  rintro now _ ⟨hnow, rfl⟩
  refine (rejectIf (shift_le_shift_iff hroom.end hnow) _).bind_eq fun _ => ?_
  have hvested := StreamShifted.vestedAmount ⟨hroom, rfl⟩ ⟨hnow, rfl⟩
  refine (liftTrap hvested).bind_eq fun vested => (liftTrap rfl).bind_eq fun split => ?_
  have hclosed : StreamShifted delta
      { s with
        totalAmount := vested
        startTime := min s.startTime now
        cliffTime := min s.cliffTime now
        endTime := now
        cancelled := true }
      { s.shift delta with
        totalAmount := vested
        startTime := min (s.shift delta).startTime (U64.shift delta now)
        cliffTime := min (s.shift delta).cliffTime (U64.shift delta now)
        endTime := U64.shift delta now
        cancelled := true } := by
    refine ⟨⟨hroom.start.min hnow, hnow, hroom.cliff.min hnow⟩, ?_⟩
    simp only [Stream.shift, shift_min hroom.start hnow, shift_min hroom.cliff hnow]
  refine (setStream env id hclosed).bind_eq fun _ => ?_
  split_ifs
  · refine currentContractAddress.bind_eq fun this => (transfer env _ _ _ _).bind_eq fun _ => ?_
    exact (publish rfl).bind_eq fun _ => .pure rfl
  · exact (publish rfl).bind_eq fun _ => .pure rfl

theorem createStream (env : Env Address) (sender recipient token : Address) (totalAmount : I128)
    {startTime endTime cliffTime : UInt64} (hstart : U64.Room delta startTime)
    (hend : U64.Room delta endTime) (hcliff : U64.Room delta cliffTime) :
    Delayed delta Eq
      (StreamContract.createStream env sender recipient token totalAmount startTime endTime
        cliffTime)
      (StreamContract.createStream env sender recipient token totalAmount
        (U64.shift delta startTime) (U64.shift delta endTime) (U64.shift delta cliffTime)) := by
  refine (requireAuth env sender).bind_eq fun _ => currentContractAddress.bind_eq fun this => ?_
  refine (rejectIf Iff.rfl _).bind_eq fun _ => (rejectIf Iff.rfl _).bind_eq fun _ => ?_
  refine (rejectIf Iff.rfl _).bind_eq fun _ => ?_
  refine (rejectIf (shift_le_shift_iff hend hstart) _).bind_eq fun _ => ?_
  refine (rejectIf (or_congr (shift_lt_shift_iff hcliff hstart) (shift_lt_shift_iff hend hcliff))
    _).bind_eq fun _ => ?_
  refine timestamp.bind ?_
  rintro now _ ⟨hnow, rfl⟩
  refine (rejectIf (shift_le_shift_iff hend hnow) _).bind_eq fun _ => ?_
  refine streamCount.bind_eq fun id => (liftError rfl).bind_eq fun nextId => ?_
  refine currentContractAddress.bind_eq fun _ => (transfer env _ _ _ _).bind_eq fun _ => ?_
  have hopened : StreamShifted delta
      { sender, recipient, token, totalAmount, withdrawn := 0, startTime, endTime, cliffTime,
        cancelled := false }
      { sender, recipient, token, totalAmount, withdrawn := 0
        startTime := U64.shift delta startTime
        endTime := U64.shift delta endTime
        cliffTime := U64.shift delta cliffTime
        cancelled := false } := ⟨⟨hstart, hend, hcliff⟩, rfl⟩
  refine (setStream env id hopened).bind_eq fun _ => (setStreamCount nextId).bind_eq fun _ => ?_
  refine (extendInstanceTtl env).bind_eq fun _ => (publish rfl).bind_eq fun _ => ?_
  exact .pure rfl

end Delayed

/-- Every entry point does at the later time what it does now. -/
theorem Call.delayed {delta : UInt64} {call : Call Address} (hroom : call.Room delta)
    (env : Env Address) :
    Delayed delta (fun r r' => r' = r.shift delta) (call.run env) ((call.shift delta).run env) := by
  have hplain : ∀ {α : Type} {f : α → Response Address} {x y : Host Address α},
      (∀ a, (f a).shift delta = f a) → Delayed delta Eq x y →
      Delayed delta (fun r r' => r' = r.shift delta) (f <$> x) (f <$> y) := by
    intro α f x y hf hxy
    refine hxy.map ?_
    rintro a _ rfl
    exact (hf a).symm
  cases call with
  | createStream sender recipient token totalAmount startTime endTime cliffTime =>
    obtain ⟨hstart, hend, hcliff⟩ := hroom
    exact hplain (fun _ => rfl)
      (Delayed.createStream env sender recipient token totalAmount hstart hend hcliff)
  | withdraw id => exact hplain (fun _ => rfl) (Delayed.withdrawWith env id selectAll)
  | withdrawAmount id amount =>
    exact hplain (fun _ => rfl) (Delayed.withdrawWith env id (selectAmount amount))
  | cancel id => exact hplain (fun _ => rfl) (Delayed.cancel env id)
  | getStream id =>
    refine Agree.map (V := StreamShifted delta) ?_ ?_
    · rintro s _ ⟨_, rfl⟩
      rfl
    · exact (Delayed.getStream env id).bind fun _ _ hfound => Delayed.found hfound _
  | cancelPreview id => exact hplain (fun _ => rfl) (Delayed.cancelPreview id)
  | getStreams ids =>
    exact Agree.map (fun _ _ h => (shift_streams h).symm) (Delayed.getStreams ids)
  | streamExists id => exact hplain (fun _ => rfl) (Delayed.hasStream id)
  | withdrawable id =>
    exact hplain (fun _ => rfl) (Delayed.load env id fun s t h =>
      Delayed.withVested h fun _ => Delayed.liftTrap (by rw [h.2]; rfl))
  | vested id =>
    refine hplain (fun _ => rfl) (Delayed.load env id fun s t h => ?_)
    exact Delayed.timestamp.bind fun _ _ htime => Delayed.liftTrap (h.vestedAmount htime)
  | vestedAt id t =>
    exact hplain (fun _ => rfl) (Delayed.load env id fun _ _ h =>
      Delayed.liftTrap (h.vestedAmount ⟨hroom, rfl⟩))
  | locked id =>
    refine hplain (fun _ => rfl) (Delayed.load env id ?_)
    rintro s _ ⟨hs, rfl⟩
    exact Delayed.withVested ⟨hs, rfl⟩ fun _ => (Delayed.liftTrap rfl).bind_eq fun _ => .pure rfl
  | progress id => exact hplain (fun _ => rfl) (Delayed.progress env id)
  | status id =>
    exact hplain (fun _ => rfl) (Delayed.load env id fun _ _ h =>
      Delayed.timestamp.bind fun _ _ htime => .pure (h.streamStatus htime).symm)
  | streamCount => exact hplain (fun _ => rfl) Delayed.streamCount
  | maxAmount => exact hplain (fun _ => rfl) (.pure rfl)

/-! ### Runs -/

section Runs

variable {delta : UInt64} {w w' : World Address}

theorem World.Room.invoke (hw : w.Room delta) {call : Call Address} (hcall : call.Room delta)
    {env : Env Address} {receipt : Receipt Address} (h : w.invoke env call = (receipt, w')) :
    w'.Room delta ∧
      (w.shift delta).invoke env (call.shift delta) = (receipt.shift delta, w'.shift delta) := by
  have hends := Call.delayed hcall env ⟨w, [], []⟩ ⟨w.shift delta, [], []⟩ ⟨hw, rfl, rfl, rfl⟩
  unfold World.invoke at h ⊢
  generalize call.run env ⟨w, [], []⟩ = result at hends h
  generalize (call.shift delta).run env ⟨w.shift delta, [], []⟩ = result' at hends ⊢
  cases hends with
  | ok hframe hvalue =>
    cases h
    refine ⟨hframe.room, ?_⟩
    simp only [hvalue, hframe.world, hframe.transfers, hframe.events]
    rfl
  | error =>
    cases h
    exact ⟨hw, rfl⟩

theorem Step.shift {l : Label Address} (h : Step w l w') (hw : w.Room delta)
    (hl : l.Room delta) :
    w'.Room delta ∧ Step (w.shift delta) (l.shift delta) (w'.shift delta) := by
  cases h with
  | clock htime hsequence =>
    exact ⟨⟨hl, hw.streams⟩, .clock ((shift_le_shift_iff hw.timestamp hl).mpr htime) hsequence⟩
  | call hinvoke =>
    obtain ⟨hroom, hlater⟩ := hw.invoke hl hinvoke
    exact ⟨hroom, .call hlater⟩
  | credited hsource hamount hbook =>
    exact ⟨⟨hw.timestamp, hw.streams⟩, .credited hsource hamount hbook⟩
  | refused hbook => exact ⟨hw, .refused hbook⟩
  | bookkeeping => exact ⟨⟨hw.timestamp, hw.streams⟩, .bookkeeping⟩

/-- Only time differences matter. A run from any ledger, moved to a later time with the
clock, the schedules and the times its calls ask for, is a run, in which every call gets
the receipt it got, and which ends in the ledger it ended in, moved as well: as long as
the type has room for the moved times. -/
theorem time_is_relative (hw : w.Room delta) {ls : List (Label Address)} (hrun : Run Step w ls w')
    (hls : ∀ l ∈ ls, l.Room delta) :
    Run Step (w.shift delta) (ls.map (Label.shift delta)) (w'.shift delta) := by
  suffices h : w'.Room delta ∧
      Run Step (w.shift delta) (ls.map (Label.shift delta)) (w'.shift delta) from h.2
  induction hrun with
  | nil => exact ⟨hw, .nil⟩
  | snoc _ hstep ih =>
    obtain ⟨hroom, hbefore⟩ := ih fun l hl => hls l (List.mem_append_left _ hl)
    obtain ⟨hroom', hlast⟩ :=
      hstep.shift hroom (hls _ (List.mem_append_right _ List.mem_cons_self))
    rw [List.map_append]
    exact ⟨hroom', hbefore.snoc hlast⟩

end Runs

/-- The same deployment, creation and withdrawal a thousand seconds later. -/
theorem time_is_relative_drained :
    Run Step (Sample.genesis.shift 1000) (Sample.drainedLabels.map (Label.shift 1000))
      (Sample.drained.shift 1000) := by
  refine time_is_relative ⟨by decide, ?_⟩ Sample.drained_run ?_
  · intro id stream hstream
    cases hstream
  · intro l hl
    simp only [Sample.drainedLabels, List.mem_cons, List.not_mem_nil, or_false] at hl
    rcases hl with rfl | rfl | rfl
    · exact ⟨by decide, by decide, by decide⟩
    · exact (by decide : U64.Room 1000 4)
    · trivial

end TricklePay
