import TricklePay.Spec.Indexer
import TricklePay.Proofs.Views

/-!
# The event log reconstructs the contract

Folding the events of a stream gives back its record and every figure its views
report. The log and the ledger are kept by different code paths; `Logged` relates
them, and every step keeps it.
-/

namespace TricklePay

open Checked Transition

variable {Address : Type}

/-! ### The index along a log -/

section Index

variable {id : UInt64} {log : List (Event Address)}

theorem index_created (e : Created Address) (log : List (Event Address)) :
    index e.id (log ++ [.created e]) = some ⟨e, 0, none⟩ := by
  have hsnoc := History.digest_snoc_self Event.id Facts.absorb log (.created e)
  refine hsnoc.trans ?_
  cases History.digest Event.id Facts.absorb e.id log <;> rfl

theorem index_withdrawn {e : Withdrawn Address} {f : Facts Address}
    (h : index e.id log = some f) :
    index e.id (log ++ [.withdrawn e]) =
      some { f with withdrawn := f.withdrawn + e.amount.toInt } := by
  have hsnoc := History.digest_snoc_self Event.id Facts.absorb log (.withdrawn e)
  refine hsnoc.trans ?_
  exact congrArg (fun known => Facts.absorb known (.withdrawn e)) h

theorem index_cancelled {e : Cancelled Address} {f : Facts Address}
    (h : index e.id log = some f) :
    index e.id (log ++ [.cancelled e]) = some { f with cancelled := some e } := by
  have hsnoc := History.digest_snoc_self Event.id Facts.absorb log (.cancelled e)
  refine hsnoc.trans ?_
  exact congrArg (fun known => Facts.absorb known (.cancelled e)) h

theorem index_of_ne {e : Event Address} (h : e.id ≠ id) : index id (log ++ [e]) = index id log :=
  History.digest_snoc_of_ne Event.id Facts.absorb id log h

@[simp] theorem createdOf_append (log log' : List (Event Address)) :
    createdOf id (log ++ log') = createdOf id log ++ createdOf id log' := by
  simp [createdOf]

@[simp] theorem withdrawnOf_append (log log' : List (Event Address)) :
    withdrawnOf id (log ++ log') = withdrawnOf id log ++ withdrawnOf id log' := by
  simp [withdrawnOf]

@[simp] theorem cancelledOf_append (log log' : List (Event Address)) :
    cancelledOf id (log ++ log') = cancelledOf id log ++ cancelledOf id log' := by
  simp [cancelledOf]

@[simp] theorem withdrawnTotal_append (log log' : List (Event Address)) :
    withdrawnTotal id (log ++ log') = withdrawnTotal id log + withdrawnTotal id log' := by
  simp [withdrawnTotal]

theorem selections_of_ne {e : Event Address} (h : e.id ≠ id) :
    createdOf id [e] = [] ∧ withdrawnOf id [e] = [] ∧ cancelledOf id [e] = [] := by
  cases e <;> simp_all [createdOf, withdrawnOf, cancelledOf, Event.created?, Event.withdrawn?,
    Event.cancelled?, Event.id]

theorem selections_created (e : Created Address) :
    createdOf e.id [.created e] = [e] ∧ withdrawnOf e.id [.created e] = [] ∧
      cancelledOf e.id [.created e] = [] := by
  simp [createdOf, withdrawnOf, cancelledOf, Event.created?, Event.withdrawn?, Event.cancelled?]

theorem selections_withdrawn (e : Withdrawn Address) :
    createdOf e.id [.withdrawn e] = [] ∧ withdrawnOf e.id [.withdrawn e] = [e] ∧
      cancelledOf e.id [.withdrawn e] = [] := by
  simp [createdOf, withdrawnOf, cancelledOf, Event.created?, Event.withdrawn?, Event.cancelled?]

theorem selections_cancelled (e : Cancelled Address) :
    createdOf e.id [.cancelled e] = [] ∧ withdrawnOf e.id [.cancelled e] = [] ∧
      cancelledOf e.id [.cancelled e] = [e] := by
  simp [createdOf, withdrawnOf, cancelledOf, Event.created?, Event.withdrawn?, Event.cancelled?]

end Index

/-- What the index keeps of a stream is all that the log says about it. -/
inductive Kept (id : UInt64) (log : List (Event Address)) : Option (Facts Address) → Prop
  | unknown (hcreated : createdOf id log = []) (hwithdrawn : withdrawnOf id log = [])
      (hcancelled : cancelledOf id log = []) : Kept id log none
  | known (f : Facts Address) (hcreated : createdOf id log = [f.created])
      (hwithdrawn : withdrawnTotal id log = f.withdrawn)
      (hcancelled : cancelledOf id log = f.cancelled.toList) : Kept id log (some f)

namespace Kept

variable {id : UInt64} {log : List (Event Address)} {facts : Option (Facts Address)}

theorem snoc_of_ne (h : Kept id log facts) {e : Event Address} (hid : e.id ≠ id) :
    Kept id (log ++ [e]) facts := by
  obtain ⟨hc, hw, hx⟩ := selections_of_ne hid
  cases h with
  | unknown hcreated hwithdrawn hcancelled =>
    apply unknown
    · simp [hcreated, hc]
    · simp [hwithdrawn, hw]
    · simp [hcancelled, hx]
  | known f hcreated hwithdrawn hcancelled =>
    have hzero : withdrawnTotal id [e] = 0 := by simp [withdrawnTotal, hw]
    apply known
    · simp [hcreated, hc]
    · simp [hwithdrawn, hzero]
    · simp [hcancelled, hx]

theorem snoc_created {e : Created Address} (h : Kept e.id log none) :
    Kept e.id (log ++ [.created e]) (some ⟨e, 0, none⟩) := by
  obtain ⟨hc, hw, hx⟩ := selections_created e
  cases h with
  | unknown hcreated hwithdrawn hcancelled =>
    apply known
    · simp [hcreated, hc]
    · rw [withdrawnTotal, withdrawnOf_append, hwithdrawn, hw]
      rfl
    · simp [hcancelled, hx]

theorem snoc_withdrawn {e : Withdrawn Address} {f : Facts Address} (h : Kept e.id log (some f)) :
    Kept e.id (log ++ [.withdrawn e])
      (some { f with withdrawn := f.withdrawn + e.amount.toInt }) := by
  obtain ⟨hc, hw, hx⟩ := selections_withdrawn e
  cases h with
  | known f hcreated hwithdrawn hcancelled =>
    have hamount : withdrawnTotal e.id [.withdrawn e] = e.amount.toInt := by
      simp [withdrawnTotal, hw]
    apply known
    · simp [hcreated, hc]
    · simp [hwithdrawn, hamount]
    · simp [hcancelled, hx]

theorem snoc_cancelled {e : Cancelled Address} {f : Facts Address} (h : Kept e.id log (some f))
    (hrunning : f.cancelled = none) :
    Kept e.id (log ++ [.cancelled e]) (some { f with cancelled := some e }) := by
  obtain ⟨hc, hw, hx⟩ := selections_cancelled e
  cases h with
  | known f hcreated hwithdrawn hcancelled =>
    rw [hrunning] at hcancelled
    have hzero : withdrawnTotal e.id [.cancelled e] = 0 := by simp [withdrawnTotal, hw]
    apply known
    · simp [hcreated, hc]
    · simp [hwithdrawn, hzero]
    · simp [hcancelled, hx]

end Kept

theorem kept_of_justified {log : List (Event Address)} (h : History.Justified Admitted log)
    (id : UInt64) : Kept id log (index id log) := by
  apply h.invariant fun log => Kept id log (index id log)
  · exact .unknown rfl rfl rfl
  · intro before e hkept hadmitted
    by_cases hid : e.id = id
    · subst hid
      cases hadmitted with
      | @created e hnew =>
        change Kept e.id _ (index e.id _)
        rw [index_created]
        exact .snoc_created (hnew ▸ hkept)
      | @withdrawn e f hindex =>
        change Kept e.id _ (index e.id _)
        rw [index_withdrawn hindex]
        exact .snoc_withdrawn (hindex ▸ hkept)
      | @cancelled e f hindex hrunning hshare =>
        change Kept e.id _ (index e.id _)
        rw [index_cancelled hindex]
        exact .snoc_cancelled (hindex ▸ hkept) hrunning
    · rw [index_of_ne hid]
      exact hkept.snoc_of_ne hid

section Justified

variable {id : UInt64} {log : List (Event Address)} {f : Facts Address}

theorem selections_of_index (h : History.Justified Admitted log) (hindex : index id log = some f) :
    createdOf id log = [f.created] ∧ withdrawnTotal id log = f.withdrawn ∧
      cancelledOf id log = f.cancelled.toList := by
  have hkept := kept_of_justified h id
  rw [hindex] at hkept
  cases hkept with
  | known _ hcreated hwithdrawn hcancelled => exact ⟨hcreated, hwithdrawn, hcancelled⟩

theorem cancelledOf_of_index_none (h : History.Justified Admitted log)
    (hindex : index id log = none) : cancelledOf id log = [] := by
  have hkept := kept_of_justified h id
  rw [hindex] at hkept
  cases hkept with
  | unknown _ _ hcancelled => exact hcancelled

theorem cancelledOf_length_le (h : History.Justified Admitted log) (id : UInt64) :
    (cancelledOf id log).length ≤ 1 := by
  cases hindex : index id log with
  | none => simp [cancelledOf_of_index_none h hindex]
  | some f =>
    obtain ⟨_, _, hcancelled⟩ := selections_of_index h hindex
    rw [hcancelled]
    cases f.cancelled <;> simp

theorem mem_cancelledOf {c : Cancelled Address} (h : .cancelled c ∈ log) :
    c ∈ cancelledOf c.id log := by
  simp only [cancelledOf, List.mem_filter, List.mem_filterMap, decide_eq_true_eq]
  exact ⟨⟨_, h, rfl⟩, trivial⟩

/-- A known stream has been announced. -/
theorem created_mem (h : History.Justified Admitted log) (hindex : index id log = some f) :
    .created f.created ∈ log ∧ f.created.id = id := by
  obtain ⟨hcreated, _, _⟩ := selections_of_index h hindex
  have hmem : f.created ∈ createdOf id log := by simp [hcreated]
  simp only [createdOf, List.mem_filter, List.mem_filterMap, decide_eq_true_eq] at hmem
  obtain ⟨⟨e, he, hselected⟩, hid⟩ := hmem
  cases e with
  | created c =>
    cases hselected
    exact ⟨he, hid⟩
  | withdrawn _ => cases hselected
  | cancelled _ => cases hselected

theorem announced_before {before after : List (Event Address)} {e : Event Address}
    (h : History.Justified Admitted (before ++ e :: after)) (he : e.created? = none) :
    ∃ c, .created c ∈ before ∧ c.id = e.id := by
  have hbefore := h.until
  cases h.admits with
  | created _ => cases he
  | withdrawn hindex => exact ⟨_, created_mem hbefore hindex⟩
  | cancelled hindex _ _ => exact ⟨_, created_mem hbefore hindex⟩

/-- The share a cancellation announces is what the facts leave after what was withdrawn
before it. -/
theorem share_eq {before after : List (Event Address)} {c : Cancelled Address}
    (h : History.Justified Admitted (before ++ .cancelled c :: after)) :
    ∃ f, index c.id (before ++ .cancelled c :: after) = some f ∧
      c.recipientAmount.toInt = f.totalAmount - withdrawnTotal c.id before := by
  have hmem : c ∈ cancelledOf c.id (before ++ .cancelled c :: after) := by
    apply mem_cancelledOf
    simp
  cases hindex : index c.id (before ++ .cancelled c :: after) with
  | none =>
    rw [cancelledOf_of_index_none h hindex] at hmem
    cases hmem
  | some f =>
    obtain ⟨hcreated, _, hcancelled⟩ := selections_of_index h hindex
    cases h.admits with
    | @cancelled _ g hknown _ hshare =>
      obtain ⟨hcreated', hwithdrawn, _⟩ := selections_of_index h.until hknown
      have hsame : f.created = g.created := by
        rw [createdOf_append, hcreated', List.singleton_append, List.cons.injEq] at hcreated
        exact hcreated.1.symm
      have hstopped : f.cancelled = some c := by
        rw [hcancelled] at hmem
        simpa using hmem
      refine ⟨f, rfl, ?_⟩
      unfold Facts.totalAmount
      rw [hstopped, hsame, hshare, hwithdrawn]

end Justified

/-! ### Facts and records -/

/-- The record that a creation announces. -/
def Created.stream (e : Created Address) : Stream Address where
  sender := e.sender
  recipient := e.recipient
  token := e.token
  totalAmount := e.totalAmount
  withdrawn := 0
  startTime := e.startTime
  endTime := e.endTime
  cliffTime := e.cliffTime
  cancelled := false

def Reading.figures (r : Reading) : Figures where
  vested := r.vested.toInt
  withdrawable := r.withdrawable.toInt
  locked := r.locked.toInt
  progress := r.progress.toNat
  status := r.status

/-- The facts are those of the record. Of the window of a cancelled record they say
nothing. -/
structure Facts.Matches (f : Facts Address) (stream : Stream Address) : Prop where
  parties : stream.sender = f.created.sender ∧ stream.recipient = f.created.recipient ∧
    stream.token = f.created.token
  total_pos : 0 < f.created.totalAmount.toInt
  withdrawn : stream.withdrawn.toInt = f.withdrawn
  running : f.cancelled = none → stream = { f.created.stream with withdrawn := stream.withdrawn }
  stopped : ∀ c, f.cancelled = some c → stream.cancelled = true ∧
    stream.totalAmount.toInt = f.created.totalAmount.toInt - c.senderRefund.toInt

namespace Facts.Matches

variable {f : Facts Address} {stream : Stream Address} {now : UInt64}

theorem cancelled_eq (h : f.Matches stream) : stream.cancelled = f.cancelled.isSome := by
  cases hcancelled : f.cancelled with
  | none =>
    rw [h.running hcancelled]
    rfl
  | some c => exact (h.stopped c hcancelled).1

theorem total_eq (h : f.Matches stream) : stream.totalAmount.toInt = f.totalAmount := by
  unfold totalAmount
  cases hcancelled : f.cancelled with
  | none =>
    rw [h.running hcancelled]
    rfl
  | some c => exact (h.stopped c hcancelled).2

theorem running_of_live (h : f.Matches stream) (hlive : stream.cancelled = false) :
    f.cancelled = none := by
  rw [h.cancelled_eq] at hlive
  simpa using hlive

theorem total_of_live (h : f.Matches stream) (hlive : stream.cancelled = false) :
    f.created.totalAmount.toInt = stream.totalAmount.toInt := by
  rw [h.running (h.running_of_live hlive)]
  rfl

theorem opened (o : Opening Address) {this : Address} (hvalid : o.Valid this now) (id : UInt64) :
    Matches ⟨o.created id, 0, none⟩ o.stream where
  parties := ⟨rfl, rfl, rfl⟩
  total_pos := hvalid.total_pos
  withdrawn := rfl
  running := fun _ => rfl
  stopped := by
    intro c hc
    cases hc

theorem pay (h : f.Matches stream) (hformed : stream.WellFormed now) {amount : I128}
    (hpos : 0 < amount.toInt) (hle : amount.toInt ≤ (stream.available now).toInt) :
    Matches { f with withdrawn := f.withdrawn + amount.toInt } (stream.pay amount) where
  parties := h.parties
  total_pos := h.total_pos
  withdrawn := by rw [hformed.toInt_pay hpos hle, h.withdrawn]
  running := by
    intro hnone
    exact congrArg (fun s : Stream Address => s.pay amount) (h.running hnone)
  stopped := h.stopped

theorem close (h : f.Matches stream) (hformed : stream.WellFormed now)
    (hlive : stream.cancelled = false) {e : Cancelled Address}
    (hrefund : e.senderRefund = stream.refund now) :
    Matches { f with cancelled := some e } (stream.close (stream.vestedUnits now) now) where
  parties := h.parties
  total_pos := h.total_pos
  withdrawn := h.withdrawn
  running := by
    intro hnone
    cases hnone
  stopped := by
    intro c hc
    cases hc
    refine ⟨rfl, ?_⟩
    change (stream.vestedUnits now).toInt = _
    rw [hformed.toInt_vestedUnits, hrefund, hformed.toInt_refund]
    change _ = f.created.totalAmount.toInt - _
    rw [h.total_of_live hlive]
    omega

/-- The figures derived from the facts are those of the record. -/
theorem figures_eq (h : f.Matches stream) (hformed : stream.WellFormed now) :
    (stream.reading now).figures = f.figures now := by
  have hvested := hformed.toInt_vestedUnits now
  have havailable := hformed.toInt_available
  have hrefund := hformed.toInt_refund
  have hprogress := hformed.toNat_progress now
  unfold Reading.figures Facts.figures
  rw [hprogress]
  dsimp only [Stream.reading]
  rw [hvested, havailable, hrefund, h.withdrawn]
  cases hcancelled : f.cancelled with
  | none =>
    have hrecord := h.running hcancelled
    have hterms : stream.vested now = f.created.terms.vested now := by
      rw [hrecord]
      rfl
    have htotal : stream.totalAmount.toInt = f.created.totalAmount.toInt := by
      rw [hrecord]
      rfl
    have hne : stream.totalAmount.toInt ≠ 0 := by
      rw [htotal]
      exact h.total_pos.ne'
    have hbps : stream.bps now = stream.vested now * 10000 / stream.totalAmount.toInt :=
      if_neg hne
    have hstatus : streamStatus stream now =
        if now < f.created.startTime then .pending
        else if f.created.endTime ≤ now then .completed
        else .streaming := by
      rw [hrecord]
      rfl
    rw [hbps, hterms, htotal, hstatus]
  | some c =>
    have hclosed := (h.stopped c hcancelled).1
    have htotal := hformed.vested_of_cancelled hclosed
    have hstatus : streamStatus stream now = .cancelled := if_pos hclosed
    rw [hformed.bps_of_cancelled hclosed, htotal, hstatus, h.total_eq, sub_self]

end Facts.Matches

/-! ### The log of a run -/

def createdIds (log : List (Event Address)) : List ℕ :=
  (log.filterMap Event.created?).map fun e => e.id.toNat

/-- The index of the log holds exactly the stored streams, each as stored. -/
structure Logged (log : List (Event Address)) (w : World Address) : Prop where
  justified : History.Justified Admitted log
  ids : createdIds log = List.range (w.streamCount.getD 0).toNat
  stored : ∀ id, (index id log).isSome = (w.streams id).isSome
  matched : ∀ id stream f, w.streams id = some stream → index id log = some f → f.Matches stream

namespace Logged

variable {log : List (Event Address)} {w w' : World Address}

theorem of_fresh (h : Fresh w) : Logged [] w where
  justified := History.justified_nil
  ids := by
    rw [h.streamCount]
    rfl
  stored := by
    intro id
    rw [h.streams]
    rfl
  matched := by
    intro id stream f hstream hindex
    cases hindex

theorem unchanged (h : Logged log w) (hstreams : w'.streams = w.streams)
    (hcount : w'.streamCount = w.streamCount) : Logged log w' where
  justified := h.justified
  ids := hcount ▸ h.ids
  stored := hstreams ▸ h.stored
  matched := hstreams ▸ h.matched

theorem entry (h : Logged log w) {id : UInt64} {stream : Stream Address}
    (hstream : w.streams id = some stream) : ∃ f, index id log = some f ∧ f.Matches stream := by
  have hstored := h.stored id
  rw [hstream, Option.isSome_some, Option.isSome_iff_exists] at hstored
  obtain ⟨f, hf⟩ := hstored
  exact ⟨f, hf, h.matched id stream f hstream hf⟩

theorem record (h : Logged log w) {id : UInt64} {f : Facts Address}
    (hindex : index id log = some f) :
    ∃ stream, w.streams id = some stream ∧ f.Matches stream := by
  have hstored := h.stored id
  rw [hindex, Option.isSome_some, eq_comm, Option.isSome_iff_exists] at hstored
  obtain ⟨stream, hstream⟩ := hstored
  exact ⟨stream, hstream, h.matched id stream f hstream hindex⟩

theorem index_none (h : Logged log w) {id : UInt64} (hstream : w.streams id = none) :
    index id log = none := by
  have hstored := h.stored id
  rw [hstream] at hstored
  simpa using hstored

/-- An admitted event and a write of the record it describes keep log and ledger
together. -/
theorem snoc (h : Logged log w) {e : Event Address} {f : Facts Address} {stream : Stream Address}
    (hadmitted : Admitted log e) (hindex : index e.id (log ++ [e]) = some f)
    (hstreams : w'.streams = Function.update w.streams e.id (some stream))
    (hmatches : f.Matches stream)
    (hids : createdIds (log ++ [e]) = List.range (w'.streamCount.getD 0).toNat) :
    Logged (log ++ [e]) w' where
  justified := h.justified.snoc hadmitted
  ids := hids
  stored := by
    intro id
    rw [hstreams]
    by_cases hid : e.id = id
    · subst hid
      rw [hindex, Function.update_self]
      rfl
    · rw [index_of_ne hid, Function.update_of_ne (Ne.symm hid)]
      exact h.stored id
  matched := by
    intro id s g hs hg
    rw [hstreams] at hs
    by_cases hid : e.id = id
    · subst hid
      rw [Function.update_self] at hs
      rw [hindex] at hg
      cases hs
      cases hg
      exact hmatches
    · rw [Function.update_of_ne (Ne.symm hid)] at hs
      rw [index_of_ne hid] at hg
      exact h.matched id s g hs hg

theorem settled (h : Logged log w) (hw : w.Sound) {op : StreamOp} {id : UInt64}
    {stream : Stream Address} {z : Settled Address} (hstream : w.streams id = some stream)
    (houtcome : op.Outcome w.timestamp id stream z)
    (hstreams : w'.streams = Function.update w.streams id (some z.stream))
    (hcount : w'.streamCount = w.streamCount) : Logged (log ++ [z.event]) w' := by
  have hformed := hw.records id stream hstream
  obtain ⟨f, hindex, hmatches⟩ := h.entry hstream
  cases houtcome with
  | paid select amount _ _ hpos hle hz =>
    subst hz
    refine h.snoc (.withdrawn hindex) (index_withdrawn hindex) hstreams
      (hmatches.pay hformed hpos hle) ?_
    rw [hcount, ← h.ids]
    simp [createdIds, Event.created?]
  | closed _ hlive _ hz =>
    subst hz
    have hshare : (stream.available w.timestamp).toInt =
        f.created.totalAmount.toInt - (stream.refund w.timestamp).toInt - f.withdrawn := by
      rw [hformed.toInt_available, hformed.toInt_refund, hmatches.total_of_live hlive,
        hmatches.withdrawn]
      omega
    refine h.snoc (.cancelled hindex (hmatches.running_of_live hlive) hshare)
      (index_cancelled hindex) hstreams (hmatches.close hformed hlive rfl) ?_
    rw [hcount, ← h.ids]
    simp [createdIds, Event.created?]

variable [DecidableEq Address]

theorem step (h : Logged log w) (hw : w.Sound) {l : Label Address} (hchange : Change w l w') :
    Logged (log ++ l.events) w' := by
  cases hchange with
  | idle _ hevents _ _ _ hstreams hcount _ =>
    rw [hevents, List.append_nil]
    exact h.unchanged hstreams hcount
  | opened env o next book hlabel hvalid hnext _ hworld =>
    subst hlabel hworld
    have hnew := h.index_none hw.next_id_free
    refine h.snoc (.created hnew) (index_created _ log) rfl (.opened o hvalid _) ?_
    change createdIds _ = List.range next.toNat
    rw [hnext, List.range_succ, ← h.ids]
    simp [createdIds, Event.created?, Opening.created]
  | settled env op id stream z book hlabel hstream houtcome _ hworld =>
    subst hlabel hworld
    exact h.settled hw hstream houtcome rfl rfl

end Logged

variable [DecidableEq Address]

/-- The events published along a run. -/
def eventLog (ls : List (Label Address)) : List (Event Address) :=
  ls.flatMap Label.events

theorem Fresh.logged {w₀ w : World Address} {ls : List (Label Address)} (h : Fresh w₀)
    (hrun : Run Step w₀ ls w) : Logged (eventLog ls) w := by
  apply hrun.invariant fun ls w => Logged (eventLog ls) w
  · exact .of_fresh h
  · intro ls m l m' hbefore hlogged hstep
    have hsound := h.sound.run hbefore
    have hnext := hlogged.step hsound (hstep.change hsound)
    simpa [eventLog] using hnext

/-! ### What a call announces -/

/-- The call moved tokens once, and published one event, which names what it moved. -/
def Announced (env : Env Address) (w : World Address) (call : Call Address)
    (response : Response Address) (receipt : Receipt Address) (w' : World Address) : Prop :=
  ∃ event moved, receipt.events = [event] ∧ receipt.transfers = [moved] ∧
    Announces call response event ∧ moved.amount = event.amount ∧
    ((env.token moved.token).Exact → w'.balance moved.token =
      Pool.move (w.balance moved.token) moved.source moved.target event.amount.toInt)

theorem World.Sound.announced {w w' : World Address} (hw : w.Sound) {env : Env Address}
    {call : Call Address} {receipt : Receipt Address} {response : Response Address}
    (hinvoke : w.invoke env call = (receipt, w')) (hmutating : call.isView = false)
    (hok : receipt.result = .ok response) : Announced env w call response receipt w' := by
  cases (Step.call hinvoke).change hw with
  | idle hrefused _ _ _ _ _ _ _ =>
    obtain ⟨failure, hfailure⟩ := hrefused hmutating
    rw [hfailure] at hok
    cases hok
  | opened env o next book hlabel _ _ hbook hworld =>
    cases hlabel
    cases hok
    subst hworld
    refine ⟨_, _, rfl, rfl, .created _ _ _ _ _ _ _ _, rfl, ?_⟩
    intro hexact
    exact (Function.update_self _ _ _).trans (hexact.eq_move hbook)
  | settled env op id stream z book hlabel hstream houtcome hbook hworld =>
    cases hlabel
    cases hok
    subst hworld
    have hbalance : (env.token stream.token).Exact →
        (((w.refreshed env id).stored env id z.stream).setBook stream.token book).balance
          stream.token =
        Pool.move (w.balance stream.token) w.contractAddress (op.party stream) z.amount.toInt := by
      intro hexact
      exact (Function.update_self _ _ _).trans (hexact.eq_move hbook)
    cases houtcome with
    | paid select amount hselect hamount hpos hle hz =>
      subst hz
      cases op with
      | withdraw => exact ⟨_, _, rfl, rfl, .withdrawn _ _ _, rfl, hbalance⟩
      | withdrawAmount requested =>
        cases hselect
        obtain rfl : amount = requested := selectAmount_eq hamount
        exact ⟨_, _, rfl, rfl, .withdrawnAmount _ _ _, rfl, hbalance⟩
      | cancel => cases hselect
    | closed hop _ _ hz =>
      subst hop hz
      exact ⟨_, _, rfl, rfl, .cancelled _ _ _ _, rfl, hbalance⟩

/-! ### The reconstruction -/

/-- What folding the events of stream `id` gives back: the facts are all that the log
says about it, and record and views follow from them. -/
structure Recovers (w : World Address) (log : List (Event Address)) (id : UInt64)
    (stream : Stream Address) (f : Facts Address) : Prop where
  created : createdOf id log = [f.created]
  withdrawals : withdrawnTotal id log = f.withdrawn
  cancellations : cancelledOf id log = f.cancelled.toList
  parties : stream.sender = f.created.sender ∧ stream.recipient = f.created.recipient ∧
    stream.token = f.created.token
  withdrawn : stream.withdrawn.toInt = f.withdrawn
  cancelled : stream.cancelled = f.cancelled.isSome
  totalAmount : stream.totalAmount.toInt = f.totalAmount
  figures : ∃ r, w.Reports id r ∧ r.figures = f.figures w.timestamp

theorem Logged.recovers {w : World Address} {log : List (Event Address)} (h : Logged log w)
    (hw : w.Sound) {id : UInt64} {stream : Stream Address} (hstream : w.streams id = some stream) :
    ∃ f, index id log = some f ∧ Recovers w log id stream f := by
  obtain ⟨f, hindex, hmatches⟩ := h.entry hstream
  obtain ⟨hcreated, hwithdrawn, hcancelled⟩ := selections_of_index h.justified hindex
  have hformed := hw.records id stream hstream
  exact ⟨f, hindex, hcreated, hwithdrawn, hcancelled, hmatches.parties, hmatches.withdrawn,
    hmatches.cancelled_eq, hmatches.total_eq, stream.reading w.timestamp,
    (hw.stores hstream).reports,
    hmatches.figures_eq hformed⟩

/-- The event log alone reconstructs the contract. Along every run streams are announced
once each in the order of their ids, before anything else happens to them, and
cancelled at most once; folding the events of a stream gives back its record and what
its views report at the present time; a cancellation announces the share that is left;
and every mutating call that succeeds publishes one event, naming the amount it moves. -/
theorem event_log_reconstructs {w₀ w : World Address} {ls : List (Label Address)}
    (hfresh : Fresh w₀) (hrun : Run Step w₀ ls w) :
    createdIds (eventLog ls) = List.range (w.streamCount.getD 0).toNat ∧
      (∀ before e after, eventLog ls = before ++ e :: after → e.created? = none →
        ∃ c, .created c ∈ before ∧ c.id = e.id) ∧
      (∀ id, (cancelledOf id (eventLog ls)).length ≤ 1) ∧
      (∀ id, (index id (eventLog ls)).isSome = (w.streams id).isSome) ∧
      (∀ id stream, w.streams id = some stream →
        ∃ f, index id (eventLog ls) = some f ∧ Recovers w (eventLog ls) id stream f) ∧
      (∀ before c after, eventLog ls = before ++ .cancelled c :: after →
        ∃ stream, w.streams c.id = some stream ∧
          c.recipientAmount.toInt = stream.totalAmount.toInt - withdrawnTotal c.id before) ∧
      ∀ env call receipt response w', w.invoke env call = (receipt, w') → call.isView = false →
        receipt.result = .ok response → Announced env w call response receipt w' := by
  have hsound := hfresh.sound.run hrun
  have hlogged := hfresh.logged hrun
  refine ⟨hlogged.ids, ?_, cancelledOf_length_le hlogged.justified, hlogged.stored, ?_, ?_, ?_⟩
  · intro before e after hlog he
    rw [hlog] at hlogged
    exact announced_before hlogged.justified he
  · intro id stream hstream
    exact hlogged.recovers hsound hstream
  · intro before c after hlog
    rw [hlog] at hlogged
    obtain ⟨f, hindex, hshare⟩ := share_eq hlogged.justified
    obtain ⟨stream, hstream, hmatches⟩ := hlogged.record hindex
    exact ⟨stream, hstream, by rw [hmatches.total_eq, hshare]⟩
  · intro env call receipt response w' hinvoke hmutating hok
    exact hsound.announced hinvoke hmutating hok

theorem event_log_reconstructs_cancelled :
    ∃ f, index 0 (eventLog Sample.cancelledLabels) = some f ∧ f.withdrawn = 40 ∧
      f.figures 4 = ⟨40, 0, 0, 10000, .cancelled⟩ ∧
      ∃ r, Sample.cancelled.Reports 0 r ∧ r.figures = f.figures 4 := by
  obtain ⟨_, _, _, _, hrecovers, _⟩ :=
    event_log_reconstructs Sample.genesis_fresh (Sample.drained_run.append Sample.cancelled_run)
  obtain ⟨f, hindex, hfacts⟩ := hrecovers 0 _ Sample.cancelled_stream
  have hknown : index 0 (eventLog Sample.cancelledLabels) =
      some ⟨Sample.opening.created 0, 40, some ⟨1, 0, Sample.units 0, Sample.units 60⟩⟩ := rfl
  refine ⟨f, hindex, ?_, ?_, hfacts.figures⟩
  · cases hindex.symm.trans hknown
    rfl
  · cases hindex.symm.trans hknown
    decide

end TricklePay
