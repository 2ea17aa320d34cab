import TricklePay.Proofs.Invariant
import TricklePay.Library.Lease
import TricklePay.Library.Transition

/-!
# The lives of entries

A touch that finds enough life left in an entry does nothing, so that an entry
survives only if the touches are close enough to each other. At the boundary,
one touch every `bumpThreshold` ledgers, they are.
-/

namespace TricklePay

open Checked Transition

variable {Address : Type}

/-! ### Extending one entry -/

section Extend

variable {w : World Address} {env : Env Address} {key key' : DataKey} {threshold extendTo : ℕ}

theorem World.extendTtl_liveUntil_of_ne (h : key' ≠ key) :
    (w.extendTtl env key threshold extendTo).liveUntil key' = w.liveUntil key' := by
  simp only [World.extendTtl]
  split_ifs
  · exact Function.update_of_ne h _ _
  · rfl

/-- Extended or not, the entry has the threshold left. -/
theorem World.extendTtl_margin (hpos : 0 < threshold) (h : threshold ≤ extendTo) :
    w.sequence + threshold ≤ (w.extendTtl env key threshold extendTo).liveUntil key := by
  simp only [World.extendTtl]
  split_ifs with hlow
  · rw [Function.update_self]
    omega
  · omega

theorem World.le_extendTtl (w : World Address) (env : Env Address) (key key' : DataKey)
    (h : threshold ≤ extendTo) :
    w.liveUntil key' ≤ (w.extendTtl env key threshold extendTo).liveUntil key' := by
  by_cases hkey : key' = key
  · subst hkey
    simp only [World.extendTtl]
    split_ifs with hlow
    · rw [Function.update_self]
      omega
    · exact le_rfl
  · rw [extendTtl_liveUntil_of_ne hkey]

end Extend

theorem bumpThreshold_pos : 0 < bumpThreshold := by decide
theorem bumpThreshold_le_entryTtl : bumpThreshold ≤ entryTtl := by decide

/-! ### What the storage helpers do to a life -/

section Helpers

variable {w : World Address} {env : Env Address} {id : UInt64} {stream : Stream Address}
  {key : DataKey}

/-- The contract has this entry: its instance always, a stream's when it is stored. -/
def World.Has (w : World Address) : DataKey → Prop
  | .streamCount => True
  | .stream id => (w.streams id).isSome = true

theorem World.has_of_streams_eq {w w' : World Address} (h : w'.streams = w.streams)
    {key : DataKey} : w'.Has key ↔ w.Has key := by
  cases key with
  | streamCount => exact Iff.rfl
  | stream id =>
    unfold World.Has
    rw [h]

theorem World.has_of_update {w' : World Address}
    (hstreams : w'.streams = Function.update w.streams id (some stream)) (h : key ≠ .stream id) :
    w'.Has key ↔ w.Has key := by
  cases key with
  | streamCount => exact Iff.rfl
  | stream i =>
    have hne : i ≠ id := fun he => h (congrArg DataKey.stream he)
    simp only [World.Has, hstreams, Function.update_of_ne hne]

variable [DecidableEq Address]

theorem World.stored_liveUntil_of_ne (h : key ≠ .stream id) :
    (w.stored env id stream).liveUntil key = w.liveUntil key := by
  rw [World.stored, World.refreshed, extendTtl_liveUntil_of_ne h]
  simp only [World.setStream]
  split_ifs
  · rfl
  · exact Function.update_of_ne h _ _

theorem World.stored_margin (w : World Address) (env : Env Address) (id : UInt64)
    (stream : Stream Address) :
    w.sequence + bumpThreshold ≤ (w.stored env id stream).liveUntil (.stream id) :=
  World.extendTtl_margin (w := w.setStream env id stream) bumpThreshold_pos
    bumpThreshold_le_entryTtl

theorem World.le_stored (env : Env Address) (id : UInt64) (stream : Stream Address)
    (h : w.Has key) : w.liveUntil key ≤ (w.stored env id stream).liveUntil key := by
  by_cases hkey : key = .stream id
  · subst hkey
    have hset : (w.setStream env id stream).liveUntil = w.liveUntil := if_pos h
    have hle := (w.setStream env id stream).le_extendTtl env (.stream id) (.stream id)
      bumpThreshold_le_entryTtl
    rw [hset] at hle
    exact hle
  · rw [stored_liveUntil_of_ne hkey]

theorem World.le_opened (env : Env Address) (o : Opening Address) (book : Address → ℤ)
    (id next : UInt64) (h : w.Has key) :
    w.liveUntil key ≤ (w.opened env o book id next).liveUntil key := by
  have hhas : (w.setBook o.token book).Has key := by
    cases key with
    | streamCount => trivial
    | stream i => exact h
  have hstored := World.le_stored env id o.stream hhas
  exact hstored.trans (World.le_extendTtl _ env .streamCount key bumpThreshold_le_entryTtl)

end Helpers

/-! ### What a step does to a life -/

/-- The entries a successful call refreshes. -/
def Label.refreshes : Label Address → List DataKey
  | .call _ (.createStream ..) ⟨_, .ok (.id id), _, _⟩ => [.stream id, .streamCount]
  | .call _ (.withdraw id) ⟨_, .ok _, _, _⟩ => [.stream id]
  | .call _ (.withdrawAmount id _) ⟨_, .ok _, _, _⟩ => [.stream id]
  | .call _ (.cancel id) ⟨_, .ok _, _, _⟩ => [.stream id]
  | .call _ entry ⟨_, .ok _, _, _⟩ => entry.loads.toList.map .stream
  | _ => []

theorem Label.refreshes_of_error {env : Env Address} {call : Call Address}
    {receipt : Receipt Address} {failure : Failure} (h : receipt.result = .error failure) :
    (Label.call env call receipt).refreshes = [] := by
  cases receipt
  cases h
  cases call <;> rfl

theorem Label.refreshes_of_view {env : Env Address} {call : Call Address}
    {receipt : Receipt Address} {response : Response Address} (hview : call.isView = true)
    (h : receipt.result = .ok response) :
    (Label.call env call receipt).refreshes = call.loads.toList.map .stream := by
  cases receipt
  cases h
  cases call <;> first | rfl | cases hview

/-- What a step does to the life of one entry. -/
structure Lives (w : World Address) (l : Label Address) (w' : World Address) (key : DataKey) :
    Prop where
  sequence_le : w.sequence ≤ w'.sequence
  untouched : key ∉ l.refreshes → w'.liveUntil key = w.liveUntil key
  refreshed : key ∈ l.refreshes →
    w'.sequence = w.sequence ∧ w.sequence + bumpThreshold ≤ w'.liveUntil key
  not_shortened : w.Has key → w.liveUntil key ≤ w'.liveUntil key
  appears : ¬ w.Has key → w'.Has key → key ∈ l.refreshes

namespace Lives

variable {w w' : World Address} {key : DataKey}

theorem of_same {l : Label Address} (hsequence : w.sequence ≤ w'.sequence)
    (hlive : w'.liveUntil = w.liveUntil) (hstreams : w'.streams = w.streams)
    (hnone : l.refreshes = []) : Lives w l w' key where
  sequence_le := hsequence
  untouched := fun _ => by rw [hlive]
  refreshed := fun h => by simp [hnone] at h
  not_shortened := fun _ => by rw [hlive]
  appears := fun hnot h => absurd ((World.has_of_streams_eq hstreams).mp h) hnot

variable [DecidableEq Address] {env : Env Address} {call : Call Address}
  {receipt : Receipt Address}

theorem of_view (hview : call.isView = true) (h : w.invoke env call = (receipt, w')) :
    Lives w (.call env call receipt) w' key := by
  unfold World.invoke at h
  cases hr : call.run env ⟨w, [], []⟩ with
  | error failure next =>
    rw [hr] at h
    cases h
    exact .of_same le_rfl rfl rfl (Label.refreshes_of_error rfl)
  | ok response next =>
    have hnext := Call.view_run hview hr
    rw [hr] at h
    cases h
    have hrefreshes : (Label.call env call ⟨w.timestamp, .ok response, next.transfers,
        next.events⟩).refreshes = _ := Label.refreshes_of_view hview rfl
    cases hloads : call.loads with
    | none =>
      rw [hloads] at hnext hrefreshes
      subst hnext
      exact .of_same le_rfl rfl rfl hrefreshes
    | some id =>
      rw [hloads] at hnext hrefreshes
      subst hnext
      have hmem : key ∈ [DataKey.stream id] ↔ key = .stream id := List.mem_singleton
      refine ⟨le_rfl, ?_, ?_, ?_, fun hnot h => absurd h hnot⟩
      · intro hkey
        rw [hrefreshes] at hkey
        exact World.extendTtl_liveUntil_of_ne (mt hmem.mpr hkey)
      · intro hkey
        rw [hrefreshes] at hkey
        obtain rfl := hmem.mp hkey
        exact ⟨rfl, World.extendTtl_margin bumpThreshold_pos bumpThreshold_le_entryTtl⟩
      · intro _
        exact w.le_extendTtl env (.stream id) key bumpThreshold_le_entryTtl

/-- A settled record: its entry is refreshed, twice. -/
theorem of_settled {op : StreamOp} {id : UInt64} {z : Settled Address} {token target : Address}
    (hpaid : z.paid env id token target w = (receipt, w')) :
    Lives w (.call env (op.call id) receipt) w' key := by
  rcases Settled.paid_cases hpaid with hrejected | ⟨hresult, balance, hworld⟩
  · cases hrejected
    exact .of_same le_rfl rfl rfl (Label.refreshes_of_error rfl)
  · have hrefreshes : (Label.call env (op.call id) receipt).refreshes = [.stream id] := by
      cases receipt
      cases hresult
      cases op <;> rfl
    have hkeys : key ∈ (Label.call env (op.call id) receipt).refreshes ↔ key = .stream id := by
      rw [hrefreshes, List.mem_singleton]
    subst hworld
    refine ⟨le_rfl, ?_, ?_, ?_, ?_⟩
    · intro hkey
      have hne := mt hkeys.mpr hkey
      exact (World.stored_liveUntil_of_ne hne).trans (World.extendTtl_liveUntil_of_ne hne)
    · intro hkey
      obtain rfl := hkeys.mp hkey
      exact ⟨rfl, (w.refreshed env id).stored_margin env id z.stream⟩
    · intro hhas
      have hle := w.le_extendTtl env (.stream id) key bumpThreshold_le_entryTtl
      have hhas' : (w.refreshed env id).Has key := (World.has_of_streams_eq rfl).mpr hhas
      exact hle.trans (World.le_stored env id z.stream hhas')
    · intro hnot hhas
      rw [hkeys]
      by_contra hne
      exact hnot ((World.has_of_update rfl hne).mp hhas)

theorem of_opened {o : Opening Address} {book : Address → ℤ} {id next : UInt64}
    {transfers : List (Transfer Address)} {events : List (Event Address)} :
    Lives w (.call env o.call ⟨w.timestamp, .ok (.id id), transfers, events⟩)
      (w.opened env o book id next) key := by
  have hkeys : key ∈ (Label.call env o.call
      ⟨w.timestamp, .ok (.id id), transfers, events⟩).refreshes ↔
        key = .stream id ∨ key = .streamCount := by
    change key ∈ [DataKey.stream id, .streamCount] ↔ _
    simp
  refine ⟨le_rfl, ?_, ?_, World.le_opened env o book id next, ?_⟩
  · intro hkey
    obtain ⟨hstream, hcount⟩ := not_or.mp (mt hkeys.mpr hkey)
    exact (World.extendTtl_liveUntil_of_ne hcount).trans (World.stored_liveUntil_of_ne hstream)
  · intro hkey
    refine ⟨rfl, ?_⟩
    rcases hkeys.mp hkey with rfl | rfl
    · have hmargin := (w.setBook o.token book).stored_margin env id o.stream
      exact hmargin.trans (World.le_extendTtl _ env .streamCount _ bumpThreshold_le_entryTtl)
    · exact World.extendTtl_margin (w := { (w.setBook o.token book).stored env id o.stream with
        streamCount := some next }) bumpThreshold_pos bumpThreshold_le_entryTtl
  · intro hnot hhas
    rw [hkeys]
    by_contra hne
    exact hnot ((World.has_of_update rfl (not_or.mp hne).1).mp hhas)

end Lives

theorem Step.lives [DecidableEq Address] {w w' : World Address} {l : Label Address}
    (h : Step w l w') (key : DataKey) : Lives w l w' key := by
  cases h with
  | clock _ hsequence => exact .of_same hsequence rfl rfl rfl
  | credited _ _ _ => exact .of_same le_rfl rfl rfl rfl
  | refused _ => exact .of_same le_rfl rfl rfl rfl
  | bookkeeping => exact .of_same le_rfl rfl rfl rfl
  | call hinvoke =>
    cases World.invoke_effect hinvoke with
    | rejected failure hreceipt hworld =>
      subst hreceipt hworld
      exact .of_same le_rfl rfl rfl (Label.refreshes_of_error rfl)
    | viewed _ _ hview _ _ => exact .of_view hview hinvoke
    | opened o next book hcall _ _ _ _ hreceipt hworld =>
      subst hcall hreceipt hworld
      exact .of_opened
    | settled op id _ z hcall _ _ _ hpaid =>
      subst hcall
      exact .of_settled hpaid

/-! ### Schedules of calls -/

/-- The calls that refresh no entry at all. -/
def Call.isReadonly : Call Address → Bool
  | .streamExists _ | .getStreams _ | .cancelPreview _ | .streamCount | .maxAmount => true
  | _ => false

theorem Label.refreshes_of_readonly {env : Env Address} {call : Call Address}
    {receipt : Receipt Address} (h : call.isReadonly = true) :
    (Label.call env call receipt).refreshes = [] := by
  obtain ⟨time, result, transfers, events⟩ := receipt
  cases result with
  | error failure => exact Label.refreshes_of_error rfl
  | ok response => cases call <;> first | rfl | cases h

theorem Label.create_of_refreshes {env : Env Address} {call : Call Address}
    {receipt : Receipt Address}
    (h : DataKey.streamCount ∈ (Label.call env call receipt).refreshes) :
    ∃ o : Opening Address, call = o.call := by
  obtain ⟨time, result, transfers, events⟩ := receipt
  cases result with
  | error failure =>
    rw [Label.refreshes_of_error rfl] at h
    cases h
  | ok response =>
    cases call with
    | createStream sender recipient token totalAmount startTime endTime cliffTime =>
      exact ⟨⟨sender, recipient, token, totalAmount, startTime, endTime, cliffTime⟩, rfl⟩
    | withdraw => simp [refreshes] at h
    | withdrawAmount => simp [refreshes] at h
    | cancel => simp [refreshes] at h
    | _ =>
      rw [Label.refreshes_of_view rfl rfl] at h
      simp at h

section Schedule

variable [DecidableEq Address] {N : ℕ∞} {trace : Trace (@Step Address _) N} {key : DataKey}

/-- The schedule of the steps that refresh an entry. -/
def touches (trace : Trace (@Step Address _) N) (key : DataKey) (n : ℕ) : Prop :=
  key ∈ (trace.label n).refreshes

/-- An entry that is not there at first comes to be by a step that refreshes it. -/
theorem exists_touch (hnot : ¬ (trace.state 0).Has key) {n : ℕ} (hn : (n : ℕ∞) ≤ N)
    (hhas : (trace.state n).Has key) : ∃ i, i < n ∧ touches trace key i := by
  induction n with
  | zero => exact absurd hhas hnot
  | succ n ih =>
    have hlt : (n : ℕ∞) < N := lt_of_lt_of_le (by exact_mod_cast Nat.lt_succ_self n) hn
    by_cases hbefore : (trace.state n).Has key
    · obtain ⟨i, hi, htouched⟩ := ih hlt.le hbefore
      exact ⟨i, hi.trans (Nat.lt_succ_self n), htouched⟩
    · exact ⟨n, Nat.lt_succ_self n, ((trace.steps n hlt).lives key).appears hbefore hhas⟩

/-- No touch comes later than the margin the touch before it left. -/
def Punctual (trace : Trace (@Step Address _) N) (key : DataKey) : Prop :=
  ∀ i j : ℕ, j < N → Lease.Consecutive (touches trace key) i j →
    (trace.state j).sequence ≤ (trace.state i).sequence + bumpThreshold

theorem Punctual.alive (h : Punctual trace key) {j : ℕ} (hj : j < N)
    (htouched : touches trace key j) (hearlier : ∃ i, i < j ∧ touches trace key i) :
    (trace.state j).sequence ≤ (trace.state j).liveUntil key := by
  have hkept : ∀ n : ℕ, n < N → ¬ touches trace key n →
      (trace.state n).liveUntil key ≤ (trace.state (n + 1)).liveUntil key := by
    intro n hn hnone
    exact (((trace.steps n hn).lives key).untouched hnone).ge
  have hrenewed : ∀ n : ℕ, n < N → touches trace key n →
      (trace.state n).sequence + bumpThreshold ≤ (trace.state (n + 1)).liveUntil key := by
    intro n hn htouch
    exact (((trace.steps n hn).lives key).refreshed htouch).2
  exact Lease.alive hkept hrenewed h hj htouched hearlier

/-- The keep-alive guarantee, for every trace, endless or not, and every entry: as
long as no two consecutive successful touches of it are more than `bumpThreshold`
ledgers apart, it is live at every touch that follows another, and at every touch
at all if the trace starts before the entry exists. A touch leaves it at least
`bumpThreshold` ledgers and never shortens its life; a step that is no touch of it
does not change its life. Some views touch nothing, and only creations touch the
instance. -/
theorem entries_kept_alive (trace : Trace (@Step Address _) N) (key : DataKey)
    (hpunctual : Punctual trace key) :
    (∀ j : ℕ, j < N → touches trace key j → (∃ i, i < j ∧ touches trace key i) →
      (trace.state j).sequence ≤ (trace.state j).liveUntil key) ∧
    (¬ (trace.state 0).Has key → ∀ j : ℕ, j < N → touches trace key j →
      (trace.state j).Has key → (trace.state j).sequence ≤ (trace.state j).liveUntil key) ∧
    (∀ n : ℕ, n < N → touches trace key n →
      (trace.state (n + 1)).sequence + bumpThreshold ≤ (trace.state (n + 1)).liveUntil key) ∧
    (∀ n : ℕ, n < N → (trace.state n).Has key →
      (trace.state n).liveUntil key ≤ (trace.state (n + 1)).liveUntil key) ∧
    (∀ n : ℕ, n < N → ¬ touches trace key n →
      (trace.state (n + 1)).liveUntil key = (trace.state n).liveUntil key) ∧
    (∀ n : ℕ, n < N → ∀ env call receipt, trace.label n = .call env call receipt →
      call.isReadonly = true →
        ∀ k, (trace.state (n + 1)).liveUntil k = (trace.state n).liveUntil k) ∧
    (∀ n : ℕ, n < N → ∀ env call receipt, trace.label n = .call env call receipt →
      (∀ o : Opening Address, call ≠ o.call) →
      (trace.state (n + 1)).liveUntil .streamCount = (trace.state n).liveUntil .streamCount) := by
  have hlives := fun (n : ℕ) (hn : (n : ℕ∞) < N) k => (trace.steps n hn).lives k
  refine ⟨fun j hj htouched => hpunctual.alive hj htouched, ?_, ?_, ?_, ?_, ?_, ?_⟩
  · intro hnot j hj htouched hhas
    exact hpunctual.alive hj htouched (exists_touch hnot hj.le hhas)
  · intro n hn htouched
    obtain ⟨hsequence, hmargin⟩ := (hlives n hn key).refreshed htouched
    rw [hsequence]
    exact hmargin
  · exact fun n hn hhas => (hlives n hn key).not_shortened hhas
  · exact fun n hn hnone => (hlives n hn key).untouched hnone
  · intro n hn env call receipt hlabel hreadonly k
    apply (hlives n hn k).untouched
    rw [hlabel, Label.refreshes_of_readonly hreadonly]
    exact List.not_mem_nil
  · intro n hn env call receipt hlabel hother
    apply (hlives n hn .streamCount).untouched
    intro hcount
    rw [hlabel] at hcount
    obtain ⟨o, hcall⟩ := Label.create_of_refreshes hcount
    exact hother o hcall

end Schedule

namespace Sample

/-- A stream is opened, and its recipient withdraws on a later ledger. -/
def drainTrace : Trace (@Step ℕ _) 3 where
  state
    | 0 => genesis
    | 1 => opened
    | 2 => later
    | _ => drained
  label
    | 0 => .call env opening.call (genesis.invoke env opening.call).1
    | 1 => .clock 4 1
    | _ => .call env (.withdraw 0) (later.invoke env (.withdraw 0)).1
  steps := by
    intro n hn
    have hlt : n < 3 := by exact_mod_cast hn
    match n, hlt with
    | 0, _ => exact .call rfl
    | 1, _ => exact .clock (by decide) (by decide)
    | 2, _ => exact .call rfl

theorem drainTrace_punctual : Punctual drainTrace (.stream 0) := by
  intro i j hj _
  have hlt : j < 3 := by exact_mod_cast hj
  have hle : (drainTrace.state j).sequence ≤ 1 := by
    match j, hlt with
    | 0, _ => decide
    | 1, _ => decide
    | 2, _ => decide
  have hpos : 1 ≤ bumpThreshold := by decide
  omega

end Sample

theorem entries_kept_alive_drained :
    Sample.later.sequence ≤ Sample.later.liveUntil (.stream 0) ∧
      Sample.drained.sequence + bumpThreshold ≤ Sample.drained.liveUntil (.stream 0) := by
  obtain ⟨halive, _, hmargin, _⟩ :=
    entries_kept_alive Sample.drainTrace (.stream 0) Sample.drainTrace_punctual
  have hopened : touches Sample.drainTrace (.stream 0) 0 := List.mem_cons_self
  have htouched : touches Sample.drainTrace (.stream 0) 2 := List.mem_cons_self
  have htwo : ((2 : ℕ) : ℕ∞) < 3 := by norm_num
  exact ⟨halive 2 htwo htouched ⟨0, by decide, hopened⟩, hmargin 2 htwo htouched⟩

end TricklePay
