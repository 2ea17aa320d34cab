import TricklePay.Proofs.Archival

/-!
# How entries come to be archived

An entry is archived only when it was neglected: everything that is done for an entry
leaves it some ledgers to live, and nothing cuts them short. Left alone for long enough it
is archived for certain, and then waits, with what it holds, to be restored.
-/

namespace TricklePay

open Checked Transition

variable {Address : Type}

/-! ### What a step does to an entry -/

/-- The life that a step leaves an entry at least, if it looks after it. -/
def ArchiveLabel.margin (key : DataKey) : ArchiveLabel Address → Option ℕ
  | .step l => if key ∈ l.refreshes then some bumpThreshold else none
  | .refused _ _ => none
  | .restored k life | .extended k life => if key = k then some life else none

/-- The network's minimum life, where a step gives it to a new entry. -/
def Label.minLife : Label Address → ℕ
  | .call env _ _ => env.minLife
  | _ => 0

/-- No entry is given more than `longest` in this step. -/
def ArchiveLabel.Within (longest : ℕ) : ArchiveLabel Address → Prop
  | .step l => l.minLife ≤ longest
  | .refused _ _ => True
  | .restored _ life | .extended _ life => life ≤ longest

structure Keeps (w : World Address) (e : ArchiveLabel Address) (w' : World Address)
    (key : DataKey) : Prop where
  sequence_le : w.sequence ≤ w'.sequence
  has : w.Has key → w'.Has key
  appears : ¬ w.Has key → w'.Has key → e.margin key = some bumpThreshold
  not_shortened : w.Has key → w.liveUntil key ≤ w'.liveUntil key
  looked_after : ∀ m, e.margin key = some m →
    w.sequence + m ≤ w'.liveUntil key ∧ (m = bumpThreshold ∨ w.Has key)
  left_alone : e.margin key = none → w'.liveUntil key = w.liveUntil key

/-- Somebody sets the life of an entry to more than it was. -/
theorem Keeps.of_setLife {w : World Address} {e : ArchiveLabel Address} {key k : DataKey}
    {life : ℕ} (hhas : w.Has k) (hlonger : w.liveUntil k ≤ w.sequence + life)
    (hmargin : e.margin key = if key = k then some life else none) :
    Keeps w e (w.setLife k life) key := by
  have hset : (w.setLife k life).liveUntil = Function.update w.liveUntil k (w.sequence + life) :=
    rfl
  have hsame : (w.setLife k life).Has key ↔ w.Has key := World.has_of_streams_eq rfl
  refine ⟨le_rfl, hsame.mpr, fun hnot h => absurd (hsame.mp h) hnot, ?_, ?_, ?_⟩
  · intro _
    by_cases hkey : key = k
    · subst hkey
      rw [hset, Function.update_self]
      exact hlonger
    · rw [hset, Function.update_of_ne hkey]
  · intro m hm
    rw [hmargin] at hm
    split_ifs at hm with hkey
    cases hm
    subst hkey
    rw [hset, Function.update_self]
    exact ⟨le_rfl, Or.inr hhas⟩
  · intro hnone
    rw [hmargin] at hnone
    split_ifs at hnone with hkey
    rw [hset, Function.update_of_ne hkey]

theorem Label.entries_of_refreshes {env : Env Address} {call : Call Address}
    {receipt : Receipt Address} {key : DataKey}
    (h : key ∈ (Label.call env call receipt).refreshes) :
    key ∈ call.entries ∨ ∃ (o : Opening Address) (id : UInt64), call = o.call ∧
      receipt.result = .ok (.id id) ∧ key = .stream id := by
  obtain ⟨time, result, transfers, events⟩ := receipt
  cases result with
  | error failure =>
    rw [Label.refreshes_of_error rfl] at h
    cases h
  | ok response =>
    cases call with
    | createStream sender recipient token totalAmount startTime endTime cliffTime =>
      cases response with
      | id id =>
        rcases List.mem_cons.mp h with hkey | hcount
        · exact Or.inr ⟨⟨sender, recipient, token, totalAmount, startTime, endTime, cliffTime⟩, id,
            rfl, rfl, hkey⟩
        · exact Or.inl hcount
      | _ => cases h
    | withdraw id => exact Or.inl h
    | withdrawAmount id amount => exact Or.inl h
    | cancel id => exact Or.inl h
    | _ =>
      rw [Label.refreshes_of_view rfl rfl] at h
      first | exact Or.inl h | cases h

variable [DecidableEq Address]

section Upkeep

variable {needs : Call Address → List DataKey} {w w' : World Address} {key : DataKey}

theorem Keeps.of_step {l : Label Address} (h : Step w l w') : Keeps w (.step l) w' key := by
  have hlives := h.lives key
  refine ⟨hlives.sequence_le, h.has, ?_, hlives.not_shortened, ?_, ?_⟩
  · intro hnot hhas
    exact if_pos (hlives.appears hnot hhas)
  · intro m hm
    unfold ArchiveLabel.margin at hm
    dsimp only at hm
    split_ifs at hm with hmem
    cases hm
    exact ⟨(hlives.refreshed hmem).2, Or.inl rfl⟩
  · intro hnone
    unfold ArchiveLabel.margin at hnone
    dsimp only at hnone
    split_ifs at hnone with hmem
    exact hlives.untouched hmem

theorem ArchiveStep.refused_archived {call : Call Address}
    (h : ArchiveStep needs w (.refused call key) w') : w.Archived key := by
  cases h with
  | refused _ harchived => exact harchived

theorem ArchiveStep.live {l : Label Address} (h : ArchiveStep needs w (.step l) w') :
    ∀ key ∈ l.needs needs, ¬ w.Archived key := by
  cases h with
  | step hlive _ => exact hlive

theorem ArchiveStep.keeps {e : ArchiveLabel Address} (h : ArchiveStep needs w e w')
    (key : DataKey) : Keeps w e w' key := by
  cases h with
  | step _ hstep => exact .of_step hstep
  | refused =>
    refine ⟨le_rfl, id, fun hnot h => absurd h hnot, fun _ => le_rfl, ?_, fun _ => rfl⟩
    intro m hm
    cases hm
  | restored harchived => exact .of_setLife harchived.1 (by have := harchived.2; omega) rfl
  | extended hhas _ hlonger => exact .of_setLife hhas hlonger rfl

theorem World.stored_le {env : Env Address} {id : UInt64} {stream : Stream Address}
    (hnew : ¬ w.Has (.stream id)) {longest : ℕ} (hterm : entryTtl ≤ longest)
    (hmin : env.minLife ≤ longest) :
    (w.stored env id stream).liveUntil (.stream id) ≤ w.sequence + longest := by
  have hset : (w.setStream env id stream).liveUntil (.stream id) = w.sequence + env.minLife := by
    have hnone : ¬ (w.streams id).isSome = true := hnew
    simp only [World.setStream, if_neg hnone, Function.update_self]
  have hrenewal := (w.setStream env id stream).extendTtl_renewal env (.stream id) (.stream id)
  rw [hset] at hrenewal
  change ((w.setStream env id stream).extendTtl env (.stream id) bumpThreshold entryTtl).liveUntil
    (.stream id) ≤ _
  rcases hrenewal with hkept | ⟨_, hfull⟩
  · rw [hkept]
    omega
  · rw [hfull]
    change w.sequence + entryTtl ≤ _
    omega

theorem Step.new_le {l : Label Address} (h : Step w l w') (hnew : ¬ w.Has key)
    (hhas : w'.Has key) {longest : ℕ} (hterm : entryTtl ≤ longest) (hmin : l.minLife ≤ longest) :
    w'.liveUntil key ≤ w.sequence + longest := by
  have hsame : w'.streams = w.streams → w'.liveUntil key ≤ w.sequence + longest :=
    fun hstreams => absurd ((World.has_of_streams_eq hstreams).mp hhas) hnew
  cases h with
  | clock => exact hsame rfl
  | credited => exact hsame rfl
  | refused => exact hsame rfl
  | bookkeeping => exact hsame rfl
  | @call _ env _ _ hinvoke =>
    cases World.invoke_effect hinvoke with
    | rejected _ _ hworld => exact hsame (by rw [hworld])
    | viewed _ _ _ _ hworld => exact hsame (by rw [hworld])
    | opened o next book _ _ _ _ _ _ hworld =>
      have hwritten : key = .stream (w.streamCount.getD 0) := by
        by_contra hne
        rw [hworld] at hhas
        exact hnew ((World.has_of_update rfl hne).mp hhas)
      subst hwritten hworld
      have hunwritten : ¬ (w.setBook o.token book).Has (.stream (w.streamCount.getD 0)) := hnew
      have hstored : ((w.setBook o.token book).stored env (w.streamCount.getD 0)
          o.stream).liveUntil (.stream (w.streamCount.getD 0)) ≤ w.sequence + longest :=
        World.stored_le hunwritten hterm hmin
      have hcount : DataKey.stream (w.streamCount.getD 0) ≠ .streamCount := DataKey.noConfusion
      exact (World.extendTtl_liveUntil_of_ne hcount).trans_le hstored
    | settled op id stream z _ hstream _ _ hpaid =>
      rcases Settled.paid_cases hpaid with hrejected | ⟨_, balance, hworld⟩
      · cases hrejected
        exact hsame rfl
      · rw [hworld] at hhas
        by_cases hkey : key = .stream id
        · subst hkey
          exact absurd (Option.isSome_iff_exists.mpr ⟨stream, hstream⟩) hnew
        · exact absurd ((World.has_of_update rfl hkey).mp hhas) hnew

theorem ArchiveStep.life_le {e : ArchiveLabel Address} (h : ArchiveStep needs w e w')
    {longest : ℕ} (hterm : entryTtl ≤ longest) (hwithin : e.Within longest)
    (hbound : w.Has key → w.liveUntil key ≤ w.sequence + longest) (hhas : w'.Has key) :
    w'.liveUntil key ≤ w'.sequence + longest := by
  have hsetLife : ∀ (k : DataKey) (life : ℕ), life ≤ longest → (w.setLife k life).Has key →
      (w.setLife k life).liveUntil key ≤ (w.setLife k life).sequence + longest := by
    intro k life hlife hset
    change Function.update w.liveUntil k (w.sequence + life) key ≤ w.sequence + longest
    by_cases hkey : key = k
    · subst hkey
      rw [Function.update_self]
      omega
    · rw [Function.update_of_ne hkey]
      exact hbound ((World.has_of_streams_eq rfl).mp hset)
  cases h with
  | step _ hstep =>
    have hsequence := (hstep.lives key).sequence_le
    by_cases hbefore : w.Has key
    · have hle := hbound hbefore
      rcases hstep.renewal hbefore with hkept | ⟨_, hfull⟩
      · omega
      · omega
    · have hle := hstep.new_le hbefore hhas hterm hwithin
      omega
  | refused => exact hbound hhas
  | restored _ => exact hsetLife _ _ hwithin hhas
  | extended _ _ _ => exact hsetLife _ _ hwithin hhas

end Upkeep

/-! ### Neglect -/

section Neglect

variable {needs : Call Address → List DataKey} {N : ℕ∞} {trace : Trace (ArchiveStep needs) N}
  {key : DataKey} {i j : ℕ}

theorem Has.later (hij : i ≤ j) (hj : (j : ℕ∞) ≤ N) (hhas : (trace.state i).Has key) :
    (trace.state j).Has key :=
  trace.kept hij hj hhas fun _ _ _ hstep hbefore => (hstep.keeps key).has hbefore

theorem sequence_mono (trace : Trace (ArchiveStep needs) N) (hij : i ≤ j) (hj : (j : ℕ∞) ≤ N) :
    (trace.state i).sequence ≤ (trace.state j).sequence :=
  trace.kept (P := fun n => (trace.state i).sequence ≤ (trace.state n).sequence) hij hj le_rfl
    fun _ _ _ hstep hbefore => hbefore.trans (hstep.keeps .streamCount).sequence_le

theorem margin_lasts {m : ℕ} (hij : i < j) (hj : (j : ℕ∞) ≤ N)
    (hmargin : (trace.label i).margin key = some m) (hhas : (trace.state j).Has key) :
    (trace.state i).sequence + m ≤ (trace.state j).liveUntil key := by
  induction j, (hij : i + 1 ≤ j) using Nat.le_induction with
  | base =>
    have hlt : (i : ℕ∞) < N := lt_of_lt_of_le (by exact_mod_cast Nat.lt_succ_self i) hj
    exact (((trace.steps i hlt).keeps key).looked_after m hmargin).1
  | succ j hle ih =>
    have hlt : (j : ℕ∞) < N := lt_of_lt_of_le (by exact_mod_cast Nat.lt_succ_self j) hj
    have hkeeps := (trace.steps j hlt).keeps key
    by_cases hbefore : (trace.state j).Has key
    · exact (ih hlt.le hbefore).trans (hkeeps.not_shortened hbefore)
    · -- an entry that appears at step `j` is given `bumpThreshold` there
      have hfirst : (i : ℕ∞) < N := lt_of_le_of_lt (by exact_mod_cast Nat.le_of_succ_le hle) hlt
      obtain ⟨_, hterm⟩ := ((trace.steps i hfirst).keeps key).looked_after m hmargin
      obtain ⟨hnew, _⟩ := hkeeps.looked_after _ (hkeeps.appears hbefore hhas)
      have hsequence := sequence_mono trace (Nat.le_of_succ_le hle) hlt.le
      rcases hterm with rfl | hearlier
      · omega
      · exact absurd (Has.later (Nat.le_of_succ_le hle) hlt.le hearlier) hbefore

/-- Nobody is given more than the longest life there is. -/
theorem life_bounded {longest : ℕ} (hterm : entryTtl ≤ longest)
    (hwithin : ∀ n : ℕ, n < N → (trace.label n).Within longest)
    (hstart : (trace.state 0).Has key →
      (trace.state 0).liveUntil key ≤ (trace.state 0).sequence + longest) (hj : (j : ℕ∞) ≤ N)
    (hhas : (trace.state j).Has key) :
    (trace.state j).liveUntil key ≤ (trace.state j).sequence + longest := by
  induction j with
  | zero => exact hstart hhas
  | succ j ih =>
    have hlt : (j : ℕ∞) < N := lt_of_lt_of_le (by exact_mod_cast Nat.lt_succ_self j) hj
    exact (trace.steps j hlt).life_le hterm (hwithin j hlt) (ih hlt.le) hhas

theorem left_alone (hij : i ≤ j) (hj : (j : ℕ∞) ≤ N)
    (halone : ∀ n, i ≤ n → n < j → (trace.label n).margin key = none) :
    (trace.state j).liveUntil key = (trace.state i).liveUntil key :=
  trace.kept (P := fun n => (trace.state n).liveUntil key = (trace.state i).liveUntil key) hij hj
    rfl fun n hn hn' hstep hbefore => ((hstep.keeps key).left_alone (halone n hn hn')).trans hbefore

/-- Entries expire by neglect, and by nothing else. A call is refused for want of an
entry only after more ledgers than the margin that anything done for the entry left it:
`bumpThreshold` after a successful call that loads or writes it. Left alone for longer
than the longest life anybody is given, which is `entryTtl` unless the network or
somebody else gives more, an entry is archived, and no call that needs it is run. -/
theorem entries_expire_by_neglect (trace : Trace (ArchiveStep needs) N) (key : DataKey) :
    (∀ i j : ℕ, i < j → j < N → ∀ call m, trace.label j = .refused call key →
      (trace.label i).margin key = some m →
        (trace.state i).sequence + m < (trace.state j).sequence) ∧
    ∀ longest, entryTtl ≤ longest → (∀ n : ℕ, n < N → (trace.label n).Within longest) →
      ((trace.state 0).Has key →
        (trace.state 0).liveUntil key ≤ (trace.state 0).sequence + longest) →
      ∀ i j : ℕ, i ≤ j → j < N → (trace.state i).Has key →
        (∀ n, i ≤ n → n < j → (trace.label n).margin key = none) →
        (trace.state i).sequence + longest < (trace.state j).sequence →
        (trace.state j).Archived key ∧ ∀ env call receipt, key ∈ needs call →
          trace.label j ≠ .step (.call env call receipt) := by
  constructor
  · intro i j hij hj call m hrefused hmargin
    have hstep := trace.steps j hj
    rw [hrefused] at hstep
    have harchived := hstep.refused_archived
    exact (margin_lasts hij hj.le hmargin harchived.1).trans_lt harchived.2
  · intro longest hterm hwithin hstart i j hij hj hhas halone hlong
    have hfirst : (i : ℕ∞) ≤ N := (by exact_mod_cast hij : (i : ℕ∞) ≤ j).trans hj.le
    have hlife := life_bounded hterm hwithin hstart hfirst hhas
    have harchived : (trace.state j).Archived key := by
      refine ⟨Has.later hij hj.le hhas, ?_⟩
      rw [left_alone hij hj.le halone]
      omega
    refine ⟨harchived, fun env call receipt hneeds hlabel => ?_⟩
    have hstep := trace.steps j hj
    rw [hlabel] at hstep
    exact hstep.live key hneeds harchived

end Neglect

namespace Sample

/-- The opened ledger, long after everybody has forgotten the stream. -/
def abandoned : World ℕ := { opened with timestamp := 4, sequence := 600000 }

/-- The instance is restored, and a second stream opened. -/
def reopened : World ℕ :=
  ((abandoned.setLife .streamCount 4096).invoke env opening.call).2

def recovered : World ℕ := reopened.setLife (.stream 0) 4096

/-- A stream is opened and abandoned, and its recipient refused. Others go on to use the
contract. Then the stream is restored, and the recipient withdraws. -/
def abandonedTrace : Trace (ArchiveStep (@Call.entries ℕ)) 7 where
  state
    | 0 => genesis
    | 1 => opened
    | 2 => abandoned
    | 3 => abandoned
    | 4 => abandoned.setLife .streamCount 4096
    | 5 => reopened
    | 6 => recovered
    | _ => (recovered.invoke env (.withdraw 0)).2
  label
    | 0 => .step (.call env opening.call (genesis.invoke env opening.call).1)
    | 1 => .step (.clock 4 600000)
    | 2 => .refused (.withdraw 0) (.stream 0)
    | 3 => .restored .streamCount 4096
    | 4 => .step (.call env opening.call
        ((abandoned.setLife .streamCount 4096).invoke env opening.call).1)
    | 5 => .restored (.stream 0) 4096
    | _ => .step (.call env (.withdraw 0) (recovered.invoke env (.withdraw 0)).1)
  steps := by
    intro n hn
    have hlt : n < 7 := by exact_mod_cast hn
    match n, hlt with
    | 0, _ => exact .step (by decide) (.call rfl)
    | 1, _ => exact .step (by decide) (.clock (by decide) (by decide))
    | 2, _ => exact .refused (by decide) (by decide +kernel)
    | 3, _ => exact .restored (by decide +kernel)
    | 4, _ => exact .step (by decide +kernel) (.call rfl)
    | 5, _ => exact .restored (by decide +kernel)
    | 6, _ => exact .step (by decide +kernel) (.call rfl)

theorem abandonedTrace_within :
    ∀ n : ℕ, n < (7 : ℕ∞) → (abandonedTrace.label n).Within entryTtl := by
  intro n hn
  have hmin : 4096 ≤ entryTtl := by decide
  have hlt : n < 7 := by exact_mod_cast hn
  match n, hlt with
  | 0, _ => exact hmin
  | 1, _ => exact Nat.zero_le _
  | 2, _ => trivial
  | 3, _ => exact hmin
  | 4, _ => exact hmin
  | 5, _ => exact hmin
  | 6, _ => exact hmin

end Sample

theorem entries_expire_by_neglect_abandoned :
    Sample.genesis.sequence + bumpThreshold < Sample.abandoned.sequence ∧
      Sample.abandoned.Archived (.stream 0) := by
  obtain ⟨hrefused, hexpired⟩ := entries_expire_by_neglect Sample.abandonedTrace (.stream 0)
  refine ⟨hrefused 0 2 (by decide) (by norm_num) (.withdraw 0) bumpThreshold rfl rfl, ?_⟩
  refine (hexpired entryTtl le_rfl Sample.abandonedTrace_within (fun hhas => by cases hhas) 1 2
    (by decide) (by norm_num) rfl ?_ (by decide)).1
  intro n hn hn'
  obtain rfl : n = 1 := by omega
  rfl

/-! ### Archived entries wait -/

/-- The entry holds what it held. -/
def World.KeepsEntry (w w' : World Address) : DataKey → Prop
  | .streamCount => w'.streamCount = w.streamCount
  | .stream id => w'.streams id = w.streams id

section Waiting

variable {needs : Call Address → List DataKey} {w w' : World Address} {key : DataKey}

/-- A step of the ordinary host refreshes no entry but those it needs. -/
theorem Step.not_refreshes {l : Label Address} (hw : w.Sound) (h : Step w l w') (hhas : w.Has key)
    (hother : ∀ env call receipt, l = .call env call receipt → key ∉ call.entries) :
    key ∉ l.refreshes := by
  intro hmem
  cases h with
  | call hinvoke =>
    rcases Label.entries_of_refreshes hmem with hentry | ⟨o, id, rfl, hresult, rfl⟩
    · exact hother _ _ _ rfl hentry
    · cases World.create_effect hinvoke with
      | rejected _ hreceipt _ =>
        rw [hreceipt] at hresult
        cases hresult
      | viewed _ _ hview _ _ => cases hview
      | opened _ _ _ _ _ _ _ _ hreceipt _ =>
        rw [hreceipt] at hresult
        cases hresult
        have hfree := hw.next_id_free
        rw [World.Has, hfree] at hhas
        cases hhas
      | settled op _ _ _ hcall _ _ _ _ => cases op <;> cases hcall
  | _ => cases hmem

theorem Step.keepsEntry {l : Label Address} (hw : w.Sound) (h : Step w l w') (hhas : w.Has key)
    (hother : ∀ env call receipt, l = .call env call receipt → key ∉ call.entries) :
    w.KeepsEntry w' key := by
  cases key with
  | streamCount =>
    cases h.change hw with
    | idle _ _ _ _ _ _ hcount _ => exact hcount
    | opened _ _ _ _ hlabel _ _ _ _ => exact absurd List.mem_cons_self (hother _ _ _ hlabel)
    | settled _ _ _ _ _ _ _ _ _ _ hworld =>
      rw [hworld]
      rfl
  | stream id =>
    cases h.change hw with
    | idle _ _ _ _ _ hstreams _ _ => exact congrFun hstreams id
    | opened _ o next book _ _ _ _ hworld =>
      have hne : id ≠ w.streamCount.getD 0 := by
        rintro rfl
        rw [World.Has, hw.next_id_free] at hhas
        cases hhas
      rw [hworld]
      exact Function.update_of_ne hne _ _
    | settled _ op named _ _ _ hlabel _ _ _ hworld =>
      have hne : id ≠ named := by
        rintro rfl
        have hentry : DataKey.stream id ∈ (op.call id : Call Address).entries := by
          cases op <;> exact List.mem_cons_self
        exact hother _ _ _ hlabel hentry
      rw [hworld]
      exact Function.update_of_ne hne _ _

theorem ArchiveStep.archived_kept (hneeds : ∀ call, ∀ key ∈ call.entries, key ∈ needs call)
    {e : ArchiveLabel Address} (hw : w.Sound) (h : ArchiveStep needs w e w')
    (harchived : w.Archived key) (hrestored : ∀ life, e ≠ .restored key life) :
    w'.Archived key ∧ w.KeepsEntry w' key := by
  have hheld : ∀ lives, w.KeepsEntry (w.relive lives) key := by
    intro lives
    cases key <;> rfl
  have hset : ∀ k life, key ≠ k → (w.setLife k life).Archived key := by
    intro k life hne
    refine ⟨(World.has_of_streams_eq rfl).mpr harchived.1, ?_⟩
    change Function.update w.liveUntil k (w.sequence + life) key < w.sequence
    rw [Function.update_of_ne hne]
    exact harchived.2
  cases h with
  | @step _ l hlive hstep =>
    have hother : ∀ env call receipt, l = .call env call receipt → key ∉ call.entries := by
      rintro env call receipt rfl hentry
      exact hlive key (hneeds call key hentry) harchived
    have hlives := hstep.lives key
    refine ⟨⟨hstep.has harchived.1, ?_⟩, hstep.keepsEntry hw harchived.1 hother⟩
    rw [hlives.untouched (hstep.not_refreshes hw harchived.1 hother)]
    exact harchived.2.trans_le hlives.sequence_le
  | refused => exact ⟨harchived, hheld w.liveUntil⟩
  | @restored k life _ =>
    have hne : key ≠ k := by
      rintro rfl
      exact hrestored life rfl
    exact ⟨hset k life hne, hheld _⟩
  | @extended k life _ hlive _ =>
    have hne : key ≠ k := by
      rintro rfl
      exact hlive harchived
    exact ⟨hset k life hne, hheld _⟩

theorem ArchiveStep.sound {e : ArchiveLabel Address} (hw : w.Sound)
    (h : ArchiveStep needs w e w') : w'.Sound := by
  cases h with
  | step _ hstep => exact hstep.sound hw
  | refused => exact hw
  | restored => exact ⟨hw.records, hw.sender_ne, hw.recipient_ne, hw.token_ne, hw.ids⟩
  | extended => exact ⟨hw.records, hw.sender_ne, hw.recipient_ne, hw.token_ne, hw.ids⟩

/-- Archived entries wait. On a host that runs no call without the entries its code may
touch, an archived entry stays archived, and holds what it held, until somebody restores
it: nobody can pay out, cancel or change an archived stream, whatever they call. -/
theorem archived_entries_wait {N : ℕ∞} (trace : Trace (ArchiveStep needs) N)
    (hneeds : ∀ call, ∀ key ∈ call.entries, key ∈ needs call) (h : Reachable (trace.state 0))
    {i j : ℕ} (hij : i ≤ j) (hj : (j : ℕ∞) ≤ N) (harchived : (trace.state i).Archived key)
    (hleft : ∀ n, i ≤ n → n < j → ∀ life, trace.label n ≠ .restored key life) :
    (trace.state j).Archived key ∧ (trace.state i).KeepsEntry (trace.state j) key := by
  have hi : (i : ℕ∞) ≤ N := (by exact_mod_cast hij : (i : ℕ∞) ≤ j).trans hj
  have hsound : (trace.state i).Sound := trace.kept (P := fun n => (trace.state n).Sound)
    (Nat.zero_le i) hi h.sound fun _ _ _ hstep hbefore => hstep.sound hbefore
  refine (trace.kept (P := fun n => (trace.state n).Sound ∧ (trace.state n).Archived key ∧
    (trace.state i).KeepsEntry (trace.state n) key) hij hj ⟨hsound, harchived, ?_⟩ ?_).2
  · cases key <;> rfl
  · rintro n hn hn' hstep ⟨hw, hwaiting, hheld⟩
    obtain ⟨hstill, hkept⟩ := hstep.archived_kept hneeds hw hwaiting (hleft n hn hn')
    refine ⟨hstep.sound hw, hstill, ?_⟩
    cases key with
    | streamCount => exact Eq.trans hkept hheld
    | stream id => exact Eq.trans hkept hheld

end Waiting

/-- The stream is still the one that was opened, though another has been opened since. -/
theorem archived_entries_wait_abandoned :
    Sample.reopened.Archived (.stream 0) ∧
      Sample.abandoned.KeepsEntry Sample.reopened (.stream 0) := by
  have hfive : ((5 : ℕ) : ℕ∞) ≤ 7 := by norm_num
  refine archived_entries_wait Sample.abandonedTrace (fun _ _ h => h) Sample.genesis_reachable
    (i := 2) (j := 5) (by decide) hfive (by decide +kernel) ?_
  intro n hn hn' life hlabel
  have hcases : n = 2 ∨ n = 3 ∨ n = 4 := by omega
  rcases hcases with rfl | rfl | rfl <;> cases hlabel

end TricklePay
