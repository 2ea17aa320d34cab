import TricklePay.Proofs.Solvency
import TricklePay.Proofs.Trace

/-!
# Who can move a stream

A record is loaded by an id of the caller's choosing, and the authority to move it
is read from the record itself. Whoever calls what with whatever authorizations:
only the two stored parties can move a stream, each in one way.
-/

namespace TricklePay

open Checked Transition

variable {Address : Type}

/-- The address authorizes the call made in this step, if one is made. -/
def Label.AuthorizedBy (address : Address) : Label Address → Prop
  | .call env _ _ => env.authorized address = true
  | _ => False

/-- The two ways the record of stream `id` can be moved by a call, and what the
contract transfers when it is. -/
inductive Moved (w : World Address) (env : Env Address) (call : Call Address)
    (receipt : Receipt Address) (id : UInt64) (stream stream' : Stream Address) : Prop
  | withdrawn (amount : I128)
      (hcall : call = .withdraw id ∨ ∃ requested, call = .withdrawAmount id requested)
      (hauth : env.authorized stream.recipient = true)
      (hrecord : stream' = { stream with withdrawn := stream'.withdrawn })
      (hamount : amount.toInt = stream'.withdrawn.toInt - stream.withdrawn.toInt)
      (hpos : 0 < amount.toInt)
      (htransfers : receipt.transfers =
        [⟨stream.token, w.contractAddress, stream.recipient, amount⟩])
  | cancelled (amount : I128) (hcall : call = .cancel id)
      (hauth : env.authorized stream.sender = true)
      (hrecord : stream' = { stream with
        totalAmount := stream'.totalAmount
        startTime := stream'.startTime
        cliffTime := stream'.cliffTime
        endTime := stream'.endTime
        cancelled := stream'.cancelled })
      (hamount : amount.toInt = stream.totalAmount.toInt - stream'.totalAmount.toInt)
      (hpos : 0 < amount.toInt)
      (htransfers : receipt.transfers =
        [⟨stream.token, w.contractAddress, stream.sender, amount⟩])

variable [DecidableEq Address] {w w' : World Address} {env : Env Address} {call : Call Address}
  {receipt : Receipt Address}

theorem World.Settles.moved {op : StreamOp} {id : UInt64} {stream : Stream Address}
    {z : Settled Address} {book : Address → ℤ} (hformed : stream.WellFormed w.timestamp)
    (h : w.Settles env op id stream z book receipt w') :
    Moved w env (op.call id) receipt id stream z.stream := by
  have hauth := h.authorized
  have hpos := h.outcome.amount_pos hformed
  have htransfers : receipt.transfers =
      [⟨stream.token, w.contractAddress, op.party stream, z.amount⟩] :=
    congrArg Receipt.transfers h.receipt_eq
  cases h.outcome with
  | paid select amount hselect _ hamount hle hz =>
    subst hz
    rw [op.party_of_select hselect] at hauth htransfers
    refine .withdrawn amount ?_ hauth rfl ?_ hpos htransfers
    · cases op with
      | withdraw => exact Or.inl rfl
      | withdrawAmount requested => exact Or.inr ⟨requested, rfl⟩
      | cancel => cases hselect
    · change amount.toInt = (stream.pay amount).withdrawn.toInt - _
      rw [hformed.toInt_pay hamount hle]
      omega
  | closed hop _ _ hz =>
    subst hop hz
    refine .cancelled (stream.refund w.timestamp) rfl hauth rfl ?_ hpos htransfers
    change (stream.refund w.timestamp).toInt = _ - (stream.vestedUnits w.timestamp).toInt
    rw [hformed.toInt_refund, hformed.toInt_vestedUnits]

/-- What a call does to a stored record: nothing, or one of the two moves. -/
theorem World.Sound.invoke_moved (hw : w.Sound) (hinvoke : w.invoke env call = (receipt, w'))
    {id : UInt64} {stream : Stream Address} (hstream : w.streams id = some stream) :
    w'.streams id = some stream ∨
      ∃ stream', w'.streams id = some stream' ∧ Moved w env call receipt id stream stream' := by
  cases w.invoke_effect hinvoke with
  | rejected _ _ hworld =>
    rw [hworld]
    exact Or.inl hstream
  | viewed _ _ _ _ hworld =>
    rw [hworld]
    exact Or.inl hstream
  | opened o next book _ _ _ _ _ _ hworld =>
    subst hworld
    have hne : id ≠ w.streamCount.getD 0 := by
      rintro rfl
      rw [hw.next_id_free] at hstream
      cases hstream
    exact Or.inl ((Function.update_of_ne hne _ _).trans hstream)
  | settled op i _ _ hcall _ _ _ _ =>
    subst hcall
    rcases hw.op_cases hinvoke with ⟨failure, hrejected⟩ | ⟨s, z, book, hsettles⟩
    · cases hrejected
      exact Or.inl hstream
    · have hmoved := hsettles.moved (hw.records i s hsettles.stored)
      have hstored := hsettles.stored
      rw [hsettles.world_eq]
      by_cases hid : id = i
      · subst hid
        obtain rfl : s = stream := Option.some_inj.mp (hstored.symm.trans hstream)
        exact Or.inr ⟨z.stream, Function.update_self _ _ _, hmoved⟩
      · exact Or.inl ((Function.update_of_ne hid _ _).trans hstream)

theorem World.Sound.invoke_lowers (hw : w.Sound) (hinvoke : w.invoke env call = (receipt, w'))
    {token : Address} (hexact : (env.token token).Exact)
    (hlower : w'.balance token w.contractAddress < w.balance token w.contractAddress) :
    ∃ id stream stream', w.streams id = some stream ∧ stream.token = token ∧
      w'.streams id = some stream' ∧ Moved w env call receipt id stream stream' := by
  cases w.invoke_effect hinvoke with
  | rejected _ _ hworld =>
    rw [hworld] at hlower
    exact absurd hlower (lt_irrefl _)
  | viewed _ _ _ _ hworld =>
    rw [hworld] at hlower
    exact absurd hlower (lt_irrefl _)
  | opened o next book _ _ hvalid _ hbook _ hworld =>
    subst hworld
    change Function.update w.balance o.token book token w.contractAddress < _ at hlower
    by_cases htoken : token = o.token
    · subst htoken
      have hmove := hexact.eq_move hbook
      have hpos := hvalid.total_pos
      rw [Function.update_self, hmove, Pool.move_target _ hvalid.sender_ne.symm] at hlower
      omega
    · rw [Function.update_of_ne htoken] at hlower
      exact absurd hlower (lt_irrefl _)
  | settled op id _ _ hcall _ _ _ _ =>
    subst hcall
    rcases hw.op_cases hinvoke with ⟨failure, hrejected⟩ | ⟨stream, z, book, hsettles⟩
    · cases hrejected
      exact absurd hlower (lt_irrefl _)
    · have hmoved := hsettles.moved (hw.records id stream hsettles.stored)
      have hworld := hsettles.world_eq
      subst hworld
      change Function.update w.balance stream.token book token w.contractAddress < _ at hlower
      by_cases htoken : token = stream.token
      · exact ⟨id, stream, z.stream, hsettles.stored, htoken.symm, Function.update_self _ _ _,
          hmoved⟩
      · rw [Function.update_of_ne htoken] at hlower
        exact absurd hlower (lt_irrefl _)

theorem World.create_debits {o : Opening Address} (hinvoke : w.invoke env o.call = (receipt, w'))
    {token holder : Address} (hexact : (env.token token).Exact)
    (hlower : w'.balance token holder < w.balance token holder) :
    token = o.token ∧ holder = o.sender ∧ env.authorized o.sender = true ∧
      o.sender ≠ w.contractAddress := by
  cases World.create_effect hinvoke with
  | rejected _ _ hworld =>
    rw [hworld] at hlower
    exact absurd hlower (lt_irrefl _)
  | viewed _ _ hcall _ _ => cases hcall
  | settled op _ _ _ hcall _ _ _ _ => cases op <;> cases hcall
  | opened o' next book hcall hauth hvalid _ hbook _ hworld =>
    obtain rfl := Opening.call_inj hcall
    subst hworld
    change Function.update w.balance o.token book token holder < _ at hlower
    by_cases htoken : token = o.token
    · subst htoken
      have hmove := hexact.eq_move hbook
      have hpos := hvalid.total_pos
      rw [Function.update_self, hmove] at hlower
      by_cases hholder : holder = o.sender
      · exact ⟨rfl, hholder, hauth, hvalid.sender_ne⟩
      · simp only [Pool.move, if_neg hholder] at hlower
        split_ifs at hlower <;> omega
    · rw [Function.update_of_ne htoken] at hlower
      exact absurd hlower (lt_irrefl _)

theorem Step.unauthorized_kept {l : Label Address} (hw : w.Sound) (h : Step w l w') {id : UInt64}
    {stream : Stream Address} (hstream : w.streams id = some stream)
    (hsender : ¬ l.AuthorizedBy stream.sender) (hrecipient : ¬ l.AuthorizedBy stream.recipient) :
    w'.streams id = some stream ∧ l.payouts id = [] ∧ l.refunds id = [] := by
  have htouch := (h.change hw).touch hw hstream
  have hkept : w'.streams id = some stream := by
    cases h with
    | call hinvoke =>
      rcases hw.invoke_moved hinvoke hstream with hkept | ⟨_, _, hmoved⟩
      · exact hkept
      · cases hmoved with
        | withdrawn _ _ hauth _ _ _ _ => exact absurd hauth hrecipient
        | cancelled _ _ hauth _ _ _ _ => exact absurd hauth hsender
    | _ => exact hstream
  cases htouch with
  | kept _ _ hpayouts hrefunds _ => exact ⟨hkept, hpayouts, hrefunds⟩
  | paid amount hpos hle hpaid _ _ _ _ =>
    have hmore := (hw.records id stream hstream).toInt_pay hpos hle
    rw [hkept, Option.some_inj] at hpaid
    rw [← hpaid] at hmore
    omega
  | closed hlive _ hclosed _ _ _ _ =>
    rw [hkept, Option.some_inj] at hclosed
    rw [hclosed] at hlive
    cases hlive

theorem World.Sound.run_unauthorized (hw : w.Sound) {ls : List (Label Address)}
    (hrun : Run Step w ls w') {id : UInt64} {stream : Stream Address}
    (hstream : w.streams id = some stream)
    (hauth : ∀ l ∈ ls, ¬ l.AuthorizedBy stream.sender ∧ ¬ l.AuthorizedBy stream.recipient) :
    w'.streams id = some stream ∧ ls.flatMap (Label.payouts id) = [] ∧
      ls.flatMap (Label.refunds id) = [] := by
  induction hrun with
  | nil => exact ⟨hstream, rfl, rfl⟩
  | @snoc ls m l m' hrun hstep ih =>
    obtain ⟨hkept, hpayouts, hrefunds⟩ := ih fun k hk => hauth k (List.mem_append_left _ hk)
    obtain ⟨hsender, hrecipient⟩ := hauth l (List.mem_append_right _ (List.mem_singleton_self l))
    obtain ⟨hkept', hnone, hnone'⟩ :=
      hstep.unauthorized_kept (hw.run hrun) hkept hsender hrecipient
    simp [hkept', hpayouts, hrefunds, hnone, hnone']

/-- Whoever makes a call, with whatever authorizations: a record changes only when its
recipient withdraws, which moves its counter and pays that much to the recipient,
or when its sender cancels, which closes it and refunds what its total lost to the
sender. Nothing else lowers a balance of the contract, and a creation debits only
a sender that has authorized it and is not the contract. In a run in which neither
party authorizes anything a stream stays as it is, with all it holds still there. -/
theorem only_parties_move_streams (h : Reachable w) :
    (∀ env call receipt w', w.invoke env call = (receipt, w') →
      (∀ id stream, w.streams id = some stream → w'.streams id ≠ some stream →
        ∃ stream', w'.streams id = some stream' ∧ Moved w env call receipt id stream stream') ∧
      (∀ token, (env.token token).Exact →
        w'.balance token w.contractAddress < w.balance token w.contractAddress →
        ∃ id stream stream', w.streams id = some stream ∧ stream.token = token ∧
          w'.streams id = some stream' ∧ Moved w env call receipt id stream stream') ∧
      ∀ o token holder, call = Opening.call o → (env.token token).Exact →
        w'.balance token holder < w.balance token holder →
        token = o.token ∧ holder = o.sender ∧ env.authorized o.sender = true ∧
          o.sender ≠ w.contractAddress) ∧
    ∀ ls w' id stream, Run Step w ls w' → w.streams id = some stream →
      (∀ l ∈ ls, ¬ l.AuthorizedBy stream.sender ∧ ¬ l.AuthorizedBy stream.recipient) →
      w'.streams id = some stream ∧ ls.flatMap (Label.payouts id) = [] ∧
        ls.flatMap (Label.refunds id) = [] ∧
        (ReachableWith stream.token w →
          (∀ l ∈ ls, l.ExactFor stream.token w.contractAddress) →
          stream.totalAmount.toInt - stream.withdrawn.toInt ≤
            w'.balance stream.token w'.contractAddress) := by
  refine ⟨?_, ?_⟩
  · intro env call receipt w' hinvoke
    refine ⟨?_, fun token => h.sound.invoke_lowers hinvoke, ?_⟩
    · intro id stream hstream hchanged
      exact (h.sound.invoke_moved hinvoke hstream).resolve_left hchanged
    · rintro o token holder rfl
      exact World.create_debits hinvoke
  · intro ls w' id stream hrun hstream hauth
    obtain ⟨hkept, hpayouts, hrefunds⟩ := h.sound.run_unauthorized hrun hstream hauth
    refine ⟨hkept, hpayouts, hrefunds, ?_⟩
    intro hwith hexact
    have hsound := h.sound.run hrun
    have hcovers := hsound.escrow_covers hkept
    obtain ⟨_, hsurplus⟩ := surplus_run h.sound hrun hexact
    have hin := transferredIn_nonneg hrun stream.token
    have hnonneg := hwith.surplus_nonneg
    unfold World.surplus at hsurplus hnonneg
    omega

theorem only_parties_move_streams_later :
    (Sample.later.invoke { Sample.env with authorized := fun a => a = 7 } (.cancel 0)).2.streams 0 =
      some Sample.opening.stream := by
  have hstep : Step Sample.later (.call _ (.cancel 0) _) _ :=
    .call (Prod.mk.eta (p := Sample.later.invoke
      { Sample.env with authorized := fun a => a = 7 } (.cancel 0))).symm
  have hauth : ∀ l ∈ [Label.call { Sample.env with authorized := fun a => a = 7 } (.cancel 0)
      (Sample.later.invoke { Sample.env with authorized := fun a => a = 7 } (.cancel 0)).1],
      ¬ l.AuthorizedBy Sample.opening.stream.sender ∧
        ¬ l.AuthorizedBy Sample.opening.stream.recipient := by
    simp [Label.AuthorizedBy, Sample.opening, Opening.stream]
  exact ((only_parties_move_streams Sample.later_reachable).2 _ _ 0 _ (.single hstep)
    Sample.later_stream hauth).1

end TricklePay
