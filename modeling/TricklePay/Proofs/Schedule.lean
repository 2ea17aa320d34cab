import TricklePay.Proofs.Lifecycle

/-!
# The schedule, exactly

The machine computes the floor of the gated line, whatever the window. Closing a
stream early replaces its line by one through what had vested, so that its past
is read off a different line from then on: by one unit at most, and never upward.
-/

namespace TricklePay

open Checked Transition

variable {Address : Type}

/-! ### The vested amount of any window -/

section Window

variable {totalAmount : I128} {startTime endTime cliffTime now : UInt64}

theorem toInt_of_vestedAmount (h₀ : 0 ≤ totalAmount.toInt)
    (h₁ : totalAmount.toInt ≤ maxAmount.toInt) {v : I128}
    (hv : vestedAmount totalAmount startTime endTime cliffTime now = .ok v) :
    v.toInt = gatedFloor totalAmount.toInt startTime.toNat endTime.toNat cliffTime.toNat
      now.toNat := by
  obtain ⟨exact, hexact, hfloor⟩ :=
    vestedAmount_spec h₀ h₁ startTime endTime cliffTime now
  rw [hexact] at hv
  cases hv
  exact hfloor

theorem vestedAmount_regions (h₀ : 0 ≤ totalAmount.toInt)
    (h₁ : totalAmount.toInt ≤ maxAmount.toInt) {v : I128}
    (hv : vestedAmount totalAmount startTime endTime cliffTime now = .ok v) :
    0 ≤ v ∧ v ≤ totalAmount ∧ (now < max cliffTime startTime → v = 0) ∧
      (max cliffTime startTime ≤ now → endTime ≤ now → v = totalAmount) ∧
      (max cliffTime startTime ≤ now → now < endTime → ∀ k : ℤ, k = v.toInt ↔
        k * ((endTime.toNat : ℤ) - startTime.toNat) ≤
            totalAmount.toInt * ((now.toNat : ℤ) - startTime.toNat) ∧
          totalAmount.toInt * ((now.toNat : ℤ) - startTime.toNat) <
            (k + 1) * ((endTime.toNat : ℤ) - startTime.toNat)) := by
  have hexact := toInt_of_vestedAmount h₀ h₁ hv
  simp only [UInt64.lt_iff_toNat_lt, UInt64.le_iff_toNat_le, U64.toNat_max, lt_max_iff, max_le_iff]
  refine ⟨?_, ?_, ?_, ?_, ?_⟩
  · rw [Signed.le_iff, hexact]
    exact gatedFloor_nonneg h₀ _ _ _ _
  · rw [Signed.le_iff, hexact]
    exact gatedFloor_le_total h₀ _ _ _ _
  · intro hgate
    apply Signed.ext
    rw [hexact]
    exact gatedFloor_of_gated hgate
  · rintro ⟨hcliff, hstart⟩ hend
    apply Signed.ext
    rw [hexact]
    exact gatedFloor_of_stop_le hcliff hstart hend
  · rintro ⟨hcliff, hstart⟩ hend k
    rw [hexact]
    exact eq_gatedFloor_iff hcliff hstart hend

end Window

/-- On every amount the contract accepts and every window whatsoever, the machine
arithmetic never traps and computes the floor of the gated line: nothing before
the gate, all of it from the end on, in between the one integer below the elapsed
share. It is monotone in time, the cliff only withholds, and between two instants
of the window it grows as the line does to within one unit. -/
theorem vestedAmount_exact {totalAmount : I128} (h₀ : 0 ≤ totalAmount)
    (h₁ : totalAmount ≤ maxAmount) (startTime endTime : UInt64) :
    ∃ v : UInt64 → UInt64 → I128,
      (∀ cliffTime now,
        vestedAmount totalAmount startTime endTime cliffTime now = .ok (v cliffTime now)) ∧
      (∀ cliffTime now, 0 ≤ v cliffTime now ∧ v cliffTime now ≤ totalAmount ∧
        (now < max cliffTime startTime → v cliffTime now = 0) ∧
        (max cliffTime startTime ≤ now → endTime ≤ now → v cliffTime now = totalAmount) ∧
        (max cliffTime startTime ≤ now → now < endTime → ∀ k : ℤ, k = (v cliffTime now).toInt ↔
          k * ((endTime.toNat : ℤ) - startTime.toNat) ≤
              totalAmount.toInt * ((now.toNat : ℤ) - startTime.toNat) ∧
            totalAmount.toInt * ((now.toNat : ℤ) - startTime.toNat) <
              (k + 1) * ((endTime.toNat : ℤ) - startTime.toNat))) ∧
      (∀ cliffTime a b, a ≤ b → v cliffTime a ≤ v cliffTime b) ∧
      (∀ cliffTime cliffTime' now, cliffTime ≤ now → cliffTime' ≤ now →
        v cliffTime now = v cliffTime' now) ∧
      (∀ cliffTime a b, max startTime cliffTime ≤ a → a ≤ b → b < endTime →
        |(((v cliffTime b).toInt - (v cliffTime a).toInt : ℤ) : ℚ) -
          (totalAmount.toInt : ℚ) * ((b.toNat : ℚ) - a.toNat) /
            ((endTime.toNat : ℚ) - startTime.toNat)| < 1) := by
  choose v hv hexact using vestedAmount_spec h₀ h₁ startTime endTime
  refine ⟨v, hv, fun cliffTime now => vestedAmount_regions h₀ h₁ (hv cliffTime now), ?_, ?_, ?_⟩
  · intro cliffTime a b hab
    rw [Signed.le_iff, hexact, hexact]
    exact gatedFloor_mono h₀ _ _ _ (UInt64.le_iff_toNat_le.mp hab)
  · intro cliffTime cliffTime' now hc hc'
    apply Signed.ext
    rw [hexact, hexact]
    exact gatedFloor_cliff (UInt64.le_iff_toNat_le.mp hc) (UInt64.le_iff_toNat_le.mp hc')
  · intro cliffTime a b hgate hab hend
    rw [UInt64.le_iff_toNat_le, U64.toNat_max] at hgate
    obtain ⟨hstart, hcliff⟩ := max_le_iff.mp hgate
    rw [hexact, hexact]
    exact abs_gatedFloor_sub_lt hcliff hstart (UInt64.le_iff_toNat_le.mp hab)
      (UInt64.lt_iff_toNat_lt.mp hend)

theorem vestedAmount_exact_inverted :
    ∃ v : UInt64 → UInt64 → I128,
      (∀ cliffTime now,
        vestedAmount (Sample.units 100) 20 10 cliffTime now = .ok (v cliffTime now)) ∧
      ∀ cliffTime a b, a ≤ b → v cliffTime a ≤ v cliffTime b := by
  have h₀ : 0 ≤ Sample.units 100 := by decide
  have h₁ : Sample.units 100 ≤ maxAmount := by decide
  obtain ⟨v, hv, _, hmono, _⟩ := vestedAmount_exact h₀ h₁ 20 10
  exact ⟨v, hv, hmono⟩

/-! ### Splitting a deposit -/

theorem mapM_vestedAmount {totals : List I128}
    (hbounds : ∀ t ∈ totals, 0 ≤ t.toInt ∧ t.toInt ≤ maxAmount.toInt)
    (startTime endTime cliffTime now : UInt64) :
    ∃ parts, totals.mapM (fun t => vestedAmount t startTime endTime cliffTime now) = .ok parts ∧
      parts.map Signed.toInt = totals.map fun t =>
        gatedFloor t.toInt startTime.toNat endTime.toNat cliffTime.toNat now.toNat := by
  induction totals with
  | nil => exact ⟨[], rfl, rfl⟩
  | cons t totals ih =>
    obtain ⟨⟨h₀, h₁⟩, hrest⟩ := List.forall_mem_cons.mp hbounds
    obtain ⟨v, hv, hfloor⟩ := vestedAmount_spec h₀ h₁ startTime endTime cliffTime now
    obtain ⟨parts, hparts, hfloors⟩ := ih hrest
    refine ⟨v :: parts, ?_, ?_⟩
    · rw [List.mapM_cons, hv, ok_bind, hparts]
      rfl
    · rw [List.map_cons, List.map_cons, hfloor, hfloors]

/-- A deposit split over several streams with one window, whatever the window and
whatever the split, has at every moment released what a single stream would have, to
within less than one unit for each of them, and never more. Once the window has closed
nothing is missing. -/
theorem splitting_loses_less_than_a_unit_each {totals : List I128} {whole : I128}
    (hne : totals ≠ []) (hnonneg : ∀ t ∈ totals, 0 ≤ t.toInt)
    (hwhole : whole.toInt = (totals.map Signed.toInt).sum) (hmax : whole ≤ maxAmount)
    (startTime endTime cliffTime now : UInt64) :
    ∃ parts v, totals.mapM (fun t => vestedAmount t startTime endTime cliffTime now) = .ok parts ∧
      vestedAmount whole startTime endTime cliffTime now = .ok v ∧
      (parts.map Signed.toInt).sum ≤ v.toInt ∧
      v.toInt < (parts.map Signed.toInt).sum + totals.length ∧
      (endTime ≤ now → (parts.map Signed.toInt).sum = v.toInt) := by
  have hsummands : ∀ t ∈ totals.map Signed.toInt, 0 ≤ t := by simpa using hnonneg
  have hbounds : ∀ t ∈ totals, 0 ≤ t.toInt ∧ t.toInt ≤ maxAmount.toInt := by
    intro t ht
    have hle := List.single_le_sum hsummands t.toInt (List.mem_map_of_mem ht)
    rw [← hwhole] at hle
    exact ⟨hnonneg t ht, hle.trans hmax⟩
  have h₀ : 0 ≤ whole.toInt := hwhole ▸ List.sum_nonneg hsummands
  obtain ⟨parts, hparts, hfloors⟩ := mapM_vestedAmount hbounds startTime endTime cliffTime now
  obtain ⟨v, hv, hfloor⟩ := vestedAmount_spec h₀ hmax startTime endTime cliffTime now
  have hsplit := gatedFloor_sum (totals.map Signed.toInt) startTime.toNat endTime.toNat
    cliffTime.toNat now.toNat (by simpa using hne)
  rw [List.map_map, List.length_map, ← hwhole, ← hfloor] at hsplit
  refine ⟨parts, v, hparts, hv, ?_⟩
  rw [hfloors]
  refine ⟨hsplit.1, hsplit.2, fun hend => ?_⟩
  have hall := gatedFloor_sum_of_stop_le (totals.map Signed.toInt) startTime.toNat cliffTime.toNat
    (UInt64.le_iff_toNat_le.mp hend)
  rw [List.map_map, ← hwhole, ← hfloor] at hall
  exact hall

theorem splitting_loses_less_than_a_unit_each_ten :
    ∃ parts v, [(⟨4, by decide⟩ : I128), ⟨6, by decide⟩].mapM
        (fun t => vestedAmount t 0 3 0 2) = .ok parts ∧
      vestedAmount ⟨10, by decide⟩ 0 3 0 2 = .ok v ∧
      (parts.map Signed.toInt).sum ≤ v.toInt ∧
      v.toInt < (parts.map Signed.toInt).sum + (2 : ℕ) ∧
      ((3 : UInt64) ≤ 2 → (parts.map Signed.toInt).sum = v.toInt) :=
  splitting_loses_less_than_a_unit_each (by simp) (by decide) rfl (by decide) 0 3 0 2

/-! ### The past of a cancelled stream -/

namespace Stream.WellFormed

variable {stream : Stream Address} {now : UInt64}

theorem vested_close_past (h : stream.WellFormed now) (hend : now.toNat < stream.endTime.toNat)
    {t : UInt64} (ht : t.toNat < now.toNat) :
    stream.vested t - 1 ≤ (stream.close (stream.vestedUnits now) now).vested t ∧
      (stream.close (stream.vestedUnits now) now).vested t ≤ stream.vested t := by
  simp only [Stream.vested, Stream.close, U64.toNat_min, h.toInt_vestedUnits]
  exact gatedFloor_reclosed _ _ _ hend ht

end Stream.WellFormed

variable [DecidableEq Address]

theorem World.Sound.cancel_ok {w w' : World Address} (hw : w.Sound) {env : Env Address}
    {id : UInt64} {receipt : Receipt Address} (hinvoke : w.invoke env (.cancel id) = (receipt, w'))
    {response : Response Address} (hresult : receipt.result = .ok response) :
    ∃ stream, w.streams id = some stream ∧ w.timestamp.toNat < stream.endTime.toNat ∧
      w'.streams id = some (stream.close (stream.vestedUnits w.timestamp) w.timestamp) := by
  have hcall : w.invoke env (StreamOp.cancel.call id) = (receipt, w') := hinvoke
  obtain ⟨stream, z, book, hstream, _, houtcome, _, _, hworld⟩ := hw.op_ok hcall hresult
  cases houtcome with
  | paid _ _ hselect _ _ _ _ => cases hselect
  | closed _ _ hend hz =>
    refine ⟨stream, hstream, hend, ?_⟩
    rw [hworld, hz]
    exact Function.update_self _ _ _

/-- Cancelling a stream at `n` leaves every later point of its schedule at what
had vested at `n`, and lowers an earlier point by one unit at most; the frozen
schedule is monotone and within the frozen total. Read at any later ledger. -/
theorem cancelled_history {w w' w'' : World Address} {env : Env Address} {id : UInt64}
    {receipt : Receipt Address} {ls : List (Label Address)} (h : Reachable w)
    (hcancel : w.invoke env (.cancel id) = (receipt, w')) {response : Response Address}
    (hresult : receipt.result = .ok response) (hrun : Run Step w' ls w'') :
    ∃ (pre post : UInt64 → I128) (frozen : Stream Address),
      (∀ env t, w.answer env (.vestedAt id t) = .ok (.amount (pre t))) ∧
      (∀ env t, w''.answer env (.vestedAt id t) = .ok (.amount (post t))) ∧
      w''.streams id = some frozen ∧
      (∀ t, w.timestamp ≤ t → post t = pre w.timestamp) ∧
      (∀ t, t < w.timestamp → (pre t).toInt - 1 ≤ (post t).toInt ∧ post t ≤ pre t) ∧
      (∀ a b, a ≤ b → post a ≤ post b) ∧
      ∀ t, 0 ≤ post t ∧ post t ≤ frozen.totalAmount := by
  obtain ⟨stream, hstream, hend, hclosed⟩ := h.sound.cancel_ok hcancel hresult
  have hformed := h.sound.records id stream hstream
  have hsound' := (Step.call hcancel).sound h.sound
  have hsound'' := hsound'.run hrun
  obtain ⟨frozen, hfrozen, hevolved, _⟩ := hsound'.evolved hrun hclosed
  have hformed'' := hsound''.records id frozen hfrozen
  have hsame := hevolved.frozen rfl
  have hvested : ∀ t, frozen.vested t =
      (stream.close (stream.vestedUnits w.timestamp) w.timestamp).vested t := by
    intro t
    rw [hsame]
    rfl
  refine ⟨stream.vestedUnits, frozen.vestedUnits, frozen,
    (h.sound.stores hstream).answer_vestedAt, (hsound''.stores hfrozen).answer_vestedAt,
    hfrozen, ?_, ?_, ?_, ?_⟩
  · intro t ht
    apply Signed.ext
    rw [hformed''.toInt_vestedUnits, hvested,
      Stream.vested_close _ _ (UInt64.le_iff_toNat_le.mp ht)]
  · intro t ht
    rw [Signed.le_iff, hformed''.toInt_vestedUnits, hformed.toInt_vestedUnits, hvested]
    exact hformed.vested_close_past hend (UInt64.lt_iff_toNat_lt.mp ht)
  · intro a b hab
    rw [Signed.le_iff, hformed''.toInt_vestedUnits, hformed''.toInt_vestedUnits]
    exact hformed''.vested_mono (UInt64.le_iff_toNat_le.mp hab)
  · intro t
    rw [Signed.le_iff, Signed.le_iff, hformed''.toInt_vestedUnits]
    exact ⟨hformed''.vested_nonneg t, hformed''.vested_le_total t⟩

theorem cancelled_history_drained :
    ∃ pre post : UInt64 → I128,
      (∀ env t, Sample.drained.answer env (.vestedAt 0 t) = .ok (.amount (pre t))) ∧
      (∀ env t, Sample.cancelled.answer env (.vestedAt 0 t) = .ok (.amount (post t))) ∧
      (∀ t, Sample.drained.timestamp ≤ t → post t = pre Sample.drained.timestamp) ∧
      ∀ t, t < Sample.drained.timestamp → (pre t).toInt - 1 ≤ (post t).toInt ∧ post t ≤ pre t := by
  have hcancel : Sample.drained.invoke Sample.env (.cancel 0) =
      ((Sample.drained.invoke Sample.env (.cancel 0)).1, Sample.cancelled) := rfl
  have hresult : (Sample.drained.invoke Sample.env (.cancel 0)).1.result =
      .ok (.amount (Sample.units 60)) := rfl
  obtain ⟨pre, post, _, hpre, hpost, _, hafter, hbefore, _⟩ :=
    cancelled_history Sample.drained_reachable hcancel hresult .nil
  exact ⟨pre, post, hpre, hpost, hafter, hbefore⟩

end TricklePay
