import Mathlib.Algebra.Order.Field.Basic
import Mathlib.Algebra.Order.Floor.Ring
import Mathlib.Tactic

/-!
# A line with a gate, and its floor

`gatedLine total start stop cliff` is zero until both `start` and `cliff` have
been reached, `total` from `stop` on, and the straight line from `(start, 0)` to
`(stop, total)` in between. No order between the three instants is assumed, so a
closed or inverted window is a gated line too. The floor of a gated line with an
integer total is the integer quantity that a ledger of indivisible units can pay.
-/

/-- The three regions a point in time can fall in. -/
theorem window_cases {K : Type*} [LinearOrder K] (start stop cliff now : K) :
    (now < cliff ∨ now < start) ∨
      (cliff ≤ now ∧ start ≤ now ∧ stop ≤ now) ∨ (cliff ≤ now ∧ start ≤ now ∧ now < stop) := by
  by_cases hg : now < cliff ∨ now < start
  · exact Or.inl hg
  · rw [not_or, not_lt, not_lt] at hg
    rcases le_or_gt stop now with h | h
    · exact Or.inr (Or.inl ⟨hg.1, hg.2, h⟩)
    · exact Or.inr (Or.inr ⟨hg.1, hg.2, h⟩)

section Line

variable {K : Type*} [Field K] [LinearOrder K]

def gatedLine (total start stop cliff now : K) : K :=
  if now < cliff ∨ now < start then 0
  else if stop ≤ now then total
  else total * ((now - start) / (stop - start))

variable {total start stop cliff now : K}

theorem gatedLine_of_gated (h : now < cliff ∨ now < start) :
    gatedLine total start stop cliff now = 0 :=
  if_pos h

theorem gatedLine_of_stop_le (hc : cliff ≤ now) (hs : start ≤ now) (h : stop ≤ now) :
    gatedLine total start stop cliff now = total := by
  rw [gatedLine, if_neg (by rw [not_or]; exact ⟨not_lt.mpr hc, not_lt.mpr hs⟩), if_pos h]

theorem gatedLine_of_mem (hc : cliff ≤ now) (hs : start ≤ now) (h : now < stop) :
    gatedLine total start stop cliff now = total * ((now - start) / (stop - start)) := by
  rw [gatedLine, if_neg (by rw [not_or]; exact ⟨not_lt.mpr hc, not_lt.mpr hs⟩),
    if_neg (not_le.mpr h)]

variable [IsStrictOrderedRing K]

theorem elapsed_share_nonneg (hs : start ≤ now) (h : now < stop) :
    0 ≤ (now - start) / (stop - start) :=
  div_nonneg (sub_nonneg.mpr hs) (sub_nonneg.mpr (hs.trans h.le))

theorem elapsed_share_lt_one (hs : start ≤ now) (h : now < stop) :
    (now - start) / (stop - start) < 1 := by
  rw [div_lt_one (sub_pos.mpr (hs.trans_lt h))]
  linarith

theorem gatedLine_nonneg (ht : 0 ≤ total) (start stop cliff now : K) :
    0 ≤ gatedLine total start stop cliff now := by
  rcases window_cases start stop cliff now with hg | ⟨hc, hs, h⟩ | ⟨hc, hs, h⟩
  · rw [gatedLine_of_gated hg]
  · rwa [gatedLine_of_stop_le hc hs h]
  · rw [gatedLine_of_mem hc hs h]
    exact mul_nonneg ht (elapsed_share_nonneg hs h)

theorem gatedLine_le_total (ht : 0 ≤ total) (start stop cliff now : K) :
    gatedLine total start stop cliff now ≤ total := by
  rcases window_cases start stop cliff now with hg | ⟨hc, hs, h⟩ | ⟨hc, hs, h⟩
  · rwa [gatedLine_of_gated hg]
  · rw [gatedLine_of_stop_le hc hs h]
  · rw [gatedLine_of_mem hc hs h]
    exact mul_le_of_le_one_right ht (elapsed_share_lt_one hs h).le

/-- Before the window closes a positive total is never fully released. -/
theorem gatedLine_lt_total (ht : 0 < total) (start cliff : K) (h : now < stop) :
    gatedLine total start stop cliff now < total := by
  rcases window_cases start stop cliff now with hg | ⟨_, _, h'⟩ | ⟨hc, hs, _⟩
  · rwa [gatedLine_of_gated hg]
  · exact absurd h (not_lt.mpr h')
  · rw [gatedLine_of_mem hc hs h]
    exact mul_lt_of_lt_one_right ht (elapsed_share_lt_one hs h)

theorem gatedLine_mono (ht : 0 ≤ total) (start stop cliff : K) :
    Monotone (gatedLine total start stop cliff) := by
  intro a b hab
  rcases window_cases start stop cliff a with hg | ⟨hc, hs, h⟩ | ⟨hc, hs, h⟩
  · rw [gatedLine_of_gated hg]
    exact gatedLine_nonneg ht start stop cliff b
  · rw [gatedLine_of_stop_le hc hs h,
      gatedLine_of_stop_le (hc.trans hab) (hs.trans hab) (h.trans hab)]
  · rcases le_or_gt stop b with hb | hb
    · rw [gatedLine_of_stop_le (hc.trans hab) (hs.trans hab) hb]
      exact gatedLine_le_total ht start stop cliff a
    · rw [gatedLine_of_mem hc hs h, gatedLine_of_mem (hc.trans hab) (hs.trans hab) hb]
      have hwidth : 0 ≤ stop - start := sub_nonneg.mpr (hs.trans h.le)
      exact mul_le_mul_of_nonneg_left
        (div_le_div_of_nonneg_right (sub_le_sub_right hab start) hwidth) ht

end Line

/-- The whole units of a gated line, computed by integer division. -/
def gatedFloor (total : ℤ) (start stop cliff now : ℕ) : ℤ :=
  if now < cliff ∨ now < start then 0
  else if stop ≤ now then total
  else total * ((now : ℤ) - start) / ((stop : ℤ) - start)

theorem gatedFloor_eq_floor (total : ℤ) (start stop cliff now : ℕ) :
    gatedFloor total start stop cliff now =
      ⌊gatedLine (total : ℚ) (start : ℚ) (stop : ℚ) (cliff : ℚ) (now : ℚ)⌋ := by
  unfold gatedFloor gatedLine
  simp only [Nat.cast_lt, Nat.cast_le]
  split_ifs with hg h
  · simp
  · simp
  · rw [not_or, not_lt, not_lt] at hg
    obtain ⟨width, hwidth⟩ : ∃ width, stop = start + width := Nat.exists_eq_add_of_le (by omega)
    rw [hwidth, ← mul_div_assoc]
    have h := Rat.floor_intCast_div_natCast (total * ((now : ℤ) - start)) width
    push_cast at h ⊢
    rw [add_sub_cancel_left, add_sub_cancel_left, h]

section Floor

variable {total : ℤ}

theorem gatedFloor_nonneg (ht : 0 ≤ total) (start stop cliff now : ℕ) :
    0 ≤ gatedFloor total start stop cliff now := by
  rw [gatedFloor_eq_floor, Int.floor_nonneg]
  exact gatedLine_nonneg (Int.cast_nonneg ht) _ _ _ _

theorem gatedFloor_le_total (ht : 0 ≤ total) (start stop cliff now : ℕ) :
    gatedFloor total start stop cliff now ≤ total := by
  have h := Int.floor_mono
    (gatedLine_le_total (Int.cast_nonneg ht : (0 : ℚ) ≤ total) start stop cliff now)
  rwa [← gatedFloor_eq_floor, Int.floor_intCast] at h

theorem gatedFloor_lt_total (ht : 0 < total) (start cliff : ℕ) {stop now : ℕ} (h : now < stop) :
    gatedFloor total start stop cliff now < total := by
  rw [gatedFloor_eq_floor, Int.floor_lt]
  exact gatedLine_lt_total (Int.cast_pos.mpr ht) _ _ (Nat.cast_lt.mpr h)

theorem gatedFloor_mono (ht : 0 ≤ total) (start stop cliff : ℕ) :
    Monotone (gatedFloor total start stop cliff) := by
  intro a b hab
  rw [gatedFloor_eq_floor, gatedFloor_eq_floor]
  exact Int.floor_mono (gatedLine_mono (Int.cast_nonneg ht) _ _ _ (Nat.cast_le.mpr hab))

theorem gatedFloor_of_stop_le {start stop cliff now : ℕ} (hc : cliff ≤ now) (hs : start ≤ now)
    (h : stop ≤ now) : gatedFloor total start stop cliff now = total := by
  rw [gatedFloor, if_neg (by omega), if_pos h]

theorem gatedFloor_of_gated {start stop cliff now : ℕ} (h : now < cliff ∨ now < start) :
    gatedFloor total start stop cliff now = 0 :=
  if_pos h

theorem gatedFloor_of_mem {start stop cliff now : ℕ} (hc : cliff ≤ now) (hs : start ≤ now)
    (h : now < stop) : gatedFloor total start stop cliff now =
      total * ((now : ℤ) - start) / ((stop : ℤ) - start) := by
  rw [gatedFloor, if_neg (by omega), if_neg (by omega)]

/-- Inside the window the floor is the one integer whose share of the width is at
most the elapsed share of the total, and would exceed it with one unit more. -/
theorem eq_gatedFloor_iff {start stop cliff now : ℕ} (hc : cliff ≤ now) (hs : start ≤ now)
    (h : now < stop) {v : ℤ} :
    v = gatedFloor total start stop cliff now ↔
      v * ((stop : ℤ) - start) ≤ total * ((now : ℤ) - start) ∧
        total * ((now : ℤ) - start) < (v + 1) * ((stop : ℤ) - start) := by
  have hwidth : (0 : ℤ) < (stop : ℤ) - start := by omega
  rw [gatedFloor_of_mem hc hs h, ← Int.le_ediv_iff_mul_le hwidth, ← Int.ediv_lt_iff_lt_mul hwidth]
  omega

/-- The cliff only withholds. -/
theorem gatedFloor_cliff {start stop cliff cliff' now : ℕ} (hc : cliff ≤ now) (hc' : cliff' ≤ now) :
    gatedFloor total start stop cliff now = gatedFloor total start stop cliff' now := by
  have hgate : (now < cliff ∨ now < start) ↔ (now < cliff' ∨ now < start) := by omega
  simp only [gatedFloor, hgate]

/-- Between two instants of the window the floors grow as the line does, to
within one unit. -/
theorem abs_gatedFloor_sub_lt {start stop cliff a b : ℕ} (hc : cliff ≤ a) (hs : start ≤ a)
    (hab : a ≤ b) (h : b < stop) :
    |((gatedFloor total start stop cliff b - gatedFloor total start stop cliff a : ℤ) : ℚ) -
      total * ((b : ℚ) - a) / ((stop : ℚ) - start)| < 1 := by
  have hline : total * ((b : ℚ) - a) / ((stop : ℚ) - start) =
      gatedLine (total : ℚ) start stop cliff b - gatedLine (total : ℚ) start stop cliff a := by
    rw [gatedLine_of_mem (Nat.cast_le.mpr (hc.trans hab)) (Nat.cast_le.mpr (hs.trans hab))
      (Nat.cast_lt.mpr h), gatedLine_of_mem (Nat.cast_le.mpr hc) (Nat.cast_le.mpr hs)
      (Nat.cast_lt.mpr (hab.trans_lt h))]
    ring
  rw [hline, gatedFloor_eq_floor, gatedFloor_eq_floor, abs_lt]
  have hb := Int.floor_le (gatedLine (total : ℚ) start stop cliff b)
  have hb' := Int.lt_floor_add_one (gatedLine (total : ℚ) start stop cliff b)
  have ha := Int.floor_le (gatedLine (total : ℚ) start stop cliff a)
  have ha' := Int.lt_floor_add_one (gatedLine (total : ℚ) start stop cliff a)
  push_cast
  constructor <;> linarith

/-- Rescaling an already floored share loses at most one unit, and gains none. -/
theorem ediv_rescaled (total : ℤ) {elapsed inner outer : ℤ} (he : 0 ≤ elapsed)
    (hi : elapsed ≤ inner) (hinner : 0 < inner) (houter : 0 < outer) :
    total * elapsed / outer - 1 ≤ total * inner / outer * elapsed / inner ∧
      total * inner / outer * elapsed / inner ≤ total * elapsed / outer := by
  have hv := Int.ediv_mul_le (total * inner) houter.ne'
  have hv' := Int.lt_ediv_add_one_mul_self (total * inner) houter
  generalize total * inner / outer = v at hv hv' ⊢
  have hpre := Int.ediv_mul_le (total * elapsed) houter.ne'
  have hpost := Int.ediv_mul_le (v * elapsed) hinner.ne'
  have hpost' := Int.lt_ediv_add_one_mul_self (v * elapsed) hinner
  constructor
  · generalize v * elapsed / inner = post at hpost hpost' ⊢
    generalize total * elapsed / outer = pre at hpre ⊢
    have hscaled : pre * inner * outer ≤ (v + 1) * elapsed * outer := by nlinarith
    have hle : pre * inner ≤ (v + 1) * elapsed := le_of_mul_le_mul_right hscaled houter
    have hlt : pre * inner < (post + 2) * inner := by nlinarith
    have hunits : pre < post + 2 := lt_of_mul_lt_mul_right hlt hinner.le
    omega
  · rw [Int.le_ediv_iff_mul_le houter]
    generalize v * elapsed / inner = post at hpost ⊢
    have hscaled : post * outer * inner ≤ total * elapsed * inner := by nlinarith
    exact le_of_mul_le_mul_right hscaled hinner

/-- Closing the window early, on what had been released by then, lowers earlier
points of the floor by at most one unit and raises none. -/
theorem gatedFloor_reclosed (total : ℤ) (start cliff : ℕ) {stop closed now : ℕ}
    (hstop : closed < stop) (h : now < closed) :
    gatedFloor total start stop cliff now - 1 ≤
        gatedFloor (gatedFloor total start stop cliff closed) (min start closed) closed
          (min cliff closed) now ∧
      gatedFloor (gatedFloor total start stop cliff closed) (min start closed) closed
          (min cliff closed) now ≤ gatedFloor total start stop cliff now := by
  by_cases hgate : now < cliff ∨ now < start
  · rw [gatedFloor_of_gated hgate, gatedFloor_of_gated (by omega)]
    omega
  · rw [not_or, not_lt, not_lt] at hgate
    obtain ⟨hc, hs⟩ := hgate
    rw [min_eq_left (hs.trans h.le), min_eq_left (hc.trans h.le), gatedFloor_of_mem hc hs h,
      gatedFloor_of_mem hc hs (h.trans hstop),
      gatedFloor_of_mem (hc.trans h.le) (hs.trans h.le) hstop]
    exact ediv_rescaled total (by omega) (by omega) (by omega) (by omega)

/-- What has been released before the stop is what a line of the same total may release
that stops one instant later, at most. -/
theorem gatedFloor_mul_le (ht : 0 ≤ total) {start stop cliff now : ℕ} (hs : start ≤ now)
    (h : now < stop) :
    gatedFloor total start stop cliff now * ((now : ℤ) - start + 1) ≤
      total * ((now : ℤ) - start) := by
  have helapsed : (0 : ℤ) ≤ (now : ℤ) - start := by omega
  by_cases hc : cliff ≤ now
  · obtain ⟨hle, _⟩ := (eq_gatedFloor_iff hc hs h).mp rfl
    refine le_trans (mul_le_mul_of_nonneg_left ?_ (gatedFloor_nonneg ht start stop cliff now)) hle
    omega
  · rw [gatedFloor_of_gated (by omega), zero_mul]
    exact mul_nonneg ht helapsed

/-- Conversely every amount within that bound is released by some line. -/
theorem exists_gatedFloor_eq {v bound : ℤ} (hv : 0 ≤ v) (hbound : 0 < bound)
    {start cliff closed : ℕ} (hs : start ≤ closed) (hc : cliff ≤ closed)
    (h : v * ((closed : ℤ) - start + 1) ≤ bound * ((closed : ℤ) - start)) :
    ∃ total, 0 < total ∧ total ≤ bound ∧ gatedFloor total start (closed + 1) cliff closed = v := by
  obtain ⟨e, he⟩ : ∃ e : ℤ, e = (closed : ℤ) - start := ⟨_, rfl⟩
  have helapsed : 0 ≤ e := by omega
  rw [← he] at h
  suffices hshare : ∃ total, 0 < total ∧ total ≤ bound ∧ v * (e + 1) ≤ total * e ∧
      total * e < (v + 1) * (e + 1) by
    obtain ⟨total, hpos, hle, hlow, hhigh⟩ := hshare
    refine ⟨total, hpos, hle, ((eq_gatedFloor_iff hc hs (Nat.lt_succ_self closed)).mpr ?_).symm⟩
    have hwidth : ((closed + 1 : ℕ) : ℤ) - start = e + 1 := by omega
    rw [hwidth, ← he]
    exact ⟨hlow, hhigh⟩
  rcases hv.eq_or_lt with rfl | hpos
  · exact ⟨1, one_pos, hbound, by omega, by omega⟩
  · -- the least total whose share reaches `v`
    have hpositive : 0 < e := by
      rcases helapsed.eq_or_lt with hzero | hpositive
      · rw [← hzero] at h
        omega
      · exact hpositive
    have hlow := Int.ediv_mul_le (v * (e + 1) + (e - 1)) hpositive.ne'
    have hhigh := Int.lt_ediv_add_one_mul_self (v * (e + 1) + (e - 1)) hpositive
    generalize (v * (e + 1) + (e - 1)) / e = total at hlow hhigh
    have hreach : v * (e + 1) ≤ total * e := by nlinarith
    refine ⟨total, ?_, ?_, hreach, by nlinarith⟩
    · have hproduct : 0 < total * e := lt_of_lt_of_le (by positivity) hreach
      exact pos_of_mul_pos_left hproduct hpositive.le
    · have hproduct : total * e < (bound + 1) * e := by nlinarith
      exact Int.lt_add_one_iff.mp (lt_of_mul_lt_mul_right hproduct hpositive.le)

/-! ### When an amount is released -/

/-- The first instant at which `amount` units have been released. -/
def gatedDue (total : ℤ) (start stop cliff : ℕ) (amount : ℤ) : ℕ :=
  max cliff (start + ((amount * ((stop : ℤ) - start) + (total - 1)) / total).toNat)

theorem share_le_iff {width elapsed amount : ℤ} (ht : 0 < total) :
    (amount * width + (total - 1)) / total ≤ elapsed ↔ amount * width ≤ total * elapsed := by
  rw [← Int.lt_add_one_iff, Int.ediv_lt_iff_lt_mul ht]
  constructor <;> intro h <;> nlinarith

/-- An amount has been released from its due instant on, and not before. -/
theorem le_gatedFloor_iff {start stop cliff now : ℕ} {amount : ℤ} (hpos : 0 < amount)
    (hle : amount ≤ total) (hs : start < stop) :
    amount ≤ gatedFloor total start stop cliff now ↔
      gatedDue total start stop cliff amount ≤ now := by
  have ht : 0 < total := hpos.trans_le hle
  have hwidth : (0 : ℤ) < (stop : ℤ) - start := by omega
  have hshare : (amount * ((stop : ℤ) - start) + (total - 1)) / total ≤ (stop : ℤ) - start :=
    (share_le_iff ht).mpr (mul_le_mul_of_nonneg_right hle hwidth.le)
  unfold gatedDue
  rcases window_cases start stop cliff now with hg | ⟨hcn, hsn, h⟩ | ⟨hcn, hsn, h⟩
  · rw [gatedFloor_of_gated hg]
    omega
  · rw [gatedFloor_of_stop_le hcn hsn h]
    omega
  · rw [gatedFloor_of_mem hcn hsn h, Int.le_ediv_iff_mul_le hwidth, ← share_le_iff ht]
    omega

/-! ### Splitting a total -/

/-- Two lines release together what one line of their sum releases, or a unit less. -/
theorem gatedFloor_add (a b : ℤ) (start stop cliff now : ℕ) :
    gatedFloor a start stop cliff now + gatedFloor b start stop cliff now ≤
        gatedFloor (a + b) start stop cliff now ∧
      gatedFloor (a + b) start stop cliff now ≤
        gatedFloor a start stop cliff now + gatedFloor b start stop cliff now + 1 := by
  rcases window_cases start stop cliff now with hg | ⟨hc, hs, h⟩ | ⟨hc, hs, h⟩
  · simp only [gatedFloor_of_gated hg]
    omega
  · simp only [gatedFloor_of_stop_le hc hs h]
    omega
  · have hwidth : (0 : ℤ) < (stop : ℤ) - start := by omega
    simp only [gatedFloor_of_mem hc hs h, add_mul]
    generalize a * ((now : ℤ) - start) = x
    generalize b * ((now : ℤ) - start) = y
    have hx := Int.ediv_mul_le x hwidth.ne'
    have hx' := Int.lt_ediv_add_one_mul_self x hwidth
    have hy := Int.ediv_mul_le y hwidth.ne'
    have hy' := Int.lt_ediv_add_one_mul_self y hwidth
    constructor
    · rw [Int.le_ediv_iff_mul_le hwidth]
      linarith
    · rw [← Int.lt_add_one_iff, Int.ediv_lt_iff_lt_mul hwidth]
      linarith

/-- A total split over several lines falls behind by less than one unit for each line. -/
theorem gatedFloor_sum (totals : List ℤ) (start stop cliff now : ℕ) (hne : totals ≠ []) :
    (totals.map fun t => gatedFloor t start stop cliff now).sum ≤
        gatedFloor totals.sum start stop cliff now ∧
      gatedFloor totals.sum start stop cliff now <
        (totals.map fun t => gatedFloor t start stop cliff now).sum + totals.length := by
  induction totals with
  | nil => exact absurd rfl hne
  | cons t totals ih =>
    simp only [List.map_cons, List.sum_cons, List.length_cons]
    rcases eq_or_ne totals [] with rfl | hrest
    · simp
    · obtain ⟨hlow, hhigh⟩ := ih hrest
      obtain ⟨hadd, hadd'⟩ := gatedFloor_add t totals.sum start stop cliff now
      push_cast
      omega

/-- In the end nothing is left behind. -/
theorem gatedFloor_sum_of_stop_le (totals : List ℤ) (start cliff : ℕ) {stop now : ℕ}
    (h : stop ≤ now) : (totals.map fun t => gatedFloor t start stop cliff now).sum =
      gatedFloor totals.sum start stop cliff now := by
  rcases window_cases start stop cliff now with hg | ⟨hc, hs, _⟩ | ⟨_, _, hlt⟩
  · simp only [gatedFloor_of_gated hg, List.map_const', List.sum_replicate, smul_zero]
  · simp only [gatedFloor_of_stop_le hc hs h, List.map_id']
  · omega

theorem gatedFloor_closed (total : ℤ) (start cliff : ℕ) {closed now : ℕ} (h : closed ≤ now) :
    gatedFloor total (min start closed) closed (min cliff closed) now = total :=
  gatedFloor_of_stop_le ((min_le_right _ _).trans h) ((min_le_right _ _).trans h) h

end Floor
