import TricklePay.Library.Checked

/-!
# Clock readings moved by a constant

Adding one constant to several unsigned readings changes neither their order nor
their distances, as long as there is room for it in the type.
-/

namespace Checked.U64

/-- The reading `delta` later. -/
def shift (delta t : UInt64) : UInt64 := t + delta

/-- The type has room for the reading `delta` later. -/
def Room (delta t : UInt64) : Prop := t.toNat + delta.toNat < 2 ^ 64

instance (delta t : UInt64) : Decidable (Room delta t) := inferInstanceAs (Decidable (_ < _))

variable {delta s t : UInt64}

theorem Room.toNat_shift (h : Room delta t) : (shift delta t).toNat = t.toNat + delta.toNat := by
  rw [shift, UInt64.toNat_add, Nat.mod_eq_of_lt h]

theorem Room.min (hs : Room delta s) (ht : Room delta t) : Room delta (min s t) := by
  unfold Room at *
  rw [toNat_min]
  omega

theorem shift_le_shift_iff (hs : Room delta s) (ht : Room delta t) :
    shift delta s ≤ shift delta t ↔ s ≤ t := by
  rw [UInt64.le_iff_toNat_le, UInt64.le_iff_toNat_le, hs.toNat_shift, ht.toNat_shift]
  omega

theorem shift_lt_shift_iff (hs : Room delta s) (ht : Room delta t) :
    shift delta s < shift delta t ↔ s < t := by
  rw [UInt64.lt_iff_toNat_lt, UInt64.lt_iff_toNat_lt, hs.toNat_shift, ht.toNat_shift]
  omega

theorem shift_min (hs : Room delta s) (ht : Room delta t) :
    shift delta (min s t) = min (shift delta s) (shift delta t) := by
  rw [← UInt64.toNat_inj, (hs.min ht).toNat_shift, toNat_min, toNat_min, hs.toNat_shift,
    ht.toNat_shift]
  omega

/-- Distances stay what they are, and so do traps. -/
theorem sub_shift (hs : Room delta s) (ht : Room delta t) :
    sub (shift delta s) (shift delta t) = sub s t := by
  unfold sub
  by_cases h : t ≤ s
  · have h' := (shift_le_shift_iff ht hs).mpr h
    rw [if_pos h, if_pos h', Except.ok.injEq, ← UInt64.toNat_inj, UInt64.toNat_sub_of_le _ _ h',
      UInt64.toNat_sub_of_le _ _ h, hs.toNat_shift, ht.toNat_shift]
    omega
  · rw [if_neg h, if_neg fun h' => h ((shift_le_shift_iff ht hs).mp h')]

end Checked.U64
