import Mathlib.Tactic

/-!
# Checked machine integers

A signed machine integer is the integer it denotes together with the proof that
it fits its width. Arithmetic computes the exact integer result and traps when
that result does not fit, as compiled code does when overflow checks are on;
casts reduce modulo the width instead and never trap.
-/

namespace Checked

/-- Why a computation was aborted at run time. -/
inductive Trap
  | overflow
  | divideByZero
  | panic (message : String)
  deriving DecidableEq, Repr

@[simp] theorem ok_bind {ε α β : Type} (a : α) (f : α → Except ε β) :
    (Except.ok a >>= f) = f a := rfl

/-- `n` is representable in `bits` bits of two's complement. -/
def Fits (bits : ℕ) (n : ℤ) : Prop := -2 ^ (bits - 1) ≤ n ∧ n < 2 ^ (bits - 1)

instance (bits : ℕ) (n : ℤ) : Decidable (Fits bits n) :=
  inferInstanceAs (Decidable (_ ∧ _))

/-- Signed two's complement integers of a given width. -/
structure Signed (bits : ℕ) where
  toInt : ℤ
  fits : Fits bits toInt
  deriving DecidableEq

abbrev I128 := Signed 128

namespace Signed

variable {bits : ℕ}

@[ext] theorem ext {a b : Signed bits} (h : a.toInt = b.toInt) : a = b := by
  cases a; cases b; cases h; rfl

instance : LE (Signed bits) := ⟨fun a b => a.toInt ≤ b.toInt⟩
instance : LT (Signed bits) := ⟨fun a b => a.toInt < b.toInt⟩
instance (a b : Signed bits) : Decidable (a ≤ b) := inferInstanceAs (Decidable (a.toInt ≤ b.toInt))
instance (a b : Signed bits) : Decidable (a < b) := inferInstanceAs (Decidable (a.toInt < b.toInt))

theorem le_iff {a b : Signed bits} : a ≤ b ↔ a.toInt ≤ b.toInt := Iff.rfl
theorem lt_iff {a b : Signed bits} : a < b ↔ a.toInt < b.toInt := Iff.rfl

theorem zero_fits (bits : ℕ) : Fits bits 0 := by
  have h : (0 : ℤ) < 2 ^ (bits - 1) := by positivity
  exact ⟨by omega, h⟩

instance : Zero (Signed bits) := ⟨⟨0, zero_fits bits⟩⟩

@[simp] theorem toInt_zero : (0 : Signed bits).toInt = 0 := rfl

/-- Keep an exact result that fits; trap on any other. -/
def checked (n : ℤ) : Except Trap (Signed bits) :=
  if h : Fits bits n then .ok ⟨n, h⟩ else .error .overflow

theorem checked_eq_ok_iff {n : ℤ} {c : Signed bits} : checked n = .ok c ↔ c.toInt = n := by
  unfold checked
  constructor
  · intro h
    split_ifs at h with hn
    cases h
    rfl
  · rintro rfl
    rw [dif_pos c.fits]

theorem checked_of_fits {n : ℤ} (h : Fits bits n) : checked n = .ok (⟨n, h⟩ : Signed bits) :=
  checked_eq_ok_iff.mpr rfl

def add (a b : Signed bits) : Except Trap (Signed bits) := checked (a.toInt + b.toInt)
def sub (a b : Signed bits) : Except Trap (Signed bits) := checked (a.toInt - b.toInt)
def mul (a b : Signed bits) : Except Trap (Signed bits) := checked (a.toInt * b.toInt)

/-- Division truncates towards zero. Besides a zero divisor it traps on the one
quotient that does not fit, the least value divided by `-1`. -/
def div (a b : Signed bits) : Except Trap (Signed bits) :=
  if b.toInt = 0 then .error .divideByZero else checked (a.toInt.tdiv b.toInt)

theorem add_eq_ok_iff {a b c : Signed bits} : a.add b = .ok c ↔ c.toInt = a.toInt + b.toInt :=
  checked_eq_ok_iff

theorem sub_eq_ok_iff {a b c : Signed bits} : a.sub b = .ok c ↔ c.toInt = a.toInt - b.toInt :=
  checked_eq_ok_iff

theorem sub_of_fits {a b : Signed bits} (h : Fits bits (a.toInt - b.toInt)) :
    a.sub b = .ok ⟨a.toInt - b.toInt, h⟩ :=
  checked_of_fits h

theorem mul_of_fits {a b : Signed bits} (h : Fits bits (a.toInt * b.toInt)) :
    a.mul b = .ok ⟨a.toInt * b.toInt, h⟩ :=
  checked_of_fits h

theorem div_of_fits {a b : Signed bits} (hb : b.toInt ≠ 0)
    (h : Fits bits (a.toInt.tdiv b.toInt)) :
    a.div b = .ok ⟨a.toInt.tdiv b.toInt, h⟩ := by
  rw [div, if_neg hb]
  exact checked_of_fits h

/-- A product divided at once, as proportional shares are computed. -/
theorem mul_div_of_fits {a b c : Signed bits} (hm : Fits bits (a.toInt * b.toInt))
    (hc : c.toInt ≠ 0) (hd : Fits bits ((a.toInt * b.toInt).tdiv c.toInt)) :
    (a.mul b >>= fun p => p.div c) = .ok ⟨(a.toInt * b.toInt).tdiv c.toInt, hd⟩ := by
  rw [mul_of_fits hm, ok_bind]
  exact div_of_fits hc hd

def max (a b : Signed bits) : Signed bits := if a < b then b else a

theorem toInt_max (a b : Signed bits) : (max a b).toInt = Max.max a.toInt b.toInt := by
  unfold max
  split_ifs with h
  · exact (max_eq_right (le_of_lt (lt_iff.mp h))).symm
  · exact (max_eq_left (not_lt.mp fun hlt => h (lt_iff.mpr hlt))).symm

/-- Clamping asserts that its bounds are in order. -/
def clamp (a lo hi : Signed bits) : Except Trap (Signed bits) :=
  if lo ≤ hi then .ok (if a < lo then lo else if hi < a then hi else a)
  else .error (.panic "assertion failed: min <= max")

theorem clamp_of_mem {a lo hi : Signed bits} (hlo : lo.toInt ≤ a.toInt) (hhi : a.toInt ≤ hi.toInt) :
    a.clamp lo hi = .ok a := by
  have hle : lo ≤ hi := le_iff.mpr (hlo.trans hhi)
  have h₁ : ¬ a < lo := fun h => absurd (lt_iff.mp h) (not_lt.mpr hlo)
  have h₂ : ¬ hi < a := fun h => absurd (lt_iff.mp h) (not_lt.mpr hhi)
  simp [clamp, hle, h₁, h₂]

theorem bmod_fits (bits : ℕ) (n : ℤ) : Fits bits (n.bmod (2 ^ bits)) := by
  cases bits with
  | zero => simp [Fits, Int.bmod_one]
  | succ k =>
    have hpos : 0 < 2 ^ (k + 1) := by positivity
    have hlo := Int.le_bmod (x := n) hpos
    have hhi := Int.bmod_lt (x := n) hpos
    have hpow : (2 : ℤ) ^ (k + 1) = 2 * 2 ^ k := by ring
    push_cast at hlo hhi ⊢
    simp only [Fits, Nat.add_sub_cancel]
    omega

/-- A cast keeps the low bits of its operand. -/
def wrap (n : ℤ) : Signed bits := ⟨n.bmod (2 ^ bits), bmod_fits bits n⟩

def ofUInt64 (x : UInt64) : Signed bits := wrap x.toNat
def ofUInt32 (x : UInt32) : Signed bits := wrap x.toNat

theorem toInt_wrap_of_fits {n : ℤ} (hb : 0 < bits) (h : Fits bits n) :
    (wrap n : Signed bits).toInt = n := by
  obtain ⟨k, rfl⟩ : ∃ k, bits = k + 1 := ⟨bits - 1, by omega⟩
  obtain ⟨hlo, hhi⟩ := h
  have hpow : (2 : ℤ) ^ (k + 1) = 2 * 2 ^ k := by ring
  simp only [Nat.add_sub_cancel] at hlo hhi
  apply Int.bmod_eq_of_le <;> push_cast <;> omega

/-- The fallible conversion to `u32`. -/
def toUInt32? (a : Signed bits) : Option UInt32 :=
  if 0 ≤ a.toInt ∧ a.toInt < 2 ^ 32 then some (UInt32.ofNat a.toInt.toNat) else none

end Signed

@[simp] theorem I128.toInt_ofUInt64 (x : UInt64) : (Signed.ofUInt64 x : I128).toInt = x.toNat := by
  have hx := x.toNat_lt
  have hfits : Fits 128 x.toNat := by
    unfold Fits
    norm_num
    omega
  exact Signed.toInt_wrap_of_fits (by omega) hfits

@[simp] theorem I128.toInt_ofUInt32 (x : UInt32) : (Signed.ofUInt32 x : I128).toInt = x.toNat := by
  have hx := x.toNat_lt
  have hfits : Fits 128 x.toNat := by
    unfold Fits
    norm_num
    omega
  exact Signed.toInt_wrap_of_fits (by omega) hfits

namespace U64

/-- Unsigned subtraction traps below zero. -/
def sub (a b : UInt64) : Except Trap UInt64 :=
  if b ≤ a then .ok (a - b) else .error .overflow

def checkedAdd (a b : UInt64) : Option UInt64 :=
  if a.toNat + b.toNat < 2 ^ 64 then some (a + b) else none

theorem sub_of_le {a b : UInt64} (h : b.toNat ≤ a.toNat) :
    ∃ c, sub a b = .ok c ∧ c.toNat = a.toNat - b.toNat := by
  have hle : b ≤ a := UInt64.le_iff_toNat_le.mpr h
  exact ⟨a - b, by simp [sub, hle], UInt64.toNat_sub_of_le a b hle⟩

theorem checkedAdd_eq_some_iff {a b c : UInt64} :
    checkedAdd a b = some c ↔ c.toNat = a.toNat + b.toNat := by
  unfold checkedAdd
  constructor
  · intro h
    split_ifs at h with hlt
    cases h
    rw [UInt64.toNat_add, Nat.mod_eq_of_lt hlt]
  · intro h
    have hlt : a.toNat + b.toNat < 2 ^ 64 := h ▸ c.toNat_lt
    rw [if_pos hlt, Option.some_inj, ← UInt64.toNat_inj, UInt64.toNat_add, Nat.mod_eq_of_lt hlt, h]

theorem toNat_min (a b : UInt64) : (min a b).toNat = min a.toNat b.toNat := by
  change (if a ≤ b then a else b).toNat = _
  split_ifs with h
  · exact (min_eq_left (UInt64.le_iff_toNat_le.mp h)).symm
  · exact (min_eq_right (le_of_lt (not_le.mp fun hle => h (UInt64.le_iff_toNat_le.mpr hle)))).symm

theorem toNat_max (a b : UInt64) : (max a b).toNat = max a.toNat b.toNat := by
  change (if a ≤ b then b else a).toNat = _
  split_ifs with h
  · exact (max_eq_right (UInt64.le_iff_toNat_le.mp h)).symm
  · exact (max_eq_left (le_of_lt (not_le.mp fun hle => h (UInt64.le_iff_toNat_le.mpr hle)))).symm

end U64
end Checked
