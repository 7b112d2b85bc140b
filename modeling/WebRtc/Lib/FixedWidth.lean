import Mathlib.Tactic.Positivity
import Mathlib.Tactic.Ring

/-!
# Conversions between integer types of fixed width

An integer of any type is kept as the mathematical integer it denotes. A
conversion to an unsigned type of `w` bits keeps the remainder modulo `2 ^ w`,
a conversion to a signed one the representative in `[-2 ^ (w - 1), 2 ^ (w - 1))`.
-/

namespace FixedWidth

def toUnsigned (w : Nat) (x : Int) : Nat := (x % 2 ^ w).toNat

def toSigned (w : Nat) (x : Int) : Int := x.bmod (2 ^ w)

theorem toUnsigned_natCast (w n : Nat) : toUnsigned w n = n % 2 ^ w := by
  have h : ((n : Int) % 2 ^ w) = ((n % 2 ^ w : Nat) : Int) := by push_cast; rfl
  rw [toUnsigned, h, Int.toNat_natCast]

theorem toUnsigned_of_lt {w n : Nat} (h : n < 2 ^ w) : toUnsigned w n = n := by
  rw [toUnsigned_natCast, Nat.mod_eq_of_lt h]

theorem toSigned_of_lt {w n : Nat} (h : n < 2 ^ w) : toSigned (w + 1) n = n := by
  have hp : (2 : Int) ^ (w + 1) = 2 * 2 ^ w := by ring_nf
  have hn : (n : Int) < 2 ^ w := by exact_mod_cast h
  apply Int.bmod_eq_of_le_mul_two <;> push_cast <;> omega

-- ---------------------------------------------------------------------------
-- When a conversion keeps the value
-- ---------------------------------------------------------------------------

theorem toUnsigned_lt (w : Nat) (x : Int) : (toUnsigned w x : Int) < 2 ^ w := by
  have hpos : (0 : Int) < 2 ^ w := by positivity
  have hlt := Int.emod_lt_of_pos x hpos
  have hnonneg := Int.emod_nonneg x hpos.ne'
  unfold toUnsigned
  omega

theorem toUnsigned_cast (w : Nat) (x : Int) : (toUnsigned w x : Int) = x % 2 ^ w :=
  Int.toNat_of_nonneg (Int.emod_nonneg x (by positivity))

theorem toUnsigned_eq_iff {w : Nat} {x : Int} :
    (toUnsigned w x : Int) = x ↔ 0 ≤ x ∧ x < 2 ^ w := by
  constructor
  · intro h
    exact ⟨h ▸ Int.natCast_nonneg _, h ▸ toUnsigned_lt w x⟩
  · rintro ⟨hnonneg, hlt⟩
    rw [toUnsigned_cast, Int.emod_eq_of_lt hnonneg hlt]

theorem toSigned_bounds (w : Nat) (x : Int) :
    -2 ^ w ≤ toSigned (w + 1) x ∧ toSigned (w + 1) x < 2 ^ w := by
  have hpow : ((2 ^ (w + 1) : Nat) : Int) = 2 * 2 ^ w := by push_cast; ring
  have hpos : 0 < (2 : Nat) ^ (w + 1) := by positivity
  have hlt := Int.bmod_lt (x := x) hpos
  have hle := Int.le_bmod (x := x) hpos
  unfold toSigned
  omega

theorem toSigned_eq_iff {w : Nat} {x : Int} :
    toSigned (w + 1) x = x ↔ -2 ^ w ≤ x ∧ x < 2 ^ w := by
  constructor
  · exact fun h => h ▸ toSigned_bounds w x
  · rintro ⟨hle, hlt⟩
    have hpow : ((2 ^ (w + 1) : Nat) : Int) = 2 * 2 ^ w := by push_cast; ring
    exact Int.bmod_eq_of_le_mul_two (by omega) (by omega)

/-- A narrower unsigned conversion does not see a signed one before it. -/
theorem toUnsigned_toSigned {v w : Nat} (h : v ≤ w) (x : Int) :
    toUnsigned v (toSigned w x) = toUnsigned v x := by
  have hdvd : ((2 : Int) ^ v) ∣ ((2 ^ w : Nat) : Int) := by
    push_cast
    exact pow_dvd_pow 2 h
  unfold toUnsigned toSigned
  rw [← Int.emod_emod_of_dvd _ hdvd, Int.bmod_emod, Int.emod_emod_of_dvd _ hdvd]

theorem toSigned_toUnsigned (w : Nat) (x : Int) : toSigned w (toUnsigned w x) = toSigned w x := by
  have hmod : ((toUnsigned w x : Nat) : Int) = x % ((2 ^ w : Nat) : Int) := by
    rw [toUnsigned_cast]
    push_cast
    rfl
  rw [toSigned, hmod, Int.emod_bmod, toSigned]

theorem toSigned_toSigned (w : Nat) (x : Int) : toSigned w (toSigned w x) = toSigned w x :=
  Int.bmod_bmod

theorem toUnsigned_inj {w : Nat} {x y : Int} :
    toUnsigned w x = toUnsigned w y ↔ x % 2 ^ w = y % 2 ^ w := by
  rw [← toUnsigned_cast, ← toUnsigned_cast, Int.natCast_inj]

theorem toSigned_inj {w : Nat} {x y : Int} :
    toSigned w x = toSigned w y ↔ x % 2 ^ w = y % 2 ^ w := by
  have hcast : ((2 ^ w : Nat) : Int) = 2 ^ w := by push_cast; rfl
  unfold toSigned
  constructor
  · intro h
    rw [← hcast, ← Int.bmod_emod, h, Int.bmod_emod]
  · intro h
    rw [← Int.emod_bmod, ← Int.emod_bmod (x := y), hcast, h]

end FixedWidth
