import Mathlib.Data.Finset.Card

/-!
# A shared pointer

The count behind a `std::shared_ptr`: a weak pointer gives a new owner as long
as there is one, and the last owner that goes destroys the object.
-/

structure SharedPtr where
  strong : Nat := 1
  /-- How often the object has been destroyed. -/
  destroyed : Nat := 0
  deriving DecidableEq, Repr

namespace SharedPtr

variable {ι : Type*} {p q : SharedPtr} {owners : Finset ι}

/-- `lock()` on a weak pointer. -/
def lock (p : SharedPtr) : Option SharedPtr :=
  if 0 < p.strong then some { p with strong := p.strong + 1 } else none

def release (p : SharedPtr) : SharedPtr where
  strong := p.strong - 1
  destroyed := p.destroyed + if p.strong = 1 then 1 else 0

/-- The owners are those the count stands for. -/
structure Owned (owners : Finset ι) (p : SharedPtr) : Prop where
  strong : p.strong = owners.card
  once : p.destroyed = if owners.card = 0 then 1 else 0

theorem owned_new (i : ι) : Owned {i} {} := ⟨rfl, rfl⟩

theorem Owned.strong_pos (ho : Owned owners p) (hi : i ∈ owners) : 0 < p.strong :=
  ho.strong ▸ Finset.card_pos.mpr ⟨i, hi⟩

theorem Owned.empty_of_lock (ho : Owned owners p) (h : p.lock = none) : owners = ∅ := by
  rw [← Finset.card_eq_zero, ← ho.strong]
  unfold lock at h
  split at h
  · cases h
  · omega

theorem Owned.destroyed_iff (ho : Owned owners p) : p.destroyed = 1 ↔ owners = ∅ := by
  rw [ho.once, ← Finset.card_eq_zero]
  split <;> simp_all

theorem Owned.destroyed_le (ho : Owned owners p) : p.destroyed ≤ 1 := by
  rw [ho.once]
  split <;> simp

variable [DecidableEq ι]

theorem Owned.lock (ho : Owned owners p) (h : p.lock = some q) (hi : i ∉ owners) :
    Owned (insert i owners) q := by
  unfold SharedPtr.lock at h
  split at h <;> cases h
  rename_i hpos
  rw [ho.strong] at hpos
  constructor
  · rw [Finset.card_insert_of_notMem hi, ho.strong]
  · rw [Finset.card_insert_of_notMem hi, ho.once, if_neg hpos.ne', if_neg (Nat.succ_ne_zero _)]

theorem Owned.release (ho : Owned owners p) (hi : i ∈ owners) :
    Owned (owners.erase i) p.release := by
  have hcard : (owners.erase i).card = owners.card - 1 := Finset.card_erase_of_mem hi
  have hpos : 0 < owners.card := Finset.card_pos.mpr ⟨i, hi⟩
  constructor
  · rw [hcard, SharedPtr.release, ho.strong]
  · rw [hcard, SharedPtr.release, ho.once, ho.strong, if_neg hpos.ne', Nat.zero_add]
    exact if_congr (by omega) rfl rfl

end SharedPtr
