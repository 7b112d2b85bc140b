import Mathlib.Data.List.Basic

/-!
# Sums over a list one of whose elements changes

Reference counts are sums: each holder adds what it holds. The lemmas say what
happens to such a sum when one element of the list is changed, without
subtraction.
-/

namespace ListSum

variable {α : Type*}

theorem mem_modify {l : List α} (h : b ∈ l.modify i f) :
    b ∈ l ∨ ∃ a, l[i]? = some a ∧ b = f a := by
  obtain ⟨j, hj⟩ := List.mem_iff_getElem?.mp h
  rw [List.getElem?_modify] at hj
  obtain ⟨a, ha, hb⟩ := Option.map_eq_some_iff.mp hj
  split at hb
  · rename_i hij; exact .inr ⟨a, hij ▸ ha, hb.symm⟩
  · exact .inl (List.mem_iff_getElem?.mpr ⟨j, hb ▸ ha⟩)

theorem getElem?_snoc {l : List α} {j : Nat} (h : (l ++ [a])[j]? = some b) :
    l[j]? = some b ∨ (j = l.length ∧ b = a) := by
  rcases Nat.lt_or_ge j l.length with hlt | hge
  · exact .inl ((List.getElem?_append_left hlt).symm.trans h)
  · rw [List.getElem?_append_right hge, List.getElem?_singleton] at h
    split at h
    · cases h
      exact .inr ⟨by omega, rfl⟩
    · cases h

def total (g : α → Nat) : List α → Nat
  | [] => 0
  | a :: l => g a + total g l

variable {g : α → Nat} {l : List α}

@[simp] theorem total_nil : total g [] = 0 := rfl

@[simp] theorem total_cons : total g (a :: l) = g a + total g l := rfl

@[simp] theorem total_append : total g (l ++ k) = total g l + total g k := by
  induction l with
  | nil => simp
  | cons a l ih => simp [ih, Nat.add_assoc]

theorem total_modify (f : α → α) (h : l[i]? = some a) :
    total g (l.modify i f) + g a = total g l + g (f a) := by
  induction l generalizing i with
  | nil => simp at h
  | cons b l ih =>
    cases i with
    | zero =>
      simp only [List.getElem?_cons_zero, Option.some.injEq] at h
      subst h
      simp only [List.modify_zero_cons, total_cons]
      omega
    | succ i =>
      have hi := ih (by simpa using h)
      simp only [List.modify_succ_cons, total_cons]
      omega

theorem total_modify_of_eq (f : α → α) (h : ∀ a, g (f a) = g a) (i : Nat) :
    total g (l.modify i f) = total g l := by
  induction l generalizing i with
  | nil => simp
  | cons b l ih => cases i <;> simp [h, ih]

theorem total_pos_iff : 0 < total g l ↔ ∃ a ∈ l, 0 < g a := by
  induction l with
  | nil => simp
  | cons b l ih => simp only [total_cons, List.mem_cons, exists_eq_or_imp, ← ih]; omega

theorem total_eq_zero_iff : total g l = 0 ↔ ∀ a ∈ l, g a = 0 := by
  induction l with
  | nil => simp
  | cons b l ih => simp [ih]

theorem le_total (h : a ∈ l) : g a ≤ total g l := by
  induction l with
  | nil => cases h
  | cons b l ih =>
    rcases List.mem_cons.mp h with rfl | h
    · simp
    · exact Nat.le_trans (ih h) (by simp)

end ListSum
