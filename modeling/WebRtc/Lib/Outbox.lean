import Mathlib.Data.Finset.Basic
import Mathlib.Data.Finset.Range
import Mathlib.Data.Multiset.Bind

/-!
# An outbox

Entries are added at the end, and each is taken once, in any order. `rest` are
those that have not been taken yet.
-/

namespace Outbox

variable {α : Type*} {entries : List α} {taken : Finset Nat}

def rest (entries : List α) (taken : Finset Nat) : Multiset α :=
  (Finset.range entries.length \ taken).val.filterMap (entries[·]?)

@[simp] theorem rest_nil : rest ([] : List α) taken = 0 := by simp [rest]

theorem mem_rest : a ∈ rest entries taken ↔ ∃ i, i ∉ taken ∧ entries[i]? = some a := by
  simp only [rest, Multiset.mem_filterMap, Finset.mem_val, Finset.mem_sdiff, Finset.mem_range]
  refine exists_congr fun i => and_congr_left fun hi => and_iff_right ?_
  exact (List.getElem?_eq_some_iff.mp hi).1

theorem rest_append (h : ∀ i ∈ taken, i < entries.length) (a : α) :
    rest (entries ++ [a]) taken = a ::ₘ rest entries taken := by
  have hnew : entries.length ∉ Finset.range entries.length \ taken := by simp
  have hrange : Finset.range (entries ++ [a]).length \ taken =
      Finset.cons entries.length (Finset.range entries.length \ taken) hnew := by
    have hlast : entries.length ∉ taken := fun hmem => (h _ hmem).false
    rw [List.length_append, List.length_singleton, Finset.range_add_one,
      Finset.insert_sdiff_of_notMem _ hlast, Finset.cons_eq_insert]
  rw [rest, hrange, Finset.cons_val, Multiset.filterMap_cons_some (a := entries.length) (b := a)]
  · congr 1
    rw [rest, Multiset.filterMap_eq_bind, Multiset.filterMap_eq_bind]
    refine Multiset.bind_congr fun i hi => ?_
    have hlt : i < entries.length := Finset.mem_range.mp (Finset.mem_sdiff.mp hi).1
    rw [List.getElem?_append_left hlt]
  · exact List.getElem?_concat_length

theorem rest_take (ha : entries[i]? = some a) (h : i ∉ taken) :
    rest entries taken = a ::ₘ rest entries (insert i taken) := by
  have hlt : i < entries.length := (List.getElem?_eq_some_iff.mp ha).1
  have hmem : i ∈ (Finset.range entries.length \ taken).val :=
    Finset.mem_sdiff.mpr ⟨Finset.mem_range.mpr hlt, h⟩
  rw [rest, ← Multiset.cons_erase hmem, Multiset.filterMap_cons_some (a := i) (b := a)]
  · rw [rest, Finset.sdiff_insert, Finset.erase_val]
  · exact ha

end Outbox
