import Mathlib.Data.List.Basic

/-!
# Keeping the newest

A store is cut by listing what is in it, up to a number of entries, sorting the list and
removing its first part.

* `foldl_collect`: a list that is filled until it is full has the first entries.
* `take_mergeSort_le`: what is removed is below everything that is kept.
-/

namespace Retention

variable {α β : Type}

/-- A loop that appends to a list until it has `max` entries. -/
theorem foldl_collect {step : List β → α → List β} (entry : α → Option β) (max : Nat)
    (hstep : ∀ acc a, step acc a =
      match entry a with
      | none => acc
      | some b => if acc.length < max then acc ++ [b] else acc)
    (l : List α) (acc : List β) (hacc : acc.length ≤ max) :
    l.foldl step acc = acc ++ (l.filterMap entry).take (max - acc.length) := by
  induction l generalizing acc with
  | nil => simp
  | cons a l ih =>
    rw [List.foldl_cons, hstep]
    cases ha : entry a with
    | none => rw [ih acc hacc, List.filterMap_cons_none ha]
    | some b =>
      rw [List.filterMap_cons_some ha]
      dsimp only
      split
      · next hroom =>
        obtain ⟨k, hk⟩ : ∃ k, max - acc.length = k + 1 := ⟨max - acc.length - 1, by omega⟩
        have hrest : max - (acc ++ [b]).length = k := by
          rw [List.length_append, List.length_singleton]
          omega
        have hlength : (acc ++ [b]).length ≤ max := by
          rw [List.length_append, List.length_singleton]
          exact hroom
        rw [ih _ hlength, hrest, hk, List.take_succ_cons, List.append_assoc, List.singleton_append]
      · next hfull =>
        have hnone : max - acc.length = 0 := Nat.sub_eq_zero_of_le (Nat.not_lt.mp hfull)
        rw [ih acc hacc, hnone, List.take_zero, List.take_zero]

/-- An element without an entry is missing in the list. -/
theorem length_filterMap_lt {entry : α → Option β} {l : List α} {a : α} (ha : a ∈ l)
    (hnone : entry a = none) : (l.filterMap entry).length < l.length := by
  obtain ⟨before, after, rfl⟩ := List.append_of_mem ha
  have hbefore := List.length_filterMap_le entry before
  have hafter := List.length_filterMap_le entry after
  rw [List.filterMap_append, List.filterMap_cons_none hnone, List.length_append,
    List.length_append, List.length_cons]
  omega

variable {le : α → α → Bool} (htrans : ∀ a b c, le a b = true → le b c = true → le a c = true)
  (htotal : ∀ a b, (le a b || le b a) = true)

include htrans htotal in
/-- The first part of a sorted list is below the rest. -/
theorem take_mergeSort_le (l : List α) (n : Nat) {a b : α} (ha : a ∈ (l.mergeSort le).take n)
    (hb : b ∈ (l.mergeSort le).drop n) : le a b = true := by
  have hsorted := List.pairwise_mergeSort htrans htotal l
  rw [← List.take_append_drop n (l.mergeSort le)] at hsorted
  exact (List.pairwise_append.mp hsorted).2.2 a ha b hb

end Retention
