import Iec104Slave.Lib.Ring
import Mathlib.Data.List.Forall2

/-!
# Greedy batches

A sender cuts a list into consecutive batches: it opens a batch with the next element
and takes on as many elements as fit. Whether an element fits depends on the first
element of the batch and on the index that it would have there.
-/

namespace Batch

variable {α : Type} {fits : α → Nat → α → Bool}

/-- The batches of `cur ++ l`, of which `cur` is the open batch, with `first` at its head. -/
def grow (fits : α → Nat → α → Bool) : α → List α → List α → List (List α)
  | _, cur, [] => [cur]
  | first, cur, y :: ys =>
    if fits first cur.length y then grow fits first (cur ++ [y]) ys
    else cur :: grow fits y [y] ys

def batches (fits : α → Nat → α → Bool) : List α → List (List α)
  | [] => []
  | x :: xs => grow fits x [x] xs

/-- Every element but the first fits at its index. -/
structure IsBatch (fits : α → Nat → α → Bool) (first : α) (batch : List α) : Prop where
  head : batch[0]? = some first
  rest : ∀ k y, batch[k + 1]? = some y → fits first (k + 1) y = true

namespace IsBatch

variable {first : α} {batch : List α}

theorem singleton (x : α) : IsBatch fits x [x] where
  head := rfl
  rest := by simp

theorem pos (h : IsBatch fits first batch) : 0 < batch.length :=
  (List.getElem?_eq_some_iff.mp h.head).1

theorem push (h : IsBatch fits first batch) {y : α} (hy : fits first batch.length y = true) :
    IsBatch fits first (batch ++ [y]) where
  head := by rw [List.getElem?_append_left h.pos, h.head]
  rest := by
    intro k z hz
    rcases Ring.getElem?_concat hz with ⟨_, hz⟩ | ⟨hk, rfl⟩
    · exact h.rest k z hz
    · rw [hk]
      exact hy

/-- A limit on the index is a limit on the length. -/
theorem length_le (h : IsBatch fits first batch) {n : Nat} (hn : 0 < n)
    (hlimit : ∀ k y, fits first k y = true → k < n) : batch.length ≤ n := by
  cases hlen : batch.length with
  | zero => exact Nat.zero_le n
  | succ m =>
    cases m with
    | zero => exact hn
    | succ m =>
      have hlast : m + 1 < batch.length := by rw [hlen]; exact Nat.lt_succ_self _
      exact hlimit _ _ (h.rest m _ (List.getElem?_eq_getElem hlast))

/-- What holds of the first element and of all that fit beside it holds of the batch. -/
theorem forall_mem (h : IsBatch fits first batch) {p : α → Prop} (hfirst : p first)
    (hfits : ∀ k y, fits first k y = true → p y) : ∀ y ∈ batch, p y := by
  intro y hy
  obtain ⟨k, hk⟩ := List.mem_iff_getElem?.mp hy
  cases k with
  | zero =>
    rw [h.head, Option.some.injEq] at hk
    exact hk ▸ hfirst
  | succ k => exact hfits _ y (h.rest k y hk)

end IsBatch

theorem flatten_grow (first : α) (cur l : List α) :
    (grow fits first cur l).flatten = cur ++ l := by
  induction l generalizing first cur with
  | nil => simp [grow]
  | cons y ys ih =>
    rw [grow]
    split
    · rw [ih, List.append_assoc, List.singleton_append]
    · rw [List.flatten_cons, ih, List.singleton_append]

/-- The batches, one after the other, are the list. -/
theorem flatten_batches (l : List α) : (batches fits l).flatten = l := by
  cases l with
  | nil => rfl
  | cons x xs => exact flatten_grow x [x] xs

section Related

variable {β : Type} {fits' : β → Nat → β → Bool} {R : α → β → Prop}

theorem grow_forall₂
    (hfits : ∀ x x' k y y', R x x' → R y y' → fits x k y = fits' x' k y') {first : α} {first' : β}
    (hfirst : R first first') {cur l : List α} {cur' l' : List β} (hcur : List.Forall₂ R cur cur')
    (hl : List.Forall₂ R l l') :
    List.Forall₂ (List.Forall₂ R) (grow fits first cur l) (grow fits' first' cur' l') := by
  induction hl generalizing first first' cur cur' with
  | nil => exact .cons hcur .nil
  | cons hy _ ih =>
    rw [grow, grow, hcur.length_eq, hfits _ _ _ _ _ hfirst hy]
    split
    · exact ih hfirst (List.rel_append hcur (.cons hy .nil))
    · exact .cons hcur (ih hy (.cons hy .nil))

/-- Lists of related elements are cut in the same places. -/
theorem batches_forall₂
    (hfits : ∀ x x' k y y', R x x' → R y y' → fits x k y = fits' x' k y') {l : List α}
    {l' : List β} (hl : List.Forall₂ R l l') :
    List.Forall₂ (List.Forall₂ R) (batches fits l) (batches fits' l') := by
  cases hl with
  | nil => exact .nil
  | cons hx hxs => exact grow_forall₂ hfits hx (.cons hx .nil) hxs

end Related

theorem isBatch_grow {first : α} {cur l : List α} (h : IsBatch fits first cur) :
    ∀ batch ∈ grow fits first cur l, ∃ x, IsBatch fits x batch := by
  induction l generalizing first cur with
  | nil =>
    intro batch hb
    rw [grow, List.mem_singleton] at hb
    exact ⟨first, hb ▸ h⟩
  | cons y ys ih =>
    intro batch hb
    rw [grow] at hb
    split at hb
    · next hy => exact ih (h.push hy) batch hb
    · rcases List.mem_cons.mp hb with rfl | hb
      · exact ⟨first, h⟩
      · exact ih (.singleton y) batch hb

theorem isBatch_of_mem {l : List α} : ∀ batch ∈ batches fits l, ∃ x, IsBatch fits x batch := by
  cases l with
  | nil => simp [batches]
  | cons x xs => exact isBatch_grow (.singleton x)

end Batch
