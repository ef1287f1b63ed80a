import Mathlib.Data.List.Basic
import Mathlib.Data.List.Induction
import Mathlib.Data.Nat.ModEq

/-!
# Ring buffers

A fixed array `slots` used as a ring. `Holds slots head l` says that the ring holds
the list `l`: element `i` of `l` is in slot `(head + i) % slots.length`. What is in
the other slots does not matter.

The lemmas give the list after each move of an index and each store: at the back,
at the front, in the middle, and dropping from the front. Nothing is said about
a separate tail index: it is `(head + l.length) % slots.length`.
-/

namespace Ring

variable {α : Type}

/-- The slot of element `i` of a ring of `n` slots. -/
def slot (n head i : Nat) : Nat := (head + i) % n

/-- The ring holds the list `l` from `head` on. -/
structure Holds (slots : List α) (head : Nat) (l : List α) : Prop where
  head_lt : head < slots.length
  length_le : l.length ≤ slots.length
  get : ∀ i x, l[i]? = some x → slots[slot slots.length head i]? = some x

variable {slots l : List α} {n head i j : Nat} {x : α}

theorem slot_lt (h : 0 < n) : slot n head i < n := Nat.mod_lt _ h

theorem slot_zero (h : head < n) : slot n head 0 = head := Nat.mod_eq_of_lt h

/-- Slots of one round are distinct. -/
theorem slot_inj (hi : i < n) (hj : j < n) (h : slot n head i = slot n head j) : i = j := by
  have hmod : head + i ≡ head + j [MOD n] := h
  have := Nat.ModEq.add_left_cancel' head hmod
  exact Nat.ModEq.eq_of_lt_of_lt this hi hj

theorem slot_slot (k : Nat) : slot n (slot n head k) i = slot n head (k + i) := by
  simp [slot, Nat.add_assoc]

/-- One step after the slot before the head is the head. -/
theorem slot_pred (h : 0 < n) : slot n (slot n head (n - 1)) (i + 1) = slot n head i := by
  rw [slot_slot, show n - 1 + (i + 1) = i + n by omega]
  simp [slot, ← Nat.add_assoc]

theorem holds_nil (h : head < slots.length) : Holds slots head [] :=
  ⟨h, Nat.zero_le _, fun i x hx => by simp at hx⟩

/-- The front of the list is in the head slot. -/
theorem Holds.front (h : Holds slots head (x :: l)) : slots[head]? = some x := by
  have hx := h.get 0 x rfl
  rwa [slot_zero h.head_lt] at hx

/-- Moving the head forwards drops elements from the front. -/
theorem Holds.drop (h : Holds slots head l) (k : Nat) :
    Holds slots (slot slots.length head k) (l.drop k) := by
  have hpos : 0 < slots.length := Nat.lt_of_le_of_lt (Nat.zero_le _) h.head_lt
  refine ⟨slot_lt hpos, ?_, fun i x hx => ?_⟩
  · rw [List.length_drop]
    exact Nat.le_trans (Nat.sub_le _ _) h.length_le
  · rw [List.getElem?_drop] at hx
    rw [slot_slot]
    exact h.get _ x hx

/-- Storing into a slot of the list replaces that element. -/
theorem Holds.set (h : Holds slots head l) (hi : i < l.length) (x : α) :
    Holds (slots.set (slot slots.length head i) x) head (l.set i x) := by
  have hpos : 0 < slots.length := Nat.lt_of_le_of_lt (Nat.zero_le _) h.head_lt
  refine ⟨by simpa using h.head_lt, by simpa using h.length_le, fun j y hy => ?_⟩
  rw [List.length_set]
  rw [List.getElem?_set] at hy
  have hn := h.length_le
  split at hy
  · next hij =>
    subst hij
    rw [List.getElem?_set_self (slot_lt hpos)]
    exact hy
  · next hij =>
    have hj : j < l.length := (List.getElem?_eq_some_iff.mp hy).1
    have hne : slot slots.length head i ≠ slot slots.length head j :=
      fun he => hij (slot_inj (by omega) (by omega) he)
    rw [List.getElem?_set_ne hne]
    exact h.get j y hy

/-- An element of `l ++ [x]` is one of `l` or the last one. -/
theorem getElem?_concat {y : α} (h : (l ++ [x])[i]? = some y) :
    i < l.length ∧ l[i]? = some y ∨ i = l.length ∧ y = x := by
  rcases Nat.lt_trichotomy i l.length with hi | rfl | hi
  · rw [List.getElem?_append_left hi] at h
    exact .inl ⟨hi, h⟩
  · rw [List.getElem?_append_right (Nat.le_refl _), Nat.sub_self] at h
    cases h
    exact .inr ⟨rfl, rfl⟩
  · rw [List.getElem?_eq_none (by simp; omega)] at h
    cases h

/-- Storing into the slot after the last element appends it. -/
theorem Holds.pushBack (h : Holds slots head l) (hroom : l.length < slots.length) (x : α) :
    Holds (slots.set (slot slots.length head l.length) x) head (l ++ [x]) := by
  have hpos : 0 < slots.length := Nat.lt_of_le_of_lt (Nat.zero_le _) h.head_lt
  refine ⟨by simpa using h.head_lt, by simpa using Nat.succ_le_of_lt hroom, fun j y hy => ?_⟩
  rw [List.length_set]
  rcases getElem?_concat hy with ⟨hj, hy⟩ | ⟨rfl, rfl⟩
  · have hne : slot slots.length head l.length ≠ slot slots.length head j := fun he => by
      have := slot_inj hroom (by omega) he
      omega
    rw [List.getElem?_set_ne hne]
    exact h.get j y hy
  · exact List.getElem?_set_self (slot_lt hpos)

/-- Moving the head back by one slot and storing there adds an element at the front. -/
theorem Holds.pushFront (h : Holds slots head l) (hroom : l.length < slots.length) (x : α) :
    Holds (slots.set (slot slots.length head (slots.length - 1)) x)
      (slot slots.length head (slots.length - 1)) (x :: l) := by
  have hpos : 0 < slots.length := Nat.lt_of_le_of_lt (Nat.zero_le _) h.head_lt
  refine ⟨by simpa using slot_lt hpos, by simpa using Nat.succ_le_of_lt hroom, fun j y hy => ?_⟩
  rw [List.length_set]
  cases j with
  | zero =>
    simp only [List.getElem?_cons_zero] at hy
    rw [slot_zero (slot_lt hpos), List.getElem?_set_self (slot_lt hpos), hy]
  | succ j =>
    simp only [List.getElem?_cons_succ] at hy
    have hj : j < l.length := (List.getElem?_eq_some_iff.mp hy).1
    have hne : slot slots.length head (slots.length - 1) ≠ slot slots.length head j := fun he => by
      have := slot_inj (by omega) (by omega) he
      omega
    rw [slot_pred hpos, List.getElem?_set_ne hne]
    exact h.get j y hy

theorem filterMap_range_getElem? (l : List α) :
    (List.range l.length).filterMap (fun i => l[i]?) = l := by
  induction l using List.reverseRecOn with
  | nil => rfl
  | append_singleton l x ih =>
    rw [List.length_append, List.length_singleton, List.range_succ, List.filterMap_append]
    congr 1
    · refine Eq.trans (List.filterMap_congr fun i hi => ?_) ih
      exact List.getElem?_append_left (List.mem_range.mp hi)
    · simp

theorem Holds.getElem? (h : Holds slots head l) (hi : i < l.length) :
    slots[slot slots.length head i]? = l[i]? := by
  have hx : l[i]? = some l[i] := List.getElem?_eq_getElem hi
  rw [hx]
  exact h.get i _ hx

/-- Reading the slots in order gives the list. -/
theorem Holds.read (h : Holds slots head l) :
    (List.range l.length).filterMap (fun i => slots[slot slots.length head i]?) = l := by
  refine Eq.trans (List.filterMap_congr fun i hi => ?_) (filterMap_range_getElem? l)
  exact h.getElem? (List.mem_range.mp hi)

/-- Searching the slots in order searches the list. -/
theorem Holds.find (h : Holds slots head l) (p : α → Bool) :
    (List.range l.length).find? (fun i => slots[slot slots.length head i]?.any p) =
      l.findIdx? p := by
  ext i
  rw [List.find?_range_eq_some, List.findIdx?_eq_some_iff_getElem]
  constructor
  · rintro ⟨hp, hi, hbefore⟩
    have hlt := List.mem_range.mp hi
    rw [h.getElem? hlt, List.getElem?_eq_getElem hlt] at hp
    refine ⟨hlt, hp, fun j hj => ?_⟩
    have hjlt : j < l.length := Nat.lt_trans hj hlt
    have hnot := hbefore j hj
    rw [h.getElem? hjlt, List.getElem?_eq_getElem hjlt] at hnot
    simpa using hnot
  · rintro ⟨hlt, hp, hbefore⟩
    rw [h.getElem? hlt, List.getElem?_eq_getElem hlt]
    refine ⟨hp, List.mem_range.mpr hlt, fun j hj => ?_⟩
    have hjlt : j < l.length := Nat.lt_trans hj hlt
    rw [h.getElem? hjlt, List.getElem?_eq_getElem hjlt]
    simpa using hbefore j hj

/-! ## Log rings

An array that is written round and round keeps the end of a log: element `i` of the log
is in slot `i % slots.length`, as long as it has not been overwritten. -/

/-- The ring keeps the last elements of the log `l`. -/
structure Logs (slots l : List α) : Prop where
  pos : 0 < slots.length
  get : ∀ i x, l.length ≤ i + slots.length → l[i]? = some x → slots[i % slots.length]? = some x

theorem logs_nil (h : 0 < slots.length) : Logs slots [] :=
  ⟨h, fun i x _ hx => by simp at hx⟩

theorem mod_ne_of_lt_of_lt {m : Nat} (hi : i < m) (hm : m < i + n) : i % n ≠ m % n := by
  intro heq
  have hdvd : n ∣ m - i := (Nat.modEq_iff_dvd' (Nat.le_of_lt hi)).mp heq
  have hle := Nat.le_of_dvd (Nat.sub_pos_of_lt hi) hdvd
  omega

theorem Logs.push (h : Logs slots l) (x : α) :
    Logs (slots.set (l.length % slots.length) x) (l ++ [x]) := by
  refine ⟨by rw [List.length_set]; exact h.pos, fun i y hrange hy => ?_⟩
  rw [List.length_set] at hrange ⊢
  rw [List.length_append, List.length_singleton] at hrange
  rcases getElem?_concat hy with ⟨hi, hy⟩ | ⟨rfl, rfl⟩
  · rw [List.getElem?_set_ne (mod_ne_of_lt_of_lt hi (by omega)).symm]
    exact h.get i y (by omega) hy
  · exact List.getElem?_set_self (Nat.mod_lt _ h.pos)

/-- Reading the last `k` slots before the next one gives the last `k` elements of the log. -/
theorem Logs.read (h : Logs slots l) {k : Nat} (hk : k ≤ l.length) (hslots : k ≤ slots.length) :
    (List.range k).filterMap (fun i =>
      slots[((l.length % slots.length + slots.length - k) % slots.length + i) %
        slots.length]?) = l.drop (l.length - k) := by
  have hlength : (l.drop (l.length - k)).length = k := by
    rw [List.length_drop]
    omega
  rw [← filterMap_range_getElem? (l.drop (l.length - k)), hlength]
  refine List.filterMap_congr fun i hi => ?_
  have hi := List.mem_range.mp hi
  -- the slot of element `l.length - k + i`
  have hslot : ((l.length % slots.length + slots.length - k) % slots.length + i) % slots.length =
      (l.length - k + i) % slots.length := by
    have hmod : l.length % slots.length + slots.length - k ≡ l.length - k [MOD slots.length] := by
      refine Nat.ModEq.add_right_cancel' k ?_
      rw [Nat.sub_add_cancel (Nat.le_add_left_of_le hslots), Nat.sub_add_cancel hk]
      exact (Nat.add_mod_right _ _).trans (Nat.mod_mod _ _)
    rw [Nat.mod_add_mod]
    exact hmod.add_right i
  have hx : l[l.length - k + i]? = some (l[l.length - k + i]) :=
    List.getElem?_eq_getElem (by omega)
  rw [hslot, List.getElem?_drop, hx]
  exact h.get _ _ (by omega) hx

end Ring
