import Mathlib.Data.List.Nodup

/-!
# Records found by a key

An array of records that is searched from the front for the first record with a
given key. `findKey` is that search; `modifyKey` is an update through the pointer
the search returned. An update that keeps the key commutes with every search, so
a record keeps its place for good. `modifyAll` is a loop of such updates: each record
meets, in order, the ones that name it.
-/

namespace Keyed

variable {α κ : Type} [DecidableEq κ] (key : α → κ)

/-- The first record with key `k`. -/
def findKey (k : κ) (l : List α) : Option α :=
  l.find? fun x => decide (key x = k)

/-- The position of the first record with key `k`. -/
def keyIndex (k : κ) (l : List α) : Option Nat :=
  l.findIdx? fun x => decide (key x = k)

/-- Apply `f` to the first record with key `k`. -/
def modifyKey (k : κ) (f : α → α) : List α → List α
  | [] => []
  | x :: l => if key x = k then f x :: l else x :: modifyKey k f l

/-- One update for each element of `ws`, in order: `g w` on the first record with key
`name w`. -/
def modifyAll {ω : Type} (name : ω → κ) (g : ω → α → α) (ws : List ω) (l : List α) : List α :=
  ws.foldl (fun l w => modifyKey key (name w) (g w) l) l

variable {key} {k : κ} {f : α → α} {l : List α}

@[simp] theorem findKey_nil : findKey key k ([] : List α) = none := rfl

theorem findKey_cons (x : α) :
    findKey key k (x :: l) = if key x = k then some x else findKey key k l := by
  by_cases h : key x = k <;> simp [findKey, List.find?, h]

theorem findKey_some {x : α} (h : findKey key k l = some x) : key x = k := by
  simpa using List.find?_some h

theorem findKey_mem {x : α} (h : findKey key k l = some x) : x ∈ l :=
  List.mem_of_find?_eq_some h

/-- With distinct keys, the search returns any record that has the key. -/
theorem findKey_eq_of_mem {x : α} (hn : (l.map key).Nodup) (hx : x ∈ l) :
    findKey key (key x) l = some x := by
  induction l with
  | nil => cases hx
  | cons y l ih =>
    rw [List.map_cons, List.nodup_cons] at hn
    rw [findKey_cons]
    rcases List.mem_cons.mp hx with rfl | hx
    · rw [if_pos rfl]
    · have hne : key y ≠ key x := fun he => hn.1 (he ▸ List.mem_map_of_mem hx)
      rw [if_neg hne]
      exact ih hn.2 hx

omit [DecidableEq κ] in
/-- With distinct keys, a record stands between records with other keys. -/
theorem split_of_mem {x : α} (hn : (l.map key).Nodup) (hx : x ∈ l) :
    ∃ front back, l = front ++ x :: back ∧ ∀ y ∈ front ++ back, key y ≠ key x := by
  obtain ⟨front, back, rfl⟩ := List.append_of_mem hx
  refine ⟨front, back, rfl, fun y hy heq => ?_⟩
  rw [List.map_append, List.map_cons, List.nodup_middle, List.nodup_cons, ← List.map_append] at hn
  exact hn.1 (heq ▸ List.mem_map_of_mem hy)

theorem findKey_eq_some_iff {x : α} (hn : (l.map key).Nodup) :
    findKey key k l = some x ↔ x ∈ l ∧ key x = k := by
  constructor
  · intro h
    exact ⟨findKey_mem h, findKey_some h⟩
  · rintro ⟨hx, rfl⟩
    exact findKey_eq_of_mem hn hx

/-- With distinct keys, the order of the records does not matter. -/
theorem findKey_perm {l' : List α} (hn : (l.map key).Nodup) (h : l.Perm l') :
    findKey key k l = findKey key k l' := by
  ext x
  rw [findKey_eq_some_iff hn, findKey_eq_some_iff ((h.map key).nodup_iff.mp hn), h.mem_iff]

theorem findKey_filter_ne {k' : κ} (hne : k' ≠ k) (l : List α) :
    findKey key k' (l.filter fun x => decide (key x ≠ k)) = findKey key k' l := by
  induction l with
  | nil => rfl
  | cons x l ih =>
    by_cases hx : key x = k
    · rw [List.filter_cons_of_neg (by simpa using hx), findKey_cons, ih,
        if_neg (fun h => hne (h.symm.trans hx))]
    · rw [List.filter_cons_of_pos (by simpa using hx), findKey_cons, findKey_cons, ih]

/-- A list in which `x` has taken the place of the records with its key. -/
theorem findKey_replace {l' : List α} {x : α} (hn : (l'.map key).Nodup)
    (h : l'.Perm (x :: l.filter fun y => decide (key y ≠ k))) (hk : key x = k) (k' : κ) :
    findKey key k' l' = if k' = k then some x else findKey key k' l := by
  rw [findKey_perm hn h, findKey_cons, hk]
  by_cases hkk : k' = k
  · rw [if_pos hkk.symm, if_pos hkk]
  · rw [if_neg (Ne.symm hkk), if_neg hkk, findKey_filter_ne hkk]

theorem keyIndex_cons (x : α) :
    keyIndex key k (x :: l) = if key x = k then some 0 else (keyIndex key k l).map (· + 1) := by
  by_cases h : key x = k <;> simp [keyIndex, List.findIdx?_cons, h]

theorem findKey_eq_getElem? : findKey key k l = (keyIndex key k l).bind fun i => l[i]? := by
  induction l with
  | nil => rfl
  | cons x l ih =>
    rw [findKey_cons, keyIndex_cons]
    split
    · rfl
    · rw [ih, Option.bind_map]
      rfl

/-- The position depends on the keys alone. -/
theorem keyIndex_congr {l' : List α} (h : l'.map key = l.map key) (k : κ) :
    keyIndex key k l' = keyIndex key k l := by
  have hmap : ∀ l : List α, keyIndex key k l = (l.map key).findIdx? fun a => decide (a = k) := by
    intro l
    rw [List.findIdx?_map]
    rfl
  rw [hmap, hmap, h]

/-- With distinct keys, an update is an update of every record with the key. -/
theorem modifyKey_eq_map (hn : (l.map key).Nodup) :
    modifyKey key k f l = l.map fun x => if key x = k then f x else x := by
  induction l with
  | nil => rfl
  | cons x l ih =>
    rw [List.map_cons, List.nodup_cons] at hn
    rw [modifyKey, List.map_cons]
    split
    · next hx =>
      have hrest : (l.map fun y => if key y = k then f y else y) = l := by
        refine (List.map_congr_left fun y hy => ?_).trans (List.map_id l)
        refine if_neg fun hyk => hn.1 ?_
        rw [hx, ← hyk]
        exact List.mem_map_of_mem hy
      rw [hrest]
    · rw [ih hn.2]

/-- Without a record of the key, the same update changes nothing. -/
theorem map_of_findKey_none (h : findKey key k l = none) :
    (l.map fun x => if key x = k then f x else x) = l := by
  refine (List.map_congr_left fun x hx => ?_).trans (List.map_id _)
  have hne := List.find?_eq_none.mp h x hx
  exact if_neg (by simpa using hne)

/-- With distinct keys, the position is where the keys have it. -/
theorem keyIndex_eq_some_iff (hn : (l.map key).Nodup) {i : Nat} :
    keyIndex key k l = some i ↔ (l.map key)[i]? = some k := by
  induction l generalizing i with
  | nil => simp [keyIndex]
  | cons x l ih =>
    rw [List.map_cons, List.nodup_cons] at hn
    rw [keyIndex_cons, List.map_cons]
    by_cases hx : key x = k
    · rw [if_pos hx]
      cases i with
      | zero => simp [hx]
      | succ i =>
        have hnot : (l.map key)[i]? ≠ some k := fun h => hn.1 (hx ▸ List.mem_of_getElem? h)
        simpa using hnot
    · rw [if_neg hx]
      cases i with
      | zero => simp [hx]
      | succ i => simpa using ih hn.2

/-- An update seen from any position. -/
theorem getElem?_modifyKey (i : Nat) :
    (modifyKey key k f l)[i]? = if keyIndex key k l = some i then l[i]?.map f else l[i]? := by
  induction l generalizing i with
  | nil => simp [modifyKey]
  | cons x l ih =>
    rw [keyIndex_cons]
    unfold modifyKey
    by_cases hx : key x = k
    · rw [if_pos hx, if_pos hx]
      cases i <;> simp
    · rw [if_neg hx, if_neg hx]
      cases i with
      | zero => simp
      | succ i => simp [ih]

section modify

variable (hf : ∀ x, key (f x) = key x)
include hf

@[simp] theorem map_key_modifyKey : (modifyKey key k f l).map key = l.map key := by
  induction l with
  | nil => rfl
  | cons x l ih =>
    unfold modifyKey
    split
    · simp [hf]
    · simp [ih]

/-- Two updates of one record. -/
theorem modifyKey_modifyKey (g : α → α) :
    modifyKey key k g (modifyKey key k f l) = modifyKey key k (fun x => g (f x)) l := by
  induction l with
  | nil => rfl
  | cons x l ih =>
    rw [modifyKey, modifyKey]
    split
    · next hx => rw [modifyKey, if_pos ((hf x).trans hx)]
    · next hx => rw [modifyKey, if_neg hx, ih]

/-- An update of a record that a filter drops before and after it. -/
theorem filter_modifyKey {p : α → Bool} (h : ∀ x, key x = k → p x = false) :
    (modifyKey key k f l).filter p = l.filter p := by
  induction l with
  | nil => rfl
  | cons x l ih =>
    rw [modifyKey]
    split
    · next hx =>
      have hdropped : ¬p (f x) = true := Bool.not_eq_true _ ▸ h (f x) ((hf x).trans hx)
      rw [List.filter_cons_of_neg hdropped, List.filter_cons_of_neg (by rw [h x hx]; decide)]
    · rw [List.filter_cons, List.filter_cons, ih]

theorem findKey_modifyKey_self :
    findKey key k (modifyKey key k f l) = (findKey key k l).map f := by
  induction l with
  | nil => rfl
  | cons x l ih =>
    unfold modifyKey
    by_cases hx : key x = k
    · rw [if_pos hx, findKey_cons, findKey_cons, if_pos hx, if_pos ((hf x).trans hx)]
      rfl
    · rw [if_neg hx, findKey_cons, findKey_cons, if_neg hx, if_neg hx]
      exact ih

theorem findKey_modifyKey_ne {k' : κ} (hne : k' ≠ k) :
    findKey key k' (modifyKey key k f l) = findKey key k' l := by
  induction l with
  | nil => rfl
  | cons x l ih =>
    unfold modifyKey
    by_cases hx : key x = k
    · have hx' : key x ≠ k' := fun h => hne (h.symm.trans hx)
      rw [if_pos hx, findKey_cons, findKey_cons, if_neg hx', if_neg ((hf x).symm ▸ hx')]
    · rw [if_neg hx, findKey_cons, findKey_cons, ih]

/-- An update seen from any key. -/
theorem findKey_modifyKey (k' : κ) :
    findKey key k' (modifyKey key k f l) =
      if k' = k then (findKey key k' l).map f else findKey key k' l := by
  by_cases h : k' = k
  · subst h
    rw [if_pos rfl, findKey_modifyKey_self hf]
  · rw [if_neg h, findKey_modifyKey_ne hf h]

/-- With distinct keys, the records after an update. -/
theorem mem_modifyKey (hn : (l.map key).Nodup) {y : α} :
    y ∈ modifyKey key k f l ↔
      (∃ x, findKey key k l = some x ∧ y = f x) ∨ (y ∈ l ∧ key y ≠ k) := by
  have hn' : ((modifyKey key k f l).map key).Nodup := by rwa [map_key_modifyKey hf]
  have hfind : y ∈ modifyKey key k f l ↔ findKey key (key y) (modifyKey key k f l) = some y := by
    rw [findKey_eq_some_iff hn', and_iff_left rfl]
  rw [hfind, findKey_modifyKey hf]
  split
  · next hk =>
    simp only [hk, ne_eq, not_true_eq_false, and_false, or_false, Option.map_eq_some_iff, eq_comm]
  · next hk =>
    rw [findKey_eq_some_iff hn, and_iff_left rfl, and_iff_left hk]
    refine ⟨.inr, fun h => h.resolve_left ?_⟩
    rintro ⟨x, hx, rfl⟩
    exact hk ((hf x).trans (findKey_some hx))

theorem keyIndex_modifyKey (k' : κ) :
    keyIndex key k' (modifyKey key k f l) = keyIndex key k' l :=
  keyIndex_congr (map_key_modifyKey hf) k'

end modify

/-! ## Several updates in order -/

section modifyAll

variable {ω : Type} {name : ω → κ} {g : ω → α → α} (hg : ∀ w x, key (g w x) = key x)
include hg

/-- A record meets the updates that name it, in their order. -/
theorem getElem?_modifyAll (ws : List ω) (i : Nat) :
    (modifyAll key name g ws l)[i]? =
      l[i]?.map fun x =>
        (ws.filter fun w => decide (keyIndex key (name w) l = some i)).foldl
          (fun x w => g w x) x := by
  induction ws generalizing l with
  | nil =>
    show l[i]? = l[i]?.map id
    rw [Option.map_id_apply]
  | cons w ws ih =>
    -- the first update moves no record, so the rest still names the same positions
    show (modifyAll key name g ws (modifyKey key (name w) (g w) l))[i]? = _
    rw [ih, getElem?_modifyKey]
    simp only [keyIndex_modifyKey (hg w)]
    by_cases hw : keyIndex key (name w) l = some i
    · rw [if_pos hw, List.filter_cons_of_pos (by simpa using hw), Option.map_map]
      rfl
    · rw [if_neg hw, List.filter_cons_of_neg (by simpa using hw)]

theorem getElem?_modifyAll_of_unnamed {ws : List ω} {i : Nat}
    (h : ∀ w ∈ ws, keyIndex key (name w) l ≠ some i) : (modifyAll key name g ws l)[i]? = l[i]? := by
  have hnil : (ws.filter fun w => decide (keyIndex key (name w) l = some i)) = [] := by
    simpa using h
  rw [getElem?_modifyAll hg, hnil]
  exact Option.map_id_apply

/-- Updates that each overwrite what an earlier one did: a record keeps the work of the
last one that names it. -/
theorem getElem?_modifyAll_of_last (hover : ∀ v w x, g w (g v x) = g w x) {ws : List ω} {i : Nat}
    {w : ω} (h : (ws.filter fun w => decide (keyIndex key (name w) l = some i)).getLast? = some w) :
    (modifyAll key name g ws l)[i]? = l[i]?.map (g w) := by
  have hfold : ∀ (vs : List ω) (x : α), g w (vs.foldl (fun x w => g w x) x) = g w x := by
    intro vs
    induction vs with
    | nil => exact fun _ => rfl
    | cons v vs ih => exact fun x => (ih (g v x)).trans (hover v w x)
  obtain ⟨front, hfront⟩ := List.getLast?_eq_some_iff.mp h
  rw [getElem?_modifyAll hg, hfront]
  simp only [List.foldl_append, List.foldl_cons, List.foldl_nil, hfold]

end modifyAll

end Keyed
