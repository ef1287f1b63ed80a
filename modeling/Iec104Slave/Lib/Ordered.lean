import Mathlib.Data.List.Sort
import Mathlib.Data.Prod.Lex

/-!
# Rows in the order of a key

A table is a list of rows with distinct keys, and a query gives its rows in the order of the
keys. A reader that can only ask for a limited number of rows asks for the first
page, and then again and again for the rows behind the last one it has got; it stops at
a page that is not full.

* `collect_all`: if the reader takes the pages to be as long as they are, it gets every row once.
* `collect_short`: if it waits for longer pages than it can get, it stops after the first one.

A table that is cut to its greatest rows from time to time never needs a row again that it has
lost:

* `Covers.trim`: cutting a table that covers all rows leaves the greatest of all rows.

Two readers ask for the first rows that they accept, one in the order of the list and the other
in the order of a time:

* `take_inOrder_iff`: when both get the same rows.
-/

namespace Ordered

variable {α κ : Type} [LinearOrder κ] {key : α → κ} {l xs ys : List α} {last : α}

/-- The rows by increasing key. -/
def inOrder (key : α → κ) (l : List α) : List α :=
  l.insertionSort fun a b => key a ≤ key b

/-- Every row has a smaller key than the rows behind it. -/
def Increasing (key : α → κ) (l : List α) : Prop :=
  l.Pairwise fun a b => key a < key b

theorem inOrder_perm : (inOrder key l).Perm l :=
  List.perm_insertionSort _ l

theorem increasing_inOrder (h : (l.map key).Nodup) : Increasing key (inOrder key l) := by
  have hle : (inOrder key l).Pairwise fun a b => key a ≤ key b := by
    have : Std.Total fun a b : α => key a ≤ key b := ⟨fun a b => le_total (key a) (key b)⟩
    have : IsTrans α fun a b => key a ≤ key b := ⟨fun _ _ _ => le_trans⟩
    exact List.pairwise_insertionSort _ l
  have hne : (inOrder key l).Pairwise fun a b => key a ≠ key b :=
    List.pairwise_map.mp ((inOrder_perm.map key).nodup_iff.mpr h)
  exact hle.imp₂ (fun _ _ => lt_of_le_of_ne) hne

theorem Increasing.nodup (h : Increasing key l) : l.Nodup := by
  refine List.Pairwise.imp ?_ h
  intro a b hlt heq
  rw [heq] at hlt
  exact lt_irrefl _ hlt

theorem Increasing.filter (h : Increasing key l) (p : α → Bool) :
    Increasing key (l.filter p) :=
  List.Pairwise.filter p h

/-- No row is above the last one. -/
theorem Increasing.le_last (h : Increasing key l) (hlast : l.getLast? = some last) :
    ∀ a ∈ l, key a ≤ key last := by
  intro a ha
  obtain ⟨front, rfl⟩ := List.getLast?_eq_some_iff.mp hlast
  rcases List.mem_append.mp ha with ha | ha
  · exact ((List.pairwise_append.mp h).2.2 a ha last (List.mem_singleton.mpr rfl)).le
  · rw [List.mem_singleton.mp ha]

/-- The rows behind the last row of a prefix are the rest. -/
theorem Increasing.behind (h : Increasing key (xs ++ ys)) (hlast : xs.getLast? = some last) :
    (xs ++ ys).filter (fun a => key last < key a) = ys := by
  obtain ⟨hxs, _, hcross⟩ := List.pairwise_append.mp h
  have hmem := List.mem_of_getLast? hlast
  have hfront : xs.filter (fun a => key last < key a) = [] := by
    rw [List.filter_eq_nil_iff]
    intro a ha
    simpa using Increasing.le_last hxs hlast a ha
  have hback : ys.filter (fun a => key last < key a) = ys := by
    rw [List.filter_eq_self]
    intro a ha
    simpa using hcross last hmem a ha
  rw [List.filter_append, hfront, hback, List.nil_append]

/-! ## Reading page by page -/

/-- The first `limit` rows of `l` with a key above the cursor. -/
def page (key : α → κ) (l : List α) (limit : Nat) (cursor : κ) : List α :=
  (l.filter fun a => cursor < key a).take limit

/-- The reader: `full` is the length of the pages it expects, `first` the page it has. -/
def collect (key : α → κ) (full : Nat) (next : κ → List α) : Nat → List α → Option (List α)
  | 0, _ => none
  | fuel + 1, first =>
    match first.getLast? with
    | none => some []
    | some last =>
      if first.length < full then some first
      else (collect key full next fuel (next (key last))).map (first ++ ·)

theorem page_start {cursor : κ} (limit : Nat) (h : ∀ a ∈ l, cursor < key a) :
    page key l limit cursor = l.take limit := by
  rw [page, List.filter_eq_self.mpr]
  simpa using h

/-- Reading from any point on gives all rows from there on. -/
theorem collect_from (limit : Nat) (hpos : 0 < limit) (hinc : Increasing key (xs ++ ys))
    {fuel : Nat} (hfuel : ys.length < fuel) :
    collect key limit (page key (xs ++ ys) limit) fuel (ys.take limit) = some ys := by
  induction fuel generalizing xs ys with
  | zero => exact absurd hfuel (Nat.not_lt_zero _)
  | succ fuel ih =>
    rw [collect]
    split
    · next hnone =>
      have hnil : ys.take limit = [] := List.getLast?_eq_none_iff.mp hnone
      have hlen := congrArg List.length hnil
      rw [List.length_take, List.length_nil] at hlen
      have : ys = [] := List.length_eq_zero_iff.mp (by omega)
      rw [this]
    · next last hlast =>
      split
      · next hshort =>
        rw [List.length_take] at hshort
        rw [List.take_of_length_le (by omega)]
      · next hfull =>
        rw [List.length_take] at hfull
        have hsplit : xs ++ ys.take limit ++ ys.drop limit = xs ++ ys := by
          rw [List.append_assoc, List.take_append_drop]
        have hlast' : (xs ++ ys.take limit).getLast? = some last := by
          rw [List.getLast?_append, hlast, Option.some_or]
        rw [← hsplit] at hinc ⊢
        have hnext : page key (xs ++ ys.take limit ++ ys.drop limit) limit (key last) =
            (ys.drop limit).take limit := by
          rw [page, hinc.behind hlast']
        rw [hnext, ih hinc (by rw [List.length_drop]; omega), Option.map_some,
          List.take_append_drop]

/-- The reader gets every row once. -/
theorem collect_all {limit : Nat} (hpos : 0 < limit) (hinc : Increasing key l) {fuel : Nat}
    (hfuel : l.length < fuel) :
    collect key limit (page key l limit) fuel (l.take limit) = some l := by
  show collect key limit (page key ([] ++ l) limit) fuel (l.take limit) = some l
  exact collect_from limit hpos hinc hfuel

omit [LinearOrder κ] in
/-- A reader that expects longer pages than it gets stops after the first one. -/
theorem collect_short {full limit : Nat} (h : limit < full) (next : κ → List α) {fuel : Nat}
    (hfuel : 0 < fuel) :
    collect key full next fuel (l.take limit) = some (l.take limit) := by
  obtain ⟨fuel, rfl⟩ := Nat.exists_eq_succ_of_ne_zero (Nat.ne_of_gt hfuel)
  rw [collect]
  split
  · next hnone => rw [List.getLast?_eq_none_iff.mp hnone]
  · rw [if_pos]
    rw [List.length_take]
    exact Nat.lt_of_le_of_lt (Nat.min_le_left _ _) h

/-! ## Keeping the greatest rows -/

/-- The `k` rows with the greatest keys, the greatest one first. -/
def greatest (key : α → κ) (k : Nat) (l : List α) : List α :=
  (inOrder (fun a => OrderDual.toDual (key a)) l).take k

/-- `kept` are the `k` rows of `all` with the greatest keys, or all rows if there are fewer. -/
structure Greatest (key : α → κ) (k : Nat) (all kept : List α) : Prop where
  nodup : kept.Nodup
  subset : kept ⊆ all
  length : kept.length = min k all.length
  above : ∀ a ∈ kept, ∀ b ∈ all, b ∉ kept → key b < key a

/-- Every row of `all` that is not in `kept` is below `k` rows of `kept`. -/
structure Covers (key : α → κ) (k : Nat) (all kept : List α) : Prop where
  all_nodup : all.Nodup
  nodup : kept.Nodup
  subset : kept ⊆ all
  lost : ∀ b ∈ all, b ∉ kept → k ≤ (kept.filter fun a => key b < key a).length

variable {k : Nat} {all kept kept' : List α}

theorem greatest_spec (k : Nat) (h : (l.map key).Nodup) :
    Greatest key k l (greatest key k l) := by
  have hdual : (l.map fun a => OrderDual.toDual (key a)).Nodup := by
    have hmap := h.map OrderDual.toDual.injective
    rwa [List.map_map] at hmap
  have hinc := increasing_inOrder hdual
  have hperm : (inOrder (fun a => OrderDual.toDual (key a)) l).Perm l := inOrder_perm
  refine ⟨hinc.nodup.sublist (List.take_sublist _ _), ?_, ?_, ?_⟩
  · intro a ha
    exact hperm.mem_iff.mp (List.mem_of_mem_take ha)
  · rw [greatest, List.length_take, hperm.length_eq]
  · intro a ha b hb hnot
    rw [Increasing, ← List.take_append_drop k (inOrder _ l)] at hinc
    have hmem := hperm.mem_iff.mpr hb
    rw [← List.take_append_drop k (inOrder _ l)] at hmem
    have hdrop := (List.mem_append.mp hmem).resolve_left hnot
    exact OrderDual.toDual_lt_toDual.mp ((List.pairwise_append.mp hinc).2.2 a ha b hdrop)

theorem Greatest.of_perm (h : Greatest key k all kept) (hperm : kept.Perm kept') :
    Greatest key k all kept' where
  nodup := hperm.nodup_iff.mp h.nodup
  subset := fun _ ha => h.subset (hperm.mem_iff.mpr ha)
  length := hperm.length_eq.symm.trans h.length
  above := fun a ha b hb hnot =>
    h.above a (hperm.mem_iff.mpr ha) b hb fun hmem => hnot (hperm.mem_iff.mp hmem)

theorem covers_nil : Covers key k [] [] :=
  ⟨List.nodup_nil, List.nodup_nil, List.Subset.refl _, fun _ hb => by cases hb⟩

/-- A new row can only make it harder for the lost ones. -/
theorem Covers.insert (h : Covers key k all kept) {new : α} (hnew : new ∉ all) :
    Covers key k (all ++ [new]) (kept ++ [new]) where
  all_nodup := by simpa [List.nodup_append] using ⟨h.all_nodup, fun a ha heq => hnew (heq ▸ ha)⟩
  nodup := by
    simpa [List.nodup_append] using ⟨h.nodup, fun a ha heq => hnew (heq ▸ h.subset ha)⟩
  subset := fun a ha => by
    rcases List.mem_append.mp ha with ha | ha
    · exact List.mem_append_left _ (h.subset ha)
    · exact List.mem_append_right _ ha
  lost := fun b hb hnot => by
    rw [List.mem_append, not_or] at hnot
    have hold := (List.mem_append.mp hb).resolve_right hnot.2
    rw [List.filter_append, List.length_append]
    exact Nat.le_add_right_of_le (h.lost b hold hnot.1)

/-- The greatest rows of a covering table are the greatest of all rows. -/
theorem Covers.trim (h : Covers key k all kept) (hg : Greatest key k kept kept') :
    Greatest key k all kept' where
  nodup := hg.nodup
  subset := fun a ha => h.subset (hg.subset ha)
  length := by
    have hle := (List.subperm_of_subset h.nodup h.subset).length_le
    rcases Nat.lt_or_ge kept.length k with hlt | hge
    · -- too few rows to cover a lost one, so none was lost
      have hall : all ⊆ kept := by
        intro b hb
        by_contra hnot
        have hcover := Nat.le_trans (h.lost b hb hnot) (List.length_filter_le _ _)
        exact absurd hlt (Nat.not_lt.mpr hcover)
      have hge := (List.subperm_of_subset h.all_nodup hall).length_le
      rw [hg.length, Nat.le_antisymm hle hge]
    · rw [hg.length, Nat.min_eq_left hge, Nat.min_eq_left (Nat.le_trans hge hle)]
  above := fun a ha b hb hnot => by
    classical
    by_cases hkept : b ∈ kept
    · exact hg.above a ha b hkept hnot
    · -- otherwise the rows above the lost one would be kept besides `a`, too many
      by_contra hbelow
      have hsub : kept.filter (fun c => key b < key c) ⊆ kept'.erase a := by
        intro c hc
        obtain ⟨hc, hlt⟩ := List.mem_filter.mp hc
        have hlt : key b < key c := by simpa using hlt
        have hne : c ≠ a := fun heq => hbelow (heq ▸ hlt)
        rw [List.mem_erase_of_ne hne]
        by_contra hcut
        exact hbelow (lt_trans hlt (hg.above a ha c hc hcut))
      have hle := (List.subperm_of_subset (h.nodup.filter _) hsub).length_le
      have hk : kept'.length ≤ k := hg.length ▸ Nat.min_le_left _ _
      have hpos := List.length_pos_of_mem ha
      rw [List.length_erase_of_mem ha] at hle
      have hcover := h.lost b hb hkept
      omega

theorem Greatest.covers (h : Greatest key k all kept) (hall : all.Nodup) :
    Covers key k all kept where
  all_nodup := hall
  nodup := h.nodup
  subset := h.subset
  lost := fun b hb hnot => by
    have hfilter : kept.filter (fun a => key b < key a) = kept := by
      rw [List.filter_eq_self]
      intro a ha
      simpa using h.above a ha b hb hnot
    have hmore : kept.length + 1 ≤ all.length := by
      refine (List.subperm_of_subset (List.nodup_cons.mpr ⟨hnot, h.nodup⟩) ?_).length_le
      exact List.cons_subset.mpr ⟨hb, h.subset⟩
    rw [hfilter]
    have hlength := h.length
    omega

/-- A table that covers no more rows than it may keep has lost none. -/
theorem Covers.perm (h : Covers key k all kept) (hlen : all.length ≤ k) : kept.Perm all := by
  refine (List.perm_ext_iff_of_nodup h.nodup h.all_nodup).mpr fun b => ⟨fun hb => h.subset hb, ?_⟩
  intro hb
  by_contra hnot
  have hcover := Nat.le_trans (h.lost b hb hnot) (List.length_filter_le _ _)
  have hmore : kept.length + 1 ≤ all.length :=
    (List.subperm_of_subset (List.nodup_cons.mpr ⟨hnot, h.nodup⟩)
      (List.cons_subset.mpr ⟨hb, h.subset⟩)).length_le
  omega

/-! ## The first rows in two orders -/

theorem Increasing.keys_nodup (h : Increasing key l) : (l.map key).Nodup :=
  List.pairwise_map.mpr (h.imp fun hlt => hlt.ne)

/-- A list by increasing key is determined by its rows. -/
theorem inOrder_eq (h : Increasing key xs) (hperm : xs.Perm l) : inOrder key l = xs := by
  have hsorted := increasing_inOrder ((hperm.map key).nodup_iff.mp h.keys_nodup)
  refine List.Perm.eq_of_pairwise ?_ hsorted h (inOrder_perm.trans hperm.symm)
  intro a b _ _ hab hba
  exact absurd (lt_trans hab hba) (lt_irrefl _)

/-- A map that keeps the order of the keys. -/
theorem map_inOrder {β κ' : Type} [LinearOrder κ'] (key' : β → κ') {f : α → β}
    (h : ∀ a ∈ l, ∀ b ∈ l, key a ≤ key b ↔ key' (f a) ≤ key' (f b)) :
    (inOrder key l).map f = inOrder key' (l.map f) :=
  List.map_insertionSort (fun a b => key a ≤ key b) (fun a b => key' a ≤ key' b) f l h

theorem inOrder_congr {key' : α → κ} (h : ∀ a ∈ l, key a = key' a) :
    inOrder key l = inOrder key' l := by
  have hle : ∀ a ∈ l, ∀ b ∈ l, key a ≤ key b ↔ key' (id a) ≤ key' (id b) :=
    fun a ha b hb => by rw [h a ha, h b hb]; rfl
  have hmap := map_inOrder key' hle
  rwa [List.map_id, List.map_id] at hmap

theorem filter_inOrder (h : (l.map key).Nodup) (p : α → Bool) :
    (inOrder key l).filter p = inOrder key (l.filter p) :=
  (inOrder_eq ((increasing_inOrder h).filter p) (inOrder_perm.filter p)).symm

section Positions

variable {β τ : Type} [LinearOrder τ] {t : β → τ} {p q : β → Bool} {values : List β}

/-- The order by time, and by position among equal times. -/
def posKey (t : β → τ) (a : β × Nat) : τ ×ₗ Nat := toLex (t a.1, a.2)

/-- The first `k` values that `p` accepts, with their positions. -/
def picked (p : β → Bool) (k : Nat) (values : List β) : List (β × Nat) :=
  (values.zipIdx.filter fun a => p a.1).take k

/-- The first `k` values that `p` accepts are also the first `k` in time that `q` accepts: `q`
accepts them, they are in the order of the time, no other value that `q` accepts is earlier
than one of them, and if they are fewer than `k` then `q` accepts no other value. -/
structure SameFirst (t : β → τ) (p q : β → Bool) (k : Nat) (values : List β) : Prop where
  accepted : ∀ a ∈ picked p k values, q a.1 = true
  sorted : (picked p k values).Pairwise fun a b => t a.1 ≤ t b.1
  first : ∀ a ∈ picked p k values, ∀ b ∈ values.zipIdx, q b.1 = true → b ∉ picked p k values →
    t a.1 ≤ t b.1
  complete : (picked p k values).length < k → ∀ b ∈ values.zipIdx, q b.1 = true →
    b ∈ picked p k values

omit [LinearOrder τ] in
theorem increasing_zipIdx (values : List β) : Increasing Prod.snd values.zipIdx := by
  refine List.pairwise_iff_getElem.mpr fun i j hi hj hij => ?_
  simpa using hij

theorem map_fst_picked (p : β → Bool) (k : Nat) (values : List β) :
    (picked p k values).map Prod.fst = (values.filter p).take k := by
  have hfilter : (values.zipIdx.filter fun a => p a.1).map Prod.fst = values.filter p := by
    rw [show (fun a : β × Nat => p a.1) = p ∘ Prod.fst from rfl, ← List.filter_map,
      List.zipIdx_map_fst]
  rw [picked, List.map_take, hfilter]

theorem posKey_lt {a b : β × Nat} (ht : t a.1 ≤ t b.1) (hpos : t a.1 = t b.1 → a.2 < b.2) :
    posKey t a < posKey t b := by
  refine Prod.Lex.toLex_lt_toLex.mpr ?_
  rcases lt_or_eq_of_le ht with hlt | heq
  · exact .inl hlt
  · exact .inr ⟨heq, hpos heq⟩

theorem le_of_posKey_lt {a b : β × Nat} (h : posKey t a < posKey t b) : t a.1 ≤ t b.1 := by
  rcases Prod.Lex.toLex_lt_toLex.mp h with hlt | heq
  · exact hlt.le
  · exact heq.1.le

omit [LinearOrder τ] in
theorem nodup_posKey {l : List (β × Nat)} (h : l.Sublist values.zipIdx) :
    (l.map (posKey t)).Nodup := by
  have hpos : (l.map Prod.snd).Nodup :=
    ((increasing_zipIdx values).sublist h).imp (fun hlt => hlt.ne) |> List.pairwise_map.mpr
  refine List.Nodup.of_map (fun a : τ ×ₗ Nat => (ofLex a).2) ?_
  rw [List.map_map]
  exact hpos

/-- If both readers accept the same values, the first ones of the list come first in time iff
none of them is followed by an earlier one. -/
theorem sameFirst_iff_of_eq (h : ∀ v ∈ values, q v = p v) :
    SameFirst t p q k values ↔
      ∀ a ∈ picked p k values, ∀ b ∈ values.zipIdx, p b.1 = true → a.2 < b.2 → t a.1 ≤ t b.1 := by
  have hpq : ∀ b ∈ values.zipIdx, q b.1 = p b.1 := fun b hb => h b.1 (List.fst_mem_of_mem_zipIdx hb)
  have hpos : Increasing Prod.snd (values.zipIdx.filter fun a => p a.1) :=
    (increasing_zipIdx values).filter _
  rw [Increasing, ← List.take_append_drop k (values.zipIdx.filter _),
    List.pairwise_append] at hpos
  have hpicked : ∀ a ∈ picked p k values, a ∈ values.zipIdx ∧ p a.1 = true :=
    fun a ha => List.mem_filter.mp (List.mem_of_mem_take ha)
  constructor
  · intro hsame a ha b hb hp hlt
    by_cases hmem : b ∈ picked p k values
    · have hboth := hsame.sorted.and hpos.1
      obtain ⟨i, hi, rfl⟩ := List.getElem_of_mem ha
      obtain ⟨j, hj, rfl⟩ := List.getElem_of_mem hmem
      rcases Nat.lt_trichotomy i j with hij | rfl | hji
      · exact (List.pairwise_iff_getElem.mp hboth i j hi hj hij).1
      · exact le_rfl
      · exact absurd hlt (List.pairwise_iff_getElem.mp hboth j i hj hi hji).2.asymm
    · exact hsame.first a ha b hb ((hpq b hb).trans hp) hmem
  · intro hafter
    refine ⟨?_, ?_, ?_, ?_⟩
    · intro a ha
      rw [hpq a (hpicked a ha).1, (hpicked a ha).2]
    · refine List.Pairwise.imp_of_mem ?_ hpos.1
      intro a b ha hb hlt
      exact hafter a ha b (hpicked b hb).1 (hpicked b hb).2 hlt
    · intro a ha b hb hq hnot
      rw [hpq b hb] at hq
      have hmem : b ∈ values.zipIdx.filter fun a => p a.1 := List.mem_filter.mpr ⟨hb, hq⟩
      rw [← List.take_append_drop k (values.zipIdx.filter _)] at hmem
      exact hafter a ha b hb hq (hpos.2.2 a ha b ((List.mem_append.mp hmem).resolve_left hnot))
    · intro hshort b hb hq
      rw [picked, List.length_take] at hshort
      rw [picked, List.take_of_length_le (by omega)]
      exact List.mem_filter.mpr ⟨hb, (hpq b hb).symm.trans hq⟩

/-- The other values that `q` accepts. -/
theorem perm_picked (haccepted : ∀ a ∈ picked p k values, q a.1 = true) :
    ∃ rest, (values.zipIdx.filter fun a => q a.1).Perm (picked p k values ++ rest) ∧
      rest.Sublist values.zipIdx ∧
      ∀ b, b ∈ rest ↔ b ∈ values.zipIdx ∧ q b.1 = true ∧ b ∉ picked p k values := by
  classical
  have hnodup : values.zipIdx.Nodup := (increasing_zipIdx values).nodup
  have hpicked : (picked p k values).Sublist values.zipIdx :=
    (List.take_sublist _ _).trans List.filter_sublist
  refine ⟨(values.zipIdx.filter fun a => q a.1).filter (· ∉ picked p k values), ?_,
    List.filter_sublist.trans List.filter_sublist, fun b => ?_⟩
  · refine (List.perm_ext_iff_of_nodup (hnodup.filter _) ?_).mpr fun b => ?_
    · refine List.nodup_append.mpr ⟨hnodup.sublist hpicked, (hnodup.filter _).filter _, ?_⟩
      intro a ha b hb hab
      have hnot := (List.mem_filter.mp hb).2
      rw [← hab] at hnot
      simp [ha] at hnot
    · simp only [List.mem_append, List.mem_filter, decide_eq_true_eq]
      constructor
      · intro hb
        by_cases hpick : b ∈ picked p k values
        · exact .inl hpick
        · exact .inr ⟨hb, hpick⟩
      · rintro (hb | hb)
        · exact ⟨hpicked.subset hb, haccepted b hb⟩
        · exact hb.1
  · simp only [List.mem_filter, decide_eq_true_eq, and_assoc]

/-- The picked values come first in time, so the reader in the order of the time gets them. -/
theorem SameFirst.take_inOrder (h : SameFirst t p q k values)
    (hp : ∀ a b, t a = t b → p a = p b) :
    (inOrder (posKey t) (values.zipIdx.filter fun a => q a.1)).take k = picked p k values := by
  obtain ⟨rest, hperm, hsub, hrest⟩ := perm_picked h.accepted
  have hpos : Increasing Prod.snd (values.zipIdx.filter fun a => p a.1) :=
    (increasing_zipIdx values).filter _
  rw [Increasing, ← List.take_append_drop k (values.zipIdx.filter _),
    List.pairwise_append] at hpos
  have hinc : Increasing (posKey t) (picked p k values ++ inOrder (posKey t) rest) := by
    refine List.pairwise_append.mpr ⟨?_, increasing_inOrder (nodup_posKey hsub), ?_⟩
    · exact h.sorted.imp₂ (fun _ _ hle hlt => posKey_lt hle fun _ => hlt) hpos.1
    · intro a ha b hb
      obtain ⟨hmem, hq, hnot⟩ := (hrest b).mp (inOrder_perm.mem_iff.mp hb)
      refine posKey_lt (h.first a ha b hmem hq hnot) fun heq => ?_
      -- a value of the same time is accepted by `p` as well, so it stands behind the picked ones
      have hpa : p a.1 = true := (List.mem_filter.mp (List.mem_of_mem_take ha)).2
      have hb : b ∈ values.zipIdx.filter fun a => p a.1 :=
        List.mem_filter.mpr ⟨hmem, (hp _ _ heq).symm.trans hpa⟩
      rw [← List.take_append_drop k (values.zipIdx.filter _)] at hb
      exact hpos.2.2 a ha b ((List.mem_append.mp hb).resolve_left hnot)
  rw [inOrder_eq hinc ((inOrder_perm.append_left _).trans hperm.symm)]
  rcases Nat.lt_or_ge (picked p k values).length k with hshort | hfull
  · have hnil : rest = [] := by
      refine List.eq_nil_iff_forall_not_mem.mpr fun b hb => ?_
      obtain ⟨hmem, hq, hnot⟩ := (hrest b).mp hb
      exact hnot (h.complete hshort b hmem hq)
    rw [hnil, inOrder, List.insertionSort_nil, List.append_nil,
      List.take_of_length_le hshort.le]
  · have hlength : (picked p k values).length = k := by
      refine Nat.le_antisymm ?_ hfull
      rw [picked, List.length_take]
      exact Nat.min_le_left _ _
    rw [List.take_append_of_le_length hlength.ge, List.take_of_length_le hlength.le]

/-- If both readers get the same values, the picked ones come first in time. -/
theorem sameFirst_of_take_eq (heq : (picked p k values).map Prod.fst =
      ((inOrder (posKey t) (values.zipIdx.filter fun a => q a.1)).take k).map Prod.fst) :
    SameFirst t p q k values := by
  have hsub : (values.zipIdx.filter fun a => q a.1).Sublist values.zipIdx := List.filter_sublist
  have hinc := increasing_inOrder (nodup_posKey (t := t) hsub)
  rw [Increasing, ← List.take_append_drop k (inOrder _ _), List.pairwise_append] at hinc
  -- the times of the picked values, read off the other answer
  have htimes : (picked p k values).map (fun a => t a.1) =
      ((inOrder (posKey t) (values.zipIdx.filter fun a => q a.1)).take k).map
        fun a => t a.1 := by
    have hmap := congrArg (List.map t) heq
    rwa [List.map_map, List.map_map] at hmap
  have haccepted : ∀ a ∈ picked p k values, q a.1 = true := by
    intro a ha
    have hmem : a.1 ∈ (picked p k values).map Prod.fst := List.mem_map_of_mem ha
    rw [heq] at hmem
    obtain ⟨b, hb, hab⟩ := List.mem_map.mp hmem
    rw [← hab]
    exact (List.mem_filter.mp (inOrder_perm.mem_iff.mp (List.mem_of_mem_take hb))).2
  obtain ⟨rest, hperm, -, hrest⟩ := perm_picked haccepted
  have hsplit : (picked p k values ++ rest).Perm
      ((inOrder (posKey t) (values.zipIdx.filter fun a => q a.1)).take k ++
        (inOrder (posKey t) (values.zipIdx.filter fun a => q a.1)).drop k) := by
    rw [List.take_append_drop]
    exact hperm.symm.trans inOrder_perm.symm
  refine ⟨haccepted, ?_, ?_, ?_⟩
  · have hsorted : (((inOrder (posKey t) (values.zipIdx.filter fun a => q a.1)).take k).map
        fun a => t a.1).Pairwise (· ≤ ·) :=
      List.pairwise_map.mpr (hinc.1.imp le_of_posKey_lt)
    rw [← htimes] at hsorted
    exact List.pairwise_map.mp hsorted
  · intro a ha b hb hq hnot
    have htail := hsplit.map fun a : β × Nat => t a.1
    rw [List.map_append, List.map_append, htimes, List.perm_append_left_iff] at htail
    have hmem : t b.1 ∈ rest.map fun a => t a.1 :=
      List.mem_map_of_mem ((hrest b).mpr ⟨hb, hq, hnot⟩)
    obtain ⟨later, hlater, hlt⟩ := List.mem_map.mp (htail.mem_iff.mp hmem)
    have hmem : t a.1 ∈ (picked p k values).map fun a => t a.1 := List.mem_map_of_mem ha
    rw [htimes] at hmem
    obtain ⟨early, hearly, het⟩ := List.mem_map.mp hmem
    rw [← het, ← hlt]
    exact le_of_posKey_lt (hinc.2.2 early hearly later hlater)
  · intro hshort b hb hq
    by_contra hnot
    have hlength := congrArg List.length heq
    rw [List.length_map, List.length_map, List.length_take] at hlength
    have hall := hsplit.length_eq
    rw [List.take_append_drop, List.length_append] at hall
    have hpos := List.length_pos_of_mem ((hrest b).mpr ⟨hb, hq, hnot⟩)
    omega

/-- A reader of the list and a reader in the order of the time get the same first `k` values
exactly if those of the list come first in time. -/
theorem take_inOrder_iff (hp : ∀ a b, t a = t b → p a = p b) :
    (values.filter p).take k =
        ((inOrder (posKey t) (values.zipIdx.filter fun a => q a.1)).take k).map Prod.fst ↔
      SameFirst t p q k values := by
  rw [← map_fst_picked]
  constructor
  · exact sameFirst_of_take_eq
  · intro h
    rw [h.take_inOrder hp]

omit [LinearOrder κ] [LinearOrder τ] in
theorem id_le_iff {id : α → Nat} (hid : Increasing id l) {a b : α × Nat} (ha : a ∈ l.zipIdx)
    (hb : b ∈ l.zipIdx) : id a.1 ≤ id b.1 ↔ a.2 ≤ b.2 := by
  have hlt : ∀ {a b : α × Nat}, a ∈ l.zipIdx → b ∈ l.zipIdx → a.2 < b.2 → id a.1 < id b.1 := by
    intro a b ha hb hab
    obtain ⟨hi, hai⟩ := List.getElem?_eq_some_iff.mp (List.mem_zipIdx_iff_getElem?.mp ha)
    obtain ⟨hj, hbj⟩ := List.getElem?_eq_some_iff.mp (List.mem_zipIdx_iff_getElem?.mp hb)
    have hlt := List.pairwise_iff_getElem.mp hid a.2 b.2 hi hj hab
    rwa [hai, hbj] at hlt
  constructor
  · intro hle
    by_contra hgt
    exact absurd hle (Nat.not_le.mpr (hlt hb ha (Nat.not_le.mp hgt)))
  · intro hle
    rcases Nat.lt_or_eq_of_le hle with hab | hab
    · exact (hlt ha hb hab).le
    · have heq := (List.mem_zipIdx_iff_getElem?.mp ha).symm.trans
        (hab ▸ List.mem_zipIdx_iff_getElem?.mp hb)
      rw [Option.some_inj.mp heq]

omit [LinearOrder κ] in
/-- Rows with increasing ids are in the same order as their values with the positions. -/
theorem map_inOrder_ids {f : α → β} {id : α → Nat} (hid : Increasing id l) :
    (inOrder (fun a => toLex (t (f a), id a)) l).map f =
      (inOrder (posKey t) (l.map f).zipIdx).map Prod.fst := by
  have hrows : (inOrder (fun z : α × Nat => toLex (t (f z.1), id z.1)) l.zipIdx).map Prod.fst =
      inOrder (fun a => toLex (t (f a), id a)) l := by
    rw [map_inOrder (fun a => toLex (t (f a), id a)) fun _ _ _ _ => Iff.rfl,
      List.zipIdx_map_fst]
  have hvalues : (inOrder (fun z : α × Nat => toLex (t (f z.1), id z.1)) l.zipIdx).map
      (fun z => (f z.1, z.2)) = inOrder (posKey t) (l.map f).zipIdx := by
    rw [List.zipIdx_map]
    refine map_inOrder (posKey t) fun a ha b hb => ?_
    simp only [posKey, Prod.Lex.toLex_le_toLex, id_le_iff hid ha hb]
  rw [← hrows, ← hvalues, List.map_map, List.map_map]
  rfl

end Positions

end Ordered
