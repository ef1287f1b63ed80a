import Iec104Slave.Lib.Keyed
import Iec104Slave.Lib.Ring
import Mathlib.Data.List.Perm.Subperm

/-!
# Tables of slots

A fixed array of slots, each empty or holding a record with a key. A put goes
through the array once: it overwrites the record with its key, and remembers the
first empty slot on the way in case there is no such record.

`put_perm` says what the records are afterwards, up to their order in the array;
`put_isSome_of_room` says when a put cannot fail.
-/

namespace SlotTable

variable {ε κ : Type} [DecidableEq κ] (key : ε → κ)

/-- The records in the table, in the order of their slots. -/
def pending (slots : List (Option ε)) : List ε := slots.filterMap id

/-- The loop of a put, from slot `i` on, with the first empty slot seen before. -/
def scan (k : κ) : List (Option ε) → Nat → Option Nat → Option Nat
  | [], _, empty => empty
  | some e :: rest, i, empty => if key e = k then some i else scan k rest (i + 1) empty
  | none :: rest, i, empty => scan k rest (i + 1) (empty.or (some i))

/-- Store `e` under the key `k`; `none` when the table is full. -/
def put (k : κ) (e : ε) (slots : List (Option ε)) : Option (List (Option ε)) :=
  (scan key k slots 0 none).map fun i => slots.set i (some e)

variable {key} {k : κ} {e : ε} {slots slots' : List (Option ε)} {i : Nat}

@[simp] theorem pending_nil : pending ([] : List (Option ε)) = [] := rfl

@[simp] theorem pending_none (slots : List (Option ε)) :
    pending (none :: slots) = pending slots := rfl

@[simp] theorem pending_some (e : ε) (slots : List (Option ε)) :
    pending (some e :: slots) = e :: pending slots := rfl

theorem pending_append (slots slots' : List (Option ε)) :
    pending (slots ++ slots') = pending slots ++ pending slots' :=
  List.filterMap_append

theorem pending_replicate_none (n : Nat) : pending (List.replicate n (none : Option ε)) = [] := by
  induction n with
  | zero => rfl
  | succ n ih => exact ih

theorem mem_pending : e ∈ pending slots ↔ some e ∈ slots := by
  simp [pending]

/-- The records around slot `i`. Storing there replaces what the slot had. -/
theorem pending_set {old : Option ε} (h : slots[i]? = some old) :
    ∃ rest, (pending slots).Perm (old.toList ++ rest) ∧
      ∀ e, (pending (slots.set i (some e))).Perm (e :: rest) := by
  obtain ⟨hi, rfl⟩ := List.getElem?_eq_some_iff.mp h
  refine ⟨pending (slots.take i) ++ pending (slots.drop (i + 1)), ?_, fun e => ?_⟩
  · have hsplit : pending slots =
        pending (slots.take i) ++ pending (slots[i] :: slots.drop (i + 1)) := by
      rw [← pending_append, ← List.drop_eq_getElem_cons hi, List.take_append_drop]
    rw [hsplit]
    cases slots[i] with
    | none => exact List.Perm.refl _
    | some old => exact List.perm_middle
  · rw [List.set_eq_take_append_cons_drop, if_pos hi, pending_append]
    exact List.perm_middle

/-- Where the loop ends: at the record with the key, else at the first empty slot. -/
theorem scan_eq (k : κ) (slots : List (Option ε)) (i : Nat) (empty : Option Nat) :
    scan key k slots i empty =
      match slots.findIdx? fun s => s.any fun e => decide (key e = k) with
      | some j => some (i + j)
      | none => empty.or ((slots.findIdx? Option.isNone).map (i + ·)) := by
  induction slots generalizing i empty with
  | nil => simp [scan]
  | cons s rest ih =>
    rw [List.findIdx?_cons, List.findIdx?_cons]
    cases s with
    | none =>
      rw [scan, ih]
      cases rest.findIdx? fun s => s.any fun e => decide (key e = k) with
      | none => cases empty <;> rfl
      | some j => simp; omega
    | some e =>
      rw [scan]
      by_cases hk : key e = k
      · simp [hk]
      · rw [if_neg hk, ih]
        cases rest.findIdx? fun s => s.any fun e => decide (key e = k) with
        | none =>
          simp [hk, Function.comp_def, Nat.add_assoc, Nat.add_comm 1]
        | some j => simp [hk]; omega

theorem findIdx?_key_eq_none :
    (slots.findIdx? fun s => s.any fun e => decide (key e = k)) = none ↔
      ∀ e ∈ pending slots, key e ≠ k := by
  rw [List.findIdx?_eq_none_iff]
  constructor
  · intro h e he
    simpa using h (some e) (mem_pending.mp he)
  · intro h s hs
    cases s with
    | none => rfl
    | some e => simpa using h e (mem_pending.mpr hs)

/-- A put that succeeds stores in the slot of its key, or in an empty slot when no record
has its key. -/
theorem put_some (h : put key k e slots = some slots') :
    ∃ i old, slots[i]? = some old ∧ slots' = slots.set i (some e) ∧
      ((∃ e', old = some e' ∧ key e' = k) ∨ old = none ∧ ∀ e' ∈ pending slots, key e' ≠ k) := by
  obtain ⟨i, hi, rfl⟩ := Option.map_eq_some_iff.mp h
  rw [scan_eq] at hi
  cases hfind : slots.findIdx? fun s => s.any fun e => decide (key e = k) with
  | some j =>
    rw [hfind] at hi
    obtain ⟨hj, hp, _⟩ := List.findIdx?_eq_some_iff_getElem.mp hfind
    have hij : i = j := by simpa using hi.symm
    subst hij
    refine ⟨i, slots[i], List.getElem?_eq_getElem hj, rfl, .inl ?_⟩
    cases hs : slots[i] with
    | none => rw [hs] at hp; cases hp
    | some e' =>
      rw [hs] at hp
      exact ⟨e', rfl, by simpa using hp⟩
  | none =>
    rw [hfind] at hi
    have hempty : slots.findIdx? Option.isNone = some i := by simpa using hi
    obtain ⟨hi, hp, _⟩ := List.findIdx?_eq_some_iff_getElem.mp hempty
    refine ⟨i, none, ?_, rfl, .inr ⟨rfl, findIdx?_key_eq_none.mp hfind⟩⟩
    rw [List.getElem?_eq_getElem hi, Option.isNone_iff_eq_none.mp hp]

theorem length_put (h : put key k e slots = some slots') : slots'.length = slots.length := by
  obtain ⟨i, _, _, rfl, _⟩ := put_some h
  exact List.length_set

theorem mem_pending_put (h : put key k e slots = some slots') {x : ε} (hx : x ∈ pending slots') :
    x = e ∨ x ∈ pending slots := by
  obtain ⟨i, old, hold, rfl, _⟩ := put_some h
  obtain ⟨rest, hbefore, hafter⟩ := pending_set hold
  rcases List.mem_cons.mp ((hafter e).mem_iff.mp hx) with rfl | hx
  · exact .inl rfl
  · exact .inr (hbefore.mem_iff.mpr (List.mem_append_right _ hx))

/-- A put fails only when every slot has a record and none has its key. -/
theorem put_none (h : put key k e slots = none) :
    (pending slots).length = slots.length ∧ ∀ e' ∈ pending slots, key e' ≠ k := by
  have hscan : scan key k slots 0 none = none := Option.map_eq_none_iff.mp h
  rw [scan_eq] at hscan
  cases hfind : slots.findIdx? fun s => s.any fun e => decide (key e = k) with
  | some j => rw [hfind] at hscan; cases hscan
  | none =>
    rw [hfind] at hscan
    have hfull : slots.findIdx? Option.isNone = none := by simpa using hscan
    refine ⟨?_, findIdx?_key_eq_none.mp hfind⟩
    rw [pending, List.length_filterMap_eq_countP, List.countP_eq_length]
    intro s hs
    have hsome := List.findIdx?_eq_none_iff.mp hfull s hs
    cases s with
    | none => cases hsome
    | some e => rfl

section nodup

variable (hn : ((pending slots).map key).Nodup)
include hn

/-- After a put the records are the new one and those with other keys. -/
theorem put_perm (h : put key k e slots = some slots') :
    (pending slots').Perm (e :: (pending slots).filter fun e' => decide (key e' ≠ k)) := by
  obtain ⟨i, old, hold, rfl, hcase⟩ := put_some h
  obtain ⟨rest, hbefore, hafter⟩ := pending_set hold
  refine (hafter e).trans (List.Perm.cons e ?_)
  rcases hcase with ⟨e', rfl, hk⟩ | ⟨rfl, hne⟩
  · have hkeys : (key e' :: rest.map key).Nodup := (hbefore.map key).nodup_iff.mp hn
    have hrest : ∀ x ∈ rest, key x ≠ k := by
      intro x hx heq
      exact (List.nodup_cons.mp hkeys).1 (List.mem_map.mpr ⟨x, hx, heq.trans hk.symm⟩)
    refine List.Perm.trans ?_ (hbefore.filter _).symm
    show rest.Perm ((e' :: rest).filter _)
    rw [List.filter_cons_of_neg (by simpa using hk), List.filter_eq_self.mpr]
    simpa using hrest
  · refine hbefore.symm.trans ?_
    rw [List.filter_eq_self.mpr]
    simpa using hne

theorem nodup_put (hk : key e = k) (h : put key k e slots = some slots') :
    ((pending slots').map key).Nodup := by
  rw [((put_perm hn h).map key).nodup_iff, List.map_cons, List.nodup_cons]
  refine ⟨?_, hn.sublist (List.filter_sublist.map key)⟩
  intro hmem
  obtain ⟨x, hx, hkx⟩ := List.mem_map.mp hmem
  have hne := (List.mem_filter.mp hx).2
  exact of_decide_eq_true hne (hkx.trans hk)

theorem findKey_put (hk : key e = k) (h : put key k e slots = some slots') (k' : κ) :
    Keyed.findKey key k' (pending slots') =
      if k' = k then some e else Keyed.findKey key k' (pending slots) :=
  Keyed.findKey_replace (nodup_put hn hk h) (put_perm hn h) hk k'

/-- A put whose key is one of `keys` succeeds, when the records have keys of `keys` and
there are at least as many slots. -/
theorem put_isSome_of_room {keys : List κ} (hkeys : ∀ e' ∈ pending slots, key e' ∈ keys)
    (hk : k ∈ keys) (hroom : keys.length ≤ slots.length) : (put key k e slots).isSome = true := by
  by_contra hnot
  obtain ⟨hfull, hne⟩ := put_none (Option.not_isSome_iff_eq_none.mp hnot)
  have hall : (k :: (pending slots).map key).Nodup := by
    refine List.nodup_cons.mpr ⟨fun hmem => ?_, hn⟩
    obtain ⟨x, hx, hkx⟩ := List.mem_map.mp hmem
    exact hne x hx hkx
  have hsub : k :: (pending slots).map key ⊆ keys := by
    intro x hx
    rcases List.mem_cons.mp hx with rfl | hx
    · exact hk
    · obtain ⟨e', he', rfl⟩ := List.mem_map.mp hx
      exact hkeys e' he'
  have hle := (hall.subperm hsub).length_le
  rw [List.length_cons, List.length_map, hfull] at hle
  omega

end nodup

/-! ## Stamped records

Every record carries a version. A consumer asks for the records with a newer version
than it has seen. -/

/-- The records that are newer than `after`, in the order of their slots. -/
def newerThan (version : ε → Nat) (after : Nat) (slots : List (Option ε)) : List ε :=
  (pending slots).filter fun e => decide (version e > after)

section newer

variable {version : ε → Nat} {after : Nat}

theorem mem_newerThan : e ∈ newerThan version after slots ↔
    e ∈ pending slots ∧ version e > after := by
  simp [newerThan]

theorem newerThan_eq_nil (h : ∀ e ∈ pending slots, version e ≤ after) :
    newerThan version after slots = [] := by
  rw [newerThan, List.filter_eq_nil_iff]
  intro e he
  simpa using h e he

variable (hn : ((pending slots).map key).Nodup)
include hn

omit [DecidableEq κ] in
theorem nodup_newerThan : ((newerThan version after slots).map key).Nodup :=
  hn.sublist (List.filter_sublist.map key)

/-- What the consumer finds under a key after a put with a new stamp. -/
theorem findKey_newerThan_put (h : put key k e slots = some slots') (hk : key e = k)
    (hv : version e > after) (k' : κ) :
    Keyed.findKey key k' (newerThan version after slots') =
      if k' = k then some e else Keyed.findKey key k' (newerThan version after slots) := by
  have hperm : (newerThan version after slots').Perm
      (e :: (newerThan version after slots).filter fun e' => decide (key e' ≠ k)) := by
    refine ((put_perm hn h).filter _).trans ?_
    rw [List.filter_cons_of_pos (by simpa using hv), newerThan, List.filter_comm]
  exact Keyed.findKey_replace (nodup_newerThan (nodup_put hn hk h)) hperm hk k'

end newer

/-! ## A table written round and round -/

/-- The slots hold exactly the last records of the log `l`. -/
structure LastOf (slots : List (Option ε)) (l : List ε) : Prop where
  logs : Ring.Logs slots (l.map some)
  fresh : ∀ j, l.length ≤ j → j < slots.length → slots[j]? = some none
  perm : (pending slots).Perm (l.drop (l.length - slots.length))

theorem lastOf_replicate {n : Nat} (h : 0 < n) :
    LastOf (List.replicate n (none : Option ε)) [] where
  logs := Ring.logs_nil (by rwa [List.length_replicate])
  fresh := fun j _ hj => by
    rw [List.getElem?_replicate, if_pos (by rwa [List.length_replicate] at hj)]
  perm := by rw [pending_replicate_none, List.drop_nil]

/-- What a slot has when its turn comes: nothing, or the oldest record. -/
theorem LastOf.next {l : List ε} (h : LastOf slots l) :
    slots[l.length % slots.length]? = some (if slots.length ≤ l.length then
      l[l.length - slots.length]? else none) := by
  have hpos := h.logs.pos
  split
  · next hfull =>
    have hlt : l.length - slots.length < l.length := by omega
    have hget := h.logs.get (l.length - slots.length) (some l[l.length - slots.length])
      (by rw [List.length_map]; omega)
      (by rw [List.getElem?_map, List.getElem?_eq_getElem hlt]; rfl)
    rw [List.getElem?_eq_getElem hlt, ← hget, ← Nat.mod_eq_sub_mod hfull]
  · next hroom =>
    have hlt : l.length < slots.length := Nat.lt_of_not_le hroom
    rw [Nat.mod_eq_of_lt hlt]
    exact h.fresh l.length (Nat.le_refl _) hlt

theorem LastOf.push {l : List ε} (h : LastOf slots l) (e : ε) :
    LastOf (slots.set (l.length % slots.length) (some e)) (l ++ [e]) := by
  have hpos := h.logs.pos
  refine ⟨?_, fun j hj hlt => ?_, ?_⟩
  · have hlogs := h.logs.push (some e)
    rwa [List.length_map, ← List.map_singleton, ← List.map_append] at hlogs
  · rw [List.length_set] at hlt
    rw [List.length_append, List.length_singleton] at hj
    rw [List.getElem?_set_ne (by rw [Nat.mod_eq_of_lt (by omega)]; omega)]
    exact h.fresh j (by omega) hlt
  · obtain ⟨rest, hbefore, hafter⟩ := pending_set h.next
    refine (hafter e).trans ?_
    rw [List.length_set, List.length_append, List.length_singleton]
    split at hbefore
    · next hfull =>
      have hlt : l.length - slots.length < l.length := by omega
      have hold := hbefore.symm.trans h.perm
      rw [List.getElem?_eq_getElem hlt, List.drop_eq_getElem_cons hlt] at hold
      have hrest : rest.Perm (l.drop (l.length - slots.length + 1)) := hold.cons_inv
      rw [List.drop_append_of_le_length (by omega), Nat.sub_add_comm hfull]
      exact (hrest.cons e).trans (List.perm_append_singleton e _).symm
    · next hroom =>
      have hall := hbefore.symm.trans h.perm
      rw [Nat.sub_eq_zero_of_le (by omega), List.drop_zero] at hall ⊢
      exact (hall.cons e).trans (List.perm_append_singleton e _).symm

/-- The slot of a record that has not been overwritten. -/
theorem LastOf.get {l : List ε} {i : Nat} (h : LastOf slots l) (hi : i < l.length)
    (hrange : l.length ≤ i + slots.length) :
    slots[i % slots.length]? = l[i]?.map some := by
  have hmap : (l.map some)[i]? = some (some (l.get ⟨i, hi⟩)) := by
    rw [List.getElem?_map, List.getElem?_eq_getElem hi]
    rfl
  rw [h.logs.get i _ (by rwa [List.length_map]) hmap, ← hmap, List.getElem?_map]

theorem sub_mod_add_mod {n m j : Nat} (hj : j < m) : (n - n % m + j) % m = j := by
  have hbase : n - n % m = m * (n / m) := by
    rw [Nat.sub_eq_iff_eq_add (Nat.mod_le _ _)]
    exact (Nat.div_add_mod n m).symm
  rw [hbase, Nat.mul_add_mod, Nat.mod_eq_of_lt hj]

/-- The slots before the next one have the newest records. -/
theorem LastOf.pending_take {l : List ε} (h : LastOf slots l) :
    pending (slots.take (l.length % slots.length)) =
      l.drop (l.length - l.length % slots.length) := by
  have hlt := Nat.mod_lt l.length h.logs.pos
  have hle := Nat.mod_le l.length slots.length
  have hslots : slots.take (l.length % slots.length) =
      (l.drop (l.length - l.length % slots.length)).map some := by
    refine List.ext_getElem? fun j => ?_
    rw [List.getElem?_take, List.getElem?_map, List.getElem?_drop]
    split
    · next hj =>
      have hi : l.length - l.length % slots.length + j < l.length := by omega
      have hget := h.get hi (by omega)
      rwa [sub_mod_add_mod (hj.trans hlt)] at hget
    · next hj => rw [List.getElem?_eq_none (by omega), Option.map_none]
  rw [hslots, pending, List.filterMap_map]
  exact List.filterMap_some

/-- The other slots have the older ones. -/
theorem LastOf.pending_drop {l : List ε} (h : LastOf slots l) :
    pending (slots.drop (l.length % slots.length)) =
      (l.take (l.length - l.length % slots.length)).drop (l.length - slots.length) := by
  have hpos := h.logs.pos
  have hlt := Nat.mod_lt l.length hpos
  rcases Nat.lt_or_ge l.length slots.length with hroom | hfull
  · rw [Nat.mod_eq_of_lt hroom, Nat.sub_self, List.take_zero, List.drop_nil, pending,
      List.filterMap_eq_nil_iff]
    intro slot hslot
    obtain ⟨j, hj⟩ := List.mem_iff_getElem?.mp hslot
    rw [List.getElem?_drop] at hj
    have hlen := (List.getElem?_eq_some_iff.mp hj).1
    rw [h.fresh _ (Nat.le_add_right _ _) hlen] at hj
    exact (Option.some.inj hj).symm
  · have hslots : slots.drop (l.length % slots.length) =
        ((l.take (l.length - l.length % slots.length)).drop (l.length - slots.length)).map
          some := by
      refine List.ext_getElem? fun j => ?_
      rw [List.getElem?_drop, List.getElem?_map, List.getElem?_drop, List.getElem?_take]
      split
      · next hj =>
        have hi : l.length - slots.length + j < l.length := by omega
        have hslot : l.length - slots.length + j + slots.length =
            l.length - l.length % slots.length + (l.length % slots.length + j) := by omega
        have hget := h.get hi (by omega)
        rwa [← Nat.add_mod_right, hslot, sub_mod_add_mod (by omega)] at hget
      · next hj => rw [List.getElem?_eq_none (by omega), Option.map_none]
    rw [hslots, pending, List.filterMap_map]
    exact List.filterMap_some

/-- A consumer that has seen the first part of the log finds the rest of it, as long as
nothing of the rest has been overwritten. -/
theorem LastOf.newerThan_perm {version : ε → Nat} {after : Nat} {seen fresh : List ε}
    (h : LastOf slots (seen ++ fresh)) (hroom : fresh.length ≤ slots.length)
    (hseen : ∀ e ∈ seen, version e ≤ after) (hfresh : ∀ e ∈ fresh, after < version e) :
    (newerThan version after slots).Perm fresh := by
  have hdrop : (seen ++ fresh).length - slots.length ≤ seen.length := by
    rw [List.length_append]
    omega
  have hold : (seen.drop ((seen ++ fresh).length - slots.length)).filter
      (fun e => decide (version e > after)) = [] := by
    refine List.filter_eq_nil_iff.mpr fun e he => ?_
    simpa using hseen e (List.mem_of_mem_drop he)
  have hnew : fresh.filter (fun e => decide (version e > after)) = fresh :=
    List.filter_eq_self.mpr fun e he => decide_eq_true (hfresh e he)
  have hperm := h.perm.filter fun e => decide (version e > after)
  rwa [List.drop_append_of_le_length hdrop, List.filter_append, hold, hnew] at hperm

end SlotTable
