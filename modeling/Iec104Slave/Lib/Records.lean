import Iec104Slave.Lib.LittleEndian

/-!
# Records in a byte buffer

A C buffer is a list of bytes of fixed length. `load` and `store` are `memcpy` from and to it; an
access outside gives `none`. A record is its length in two bytes and then its bytes, and records
stand one behind another. `At mem off bytes` says what stands in the buffer from an offset on; a
store next to it leaves it as it is.
-/

namespace Records

/-! ## Access -/

/-- `memcpy(out, mem + off, n)`. -/
def load (mem : List UInt8) (off n : Nat) : Option (List UInt8) :=
  if off + n ≤ mem.length then some ((mem.drop off).take n) else none

/-- `memcpy(mem + off, bytes, …)`. -/
def store (mem : List UInt8) (off : Nat) (bytes : List UInt8) : Option (List UInt8) :=
  if off + bytes.length ≤ mem.length then
    some (mem.take off ++ bytes ++ mem.drop (off + bytes.length))
  else none

/-- The bytes stand in the buffer from `off` on. -/
def At (mem : List UInt8) (off : Nat) (bytes : List UInt8) : Prop :=
  off + bytes.length ≤ mem.length ∧ (mem.drop off).take bytes.length = bytes

variable {mem mem' bytes before after : List UInt8} {off start : Nat}

theorem At.load (h : At mem off bytes) : load mem off bytes.length = some bytes := by
  rw [Records.load, if_pos h.1, h.2]

theorem at_append : At mem off (before ++ after) ↔
    At mem off before ∧ At mem (off + before.length) after := by
  have hsplit : (mem.drop off).take (before.length + after.length) =
      (mem.drop off).take before.length ++
        (mem.drop (off + before.length)).take after.length := by
    rw [List.take_add, List.drop_drop]
  constructor
  · rintro ⟨hlen, htake⟩
    rw [List.length_append] at hlen htake
    rw [hsplit] at htake
    have hfront : ((mem.drop off).take before.length).length = before.length := by
      rw [List.length_take, List.length_drop]
      omega
    obtain ⟨hbefore, hafter⟩ := List.append_inj htake hfront
    exact ⟨⟨by omega, hbefore⟩, ⟨by omega, hafter⟩⟩
  · rintro ⟨⟨_, hbefore⟩, hlen, hafter⟩
    refine ⟨by rw [List.length_append]; omega, ?_⟩
    rw [List.length_append, hsplit, hbefore, hafter]

theorem at_nil (h : off ≤ mem.length) : At mem off [] :=
  ⟨h, List.take_zero⟩

/-! ## Stores -/

theorem store_of_le (h : off + bytes.length ≤ mem.length) :
    ∃ mem', store mem off bytes = some mem' :=
  ⟨_, if_pos h⟩

theorem store_eq_some (h : store mem off bytes = some mem') :
    off + bytes.length ≤ mem.length ∧
      mem' = mem.take off ++ bytes ++ mem.drop (off + bytes.length) := by
  rw [store] at h
  split at h
  · next hle => exact ⟨hle, (Option.some.inj h).symm⟩
  · cases h

theorem length_store (h : store mem off bytes = some mem') : mem'.length = mem.length := by
  obtain ⟨hle, rfl⟩ := store_eq_some h
  simp only [List.length_append, List.length_take, List.length_drop]
  omega

/-- What was stored stands there. -/
theorem at_store (h : store mem off bytes = some mem') : At mem' off bytes := by
  have hlen := length_store h
  obtain ⟨hle, rfl⟩ := store_eq_some h
  refine ⟨by rw [hlen]; exact hle, ?_⟩
  have hoff : (mem.take off).length = off := by
    rw [List.length_take]
    omega
  rw [List.append_assoc, List.drop_left' hoff, List.take_left]

/-- A byte outside of the stored part is as before. -/
theorem getElem?_store {i : Nat} (h : store mem off bytes = some mem')
    (hi : i < off ∨ off + bytes.length ≤ i) : mem'[i]? = mem[i]? := by
  obtain ⟨hle, rfl⟩ := store_eq_some h
  have hoff : (mem.take off).length = off := by
    rw [List.length_take]
    omega
  rw [List.append_assoc]
  rcases hi with hi | hi
  · rw [List.getElem?_append_left (by omega), List.getElem?_take_of_lt hi]
  · rw [List.getElem?_append_right (by omega), List.getElem?_append_right (by omega),
      List.getElem?_drop, hoff]
    congr 1
    omega

theorem At.getElem? (h : At mem start before) {i : Nat} (hi : i < before.length) :
    mem[start + i]? = before[i]? := by
  conv_rhs => rw [← h.2]
  rw [List.getElem?_take_of_lt hi, List.getElem?_drop]

theorem at_of_getElem? (hlen : start + before.length ≤ mem.length)
    (h : ∀ i < before.length, mem[start + i]? = before[i]?) : At mem start before := by
  refine ⟨hlen, List.ext_getElem? fun i => ?_⟩
  rcases Nat.lt_or_ge i before.length with hi | hi
  · rw [List.getElem?_take_of_lt hi, List.getElem?_drop, h i hi]
  · rw [List.getElem?_eq_none hi, List.getElem?_eq_none]
    exact Nat.le_trans (List.length_take_le _ _) hi

/-- The frame rule: what stands next to the stored part stays. -/
theorem At.of_store (hat : At mem start before) (h : store mem off bytes = some mem')
    (hapart : start + before.length ≤ off ∨ off + bytes.length ≤ start) :
    At mem' start before := by
  refine at_of_getElem? (by rw [length_store h]; exact hat.1) fun i hi => ?_
  rw [getElem?_store h (by omega), hat.getElem? hi]

/-! ## Records -/

/-- A record: its length in two bytes, then its bytes. -/
def record (x : List UInt8) : List UInt8 := LittleEndian.encode 2 x.length ++ x

/-- Records one behind another. -/
def records (xs : List (List UInt8)) : List UInt8 := xs.flatMap record

/-- The length of the record that starts at `off`. -/
def recordLength (mem : List UInt8) (off : Nat) : Option Nat :=
  (load mem off 2).map LittleEndian.decode

variable {x : List UInt8} {xs ys : List (List UInt8)}

@[simp] theorem length_record (x : List UInt8) : (record x).length = 2 + x.length := by
  rw [record, List.length_append, LittleEndian.length_encode]

@[simp] theorem records_nil : records [] = [] := rfl

@[simp] theorem records_cons (x : List UInt8) (xs : List (List UInt8)) :
    records (x :: xs) = record x ++ records xs := rfl

@[simp] theorem records_append (xs ys : List (List UInt8)) :
    records (xs ++ ys) = records xs ++ records ys :=
  List.flatMap_append

theorem records_singleton (x : List UInt8) : records [x] = record x := by
  rw [records_cons, records_nil, List.append_nil]

theorem recordLength_of_at (hx : x.length < 256 ^ 2) (h : At mem off (record x)) :
    recordLength mem off = some x.length := by
  have hlen := (at_append.mp h).1.load
  rw [LittleEndian.length_encode] at hlen
  rw [recordLength, hlen, Option.map_some, LittleEndian.decode_encode, Nat.mod_eq_of_lt hx]

/-- The bytes behind the length are those of the record. -/
theorem load_of_at (h : At mem off (record x)) : load mem (off + 2) x.length = some x := by
  have hbytes := (at_append.mp h).2.load
  rwa [LittleEndian.length_encode] at hbytes

theorem eq_nil_or_snoc {α : Type} (l : List α) : l = [] ∨ ∃ init x, l = init ++ [x] := by
  simpa only [List.concat_eq_append] using List.eq_nil_or_concat l

/-- The last of some records starts where the ones before it end. -/
theorem at_records_concat : At mem off (records (xs ++ [x])) ↔
    At mem off (records xs) ∧ At mem (off + (records xs).length) (record x) := by
  rw [records_append, records_singleton, at_append]

end Records
