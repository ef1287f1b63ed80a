import Mathlib.Data.List.Basic

/-!
# C strings and arrays with checked accesses

The accesses of a C program to a NUL-terminated string, to an array and to an output buffer
that is filled from the front. An access outside gives `none`, so a program that runs to a
`some` has made none.

A loop with an index is described by what is left of the text, `text.drop i`.
-/

namespace CBuffer

/-! ## Strings -/

/-- `text[i]` for a string of `text.length` bytes and the NUL after them. -/
def readAt (text : List UInt8) (i : Nat) : Option UInt8 :=
  if i < text.length then text[i]? else if i = text.length then some 0 else none

/-- The byte after `text[i] = c` in a test `c == mark && text[i + 1] == …`: after another
byte than `mark` it is not read. -/
def readAfter (mark : UInt8) (text : List UInt8) (c : UInt8) (i : Nat) : Option UInt8 :=
  if c = mark then readAt text (i + 1) else some 0

/-- `while (i < len && P(text[i])) i++;` -/
def skipWhile (P : UInt8 → Bool) (text : List UInt8) : Nat → Nat → Option Nat
  | 0, _ => none
  | fuel + 1, i =>
    if i < text.length then do
      let c ← readAt text i
      if P c then skipWhile P text fuel (i + 1) else some i
    else some i

section strings

variable {text rest : List UInt8} {i : Nat} {c : UInt8}

theorem lt_length_of_drop (h : text.drop i = c :: rest) : i < text.length := by
  refine Nat.lt_of_not_le fun hle => ?_
  rw [List.drop_eq_nil_of_le hle] at h
  cases h

theorem length_le_of_drop (h : text.drop i = []) : text.length ≤ i :=
  List.drop_eq_nil_iff.mp h

theorem drop_succ_of_drop (h : text.drop i = c :: rest) : text.drop (i + 1) = rest := by
  rw [← List.tail_drop, h, List.tail_cons]

theorem readAt_of_drop (h : text.drop i = c :: rest) : readAt text i = some c := by
  rw [readAt, if_pos (lt_length_of_drop h), ← List.head?_drop, h, List.head?_cons]

/-- The byte after the current one can be read: at the end it is the NUL. -/
theorem readAt_succ_of_drop (h : text.drop i = c :: rest) :
    readAt text (i + 1) = some (rest.headD 0) := by
  have hnext := drop_succ_of_drop h
  cases rest with
  | cons d rest => exact readAt_of_drop hnext
  | nil =>
    have hend : i + 1 = text.length :=
      Nat.le_antisymm (lt_length_of_drop h) (length_le_of_drop hnext)
    rw [readAt, if_neg (Nat.not_lt.mpr (Nat.le_of_eq hend.symm)), if_pos hend]
    rfl

theorem readAfter_of_drop (h : text.drop i = c :: rest) (mark : UInt8) :
    ∃ next, readAfter mark text c i = some next ∧
      ∀ d, d ≠ 0 → (c = mark ∧ next = d ↔ c = mark ∧ rest.head? = some d) := by
  by_cases hc : c = mark
  · refine ⟨rest.headD 0, by rw [readAfter, if_pos hc, readAt_succ_of_drop h], fun d hd => ?_⟩
    cases rest with
    | nil => simp [hd.symm]
    | cons e rest => simp
  · exact ⟨0, if_neg hc, fun d _ => by simp [hc]⟩

theorem drop_append_of_drop {l : List UInt8} (h : text.drop i = l ++ rest) :
    text.drop (i + l.length) = rest := by
  rw [← List.drop_drop, h, List.drop_left]

/-- The loop stops at the first byte that is not in `P`, or at the end. -/
theorem skipWhile_eq (P : UInt8 → Bool) {fuel : Nat} (hfuel : (text.drop i).length < fuel) :
    skipWhile P text fuel i = some (i + ((text.drop i).takeWhile P).length) := by
  induction fuel generalizing i with
  | zero => cases hfuel
  | succ fuel ih =>
    rw [skipWhile]
    cases hdrop : text.drop i with
    | nil => rw [if_neg (Nat.not_lt.mpr (length_le_of_drop hdrop))]; rfl
    | cons c rest =>
      have hnext := drop_succ_of_drop hdrop
      rw [hdrop, ← hnext] at hfuel
      rw [if_pos (lt_length_of_drop hdrop), readAt_of_drop hdrop, Option.bind_eq_bind,
        Option.bind_some]
      cases hc : P c with
      | false => simp [hc]
      | true =>
        rw [if_pos rfl, ih (Nat.lt_of_succ_lt_succ hfuel), hnext, List.takeWhile_cons_of_pos hc,
          List.length_cons, Nat.add_right_comm, Nat.add_assoc]

/-- Where the loop stops, by what is left of the text there. -/
theorem skipWhile_spec (P : UInt8 → Bool) {fuel : Nat} (hfuel : (text.drop i).length < fuel) :
    ∃ k, skipWhile P text fuel i = some k ∧ text.drop k = (text.drop i).dropWhile P :=
  ⟨_, skipWhile_eq P hfuel, drop_append_of_drop List.takeWhile_append_dropWhile.symm⟩

end strings

/-! ## Output -/

/-- `out[j++] = c`, where the buffer has `size` bytes and `out` has the first `j`. -/
def putByte (size : Nat) (out : List UInt8) (c : UInt8) : Option (List UInt8) :=
  if out.length < size then some (out ++ [c]) else none

/-- The same under a condition. -/
def putByteIf (cond : Bool) (size : Nat) (out : List UInt8) (c : UInt8) : Option (List UInt8) :=
  if cond then putByte size out c else some out

/-- `memcpy(out + j, text + start, stop - start)` with `j += stop - start`. -/
def copyBytes (size : Nat) (out text : List UInt8) (start stop : Nat) : Option (List UInt8) :=
  if stop ≤ text.length + 1 ∧ out.length + (stop - start) ≤ size then
    some (out ++ (text.drop start).take (stop - start))
  else none

theorem putByte_of_lt {size : Nat} {out : List UInt8} (h : out.length < size) (c : UInt8) :
    putByte size out c = some (out ++ [c]) :=
  if_pos h

theorem copyBytes_of_drop {size start : Nat} {out text word rest : List UInt8}
    (h : text.drop start = word ++ rest) (hword : word ≠ [])
    (hroom : out.length + word.length ≤ size) :
    copyBytes size out text start (start + word.length) = some (out ++ word) := by
  have hlen : start + word.length ≤ text.length := by
    have hlength := congrArg List.length h
    have hpos := List.length_pos_iff.mpr hword
    rw [List.length_drop, List.length_append] at hlength
    omega
  rw [copyBytes, Nat.add_sub_cancel_left, if_pos ⟨Nat.le_succ_of_le hlen, hroom⟩, h,
    List.take_left]

/-! ## Arrays -/

/-- `a[d] = x` for an `int` index. -/
def storeAt {α : Type} {n : Nat} (a : Vector α n) (d : Int) (x : α) : Option (Vector α n) :=
  if h : 0 ≤ d ∧ d.toNat < n then some (a.set d.toNat x h.2) else none

/-- `a[d]` for an `int` index. -/
def loadAt {α : Type} {n : Nat} (a : Vector α n) (d : Int) : Option α :=
  if 0 ≤ d then a[d.toNat]? else none

section arrays

variable {α : Type} {n k : Nat}

theorem storeAt_ofNat (a : Vector α n) (h : k < n) (x : α) :
    storeAt a (k : Int) x = some (a.set k x h) :=
  dif_pos ⟨Int.natCast_nonneg k, h⟩

theorem loadAt_ofNat (a : Vector α n) (k : Nat) : loadAt a (k : Int) = a[k]? :=
  if_pos (Int.natCast_nonneg k)

end arrays

end CBuffer
