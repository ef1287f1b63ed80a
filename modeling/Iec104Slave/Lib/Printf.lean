import Mathlib.Algebra.Group.Nat.Defs
import Mathlib.Data.List.Basic
import Iec104Slave.Lib.CString

/-!
# Printing into a C buffer

The texts that `%u`, `%llu` and `%d` print, and `snprintf` into a part of a buffer. Its size
argument is a `size_t`: a difference that would be negative is a huge size. A write past the
end of the buffer gives `none`.

* `decimal_decimalText`: the printed number is the number.
* `snprintf_fits`: a text that fits stands in the buffer behind what was there.
-/

namespace Printf

open CString

/-! ## Numbers -/

/-- `%u` and `%llu`. -/
def decimalText (n : Nat) : List UInt8 :=
  (Nat.toDigits 10 n).map fun c => c.toNat.toUInt8

/-- `%d`. -/
def intText (z : Int) : List UInt8 :=
  (if z < 0 then [45] else []) ++ decimalText z.natAbs

/-- `%0<width>d`: zeros between the sign and the digits. -/
def paddedText (width : Nat) (z : Int) : List UInt8 :=
  let sign := if z < 0 then [45] else []
  let digits := decimalText z.natAbs
  sign ++ List.replicate (width - sign.length - digits.length) 48 ++ digits

theorem length_decimalText_le {n k : Nat} (hk : 0 < k) (h : n < 10 ^ k) :
    (decimalText n).length ≤ k := by
  rw [decimalText, List.length_map]
  exact (Nat.length_toDigits_le_iff (by decide) hk).mpr h

theorem length_intText_le {z : Int} {k : Nat} (hk : 0 < k) (h : z.natAbs < 10 ^ k) :
    (intText z).length ≤ k + 1 := by
  have hdigits := length_decimalText_le hk h
  rw [intText, List.length_append]
  split
  · rw [List.length_singleton, Nat.add_comm]
    exact Nat.succ_le_succ hdigits
  · rw [List.length_nil, Nat.zero_add]
    exact Nat.le_succ_of_le hdigits

theorem decimalText_ne_nil (n : Nat) : decimalText n ≠ [] := by
  rw [decimalText, Ne, List.map_eq_nil_iff]
  exact Nat.toDigits_ne_nil

theorem toNat_digitChar : ∀ {d : Nat}, d < 10 →
    (Nat.digitChar d).toNat.toUInt8.toNat = 48 + d := by
  decide

theorem isDecimal_digitChar : ∀ {d : Nat}, d < 10 →
    isDecimal (Nat.digitChar d).toNat.toUInt8 = true := by
  decide

/-- The last digit comes off the end. -/
theorem decimalText_step {n : Nat} (h : 10 ≤ n) :
    decimalText n = decimalText (n / 10) ++ [(Nat.digitChar (n % 10)).toNat.toUInt8] := by
  rw [decimalText, Nat.toDigits_of_base_le (by decide) h, List.map_append]
  rfl

theorem decimalText_small {n : Nat} (h : n < 10) :
    decimalText n = [(Nat.digitChar n).toNat.toUInt8] := by
  rw [decimalText, Nat.toDigits_of_lt_base h]
  rfl

theorem isDecimal_decimalText (n : Nat) : ∀ c ∈ decimalText n, isDecimal c = true := by
  induction n using Nat.strongRecOn with
  | ind n ih =>
    intro c hc
    rcases Nat.lt_or_ge n 10 with hsmall | hlarge
    · rw [decimalText_small hsmall, List.mem_singleton] at hc
      exact hc ▸ isDecimal_digitChar hsmall
    · rw [decimalText_step hlarge, List.mem_append, List.mem_singleton] at hc
      rcases hc with hc | rfl
      · exact ih (n / 10) (Nat.div_lt_self (by omega) (by decide)) c hc
      · exact isDecimal_digitChar (Nat.mod_lt n (by decide))

theorem decimal_decimalText (n : Nat) : decimal (decimalText n) = n := by
  induction n using Nat.strongRecOn with
  | ind n ih =>
    rcases Nat.lt_or_ge n 10 with hsmall | hlarge
    · rw [decimalText_small hsmall, decimal, List.foldl_cons, List.foldl_nil,
        toNat_digitChar hsmall]
      omega
    · have hlower := ih (n / 10) (Nat.div_lt_self (by omega) (by decide))
      rw [decimal] at hlower
      rw [decimalText_step hlarge, decimal, List.foldl_append, hlower, List.foldl_cons,
        List.foldl_nil, toNat_digitChar (Nat.mod_lt n (by decide))]
      omega

theorem ne_zero_of_isDecimal {c : UInt8} (h : isDecimal c = true) : c ≠ 0 := by
  rintro rfl
  exact absurd h (by decide)

theorem zero_not_mem_decimalText (n : Nat) : (0 : UInt8) ∉ decimalText n :=
  fun h => ne_zero_of_isDecimal (isDecimal_decimalText n 0 h) rfl

theorem zero_not_mem_intText (z : Int) : (0 : UInt8) ∉ intText z := by
  rw [intText, List.mem_append, not_or]
  refine ⟨?_, zero_not_mem_decimalText _⟩
  split <;> decide

/-! ## Reading a printed number -/

/-- A printed number other than 0 does not start with a zero. -/
theorem decimalText_head {n : Nat} (h : 0 < n) :
    ∃ c rest, decimalText n = c :: rest ∧ c ≠ 48 := by
  induction n using Nat.strongRecOn with
  | ind n ih =>
    rcases Nat.lt_or_ge n 10 with hsmall | hlarge
    · refine ⟨_, [], decimalText_small hsmall, fun hc => ?_⟩
      have hvalue := congrArg UInt8.toNat hc
      rw [toNat_digitChar hsmall] at hvalue
      exact absurd (Nat.add_left_cancel (hvalue : 48 + n = 48 + 0)) (Nat.ne_of_gt h)
    · obtain ⟨c, rest, hhead, hc⟩ := ih (n / 10) (Nat.div_lt_self h (by decide))
        (Nat.div_pos hlarge (by decide))
      exact ⟨c, _, by rw [decimalText_step hlarge, hhead, List.cons_append], hc⟩

theorem numberBase_zero_of_ne {c : UInt8} {text : List UInt8} (h : c ≠ 48) :
    numberBase 0 (c :: text) = (10, c :: text) := by
  unfold numberBase
  split
  · next heq => exact absurd (List.cons.inj heq).1 h
  · next heq => exact absurd (List.cons.inj heq).1 h
  · rfl
  · next heq => cases heq

/-- Behind a number there is nothing, or a byte that is no digit in any base. -/
def Ends (rest : List UInt8) : Prop :=
  ∀ c tail, rest = c :: tail → digit c = none

theorem readDigits_ends {base n : Nat} {rest : List UInt8} (h : Ends rest) :
    readDigits base n rest = n := by
  cases rest with
  | nil => rfl
  | cons c rest => rw [readDigits, h c rest rfl]

theorem noDigit_of_ends {rest : List UInt8} (h : Ends rest) : NoDigit rest := by
  intro c tail hrest
  refine eq_false_of_ne_true fun hc => ?_
  have hdigit := h c tail hrest
  rw [(digit_of_isDecimal hc).1] at hdigit
  cases hdigit

/-- Base 0 takes a single 0 as the start of an octal number without further digits. -/
theorem readZero_ends {rest : List UInt8} (h : Ends rest) :
    readDigits (numberBase 0 (48 :: rest)).1 0 (numberBase 0 (48 :: rest)).2 = 0 := by
  match rest, h with
  | [], _ => rfl
  | [x], h => exact readDigits_ends h
  | x :: d :: tail, h =>
    have hx : ¬ ((x = 120 ∨ x = 88) ∧ (digit d).any (· < 16) = true) := by
      rintro ⟨hx | hx, -⟩
      · exact absurd (hx ▸ h x _ rfl) (by decide)
      · exact absurd (hx ▸ h x _ rfl) (by decide)
    have hbase : numberBase 0 (48 :: x :: d :: tail) = (8, x :: d :: tail) := if_neg hx
    rw [hbase]
    exact readDigits_ends h

theorem readDecimalText {rest : List UInt8} (n : Nat) (h : Ends rest) :
    readDigits (numberBase 0 (decimalText n ++ rest)).1 0
      (numberBase 0 (decimalText n ++ rest)).2 = n := by
  rcases Nat.eq_zero_or_pos n with rfl | hpos
  · exact readZero_ends h
  · obtain ⟨c, digits, hhead, hc⟩ := decimalText_head hpos
    have hdigits := isDecimal_decimalText n
    have hvalue := decimal_decimalText n
    rw [hhead] at hdigits hvalue ⊢
    rw [List.cons_append, numberBase_zero_of_ne hc, ← List.cons_append,
      readDigits_ten hdigits (noDigit_of_ends h)]
    exact hvalue

/-- Base 0 reads back what was printed, with a minus sign or without. -/
theorem strtol_zero_text {rest : List UInt8} (minus : Bool) (n : Nat) (h : Ends rest) :
    strtol 0 ((if minus then [45] else []) ++ (decimalText n ++ rest)) =
      clampLong (if minus then -n else n) := by
  have hread := readDecimalText n h
  cases minus with
  | true => exact congrArg (fun m : Nat => clampLong (-m)) hread
  | false =>
    obtain ⟨c, digits, hcons⟩ := List.exists_cons_of_ne_nil (decimalText_ne_nil n)
    obtain ⟨hspace, hminus, hplus⟩ := decimal_start
      (isDecimal_decimalText n c (hcons ▸ List.mem_cons_self))
    have hdrop : (decimalText n ++ rest).dropWhile isspace = decimalText n ++ rest := by
      rw [hcons]
      exact List.dropWhile_cons_of_neg (ne_true_of_eq_false hspace)
    unfold strtol
    simp only [Bool.false_eq_true, if_false, List.nil_append]
    rw [hdrop]
    split
    · next heq => rw [hcons] at heq; exact absurd (List.cons.inj heq).1 hminus
    · next heq => rw [hcons] at heq; exact absurd (List.cons.inj heq).1 hplus
    · exact congrArg (fun m : Nat => clampLong m) hread

/-! ## Buffers -/

/-- `snprintf(buffer + offset, size, …)` of a text: what fits of it and a NUL. The result is
the buffer and the length of the whole text. -/
def snprintf (buffer : List UInt8) (offset : Nat) (size : UInt64) (text : List UInt8) :
    Option (List UInt8 × Nat) :=
  if size = 0 then some (buffer, text.length)
  else
    let written := text.take (size.toNat - 1) ++ [0]
    if offset + written.length ≤ buffer.length then
      some (buffer.take offset ++ written ++ buffer.drop (offset + written.length), text.length)
    else none

/-- The string in a buffer. -/
def cString (buffer : List UInt8) : List UInt8 :=
  buffer.takeWhile (· != 0)

/-- A text that fits behind `before`. -/
theorem snprintf_fits {buffer before text : List UInt8} {size : UInt64}
    (hbefore : before <+: buffer)
    (hsize : before.length + size.toNat = buffer.length)
    (hroom : before.length + text.length < buffer.length) :
    ∃ buffer', snprintf buffer before.length size text = some (buffer', text.length) ∧
      before ++ text ++ [0] <+: buffer' ∧ buffer'.length = buffer.length := by
  obtain ⟨rest, rfl⟩ := hbefore
  rw [List.length_append] at hsize hroom
  have hpos : size ≠ 0 := by
    rintro rfl
    rw [UInt64.toNat_zero] at hsize
    omega
  have htake : text.take (size.toNat - 1) = text := List.take_of_length_le (by omega)
  have hfits : before.length + (text ++ [0]).length ≤ (before ++ rest).length := by
    rw [List.length_append, List.length_append, List.length_singleton]
    omega
  refine ⟨before ++ (text ++ [0]) ++ rest.drop (text ++ [0]).length, ?_, ?_, ?_⟩
  · rw [snprintf, if_neg hpos, htake]
    dsimp only
    rw [if_pos hfits, List.take_left, List.drop_append, List.drop_eq_nil_of_le (by omega),
      List.nil_append, Nat.add_sub_cancel_left]
  · rw [List.append_assoc before]
    exact List.prefix_append _ _
  · simp only [List.length_append, List.length_drop, List.length_singleton]
    omega

theorem cString_of_prefixed {buffer text : List UInt8} (h : text ++ [0] <+: buffer)
    (hzero : (0 : UInt8) ∉ text) : cString buffer = text := by
  obtain ⟨rest, rfl⟩ := h
  have htext : ∀ c ∈ text, (c != 0) = true := by
    intro c hc
    exact bne_iff_ne.mpr fun h => hzero (h ▸ hc)
  rw [cString, List.append_assoc, List.takeWhile_append_of_pos htext]
  simp

end Printf
