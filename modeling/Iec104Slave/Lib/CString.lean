import Mathlib.Algebra.Group.Int.Defs

/-!
# C strings

A C string is the list of its bytes, without the terminating zero. These are the functions
of the C library that look for a text in a string and read a number from it, in the "C"
locale and with a 64-bit `long`.

* `strstr_cases`: `strstr` finds the first occurrence, `AfterFirst`.
* `strtol_ten`, `strtol_ten_none`: the number that base 10 reads is the one that the text
  spells, and 0 when the text starts with no number.
-/

namespace CString

/-- The bytes of an ASCII text. -/
def ascii (s : String) : List UInt8 :=
  s.toList.map fun c => c.toNat.toUInt8

/-- `strncmp (text, word, strlen (word)) == 0`. -/
def startsWith (text word : List UInt8) : Bool :=
  word.isPrefixOf text

/-- `strstr`: the rest of `text` from the first occurrence of `word` on. -/
def strstr : List UInt8 → List UInt8 → Option (List UInt8)
  | [], word => if startsWith [] word then some [] else none
  | c :: text, word =>
    if startsWith (c :: text) word then some (c :: text) else strstr text word

/-- `strchr`: the rest of `text` from the first byte `c` on. -/
def strchr (text : List UInt8) (c : UInt8) : Option (List UInt8) :=
  match text.dropWhile (· != c) with
  | [] => none
  | rest => some rest

/-- `strrchr`: the position of the last byte `c`. -/
def strrchr : List UInt8 → UInt8 → Option Nat
  | [], _ => none
  | b :: text, c =>
    match strrchr text c with
    | some i => some (i + 1)
    | none => if b = c then some 0 else none

/-- `strcmp`: the bytes are compared as `unsigned char`, and the end of a string is below
every byte. -/
def strcmp : List UInt8 → List UInt8 → Ordering :=
  compare

/-- `isspace`. -/
def isspace (c : UInt8) : Bool :=
  c == 32 || (9 ≤ c && c ≤ 13)

/-- The value of a digit of any base up to 36. -/
def digit (c : UInt8) : Option Nat :=
  if 48 ≤ c ∧ c ≤ 57 then some (c.toNat - 48)
  else if 97 ≤ c ∧ c ≤ 122 then some (c.toNat - 87)
  else if 65 ≤ c ∧ c ≤ 90 then some (c.toNat - 55)
  else none

/-- The number that `text` starts with, in base `base`, after the digits read so far. -/
def readDigits (base : Nat) : Nat → List UInt8 → Nat
  | n, [] => n
  | n, c :: text =>
    match digit c with
    | none => n
    | some d => if d < base then readDigits base (n * base + d) text else n

/-- The base that `strtol` reads in, and where the digits start. Base 0 stands for the
base that the text announces. -/
def numberBase : Nat → List UInt8 → Nat × List UInt8
  | 0, 48 :: x :: d :: text =>
    -- 0x and 0X need a digit after them
    if (x = 120 ∨ x = 88) ∧ (digit d).any (· < 16) then (16, d :: text)
    else (8, x :: d :: text)
  | 0, 48 :: text => (8, text)
  | 0, text => (10, text)
  | base + 1, text => (base + 1, text)

/-- A number that does not fit becomes the nearest `long`. -/
def clampLong (n : Int) : Int :=
  max (-2 ^ 63) (min (2 ^ 63 - 1) n)

/-- `strtol (text, NULL, base)`. -/
def strtol (base : Nat) (text : List UInt8) : Int :=
  let number (text : List UInt8) : Int :=
    let (base, digits) := numberBase base text
    readDigits base 0 digits
  match text.dropWhile isspace with
  | 45 :: rest => clampLong (-number rest)
  | 43 :: rest => clampLong (number rest)
  | rest => clampLong (number rest)

/-! ## Searching -/

/-- `rest` stands behind the first occurrence of `word` in `text`. -/
def AfterFirst (text word rest : List UInt8) : Prop :=
  ∃ before, text = before ++ word ++ rest ∧
    ∀ before' rest', text = before' ++ word ++ rest' → before.length ≤ before'.length

theorem afterFirst_unique {text word rest rest' : List UInt8} (h : AfterFirst text word rest)
    (h' : AfterFirst text word rest') : rest = rest' := by
  obtain ⟨before, rfl, hfirst⟩ := h
  obtain ⟨before', htext, hfirst'⟩ := h'
  have hlength : before.length = before'.length :=
    Nat.le_antisymm (hfirst _ _ htext) (hfirst' _ _ rfl)
  rw [List.append_assoc, List.append_assoc] at htext
  exact List.append_cancel_left (List.append_inj htext hlength).2

theorem afterFirst_occurs {text word rest : List UInt8} (h : AfterFirst text word rest) :
    word <:+: text := by
  obtain ⟨before, rfl, -⟩ := h
  exact ⟨before, rest, rfl⟩

theorem afterFirst_append (word rest : List UInt8) : AfterFirst (word ++ rest) word rest :=
  ⟨[], rfl, fun _ _ _ => Nat.zero_le _⟩

theorem afterFirst_cons {c : UInt8} {text word rest : List UInt8} (hnot : ¬ word <+: c :: text)
    (h : AfterFirst text word rest) : AfterFirst (c :: text) word rest := by
  obtain ⟨before, rfl, hfirst⟩ := h
  refine ⟨c :: before, rfl, fun before' rest' htext => ?_⟩
  cases before' with
  | nil => exact absurd ⟨rest', htext.symm⟩ hnot
  | cons _ before' => exact Nat.succ_le_succ (hfirst before' rest' (List.cons.inj htext).2)

theorem startsWith_iff {text word : List UInt8} : startsWith text word = true ↔ word <+: text :=
  List.isPrefixOf_iff_prefix

/-- What `strstr` returns: the first occurrence, or nothing if there is none. -/
theorem strstr_cases (text word : List UInt8) :
    (∃ rest, AfterFirst text word rest ∧ strstr text word = some (word ++ rest)) ∨
      (¬ word <:+: text ∧ strstr text word = none) := by
  induction text with
  | nil =>
    cases word with
    | nil => exact .inl ⟨[], afterFirst_append [] [], rfl⟩
    | cons w word =>
      have hnot : ¬ w :: word <:+: [] := fun h => List.cons_ne_nil w word (List.infix_nil.mp h)
      exact .inr ⟨hnot, rfl⟩
  | cons c text ih =>
    rw [strstr]
    split
    case isTrue hstarts =>
      obtain ⟨rest, hrest⟩ := startsWith_iff.mp hstarts
      exact .inl ⟨rest, hrest ▸ afterFirst_append word rest, congrArg some hrest.symm⟩
    case isFalse hstarts =>
      have hnot : ¬ word <+: c :: text := fun h => hstarts (startsWith_iff.mpr h)
      obtain ⟨rest, hfirst, heq⟩ | ⟨hnone, heq⟩ := ih
      · exact .inl ⟨rest, afterFirst_cons hnot hfirst, heq⟩
      · exact .inr ⟨fun h => (List.infix_cons_iff.mp h).elim hnot hnone, heq⟩

theorem strstr_found (word rest : List UInt8) :
    strstr (word ++ rest) word = some (word ++ rest) := by
  have hstarts : startsWith (word ++ rest) word = true :=
    startsWith_iff.mpr (List.prefix_append word rest)
  cases htext : word ++ rest with
  | nil => rw [strstr, ← htext, if_pos hstarts, htext]
  | cons c text => rw [strstr, ← htext, if_pos hstarts]

/-- A piece without the first byte of the word is passed over. -/
theorem strstr_skip {word piece : List UInt8} (hne : word ≠ [])
    (h : ∀ c ∈ piece, word.head? ≠ some c) (text : List UInt8) :
    strstr (piece ++ text) word = strstr text word := by
  induction piece with
  | nil => rfl
  | cons c piece ih =>
    have hnot : ¬ startsWith (c :: (piece ++ text)) word = true := by
      rw [startsWith_iff]
      rintro ⟨rest, hrest⟩
      cases word with
      | nil => exact hne rfl
      | cons w word =>
        cases (List.cons.inj hrest).1
        exact h _ List.mem_cons_self rfl
    rw [List.cons_append, strstr, if_neg hnot]
    exact ih fun d hd => h d (List.mem_cons_of_mem _ hd)

theorem strchr_append {before : List UInt8} {c : UInt8} (h : c ∉ before) (rest : List UInt8) :
    strchr (before ++ c :: rest) c = some (c :: rest) := by
  have hbefore : ∀ b ∈ before, (b != c) = true := by
    intro b hb
    exact bne_iff_ne.mpr fun hbc => h (hbc ▸ hb)
  rw [strchr, List.dropWhile_append_of_pos hbefore, List.dropWhile_cons_of_neg (by simp)]

theorem strchr_none {text : List UInt8} {c : UInt8} (h : c ∉ text) : strchr text c = none := by
  have htext : ∀ b ∈ text, (b != c) = true := by
    intro b hb
    exact bne_iff_ne.mpr fun hbc => h (hbc ▸ hb)
  have hnil : (text ++ []).dropWhile (· != c) = [] := List.dropWhile_append_of_pos htext
  rw [List.append_nil] at hnil
  rw [strchr, hnil]

/-- The first byte `c` of a text, if there is one. -/
theorem split_at (c : UInt8) (text : List UInt8) :
    c ∉ text ∨ ∃ before rest, text = before ++ c :: rest ∧ c ∉ before := by
  by_cases h : c ∈ text
  · obtain ⟨before, rest, rfl, hbefore⟩ := List.eq_append_cons_of_mem h
    exact .inr ⟨before, rest, rfl, hbefore⟩
  · exact .inl h

/-! ## Decimal numbers -/

def isDecimal (c : UInt8) : Bool :=
  48 ≤ c && c ≤ 57

/-- The value of a row of decimal digits. -/
def decimal (digits : List UInt8) : Nat :=
  digits.foldl (fun n c => n * 10 + (c.toNat - 48)) 0

/-- The text does not start with a decimal digit. -/
def NoDigit (text : List UInt8) : Prop :=
  ∀ c rest, text = c :: rest → isDecimal c = false

/-- The sign before a number, and none at all. -/
def signText : Option Bool → List UInt8
  | none => []
  | some true => [45]
  | some false => [43]

def signed : Option Bool → Nat → Int
  | some true, n => -n
  | _, n => n

theorem digit_of_isDecimal {c : UInt8} (h : isDecimal c = true) :
    digit c = some (c.toNat - 48) ∧ c.toNat - 48 < 10 := by
  simp only [isDecimal, Bool.and_eq_true, decide_eq_true_eq] at h
  refine ⟨if_pos h, ?_⟩
  have hle : c.toNat ≤ 57 := UInt8.le_iff_toNat_le.mp h.2
  omega

theorem not_digit_lt_ten {c : UInt8} {d : Nat} (h : isDecimal c = false) (hd : digit c = some d) :
    ¬ d < 10 := by
  have hc : ¬ (48 ≤ c ∧ c ≤ 57) := by simpa [isDecimal] using h
  rw [digit, if_neg hc] at hd
  split at hd
  case isTrue hsmall =>
    have hle : 97 ≤ c.toNat := UInt8.le_iff_toNat_le.mp hsmall.1
    cases hd
    omega
  case isFalse =>
    split at hd
    case isTrue hcapital =>
      have hle : 65 ≤ c.toNat := UInt8.le_iff_toNat_le.mp hcapital.1
      cases hd
      omega
    case isFalse => cases hd

theorem readDigits_stop {n : Nat} {rest : List UInt8} (h : NoDigit rest) :
    readDigits 10 n rest = n := by
  cases rest with
  | nil => rfl
  | cons c rest =>
    rw [readDigits]
    split
    case h_1 => rfl
    case h_2 d hd => exact if_neg (not_digit_lt_ten (h c rest rfl) hd)

/-- The digits are read up to the first byte that is none. -/
theorem readDigits_ten {digits rest : List UInt8} (hdigits : ∀ c ∈ digits, isDecimal c = true)
    (hrest : NoDigit rest) (n : Nat) :
    readDigits 10 n (digits ++ rest) = digits.foldl (fun n c => n * 10 + (c.toNat - 48)) n := by
  induction digits generalizing n with
  | nil => exact readDigits_stop hrest
  | cons c digits ih =>
    obtain ⟨hc, hlt⟩ := digit_of_isDecimal (hdigits c List.mem_cons_self)
    rw [List.cons_append, readDigits, hc]
    exact (if_pos hlt).trans (ih (fun c hc => hdigits c (List.mem_cons_of_mem _ hc)) _)

theorem strtol_ten_eq (text : List UInt8) :
    strtol 10 text =
      match text.dropWhile isspace with
      | 45 :: rest => clampLong (-readDigits 10 0 rest)
      | 43 :: rest => clampLong (readDigits 10 0 rest)
      | rest => clampLong (readDigits 10 0 rest) := rfl

theorem decimal_start {c : UInt8} (h : isDecimal c = true) :
    isspace c = false ∧ c ≠ 45 ∧ c ≠ 43 := by
  simp only [isDecimal, isspace, Bool.and_eq_true, decide_eq_true_eq, Bool.or_eq_false_iff,
    beq_eq_false_iff_ne, Bool.and_eq_false_iff, decide_eq_false_iff_not] at *
  grind

/-- Base 10 reads a sign and the digits behind it. -/
theorem strtol_ten {blanks digits rest : List UInt8} (hblanks : ∀ c ∈ blanks, isspace c = true)
    (sign : Option Bool) (hne : digits ≠ []) (hdigits : ∀ c ∈ digits, isDecimal c = true)
    (hrest : NoDigit rest) :
    strtol 10 (blanks ++ (signText sign ++ (digits ++ rest))) =
      clampLong (signed sign (decimal digits)) := by
  have hnumber : readDigits 10 0 (digits ++ rest) = decimal digits :=
    readDigits_ten hdigits hrest 0
  rw [strtol_ten_eq, List.dropWhile_append_of_pos hblanks]
  match sign with
  | some true => exact congrArg (fun n : Nat => clampLong (-n)) hnumber
  | some false => exact congrArg (fun n : Nat => clampLong n) hnumber
  | none =>
    cases digits with
    | nil => exact absurd rfl hne
    | cons c digits =>
      obtain ⟨hspace, hminus, hplus⟩ := decimal_start (hdigits c List.mem_cons_self)
      have hdrop : (c :: digits ++ rest).dropWhile isspace = c :: digits ++ rest :=
        List.dropWhile_cons_of_neg (ne_true_of_eq_false hspace)
      rw [signText, List.nil_append, hdrop]
      split
      case h_1 heq => exact absurd (List.cons.inj heq).1 hminus
      case h_2 heq => exact absurd (List.cons.inj heq).1 hplus
      case h_3 => exact congrArg (fun n : Nat => clampLong n) hnumber

/-- A text that starts with no number. -/
theorem strtol_ten_none {text : List UInt8}
    (h : ∀ blanks sign c rest, (∀ b ∈ blanks, isspace b = true) → isDecimal c = true →
      text ≠ blanks ++ (signText sign ++ c :: rest)) : strtol 10 text = 0 := by
  have hno : ∀ sign x, text.dropWhile isspace = signText sign ++ x → NoDigit x := by
    rintro sign x hx c rest rfl
    refine eq_false_of_ne_true fun hc => h (text.takeWhile isspace) sign c rest ?_ hc ?_
    · exact fun b hb => List.all_eq_true.mp List.all_takeWhile b hb
    · rw [← hx, List.takeWhile_append_dropWhile]
  rw [strtol_ten_eq]
  split
  case h_1 rest heq => rw [readDigits_stop (hno (some true) rest heq)]; rfl
  case h_2 rest heq => rw [readDigits_stop (hno (some false) rest heq)]; rfl
  case h_3 => rw [readDigits_stop (hno none _ rfl)]; rfl

end CString
