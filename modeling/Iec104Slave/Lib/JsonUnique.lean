import Iec104Slave.Lib.JsonText

/-!
# A strict text has one reading

Two strict trees with the same text are the same tree: each piece ends where the next byte
cannot belong to it. So `DenotesStrictly` relates a text to at most one value, and there is
a reader that returns it.

Each lemma takes the texts after the piece as parameters: equal texts give equal pieces and
equal rests.
-/

namespace JsonText

/-! ## Spans -/

/-- The text does not start with a byte of `P`. -/
def HeadNot (P : UInt8 → Bool) (x : List UInt8) : Prop :=
  ∀ b l, x = b :: l → P b = false

theorem headNot_cons {P : UInt8 → Bool} {b : UInt8} {l : List UInt8} (h : P b = false) :
    HeadNot P (b :: l) := by
  rintro _ _ ⟨⟩
  exact h

/-- Two runs of bytes in `P` that end where `P` ends. -/
theorem span_unique {P : UInt8 → Bool} {l l' x x' : List UInt8} (hl : ∀ b ∈ l, P b = true)
    (hl' : ∀ b ∈ l', P b = true) (hx : HeadNot P x) (hx' : HeadNot P x') (h : l ++ x = l' ++ x') :
    l = l' ∧ x = x' := by
  induction l generalizing l' with
  | nil =>
    cases l' with
    | nil => exact ⟨rfl, h⟩
    | cons b l' => cases (hx b _ h).symm.trans (hl' b List.mem_cons_self)
  | cons a l ih =>
    cases l' with
    | nil => cases (hx' a _ h.symm).symm.trans (hl a List.mem_cons_self)
    | cons b l' =>
      obtain ⟨rfl, hrest⟩ := List.cons.inj h
      obtain ⟨rfl, rfl⟩ := ih (fun c hc => hl c (List.mem_cons_of_mem _ hc))
        (fun c hc => hl' c (List.mem_cons_of_mem _ hc)) hrest
      exact ⟨rfl, rfl⟩

theorem gap_unique {g g' x x' : List UInt8} (hg : ∀ b ∈ g, isJsonSpace b = true)
    (hg' : ∀ b ∈ g', isJsonSpace b = true) (hx : HeadNot isJsonSpace x)
    (hx' : HeadNot isJsonSpace x') (h : g ++ x = g' ++ x') : g = g' ∧ x = x' :=
  span_unique hg hg' hx hx' h

/-! ## Strings -/

theorem letter_inj {e e' : Escape} (h : e.letter = e'.letter) : e = e' := by
  cases e <;> cases e' <;> first | rfl | exact absurd h (by decide)

theorem unit_unique {u v : StrUnit} {x y : List UInt8} (h : u.text ++ x = v.text ++ y) :
    u = v ∧ x = y := by
  have hraw : ∀ {b : UInt8}, isRaw b = true → b ≠ 92 := by
    rintro b hb rfl
    revert hb
    decide
  have hletter : ∀ e : Escape, e.letter ≠ 117 := by
    intro e
    cases e <;> decide
  cases u with
  | raw b hb =>
    cases v with
    | raw c hc =>
      obtain ⟨rfl, rfl⟩ := List.cons.inj h
      exact ⟨rfl, rfl⟩
    | escape e => exact absurd (List.cons.inj h).1 (hraw hb)
    | unicode a b c d hd => exact absurd (List.cons.inj h).1 (hraw hb)
  | escape e =>
    cases v with
    | raw c hc => exact absurd (List.cons.inj h).1.symm (hraw hc)
    | escape e' =>
      obtain ⟨he, rfl⟩ := List.cons.inj (List.cons.inj h).2
      exact ⟨congrArg _ (letter_inj he), rfl⟩
    | unicode a b c d hd => exact absurd (List.cons.inj (List.cons.inj h).2).1 (hletter e)
  | unicode a b c d hd =>
    cases v with
    | raw e he => exact absurd (List.cons.inj h).1.symm (hraw he)
    | escape e => exact absurd (List.cons.inj (List.cons.inj h).2).1.symm (hletter e)
    | unicode a' b' c' d' hd' =>
      simp only [StrUnit.text, List.cons_append, List.nil_append, List.cons.injEq, true_and] at h
      obtain ⟨rfl, rfl, rfl, rfl, rfl⟩ := h
      exact ⟨rfl, rfl⟩

theorem unit_ne_quote (u : StrUnit) (x y : List UInt8) : u.text ++ x ≠ 34 :: y := by
  intro h
  cases u with
  | raw b hb =>
    obtain ⟨rfl, -⟩ := List.cons.inj h
    exact absurd hb (by decide)
  | escape e => exact absurd (List.cons.inj h).1 (by decide)
  | unicode a b c d hd => exact absurd (List.cons.inj h).1 (by decide)

theorem units_unique {us vs : List StrUnit} {x y : List UInt8}
    (h : us.flatMap StrUnit.text ++ 34 :: x = vs.flatMap StrUnit.text ++ 34 :: y) :
    us = vs ∧ x = y := by
  induction us generalizing vs with
  | nil =>
    cases vs with
    | nil => exact ⟨rfl, (List.cons.inj h).2⟩
    | cons v vs =>
      rw [List.flatMap_cons, List.append_assoc] at h
      exact absurd h.symm (unit_ne_quote v _ _)
  | cons u us ih =>
    cases vs with
    | nil =>
      rw [List.flatMap_cons, List.append_assoc] at h
      exact absurd h (unit_ne_quote u _ _)
    | cons v vs =>
      rw [List.flatMap_cons, List.flatMap_cons, List.append_assoc, List.append_assoc] at h
      obtain ⟨rfl, hrest⟩ := unit_unique h
      obtain ⟨rfl, rfl⟩ := ih hrest
      exact ⟨rfl, rfl⟩

theorem string_unique {us vs : List StrUnit} {x y : List UInt8}
    (h : stringText us ++ x = stringText vs ++ y) : us = vs ∧ x = y := by
  simp only [stringText, List.cons_append, List.append_assoc, List.nil_append,
    List.cons.injEq, true_and] at h
  exact units_unique h

/-! ## Numbers -/

def isDigitByte (b : UInt8) : Bool :=
  48 ≤ b && b ≤ 57

/-- A byte that can go on with a number. -/
def isNumberByte (b : UInt8) : Bool :=
  isDigitByte b || b == 46 || b == 69 || b == 101

theorem digit_byte (d : Fin 10) : isDigitByte (digitByte d) = true := by
  revert d
  decide

theorem digitByte_inj {d e : Fin 10} (h : digitByte d = digitByte e) : d = e := by
  revert d e
  decide

theorem digits_unique {ds es : List (Fin 10)} {x y : List UInt8} (hx : HeadNot isDigitByte x)
    (hy : HeadNot isDigitByte y) (h : ds.map digitByte ++ x = es.map digitByte ++ y) :
    ds = es ∧ x = y := by
  have hdigits := forall_mem_digits (P := fun b => isDigitByte b = true) digit_byte
  obtain ⟨hd, hxy⟩ := span_unique (hdigits ds) (hdigits es) hx hy h
  exact ⟨List.map_injective_iff.mpr (fun _ _ => digitByte_inj) hd, hxy⟩

theorem headNot_of_number {P : UInt8 → Bool} (hP : ∀ b, P b = true → isNumberByte b = true)
    {x : List UInt8} (hx : HeadNot isNumberByte x) : HeadNot P x := by
  intro b l h
  refine eq_false_of_ne_true fun hb => ?_
  cases (hx b l h).symm.trans (hP b hb)

theorem headNot_digit {x : List UInt8} (hx : HeadNot isNumberByte x) : HeadNot isDigitByte x :=
  headNot_of_number (fun b hb => by simp [isNumberByte, hb]) hx

theorem exponent_head {e : Exponent} {x : List UInt8} :
    ∃ l, e.text ++ x = 69 :: l ∨ e.text ++ x = 101 :: l := by
  obtain ⟨capital, sign, first, rest⟩ := e
  cases capital with
  | true => exact ⟨_, .inl rfl⟩
  | false => exact ⟨_, .inr rfl⟩

theorem exponent_text_unique {e e' : Exponent} {x y : List UInt8} (hx : HeadNot isDigitByte x)
    (hy : HeadNot isDigitByte y) (h : e.text ++ x = e'.text ++ y) : e = e' ∧ x = y := by
  obtain ⟨capital, sign, first, rest⟩ := e
  obtain ⟨capital', sign', first', rest'⟩ := e'
  simp only [Exponent.text, List.cons_append, List.append_assoc, List.cons.injEq] at h
  obtain ⟨hletter, h⟩ := h
  have hcapital : capital = capital' := by
    cases capital <;> cases capital' <;> first | rfl | simp at hletter
  -- a digit is no sign
  have hdigit : ∀ d : Fin 10, ∀ m : Bool, digitByte d ≠ if m then 45 else 43 := by decide
  have hsign : sign = sign' ∧ (first :: rest).map digitByte ++ x =
      (first' :: rest').map digitByte ++ y := by
    cases sign with
    | none =>
      cases sign' with
      | none => exact ⟨rfl, h⟩
      | some m => exact absurd (List.cons.inj h).1 (hdigit first m)
    | some m =>
      cases sign' with
      | none => exact absurd (List.cons.inj h).1.symm (hdigit first' m)
      | some m' =>
        obtain ⟨hm, h⟩ := List.cons.inj h
        refine ⟨congrArg some ?_, h⟩
        cases m <;> cases m' <;> first | rfl | exact absurd hm (by decide)
  obtain ⟨hd, hxy⟩ := digits_unique hx hy hsign.2
  obtain ⟨hfirst, hrest⟩ := List.cons.inj hd
  exact ⟨by rw [hcapital, hsign.1, hfirst, hrest], hxy⟩

theorem exponent_unique {e e' : Option Exponent} {x y : List UInt8} (hx : HeadNot isNumberByte x)
    (hy : HeadNot isNumberByte y)
    (h : e.elim [] Exponent.text ++ x = e'.elim [] Exponent.text ++ y) : e = e' ∧ x = y := by
  cases e with
  | none =>
    cases e' with
    | none => exact ⟨rfl, h⟩
    | some e' =>
      obtain ⟨l, hl | hl⟩ := exponent_head (e := e') (x := y)
      · cases hx 69 l (h.trans hl)
      · cases hx 101 l (h.trans hl)
  | some e =>
    cases e' with
    | none =>
      obtain ⟨l, hl | hl⟩ := exponent_head (e := e) (x := x)
      · cases hy 69 l (h.symm.trans hl)
      · cases hy 101 l (h.symm.trans hl)
    | some e' =>
      obtain ⟨rfl, rfl⟩ := exponent_text_unique (headNot_digit hx) (headNot_digit hy) h
      exact ⟨rfl, rfl⟩

/-- After the digits before or after the point comes no digit and, with no point, no point. -/
theorem headNot_exponent {P : UInt8 → Bool} (hcapital : P 69 = false) (hsmall : P 101 = false)
    {e : Option Exponent} {x : List UInt8} (hx : HeadNot P x) :
    HeadNot P (e.elim [] Exponent.text ++ x) := by
  cases e with
  | none => exact hx
  | some e =>
    obtain ⟨l, hl | hl⟩ := exponent_head (e := e) (x := x)
    · show HeadNot P (e.text ++ x)
      rw [hl]
      exact headNot_cons hcapital
    · show HeadNot P (e.text ++ x)
      rw [hl]
      exact headNot_cons hsmall

theorem fraction_unique {f f' : Option Fraction} {x y : List UInt8} (hx : HeadNot isDigitByte x)
    (hy : HeadNot isDigitByte y) (hx' : HeadNot (· == 46) x) (hy' : HeadNot (· == 46) y)
    (h : f.elim [] Fraction.text ++ x = f'.elim [] Fraction.text ++ y) : f = f' ∧ x = y := by
  cases f with
  | none =>
    cases f' with
    | none => exact ⟨rfl, h⟩
    | some f' => cases hx' 46 _ h
  | some f =>
    cases f' with
    | none => cases hy' 46 _ h.symm
    | some f' =>
      obtain ⟨hd, rfl⟩ := digits_unique hx hy (List.cons.inj h).2
      obtain ⟨hfirst, hrest⟩ := List.cons.inj hd
      obtain ⟨first, rest⟩ := f
      cases hfirst
      cases hrest
      exact ⟨rfl, rfl⟩

theorem intDigits_inj {i j : IntDigits} (h : i.digits = j.digits) : i = j := by
  cases i with
  | zero =>
    cases j with
    | zero => rfl
    | positive first rest => exact absurd (List.cons.inj h).1.symm (Fin.succ_ne_zero first)
  | positive first rest =>
    cases j with
    | zero => exact absurd (List.cons.inj h).1 (Fin.succ_ne_zero first)
    | positive first' rest' =>
      obtain ⟨hfirst, rfl⟩ := List.cons.inj h
      rw [Fin.succ_inj.mp hfirst]

theorem int_head (i : IntDigits) : ∃ d rest, i.digits = d :: rest := by
  cases i with
  | zero => exact ⟨_, _, rfl⟩
  | positive first rest => exact ⟨_, _, rfl⟩

theorem number_unique {m n : Number} {x y : List UInt8} (hx : HeadNot isNumberByte x)
    (hy : HeadNot isNumberByte y) (h : m.text ++ x = n.text ++ y) : m = n ∧ x = y := by
  obtain ⟨negative, int, fraction, exponent⟩ := m
  obtain ⟨negative', int', fraction', exponent'⟩ := n
  simp only [Number.text, List.append_assoc] at h
  have hminus : ∀ d : Fin 10, digitByte d ≠ 45 := by decide
  -- a digit is no sign
  have hsign : negative = negative' ∧
      int.digits.map digitByte ++ (fraction.elim [] Fraction.text ++
        (exponent.elim [] Exponent.text ++ x)) =
      int'.digits.map digitByte ++ (fraction'.elim [] Fraction.text ++
        (exponent'.elim [] Exponent.text ++ y)) := by
    cases negative with
    | false =>
      cases negative' with
      | false => exact ⟨rfl, h⟩
      | true =>
        obtain ⟨d, rest, hd⟩ := int_head int
        rw [hd] at h
        exact absurd (List.cons.inj h).1 (hminus d)
    | true =>
      cases negative' with
      | false =>
        obtain ⟨d, rest, hd⟩ := int_head int'
        rw [hd] at h
        exact absurd (List.cons.inj h).1.symm (hminus d)
      | true => exact ⟨rfl, (List.cons.inj h).2⟩
  have hpoint : ∀ {x : List UInt8}, HeadNot isNumberByte x → HeadNot (· == 46) x :=
    headNot_of_number fun b hb => by simp [isNumberByte, hb]
  have hafter : ∀ (f : Option Fraction) (e : Option Exponent) {x : List UInt8},
      HeadNot isNumberByte x →
      HeadNot isDigitByte (f.elim [] Fraction.text ++ (e.elim [] Exponent.text ++ x)) := by
    intro f e x hx
    cases f with
    | none => exact headNot_exponent rfl rfl (headNot_digit hx)
    | some f => exact headNot_cons rfl
  obtain ⟨hint, hrest⟩ := digits_unique (hafter _ _ hx) (hafter _ _ hy) hsign.2
  obtain ⟨hfraction, hrest⟩ := fraction_unique (headNot_exponent rfl rfl (headNot_digit hx))
    (headNot_exponent rfl rfl (headNot_digit hy)) (headNot_exponent rfl rfl (hpoint hx))
    (headNot_exponent rfl rfl (hpoint hy)) hrest
  obtain ⟨hexponent, hxy⟩ := exponent_unique hx hy hrest
  exact ⟨by rw [hsign.1, intDigits_inj hint, hfraction, hexponent], hxy⟩

/-! ## Values -/

/-- What can follow a value. -/
def isFollow (b : UInt8) : Bool :=
  isJsonSpace b || b == 44 || b == 93 || b == 125

/-- The text is empty or starts with a byte that can follow a value. -/
def Follows (x : List UInt8) : Prop :=
  ∀ b l, x = b :: l → isFollow b = true

theorem follows_cons {b : UInt8} {l : List UInt8} (h : isFollow b = true) : Follows (b :: l) := by
  rintro _ _ ⟨⟩
  exact h

theorem follows_gap {g x : List UInt8} (hg : ∀ b ∈ g, isJsonSpace b = true) (hx : Follows x) :
    Follows (g ++ x) := by
  cases g with
  | nil => exact hx
  | cons b g =>
    refine follows_cons ?_
    simp only [isFollow, hg b List.mem_cons_self, Bool.true_or]

theorem headNot_of_follows {P : UInt8 → Bool} (hP : ∀ b, isFollow b = true → P b = false)
    {x : List UInt8} (hx : Follows x) : HeadNot P x :=
  fun b l h => hP b (hx b l h)

theorem isFollow_cases {b : UInt8} (h : isFollow b = true) :
    b ∈ [32, 9, 10, 13, 44, 93, 125] := by
  simp only [isFollow, isJsonSpace, Bool.or_eq_true, beq_iff_eq, or_assoc] at h
  simpa only [List.mem_cons, List.not_mem_nil, or_false] using h

theorem not_number_of_follow {b : UInt8} (h : isFollow b = true) : isNumberByte b = false := by
  have hb := isFollow_cases h
  simp only [List.mem_cons, List.not_mem_nil, or_false] at hb
  rcases hb with rfl | rfl | rfl | rfl | rfl | rfl | rfl <;> rfl

/-- The kinds of values, by their first byte. -/
inductive ValueKind
  | null
  | yes
  | no
  | number
  | string
  | array
  | object
deriving DecidableEq

def kindOf (b : UInt8) : ValueKind :=
  if b = 110 then .null
  else if b = 116 then .yes
  else if b = 102 then .no
  else if b = 34 then .string
  else if b = 91 then .array
  else if b = 123 then .object
  else .number

def Atom.kind : Atom → ValueKind
  | .null => .null
  | .bool true => .yes
  | .bool false => .no
  | .number _ => .number
  | .string _ => .string

def valueKind : PlainSyn .value → ValueKind
  | .atom a => a.kind
  | .emptyArray _ => .array
  | .array _ => .array
  | .emptyObject _ => .object
  | .object _ => .object

theorem number_head (n : Number) :
    ∃ b l, n.text = b :: l ∧ kindOf b = .number ∧ isFollow b = false := by
  obtain ⟨negative, int, fraction, exponent⟩ := n
  cases negative with
  | true => exact ⟨45, _, rfl, rfl, rfl⟩
  | false =>
    obtain ⟨d, rest, hd⟩ := int_head int
    have hdigit : ∀ d, kindOf (digitByte d) = .number ∧ isFollow (digitByte d) = false := by decide
    exact ⟨digitByte d, _, by simp only [Number.text, hd]; rfl, hdigit d⟩

theorem value_head (v : PlainSyn .value) :
    ∃ b l, v.text plainLexis = b :: l ∧ kindOf b = valueKind v ∧ isFollow b = false := by
  cases v with
  | atom a =>
    cases a with
    | null => exact ⟨110, _, rfl, rfl, rfl⟩
    | bool b =>
      cases b with
      | true => exact ⟨116, _, rfl, rfl, rfl⟩
      | false => exact ⟨102, _, rfl, rfl, rfl⟩
    | number n => exact number_head n
    | string units => exact ⟨34, _, rfl, rfl, rfl⟩
  | emptyArray gap => exact ⟨91, _, rfl, rfl, rfl⟩
  | array items => exact ⟨91, _, rfl, rfl, rfl⟩
  | emptyObject gap => exact ⟨123, _, rfl, rfl, rfl⟩
  | object members => exact ⟨123, _, rfl, rfl, rfl⟩

theorem kind_unique {v v' : PlainSyn .value} {x y : List UInt8}
    (h : v.text plainLexis ++ x = v'.text plainLexis ++ y) : valueKind v = valueKind v' := by
  obtain ⟨b, l, hv, hb, -⟩ := value_head v
  obtain ⟨b', l', hv', hb', -⟩ := value_head v'
  rw [hv, hv'] at h
  rw [← hb, ← hb', (List.cons.inj h).1]

theorem headNot_value (v : PlainSyn .value) (x : List UInt8) :
    HeadNot isFollow (v.text plainLexis ++ x) := by
  obtain ⟨b, l, hv, -, hb⟩ := value_head v
  rw [hv]
  exact headNot_cons hb

theorem headNot_space {x : List UInt8} (h : HeadNot isFollow x) : HeadNot isJsonSpace x := by
  intro b l hx
  refine eq_false_of_ne_true fun hb => ?_
  have hfollow : isFollow b = true := by simp only [isFollow, hb, Bool.true_or]
  cases (h b l hx).symm.trans hfollow

theorem atom_unique {a a' : Atom} {x y : List UInt8} (hx : Follows x) (hy : Follows y)
    (h : a.text ++ x = a'.text ++ y) : a = a' ∧ x = y := by
  have htext : (Syn.atom a : PlainSyn .value).text plainLexis ++ x =
      (Syn.atom a' : PlainSyn .value).text plainLexis ++ y := h
  have hkind : a.kind = a'.kind := kind_unique htext
  cases a with
  | null =>
    cases a' with
    | null => exact ⟨rfl, List.append_cancel_left h⟩
    | bool b => cases b <;> cases hkind
    | number n => cases hkind
    | string units => cases hkind
  | bool b =>
    cases a' with
    | null => cases b <;> cases hkind
    | bool b' =>
      have hb : b = b' := by cases b <;> cases b' <;> first | rfl | cases hkind
      subst hb
      exact ⟨rfl, List.append_cancel_left h⟩
    | number n => cases b <;> cases hkind
    | string units => cases b <;> cases hkind
  | number n =>
    cases a' with
    | null => cases hkind
    | bool b => cases b <;> cases hkind
    | number n' =>
      obtain ⟨rfl, hxy⟩ := number_unique (headNot_of_follows (fun _ => not_number_of_follow) hx)
        (headNot_of_follows (fun _ => not_number_of_follow) hy) h
      exact ⟨rfl, hxy⟩
    | string units => cases hkind
  | string units =>
    cases a' with
    | null => cases hkind
    | bool b => cases b <;> cases hkind
    | number n => cases hkind
    | string units' =>
      obtain ⟨rfl, hxy⟩ := string_unique h
      exact ⟨rfl, hxy⟩

/-! ## Trees -/

/-- All gaps of the tree are white space of JSON. -/
def BlankGaps {p : Part} (s : PlainSyn p) : Prop :=
  s.All (fun gap => ∀ b ∈ gap, isJsonSpace b = true) (fun _ => True)
    (fun gap => ∀ b ∈ gap, isJsonSpace b = true) (fun _ => True)

/-- Equal texts give equal trees and equal rests. The elements of a list are followed by
their bracket. -/
def UniqueSpec : (p : Part) → PlainSyn p → PlainSyn p → Prop
  | .value, s, s' => ∀ x y, Follows x → Follows y →
      s.text plainLexis ++ x = s'.text plainLexis ++ y → s = s' ∧ x = y
  | .items, s, s' => ∀ x y,
      s.text plainLexis ++ 93 :: x = s'.text plainLexis ++ 93 :: y → s = s' ∧ x = y
  | .members, s, s' => ∀ x y,
      s.text plainLexis ++ 125 :: x = s'.text plainLexis ++ 125 :: y → s = s' ∧ x = y

/-- A list with an element does not start like an empty one. -/
theorem items_head (s : PlainSyn .items) (hs : BlankGaps s) {g x y : List UInt8}
    (hg : ∀ b ∈ g, isJsonSpace b = true) (h : s.text plainLexis ++ x = g ++ 93 :: y) : False := by
  have hne : ∀ (v : PlainSyn .value) (before z : List UInt8), (∀ b ∈ before, isJsonSpace b = true) →
      before ++ (v.text plainLexis ++ z) ≠ g ++ 93 :: y := by
    intro v before z hbefore heq
    have hv := headNot_value v z
    have hrest := (gap_unique hbefore hg (headNot_space hv) (headNot_cons rfl) heq).2
    cases hv 93 y hrest
  cases s with
  | lastItem before v close =>
    simp only [Syn.text, List.append_assoc] at h
    exact hne v before _ hs.1 h
  | item before v after rest =>
    simp only [Syn.text, List.append_assoc] at h
    exact hne v before _ hs.1 h

theorem members_head (s : PlainSyn .members) (hs : BlankGaps s) {g x y : List UInt8}
    (hg : ∀ b ∈ g, isJsonSpace b = true) (h : s.text plainLexis ++ x = g ++ 125 :: y) : False := by
  have hne : ∀ (key : List StrUnit) (before z : List UInt8),
      (∀ b ∈ before, isJsonSpace b = true) → before ++ (stringText key ++ z) ≠ g ++ 125 :: y := by
    intro key before z hbefore heq
    have hkey : HeadNot isJsonSpace (stringText key ++ z) := headNot_cons rfl
    have hrest := (gap_unique hbefore hg hkey (headNot_cons rfl) heq).2
    exact absurd (List.cons.inj hrest).1 (by decide)
  cases s with
  | lastMember before key colon gap v close =>
    simp only [Syn.text, List.append_assoc] at h
    exact hne key before _ hs.1 h
  | member before key colon gap v after rest =>
    simp only [Syn.text, List.append_assoc] at h
    exact hne key before _ hs.1 h

section member

-- the pieces of a member up to its value
variable {before before' colon colon' gap gap' x x' : List UInt8} {key key' : List StrUnit}
  {v v' : PlainSyn .value}

theorem member_unique (hbefore : ∀ b ∈ before, isJsonSpace b = true)
    (hbefore' : ∀ b ∈ before', isJsonSpace b = true) (hcolon : ∀ b ∈ colon, isJsonSpace b = true)
    (hcolon' : ∀ b ∈ colon', isJsonSpace b = true) (hgap : ∀ b ∈ gap, isJsonSpace b = true)
    (hgap' : ∀ b ∈ gap', isJsonSpace b = true)
    (h : before ++ (stringText key ++ (colon ++ 58 :: (gap ++ (v.text plainLexis ++ x)))) =
      before' ++ (stringText key' ++ (colon' ++ 58 :: (gap' ++ (v'.text plainLexis ++ x'))))) :
    (before = before' ∧ key = key' ∧ colon = colon' ∧ gap = gap') ∧
      v.text plainLexis ++ x = v'.text plainLexis ++ x' := by
  have hkey : ∀ (key : List StrUnit) z, HeadNot isJsonSpace (stringText key ++ z) :=
    fun _ _ => headNot_cons rfl
  obtain ⟨h1, h⟩ := gap_unique hbefore hbefore' (hkey _ _) (hkey _ _) h
  obtain ⟨h2, h⟩ := string_unique h
  obtain ⟨h3, h⟩ := gap_unique hcolon hcolon' (headNot_cons rfl) (headNot_cons rfl) h
  obtain ⟨h4, h⟩ := gap_unique hgap hgap' (headNot_space (headNot_value _ _))
    (headNot_space (headNot_value _ _)) (List.cons.inj h).2
  exact ⟨⟨h1, h2, h3, h4⟩, h⟩

end member

theorem item_unique {before before' x x' : List UInt8} {v v' : PlainSyn .value}
    (hbefore : ∀ b ∈ before, isJsonSpace b = true) (hbefore' : ∀ b ∈ before', isJsonSpace b = true)
    (h : before ++ (v.text plainLexis ++ x) = before' ++ (v'.text plainLexis ++ x')) :
    before = before' ∧ v.text plainLexis ++ x = v'.text plainLexis ++ x' :=
  gap_unique hbefore hbefore' (headNot_space (headNot_value v x))
    (headNot_space (headNot_value v' x')) h

/-- A comma or a closing bracket. -/
def EndsValue (b : UInt8) : Prop :=
  isFollow b = true ∧ isJsonSpace b = false

/-- A gap, and the byte that ends it. -/
theorem close_unique {g g' x x' : List UInt8} {b b' : UInt8}
    (hg : ∀ b ∈ g, isJsonSpace b = true) (hg' : ∀ b ∈ g', isJsonSpace b = true)
    (hb : EndsValue b) (hb' : EndsValue b') (h : g ++ b :: x = g' ++ b' :: x') :
    g = g' ∧ b = b' ∧ x = x' := by
  obtain ⟨hgap, hrest⟩ := gap_unique hg hg' (headNot_cons hb.2) (headNot_cons hb'.2) h
  exact ⟨hgap, List.cons.inj hrest⟩

/-- A value, the gap after it and the byte that ends it. -/
theorem element_unique {v v' : PlainSyn .value} (hv : UniqueSpec .value v v')
    {g g' x x' : List UInt8} {b b' : UInt8} (hg : ∀ b ∈ g, isJsonSpace b = true)
    (hg' : ∀ b ∈ g', isJsonSpace b = true) (hb : EndsValue b) (hb' : EndsValue b')
    (h : v.text plainLexis ++ (g ++ b :: x) = v'.text plainLexis ++ (g' ++ b' :: x')) :
    v = v' ∧ g = g' ∧ b = b' ∧ x = x' := by
  obtain ⟨hvalue, hrest⟩ := hv _ _ (follows_gap hg (follows_cons hb.1))
    (follows_gap hg' (follows_cons hb'.1)) h
  exact ⟨hvalue, close_unique hg hg' hb hb' hrest⟩

theorem atom_kind_ne (a : Atom) : a.kind ≠ .array ∧ a.kind ≠ .object := by
  rcases a with _ | (_ | _) | _ | _ <;> exact ⟨by rintro ⟨⟩, by rintro ⟨⟩⟩

/-- Two strict trees with the same text are the same. -/
theorem tree_unique {p : Part} (s : PlainSyn p) (hs : BlankGaps s) (s' : PlainSyn p)
    (hs' : BlankGaps s') : UniqueSpec p s s' := by
  have hcut : ∀ {c : UInt8} {l l' : List UInt8}, c :: l = c :: l' → l = l' :=
    fun h => (List.cons.inj h).2
  have hbracket : EndsValue 93 := ⟨rfl, rfl⟩
  have hbrace : EndsValue 125 := ⟨rfl, rfl⟩
  have hcomma : EndsValue 44 := ⟨rfl, rfl⟩
  -- on the first tree: the second one has to have the same head
  induction s with
  | atom a =>
    intro x y hx hy h
    have hkind := kind_unique h
    cases s' with
    | atom a' =>
      obtain ⟨rfl, hxy⟩ := atom_unique hx hy h
      exact ⟨rfl, hxy⟩
    | emptyArray _ => exact absurd hkind (atom_kind_ne a).1
    | array _ => exact absurd hkind (atom_kind_ne a).1
    | emptyObject _ => exact absurd hkind (atom_kind_ne a).2
    | object _ => exact absurd hkind (atom_kind_ne a).2
  | emptyArray gap =>
    intro x y hx hy h
    have hkind := kind_unique h
    cases s' with
    | atom a => exact absurd hkind.symm (atom_kind_ne a).1
    | emptyArray gap' =>
      simp only [Syn.text, List.cons_append, List.append_assoc, List.nil_append] at h
      obtain ⟨rfl, -, rfl⟩ := close_unique hs hs' hbracket hbracket (hcut h)
      exact ⟨rfl, rfl⟩
    | array items =>
      simp only [Syn.text, List.cons_append, List.append_assoc, List.nil_append] at h
      exact (items_head items hs' hs (hcut h).symm).elim
    | emptyObject _ => cases hkind
    | object _ => cases hkind
  | array items ih =>
    intro x y hx hy h
    have hkind := kind_unique h
    cases s' with
    | atom a => exact absurd hkind.symm (atom_kind_ne a).1
    | emptyArray gap =>
      simp only [Syn.text, List.cons_append, List.append_assoc, List.nil_append] at h
      exact (items_head items hs hs' (hcut h)).elim
    | array items' =>
      simp only [Syn.text, List.cons_append, List.append_assoc, List.nil_append] at h
      obtain ⟨rfl, hxy⟩ := ih hs items' hs' x y (hcut h)
      exact ⟨rfl, hxy⟩
    | emptyObject _ => cases hkind
    | object _ => cases hkind
  | emptyObject gap =>
    intro x y hx hy h
    have hkind := kind_unique h
    cases s' with
    | atom a => exact absurd hkind.symm (atom_kind_ne a).2
    | emptyArray _ => cases hkind
    | array _ => cases hkind
    | emptyObject gap' =>
      simp only [Syn.text, List.cons_append, List.append_assoc, List.nil_append] at h
      obtain ⟨rfl, -, rfl⟩ := close_unique hs hs' hbrace hbrace (hcut h)
      exact ⟨rfl, rfl⟩
    | object members =>
      simp only [Syn.text, List.cons_append, List.append_assoc, List.nil_append] at h
      exact (members_head members hs' hs (hcut h).symm).elim
  | object members ih =>
    intro x y hx hy h
    have hkind := kind_unique h
    cases s' with
    | atom a => exact absurd hkind.symm (atom_kind_ne a).2
    | emptyArray _ => cases hkind
    | array _ => cases hkind
    | emptyObject gap =>
      simp only [Syn.text, List.cons_append, List.append_assoc, List.nil_append] at h
      exact (members_head members hs hs' (hcut h)).elim
    | object members' =>
      simp only [Syn.text, List.cons_append, List.append_assoc, List.nil_append] at h
      obtain ⟨rfl, hxy⟩ := ih hs members' hs' x y (hcut h)
      exact ⟨rfl, hxy⟩
  | lastItem before v close ih =>
    intro x y h
    obtain ⟨hbefore, hv, hclose⟩ := hs
    cases s' with
    | lastItem before' v' close' =>
      obtain ⟨hbefore', hv', hclose'⟩ := hs'
      simp only [Syn.text, List.append_assoc] at h
      obtain ⟨rfl, helement⟩ := item_unique hbefore hbefore' h
      obtain ⟨rfl, rfl, -, rfl⟩ :=
        element_unique (ih hv v' hv') hclose hclose' hbracket hbracket helement
      exact ⟨rfl, rfl⟩
    | item before' v' after' rest' =>
      obtain ⟨hbefore', hv', hafter', -⟩ := hs'
      simp only [Syn.text, List.append_assoc, List.cons_append] at h
      obtain ⟨rfl, helement⟩ := item_unique hbefore hbefore' h
      obtain ⟨-, -, hb, -⟩ := element_unique (ih hv v' hv') hclose hafter' hbracket hcomma helement
      exact absurd hb (by decide)
  | item before v after rest ihv ih =>
    intro x y h
    obtain ⟨hbefore, hv, hafter, hrest⟩ := hs
    cases s' with
    | lastItem before' v' close' =>
      obtain ⟨hbefore', hv', hclose'⟩ := hs'
      simp only [Syn.text, List.append_assoc, List.cons_append] at h
      obtain ⟨rfl, helement⟩ := item_unique hbefore hbefore' h
      obtain ⟨-, -, hb, -⟩ := element_unique (ihv hv v' hv') hafter hclose' hcomma hbracket helement
      exact absurd hb (by decide)
    | item before' v' after' rest' =>
      obtain ⟨hbefore', hv', hafter', hrest'⟩ := hs'
      simp only [Syn.text, List.append_assoc, List.cons_append] at h
      obtain ⟨rfl, helement⟩ := item_unique hbefore hbefore' h
      obtain ⟨rfl, rfl, -, htail⟩ :=
        element_unique (ihv hv v' hv') hafter hafter' hcomma hcomma helement
      obtain ⟨rfl, hxy⟩ := ih hrest rest' hrest' x y htail
      exact ⟨rfl, hxy⟩
  | lastMember before key colon gap v close ih =>
    intro x y h
    obtain ⟨hbefore, -, hcolon, hgap, hv, hclose⟩ := hs
    cases s' with
    | lastMember before' key' colon' gap' v' close' =>
      obtain ⟨hbefore', -, hcolon', hgap', hv', hclose'⟩ := hs'
      simp only [Syn.text, List.append_assoc, List.cons_append] at h
      obtain ⟨⟨rfl, rfl, rfl, rfl⟩, helement⟩ :=
        member_unique hbefore hbefore' hcolon hcolon' hgap hgap' h
      obtain ⟨rfl, rfl, -, rfl⟩ :=
        element_unique (ih hv v' hv') hclose hclose' hbrace hbrace helement
      exact ⟨rfl, rfl⟩
    | member before' key' colon' gap' v' after' rest' =>
      obtain ⟨hbefore', -, hcolon', hgap', hv', hafter', -⟩ := hs'
      simp only [Syn.text, List.append_assoc, List.cons_append] at h
      obtain ⟨-, helement⟩ := member_unique hbefore hbefore' hcolon hcolon' hgap hgap' h
      obtain ⟨-, -, hb, -⟩ := element_unique (ih hv v' hv') hclose hafter' hbrace hcomma helement
      exact absurd hb (by decide)
  | member before key colon gap v after rest ihv ih =>
    intro x y h
    obtain ⟨hbefore, -, hcolon, hgap, hv, hafter, hrest⟩ := hs
    cases s' with
    | lastMember before' key' colon' gap' v' close' =>
      obtain ⟨hbefore', -, hcolon', hgap', hv', hclose'⟩ := hs'
      simp only [Syn.text, List.append_assoc, List.cons_append] at h
      obtain ⟨-, helement⟩ := member_unique hbefore hbefore' hcolon hcolon' hgap hgap' h
      obtain ⟨-, -, hb, -⟩ := element_unique (ihv hv v' hv') hafter hclose' hcomma hbrace helement
      exact absurd hb (by decide)
    | member before' key' colon' gap' v' after' rest' =>
      obtain ⟨hbefore', -, hcolon', hgap', hv', hafter', hrest'⟩ := hs'
      simp only [Syn.text, List.append_assoc, List.cons_append] at h
      obtain ⟨⟨rfl, rfl, rfl, rfl⟩, helement⟩ :=
        member_unique hbefore hbefore' hcolon hcolon' hgap hgap' h
      obtain ⟨rfl, rfl, -, htail⟩ :=
        element_unique (ihv hv v' hv') hafter hafter' hcomma hcomma helement
      obtain ⟨rfl, hxy⟩ := ih hrest rest' hrest' x y htail
      exact ⟨rfl, hxy⟩

/-- A text is that of one tree at most. Its strings may have control bytes. -/
theorem plainText_unique {t t' : PlainText} (h : t.Spaces fun b => isJsonSpace b = true)
    (h' : t'.Spaces fun b => isJsonSpace b = true) (htext : t.text = t'.text) :
    t.tree = t'.tree := by
  obtain ⟨hlead, htree, htrail⟩ := h
  obtain ⟨hlead', htree', htrail'⟩ := h'
  simp only [PlainText.text, List.append_assoc] at htext
  obtain ⟨-, h1⟩ := item_unique hlead hlead' htext
  have hfollows : ∀ {g : List UInt8}, (∀ b ∈ g, isJsonSpace b = true) → Follows g := by
    intro g hg
    have hend := follows_gap hg (x := []) fun _ _ h => nomatch h
    rwa [List.append_nil] at hend
  exact (tree_unique t.tree htree t'.tree htree' _ _ (hfollows htrail) (hfollows htrail') h1).1

/-- A strict text denotes at most one value. -/
theorem denotesStrictly_unique {text : List UInt8} {v v' : Json} (h : DenotesStrictly text v)
    (h' : DenotesStrictly text v') : v = v' := by
  obtain ⟨t, hspaces, -, rfl, rfl⟩ := h
  obtain ⟨t', hspaces', -, htext, rfl⟩ := h'
  rw [PlainText.value, PlainText.value, plainText_unique hspaces hspaces' htext.symm]

open Classical in
/-- The reader of strict JSON: the value that the text denotes. -/
noncomputable def strictRead (text : List UInt8) : Option Json :=
  if h : ∃ v, DenotesStrictly text v then some h.choose else none

theorem strictRead_eq_some {text : List UInt8} {v : Json} :
    strictRead text = some v ↔ DenotesStrictly text v := by
  constructor
  · intro h
    rw [strictRead] at h
    split at h
    case isTrue hv => exact Option.some.inj h ▸ hv.choose_spec
    case isFalse => cases h
  · intro h
    have hv : ∃ v, DenotesStrictly text v := ⟨v, h⟩
    rw [strictRead, dif_pos hv, denotesStrictly_unique hv.choose_spec h]

end JsonText
