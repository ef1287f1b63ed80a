import Mathlib.Data.List.Basic

/-!
# JSON texts as trees with their layout

`Syn` is the syntax tree of a text of the JSON family. What stands between the tokens, the
keys, the closings of lists and the scalars are parameters, so that one tree type serves a
dialect, the texts between the passes of a translation, strict JSON, and the value itself:
a value is the tree without layout. A pass that rewrites the pieces of a text is a `map`.

* `Syn.text` renders a tree, `Syn.map` rewrites its pieces, `Syn.All` speaks about them.
* `forall_mem_text`: a property of all bytes of a text is one of its pieces.
* `DenotesStrictly` is strict JSON as a relation of texts and values. Bytes from 0x80 on stand
  for themselves, and a string has no control byte.
-/

namespace JsonText

/-! ## Scalars -/

/-- A byte that can stand for itself in a string literal. Strict JSON has fewer of them
(`StrUnit.Strict`). -/
def isRaw (b : UInt8) : Bool :=
  b != 0 && b != 34 && b != 92

def isHexDigit (b : UInt8) : Bool :=
  (48 ≤ b && b ≤ 57) || (65 ≤ b && b ≤ 70) || (97 ≤ b && b ≤ 102)

def hexValue (b : UInt8) : Nat :=
  if b ≤ 57 then b.toNat - 48 else if b ≤ 70 then b.toNat - 55 else b.toNat - 87

/-- The letter after the backslash. -/
inductive Escape
  | quote
  | backslash
  | slash
  | backspace
  | formFeed
  | lineFeed
  | carriageReturn
  | tab

def Escape.letter : Escape → UInt8
  | .quote => 34
  | .backslash => 92
  | .slash => 47
  | .backspace => 98
  | .formFeed => 102
  | .lineFeed => 110
  | .carriageReturn => 114
  | .tab => 116

def Escape.byte : Escape → UInt8
  | .quote => 34
  | .backslash => 92
  | .slash => 47
  | .backspace => 8
  | .formFeed => 12
  | .lineFeed => 10
  | .carriageReturn => 13
  | .tab => 9

/-- A part of a string literal. -/
inductive StrUnit
  | raw (b : UInt8) (h : isRaw b = true)
  | escape (e : Escape)
  | unicode (a b c d : UInt8) (h : [a, b, c, d].all isHexDigit = true)

def StrUnit.text : StrUnit → List UInt8
  | .raw b _ => [b]
  | .escape e => [92, e.letter]
  | .unicode a b c d _ => [92, 117, a, b, c, d]

/-- In strict JSON a control byte does not stand for itself. -/
def StrUnit.Strict : StrUnit → Prop
  | .raw b _ => 32 ≤ b
  | _ => True

def StrictString (units : List StrUnit) : Prop :=
  ∀ u ∈ units, u.Strict

/-- The UTF-8 bytes of a code point. -/
def utf8 (n : Nat) : List UInt8 :=
  if n < 0x80 then [n.toUInt8]
  else if n < 0x800 then [(0xC0 + n / 64).toUInt8, (0x80 + n % 64).toUInt8]
  else if n < 0x10000 then
    [(0xE0 + n / 4096).toUInt8, (0x80 + n / 64 % 64).toUInt8, (0x80 + n % 64).toUInt8]
  else
    [(0xF0 + n / 262144).toUInt8, (0x80 + n / 4096 % 64).toUInt8, (0x80 + n / 64 % 64).toUInt8,
      (0x80 + n % 64).toUInt8]

/-- The UTF-16 code unit of a unicode escape. -/
def StrUnit.codeUnit : StrUnit → Option Nat
  | .unicode a b c d _ =>
    some (((hexValue a * 16 + hexValue b) * 16 + hexValue c) * 16 + hexValue d)
  | _ => none

/-- The bytes of a part on its own. A surrogate without its partner stands for the
replacement character. -/
def StrUnit.bytes : StrUnit → List UInt8
  | .raw b _ => [b]
  | .escape e => [e.byte]
  | u => u.codeUnit.elim [] fun n => utf8 (if 0xD800 ≤ n ∧ n < 0xE000 then 0xFFFD else n)

/-- The code point of a surrogate pair. -/
def surrogatePair (u v : StrUnit) : Option Nat :=
  match u.codeUnit, v.codeUnit with
  | some high, some low =>
    if 0xD800 ≤ high ∧ high < 0xDC00 ∧ 0xDC00 ≤ low ∧ low < 0xE000 then
      some (0x10000 + (high - 0xD800) * 1024 + (low - 0xDC00))
    else none
  | _, _ => none

/-- The contents of a string literal. -/
def content : List StrUnit → List UInt8
  | [] => []
  | [u] => u.bytes
  | u :: v :: rest =>
    match surrogatePair u v with
    | some point => utf8 point ++ content rest
    | none => u.bytes ++ content (v :: rest)

/-- A string literal with its quotes. -/
def stringText (units : List StrUnit) : List UInt8 :=
  34 :: units.flatMap StrUnit.text ++ [34]

def digitByte (d : Fin 10) : UInt8 :=
  48 + d.val.toUInt8

/-- The digits before the point: no leading zero. -/
inductive IntDigits
  | zero
  | positive (first : Fin 9) (rest : List (Fin 10))

def IntDigits.digits : IntDigits → List (Fin 10)
  | .zero => [0]
  | .positive first rest => first.succ :: rest

structure Fraction where
  first : Fin 10
  rest : List (Fin 10)

structure Exponent where
  capital : Bool
  sign : Option Bool
  first : Fin 10
  rest : List (Fin 10)

/-- A number literal. -/
structure Number where
  negative : Bool
  int : IntDigits
  fraction : Option Fraction
  exponent : Option Exponent

def Fraction.text (f : Fraction) : List UInt8 :=
  46 :: (f.first :: f.rest).map digitByte

def Exponent.text (e : Exponent) : List UInt8 :=
  (if e.capital then 69 else 101) ::
    (e.sign.elim [] fun minus => [if minus then 45 else 43]) ++ (e.first :: e.rest).map digitByte

def Number.text (n : Number) : List UInt8 :=
  (if n.negative then [45] else []) ++ n.int.digits.map digitByte ++
    n.fraction.elim [] Fraction.text ++ n.exponent.elim [] Exponent.text

/-- A scalar as it is written. -/
inductive Atom
  | null
  | bool (b : Bool)
  | number (n : Number)
  | string (units : List StrUnit)

def Atom.text : Atom → List UInt8
  | .null => [110, 117, 108, 108]
  | .bool true => [116, 114, 117, 101]
  | .bool false => [102, 97, 108, 115, 101]
  | .number n => n.text
  | .string units => stringText units

def Atom.Strict : Atom → Prop
  | .string units => StrictString units
  | _ => True

/-- A scalar value. A number is its literal. -/
inductive Scalar
  | null
  | bool (b : Bool)
  | number (n : Number)
  | string (content : List UInt8)

def Atom.value : Atom → Scalar
  | .null => .null
  | .bool b => .bool b
  | .number n => .number n
  | .string units => .string (content units)

/-! ## The bytes of scalars -/

section bytes

variable {P : UInt8 → Prop}

theorem forall_mem_digits (hdigit : ∀ d, P (digitByte d)) (ds : List (Fin 10)) :
    ∀ b ∈ ds.map digitByte, P b := by
  intro b hb
  obtain ⟨d, -, rfl⟩ := List.mem_map.mp hb
  exact hdigit d

theorem forall_mem_number (hdigit : ∀ d, P (digitByte d))
    (hsign : ∀ b ∈ [45, 43, 46, 69, 101], P b) (n : Number) : ∀ b ∈ n.text, P b := by
  simp only [List.forall_mem_cons] at hsign
  obtain ⟨hminus, hplus, hpoint, hcapital, hsmall, -⟩ := hsign
  simp only [Number.text, List.forall_mem_append]
  refine ⟨⟨⟨?_, forall_mem_digits hdigit _⟩, ?_⟩, ?_⟩
  · split
    · exact List.forall_mem_singleton.mpr hminus
    · exact fun b hb => nomatch hb
  · cases n.fraction with
    | none => exact fun b hb => nomatch hb
    | some f => exact List.forall_mem_cons.mpr ⟨hpoint, forall_mem_digits hdigit _⟩
  · cases n.exponent with
    | none => exact fun b hb => nomatch hb
    | some e =>
      simp only [Option.elim_some, Exponent.text, List.forall_mem_append, List.forall_mem_cons]
      refine ⟨⟨?_, ?_⟩, forall_mem_digits hdigit (e.first :: e.rest)⟩
      · split
        · exact hcapital
        · exact hsmall
      · cases e.sign with
        | none => exact fun b hb => nomatch hb
        | some minus =>
          cases minus with
          | true => exact List.forall_mem_singleton.mpr hminus
          | false => exact List.forall_mem_singleton.mpr hplus

theorem le_of_isHexDigit {b : UInt8} (h : isHexDigit b = true) : 32 ≤ b := by
  simp only [isHexDigit, Bool.and_eq_true, Bool.or_eq_true, decide_eq_true_eq] at h
  grind

/-- A strict string literal has no control byte. -/
theorem forall_mem_string (hraw : ∀ b, 32 ≤ b → P b) {units : List StrUnit}
    (hunits : StrictString units) : ∀ b ∈ stringText units, P b := by
  have hunit : ∀ u ∈ units, ∀ b ∈ u.text, P b := by
    intro u hu
    have hstrict := hunits u hu
    cases u with
    | raw b h => exact List.forall_mem_singleton.mpr (hraw b hstrict)
    | escape e =>
      refine List.forall_mem_cons.mpr ⟨hraw 92 (by decide), List.forall_mem_singleton.mpr ?_⟩
      cases e <;> exact hraw _ (by decide)
    | unicode a b c d h =>
      simp only [List.all_cons, List.all_nil, Bool.and_eq_true, Bool.and_true] at h
      have hhex : ∀ x, isHexDigit x = true → P x := fun x hx => hraw x (le_of_isHexDigit hx)
      simp only [StrUnit.text, List.forall_mem_cons]
      exact ⟨hraw 92 (by decide), hraw 117 (by decide), hhex a h.1, hhex b h.2.1, hhex c h.2.2.1,
        hhex d h.2.2.2, fun x hx => nomatch hx⟩
  simp only [stringText, List.forall_mem_cons, List.forall_mem_append, List.mem_flatMap]
  refine ⟨⟨hraw 34 (by decide), ?_⟩, hraw 34 (by decide), fun b hb => nomatch hb⟩
  rintro b ⟨u, hu, hb⟩
  exact hunit u hu b hb

end bytes

/-! ## Trees -/

/-- What a tree stands for: a value, the elements of an array, the members of an object. -/
inductive Part
  | value
  | items
  | members

/-- Trees with gaps `γ`, keys `κ`, closings `τ` and scalars `α`. A closing is what stands
between the last element and the bracket. -/
inductive Syn (γ κ τ α : Type) : Part → Type
  | atom (a : α) : Syn γ κ τ α .value
  | emptyArray (gap : γ) : Syn γ κ τ α .value
  | array (items : Syn γ κ τ α .items) : Syn γ κ τ α .value
  | emptyObject (gap : γ) : Syn γ κ τ α .value
  | object (members : Syn γ κ τ α .members) : Syn γ κ τ α .value
  | lastItem (before : γ) (v : Syn γ κ τ α .value) (close : τ) : Syn γ κ τ α .items
  | item (before : γ) (v : Syn γ κ τ α .value) (after : γ) (rest : Syn γ κ τ α .items) :
      Syn γ κ τ α .items
  | lastMember (before : γ) (key : κ) (colon gap : γ) (v : Syn γ κ τ α .value) (close : τ) :
      Syn γ κ τ α .members
  | member (before : γ) (key : κ) (colon gap : γ) (v : Syn γ κ τ α .value) (after : γ)
      (rest : Syn γ κ τ α .members) : Syn γ κ τ α .members

/-- How the pieces of a tree are written. -/
structure Lexis (γ κ τ α : Type) where
  gap : γ → List UInt8
  key : κ → List UInt8
  close : τ → List UInt8
  atom : α → List UInt8

section trees

variable {γ κ τ α γ' κ' τ' α' γ'' κ'' τ'' α'' : Type} {p : Part}

namespace Syn

/-- The text of a tree. -/
def text (L : Lexis γ κ τ α) {p : Part} : Syn γ κ τ α p → List UInt8
  | .atom a => L.atom a
  | .emptyArray gap => 91 :: L.gap gap ++ [93]
  | .array items => 91 :: items.text L ++ [93]
  | .emptyObject gap => 123 :: L.gap gap ++ [125]
  | .object members => 123 :: members.text L ++ [125]
  | .lastItem before v close => L.gap before ++ v.text L ++ L.close close
  | .item before v after rest => L.gap before ++ v.text L ++ L.gap after ++ 44 :: rest.text L
  | .lastMember before key colon gap v close =>
    L.gap before ++ L.key key ++ L.gap colon ++ 58 :: (L.gap gap ++ v.text L ++ L.close close)
  | .member before key colon gap v after rest =>
    L.gap before ++ L.key key ++ L.gap colon ++
      58 :: (L.gap gap ++ v.text L ++ L.gap after ++ 44 :: rest.text L)

/-- Rewrite every piece. -/
def map (g : γ → γ') (k : κ → κ') (c : τ → τ') (a : α → α') {p : Part} :
    Syn γ κ τ α p → Syn γ' κ' τ' α' p
  | .atom x => .atom (a x)
  | .emptyArray gap => .emptyArray (g gap)
  | .array items => .array (items.map g k c a)
  | .emptyObject gap => .emptyObject (g gap)
  | .object members => .object (members.map g k c a)
  | .lastItem before v close => .lastItem (g before) (v.map g k c a) (c close)
  | .item before v after rest => .item (g before) (v.map g k c a) (g after) (rest.map g k c a)
  | .lastMember before key colon gap v close =>
    .lastMember (g before) (k key) (g colon) (g gap) (v.map g k c a) (c close)
  | .member before key colon gap v after rest =>
    .member (g before) (k key) (g colon) (g gap) (v.map g k c a) (g after) (rest.map g k c a)

/-- The nesting depth. -/
def depth {p : Part} : Syn γ κ τ α p → Nat
  | .atom _ => 0
  | .emptyArray _ => 1
  | .array items => items.depth + 1
  | .emptyObject _ => 1
  | .object members => members.depth + 1
  | .lastItem _ v _ => v.depth
  | .item _ v _ rest => max v.depth rest.depth
  | .lastMember _ _ _ _ v _ => v.depth
  | .member _ _ _ _ v _ rest => max v.depth rest.depth

/-- Every gap is in `G`, every key in `K`, every closing in `C` and every scalar in `A`. -/
def All (G : γ → Prop) (K : κ → Prop) (C : τ → Prop) (A : α → Prop) {p : Part} :
    Syn γ κ τ α p → Prop
  | .atom x => A x
  | .emptyArray gap => G gap
  | .array items => items.All G K C A
  | .emptyObject gap => G gap
  | .object members => members.All G K C A
  | .lastItem before v close => G before ∧ v.All G K C A ∧ C close
  | .item before v after rest => G before ∧ v.All G K C A ∧ G after ∧ rest.All G K C A
  | .lastMember before key colon gap v close =>
    G before ∧ K key ∧ G colon ∧ G gap ∧ v.All G K C A ∧ C close
  | .member before key colon gap v after rest =>
    G before ∧ K key ∧ G colon ∧ G gap ∧ v.All G K C A ∧ G after ∧ rest.All G K C A

end Syn

theorem depth_map (g : γ → γ') (k : κ → κ') (c : τ → τ') (a : α → α') (s : Syn γ κ τ α p) :
    (s.map g k c a).depth = s.depth := by
  induction s <;> simp [Syn.map, Syn.depth, *]

theorem map_map (g : γ → γ') (k : κ → κ') (c : τ → τ') (a : α → α') (g' : γ' → γ'')
    (k' : κ' → κ'') (c' : τ' → τ'') (a' : α' → α'') (s : Syn γ κ τ α p) :
    (s.map g k c a).map g' k' c' a' =
      s.map (fun x => g' (g x)) (fun x => k' (k x)) (fun x => c' (c x)) (fun x => a' (a x)) := by
  induction s <;> simp [Syn.map, *]

theorem all_map (g : γ → γ') (k : κ → κ') (c : τ → τ') (a : α → α') {G : γ' → Prop}
    {K : κ' → Prop} {C : τ' → Prop} {A : α' → Prop} (s : Syn γ κ τ α p) :
    (s.map g k c a).All G K C A ↔
      s.All (fun x => G (g x)) (fun x => K (k x)) (fun x => C (c x)) fun x => A (a x) := by
  induction s <;> simp [Syn.map, Syn.All, *]

/-- What holds of all bytes of a text holds of the bytes of its pieces, and back if it holds
of the punctuation. -/
theorem forall_mem_text {P : UInt8 → Prop} (hpunct : ∀ b ∈ [91, 93, 123, 125, 44, 58], P b)
    (L : Lexis γ κ τ α) (s : Syn γ κ τ α p) :
    (∀ b ∈ s.text L, P b) ↔
      s.All (fun x => ∀ b ∈ L.gap x, P b) (fun x => ∀ b ∈ L.key x, P b)
        (fun x => ∀ b ∈ L.close x, P b) fun x => ∀ b ∈ L.atom x, P b := by
  simp only [List.forall_mem_cons] at hpunct
  induction s <;>
    simp only [Syn.text, Syn.All, List.forall_mem_append, List.forall_mem_cons, *] <;>
    simp [and_assoc]

theorem all_mono {G G' : γ → Prop} {K K' : κ → Prop} {C C' : τ → Prop} {A A' : α → Prop}
    (hG : ∀ x, G x → G' x) (hK : ∀ x, K x → K' x) (hC : ∀ x, C x → C' x) (hA : ∀ x, A x → A' x)
    (s : Syn γ κ τ α p) (h : s.All G K C A) : s.All G' K' C' A' := by
  induction s <;> simp_all [Syn.All]

theorem all_and {G G' : γ → Prop} {K K' : κ → Prop} {C C' : τ → Prop} {A A' : α → Prop}
    (s : Syn γ κ τ α p) : s.All (fun x => G x ∧ G' x) (fun x => K x ∧ K' x) (fun x => C x ∧ C' x)
      (fun x => A x ∧ A' x) ↔ s.All G K C A ∧ s.All G' K' C' A' := by
  induction s <;> simp only [Syn.All, *] <;> grind

theorem all_of_forall {G : γ → Prop} {K : κ → Prop} {C : τ → Prop} {A : α → Prop}
    (hG : ∀ x, G x) (hK : ∀ x, K x) (hC : ∀ x, C x) (hA : ∀ x, A x) (s : Syn γ κ τ α p) :
    s.All G K C A := by
  induction s <;> simp_all [Syn.All]

/-- A pass over the bytes that copies the punctuation and rewrites each piece rewrites the
tree. -/
theorem pass_text {f : List UInt8 → List UInt8} {L : Lexis γ κ τ α} {L' : Lexis γ' κ' τ' α'}
    {g : γ → γ'} {k : κ → κ'} {c : τ → τ'} {a : α → α'}
    (hpunct : ∀ b ∈ [91, 93, 123, 125, 44, 58], ∀ text, f (b :: text) = b :: f text)
    (hgap : ∀ x rest, f (L.gap x ++ rest) = L'.gap (g x) ++ f rest)
    (hkey : ∀ x rest, f (L.key x ++ rest) = L'.key (k x) ++ f rest)
    (hclose : ∀ x rest, f (L.close x ++ rest) = L'.close (c x) ++ f rest)
    (hatom : ∀ x rest, f (L.atom x ++ rest) = L'.atom (a x) ++ f rest)
    (s : Syn γ κ τ α p) (rest : List UInt8) :
    f (s.text L ++ rest) = (s.map g k c a).text L' ++ f rest := by
  simp only [List.forall_mem_cons, List.not_mem_nil, IsEmpty.forall_iff, implies_true,
    and_true] at hpunct
  obtain ⟨h91, h93, h123, h125, h44, h58⟩ := hpunct
  induction s generalizing rest <;>
    simp only [Syn.text, Syn.map, List.append_assoc, List.cons_append, List.nil_append, *]

end trees

/-! ## Strict JSON -/

/-- The white space of JSON. -/
def isJsonSpace (b : UInt8) : Bool :=
  b == 32 || b == 9 || b == 10 || b == 13

/-- A value: the tree without layout, with decoded keys and strings. -/
abbrev Json := Syn Unit (List UInt8) Unit Scalar .value

/-- The tree of a text with quoted keys and blank gaps, and what it stands for. -/
abbrev PlainSyn := Syn (List UInt8) (List StrUnit) (List UInt8) Atom

def plainLexis : Lexis (List UInt8) (List StrUnit) (List UInt8) Atom where
  gap := id
  key := stringText
  close := id
  atom := Atom.text

/-- A text with quoted keys, without comments and trailing commas. -/
structure PlainText where
  lead : List UInt8
  tree : PlainSyn .value
  trail : List UInt8

def PlainText.text (t : PlainText) : List UInt8 :=
  t.lead ++ t.tree.text plainLexis ++ t.trail

def PlainText.value (t : PlainText) : Json :=
  t.tree.map (fun _ => ()) content (fun _ => ()) Atom.value

/-- All gaps consist of bytes in `S`. -/
def PlainText.Spaces (S : UInt8 → Prop) (t : PlainText) : Prop :=
  (∀ b ∈ t.lead, S b) ∧
    t.tree.All (fun gap => ∀ b ∈ gap, S b) (fun _ => True) (fun gap => ∀ b ∈ gap, S b)
      (fun _ => True) ∧
    ∀ b ∈ t.trail, S b

/-- All strings and keys are strict. -/
def PlainText.Strings (t : PlainText) : Prop :=
  t.tree.All (fun _ => True) StrictString (fun _ => True) Atom.Strict

/-- `text` is strict JSON for the value `v`. -/
def DenotesStrictly (text : List UInt8) (v : Json) : Prop :=
  ∃ t : PlainText, t.Spaces (fun b => isJsonSpace b = true) ∧ t.Strings ∧ t.text = text ∧
    t.value = v

end JsonText
