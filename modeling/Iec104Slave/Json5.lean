import Iec104Slave.Lib.CString
import Iec104Slave.Lib.JsonUnique

/-!
# JSON5 preprocessing (`preprocess_json5`)

The configuration file is JSON with comments, bare keys and trailing commas. Three passes
over the bytes make strict JSON of it: the first drops the comments, the second puts bare
keys into quotes, the third drops the trailing commas. Each one tracks the string literals
for itself.

A text of the dialect is a tree whose gaps have blanks and comments, whose keys are quoted
or bare, and whose closings may have a comma. Each pass rewrites the pieces of the tree
that it is for.

The passes take every byte of `isspace` for white space, but copy it as it is. JSON has no
vertical tab and no form feed, so a text with one of them between its tokens does not
become JSON (`form_feed_not_json`). A string literal is copied whatever it has between its
quotes, and JSON has no control byte there.

Results:
1. `strip_text`, `quote_text`, `commas_text`: each pass as a map of the tree.
2. `preprocess_text`: the three passes together.
3. `preprocess_json5_strict_iff`: the result is strict JSON for the same value, exactly when
   no vertical tab and no form feed stands between the tokens and no control byte in a string.
-/

namespace Iec104Slave

open CString JsonText

/-! ## The passes -/

/-- Where a pass is in the text: `in_string` and `escape`. -/
inductive ScanMode
  | code
  | string
  | escape
deriving DecidableEq

/-- The mode after a byte of a string literal. -/
def afterStringByte (c : UInt8) : ScanMode :=
  if c = 92 then .escape else if c = 34 then .code else .string

def isEol (c : UInt8) : Bool :=
  c == 10 || c == 13

/-- Where `strip_json5_comments` is. `line` and `block` are its inner loops; with `skip` the
loop passes over the second byte of a comment mark. -/
inductive StripMode
  | plain (mode : ScanMode)
  | line (skip : Bool)
  | block (skip : Bool)
  | endBlock

/-- `strip_json5_comments`, from a byte on. -/
def stripJson5Comments : StripMode → List UInt8 → List UInt8
  | _, [] => []
  | .plain .string, c :: text => c :: stripJson5Comments (.plain (afterStringByte c)) text
  | .plain .escape, c :: text => c :: stripJson5Comments (.plain .string) text
  | .plain .code, c :: text =>
    if c = 34 then c :: stripJson5Comments (.plain .string) text
    else if c = 47 ∧ text.head? = some 47 then stripJson5Comments (.line true) text
    else if c = 47 ∧ text.head? = some 42 then stripJson5Comments (.block true) text
    else c :: stripJson5Comments (.plain .code) text
  | .line true, _ :: text => stripJson5Comments (.line false) text
  | .line false, c :: text =>
    if isEol c then c :: stripJson5Comments (.plain .code) text
    else stripJson5Comments (.line false) text
  | .block true, _ :: text => stripJson5Comments (.block false) text
  | .block false, c :: text =>
    if c = 42 ∧ text.head? = some 47 then stripJson5Comments .endBlock text
    else if isEol c then c :: stripJson5Comments (.block false) text
    else stripJson5Comments (.block false) text
  | .endBlock, _ :: text => stripJson5Comments (.plain .code) text

def isalpha (c : UInt8) : Bool :=
  (65 ≤ c && c ≤ 90) || (97 ≤ c && c ≤ 122)

def isdigit (c : UInt8) : Bool :=
  48 ≤ c && c ≤ 57

/-- `is_json5_key_start`. -/
def isJson5KeyStart (c : UInt8) : Bool :=
  isalpha c || c == 95 || c == 36

/-- `is_json5_key_char`. -/
def isJson5KeyChar (c : UInt8) : Bool :=
  isalpha c || isdigit c || c == 95 || c == 36 || c == 45

/-- An entry of `stack`, with its `expect_key`. -/
inductive Frame
  | object (expectKey : Bool)
  | array
deriving DecidableEq

/-- The stack has room for 128 frames; a deeper one is not recorded. -/
def pushFrame (frame : Frame) (stack : List Frame) : List Frame :=
  if stack.length < 128 then frame :: stack else stack

/-- Where `quote_json5_keys` is: `key n` has `n` more bytes of a key to copy. -/
inductive QuoteMode
  | plain (mode : ScanMode)
  | key (left : Nat)

/-- The key that starts before `text` is followed by a colon. -/
def colonFollows (text : List UInt8) : Bool :=
  ((text.dropWhile isJson5KeyChar).dropWhile isspace).head? == some 58

/-- `quote_json5_keys`, from a byte on. -/
def quoteJson5Keys : List Frame → QuoteMode → List UInt8 → List UInt8
  | _, _, [] => []
  | stack, .plain .string, c :: text =>
    c :: quoteJson5Keys stack (.plain (afterStringByte c)) text
  | stack, .plain .escape, c :: text => c :: quoteJson5Keys stack (.plain .string) text
  | stack, .key left, c :: text =>
    c :: if left = 1 then 34 :: quoteJson5Keys stack (.plain .code) text
      else quoteJson5Keys stack (.key (left - 1)) text
  | stack, .plain .code, c :: text =>
    if c = 34 then c :: quoteJson5Keys stack (.plain .string) text
    else if c = 123 then c :: quoteJson5Keys (pushFrame (.object true) stack) (.plain .code) text
    else if c = 91 then c :: quoteJson5Keys (pushFrame .array stack) (.plain .code) text
    else if c = 125 ∨ c = 93 then c :: quoteJson5Keys stack.tail (.plain .code) text
    else
      match stack with
      | .object expectKey :: below =>
        if c = 44 then c :: quoteJson5Keys (.object true :: below) (.plain .code) text
        else if c = 58 then c :: quoteJson5Keys (.object false :: below) (.plain .code) text
        else if expectKey ∧ isJson5KeyStart c ∧ colonFollows text then
          let left := (text.takeWhile isJson5KeyChar).length
          34 :: c :: if left = 0 then 34 :: quoteJson5Keys stack (.plain .code) text
            else quoteJson5Keys stack (.key left) text
        else c :: quoteJson5Keys stack (.plain .code) text
      | _ => c :: quoteJson5Keys stack (.plain .code) text

/-- A closing bracket is the next byte that is not white space. -/
def closingFollows (text : List UInt8) : Bool :=
  (text.dropWhile isspace).head?.any fun c => c == 125 || c == 93

/-- `remove_trailing_commas`, from a byte on. -/
def removeTrailingCommas : ScanMode → List UInt8 → List UInt8
  | _, [] => []
  | .string, c :: text => c :: removeTrailingCommas (afterStringByte c) text
  | .escape, c :: text => c :: removeTrailingCommas .string text
  | .code, c :: text =>
    if c = 34 then c :: removeTrailingCommas .string text
    else if c = 44 ∧ closingFollows text then removeTrailingCommas .code text
    else c :: removeTrailingCommas .code text

/-- `preprocess_json5`. -/
def preprocessJson5 (text : List UInt8) : List UInt8 :=
  let noComments := stripJson5Comments (.plain .code) text
  let quotedKeys := quoteJson5Keys [] (.plain .code) noComments
  removeTrailingCommas .code quotedKeys

/-! ## The dialect -/

/-- The text does not close a block comment. -/
def noBlockEnd : List UInt8 → Bool
  | [] => true
  | c :: text => !(c == 42 && text.head? == some 47) && noBlockEnd text

/-- A part of what stands between two tokens. -/
inductive GapItem
  | space (b : UInt8) (h : isspace b = true)
  | line (body : List UInt8) (eol : UInt8) (hbody : body.all (fun b => !isEol b) = true)
      (heol : isEol eol = true)
  | block (body : List UInt8) (hbody : noBlockEnd body = true)

def GapItem.text : GapItem → List UInt8
  | .space b _ => [b]
  | .line body eol _ _ => 47 :: 47 :: body ++ [eol]
  | .block body _ => 47 :: 42 :: body ++ [42, 47]

def gapText (gap : List GapItem) : List UInt8 :=
  gap.flatMap GapItem.text

/-- An object key. -/
inductive Json5Key
  | quoted (units : List StrUnit)
  | bare (first : UInt8) (rest : List UInt8) (hfirst : isJson5KeyStart first = true)
      (hrest : rest.all isJson5KeyChar = true)

def Json5Key.text : Json5Key → List UInt8
  | .quoted units => stringText units
  | .bare first rest _ _ => first :: rest

def Json5Key.content : Json5Key → List UInt8
  | .quoted units => JsonText.content units
  | .bare first rest _ _ => first :: rest

/-- What stands after the last element: a gap, or a gap, a comma and a gap. -/
structure Closing (γ : Type) where
  after : γ
  comma : Option γ

def Closing.text {γ : Type} (gap : γ → List UInt8) (c : Closing γ) : List UInt8 :=
  gap c.after ++ c.comma.elim [] fun g => 44 :: gap g

def json5Lexis : Lexis (List GapItem) Json5Key (Closing (List GapItem)) Atom where
  gap := gapText
  key := Json5Key.text
  close := Closing.text gapText
  atom := Atom.text

/-- A text of the dialect. The last line may be a comment without an end of line. -/
structure Json5Text where
  lead : List GapItem
  tree : Syn (List GapItem) Json5Key (Closing (List GapItem)) Atom .value
  trail : List GapItem
  comment : Option { body : List UInt8 // body.all (fun b => !isEol b) = true }

def Json5Text.text (t : Json5Text) : List UInt8 :=
  gapText t.lead ++ t.tree.text json5Lexis ++ gapText t.trail ++
    t.comment.elim [] fun c => 47 :: 47 :: c.val

/-- The value that the text renders. -/
def Json5Text.value (t : Json5Text) : Json :=
  t.tree.map (fun _ => ()) Json5Key.content (fun _ => ()) Atom.value

/-- The blanks of the gap are white space of JSON. Comments may have any bytes. -/
def JsonGap (gap : List GapItem) : Prop :=
  ∀ item ∈ gap, ∀ b h, item = .space b h → isJsonSpace b = true

def JsonClosing (c : Closing (List GapItem)) : Prop :=
  JsonGap c.after ∧ ∀ g ∈ c.comma, JsonGap g

/-- No vertical tab and no form feed stands between the tokens. -/
def Json5Text.JsonSpaces (t : Json5Text) : Prop :=
  JsonGap t.lead ∧ t.tree.All JsonGap (fun _ => True) JsonClosing (fun _ => True) ∧ JsonGap t.trail

/-- A bare key has no control byte. -/
def Json5Key.Strict : Json5Key → Prop
  | .quoted units => StrictString units
  | .bare _ _ _ _ => True

/-- No control byte stands for itself in a string or in a quoted key. -/
def Json5Text.JsonStrings (t : Json5Text) : Prop :=
  t.tree.All (fun _ => True) Json5Key.Strict (fun _ => True) Atom.Strict

/-! ## The texts between the passes -/

/-- A byte that the passes take for white space. -/
abbrev Space := { b : UInt8 // isspace b = true }

def spaceText (gap : List Space) : List UInt8 :=
  gap.map Subtype.val

theorem isspace_of_isEol {b : UInt8} (h : isEol b = true) : isspace b = true := by
  simp only [isEol, Bool.or_eq_true, beq_iff_eq] at h
  rcases h with rfl | rfl <;> decide

/-- The ends of lines in a comment. -/
def eols (body : List UInt8) : List Space :=
  body.filterMap fun b => if h : isEol b = true then some ⟨b, isspace_of_isEol h⟩ else none

/-- What the first pass leaves of a gap: the blanks, and the ends of lines of the comments. -/
def GapItem.blanks : GapItem → List Space
  | .space b h => [⟨b, h⟩]
  | .line _ eol _ heol => [⟨eol, isspace_of_isEol heol⟩]
  | .block body _ => eols body

def gapBlanks (gap : List GapItem) : List Space :=
  gap.flatMap GapItem.blanks

def Closing.map {γ γ' : Type} (g : γ → γ') (c : Closing γ) : Closing γ' where
  after := g c.after
  comma := c.comma.map g

/-- Texts without comments. -/
def blankLexis : Lexis (List Space) Json5Key (Closing (List Space)) Atom where
  gap := spaceText
  key := Json5Key.text
  close := Closing.text spaceText
  atom := Atom.text

/-- Texts with quoted keys. -/
def quotedLexis : Lexis (List Space) (List StrUnit) (Closing (List Space)) Atom where
  gap := spaceText
  key := stringText
  close := Closing.text spaceText
  atom := Atom.text

theorem isRaw_of_keyChar {b : UInt8} (h : isJson5KeyChar b = true) : isRaw b = true := by
  simp only [isJson5KeyChar, isalpha, isdigit, isRaw, Bool.and_eq_true, Bool.or_eq_true,
    decide_eq_true_eq, beq_iff_eq, bne_iff_ne] at *
  grind

theorem keyChar_of_keyStart {b : UInt8} (h : isJson5KeyStart b = true) :
    isJson5KeyChar b = true := by
  simp only [isJson5KeyStart, isJson5KeyChar, Bool.or_eq_true] at *
  grind

theorem isRaw_of_key {first : UInt8} {rest : List UInt8} (hfirst : isJson5KeyStart first = true)
    (hrest : rest.all isJson5KeyChar = true) : ∀ b ∈ first :: rest, isRaw b = true :=
  List.forall_mem_cons.mpr ⟨isRaw_of_keyChar (keyChar_of_keyStart hfirst), fun b hb =>
    isRaw_of_keyChar (List.all_eq_true.mp hrest b hb)⟩

/-- The string literal that the second pass makes of a key. -/
def Json5Key.units : Json5Key → List StrUnit
  | .quoted units => units
  | .bare first rest hfirst hrest => (first :: rest).pmap StrUnit.raw (isRaw_of_key hfirst hrest)

/-- What the third pass makes of a closing: both gaps, without the comma. -/
def Closing.spaces (c : Closing (List Space)) : List UInt8 :=
  spaceText c.after ++ c.comma.elim [] spaceText

/-- The text after the three passes. -/
def Json5Text.plain (t : Json5Text) : PlainText where
  lead := spaceText (gapBlanks t.lead)
  tree := t.tree.map (fun gap => spaceText (gapBlanks gap)) Json5Key.units
    (fun c => (c.map gapBlanks).spaces) id
  trail := spaceText (gapBlanks t.trail)

namespace Json5Lemmas

/-! ## Bytes -/

/-- A byte that no pass treats in a special way outside strings, unless a key is expected. -/
def Inert (b : UInt8) : Prop :=
  b ∉ [34, 47, 91, 93, 123, 125, 44, 58]

instance (b : UInt8) : Decidable (Inert b) :=
  inferInstanceAs (Decidable (_ ∉ _))

theorem inert_digit (d : Fin 10) : Inert (digitByte d) := by
  revert d
  decide

theorem inert_number (n : Number) : ∀ b ∈ n.text, Inert b :=
  forall_mem_number inert_digit (by simp [Inert]) n

theorem inert_space {b : UInt8} (h : isspace b = true) : Inert b := by
  intro hb
  simp only [List.mem_cons, List.not_mem_nil, or_false] at hb
  rcases hb with rfl | rfl | rfl | rfl | rfl | rfl | rfl | rfl <;> revert h <;> decide

theorem isspace_of_mem {gap : List Space} : ∀ b ∈ spaceText gap, isspace b = true := by
  intro b hb
  obtain ⟨sp, -, rfl⟩ := List.mem_map.mp hb
  exact sp.property

theorem inert_spaces (gap : List Space) : ∀ b ∈ spaceText gap, Inert b :=
  fun b hb => inert_space (isspace_of_mem b hb)

theorem not_keyChar_of_space {b : UInt8} (h : isspace b = true) : isJson5KeyChar b = false := by
  simp only [isspace, isJson5KeyChar, isalpha, isdigit] at *
  grind

theorem inert_keyChar {b : UInt8} (h : isJson5KeyChar b = true) : Inert b := by
  intro hb
  simp only [List.mem_cons, List.not_mem_nil, or_false] at hb
  rcases hb with rfl | rfl | rfl | rfl | rfl | rfl | rfl | rfl <;> revert h <;> decide

/-! ## Copied bytes and strings -/

/-- Bytes that are copied one by one are copied together. -/
theorem copy_all {f : List UInt8 → List UInt8} {w : List UInt8}
    (h : ∀ b ∈ w, ∀ text, f (b :: text) = b :: f text) (rest : List UInt8) :
    f (w ++ rest) = w ++ f rest := by
  induction w with
  | nil => rfl
  | cons b w ih =>
    rw [List.forall_mem_cons] at h
    rw [List.cons_append, h.1, ih h.2, List.cons_append]

section strings

variable {F : ScanMode → List UInt8 → List UInt8}
  (hopen : ∀ text, F .code (34 :: text) = 34 :: F .string text)
  (hstring : ∀ c text, F .string (c :: text) = c :: F (afterStringByte c) text)
  (hescape : ∀ c text, F .escape (c :: text) = c :: F .string text)
include hstring hescape

theorem unit_scan (u : StrUnit) (rest : List UInt8) :
    F .string (u.text ++ rest) = u.text ++ F .string rest := by
  have hplain : ∀ b text, b ≠ 34 → b ≠ 92 → F .string (b :: text) = b :: F .string text := by
    intro b text hq hb
    rw [hstring, afterStringByte, if_neg hb, if_neg hq]
  cases u with
  | raw b h =>
    simp only [isRaw, Bool.and_eq_true, bne_iff_ne] at h
    exact hplain b rest h.1.2 h.2
  | escape e =>
    show F .string (92 :: e.letter :: rest) = 92 :: e.letter :: F .string rest
    rw [hstring]
    exact congrArg _ (hescape _ _)
  | unicode a b c d h =>
    have hhex : ∀ x, isHexDigit x = true → ∀ text, F .string (x :: text) = x :: F .string text := by
      intro x hx text
      refine hplain x text ?_ ?_
      · rintro rfl
        revert hx
        decide
      · rintro rfl
        revert hx
        decide
    simp only [List.all_cons, List.all_nil, Bool.and_eq_true, Bool.and_true] at h
    show F .string (92 :: 117 :: a :: b :: c :: d :: rest) = _
    rw [hstring]
    show 92 :: F .escape (117 :: a :: b :: c :: d :: rest) = _
    rw [hescape, hhex a h.1, hhex b h.2.1, hhex c h.2.2.1, hhex d h.2.2.2]
    rfl

include hopen in
/-- A string literal is copied, whatever is in it. -/
theorem string_scan (units : List StrUnit) (rest : List UInt8) :
    F .code (stringText units ++ rest) = stringText units ++ F .code rest := by
  have hbody : ∀ rest, F .string (units.flatMap StrUnit.text ++ rest) =
      units.flatMap StrUnit.text ++ F .string rest := by
    induction units with
    | nil => exact fun _ => rfl
    | cons u units ih =>
      intro rest
      rw [List.flatMap_cons, List.append_assoc, unit_scan hstring hescape, ih, List.append_assoc]
  have hend : F .string (34 :: rest) = 34 :: F .code rest := hstring 34 rest
  simp only [stringText, List.cons_append, List.append_assoc, List.nil_append, hopen, hbody, hend]

end strings

/-! ## The first pass -/

theorem strip_copy {b : UInt8} (hquote : b ≠ 34) (hslash : b ≠ 47) (text : List UInt8) :
    stripJson5Comments (.plain .code) (b :: text) =
      b :: stripJson5Comments (.plain .code) text := by
  rw [stripJson5Comments, if_neg hquote, if_neg (fun h => hslash h.1),
    if_neg (fun h => hslash h.1)]

theorem strip_inert {w : List UInt8} (h : ∀ b ∈ w, Inert b) (rest : List UInt8) :
    stripJson5Comments (.plain .code) (w ++ rest) =
      w ++ stripJson5Comments (.plain .code) rest := by
  refine copy_all (fun b hb text => strip_copy ?_ ?_ text) rest
  · rintro rfl
    exact h _ hb (by decide)
  · rintro rfl
    exact h _ hb (by decide)

theorem strip_string (units : List StrUnit) (rest : List UInt8) :
    stripJson5Comments (.plain .code) (stringText units ++ rest) =
      stringText units ++ stripJson5Comments (.plain .code) rest :=
  string_scan (F := fun mode => stripJson5Comments (.plain mode)) (fun _ => rfl) (fun _ _ => rfl)
    (fun _ _ => rfl) units rest

theorem strip_line {body : List UInt8} (hbody : body.all (fun b => !isEol b) = true)
    (rest : List UInt8) :
    stripJson5Comments (.line false) (body ++ rest) = stripJson5Comments (.line false) rest := by
  induction body with
  | nil => rfl
  | cons b body ih =>
    simp only [List.all_cons, Bool.and_eq_true, Bool.not_eq_true'] at hbody
    rw [List.cons_append, stripJson5Comments, hbody.1, if_neg Bool.false_ne_true, ih hbody.2]

theorem spaceText_eols_cons (b : UInt8) (body : List UInt8) :
    spaceText (eols (b :: body)) =
      if isEol b then b :: spaceText (eols body) else spaceText (eols body) := by
  unfold eols
  cases hb : isEol b <;> simp [hb, spaceText]

theorem strip_block {body : List UInt8} (hbody : noBlockEnd body = true) (rest : List UInt8) :
    stripJson5Comments (.block false) (body ++ 42 :: 47 :: rest) =
      spaceText (eols body) ++ stripJson5Comments (.plain .code) rest := by
  induction body with
  | nil => rfl
  | cons b body ih =>
    simp only [noBlockEnd, Bool.and_eq_true, Bool.not_eq_true', Bool.and_eq_false_iff,
      beq_eq_false_iff_ne, ne_eq] at hbody
    -- the comment does not end here: its own bytes have no end mark, and the mark starts with *
    have hnot : ¬ (b = 42 ∧ (body ++ 42 :: 47 :: rest).head? = some 47) := by
      rintro ⟨rfl, hhead⟩
      cases body with
      | nil => cases hhead
      | cons c body => simp_all
    rw [List.cons_append, stripJson5Comments, if_neg hnot, ih hbody.2, spaceText_eols_cons]
    split <;> rfl

theorem strip_gapItem (item : GapItem) (rest : List UInt8) :
    stripJson5Comments (.plain .code) (item.text ++ rest) =
      spaceText item.blanks ++ stripJson5Comments (.plain .code) rest := by
  cases item with
  | space b h => exact strip_inert (List.forall_mem_singleton.mpr (inert_space h)) rest
  | line body eol hbody heol =>
    show stripJson5Comments (.line false) (body ++ [eol] ++ rest) = _
    rw [List.append_assoc, strip_line hbody, List.singleton_append, stripJson5Comments, heol]
    rfl
  | block body hbody =>
    show stripJson5Comments (.block false) (body ++ [42, 47] ++ rest) = _
    rw [List.append_assoc]
    exact strip_block hbody rest

theorem strip_gap (gap : List GapItem) (rest : List UInt8) :
    stripJson5Comments (.plain .code) (gapText gap ++ rest) =
      spaceText (gapBlanks gap) ++ stripJson5Comments (.plain .code) rest := by
  induction gap with
  | nil => rfl
  | cons item gap ih =>
    have hblanks : spaceText (gapBlanks (item :: gap)) =
        spaceText item.blanks ++ spaceText (gapBlanks gap) := by
      simp only [spaceText, gapBlanks, List.flatMap_cons, List.map_append]
    rw [gapText, List.flatMap_cons, List.append_assoc, strip_gapItem, hblanks, List.append_assoc]
    exact congrArg _ ih

theorem strip_atom (a : Atom) (rest : List UInt8) :
    stripJson5Comments (.plain .code) (a.text ++ rest) =
      a.text ++ stripJson5Comments (.plain .code) rest := by
  cases a with
  | null => rfl
  | bool b => cases b <;> rfl
  | number n => exact strip_inert (inert_number n) rest
  | string units => exact strip_string units rest

theorem strip_key (key : Json5Key) (rest : List UInt8) :
    stripJson5Comments (.plain .code) (key.text ++ rest) =
      key.text ++ stripJson5Comments (.plain .code) rest := by
  cases key with
  | quoted units => exact strip_string units rest
  | bare first rest' hfirst hrest =>
    refine strip_inert (List.forall_mem_cons.mpr ⟨?_, fun b hb => ?_⟩) rest
    · exact inert_keyChar (keyChar_of_keyStart hfirst)
    · exact inert_keyChar (List.all_eq_true.mp hrest b hb)

theorem strip_close (c : Closing (List GapItem)) (rest : List UInt8) :
    stripJson5Comments (.plain .code) (c.text gapText ++ rest) =
      (c.map gapBlanks).text spaceText ++ stripJson5Comments (.plain .code) rest := by
  obtain ⟨after, comma⟩ := c
  cases comma with
  | none => simp [Closing.text, Closing.map, strip_gap]
  | some gap =>
    simp only [Closing.text, Closing.map, Option.elim_some, Option.map_some, List.append_assoc,
      List.cons_append, strip_gap]
    rw [strip_copy (by decide) (by decide), strip_gap]

/-- The first pass rewrites the gaps of a text. -/
theorem strip_text {p : Part} (s : Syn (List GapItem) Json5Key (Closing (List GapItem)) Atom p)
    (rest : List UInt8) :
    stripJson5Comments (.plain .code) (s.text json5Lexis ++ rest) =
      (s.map gapBlanks id (Closing.map gapBlanks) id).text blankLexis ++
        stripJson5Comments (.plain .code) rest := by
  refine pass_text (fun b hb => strip_copy ?_ ?_) strip_gap strip_key strip_close strip_atom s rest
  · rintro rfl
    exact absurd hb (by decide)
  · rintro rfl
    exact absurd hb (by decide)

/-! ## The second pass -/

theorem quote_string (stack : List Frame) (units : List StrUnit) (rest : List UInt8) :
    quoteJson5Keys stack (.plain .code) (stringText units ++ rest) =
      stringText units ++ quoteJson5Keys stack (.plain .code) rest :=
  string_scan (F := fun mode => quoteJson5Keys stack (.plain mode)) (fun _ => rfl)
    (fun _ _ => rfl) (fun _ _ => rfl) units rest

/-- The step of the second pass outside strings and keys. -/
theorem quote_code (stack : List Frame) (c : UInt8) (text : List UInt8) :
    quoteJson5Keys stack (.plain .code) (c :: text) =
      if c = 34 then c :: quoteJson5Keys stack (.plain .string) text
      else if c = 123 then c :: quoteJson5Keys (pushFrame (.object true) stack) (.plain .code) text
      else if c = 91 then c :: quoteJson5Keys (pushFrame .array stack) (.plain .code) text
      else if c = 125 ∨ c = 93 then c :: quoteJson5Keys stack.tail (.plain .code) text
      else
        match stack with
        | .object expectKey :: below =>
          if c = 44 then c :: quoteJson5Keys (.object true :: below) (.plain .code) text
          else if c = 58 then c :: quoteJson5Keys (.object false :: below) (.plain .code) text
          else if expectKey ∧ isJson5KeyStart c ∧ colonFollows text then
            34 :: c :: if (text.takeWhile isJson5KeyChar).length = 0 then
                34 :: quoteJson5Keys stack (.plain .code) text
              else quoteJson5Keys stack (.key (text.takeWhile isJson5KeyChar).length) text
          else c :: quoteJson5Keys stack (.plain .code) text
        | _ => c :: quoteJson5Keys stack (.plain .code) text := by
  rcases stack with _ | ⟨_ | _, below⟩ <;> rfl

theorem quote_copy {stack : List Frame} {b : UInt8} (hb : Inert b)
    (hkey : stack.head? = some (.object true) → isJson5KeyStart b = false) (text : List UInt8) :
    quoteJson5Keys stack (.plain .code) (b :: text) =
      b :: quoteJson5Keys stack (.plain .code) text := by
  simp only [Inert, List.mem_cons, List.not_mem_nil, or_false, not_or] at hb
  obtain ⟨h34, -, h91, h93, h123, h125, h44, h58⟩ := hb
  rw [quote_code, if_neg h34, if_neg h123, if_neg h91, if_neg (not_or.mpr ⟨h125, h93⟩)]
  cases stack with
  | nil => rfl
  | cons frame below =>
    cases frame with
    | array => rfl
    | object expectKey =>
      dsimp only
      rw [if_neg h44, if_neg h58, if_neg]
      rintro ⟨rfl, hstart, -⟩
      rw [hkey rfl] at hstart
      cases hstart

theorem quote_spaces (stack : List Frame) (gap : List Space) (rest : List UInt8) :
    quoteJson5Keys stack (.plain .code) (spaceText gap ++ rest) =
      spaceText gap ++ quoteJson5Keys stack (.plain .code) rest := by
  refine copy_all (fun b hb => quote_copy (inert_spaces gap b hb) fun _ => ?_) rest
  refine eq_false_of_ne_true fun hstart => ?_
  cases (not_keyChar_of_space (isspace_of_mem b hb)).symm.trans (keyChar_of_keyStart hstart)

theorem quote_atom {stack : List Frame} (h : stack.head? ≠ some (.object true)) (a : Atom)
    (rest : List UInt8) :
    quoteJson5Keys stack (.plain .code) (a.text ++ rest) =
      a.text ++ quoteJson5Keys stack (.plain .code) rest := by
  have hword : ∀ w : List UInt8, (∀ b ∈ w, Inert b) →
      quoteJson5Keys stack (.plain .code) (w ++ rest) =
        w ++ quoteJson5Keys stack (.plain .code) rest :=
    fun w hw => copy_all (fun b hb => quote_copy (hw b hb) fun hs => absurd hs h) rest
  cases a with
  | null => exact hword [110, 117, 108, 108] (by simp [Inert])
  | bool b =>
    cases b with
    | true => exact hword [116, 114, 117, 101] (by simp [Inert])
    | false => exact hword [102, 97, 108, 115, 101] (by simp [Inert])
  | number n => exact hword n.text (inert_number n)
  | string units => exact quote_string stack units rest

/-- The inner copy of a key ends with the closing quote. -/
theorem quote_keyBytes (stack : List Frame) (w : List UInt8) (hw : w ≠ []) (rest : List UInt8) :
    quoteJson5Keys stack (.key w.length) (w ++ rest) =
      w ++ 34 :: quoteJson5Keys stack (.plain .code) rest := by
  induction w with
  | nil => exact absurd rfl hw
  | cons b w ih =>
    rw [List.cons_append, quoteJson5Keys]
    cases w with
    | nil => rfl
    | cons c w =>
      rw [if_neg (by simp)]
      exact congrArg _ (ih (List.cons_ne_nil c w))

/-- Nothing but the gap stands between a key and its colon. -/
theorem dropWhile_key {w : List UInt8} (hw : w.all isJson5KeyChar = true) (gap : List Space)
    (rest : List UInt8) :
    (w ++ (spaceText gap ++ 58 :: rest)).dropWhile isJson5KeyChar = spaceText gap ++ 58 :: rest ∧
      (w ++ (spaceText gap ++ 58 :: rest)).takeWhile isJson5KeyChar = w := by
  have hstop : (spaceText gap ++ 58 :: rest).dropWhile isJson5KeyChar =
      spaceText gap ++ 58 :: rest ∧
      (spaceText gap ++ 58 :: rest).takeWhile isJson5KeyChar = [] := by
    cases gap with
    | nil => exact ⟨rfl, rfl⟩
    | cons sp gap =>
      have hsp := not_keyChar_of_space sp.property
      simp [spaceText, hsp]
  rw [List.all_eq_true] at hw
  rw [List.dropWhile_append_of_pos hw, List.takeWhile_append_of_pos hw, hstop.1, hstop.2,
    List.append_nil]
  exact ⟨rfl, rfl⟩

theorem colonFollows_key {w : List UInt8} (hw : w.all isJson5KeyChar = true) (gap : List Space)
    (rest : List UInt8) : colonFollows (w ++ (spaceText gap ++ 58 :: rest)) = true := by
  unfold colonFollows
  rw [(dropWhile_key hw gap rest).1, List.dropWhile_append_of_pos isspace_of_mem]
  rfl

theorem stringText_raw {w : List UInt8} (h : ∀ b ∈ w, isRaw b = true) :
    stringText (w.pmap StrUnit.raw h) = 34 :: w ++ [34] := by
  have hbody : (w.pmap StrUnit.raw h).flatMap StrUnit.text = w := by
    induction w with
    | nil => rfl
    | cons b w ih =>
      rw [List.pmap, List.flatMap_cons, ih]
      rfl
  rw [stringText, hbody]

/-- A key before its colon, where a key is expected. -/
theorem quote_key (below : List Frame) (key : Json5Key) (gap : List Space) (rest : List UInt8) :
    quoteJson5Keys (.object true :: below) (.plain .code)
        (key.text ++ (spaceText gap ++ 58 :: rest)) =
      stringText key.units ++ quoteJson5Keys (.object true :: below) (.plain .code)
        (spaceText gap ++ 58 :: rest) := by
  cases key with
  | quoted units => exact quote_string _ units _
  | bare first w hfirst hw =>
    have hinert : Inert first := inert_keyChar (keyChar_of_keyStart hfirst)
    simp only [Inert, List.mem_cons, List.not_mem_nil, or_false, not_or] at hinert
    obtain ⟨h34, -, h91, h93, h123, h125, h44, h58⟩ := hinert
    have hfollow := colonFollows_key hw gap rest
    rw [Json5Key.text, Json5Key.units, stringText_raw, List.cons_append, quote_code, if_neg h34,
      if_neg h123, if_neg h91, if_neg (not_or.mpr ⟨h125, h93⟩)]
    dsimp only
    rw [if_neg h44, if_neg h58, if_pos ⟨rfl, hfirst, hfollow⟩, (dropWhile_key hw gap rest).2]
    cases w with
    | nil => rfl
    | cons c w =>
      rw [if_neg (by simp), quote_keyBytes _ _ (List.cons_ne_nil c w)]
      simp

/-- What the second pass does with a part of the text. The text of a part with members is
followed by the bracket, which ends what the pass knows of keys at this level. -/
def QuoteSpec : Part → Nat → List UInt8 → List UInt8 → Prop
  | .value, depth, before, after => ∀ stack rest, stack.head? ≠ some (.object true) →
      stack.length + depth ≤ 128 →
      quoteJson5Keys stack (.plain .code) (before ++ rest) =
        after ++ quoteJson5Keys stack (.plain .code) rest
  | .items, depth, before, after => ∀ below rest, below.length + 1 + depth ≤ 128 →
      quoteJson5Keys (.array :: below) (.plain .code) (before ++ rest) =
        after ++ quoteJson5Keys (.array :: below) (.plain .code) rest
  | .members, depth, before, after => ∀ below rest, below.length + 1 + depth ≤ 128 →
      quoteJson5Keys (.object true :: below) (.plain .code) (before ++ 125 :: rest) =
        after ++ 125 :: quoteJson5Keys below (.plain .code) rest

theorem quote_openObject {stack : List Frame} (h : stack.length < 128) (text : List UInt8) :
    quoteJson5Keys stack (.plain .code) (123 :: text) =
      123 :: quoteJson5Keys (.object true :: stack) (.plain .code) text := by
  show 123 :: quoteJson5Keys (pushFrame (.object true) stack) (.plain .code) text = _
  rw [pushFrame, if_pos h]

theorem quote_openArray {stack : List Frame} (h : stack.length < 128) (text : List UInt8) :
    quoteJson5Keys stack (.plain .code) (91 :: text) =
      91 :: quoteJson5Keys (.array :: stack) (.plain .code) text := by
  show 91 :: quoteJson5Keys (pushFrame .array stack) (.plain .code) text = _
  rw [pushFrame, if_pos h]

theorem quote_closeObject (frame : Frame) (below : List Frame) (text : List UInt8) :
    quoteJson5Keys (frame :: below) (.plain .code) (125 :: text) =
      125 :: quoteJson5Keys below (.plain .code) text := rfl

theorem quote_closeArray (frame : Frame) (below : List Frame) (text : List UInt8) :
    quoteJson5Keys (frame :: below) (.plain .code) (93 :: text) =
      93 :: quoteJson5Keys below (.plain .code) text := rfl

theorem quote_itemComma (below : List Frame) (text : List UInt8) :
    quoteJson5Keys (.array :: below) (.plain .code) (44 :: text) =
      44 :: quoteJson5Keys (.array :: below) (.plain .code) text := rfl

theorem quote_memberComma (e : Bool) (below : List Frame) (text : List UInt8) :
    quoteJson5Keys (.object e :: below) (.plain .code) (44 :: text) =
      44 :: quoteJson5Keys (.object true :: below) (.plain .code) text := rfl

theorem quote_colon (e : Bool) (below : List Frame) (text : List UInt8) :
    quoteJson5Keys (.object e :: below) (.plain .code) (58 :: text) =
      58 :: quoteJson5Keys (.object false :: below) (.plain .code) text := rfl

theorem quote_itemClose (below : List Frame) (c : Closing (List Space)) (rest : List UInt8) :
    quoteJson5Keys (.array :: below) (.plain .code) (c.text spaceText ++ rest) =
      c.text spaceText ++ quoteJson5Keys (.array :: below) (.plain .code) rest := by
  obtain ⟨after, comma⟩ := c
  cases comma with
  | none => simp [Closing.text, quote_spaces]
  | some gap =>
    simp only [Closing.text, Option.elim_some, List.append_assoc, List.cons_append, quote_spaces,
      quote_itemComma]

/-- With or without a comma, the bracket after it ends the object. -/
theorem quote_memberClose (e : Bool) (below : List Frame) (c : Closing (List Space))
    (rest : List UInt8) :
    quoteJson5Keys (.object e :: below) (.plain .code) (c.text spaceText ++ 125 :: rest) =
      c.text spaceText ++ 125 :: quoteJson5Keys below (.plain .code) rest := by
  obtain ⟨after, comma⟩ := c
  cases comma with
  | none => simp [Closing.text, quote_spaces, quote_closeObject]
  | some gap =>
    simp only [Closing.text, Option.elim_some, List.append_assoc, List.cons_append, quote_spaces,
      quote_memberComma, quote_closeObject]

/-- The second pass rewrites the keys of a text. -/
theorem quote_text {p : Part} (s : Syn (List Space) Json5Key (Closing (List Space)) Atom p) :
    QuoteSpec p s.depth (s.text blankLexis) ((s.map id Json5Key.units id id).text quotedLexis) := by
  induction s with
  | atom a => exact fun stack rest hstack _ => quote_atom hstack a rest
  | emptyArray gap =>
    intro stack rest _ hdepth
    simp only [Syn.text, Syn.map, blankLexis, quotedLexis, id_eq, List.cons_append,
      List.append_assoc, List.nil_append, quote_openArray hdepth, quote_spaces, quote_closeArray]
  | array items ih =>
    intro stack rest _ hdepth
    have hroom : stack.length + 1 + items.depth ≤ 128 := by
      simpa only [Syn.depth, Nat.add_right_comm, Nat.add_assoc, Nat.add_comm] using hdepth
    have hopen : stack.length < 128 := Nat.le_of_add_right_le hroom
    simp only [Syn.text, Syn.map, List.cons_append, List.append_assoc, List.nil_append,
      quote_openArray hopen, ih stack _ hroom, quote_closeArray]
  | emptyObject gap =>
    intro stack rest _ hdepth
    simp only [Syn.text, Syn.map, blankLexis, quotedLexis, id_eq, List.cons_append,
      List.append_assoc, List.nil_append, quote_openObject hdepth, quote_spaces, quote_closeObject]
  | object members ih =>
    intro stack rest _ hdepth
    have hroom : stack.length + 1 + members.depth ≤ 128 := by
      simpa only [Syn.depth, Nat.add_right_comm, Nat.add_assoc, Nat.add_comm] using hdepth
    have hopen : stack.length < 128 := Nat.le_of_add_right_le hroom
    simp only [Syn.text, Syn.map, List.cons_append, List.append_assoc, List.nil_append,
      quote_openObject hopen, ih stack _ hroom]
  | lastItem before v close ih =>
    intro below rest hdepth
    have hv := ih (.array :: below) (close.text spaceText ++ rest) (by simp) hdepth
    simp only [Syn.text, Syn.map, blankLexis, quotedLexis, id_eq, List.append_assoc,
      quote_spaces] at hv ⊢
    rw [hv, quote_itemClose]
  | item before v after tail ihv ih =>
    intro below rest hdepth
    have hdepth' := Nat.le_trans (Nat.add_le_add_left (Nat.le_max_left _ _) _) hdepth
    have htail := ih below rest (Nat.le_trans (Nat.add_le_add_left (Nat.le_max_right _ _) _) hdepth)
    have hv := fun rest => ihv (.array :: below) rest (by simp) hdepth'
    simp only [Syn.text, Syn.map, blankLexis, quotedLexis, id_eq, List.append_assoc,
      List.cons_append, quote_spaces] at hv htail ⊢
    rw [hv, quote_spaces, quote_itemComma, htail]
  | lastMember before key colon gap v close ih =>
    intro below rest hdepth
    have hv := ih (.object false :: below) (close.text spaceText ++ 125 :: rest) (by simp) hdepth
    simp only [Syn.text, Syn.map, blankLexis, quotedLexis, id_eq, List.append_assoc,
      List.cons_append, quote_spaces, quote_key, quote_colon] at hv ⊢
    rw [hv, quote_memberClose]
  | member before key colon gap v after tail ihv ih =>
    intro below rest hdepth
    have hdepth' := Nat.le_trans (Nat.add_le_add_left (Nat.le_max_left _ _) _) hdepth
    have htail := ih below rest (Nat.le_trans (Nat.add_le_add_left (Nat.le_max_right _ _) _) hdepth)
    have hv := fun rest => ihv (.object false :: below) rest (by simp) hdepth'
    simp only [Syn.text, Syn.map, blankLexis, quotedLexis, id_eq, List.append_assoc,
      List.cons_append, quote_spaces, quote_key, quote_colon] at hv htail ⊢
    rw [hv, quote_spaces, quote_memberComma, htail]

/-! ## The third pass -/

theorem commas_copy {b : UInt8} (hquote : b ≠ 34) (hcomma : b ≠ 44) (text : List UInt8) :
    removeTrailingCommas .code (b :: text) = b :: removeTrailingCommas .code text := by
  rw [removeTrailingCommas, if_neg hquote, if_neg fun h => hcomma h.1]

theorem commas_inert {w : List UInt8} (h : ∀ b ∈ w, Inert b) (rest : List UInt8) :
    removeTrailingCommas .code (w ++ rest) = w ++ removeTrailingCommas .code rest := by
  refine copy_all (fun b hb text => commas_copy ?_ ?_ text) rest
  · rintro rfl
    exact h _ hb (by decide)
  · rintro rfl
    exact h _ hb (by decide)

theorem commas_string (units : List StrUnit) (rest : List UInt8) :
    removeTrailingCommas .code (stringText units ++ rest) =
      stringText units ++ removeTrailingCommas .code rest :=
  string_scan (F := removeTrailingCommas) (fun _ => rfl) (fun _ _ => rfl) (fun _ _ => rfl)
    units rest

theorem commas_atom (a : Atom) (rest : List UInt8) :
    removeTrailingCommas .code (a.text ++ rest) = a.text ++ removeTrailingCommas .code rest := by
  cases a with
  | null => rfl
  | bool b => cases b <;> rfl
  | number n => exact commas_inert (inert_number n) rest
  | string units => exact commas_string units rest

theorem commas_spaces (gap : List Space) (rest : List UInt8) :
    removeTrailingCommas .code (spaceText gap ++ rest) =
      spaceText gap ++ removeTrailingCommas .code rest :=
  commas_inert (inert_spaces gap) rest

theorem closingFollows_spaces (gap : List Space) (text : List UInt8) :
    closingFollows (spaceText gap ++ text) = closingFollows text := by
  rw [closingFollows, List.dropWhile_append_of_pos isspace_of_mem]
  rfl

theorem closingFollows_digit (d : Fin 10) (text : List UInt8) :
    closingFollows (digitByte d :: text) = false := by
  have hspace : isspace (digitByte d) = false := by
    revert d
    decide
  have hbracket : (digitByte d == 125 || digitByte d == 93) = false := by
    revert d
    decide
  simp only [closingFollows, List.dropWhile_cons, hspace, Bool.false_eq_true, if_false,
    List.head?_cons, Option.any_some, hbracket]

theorem closingFollows_atom (a : Atom) (rest : List UInt8) :
    closingFollows (a.text ++ rest) = false := by
  cases a with
  | null => rfl
  | bool b => cases b <;> rfl
  | string units => rfl
  | number n =>
    obtain ⟨negative, int, fraction, exponent⟩ := n
    cases negative with
    | true => rfl
    | false =>
      cases int with
      | zero => exact closingFollows_digit 0 _
      | positive first rest => exact closingFollows_digit first.succ _

/-- A part of a text does not start with a closing bracket, if the gaps `G` are blank. -/
theorem not_closingFollows {γ κ τ : Type} {L : Lexis γ κ τ Atom} {G : γ → Prop} {K : κ → Prop}
    {C : τ → Prop} {A : Atom → Prop}
    (hgap : ∀ x, G x → ∀ rest, closingFollows (L.gap x ++ rest) = closingFollows rest)
    (hkey : ∀ x rest, closingFollows (L.key x ++ rest) = false) (hatom : L.atom = Atom.text)
    {p : Part} (s : Syn γ κ τ Atom p) (hs : s.All G K C A) (rest : List UInt8) :
    closingFollows (s.text L ++ rest) = false := by
  induction s generalizing rest with
  | atom a =>
    rw [Syn.text, hatom]
    exact closingFollows_atom a rest
  | emptyArray gap => rfl
  | array items _ => rfl
  | emptyObject gap => rfl
  | object members _ => rfl
  | lastItem before v close ih =>
    rw [Syn.text, List.append_assoc, List.append_assoc, hgap before hs.1]
    exact ih hs.2.1 _
  | item before v after tail ih _ =>
    rw [Syn.text, List.append_assoc, List.append_assoc, List.append_assoc, hgap before hs.1]
    exact ih hs.2.1 _
  | lastMember before key colon gap v close _ =>
    rw [Syn.text, List.append_assoc, List.append_assoc, List.append_assoc, hgap before hs.1]
    exact hkey key _
  | member before key colon gap v after tail _ _ =>
    rw [Syn.text, List.append_assoc, List.append_assoc, List.append_assoc, hgap before hs.1]
    exact hkey key _

theorem not_closingFollows_quoted {p : Part}
    (s : Syn (List Space) (List StrUnit) (Closing (List Space)) Atom p) (rest : List UInt8) :
    closingFollows (s.text quotedLexis ++ rest) = false :=
  not_closingFollows (fun gap _ => closingFollows_spaces gap) (fun _ _ => rfl) rfl s
    (all_of_forall (fun _ => trivial) (fun _ => trivial) (fun _ => trivial) (fun _ => trivial) s)
    rest

theorem commas_keep {text : List UInt8} (h : closingFollows text = false) :
    removeTrailingCommas .code (44 :: text) = 44 :: removeTrailingCommas .code text := by
  rw [removeTrailingCommas, if_neg (by decide), if_neg (by rw [h]; simp)]

theorem commas_close (c : Closing (List Space)) {b : UInt8} (hb : b = 125 ∨ b = 93)
    (rest : List UInt8) :
    removeTrailingCommas .code (c.text spaceText ++ b :: rest) =
      c.spaces ++ removeTrailingCommas .code (b :: rest) := by
  obtain ⟨after, comma⟩ := c
  cases comma with
  | none => simp [Closing.text, Closing.spaces, commas_spaces]
  | some gap =>
    have hclose : closingFollows (spaceText gap ++ b :: rest) = true := by
      rw [closingFollows_spaces]
      rcases hb with rfl | rfl <;> rfl
    have hdrop : removeTrailingCommas .code (44 :: (spaceText gap ++ b :: rest)) =
        removeTrailingCommas .code (spaceText gap ++ b :: rest) := by
      rw [removeTrailingCommas, if_neg (by decide), if_pos ⟨rfl, hclose⟩]
    simp only [Closing.text, Closing.spaces, Option.elim_some, List.append_assoc, List.cons_append,
      commas_spaces, hdrop]

/-- What the third pass does with a part of the text. The text of the elements of a list is
followed by a bracket. -/
def CommaSpec : Part → List UInt8 → List UInt8 → Prop
  | .value, before, after => ∀ rest,
      removeTrailingCommas .code (before ++ rest) = after ++ removeTrailingCommas .code rest
  | _, before, after => ∀ b rest, b = 125 ∨ b = 93 →
      removeTrailingCommas .code (before ++ b :: rest) =
        after ++ removeTrailingCommas .code (b :: rest)

/-- The third pass rewrites the closings of a text. -/
theorem commas_text {p : Part}
    (s : Syn (List Space) (List StrUnit) (Closing (List Space)) Atom p) :
    CommaSpec p (s.text quotedLexis) ((s.map spaceText id Closing.spaces id).text plainLexis) := by
  have hpunct : ∀ b ∈ [91, 93, 123, 125, 58], ∀ text,
      removeTrailingCommas .code (b :: text) = b :: removeTrailingCommas .code text := by
    intro b hb
    refine commas_copy ?_ ?_
    · rintro rfl
      exact absurd hb (by decide)
    · rintro rfl
      exact absurd hb (by decide)
  simp only [List.forall_mem_cons, List.not_mem_nil, IsEmpty.forall_iff, implies_true,
    and_true] at hpunct
  obtain ⟨h91, h93, h123, h125, h58⟩ := hpunct
  induction s with
  | atom a => exact fun rest => commas_atom a rest
  | emptyArray gap =>
    intro rest
    simp only [Syn.text, Syn.map, quotedLexis, plainLexis, id_eq, List.cons_append,
      List.append_assoc, List.nil_append, h91, commas_spaces, h93]
  | array items ih =>
    intro rest
    simp only [Syn.text, Syn.map, List.cons_append, List.append_assoc, List.nil_append, h91,
      ih 93 rest (.inr rfl), h93]
  | emptyObject gap =>
    intro rest
    simp only [Syn.text, Syn.map, quotedLexis, plainLexis, id_eq, List.cons_append,
      List.append_assoc, List.nil_append, h123, commas_spaces, h125]
  | object members ih =>
    intro rest
    simp only [Syn.text, Syn.map, List.cons_append, List.append_assoc, List.nil_append, h123,
      ih 125 rest (.inl rfl), h125]
  | lastItem before v close ih =>
    intro b rest hb
    have hv := ih (close.text spaceText ++ b :: rest)
    simp only [Syn.text, Syn.map, quotedLexis, plainLexis, id_eq, List.append_assoc,
      commas_spaces] at hv ⊢
    rw [hv, commas_close close hb]
  | item before v after tail ihv ih =>
    intro b rest hb
    have hkeep := commas_keep (not_closingFollows_quoted tail (b :: rest))
    have htail := ih b rest hb
    have hv := ihv (spaceText after ++ 44 :: (tail.text quotedLexis ++ b :: rest))
    simp only [Syn.text, Syn.map, quotedLexis, plainLexis, id_eq, List.append_assoc,
      List.cons_append, commas_spaces] at hv htail hkeep ⊢
    rw [hv, hkeep, htail]
  | lastMember before key colon gap v close ih =>
    intro b rest hb
    have hv := ih (close.text spaceText ++ b :: rest)
    simp only [Syn.text, Syn.map, quotedLexis, plainLexis, id_eq, List.append_assoc,
      List.cons_append, commas_spaces, commas_string, h58] at hv ⊢
    rw [hv, commas_close close hb]
  | member before key colon gap v after tail ihv ih =>
    intro b rest hb
    have hkeep := commas_keep (not_closingFollows_quoted tail (b :: rest))
    have htail := ih b rest hb
    have hv := ihv (spaceText after ++ 44 :: (tail.text quotedLexis ++ b :: rest))
    simp only [Syn.text, Syn.map, quotedLexis, plainLexis, id_eq, List.append_assoc,
      List.cons_append, commas_spaces, commas_string, h58] at hv htail hkeep ⊢
    rw [hv, hkeep, htail]

/-! ## The passes together -/

theorem strip_comment
    (comment : Option { body : List UInt8 // body.all (fun b => !isEol b) = true }) :
    stripJson5Comments (.plain .code) (comment.elim [] fun c => 47 :: 47 :: c.val) = [] := by
  cases comment with
  | none => rfl
  | some c =>
    have h := strip_line c.property []
    rw [List.append_nil] at h
    exact h

theorem preprocess_text (t : Json5Text) (h : t.tree.depth ≤ 128) :
    preprocessJson5 t.text = t.plain.text := by
  have hdepth : ([] : List Frame).length +
      (t.tree.map gapBlanks id (Closing.map gapBlanks) id).depth ≤ 128 := by
    rw [depth_map, List.length_nil, Nat.zero_add]
    exact h
  have hquote := fun rest => quote_text (t.tree.map gapBlanks id (Closing.map gapBlanks) id) []
    rest (by simp) hdepth
  have hcommas := commas_text
    ((t.tree.map gapBlanks id (Closing.map gapBlanks) id).map id Json5Key.units id id)
  have htrail : ∀ f : List UInt8 → List UInt8, f [] = [] →
      (∀ rest, f (spaceText (gapBlanks t.trail) ++ rest) =
        spaceText (gapBlanks t.trail) ++ f rest) →
      f (spaceText (gapBlanks t.trail)) = spaceText (gapBlanks t.trail) := by
    intro f hnil hf
    have hrest := hf []
    rwa [List.append_nil, hnil, List.append_nil] at hrest
  unfold preprocessJson5 Json5Text.text
  simp only [List.append_assoc, strip_gap, strip_text, strip_comment, List.append_nil,
    quote_spaces, hquote, htrail (quoteJson5Keys [] (.plain .code)) rfl (quote_spaces [] _)]
  rw [commas_spaces, hcommas, htrail (removeTrailingCommas .code) rfl (commas_spaces _)]
  simp only [PlainText.text, Json5Text.plain, map_map, id_eq, List.append_assoc]
  rfl

theorem content_raw {w : List UInt8} (h : ∀ b ∈ w, isRaw b = true) :
    JsonText.content (w.pmap StrUnit.raw h) = w := by
  induction w with
  | nil => rfl
  | cons b w ih =>
    cases w with
    | nil => rfl
    | cons c w =>
      exact congrArg (b :: ·) (ih fun x hx => h x (List.mem_cons_of_mem b hx))

theorem content_units (key : Json5Key) : JsonText.content key.units = key.content := by
  cases key with
  | quoted units => rfl
  | bare first rest hfirst hrest => exact content_raw _

theorem value_plain (t : Json5Text) : t.plain.value = t.value := by
  simp only [PlainText.value, Json5Text.plain, Json5Text.value, map_map, content_units, id_eq]

theorem depth_value (t : Json5Text) : t.value.depth = t.tree.depth :=
  depth_map _ _ _ _ t.tree

/-! ## White space -/

theorem jsonSpace_of_isEol {b : UInt8} (h : isEol b = true) : isJsonSpace b = true := by
  simp only [isEol, Bool.or_eq_true, beq_iff_eq] at h
  rcases h with rfl | rfl <;> decide

/-- The two bytes of `isspace` that JSON does not have. -/
theorem jsonSpace_iff {b : UInt8} (h : isspace b = true) :
    isJsonSpace b = true ↔ b ≠ 11 ∧ b ≠ 12 := by
  constructor
  · intro hb
    constructor <;> rintro rfl <;> revert hb <;> decide
  · intro hb
    simp only [isspace, isJsonSpace, Bool.or_eq_true, Bool.and_eq_true, beq_iff_eq,
      decide_eq_true_eq] at *
    grind

theorem mem_eols {b : UInt8} {body : List UInt8} (h : b ∈ spaceText (eols body)) :
    isEol b = true := by
  induction body with
  | nil => cases h
  | cons c body ih =>
    rw [spaceText_eols_cons] at h
    split at h
    · next hc =>
      rcases List.mem_cons.mp h with rfl | h
      · exact hc
      · exact ih h
    · exact ih h

section spaces

-- a class of bytes that is the white space of JSON, as far as `isspace` goes
variable {S : UInt8 → Prop} (hS : ∀ b, isspace b = true → (S b ↔ isJsonSpace b = true))
include hS

theorem gap_iff (gap : List GapItem) :
    (∀ b ∈ spaceText (gapBlanks gap), S b) ↔ JsonGap gap := by
  have hmem : ∀ b, b ∈ spaceText (gapBlanks gap) ↔ ∃ item ∈ gap, b ∈ spaceText item.blanks := by
    intro b
    simp only [spaceText, gapBlanks, List.map_flatMap, List.mem_flatMap]
  constructor
  · rintro h item hitem b hb rfl
    exact (hS b hb).mp (h b ((hmem b).mpr ⟨_, hitem, List.mem_singleton.mpr rfl⟩))
  · intro h b hb
    refine (hS b (isspace_of_mem b hb)).mpr ?_
    obtain ⟨item, hitem, hb⟩ := (hmem b).mp hb
    cases item with
    | space c hc =>
      cases List.mem_singleton.mp hb
      exact h _ hitem _ hc rfl
    | line body eol hbody heol =>
      cases List.mem_singleton.mp hb
      exact jsonSpace_of_isEol heol
    | block body hbody => exact jsonSpace_of_isEol (mem_eols hb)

theorem closing_iff (c : Closing (List GapItem)) :
    (∀ b ∈ (c.map gapBlanks).spaces, S b) ↔ JsonClosing c := by
  obtain ⟨after, comma⟩ := c
  cases comma with
  | none => simp [Closing.spaces, Closing.map, JsonClosing, gap_iff hS]
  | some gap =>
    simp only [Closing.spaces, Closing.map, JsonClosing, Option.map_some, Option.elim_some,
      List.forall_mem_append, gap_iff hS, Option.mem_some_iff, forall_eq']

theorem spaces_iff (t : Json5Text) : t.plain.Spaces S ↔ t.JsonSpaces := by
  simp only [PlainText.Spaces, Json5Text.plain, Json5Text.JsonSpaces, all_map, gap_iff hS,
    closing_iff hS]

end spaces

/-! ## Strings -/

theorem le_of_keyChar {b : UInt8} (h : isJson5KeyChar b = true) : 32 ≤ b := by
  simp only [isJson5KeyChar, isalpha, isdigit, Bool.and_eq_true, Bool.or_eq_true,
    decide_eq_true_eq, beq_iff_eq] at h
  grind

theorem strict_units (key : Json5Key) : StrictString key.units ↔ key.Strict := by
  cases key with
  | quoted units => exact Iff.rfl
  | bare first rest hfirst hrest =>
    refine iff_of_true (fun u hu => ?_) trivial
    obtain ⟨b, hb, rfl⟩ := List.mem_pmap.mp hu
    rcases List.mem_cons.mp hb with rfl | hb
    · exact le_of_keyChar (keyChar_of_keyStart hfirst)
    · exact le_of_keyChar (List.all_eq_true.mp hrest b hb)

theorem strings_iff (t : Json5Text) : t.plain.Strings ↔ t.JsonStrings := by
  simp only [PlainText.Strings, Json5Text.plain, Json5Text.JsonStrings, all_map, strict_units,
    id_eq]

/-! ## Strict texts have no other control bytes -/

/-- Neither a vertical tab nor a form feed. -/
def NoTab (b : UInt8) : Prop :=
  b ≠ 11 ∧ b ≠ 12

theorem noTab_string {units : List StrUnit} (h : StrictString units) :
    ∀ b ∈ stringText units, NoTab b := by
  refine forall_mem_string (fun b hb => ?_) h
  constructor <;> rintro rfl <;> revert hb <;> decide

theorem noTab_atom {a : Atom} (h : a.Strict) : ∀ b ∈ a.text, NoTab b := by
  cases a with
  | null => simp [Atom.text, NoTab]
  | bool b => cases b <;> simp [Atom.text, NoTab]
  | string units => exact noTab_string h
  | number n =>
    refine forall_mem_number (fun d => ?_) (by simp [NoTab]) n
    revert d
    unfold NoTab
    decide

theorem noTab_of_jsonSpace {b : UInt8} (h : isJsonSpace b = true) : NoTab b := by
  constructor <;> rintro rfl <;> revert h <;> decide

theorem noTab_strict {t : PlainText} (hspaces : t.Spaces fun b => isJsonSpace b = true)
    (hstrings : t.Strings) : ∀ b ∈ t.text, NoTab b := by
  obtain ⟨hlead, htree, htrail⟩ := hspaces
  have hblank : ∀ gap : List UInt8, (∀ b ∈ gap, isJsonSpace b = true) → ∀ b ∈ gap, NoTab b :=
    fun gap h b hb => noTab_of_jsonSpace (h b hb)
  simp only [PlainText.text, List.forall_mem_append, and_assoc]
  rw [forall_mem_text (by simp [NoTab])]
  exact ⟨hblank _ hlead,
    all_mono (fun g h => hblank g h.1) (fun _ h => noTab_string h.2) (fun g h => hblank g h.1)
      (fun _ h => noTab_atom h.2) t.tree ((all_and t.tree).mpr ⟨htree, hstrings⟩),
    hblank _ htrail⟩

theorem spaces_of_noTab {t : PlainText} (h : ∀ b ∈ t.text, NoTab b) : t.Spaces NoTab := by
  simp only [PlainText.text, List.forall_mem_append, and_assoc] at h
  rw [forall_mem_text (by simp [NoTab])] at h
  exact ⟨h.1, all_mono (fun _ h => h) (fun _ _ => trivial) (fun _ h => h) (fun _ _ => trivial)
    t.tree h.2.1, h.2.2⟩

theorem strict_of_json {t : Json5Text} (hdepth : t.value.depth ≤ 128)
    (h : t.JsonSpaces ∧ t.JsonStrings) : DenotesStrictly (preprocessJson5 t.text) t.value := by
  rw [depth_value] at hdepth
  rw [preprocess_text t hdepth]
  exact ⟨t.plain, (spaces_iff (fun _ _ => Iff.rfl) t).mpr h.1, (strings_iff t).mpr h.2, rfl,
    value_plain t⟩

/-- A byte that JSON does not have is still there after the passes. Once the gaps are known to
be blank, the strict text that equals the result is the result's own tree. -/
theorem json_of_strict {t : Json5Text} (hdepth : t.value.depth ≤ 128) {v : Json}
    (h : DenotesStrictly (preprocessJson5 t.text) v) : t.JsonSpaces ∧ t.JsonStrings := by
  rw [depth_value] at hdepth
  rw [preprocess_text t hdepth] at h
  obtain ⟨u, hspaces, hstrings, htext, -⟩ := h
  have hnoTab := noTab_strict hspaces hstrings
  rw [htext] at hnoTab
  have hjson := (spaces_iff (fun b hb => (jsonSpace_iff hb).symm) t).mp (spaces_of_noTab hnoTab)
  have htree := plainText_unique hspaces ((spaces_iff (fun _ _ => Iff.rfl) t).mpr hjson) htext
  refine ⟨hjson, (strings_iff t).mp ?_⟩
  rwa [PlainText.Strings, ← htree]

end Json5Lemmas

open Json5Lemmas

/-! ## The preprocessing preserves the value -/

/-- For every text of the dialect, of a value nested at most 128 deep: the preprocessed text
is strict JSON for the same value if and only if no vertical tab and no form feed stands
between its tokens, outside the comments, and no control byte in its strings. -/
theorem preprocess_json5_strict_iff (t : Json5Text) (h : t.value.depth ≤ 128) :
    DenotesStrictly (preprocessJson5 t.text) t.value ↔ t.JsonSpaces ∧ t.JsonStrings :=
  ⟨json_of_strict h, strict_of_json h⟩

/-- A bare key, comments with brackets and quotes in them, a string that looks like the end
of an object, and trailing commas. -/
def demoJson5 : Json5Text where
  lead := [.line (ascii " \"\x7b") 10 (by decide) (by decide)]
  tree := .object (.lastMember [] (.bare 97 [] (by decide) (by decide))
    [.block (ascii "\x7d") (by decide)] [.space 32 (by decide)]
    (.array (.item [] (.atom (.string [.raw 44 (by decide), .raw 125 (by decide)])) []
      (.lastItem [] (.atom .null) ⟨[], some [.block (ascii ",") (by decide)]⟩)))
    ⟨[], some []⟩)
  trail := []
  comment := some ⟨ascii " end", by decide⟩

theorem demo_json5_preserved :
    demoJson5.text =
        ascii "// \"\x7b\n\x7ba/*\x7d*/: [\",\x7d\",null,/*,*/],\x7d// end" ∧
      preprocessJson5 demoJson5.text = ascii "\n\x7b\"a\": [\",\x7d\",null]\x7d" ∧
      DenotesStrictly (preprocessJson5 demoJson5.text) demoJson5.value := by
  refine ⟨by decide, by decide, (preprocess_json5_strict_iff demoJson5 (by decide)).mpr ?_⟩
  have hblank : ∀ b, isspace b = true → 32 = b → isJsonSpace b = true := by
    rintro _ - rfl
    decide
  constructor
  · simpa [Json5Text.JsonSpaces, demoJson5, Syn.All, JsonGap, JsonClosing] using hblank
  · simp [Json5Text.JsonStrings, demoJson5, Syn.All, Json5Key.Strict, Atom.Strict, StrictString,
      StrUnit.Strict]

/-- An empty object with a form feed in it. -/
def formFeedJson5 : Json5Text where
  lead := []
  tree := .emptyObject [.space 12 (by decide)]
  trail := []
  comment := none

/-- The form feed is still there after the passes, and the text is not JSON. -/
theorem form_feed_not_json :
    formFeedJson5.text = [123, 12, 125] ∧ formFeedJson5.value.depth ≤ 128 ∧
      ¬ DenotesStrictly (preprocessJson5 formFeedJson5.text) formFeedJson5.value := by
  refine ⟨by decide, by decide, fun h => ?_⟩
  have hgap : JsonGap [.space 12 (by decide)] :=
    (json_of_strict (t := formFeedJson5) (by decide) h).1.2.1
  exact absurd (hgap _ List.mem_cons_self 12 (by decide) rfl) (by decide)

end Iec104Slave
