import Iec104Slave.Json5

/-!
# Strict JSON under the preprocessing

A configuration file may already be strict JSON, of any depth. Beyond 128 levels the second
pass does not record the brackets it sees, but still forgets one at each closing bracket, so
it takes the elements of an array for keys and the keys of an object for elements. This
does no harm: outside the strings of a strict text no word has a colon after it.

`Settled` collects what the passes would change: a text without comment marks, without a
comma before a closing bracket and without a word before a colon, all outside of strings.

Results:
1. `strip_settled`, `quote_settled`, `commas_settled`: each pass copies a settled text, the
   second one from every stack.
2. `settled_tree`: a strict text is settled.
3. `preprocess_json5_strict_unchanged`: strict JSON is left alone, so the preprocessing is
   idempotent where its result is strict.
-/

namespace Iec104Slave

open CString JsonText Json5Lemmas

/-- No pass has anything to do in the text, whatever it has recorded of the brackets. -/
inductive Settled : List UInt8 → Prop
  | nil : Settled []
  | string (units : List StrUnit) {rest : List UInt8} (h : Settled rest) :
      Settled (stringText units ++ rest)
  | byte {b : UInt8} {rest : List UInt8} (hquote : b ≠ 34) (hslash : b ≠ 47)
      (hcomma : b = 44 → closingFollows rest = false)
      (hkey : isJson5KeyStart b = true → colonFollows rest = false) (h : Settled rest) :
      Settled (b :: rest)

namespace Json5StrictLemmas

/-! ## The passes on a settled text -/

theorem strip_settled {text : List UInt8} (h : Settled text) :
    stripJson5Comments (.plain .code) text = text := by
  induction h with
  | nil => rfl
  | string units _ ih => rw [strip_string, ih]
  | byte hquote hslash _ _ _ ih => rw [strip_copy hquote hslash, ih]

/-- A byte that starts no string and no key is copied; the stack may change with it. -/
theorem quote_byte {b : UInt8} {rest : List UInt8} (hquote : b ≠ 34)
    (hkey : isJson5KeyStart b = true → colonFollows rest = false) (stack : List Frame) :
    ∃ stack', quoteJson5Keys stack (.plain .code) (b :: rest) =
      b :: quoteJson5Keys stack' (.plain .code) rest := by
  have hplain : ¬ (isJson5KeyStart b = true ∧ colonFollows rest = true) := by
    rintro ⟨hstart, hcolon⟩
    cases (hkey hstart).symm.trans hcolon
  rw [quote_code, if_neg hquote]
  split
  · exact ⟨_, rfl⟩
  split
  · exact ⟨_, rfl⟩
  split
  · exact ⟨_, rfl⟩
  cases stack with
  | nil => exact ⟨_, rfl⟩
  | cons frame below =>
    cases frame with
    | array => exact ⟨_, rfl⟩
    | object expectKey =>
      dsimp only
      split
      · exact ⟨_, rfl⟩
      split
      · exact ⟨_, rfl⟩
      rw [if_neg fun h => hplain h.2]
      exact ⟨_, rfl⟩

theorem quote_settled {text : List UInt8} (h : Settled text) (stack : List Frame) :
    quoteJson5Keys stack (.plain .code) text = text := by
  induction h generalizing stack with
  | nil => rfl
  | string units _ ih => rw [quote_string, ih]
  | byte hquote _ _ hkey _ ih =>
    obtain ⟨stack', hstep⟩ := quote_byte hquote hkey stack
    rw [hstep, ih]

theorem commas_settled {text : List UInt8} (h : Settled text) :
    removeTrailingCommas .code text = text := by
  induction h with
  | nil => rfl
  | string units _ ih => rw [commas_string, ih]
  | @byte b rest hquote _ hcomma _ _ ih =>
    by_cases hb : b = 44
    · subst hb
      rw [commas_keep (hcomma rfl), ih]
    · rw [commas_copy hquote hb, ih]

theorem preprocess_settled {text : List UInt8} (h : Settled text) :
    preprocessJson5 text = text := by
  simp only [preprocessJson5, strip_settled h, quote_settled h, commas_settled h]

/-! ## Words and what follows them -/

theorem not_keyChar_colon : isJson5KeyChar 58 = false := by decide

/-- After white space the colon may not follow either. -/
theorem colonFollows_space {text : List UInt8} (h : colonFollows text = false) :
    ((text.dropWhile isspace).head? == some 58) = false := by
  cases text with
  | nil => rfl
  | cons c text =>
    by_cases hc : isJson5KeyChar c = true
    · -- a byte of a word is neither white space nor a colon
      have hspace : isspace c = false := by
        refine eq_false_of_ne_true fun hs => ?_
        cases (not_keyChar_of_space hs).symm.trans hc
      have hcolon : c ≠ 58 := by
        rintro rfl
        cases not_keyChar_colon.symm.trans hc
      simp [hspace, hcolon]
    · simpa [colonFollows, hc] using h

theorem colonFollows_cons {b : UInt8} {text : List UInt8} (hb : b ≠ 58)
    (h : colonFollows text = false) : colonFollows (b :: text) = false := by
  by_cases hkey : isJson5KeyChar b = true
  · simpa [colonFollows, hkey] using h
  · by_cases hspace : isspace b = true
    · simpa [colonFollows, hkey, hspace] using colonFollows_space h
    · simp [colonFollows, hkey, hspace, hb]

theorem colonFollows_append {w rest : List UInt8} (hw : ∀ b ∈ w, b ≠ 58)
    (h : colonFollows rest = false) : colonFollows (w ++ rest) = false := by
  induction w with
  | nil => exact h
  | cons b w ih =>
    rw [List.forall_mem_cons] at hw
    exact colonFollows_cons hw.1 (ih hw.2)

theorem ne_of_inert {b c : UInt8} (h : Inert b) (hc : ¬ Inert c) : b ≠ c := by
  rintro rfl
  exact hc h

/-- A word or a number may stand before a text that does not go on with a colon. -/
theorem settled_word {w rest : List UInt8} (hw : ∀ b ∈ w, Inert b) (hrest : Settled rest)
    (hcolon : colonFollows rest = false) : Settled (w ++ rest) := by
  induction w with
  | nil => exact hrest
  | cons b w ih =>
    rw [List.forall_mem_cons] at hw
    have hnot : ∀ x ∈ w, x ≠ 58 := fun x hx => ne_of_inert (hw.2 x hx) (by decide)
    exact .byte (ne_of_inert hw.1 (by decide)) (ne_of_inert hw.1 (by decide))
      (fun h => absurd h (ne_of_inert hw.1 (by decide))) (fun _ => colonFollows_append hnot hcolon)
      (ih hw.2)

/-! ## Strict texts are settled -/

theorem isspace_of_jsonSpace {b : UInt8} (h : isJsonSpace b = true) : isspace b = true := by
  simp only [isJsonSpace, Bool.or_eq_true, beq_iff_eq] at h
  rcases h with ((rfl | rfl) | rfl) | rfl <;> rfl

/-- White space of JSON. -/
def Blank (gap : List UInt8) : Prop :=
  ∀ b ∈ gap, isJsonSpace b = true

theorem not_keyStart_of_space {b : UInt8} (h : isspace b = true) : isJson5KeyStart b = false := by
  refine eq_false_of_ne_true fun hstart => ?_
  cases (not_keyChar_of_space h).symm.trans (keyChar_of_keyStart hstart)

theorem settled_gap {gap rest : List UInt8} (hgap : Blank gap) (hrest : Settled rest) :
    Settled (gap ++ rest) := by
  induction gap with
  | nil => exact hrest
  | cons b gap ih =>
    obtain ⟨hb, hgap⟩ := List.forall_mem_cons.mp hgap
    have hspace := isspace_of_jsonSpace hb
    have hinert := inert_space hspace
    have hstart := not_keyStart_of_space hspace
    exact .byte (ne_of_inert hinert (by decide)) (ne_of_inert hinert (by decide))
      (fun h => absurd h (ne_of_inert hinert (by decide)))
      (fun h => absurd (hstart.symm.trans h) Bool.false_ne_true) (ih hgap)

theorem colonFollows_gap {gap rest : List UInt8} (hgap : Blank gap)
    (h : colonFollows rest = false) : colonFollows (gap ++ rest) = false :=
  colonFollows_append
    (fun b hb => ne_of_inert (inert_space (isspace_of_jsonSpace (hgap b hb))) (by decide)) h

theorem closingFollows_gap {gap : List UInt8} (hgap : Blank gap) (rest : List UInt8) :
    closingFollows (gap ++ rest) = closingFollows rest := by
  rw [closingFollows, List.dropWhile_append_of_pos fun b hb => isspace_of_jsonSpace (hgap b hb)]
  rfl

/-- Brackets and the colon between a key and its value. -/
theorem settled_punct {b : UInt8} {rest : List UInt8} (hb : b ∈ [91, 93, 123, 125, 58])
    (h : Settled rest) : Settled (b :: rest) := by
  have hplain : ([91, 93, 123, 125, 58] : List UInt8).all fun c =>
      decide (c ≠ 34 ∧ c ≠ 47 ∧ c ≠ 44 ∧ isJson5KeyStart c = false) := by decide
  obtain ⟨hquote, hslash, hcomma, hstart⟩ :=
    of_decide_eq_true (List.all_eq_true.mp hplain b hb)
  exact .byte hquote hslash (fun h => absurd h hcomma)
    (fun h => absurd (hstart.symm.trans h) Bool.false_ne_true) h

theorem settled_comma {rest : List UInt8} (hclosing : closingFollows rest = false)
    (h : Settled rest) : Settled (44 :: rest) :=
  .byte (by decide) (by decide) (fun _ => hclosing) (fun h => absurd h (by decide)) h

theorem settled_atom (a : Atom) {rest : List UInt8} (hrest : Settled rest)
    (hcolon : colonFollows rest = false) : Settled (a.text ++ rest) := by
  cases a with
  | null => exact settled_word (by simp [Atom.text, Inert]) hrest hcolon
  | bool b => cases b <;> exact settled_word (by simp [Atom.text, Inert]) hrest hcolon
  | number n => exact settled_word (inert_number n) hrest hcolon
  | string units => exact .string units hrest

theorem not_closingFollows_plain {p : Part} {s : PlainSyn p} (hs : BlankGaps s)
    (rest : List UInt8) : closingFollows (s.text plainLexis ++ rest) = false :=
  not_closingFollows (L := plainLexis) (G := Blank) (fun _ hgap => closingFollows_gap hgap)
    (fun _ _ => rfl) rfl s hs rest

/-- A part of a strict text in front of a settled text. A colon may not follow, because the
part may end with a word. -/
theorem settled_tree {p : Part} (s : PlainSyn p) (hs : BlankGaps s) {rest : List UInt8}
    (hrest : Settled rest) (hcolon : colonFollows rest = false) :
    Settled (s.text plainLexis ++ rest) := by
  induction s generalizing rest with
  | atom a => exact settled_atom a hrest hcolon
  | emptyArray gap =>
    simp only [Syn.text, List.cons_append, List.append_assoc, List.nil_append]
    exact settled_punct (by decide) (settled_gap hs (settled_punct (by decide) hrest))
  | array items ih =>
    simp only [Syn.text, List.cons_append, List.append_assoc, List.nil_append]
    exact settled_punct (by decide) (ih hs (settled_punct (by decide) hrest) rfl)
  | emptyObject gap =>
    simp only [Syn.text, List.cons_append, List.append_assoc, List.nil_append]
    exact settled_punct (by decide) (settled_gap hs (settled_punct (by decide) hrest))
  | object members ih =>
    simp only [Syn.text, List.cons_append, List.append_assoc, List.nil_append]
    exact settled_punct (by decide) (ih hs (settled_punct (by decide) hrest) rfl)
  | lastItem before v close ih =>
    obtain ⟨hbefore, hv, hclose⟩ := hs
    simp only [Syn.text, List.append_assoc]
    exact settled_gap hbefore
      (ih hv (settled_gap hclose hrest) (colonFollows_gap hclose hcolon))
  | item before v after tail ihv ih =>
    obtain ⟨hbefore, hv, hafter, htail⟩ := hs
    simp only [Syn.text, List.append_assoc, List.cons_append]
    have hnext := settled_comma (not_closingFollows_plain htail rest) (ih htail hrest hcolon)
    exact settled_gap hbefore
      (ihv hv (settled_gap hafter hnext) (colonFollows_gap hafter rfl))
  | lastMember before key colon gap v close ih =>
    obtain ⟨hbefore, -, hcolonGap, hgap, hv, hclose⟩ := hs
    simp only [Syn.text, List.append_assoc, List.cons_append]
    have hvalue := ih hv (settled_gap hclose hrest) (colonFollows_gap hclose hcolon)
    exact settled_gap hbefore
      (.string key (settled_gap hcolonGap (settled_punct (by decide) (settled_gap hgap hvalue))))
  | member before key colon gap v after tail ihv ih =>
    obtain ⟨hbefore, -, hcolonGap, hgap, hv, hafter, htail⟩ := hs
    simp only [Syn.text, List.append_assoc, List.cons_append]
    have hnext := settled_comma (not_closingFollows_plain htail rest) (ih htail hrest hcolon)
    have hvalue := ihv hv (settled_gap hafter hnext) (colonFollows_gap hafter rfl)
    exact settled_gap hbefore
      (.string key (settled_gap hcolonGap (settled_punct (by decide) (settled_gap hgap hvalue))))

theorem settled_strict {text : List UInt8} {v : Json} (h : DenotesStrictly text v) :
    Settled text := by
  obtain ⟨t, ⟨hlead, htree, htrail⟩, -, rfl, -⟩ := h
  have hend : Settled t.trail := by
    simpa using settled_gap htrail .nil
  have hcolon : colonFollows t.trail = false := by
    simpa using colonFollows_gap htrail (show colonFollows [] = false from rfl)
  rw [PlainText.text, List.append_assoc]
  exact settled_gap hlead (settled_tree t.tree htree hend hcolon)

end Json5StrictLemmas

open Json5StrictLemmas

/-! ## Strict JSON is left alone -/

/-- A strict JSON text of any depth goes through the passes unchanged. Hence a second run of
the preprocessing changes nothing where the first one gave strict JSON. -/
theorem preprocess_json5_strict_unchanged (text : List UInt8) :
    (∀ v, DenotesStrictly text v → preprocessJson5 text = text) ∧
      ∀ v, DenotesStrictly (preprocessJson5 text) v →
        preprocessJson5 (preprocessJson5 text) = preprocessJson5 text :=
  ⟨fun _ h => preprocess_settled (settled_strict h),
    fun _ h => preprocess_settled (settled_strict h)⟩

/-- A value below `n` arrays and `n` objects, an object in each array. The keys look like
comments. -/
def deepTree : Nat → PlainSyn .value
  | 0 => .atom (.bool true)
  | n + 1 => .array (.item [32] (.atom .null) []
      (.lastItem [] (.object (.lastMember [] [.raw 47 (by decide), .raw 47 (by decide)] [] [10]
        (deepTree n) [])) []))

/-- A text that is nested deeper than the stack of the second pass. -/
def deepText : PlainText where
  lead := []
  tree := deepTree 65
  trail := [10]

theorem blankGaps_deep (n : Nat) : BlankGaps (deepTree n) := by
  induction n with
  | zero => trivial
  | succ n ih =>
    simp only [BlankGaps, deepTree, Syn.All] at ih ⊢
    simpa [isJsonSpace] using ih

theorem strings_deep (n : Nat) :
    (deepTree n).All (fun _ => True) StrictString (fun _ => True) Atom.Strict := by
  induction n with
  | zero => trivial
  | succ n ih => simpa [deepTree, Syn.All, Atom.Strict, StrictString, StrUnit.Strict] using ih

theorem depth_deep (n : Nat) : (deepTree n).depth = 2 * n := by
  induction n with
  | zero => rfl
  | succ n ih => simp [deepTree, Syn.depth, ih, Nat.mul_succ]

theorem deep_json_unchanged :
    128 < deepText.value.depth ∧ DenotesStrictly deepText.text deepText.value ∧
      preprocessJson5 deepText.text = deepText.text ∧
      preprocessJson5 (preprocessJson5 deepText.text) = preprocessJson5 deepText.text := by
  have hstrict : DenotesStrictly deepText.text deepText.value :=
    ⟨deepText, ⟨by simp [deepText], blankGaps_deep 65, by simp [deepText, isJsonSpace]⟩,
      strings_deep 65, rfl, rfl⟩
  have hsame := (preprocess_json5_strict_unchanged deepText.text).1 _ hstrict
  refine ⟨?_, hstrict, hsame, ?_⟩
  · rw [PlainText.value, depth_map, deepText, depth_deep]
    decide
  · refine (preprocess_json5_strict_unchanged deepText.text).2 deepText.value ?_
    rw [hsame]
    exact hstrict

end Iec104Slave
