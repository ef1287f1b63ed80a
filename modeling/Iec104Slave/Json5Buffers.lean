import Iec104Slave.Json5
import Iec104Slave.Lib.CBuffer

/-!
# The buffers of the JSON5 passes

The passes once more, as the loops over indices that they are: every byte is read at an
index of the text, every result goes to the next place of a buffer of fixed size, and the
second pass has its brackets in two arrays of 128 entries. An access outside of the text, a
buffer or an array gives `none`, and so does a loop that does not end in time.

The text may be anything: no bracket needs its partner, and strings and comments need no end.

Results:
1. `strip_loop`, `quote_loop`, `commas_loop`: what each loop writes, from any index on. The
   invariant bounds what is written by what is left of the text; for the brackets it is
   `Holds`, which reads the arrays up to `depth` as the stack.
2. `json5_passes_in_bounds`: the passes of this level never leave their buffers, and compute
   what the passes over lists compute.
-/

namespace Iec104Slave

open CString JsonText CBuffer Json5Lemmas

/-! ## The first pass -/

/-- After the inner loop over a line comment: `if (i < len) out[j++] = text[i]`. -/
def copyLineEnd (text : List UInt8) (size i : Nat) (out : List UInt8) : Option (List UInt8) :=
  if i < text.length then do
    let c ← readAt text i
    putByte size out c
  else some out

/-- The inner loop over a block comment: where it stops, and what it has written. -/
def skipBlock (text : List UInt8) (size : Nat) :
    Nat → Nat → List UInt8 → Option (Nat × List UInt8)
  | 0, _, _ => none
  | fuel + 1, i, out =>
    if i < text.length then do
      let c ← readAt text i
      let next ← readAfter 42 text c i
      if c = 42 ∧ next = 47 then some (i, out)
      else do
        let out ← putByteIf (isEol c) size out c
        skipBlock text size fuel (i + 1) out
    else some (i, out)

/-- The loop of `strip_json5_comments` from index `i` on. -/
def stripLoop (text : List UInt8) (size : Nat) :
    Nat → ScanMode → Nat → List UInt8 → Option (List UInt8)
  | 0, _, _, _ => none
  | fuel + 1, mode, i, out =>
    if i < text.length then do
      let c ← readAt text i
      match mode with
      | .string => do
        let out ← putByte size out c
        stripLoop text size fuel (afterStringByte c) (i + 1) out
      | .escape => do
        let out ← putByte size out c
        stripLoop text size fuel .string (i + 1) out
      | .code =>
        if c = 34 then do
          let out ← putByte size out c
          stripLoop text size fuel .string (i + 1) out
        else do
          let next ← readAfter 47 text c i
          if c = 47 ∧ next = 47 then do
            let k ← skipWhile (fun c => !isEol c) text fuel (i + 2)
            let out ← copyLineEnd text size k out
            stripLoop text size fuel .code (k + 1) out
          else if c = 47 ∧ next = 42 then do
            let (k, out) ← skipBlock text size fuel (i + 2) out
            stripLoop text size fuel .code ((if k < text.length then k + 1 else k) + 1) out
          else do
            let out ← putByte size out c
            stripLoop text size fuel .code (i + 1) out
    else do
      let _ ← putByte size out 0
      some out

/-- `strip_json5_comments` with its buffer of `len + 1` bytes. -/
def stripJson5CommentsBuffer (text : List UInt8) : Option (List UInt8) :=
  stripLoop text (text.length + 1) (text.length + 1) .code 0 []

/-! ## The second pass -/

/-- `stack`, `expect_key` and `depth`. Nothing is known of the entries above `depth`. -/
structure Brackets where
  stack : Vector UInt8 128
  expectKey : Vector Bool 128
  depth : Int

namespace Brackets

/-- An opening bracket. With all 128 entries in use it is not recorded. -/
def push (b : Brackets) (kind : UInt8) (expect : Bool) : Option Brackets :=
  if b.depth < 127 then do
    let stack ← storeAt b.stack (b.depth + 1) kind
    let expectKey ← storeAt b.expectKey (b.depth + 1) expect
    some ⟨stack, expectKey, b.depth + 1⟩
  else some b

/-- A closing bracket. -/
def pop (b : Brackets) : Brackets :=
  if 0 ≤ b.depth then { b with depth := b.depth - 1 } else b

/-- `depth >= 0 && stack[depth] == 'o'`. -/
def inObject (b : Brackets) : Option Bool :=
  if 0 ≤ b.depth then do
    let kind ← loadAt b.stack b.depth
    some (kind == 111)
  else some false

/-- `expect_key[depth] = expect`. -/
def setExpect (b : Brackets) (expect : Bool) : Option Brackets := do
  let expectKey ← storeAt b.expectKey b.depth expect
  some { b with expectKey }

end Brackets

/-- The end of the key at `i`, if a colon follows. -/
def keyEnd (text : List UInt8) (fuel i : Nat) : Option (Option Nat) := do
  let stop ← skipWhile isJson5KeyChar text fuel (i + 1)
  let p ← skipWhile isspace text fuel stop
  if p < text.length then do
    let c ← readAt text p
    some (if c = 58 then some stop else none)
  else some none

/-- The end of the key that starts with `c` at `i`, inside an object where
`expect_key[depth] && is_json5_key_start(c)`. -/
def bareKeyEnd (text : List UInt8) (fuel : Nat) (b : Brackets) (inObject : Bool) (c : UInt8)
    (i : Nat) : Option (Option Nat) :=
  if inObject then do
    let expect ← loadAt b.expectKey b.depth
    if expect && isJson5KeyStart c then keyEnd text fuel i else some none
  else some none

/-- The loop of `quote_json5_keys` from index `i` on. -/
def quoteLoop (text : List UInt8) (size : Nat) :
    Nat → ScanMode → Brackets → Nat → List UInt8 → Option (List UInt8)
  | 0, _, _, _, _ => none
  | fuel + 1, mode, b, i, out =>
    if i < text.length then do
      let c ← readAt text i
      match mode with
      | .string => do
        let out ← putByte size out c
        quoteLoop text size fuel (afterStringByte c) b (i + 1) out
      | .escape => do
        let out ← putByte size out c
        quoteLoop text size fuel .string b (i + 1) out
      | .code =>
        if c = 34 then do
          let out ← putByte size out c
          quoteLoop text size fuel .string b (i + 1) out
        else if c = 123 then do
          let b ← b.push 111 true
          let out ← putByte size out c
          quoteLoop text size fuel .code b (i + 1) out
        else if c = 91 then do
          let b ← b.push 97 false
          let out ← putByte size out c
          quoteLoop text size fuel .code b (i + 1) out
        else if c = 125 ∨ c = 93 then do
          let out ← putByte size out c
          quoteLoop text size fuel .code b.pop (i + 1) out
        else do
          let inObject ← b.inObject
          if inObject = true ∧ c = 44 then do
            let b ← b.setExpect true
            let out ← putByte size out c
            quoteLoop text size fuel .code b (i + 1) out
          else if inObject = true ∧ c = 58 then do
            let b ← b.setExpect false
            let out ← putByte size out c
            quoteLoop text size fuel .code b (i + 1) out
          else do
            let key ← bareKeyEnd text fuel b inObject c i
            match key with
            | some stop => do
              let out ← putByte size out 34
              let out ← copyBytes size out text i stop
              let out ← putByte size out 34
              -- `i = end - 1`, and the `i++` of the loop
              quoteLoop text size fuel .code b (stop - 1 + 1) out
            | none => do
              let out ← putByte size out c
              quoteLoop text size fuel .code b (i + 1) out
    else do
      let _ ← putByte size out 0
      some out

/-- `quote_json5_keys` with its buffer of `len * 3 + 1` bytes. The arrays are not initialised. -/
def quoteJson5KeysBuffer (stack : Vector UInt8 128) (expectKey : Vector Bool 128)
    (text : List UInt8) : Option (List UInt8) :=
  quoteLoop text (text.length * 3 + 1) (text.length + 1) .code ⟨stack, expectKey, -1⟩ 0 []

/-! ## The third pass -/

/-- The look-ahead of `remove_trailing_commas` if `text[i] = c` is a comma. -/
def commaCloses (text : List UInt8) (fuel : Nat) (c : UInt8) (i : Nat) : Option Bool :=
  if c = 44 then do
    let p ← skipWhile isspace text fuel (i + 1)
    if p < text.length then do
      let c ← readAt text p
      some (c == 125 || c == 93)
    else some false
  else some false

/-- The loop of `remove_trailing_commas` from index `i` on. -/
def commasLoop (text : List UInt8) (size : Nat) :
    Nat → ScanMode → Nat → List UInt8 → Option (List UInt8)
  | 0, _, _, _ => none
  | fuel + 1, mode, i, out =>
    if i < text.length then do
      let c ← readAt text i
      match mode with
      | .string => do
        let out ← putByte size out c
        commasLoop text size fuel (afterStringByte c) (i + 1) out
      | .escape => do
        let out ← putByte size out c
        commasLoop text size fuel .string (i + 1) out
      | .code =>
        if c = 34 then do
          let out ← putByte size out c
          commasLoop text size fuel .string (i + 1) out
        else do
          let closes ← commaCloses text fuel c i
          if closes then commasLoop text size fuel .code (i + 1) out
          else do
            let out ← putByte size out c
            commasLoop text size fuel .code (i + 1) out
    else do
      let _ ← putByte size out 0
      some out

/-- `remove_trailing_commas` with its buffer of `len + 1` bytes. -/
def removeTrailingCommasBuffer (text : List UInt8) : Option (List UInt8) :=
  commasLoop text (text.length + 1) (text.length + 1) .code 0 []

/-! ## The stack that the arrays stand for -/

namespace Brackets

/-- The entry at index `k` is for the frame. `expect_key` has no meaning for an array. -/
def IsFrame (b : Brackets) (k : Nat) : Frame → Prop
  | .object expect => b.stack[k]? = some 111 ∧ b.expectKey[k]? = some expect
  | .array => b.stack[k]? = some 97

/-- The entries below the length are the frames, the innermost one first. -/
def Holds (b : Brackets) : List Frame → Prop
  | [] => True
  | frame :: below => b.IsFrame below.length frame ∧ b.Holds below

/-- The arrays up to `depth` are the stack. -/
structure Stands (b : Brackets) (frames : List Frame) : Prop where
  depth_eq : b.depth = (frames.length : Int) - 1
  length_le : frames.length ≤ 128
  holds : b.Holds frames

end Brackets

namespace Json5BuffersLemmas

variable {text rest out : List UInt8} {size fuel i : Nat} {c : UInt8}

/-! ## The first pass -/

/-- A block comment: what is written are its line ends, at most a byte for each that is passed. -/
theorem skipBlock_spec (hfuel : (text.drop i).length < fuel)
    (hroom : out.length + (text.drop i).length < size) :
    ∃ k eols, skipBlock text size fuel i out = some (k, out ++ eols) ∧
      eols.length + (text.drop k).length ≤ (text.drop i).length ∧
      stripJson5Comments (.block false) (text.drop i) =
        eols ++ stripJson5Comments (.plain .code) (text.drop (k + 2)) := by
  induction fuel generalizing i out with
  | zero => cases hfuel
  | succ fuel ih =>
    rw [skipBlock]
    cases hdrop : text.drop i with
    | nil =>
      have hend := length_le_of_drop hdrop
      refine ⟨i, [], ?_, by simp [hdrop], ?_⟩
      · rw [if_neg (Nat.not_lt.mpr hend), List.append_nil]
      · rw [List.drop_eq_nil_of_le (Nat.le_add_right_of_le hend)]
        rfl
    | cons c rest =>
      have hnext := drop_succ_of_drop hdrop
      obtain ⟨next, hread, hmark⟩ := readAfter_of_drop hdrop 42
      rw [hdrop, List.length_cons] at hfuel hroom
      rw [if_pos (lt_length_of_drop hdrop), readAt_of_drop hdrop]
      simp only [Option.bind_eq_bind, Option.bind_some, hread, hmark 47 (by decide)]
      by_cases hstar : c = 42 ∧ rest.head? = some 47
      · rw [if_pos hstar]
        refine ⟨i, [], by simp, by simp [hdrop], ?_⟩
        rw [stripJson5Comments, if_pos hstar]
        cases rest with
        | nil => cases hstar.2
        | cons d rest =>
          rw [drop_succ_of_drop hnext]
          rfl
      · rw [if_neg hstar, stripJson5Comments, if_neg hstar]
        rw [← hnext] at hfuel hroom ⊢
        cases hc : isEol c with
        | true =>
          have hput := putByte_of_lt (Nat.lt_of_le_of_lt (Nat.le_add_right _ _) hroom) c
          have hroom' : (out ++ [c]).length + (text.drop (i + 1)).length < size := by
            rw [List.length_append, List.length_singleton]
            omega
          obtain ⟨k, eols, hskip, hlen, hstrip⟩ := ih (Nat.lt_of_succ_lt_succ hfuel) hroom'
          refine ⟨k, c :: eols, ?_, ?_, ?_⟩
          · simp [putByteIf, hput, hskip]
          · simp only [List.length_cons]
            omega
          · simp [hstrip]
        | false =>
          have hroom' : out.length + (text.drop (i + 1)).length < size :=
            Nat.lt_of_succ_lt hroom
          obtain ⟨k, eols, hskip, hlen, hstrip⟩ := ih (Nat.lt_of_succ_lt_succ hfuel) hroom'
          refine ⟨k, eols, by simp [putByteIf, hskip], ?_, by simp [hstrip]⟩
          simp only [List.length_cons]
          omega

theorem copyLineEnd_eq (hroom : out.length + (text.drop i).length < size) :
    copyLineEnd text size i out = some (out ++ (text.drop i).take 1) := by
  rw [copyLineEnd]
  cases hdrop : text.drop i with
  | nil =>
    rw [if_neg (Nat.not_lt.mpr (length_le_of_drop hdrop))]
    simp
  | cons c rest =>
    rw [if_pos (lt_length_of_drop hdrop), readAt_of_drop hdrop]
    exact putByte_of_lt (Nat.lt_of_le_of_lt (Nat.le_add_right _ _) hroom) c

theorem strip_lineEnd (rest : List UInt8) :
    stripJson5Comments (.line false) rest =
      (rest.dropWhile fun c => !isEol c).take 1 ++
        stripJson5Comments (.plain .code) ((rest.dropWhile fun c => !isEol c).drop 1) := by
  induction rest with
  | nil => rfl
  | cons c rest ih =>
    rw [stripJson5Comments]
    cases hc : isEol c with
    | true => simp [hc]
    | false => simpa [hc] using ih

/-- A line comment: the loop stops at the end of the line, which is kept. -/
theorem skipLine_spec (hfuel : (text.drop i).length < fuel)
    (hroom : out.length + (text.drop i).length < size) :
    ∃ k eol, skipWhile (fun c => !isEol c) text fuel i = some k ∧
      copyLineEnd text size k out = some (out ++ eol) ∧
      eol.length + (text.drop (k + 1)).length ≤ (text.drop i).length ∧
      stripJson5Comments (.line false) (text.drop i) =
        eol ++ stripJson5Comments (.plain .code) (text.drop (k + 1)) := by
  obtain ⟨k, hskip, hdrop⟩ := skipWhile_spec (fun c => !isEol c) hfuel
  have hle : (text.drop k).length ≤ (text.drop i).length := by
    rw [hdrop]
    exact (List.dropWhile_sublist _).length_le
  refine ⟨k, (text.drop k).take 1, hskip, copyLineEnd_eq ?_, ?_, ?_⟩
  · exact Nat.lt_of_le_of_lt (Nat.add_le_add_left hle _) hroom
  · rw [← List.drop_drop, ← List.length_append, List.take_append_drop]
    exact hle
  · rw [strip_lineEnd, ← hdrop, List.drop_drop]

/-- What the first pass writes from index `i` on. -/
theorem strip_loop (mode : ScanMode) (hfuel : (text.drop i).length < fuel)
    (hroom : out.length + (text.drop i).length < size) :
    stripLoop text size fuel mode i out =
      some (out ++ stripJson5Comments (.plain mode) (text.drop i)) := by
  induction fuel generalizing mode i out with
  | zero => cases hfuel
  | succ fuel ih =>
    rw [stripLoop]
    have hput := fun c => putByte_of_lt (Nat.lt_of_le_of_lt (Nat.le_add_right _ _) hroom) c
    cases hdrop : text.drop i with
    | nil =>
      rw [if_neg (Nat.not_lt.mpr (length_le_of_drop hdrop)), hput]
      simp [stripJson5Comments]
    | cons c rest =>
      have hnext := drop_succ_of_drop hdrop
      obtain ⟨next, hread, hmark⟩ := readAfter_of_drop hdrop 47
      rw [hdrop, List.length_cons] at hfuel hroom
      -- what is written up to index k leaves room for the rest
      have hgo : ∀ mode' k w, w.length + (text.drop k).length ≤ rest.length + 1 →
          (text.drop k).length ≤ rest.length →
          stripLoop text size fuel mode' k (out ++ w) =
            some (out ++ (w ++ stripJson5Comments (.plain mode') (text.drop k))) := by
        intro mode' k w hw hk
        rw [ih mode' (by omega) (by rw [List.length_append]; omega), List.append_assoc]
      have hcopy : ∀ mode', stripLoop text size fuel mode' (i + 1) (out ++ [c]) =
          some (out ++ c :: stripJson5Comments (.plain mode') rest) := by
        intro mode'
        have hgo' := hgo mode' (i + 1) [c]
        rw [hnext, List.length_singleton, Nat.add_comm] at hgo'
        exact hgo' (Nat.le_refl _) (Nat.le_refl _)
      rw [if_pos (lt_length_of_drop hdrop), readAt_of_drop hdrop]
      simp only [Option.bind_eq_bind, Option.bind_some, hread, hput, hcopy,
        hmark 47 (by decide), hmark 42 (by decide)]
      cases mode with
      | string => rfl
      | escape => rfl
      | code =>
        dsimp only
        rw [stripJson5Comments]
        by_cases hquote : c = 34
        · rw [if_pos hquote, if_pos hquote]
        rw [if_neg hquote, if_neg hquote]
        by_cases hline : c = 47 ∧ rest.head? = some 47
        · obtain ⟨rest', hrest⟩ := List.head?_eq_some_iff.mp hline.2
          have hdrop' := drop_succ_of_drop (hnext.trans hrest)
          have hlen : rest.length = rest'.length + 1 := congrArg List.length hrest
          have hfuel' : (text.drop (i + 2)).length < fuel := by rw [hdrop']; omega
          have hroom' : out.length + (text.drop (i + 2)).length < size := by rw [hdrop']; omega
          obtain ⟨k, eol, hskip, hend, hle, hstrip⟩ := skipLine_spec hfuel' hroom'
          rw [hdrop'] at hle hstrip
          rw [if_pos hline, if_pos hline, hskip, Option.bind_some, hend, Option.bind_some,
            hgo _ _ _ (by omega) (by omega), ← hstrip, hrest]
          rfl
        rw [if_neg hline, if_neg hline]
        by_cases hblock : c = 47 ∧ rest.head? = some 42
        · obtain ⟨rest', hrest⟩ := List.head?_eq_some_iff.mp hblock.2
          have hdrop' := drop_succ_of_drop (hnext.trans hrest)
          have hlen : rest.length = rest'.length + 1 := congrArg List.length hrest
          have hfuel' : (text.drop (i + 2)).length < fuel := by rw [hdrop']; omega
          have hroom' : out.length + (text.drop (i + 2)).length < size := by rw [hdrop']; omega
          obtain ⟨k, eols, hskip, hle, hstrip⟩ := skipBlock_spec hfuel' hroom'
          -- beyond the end it makes no difference where the loop goes on
          have hbehind : text.drop ((if k < text.length then k + 1 else k) + 1) =
              text.drop (k + 2) := by
            split
            · rfl
            · next hk =>
              rw [List.drop_eq_nil_of_le (Nat.le_succ_of_le (Nat.not_lt.mp hk)),
                List.drop_eq_nil_of_le (Nat.le_add_right_of_le (Nat.not_lt.mp hk))]
          have hshort : (text.drop (k + 2)).length ≤ (text.drop k).length := by
            rw [← List.drop_drop, List.length_drop]
            exact Nat.sub_le _ _
          rw [hdrop'] at hle hstrip
          rw [if_pos hblock, if_pos hblock, hskip, Option.bind_some,
            hgo _ _ _ (by rw [hbehind]; omega) (by rw [hbehind]; omega), hbehind, ← hstrip, hrest]
          rfl
        rw [if_neg hblock, if_neg hblock]

/-! ## The brackets -/

section brackets

variable {b b' : Brackets} {frames : List Frame}

/-- Entries from the length on do not matter. -/
theorem Holds.congr (h : b.Holds frames)
    (hsame : ∀ k < frames.length, b'.stack[k]? = b.stack[k]? ∧ b'.expectKey[k]? = b.expectKey[k]?) :
    b'.Holds frames := by
  induction frames with
  | nil => trivial
  | cons frame below ih =>
    obtain ⟨hstack, hexpect⟩ := hsame below.length (Nat.lt_succ_self _)
    refine ⟨?_, ih h.2 fun k hk => hsame k (Nat.lt_succ_of_lt hk)⟩
    cases frame with
    | object expect => exact ⟨hstack.trans h.1.1, hexpect.trans h.1.2⟩
    | array => exact hstack.trans h.1

theorem push_spec (h : b.Stands frames) (kind : UInt8) (expect : Bool) (frame : Frame)
    (hframe : ∀ b' : Brackets, ∀ k, b'.stack[k]? = some kind → b'.expectKey[k]? = some expect →
      b'.IsFrame k frame) :
    ∃ b', b.push kind expect = some b' ∧ b'.Stands (pushFrame frame frames) := by
  have hdepth : b.depth + 1 = (frames.length : Int) := by
    rw [h.depth_eq, Int.sub_add_cancel]
  have hfull : b.depth < 127 ↔ frames.length < 128 := by
    rw [h.depth_eq]
    omega
  rw [Brackets.push, hdepth, pushFrame]
  by_cases hroom : frames.length < 128
  · rw [if_pos (hfull.mpr hroom), if_pos hroom]
    simp only [storeAt_ofNat _ hroom, Option.bind_eq_bind, Option.bind_some]
    refine ⟨_, rfl, ⟨by simp, hroom, ?_, ?_⟩⟩
    · exact hframe _ _ (by simp) (by simp)
    · refine Holds.congr h.holds fun k hk => ?_
      have hne : frames.length ≠ k := Nat.ne_of_gt hk
      simp [hne]
  · rw [if_neg (mt hfull.mp hroom), if_neg hroom]
    exact ⟨b, rfl, h⟩

theorem pop_spec (h : b.Stands frames) : b.pop.Stands frames.tail := by
  rw [Brackets.pop]
  cases frames with
  | nil =>
    have hdepth : ¬ 0 ≤ b.depth := by
      rw [h.depth_eq]
      decide
    rw [if_neg hdepth]
    exact h
  | cons frame below =>
    have hdepth := h.depth_eq
    rw [List.length_cons] at hdepth
    rw [if_pos (by omega)]
    exact ⟨by rw [List.tail_cons]; show b.depth - 1 = _; omega, Nat.le_of_succ_le h.length_le,
      Holds.congr h.holds.2 fun _ _ => ⟨rfl, rfl⟩⟩

theorem depth_cons {frame : Frame} (h : b.Stands (frame :: frames)) :
    b.depth = (frames.length : Int) := by
  rw [h.depth_eq, List.length_cons, Int.natCast_succ, Int.add_sub_cancel]

theorem inObject_object {expect : Bool} (h : b.Stands (.object expect :: frames)) :
    b.inObject = some true := by
  have hkind : b.stack[frames.length]? = some 111 := h.holds.1.1
  rw [Brackets.inObject, depth_cons h, if_pos (Int.natCast_nonneg _), loadAt_ofNat, hkind]
  rfl

/-- Outside of objects: at the top level and in an array. -/
theorem inObject_other (h : b.Stands frames) (hframes : ∀ e below, frames ≠ .object e :: below) :
    b.inObject = some false := by
  cases frames with
  | nil =>
    rw [Brackets.inObject, if_neg]
    rw [h.depth_eq]
    decide
  | cons frame below =>
    cases frame with
    | object e => exact absurd rfl (hframes e below)
    | array =>
      have hkind : b.stack[below.length]? = some 97 := h.holds.1
      rw [Brackets.inObject, depth_cons h, if_pos (Int.natCast_nonneg _), loadAt_ofNat, hkind]
      rfl

theorem expectKey_object {expect : Bool} (h : b.Stands (.object expect :: frames)) :
    loadAt b.expectKey b.depth = some expect := by
  rw [depth_cons h, loadAt_ofNat]
  exact h.holds.1.2

theorem setExpect_spec {expect : Bool} (h : b.Stands (.object expect :: frames)) (expect' : Bool) :
    ∃ b', b.setExpect expect' = some b' ∧ b'.Stands (.object expect' :: frames) := by
  have hroom : frames.length < 128 := h.length_le
  rw [Brackets.setExpect, depth_cons h, storeAt_ofNat _ hroom]
  refine ⟨_, rfl, ⟨by simp, h.length_le, ⟨h.holds.1.1, by simp⟩, ?_⟩⟩
  refine Holds.congr h.holds.2 fun k hk => ?_
  have hne : frames.length ≠ k := Nat.ne_of_gt hk
  simp [hne]

end brackets

/-! ## The second pass -/

theorem keyEnd_eq (hdrop : text.drop i = c :: rest) (hfuel : rest.length < fuel) :
    keyEnd text fuel i = some (if colonFollows rest then
      some (i + 1 + (rest.takeWhile isJson5KeyChar).length) else none) := by
  have hnext := drop_succ_of_drop hdrop
  have hword : skipWhile isJson5KeyChar text fuel (i + 1) =
      some (i + 1 + (rest.takeWhile isJson5KeyChar).length) := by
    rw [skipWhile_eq _ (by rw [hnext]; exact hfuel), hnext]
  have hstop : text.drop (i + 1 + (rest.takeWhile isJson5KeyChar).length) =
      rest.dropWhile isJson5KeyChar :=
    drop_append_of_drop (hnext.trans List.takeWhile_append_dropWhile.symm)
  have hshort : (text.drop (i + 1 + (rest.takeWhile isJson5KeyChar).length)).length < fuel := by
    rw [hstop]
    exact Nat.lt_of_le_of_lt (List.dropWhile_sublist _).length_le hfuel
  obtain ⟨p, hskip, hp⟩ := skipWhile_spec isspace hshort
  rw [hstop] at hp
  rw [keyEnd, hword, Option.bind_eq_bind, Option.bind_some, hskip, Option.bind_eq_bind,
    Option.bind_some, colonFollows, ← hp]
  cases hcolon : text.drop p with
  | nil =>
    rw [if_neg (Nat.not_lt.mpr (length_le_of_drop hcolon))]
    rfl
  | cons d rest' =>
    rw [if_pos (lt_length_of_drop hcolon), readAt_of_drop hcolon]
    simp

theorem bareKeyEnd_object {b : Brackets} {expect : Bool} {below : List Frame}
    (hb : b.Stands (.object expect :: below)) (hdrop : text.drop i = c :: rest)
    (hfuel : rest.length < fuel) :
    bareKeyEnd text fuel b true c i =
      some (if expect = true ∧ isJson5KeyStart c = true ∧ colonFollows rest = true then
        some (i + 1 + (rest.takeWhile isJson5KeyChar).length) else none) := by
  rw [bareKeyEnd, if_pos rfl, expectKey_object hb, Option.bind_eq_bind, Option.bind_some,
    keyEnd_eq hdrop hfuel]
  cases expect <;> cases isJson5KeyStart c <;> simp

/-- The word, its quotes and what comes behind it. -/
theorem quote_bareKey (stack : List Frame) (c : UInt8) (rest : List UInt8) :
    (34 :: c :: if (rest.takeWhile isJson5KeyChar).length = 0 then
        34 :: quoteJson5Keys stack (.plain .code) rest
      else quoteJson5Keys stack (.key (rest.takeWhile isJson5KeyChar).length) rest) =
      34 :: c :: (rest.takeWhile isJson5KeyChar ++
        34 :: quoteJson5Keys stack (.plain .code) (rest.dropWhile isJson5KeyChar)) := by
  have hsplit := List.takeWhile_append_dropWhile (p := isJson5KeyChar) (l := rest)
  by_cases hword : rest.takeWhile isJson5KeyChar = []
  · rw [hword, List.nil_append] at hsplit
    rw [hword, hsplit]
    rfl
  · rw [if_neg (mt List.length_eq_zero_iff.mp hword)]
    have hkey := quote_keyBytes stack _ hword (rest.dropWhile isJson5KeyChar)
    rw [hsplit] at hkey
    rw [hkey]

/-- The three writes of a key, and the end of the key in the text. -/
theorem key_written (hdrop : text.drop i = c :: rest)
    (hroom : out.length + 3 * (rest.length + 1) < size) :
    let w := rest.takeWhile isJson5KeyChar
    copyBytes size (out ++ [34]) text i (i + 1 + w.length) = some (out ++ [34] ++ c :: w) ∧
      putByte size (out ++ [34] ++ c :: w) 34 = some (out ++ (34 :: c :: w ++ [34])) ∧
      text.drop (i + 1 + w.length) = rest.dropWhile isJson5KeyChar ∧
      w.length + (rest.dropWhile isJson5KeyChar).length = rest.length := by
  intro w
  have hsplit : w ++ rest.dropWhile isJson5KeyChar = rest := List.takeWhile_append_dropWhile
  have hlen : w.length + (rest.dropWhile isJson5KeyChar).length = rest.length := by
    rw [← List.length_append, hsplit]
  have hword : text.drop i = (c :: w) ++ rest.dropWhile isJson5KeyChar := by
    rw [hdrop, List.cons_append, hsplit]
  have hstop : i + 1 + w.length = i + (c :: w).length := by
    rw [List.length_cons, Nat.add_assoc, Nat.add_comm 1]
  have hfits : (out ++ [34]).length + (c :: w).length < size := by
    simp only [List.length_append, List.length_cons, List.length_nil]
    omega
  rw [hstop]
  refine ⟨copyBytes_of_drop hword (List.cons_ne_nil _ _) (Nat.le_of_lt hfits), ?_,
    drop_append_of_drop hword, hlen⟩
  rw [putByte_of_lt (by rw [List.length_append]; exact hfits)]
  simp

/-- What the second pass writes from index `i` on. A key costs two bytes more than it has. -/
theorem quote_loop (mode : ScanMode) {b : Brackets} {frames : List Frame} (hb : b.Stands frames)
    (hfuel : (text.drop i).length < fuel)
    (hroom : out.length + 3 * (text.drop i).length < size) :
    quoteLoop text size fuel mode b i out =
      some (out ++ quoteJson5Keys frames (.plain mode) (text.drop i)) := by
  induction fuel generalizing mode b frames i out with
  | zero => cases hfuel
  | succ fuel ih =>
    rw [quoteLoop]
    have hput := fun c => putByte_of_lt (Nat.lt_of_le_of_lt (Nat.le_add_right _ _) hroom) c
    cases hdrop : text.drop i with
    | nil =>
      rw [if_neg (Nat.not_lt.mpr (length_le_of_drop hdrop)), hput]
      simp [quoteJson5Keys]
    | cons c rest =>
      have hnext := drop_succ_of_drop hdrop
      rw [hdrop, List.length_cons] at hfuel hroom
      have hgo : ∀ mode' {b' : Brackets} {frames'} k w, b'.Stands frames' →
          w.length + 3 * (text.drop k).length ≤ 3 * (rest.length + 1) →
          (text.drop k).length ≤ rest.length →
          quoteLoop text size fuel mode' b' k (out ++ w) =
            some (out ++ (w ++ quoteJson5Keys frames' (.plain mode') (text.drop k))) := by
        intro mode' b' frames' k w hb' hw hk
        rw [ih mode' hb' (by omega) (by rw [List.length_append]; omega), List.append_assoc]
      have hcopy : ∀ mode' {b' : Brackets} {frames'}, b'.Stands frames' →
          quoteLoop text size fuel mode' b' (i + 1) (out ++ [c]) =
            some (out ++ c :: quoteJson5Keys frames' (.plain mode') rest) := by
        intro mode' b' frames' hb'
        have hgo' := hgo mode' (i + 1) [c] hb'
        rw [hnext, List.length_singleton] at hgo'
        exact hgo' (by omega) (Nat.le_refl _)
      rw [if_pos (lt_length_of_drop hdrop), readAt_of_drop hdrop]
      simp only [Option.bind_eq_bind, Option.bind_some, hput]
      cases mode with
      | string => exact hcopy _ hb
      | escape => exact hcopy _ hb
      | code =>
        dsimp only
        rw [quote_code]
        by_cases hquote : c = 34
        · rw [if_pos hquote, if_pos hquote]
          exact hcopy _ hb
        rw [if_neg hquote, if_neg hquote]
        by_cases hobject : c = 123
        · obtain ⟨b', hpush, hb'⟩ := push_spec hb 111 true (.object true)
            fun _ _ hkind hexpect => ⟨hkind, hexpect⟩
          rw [if_pos hobject, if_pos hobject, hpush]
          exact hcopy _ hb'
        rw [if_neg hobject, if_neg hobject]
        by_cases harray : c = 91
        · obtain ⟨b', hpush, hb'⟩ := push_spec hb 97 false .array
            fun _ _ hkind _ => hkind
          rw [if_pos harray, if_pos harray, hpush]
          exact hcopy _ hb'
        rw [if_neg harray, if_neg harray]
        by_cases hclose : c = 125 ∨ c = 93
        · rw [if_pos hclose, if_pos hclose]
          exact hcopy _ (pop_spec hb)
        rw [if_neg hclose, if_neg hclose]
        by_cases hframes : ∃ expect below, frames = .object expect :: below
        · obtain ⟨expect, below, rfl⟩ := hframes
          rw [inObject_object hb]
          simp only [Option.bind_some, true_and]
          by_cases hcomma : c = 44
          · obtain ⟨b', hset, hb'⟩ := setExpect_spec hb true
            rw [if_pos hcomma, if_pos hcomma, hset]
            exact hcopy _ hb'
          rw [if_neg hcomma, if_neg hcomma]
          by_cases hcolon : c = 58
          · obtain ⟨b', hset, hb'⟩ := setExpect_spec hb false
            rw [if_pos hcolon, if_pos hcolon, hset]
            exact hcopy _ hb'
          rw [if_neg hcolon, if_neg hcolon,
            bareKeyEnd_object hb hdrop (Nat.lt_of_succ_lt_succ hfuel)]
          by_cases hkey : expect = true ∧ isJson5KeyStart c = true ∧ colonFollows rest = true
          · rw [if_pos hkey, if_pos hkey, quote_bareKey]
            obtain ⟨hword, hend, hbehind, hlen⟩ := key_written hdrop hroom
            have hindex : i + 1 + (rest.takeWhile isJson5KeyChar).length - 1 + 1 =
                i + 1 + (rest.takeWhile isJson5KeyChar).length := by omega
            simp only [Option.bind_some, hword, hend, hindex]
            have hgoKey := hgo .code (i + 1 + (rest.takeWhile isJson5KeyChar).length)
              (34 :: c :: rest.takeWhile isJson5KeyChar ++ [34]) hb
            simp only [hbehind, List.length_append, List.length_cons, List.length_nil] at hgoKey
            rw [hgoKey (by omega) (by omega)]
            simp
          · rw [if_neg hkey, if_neg hkey]
            exact hcopy _ hb
        · have hother : ∀ e below, frames ≠ .object e :: below :=
            fun e below h => hframes ⟨e, below, h⟩
          rw [inObject_other hb hother]
          simp only [Option.bind_some, Bool.false_eq_true, false_and, if_false, bareKeyEnd]
          rw [hcopy .code hb]

/-! ## The third pass -/

theorem commaCloses_eq (hdrop : text.drop i = c :: rest) (hfuel : rest.length < fuel) :
    commaCloses text fuel c i = some (decide (c = 44 ∧ closingFollows rest = true)) := by
  rw [commaCloses]
  by_cases hcomma : c = 44
  · have hnext := drop_succ_of_drop hdrop
    obtain ⟨p, hskip, hp⟩ := skipWhile_spec isspace (hnext.symm ▸ hfuel :
      (text.drop (i + 1)).length < fuel)
    rw [hnext] at hp
    rw [if_pos hcomma, hskip, Option.bind_eq_bind, Option.bind_some, closingFollows, ← hp]
    cases hbehind : text.drop p with
    | nil =>
      rw [if_neg (Nat.not_lt.mpr (length_le_of_drop hbehind))]
      simp
    | cons d rest' =>
      rw [if_pos (lt_length_of_drop hbehind), readAt_of_drop hbehind]
      simp [hcomma, beq_eq_decide]
  · rw [if_neg hcomma]
    simp [hcomma]

/-- What the third pass writes from index `i` on. -/
theorem commas_loop (mode : ScanMode) (hfuel : (text.drop i).length < fuel)
    (hroom : out.length + (text.drop i).length < size) :
    commasLoop text size fuel mode i out =
      some (out ++ removeTrailingCommas mode (text.drop i)) := by
  induction fuel generalizing mode i out with
  | zero => cases hfuel
  | succ fuel ih =>
    rw [commasLoop]
    have hput := fun c => putByte_of_lt (Nat.lt_of_le_of_lt (Nat.le_add_right _ _) hroom) c
    cases hdrop : text.drop i with
    | nil =>
      rw [if_neg (Nat.not_lt.mpr (length_le_of_drop hdrop)), hput]
      simp [removeTrailingCommas]
    | cons c rest =>
      have hnext := drop_succ_of_drop hdrop
      rw [hdrop, List.length_cons] at hfuel hroom
      have hcopy : ∀ mode', commasLoop text size fuel mode' (i + 1) (out ++ [c]) =
          some (out ++ c :: removeTrailingCommas mode' rest) := by
        intro mode'
        rw [ih mode' (by rw [hnext]; omega)
          (by rw [hnext, List.length_append, List.length_singleton]; omega), hnext,
          List.append_assoc, List.singleton_append]
      rw [if_pos (lt_length_of_drop hdrop), readAt_of_drop hdrop]
      simp only [Option.bind_eq_bind, Option.bind_some, hput, hcopy,
        commaCloses_eq hdrop (Nat.lt_of_succ_lt_succ hfuel), decide_eq_true_eq]
      cases mode with
      | string => rfl
      | escape => rfl
      | code =>
        dsimp only
        rw [removeTrailingCommas]
        by_cases hquote : c = 34
        · rw [if_pos hquote, if_pos hquote]
        rw [if_neg hquote, if_neg hquote]
        by_cases hclose : c = 44 ∧ closingFollows rest = true
        · rw [if_pos hclose, if_pos hclose, ih .code (by rw [hnext]; omega)
            (by rw [hnext]; omega), hnext]
        · rw [if_neg hclose, if_neg hclose]

/-! ## What the passes emit -/

theorem strip_length_le (mode : StripMode) (text : List UInt8) :
    (stripJson5Comments mode text).length ≤ text.length := by
  fun_induction stripJson5Comments mode text <;> simp only [List.length_cons, List.length_nil] <;>
    omega

theorem quote_length_le (stack : List Frame) (mode : QuoteMode) (text : List UInt8) :
    (quoteJson5Keys stack mode text).length ≤ 3 * text.length := by
  fun_induction quoteJson5Keys stack mode text <;>
    simp only [List.length_cons, List.length_nil] <;> grind

theorem commas_length_le (mode : ScanMode) (text : List UInt8) :
    (removeTrailingCommas mode text).length ≤ text.length := by
  fun_induction removeTrailingCommas mode text <;>
    simp only [List.length_cons, List.length_nil] <;> omega

end Json5BuffersLemmas

open Json5BuffersLemmas

/-! ## The passes stay inside -/

/-- For every text, and whatever the arrays of the second pass have in them before: no pass
reads behind the NUL of the text, writes behind its buffer or uses a depth outside of its
arrays, and each emits what the pass over lists computes, in at most as many bytes as the
text has, or three times as many for the second pass. -/
theorem json5_passes_in_bounds (text : List UInt8) (stack : Vector UInt8 128)
    (expectKey : Vector Bool 128) :
    (∃ out, stripJson5CommentsBuffer text = some out ∧ out.length ≤ text.length ∧
        out = stripJson5Comments (.plain .code) text) ∧
      (∃ out, quoteJson5KeysBuffer stack expectKey text = some out ∧
        out.length ≤ 3 * text.length ∧ out = quoteJson5Keys [] (.plain .code) text) ∧
      ∃ out, removeTrailingCommasBuffer text = some out ∧ out.length ≤ text.length ∧
        out = removeTrailingCommas .code text := by
  have hempty : (⟨stack, expectKey, -1⟩ : Brackets).Stands [] := ⟨rfl, by decide, trivial⟩
  have hfuel : (text.drop 0).length < text.length + 1 := Nat.lt_succ_self _
  refine ⟨⟨_, strip_loop .code hfuel (by simp), strip_length_le _ _, rfl⟩,
    ⟨_, quote_loop .code hempty hfuel ?_, quote_length_le _ _ _, rfl⟩,
    ⟨_, commas_loop .code hfuel (by simp), commas_length_le _ _, rfl⟩⟩
  rw [List.drop_zero, List.length_nil, Nat.mul_comm]
  omega

end Iec104Slave
