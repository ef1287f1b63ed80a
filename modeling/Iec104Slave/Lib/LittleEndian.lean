import Mathlib.Algebra.Order.Group.Nat

/-!
# Little-endian numbers

Numbers of a fixed width as bytes, least significant byte first, and rows of such numbers.
The decoder of a row is told how many numbers to expect and stops at the end of the bytes.
-/

namespace LittleEndian

/-- The lowest `width` bytes of `n`. -/
def encode : Nat → Nat → List UInt8
  | 0, _ => []
  | width + 1, n => UInt8.ofNat n :: encode width (n / 256)

def decode : List UInt8 → Nat
  | [] => 0
  | b :: bytes => b.toNat + 256 * decode bytes

/-- `count` numbers of `width` bytes each, or as many as there are. -/
def decodeRow (width : Nat) : Nat → List UInt8 → List Nat
  | 0, _ => []
  | count + 1, bytes =>
    if bytes.length < width then []
    else decode (bytes.take width) :: decodeRow width count (bytes.drop width)

@[simp] theorem length_encode (width n : Nat) : (encode width n).length = width := by
  induction width generalizing n with
  | zero => rfl
  | succ width ih => rw [encode, List.length_cons, ih]

theorem decode_encode (width n : Nat) : decode (encode width n) = n % 256 ^ width := by
  induction width generalizing n with
  | zero => rw [encode, decode, Nat.pow_zero, Nat.mod_one]
  | succ width ih =>
    have hpow : 256 ^ (width + 1) = 256 * 256 ^ width := Nat.pow_succ'
    rw [encode, decode, ih, UInt8.toNat_ofNat', hpow]
    exact Nat.mod_mul.symm

/-- A row is read back modulo the width, whatever follows it. -/
theorem decodeRow_encode (width : Nat) (l : List Nat) (tail : List UInt8) :
    decodeRow width l.length (l.flatMap (encode width) ++ tail) =
      l.map fun n => n % 256 ^ width := by
  induction l with
  | nil => rfl
  | cons n l ih =>
    have hlen : (encode width n).length = width := length_encode width n
    rw [List.length_cons, decodeRow, List.flatMap_cons, List.append_assoc, if_neg]
    · rw [List.take_left' hlen, List.drop_left' hlen, decode_encode, ih, List.map_cons]
    · rw [List.length_append, hlen]
      exact Nat.not_lt.mpr (Nat.le_add_right _ _)

theorem length_flatMap_encode (width : Nat) (l : List Nat) :
    (l.flatMap (encode width)).length = l.length * width := by
  induction l with
  | nil => exact (Nat.zero_mul width).symm
  | cons n l ih =>
    rw [List.flatMap_cons, List.length_append, length_encode, ih, List.length_cons,
      Nat.add_one_mul, Nat.add_comm]

/-- Piece number `k` of pieces of one width starts at `k * width`. -/
theorem drop_pieces {α : Type} {f : α → List UInt8} {l : List α} {width k : Nat} {a : α}
    (hwidth : ∀ x ∈ l, (f x).length = width) (ha : l[k]? = some a) :
    ∃ rest, (l.flatMap f).drop (k * width) = f a ++ rest := by
  induction l generalizing k with
  | nil => simp at ha
  | cons x l ih =>
    rw [List.flatMap_cons]
    cases k with
    | zero =>
      cases ha
      exact ⟨l.flatMap f, by rw [Nat.zero_mul, List.drop_zero]⟩
    | succ k =>
      obtain ⟨rest, hrest⟩ := ih (fun y hy => hwidth y (List.mem_cons_of_mem _ hy)) ha
      refine ⟨rest, ?_⟩
      rw [Nat.add_one_mul, Nat.add_comm, ← List.drop_drop,
        List.drop_left' (hwidth x (List.mem_cons_self ..)), hrest]

end LittleEndian
