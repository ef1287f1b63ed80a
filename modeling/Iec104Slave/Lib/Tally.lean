import Mathlib.Algebra.BigOperators.Group.Finset.Basic
import Mathlib.Algebra.Order.BigOperators.Group.Finset
import Mathlib.Data.Fintype.Card

/-!
# Counting the threads at a program position

The threads of a system are a finite type `T`, and `f t` is the position of thread `t`.
`count P f` is the number of threads whose position satisfies `P`. When one thread moves,
every count changes by what that thread leaves and what it enters (`count_update`), and a
relation between counts that holds at each position holds of the sums.
-/

namespace Tally

variable {T β : Type} [Fintype T] {P Q R S : β → Bool} {f : T → β}

/-- The number of threads at a position in `P`. -/
def count (P : β → Bool) (f : T → β) : Nat :=
  ∑ t, (P (f t)).toNat

theorem count_pos (t : T) (h : P (f t) = true) : 0 < count P f := by
  refine Finset.sum_pos' (fun _ _ => Nat.zero_le _) ⟨t, Finset.mem_univ t, ?_⟩
  rw [h]
  exact Nat.one_pos

theorem exists_of_count_pos (h : 0 < count P f) : ∃ t, P (f t) = true := by
  by_contra hnone
  refine h.ne' (Finset.sum_eq_zero fun t _ => ?_)
  rw [Bool.eq_false_of_not_eq_true fun ht => hnone ⟨t, ht⟩]
  rfl

theorem count_eq_zero (h : ∀ t, P (f t) = false) : count P f = 0 :=
  Finset.sum_eq_zero fun t _ => by rw [h t]; rfl

theorem count_le_card : count P f ≤ Fintype.card T := by
  calc count P f ≤ ∑ _t : T, 1 := Finset.sum_le_sum fun t _ => Bool.toNat_le (P (f t))
    _ = Fintype.card T := by simp

/-- A balance that holds at every position holds of the counts. -/
theorem count_balance (h : ∀ b, (P b).toNat + (Q b).toNat = (R b).toNat + (S b).toNat) :
    count P f + count Q f = count R f + count S f := by
  simp only [count, ← Finset.sum_add_distrib, h]

theorem count_add_le (h : ∀ b, (P b).toNat + (Q b).toNat ≤ (R b).toNat) :
    count P f + count Q f ≤ count R f := by
  simp only [count, ← Finset.sum_add_distrib]
  exact Finset.sum_le_sum fun t _ => h (f t)

variable [DecidableEq T]

/-- One thread moves to position `b`. -/
theorem count_update (t : T) (b : β) :
    count P (Function.update f t b) + (P (f t)).toNat = count P f + (P b).toNat := by
  have hrest : ∑ u ∈ Finset.univ.erase t, (P (Function.update f t b u)).toNat =
      ∑ u ∈ Finset.univ.erase t, (P (f u)).toNat := by
    refine Finset.sum_congr rfl fun u hu => ?_
    rw [Function.update_of_ne (Finset.ne_of_mem_erase hu)]
  have hnew := Finset.add_sum_erase Finset.univ (fun u => (P (Function.update f t b u)).toNat)
    (Finset.mem_univ t)
  have hold := Finset.add_sum_erase Finset.univ (fun u => (P (f u)).toNat) (Finset.mem_univ t)
  simp only [Function.update_self] at hnew
  rw [count, count, ← hnew, ← hold, hrest]
  ac_rfl

theorem count_stay {t : T} {b : β} (h : P (f t) = P b) :
    count P (Function.update f t b) = count P f := by
  have hcount := count_update (P := P) (f := f) t b
  rw [h] at hcount
  exact Nat.add_right_cancel hcount

theorem count_enter {t : T} {b : β} (ht : P (f t) = false) (hb : P b = true) :
    count P (Function.update f t b) = count P f + 1 := by
  have hcount := count_update (P := P) (f := f) t b
  rwa [ht, hb] at hcount

theorem count_exit {t : T} {b : β} (ht : P (f t) = true) (hb : P b = false) :
    count P f = count P (Function.update f t b) + 1 := by
  have hcount := count_update (P := P) (f := f) t b
  rw [ht, hb] at hcount
  exact hcount.symm

/-- Two threads in `P` make a count of two. -/
theorem eq_of_count_le_one (h : count P f ≤ 1) {t u : T} (ht : P (f t) = true)
    (hu : P (f u) = true) : t = u := by
  by_contra hne
  have hpair : ∑ v ∈ {t, u}, (P (f v)).toNat ≤ count P f :=
    Finset.sum_le_sum_of_subset (Finset.subset_univ _)
  rw [Finset.sum_pair hne, ht, hu] at hpair
  exact absurd (hpair.trans h) (by decide)

end Tally
