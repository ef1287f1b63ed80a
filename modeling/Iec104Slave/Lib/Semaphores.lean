import Iec104Slave.Lib.Run
import Mathlib.Algebra.BigOperators.Group.Finset.Basic
import Mathlib.Algebra.Order.BigOperators.Group.Finset
import Mathlib.Data.Fintype.Basic
import Mathlib.Data.Finset.Lattice.Fold
import Mathlib.Logic.Relation

/-!
# Threads that share semaphores

What a thread does is reduced to its operations on semaphores, on flags, and on other threads. What
else decides a branch or the length of a loop is left open, so a system has every behaviour of the
program and perhaps more. All semaphores start with one permit.

`held` are the semaphores that a thread has waited for and not posted since, and `surplus` counts
the posts by a thread that does not hold the semaphore. Both are not part of the program.

* `Ordered rank loose` is a check of the code alone: a thread waits only for semaphores of a higher
  rank than those it holds, it ends with none, and it posts only what it holds, but for the
  semaphores in `loose`.
* `permits`: permits and holders are one more than the surplus, so a semaphore without surplus
  excludes.
* `not_deadlocked`: behind every thread that waits there is one that can go on, if joins lead to
  threads that wait at a higher rank.
* `Settles` is a check that a thread does not wait for a semaphore once its flag is cleared.
-/

namespace Semaphores

variable {L F T : Type}

inductive Script (L F T : Type)
  | skip
  | wait (l : L)
  | post (l : L)
  | clear (f : F)
  | seq (a b : Script L F T)
  | either (a b : Script L F T)
  /-- Rounds while the flag, if there is one, is set; the loop may end before. -/
  | loop (f : Option F) (body : Script L F T)
  /-- Waits for the end of `t`, unless the flag, if there is one, is set. The semaphores are those
  that the thread holds meanwhile. -/
  | join (f : Option F) (t : T) (hs : List L)
  /-- Sets the flag and starts `t`, if it is not there already. -/
  | spawn (f : F) (t : T)

/-- The code of a list of parts, one after the other. -/
def Script.each {ι : Type} (is : List ι) (body : ι → Script L F T) : Script L F T :=
  is.foldr (fun i rest => .seq (body i) rest) .skip

/-- What a thread does while it holds `l`. -/
def Script.locked (l : L) (body : Script L F T) : Script L F T :=
  .seq (.wait l) (.seq body (.post l))

structure World (L F T : Type) where
  stack : T → List (Script L F T)
  value : L → Nat
  flag : F → Bool
  held : T → List L
  surplus : L → Nat

namespace World

variable [DecidableEq T]

def goto (w : World L F T) (t : T) (k : List (Script L F T)) : World L F T :=
  { w with stack := Function.update w.stack t k }

@[simp] theorem goto_stack_self (w : World L F T) (t : T) (k : List (Script L F T)) :
    (w.goto t k).stack t = k :=
  Function.update_self _ _ _

theorem goto_stack_of_ne {t u : T} (hu : u ≠ t) (w : World L F T) (k : List (Script L F T)) :
    (w.goto t k).stack u = w.stack u :=
  Function.update_of_ne hu _ _

variable [DecidableEq L]

/-- Thread `t` takes a permit. -/
def take (w : World L F T) (t : T) (l : L) : World L F T :=
  { w with
    value := Function.update w.value l (w.value l - 1)
    held := Function.update w.held t (l :: w.held t) }

/-- Thread `t` gives a permit. -/
def give (w : World L F T) (t : T) (l : L) : World L F T :=
  { w with
    value := Function.update w.value l (w.value l + 1)
    held := Function.update w.held t ((w.held t).erase l)
    surplus := Function.update w.surplus l (w.surplus l + if l ∈ w.held t then 0 else 1) }

end World

def World.setFlag [DecidableEq F] (w : World L F T) (f : F) (value : Bool) : World L F T :=
  { w with flag := Function.update w.flag f value }

/-- A thread has to wait for the end of `u`. -/
def World.awaits (w : World L F T) (f : Option F) (u : T) : Bool :=
  f.all (fun f => !w.flag f) && !(w.stack u).isEmpty

/-- One step of thread `t`; `choice` decides what the code leaves open. -/
def step [DecidableEq L] [DecidableEq F] [DecidableEq T] (prog : T → List (Script L F T))
    (w : World L F T) : T × Bool → World L F T
  | (t, choice) =>
    match w.stack t with
    | [] => w
    | .skip :: k => w.goto t k
    | .wait l :: k => if w.value l = 0 then w else (w.take t l).goto t k
    | .post l :: k => (w.give t l).goto t k
    | .clear f :: k => (w.setFlag f false).goto t k
    | .seq a b :: k => w.goto t (a :: b :: k)
    | .either a b :: k => w.goto t ((if choice then a else b) :: k)
    | .loop f a :: k =>
      w.goto t (if choice && f.all w.flag then a :: .loop f a :: k else k)
    | .join f u _ :: k => if w.awaits f u then w else w.goto t k
    | .spawn f u :: k =>
      if (w.stack u).isEmpty then ((w.setFlag f true).goto t k).goto u (prog u) else w.goto t k

/-- All threads of `running` are at their beginning. -/
def World.start (prog : T → List (Script L F T)) (running : T → Bool) : World L F T where
  stack := fun t => if running t then prog t else []
  value := fun _ => 1
  flag := fun _ => false
  held := fun _ => []
  surplus := fun _ => 0

/-! ## The order of the semaphores -/

section Ordered

variable [DecidableEq L] {rank : L → Nat} {loose : L → Prop}

/-- From `h` to `h'`: what the thread holds before and after the code. -/
def Script.Ordered (rank : L → Nat) (loose : L → Prop) : Script L F T → List L → List L → Prop
  | .skip, h, h' => h' = h
  | .wait l, h, h' => (∀ x ∈ h, rank x < rank l) ∧ h' = l :: h
  | .post l, h, h' => (l ∈ h ∨ loose l) ∧ h' = h.erase l
  | .clear _, h, h' => h' = h
  | .seq a b, h, h' => ∃ m, a.Ordered rank loose h m ∧ b.Ordered rank loose m h'
  | .either a b, h, h' => a.Ordered rank loose h h' ∧ b.Ordered rank loose h h'
  | .loop _ a, h, h' => a.Ordered rank loose h h ∧ h' = h
  | .join _ _ hs, h, h' => h = hs ∧ h' = h
  | .spawn _ _, h, h' => h' = h

/-- The code is in order and leaves what the thread holds as it is. -/
def Script.Balanced (rank : L → Nat) (loose : L → Prop) (a : Script L F T) (h : List L) : Prop :=
  a.Ordered rank loose h h

/-- The code that is left to a thread that holds `h`. -/
def OrderedStack (rank : L → Nat) (loose : L → Prop) : List (Script L F T) → List L → Prop
  | [], h => h = []
  | a :: k, h => ∃ h', a.Ordered rank loose h h' ∧ OrderedStack rank loose k h'

theorem Script.Balanced.skip {h : List L} :
    (Script.skip : Script L F T).Balanced rank loose h := rfl

theorem Script.Balanced.clear {f : F} {h : List L} :
    (Script.clear f : Script L F T).Balanced rank loose h := rfl

theorem Script.Balanced.seq {a b : Script L F T} {h : List L} (ha : a.Balanced rank loose h)
    (hb : b.Balanced rank loose h) : (Script.seq a b).Balanced rank loose h :=
  ⟨h, ha, hb⟩

theorem Script.Balanced.either {a b : Script L F T} {h : List L} (ha : a.Balanced rank loose h)
    (hb : b.Balanced rank loose h) : (Script.either a b).Balanced rank loose h :=
  ⟨ha, hb⟩

theorem Script.Balanced.loop {f : Option F} {a : Script L F T} {h : List L}
    (ha : a.Balanced rank loose h) : (Script.loop f a).Balanced rank loose h :=
  ⟨ha, rfl⟩

theorem Script.Balanced.each {ι : Type} {is : List ι} {body : ι → Script L F T} {h : List L}
    (hbody : ∀ i ∈ is, (body i).Balanced rank loose h) :
    (Script.each is body).Balanced rank loose h := by
  induction is with
  | nil => rfl
  | cons i is ih =>
    exact .seq (hbody i (.head _)) (ih fun j hj => hbody j (.tail _ hj))

theorem Script.Balanced.locked {l : L} {body : Script L F T} {h : List L}
    (hrank : ∀ x ∈ h, rank x < rank l) (hbody : body.Balanced rank loose (l :: h)) :
    (Script.locked l body).Balanced rank loose h :=
  ⟨l :: h, ⟨hrank, rfl⟩, l :: h, hbody, .inl (.head _), (List.erase_cons_head l h).symm⟩

/-- The other threads are as before, and thread `t` goes on with `k`. -/
theorem ordered_goto [DecidableEq T] {w : World L F T} {t : T} (v : World L F T)
    (h : ∀ u, OrderedStack rank loose (w.stack u) (w.held u)) (hstack : v.stack = w.stack)
    (hheld : ∀ u, u ≠ t → v.held u = w.held u) {k : List (Script L F T)}
    (hk : OrderedStack rank loose k (v.held t)) (u : T) :
    OrderedStack rank loose ((v.goto t k).stack u) ((v.goto t k).held u) := by
  by_cases hu : u = t
  · subst hu
    rwa [World.goto_stack_self]
  · rw [World.goto_stack_of_ne hu, hstack, show (v.goto t k).held u = w.held u from hheld u hu]
    exact h u

end Ordered

/-! ## What all parts of the code do -/

/-- All operations of the code satisfy `P`. -/
def Script.All (P : Script L F T → Prop) : Script L F T → Prop
  | .seq a b => a.All P ∧ b.All P
  | .either a b => a.All P ∧ b.All P
  | .loop _ a => a.All P
  | c => P c

theorem all_each {P : Script L F T → Prop} {ι : Type} {is : List ι} {body : ι → Script L F T} :
    (Script.each is body).All P ↔ P .skip ∧ ∀ i ∈ is, (body i).All P := by
  induction is with
  | nil => simp [Script.each, Script.All]
  | cons i is ih =>
    have hcons : (Script.each (i :: is) body).All P ↔
        (body i).All P ∧ (Script.each is body).All P := Iff.rfl
    rw [hcons, ih, List.forall_mem_cons]
    exact and_left_comm

/-! ## What a step can do -/

section Moves

variable [DecidableEq L] [DecidableEq F] [DecidableEq T]

/-- The ways in which a step of `t` can change the world. -/
inductive Move (prog : T → List (Script L F T)) (w : World L F T) (t : T) : World L F T → Prop
  | stay : Move prog w t w
  | skip {k} : w.stack t = .skip :: k → Move prog w t (w.goto t k)
  | wait {l k} : w.stack t = .wait l :: k → w.value l ≠ 0 →
      Move prog w t ((w.take t l).goto t k)
  | post {l k} : w.stack t = .post l :: k → Move prog w t ((w.give t l).goto t k)
  | clear {f k} : w.stack t = .clear f :: k → Move prog w t ((w.setFlag f false).goto t k)
  | seq {a b k} : w.stack t = .seq a b :: k → Move prog w t (w.goto t (a :: b :: k))
  | either {a b c k} : w.stack t = .either a b :: k → c = a ∨ c = b →
      Move prog w t (w.goto t (c :: k))
  | round {f a k} : w.stack t = .loop f a :: k → f.all w.flag = true →
      Move prog w t (w.goto t (a :: .loop f a :: k))
  | leave {f a k} : w.stack t = .loop f a :: k → Move prog w t (w.goto t k)
  | join {f u hs k} : w.stack t = .join f u hs :: k → w.awaits f u = false →
      Move prog w t (w.goto t k)
  | spawn {f u k} : w.stack t = .spawn f u :: k → w.stack u = [] →
      Move prog w t (((w.setFlag f true).goto t k).goto u (prog u))
  | pass {f u k} : w.stack t = .spawn f u :: k → Move prog w t (w.goto t k)

variable {prog : T → List (Script L F T)} {w : World L F T}

theorem step_move (w : World L F T) (t : T) (choice : Bool) :
    Move prog w t (step prog w (t, choice)) := by
  rw [step]
  split
  · exact .stay
  · next k h => exact .skip h
  · next l k h =>
    split
    · exact .stay
    · next hvalue => exact .wait h hvalue
  · next l k h => exact .post h
  · next f k h => exact .clear h
  · next a b k h => exact .seq h
  · next a b k h =>
    cases choice with
    | true => exact .either h (.inl rfl)
    | false => exact .either h (.inr rfl)
  · next f a k h =>
    split
    · next hround => exact .round h (Bool.and_eq_true_iff.mp hround).2
    · exact .leave h
  · next f u hs k h =>
    split
    · exact .stay
    · next hends => exact .join h (Bool.eq_false_of_not_eq_true hends)
  · next f u k h =>
    split
    · next hends => exact .spawn h (List.isEmpty_iff.mp hends)
    · exact .pass h

/-- A step replaces the first part of the code by parts of it. -/
theorem Move.head {t : T} {w' : World L F T} {a : Script L F T} {k : List (Script L F T)}
    (hmove : Move prog w t w') (hpc : w.stack t = a :: k) :
    w'.stack t = a :: k ∨
      ∃ new, w'.stack t = new ++ k ∧ ∀ P : Script L F T → Prop, a.All P → ∀ b ∈ new, b.All P := by
  cases hmove with
  | stay => exact .inl hpc
  | skip h | wait h | post h | clear h | leave h | join h | pass h =>
    obtain ⟨rfl, rfl⟩ := List.cons.inj (hpc.symm.trans h)
    exact .inr ⟨[], World.goto_stack_self _ _ _, by simp⟩
  | @seq b c _ h =>
    obtain ⟨rfl, rfl⟩ := List.cons.inj (hpc.symm.trans h)
    refine .inr ⟨[b, c], World.goto_stack_self _ _ _, fun P hall => ?_⟩
    have hboth : b.All P ∧ c.All P := hall
    simpa using hboth
  | @either b c d _ h hd =>
    obtain ⟨rfl, rfl⟩ := List.cons.inj (hpc.symm.trans h)
    refine .inr ⟨[d], World.goto_stack_self _ _ _, fun P hall => ?_⟩
    rcases hd with rfl | rfl
    · simpa using hall.1
    · simpa using hall.2
  | @round f b _ h _ =>
    obtain ⟨rfl, rfl⟩ := List.cons.inj (hpc.symm.trans h)
    refine .inr ⟨[b, .loop f b], World.goto_stack_self _ _ _, fun P hall => ?_⟩
    simpa using ⟨hall, hall⟩
  | @spawn f u _ h hends =>
    obtain ⟨rfl, rfl⟩ := List.cons.inj (hpc.symm.trans h)
    have htu : t ≠ u := by
      rintro rfl
      rw [hends] at hpc
      cases hpc
    refine .inr ⟨[], ?_, by simp⟩
    rw [World.goto_stack_of_ne htu, World.goto_stack_self]
    rfl

theorem Move.eq_of_nil {t : T} {w' : World L F T} (hmove : Move prog w t w')
    (hnil : w.stack t = []) : w' = w := by
  cases hmove with
  | stay => rfl
  | skip h | wait h | post h | clear h | seq h | either h | round h | leave h | join h | spawn h
  | pass h =>
    rw [hnil] at h
    cases h

/-- A step of `t` changes no other thread, unless it starts it. -/
theorem Move.other {t u : T} {w' : World L F T} (hmove : Move prog w t w') (hu : u ≠ t) :
    w'.stack u = w.stack u ∨
      ∃ f k, w.stack t = .spawn f u :: k ∧ w'.stack u = prog u ∧ w'.flag f = true := by
  cases hmove with
  | stay => exact .inl rfl
  | @spawn f v k hpc hends =>
    by_cases huv : u = v
    · subst huv
      exact .inr ⟨f, k, hpc, World.goto_stack_self _ _ _, Function.update_self _ _ _⟩
    · refine .inl ?_
      rw [World.goto_stack_of_ne huv, World.goto_stack_of_ne hu]
      rfl
  | _ => exact .inl (World.goto_stack_of_ne hu _ _)

/-- Only the code that clears or sets a flag changes it. -/
theorem Move.flag_cases {t : T} {w' : World L F T} (hmove : Move prog w t w') (f : F) :
    w'.flag f = w.flag f ∨ (∃ k, w.stack t = .clear f :: k) ∨ w'.flag f = true := by
  cases hmove with
  | @clear f' k hpc =>
    by_cases hf : f = f'
    · subst hf
      exact .inr (.inl ⟨k, hpc⟩)
    · exact .inl (Function.update_of_ne hf _ _)
  | @spawn f' u k hpc hends =>
    by_cases hf : f = f'
    · subst hf
      exact .inr (.inr (Function.update_self _ _ _))
    · exact .inl (Function.update_of_ne hf _ _)
  | _ => exact .inl rfl

/-- The rule for what holds after every run. -/
theorem run_induction {I : World L F T → Prop} (hkeep : ∀ w t w', I w → Move prog w t w' → I w')
    (hstart : I w) (ops : List (T × Bool)) : I (Run.exec (step prog) w ops) :=
  Run.exec_induction (I := fun _ v => I v) hstart
    (fun _ v op hv => hkeep v op.1 _ hv (step_move v op.1 op.2)) ops

end Moves

/-! ## Permits -/

section Permits

variable [DecidableEq L] [Fintype T]
variable {rank : L → Nat} {loose : L → Prop} {prog : T → List (Script L F T)}
  {w w' : World L F T} {t : T} {l : L}

/-- The number of times that `l` is held. -/
def World.holders (w : World L F T) (l : L) : Nat := ∑ t, (w.held t).count l

/-- Every thread is in order, permits and holders are one more than the surplus, and only the
semaphores in `loose` have a surplus. -/
structure Orderly (rank : L → Nat) (loose : L → Prop) (w : World L F T) : Prop where
  ordered : ∀ t, OrderedStack rank loose (w.stack t) (w.held t)
  permits : ∀ l, w.value l + w.holders l = 1 + w.surplus l
  tight : ∀ l, ¬ loose l → w.surplus l = 0

theorem orderly_start {running : T → Bool} (hprog : ∀ t, OrderedStack rank loose (prog t) []) :
    Orderly rank loose (World.start prog running) := by
  refine ⟨fun t => ?_, fun l => ?_, fun _ _ => rfl⟩
  · rw [World.start]
    dsimp only
    split
    · exact hprog t
    · rfl
  · simp [World.start, World.holders]

/-- Permits and holders are one more than the surplus. -/
theorem Orderly.excludes (h : Orderly rank loose w) (l : L) : w.holders l ≤ 1 + w.surplus l := by
  have hpermits := h.permits l
  omega

/-- A thread that waits in vain waits for a holder. -/
theorem Orderly.exists_holder (h : Orderly rank loose w) (hvalue : w.value l = 0) :
    ∃ u, l ∈ w.held u := by
  by_contra hnone
  have hzero : w.holders l = 0 :=
    Finset.sum_eq_zero fun u _ => List.count_eq_zero_of_not_mem fun hu => hnone ⟨u, hu⟩
  have hpermits := h.permits l
  omega

variable [DecidableEq T]

theorem holders_update (w : World L F T) (t : T) (h : List L) (l : L) :
    (∑ u, (Function.update w.held t h u).count l) + (w.held t).count l =
      w.holders l + h.count l := by
  have hnew := Finset.add_sum_erase Finset.univ
    (fun u => (Function.update w.held t h u).count l) (Finset.mem_univ t)
  have hold := Finset.add_sum_erase Finset.univ (fun u => (w.held u).count l) (Finset.mem_univ t)
  have hrest : ∑ u ∈ Finset.univ.erase t, (Function.update w.held t h u).count l =
      ∑ u ∈ Finset.univ.erase t, (w.held u).count l := by
    refine Finset.sum_congr rfl fun u hu => ?_
    rw [Function.update_of_ne (Finset.ne_of_mem_erase hu)]
  simp only [Function.update_self] at hnew
  rw [World.holders, ← hnew, ← hold, hrest]
  ac_rfl

theorem permits_take (h : ∀ x, w.value x + w.holders x = 1 + w.surplus x) (hl : w.value l ≠ 0)
    (t : T) (x : L) :
    (w.take t l).value x + (w.take t l).holders x = 1 + (w.take t l).surplus x := by
  have hholders := holders_update w t (l :: w.held t) x
  have hx := h x
  rw [List.count_cons] at hholders
  simp only [World.take, World.holders] at hholders hx ⊢
  by_cases hxl : x = l
  · subst hxl
    simp only [Function.update_self, beq_self_eq_true, if_true] at hholders ⊢
    omega
  · rw [Function.update_of_ne hxl]
    rw [if_neg (by simpa using Ne.symm hxl)] at hholders
    omega

theorem permits_give (h : ∀ x, w.value x + w.holders x = 1 + w.surplus x) (t : T) (x : L) :
    (w.give t l).value x + (w.give t l).holders x = 1 + (w.give t l).surplus x := by
  have hholders := holders_update w t ((w.held t).erase l) x
  have hx := h x
  simp only [World.give, World.holders] at hholders hx ⊢
  by_cases hxl : x = l
  · subst hxl
    rw [List.count_erase_self] at hholders
    simp only [Function.update_self]
    by_cases hmem : x ∈ w.held t
    · have hpos := List.count_pos_iff.mpr hmem
      rw [if_pos hmem]
      omega
    · rw [if_neg hmem]
      rw [List.count_eq_zero_of_not_mem hmem] at hholders
      omega
  · rw [List.count_erase_of_ne hxl] at hholders
    rw [Function.update_of_ne hxl, Function.update_of_ne hxl]
    omega

theorem Orderly.goto (h : Orderly rank loose w) {k : List (Script L F T)}
    (hk : OrderedStack rank loose k (w.held t)) : Orderly rank loose (w.goto t k) :=
  ⟨ordered_goto w h.ordered rfl (fun _ _ => rfl) hk, h.permits, h.tight⟩

theorem Orderly.move [DecidableEq F] (hprog : ∀ t, OrderedStack rank loose (prog t) [])
    (h : Orderly rank loose w) (hmove : Move prog w t w') : Orderly rank loose w' := by
  have hstack := h.ordered t
  cases hmove with
  | stay => exact h
  | skip hpc | pass hpc =>
    rw [hpc] at hstack
    obtain ⟨_, rfl, hk⟩ := hstack
    exact h.goto hk
  | clear hpc =>
    rw [hpc] at hstack
    obtain ⟨_, rfl, hk⟩ := hstack
    exact ⟨(h.goto hk).ordered, h.permits, h.tight⟩
  | seq hpc =>
    rw [hpc] at hstack
    obtain ⟨_, ⟨m, ha, hb⟩, hk⟩ := hstack
    exact h.goto ⟨m, ha, _, hb, hk⟩
  | either hpc hc =>
    rw [hpc] at hstack
    obtain ⟨_, ⟨ha, hb⟩, hk⟩ := hstack
    rcases hc with rfl | rfl
    · exact h.goto ⟨_, ha, hk⟩
    · exact h.goto ⟨_, hb, hk⟩
  | round hpc =>
    rw [hpc] at hstack
    obtain ⟨_, ⟨ha, rfl⟩, hk⟩ := hstack
    exact h.goto ⟨_, ha, _, ⟨ha, rfl⟩, hk⟩
  | leave hpc | join hpc =>
    rw [hpc] at hstack
    obtain ⟨_, ⟨-, rfl⟩, hk⟩ := hstack
    exact h.goto hk
  | @spawn f u k hpc hends =>
    rw [hpc] at hstack
    obtain ⟨_, rfl, hk⟩ := hstack
    have hheld : w.held u = [] := by
      have hu := h.ordered u
      rwa [hends] at hu
    have hboth : Orderly rank loose ((w.goto t k).goto u (prog u)) := by
      refine (h.goto hk).goto ?_
      rw [show (w.goto t k).held u = [] from hheld]
      exact hprog u
    exact ⟨hboth.ordered, hboth.permits, hboth.tight⟩
  | @wait l k hpc hvalue =>
    rw [hpc] at hstack
    obtain ⟨_, ⟨-, rfl⟩, hk⟩ := hstack
    refine ⟨ordered_goto (w.take t l) h.ordered rfl
      (fun u hu => Function.update_of_ne hu _ _) ?_, permits_take h.permits hvalue t, h.tight⟩
    rwa [show (w.take t l).held t = l :: w.held t from Function.update_self _ _ _]
  | @post l k hpc =>
    rw [hpc] at hstack
    obtain ⟨_, ⟨hloose, rfl⟩, hk⟩ := hstack
    refine ⟨ordered_goto (w.give t l) h.ordered rfl
      (fun u hu => Function.update_of_ne hu _ _) ?_, permits_give h.permits t, fun x hx => ?_⟩
    · rwa [show (w.give t l).held t = (w.held t).erase l from Function.update_self _ _ _]
    · have htight := h.tight x hx
      by_cases hxl : x = l
      · subst hxl
        simp [World.goto, World.give, htight, hloose.resolve_right hx]
      · simpa [World.goto, World.give, Function.update_of_ne hxl] using htight

end Permits

/-! ## Progress -/

section Progress

/-- The thread waits for a permit or for the end of a thread. -/
def Blocked (w : World L F T) (t : T) : Prop :=
  match w.stack t with
  | .wait l :: _ => w.value l = 0
  | .join f u _ :: _ => w.awaits f u = true
  | _ => False

theorem Blocked.place {w : World L F T} {t : T} (h : Blocked w t) :
    (∃ l k, w.stack t = .wait l :: k ∧ w.value l = 0) ∨
      ∃ f u hs k, w.stack t = .join f u hs :: k ∧ w.awaits f u = true := by
  rw [Blocked] at h
  split at h
  · next l k hpc => exact .inl ⟨l, k, hpc, h⟩
  · next f u hs k hpc => exact .inr ⟨f, u, hs, k, hpc, h⟩
  · exact h.elim

inductive WaitsFor (w : World L F T) (t : T) : T → Prop
  | permit {u l k} : w.stack t = .wait l :: k → w.value l = 0 → l ∈ w.held u → WaitsFor w t u
  | ending {u f hs k} : w.stack t = .join f u hs :: k → w.awaits f u = true → WaitsFor w t u

/-- The lowest rank above those of `hs`. -/
def rankAbove (rank : L → Nat) (hs : List L) : Nat :=
  hs.foldr (fun l r => max (rank l + 1) r) 0

theorem rank_lt_rankAbove {rank : L → Nat} {hs : List L} {l : L} (hl : l ∈ hs) :
    rank l < rankAbove rank hs := by
  induction hl with
  | head hs => exact lt_max_of_lt_left (Nat.lt_succ_self _)
  | tail x _ ih => exact lt_max_of_lt_right ih

/-- The rank of the place where the thread is. -/
def World.topRank (rank : L → Nat) (w : World L F T) (t : T) : Nat :=
  match w.stack t with
  | .wait l :: _ => rank l
  | .join _ _ hs :: _ => rankAbove rank hs
  | _ => 0

/-- A thread that is waited for with a join is itself blocked only at a higher rank. -/
def JoinsRise (rank : L → Nat) (w : World L F T) : Prop :=
  ∀ t u f hs k, w.stack t = .join f u hs :: k → w.awaits f u = true → Blocked w u →
    rankAbove rank hs < w.topRank rank u

variable {rank : L → Nat} {loose : L → Prop} {prog : T → List (Script L F T)}
  {w : World L F T} {t u : T} {l : L}

theorem stack_ne_nil_of_awaits {f : Option F} (h : w.awaits f u = true) : w.stack u ≠ [] := by
  intro hnil
  simp [World.awaits, hnil] at h

variable [DecidableEq L]

/-- A thread that holds a semaphore has something left to do, and is blocked only at a higher
rank. -/
theorem holder_rises (h : OrderedStack rank loose (w.stack u) (w.held u)) (hl : l ∈ w.held u) :
    w.stack u ≠ [] ∧ (Blocked w u → rank l < w.topRank rank u) := by
  refine ⟨fun hnil => ?_, fun hblocked => ?_⟩
  · rw [hnil] at h
    rw [show w.held u = [] from h] at hl
    cases hl
  · rw [World.topRank]
    rcases hblocked.place with ⟨l', k, hpc, -⟩ | ⟨f, v, hs, k, hpc, -⟩
    · rw [hpc] at h ⊢
      obtain ⟨_, ⟨hrank, -⟩, -⟩ := h
      exact hrank l hl
    · rw [hpc] at h ⊢
      obtain ⟨_, ⟨rfl, -⟩, -⟩ := h
      exact rank_lt_rankAbove hl

variable [Fintype T]

/-- Behind every thread that is not at its end there is one that is not blocked: the ranks rise
along the threads that wait for each other. -/
theorem exists_runnable (h : Orderly rank loose w) (hjoin : JoinsRise rank w)
    (ht : w.stack t ≠ []) :
    ∃ u, Relation.ReflTransGen (WaitsFor w) t u ∧ w.stack u ≠ [] ∧ ¬ Blocked w u := by
  -- by induction on what is left up to the highest rank
  generalize hleft : Finset.univ.sup (w.topRank rank) - w.topRank rank t = left
  induction left using Nat.strong_induction_on generalizing t with
  | _ left ih =>
    by_cases hblocked : Blocked w t
    · have hnext : ∃ u, WaitsFor w t u ∧ w.stack u ≠ [] ∧
          (Blocked w u → w.topRank rank t < w.topRank rank u) := by
        rcases hblocked.place with ⟨l, k, hpc, hvalue⟩ | ⟨f, u, hs, k, hpc, hawaits⟩
        · obtain ⟨u, hu⟩ := h.exists_holder hvalue
          obtain ⟨hrest, hrises⟩ := holder_rises (h.ordered u) hu
          refine ⟨u, .permit hpc hvalue hu, hrest, fun hbu => ?_⟩
          rw [World.topRank, hpc]
          exact hrises hbu
        · refine ⟨u, .ending hpc hawaits, stack_ne_nil_of_awaits hawaits, fun hbu => ?_⟩
          have hrise := hjoin t u f hs k hpc hawaits hbu
          rw [World.topRank, hpc]
          exact hrise
      obtain ⟨u, hwaits, hrest, hrises⟩ := hnext
      by_cases hbu : Blocked w u
      · have hle : w.topRank rank u ≤ Finset.univ.sup (w.topRank rank) :=
          Finset.le_sup (Finset.mem_univ u)
        have hlt := hrises hbu
        obtain ⟨v, hpath, hv⟩ := ih _ (by omega) hrest rfl
        exact ⟨v, .head hwaits hpath, hv⟩
      · exact ⟨u, .single hwaits, hrest, hbu⟩
    · exact ⟨t, .refl, ht, hblocked⟩

end Progress

theorem either_ne (a b : Script L F T) : Script.either a b ≠ a ∧ Script.either a b ≠ b := by
  constructor
  · intro h
    have hsize := congrArg sizeOf h
    simp only [Script.either.sizeOf_spec] at hsize
    omega
  · intro h
    have hsize := congrArg sizeOf h
    simp only [Script.either.sizeOf_spec] at hsize
    omega

/-- A thread that is not blocked and not at its end goes on. -/
theorem step_ne [DecidableEq L] [DecidableEq F] [DecidableEq T] {prog : T → List (Script L F T)}
    {w : World L F T} {t : T} (hrest : w.stack t ≠ []) (h : ¬ Blocked w t) (choice : Bool) :
    (step prog w (t, choice)).stack t ≠ w.stack t := by
  have hshorter (k : List (Script L F T)) (c : Script L F T) (hpc : w.stack t = c :: k)
      (v : World L F T) : (v.goto t k).stack t ≠ w.stack t := by
    rw [World.goto_stack_self, hpc]
    exact (List.cons_ne_self c k).symm
  rw [step]
  split
  · next hnil => exact absurd hnil hrest
  · next k hpc => exact hshorter k _ hpc w
  · next l k hpc =>
    rw [Blocked, hpc] at h
    rw [if_neg h]
    exact hshorter k _ hpc _
  · next l k hpc => exact hshorter k _ hpc _
  · next f k hpc => exact hshorter k _ hpc _
  · next a b k hpc =>
    rw [World.goto_stack_self, hpc]
    intro heq
    exact List.cons_ne_self b k (List.cons.inj heq).2
  · next a b k hpc =>
    rw [World.goto_stack_self, hpc]
    intro heq
    have hhead := (List.cons.inj heq).1
    cases choice with
    | true => exact (either_ne a b).1 hhead.symm
    | false => exact (either_ne a b).2 hhead.symm
  · next f a k hpc =>
    rw [World.goto_stack_self, hpc]
    split
    · intro heq
      exact List.cons_ne_self _ k (List.cons.inj heq).2
    · exact (List.cons_ne_self _ k).symm
  · next f u hs k hpc =>
    rw [Blocked, hpc] at h
    rw [if_neg h]
    exact hshorter k _ hpc w
  · next f u k hpc =>
    split
    · next hends =>
      have hut : t ≠ u := by
        rintro rfl
        rw [hpc] at hends
        cases hends
      rw [World.goto_stack_of_ne hut]
      exact hshorter k _ hpc _
    · exact hshorter k _ hpc w

section Deadlock

variable [DecidableEq L] [DecidableEq F] [DecidableEq T] {prog : T → List (Script L F T)}
  {w : World L F T} {t : T}

theorem Move.eq_of_blocked {w' : World L F T} (hmove : Move prog w t w') (h : Blocked w t) :
    w' = w := by
  cases hmove with
  | stay => rfl
  | wait hpc hvalue =>
    rw [Blocked, hpc] at h
    exact absurd h hvalue
  | @join f u hs k hpc hends =>
    rw [Blocked, hpc] at h
    exact absurd (show w.awaits f u = true from h) (by simp [hends])
  | skip hpc | post hpc | clear hpc | seq hpc | either hpc | round hpc | leave hpc | spawn hpc
  | pass hpc =>
    rw [Blocked, hpc] at h
    exact h.elim

/-- The thread is not at its end, and neither it nor a thread that it waits for, directly or not,
can take a step. -/
def Deadlocked (prog : T → List (Script L F T)) (w : World L F T) (t : T) : Prop :=
  w.stack t ≠ [] ∧
    ∀ u, Relation.ReflTransGen (WaitsFor w) t u → ∀ choice, step prog w (u, choice) = w

theorem not_deadlocked [Fintype T] {rank : L → Nat} {loose : L → Prop}
    (h : Orderly rank loose w) (hjoin : JoinsRise rank w) : ¬ Deadlocked prog w t := by
  rintro ⟨hrest, hstuck⟩
  obtain ⟨u, hpath, hu, hfree⟩ := exists_runnable h hjoin hrest
  exact step_ne hu hfree true (congrArg (fun v => v.stack u) (hstuck u hpath true))

end Deadlock

/-! ## What is allowed to a thread -/

/-- Every thread has only operations that are allowed to it. -/
def AllowedTo (P : T → Script L F T → Prop) (w : World L F T) : Prop :=
  ∀ t, ∀ a ∈ w.stack t, a.All (P t)

section All

variable {P : T → Script L F T → Prop} {prog : T → List (Script L F T)} {w w' : World L F T} {t : T}

theorem allowedTo_start {running : T → Bool} (hprog : ∀ t, ∀ a ∈ prog t, a.All (P t)) :
    AllowedTo P (World.start prog running) := by
  intro t a ha
  simp only [World.start] at ha
  split at ha
  · exact hprog t a ha
  · cases ha

theorem AllowedTo.head (h : AllowedTo P w) {a : Script L F T} {k : List (Script L F T)}
    (hpc : w.stack t = a :: k) : a.All (P t) :=
  h t a (hpc ▸ List.mem_cons_self)

variable [DecidableEq T]

theorem AllowedTo.move [DecidableEq L] [DecidableEq F] (hprog : ∀ t, ∀ a ∈ prog t, a.All (P t))
    (h : AllowedTo P w) (hmove : Move prog w t w') : AllowedTo P w' := by
  intro u a ha
  by_cases hu : u = t
  · subst hu
    rcases hpc : w.stack u with _ | ⟨c, k⟩
    · rw [hmove.eq_of_nil hpc] at ha
      exact h u a ha
    have hstack := h u
    rw [hpc] at hstack
    rcases hmove.head hpc with hsame | ⟨new, hnew, hparts⟩
    · rw [hsame] at ha
      exact hstack a ha
    · rw [hnew, List.mem_append] at ha
      rcases ha with ha | ha
      · exact hparts (P u) (hstack c (.head _)) a ha
      · exact hstack a (.tail _ ha)
  · rcases hmove.other hu with hsame | ⟨f, k, -, hstart, -⟩
    · rw [hsame] at ha
      exact h u a ha
    · rw [hstart] at ha
      exact hprog u a ha

end All

/-! ## A thread whose flag is cleared -/

section Settles

/-- The code may wait for `l` while the flag `f` is cleared. -/
def Script.MayWait (f : F) (l : L) : Script L F T → Prop
  | .wait l' => l' = l
  | .seq a b => a.MayWait f l ∨ b.MayWait f l
  | .either a b => a.MayWait f l ∨ b.MayWait f l
  | .loop f' a => f' ≠ some f ∧ a.MayWait f l
  | _ => False

/-- If the code clears `f`, it does not wait for `l` after that, and it does not set `f`. `rest`
says whether what comes after the code may wait for `l`. -/
def Script.Settles (f : F) (l : L) : Script L F T → Prop → Prop
  | .clear f', rest => f' = f → ¬ rest
  | .spawn f' _, _ => f' ≠ f
  | .seq a b, rest => a.Settles f l (b.MayWait f l ∨ rest) ∧ b.Settles f l rest
  | .either a b, rest => a.Settles f l rest ∧ b.Settles f l rest
  | .loop f' a, rest => a.Settles f l ((f' ≠ some f ∧ a.MayWait f l) ∨ rest)
  | _, _ => True

def StackMayWait (f : F) (l : L) (k : List (Script L F T)) : Prop := ∃ a ∈ k, a.MayWait f l

def StackSettles (f : F) (l : L) : List (Script L F T) → Prop
  | [] => True
  | a :: k => a.Settles f l (StackMayWait f l k) ∧ StackSettles f l k

variable {f : F} {l : L}

@[simp] theorem stackMayWait_nil : ¬ StackMayWait (T := T) f l [] := fun ⟨_, h, _⟩ => by cases h

@[simp] theorem stackMayWait_cons {a : Script L F T} {k : List (Script L F T)} :
    StackMayWait f l (a :: k) ↔ a.MayWait f l ∨ StackMayWait f l k := by
  simp [StackMayWait]

theorem Script.Settles.mono {a : Script L F T} {p q : Prop} (h : a.Settles f l p) (hpq : q → p) :
    a.Settles f l q := by
  induction a generalizing p q with
  | clear f' => exact fun hf hq => h hf (hpq hq)
  | seq a b iha ihb => exact ⟨iha h.1 (Or.imp_right hpq), ihb h.2 hpq⟩
  | either a b iha ihb => exact ⟨iha h.1 hpq, ihb h.2 hpq⟩
  | loop f' a iha => exact iha h (Or.imp_right hpq)
  | spawn f' u => exact h
  | _ => trivial

theorem Script.Settles.each {ι : Type} {is : List ι} {body : ι → Script L F T} {p : Prop}
    (hbody : ∀ i ∈ is, (body i).Settles f l True) : (Script.each is body).Settles f l p := by
  induction is with
  | nil => trivial
  | cons i is ih =>
    exact ⟨(hbody i (.head _)).mono fun _ => trivial, ih fun j hj => hbody j (.tail _ hj)⟩

theorem mayWait_each {ι : Type} {is : List ι} {body : ι → Script L F T} :
    (Script.each is body).MayWait f l ↔ ∃ i ∈ is, (body i).MayWait f l := by
  induction is with
  | nil => simp [Script.each, Script.MayWait]
  | cons i is ih =>
    have hcons : (Script.each (i :: is) body).MayWait f l ↔
        (body i).MayWait f l ∨ (Script.each is body).MayWait f l := Iff.rfl
    simp [hcons, ih]

/-- The thread has passed the check, and waits for `l` no more if its flag is cleared. -/
structure Quiet (f : F) (l : L) (t : T) (w : World L F T) : Prop where
  settles : StackSettles f l (w.stack t)
  quiet : w.flag f = false → ¬ StackMayWait f l (w.stack t)

variable [DecidableEq L] [DecidableEq F] [DecidableEq T] {prog : T → List (Script L F T)}
  {w w' : World L F T} {t : T}

/-- A step of the thread itself. -/
theorem Quiet.move (h : Quiet f l t w) (hmove : Move prog w t w') : Quiet f l t w' := by
  obtain ⟨hsettles, hquiet⟩ := h
  cases hmove with
  | stay => exact ⟨hsettles, hquiet⟩
  | skip hpc | post hpc | leave hpc | join hpc | pass hpc | wait hpc =>
    rw [hpc] at hsettles hquiet
    refine ⟨?_, fun hflag => ?_⟩
    · rw [World.goto_stack_self]
      exact hsettles.2
    · rw [World.goto_stack_self]
      exact fun hk => hquiet hflag (stackMayWait_cons.mpr (.inr hk))
  | @clear f' k hpc =>
    rw [hpc] at hsettles hquiet
    refine ⟨?_, fun hflag => ?_⟩
    · rw [World.goto_stack_self]
      exact hsettles.2
    · rw [World.goto_stack_self]
      by_cases hf : f' = f
      · exact hsettles.1 hf
      · have hbefore : w.flag f = false := by
          rwa [show ((w.setFlag f' false).goto t k).flag f = w.flag f from
            Function.update_of_ne (Ne.symm hf) _ _] at hflag
        exact fun hk => hquiet hbefore (stackMayWait_cons.mpr (.inr hk))
  | @seq a b k hpc =>
    rw [hpc] at hsettles hquiet
    refine ⟨?_, fun hflag => ?_⟩
    · rw [World.goto_stack_self]
      refine ⟨hsettles.1.1.mono fun hk => ?_, hsettles.1.2, hsettles.2⟩
      exact stackMayWait_cons.mp hk
    · rw [World.goto_stack_self]
      refine fun hk => hquiet hflag ?_
      simp only [stackMayWait_cons, Script.MayWait] at hk ⊢
      exact or_assoc.mpr hk
  | @either a b c k hpc hc =>
    rw [hpc] at hsettles hquiet
    refine ⟨?_, fun hflag => ?_⟩
    · rw [World.goto_stack_self]
      rcases hc with rfl | rfl
      · exact ⟨hsettles.1.1, hsettles.2⟩
      · exact ⟨hsettles.1.2, hsettles.2⟩
    · rw [World.goto_stack_self]
      refine fun hk => hquiet hflag ?_
      simp only [stackMayWait_cons, Script.MayWait] at hk ⊢
      rcases hc with rfl | rfl
      · exact hk.imp_left .inl
      · exact hk.imp_left .inr
  | @round f' a k hpc hround =>
    rw [hpc] at hsettles hquiet
    refine ⟨?_, fun hflag => ?_⟩
    · have hbody : a.Settles f l ((f' ≠ some f ∧ a.MayWait f l) ∨ StackMayWait f l k) := hsettles.1
      rw [World.goto_stack_self]
      exact ⟨hbody.mono fun hk => stackMayWait_cons.mp hk, hsettles⟩
    · rw [World.goto_stack_self]
      have hne : f' ≠ some f := by
        rintro rfl
        rw [Option.all_some, show w.flag f = false from hflag] at hround
        cases hround
      refine fun hk => hquiet hflag ?_
      simp only [stackMayWait_cons, Script.MayWait] at hk ⊢
      rcases hk with ha | hk
      · exact .inl ⟨hne, ha⟩
      · exact hk
  | @spawn f' u k hpc hends =>
    have htu : t ≠ u := by
      rintro rfl
      rw [hpc] at hends
      cases hends
    rw [hpc] at hsettles hquiet
    refine ⟨?_, fun hflag => ?_⟩
    · rw [World.goto_stack_of_ne htu, World.goto_stack_self]
      exact hsettles.2
    · rw [World.goto_stack_of_ne htu, World.goto_stack_self]
      have hbefore : w.flag f = false := by
        rwa [show (((w.setFlag f' true).goto t k).goto u (prog u)).flag f = w.flag f from
          Function.update_of_ne (Ne.symm hsettles.1) _ _] at hflag
      exact fun hk => hquiet hbefore (stackMayWait_cons.mpr (.inr hk))

/-- A step of another thread, which does not clear the flag. -/
theorem Quiet.other {u : T} (h : Quiet f l u w) (hmove : Move prog w t w') (hu : u ≠ t)
    (hprog : StackSettles f l (prog u)) (hspawn : ∀ f' k, w.stack t = .spawn f' u :: k → f' = f)
    (hclear : ∀ k, w.stack t ≠ .clear f :: k) : Quiet f l u w' := by
  rcases hmove.other hu with hsame | ⟨f', k, hpc, hstart, hset⟩
  · refine ⟨?_, fun hflag => ?_⟩
    · rw [hsame]
      exact h.settles
    · rw [hsame]
      rcases hmove.flag_cases f with hf | ⟨k, hpc⟩ | hf
      · exact h.quiet (hf ▸ hflag)
      · exact absurd hpc (hclear k)
      · rw [hf] at hflag
        cases hflag
  · obtain rfl := hspawn f' k hpc
    refine ⟨?_, fun hflag => ?_⟩
    · rw [hstart]
      exact hprog
    · rw [hset] at hflag
      cases hflag

end Settles

end Semaphores
