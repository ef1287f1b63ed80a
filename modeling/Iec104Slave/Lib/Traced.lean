import Mathlib.Data.List.Basic

/-!
# Programs that call a library

A program changes a state `σ` of its own and makes calls `κ` to a library. The answer `ρ` of the
library to a call is any function of the call and its number. Every call is recorded together with
the state in which it is made.

`Spec may ok P m Q` is a triple with two more parts: every call that `m` makes is `ok` in the state
in which it is made, if the library gives only answers that it `may` give.
-/

namespace Traced

variable {σ κ ρ α β : Type}

/-- The state, and the calls made so far. -/
structure World (σ κ : Type) where
  state : σ
  trace : List (κ × σ)

/-- A program, given the answers of the library. -/
def Prog (σ κ ρ α : Type) : Type :=
  (Nat → κ → ρ) → World σ κ → α × World σ κ

instance : Monad (Prog σ κ ρ) where
  pure a := fun _ w => (a, w)
  bind m f := fun answers w => f (m answers w).1 answers (m answers w).2

/-- A call gets the next answer. -/
def call (k : κ) : Prog σ κ ρ ρ := fun answers w =>
  (answers w.trace.length k, { w with trace := w.trace ++ [(k, w.state)] })

def read : Prog σ κ ρ σ := fun _ w => (w.state, w)

def update (f : σ → σ) : Prog σ κ ρ Unit := fun _ w => ((), { w with state := f w.state })

/-- `f` for every element of a list, in order. -/
def each (f : α → Prog σ κ ρ Unit) : List α → Prog σ κ ρ Unit
  | [] => pure ()
  | a :: as => do
    f a
    each f as

/-- Every call made so far is `ok`. -/
def Fine (ok : κ → σ → Prop) (w : World σ κ) : Prop :=
  ∀ c ∈ w.trace, ok c.1 c.2

/-- Every answer is one that the library may give to the call. -/
def Honest (may : κ → ρ → Prop) (answers : Nat → κ → ρ) : Prop :=
  ∀ n k, may k (answers n k)

/-- From a state in `P`, whatever the answers in `may`: all calls of `m` are `ok`, and its result
and the state after it are in `Q`. -/
def Spec (may : κ → ρ → Prop) (ok : κ → σ → Prop) (P : σ → Prop) (m : Prog σ κ ρ α)
    (Q : α → σ → Prop) : Prop :=
  ∀ answers w, Honest may answers → Fine ok w → P w.state →
    Fine ok (m answers w).2 ∧ Q (m answers w).1 (m answers w).2.state

variable {may : κ → ρ → Prop} {ok : κ → σ → Prop} {P P' : σ → Prop} {Q Q' : α → σ → Prop}
  {R : β → σ → Prop}

theorem Spec.pure {a : α} (h : ∀ s, P s → Q a s) :
    Spec may ok P (pure a : Prog σ κ ρ α) Q :=
  fun _ _ _ hfine hP => ⟨hfine, h _ hP⟩

theorem Spec.bind {m : Prog σ κ ρ α} {f : α → Prog σ κ ρ β} (hm : Spec may ok P m Q)
    (hf : ∀ a, Spec may ok (Q a) (f a) R) : Spec may ok P (m >>= f) R := by
  intro answers w hmay hfine hP
  obtain ⟨hfine', hQ⟩ := hm answers w hmay hfine hP
  exact hf _ answers _ hmay hfine' hQ

theorem Spec.weaken {m : Prog σ κ ρ α} (h : Spec may ok P m Q) (hP : ∀ s, P' s → P s)
    (hQ : ∀ a s, Q a s → Q' a s) : Spec may ok P' m Q' := by
  intro answers w hmay hfine hP'
  obtain ⟨hfine', hq⟩ := h answers w hmay hfine (hP _ hP')
  exact ⟨hfine', hQ _ _ hq⟩

/-- A second triple about the same program, which need not look at the calls again. -/
theorem Spec.and {m : Prog σ κ ρ α} (h : Spec may ok P m Q)
    (h' : Spec may (fun _ _ => True) P' m Q') :
    Spec may ok (fun s => P s ∧ P' s) m fun a s => Q a s ∧ Q' a s := by
  intro answers w hmay hfine hP
  obtain ⟨hfine', hq⟩ := h answers w hmay hfine hP.1
  exact ⟨hfine', hq, (h' answers w hmay (fun _ _ => trivial) hP.2).2⟩

theorem Spec.answered {k : κ} {Q : ρ → σ → Prop} (hok : ∀ s, P s → ok k s)
    (hQ : ∀ r s, may k r → P s → Q r s) : Spec may ok P (call k : Prog σ κ ρ ρ) Q := by
  intro answers w hmay hfine hP
  refine ⟨?_, hQ _ _ (hmay _ _) hP⟩
  intro c hc
  rcases List.mem_append.mp hc with hold | hnew
  · exact hfine c hold
  · cases List.mem_singleton.mp hnew
    exact hok _ hP

/-- A call of which nothing is known but its answer's type. -/
theorem Spec.call {k : κ} {Q : ρ → σ → Prop} (hok : ∀ s, P s → ok k s)
    (hQ : ∀ r s, P s → Q r s) : Spec may ok P (call k : Prog σ κ ρ ρ) Q :=
  Spec.answered hok fun r s _ => hQ r s

/-- Behind a read the state is known. -/
theorem Spec.read {f : σ → Prog σ κ ρ α} (hf : ∀ s, P s → Spec may ok (· = s) (f s) Q) :
    Spec may ok P (read >>= f) Q :=
  fun answers w hmay hfine hP => hf w.state hP answers w hmay hfine rfl

/-- What holds of the state that was read. -/
theorem holds_at {s : σ} (hs : P s) : ∀ t, t = s → P t := by
  rintro _ rfl
  exact hs

theorem Spec.update {f : σ → σ} {Q : Unit → σ → Prop} (h : ∀ s, P s → Q () (f s)) :
    Spec may ok P (update f : Prog σ κ ρ Unit) Q :=
  fun _ _ _ hfine hP => ⟨hfine, h _ hP⟩

/-- The loop rule: what every round keeps holds after all of them. -/
theorem Spec.each {f : α → Prog σ κ ρ Unit} (hf : ∀ a, Spec may ok P (f a) fun _ => P)
    (as : List α) : Spec may ok P (each f as) fun _ => P := by
  induction as with
  | nil => exact Spec.pure fun _ h => h
  | cons a as ih => exact Spec.bind (hf a) fun _ => ih

/-- The loop rule with the rounds that are behind. -/
theorem Spec.each_past {I : List α → σ → Prop} {f : α → Prog σ κ ρ Unit}
    (hf : ∀ past a, Spec may ok (I past) (f a) fun _ => I (past ++ [a])) (as : List α) :
    Spec may ok (I []) (Traced.each f as) fun _ => I as := by
  have hrest : ∀ (as past : List α),
      Spec may ok (I past) (Traced.each f as) fun _ => I (past ++ as) := by
    intro as
    induction as with
    | nil =>
      intro past
      exact Spec.pure fun _ h => by rwa [List.append_nil]
    | cons a as ih =>
      intro past
      refine Spec.bind (hf past a) fun _ => ?_
      simpa using ih (past ++ [a])
  exact hrest as []

/-- A program run from a state in `P`, with no call before it. -/
theorem Spec.run {m : Prog σ κ ρ α} (h : Spec may ok P m Q) {answers : Nat → κ → ρ}
    (hmay : Honest may answers) {s : σ} (hs : P s) :
    Fine ok (m answers ⟨s, []⟩).2 ∧ Q (m answers ⟨s, []⟩).1 (m answers ⟨s, []⟩).2.state :=
  h answers ⟨s, []⟩ hmay (by intro c hc; cases hc) hs

end Traced
