import Mathlib.Data.List.Induction

/-!
# Runs of a step function

A sequential component is a total step function `step : σ → α → σ`. A run is
the list of its inputs, and `exec` is the state after them. An input that is
not enabled in a state is a step that changes nothing, so interleavings of
several parties are runs too: the input says who moves.

* `exec_induction` is the invariant rule. The invariant may mention the whole
  past of the run, so it can relate the state to the history it summarises.
* `Guarded ok step s as` says that every step of the run meets a condition on
  the state before it. `guarded_induction` is the invariant rule for guarded
  runs.
-/

namespace Run

variable {σ α : Type}

/-- The state after the inputs `as`, from `s`. -/
def exec (step : σ → α → σ) (s : σ) (as : List α) : σ :=
  as.foldl step s

/-- Every input of the run meets `ok` in the state in which it is taken. -/
def Guarded (ok : σ → α → Prop) (step : σ → α → σ) (s : σ) (as : List α) : Prop :=
  ∀ past a rest, as = past ++ a :: rest → ok (exec step s past) a

/-- The outputs of the run, in order. An input gives a list of outputs in the state
in which it is taken. -/
def outputs {β : Type} (step : σ → α → σ) (out : σ → α → List β) : σ → List α → List β
  | _, [] => []
  | s, a :: as => out s a ++ outputs step out (step s a) as

variable {step : σ → α → σ} {s : σ}

@[simp] theorem exec_nil : exec step s [] = s := rfl

@[simp] theorem exec_cons (a : α) (as : List α) :
    exec step s (a :: as) = exec step (step s a) as := rfl

@[simp] theorem exec_append (as bs : List α) :
    exec step s (as ++ bs) = exec step (exec step s as) bs := by
  simp [exec]

theorem outputs_append {β : Type} (out : σ → α → List β) (as bs : List α) :
    outputs step out s (as ++ bs) =
      outputs step out s as ++ outputs step out (exec step s as) bs := by
  induction as generalizing s with
  | nil => rfl
  | cons a as ih => simp [outputs, ih]

/-- The invariant rule: what holds of the empty past and is kept by every step
holds after every run. -/
theorem exec_induction {I : List α → σ → Prop} (init : I [] s)
    (keep : ∀ past t a, I past t → I (past ++ [a]) (step t a)) (as : List α) :
    I as (exec step s as) := by
  induction as using List.reverseRecOn with
  | nil => exact init
  | append_singleton as a ih =>
    rw [exec_append]
    exact keep as _ a ih

theorem Guarded.nil {ok : σ → α → Prop} : Guarded ok step s [] := by
  intro past a rest h
  simp at h

theorem guarded_snoc {ok : σ → α → Prop} {as : List α} {a : α} :
    Guarded ok step s (as ++ [a]) ↔ Guarded ok step s as ∧ ok (exec step s as) a := by
  constructor
  · intro h
    refine ⟨fun past b rest hb => ?_, h as a [] rfl⟩
    exact h past b (rest ++ [a]) (by simp [hb])
  · rintro ⟨hpre, hlast⟩ past b rest hb
    rcases List.eq_nil_or_concat rest with rfl | ⟨rest', c, rfl⟩
    · obtain ⟨rfl, hab⟩ := List.append_inj' hb rfl
      simp only [List.cons.injEq, and_true] at hab
      exact hab ▸ hlast
    · rw [List.concat_eq_append, ← List.cons_append, ← List.append_assoc] at hb
      exact hpre past b rest' (List.append_inj' hb rfl).1

theorem guarded_cons {ok : σ → α → Prop} {as : List α} {a : α} :
    Guarded ok step s (a :: as) ↔ ok s a ∧ Guarded ok step (step s a) as := by
  constructor
  · intro h
    refine ⟨h [] a as rfl, fun past b rest hb => ?_⟩
    exact h (a :: past) b rest (by rw [hb]; rfl)
  · rintro ⟨hfirst, hrest⟩ past b rest hb
    cases past with
    | nil =>
      simp only [List.nil_append, List.cons.injEq] at hb
      exact hb.1 ▸ hfirst
    | cons c past =>
      simp only [List.cons_append, List.cons.injEq] at hb
      obtain ⟨rfl, hb⟩ := hb
      exact hrest past b rest hb

instance decidableGuarded {ok : σ → α → Prop} [∀ t a, Decidable (ok t a)] :
    ∀ (s : σ) (as : List α), Decidable (Guarded ok step s as)
  | _, [] => .isTrue .nil
  | s, a :: as =>
    have : Decidable (Guarded ok step (step s a) as) := decidableGuarded (step s a) as
    decidable_of_iff (ok s a ∧ Guarded ok step (step s a) as) guarded_cons.symm

theorem Guarded.left {ok : σ → α → Prop} {as bs : List α}
    (h : Guarded ok step s (as ++ bs)) : Guarded ok step s as := by
  intro past a rest ha
  exact h past a (rest ++ bs) (by simp [ha])

/-- A stretch of a guarded run is guarded. -/
theorem Guarded.middle {ok : σ → α → Prop} {past window rest : List α}
    (h : Guarded ok step s (past ++ window ++ rest)) :
    Guarded ok step (exec step s past) window := by
  intro front a back hw
  have ha := h (past ++ front) a (back ++ rest) (by simp [hw])
  rwa [exec_append] at ha

/-- The invariant rule for guarded runs. -/
theorem guarded_induction {ok : σ → α → Prop} {I : List α → σ → Prop} (init : I [] s)
    (keep : ∀ past t a, ok t a → I past t → I (past ++ [a]) (step t a)) {as : List α}
    (h : Guarded ok step s as) : I as (exec step s as) := by
  induction as using List.reverseRecOn with
  | nil => exact init
  | append_singleton as a ih =>
    obtain ⟨hpre, hlast⟩ := guarded_snoc.mp h
    rw [exec_append]
    exact keep as _ a hlast (ih hpre)

/-- Where one step keeps `P` exactly if it meets the condition, a run keeps `P` at every
point exactly if it is guarded. `J` is what holds of all reachable states. -/
theorem always_iff_guarded {ok : σ → α → Prop} {J P : σ → Prop} (hJ : J s) (hP : P s)
    (keep : ∀ t a, J t → J (step t a))
    (exact_step : ∀ t a, J t → P t → (P (step t a) ↔ ok t a)) (as : List α) :
    (∀ past rest, as = past ++ rest → P (exec step s past)) ↔ Guarded ok step s as := by
  have hreach : ∀ bs, J (exec step s bs) :=
    exec_induction (I := fun _ => J) hJ fun _ t a => keep t a
  constructor
  · intro h past a rest hsplit
    have hbefore := h past (a :: rest) hsplit
    have hafter := h (past ++ [a]) rest (by simp [hsplit])
    rw [exec_append] at hafter
    exact (exact_step _ a (hreach past) hbefore).mp hafter
  · rintro h past rest rfl
    exact (guarded_induction (I := fun _ t => J t ∧ P t) ⟨hJ, hP⟩
      (fun _ t a hok ht => ⟨keep t a ht.1, (exact_step t a ht.1 ht.2).mpr hok⟩) h.left).2

end Run
