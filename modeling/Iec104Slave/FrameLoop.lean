import Mathlib.Data.List.Perm.Subperm

/-!
# Send loops of the worker

A handler of the worker cuts its answer into frames and sends them in a loop. The loop ends
early when the client is no longer active. A frame that the connection refuses is logged,
and the loop goes on with the next one.

Results:
* `mem_frameLoop`: which iterations take place.
* `carried_complete_iff`: the accepted frames carry everything iff the client is active
  in every iteration and the connection accepts every frame.
-/

namespace Iec104Slave

/-- What the surroundings do in one iteration of a send loop: the test of
`client_context_is_active`, and the result of `IMasterConnection_sendASDU`. -/
structure FrameOutcome where
  active : Bool
  accepts : Bool

/-- In the iterations of a loop with `n` batches the client is active and the frame is
accepted. -/
def AllAccepted (outcome : Nat → FrameOutcome) (n : Nat) : Prop :=
  ∀ k < n, (outcome k).active = true ∧ (outcome k).accepts = true

def StaysActive (outcome : Nat → FrameOutcome) : Prop :=
  ∀ k, (outcome k).active = true

/-- An iteration of a send loop: what it is about, and the frame that it sent. -/
structure Sent (β φ : Type) where
  item : β
  frame : Option φ

/-- The iterations of a send loop over `items`. `send` is given the result of
`IMasterConnection_sendASDU`. -/
def frameLoop {β φ : Type} (send : Bool → β → Option φ) :
    (Nat → FrameOutcome) → List β → List (Sent β φ)
  | _, [] => []
  | outcome, item :: rest =>
    if (outcome 0).active then
      ⟨item, send (outcome 0).accepts item⟩ :: frameLoop send (fun k => outcome (k + 1)) rest
    else []

/-- The contents of the frames of a loop, one after the other. -/
def carried {β φ γ : Type} (content : φ → List γ) (iterations : List (Sent β φ)) : List γ :=
  (iterations.filterMap Sent.frame).flatMap content

/-- Every item has something to send, and its frame carries just that if the connection
accepts it. -/
def Sendable {β φ γ : Type} (send : Bool → β → Option φ) (content : φ → List γ)
    (want : β → List γ) (items : List β) : Prop :=
  ∀ item ∈ items, want item ≠ [] ∧ ∃ frame, content frame = want item ∧
    ∀ accepts, send accepts item = if accepts then some frame else none

namespace FrameLoopLemmas

variable {β φ γ : Type} {send : Bool → β → Option φ} {outcome : Nat → FrameOutcome}
  {items : List β}

/-- Iteration `i` takes place if the client was active up to it. -/
theorem mem_frameLoop {sent : Sent β φ} : sent ∈ frameLoop send outcome items ↔
    ∃ i item, items[i]? = some item ∧ (∀ j ≤ i, (outcome j).active = true) ∧
      sent = ⟨item, send (outcome i).accepts item⟩ := by
  induction items generalizing outcome with
  | nil => simp [frameLoop]
  | cons item items ih =>
    rw [frameLoop]
    split
    · next hactive =>
      rw [List.mem_cons, ih]
      constructor
      · intro h
        rcases h with h | ⟨i, x, hx, hact, h⟩
        · refine ⟨0, item, rfl, fun j hj => ?_, h⟩
          rw [Nat.le_zero.mp hj]
          exact hactive
        · refine ⟨i + 1, x, hx, fun j hj => ?_, h⟩
          cases j with
          | zero => exact hactive
          | succ j => exact hact j (Nat.le_of_succ_le_succ hj)
      · intro h
        obtain ⟨i, x, hx, hact, h⟩ := h
        cases i with
        | zero =>
          cases hx
          exact .inl h
        | succ i => exact .inr ⟨i, x, hx, fun j hj => hact (j + 1) (Nat.succ_le_succ hj), h⟩
    · next hinactive =>
      constructor
      · simp
      · intro h
        obtain ⟨i, _, _, hact, _⟩ := h
        exact absurd (hact 0 (Nat.zero_le i)) hinactive

theorem getElem?_frameLoop {i : Nat} {sent : Sent β φ}
    (h : (frameLoop send outcome items)[i]? = some sent) :
    ∃ item, items[i]? = some item ∧ sent = ⟨item, send (outcome i).accepts item⟩ := by
  induction items generalizing outcome i with
  | nil => cases h
  | cons item items ih =>
    rw [frameLoop] at h
    split at h
    · cases i with
      | zero =>
        cases h
        exact ⟨item, rfl, rfl⟩
      | succ i => exact ih h
    · cases h

theorem item_mem {sent : Sent β φ} (h : sent ∈ frameLoop send outcome items) :
    sent.item ∈ items ∧ ∃ accepts, sent.frame = send accepts sent.item := by
  obtain ⟨i, item, hitem, _, rfl⟩ := mem_frameLoop.mp h
  exact ⟨List.mem_of_getElem? hitem, _, rfl⟩

theorem items_sublist : ((frameLoop send outcome items).map Sent.item).Sublist items := by
  induction items generalizing outcome with
  | nil => exact List.Sublist.refl _
  | cons item items ih =>
    rw [frameLoop]
    split
    · exact ih.cons_cons item
    · exact List.nil_sublist _

/-- While the client is active the loop goes over all items. -/
theorem items_of_staysActive (h : StaysActive outcome) :
    (frameLoop send outcome items).map Sent.item = items := by
  induction items generalizing outcome with
  | nil => rfl
  | cons item items ih =>
    rw [frameLoop, if_pos (h 0), List.map_cons, ih fun k => h (k + 1)]

theorem allAccepted_succ {n : Nat} : AllAccepted outcome (n + 1) ↔
    ((outcome 0).active = true ∧ (outcome 0).accepts = true) ∧
      AllAccepted (fun k => outcome (k + 1)) n := by
  constructor
  · intro h
    exact ⟨h 0 (Nat.succ_pos n), fun k hk => h (k + 1) (Nat.succ_lt_succ hk)⟩
  · intro h k hk
    cases k with
    | zero => exact h.1
    | succ k => exact h.2 k (Nat.lt_of_succ_lt_succ hk)

variable {content : φ → List γ} {want : β → List γ}

theorem carried_cons (sent : Sent β φ) (iterations : List (Sent β φ)) :
    carried content (sent :: iterations) =
      sent.frame.toList.flatMap content ++ carried content iterations := by
  unfold carried
  cases h : sent.frame with
  | none => simp [h]
  | some frame => simp [h]

/-- Where the result of a send plays no part, an active client gets every frame. -/
theorem frameLoop_of_staysActive {build : β → Option φ} (h : StaysActive outcome) :
    frameLoop (fun _ => build) outcome items = items.map fun item => ⟨item, build item⟩ := by
  induction items generalizing outcome with
  | nil => rfl
  | cons item items ih => rw [frameLoop, if_pos (h 0), ih fun k => h (k + 1), List.map_cons]

theorem carried_of_staysActive {build : β → Option φ} (h : StaysActive outcome) :
    carried content (frameLoop (fun _ => build) outcome items) =
      items.flatMap fun item => (build item).toList.flatMap content := by
  rw [frameLoop_of_staysActive h]
  induction items with
  | nil => rfl
  | cons item items ih => rw [List.map_cons, carried_cons, ih, List.flatMap_cons]

theorem carried_sublist (h : Sendable send content want items) :
    (carried content (frameLoop send outcome items)).Sublist (items.flatMap want) := by
  induction items generalizing outcome with
  | nil => exact .slnil
  | cons item items ih =>
    obtain ⟨_, frame, hcontent, hsend⟩ := h item (List.mem_cons_self ..)
    rw [frameLoop, List.flatMap_cons]
    split
    · rw [carried_cons, hsend]
      refine List.Sublist.append ?_ (ih fun x hx => h x (List.mem_cons_of_mem _ hx))
      split
      · simp [hcontent]
      · simp
    · exact List.nil_sublist _

theorem carried_eq_iff (h : Sendable send content want items) :
    carried content (frameLoop send outcome items) = items.flatMap want ↔
      AllAccepted outcome items.length := by
  induction items generalizing outcome with
  | nil => simp [frameLoop, carried, AllAccepted]
  | cons item items ih =>
    have hrest : Sendable send content want items := fun x hx => h x (List.mem_cons_of_mem _ hx)
    obtain ⟨hne, frame, hcontent, hsend⟩ := h item (List.mem_cons_self ..)
    rw [List.length_cons, allAccepted_succ, frameLoop, List.flatMap_cons]
    by_cases hactive : (outcome 0).active = true
    · rw [if_pos hactive, carried_cons, hsend]
      by_cases haccepts : (outcome 0).accepts = true
      · simp [hactive, haccepts, hcontent, ih hrest]
      · -- the rest of the loop cannot make up for what the refused frame carried
        refine iff_of_false (fun heq => ?_) (fun hall => haccepts hall.1.2)
        have hlen := congrArg List.length heq
        have hle : (carried content (frameLoop send (fun k => outcome (k + 1)) items)).length ≤
            (items.flatMap want).length := (carried_sublist hrest).length_le
        have hpos := List.length_pos_of_ne_nil hne
        rw [if_neg haccepts] at hlen
        simp only [Option.toList_none, List.flatMap_nil, List.nil_append,
          List.length_append] at hlen
        omega
    · rw [if_neg hactive]
      refine iff_of_false (fun heq => ?_) (fun hall => hactive hall.1.1)
      exact hne (List.append_eq_nil_iff.mp heq.symm).1

/-- The accepted frames carry everything, each thing as often as it is there, iff no
iteration fails. -/
theorem carried_complete_iff (h : Sendable send content want items) :
    (items.flatMap want).Subperm (carried content (frameLoop send outcome items)) ↔
      AllAccepted outcome items.length := by
  rw [← carried_eq_iff h]
  constructor
  · intro hall
    exact (carried_sublist h).eq_of_length
      (Nat.le_antisymm (carried_sublist h).length_le hall.length_le)
  · intro heq
    rw [heq]

end FrameLoopLemmas

end Iec104Slave
