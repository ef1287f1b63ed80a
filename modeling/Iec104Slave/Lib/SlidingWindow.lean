import Mathlib.Data.List.Induction
import Mathlib.Data.Nat.ModEq

/-!
# Numbered frames with a window

A station sends and receives frames that carry their number and, for the other direction, the
number of the next frame expected. Numbers are counts modulo `m`, and at most `k` frames are sent
ahead of what the other side has confirmed.

`Station` counts without a bound. `Station.next m k` says which events are allowed, what a frame has
to carry, and when a received frame has to be refused. A component follows the protocol if
`Station.run m k` accepts the events that it took part in.

The other side opens and closes the sending of frames. A station that is withdrawn by a third party
may finish the frame that it is about to send.
-/

namespace SlidingWindow

/-! ## Numbers -/

/-- A number lies in the window of `n` frames after `base`. -/
def InWindow (m base n number : Nat) : Prop := ∃ j ≤ n, number = (base + j) % m

/-- How many frames after `base` a number confirms, if it lies in the window. -/
def confirms (m base n number : Nat) : Option Nat :=
  (List.range (n + 1)).find? fun j => number == (base + j) % m

variable {m k base n number i j : Nat}

/-- Numbers of one window are distinct. -/
theorem number_inj (hi : i ≤ n) (hj : j ≤ n) (hn : n < m)
    (h : (base + i) % m = (base + j) % m) : i = j := by
  have hmod : base + i ≡ base + j [MOD m] := h
  exact (Nat.ModEq.add_left_cancel' base hmod).eq_of_lt_of_lt (Nat.lt_of_le_of_lt hi hn)
    (Nat.lt_of_le_of_lt hj hn)

theorem confirms_eq_some (hn : n < m) (hj : j ≤ n) (h : number = (base + j) % m) :
    confirms m base n number = some j := by
  rw [confirms, List.find?_range_eq_some]
  refine ⟨beq_iff_eq.mpr h, List.mem_range.mpr (Nat.lt_succ_of_le hj), fun i hi => ?_⟩
  rw [Bool.not_eq_true', beq_eq_false_iff_ne]
  intro heq
  exact Nat.ne_of_lt hi (number_inj (Nat.le_trans (Nat.le_of_lt hi) hj) hj hn (heq.symm.trans h))

theorem confirms_eq_none (h : ¬ InWindow m base n number) : confirms m base n number = none := by
  rw [confirms, List.find?_eq_none]
  intro j hj
  rw [Bool.not_eq_true, beq_eq_false_iff_ne]
  exact fun heq => h ⟨j, Nat.le_of_lt_succ (List.mem_range.mp hj), heq⟩

theorem le_of_confirms (h : confirms m base n number = some j) : j ≤ n :=
  Nat.le_of_lt_succ (List.mem_range.mp (List.mem_of_find?_eq_some h))

/-! ## Stations -/

/-- Whether frames may be sent: `closing` after the station was withdrawn. -/
inductive Opening
  | closed
  | opened
  | closing
deriving DecidableEq

/-- The frames sent, those of them that are confirmed, the frames received, and those of them that
the other side knows to be received. -/
structure Station where
  sent : Nat
  confirmed : Nat
  received : Nat
  acked : Nat
  opening : Opening
deriving DecidableEq

inductive Event (α : Type)
  | start
  | stop
  | stopConfirmed
  | withdrawn
  | sendFrame (number expected : Nat) (x : α)
  | sendAck (expected : Nat)
  | lostAck
  | receiveFrame (number expected : Nat) (x : α)
  | receiveAck (expected : Nat)
  | refuseFrame (number expected : Nat)
  | refuseAck (expected : Nat)
deriving DecidableEq

namespace Station

variable {α : Type} {s s' : Station}

def init : Station := ⟨0, 0, 0, 0, .closed⟩

/-- The frames that are sent and not confirmed. -/
def pending (s : Station) : Nat := s.sent - s.confirmed

/-- How many frames the number `expected` of a received frame confirms. -/
def confirmedBy (m : Nat) (s : Station) (expected : Nat) : Option Nat :=
  confirms m s.confirmed s.pending expected

/-- How many frames a received frame confirms, if the station may take it. -/
def takes (m : Nat) (s : Station) (number expected : Nat) : Option Nat :=
  if s.opening = .opened ∧ number = s.received % m then s.confirmedBy m expected else none

/-- The state after an event, `none` if the event is not allowed. -/
def next (m k : Nat) (s : Station) : Event α → Option Station
  | .start => some { s with opening := .opened }
  | .stop => some { s with opening := .closed }
  | .stopConfirmed =>
    if s.opening ≠ .opened ∧ s.sent = s.confirmed then some { s with opening := .closed } else none
  | .withdrawn => some { s with opening := if s.opening = .opened then .closing else s.opening }
  | .sendFrame number expected _ =>
    if s.opening ≠ .closed ∧ number = s.sent % m ∧ expected = s.received % m ∧ s.pending < k then
      some { s with
        sent := s.sent + 1, acked := s.received
        opening := if s.opening = .opened then .opened else .closed }
    else none
  | .sendAck expected =>
    if expected = s.received % m then some { s with acked := s.received } else none
  | .lostAck => some s
  | .receiveFrame number expected _ =>
    (s.takes m number expected).map fun j =>
      { s with received := s.received + 1, confirmed := s.confirmed + j }
  | .receiveAck expected =>
    (s.confirmedBy m expected).map fun j => { s with confirmed := s.confirmed + j }
  | .refuseFrame number expected => if s.takes m number expected = none then some s else none
  | .refuseAck expected => if s.confirmedBy m expected = none then some s else none

/-- The state after the events, `none` if one of them is not allowed. -/
def run (m k : Nat) (s : Station) (events : List (Event α)) : Option Station :=
  events.foldlM (next m k) s

theorem run_concat {events : List (Event α)} {e : Event α} (h : run m k s events = some s') :
    run m k s (events ++ [e]) = next m k s' e := by
  rw [run, List.foldlM_append, ← run, h]
  simp

/-- The invariant rule for events that are allowed. -/
theorem run_induction {I : List (Event α) → Station → Prop} (init : I [] s)
    (keep : ∀ past t e t', I past t → next m k t e = some t' → I (past ++ [e]) t')
    {events : List (Event α)} (h : run m k s events = some s') : I events s' := by
  induction events using List.reverseRecOn generalizing s' with
  | nil =>
    cases h
    exact init
  | append_singleton events e ih =>
    rw [run, List.foldlM_append, ← run] at h
    obtain ⟨t, ht, hnext⟩ := Option.bind_eq_some_iff.mp h
    rw [List.foldlM_cons] at hnext
    obtain ⟨t', hnext, hlast⟩ := Option.bind_eq_some_iff.mp hnext
    cases hlast
    exact keep events t e _ (ih ht) hnext

/-! ### What allowed events have in common -/

/-- The counts of a station. -/
structure WellFormed (k : Nat) (s : Station) : Prop where
  confirmed_le : s.confirmed ≤ s.sent
  pending_le : s.pending ≤ k
  acked_le : s.acked ≤ s.received

theorem confirmed_add_le (h : s.WellFormed k) (hj : j ≤ s.pending) :
    s.confirmed + j ≤ s.sent ∧ s.sent - (s.confirmed + j) ≤ k := by
  have hle := h.confirmed_le
  have hpending := h.pending_le
  rw [pending] at hj hpending
  omega

theorem le_of_takes {expected : Nat} (h : s.takes m number expected = some j) :
    j ≤ s.pending := by
  rw [takes] at h
  split at h
  · exact le_of_confirms h
  · cases h

theorem WellFormed.next {e : Event α} (h : s.WellFormed k) (hnext : s.next m k e = some s') :
    s'.WellFormed k := by
  cases e with
  | start | stop | withdrawn | lostAck =>
    cases hnext
    exact ⟨h.confirmed_le, h.pending_le, h.acked_le⟩
  | stopConfirmed | refuseFrame _ _ | refuseAck _ =>
    rw [Station.next] at hnext
    split at hnext <;> cases hnext
    exact ⟨h.confirmed_le, h.pending_le, h.acked_le⟩
  | sendFrame number expected x =>
    rw [Station.next] at hnext
    split at hnext <;> cases hnext
    next hsend =>
    refine ⟨Nat.le_succ_of_le h.confirmed_le, ?_, Nat.le_refl _⟩
    calc s.sent + 1 - s.confirmed = s.pending + 1 := Nat.succ_sub h.confirmed_le
      _ ≤ k := hsend.2.2.2
  | sendAck expected =>
    rw [Station.next] at hnext
    split at hnext <;> cases hnext
    exact ⟨h.confirmed_le, h.pending_le, Nat.le_refl _⟩
  | receiveFrame number expected x =>
    obtain ⟨j, hj, rfl⟩ := Option.map_eq_some_iff.mp hnext
    obtain ⟨hle, hpending⟩ := confirmed_add_le h (le_of_takes hj)
    exact ⟨hle, hpending, Nat.le_succ_of_le h.acked_le⟩
  | receiveAck expected =>
    obtain ⟨j, hj, rfl⟩ := Option.map_eq_some_iff.mp hnext
    obtain ⟨hle, hpending⟩ := confirmed_add_le h (le_of_confirms hj)
    exact ⟨hle, hpending, h.acked_le⟩

/-- The frame that an event sends. -/
def sentBy : Event α → Option (Nat × α)
  | .sendFrame number _ x => some (number, x)
  | _ => none

/-- The frame that an event receives. -/
def receivedBy : Event α → Option (Nat × α)
  | .receiveFrame number _ x => some (number, x)
  | _ => none

/-- The numbers of the frames of one direction: their counts, modulo `m`. -/
def Numbered (m n : Nat) (frames : List (Nat × α)) : Prop :=
  frames.map Prod.fst = (List.range n).map (· % m)

theorem Numbered.concat {frames : List (Nat × α)} (h : Numbered m n frames) (x : α) :
    Numbered m (n + 1) (frames ++ [(n % m, x)]) := by
  rw [Numbered, List.map_append, h, List.range_succ, List.map_append]
  rfl

/-- An event sends at most one frame, with the next number, and receives at most one. -/
theorem next_frames {e : Event α} (h : s.next m k e = some s') :
    (sentBy e = none ∧ s'.sent = s.sent ∨
      ∃ x, sentBy e = some (s.sent % m, x) ∧ s'.sent = s.sent + 1) ∧
    (receivedBy e = none ∧ s'.received = s.received ∨
      ∃ x, receivedBy e = some (s.received % m, x) ∧ s'.received = s.received + 1) := by
  cases e with
  | start | stop | withdrawn | lostAck =>
    cases h
    exact ⟨.inl ⟨rfl, rfl⟩, .inl ⟨rfl, rfl⟩⟩
  | stopConfirmed | refuseFrame _ _ | refuseAck _ | sendAck _ =>
    rw [next] at h
    split at h <;> cases h
    exact ⟨.inl ⟨rfl, rfl⟩, .inl ⟨rfl, rfl⟩⟩
  | sendFrame number expected x =>
    rw [next] at h
    split at h <;> cases h
    next hsend => exact ⟨.inr ⟨x, by rw [sentBy, hsend.2.1], rfl⟩, .inl ⟨rfl, rfl⟩⟩
  | receiveFrame number expected x =>
    obtain ⟨j, hj, rfl⟩ := Option.map_eq_some_iff.mp h
    rw [takes] at hj
    split at hj
    · next htakes => exact ⟨.inl ⟨rfl, rfl⟩, .inr ⟨x, by rw [receivedBy, htakes.2], rfl⟩⟩
    · cases hj
  | receiveAck expected =>
    obtain ⟨j, hj, rfl⟩ := Option.map_eq_some_iff.mp h
    exact ⟨.inl ⟨rfl, rfl⟩, .inl ⟨rfl, rfl⟩⟩

/-- What allowed events lead to: the counts are in order, and the frames of both directions are
numbered one after the other. -/
structure Summary (m k : Nat) (events : List (Event α)) (s : Station) : Prop where
  wellFormed : s.WellFormed k
  sent : Numbered m s.sent (events.filterMap sentBy)
  received : Numbered m s.received (events.filterMap receivedBy)

theorem Summary.next {past : List (Event α)} {e : Event α} (h : Summary m k past s)
    (hnext : s.next m k e = some s') : Summary m k (past ++ [e]) s' := by
  obtain ⟨hsent, hreceived⟩ := next_frames hnext
  refine ⟨h.wellFormed.next hnext, ?_, ?_⟩
  · rw [List.filterMap_append]
    rcases hsent with ⟨hnone, hcount⟩ | ⟨x, hsome, hcount⟩
    · simpa [hnone, hcount] using h.sent
    · simpa [hsome, hcount] using h.sent.concat x
  · rw [List.filterMap_append]
    rcases hreceived with ⟨hnone, hcount⟩ | ⟨x, hsome, hcount⟩
    · simpa [hnone, hcount] using h.received
    · simpa [hsome, hcount] using h.received.concat x

theorem run_summary {events : List (Event α)} (h : run m k init events = some s) :
    Summary m k events s := by
  have hinit : Summary m k ([] : List (Event α)) init :=
    ⟨⟨Nat.le_refl _, Nat.zero_le _, Nat.le_refl _⟩, rfl, rfl⟩
  exact run_induction (I := Summary m k) hinit (fun _ _ _ _ hpast hnext => hpast.next hnext) h

end Station

end SlidingWindow
