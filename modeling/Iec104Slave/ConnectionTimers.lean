import Iec104Slave.RedundancyGroup

/-!
# Supervision of sent frames (`handleTimeouts` in `cs104_slave.c`)

A connection ends when a frame is not confirmed within `t1`. `handleTimeouts` looks at the oldest
unconfirmed frame only. With a clock that does not go back the frames of the window are in the order
of their times, so this is enough for all of them.

Result: `unconfirmed_frames_in_time`: a connection that runs on after `handleTimeouts` has no
unconfirmed frame that is `t1` old, and no TESTFR_ACT that is unanswered for more than `t1`.
-/

namespace Iec104Slave

open SlidingWindow MasterConnection

/-- The time that a step reads from the clock. -/
def SlaveOp.time : SlaveOp → Option Nat
  | .accept now => some now
  | .thread _ env => some env.now
  | _ => none

/-- The slave, with the last time that was read from the clock. -/
structure TimedSlave where
  clock : Nat
  slave : Cs104Slave

def timedStep (p : ApciParameters) (s : TimedSlave) (op : SlaveOp) : TimedSlave :=
  ⟨op.time.getD s.clock, slaveStep p s.slave op⟩

/-- `Hal_getMonotonicTimeInMs` does not go back. -/
def ClockRuns (s : TimedSlave) (op : SlaveOp) : Prop := ∀ now ∈ op.time, s.clock ≤ now

instance (s : TimedSlave) (op : SlaveOp) : Decidable (ClockRuns s op) :=
  inferInstanceAs (Decidable (∀ _ ∈ _, _))

/-- Frames were sent in the order of their numbers, and not in the future. -/
structure InTime (clock : Nat) (times : List Nat) : Prop where
  ordered : times.Pairwise (· ≤ ·)
  le : ∀ time ∈ times, time ≤ clock

variable {p : ApciParameters} {s : TimedSlave} {c : MasterConnection} {op : SlaveOp}
  {clock now k : Nat} {P Q : List Nat → Prop} {env : Environment}

theorem inTime_nil : InTime clock [] := ⟨.nil, fun _ h => absurd h List.not_mem_nil⟩

theorem InTime.mono {times : List Nat} (h : InTime clock times) (hle : clock ≤ now) :
    InTime now times :=
  ⟨h.ordered, fun time htime => Nat.le_trans (h.le time htime) hle⟩

theorem keptAt_inTime (now : Nat) : KeptAt now (InTime now) where
  drop times j h := by
    have hsub : (times.drop j).Sublist times := List.drop_sublist j times
    exact ⟨h.ordered.sublist hsub, fun time htime => h.le time (hsub.subset htime)⟩
  push times h := by
    refine ⟨List.pairwise_append.mpr ⟨h.ordered, List.pairwise_singleton _ _, ?_⟩, ?_⟩
    · intro time htime last hlast
      rw [List.mem_singleton.mp hlast]
      exact h.le time htime
    · intro time htime
      rcases List.mem_append.mp htime with hold | hnew
      · exact h.le time hold
      · exact Nat.le_of_eq (List.mem_singleton.mp hnew)
  retime time times hahead h :=
    absurd (h.le time List.mem_cons_self) (Nat.not_le_of_lt hahead)

/-! ## The times of the window -/

theorem SlotOk.mono (h : SlotOk k P c) (himp : ∀ times, P times → Q times) : SlotOk k Q c := by
  refine ⟨fun hused => ?_, h.free⟩
  obtain ⟨station, hsynced, hsending, htracks⟩ := h.used hused
  refine ⟨station, hsynced, hsending, htracks.imp_left ?_⟩
  rintro ⟨times, htimes, hsent, hP⟩
  exact ⟨times, htimes, hsent, himp times hP⟩

/-- All windows are in time. -/
def AllInTime (k : Nat) (s : TimedSlave) : Prop :=
  ∀ (i : Nat) c, s.slave.connections[i]? = some c → SlotOk k (InTime s.clock) c

theorem AllInTime.step (hclock : ClockRuns s op) (h : AllInTime p.k s) :
    AllInTime p.k (timedStep p s op) := by
  intro i c' hc'
  obtain ⟨c, hc, hmove⟩ := slaveStep_move hc'
  have hle : s.clock ≤ (timedStep p s op).clock := by
    rw [timedStep]
    cases htime : op.time with
    | none => exact Nat.le_refl _
    | some now => exact hclock now htime
  refine ((h i c hc).mono fun times htimes => htimes.mono hle).move inTime_nil ?_ hmove
  rintro env rfl
  exact keptAt_inTime env.now

theorem all_in_time (n : Nat) (size : QueueSize) {ops : List SlaveOp}
    (hclock : Run.Guarded ClockRuns (timedStep p) ⟨0, Cs104Slave.create n size⟩ ops) :
    AllInTime p.k (Run.exec (timedStep p) ⟨0, Cs104Slave.create n size⟩ ops) :=
  Run.guarded_induction (I := fun _ => AllInTime p.k)
    (fun _ _ hc => eq_create hc ▸ slotOk_create p.k)
    (fun _ _ _ hok h => h.step hok) hclock

/-! ## `handleTimeouts` -/

/-- T2 leaves the sent frames and TESTFR_ACT alone. -/
theorem checkT2_frame (c : MasterConnection) (now : Nat) (write : Int) :
    (c.checkT2 p now write).window = c.window ∧
      (c.checkT2 p now write).waitingForTestFRcon = c.waitingForTestFRcon ∧
      (c.checkT2 p now write).nextTestFRConTimeout = c.nextTestFRConTimeout := by
  have hconfirm (d : MasterConnection) : (d.confirmReceived now write).window = d.window ∧
      (d.confirmReceived now write).waitingForTestFRcon = d.waitingForTestFRcon ∧
      (d.confirmReceived now write).nextTestFRConTimeout = d.nextTestFRConTimeout := by
    rw [confirmReceived, sendSMessage]
    split <;> exact ⟨rfl, rfl, rfl⟩
  rw [checkT2]
  split
  · rw [confirmT2, plausibleT2]
    split_ifs <;> first | exact ⟨rfl, rfl, rfl⟩ | exact hconfirm _
  · exact ⟨rfl, rfl, rfl⟩

/-- TESTFR_ACT is awaited until its time has passed. -/
theorem checkTestFRcon_over (c : MasterConnection) (now : Nat)
    (hwait : (c.checkTestFRcon p now).1.waitingForTestFRcon = true)
    (hover : (c.checkTestFRcon p now).2 = false) :
    now ≤ (c.checkTestFRcon p now).1.nextTestFRConTimeout := by
  rw [checkTestFRcon] at hwait hover ⊢
  split at hwait
  · next hwaiting =>
    rw [if_pos hwaiting] at hover ⊢
    exact Nat.le_of_not_lt (of_decide_eq_false hover)
  · next hwaiting => exact absurd hwait hwaiting

/-- If the oldest frame is in time, so are the others. -/
theorem InTime.all_lt {first limit : Nat} {rest : List Nat} (h : InTime now (first :: rest))
    (hfirst : now < first + limit) : ∀ time ∈ first :: rest, now < time + limit := by
  intro time htime
  have hle : first ≤ time := by
    rcases List.mem_cons.mp htime with rfl | hrest
    · exact Nat.le_refl _
    · exact (List.pairwise_cons.mp h.ordered).1 time hrest
  exact Nat.lt_of_lt_of_le hfirst (Nat.add_le_add_right hle _)

/-- The check of the oldest frame stands for all of them. -/
theorem checkT1_in_time {times : List Nat} {confirmed : Nat} (ht1 : 0 < p.t1)
    (h : c.window.Unconfirmed confirmed times) (htimes : InTime now times)
    (hover : (c.checkT1 p now).2 = false) :
    (c.checkT1 p now).1 = c ∧ ∀ time ∈ times, now < time + p.t1 * 1000 := by
  cases times with
  | nil =>
    rw [checkT1, h.none_of_nil rfl]
    exact ⟨rfl, fun _ hmem => absurd hmem List.not_mem_nil⟩
  | cons first rest =>
    obtain ⟨oldest, hspans⟩ := h.spans (List.cons_ne_nil _ _)
    have hnotAhead : ¬ first > now := Nat.not_lt_of_le (htimes.le first List.mem_cons_self)
    rw [checkT1, hspans.oldest_eq] at hover ⊢
    simp only [hspans.holds.front, if_neg hnotAhead, decide_eq_false_iff_not] at hover ⊢
    exact ⟨trivial, htimes.all_lt (by omega)⟩

theorem handleTimeouts_in_time {times : List Nat} {confirmed : Nat} (ht1 : 0 < p.t1)
    (h : c.window.Unconfirmed confirmed times) (htimes : InTime env.now times)
    (hrunning : (c.handleTimeouts p env).isRunning = true) :
    (c.handleTimeouts p env).window = c.window ∧
      (∀ time ∈ times, env.now < time + p.t1 * 1000) ∧
      ((c.handleTimeouts p env).waitingForTestFRcon = true →
        env.now ≤ (c.handleTimeouts p env).nextTestFRConTimeout) := by
  have hwindow : ((c.checkT3 p env.now env.write).checkTestFRcon p env.now).1.window =
      c.window :=
    (quiet_checkTestFRcon _ env.now).window.trans (quiet_checkT3 c env.now env.write).window
  have htest := checkTestFRcon_over (p := p) (c.checkT3 p env.now env.write) env.now
  rw [handleTimeouts] at hrunning ⊢
  dsimp only at hrunning ⊢
  generalize (c.checkT3 p env.now env.write).checkTestFRcon p env.now = tested at *
  obtain ⟨hT2, hwaiting, hnext⟩ := checkT2_frame (p := p) tested.1 env.now env.secondWrite
  simp only [Bool.and_eq_true, Bool.not_eq_true'] at hrunning
  obtain ⟨⟨-, htestOver⟩, hsentOver⟩ := hrunning
  have h' : (tested.1.checkT2 p env.now env.secondWrite).window.Unconfirmed confirmed times := by
    rw [hT2, hwindow]
    exact h
  obtain ⟨hsame, hall⟩ := checkT1_in_time ht1 h' htimes hsentOver
  rw [hsame]
  refine ⟨hT2.trans hwindow, hall, fun hwait => ?_⟩
  rw [hwaiting] at hwait
  rw [hnext]
  exact htest hwait htestOver

/-- A connection that runs on after `handleTimeouts`, with a clock that does not go back: every
unconfirmed frame was sent less than `t1` ago, and TESTFR_ACT is not unanswered for more than `t1`.
-/
theorem unconfirmed_frames_in_time (p : ApciParameters) (ht1 : 0 < p.t1) (n : Nat)
    (highPrioMaxQueueSize : QueueSize) (ops : List SlaveOp) (i : Nat) (env : Environment)
    (hclock : Run.Guarded ClockRuns (timedStep p) ⟨0, Cs104Slave.create n highPrioMaxQueueSize⟩
      (ops ++ [.thread i env])) (c : MasterConnection)
    (hc : (Run.exec (timedStep p) ⟨0, Cs104Slave.create n highPrioMaxQueueSize⟩
      ops).slave.connections[i]? = some c) (hused : c.isUsed = true) (hpc : c.pc = .timeouts) :
    ∃ c', (Run.exec (timedStep p) ⟨0, Cs104Slave.create n highPrioMaxQueueSize⟩
        (ops ++ [.thread i env])).slave.connections[i]? = some c' ∧
      (c'.isRunning = true →
        ∃ confirmed times, c'.window.Unconfirmed confirmed times ∧
          (∀ time ∈ times, env.now < time + p.t1 * 1000) ∧
          (c'.waitingForTestFRcon = true → env.now ≤ c'.nextTestFRConTimeout)) := by
  obtain ⟨hbefore, hstep⟩ := Run.guarded_snoc.mp hclock
  have hslot := all_in_time n _ hbefore i c hc
  obtain ⟨station, -, -, htracks⟩ := hslot.used hused
  rw [Run.exec_append]
  generalize Run.exec (timedStep p) ⟨0, Cs104Slave.create n highPrioMaxQueueSize⟩ ops = s at *
  have hnext : (Run.exec (timedStep p) s [.thread i env]).slave.connections[i]? =
      some (c.handleTimeouts p env) := by
    have hlt := (List.getElem?_eq_some_iff.mp hc).1
    have hthread : c.threadStep p s.slave.queue.queue env = (c.handleTimeouts p env, none) := by
      rw [MasterConnection.threadStep, hpc]
    rw [Run.exec_cons, Run.exec_nil, timedStep]
    simp only [slaveStep, hc, hpc, hthread, connections_afterThread]
    exact List.getElem?_set_self hlt
  refine ⟨_, hnext, fun hrunning => ?_⟩
  rcases htracks with ⟨times, htimes, -, hintime⟩ | hfinishing
  · have hnow := hintime.mono (hstep env.now rfl)
    obtain ⟨hwindow, hall, htest⟩ := handleTimeouts_in_time ht1 htimes hnow hrunning
    refine ⟨station.confirmed, times, ?_, hall, htest⟩
    rw [hwindow]
    exact htimes
  · have hrunning' := (mild_handleTimeouts c env).running hrunning
    rw [hfinishing.1] at hrunning'
    cases hrunning'

/-- Five seconds after the frame of `startedOps`. -/
def supervisedOps : List SlaveOp :=
  let env : Environment := ⟨5000, .nothing, none, true, 6, 6⟩
  startedOps ++ [.thread 0 env, .thread 0 env]

theorem unconfirmed_frames_in_time_supervised :
    ∃ c', (Run.exec (timedStep startedParameters) ⟨0, Cs104Slave.create 1 oneAsdu⟩
        (supervisedOps ++ [.thread 0 ⟨5000, .nothing, none, true, 6, 6⟩])).slave.connections[0]? =
          some c' ∧
      (c'.isRunning = true →
        ∃ confirmed times, c'.window.Unconfirmed confirmed times ∧
          (∀ time ∈ times, 5000 < time + 15 * 1000) ∧
          (c'.waitingForTestFRcon = true → 5000 ≤ c'.nextTestFRConTimeout)) := by
  have hsome : (Run.exec (timedStep startedParameters) ⟨0, Cs104Slave.create 1 oneAsdu⟩
      supervisedOps).slave.connections[0]?.map (fun c => (c.isUsed, c.pc)) =
        some (true, .timeouts) := by decide +kernel
  obtain ⟨c, hc, hfields⟩ := Option.map_eq_some_iff.mp hsome
  obtain ⟨hused, hpc⟩ := Prod.mk.inj hfields
  exact unconfirmed_frames_in_time startedParameters (by decide) 1 oneAsdu supervisedOps 0
    ⟨5000, .nothing, none, true, 6, 6⟩ (by decide +kernel) c hc hused hpc

/-- At that time the connection is running, with one frame unconfirmed. -/
example : (Run.exec (timedStep startedParameters) ⟨0, Cs104Slave.create 1 oneAsdu⟩
    (supervisedOps ++ [.thread 0 ⟨5000, .nothing, none, true, 6, 6⟩])).slave.connections[0]?.map
      (fun c => (c.isRunning, c.window.oldestSentAsdu)) = some (true, some 0) := by
  decide +kernel

end Iec104Slave
