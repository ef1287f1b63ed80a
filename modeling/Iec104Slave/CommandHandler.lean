import Iec104Slave.RemoteControl
import Iec104Slave.RemoteAdjust
import Iec104Slave.RequestHandlers

/-!
# Commands handled on the connection thread (`command_handler.c`)

The older way to handle a command: no work message and no output to the hardware, the point is
written at once, and the request goes back as the response. It reads the first element of the
request only.

The rules for a select and an execute are those of `handle_remote_control_work`; an execute of
a setpoint needs no select here.

Result: `control_command_as_worker`: a control command leaves the table that the worker leaves
for the message of the same request, if its state is valid and the output succeeds.
-/

namespace Iec104Slave

/-- `CS101_COT_DEACTIVATION_CON`. -/
def deactivationCon : CauseOfTransmission := .other 9

/-- What both handlers do before their work on a point: a refused cause, a request without a first
element and an address without a point end the command. -/
def onFirstPoint {π : Type} (refused : Prop) [Decidable refused] (table : PointTable)
    (asdu : ReceivedAsdu) (find : PointTable → Int32 → Option π)
    (work : ReceivedElement → π → PointTable × Reply) : PointTable × Reply :=
  if refused then (table, ⟨.unknownCot, true⟩)
  else
    match asdu.element 0 with
    | none => (table, ⟨.unknownIoa, true⟩)
    | some e =>
      match find table e.ioa.toInt32 with
      | none => (table, ⟨.unknownIoa, true⟩)
      | some point => work e point

/-- The branches of `handle_control_command` on the point it found: the write through the
pointer, and `negative`. -/
def controlUpdate (typeId : UInt8) (cot : CauseOfTransmission) (select : Bool) (value : UInt8)
    (now : UInt64) (point : YkPoint) : (YkPoint → YkPoint) × Bool :=
  if (point.iecType = .single ∧ typeId ≠ C_SC_NA_1) ∨
      (point.iecType = .double ∧ typeId ≠ C_DC_NA_1) then (id, true)
  else if cot = .deactivation then (clearYkSelection, false)
  else if select then (selectYk now value, false)
  else if point.selectState = 0 ∨ now > point.selectDeadlineMs ∨ point.selectedValue ≠ value then
    (clearYkSelection, true)
  else (fun p => clearYkSelection { p with state := value }, false)

/-- The state that `handle_control_command` reads from the element. -/
def controlValue (typeId : UInt8) (e : ReceivedElement) : UInt8 :=
  if typeId = C_DC_NA_1 then e.state else if e.state ≠ 0 then 1 else 0

/-- `handle_control_command`: the table after it and the response. -/
def handleControlCommand (table : PointTable) (asdu : ReceivedAsdu) (now : UInt64) :
    PointTable × Reply :=
  onFirstPoint (asdu.cot ≠ .activation ∧ asdu.cot ≠ .deactivation) table asdu pointTableFindYk
    fun e point =>
      let work := controlUpdate asdu.typeId asdu.cot e.select (controlValue asdu.typeId e) now point
      (table.modifyYk e.ioa.toInt32 work.1,
        ⟨if asdu.cot = .deactivation then deactivationCon else .activationCon, work.2⟩)

/-- The branches of `handle_setpoint_command` on the point it found. -/
def setpointUpdate (select : Bool) (value : ℚ) (now : UInt64) (point : YtPoint) :
    (YtPoint → YtPoint) × Bool :=
  if outOfRange point value then (id, true)
  else if select then (selectYt now value, false)
  else if point.selectState ≠ 0 ∧ now > point.selectDeadlineMs then
    (fun p => { p with selectState := 0 }, true)
  else (fun p => { p with value := value, selectState := 0 }, false)

/-- `handle_setpoint_command`. -/
def handleSetpointCommand (table : PointTable) (asdu : ReceivedAsdu) (now : UInt64) :
    PointTable × Reply :=
  onFirstPoint (asdu.cot ≠ .activation) table asdu pointTableFindYt fun e point =>
    let work := setpointUpdate e.select e.value now point
    (table.modifyYt e.ioa.toInt32 work.1, ⟨.activationCon, work.2⟩)

/-- `command_handle_asdu`: `none` for a request that is no command. -/
def commandHandleAsdu (table : PointTable) (asdu : ReceivedAsdu) (now : UInt64) :
    Option (PointTable × Reply) :=
  if asdu.typeId = C_SC_NA_1 ∨ asdu.typeId = C_DC_NA_1 then
    some (handleControlCommand table asdu now)
  else if asdu.typeId = C_SE_NA_1 ∨ asdu.typeId = C_SE_NB_1 ∨ asdu.typeId = C_SE_NC_1 then
    some (handleSetpointCommand table asdu now)
  else none

namespace CommandHandlerLemmas

theorem controlUpdate_ioa (typeId : UInt8) (cot : CauseOfTransmission) (select : Bool)
    (value : UInt8) (now : UInt64) (point p : YkPoint) :
    ((controlUpdate typeId cot select value now point).1 p).ioa = p.ioa := by
  unfold controlUpdate
  repeat' split
  all_goals rfl

theorem setpointUpdate_ioa (select : Bool) (value : ℚ) (now : UInt64) (point p : YtPoint) :
    ((setpointUpdate select value now point).1 p).ioa = p.ioa := by
  unfold setpointUpdate
  repeat' split
  all_goals rfl

/-- The two handlers write the same point. -/
theorem controlUpdate_eq {msg : Iec104WorkMsg} {select : Bool} {point : YkPoint} {now : UInt64}
    {writeYk : YkOutput → Bool} (hselect : msg.commandSelect = if select then 1 else 0)
    (hvalid : remoteControlOutputState point msg.commandState ≠ none)
    (hwrite : ∀ call, writeYk call = true) :
    (controlUpdate msg.typeId msg.cot select msg.commandState now point).1 =
      (remoteControlWork writeYk now msg point).update := by
  have hmatch : remoteControlTypeMatches point msg.typeId = false ↔
      (point.iecType = .single ∧ msg.typeId ≠ C_SC_NA_1) ∨
        (point.iecType = .double ∧ msg.typeId ≠ C_DC_NA_1) := by
    cases htype : point.iecType <;> simp [remoteControlTypeMatches, htype]
  unfold controlUpdate remoteControlWork
  cases htype : remoteControlTypeMatches point msg.typeId with
  | false =>
    rw [if_pos (hmatch.mp htype)]
    rfl
  | true =>
    have hright : ¬ ((point.iecType = .single ∧ msg.typeId ≠ C_SC_NA_1) ∨
        (point.iecType = .double ∧ msg.typeId ≠ C_DC_NA_1)) := by
      intro h
      cases (hmatch.mpr h).symm.trans htype
    simp only [if_neg hright, Bool.not_true, Bool.false_eq_true, if_false]
    by_cases hcancel : msg.cot = .deactivation
    · simp only [if_pos hcancel]
    simp only [if_neg hcancel, hselect]
    cases select with
    | true => rfl
    | false =>
      simp only [Bool.false_eq_true, if_false, ne_eq, not_true_eq_false]
      by_cases hstate : point.selectState = 0
      · rw [if_pos (.inl hstate), if_pos hstate]
        rfl
      by_cases htime : now > point.selectDeadlineMs
      · rw [if_pos (.inr (.inl htime)), if_neg hstate, if_pos htime]
        rfl
      by_cases hvalue : point.selectedValue = msg.commandState
      · obtain ⟨output, houtput⟩ := Option.ne_none_iff_exists'.mp hvalid
        simp only [hstate, htime, hvalue, houtput, hwrite, not_true_eq_false, or_self, if_false,
          if_true]
      · rw [if_pos (.inr (.inr hvalue)), if_neg hstate, if_neg htime, if_pos hvalue]
        rfl

end CommandHandlerLemmas

open CommandHandlerLemmas

/-- For a single or double command with a valid state, the table after it is the one that the
worker leaves for the message that `asdu_handler` makes of the same request, if the output to
the hardware succeeds. -/
theorem control_command_as_worker {n : Nat} {x : Received n} {msg : Iec104WorkMsg}
    {table : PointTable} {now : UInt64} {writeYk : YkOutput → Bool}
    (hcot : x.asdu.cot = .activation ∨ x.asdu.cot = .deactivation)
    (htype : x.asdu.typeId = C_SC_NA_1 ∨ x.asdu.typeId = C_DC_NA_1)
    (hmsg : x.controlMsg = .ok msg)
    (hvalid : ∀ point, pointTableFindYk table msg.ioa.toInt32 = some point →
      remoteControlOutputState point msg.commandState ≠ none)
    (hwrite : ∀ call, writeYk call = true) :
    (handleControlCommand table x.asdu now).1 =
      handleRemoteControlWork table ⟨msg, now, writeYk⟩ := by
  have haccepted : ¬ (x.asdu.cot ≠ .activation ∧ x.asdu.cot ≠ .deactivation) := by
    rintro ⟨h, h'⟩
    rcases hcot with hcot | hcot
    · exact h hcot
    · exact h' hcot
  unfold Received.controlMsg at hmsg
  rw [handleControlCommand, onFirstPoint, if_neg haccepted]
  cases helement : x.asdu.element 0 with
  | none =>
    rw [helement] at hmsg
    cases hmsg
  | some e =>
    rw [helement] at hmsg
    injection hmsg with hmsg
    have hvalue : controlValue x.asdu.typeId e = msg.commandState := by
      rw [← hmsg, controlValue]
      rcases htype with htype | htype <;> simp [htype, C_SC_NA_1, C_DC_NA_1]
    have hioa : e.ioa = msg.ioa := by rw [← hmsg]
    have htypeId : x.asdu.typeId = msg.typeId := by rw [← hmsg]
    have hcot : x.asdu.cot = msg.cot := by rw [← hmsg]
    have hselect : msg.commandSelect = if e.select then 1 else 0 := by rw [← hmsg]
    rw [handleRemoteControlWork]
    dsimp only
    rw [hioa]
    cases hfind : pointTableFindYk table msg.ioa.toInt32 with
    | none => rfl
    | some point =>
      dsimp only
      rw [hvalue, htypeId, hcot, controlUpdate_eq hselect (hvalid point hfind) hwrite]

end Iec104Slave
