import Iec104Slave.PointTable
import Iec104Slave.Lib.Run

/-!
# Remote control (`handle_remote_control_work`)

A YK point is operated in two messages: a select stores the command state and a
deadline in the point, an execute with the same state before the deadline
writes the output. The handler keeps four fields of the point as the whole
memory of the protocol.

Results:
1. `ykInv_exec`: in every run, a point that is selected was selected by a
   message of the past, and no message of its type came for it since.
2. `yk_write_needs_select`: an output is written only for such a select, in
   time and with its command state; two outputs of one point have a select
   between them.
3. `confirmed_iff`: the response confirms a message exactly if it is a select that
   was stored; all others get a termination.
-/

namespace Iec104Slave

/-! ## The handler -/

/-- The arguments of a call of `shm_adapter_write_yk`. -/
structure YkOutput where
  ioa : Int32
  state : Bool
  timestampMs : UInt64
deriving DecidableEq

/-- `remote_control_output_state`: `none` when the state is no valid double command. -/
def remoteControlOutputState (point : YkPoint) (commandState : UInt8) : Option Bool :=
  if point.iecType = .double then
    if commandState = doublePointOff then some false
    else if commandState = doublePointOn then some true
    else none
  else some (commandState != 0)

/-- `clear_yk_selection`. -/
def clearYkSelection (point : YkPoint) : YkPoint :=
  { point with selectState := 0, selectedValue := 0, selectDeadlineMs := 0 }

/-- `remote_control_type_matches`. -/
def remoteControlTypeMatches (point : YkPoint) (typeId : UInt8) : Bool :=
  (point.iecType == .single && typeId == C_SC_NA_1) ||
    (point.iecType == .double && typeId == C_DC_NA_1)

/-- `(uint64_t)point->select_timeout`. -/
def selectTimeoutU64 (timeout : Int32) : UInt64 :=
  timeout.toInt64.toUInt64

/-- The select branch: the preset value and the deadline. -/
def selectYk (now : UInt64) (commandState : UInt8) (point : YkPoint) : YkPoint :=
  { point with
    selectState := 1, selectedValue := commandState,
    selectDeadlineMs := now + selectTimeoutU64 point.selectTimeout }

/-- What the handler does to the point it found: the write through the pointer, the
output call it makes and the cause of its response. -/
structure YkWork where
  update : YkPoint → YkPoint
  output : Option YkOutput
  responseCot : CauseOfTransmission

/-- A rejected execute: the selection is dropped. -/
def rejectYk (output : Option YkOutput) : YkWork :=
  ⟨clearYkSelection, output, .activationTermination⟩

/-- The body of `handle_remote_control_work` on the point it found. `writeYk` is
the result of `shm_adapter_write_yk`. -/
def remoteControlWork (writeYk : YkOutput → Bool) (now : UInt64) (msg : Iec104WorkMsg)
    (point : YkPoint) : YkWork :=
  if !remoteControlTypeMatches point msg.typeId then
    -- rejected before the execute branch, so the selection stays
    ⟨id, none, .activationTermination⟩
  else if msg.cot = .deactivation then ⟨clearYkSelection, none, .activationTermination⟩
  else if msg.commandSelect ≠ 0 then ⟨selectYk now msg.commandState, none, .activationCon⟩
  else if point.selectState = 0 then rejectYk none
  else if now > point.selectDeadlineMs then rejectYk none
  else if point.selectedValue ≠ msg.commandState then rejectYk none
  else
    match remoteControlOutputState point msg.commandState with
    | none => rejectYk none
    | some outputState =>
      let call : YkOutput := ⟨msg.ioa.toInt32, outputState, now⟩
      if writeYk call then
        ⟨fun p => clearYkSelection { p with state := msg.commandState }, some call,
          .activationTermination⟩
      else rejectYk (some call)

/-- One remote-control work message with the clock value and the hardware the
handler meets. -/
structure RemoteControlInput where
  msg : Iec104WorkMsg
  now : UInt64
  writeYk : YkOutput → Bool

/-- `handle_remote_control_work`: the table after it. -/
def handleRemoteControlWork (table : PointTable) (x : RemoteControlInput) : PointTable :=
  match pointTableFindYk table x.msg.ioa.toInt32 with
  | none => table
  | some point =>
    table.modifyYk x.msg.ioa.toInt32 (remoteControlWork x.writeYk x.now x.msg point).update

/-- The call of `shm_adapter_write_yk` that `handle_remote_control_work` makes. -/
def remoteControlOutput (table : PointTable) (x : RemoteControlInput) : Option YkOutput :=
  (pointTableFindYk table x.msg.ioa.toInt32).bind fun point =>
    (remoteControlWork x.writeYk x.now x.msg point).output

/-- The cause of transmission of its response. -/
def remoteControlResponseCot (table : PointTable) (x : RemoteControlInput) :
    CauseOfTransmission :=
  match pointTableFindYk table x.msg.ioa.toInt32 with
  | none => .activationTermination
  | some point => (remoteControlWork x.writeYk x.now x.msg point).responseCot

/-! ## The messages of a run -/

/-- The message is a select: not a cancel, select flag set. -/
def RemoteControlInput.IsSelect (x : RemoteControlInput) : Prop :=
  x.msg.cot ≠ .deactivation ∧ x.msg.commandSelect ≠ 0

/-- The message is an execute: neither a cancel nor a select. -/
def RemoteControlInput.IsExecute (x : RemoteControlInput) : Prop :=
  x.msg.cot ≠ .deactivation ∧ x.msg.commandSelect = 0

/-- The message is for address `a`, with a type id that matches the point. -/
def RemoteControlInput.Concerns (table : PointTable) (a : UInt32) (x : RemoteControlInput) : Prop :=
  x.msg.ioa = a ∧
    ∃ point, pointTableFindYk table a.toInt32 = some point ∧
      remoteControlTypeMatches point x.msg.typeId = true

/-- No YK point is selected and no select timeout is negative, as after
`point_table_init_demo`. -/
structure YkIdle (table : PointTable) : Prop where
  unselected : ∀ a point, pointTableFindYk table a = some point → point.selectState = 0
  timeout_nonneg : ∀ a point, pointTableFindYk table a = some point → 0 ≤ point.selectTimeout

/-- The past of a run selects point `p` of address `a`: the last message of a
matching type for `a` is a select that left the preset value and the deadline of
`p`. -/
def SelectedBy (table : PointTable) (past : List RemoteControlInput) (a : UInt32)
    (p : YkPoint) : Prop :=
  ∃ pre sel rest, past = pre ++ sel :: rest ∧ sel.Concerns table a ∧ sel.IsSelect ∧
    sel.msg.commandState = p.selectedValue ∧
    p.selectDeadlineMs = sel.now + selectTimeoutU64 p.selectTimeout ∧
    ∀ y ∈ rest, ¬ y.Concerns table a

/-- The fields of a YK point that no message changes. -/
def YkPoint.static (p : YkPoint) : UInt32 × YkIecType × Int32 :=
  (p.ioa, p.iecType, p.selectTimeout)

/-- The four selection fields summarise the past. -/
structure YkInv (table : PointTable) (past : List RemoteControlInput) (now : PointTable) :
    Prop where
  static : ∀ a, (pointTableFindYk now a).map YkPoint.static =
    (pointTableFindYk table a).map YkPoint.static
  selected : ∀ a p, pointTableFindYk now a.toInt32 = some p → p.selectState ≠ 0 →
    SelectedBy table past a p

namespace RemoteControlLemmas

theorem ykIdle_initDemo : YkIdle pointTableInitDemo := by
  have hdemo : ∀ a point, pointTableFindYk pointTableInitDemo a = some point →
      ∃ i, initYkPoint i = point := by
    intro a point h
    obtain ⟨i, _, hi⟩ := List.mem_map.mp (Keyed.findKey_mem h)
    exact ⟨i, hi⟩
  constructor
  · intro a point h
    obtain ⟨i, rfl⟩ := hdemo a point h
    rfl
  · intro a point h
    obtain ⟨i, rfl⟩ := hdemo a point h
    show (0 : Int32) ≤ selectTimeoutMs
    decide

theorem typeMatches_congr {p q : YkPoint} (h : p.static = q.static) (typeId : UInt8) :
    remoteControlTypeMatches p typeId = remoteControlTypeMatches q typeId := by
  simp only [YkPoint.static, Prod.mk.injEq] at h
  simp only [remoteControlTypeMatches, h.2.1]

/-- Everything the handler can do to a point. -/
theorem remoteControlWork_cases (x : RemoteControlInput) (p : YkPoint) :
    (remoteControlTypeMatches p x.msg.typeId = false ∧
      (remoteControlWork x.writeYk x.now x.msg p).update = id ∧
      (remoteControlWork x.writeYk x.now x.msg p).output = none) ∨
    (remoteControlTypeMatches p x.msg.typeId = true ∧ x.IsSelect ∧
      (remoteControlWork x.writeYk x.now x.msg p).update = selectYk x.now x.msg.commandState ∧
      (remoteControlWork x.writeYk x.now x.msg p).output = none) ∨
    (remoteControlTypeMatches p x.msg.typeId = true ∧ ¬ x.IsSelect ∧
      (∀ q, ((remoteControlWork x.writeYk x.now x.msg p).update q).static = q.static ∧
        ((remoteControlWork x.writeYk x.now x.msg p).update q).selectState = 0) ∧
      ∀ call, (remoteControlWork x.writeYk x.now x.msg p).output = some call →
        x.IsExecute ∧ call.ioa = x.msg.ioa.toInt32 ∧ call.timestampMs = x.now ∧
        p.selectState ≠ 0 ∧ x.now ≤ p.selectDeadlineMs ∧
        p.selectedValue = x.msg.commandState) := by
  cases hm : remoteControlTypeMatches p x.msg.typeId with
  | false =>
    refine .inl ⟨rfl, ?_⟩
    simp [remoteControlWork, hm]
  | true =>
    refine .inr ?_
    unfold remoteControlWork RemoteControlInput.IsSelect
    rw [hm]
    simp only [Bool.not_true, Bool.false_eq_true, if_false]
    split
    · next hcot =>
      exact .inr ⟨trivial, fun h => h.1 hcot, fun q => ⟨rfl, rfl⟩, fun _ h => nomatch h⟩
    next hcot =>
    split
    · next hsel => exact .inl ⟨trivial, ⟨hcot, hsel⟩, rfl, rfl⟩
    next hsel =>
    refine .inr ⟨trivial, fun h => hsel h.2, ?_⟩
    split
    · exact ⟨fun q => ⟨rfl, rfl⟩, fun _ h => nomatch h⟩
    next hstate =>
    split
    · exact ⟨fun q => ⟨rfl, rfl⟩, fun _ h => nomatch h⟩
    next htime =>
    split
    · exact ⟨fun q => ⟨rfl, rfl⟩, fun _ h => nomatch h⟩
    next hval =>
    have hlive : p.selectState ≠ 0 ∧ x.now ≤ p.selectDeadlineMs ∧
        p.selectedValue = x.msg.commandState :=
      ⟨hstate, UInt64.not_lt.mp htime, not_not.mp hval⟩
    split
    · exact ⟨fun q => ⟨rfl, rfl⟩, fun _ h => nomatch h⟩
    · split
      all_goals
        refine ⟨fun q => ⟨rfl, rfl⟩, fun call h => ?_⟩
        cases h
        exact ⟨⟨hcot, not_not.mp hsel⟩, rfl, rfl, hlive⟩

theorem responseCot_work (x : RemoteControlInput) (p : YkPoint) :
    (remoteControlWork x.writeYk x.now x.msg p).responseCot = .activationCon ↔
      remoteControlTypeMatches p x.msg.typeId = true ∧ x.IsSelect := by
  unfold remoteControlWork RemoteControlInput.IsSelect
  split
  · next hm => simpa using fun h => absurd h (by simpa using hm)
  next hm =>
  split
  · next hcot => simp [hcot]
  next hcot =>
  split
  · next hsel => simpa [hcot, hsel] using hm
  next hsel =>
  -- an execute ends with a termination, whether it is rejected or not
  refine iff_of_false ?_ fun h => hsel h.2.2
  dsimp only
  repeat' split
  all_goals simp [rejectYk]

/-- Only a select of a point of its type is confirmed. -/
theorem confirmed_iff (table : PointTable) (x : RemoteControlInput) :
    remoteControlResponseCot table x = .activationCon ↔
      x.Concerns table x.msg.ioa ∧ x.IsSelect := by
  unfold remoteControlResponseCot RemoteControlInput.Concerns
  cases hp : pointTableFindYk table x.msg.ioa.toInt32 with
  | none => simp
  | some p => simpa using responseCot_work x p

/-- Every update of the handler keeps the static fields. -/
theorem update_static (x : RemoteControlInput) (p q : YkPoint) :
    ((remoteControlWork x.writeYk x.now x.msg p).update q).static = q.static := by
  obtain ⟨_, hu, _⟩ | ⟨_, _, hu, _⟩ | ⟨_, _, hu, _⟩ := remoteControlWork_cases x p
  · rw [hu]; rfl
  · rw [hu]; rfl
  · exact (hu q).1

/-- One message seen from any address: only the point of its own address changes. -/
theorem find_handle (table : PointTable) (x : RemoteControlInput) (a : Int32) :
    pointTableFindYk (handleRemoteControlWork table x) a =
      if a = x.msg.ioa.toInt32 then
        (pointTableFindYk table a).map fun p =>
          (remoteControlWork x.writeYk x.now x.msg p).update p
      else pointTableFindYk table a := by
  unfold handleRemoteControlWork
  cases hp : pointTableFindYk table x.msg.ioa.toInt32 with
  | none =>
    show pointTableFindYk table a = _
    split
    · next ha => rw [ha, hp]; rfl
    · rfl
  | some p =>
    have hioa : ∀ q, ((remoteControlWork x.writeYk x.now x.msg p).update q).ioa = q.ioa :=
      fun q => congrArg Prod.fst (update_static x p q)
    show pointTableFindYk (table.modifyYk x.msg.ioa.toInt32
      (remoteControlWork x.writeYk x.now x.msg p).update) a = _
    rw [findYk_modifyYk _ hioa]
    split
    · next ha => rw [ha, hp]; rfl
    · rfl

theorem static_step {table now : PointTable} {past : List RemoteControlInput}
    (h : YkInv table past now) (x : RemoteControlInput) (a : Int32) :
    (pointTableFindYk (handleRemoteControlWork now x) a).map YkPoint.static =
      (pointTableFindYk table a).map YkPoint.static := by
  rw [← h.static a, find_handle]
  split
  · rw [Option.map_map]
    congr 1
    funext p
    exact update_static x p p
  · rfl

/-- The point of the table and the point of the initial table match the same
type ids. -/
theorem concerns_of_find {table now : PointTable} {past : List RemoteControlInput}
    (h : YkInv table past now) {a : UInt32} {p : YkPoint} {x : RemoteControlInput}
    (hp : pointTableFindYk now a.toInt32 = some p) (hx : x.msg.ioa = a) :
    x.Concerns table a ↔ remoteControlTypeMatches p x.msg.typeId = true := by
  have hs := h.static a.toInt32
  rw [hp, Option.map_some] at hs
  obtain ⟨q, hq, hqp⟩ := Option.map_eq_some_iff.mp hs.symm
  constructor
  · rintro ⟨_, q', hq', hm⟩
    rw [hq] at hq'
    cases hq'
    rw [← typeMatches_congr hqp, hm]
  · intro hm
    exact ⟨hx, q, hq, by rw [typeMatches_congr hqp, hm]⟩

theorem selectedBy_snoc {table : PointTable} {past : List RemoteControlInput} {a : UInt32}
    {p : YkPoint} {x : RemoteControlInput} (h : SelectedBy table past a p)
    (hx : ¬ x.Concerns table a) : SelectedBy table (past ++ [x]) a p := by
  obtain ⟨pre, sel, rest, rfl, hc, hs, hv, hd, hrest⟩ := h
  refine ⟨pre, sel, rest ++ [x], by simp, hc, hs, hv, hd, ?_⟩
  intro y hy
  rcases List.mem_append.mp hy with hy | hy
  · exact hrest y hy
  · rw [List.mem_singleton] at hy
    exact hy ▸ hx

theorem selected_step {table now : PointTable} {past : List RemoteControlInput}
    (h : YkInv table past now) (x : RemoteControlInput) (a : UInt32) (p' : YkPoint)
    (hp' : pointTableFindYk (handleRemoteControlWork now x) a.toInt32 = some p')
    (hsel : p'.selectState ≠ 0) : SelectedBy table (past ++ [x]) a p' := by
  rw [find_handle] at hp'
  split at hp'
  · next ha =>
    have ha' : x.msg.ioa = a := by simpa using congrArg Int32.toUInt32 ha.symm
    obtain ⟨p, hp, rfl⟩ := Option.map_eq_some_iff.mp hp'
    have hcon := concerns_of_find h hp ha'
    obtain ⟨hm, hu, _⟩ | ⟨hm, hs, hu, _⟩ | ⟨_, _, hu, _⟩ := remoteControlWork_cases x p
    · rw [hu] at hsel ⊢
      refine selectedBy_snoc (h.selected a p hp hsel) ?_
      rw [hcon, hm]
      exact Bool.false_ne_true
    · rw [hu]
      exact ⟨past, x, [], rfl, hcon.mpr hm, hs, rfl, rfl, fun y hy => nomatch hy⟩
    · exact absurd (hu p).2 hsel
  · next ha =>
    refine selectedBy_snoc (h.selected a p' hp' hsel) ?_
    rintro ⟨rfl, _⟩
    exact ha rfl

theorem ykInv_exec {table : PointTable} (h0 : YkIdle table) (past : List RemoteControlInput) :
    YkInv table past (Run.exec handleRemoteControlWork table past) := by
  refine Run.exec_induction (I := YkInv table) ?_ ?_ past
  · exact ⟨fun a => rfl, fun a p hp hsel => absurd (h0.unselected _ p hp) hsel⟩
  · intro past now x h
    exact ⟨static_step h x, selected_step h x⟩

theorem toNat_selectTimeoutU64 {timeout : Int32} (h : 0 ≤ timeout) :
    ((selectTimeoutU64 timeout).toNat : Int) = timeout.toInt := by
  have h0 : 0 ≤ timeout.toInt := Int32.le_iff_toInt_le.mp h
  have h64 : (0 : Int64) ≤ timeout.toInt64 := by
    rw [Int64.le_iff_toInt_le, Int32.toInt_toInt64]
    exact h0
  rw [selectTimeoutU64, Int64.toNat_toUInt64_of_le h64, Int64.toNatClampNeg, Int32.toInt_toInt64]
  exact Int.toNat_of_nonneg h0

/-- A deadline is never later than the select time plus the timeout: the 64-bit sum
can only wrap downwards. -/
theorem deadline_le (now : UInt64) {timeout : Int32} (h : 0 ≤ timeout) :
    ((now + selectTimeoutU64 timeout).toNat : Int) ≤ now.toNat + timeout.toInt := by
  have ht := toNat_selectTimeoutU64 h
  have hle := Nat.mod_le (now.toNat + (selectTimeoutU64 timeout).toNat) (2 ^ 64)
  rw [UInt64.toNat_add]
  omega

/-- An output call is an execute on a live selection of its command state. -/
theorem output_live {table : PointTable} {x : RemoteControlInput} {call : YkOutput}
    (h : remoteControlOutput table x = some call) :
    ∃ p, pointTableFindYk table x.msg.ioa.toInt32 = some p ∧
      remoteControlTypeMatches p x.msg.typeId = true ∧ x.IsExecute ∧
      call.ioa = x.msg.ioa.toInt32 ∧ call.timestampMs = x.now ∧ p.selectState ≠ 0 ∧
      x.now ≤ p.selectDeadlineMs ∧ p.selectedValue = x.msg.commandState := by
  obtain ⟨p, hp, hout⟩ := Option.bind_eq_some_iff.mp h
  refine ⟨p, hp, ?_⟩
  obtain ⟨_, _, ho⟩ | ⟨_, _, _, ho⟩ | ⟨hm, _, _, ho⟩ := remoteControlWork_cases x p
  · rw [ho] at hout; cases hout
  · rw [ho] at hout; cases hout
  · exact ⟨hm, ho call hout⟩

end RemoteControlLemmas

open RemoteControlLemmas

/-! ## Select before operate -/

/-- The message `x`, taken after `past`, is authorised by a select of the past:
the last message of a matching type for the address, with the command state of `x`
and not older than the point's select timeout. -/
def AuthorisedBySelect (table : PointTable) (past : List RemoteControlInput)
    (x : RemoteControlInput) : Prop :=
  ∃ point pre sel mid, pointTableFindYk table x.msg.ioa.toInt32 = some point ∧
    past = pre ++ sel :: mid ∧ sel.Concerns table x.msg.ioa ∧ sel.IsSelect ∧
    sel.msg.commandState = x.msg.commandState ∧
    (x.now.toNat : Int) ≤ sel.now.toNat + point.selectTimeout.toInt ∧
    ∀ y ∈ mid, ¬ y.Concerns table x.msg.ioa

namespace RemoteControlLemmas

theorem output_authorised {table : PointTable} (h0 : YkIdle table)
    {past : List RemoteControlInput} {x : RemoteControlInput} {call : YkOutput}
    (h : remoteControlOutput (Run.exec handleRemoteControlWork table past) x = some call) :
    x.Concerns table x.msg.ioa ∧ AuthorisedBySelect table past x := by
  have inv := ykInv_exec h0 past
  obtain ⟨p, hp, hm, _, _, _, hstate, htime, hval⟩ := output_live h
  have hcon := (concerns_of_find inv hp rfl).mpr hm
  refine ⟨hcon, ?_⟩
  obtain ⟨_, point, hpoint, _⟩ := hcon
  obtain ⟨pre, sel, mid, hpast, hsc, hss, hsv, hdead, hmid⟩ := inv.selected _ p hp hstate
  -- the deadline was computed with the timeout that the point had from the start
  have htimeout : p.selectTimeout = point.selectTimeout := by
    have hs := inv.static x.msg.ioa.toInt32
    rw [hp, hpoint] at hs
    exact congrArg (fun s => s.2.2) (Option.some.inj hs)
  refine ⟨point, pre, sel, mid, hpoint, hpast, hsc, hss, hsv.trans hval, ?_, hmid⟩
  have hle := deadline_le sel.now (h0.timeout_nonneg _ point hpoint)
  rw [hdead, htimeout, UInt64.le_iff_toNat_le] at htime
  omega

end RemoteControlLemmas

/-- Remote control is strictly select-before-operate, in every run from a table with no
selected point: an output call is caused by an execute message, for its address and
at its time, that a select of the past authorises; and between two output calls
for one address there is a select for that address. -/
theorem yk_write_needs_select {table : PointTable} (h0 : YkIdle table) :
    (∀ past x call,
      remoteControlOutput (Run.exec handleRemoteControlWork table past) x = some call →
      x.IsExecute ∧ call.ioa = x.msg.ioa.toInt32 ∧ call.timestampMs = x.now ∧
      AuthorisedBySelect table past x) ∧
    ∀ past x mid y call call',
      remoteControlOutput (Run.exec handleRemoteControlWork table past) x = some call →
      remoteControlOutput (Run.exec handleRemoteControlWork table (past ++ x :: mid)) y =
        some call' →
      call.ioa = call'.ioa →
      ∃ sel ∈ mid, sel.Concerns table y.msg.ioa ∧ sel.IsSelect := by
  constructor
  · intro past x call h
    obtain ⟨_, _, _, hexe, hioa, htime, _⟩ := output_live h
    exact ⟨hexe, hioa, htime, (output_authorised h0 h).2⟩
  · intro past x mid y call call' hx hy hcall
    obtain ⟨_, _, _, hexe, hioa, _⟩ := output_live hx
    obtain ⟨_, _, _, _, hioa', _⟩ := output_live hy
    have haddr : x.msg.ioa = y.msg.ioa := by
      have := congrArg Int32.toUInt32 (hioa.symm.trans (hcall.trans hioa'))
      simpa using this
    have hxcon : x.Concerns table y.msg.ioa := haddr ▸ (output_authorised h0 hx).1
    obtain ⟨_, pre, sel, later, _, hpast, hsc, hss, _, _, hlater⟩ := (output_authorised h0 hy).2
    -- the authorising select cannot lie in `past ++ [x]`: then `x` would come after it
    rw [List.append_eq_append_iff] at hpast
    rcases hpast with ⟨front, rfl, hfront⟩ | ⟨back, rfl, hback⟩
    · cases front with
      | nil =>
        simp only [List.nil_append, List.cons.injEq] at hfront
        obtain ⟨rfl, _⟩ := hfront
        exact absurd hexe.2 hss.2
      | cons z front =>
        simp only [List.cons_append, List.cons.injEq] at hfront
        obtain ⟨_, rfl⟩ := hfront
        exact ⟨sel, by simp, hsc, hss⟩
    · cases back with
      | nil =>
        simp only [List.nil_append, List.cons.injEq] at hback
        obtain ⟨rfl, _⟩ := hback
        exact absurd hexe.2 hss.2
      | cons z back =>
        simp only [List.cons_append, List.cons.injEq] at hback
        obtain ⟨_, rfl⟩ := hback
        exact absurd hxcon (hlater x (by simp))

/-- A single command for the first YK point of the demo table. -/
def demoYkInput (select : UInt8) (now : UInt64) : RemoteControlInput :=
  { msg := { type := .remoteControl, ioa := 0x6001, typeId := C_SC_NA_1, cot := .activation,
             commandSelect := select, commandState := 1 }
    now := now, writeYk := fun _ => true }

/-- On the demo table, a select at 100 ms and an execute at 60100 ms write the output,
and the select authorises it. -/
theorem yk_write_needs_select_demo :
    remoteControlOutput
        (Run.exec handleRemoteControlWork pointTableInitDemo [demoYkInput 1 100])
        (demoYkInput 0 60100) = some ⟨0x6001, true, 60100⟩ ∧
      AuthorisedBySelect pointTableInitDemo [demoYkInput 1 100] (demoYkInput 0 60100) := by
  have hout : remoteControlOutput
      (Run.exec handleRemoteControlWork pointTableInitDemo [demoYkInput 1 100])
      (demoYkInput 0 60100) = some ⟨0x6001, true, 60100⟩ := by decide +kernel
  exact ⟨hout, ((yk_write_needs_select ykIdle_initDemo).1 _ _ _ hout).2.2.2⟩

end Iec104Slave
