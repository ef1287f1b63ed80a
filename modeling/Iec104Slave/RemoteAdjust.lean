import Iec104Slave.PointTable
import Iec104Slave.Lib.Run

/-!
# Remote adjustment (`handle_remote_adjust_work`)

A setpoint frame names up to 40 YT points. The handler checks the whole frame in one
loop and applies it in a second loop: cancel, select or execute every element.
An execute needs a live selection of the same value, as for a YK point.

The check and the use of a selection are apart. The second loop clears the
selection of each element it executes, but the check of a later element with the
same address was made before that. So an accepted execute frame that names an address
twice writes the output twice on one selection (`demo_frame_writes_twice`).

Results:
1. `execute_calls_live`: an accepted execute frame with distinct addresses writes
   only live selections.
2. `calls_le_selections`: without aliases, the writes of a point are paid for by
   its selection.
3. `yt_authorised_iff`: every output of a run is authorised by its own selection,
   exactly when no accepted execute frame of the run names an address twice.
-/

namespace Iec104Slave

/-! ## The handler -/

/-- The arguments of a call of `shm_adapter_write_yt`. -/
structure YtOutput where
  ioa : Int32
  value : ℚ
  timestampMs : UInt64
deriving DecidableEq

/-- `clear_yt_selection`. -/
def clearYtSelection (point : YtPoint) : YtPoint :=
  { point with selectState := 0, selectedValue := 0, selectDeadlineMs := 0 }

/-- `remote_adjust_type_matches`. -/
def remoteAdjustTypeMatches (point : YtPoint) (typeId : UInt8) : Bool :=
  (point.iecType == .normalized && typeId == C_SE_NA_1) ||
    (point.iecType == .scaled && typeId == C_SE_NB_1) ||
    (point.iecType == .float && typeId == C_SE_NC_1)

/-- One setpoint work message with the clock value and the hardware results it meets:
`writeYt i` is the result of `shm_adapter_write_yt` for element `i`. -/
structure RemoteAdjustInput where
  msg : Iec104WorkMsg
  now : UInt64
  writeYt : Nat → Bool

/-- The elements of the frame as `(ioa, value)`. A message without setpoints has one
element, in the fields `ioa` and `setpoint_value`. -/
def RemoteAdjustInput.items (x : RemoteAdjustInput) : List (UInt32 × ℚ) :=
  if x.msg.setpoints.length > 0 then x.msg.setpoints.map fun item => (item.ioa, item.value)
  else [(x.msg.ioa, x.msg.setpointValue)]

/-- `value < point->min_value || value > point->max_value`. -/
def outOfRange (point : YtPoint) (value : ℚ) : Bool :=
  decide (value < point.minValue) || decide (value > point.maxValue)

/-- The pre-check of one element: the branches that set `rejected`. -/
def setpointRejected (table : PointTable) (x : RemoteAdjustInput) (item : UInt32 × ℚ) : Bool :=
  match pointTableFindYt table item.1.toInt32 with
  | none => true
  | some point =>
    if !remoteAdjustTypeMatches point x.msg.typeId then true
    -- a cancel needs no selection
    else if x.msg.cot = .deactivation then false
    else if x.msg.commandSelect ≠ 0 then outOfRange point item.2
    else if point.selectState = 0 then true
    else if x.now > point.selectDeadlineMs then true
    else if point.selectedValue ≠ item.2 then true
    else outOfRange point item.2

/-- The first loop: the frame is rejected when any element is. -/
def remoteAdjustRejected (table : PointTable) (x : RemoteAdjustInput) : Bool :=
  x.items.any (setpointRejected table x)

/-- A call of `shm_adapter_write_yt`, with the table at the time of the call. -/
structure YtCall where
  table : PointTable
  output : YtOutput

/-- The select branch. -/
def selectYt (now : UInt64) (value : ℚ) (point : YtPoint) : YtPoint :=
  { point with
    selectState := 1, selectedValue := value,
    selectDeadlineMs := now + point.selectTimeout.toInt64.toUInt64 }

/-- What the second loop does with element `i`: the write through the pointer and
the output call. -/
def applySetpoint (x : RemoteAdjustInput) (i : Nat) (item : UInt32 × ℚ) :
    (YtPoint → YtPoint) × Option YtOutput :=
  if x.msg.cot = .deactivation then (clearYtSelection, none)
  else if x.msg.commandSelect ≠ 0 then (selectYt x.now item.2, none)
  else
    let call : YtOutput := ⟨item.1.toInt32, item.2, x.now⟩
    if !x.writeYt i then (clearYtSelection, some call)
    else (fun point => clearYtSelection { point with value := item.2 }, some call)

/-- The second loop, from element `i` on: the table after it and its output calls. -/
def applySetpoints (x : RemoteAdjustInput) :
    Nat → List (UInt32 × ℚ) → PointTable → PointTable × List YtCall
  | _, [], table => (table, [])
  | i, item :: items, table =>
    let work := applySetpoint x i item
    let rest := applySetpoints x (i + 1) items (table.modifyYt item.1.toInt32 work.1)
    (rest.1, work.2.toList.map (YtCall.mk table) ++ rest.2)

/-- The loop over a rejected frame: every point it names loses its selection. -/
def clearSetpoints (items : List (UInt32 × ℚ)) (table : PointTable) : PointTable :=
  items.foldl (fun t item => t.modifyYt item.1.toInt32 clearYtSelection) table

/-- `handle_remote_adjust_work`: the table after it. -/
def handleRemoteAdjustWork (table : PointTable) (x : RemoteAdjustInput) : PointTable :=
  if remoteAdjustRejected table x then clearSetpoints x.items table
  else (applySetpoints x 0 x.items table).1

/-- The calls of `shm_adapter_write_yt` that `handle_remote_adjust_work` makes. -/
def remoteAdjustCalls (table : PointTable) (x : RemoteAdjustInput) : List YtCall :=
  if remoteAdjustRejected table x then [] else (applySetpoints x 0 x.items table).2

/-- The cause of transmission of its response. The second loop sets `rejected` again
when an output fails. -/
def remoteAdjustResponseCot (table : PointTable) (x : RemoteAdjustInput) : CauseOfTransmission :=
  let failed := (List.range x.items.length).any fun i => !x.writeYt i
  let executes := x.msg.cot ≠ .deactivation ∧ x.msg.commandSelect = 0
  if remoteAdjustRejected table x ∨ (executes ∧ failed) then .activationTermination
  else if x.msg.commandSelect ≠ 0 ∧ x.msg.cot = .activation then .activationCon
  else .activationTermination

/-! ## What the outputs of a run have to satisfy -/

/-- The point `p` holds a selection of exactly `value` that is live at `now`. -/
structure YtPoint.Live (p : YtPoint) (value : ℚ) (now : UInt64) : Prop where
  selected : p.selectState ≠ 0
  in_time : now ≤ p.selectDeadlineMs
  preset : p.selectedValue = value
  min_le : p.minValue ≤ value
  le_max : value ≤ p.maxValue

/-- The call is made while its point holds a live selection of its value. -/
def YtCall.Live (call : YtCall) : Prop :=
  ∃ p, pointTableFindYt call.table call.output.ioa = some p ∧
    p.Live call.output.value call.output.timestampMs

/-- The frame is an execute: neither a cancel nor a select. -/
def RemoteAdjustInput.IsExecute (x : RemoteAdjustInput) : Prop :=
  x.msg.cot ≠ .deactivation ∧ x.msg.commandSelect = 0

/-- The frame is a select that is accepted and names address `a`. -/
def AcceptedSelect (a : UInt32) (table : PointTable) (x : RemoteAdjustInput) : Prop :=
  x.msg.cot ≠ .deactivation ∧ x.msg.commandSelect ≠ 0 ∧ remoteAdjustRejected table x = false ∧
    a ∈ x.items.map Prod.fst

/-- The number of output calls for address `a`. -/
def callsFor (a : UInt32) (calls : List YtCall) : Nat :=
  calls.countP fun call => call.output.ioa == a.toInt32

/-- Every output of the run is made on a live selection, and in every stretch of the
run with no accepted select for `a` there is at most one output for `a`. -/
def YtAuthorised (table : PointTable) (inputs : List RemoteAdjustInput) : Prop :=
  (∀ call ∈ Run.outputs handleRemoteAdjustWork remoteAdjustCalls table inputs, call.Live) ∧
    ∀ past window rest a, inputs = past ++ window ++ rest →
      Run.Guarded (fun t x => ¬ AcceptedSelect a t x) handleRemoteAdjustWork
        (Run.exec handleRemoteAdjustWork table past) window →
      callsFor a (Run.outputs handleRemoteAdjustWork remoteAdjustCalls
        (Run.exec handleRemoteAdjustWork table past) window) ≤ 1

/-- The frame is not an accepted execute that names an address twice. -/
def AliasFree (table : PointTable) (x : RemoteAdjustInput) : Prop :=
  x.IsExecute → remoteAdjustRejected table x = false → (x.items.map Prod.fst).Nodup

namespace RemoteAdjustLemmas

variable {table : PointTable} {x : RemoteAdjustInput} {a : UInt32} {i : Nat}
  {items : List (UInt32 × ℚ)}

theorem applySetpoint_ioa (item : UInt32 × ℚ) (p : YtPoint) :
    ((applySetpoint x i item).1 p).ioa = p.ioa := by
  unfold applySetpoint
  split
  · rfl
  · split
    · rfl
    · dsimp only
      split <;> rfl

theorem applySetpoint_execute (h : x.IsExecute) (item : UInt32 × ℚ) :
    (∀ p, ((applySetpoint x i item).1 p).selectState = 0) ∧
      (applySetpoint x i item).2 = some ⟨item.1.toInt32, item.2, x.now⟩ := by
  unfold applySetpoint
  rw [if_neg h.1, if_neg (not_not.mpr h.2)]
  dsimp only
  split
  · exact ⟨fun _ => rfl, rfl⟩
  · exact ⟨fun _ => rfl, rfl⟩

/-- An element of a frame that is no execute makes no output call. -/
theorem applySetpoint_output_none (h : ¬ x.IsExecute) (item : UInt32 × ℚ) :
    (applySetpoint x i item).2 = none := by
  unfold applySetpoint
  split
  · rfl
  next hcot =>
  split
  · rfl
  · next hsel => exact absurd ⟨hcot, not_not.mp hsel⟩ h

/-- An element of a cancel or an execute clears the selection of its point. -/
theorem applySetpoint_clears (h : ¬ (x.msg.cot ≠ .deactivation ∧ x.msg.commandSelect ≠ 0))
    (item : UInt32 × ℚ) (p : YtPoint) : ((applySetpoint x i item).1 p).selectState = 0 := by
  unfold applySetpoint
  split
  · rfl
  next hcot =>
  split
  · next hsel => exact absurd ⟨hcot, hsel⟩ h
  · dsimp only
    split <;> rfl

/-! ## The second loop -/

theorem find_modify_apply (item : UInt32 × ℚ) :
    pointTableFindYt (table.modifyYt item.1.toInt32 (applySetpoint x i item).1) a.toInt32 =
      if a = item.1 then (pointTableFindYt table a.toInt32).map (applySetpoint x i item).1
      else pointTableFindYt table a.toInt32 := by
  rw [findYt_modifyYt _ (applySetpoint_ioa item)]
  simp only [toInt32_eq_iff]

theorem applySetpoints_cons (item : UInt32 × ℚ) :
    applySetpoints x i (item :: items) table =
      ((applySetpoints x (i + 1) items
          (table.modifyYt item.1.toInt32 (applySetpoint x i item).1)).1,
        (applySetpoint x i item).2.toList.map (YtCall.mk table) ++
          (applySetpoints x (i + 1) items
            (table.modifyYt item.1.toInt32 (applySetpoint x i item).1)).2) := rfl

/-- A point the frame does not name is not touched. -/
theorem find_applySetpoints_of_notMem (h : a ∉ items.map Prod.fst) :
    pointTableFindYt (applySetpoints x i items table).1 a.toInt32 =
      pointTableFindYt table a.toInt32 := by
  induction items generalizing i table with
  | nil => rfl
  | cons item items ih =>
    rw [List.map_cons, List.mem_cons, not_or] at h
    rw [applySetpoints_cons, ih h.2, find_modify_apply, if_neg h.1]

theorem callsFor_nil : callsFor a [] = 0 := rfl

theorem callsFor_append (cs ds : List YtCall) :
    callsFor a (cs ++ ds) = callsFor a cs + callsFor a ds :=
  List.countP_append

/-- An execute frame makes one call for each element. -/
theorem callsFor_execute (h : x.IsExecute) :
    callsFor a (applySetpoints x i items table).2 = (items.map Prod.fst).count a := by
  induction items generalizing i table with
  | nil => rfl
  | cons item items ih =>
    have hout := (applySetpoint_execute (i := i) h item).2
    rw [applySetpoints_cons, callsFor_append, ih, hout, List.map_cons, List.count_cons,
      Nat.add_comm]
    congr 1
    simp only [callsFor, Option.toList_some, List.map_cons, List.map_nil, List.countP_singleton,
      beq_iff_eq, toInt32_eq_iff]

theorem calls_nil_of_not_execute (h : ¬ x.IsExecute) : (applySetpoints x i items table).2 = [] := by
  induction items generalizing i table with
  | nil => rfl
  | cons item items ih =>
    rw [applySetpoints_cons, ih, applySetpoint_output_none h]
    rfl

/-- The live selection of an element of a frame, as the pre-check sees it. -/
def ItemLive (table : PointTable) (now : UInt64) (item : UInt32 × ℚ) : Prop :=
  ∃ p, pointTableFindYt table item.1.toInt32 = some p ∧ p.Live item.2 now

/-- The pre-check of an execute frame accepts only live selections. -/
theorem itemLive_of_accepted (h : x.IsExecute) {item : UInt32 × ℚ}
    (hr : setpointRejected table x item = false) : ItemLive table x.now item := by
  unfold setpointRejected at hr
  split at hr
  · cases hr
  · next p hp =>
    split at hr
    · cases hr
    rw [if_neg h.1, if_neg (not_not.mpr h.2)] at hr
    split at hr
    · cases hr
    next hstate =>
    split at hr
    · cases hr
    next htime =>
    split at hr
    · cases hr
    next hval =>
    simp only [outOfRange, Bool.or_eq_false_iff, decide_eq_false_iff_not, not_lt, gt_iff_lt] at hr
    exact ⟨p, hp, hstate, UInt64.not_lt.mp htime, not_not.mp hval, hr.1, hr.2⟩

/-- An execute loop over distinct addresses with live selections writes only live
selections: the elements before an address do not touch its point. -/
theorem execute_calls_live (h : x.IsExecute) (hnodup : (items.map Prod.fst).Nodup)
    (hlive : ∀ item ∈ items, ItemLive table x.now item) :
    ∀ call ∈ (applySetpoints x i items table).2, call.Live := by
  induction items generalizing i table with
  | nil => exact fun call hc => nomatch hc
  | cons item items ih =>
    rw [List.map_cons, List.nodup_cons] at hnodup
    have hout := (applySetpoint_execute (i := i) h item).2
    intro call hc
    rw [applySetpoints_cons, hout, List.mem_append] at hc
    rcases hc with hc | hc
    · simp only [Option.toList_some, List.map_cons, List.map_nil, List.mem_singleton] at hc
      subst hc
      exact hlive item List.mem_cons_self
    · refine ih hnodup.2 (fun other hother => ?_) call hc
      obtain ⟨p, hp, hp'⟩ := hlive other (List.mem_cons_of_mem _ hother)
      refine ⟨p, ?_, hp'⟩
      have hne : other.1 ≠ item.1 := fun he => hnodup.1 (he ▸ List.mem_map_of_mem hother)
      rw [find_modify_apply, if_neg hne, hp]

/-- A point whose selection is gone. -/
def Unselected (table : PointTable) (a : UInt32) : Prop :=
  ∀ p, pointTableFindYt table a.toInt32 = some p → p.selectState = 0

theorem unselected_modify (item : UInt32 × ℚ) (h : a = item.1 ∨ Unselected table a)
    (hclear : ∀ p, ((applySetpoint x i item).1 p).selectState = 0) :
    Unselected (table.modifyYt item.1.toInt32 (applySetpoint x i item).1) a := by
  intro p hp
  rw [find_modify_apply] at hp
  split at hp
  · obtain ⟨q, _, rfl⟩ := Option.map_eq_some_iff.mp hp
    exact hclear q
  · next hne =>
    rcases h with h | h
    · exact absurd h hne
    · exact h p hp

/-- An execute loop that meets an unselected address makes a call that is not live. -/
theorem execute_unselected_call (h : x.IsExecute) (ha : a ∈ items.map Prod.fst)
    (hu : Unselected table a) : ∃ call ∈ (applySetpoints x i items table).2, ¬ call.Live := by
  induction items generalizing i table with
  | nil => cases ha
  | cons item items ih =>
    obtain ⟨hclear, hout⟩ := applySetpoint_execute (i := i) h item
    rw [applySetpoints_cons, hout]
    rw [List.map_cons, List.mem_cons] at ha
    rcases ha with rfl | ha
    · refine ⟨⟨table, _⟩, List.mem_append_left _ (List.mem_singleton.mpr rfl), ?_⟩
      rintro ⟨p, hp, hlive⟩
      exact hlive.selected (hu p hp)
    · obtain ⟨call, hc, hn⟩ := ih (i := i + 1) ha (unselected_modify item (.inr hu) hclear)
      exact ⟨call, List.mem_append_right _ hc, hn⟩

/-- An execute loop over a repeated address makes a call that is not live. -/
theorem execute_alias_call (h : x.IsExecute) (hdup : ¬ (items.map Prod.fst).Nodup) :
    ∃ call ∈ (applySetpoints x i items table).2, ¬ call.Live := by
  induction items generalizing i table with
  | nil => exact absurd List.nodup_nil hdup
  | cons item items ih =>
    rw [List.map_cons, List.nodup_cons, Classical.not_and_iff_not_or_not, not_not] at hdup
    have hrest : ∃ call ∈ (applySetpoints x (i + 1) items
        (table.modifyYt item.1.toInt32 (applySetpoint x i item).1)).2, ¬ call.Live := by
      rcases hdup with hmem | hdup
      · exact execute_unselected_call h hmem
          (unselected_modify item (.inl rfl) (applySetpoint_execute h item).1)
      · exact ih hdup
    obtain ⟨call, hc, hn⟩ := hrest
    exact ⟨call, List.mem_append_right _ hc, hn⟩

/-! ## The selection of a point pays for its output -/

/-- 1 while address `a` holds a selection. -/
def ytSelected (a : UInt32) (table : PointTable) : Nat :=
  match pointTableFindYt table a.toInt32 with
  | none => 0
  | some p => if p.selectState = 0 then 0 else 1

theorem ytSelected_le_one : ytSelected a table ≤ 1 := by
  unfold ytSelected
  split
  · omega
  · split <;> omega

theorem ytSelected_of_unselected (h : Unselected table a) : ytSelected a table = 0 := by
  unfold ytSelected
  split
  · rfl
  · next p hp => rw [if_pos (h p hp)]

theorem ytSelected_congr {t t' : PointTable}
    (h : pointTableFindYt t a.toInt32 = pointTableFindYt t' a.toInt32) :
    ytSelected a t = ytSelected a t' := by
  unfold ytSelected
  rw [h]

theorem ytSelected_of_live {item : UInt32 × ℚ} {now : UInt64} (h : ItemLive table now item) :
    ytSelected item.1 table = 1 := by
  obtain ⟨p, hp, hlive⟩ := h
  unfold ytSelected
  rw [hp]
  exact if_neg hlive.selected

/-- A cancel or an execute loop leaves every point it names unselected. -/
theorem unselected_applySetpoints
    (h : ¬ (x.msg.cot ≠ .deactivation ∧ x.msg.commandSelect ≠ 0))
    (ha : a ∈ items.map Prod.fst ∨ Unselected table a) :
    Unselected (applySetpoints x i items table).1 a := by
  induction items generalizing i table with
  | nil =>
    rcases ha with ha | ha
    · cases ha
    · exact ha
  | cons item items ih =>
    rw [applySetpoints_cons]
    apply ih
    rw [List.map_cons, List.mem_cons] at ha
    rcases ha with (ha | ha) | ha
    · exact .inr (unselected_modify item (.inl ha) (applySetpoint_clears h item))
    · exact .inl ha
    · exact .inr (unselected_modify item (.inr ha) (applySetpoint_clears h item))

theorem ytSelected_clearSetpoints :
    ytSelected a (clearSetpoints items table) ≤ ytSelected a table := by
  induction items generalizing table with
  | nil => exact Nat.le_refl _
  | cons item items ih =>
    refine Nat.le_trans ih ?_
    have hfind : pointTableFindYt (table.modifyYt item.1.toInt32 clearYtSelection) a.toInt32 = _ :=
      findYt_modifyYt clearYtSelection (fun _ => rfl) a.toInt32
    split at hfind
    · have hu : Unselected (table.modifyYt item.1.toInt32 clearYtSelection) a := by
        intro p hp
        rw [hfind] at hp
        obtain ⟨q, _, rfl⟩ := Option.map_eq_some_iff.mp hp
        rfl
      rw [ytSelected_of_unselected hu]
      exact Nat.zero_le _
    · rw [ytSelected_congr hfind]

/-- Without aliases, every output call for an address uses up its selection, and only
an accepted select for the address gives it a new one. -/
theorem calls_le_selections (hfree : AliasFree table x) (hsel : ¬ AcceptedSelect a table x) :
    callsFor a (remoteAdjustCalls table x) + ytSelected a (handleRemoteAdjustWork table x) ≤
      ytSelected a table := by
  unfold remoteAdjustCalls handleRemoteAdjustWork
  cases hr : remoteAdjustRejected table x with
  | true =>
    rw [if_pos rfl, if_pos rfl, callsFor_nil, Nat.zero_add]
    exact ytSelected_clearSetpoints
  | false =>
    rw [if_neg Bool.false_ne_true, if_neg Bool.false_ne_true]
    by_cases ha : a ∈ x.items.map Prod.fst
    · have hnosel : ¬ (x.msg.cot ≠ .deactivation ∧ x.msg.commandSelect ≠ 0) :=
        fun h => hsel ⟨h.1, h.2, hr, ha⟩
      rw [ytSelected_of_unselected (unselected_applySetpoints hnosel (.inl ha)), Nat.add_zero]
      by_cases hexe : x.IsExecute
      · obtain ⟨item, hitem, rfl⟩ := List.mem_map.mp ha
        have hacc : setpointRejected table x item = false := by
          simpa using List.any_eq_false.mp hr item hitem
        rw [callsFor_execute hexe, ytSelected_of_live (itemLive_of_accepted hexe hacc)]
        exact List.nodup_iff_count.mp (hfree hexe hr) _
      · rw [calls_nil_of_not_execute hexe, callsFor_nil]
        exact Nat.zero_le _
    · rw [ytSelected_congr (find_applySetpoints_of_notMem ha)]
      by_cases hexe : x.IsExecute
      · rw [callsFor_execute hexe, List.count_eq_zero.mpr ha, Nat.zero_add]
      · rw [calls_nil_of_not_execute hexe, callsFor_nil, Nat.zero_add]

theorem calls_live_iff_aliasFree :
    (∀ call ∈ remoteAdjustCalls table x, call.Live) ↔ AliasFree table x := by
  unfold remoteAdjustCalls AliasFree
  cases hr : remoteAdjustRejected table x with
  | true => exact ⟨fun _ _ h => (nomatch h), fun _ call hc => nomatch hc⟩
  | false =>
    rw [if_neg Bool.false_ne_true]
    constructor
    · intro hlive hexe _
      by_contra hdup
      -- the second call for an address finds the selection cleared by the first
      obtain ⟨call, hc, hn⟩ : ∃ call ∈ (applySetpoints x 0 x.items table).2, ¬ call.Live :=
        execute_alias_call hexe hdup
      exact hn (hlive call hc)
    · intro hfree
      by_cases hexe : x.IsExecute
      · refine execute_calls_live hexe (hfree hexe rfl) fun item hitem => ?_
        exact itemLive_of_accepted hexe (by simpa using List.any_eq_false.mp hr item hitem)
      · rw [calls_nil_of_not_execute hexe]
        exact fun call hc => nomatch hc

/-- A frame's calls are live exactly when the frame is free of aliases; over a run,
frame by frame. -/
theorem run_live_iff (inputs : List RemoteAdjustInput) :
    (∀ call ∈ Run.outputs handleRemoteAdjustWork remoteAdjustCalls table inputs, call.Live) ↔
      Run.Guarded AliasFree handleRemoteAdjustWork table inputs := by
  induction inputs using List.reverseRecOn with
  | nil => exact ⟨fun _ => .nil, fun _ call hc => nomatch hc⟩
  | append_singleton inputs x ih =>
    rw [Run.guarded_snoc, ← ih, Run.outputs_append, ← calls_live_iff_aliasFree]
    simp only [Run.outputs, List.append_nil, List.forall_mem_append]

theorem run_calls_le (window : List RemoteAdjustInput)
    (hfree : Run.Guarded AliasFree handleRemoteAdjustWork table window)
    (hsel : Run.Guarded (fun t x => ¬ AcceptedSelect a t x) handleRemoteAdjustWork table window) :
    callsFor a (Run.outputs handleRemoteAdjustWork remoteAdjustCalls table window) +
      ytSelected a (Run.exec handleRemoteAdjustWork table window) ≤ ytSelected a table := by
  -- no frame of the window gives `a` a selection, and every call for `a` uses one up
  induction window using List.reverseRecOn with
  | nil =>
    show 0 + ytSelected a table ≤ ytSelected a table
    omega
  | append_singleton window x ih =>
    obtain ⟨hfree, hx⟩ := Run.guarded_snoc.mp hfree
    obtain ⟨hsel, hx'⟩ := Run.guarded_snoc.mp hsel
    have hpast := ih hfree hsel
    have hstep := calls_le_selections hx hx'
    rw [Run.outputs_append, callsFor_append, Run.exec_append]
    simp only [Run.outputs, List.append_nil, Run.exec_cons, Run.exec_nil]
    omega

end RemoteAdjustLemmas

open RemoteAdjustLemmas

/-! ## Each output has its own selection -/

/-- In every run of setpoint frames, every output is authorised by its own selection
if and only if no accepted execute frame of the run names an address twice. -/
theorem yt_authorised_iff (table : PointTable) (inputs : List RemoteAdjustInput) :
    YtAuthorised table inputs ↔ Run.Guarded AliasFree handleRemoteAdjustWork table inputs := by
  constructor
  · intro h
    exact (run_live_iff inputs).mp h.1
  · intro hfree
    refine ⟨(run_live_iff inputs).mpr hfree, ?_⟩
    rintro past window rest a rfl hsel
    have hwin : Run.Guarded AliasFree handleRemoteAdjustWork
        (Run.exec handleRemoteAdjustWork table past) window :=
      Run.Guarded.middle hfree
    have hle := run_calls_le window hwin hsel
    exact Nat.le_trans (Nat.le_of_add_right_le hle) ytSelected_le_one

/-- A scaled setpoint frame for the first YT point of the demo table, `n` times the
same element. -/
def demoYtInput (n : Nat) (select : UInt8) (now : UInt64) : RemoteAdjustInput :=
  { msg := { type := .remoteAdjust, ioa := 0x6201, typeId := C_SE_NB_1, cot := .activation,
             commandSelect := select, setpointValue := 100,
             setpoints := List.replicate n ⟨0x6201, 100, select, 0⟩ }
    now := now, writeYt := fun _ => true }

/-- One select of 100, then one execute frame that names the point twice: the output is
written twice, and the run is not authorised. -/
theorem demo_frame_writes_twice :
    (Run.outputs handleRemoteAdjustWork remoteAdjustCalls pointTableInitDemo
        [demoYtInput 1 1 10, demoYtInput 2 0 20]).map YtCall.output =
      [⟨0x6201, 100, 20⟩, ⟨0x6201, 100, 20⟩] ∧
    ¬ YtAuthorised pointTableInitDemo [demoYtInput 1 1 10, demoYtInput 2 0 20] := by
  constructor
  · decide +kernel
  · rintro ⟨hlive, _⟩
    have hfree := (run_live_iff _).mp hlive [demoYtInput 1 1 10] (demoYtInput 2 0 20) [] rfl
    have hdup := hfree ⟨by decide, by decide⟩ (by decide +kernel)
    revert hdup
    decide

end Iec104Slave
