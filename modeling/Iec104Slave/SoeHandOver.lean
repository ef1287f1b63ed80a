import Iec104Slave.Lib.Run
import Iec104Slave.SoeHistory
import Iec104Slave.UploadScan

/-!
# The hand-over of SOE events (`report_scheduler_thread`)

After a pass that has put an SOE event, the report scheduler takes a snapshot of what is newer
than `last_soe_history_version`, appends its SOE events to the history in memory, offers
them to the history store, and moves the version forward. The diagnostic command `soe add` puts
an event into the upload area and appends it to the history by itself. All these steps
take different locks, so the threads interleave between them.

Results:
1. `soeInv_step`: the hand-overs append and offer exactly the events that were put before
   their snapshots, and the history is the log of all appends.
2. `soe_recorded_once_iff`: when a hand-over ends, every event put so far has been recorded once
   exactly if no command has appended an event that it put, and none was put since
   the snapshot.
-/

namespace Iec104Slave

open SlotTable

/-! ## The threads -/

/-- What other threads do to the point table, in one critical section. -/
inductive TableChange
  | setYx (ioa : Int32) (value : Bool) (timestampMs : UInt64)
  | yxQuality (ioa : Int32) (quality : UInt8)
  | setYc (ioa : Int32) (value : ℚ) (timestampMs : UInt64)
  | ycQuality (ioa : Int32) (quality : UInt8)
  | markYcReported (ioa : Int32) (value : ℚ)
  | simulateScan (nowMs : UInt64)

def TableChange.apply (table : PointTable) : TableChange → PointTable
  | .setYx ioa value timestampMs => (pointTableSetYx table ioa value timestampMs).1
  | .yxQuality ioa quality => table.modifyYx ioa fun point => { point with quality := quality }
  | .setYc ioa value timestampMs => (pointTableSetYc table ioa value timestampMs).1
  | .ycQuality ioa quality => table.modifyYc ioa fun point => { point with quality := quality }
  | .markYcReported ioa value => (pointTableMarkYcReported table ioa value).1
  | .simulateScan nowMs => pointTableSimulateScan table nowMs

/-- Where the report scheduler is: between two passes, in the scan, before the snapshot of the
hand-over, in its two loops. -/
inductive SchedulerPc
  | sleeping
  | scan (nowMs : UInt64) (force : Bool) (pc : ScanPc)
  | handOver
  | append (snapshot : ActiveUploadSnapshot) (rest : List SoeUploadEntry)
  | offer (snapshot : ActiveUploadSnapshot) (rest : List SoeUploadEntry)

/-- Where `handle_soe` is: before the put, before the append. -/
inductive SoeAddPc
  | idle
  | put (copy : YxPoint)
  | append (copy : YxPoint)

inductive SoeWriter
  | scheduler
  | command
deriving DecidableEq

/-- A call of `soe_history_append`: the record it wrote, and the event of the upload area that it
was made for. A command whose put failed has none. -/
structure SoeAppend where
  writer : SoeWriter
  record : SoeRecord
  event : Option SoeUploadEntry

/-- What has happened so far. No thread reads it. -/
structure SoeTrace where
  /-- The events that were put before the snapshot of the last hand-over. -/
  taken : List SoeUploadEntry
  /-- The events that were put since. -/
  fresh : List SoeUploadEntry
  /-- The event that the command in progress has put. -/
  adding : Option SoeUploadEntry
  appends : List SoeAppend
  /-- The calls of `history_store_append_soe`. -/
  offered : List SoeRecord

structure SoeState where
  shared : ScanState
  history : SoeHistory
  lastSoeHistoryVersion : Nat
  scheduler : SchedulerPc
  command : SoeAddPc
  trace : SoeTrace

def SoeState.area (s : SoeState) : ActiveUploadArea := s.shared.area

def SoeState.table (s : SoeState) : PointTable := s.shared.table

/-- The record that the scheduler offers to the history store. -/
def soeRecordOf (e : SoeUploadEntry) : SoeRecord :=
  ⟨e.ioa, e.value, e.quality, e.timestampMs, e.sequence⟩

/-- The step that calls `soe_history_append`. -/
def SoeState.append (s : SoeState) (writer : SoeWriter) (ioa : Int32) (value : Bool)
    (quality : UInt8) (timestampMs : UInt64) (event : Option SoeUploadEntry) : SoeState :=
  { s with
    history := soeHistoryAppend s.history ioa value quality timestampMs
    trace := { s.trace with
      appends := s.trace.appends ++
        [⟨writer, soeRecordNext s.history ioa value quality timestampMs, event⟩] } }

inductive SoeOp
  | change (c : TableChange)
  | putYc (point : YcPoint) (cot : CauseOfTransmission)
  | soeAdd (ioa : Int32) (value : Bool) (quality : UInt8) (nowMs : UInt64)
  | command
  | startPass (alloc : Bool) (nowMs : UInt64) (force : Bool)
  | scheduler (alloc : SnapshotAlloc)

/-- The next critical section of the command. The result of the put is not used. -/
def commandNext (s : SoeState) : SoeState :=
  match s.command with
  | .idle => s
  | .put copy =>
    let event := soeWritten s.area (.putYx copy true)
    { s with
      shared := { s.shared with area := (activeUploadPutYx s.area copy true).1 }
      command := .append copy
      trace := { s.trace with fresh := s.trace.fresh ++ event.toList, adding := event } }
  | .append copy =>
    { s.append .command copy.ioa.toInt32 (copy.value != 0) copy.quality copy.timestampMs
        s.trace.adding with
      command := .idle }

/-- The SOE event that the next step of a scan puts. -/
def scanSoe (nowMs : UInt64) (area : ActiveUploadArea) : ScanPc → Option SoeUploadEntry
  | .yx (point :: _) _ =>
    if yxChanged point then soeWritten area (.putYx (stampYx nowMs point) point.enableSoe)
    else none
  | _ => none

/-- The next step of the scheduler. A pass that has put an SOE event has the result `true`, so
`has_soe` alone decides about the hand-over. -/
def schedulerNext (alloc : SnapshotAlloc) (s : SoeState) : SoeState :=
  match s.scheduler with
  | .sleeping => s
  | .scan nowMs force pc =>
    let (shared, pc') := scanNext nowMs force (s.shared, pc)
    { s with
      shared := shared
      scheduler :=
        if pc' = .idle then if shared.hasSoe then .handOver else .sleeping
        else .scan nowMs force pc'
      trace := { s.trace with fresh := s.trace.fresh ++ (scanSoe nowMs s.area pc).toList } }
  | .handOver =>
    match activeUploadSnapshotCreate alloc s.area s.lastSoeHistoryVersion with
    | none => { s with scheduler := .sleeping }
    | some snapshot =>
      { s with
        scheduler := .append snapshot snapshot.soe
        trace := { s.trace with taken := s.trace.taken ++ s.trace.fresh, fresh := [] } }
  | .append snapshot [] => { s with scheduler := .offer snapshot snapshot.soe }
  | .append snapshot (e :: rest) =>
    { s.append .scheduler e.ioa e.value e.quality e.timestampMs (some e) with
      scheduler := .append snapshot rest }
  | .offer snapshot [] =>
    { s with lastSoeHistoryVersion := snapshot.version, scheduler := .sleeping }
  | .offer snapshot (e :: rest) =>
    { s with
      scheduler := .offer snapshot rest
      trace := { s.trace with offered := s.trace.offered ++ [soeRecordOf e] } }

def soeStep (s : SoeState) : SoeOp → SoeState
  | .change c => { s with shared := { s.shared with table := c.apply s.table } }
  | .putYc point cot =>
    { s with shared := { s.shared with area := (activeUploadPutYc s.area point cot).1 } }
  | .soeAdd ioa value quality nowMs =>
    match s.command, pointTableFindYx s.table ioa with
    | .idle, some point =>
      { s with
        command := .put { point with
          value := boolByte value, quality := quality, timestampMs := nowMs } }
    | _, _ => s
  | .command => commandNext s
  | .startPass alloc nowMs force =>
    match s.scheduler, alloc with
    | .sleeping, true =>
      { s with
        shared := .start s.table s.area
        scheduler := .scan nowMs force (.yx s.table.yx s.table.yc) }
    | _, _ => s
  | .scheduler alloc => schedulerNext alloc s

def SoeState.start (initial : PointTable) : SoeState where
  shared := .start initial (serverUploadArea initial)
  history := soeHistoryInit
  lastSoeHistoryVersion := 0
  scheduler := .sleeping
  command := .idle
  trace := ⟨[], [], none, [], []⟩

/-! ## Recorded once -/

/-- The SOE events put into the upload area so far. -/
def SoeState.put (s : SoeState) : List SoeUploadEntry := s.trace.taken ++ s.trace.fresh

/-- The events that have been appended to the history, once for each append. -/
def SoeState.appended (s : SoeState) : List SoeUploadEntry :=
  s.trace.appends.filterMap SoeAppend.event

def SoeState.appendedBy (s : SoeState) (writer : SoeWriter) : List SoeUploadEntry :=
  (s.trace.appends.filter fun a => a.writer = writer).filterMap SoeAppend.event

def SoeState.RecordedOnce (s : SoeState) : Prop :=
  ∀ e ∈ s.put, s.appended.count e = 1 ∧ s.trace.offered.count (soeRecordOf e) = 1

/-- The next step of the scheduler ends a hand-over. -/
def SoeState.HandOverEnds (s : SoeState) : Prop :=
  ∃ snapshot, s.scheduler = .offer snapshot []

/-- Fewer SOE events than the ring has slots have been put since the last hand-over. -/
def SoeState.Room (s : SoeState) : Prop :=
  s.trace.fresh.length < s.area.soe.length

/-- No command has appended an event that it put, and no event was put since the snapshot
of the hand-over. -/
def SoeState.Undisturbed (s : SoeState) : Prop :=
  s.appendedBy .command = [] ∧ s.trace.fresh = []

instance (s : SoeState) : Decidable s.RecordedOnce :=
  inferInstanceAs (Decidable (∀ e ∈ s.put, _))

instance (s : SoeState) : Decidable s.HandOverEnds :=
  match h : s.scheduler with
  | .offer snapshot [] => .isTrue ⟨snapshot, h⟩
  | .offer _ (_ :: _) => .isFalse (by rintro ⟨_, hend⟩; rw [h] at hend; cases hend)
  | .append _ _ => .isFalse (by rintro ⟨_, hend⟩; rw [h] at hend; cases hend)
  | .handOver => .isFalse (by rintro ⟨_, hend⟩; rw [h] at hend; cases hend)
  | .scan _ _ _ => .isFalse (by rintro ⟨_, hend⟩; rw [h] at hend; cases hend)
  | .sleeping => .isFalse (by rintro ⟨_, hend⟩; rw [h] at hend; cases hend)

instance (s : SoeState) : Decidable s.Room :=
  inferInstanceAs (Decidable (_ < _))

instance (s : SoeState) : Decidable s.Undisturbed :=
  inferInstanceAs (Decidable (_ ∧ _))

/-! ## Puts and snapshots -/

/-- The upload area, the events put before and since the last snapshot, and the version of that
snapshot. -/
structure PutInv (area : ActiveUploadArea) (taken fresh : List SoeUploadEntry)
    (watermark : Nat) : Prop where
  area_inv : AreaInv ⟨area, taken ++ fresh⟩
  seen : ∀ e ∈ taken, e.version ≤ watermark
  unseen : ∀ e ∈ fresh, watermark < e.version
  stamped : ∀ e ∈ fresh, e.version ≤ area.version
  watermark_le : watermark ≤ area.version

namespace PutInv

open ActiveUploadLemmas

variable {area : ActiveUploadArea} {taken fresh : List SoeUploadEntry} {watermark : Nat}

theorem put (h : PutInv area taken fresh watermark) {op : UploadOp} (hop : op ≠ .clear) :
    PutInv (uploadStep area op) taken (fresh ++ (soeWritten area op).toList) watermark where
  area_inv := by
    have hstep := areaInv_step h.area_inv op
    rw [← List.append_assoc]
    cases op with
    | clear => exact absurd rfl hop
    | _ => exact hstep
  seen := h.seen
  unseen := by
    intro e he
    rcases List.mem_append.mp he with he | he
    · exact h.unseen e he
    · have hlt := (soeWritten_version (Option.mem_toList.mp he)).1
      exact Nat.lt_of_le_of_lt h.watermark_le hlt
  stamped := by
    intro e he
    rcases List.mem_append.mp he with he | he
    · exact Nat.le_trans (h.stamped e he) (version_uploadStep area op)
    · exact Nat.le_of_eq (soeWritten_version (Option.mem_toList.mp he)).2
  watermark_le := Nat.le_trans h.watermark_le (version_uploadStep area op)

theorem snapshot (h : PutInv area taken fresh watermark) :
    PutInv area (taken ++ fresh) [] area.version where
  area_inv := by
    rw [List.append_nil]
    exact h.area_inv
  seen := by
    intro e he
    rcases List.mem_append.mp he with he | he
    · exact Nat.le_trans (h.seen e he) h.watermark_le
    · exact h.stamped e he
  unseen := by rintro _ ⟨⟩
  stamped := by rintro _ ⟨⟩
  watermark_le := Nat.le_refl _

/-- A snapshot shows the events put since the last one. -/
theorem newer_perm (h : PutInv area taken fresh watermark)
    (hroom : fresh.length < area.soe.length) :
    (newerThan SoeUploadEntry.version watermark area.soe).Perm fresh :=
  h.area_inv.soe.newerThan_perm (Nat.le_of_lt hroom) h.seen h.unseen

theorem nodup_sequence (h : PutInv area taken fresh watermark) :
    ((taken ++ fresh).map SoeUploadEntry.sequence).Nodup := by
  have hget : ∀ i, i < (taken ++ fresh).length →
      ((taken ++ fresh).map SoeUploadEntry.sequence)[i]? = some (i + 1) := by
    intro i hi
    rw [List.getElem?_map, List.getElem?_eq_getElem hi, Option.map_some,
      h.area_inv.sequence i _ (List.getElem?_eq_getElem hi)]
  refine List.nodup_iff_getElem?_ne_getElem?.mpr fun i j hij hj heq => ?_
  rw [List.length_map] at hj
  rw [hget i (Nat.lt_trans hij hj), hget j hj, Option.some.injEq, Nat.succ.injEq] at heq
  exact absurd heq (Nat.ne_of_lt hij)

/-- The records of the events tell them apart. -/
theorem nodup_record (h : PutInv area taken fresh watermark) :
    ((taken ++ fresh).map soeRecordOf).Nodup := by
  refine List.Nodup.of_map SoeRecord.sequence ?_
  rw [List.map_map]
  exact h.nodup_sequence

end PutInv

/-! ## The invariant -/

/-- The events of the snapshot that the hand-over has still to append. -/
def SchedulerPc.toAppend : SchedulerPc → List SoeUploadEntry
  | .append _ rest => rest
  | _ => []

/-- The events of the snapshot that the hand-over has still to offer. -/
def SchedulerPc.toOffer : SchedulerPc → List SoeUploadEntry
  | .append snapshot _ => snapshot.soe
  | .offer _ rest => rest
  | _ => []

def SchedulerPc.version : SchedulerPc → Option Nat
  | .append snapshot _ => some snapshot.version
  | .offer snapshot _ => some snapshot.version
  | _ => none

/-- The version up to which the events have been handed over, or are about to be. -/
def SoeState.watermark (s : SoeState) : Nat :=
  s.scheduler.version.getD s.lastSoeHistoryVersion

/-- No hand-over is in progress. -/
structure SchedulerPc.Quiet (pc : SchedulerPc) : Prop where
  toAppend : pc.toAppend = []
  toOffer : pc.toOffer = []
  version : pc.version = none

/-- The event is the one of which the record is written, up to its number. -/
def RecordOf (record : SoeRecord) (e : SoeUploadEntry) : Prop :=
  soeRecordOf e = { record with sequence := e.sequence }

structure SoeInv (s : SoeState) : Prop where
  puts : PutInv s.area s.trace.taken s.trace.fresh s.watermark
  handed : (s.appendedBy .scheduler ++ s.scheduler.toAppend).Perm s.trace.taken
  offered : (s.trace.offered ++ s.scheduler.toOffer.map soeRecordOf).Perm
    (s.trace.taken.map soeRecordOf)
  added : ∀ e ∈ s.appendedBy .command, e ∈ s.put
  adding : ∀ copy e, s.command = .append copy → s.trace.adding = some e → e ∈ s.put ∧
    RecordOf ⟨copy.ioa.toInt32, copy.value != 0, copy.quality, copy.timestampMs, 0⟩ e
  history : HistoryInv s.history (s.trace.appends.map SoeAppend.record)
  truthful : ∀ a ∈ s.trace.appends, ∀ e, a.event = some e → RecordOf a.record e

namespace SoeHandOverLemmas

open ActiveUploadLemmas SoeHistoryLemmas

variable {s : SoeState}

/-- What the invariant says at a place of the scheduler. -/
theorem soeInv_at (h : SoeInv s) {pc : SchedulerPc} (hpc : s.scheduler = pc) :
    PutInv s.area s.trace.taken s.trace.fresh (pc.version.getD s.lastSoeHistoryVersion) ∧
    (s.appendedBy .scheduler ++ pc.toAppend).Perm s.trace.taken ∧
    (s.trace.offered ++ pc.toOffer.map soeRecordOf).Perm (s.trace.taken.map soeRecordOf) := by
  subst hpc
  exact ⟨h.puts, h.handed, h.offered⟩

/-- What has been handed over while the scheduler has nothing left to append and to offer. -/
theorem soeInv_handed (h : SoeInv s) (happend : s.scheduler.toAppend = [])
    (hoffer : s.scheduler.toOffer = []) :
    (s.appendedBy .scheduler).Perm s.trace.taken ∧
    s.trace.offered.Perm (s.trace.taken.map soeRecordOf) := by
  have hhanded := h.handed
  have hoffered := h.offered
  rw [happend, List.append_nil] at hhanded
  rw [hoffer, List.map_nil, List.append_nil] at hoffered
  exact ⟨hhanded, hoffered⟩

theorem publishYx_area (shared : ScanState) (point : YxPoint) :
    (publishYxChange shared point).1.area =
      uploadStep shared.area (.putYx point point.enableSoe) := by
  unfold publishYxChange
  split
  · next heq => exact (congrArg Prod.fst heq).symm
  · next heq => exact (congrArg Prod.fst heq).symm

theorem publishYc_area (shared : ScanState) (point : YcPoint) (cot : CauseOfTransmission) :
    (publishYcChange shared point cot).1.area = uploadStep shared.area (.putYc point cot) := by
  unfold publishYcChange
  split
  · next heq => exact (congrArg Prod.fst heq).symm
  · next heq => exact (congrArg Prod.fst heq).symm

/-- A step of a scan leaves the area or makes one put. -/
theorem scanNext_area (nowMs : UInt64) (force : Bool) (shared : ScanState) (pc : ScanPc) :
    ((scanNext nowMs force (shared, pc)).1.area = shared.area ∧
      scanSoe nowMs shared.area pc = none) ∨
    ∃ op, op ≠ .clear ∧ (scanNext nowMs force (shared, pc)).1.area = uploadStep shared.area op ∧
      scanSoe nowMs shared.area pc = soeWritten shared.area op := by
  cases pc with
  | idle => exact .inl ⟨rfl, rfl⟩
  | markYx point points yc => exact .inl ⟨rfl, rfl⟩
  | markYc point points => exact .inl ⟨rfl, rfl⟩
  | yx points yc =>
    cases points with
    | nil => exact .inl ⟨rfl, rfl⟩
    | cons point points =>
      rw [scanNext, scanSoe]
      cases hchanged : yxChanged point with
      | false => exact .inl ⟨rfl, rfl⟩
      | true =>
        refine .inr ⟨.putYx (stampYx nowMs point) point.enableSoe, by rintro ⟨⟩, ?_, if_pos rfl⟩
        have harea := publishYx_area shared (stampYx nowMs point)
        rcases hput : publishYxChange shared (stampYx nowMs point) with ⟨shared', ok⟩
        rw [hput] at harea
        cases ok with
        | true => exact harea
        | false => exact harea
  | yc points =>
    cases points with
    | nil => exact .inl ⟨rfl, rfl⟩
    | cons point points =>
      rw [scanNext]
      cases hcause : ycCause force point with
      | none => exact .inl ⟨rfl, rfl⟩
      | some cot =>
        refine .inr ⟨.putYc (stampYc nowMs point) cot, by rintro ⟨⟩, ?_, rfl⟩
        dsimp only
        have harea := publishYc_area shared (stampYc nowMs point) cot
        rcases hput : publishYcChange shared (stampYc nowMs point) cot with ⟨shared', ok⟩
        rw [hput] at harea
        cases ok with
        | true => exact harea
        | false => exact harea

theorem putInv_scanNext {shared : ScanState} {taken fresh : List SoeUploadEntry}
    {watermark : Nat} (h : PutInv shared.area taken fresh watermark) (nowMs : UInt64)
    (force : Bool) (pc : ScanPc) :
    PutInv (scanNext nowMs force (shared, pc)).1.area taken
      (fresh ++ (scanSoe nowMs shared.area pc).toList) watermark := by
  rcases scanNext_area nowMs force shared pc with ⟨harea, hsoe⟩ | ⟨op, hop, harea, hsoe⟩
  · rw [harea, hsoe, Option.toList_none, List.append_nil]
    exact h
  · rw [harea, hsoe]
    exact h.put hop

/-- The event that a YX put writes is one of the point. -/
theorem recordOf_soeWritten {area : ActiveUploadArea} {point : YxPoint} {withSoe : Bool}
    {e : SoeUploadEntry} (h : soeWritten area (.putYx point withSoe) = some e) :
    RecordOf ⟨point.ioa.toInt32, point.value != 0, point.quality, point.timestampMs, 0⟩ e := by
  rcases putYx_cases area point withSoe with ⟨_, hsoe⟩ | ⟨_, hsoe⟩
  · rw [hsoe] at h
    cases h
    rfl
  · rw [hsoe] at h
    cases h

theorem appendedBy_append (writer writer' : SoeWriter) (ioa : Int32) (value : Bool)
    (quality : UInt8) (timestampMs : UInt64) (event : Option SoeUploadEntry) :
    (s.append writer ioa value quality timestampMs event).appendedBy writer' =
      s.appendedBy writer' ++ if writer = writer' then event.toList else [] := by
  unfold SoeState.appendedBy SoeState.append
  rw [List.filter_append, List.filterMap_append]
  congr 1
  split
  · next heq =>
    rw [List.filter_cons_of_pos (by simpa using heq)]
    cases event with
    | none => rfl
    | some e => rfl
  · next hne =>
    rw [List.filter_cons_of_neg (by simpa using hne)]
    rfl

theorem mem_put_grow {e : SoeUploadEntry} (he : e ∈ s.put) (new : List SoeUploadEntry) :
    e ∈ s.trace.taken ++ (s.trace.fresh ++ new) := by
  rw [← List.append_assoc]
  exact List.mem_append_left new he

/-- Between hand-overs, the scheduler may move and events may be put. -/
theorem soeInv_quiet (h : SoeInv s) (hs : s.scheduler.Quiet) {pc : SchedulerPc} (hpc : pc.Quiet)
    {shared : ScanState} {new : List SoeUploadEntry}
    (hputs : PutInv shared.area s.trace.taken (s.trace.fresh ++ new) s.watermark) :
    SoeInv { s with
      shared := shared
      scheduler := pc
      trace := { s.trace with fresh := s.trace.fresh ++ new } } where
  puts := by
    rw [SoeState.watermark, hs.version] at hputs
    rw [SoeState.watermark, hpc.version]
    exact hputs
  handed := by
    have hhanded := h.handed
    rw [hs.toAppend] at hhanded
    rw [hpc.toAppend]
    exact hhanded
  offered := by
    have hoffered := h.offered
    rw [hs.toOffer] at hoffered
    rw [hpc.toOffer]
    exact hoffered
  added := fun e he => mem_put_grow (h.added e he) new
  adding := by
    intro copy e hcommand hadding
    obtain ⟨hput, hrecord⟩ := h.adding copy e hcommand hadding
    exact ⟨mem_put_grow hput new, hrecord⟩
  history := h.history
  truthful := h.truthful

/-- The scheduler moves between hand-overs. -/
theorem soeInv_move (h : SoeInv s) (hs : s.scheduler.Quiet) {pc : SchedulerPc} (hpc : pc.Quiet)
    {shared : ScanState} (harea : shared.area = s.area) :
    SoeInv { s with shared := shared, scheduler := pc } := by
  have hputs : PutInv shared.area s.trace.taken (s.trace.fresh ++ []) s.watermark := by
    rw [harea, List.append_nil]
    exact h.puts
  have hmoved := soeInv_quiet h hs hpc hputs
  rwa [List.append_nil] at hmoved

theorem quiet_sleeping : SchedulerPc.Quiet .sleeping := ⟨rfl, rfl, rfl⟩

theorem quiet_handOver : SchedulerPc.Quiet .handOver := ⟨rfl, rfl, rfl⟩

theorem quiet_scan (nowMs : UInt64) (force : Bool) (pc : ScanPc) :
    SchedulerPc.Quiet (.scan nowMs force pc) := ⟨rfl, rfl, rfl⟩

theorem quiet_scanned (nowMs : UInt64) (force : Bool) (pc : ScanPc) (hasSoe : Bool) :
    SchedulerPc.Quiet (if pc = .idle then if hasSoe then .handOver else .sleeping
      else .scan nowMs force pc) := by
  split
  · split
    · exact quiet_handOver
    · exact quiet_sleeping
  · exact quiet_scan _ _ _

theorem soeInv_scan (h : SoeInv s) {nowMs : UInt64} {force : Bool} {pc : ScanPc}
    (hpc : s.scheduler = .scan nowMs force pc) (alloc : SnapshotAlloc) :
    SoeInv (schedulerNext alloc s) := by
  have hputs := putInv_scanNext h.puts nowMs force pc
  have hquiet : s.scheduler.Quiet := hpc ▸ quiet_scan nowMs force pc
  unfold schedulerNext
  rw [hpc]
  exact soeInv_quiet h hquiet (quiet_scanned nowMs force _ _) hputs

/-- The snapshot of a hand-over takes the events put since the last one. -/
theorem soeInv_handOver (h : SoeInv s) (hroom : s.Room) (hpc : s.scheduler = .handOver)
    (alloc : SnapshotAlloc) : SoeInv (schedulerNext alloc s) := by
  have hquiet : s.scheduler.Quiet := hpc ▸ quiet_handOver
  obtain ⟨hputs, _, _⟩ := soeInv_at h hpc
  obtain ⟨hhanded, hoffered⟩ := soeInv_handed h hquiet.toAppend hquiet.toOffer
  unfold schedulerNext
  rw [hpc]
  dsimp only
  cases hsnapshot : activeUploadSnapshotCreate alloc s.area s.lastSoeHistoryVersion with
  | none => exact soeInv_move h hquiet quiet_sleeping rfl
  | some snapshot =>
    rw [snapshot_eq hsnapshot]
    -- the ring had room for all of them, so the snapshot misses none
    have hnew := hputs.newer_perm hroom
    have hput : ∀ e, e ∈ s.put → e ∈ (s.trace.taken ++ s.trace.fresh) ++ [] := by
      intro e he
      rwa [List.append_nil]
    refine ⟨h.puts.snapshot, hhanded.append hnew, ?_, fun e he => hput e (h.added e he), ?_,
      h.history, h.truthful⟩
    · show List.Perm _ ((s.trace.taken ++ s.trace.fresh).map soeRecordOf)
      rw [List.map_append]
      exact hoffered.append (hnew.map soeRecordOf)
    · intro copy e hcommand hadding
      obtain ⟨hmem, hrecord⟩ := h.adding copy e hcommand hadding
      exact ⟨hput e hmem, hrecord⟩

theorem history_append (h : SoeInv s) (writer : SoeWriter) (ioa : Int32) (value : Bool)
    (quality : UInt8) (timestampMs : UInt64) (event : Option SoeUploadEntry) :
    HistoryInv (s.append writer ioa value quality timestampMs event).history
      ((s.append writer ioa value quality timestampMs event).trace.appends.map
        SoeAppend.record) := by
  show HistoryInv _ ((s.trace.appends ++ [_]).map _)
  rw [List.map_append]
  exact historyInv_append h.history ioa value quality timestampMs

theorem truthful_append (h : SoeInv s) (writer : SoeWriter) {ioa : Int32} {value : Bool}
    {quality : UInt8} {timestampMs : UInt64} {event : Option SoeUploadEntry}
    (hevent : ∀ e, event = some e → RecordOf ⟨ioa, value, quality, timestampMs, 0⟩ e) :
    ∀ a ∈ (s.append writer ioa value quality timestampMs event).trace.appends,
      ∀ e, a.event = some e → RecordOf a.record e := by
  intro a ha e he
  rcases List.mem_append.mp ha with ha | ha
  · exact h.truthful a ha e he
  · rw [List.mem_singleton.mp ha] at he ⊢
    exact hevent e he

theorem soeInv_append (h : SoeInv s) {snapshot : ActiveUploadSnapshot} {e : SoeUploadEntry}
    {rest : List SoeUploadEntry} (hpc : s.scheduler = .append snapshot (e :: rest))
    (alloc : SnapshotAlloc) : SoeInv (schedulerNext alloc s) := by
  obtain ⟨hputs, hhanded, hoffered⟩ := soeInv_at h hpc
  unfold schedulerNext
  rw [hpc]
  refine ⟨hputs, ?_, hoffered, ?_, h.adding, history_append h _ _ _ _ _ _,
    truthful_append h _ ?_⟩
  · show ((s.append _ _ _ _ _ _).appendedBy .scheduler ++ rest).Perm _
    rw [appendedBy_append, if_pos rfl, List.append_assoc]
    exact hhanded
  · show ∀ e' ∈ (s.append _ _ _ _ _ _).appendedBy .command, _
    rw [appendedBy_append, if_neg nofun, List.append_nil]
    exact h.added
  · rintro e' ⟨⟩
    rfl

theorem soeInv_offer (h : SoeInv s) {snapshot : ActiveUploadSnapshot} {e : SoeUploadEntry}
    {rest : List SoeUploadEntry} (hpc : s.scheduler = .offer snapshot (e :: rest))
    (alloc : SnapshotAlloc) : SoeInv (schedulerNext alloc s) := by
  obtain ⟨hputs, hhanded, hoffered⟩ := soeInv_at h hpc
  unfold schedulerNext
  rw [hpc]
  refine ⟨hputs, hhanded, ?_, h.added, h.adding, h.history, h.truthful⟩
  show ((s.trace.offered ++ [soeRecordOf e]) ++ rest.map soeRecordOf).Perm _
  rw [List.append_assoc]
  exact hoffered

theorem soeInv_scheduler (h : SoeInv s) (hroom : s.Room) (alloc : SnapshotAlloc) :
    SoeInv (schedulerNext alloc s) := by
  cases hpc : s.scheduler with
  | sleeping =>
    unfold schedulerNext
    rw [hpc]
    exact h
  | scan nowMs force pc => exact soeInv_scan h hpc alloc
  | handOver => exact soeInv_handOver h hroom hpc alloc
  | append snapshot rest =>
    cases rest with
    | cons e rest => exact soeInv_append h hpc alloc
    | nil =>
      obtain ⟨hputs, hhanded, hoffered⟩ := soeInv_at h hpc
      unfold schedulerNext
      rw [hpc]
      exact ⟨hputs, hhanded, hoffered, h.added, h.adding, h.history, h.truthful⟩
  | offer snapshot rest =>
    cases rest with
    | cons e rest => exact soeInv_offer h hpc alloc
    | nil =>
      -- the version of the snapshot, the watermark so far, becomes the version handed over
      obtain ⟨hputs, hhanded, hoffered⟩ := soeInv_at h hpc
      unfold schedulerNext
      rw [hpc]
      exact ⟨hputs, hhanded, hoffered, h.added, h.adding, h.history, h.truthful⟩

theorem soeInv_commandPut (h : SoeInv s) {copy : YxPoint} (hcommand : s.command = .put copy) :
    SoeInv (commandNext s) := by
  have hputs : PutInv (uploadStep s.area (.putYx copy true)) s.trace.taken _ s.watermark :=
    h.puts.put nofun
  unfold commandNext
  rw [hcommand]
  refine ⟨hputs, h.handed, h.offered, fun e he => mem_put_grow (h.added e he) _, ?_, h.history,
    h.truthful⟩
  rintro copy' e ⟨⟩ hadding
  refine ⟨List.mem_append_right _ (List.mem_append_right _ ?_), recordOf_soeWritten hadding⟩
  exact Option.mem_toList.mpr hadding

theorem soeInv_commandAppend (h : SoeInv s) {copy : YxPoint}
    (hcommand : s.command = .append copy) : SoeInv (commandNext s) := by
  unfold commandNext
  rw [hcommand]
  refine ⟨h.puts, ?_, h.offered, ?_, by rintro _ _ ⟨⟩, history_append h _ _ _ _ _ _,
    truthful_append h _ fun e he => (h.adding copy e hcommand he).2⟩
  · show ((s.append _ _ _ _ _ _).appendedBy .scheduler ++ s.scheduler.toAppend).Perm _
    rw [appendedBy_append, if_neg nofun, List.append_nil]
    exact h.handed
  · show ∀ e ∈ (s.append _ _ _ _ _ _).appendedBy .command, _
    rw [appendedBy_append, if_pos rfl]
    intro e he
    rcases List.mem_append.mp he with he | he
    · exact h.added e he
    · exact (h.adding copy e hcommand (Option.mem_toList.mp he)).1

theorem soeInv_putYc (h : SoeInv s) (point : YcPoint) (cot : CauseOfTransmission) :
    SoeInv (soeStep s (.putYc point cot)) := by
  have hputs : PutInv (uploadStep s.area (.putYc point cot)) s.trace.taken
      (s.trace.fresh ++ []) s.watermark := h.puts.put nofun
  rw [List.append_nil] at hputs
  exact ⟨hputs, h.handed, h.offered, h.added, h.adding, h.history, h.truthful⟩

/-- The command reads its copy of the point. -/
theorem soeInv_soeAdd (h : SoeInv s) (ioa : Int32) (value : Bool) (quality : UInt8)
    (nowMs : UInt64) : SoeInv (soeStep s (.soeAdd ioa value quality nowMs)) := by
  rw [soeStep]
  split
  · exact ⟨h.puts, h.handed, h.offered, h.added, by rintro _ _ ⟨⟩, h.history, h.truthful⟩
  · exact h

theorem soeInv_step (h : SoeInv s) (hroom : s.Room) (op : SoeOp) : SoeInv (soeStep s op) := by
  cases op with
  | change c => exact ⟨h.puts, h.handed, h.offered, h.added, h.adding, h.history, h.truthful⟩
  | putYc point cot => exact soeInv_putYc h point cot
  | soeAdd ioa value quality nowMs => exact soeInv_soeAdd h ioa value quality nowMs
  | command =>
    show SoeInv (commandNext s)
    cases hcommand : s.command with
    | idle =>
      unfold commandNext
      rw [hcommand]
      exact h
    | put copy => exact soeInv_commandPut h hcommand
    | append copy => exact soeInv_commandAppend h hcommand
  | startPass alloc nowMs force =>
    unfold soeStep
    dsimp only
    split
    · next hsleeping => exact soeInv_move h (hsleeping ▸ quiet_sleeping) (quiet_scan _ _ _) rfl
    · exact h
  | scheduler alloc => exact soeInv_scheduler h hroom alloc

theorem soeInv_start (initial : PointTable) : SoeInv (.start initial) where
  puts := ⟨areaInv_init _ _ _, by rintro _ ⟨⟩, by rintro _ ⟨⟩, by rintro _ ⟨⟩, Nat.le_refl _⟩
  handed := .nil
  offered := .nil
  added := by rintro _ ⟨⟩
  adding := by rintro _ _ ⟨⟩
  history := historyInv_init
  truthful := by rintro _ ⟨⟩

theorem soeInv_exec {initial : PointTable} {ops : List SoeOp}
    (hroom : Run.Guarded (fun s _ => s.Room) soeStep (.start initial) ops) :
    SoeInv (Run.exec soeStep (.start initial) ops) :=
  Run.guarded_induction (I := fun _ => SoeInv) (soeInv_start initial)
    (fun _ _ op hop h => soeInv_step h hop op) hroom

theorem appended_perm (s : SoeState) :
    s.appended.Perm (s.appendedBy .scheduler ++ s.appendedBy .command) := by
  have hwriter : (fun a : SoeAppend => decide (a.writer = .command)) =
      fun a => !decide (a.writer = .scheduler) := by
    funext a
    cases a.writer <;> rfl
  unfold SoeState.appended SoeState.appendedBy
  rw [hwriter, ← List.filterMap_append]
  exact ((List.filter_append_perm _ _).filterMap _).symm

/-- The counts at the end of a hand-over. -/
theorem recordedOnce_iff (h : SoeInv s) (hend : s.HandOverEnds) :
    s.RecordedOnce ↔ s.Undisturbed := by
  obtain ⟨snapshot, hpc⟩ := hend
  obtain ⟨hhanded, hoffered⟩ := soeInv_handed h (by rw [hpc]; rfl) (by rw [hpc]; rfl)
  have hrecords := h.puts.nodup_record
  have hnodup : s.put.Nodup := hrecords.of_map
  have happended : ∀ e, s.appended.count e =
      s.trace.taken.count e + (s.appendedBy .command).count e := by
    intro e
    rw [(appended_perm s).count_eq, List.count_append, hhanded.count_eq]
  constructor
  · intro honce
    have hfresh : s.trace.fresh = [] := by
      -- what was offered is of the events taken, and their records differ from that of `e`
      refine List.eq_nil_iff_forall_not_mem.mpr fun e he => ?_
      have hcount := (honce e (List.mem_append_right _ he)).2
      have hmem : soeRecordOf e ∈ s.trace.taken.map soeRecordOf := by
        refine hoffered.mem_iff.mp (List.count_pos_iff.mp ?_)
        rw [hcount]
        exact Nat.one_pos
      rw [List.map_append] at hrecords
      exact (List.nodup_append.mp hrecords).2.2 _ hmem _ (List.mem_map_of_mem he) rfl
    refine ⟨List.eq_nil_iff_forall_not_mem.mpr fun e he => ?_, hfresh⟩
    -- an event that a command appended is in the history twice
    have hput := h.added e he
    have htaken : e ∈ s.trace.taken := by
      rwa [SoeState.put, hfresh, List.append_nil] at hput
    have hcount := (honce e hput).1
    rw [happended] at hcount
    have hone : 0 < s.trace.taken.count e := List.count_pos_iff.mpr htaken
    have htwo : 0 < (s.appendedBy .command).count e := List.count_pos_iff.mpr he
    omega
  · rintro ⟨hadded, hfresh⟩ e he
    have hput : s.put = s.trace.taken := by
      rw [SoeState.put, hfresh, List.append_nil]
    rw [hput] at he hnodup
    rw [hfresh, List.append_nil] at hrecords
    constructor
    · rw [happended, hadded, List.count_nil]
      exact List.count_eq_one_of_mem hnodup he
    · rw [hoffered.count_eq]
      exact List.count_eq_one_of_mem hrecords (List.mem_map_of_mem he)

end SoeHandOverLemmas

open SoeHandOverLemmas

/-- In every interleaving in which fewer SOE events than the ring has slots are put between two
hand-overs: when a hand-over ends, every SOE event put so far has been appended to the
history once and offered to the store once, exactly if no command has appended an
event that it put and no event was put since the snapshot. -/
theorem soe_recorded_once_iff (initial : PointTable) (ops : List SoeOp) (alloc : SnapshotAlloc)
    (hroom : Run.Guarded (fun s _ => s.Room) soeStep (.start initial) ops)
    (hend : (Run.exec soeStep (.start initial) ops).HandOverEnds) :
    (soeStep (Run.exec soeStep (.start initial) ops) (.scheduler alloc)).RecordedOnce ↔
      (Run.exec soeStep (.start initial) ops).Undisturbed := by
  rw [← recordedOnce_iff (soeInv_exec hroom) hend]
  obtain ⟨snapshot, hpc⟩ := hend
  rw [soeStep, schedulerNext, hpc]
  rfl

/-- A table with the first YX point of the demo table only. -/
def oneYxTable : PointTable :=
  { pointTableInitDemo with
    yx := [initYxPoint 0], yc := [], ycRtu := [], ycSensorConf := [], ycCustom := [] }

def everyAlloc : SnapshotAlloc := ⟨true, true, true⟩

/-- The point changes, and a pass runs up to the end of its hand-over. -/
def changeThenPass : List SoeOp :=
  [.change (.setYx 1 true 5), .startPass true 6 false] ++ List.replicate 8 (.scheduler everyAlloc)

/-- The event of the change is recorded once. -/
theorem change_recorded_once :
    (Run.exec soeStep (.start oneYxTable) changeThenPass).put = [⟨1, true, 0, 5, 1, 2⟩] ∧
    (soeStep (Run.exec soeStep (.start oneYxTable) changeThenPass)
      (.scheduler everyAlloc)).RecordedOnce := by
  -- one evaluation, so that the run is computed once
  have hrun : (Run.exec soeStep (.start oneYxTable) changeThenPass).put = [⟨1, true, 0, 5, 1, 2⟩] ∧
      Run.Guarded (fun s _ => s.Room) soeStep (.start oneYxTable) changeThenPass ∧
      (Run.exec soeStep (.start oneYxTable) changeThenPass).HandOverEnds ∧
      (Run.exec soeStep (.start oneYxTable) changeThenPass).Undisturbed := by
    decide +kernel
  obtain ⟨hput, hroom, hend, hundisturbed⟩ := hrun
  exact ⟨hput,
    (soe_recorded_once_iff oneYxTable changeThenPass everyAlloc hroom hend).mpr hundisturbed⟩

/-- A command adds an event; then the point changes and a pass runs up to the end of its
hand-over. -/
def addThenPass : List SoeOp :=
  [.soeAdd 1 true 0 3, .command, .command, .change (.setYx 1 true 5), .startPass true 6 false] ++
    List.replicate 10 (.scheduler everyAlloc)

/-- The hand-over takes the added event as well, so that the history has it twice. -/
theorem added_event_recorded_twice :
    Run.Guarded (fun s _ => s.Room) soeStep (.start oneYxTable) addThenPass ∧
    (Run.exec soeStep (.start oneYxTable) addThenPass).HandOverEnds ∧
    ¬(soeStep (Run.exec soeStep (.start oneYxTable) addThenPass)
      (.scheduler everyAlloc)).RecordedOnce ∧
    (Run.exec soeStep (.start oneYxTable) addThenPass).appended.count
      ⟨1, true, 0, 3, 1, 2⟩ = 2 := by
  -- one evaluation, so that the run is computed once
  decide +kernel

end Iec104Slave
