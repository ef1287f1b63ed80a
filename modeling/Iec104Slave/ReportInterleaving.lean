import Iec104Slave.UploadScan
import Iec104Slave.Lib.Run

/-!
# YC commands and scans side by side

`handle_set_yc` of the diagnostic server writes a YC value, puts it into the upload area and
marks it as reported; a scan of the report scheduler puts and marks what it finds
changed. Each of these is a critical section of its own, and the two threads
interleave between them. If a whole put and mark of the scan falls between the put
and the mark of the command, the entry keeps the older value, while the marker
says that the newer one has been reported.

There is one diagnostic thread and one scheduler thread, so one command and one scan run
at a time.

Results:
1. `PointInv`: what holds of one YC point at every step of the two threads.
2. `yc_entry_up_to_date`: when both threads are idle and a scan has begun and ended since the
   last write, every entry is within the dead band of its point, if no command marks
   a value whose entry has been overtaken.
-/

namespace Iec104Slave

open SlotTable Keyed

/-! ## The two threads -/

/-- Where `handle_set_yc` is: after `point_table_set_yc`, before the optional write of the
quality, before the put, before the mark. -/
inductive WriterPc
  | idle
  | wrote (ioa : Int32) (quality : Option UInt8)
  | quality (ioa : Int32) (copy : YcPoint) (quality : UInt8)
  | put (copy : YcPoint)
  | mark (copy : YcPoint)
deriving DecidableEq

/-- The scan in progress. `fresh` says that it began after the last write, and `covered` that
a scan that began after the last write has ended. -/
structure ScanTask where
  pc : ScanPc
  nowMs : UInt64
  force : Bool
  fresh : Bool
  covered : Bool

structure ReportState where
  shared : ScanState
  task : ScanTask
  writer : WriterPc

def ReportState.table (s : ReportState) : PointTable := s.shared.table

def ReportState.area (s : ReportState) : ActiveUploadArea := s.shared.area

def ReportState.withTable (s : ReportState) (table : PointTable) : ReportState :=
  { s with shared := { s.shared with table := table } }

inductive ReportOp
  | setYc (ioa : Int32) (value : ℚ) (nowMs : UInt64) (quality : Option UInt8)
  | writer
  | startScan (alloc : Bool) (nowMs : UInt64) (force : Bool)
  | scan

/-- The next critical section of the command. A copy of a point that was not found is zero;
the results of the put and of the mark are not used. -/
def writerNext (s : ReportState) : ReportState :=
  match s.writer with
  | .idle => s
  | .wrote ioa quality =>
    match pointTableFindYc s.table ioa with
    | none => { s with writer := .idle }
    | some copy =>
      if copy.ioa = 0 then { s with writer := .idle }
      else
        match quality with
        | some q => { s with writer := .quality ioa copy q }
        | none => { s with writer := .put copy }
  | .quality ioa copy q =>
    { s.withTable (s.table.modifyYc ioa fun point => { point with quality := q }) with
      writer := .put { copy with quality := q } }
  | .put copy =>
    { s with
      shared := { s.shared with area := (activeUploadPutYc s.area copy .spontaneous).1 }
      writer := .mark copy }
  | .mark copy =>
    { s.withTable (pointTableMarkYcReported s.table copy.ioa.toInt32 copy.value).1 with
      writer := .idle }

def reportStep (s : ReportState) : ReportOp → ReportState
  | .setYc ioa value nowMs quality =>
    if s.writer = .idle then
      match pointTableSetYc s.table ioa value nowMs with
      | (table, true) =>
        { s.withTable table with
          writer := .wrote ioa quality
          task := { s.task with fresh := false, covered := false } }
      | (_, false) => s
    else s
  | .writer => writerNext s
  | .startScan alloc nowMs force =>
    if s.task.pc = .idle ∧ alloc = true then
      { s with
        shared := .start s.table s.area
        task := { pc := .yx s.table.yx s.table.yc, nowMs := nowMs, force := force, fresh := true
                  covered := s.task.covered } }
    else s
  | .scan =>
    if s.task.pc = .idle then s
    else
      match scanNext s.task.nowMs s.task.force (s.shared, s.task.pc) with
      | (shared, .idle) =>
        { s with
          shared := shared
          task := { s.task with pc := .idle, covered := s.task.covered || s.task.fresh } }
      | (shared, pc) => { s with shared := shared, task := { s.task with pc := pc } }

def ReportState.start (initial : PointTable) : ReportState where
  shared := .start initial (serverUploadArea initial)
  task := { pc := .idle, nowMs := 0, force := false, fresh := false, covered := false }
  writer := .idle

/-! ## What must hold in the end -/

/-- No command and no scan is in progress, and a scan has begun and ended since the last
write. -/
def ReportState.Settled (s : ReportState) : Prop :=
  s.writer = .idle ∧ s.task.pc = .idle ∧ s.task.covered = true

def ReportState.UpToDate (s : ReportState) : Prop :=
  ∀ point ∈ s.table.yc, point.enableSpontaneous = true →
    ∀ e, ycEntryAt s.area point.ioa.toInt32 = some e → |e.value - point.value| < point.deadband

/-- The point between the put and the mark of the scan. -/
def ScanPc.marking : ScanPc → Option YcPoint
  | .markYc point _ => some point
  | _ => none

/-- The YC points that the scan has still to look at. -/
def ScanPc.ycRest : ScanPc → List YcPoint
  | .idle => []
  | .yx _ rest => rest
  | .markYx _ _ rest => rest
  | .yc rest => rest
  | .markYc _ rest => rest

/-- The scan in progress has put the point and will mark it, or will put it. -/
def ScanTask.Reports (task : ScanTask) (ioa : UInt32) : Prop :=
  (∃ point, task.pc.marking = some point ∧ point.ioa = ioa) ∨
  ∃ point ∈ task.pc.ycRest, point.ioa = ioa ∧ (ycCause task.force point).isSome = true

/-- When a command marks a point, its entry is within the dead band of the value that it
marks, or the scan will mark or put the point after it. -/
def ReportOp.Safe (s : ReportState) : ReportOp → Prop
  | .writer => ∀ copy, s.writer = .mark copy →
      ∀ point ∈ s.table.yc, point.ioa = copy.ioa → point.enableSpontaneous = true →
      ∀ e, ycEntryAt s.area copy.ioa.toInt32 = some e →
        |e.value - copy.value| < point.deadband ∨ s.task.Reports copy.ioa
  | _ => True

/-- What `point_table_init_demo` makes sure of: the addresses of the main YC array are
distinct, in the range by which they are found and not zero, and the dead bands are
positive. -/
structure InitialYc (initial : PointTable) : Prop where
  nodup : (initial.yc.map YcPoint.ioa).Nodup
  in_range : ∀ ioa ∈ initial.yc.map YcPoint.ioa, ioaInRange initial.ycMeta.range ioa.toInt32 = true
  ne_zero : ∀ ioa ∈ initial.yc.map YcPoint.ioa, ioa ≠ 0
  deadband : ∀ point ∈ initial.yc, 0 < point.deadband

/-! ## One point -/

/-- The address that the command works on. -/
def WriterPc.ioa : WriterPc → Option UInt32
  | .idle => none
  | .wrote ioa _ => some ioa.toUInt32
  | .quality _ copy _ => some copy.ioa
  | .put copy => some copy.ioa
  | .mark copy => some copy.ioa

def WriterPc.held : WriterPc → Option YcPoint
  | .idle => none
  | .wrote _ _ => none
  | .quality _ copy _ => some copy
  | .put copy => some copy
  | .mark copy => some copy

/-- The put of the command is still to come. -/
def WriterPc.putPending : WriterPc → Bool
  | .idle => false
  | .wrote _ _ => true
  | .quality _ _ _ => true
  | .put _ => true
  | .mark _ => false

/-- The scan in progress, or an earlier one that has ended, saw the last write. -/
def ScanTask.SawWrites (task : ScanTask) : Prop :=
  task.fresh = true ∧ task.pc ≠ .idle ∨ task.covered = true

/-- The invariant of a spontaneous point of the main array, with its entry. Where the command
is not at work on the point, a stale entry is one that a scan will notice or is
about to replace. -/
structure PointInv (point : YcPoint) (entry : Option YcUploadEntry) (writer : WriterPc)
    (task : ScanTask) : Prop where
  deadband : 0 < point.deadband
  held : ∀ copy, writer.held = some copy → copy.ioa = point.ioa → copy.value = point.value
  marking : ∀ q, task.pc.marking = some q → q.ioa = point.ioa →
    (writer.ioa = some point.ioa ∧ writer.putPending = true) ∨
    ∃ e, entry = some e ∧ (e.value = q.value ∨ |e.value - point.value| < point.deadband)
  quiet : writer.ioa ≠ some point.ioa → ∀ e, entry = some e →
    |e.value - point.value| < point.deadband ∨
    point.deadband ≤ |point.value - point.lastSentValue| ∨ task.Reports point.ioa
  current : task.fresh = true → ∀ q, task.pc.marking = some q ∨ q ∈ task.pc.ycRest →
    q.ioa = point.ioa → q.value = point.value
  seen : task.SawWrites →
    |point.value - point.lastSentValue| < point.deadband ∨ task.Reports point.ioa

namespace PointInv

variable {point point' : YcPoint} {entry : Option YcUploadEntry} {writer writer' : WriterPc}
  {task task' : ScanTask}

theorem near_of_eq (h : PointInv point entry writer task) {v w : ℚ} (heq : v = w) :
    |v - w| < point.deadband := by
  rw [heq, sub_self, abs_zero]
  exact h.deadband

/-- A scan with nothing to mark and no points left reports nothing. -/
theorem not_reports {ioa : UInt32} (hmark : task.pc.marking = none)
    (hrest : task.pc.ycRest = []) : ¬task.Reports ioa := by
  rintro (⟨q, hq, _⟩ | ⟨q, hq, _⟩)
  · rw [hmark] at hq
    cases hq
  · rw [hrest] at hq
    cases hq

/-- Steps of the command at other points. -/
theorem otherWriter (h : PointInv point entry writer task) (hne : writer.ioa ≠ some point.ioa)
    (hne' : writer'.ioa ≠ some point.ioa) : PointInv point entry writer' task where
  deadband := h.deadband
  held := by
    intro copy hheld hioa
    refine absurd ?_ hne'
    rw [← hioa]
    cases writer' <;> cases hheld <;> rfl
  marking := fun q hq hioa => .inr ((h.marking q hq hioa).resolve_left fun hw => hne hw.1)
  quiet := fun _ => h.quiet hne
  current := h.current
  seen := h.seen

/-- Steps of the command that neither put nor mark. -/
theorem carry (h : PointInv point entry writer task) (hioa : writer'.ioa = writer.ioa)
    (hpending : writer'.putPending = writer.putPending)
    (hheld : ∀ copy, writer'.held = some copy → copy.ioa = point.ioa → copy.value = point.value) :
    PointInv point entry writer' task where
  deadband := h.deadband
  held := hheld
  marking := by rw [hioa, hpending]; exact h.marking
  quiet := by rw [hioa]; exact h.quiet
  current := h.current
  seen := h.seen

theorem withQuality (h : PointInv point entry writer task) (quality : UInt8) :
    PointInv { point with quality := quality } entry writer task :=
  ⟨h.deadband, h.held, h.marking, h.quiet, h.current, h.seen⟩

/-- The write of the command: it will put the new value itself. -/
theorem write (h : PointInv point entry .idle task) {ioa : Int32}
    (hioa : ioa.toUInt32 = point.ioa) (value : ℚ) (nowMs : UInt64) (quality : Option UInt8) :
    PointInv { point with value := value, timestampMs := nowMs } entry (.wrote ioa quality)
      { task with fresh := false, covered := false } where
  deadband := h.deadband
  held := by rintro _ ⟨⟩
  -- what the scan has put may be stale now, but the put of the command replaces it
  marking := fun _ _ _ => .inl ⟨congrArg some hioa, rfl⟩
  quiet := fun hne => absurd (congrArg some hioa) hne
  current := nofun
  seen := by rintro (⟨hfresh, _⟩ | hcovered) <;> contradiction

theorem writeOther (h : PointInv point entry .idle task) (ioa : Int32)
    (quality : Option UInt8) :
    PointInv point entry (.wrote ioa quality) { task with fresh := false, covered := false } where
  deadband := h.deadband
  held := by rintro _ ⟨⟩
  marking := fun q hq hq' => .inr ((h.marking q hq hq').resolve_left fun hw => nomatch hw.1)
  quiet := fun _ => h.quiet nofun
  current := nofun
  seen := by rintro (⟨hfresh, _⟩ | hcovered) <;> contradiction

theorem writerPut {copy : YcPoint} (h : PointInv point entry (.put copy) task)
    (hioa : copy.ioa = point.ioa) {e : YcUploadEntry} (he : e.value = copy.value) :
    PointInv point (some e) (.mark copy) task where
  deadband := h.deadband
  held := h.held
  marking := by
    intro q _ _
    exact .inr ⟨e, rfl, .inr (h.near_of_eq (he.trans (h.held copy rfl hioa)))⟩
  quiet := fun hne => absurd (congrArg some hioa) hne
  current := h.current
  seen := h.seen

theorem writerMark {copy : YcPoint} (h : PointInv point entry (.mark copy) task)
    (hioa : copy.ioa = point.ioa)
    (hsafe : ∀ e, entry = some e →
      |e.value - copy.value| < point.deadband ∨ task.Reports copy.ioa) :
    PointInv { point with lastSentValue := copy.value } entry .idle task where
  deadband := h.deadband
  held := by rintro _ ⟨⟩
  marking := fun q hq hq' => .inr ((h.marking q hq hq').resolve_left fun hw => nomatch hw.2)
  quiet := by
    intro _ e he
    have hvalue : copy.value = point.value := h.held copy rfl hioa
    rcases hsafe e he with hnear | hreports
    · exact .inl (hvalue ▸ hnear)
    · exact .inr (.inr (hioa ▸ hreports))
  current := h.current
  seen := by
    intro _
    exact .inl (h.near_of_eq (h.held copy rfl hioa).symm)

/-- A scan starts with a copy of the point, and will report it if it has changed. -/
theorem startScan (h : PointInv point entry writer task) (hidle : task.pc = .idle)
    (hspont : point.enableSpontaneous = true) {yx : List YxPoint} {yc : List YcPoint}
    (hmem : point ∈ yc) (huniq : ∀ q ∈ yc, q.ioa = point.ioa → q = point) (nowMs : UInt64)
    (force : Bool) :
    PointInv point entry writer
      { pc := .yx yx yc, nowMs := nowMs, force := force, fresh := true
        covered := task.covered } where
  deadband := h.deadband
  held := h.held
  marking := by rintro _ ⟨⟩
  quiet := by
    intro hne e he
    -- the scan before this one has ended, so it is for this one to see a stale entry
    have hnone : ¬task.Reports point.ioa := not_reports (hidle ▸ rfl) (hidle ▸ rfl)
    exact (h.quiet hne e he).imp_right fun hcase => .inl (hcase.resolve_right hnone)
  current := by
    rintro _ q (hq | hq) hioa
    · cases hq
    · rw [huniq q hq hioa]
  seen := by
    intro _
    by_cases hnear : |point.value - point.lastSentValue| < point.deadband
    · exact .inl hnear
    · refine .inr (.inr ⟨point, hmem, rfl, ?_⟩)
      rw [ycCause, if_pos ⟨hspont, not_lt.mp hnear⟩]
      rfl

/-- Steps of the scan over YX points. -/
theorem yxStep (h : PointInv point entry writer task) {pc : ScanPc}
    (hmark : pc.marking = task.pc.marking) (hrest : pc.ycRest = task.pc.ycRest)
    (hbusy : task.pc ≠ .idle) : PointInv point entry writer { task with pc := pc } where
  deadband := h.deadband
  held := h.held
  marking := by rw [hmark]; exact h.marking
  quiet := by
    simp only [ScanTask.Reports, hmark, hrest]
    exact h.quiet
  current := by rw [hmark, hrest]; exact h.current
  seen := by
    simp only [ScanTask.Reports, hmark, hrest]
    exact fun hsaw => h.seen (hsaw.imp_left fun hfresh => ⟨hfresh.1, hbusy⟩)

/-- The scan leaves a point of its list behind. -/
theorem reports_cons {q : YcPoint} {qs : List YcPoint} {ioa : UInt32}
    (hpc : task.pc = .yc (q :: qs)) (h : task.Reports ioa) :
    q.ioa = ioa ∧ (ycCause task.force q).isSome = true ∨
      ∃ q' ∈ qs, q'.ioa = ioa ∧ (ycCause task.force q').isSome = true := by
  rw [ScanTask.Reports, hpc] at h
  rcases h with ⟨q', hq', _⟩ | ⟨q', hq', hioa⟩
  · cases hq'
  · rcases List.mem_cons.mp hq' with rfl | hq'
    · exact .inl hioa
    · exact .inr ⟨q', hq', hioa⟩

theorem dropHead (h : PointInv point entry writer task) {q : YcPoint} {qs : List YcPoint}
    (hpc : task.pc = .yc (q :: qs)) {pc : ScanPc} (hrest : pc.ycRest = qs)
    (hmark : ∀ q', pc.marking = some q' → q'.ioa ≠ point.ioa)
    (hdone : ¬(q.ioa = point.ioa ∧ (ycCause task.force q).isSome = true)) :
    PointInv point entry writer { task with pc := pc } := by
  have hreports : task.Reports point.ioa →
      ScanTask.Reports { task with pc := pc } point.ioa := fun hr =>
    .inr (hrest ▸ (reports_cons hpc hr).resolve_left hdone)
  refine ⟨h.deadband, h.held, fun q' hq' hioa => absurd hioa (hmark q' hq'), fun hne e he => ?_,
    fun hfresh q' hq' hioa => ?_, fun hsaw => ?_⟩
  · exact (h.quiet hne e he).imp_right fun hcase => hcase.imp_right hreports
  · refine h.current hfresh q' (.inr ?_) hioa
    rw [hpc]
    exact .tail q (hrest ▸ hq'.resolve_left fun hm => hmark q' hm hioa)
  · refine (h.seen (hsaw.imp_left fun hfresh => ⟨hfresh.1, ?_⟩)).imp_right hreports
    rw [hpc]
    exact nofun

theorem scanPut (h : PointInv point entry writer task) {q : YcPoint} {qs : List YcPoint}
    (hpc : task.pc = .yc (q :: qs)) (hioa : q.ioa = point.ioa) {e : YcUploadEntry}
    (he : e.value = q.value) (nowMs : UInt64) :
    PointInv point (some e) writer { task with pc := .markYc (stampYc nowMs q) qs } := by
  have hreports : ScanTask.Reports { task with pc := .markYc (stampYc nowMs q) qs } point.ioa :=
    .inl ⟨stampYc nowMs q, rfl, hioa⟩
  refine ⟨h.deadband, h.held, fun r hr _ => ?_, fun _ _ _ => .inr (.inr hreports),
    fun hfresh r hr hr' => ?_, fun _ => .inr hreports⟩
  · cases hr
    exact .inr ⟨e, rfl, .inl he⟩
  · rcases hr with hr | hr
    · cases hr
      exact h.current hfresh q (.inr (hpc ▸ .head qs)) hioa
    · exact h.current hfresh r (.inr (hpc ▸ .tail q hr)) hr'

theorem scanMark (h : PointInv point entry writer task) {q : YcPoint} {qs : List YcPoint}
    (hpc : task.pc = .markYc q qs) (hioa : q.ioa = point.ioa)
    (hfresh : task.covered = true → task.fresh = true) :
    PointInv { point with lastSentValue := q.value } entry writer { task with pc := .yc qs } where
  deadband := h.deadband
  held := h.held
  marking := by rintro _ ⟨⟩
  quiet := by
    intro hne e he
    obtain ⟨e', he', hcase⟩ := (h.marking q (hpc ▸ rfl) hioa).resolve_left fun hw => hne hw.1
    obtain rfl : e' = e := Option.some.inj (he'.symm.trans he)
    rcases hcase with hsent | hnear
    · -- The entry has the value that is now marked: if it is stale, the next scan sees it.
      rcases lt_or_ge |e'.value - point.value| point.deadband with hnear | hfar
      · exact .inl hnear
      · rw [abs_sub_comm, hsent] at hfar
        exact .inr (.inl hfar)
    · exact .inl hnear
  current := fun hf r hr hr' => h.current hf r (.inr (hpc ▸ hr.resolve_left nofun)) hr'
  seen := by
    intro hsaw
    have hvalue : q.value = point.value :=
      h.current (hsaw.elim And.left hfresh) q (.inl (hpc ▸ rfl)) hioa
    exact .inl (h.near_of_eq hvalue.symm)

theorem scanMarkOther (h : PointInv point entry writer task) {q : YcPoint} {qs : List YcPoint}
    (hpc : task.pc = .markYc q qs) (hioa : q.ioa ≠ point.ioa) :
    PointInv point entry writer { task with pc := .yc qs } := by
  have hreports : task.Reports point.ioa →
      ScanTask.Reports { task with pc := .yc qs } point.ioa := by
    rw [ScanTask.Reports, hpc]
    rintro (⟨q', hq', hioa'⟩ | hrest)
    · cases hq'
      exact absurd hioa' hioa
    · exact .inr hrest
  refine ⟨h.deadband, h.held, by rintro _ ⟨⟩, fun hne e he => ?_, fun hfresh r hr hr' => ?_,
    fun hsaw => ?_⟩
  · exact (h.quiet hne e he).imp_right fun hcase => hcase.imp_right hreports
  · exact h.current hfresh r (.inr (hpc ▸ hr.resolve_left nofun)) hr'
  · refine (h.seen (hsaw.imp_left fun hfresh => ⟨hfresh.1, ?_⟩)).imp_right hreports
    rw [hpc]
    exact nofun

theorem scanEnd (h : PointInv point entry writer task) (hpc : task.pc = .yc []) :
    PointInv point entry writer
      { task with pc := .idle, covered := task.covered || task.fresh } := by
  have hnone : ¬task.Reports point.ioa := not_reports (hpc ▸ rfl) (hpc ▸ rfl)
  refine ⟨h.deadband, h.held, by rintro _ ⟨⟩, fun hne e he => ?_, fun _ q hq => ?_,
    fun hsaw => .inl ?_⟩
  · exact (h.quiet hne e he).imp_right fun hcase => .inl (hcase.resolve_right hnone)
  · rcases hq with hq | hq <;> cases hq
  · refine (h.seen ?_).resolve_right hnone
    rcases hsaw with ⟨_, hidle⟩ | hcovered
    · exact absurd rfl hidle
    · rcases Bool.or_eq_true_iff.mp hcovered with hcovered | hfresh
      · exact .inr hcovered
      · exact .inl ⟨hfresh, by rw [hpc]; exact nofun⟩

/-- With both threads idle after a scan that saw the last write, the entry is up to date. -/
theorem settled (h : PointInv point entry .idle task) (hidle : task.pc = .idle)
    (hcovered : task.covered = true) {e : YcUploadEntry} (he : entry = some e) :
    |e.value - point.value| < point.deadband := by
  have hnone : ¬task.Reports point.ioa := not_reports (hidle ▸ rfl) (hidle ▸ rfl)
  have hsent := (h.seen (.inr hcovered)).resolve_right hnone
  refine (h.quiet nofun e he).resolve_right fun hcase => ?_
  exact absurd (hcase.resolve_right hnone) (not_le.mpr hsent)

end PointInv

/-! ## Updates of the main array -/

namespace ReportInterleavingLemmas

open UploadScanLemmas

variable {initial table : PointTable} {area : ActiveUploadArea} {ioa : Int32}

/-- The facts about the main array that the plan of addresses gives. -/
structure MainYc (table : PointTable) : Prop where
  nodup : (table.yc.map YcPoint.ioa).Nodup
  in_range : ∀ point ∈ table.yc, ioaInRange table.ycMeta.range point.ioa.toInt32 = true
  ne_zero : ∀ point ∈ table.yc, point.ioa ≠ 0

theorem mainYc_of_plan (hi : InitialYc initial) (hplan : table.plan = initial.plan) :
    MainYc table := by
  have hkeys : table.yc.map YcPoint.ioa = initial.yc.map YcPoint.ioa :=
    congrArg AddressPlan.yc hplan
  have hrange : table.ycMeta.range = initial.ycMeta.range := congrArg AddressPlan.ycRange hplan
  have hmem : ∀ point ∈ table.yc, point.ioa ∈ initial.yc.map YcPoint.ioa := fun point hp =>
    hkeys ▸ List.mem_map_of_mem hp
  exact ⟨hkeys ▸ hi.nodup, fun point hp => hrange ▸ hi.in_range _ (hmem point hp),
    fun point hp => hi.ne_zero _ (hmem point hp)⟩

theorem yc_modifyYc_other (h : ioaInRange table.ycMeta.range ioa = false)
    (f : YcPoint → YcPoint) : (table.modifyYc ioa f).yc = table.yc := by
  unfold PointTable.modifyYc
  rw [h, if_neg Bool.false_ne_true]
  split
  · rfl
  · split
    · rfl
    · split <;> rfl

theorem findYc_main (h : MainYc table) {point : YcPoint} (hp : point ∈ table.yc)
    (hioa : point.ioa = ioa.toUInt32) : pointTableFindYc table ioa = some point := by
  have hrange := h.in_range point hp
  rw [hioa, Int32.toInt32_toUInt32] at hrange
  rw [pointTableFindYc, if_pos hrange]
  exact (findKey_eq_some_iff h.nodup).mpr ⟨hp, hioa⟩

theorem findYc_some {point : YcPoint} (h : pointTableFindYc table ioa = some point) :
    point.ioa = ioa.toUInt32 ∧ point ∈ table.ycPoints := by
  simp only [PointTable.ycPoints, List.mem_append]
  unfold pointTableFindYc at h
  split at h
  · exact ⟨findKey_some h, .inl (.inl (.inl (findKey_mem h)))⟩
  · split at h
    · exact ⟨findKey_some h, .inl (.inl (.inr (findKey_mem h)))⟩
    · split at h
      · exact ⟨findKey_some h, .inl (.inr (findKey_mem h))⟩
      · split at h
        · exact ⟨findKey_some h, .inr (findKey_mem h)⟩
        · cases h

theorem mem_modifyYc (h : MainYc table) {f : YcPoint → YcPoint} (hf : ∀ p, (f p).ioa = p.ioa)
    {point : YcPoint} (hp : point ∈ (table.modifyYc ioa f).yc) :
    (∃ before ∈ table.yc, before.ioa = ioa.toUInt32 ∧ point = f before) ∨
      point ∈ table.yc ∧ point.ioa ≠ ioa.toUInt32 := by
  cases hrange : ioaInRange table.ycMeta.range ioa with
  | true =>
    rw [PointTable.modifyYc, if_pos hrange] at hp
    rcases (mem_modifyKey hf h.nodup).mp hp with ⟨before, hfind, rfl⟩ | hother
    · exact .inl ⟨before, findKey_mem hfind, findKey_some hfind, rfl⟩
    · exact .inr hother
  | false =>
    rw [yc_modifyYc_other hrange] at hp
    refine .inr ⟨hp, fun hioa => ?_⟩
    have hin := h.in_range point hp
    rw [hioa, Int32.toInt32_toUInt32, hrange] at hin
    cases hin

theorem ioa_ne_of_findYc_none (h : MainYc table) (hnone : pointTableFindYc table ioa = none)
    {point : YcPoint} (hp : point ∈ table.yc) : point.ioa ≠ ioa.toUInt32 := by
  intro hioa
  rw [findYc_main h hp hioa] at hnone
  cases hnone

theorem mem_setYc (h : MainYc table) {value : ℚ} {nowMs : UInt64} {point : YcPoint}
    (hp : point ∈ (pointTableSetYc table ioa value nowMs).1.yc) :
    (∃ before ∈ table.yc, before.ioa = ioa.toUInt32 ∧
      point = { before with value := value, timestampMs := nowMs }) ∨
      point ∈ table.yc ∧ point.ioa ≠ ioa.toUInt32 := by
  unfold pointTableSetYc at hp
  split at hp
  · next hnone => exact .inr ⟨hp, ioa_ne_of_findYc_none h hnone hp⟩
  · refine mem_modifyYc h ?_ hp
    exact fun _ => rfl

theorem mem_markYc (h : MainYc table) {value : ℚ} {point : YcPoint}
    (hp : point ∈ (pointTableMarkYcReported table ioa value).1.yc) :
    (∃ before ∈ table.yc, before.ioa = ioa.toUInt32 ∧
      point = { before with lastSentValue := value }) ∨
      point ∈ table.yc ∧ point.ioa ≠ ioa.toUInt32 := by
  unfold pointTableMarkYcReported at hp
  split at hp
  · next hnone => exact .inr ⟨hp, ioa_ne_of_findYc_none h hnone hp⟩
  · refine mem_modifyYc h ?_ hp
    exact fun _ => rfl

/-! ## The invariant of the two threads -/

/-- The YX points that the scan has still to look at, or is marking. -/
def yxRest : ScanPc → List YxPoint
  | .yx points _ => points
  | .markYx point points _ => point :: points
  | _ => []

structure ReportInv (initial : PointTable) (s : ReportState) : Prop where
  upload : UploadInv initial s.table s.area
  points : ∀ point ∈ s.table.yc, point.enableSpontaneous = true →
    PointInv point (ycEntryAt s.area point.ioa.toInt32) s.writer s.task
  covered : s.task.covered = true → s.task.pc ≠ .idle → s.task.fresh = true
  held : ∀ copy, s.writer.held = some copy → copy.ioa ∈ initial.ycPoints.map YcPoint.ioa
  yx : ∀ q ∈ yxRest s.task.pc, q.ioa ∈ initial.yx.map YxPoint.ioa
  yc : ∀ q, s.task.pc.marking = some q ∨ q ∈ s.task.pc.ycRest →
    q.ioa ∈ initial.yc.map YcPoint.ioa

variable {s : ReportState}

theorem ReportInv.main (hi : InitialYc initial) (h : ReportInv initial s) : MainYc s.table :=
  mainYc_of_plan hi h.upload.plan

theorem ycPoints_plan (hplan : table.plan = initial.plan) :
    table.ycPoints.map YcPoint.ioa = initial.ycPoints.map YcPoint.ioa := by
  simp only [PointTable.ycPoints, List.map_append]
  rw [show table.yc.map YcPoint.ioa = initial.yc.map YcPoint.ioa from
      congrArg AddressPlan.yc hplan,
    show table.ycRtu.map YcPoint.ioa = initial.ycRtu.map YcPoint.ioa from
      congrArg AddressPlan.ycRtu hplan,
    show table.ycSensorConf.map YcPoint.ioa = initial.ycSensorConf.map YcPoint.ioa from
      congrArg AddressPlan.ycSensorConf hplan,
    show table.ycCustom.map YcPoint.ioa = initial.ycCustom.map YcPoint.ioa from
      congrArg AddressPlan.ycCustom hplan]

theorem toInt32_ne {a b : UInt32} (h : a ≠ b) : a.toInt32 ≠ b.toInt32 := fun heq =>
  h (toInt32_eq_iff.mp heq)

/-- The write of a command. -/
theorem reportInv_setYc (hi : InitialYc initial) (h : ReportInv initial s)
    (hidle : s.writer = .idle) (ioa : Int32) (value : ℚ) (nowMs : UInt64)
    (quality : Option UInt8) :
    ReportInv initial { s.withTable (pointTableSetYc s.table ioa value nowMs).1 with
      writer := .wrote ioa quality
      task := { s.task with fresh := false, covered := false } } where
  upload := h.upload.withTable (plan_setYc value nowMs)
  points := by
    intro point hp hspont
    rcases mem_setYc (h.main hi) hp with ⟨before, hbefore, hioa, rfl⟩ | ⟨hp, _⟩
    · have hinv := h.points before hbefore hspont
      rw [hidle] at hinv
      exact hinv.write hioa.symm value nowMs quality
    · have hinv := h.points point hp hspont
      rw [hidle] at hinv
      exact hinv.writeOther ioa quality
  covered := nofun
  held := by rintro _ ⟨⟩
  yx := h.yx
  yc := h.yc

/-- The command takes its copy, or gives up where there is none. -/
theorem reportInv_copy (hi : InitialYc initial) (h : ReportInv initial s) {quality : Option UInt8}
    (hw : s.writer = .wrote ioa quality) : ReportInv initial (writerNext s) := by
  have hgive : (∀ point ∈ s.table.yc, point.ioa ≠ ioa.toUInt32) →
      ReportInv initial { s with writer := .idle } := by
    intro hne
    refine ⟨h.upload, fun point hp hspont => ?_, h.covered, by rintro _ ⟨⟩, h.yx, h.yc⟩
    refine (h.points point hp hspont).otherWriter ?_ nofun
    rw [hw]
    exact fun heq => hne point hp (Option.some.inj heq).symm
  have hcarry : ∀ copy writer', pointTableFindYc s.table ioa = some copy →
      writer'.held = some copy → writer'.ioa = some copy.ioa → writer'.putPending = true →
      ReportInv initial { s with writer := writer' } := by
    intro copy writer' hfind hheld hioa hpending
    obtain ⟨hcopy, hmem⟩ := findYc_some hfind
    refine ⟨h.upload, fun point hp hspont => ?_, h.covered, fun copy' hcopy' => ?_, h.yx, h.yc⟩
    · refine (h.points point hp hspont).carry ?_ ?_ fun copy' hcopy' hpoint => ?_
      · rw [hw, hioa, hcopy]
        rfl
      · rw [hw, hpending]
        rfl
      · cases hheld.symm.trans hcopy'
        rw [findYc_main (h.main hi) hp (hpoint.symm.trans hcopy)] at hfind
        cases hfind
        rfl
    · cases hheld.symm.trans hcopy'
      exact ycPoints_plan h.upload.plan ▸ List.mem_map_of_mem hmem
  unfold writerNext
  rw [hw]
  dsimp only
  split
  · next hnone =>
    refine hgive fun point hp hioa => ?_
    rw [findYc_main (h.main hi) hp hioa] at hnone
    cases hnone
  · next copy hfind =>
    split
    · next hzero =>
      refine hgive fun point hp hioa => (h.main hi).ne_zero point hp ?_
      rw [hioa, ← (findYc_some hfind).1, hzero]
    · cases quality with
      | some q => exact hcarry copy _ hfind rfl rfl rfl
      | none => exact hcarry copy _ hfind rfl rfl rfl

theorem reportInv_quality (hi : InitialYc initial) (h : ReportInv initial s) {copy : YcPoint}
    {q : UInt8} (hw : s.writer = .quality ioa copy q) : ReportInv initial (writerNext s) := by
  have hnext : writerNext s = { s.withTable (s.table.modifyYc ioa fun point =>
      { point with quality := q }) with writer := .put { copy with quality := q } } := by
    rw [writerNext, hw]
  rw [hnext]
  have hcarry : ∀ point ∈ s.table.yc, point.enableSpontaneous = true →
      PointInv point (ycEntryAt s.area point.ioa.toInt32) (.put { copy with quality := q })
        s.task := by
    intro point hp hspont
    have hinv := h.points point hp hspont
    rw [hw] at hinv
    refine hinv.carry rfl rfl fun copy' hcopy' hpoint => ?_
    cases hcopy'
    exact hinv.held copy rfl hpoint
  refine ⟨h.upload.withTable (plan_modifyYc fun _ => rfl), fun point hp hspont => ?_, h.covered,
    fun copy' hcopy' => ?_, h.yx, h.yc⟩
  · have hcases := mem_modifyYc (f := fun point => { point with quality := q }) (h.main hi)
      (fun _ => rfl) hp
    rcases hcases with ⟨before, hbefore, _, rfl⟩ | ⟨hp, _⟩
    · exact (hcarry before hbefore hspont).withQuality q
    · exact hcarry point hp hspont
  · cases hcopy'
    exact h.held copy (hw ▸ rfl)

theorem reportInv_writerPut (h : ReportInv initial s) {copy : YcPoint} (hw : s.writer = .put copy) :
    ReportInv initial (writerNext s) := by
  have hnext : writerNext s = { s with
      shared := { s.shared with area := uploadStep s.area (.putYc copy .spontaneous) }
      writer := .mark copy } := by
    rw [writerNext, hw]
    rfl
  rw [hnext]
  have hheld := h.held copy (hw ▸ rfl)
  refine ⟨(h.upload.put (.putYc copy .spontaneous) hheld).1, fun point hp hspont => ?_, h.covered,
    fun copy' hcopy' => ?_, h.yx, h.yc⟩
  · have hentry := ycEntryAt_putYc h.upload copy .spontaneous hheld point.ioa.toInt32
    have hinv := h.points point hp hspont
    rw [hw] at hinv
    show PointInv point (ycEntryAt (uploadStep s.area _) _) _ _
    by_cases hioa : copy.ioa = point.ioa
    · rw [hentry, if_pos (congrArg _ hioa.symm)]
      exact hinv.writerPut hioa rfl
    · rw [hentry, if_neg (toInt32_ne (Ne.symm hioa))]
      exact hinv.otherWriter (fun heq => hioa (Option.some.inj heq))
        fun heq => hioa (Option.some.inj heq)
  · cases hcopy'
    exact hheld

theorem reportInv_writerMark (hi : InitialYc initial) (h : ReportInv initial s) {copy : YcPoint}
    (hw : s.writer = .mark copy) (hsafe : ReportOp.Safe s .writer) :
    ReportInv initial (writerNext s) := by
  have hnext : writerNext s = { s.withTable
      (pointTableMarkYcReported s.table copy.ioa.toInt32 copy.value).1 with writer := .idle } := by
    rw [writerNext, hw]
  rw [hnext]
  refine ⟨h.upload.withTable (plan_markYcReported _), fun point hp hspont => ?_, h.covered,
    by rintro _ ⟨⟩, h.yx, h.yc⟩
  rcases mem_markYc (h.main hi) hp with ⟨before, hbefore, hioa, rfl⟩ | ⟨hp, hioa⟩
  · rw [UInt32.toUInt32_toInt32] at hioa
    have hinv := h.points before hbefore hspont
    rw [hw] at hinv
    exact hinv.writerMark hioa.symm fun e he =>
      hsafe copy hw before hbefore hioa hspont e (hioa ▸ he)
  · rw [UInt32.toUInt32_toInt32] at hioa
    have hinv := h.points point hp hspont
    rw [hw] at hinv
    exact hinv.otherWriter (fun heq => hioa (Option.some.inj heq).symm) nofun

theorem reportInv_startScan (hi : InitialYc initial) (h : ReportInv initial s)
    (hidle : s.task.pc = .idle) (nowMs : UInt64) (force : Bool) :
    ReportInv initial { s with
      shared := .start s.table s.area
      task := { pc := .yx s.table.yx s.table.yc, nowMs := nowMs, force := force, fresh := true
                covered := s.task.covered } } where
  upload := h.upload
  points := by
    intro point hp hspont
    refine (h.points point hp hspont).startScan hidle hspont hp (fun q hq hioa => ?_) nowMs force
    exact List.inj_on_of_nodup_map (h.main hi).nodup hq hp hioa
  covered := fun _ _ => rfl
  held := h.held
  yx := fun q hq => h.upload.yx_mem hq
  yc := by
    rintro q (hq | hq)
    · cases hq
    · have hkeys : s.table.yc.map YcPoint.ioa = initial.yc.map YcPoint.ioa :=
        congrArg AddressPlan.yc h.upload.plan
      exact hkeys ▸ List.mem_map_of_mem hq

theorem reportStep_scan (hpc : s.task.pc ≠ .idle) {shared : ScanState} {pc : ScanPc}
    (h : scanNext s.task.nowMs s.task.force (s.shared, s.task.pc) = (shared, pc))
    (hne : pc ≠ .idle) :
    reportStep s .scan = { s with shared := shared, task := { s.task with pc := pc } } := by
  simp only [reportStep, if_neg hpc, h]

/-- A step of the scan over the YX points. -/
theorem reportInv_yxStep (h : ReportInv initial s) {shared : ScanState} {pc : ScanPc}
    (hbusy : s.task.pc ≠ .idle)
    (hnext : scanNext s.task.nowMs s.task.force (s.shared, s.task.pc) = (shared, pc))
    (hpc : pc ≠ .idle) (hupload : UploadInv initial shared.table shared.area)
    (hyc : shared.table.yc = s.table.yc)
    (hentry : ∀ ioa, ycEntryAt shared.area ioa = ycEntryAt s.area ioa)
    (hmark : pc.marking = s.task.pc.marking) (hrest : pc.ycRest = s.task.pc.ycRest)
    (hyx : ∀ q ∈ yxRest pc, q.ioa ∈ initial.yx.map YxPoint.ioa) :
    ReportInv initial (reportStep s .scan) := by
  rw [reportStep_scan hbusy hnext hpc]
  refine ⟨hupload, fun point hp hspont => ?_, fun hcov _ => h.covered hcov hbusy, h.held, hyx, ?_⟩
  · show PointInv point (ycEntryAt shared.area _) _ _
    rw [hentry]
    exact (h.points point (hyc ▸ hp) hspont).yxStep hmark hrest hbusy
  · show ∀ q, pc.marking = some q ∨ q ∈ pc.ycRest → _
    rw [hmark, hrest]
    exact h.yc

theorem yc_markYx (shared : ScanState) (point : YxPoint) :
    (markYx shared point).table.yc = shared.table.yc := by
  unfold markYx pointTableMarkYxReported
  split <;> rfl

theorem reportInv_scanYx (h : ReportInv initial s) {q : YxPoint} {qs : List YxPoint}
    {yc : List YcPoint} (hpc : s.task.pc = .yx (q :: qs) yc) :
    ReportInv initial (reportStep s .scan) := by
  have hbusy : s.task.pc ≠ .idle := by rw [hpc]; rintro ⟨⟩
  have hyx := h.yx
  rw [hpc] at hyx
  cases hchanged : yxChanged q with
  | false =>
    have hnext : scanNext s.task.nowMs s.task.force (s.shared, s.task.pc) =
        (s.shared, .yx qs yc) := by
      rw [hpc, scanNext, if_neg (by simp [hchanged])]
    exact reportInv_yxStep h hbusy hnext (by rintro ⟨⟩) h.upload rfl (fun _ => rfl) (hpc ▸ rfl)
      (hpc ▸ rfl) fun r hr => hyx r (.tail q hr)
  | true =>
    have hq := hyx q (.head qs)
    have hput : publishYxChange s.shared (stampYx s.task.nowMs q) = _ := publishYx_eq h.upload hq
    have hnext : scanNext s.task.nowMs s.task.force (s.shared, s.task.pc) =
        ({ s.shared with
           area := uploadStep s.area (.putYx (stampYx s.task.nowMs q) q.enableSoe)
           hasYx := true
           hasSoe := s.shared.hasSoe || q.enableSoe },
         .markYx (stampYx s.task.nowMs q) qs yc) := by
      rw [hpc, scanNext, if_pos hchanged, hput]
      rfl
    refine reportInv_yxStep h hbusy hnext (by rintro ⟨⟩)
      (h.upload.put (.putYx (stampYx _ q) q.enableSoe) hq).1 rfl (ycEntryAt_putYx _ _)
      (hpc ▸ rfl) (hpc ▸ rfl) fun r hr => ?_
    rcases List.mem_cons.mp hr with rfl | hr
    · exact hq
    · exact hyx r (.tail q hr)

theorem reportInv_scanYc (h : ReportInv initial s) {q : YcPoint} {qs : List YcPoint}
    (hpc : s.task.pc = .yc (q :: qs)) : ReportInv initial (reportStep s .scan) := by
  have hbusy : s.task.pc ≠ .idle := by rw [hpc]; rintro ⟨⟩
  have hyc := h.yc
  rw [hpc] at hyc
  cases hcause : ycCause s.task.force q with
  | none =>
    have hnext : scanNext s.task.nowMs s.task.force (s.shared, s.task.pc) =
        (s.shared, .yc qs) := by
      rw [hpc, scanNext, hcause]
    rw [reportStep_scan hbusy hnext (by rintro ⟨⟩)]
    refine ⟨h.upload, fun point hp hspont => ?_, fun hcov _ => h.covered hcov hbusy, h.held,
      by rintro _ ⟨⟩, fun r hr => hyc r (.inr (.tail q (hr.resolve_left (by rintro ⟨⟩))))⟩
    exact (h.points point hp hspont).dropHead hpc rfl (by rintro _ ⟨⟩) (by simp [hcause])
  | some cot =>
    have hq : q.ioa ∈ initial.ycPoints.map YcPoint.ioa := by
      simp only [PointTable.ycPoints, List.map_append, List.mem_append]
      exact .inl (.inl (.inl (hyc q (.inr (.head qs)))))
    have hput : publishYcChange s.shared (stampYc s.task.nowMs q) cot = _ :=
      publishYc_eq h.upload cot hq
    have hnext : scanNext s.task.nowMs s.task.force (s.shared, s.task.pc) =
        ({ s.shared with
           area := uploadStep s.area (.putYc (stampYc s.task.nowMs q) cot)
           hasYc := true },
         .markYc (stampYc s.task.nowMs q) qs) := by
      simp only [hpc, scanNext, hcause, hput]
      rfl
    rw [reportStep_scan hbusy hnext (by rintro ⟨⟩)]
    refine ⟨(h.upload.put (.putYc (stampYc s.task.nowMs q) cot) hq).1, fun point hp hspont => ?_,
      fun hcov _ => h.covered hcov hbusy, h.held, by rintro _ ⟨⟩, fun r hr => ?_⟩
    · have hentry := ycEntryAt_putYc h.upload (stampYc s.task.nowMs q) cot hq point.ioa.toInt32
      rw [stampYc_ioa] at hentry
      show PointInv point (ycEntryAt (uploadStep s.area _) _) _ _
      by_cases hioa : q.ioa = point.ioa
      · rw [hentry, if_pos (congrArg _ hioa.symm)]
        exact (h.points point hp hspont).scanPut hpc hioa rfl s.task.nowMs
      · rw [hentry, if_neg (toInt32_ne (Ne.symm hioa))]
        refine (h.points point hp hspont).dropHead hpc rfl (fun r hr => ?_)
          fun hdone => hioa hdone.1
        cases hr
        exact hioa
    · rcases hr with hr | hr
      · cases hr
        exact hyc q (.inr (.head qs))
      · exact hyc r (.inr (.tail q hr))

theorem reportInv_scanMark (hi : InitialYc initial) (h : ReportInv initial s) {q : YcPoint}
    {qs : List YcPoint} (hpc : s.task.pc = .markYc q qs) :
    ReportInv initial (reportStep s .scan) := by
  have hbusy : s.task.pc ≠ .idle := by rw [hpc]; rintro ⟨⟩
  have hnext : scanNext s.task.nowMs s.task.force (s.shared, s.task.pc) =
      (markYc s.shared q, .yc qs) := by
    rw [hpc, scanNext]
  rw [reportStep_scan hbusy hnext (by rintro ⟨⟩)]
  refine ⟨h.upload.withTable (plan_markYcReported _), fun point hp hspont => ?_,
    fun hcov _ => h.covered hcov hbusy, h.held, by rintro _ ⟨⟩,
    fun r hr => h.yc r (.inr (hpc ▸ hr.resolve_left (by rintro ⟨⟩)))⟩
  rcases mem_markYc (h.main hi) hp with ⟨before, hbefore, hioa, rfl⟩ | ⟨hp, hioa⟩
  · rw [UInt32.toUInt32_toInt32] at hioa
    exact (h.points before hbefore hspont).scanMark hpc hioa.symm fun hcov => h.covered hcov hbusy
  · rw [UInt32.toUInt32_toInt32] at hioa
    exact (h.points point hp hspont).scanMarkOther hpc (Ne.symm hioa)

theorem reportInv_scanEnd (h : ReportInv initial s) (hpc : s.task.pc = .yc []) :
    ReportInv initial (reportStep s .scan) := by
  have hnext : reportStep s .scan = { s with
      task := { s.task with pc := .idle, covered := s.task.covered || s.task.fresh } } := by
    simp only [reportStep, hpc, reduceCtorEq, if_false, scanNext]
  rw [hnext]
  refine ⟨h.upload, fun point hp hspont => (h.points point hp hspont).scanEnd hpc,
    fun _ hidle => absurd rfl hidle, h.held, by rintro _ ⟨⟩, fun r hr => ?_⟩
  rcases hr with hr | hr <;> cases hr

theorem reportInv_scan (hi : InitialYc initial) (h : ReportInv initial s) :
    ReportInv initial (reportStep s .scan) := by
  cases hpc : s.task.pc with
  | idle =>
    have hnext : reportStep s .scan = s := if_pos hpc
    rwa [hnext]
  | yx points yc =>
    cases points with
    | nil =>
      have hbusy : s.task.pc ≠ .idle := by rw [hpc]; rintro ⟨⟩
      have hnext : scanNext s.task.nowMs s.task.force (s.shared, s.task.pc) =
          (s.shared, .yc yc) := by
        rw [hpc, scanNext]
      exact reportInv_yxStep h hbusy hnext (by rintro ⟨⟩) h.upload rfl (fun _ => rfl) (hpc ▸ rfl)
        (hpc ▸ rfl) (by rintro _ ⟨⟩)
    | cons q qs => exact reportInv_scanYx h hpc
  | markYx q points yc =>
    have hbusy : s.task.pc ≠ .idle := by rw [hpc]; rintro ⟨⟩
    have hnext : scanNext s.task.nowMs s.task.force (s.shared, s.task.pc) =
        (markYx s.shared q, .yx points yc) := by
      rw [hpc, scanNext]
    have hyx := h.yx
    rw [hpc] at hyx
    exact reportInv_yxStep h hbusy hnext (by rintro ⟨⟩) (h.upload.withTable (plan_markYxReported _))
      (yc_markYx s.shared q) (fun _ => rfl) (hpc ▸ rfl) (hpc ▸ rfl) fun r hr => hyx r (.tail q hr)
  | yc points =>
    cases points with
    | nil => exact reportInv_scanEnd h hpc
    | cons q qs => exact reportInv_scanYc h hpc
  | markYc q qs => exact reportInv_scanMark hi h hpc

theorem reportInv_writer (hi : InitialYc initial) (h : ReportInv initial s)
    (hsafe : ReportOp.Safe s .writer) : ReportInv initial (writerNext s) := by
  cases hw : s.writer with
  | idle =>
    have hnext : writerNext s = s := by rw [writerNext, hw]
    rwa [hnext]
  | wrote ioa quality => exact reportInv_copy hi h hw
  | quality ioa copy q => exact reportInv_quality hi h hw
  | put copy => exact reportInv_writerPut h hw
  | mark copy => exact reportInv_writerMark hi h hw hsafe

theorem reportInv_step (hi : InitialYc initial) (h : ReportInv initial s) {op : ReportOp}
    (hsafe : op.Safe s) : ReportInv initial (reportStep s op) := by
  cases op with
  | setYc ioa value nowMs quality =>
    rw [reportStep]
    split
    · next hidle =>
      split
      · next table hset =>
        have htable : (pointTableSetYc s.table ioa value nowMs).1 = table := by rw [hset]
        exact htable ▸ reportInv_setYc hi h hidle ioa value nowMs quality
      · exact h
    · exact h
  | writer => exact reportInv_writer hi h hsafe
  | startScan alloc nowMs force =>
    rw [reportStep]
    split
    · next hidle => exact reportInv_startScan hi h hidle.1 nowMs force
    · exact h
  | scan => exact reportInv_scan hi h

theorem reportInv_start (hi : InitialYc initial) : ReportInv initial (.start initial) where
  upload := uploadInv_server initial
  points := by
    intro point hp _
    have hentry : ycEntryAt (serverUploadArea initial) point.ioa.toInt32 = none := by
      simp [ycEntryAt, serverUploadArea, activeUploadInit, pending_replicate_none]
    show PointInv point (ycEntryAt (serverUploadArea initial) _) _ _
    rw [hentry]
    refine ⟨hi.deadband point hp, by rintro _ ⟨⟩, by rintro _ ⟨⟩, by rintro _ _ ⟨⟩,
      by rintro ⟨⟩, ?_⟩
    rintro (⟨hfresh, _⟩ | hcovered) <;> contradiction
  covered := by rintro ⟨⟩
  held := by rintro _ ⟨⟩
  yx := by rintro _ ⟨⟩
  yc := by rintro q (hq | hq) <;> cases hq

end ReportInterleavingLemmas

open ReportInterleavingLemmas

/-- In every run of commands and scans in which no command marks a value whose entry has been
overtaken: when no command and no scan is in progress and a scan has begun and ended
since the last write, every spontaneous point of the main YC array that has an entry
is within its dead band of the value of the entry. -/
theorem yc_entry_up_to_date {initial : PointTable} (hi : InitialYc initial)
    {ops : List ReportOp}
    (hsafe : Run.Guarded (fun s op => op.Safe s) reportStep (.start initial) ops)
    (hsettled : (Run.exec reportStep (.start initial) ops).Settled) :
    (Run.exec reportStep (.start initial) ops).UpToDate := by
  obtain ⟨hwriter, hidle, hcovered⟩ := hsettled
  have hinv : ReportInv initial (Run.exec reportStep (.start initial) ops) :=
    Run.guarded_induction (I := fun _ => ReportInv initial) (reportInv_start hi)
      (fun _ s op hop h => reportInv_step hi h hop) hsafe
  intro point hp hspont e he
  have hpoint := hinv.points point hp hspont
  rw [hwriter] at hpoint
  exact hpoint.settled hidle hcovered he

/-- A table with the first YC point of the demo table only. -/
def oneYcTable : PointTable :=
  { pointTableInitDemo with
    yx := [], yc := [initYcPoint (ioaAt ioaYcRange 0) 10 .scaled true], ycRtu := []
    ycSensorConf := [], ycCustom := [] }

namespace ReportInterleavingLemmas

theorem initialYc_one : InitialYc oneYcTable where
  nodup := by decide +kernel
  in_range := by
    intro ioa hioa
    rw [List.mem_singleton.mp hioa]
    decide +kernel
  ne_zero := by
    intro ioa hioa
    rw [List.mem_singleton.mp hioa]
    decide +kernel
  deadband := by decide +kernel

theorem safe_setYc {value : ℚ} {nowMs : UInt64} {quality : Option UInt8} :
    ReportOp.Safe s (.setYc ioa value nowMs quality) := trivial

theorem safe_startScan {alloc force : Bool} {nowMs : UInt64} :
    ReportOp.Safe s (.startScan alloc nowMs force) := trivial

theorem safe_scan : ReportOp.Safe s .scan := trivial

theorem safe_before_mark (writer : WriterPc) (hw : s.writer = writer)
    (hheld : writer.putPending = true) : ReportOp.Safe s .writer := by
  intro copy hmark
  rw [← hw, hmark] at hheld
  cases hheld

/-- A mark right after the put of the command. -/
theorem safe_mark (copy : YcPoint) (e : YcUploadEntry) (hw : s.writer = .mark copy)
    (he : ycEntryAt s.area copy.ioa.toInt32 = some e) (hvalue : e.value = copy.value)
    (hband : ∀ point ∈ s.table.yc, 0 < point.deadband) : ReportOp.Safe s .writer := by
  intro copy' hw' point hp _ _ e' he'
  cases hw.symm.trans hw'
  cases he.symm.trans he'
  rw [hvalue, sub_self, abs_zero]
  exact .inl (hband point hp)

/-- The point of the table after a write of 20. -/
def pointAt20 : YcPoint :=
  { initYcPoint 0x4001 20 .scaled true with lastSentValue := 10, timestampMs := 1 }

theorem guarded_command :
    Run.Guarded (fun s op => ReportOp.Safe s op) reportStep (.start oneYcTable)
      [.setYc 0x4001 20 1 none, .writer, .writer, .writer, .startScan true 2 false, .scan, .scan,
       .scan] := by
  refine Run.guarded_cons.mpr ⟨safe_setYc, Run.guarded_cons.mpr ⟨?_, Run.guarded_cons.mpr
    ⟨?_, Run.guarded_cons.mpr ⟨?_, Run.guarded_cons.mpr ⟨safe_startScan, Run.guarded_cons.mpr
      ⟨safe_scan, Run.guarded_cons.mpr ⟨safe_scan, Run.guarded_cons.mpr ⟨safe_scan, .nil⟩⟩⟩⟩⟩⟩⟩⟩
  · exact safe_before_mark (.wrote 0x4001 none) (by decide +kernel) rfl
  · exact safe_before_mark (.put pointAt20) (by decide +kernel) rfl
  · exact safe_mark pointAt20 ⟨0x4001, 20, 0, .scaled, .spontaneous, 1, 1⟩ (by decide +kernel)
      (by decide +kernel) rfl (by decide +kernel)

end ReportInterleavingLemmas

/-- One command and then a scan. -/
theorem command_then_scan_up_to_date :
    (Run.exec reportStep (.start oneYcTable)
      [.setYc 0x4001 20 1 none, .writer, .writer, .writer, .startScan true 2 false, .scan, .scan,
       .scan]).UpToDate :=
  yc_entry_up_to_date initialYc_one guarded_command (by unfold ReportState.Settled; decide +kernel)

/-- A scan has copied the value 20 of a first command when a second command puts 30. It puts and
marks 20, and then the second command marks 30. A later scan sees no change. -/
def overtakenPut : ReportState :=
  Run.exec reportStep (.start oneYcTable)
    [.setYc 0x4001 20 1 none, .startScan true 2 false, .writer, .writer, .writer,
     .setYc 0x4001 30 3 none, .writer, .writer, .scan, .scan, .scan, .writer, .scan,
     .startScan true 4 false, .scan, .scan, .scan]

def pointAt30 : YcPoint :=
  { initYcPoint 0x4001 30 .scaled true with timestampMs := 3 }

def entryAt20 : YcUploadEntry := ⟨0x4001, 20, 0, .scaled, .spontaneous, 1, 3⟩

/-- The entry has the value 20, and the point the value 30. -/
theorem overtaken_put_stale :
    overtakenPut.Settled ∧ ¬overtakenPut.UpToDate := by
  refine ⟨by unfold ReportState.Settled; decide +kernel, fun h => ?_⟩
  have hyc : pointAt30 ∈ overtakenPut.table.yc := by decide +kernel
  have hentry : ycEntryAt overtakenPut.area pointAt30.ioa.toInt32 = some entryAt20 := by
    decide +kernel
  have hfar : ¬|entryAt20.value - pointAt30.value| < pointAt30.deadband := by decide +kernel
  exact hfar (h pointAt30 hyc rfl entryAt20 hentry)

end Iec104Slave
