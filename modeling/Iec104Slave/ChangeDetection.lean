import Iec104Slave.UploadScan
import Iec104Slave.Lib.Run

/-!
# Detection of YX changes

`point_table_set_yx` and `point_table_simulate_scan` move the old value of a point into
`last_value`, and a scan reports a point whose value differs from it. `last_value` is
thus the value before the last write, not the last value reported: if a value is
written twice before a scan, the scan sees no change.

Results:
1. `scan_reports_iff`: which states a scan leaves with all values reported.
2. `change_detected_iff`: the scans of a run report all changes, whenever they come, iff no
   write repeats a value that has not been reported yet.
-/

namespace Iec104Slave

open SlotTable Keyed

structure ChangeState where
  table : PointTable
  area : ActiveUploadArea
  scanned : Bool

inductive ChangeOp
  | setYx (ioa : Int32) (value : Bool) (timestampMs : UInt64)
  | simulateScan (nowMs : UInt64)
  | scan (alloc : Bool) (nowMs : UInt64) (forcePeriodic : Bool)

/-- `scanned` says that the last step was a scan. -/
def changeStep (s : ChangeState) : ChangeOp → ChangeState
  | .setYx ioa value timestampMs =>
    ⟨(pointTableSetYx s.table ioa value timestampMs).1, s.area, false⟩
  | .simulateScan nowMs => ⟨pointTableSimulateScan s.table nowMs, s.area, false⟩
  | .scan alloc nowMs forcePeriodic =>
    let t := (activeUploadScanPointTable alloc nowMs forcePeriodic s.table s.area).1
    ⟨t.table, t.area, true⟩

/-- The server before its first scan. -/
def ChangeState.start (initial : PointTable) : ChangeState :=
  ⟨initial, serverUploadArea initial, false⟩

/-- The value of the pending entry, or the initial value if there is none. -/
def reportedYx (initial : PointTable) (area : ActiveUploadArea) (ioa : Int32) : Option UInt8 :=
  match yxEntryAt area ioa with
  | some e => some (boolByte e.value)
  | none => (pointTableFindYx initial ioa).map YxPoint.value

def AllReported (initial : PointTable) (table : PointTable) (area : ActiveUploadArea) : Prop :=
  ∀ point ∈ table.yx, point.enableSpontaneous = true →
    reportedYx initial area point.ioa.toInt32 = some point.value

/-- All is reported if a scan was the last step, and would be after a scan now. -/
def NoChangeLost (initial : PointTable) (s : ChangeState) : Prop :=
  (s.scanned = true → AllReported initial s.table s.area) ∧
  ∀ nowMs forcePeriodic,
    let t := changeStep s (.scan true nowMs forcePeriodic)
    AllReported initial t.table t.area

/-- A write of the value that a spontaneous point already has needs it to be reported, and
so does a scan that cannot copy the table. -/
def ChangeOp.Safe (initial : PointTable) (s : ChangeState) : ChangeOp → Prop
  | .setYx ioa value _ => ∀ point, pointTableFindYx s.table ioa = some point →
      point.enableSpontaneous = true → point.value = boolByte value →
      reportedYx initial s.area ioa = some point.value
  | .simulateScan _ => True
  | .scan alloc _ _ => alloc = false → AllReported initial s.table s.area

/-- What `point_table_init_demo` makes sure of: distinct addresses, and values 0 and 1. -/
structure InitialYx (initial : PointTable) : Prop where
  nodup : (initial.yx.map YxPoint.ioa).Nodup
  bytes : ∀ point ∈ initial.yx, point.value = boolByte (point.value != 0)

namespace ChangeDetectionLemmas

open UploadScanLemmas

variable {initial : PointTable} {s : ChangeState}

structure ChangeInv (initial : PointTable) (s : ChangeState) : Prop where
  upload : UploadInv initial s.table s.area
  nodup : (initial.yx.map YxPoint.ioa).Nodup
  bytes : ∀ point ∈ s.table.yx, point.value = boolByte (point.value != 0)

theorem nodup_yx (h : UploadInv initial s.table s.area)
    (hnodup : (initial.yx.map YxPoint.ioa).Nodup) : (s.table.yx.map YxPoint.ioa).Nodup := by
  have hkeys : s.table.yx.map YxPoint.ioa = initial.yx.map YxPoint.ioa :=
    congrArg AddressPlan.yx h.plan
  rwa [hkeys]

theorem findYx_iff {table : PointTable} (hnodup : (table.yx.map YxPoint.ioa).Nodup)
    {point : YxPoint} {ioa : Int32} :
    pointTableFindYx table ioa = some point ↔ point ∈ table.yx ∧ point.ioa.toInt32 = ioa := by
  rw [pointTableFindYx, findKey_eq_some_iff hnodup]
  refine and_congr_right fun _ => ⟨fun heq => ?_, fun heq => ?_⟩
  · rw [heq, Int32.toInt32_toUInt32]
  · rw [← heq, UInt32.toUInt32_toInt32]

/-- A change that a scan would see, or that has been reported. -/
def Detectable (initial : PointTable) (s : ChangeState) : Prop :=
  ∀ point ∈ s.table.yx, point.enableSpontaneous = true →
    point.value ≠ point.lastValue ∨ reportedYx initial s.area point.ioa.toInt32 = some point.value

/-- The point that a scan leaves. -/
def afterScan (point : YxPoint) : YxPoint :=
  if yxChanged point then { point with lastValue := boolByte (point.value != 0) } else point

theorem afterScan_fields (point : YxPoint) :
    (afterScan point).ioa = point.ioa ∧ (afterScan point).value = point.value ∧
      (afterScan point).enableSpontaneous = point.enableSpontaneous := by
  unfold afterScan
  split <;> exact ⟨rfl, rfl, rfl⟩

/-- What a scan does with a point, in terms of what is reported. -/
theorem scan_point (h : ChangeInv initial s) (nowMs : UInt64) (force : Bool) {point : YxPoint}
    (hp : point ∈ s.table.yx) :
    afterScan point ∈ (changeStep s (.scan true nowMs force)).table.yx ∧
      reportedYx initial (changeStep s (.scan true nowMs force)).area point.ioa.toInt32 =
        if yxChanged point then some point.value
        else reportedYx initial s.area point.ioa.toInt32 := by
  obtain ⟨hinv, hview⟩ := scanLoops_spec (s := .start s.table s.area) h.upload h.nodup nowMs force
  have hnodup : ((changeStep s (.scan true nowMs force)).table.yx.map YxPoint.ioa).Nodup :=
    nodup_yx hinv h.nodup
  have hpoint := hview point hp
  unfold afterScan
  split at hpoint
  · next hchanged =>
    obtain ⟨version, hview⟩ := hpoint
    have hentry : yxEntryAt (changeStep s (.scan true nowMs force)).area point.ioa.toInt32 =
        some (yxEntry (stampYx nowMs point) version) := congrArg Prod.snd hview
    rw [if_pos hchanged, if_pos hchanged, reportedYx, hentry]
    exact ⟨((findYx_iff hnodup).mp (congrArg Prod.fst hview)).1,
      congrArg some (h.bytes point hp).symm⟩
  · next hchanged =>
    have hentry : yxEntryAt (changeStep s (.scan true nowMs force)).area point.ioa.toInt32 =
        yxEntryAt s.area point.ioa.toInt32 := congrArg Prod.snd hpoint
    have hfind : pointTableFindYx s.table point.ioa.toInt32 = some point :=
      (findYx_iff (nodup_yx h.upload h.nodup)).mpr ⟨hp, rfl⟩
    rw [if_neg hchanged, if_neg hchanged, reportedYx, reportedYx, hentry]
    exact ⟨((findYx_iff hnodup).mp ((congrArg Prod.fst hpoint).trans hfind)).1, rfl⟩

theorem uploadInv_scan (h : ChangeInv initial s) (nowMs : UInt64) (force : Bool) :
    UploadInv initial (changeStep s (.scan true nowMs force)).table
      (changeStep s (.scan true nowMs force)).area :=
  (scanLoops_spec (s := .start s.table s.area) h.upload h.nodup nowMs force).1

/-- The points after a scan are those that it leaves of the points before. -/
theorem exists_afterScan (h : ChangeInv initial s) (nowMs : UInt64) (force : Bool)
    {point : YxPoint} (hp : point ∈ (changeStep s (.scan true nowMs force)).table.yx) :
    ∃ before ∈ s.table.yx, point = afterScan before := by
  have hinv := uploadInv_scan h nowMs force
  have hkeys : (changeStep s (.scan true nowMs force)).table.yx.map YxPoint.ioa =
      s.table.yx.map YxPoint.ioa := congrArg AddressPlan.yx (hinv.plan.trans h.upload.plan.symm)
  obtain ⟨before, hbefore, hioa⟩ := List.mem_map.mp (hkeys ▸ List.mem_map_of_mem hp)
  refine ⟨before, hbefore, ?_⟩
  have hnodup := nodup_yx (s := changeStep s (.scan true nowMs force)) hinv h.nodup
  have hafter := (findYx_iff hnodup).mpr ⟨(scan_point h nowMs force hbefore).1, rfl⟩
  have hpoint := (findYx_iff hnodup).mpr ⟨hp, rfl⟩
  rw [(afterScan_fields before).1, hioa] at hafter
  exact Option.some.inj (hpoint.symm.trans hafter)

theorem scan_reports_iff (h : ChangeInv initial s) (nowMs : UInt64) (force : Bool) :
    AllReported initial (changeStep s (.scan true nowMs force)).table
      (changeStep s (.scan true nowMs force)).area ↔ Detectable initial s := by
  constructor
  · intro hall point hp hspont
    obtain ⟨hmem, hrep⟩ := scan_point h nowMs force hp
    obtain ⟨hioa, hvalue, hspont'⟩ := afterScan_fields point
    have hreported := hall _ hmem (hspont'.trans hspont)
    rw [hioa, hvalue, hrep] at hreported
    by_cases hsame : point.value = point.lastValue
    · rw [if_neg (by simp [yxChanged, hsame])] at hreported
      exact .inr hreported
    · exact .inl hsame
  · intro hdet point hp hspont
    obtain ⟨before, hbefore, rfl⟩ := exists_afterScan h nowMs force hp
    obtain ⟨hioa, hvalue, hspont'⟩ := afterScan_fields before
    rw [hioa, hvalue, (scan_point h nowMs force hbefore).2]
    rw [hspont'] at hspont
    split
    · rfl
    · next hsame =>
      refine (hdet before hbefore hspont).resolve_left fun hne => hsame ?_
      simpa [yxChanged, hspont] using hne

/-! ## Writes -/

/-- The point that `point_table_set_yx` leaves. -/
def writtenYx (value : Bool) (timestampMs : UInt64) (point : YxPoint) : YxPoint :=
  { point with lastValue := point.value, value := boolByte value, timestampMs := timestampMs }

theorem mem_setYx {table : PointTable} (hnodup : (table.yx.map YxPoint.ioa).Nodup) {ioa : Int32}
    {value : Bool} {timestampMs : UInt64} {point : YxPoint} :
    point ∈ (pointTableSetYx table ioa value timestampMs).1.yx ↔
      (∃ before, pointTableFindYx table ioa = some before ∧
        point = writtenYx value timestampMs before) ∨
      (point ∈ table.yx ∧ point.ioa.toInt32 ≠ ioa) := by
  have hioa : point.ioa = ioa.toUInt32 ↔ point.ioa.toInt32 = ioa := by
    rw [← toUInt32_eq_iff, UInt32.toUInt32_toInt32]
  unfold pointTableSetYx
  split
  · next hnone =>
    simp only [hnone, reduceCtorEq, false_and, exists_false, false_or]
    refine ⟨fun hp => ⟨hp, fun heq => ?_⟩, And.left⟩
    rw [(findYx_iff hnodup).mpr ⟨hp, heq⟩] at hnone
    cases hnone
  · have hmem := mem_modifyKey (k := ioa.toUInt32) (f := writtenYx value timestampMs)
      (fun _ => rfl) hnodup (y := point)
    rw [ne_eq, hioa] at hmem
    exact hmem

theorem written_mem (h : ChangeInv initial s) {point : YxPoint} {ioa : Int32}
    (hfind : pointTableFindYx s.table ioa = some point) (value : Bool) (timestampMs : UInt64) :
    writtenYx value timestampMs point ∈ (changeStep s (.setYx ioa value timestampMs)).table.yx :=
  (mem_setYx (nodup_yx h.upload h.nodup)).mpr (.inl ⟨point, hfind, rfl⟩)

/-- A write keeps changes detectable iff it does not repeat a value that is not reported. -/
theorem detectable_setYx_iff (h : ChangeInv initial s) (hdet : Detectable initial s) (ioa : Int32)
    (value : Bool) (timestampMs : UInt64) :
    Detectable initial (changeStep s (.setYx ioa value timestampMs)) ↔
      (ChangeOp.setYx ioa value timestampMs).Safe initial s := by
  have hnodup := nodup_yx h.upload h.nodup
  constructor
  · intro hafter point hfind hspont hvalue
    have hioa := ((findYx_iff hnodup).mp hfind).2
    have hreported := (hafter _ (written_mem h hfind value timestampMs) hspont).resolve_left
      fun hne => hne hvalue.symm
    rw [hvalue, ← hioa]
    exact hreported
  · intro hsafe point hp hspont
    rcases (mem_setYx hnodup).mp hp with ⟨before, hfind, rfl⟩ | ⟨hp, _⟩
    · by_cases hvalue : before.value = boolByte value
      · have hioa := ((findYx_iff hnodup).mp hfind).2
        have hreported := hsafe before hfind hspont hvalue
        rw [hvalue, ← hioa] at hreported
        exact .inr hreported
      · exact .inl (Ne.symm hvalue)
    · exact hdet point hp hspont

/-- The demo inputs leave a point alone, or write another value to it. -/
theorem mem_simulateScan {table : PointTable} {nowMs : UInt64} {point : YxPoint}
    (hp : point ∈ (pointTableSimulateScan table nowMs).yx) :
    point ∈ table.yx ∨ ∃ before ∈ table.yx, ∃ value,
      before.value ≠ boolByte value ∧ point = writtenYx value nowMs before := by
  change point ∈ modifyFirst _ table.yx at hp
  cases hyx : table.yx with
  | nil =>
    rw [hyx] at hp
    cases hp
  | cons first rest =>
    rw [hyx] at hp
    rcases List.mem_cons.mp hp with hfirst | hrest
    · by_cases hne : first.value ≠ if nowMs / 5000 % 2 ≠ 0 then 1 else 0
      · refine .inr ⟨first, .head rest, decide (nowMs / 5000 % 2 ≠ 0), ?_⟩
        simp only [writtenYx, boolByte, decide_eq_true_eq]
        exact ⟨hne, hfirst.trans (if_pos hne)⟩
      · exact .inl (hfirst.trans (if_neg hne) ▸ .head rest)
    · exact .inl (.tail first hrest)

theorem detectable_simulateScan (hdet : Detectable initial s) (nowMs : UInt64) :
    Detectable initial (changeStep s (.simulateScan nowMs)) := by
  intro point hp hspont
  rcases mem_simulateScan hp with hp | ⟨before, _, value, hne, rfl⟩
  · exact hdet point hp hspont
  · exact .inl (Ne.symm hne)

/-! ## Runs -/

theorem noChangeLost_iff (h : ChangeInv initial s) :
    NoChangeLost initial s ↔
      (s.scanned = true → AllReported initial s.table s.area) ∧ Detectable initial s := by
  refine and_congr_right fun _ => ⟨fun hall => ?_, fun hdet nowMs force => ?_⟩
  · exact (scan_reports_iff h 0 false).mp (hall 0 false)
  · exact (scan_reports_iff h nowMs force).mpr hdet

theorem boolByte_eq (value : Bool) : boolByte value = boolByte (boolByte value != 0) := by
  cases value <;> rfl

theorem changeInv_step (h : ChangeInv initial s) (op : ChangeOp) :
    ChangeInv initial (changeStep s op) := by
  cases op with
  | setYx ioa value timestampMs =>
    refine ⟨h.upload.withTable (plan_setYx value timestampMs), h.nodup, fun point hp => ?_⟩
    rcases (mem_setYx (nodup_yx h.upload h.nodup)).mp hp with ⟨before, _, rfl⟩ | ⟨hp, _⟩
    · exact boolByte_eq value
    · exact h.bytes point hp
  | simulateScan nowMs =>
    refine ⟨h.upload.withTable (plan_simulateScan nowMs), h.nodup, fun point hp => ?_⟩
    rcases mem_simulateScan hp with hp | ⟨before, _, value, _, rfl⟩
    · exact h.bytes point hp
    · exact boolByte_eq value
  | scan alloc nowMs force =>
    cases alloc with
    | false => exact ⟨h.upload, h.nodup, h.bytes⟩
    | true =>
      refine ⟨uploadInv_scan h nowMs force, h.nodup, fun point hp => ?_⟩
      obtain ⟨before, hbefore, rfl⟩ := exists_afterScan h nowMs force hp
      rw [(afterScan_fields before).2.1]
      exact h.bytes before hbefore

theorem noChangeLost_step (h : ChangeInv initial s) (hs : NoChangeLost initial s) (op : ChangeOp) :
    NoChangeLost initial (changeStep s op) ↔ op.Safe initial s := by
  obtain ⟨hscanned, hdet⟩ := (noChangeLost_iff h).mp hs
  rw [noChangeLost_iff (changeInv_step h op)]
  cases op with
  | setYx ioa value timestampMs =>
    rw [← detectable_setYx_iff h hdet]
    exact and_iff_right nofun
  | simulateScan nowMs =>
    exact iff_of_true ⟨nofun, detectable_simulateScan hdet nowMs⟩ trivial
  | scan alloc nowMs force =>
    cases alloc with
    | false => exact ⟨fun hall _ => hall.1 rfl, fun hsafe => ⟨fun _ => hsafe rfl, hdet⟩⟩
    | true =>
      have hall := (scan_reports_iff h nowMs force).mpr hdet
      exact iff_of_true ⟨fun _ => hall, fun point hp hspont => .inr (hall point hp hspont)⟩ nofun

theorem changeInv_start (h : InitialYx initial) : ChangeInv initial (.start initial) :=
  ⟨uploadInv_server initial, h.nodup, h.bytes⟩

theorem reportedYx_start (h : InitialYx initial) {point : YxPoint} (hp : point ∈ initial.yx) :
    reportedYx initial (serverUploadArea initial) point.ioa.toInt32 = some point.value := by
  have hentry : yxEntryAt (serverUploadArea initial) point.ioa.toInt32 = none := by
    simp [yxEntryAt, serverUploadArea, activeUploadInit, pending_replicate_none]
  simp only [reportedYx, hentry, (findYx_iff h.nodup).mpr ⟨hp, rfl⟩, Option.map_some]

theorem noChangeLost_start (h : InitialYx initial) : NoChangeLost initial (.start initial) :=
  (noChangeLost_iff (changeInv_start h)).mpr
    ⟨nofun, fun _ hp _ => .inr (reportedYx_start h hp)⟩

theorem initialYx_demo : InitialYx pointTableInitDemo where
  nodup := by
    rw [initDemo_yx]
    exact nodup_initPartition (fun _ => rfl) (by decide +kernel)
  bytes := by
    intro point hp
    rw [initDemo_yx] at hp
    obtain ⟨i, _, rfl⟩ := List.mem_map.mp hp
    unfold initYxPoint
    split <;> rfl

theorem mem_demo : initYxPoint 0 ∈ pointTableInitDemo.yx := by
  rw [initDemo_yx]
  exact mem_initPartition (by decide +kernel)

theorem findYx_demo : pointTableFindYx pointTableInitDemo 1 = some (initYxPoint 0) :=
  (findYx_iff initialYx_demo.nodup).mpr ⟨mem_demo, by decide⟩

end ChangeDetectionLemmas

open ChangeDetectionLemmas

/-- At every point of a run of writes, demo inputs and scans, a scan that was just made has
left every spontaneous YX point with its value reported, and a scan made now would, iff
no write of the run repeats a value that is not reported and no scan fails to copy the
table while there is something to report. -/
theorem change_detected_iff {initial : PointTable} (h : InitialYx initial) (ops : List ChangeOp) :
    (∀ past rest, ops = past ++ rest →
      NoChangeLost initial (Run.exec changeStep (.start initial) past)) ↔
    Run.Guarded (fun s op => op.Safe initial s) changeStep (.start initial) ops :=
  Run.always_iff_guarded (changeInv_start h) (noChangeLost_start h)
    (fun _ op hs => changeInv_step hs op) (fun _ op hinv hs => noChangeLost_step hinv hs op) ops

/-- In the demo table, one write and a scan: all is reported. -/
theorem single_write_reported :
    InitialYx pointTableInitDemo ∧
      NoChangeLost pointTableInitDemo (Run.exec changeStep (.start pointTableInitDemo)
        [.setYx 1 true 7, .scan true 8 false]) := by
  refine ⟨initialYx_demo, (change_detected_iff initialYx_demo
    [.setYx 1 true 7, .scan true 8 false]).mpr ?_ _ [] (List.append_nil _).symm⟩
  refine Run.guarded_cons.mpr ⟨fun point hfind _ hvalue => ?_, ?_⟩
  · cases findYx_demo.symm.trans hfind
    exact absurd hvalue (by decide)
  · exact Run.guarded_cons.mpr ⟨nofun, .nil⟩

/-- The demo table after the value 1 is written twice to the point 1, and a scan. -/
def repeatedWrite : ChangeState :=
  Run.exec changeStep (.start pointTableInitDemo)
    [.setYx 1 true 7, .setYx 1 true 8, .scan true 9 false]

/-- The value of the point is 1, and what is reported of it is still 0. -/
theorem repeated_write_lost :
    ∃ point ∈ repeatedWrite.table.yx, point.ioa = 1 ∧ point.enableSpontaneous = true ∧
      point.value = 1 ∧ reportedYx pointTableInitDemo repeatedWrite.area 1 = some 0 := by
  have h₀ := changeInv_start initialYx_demo
  have h₁ := changeInv_step h₀ (.setYx 1 true 7)
  have h₂ := changeInv_step h₁ (.setYx 1 true 8)
  have hioa : (writtenYx true 7 (initYxPoint 0)).ioa.toInt32 = 1 := by decide
  have hfind := (findYx_iff (nodup_yx h₁.upload h₁.nodup)).mpr
    ⟨written_mem h₀ findYx_demo true 7, hioa⟩
  obtain ⟨hmem, hreported⟩ := scan_point h₂ 9 false (written_mem h₁ hfind true 8)
  refine ⟨_, hmem, by decide, by decide, by decide, ?_⟩
  -- the second write has copied the value into the marker, so the scan sees no change
  have hsame : yxChanged (writtenYx true 8 (writtenYx true 7 (initYxPoint 0))) = false := by decide
  rw [hsame, if_neg Bool.false_ne_true] at hreported
  have hstart := reportedYx_start initialYx_demo mem_demo
  rw [show (initYxPoint 0).ioa.toInt32 = 1 from hioa] at hstart
  exact hreported.trans hstart

end Iec104Slave
