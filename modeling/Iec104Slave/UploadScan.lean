import Iec104Slave.ActiveUpload
import Mathlib.Algebra.Order.Group.Abs
import Mathlib.Logic.Function.Iterate

/-!
# The scan of the point table (`active_upload_scan_point_table`)

The report scheduler copies the point table and puts what has changed into the upload area.
A YX point has changed if its value differs from its marker `last_value`; a YC point if
it has moved by the dead band from `last_sent_value`. The put and the update of the
marker are two critical sections, so the scan is given twice: as a whole, and as a
program of steps between which other threads may run.

Results:
1. `scan_uninterrupted`: the steps, without interruption, are the whole scan.
2. `publishYx_eq`, `publishYc_eq`: no put of a scan fails.
3. `scanLoops_spec`: a scan keeps the addresses of the table and the invariant of the area, and
   gives every YX point that has changed an entry with its value.
-/

namespace Iec104Slave

open SlotTable Keyed

/-! ## The scan as a whole -/

/-- The shared table and area, and the local flags of the scan. -/
structure ScanState where
  table : PointTable
  area : ActiveUploadArea
  hasYx : Bool
  hasYc : Bool
  hasSoe : Bool

def ScanState.start (table : PointTable) (area : ActiveUploadArea) : ScanState :=
  ⟨table, area, false, false, false⟩

def yxChanged (point : YxPoint) : Bool :=
  point.enableSpontaneous && point.value != point.lastValue

/-- The cause with which a YC point is put, if it is put. -/
def ycCause (forcePeriodic : Bool) (point : YcPoint) : Option CauseOfTransmission :=
  if point.enableSpontaneous ∧ point.deadband ≤ |point.value - point.lastSentValue| then
    some .spontaneous
  else if forcePeriodic && point.enablePeriodic then some .periodic
  else none

def stampYx (nowMs : UInt64) (point : YxPoint) : YxPoint :=
  { point with timestampMs := if point.timestampMs = 0 then nowMs else point.timestampMs }

def stampYc (nowMs : UInt64) (point : YcPoint) : YcPoint :=
  { point with timestampMs := if point.timestampMs = 0 then nowMs else point.timestampMs }

def publishYxChange (s : ScanState) (point : YxPoint) : ScanState × Bool :=
  match activeUploadPutYx s.area point point.enableSoe with
  | (area, true) =>
    ({ s with area := area, hasYx := true, hasSoe := s.hasSoe || point.enableSoe }, true)
  | (area, false) => ({ s with area := area }, false)

def publishYcChange (s : ScanState) (point : YcPoint) (cot : CauseOfTransmission) :
    ScanState × Bool :=
  match activeUploadPutYc s.area point cot with
  | (area, true) => ({ s with area := area, hasYc := true }, true)
  | (area, false) => ({ s with area := area }, false)

def markYx (s : ScanState) (point : YxPoint) : ScanState :=
  { s with table := (pointTableMarkYxReported s.table point.ioa.toInt32 (point.value != 0)).1 }

def markYc (s : ScanState) (point : YcPoint) : ScanState :=
  { s with table := (pointTableMarkYcReported s.table point.ioa.toInt32 point.value).1 }

/-- The body of the YX loop, for a point of the copy. -/
def scanYx (nowMs : UInt64) (s : ScanState) (point : YxPoint) : ScanState :=
  if yxChanged point then
    match publishYxChange s (stampYx nowMs point) with
    | (s, true) => markYx s (stampYx nowMs point)
    | (s, false) => s
  else s

/-- The body of the YC loop. -/
def scanYc (nowMs : UInt64) (forcePeriodic : Bool) (s : ScanState) (point : YcPoint) :
    ScanState :=
  match ycCause forcePeriodic point with
  | none => s
  | some cot =>
    match publishYcChange s (stampYc nowMs point) cot with
    | (s, true) => markYc s (stampYc nowMs point)
    | (s, false) => s

/-- The two loops, over a copy of the YX array and of the main YC array. -/
def scanLoops (nowMs : UInt64) (forcePeriodic : Bool) (s : ScanState) (yx : List YxPoint)
    (yc : List YcPoint) : ScanState :=
  yc.foldl (scanYc nowMs forcePeriodic) (yx.foldl (scanYx nowMs) s)

/-- `active_upload_scan_point_table`, with its result. `alloc` says whether the copy of the
table can be allocated. -/
def activeUploadScanPointTable (alloc : Bool) (nowMs : UInt64) (forcePeriodic : Bool)
    (table : PointTable) (area : ActiveUploadArea) : ScanState × Bool :=
  if alloc then
    let s := scanLoops nowMs forcePeriodic (.start table area) table.yx table.yc
    (s, s.hasYx || s.hasYc || s.hasSoe)
  else (.start table area, false)

/-! ## The scan step by step -/

/-- Where the scan is: before the next point of an array of its copy, or between the put
and the mark of a point. -/
inductive ScanPc
  | idle
  | yx (points : List YxPoint) (yc : List YcPoint)
  | markYx (point : YxPoint) (points : List YxPoint) (yc : List YcPoint)
  | yc (points : List YcPoint)
  | markYc (point : YcPoint) (points : List YcPoint)
deriving DecidableEq

def scanNext (nowMs : UInt64) (forcePeriodic : Bool) : ScanState × ScanPc → ScanState × ScanPc
  | (s, .idle) => (s, .idle)
  | (s, .yx [] yc) => (s, .yc yc)
  | (s, .yx (point :: points) yc) =>
    if yxChanged point then
      match publishYxChange s (stampYx nowMs point) with
      | (s, true) => (s, .markYx (stampYx nowMs point) points yc)
      | (s, false) => (s, .yx points yc)
    else (s, .yx points yc)
  | (s, .markYx point points yc) => (markYx s point, .yx points yc)
  | (s, .yc []) => (s, .idle)
  | (s, .yc (point :: points)) =>
    match ycCause forcePeriodic point with
    | none => (s, .yc points)
    | some cot =>
      match publishYcChange s (stampYc nowMs point) cot with
      | (s, true) => (s, .markYc (stampYc nowMs point) points)
      | (s, false) => (s, .yc points)
  | (s, .markYc point points) => (markYc s point, .yc points)

namespace UploadScanLemmas

open ActiveUploadLemmas

variable {nowMs : UInt64} {force : Bool}

theorem iterate_yc (s : ScanState) (points : List YcPoint) :
    ∃ n, (scanNext nowMs force)^[n] (s, .yc points) =
      (points.foldl (scanYc nowMs force) s, .idle) := by
  induction points generalizing s with
  | nil => exact ⟨1, rfl⟩
  | cons point points ih =>
    obtain ⟨n, hn⟩ := ih (scanYc nowMs force s point)
    rw [List.foldl_cons, ← hn]
    cases hcause : ycCause force point with
    | none =>
      refine ⟨n + 1, ?_⟩
      rw [Function.iterate_succ_apply, scanNext, hcause, scanYc, hcause]
    | some cot =>
      rcases hput : publishYcChange s (stampYc nowMs point) cot with ⟨t, ok⟩
      cases ok with
      | true =>
        refine ⟨n + 2, ?_⟩
        simp only [Function.iterate_succ_apply, scanNext, scanYc, hcause, hput]
      | false =>
        refine ⟨n + 1, ?_⟩
        simp only [Function.iterate_succ_apply, scanNext, scanYc, hcause, hput]

/-- The steps of a scan, one after the other, are the two loops. -/
theorem scan_uninterrupted (s : ScanState) (yx : List YxPoint) (yc : List YcPoint) :
    ∃ n, (scanNext nowMs force)^[n] (s, .yx yx yc) = (scanLoops nowMs force s yx yc, .idle) := by
  induction yx generalizing s with
  | nil =>
    obtain ⟨n, hn⟩ := @iterate_yc nowMs force s yc
    exact ⟨n + 1, hn⟩
  | cons point points ih =>
    obtain ⟨n, hn⟩ := ih (scanYx nowMs s point)
    rw [scanLoops, List.foldl_cons, ← scanLoops, ← hn]
    cases hchanged : yxChanged point with
    | false =>
      refine ⟨n + 1, ?_⟩
      simp only [Function.iterate_succ_apply, scanNext, scanYx, hchanged, Bool.false_eq_true,
        if_false]
    | true =>
      rcases hput : publishYxChange s (stampYx nowMs point) with ⟨t, ok⟩
      cases ok with
      | true =>
        refine ⟨n + 2, ?_⟩
        simp only [Function.iterate_succ_apply, scanNext, scanYx, hchanged, if_true, hput]
      | false =>
        refine ⟨n + 1, ?_⟩
        simp only [Function.iterate_succ_apply, scanNext, scanYx, hchanged, if_true, hput]

end UploadScanLemmas

/-! ## Table and area -/

/-- The table has the addresses it was created with, and the area has a slot for each of
its points. -/
structure UploadInv (initial table : PointTable) (area : ActiveUploadArea) : Prop where
  plan : table.plan = initial.plan
  area_inv : ∃ log, AreaInv ⟨area, log⟩
  fits : AreaFits initial area

def yxEntryAt (area : ActiveUploadArea) (ioa : Int32) : Option YxUploadEntry :=
  findKey YxUploadEntry.ioa ioa (pending area.yx)

def ycEntryAt (area : ActiveUploadArea) (ioa : Int32) : Option YcUploadEntry :=
  findKey YcUploadEntry.ioa ioa (pending area.yc)

namespace UploadInv

open ActiveUploadLemmas

variable {initial table : PointTable} {area : ActiveUploadArea}

theorem withTable (h : UploadInv initial table area) {table' : PointTable}
    (hplan : table'.plan = table.plan) : UploadInv initial table' area :=
  ⟨hplan.trans h.plan, h.area_inv, h.fits⟩

theorem put (h : UploadInv initial table area) (op : UploadOp)
    (hop : op.OfTable initial) :
    UploadInv initial table (uploadStep area op) ∧ (uploadCall area op).2 = true := by
  obtain ⟨log, harea⟩ := h.area_inv
  exact ⟨⟨h.plan, ⟨_, areaInv_step harea op⟩, areaFits_step h.fits hop⟩,
    uploadCall_ok harea h.fits hop⟩

theorem yx_mem (h : UploadInv initial table area) {point : YxPoint}
    (hp : point ∈ table.yx) : point.ioa ∈ initial.yx.map YxPoint.ioa := by
  have hyx : table.yx.map YxPoint.ioa = initial.yx.map YxPoint.ioa :=
    congrArg AddressPlan.yx h.plan
  exact hyx ▸ List.mem_map_of_mem hp

theorem yc_mem (h : UploadInv initial table area) {point : YcPoint} (hp : point ∈ table.yc) :
    point.ioa ∈ initial.ycPoints.map YcPoint.ioa := by
  have hyc : table.yc.map YcPoint.ioa = initial.yc.map YcPoint.ioa :=
    congrArg AddressPlan.yc h.plan
  have hmem : point.ioa ∈ initial.yc.map YcPoint.ioa := hyc ▸ List.mem_map_of_mem hp
  simp only [PointTable.ycPoints, List.map_append, List.mem_append]
  exact .inl (.inl (.inl hmem))

end UploadInv

namespace UploadScanLemmas

open ActiveUploadLemmas

variable {initial table : PointTable} {area : ActiveUploadArea} {s : ScanState}

@[simp] theorem stampYx_ioa (nowMs : UInt64) (point : YxPoint) :
    (stampYx nowMs point).ioa = point.ioa := rfl

@[simp] theorem stampYc_ioa (nowMs : UInt64) (point : YcPoint) :
    (stampYc nowMs point).ioa = point.ioa := rfl

theorem uploadInv_server (table : PointTable) :
    UploadInv table table (serverUploadArea table) :=
  ⟨rfl, ⟨[], areaInv_init _ _ _⟩, areaFits_server table⟩

theorem yxEntryAt_putYx (h : UploadInv initial table area) (point : YxPoint) (withSoe : Bool)
    (hp : point.ioa ∈ initial.yx.map YxPoint.ioa) (ioa : Int32) :
    yxEntryAt (uploadStep area (.putYx point withSoe)) ioa =
      if ioa = point.ioa.toInt32 then some (yxEntry point (area.version + 1))
      else yxEntryAt area ioa := by
  obtain ⟨log, harea⟩ := h.area_inv
  have hok := putYx_ok harea h.fits hp
  rw [yxEntryAt, (uploadStep_putYx area point withSoe).1]
  rcases putYxLocked_cases area point with ⟨yx, hput, heq⟩ | heq
  · rw [heq]
    exact findKey_put harea.yx_ioa rfl hput ioa
  · rw [heq] at hok
    cases hok

theorem ycEntryAt_putYc (h : UploadInv initial table area) (point : YcPoint)
    (cot : CauseOfTransmission) (hp : point.ioa ∈ initial.ycPoints.map YcPoint.ioa) (ioa : Int32) :
    ycEntryAt (uploadStep area (.putYc point cot)) ioa =
      if ioa = point.ioa.toInt32 then some (ycEntry point cot (area.version + 1))
      else ycEntryAt area ioa := by
  obtain ⟨log, harea⟩ := h.area_inv
  have hok := putYc_ok harea h.fits cot hp
  show findKey _ ioa (pending (putYcLocked area point cot).1.yc) = _
  rcases putYcLocked_cases area point cot with ⟨yc, hput, heq⟩ | heq
  · rw [heq]
    exact findKey_put harea.yc_ioa rfl hput ioa
  · rw [heq] at hok
    cases hok

theorem ycEntryAt_putYx (point : YxPoint) (withSoe : Bool) (ioa : Int32) :
    ycEntryAt (uploadStep area (.putYx point withSoe)) ioa = ycEntryAt area ioa := by
  rw [ycEntryAt, (uploadStep_putYx area point withSoe).2]
  rfl

theorem yxEntryAt_putYc (point : YcPoint) (cot : CauseOfTransmission) (ioa : Int32) :
    yxEntryAt (uploadStep area (.putYc point cot)) ioa = yxEntryAt area ioa := by
  show findKey _ ioa (pending (putYcLocked area point cot).1.yx) = _
  rcases putYcLocked_cases area point cot with ⟨_, _, heq⟩ | heq
  · rw [heq]
    rfl
  · rw [heq]
    rfl

/-- What a scan does with a point of the table that it puts: the put cannot fail. -/
theorem publishYx_eq (h : UploadInv initial s.table s.area) {point : YxPoint}
    (hp : point.ioa ∈ initial.yx.map YxPoint.ioa) :
    publishYxChange s point =
      ({ s with area := uploadStep s.area (.putYx point point.enableSoe), hasYx := true
                hasSoe := s.hasSoe || point.enableSoe }, true) := by
  have hok := (h.put (.putYx point point.enableSoe) hp).2
  unfold publishYxChange
  split
  · next area heq =>
    have harea : uploadStep s.area (.putYx point point.enableSoe) = area := congrArg Prod.fst heq
    rw [harea]
  · next area heq =>
    have hfail : (uploadCall s.area (.putYx point point.enableSoe)).2 = false :=
      congrArg Prod.snd heq
    rw [hfail] at hok
    cases hok

theorem publishYc_eq (h : UploadInv initial s.table s.area) {point : YcPoint}
    (cot : CauseOfTransmission) (hp : point.ioa ∈ initial.ycPoints.map YcPoint.ioa) :
    publishYcChange s point cot =
      ({ s with area := uploadStep s.area (.putYc point cot), hasYc := true }, true) := by
  have hok := (h.put (.putYc point cot) hp).2
  unfold publishYcChange
  split
  · next area heq =>
    have harea : uploadStep s.area (.putYc point cot) = area := congrArg Prod.fst heq
    rw [harea]
  · next area heq =>
    have hfail : (uploadCall s.area (.putYc point cot)).2 = false := congrArg Prod.snd heq
    rw [hfail] at hok
    cases hok

/-! ## The scan and one YX point -/

theorem findYx_markYx (s : ScanState) (point : YxPoint) (ioa : Int32) :
    pointTableFindYx (markYx s point).table ioa =
      if ioa = point.ioa.toInt32 then
        (pointTableFindYx s.table ioa).map fun p =>
          { p with lastValue := boolByte (point.value != 0) }
      else pointTableFindYx s.table ioa := by
  unfold markYx pointTableMarkYxReported
  split
  · next hnone =>
    split
    · next heq => rw [heq, hnone, Option.map_none]
    · rfl
  · apply findYx_modifyYx
    exact fun _ => rfl

theorem yx_modifyYc (f : YcPoint → YcPoint) (ioa : Int32) :
    (table.modifyYc ioa f).yx = table.yx := by
  unfold PointTable.modifyYc
  split
  · rfl
  · split
    · rfl
    · split
      · rfl
      · split <;> rfl

theorem yx_markYc (s : ScanState) (point : YcPoint) : (markYc s point).table.yx = s.table.yx := by
  unfold markYc pointTableMarkYcReported
  split
  · rfl
  · exact yx_modifyYc _ _

theorem scanYx_unchanged {point : YxPoint} (hp : yxChanged point = false) (nowMs : UInt64) :
    scanYx nowMs s point = s :=
  if_neg (by simp [hp])

theorem scanYx_changed (h : UploadInv initial s.table s.area) {point : YxPoint}
    (hp : point.ioa ∈ initial.yx.map YxPoint.ioa) (hchanged : yxChanged point = true)
    (nowMs : UInt64) :
    (scanYx nowMs s point).table = (markYx s point).table ∧
      (scanYx nowMs s point).area =
        uploadStep s.area (.putYx (stampYx nowMs point) point.enableSoe) := by
  have hput : publishYxChange s (stampYx nowMs point) = _ := publishYx_eq h hp
  rw [scanYx, if_pos hchanged, hput]
  exact ⟨rfl, rfl⟩

theorem uploadInv_scanYx (h : UploadInv initial s.table s.area) {point : YxPoint}
    (hp : point.ioa ∈ initial.yx.map YxPoint.ioa) (nowMs : UInt64) :
    UploadInv initial (scanYx nowMs s point).table (scanYx nowMs s point).area := by
  cases hchanged : yxChanged point with
  | false => rwa [scanYx_unchanged hchanged]
  | true =>
    obtain ⟨htable, harea⟩ := scanYx_changed h hp hchanged nowMs
    rw [htable, harea]
    exact (h.put (.putYx (stampYx nowMs point) point.enableSoe) hp).1.withTable
      (plan_markYxReported _)

/-- The YX point and the entry at one address. -/
def yxView (s : ScanState) (ioa : Int32) : Option YxPoint × Option YxUploadEntry :=
  (pointTableFindYx s.table ioa, yxEntryAt s.area ioa)

theorem yxView_scanYx_other (h : UploadInv initial s.table s.area) {point : YxPoint}
    (hp : point.ioa ∈ initial.yx.map YxPoint.ioa) {ioa : Int32} (hne : ioa ≠ point.ioa.toInt32)
    (nowMs : UInt64) : yxView (scanYx nowMs s point) ioa = yxView s ioa := by
  cases hchanged : yxChanged point with
  | false => rw [scanYx_unchanged hchanged]
  | true =>
    obtain ⟨htable, harea⟩ := scanYx_changed h hp hchanged nowMs
    have hentry := yxEntryAt_putYx h (stampYx nowMs point) point.enableSoe hp ioa
    rw [yxView, htable, harea, findYx_markYx, if_neg hne, hentry, stampYx_ioa, if_neg hne]
    rfl

theorem yxView_scanYx_changed (h : UploadInv initial s.table s.area) {point : YxPoint}
    (hp : point.ioa ∈ initial.yx.map YxPoint.ioa) (hchanged : yxChanged point = true)
    (nowMs : UInt64) :
    yxView (scanYx nowMs s point) point.ioa.toInt32 =
      ((pointTableFindYx s.table point.ioa.toInt32).map fun p =>
          { p with lastValue := boolByte (point.value != 0) },
        some (yxEntry (stampYx nowMs point) (s.area.version + 1))) := by
  obtain ⟨htable, harea⟩ := scanYx_changed h hp hchanged nowMs
  have hentry := yxEntryAt_putYx h (stampYx nowMs point) point.enableSoe hp point.ioa.toInt32
  rw [yxView, htable, harea, findYx_markYx, if_pos rfl, hentry, stampYx_ioa, if_pos rfl]

theorem scanYc_spec (h : UploadInv initial s.table s.area) {point : YcPoint}
    (hp : point.ioa ∈ initial.ycPoints.map YcPoint.ioa) (nowMs : UInt64) (force : Bool) :
    UploadInv initial (scanYc nowMs force s point).table (scanYc nowMs force s point).area ∧
      ∀ ioa, yxView (scanYc nowMs force s point) ioa = yxView s ioa := by
  cases hcause : ycCause force point with
  | none =>
    have heq : scanYc nowMs force s point = s := by rw [scanYc, hcause]
    rw [heq]
    exact ⟨h, fun _ => rfl⟩
  | some cot =>
    have hput : publishYcChange s (stampYc nowMs point) cot = _ := publishYc_eq h cot hp
    have heq : scanYc nowMs force s point = markYc { s with
        area := uploadStep s.area (.putYc (stampYc nowMs point) cot), hasYc := true }
          (stampYc nowMs point) := by
      simp only [scanYc, hcause, hput]
    rw [heq]
    refine ⟨(h.put (.putYc (stampYc nowMs point) cot) hp).1.withTable (plan_markYcReported _),
      fun ioa => ?_⟩
    rw [yxView, pointTableFindYx, yx_markYc]
    exact congrArg _ (yxEntryAt_putYc _ cot ioa)

theorem foldl_scanYc_spec {l : List YcPoint} (h : UploadInv initial s.table s.area)
    (hl : ∀ p ∈ l, p.ioa ∈ initial.ycPoints.map YcPoint.ioa) (nowMs : UInt64) (force : Bool) :
    UploadInv initial (l.foldl (scanYc nowMs force) s).table (l.foldl (scanYc nowMs force) s).area ∧
      ∀ ioa, yxView (l.foldl (scanYc nowMs force) s) ioa = yxView s ioa := by
  induction l generalizing s with
  | nil => exact ⟨h, fun _ => rfl⟩
  | cons p l ih =>
    obtain ⟨hinv, hview⟩ := scanYc_spec h (hl p (.head l)) nowMs force
    obtain ⟨hinv', hview'⟩ := ih hinv fun q hq => hl q (.tail p hq)
    exact ⟨hinv', fun ioa => (hview' ioa).trans (hview ioa)⟩

theorem foldl_scanYx_other {l : List YxPoint} (h : UploadInv initial s.table s.area)
    (hl : ∀ p ∈ l, p.ioa ∈ initial.yx.map YxPoint.ioa) (nowMs : UInt64) :
    UploadInv initial (l.foldl (scanYx nowMs) s).table (l.foldl (scanYx nowMs) s).area ∧
      ∀ ioa, (∀ p ∈ l, ioa ≠ p.ioa.toInt32) →
        yxView (l.foldl (scanYx nowMs) s) ioa = yxView s ioa := by
  induction l generalizing s with
  | nil => exact ⟨h, fun _ _ => rfl⟩
  | cons p l ih =>
    have hp := hl p (.head l)
    obtain ⟨hinv, hview⟩ := ih (uploadInv_scanYx h hp nowMs) fun q hq => hl q (.tail p hq)
    refine ⟨hinv, fun ioa hne => ?_⟩
    exact (hview ioa fun q hq => hne q (.tail p hq)).trans
      (yxView_scanYx_other h hp (hne p (.head l)) nowMs)

/-- A scan keeps the invariant; a point that has changed gets an entry with its value and
is marked, everything else about YX stays. -/
theorem scanLoops_spec (h : UploadInv initial s.table s.area)
    (hnodup : (initial.yx.map YxPoint.ioa).Nodup) (nowMs : UInt64) (force : Bool) :
    UploadInv initial (scanLoops nowMs force s s.table.yx s.table.yc).table
        (scanLoops nowMs force s s.table.yx s.table.yc).area ∧
      ∀ point ∈ s.table.yx, if yxChanged point then
          ∃ version, yxView (scanLoops nowMs force s s.table.yx s.table.yc) point.ioa.toInt32 =
            (some { point with lastValue := boolByte (point.value != 0) },
              some (yxEntry (stampYx nowMs point) version))
        else yxView (scanLoops nowMs force s s.table.yx s.table.yc) point.ioa.toInt32 =
          yxView s point.ioa.toInt32 := by
  have hmem : ∀ p ∈ s.table.yx, p.ioa ∈ initial.yx.map YxPoint.ioa := fun p hp => h.yx_mem hp
  obtain ⟨hinv, _⟩ := foldl_scanYx_other h hmem nowMs
  obtain ⟨hinv', hyc⟩ := foldl_scanYc_spec hinv (fun p hp => h.yc_mem hp) nowMs force
  refine ⟨hinv', fun point hp => ?_⟩
  rw [scanLoops, hyc]
  -- The point is visited once, between points with other addresses.
  have hkeys : (s.table.yx.map YxPoint.ioa).Nodup := by
    have hplan : s.table.yx.map YxPoint.ioa = initial.yx.map YxPoint.ioa :=
      congrArg AddressPlan.yx h.plan
    rwa [hplan]
  have hfind : pointTableFindYx s.table point.ioa.toInt32 = some point := by
    rw [pointTableFindYx, UInt32.toUInt32_toInt32]
    exact findKey_eq_of_mem hkeys hp
  obtain ⟨front, back, hsplit, hother⟩ := split_of_mem hkeys hp
  rw [hsplit] at hmem ⊢
  have hfront : ∀ q ∈ front, point.ioa.toInt32 ≠ q.ioa.toInt32 := fun q hq heq =>
    hother q (List.mem_append_left _ hq) (toInt32_eq_iff.mp heq.symm)
  have hback : ∀ q ∈ back, point.ioa.toInt32 ≠ q.ioa.toInt32 := fun q hq heq =>
    hother q (List.mem_append_right _ hq) (toInt32_eq_iff.mp heq.symm)
  obtain ⟨hinv₁, hview₁⟩ := foldl_scanYx_other h
    (fun q hq => hmem q (List.mem_append_left _ hq)) nowMs
  have hpoint := hmem point (List.mem_append_right _ (.head back))
  obtain ⟨_, hview₂⟩ := foldl_scanYx_other (uploadInv_scanYx hinv₁ hpoint nowMs)
    (fun q hq => hmem q (List.mem_append_right _ (.tail point hq))) nowMs
  rw [List.foldl_append, List.foldl_cons, hview₂ _ hback]
  cases hchanged : yxChanged point with
  | false =>
    rw [if_neg Bool.false_ne_true, scanYx_unchanged hchanged]
    exact hview₁ _ hfront
  | true =>
    rw [if_pos rfl, yxView_scanYx_changed hinv₁ hpoint hchanged]
    have hsame := congrArg Prod.fst (hview₁ _ hfront)
    exact ⟨_, congrArg₂ _ ((congrArg _ (hsame.trans hfind)).trans rfl) rfl⟩

end UploadScanLemmas

end Iec104Slave
