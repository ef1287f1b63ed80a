import Iec104Slave.Basic
import Iec104Slave.Lib.Keyed

/-!
# The point table (`point_table.c`)

The table holds the points of five kinds in eight arrays, one for each partition of
the address plan. An array with its count is one list. Every function that
takes an `int ioa` searches its array from the front and compares with
`(uint32_t)ioa`; an update through the pointer it found is `Keyed.modifyKey`.

Each locked function of the source is one step here: the lock makes it atomic.
Fields that nothing reads are left out: the names, `raw_type`, the scaling
factors, `last_sent_value` of a counter and the CP56 copies of the time stamps.
-/

namespace Iec104Slave

open Keyed

/-! ## Points -/

/-- `YX_Point`: a status point. -/
structure YxPoint where
  ioa : UInt32
  value : UInt8
  quality : UInt8
  lastValue : UInt8
  enableSoe : Bool
  enableSpontaneous : Bool
  timestampMs : UInt64
deriving DecidableEq

/-- `YC_IECType`. -/
inductive YcIecType
  | normalized
  | scaled
  | float
deriving DecidableEq, Repr

/-- `YC_Point`: a measured value. -/
structure YcPoint where
  ioa : UInt32
  iecType : YcIecType
  value : ℚ
  quality : UInt8
  deadband : ℚ
  lastSentValue : ℚ
  enableSpontaneous : Bool
  enablePeriodic : Bool
  timestampMs : UInt64
deriving DecidableEq

/-- `YK_IECType`. -/
inductive YkIecType
  | single
  | double
deriving DecidableEq, Repr

/-- `YK_Point`: a command output. -/
structure YkPoint where
  ioa : UInt32
  iecType : YkIecType
  state : UInt8
  selectedValue : UInt8
  selectState : UInt8
  selectTimeout : Int32
  selectDeadlineMs : UInt64
deriving DecidableEq

/-- `YT_IECType`. -/
inductive YtIecType
  | normalized
  | scaled
  | float
deriving DecidableEq, Repr

/-- `YT_Point`: a setpoint output. -/
structure YtPoint where
  ioa : UInt32
  iecType : YtIecType
  value : ℚ
  selectedValue : ℚ
  minValue : ℚ
  maxValue : ℚ
  selectState : UInt8
  selectTimeout : Int32
  selectDeadlineMs : UInt64
deriving DecidableEq

/-- `DD_Point`: an integrated total. -/
structure DdPoint where
  ioa : UInt32
  value : Int32
  frozenValue : Int32
  quality : UInt8
  seq : UInt8
  timestampMs : UInt64
deriving DecidableEq

/-- `IoaRange`: both ends belong to the range. -/
structure IoaRange where
  start : Int32
  stop : Int32
deriving DecidableEq

/-- `PointType`. -/
inductive PointType
  | yx
  | yc
  | yk
  | yt
  | dd
  | ycRtu
  | ycSensorConf
  | ycCustom
deriving DecidableEq, Repr

/-- `PointPartitionMeta`. -/
structure PointPartitionMeta where
  type : PointType
  range : IoaRange
deriving DecidableEq

/-- `PointTable`, without its lock. -/
structure PointTable where
  yxMeta : PointPartitionMeta
  yx : List YxPoint
  ycMeta : PointPartitionMeta
  yc : List YcPoint
  ykMeta : PointPartitionMeta
  yk : List YkPoint
  ytMeta : PointPartitionMeta
  yt : List YtPoint
  ddMeta : PointPartitionMeta
  dd : List DdPoint
  ycRtuMeta : PointPartitionMeta
  ycRtu : List YcPoint
  ycSensorConfMeta : PointPartitionMeta
  ycSensorConf : List YcPoint
  ycCustomMeta : PointPartitionMeta
  ycCustom : List YcPoint

/-! ## The demo table -/

/-- `ioa_in_range`. -/
def ioaInRange (range : IoaRange) (ioa : Int32) : Bool :=
  decide (range.start ≤ ioa) && decide (ioa ≤ range.stop)

/-- `range_capacity`. -/
def rangeCapacity (range : IoaRange) : Nat :=
  if range.stop < range.start then 0 else (range.stop.toInt - range.start.toInt + 1).toNat

/-- `SELECT_TIMEOUT_MS`. -/
def selectTimeoutMs : Int32 := 60000

def ioaYxRange : IoaRange := ⟨0x0001, 0x1000⟩
def ioaYcRtuRange : IoaRange := ⟨0x1001, 0x2000⟩
def ioaYcSensorConfRange : IoaRange := ⟨0x2001, 0x4000⟩
def ioaYcRange : IoaRange := ⟨0x4001, 0x5000⟩
def ioaYcCustomRange : IoaRange := ⟨0x5001, 0x6000⟩
def ioaYkRange : IoaRange := ⟨0x6001, 0x6100⟩
def ioaYtRange : IoaRange := ⟨0x6201, 0x6400⟩
def ioaDdRange : IoaRange := ⟨0x6401, 0x6600⟩

/-- The address of the `i`-th point of a partition: `(uint32_t)(START + (int)i)`. -/
def ioaAt (range : IoaRange) (i : Nat) : UInt32 :=
  (range.start + Int32.ofNat i).toUInt32

/-- `init_yc_point`. The dead band `0.1f` is taken as one tenth. -/
def initYcPoint (ioa : UInt32) (value : ℚ) (type : YcIecType) (periodic : Bool) : YcPoint :=
  { ioa := ioa, iecType := type, value := value, quality := qualityGood, deadband := 1 / 10,
    lastSentValue := value, enableSpontaneous := true, enablePeriodic := periodic,
    timestampMs := 0 }

/-- The loop body of `point_table_init_demo` for the YX array. -/
def initYxPoint (i : Nat) : YxPoint :=
  let value : UInt8 := if i % 2 ≠ 0 then 1 else 0
  { ioa := ioaAt ioaYxRange i, value := value, quality := qualityGood, lastValue := value,
    enableSoe := true, enableSpontaneous := true, timestampMs := 0 }

/-- The loop body for the YK array. -/
def initYkPoint (i : Nat) : YkPoint :=
  { ioa := ioaAt ioaYkRange i, iecType := .single, state := 0, selectedValue := 0,
    selectState := 0, selectTimeout := selectTimeoutMs, selectDeadlineMs := 0 }

/-- The loop body for the YT array. -/
def initYtPoint (i : Nat) : YtPoint :=
  { ioa := ioaAt ioaYtRange i, iecType := .scaled, value := 0, selectedValue := 0,
    minValue := -10000, maxValue := 10000, selectState := 0, selectTimeout := selectTimeoutMs,
    selectDeadlineMs := 0 }

/-- The loop body for the DD array. -/
def initDdPoint (i : Nat) : DdPoint :=
  let value : Int32 := 1000 + Int32.ofNat (100 * i)
  { ioa := ioaAt ioaDdRange i, value := value, frozenValue := value, quality := qualityGood,
    seq := 0, timestampMs := 0 }

/-- The points of a partition, one for each address of its range. -/
def initPartition {α : Type} (range : IoaRange) (point : Nat → α) : List α :=
  (List.range (rangeCapacity range)).map point

/-- `point_table_init_demo`, when every allocation succeeds. -/
def pointTableInitDemo : PointTable :=
  { yxMeta := ⟨.yx, ioaYxRange⟩
    yx := initPartition ioaYxRange initYxPoint
    ycMeta := ⟨.yc, ioaYcRange⟩
    yc := initPartition ioaYcRange fun i =>
      initYcPoint (ioaAt ioaYcRange i) (10 + (i : ℚ)) .scaled true
    ykMeta := ⟨.yk, ioaYkRange⟩
    yk := initPartition ioaYkRange initYkPoint
    ytMeta := ⟨.yt, ioaYtRange⟩
    yt := initPartition ioaYtRange initYtPoint
    ddMeta := ⟨.dd, ioaDdRange⟩
    dd := initPartition ioaDdRange initDdPoint
    ycRtuMeta := ⟨.ycRtu, ioaYcRtuRange⟩
    ycRtu := initPartition ioaYcRtuRange fun i =>
      initYcPoint (ioaAt ioaYcRtuRange i) (100 + (i : ℚ)) .scaled false
    ycSensorConfMeta := ⟨.ycSensorConf, ioaYcSensorConfRange⟩
    ycSensorConf := initPartition ioaYcSensorConfRange fun i =>
      initYcPoint (ioaAt ioaYcSensorConfRange i) (200 + (i : ℚ)) .scaled false
    ycCustomMeta := ⟨.ycCustom, ioaYcCustomRange⟩
    ycCustom := initPartition ioaYcCustomRange fun i =>
      initYcPoint (ioaAt ioaYcCustomRange i) (500 + (i : ℚ)) .scaled false }

/-! ## Lookup -/

/-- `point_table_find_yx`. -/
def pointTableFindYx (table : PointTable) (ioa : Int32) : Option YxPoint :=
  findKey YxPoint.ioa ioa.toUInt32 table.yx

/-- `find_yc_in_partition`. -/
def findYcInPartition (points : List YcPoint) (ioa : Int32) : Option YcPoint :=
  findKey YcPoint.ioa ioa.toUInt32 points

/-- `point_table_find_yc`. -/
def pointTableFindYc (table : PointTable) (ioa : Int32) : Option YcPoint :=
  if ioaInRange table.ycMeta.range ioa then findYcInPartition table.yc ioa
  else if ioaInRange table.ycRtuMeta.range ioa then findYcInPartition table.ycRtu ioa
  else if ioaInRange table.ycSensorConfMeta.range ioa then findYcInPartition table.ycSensorConf ioa
  else if ioaInRange table.ycCustomMeta.range ioa then findYcInPartition table.ycCustom ioa
  else none

/-- `point_table_find_yk`. -/
def pointTableFindYk (table : PointTable) (ioa : Int32) : Option YkPoint :=
  findKey YkPoint.ioa ioa.toUInt32 table.yk

/-- `point_table_find_yt`. -/
def pointTableFindYt (table : PointTable) (ioa : Int32) : Option YtPoint :=
  findKey YtPoint.ioa ioa.toUInt32 table.yt

/-- `point_table_find_dd`. -/
def pointTableFindDd (table : PointTable) (ioa : Int32) : Option DdPoint :=
  findKey DdPoint.ioa ioa.toUInt32 table.dd

/-! ## Updates through a found pointer -/

/-- Write through the pointer `point_table_find_yx` returned. -/
def PointTable.modifyYx (table : PointTable) (ioa : Int32) (f : YxPoint → YxPoint) : PointTable :=
  { table with yx := modifyKey YxPoint.ioa ioa.toUInt32 f table.yx }

/-- Write through the pointer `point_table_find_yc` returned. -/
def PointTable.modifyYc (table : PointTable) (ioa : Int32) (f : YcPoint → YcPoint) : PointTable :=
  let modify := modifyKey YcPoint.ioa ioa.toUInt32 f
  if ioaInRange table.ycMeta.range ioa then { table with yc := modify table.yc }
  else if ioaInRange table.ycRtuMeta.range ioa then { table with ycRtu := modify table.ycRtu }
  else if ioaInRange table.ycSensorConfMeta.range ioa then
    { table with ycSensorConf := modify table.ycSensorConf }
  else if ioaInRange table.ycCustomMeta.range ioa then
    { table with ycCustom := modify table.ycCustom }
  else table

/-- Write through the pointer `point_table_find_yk` returned. -/
def PointTable.modifyYk (table : PointTable) (ioa : Int32) (f : YkPoint → YkPoint) : PointTable :=
  { table with yk := modifyKey YkPoint.ioa ioa.toUInt32 f table.yk }

/-- Write through the pointer `point_table_find_yt` returned. -/
def PointTable.modifyYt (table : PointTable) (ioa : Int32) (f : YtPoint → YtPoint) : PointTable :=
  { table with yt := modifyKey YtPoint.ioa ioa.toUInt32 f table.yt }

/-- Write through the pointer `point_table_find_dd` returned. -/
def PointTable.modifyDd (table : PointTable) (ioa : Int32) (f : DdPoint → DdPoint) : PointTable :=
  { table with dd := modifyKey DdPoint.ioa ioa.toUInt32 f table.dd }

/-! ## Setters -/

/-- `(uint8_t)(value ? 1 : 0)`. -/
def boolByte (value : Bool) : UInt8 := if value then 1 else 0

/-- `point_table_set_yx`: the old value becomes the reported-value marker. -/
def pointTableSetYx (table : PointTable) (ioa : Int32) (value : Bool) (timestampMs : UInt64) :
    PointTable × Bool :=
  match pointTableFindYx table ioa with
  | none => (table, false)
  | some _ =>
    (table.modifyYx ioa fun point =>
      { point with lastValue := point.value, value := boolByte value, timestampMs := timestampMs },
     true)

/-- `point_table_set_yc`. -/
def pointTableSetYc (table : PointTable) (ioa : Int32) (value : ℚ) (timestampMs : UInt64) :
    PointTable × Bool :=
  match pointTableFindYc table ioa with
  | none => (table, false)
  | some _ =>
    (table.modifyYc ioa fun point =>
      { point with value := value, timestampMs := timestampMs }, true)

/-- `point_table_set_yk`. -/
def pointTableSetYk (table : PointTable) (ioa : Int32) (state : Bool) : PointTable × Bool :=
  match pointTableFindYk table ioa with
  | none => (table, false)
  | some _ => (table.modifyYk ioa fun point => { point with state := boolByte state }, true)

/-- `point_table_set_yt`: a value outside the point's range is refused. -/
def pointTableSetYt (table : PointTable) (ioa : Int32) (value : ℚ) : PointTable × Bool :=
  match pointTableFindYt table ioa with
  | none => (table, false)
  | some point =>
    if value < point.minValue ∨ value > point.maxValue then (table, false)
    else (table.modifyYt ioa fun point => { point with value := value }, true)

/-- `point_table_mark_yx_reported`. -/
def pointTableMarkYxReported (table : PointTable) (ioa : Int32) (value : Bool) :
    PointTable × Bool :=
  match pointTableFindYx table ioa with
  | none => (table, false)
  | some _ => (table.modifyYx ioa fun point => { point with lastValue := boolByte value }, true)

/-- `point_table_mark_yc_reported`. -/
def pointTableMarkYcReported (table : PointTable) (ioa : Int32) (value : ℚ) : PointTable × Bool :=
  match pointTableFindYc table ioa with
  | none => (table, false)
  | some _ => (table.modifyYc ioa fun point => { point with lastSentValue := value }, true)

/-- Apply `f` to element 0 of an array, if it has one. -/
def modifyFirst {α : Type} (f : α → α) : List α → List α
  | [] => []
  | x :: l => f x :: l

/-- `point_table_simulate_scan`: the demo inputs. -/
def pointTableSimulateScan (table : PointTable) (nowMs : UInt64) : PointTable :=
  let value : UInt8 := if (nowMs / 5000) % 2 ≠ 0 then 1 else 0
  let ycDelta : ℚ := ((nowMs / 1000) % 10).toNat / 100
  let customDelta : ℚ := ((nowMs / 1000) % 20).toNat / 20
  { table with
    yx := modifyFirst (fun point =>
      if point.value ≠ value then
        { point with lastValue := point.value, value := value, timestampMs := nowMs }
      else point) table.yx
    yc := modifyFirst (fun point =>
      { point with value := 10 + ycDelta, timestampMs := nowMs }) table.yc
    ycCustom := modifyFirst (fun point =>
      { point with value := 500 + customDelta, timestampMs := nowMs }) table.ycCustom
    dd := if nowMs % 5000 < 1000 then
        modifyFirst (fun point =>
          { point with value := point.value + 1, seq := point.seq + 1, timestampMs := nowMs })
          table.dd
      else table.dd }

/-! ## Snapshots -/

/-- What a snapshot finds: the table at that time, and whether its allocations succeed. -/
structure SnapshotInput where
  table : PointTable
  created : Bool

/-- `point_table_snapshot_create`: a copy of the table. -/
def pointTableSnapshotCreate (x : SnapshotInput) : Option PointTable :=
  if x.created then some x.table else none

/-! ## What the updates leave alone -/

section lemmas

variable {table : PointTable} {ioa : Int32}

theorem initDemo_yx : pointTableInitDemo.yx = initPartition ioaYxRange initYxPoint := by
  simp only [pointTableInitDemo]

theorem mem_initPartition {α : Type} {range : IoaRange} {point : Nat → α} {i : Nat}
    (h : i < rangeCapacity range) : point i ∈ initPartition range point :=
  List.mem_map.mpr ⟨i, List.mem_range.mpr h, rfl⟩

theorem toUInt32_eq_iff {a b : Int32} : a.toUInt32 = b.toUInt32 ↔ a = b := by
  refine ⟨fun h => ?_, fun h => h ▸ rfl⟩
  have h' := congrArg UInt32.toInt32 h
  simpa using h'

theorem toInt32_eq_iff {a b : UInt32} : a.toInt32 = b.toInt32 ↔ a = b := by
  refine ⟨fun h => ?_, fun h => h ▸ rfl⟩
  simpa using congrArg Int32.toUInt32 h

theorem ioaAt_inj {range : IoaRange} {i j : Nat} (hi : i < 2 ^ 32) (hj : j < 2 ^ 32)
    (h : ioaAt range i = ioaAt range j) : i = j := by
  have hnat : Int32.ofNat i = Int32.ofNat j := (Int32.add_right_inj _).mp (toUInt32_eq_iff.mp h)
  have hbits := congrArg (fun x => x.toBitVec.toNat) hnat
  simp only [Int32.toBitVec_ofNat', BitVec.toNat_ofNat] at hbits
  rwa [Nat.mod_eq_of_lt hi, Nat.mod_eq_of_lt hj] at hbits

/-- The points of a partition have distinct addresses. -/
theorem nodup_initPartition {α : Type} {range : IoaRange} {point : Nat → α} {ioa : α → UInt32}
    (hioa : ∀ i, ioa (point i) = ioaAt range i) (hcap : rangeCapacity range ≤ 2 ^ 32) :
    ((initPartition range point).map ioa).Nodup := by
  rw [initPartition, List.map_map]
  refine List.Nodup.map_on (fun i hi j hj heq => ?_) List.nodup_range
  rw [Function.comp_apply, Function.comp_apply, hioa, hioa] at heq
  exact ioaAt_inj (Nat.lt_of_lt_of_le (List.mem_range.mp hi) hcap)
    (Nat.lt_of_lt_of_le (List.mem_range.mp hj) hcap) heq

@[simp] theorem findYk_modifyYk (f : YkPoint → YkPoint) (hf : ∀ p, (f p).ioa = p.ioa)
    (ioa' : Int32) :
    pointTableFindYk (table.modifyYk ioa f) ioa' =
      if ioa' = ioa then (pointTableFindYk table ioa').map f else pointTableFindYk table ioa' := by
  simp only [pointTableFindYk, PointTable.modifyYk, findKey_modifyKey hf, toUInt32_eq_iff]

@[simp] theorem findYt_modifyYt (f : YtPoint → YtPoint) (hf : ∀ p, (f p).ioa = p.ioa)
    (ioa' : Int32) :
    pointTableFindYt (table.modifyYt ioa f) ioa' =
      if ioa' = ioa then (pointTableFindYt table ioa').map f else pointTableFindYt table ioa' := by
  simp only [pointTableFindYt, PointTable.modifyYt, findKey_modifyKey hf, toUInt32_eq_iff]

@[simp] theorem findYx_modifyYx (f : YxPoint → YxPoint) (hf : ∀ p, (f p).ioa = p.ioa)
    (ioa' : Int32) :
    pointTableFindYx (table.modifyYx ioa f) ioa' =
      if ioa' = ioa then (pointTableFindYx table ioa').map f else pointTableFindYx table ioa' := by
  simp only [pointTableFindYx, PointTable.modifyYx, findKey_modifyKey hf, toUInt32_eq_iff]

end lemmas

/-! ## The addresses of a table -/

/-- The addresses of the YX and YC arrays, and the ranges by which YC points are found. No
function of the source changes them. -/
structure AddressPlan where
  yx : List UInt32
  yc : List UInt32
  ycRtu : List UInt32
  ycSensorConf : List UInt32
  ycCustom : List UInt32
  ycRange : IoaRange
  ycRtuRange : IoaRange
  ycSensorConfRange : IoaRange
  ycCustomRange : IoaRange

def PointTable.plan (table : PointTable) : AddressPlan where
  yx := table.yx.map YxPoint.ioa
  yc := table.yc.map YcPoint.ioa
  ycRtu := table.ycRtu.map YcPoint.ioa
  ycSensorConf := table.ycSensorConf.map YcPoint.ioa
  ycCustom := table.ycCustom.map YcPoint.ioa
  ycRange := table.ycMeta.range
  ycRtuRange := table.ycRtuMeta.range
  ycSensorConfRange := table.ycSensorConfMeta.range
  ycCustomRange := table.ycCustomMeta.range

section plan

variable {table : PointTable} {ioa : Int32}

@[simp] theorem plan_modifyYx {f : YxPoint → YxPoint} (hf : ∀ p, (f p).ioa = p.ioa) :
    (table.modifyYx ioa f).plan = table.plan := by
  simp [PointTable.plan, PointTable.modifyYx, map_key_modifyKey hf]

@[simp] theorem plan_modifyYc {f : YcPoint → YcPoint} (hf : ∀ p, (f p).ioa = p.ioa) :
    (table.modifyYc ioa f).plan = table.plan := by
  unfold PointTable.modifyYc
  split
  · simp [PointTable.plan, map_key_modifyKey hf]
  · split
    · simp [PointTable.plan, map_key_modifyKey hf]
    · split
      · simp [PointTable.plan, map_key_modifyKey hf]
      · split
        · simp [PointTable.plan, map_key_modifyKey hf]
        · rfl

theorem map_modifyFirst {α β : Type} {f : α → α} {g : α → β} (hf : ∀ x, g (f x) = g x)
    (l : List α) : (modifyFirst f l).map g = l.map g := by
  cases l with
  | nil => rfl
  | cons x l => simp [modifyFirst, hf]

theorem plan_setYx (value : Bool) (timestampMs : UInt64) :
    (pointTableSetYx table ioa value timestampMs).1.plan = table.plan := by
  unfold pointTableSetYx
  split
  · rfl
  · exact plan_modifyYx fun _ => rfl

theorem plan_setYc (value : ℚ) (timestampMs : UInt64) :
    (pointTableSetYc table ioa value timestampMs).1.plan = table.plan := by
  unfold pointTableSetYc
  split
  · rfl
  · exact plan_modifyYc fun _ => rfl

theorem plan_markYxReported (value : Bool) :
    (pointTableMarkYxReported table ioa value).1.plan = table.plan := by
  unfold pointTableMarkYxReported
  split
  · rfl
  · exact plan_modifyYx fun _ => rfl

theorem plan_markYcReported (value : ℚ) :
    (pointTableMarkYcReported table ioa value).1.plan = table.plan := by
  unfold pointTableMarkYcReported
  split
  · rfl
  · exact plan_modifyYc fun _ => rfl

/-- The scan of a demo YX point keeps the addresses. -/
theorem map_ioa_scanYx (value : UInt8) (nowMs : UInt64) (l : List YxPoint) :
    (modifyFirst (fun p => if p.value ≠ value then
      { p with lastValue := p.value, value := value, timestampMs := nowMs } else p) l).map
        YxPoint.ioa = l.map YxPoint.ioa := by
  refine map_modifyFirst (fun p => ?_) l
  split <;> rfl

theorem map_ioa_scanYc (value : ℚ) (nowMs : UInt64) (l : List YcPoint) :
    (modifyFirst (fun p => { p with value := value, timestampMs := nowMs }) l).map YcPoint.ioa =
      l.map YcPoint.ioa := by
  apply map_modifyFirst
  exact fun _ => rfl

theorem plan_simulateScan (nowMs : UInt64) :
    (pointTableSimulateScan table nowMs).plan = table.plan := by
  simp only [PointTable.plan, pointTableSimulateScan, map_ioa_scanYx, map_ioa_scanYc]

end plan

end Iec104Slave
