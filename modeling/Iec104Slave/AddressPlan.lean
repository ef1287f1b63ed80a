import Iec104Slave.CommandHandler
import Iec104Slave.Interrogation
import Iec104Slave.DiagServer

/-!
# Lookup and the address plan

A point is found in one of two ways: `point_table_get_partition` compares an address with the
ranges of the partitions, and the `find` functions search the arrays for a point that has it.
The two have no code in common. They agree because each array has the addresses of its range,
in order, and because nothing that writes a point writes its address.

Results:
1. `sameAddresses_step`: no operation of the four files that write points changes an address, a
   count or a range.
2. `planned_exec`: every reachable table follows the plan.
3. `shortAddresses_exec`: its addresses fit into the three bytes of the protocol.
4. `point_lookup_follows_plan`: in such a table both ways give the same answer for every `int`,
   and no address is in two partitions.
-/

namespace Iec104Slave

open Keyed

/-! ## Partitions -/

/-- `point_table_get_partition`. -/
def pointTableGetPartition (table : PointTable) (ioa : Int32) : Option PointPartitionMeta :=
  if ioaInRange table.yxMeta.range ioa then some table.yxMeta
  else if ioaInRange table.ycRtuMeta.range ioa then some table.ycRtuMeta
  else if ioaInRange table.ycSensorConfMeta.range ioa then some table.ycSensorConfMeta
  else if ioaInRange table.ycMeta.range ioa then some table.ycMeta
  else if ioaInRange table.ycCustomMeta.range ioa then some table.ycCustomMeta
  else if ioaInRange table.ykMeta.range ioa then some table.ykMeta
  else if ioaInRange table.ytMeta.range ioa then some table.ytMeta
  else if ioaInRange table.ddMeta.range ioa then some table.ddMeta
  else none

def PointTable.partitionMeta (table : PointTable) : PointType → PointPartitionMeta
  | .yx => table.yxMeta
  | .yc => table.ycMeta
  | .yk => table.ykMeta
  | .yt => table.ytMeta
  | .dd => table.ddMeta
  | .ycRtu => table.ycRtuMeta
  | .ycSensorConf => table.ycSensorConfMeta
  | .ycCustom => table.ycCustomMeta

/-- The array of a partition of measured values. -/
def PointTable.ycPartition (table : PointTable) : PointType → List YcPoint
  | .yc => table.yc
  | .ycRtu => table.ycRtu
  | .ycSensorConf => table.ycSensorConf
  | .ycCustom => table.ycCustom
  | _ => []

/-- The addresses in the array of a partition. -/
def PointTable.addresses (table : PointTable) : PointType → List UInt32
  | .yx => table.yx.map YxPoint.ioa
  | .yk => table.yk.map YkPoint.ioa
  | .yt => table.yt.map YtPoint.ioa
  | .dd => table.dd.map DdPoint.ioa
  | type => (table.ycPartition type).map YcPoint.ioa

/-! ## The operations on the table -/

/-- What writes the points: the setters and markers of `point_table.c`, the worker and the
counter interrogation of `iec104_server.c`, the older command handler and the diagnostic
server. A diagnostic command takes the lock more than once; its later writes are operations
of their own too, so that others may come between. -/
inductive TableOp
  | setYx (ioa : Int32) (value : Bool) (timestampMs : UInt64)
  | setYc (ioa : Int32) (value : ℚ) (timestampMs : UInt64)
  | setYk (ioa : Int32) (state : Bool)
  | setYt (ioa : Int32) (value : ℚ)
  | markYx (ioa : Int32) (value : Bool)
  | markYc (ioa : Int32) (value : ℚ)
  | simulateScan (nowMs : UInt64)
  | remoteControl (x : RemoteControlInput)
  | remoteAdjust (x : RemoteAdjustInput)
  | command (asdu : ReceivedAsdu) (now : UInt64)
  | freeze (frz : UInt8) (clock : Nat → UInt64)
  | diag (x : DiagEnv) (server : DiagServer) (line : List UInt8)
  | diagYxQuality (ioa : Int32) (quality : UInt8)
  | diagYcQuality (ioa : Int32) (quality : UInt8)

def TableOp.step (table : PointTable) : TableOp → PointTable
  | .setYx ioa value timestampMs => (pointTableSetYx table ioa value timestampMs).1
  | .setYc ioa value timestampMs => (pointTableSetYc table ioa value timestampMs).1
  | .setYk ioa state => (pointTableSetYk table ioa state).1
  | .setYt ioa value => (pointTableSetYt table ioa value).1
  | .markYx ioa value => (pointTableMarkYxReported table ioa value).1
  | .markYc ioa value => (pointTableMarkYcReported table ioa value).1
  | .simulateScan nowMs => pointTableSimulateScan table nowMs
  | .remoteControl x => handleRemoteControlWork table x
  | .remoteAdjust x => handleRemoteAdjustWork table x
  | .command asdu now => ((commandHandleAsdu table asdu now).map Prod.fst).getD table
  | .freeze frz clock => { table with dd := Answer.freezeCounters frz clock table.dd }
  | .diag x server line => (diagServerExecute x { server with table := table } line).1.table
  | .diagYxQuality ioa quality => table.modifyYx ioa fun point => { point with quality := quality }
  | .diagYcQuality ioa quality => table.modifyYc ioa fun point => { point with quality := quality }

/-! ## The plan -/

/-- The address plan of `point_table_init_demo`. -/
def planRange : PointType → IoaRange
  | .yx => ioaYxRange
  | .yc => ioaYcRange
  | .yk => ioaYkRange
  | .yt => ioaYtRange
  | .dd => ioaDdRange
  | .ycRtu => ioaYcRtuRange
  | .ycSensorConf => ioaYcSensorConfRange
  | .ycCustom => ioaYcCustomRange

/-- The two tables have the same partitions with the same addresses. -/
structure SameAddresses (table table' : PointTable) : Prop where
  partitionMeta : ∀ type, table'.partitionMeta type = table.partitionMeta type
  addresses : ∀ type, table'.addresses type = table.addresses type

/-- Each array has the addresses of its range, in order. -/
structure Planned (table : PointTable) : Prop where
  partitionMeta : ∀ type, table.partitionMeta type = ⟨type, planRange type⟩
  addresses : ∀ type, table.addresses type =
    (List.range (rangeCapacity (planRange type))).map (ioaAt (planRange type))

/-- A search for `ioa` agrees with its partition: there is a point exactly if the partition is
of one of the types, and then it is the point at index `ioa - range.start`, with the address
`ioa`. -/
structure AgreesWithPlan {α : Type} (address : α → UInt32) (types : List PointType)
    (array : PointType → List α) (partition : Option PointPartitionMeta) (ioa : Int32)
    (found : Option α) : Prop where
  isSome_iff : found.isSome = true ↔ ∃ p, partition = some p ∧ p.type ∈ types
  at_index : ∀ p point, partition = some p → found = some point →
    (array p.type)[(ioa.toInt - p.range.start.toInt).toNat]? = some point ∧
      address point = ioa.toUInt32

namespace AddressPlanLemmas

open CommandHandlerLemmas

variable {table table' table'' : PointTable} {ioa : Int32}

/-! ## Writes that keep the addresses -/

theorem same_refl (table : PointTable) : SameAddresses table table :=
  ⟨fun _ => rfl, fun _ => rfl⟩

theorem same_trans (h : SameAddresses table table') (h' : SameAddresses table' table'') :
    SameAddresses table table'' :=
  ⟨fun type => (h'.partitionMeta type).trans (h.partitionMeta type),
    fun type => (h'.addresses type).trans (h.addresses type)⟩

theorem same_yx {yx : List YxPoint} (h : yx.map YxPoint.ioa = table.yx.map YxPoint.ioa) :
    SameAddresses table { table with yx } := by
  refine ⟨fun type => ?_, fun type => ?_⟩ <;> cases type <;> first | rfl | exact h

theorem same_yk {yk : List YkPoint} (h : yk.map YkPoint.ioa = table.yk.map YkPoint.ioa) :
    SameAddresses table { table with yk } := by
  refine ⟨fun type => ?_, fun type => ?_⟩ <;> cases type <;> first | rfl | exact h

theorem same_yt {yt : List YtPoint} (h : yt.map YtPoint.ioa = table.yt.map YtPoint.ioa) :
    SameAddresses table { table with yt } := by
  refine ⟨fun type => ?_, fun type => ?_⟩ <;> cases type <;> first | rfl | exact h

theorem same_dd {dd : List DdPoint} (h : dd.map DdPoint.ioa = table.dd.map DdPoint.ioa) :
    SameAddresses table { table with dd } := by
  refine ⟨fun type => ?_, fun type => ?_⟩ <;> cases type <;> first | rfl | exact h

theorem same_modifyYx {f : YxPoint → YxPoint} (hf : ∀ p, (f p).ioa = p.ioa) :
    SameAddresses table (table.modifyYx ioa f) :=
  same_yx (map_key_modifyKey hf)

theorem same_modifyYk {f : YkPoint → YkPoint} (hf : ∀ p, (f p).ioa = p.ioa) :
    SameAddresses table (table.modifyYk ioa f) :=
  same_yk (map_key_modifyKey hf)

theorem same_modifyYt {f : YtPoint → YtPoint} (hf : ∀ p, (f p).ioa = p.ioa) :
    SameAddresses table (table.modifyYt ioa f) :=
  same_yt (map_key_modifyKey hf)

theorem same_modifyDd {f : DdPoint → DdPoint} (hf : ∀ p, (f p).ioa = p.ioa) :
    SameAddresses table (table.modifyDd ioa f) :=
  same_dd (map_key_modifyKey hf)

theorem same_modifyYc {f : YcPoint → YcPoint} (hf : ∀ p, (f p).ioa = p.ioa) :
    SameAddresses table (table.modifyYc ioa f) := by
  have hkey : ∀ l, (modifyKey YcPoint.ioa ioa.toUInt32 f l).map YcPoint.ioa =
      l.map YcPoint.ioa := fun l => map_key_modifyKey hf
  unfold PointTable.modifyYc
  repeat' split
  all_goals
    refine ⟨fun type => ?_, fun type => ?_⟩ <;> cases type <;> first | rfl | exact hkey _

/-! ## Each operation -/

theorem same_setYx (ioa : Int32) (value : Bool) (timestampMs : UInt64) :
    SameAddresses table (pointTableSetYx table ioa value timestampMs).1 := by
  unfold pointTableSetYx
  split
  · exact same_refl table
  · exact same_modifyYx fun _ => rfl

theorem same_setYc (ioa : Int32) (value : ℚ) (timestampMs : UInt64) :
    SameAddresses table (pointTableSetYc table ioa value timestampMs).1 := by
  unfold pointTableSetYc
  split
  · exact same_refl table
  · exact same_modifyYc fun _ => rfl

theorem same_setYk (ioa : Int32) (state : Bool) :
    SameAddresses table (pointTableSetYk table ioa state).1 := by
  unfold pointTableSetYk
  split
  · exact same_refl table
  · exact same_modifyYk fun _ => rfl

theorem same_setYt (ioa : Int32) (value : ℚ) :
    SameAddresses table (pointTableSetYt table ioa value).1 := by
  unfold pointTableSetYt
  split
  · exact same_refl table
  · split
    · exact same_refl table
    · exact same_modifyYt fun _ => rfl

theorem same_markYx (ioa : Int32) (value : Bool) :
    SameAddresses table (pointTableMarkYxReported table ioa value).1 := by
  unfold pointTableMarkYxReported
  split
  · exact same_refl table
  · exact same_modifyYx fun _ => rfl

theorem same_markYc (ioa : Int32) (value : ℚ) :
    SameAddresses table (pointTableMarkYcReported table ioa value).1 := by
  unfold pointTableMarkYcReported
  split
  · exact same_refl table
  · exact same_modifyYc fun _ => rfl

theorem same_simulateScan (nowMs : UInt64) :
    SameAddresses table (pointTableSimulateScan table nowMs) := by
  refine ⟨fun type => ?_, fun type => ?_⟩
  · cases type <;> rfl
  · cases type with
    | yx => exact map_ioa_scanYx _ _ _
    | yc => exact map_ioa_scanYc _ _ _
    | ycCustom => exact map_ioa_scanYc _ _ _
    | dd =>
      simp only [PointTable.addresses, pointTableSimulateScan]
      split
      · apply map_modifyFirst
        exact fun _ => rfl
      · rfl
    | _ => rfl

theorem same_remoteControl (x : RemoteControlInput) :
    SameAddresses table (handleRemoteControlWork table x) := by
  unfold handleRemoteControlWork
  split
  · exact same_refl table
  · next point _ =>
    exact same_modifyYk fun p => congrArg Prod.fst (RemoteControlLemmas.update_static x point p)

/-- Both loops of the setpoint handler write the points one after the other. -/
theorem same_applySetpoints (x : RemoteAdjustInput) (items : List (UInt32 × ℚ)) (i : Nat) :
    SameAddresses table (applySetpoints x i items table).1 := by
  induction items generalizing i table with
  | nil => exact same_refl table
  | cons item items ih =>
    exact same_trans (same_modifyYt (RemoteAdjustLemmas.applySetpoint_ioa item)) (ih (i + 1))

theorem same_clearSetpoints (items : List (UInt32 × ℚ)) :
    SameAddresses table (clearSetpoints items table) := by
  induction items generalizing table with
  | nil => exact same_refl table
  | cons item items ih =>
    have hclear : ∀ p, (clearYtSelection p).ioa = p.ioa := fun _ => rfl
    exact same_trans (same_modifyYt hclear) ih

theorem same_remoteAdjust (x : RemoteAdjustInput) :
    SameAddresses table (handleRemoteAdjustWork table x) := by
  unfold handleRemoteAdjustWork
  split
  · exact same_clearSetpoints x.items
  · exact same_applySetpoints x x.items 0

/-- A handler that ends early has written nothing. -/
theorem same_onFirstPoint {π : Type} {refused : Prop} [Decidable refused] {asdu : ReceivedAsdu}
    {find : PointTable → Int32 → Option π} {work : ReceivedElement → π → PointTable × Reply}
    (h : ∀ e point, SameAddresses table (work e point).1) :
    SameAddresses table (onFirstPoint refused table asdu find work).1 := by
  unfold onFirstPoint
  split
  · exact same_refl table
  split
  · exact same_refl table
  split
  · exact same_refl table
  · exact h _ _

theorem same_command (asdu : ReceivedAsdu) (now : UInt64) :
    SameAddresses table (((commandHandleAsdu table asdu now).map Prod.fst).getD table) := by
  unfold commandHandleAsdu
  split
  · exact same_onFirstPoint fun _ _ => same_modifyYk (controlUpdate_ioa _ _ _ _ _ _)
  split
  · exact same_onFirstPoint fun _ _ => same_modifyYt (setpointUpdate_ioa _ _ _ _)
  · exact same_refl table

theorem same_freeze (frz : UInt8) (clock : Nat → UInt64) :
    SameAddresses table { table with dd := Answer.freezeCounters frz clock table.dd } := by
  refine same_dd ?_
  unfold Answer.freezeCounters
  split
  · refine List.ext_getElem? fun i => ?_
    simp only [List.getElem?_map, List.getElem?_mapIdx, Option.map_map]
    rfl
  · rfl

/-- The writes of `set-yx` and `set-yc` under several locks. -/
theorem same_handleSetYx (x : DiagEnv) (diag : DiagServer) (line : List UInt8) :
    SameAddresses diag.table (handleSetYx x diag line).1.table := by
  unfold handleSetYx
  split
  · exact same_refl _
  split
  · next ioa value _ _ =>
    dsimp only
    split
    · exact same_refl _
    · refine same_trans (same_setYx ioa value x.now) ?_
      dsimp only
      split
      · split
        · exact same_modifyYx fun _ => rfl
        · exact same_refl _
      · exact same_refl _
  · exact same_refl _

theorem same_handleSetYc (x : DiagEnv) (diag : DiagServer) (line : List UInt8) :
    SameAddresses diag.table (handleSetYc x diag line).1.table := by
  unfold handleSetYc
  split
  · exact same_refl _
  split
  · next ioa value _ _ =>
    dsimp only
    split
    · exact same_refl _
    · refine same_trans (same_setYc ioa value x.now) ?_
      split
      · exact same_refl _
      · dsimp only
        rw [(DiagServerLemmas.sameData_notify _).table]
        refine same_trans ?_ (same_markYc _ _)
        split
        · exact same_modifyYc fun _ => rfl
        · exact same_refl _
  · exact same_refl _

theorem same_handleSetDd (x : DiagEnv) (diag : DiagServer) (line : List UInt8) :
    SameAddresses diag.table (handleSetDd x diag line).1.table := by
  unfold handleSetDd
  split
  · exact same_refl _
  split
  · split
    · exact same_refl _
    · exact same_modifyDd fun _ => rfl
  · exact same_refl _

/-- The other commands do not write points. -/
theorem handleSoe_table (x : DiagEnv) (diag : DiagServer) (line : List UInt8) :
    (handleSoe x diag line).1.table = diag.table := by
  unfold handleSoe soeAdd
  repeat' split
  all_goals first | rfl | exact (DiagServerLemmas.sameData_notify _).table

theorem handleActiveUpload_table (x : DiagEnv) (diag : DiagServer) (line : List UInt8) :
    (handleActiveUpload x diag line).1.table = diag.table := by
  unfold handleActiveUpload
  split
  · split <;> rfl
  split
  · exact (DiagServerLemmas.sameData_notify diag).table
  split
  · rfl
  · split <;> rfl

theorem same_diag (x : DiagEnv) (diag : DiagServer) (line : List UInt8) :
    SameAddresses diag.table (diagServerExecute x diag line).1.table := by
  unfold diagServerExecute
  split
  · exact same_refl _
  split
  · exact same_refl _
  split
  · exact same_handleSetYx x diag line
  split
  · exact same_handleSetYc x diag line
  split
  · exact same_handleSetDd x diag line
  split
  · rw [handleSoe_table]
    exact same_refl _
  split
  · rw [handleActiveUpload_table]
    exact same_refl _
  · exact same_refl _

/-- No operation changes an address, a count or a range. -/
theorem sameAddresses_step (table : PointTable) (op : TableOp) :
    SameAddresses table (op.step table) := by
  cases op with
  | setYx ioa value timestampMs => exact same_setYx ioa value timestampMs
  | setYc ioa value timestampMs => exact same_setYc ioa value timestampMs
  | setYk ioa state => exact same_setYk ioa state
  | setYt ioa value => exact same_setYt ioa value
  | markYx ioa value => exact same_markYx ioa value
  | markYc ioa value => exact same_markYc ioa value
  | simulateScan nowMs => exact same_simulateScan nowMs
  | remoteControl x => exact same_remoteControl x
  | remoteAdjust x => exact same_remoteAdjust x
  | command asdu now => exact same_command asdu now
  | freeze frz clock => exact same_freeze frz clock
  | diag x server line => exact same_diag x { server with table := table } line
  | diagYxQuality ioa quality => exact same_modifyYx fun _ => rfl
  | diagYcQuality ioa quality => exact same_modifyYc fun _ => rfl

theorem planned_initDemo : Planned pointTableInitDemo := by
  constructor
  · intro type
    cases type <;> rfl
  · intro type
    cases type <;>
      simp only [PointTable.addresses, PointTable.ycPartition, pointTableInitDemo, initPartition,
        List.map_map, planRange] <;> rfl

theorem planned_exec (ops : List TableOp) :
    Planned (Run.exec TableOp.step pointTableInitDemo ops) := by
  refine Run.exec_induction (I := fun _ table => Planned table) planned_initDemo ?_ ops
  intro _ table op h
  have hsame := sameAddresses_step table op
  exact ⟨fun type => (hsame.partitionMeta type).trans (h.partitionMeta type),
    fun type => (hsame.addresses type).trans (h.addresses type)⟩

/-! ## The ranges -/

theorem inRange_iff {range : IoaRange} :
    ioaInRange range ioa = true ↔
      range.start.toInt ≤ ioa.toInt ∧ ioa.toInt ≤ range.stop.toInt := by
  simp [ioaInRange, Int32.le_iff_toInt_le]

/-- The ranges are not empty and lie below 2 ^ 15. -/
theorem range_bounds (type : PointType) :
    0 < (planRange type).start.toInt ∧
      (planRange type).start.toInt ≤ (planRange type).stop.toInt ∧
      (planRange type).stop.toInt < 2 ^ 15 := by
  cases type <;> decide

theorem range_disjoint {type type' : PointType} (hne : type ≠ type') :
    (planRange type).stop.toInt < (planRange type').start.toInt ∨
      (planRange type').stop.toInt < (planRange type).start.toInt := by
  cases type <;> cases type' <;> first | exact absurd rfl hne | decide

theorem range_unique {type type' : PointType} (h : ioaInRange (planRange type) ioa = true)
    (h' : ioaInRange (planRange type') ioa = true) : type = type' := by
  by_contra hne
  rw [inRange_iff] at h h'
  rcases range_disjoint hne with hlt | hlt <;> omega

theorem capacity_eq (type : PointType) :
    (rangeCapacity (planRange type) : Int) =
      (planRange type).stop.toInt - (planRange type).start.toInt + 1 := by
  cases type <;> decide

theorem toInt_add_ofNat {start : Int32} {i : Nat} (hstart : 0 < start.toInt)
    (hsum : start.toInt + i < 2 ^ 31) : (start + Int32.ofNat i).toInt = start.toInt + i := by
  rw [Int32.toInt_add, Int32.toInt_ofNat_of_lt (by omega)]
  exact Int.bmod_eq_of_le (by omega) (by omega)

/-- The point with an address of the range stands at the distance from its start. -/
theorem planAddresses_getElem? (type : PointType) (ioa : Int32) (i : Nat) :
    ((List.range (rangeCapacity (planRange type))).map (ioaAt (planRange type)))[i]? =
        some ioa.toUInt32 ↔
      ioaInRange (planRange type) ioa = true ∧
        i = (ioa.toInt - (planRange type).start.toInt).toNat := by
  obtain ⟨hpos, hle, hsmall⟩ := range_bounds type
  have hcap := capacity_eq type
  rw [inRange_iff, List.getElem?_map]
  by_cases hi : i < rangeCapacity (planRange type)
  · have hsum := toInt_add_ofNat (i := i) hpos (by omega)
    rw [List.getElem?_range hi, Option.map_some, Option.some_inj, ioaAt, toUInt32_eq_iff,
      ← Int32.toInt_inj, hsum]
    omega
  · rw [List.getElem?_eq_none (by simpa using hi)]
    simp only [Option.map_none, reduceCtorEq, false_iff]
    omega

theorem planAddresses_nodup (type : PointType) :
    ((List.range (rangeCapacity (planRange type))).map (ioaAt (planRange type))).Nodup := by
  have hcap : rangeCapacity (planRange type) ≤ 2 ^ 32 := by cases type <;> decide
  have hnodup : ((initPartition (planRange type) id).map (ioaAt (planRange type))).Nodup :=
    nodup_initPartition (fun _ => rfl) hcap
  rwa [initPartition, List.map_id] at hnodup

theorem mem_planAddresses (type : PointType) (ioa : Int32) :
    ioa.toUInt32 ∈ (List.range (rangeCapacity (planRange type))).map (ioaAt (planRange type)) ↔
      ioaInRange (planRange type) ioa = true := by
  rw [List.mem_iff_getElem?]
  simp only [planAddresses_getElem?, exists_and_left, exists_eq, and_true]

theorem planned_short {table : PointTable} (h : Planned table) (type : PointType) {ioa : UInt32}
    (hioa : ioa ∈ table.addresses type) : ioa.toNat < 2 ^ 24 := by
  obtain ⟨hpos, _, hsmall⟩ := range_bounds type
  have hin : ioa.toInt32.toUInt32 ∈ table.addresses type := hioa
  rw [h.addresses, mem_planAddresses, inRange_iff] at hin
  have hnat : ioa.toInt32.toInt = _ := BitVec.toInt_eq_toNat_cond ioa.toBitVec
  have hword := ioa.toNat_lt
  rw [UInt32.toNat_toBitVec] at hnat
  split at hnat <;> omega

/-- The addresses of a table that follows the plan fit into three bytes. -/
theorem shortAddresses_of_planned {table : PointTable} (h : Planned table) :
    table.ShortAddresses where
  yx _ hp := planned_short h .yx (List.mem_map_of_mem hp)
  yc _ hp := planned_short h .yc (List.mem_map_of_mem hp)
  ycRtu _ hp := planned_short h .ycRtu (List.mem_map_of_mem hp)
  ycSensorConf _ hp := planned_short h .ycSensorConf (List.mem_map_of_mem hp)
  ycCustom _ hp := planned_short h .ycCustom (List.mem_map_of_mem hp)
  dd _ hp := planned_short h .dd (List.mem_map_of_mem hp)

/-- So do those of every table that the program reaches: what an interrogation reads is such a
table. -/
theorem shortAddresses_exec (ops : List TableOp) :
    (Run.exec TableOp.step pointTableInitDemo ops).ShortAddresses :=
  shortAddresses_of_planned (planned_exec ops)


/-! ## The two ways to a point -/

section lookup

variable {α : Type} {address : α → UInt32} {array : List α} {type : PointType}
  (h : array.map address =
    (List.range (rangeCapacity (planRange type))).map (ioaAt (planRange type)))
include h

theorem find_in (hin : ioaInRange (planRange type) ioa = true) :
    ∃ point, findKey address ioa.toUInt32 array = some point ∧
      array[(ioa.toInt - (planRange type).start.toInt).toNat]? = some point ∧
      address point = ioa.toUInt32 := by
  have hat := (planAddresses_getElem? type ioa _).mpr ⟨hin, rfl⟩
  rw [← h] at hat
  have hindex := (keyIndex_eq_some_iff (h ▸ planAddresses_nodup type)).mpr hat
  rw [List.getElem?_map, Option.map_eq_some_iff] at hat
  obtain ⟨point, hpoint, haddress⟩ := hat
  refine ⟨point, ?_, hpoint, haddress⟩
  rw [findKey_eq_getElem?, hindex, Option.bind_some, hpoint]

theorem find_out (hout : ioaInRange (planRange type) ioa = false) :
    findKey address ioa.toUInt32 array = none := by
  refine Option.eq_none_iff_forall_not_mem.mpr fun point hpoint => ?_
  have hmem : ioa.toUInt32 ∈ array.map address :=
    List.mem_map.mpr ⟨point, findKey_mem hpoint, findKey_some hpoint⟩
  rw [h, mem_planAddresses, hout] at hmem
  cases hmem

end lookup

/-- The eight tests of `point_table_get_partition`. -/
theorem getPartition_eq_some_iff (h : Planned table) {p : PointPartitionMeta} :
    pointTableGetPartition table ioa = some p ↔
      ∃ type, ioaInRange (planRange type) ioa = true ∧ p = ⟨type, planRange type⟩ := by
  have hmeta := h.partitionMeta
  have hyx : table.yxMeta = _ := hmeta .yx
  have hyc : table.ycMeta = _ := hmeta .yc
  have hyk : table.ykMeta = _ := hmeta .yk
  have hyt : table.ytMeta = _ := hmeta .yt
  have hdd : table.ddMeta = _ := hmeta .dd
  have hrtu : table.ycRtuMeta = _ := hmeta .ycRtu
  have hsensor : table.ycSensorConfMeta = _ := hmeta .ycSensorConf
  have hcustom : table.ycCustomMeta = _ := hmeta .ycCustom
  simp only [pointTableGetPartition, hyx, hyc, hyk, hyt, hdd, hrtu, hsensor, hcustom]
  constructor
  · intro hp
    repeat' split at hp
    all_goals cases hp
    all_goals exact ⟨_, ‹_›, rfl⟩
  · rintro ⟨type, hin, rfl⟩
    -- the other tests fail: no two ranges have the address
    have hother : ∀ type', type' ≠ type → ioaInRange (planRange type') ioa = false :=
      fun type' hne => eq_false_of_ne_true fun h' => hne (range_unique h' hin)
    cases type <;> simp [hin, hother]

/-- A search that goes to the array of the right partition agrees with the plan. -/
theorem agrees {α : Type} {address : α → UInt32} {types : List PointType}
    {array : PointType → List α} {found : Option α} (h : Planned table)
    (harray : ∀ type ∈ types, (array type).map address =
      (List.range (rangeCapacity (planRange type))).map (ioaAt (planRange type)))
    (hfound : ∀ type ∈ types, ioaInRange (planRange type) ioa = true →
      found = findKey address ioa.toUInt32 (array type))
    (hnone : (∀ type ∈ types, ioaInRange (planRange type) ioa = false) → found = none) :
    AgreesWithPlan address types array (pointTableGetPartition table ioa) ioa found := by
  by_cases hany : ∃ type ∈ types, ioaInRange (planRange type) ioa = true
  · obtain ⟨type, htype, hin⟩ := hany
    obtain ⟨point, hfind, hat, haddress⟩ := find_in (harray type htype) hin
    have hpartition := (getPartition_eq_some_iff h).mpr ⟨type, hin, rfl⟩
    rw [hfound type htype hin, hfind]
    constructor
    · exact ⟨fun _ => ⟨_, hpartition, htype⟩, fun _ => rfl⟩
    · rintro p _ hp ⟨⟩
      cases hp.symm.trans hpartition
      exact ⟨hat, haddress⟩
  · have hout : ∀ type ∈ types, ioaInRange (planRange type) ioa = false :=
      fun type htype => eq_false_of_ne_true fun hin => hany ⟨type, htype, hin⟩
    rw [hnone hout]
    constructor
    · refine ⟨fun hfalse => (nomatch hfalse), ?_⟩
      rintro ⟨p, hp, htype⟩
      obtain ⟨type, hin, rfl⟩ := (getPartition_eq_some_iff h).mp hp
      exact absurd ⟨type, htype, hin⟩ hany
    · rintro p _ _ ⟨⟩

theorem agrees_single {α : Type} {address : α → UInt32} {array : List α} (h : Planned table)
    {type : PointType} (harray : array.map address =
      (List.range (rangeCapacity (planRange type))).map (ioaAt (planRange type))) :
    AgreesWithPlan address [type] (fun _ => array) (pointTableGetPartition table ioa) ioa
      (findKey address ioa.toUInt32 array) := by
  refine agrees h (fun type' htype => ?_) (fun _ _ _ => rfl) fun hout => ?_
  · cases List.mem_singleton.mp htype
    exact harray
  · exact find_out harray (hout type (List.mem_singleton.mpr rfl))

/-- The partitions of measured values. -/
def ycTypes : List PointType := [.yc, .ycRtu, .ycSensorConf, .ycCustom]

theorem agrees_yc (h : Planned table) :
    AgreesWithPlan YcPoint.ioa ycTypes table.ycPartition (pointTableGetPartition table ioa) ioa
      (pointTableFindYc table ioa) := by
  have hyc : table.ycMeta = _ := h.partitionMeta .yc
  have hrtu : table.ycRtuMeta = _ := h.partitionMeta .ycRtu
  have hsensor : table.ycSensorConfMeta = _ := h.partitionMeta .ycSensorConf
  have hcustom : table.ycCustomMeta = _ := h.partitionMeta .ycCustom
  have hfind : pointTableFindYc table ioa =
      if ioaInRange (planRange .yc) ioa then findYcInPartition table.yc ioa
      else if ioaInRange (planRange .ycRtu) ioa then findYcInPartition table.ycRtu ioa
      else if ioaInRange (planRange .ycSensorConf) ioa then
        findYcInPartition table.ycSensorConf ioa
      else if ioaInRange (planRange .ycCustom) ioa then findYcInPartition table.ycCustom ioa
      else none := by
    simp only [pointTableFindYc, hyc, hrtu, hsensor, hcustom]
  refine agrees h (fun type htype => ?_) (fun type htype hin => ?_) fun hout => ?_
  · rw [← h.addresses type]
    simp only [ycTypes, List.mem_cons, List.not_mem_nil, or_false] at htype
    rcases htype with rfl | rfl | rfl | rfl <;> rfl
  · have hother : ∀ type', type' ≠ type → ioaInRange (planRange type') ioa = false :=
      fun type' hne => eq_false_of_ne_true fun h' => hne (range_unique h' hin)
    simp only [ycTypes, List.mem_cons, List.not_mem_nil, or_false] at htype
    rw [hfind]
    rcases htype with rfl | rfl | rfl | rfl <;>
      simp [hin, hother, findYcInPartition, PointTable.ycPartition]
  · simp only [ycTypes, List.forall_mem_cons, List.not_mem_nil, IsEmpty.forall_iff, implies_true,
      and_true] at hout
    simp [hfind, hout]

end AddressPlanLemmas

open AddressPlanLemmas

/-- In every table that any sequence of operations makes of the demo table, and for every `int`:
each `find` function returns a point exactly if the partition of the address is of its type,
namely the point at the distance from the start of the range; and no address is in the arrays
of two partitions. -/
theorem point_lookup_follows_plan (ops : List TableOp) (ioa : Int32) :
    let table := Run.exec TableOp.step pointTableInitDemo ops
    let partition := pointTableGetPartition table ioa
    AgreesWithPlan YxPoint.ioa [.yx] (fun _ => table.yx) partition ioa
        (pointTableFindYx table ioa) ∧
      AgreesWithPlan YkPoint.ioa [.yk] (fun _ => table.yk) partition ioa
        (pointTableFindYk table ioa) ∧
      AgreesWithPlan YtPoint.ioa [.yt] (fun _ => table.yt) partition ioa
        (pointTableFindYt table ioa) ∧
      AgreesWithPlan DdPoint.ioa [.dd] (fun _ => table.dd) partition ioa
        (pointTableFindDd table ioa) ∧
      AgreesWithPlan YcPoint.ioa [.yc, .ycRtu, .ycSensorConf, .ycCustom] table.ycPartition
        partition ioa (pointTableFindYc table ioa) ∧
      Set.Subsingleton {type | ioa.toUInt32 ∈ table.addresses type} := by
  intro table partition
  have h : Planned table := planned_exec ops
  refine ⟨agrees_single h (h.addresses .yx), agrees_single h (h.addresses .yk),
    agrees_single h (h.addresses .yt), agrees_single h (h.addresses .dd), agrees_yc h, ?_⟩
  intro type htype type' htype'
  have hin : ioa.toUInt32 ∈ table.addresses type := htype
  have hin' : ioa.toUInt32 ∈ table.addresses type' := htype'
  rw [h.addresses, mem_planAddresses] at hin hin'
  exact range_unique hin hin'

end Iec104Slave
