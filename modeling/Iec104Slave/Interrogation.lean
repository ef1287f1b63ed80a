import Iec104Slave.UploadWorker
import Iec104Slave.CustomWords

/-!
# Interrogations (`send_total_call`, `send_custom_measure_total`, `send_counter_call`)

An interrogation cuts the arrays of a snapshot into batches of consecutive addresses and sends
each batch as a sequence. The results of the sends are only logged: the activation
termination at the end depends on nothing but the last test of the client.

Results:
1. `interrogation_frames_complete`: the frames of a call hold the objects of its arrays, each
   point once and in order, and the encoder takes every object.
2. `termination_complete_iff`: a termination means that all points have arrived iff
   no frame of the call was refused or left out.
-/

namespace Iec104Slave

open Batch

/-! ## Batches -/

/-- `GI_MAX_YX_PER_FRAME`. -/
def giMaxYxPerFrame : Nat := 80

/-- `GI_MAX_YC_SCALED_PER_FRAME`. -/
def giMaxYcScaledPerFrame : Nat := 80

/-- `GI_MAX_YC_SHORT_PER_FRAME`. -/
def giMaxYcShortPerFrame : Nat := 48

/-- `CI_MAX_DD_PER_FRAME`. -/
def ciMaxDdPerFrame : Nat := 48

/-- The inner loops without a test of the type: the next address, up to `maxBatch` points. -/
def consecutiveFits {ε : Type} (ioa : ε → UInt32) (maxBatch : Nat) (first : ε) (k : Nat) (e : ε) :
    Bool :=
  decide (k < maxBatch) && ioa e == ioa first + UInt32.ofNat k

def giYxBatches (yx : List YxPoint) : List (List YxPoint) :=
  batches (consecutiveFits YxPoint.ioa giMaxYxPerFrame) yx

/-- `max_batch` of `send_total_call`. -/
def giMaxYcPerFrame (iecType : YcIecType) : Nat :=
  if iecType = .scaled then giMaxYcScaledPerFrame else giMaxYcShortPerFrame

def giYcFits (first : YcPoint) (k : Nat) (point : YcPoint) : Bool :=
  decide (k < giMaxYcPerFrame first.iecType) && point.iecType == first.iecType &&
    point.ioa == first.ioa + UInt32.ofNat k

def giYcBatches (yc : List YcPoint) : List (List YcPoint) :=
  batches giYcFits yc

def ciDdBatches (dd : List DdPoint) : List (List DdPoint) :=
  batches (consecutiveFits DdPoint.ioa ciMaxDdPerFrame) dd

/-- The YC batches of `send_custom_measure_total`, which may mix types. -/
def measureYcBatches (yc : List YcPoint) : List (List YcPoint) :=
  batches (consecutiveFits YcPoint.ioa giMaxYcScaledPerFrame) yc

/-- The copy in `scaled_points`. -/
def YcPoint.asScaled (point : YcPoint) : YcPoint := { point with iecType := .scaled }

/-! ## The calls -/

/-- The iterations of the YX loop and of the loops for the four YC partitions. -/
structure PointOutcomes where
  yx : Nat → FrameOutcome
  yc : Nat → FrameOutcome
  ycRtu : Nat → FrameOutcome
  ycSensorConf : Nat → FrameOutcome
  ycCustom : Nat → FrameOutcome

structure PointSends where
  yx : List (Sent (List YxPoint) Asdu) := []
  yc : List (Sent (List YcPoint) Asdu) := []
  ycRtu : List (Sent (List YcPoint) Asdu) := []
  ycSensorConf : List (Sent (List YcPoint) Asdu) := []
  ycCustom : List (Sent (List YcPoint) Asdu) := []

/-- An activation termination: the command with the qualifier of its request. -/
structure TerminationAsdu where
  typeId : UInt8
  cot : CauseOfTransmission
  qualifier : UInt8

def asduSendInterrogationTermination (qoi : UInt8) : TerminationAsdu :=
  ⟨C_IC_NA_1, .activationTermination, qoi⟩

def sendCounterActivationTermination (qcc : UInt8) : TerminationAsdu :=
  ⟨C_CI_NA_1, .activationTermination, qcc⟩

/-- The surroundings of `send_total_call`: the tests of the client at its start and at its end,
the snapshots, and the iterations of its loops. -/
structure TotalCallInput where
  msg : Iec104WorkMsg
  active : Bool
  first : SnapshotInput
  points : PointOutcomes
  dynagram : Answer.DynagramInput
  elecDynagram : Answer.DynagramInput
  harmonic : SnapshotInput
  harmonicLoop : Nat → FrameOutcome
  second : SnapshotInput
  dd : Nat → FrameOutcome
  activeAtEnd : Bool

/-- What a total call sends, in this order. -/
structure TotalCallAnswer where
  points : PointSends := {}
  dynagram : List (Sent (List YcPoint) PayloadAsdu) := []
  elecDynagram : List (Sent (List YcPoint) PayloadAsdu) := []
  harmonic : List (Sent (List YcPoint) PayloadAsdu) := []
  dd : List (Sent (List DdPoint) Asdu) := []
  termination : Option TerminationAsdu := none

/-- `msg->qcc & 0xc0`: `IEC60870_QCC_FRZ_FREEZE_WITHOUT_RESET`. -/
def qccFreezeWithoutReset : UInt8 := 0x40

/-- `IEC60870_QCC_FRZ_FREEZE_WITH_RESET`. -/
def qccFreezeWithReset : UInt8 := 0x80

/-- `IEC60870_QCC_FRZ_COUNTER_RESET`. -/
def qccCounterReset : UInt8 := 0xc0

/-- The surroundings of `send_counter_call`. `table` is the table that is frozen, and `clock` the
time at which a counter of it is; `snapshot` is taken after that, when other threads may
have written again. -/
structure CounterCallInput where
  msg : Iec104WorkMsg
  active : Bool
  table : PointTable
  clock : Nat → UInt64
  snapshot : SnapshotInput
  dd : Nat → FrameOutcome
  activeAtEnd : Bool

structure CounterCallAnswer where
  table : PointTable
  dd : List (Sent (List DdPoint) Asdu) := []
  termination : Option TerminationAsdu := none

structure MeasureTotalInput where
  snapshot : SnapshotInput
  points : PointOutcomes

namespace Answer

def sendYxLoop (cot : CauseOfTransmission) (outcome : Nat → FrameOutcome) (yx : List YxPoint) :
    List (Sent (List YxPoint) Asdu) :=
  frameLoop (fun accepts batch => asduSendYxBatch accepts cot batch) outcome (giYxBatches yx)

def sendYcLoop (outcome : Nat → FrameOutcome) (yc : List YcPoint) :
    List (Sent (List YcPoint) Asdu) :=
  frameLoop (fun accepts batch => asduSendYcBatch accepts .interrogatedByStation batch) outcome
    (giYcBatches yc)

def sendScaledYcLoop (outcome : Nat → FrameOutcome) (yc : List YcPoint) :
    List (Sent (List YcPoint) Asdu) :=
  frameLoop (fun accepts batch => asduSendYcBatch accepts .request (batch.map YcPoint.asScaled))
    outcome (measureYcBatches yc)

def sendDdLoop (outcome : Nat → FrameOutcome) (dd : List DdPoint) :
    List (Sent (List DdPoint) Asdu) :=
  frameLoop (fun accepts batch => asduSendDdBatch accepts .request batch false) outcome
    (ciDdBatches dd)

def sendTotalCall (cp56 : UInt64 → Vector UInt8 7) (x : TotalCallInput) : TotalCallAnswer :=
  if !x.active then {}
  else
    match pointTableSnapshotCreate x.first with
    | none => {}
    | some snapshot =>
      { points :=
          { yx := sendYxLoop .interrogatedByStation x.points.yx snapshot.yx
            yc := sendYcLoop x.points.yc snapshot.yc
            ycRtu := sendYcLoop x.points.ycRtu snapshot.ycRtu
            ycSensorConf := sendYcLoop x.points.ycSensorConf snapshot.ycSensorConf
            ycCustom := sendYcLoop x.points.ycCustom snapshot.ycCustom }
        dynagram := sendCustomDynagram cp56 customTypeDynagramCall x.dynagram
        elecDynagram := sendCustomElecDynagram cp56 customTypeElecDynagramCall x.elecDynagram
        harmonic := sendCustomHarmonic customTypeHarmonicCall x.harmonic x.harmonicLoop
        dd :=
          match pointTableSnapshotCreate x.second with
          | none => []
          | some ddSnapshot => sendDdLoop x.dd ddSnapshot.dd
        termination :=
          if x.activeAtEnd then some (asduSendInterrogationTermination x.msg.qoi) else none }

def sendCustomMeasureTotal (x : MeasureTotalInput) : PointSends :=
  match pointTableSnapshotCreate x.snapshot with
  | none => {}
  | some snapshot =>
    { yx := sendYxLoop .request x.points.yx snapshot.yx
      yc := sendScaledYcLoop x.points.yc snapshot.yc
      ycRtu := sendScaledYcLoop x.points.ycRtu snapshot.ycRtu
      ycSensorConf := sendScaledYcLoop x.points.ycSensorConf snapshot.ycSensorConf
      ycCustom := sendScaledYcLoop x.points.ycCustom snapshot.ycCustom }

/-- The loop of `send_counter_call` under the write lock. -/
def freezeCounters (frz : UInt8) (clock : Nat → UInt64) (dd : List DdPoint) : List DdPoint :=
  if frz = qccFreezeWithoutReset ∨ frz = qccFreezeWithReset ∨ frz = qccCounterReset then
    dd.mapIdx fun i point =>
      { point with
        frozenValue := point.value
        timestampMs := clock i
        seq := point.seq + 1
        value :=
          if frz = qccFreezeWithReset ∨ frz = qccCounterReset then 0 else point.value }
  else dd

/-- `send_counter_call`. The frames carry the running values: the lines that would put the
frozen ones in their place are compiled out. -/
def sendCounterCall (x : CounterCallInput) : CounterCallAnswer :=
  if !x.active then { table := x.table }
  else
    let table := { x.table with dd := freezeCounters (x.msg.qcc &&& 0xc0) x.clock x.table.dd }
    match pointTableSnapshotCreate x.snapshot with
    | none => { table := table }
    | some snapshot =>
      { table := table
        dd := sendDdLoop x.dd snapshot.dd
        termination :=
          if x.activeAtEnd then some (sendCounterActivationTermination x.msg.qcc) else none }

end Answer

/-! ## What an interrogation is for -/

/-- The addresses of the monitored points fit into the three bytes of the protocol. -/
structure PointTable.ShortAddresses (table : PointTable) : Prop where
  yx : ∀ point ∈ table.yx, point.ioa.toNat < 2 ^ 24
  yc : ∀ point ∈ table.yc, point.ioa.toNat < 2 ^ 24
  ycRtu : ∀ point ∈ table.ycRtu, point.ioa.toNat < 2 ^ 24
  ycSensorConf : ∀ point ∈ table.ycSensorConf, point.ioa.toNat < 2 ^ 24
  ycCustom : ∀ point ∈ table.ycCustom, point.ioa.toNat < 2 ^ 24
  dd : ∀ point ∈ table.dd, point.ioa.toNat < 2 ^ 24

/-- The frame of an iteration is the ASDU into which the encoder took the objects of the batch,
with the cause that the points of the batch have in common. The connection has it unless it
refused it. -/
def Framed {ε : Type} (isSequence : Bool) (cot : ε → CauseOfTransmission)
    (object : ε → InformationObject) (accepts : Bool) (sent : Sent (List ε) Asdu) : Prop :=
  ∃ (asdu : Asdu) (cause : CauseOfTransmission), (∀ e ∈ sent.item, cot e = cause) ∧
    asdu.Carries isSequence cause (sent.item.map object) ∧
    sent.frame = if accepts then some asdu else none

/-- The iterations of a loop go over the array once and in order, and each of them makes the frame
of its batch. -/
structure FramesOnce {ε : Type} (isSequence : Bool) (cot : ε → CauseOfTransmission)
    (object : ε → InformationObject) (outcome : Nat → FrameOutcome) (array : List ε)
    (sent : List (Sent (List ε) Asdu)) : Prop where
  concat : (sent.map Sent.item).flatten = array
  framed : ∀ (i : Nat) s, sent[i]? = some s → Framed isSequence cot object (outcome i).accepts s

/-- In an interrogation the batches are sequences of consecutive addresses. -/
structure CarriesOnce {ε : Type} (ioa : ε → UInt32) (object : ε → InformationObject)
    (cot : CauseOfTransmission) (outcome : Nat → FrameOutcome) (array : List ε)
    (sent : List (Sent (List ε) Asdu)) : Prop extends
    FramesOnce true (fun _ => cot) object outcome array sent where
  consecutive : ∀ s ∈ sent, Consecutive (s.item.map ioa)

/-- The YX and YC frames of a call carry the arrays of a table. -/
structure PointSends.Carry (sends : PointSends) (cot : CauseOfTransmission)
    (object : YcPoint → InformationObject) (outcomes : PointOutcomes) (table : PointTable) :
    Prop where
  yx : CarriesOnce YxPoint.ioa yxObject cot outcomes.yx table.yx sends.yx
  yc : CarriesOnce YcPoint.ioa object cot outcomes.yc table.yc sends.yc
  ycRtu : CarriesOnce YcPoint.ioa object cot outcomes.ycRtu table.ycRtu sends.ycRtu
  ycSensorConf : CarriesOnce YcPoint.ioa object cot outcomes.ycSensorConf table.ycSensorConf
    sends.ycSensorConf
  ycCustom : CarriesOnce YcPoint.ioa object cot outcomes.ycCustom table.ycCustom sends.ycCustom

/-- An upload that takes the snapshot, and a client that stays active until its last frame. -/
structure UploadInput.Takes (x : UploadInput) (s : UploadSession)
    (snapshot : ActiveUploadSnapshot) : Prop where
  active : x.active = true
  due : ¬(x.uploadVersion ≠ 0 ∧ x.uploadVersion ≤ s.lastUploadedVersion)
  created : activeUploadSnapshotCreate x.alloc s.area s.lastUploadedVersion = some snapshot
  yx : StaysActive x.yx
  soe : StaysActive x.soe
  yc : StaysActive x.yc

/-- The frames that an upload adds carry the three arrays of its snapshot. -/
def UploadInput.Carries (x : UploadInput) (s : UploadSession) (snapshot : ActiveUploadSnapshot) :
    Prop :=
  ∃ yx soe yc,
    FramesOnce false (fun _ => .spontaneous) (fun e : YxUploadEntry => yxObject e.point) x.yx
      snapshot.yx yx ∧
    FramesOnce false (fun _ => .spontaneous) (fun e : SoeUploadEntry => yxTimeObject e.point) x.soe
      snapshot.soe soe ∧
    FramesOnce false YcUploadEntry.cot (fun e => ycTimeObject e.point) x.yc snapshot.yc yc ∧
    (s.sendActiveUpload x).accepted = s.accepted ++
      (acceptedFrames .yx yx ++ acceptedFrames .soe soe ++ acceptedFrames .yc yc)

structure PointOutcomes.StayActive (x : PointOutcomes) : Prop where
  yx : StaysActive x.yx
  yc : StaysActive x.yc
  ycRtu : StaysActive x.ycRtu
  ycSensorConf : StaysActive x.ycSensorConf
  ycCustom : StaysActive x.ycCustom

/-- Every point of the array is in a frame that the connection accepted, as often as it is in
the array. -/
def Reported {ε : Type} (object : ε → InformationObject) (array : List ε)
    (sent : List (Sent (List ε) Asdu)) : Prop :=
  (array.map object).Subperm (carried Asdu.elements sent)

structure PointSends.Report (sends : PointSends) (table : PointTable) : Prop where
  yx : Reported yxObject table.yx sends.yx
  yc : Reported ycObject table.yc sends.yc
  ycRtu : Reported ycObject table.ycRtu sends.ycRtu
  ycSensorConf : Reported ycObject table.ycSensorConf sends.ycSensorConf
  ycCustom : Reported ycObject table.ycCustom sends.ycCustom

/-- If the answer to a total call is terminated, then it was complete. -/
def TotalCallInput.Complete (cp56 : UInt64 → Vector UInt8 7) (x : TotalCallInput) : Prop :=
  (Answer.sendTotalCall cp56 x).termination.isSome = true →
    (Answer.sendTotalCall cp56 x).points.Report x.first.table ∧
    Reported (ddObject false) x.second.table.dd (Answer.sendTotalCall cp56 x).dd

def CounterCallInput.Complete (x : CounterCallInput) : Prop :=
  (Answer.sendCounterCall x).termination.isSome = true →
    Reported (ddObject false) x.snapshot.table.dd (Answer.sendCounterCall x).dd

/-- The client is active throughout the loops over the table, and accepts every frame. -/
structure PointOutcomes.Accepted (x : PointOutcomes) (table : PointTable) : Prop where
  yx : AllAccepted x.yx (giYxBatches table.yx).length
  yc : AllAccepted x.yc (giYcBatches table.yc).length
  ycRtu : AllAccepted x.ycRtu (giYcBatches table.ycRtu).length
  ycSensorConf : AllAccepted x.ycSensorConf (giYcBatches table.ycSensorConf).length
  ycCustom : AllAccepted x.ycCustom (giYcBatches table.ycCustom).length

/-- A total call that reaches its termination has every YX, YC and DD frame accepted and gets its
second snapshot, unless there is no counter. Nothing is asked of the frames with dynagrams and
harmonics, and nothing of a call that sends no termination. -/
def TotalCallInput.Undisturbed (x : TotalCallInput) : Prop :=
  x.active = true → x.first.created = true → x.activeAtEnd = true →
    x.points.Accepted x.first.table ∧
    (x.second.created = true ∨ x.second.table.dd = []) ∧
    AllAccepted x.dd (ciDdBatches x.second.table.dd).length

/-- A counter call that reaches its termination has every DD frame accepted. -/
def CounterCallInput.Undisturbed (x : CounterCallInput) : Prop :=
  x.active = true → x.snapshot.created = true → x.activeAtEnd = true →
    AllAccepted x.dd (ciDdBatches x.snapshot.table.dd).length

namespace InterrogationLemmas

open AsduBuilderLemmas FrameLoopLemmas UploadWorkerLemmas

section Batches

variable {ε : Type} {ioa : ε → UInt32} {object : ε → InformationObject}
  {fits : ε → Nat → ε → Bool} {l : List ε} {cot : CauseOfTransmission}

/-- The batches are the array, have consecutive addresses, and the encoder takes each of them
whole. -/
structure FitBatches (ioa : ε → UInt32) (object : ε → InformationObject)
    (cot : CauseOfTransmission) (array : List ε) (batches : List (List ε)) : Prop where
  concat : batches.flatten = array
  consecutive : ∀ batch ∈ batches, Consecutive (batch.map ioa)
  encoded : ∀ batch ∈ batches, Encoded true cot (batch.map object)

/-- What a batching loop has to do with its limit and its type test, for its batches to go
out whole. -/
def FitsFrame (ioa : ε → UInt32) (object : ε → InformationObject)
    (fits : ε → Nat → ε → Bool) (first : ε) : Prop :=
  ∃ limit t n, 0 < limit ∧ limit ≤ 127 ∧
    sizeOfIoa + limit * n ≤ maxSizeOfAsdu - asduHeaderLength ∧
    ((object first).typeId = t ∧ (object first).size = n) ∧
    ∀ k e, fits first k e = true → k < limit ∧ ioa e = ioa first + UInt32.ofNat k ∧
      (object e).typeId = t ∧ (object e).size = n

theorem fitBatches_batches (cot : CauseOfTransmission)
    (hsmall : ∀ e ∈ l, (ioa e).toNat < 2 ^ 24) (hobject : ∀ e, (object e).ioa = (ioa e).toInt32)
    (hfits : ∀ first, FitsFrame ioa object fits first) :
    FitBatches ioa object cot l (batches fits l) := by
  have hmem : ∀ batch ∈ batches fits l, ∀ e ∈ batch, (ioa e).toNat < 2 ^ 24 := by
    intro batch hbatch e he
    have hflat : e ∈ (batches fits l).flatten := List.mem_flatten.mpr ⟨batch, hbatch, he⟩
    rw [flatten_batches] at hflat
    exact hsmall e hflat
  have hcons : ∀ batch ∈ batches fits l, Consecutive (batch.map ioa) := by
    intro batch hbatch
    obtain ⟨first, hfirst⟩ := isBatch_of_mem batch hbatch
    obtain ⟨limit, t, n, _, hcount, _, _, hstep⟩ := hfits first
    refine consecutive_of_isBatch hfirst
      (hmem batch hbatch first (List.mem_of_getElem? hfirst.head)) fun k e hk => ?_
    obtain ⟨hlt, heq, _⟩ := hstep k e hk
    exact ⟨Nat.le_trans (Nat.le_of_lt hlt) hcount, heq⟩
  refine ⟨flatten_batches l, hcons, fun batch hbatch => ?_⟩
  obtain ⟨first, hfirst⟩ := isBatch_of_mem batch hbatch
  obtain ⟨limit, t, n, hpos, hcount, hroom, htype, hstep⟩ := hfits first
  have hobj : ∀ e ∈ batch, (object e).typeId = t ∧ (object e).size = n :=
    hfirst.forall_mem htype fun k e hk => (hstep k e hk).2.2
  exact encoded_of_consecutive cot (hcons batch hbatch) (hmem batch hbatch)
    (fun e he => ⟨hobject e, hobj e he⟩)
    (hfirst.length_le hpos fun k e hk => (hstep k e hk).1) hcount hroom

/-- Batches that the encoder takes can be sent. -/
theorem sendable_of_fitBatches {send : Bool → List ε → Option Asdu} {bs : List (List ε)}
    (h : FitBatches ioa object cot l bs) (hne : ∀ batch ∈ bs, batch ≠ [])
    (hsend : ∀ accepts batch, send accepts batch =
      sendObjects accepts true cot (batch.map object)) :
    Sendable send Asdu.elements (fun batch => batch.map object) bs := by
  intro batch hbatch
  have hobjects : batch.map object ≠ [] := by
    rw [Ne, List.map_eq_nil_iff]
    exact hne batch hbatch
  obtain ⟨asdu, hcarries, hresult⟩ := sendObjects_of_encoded hobjects (h.encoded batch hbatch)
  exact ⟨hobjects, asdu, hcarries.elements, fun accepts => by rw [hsend, hresult]⟩

theorem batch_ne_nil : ∀ batch ∈ batches fits l, batch ≠ [] := by
  intro batch hbatch
  obtain ⟨first, hfirst⟩ := isBatch_of_mem batch hbatch
  exact List.ne_nil_of_length_pos hfirst.pos

/-- One loop reports its array iff none of its iterations fails. -/
theorem reported_iff {send : Bool → List ε → Option Asdu} {outcome : Nat → FrameOutcome}
    (h : FitBatches ioa object cot l (batches fits l))
    (hsend : ∀ accepts batch, send accepts batch =
      sendObjects accepts true cot (batch.map object)) :
    Reported object l (frameLoop send outcome (batches fits l)) ↔
      AllAccepted outcome (batches fits l).length := by
  have hmap : l.map object = (batches fits l).flatMap fun batch => batch.map object := by
    rw [List.flatMap_def, ← List.map_flatten, h.concat]
  rw [Reported, hmap]
  exact carried_complete_iff (sendable_of_fitBatches h batch_ne_nil hsend)

/-- A loop over batches that the encoder takes makes the frame of each of them. -/
theorem framesOnce_loop {isSequence : Bool} {cause : ε → CauseOfTransmission}
    {send : Bool → List ε → Option Asdu} {outcome : Nat → FrameOutcome} {bs : List (List ε)}
    (hactive : StaysActive outcome) (hconcat : bs.flatten = l)
    (hbs : ∀ batch ∈ bs, batch ≠ [] ∧ ∃ c, (∀ e ∈ batch, cause e = c) ∧
      Encoded isSequence c (batch.map object) ∧
      ∀ accepts, send accepts batch = sendObjects accepts isSequence c (batch.map object)) :
    FramesOnce isSequence cause object outcome l (frameLoop send outcome bs) := by
  refine ⟨by rw [items_of_staysActive hactive, hconcat], fun i s hs => ?_⟩
  obtain ⟨batch, hbatch, rfl⟩ := getElem?_frameLoop hs
  obtain ⟨hne, c, hcause, hencoded, hsend⟩ := hbs batch (List.mem_of_getElem? hbatch)
  obtain ⟨asdu, hcarries, hresult⟩ :=
    sendObjects_of_encoded (fun h => hne (List.map_eq_nil_iff.mp h)) hencoded
  exact ⟨asdu, c, hcause, hcarries, by rw [hsend, hresult]⟩

theorem carriesOnce_loop {send : Bool → List ε → Option Asdu} {outcome : Nat → FrameOutcome}
    (hactive : StaysActive outcome) (h : FitBatches ioa object cot l (batches fits l))
    (hsend : ∀ accepts batch, send accepts batch =
      sendObjects accepts true cot (batch.map object)) :
    CarriesOnce ioa object cot outcome l (frameLoop send outcome (batches fits l)) := by
  refine ⟨framesOnce_loop hactive h.concat fun batch hbatch => ?_, fun s hs => ?_⟩
  · exact ⟨batch_ne_nil batch hbatch, cot, fun _ _ => rfl, h.encoded batch hbatch,
      fun accepts => hsend accepts batch⟩
  · exact h.consecutive s.item (item_mem hs).1

end Batches

/-! ## The loops -/

theorem consecutiveFits_iff {ε : Type} {ioa : ε → UInt32} {maxBatch k : Nat} {first e : ε} :
    consecutiveFits ioa maxBatch first k e = true ↔
      k < maxBatch ∧ ioa e = ioa first + UInt32.ofNat k := by
  simp [consecutiveFits]

/-- A loop without a test of the type, over points that all become objects of one type. -/
theorem fitsFrame_consecutive {ε : Type} {ioa : ε → UInt32} {object : ε → InformationObject}
    {maxBatch n : Nat} {t : UInt8} (hobject : ∀ e, (object e).typeId = t ∧ (object e).size = n)
    (hpos : 0 < maxBatch) (hcount : maxBatch ≤ 127)
    (hroom : sizeOfIoa + maxBatch * n ≤ maxSizeOfAsdu - asduHeaderLength) (first : ε) :
    FitsFrame ioa object (consecutiveFits ioa maxBatch) first := by
  refine ⟨maxBatch, t, n, hpos, hcount, hroom, hobject first, fun k e hk => ?_⟩
  obtain ⟨hlt, heq⟩ := consecutiveFits_iff.mp hk
  exact ⟨hlt, heq, hobject e⟩

/-- Points of one type give objects of one type and size. -/
theorem ycObject_spec (iecType : YcIecType) : ∃ t, ∀ point : YcPoint,
    point.iecType = iecType → (ycObject point).typeId = t ∧
      (ycObject point).size = if iecType = .float then 5 else 3 := by
  cases iecType with
  | normalized =>
    refine ⟨M_ME_NA_1, fun point h => ?_⟩
    simp [ycObject, ycElement, h, InformationObject.typeId, InformationObject.size]
  | scaled =>
    refine ⟨M_ME_NB_1, fun point h => ?_⟩
    simp [ycObject, ycElement, h, InformationObject.typeId, InformationObject.size]
  | float =>
    refine ⟨M_ME_NC_1, fun point h => ?_⟩
    simp [ycObject, ycElement, h, InformationObject.typeId, InformationObject.size]

theorem fitsFrame_giYc (first : YcPoint) : FitsFrame YcPoint.ioa ycObject giYcFits first := by
  obtain ⟨t, hspec⟩ := ycObject_spec first.iecType
  have hlimit : 0 < giMaxYcPerFrame first.iecType ∧ giMaxYcPerFrame first.iecType ≤ 127 ∧
      sizeOfIoa + giMaxYcPerFrame first.iecType * (if first.iecType = .float then 5 else 3) ≤
        maxSizeOfAsdu - asduHeaderLength := by
    cases first.iecType <;> decide
  refine ⟨_, t, _, hlimit.1, hlimit.2.1, hlimit.2.2, hspec first rfl, fun k point hk => ?_⟩
  simp only [giYcFits, Bool.and_eq_true, decide_eq_true_eq, beq_iff_eq] at hk
  exact ⟨hk.1.1, hk.2, hspec point hk.1.2⟩

theorem fitBatches_yx (cot : CauseOfTransmission) {yx : List YxPoint}
    (h : ∀ point ∈ yx, point.ioa.toNat < 2 ^ 24) :
    FitBatches YxPoint.ioa yxObject cot yx (giYxBatches yx) :=
  fitBatches_batches cot h (fun _ => rfl)
    (fitsFrame_consecutive (t := M_SP_NA_1) (n := 1) (fun _ => ⟨rfl, rfl⟩) (by decide) (by decide)
      (by decide))

theorem fitBatches_yc {yc : List YcPoint} (h : ∀ point ∈ yc, point.ioa.toNat < 2 ^ 24) :
    FitBatches YcPoint.ioa ycObject .interrogatedByStation yc (giYcBatches yc) :=
  fitBatches_batches _ h (fun _ => rfl) fitsFrame_giYc

theorem fitBatches_scaledYc {yc : List YcPoint}
    (h : ∀ point ∈ yc, point.ioa.toNat < 2 ^ 24) :
    FitBatches YcPoint.ioa (fun point => ycObject point.asScaled) .request yc
      (measureYcBatches yc) :=
  fitBatches_batches _ h (fun _ => rfl)
    (fitsFrame_consecutive (t := M_ME_NB_1) (n := 3) (fun _ => ⟨rfl, rfl⟩) (by decide) (by decide)
      (by decide))

theorem fitBatches_dd {dd : List DdPoint} (h : ∀ point ∈ dd, point.ioa.toNat < 2 ^ 24) :
    FitBatches DdPoint.ioa (ddObject false) .request dd (ciDdBatches dd) :=
  fitBatches_batches _ h (fun _ => rfl)
    (fitsFrame_consecutive (t := M_IT_NA_1) (n := 5) (fun _ => ⟨rfl, rfl⟩) (by decide) (by decide)
      (by decide))

section Loops

variable {cot : CauseOfTransmission} {outcome : Nat → FrameOutcome} {yx : List YxPoint}
  {yc : List YcPoint} {dd : List DdPoint}

theorem yxLoop_carries (hactive : StaysActive outcome)
    (h : ∀ point ∈ yx, point.ioa.toNat < 2 ^ 24) :
    CarriesOnce YxPoint.ioa yxObject cot outcome yx (Answer.sendYxLoop cot outcome yx) :=
  carriesOnce_loop hactive (fitBatches_yx cot h) fun _ _ => rfl

theorem ycLoop_carries (hactive : StaysActive outcome)
    (h : ∀ point ∈ yc, point.ioa.toNat < 2 ^ 24) :
    CarriesOnce YcPoint.ioa ycObject .interrogatedByStation outcome yc
      (Answer.sendYcLoop outcome yc) :=
  carriesOnce_loop hactive (fitBatches_yc h) fun _ _ => rfl

theorem scaledYcLoop_carries (hactive : StaysActive outcome)
    (h : ∀ point ∈ yc, point.ioa.toNat < 2 ^ 24) :
    CarriesOnce YcPoint.ioa (fun point => ycObject point.asScaled) .request outcome yc
      (Answer.sendScaledYcLoop outcome yc) :=
  carriesOnce_loop hactive (fitBatches_scaledYc h) fun _ batch => by
    rw [asduSendYcBatch, List.map_map]
    rfl

theorem ddLoop_carries (hactive : StaysActive outcome)
    (h : ∀ point ∈ dd, point.ioa.toNat < 2 ^ 24) :
    CarriesOnce DdPoint.ioa (ddObject false) .request outcome dd
      (Answer.sendDdLoop outcome dd) :=
  carriesOnce_loop hactive (fitBatches_dd h) fun _ _ => rfl

theorem yxLoop_reported_iff (h : ∀ point ∈ yx, point.ioa.toNat < 2 ^ 24) :
    Reported yxObject yx (Answer.sendYxLoop cot outcome yx) ↔
      AllAccepted outcome (giYxBatches yx).length :=
  reported_iff (fitBatches_yx cot h) fun _ _ => rfl

theorem ycLoop_reported_iff (h : ∀ point ∈ yc, point.ioa.toNat < 2 ^ 24) :
    Reported ycObject yc (Answer.sendYcLoop outcome yc) ↔
      AllAccepted outcome (giYcBatches yc).length :=
  reported_iff (fitBatches_yc h) fun _ _ => rfl

theorem ddLoop_reported_iff (h : ∀ point ∈ dd, point.ioa.toNat < 2 ^ 24) :
    Reported (ddObject false) dd (Answer.sendDdLoop outcome dd) ↔
      AllAccepted outcome (ciDdBatches dd).length :=
  reported_iff (fitBatches_dd h) fun _ _ => rfl

end Loops

/-! ## The calls -/

section Calls

variable {cp56 : UInt64 → Vector UInt8 7} {x : TotalCallInput} {y : CounterCallInput}

theorem totalCall_points (hactive : x.active = true) (hfirst : x.first.created = true) :
    (Answer.sendTotalCall cp56 x).points =
      { yx := Answer.sendYxLoop .interrogatedByStation x.points.yx x.first.table.yx
        yc := Answer.sendYcLoop x.points.yc x.first.table.yc
        ycRtu := Answer.sendYcLoop x.points.ycRtu x.first.table.ycRtu
        ycSensorConf := Answer.sendYcLoop x.points.ycSensorConf x.first.table.ycSensorConf
        ycCustom := Answer.sendYcLoop x.points.ycCustom x.first.table.ycCustom } := by
  unfold Answer.sendTotalCall pointTableSnapshotCreate
  rw [hactive, hfirst]
  rfl

theorem totalCall_dd (hactive : x.active = true) (hfirst : x.first.created = true) :
    (Answer.sendTotalCall cp56 x).dd =
      if x.second.created then Answer.sendDdLoop x.dd x.second.table.dd else [] := by
  unfold Answer.sendTotalCall pointTableSnapshotCreate
  rw [hactive, hfirst]
  cases x.second.created with
  | true => rfl
  | false => rfl

theorem totalCall_terminated : (Answer.sendTotalCall cp56 x).termination.isSome = true ↔
    x.active = true ∧ x.first.created = true ∧ x.activeAtEnd = true := by
  unfold Answer.sendTotalCall pointTableSnapshotCreate
  cases x.active with
  | false => simp
  | true =>
    cases x.first.created with
    | false => simp
    | true => simp

theorem counterCall_dd (hactive : y.active = true) (hcreated : y.snapshot.created = true) :
    (Answer.sendCounterCall y).dd = Answer.sendDdLoop y.dd y.snapshot.table.dd := by
  unfold Answer.sendCounterCall pointTableSnapshotCreate
  rw [hactive, hcreated]
  rfl

theorem counterCall_terminated : (Answer.sendCounterCall y).termination.isSome = true ↔
    y.active = true ∧ y.snapshot.created = true ∧ y.activeAtEnd = true := by
  unfold Answer.sendCounterCall pointTableSnapshotCreate
  cases y.active with
  | false => simp
  | true =>
    cases y.snapshot.created with
    | false => simp
    | true => simp

theorem points_report_iff (htable : x.first.table.ShortAddresses) (hactive : x.active = true)
    (hfirst : x.first.created = true) :
    (Answer.sendTotalCall cp56 x).points.Report x.first.table ↔
      x.points.Accepted x.first.table := by
  rw [totalCall_points hactive hfirst]
  constructor
  · intro h
    exact ⟨(yxLoop_reported_iff htable.yx).mp h.yx, (ycLoop_reported_iff htable.yc).mp h.yc,
      (ycLoop_reported_iff htable.ycRtu).mp h.ycRtu,
      (ycLoop_reported_iff htable.ycSensorConf).mp h.ycSensorConf,
      (ycLoop_reported_iff htable.ycCustom).mp h.ycCustom⟩
  · intro h
    exact ⟨(yxLoop_reported_iff htable.yx).mpr h.yx, (ycLoop_reported_iff htable.yc).mpr h.yc,
      (ycLoop_reported_iff htable.ycRtu).mpr h.ycRtu,
      (ycLoop_reported_iff htable.ycSensorConf).mpr h.ycSensorConf,
      (ycLoop_reported_iff htable.ycCustom).mpr h.ycCustom⟩

/-- Without the second snapshot nothing is sent, which is right only if there is no counter. -/
theorem totalCall_dd_reported_iff (htable : x.second.table.ShortAddresses)
    (hactive : x.active = true) (hfirst : x.first.created = true) :
    Reported (ddObject false) x.second.table.dd (Answer.sendTotalCall cp56 x).dd ↔
      (x.second.created = true ∨ x.second.table.dd = []) ∧
        AllAccepted x.dd (ciDdBatches x.second.table.dd).length := by
  rw [totalCall_dd hactive hfirst]
  by_cases hsecond : x.second.created = true
  · rw [if_pos hsecond, ddLoop_reported_iff htable.dd, and_iff_right (.inl hsecond)]
  · rw [if_neg hsecond]
    constructor
    · intro h
      have hnil : x.second.table.dd = [] := by
        have hlen := h.length_le
        rw [List.length_map] at hlen
        exact List.length_eq_zero_iff.mp (Nat.le_zero.mp hlen)
      refine ⟨.inr hnil, ?_⟩
      rw [hnil]
      exact fun k hk => absurd hk (Nat.not_lt_zero k)
    · intro h
      rw [h.1.resolve_left hsecond]
      exact List.nil_subperm

end Calls

/-! ## The active upload -/

section Upload

variable {ε : Type} {entry : ε → UploadEntry} {send : Bool → List ε → Option Asdu}
  {outcome : Nat → FrameOutcome} {bs : List (List ε)} {l : List ε}

/-- The encoder takes the batches of the active upload. -/
theorem encoded_upload {batch : List ε} {cot : CauseOfTransmission}
    {objects : List InformationObject} (h : Encodes entry send bs) (hbatch : batch ∈ bs)
    (hsend : send true batch = sendObjects true false cot objects) :
    Encoded false cot objects := by
  obtain ⟨asdu, _, hresult⟩ := h.sends batch hbatch
  have hsent := hresult true
  rw [hsend] at hsent
  exact encoded_of_sendObjects hsent

theorem uploadLoop_frames (cause : ε → CauseOfTransmission) (object : ε → InformationObject)
    (hactive : StaysActive outcome) (hconcat : bs.flatten = l) (h : Encodes entry send bs)
    (hsend : ∀ batch ∈ bs, ∃ c, (∀ e ∈ batch, cause e = c) ∧
      ∀ accepts, send accepts batch = sendObjects accepts false c (batch.map object)) :
    ∃ sent, FramesOnce false cause object outcome l sent ∧
      uploadLoop entry send outcome 0 bs = acceptedFrames entry sent := by
  refine ⟨frameLoop send outcome bs, framesOnce_loop hactive hconcat fun batch hbatch => ?_, ?_⟩
  · obtain ⟨c, hcause, hobjects⟩ := hsend batch hbatch
    exact ⟨h.ne_nil batch hbatch, c, hcause, encoded_upload h hbatch (hobjects true), hobjects⟩
  · rw [uploadLoop_eq]
    simp only [Nat.zero_add]

/-- The cause of a YC frame, taken from its first entry, is that of all its entries. -/
theorem ycFrame_cause {yc batch : List YcUploadEntry} (hbatch : batch ∈ ycBatches yc) :
    ∃ c, (∀ e ∈ batch, e.cot = c) ∧ ∀ accepts, sendYcFrame accepts batch =
      sendObjects accepts false c (batch.map fun e => ycTimeObject e.point) := by
  obtain ⟨first, hfirst⟩ := isBatch_of_mem batch hbatch
  refine ⟨first.cot, hfirst.forall_mem rfl fun k e hk => ?_, fun accepts => ?_⟩
  · simp only [Bool.and_eq_true, beq_iff_eq] at hk
    exact hk.1.2
  · cases batch with
    | nil => exact absurd hfirst.pos (Nat.lt_irrefl 0)
    | cons e batch =>
      obtain rfl : e = first := Option.some.inj hfirst.head
      rw [sendYcFrame, asduSendYcTimeBatchNonSequence, List.map_map]
      rfl

theorem upload_carries {x : UploadInput} {s : UploadSession} {snapshot : ActiveUploadSnapshot}
    (h : x.Takes s snapshot) : x.Carries s snapshot := by
  obtain ⟨yx, hyx, hyxLoop⟩ := uploadLoop_frames (fun _ => .spontaneous)
    (fun e => yxObject e.point) h.yx (flatten_batches snapshot.yx) (encodes_yx _)
    fun batch _ => ⟨.spontaneous, fun _ _ => rfl, fun accepts => by
      rw [sendYxFrame, asduSendYxBatchNonSequence, List.map_map]
      rfl⟩
  obtain ⟨soe, hsoe, hsoeLoop⟩ := uploadLoop_frames (fun _ => .spontaneous)
    (fun e => yxTimeObject e.point) h.soe (flatten_batches snapshot.soe) (encodes_soe _)
    fun batch _ => ⟨.spontaneous, fun _ _ => rfl, fun accepts => by
      rw [sendSoeFrame, asduSendYxTimeBatch, List.map_map]
      rfl⟩
  obtain ⟨yc, hyc, hycLoop⟩ := uploadLoop_frames YcUploadEntry.cot
    (fun e => ycTimeObject e.point) h.yc (flatten_batches snapshot.yc) (encodes_yc _)
    fun batch hbatch => ycFrame_cause hbatch
  refine ⟨yx, soe, yc, hyx, hsoe, hyc, ?_⟩
  rw [← hyxLoop, ← hsoeLoop, ← hycLoop, UploadSession.sendActiveUpload, h.active, if_neg (by simp),
    if_neg h.due, h.created]
  rfl

end Upload

end InterrogationLemmas

open InterrogationLemmas UploadWorkerLemmas FrameLoopLemmas

/-- The frames of the interrogations and of an active upload hold every point of their arrays once
and in order, and the encoder refuses none of them. -/
theorem interrogation_frames_complete (cp56 : UInt64 → Vector UInt8 7) :
    (∀ x : TotalCallInput, x.active = true → x.first.created = true → x.second.created = true →
      x.first.table.ShortAddresses → x.second.table.ShortAddresses →
      x.points.StayActive → StaysActive x.dd →
      (Answer.sendTotalCall cp56 x).points.Carry .interrogatedByStation ycObject x.points
        x.first.table ∧
      CarriesOnce DdPoint.ioa (ddObject false) .request x.dd x.second.table.dd
        (Answer.sendTotalCall cp56 x).dd) ∧
    (∀ x : MeasureTotalInput, x.snapshot.created = true → x.snapshot.table.ShortAddresses →
      x.points.StayActive →
      (Answer.sendCustomMeasureTotal x).Carry .request (fun point => ycObject point.asScaled)
        x.points x.snapshot.table) ∧
    (∀ x : CounterCallInput, x.active = true → x.snapshot.created = true →
      x.snapshot.table.ShortAddresses → StaysActive x.dd →
      CarriesOnce DdPoint.ioa (ddObject false) .request x.dd x.snapshot.table.dd
        (Answer.sendCounterCall x).dd) ∧
    ∀ (x : UploadInput) (s : UploadSession) (snapshot : ActiveUploadSnapshot),
      x.Takes s snapshot → x.Carries s snapshot := by
  refine ⟨fun x hactive hfirst hsecond htable hdd hpoints hloop => ?_,
    fun x hcreated htable hpoints => ?_, fun x hactive hcreated htable hloop => ?_,
    fun x s snapshot h => upload_carries h⟩
  · rw [totalCall_points hactive hfirst, totalCall_dd hactive hfirst, if_pos hsecond]
    exact ⟨⟨yxLoop_carries hpoints.yx htable.yx, ycLoop_carries hpoints.yc htable.yc,
      ycLoop_carries hpoints.ycRtu htable.ycRtu,
      ycLoop_carries hpoints.ycSensorConf htable.ycSensorConf,
      ycLoop_carries hpoints.ycCustom htable.ycCustom⟩, ddLoop_carries hloop hdd.dd⟩
  · rw [Answer.sendCustomMeasureTotal, pointTableSnapshotCreate, if_pos hcreated]
    exact ⟨yxLoop_carries hpoints.yx htable.yx, scaledYcLoop_carries hpoints.yc htable.yc,
      scaledYcLoop_carries hpoints.ycRtu htable.ycRtu,
      scaledYcLoop_carries hpoints.ycSensorConf htable.ycSensorConf,
      scaledYcLoop_carries hpoints.ycCustom htable.ycCustom⟩
  · rw [counterCall_dd hactive hcreated]
    exact ddLoop_carries hloop htable.dd

/-- A client that stays active on a connection that accepts everything. -/
def everyFrame : Nat → FrameOutcome := fun _ => ⟨true, true⟩

/-- One point in each of three arrays. -/
def smallTable : PointTable :=
  { pointTableInitDemo with
    yx := [initYxPoint 0]
    yc := [initYcPoint 0x4001 10 .float true]
    ycRtu := []
    ycSensorConf := []
    ycCustom := []
    dd := [initDdPoint 0] }

def smallTotalCall : TotalCallInput where
  msg := { qoi := 20 }
  active := true
  first := ⟨smallTable, true⟩
  points := ⟨everyFrame, everyFrame, everyFrame, everyFrame, everyFrame⟩
  dynagram := ⟨⟨smallTable, true⟩, fun _ => 0, fun _ => true, fun _ => everyFrame⟩
  elecDynagram := ⟨⟨smallTable, true⟩, fun _ => 0, fun _ => true, fun _ => everyFrame⟩
  harmonic := ⟨smallTable, true⟩
  harmonicLoop := everyFrame
  second := ⟨smallTable, true⟩
  dd := everyFrame
  activeAtEnd := true

def smallCounterCall : CounterCallInput where
  msg := { qcc := 5 }
  active := true
  table := smallTable
  clock := fun _ => 0
  snapshot := ⟨smallTable, true⟩
  dd := everyFrame
  activeAtEnd := true

theorem smallTable_shortAddresses : smallTable.ShortAddresses := by
  constructor <;> simp [smallTable, initYxPoint, initYcPoint, initDdPoint, ioaAt] <;> decide

/-- An upload area with one YX entry, before the first upload. -/
def smallUploadSession : UploadSession :=
  .start (uploadStep (activeUploadInit 1 1 1) (.putYx (initYxPoint 0) false))

def smallUpload : UploadInput :=
  ⟨1, true, ⟨true, true, true⟩, everyFrame, everyFrame, everyFrame⟩

theorem small_calls_carry_once :
    (Answer.sendTotalCall (fun _ => Vector.replicate 7 0) smallTotalCall).points.Carry
      .interrogatedByStation ycObject smallTotalCall.points smallTable ∧
    (Answer.sendCustomMeasureTotal ⟨⟨smallTable, true⟩, smallTotalCall.points⟩).Carry .request
      (fun point => ycObject point.asScaled) smallTotalCall.points smallTable ∧
    CarriesOnce DdPoint.ioa (ddObject false) .request everyFrame smallTable.dd
      (Answer.sendCounterCall smallCounterCall).dd ∧
    smallUpload.Carries smallUploadSession
      { version := 1, yx := [⟨1, false, 0, 0, 1⟩], yc := [], soe := [] } := by
  have hevery : StaysActive everyFrame := fun _ => rfl
  have hpoints : smallTotalCall.points.StayActive := ⟨hevery, hevery, hevery, hevery, hevery⟩
  obtain ⟨htotal, hmeasure, hcounter, hupload⟩ :=
    interrogation_frames_complete fun _ => Vector.replicate 7 0
  exact ⟨(htotal smallTotalCall rfl rfl rfl smallTable_shortAddresses smallTable_shortAddresses
      hpoints hevery).1,
    hmeasure ⟨⟨smallTable, true⟩, smallTotalCall.points⟩ rfl smallTable_shortAddresses hpoints,
    hcounter smallCounterCall rfl rfl smallTable_shortAddresses hevery,
    hupload smallUpload smallUploadSession _
      ⟨rfl, by decide, rfl, hevery, hevery, hevery⟩⟩

/-- A termination means that the answer was complete iff every call that gets as far as that was
undisturbed. -/
theorem termination_complete_iff (cp56 : UInt64 → Vector UInt8 7) (x : TotalCallInput)
    (y : CounterCallInput) (hfirst : x.first.table.ShortAddresses)
    (hsecond : x.second.table.ShortAddresses) (hcounter : y.snapshot.table.ShortAddresses) :
    (x.Complete cp56 ↔ x.Undisturbed) ∧ (y.Complete ↔ y.Undisturbed) := by
  constructor
  · unfold TotalCallInput.Complete TotalCallInput.Undisturbed
    rw [totalCall_terminated]
    constructor
    · intro h hactive hcreated hend
      obtain ⟨hpoints, hdd⟩ := h ⟨hactive, hcreated, hend⟩
      exact ⟨(points_report_iff hfirst hactive hcreated).mp hpoints,
        (totalCall_dd_reported_iff hsecond hactive hcreated).mp hdd⟩
    · intro h hsent
      obtain ⟨hactive, hcreated, hend⟩ := hsent
      obtain ⟨hpoints, hdd⟩ := h hactive hcreated hend
      exact ⟨(points_report_iff hfirst hactive hcreated).mpr hpoints,
        (totalCall_dd_reported_iff hsecond hactive hcreated).mpr hdd⟩
  · unfold CounterCallInput.Complete CounterCallInput.Undisturbed
    rw [counterCall_terminated]
    constructor
    · intro h hactive hcreated hend
      have hdd := h ⟨hactive, hcreated, hend⟩
      rw [counterCall_dd hactive hcreated] at hdd
      exact (ddLoop_reported_iff hcounter.dd).mp hdd
    · intro h hsent
      obtain ⟨hactive, hcreated, hend⟩ := hsent
      rw [counterCall_dd hactive hcreated]
      exact (ddLoop_reported_iff hcounter.dd).mpr (h hactive hcreated hend)

theorem small_calls_complete :
    smallTotalCall.Complete (fun _ => Vector.replicate 7 0) ∧ smallCounterCall.Complete := by
  have hevery : ∀ n, AllAccepted everyFrame n := fun _ _ _ => ⟨rfl, rfl⟩
  obtain ⟨htotal, hcounter⟩ := termination_complete_iff (fun _ => Vector.replicate 7 0)
    smallTotalCall smallCounterCall smallTable_shortAddresses smallTable_shortAddresses
    smallTable_shortAddresses
  exact ⟨htotal.mpr fun _ _ _ =>
      ⟨⟨hevery _, hevery _, hevery _, hevery _, hevery _⟩, .inl rfl, hevery _⟩,
    hcounter.mpr fun _ _ _ => hevery _⟩

/-- The connection refuses the one frame with the YX point, and the call is terminated all the
same. -/
theorem refused_frame_terminated : ¬TotalCallInput.Complete (fun _ => Vector.replicate 7 0)
    { smallTotalCall with
      points := { smallTotalCall.points with yx := fun _ => ⟨true, false⟩ } } := by
  intro h
  have hyx := (h rfl).1.yx.length_le
  revert hyx
  decide

end Iec104Slave
