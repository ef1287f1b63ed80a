import Iec104Slave.HistoryPaging
import Iec104Slave.Interrogation

/-!
# Calls of the private services (`handle_custom_call_work`)

A private call is acknowledged, answered with the frames of its service, and finished. The
headers of these frames are put together from calls that overwrite each other:
adding an information object to an empty ASDU sets the type of the object, and adding bytes
counts no element.

Result: `private_headers_truthful_iff`: the headers of the data frames are right, but for those of
history rows, which have a wrong type. Acknowledgements and finishes have a wrong count.
-/

namespace Iec104Slave

open Batch

/-! ## Frames -/

/-- The three parts of an answer. -/
inductive Phase
  | ack
  | data
  | finish
deriving DecidableEq

inductive HistoryKind
  | yx
  | yc
  | dd

/-- The type that `custom_asdu.h` gives the rows of a class. -/
def HistoryKind.typeId : HistoryKind → UInt8
  | .yx => customTypeHistoryYx
  | .yc => customTypeHistoryYc
  | .dd => customTypeHistoryDd

/-- A frame of a private service: information objects, for a history row or not, or bytes. -/
inductive ServiceFrame
  | objects (row : Option HistoryKind) (asdu : Asdu)
  | bytes (asdu : PayloadAsdu)

def ServiceFrame.typeId : ServiceFrame → UInt8
  | .objects _ asdu => asdu.typeId
  | .bytes asdu => asdu.typeId

/-- The element count of the qualifier. -/
def ServiceFrame.numberOfElements : ServiceFrame → Nat
  | .objects _ asdu => asdu.elements.length
  | .bytes asdu => asdu.numberOfElements

/-- The history row that the frame is for. -/
def ServiceFrame.row : ServiceFrame → Option HistoryKind
  | .objects row _ => row
  | .bytes _ => none

/-! ## The SOE history call -/

/-- `HISTORY_SOE_MAX_RECORDS_PER_FRAME`. -/
def historySoeMaxRecordsPerFrame : Nat := 20

/-- The value in the low byte, the quality in the high one. -/
def soeStatusWord (record : SoeRecord) : UInt16 :=
  (if record.value then (1 : UInt16) else 0) ||| ((record.quality.toUInt16 &&& 0xff) <<< 8)

def soePayload (cp56 : UInt64 → Vector UInt8 7) (clock : SoeRecord → UInt64) (ioa : UInt32)
    (records : List SoeRecord) : List UInt8 :=
  records.foldl (fun buffer record =>
    appendCp56Time cp56 (clock record)
      (appendWordLe (appendWordLe buffer (record.ioa &&& 0xffff).toUInt32.toUInt16)
        (soeStatusWord record)) record.timestampMs) (appendIoaLe [] ioa)

/-- The surroundings of `send_history_soe`: what the query of the store or of the history in
memory returned, the clock and the iterations. -/
structure SoeCallInput where
  records : List SoeRecord
  clock : SoeRecord → UInt64
  outcome : Nat → FrameOutcome

def Answer.sendHistorySoe (cp56 : UInt64 → Vector UInt8 7) (typeId : UInt8) (ioa : UInt32)
    (x : SoeCallInput) : List (Sent (List SoeRecord) PayloadAsdu) :=
  frameLoop (fun _ batch =>
    some (wordFrame typeId batch.length (soePayload cp56 x.clock ioa batch))) x.outcome
    (batches (fun _ k _ => k < historySoeMaxRecordsPerFrame) x.records)

/-! ## The call -/

def Answer.sendCustomPlaceholder (msg : Iec104WorkMsg) : PayloadAsdu :=
  customAsduSendPrivate msg.typeId .request msg.ioa [msg.typeId, 0, 0, 0] false

/-- The surroundings of `handle_custom_call_work`. The services that read one range share
`range` and `rangeLoop`, those that read curves `dynagram` and `elecDynagram`. -/
structure CustomCallInput where
  msg : Iec104WorkMsg
  active : Bool
  measureTotal : MeasureTotalInput
  dynagram : Answer.DynagramInput
  elecDynagram : Answer.DynagramInput
  range : SnapshotInput
  rangeLoop : Nat → FrameOutcome
  history : PagedHistoryCall
  soe : SoeCallInput
  activeAtEnd : Bool

/-- What a call sends: the acknowledgement, the frames of the service in order, the finish. -/
structure CustomCallAnswer where
  ack : Option PayloadAsdu := none
  data : List ServiceFrame := []
  finish : Option PayloadAsdu := none

def CustomCallAnswer.frames (answer : CustomCallAnswer) : Phase → List ServiceFrame
  | .ack => (answer.ack.map .bytes).toList
  | .data => answer.data
  | .finish => (answer.finish.map .bytes).toList

def framesOf {β φ : Type} (frame : φ → ServiceFrame) (sent : List (Sent β φ)) :
    List ServiceFrame :=
  (sent.filterMap Sent.frame).map frame

def PointSends.frames (sends : PointSends) : List ServiceFrame :=
  framesOf (.objects none) sends.yx ++ framesOf (.objects none) sends.yc ++
    framesOf (.objects none) sends.ycRtu ++ framesOf (.objects none) sends.ycSensorConf ++
    framesOf (.objects none) sends.ycCustom

def HistoryAnswer.frames (answer : HistoryAnswer) : List ServiceFrame :=
  framesOf (.objects (some .yx)) answer.yx ++ framesOf (.objects (some .yc)) answer.yc ++
    framesOf (.objects (some .dd)) answer.dd

namespace Answer

/-- `send_custom_all_dynagram`: the three curves, each under the type of its own call. -/
def sendCustomAllDynagram (cp56 : UInt64 → Vector UInt8 7) (x : CustomCallInput) :
    List ServiceFrame :=
  framesOf .bytes
    (sendCustomDynagramRanges cp56 customTypeDynagramCall [dynagramRange] x.dynagram) ++
  framesOf .bytes
    (sendCustomDynagramRanges cp56 customTypeElecDynagramCall [elecDynagramRange]
      x.elecDynagram) ++
  framesOf .bytes
    (sendCustomYcCustomWordRange customTypeWellheadPressureCall wellheadPressureDynagramRange
      x.range x.rangeLoop)

/-- The `switch` of `handle_custom_call_work`. The history loops may run out of fuel. -/
def customService (cp56 : UInt64 → Vector UInt8 7) (x : CustomCallInput) (fuel : Nat) :
    Option (List ServiceFrame) :=
  let type := x.msg.typeId
  if type = customTypeMeasureTotalCall then
    some (sendCustomMeasureTotal x.measureTotal).frames
  else if type = customTypeDynagramCall then
    some (framesOf .bytes (sendCustomDynagram cp56 type x.dynagram))
  else if type = customTypeElecDynagramCall then
    some (framesOf .bytes (sendCustomElecDynagram cp56 type x.elecDynagram))
  else if type = customTypeHistoryCall then (x.history.answer fuel).map HistoryAnswer.frames
  else if type = customTypeRtuParamCall then
    some (framesOf .bytes (sendCustomRtuParam type x.range x.rangeLoop))
  else if type = customTypeSensorParamCall then
    some (framesOf .bytes (sendCustomSensorParam type x.range x.rangeLoop))
  else if type = customTypeHarmonicCall then
    some (framesOf .bytes (sendCustomHarmonic type x.range x.rangeLoop))
  else if type = customTypeMeterTruckCall then
    some (framesOf .bytes (sendCustomMeterTruck type x.range x.rangeLoop))
  else if type = customTypeInjectionCall then
    some (framesOf .bytes (sendCustomInjection type x.range x.rangeLoop))
  else if type = customTypeAllDynagramCall then
    some (sendCustomAllDynagram cp56 x)
  else if type = customTypeActivePowerCall then
    some (framesOf .bytes (sendCustomActivePower type x.range x.rangeLoop))
  else if type = customTypeWellheadPressureCall then
    some (framesOf .bytes (sendCustomWellheadPressure type x.range x.rangeLoop))
  else if type = customTypeHistorySoeCall then
    some (framesOf .bytes (sendHistorySoe cp56 type x.msg.ioa x.soe))
  else if type = customTypeReservedSensorCall then
    some (framesOf .bytes (sendCustomReservedSensor type x.range x.rangeLoop))
  else some [.bytes (sendCustomPlaceholder x.msg)]

/-- `handle_custom_call_work`. A history call without data is finished without an
acknowledgement. -/
def handleCustomCallWork (cp56 : UInt64 → Vector UInt8 7) (x : CustomCallInput) (fuel : Nat) :
    Option CustomCallAnswer :=
  if !x.active then some {}
  else
    let finish :=
      if x.activeAtEnd then some (customAsduSendFinish x.msg.typeId x.msg.ioa) else none
    if x.msg.typeId = customTypeHistoryCall ∧
        historyDataTotalCount (queryHistoryData x.history) = 0 then some { finish := finish }
    else
      (customService cp56 x fuel).map fun data =>
        { ack := some (customAsduSendAck x.msg.typeId x.msg.ioa), data := data, finish := finish }

end Answer

/-! ## Truthful headers -/

/-- How the bytes behind the address are divided into elements. -/
inductive Layout
  | words
  | wordsWithTime
  | soeRecords
  | undivided
deriving DecidableEq

/-- A curve has a time behind its words, a record of the SOE history is two words and a time. Where
the source gives no element, all that is asked is that they are of one size. -/
def Layout.Holds : Layout → List UInt8 → Nat → Prop
  | .words, bytes, n => bytes.length = n * 2
  | .wordsWithTime, bytes, n => bytes.length = n * 2 + 7
  | .soeRecords, bytes, n => bytes.length = n * 11
  | .undivided, bytes, n => ∃ size, 0 < size ∧ bytes.length = n * size

/-- The layout of a data frame with the type. -/
def dataLayout (typeId : UInt8) : Layout :=
  if typeId = customTypeDynagramCall ∨ typeId = customTypeElecDynagramCall then .wordsWithTime
  else if typeId = customTypeHistorySoeCall then .soeRecords
  else if customAsduIsCallType typeId then .words
  else .undivided

/-- An acknowledgement and a finish carry the byte `0x45`. -/
def Phase.layout : Phase → UInt8 → Layout
  | .data, typeId => dataLayout typeId
  | _, _ => .undivided

/-- There are `n` elements behind the address. -/
def ServiceFrame.Holds (phase : Phase) : ServiceFrame → Nat → Prop
  | .objects _ asdu, n => ∃ size, 0 < size ∧ (∀ io ∈ asdu.elements, io.size = size) ∧
      asdu.payloadSize = sizeOfIoa + n * size
  | .bytes asdu, n => (phase.layout asdu.typeId).Holds (asdu.payload.drop sizeOfIoa) n

/-- A history row has the type of its class, and the count of the qualifier is the number of
elements. -/
structure ServiceFrame.Truthful (phase : Phase) (frame : ServiceFrame) : Prop where
  type : ∀ kind, frame.row = some kind → frame.typeId = kind.typeId
  count : frame.Holds phase frame.numberOfElements

/-- The data of every call of a private service, but for the history call. -/
structure HasTrueHeaders (phase : Phase) (typeId : UInt8) : Prop where
  data : phase = .data
  call : customAsduIsCallType typeId = true
  block : typeId ≠ customTypeHistoryCall

namespace CustomCallLemmas

open AsduBuilderLemmas CustomAsduLemmas CustomWordsLemmas FrameLoopLemmas HistoryCallLemmas
  HistoryPagingLemmas LittleEndian

/-! ### Acknowledgements and finishes -/

theorem sendPrivate_spec (type : UInt8) (cot : CauseOfTransmission) (ioa : UInt32)
    {payload : List UInt8} (h : payload.length ≤ 227) :
    (customAsduSendPrivate type cot ioa payload false).typeId = type ∧
      (customAsduSendPrivate type cot ioa payload false).numberOfElements = 0 ∧
      (customAsduSendPrivate type cot ioa payload false).payload.drop sizeOfIoa = payload := by
  have htake : payload.take (230 - (appendIoaLe [] ioa).length) = payload :=
    List.take_of_length_le h
  have hroom : ((PayloadAsdu.create false cot false).setTypeId type).payload.length +
      asduHeaderLength + (appendIoaLe [] ioa ++ payload).length ≤ 256 := by
    rw [List.length_append]
    show 0 + 6 + (3 + payload.length) ≤ 256
    omega
  rw [customAsduSendPrivate, htake, PayloadAsdu.addPayload, if_pos hroom]
  exact ⟨rfl, rfl, rfl⟩

/-- Some bytes, and a count of zero. -/
theorem private_untruthful {phase : Phase} {type : UInt8} {cot : CauseOfTransmission}
    {ioa : UInt32} {payload : List UInt8} (hlayout : phase.layout type = .undivided)
    (hsmall : payload.length ≤ 227) (hne : payload ≠ []) :
    ¬(ServiceFrame.bytes (customAsduSendPrivate type cot ioa payload false)).Truthful phase := by
  intro h
  obtain ⟨htype, hcount, hbytes⟩ := sendPrivate_spec type cot ioa hsmall
  have hholds := h.count
  rw [ServiceFrame.Holds, ServiceFrame.numberOfElements, htype, hlayout, hcount, hbytes] at hholds
  obtain ⟨size, _, hlen⟩ := hholds
  rw [Nat.zero_mul] at hlen
  exact hne (List.length_eq_zero_iff.mp hlen)

/-! ### Data -/

def AllTruthful (frames : List ServiceFrame) : Prop :=
  ∀ frame ∈ frames, frame.Truthful .data

theorem truthful_append {xs ys : List ServiceFrame} (hx : AllTruthful xs) (hy : AllTruthful ys) :
    AllTruthful (xs ++ ys) := by
  intro frame hframe
  rcases List.mem_append.mp hframe with h | h
  · exact hx frame h
  · exact hy frame h

theorem mem_framesOf {β φ : Type} {wrap : φ → ServiceFrame} {sent : List (Sent β φ)}
    {frame : ServiceFrame} (h : frame ∈ framesOf wrap sent) :
    ∃ s ∈ sent, ∃ asdu, s.frame = some asdu ∧ frame = wrap asdu := by
  obtain ⟨asdu, hasdu, rfl⟩ := List.mem_map.mp h
  obtain ⟨s, hs, hframe⟩ := List.mem_filterMap.mp hasdu
  exact ⟨s, hs, asdu, hframe, rfl⟩

theorem bytes_truthful {asdu : PayloadAsdu}
    (h : (dataLayout asdu.typeId).Holds (asdu.payload.drop sizeOfIoa) asdu.numberOfElements) :
    (ServiceFrame.bytes asdu).Truthful .data :=
  ⟨fun _ h => (by cases h), h⟩

/-- The words of a frame, and what follows them, as its type has it. -/
theorem truthful_words {typeId : UInt8} {tailSize : Nat} {frame : List YcPoint → Option PayloadAsdu}
    {maxWords : Nat} {range : IoaRange} {outcome : Nat → FrameOutcome} {points : List YcPoint}
    (hlayout : ∀ bytes n, bytes.length = n * 2 + tailSize → (dataLayout typeId).Holds bytes n)
    (hframe : FramesWords typeId frame tailSize) (hpos : 0 < maxWords) (hmax : maxWords ≤ 116) :
    AllTruthful (framesOf .bytes (sendWordRange frame maxWords range outcome points)) := by
  intro f hf
  obtain ⟨s, hs, asdu, hasdu, rfl⟩ := mem_framesOf hf
  obtain ⟨htype, _, hlen⟩ := wordRange_frame hframe hpos hmax hs hasdu
  refine bytes_truthful ?_
  rw [htype]
  refine hlayout _ _ ?_
  rw [List.length_drop, hlen, Nat.add_assoc, sizeOfIoa, Nat.add_sub_cancel_left]

theorem truthful_onSnapshot {x : SnapshotInput}
    {send : PointTable → List (Sent (List YcPoint) PayloadAsdu)}
    (h : ∀ snapshot, AllTruthful (framesOf .bytes (send snapshot))) :
    AllTruthful (framesOf .bytes (Answer.onSnapshot x send)) := by
  unfold Answer.onSnapshot
  split
  · exact fun frame hframe => by cases hframe
  · exact h _

/-- The service of a type whose data are words. -/
theorem truthful_wordService {typeId : UInt8} (htype : dataLayout typeId = .words)
    (x : SnapshotInput) (array : PointTable → List YcPoint) (range : IoaRange)
    (outcome : Nat → FrameOutcome) {maxWords : Nat} (hpos : 0 < maxWords) (hmax : maxWords ≤ 116) :
    AllTruthful (framesOf .bytes (Answer.onSnapshot x fun snapshot =>
      sendWordRange (fun batch => some (wordFrame typeId batch.length (wordPayload batch)))
        maxWords range outcome (array snapshot))) := by
  refine truthful_onSnapshot fun snapshot =>
    truthful_words (fun bytes n hlen => ?_) (framesWords_plain typeId) hpos hmax
  rw [htype]
  exact hlen

theorem truthful_dynagramRanges (cp56 : UInt64 → Vector UInt8 7) {typeId : UInt8}
    (htype : dataLayout typeId = .wordsWithTime) (ranges : List IoaRange)
    (x : Answer.DynagramInput) :
    AllTruthful (framesOf .bytes (Answer.sendCustomDynagramRanges cp56 typeId ranges x)) := by
  refine truthful_onSnapshot fun snapshot f hf => ?_
  obtain ⟨s, hs, asdu, hasdu, rfl⟩ := mem_framesOf hf
  obtain ⟨range, _, hs⟩ := List.mem_flatMap.mp hs
  refine truthful_words (fun bytes n hlen => ?_) (framesWords_dynagram cp56 x.clock typeId)
    (by decide) (by decide) _ (List.mem_map_of_mem (List.mem_filterMap.mpr ⟨s, hs, hasdu⟩))
  rw [htype]
  exact hlen

theorem length_foldl_soe (cp56 : UInt64 → Vector UInt8 7) (clock : SoeRecord → UInt64)
    (records : List SoeRecord) (buffer : List UInt8) :
    (records.foldl (fun buffer record =>
      appendCp56Time cp56 (clock record)
        (appendWordLe (appendWordLe buffer (record.ioa &&& 0xffff).toUInt32.toUInt16)
          (soeStatusWord record)) record.timestampMs) buffer).length =
      buffer.length + records.length * 11 := by
  induction records generalizing buffer with
  | nil => rfl
  | cons record records ih =>
    rw [List.foldl_cons, ih, appendCp56Time, appendWordLe_eq, appendWordLe_eq,
      List.length_append, List.length_append, List.length_append, length_encode, length_encode,
      Vector.length_toList, List.length_cons]
    omega

theorem truthful_soe (cp56 : UInt64 → Vector UInt8 7) (ioa : UInt32) (x : SoeCallInput) :
    AllTruthful (framesOf .bytes
      (Answer.sendHistorySoe cp56 customTypeHistorySoeCall ioa x)) := by
  intro f hf
  obtain ⟨s, hs, asdu, hasdu, rfl⟩ := mem_framesOf hf
  obtain ⟨hitem, _, hsend⟩ := item_mem hs
  obtain ⟨first, hbatch⟩ := isBatch_of_mem _ hitem
  have hlen : s.item.length ≤ historySoeMaxRecordsPerFrame :=
    hbatch.length_le (by decide) fun k _ hk => of_decide_eq_true hk
  have hpayload : (soePayload cp56 x.clock ioa s.item).length = 3 + s.item.length * 11 :=
    length_foldl_soe cp56 x.clock s.item _
  have hroom : (soePayload cp56 x.clock ioa s.item).length ≤ 250 := by
    rw [hpayload]
    exact Nat.le_trans (Nat.add_le_add_left (Nat.mul_le_mul_right 11 hlen) 3) (by decide)
  obtain ⟨htype, hcount, hbytes⟩ :=
    wordFrame_eq customTypeHistorySoeCall hroom (Nat.le_trans hlen (by decide))
  rw [hasdu] at hsend
  cases hsend
  refine bytes_truthful ?_
  rw [htype, hcount, hbytes]
  show ((soePayload cp56 x.clock ioa s.item).drop sizeOfIoa).length = s.item.length * 11
  rw [List.length_drop, hpayload, sizeOfIoa, Nat.add_sub_cancel_left]

/-- The frames of points are sequences, which count what they hold. -/
theorem truthful_points {ε : Type} {send : Bool → List ε → Option Asdu}
    {objects : List ε → List InformationObject} {cot : CauseOfTransmission}
    {outcome : Nat → FrameOutcome} {batches : List (List ε)}
    (hsend : ∀ accepts batch, send accepts batch = sendObjects accepts true cot (objects batch)) :
    AllTruthful (framesOf (.objects none) (frameLoop send outcome batches)) := by
  intro f hf
  obtain ⟨s, hs, asdu, hasdu, rfl⟩ := mem_framesOf hf
  obtain ⟨_, accepts, hframe⟩ := item_mem hs
  rw [hasdu, hsend] at hframe
  exact ⟨fun _ h => (by cases h), sequence_elements hframe.symm⟩

theorem truthful_measureTotal (x : MeasureTotalInput) :
    AllTruthful (Answer.sendCustomMeasureTotal x).frames := by
  unfold Answer.sendCustomMeasureTotal
  split
  · exact fun frame hframe => by cases hframe
  · exact truthful_append (truthful_append (truthful_append (truthful_append
      (truthful_points fun _ _ => rfl) (truthful_points fun _ _ => rfl))
      (truthful_points fun _ _ => rfl)) (truthful_points fun _ _ => rfl))
      (truthful_points fun _ _ => rfl)

theorem truthful_allDynagram (cp56 : UInt64 → Vector UInt8 7) (x : CustomCallInput) :
    AllTruthful (Answer.sendCustomAllDynagram cp56 x) :=
  truthful_append (truthful_append (truthful_dynagramRanges _ rfl _ _)
    (truthful_dynagramRanges _ rfl _ _))
    (truthful_wordService rfl _ PointTable.ycCustom _ _ (by decide) (by decide))

/-! ### History rows -/

/-- The object sets its own type. -/
theorem sendHistory_typeId (type : UInt8) {io : InformationObject} (h : io.size ≤ 12) :
    (customAsduSendHistory type io).typeId = io.typeId := by
  have hroom : ¬maxSizeOfAsdu - 0 - asduHeaderLength < sizeOfIoa + io.size := by
    show ¬243 < 3 + io.size
    omega
  unfold customAsduSendHistory Asdu.addInformationObject Asdu.create Asdu.encode
  simp only [Bool.false_eq_true, if_false, if_neg hroom]
  rfl

theorem sendHistoryClass_frames {α : Type} {frame : α → Asdu} {timestamp : α → UInt64}
    {query : Nat → UInt64 → UInt64 → List (HistoryRow α)} {x : PageOutcomes} {n p : Nat}
    {records : List (HistoryRow α)} :
    ∀ s ∈ (Answer.sendHistoryClass frame timestamp query x n p records).1,
      s.frame = some (frame s.item.point) := by
  induction n generalizing p records with
  | zero => exact fun s hs => by cases hs
  | succ n ih =>
    have hpage : ∀ s ∈ frameLoop (fun _ row => some (frame row.point)) (x.rows p) records,
        s.frame = some (frame s.item.point) := by
      intro s hs
      obtain ⟨_, _, hframe⟩ := item_mem hs
      exact hframe
    rw [Answer.sendHistoryClass]
    split
    · exact fun s hs => by cases hs
    · split
      · dsimp only
        split
        · exact hpage
        · intro s hs
          rcases List.mem_append.mp hs with hs | hs
          · exact hpage s hs
          · exact ih s hs
      · exact fun s hs => by cases hs

/-- The rows of a class go out under the type of their object. -/
theorem class_untruthful {x : PagedHistoryCall} {α : Type} {history : HistoryClass α}
    {input : ClassInput x.config.backend α} {first : List (HistoryRow α)} {n : Nat}
    {kind : HistoryKind} (hwrong : ∀ point, (history.frame point).typeId ≠ kind.typeId) :
    ∀ frame ∈ framesOf (.objects (some kind)) (x.send history input first n).1,
      ¬frame.Truthful .data := by
  intro f hf htrue
  obtain ⟨s, hs, asdu, hasdu, rfl⟩ := mem_framesOf hf
  rw [sendHistoryClass_frames s hs] at hasdu
  cases hasdu
  exact hwrong _ (htrue.type kind rfl)

theorem historyYx_typeId (record : SoeRecord) :
    (customAsduSendHistoryYx record).typeId = M_SP_TB_1 :=
  sendHistory_typeId _ (Nat.le_of_ble_eq_true rfl)

theorem historyDd_typeId (point : DdPoint) : (customAsduSendHistoryDd point).typeId = M_IT_TB_1 :=
  sendHistory_typeId _ (Nat.le_of_ble_eq_true rfl)

theorem historyYc_typeId (point : YcPoint) :
    (customAsduSendHistoryYc point).typeId ≠ customTypeHistoryYc := by
  unfold customAsduSendHistoryYc ycTimeObject ycElement
  cases point.iecType with
  | normalized =>
    rw [sendHistory_typeId _ (Nat.le_of_ble_eq_true rfl)]
    exact show M_ME_TD_1 ≠ _ by decide
  | scaled =>
    rw [sendHistory_typeId _ (Nat.le_of_ble_eq_true rfl)]
    exact show M_ME_TE_1 ≠ _ by decide
  | float =>
    rw [sendHistory_typeId _ (Nat.le_of_ble_eq_true rfl)]
    exact show M_ME_TF_1 ≠ _ by decide

theorem history_untruthful {x : PagedHistoryCall} {n : Nat} {answer : HistoryAnswer}
    (h : x.answer n = some answer) : ∀ frame ∈ answer.frames, ¬frame.Truthful .data := by
  unfold PagedHistoryCall.answer Answer.sendHistoryDataRecords at h
  dsimp only at h
  split at h
  · cases h
    intro frame hframe
    rcases List.mem_append.mp hframe with hframe | hframe
    · rcases List.mem_append.mp hframe with hframe | hframe
      · refine class_untruthful (fun point => ?_) frame hframe
        exact (historyYx_typeId _).trans_ne (by decide)
      · exact class_untruthful historyYc_typeId frame hframe
    · refine class_untruthful (fun point => ?_) frame hframe
      exact (historyDd_typeId point).trans_ne (by decide)
  · cases h

/-! ### The call -/

/-- The data frames of a call have right headers iff they should have. -/
def ServiceDescribed (typeId : UInt8) (service : Option (List ServiceFrame)) : Prop :=
  ∀ data, service = some data → ∀ frame ∈ data,
    (frame.Truthful .data ↔ HasTrueHeaders .data typeId)

theorem described_block {typeId type : UInt8} {data : List ServiceFrame} (htype : typeId = type)
    (hcall : customAsduIsCallType type = true) (hblock : type ≠ customTypeHistoryCall)
    (h : AllTruthful data) : ServiceDescribed typeId (some data) := by
  intro _ heq frame hframe
  cases heq
  subst htype
  exact iff_of_true (h frame hframe) ⟨rfl, hcall, hblock⟩

theorem described_ite {typeId type : UInt8} {service other : Option (List ServiceFrame)}
    (h : typeId = type → ServiceDescribed typeId service)
    (hother : typeId ≠ type → ServiceDescribed typeId other) :
    ServiceDescribed typeId (if typeId = type then service else other) := by
  split
  · next htype => exact h htype
  · next htype => exact hother htype

theorem described_history {typeId : UInt8} (htype : typeId = customTypeHistoryCall)
    (x : PagedHistoryCall) (n : Nat) :
    ServiceDescribed typeId ((x.answer n).map HistoryAnswer.frames) := by
  intro data h frame hframe
  obtain ⟨answer, hanswer, rfl⟩ := Option.map_eq_some_iff.mp h
  exact iff_of_false (history_untruthful hanswer frame hframe) fun h => h.block htype

/-- The types of the calls follow each other. -/
theorem callType_le {type : UInt8} (h : customAsduIsCallType type = true) :
    0x88 ≤ type.toNat ∧ type.toNat ≤ 0x95 := by
  rw [customAsduIsCallType, Bool.and_eq_true, decide_eq_true_eq, decide_eq_true_eq,
    UInt8.le_iff_toNat_le, UInt8.le_iff_toNat_le] at h
  exact h

theorem described_placeholder {msg : Iec104WorkMsg}
    (htype : customAsduIsCallType msg.typeId = false) :
    ServiceDescribed msg.typeId (some [.bytes (Answer.sendCustomPlaceholder msg)]) := by
  intro data heq frame hframe
  cases heq
  rw [List.mem_singleton.mp hframe]
  have hother : ∀ type, customAsduIsCallType type = true → msg.typeId ≠ type := by
    intro type hcall heq
    rw [heq, hcall] at htype
    cases htype
  have hlayout : dataLayout msg.typeId = .undivided := by
    rw [dataLayout, if_neg (not_or.mpr ⟨hother _ rfl, hother _ rfl⟩), if_neg (hother _ rfl), htype]
    rfl
  refine iff_of_false (private_untruthful hlayout (Nat.le_of_ble_eq_true rfl) (by simp)) fun h => ?_
  rw [h.call] at htype
  cases htype

theorem described_service (cp56 : UInt64 → Vector UInt8 7) (x : CustomCallInput) (fuel : Nat) :
    ServiceDescribed x.msg.typeId (Answer.customService cp56 x fuel) := by
  have hwords : ∀ {type : UInt8}, dataLayout type = .words → x.msg.typeId = type →
      dataLayout x.msg.typeId = .words := fun h heq => heq ▸ h
  unfold Answer.customService
  refine described_ite (fun h => described_block h rfl (by decide) (truthful_measureTotal _))
    fun h88 => ?_
  refine described_ite (fun h => described_block h rfl (by decide)
    (truthful_dynagramRanges _ (h ▸ rfl) _ _)) fun h89 => ?_
  refine described_ite (fun h => described_block h rfl (by decide)
    (truthful_dynagramRanges _ (h ▸ rfl) _ _)) fun h8A => ?_
  refine described_ite (fun h => described_history h _ _) fun h8B => ?_
  refine described_ite (fun h => described_block h rfl (by decide)
    (truthful_wordService (hwords rfl h) _ PointTable.ycRtu _ _ (by decide) (by decide)))
    fun h8C => ?_
  refine described_ite (fun h => described_block h rfl (by decide)
    (truthful_wordService (hwords rfl h) _ PointTable.ycSensorConf _ _ (by decide) (by decide)))
    fun h8D => ?_
  refine described_ite (fun h => described_block h rfl (by decide)
    (truthful_wordService (hwords rfl h) _ PointTable.ycCustom _ _ (by decide) (by decide)))
    fun h8E => ?_
  refine described_ite (fun h => described_block h rfl (by decide)
    (truthful_wordService (hwords rfl h) _ PointTable.ycCustom _ _ (by decide) (by decide)))
    fun h8F => ?_
  refine described_ite (fun h => described_block h rfl (by decide)
    (truthful_wordService (hwords rfl h) _ PointTable.ycCustom _ _ (by decide) (by decide)))
    fun h90 => ?_
  refine described_ite (fun h => described_block h rfl (by decide) (truthful_allDynagram _ _))
    fun h91 => ?_
  refine described_ite (fun h => described_block h rfl (by decide)
    (truthful_wordService (hwords rfl h) _ PointTable.ycCustom _ _ (by decide) (by decide)))
    fun h92 => ?_
  refine described_ite (fun h => described_block h rfl (by decide)
    (truthful_wordService (hwords rfl h) _ PointTable.ycCustom _ _ (by decide) (by decide)))
    fun h93 => ?_
  refine described_ite (fun h => described_block h rfl (by decide) ?_) fun h94 => ?_
  · rw [h]
    exact truthful_soe _ _ _
  refine described_ite (fun h => described_block h rfl (by decide)
    (truthful_wordService (hwords rfl h) _ PointTable.yc _ _ (by decide) (by decide)))
    fun h95 => ?_
  -- the fourteen types are all there are
  refine described_placeholder (Bool.eq_false_of_not_eq_true fun hcall => ?_)
  have hrange := callType_le hcall
  simp only [ne_eq, ← UInt8.toNat_inj] at h88 h89 h8A h8B h8C h8D h8E h8F h90 h91 h92 h93 h94 h95
  simp only [customTypeMeasureTotalCall, customTypeDynagramCall, customTypeElecDynagramCall,
    customTypeHistoryCall, customTypeRtuParamCall, customTypeSensorParamCall,
    customTypeHarmonicCall, customTypeMeterTruckCall, customTypeInjectionCall,
    customTypeAllDynagramCall, customTypeActivePowerCall, customTypeWellheadPressureCall,
    customTypeHistorySoeCall, customTypeReservedSensorCall, UInt8.reduceToNat] at *
  omega

theorem service_ends (cp56 : UInt64 → Vector UInt8 7) (x : CustomCallInput) :
    ∃ enough, ∀ fuel ≥ enough, ∃ data, Answer.customService cp56 x fuel = some data := by
  obtain ⟨enough, hanswer⟩ := answer_ends x.history
  refine ⟨enough, fun fuel hfuel => ?_⟩
  obtain ⟨answer, heq⟩ := hanswer fuel hfuel
  unfold Answer.customService
  rw [heq, Option.map_some]
  simp only [← apply_ite some]
  exact ⟨_, rfl⟩

/-- The acknowledgement and the finish of a call. -/
theorem mark_untruthful {phase : Phase} (hphase : phase ≠ .data) (type : UInt8)
    (cot : CauseOfTransmission) (ioa : UInt32) :
    ¬(ServiceFrame.bytes (customAsduSendPrivate type cot ioa [0x45] false)).Truthful phase := by
  refine private_untruthful ?_ (Nat.le_of_ble_eq_true rfl) (by simp)
  cases phase with
  | ack => rfl
  | data => exact absurd rfl hphase
  | finish => rfl

theorem described_call {cp56 : UInt64 → Vector UInt8 7} {x : CustomCallInput} {fuel : Nat}
    {answer : CustomCallAnswer} (h : Answer.handleCustomCallWork cp56 x fuel = some answer) :
    (∀ asdu, answer.ack = some asdu →
      asdu = customAsduSendAck x.msg.typeId x.msg.ioa) ∧
    (∀ asdu, answer.finish = some asdu →
      asdu = customAsduSendFinish x.msg.typeId x.msg.ioa) ∧
    ∀ frame ∈ answer.data, frame.Truthful .data ↔ HasTrueHeaders .data x.msg.typeId := by
  have hfinish : ∀ asdu, (if x.activeAtEnd then some (customAsduSendFinish x.msg.typeId x.msg.ioa)
      else none) = some asdu → asdu = customAsduSendFinish x.msg.typeId x.msg.ioa := by
    intro asdu h
    split at h
    · exact (Option.some.inj h).symm
    · cases h
  unfold Answer.handleCustomCallWork at h
  split at h
  · cases h
    exact ⟨fun _ h => (by cases h), fun _ h => (by cases h), fun _ h => (by cases h)⟩
  · dsimp only at h
    split at h
    · cases h
      exact ⟨fun _ h => (by cases h), hfinish, fun _ h => (by cases h)⟩
    · obtain ⟨data, hdata, rfl⟩ := Option.map_eq_some_iff.mp h
      exact ⟨fun _ h => (Option.some.inj h).symm, hfinish, described_service cp56 x fuel data hdata⟩

end CustomCallLemmas

open CustomCallLemmas

/-- Every call ends, and the frames with a right header are the data frames of the calls other than
the history call. -/
theorem private_headers_truthful_iff (cp56 : UInt64 → Vector UInt8 7) (x : CustomCallInput) :
    ∃ enough, ∀ fuel ≥ enough, ∃ answer,
      Answer.handleCustomCallWork cp56 x fuel = some answer ∧
        ∀ phase, ∀ frame ∈ answer.frames phase,
          (frame.Truthful phase ↔ HasTrueHeaders phase x.msg.typeId) := by
  obtain ⟨enough, hservice⟩ := service_ends cp56 x
  refine ⟨enough, fun fuel hfuel => ?_⟩
  obtain ⟨data, hdata⟩ := hservice fuel hfuel
  have hsome : ∃ answer, Answer.handleCustomCallWork cp56 x fuel = some answer := by
    unfold Answer.handleCustomCallWork
    dsimp only
    rw [hdata, Option.map_some, ← apply_ite some, ← apply_ite some]
    exact ⟨_, rfl⟩
  obtain ⟨answer, hanswer⟩ := hsome
  obtain ⟨hack, hfinish, hframes⟩ := described_call hanswer
  refine ⟨answer, hanswer, fun phase frame hframe => ?_⟩
  cases phase with
  | ack =>
    obtain ⟨asdu, hasdu, rfl⟩ := Option.map_eq_some_iff.mp (Option.mem_toList.mp hframe)
    rw [hack asdu hasdu]
    exact iff_of_false (mark_untruthful Phase.noConfusion _ _ _) fun h => nomatch h.data
  | data => exact hframes frame hframe
  | finish =>
    obtain ⟨asdu, hasdu, rfl⟩ := Option.map_eq_some_iff.mp (Option.mem_toList.mp hframe)
    rw [hfinish asdu hasdu]
    exact iff_of_false (mark_untruthful Phase.noConfusion _ _ _) fun h => nomatch h.data

/-- A history call to a store with one YX row; the other services are not called. -/
def oneRowCall : CustomCallInput where
  msg := { type := .historyCall, typeId := customTypeHistoryCall }
  active := true
  measureTotal :=
    ⟨⟨smallTable, true⟩, everyFrame, everyFrame, everyFrame, everyFrame, everyFrame⟩
  dynagram := ⟨⟨smallTable, true⟩, fun _ => 0, fun _ => true, fun _ => everyFrame⟩
  elecDynagram := ⟨⟨smallTable, true⟩, fun _ => 0, fun _ => true, fun _ => everyFrame⟩
  range := ⟨smallTable, true⟩
  rangeLoop := everyFrame
  history := sameTimeCall [0] (by decide)
  soe := ⟨[], fun _ => 0, everyFrame⟩
  activeAtEnd := true

/-- The row goes out as `M_SP_TB_1`, and behind the address of the acknowledgement and the finish
there is a byte, but the count is zero. -/
theorem one_row_headers_wrong : ∃ ack row finish,
    Answer.handleCustomCallWork (fun _ => Vector.replicate 7 0) oneRowCall 2 =
      some ⟨some ack, [row], some finish⟩ ∧
    row.row = some .yx ∧ row.typeId = M_SP_TB_1 ∧ ¬customAsduIsHistoryReturnType row.typeId ∧
    ack.numberOfElements = 0 ∧ ack.payload = [0, 0, 0, 0x45] ∧
    finish.numberOfElements = 0 ∧ finish.payload = [0, 0, 0, 0x45] :=
  ⟨_, _, _, rfl, rfl, rfl, by decide, rfl, rfl, rfl, rfl⟩

end Iec104Slave
