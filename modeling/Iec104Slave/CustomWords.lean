import Iec104Slave.CustomAsdu
import Iec104Slave.FrameLoop

/-!
# Word ranges of the private services

The parameter and curve calls answer with the YC points of an address range as 16-bit words.
A loop goes over the array, passes over points outside of the range and puts runs of
consecutive addresses into one frame: the address of the first point, then a word for
each point. The master counts the addresses up from the first one.

Results:
1. `customWordValues_frame`: a frame is read back as the points of its batch.
2. `custom_words_decode`: all frames of an answer together are read back as the points of the
   array that lie in the range.
-/

namespace Iec104Slave

open Batch

/-! ## Ranges and limits -/

def dynagramRange : IoaRange := ⟨0x5401, 0x5800⟩
def elecDynagramRange : IoaRange := ⟨0x5801, 0x5B26⟩
def wellheadPressureDynagramRange : IoaRange := ⟨0x5B27, 0x5CB6⟩
def rtuParamRange : IoaRange := ⟨0x1001, 0x103E⟩
def sensorParamRange : IoaRange := ⟨0x2001, 0x4000⟩
def meterTruckRange : IoaRange := ⟨0x5001, 0x5100⟩
def injectionRange : IoaRange := ⟨0x5101, 0x5200⟩
def harmonicRange : IoaRange := ⟨0x5201, 0x5400⟩
def activePowerRange : IoaRange := ⟨0x5CB7, 0x5FD6⟩
def reservedSensorRange : IoaRange := ⟨0x4200, 0x42AA⟩

def dynagramMaxWordsPerFrame : Nat := 116
def rtuParamMaxWordsPerFrame : Nat := 116
def sensorParamMaxWordsPerFrame : Nat := 116
def customYcWordMaxPerFrame : Nat := 116

/-! ## Frames -/

/-- `(uint16_t)((int)value & 0xffff)`. -/
def wordOf (value : ℚ) : UInt16 :=
  (Int32.ofInt (truncate value) &&& 0xffff).toUInt32.toUInt16

/-- The address of the first point, and a word for each point. -/
def wordPayload (points : List YcPoint) : List UInt8 :=
  match points with
  | [] => []
  | first :: _ =>
    (points.map fun point => wordOf point.value).foldl appendWordLe (appendIoaLe [] first.ioa)

def wordFrame (typeId : UInt8) (count : Nat) (payload : List UInt8) : PayloadAsdu :=
  (((PayloadAsdu.create true .request false).setTypeId typeId).setNumberOfElements
    count).addPayload payload

/-- The batch that starts with `first` goes on with `point` at index `k`. From a point outside
of the range no batch grows. -/
def wordFits (maxWords : Nat) (range : IoaRange) (first : YcPoint) (k : Nat) (point : YcPoint) :
    Bool :=
  ioaInRange range first.ioa.toInt32 && decide (k < maxWords) &&
    decide (point.ioa.toInt32 ≤ range.stop) && point.ioa == first.ioa + UInt32.ofNat k

/-- The iterations over an array. -/
def wordBatches (maxWords : Nat) (range : IoaRange) (points : List YcPoint) :
    List (List YcPoint) :=
  batches (wordFits maxWords range) points

/-- The loop that the range senders share. They do not use the result of
`IMasterConnection_sendASDU`. -/
def sendWordRange (frame : List YcPoint → Option PayloadAsdu) (maxWords : Nat) (range : IoaRange)
    (outcome : Nat → FrameOutcome) (points : List YcPoint) :
    List (Sent (List YcPoint) PayloadAsdu) :=
  frameLoop (fun _ batch =>
    if batch.head?.any fun point => ioaInRange range point.ioa.toInt32 then frame batch else none)
    outcome (wordBatches maxWords range points)

/-! ## The senders -/

namespace Answer

def sendCustomYcWordPoints (typeId : UInt8) (points : List YcPoint) (range : IoaRange)
    (outcome : Nat → FrameOutcome) : List (Sent (List YcPoint) PayloadAsdu) :=
  sendWordRange (fun batch => some (wordFrame typeId batch.length (wordPayload batch)))
    customYcWordMaxPerFrame range outcome points

/-- `send_custom_dynagram_frame`: the words are followed by the time of the first point. `clock`
is the time at which the frame from that address on is built. -/
def sendCustomDynagramFrame (cp56 : UInt64 → Vector UInt8 7) (clock : UInt32 → UInt64)
    (typeId : UInt8) (points : List YcPoint) : Option PayloadAsdu :=
  match points with
  | [] => none
  | first :: _ =>
    let taken := points.take dynagramMaxWordsPerFrame
    some (wordFrame typeId taken.length
      (appendCp56Time cp56 (clock first.ioa) (wordPayload taken) first.timestampMs))

def sendCustomDynagramRange (cp56 : UInt64 → Vector UInt8 7) (clock : UInt32 → UInt64)
    (typeId : UInt8) (snapshot : PointTable) (range : IoaRange) (outcome : Nat → FrameOutcome) :
    List (Sent (List YcPoint) PayloadAsdu) :=
  sendWordRange (sendCustomDynagramFrame cp56 clock typeId) dynagramMaxWordsPerFrame range outcome
    snapshot.ycCustom

/-- The senders read a snapshot of the table; without one they send nothing. -/
def onSnapshot (x : SnapshotInput) (send : PointTable → List (Sent (List YcPoint) PayloadAsdu)) :
    List (Sent (List YcPoint) PayloadAsdu) :=
  match pointTableSnapshotCreate x with
  | none => []
  | some snapshot => send snapshot

def sendCustomRtuParam (typeId : UInt8) (x : SnapshotInput) (outcome : Nat → FrameOutcome) :
    List (Sent (List YcPoint) PayloadAsdu) :=
  onSnapshot x fun snapshot =>
    sendWordRange (fun batch => some (wordFrame typeId batch.length (wordPayload batch)))
      rtuParamMaxWordsPerFrame rtuParamRange outcome snapshot.ycRtu

def sendCustomSensorParam (typeId : UInt8) (x : SnapshotInput) (outcome : Nat → FrameOutcome) :
    List (Sent (List YcPoint) PayloadAsdu) :=
  onSnapshot x fun snapshot =>
    sendWordRange (fun batch => some (wordFrame typeId batch.length (wordPayload batch)))
      sensorParamMaxWordsPerFrame sensorParamRange outcome snapshot.ycSensorConf

def sendCustomReservedSensor (typeId : UInt8) (x : SnapshotInput)
    (outcome : Nat → FrameOutcome) : List (Sent (List YcPoint) PayloadAsdu) :=
  onSnapshot x fun snapshot =>
    sendCustomYcWordPoints typeId snapshot.yc reservedSensorRange outcome

def sendCustomYcCustomWordRange (typeId : UInt8) (range : IoaRange) (x : SnapshotInput)
    (outcome : Nat → FrameOutcome) : List (Sent (List YcPoint) PayloadAsdu) :=
  onSnapshot x fun snapshot => sendCustomYcWordPoints typeId snapshot.ycCustom range outcome

/-- The surroundings of `send_custom_dynagram_ranges`: its snapshot, the tests of the client
before each range and the iterations in each range. -/
structure DynagramInput where
  snapshot : SnapshotInput
  clock : UInt32 → UInt64
  active : Nat → Bool
  outcome : Nat → Nat → FrameOutcome

def sendCustomDynagramRanges (cp56 : UInt64 → Vector UInt8 7) (typeId : UInt8)
    (ranges : List IoaRange) (x : DynagramInput) : List (Sent (List YcPoint) PayloadAsdu) :=
  onSnapshot x.snapshot fun snapshot =>
    (ranges.zipIdx.takeWhile fun range => x.active range.2).flatMap fun range =>
      sendCustomDynagramRange cp56 x.clock typeId snapshot range.1 (x.outcome range.2)

def sendCustomDynagram (cp56 : UInt64 → Vector UInt8 7) (typeId : UInt8) (x : DynagramInput) :
    List (Sent (List YcPoint) PayloadAsdu) :=
  sendCustomDynagramRanges cp56 typeId [dynagramRange] x

def sendCustomElecDynagram (cp56 : UInt64 → Vector UInt8 7) (typeId : UInt8)
    (x : DynagramInput) : List (Sent (List YcPoint) PayloadAsdu) :=
  sendCustomDynagramRanges cp56 typeId [elecDynagramRange] x

def sendCustomHarmonic (typeId : UInt8) : SnapshotInput → (Nat → FrameOutcome) →
    List (Sent (List YcPoint) PayloadAsdu) :=
  sendCustomYcCustomWordRange typeId harmonicRange

def sendCustomMeterTruck (typeId : UInt8) : SnapshotInput → (Nat → FrameOutcome) →
    List (Sent (List YcPoint) PayloadAsdu) :=
  sendCustomYcCustomWordRange typeId meterTruckRange

def sendCustomInjection (typeId : UInt8) : SnapshotInput → (Nat → FrameOutcome) →
    List (Sent (List YcPoint) PayloadAsdu) :=
  sendCustomYcCustomWordRange typeId injectionRange

def sendCustomActivePower (typeId : UInt8) : SnapshotInput → (Nat → FrameOutcome) →
    List (Sent (List YcPoint) PayloadAsdu) :=
  sendCustomYcCustomWordRange typeId activePowerRange

def sendCustomWellheadPressure (typeId : UInt8) : SnapshotInput → (Nat → FrameOutcome) →
    List (Sent (List YcPoint) PayloadAsdu) :=
  sendCustomYcCustomWordRange typeId wellheadPressureDynagramRange

end Answer

/-! ## The master -/

/-- The addresses and words that the master reads from a frame: three bytes of address, then
as many words as the qualifier counts. -/
def customWordValues (asdu : PayloadAsdu) : List (Nat × Nat) :=
  ((LittleEndian.decodeRow 2 asdu.numberOfElements (asdu.payload.drop 3)).zipIdx
    (LittleEndian.decode (asdu.payload.take 3))).map Prod.swap

/-- The frames of an answer say what the array holds in the range. -/
structure DecodesTo (points : List YcPoint) (range : IoaRange)
    (answer : List (Sent (List YcPoint) PayloadAsdu)) : Prop where
  values : ∀ ioa word, (ioa, word) ∈ carried customWordValues answer ↔
    ∃ point ∈ points, range.start.toInt ≤ point.ioa.toNat ∧ point.ioa.toNat ≤ range.stop.toInt ∧
      ioa = point.ioa.toNat ∧ ∃ n : ℤ, point.value = n ∧ (word : ℤ) = n % 2 ^ 16
  once : ((carried customWordValues answer).map Prod.fst).Nodup
  fits : ∀ sent ∈ answer, ∀ asdu, sent.frame = some asdu →
    asdu.payload.length ≤ maxSizeOfAsdu - asduHeaderLength ∧ asdu.numberOfElements ≤ 127

namespace CustomWordsLemmas

open AsduBuilderLemmas CustomAsduLemmas FrameLoopLemmas LittleEndian

theorem toNat_wordOf (value : ℚ) : ((wordOf value).toNat : ℤ) = truncate value % 2 ^ 16 := by
  have hmask : (0xffff : Int32).toUInt32.toNat = 2 ^ 16 - 1 := rfl
  have hint : ∀ z : ℤ, (Int32.ofInt z).toUInt32.toNat = (z % 2 ^ 32).toNat := by
    intro z
    show (Int32.ofInt z).toBitVec.toNat = _
    rw [Int32.toBitVec_ofInt, BitVec.toNat_ofInt]
    rfl
  rw [wordOf, UInt32.toNat_toUInt16, Int32.toUInt32_and, UInt32.toNat_and, hmask,
    Nat.and_two_pow_sub_one_eq_mod, Nat.mod_mod, hint]
  omega

theorem truncate_intCast (n : ℤ) : truncate n = n := by
  simp [truncate]

/-- What the frames of a sender have in common; `tailSize` bytes follow the words. -/
def FramesWords (typeId : UInt8) (frame : List YcPoint → Option PayloadAsdu) (tailSize : Nat) :
    Prop :=
  ∀ batch, batch ≠ [] → batch.length ≤ 116 → ∃ asdu tail, frame batch = some asdu ∧
    asdu.typeId = typeId ∧ asdu.numberOfElements = batch.length ∧
      asdu.payload = wordPayload batch ++ tail ∧ tail.length = tailSize

theorem wordPayload_cons (first : YcPoint) (rest : List YcPoint) :
    wordPayload (first :: rest) = encode 3 first.ioa.toNat ++
      ((first :: rest).map fun point => (wordOf point.value).toNat).flatMap (encode 2) := by
  rw [wordPayload, foldl_appendWordLe, appendIoaLe_eq, List.map_map]
  rfl

theorem length_wordPayload {batch : List YcPoint} (h : batch ≠ []) :
    (wordPayload batch).length = 3 + batch.length * 2 := by
  cases batch with
  | nil => exact absurd rfl h
  | cons first rest =>
    rw [wordPayload_cons, List.length_append, length_encode, length_flatMap_encode,
      List.length_map]

theorem wordFrame_eq (typeId : UInt8) {count : Nat} {payload : List UInt8}
    (h : payload.length ≤ 250) (hcount : count ≤ 127) :
    (wordFrame typeId count payload).typeId = typeId ∧
      (wordFrame typeId count payload).numberOfElements = count ∧
      (wordFrame typeId count payload).payload = payload := by
  rw [wordFrame, addPayload_create h]
  exact ⟨rfl, Nat.mod_eq_of_lt (Nat.lt_succ_of_le hcount), rfl⟩

/-- A frame with at most seven bytes behind the words. -/
theorem wordFrame_words (typeId : UInt8) {batch : List YcPoint} {tail : List UInt8}
    (hne : batch ≠ []) (hlen : batch.length ≤ 116) (htail : tail.length ≤ 7) :
    (wordFrame typeId batch.length (wordPayload batch ++ tail)).typeId = typeId ∧
      (wordFrame typeId batch.length (wordPayload batch ++ tail)).numberOfElements =
        batch.length ∧
      (wordFrame typeId batch.length (wordPayload batch ++ tail)).payload =
        wordPayload batch ++ tail := by
  refine wordFrame_eq typeId ?_ (Nat.le_trans hlen (by decide))
  rw [List.length_append, length_wordPayload hne]
  omega

theorem framesWords_plain (typeId : UInt8) : FramesWords typeId (fun batch =>
    some (wordFrame typeId batch.length (wordPayload batch))) 0 := by
  intro batch hne hlen
  have htail : ([] : List UInt8).length ≤ 7 := Nat.zero_le 7
  obtain ⟨htype, hcount, hbytes⟩ := wordFrame_words typeId hne hlen htail
  rw [List.append_nil] at htype hcount hbytes
  exact ⟨_, [], rfl, htype, hcount, by rw [hbytes, List.append_nil], rfl⟩

theorem framesWords_dynagram (cp56 : UInt64 → Vector UInt8 7) (clock : UInt32 → UInt64)
    (typeId : UInt8) :
    FramesWords typeId (Answer.sendCustomDynagramFrame cp56 clock typeId) 7 := by
  intro batch hne hlen
  cases batch with
  | nil => exact absurd rfl hne
  | cons first rest =>
    have htake : (first :: rest).take dynagramMaxWordsPerFrame = first :: rest :=
      List.take_of_length_le hlen
    have htail : ∀ time : Vector UInt8 7, time.toList.length = 7 :=
      fun time => Vector.length_toList
    rw [Answer.sendCustomDynagramFrame, htake]
    obtain ⟨htype, hcount, hbytes⟩ := wordFrame_words typeId hne hlen (Nat.le_of_eq (htail _))
    exact ⟨_, _, rfl, htype, hcount, hbytes, htail _⟩

/-! ### One frame -/

/-- The address and the word of a point. -/
def wordEntry (point : YcPoint) : Nat × Nat := (point.ioa.toNat, (wordOf point.value).toNat)

/-- The master reads a frame of consecutive points back as these points. -/
theorem customWordValues_frame {asdu : PayloadAsdu} {batch : List YcPoint} {tail : List UInt8}
    (hioa : ∀ point ∈ batch, point.ioa.toNat < 2 ^ 24)
    (hconsecutive : Consecutive (batch.map YcPoint.ioa)) (hne : batch ≠ [])
    (hcount : asdu.numberOfElements = batch.length)
    (hpayload : asdu.payload = wordPayload batch ++ tail) :
    customWordValues asdu = batch.map wordEntry := by
  cases batch with
  | nil => exact absurd rfl hne
  | cons first rest =>
    have hfirst : first.ioa.toNat % 256 ^ 3 = first.ioa.toNat :=
      Nat.mod_eq_of_lt (hioa first (List.mem_cons_self ..))
    have hwords : (first :: rest).length =
        ((first :: rest).map fun point => (wordOf point.value).toNat).length :=
      (List.length_map _).symm
    have hlen := length_encode 3 first.ioa.toNat
    rw [customWordValues, hpayload, wordPayload_cons, List.append_assoc, List.take_left' hlen,
      List.drop_left' hlen, decode_encode, hfirst, hcount, hwords, decodeRow_encode]
    refine List.ext_getElem? fun k => ?_
    rw [List.getElem?_map, List.getElem?_zipIdx, List.getElem?_map, List.getElem?_map,
      List.getElem?_map]
    cases hpoint : (first :: rest)[k]? with
    | none => rfl
    | some point =>
      have hk := hconsecutive first.ioa k point.ioa rfl (by rw [List.getElem?_map, hpoint]; rfl)
      simp [wordEntry, hk]

/-! ### The batches of an array -/

variable {range : IoaRange} {points : List YcPoint} {maxWords : Nat} {batch : List YcPoint}

theorem inRange_iff {ioa : UInt32} (h : ioa.toNat < 2 ^ 24) :
    ioaInRange range ioa.toInt32 = true ↔
      range.start.toInt ≤ ioa.toNat ∧ ioa.toNat ≤ range.stop.toInt := by
  rw [ioaInRange, Bool.and_eq_true, decide_eq_true_eq, decide_eq_true_eq,
    Int32.le_iff_toInt_le, Int32.le_iff_toInt_le, toInt_toInt32 h]

theorem flatten_wordBatches (maxWords : Nat) (range : IoaRange) (points : List YcPoint) :
    (wordBatches maxWords range points).flatten = points :=
  flatten_batches points

theorem mem_of_batch (h : batch ∈ wordBatches maxWords range points) :
    ∀ point ∈ batch, point ∈ points := by
  intro point hpoint
  have hflat : point ∈ (wordBatches maxWords range points).flatten :=
    List.mem_flatten.mpr ⟨batch, h, hpoint⟩
  rwa [flatten_wordBatches] at hflat

theorem wordFits_iff {first point : YcPoint} {k : Nat} :
    wordFits maxWords range first k point = true ↔
      ioaInRange range first.ioa.toInt32 = true ∧ k < maxWords ∧
        point.ioa.toInt32 ≤ range.stop ∧ point.ioa = first.ioa + UInt32.ofNat k := by
  simp [wordFits, and_assoc]

theorem wordBatch_length (hpos : 0 < maxWords) (hmax : maxWords ≤ 116)
    (h : batch ∈ wordBatches maxWords range points) : batch ≠ [] ∧ batch.length ≤ 116 := by
  obtain ⟨first, hbatch⟩ := isBatch_of_mem batch h
  refine ⟨List.ne_nil_of_length_pos hbatch.pos, Nat.le_trans ?_ hmax⟩
  exact hbatch.length_le hpos fun k point hk => (wordFits_iff.mp hk).2.1

/-- A batch is a point that is passed over, or a run inside the range. -/
theorem wordBatch_cases (hmax : maxWords ≤ 116)
    (hioa : ∀ point ∈ points, point.ioa.toNat < 2 ^ 24)
    (h : batch ∈ wordBatches maxWords range points) :
    (∃ first, batch = [first] ∧ ioaInRange range first.ioa.toInt32 = false) ∨
      Consecutive (batch.map YcPoint.ioa) ∧
        ∀ point ∈ batch, ioaInRange range point.ioa.toInt32 = true := by
  obtain ⟨first, hbatch⟩ := isBatch_of_mem batch h
  have hsmall : ∀ point ∈ batch, point.ioa.toNat < 2 ^ 24 :=
    fun point hpoint => hioa point (mem_of_batch h point hpoint)
  have hfirst : first ∈ batch := List.mem_of_getElem? hbatch.head
  cases hin : ioaInRange range first.ioa.toInt32 with
  | false =>
    have hlen : batch.length ≤ 1 := by
      refine hbatch.length_le Nat.one_pos fun k point hk => ?_
      rw [wordFits_iff, hin] at hk
      cases hk.1
    obtain ⟨x, rfl⟩ := List.length_eq_one_iff.mp (Nat.le_antisymm hlen hbatch.pos)
    obtain rfl := List.mem_singleton.mp hfirst
    exact .inl ⟨_, rfl, hin⟩
  | true =>
    have hconsecutive : Consecutive (batch.map YcPoint.ioa) := by
      refine consecutive_of_isBatch hbatch (hsmall first hfirst) fun k point hk => ?_
      obtain ⟨_, hlt, _, heq⟩ := wordFits_iff.mp hk
      exact ⟨Nat.le_trans (Nat.le_of_lt hlt) (Nat.le_trans hmax (by decide)), heq⟩
    have hrange := (inRange_iff (hsmall first hfirst)).mp hin
    have hstop : ∀ point ∈ batch, point.ioa.toInt32 ≤ range.stop := by
      refine hbatch.forall_mem ?_ fun k point hk => (wordFits_iff.mp hk).2.2.1
      rw [Int32.le_iff_toInt_le, toInt_toInt32 (hsmall first hfirst)]
      exact hrange.2
    refine .inr ⟨hconsecutive, fun point hpoint => ?_⟩
    -- the addresses grow from the first one, and none is past the end of the range
    obtain ⟨k, hk⟩ := List.mem_iff_getElem?.mp hpoint
    have hup := hconsecutive first.ioa k point.ioa
      (by rw [List.getElem?_map, hbatch.head]; rfl) (by rw [List.getElem?_map, hk]; rfl)
    have hlast := hstop point hpoint
    rw [Int32.le_iff_toInt_le, toInt_toInt32 (hsmall point hpoint)] at hlast
    refine (inRange_iff (hsmall point hpoint)).mpr ⟨Int.le_trans hrange.1 ?_, hlast⟩
    rw [hup]
    exact Int.ofNat_le.mpr (Nat.le_add_right _ _)

/-! ### Whole answers -/

variable {typeId : UInt8} {frame : List YcPoint → Option PayloadAsdu} {tailSize : Nat}
  {outcome : Nat → FrameOutcome}

/-- The count of a frame is the number of its words. -/
theorem wordRange_frame (hframe : FramesWords typeId frame tailSize) (hpos : 0 < maxWords)
    (hmax : maxWords ≤ 116) {sent : Sent (List YcPoint) PayloadAsdu}
    (hsent : sent ∈ sendWordRange frame maxWords range outcome points) {asdu : PayloadAsdu}
    (hasdu : sent.frame = some asdu) : asdu.typeId = typeId ∧ asdu.numberOfElements ≤ 116 ∧
      asdu.payload.length = 3 + asdu.numberOfElements * 2 + tailSize := by
  obtain ⟨hitem, _, hsend⟩ := item_mem hsent
  obtain ⟨hne, hlen⟩ := wordBatch_length hpos hmax hitem
  obtain ⟨asdu', tail, hbuilt, htype, hcount, hpayload, htail⟩ := hframe _ hne hlen
  rw [hasdu, hbuilt] at hsend
  split at hsend
  · cases hsend
    rw [hpayload, hcount, List.length_append, length_wordPayload hne, htail]
    exact ⟨htype, hlen, rfl⟩
  · cases hsend

/-- What the frame of an iteration says: the points of its batch that lie in the range. -/
theorem batch_values (hframe : FramesWords typeId frame tailSize) (hpos : 0 < maxWords)
    (hmax : maxWords ≤ 116) (hioa : ∀ point ∈ points, point.ioa.toNat < 2 ^ 24)
    (h : batch ∈ wordBatches maxWords range points) :
    ((if batch.head?.any fun point => ioaInRange range point.ioa.toInt32 then frame batch
      else none).toList.flatMap customWordValues) =
      (batch.filter fun point => ioaInRange range point.ioa.toInt32).map wordEntry := by
  rcases wordBatch_cases hmax hioa h with ⟨first, rfl, hout⟩ | ⟨hcons, hin⟩
  · simp [hout]
  · obtain ⟨hne, hlen⟩ := wordBatch_length hpos hmax h
    have hhead : (batch.head?.any fun point => ioaInRange range point.ioa.toInt32) = true := by
      cases batch with
      | nil => exact absurd rfl hne
      | cons first rest => exact hin first (List.mem_cons_self ..)
    obtain ⟨asdu, tail, hasdu, _, hcount, hpayload, _⟩ := hframe batch hne hlen
    rw [if_pos hhead, hasdu, List.filter_eq_self.mpr hin, Option.toList_some,
      List.flatMap_singleton]
    exact customWordValues_frame (fun point hpoint => hioa point (mem_of_batch h point hpoint))
      hcons hne hcount hpayload

theorem carried_wordRange (hframe : FramesWords typeId frame tailSize) (hpos : 0 < maxWords)
    (hmax : maxWords ≤ 116) (hioa : ∀ point ∈ points, point.ioa.toNat < 2 ^ 24)
    (hactive : StaysActive outcome) :
    carried customWordValues (sendWordRange frame maxWords range outcome points) =
      (points.filter fun point => ioaInRange range point.ioa.toInt32).map wordEntry := by
  rw [sendWordRange, carried_of_staysActive hactive,
    List.flatMap_congr fun batch hbatch => batch_values hframe hpos hmax hioa hbatch]
  conv_rhs =>
    rw [← flatten_wordBatches maxWords range points, List.filter_flatten, List.map_flatten,
      List.map_map]
  rfl

theorem decodesTo_wordRange (hframe : FramesWords typeId frame tailSize) (htail : tailSize ≤ 7)
    (hpos : 0 < maxWords) (hmax : maxWords ≤ 116)
    (hioa : ∀ point ∈ points, point.ioa.toNat < 2 ^ 24)
    (hdistinct : (points.map YcPoint.ioa).Nodup)
    (hint : ∀ point ∈ points, ∃ n : ℤ, point.value = n ∧ -2 ^ 31 ≤ n ∧ n < 2 ^ 31)
    (hactive : StaysActive outcome) :
    DecodesTo points range (sendWordRange frame maxWords range outcome points) where
  values := by
    intro ioa word
    rw [carried_wordRange hframe hpos hmax hioa hactive, List.mem_map]
    constructor
    · intro h
      obtain ⟨point, hpoint, heq⟩ := h
      obtain ⟨hmem, hin⟩ := List.mem_filter.mp hpoint
      obtain ⟨hstart, hstop⟩ := (inRange_iff (hioa point hmem)).mp hin
      obtain ⟨n, hn, _⟩ := hint point hmem
      cases heq
      refine ⟨point, hmem, hstart, hstop, rfl, n, hn, ?_⟩
      rw [toNat_wordOf, hn, truncate_intCast]
    · intro h
      obtain ⟨point, hmem, hstart, hstop, rfl, n, hn, hword⟩ := h
      refine ⟨point, List.mem_filter.mpr ⟨hmem, ?_⟩, Prod.ext rfl (Int.ofNat_inj.mp ?_)⟩
      · exact (inRange_iff (hioa point hmem)).mpr ⟨hstart, hstop⟩
      · rw [hword, ← truncate_intCast n, ← hn]
        exact toNat_wordOf point.value
  once := by
    rw [carried_wordRange hframe hpos hmax hioa hactive, List.map_map]
    have hnat : (points.map fun point => point.ioa.toNat).Nodup := by
      rw [show (fun point : YcPoint => point.ioa.toNat) = UInt32.toNat ∘ YcPoint.ioa from rfl,
        ← List.map_map]
      exact hdistinct.map fun _ _ => UInt32.toNat_inj.mp
    exact hnat.sublist (List.filter_sublist.map _)
  fits := by
    intro sent hsent asdu hasdu
    obtain ⟨_, hcount, hpayload⟩ := wordRange_frame hframe hpos hmax hsent hasdu
    refine ⟨?_, Nat.le_trans hcount (by decide)⟩
    show _ ≤ 243
    omega

end CustomWordsLemmas

open CustomWordsLemmas

/-- The frames of the four range senders are read back as the points of the array that lie in
the range, each once, and fit into an ASDU. The client stays active in the loop: one that becomes
inactive gets the frames up to that iteration. -/
theorem custom_words_decode {points : List YcPoint}
    (hioa : ∀ point ∈ points, point.ioa.toNat < 2 ^ 24)
    (hdistinct : (points.map YcPoint.ioa).Nodup)
    (hint : ∀ point ∈ points, ∃ n : ℤ, point.value = n ∧ -2 ^ 31 ≤ n ∧ n < 2 ^ 31)
    (typeId : UInt8) (range : IoaRange) {outcome : Nat → FrameOutcome}
    (hactive : StaysActive outcome) (cp56 : UInt64 → Vector UInt8 7) (clock : UInt32 → UInt64)
    (snapshot : PointTable) :
    DecodesTo points range (Answer.sendCustomYcWordPoints typeId points range outcome) ∧
    (snapshot.ycCustom = points → DecodesTo points range
      (Answer.sendCustomDynagramRange cp56 clock typeId snapshot range outcome)) ∧
    (snapshot.ycRtu = points → DecodesTo points rtuParamRange
      (Answer.sendCustomRtuParam typeId ⟨snapshot, true⟩ outcome)) ∧
    (snapshot.ycSensorConf = points → DecodesTo points sensorParamRange
      (Answer.sendCustomSensorParam typeId ⟨snapshot, true⟩ outcome)) := by
  refine ⟨?_, fun h => ?_, fun h => ?_, fun h => ?_⟩
  · exact decodesTo_wordRange (framesWords_plain typeId) (by decide) (by decide) (by decide) hioa
      hdistinct hint hactive
  · subst h
    exact decodesTo_wordRange (framesWords_dynagram cp56 clock typeId) (by decide) (by decide)
      (by decide) hioa hdistinct hint hactive
  · subst h
    exact decodesTo_wordRange (framesWords_plain typeId) (by decide) (by decide) (by decide) hioa
      hdistinct hint hactive
  · subst h
    exact decodesTo_wordRange (framesWords_plain typeId) (by decide) (by decide) (by decide) hioa
      hdistinct hint hactive

/-- Two consecutive points, and one below them that comes last. -/
def wordPoints : List YcPoint :=
  [initYcPoint 0x5002 (-1) .scaled false, initYcPoint 0x5003 70000 .scaled false,
    initYcPoint 0x5001 7 .scaled false]

theorem word_points_decode :
    DecodesTo wordPoints meterTruckRange
      (Answer.sendCustomYcWordPoints customTypeMeterTruckCall wordPoints meterTruckRange
        fun _ => ⟨true, true⟩) ∧
    DecodesTo wordPoints dynagramRange
      (Answer.sendCustomDynagramRange (fun _ => Vector.replicate 7 0) (fun _ => 0)
        customTypeDynagramCall { pointTableInitDemo with ycCustom := wordPoints } dynagramRange
        fun _ => ⟨true, true⟩) := by
  have hioa : ∀ point ∈ wordPoints, point.ioa.toNat < 2 ^ 24 := by
    simp [wordPoints, initYcPoint]
  have hdistinct : (wordPoints.map YcPoint.ioa).Nodup := by
    simp [wordPoints, initYcPoint]
  have hint : ∀ point ∈ wordPoints, ∃ n : ℤ, point.value = n ∧ -2 ^ 31 ≤ n ∧ n < 2 ^ 31 := by
    intro point hpoint
    simp only [wordPoints, List.mem_cons, List.not_mem_nil, or_false] at hpoint
    rcases hpoint with rfl | rfl | rfl
    · exact ⟨-1, by simp [initYcPoint], by decide, by decide⟩
    · exact ⟨70000, by simp [initYcPoint], by decide, by decide⟩
    · exact ⟨7, by simp [initYcPoint], by decide, by decide⟩
  have hactive : StaysActive fun _ => ⟨true, true⟩ := fun _ => rfl
  exact ⟨(custom_words_decode hioa hdistinct hint _ _ hactive (fun _ => Vector.replicate 7 0)
      (fun _ => 0) pointTableInitDemo).1,
    (custom_words_decode hioa hdistinct hint _ _ hactive _ _ _).2.1 rfl⟩

end Iec104Slave
