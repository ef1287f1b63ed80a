import Iec104Slave.Interrogation

/-!
# The two encodings of a scaled value

A total call sends a YC point of type SCALED as an object of the library, whose
`setScaledValue` adds 65536 to a negative value and splits the sum with the `%` and `/` of C.
The word calls mask the value to 16 bits. For the values from -32768 to 32767 that the library
documents the two are the same, and so they are for all values from -65536 on. Below that the
sum is still negative: the division rounds up, and the high byte is one too large unless the
low byte is 0.

Results:
1. `setScaledValue_eq_iff`: for which values the library encodes the low 16 bits.
2. `scaled_calls_agree_iff`: for which values a frame of a total call and a frame of a word call
   carry the same two bytes for a point.
-/

namespace Iec104Slave

open Batch

/-! ## The library (`cs101_information_objects.c`) -/

/-- `setScaledValue`. In C `%` and `/` round towards zero, and the casts keep the low byte. -/
def setScaledValue (value : ℤ) : List UInt8 :=
  let valueToEncode := if value < 0 then value + 65536 else value
  [UInt8.ofInt (valueToEncode.tmod 256), UInt8.ofInt (valueToEncode.tdiv 256)]

/-- `MeasuredValueScaled_encode` behind the address. Objects of the other types are encoded
elsewhere. -/
def measuredValueScaledEncode (io : InformationObject) : List UInt8 :=
  match io.element with
  | .scaled value quality => setScaledValue value ++ [quality]
  | _ => []

/-- The payload of a sequence of scaled values: the address of the first one, then the
objects. -/
def scaledPayload (asdu : Asdu) : List UInt8 :=
  match asdu.elements with
  | [] => []
  | first :: _ =>
    appendIoaLe [] first.ioa.toUInt32 ++ asdu.elements.flatMap measuredValueScaledEncode

/-- The value bytes of object `k` of a sequence of scaled values. -/
def scaledBytes (asdu : Asdu) (k : Nat) : List UInt8 :=
  ((scaledPayload asdu).drop (3 + k * 3)).take 2

/-- The bytes of word `k` of a frame of a word call. -/
def wordBytes (asdu : PayloadAsdu) (k : Nat) : List UInt8 :=
  (asdu.payload.drop (3 + k * 2)).take 2

namespace ScaledValueLemmas

open AsduBuilderLemmas CustomAsduLemmas CustomWordsLemmas FrameLoopLemmas LittleEndian

/-! ## One value -/

theorem toNat_ofInt (z : ℤ) : (UInt8.ofInt z).toNat = (z % 256).toNat := by
  have hlt : (z % 256).toNat < 256 := by omega
  show (UInt8.ofNat (z % 2 ^ 8).toNat).toNat = _
  rw [UInt8.toNat_ofNat']
  exact Nat.mod_eq_of_lt hlt

theorem ofInt_eq_ofNat_iff (z : ℤ) (n : Nat) :
    UInt8.ofInt z = UInt8.ofNat n ↔ z % 256 = n % 256 := by
  rw [← UInt8.toNat_inj, toNat_ofInt, UInt8.toNat_ofNat']
  omega

/-- The remainder of C has the low byte of the number. -/
theorem tmod_low_byte (z : ℤ) : z.tmod 256 % 256 = z % 256 := by
  rw [Int.tmod_eq_emod]
  split <;> omega

/-- The quotient of C has the next byte, unless it has been rounded up. -/
theorem tdiv_high_byte_iff (z : ℤ) :
    z.tdiv 256 % 256 = z / 256 % 256 ↔ 0 ≤ z ∨ 256 ∣ z := by
  rw [Int.tdiv_eq_ediv]
  split
  · next hexact =>
    rw [Int.add_zero]
    exact iff_of_true rfl hexact
  · next hround =>
    refine iff_of_false ?_ hround
    rw [show Int.sign 256 = 1 from rfl]
    omega

theorem encode_two (value : ℤ) : ∃ w : Nat, (w : ℤ) = value % 2 ^ 16 ∧
    encode 2 (value % 2 ^ 16).toNat = [UInt8.ofNat w, UInt8.ofNat (w / 256)] := by
  refine ⟨(value % 2 ^ 16).toNat, ?_, rfl⟩
  omega

/-- The library encodes the low 16 bits of the value exactly for these values. -/
theorem setScaledValue_eq_iff (value : ℤ) :
    setScaledValue value = encode 2 (value % 2 ^ 16).toNat ↔ -65536 ≤ value ∨ 256 ∣ value := by
  obtain ⟨w, hw, hencode⟩ := encode_two value
  -- adding 65536 changes neither of the two bytes
  have hlow : ∀ z : ℤ, z = value ∨ z = value + 65536 → z % 256 = w % 256 := by omega
  have hhigh : ∀ z : ℤ, z = value ∨ z = value + 65536 → z / 256 % 256 = (w / 256 : Nat) % 256 := by
    omega
  rw [hencode]
  unfold setScaledValue
  simp only [List.cons.injEq, and_true, ofInt_eq_ofNat_iff]
  split
  · have hz : value + 65536 = value ∨ value + 65536 = value + 65536 := .inr rfl
    rw [tmod_low_byte, hlow _ hz, ← hhigh _ hz, tdiv_high_byte_iff]
    omega
  · rw [tmod_low_byte, hlow _ (.inl rfl), ← hhigh _ (.inl rfl), tdiv_high_byte_iff]
    omega

/-! ## Frames -/

variable {point : YcPoint}

theorem ycObject_scaled (h : point.iecType = .scaled) :
    measuredValueScaledEncode (ycObject point) =
      setScaledValue (truncate point.value) ++ [point.quality] := by
  simp only [measuredValueScaledEncode, ycObject, ycElement, h]

/-- The value bytes of point `k` of a frame of scaled points. -/
theorem scaledBytes_eq {asdu : Asdu} {batch : List YcPoint} {k : Nat}
    (helements : asdu.elements = batch.map ycObject)
    (hscaled : ∀ p ∈ batch, p.iecType = .scaled) (hpoint : batch[k]? = some point) :
    scaledBytes asdu k = setScaledValue (truncate point.value) := by
  have hmem : point ∈ batch := List.mem_of_getElem? hpoint
  have hwidth : ∀ io ∈ batch.map ycObject, (measuredValueScaledEncode io).length = 3 := by
    intro io hio
    obtain ⟨p, hp, rfl⟩ := List.mem_map.mp hio
    rw [ycObject_scaled (hscaled p hp)]
    rfl
  have hobject : (batch.map ycObject)[k]? = some (ycObject point) := by
    rw [List.getElem?_map, hpoint]
    rfl
  obtain ⟨rest, hrest⟩ := drop_pieces hwidth hobject
  cases hfirst : batch.map ycObject with
  | nil => rw [hfirst] at hobject; cases hobject
  | cons first others =>
    rw [hfirst] at hrest helements
    have hlen : (appendIoaLe [] first.ioa.toUInt32).length = 3 := rfl
    rw [scaledBytes, scaledPayload, helements]
    dsimp only
    rw [← List.drop_drop, List.drop_left' hlen, hrest, ycObject_scaled (hscaled point hmem)]
    rfl

/-- The bytes of point `k` of a frame of words. -/
theorem wordBytes_eq {asdu : PayloadAsdu} {batch : List YcPoint} {k : Nat}
    (hpayload : asdu.payload = wordPayload batch) (hpoint : batch[k]? = some point) :
    wordBytes asdu k = encode 2 (truncate point.value % 2 ^ 16).toNat := by
  have hword : (wordOf point.value).toNat = (truncate point.value % 2 ^ 16).toNat := by
    rw [← toNat_wordOf, Int.toNat_natCast]
  cases hbatch : batch with
  | nil => rw [hbatch] at hpoint; cases hpoint
  | cons first others =>
    have hentry : (batch.map fun p => (wordOf p.value).toNat)[k]? =
        some (wordOf point.value).toNat := by
      rw [List.getElem?_map, hpoint]
      rfl
    obtain ⟨rest, hrest⟩ := drop_pieces (fun n _ => length_encode 2 n) hentry
    have hlen : (encode 3 first.ioa.toNat).length = 3 := length_encode 3 _
    rw [hbatch] at hrest
    rw [wordBytes, hpayload, hbatch, wordPayload_cons, ← List.drop_drop, List.drop_left' hlen,
      hrest, hword]
    rfl

/-- The points of a batch of a total call have one type. -/
theorem giYc_sameType {yc batch : List YcPoint} (h : batch ∈ giYcBatches yc) {p q : YcPoint}
    (hp : p ∈ batch) (hq : q ∈ batch) : p.iecType = q.iecType := by
  obtain ⟨first, hbatch⟩ := isBatch_of_mem batch h
  have hfirst : ∀ r ∈ batch, r.iecType = first.iecType := by
    refine hbatch.forall_mem rfl fun k r hr => ?_
    simp only [giYcFits, Bool.and_eq_true, beq_iff_eq] at hr
    exact hr.1.2
  rw [hfirst p hp, hfirst q hq]

theorem totalCall_bytes {yc : List YcPoint} {outcome : Nat → FrameOutcome}
    {sent : Sent (List YcPoint) Asdu} (hsent : sent ∈ Answer.sendYcLoop outcome yc) {asdu : Asdu}
    (hasdu : sent.frame = some asdu) {k : Nat} (hpoint : sent.item[k]? = some point)
    (hscaled : point.iecType = .scaled) :
    scaledBytes asdu k = setScaledValue (truncate point.value) := by
  obtain ⟨hitem, accepts, hframe⟩ := item_mem hsent
  rw [hasdu] at hframe
  refine scaledBytes_eq (elements_of_sendObjects hframe.symm) (fun p hp => ?_) hpoint
  rw [giYc_sameType hitem hp (List.mem_of_getElem? hpoint), hscaled]

theorem wordCall_bytes {typeId : UInt8} {points : List YcPoint} {range : IoaRange}
    {outcome : Nat → FrameOutcome} {sent : Sent (List YcPoint) PayloadAsdu}
    (hsent : sent ∈ Answer.sendCustomYcWordPoints typeId points range outcome)
    {asdu : PayloadAsdu} (hasdu : sent.frame = some asdu) {k : Nat}
    (hpoint : sent.item[k]? = some point) :
    wordBytes asdu k = encode 2 (truncate point.value % 2 ^ 16).toNat := by
  obtain ⟨hitem, _, hframe⟩ := item_mem hsent
  obtain ⟨hne, hlen⟩ := wordBatch_length (by decide) (by decide) hitem
  obtain ⟨asdu', tail, hbuilt, _, _, hpayload, htail⟩ := framesWords_plain typeId _ hne hlen
  rw [hasdu] at hframe
  split at hframe
  · cases hbuilt.symm.trans hframe.symm
    rw [List.length_eq_zero_iff.mp htail, List.append_nil] at hpayload
    exact wordBytes_eq hpayload hpoint
  · cases hframe

end ScaledValueLemmas

open ScaledValueLemmas CustomWordsLemmas

/-- A point of type SCALED with the integral value `n` is in a frame of a total call and in a
frame of a word call. The two carry the same value bytes for it iff `n` is at least -65536 or a
multiple of 256. -/
theorem scaled_calls_agree_iff {point : YcPoint} {n : Int32} (hscaled : point.iecType = .scaled)
    (hvalue : point.value = n.toInt) {yc : List YcPoint} {outcome : Nat → FrameOutcome}
    {total : Sent (List YcPoint) Asdu} (htotal : total ∈ Answer.sendYcLoop outcome yc)
    {asdu : Asdu} (hasdu : total.frame = some asdu) {i : Nat}
    (hi : total.item[i]? = some point) {typeId : UInt8} {points : List YcPoint}
    {range : IoaRange} {outcome' : Nat → FrameOutcome} {words : Sent (List YcPoint) PayloadAsdu}
    (hwords : words ∈ Answer.sendCustomYcWordPoints typeId points range outcome')
    {asdu' : PayloadAsdu} (hasdu' : words.frame = some asdu') {j : Nat}
    (hj : words.item[j]? = some point) :
    scaledBytes asdu i = wordBytes asdu' j ↔ -65536 ≤ n.toInt ∨ 256 ∣ n.toInt := by
  rw [totalCall_bytes htotal hasdu hi hscaled, wordCall_bytes hwords hasdu' hj, hvalue,
    truncate_intCast]
  exact setScaledValue_eq_iff n.toInt

/-- A point of the reserved sensor range. -/
def scaledSensor (value : ℤ) : YcPoint where
  ioa := 0x4200
  iecType := .scaled
  value := value
  quality := 0
  deadband := 0
  lastSentValue := 0
  enableSpontaneous := false
  enablePeriodic := false
  timestampMs := 0

/-- The frames of a total call and of the reserved sensor call over one point. -/
def sensorTotal (value : ℤ) : List (Sent (List YcPoint) Asdu) :=
  Answer.sendYcLoop (fun _ => ⟨true, true⟩) [scaledSensor value]

def sensorWords (value : ℤ) : List (Sent (List YcPoint) PayloadAsdu) :=
  Answer.sendCustomYcWordPoints customTypeReservedSensorCall [scaledSensor value]
    reservedSensorRange fun _ => ⟨true, true⟩

theorem sensor_frames (value : ℤ) : ∃ asdu asdu',
    ⟨[scaledSensor value], some asdu⟩ ∈ sensorTotal value ∧
    ⟨[scaledSensor value], some asdu'⟩ ∈ sensorWords value :=
  ⟨_, _, List.mem_singleton.mpr rfl, List.mem_singleton.mpr rfl⟩

/-- The value -300 goes out alike. -/
theorem scaled_calls_agree_sensor : ∃ asdu asdu',
    ⟨[scaledSensor (-300)], some asdu⟩ ∈ sensorTotal (-300) ∧
    ⟨[scaledSensor (-300)], some asdu'⟩ ∈ sensorWords (-300) ∧
    scaledBytes asdu 0 = wordBytes asdu' 0 := by
  obtain ⟨asdu, asdu', htotal, hwords⟩ := sensor_frames (-300)
  have hvalue : (scaledSensor (-300)).value = (-300 : Int32).toInt := rfl
  have hpoint : [scaledSensor (-300)][0]? = some (scaledSensor (-300)) := rfl
  refine ⟨asdu, asdu', htotal, hwords, ?_⟩
  exact (scaled_calls_agree_iff rfl hvalue htotal rfl hpoint hwords rfl hpoint).mpr
    (.inl (by decide))

/-- The value -65537 goes out as `ff 00` in a total call and as `ff ff` in the word call. -/
theorem scaled_calls_differ : ∃ asdu asdu',
    ⟨[scaledSensor (-65537)], some asdu⟩ ∈ sensorTotal (-65537) ∧
    ⟨[scaledSensor (-65537)], some asdu'⟩ ∈ sensorWords (-65537) ∧
    scaledBytes asdu 0 = [0xff, 0x00] ∧ wordBytes asdu' 0 = [0xff, 0xff] := by
  obtain ⟨asdu, asdu', htotal, hwords⟩ := sensor_frames (-65537)
  have hpoint : [scaledSensor (-65537)][0]? = some (scaledSensor (-65537)) := rfl
  refine ⟨asdu, asdu', htotal, hwords, ?_, ?_⟩
  · rw [totalCall_bytes htotal rfl hpoint rfl]
    decide +kernel
  · rw [wordCall_bytes hwords rfl hpoint]
    decide +kernel

end Iec104Slave
