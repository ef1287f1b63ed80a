import Iec104Slave.AsduBuilder
import Iec104Slave.SoeHistory
import Iec104Slave.Lib.LittleEndian

/-!
# ASDUs of the private services (`custom_asdu.c`)

The private services fill most ASDUs by hand: they set the type and the element count of the
header and add a block of bytes that starts with the address. Rows of the history
tables go out as ordinary information objects.

The originator and the common address are copied from the request and the configuration and
are left out.
-/

namespace Iec104Slave

/-! ## Type identifiers (`custom_asdu.h`) -/

def customTypeMeasureTotalCall : UInt8 := 0x88
def customTypeDynagramCall : UInt8 := 0x89
def customTypeElecDynagramCall : UInt8 := 0x8A
def customTypeHistoryCall : UInt8 := 0x8B
def customTypeRtuParamCall : UInt8 := 0x8C
def customTypeSensorParamCall : UInt8 := 0x8D
def customTypeHarmonicCall : UInt8 := 0x8E
def customTypeMeterTruckCall : UInt8 := 0x8F
def customTypeInjectionCall : UInt8 := 0x90
def customTypeAllDynagramCall : UInt8 := 0x91
def customTypeActivePowerCall : UInt8 := 0x92
def customTypeWellheadPressureCall : UInt8 := 0x93
def customTypeHistorySoeCall : UInt8 := 0x94
def customTypeReservedSensorCall : UInt8 := 0x95

def customTypeHistoryYc : UInt8 := 0x4D
def customTypeHistoryYx : UInt8 := 0x4F
def customTypeHistoryDd : UInt8 := 0x5C
def customTypeHistoryDynagram : UInt8 := 0x5F

def customAsduIsCallType (type : UInt8) : Bool :=
  decide (customTypeMeasureTotalCall ≤ type) && decide (type ≤ customTypeReservedSensorCall)

def customAsduIsHistoryReturnType (type : UInt8) : Bool :=
  type == customTypeHistoryYc || type == customTypeHistoryYx ||
    type == customTypeHistoryDd || type == customTypeHistoryDynagram

def customAsduIsHistoryCallType (type : UInt8) : Bool :=
  type == customTypeHistoryCall || type == customTypeHistorySoeCall

/-! ## ASDUs filled with bytes -/

/-- A `CS101_ASDU` that is filled with `CS101_ASDU_addPayload`. `numberOfElements` is the count
in the qualifier. -/
structure PayloadAsdu where
  isSequence : Bool
  cot : CauseOfTransmission
  negative : Bool
  typeId : UInt8
  numberOfElements : Nat
  payload : List UInt8
deriving DecidableEq

/-- `CS101_ASDU_create`. -/
def PayloadAsdu.create (isSequence : Bool) (cot : CauseOfTransmission) (negative : Bool) :
    PayloadAsdu :=
  { isSequence := isSequence, cot := cot, negative := negative, typeId := 0
    numberOfElements := 0, payload := [] }

def PayloadAsdu.setTypeId (asdu : PayloadAsdu) (typeId : UInt8) : PayloadAsdu :=
  { asdu with typeId := typeId }

/-- `CS101_ASDU_setNumberOfElements`: the count has seven bits. -/
def PayloadAsdu.setNumberOfElements (asdu : PayloadAsdu) (count : Nat) : PayloadAsdu :=
  { asdu with numberOfElements := count % 128 }

/-- `CS101_ASDU_addPayload`. It checks against the size of the buffer of the ASDU, which is
larger than what the protocol allows. -/
def PayloadAsdu.addPayload (asdu : PayloadAsdu) (bytes : List UInt8) : PayloadAsdu :=
  if asdu.payload.length + asduHeaderLength + bytes.length ≤ 256 then
    { asdu with payload := asdu.payload ++ bytes }
  else asdu

/-! ## Buffers -/

def appendIoaLe (buffer : List UInt8) (ioa : UInt32) : List UInt8 :=
  buffer ++ [(ioa &&& 0xff).toUInt8, ((ioa >>> 8) &&& 0xff).toUInt8,
    ((ioa >>> 16) &&& 0xff).toUInt8]

def appendWordLe (buffer : List UInt8) (value : UInt16) : List UInt8 :=
  buffer ++ [(value &&& 0xff).toUInt8, ((value >>> 8) &&& 0xff).toUInt8]

/-- `append_cp56_time`. `cp56` is `CP56Time2a_setFromMsTimestamp`, `nowMs` the clock. -/
def appendCp56Time (cp56 : UInt64 → Vector UInt8 7) (nowMs : UInt64) (buffer : List UInt8)
    (timestampMs : UInt64) : List UInt8 :=
  buffer ++ (cp56 (if timestampMs = 0 then nowMs else timestampMs)).toList

/-! ## The senders -/

/-- The ASDU of `custom_asdu_send_private`. The payload is cut to the rest of `data[230]`. -/
def customAsduSendPrivate (type : UInt8) (cot : CauseOfTransmission) (ioa : UInt32)
    (payload : List UInt8) (negative : Bool) : PayloadAsdu :=
  let data := appendIoaLe [] ioa
  ((PayloadAsdu.create false cot negative).setTypeId type).addPayload
    (data ++ payload.take (230 - data.length))

def customAsduSendAck (requestType : UInt8) (ioa : UInt32) : PayloadAsdu :=
  customAsduSendPrivate requestType .activationCon ioa [0x45] false

def customAsduSendFinish (requestType : UInt8) (ioa : UInt32) : PayloadAsdu :=
  customAsduSendPrivate requestType .activationTermination ioa [0x45] false

/-- The ASDU of a history row: the type is set first, and the object is added after that. The
source does not look at the result of `CS101_ASDU_addInformationObject`. -/
def customAsduSendHistory (type : UInt8) (io : InformationObject) : Asdu :=
  let asdu := { Asdu.create false .interrogatedByStation with typeId := type }
  (asdu.addInformationObject io).getD asdu

def customAsduSendHistoryYc (point : YcPoint) : Asdu :=
  customAsduSendHistory customTypeHistoryYc (ycTimeObject point)

def customAsduSendHistoryYx (record : SoeRecord) : Asdu :=
  customAsduSendHistory customTypeHistoryYx
    ⟨record.ioa, .singlePoint record.value record.quality, some record.timestampMs⟩

def customAsduSendHistoryDd (point : DdPoint) : Asdu :=
  customAsduSendHistory customTypeHistoryDd (ddObject true point)

namespace CustomAsduLemmas

open LittleEndian

theorem toUInt8_and_ff (x : UInt32) : (x &&& 0xff).toUInt8 = UInt8.ofNat x.toNat := by
  have hmask : (0xff : UInt32).toNat = 2 ^ 8 - 1 := rfl
  apply UInt8.toNat_inj.mp
  rw [UInt32.toNat_toUInt8, UInt32.toNat_and, UInt8.toNat_ofNat', hmask,
    Nat.and_two_pow_sub_one_eq_mod, Nat.mod_mod]

/-- The address goes out as three bytes, the lowest first. -/
theorem appendIoaLe_eq (buffer : List UInt8) (ioa : UInt32) :
    appendIoaLe buffer ioa = buffer ++ encode 3 ioa.toNat := by
  have h8 : (ioa >>> 8).toNat = ioa.toNat / 256 := by
    rw [UInt32.toNat_shiftRight, Nat.shiftRight_eq_div_pow]
    rfl
  have h16 : (ioa >>> 16).toNat = ioa.toNat / 256 / 256 := by
    rw [UInt32.toNat_shiftRight, Nat.shiftRight_eq_div_pow, Nat.div_div_eq_div_mul]
    rfl
  rw [appendIoaLe, toUInt8_and_ff, toUInt8_and_ff, toUInt8_and_ff, h8, h16]
  rfl

theorem appendWordLe_eq (buffer : List UInt8) (value : UInt16) :
    appendWordLe buffer value = buffer ++ encode 2 value.toNat := by
  have hmask : (0xff : UInt16).toNat = 2 ^ 8 - 1 := rfl
  have hbyte : ∀ x : UInt16, (x &&& 0xff).toUInt8 = UInt8.ofNat x.toNat := by
    intro x
    apply UInt8.toNat_inj.mp
    rw [UInt16.toNat_toUInt8, UInt16.toNat_and, UInt8.toNat_ofNat', hmask,
      Nat.and_two_pow_sub_one_eq_mod, Nat.mod_mod]
  have h8 : (value >>> 8).toNat = value.toNat / 256 := by
    rw [UInt16.toNat_shiftRight, Nat.shiftRight_eq_div_pow]
    rfl
  rw [appendWordLe, hbyte, hbyte, h8]
  rfl

theorem foldl_appendWordLe (buffer : List UInt8) (words : List UInt16) :
    words.foldl appendWordLe buffer =
      buffer ++ (words.map UInt16.toNat).flatMap (encode 2) := by
  induction words generalizing buffer with
  | nil => exact (List.append_nil _).symm
  | cons word words ih =>
    rw [List.foldl_cons, ih, appendWordLe_eq, List.map_cons, List.flatMap_cons,
      List.append_assoc]

theorem addPayload_create {isSequence negative : Bool} {cot : CauseOfTransmission}
    {bytes : List UInt8} {typeId : UInt8} {count : Nat} (h : bytes.length ≤ 250) :
    (((PayloadAsdu.create isSequence cot negative).setTypeId typeId).setNumberOfElements
      count).addPayload bytes =
      { isSequence := isSequence, cot := cot, negative := negative, typeId := typeId
        numberOfElements := count % 128, payload := bytes } := by
  refine if_pos ?_
  show 0 + 6 + bytes.length ≤ 256
  omega

end CustomAsduLemmas

end Iec104Slave
