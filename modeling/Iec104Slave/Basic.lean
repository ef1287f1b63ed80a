import Mathlib.Algebra.Order.Field.Rat

/-!
# Protocol types and work messages

The parts of IEC 60870-5-101/104 that the slave names, and the work message
(`Iec104WorkMsg`) that the connection threads hand to the worker of a client.

Fixed-width C integers are Lean's fixed-width integers. A C `float` is an exact
rational. This leaves out the rounding of differences, which can decide whether a
measured value has left its deadband, and the values that are not finite. An order
comparison with a NaN is false, so a NaN stays within every deadband, and as a
setpoint it is within the limits of its point. Fields that nothing reads
(`payload`, `payload_len`, `ca`, the `has_*` flags) are left out.
-/

namespace Iec104Slave

/-- `CS101_CauseOfTransmission`, with the causes the slave names. -/
inductive CauseOfTransmission
  | periodic
  | spontaneous
  | request
  | activation
  | activationCon
  | deactivation
  | activationTermination
  | interrogatedByStation
  | unknownTypeId
  | unknownCot
  | unknownCa
  | unknownIoa
  | other (code : UInt8)
deriving DecidableEq, Repr

/-! ## Type identifiers (`TypeID`) -/

def M_SP_NA_1 : UInt8 := 1
def M_ME_NA_1 : UInt8 := 9
def M_ME_NB_1 : UInt8 := 11
def M_ME_NC_1 : UInt8 := 13
def M_IT_NA_1 : UInt8 := 15
def M_SP_TB_1 : UInt8 := 30
def M_ME_TD_1 : UInt8 := 34
def M_ME_TE_1 : UInt8 := 35
def M_ME_TF_1 : UInt8 := 36
def M_IT_TB_1 : UInt8 := 37
def C_SC_NA_1 : UInt8 := 45
def C_DC_NA_1 : UInt8 := 46
def C_SE_NA_1 : UInt8 := 48
def C_SE_NB_1 : UInt8 := 49
def C_SE_NC_1 : UInt8 := 50
def C_IC_NA_1 : UInt8 := 100
def C_CI_NA_1 : UInt8 := 101

/-- `DoublePointValue` as a command state: `IEC60870_DOUBLE_POINT_OFF`. -/
def doublePointOff : UInt8 := 1

/-- `IEC60870_DOUBLE_POINT_ON`. -/
def doublePointOn : UInt8 := 2

/-- `IEC60870_QUALITY_GOOD`. -/
def qualityGood : UInt8 := 0

/-- `IEC60870_QUALITY_INVALID`. -/
def qualityInvalid : UInt8 := 0x80

/-! ## Work messages (`client_context.h`) -/

/-- `Iec104MsgType`. -/
inductive Iec104MsgType
  | totalCall
  | counterCall
  | readPoint
  | clockSync
  | remoteControl
  | remoteAdjust
  | customCall
  | historyCall
  | activeUpload
  | connectionClosed
deriving DecidableEq, Repr, Inhabited

/-- `IEC104_MAX_SETPOINTS_PER_ASDU`. -/
def iec104MaxSetpointsPerAsdu : Nat := 40

/-- `Iec104SetpointItem`. -/
structure Iec104SetpointItem where
  ioa : UInt32
  value : ℚ
  select : UInt8
  qualifier : Int32
deriving DecidableEq

/-- `Iec104WorkMsg`. The array `setpoints` with its length `setpoint_count` is one
list. `memset` to zero gives the default of every field. -/
structure Iec104WorkMsg where
  type : Iec104MsgType := .totalCall
  ioa : UInt32 := 0
  typeId : UInt8 := 0
  cot : CauseOfTransmission := .other 0
  qoi : UInt8 := 0
  qcc : UInt8 := 0
  oa : UInt8 := 0
  requestId : UInt64 := 0
  uploadVersion : Nat := 0
  commandSelect : UInt8 := 0
  commandState : UInt8 := 0
  commandQualifier : Int32 := 0
  setpointValue : ℚ := 0
  setpoints : List Iec104SetpointItem := []
  beginTime : List UInt8 := []
  endTime : List UInt8 := []
deriving DecidableEq

instance : Inhabited Iec104WorkMsg := ⟨{}⟩

end Iec104Slave
