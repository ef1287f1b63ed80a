import Iec104Slave.ActiveUpload
import Iec104Slave.SoeHistory
import Iec104Slave.Lib.CString
import Iec104Slave.Lib.Run

/-!
# The diagnostic server (`diag_server_execute`)

A command is a line of text. The first letters choose the handler, and the handler looks
for its arguments, and for words such as `add` and `clear`, anywhere in the line. There are
two permissions: `writable` for the commands that set a point or add an event, and
`allow_clear` for those that empty the upload area or the SOE history.

Results:
1. `execute_change`: whatever a command changes, it has the permission for.
2. `diag_read_only`: without both permissions no command changes the point table, the
   upload area or the SOE history.
3. `diag_read_only_run`: nor does any sequence of commands.
-/

namespace Iec104Slave

open CString

/-! ## The server -/

/-- The fields of `DiagConfig` that a command reads. -/
structure DiagConfig where
  writable : Bool
  allowClear : Bool

/-- `DiagServer`, with what it points to. `notifyUpload` is the result of the callback, if
one is set. The callback posts to the client queues only; `notified` has the versions it
was called with. -/
structure DiagServer where
  config : DiagConfig
  table : PointTable
  activeUpload : ActiveUploadArea
  soeHistory : SoeHistory
  notifyUpload : Option (Nat → Bool)
  notified : List Nat

/-- What a command meets outside the server: the clock, `strtod` and the allocations of an
upload snapshot. -/
structure DiagEnv where
  now : UInt64
  strtod : List UInt8 → ℚ
  alloc : SnapshotAlloc

inductive DiagError
  | readOnly
  | missingIoa
  | missingArgument
  | ioaNotFound
  | clearDisabled
  | snapshotFailed
  | unknownCommand
deriving DecidableEq

/-- The answer to a command: the data that its JSON text carries. -/
inductive DiagResponse
  | error (code : DiagError)
  | message (text : String)
  | notify (ok : Bool)
  | status (soeCount uploadVersion : Nat)
  | yx (ioa : Int32) (value : Bool) (quality : UInt8)
  | yc (ioa : Int32) (value : ℚ) (quality : UInt8)
  | dd (ioa : Int32) (value : Int32) (quality seq : UInt8)
  | yk (ioa : Int32) (state selected : Bool)
  | yt (ioa : Int32) (value : ℚ) (selected : Bool)
  | soeRecords (count : Nat) (records : List SoeRecord)
  | uploadSoe (version : Nat) (entries : List SoeUploadEntry)
  | uploadCounts (version yx yc soe : Nat)

/-! ## Arguments -/

/-- What follows `key` in the command, after blanks and equals signs. -/
def argText (text key : List UInt8) : Option (List UInt8) :=
  (strstr text key).map fun p => (p.drop key.length).dropWhile fun c => c == 32 || c == 61

/-- `parse_int_arg`. -/
def parseIntArg (text key : List UInt8) : Option Int32 :=
  (argText text key).map fun p => Int32.ofInt (strtol 0 p)

/-- `parse_float_arg`. -/
def parseFloatArg (x : DiagEnv) (text key : List UInt8) : Option ℚ :=
  (argText text key).map x.strtod

/-- `parse_uint8_arg`. -/
def parseUint8Arg (text key : List UInt8) : Option UInt8 :=
  (parseIntArg text key).map fun v =>
    if v < 0 then 0 else if v > 255 then 255 else v.toInt.toNat.toUInt8

/-- `parse_bool_arg`. -/
def parseBoolArg (text key : List UInt8) : Option Bool :=
  (parseIntArg text key).map fun v => v != 0

/-- `command_has_flag`, and the tests for a word anywhere in the command. -/
def commandHasFlag (text flag : List UInt8) : Bool :=
  (strstr text flag).isSome

/-! ## The handlers -/

/-- `notify_upload`. -/
def notifyUpload (diag : DiagServer) : DiagServer × Bool :=
  match diag.notifyUpload with
  | none => (diag, false)
  | some callback =>
    ({ diag with notified := diag.notified ++ [diag.activeUpload.version] },
      callback diag.activeUpload.version)

/-- `handle_get`. -/
def handleGet (diag : DiagServer) (command : List UInt8) : DiagResponse × Bool :=
  match parseIntArg command (ascii "ioa") with
  | none => (.error .missingIoa, false)
  | some ioa =>
    match pointTableFindYx diag.table ioa with
    | some yx => (.yx ioa (yx.value != 0) yx.quality, true)
    | none =>
    match pointTableFindYc diag.table ioa with
    | some yc => (.yc ioa yc.value yc.quality, true)
    | none =>
    match pointTableFindDd diag.table ioa with
    | some dd => (.dd ioa dd.value dd.quality dd.seq, true)
    | none =>
    match pointTableFindYk diag.table ioa with
    | some yk => (.yk ioa (yk.state != 0) (yk.selectState != 0), true)
    | none =>
    match pointTableFindYt diag.table ioa with
    | some yt => (.yt ioa yt.value (yt.selectState != 0), true)
    | none => (.error .ioaNotFound, false)

/-- `handle_set_yx`. -/
def handleSetYx (x : DiagEnv) (diag : DiagServer) (command : List UInt8) :
    DiagServer × DiagResponse × Bool :=
  if !diag.config.writable then (diag, .error .readOnly, false)
  else
    match parseIntArg command (ascii "ioa"), parseBoolArg command (ascii "value") with
    | some ioa, some value =>
      let set := pointTableSetYx diag.table ioa value x.now
      if !set.2 then (diag, .error .ioaNotFound, false)
      else
        let found := (pointTableFindYx set.1 ioa).any fun point => point.ioa != 0
        let table := match parseUint8Arg command (ascii "quality") with
          | some quality =>
            if found then set.1.modifyYx ioa fun point => { point with quality := quality }
            else set.1
          | none => set.1
        ({ diag with table := table }, .message "YX updated", true)
    | _, _ => (diag, .error .missingArgument, false)

/-- `handle_set_yc`. -/
def handleSetYc (x : DiagEnv) (diag : DiagServer) (command : List UInt8) :
    DiagServer × DiagResponse × Bool :=
  if !diag.config.writable then (diag, .error .readOnly, false)
  else
    match parseIntArg command (ascii "ioa"), parseFloatArg x command (ascii "value") with
    | some ioa, some value =>
      let set := pointTableSetYc diag.table ioa value x.now
      if !set.2 then (diag, .error .ioaNotFound, false)
      else
        let diag := { diag with table := set.1 }
        match (pointTableFindYc set.1 ioa).filter fun point => point.ioa != 0 with
        | none => (diag, .message "YC updated", true)
        | some point =>
          let quality := parseUint8Arg command (ascii "quality")
          let copy := { point with quality := quality.getD point.quality }
          let table := match quality with
            | some quality => set.1.modifyYc ioa fun point => { point with quality := quality }
            | none => set.1
          let area := (activeUploadPutYc diag.activeUpload copy .spontaneous).1
          let table := (pointTableMarkYcReported table copy.ioa.toInt32 copy.value).1
          let diag := { diag with table := table, activeUpload := area }
          ((notifyUpload diag).1, .message "YC updated", true)
    | _, _ => (diag, .error .missingArgument, false)

/-- `handle_set_dd`. -/
def handleSetDd (x : DiagEnv) (diag : DiagServer) (command : List UInt8) :
    DiagServer × DiagResponse × Bool :=
  if !diag.config.writable then (diag, .error .readOnly, false)
  else
    match parseIntArg command (ascii "ioa"), parseIntArg command (ascii "value") with
    | some ioa, some value =>
      match pointTableFindDd diag.table ioa with
      | none => (diag, .error .ioaNotFound, false)
      | some _ =>
        let quality := parseUint8Arg command (ascii "quality")
        let table := diag.table.modifyDd ioa fun point =>
          { point with
            value := value, quality := quality.getD point.quality, seq := point.seq + 1,
            timestampMs := x.now }
        ({ diag with table := table }, .message "DD updated", true)
    | _, _ => (diag, .error .missingArgument, false)

/-- `soe add`: an event of a YX point goes into the upload area and the history. -/
def soeAdd (x : DiagEnv) (diag : DiagServer) (command : List UInt8) :
    DiagServer × DiagResponse × Bool :=
  if !diag.config.writable then (diag, .error .readOnly, false)
  else
    match parseIntArg command (ascii "ioa"), parseBoolArg command (ascii "value") with
    | some ioa, some value =>
      -- IEC60870_QUALITY_GOOD is 0
      let quality := (parseUint8Arg command (ascii "quality")).getD 0
      match pointTableFindYx diag.table ioa with
      | none => (diag, .error .ioaNotFound, false)
      | some point =>
        let copy := { point with
          value := boolByte value, quality := quality, timestampMs := x.now }
        let area := (activeUploadPutYx diag.activeUpload copy true).1
        let history := soeHistoryAppend diag.soeHistory copy.ioa.toInt32 (copy.value != 0)
          copy.quality copy.timestampMs
        let diag := { diag with activeUpload := area, soeHistory := history }
        ((notifyUpload diag).1, .message "SOE added", true)
    | _, _ => (diag, .error .missingArgument, false)

/-- `handle_soe`. -/
def handleSoe (x : DiagEnv) (diag : DiagServer) (command : List UInt8) :
    DiagServer × DiagResponse × Bool :=
  if commandHasFlag command (ascii "add") then soeAdd x diag command
  else if commandHasFlag command (ascii "clear") then
    if !diag.config.allowClear then (diag, .error .clearDisabled, false)
    else
      ({ diag with soeHistory := soeHistoryClear diag.soeHistory }, .message "SOE cleared", true)
  else
    (diag, .soeRecords (soeHistoryCount diag.soeHistory) (soeHistoryQuery diag.soeHistory 0 0 16),
      true)

/-- `handle_active_upload`. -/
def handleActiveUpload (x : DiagEnv) (diag : DiagServer) (command : List UInt8) :
    DiagServer × DiagResponse × Bool :=
  if commandHasFlag command (ascii "clear") then
    if !diag.config.allowClear then (diag, .error .clearDisabled, false)
    else
      ({ diag with activeUpload := activeUploadClear diag.activeUpload },
        .message "active upload cleared", true)
  else if commandHasFlag command (ascii "notify") then
    let (diag, ok) := notifyUpload diag
    (diag, .notify ok, ok)
  else
    match activeUploadSnapshotCreate x.alloc diag.activeUpload 0 with
    | none => (diag, .error .snapshotFailed, false)
    | some snapshot =>
      if commandHasFlag command (ascii "--type soe") then
        (diag, .uploadSoe snapshot.version (snapshot.soe.take 16), true)
      else
        (diag, .uploadCounts snapshot.version snapshot.yx.length snapshot.yc.length
          snapshot.soe.length, true)

/-- `diag_server_execute`: the server after the command, the response and the result. -/
def diagServerExecute (x : DiagEnv) (diag : DiagServer) (command : List UInt8) :
    DiagServer × DiagResponse × Bool :=
  if startsWith command (ascii "status") then
    (diag, .status (soeHistoryCount diag.soeHistory) diag.activeUpload.version, true)
  else if startsWith command (ascii "get") then (diag, handleGet diag command)
  else if startsWith command (ascii "set-yx") then handleSetYx x diag command
  else if startsWith command (ascii "set-yc") then handleSetYc x diag command
  else if startsWith command (ascii "set-dd") then handleSetDd x diag command
  else if startsWith command (ascii "soe") then handleSoe x diag command
  else if startsWith command (ascii "active-upload") then handleActiveUpload x diag command
  else (diag, .error .unknownCommand, false)

/-! ## What a command may change -/

/-- The point table, the upload area, the SOE history and the permissions of the two are
the same. -/
structure SameData (diag diag' : DiagServer) : Prop where
  config : diag'.config = diag.config
  table : diag'.table = diag.table
  activeUpload : diag'.activeUpload = diag.activeUpload
  soeHistory : diag'.soeHistory = diag.soeHistory

/-- A change that the configuration permits. -/
inductive Permitted (diag diag' : DiagServer) : Prop
  | none : SameData diag diag' → Permitted diag diag'
  | write : diag.config.writable = true → Permitted diag diag'
  | clearHistory : diag.config.allowClear = true → diag'.table = diag.table →
      diag'.activeUpload = diag.activeUpload →
      diag'.soeHistory = soeHistoryClear diag.soeHistory → Permitted diag diag'
  | clearUpload : diag.config.allowClear = true → diag'.table = diag.table →
      diag'.activeUpload = activeUploadClear diag.activeUpload →
      diag'.soeHistory = diag.soeHistory → Permitted diag diag'

namespace DiagServerLemmas

variable {x : DiagEnv} {diag : DiagServer} {command : List UInt8}

theorem sameData_self (diag : DiagServer) : SameData diag diag := ⟨rfl, rfl, rfl, rfl⟩

theorem sameData_notify (diag : DiagServer) : SameData diag (notifyUpload diag).1 := by
  unfold notifyUpload
  split
  · exact sameData_self diag
  · exact ⟨rfl, rfl, rfl, rfl⟩

/-- A handler that starts with `ensure_writable`. -/
theorem permitted_of_readOnly {result : DiagServer × DiagResponse × Bool}
    (h : diag.config.writable = false → result.1 = diag) : Permitted diag result.1 := by
  cases hw : diag.config.writable with
  | false => exact .none (h hw ▸ sameData_self diag)
  | true => exact .write hw

theorem permitted_setYx : Permitted diag (handleSetYx x diag command).1 := by
  refine permitted_of_readOnly fun hw => ?_
  unfold handleSetYx
  simp only [hw, Bool.not_false, if_true]

theorem permitted_setYc : Permitted diag (handleSetYc x diag command).1 := by
  refine permitted_of_readOnly fun hw => ?_
  unfold handleSetYc
  simp only [hw, Bool.not_false, if_true]

theorem permitted_setDd : Permitted diag (handleSetDd x diag command).1 := by
  refine permitted_of_readOnly fun hw => ?_
  unfold handleSetDd
  simp only [hw, Bool.not_false, if_true]

theorem permitted_soeAdd : Permitted diag (soeAdd x diag command).1 := by
  refine permitted_of_readOnly fun hw => ?_
  unfold soeAdd
  simp only [hw, Bool.not_false, if_true]

theorem permitted_soe : Permitted diag (handleSoe x diag command).1 := by
  unfold handleSoe
  split
  · exact permitted_soeAdd
  split
  · cases hc : diag.config.allowClear with
    | false => exact .none (sameData_self diag)
    | true => exact .clearHistory hc rfl rfl rfl
  · exact .none (sameData_self diag)

theorem permitted_activeUpload : Permitted diag (handleActiveUpload x diag command).1 := by
  unfold handleActiveUpload
  split
  · cases hc : diag.config.allowClear with
    | false => exact .none (sameData_self diag)
    | true => exact .clearUpload hc rfl rfl rfl
  split
  · exact .none (sameData_notify diag)
  split
  · exact .none (sameData_self diag)
  · split
    · exact .none (sameData_self diag)
    · exact .none (sameData_self diag)

/-- Whatever a command changes, it has the permission for. -/
theorem execute_change (x : DiagEnv) (diag : DiagServer) (command : List UInt8) :
    Permitted diag (diagServerExecute x diag command).1 := by
  unfold diagServerExecute
  split
  · exact .none (sameData_self diag)
  split
  · exact .none (sameData_self diag)
  split
  · exact permitted_setYx
  split
  · exact permitted_setYc
  split
  · exact permitted_setDd
  split
  · exact permitted_soe
  split
  · exact permitted_activeUpload
  · exact .none (sameData_self diag)

theorem sameData_of_permitted {diag' : DiagServer} (h : Permitted diag diag')
    (hw : diag.config.writable = false) (hc : diag.config.allowClear = false) :
    SameData diag diag' := by
  cases h with
  | none hsame => exact hsame
  | write hw' => cases hw.symm.trans hw'
  | clearHistory hc' => cases hc.symm.trans hc'
  | clearUpload hc' => cases hc.symm.trans hc'

end DiagServerLemmas

open DiagServerLemmas

/-- Without the two permissions no command changes the point table, the upload area or the
SOE history. -/
theorem diag_read_only (x : DiagEnv) (diag : DiagServer) (command : List UInt8)
    (hw : diag.config.writable = false) (hc : diag.config.allowClear = false) :
    SameData diag (diagServerExecute x diag command).1 :=
  sameData_of_permitted (execute_change x diag command) hw hc

/-- A server over the demo table that permits nothing. -/
def demoReadOnly : DiagServer where
  config := ⟨false, false⟩
  table := pointTableInitDemo
  activeUpload := serverUploadArea pointTableInitDemo
  soeHistory := soeHistoryInit
  notifyUpload := some fun _ => true
  notified := []

/-- A command with the words of several others in it. -/
theorem soe_add_clear_refused :
    SameData demoReadOnly
      (diagServerExecute ⟨1000, fun _ => 0, ⟨true, true, true⟩⟩ demoReadOnly
        (ascii "soe clear add ioa=1 value=1")).1 :=
  diag_read_only _ demoReadOnly _ rfl rfl

/-- Without the two permissions nothing changes over any sequence of commands. -/
theorem diag_read_only_run (diag : DiagServer) (inputs : List (DiagEnv × List UInt8))
    (hw : diag.config.writable = false) (hc : diag.config.allowClear = false) :
    SameData diag
      (Run.exec (fun diag input => (diagServerExecute input.1 diag input.2).1) diag inputs) := by
  refine Run.exec_induction (I := fun _ d => SameData diag d) (sameData_self diag) ?_ inputs
  intro _ d input hsame
  have hstep : SameData d (diagServerExecute input.1 d input.2).1 :=
    sameData_of_permitted (execute_change input.1 d input.2) (hsame.config ▸ hw)
      (hsame.config ▸ hc)
  exact ⟨hstep.config.trans hsame.config, hstep.table.trans hsame.table,
    hstep.activeUpload.trans hsame.activeUpload, hstep.soeHistory.trans hsame.soeHistory⟩

end Iec104Slave
