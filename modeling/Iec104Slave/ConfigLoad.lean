import Iec104Slave.Json5

/-!
# The configuration loaders (`config_load_file`)

With json-c, the loader parses the preprocessed file and reads each field from its section
of the tree. Without it, or when json-c refuses the text, a scanner looks in the raw text
for the first `key:` and reads what stands behind it: no sections, no comments, no strings.

json-c is a parameter: what it makes of strict JSON is the value that the text denotes, and
nothing is said about the other texts it takes. A tree of json-c is a JSON value, its
integers as literals without fraction and exponent.

The README names the scanner as the fallback for the basic server and APCI fields, but it
does not read the same values there (`basic_fields_misread`).

Results:
1. `parseBoolKey_iff`, `parseIntKey_iff`, `parseStringKey_iff`: what the scanner makes of a
   key, in terms of the text.
2. `own_keys_agree`: the loaders agree on the basic fields when each key is bare and stands
   directly before its own value.
3. `accepted_tree`: what json-c makes of a text of the dialect is the value of the text.

The condition of `own_keys_agree` is not necessary. The scanner may find a right value by
chance, in a comment or behind another key, and then nothing but the value itself says so.
-/

namespace Iec104Slave

open CString JsonText

/-! ## The configuration -/

structure Iec104Config where
  enabled : Bool
  localIp : List UInt8
  localPort : Int32
  commonAddress : Int32
  maxOpenConnections : Int32
  lowPriorityQueueSize : Int32
  highPriorityQueueSize : Int32
  k : Int32
  w : Int32
  t0Seconds : Int32
  t1Seconds : Int32
  t2Seconds : Int32
  t3Seconds : Int32
  scanEnabled : Bool
  activeUploadEnabled : Bool
  periodicEnabled : Bool
  periodicIntervalMs : Int32
  scanIntervalMs : Int32
  rawMessageLog : Bool
  logEnabled : Bool
  logLevel : List UInt8
  logFileName : List UInt8
  logFileCount : Int32
  logMaxFileSizeBytes : Int32
  logAppendStartTimestamp : Bool
  diagEnabled : Bool
  diagBindIp : List UInt8
  diagPort : Int32
  diagWritable : Bool
  diagAllowClear : Bool
  mysqlEnabled : Bool
  mysqlHost : List UInt8
  mysqlPort : Int32
  mysqlUser : List UInt8
  mysqlPassword : List UInt8
  mysqlDatabase : List UInt8
  mysqlCharset : List UInt8
  mysqlConnectTimeoutMs : Int32
  mysqlSslVerifyServerCert : Bool
  sqliteEnabled : Bool
  sqliteDatabase : List UInt8
  sqliteBusyTimeoutMs : Int32
  sqliteJournalMode : List UInt8
  sqliteSynchronous : List UInt8
  historyStorageBackend : List UInt8
  historySoeEnabled : Bool
  historySoeTable : List UInt8
  historySoeMaxRecords : Int32
  historyYxEnabled : Bool
  historyYxTable : List UInt8
  historyYcEnabled : Bool
  historyYcTable : List UInt8
  historyDdEnabled : Bool
  historyDdTable : List UInt8
  historyQueryMaxRecords : Int32
  historyDbQueueCapacity : Int32

def configInitDefaults : Iec104Config where
  enabled := true
  localIp := ascii "0.0.0.0"
  localPort := 2404
  commonAddress := 1
  maxOpenConnections := 1
  lowPriorityQueueSize := 256
  highPriorityQueueSize := 256
  k := 12
  w := 8
  t0Seconds := 10
  t1Seconds := 15
  t2Seconds := 10
  t3Seconds := 20
  scanEnabled := true
  activeUploadEnabled := true
  periodicEnabled := true
  periodicIntervalMs := 2000
  scanIntervalMs := 1000
  rawMessageLog := false
  logEnabled := true
  logLevel := ascii "info"
  logFileName := ascii "logs/iec104_slave.log"
  logFileCount := 2
  logMaxFileSizeBytes := 10485760
  logAppendStartTimestamp := true
  diagEnabled := false
  diagBindIp := ascii "127.0.0.1"
  diagPort := 24040
  diagWritable := true
  diagAllowClear := false
  mysqlEnabled := false
  mysqlHost := ascii "127.0.0.1"
  mysqlPort := 3306
  mysqlUser := ascii "iec104"
  mysqlPassword := []
  mysqlDatabase := ascii "iec104_history"
  mysqlCharset := ascii "utf8mb4"
  mysqlConnectTimeoutMs := 3000
  mysqlSslVerifyServerCert := false
  sqliteEnabled := true
  sqliteDatabase := ascii "data/iec104_history.db"
  sqliteBusyTimeoutMs := 3000
  sqliteJournalMode := ascii "WAL"
  sqliteSynchronous := ascii "NORMAL"
  historyStorageBackend := ascii "sqlite"
  historySoeEnabled := true
  historySoeTable := ascii "iec104_soe_history"
  historySoeMaxRecords := 10000
  historyYxEnabled := true
  historyYxTable := ascii "iec104_yx_history"
  historyYcEnabled := true
  historyYcTable := ascii "iec104_yc_history"
  historyDdEnabled := true
  historyDdTable := ascii "iec104_dd_history"
  historyQueryMaxRecords := 1000
  historyDbQueueCapacity := 4096

/-! ## The json-c path -/

/-- json-c as a parser. On strict JSON it returns the value of the text, if it returns one:
it has limits of its own, and `null` comes back as a NULL pointer. -/
structure JsonC where
  parse : List UInt8 → Option Json
  reads : ∀ {text v root}, DenotesStrictly text v → parse text = some root → root = v

/-- The members of an object, as they stand in the text. -/
def memberList {p : Part} : Syn Unit (List UInt8) Unit Scalar p → List (List UInt8 × Json)
  | .lastMember _ key _ _ v _ => [(key, v)]
  | .member _ key _ _ v _ rest => (key, v) :: memberList rest
  | _ => []

/-- `json_object_object_get_ex`. A key ends at its first zero byte, and the last of several
members with one key is the one that stays. -/
def jsonObjectGet : Json → List UInt8 → Option Json
  | .object members, key =>
    ((memberList members).reverse.find? fun m => m.1.takeWhile (· != 0) == key).map (·.2)
  | _, _ => none

/-- A member that is `null` is a NULL pointer, as an absent one is. -/
def jsonGetObj (parent : Option Json) (key : List UInt8) : Option Json :=
  match parent.bind (jsonObjectGet · key) with
  | some (.atom .null) => none
  | child => child

def jsonReadBool (parent : Option Json) (key : List UInt8) (dest : Bool) : Bool :=
  match jsonGetObj parent key with
  | some (.atom (.bool b)) => b
  | _ => dest

/-- `json_type_int`: no fraction, no exponent. -/
def isJsonInt (n : Number) : Bool :=
  n.fraction.isNone && n.exponent.isNone

def jsonIntValue (n : Number) : Int :=
  signed (if n.negative then some true else none) (decimal (n.int.digits.map digitByte))

/-- `json_object_get_int`: a number that does not fit becomes the nearest `int`. -/
def jsonObjectGetInt (n : Number) : Int32 :=
  Int32.ofInt (max (-2 ^ 31) (min (2 ^ 31 - 1) (jsonIntValue n)))

def jsonReadInt (parent : Option Json) (key : List UInt8) (dest : Int32) : Int32 :=
  match jsonGetObj parent key with
  | some (.atom (.number n)) => if isJsonInt n then jsonObjectGetInt n else dest
  | _ => dest

def jsonReadString (parent : Option Json) (key : List UInt8) (dest : List UInt8)
    (destSize : Nat) : List UInt8 :=
  match jsonGetObj parent key with
  | some (.atom (.string text)) => (text.takeWhile (· != 0)).take (destSize - 1)
  | _ => dest

/-- A section of the file, by the keys on the way to it. -/
def jsonSection (root : Json) (path : List String) : Option Json :=
  path.foldl (fun parent key => jsonGetObj parent (ascii key)) (some root)

/-- The address of the address plan stands in for the default one. -/
def readCommonAddress (root : Json) (current : Int32) : Int32 :=
  let address :=
    jsonReadInt (jsonSection root ["iec104", "server"]) (ascii "common_address") current
  if address = 1 then
    jsonReadInt (jsonSection root ["point_table", "address_plan"]) (ascii "common_address") address
  else address

/-- The part of `load_with_json_c` behind the parser. -/
def readSections (root : Json) (config : Iec104Config) : Iec104Config :=
  let server := jsonSection root ["iec104", "server"]
  let apci := jsonSection root ["iec104", "apci"]
  let report := jsonSection root ["iec104", "report"]
  let log := jsonSection root ["iec104", "log"]
  let diag := (jsonSection root ["iec104", "diag"]).or
    ((jsonSection root ["iec104", "diagnostic"]).or (jsonSection root ["diagnostic"]))
  let mysql := jsonSection root ["iec104", "mysql"]
  let sqlite := jsonSection root ["iec104", "sqlite"]
  let historyStorage := jsonSection root ["iec104", "history_storage"]
  let historySoe := jsonGetObj historyStorage (ascii "soe")
  let historyYx := jsonGetObj historyStorage (ascii "yx")
  let historyYc := jsonGetObj historyStorage (ascii "yc")
  let historyDd := jsonGetObj historyStorage (ascii "dd")
  let historyQuery := jsonGetObj historyStorage (ascii "query")
  let historyDbQueue := jsonGetObj historyStorage (ascii "db_queue")
  { enabled := jsonReadBool server (ascii "enabled") config.enabled
    localIp := jsonReadString server (ascii "local_ip") config.localIp 64
    localPort := jsonReadInt server (ascii "local_port") config.localPort
    commonAddress := readCommonAddress root config.commonAddress
    maxOpenConnections :=
      jsonReadInt server (ascii "max_open_connections") config.maxOpenConnections
    lowPriorityQueueSize :=
      jsonReadInt server (ascii "low_priority_queue_size") config.lowPriorityQueueSize
    highPriorityQueueSize :=
      jsonReadInt server (ascii "high_priority_queue_size") config.highPriorityQueueSize
    rawMessageLog := jsonReadBool server (ascii "raw_message_log") config.rawMessageLog
    k := jsonReadInt apci (ascii "k") config.k
    w := jsonReadInt apci (ascii "w") config.w
    t0Seconds := jsonReadInt apci (ascii "t0_seconds") config.t0Seconds
    t1Seconds := jsonReadInt apci (ascii "t1_seconds") config.t1Seconds
    t2Seconds := jsonReadInt apci (ascii "t2_seconds") config.t2Seconds
    t3Seconds := jsonReadInt apci (ascii "t3_seconds") config.t3Seconds
    scanEnabled := jsonReadBool report (ascii "scan_enabled") config.scanEnabled
    activeUploadEnabled :=
      jsonReadBool report (ascii "active_upload_enabled") config.activeUploadEnabled
    periodicEnabled := jsonReadBool report (ascii "periodic_enabled") config.periodicEnabled
    periodicIntervalMs :=
      jsonReadInt report (ascii "periodic_interval_ms") config.periodicIntervalMs
    scanIntervalMs := jsonReadInt report (ascii "scan_interval_ms") config.scanIntervalMs
    logEnabled := jsonReadBool log (ascii "enabled") config.logEnabled
    logLevel := jsonReadString log (ascii "level") config.logLevel 16
    logFileName := jsonReadString log (ascii "file_name") config.logFileName 256
    logFileCount := jsonReadInt log (ascii "file_count") config.logFileCount
    logMaxFileSizeBytes :=
      jsonReadInt log (ascii "max_file_size_bytes") config.logMaxFileSizeBytes
    logAppendStartTimestamp :=
      jsonReadBool log (ascii "append_start_timestamp") config.logAppendStartTimestamp
    diagEnabled := jsonReadBool diag (ascii "enabled") config.diagEnabled
    diagBindIp := jsonReadString diag (ascii "bind_ip") config.diagBindIp 64
    diagPort := jsonReadInt diag (ascii "port") config.diagPort
    diagWritable := jsonReadBool diag (ascii "writable") config.diagWritable
    diagAllowClear := jsonReadBool diag (ascii "allow_clear") config.diagAllowClear
    mysqlEnabled := jsonReadBool mysql (ascii "enabled") config.mysqlEnabled
    mysqlHost := jsonReadString mysql (ascii "host") config.mysqlHost 64
    mysqlPort := jsonReadInt mysql (ascii "port") config.mysqlPort
    mysqlUser := jsonReadString mysql (ascii "user") config.mysqlUser 64
    mysqlPassword := jsonReadString mysql (ascii "password") config.mysqlPassword 128
    mysqlDatabase := jsonReadString mysql (ascii "database") config.mysqlDatabase 64
    mysqlCharset := jsonReadString mysql (ascii "charset") config.mysqlCharset 32
    mysqlConnectTimeoutMs :=
      jsonReadInt mysql (ascii "connect_timeout_ms") config.mysqlConnectTimeoutMs
    mysqlSslVerifyServerCert :=
      jsonReadBool mysql (ascii "ssl_verify_server_cert") config.mysqlSslVerifyServerCert
    sqliteEnabled := jsonReadBool sqlite (ascii "enabled") config.sqliteEnabled
    sqliteDatabase := jsonReadString sqlite (ascii "database") config.sqliteDatabase 260
    sqliteBusyTimeoutMs :=
      jsonReadInt sqlite (ascii "busy_timeout_ms") config.sqliteBusyTimeoutMs
    sqliteJournalMode :=
      jsonReadString sqlite (ascii "journal_mode") config.sqliteJournalMode 16
    sqliteSynchronous :=
      jsonReadString sqlite (ascii "synchronous") config.sqliteSynchronous 16
    historyStorageBackend :=
      jsonReadString historyStorage (ascii "backend") config.historyStorageBackend 16
    historySoeEnabled := jsonReadBool historySoe (ascii "enabled") config.historySoeEnabled
    historySoeTable := jsonReadString historySoe (ascii "table") config.historySoeTable 64
    historySoeMaxRecords :=
      jsonReadInt historySoe (ascii "max_records") config.historySoeMaxRecords
    historyYxEnabled := jsonReadBool historyYx (ascii "enabled") config.historyYxEnabled
    historyYxTable := jsonReadString historyYx (ascii "table") config.historyYxTable 64
    historyYcEnabled := jsonReadBool historyYc (ascii "enabled") config.historyYcEnabled
    historyYcTable := jsonReadString historyYc (ascii "table") config.historyYcTable 64
    historyDdEnabled := jsonReadBool historyDd (ascii "enabled") config.historyDdEnabled
    historyDdTable := jsonReadString historyDd (ascii "table") config.historyDdTable 64
    historyQueryMaxRecords :=
      jsonReadInt historyQuery (ascii "max_records_per_call") config.historyQueryMaxRecords
    historyDbQueueCapacity :=
      jsonReadInt historyDbQueue (ascii "capacity") config.historyDbQueueCapacity }

/-- `none` is the refused text, which leaves the configuration as it is. -/
def loadWithJsonC (jc : JsonC) (sourceText : List UInt8) (config : Iec104Config) :
    Option Iec104Config :=
  (jc.parse (preprocessJson5 sourceText)).map (readSections · config)

/-! ## The legacy key scanner -/

/-- The pattern buffer has 96 bytes. -/
def ConfigScan.findKey (text key : List UInt8) : Option (List UInt8) :=
  strstr text ((key ++ [58]).take 95)

/-- What stands behind the colon of the first `key:`. -/
def textBehindKey (text key : List UInt8) : Option (List UInt8) :=
  ((ConfigScan.findKey text key).bind (strchr · 58)).map List.tail

def parseBoolKey (text key : List UInt8) (current : Bool) : Bool :=
  match textBehindKey text key with
  | none => current
  | some p =>
    let p := p.dropWhile isspace
    if startsWith p (ascii "true") then true
    else if startsWith p (ascii "false") then false
    else current

def parseIntKey (text key : List UInt8) (current : Int32) : Int32 :=
  match textBehindKey text key with
  | none => current
  | some p => Int32.ofInt (strtol 10 p)

def parseStringKey (text key dest : List UInt8) (destSize : Nat) : List UInt8 :=
  match (textBehindKey text key).bind (strchr · 34) with
  | none => dest
  | some p =>
    match strchr p.tail 34 with
    | none => dest
    | some _ => (p.tail.takeWhile (· != 34)).take (destSize - 1)

/-- The part of `config_load_file` that runs when json-c has not read the text. -/
def scanKeys (text : List UInt8) (config : Iec104Config) : Iec104Config :=
  let diagEnabled := parseBoolKey text (ascii "diag_enabled") config.diagEnabled
  let backend :=
    parseStringKey text (ascii "history_storage_backend") config.historyStorageBackend 16
  { enabled := parseBoolKey text (ascii "enabled") config.enabled
    localIp := parseStringKey text (ascii "local_ip") config.localIp 64
    localPort := parseIntKey text (ascii "local_port") config.localPort
    commonAddress := parseIntKey text (ascii "common_address") config.commonAddress
    maxOpenConnections :=
      parseIntKey text (ascii "max_open_connections") config.maxOpenConnections
    lowPriorityQueueSize := config.lowPriorityQueueSize
    highPriorityQueueSize := config.highPriorityQueueSize
    k := parseIntKey text (ascii "k") config.k
    w := parseIntKey text (ascii "w") config.w
    t0Seconds := parseIntKey text (ascii "t0_seconds") config.t0Seconds
    t1Seconds := parseIntKey text (ascii "t1_seconds") config.t1Seconds
    t2Seconds := parseIntKey text (ascii "t2_seconds") config.t2Seconds
    t3Seconds := parseIntKey text (ascii "t3_seconds") config.t3Seconds
    scanEnabled := parseBoolKey text (ascii "scan_enabled") config.scanEnabled
    activeUploadEnabled :=
      parseBoolKey text (ascii "active_upload_enabled") config.activeUploadEnabled
    periodicEnabled := parseBoolKey text (ascii "periodic_enabled") config.periodicEnabled
    periodicIntervalMs :=
      parseIntKey text (ascii "periodic_interval_ms") config.periodicIntervalMs
    scanIntervalMs := parseIntKey text (ascii "scan_interval_ms") config.scanIntervalMs
    rawMessageLog := parseBoolKey text (ascii "raw_message_log") config.rawMessageLog
    -- the key of the server's own field
    logEnabled := parseBoolKey text (ascii "enabled") config.logEnabled
    logLevel := parseStringKey text (ascii "level") config.logLevel 16
    logFileName := parseStringKey text (ascii "file_name") config.logFileName 256
    logFileCount := parseIntKey text (ascii "file_count") config.logFileCount
    logMaxFileSizeBytes :=
      parseIntKey text (ascii "max_file_size_bytes") config.logMaxFileSizeBytes
    logAppendStartTimestamp :=
      parseBoolKey text (ascii "append_start_timestamp") config.logAppendStartTimestamp
    diagEnabled :=
      if diagEnabled then true else parseBoolKey text (ascii "diagnostic_enabled") diagEnabled
    diagBindIp := parseStringKey text (ascii "bind_ip") config.diagBindIp 64
    diagPort := parseIntKey text (ascii "diag_port") config.diagPort
    diagWritable := parseBoolKey text (ascii "writable") config.diagWritable
    diagAllowClear := parseBoolKey text (ascii "allow_clear") config.diagAllowClear
    mysqlEnabled := parseBoolKey text (ascii "mysql_enabled") config.mysqlEnabled
    mysqlHost := parseStringKey text (ascii "mysql_host") config.mysqlHost 64
    mysqlPort := parseIntKey text (ascii "mysql_port") config.mysqlPort
    mysqlUser := parseStringKey text (ascii "mysql_user") config.mysqlUser 64
    mysqlPassword := parseStringKey text (ascii "mysql_password") config.mysqlPassword 128
    mysqlDatabase := parseStringKey text (ascii "mysql_database") config.mysqlDatabase 64
    mysqlCharset := parseStringKey text (ascii "mysql_charset") config.mysqlCharset 32
    mysqlConnectTimeoutMs :=
      parseIntKey text (ascii "mysql_connect_timeout_ms") config.mysqlConnectTimeoutMs
    mysqlSslVerifyServerCert :=
      parseBoolKey text (ascii "mysql_ssl_verify_server_cert") config.mysqlSslVerifyServerCert
    sqliteEnabled := parseBoolKey text (ascii "sqlite_enabled") config.sqliteEnabled
    sqliteDatabase := parseStringKey text (ascii "sqlite_database") config.sqliteDatabase 260
    sqliteBusyTimeoutMs :=
      parseIntKey text (ascii "sqlite_busy_timeout_ms") config.sqliteBusyTimeoutMs
    sqliteJournalMode :=
      parseStringKey text (ascii "sqlite_journal_mode") config.sqliteJournalMode 16
    sqliteSynchronous :=
      parseStringKey text (ascii "sqlite_synchronous") config.sqliteSynchronous 16
    historyStorageBackend := parseStringKey text (ascii "backend") backend 16
    historySoeEnabled := parseBoolKey text (ascii "history_soe_enabled") config.historySoeEnabled
    historySoeTable := parseStringKey text (ascii "history_soe_table") config.historySoeTable 64
    historySoeMaxRecords :=
      parseIntKey text (ascii "history_soe_max_records") config.historySoeMaxRecords
    historyYxEnabled := parseBoolKey text (ascii "history_yx_enabled") config.historyYxEnabled
    historyYxTable := parseStringKey text (ascii "history_yx_table") config.historyYxTable 64
    historyYcEnabled := parseBoolKey text (ascii "history_yc_enabled") config.historyYcEnabled
    historyYcTable := parseStringKey text (ascii "history_yc_table") config.historyYcTable 64
    historyDdEnabled := parseBoolKey text (ascii "history_dd_enabled") config.historyDdEnabled
    historyDdTable := parseStringKey text (ascii "history_dd_table") config.historyDdTable 64
    historyQueryMaxRecords :=
      parseIntKey text (ascii "history_query_max_records") config.historyQueryMaxRecords
    historyDbQueueCapacity :=
      parseIntKey text (ascii "history_db_queue_capacity") config.historyDbQueueCapacity }

/-- `config_load_file`, built with or without json-c. `file` is the string that `read_file`
returns: the bytes of the file up to the first zero byte, or nothing. -/
def configLoadFile (jsonC : Option JsonC) (file : Option (List UInt8)) : Iec104Config × Bool :=
  match file with
  | none => (configInitDefaults, false)
  | some text =>
    match jsonC.bind (loadWithJsonC · text configInitDefaults) with
    | some config => (config, true)
    | none => (scanKeys text configInitDefaults, true)

/-! ## What the raw text spells -/

/-- `rest` stands behind the first `key:` of the text. -/
def BehindKey (text key rest : List UInt8) : Prop :=
  AfterFirst text (key ++ [58]) rest

/-- `key:` stands nowhere in the text. -/
def NoKey (text key : List UInt8) : Prop :=
  ¬ key ++ [58] <:+: text

def Blank (blanks : List UInt8) : Prop :=
  ∀ c ∈ blanks, isspace c = true

def boolWord : Bool → List UInt8
  | true => ascii "true"
  | false => ascii "false"

/-- The Boolean behind the first `key:`. -/
inductive BoolSpelled (text key : List UInt8) (current : Bool) : Bool → Prop
  | absent : NoKey text key → BoolSpelled text key current current
  | word {b : Bool} {blanks rest : List UInt8} :
      BehindKey text key (blanks ++ (boolWord b ++ rest)) → Blank blanks →
      BoolSpelled text key current b
  | other {rest : List UInt8} :
      BehindKey text key rest →
      (∀ b blanks after, Blank blanks → rest ≠ blanks ++ (boolWord b ++ after)) →
      BoolSpelled text key current current

/-- The integer behind the first `key:`. Anything else counts as 0. -/
inductive IntSpelled (text key : List UInt8) (current : Int32) : Int32 → Prop
  | absent : NoKey text key → IntSpelled text key current current
  | number {blanks digits rest : List UInt8} (sign : Option Bool) :
      BehindKey text key (blanks ++ (signText sign ++ (digits ++ rest))) → Blank blanks →
      digits ≠ [] → (∀ c ∈ digits, isDecimal c = true) → NoDigit rest →
      IntSpelled text key current (Int32.ofInt (clampLong (signed sign (decimal digits))))
  | other {rest : List UInt8} :
      BehindKey text key rest →
      (∀ blanks sign c after, Blank blanks → isDecimal c = true →
        rest ≠ blanks ++ (signText sign ++ c :: after)) →
      IntSpelled text key current 0

/-- The first quoted text behind the first `key:`, however far behind. -/
inductive StringSpelled (text key current : List UInt8) (destSize : Nat) : List UInt8 → Prop
  | absent : NoKey text key → StringSpelled text key current destSize current
  | quoted {before content rest : List UInt8} :
      BehindKey text key (before ++ 34 :: (content ++ 34 :: rest)) → 34 ∉ before → 34 ∉ content →
      StringSpelled text key current destSize (content.take (destSize - 1))
  | other {rest : List UInt8} :
      BehindKey text key rest → rest.count 34 < 2 →
      StringSpelled text key current destSize current

/-- A key that fits the pattern buffer. -/
def ShortKey (key : List UInt8) : Prop :=
  58 ∉ key ∧ key.length < 95

instance (key : List UInt8) : Decidable (ShortKey key) :=
  inferInstanceAs (Decidable (_ ∧ _))

namespace ConfigLoadLemmas

variable {text key rest : List UInt8}

theorem textBehindKey_cases (hkey : ShortKey key) (text : List UInt8) :
    (∃ rest, BehindKey text key rest ∧ textBehindKey text key = some rest) ∨
      (NoKey text key ∧ textBehindKey text key = none) := by
  have hpattern : (key ++ [58]).take 95 = key ++ [58] :=
    List.take_of_length_le (by rw [List.length_append]; exact hkey.2)
  rw [textBehindKey, ConfigScan.findKey, hpattern]
  obtain ⟨rest, hfirst, heq⟩ | ⟨hnone, heq⟩ := strstr_cases text (key ++ [58])
  · refine .inl ⟨rest, hfirst, ?_⟩
    rw [heq, Option.bind_some, List.append_assoc]
    exact congrArg (Option.map List.tail) (strchr_append hkey.1 rest)
  · refine .inr ⟨hnone, ?_⟩
    rw [heq]
    rfl

theorem textBehindKey_some (hkey : ShortKey key) :
    textBehindKey text key = some rest ↔ BehindKey text key rest := by
  obtain ⟨rest', hrest', heq⟩ | ⟨hnone, heq⟩ := textBehindKey_cases hkey text
  · rw [heq, Option.some_inj]
    exact ⟨fun h => h ▸ hrest', fun h => afterFirst_unique hrest' h⟩
  · rw [heq]
    exact iff_of_false (Option.some_ne_none _).symm fun h => hnone (afterFirst_occurs h)

theorem textBehindKey_none (hkey : ShortKey key) :
    textBehindKey text key = none ↔ NoKey text key := by
  obtain ⟨rest, hrest, heq⟩ | ⟨hnone, heq⟩ := textBehindKey_cases hkey text
  · rw [heq]
    exact iff_of_false (Option.some_ne_none _) fun h => h (afterFirst_occurs hrest)
  · exact iff_of_true heq hnone

theorem blank_takeWhile (text : List UInt8) : Blank (text.takeWhile isspace) :=
  fun c hc => List.all_eq_true.mp List.all_takeWhile c hc

/-! ### Booleans -/

theorem dropWhile_word {blanks : List UInt8} (hblanks : Blank blanks) (b : Bool)
    (rest : List UInt8) :
    (blanks ++ (boolWord b ++ rest)).dropWhile isspace = boolWord b ++ rest := by
  rw [List.dropWhile_append_of_pos hblanks]
  cases b <;> rfl

theorem word_of_startsWith {b : Bool}
    (h : startsWith (rest.dropWhile isspace) (boolWord b) = true) :
    ∃ blanks after, Blank blanks ∧ rest = blanks ++ (boolWord b ++ after) := by
  obtain ⟨after, hafter⟩ := startsWith_iff.mp h
  refine ⟨rest.takeWhile isspace, after, blank_takeWhile rest, ?_⟩
  rw [hafter, List.takeWhile_append_dropWhile]

theorem not_startsWith {b : Bool}
    (h : ∀ b blanks after, Blank blanks → rest ≠ blanks ++ (boolWord b ++ after)) :
    startsWith (rest.dropWhile isspace) (boolWord b) = false := by
  refine eq_false_of_ne_true fun hstarts => ?_
  obtain ⟨blanks, after, hblanks, hrest⟩ := word_of_startsWith hstarts
  exact h b blanks after hblanks hrest

/-- `parse_bool_key` returns what the text spells. -/
theorem parseBoolKey_iff (hkey : ShortKey key) {current v : Bool} :
    parseBoolKey text key current = v ↔ BoolSpelled text key current v := by
  constructor
  · rintro rfl
    obtain ⟨rest, hrest, heq⟩ | ⟨hnone, heq⟩ := textBehindKey_cases hkey text
    · simp only [parseBoolKey, heq]
      split
      case isTrue hstarts =>
        obtain ⟨blanks, after, hblanks, rfl⟩ := word_of_startsWith (b := true) hstarts
        exact .word hrest hblanks
      case isFalse htrue =>
        split
        case isTrue hstarts =>
          obtain ⟨blanks, after, hblanks, rfl⟩ := word_of_startsWith (b := false) hstarts
          exact .word hrest hblanks
        case isFalse hfalse =>
          refine .other hrest ?_
          rintro b blanks after hblanks rfl
          rw [dropWhile_word hblanks] at htrue hfalse
          cases b with
          | true => exact htrue (startsWith_iff.mpr ⟨after, rfl⟩)
          | false => exact hfalse (startsWith_iff.mpr ⟨after, rfl⟩)
    · rw [parseBoolKey, heq]
      exact .absent hnone
  · intro h
    cases h with
    | absent hnone => rw [parseBoolKey, (textBehindKey_none hkey).mpr hnone]
    | word hrest hblanks =>
      simp only [parseBoolKey, (textBehindKey_some hkey).mpr hrest, dropWhile_word hblanks]
      cases v <;> rfl
    | @other rest hrest hother =>
      have htrue : startsWith (rest.dropWhile isspace) (ascii "true") = false :=
        not_startsWith (b := true) hother
      have hfalse : startsWith (rest.dropWhile isspace) (ascii "false") = false :=
        not_startsWith (b := false) hother
      simp only [parseBoolKey, (textBehindKey_some hkey).mpr hrest, htrue, hfalse,
        Bool.false_eq_true, if_false]

/-! ### Integers -/

theorem noDigit_dropWhile (text : List UInt8) : NoDigit (text.dropWhile isDecimal) := by
  induction text with
  | nil => exact fun _ _ h => nomatch h
  | cons a text ih =>
    rw [List.dropWhile_cons]
    split
    case isTrue => exact ih
    case isFalse ha =>
      rintro _ _ ⟨⟩
      exact eq_false_of_ne_true ha

/-- `parse_int_key` returns what the text spells. -/
theorem parseIntKey_iff (hkey : ShortKey key) {current v : Int32} :
    parseIntKey text key current = v ↔ IntSpelled text key current v := by
  constructor
  · rintro rfl
    obtain ⟨rest, hrest, heq⟩ | ⟨hnone, heq⟩ := textBehindKey_cases hkey text
    · rw [parseIntKey, heq]
      by_cases hnumber : ∃ blanks sign c after, Blank blanks ∧ isDecimal c = true ∧
          rest = blanks ++ (signText sign ++ c :: after)
      · obtain ⟨blanks, sign, c, after, hblanks, hc, rfl⟩ := hnumber
        have hdigits : ∀ d ∈ (c :: after).takeWhile isDecimal, isDecimal d = true :=
          fun d hd => List.all_eq_true.mp List.all_takeWhile d hd
        have hne : (c :: after).takeWhile isDecimal ≠ [] := by
          rw [List.takeWhile_cons_of_pos hc]
          exact List.cons_ne_nil _ _
        have hsplit := (List.takeWhile_append_dropWhile (p := isDecimal) (l := c :: after)).symm
        rw [hsplit] at hrest ⊢
        simp only [strtol_ten hblanks sign hne hdigits (noDigit_dropWhile _)]
        exact .number sign hrest hblanks hne hdigits (noDigit_dropWhile _)
      · have hother : ∀ blanks sign c after, Blank blanks → isDecimal c = true →
            rest ≠ blanks ++ (signText sign ++ c :: after) :=
          fun blanks sign c after hblanks hc h =>
            hnumber ⟨blanks, sign, c, after, hblanks, hc, h⟩
        simp only [strtol_ten_none hother]
        exact .other hrest hother
    · rw [parseIntKey, heq]
      exact .absent hnone
  · intro h
    cases h with
    | absent hnone => rw [parseIntKey, (textBehindKey_none hkey).mpr hnone]
    | number sign hrest hblanks hne hdigits hend =>
      simp only [parseIntKey, (textBehindKey_some hkey).mpr hrest,
        strtol_ten hblanks sign hne hdigits hend]
    | other hrest hother =>
      simp only [parseIntKey, (textBehindKey_some hkey).mpr hrest, strtol_ten_none hother]
      rfl

/-! ### Strings -/

theorem parseStringKey_quoted (hkey : ShortKey key) {before content : List UInt8}
    (hrest : BehindKey text key (before ++ 34 :: (content ++ 34 :: rest))) (hbefore : 34 ∉ before)
    (hcontent : 34 ∉ content) (dest : List UInt8) (destSize : Nat) :
    parseStringKey text key dest destSize = content.take (destSize - 1) := by
  have hall : ∀ c ∈ content, (c != 34) = true := by
    intro c hc
    exact bne_iff_ne.mpr fun h => hcontent (h ▸ hc)
  have htake : (content ++ 34 :: rest).takeWhile (· != 34) = content := by
    rw [List.takeWhile_append_of_pos hall]
    exact List.append_nil content
  simp only [parseStringKey, (textBehindKey_some hkey).mpr hrest, Option.bind_some,
    strchr_append hbefore, List.tail_cons, strchr_append hcontent, htake]

/-- Two quotes, or fewer. -/
theorem quotes_cases (rest : List UInt8) :
    rest.count 34 < 2 ∨ ∃ before content after,
      rest = before ++ 34 :: (content ++ 34 :: after) ∧ 34 ∉ before ∧ 34 ∉ content := by
  obtain hopen | ⟨before, behind, rfl, hbefore⟩ := split_at 34 rest
  · exact .inl (by rw [List.count_eq_zero_of_not_mem hopen]; exact Nat.zero_lt_two)
  · obtain hclose | ⟨content, after, rfl, hcontent⟩ := split_at 34 behind
    · refine .inl ?_
      rw [List.count_append, List.count_cons_self, List.count_eq_zero_of_not_mem hbefore,
        List.count_eq_zero_of_not_mem hclose]
      exact Nat.one_lt_two
    · exact .inr ⟨before, content, after, rfl, hbefore, hcontent⟩

theorem parseStringKey_unquoted (hkey : ShortKey key) (hrest : BehindKey text key rest)
    (hcount : rest.count 34 < 2) (dest : List UInt8) (destSize : Nat) :
    parseStringKey text key dest destSize = dest := by
  rw [parseStringKey, (textBehindKey_some hkey).mpr hrest, Option.bind_some]
  obtain hopen | ⟨before, behind, rfl, hbefore⟩ := split_at 34 rest
  · rw [strchr_none hopen]
  · rw [List.count_append, List.count_cons_self] at hcount
    have hclose : 34 ∉ behind := List.count_eq_zero.mp (by omega)
    simp only [strchr_append hbefore, List.tail_cons, strchr_none hclose]

/-- `parse_string_key` writes what the text spells. -/
theorem parseStringKey_iff (hkey : ShortKey key) {current v : List UInt8} {destSize : Nat} :
    parseStringKey text key current destSize = v ↔
      StringSpelled text key current destSize v := by
  constructor
  · rintro rfl
    obtain ⟨rest, hrest, -⟩ | ⟨hnone, heq⟩ := textBehindKey_cases hkey text
    · obtain hcount | ⟨before, content, after, rfl, hbefore, hcontent⟩ := quotes_cases rest
      · rw [parseStringKey_unquoted hkey hrest hcount]
        exact .other hrest hcount
      · rw [parseStringKey_quoted hkey hrest hbefore hcontent]
        exact .quoted hrest hbefore hcontent
    · rw [parseStringKey, heq]
      exact .absent hnone
  · intro h
    cases h with
    | absent hnone => rw [parseStringKey, (textBehindKey_none hkey).mpr hnone]; rfl
    | quoted hrest hbefore hcontent =>
      exact parseStringKey_quoted hkey hrest hbefore hcontent current destSize
    | other hrest hcount => exact parseStringKey_unquoted hkey hrest hcount current destSize

end ConfigLoadLemmas

open Json5Lemmas ConfigLoadLemmas

/-! ## The basic fields -/

/-- The fields that the README promises for the scanner. -/
@[ext]
structure BasicConfig where
  enabled : Bool
  localIp : List UInt8
  localPort : Int32
  commonAddress : Int32
  maxOpenConnections : Int32
  k : Int32
  w : Int32
  t0Seconds : Int32
  t1Seconds : Int32
  t2Seconds : Int32
  t3Seconds : Int32
deriving DecidableEq

def Iec104Config.basic (config : Iec104Config) : BasicConfig where
  enabled := config.enabled
  localIp := config.localIp
  localPort := config.localPort
  commonAddress := config.commonAddress
  maxOpenConnections := config.maxOpenConnections
  k := config.k
  w := config.w
  t0Seconds := config.t0Seconds
  t1Seconds := config.t1Seconds
  t2Seconds := config.t2Seconds
  t3Seconds := config.t3Seconds

namespace ConfigLoadLemmas

theorem loaded (jc : JsonC) {text : List UInt8} {root : Json}
    (h : jc.parse (preprocessJson5 text) = some root) :
    (configLoadFile (some jc) (some text)).1 = readSections root configInitDefaults := by
  rw [configLoadFile, Option.bind_some, loadWithJsonC, h, Option.map_some]

end ConfigLoadLemmas

/-- The tree of a text of the dialect that json-c accepts is the value of the text. -/
theorem accepted_tree (jc : JsonC) {t : Json5Text} (hdepth : t.value.depth ≤ 128)
    (hjson : t.JsonSpaces ∧ t.JsonStrings) {root : Json}
    (h : jc.parse (preprocessJson5 t.text) = some root) : root = t.value :=
  jc.reads (strict_of_json hdepth hjson) h

/-- The reader of strict JSON, as one that json-c could be. -/
noncomputable def strictJsonC : JsonC where
  parse := strictRead
  reads h hread := denotesStrictly_unique (strictRead_eq_some.mp hread) h

theorem strictJsonC_parse {t : Json5Text} (hdepth : t.value.depth ≤ 128)
    (hjson : t.JsonSpaces ∧ t.JsonStrings) :
    strictJsonC.parse (preprocessJson5 t.text) = some t.value :=
  strictRead_eq_some.mpr (strict_of_json hdepth hjson)

/-- The literal `20`: the first digit is one above its index. -/
def literalTwenty : Number :=
  ⟨false, .positive ⟨1, Nat.succ_lt_succ (Nat.succ_pos 7)⟩ [⟨0, Nat.succ_pos 9⟩], none, none⟩

def bareKey (first : UInt8) (rest : List UInt8)
    (h : isJson5KeyStart first = true ∧ rest.all isJson5KeyChar = true) : Json5Key :=
  .bare first rest h.1 h.2

/-- A key in a comment, before an empty object. -/
def commentedKeyJson5 : Json5Text where
  lead := [.block (ascii "k:1") (by decide)]
  tree := .emptyObject []
  trail := []
  comment := none

/-- A member with its key in quotes, as in every strict JSON file. -/
def quotedKeyJson5 : Json5Text where
  lead := []
  tree := .object (.lastMember [] (bareKey 105 (ascii "ec104") (by decide)) [] []
    (.object (.lastMember [] (bareKey 97 (ascii "pci") (by decide)) [] []
      (.object (.lastMember [] (.quoted [.raw 107 (by decide)]) [] []
        (.atom (.number literalTwenty)) ⟨[], none⟩)) ⟨[], none⟩))
    ⟨[], none⟩)
  trail := []
  comment := none

/-- The scanner reads the comment and does not see the quoted key. -/
theorem basic_fields_misread :
    commentedKeyJson5.text = ascii "/*k:1*/\x7b\x7d" ∧
      (configLoadFile none (some commentedKeyJson5.text)).1.k = 1 ∧
      (configLoadFile (some strictJsonC) (some commentedKeyJson5.text)).1.k = 12 ∧
      quotedKeyJson5.text = ascii "\x7biec104:\x7bapci:\x7b\"k\":20\x7d\x7d\x7d" ∧
      (configLoadFile none (some quotedKeyJson5.text)).1.k = 12 ∧
      (configLoadFile (some strictJsonC) (some quotedKeyJson5.text)).1.k = 20 := by
  have hcomment := strictJsonC_parse (t := commentedKeyJson5) (by decide)
    (by simp [Json5Text.JsonSpaces, Json5Text.JsonStrings, commentedKeyJson5, Syn.All, JsonGap])
  have hquoted := strictJsonC_parse (t := quotedKeyJson5) (by decide)
    (by simp [Json5Text.JsonSpaces, Json5Text.JsonStrings, quotedKeyJson5, bareKey, Syn.All,
      JsonGap, JsonClosing, Json5Key.Strict, Atom.Strict, StrictString, StrUnit.Strict])
  rw [loaded strictJsonC hcomment, loaded strictJsonC hquoted]
  refine ⟨by decide, by decide, by decide, by decide, by decide, by decide⟩

/-! ## Keys before their own values -/

/-- The first `key:` stands directly before the literal of the member, or the text has no
`key:` and the section no such member. -/
inductive OwnBool (text key : List UInt8) : Option Json → Prop
  | absent {member : Option Json} :
      NoKey text key → (∀ b, member ≠ some (.atom (.bool b))) → OwnBool text key member
  | literal {b : Bool} {blanks rest : List UInt8} :
      BehindKey text key (blanks ++ (boolWord b ++ rest)) → Blank blanks →
      OwnBool text key (some (.atom (.bool b)))

/-- As `OwnBool`, for an integer literal that fits an `int`. -/
inductive OwnInt (text key : List UInt8) : Option Json → Prop
  | absent {member : Option Json} :
      NoKey text key → (∀ n, member ≠ some (.atom (.number n))) → OwnInt text key member
  | literal {n : Number} {blanks rest : List UInt8} :
      BehindKey text key (blanks ++ (n.text ++ rest)) → Blank blanks → NoDigit rest →
      isJsonInt n = true → -2 ^ 31 ≤ jsonIntValue n → jsonIntValue n < 2 ^ 31 →
      OwnInt text key (some (.atom (.number n)))

/-- As `OwnBool`, for a string literal without escapes. -/
inductive OwnString (text key : List UInt8) : Option Json → Prop
  | absent {member : Option Json} :
      NoKey text key → (∀ content, member ≠ some (.atom (.string content))) →
      OwnString text key member
  | literal {content blanks rest : List UInt8} :
      BehindKey text key (blanks ++ 34 :: (content ++ 34 :: rest)) → Blank blanks →
      (∀ c ∈ content, isRaw c = true) → OwnString text key (some (.atom (.string content)))

/-- An integer member of a section. -/
def OwnIntKey (text : List UInt8) (parent : Option Json) (key : String) : Prop :=
  OwnInt text (ascii key) (jsonGetObj parent (ascii key))

/-- The address plan leaves the address as it is: the server's is not 1, or the plan has no
other one. -/
def SameAddressPlan (root : Json) : Prop :=
  (∃ n, jsonGetObj (jsonSection root ["iec104", "server"]) (ascii "common_address") =
      some (.atom (.number n)) ∧ isJsonInt n = true ∧ jsonIntValue n ≠ 1) ∨
    ∀ n, jsonGetObj (jsonSection root ["point_table", "address_plan"]) (ascii "common_address") =
      some (.atom (.number n)) → isJsonInt n = true → jsonIntValue n = 1

/-- Each basic key stands before its own value. -/
structure OwnKeys (text : List UInt8) (root : Json) : Prop where
  enabled : OwnBool text (ascii "enabled")
    (jsonGetObj (jsonSection root ["iec104", "server"]) (ascii "enabled"))
  localIp : OwnString text (ascii "local_ip")
    (jsonGetObj (jsonSection root ["iec104", "server"]) (ascii "local_ip"))
  localPort : OwnIntKey text (jsonSection root ["iec104", "server"]) "local_port"
  commonAddress : OwnIntKey text (jsonSection root ["iec104", "server"]) "common_address"
  addressPlan : SameAddressPlan root
  maxOpenConnections :
    OwnIntKey text (jsonSection root ["iec104", "server"]) "max_open_connections"
  k : OwnIntKey text (jsonSection root ["iec104", "apci"]) "k"
  w : OwnIntKey text (jsonSection root ["iec104", "apci"]) "w"
  t0Seconds : OwnIntKey text (jsonSection root ["iec104", "apci"]) "t0_seconds"
  t1Seconds : OwnIntKey text (jsonSection root ["iec104", "apci"]) "t1_seconds"
  t2Seconds : OwnIntKey text (jsonSection root ["iec104", "apci"]) "t2_seconds"
  t3Seconds : OwnIntKey text (jsonSection root ["iec104", "apci"]) "t3_seconds"

namespace ConfigLoadLemmas

variable {text key : List UInt8} {parent : Option Json}

theorem boolSpelled_of_own (h : OwnBool text key (jsonGetObj parent key)) (current : Bool) :
    BoolSpelled text key current (jsonReadBool parent key current) := by
  rw [jsonReadBool]
  generalize jsonGetObj parent key = member at h
  cases h with
  | absent hnone hmember =>
    split
    case h_1 b => exact absurd rfl (hmember b)
    case h_2 => exact .absent hnone
  | literal hrest hblanks => exact .word hrest hblanks

theorem intText {n : Number} (hint : isJsonInt n = true) :
    n.text = signText (if n.negative then some true else none) ++ n.int.digits.map digitByte := by
  obtain ⟨hfraction, hexponent⟩ := Bool.and_eq_true_iff.mp hint
  rw [Number.text, Option.isNone_iff_eq_none.mp hfraction, Option.isNone_iff_eq_none.mp hexponent]
  cases n.negative <;> simp [signText]

theorem digits_ne_nil (d : IntDigits) : d.digits.map digitByte ≠ [] := by
  cases d <;> exact List.cons_ne_nil _ _

theorem digits_decimal (d : IntDigits) : ∀ c ∈ d.digits.map digitByte, isDecimal c = true :=
  forall_mem_digits (by decide) d.digits

theorem clampLong_int {i : Int} (hlow : -2 ^ 31 ≤ i) (hhigh : i < 2 ^ 31) :
    clampLong i = max (-2 ^ 31) (min (2 ^ 31 - 1) i) := by
  rw [clampLong]
  omega

theorem intSpelled_of_own (h : OwnInt text key (jsonGetObj parent key)) (current : Int32) :
    IntSpelled text key current (jsonReadInt parent key current) := by
  rw [jsonReadInt]
  generalize jsonGetObj parent key = member at h
  cases h with
  | absent hnone hmember =>
    split
    case h_1 n => exact absurd rfl (hmember n)
    case h_2 => exact .absent hnone
  | @literal n blanks rest hrest hblanks hend hint hlow hhigh =>
    rw [intText hint, List.append_assoc] at hrest
    simp only [hint, if_true, jsonObjectGetInt, ← clampLong_int hlow hhigh]
    exact .number _ hrest hblanks (digits_ne_nil n.int) (digits_decimal n.int) hend

theorem stringSpelled_of_own (h : OwnString text key (jsonGetObj parent key))
    (current : List UInt8) (destSize : Nat) :
    StringSpelled text key current destSize (jsonReadString parent key current destSize) := by
  rw [jsonReadString]
  generalize jsonGetObj parent key = member at h
  cases h with
  | absent hnone hmember =>
    split
    case h_1 content => exact absurd rfl (hmember content)
    case h_2 => exact .absent hnone
  | @literal content blanks rest hrest hblanks hraw =>
    have hbefore : 34 ∉ blanks := fun hmem => absurd (hblanks 34 hmem) (by decide)
    have hcontent : 34 ∉ content := fun hmem => absurd (hraw 34 hmem) (by decide)
    have hzero : ∀ c ∈ content, (c != 0) = true := by
      intro c hc
      refine bne_iff_ne.mpr ?_
      rintro rfl
      exact absurd (hraw 0 hc) (by decide)
    have hwhole : (content ++ []).takeWhile (· != 0) = content ++ [] :=
      List.takeWhile_append_of_pos hzero
    rw [List.append_nil] at hwhole
    simp only [hwhole]
    exact .quoted hrest hbefore hcontent

theorem jsonObjectGetInt_one {n : Number} : jsonObjectGetInt n = 1 ↔ jsonIntValue n = 1 := by
  have hvalue : (jsonObjectGetInt n).toInt = max (-2 ^ 31) (min (2 ^ 31 - 1) (jsonIntValue n)) :=
    Int32.toInt_ofInt_of_le (by omega) (by omega)
  rw [← Int32.toInt_inj, hvalue, show (1 : Int32).toInt = 1 from rfl]
  omega

theorem readCommonAddress_own {root : Json} (h : SameAddressPlan root) :
    readCommonAddress root 1 =
      jsonReadInt (jsonSection root ["iec104", "server"]) (ascii "common_address") 1 := by
  simp only [readCommonAddress]
  split
  case isFalse => rfl
  case isTrue hone =>
    rw [hone]
    rcases h with ⟨n, hmember, hint, hvalue⟩ | hplan
    · -- the server has an integer, and it is not 1
      rw [jsonReadInt, hmember] at hone
      simp only [hint, if_true] at hone
      exact absurd (jsonObjectGetInt_one.mp hone) hvalue
    · rw [jsonReadInt]
      split
      case h_1 n hmember =>
        split
        case isTrue hint => exact jsonObjectGetInt_one.mpr (hplan n hmember hint)
        case isFalse => rfl
      case h_2 => rfl

end ConfigLoadLemmas

/-- For every text that json-c accepts, with the tree `root`: when each basic key stands
directly before its own value, both loaders give the same basic fields. -/
theorem own_keys_agree (jc : JsonC) (text : List UInt8) (root : Json)
    (haccepted : jc.parse (preprocessJson5 text) = some root) (hown : OwnKeys text root) :
    (configLoadFile none (some text)).1.basic =
      (configLoadFile (some jc) (some text)).1.basic := by
  rw [loaded jc haccepted]
  have hint : ∀ {parent : Option Json} {key : String}, OwnIntKey text parent key →
      ShortKey (ascii key) → ∀ current,
      parseIntKey text (ascii key) current = jsonReadInt parent (ascii key) current :=
    fun h hkey current => (parseIntKey_iff hkey).mpr (intSpelled_of_own h current)
  ext1
  case enabled => exact (parseBoolKey_iff (by decide)).mpr (boolSpelled_of_own hown.enabled _)
  case localIp =>
    exact (parseStringKey_iff (by decide)).mpr (stringSpelled_of_own hown.localIp _ _)
  case commonAddress =>
    exact (hint hown.commonAddress (by decide) _).trans
      (readCommonAddress_own hown.addressPlan).symm
  case localPort => exact hint hown.localPort (by decide) _
  case maxOpenConnections => exact hint hown.maxOpenConnections (by decide) _
  case k => exact hint hown.k (by decide) _
  case w => exact hint hown.w (by decide) _
  case t0Seconds => exact hint hown.t0Seconds (by decide) _
  case t1Seconds => exact hint hown.t1Seconds (by decide) _
  case t2Seconds => exact hint hown.t2Seconds (by decide) _
  case t3Seconds => exact hint hown.t3Seconds (by decide) _

/-- Bare keys, each before its own value. -/
def bareKeysJson5 : Json5Text where
  lead := []
  tree := .object (.lastMember [] (bareKey 105 (ascii "ec104") (by decide)) [] []
    (.object (.member [] (bareKey 115 (ascii "erver") (by decide)) [] []
      (.object (.lastMember [] (bareKey 101 (ascii "nabled") (by decide))
        [] [.space 9 (by decide)] (.atom (.bool false)) ⟨[], some []⟩)) []
      (.lastMember [] (bareKey 97 (ascii "pci") (by decide)) [] []
        (.object (.lastMember [] (bareKey 107 [] (by decide)) [] [.space 9 (by decide)]
          (.atom (.number literalTwenty)) ⟨[], none⟩)) ⟨[], none⟩)))
    ⟨[], none⟩)
  trail := []
  comment := none

theorem bareKeys_json : bareKeysJson5.JsonSpaces ∧ bareKeysJson5.JsonStrings := by
  have hblank : ∀ b, isspace b = true → 9 = b → isJsonSpace b = true := by
    rintro _ - rfl
    decide
  constructor
  · simpa [Json5Text.JsonSpaces, bareKeysJson5, Syn.All, JsonGap, JsonClosing] using hblank
  · simp [Json5Text.JsonStrings, bareKeysJson5, bareKey, Syn.All, Json5Key.Strict, Atom.Strict]

theorem ownIntKey_absent {text : List UInt8} {parent : Option Json} {key : String}
    (hkey : ShortKey (ascii key)) (htext : textBehindKey text (ascii key) = none)
    (hmember : jsonGetObj parent (ascii key) = none) : OwnIntKey text parent key := by
  refine .absent ((textBehindKey_none hkey).mp htext) fun n h => ?_
  cases hmember.symm.trans h

theorem bareKeys_enabled :
    OwnBool bareKeysJson5.text (ascii "enabled") (some (.atom (.bool false))) := by
  have hrest : BehindKey bareKeysJson5.text (ascii "enabled")
      ([9] ++ (boolWord false ++ ascii ",\x7d,apci:\x7bk:\t20\x7d\x7d\x7d")) :=
    (textBehindKey_some (by decide)).mp (by decide)
  exact .literal hrest (List.forall_mem_singleton.mpr rfl)

theorem bareKeys_k :
    OwnInt bareKeysJson5.text (ascii "k") (some (.atom (.number literalTwenty))) := by
  have hrest : BehindKey bareKeysJson5.text (ascii "k")
      ([9] ++ (literalTwenty.text ++ ascii "\x7d\x7d\x7d")) :=
    (textBehindKey_some (by decide)).mp (by decide)
  refine .literal hrest (List.forall_mem_singleton.mpr rfl) ?_ rfl (by decide) (by decide)
  rintro _ _ ⟨⟩
  rfl

theorem bareKeys_own : OwnKeys bareKeysJson5.text bareKeysJson5.value where
  enabled := bareKeys_enabled
  localIp := .absent ((textBehindKey_none (by decide)).mp (by decide)) fun n h => by cases h
  localPort := ownIntKey_absent (by decide) (by decide) rfl
  commonAddress := ownIntKey_absent (by decide) (by decide) rfl
  addressPlan := .inr fun n h => by cases h
  maxOpenConnections := ownIntKey_absent (by decide) (by decide) rfl
  k := bareKeys_k
  w := ownIntKey_absent (by decide) (by decide) rfl
  t0Seconds := ownIntKey_absent (by decide) (by decide) rfl
  t1Seconds := ownIntKey_absent (by decide) (by decide) rfl
  t2Seconds := ownIntKey_absent (by decide) (by decide) rfl
  t3Seconds := ownIntKey_absent (by decide) (by decide) rfl

theorem bare_keys_agree :
    bareKeysJson5.text =
        ascii "\x7biec104:\x7bserver:\x7benabled:\tfalse,\x7d,apci:\x7bk:\t20\x7d\x7d\x7d" ∧
      strictJsonC.parse (preprocessJson5 bareKeysJson5.text) = some bareKeysJson5.value ∧
      (configLoadFile none (some bareKeysJson5.text)).1.basic =
        (configLoadFile (some strictJsonC) (some bareKeysJson5.text)).1.basic ∧
      (configLoadFile none (some bareKeysJson5.text)).1.k = 20 := by
  have hparse := strictJsonC_parse (by decide) bareKeys_json
  exact ⟨by decide, hparse, own_keys_agree strictJsonC _ _ hparse bareKeys_own, by decide⟩

end Iec104Slave
