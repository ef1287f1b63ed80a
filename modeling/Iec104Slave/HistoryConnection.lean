import Iec104Slave.HistoryStore
import Iec104Slave.Json5
import Iec104Slave.Lib.Traced

/-!
# The database connection of the history store (`history_store.c`)

The store keeps a connection of one of two database libraries, and two flags: `connected`,
and `schema_ready` once the SOE table has been created. Every statement connects again if it
has to. The write of a record does so only while the schema is not ready: after that it trusts
the flag and passes the handle of the store to the library.

The libraries are outside of this development. Each of their functions may fail at every call;
the only thing assumed of them (`DbAnswer.Given`) is that an open of SQLite that reports success
hands out a handle, which `sqlite_connect_store` does not test. The texts of the statements are
left out, since no answer is assumed to depend on them.

Results:
1. `connect_spec`, `ensureSchema_spec`, `writeSoeLocked_spec`, …: one specification for each
   function, in the triples of `Traced`.
2. `soe_write_handle_present`: whatever else the library answers, `schema_ready` means a connection
   with a handle in every reachable state, and no function gets a missing handle.
-/

namespace Iec104Slave

open Traced

/-! ## The libraries -/

/-- The functions of the two libraries that are called, but for those that only bind a value
or read a column of a statement. -/
inductive DbFunction
  | mysqlInit
  | mysqlOptions
  | mysqlRealConnect
  | mysqlSetCharacterSet
  | mysqlPing
  | mysqlError
  | mysqlClose
  | mysqlRealQuery
  | mysqlStmtInit
  | mysqlStmtPrepare
  | mysqlStmtBindParam
  | mysqlStmtExecute
  | mysqlStmtBindResult
  | mysqlStmtFetch
  | mysqlStmtClose
  | sqlite3OpenV2
  | sqlite3BusyTimeout
  | sqlite3Exec
  | sqlite3Errmsg
  | sqlite3Close
  | sqlite3PrepareV2
  | sqlite3Step
  | sqlite3Finalize
deriving DecidableEq

/-- The function takes a connection handle. The others open one, or take a statement. -/
def DbFunction.takesHandle : DbFunction → Bool
  | .mysqlOptions | .mysqlRealConnect | .mysqlSetCharacterSet | .mysqlPing | .mysqlError
  | .mysqlClose | .mysqlRealQuery | .mysqlStmtInit | .sqlite3BusyTimeout | .sqlite3Exec
  | .sqlite3Errmsg | .sqlite3Close | .sqlite3PrepareV2 => true
  | _ => false

/-- A call, and the handle that it passes: `none` is `NULL`. -/
structure DbCall where
  function : DbFunction
  handle : Option Nat
deriving DecidableEq

/-- What a call gives back: whether it reports success, and a pointer. -/
structure DbAnswer where
  ok : Bool
  pointer : Option Nat

/-- What is assumed of an answer to a call: a successful open hands out a handle. -/
def DbAnswer.Given (c : DbCall) (answer : DbAnswer) : Prop :=
  c.function = .sqlite3OpenV2 → answer.ok = true → answer.pointer ≠ none

/-! ## The store -/

/-- The configuration with the further fields that the connection reads, and which libraries
are built in. -/
structure DbConfig extends HistoryStoreConfig where
  haveMariadb : Bool
  haveSqlite : Bool
  charset : List UInt8
  sqliteBusyTimeoutMs : Int
  sqliteJournalMode : List UInt8
  sqliteSynchronous : List UInt8
  soeTable : List UInt8
  yxTable : List UInt8
  ycTable : List UInt8
  ddTable : List UInt8

/-- The connection of a `HistoryStore`. -/
structure StoreConnection where
  mysql : Option Nat
  sqlite : Option Nat
  connected : Bool
  schemaReady : Bool
deriving DecidableEq

/-- After the `memset` of `history_store_init`. -/
def StoreConnection.empty : StoreConnection where
  mysql := none
  sqlite := none
  connected := false
  schemaReady := false

/-- A function of the store. -/
abbrev DbM : Type → Type := Prog StoreConnection DbCall DbAnswer

def dbCall (function : DbFunction) (handle : Option Nat) : DbM DbAnswer :=
  call ⟨function, handle⟩

/-- `valid_identifier`, and `valid_pragma_token`. -/
def validIdentifier (name : List UInt8) : Bool :=
  !name.isEmpty && name.all fun c => isalpha c || isdigit c || c == 95

/-! ## Connecting -/

/-- The first test of `mysql_connect_store`. -/
def mysqlAlive : DbM Bool := do
  let store ← read
  if store.connected && store.mysql.isSome then do
    let ping ← dbCall .mysqlPing store.mysql
    pure ping.ok
  else pure false

/-- `mysql_connect_store` gives up a connection that does not answer. -/
def mysqlDrop : DbM Unit := do
  let store ← read
  if store.mysql.isSome then do
    let _ ← dbCall .mysqlClose store.mysql
    update fun store => { store with mysql := none, connected := false, schemaReady := false }
  else pure ()

/-- The three timeouts, the reconnect flag and the check of the certificate. -/
def mysqlSetOptions (mysql : Nat) : DbM Unit :=
  each (fun _ => do let _ ← dbCall .mysqlOptions (some mysql)) (List.range 5)

/-- A failure is only logged. -/
def mysqlSetCharset (config : DbConfig) (mysql : Nat) : DbM Unit :=
  if config.charset.isEmpty then pure ()
  else do
    let set ← dbCall .mysqlSetCharacterSet (some mysql)
    if set.ok then pure ()
    else do let _ ← dbCall .mysqlError (some mysql)

/-- The rest of `mysql_connect_store`: a new connection. -/
def mysqlOpen (config : DbConfig) : DbM Bool := do
  let init ← dbCall .mysqlInit none
  match init.pointer with
  | none => pure false
  | some mysql => do
    mysqlSetOptions mysql
    let connect ← dbCall .mysqlRealConnect (some mysql)
    if connect.ok then do
      mysqlSetCharset config mysql
      update fun store => { store with mysql := some mysql, connected := true }
      pure true
    else do
      let _ ← dbCall .mysqlError (some mysql)
      let _ ← dbCall .mysqlClose (some mysql)
      pure false

def mysqlConnectStore (config : DbConfig) : DbM Bool := do
  let alive ← mysqlAlive
  if alive then pure true
  else do
    mysqlDrop
    mysqlOpen config

def sqliteExec : DbM Bool := do
  let store ← read
  let exec ← dbCall .sqlite3Exec store.sqlite
  if exec.ok then pure true
  else if exec.pointer.isSome then pure false
  else do
    let _ ← dbCall .sqlite3Errmsg store.sqlite
    pure false

def sqliteDrop : DbM Unit := do
  let store ← read
  if store.sqlite.isSome then do
    let _ ← dbCall .sqlite3Close store.sqlite
    update fun store => { store with sqlite := none, connected := false, schemaReady := false }
  else pure ()

/-- A `PRAGMA` of the configuration, whose failure is only logged. -/
def sqlitePragma (token : List UInt8) : DbM Unit :=
  if validIdentifier token then do
    let _ ← sqliteExec
  else pure ()

def sqliteSetBusyTimeout (config : DbConfig) (db : Option Nat) : DbM Unit :=
  if 0 < config.sqliteBusyTimeoutMs then do
    let _ ← dbCall .sqlite3BusyTimeout db
  else pure ()

/-- The rest of `sqlite_connect_store`: a new connection. -/
def sqliteOpen (config : DbConfig) : DbM Bool := do
  let opened ← dbCall .sqlite3OpenV2 none
  if opened.ok then do
    update fun store => { store with sqlite := opened.pointer, connected := true }
    sqliteSetBusyTimeout config opened.pointer
    sqlitePragma config.sqliteJournalMode
    sqlitePragma config.sqliteSynchronous
    pure true
  else
    match opened.pointer with
    | none => pure false
    | some db => do
      -- the handle of a failed open is only good for its message
      let _ ← dbCall .sqlite3Errmsg (some db)
      let _ ← dbCall .sqlite3Close (some db)
      pure false

def sqliteConnectStore (config : DbConfig) : DbM Bool := do
  let store ← read
  if store.connected && store.sqlite.isSome then pure true
  else do
    sqliteDrop
    sqliteOpen config

def historyStoreConnect (config : DbConfig) : DbM Bool :=
  if !config.enabled then pure false
  else
    match config.backend with
    | .mysql => if config.haveMariadb then mysqlConnectStore config else pure false
    | .sqlite => if config.haveSqlite then sqliteConnectStore config else pure false
    | .other => pure false

/-- `history_store_disconnect`. A handle of a library that is not built in is never set. -/
def historyStoreDisconnect : DbM Unit := do
  let store ← read
  each (fun mysql => do let _ ← dbCall .mysqlClose (some mysql)) store.mysql.toList
  each (fun sqlite => do let _ ← dbCall .sqlite3Close (some sqlite)) store.sqlite.toList
  update fun _ => .empty

/-! ## Statements -/

def mysqlQuery : DbM Bool := do
  let store ← read
  let query ← dbCall .mysqlRealQuery store.mysql
  if query.ok then pure true
  else do
    let _ ← dbCall .mysqlError store.mysql
    pure false

def execSql (config : DbConfig) : DbM Bool := do
  let connected ← historyStoreConnect config
  if connected then
    match config.backend with
    | .mysql => mysqlQuery
    | .sqlite => sqliteExec
    | .other => pure false
  else pure false

/-- Statements up to the first that fails. -/
def execAll (config : DbConfig) : Nat → DbM Bool
  | 0 => pure true
  | n + 1 => do
    let ok ← execSql config
    if ok then execAll config n else pure false

/-- The statements of `ensure_schema`: the table, and in SQLite its two indices. -/
def schemaStatements : HistoryBackend → Option Nat
  | .mysql => some 1
  | .sqlite => some 3
  | .other => none

/-- `ensure_schema` behind its tests. -/
def createSchema (config : DbConfig) : DbM Bool :=
  match schemaStatements config.backend with
  | none => pure false
  | some n => do
    let ok ← execAll config n
    if ok then do
      update fun store => { store with schemaReady := true }
      pure true
    else pure false

def ensureSchema (config : DbConfig) : DbM Bool := do
  let store ← read
  if store.schemaReady then pure true
  else if !config.soeEnabled then do
    update fun store => { store with schemaReady := true }
    pure true
  else if !validIdentifier config.soeTable then pure false
  else createSchema config

/-- `trim_soe_records`; its result is not read. -/
def trimSoe (config : DbConfig) : DbM Unit :=
  if config.soeMaxRecords ≤ 0 then pure ()
  else do let _ ← execSql config

/-! ## The write of a record -/

/-- `mysql_stmt_bind_param` and `mysql_stmt_execute`. -/
def mysqlStmtRun : DbM Bool := do
  let bind ← dbCall .mysqlStmtBindParam none
  if bind.ok then do
    let execute ← dbCall .mysqlStmtExecute none
    pure execute.ok
  else pure false

def writeSoeMysql (config : DbConfig) : DbM Bool := do
  let store ← read
  let stmt ← dbCall .mysqlStmtInit store.mysql
  if stmt.pointer.isNone then pure false
  else do
    let prepare ← dbCall .mysqlStmtPrepare none
    if !prepare.ok then do
      let _ ← dbCall .mysqlStmtClose none
      historyStoreDisconnect
      pure false
    else do
      let ok ← mysqlStmtRun
      let _ ← dbCall .mysqlStmtClose none
      if ok then do
        trimSoe config
        pure true
      else do
        historyStoreDisconnect
        pure false

def writeSoeSqlite (config : DbConfig) : DbM Bool := do
  let store ← read
  let prepare ← dbCall .sqlite3PrepareV2 store.sqlite
  if !prepare.ok then do
    let _ ← dbCall .sqlite3Errmsg store.sqlite
    historyStoreDisconnect
    pure false
  else do
    let step ← dbCall .sqlite3Step none
    if step.ok then do
      let _ ← dbCall .sqlite3Finalize none
      trimSoe config
      pure true
    else do
      let _ ← dbCall .sqlite3Errmsg store.sqlite
      let _ ← dbCall .sqlite3Finalize none
      pure false

/-- `history_store_write_soe_locked` for a record. -/
def writeSoeLocked (config : DbConfig) : DbM Bool :=
  if !config.enabled || !config.soeEnabled then pure false
  else do
    let schema ← ensureSchema config
    if schema then
      match config.backend with
      | .mysql => if config.haveMariadb then writeSoeMysql config else pure false
      | .sqlite => if config.haveSqlite then writeSoeSqlite config else pure false
      | .other => pure false
    else pure false

/-! ## The queries -/

/-- The fetch loop, for at most `n` rows; `sqlite` is the handle for an error message. The
answer of a fetch is a row if it is `ok`, and otherwise the end or, with a pointer, an error. -/
def fetchRows (backend : HistoryBackend) (sqlite : Option Nat) : Nat → DbM Unit
  | 0 => pure ()
  | n + 1 => do
    let row ← dbCall (if backend = .mysql then .mysqlStmtFetch else .sqlite3Step) none
    if row.ok then fetchRows backend sqlite n
    else if backend = .sqlite && row.pointer.isSome then do
      let _ ← dbCall .sqlite3Errmsg sqlite
    else pure ()

def queryMysql (limit : Nat) : DbM Unit := do
  let store ← read
  let stmt ← dbCall .mysqlStmtInit store.mysql
  if stmt.pointer.isNone then pure ()
  else do
    let prepare ← dbCall .mysqlStmtPrepare none
    if prepare.ok then do
      let ok ← mysqlStmtRun
      if ok then do
        let bind ← dbCall .mysqlStmtBindResult none
        fetchRows .mysql none (if bind.ok then limit else 0)
        let _ ← dbCall .mysqlStmtClose none
      else do let _ ← dbCall .mysqlStmtClose none
    else do let _ ← dbCall .mysqlStmtClose none

def querySqlite (limit : Nat) : DbM Unit := do
  let store ← read
  let prepare ← dbCall .sqlite3PrepareV2 store.sqlite
  if prepare.ok then do
    fetchRows .sqlite store.sqlite limit
    let _ ← dbCall .sqlite3Finalize none
  else do let _ ← dbCall .sqlite3Errmsg store.sqlite

/-- The part that the query functions share, from the connection on. -/
def queryRows (config : DbConfig) (maxRecords : Nat) : DbM Unit :=
  match config.backend with
  | .mysql =>
    if config.haveMariadb then queryMysql (applyQueryLimit config.toHistoryStoreConfig maxRecords)
    else pure ()
  | .sqlite =>
    if config.haveSqlite then querySqlite (applyQueryLimit config.toHistoryStoreConfig maxRecords)
    else pure ()
  | .other => pure ()

/-- `history_store_query_soe` into `maxRecords` records. -/
def queryHistorySoe (config : DbConfig) (maxRecords : Nat) : DbM Unit :=
  if !config.enabled || !config.soeEnabled || maxRecords == 0 then pure ()
  else do
    let connected ← historyStoreConnect config
    if connected then do
      let schema ← ensureSchema config
      if schema then queryRows config maxRecords else pure ()
    else pure ()

/-- The classes with a query, and a query by pages, of their own. -/
inductive PointClass
  | yx
  | yc
  | dd
deriving DecidableEq

def PointClass.enabled (config : DbConfig) : PointClass → Bool
  | .yx => config.yxEnabled
  | .yc => config.ycEnabled
  | .dd => config.ddEnabled

def PointClass.table (config : DbConfig) : PointClass → List UInt8
  | .yx => config.yxTable
  | .yc => config.ycTable
  | .dd => config.ddTable

/-- `history_store_query_yx`, `history_store_query_yx_page` and their siblings. -/
def queryHistoryPoints (config : DbConfig) (points : PointClass) (maxRecords : Nat) : DbM Unit :=
  if !config.enabled || !points.enabled config || maxRecords == 0 then pure ()
  else if !validIdentifier (points.table config) then pure ()
  else do
    let connected ← historyStoreConnect config
    if connected then queryRows config maxRecords else pure ()

/-! ## The calls of the store -/

/-- A call into the store. -/
inductive StoreCall
  | connect
  | disconnect
  | querySoe (maxRecords : Nat)
  | queryPoints (points : PointClass) (maxRecords : Nat)
  | writeSoe
deriving DecidableEq

def storeCall (config : DbConfig) : StoreCall → DbM Unit
  | .connect => do let _ ← historyStoreConnect config
  | .disconnect => historyStoreDisconnect
  | .querySoe maxRecords => queryHistorySoe config maxRecords
  | .queryPoints points maxRecords => queryHistoryPoints config points maxRecords
  | .writeSoe => do let _ ← writeSoeLocked config

/-- The part of `history_store_init` that opens the database. -/
def storeOpen (config : DbConfig) : DbM Unit :=
  if !config.enabled then pure ()
  else do
    let connected ← historyStoreConnect config
    if connected then do
      let _ ← ensureSchema config
    else pure ()

/-- The store is initialised, and then called. -/
def storeRun (config : DbConfig) (calls : List StoreCall) : DbM Unit := do
  storeOpen config
  each (storeCall config) calls

/-! ## The invariant -/

/-- The handle of the selected backend. -/
def StoreConnection.handle (config : DbConfig) (store : StoreConnection) : Option Nat :=
  match config.backend with
  | .mysql => store.mysql
  | .sqlite => store.sqlite
  | .other => none

/-- There is a connection. -/
def StoreConnection.Ready (config : DbConfig) (store : StoreConnection) : Prop :=
  store.connected = true ∧ store.handle config ≠ none

/-- `schema_ready` is never set without a connection. -/
def StoreConnection.Valid (config : DbConfig) (store : StoreConnection) : Prop :=
  store.schemaReady = true → store.Ready config

/-- The call passes a handle if its function takes one, and the store is valid. -/
def DbCall.Sound (config : DbConfig) (c : DbCall) (store : StoreConnection) : Prop :=
  (c.function.takesHandle = true → c.handle ≠ none) ∧ store.Valid config

/-- What a function that connects leaves behind. -/
def StoreConnection.Opened (config : DbConfig) (ok : Bool) (store : StoreConnection) : Prop :=
  store.Valid config ∧ (ok = true → store.Ready config)

/-! ## Specifications -/

namespace HistoryConnectionLemmas

open StoreConnection

variable {config : DbConfig} {α : Type} {P : StoreConnection → Prop}

/-- A triple of the store: all calls are sound, if the answers are as assumed. -/
def DbSpec (config : DbConfig) (P : StoreConnection → Prop) (m : DbM α)
    (Q : α → StoreConnection → Prop) : Prop :=
  Spec DbAnswer.Given (DbCall.Sound config) P m Q

theorem valid_of_ready {store : StoreConnection} (h : store.Ready config) : store.Valid config :=
  fun _ => h

theorem opened_of_ready {store : StoreConnection} {ok : Bool} (h : store.Ready config) :
    store.Opened config ok :=
  ⟨valid_of_ready h, fun _ => h⟩

theorem opened_false {store : StoreConnection} (h : store.Valid config) :
    store.Opened config false :=
  ⟨h, fun hf => absurd hf Bool.false_ne_true⟩

theorem pure_opened_false (hP : ∀ s, P s → s.Valid config) :
    DbSpec config P (pure false) (Opened config) :=
  Spec.pure fun s hs => opened_false (hP s hs)

/-- A call leaves the store as it is. -/
theorem dbCall_spec {function : DbFunction} {handle : Option Nat}
    (hP : ∀ s, P s → s.Valid config) (hhandle : function.takesHandle = true → handle ≠ none) :
    DbSpec config P (dbCall function handle) fun _ => P :=
  Spec.call (fun s hs => ⟨hhandle, hP s hs⟩) fun _ _ hs => hs

/-- A call whose answer is not read. -/
theorem dbCall_unit {function : DbFunction} {handle : Option Nat}
    (hP : ∀ s, P s → s.Valid config) (hhandle : function.takesHandle = true → handle ≠ none) :
    DbSpec config P (do let _ ← dbCall function handle) fun _ => P :=
  Spec.bind (dbCall_spec hP hhandle) fun _ => Spec.pure fun _ hs => hs

/-- A function that takes a statement, or opens a connection. -/
theorem dbStmt_spec {function : DbFunction} (hP : ∀ s, P s → s.Valid config)
    (hstmt : function.takesHandle = false) :
    DbSpec config P (dbCall function none) fun _ => P :=
  dbCall_spec hP fun h => absurd (hstmt.symm.trans h) Bool.false_ne_true

theorem dbStmt_unit {function : DbFunction} (hP : ∀ s, P s → s.Valid config)
    (hstmt : function.takesHandle = false) :
    DbSpec config P (do let _ ← dbCall function none) fun _ => P :=
  Spec.bind (dbStmt_spec hP hstmt) fun _ => Spec.pure fun _ hs => hs

theorem ne_none_of_isSome {handle : Option Nat} (h : handle.isSome = true) : handle ≠ none :=
  Option.isSome_iff_ne_none.mp h

/-! ### MySQL -/

theorem ready_mysql (hb : config.backend = .mysql) {store : StoreConnection} :
    store.Ready config ↔ store.connected = true ∧ store.mysql ≠ none := by
  simp only [Ready, StoreConnection.handle, hb]

theorem mysqlAlive_spec (hb : config.backend = .mysql) :
    DbSpec config (Valid config) mysqlAlive (Opened config) := by
  refine Spec.read fun s hs => ?_
  split
  · next halive =>
    obtain ⟨hconnected, hmysql⟩ := Bool.and_eq_true_iff.mp halive
    have hready : s.Ready config := (ready_mysql hb).mpr ⟨hconnected, ne_none_of_isSome hmysql⟩
    refine Spec.bind (dbCall_spec ?_ fun _ => ne_none_of_isSome hmysql) fun ping => ?_
    · rintro _ rfl
      exact hs
    · refine Spec.pure ?_
      rintro _ rfl
      exact opened_of_ready hready
  · refine pure_opened_false ?_
    rintro _ rfl
    exact hs

theorem mysqlDrop_spec : DbSpec config (Valid config) mysqlDrop fun _ => Valid config := by
  refine Spec.read fun s hs => ?_
  split
  · next hmysql =>
    refine Spec.bind (dbCall_spec ?_ fun _ => ne_none_of_isSome hmysql) fun _ => ?_
    · rintro _ rfl
      exact hs
    · exact Spec.update fun _ _ hready => absurd hready Bool.false_ne_true
  · refine Spec.pure ?_
    rintro _ rfl
    exact hs

theorem mysqlSetOptions_spec (mysql : Nat) :
    DbSpec config (Valid config) (mysqlSetOptions mysql) fun _ => Valid config :=
  Spec.each (fun _ => dbCall_unit (fun _ hs => hs) fun _ => Option.some_ne_none mysql) _

theorem mysqlSetCharset_spec (mysql : Nat) :
    DbSpec config (Valid config) (mysqlSetCharset config mysql) fun _ => Valid config := by
  unfold mysqlSetCharset
  split
  · exact Spec.pure fun _ hs => hs
  · refine Spec.bind (dbCall_spec (fun _ hs => hs) fun _ => Option.some_ne_none mysql) fun set => ?_
    split
    · exact Spec.pure fun _ hs => hs
    · exact dbCall_unit (fun _ hs => hs) fun _ => Option.some_ne_none mysql

theorem mysqlOpen_spec (hb : config.backend = .mysql) :
    DbSpec config (Valid config) (mysqlOpen config) (Opened config) := by
  refine Spec.bind (dbStmt_spec (fun _ hs => hs) rfl) fun init => ?_
  split
  · exact pure_opened_false fun _ hs => hs
  · next mysql _ =>
    have hhandle (h : Bool) : h = true → some mysql ≠ none := fun _ => Option.some_ne_none mysql
    refine Spec.bind (mysqlSetOptions_spec mysql) fun _ => ?_
    refine Spec.bind (dbCall_spec (fun _ hs => hs) (hhandle _)) fun connect => ?_
    split
    · refine Spec.bind (mysqlSetCharset_spec mysql) fun _ => ?_
      refine Spec.bind (Spec.update (Q := fun _ => Ready config) fun _ _ => ?_) fun _ =>
        Spec.pure fun _ hs => opened_of_ready hs
      exact (ready_mysql hb).mpr ⟨rfl, Option.some_ne_none mysql⟩
    · refine Spec.bind (dbCall_spec (fun _ hs => hs) (hhandle _)) fun _ => ?_
      refine Spec.bind (dbCall_spec (fun _ hs => hs) (hhandle _)) fun _ => ?_
      exact pure_opened_false fun _ hs => hs

theorem mysqlConnectStore_spec (hb : config.backend = .mysql) :
    DbSpec config (Valid config) (mysqlConnectStore config) (Opened config) := by
  refine Spec.bind (mysqlAlive_spec hb) fun alive => ?_
  split
  · next halive => exact Spec.pure fun _ hs => opened_of_ready (hs.2 halive)
  · refine Spec.bind (mysqlDrop_spec.weaken (fun _ hs => hs.1) fun _ _ hs => hs) fun _ => ?_
    exact mysqlOpen_spec hb

/-! ### SQLite -/

theorem ready_sqlite (hb : config.backend = .sqlite) {store : StoreConnection} :
    store.Ready config ↔ store.connected = true ∧ store.sqlite ≠ none := by
  simp only [Ready, StoreConnection.handle, hb]

theorem sqliteExec_spec (hb : config.backend = .sqlite) :
    DbSpec config (Ready config) sqliteExec fun _ => Ready config := by
  refine Spec.read fun s hs => ?_
  have hvalid : ∀ t, t = s → t.Valid config := by
    rintro _ rfl
    exact valid_of_ready hs
  have hready : ∀ t, t = s → t.Ready config := holds_at hs
  have hhandle (h : Bool) : h = true → s.sqlite ≠ none := fun _ => ((ready_sqlite hb).mp hs).2
  refine Spec.bind (dbCall_spec hvalid (hhandle _)) fun exec => ?_
  split
  · exact Spec.pure hready
  · split
    · exact Spec.pure hready
    · exact Spec.bind (dbCall_spec hvalid (hhandle _)) fun _ => Spec.pure hready

theorem sqliteDrop_spec : DbSpec config (Valid config) sqliteDrop fun _ => Valid config := by
  refine Spec.read fun s hs => ?_
  split
  · next hsqlite =>
    refine Spec.bind (dbCall_spec ?_ fun _ => ne_none_of_isSome hsqlite) fun _ => ?_
    · rintro _ rfl
      exact hs
    · exact Spec.update fun _ _ hready => absurd hready Bool.false_ne_true
  · refine Spec.pure ?_
    rintro _ rfl
    exact hs

theorem sqlitePragma_spec (hb : config.backend = .sqlite) (token : List UInt8) :
    DbSpec config (Ready config) (sqlitePragma token) fun _ => Ready config := by
  unfold sqlitePragma
  split
  · exact Spec.bind (sqliteExec_spec hb) fun _ => Spec.pure fun _ hs => hs
  · exact Spec.pure fun _ hs => hs

theorem sqliteSetBusyTimeout_spec {db : Option Nat} (hdb : db ≠ none) :
    DbSpec config (Ready config) (sqliteSetBusyTimeout config db) fun _ => Ready config := by
  unfold sqliteSetBusyTimeout
  split
  · exact dbCall_unit (fun _ => valid_of_ready) fun _ => hdb
  · exact Spec.pure fun _ hs => hs

theorem sqliteOpen_spec (hb : config.backend = .sqlite) :
    DbSpec config (Valid config) (sqliteOpen config) (Opened config) := by
  -- the assumption on the answers is used here, and nowhere else
  refine Spec.bind (Spec.answered (Q := fun opened s => s.Valid config ∧
    (opened.ok = true → opened.pointer ≠ none)) (fun s hs => ⟨Bool.noConfusion, hs⟩)
    fun opened s hgiven hs => ⟨hs, hgiven rfl⟩) fun opened => ?_
  split
  · next hok =>
    refine Spec.bind (Spec.update (Q := fun _ s => s.Ready config ∧ opened.pointer ≠ none)
      fun s hs => ?_) fun _ => ?_
    · exact ⟨(ready_sqlite hb).mpr ⟨rfl, hs.2 hok⟩, hs.2 hok⟩
    by_cases hdb : opened.pointer = none
    · exact fun _ _ _ _ hs => absurd hdb hs.2
    refine Spec.bind ((sqliteSetBusyTimeout_spec hdb).weaken (fun _ hs => hs.1) fun _ _ hs => hs)
      fun _ => ?_
    refine Spec.bind (sqlitePragma_spec hb _) fun _ => ?_
    refine Spec.bind (sqlitePragma_spec hb _) fun _ => ?_
    exact Spec.pure fun _ => opened_of_ready
  · split
    · exact pure_opened_false fun _ hs => hs.1
    · next db _ =>
      have hhandle (h : Bool) : h = true → some db ≠ none := fun _ => Option.some_ne_none db
      refine Spec.bind (dbCall_spec (fun _ hs => hs.1) (hhandle _)) fun _ => ?_
      refine Spec.bind (dbCall_spec (fun _ hs => hs.1) (hhandle _)) fun _ => ?_
      exact pure_opened_false fun _ hs => hs.1

theorem sqliteConnectStore_spec (hb : config.backend = .sqlite) :
    DbSpec config (Valid config) (sqliteConnectStore config) (Opened config) := by
  refine Spec.read fun s hs => ?_
  split
  · next halive =>
    obtain ⟨hconnected, hsqlite⟩ := Bool.and_eq_true_iff.mp halive
    refine Spec.pure ?_
    rintro _ rfl
    exact opened_of_ready ((ready_sqlite hb).mpr ⟨hconnected, ne_none_of_isSome hsqlite⟩)
  · refine Spec.bind (sqliteDrop_spec.weaken ?_ fun _ _ h => h) fun _ => sqliteOpen_spec hb
    rintro _ rfl
    exact hs

/-! ### Both -/

theorem connect_spec :
    DbSpec config (Valid config) (historyStoreConnect config) (Opened config) := by
  unfold historyStoreConnect
  split
  · exact pure_opened_false fun _ hs => hs
  · cases hb : config.backend with
    | mysql =>
      show DbSpec _ _ (if _ then _ else _) _
      split
      · exact mysqlConnectStore_spec hb
      · exact pure_opened_false fun _ hs => hs
    | sqlite =>
      show DbSpec _ _ (if _ then _ else _) _
      split
      · exact sqliteConnectStore_spec hb
      · exact pure_opened_false fun _ hs => hs
    | other => exact pure_opened_false fun _ hs => hs

theorem disconnect_spec :
    DbSpec config (Valid config) historyStoreDisconnect fun _ => Valid config := by
  refine Spec.read fun s hs => ?_
  have hvalid : ∀ t, t = s → t.Valid config := by
    rintro _ rfl
    exact hs
  refine Spec.bind (Spec.each (fun mysql => dbCall_unit hvalid ?_) _) fun _ => ?_
  · exact fun _ => Option.some_ne_none mysql
  refine Spec.bind (Spec.each (fun sqlite => dbCall_unit hvalid ?_) _) fun _ => ?_
  · exact fun _ => Option.some_ne_none sqlite
  exact Spec.update fun _ _ hready => absurd hready Bool.false_ne_true

/-! ### Statements -/

theorem mysqlQuery_spec (hb : config.backend = .mysql) :
    DbSpec config (Ready config) mysqlQuery fun _ => Ready config := by
  refine Spec.read fun s hs => ?_
  have hready : ∀ t, t = s → t.Ready config := holds_at hs
  have hvalid : ∀ t, t = s → t.Valid config := fun t ht => valid_of_ready (hready t ht)
  have hhandle (h : Bool) : h = true → s.mysql ≠ none := fun _ => ((ready_mysql hb).mp hs).2
  refine Spec.bind (dbCall_spec hvalid (hhandle _)) fun query => ?_
  split
  · exact Spec.pure hready
  · exact Spec.bind (dbCall_spec hvalid (hhandle _)) fun _ => Spec.pure hready

theorem execSql_spec : DbSpec config (Valid config) (execSql config) (Opened config) := by
  refine Spec.bind connect_spec fun connected => ?_
  split
  · next hconnected =>
    -- the statement runs on the connection that has just been made
    have hready : ∀ s, Opened config connected s → s.Ready config := fun s hs => hs.2 hconnected
    cases hb : config.backend with
    | mysql => exact (mysqlQuery_spec hb).weaken hready fun _ _ => opened_of_ready
    | sqlite => exact (sqliteExec_spec hb).weaken hready fun _ _ => opened_of_ready
    | other => exact pure_opened_false fun _ hs => hs.1
  · exact pure_opened_false fun _ hs => hs.1

/-- Statements from a connection on. -/
theorem execAll_ready (n : Nat) :
    DbSpec config (Ready config) (execAll config n) (Opened config) := by
  induction n with
  | zero => exact Spec.pure fun _ => opened_of_ready
  | succ n ih =>
    refine Spec.bind (execSql_spec.weaken (fun _ => valid_of_ready) fun _ _ hs => hs) fun ok => ?_
    split
    · next hok => exact ih.weaken (fun _ hs => hs.2 hok) fun _ _ hs => hs
    · exact pure_opened_false fun _ hs => hs.1

theorem execAll_spec (n : Nat) :
    DbSpec config (Valid config) (execAll config (n + 1)) (Opened config) := by
  refine Spec.bind execSql_spec fun ok => ?_
  split
  · next hok => exact (execAll_ready n).weaken (fun _ hs => hs.2 hok) fun _ _ hs => hs
  · exact pure_opened_false fun _ hs => hs.1

theorem setSchemaReady_spec :
    DbSpec config (Ready config)
      (do update fun store => { store with schemaReady := true }; pure true) (Opened config) :=
  Spec.bind (Spec.update (Q := fun _ => Ready config) fun _ hs => hs) fun _ =>
    Spec.pure fun _ => opened_of_ready

theorem createSchema_spec : DbSpec config (Valid config) (createSchema config) (Opened config) := by
  unfold createSchema
  have hbehind (ok : Bool) : DbSpec config (Opened config ok)
      (if ok then do update fun store => { store with schemaReady := true }; pure true
        else pure false) (Opened config) := by
    split
    · next hok => exact setSchemaReady_spec.weaken (fun _ hs => hs.2 hok) fun _ _ hs => hs
    · exact pure_opened_false fun _ hs => hs.1
  cases config.backend with
  | mysql => exact Spec.bind (execAll_spec 0) hbehind
  | sqlite => exact Spec.bind (execAll_spec 2) hbehind
  | other => exact pure_opened_false fun _ hs => hs

/-- Without SOE the schema is ready at once, so there has to be a connection. -/
theorem ensureSchema_spec :
    DbSpec config (fun s => s.Valid config ∧ (config.soeEnabled = false → s.Ready config))
      (ensureSchema config) (Opened config) := by
  refine Spec.read fun s hs => ?_
  have hvalid : ∀ t, t = s → t.Valid config := by
    rintro _ rfl
    exact hs.1
  split
  · next hschema =>
    refine Spec.pure ?_
    rintro _ rfl
    exact opened_of_ready (hs.1 hschema)
  · split
    · next hsoe =>
      refine setSchemaReady_spec.weaken ?_ fun _ _ h => h
      rintro _ rfl
      exact hs.2 ((Bool.not_eq_true' _).mp hsoe)
    · split
      · exact pure_opened_false hvalid
      · exact createSchema_spec.weaken hvalid fun _ _ h => h

theorem trimSoe_spec : DbSpec config (Valid config) (trimSoe config) fun _ => Valid config := by
  unfold trimSoe
  split
  · exact Spec.pure fun _ hs => hs
  · exact Spec.bind execSql_spec fun _ => Spec.pure fun _ hs => hs.1

/-! ### The write -/

theorem mysqlStmtRun_spec (hP : ∀ s, P s → s.Valid config) :
    DbSpec config P mysqlStmtRun fun _ => P := by
  refine Spec.bind (dbStmt_spec hP rfl) fun bind => ?_
  split
  · exact Spec.bind (dbStmt_spec hP rfl) fun _ => Spec.pure fun _ hs => hs
  · exact Spec.pure fun _ hs => hs

theorem writeSoeMysql_spec (hb : config.backend = .mysql) :
    DbSpec config (Ready config) (writeSoeMysql config) fun _ => Valid config := by
  refine Spec.read fun s hs => ?_
  have hvalid : ∀ t, t = s → t.Valid config := by
    rintro _ rfl
    exact valid_of_ready hs
  have hdisconnect : DbSpec config (· = s) (do historyStoreDisconnect; pure false)
      fun _ => Valid config :=
    Spec.bind (disconnect_spec.weaken hvalid fun _ _ h => h) fun _ => Spec.pure fun _ h => h
  refine Spec.bind (dbCall_spec hvalid fun _ => ((ready_mysql hb).mp hs).2) fun stmt => ?_
  split
  · exact Spec.pure hvalid
  · refine Spec.bind (dbStmt_spec hvalid rfl) fun prepare => ?_
    split
    · exact Spec.bind (dbStmt_spec hvalid rfl) fun _ => hdisconnect
    · refine Spec.bind (mysqlStmtRun_spec hvalid) fun ok => ?_
      refine Spec.bind (dbStmt_spec hvalid rfl) fun _ => ?_
      split
      · exact Spec.bind (trimSoe_spec.weaken hvalid fun _ _ h => h) fun _ =>
          Spec.pure fun _ h => h
      · exact hdisconnect

theorem writeSoeSqlite_spec (hb : config.backend = .sqlite) :
    DbSpec config (Ready config) (writeSoeSqlite config) fun _ => Valid config := by
  refine Spec.read fun s hs => ?_
  have hvalid : ∀ t, t = s → t.Valid config := by
    rintro _ rfl
    exact valid_of_ready hs
  have hhandle (h : Bool) : h = true → s.sqlite ≠ none := fun _ => ((ready_sqlite hb).mp hs).2
  refine Spec.bind (dbCall_spec hvalid (hhandle _)) fun prepare => ?_
  split
  · refine Spec.bind (dbCall_spec hvalid (hhandle _)) fun _ => ?_
    exact Spec.bind (disconnect_spec.weaken hvalid fun _ _ h => h) fun _ => Spec.pure fun _ h => h
  · refine Spec.bind (dbStmt_spec hvalid rfl) fun step => ?_
    split
    · refine Spec.bind (dbStmt_spec hvalid rfl) fun _ => ?_
      exact Spec.bind (trimSoe_spec.weaken hvalid fun _ _ h => h) fun _ => Spec.pure fun _ h => h
    · refine Spec.bind (dbCall_spec hvalid (hhandle _)) fun _ => ?_
      exact Spec.bind (dbStmt_spec hvalid rfl) fun _ => Spec.pure hvalid

theorem writeSoeLocked_spec :
    DbSpec config (Valid config) (writeSoeLocked config) fun _ => Valid config := by
  unfold writeSoeLocked
  split
  · exact Spec.pure fun _ hs => hs
  · next henabled =>
    have hsoe : config.soeEnabled ≠ false := by
      intro hoff
      exact henabled (by rw [hoff, Bool.not_false, Bool.or_true])
    refine Spec.bind (ensureSchema_spec.weaken (fun s hs => ⟨hs, fun hoff => absurd hoff hsoe⟩)
      fun _ _ hs => hs) fun schema => ?_
    split
    · next hschema =>
      have hready : ∀ s, Opened config schema s → s.Ready config := fun s hs => hs.2 hschema
      cases hb : config.backend with
      | mysql =>
        show DbSpec _ _ (if _ then _ else _) _
        split
        · exact (writeSoeMysql_spec hb).weaken hready fun _ _ hs => hs
        · exact Spec.pure fun _ hs => hs.1
      | sqlite =>
        show DbSpec _ _ (if _ then _ else _) _
        split
        · exact (writeSoeSqlite_spec hb).weaken hready fun _ _ hs => hs
        · exact Spec.pure fun _ hs => hs.1
      | other => exact Spec.pure fun _ hs => hs.1
    · exact Spec.pure fun _ hs => hs.1

/-! ### The queries -/

theorem fetchRows_spec {backend : HistoryBackend} {sqlite : Option Nat}
    (hP : ∀ s, P s → s.Valid config) (hsqlite : backend = .sqlite → sqlite ≠ none) (n : Nat) :
    DbSpec config P (fetchRows backend sqlite n) fun _ => P := by
  induction n with
  | zero => exact Spec.pure fun _ hs => hs
  | succ n ih =>
    refine Spec.bind (dbStmt_spec hP ?_) fun row => ?_
    · split
      · rfl
      · rfl
    · split
      · exact ih
      · split
        · next herror =>
          have hbackend := of_decide_eq_true (Bool.and_eq_true_iff.mp herror).1
          exact dbCall_unit hP fun _ => hsqlite hbackend
        · exact Spec.pure fun _ hs => hs

theorem queryMysql_spec (hb : config.backend = .mysql) (limit : Nat) :
    DbSpec config (Ready config) (queryMysql limit) fun _ => Ready config := by
  refine Spec.read fun s hs => ?_
  have hready : ∀ t, t = s → t.Ready config := holds_at hs
  have hvalid : ∀ t, t = s → t.Valid config := fun t ht => valid_of_ready (hready t ht)
  have hclose : DbSpec config (· = s) (do let _ ← dbCall .mysqlStmtClose none)
      fun _ => Ready config :=
    (dbStmt_unit hvalid rfl).weaken (fun _ h => h) fun _ => hready
  refine Spec.bind (dbCall_spec hvalid fun _ => ((ready_mysql hb).mp hs).2) fun stmt => ?_
  split
  · exact Spec.pure hready
  · refine Spec.bind (dbStmt_spec hvalid rfl) fun prepare => ?_
    split
    · refine Spec.bind (mysqlStmtRun_spec hvalid) fun ok => ?_
      split
      · refine Spec.bind (dbStmt_spec hvalid rfl) fun bind => ?_
        have hmysql : HistoryBackend.mysql = .sqlite → (none : Option Nat) ≠ none :=
          fun h => absurd h (by decide)
        exact Spec.bind (fetchRows_spec hvalid hmysql _) fun _ => hclose
      · exact hclose
    · exact hclose

theorem querySqlite_spec (hb : config.backend = .sqlite) (limit : Nat) :
    DbSpec config (Ready config) (querySqlite limit) fun _ => Ready config := by
  refine Spec.read fun s hs => ?_
  have hready : ∀ t, t = s → t.Ready config := holds_at hs
  have hvalid : ∀ t, t = s → t.Valid config := fun t ht => valid_of_ready (hready t ht)
  have hsqlite : s.sqlite ≠ none := ((ready_sqlite hb).mp hs).2
  refine Spec.bind (dbCall_spec hvalid fun _ => hsqlite) fun prepare => ?_
  split
  · refine Spec.bind (fetchRows_spec hvalid (fun _ => hsqlite) _) fun _ => ?_
    exact (dbStmt_unit hvalid rfl).weaken (fun _ h => h) fun _ => hready
  · exact (dbCall_unit hvalid fun _ => hsqlite).weaken (fun _ h => h) fun _ => hready

theorem queryRows_spec (maxRecords : Nat) :
    DbSpec config (Ready config) (queryRows config maxRecords) fun _ => Valid config := by
  have hskip : DbSpec config (Ready config) (pure ()) fun _ => Valid config :=
    Spec.pure fun _ => valid_of_ready
  unfold queryRows
  cases hb : config.backend with
  | mysql =>
    show DbSpec _ _ (if _ then _ else _) _
    split
    · exact (queryMysql_spec hb _).weaken (fun _ hs => hs) fun _ _ => valid_of_ready
    · exact hskip
  | sqlite =>
    show DbSpec _ _ (if _ then _ else _) _
    split
    · exact (querySqlite_spec hb _).weaken (fun _ hs => hs) fun _ _ => valid_of_ready
    · exact hskip
  | other => exact hskip

theorem queryHistorySoe_spec (maxRecords : Nat) :
    DbSpec config (Valid config) (queryHistorySoe config maxRecords) fun _ => Valid config := by
  unfold queryHistorySoe
  split
  · exact Spec.pure fun _ hs => hs
  · refine Spec.bind connect_spec fun connected => ?_
    split
    · next hconnected =>
      refine Spec.bind (ensureSchema_spec.weaken (fun s hs => ⟨hs.1, fun _ => hs.2 hconnected⟩)
        fun _ _ hs => hs) fun schema => ?_
      split
      · next hschema =>
        exact (queryRows_spec maxRecords).weaken (fun _ hs => hs.2 hschema) fun _ _ hs => hs
      · exact Spec.pure fun _ hs => hs.1
    · exact Spec.pure fun _ hs => hs.1

theorem queryHistoryPoints_spec (points : PointClass) (maxRecords : Nat) :
    DbSpec config (Valid config) (queryHistoryPoints config points maxRecords)
      fun _ => Valid config := by
  unfold queryHistoryPoints
  split
  · exact Spec.pure fun _ hs => hs
  · split
    · exact Spec.pure fun _ hs => hs
    · refine Spec.bind connect_spec fun connected => ?_
      split
      · next hconnected =>
        exact (queryRows_spec maxRecords).weaken (fun _ hs => hs.2 hconnected) fun _ _ hs => hs
      · exact Spec.pure fun _ hs => hs.1

/-! ### Runs -/

theorem storeCall_spec (c : StoreCall) :
    DbSpec config (Valid config) (storeCall config c) fun _ => Valid config := by
  cases c with
  | connect => exact Spec.bind connect_spec fun _ => Spec.pure fun _ hs => hs.1
  | disconnect => exact disconnect_spec
  | querySoe maxRecords => exact queryHistorySoe_spec maxRecords
  | queryPoints points maxRecords => exact queryHistoryPoints_spec points maxRecords
  | writeSoe => exact Spec.bind writeSoeLocked_spec fun _ => Spec.pure fun _ hs => hs

theorem storeOpen_spec :
    DbSpec config (Valid config) (storeOpen config) fun _ => Valid config := by
  unfold storeOpen
  split
  · exact Spec.pure fun _ hs => hs
  · refine Spec.bind connect_spec fun connected => ?_
    split
    · next hconnected =>
      refine Spec.bind (ensureSchema_spec.weaken (fun s hs => ⟨hs.1, fun _ => hs.2 hconnected⟩)
        fun _ _ hs => hs) fun _ => ?_
      exact Spec.pure fun _ hs => hs.1
    · exact Spec.pure fun _ hs => hs.1

theorem storeRun_spec (calls : List StoreCall) :
    DbSpec config (Valid config) (storeRun config calls) fun _ => Valid config :=
  Spec.bind storeOpen_spec fun _ => Spec.each storeCall_spec calls

end HistoryConnectionLemmas

open HistoryConnectionLemmas

/-- For every configuration, every sequence of calls after the initialisation and all answers of
the libraries in which a successful open hands out a handle: `schema_ready` implies `connected`
and a handle of the selected backend, after the calls and in every state in which a library is
called; and a function that takes a connection, as `sqlite3_prepare_v2` and `mysql_stmt_init` of
the write do, never gets `NULL`. -/
theorem soe_write_handle_present (config : DbConfig) (calls : List StoreCall)
    (answers : Nat → DbCall → DbAnswer) (hgiven : Honest DbAnswer.Given answers) :
    (storeRun config calls answers ⟨.empty, []⟩).2.state.Valid config ∧
    ∀ c ∈ (storeRun config calls answers ⟨.empty, []⟩).2.trace,
      c.2.Valid config ∧ (c.1.function.takesHandle = true → c.1.handle ≠ none) := by
  have hempty : StoreConnection.empty.Valid config := fun h => absurd h Bool.false_ne_true
  obtain ⟨hfine, hvalid⟩ := (storeRun_spec calls).run hgiven hempty
  exact ⟨hvalid, fun c hc => ⟨(hfine c hc).2, (hfine c hc).1⟩⟩

/-- An SQLite store for SOE records, with the default settings. -/
def sqliteConfig : DbConfig where
  enabled := true
  backend := .sqlite
  soeEnabled := true
  yxEnabled := false
  ycEnabled := false
  ddEnabled := false
  soeMaxRecords := 10000
  queryMaxRecords := 1000
  queueCapacity := 4096
  haveMariadb := false
  haveSqlite := true
  charset := []
  sqliteBusyTimeoutMs := 3000
  sqliteJournalMode := CString.ascii "WAL"
  sqliteSynchronous := CString.ascii "NORMAL"
  soeTable := CString.ascii "iec104_soe_history"
  yxTable := []
  ycTable := []
  ddTable := []

/-- Every call succeeds; the write gets to `sqlite3_prepare_v2`. -/
theorem sqlite_write_handle_present :
    Honest DbAnswer.Given (fun _ _ => ⟨true, some 1⟩) ∧
    (storeRun sqliteConfig [.writeSoe] (fun _ _ => ⟨true, some 1⟩) ⟨.empty, []⟩).2.state.Valid
      sqliteConfig ∧
    ⟨.sqlite3PrepareV2, some 1⟩ ∈ (storeRun sqliteConfig [.writeSoe] (fun _ _ => ⟨true, some 1⟩)
      ⟨.empty, []⟩).2.trace.map Prod.fst := by
  have hgiven : Honest DbAnswer.Given (fun _ _ => ⟨true, some 1⟩) :=
    fun _ _ _ _ => Option.some_ne_none 1
  exact ⟨hgiven, (soe_write_handle_present sqliteConfig [.writeSoe] _ hgiven).1, by decide⟩

/-! The assumption is needed: the store trusts an open that reports success. -/

example : ⟨.sqlite3Exec, none⟩ ∈ (storeRun sqliteConfig [] (fun _ _ => ⟨true, none⟩)
    ⟨.empty, []⟩).2.trace.map Prod.fst := by decide

end Iec104Slave
