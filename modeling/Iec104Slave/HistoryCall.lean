import Iec104Slave.CustomAsdu
import Iec104Slave.FrameLoop
import Iec104Slave.SoeQuery

/-!
# History calls (`query_history_data`, `send_history_data_records`)

A history call reads the rows of an interval from three tables page by page, with a cursor
behind the last row it has got, and sends a frame for each row. Its buffers have 256 rows, and it
takes a page with fewer rows to be the last one. The store never returns more rows than
`query_max_records`, so with a smaller limit no page is ever full.

The rows are those of the database: SQLite compares signed numbers, so a time of `2 ^ 63` or more
is negative there. The cursor starts at `(0, 0)`, and such a row is never behind it.

Results:
1. `fetchPage_eq`: a query that succeeds gives a page of the rows that a cursor can reach.
2. `sends_class`: what one of the three loops sends.
3. `history_call_complete_iff`: the call returns the whole interval iff a cursor reaches all its
   rows, and the limit of the store is not below the size of the buffers or no table has more
   rows in the interval than the limit.
-/

namespace Iec104Slave

open Ordered

/-! ## The interval (`msg_time_to_ms`) -/

/-- `CP56Time2a`: the seven bytes. -/
abbrev Cp56Time2a : Type := Vector UInt8 7

/-- `my_mktime`: the seconds since 1970. The fields are those of `struct tm`. -/
def myMktime (tmYear tmMon tmMday tmHour tmMin tmSec : Int) : Int :=
  let m := if tmMon < 2 then tmMon + 12 else tmMon
  let y := if tmMon < 2 then tmYear - 1 else tmYear
  ((((y - 69) * 365 + y / 4 - y / 100 * 3 / 4 + (m + 2) * 153 / 5 - 446 + tmMday) * 24 +
    tmHour) * 60 + tmMin) * 60 + tmSec

/-- `CP56Time2a_toMsTimestamp`; the fields of the bytes may be out of their range. -/
def cp56Time2aToMsTimestamp (time : Cp56Time2a) : UInt64 :=
  let millies := time[0].toNat + time[1].toNat * 0x100
  let timestamp := myMktime ((time[6] &&& 0x7f).toNat + 100) ((time[5] &&& 0x0f).toNat - 1)
    (time[4] &&& 0x1f).toNat (time[3] &&& 0x1f).toNat (time[2] &&& 0x3f).toNat (millies / 1000)
  UInt64.ofInt (timestamp * 1000 + (millies % 1000 : Nat))

/-- `msg_time_to_ms`: all bytes zero is an open end. -/
def msgTimeToMs (time : Cp56Time2a) : UInt64 :=
  if time.toList.any (· != 0) then cp56Time2aToMsTimestamp time else 0

/-! ## Rows of the database -/

/-- A row as a page query returns it. -/
structure HistoryRow (α : Type) where
  id : UInt64
  point : α
deriving DecidableEq

/-- A row as it is stored. The columns of a record are those of `point`, but for the time. -/
structure StoredRow (α : Type) where
  id : Int
  timestampMs : Int
  point : α

/-- `ORDER BY timestamp_ms ASC, id ASC`. -/
def StoredRow.key {α : Type} (row : StoredRow α) : Int ×ₗ Int := toLex (row.timestampMs, row.id)

/-- The numbers of a column are below this. -/
def columnLimit : HistoryBackend → Int
  | .sqlite => 2 ^ 63
  | _ => 2 ^ 64

/-- A table at the time of a query. -/
structure StoredTable (backend : HistoryBackend) (α : Type) where
  rows : List (StoredRow α)
  ids_nodup : (rows.map StoredRow.id).Nodup
  ids_pos : ∀ row ∈ rows, 1 ≤ row.id
  ids_below : ∀ row ∈ rows, row.id < columnLimit backend
  times_below : ∀ row ∈ rows, row.timestampMs < columnLimit backend

/-- The table at each page query of a call. Rows come and go, but do not change. -/
structure ChangingTable (backend : HistoryBackend) (α : Type) where
  page : Nat → StoredTable backend α
  immutable : ∀ p q, ∀ a ∈ (page p).rows, ∀ b ∈ (page q).rows, a.id = b.id → a = b

/-- What the three classes of a history call differ in: the switch of the configuration, the time
of a record and the frame of a row. -/
structure HistoryClass (α : Type) where
  enabled : HistoryStoreConfig → Bool
  timestamp : α → UInt64
  stamp : α → UInt64 → α
  frame : α → Asdu
  timestamp_stamp : ∀ point timestampMs, timestamp (stamp point timestampMs) = timestampMs

/-- The record that the YX loop fills in. -/
def historyYxRecord (point : YxPoint) : SoeRecord :=
  ⟨point.ioa.toInt32, point.value != 0, point.quality, point.timestampMs, 0⟩

/-- `history_store_query_yx_page` and `custom_asdu_send_history_yx`. -/
def yxHistory : HistoryClass YxPoint where
  enabled := HistoryStoreConfig.yxEnabled
  timestamp := YxPoint.timestampMs
  stamp point timestampMs := { point with timestampMs := timestampMs }
  frame point := customAsduSendHistoryYx (historyYxRecord point)
  timestamp_stamp _ _ := rfl

/-- `history_store_query_yc_page` and `custom_asdu_send_history_yc`. -/
def ycHistory : HistoryClass YcPoint where
  enabled := HistoryStoreConfig.ycEnabled
  timestamp := YcPoint.timestampMs
  stamp point timestampMs := { point with timestampMs := timestampMs }
  frame := customAsduSendHistoryYc
  timestamp_stamp _ _ := rfl

/-- `history_store_query_dd_page` and `custom_asdu_send_history_dd`. -/
def ddHistory : HistoryClass DdPoint where
  enabled := HistoryStoreConfig.ddEnabled
  timestamp := DdPoint.timestampMs
  stamp point timestampMs := { point with timestampMs := timestampMs }
  frame := customAsduSendHistoryDd
  timestamp_stamp _ _ := rfl

/-! ## Page queries (`history_store.c`) -/

section Query

variable {α : Type}

/-- `record_ids[copied]` and `records[copied]`: the numbers are converted to `uint64_t`. -/
def StoredRow.read (history : HistoryClass α) (row : StoredRow α) : HistoryRow α :=
  ⟨UInt64.ofInt row.id, history.stamp row.point (UInt64.ofInt row.timestampMs)⟩

/-- `timestamp_ms > ? OR (timestamp_ms = ? AND id > ?)`. -/
def storedBehindCursor (backend : HistoryBackend) (lastTimestampMs lastId : UInt64)
    (row : StoredRow α) : Bool :=
  decide (columnTimestamp backend lastTimestampMs < row.timestampMs) ||
    (row.timestampMs == columnTimestamp backend lastTimestampMs &&
      decide (columnTimestamp backend lastId < row.id))

/-- What happens in a query: whether the name of the table is valid, whether there is a
connection, whether the statement is prepared and executed, and after how many rows
a fetch fails. -/
structure QueryOutcome where
  validTable : Bool
  connected : Bool
  executed : Bool
  fetched : Nat

/-- The page queries of the three classes. -/
def fetchPage (history : HistoryClass α) (config : HistoryStoreConfig)
    (table : StoredTable config.backend α) (x : QueryOutcome)
    (beginMs endMs lastTimestampMs lastId : UInt64) (maxRecords : Nat) : List (HistoryRow α) :=
  if !config.enabled || !history.enabled config || maxRecords == 0 then []
  else if !x.validTable || config.backend == .other || !x.connected || !x.executed then []
  else
    ((((inOrder StoredRow.key table.rows).filter fun row =>
      columnInInterval config.backend beginMs endMs row.timestampMs &&
        storedBehindCursor config.backend lastTimestampMs lastId row).take
      (applyQueryLimit config maxRecords)).take x.fetched).map (StoredRow.read history)

end Query

/-! ## The call -/

/-- The size of the arrays of `HistoryDataQueryResult`. -/
def historyPageRecords : Nat := 256

/-- The tests of the client in one class: before each page, and in each iteration over the
rows of a page. -/
structure PageOutcomes where
  active : Nat → Bool
  rows : Nat → Nat → FrameOutcome

/-- The surroundings of one class. -/
structure ClassInput (backend : HistoryBackend) (α : Type) where
  table : ChangingTable backend α
  queries : Nat → QueryOutcome
  client : PageOutcomes

/-- A history call. Page 0 of a class is the one that `query_history_data` fetches. -/
structure PagedHistoryCall where
  config : HistoryStoreConfig
  beginTime : Cp56Time2a
  endTime : Cp56Time2a
  yx : ClassInput config.backend YxPoint
  yc : ClassInput config.backend YcPoint
  dd : ClassInput config.backend DdPoint

/-- `result->begin_ms`. -/
def PagedHistoryCall.beginMs (x : PagedHistoryCall) : UInt64 := msgTimeToMs x.beginTime

/-- `result->end_ms`. -/
def PagedHistoryCall.endMs (x : PagedHistoryCall) : UInt64 := msgTimeToMs x.endTime

/-- The query for page `p` of a class. -/
def PagedHistoryCall.query (x : PagedHistoryCall) {α : Type} (history : HistoryClass α)
    (input : ClassInput x.config.backend α) (p : Nat) (lastTimestampMs lastId : UInt64) :
    List (HistoryRow α) :=
  fetchPage history x.config (input.table.page p) (input.queries p) x.beginMs x.endMs
    lastTimestampMs lastId historyPageRecords

/-- The first page of each class. -/
structure HistoryDataQueryResult where
  yx : List (HistoryRow YxPoint) := []
  yc : List (HistoryRow YcPoint) := []
  dd : List (HistoryRow DdPoint) := []

def queryHistoryData (x : PagedHistoryCall) : HistoryDataQueryResult :=
  if x.config.enabled then
    { yx := x.query yxHistory x.yx 0 0 0
      yc := x.query ycHistory x.yc 0 0 0
      dd := x.query ddHistory x.dd 0 0 0 }
  else {}

def historyDataTotalCount (result : HistoryDataQueryResult) : Nat :=
  result.yx.length + result.yc.length + result.dd.length

structure HistoryAnswer where
  yx : List (Sent (HistoryRow YxPoint) Asdu)
  yc : List (Sent (HistoryRow YcPoint) Asdu)
  dd : List (Sent (HistoryRow DdPoint) Asdu)

namespace Answer

/-- The `while` loop of one class for at most `n` pages, from page number `p` on: what has been
sent, and whether the loop has ended. `query` is given the number of the page. -/
def sendHistoryClass {α : Type} (frame : α → Asdu) (timestamp : α → UInt64)
    (query : Nat → UInt64 → UInt64 → List (HistoryRow α)) (x : PageOutcomes) :
    Nat → Nat → List (HistoryRow α) → List (Sent (HistoryRow α) Asdu) × Bool
  | 0, _, _ => ([], false)
  | n + 1, p, records =>
    match records.getLast? with
    | none => ([], true)
    | some last =>
      if x.active p then
        let sent := frameLoop (fun _ row => some (frame row.point)) (x.rows p) records
        if records.length < historyPageRecords then (sent, true)
        else
          let rest := sendHistoryClass frame timestamp query x n (p + 1)
            (query (p + 1) (timestamp last.point) last.id)
          (sent ++ rest.1, rest.2)
      else ([], true)

end Answer

/-- The loop of a class from its first page on. -/
def PagedHistoryCall.send (x : PagedHistoryCall) {α : Type} (history : HistoryClass α)
    (input : ClassInput x.config.backend α) (first : List (HistoryRow α)) (n : Nat) :
    List (Sent (HistoryRow α) Asdu) × Bool :=
  Answer.sendHistoryClass history.frame history.timestamp (x.query history input) input.client n 0
    first

/-- `send_history_data_records`: the three loops one after the other. There is no answer before
all of them have ended. -/
def Answer.sendHistoryDataRecords (x : PagedHistoryCall) (result : HistoryDataQueryResult)
    (n : Nat) : Option HistoryAnswer :=
  let yx := x.send yxHistory x.yx result.yx n
  let yc := x.send ycHistory x.yc result.yc n
  let dd := x.send ddHistory x.dd result.dd n
  if yx.2 && yc.2 && dd.2 then some ⟨yx.1, yc.1, dd.1⟩ else none

def PagedHistoryCall.answer (x : PagedHistoryCall) (n : Nat) : Option HistoryAnswer :=
  Answer.sendHistoryDataRecords x (queryHistoryData x) n

/-! ## What a history call is for -/

/-- The order of time and id, of the numbers that are sent. -/
def rowKey {α : Type} (timestamp : α → UInt64) (row : HistoryRow α) : Nat ×ₗ Nat :=
  toLex ((timestamp row.point).toNat, row.id.toNat)

/-- An end of the interval that is 0 is open. -/
def InInterval (beginMs endMs timestampMs : UInt64) : Prop :=
  (beginMs = 0 ∨ beginMs ≤ timestampMs) ∧ (endMs = 0 ∨ timestampMs ≤ endMs)

instance (beginMs endMs timestampMs : UInt64) : Decidable (InInterval beginMs endMs timestampMs) :=
  inferInstanceAs (Decidable (_ ∧ _))

/-- The frames are those of the rows of the interval, each once, by increasing time and id. -/
structure ReturnsInterval {α : Type} {backend : HistoryBackend} (history : HistoryClass α)
    (table : StoredTable backend α) (beginMs endMs : UInt64)
    (sent : List (Sent (HistoryRow α) Asdu)) : Prop where
  rows : ∀ row, row ∈ sent.map Sent.item ↔ (∃ stored ∈ table.rows, row = stored.read history) ∧
    InInterval beginMs endMs (history.timestamp row.point)
  increasing : Increasing (rowKey history.timestamp) (sent.map Sent.item)
  frames : ∀ s ∈ sent, s.frame = some (history.frame s.item.point)

/-- The frames of every class that is enabled return its interval. -/
structure HistoryAnswer.ReturnsIntervals (answer : HistoryAnswer) (x : PagedHistoryCall) :
    Prop where
  yx : x.config.yxEnabled = true →
    ReturnsInterval yxHistory (x.yx.table.page 0) x.beginMs x.endMs answer.yx
  yc : x.config.ycEnabled = true →
    ReturnsInterval ycHistory (x.yc.table.page 0) x.beginMs x.endMs answer.yc
  dd : x.config.ddEnabled = true →
    ReturnsInterval ddHistory (x.dd.table.page 0) x.beginMs x.endMs answer.dd

/-- The call ends, and returns the whole interval. -/
def PagedHistoryCall.Complete (x : PagedHistoryCall) : Prop :=
  ∃ enough, ∀ n ≥ enough, ∃ answer, x.answer n = some answer ∧
    (x.config.enabled = true → answer.ReturnsIntervals x)

def QueryOutcome.Succeeds (x : QueryOutcome) : Prop :=
  x.validTable = true ∧ x.connected = true ∧ x.executed = true ∧ historyPageRecords ≤ x.fetched

def PageOutcomes.StayActive (x : PageOutcomes) : Prop :=
  (∀ p, x.active p = true) ∧ ∀ p, StaysActive (x.rows p)

/-- The table does not change during the call, every query succeeds and the client stays
active. -/
structure ClassInput.Undisturbed {backend : HistoryBackend} {α : Type}
    (input : ClassInput backend α) : Prop where
  unchanged : ∀ p, input.table.page p = input.table.page 0
  queries : ∀ p, (input.queries p).Succeeds
  client : input.client.StayActive

structure PagedHistoryCall.Undisturbed (x : PagedHistoryCall) : Prop where
  backend : x.config.backend ≠ .other
  yx : x.yx.Undisturbed
  yc : x.yc.Undisturbed
  dd : x.dd.Undisturbed

/-- The rows of the interval. -/
def intervalRows {backend : HistoryBackend} {α : Type} (table : StoredTable backend α)
    (beginMs endMs : UInt64) : List (StoredRow α) :=
  table.rows.filter fun row => decide (InInterval beginMs endMs (UInt64.ofInt row.timestampMs))

/-- Every row of the interval can be reached by a cursor, which starts at `(0, 0)`, and a page of
the store can fill a buffer or the interval fits into the first page. -/
structure PagesReach {backend : HistoryBackend} {α : Type} (config : HistoryStoreConfig)
    (table : StoredTable backend α) (beginMs endMs : UInt64) : Prop where
  times : ∀ row ∈ intervalRows table beginMs endMs, 0 ≤ row.timestampMs
  pages : (historyPageRecords : Int) ≤ config.queryMaxRecords ∨
    ((intervalRows table beginMs endMs).length : Int) ≤ config.queryMaxRecords

/-- This holds of every class that is enabled. -/
structure PagedHistoryCall.PagesSuffice (x : PagedHistoryCall) : Prop where
  yx : x.config.yxEnabled = true → PagesReach x.config (x.yx.table.page 0) x.beginMs x.endMs
  yc : x.config.ycEnabled = true → PagesReach x.config (x.yc.table.page 0) x.beginMs x.endMs
  dd : x.config.ddEnabled = true → PagesReach x.config (x.dd.table.page 0) x.beginMs x.endMs

namespace HistoryCallLemmas

open FrameLoopLemmas SoeQueryLemmas

/-! ### Numbers -/

theorem toNat_ofInt {v : Int} (hpos : 0 ≤ v) (hlt : v < 2 ^ 64) :
    ((UInt64.ofInt v).toNat : Int) = v := by
  rw [UInt64.ofInt, Int.emod_eq_of_lt hpos hlt, UInt64.toNat_ofNat_of_lt']
  · exact Int.toNat_of_nonneg hpos
  · exact (Int.toNat_lt hpos).mpr hlt

theorem toNat_ofInt_lt {v : Int} (hpos : 0 ≤ v) (hlt : v < 2 ^ 63) :
    (UInt64.ofInt v).toNat < 2 ^ 63 := by
  have hread := toNat_ofInt hpos (hlt.trans (by decide))
  omega

theorem columnLimit_le (backend : HistoryBackend) : columnLimit backend ≤ 2 ^ 64 := by
  cases backend with
  | sqlite => decide
  | mysql => decide
  | other => decide

/-- A number of a column is bound again as it was read. -/
theorem column_ofInt {backend : HistoryBackend} {v : Int} (hpos : 0 ≤ v)
    (hlt : v < columnLimit backend) :
    columnTimestamp backend (UInt64.ofInt v) = (UInt64.ofInt v).toNat := by
  refine columnTimestamp_eq fun hsqlite => toNat_ofInt_lt hpos ?_
  rwa [hsqlite] at hlt

theorem and_toNat_le (a b : UInt8) : (a &&& b).toNat ≤ b.toNat := by
  rw [UInt8.toNat_and]
  exact Nat.and_le_right

theorem myMktime_range (tmYear tmMon tmMday tmHour tmMin tmSec : Int)
    (hyear : 100 ≤ tmYear ∧ tmYear ≤ 227) (hmon : -1 ≤ tmMon ∧ tmMon ≤ 14)
    (hmday : 0 ≤ tmMday ∧ tmMday ≤ 31) (hhour : 0 ≤ tmHour ∧ tmHour ≤ 31)
    (hmin : 0 ≤ tmMin ∧ tmMin ≤ 63) (hsec : 0 ≤ tmSec ∧ tmSec ≤ 65) :
    0 ≤ myMktime tmYear tmMon tmMday tmHour tmMin tmSec ∧
      myMktime tmYear tmMon tmMday tmHour tmMin tmSec < 2 ^ 40 := by
  unfold myMktime
  dsimp only
  split
  · omega
  · omega

/-- The ends of the interval are small numbers. -/
theorem msgTimeToMs_lt (time : Cp56Time2a) : (msgTimeToMs time).toNat < 2 ^ 63 := by
  unfold msgTimeToMs
  split
  · have hmin : (time[2] &&& 0x3f).toNat ≤ 63 := and_toNat_le _ _
    have hhour : (time[3] &&& 0x1f).toNat ≤ 31 := and_toNat_le _ _
    have hmday : (time[4] &&& 0x1f).toNat ≤ 31 := and_toNat_le _ _
    have hmon : (time[5] &&& 0x0f).toNat ≤ 15 := and_toNat_le _ _
    have hyear : (time[6] &&& 0x7f).toNat ≤ 127 := and_toNat_le _ _
    have hlow := time[0].toNat_lt
    have hhigh := time[1].toNat_lt
    have hrange := myMktime_range ((time[6] &&& 0x7f).toNat + 100)
      ((time[5] &&& 0x0f).toNat - 1) (time[4] &&& 0x1f).toNat (time[3] &&& 0x1f).toNat
      (time[2] &&& 0x3f).toNat (((time[0].toNat + time[1].toNat * 0x100 : Nat) : Int) / 1000)
      (by omega) (by omega) (by omega) (by omega) (by omega) (by omega)
    unfold cp56Time2aToMsTimestamp
    refine toNat_ofInt_lt ?_ ?_
    · omega
    · omega
  · decide

theorem column_zero (backend : HistoryBackend) : columnTimestamp backend 0 = 0 :=
  columnTimestamp_eq fun _ => by decide

theorem applyQueryLimit_le (config : HistoryStoreConfig) (maxRecords : Nat) :
    applyQueryLimit config maxRecords ≤ maxRecords := by
  unfold applyQueryLimit
  split
  · next h => exact Int.toNat_le.mpr h.2.le
  · exact Nat.le_refl _

/-! ### Rows -/

section Rows

variable {α : Type} {history : HistoryClass α} {backend : HistoryBackend}
  {table : StoredTable backend α} {a b : StoredRow α} {beginMs endMs : UInt64}

theorem increasing_stored (table : StoredTable backend α) :
    Increasing StoredRow.key (inOrder StoredRow.key table.rows) := by
  refine increasing_inOrder (List.Nodup.of_map (fun key : Int ×ₗ Int => (ofLex key).2) ?_)
  rw [List.map_map]
  exact table.ids_nodup

theorem id_read (history : HistoryClass α) (ha : a ∈ table.rows) :
    ((a.read history).id.toNat : Int) = a.id :=
  toNat_ofInt (Int.le_of_lt (table.ids_pos a ha))
    ((table.ids_below a ha).trans_le (columnLimit_le _))

theorem time_read (history : HistoryClass α) (ha : a ∈ table.rows) (hpos : 0 ≤ a.timestampMs) :
    ((history.timestamp (a.read history).point).toNat : Int) = a.timestampMs := by
  rw [StoredRow.read, history.timestamp_stamp]
  exact toNat_ofInt hpos ((table.times_below a ha).trans_le (columnLimit_le _))

/-- A row that has been read is the next cursor. -/
theorem cursor_read (history : HistoryClass α) (ha : a ∈ table.rows) (hpos : 0 ≤ a.timestampMs) :
    columnTimestamp backend (history.timestamp (a.read history).point) = a.timestampMs ∧
      columnTimestamp backend (a.read history).id = a.id := by
  constructor
  · rw [← time_read history ha hpos, StoredRow.read, history.timestamp_stamp]
    exact column_ofInt hpos (table.times_below a ha)
  · rw [← id_read history ha, StoredRow.read]
    exact column_ofInt (Int.le_of_lt (table.ids_pos a ha)) (table.ids_below a ha)

/-- Rows are read in the order in which they are stored. -/
theorem read_lt (ha : a ∈ table.rows) (hb : b ∈ table.rows) (hpos : 0 ≤ a.timestampMs)
    (hlt : a.key < b.key) :
    rowKey history.timestamp (a.read history) < rowKey history.timestamp (b.read history) := by
  have hbpos : 0 ≤ b.timestampMs := by
    rcases Prod.Lex.toLex_lt_toLex.mp hlt with h | h
    · exact hpos.trans h.le
    · exact hpos.trans h.1.le
  have haid := id_read history ha
  have hbid := id_read history hb
  have hatime := time_read history ha hpos
  have hbtime := time_read history hb hbpos
  rw [rowKey, rowKey, Prod.Lex.toLex_lt_toLex]
  rcases Prod.Lex.toLex_lt_toLex.mp hlt with h | h
  · exact .inl (Int.ofNat_lt.mp (by rwa [hatime, hbtime]))
  · refine .inr ⟨Int.ofNat_inj.mp ?_, Int.ofNat_lt.mp ?_⟩
    · rw [hatime, hbtime]
      exact h.1
    · rw [haid, hbid]
      exact h.2

/-- Two rows of a table that are read alike are the same row. -/
theorem read_inj (ha : a ∈ table.rows) (hb : b ∈ table.rows)
    (h : a.read history = b.read history) : a = b := by
  refine List.inj_on_of_nodup_map table.ids_nodup ha hb ?_
  rw [← id_read history ha, ← id_read history hb, h]

/-- Below `2 ^ 63` the test of the database is that of the call. -/
theorem interval_read (ha : a ∈ table.rows) (hpos : 0 ≤ a.timestampMs)
    (hbegin : beginMs.toNat < 2 ^ 63) (hend : endMs.toNat < 2 ^ 63) :
    columnInInterval backend beginMs endMs a.timestampMs = true ↔
      InInterval beginMs endMs (UInt64.ofInt a.timestampMs) := by
  have htime := column_ofInt hpos (table.times_below a ha)
  have hstored : columnTimestamp backend (UInt64.ofInt a.timestampMs) = a.timestampMs := by
    rw [htime]
    exact toNat_ofInt hpos ((table.times_below a ha).trans_le (columnLimit_le _))
  have heq := columnInInterval_eq (columnTimestamp_eq fun _ => hbegin)
    (columnTimestamp_eq fun _ => hend) htime
  rw [hstored] at heq
  rw [heq]
  simp [soeInInterval, InInterval]

/-- The rows of the interval that a cursor can reach, in order. -/
def reachedRows (table : StoredTable backend α) (beginMs endMs : UInt64) : List (StoredRow α) :=
  (inOrder StoredRow.key table.rows).filter fun row =>
    decide (0 ≤ row.timestampMs) && columnInInterval backend beginMs endMs row.timestampMs

theorem increasing_reachedRows :
    Increasing StoredRow.key (reachedRows table beginMs endMs) :=
  (increasing_stored table).filter _

theorem mem_reachedRows (hbegin : beginMs.toNat < 2 ^ 63) (hend : endMs.toNat < 2 ^ 63) :
    a ∈ reachedRows table beginMs endMs ↔
      a ∈ intervalRows table beginMs endMs ∧ 0 ≤ a.timestampMs := by
  rw [reachedRows, intervalRows, List.mem_filter, List.mem_filter, inOrder_perm.mem_iff,
    Bool.and_eq_true, decide_eq_true_eq, decide_eq_true_eq]
  constructor
  · intro h
    exact ⟨⟨h.1, (interval_read h.1 h.2.1 hbegin hend).mp h.2.2⟩, h.2.1⟩
  · intro h
    exact ⟨h.1.1, h.2, (interval_read h.1.1 h.2 hbegin hend).mpr h.1.2⟩

theorem reachedRows_mem (h : a ∈ reachedRows table beginMs endMs) :
    a ∈ table.rows ∧ 0 ≤ a.timestampMs := by
  obtain ⟨hmem, htest⟩ := List.mem_filter.mp h
  rw [Bool.and_eq_true, decide_eq_true_eq] at htest
  exact ⟨inOrder_perm.mem_iff.mp hmem, htest.1⟩

/-- The first query has every row of this kind behind its cursor. -/
theorem start_below (h : a ∈ reachedRows table beginMs endMs) :
    toLex ((0 : Int), (0 : Int)) < a.key := by
  obtain ⟨hmem, hpos⟩ := reachedRows_mem h
  rw [StoredRow.key, Prod.Lex.toLex_lt_toLex]
  rcases hpos.lt_or_eq with hlt | hzero
  · exact .inl hlt
  · exact .inr ⟨hzero, table.ids_pos a hmem⟩

theorem storedBehindCursor_iff {lastTimestampMs lastId : UInt64} :
    storedBehindCursor backend lastTimestampMs lastId a = true ↔
      toLex (columnTimestamp backend lastTimestampMs, columnTimestamp backend lastId) < a.key := by
  rw [storedBehindCursor, Bool.or_eq_true, Bool.and_eq_true, decide_eq_true_eq,
    decide_eq_true_eq, beq_iff_eq, StoredRow.key, Prod.Lex.toLex_lt_toLex, eq_comm]

end Rows

/-! ### One class -/

section Class

variable {α : Type} {history : HistoryClass α} {config : HistoryStoreConfig}
  {table : StoredTable config.backend α} {beginMs endMs : UInt64} {x : QueryOutcome}

/-- A query that succeeds gives a page of the rows that a cursor can reach. -/
theorem fetchPage_eq (henabled : config.enabled = true) (hclass : history.enabled config = true)
    (hbackend : config.backend ≠ .other) (hx : x.Succeeds) {lastTimestampMs lastId : UInt64}
    (hcursor : 0 ≤ columnTimestamp config.backend lastTimestampMs) :
    fetchPage history config table x beginMs endMs lastTimestampMs lastId historyPageRecords =
      (page StoredRow.key (reachedRows table beginMs endMs)
        (applyQueryLimit config historyPageRecords)
        (toLex (columnTimestamp config.backend lastTimestampMs,
          columnTimestamp config.backend lastId))).map (StoredRow.read history) := by
  obtain ⟨hvalid, hconnected, hexecuted, hfetched⟩ := hx
  have hlimit := applyQueryLimit_le config historyPageRecords
  -- what is behind a cursor that is not negative is not negative
  have hwhere : ∀ row : StoredRow α, (columnInInterval config.backend beginMs endMs
      row.timestampMs && storedBehindCursor config.backend lastTimestampMs lastId row) =
      (decide (toLex (columnTimestamp config.backend lastTimestampMs,
        columnTimestamp config.backend lastId) < row.key) &&
        (decide (0 ≤ row.timestampMs) &&
          columnInInterval config.backend beginMs endMs row.timestampMs)) := by
    intro row
    rw [Bool.eq_iff_iff]
    simp only [Bool.and_eq_true, storedBehindCursor_iff, decide_eq_true_eq]
    constructor
    · intro h
      refine ⟨h.2, ?_, h.1⟩
      rcases Prod.Lex.toLex_lt_toLex.mp h.2 with hlt | heq
      · exact hcursor.trans hlt.le
      · exact hcursor.trans heq.1.le
    · intro h
      exact ⟨h.2.2, h.1⟩
  rw [fetchPage, henabled, hclass, if_neg (by decide), hvalid, hconnected, hexecuted,
    if_neg (by simp [hbackend]), List.take_take,
    Nat.min_eq_right (hlimit.trans hfetched), page, reachedRows, List.filter_filter]
  simp only [hwhere]

theorem fetchPage_disabled (h : ¬(config.enabled && history.enabled config) = true)
    (lastTimestampMs lastId : UInt64) :
    fetchPage history config table x beginMs endMs lastTimestampMs lastId historyPageRecords =
      [] := by
  refine if_pos ?_
  rw [← Bool.not_and, Bool.eq_false_of_not_eq_true h]
  rfl

/-- An iteration over a row, and its frame. -/
def rowSent (history : HistoryClass α) (row : StoredRow α) : Sent (HistoryRow α) Asdu :=
  ⟨row.read history, some (history.frame (row.read history).point)⟩

/-- For an active client the loop of a class is the reader of pages. -/
theorem sendHistoryClass_eq (rows : List (StoredRow α)) (next : Int ×ₗ Int → List (StoredRow α))
    {query : Nat → UInt64 → UInt64 → List (HistoryRow α)} {client : PageOutcomes}
    (hclient : client.StayActive)
    (hquery : ∀ p, ∀ last ∈ rows, query p (history.timestamp (last.read history).point)
      (last.read history).id = (next last.key).map (StoredRow.read history))
    (hnext : ∀ cursor, ∀ row ∈ next cursor, row ∈ rows) {n p : Nat}
    {records all : List (StoredRow α)} (hrecords : ∀ row ∈ records, row ∈ rows)
    (h : collect StoredRow.key historyPageRecords next n records = some all) :
    Answer.sendHistoryClass history.frame history.timestamp query client n p
      (records.map (StoredRow.read history)) = (all.map (rowSent history), true) := by
  induction n generalizing p records all with
  | zero => cases h
  | succ n ih =>
    rw [collect] at h
    rw [Answer.sendHistoryClass, List.getLast?_map]
    cases hlast : records.getLast? with
    | none =>
      rw [hlast] at h
      cases h
      rfl
    | some last =>
      rw [hlast] at h
      dsimp only [Option.map_some] at h ⊢
      rw [if_pos (hclient.1 p), frameLoop_of_staysActive (hclient.2 p), List.length_map,
        List.map_map]
      split
      · next hshort =>
        rw [if_pos hshort] at h
        cases h
        rfl
      · next hfull =>
        rw [if_neg hfull] at h
        obtain ⟨rest, hrest, rfl⟩ := Option.map_eq_some_iff.mp h
        rw [hquery _ last (hrecords last (List.mem_of_getLast? hlast)),
          ih (hnext last.key) hrest, List.map_append]
        rfl

/-- What a class sends: everything that a cursor can reach, or the first page. -/
def classRows (config : HistoryStoreConfig) (l : List (StoredRow α)) : List (StoredRow α) :=
  if (historyPageRecords : Int) ≤ config.queryMaxRecords then l
  else l.take config.queryMaxRecords.toNat

theorem items_rowSent (history : HistoryClass α) (rows : List (StoredRow α)) :
    (rows.map (rowSent history)).map Sent.item = rows.map (StoredRow.read history) := by
  rw [List.map_map]
  rfl

/-- The frames of a class are those of the interval iff its rows are reached, and none of them is
cut off. -/
theorem returnsInterval_iff (hlimit : 0 < config.queryMaxRecords)
    (hbegin : beginMs.toNat < 2 ^ 63) (hend : endMs.toNat < 2 ^ 63) :
    ReturnsInterval history table beginMs endMs
      ((classRows config (reachedRows table beginMs endMs)).map (rowSent history)) ↔
      PagesReach config table beginMs endMs := by
  have hsub : (classRows config (reachedRows table beginMs endMs)).Sublist
      (reachedRows table beginMs endMs) := by
    unfold classRows
    split
    · exact List.Sublist.refl _
    · exact List.take_sublist _ _
  have hinterval : ∀ row ∈ reachedRows table beginMs endMs,
      InInterval beginMs endMs (history.timestamp (row.read history).point) := by
    intro row hrow
    have hin := (mem_reachedRows hbegin hend).mp hrow
    rw [StoredRow.read, history.timestamp_stamp]
    exact of_decide_eq_true (List.mem_filter.mp hin.1).2
  constructor
  · intro h
    -- a row of the interval is read as a row that was sent, so it is that row
    have hsent : ∀ row ∈ intervalRows table beginMs endMs,
        row ∈ classRows config (reachedRows table beginMs endMs) := by
      intro row hrow
      obtain ⟨hmem, hin⟩ := List.mem_filter.mp hrow
      have hread := (h.rows (row.read history)).mpr ⟨⟨row, hmem, rfl⟩, by
        rw [StoredRow.read, history.timestamp_stamp]
        exact of_decide_eq_true hin⟩
      rw [items_rowSent] at hread
      obtain ⟨row', hrow', heq⟩ := List.mem_map.mp hread
      rwa [read_inj (reachedRows_mem (hsub.subset hrow')).1 hmem heq] at hrow'
    refine ⟨fun row hrow => (reachedRows_mem (hsub.subset (hsent row hrow))).2, ?_⟩
    refine or_iff_not_imp_left.mpr fun hpage => ?_
    have hnodup : (intervalRows table beginMs endMs).Nodup :=
      (List.Nodup.of_map _ table.ids_nodup).filter _
    have hle := (hnodup.subperm hsent).length_le
    rw [classRows, if_neg hpage, List.length_take] at hle
    omega
  · intro h
    have hall : classRows config (reachedRows table beginMs endMs) =
        reachedRows table beginMs endMs := by
      unfold classRows
      split
      · rfl
      · next hpage =>
        have hle : (reachedRows table beginMs endMs).length ≤
            (intervalRows table beginMs endMs).length :=
          (increasing_reachedRows.nodup.subperm fun row hrow =>
            ((mem_reachedRows hbegin hend).mp hrow).1).length_le
        have hfits := h.pages.resolve_left hpage
        exact List.take_of_length_le (by omega)
    rw [hall]
    refine ⟨fun row => ?_, ?_, fun s hs => ?_⟩
    · rw [items_rowSent, List.mem_map]
      constructor
      · rintro ⟨stored, hstored, rfl⟩
        exact ⟨⟨stored, (reachedRows_mem hstored).1, rfl⟩, hinterval stored hstored⟩
      · rintro ⟨⟨stored, hstored, rfl⟩, hin⟩
        rw [StoredRow.read, history.timestamp_stamp] at hin
        have hrow : stored ∈ intervalRows table beginMs endMs :=
          List.mem_filter.mpr ⟨hstored, decide_eq_true hin⟩
        exact ⟨stored, (mem_reachedRows hbegin hend).mpr ⟨hrow, h.times stored hrow⟩, rfl⟩
    · rw [items_rowSent]
      refine List.pairwise_map.mpr (increasing_reachedRows.imp_of_mem fun ha hb hlt => ?_)
      exact read_lt (reachedRows_mem ha).1 (reachedRows_mem hb).1 (reachedRows_mem ha).2 hlt
    · obtain ⟨row, _, rfl⟩ := List.mem_map.mp hs
      rfl

end Class

/-! ### The call -/

section Call

variable {x : PagedHistoryCall} {α : Type} {history : HistoryClass α}
  {input : ClassInput x.config.backend α}

theorem sends_class (hlimit : 0 < x.config.queryMaxRecords) (henabled : x.config.enabled = true)
    (hclass : history.enabled x.config = true) (hbackend : x.config.backend ≠ .other)
    (hinput : input.Undisturbed) {n : Nat}
    (hn : (reachedRows (input.table.page 0) x.beginMs x.endMs).length < n) :
    x.send history input (x.query history input 0 0 0) n =
      ((classRows x.config (reachedRows (input.table.page 0) x.beginMs x.endMs)).map
        (rowSent history), true) := by
  -- every query is one for a page of the same rows
  have hquery : ∀ p lastTimestampMs lastId,
      0 ≤ columnTimestamp x.config.backend lastTimestampMs →
      x.query history input p lastTimestampMs lastId =
        (page StoredRow.key (reachedRows (input.table.page 0) x.beginMs x.endMs)
          (applyQueryLimit x.config historyPageRecords)
          (toLex (columnTimestamp x.config.backend lastTimestampMs,
            columnTimestamp x.config.backend lastId))).map (StoredRow.read history) := by
    intro p lastTimestampMs lastId hcursor
    rw [PagedHistoryCall.query, hinput.unchanged p]
    exact fetchPage_eq henabled hclass hbackend (hinput.queries p) hcursor
  have hfirst := hquery 0 0 0 (column_zero _).ge
  rw [column_zero, page_start _ fun row => start_below] at hfirst
  rw [PagedHistoryCall.send, hfirst]
  refine sendHistoryClass_eq (reachedRows (input.table.page 0) x.beginMs x.endMs)
    (page StoredRow.key (reachedRows (input.table.page 0) x.beginMs x.endMs)
      (applyQueryLimit x.config historyPageRecords)) hinput.client
    (fun p last hlast => ?_) (fun cursor row hrow => ?_) (fun row => List.mem_of_mem_take) ?_
  · obtain ⟨hmem, hpos⟩ := reachedRows_mem hlast
    obtain ⟨htime, hid⟩ := cursor_read history hmem hpos
    rw [hquery _ _ _ (htime ▸ hpos), htime, hid]
    rfl
  · exact (List.mem_filter.mp (List.mem_of_mem_take hrow)).1
  · by_cases hpage : (historyPageRecords : Int) ≤ x.config.queryMaxRecords
    · have hfull : applyQueryLimit x.config historyPageRecords = historyPageRecords :=
        if_neg fun h => absurd h.2 (Int.not_lt.mpr hpage)
      rw [classRows, if_pos hpage, hfull]
      exact collect_all (by decide) increasing_reachedRows hn
    · have hcut : applyQueryLimit x.config historyPageRecords = x.config.queryMaxRecords.toNat :=
        if_pos ⟨hlimit, Int.not_le.mp hpage⟩
      rw [classRows, if_neg hpage, hcut]
      exact collect_short (by omega) _ (Nat.zero_lt_of_lt hn)

/-- A class that is not enabled, or a store that is not, has no first page. -/
theorem query_disabled (h : ¬(x.config.enabled && history.enabled x.config) = true) (p : Nat)
    (lastTimestampMs lastId : UInt64) :
    x.query history input p lastTimestampMs lastId = [] :=
  fetchPage_disabled h _ _

theorem queryHistoryData_eq (x : PagedHistoryCall) : queryHistoryData x =
    { yx := x.query yxHistory x.yx 0 0 0
      yc := x.query ycHistory x.yc 0 0 0
      dd := x.query ddHistory x.dd 0 0 0 } := by
  unfold queryHistoryData
  split
  · rfl
  · next hstore =>
    have hdisabled : ∀ enabled, ¬(x.config.enabled && enabled) = true :=
      fun _ h => hstore (Bool.and_eq_true_iff.mp h).1
    rw [query_disabled (hdisabled _), query_disabled (hdisabled _), query_disabled (hdisabled _)]

theorem send_disabled (h : ¬(x.config.enabled && history.enabled x.config) = true) {n : Nat}
    (hn : 0 < n) : x.send history input (x.query history input 0 0 0) n = ([], true) := by
  obtain ⟨n, rfl⟩ := Nat.exists_eq_succ_of_ne_zero (Nat.ne_of_gt hn)
  rw [PagedHistoryCall.send, query_disabled h]
  rfl

/-- After enough pages a class has sent what it sends. -/
theorem class_ends (history : HistoryClass α) (hlimit : 0 < x.config.queryMaxRecords)
    (hbackend : x.config.backend ≠ .other) (hinput : input.Undisturbed) :
    ∃ enough sent, (∀ n ≥ enough, x.send history input (x.query history input 0 0 0) n =
      (sent, true)) ∧
      (x.config.enabled = true → history.enabled x.config = true →
        (ReturnsInterval history (input.table.page 0) x.beginMs x.endMs sent ↔
          PagesReach x.config (input.table.page 0) x.beginMs x.endMs)) := by
  by_cases henabled : (x.config.enabled && history.enabled x.config) = true
  · obtain ⟨hstore, hclass⟩ := Bool.and_eq_true_iff.mp henabled
    refine ⟨_, _, fun n hn => sends_class hlimit hstore hclass hbackend hinput
      (Nat.lt_of_succ_le hn), fun _ _ => ?_⟩
    exact returnsInterval_iff hlimit (msgTimeToMs_lt _) (msgTimeToMs_lt _)
  · refine ⟨1, [], fun n hn => send_disabled henabled hn, fun hstore hclass => ?_⟩
    exact absurd (Bool.and_eq_true_iff.mpr ⟨hstore, hclass⟩) henabled

end Call

end HistoryCallLemmas

open HistoryCallLemmas

/-- A history call returns the whole interval iff every row of the interval can be reached by a
cursor, and the pages of the store can fill the buffers or the interval fits into the first page
of every class. -/
theorem history_call_complete_iff (x : PagedHistoryCall)
    (hlimit : 0 < x.config.queryMaxRecords) (hx : x.Undisturbed) :
    x.Complete ↔ (x.config.enabled = true → x.PagesSuffice) := by
  obtain ⟨enoughYx, yx, hyx, hyxIff⟩ := class_ends yxHistory hlimit hx.backend hx.yx
  obtain ⟨enoughYc, yc, hyc, hycIff⟩ := class_ends ycHistory hlimit hx.backend hx.yc
  obtain ⟨enoughDd, dd, hdd, hddIff⟩ := class_ends ddHistory hlimit hx.backend hx.dd
  have hanswer : ∀ n ≥ enoughYx + enoughYc + enoughDd, x.answer n = some ⟨yx, yc, dd⟩ := by
    intro n hn
    rw [PagedHistoryCall.answer, queryHistoryData_eq, Answer.sendHistoryDataRecords]
    dsimp only
    rw [hyx n (by omega), hyc n (by omega), hdd n (by omega)]
    rfl
  constructor
  · intro h hstore
    obtain ⟨m, hm⟩ := h
    obtain ⟨answer, heq, hreturns⟩ := hm (m + (enoughYx + enoughYc + enoughDd)) (by omega)
    rw [hanswer _ (by omega)] at heq
    cases heq
    exact ⟨fun hclass => (hyxIff hstore hclass).mp ((hreturns hstore).yx hclass),
      fun hclass => (hycIff hstore hclass).mp ((hreturns hstore).yc hclass),
      fun hclass => (hddIff hstore hclass).mp ((hreturns hstore).dd hclass)⟩
  · intro h
    refine ⟨_, fun n hn => ⟨_, hanswer n hn, fun hstore => ?_⟩⟩
    exact ⟨fun hclass => (hyxIff hstore hclass).mpr ((h hstore).yx hclass),
      fun hclass => (hycIff hstore hclass).mpr ((h hstore).yc hclass),
      fun hclass => (hddIff hstore hclass).mpr ((h hstore).dd hclass)⟩

/-- A store with the class YX only, and at most two rows in an answer. -/
def twoRowConfig : HistoryStoreConfig where
  enabled := true
  backend := .sqlite
  soeEnabled := false
  yxEnabled := true
  ycEnabled := false
  ddEnabled := false
  soeMaxRecords := 10000
  queryMaxRecords := 2
  queueCapacity := 4096

/-- Row `i` of a table of YX rows that all have the same time. -/
def sameTimeRow (i : Fin 3) : StoredRow YxPoint :=
  ⟨i.val + 1, 1000, { initYxPoint 0 with timestampMs := 1000 }⟩

def sameTimeTable (ids : List (Fin 3)) (hnodup : ids.Nodup) : StoredTable .sqlite YxPoint where
  rows := ids.map sameTimeRow
  ids_nodup := by
    rw [List.map_map]
    refine hnodup.map fun i j h => Fin.ext ?_
    simpa [sameTimeRow] using h
  ids_pos := by simp [sameTimeRow]
  ids_below := by
    simp only [List.mem_map, forall_exists_index, and_imp, forall_apply_eq_imp_iff₂]
    intro i _
    show (i.val : Int) + 1 < 2 ^ 63
    omega
  times_below := by
    simp only [List.mem_map, forall_exists_index, and_imp, forall_apply_eq_imp_iff₂]
    intro i _
    show (1000 : Int) < 2 ^ 63
    decide

/-- A table that stays as it is, with queries that succeed, for a client that stays active. -/
def quietClass {backend : HistoryBackend} {α : Type} (table : StoredTable backend α) :
    ClassInput backend α where
  table := ⟨fun _ => table, fun _ _ _ ha _ hb => List.inj_on_of_nodup_map table.ids_nodup ha hb⟩
  queries := fun _ => ⟨true, true, true, historyPageRecords⟩
  client := ⟨fun _ => true, fun _ _ => ⟨true, true⟩⟩

theorem quietClass_undisturbed {backend : HistoryBackend} {α : Type}
    (table : StoredTable backend α) : (quietClass table).Undisturbed :=
  ⟨fun _ => rfl, fun _ => ⟨rfl, rfl, rfl, Nat.le_refl _⟩, fun _ => rfl, fun _ _ => rfl⟩

/-- A call with an open interval. -/
def sameTimeCall (ids : List (Fin 3)) (hnodup : ids.Nodup) : PagedHistoryCall where
  config := twoRowConfig
  beginTime := Vector.replicate 7 0
  endTime := Vector.replicate 7 0
  yx := quietClass (sameTimeTable ids hnodup)
  yc := quietClass ⟨[], List.nodup_nil, by simp, by simp, by simp⟩
  dd := quietClass ⟨[], List.nodup_nil, by simp, by simp, by simp⟩

theorem sameTimeCall_undisturbed (ids : List (Fin 3)) (hnodup : ids.Nodup) :
    (sameTimeCall ids hnodup).Undisturbed :=
  ⟨HistoryBackend.noConfusion, quietClass_undisturbed _, quietClass_undisturbed _,
    quietClass_undisturbed _⟩

theorem two_rows_returned : (sameTimeCall [0, 1] (by decide)).Complete := by
  refine (history_call_complete_iff _ (by decide) (sameTimeCall_undisturbed _ _)).mpr fun _ =>
    ⟨fun _ => ?_, fun h => ?_, fun h => ?_⟩
  · exact ⟨by decide, .inr (by decide)⟩
  · cases h
  · cases h

/-- Three rows in the interval and pages of two: the third one is never asked for. -/
theorem third_row_missing : ¬(sameTimeCall [0, 1, 2] (by decide)).Complete := by
  intro h
  obtain ⟨enough, yx, hyx, hiff⟩ := class_ends yxHistory
    (x := sameTimeCall [0, 1, 2] (by decide)) (by decide)
    (sameTimeCall_undisturbed [0, 1, 2] (by decide)).backend
    (sameTimeCall_undisturbed [0, 1, 2] (by decide)).yx
  obtain ⟨m, hm⟩ := h
  obtain ⟨answer, heq, hreturns⟩ := hm (m + enough) (by omega)
  rw [PagedHistoryCall.answer, queryHistoryData_eq, Answer.sendHistoryDataRecords] at heq
  dsimp only at heq
  split at heq
  · cases heq
    have hsent := (hreturns rfl).yx rfl
    dsimp only at hsent
    rw [hyx _ (by omega)] at hsent
    have hpages := ((hiff rfl rfl).mp hsent).pages
    revert hpages
    decide
  · cases heq

end Iec104Slave
