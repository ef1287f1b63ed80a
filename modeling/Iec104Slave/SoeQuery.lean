import Iec104Slave.HistoryWriter

/-!
# SOE queries (`soe_history_query`, `history_store_query_soe`)

`send_history_soe` answers a call from the database if it is enabled, and from the history in
memory if not. The history is read in the order of the appends, the table in the order of
the time, and SQLite compares times as signed numbers.

Results:
1. `stored_rows`: what the table has when every append has been written.
2. `soe_query_same_iff`: when both stores give the same answer.
-/

namespace Iec104Slave

open Ordered

/-! ## The query of the table -/

/-- `(? = 0 OR timestamp_ms >= ?) AND (? = 0 OR timestamp_ms <= ?)`. -/
def columnInInterval (backend : HistoryBackend) (beginMs endMs : UInt64) (timestampMs : Int) :
    Bool :=
  (columnTimestamp backend beginMs == 0 ||
      decide (columnTimestamp backend beginMs ≤ timestampMs)) &&
    (columnTimestamp backend endMs == 0 || decide (timestampMs ≤ columnTimestamp backend endMs))

/-- The record that is read from a row; the time is converted to an unsigned number. -/
def SoeRow.read (row : SoeRow) : SoeRecord :=
  { row.record with timestampMs := UInt64.ofInt row.timestampMs }

/-- `history_store_query_soe`. `connected` says whether the connection and the schema are there;
the `SELECT` itself succeeds. -/
def historyStoreQuerySoe (config : HistoryStoreConfig) (connected : Bool) (table : SoeTable)
    (beginMs endMs : UInt64) (maxRecords : Nat) : List SoeRecord :=
  if !config.enabled || !config.soeEnabled || maxRecords == 0 then []
  else if !connected then []
  else
    (((inOrder SoeRow.key table.rows).filter fun row =>
      columnInInterval config.backend beginMs endMs row.timestampMs).take
        (applyQueryLimit config maxRecords)).map SoeRow.read

/-! ## Both stores -/

/-- The history in memory after the appends. -/
def soeHistoryOf (events : List SoeEvent) : SoeHistory :=
  Run.exec soeHistoryStep soeHistoryInit (events.map .append)

/-- The store and its worker, as they are created. -/
def storeStart (config : HistoryStoreConfig) : DbWorkerState HistorySoeQueueItem SoeTable :=
  ⟨historyStoreInit config ⟨[], 0⟩, .outer⟩

def soeStoreStep (config : HistoryStoreConfig) :
    DbWorkerState HistorySoeQueueItem SoeTable → StoreOp HistorySoeQueueItem WriteOutcome →
      DbWorkerState HistorySoeQueueItem SoeTable :=
  storeStep (historyStoreWriteSoeLocked config.withDefaults)

/-- The store is in use, the run has appended the events, the worker has written each of them, and
they are not more than the table may keep. -/
structure StoredAll (config : HistoryStoreConfig)
    (ops : List (StoreOp HistorySoeQueueItem WriteOutcome)) (events : List SoeEvent) : Prop where
  enabled : config.enabled = true
  soe_enabled : config.soeEnabled = true
  appended : (Run.outputs (soeStoreStep config) appendedItem (storeStart config) ops).map
    (fun item => item.record.event) = events
  written : insertedItems (Run.outputs (soeStoreStep config)
      (writeAttempt (historyStoreWriteSoeLocked config.withDefaults)) (storeStart config) ops) =
    Run.outputs (soeStoreStep config) appendedItem (storeStart config) ops
  room : (events.length : Int) ≤ config.withDefaults.soeMaxRecords

namespace SoeQueryLemmas

open HistoryStoreLemmas HistoryWriterLemmas SoeHistoryLemmas

variable {config : HistoryStoreConfig} {events : List SoeEvent}

theorem columnTimestamp_sqlite (timestampMs : UInt64) :
    columnTimestamp .sqlite timestampMs = Int.bmod timestampMs.toNat (2 ^ 64) :=
  BitVec.toInt_eq_toNat_bmod timestampMs.toBitVec

/-- A signed time differs from the unsigned one by a multiple of `2 ^ 64`. -/
theorem columnTimestamp_emod (backend : HistoryBackend) (timestampMs : UInt64) :
    columnTimestamp backend timestampMs % 2 ^ 64 = timestampMs.toNat := by
  have hunsigned : (timestampMs.toNat : Int) % 2 ^ 64 = timestampMs.toNat :=
    Int.emod_eq_of_lt (Int.natCast_nonneg _) (by exact_mod_cast timestampMs.toNat_lt)
  cases backend with
  | sqlite =>
    rw [columnTimestamp_sqlite]
    exact Int.bmod_emod.trans hunsigned
  | mysql => exact hunsigned
  | other => exact hunsigned

theorem ofInt_columnTimestamp (backend : HistoryBackend) (timestampMs : UInt64) :
    UInt64.ofInt (columnTimestamp backend timestampMs) = timestampMs := by
  rw [UInt64.ofInt, columnTimestamp_emod, Int.toNat_natCast, UInt64.ofNat_toNat]

theorem columnTimestamp_inj {backend : HistoryBackend} {a b : UInt64}
    (h : columnTimestamp backend a = columnTimestamp backend b) : a = b := by
  rw [← ofInt_columnTimestamp backend a, h, ofInt_columnTimestamp]

/-- Below `2 ^ 63` the column has the time as it is. -/
theorem columnTimestamp_eq {backend : HistoryBackend} {timestampMs : UInt64}
    (h : backend = .sqlite → timestampMs.toNat < 2 ^ 63) :
    columnTimestamp backend timestampMs = timestampMs.toNat := by
  cases backend with
  | sqlite =>
    rw [columnTimestamp_sqlite]
    have hlt := h rfl
    refine Int.bmod_eq_of_le ?_ ?_
    · omega
    · omega
  | mysql => rfl
  | other => rfl

theorem columnInInterval_eq {backend : HistoryBackend} {beginMs endMs timestampMs : UInt64}
    (hbegin : columnTimestamp backend beginMs = beginMs.toNat)
    (hend : columnTimestamp backend endMs = endMs.toNat)
    (htime : columnTimestamp backend timestampMs = timestampMs.toNat) :
    columnInInterval backend beginMs endMs (columnTimestamp backend timestampMs) =
      soeInInterval beginMs endMs timestampMs := by
  have hzero : ∀ bound : UInt64, ((bound.toNat : Int) == 0) = (bound == 0) := by
    intro bound
    rw [Bool.eq_iff_iff, beq_iff_eq, beq_iff_eq, Int.natCast_eq_zero, ← UInt64.toNat_inj]
    rfl
  rw [columnInInterval, soeInInterval, hbegin, hend, htime, hzero, hzero]
  simp only [UInt64.le_iff_toNat_le, Int.ofNat_le]

/-- The rows that a write inserts are the items of the attempts that succeed. -/
theorem inserted_writeCall (config : HistoryStoreConfig)
    (s : DbWorkerState HistorySoeQueueItem SoeTable)
    (op : StoreOp HistorySoeQueueItem WriteOutcome) :
    insertedItems (writeAttempt (historyStoreWriteSoeLocked config) s op) =
      (Run.outputs (soeWriteStep config) (soeInserted config) s.store.db (writeCall s op)).map
        fun row => ⟨row.record, row.ca⟩ := by
  cases op with
  | append item => rfl
  | stop => rfl
  | worker x =>
    cases hpc : s.pc with
    | writing item retry =>
      simp only [writeAttempt, writeCall, hpc, Run.outputs, soeInserted, List.append_nil]
      cases hok : (historyStoreWriteSoeLocked config s.store.db item x).2 with
      | true => simp [insertedItems, soeRowNext]
      | false => simp [insertedItems]
    | outer => simp [writeAttempt, writeCall, hpc, Run.outputs, insertedItems]
    | waiting => simp [writeAttempt, writeCall, hpc, Run.outputs, insertedItems]
    | woken => simp [writeAttempt, writeCall, hpc, Run.outputs, insertedItems]
    | taking => simp [writeAttempt, writeCall, hpc, Run.outputs, insertedItems]
    | trying item retry => simp [writeAttempt, writeCall, hpc, Run.outputs, insertedItems]
    | stopped => simp [writeAttempt, writeCall, hpc, Run.outputs, insertedItems]

theorem inserted_run (config : HistoryStoreConfig)
    (s : DbWorkerState HistorySoeQueueItem SoeTable)
    (ops : List (StoreOp HistorySoeQueueItem WriteOutcome)) :
    insertedItems (Run.outputs (storeStep (historyStoreWriteSoeLocked config))
        (writeAttempt (historyStoreWriteSoeLocked config)) s ops) =
      (Run.outputs (soeWriteStep config) (soeInserted config) s.store.db
        (Run.outputs (storeStep (historyStoreWriteSoeLocked config)) writeCall s ops)).map
          fun row => ⟨row.record, row.ca⟩ := by
  induction ops generalizing s with
  | nil => rfl
  | cons op ops ih =>
    rw [Run.outputs, Run.outputs, Run.outputs_append, List.map_append, ← inserted_writeCall,
      ← db_step, ← ih]
    simp [insertedItems]

theorem column_of_inserted (config : HistoryStoreConfig) (table : SoeTable)
    (writes : List SoeWrite) :
    ∀ row ∈ Run.outputs (soeWriteStep config) (soeInserted config) table writes,
      row.timestampMs = columnTimestamp config.backend row.record.timestampMs := by
  induction writes generalizing table with
  | nil => exact fun row hrow => by cases hrow
  | cons write writes ih =>
    intro row hrow
    rcases List.mem_append.mp hrow with hrow | hrow
    · unfold soeInserted at hrow
      split at hrow
      · rw [List.mem_singleton.mp hrow]
        rfl
      · cases hrow
    · exact ih _ row hrow

/-- The table has a row for every append, with increasing ids. -/
theorem stored_rows {ops : List (StoreOp HistorySoeQueueItem WriteOutcome)}
    (h : StoredAll config ops events) :
    ∃ rows : List SoeRow, Increasing SoeRow.id rows ∧
      rows.map (fun row => row.record.event) = events ∧
      (∀ row ∈ rows,
        row.timestampMs = columnTimestamp config.backend row.record.timestampMs) ∧
      (Run.exec (soeStoreStep config) (storeStart config) ops).store.db.rows.Perm rows := by
  have hdb := db_run config.withDefaults (storeStart config) ops
  have hinserted := inserted_run config.withDefaults (storeStart config) ops
  have hretention := retentionInv_run (soeMaxRecords_pos config)
    (Run.outputs (soeStoreStep config) writeCall (storeStart config) ops)
  have hevents : (allInserted config.withDefaults (Run.outputs (soeStoreStep config) writeCall
      (storeStart config) ops)).map (fun row => row.record.event) = events := by
    have hmap := congrArg (List.map fun item => item.record.event) (hinserted.symm.trans h.written)
    rw [List.map_map, h.appended] at hmap
    exact hmap
  refine ⟨_, hretention.increasing, hevents, column_of_inserted _ _ _, ?_⟩
  rw [soeStoreStep, hdb]
  refine hretention.covers.perm ?_
  rw [← List.length_map, hevents]
  exact (Int.le_toNat (soeMaxRecords_pos config).le).mpr h.room

/-! ### The answers -/

theorem exec_eventsStep (events : List SoeEvent) :
    Run.exec eventsStep [] (events.map .append) = events := by
  induction events using List.reverseRecOn with
  | nil => rfl
  | append_singleton events event ih =>
    rw [List.map_append, Run.exec_append, ih]
    rfl

theorem map_event_numbered (events : List SoeEvent) :
    (numbered events).map SoeRecord.event = events := by
  refine List.ext_getElem? fun i => ?_
  rw [List.getElem?_map, numbered, List.getElem?_mapIdx, Option.map_map]
  exact Option.map_id_apply

/-- The answer from memory: the first events of the interval. -/
theorem answer_memory (hlen : events.length ≤ soeHistoryMaxRecords) (beginMs endMs : UInt64)
    (maxRecords : Nat) :
    (soeHistoryQuery (soeHistoryOf events) beginMs endMs maxRecords).map SoeRecord.event =
      (events.filter fun e => soeInInterval beginMs endMs e.timestampMs).take maxRecords := by
  have hinv := historyInv_exec (events.map .append)
  rw [exec_eventsStep] at hinv
  have hall : lastRecords (numbered events) = numbered events := by
    rw [lastRecords, length_numbered, Nat.sub_eq_zero_of_le hlen, List.drop_zero]
  have hfilter := List.filter_map (f := SoeRecord.event)
    (p := fun e => soeInInterval beginMs endMs e.timestampMs) (l := numbered events)
  rw [map_event_numbered] at hfilter
  rw [soeHistoryOf, query_eq hinv, hall, List.map_take, hfilter]
  rfl

/-- The answer from the table: the first events of the interval in the order of the column. -/
theorem answer_store {ops : List (StoreOp HistorySoeQueueItem WriteOutcome)}
    (h : StoredAll config ops events) (beginMs endMs : UInt64) {maxRecords : Nat}
    (hlimit : (maxRecords : Int) ≤ config.withDefaults.queryMaxRecords) :
    (historyStoreQuerySoe config.withDefaults true
        (Run.exec (soeStoreStep config) (storeStart config) ops).store.db beginMs endMs
        maxRecords).map SoeRecord.event =
      ((inOrder (posKey fun e : SoeEvent => columnTimestamp config.backend e.timestampMs)
        (events.zipIdx.filter fun a => columnInInterval config.backend beginMs endMs
          (columnTimestamp config.backend a.1.timestampMs))).take maxRecords).map Prod.fst := by
  obtain ⟨rows, hids, hevents, hcolumn, hperm⟩ := stored_rows h
  have hkeys : (rows.map SoeRow.key).Nodup := by
    refine List.Nodup.of_map (fun key : Int ×ₗ Nat => (ofLex key).2) ?_
    rw [List.map_map]
    exact hids.keys_nodup
  -- the table in the order of the query
  have hrows : inOrder SoeRow.key
      (Run.exec (soeStoreStep config) (storeStart config) ops).store.db.rows =
      inOrder SoeRow.key rows :=
    inOrder_eq (increasing_inOrder hkeys) (inOrder_perm.trans hperm.symm)
  have hsorted : (inOrder SoeRow.key rows).map (fun row => row.record.event) =
      (inOrder (posKey fun e : SoeEvent => columnTimestamp config.backend e.timestampMs)
        events.zipIdx).map Prod.fst := by
    rw [← hevents, ← map_inOrder_ids hids]
    refine congrArg _ (inOrder_congr fun row hrow => ?_)
    rw [SoeRow.key, hcolumn row hrow]
    rfl
  have hlimit' : applyQueryLimit config.withDefaults maxRecords = maxRecords :=
    if_neg fun hcut => absurd hcut.2 (Int.not_lt.mpr hlimit)
  have hquery : historyStoreQuerySoe config.withDefaults true
      (Run.exec (soeStoreStep config) (storeStart config) ops).store.db beginMs endMs maxRecords =
      (((inOrder SoeRow.key rows).filter fun row =>
        columnInInterval config.backend beginMs endMs row.timestampMs).take maxRecords).map
          SoeRow.read := by
    have henabled : config.withDefaults.enabled = true := h.enabled
    have hsoe : config.withDefaults.soeEnabled = true := h.soe_enabled
    rw [historyStoreQuerySoe, hrows, hlimit', henabled, hsoe]
    cases maxRecords with
    | zero => rfl
    | succ k => rfl
  have hmem : ∀ row ∈ inOrder SoeRow.key rows,
      row.timestampMs = columnTimestamp config.backend row.record.timestampMs :=
    fun row hrow => hcolumn row (inOrder_perm.mem_iff.mp hrow)
  have hfilter : ((inOrder SoeRow.key rows).filter fun row =>
        columnInInterval config.backend beginMs endMs row.timestampMs) =
      (inOrder SoeRow.key rows).filter ((fun e : SoeEvent =>
        columnInInterval config.backend beginMs endMs
          (columnTimestamp config.backend e.timestampMs)) ∘ fun row => row.record.event) :=
    List.filter_congr fun row hrow => by rw [hmem row hrow]; rfl
  have hread : ∀ row ∈ inOrder SoeRow.key rows,
      (SoeRecord.event ∘ SoeRow.read) row = row.record.event := by
    intro row hrow
    show (⟨_, _, _, UInt64.ofInt row.timestampMs⟩ : SoeEvent) = _
    rw [hmem row hrow, ofInt_columnTimestamp]
    rfl
  rw [hquery, List.map_map, List.map_congr_left fun row hrow =>
    hread row (List.mem_of_mem_filter (List.mem_of_mem_take hrow)), hfilter, List.map_take,
    ← List.filter_map, hsorted, List.filter_map, List.map_take,
    filter_inOrder (nodup_posKey (List.Sublist.refl _))]
  rfl

theorem soe_query_same {ops : List (StoreOp HistorySoeQueueItem WriteOutcome)}
    (h : StoredAll config ops events) (hlen : events.length ≤ soeHistoryMaxRecords)
    (beginMs endMs : UInt64) {maxRecords : Nat}
    (hlimit : (maxRecords : Int) ≤ config.withDefaults.queryMaxRecords) :
    (soeHistoryQuery (soeHistoryOf events) beginMs endMs maxRecords).map SoeRecord.event =
        (historyStoreQuerySoe config.withDefaults true
          (Run.exec (soeStoreStep config) (storeStart config) ops).store.db beginMs endMs
          maxRecords).map SoeRecord.event ↔
      SameFirst (fun e : SoeEvent => columnTimestamp config.backend e.timestampMs)
        (fun e => soeInInterval beginMs endMs e.timestampMs)
        (fun e => columnInInterval config.backend beginMs endMs
          (columnTimestamp config.backend e.timestampMs)) maxRecords events := by
  have htime : ∀ a b : SoeEvent, columnTimestamp config.backend a.timestampMs =
      columnTimestamp config.backend b.timestampMs →
      soeInInterval beginMs endMs a.timestampMs = soeInInterval beginMs endMs b.timestampMs :=
    fun a b heq => by rw [columnTimestamp_inj heq]
  rw [answer_memory hlen, answer_store h beginMs endMs hlimit]
  exact take_inOrder_iff (q := fun e : SoeEvent => columnInInterval config.backend beginMs endMs
    (columnTimestamp config.backend e.timestampMs)) htime

end SoeQueryLemmas

open SoeQueryLemmas

/-- For at most `SOE_HISTORY_MAX_RECORDS` events that were appended to the history and written by
the store, the two queries give the same events in the same order exactly if the first
`maxRecords` events of the interval are also the first ones in the order of the column. -/
theorem soe_query_same_iff (config : HistoryStoreConfig)
    (ops : List (StoreOp HistorySoeQueueItem WriteOutcome)) (events : List SoeEvent)
    (hstored : StoredAll config ops events) (hlen : events.length ≤ soeHistoryMaxRecords)
    (beginMs endMs : UInt64) (maxRecords : Nat)
    (hlimit : (maxRecords : Int) ≤ config.withDefaults.queryMaxRecords) :
    (soeHistoryQuery (soeHistoryOf events) beginMs endMs maxRecords).map SoeRecord.event =
        (historyStoreQuerySoe config.withDefaults true
          (Run.exec (soeStoreStep config) (storeStart config) ops).store.db beginMs endMs
          maxRecords).map SoeRecord.event ↔
      SameFirst (fun e : SoeEvent => columnTimestamp config.backend e.timestampMs)
        (fun e => soeInInterval beginMs endMs e.timestampMs)
        (fun e => columnInInterval config.backend beginMs endMs
          (columnTimestamp config.backend e.timestampMs)) maxRecords events :=
  soe_query_same hstored hlen beginMs endMs hlimit

/-- Where the times are below `2 ^ 63`, or the database is not SQLite, the answers are the same
exactly if none of the first `maxRecords` events of the interval is followed by an earlier one. -/
theorem soe_query_same_iff_none_earlier (config : HistoryStoreConfig)
    (ops : List (StoreOp HistorySoeQueueItem WriteOutcome)) (events : List SoeEvent)
    (hstored : StoredAll config ops events) (hlen : events.length ≤ soeHistoryMaxRecords)
    (beginMs endMs : UInt64) (maxRecords : Nat)
    (hlimit : (maxRecords : Int) ≤ config.withDefaults.queryMaxRecords)
    (hsmall : config.backend = .sqlite → beginMs.toNat < 2 ^ 63 ∧ endMs.toNat < 2 ^ 63 ∧
      ∀ e ∈ events, e.timestampMs.toNat < 2 ^ 63) :
    (soeHistoryQuery (soeHistoryOf events) beginMs endMs maxRecords).map SoeRecord.event =
        (historyStoreQuerySoe config.withDefaults true
          (Run.exec (soeStoreStep config) (storeStart config) ops).store.db beginMs endMs
          maxRecords).map SoeRecord.event ↔
      ∀ a ∈ picked (fun e : SoeEvent => soeInInterval beginMs endMs e.timestampMs) maxRecords
        events, ∀ b ∈ events.zipIdx, soeInInterval beginMs endMs b.1.timestampMs = true →
          a.2 < b.2 → a.1.timestampMs ≤ b.1.timestampMs := by
  have htime : ∀ e ∈ events,
      columnTimestamp config.backend e.timestampMs = e.timestampMs.toNat :=
    fun e he => columnTimestamp_eq fun hsqlite => (hsmall hsqlite).2.2 e he
  rw [soe_query_same hstored hlen beginMs endMs hlimit, sameFirst_iff_of_eq fun e he =>
    columnInInterval_eq (columnTimestamp_eq fun hsqlite => (hsmall hsqlite).1)
      (columnTimestamp_eq fun hsqlite => (hsmall hsqlite).2.1) (htime e he)]
  refine forall₂_congr fun a ha => forall₂_congr fun b hb => ?_
  have hmem : a ∈ events.zipIdx := (List.mem_filter.mp (List.mem_of_mem_take ha)).1
  rw [htime a.1 (List.fst_mem_of_mem_zipIdx hmem), htime b.1 (List.fst_mem_of_mem_zipIdx hb),
    Int.ofNat_le, ← UInt64.le_iff_toNat_le]

/-- Two records are appended, and the worker writes them. -/
def twoWritten (first second : SoeWrite) : List (StoreOp HistorySoeQueueItem WriteOutcome) :=
  [.append first.item, .append second.item] ++ List.replicate 9 (.worker first.outcome)

theorem increasing_times_same :
    StoredAll twoSoeConfig (twoWritten (writeAt 10 true) (writeAt 20 true))
      [⟨1, true, 0, 10⟩, ⟨1, true, 0, 20⟩] ∧
    (soeHistoryQuery (soeHistoryOf [⟨1, true, 0, 10⟩, ⟨1, true, 0, 20⟩]) 5 0 1000).map
        SoeRecord.event =
      (historyStoreQuerySoe twoSoeConfig true
        (Run.exec (soeStoreStep twoSoeConfig) (storeStart twoSoeConfig)
          (twoWritten (writeAt 10 true) (writeAt 20 true))).store.db 5 0 1000).map
            SoeRecord.event := by
  have hstored : StoredAll twoSoeConfig (twoWritten (writeAt 10 true) (writeAt 20 true))
      [⟨1, true, 0, 10⟩, ⟨1, true, 0, 20⟩] := by
    refine ⟨rfl, rfl, ?_, ?_, ?_⟩
    · decide +kernel
    · decide +kernel
    · decide
  refine ⟨hstored,
    (soe_query_same_iff twoSoeConfig _ _ hstored (by decide) 5 0 1000 (by decide)).mpr
      ⟨?_, ?_, ?_, ?_⟩⟩
  · decide
  · decide
  · decide
  · decide

theorem decreasing_times_differ :
    ¬ ∀ (config : HistoryStoreConfig) (ops : List (StoreOp HistorySoeQueueItem WriteOutcome))
      (events : List SoeEvent), StoredAll config ops events →
      events.length ≤ soeHistoryMaxRecords → ∀ (beginMs endMs : UInt64) (maxRecords : Nat),
      (maxRecords : Int) ≤ config.withDefaults.queryMaxRecords →
      (soeHistoryQuery (soeHistoryOf events) beginMs endMs maxRecords).map SoeRecord.event =
        (historyStoreQuerySoe config.withDefaults true
          (Run.exec (soeStoreStep config) (storeStart config) ops).store.db beginMs endMs
          maxRecords).map SoeRecord.event := by
  intro h
  have hsame := h twoSoeConfig (twoWritten (writeAt 20 true) (writeAt 10 true))
    [⟨1, true, 0, 20⟩, ⟨1, true, 0, 10⟩]
    ⟨rfl, rfl, by decide +kernel, by decide +kernel, by decide⟩ (by decide) 0 0 2 (by decide)
  rw [answer_memory (by decide)] at hsame
  revert hsame
  decide +kernel

end Iec104Slave
