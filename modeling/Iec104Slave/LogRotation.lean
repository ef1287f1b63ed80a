import Mathlib.Data.List.Perm.Subperm
import Iec104Slave.Lib.Keyed
import Iec104Slave.Lib.Printf
import Iec104Slave.Lib.Retention
import Iec104Slave.Lib.Run

/-!
# Log rotation (`log.c`)

A new log file gets a name with the time and a sequence number. Before it is opened, the
older files of the log directory that match the pattern are listed, sorted by their time of
modification and removed up to `file_count - 1`. The configuration documents `file_count` as the
number of log files after which the oldest one is overwritten.

The list has 512 places, a path has 255 bytes, and the directory is opened under the name in
`g_log_dir`, which is empty for a log file in the root directory. Files that get into none of
the places, or only under a cut path, are neither counted nor removed.

Results:
1. `mem_cleanupOldLogFiles`: what the removals leave.
2. `log_rotation_keeps_newest`: when a rotation leaves `file_count` files, the newest ones.
3. `rotations_bounded`: with at most 512 files configured, the bound holds over every run.
-/

namespace Iec104Slave

open CString Printf Keyed

/-! ## Names -/

/-- `LogConfig`, as far as it concerns the files. -/
structure LogConfig where
  fileName : List UInt8
  fileCount : Int32
  appendStartTimestamp : Bool

/-- The globals of `log.c`. -/
structure LogState where
  fileName : List UInt8
  logDir : List UInt8
  logPrefix : List UInt8
  logExt : List UInt8
  fileCount : Int32
  appendTimestamp : Bool
  createSequence : Int32

/-- The later one of the last slash and the last backslash. -/
def lastSlash (text : List UInt8) : Option Nat :=
  match strrchr text 47, strrchr text 92 with
  | some slash1, some slash2 => some (max slash1 slash2)
  | some slash1, none => some slash1
  | none, slash2 => slash2

/-- `split_file_name` with a stem of 256 bytes and an extension of 64. -/
def splitFileName (fileName : List UInt8) : List UInt8 × List UInt8 :=
  match strrchr fileName 46 with
  | some dot =>
    if (lastSlash fileName).all fun slash => slash < dot then
      ((fileName.take dot).take 255, (fileName.drop dot).take 63)
    else (fileName.take 255, ascii ".log")
  | none => (fileName.take 255, ascii ".log")

/-- `split_log_path`: the directory, the prefix of the names and their extension. -/
def splitLogPath (fileName : List UInt8) : List UInt8 × List UInt8 × List UInt8 :=
  let (stem, ext) := splitFileName fileName
  match lastSlash stem with
  | some slash => ((stem.take slash).take 255, (stem.drop (slash + 1)).take 127, ext)
  | none => (ascii ".", stem.take 127, ext)

/-- `log_init_config`, up to the opening of the file. -/
def logInitConfig (config : LogConfig) : LogState :=
  let (dir, stem, ext) := splitLogPath (config.fileName.take 255)
  { fileName := []
    logDir := dir
    logPrefix := stem
    logExt := ext
    fileCount := if config.fileCount > 0 then config.fileCount else 2
    appendTimestamp := config.appendStartTimestamp
    createSequence := 0 }

/-- `file_name_matches_log_pattern`. -/
def fileNameMatchesLogPattern (s : LogState) (name : List UInt8) : Bool :=
  if name.length ≤ s.logPrefix.length + s.logExt.length then false
  else if !startsWith name s.logPrefix then false
  else if name.drop (name.length - s.logExt.length) != s.logExt then false
  else if name[s.logPrefix.length]? != some 95 then false
  else true

/-- The path of a file in the log directory. -/
def logPath (s : LogState) (name : List UInt8) : List UInt8 :=
  if s.logDir = ascii "." then name else s.logDir ++ 47 :: name

/-- `join_log_path` into 256 bytes. -/
def joinLogPath (s : LogState) (name : List UInt8) : List UInt8 :=
  (logPath s name).take 255

/-- The fields of `struct tm` that are printed. -/
structure LocalTime where
  year : Int
  month : Int
  day : Int
  hour : Int
  minute : Int
  second : Int

/-- `make_timestamp`; `localtime` may fail. -/
def makeTimestamp : Option LocalTime → List UInt8
  | some tm =>
    intText tm.year ++ paddedText 2 tm.month ++ paddedText 2 tm.day ++ [95] ++
      paddedText 2 tm.hour ++ paddedText 2 tm.minute ++ paddedText 2 tm.second
  | none => ascii "unknown_time"

/-- The name that `build_new_log_file_name` prints. -/
def newLogName (s : LogState) (now : Option LocalTime) : List UInt8 :=
  if s.appendTimestamp then
    s.logPrefix ++ 95 ::
      (makeTimestamp now ++ 95 :: (paddedText 3 s.createSequence.toInt ++ s.logExt))
  else s.logPrefix ++ s.logExt

/-- `build_new_log_file_name`, with its result in `g_file_name`. -/
def buildNewLogFileName (s : LogState) (now : Option LocalTime) : LogState :=
  { s with
    fileName := joinLogPath s ((newLogName s now).take 255)
    createSequence := if s.appendTimestamp then s.createSequence + 1 else s.createSequence }

/-! ## The directory -/

structure LogFile where
  name : List UInt8
  mtime : Int
deriving DecidableEq

/-- The log directory, in the order of `readdir`. -/
structure LogDirectory where
  files : List LogFile
  distinct : (files.map LogFile.name).Nodup

/-- `stat`: a path that has been cut names another file or none. -/
def LogDirectory.stat (dir : LogDirectory) (s : LogState) (path : List UInt8) : Option Int :=
  (findKey (fun file => logPath s file.name) path dir.files).map LogFile.mtime

/-- `remove`. -/
def LogDirectory.remove (dir : LogDirectory) (s : LogState) (path : List UInt8) : LogDirectory where
  files := dir.files.filter fun file => logPath s file.name != path
  distinct := dir.distinct.sublist (List.filter_sublist.map _)

/-- The name of the file with a path. -/
def baseName (s : LogState) (path : List UInt8) : List UInt8 :=
  if s.logDir = ascii "." then path else path.drop (s.logDir.length + 1)

def LogFile.written (now : Int) (file : LogFile) : LogFile :=
  { file with mtime := now }

theorem names_written (name : List UInt8) (now : Int) (files : List LogFile) :
    (modifyKey LogFile.name name (LogFile.written now) files).map LogFile.name =
      files.map LogFile.name :=
  map_key_modifyKey fun _ => rfl

/-- `fopen (path, "w")` at the time `now`. The path of the directory itself cannot be opened. -/
def LogDirectory.create (dir : LogDirectory) (s : LogState) (path : List UInt8) (now : Int) :
    LogDirectory :=
  if baseName s path = [] then dir
  else if h : baseName s path ∈ dir.files.map LogFile.name then
    { files := modifyKey LogFile.name (baseName s path) (LogFile.written now) dir.files
      distinct := by
        rw [names_written]
        exact dir.distinct }
  else
    { files := dir.files ++ [⟨baseName s path, now⟩]
      distinct := by
        rw [List.map_append]
        refine List.nodup_append.mpr ⟨dir.distinct, List.nodup_singleton _, ?_⟩
        intro name hname name' hname' heq
        have hnew : name = baseName s path := heq.trans (List.mem_singleton.mp hname')
        exact h (hnew ▸ hname) }

/-! ## The removal of old files -/

structure LogFileEntry where
  path : List UInt8
  mtime : Int

/-- `compare_log_file_entry`. -/
def compareLogFileEntry (a b : LogFileEntry) : Ordering :=
  (compare a.mtime b.mtime).then (strcmp a.path b.path)

/-- The size of `entries`. -/
def logEntriesMax : Nat := 512

/-- `collect_log_file`. -/
def collectLogFile (s : LogState) (entries : List LogFileEntry) (name : List UInt8) (mtime : Int) :
    List LogFileEntry :=
  if !fileNameMatchesLogPattern s name || decide (entries.length ≥ logEntriesMax) then entries
  else if joinLogPath s name = s.fileName then entries
  else entries ++ [⟨joinLogPath s name, mtime⟩]

/-- The loop of `cleanup_old_log_files` over the directory; `opendir` of the empty name fails. -/
def collectedLogFiles (s : LogState) (dir : LogDirectory) : List LogFileEntry :=
  if s.logDir = [] then []
  else
    dir.files.foldl (fun entries file =>
      match dir.stat s (joinLogPath s file.name) with
      | some mtime => collectLogFile s entries file.name mtime
      | none => entries) []

def keepOld (s : LogState) : Nat :=
  if s.fileCount ≤ 1 then 0 else (s.fileCount.toInt - 1).toNat

/-- The entries that `cleanup_old_log_files` removes; `qsort` sorts by
`compare_log_file_entry`. -/
def oldestEntries (s : LogState) (dir : LogDirectory) : List LogFileEntry :=
  let entries := collectedLogFiles s dir
  if s.fileCount ≤ 0 then []
  else if entries.length ≤ keepOld s then []
  else
    (entries.mergeSort fun a b => (compareLogFileEntry a b).isLE).take
      (entries.length - keepOld s)

/-- `cleanup_old_log_files`. -/
def cleanupOldLogFiles (s : LogState) (dir : LogDirectory) : LogDirectory :=
  (oldestEntries s dir).foldl (fun dir entry => dir.remove s entry.path) dir

/-- The clock in a rotation: the local time for the name and the time of the new file. -/
structure LogClock where
  localTime : Option LocalTime
  mtime : Int

/-- The part that `open_log_file` and `rotate_if_needed` share. -/
def newLogFile (log : LogState × LogDirectory) (clock : LogClock) : LogState × LogDirectory :=
  let s := buildNewLogFileName log.1 clock.localTime
  (s, (cleanupOldLogFiles s log.2).create s s.fileName clock.mtime)

/-! ## What a rotation is for -/

/-- The files that match the pattern. -/
def logFiles (s : LogState) (dir : LogDirectory) : List LogFile :=
  dir.files.filter fun file => fileNameMatchesLogPattern s file.name

/-- Those among them that are not the new one. -/
def oldLogFiles (s : LogState) (dir : LogDirectory) : List LogFile :=
  dir.files.filter fun file =>
    fileNameMatchesLogPattern s file.name && logPath s file.name != s.fileName

def fileEntry (s : LogState) (file : LogFile) : LogFileEntry :=
  ⟨logPath s file.name, file.mtime⟩

/-- After a rotation of `dir` there are at most as many matching files as configured, and no
removed one is newer than an old one that has been kept. -/
structure KeepsNewest (s : LogState) (dir : LogDirectory) (clock : LogClock) : Prop where
  bound : ((logFiles s (newLogFile (s, dir) clock).2).length : Int) ≤ s.fileCount.toInt
  newest : let built := buildNewLogFileName s clock.localTime
    ∀ removed ∈ logFiles s dir, removed ∉ (cleanupOldLogFiles built dir).files →
      ∀ kept ∈ oldLogFiles built (cleanupOldLogFiles built dir),
        (compareLogFileEntry (fileEntry s removed) (fileEntry s kept)).isLE = true

/-- The search sees all old files: the directory can be opened, they have places in the list,
and their paths have room. -/
structure AllSeen (s : LogState) (dir : LogDirectory) : Prop where
  opens : s.logDir ≠ []
  places : (oldLogFiles s dir).length ≤ logEntriesMax
  fits : ∀ file ∈ oldLogFiles s dir, (logPath s file.name).length ≤ 255

/-- The path of the new file is not cut, and no cut path of an old file names another file. -/
structure Uncut (s : LogState) (dir : LogDirectory) (clock : LogClock) : Prop where
  new : (logPath s (newLogName s clock.localTime)).length ≤ 255
  old : ∀ file ∈ oldLogFiles (buildNewLogFileName s clock.localTime) dir,
    255 < (logPath s file.name).length → dir.stat s (joinLogPath s file.name) = none

namespace LogRotationLemmas

variable {s : LogState} {dir : LogDirectory} {clock : LogClock} {file : LogFile}
  {name : List UInt8}

/-! ## Paths -/

theorem logPath_injective {a b : List UInt8} (h : logPath s a = logPath s b) : a = b := by
  unfold logPath at h
  split at h
  · exact h
  · exact (List.cons.inj (List.append_cancel_left h)).2

theorem nodup_paths (s : LogState) (dir : LogDirectory) :
    (dir.files.map fun file => logPath s file.name).Nodup := by
  have hnodup := dir.distinct.map (f := logPath s) fun _ _ => logPath_injective
  rwa [List.map_map] at hnodup

theorem nodup_paths_of_sublist {l : List LogFile} (s : LogState) (h : l.Sublist dir.files) :
    (l.map fun file => logPath s file.name).Nodup :=
  (nodup_paths s dir).sublist (h.map _)

/-- A path names at most one file. -/
theorem length_at_path {l : List LogFile} (h : l.Sublist dir.files) (path : List UInt8) :
    (l.filter fun file => logPath s file.name == path).length ≤ 1 := by
  have hsub : (l.filter fun file => logPath s file.name == path).map
      (fun file => logPath s file.name) ⊆ [path] := by
    intro path' hpath
    obtain ⟨file, hfile, rfl⟩ := List.mem_map.mp hpath
    exact List.mem_singleton.mpr (eq_of_beq (List.mem_filter.mp hfile).2)
  have hlength := (List.Nodup.subperm (nodup_paths_of_sublist s (List.filter_sublist.trans h))
    hsub).length_le
  rwa [List.length_map] at hlength

theorem stat_self (hfile : file ∈ dir.files) :
    dir.stat s (logPath s file.name) = some file.mtime := by
  unfold LogDirectory.stat
  rw [findKey_eq_of_mem (nodup_paths s dir) hfile]
  rfl

theorem joinLogPath_fits {name : List UInt8} (h : (logPath s name).length ≤ 255) :
    joinLogPath s name = logPath s name :=
  List.take_of_length_le h

/-- The name of a file that can be opened has the path under which it is opened. -/
theorem logPath_baseName {name : List UInt8} (hne : baseName s (joinLogPath s name) ≠ []) :
    logPath s (baseName s (joinLogPath s name)) = joinLogPath s name := by
  unfold baseName joinLogPath logPath at *
  split
  · rfl
  · next hdir =>
    rw [if_neg hdir, if_neg hdir] at hne
    have hlong : s.logDir.length + 1 < 255 := by
      refine Nat.lt_of_not_le fun hshort => hne (List.drop_eq_nil_of_le ?_)
      exact Nat.le_trans (List.length_take_le _ _) hshort
    have hcut : (s.logDir ++ 47 :: name).take 255 =
        s.logDir ++ 47 :: name.take (255 - s.logDir.length - 1) := by
      obtain ⟨k, hk⟩ : ∃ k, 255 - s.logDir.length = k + 1 := ⟨255 - s.logDir.length - 1, by omega⟩
      rw [List.take_append, List.take_of_length_le (by omega), hk, List.take_succ_cons]
      rfl
    rw [hcut, List.drop_append, List.drop_eq_nil_of_le (by omega)]
    simp

/-! ## Creating a file -/

theorem mem_oldLogFiles : file ∈ oldLogFiles s dir ↔
    file ∈ dir.files ∧ fileNameMatchesLogPattern s file.name = true ∧
      logPath s file.name ≠ s.fileName := by
  simp only [oldLogFiles, List.mem_filter, Bool.and_eq_true, bne_iff_ne]

theorem mem_logFiles : file ∈ logFiles s dir ↔
    file ∈ dir.files ∧ fileNameMatchesLogPattern s file.name = true :=
  List.mem_filter

/-- Besides the old files, only the file with the new path can match. -/
theorem length_logFiles (s : LogState) (dir : LogDirectory) :
    (logFiles s dir).length = (oldLogFiles s dir).length +
      ((logFiles s dir).filter fun file => logPath s file.name == s.fileName).length := by
  have hold : oldLogFiles s dir =
      (logFiles s dir).filter fun file => !(logPath s file.name == s.fileName) := by
    rw [logFiles, List.filter_filter]
    exact List.filter_congr fun file _ => Bool.and_comm _ _
  rw [hold, Nat.add_comm]
  exact List.length_eq_length_filter_add fun file : LogFile => logPath s file.name == s.fileName

/-- Creating the new file leaves the old ones as they are. -/
theorem oldLogFiles_create (dir : LogDirectory) (hpath : s.fileName = joinLogPath s name)
    (now : Int) :
    oldLogFiles s (dir.create s s.fileName now) = oldLogFiles s dir := by
  unfold LogDirectory.create
  split
  · rfl
  · next hne =>
    have hbase : logPath s (baseName s s.fileName) = s.fileName := by
      rw [hpath] at hne ⊢
      exact logPath_baseName hne
    have hdropped : ∀ file : LogFile, file.name = baseName s s.fileName →
        (fileNameMatchesLogPattern s file.name && logPath s file.name != s.fileName) = false := by
      intro file hname
      rw [hname, hbase, bne_self_eq_false, Bool.and_false]
    split
    · exact filter_modifyKey (f := LogFile.written now) (fun _ => rfl) hdropped
    · have hnew := hdropped ⟨baseName s s.fileName, now⟩ rfl
      refine (List.filter_append _ _).trans ?_
      rw [List.filter_cons_of_neg (by rw [hnew]; decide), List.filter_nil, List.append_nil]
      rfl

/-- With the new file there is at most one matching file more. -/
theorem length_logFiles_le (s : LogState) (dir : LogDirectory) :
    (logFiles s dir).length ≤ (oldLogFiles s dir).length + 1 := by
  rw [length_logFiles]
  exact Nat.add_le_add_left (length_at_path List.filter_sublist s.fileName) _

theorem created (dir : LogDirectory) (hne : baseName s s.fileName ≠ []) (now : Int) :
    ∃ file ∈ (dir.create s s.fileName now).files, file.name = baseName s s.fileName := by
  unfold LogDirectory.create
  rw [if_neg hne]
  split
  · next hmem =>
    rw [← names_written (baseName s s.fileName) now] at hmem
    exact List.mem_map.mp hmem
  · exact ⟨⟨baseName s s.fileName, now⟩, List.mem_append_right _ List.mem_cons_self, rfl⟩

/-- A new file that matches is one matching file more. -/
theorem lt_length_logFiles (hpath : s.fileName = joinLogPath s name)
    (hne : baseName s s.fileName ≠ [])
    (hmatch : fileNameMatchesLogPattern s (baseName s s.fileName) = true) (now : Int) :
    (oldLogFiles s dir).length < (logFiles s (dir.create s s.fileName now)).length := by
  obtain ⟨file, hfile, hname⟩ := created dir hne now
  have hnew : file ∈ (logFiles s (dir.create s s.fileName now)).filter
      fun file => logPath s file.name == s.fileName := by
    refine List.mem_filter.mpr ⟨mem_logFiles.mpr ⟨hfile, hname ▸ hmatch⟩, beq_iff_eq.mpr ?_⟩
    rw [hname]
    rw [hpath] at hne ⊢
    exact logPath_baseName hne
  rw [length_logFiles, oldLogFiles_create dir hpath]
  exact Nat.lt_add_of_pos_right (List.length_pos_of_mem hnew)

/-! ## Collecting the old files -/

/-- The entry of a file, if the search makes one. -/
def seenEntry (s : LogState) (dir : LogDirectory) (file : LogFile) : Option LogFileEntry :=
  (dir.stat s (joinLogPath s file.name)).bind fun mtime =>
    if fileNameMatchesLogPattern s file.name && joinLogPath s file.name != s.fileName then
      some ⟨joinLogPath s file.name, mtime⟩
    else none

theorem collectedLogFiles_eq (hdir : s.logDir ≠ []) :
    collectedLogFiles s dir = (dir.files.filterMap (seenEntry s dir)).take logEntriesMax := by
  unfold collectedLogFiles
  rw [if_neg hdir]
  refine (Retention.foldl_collect (seenEntry s dir) logEntriesMax ?_ dir.files []
    (Nat.zero_le _)).trans (List.nil_append _)
  intro entries file
  unfold seenEntry
  cases dir.stat s (joinLogPath s file.name) with
  | none => rfl
  | some mtime =>
    rw [Option.bind_some]
    dsimp only
    rw [collectLogFile]
    cases fileNameMatchesLogPattern s file.name with
    | false => rfl
    | true =>
      rcases Decidable.em (joinLogPath s file.name = s.fileName) with hnew | hold
      · rw [hnew, bne_self_eq_false, if_pos rfl, ite_self]
        rfl
      · have hseen : (true && joinLogPath s file.name != s.fileName) = true :=
          bne_iff_ne.mpr hold
        rw [if_neg hold, if_pos hseen]
        dsimp only
        rcases Nat.lt_or_ge entries.length logEntriesMax with hroom | hfull
        · rw [if_pos hroom, decide_eq_false (Nat.not_le.mpr hroom)]
          rfl
        · rw [if_neg (Nat.not_lt.mpr hfull), decide_eq_true hfull]
          rfl

/-- Only old log files have entries. -/
theorem old_of_seen {entry : LogFileEntry} (hnew : s.fileName.length ≤ 255)
    (h : seenEntry s dir file = some entry) :
    (fileNameMatchesLogPattern s file.name && logPath s file.name != s.fileName) = true := by
  obtain ⟨mtime, _, hentry⟩ := Option.bind_eq_some_iff.mp h
  split at hentry
  · next hseen =>
    rw [Bool.and_eq_true, bne_iff_ne] at hseen ⊢
    refine ⟨hseen.1, fun hpath => hseen.2 ?_⟩
    rw [joinLogPath, hpath, List.take_of_length_le hnew]
  · cases hentry

theorem filterMap_seenEntry (hnew : s.fileName.length ≤ 255) :
    dir.files.filterMap (seenEntry s dir) = (oldLogFiles s dir).filterMap (seenEntry s dir) := by
  rw [oldLogFiles, List.filterMap_filter]
  refine List.filterMap_congr fun file _ => ?_
  cases h : seenEntry s dir file with
  | none => split <;> rfl
  | some entry => rw [if_pos (old_of_seen hnew h)]

theorem length_collected_le (hnew : s.fileName.length ≤ 255) :
    (collectedLogFiles s dir).length ≤ (oldLogFiles s dir).length := by
  rcases Decidable.em (s.logDir = []) with hdir | hdir
  · rw [collectedLogFiles, if_pos hdir]
    exact Nat.zero_le _
  · rw [collectedLogFiles_eq hdir, filterMap_seenEntry hnew]
    exact Nat.le_trans (List.length_take_le' _ _) (List.length_filterMap_le _ _)

/-! ## Removing -/

def removeAll (s : LogState) (dir : LogDirectory) (entries : List LogFileEntry) : LogDirectory :=
  entries.foldl (fun dir entry => dir.remove s entry.path) dir

theorem mem_removeAll {entries : List LogFileEntry} :
    file ∈ (removeAll s dir entries).files ↔
      file ∈ dir.files ∧ ∀ entry ∈ entries, logPath s file.name ≠ entry.path := by
  induction entries generalizing dir with
  | nil => simp [removeAll]
  | cons entry entries ih =>
    rw [removeAll, List.foldl_cons]
    refine ih.trans ?_
    simp only [LogDirectory.remove, List.mem_filter, bne_iff_ne, List.forall_mem_cons, and_assoc]

/-- One removal takes at most one of the old files. -/
theorem length_oldLogFiles_remove (s : LogState) (dir : LogDirectory) (path : List UInt8) :
    (oldLogFiles s dir).length ≤ (oldLogFiles s (dir.remove s path)).length + 1 := by
  have hkept : oldLogFiles s (dir.remove s path) =
      (oldLogFiles s dir).filter fun file => !(logPath s file.name == path) := by
    unfold oldLogFiles LogDirectory.remove
    rw [List.filter_filter, List.filter_filter]
    exact List.filter_congr fun file _ => Bool.and_comm _ _
  have hgone := length_at_path (s := s) (l := oldLogFiles s dir) List.filter_sublist path
  have hsplit := List.length_eq_length_filter_add (l := oldLogFiles s dir)
    fun file => logPath s file.name == path
  rw [hkept]
  omega

theorem length_oldLogFiles_removeAll (s : LogState) (dir : LogDirectory)
    (entries : List LogFileEntry) :
    (oldLogFiles s dir).length ≤ (oldLogFiles s (removeAll s dir entries)).length +
      entries.length := by
  induction entries generalizing dir with
  | nil => exact Nat.le_refl _
  | cons entry entries ih =>
    calc (oldLogFiles s dir).length
      _ ≤ (oldLogFiles s (dir.remove s entry.path)).length + 1 :=
        length_oldLogFiles_remove s dir entry.path
      _ ≤ (oldLogFiles s (removeAll s (dir.remove s entry.path) entries)).length +
          entries.length + 1 := Nat.add_le_add_right (ih (dir.remove s entry.path)) 1

/-- What the removals leave. -/
theorem mem_cleanupOldLogFiles : file ∈ (cleanupOldLogFiles s dir).files ↔
    file ∈ dir.files ∧ ∀ entry ∈ oldestEntries s dir, logPath s file.name ≠ entry.path :=
  mem_removeAll

/-! ## The number of files -/

/-- `s` counts at least one file. -/
theorem keepOld_eq (h : 0 < s.fileCount) : (keepOld s : Int) + 1 = s.fileCount.toInt := by
  have hpos : 0 < s.fileCount.toInt := by
    have hlt := Int32.lt_iff_toInt_lt.mp h
    rwa [Int32.toInt_zero] at hlt
  unfold keepOld
  split
  · next hone =>
    have hle : s.fileCount.toInt ≤ 1 := Int32.le_iff_toInt_le.mp hone
    omega
  · omega

theorem length_oldestEntries (s : LogState) (dir : LogDirectory) :
    (oldestEntries s dir).length ≤ (collectedLogFiles s dir).length - keepOld s := by
  unfold oldestEntries
  dsimp only
  split
  · exact Nat.zero_le _
  · split
    · exact Nat.zero_le _
    · exact List.length_take_le _ _

/-- With few files nothing is removed. -/
theorem oldestEntries_few (h : (collectedLogFiles s dir).length ≤ keepOld s) :
    oldestEntries s dir = [] := by
  have hlength := length_oldestEntries s dir
  rw [Nat.sub_eq_zero_of_le h] at hlength
  exact List.length_eq_zero_iff.mp (Nat.le_zero.mp hlength)

/-- The comparison as the library knows it: by the time, then by the path. -/
theorem compareLogFileEntry_lex : compareLogFileEntry =
    compareLex (compareOn LogFileEntry.mtime) (compareOn LogFileEntry.path) := rfl

theorem compareLogFileEntry_trans (a b c : LogFileEntry)
    (hab : (compareLogFileEntry a b).isLE = true) (hbc : (compareLogFileEntry b c).isLE = true) :
    (compareLogFileEntry a c).isLE = true := by
  rw [compareLogFileEntry_lex] at hab hbc ⊢
  exact Std.TransCmp.isLE_trans hab hbc

theorem compareLogFileEntry_total (a b : LogFileEntry) :
    ((compareLogFileEntry a b).isLE || (compareLogFileEntry b a).isLE) = true := by
  have hswap : compareLogFileEntry b a = (compareLogFileEntry a b).swap := by
    rw [compareLogFileEntry_lex]
    exact Std.OrientedCmp.eq_swap
  rw [hswap]
  cases compareLogFileEntry a b <;> rfl

/-- The search makes an entry for every old file. -/
theorem collected_all (hnew : s.fileName.length ≤ 255) (h : AllSeen s dir) :
    collectedLogFiles s dir = (oldLogFiles s dir).map (fileEntry s) := by
  have hseen : dir.files.filterMap (seenEntry s dir) = (oldLogFiles s dir).map (fileEntry s) := by
    rw [filterMap_seenEntry hnew, ← List.filterMap_eq_map]
    refine List.filterMap_congr fun file hfile => ?_
    obtain ⟨hmem, hmatch, hold⟩ := mem_oldLogFiles.mp hfile
    rw [seenEntry, joinLogPath_fits (h.fits file hfile), stat_self hmem, Option.bind_some, hmatch,
      Bool.true_and, if_pos (bne_iff_ne.mpr hold)]
    rfl
  rw [collectedLogFiles_eq h.opens, hseen]
  exact List.take_of_length_le (by rw [List.length_map]; exact h.places)

/-! ## What is kept -/

/-- The old files that the removals leave are the newest ones. -/
structure KeptOld (s : LogState) (dir : LogDirectory) : Prop where
  count : (oldLogFiles s (cleanupOldLogFiles s dir)).length ≤ keepOld s
  newest : ∀ removed ∈ logFiles s dir, removed ∉ (cleanupOldLogFiles s dir).files →
    ∀ kept ∈ oldLogFiles s (cleanupOldLogFiles s dir),
      (compareLogFileEntry (fileEntry s removed) (fileEntry s kept)).isLE = true

theorem keptOld_few (hnew : s.fileName.length ≤ 255)
    (hfew : (oldLogFiles s dir).length ≤ keepOld s) : KeptOld s dir := by
  have hsame : cleanupOldLogFiles s dir = dir := by
    rw [cleanupOldLogFiles, oldestEntries_few (Nat.le_trans (length_collected_le hnew) hfew),
      List.foldl_nil]
  refine ⟨?_, fun removed hremoved hgone => ?_⟩
  · rw [hsame]
    exact hfew
  · rw [hsame] at hgone
    exact absurd (mem_logFiles.mp hremoved).1 hgone

/-- The sorted list of the old files. -/
def sortedOld (s : LogState) (dir : LogDirectory) : List LogFileEntry :=
  ((oldLogFiles s dir).map (fileEntry s)).mergeSort fun a b => (compareLogFileEntry a b).isLE

theorem mem_sortedOld {entry : LogFileEntry} :
    entry ∈ sortedOld s dir ↔ ∃ file ∈ oldLogFiles s dir, fileEntry s file = entry :=
  (List.mergeSort_perm _ _).mem_iff.trans List.mem_map

theorem oldestEntries_many (hcount : 0 < s.fileCount) (hnew : s.fileName.length ≤ 255)
    (hseen : AllSeen s dir) (hmany : keepOld s < (oldLogFiles s dir).length) :
    oldestEntries s dir = (sortedOld s dir).take ((oldLogFiles s dir).length - keepOld s) := by
  have hpositive : ¬s.fileCount ≤ 0 := Int32.not_le.mpr hcount
  unfold oldestEntries
  rw [collected_all hnew hseen]
  dsimp only
  rw [List.length_map, if_neg hpositive, if_neg (Nat.not_le.mpr hmany)]
  rfl

/-- A file whose path is removed has its own entry among the oldest ones. -/
theorem fileEntry_of_removed (holdest : ∀ entry ∈ oldestEntries s dir, entry ∈ sortedOld s dir)
    (hfile : file ∈ dir.files) (hgone : file ∉ (cleanupOldLogFiles s dir).files) :
    fileEntry s file ∈ oldestEntries s dir := by
  rw [mem_cleanupOldLogFiles] at hgone
  push Not at hgone
  obtain ⟨entry, hentry, hpath⟩ := hgone hfile
  obtain ⟨file', hfile', rfl⟩ := mem_sortedOld.mp (holdest entry hentry)
  have hname : file.name = file'.name := logPath_injective hpath
  have hsame : file = file' :=
    List.inj_on_of_nodup_map dir.distinct hfile (mem_oldLogFiles.mp hfile').1 hname
  exact hsame ▸ hentry

theorem keptOld_seen (hcount : 0 < s.fileCount) (hnew : s.fileName.length ≤ 255)
    (hseen : AllSeen s dir) : KeptOld s dir := by
  rcases Nat.lt_or_ge (keepOld s) (oldLogFiles s dir).length with hmany | hfew
  · have holdest := oldestEntries_many hcount hnew hseen hmany
    have hsorted : ∀ entry ∈ oldestEntries s dir, entry ∈ sortedOld s dir := by
      rw [holdest]
      exact fun entry => List.mem_of_mem_take
    -- an old file that is left has its entry behind those that are removed
    have hkept : ∀ kept ∈ oldLogFiles s (cleanupOldLogFiles s dir), fileEntry s kept ∈
        (sortedOld s dir).drop ((oldLogFiles s dir).length - keepOld s) := by
      intro kept hmem
      obtain ⟨hleft, hmatch, hold⟩ := mem_oldLogFiles.mp hmem
      obtain ⟨hfile, hpaths⟩ := mem_cleanupOldLogFiles.mp hleft
      have hentry : fileEntry s kept ∈ sortedOld s dir :=
        mem_sortedOld.mpr ⟨kept, mem_oldLogFiles.mpr ⟨hfile, hmatch, hold⟩, rfl⟩
      rw [← List.take_append_drop ((oldLogFiles s dir).length - keepOld s) (sortedOld s dir),
        ← holdest] at hentry
      exact (List.mem_append.mp hentry).resolve_left fun h => hpaths _ h rfl
    refine ⟨?_, fun removed hremoved hgone kept hmem => ?_⟩
    · have hnodup : ((oldLogFiles s (cleanupOldLogFiles s dir)).map (fileEntry s)).Nodup := by
        refine List.Nodup.of_map LogFileEntry.path ?_
        rw [List.map_map]
        exact nodup_paths_of_sublist s List.filter_sublist
      have hsub : (oldLogFiles s (cleanupOldLogFiles s dir)).map (fileEntry s) ⊆
          (sortedOld s dir).drop ((oldLogFiles s dir).length - keepOld s) := by
        intro entry hentry
        obtain ⟨kept, hmem, rfl⟩ := List.mem_map.mp hentry
        exact hkept kept hmem
      have hlength := (hnodup.subperm hsub).length_le
      rw [List.length_map, List.length_drop, sortedOld, List.length_mergeSort, List.length_map]
        at hlength
      omega
    · have hentry := fileEntry_of_removed hsorted (mem_logFiles.mp hremoved).1 hgone
      rw [holdest] at hentry
      exact Retention.take_mergeSort_le compareLogFileEntry_trans compareLogFileEntry_total _ _
        hentry (hkept kept hmem)
  · exact keptOld_few hnew hfew

/-! ## A rotation -/

variable (s clock) in
/-- The state in which the old files are removed. -/
def built : LogState := buildNewLogFileName s clock.localTime

theorem fileName_built (s : LogState) (clock : LogClock) :
    (built s clock).fileName =
      joinLogPath (built s clock) ((newLogName s clock.localTime).take 255) :=
  rfl

theorem length_fileName_built (s : LogState) (clock : LogClock) :
    (built s clock).fileName.length ≤ 255 :=
  List.length_take_le _ _

/-- A rotation that keeps the newest old files keeps to the bound. -/
theorem keepsNewest_of_keptOld (hcount : 0 < s.fileCount) (h : KeptOld (built s clock) dir) :
    KeepsNewest s dir clock := by
  refine ⟨?_, h.newest⟩
  have hold := oldLogFiles_create (cleanupOldLogFiles (built s clock) dir)
    (fileName_built s clock) clock.mtime
  have hlogs := length_logFiles_le (built s clock)
    ((cleanupOldLogFiles (built s clock) dir).create (built s clock) (built s clock).fileName
      clock.mtime)
  have hkeep : (keepOld (built s clock) : Int) + 1 = s.fileCount.toInt := keepOld_eq hcount
  have hkept := h.count
  rw [hold] at hlogs
  show ((logFiles (built s clock) _).length : Int) ≤ _
  rw [← hkeep]
  exact Int.ofNat_le.mpr (Nat.le_trans hlogs (Nat.succ_le_succ hkept))

theorem baseName_logPath (s : LogState) (name : List UInt8) :
    baseName s (logPath s name) = name := by
  unfold baseName logPath
  split
  · rfl
  · rw [List.drop_append, List.drop_eq_nil_of_le (by omega)]
    simp

theorem matches_of_form (s : LogState) (middle : List UInt8) :
    fileNameMatchesLogPattern s (s.logPrefix ++ 95 :: (middle ++ s.logExt)) = true := by
  have hlong : ¬(s.logPrefix ++ 95 :: (middle ++ s.logExt)).length ≤
      s.logPrefix.length + s.logExt.length := by
    rw [List.length_append, List.length_cons, List.length_append]
    omega
  have hext : (s.logPrefix ++ 95 :: (middle ++ s.logExt)).drop
      ((s.logPrefix ++ 95 :: (middle ++ s.logExt)).length - s.logExt.length) = s.logExt := by
    rw [← List.cons_append, ← List.append_assoc, List.length_append, Nat.add_sub_cancel,
      List.drop_left]
  unfold fileNameMatchesLogPattern
  rw [if_neg hlong, startsWith_iff.mpr (List.prefix_append _ _), hext,
    List.getElem?_append_right (Nat.le_refl _), Nat.sub_self]
  simp

/-- The name of a new log file matches the pattern. -/
theorem newLogName_matches (htimestamp : s.appendTimestamp = true) (now : Option LocalTime) :
    fileNameMatchesLogPattern s (newLogName s now) = true := by
  have hname : newLogName s now = s.logPrefix ++ 95 ::
      ((makeTimestamp now ++ 95 :: paddedText 3 s.createSequence.toInt) ++ s.logExt) := by
    rw [newLogName, if_pos htimestamp, List.append_assoc, List.cons_append]
  rw [hname]
  exact matches_of_form s _

/-- With a path that is not cut, the new file is one more that matches. -/
theorem lt_length_rotated (dir : LogDirectory) (htimestamp : s.appendTimestamp = true)
    (hfits : (logPath s (newLogName s clock.localTime)).length ≤ 255) :
    (oldLogFiles (built s clock) (cleanupOldLogFiles (built s clock) dir)).length <
      (logFiles s (newLogFile (s, dir) clock).2).length := by
  have hname : (newLogName s clock.localTime).length ≤ 255 := by
    refine Nat.le_trans ?_ hfits
    unfold logPath
    split
    · exact Nat.le_refl _
    · rw [List.length_append, List.length_cons]
      omega
  have hpath : (built s clock).fileName =
      logPath (built s clock) (newLogName s clock.localTime) := by
    rw [fileName_built, List.take_of_length_le hname]
    exact List.take_of_length_le hfits
  have hbase : baseName (built s clock) (built s clock).fileName =
      newLogName s clock.localTime := by
    rw [hpath, baseName_logPath]
  have hmatch : fileNameMatchesLogPattern (built s clock)
      (baseName (built s clock) (built s clock).fileName) = true := by
    rw [hbase]
    exact newLogName_matches htimestamp clock.localTime
  have hne : baseName (built s clock) (built s clock).fileName ≠ [] := by
    rw [hbase, newLogName, if_pos htimestamp]
    exact List.append_ne_nil_of_right_ne_nil _ (List.cons_ne_nil _ _)
  exact lt_length_logFiles (fileName_built s clock) hne hmatch clock.mtime

/-- Files that the search has not seen are one too many. -/
theorem seen_of_bound (hcount : 0 < s.fileCount) (htimestamp : s.appendTimestamp = true)
    (huncut : Uncut s dir clock)
    (hbound : ((logFiles s (newLogFile (s, dir) clock).2).length : Int) ≤ s.fileCount.toInt)
    (hmany : keepOld s < (oldLogFiles (built s clock) dir).length) :
    AllSeen (built s clock) dir := by
  have hnew := length_fileName_built s clock
  have hkeep := keepOld_eq hcount
  have hkeep' : keepOld (built s clock) = keepOld s := rfl
  have hrotated := lt_length_rotated dir htimestamp huncut.new
  have hremoved := length_oldLogFiles_removeAll (built s clock) dir
    (oldestEntries (built s clock) dir)
  have holdest := length_oldestEntries (built s clock) dir
  -- every old file has been collected
  have hall : (oldLogFiles (built s clock) dir).length ≤
      (collectedLogFiles (built s clock) dir).length := by
    change _ ≤ (oldLogFiles (built s clock) (cleanupOldLogFiles (built s clock) dir)).length + _
      at hremoved
    omega
  have hdir : (built s clock).logDir ≠ [] := by
    intro hnil
    rw [collectedLogFiles, if_pos hnil] at hall
    exact absurd (Nat.le_trans hmany hall) (Nat.not_succ_le_zero _)
  rw [collectedLogFiles_eq hdir, filterMap_seenEntry hnew] at hall
  refine ⟨hdir, Nat.le_trans hall (List.length_take_le _ _), fun file hfile => ?_⟩
  refine Nat.le_of_not_lt fun hlong => ?_
  have hnone : seenEntry (built s clock) dir file = none := by
    rw [seenEntry, show dir.stat (built s clock) (joinLogPath (built s clock) file.name) = none
      from huncut.old file hfile hlong, Option.bind_none]
  have hmissing := Retention.length_filterMap_lt hfile hnone
  exact absurd (Nat.le_trans hall (List.length_take_le' _ _)) (Nat.not_le.mpr hmissing)

theorem fileCount_pos (config : LogConfig) : 0 < (logInitConfig config).fileCount := by
  unfold logInitConfig
  dsimp only
  split
  · next hpos => exact hpos
  · decide

/-! ## Runs -/

/-- The parts of the state that no rotation changes. -/
structure SamePattern (s s' : LogState) : Prop where
  logDir : s'.logDir = s.logDir
  logPrefix : s'.logPrefix = s.logPrefix
  logExt : s'.logExt = s.logExt
  fileCount : s'.fileCount = s.fileCount

theorem logPath_congr {s s' : LogState} (h : SamePattern s s') (name : List UInt8) :
    logPath s' name = logPath s name := by
  rw [logPath, logPath, h.logDir]

theorem logFiles_congr {s s' : LogState} (h : SamePattern s s') (dir : LogDirectory) :
    logFiles s' dir = logFiles s dir := by
  unfold logFiles fileNameMatchesLogPattern
  rw [h.logPrefix, h.logExt]

/-- What a run keeps: the pattern, and a directory that the search can see as a whole. -/
structure Tidy (s : LogState) (log : LogState × LogDirectory) : Prop where
  pattern : SamePattern s log.1
  places : (logFiles s log.2).length ≤ logEntriesMax
  fits : ∀ file ∈ logFiles s log.2, (logPath s file.name).length ≤ 255

theorem name_of_created {now : Int} (hfile : file ∈ (dir.create s s.fileName now).files) :
    file.name ∈ dir.files.map LogFile.name ∨ baseName s s.fileName ≠ [] ∧
      file.name = baseName s s.fileName := by
  have hname : file.name ∈ (dir.create s s.fileName now).files.map LogFile.name :=
    List.mem_map_of_mem hfile
  unfold LogDirectory.create at hname
  split at hname
  · exact .inl hname
  · next hne =>
    split at hname
    · rw [names_written] at hname
      exact .inl hname
    · rw [List.map_append, List.mem_append] at hname
      exact hname.imp id fun h => ⟨hne, List.mem_singleton.mp h⟩

/-- After a rotation the paths have room if they had before. -/
theorem fits_rotated (hfits : ∀ file ∈ logFiles s dir, (logPath s file.name).length ≤ 255)
    (hfile : file ∈ logFiles s (newLogFile (s, dir) clock).2) :
    (logPath s file.name).length ≤ 255 := by
  obtain ⟨hcreated, hmatch⟩ := mem_logFiles.mp hfile
  rcases name_of_created (s := built s clock) hcreated with hold | ⟨hne, hname⟩
  · obtain ⟨file', hfile', hname⟩ := List.mem_map.mp hold
    have hbefore := (mem_cleanupOldLogFiles.mp hfile').1
    rw [← hname] at hmatch ⊢
    exact hfits file' (mem_logFiles.mpr ⟨hbefore, hmatch⟩)
  · have hpath : logPath (built s clock) file.name = (built s clock).fileName := by
      rw [hname]
      rw [fileName_built] at hne ⊢
      exact logPath_baseName hne
    show (logPath (built s clock) file.name).length ≤ 255
    rw [hpath]
    exact length_fileName_built s clock

/-- A directory that can be seen as a whole is rotated as documented. -/
theorem keepsNewest_of_tidy (hcount : 0 < s.fileCount) (hdir : s.logDir ≠ [])
    (hplaces : (logFiles s dir).length ≤ logEntriesMax)
    (hfits : ∀ file ∈ logFiles s dir, (logPath s file.name).length ≤ 255) :
    KeepsNewest s dir clock := by
  refine keepsNewest_of_keptOld hcount (keptOld_seen hcount (length_fileName_built s clock)
    ⟨hdir, ?_, fun file hfile => ?_⟩)
  · refine Nat.le_trans ?_ hplaces
    rw [show logFiles s dir = logFiles (built s clock) dir from rfl, length_logFiles]
    exact Nat.le_add_right _ _
  · obtain ⟨hmem, hmatch, _⟩ := mem_oldLogFiles.mp hfile
    exact hfits file (mem_logFiles.mpr ⟨hmem, hmatch⟩)

/-- The step of a run. -/
theorem tidy_rotate (hcount : 0 < s.fileCount) (hsmall : s.fileCount.toInt ≤ logEntriesMax)
    (hdir : s.logDir ≠ []) {log : LogState × LogDirectory} (h : Tidy s log) (clock : LogClock) :
    Tidy s (newLogFile log clock) ∧
      ((logFiles s (newLogFile log clock).2).length : Int) ≤ s.fileCount.toInt := by
  obtain ⟨s', dir⟩ := log
  have hlogs := logFiles_congr h.pattern
  have hpaths := logPath_congr h.pattern
  have hfits : ∀ file ∈ logFiles s' dir, (logPath s' file.name).length ≤ 255 := by
    intro file hfile
    rw [hlogs] at hfile
    rw [hpaths]
    exact h.fits file hfile
  have hbound : ((logFiles s (newLogFile (s', dir) clock).2).length : Int) ≤ s.fileCount.toInt := by
    rw [← hlogs, ← h.pattern.fileCount]
    exact (keepsNewest_of_tidy (h.pattern.fileCount ▸ hcount) (h.pattern.logDir ▸ hdir)
      (hlogs dir ▸ h.places) hfits).bound
  refine ⟨⟨⟨h.pattern.logDir, h.pattern.logPrefix, h.pattern.logExt, h.pattern.fileCount⟩, ?_,
    fun file hfile => ?_⟩, hbound⟩
  · exact Int.ofNat_le.mp (Int.le_trans hbound hsmall)
  · rw [← hpaths]
    rw [← hlogs] at hfile
    exact fits_rotated hfits hfile

end LogRotationLemmas

open LogRotationLemmas

/-- **When a rotation keeps the newest files.** It does if there are fewer old files than
configured or the search sees all of them. Where no path is cut so that it names another file,
it does not otherwise. -/
theorem log_rotation_keeps_newest (config : LogConfig)
    (htimestamp : config.appendStartTimestamp = true) (sequence : Int32) (dir : LogDirectory)
    (clock : LogClock) :
    let s := { logInitConfig config with createSequence := sequence }
    let new := buildNewLogFileName s clock.localTime
    let condition := ((oldLogFiles new dir).length : Int) < s.fileCount.toInt ∨ AllSeen new dir
    (condition → KeepsNewest s dir clock) ∧
      (Uncut s dir clock → KeepsNewest s dir clock → condition) := by
  intro s new condition
  have hcount : 0 < s.fileCount := fileCount_pos config
  have hkeep := keepOld_eq hcount
  have hnew := length_fileName_built s clock
  constructor
  · intro h
    rcases h with hfew | hseen
    · have hold : ((oldLogFiles (built s clock) dir).length : Int) < s.fileCount.toInt := hfew
      have hkeep' : keepOld (built s clock) = keepOld s := rfl
      exact keepsNewest_of_keptOld hcount (keptOld_few hnew (by omega))
    · exact keepsNewest_of_keptOld hcount (keptOld_seen hcount hnew hseen)
  · intro huncut h
    rcases Nat.lt_or_ge (keepOld s) (oldLogFiles (built s clock) dir).length with hmany | hfew
    · exact .inr (seen_of_bound hcount htimestamp huncut h.bound hmany)
    · have hold : ((oldLogFiles (built s clock) dir).length : Int) < s.fileCount.toInt := by omega
      exact .inl hold

/-- The start of the year 2026. -/
def newYear : LogClock := ⟨some ⟨2026, 1, 1, 0, 0, 0⟩, 1000⟩

/-- The configuration that is delivered. -/
def deliveredConfig : LogConfig := ⟨ascii "logs/iec104_slave.log", 2, true⟩

/-- Three log files, not in the order of their times. -/
def threeLogs : LogDirectory where
  files := [⟨ascii "iec104_slave_20250101_000000_000.log", 300⟩,
    ⟨ascii "iec104_slave_20250102_000000_000.log", 100⟩,
    ⟨ascii "iec104_slave_20250103_000000_001.log", 200⟩]
  distinct := by decide

theorem threeLogs_rotated :
    AllSeen (buildNewLogFileName (logInitConfig deliveredConfig) newYear.localTime) threeLogs ∧
      KeepsNewest (logInitConfig deliveredConfig) threeLogs newYear := by
  have hseen : AllSeen (buildNewLogFileName (logInitConfig deliveredConfig) newYear.localTime)
      threeLogs := ⟨by decide, by decide, by decide⟩
  exact ⟨hseen, (log_rotation_keeps_newest deliveredConfig rfl 0 threeLogs newYear).1 (.inr hseen)⟩

def numberedLog (i : Nat) : LogFile :=
  ⟨ascii "a_" ++ (decimalText i ++ ascii ".log"), i⟩

def numberedLogs (count : Nat) : LogDirectory where
  files := (List.range count).map numberedLog
  distinct := by
    rw [List.map_map]
    refine List.nodup_range.map fun i j hij => ?_
    have hdigits : decimalText i = decimalText j :=
      List.append_cancel_right (List.append_cancel_left hij)
    rw [← decimal_decimalText i, hdigits, decimal_decimalText]

def numberedConfig : LogConfig := ⟨ascii "logs/a.log", 2, true⟩

theorem length_numberedLog {i : Nat} (hi : i < 1000) :
    (logPath (logInitConfig numberedConfig) (numberedLog i).name).length ≤ 14 := by
  have hdigits : (decimalText i).length ≤ 3 := length_decimalText_le (by decide) hi
  have hlength : (logPath (logInitConfig numberedConfig) (numberedLog i).name).length =
      4 + (2 + ((decimalText i).length + 4) + 1) := by
    show (ascii "logs" ++ 47 :: (ascii "a_" ++ (decimalText i ++ ascii ".log"))).length = _
    rw [List.length_append, List.length_cons, List.length_append, List.length_append]
    rfl
  omega

theorem mem_numberedLogs {count : Nat} {file : LogFile} (h : file ∈ (numberedLogs count).files) :
    ∃ i < count, numberedLog i = file := by
  obtain ⟨i, hi, hfile⟩ := List.mem_map.mp h
  exact ⟨i, List.mem_range.mp hi, hfile⟩

theorem oldLogFiles_numberedLogs {count : Nat} (hcount : count ≤ 1000) :
    oldLogFiles (built (logInitConfig numberedConfig) newYear) (numberedLogs count) =
      (numberedLogs count).files := by
  refine List.filter_eq_self.mpr fun file hfile => ?_
  obtain ⟨i, hi, rfl⟩ := mem_numberedLogs hfile
  have hlength := length_numberedLog (Nat.lt_of_lt_of_le hi hcount)
  have hmatch : fileNameMatchesLogPattern (logInitConfig numberedConfig) (numberedLog i).name =
      true := matches_of_form (logInitConfig numberedConfig) (decimalText i)
  refine Bool.and_eq_true_iff.mpr ⟨hmatch, bne_iff_ne.mpr fun hpath => ?_⟩
  rw [show logPath (logInitConfig numberedConfig) (numberedLog i).name = _ from hpath] at hlength
  exact absurd hlength (by decide)

/-- Numbered files beyond the places of the list are left behind. -/
theorem numberedLogs_left {count : Nat} (hmany : logEntriesMax < count) (hcount : count ≤ 1000) :
    2 < (logFiles (logInitConfig numberedConfig)
      (newLogFile (logInitConfig numberedConfig, numberedLogs count) newYear).2).length := by
  refine Nat.lt_of_not_le fun hbound => ?_
  have hlength : (oldLogFiles (built (logInitConfig numberedConfig) newYear)
      (numberedLogs count)).length = count := by
    rw [oldLogFiles_numberedLogs hcount, numberedLogs, List.length_map, List.length_range]
  have huncut : Uncut (logInitConfig numberedConfig) (numberedLogs count) newYear := by
    refine ⟨by decide, fun file hfile hlong => ?_⟩
    obtain ⟨i, hi, rfl⟩ := mem_numberedLogs (List.mem_of_mem_filter hfile)
    have hshort := length_numberedLog (Nat.lt_of_lt_of_le hi hcount)
    omega
  have hkeep : keepOld (logInitConfig numberedConfig) < count :=
    Nat.lt_trans (by decide) hmany
  have hseen := seen_of_bound (fileCount_pos numberedConfig) rfl huncut (Int.ofNat_le.mpr hbound)
    (hlength.symm ▸ hkeep)
  exact absurd (hlength ▸ hseen.places) (Nat.not_le.mpr hmany)

/-- A log file in the root directory. -/
def rootConfig : LogConfig := ⟨ascii "/a.log", 1, true⟩

def oneLog : LogDirectory := ⟨[⟨ascii "a_1.log", 0⟩], by decide⟩

/-- With 513 old files, and for a log file in the root directory, files are left behind. -/
theorem log_files_left_behind :
    2 < (logFiles (logInitConfig numberedConfig)
        (newLogFile (logInitConfig numberedConfig, numberedLogs 513) newYear).2).length ∧
      ¬KeepsNewest (logInitConfig numberedConfig) (numberedLogs 513) newYear ∧
    1 < (logFiles (logInitConfig rootConfig)
        (newLogFile (logInitConfig rootConfig, oneLog) newYear).2).length ∧
      ¬KeepsNewest (logInitConfig rootConfig) oneLog newYear := by
  have hmany : 2 < (logFiles (logInitConfig numberedConfig)
      (newLogFile (logInitConfig numberedConfig, numberedLogs 513) newYear).2).length :=
    numberedLogs_left (by decide) (by decide)
  have hroot : 1 < (logFiles (logInitConfig rootConfig)
      (newLogFile (logInitConfig rootConfig, oneLog) newYear).2).length := by
    refine Nat.lt_of_not_le fun hbound => ?_
    have huncut : Uncut (logInitConfig rootConfig) oneLog newYear := ⟨by decide, by decide⟩
    have hseen := seen_of_bound (fileCount_pos rootConfig) rfl huncut (Int.ofNat_le.mpr hbound)
      (by decide)
    exact hseen.opens rfl
  exact ⟨hmany, fun h => Nat.not_le.mpr hmany (Int.ofNat_le.mp h.bound), hroot,
    fun h => Nat.not_le.mpr hroot (Int.ofNat_le.mp h.bound)⟩

/-- **The bound over runs.** With at most 512 files configured and a directory that the search
can see as a whole, every rotation leaves at most as many files as configured. -/
theorem rotations_bounded (config : LogConfig) (dir : LogDirectory) (clocks : List LogClock)
    (clock : LogClock) (hdir : (logInitConfig config).logDir ≠ [])
    (hsmall : (logInitConfig config).fileCount.toInt ≤ logEntriesMax)
    (hplaces : (logFiles (logInitConfig config) dir).length ≤ logEntriesMax)
    (hfits : ∀ file ∈ logFiles (logInitConfig config) dir,
      (logPath (logInitConfig config) file.name).length ≤ 255) :
    ((logFiles (logInitConfig config)
      (Run.exec newLogFile (logInitConfig config, dir) (clocks ++ [clock])).2).length : Int) ≤
        (logInitConfig config).fileCount.toInt := by
  have hcount := fileCount_pos config
  have htidy : Tidy (logInitConfig config)
      (Run.exec newLogFile (logInitConfig config, dir) clocks) := by
    refine Run.exec_induction (I := fun _ log => Tidy (logInitConfig config) log)
      ⟨⟨rfl, rfl, rfl, rfl⟩, hplaces, hfits⟩ ?_ clocks
    intro _ log clock h
    exact (tidy_rotate hcount hsmall hdir h clock).1
  rw [Run.exec_append]
  exact (tidy_rotate hcount hsmall hdir htidy clock).2

end Iec104Slave
