import Iec104Slave.ActiveUpload
import Mathlib.Data.List.Nodup

/-!
# A consumer of the upload area

A consumer takes snapshots of the area and passes the version of its last one as
`after_version`. The state keeps beside the area what the consumer should find in its
next snapshot: the successful puts since its last one that no clear has erased.

Results:
1. `consumerInv_exec`: in every run the newer entries of a table are the last puts.
2. `written_fate`: where an SOE entry is after any number of later operations.
3. `snapshots_see_every_put_once`: every put is seen exactly once.
-/

namespace Iec104Slave

open SlotTable Keyed

/-! ## The consumer -/

inductive ConsumerOp
  | upload (op : UploadOp)
  | snapshot (alloc : SnapshotAlloc)

/-- The area, the version that the consumer passes next, and the puts that it has not
seen, newest first. -/
structure ConsumerState where
  logged : LoggedArea
  afterVersion : Nat
  yxPuts : List YxPoint
  ycPuts : List (YcPoint × CauseOfTransmission)

def ConsumerState.area (s : ConsumerState) : ActiveUploadArea := s.logged.area

def ConsumerState.start (area : ActiveUploadArea) : ConsumerState := ⟨⟨area, []⟩, 0, [], []⟩

def yxPutsAfter (area : ActiveUploadArea) (puts : List YxPoint) : UploadOp → List YxPoint
  | .putYx point _ => if (putYxLocked area point).2 then point :: puts else puts
  | .clear => []
  | _ => puts

def ycPutsAfter (area : ActiveUploadArea) (puts : List (YcPoint × CauseOfTransmission)) :
    UploadOp → List (YcPoint × CauseOfTransmission)
  | .putYc point cot => if (putYcLocked area point cot).2 then (point, cot) :: puts else puts
  | .clear => []
  | _ => puts

/-- The snapshot that an operation gives the consumer. -/
def snapshotOf (s : ConsumerState) : ConsumerOp → Option ActiveUploadSnapshot
  | .upload _ => none
  | .snapshot alloc => activeUploadSnapshotCreate alloc s.area s.afterVersion

def consumerStep (s : ConsumerState) : ConsumerOp → ConsumerState
  | .upload op =>
    { s with
      logged := loggedStep s.logged op
      yxPuts := yxPutsAfter s.area s.yxPuts op
      ycPuts := ycPutsAfter s.area s.ycPuts op }
  | .snapshot alloc =>
    match activeUploadSnapshotCreate alloc s.area s.afterVersion with
    | some snapshot => { s with afterVersion := snapshot.version, yxPuts := [], ycPuts := [] }
    | none => s

/-- The SOE entries that an operation shows the consumer. -/
def soeSeen (s : ConsumerState) (op : ConsumerOp) : List SoeUploadEntry :=
  match snapshotOf s op with
  | some snapshot => snapshot.soe
  | none => []

/-- The SOE entries that an operation writes. -/
def soePut (s : ConsumerState) : ConsumerOp → List SoeUploadEntry
  | .upload op => (soeWritten s.area op).toList
  | .snapshot _ => []

/-! ## Contents -/

def YxUploadEntry.content (e : YxUploadEntry) : Bool × UInt8 × UInt64 :=
  (e.value, e.quality, e.timestampMs)

def YxPoint.content (point : YxPoint) : Bool × UInt8 × UInt64 :=
  (point.value != 0, point.quality, point.timestampMs)

def YcUploadEntry.content (e : YcUploadEntry) :
    ℚ × UInt8 × YcIecType × CauseOfTransmission × UInt64 :=
  (e.value, e.quality, e.iecType, e.cot, e.timestampMs)

def ycPutContent (p : YcPoint × CauseOfTransmission) :
    ℚ × UInt8 × YcIecType × CauseOfTransmission × UInt64 :=
  (p.1.value, p.1.quality, p.1.iecType, p.2, p.1.timestampMs)

/-- The content of the last YX put for an address that the consumer has not seen. -/
def ConsumerState.lastYx (s : ConsumerState) (ioa : Int32) : Option (Bool × UInt8 × UInt64) :=
  (findKey (fun point : YxPoint => point.ioa.toInt32) ioa s.yxPuts).map YxPoint.content

def ConsumerState.lastYc (s : ConsumerState) (ioa : Int32) :
    Option (ℚ × UInt8 × YcIecType × CauseOfTransmission × UInt64) :=
  (findKey (fun p : YcPoint × CauseOfTransmission => p.1.ioa.toInt32) ioa s.ycPuts).map
    ycPutContent

structure ConsumerInv (s : ConsumerState) : Prop where
  area : AreaInv s.logged
  after_le : s.afterVersion ≤ s.area.version
  yx : ∀ ioa, (findKey YxUploadEntry.ioa ioa
    (newerThan YxUploadEntry.version s.afterVersion s.area.yx)).map YxUploadEntry.content =
      s.lastYx ioa
  yc : ∀ ioa, (findKey YcUploadEntry.ioa ioa
    (newerThan YcUploadEntry.version s.afterVersion s.area.yc)).map YcUploadEntry.content =
      s.lastYc ioa

namespace UploadConsumerLemmas

open ActiveUploadLemmas

variable {s : ConsumerState} {area : ActiveUploadArea}

theorem consumerStep_failed {alloc : SnapshotAlloc}
    (h : activeUploadSnapshotCreate alloc s.area s.afterVersion = none) :
    consumerStep s (.snapshot alloc) = s := by
  rw [consumerStep, h]

theorem consumerStep_snapshot {alloc : SnapshotAlloc} {snapshot : ActiveUploadSnapshot}
    (h : activeUploadSnapshotCreate alloc s.area s.afterVersion = some snapshot) :
    consumerStep s (.snapshot alloc) =
      { s with afterVersion := s.area.version, yxPuts := [], ycPuts := [] } := by
  rw [consumerStep, h, snapshot_eq h]

theorem logged_snapshot (s : ConsumerState) (alloc : SnapshotAlloc) :
    (consumerStep s (.snapshot alloc)).logged = s.logged := by
  cases h : activeUploadSnapshotCreate alloc s.area s.afterVersion with
  | none => rw [consumerStep_failed h]
  | some snapshot => rw [consumerStep_snapshot h]

theorem consumerInv_putYx (h : ConsumerInv s) (point : YxPoint) (withSoe : Bool) :
    ConsumerInv (consumerStep s (.upload (.putYx point withSoe))) := by
  obtain ⟨hyx, hyc⟩ := uploadStep_putYx s.area point withSoe
  refine ⟨areaInv_step h.area _, Nat.le_trans h.after_le (version_uploadStep _ _), fun ioa => ?_,
    fun ioa => ?_⟩
  · show (findKey _ ioa (newerThan _ s.afterVersion
      (uploadStep s.area (.putYx point withSoe)).yx)).map _ = Option.map _ (findKey _ ioa
        (if (putYxLocked s.area point).2 = true then point :: s.yxPuts else s.yxPuts))
    rw [hyx]
    rcases putYxLocked_cases s.area point with ⟨yx, hput, heq⟩ | heq
    · rw [heq, if_pos rfl, findKey_cons,
        findKey_newerThan_put h.area.yx_ioa hput rfl (Nat.lt_succ_of_le h.after_le)]
      by_cases hioa : ioa = point.ioa.toInt32
      · rw [if_pos hioa, if_pos hioa.symm]
        rfl
      · rw [if_neg hioa, if_neg (Ne.symm hioa)]
        exact h.yx ioa
    · rw [heq, if_neg Bool.false_ne_true]
      exact h.yx ioa
  · show (findKey _ ioa (newerThan _ s.afterVersion
      (uploadStep s.area (.putYx point withSoe)).yc)).map _ = _
    rw [hyc]
    exact h.yc ioa

theorem consumerInv_putYc (h : ConsumerInv s) (point : YcPoint) (cot : CauseOfTransmission) :
    ConsumerInv (consumerStep s (.upload (.putYc point cot))) := by
  refine ⟨areaInv_step h.area _, Nat.le_trans h.after_le (version_uploadStep _ _), fun ioa => ?_,
    fun ioa => ?_⟩
  · show (findKey _ ioa (newerThan _ s.afterVersion (putYcLocked s.area point cot).1.yx)).map _ = _
    rcases putYcLocked_cases s.area point cot with ⟨yc, hput, heq⟩ | heq
    · rw [heq]
      exact h.yx ioa
    · rw [heq]
      exact h.yx ioa
  · show (findKey _ ioa (newerThan _ s.afterVersion (putYcLocked s.area point cot).1.yc)).map _ =
      Option.map _ (findKey _ ioa
        (if (putYcLocked s.area point cot).2 = true then (point, cot) :: s.ycPuts else s.ycPuts))
    rcases putYcLocked_cases s.area point cot with ⟨yc, hput, heq⟩ | heq
    · rw [heq, if_pos rfl, findKey_cons,
        findKey_newerThan_put h.area.yc_ioa hput rfl (Nat.lt_succ_of_le h.after_le)]
      by_cases hioa : ioa = point.ioa.toInt32
      · rw [if_pos hioa, if_pos hioa.symm]
        rfl
      · rw [if_neg hioa, if_neg (Ne.symm hioa)]
        exact h.yc ioa
    · rw [heq, if_neg Bool.false_ne_true]
      exact h.yc ioa

/-- When the consumer has seen the version of the area, it has seen all entries. -/
theorem newer_nil (h : AreaInv s.logged) :
    newerThan YxUploadEntry.version s.area.version s.area.yx = [] ∧
      newerThan YcUploadEntry.version s.area.version s.area.yc = [] := by
  constructor
  · refine newerThan_eq_nil fun e he => (h.version_range _ ?_).2
    exact List.mem_append_left _ (List.mem_append_left _ (List.mem_map_of_mem he))
  · refine newerThan_eq_nil fun e he => (h.version_range _ ?_).2
    exact List.mem_append_left _ (List.mem_append_right _ (List.mem_map_of_mem he))

/-- A cleared array shows nothing. -/
theorem findKey_cleared {ε γ : Type} {ioaOf : ε → Int32} {ioa : Int32} {version : ε → Nat}
    {after n : Nat} {content : ε → γ} :
    (findKey ioaOf ioa (newerThan version after (List.replicate n none))).map content = none := by
  rw [newerThan, pending_replicate_none]
  rfl

theorem consumerInv_step (h : ConsumerInv s) (op : ConsumerOp) :
    ConsumerInv (consumerStep s op) := by
  cases op with
  | upload op =>
    cases op with
    | putYx point withSoe => exact consumerInv_putYx h point withSoe
    | putYc point cot => exact consumerInv_putYc h point cot
    | putSoe point =>
      exact ⟨areaInv_step h.area _, Nat.le_succ_of_le h.after_le, h.yx, h.yc⟩
    | clear =>
      exact ⟨areaInv_step h.area _, Nat.le_succ_of_le h.after_le, fun ioa => findKey_cleared,
        fun ioa => findKey_cleared⟩
  | snapshot alloc =>
    cases hsnap : activeUploadSnapshotCreate alloc s.area s.afterVersion with
    | none =>
      rw [consumerStep_failed hsnap]
      exact h
    | some snapshot =>
      rw [consumerStep_snapshot hsnap]
      obtain ⟨hyx, hyc⟩ := newer_nil h.area
      refine ⟨h.area, Nat.le_refl _, fun ioa => ?_, fun ioa => ?_⟩
      · show (findKey _ ioa (newerThan _ s.area.version s.area.yx)).map _ = none
        rw [hyx]
        rfl
      · show (findKey _ ioa (newerThan _ s.area.version s.area.yc)).map _ = none
        rw [hyc]
        rfl

theorem consumerInv_start (yxCapacity ycCapacity soeCapacity : Nat) :
    ConsumerInv (ConsumerState.start (activeUploadInit yxCapacity ycCapacity soeCapacity)) := by
  exact ⟨areaInv_init _ _ _, Nat.le_refl _, fun ioa => findKey_cleared,
    fun ioa => findKey_cleared⟩

theorem consumerInv_exec (h : ConsumerInv s) (ops : List ConsumerOp) :
    ConsumerInv (Run.exec consumerStep s ops) :=
  Run.exec_induction (I := fun _ => ConsumerInv) h (fun _ _ op ht => consumerInv_step ht op) ops

/-! ### The way of an SOE entry -/

section Fate

variable {e : SoeUploadEntry}

/-- What became of the entry `e` in the operations `mid` after it was written. -/
structure Fate (e : SoeUploadEntry) (first : ConsumerState) (mid : List ConsumerOp)
    (t : ConsumerState) : Prop where
  run : t = Run.exec consumerStep first mid
  version_le : e.version ≤ t.area.version
  cleared : ConsumerOp.upload .clear ∈ mid → e ∉ t.logged.soeLog
  kept : ConsumerOp.upload .clear ∉ mid → ∃ before later, t.logged.soeLog = before ++ e :: later ∧
    e ∉ later ∧ later.length = (Run.outputs consumerStep soePut first mid).length

theorem notMem_soeWritten {area : ActiveUploadArea} (hle : e.version ≤ area.version)
    (op : UploadOp) : e ∉ (soeWritten area op).toList := by
  intro he
  have hlt := (soeWritten_version (Option.mem_toList.mp he)).1
  exact absurd hle (Nat.not_le_of_lt hlt)

theorem fate_append {first t : ConsumerState} {mid : List ConsumerOp} (h : Fate e first mid t)
    {op : UploadOp} (hop : op ≠ .clear) :
    Fate e first (mid ++ [.upload op]) (consumerStep t (.upload op)) := by
  have hlog : (consumerStep t (.upload op)).logged.soeLog =
      t.logged.soeLog ++ (soeWritten t.area op).toList := by
    cases op with
    | clear => exact absurd rfl hop
    | _ => rfl
  have hnew := notMem_soeWritten h.version_le op
  have hiff : ConsumerOp.upload .clear ∈ mid ++ [.upload op] ↔ ConsumerOp.upload .clear ∈ mid := by
    rw [List.mem_append, List.mem_singleton]
    refine ⟨fun hm => hm.resolve_right fun heq => hop ?_, .inl⟩
    cases heq
    rfl
  refine ⟨?_, Nat.le_trans h.version_le (version_uploadStep _ _), fun hclear => ?_, fun hkept => ?_⟩
  · rw [Run.exec_append, ← h.run]
    rfl
  · rw [hlog, List.mem_append]
    exact fun hm => hm.elim (h.cleared (hiff.mp hclear)) hnew
  · obtain ⟨before, later, hl, hlater, hlen⟩ := h.kept (mt hiff.mpr hkept)
    refine ⟨before, later ++ (soeWritten t.area op).toList, ?_, ?_, ?_⟩
    · rw [hlog, hl, List.append_assoc, List.cons_append]
    · rw [List.mem_append]
      exact fun hm => hm.elim hlater hnew
    · rw [Run.outputs_append, ← h.run, List.length_append, List.length_append, hlen]
      simp [Run.outputs, soePut]

theorem fate_step {first t : ConsumerState} {mid : List ConsumerOp} (h : Fate e first mid t)
    (op : ConsumerOp) : Fate e first (mid ++ [op]) (consumerStep t op) := by
  cases op with
  | upload op =>
    cases op with
    | clear =>
      refine ⟨?_, Nat.le_succ_of_le h.version_le, fun _ hm => (nomatch hm), fun hkept => ?_⟩
      · rw [Run.exec_append, ← h.run]
        rfl
      · exact absurd (List.mem_append_right mid (List.mem_singleton.mpr rfl)) hkept
    | putYx point withSoe => exact fate_append h (fun hc => nomatch hc)
    | putYc point cot => exact fate_append h (fun hc => nomatch hc)
    | putSoe point => exact fate_append h (fun hc => nomatch hc)
  | snapshot alloc =>
    have hlogged := logged_snapshot t alloc
    have hiff : ConsumerOp.upload .clear ∈ mid ++ [.snapshot alloc] ↔
        ConsumerOp.upload .clear ∈ mid := by simp
    refine ⟨?_, ?_, fun hclear => ?_, fun hkept => ?_⟩
    · rw [Run.exec_append, ← h.run]
      rfl
    · rw [ConsumerState.area, hlogged]
      exact h.version_le
    · rw [hlogged]
      exact h.cleared (hiff.mp hclear)
    · obtain ⟨before, later, hl, hlater, hlen⟩ := h.kept (mt hiff.mpr hkept)
      refine ⟨before, later, hlogged ▸ hl, hlater, ?_⟩
      rw [Run.outputs_append, List.length_append, hlen]
      simp [Run.outputs, soePut]

/-- Where an SOE entry is after any number of later operations. -/
theorem written_fate {op : UploadOp} (hw : soeWritten s.area op = some e)
    (mid : List ConsumerOp) :
    Fate e (consumerStep s (.upload op)) mid
      (Run.exec consumerStep (consumerStep s (.upload op)) mid) := by
  refine Run.exec_induction (I := Fate e (consumerStep s (.upload op))) ?_
    (fun _ _ op h => fate_step h op) mid
  obtain ⟨hlt, hver⟩ := soeWritten_version hw
  refine ⟨rfl, Nat.le_of_eq hver, fun hm => (nomatch hm),
    fun _ => ⟨s.logged.soeLog, [], ?_, ?_, rfl⟩⟩
  · cases op with
    | clear => cases hw
    | putYc point cot => cases hw
    | putYx point withSoe =>
      show s.logged.soeLog ++ (soeWritten s.area _).toList = _
      rw [hw]
      rfl
    | putSoe point =>
      show s.logged.soeLog ++ (soeWritten s.area _).toList = _
      rw [hw]
      rfl
  · exact List.not_mem_nil

/-- The ring still has the entry, unless it was cleared or overwritten. -/
theorem mem_pending_of_fate {first t : ConsumerState} {mid : List ConsumerOp}
    (h : Fate e first mid t) (harea : AreaInv t.logged) :
    e ∈ pending t.area.soe ↔ ConsumerOp.upload .clear ∉ mid ∧
      (Run.outputs consumerStep soePut first mid).length < t.area.soe.length := by
  have hperm : (pending t.area.soe).Perm
      (t.logged.soeLog.drop (t.logged.soeLog.length - t.area.soe.length)) := harea.soe.perm
  rw [hperm.mem_iff]
  by_cases hclear : ConsumerOp.upload .clear ∈ mid
  · refine ⟨fun hm => absurd (List.mem_of_mem_drop hm) (h.cleared hclear), fun hkept => ?_⟩
    exact absurd hclear hkept.1
  · -- the ring has the end of the log, of its own length, and `later` comes after `e` in it
    obtain ⟨before, later, hl, hlater, hlen⟩ := h.kept hclear
    rw [← hlen, hl]
    constructor
    · intro hm
      refine ⟨hclear, Nat.lt_of_not_le fun hfull => hlater ?_⟩
      have hdrop : before.length + 1 ≤
          (before ++ e :: later).length - t.area.soe.length := by simp; omega
      have hsub := List.drop_subset_drop_left (before ++ e :: later) hdrop hm
      have hcut : (before ++ e :: later).drop (before.length + 1) = later := by
        rw [List.append_cons]
        exact List.drop_left' (by simp)
      rwa [hcut] at hsub
    · rintro ⟨_, hroom⟩
      have hdrop : (before ++ e :: later).length - t.area.soe.length ≤ before.length := by
        simp; omega
      rw [List.drop_append_of_le_length hdrop]
      exact List.mem_append_right _ (List.mem_cons_self)

end Fate

/-! ### What the consumer sees -/

theorem afterVersion_of_quiet {t : ConsumerState} {mid : List ConsumerOp}
    (h : Run.outputs consumerStep (fun s op => (snapshotOf s op).toList) t mid = []) :
    (Run.exec consumerStep t mid).afterVersion = t.afterVersion ∧
      Run.outputs consumerStep soeSeen t mid = [] := by
  induction mid generalizing t with
  | nil => exact ⟨rfl, rfl⟩
  | cons op mid ih =>
    obtain ⟨hop, hmid⟩ := List.append_eq_nil_iff.mp h
    obtain ⟨hafter, hseen⟩ := ih hmid
    have hnone : snapshotOf t op = none := by simpa using hop
    constructor
    · rw [Run.exec_cons, hafter]
      cases op with
      | upload op => rfl
      | snapshot alloc => rw [consumerStep_failed hnone]
    · rw [Run.outputs, hseen, soeSeen, hnone]
      rfl

theorem afterVersion_step (h : ConsumerInv s) (op : ConsumerOp) :
    s.afterVersion ≤ (consumerStep s op).afterVersion := by
  cases op with
  | upload op => exact Nat.le_refl _
  | snapshot alloc =>
    cases hsnap : activeUploadSnapshotCreate alloc s.area s.afterVersion with
    | none => rw [consumerStep_failed hsnap]
    | some snapshot =>
      rw [consumerStep_snapshot hsnap]
      exact h.after_le

theorem mem_soeSeen {op : ConsumerOp} {e : SoeUploadEntry} (he : e ∈ soeSeen s op) :
    e ∈ pending s.area.soe ∧ e.version > s.afterVersion := by
  unfold soeSeen at he
  cases op with
  | upload op => cases he
  | snapshot alloc =>
    cases hsnap : activeUploadSnapshotCreate alloc s.area s.afterVersion with
    | none =>
      have hnone : snapshotOf s (.snapshot alloc) = none := hsnap
      rw [hnone] at he
      cases he
    | some snapshot =>
      have hsome : snapshotOf s (.snapshot alloc) = some snapshot := hsnap
      rw [hsome, snapshot_eq hsnap] at he
      exact mem_newerThan.mp he

/-- What a run shows is newer than what the consumer had seen before. -/
theorem seen_newer (h : ConsumerInv s) {ops : List ConsumerOp} {e : SoeUploadEntry}
    (he : e ∈ Run.outputs consumerStep soeSeen s ops) : s.afterVersion < e.version := by
  induction ops generalizing s with
  | nil => cases he
  | cons op ops ih =>
    rcases List.mem_append.mp he with he | he
    · exact (mem_soeSeen he).2
    · exact Nat.lt_of_le_of_lt (afterVersion_step h op) (ih (consumerInv_step h op) he)

theorem version_consumerStep (s : ConsumerState) (op : ConsumerOp) :
    s.area.version ≤ (consumerStep s op).area.version := by
  cases op with
  | upload op => exact version_uploadStep s.area op
  | snapshot alloc =>
    rw [ConsumerState.area, ConsumerState.area, logged_snapshot]

theorem version_consumerExec (s : ConsumerState) (ops : List ConsumerOp) :
    s.area.version ≤ (Run.exec consumerStep s ops).area.version :=
  Run.exec_induction (I := fun _ t => s.area.version ≤ t.area.version) (Nat.le_refl _)
    (fun _ t op hle => Nat.le_trans hle (version_consumerStep t op)) ops

/-- What a run shows was in the area before its end. -/
theorem seen_older (h : ConsumerInv s) {ops : List ConsumerOp} {e : SoeUploadEntry}
    (he : e ∈ Run.outputs consumerStep soeSeen s ops) :
    e.version ≤ (Run.exec consumerStep s ops).area.version := by
  induction ops generalizing s with
  | nil => cases he
  | cons op ops ih =>
    rcases List.mem_append.mp he with he | he
    · refine Nat.le_trans ((h.area.version_range e.version ?_).2)
        (version_consumerExec s (op :: ops))
      exact List.mem_append_right _ (List.mem_map_of_mem (mem_soeSeen he).1)
    · exact ih (consumerInv_step h op) he

theorem nodup_soe (h : AreaInv s.logged) : (pending s.area.soe).Nodup :=
  List.Nodup.of_map _ (List.nodup_append.mp h.versions).2.1

/-- The next snapshot shows the entry once, or not at all. -/
theorem count_snapshot {op : UploadOp} {e : SoeUploadEntry} (hinv : ConsumerInv s)
    (hw : soeWritten s.area op = some e) {mid : List ConsumerOp} {t : ConsumerState}
    (ht : Run.exec consumerStep (consumerStep s (.upload op)) mid = t)
    (hquiet : Run.outputs consumerStep (fun s op => (snapshotOf s op).toList)
      (consumerStep s (.upload op)) mid = []) :
    (newerThan SoeUploadEntry.version t.afterVersion t.area.soe).count e =
      if e ∈ pending t.area.soe then 1 else 0 := by
  have hinv' := consumerInv_exec (consumerInv_step hinv (.upload op)) mid
  rw [ht] at hinv'
  have hafter : t.afterVersion = s.afterVersion := by
    rw [← ht, (afterVersion_of_quiet hquiet).1]
    rfl
  have hnewer : e.version > t.afterVersion := by
    rw [hafter]
    exact Nat.lt_of_le_of_lt hinv.after_le (soeWritten_version hw).1
  have hnodup : (newerThan SoeUploadEntry.version t.afterVersion t.area.soe).Nodup :=
    (nodup_soe hinv'.area).filter _
  split
  · next hmem => exact List.count_eq_one_of_mem hnodup (mem_newerThan.mpr ⟨hmem, hnewer⟩)
  · next hmem => exact List.count_eq_zero_of_not_mem fun h => hmem (mem_newerThan.mp h).1

/-- No other snapshot of the run shows the entry. -/
theorem count_run {op : UploadOp} {e : SoeUploadEntry} {start : ConsumerState}
    (hstart : ConsumerInv start) {past : List ConsumerOp}
    (hs : Run.exec consumerStep start past = s) (hw : soeWritten s.area op = some e)
    {mid : List ConsumerOp} {t : ConsumerState}
    (ht : Run.exec consumerStep (consumerStep s (.upload op)) mid = t)
    (hquiet : Run.outputs consumerStep (fun s op => (snapshotOf s op).toList)
      (consumerStep s (.upload op)) mid = [])
    {alloc : SnapshotAlloc} {snapshot : ActiveUploadSnapshot}
    (hsnap : activeUploadSnapshotCreate alloc t.area t.afterVersion = some snapshot)
    (rest : List ConsumerOp) :
    (Run.outputs consumerStep soeSeen start
      (past ++ .upload op :: (mid ++ .snapshot alloc :: rest))).count e = snapshot.soe.count e := by
  have hinv := consumerInv_exec hstart past
  rw [hs] at hinv
  have hinv' := consumerInv_exec (consumerInv_step hinv (.upload op)) mid
  rw [ht] at hinv'
  -- what was shown before the put is older than `e`
  have hpast : (Run.outputs consumerStep soeSeen start past).count e = 0 := by
    refine List.count_eq_zero_of_not_mem fun he => ?_
    have hle := seen_older hstart he
    rw [hs] at hle
    exact absurd hle (Nat.not_le_of_lt (soeWritten_version hw).1)
  -- what is shown after the snapshot is newer than its version
  have hrest : (Run.outputs consumerStep soeSeen (consumerStep t (.snapshot alloc)) rest).count e
      = 0 := by
    refine List.count_eq_zero_of_not_mem fun he => ?_
    have hlt := seen_newer (consumerInv_step hinv' (.snapshot alloc)) he
    rw [consumerStep_snapshot hsnap] at hlt
    have hle : e.version ≤ t.area.version := by
      rw [← ht]
      exact (written_fate hw mid).version_le
    exact absurd hle (Nat.not_le_of_lt hlt)
  have hnow : soeSeen t (.snapshot alloc) = snapshot.soe := by
    have hsome : snapshotOf t (.snapshot alloc) = some snapshot := hsnap
    rw [soeSeen, hsome]
  rw [Run.outputs_append, hs, Run.outputs, Run.outputs_append, (afterVersion_of_quiet hquiet).2, ht,
    Run.outputs, hnow]
  show (_ ++ ([] ++ ([] ++ (snapshot.soe ++ _)))).count e = _
  rw [List.nil_append, List.nil_append, List.count_append, List.count_append, hpast, hrest,
    Nat.zero_add, Nat.add_zero]

end UploadConsumerLemmas

open ActiveUploadLemmas UploadConsumerLemmas

/-! ## Every put is seen once -/

/-- In every run of puts, clears and snapshots of one consumer that chains its versions:
a snapshot has at most one YX (YC) entry for an address, and it has one, with the
content of the last put, exactly when there was a successful put for the address since
the last snapshot and no clear after it; a snapshot changes the area in no way, and a
failed one changes nothing; an SOE entry is in the next snapshot after its put and in
no other of the run, unless it was cleared or at least a ring of entries was written
after it, in which case it is in none. -/
theorem snapshots_see_every_put_once {yxCapacity ycCapacity soeCapacity : Nat}
    {past : List ConsumerOp} {s : ConsumerState}
    (hs : Run.exec consumerStep
      (ConsumerState.start (activeUploadInit yxCapacity ycCapacity soeCapacity)) past = s) :
    (∀ alloc snapshot, activeUploadSnapshotCreate alloc s.area s.afterVersion = some snapshot →
      (snapshot.yx.map YxUploadEntry.ioa).Nodup ∧
      (∀ ioa, (findKey YxUploadEntry.ioa ioa snapshot.yx).map YxUploadEntry.content =
        s.lastYx ioa) ∧
      (snapshot.yc.map YcUploadEntry.ioa).Nodup ∧
      ∀ ioa, (findKey YcUploadEntry.ioa ioa snapshot.yc).map YcUploadEntry.content =
        s.lastYc ioa) ∧
    (∀ alloc, (consumerStep s (.snapshot alloc)).area = s.area ∧
      (activeUploadSnapshotCreate alloc s.area s.afterVersion = none →
        consumerStep s (.snapshot alloc) = s)) ∧
    ∀ op e mid t alloc snapshot rest, soeWritten s.area op = some e →
      Run.exec consumerStep (consumerStep s (.upload op)) mid = t →
      Run.outputs consumerStep (fun s op => (snapshotOf s op).toList)
        (consumerStep s (.upload op)) mid = [] →
      activeUploadSnapshotCreate alloc t.area t.afterVersion = some snapshot →
      (Run.outputs consumerStep soeSeen
          (ConsumerState.start (activeUploadInit yxCapacity ycCapacity soeCapacity))
          (past ++ .upload op :: (mid ++ .snapshot alloc :: rest))).count e =
        snapshot.soe.count e ∧
      (ConsumerOp.upload .clear ∉ mid ∧
        (Run.outputs consumerStep soePut (consumerStep s (.upload op)) mid).length <
          t.area.soe.length → snapshot.soe.count e = 1) ∧
      (ConsumerOp.upload .clear ∈ mid ∨ t.area.soe.length ≤
        (Run.outputs consumerStep soePut (consumerStep s (.upload op)) mid).length →
        snapshot.soe.count e = 0) := by
  have hstart := consumerInv_start yxCapacity ycCapacity soeCapacity
  have hinv := consumerInv_exec hstart past
  rw [hs] at hinv
  refine ⟨fun alloc snapshot hsnap => ?_, fun alloc => ⟨?_, consumerStep_failed⟩, ?_⟩
  · rw [snapshot_eq hsnap]
    exact ⟨nodup_newerThan hinv.area.yx_ioa, hinv.yx, nodup_newerThan hinv.area.yc_ioa, hinv.yc⟩
  · exact congrArg LoggedArea.area (logged_snapshot s alloc)
  · intro op e mid t alloc snapshot rest hw ht hquiet hsnap
    have hinv' := consumerInv_exec (consumerInv_step hinv (.upload op)) mid
    have hmem := mem_pending_of_fate (written_fate hw mid) hinv'.area
    rw [ht] at hmem
    have hcount := count_snapshot hinv hw ht hquiet
    refine ⟨count_run hstart hs hw ht hquiet hsnap rest, fun hkept => ?_, fun hlost => ?_⟩
    · rw [snapshot_eq hsnap, hcount, if_pos (hmem.mpr hkept)]
    · rw [snapshot_eq hsnap, hcount, if_neg]
      intro hpend
      obtain ⟨hclear, hroom⟩ := hmem.mp hpend
      exact hlost.elim hclear (Nat.not_le_of_lt hroom)

/-- One event, two snapshots: it is in exactly one of them. -/
theorem event_seen_once :
    (Run.outputs consumerStep soeSeen (ConsumerState.start (activeUploadInit 2 2 2))
      [.upload (.putYx (initYxPoint 0) true), .snapshot ⟨true, true, true⟩,
        .snapshot ⟨true, true, true⟩]).count ⟨1, false, 0, 0, 1, 2⟩ = 1 := by
  have hs : Run.exec consumerStep (ConsumerState.start (activeUploadInit 2 2 2)) [] =
      ConsumerState.start (activeUploadInit 2 2 2) := rfl
  obtain ⟨hcount, hone, _⟩ := (snapshots_see_every_put_once hs).2.2
    (.putYx (initYxPoint 0) true) ⟨1, false, 0, 0, 1, 2⟩ [] _ ⟨true, true, true⟩ _
    [.snapshot ⟨true, true, true⟩] rfl rfl rfl rfl
  refine hcount.trans (hone ⟨List.not_mem_nil, ?_⟩)
  decide

end Iec104Slave
