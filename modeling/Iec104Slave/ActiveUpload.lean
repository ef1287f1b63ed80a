import Iec104Slave.PointTable
import Iec104Slave.Lib.Run
import Iec104Slave.Lib.SlotTable

/-!
# The active upload area (`active_upload.c`)

Changed points wait in the area for their upload: one entry for each YX and each YC
address, and a ring of SOE (sequence of events) entries. One counter, `version`,
stamps every entry when it is written, so that a consumer can ask for what is newer
than its last snapshot.

Results:
1. `areaInv_exec`: addresses and versions are unique, and the SOE ring holds the last
   events, in every run.
2. `upload_area_invariant`: this, and that a put of a point of the table never
   fails in an area of the size that `iec104_server_init` chooses.
3. `counters_exec`: the counters fit into 64 bits in a run of fewer than `2 ^ 63` operations.
-/

namespace Iec104Slave

open SlotTable

/-! ## The area -/

structure YxUploadEntry where
  ioa : Int32
  value : Bool
  quality : UInt8
  timestampMs : UInt64
  version : Nat
deriving DecidableEq

structure YcUploadEntry where
  ioa : Int32
  value : ℚ
  quality : UInt8
  iecType : YcIecType
  cot : CauseOfTransmission
  timestampMs : UInt64
  version : Nat
deriving DecidableEq

structure SoeUploadEntry where
  ioa : Int32
  value : Bool
  quality : UInt8
  timestampMs : UInt64
  sequence : Nat
  version : Nat
deriving DecidableEq

/-- `ActiveUploadArea`, without its lock. An array has its capacity as length; a slot in
`UPLOAD_STATE_EMPTY` is `none`. The 64-bit counters `version` and `soe_sequence` are natural
numbers, so a run here is one of the code up to the first wrap of a counter (`counters_exec`). -/
structure ActiveUploadArea where
  version : Nat
  soeSequence : Nat
  soeNext : Nat
  yx : List (Option YxUploadEntry)
  yc : List (Option YcUploadEntry)
  soe : List (Option SoeUploadEntry)
deriving DecidableEq

/-- `active_upload_init`, when every allocation succeeds. -/
def activeUploadInit (yxCapacity ycCapacity soeCapacity : Nat) : ActiveUploadArea :=
  { version := 0, soeSequence := 0, soeNext := 0
    yx := List.replicate (if yxCapacity > 0 then yxCapacity else 1) none
    yc := List.replicate (if ycCapacity > 0 then ycCapacity else 1) none
    soe := List.replicate (if soeCapacity > 0 then soeCapacity else 1) none }

def activeUploadClear (area : ActiveUploadArea) : ActiveUploadArea :=
  { version := area.version + 1, soeSequence := 0, soeNext := 0
    yx := List.replicate area.yx.length none
    yc := List.replicate area.yc.length none
    soe := List.replicate area.soe.length none }

/-- The entry of a YX put. `value` is a `bool` in the entry and a byte in the point. -/
def yxEntry (point : YxPoint) (version : Nat) : YxUploadEntry :=
  ⟨point.ioa.toInt32, point.value != 0, point.quality, point.timestampMs, version⟩

def ycEntry (point : YcPoint) (cot : CauseOfTransmission) (version : Nat) : YcUploadEntry :=
  ⟨point.ioa.toInt32, point.value, point.quality, point.iecType, cot, point.timestampMs, version⟩

def soeEntry (area : ActiveUploadArea) (point : YxPoint) : SoeUploadEntry :=
  ⟨point.ioa.toInt32, point.value != 0, point.quality, point.timestampMs, area.soeSequence + 1,
    area.version + 1⟩

/-- `put_yx_locked`. The comparison of the `int` of the entry with the `uint32_t` of the
point is one of unsigned values. -/
def putYxLocked (area : ActiveUploadArea) (point : YxPoint) : ActiveUploadArea × Bool :=
  match put YxUploadEntry.ioa point.ioa.toInt32 (yxEntry point (area.version + 1)) area.yx with
  | some yx => ({ area with yx := yx, version := area.version + 1 }, true)
  | none => (area, false)

def putYcLocked (area : ActiveUploadArea) (point : YcPoint) (cot : CauseOfTransmission) :
    ActiveUploadArea × Bool :=
  match put YcUploadEntry.ioa point.ioa.toInt32 (ycEntry point cot (area.version + 1)) area.yc with
  | some yc => ({ area with yc := yc, version := area.version + 1 }, true)
  | none => (area, false)

def putSoeLocked (area : ActiveUploadArea) (point : YxPoint) : ActiveUploadArea × Bool :=
  ({ area with
     soe := area.soe.set area.soeNext (some (soeEntry area point))
     soeSequence := area.soeSequence + 1
     version := area.version + 1
     soeNext := (area.soeNext + 1) % area.soe.length }, true)

def activeUploadPutYx (area : ActiveUploadArea) (point : YxPoint) (withSoe : Bool) :
    ActiveUploadArea × Bool :=
  if (putYxLocked area point).2 && withSoe then putSoeLocked (putYxLocked area point).1 point
  else putYxLocked area point

def activeUploadPutYc (area : ActiveUploadArea) (point : YcPoint) (cot : CauseOfTransmission) :
    ActiveUploadArea × Bool :=
  putYcLocked area point cot

/-! ## Snapshots -/

structure ActiveUploadSnapshot where
  version : Nat
  yx : List YxUploadEntry
  yc : List YcUploadEntry
  soe : List SoeUploadEntry

/-- Which of the three allocations of a snapshot succeed. -/
structure SnapshotAlloc where
  yx : Bool
  yc : Bool
  soe : Bool

/-- `active_upload_snapshot_create`. An array is allocated only when it has an entry. -/
def activeUploadSnapshotCreate (alloc : SnapshotAlloc) (area : ActiveUploadArea)
    (afterVersion : Nat) : Option ActiveUploadSnapshot :=
  let yx := newerThan YxUploadEntry.version afterVersion area.yx
  let yc := newerThan YcUploadEntry.version afterVersion area.yc
  let soe := newerThan SoeUploadEntry.version afterVersion area.soe
  if !yx.isEmpty && !alloc.yx then none
  else if !yc.isEmpty && !alloc.yc then none
  else if !soe.isEmpty && !alloc.soe then none
  else some ⟨area.version, yx, yc, soe⟩

/-! ## Runs of puts -/

/-- The operations that change the area. `put_soe_locked` is only called by
`active_upload_put_yx`; it is an operation of its own here as well. -/
inductive UploadOp
  | putYx (point : YxPoint) (withSoe : Bool)
  | putYc (point : YcPoint) (cot : CauseOfTransmission)
  | putSoe (point : YxPoint)
  | clear

def uploadCall (area : ActiveUploadArea) : UploadOp → ActiveUploadArea × Bool
  | .putYx point withSoe => activeUploadPutYx area point withSoe
  | .putYc point cot => activeUploadPutYc area point cot
  | .putSoe point => putSoeLocked area point
  | .clear => (activeUploadClear area, true)

def uploadStep (area : ActiveUploadArea) (op : UploadOp) : ActiveUploadArea :=
  (uploadCall area op).1

/-- The SOE entry that an operation writes. -/
def soeWritten (area : ActiveUploadArea) : UploadOp → Option SoeUploadEntry
  | .putYx point withSoe =>
    if (putYxLocked area point).2 && withSoe then
      some (soeEntry (putYxLocked area point).1 point)
    else none
  | .putSoe point => some (soeEntry area point)
  | _ => none

/-- The area and the SOE puts since the last clear. -/
structure LoggedArea where
  area : ActiveUploadArea
  soeLog : List SoeUploadEntry

def loggedStep (s : LoggedArea) (op : UploadOp) : LoggedArea where
  area := uploadStep s.area op
  soeLog := match op with
    | .clear => []
    | op => s.soeLog ++ (soeWritten s.area op).toList

/-- The versions of all pending entries. -/
def ActiveUploadArea.versions (area : ActiveUploadArea) : List Nat :=
  (pending area.yx).map YxUploadEntry.version ++ (pending area.yc).map YcUploadEntry.version ++
    (pending area.soe).map SoeUploadEntry.version

/-- The representation invariant, with the SOE puts since the last clear. -/
structure AreaInv (s : LoggedArea) : Prop where
  yx_ioa : ((pending s.area.yx).map YxUploadEntry.ioa).Nodup
  yc_ioa : ((pending s.area.yc).map YcUploadEntry.ioa).Nodup
  versions : s.area.versions.Nodup
  version_range : ∀ v ∈ s.area.versions, 1 ≤ v ∧ v ≤ s.area.version
  soe : LastOf s.area.soe s.soeLog
  soe_sequence : s.area.soeSequence = s.soeLog.length
  soe_next : s.area.soeNext = s.soeLog.length % s.area.soe.length
  sequence : ∀ i e, s.soeLog[i]? = some e → e.sequence = i + 1

namespace ActiveUploadLemmas

variable {area : ActiveUploadArea} {log : List SoeUploadEntry}

/-- A new stamp beside a part of the old ones. -/
theorem stamp_fresh {l rest : List Nat} {v : Nat} (hnodup : l.Nodup)
    (hrange : ∀ x ∈ l, 1 ≤ x ∧ x ≤ v) (l' : List Nat) (hperm : l'.Perm ((v + 1) :: rest))
    (hsub : rest.Subperm l) :
    l'.Nodup ∧ ∀ x ∈ l', 1 ≤ x ∧ x ≤ v + 1 := by
  obtain ⟨l₀, hp, hs⟩ := hsub
  have hmem : ∀ x ∈ rest, x ∈ l := fun x hx => hs.subset (hp.mem_iff.mpr hx)
  constructor
  · rw [hperm.nodup_iff, List.nodup_cons]
    refine ⟨fun hv => ?_, hp.nodup_iff.mp (hnodup.sublist hs)⟩
    exact absurd (hrange _ (hmem _ hv)).2 (Nat.not_succ_le_self v)
  · intro x hx
    rcases List.mem_cons.mp (hperm.mem_iff.mp hx) with rfl | hx
    · exact ⟨Nat.succ_pos v, Nat.le_refl _⟩
    · obtain ⟨h1, h2⟩ := hrange x (hmem x hx)
      exact ⟨h1, Nat.le_succ_of_le h2⟩

theorem putYxLocked_cases (area : ActiveUploadArea) (point : YxPoint) :
    (∃ yx, put YxUploadEntry.ioa point.ioa.toInt32 (yxEntry point (area.version + 1)) area.yx =
        some yx ∧
        putYxLocked area point = ({ area with yx := yx, version := area.version + 1 }, true)) ∨
      putYxLocked area point = (area, false) := by
  unfold putYxLocked
  split
  · next yx hput => exact .inl ⟨yx, hput, rfl⟩
  · exact .inr rfl

theorem putYcLocked_cases (area : ActiveUploadArea) (point : YcPoint) (cot : CauseOfTransmission) :
    (∃ yc, put YcUploadEntry.ioa point.ioa.toInt32 (ycEntry point cot (area.version + 1)) area.yc =
        some yc ∧
        putYcLocked area point cot = ({ area with yc := yc, version := area.version + 1 }, true)) ∨
      putYcLocked area point cot = (area, false) := by
  unfold putYcLocked
  split
  · next yc hput => exact .inl ⟨yc, hput, rfl⟩
  · exact .inr rfl

theorem areaInv_putYx (h : AreaInv ⟨area, log⟩) (point : YxPoint) :
    AreaInv ⟨(putYxLocked area point).1, log⟩ := by
  rcases putYxLocked_cases area point with ⟨yx, hput, heq⟩ | heq
  · rw [heq]
    have hperm := put_perm h.yx_ioa hput
    obtain ⟨hv, hr⟩ := stamp_fresh h.versions h.version_range
      (((pending yx).map YxUploadEntry.version ++
        (pending area.yc).map YcUploadEntry.version) ++
        (pending area.soe).map SoeUploadEntry.version)
      (((hperm.map YxUploadEntry.version).append_right _).append_right _)
      (((List.filter_sublist.map _).append_right _).append_right _).subperm
    exact ⟨nodup_put h.yx_ioa rfl hput, h.yc_ioa, hv, hr, h.soe, h.soe_sequence, h.soe_next,
      h.sequence⟩
  · rw [heq]
    exact h

theorem areaInv_putYc (h : AreaInv ⟨area, log⟩) (point : YcPoint) (cot : CauseOfTransmission) :
    AreaInv ⟨(putYcLocked area point cot).1, log⟩ := by
  rcases putYcLocked_cases area point cot with ⟨yc, hput, heq⟩ | heq
  · rw [heq]
    have hperm := put_perm h.yc_ioa hput
    obtain ⟨hv, hr⟩ := stamp_fresh h.versions h.version_range
      (((pending area.yx).map YxUploadEntry.version ++
        (pending yc).map YcUploadEntry.version) ++
        (pending area.soe).map SoeUploadEntry.version)
      ((((hperm.map YcUploadEntry.version).append_left _).trans List.perm_middle).append_right _)
      (((List.filter_sublist.map _).append_left _).append_right _).subperm
    exact ⟨h.yx_ioa, nodup_put h.yc_ioa rfl hput, hv, hr, h.soe, h.soe_sequence, h.soe_next,
      h.sequence⟩
  · rw [heq]
    exact h

theorem areaInv_putSoe (h : AreaInv ⟨area, log⟩) (point : YxPoint) :
    AreaInv ⟨(putSoeLocked area point).1, log ++ [soeEntry area point]⟩ := by
  have hnext : area.soeNext = log.length % area.soe.length := h.soe_next
  have hseq : area.soeSequence = log.length := h.soe_sequence
  have hpush := h.soe.push (soeEntry area point)
  -- the entry that is overwritten, if any, is not in `rest`
  obtain ⟨rest, hbefore, hafter⟩ := pending_set h.soe.next
  have hsub : (rest.map SoeUploadEntry.version).Subperm
      ((pending area.soe).map SoeUploadEntry.version) := by
    refine List.Subperm.trans ?_ (hbefore.map _).symm.subperm
    rw [List.map_append]
    exact (List.sublist_append_right _ _).subperm
  obtain ⟨hv, hr⟩ := stamp_fresh h.versions h.version_range
    (((pending area.yx).map YxUploadEntry.version ++
      (pending area.yc).map YcUploadEntry.version) ++
      (pending (area.soe.set area.soeNext (some (soeEntry area point)))).map
        SoeUploadEntry.version)
    ((((hnext ▸ hafter (soeEntry area point)).map _).append_left _).trans List.perm_middle)
    ((List.subperm_append_left _).mpr hsub)
  refine ⟨h.yx_ioa, h.yc_ioa, hv, hr, ?_, ?_, ?_, ?_⟩
  · show LastOf (area.soe.set area.soeNext _) _
    rwa [hnext]
  · show area.soeSequence + 1 = (log ++ [_]).length
    rw [hseq, List.length_append, List.length_singleton]
  · show (area.soeNext + 1) % area.soe.length = (log ++ [_]).length % (area.soe.set _ _).length
    rw [hnext, List.length_append, List.length_singleton, List.length_set, Nat.mod_add_mod]
  · intro i e he
    rcases Ring.getElem?_concat he with ⟨_, he⟩ | ⟨rfl, rfl⟩
    · exact h.sequence i e he
    · exact congrArg (· + 1) hseq

theorem areaInv_empty {yx yc soe version : Nat} (hsoe : 0 < soe) :
    AreaInv ⟨{ version := version, soeSequence := 0, soeNext := 0
               yx := List.replicate yx none, yc := List.replicate yc none
               soe := List.replicate soe none }, []⟩ where
  yx_ioa := by simp [pending_replicate_none]
  yc_ioa := by simp [pending_replicate_none]
  versions := by simp [ActiveUploadArea.versions, pending_replicate_none]
  version_range := by simp [ActiveUploadArea.versions, pending_replicate_none]
  soe := lastOf_replicate hsoe
  soe_sequence := rfl
  soe_next := (Nat.zero_mod _).symm
  sequence := fun i e he => by simp at he

theorem areaInv_init (yxCapacity ycCapacity soeCapacity : Nat) :
    AreaInv ⟨activeUploadInit yxCapacity ycCapacity soeCapacity, []⟩ := by
  refine areaInv_empty ?_
  split
  · next h => exact h
  · exact Nat.one_pos

/-- A YX put with an SOE put after it, or alone. -/
theorem putYx_cases (area : ActiveUploadArea) (point : YxPoint) (withSoe : Bool) :
    activeUploadPutYx area point withSoe = putSoeLocked (putYxLocked area point).1 point ∧
        soeWritten area (.putYx point withSoe) =
          some (soeEntry (putYxLocked area point).1 point) ∨
      activeUploadPutYx area point withSoe = putYxLocked area point ∧
        soeWritten area (.putYx point withSoe) = none := by
  cases hsoe : (putYxLocked area point).2 && withSoe with
  | true => exact .inl ⟨if_pos hsoe, if_pos hsoe⟩
  | false => exact .inr ⟨if_neg (by simp [hsoe]), if_neg (by simp [hsoe])⟩

theorem areaInv_step {s : LoggedArea} (h : AreaInv s) (op : UploadOp) :
    AreaInv (loggedStep s op) := by
  cases op with
  | putYx point withSoe =>
    have hyx := areaInv_putYx h point
    show AreaInv ⟨(activeUploadPutYx s.area point withSoe).1,
      s.soeLog ++ (soeWritten s.area (.putYx point withSoe)).toList⟩
    rcases putYx_cases s.area point withSoe with ⟨harea, hsoe⟩ | ⟨harea, hsoe⟩
    · rw [harea, hsoe]
      exact areaInv_putSoe hyx point
    · rw [harea, hsoe, Option.toList_none, List.append_nil]
      exact hyx
  | putYc point cot =>
    show AreaInv ⟨(putYcLocked s.area point cot).1, s.soeLog ++ []⟩
    rw [List.append_nil]
    exact areaInv_putYc h point cot
  | putSoe point => exact areaInv_putSoe h point
  | clear => exact areaInv_empty h.soe.logs.pos

theorem soe_length_step (area : ActiveUploadArea) (op : UploadOp) :
    (uploadStep area op).soe.length = area.soe.length := by
  have hyx : ∀ point, (putYxLocked area point).1.soe = area.soe := by
    intro point
    rcases putYxLocked_cases area point with ⟨_, _, heq⟩ | heq
    · rw [heq]
    · rw [heq]
  cases op with
  | putYx point withSoe =>
    show (activeUploadPutYx area point withSoe).1.soe.length = _
    rcases putYx_cases area point withSoe with ⟨harea, _⟩ | ⟨harea, _⟩
    · rw [harea, ← hyx point]
      exact List.length_set
    · rw [harea, hyx]
  | putYc point cot =>
    show (putYcLocked area point cot).1.soe.length = _
    rcases putYcLocked_cases area point cot with ⟨_, _, heq⟩ | heq
    · rw [heq]
    · rw [heq]
  | putSoe point => exact List.length_set
  | clear => exact List.length_replicate

/-- A YX put changes the YX array as `put_yx_locked` does and leaves the YC array. -/
theorem uploadStep_putYx (area : ActiveUploadArea) (point : YxPoint) (withSoe : Bool) :
    (uploadStep area (.putYx point withSoe)).yx = (putYxLocked area point).1.yx ∧
      (uploadStep area (.putYx point withSoe)).yc = area.yc := by
  have hyc : (putYxLocked area point).1.yc = area.yc := by
    rcases putYxLocked_cases area point with ⟨_, _, heq⟩ | heq
    · rw [heq]
    · rw [heq]
  show (activeUploadPutYx area point withSoe).1.yx = _ ∧
    (activeUploadPutYx area point withSoe).1.yc = _
  rcases putYx_cases area point withSoe with ⟨heq, _⟩ | ⟨heq, _⟩
  · rw [heq]
    exact ⟨rfl, hyc⟩
  · rw [heq]
    exact ⟨rfl, hyc⟩

theorem version_putYxLocked (area : ActiveUploadArea) (point : YxPoint) :
    area.version ≤ (putYxLocked area point).1.version := by
  rcases putYxLocked_cases area point with ⟨_, _, heq⟩ | heq
  · rw [heq]
    exact Nat.le_succ _
  · rw [heq]

theorem version_uploadStep (area : ActiveUploadArea) (op : UploadOp) :
    area.version ≤ (uploadStep area op).version := by
  cases op with
  | putYx point withSoe =>
    have hle := version_putYxLocked area point
    show _ ≤ (activeUploadPutYx area point withSoe).1.version
    rcases putYx_cases area point withSoe with ⟨heq, _⟩ | ⟨heq, _⟩
    · rw [heq]
      exact Nat.le_succ_of_le hle
    · rw [heq]
      exact hle
  | putYc point cot =>
    show _ ≤ (putYcLocked area point cot).1.version
    rcases putYcLocked_cases area point cot with ⟨_, _, heq⟩ | heq
    · rw [heq]
      exact Nat.le_succ _
    · rw [heq]
  | putSoe point => exact Nat.le_succ _
  | clear => exact Nat.le_succ _

/-- An SOE entry carries the version that the area has after the operation. -/
theorem soeWritten_version {op : UploadOp} {e : SoeUploadEntry} (h : soeWritten area op = some e) :
    area.version < e.version ∧ e.version = (uploadStep area op).version := by
  cases op with
  | putYx point withSoe =>
    have hle := version_putYxLocked area point
    show _ ∧ _ = (activeUploadPutYx area point withSoe).1.version
    rcases putYx_cases area point withSoe with ⟨heq, hsoe⟩ | ⟨_, hsoe⟩
    · rw [hsoe] at h
      cases h
      rw [heq]
      exact ⟨Nat.lt_succ_of_le hle, rfl⟩
    · rw [hsoe] at h
      cases h
  | putSoe point =>
    cases h
    exact ⟨Nat.lt_succ_self _, rfl⟩
  | putYc point cot => cases h
  | clear => cases h

theorem snapshot_eq {alloc : SnapshotAlloc} {after : Nat} {snapshot : ActiveUploadSnapshot}
    (h : activeUploadSnapshotCreate alloc area after = some snapshot) :
    snapshot = ⟨area.version, newerThan YxUploadEntry.version after area.yx,
      newerThan YcUploadEntry.version after area.yc,
      newerThan SoeUploadEntry.version after area.soe⟩ := by
  dsimp only [activeUploadSnapshotCreate] at h
  split at h
  · cases h
  · split at h
    · cases h
    · split at h
      · cases h
      · exact (Option.some.inj h).symm

theorem areaInv_exec {s : LoggedArea} (h : AreaInv s) (ops : List UploadOp) :
    AreaInv (Run.exec loggedStep s ops) :=
  Run.exec_induction (I := fun _ => AreaInv) h (fun _ _ op ht => areaInv_step ht op) ops

/-- A put of a YX point with an SOE entry counts twice. -/
theorem counters_step (area : ActiveUploadArea) (op : UploadOp) :
    (uploadStep area op).version ≤ area.version + 2 ∧
      (uploadStep area op).soeSequence ≤ area.soeSequence + 1 := by
  cases op with
  | putYx point withSoe =>
    have hyx : (putYxLocked area point).1.version ≤ area.version + 1 ∧
        (putYxLocked area point).1.soeSequence = area.soeSequence := by
      rcases putYxLocked_cases area point with ⟨yx, -, heq⟩ | heq <;> simp [heq]
    show (activeUploadPutYx area point withSoe).1.version ≤ _ ∧
      (activeUploadPutYx area point withSoe).1.soeSequence ≤ _
    rcases putYx_cases area point withSoe with ⟨heq, -⟩ | ⟨heq, -⟩
    · rw [heq]
      exact ⟨Nat.succ_le_succ hyx.1, Nat.le_of_eq (congrArg (· + 1) hyx.2)⟩
    · rw [heq]
      omega
  | putYc point cot =>
    show (putYcLocked area point cot).1.version ≤ _ ∧ (putYcLocked area point cot).1.soeSequence ≤ _
    rcases putYcLocked_cases area point cot with ⟨yc, -, heq⟩ | heq <;> simp [heq]
  | putSoe point => exact ⟨Nat.le_succ _, Nat.le_refl _⟩
  | clear => exact ⟨Nat.le_succ _, Nat.zero_le _⟩

theorem counters_exec (yxCapacity ycCapacity soeCapacity : Nat) {ops : List UploadOp}
    (hops : ops.length < 2 ^ 63) {area : ActiveUploadArea}
    (harea : area = Run.exec uploadStep (activeUploadInit yxCapacity ycCapacity soeCapacity) ops) :
    area.version < 2 ^ 64 ∧ area.soeSequence < 2 ^ 64 := by
  have hcount : area.version ≤ 2 * ops.length ∧ area.soeSequence ≤ ops.length := by
    rw [harea]
    refine Run.exec_induction (I := fun past (area : ActiveUploadArea) =>
      area.version ≤ 2 * past.length ∧ area.soeSequence ≤ past.length)
      ⟨Nat.le_refl _, Nat.le_refl _⟩ (fun past area op h => ?_) ops
    have hstep := counters_step area op
    rw [List.length_append, List.length_singleton]
    omega
  omega

theorem area_exec (s : LoggedArea) (ops : List UploadOp) :
    (Run.exec loggedStep s ops).area = Run.exec uploadStep s.area ops := by
  induction ops generalizing s with
  | nil => rfl
  | cons op ops ih => exact ih (loggedStep s op)

end ActiveUploadLemmas

/-! ## The area of the server -/

/-- The YC points of the four partitions. -/
def PointTable.ycPoints (table : PointTable) : List YcPoint :=
  table.yc ++ table.ycRtu ++ table.ycSensorConf ++ table.ycCustom

/-- The area as `iec104_server_init` creates it. -/
def serverUploadArea (table : PointTable) : ActiveUploadArea :=
  activeUploadInit table.yx.length
    (table.yc.length + table.ycRtu.length + table.ycSensorConf.length + table.ycCustom.length)
    (if table.yx.length > 4096 then table.yx.length else 4096)

/-- The operation puts a point of the table. -/
def UploadOp.OfTable (table : PointTable) : UploadOp → Prop
  | .putYx point _ => point.ioa ∈ table.yx.map YxPoint.ioa
  | .putYc point _ => point.ioa ∈ table.ycPoints.map YcPoint.ioa
  | _ => True

/-- The entries are of points of the table and there is a slot for each point. -/
structure AreaFits (table : PointTable) (area : ActiveUploadArea) : Prop where
  yx_mem : ∀ e ∈ pending area.yx, e.ioa ∈ table.yx.map fun p => p.ioa.toInt32
  yc_mem : ∀ e ∈ pending area.yc, e.ioa ∈ table.ycPoints.map fun p => p.ioa.toInt32
  yx_room : table.yx.length ≤ area.yx.length
  yc_room : table.ycPoints.length ≤ area.yc.length

namespace ActiveUploadLemmas

variable {table : PointTable} {area : ActiveUploadArea}

theorem mem_map_toInt32 {α : Type} {ioa : α → UInt32} {l : List α} {a : UInt32}
    (h : a ∈ l.map ioa) : a.toInt32 ∈ l.map fun p => (ioa p).toInt32 := by
  obtain ⟨p, hp, rfl⟩ := List.mem_map.mp h
  exact List.mem_map.mpr ⟨p, hp, rfl⟩

theorem areaFits_server (table : PointTable) : AreaFits table (serverUploadArea table) where
  yx_mem := by simp [serverUploadArea, activeUploadInit, pending_replicate_none]
  yc_mem := by simp [serverUploadArea, activeUploadInit, pending_replicate_none]
  yx_room := by
    show _ ≤ (List.replicate _ _).length
    rw [List.length_replicate]
    split <;> omega
  yc_room := by
    show _ ≤ (List.replicate _ _).length
    rw [List.length_replicate]
    simp only [PointTable.ycPoints, List.length_append]
    split <;> omega

theorem areaFits_putYx (h : AreaFits table area) {point : YxPoint}
    (hp : point.ioa ∈ table.yx.map YxPoint.ioa) : AreaFits table (putYxLocked area point).1 := by
  rcases putYxLocked_cases area point with ⟨yx, hput, heq⟩ | heq
  · rw [heq]
    refine ⟨fun e he => ?_, h.yc_mem, (length_put hput).symm ▸ h.yx_room, h.yc_room⟩
    rcases mem_pending_put hput he with rfl | he
    · exact mem_map_toInt32 hp
    · exact h.yx_mem e he
  · rw [heq]
    exact h

theorem areaFits_step (h : AreaFits table area) {op : UploadOp} (hop : op.OfTable table) :
    AreaFits table (uploadStep area op) := by
  cases op with
  | putYx point withSoe =>
    have hyx := areaFits_putYx h hop
    show AreaFits table (activeUploadPutYx area point withSoe).1
    rcases putYx_cases area point withSoe with ⟨harea, _⟩ | ⟨harea, _⟩
    · rw [harea]
      exact ⟨hyx.yx_mem, hyx.yc_mem, hyx.yx_room, hyx.yc_room⟩
    · rw [harea]
      exact hyx
  | putYc point cot =>
    show AreaFits table (putYcLocked area point cot).1
    rcases putYcLocked_cases area point cot with ⟨yc, hput, heq⟩ | heq
    · rw [heq]
      refine ⟨h.yx_mem, fun e he => ?_, h.yx_room, (length_put hput).symm ▸ h.yc_room⟩
      rcases mem_pending_put hput he with rfl | he
      · exact mem_map_toInt32 hop
      · exact h.yc_mem e he
    · rw [heq]
      exact h
  | putSoe point => exact ⟨h.yx_mem, h.yc_mem, h.yx_room, h.yc_room⟩
  | clear =>
    refine ⟨?_, ?_, ?_, ?_⟩
    · simp [uploadStep, uploadCall, activeUploadClear, pending_replicate_none]
    · simp [uploadStep, uploadCall, activeUploadClear, pending_replicate_none]
    · simpa [uploadStep, uploadCall, activeUploadClear] using h.yx_room
    · simpa [uploadStep, uploadCall, activeUploadClear] using h.yc_room

theorem putYx_ok {log : List SoeUploadEntry} (hinv : AreaInv ⟨area, log⟩)
    (hfits : AreaFits table area) {point : YxPoint} (hp : point.ioa ∈ table.yx.map YxPoint.ioa) :
    (putYxLocked area point).2 = true := by
  have hsome := put_isSome_of_room (e := yxEntry point (area.version + 1)) hinv.yx_ioa
    hfits.yx_mem (mem_map_toInt32 hp) (by rw [List.length_map]; exact hfits.yx_room)
  obtain ⟨yx, hput⟩ := Option.isSome_iff_exists.mp hsome
  rw [putYxLocked, hput]

theorem putYc_ok {log : List SoeUploadEntry} (hinv : AreaInv ⟨area, log⟩)
    (hfits : AreaFits table area) {point : YcPoint} (cot : CauseOfTransmission)
    (hp : point.ioa ∈ table.ycPoints.map YcPoint.ioa) : (putYcLocked area point cot).2 = true := by
  have hsome := put_isSome_of_room (e := ycEntry point cot (area.version + 1)) hinv.yc_ioa
    hfits.yc_mem (mem_map_toInt32 hp) (by rw [List.length_map]; exact hfits.yc_room)
  obtain ⟨yc, hput⟩ := Option.isSome_iff_exists.mp hsome
  rw [putYcLocked, hput]

theorem uploadCall_ok {log : List SoeUploadEntry} (hinv : AreaInv ⟨area, log⟩)
    (hfits : AreaFits table area) {op : UploadOp} (hop : op.OfTable table) :
    (uploadCall area op).2 = true := by
  cases op with
  | putYx point withSoe =>
    show (activeUploadPutYx area point withSoe).2 = true
    rcases putYx_cases area point withSoe with ⟨harea, _⟩ | ⟨harea, _⟩
    · rw [harea]
      rfl
    · rw [harea]
      exact putYx_ok hinv hfits hop
  | putYc point cot => exact putYc_ok hinv hfits cot hop
  | putSoe point => rfl
  | clear => rfl

end ActiveUploadLemmas

open ActiveUploadLemmas

/-- In every run of puts and clears of an area: pending entries of a kind have distinct
addresses; all pending entries have distinct versions, from 1 to the version of the
area; the SOE ring holds exactly the last puts since the last clear, with
consecutive sequence numbers. In a run that puts points of the table only, into the
area of the server, no put fails. The counters of the code are those of the run as long as it has
fewer than `2 ^ 63` operations. -/
theorem upload_area_invariant :
    (∀ yxCapacity ycCapacity soeCapacity ops s,
      Run.exec loggedStep ⟨activeUploadInit yxCapacity ycCapacity soeCapacity, []⟩ ops = s →
      ((pending s.area.yx).map YxUploadEntry.ioa).Nodup ∧
      ((pending s.area.yc).map YcUploadEntry.ioa).Nodup ∧
      s.area.versions.Nodup ∧ (∀ v ∈ s.area.versions, 1 ≤ v ∧ v ≤ s.area.version) ∧
      s.area.soe.length = (if soeCapacity > 0 then soeCapacity else 1) ∧
      s.area.soeNext < s.area.soe.length ∧ s.area.soeSequence = s.soeLog.length ∧
      (pending s.area.soe).Perm (s.soeLog.drop (s.soeLog.length - s.area.soe.length)) ∧
      ∀ i e, s.soeLog[i]? = some e → e.sequence = i + 1) ∧
    ∀ table ops, (∀ op ∈ ops, UploadOp.OfTable table op) →
      ∀ past op rest, ops = past ++ op :: rest →
        (uploadCall (Run.exec uploadStep (serverUploadArea table) past) op).2 = true := by
  constructor
  · rintro yxCapacity ycCapacity soeCapacity ops s rfl
    have h := areaInv_exec (areaInv_init yxCapacity ycCapacity soeCapacity) ops
    refine ⟨h.yx_ioa, h.yc_ioa, h.versions, h.version_range, ?_, ?_, h.soe_sequence, h.soe.perm,
      h.sequence⟩
    · refine Run.exec_induction (I := fun _ (s : LoggedArea) => s.area.soe.length =
        if soeCapacity > 0 then soeCapacity else 1) List.length_replicate (fun _ s op hs => ?_) ops
      exact (soe_length_step s.area op).trans hs
    · rw [h.soe_next]
      exact Nat.mod_lt _ h.soe.logs.pos
  · rintro table ops hops past op rest rfl
    have hserver : AreaInv ⟨serverUploadArea table, []⟩ := areaInv_init _ _ _
    have hinv : AreaInv ⟨Run.exec uploadStep (serverUploadArea table) past,
        (Run.exec loggedStep ⟨serverUploadArea table, []⟩ past).soeLog⟩ := by
      rw [← area_exec ⟨serverUploadArea table, []⟩ past]
      exact areaInv_exec hserver past
    have hguard : Run.Guarded (fun _ op => UploadOp.OfTable table op) uploadStep
        (serverUploadArea table) past := by
      rintro front a back rfl
      exact hops a (by simp)
    have hfits : AreaFits table (Run.exec uploadStep (serverUploadArea table) past) :=
      Run.guarded_induction (I := fun _ => AreaFits table) (areaFits_server table)
        (fun _ _ op hop h => areaFits_step h hop) hguard
    exact uploadCall_ok hinv hfits (hops op (by simp))

/-- A YX put with SOE of the demo table succeeds, and leaves one SOE entry. -/
theorem upload_area_invariant_demo :
    (uploadCall (serverUploadArea pointTableInitDemo) (.putYx (initYxPoint 0) true)).2 = true ∧
    (pending (Run.exec loggedStep ⟨activeUploadInit 1 1 1, []⟩
      [.putYx (initYxPoint 0) true]).area.soe).Perm [⟨1, false, 0, 0, 1, 2⟩] := by
  constructor
  · refine upload_area_invariant.2 pointTableInitDemo [.putYx (initYxPoint 0) true] ?_ [] _ [] rfl
    intro op hop
    rw [List.mem_singleton.mp hop]
    have hmem : initYxPoint 0 ∈ initPartition ioaYxRange initYxPoint :=
      mem_initPartition (by decide +kernel)
    rw [← initDemo_yx] at hmem
    exact List.mem_map_of_mem hmem
  · have hring := (upload_area_invariant.1 1 1 1 [.putYx (initYxPoint 0) true] _ rfl)
    exact hring.2.2.2.2.2.2.2.1

end Iec104Slave
