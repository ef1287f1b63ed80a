import Iec104Slave.ActiveUpload
import Iec104Slave.AsduBuilder
import Iec104Slave.FrameLoop
import Iec104Slave.Lib.Batch
import Mathlib.Data.List.Nodup

/-!
# The active upload of a client (`send_active_upload`)

The worker of a client takes a snapshot of what is newer than the last version it
uploaded, cuts the three arrays into frames and sends them. It does not look at the
results: `last_uploaded_version` becomes the version of the snapshot even if the
connection refused a frame or the client became inactive between two frames.

Results:
1. `delivers_iff`: one upload transmits all entries of its snapshot iff the client
   stays active and every frame is accepted.
2. `upload_skips_nothing_iff`: over whole runs, nothing below the version of the client
   has been skipped iff every upload of the run was of that kind.
-/

namespace Iec104Slave

open SlotTable Batch

/-! ## Frames -/

/-- `ACTIVE_MAX_YX_PER_FRAME`. -/
def activeMaxYxPerFrame : Nat := 60

/-- `ACTIVE_MAX_SOE_PER_FRAME`. -/
def activeMaxSoePerFrame : Nat := 20

/-- `ACTIVE_MAX_YC_TIME_SCALED_PER_FRAME`. -/
def activeMaxYcTimeScaledPerFrame : Nat := 18

/-- `ACTIVE_MAX_YC_TIME_SHORT_PER_FRAME`. -/
def activeMaxYcTimeShortPerFrame : Nat := 16

/-- A pending entry of one of the three arrays. -/
inductive UploadEntry
  | yx (entry : YxUploadEntry)
  | soe (entry : SoeUploadEntry)
  | yc (entry : YcUploadEntry)
deriving DecidableEq

def UploadEntry.version : UploadEntry → Nat
  | .yx e => e.version
  | .soe e => e.version
  | .yc e => e.version

def ActiveUploadArea.entries (area : ActiveUploadArea) : List UploadEntry :=
  (pending area.yx).map .yx ++ (pending area.soe).map .soe ++ (pending area.yc).map .yc

/-- The point that the worker fills in from an entry; the rest of it is zero. -/
def YxUploadEntry.point (e : YxUploadEntry) : YxPoint :=
  { ioa := e.ioa.toUInt32, value := if e.value then 1 else 0, quality := e.quality, lastValue := 0
    enableSoe := false, enableSpontaneous := false, timestampMs := e.timestampMs }

def SoeUploadEntry.point (e : SoeUploadEntry) : YxPoint :=
  { ioa := e.ioa.toUInt32, value := if e.value then 1 else 0, quality := e.quality, lastValue := 0
    enableSoe := false, enableSpontaneous := false, timestampMs := e.timestampMs }

def YcUploadEntry.point (e : YcUploadEntry) : YcPoint :=
  { ioa := e.ioa.toUInt32, iecType := e.iecType, value := e.value, quality := e.quality
    deadband := 0, lastSentValue := 0, enableSpontaneous := false, enablePeriodic := false
    timestampMs := e.timestampMs }

/-- The object that carries the content of an entry. -/
def UploadEntry.object : UploadEntry → InformationObject
  | .yx e => yxObject e.point
  | .soe e => yxTimeObject e.point
  | .yc e => ycTimeObject e.point

/-- A frame that the connection accepted, with the entries it was built from. -/
structure AcceptedFrame where
  entries : List UploadEntry
  asdu : Asdu

/-! ## The worker -/

/-- One of the three send loops, from iteration `k` on: the accepted frames. -/
def uploadLoop {ε : Type} (entry : ε → UploadEntry) (send : Bool → List ε → Option Asdu)
    (outcome : Nat → FrameOutcome) : Nat → List (List ε) → List AcceptedFrame
  | _, [] => []
  | k, batch :: rest =>
    if (outcome k).active then
      ((send (outcome k).accepts batch).map (AcceptedFrame.mk (batch.map entry))).toList ++
        uploadLoop entry send outcome (k + 1) rest
    else []

/-- What the connection has accepted after the iterations of a send loop. -/
def acceptedFrames {ε : Type} (entry : ε → UploadEntry) (sent : List (Sent (List ε) Asdu)) :
    List AcceptedFrame :=
  sent.filterMap fun s => s.frame.map (AcceptedFrame.mk (s.item.map entry))

def yxBatches (yx : List YxUploadEntry) : List (List YxUploadEntry) :=
  batches (fun _ k _ => k < activeMaxYxPerFrame) yx

def soeBatches (soe : List SoeUploadEntry) : List (List SoeUploadEntry) :=
  batches (fun _ k _ => k < activeMaxSoePerFrame) soe

/-- The most YC entries in a frame of the type. -/
def ycMaxBatch (iecType : YcIecType) : Nat :=
  if iecType = .float then activeMaxYcTimeShortPerFrame else activeMaxYcTimeScaledPerFrame

def ycBatches (yc : List YcUploadEntry) : List (List YcUploadEntry) :=
  batches (fun first k e =>
    k < ycMaxBatch first.iecType && e.cot == first.cot && e.iecType == first.iecType) yc

def sendYxFrame (accepts : Bool) (batch : List YxUploadEntry) : Option Asdu :=
  asduSendYxBatchNonSequence accepts .spontaneous (batch.map YxUploadEntry.point)

def sendSoeFrame (accepts : Bool) (batch : List SoeUploadEntry) : Option Asdu :=
  asduSendYxTimeBatch accepts .spontaneous (batch.map SoeUploadEntry.point)

/-- The cause of the frame is that of its first entry. -/
def sendYcFrame (accepts : Bool) : List YcUploadEntry → Option Asdu
  | [] => none
  | e :: batch =>
    asduSendYcTimeBatchNonSequence accepts e.cot ((e :: batch).map YcUploadEntry.point)

/-- One handled `MSG_ACTIVE_UPLOAD`: the version in the message, the first test of the
client, the allocations of the snapshot and the three loops. -/
structure UploadInput where
  uploadVersion : Nat
  active : Bool
  alloc : SnapshotAlloc
  yx : Nat → FrameOutcome
  soe : Nat → FrameOutcome
  yc : Nat → FrameOutcome

/-- The upload area and one client session, with the frames accepted so far. -/
structure UploadSession where
  area : ActiveUploadArea
  lastUploadedVersion : Nat
  accepted : List AcceptedFrame

def UploadSession.sendActiveUpload (s : UploadSession) (x : UploadInput) : UploadSession :=
  if !x.active then s
  else if x.uploadVersion ≠ 0 ∧ x.uploadVersion ≤ s.lastUploadedVersion then s
  else
    match activeUploadSnapshotCreate x.alloc s.area s.lastUploadedVersion with
    | none => s
    | some snapshot =>
      { s with
        -- whatever became of the frames
        lastUploadedVersion := snapshot.version
        accepted := s.accepted ++
          (uploadLoop .yx sendYxFrame x.yx 0 (yxBatches snapshot.yx) ++
            uploadLoop .soe sendSoeFrame x.soe 0 (soeBatches snapshot.soe) ++
            uploadLoop .yc sendYcFrame x.yc 0 (ycBatches snapshot.yc)) }

inductive UploadSessionOp
  | area (op : UploadOp)
  | upload (x : UploadInput)

def uploadSessionStep (s : UploadSession) : UploadSessionOp → UploadSession
  | .area op => { s with area := uploadStep s.area op }
  | .upload x => s.sendActiveUpload x

/-- A session starts with `last_uploaded_version` 0. -/
def UploadSession.start (area : ActiveUploadArea) : UploadSession := ⟨area, 0, []⟩

/-! ## What must not be skipped -/

/-- The entry, as it is now, was part of an accepted frame. -/
def Transmitted (accepted : List AcceptedFrame) (e : UploadEntry) : Prop :=
  ∃ frame ∈ accepted, e ∈ frame.entries ∧ e.object ∈ frame.asdu.elements

def NothingSkipped (s : UploadSession) : Prop :=
  ∀ e ∈ s.area.entries, e.version ≤ s.lastUploadedVersion → Transmitted s.accepted e

/-- If the upload takes a snapshot, then all its frames are accepted. -/
def UploadInput.Accepted (s : UploadSession) (x : UploadInput) : Prop :=
  x.active = true → ¬(x.uploadVersion ≠ 0 ∧ x.uploadVersion ≤ s.lastUploadedVersion) →
  ∀ snapshot, activeUploadSnapshotCreate x.alloc s.area s.lastUploadedVersion = some snapshot →
    AllAccepted x.yx (yxBatches snapshot.yx).length ∧
    AllAccepted x.soe (soeBatches snapshot.soe).length ∧
    AllAccepted x.yc (ycBatches snapshot.yc).length

def UploadSessionOp.Accepted (s : UploadSession) : UploadSessionOp → Prop
  | .area _ => True
  | .upload x => x.Accepted s

namespace UploadWorkerLemmas

open ActiveUploadLemmas AsduBuilderLemmas FrameLoopLemmas

/-! ## One send loop -/

section Loop

variable {ε : Type} {entry : ε → UploadEntry} {send : Bool → List ε → Option Asdu}
  {outcome : Nat → FrameOutcome} {bs : List (List ε)}

/-- The accepted frames of the loop are those of its iterations. -/
theorem uploadLoop_eq (k : Nat) : uploadLoop entry send outcome k bs =
    acceptedFrames entry (frameLoop send (fun j => outcome (k + j)) bs) := by
  induction bs generalizing k with
  | nil => rfl
  | cons batch bs ih =>
    have hnext : (fun j => outcome (k + (j + 1))) = fun j => outcome (k + 1 + j) := by
      funext j
      rw [Nat.add_comm j, Nat.add_assoc]
    rw [uploadLoop, frameLoop, hnext]
    simp only [Nat.add_zero]
    split
    · rw [ih, acceptedFrames, acceptedFrames, List.filterMap_cons]
      dsimp only
      cases send (outcome k).accepts batch with
      | none => rfl
      | some asdu => rfl
    · rfl

theorem mem_uploadLoop {frame : AcceptedFrame} {k : Nat} :
    frame ∈ uploadLoop entry send outcome k bs ↔
      ∃ i batch asdu, bs[i]? = some batch ∧ (∀ j ≤ i, (outcome (k + j)).active = true) ∧
        send (outcome (k + i)).accepts batch = some asdu ∧ frame = ⟨batch.map entry, asdu⟩ := by
  rw [uploadLoop_eq, acceptedFrames, List.mem_filterMap]
  constructor
  · intro h
    obtain ⟨sent, hmem, hframe⟩ := h
    obtain ⟨i, batch, hbatch, hact, rfl⟩ := mem_frameLoop.mp hmem
    obtain ⟨asdu, hsend, rfl⟩ := Option.map_eq_some_iff.mp hframe
    exact ⟨i, batch, asdu, hbatch, hact, hsend, rfl⟩
  · intro h
    obtain ⟨i, batch, asdu, hbatch, hact, hsend, rfl⟩ := h
    exact ⟨_, mem_frameLoop.mpr ⟨i, batch, hbatch, hact, rfl⟩,
      Option.map_eq_some_iff.mpr ⟨asdu, hsend, rfl⟩⟩

theorem entry_of_mem {frame : AcceptedFrame} {e : UploadEntry} {k : Nat}
    (hframe : frame ∈ uploadLoop entry send outcome k bs) (he : e ∈ frame.entries) :
    ∃ x ∈ bs.flatten, e = entry x := by
  obtain ⟨i, batch, asdu, hb, _, _, rfl⟩ := mem_uploadLoop.mp hframe
  obtain ⟨x, hx, rfl⟩ := List.mem_map.mp he
  exact ⟨x, List.mem_flatten.mpr ⟨batch, List.mem_of_getElem? hb, hx⟩, rfl⟩

/-- A loop does not transmit entries of another kind. -/
theorem not_transmitted {e : UploadEntry} {k : Nat} (h : ∀ x, e ≠ entry x) :
    ¬Transmitted (uploadLoop entry send outcome k bs) e := by
  rintro ⟨frame, hframe, he, _⟩
  obtain ⟨x, _, hx⟩ := entry_of_mem hframe he
  exact h x hx

/-- The encoder takes every batch. -/
structure Encodes (entry : ε → UploadEntry) (send : Bool → List ε → Option Asdu)
    (bs : List (List ε)) : Prop where
  ne_nil : ∀ batch ∈ bs, batch ≠ []
  sends : ∀ batch ∈ bs, ∃ asdu, asdu.elements = batch.map (fun e => (entry e).object) ∧
    ∀ accepts, send accepts batch = if accepts then some asdu else none

/-- A loop transmits all its entries iff it is not left early and no frame is refused. -/
theorem delivers_iff (hentry : Function.Injective entry) (hbs : Encodes entry send bs)
    {l : List ε} (hflat : bs.flatten = l) (hnodup : l.Nodup) :
    (∀ e ∈ l, Transmitted (uploadLoop entry send outcome 0 bs) (entry e)) ↔
      AllAccepted outcome bs.length := by
  subst hflat
  constructor
  · intro h k hk
    -- The frame that carries an entry of batch `k` can only be that batch.
    obtain ⟨e, he⟩ := List.exists_mem_of_ne_nil _ (hbs.ne_nil _ (List.getElem_mem hk))
    obtain ⟨frame, hframe, hmem, _⟩ :=
      h e (List.mem_flatten.mpr ⟨_, List.getElem_mem hk, he⟩)
    obtain ⟨i, batch, asdu, hb, hact, hsend, rfl⟩ := mem_uploadLoop.mp hframe
    obtain ⟨x, hx, hxe⟩ := List.mem_map.mp hmem
    obtain ⟨hi, rfl⟩ := List.getElem?_eq_some_iff.mp hb
    have hik : i = k := by
      by_contra hne
      have hdisj := (List.nodup_flatten.mp hnodup).2
      rcases Nat.lt_or_gt_of_ne hne with hlt | hlt
      · exact List.pairwise_iff_getElem.mp hdisj i k hi hk hlt hx (hentry hxe ▸ he)
      · exact List.pairwise_iff_getElem.mp hdisj k i hk hi hlt he (hentry hxe ▸ hx)
    subst hik
    rw [Nat.zero_add] at hsend
    refine ⟨by simpa using hact i (Nat.le_refl i), ?_⟩
    obtain ⟨_, _, hresult⟩ := hbs.sends _ (List.getElem_mem hi)
    rw [hresult] at hsend
    by_contra hrefused
    rw [if_neg hrefused] at hsend
    cases hsend
  · intro h e he
    obtain ⟨batch, hb, heb⟩ := List.mem_flatten.mp he
    obtain ⟨i, hi, rfl⟩ := List.mem_iff_getElem.mp hb
    obtain ⟨asdu, helem, hresult⟩ := hbs.sends _ hb
    refine ⟨⟨bs[i].map entry, asdu⟩, ?_, List.mem_map_of_mem heb, ?_⟩
    · refine mem_uploadLoop.mpr
        ⟨i, bs[i], asdu, List.getElem?_eq_getElem hi, fun j hj => ?_, ?_, rfl⟩
      · rw [Nat.zero_add]
        exact (h j (Nat.lt_of_le_of_lt hj hi)).1
      · rw [hresult, Nat.zero_add, if_pos (h i hi).2]
    · rw [helem]
      exact List.mem_map_of_mem heb

end Loop

/-! ## The three kinds of frames -/

theorem encodes_of_batches {ε : Type} {entry : ε → UploadEntry}
    {send : Bool → List ε → Option Asdu} {fits : ε → Nat → ε → Bool} {l : List ε}
    (h : ∀ first batch, IsBatch fits first batch →
      ∃ asdu, asdu.elements = batch.map (fun e => (entry e).object) ∧
        ∀ accepts, send accepts batch = if accepts then some asdu else none) :
    Encodes entry send (batches fits l) where
  ne_nil := by
    intro batch hb
    obtain ⟨first, hbatch⟩ := isBatch_of_mem batch hb
    exact List.ne_nil_of_length_pos hbatch.pos
  sends := by
    intro batch hb
    obtain ⟨first, hbatch⟩ := isBatch_of_mem batch hb
    exact h first batch hbatch

theorem frame_fits {ε ρ : Type} (point : ε → ρ) (object : ρ → InformationObject) {batch : List ε}
    {t : UInt8} {n limit : Nat} (cot : CauseOfTransmission) (hpos : 0 < batch.length)
    (hobj : ∀ e ∈ batch, (object (point e)).typeId = t ∧ (object (point e)).size = n)
    (hlen : batch.length ≤ limit) (hcount : limit ≤ 127)
    (hroom : limit * (sizeOfIoa + n) ≤ maxSizeOfAsdu - asduHeaderLength) :
    ∃ asdu, asdu.elements = batch.map (fun e => object (point e)) ∧ ∀ accepts,
      sendObjects accepts false cot ((batch.map point).map object) =
        if accepts then some asdu else none := by
  rw [List.map_map]
  refine sendObjects_fits (t := t) (List.ne_nil_of_length_pos (by rwa [List.length_map])) ?_
    (by rw [List.length_map]; exact Nat.le_trans hlen hcount)
    (by rw [List.length_map]; exact Nat.le_trans (Nat.mul_le_mul_right _ hlen) hroom)
  intro io hio
  obtain ⟨e, he, rfl⟩ := List.mem_map.mp hio
  exact hobj e he

theorem encodes_yx (l : List YxUploadEntry) : Encodes .yx sendYxFrame (yxBatches l) := by
  refine encodes_of_batches fun first batch hbatch => ?_
  have hlen : batch.length ≤ activeMaxYxPerFrame :=
    hbatch.length_le (by decide) fun k _ hk => of_decide_eq_true hk
  exact frame_fits YxUploadEntry.point yxObject (n := 1) .spontaneous hbatch.pos
    (fun e _ => ⟨rfl, rfl⟩) hlen (by decide) (by decide)

theorem encodes_soe (l : List SoeUploadEntry) : Encodes .soe sendSoeFrame (soeBatches l) := by
  refine encodes_of_batches fun first batch hbatch => ?_
  have hlen : batch.length ≤ activeMaxSoePerFrame :=
    hbatch.length_le (by decide) fun k _ hk => of_decide_eq_true hk
  exact frame_fits SoeUploadEntry.point yxTimeObject (n := 8) .spontaneous hbatch.pos
    (fun e _ => ⟨rfl, rfl⟩) hlen (by decide) (by decide)

/-- Points of one type give objects of one type and size. -/
theorem ycTimeObject_spec (iecType : YcIecType) : ∃ t, ∀ point : YcPoint,
    point.iecType = iecType → (ycTimeObject point).typeId = t ∧
      (ycTimeObject point).size = if iecType = .float then 12 else 10 := by
  cases iecType with
  | normalized =>
    refine ⟨M_ME_TD_1, fun point h => ?_⟩
    simp [ycTimeObject, ycElement, h, InformationObject.typeId, InformationObject.size]
  | scaled =>
    refine ⟨M_ME_TE_1, fun point h => ?_⟩
    simp [ycTimeObject, ycElement, h, InformationObject.typeId, InformationObject.size]
  | float =>
    refine ⟨M_ME_TF_1, fun point h => ?_⟩
    simp [ycTimeObject, ycElement, h, InformationObject.typeId, InformationObject.size]

theorem encodes_yc (l : List YcUploadEntry) : Encodes .yc sendYcFrame (ycBatches l) := by
  refine encodes_of_batches fun first batch hbatch => ?_
  have hlen : batch.length ≤ ycMaxBatch first.iecType := by
    refine hbatch.length_le ?_ fun k e hk => ?_
    · cases first.iecType <;> decide
    · simp only [Bool.and_eq_true, decide_eq_true_eq] at hk
      exact hk.1.1
  have htype : ∀ e ∈ batch, e.iecType = first.iecType := by
    refine hbatch.forall_mem rfl fun k e hk => ?_
    simp only [Bool.and_eq_true, beq_iff_eq] at hk
    exact hk.2
  have hlimit : ycMaxBatch first.iecType ≤ 127 ∧ ycMaxBatch first.iecType *
      (sizeOfIoa + if first.iecType = .float then 12 else 10) ≤
        maxSizeOfAsdu - asduHeaderLength := by
    cases first.iecType <;> decide
  obtain ⟨t, hspec⟩ := ycTimeObject_spec first.iecType
  have hfits := frame_fits YcUploadEntry.point ycTimeObject first.cot hbatch.pos
    (fun e he => hspec e.point (htype e he)) hlen hlimit.1 hlimit.2
  cases batch with
  | nil => exact absurd hbatch.pos (Nat.lt_irrefl 0)
  | cons e batch =>
    obtain rfl : e = first := Option.some.inj hbatch.head
    exact hfits

/-! ## Puts between uploads -/

variable {area : ActiveUploadArea}

theorem mem_entries_yx {e : YxUploadEntry} : .yx e ∈ area.entries ↔ e ∈ pending area.yx := by
  simp [ActiveUploadArea.entries]

theorem mem_entries_soe {e : SoeUploadEntry} : .soe e ∈ area.entries ↔ e ∈ pending area.soe := by
  simp [ActiveUploadArea.entries]

theorem mem_entries_yc {e : YcUploadEntry} : .yc e ∈ area.entries ↔ e ∈ pending area.yc := by
  simp [ActiveUploadArea.entries]

theorem version_mem {e : UploadEntry} (he : e ∈ area.entries) : e.version ∈ area.versions := by
  simp only [ActiveUploadArea.versions, List.mem_append]
  cases e with
  | yx e => exact .inl (.inl (List.mem_map_of_mem (mem_entries_yx.mp he)))
  | soe e => exact .inr (List.mem_map_of_mem (mem_entries_soe.mp he))
  | yc e => exact .inl (.inr (List.mem_map_of_mem (mem_entries_yc.mp he)))

theorem entries_of_arrays {area' : ActiveUploadArea}
    (hyx : ∀ e ∈ pending area'.yx, e ∈ pending area.yx ∨ area.version < e.version)
    (hsoe : ∀ e ∈ pending area'.soe, e ∈ pending area.soe ∨ area.version < e.version)
    (hyc : ∀ e ∈ pending area'.yc, e ∈ pending area.yc ∨ area.version < e.version) :
    ∀ e ∈ area'.entries, e ∈ area.entries ∨ area.version < e.version := by
  intro e he
  cases e with
  | yx e => exact (hyx e (mem_entries_yx.mp he)).imp_left mem_entries_yx.mpr
  | soe e => exact (hsoe e (mem_entries_soe.mp he)).imp_left mem_entries_soe.mpr
  | yc e => exact (hyc e (mem_entries_yc.mp he)).imp_left mem_entries_yc.mpr

theorem entries_putYx (area : ActiveUploadArea) (point : YxPoint) :
    ∀ e ∈ (putYxLocked area point).1.entries, e ∈ area.entries ∨ area.version < e.version := by
  rcases putYxLocked_cases area point with ⟨yx, hput, heq⟩ | heq
  · rw [heq]
    refine entries_of_arrays (fun e he => ?_) (fun _ he => .inl he) (fun _ he => .inl he)
    rcases mem_pending_put hput he with rfl | he
    · exact .inr (Nat.lt_succ_self _)
    · exact .inl he
  · rw [heq]
    exact fun _ he => .inl he

theorem entries_putSoe (area : ActiveUploadArea) (point : YxPoint) :
    ∀ e ∈ (putSoeLocked area point).1.entries, e ∈ area.entries ∨ area.version < e.version := by
  refine entries_of_arrays (fun _ he => .inl he) (fun e he => ?_) (fun _ he => .inl he)
  rcases List.mem_or_eq_of_mem_set (mem_pending.mp he) with hold | hnew
  · exact .inl (mem_pending.mpr hold)
  · cases hnew
    exact .inr (Nat.lt_succ_self _)

/-- An operation on the area leaves old entries, or stamps new ones. -/
theorem entries_step (area : ActiveUploadArea) (op : UploadOp) :
    ∀ e ∈ (uploadStep area op).entries, e ∈ area.entries ∨ area.version < e.version := by
  cases op with
  | putYx point withSoe =>
    show ∀ e ∈ (activeUploadPutYx area point withSoe).1.entries, _
    rcases putYx_cases area point withSoe with ⟨heq, _⟩ | ⟨heq, _⟩
    · rw [heq]
      intro e he
      rcases entries_putSoe _ point e he with he | hlt
      · exact entries_putYx area point e he
      · exact .inr (Nat.lt_of_le_of_lt (version_putYxLocked area point) hlt)
    · rw [heq]
      exact entries_putYx area point
  | putYc point cot =>
    show ∀ e ∈ (putYcLocked area point cot).1.entries, _
    rcases putYcLocked_cases area point cot with ⟨yc, hput, heq⟩ | heq
    · rw [heq]
      refine entries_of_arrays (fun _ he => .inl he) (fun _ he => .inl he) (fun e he => ?_)
      rcases mem_pending_put hput he with rfl | he
      · exact .inr (Nat.lt_succ_self _)
      · exact .inl he
    · rw [heq]
      exact fun _ he => .inl he
  | putSoe point => exact entries_putSoe area point
  | clear =>
    intro e he
    simp [uploadStep, uploadCall, activeUploadClear, ActiveUploadArea.entries,
      pending_replicate_none] at he

/-! ## One upload -/

variable {s : UploadSession}

structure SessionInv (s : UploadSession) : Prop where
  area : ∃ log, AreaInv ⟨s.area, log⟩
  last_le : s.lastUploadedVersion ≤ s.area.version
  accepted_le : ∀ frame ∈ s.accepted, ∀ e ∈ frame.entries, e.version ≤ s.lastUploadedVersion

theorem transmitted_append {l l' : List AcceptedFrame} {e : UploadEntry} :
    Transmitted (l ++ l') e ↔ Transmitted l e ∨ Transmitted l' e := by
  simp only [Transmitted, List.mem_append, or_and_right, exists_or]

def newYx (s : UploadSession) : List YxUploadEntry :=
  newerThan YxUploadEntry.version s.lastUploadedVersion s.area.yx

def newSoe (s : UploadSession) : List SoeUploadEntry :=
  newerThan SoeUploadEntry.version s.lastUploadedVersion s.area.soe

def newYc (s : UploadSession) : List YcUploadEntry :=
  newerThan YcUploadEntry.version s.lastUploadedVersion s.area.yc

def newFrames (s : UploadSession) (x : UploadInput) : List AcceptedFrame :=
  uploadLoop .yx sendYxFrame x.yx 0 (yxBatches (newYx s)) ++
  uploadLoop .soe sendSoeFrame x.soe 0 (soeBatches (newSoe s)) ++
  uploadLoop .yc sendYcFrame x.yc 0 (ycBatches (newYc s))

/-- An upload does nothing, or sends the frames of what is new and moves the version on. -/
theorem sendActiveUpload_cases (s : UploadSession) (x : UploadInput) :
    s.sendActiveUpload x = s ∧ x.Accepted s ∨
    s.sendActiveUpload x = { s with lastUploadedVersion := s.area.version
                                    accepted := s.accepted ++ newFrames s x } ∧
      (x.Accepted s ↔ AllAccepted x.yx (yxBatches (newYx s)).length ∧
        AllAccepted x.soe (soeBatches (newSoe s)).length ∧
        AllAccepted x.yc (ycBatches (newYc s)).length) := by
  unfold UploadSession.sendActiveUpload UploadInput.Accepted
  split
  · next hinactive =>
    exact .inl ⟨rfl, fun hactive => by simp [hactive] at hinactive⟩
  · next hactive =>
    rw [Bool.not_eq_true, Bool.not_eq_false'] at hactive
    split
    · next hold => exact .inl ⟨rfl, fun _ hnew => absurd hold hnew⟩
    · next hnew =>
      split
      · next hnone => exact .inl ⟨rfl, fun _ _ snapshot hsome => by simp [hnone] at hsome⟩
      · next snapshot hsome =>
        refine .inr ⟨?_, ?_⟩
        · rw [snapshot_eq hsome]
          rfl
        · rw [hsome, snapshot_eq hsome]
          constructor
          · intro h
            exact h hactive hnew _ rfl
          · rintro h _ _ _ ⟨⟩
            exact h

theorem newFrames_le (h : SessionInv s) (x : UploadInput) :
    ∀ frame ∈ newFrames s x, ∀ e ∈ frame.entries, e.version ≤ s.area.version := by
  intro frame hframe e he
  suffices hmem : e ∈ s.area.entries by
    obtain ⟨log, harea⟩ := h.area
    exact (harea.version_range _ (version_mem hmem)).2
  rcases List.mem_append.mp hframe with hframe | hframe
  · rcases List.mem_append.mp hframe with hframe | hframe
    · obtain ⟨e, hmem, rfl⟩ := entry_of_mem hframe he
      rw [yxBatches, flatten_batches] at hmem
      exact mem_entries_yx.mpr (mem_newerThan.mp hmem).1
    · obtain ⟨e, hmem, rfl⟩ := entry_of_mem hframe he
      rw [soeBatches, flatten_batches] at hmem
      exact mem_entries_soe.mpr (mem_newerThan.mp hmem).1
  · obtain ⟨e, hmem, rfl⟩ := entry_of_mem hframe he
    rw [ycBatches, flatten_batches] at hmem
    exact mem_entries_yc.mpr (mem_newerThan.mp hmem).1

/-- The new entries are those of the three arrays, and each array has its own loop. -/
theorem new_entries_iff (s : UploadSession) (x : UploadInput) :
    (∀ e ∈ s.area.entries, s.lastUploadedVersion < e.version → Transmitted (newFrames s x) e) ↔
      (∀ e ∈ newYx s,
        Transmitted (uploadLoop .yx sendYxFrame x.yx 0 (yxBatches (newYx s))) (.yx e)) ∧
      (∀ e ∈ newSoe s,
        Transmitted (uploadLoop .soe sendSoeFrame x.soe 0 (soeBatches (newSoe s))) (.soe e)) ∧
      ∀ e ∈ newYc s,
        Transmitted (uploadLoop .yc sendYcFrame x.yc 0 (ycBatches (newYc s))) (.yc e) := by
  simp only [newFrames, transmitted_append]
  constructor
  · intro h
    refine ⟨fun e he => ?_, fun e he => ?_, fun e he => ?_⟩
    · obtain ⟨hmem, hnew⟩ := mem_newerThan.mp he
      exact ((h _ (mem_entries_yx.mpr hmem) hnew).resolve_right
        (not_transmitted fun _ => nofun)).resolve_right (not_transmitted fun _ => nofun)
    · obtain ⟨hmem, hnew⟩ := mem_newerThan.mp he
      exact ((h _ (mem_entries_soe.mpr hmem) hnew).resolve_right
        (not_transmitted fun _ => nofun)).resolve_left (not_transmitted fun _ => nofun)
    · obtain ⟨hmem, hnew⟩ := mem_newerThan.mp he
      refine (h _ (mem_entries_yc.mpr hmem) hnew).resolve_left ?_
      exact not_or.mpr ⟨not_transmitted fun _ => nofun, not_transmitted fun _ => nofun⟩
  · rintro ⟨hyx, hsoe, hyc⟩ e he hnew
    cases e with
    | yx e => exact .inl (.inl (hyx e (mem_newerThan.mpr ⟨mem_entries_yx.mp he, hnew⟩)))
    | soe e => exact .inl (.inr (hsoe e (mem_newerThan.mpr ⟨mem_entries_soe.mp he, hnew⟩)))
    | yc e => exact .inr (hyc e (mem_newerThan.mpr ⟨mem_entries_yc.mp he, hnew⟩))

theorem newFrames_complete_iff (h : SessionInv s) (x : UploadInput) :
    (∀ e ∈ s.area.entries, s.lastUploadedVersion < e.version → Transmitted (newFrames s x) e) ↔
      AllAccepted x.yx (yxBatches (newYx s)).length ∧
        AllAccepted x.soe (soeBatches (newSoe s)).length ∧
        AllAccepted x.yc (ycBatches (newYc s)).length := by
  obtain ⟨log, harea⟩ := h.area
  have hversions := harea.versions
  simp only [ActiveUploadArea.versions, List.nodup_append'] at hversions
  obtain ⟨⟨hyx, hyc, _⟩, hsoe, _⟩ := hversions
  rw [new_entries_iff]
  refine and_congr ?_ (and_congr ?_ ?_)
  · exact delivers_iff (fun _ _ => UploadEntry.yx.inj) (encodes_yx _) (flatten_batches _)
      ((hyx.sublist (List.filter_sublist.map _)).of_map _)
  · exact delivers_iff (fun _ _ => UploadEntry.soe.inj) (encodes_soe _) (flatten_batches _)
      ((hsoe.sublist (List.filter_sublist.map _)).of_map _)
  · exact delivers_iff (fun _ _ => UploadEntry.yc.inj) (encodes_yc _) (flatten_batches _)
      ((hyc.sublist (List.filter_sublist.map _)).of_map _)

/-- An upload keeps that nothing is skipped iff its frames are accepted. -/
theorem upload_exact (h : SessionInv s) (hs : NothingSkipped s) (x : UploadInput) :
    NothingSkipped (s.sendActiveUpload x) ↔ x.Accepted s := by
  rcases sendActiveUpload_cases s x with ⟨heq, hacc⟩ | ⟨heq, hacc⟩
  · rw [heq]
    exact iff_of_true hs hacc
  · rw [heq, hacc, ← newFrames_complete_iff h x]
    obtain ⟨log, harea⟩ := h.area
    -- an entry newer than the last upload is in no earlier frame
    constructor
    · intro hs' e he hnew
      refine (transmitted_append.mp (hs' e he ?_)).resolve_left ?_
      · exact (harea.version_range _ (version_mem he)).2
      · rintro ⟨frame, hframe, hmem, _⟩
        exact absurd (h.accepted_le frame hframe e hmem) (Nat.not_le.mpr hnew)
    · intro hnew e he _
      refine transmitted_append.mpr ?_
      rcases Nat.lt_or_ge s.lastUploadedVersion e.version with hlt | hle
      · exact .inr (hnew e he hlt)
      · exact .inl (hs e he hle)

theorem area_step_keeps (h : SessionInv s) (hs : NothingSkipped s) (op : UploadOp) :
    NothingSkipped { s with area := uploadStep s.area op } := by
  intro e he hle
  rcases entries_step s.area op e he with hold | hnew
  · exact hs e hold hle
  · exact absurd (Nat.le_trans hle h.last_le) (Nat.not_le.mpr hnew)

theorem sessionInv_step (h : SessionInv s) (op : UploadSessionOp) :
    SessionInv (uploadSessionStep s op) := by
  obtain ⟨log, harea⟩ := h.area
  cases op with
  | area op =>
    exact ⟨⟨_, areaInv_step harea op⟩, Nat.le_trans h.last_le (version_uploadStep s.area op),
      h.accepted_le⟩
  | upload x =>
    show SessionInv (s.sendActiveUpload x)
    rcases sendActiveUpload_cases s x with ⟨heq, _⟩ | ⟨heq, _⟩
    · rw [heq]
      exact h
    · rw [heq]
      refine ⟨⟨log, harea⟩, Nat.le_refl _, fun frame hframe e he => ?_⟩
      rcases List.mem_append.mp hframe with hold | hnew
      · exact Nat.le_trans (h.accepted_le frame hold e he) h.last_le
      · exact newFrames_le h x frame hnew e he

theorem sessionInv_start (yxCapacity ycCapacity soeCapacity : Nat) :
    SessionInv (.start (activeUploadInit yxCapacity ycCapacity soeCapacity)) :=
  ⟨⟨[], areaInv_init _ _ _⟩, Nat.zero_le _, fun _ hframe => by cases hframe⟩

theorem nothingSkipped_start (yxCapacity ycCapacity soeCapacity : Nat) :
    NothingSkipped (.start (activeUploadInit yxCapacity ycCapacity soeCapacity)) := by
  intro e he
  simp [UploadSession.start, activeUploadInit, ActiveUploadArea.entries,
    pending_replicate_none] at he

end UploadWorkerLemmas

open UploadWorkerLemmas

/-- At every point of a run of puts and uploads, every pending entry up to
`last_uploaded_version` has been in an accepted frame as it is, iff in every upload
of the run that takes a snapshot the client stays active in the send loops and the
connection accepts every frame. -/
theorem upload_skips_nothing_iff (yxCapacity ycCapacity soeCapacity : Nat)
    (ops : List UploadSessionOp) :
    (∀ past rest, ops = past ++ rest → NothingSkipped (Run.exec uploadSessionStep
      (.start (activeUploadInit yxCapacity ycCapacity soeCapacity)) past)) ↔
    Run.Guarded UploadSessionOp.Accepted uploadSessionStep
      (.start (activeUploadInit yxCapacity ycCapacity soeCapacity)) ops := by
  refine Run.always_iff_guarded (sessionInv_start _ _ _) (nothingSkipped_start _ _ _)
    (fun _ op h => sessionInv_step h op) (fun s op h hs => ?_) ops
  cases op with
  | area op => exact iff_of_true (area_step_keeps h hs op) trivial
  | upload x => exact upload_exact h hs x

/-- A session with one put, and an upload whose only frame is refused. -/
def refusedUpload : UploadSession :=
  Run.exec uploadSessionStep (.start (activeUploadInit 1 1 1))
    [.area (.putYx (initYxPoint 0) false),
     .upload ⟨1, true, ⟨true, true, true⟩, fun _ => ⟨true, false⟩, fun _ => ⟨true, false⟩,
      fun _ => ⟨true, false⟩⟩]

/-- The version of the client is then that of the entry, and no frame has carried it. -/
theorem refused_frame_skipped :
    refusedUpload.lastUploadedVersion = 1 ∧
      refusedUpload.area.entries = [.yx ⟨1, false, 0, 0, 1⟩] ∧ refusedUpload.accepted = [] ∧
      ¬NothingSkipped refusedUpload := by
  have hlast : refusedUpload.lastUploadedVersion = 1 := by decide +kernel
  have hentries : refusedUpload.area.entries = [.yx ⟨1, false, 0, 0, 1⟩] := by decide +kernel
  have haccepted : refusedUpload.accepted = [] := by decide +kernel
  refine ⟨hlast, hentries, haccepted, fun h => ?_⟩
  obtain ⟨frame, hframe, _⟩ := h (.yx ⟨1, false, 0, 0, 1⟩) (by rw [hentries]; exact .head _)
    (Nat.le_of_eq hlast.symm)
  rw [haccepted] at hframe
  cases hframe

end Iec104Slave
