import Iec104Slave.Apci
import Iec104Slave.Lib.Records
import Iec104Slave.Lib.Run

/-!
# Frames from the socket (`receiveMessage` in `cs104_slave.c`)

A frame is the start byte 0x68, a length, and as many bytes. `receiveMessage` reads what the socket
has, keeps an incomplete frame in the receive buffer of the connection, and goes on with it in the
next call. It does not wait for the length byte: a call that finds nothing behind the start byte
takes this for an error, and the connection is closed. After the length 0 it reads no bytes, and
what comes of this depends on what else has arrived: if there is nothing, the two bytes are a frame.
An access outside of the receive buffer gives `none`.

Results:
1. `FrameLink.handled_frames_start_stream`: whatever arrives, the receiver stays within its buffer,
   and the frames that it gives are the start of the stream.
2. `FrameLink.master_frames_handled`: the frames of a master are handled in order, however they are
   cut into pieces. The connection is lost exactly if a call finds just a start byte between two
   frames, or the end of the connection.
-/

namespace Iec104Slave

open Records

/-- The receive buffer of a connection, and what its socket holds: the bytes that have arrived and
are not read, and whether more can come. -/
structure FrameReceiver where
  recvBuffer : List UInt8
  recvBufPos : Nat
  unread : List UInt8
  isClosed : Bool
deriving DecidableEq

namespace FrameReceiver

/-- The size of `recvBuffer`. -/
def recvBufferSize : Nat := 260

def init : FrameReceiver := ⟨List.replicate recvBufferSize 0, 0, [], false⟩

/-- `Socket_read` to offset `off` of the buffer: `none` for -1, or the number of bytes read. With
nothing to read `recv` gives `EAGAIN`, unless the connection has ended. It returns 0 in this case,
and also when no bytes are asked for, and `Socket_read` takes every 0 for the end. -/
def readFromSocket (r : FrameReceiver) (off size : Nat) : Option (FrameReceiver × Option Nat) :=
  if r.unread = [] then some (r, if r.isClosed then none else some 0)
  else if size = 0 then some (r, none)
  else do
    let bytes := r.unread.take size
    let buffer ← store r.recvBuffer off bytes
    some ({ r with recvBuffer := buffer, unread := r.unread.drop size }, some bytes.length)

/-- The end of `receiveMessage`: the rest of the frame. -/
def readRest (r : FrameReceiver) (bufPos : Nat) : Option (FrameReceiver × Option Nat) := do
  let length ← r.recvBuffer[1]?
  let remainingLength := length.toNat + 2 - bufPos
  let (r, readCnt) ← r.readFromSocket bufPos remainingLength
  match readCnt with
  | none => some ({ r with recvBufPos := 0 }, none)
  | some count =>
    if count = remainingLength then some ({ r with recvBufPos := 0 }, some (length.toNat + 2))
    else some ({ r with recvBufPos := bufPos + count }, some 0)

/-- The length byte, which has to be there. -/
def readLength (r : FrameReceiver) : Option (FrameReceiver × Option Nat) := do
  let (r, readCnt) ← r.readFromSocket 1 1
  if readCnt ≠ some 1 then some ({ r with recvBufPos := 0 }, none) else r.readRest 2

/-- `receiveMessage`: `none` for -1, 0 for no complete frame, or the size of the frame. -/
def receiveMessage (r : FrameReceiver) : Option (FrameReceiver × Option Nat) :=
  if r.recvBufPos = 0 then do
    let (r, readFirst) ← r.readFromSocket 0 1
    if readFirst ≠ some 1 then some (r, readFirst)
    else if r.recvBuffer[0]? ≠ some 0x68 then some (r, none)
    else r.readLength
  else if r.recvBufPos = 1 then r.readLength
  else r.readRest r.recvBufPos

/-! ## One call -/

/-- A start byte, a length, and as many bytes. -/
def IsFrame (f : List UInt8) : Prop :=
  ∃ length body, f = 0x68 :: length :: body ∧ body.length = length.toNat

/-- A frame with at least one byte behind its length. -/
def HasBody (f : List UInt8) : Prop := IsFrame f ∧ 2 < f.length

/-- The receiver holds the first bytes `p` of a frame, or nothing. -/
structure Holds (r : FrameReceiver) (p : List UInt8) : Prop where
  size : r.recvBuffer.length = recvBufferSize
  buffered : At r.recvBuffer 0 p
  pos : p.length = r.recvBufPos
  unfinished : p = [] ∨ ∃ length body, p = 0x68 :: length :: body ∧ body.length < length.toNat

/-- What a call that does not fail makes of the bytes `held` in the buffer and in the socket: it has
read them all and waits, or it has a frame. -/
inductive Received (held : List UInt8) (r : FrameReceiver) : Nat → Prop
  | waiting : Holds r held → r.unread = [] → Received held r 0
  | frame (f : List UInt8) : IsFrame f → Holds r [] → At r.recvBuffer 0 f →
      f ++ r.unread = held → Received held r f.length

/-- When a call fails. -/
def Fails (r : FrameReceiver) : Prop :=
  if r.recvBufPos = 0 then
    match r.unread with
    | [] => r.isClosed
    | [_] => True
    | start :: length :: rest =>
      start ≠ 0x68 ∨ length = 0 ∧ rest ≠ [] ∨ rest = [] ∧ r.isClosed
  else r.unread = [] ∧ r.isClosed

variable {r : FrameReceiver} {p body f g a b : List UInt8} {length : UInt8} {size : Nat}

theorem IsFrame.length_bounds (h : IsFrame f) : 2 ≤ f.length ∧ f.length ≤ 257 := by
  obtain ⟨length, body, rfl, hlength⟩ := h
  have hlt := length.toNat_lt
  simp only [List.length_cons]
  omega

/-- Frames are a prefix code: the length byte says where a frame ends. -/
theorem IsFrame.append_inj (hf : IsFrame f) (hg : IsFrame g) (h : f ++ a = g ++ b) :
    f = g ∧ a = b := by
  obtain ⟨length, body, rfl, hlength⟩ := hf
  obtain ⟨length', body', rfl, hlength'⟩ := hg
  simp only [List.cons_append, List.cons.injEq, true_and] at h
  obtain ⟨rfl, h⟩ := h
  obtain ⟨rfl, rfl⟩ := List.append_inj h (hlength.trans hlength'.symm)
  exact ⟨rfl, rfl⟩

/-- Frames that start a stream of frames are the first ones of it. -/
theorem frames_of_flatten {fs gs : List (List UInt8)} (hfs : ∀ f ∈ fs, IsFrame f)
    (hgs : ∀ g ∈ gs, IsFrame g) (h : gs.flatten ++ a = fs.flatten) :
    ∃ rest, fs = gs ++ rest ∧ a = rest.flatten := by
  induction gs generalizing fs with
  | nil => exact ⟨fs, rfl, h⟩
  | cons g gs ih =>
    have hg := hgs g List.mem_cons_self
    cases fs with
    | nil =>
      obtain ⟨_, _, rfl, -⟩ := hg
      simp at h
    | cons f fs =>
      rw [List.flatten_cons, List.flatten_cons, List.append_assoc] at h
      obtain ⟨rfl, hrest⟩ := hg.append_inj (hfs f List.mem_cons_self) h
      obtain ⟨rest, rfl, ha⟩ := ih (fun f hf => hfs f (List.mem_cons_of_mem _ hf))
        (fun g hg => hgs g (List.mem_cons_of_mem _ hg)) hrest
      exact ⟨rest, rfl, ha⟩

/-- A read behind what is buffered appends to it. -/
theorem readFromSocket_spec (hsize : 0 < size) (hunread : r.unread ≠ [])
    (hat : At r.recvBuffer 0 p) (hfit : p.length + size ≤ r.recvBuffer.length) :
    ∃ buffer, r.readFromSocket p.length size =
        some (⟨buffer, r.recvBufPos, r.unread.drop size, r.isClosed⟩,
          some (r.unread.take size).length) ∧
      buffer.length = r.recvBuffer.length ∧ At buffer 0 (p ++ r.unread.take size) := by
  have hle : p.length + (r.unread.take size).length ≤ r.recvBuffer.length := by
    have htake := List.length_take_le size r.unread
    omega
  obtain ⟨buffer, hstore⟩ := store_of_le hle
  refine ⟨buffer, ?_, length_store hstore, at_append.mpr ⟨?_, ?_⟩⟩
  · rw [readFromSocket, if_neg hunread, if_neg (Nat.ne_of_gt hsize)]
    simp only [hstore, Option.bind_eq_bind, Option.bind_some]
  · exact hat.of_store hstore (.inl (by omega))
  · rw [Nat.zero_add]
    exact at_store hstore

theorem readFromSocket_nil (hunread : r.unread = []) (off size : Nat) :
    r.readFromSocket off size = some (r, if r.isClosed then none else some 0) := by
  rw [readFromSocket, if_pos hunread]

theorem length_at_one (hat : At r.recvBuffer 0 (0x68 :: length :: body)) :
    r.recvBuffer[1]? = some length := by
  have h := hat.getElem? (i := 1) (by simp)
  simpa using h

/-- The rest of an unfinished frame. -/
theorem readRest_spec (hsize : r.recvBuffer.length = recvBufferSize)
    (hat : At r.recvBuffer 0 (0x68 :: length :: body)) (hbody : body.length < length.toNat)
    (hopen : ¬ (r.unread = [] ∧ r.isClosed)) :
    ∃ r' n, r.readRest (body.length + 2) = some (r', some n) ∧
      Received (0x68 :: length :: body ++ r.unread) r' n ∧ r'.isClosed = r.isClosed := by
  have hlt := length.toNat_lt
  have hneed : 0 < length.toNat + 2 - (body.length + 2) := by omega
  rw [readRest, length_at_one hat]
  simp only [Option.bind_eq_bind, Option.bind_some]
  by_cases hunread : r.unread = []
  · -- nothing has arrived, the frame stays as it is
    have hclosed : r.isClosed = false := by simpa [hunread] using hopen
    rw [readFromSocket_nil hunread]
    simp only [hclosed, Bool.false_eq_true, if_false, Option.bind_some, Nat.add_zero,
      if_neg (Nat.ne_of_lt hneed)]
    refine ⟨_, 0, rfl, .waiting ?_ hunread, rfl⟩
    rw [hunread, List.append_nil]
    exact ⟨hsize, hat, rfl, .inr ⟨length, body, rfl, hbody⟩⟩
  · have hfit : (0x68 :: length :: body).length + (length.toNat + 2 - (body.length + 2)) ≤
        r.recvBuffer.length := by
      rw [hsize, recvBufferSize]
      simp only [List.length_cons]
      omega
    obtain ⟨buffer, hread, hlength, hbuffer⟩ := readFromSocket_spec hneed hunread hat hfit
    simp only [List.length_cons] at hread
    rw [hread]
    simp only [Option.bind_some]
    split
    · -- the frame is complete
      next hcount =>
      set taken := r.unread.take (length.toNat + 2 - (body.length + 2)) with htaken
      have hframe : IsFrame (0x68 :: length :: body ++ taken) := by
        refine ⟨length, body ++ taken, rfl, ?_⟩
        rw [List.length_append, hcount]
        omega
      have hlen : (0x68 :: length :: body ++ taken).length = length.toNat + 2 := by
        simp only [List.length_append, List.length_cons, hcount]
        omega
      have hempty : Holds ⟨buffer, 0, r.unread.drop (length.toNat + 2 - (body.length + 2)),
          r.isClosed⟩ [] :=
        ⟨hlength.trans hsize, at_nil (Nat.zero_le _), rfl, .inl rfl⟩
      refine ⟨_, _, by rw [← hlen], .frame _ hframe hempty hbuffer ?_, rfl⟩
      rw [List.append_assoc, htaken, List.take_append_drop]
    · -- all that has arrived is less than what is missing
      next hcount =>
      have hless : r.unread.length < length.toNat + 2 - (body.length + 2) := by
        rw [List.length_take] at hcount
        omega
      rw [List.take_of_length_le (Nat.le_of_lt hless)] at hbuffer
      refine ⟨_, 0, rfl, .waiting ⟨hlength.trans hsize, hbuffer, ?_, ?_⟩ ?_, rfl⟩
      · simp only [List.length_append, List.length_cons, List.length_take]
        omega
      · refine .inr ⟨length, body ++ r.unread, rfl, ?_⟩
        rw [List.length_append]
        omega
      · exact List.drop_eq_nil_of_le (Nat.le_of_lt hless)

/-- The end of the connection within a frame. -/
theorem readRest_closed (hat : At r.recvBuffer 0 (0x68 :: length :: body))
    (hunread : r.unread = []) (hclosed : r.isClosed = true) :
    r.readRest (body.length + 2) = some ({ r with recvBufPos := 0 }, none) := by
  rw [readRest, length_at_one hat]
  simp only [Option.bind_eq_bind, Option.bind_some]
  rw [readFromSocket_nil hunread]
  simp only [hclosed, if_true, Option.bind_some]

/-- A frame without a body is complete if nothing else has arrived. -/
theorem readRest_zero (hat : At r.recvBuffer 0 [0x68, 0]) :
    r.readRest 2 = some ({ r with recvBufPos := 0 },
      if r.unread = [] ∧ r.isClosed = false then some 2 else none) := by
  rw [readRest, length_at_one hat]
  by_cases hunread : r.unread = []
  · cases hclosed : r.isClosed <;> simp [readFromSocket, hunread, hclosed]
  · simp [readFromSocket, hunread]

/-- A read of one byte. -/
theorem readFromSocket_byte {x : UInt8} {rest : List UInt8} (hunread : r.unread = x :: rest)
    (hat : At r.recvBuffer 0 p) (hfit : p.length < r.recvBuffer.length) :
    ∃ buffer, r.readFromSocket p.length 1 =
        some (⟨buffer, r.recvBufPos, rest, r.isClosed⟩, some 1) ∧
      buffer.length = r.recvBuffer.length ∧ At buffer 0 (p ++ [x]) := by
  have hne : r.unread ≠ [] := by
    rw [hunread]
    exact List.cons_ne_nil _ _
  simpa [hunread] using readFromSocket_spec Nat.one_pos hne hat hfit

/-- The start byte. -/
theorem receiveMessage_start {start : UInt8} {rest : List UInt8} (h : Holds r [])
    (hunread : r.unread = start :: rest) :
    ∃ buffer, r.receiveMessage =
        (if start ≠ 0x68 then some (⟨buffer, 0, rest, r.isClosed⟩, none)
          else readLength ⟨buffer, 0, rest, r.isClosed⟩) ∧
      buffer.length = recvBufferSize ∧ At buffer 0 [start] := by
  have hpos : r.recvBufPos = 0 := h.pos.symm
  have hfit : ([] : List UInt8).length < r.recvBuffer.length := by
    rw [h.size]
    decide
  obtain ⟨buffer, hread, hlength, hat⟩ := readFromSocket_byte hunread h.buffered hfit
  have hfirst : buffer[0]? = some start := by
    simpa using hat.getElem? (i := 0) (by simp)
  refine ⟨buffer, ?_, hlength.trans h.size, hat⟩
  rw [List.length_nil] at hread
  rw [receiveMessage, if_pos hpos]
  simp [hread, hfirst, hpos]

/-- The length byte is there. -/
theorem readLength_cons {rest : List UInt8} (hsize : r.recvBuffer.length = recvBufferSize)
    (hat : At r.recvBuffer 0 [0x68]) (hunread : r.unread = length :: rest) :
    ∃ buffer, r.readLength = readRest ⟨buffer, r.recvBufPos, rest, r.isClosed⟩ 2 ∧
      buffer.length = recvBufferSize ∧ At buffer 0 [0x68, length] := by
  have hfit : [(0x68 : UInt8)].length < r.recvBuffer.length := by
    rw [hsize]
    decide
  obtain ⟨buffer, hread, hlength, hbuffer⟩ := readFromSocket_byte hunread hat hfit
  refine ⟨buffer, ?_, hlength.trans hsize, hbuffer⟩
  rw [readLength]
  rw [List.length_singleton] at hread
  simp [hread]

theorem readLength_nil (hunread : r.unread = []) :
    r.readLength = some ({ r with recvBufPos := 0 }, none) := by
  rw [readLength, readFromSocket_nil hunread]
  cases hclosed : r.isClosed <;> simp [hclosed]

/-- An unfinished frame is continued. -/
theorem receiveMessage_rest (h : Holds r (0x68 :: length :: body)) :
    r.receiveMessage = r.readRest (body.length + 2) := by
  have hpos : r.recvBufPos = body.length + 2 := h.pos.symm
  rw [receiveMessage, hpos, if_neg (by omega), if_neg (by omega)]

/-- A call that does not fail. -/
theorem receiveMessage_spec (h : Holds r p) (hok : ¬ r.Fails) :
    ∃ r' n, r.receiveMessage = some (r', some n) ∧ Received (p ++ r.unread) r' n ∧
      r'.isClosed = r.isClosed := by
  rcases h.unfinished with rfl | ⟨length, body, rfl, hbody⟩
  · have hpos : r.recvBufPos = 0 := h.pos.symm
    rw [Fails, if_pos hpos] at hok
    split at hok
    · -- nothing has arrived
      next hunread =>
      have hclosed : r.isClosed = false := Bool.eq_false_iff.mpr hok
      refine ⟨r, 0, ?_, .waiting ?_ hunread, rfl⟩
      · rw [receiveMessage, if_pos hpos, readFromSocket_nil hunread]
        simp [hclosed]
      · rw [hunread]
        exact h
    · exact absurd trivial hok
    · next start length rest hunread =>
      simp only [not_or, not_not] at hok
      obtain ⟨rfl, hempty, hopen⟩ := hok
      obtain ⟨first, hstart, hfirst, hatFirst⟩ := receiveMessage_start h hunread
      obtain ⟨second, hsecond, hsize, hat⟩ :=
        readLength_cons (r := ⟨first, 0, length :: rest, r.isClosed⟩) hfirst hatFirst rfl
      rw [hstart, if_neg (not_not.mpr rfl), hsecond, hunread]
      by_cases hlength : length = 0
      · subst hlength
        obtain rfl : rest = [] := not_not.mp fun hne => hempty ⟨rfl, hne⟩
        have hclosed : r.isClosed = false := by simpa using hopen
        rw [readRest_zero hat, if_pos ⟨rfl, hclosed⟩]
        refine ⟨_, _, rfl, .frame [0x68, 0] ⟨0, [], rfl, rfl⟩ ?_ hat rfl, rfl⟩
        exact ⟨hsize, at_nil (Nat.zero_le _), rfl, .inl rfl⟩
      · have hbody : ([] : List UInt8).length < length.toNat :=
          Nat.pos_of_ne_zero fun hzero => hlength (UInt8.toNat_inj.mp hzero)
        exact readRest_spec hsize hat hbody hopen
  · have hpos : r.recvBufPos ≠ 0 := by
      rw [← h.pos]
      exact Nat.succ_ne_zero _
    rw [Fails, if_neg hpos] at hok
    rw [receiveMessage_rest h]
    exact readRest_spec h.size h.buffered hbody hok

theorem receiveMessage_fails (h : Holds r p) (hfails : r.Fails) :
    ∃ r', r.receiveMessage = some (r', none) := by
  rcases h.unfinished with rfl | ⟨length, body, rfl, hbody⟩
  · have hpos : r.recvBufPos = 0 := h.pos.symm
    rw [Fails, if_pos hpos] at hfails
    split at hfails
    · next hunread =>
      refine ⟨r, ?_⟩
      rw [receiveMessage, if_pos hpos, readFromSocket_nil hunread]
      simp [hfails]
    · -- just one byte: it is wrong, or the length byte is missing
      next start hunread =>
      obtain ⟨first, hstart, -, -⟩ := receiveMessage_start h hunread
      rw [hstart, readLength_nil rfl]
      split <;> exact ⟨_, rfl⟩
    · next start length rest hunread =>
      obtain ⟨first, hstart, hfirst, hatFirst⟩ := receiveMessage_start h hunread
      rw [hstart]
      split
      · exact ⟨_, rfl⟩
      · next hgood =>
        obtain rfl := not_not.mp hgood
        obtain ⟨second, hsecond, hsize, hat⟩ :=
          readLength_cons (r := ⟨first, 0, length :: rest, r.isClosed⟩) hfirst hatFirst rfl
        rw [hsecond]
        rcases hfails.resolve_left hgood with ⟨rfl, hmore⟩ | ⟨hrest, hclosed⟩
        · rw [readRest_zero hat, if_neg fun h => hmore h.1]
          exact ⟨_, rfl⟩
        · exact ⟨_, readRest_closed (r := ⟨second, 0, rest, r.isClosed⟩) hat hrest hclosed⟩
  · have hpos : r.recvBufPos ≠ 0 := by
      rw [← h.pos]
      exact Nat.succ_ne_zero _
    rw [Fails, if_neg hpos] at hfails
    rw [receiveMessage_rest h]
    exact ⟨_, readRest_closed h.buffered hfails.1 hfails.2⟩

end FrameReceiver

/-! ## A stream of bytes -/

/-- A connection and the bytes that its peer has written. `handled` are the calls of
`handleMessage`, each with the receive buffer and the size of the frame. -/
structure FrameLink where
  receiver : FrameReceiver
  underWay : List UInt8
  handled : List (List UInt8 × Nat)
  failed : Bool
  outside : Bool
deriving DecidableEq

/-- `reset` is the end of the connection with the loss of what is not read. -/
inductive LinkOp
  | arrive (n : Nat)
  | hangUp
  | reset
  | receive
deriving DecidableEq

namespace FrameLink

open FrameReceiver

def start (stream : List UInt8) : FrameLink := ⟨.init, stream, [], false, false⟩

/-- The thread of the connection ends with the first failure. -/
def receive (l : FrameLink) : FrameLink :=
  if l.failed ∨ l.outside then l
  else
    match l.receiver.receiveMessage with
    | none => { l with outside := true }
    | some (r, none) => { l with receiver := r, failed := true }
    | some (r, some 0) => { l with receiver := r }
    | some (r, some n) => { l with receiver := r, handled := l.handled ++ [(r.recvBuffer, n)] }

def step (l : FrameLink) : LinkOp → FrameLink
  | .arrive n =>
    if l.receiver.isClosed then l
    else { l with
      receiver := { l.receiver with unread := l.receiver.unread ++ l.underWay.take n }
      underWay := l.underWay.drop n }
  | .hangUp => { l with receiver := { l.receiver with isClosed := true } }
  | .reset => { l with
      receiver := { l.receiver with unread := [], isClosed := true }
      underWay := l.receiver.unread ++ l.underWay }
  | .receive => l.receive

/-- The frames that were handled. -/
def frames (l : FrameLink) : List (List UInt8) := l.handled.map fun m => m.1.take m.2

/-- What `handleMessage` took them for. -/
def messages (l : FrameLink) : List Message := l.handled.map fun m => readMessage m.1 m.2

/-- Where a link stands in a stream. `frames` and the bytes behind them are the stream. -/
structure Reads (stream : List UInt8) (l : FrameLink) : Prop where
  inside : l.outside = false
  framed : ∀ m ∈ l.handled, IsFrame (m.1.take m.2) ∧ (m.1.take m.2).length = m.2
  consumed : l.frames.flatten <+: stream
  held : l.failed = false → ∃ p, Holds l.receiver p ∧
    l.frames.flatten ++ (p ++ l.receiver.unread ++ l.underWay) = stream

variable {l : FrameLink} {stream : List UInt8} {op : LinkOp}

theorem reads_start (stream : List UInt8) : Reads stream (start stream) where
  inside := rfl
  framed := by simp [start]
  consumed := List.nil_prefix
  held _ := ⟨[], ⟨List.length_replicate, at_nil (Nat.zero_le _), rfl, .inl rfl⟩, rfl⟩

/-- What a call does to a link that has not failed. -/
theorem receive_cases (h : Reads stream l) (hlive : l.failed = false) :
    (l.receiver.Fails ∧ ∃ r, l.receive = { l with receiver := r, failed := true }) ∨
    (¬ l.receiver.Fails ∧ ∃ p r n, Holds l.receiver p ∧
      l.frames.flatten ++ (p ++ l.receiver.unread ++ l.underWay) = stream ∧
      Received (p ++ l.receiver.unread) r n ∧ r.isClosed = l.receiver.isClosed ∧
      l.receive = if n = 0 then { l with receiver := r }
        else { l with receiver := r, handled := l.handled ++ [(r.recvBuffer, n)] }) := by
  have hgo : ¬ (l.failed = true ∨ l.outside = true) := by simp [hlive, h.inside]
  obtain ⟨p, hholds, hstream⟩ := h.held hlive
  rw [receive, if_neg hgo]
  by_cases hfails : l.receiver.Fails
  · obtain ⟨r, hr⟩ := receiveMessage_fails hholds hfails
    exact .inl ⟨hfails, r, by rw [hr]⟩
  · obtain ⟨r, n, hr, hreceived, hclosed⟩ := receiveMessage_spec hholds hfails
    refine .inr ⟨hfails, p, r, n, hholds, hstream, hreceived, hclosed, ?_⟩
    rw [hr]
    cases n <;> rfl

theorem Reads.receive (h : Reads stream l) : Reads stream l.receive := by
  by_cases hlive : l.failed = false
  swap
  · rwa [FrameLink.receive, if_pos (.inl (Bool.eq_true_of_not_eq_false hlive))]
  obtain ⟨-, r, hr⟩ | ⟨-, p, r, n, -, hstream, hreceived, -, hr⟩ := receive_cases h hlive
  · rw [hr]
    exact ⟨h.inside, h.framed, h.consumed, fun hfailed => by cases hfailed⟩
  · rw [hr]
    cases hreceived with
    | waiting hholds hunread =>
      refine ⟨h.inside, h.framed, h.consumed, fun _ => ⟨_, hholds, ?_⟩⟩
      simp only [if_true, hunread, List.append_nil]
      exact hstream
    | frame f hframe hholds hat hheld =>
      have htake : r.recvBuffer.take f.length = f := by simpa using hat.2
      have hne : f.length ≠ 0 := by
        have := hframe.length_bounds
        omega
      have hframes : ({ l with receiver := r, handled := l.handled ++ [(r.recvBuffer, f.length)] } :
          FrameLink).frames = l.frames ++ [f] := by
        simp [frames, htake]
      have hnow : (l.frames ++ [f]).flatten ++ (r.unread ++ l.underWay) = stream := by
        rw [← hstream, ← hheld]
        simp
      rw [if_neg hne]
      refine ⟨h.inside, ?_, ?_, fun _ => ⟨[], hholds, ?_⟩⟩
      · intro m hm
        rcases List.mem_append.mp hm with hm | hm
        · exact h.framed m hm
        · obtain rfl := List.mem_singleton.mp hm
          rw [htake]
          exact ⟨hframe, rfl⟩
      · rw [hframes]
        exact ⟨_, hnow⟩
      · rw [hframes]
        exact hnow

theorem Reads.step (h : Reads stream l) (op : LinkOp) : Reads stream (l.step op) := by
  cases op with
  | arrive n =>
    rw [FrameLink.step]
    split
    · exact h
    · refine ⟨h.inside, h.framed, h.consumed, fun hlive => ?_⟩
      obtain ⟨p, hholds, hstream⟩ := h.held hlive
      refine ⟨p, ⟨hholds.size, hholds.buffered, hholds.pos, hholds.unfinished⟩, ?_⟩
      rw [← hstream]
      simp only [List.append_assoc, List.take_append_drop]
      rfl
  | hangUp =>
    refine ⟨h.inside, h.framed, h.consumed, fun hlive => ?_⟩
    obtain ⟨p, hholds, hstream⟩ := h.held hlive
    exact ⟨p, ⟨hholds.size, hholds.buffered, hholds.pos, hholds.unfinished⟩, hstream⟩
  | reset =>
    refine ⟨h.inside, h.framed, h.consumed, fun hlive => ?_⟩
    obtain ⟨p, hholds, hstream⟩ := h.held hlive
    refine ⟨p, ⟨hholds.size, hholds.buffered, hholds.pos, hholds.unfinished⟩, ?_⟩
    rw [← hstream]
    simp only [FrameLink.step, List.append_assoc, List.nil_append]
    rfl
  | receive => exact h.receive

theorem reads_exec (stream : List UInt8) (ops : List LinkOp) :
    Reads stream (Run.exec FrameLink.step (start stream) ops) :=
  Run.exec_induction (I := fun _ => Reads stream) (reads_start stream)
    (fun _ _ op h => h.step op) ops

theorem Reads.isFrame (h : Reads stream l) : ∀ f ∈ l.frames, IsFrame f := by
  intro f hf
  obtain ⟨m, hm, rfl⟩ := List.mem_map.mp hf
  exact (h.framed m hm).1

/-- Whatever the peer writes and however it arrives, the receiver stays within its buffer, and the
frames that are handled are complete and stand one behind another at the start of the stream. -/
theorem handled_frames_start_stream (stream : List UInt8) (ops : List LinkOp) :
    (Run.exec step (start stream) ops).outside = false ∧
    (∀ f ∈ (Run.exec step (start stream) ops).frames, IsFrame f) ∧
    (Run.exec step (start stream) ops).frames.flatten <+: stream :=
  have h := reads_exec stream ops
  ⟨h.inside, h.isFrame, h.consumed⟩

/-- The start byte and the length 0 are a frame when they come alone, and an error when something
follows them. -/
example : (Run.exec step (start [0x68, 0]) [.arrive 2, .receive]).frames = [[0x68, 0]] ∧
    (Run.exec step (start [0x68, 0, 0x68]) [.arrive 3, .receive]).failed = true := by
  decide +kernel

/-! ## A stream of frames -/

section

variable {fs : List (List UInt8)}

/-- The receiver stands between two frames and has just a start byte; or the connection has ended,
and nothing is left but, between two frames, the two first bytes of one. -/
def Starved (r : FrameReceiver) : Prop :=
  r.recvBufPos = 0 ∧ r.unread.length = 1 ∨
    r.isClosed = true ∧ (r.unread.length = 0 ∨ r.recvBufPos = 0 ∧ r.unread.length = 2)

instance (r : FrameReceiver) : Decidable (Starved r) := inferInstanceAs (Decidable (_ ∨ _))

/-- In a stream of frames a call fails only for want of bytes. -/
theorem fails_iff_starved {r : FrameReceiver} {p after : List UInt8} {todo : List (List UInt8)}
    (hholds : Holds r p) (htodo : ∀ f ∈ todo, HasBody f)
    (h : p ++ r.unread ++ after = todo.flatten) : r.Fails ↔ Starved r := by
  rw [Fails, Starved]
  split
  · next hpos =>
    have hnil : p = [] := List.length_eq_zero_iff.mp (hholds.pos.trans hpos)
    subst hnil
    match hunread : r.unread with
    | [] => simp
    | [_] => simp [hpos]
    | first :: second :: rest =>
      -- the bytes are those of the next frame
      rw [hunread] at h
      obtain _ | ⟨f, todo⟩ := todo
      · simp at h
      obtain ⟨⟨length, body, rfl, hlength⟩, hbody⟩ := htodo f List.mem_cons_self
      simp only [List.nil_append, List.cons_append, List.flatten_cons, List.cons.injEq] at h
      obtain ⟨rfl, rfl, -⟩ := h
      have hzero : second ≠ 0 := by
        rintro rfl
        simp only [List.length_cons, hlength] at hbody
        exact absurd hbody (by decide)
      simp [hpos, hzero, and_comm]
  · next hpos => simp [hpos, and_comm]

/-- What a link that has not failed has still to read of a stream of frames. -/
theorem Reads.todo (h : Reads fs.flatten l) (hfs : ∀ f ∈ fs, IsFrame f) (hlive : l.failed = false) :
    ∃ p todo, Holds l.receiver p ∧ fs = l.frames ++ todo ∧
      p ++ l.receiver.unread ++ l.underWay = todo.flatten := by
  obtain ⟨p, hholds, hstream⟩ := h.held hlive
  obtain ⟨todo, hsplit, hrest⟩ := frames_of_flatten hfs h.isFrame hstream
  exact ⟨p, todo, hholds, hsplit, hrest⟩

/-- One step keeps a link alive exactly if it is not a call of a starved receiver. -/
theorem failed_step_iff (h : Reads fs.flatten l) (hfs : ∀ f ∈ fs, HasBody f)
    (hlive : l.failed = false) (op : LinkOp) :
    (l.step op).failed = false ↔ (op = .receive → ¬ Starved l.receiver) := by
  cases op with
  | receive =>
    obtain ⟨p, todo, hholds, hsplit, hrest⟩ := h.todo (fun f hf => (hfs f hf).1) hlive
    have htodo : ∀ f ∈ todo, HasBody f := fun f hf =>
      hfs f (hsplit ▸ List.mem_append_right _ hf)
    have hiff := fails_iff_starved hholds htodo hrest
    obtain ⟨hfails, r, hr⟩ | ⟨hok, _, r, n, -, -, -, -, hr⟩ := receive_cases h hlive
    · simp [FrameLink.step, hr, hiff.mp hfails]
    · have hstill : (l.step .receive).failed = false := by
        rw [FrameLink.step, hr]
        split <;> exact hlive
      simp [hstill, mt hiff.mpr hok]
  | arrive n =>
    rw [FrameLink.step]
    split <;> simp [hlive]
  | hangUp | reset => simp [FrameLink.step, hlive]

theorem failed_step (hfailed : l.failed = true) (op : LinkOp) : (l.step op).failed = true := by
  cases op with
  | arrive n =>
    rw [FrameLink.step]
    split <;> exact hfailed
  | hangUp | reset => exact hfailed
  | receive => rwa [FrameLink.step, FrameLink.receive, if_pos (.inl hfailed)]

/-- A run does not fail exactly if no call of it finds a starved receiver. -/
theorem failed_exec_iff (hfs : ∀ f ∈ fs, HasBody f) (ops : List LinkOp) :
    (Run.exec step (start fs.flatten) ops).failed = false ↔
      Run.Guarded (fun l op => op = .receive → ¬ Starved l.receiver) step (start fs.flatten)
        ops := by
  induction ops using List.reverseRecOn with
  | nil => exact ⟨fun _ => .nil, fun _ => rfl⟩
  | append_singleton ops op ih =>
    rw [Run.guarded_snoc, ← ih, Run.exec_append]
    cases hlive : (Run.exec step (start fs.flatten) ops).failed with
    | false =>
      rw [Run.exec_cons, Run.exec_nil, failed_step_iff (reads_exec _ ops) hfs hlive]
      simp
    | true =>
      rw [Run.exec_cons, Run.exec_nil, failed_step hlive]
      simp

/-! ## Delivery -/

/-- All has arrived, and nothing has gone wrong. -/
structure Arrived (fs : List (List UInt8)) (l : FrameLink) : Prop where
  reads : Reads fs.flatten l
  live : l.failed = false
  isOpen : l.receiver.isClosed = false
  all : l.underWay = []

/-- Then a call gives the next frame, if there is one. -/
theorem Arrived.receive (h : Arrived fs l) (hfs : ∀ f ∈ fs, HasBody f) :
    Arrived fs l.receive ∧
      min (l.frames.length + 1) fs.length ≤ l.receive.frames.length := by
  have hframes : ∀ f ∈ fs, IsFrame f := fun f hf => (hfs f hf).1
  have hstep := failed_step_iff h.reads hfs h.live .receive
  have hfed : ¬ Starved l.receiver := by
    rintro (⟨hpos, hone⟩ | ⟨hclosed, -⟩)
    · -- a frame is more than a start byte
      obtain ⟨p, todo, hholds, hsplit, hrest⟩ := h.reads.todo hframes h.live
      have hlength := congrArg List.length hrest
      simp only [List.length_append, hholds.pos, hpos, hone, h.all, List.length_nil] at hlength
      obtain _ | ⟨f, todo⟩ := todo
      · simp at hlength
      · have hbounds := (hframes f (by simp [hsplit])).length_bounds
        rw [List.flatten_cons, List.length_append] at hlength
        omega
    · rw [h.isOpen] at hclosed
      cases hclosed
  have hlive : l.receive.failed = false := hstep.mpr fun _ => hfed
  obtain ⟨-, r, hr⟩ | ⟨-, p, r, n, hholds, hstream, hreceived, hclosed, hr⟩ :=
    receive_cases h.reads h.live
  · rw [hr] at hlive
    cases hlive
  have harrived : Arrived fs l.receive := by
    refine ⟨h.reads.receive, hlive, ?_, ?_⟩ <;> rw [hr] <;> split
    · exact hclosed.trans h.isOpen
    · exact hclosed.trans h.isOpen
    · exact h.all
    · exact h.all
  refine ⟨harrived, ?_⟩
  cases hreceived with
  | frame f hframe _ _ _ =>
    have hne : f.length ≠ 0 := by
      have := hframe.length_bounds
      omega
    rw [hr, if_neg hne]
    simp [frames]
  | waiting hnow _ =>
    have hsame : l.receive.frames = l.frames := by
      rw [hr, if_pos rfl]
      rfl
    obtain ⟨todo, hsplit, hrest⟩ := frames_of_flatten hframes h.reads.isFrame hstream
    rw [h.all, List.append_nil] at hrest
    obtain _ | ⟨f, todo⟩ := todo
    · rw [List.append_nil] at hsplit
      rw [hsame, hsplit]
      exact Nat.min_le_right _ _
    · -- the next frame is there as a whole
      exfalso
      obtain ⟨length, body, rfl, hlength⟩ := hframes f (by simp [hsplit])
      rw [hrest, List.flatten_cons] at hnow
      rcases hnow.unfinished with hnil | ⟨length', body', heq, hshort⟩
      · cases hnil
      · simp only [List.cons_append, List.cons.injEq, true_and] at heq
        obtain ⟨rfl, rfl⟩ := heq
        rw [List.length_append] at hshort
        omega

/-- As many calls as there are frames give them all. -/
theorem Arrived.receiveAll (h : Arrived fs l) (hfs : ∀ f ∈ fs, HasBody f) (n : Nat) :
    Arrived fs (Run.exec step l (List.replicate n .receive)) ∧
      min (l.frames.length + n) fs.length ≤
        (Run.exec step l (List.replicate n .receive)).frames.length := by
  induction n with
  | zero => exact ⟨h, Nat.min_le_left _ _⟩
  | succ n ih =>
    rw [List.replicate_succ', Run.exec_append, Run.exec_cons, Run.exec_nil]
    obtain ⟨harrived, hmore⟩ := ih
    obtain ⟨hnext, hgrows⟩ := harrived.receive hfs
    refine ⟨hnext, ?_⟩
    rw [FrameLink.step]
    omega

end

/-! ## Messages -/

theorem hasBody_bytes {m : MasterFrame} (h : m.Valid) : HasBody m.bytes := by
  have hlong {a b : UInt8} (x : UInt8) (rest : List UInt8) : 2 < (a :: b :: x :: rest).length :=
    Nat.le_add_left 3 rest.length
  cases m with
  | iFrame ns nr asdu =>
    obtain ⟨-, -, -, hasdu⟩ := h
    have hlength : (UInt8.ofNat (asdu.length + 6 - 2)).toNat = asdu.length + 6 - 2 := by
      refine UInt8.toNat_ofNat_of_lt' ?_
      rw [UInt8.size]
      omega
    refine ⟨⟨_, _, rfl, ?_⟩, hlong _ _⟩
    rw [hlength]
    simp [numberBytes]
  | sFrame nr => exact ⟨⟨_, _, rfl, rfl⟩, hlong _ _⟩
  | startdtAct | stopdtAct | testfrAct | testfrCon => exact ⟨⟨_, _, rfl, rfl⟩, hlong _ _⟩

/-- Where the handled frames are those of a master, so are the messages. -/
theorem messages_of_frames {ms : List MasterFrame} (hms : ∀ m ∈ ms, m.Valid)
    {handled : List (List UInt8 × Nat)}
    (hframed : ∀ m ∈ handled, (m.1.take m.2).length = m.2)
    (h : handled.map (fun m => m.1.take m.2) <+: ms.map MasterFrame.bytes) :
    handled.map (fun m => readMessage m.1 m.2) <+: ms.map MasterFrame.message := by
  induction handled generalizing ms with
  | nil => exact List.nil_prefix
  | cons call handled ih =>
    obtain _ | ⟨m, ms⟩ := ms
    · simp at h
    obtain ⟨buffer, size⟩ := call
    rw [List.map_cons, List.map_cons, List.cons_prefix_cons] at h
    obtain ⟨hbytes, hrest⟩ := h
    have hsize := hframed (buffer, size) List.mem_cons_self
    simp only at hbytes hsize
    rw [hbytes] at hsize
    have hmessage : readMessage buffer size = m.message := by
      rw [← List.take_append_drop size buffer, hbytes, ← hsize]
      exact MasterFrame.readMessage_bytes (hms m List.mem_cons_self) _
    rw [List.map_cons, List.map_cons, List.cons_prefix_cons]
    exact ⟨hmessage, ih (fun m hm => hms m (List.mem_cons_of_mem _ hm))
      (fun m hm => hframed m (List.mem_cons_of_mem _ hm)) hrest⟩

section

variable {ms : List MasterFrame}

/-- The bytes that a master writes. -/
def written (ms : List MasterFrame) : List UInt8 := (ms.map MasterFrame.bytes).flatten

theorem length_messages (l : FrameLink) : l.messages.length = l.frames.length := by
  rw [messages, frames, List.length_map, List.length_map]

theorem hasBody_of_valid (hms : ∀ m ∈ ms, m.Valid) :
    ∀ f ∈ ms.map MasterFrame.bytes, HasBody f := by
  intro f hf
  obtain ⟨m, hm, rfl⟩ := List.mem_map.mp hf
  exact hasBody_bytes (hms m hm)

theorem Reads.messages_prefix (h : Reads (written ms) l) (hms : ∀ m ∈ ms, m.Valid) :
    l.messages <+: ms.map MasterFrame.message := by
  obtain ⟨rest, hrest⟩ := h.consumed
  have hframes : ∀ f ∈ ms.map MasterFrame.bytes, IsFrame f := fun f hf =>
    (hasBody_of_valid hms f hf).1
  obtain ⟨more, hmore, -⟩ := frames_of_flatten hframes h.isFrame hrest
  exact messages_of_frames hms (fun m hm => (h.framed m hm).2) ⟨more, hmore.symm⟩

/-- However the frames of a master are cut into pieces on their way, the slave handles them in
order, each as what it is. The receiver fails exactly if it is called when it is starved, and as
long as the connection lasts, nothing is lost: when all has arrived, as many calls as there are
frames handle them all. -/
theorem master_frames_handled (hms : ∀ m ∈ ms, m.Valid) (ops : List LinkOp) :
    (Run.exec step (start (written ms)) ops).messages <+: ms.map MasterFrame.message ∧
    ((Run.exec step (start (written ms)) ops).failed = false ↔
      Run.Guarded (fun l op => op = .receive → ¬ Starved l.receiver) step (start (written ms))
        ops) ∧
    ((Run.exec step (start (written ms)) ops).failed = false →
      (Run.exec step (start (written ms)) ops).receiver.isClosed = false →
      (Run.exec step (start (written ms)) (ops ++ .arrive (written ms).length ::
        List.replicate ms.length .receive)).messages = ms.map MasterFrame.message) := by
  have hreads := reads_exec (written ms) ops
  refine ⟨hreads.messages_prefix hms, failed_exec_iff (hasBody_of_valid hms) ops, ?_⟩
  intro hlive hopen
  rw [Run.exec_append, Run.exec_cons]
  set l := Run.exec step (start (written ms)) ops
  -- what is under way is not longer than the stream
  have hdrop : l.underWay.drop (written ms).length = [] := by
    obtain ⟨p, -, hstream⟩ := hreads.held hlive
    apply List.drop_eq_nil_of_le
    rw [← hstream]
    simp only [List.length_append]
    omega
  have harrived : Arrived (ms.map MasterFrame.bytes) (l.step (.arrive (written ms).length)) := by
    refine ⟨hreads.step _, ?_, ?_, ?_⟩ <;> simp [FrameLink.step, hopen, hlive, hdrop]
  obtain ⟨hall, hmany⟩ := harrived.receiveAll (hasBody_of_valid hms) ms.length
  refine (hall.reads.messages_prefix hms).eq_of_length_le ?_
  rw [List.length_map] at hmany ⊢
  rw [length_messages]
  omega

end

/-- A pause behind the length byte of the second frame does no harm; behind its start byte, the
connection is lost. -/
theorem master_frames_handled_pause :
    (Run.exec step (start (written [.startdtAct, .sFrame 300]))
      ([.arrive 8, .receive, .receive] ++ .arrive 12 :: List.replicate 2 .receive)).messages =
        [.startdtAct, .sFrame 300] ∧
    (Run.exec step (start (written [.startdtAct, .sFrame 300]))
      [.arrive 7, .receive, .receive]).failed = true := by
  have hms : ∀ m ∈ [MasterFrame.startdtAct, .sFrame 300], m.Valid := by decide
  refine ⟨?_, ?_⟩
  · exact (master_frames_handled hms [.arrive 8, .receive, .receive]).2.2
      (by decide +kernel) (by decide +kernel)
  · have hiff := (master_frames_handled hms [.arrive 7, .receive, .receive]).2.1
    exact Bool.eq_true_of_not_eq_false (mt hiff.mp (by decide +kernel))

end FrameLink

end Iec104Slave
