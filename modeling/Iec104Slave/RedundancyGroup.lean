import Iec104Slave.MasterConnection

/-!
# The connections of a slave (`CS104_Slave` in `cs104_slave.c`)

The slave runs in the mode `CS104_MODE_SINGLE_REDUNDANCY_GROUP`: all connections share one queue of
waiting ASDUs, and a connection that a master starts takes the active role from the others. The
steps of all connection threads, of the server thread that opens and frees connections, and of the
threads that put ASDUs into the queue are interleaved in any order. `openConnectionsLock` keeps the
server thread out while a thread deactivates the other connections one by one.

`carried` lists, since the queue was last emptied, which connection took which ASDU. It is not in
the source.

Results:
1. `connection_follows_protocol`: whatever the order of the steps, every connection follows the
   protocol of a station with window `k`.
2. `acknowledgements_keep_up`: fewer than `w` received frames are unacknowledged whenever a thread
   is not in the middle of a message.
3. `one_connection_started`: at most one connection is started unless two masters start at the same
   time. If they do, both can be started (`two_connections_started`).
4. `accepted_asdus_are_carried`: every accepted ASDU is carried by one connection or is still
   waiting, in the order in which they were accepted.
-/

namespace Iec104Slave

open SlidingWindow MasterConnection

structure Cs104Slave where
  connections : List MasterConnection
  queue : AsduQueueRun
  carried : List (Nat × List UInt8)

/-- `CS104_Slave_create` for `n` connections. -/
def Cs104Slave.create (n : Nat) (highPrioMaxQueueSize : QueueSize) : Cs104Slave where
  connections := List.replicate n MasterConnection.create
  queue := AsduQueueRun.start highPrioMaxQueueSize
  carried := []

inductive SlaveOp
  /-- `serverThread` opens a connection: it gets the first free slot. -/
  | accept (now : Nat)
  /-- `serverThread` frees a connection whose thread has ended. -/
  | free (i : Nat)
  /-- `MasterConnection_close` when the slave is stopped. -/
  | close (i : Nat)
  /-- `IMasterConnection_sendASDU`, in any thread. -/
  | enqueue (asdu : List UInt8)
  /-- The thread of a connection takes a step. -/
  | thread (i : Nat) (env : Environment)

/-- `serverThread` gives a slot back after it has joined the thread of the connection. -/
def MasterConnection.release (c : MasterConnection) : MasterConnection :=
  if c.isUsed = true ∧ c.isRunning = false ∧ c.pc = .ended then
    { c with isUsed := false, state := .stopped }
  else c

/-- Where the thread of a connection has `openConnectionsLock`. -/
def ConnectionPc.sweeping : ConnectionPc → Bool
  | .deactivateOthers _ _ => true
  | _ => false

/-- Some thread is in the loop of `CS104_Slave_activate` and has `openConnectionsLock`. -/
def Cs104Slave.locked (s : Cs104Slave) : Bool := s.connections.any (·.pc.sweeping)

/-- One round of the loop of `CS104_Slave_activate`, in the thread of connection `i`. -/
def deactivateNext (i since next : Nat) (connections : List MasterConnection) :
    List MasterConnection :=
  connections.mapIdx fun j c =>
    if j = i then
      { c with
        pc := if next < connections.length then .deactivateOthers since (next + 1)
          else .activate since }
    else if j = next ∧ c.isUsed = true then c.deactivate else c

/-- A call of the queue that the thread of connection `i` makes. -/
def Cs104Slave.callQueue (s : Cs104Slave) (i : Nat) (op : AsduQueueOp) : Cs104Slave :=
  { s with
    queue := asduQueueStep s.queue op
    carried :=
      match op with
      | .enqueue _ => s.carried
      | .getNext =>
        s.carried ++ ((s.queue.queue.bind (·.getNextAsdu)).bind (·.2)).toList.map (i, ·)
      | .reset => [] }

/-- The thread of connection `i` has taken a step to `c'`, with a call of the queue. -/
def Cs104Slave.afterThread (s : Cs104Slave) (i : Nat) (c' : MasterConnection) :
    Option AsduQueueOp → Cs104Slave
  | none => { s with connections := s.connections.set i c' }
  | some op => { s with connections := s.connections.set i c' }.callQueue i op

def slaveStep (p : ApciParameters) (s : Cs104Slave) : SlaveOp → Cs104Slave
  | .accept now =>
    if s.locked then s
    else
      match s.connections.findIdx? (!·.isUsed) with
      | none => s
      | some i =>
        { s with connections := s.connections.modify i (openFor p now) }.callQueue i .reset
  | .free i => if s.locked then s else { s with connections := s.connections.modify i release }
  | .close i => if s.locked then s else { s with connections := s.connections.modify i close }
  | .enqueue asdu => s.callQueue 0 (.enqueue asdu)
  | .thread i env =>
    match s.connections[i]? with
    | none => s
    | some c =>
      match c.pc with
      | .lockOthers since =>
        if s.locked then s
        else
          { s with connections := s.connections.set i { c with pc := .deactivateOthers since 0 } }
      | .deactivateOthers since next =>
        { s with connections := deactivateNext i since next s.connections }
      | _ =>
        let (c', op) := c.threadStep p s.queue.queue env
        s.afterThread i c' op

/-! ## What a step does to a connection -/

/-- The steps of `CS104_Slave_activate` up to the end of its loop. -/
inductive SweepStep (s : Cs104Slave) : ConnectionPc → ConnectionPc → Prop
  | lock {since : Nat} : s.locked = false →
      SweepStep s (.lockOthers since) (.deactivateOthers since 0)
  | next {since next : Nat} : next < s.connections.length →
      SweepStep s (.deactivateOthers since next) (.deactivateOthers since (next + 1))
  | done {since next : Nat} : s.connections.length ≤ next →
      SweepStep s (.deactivateOthers since next) (.activate since)

/-- The thread is not in that part of `CS104_Slave_activate`. -/
def SweepFree : ConnectionPc → Prop
  | .lockOthers _ | .deactivateOthers _ _ => False
  | _ => True

/-- The ways in which connection `j` can change: by a step of its own, or by one of another
thread. -/
inductive ConnectionMove (p : ApciParameters) (s : Cs104Slave) (op : SlaveOp) (j : Nat)
    (c : MasterConnection) : MasterConnection → Prop
  | same : ConnectionMove p s op j c c
  | opened (now : Nat) : c.isUsed = false → ConnectionMove p s op j c (c.openFor p now)
  | released : ConnectionMove p s op j c c.release
  | closed : ConnectionMove p s op j c c.close
  | deactivated : ConnectionMove p s op j c c.deactivate
  | sweep (env : Environment) {pc : ConnectionPc} : op = .thread j env → SweepStep s c.pc pc →
      ConnectionMove p s op j c { c with pc := pc }
  | step (queue : Option HighPriorityAsduQueue) (env : Environment) : op = .thread j env →
      SweepFree c.pc → ConnectionMove p s op j c (c.threadStep p queue env).1

variable {p : ApciParameters} {s : Cs104Slave} {c c' : MasterConnection} {i j k : Nat}
  {op : SlaveOp} {env : Environment} {queue : Option HighPriorityAsduQueue}

theorem connections_afterThread (s : Cs104Slave) (i : Nat) (c' : MasterConnection)
    (op : Option AsduQueueOp) : (s.afterThread i c' op).connections = s.connections.set i c' := by
  cases op <;> rfl

/-- Every connection after a step comes from the one in the same slot. -/
theorem slaveStep_move (h : (slaveStep p s op).connections[j]? = some c') :
    ∃ c, s.connections[j]? = some c ∧ ConnectionMove p s op j c c' := by
  have hmodify {i : Nat} {f : MasterConnection → MasterConnection}
      (hj : (s.connections.modify i f)[j]? = some c') :
      ∃ c, s.connections[j]? = some c ∧ (i ≠ j ∧ c' = c ∨ i = j ∧ c' = f c) := by
    rw [List.getElem?_modify] at hj
    obtain ⟨c, hc, rfl⟩ := Option.map_eq_some_iff.mp hj
    refine ⟨c, hc, ?_⟩
    by_cases hij : i = j
    · exact .inr ⟨hij, if_pos hij⟩
    · exact .inl ⟨hij, if_neg hij⟩
  cases op with
  | accept now =>
    rw [slaveStep] at h
    split at h
    · exact ⟨c', h, .same⟩
    split at h
    · exact ⟨c', h, .same⟩
    next i hfree =>
    obtain ⟨c, hc, ⟨-, rfl⟩ | ⟨rfl, rfl⟩⟩ := hmodify h
    · exact ⟨_, hc, .same⟩
    · refine ⟨c, hc, .opened now ?_⟩
      obtain ⟨hlt, hunused, -⟩ := List.findIdx?_eq_some_iff_getElem.mp hfree
      rw [List.getElem?_eq_getElem hlt, Option.some.injEq] at hc
      simpa [hc] using hunused
  | free i =>
    rw [slaveStep] at h
    split at h
    · exact ⟨c', h, .same⟩
    obtain ⟨c, hc, ⟨-, rfl⟩ | ⟨rfl, rfl⟩⟩ := hmodify h
    · exact ⟨_, hc, .same⟩
    · exact ⟨c, hc, .released⟩
  | close i =>
    rw [slaveStep] at h
    split at h
    · exact ⟨c', h, .same⟩
    obtain ⟨c, hc, ⟨-, rfl⟩ | ⟨rfl, rfl⟩⟩ := hmodify h
    · exact ⟨_, hc, .same⟩
    · exact ⟨c, hc, .closed⟩
  | enqueue asdu => exact ⟨c', h, .same⟩
  | thread i env =>
    rw [slaveStep] at h
    split at h
    · exact ⟨c', h, .same⟩
    next d hd =>
    have hset {e : MasterConnection} (hj : (s.connections.set i e)[j]? = some c') :
        i = j ∧ c' = e ∨ s.connections[j]? = some c' := by
      rw [List.getElem?_set] at hj
      split at hj
      · next hij =>
        split at hj <;> cases hj
        exact .inl ⟨hij, rfl⟩
      · exact .inr hj
    split at h
    · next since hpc =>
      split at h
      · exact ⟨c', h, .same⟩
      next hunlocked =>
      rcases hset h with ⟨rfl, rfl⟩ | hj
      · exact ⟨d, hd, .sweep env rfl (hpc ▸ .lock (Bool.eq_false_of_not_eq_true hunlocked))⟩
      · exact ⟨c', hj, .same⟩
    · next since next hpc =>
      rw [deactivateNext, List.getElem?_mapIdx] at h
      obtain ⟨c, hc, rfl⟩ := Option.map_eq_some_iff.mp h
      refine ⟨c, hc, ?_⟩
      split
      · next hji =>
        subst hji
        obtain rfl := Option.some.inj (hc.symm.trans hd)
        split
        · next hlt => exact .sweep env rfl (hpc ▸ .next hlt)
        · next hle => exact .sweep env rfl (hpc ▸ .done (Nat.le_of_not_lt hle))
      split
      · exact .deactivated
      · exact .same
    · next hlock hsweep =>
      rw [connections_afterThread] at h
      rcases hset h with ⟨rfl, rfl⟩ | hj
      · refine ⟨d, hd, .step _ env rfl ?_⟩
        cases hpc : d.pc with
        | lockOthers since => exact absurd hpc (hlock since)
        | deactivateOthers since next => exact absurd hpc (hsweep since next)
        | _ => trivial
      · exact ⟨c', hj, .same⟩

theorem eq_create {n : Nat} {size : QueueSize}
    (h : (Cs104Slave.create n size).connections[i]? = some c) : c = MasterConnection.create := by
  rw [Cs104Slave.create, List.getElem?_replicate] at h
  split at h <;> cases h
  rfl

/-- What holds of a new connection and is kept by every move holds of all connections. -/
theorem every_connection {I : MasterConnection → Prop} (hcreate : I MasterConnection.create)
    (hkeep : ∀ s op j c c', I c → ConnectionMove p s op j c c' → I c') (n : Nat) (size : QueueSize)
    (ops : List SlaveOp) {c : MasterConnection}
    (hc : (Run.exec (slaveStep p) (Cs104Slave.create n size) ops).connections[i]? = some c) :
    I c := by
  have hstep (t : Cs104Slave) (op : SlaveOp)
      (ht : ∀ (i : Nat) c, t.connections[i]? = some c → I c) :
      ∀ (i : Nat) c, (slaveStep p t op).connections[i]? = some c → I c := by
    intro i c' hc'
    obtain ⟨c, hc, hmove⟩ := slaveStep_move hc'
    exact hkeep t op i c c' (ht i c hc) hmove
  have hstart : ∀ (i : Nat) c, (Cs104Slave.create n size).connections[i]? = some c → I c :=
    fun i c h => eq_create h ▸ hcreate
  exact Run.exec_induction
    (I := fun _ (t : Cs104Slave) => ∀ (i : Nat) c, t.connections[i]? = some c → I c)
    hstart (fun _ => hstep) ops i c hc

/-! ### What a step of a thread leaves alone -/

/-- The ASDUs from the queue among the frames sent. -/
def queuedPayloads (log : List (Event Payload)) : List (List UInt8) :=
  log.filterMap fun
    | .sendFrame _ _ x => if x.queued then some x.asdu else none
    | _ => none

/-- From `c` to `c'` no ASDU of the queue is sent, and the connection does not become active. -/
structure Mild (c c' : MasterConnection) : Prop where
  isUsed : c'.isUsed = c.isUsed
  running : c'.isRunning = true → c.isRunning = true
  started : c'.state = .started → c.state = .started
  queued : queuedPayloads c'.log = queuedPayloads c.log

theorem Mild.trans {d : MasterConnection} (h : Mild c c') (h' : Mild c' d) : Mild c d :=
  ⟨h'.isUsed.trans h.isUsed, h.running ∘ h'.running, h.started ∘ h'.started,
    h'.queued.trans h.queued⟩

theorem mild_refl (c : MasterConnection) : Mild c c := ⟨rfl, id, id, rfl⟩

theorem mild_goto (c : MasterConnection) (pc : ConnectionPc) : Mild c { c with pc := pc } :=
  ⟨rfl, id, id, rfl⟩

theorem mild_finish (c : MasterConnection) : Mild c c.finish := ⟨rfl, Bool.noConfusion, id, rfl⟩

theorem mild_record (c : MasterConnection) {e : Event Payload}
    (he : queuedPayloads [e] = []) : Mild c (c.record e) := by
  refine ⟨rfl, id, id, ?_⟩
  rw [record, queuedPayloads, List.filterMap_append, ← queuedPayloads, ← queuedPayloads, he,
    List.append_nil]

theorem Quiet.mild (h : Quiet c c') : Mild c c' :=
  ⟨h.isUsed, h.running, fun hstarted => h.state.symm.trans hstarted, by rw [h.log]⟩

theorem mild_confirmReceived (c : MasterConnection) (now : Nat) (write : Int) :
    Mild c (c.confirmReceived now write) := by
  rw [confirmReceived, sendSMessage]
  split
  · exact ⟨rfl, Bool.noConfusion, id, rfl⟩
  · refine Mild.trans ?_ (mild_record _ ?_)
    · exact ⟨rfl, id, id, rfl⟩
    · split <;> rfl

theorem mild_refuse (c : MasterConnection) : Mild c c.refuse := ⟨rfl, Bool.noConfusion, id, rfl⟩

theorem mild_accept (c : MasterConnection) (since : Nat) : Mild c (c.accept p since) :=
  ⟨rfl, id, id, rfl⟩

theorem mild_stopConfirm (c : MasterConnection) (since : Nat) (write : Int) :
    Mild c (c.stopConfirm p since write) := by
  have hstopped : Mild c { c with state := .stopped } := ⟨rfl, id, ConnectionState.noConfusion, rfl⟩
  rw [stopConfirm]
  split
  · exact mild_accept c since
  split
  · exact hstopped.trans (mild_refuse _)
  split
  · exact hstopped.trans (mild_accept _ since)
  · exact (hstopped.trans (mild_record _ rfl)).trans (mild_accept _ since)

theorem mild_startT2 (c : MasterConnection) (now : Nat) : Mild c (c.startT2 now) := by
  rw [startT2]
  split <;> exact ⟨rfl, id, id, rfl⟩

theorem mild_handleIFrame (c : MasterConnection) (now ns nr : Nat) (asdu : List UInt8) :
    Mild c (c.handleIFrame now ns nr asdu) := by
  rw [handleIFrame]
  split
  · exact (mild_record c rfl).trans (mild_refuse _)
  refine (mild_startT2 c now).trans ?_
  generalize c.startT2 now = timed
  dsimp only
  split
  · exact (mild_record timed rfl).trans (mild_refuse _)
  split
  · exact mild_refl timed
  · exact (mild_record timed rfl).trans (mild_refuse _)
  · refine Mild.trans ?_ (mild_record _ rfl)
    exact ⟨rfl, id, id, rfl⟩

theorem mild_handleSFrame (c : MasterConnection) (env : Environment) (nr : Nat) :
    Mild c (c.handleSFrame p env nr) := by
  rw [handleSFrame]
  split
  · exact mild_refl c
  · exact (mild_record c rfl).trans (mild_refuse _)
  next window _ =>
  have hwindow : Mild c { c with window := window } := ⟨rfl, id, id, rfl⟩
  have hconfirmed := hwindow.trans (mild_record _ (e := .receiveAck nr) rfl)
  dsimp only
  split
  · exact hconfirmed.trans (mild_stopConfirm _ _ _)
  · exact hconfirmed.trans (mild_refuse _)
  · exact hconfirmed.trans (mild_accept _ _)

theorem mild_handleStopdt (c : MasterConnection) (env : Environment) :
    Mild c (c.handleStopdt p env) := by
  have hstate : Mild c { c with state := .unconfirmedStopped } :=
    ⟨rfl, id, ConnectionState.noConfusion, rfl⟩
  have hinactive := hstate.trans (mild_record _ (e := .stop) rfl)
  rw [handleStopdt]
  refine Mild.trans ?_ (mild_stopConfirm _ _ _)
  split
  · exact hinactive.trans (mild_confirmReceived _ _ _)
  · exact hinactive

theorem mild_handleMessage (c : MasterConnection) (env : Environment) (message : Message) :
    Mild c (c.handleMessage p env message) := by
  cases message with
  | malformed => exact mild_refuse c
  | iFrame ns nr asdu => exact mild_handleIFrame c _ _ _ _
  | testfrAct =>
    rw [handleMessage]
    split
    · exact mild_refuse c
    · exact mild_accept c _
  | startdtAct => exact ⟨rfl, id, id, rfl⟩
  | stopdtAct => exact mild_handleStopdt c env
  | testfrCon => exact ⟨rfl, id, id, rfl⟩
  | sFrame nr => exact mild_handleSFrame c env nr
  | unknown => exact ⟨rfl, id, id, rfl⟩

theorem mild_handleTimeouts (c : MasterConnection) (env : Environment) :
    Mild c (c.handleTimeouts p env) :=
  handleTimeouts_rule .trans Quiet.mild mild_confirmReceived
    (fun _ _ _ _ _ _ => ⟨rfl, id, id, rfl⟩) c

/-- What the queue gives to a thread that takes an ASDU. -/
def takenFrom (queue : Option HighPriorityAsduQueue) : Option AsduQueueOp → List (List UInt8)
  | some .getNext => ((queue.bind (·.getNextAsdu)).bind (·.2)).toList
  | _ => []

/-- What a step of a thread does, apart from protocol and times: it activates the connection only
behind the loop over the others, it sends what it takes from the queue, and nothing makes a
connection run again. -/
structure StepSummary (c c' : MasterConnection) (takes : List (List UInt8)) : Prop where
  isUsed : c'.isUsed = c.isUsed
  running : c'.isRunning = true → c.isRunning = true
  started : c'.state = .started → c.state = .started ∨ ∃ since, c.pc = .activate since
  queued : c'.isRunning = true → queuedPayloads c'.log = queuedPayloads c.log ++ takes

theorem Mild.summary (h : Mild c c') : StepSummary c c' [] :=
  ⟨h.isUsed, h.running, .inl ∘ h.started, fun _ => by rw [h.queued, List.append_nil]⟩

theorem summary_sendAsdu (c : MasterConnection) (payload : Payload) (env : Environment) :
    StepSummary c (c.sendAsdu payload env) (if payload.queued then [payload.asdu] else []) := by
  rw [sendAsdu]
  split
  · refine ⟨rfl, id, .inl, fun _ => ?_⟩
    dsimp only [record]
    rw [queuedPayloads, List.filterMap_append, ← queuedPayloads]
    cases payload with
    | mk queued asdu => cases queued <;> rfl
  · exact ⟨rfl, Bool.noConfusion, .inl, Bool.noConfusion⟩

theorem threadStep_summary (c : MasterConnection) (queue : Option HighPriorityAsduQueue)
    (env : Environment) :
    StepSummary c (c.threadStep p queue env).1 (takenFrom queue (c.threadStep p queue env).2) := by
  rw [MasterConnection.threadStep]
  split
  next hpc =>
    dsimp only
    split
    · exact (mild_goto c _).summary
    · exact (mild_finish c).summary
  next hpc =>
    dsimp only
    split
    · exact (mild_goto c _).summary
    · exact (mild_finish c).summary
    · exact (mild_handleMessage c env _).summary
  next hpc => exact (mild_refl c).summary
  next hpc => exact (mild_refl c).summary
  next since hpc =>
    have hmild : Mild c (c.record .start) := mild_record c rfl
    exact ⟨rfl, id, fun _ => .inr ⟨since, hpc⟩, fun hrunning => hmild.summary.queued hrunning⟩
  next since hpc =>
    dsimp only
    split
    · exact (mild_refuse c).summary
    · exact (mild_accept c since).summary
  next since hpc =>
    dsimp only
    split
    · exact (mild_goto c _).summary
    · exact (mild_refuse c).summary
  next since hpc =>
    dsimp only
    split
    · split
      · exact (mild_goto c _).summary
      · exact (mild_accept c since).summary
    · exact (mild_accept c since).summary
  next asdu since hpc =>
    rw [sendReply]
    split
    · exact (mild_accept c since).summary
    · have hsend := summary_sendAsdu c ⟨false, asdu⟩ env
      exact ⟨hsend.isUsed, hsend.running, hsend.started, hsend.queued⟩
  next hpc =>
    dsimp only
    split
    · exact ((mild_confirmReceived c _ _).trans (mild_goto _ _)).summary
    · exact (mild_goto c _).summary
  next hpc => exact (mild_handleTimeouts c env).summary
  next hpc => exact (mild_goto c _).summary
  next hpc =>
    rw [sendWaitingAsdus]
    split
    swap
    · exact (mild_goto c _).summary
    rw [sendNext]
    split
    · exact (mild_goto c _).summary
    dsimp only [takenFrom]
    split
    · next hnone =>
      rw [hnone]
      exact (mild_refl c).summary
    · next hempty =>
      rw [hempty]
      exact (mild_goto c _).summary
    · next asdu hsome =>
      rw [hsome]
      have hsend := summary_sendAsdu c ⟨true, asdu⟩ env
      exact ⟨hsend.isUsed, hsend.running, hsend.started, hsend.queued⟩
  next hpc => exact (mild_refl c).summary

/-! ## Every connection follows the protocol -/

/-- A connection in use follows the protocol; a free one has no thread and is not started. -/
structure SlotOk (k : Nat) (P : List Nat → Prop) (c : MasterConnection) : Prop where
  used : c.isUsed = true → c.Conforms k P
  free : c.isUsed = false → c.pc = .ended ∧ c.isRunning = false ∧ c.state ≠ .started

variable {P : List Nat → Prop}

theorem slotOk_create (k : Nat) : SlotOk k P MasterConnection.create :=
  ⟨Bool.noConfusion, fun _ => ⟨rfl, rfl, ConnectionState.noConfusion⟩⟩

theorem SlotOk.move (hnil : P []) (hP : ∀ env, op = .thread j env → KeptAt env.now P)
    (h : SlotOk p.k P c) (hmove : ConnectionMove p s op j c c') : SlotOk p.k P c' := by
  cases hmove with
  | same => exact h
  | opened now => exact ⟨fun _ => conforms_openFor hnil c now, Bool.noConfusion⟩
  | released =>
    rw [release]
    split
    · next hend =>
      exact ⟨Bool.noConfusion, fun _ => ⟨hend.2.2, hend.2.1, ConnectionState.noConfusion⟩⟩
    · exact h
  | closed =>
    exact ⟨fun hused => (h.used hused).close,
      fun hfree => ⟨(h.free hfree).1, rfl, ConnectionState.noConfusion⟩⟩
  | deactivated =>
    exact ⟨fun hused => (h.used hused).deactivate,
      fun hfree => ⟨(h.free hfree).1, (h.free hfree).2.1, ConnectionState.noConfusion⟩⟩
  | sweep env hop hstep =>
    generalize hpc : c.pc = pc at hstep
    refine ⟨fun hused => ?_, fun hfree => ?_⟩
    · obtain ⟨s, hs, -, htracks | hfinishing⟩ := h.used hused
      · cases hstep <;> exact .of_keeps hs (keeps_goto c _) id (.inl htracks)
      · rcases hfinishing.2 with hplace | hplace | hplace | hplace | hplace <;>
          rw [hpc] at hplace <;> rw [hplace] at hstep <;> cases hstep
    · rw [hpc.symm.trans (h.free hfree).1] at hstep
      cases hstep
  | step queue env hop _ =>
    have hsummary := threadStep_summary (p := p) c queue env
    refine ⟨fun hused => ?_, fun hfree => ?_⟩
    · rw [hsummary.isUsed] at hused
      exact (h.used hused).threadStep (hP env hop)
    · rw [hsummary.isUsed] at hfree
      have hend : c.threadStep p queue env = (c, none) := by
        rw [MasterConnection.threadStep, (h.free hfree).1]
      rw [hend]
      exact h.free hfree

/-- Nothing is known of the times. -/
theorem keptAt_true (now : Nat) : KeptAt now fun _ => True :=
  ⟨fun _ _ => id, fun _ => id, fun _ _ _ => id⟩

theorem every_slotOk (n : Nat) (size : QueueSize) (ops : List SlaveOp)
    (hc : (Run.exec (slaveStep p) (Cs104Slave.create n size) ops).connections[i]? = some c) :
    SlotOk p.k (fun _ => True) c :=
  every_connection (slotOk_create p.k)
    (fun _ _ _ _ _ h hmove => h.move trivial (fun env _ => keptAt_true env.now) hmove)
    n size ops hc

/-- A step of a thread that has received a frame. -/
theorem slaveStep_received {buffer : List UInt8} {msgSize : Nat}
    (hc : s.connections[i]? = some c) (hpc : c.pc = .receive)
    (harrival : env.arrival = .frame buffer msgSize) :
    (slaveStep p s (.thread i env)).connections[i]? =
      some (c.handleMessage p env (readMessage buffer msgSize)) := by
  have hlt := (List.getElem?_eq_some_iff.mp hc).1
  have hthread : c.threadStep p s.queue.queue env =
      (c.handleMessage p env (readMessage buffer msgSize), none) := by
    simp only [MasterConnection.threadStep, hpc, harrival]
  simp only [slaveStep, hc, hpc, hthread, connections_afterThread]
  exact List.getElem?_set_self hlt

/-- Whatever the order of the steps of all threads: the events of every open connection follow the
protocol of a station with window `k`, so its frames are numbered one after the other in both
directions and at most `k` frames are unconfirmed. The counters of the connection are the counts
modulo 32768, and while it runs its window holds the unconfirmed frames. When its thread receives an
I frame or an S frame, the step adds just the event of this frame with its numbers, and the frame is
taken exactly if the numbers are the expected ones. -/
theorem connection_follows_protocol (p : ApciParameters) (n : Nat)
    (highPrioMaxQueueSize : QueueSize) (ops : List SlaveOp) (i : Nat) (c : MasterConnection)
    (hc : (Run.exec (slaveStep p) (Cs104Slave.create n highPrioMaxQueueSize) ops).connections[i]? =
      some c) (hused : c.isUsed = true) :
    ∃ station, Station.run seqModulus p.k Station.init c.log = some station ∧
      Station.Summary seqModulus p.k c.log station ∧
      c.sendCount = station.sent % seqModulus ∧ c.receiveCount = station.received % seqModulus ∧
      (c.isRunning = true → ∃ times, c.window.Unconfirmed station.confirmed times ∧
        station.confirmed + times.length = station.sent) ∧
      ∀ env buffer msgSize, c.pc = .receive → env.arrival = .frame buffer msgSize →
        ∃ c', (Run.exec (slaveStep p) (Cs104Slave.create n highPrioMaxQueueSize)
            (ops ++ [.thread i env])).connections[i]? = some c' ∧
          (∀ ns nr asdu, readMessage buffer msgSize = .iFrame ns nr asdu →
            TakesFrame station c c' env.now ns nr asdu) ∧
          ∀ nr, readMessage buffer msgSize = .sFrame nr → TakesAck station c c' nr := by
  have hconforms := (every_slotOk n _ ops hc).used hused
  obtain ⟨station, hsynced, -, htracks⟩ := hconforms
  refine ⟨station, hsynced.run, Station.run_summary hsynced.run, hsynced.sendCount,
    hsynced.receiveCount, fun hrunning => ?_, fun env buffer msgSize hpc harrival => ?_⟩
  · rcases htracks with ⟨times, htimes, hsent, -⟩ | ⟨hstopped, -⟩
    · exact ⟨times, htimes, hsent⟩
    · rw [hrunning] at hstopped
      cases hstopped
  have htracks : Tracks (fun _ => True) c.window station.confirmed station.sent := by
    refine htracks.resolve_right fun ⟨_, hplace⟩ => ?_
    simp [hpc] at hplace
  rw [Run.exec_append, Run.exec_cons, Run.exec_nil]
  refine ⟨_, slaveStep_received hc hpc harrival, fun ns nr asdu hmessage => ?_,
    fun nr hmessage => ?_⟩
  · have hnr := readMessage_numbers_lt.1 _ _ _ hmessage
    rw [hmessage]
    exact (handleIFrame_spec (keptAt_true env.now) hsynced htracks hnr asdu).2
  · have hnr := readMessage_numbers_lt.2 _ hmessage
    rw [hmessage]
    exact (handleSFrame_spec (keptAt_true env.now) hsynced htracks hnr).2

/-- A master that starts the connection, one ASDU that is put into the queue, and the frame that
carries it. -/
def startedOps : List SlaveOp :=
  let env : Environment := ⟨0, .nothing, none, true, 6, 6⟩
  let startdtAct : Arrival := .frame [0x68, 0x04, 0x07, 0x00, 0x00, 0x00] 6
  [.accept 0, .thread 0 env, .thread 0 { env with arrival := startdtAct }, .thread 0 env,
    .thread 0 env, .thread 0 env, .thread 0 env, .thread 0 env, .enqueue [1, 2], .thread 0 env,
    .thread 0 env, .thread 0 env, .thread 0 env]

def startedParameters : ApciParameters where
  k := 12
  w := 8
  t1 := 15
  t2 := 10
  t3 := 20
  k_pos := by decide
  k_lt := by decide
  t1_le := by decide
  t2_le := by decide
  t3_le := by decide

/-- Room for one ASDU of any size. -/
def oneAsdu : QueueSize := ⟨1, by decide⟩

/-- The thread waits for the next frame. -/
def waitingOps : List SlaveOp :=
  startedOps ++ [.thread 0 ⟨0, .nothing, none, true, 6, 6⟩]

/-- An I frame of the master: number 0, and it confirms the frame sent. -/
def firstIFrame : Environment :=
  ⟨0, .frame [0x68, 0x05, 0x00, 0x00, 0x02, 0x00, 0x64] 7, none, true, 6, 6⟩

theorem connection_follows_protocol_started :
    ∃ c, (Run.exec (slaveStep startedParameters) (Cs104Slave.create 1 oneAsdu)
        waitingOps).connections[0]? = some c ∧ c.log = [.start, .sendFrame 0 0 ⟨true, [1, 2]⟩] ∧
      ∃ station, Station.run seqModulus 12 Station.init c.log = some station ∧
        Station.Summary seqModulus 12 c.log station ∧
        c.sendCount = station.sent % seqModulus ∧ c.receiveCount = station.received % seqModulus ∧
        ∃ c', (Run.exec (slaveStep startedParameters) (Cs104Slave.create 1 oneAsdu)
            (waitingOps ++ [.thread 0 firstIFrame])).connections[0]? = some c' ∧
          TakesFrame station c c' 0 0 1 [0x64] := by
  have hsome : (Run.exec (slaveStep startedParameters) (Cs104Slave.create 1 oneAsdu)
      waitingOps).connections[0]?.map (fun c => (c.isUsed, c.pc, c.log)) =
        some (true, .receive, [.start, .sendFrame 0 0 ⟨true, [1, 2]⟩]) := by decide +kernel
  obtain ⟨c, hc, hfields⟩ := Option.map_eq_some_iff.mp hsome
  simp only [Prod.mk.injEq] at hfields
  obtain ⟨hused, hpc, hlog⟩ := hfields
  obtain ⟨station, hrun, hsummary, hsent, hreceived, -, hframe⟩ :=
    connection_follows_protocol startedParameters 1 oneAsdu waitingOps 0 c hc hused
  obtain ⟨c', hc', htakes, -⟩ := hframe firstIFrame _ _ hpc rfl
  exact ⟨c, hc, hlog, station, hrun, hsummary, hsent, hreceived, c', hc',
    htakes 0 1 [0x64] (by decide)⟩

/-! ## Acknowledgements -/

/-- The thread is between the receipt of a frame and the test for `w`. -/
def InMessage : ConnectionPc → Prop
  | .lockOthers _ | .deactivateOthers _ _ | .activate _ | .startdtCon _ | .deliver _ _
  | .handling _ | .reply _ _ | .confirm => True
  | _ => False

/-- Fewer than `w` received frames are counted, or `w` of them until the test is made. -/
structure CountOk (w : Nat) (c : MasterConnection) : Prop where
  le : c.unconfirmedReceivedIMessages ≤ w
  lt : ¬ InMessage c.pc → c.unconfirmedReceivedIMessages < w

variable {w : Nat}

theorem countOk_of_lt {n : Nat} (h : c'.unconfirmedReceivedIMessages ≤ n) (hn : n < w) :
    CountOk w c' :=
  ⟨Nat.le_of_lt (Nat.lt_of_le_of_lt h hn), fun _ => Nat.lt_of_le_of_lt h hn⟩

theorem unconfirmed_confirmReceived (c : MasterConnection) (now : Nat) (write : Int) :
    (c.confirmReceived now write).unconfirmedReceivedIMessages = 0 := by
  rw [confirmReceived, sendSMessage]
  split <;> rfl

theorem unconfirmed_sendAsdu (c : MasterConnection) (payload : Payload) (env : Environment) :
    (c.sendAsdu payload env).unconfirmedReceivedIMessages = 0 := by
  rw [sendAsdu]
  split <;> rfl

theorem unconfirmed_stopConfirm (c : MasterConnection) (since : Nat) (write : Int) :
    (c.stopConfirm p since write).unconfirmedReceivedIMessages =
      c.unconfirmedReceivedIMessages := by
  rw [stopConfirm]
  split_ifs <;> rfl

/-- A message adds at most one frame, and then the test for `w` is still to come. -/
theorem countOk_handleMessage (h : c.unconfirmedReceivedIMessages < w) (env : Environment)
    (message : Message) : CountOk w (c.handleMessage p env message) := by
  have hsame {d : MasterConnection}
      (heq : d.unconfirmedReceivedIMessages = c.unconfirmedReceivedIMessages) : CountOk w d :=
    countOk_of_lt (Nat.le_of_eq heq) h
  cases message with
  | malformed | startdtAct | testfrCon | unknown => exact hsame rfl
  | iFrame ns nr asdu =>
    rw [handleMessage, handleIFrame]
    have htimed : (c.startT2 env.now).unconfirmedReceivedIMessages =
        c.unconfirmedReceivedIMessages := by
      rw [startT2]
      split <;> rfl
    split
    · exact hsame rfl
    dsimp only
    split
    · exact hsame htimed
    split
    · exact hsame htimed
    · exact hsame htimed
    · refine ⟨?_, fun hpc => absurd trivial hpc⟩
      exact Nat.succ_le_of_lt (htimed.trans_lt h)
  | testfrAct =>
    rw [handleMessage]
    split <;> exact hsame rfl
  | stopdtAct =>
    rw [handleMessage, handleStopdt]
    refine countOk_of_lt ?_ h
    rw [unconfirmed_stopConfirm]
    split
    · rw [unconfirmed_confirmReceived]
      exact Nat.zero_le _
    · exact Nat.le_refl _
  | sFrame nr =>
    rw [handleMessage, handleSFrame]
    split
    · exact hsame rfl
    · exact hsame rfl
    · dsimp only
      split
      · exact hsame (unconfirmed_stopConfirm _ _ _)
      · exact hsame rfl
      · exact hsame rfl

theorem unconfirmed_handleTimeouts_le (c : MasterConnection) (env : Environment) :
    (c.handleTimeouts p env).unconfirmedReceivedIMessages ≤ c.unconfirmedReceivedIMessages := by
  refine handleTimeouts_rule
    (R := fun c d => d.unconfirmedReceivedIMessages ≤ c.unconfirmedReceivedIMessages)
    (fun h h' => Nat.le_trans h' h) (fun h => Nat.le_of_eq h.unconfirmed) (fun c now write => ?_)
    (fun _ _ _ _ _ _ => Nat.le_refl _) c
  rw [unconfirmed_confirmReceived]
  exact Nat.zero_le _

theorem CountOk.threadStep (hw : 0 < w) (hpw : p.w = w) (h : CountOk w c) :
    CountOk w (c.threadStep p queue env).1 := by
  rw [MasterConnection.threadStep]
  split
  next hpc =>
    have hlt := h.lt (by rw [hpc]; exact id)
    dsimp only
    split <;> exact countOk_of_lt (Nat.le_refl _) hlt
  next hpc =>
    have hlt := h.lt (by rw [hpc]; exact id)
    dsimp only
    split
    · exact countOk_of_lt (Nat.le_refl _) hlt
    · exact countOk_of_lt (Nat.le_refl _) hlt
    · exact countOk_handleMessage hlt env _
  next hpc => exact h
  next hpc => exact h
  next since hpc => exact ⟨h.le, fun hnot => absurd trivial hnot⟩
  next since hpc =>
    dsimp only
    split <;> exact ⟨h.le, fun hnot => absurd trivial hnot⟩
  next since hpc =>
    dsimp only
    split <;> exact ⟨h.le, fun hnot => absurd trivial hnot⟩
  next since hpc =>
    dsimp only
    split
    · split <;> exact ⟨h.le, fun hnot => absurd trivial hnot⟩
    · exact ⟨h.le, fun hnot => absurd trivial hnot⟩
  next asdu since hpc =>
    rw [sendReply]
    split
    · exact ⟨h.le, fun hnot => absurd trivial hnot⟩
    · exact countOk_of_lt (Nat.le_of_eq (unconfirmed_sendAsdu c _ env)) hw
  next hpc =>
    dsimp only
    split
    · exact countOk_of_lt (Nat.le_of_eq (unconfirmed_confirmReceived c _ _)) hw
    · next hlt => exact countOk_of_lt (Nat.le_refl _) (hpw ▸ Nat.lt_of_not_le hlt)
  next hpc =>
    exact countOk_of_lt (unconfirmed_handleTimeouts_le c env) (h.lt (by rw [hpc]; exact id))
  next hpc =>
    exact countOk_of_lt (Nat.le_refl _) (h.lt (by rw [hpc]; exact id))
  next hpc =>
    have hlt := h.lt (by rw [hpc]; exact id)
    rw [sendWaitingAsdus]
    split
    swap
    · exact countOk_of_lt (Nat.le_refl _) hlt
    rw [sendNext]
    split
    · exact countOk_of_lt (Nat.le_refl _) hlt
    dsimp only
    split
    · exact h
    · exact countOk_of_lt (Nat.le_refl _) hlt
    · exact countOk_of_lt (Nat.le_of_eq (unconfirmed_sendAsdu c _ env)) hw
  next hpc => exact h

theorem CountOk.move (hw : 0 < p.w) (h : CountOk p.w c) (hmove : ConnectionMove p s op j c c') :
    CountOk p.w c' := by
  cases hmove with
  | same => exact h
  | opened now => exact countOk_of_lt (Nat.le_refl 0) hw
  | released =>
    rw [release]
    split
    · exact ⟨h.le, h.lt⟩
    · exact h
  | closed => exact ⟨h.le, h.lt⟩
  | deactivated => exact ⟨h.le, h.lt⟩
  | sweep env hop hstep =>
    generalize c.pc = pc at hstep
    cases hstep <;> exact ⟨h.le, fun hnot => absurd trivial hnot⟩
  | step queue env hop => exact h.threadStep hw rfl

/-- Whenever the thread of a running connection is not in the middle of a message, fewer than `w`
received frames are not acknowledged to the master, as long as no S frame was lost because the
socket had no room for it. -/
theorem acknowledgements_keep_up (p : ApciParameters) (hw : 0 < p.w) (n : Nat)
    (highPrioMaxQueueSize : QueueSize) (ops : List SlaveOp) (i : Nat) (c : MasterConnection)
    (hc : (Run.exec (slaveStep p) (Cs104Slave.create n highPrioMaxQueueSize) ops).connections[i]? =
      some c) (hused : c.isUsed = true) (hrunning : c.isRunning = true) (hpc : ¬ InMessage c.pc)
    (hlost : .lostAck ∉ c.log) :
    ∃ station, Station.run seqModulus p.k Station.init c.log = some station ∧
      station.received - station.acked < p.w := by
  obtain ⟨station, hsynced, -⟩ := (every_slotOk n _ ops hc).used hused
  have hcreate : CountOk p.w MasterConnection.create := countOk_of_lt (Nat.le_refl 0) hw
  have hcount : CountOk p.w c :=
    every_connection hcreate (fun _ _ _ _ _ h hmove => h.move hw hmove) n _ ops hc
  refine ⟨station, hsynced.run, ?_⟩
  rcases hsynced.unacked with hmem | hstopped | heq
  · exact absurd hmem hlost
  · rw [hrunning] at hstopped
    cases hstopped
  · rw [← heq]
    exact hcount.lt hpc

/-- The I frame is received and handled. -/
def receivedOps : List SlaveOp :=
  let env : Environment := ⟨0, .nothing, none, true, 6, 6⟩
  waitingOps ++ [.thread 0 firstIFrame, .thread 0 env, .thread 0 env, .thread 0 env]

theorem acknowledgements_keep_up_received :
    ∃ c, (Run.exec (slaveStep startedParameters) (Cs104Slave.create 1 oneAsdu)
        receivedOps).connections[0]? = some c ∧ c.unconfirmedReceivedIMessages = 1 ∧
      ∃ station, Station.run seqModulus 12 Station.init c.log = some station ∧
        station.received - station.acked < 8 := by
  have hsome : (Run.exec (slaveStep startedParameters) (Cs104Slave.create 1 oneAsdu)
      receivedOps).connections[0]?.map (fun c => (c.isUsed, c.isRunning, c.pc,
        decide (.lostAck ∈ c.log), c.unconfirmedReceivedIMessages)) =
        some (true, true, .timeouts, false, 1) := by decide +kernel
  obtain ⟨c, hc, hfields⟩ := Option.map_eq_some_iff.mp hsome
  simp only [Prod.mk.injEq, decide_eq_false_iff_not] at hfields
  obtain ⟨hused, hrunning, hpc, hlost, hcount⟩ := hfields
  exact ⟨c, hc, hcount, acknowledgements_keep_up startedParameters (by decide) 1 _ receivedOps 0 c
    hc hused hrunning (by rw [hpc]; exact id) hlost⟩

/-! ## The active connection -/

/-- The thread waits for the lock of the loop over the other connections. -/
def ConnectionPc.locking : ConnectionPc → Bool
  | .lockOthers _ => true
  | _ => false

/-- The thread has run the loop over the other connections. -/
def ConnectionPc.activating : ConnectionPc → Bool
  | .activate _ => true
  | _ => false

/-- If a thread takes the lock for the loop over the other connections, no other thread is about to
activate its connection. -/
def StartsAlone (s : Cs104Slave) : SlaveOp → Prop
  | .thread i _ => ∀ c ∈ s.connections[i]?, c.pc.locking = true →
      ∀ j < s.connections.length, j ≠ i → ∀ d ∈ s.connections[j]?, d.pc.activating = false
  | _ => True

instance (s : Cs104Slave) (op : SlaveOp) : Decidable (StartsAlone s op) := by
  cases op <;> unfold StartsAlone <;> infer_instance

/-- A step of the thread outside of the loop does not lead into it or behind it. -/
theorem threadStep_not_ahead (hfree : SweepFree c.pc) (queue : Option HighPriorityAsduQueue)
    (env : Environment) : (c.threadStep p queue env).1.pc.sweeping = false ∧
      (c.threadStep p queue env).1.pc.activating = false := by
  have hmessage (message : Message) (hpc : c.pc = .receive) :
      (c.handleMessage p env message).pc.sweeping = false ∧
        (c.handleMessage p env message).pc.activating = false := by
    rcases pc_handleMessage p c env message with heq | heq | ⟨asdu, heq⟩ | heq
    · rw [heq]
      exact ⟨rfl, rfl⟩
    · rw [heq]
      exact ⟨rfl, rfl⟩
    · rw [heq]
      exact ⟨rfl, rfl⟩
    · rw [heq, hpc]
      exact ⟨rfl, rfl⟩
  rw [MasterConnection.threadStep]
  split
  next hpc =>
    dsimp only
    split <;> exact ⟨rfl, rfl⟩
  next hpc =>
    dsimp only
    split
    · exact ⟨rfl, rfl⟩
    · exact ⟨rfl, rfl⟩
    · exact hmessage _ hpc
  next since hpc =>
    rw [hpc] at hfree
    exact hfree.elim
  next since next hpc =>
    rw [hpc] at hfree
    exact hfree.elim
  next since hpc => exact ⟨rfl, rfl⟩
  next since hpc =>
    dsimp only
    split <;> exact ⟨rfl, rfl⟩
  next asdu since hpc =>
    dsimp only
    split <;> exact ⟨rfl, rfl⟩
  next since hpc =>
    dsimp only
    split
    · split <;> exact ⟨rfl, rfl⟩
    · exact ⟨rfl, rfl⟩
  next asdu since hpc =>
    rw [sendReply]
    split <;> exact ⟨rfl, rfl⟩
  next hpc => exact ⟨rfl, rfl⟩
  next hpc => exact ⟨rfl, rfl⟩
  next hpc =>
    dsimp only
    split <;> exact ⟨rfl, rfl⟩
  next hpc =>
    rw [sendWaitingAsdus]
    split
    swap
    · exact ⟨rfl, rfl⟩
    rw [sendNext]
    split
    · exact ⟨rfl, rfl⟩
    dsimp only
    split
    · rw [hpc]
      exact ⟨rfl, rfl⟩
    · exact ⟨rfl, rfl⟩
    · exact ⟨rfl, rfl⟩
  next hpc =>
    rw [hpc]
    exact ⟨rfl, rfl⟩

theorem pc_release (c : MasterConnection) : c.release.pc = c.pc := by
  rw [release]
  split <;> rfl

/-- A move makes a thread run the loop only if it did before, or if it takes the lock. -/
theorem ConnectionMove.sweeping (hmove : ConnectionMove p s op j c c')
    (h : c'.pc.sweeping = true) :
    c.pc.sweeping = true ∨ s.locked = false ∧ ∃ env, op = .thread j env := by
  cases hmove with
  | same | closed | deactivated => exact .inl h
  | opened now => cases h
  | released =>
    rw [pc_release] at h
    exact .inl h
  | sweep env hop hstep =>
    generalize c.pc = pc at hstep
    cases hstep with
    | lock hunlocked => exact .inr ⟨hunlocked, env, hop⟩
    | next hlt => exact .inl rfl
    | done hle => cases h
  | step queue env hop hfree =>
    rw [(threadStep_not_ahead hfree queue env).1] at h
    cases h

/-- A move brings a thread to the place where the connection is activated only if it was there
before, or from the end of the loop. -/
theorem ConnectionMove.activating (hmove : ConnectionMove p s op j c c')
    (h : c'.pc.activating = true) : c.pc.activating = true ∨ ∃ env since next,
      op = .thread j env ∧ c.pc = .deactivateOthers since next ∧ s.connections.length ≤ next := by
  cases hmove with
  | same | closed | deactivated => exact .inl h
  | opened now => cases h
  | released =>
    rw [pc_release] at h
    exact .inl h
  | sweep env hop hstep =>
    generalize hpc : c.pc = pc at hstep ⊢
    cases hstep with
    | lock hunlocked => cases h
    | next hlt => cases h
    | done hle => exact .inr ⟨env, _, _, hop, rfl, hle⟩
  | step queue env hop hfree =>
    rw [(threadStep_not_ahead hfree queue env).2] at h
    cases h

/-- A move starts a connection only if its thread is behind the loop. -/
theorem ConnectionMove.started (hmove : ConnectionMove p s op j c c') (h : c'.state = .started) :
    c.state = .started ∨ c.pc.activating = true := by
  cases hmove with
  | same => exact .inl h
  | opened now | closed | deactivated => cases h
  | released =>
    rw [release] at h
    split at h
    · cases h
    · exact .inl h
  | sweep env hop hstep => exact .inl h
  | step queue env hop hfree =>
    rcases (threadStep_summary c queue env).started h with hstate | ⟨since, hpc⟩
    · exact .inl hstate
    · exact .inr (by rw [hpc]; rfl)

/-- The connection is started, or its thread is about to start it. -/
def Claims (c : MasterConnection) : Prop := c.state = .started ∨ c.pc.activating = true

/-- At most one connection is started or about to be. -/
def OneClaim (s : Cs104Slave) : Prop :=
  ∀ (i j : Nat) c d, s.connections[i]? = some c → s.connections[j]? = some d → Claims c →
    Claims d → i = j

/-- Free connections are not started. -/
def FreeStopped (s : Cs104Slave) : Prop :=
  ∀ (i : Nat) c, s.connections[i]? = some c → c.isUsed = false → c.state ≠ .started

/-- While a thread is in the loop over the other connections, no other thread is in the loop or
behind it, and the connections that the loop has visited are not started. -/
def Swept (s : Cs104Slave) : Prop :=
  ∀ (i j : Nat) c d since next, s.connections[i]? = some c →
    c.pc = .deactivateOthers since next → s.connections[j]? = some d → j ≠ i →
    d.pc.sweeping = false ∧ d.pc.activating = false ∧ (j < next → d.state ≠ .started)

theorem oneClaim_create (n : Nat) (size : QueueSize) : OneClaim (Cs104Slave.create n size) := by
  intro i j c d hc _ hclaim _
  rw [eq_create hc] at hclaim
  rcases hclaim with hstate | hpc
  · cases hstate
  · cases hpc

theorem swept_create (n : Nat) (size : QueueSize) : Swept (Cs104Slave.create n size) := by
  intro i j c d since next hc hpc
  rw [eq_create hc] at hpc
  cases hpc

theorem locked_of_sweeping (hc : s.connections[i]? = some c) (h : c.pc.sweeping = true) :
    s.locked = true :=
  List.any_eq_true.mpr ⟨c, List.mem_of_getElem? hc, h⟩

theorem slaveStep_sweep {since next : Nat} (hc : s.connections[i]? = some c)
    (hpc : c.pc = .deactivateOthers since next) (env : Environment) :
    (slaveStep p s (.thread i env)).connections = deactivateNext i since next s.connections := by
  rw [slaveStep, hc]
  simp only [hpc]

/-- The connection that the loop comes to is not started behind that. -/
theorem deactivateNext_not_started {d : MasterConnection} {since next : Nat}
    (hfree : FreeStopped s) (hij : next ≠ i)
    (hd : (deactivateNext i since next s.connections)[next]? = some d) : d.state ≠ .started := by
  rw [deactivateNext, List.getElem?_mapIdx] at hd
  obtain ⟨d₀, hd₀, rfl⟩ := Option.map_eq_some_iff.mp hd
  rw [if_neg hij]
  split
  · exact ConnectionState.noConfusion
  · next hunused => exact hfree next d₀ hd₀ (Bool.eq_false_of_not_eq_true fun h => hunused ⟨rfl, h⟩)

theorem Swept.step (h : Swept s) (hfree : FreeStopped s) (halone : StartsAlone s op) :
    Swept (slaveStep p s op) := by
  intro i j c' d' since next hc' hpc' hd' hji
  obtain ⟨c, hc, hcmove⟩ := slaveStep_move hc'
  obtain ⟨d, hd, hdmove⟩ := slaveStep_move hd'
  -- the thread was in the loop before, at `next'`
  have hbefore (next' : Nat) (hpc : c.pc = .deactivateOthers since next') :
      d'.pc.sweeping = false ∧ d'.pc.activating = false ∧ (j < next' → d'.state ≠ .started) := by
    obtain ⟨hsweeping, hactivating, hstarted⟩ := h i j c d since next' hc hpc hd hji
    have hlocked := locked_of_sweeping hc (by rw [hpc]; rfl)
    refine ⟨Bool.eq_false_of_not_eq_true fun h' => ?_, Bool.eq_false_of_not_eq_true fun h' => ?_,
      fun hlt h' => ?_⟩
    · rcases hdmove.sweeping h' with hd | ⟨hunlocked, -⟩
      · simp [hsweeping] at hd
      · simp [hlocked] at hunlocked
    · rcases hdmove.activating h' with hd | ⟨_, _, _, -, hd, -⟩
      · simp [hactivating] at hd
      · simp [hd, ConnectionPc.sweeping] at hsweeping
    · rcases hdmove.started h' with hd | hd
      · exact hstarted hlt hd
      · simp [hactivating] at hd
  cases hcmove with
  | same | closed | deactivated => exact hbefore next hpc'
  | opened now => cases hpc'
  | released => exact hbefore next ((pc_release c).symm.trans hpc')
  | step queue env hop hsweepFree =>
    have hnot := (threadStep_not_ahead (p := p) hsweepFree queue env).1
    rw [hpc'] at hnot
    cases hnot
  | sweep env hop hstep =>
    subst hop
    generalize hpc : c.pc = pc at hstep
    cases hstep with
    | done hle => cases hpc'
    | next hlt =>
      cases hpc'
      obtain ⟨hsweeping, hactivating, hstarted⟩ := hbefore _ hpc
      refine ⟨hsweeping, hactivating, fun hj => ?_⟩
      rcases Nat.lt_succ_iff_lt_or_eq.mp hj with hlt' | rfl
      · exact hstarted hlt'
      · rw [slaveStep_sweep hc hpc] at hd'
        exact deactivateNext_not_started hfree hji hd'
    | lock hunlocked =>
      cases hpc'
      have hnone : d.pc.sweeping = false := Bool.eq_false_of_not_eq_true fun hd' => by
        rw [locked_of_sweeping hd hd'] at hunlocked
        cases hunlocked
      refine ⟨Bool.eq_false_of_not_eq_true fun h' => ?_, Bool.eq_false_of_not_eq_true fun h' => ?_,
        fun hj => absurd hj (Nat.not_lt_zero j)⟩
      · rcases hdmove.sweeping h' with hd | ⟨-, env', hop⟩
        · simp [hnone] at hd
        · cases hop
          exact hji rfl
      · rcases hdmove.activating h' with hactivating | ⟨_, _, _, -, hd, -⟩
        · have hlt := (List.getElem?_eq_some_iff.mp hd).1
          simp [halone c hc (by rw [hpc]; rfl) j hlt hji d hd] at hactivating
        · simp [hd, ConnectionPc.sweeping] at hnone

/-- A move gives the active role only to a connection that had claimed it, apart from the end of
the loop over the others. -/
theorem ConnectionMove.claims (hmove : ConnectionMove p s op j c c') (h : Claims c') :
    Claims c ∨ ∃ env since next, op = .thread j env ∧ c.pc = .deactivateOthers since next ∧
      s.connections.length ≤ next := by
  rcases h with hstarted | hactivating
  · exact .inl (hmove.started hstarted)
  · exact (hmove.activating hactivating).imp_left .inr

theorem OneClaim.step (h : OneClaim s) (hswept : Swept s) : OneClaim (slaveStep p s op) := by
  intro i j c' d' hc' hd' hclaim hclaim'
  obtain ⟨c, hc, hcmove⟩ := slaveStep_move hc'
  obtain ⟨d, hd, hdmove⟩ := slaveStep_move hd'
  by_contra hij
  -- at the end of the loop no other connection has a claim
  have halone {a b : Nat} {e f : MasterConnection} {since next : Nat} (hab : b ≠ a)
      (he : s.connections[a]? = some e) (hpc : e.pc = .deactivateOthers since next)
      (hle : s.connections.length ≤ next) (hf : s.connections[b]? = some f) : ¬ Claims f := by
    obtain ⟨-, hactivating, hstarted⟩ := hswept a b e f since next he hpc hf hab
    have hlt := (List.getElem?_eq_some_iff.mp hf).1
    rintro (hstate | hpc)
    · exact hstarted (Nat.lt_of_lt_of_le hlt hle) hstate
    · simp [hactivating] at hpc
  rcases hcmove.claims hclaim with hcbefore | ⟨env, since, next, hop, hpc, hle⟩
  · rcases hdmove.claims hclaim' with hdbefore | ⟨env, since, next, hop, hpc, hle⟩
    · exact hij (h i j c d hc hd hcbefore hdbefore)
    · exact halone hij hd hpc hle hc hcbefore
  · rcases hdmove.claims hclaim' with hdbefore | ⟨env', since', next', hop', -⟩
    · exact halone (Ne.symm hij) hc hpc hle hd hdbefore
    · cases hop.symm.trans hop'
      exact hij rfl

/-- At most one connection is started, as long as no thread begins to activate its connection while
another one is about to. -/
theorem one_connection_started (p : ApciParameters) (n : Nat)
    (highPrioMaxQueueSize : QueueSize) (ops : List SlaveOp)
    (halone : Run.Guarded StartsAlone (slaveStep p) (Cs104Slave.create n highPrioMaxQueueSize) ops)
    (i j : Nat) (c d : MasterConnection)
    (hc : (Run.exec (slaveStep p) (Cs104Slave.create n highPrioMaxQueueSize) ops).connections[i]? =
      some c)
    (hd : (Run.exec (slaveStep p) (Cs104Slave.create n highPrioMaxQueueSize) ops).connections[j]? =
      some d) (hstarted : c.state = .started) (hstarted' : d.state = .started) : i = j := by
  have hone := Run.guarded_induction
    (I := fun _ t => OneClaim t ∧ Swept t ∧
      ∀ (i : Nat) c, t.connections[i]? = some c → SlotOk p.k (fun _ => True) c)
    ⟨oneClaim_create n _, swept_create n _, fun i c hc => eq_create hc ▸ slotOk_create p.k⟩
    (fun past t op hok ⟨hclaim, hswept, hslots⟩ => by
      have hfree : FreeStopped t := fun i c hc hfree => ((hslots i c hc).free hfree).2.2
      refine ⟨hclaim.step hswept, hswept.step hfree hok, ?_⟩
      intro i c' hc'
      obtain ⟨c, hc, hmove⟩ := slaveStep_move hc'
      exact (hslots i c hc).move trivial (fun env _ => keptAt_true env.now) hmove) halone
  exact hone.1 i j c d hc hd (.inl hstarted) (.inl hstarted')

/-- The states of the connections. -/
def Cs104Slave.states (s : Cs104Slave) : List ConnectionState := s.connections.map (·.state)

/-- Two masters start their connections, the steps of the two threads in the order `order`. -/
def twoStarts (order : List Nat) : List SlaveOp :=
  let env : Environment := ⟨0, .frame [0x68, 0x04, 0x07, 0x00, 0x00, 0x00] 6, none, true, 6, 6⟩
  [.accept 0, .accept 0] ++ order.map fun i => .thread i env

/-- The second master starts when the first one has. -/
def oneAfterTheOther : List Nat := List.replicate 7 0 ++ List.replicate 7 1

theorem one_connection_started_second :
    (Run.exec (slaveStep startedParameters) (Cs104Slave.create 2 oneAsdu)
      (twoStarts oneAfterTheOther)).states = [.unconfirmedStopped, .started] ∧
    ∀ i c, (Run.exec (slaveStep startedParameters) (Cs104Slave.create 2 oneAsdu)
        (twoStarts oneAfterTheOther)).connections[i]? = some c →
      c.state = .started → i = 1 := by
  have hstates : (Run.exec (slaveStep startedParameters) (Cs104Slave.create 2 oneAsdu)
      (twoStarts oneAfterTheOther)).states = [.unconfirmedStopped, .started] := by
    decide +kernel
  refine ⟨hstates, fun i c hc hstarted => ?_⟩
  have hsecond : (Run.exec (slaveStep startedParameters) (Cs104Slave.create 2 oneAsdu)
      (twoStarts oneAfterTheOther)).connections[1]?.map (·.state) = some .started := by
    rw [← List.getElem?_map]
    exact congrArg (·[1]?) hstates
  obtain ⟨d, hd, hstarted'⟩ := Option.map_eq_some_iff.mp hsecond
  exact one_connection_started startedParameters 2 _ _ (by decide +kernel) i 1 c d hc hd hstarted
    hstarted'

/-- If both threads run their loops first, both connections are started. -/
theorem two_connections_started :
    (Run.exec (slaveStep startedParameters) (Cs104Slave.create 2 oneAsdu)
      (twoStarts (List.replicate 6 0 ++ List.replicate 7 1 ++ [0]))).states =
        [.started, .started] := by
  decide +kernel

/-! ## Waiting ASDUs -/

/-- The call of the queue that a step makes. -/
def queueCall (p : ApciParameters) (s : Cs104Slave) : SlaveOp → Option AsduQueueOp
  | .accept _ =>
    if s.locked = false ∧ s.connections.any (!·.isUsed) = true then some .reset else none
  | .enqueue asdu => some (.enqueue asdu)
  | .thread i env => s.connections[i]?.bind fun c => (c.threadStep p s.queue.queue env).2
  | _ => none

/-- The step puts an ASDU into the queue that overruns. -/
def OverrunIn (p : ApciParameters) (s : Cs104Slave) (op : SlaveOp) : Prop :=
  ∃ call ∈ queueCall p s op, s.queue.OverrunBy call

instance (p : ApciParameters) (s : Cs104Slave) (op : SlaveOp) : Decidable (OverrunIn p s op) :=
  inferInstanceAs (Decidable (∃ _ ∈ _, _))

/-- The ASDUs that connection `i` took since the queue was last emptied. -/
def Cs104Slave.carriedBy (s : Cs104Slave) (i : Nat) : List (List UInt8) :=
  (s.carried.filter (·.1 == i)).map (·.2)

/-- What was taken from the queue was taken by the connections, and a running connection has sent
what it took. -/
structure CarriedOk (s : Cs104Slave) : Prop where
  taken : s.carried.map (·.2) = s.queue.taken
  sent : ∀ (i : Nat) c, s.connections[i]? = some c → c.isRunning = true →
    s.carriedBy i <:+ queuedPayloads c.log

theorem slaveStep_queue (op : SlaveOp) :
    (slaveStep p s op).queue =
      match queueCall p s op with
      | none => s.queue
      | some call => asduQueueStep s.queue call := by
  cases op with
  | accept now =>
    rw [slaveStep, queueCall]
    split
    · next hlocked => simp [hlocked]
    next hunlocked =>
    split
    · next hnone =>
      rw [if_neg]
      intro ⟨_, hany⟩
      obtain ⟨c, hc, hfree⟩ := List.any_eq_true.mp hany
      exact absurd hfree (by simpa using List.findIdx?_eq_none_iff.mp hnone c hc)
    · next i hsome =>
      obtain ⟨hlt, hfree, -⟩ := List.findIdx?_eq_some_iff_getElem.mp hsome
      rw [if_pos ⟨Bool.eq_false_of_not_eq_true hunlocked,
        List.any_eq_true.mpr ⟨_, List.getElem_mem hlt, hfree⟩⟩]
      rfl
  | free i | close i =>
    rw [slaveStep]
    split <;> rfl
  | enqueue asdu => rfl
  | thread i env =>
    rw [slaveStep, queueCall]
    split
    · next hnone => rw [hnone]; rfl
    next c hc =>
    rw [hc, Option.bind_some]
    split
    · next since hpc =>
      rw [MasterConnection.threadStep, hpc]
      dsimp only
      split <;> rfl
    · next since next hpc => rw [MasterConnection.threadStep, hpc]
    · dsimp only
      cases (c.threadStep p s.queue.queue env).2 <;> rfl

/-- A move of another thread keeps what a connection has sent. -/
theorem CarriedOk.of_mild {t : Cs104Slave} (h : CarriedOk s) (hcarried : t.carried = s.carried)
    (htaken : t.queue.taken = s.queue.taken)
    (hmild : ∀ (i : Nat) c', t.connections[i]? = some c' →
      ∃ c, s.connections[i]? = some c ∧ (c'.isRunning = true → c.isRunning = true) ∧
        (c'.isRunning = true → queuedPayloads c'.log = queuedPayloads c.log)) : CarriedOk t := by
  refine ⟨by rw [hcarried, htaken, h.taken], fun i c' hc' hrunning => ?_⟩
  obtain ⟨c, hc, hstays, hqueued⟩ := hmild i c' hc'
  rw [Cs104Slave.carriedBy, hcarried, hqueued hrunning]
  exact h.sent i c hc (hstays hrunning)

theorem carriedBy_callQueue_getNext (s : Cs104Slave) (i j : Nat) :
    (s.callQueue i .getNext).carriedBy j =
      s.carriedBy j ++ if i = j then takenFrom s.queue.queue (some .getNext) else [] := by
  have hmap : (takenFrom s.queue.queue (some .getNext)).map (fun asdu => (i, asdu)) =
      (((s.queue.queue.bind (·.getNextAsdu)).bind (·.2)).toList).map (i, ·) := rfl
  rw [Cs104Slave.carriedBy, Cs104Slave.callQueue, ← hmap, List.filter_append, List.map_append]
  congr 1
  by_cases hij : i = j <;> simp [hij, List.filter_map, Function.comp_def]

theorem carriedOk_create (n : Nat) (size : QueueSize) : CarriedOk (Cs104Slave.create n size) :=
  ⟨rfl, fun _ _ _ _ => List.nil_suffix⟩

theorem CarriedOk.reset (s : Cs104Slave) (i : Nat) : CarriedOk (s.callQueue i .reset) :=
  ⟨rfl, fun _ _ _ _ => List.nil_suffix⟩

/-- The thread of connection `i` takes a step. -/
theorem CarriedOk.thread (h : CarriedOk s) (hc : s.connections[i]? = some c) (env : Environment) :
    CarriedOk (s.afterThread i (c.threadStep p s.queue.queue env).1
      (c.threadStep p s.queue.queue env).2) := by
  have hsummary := threadStep_summary (p := p) c s.queue.queue env
  generalize (c.threadStep p s.queue.queue env).1 = c' at hsummary ⊢
  generalize (c.threadStep p s.queue.queue env).2 = call at hsummary ⊢
  -- connection `j` after the step, with what it has sent
  have hafter {j : Nat} {d : MasterConnection} (hd : (s.connections.set i c')[j]? = some d) :
      ∃ d₀, s.connections[j]? = some d₀ ∧ (d.isRunning = true → d₀.isRunning = true) ∧
        (d.isRunning = true → queuedPayloads d.log =
          queuedPayloads d₀.log ++ if i = j then takenFrom s.queue.queue call else []) := by
    rw [List.getElem?_set] at hd
    split at hd
    · next hij =>
      subst hij
      split at hd <;> cases hd
      refine ⟨c, hc, hsummary.running, fun hrunning => ?_⟩
      rw [if_pos rfl]
      exact hsummary.queued hrunning
    · next hij => exact ⟨d, hd, id, fun _ => by rw [if_neg hij, List.append_nil]⟩
  have hnothing (hnone : takenFrom s.queue.queue call = []) (t : Cs104Slave)
      (hconnections : t.connections = s.connections.set i c') (hcarried : t.carried = s.carried)
      (htaken : t.queue.taken = s.queue.taken) : CarriedOk t := by
    refine h.of_mild hcarried htaken fun j d hd => ?_
    rw [hconnections] at hd
    obtain ⟨d₀, hd₀, hstays, hqueued⟩ := hafter hd
    refine ⟨d₀, hd₀, hstays, fun hrunning => ?_⟩
    rw [hqueued hrunning, hnone, ite_self, List.append_nil]
  cases call with
  | none => exact hnothing rfl _ rfl rfl rfl
  | some op =>
    cases op with
    | enqueue asdu => exact hnothing rfl _ rfl rfl rfl
    | reset => exact CarriedOk.reset _ i
    | getNext =>
      rw [Cs104Slave.afterThread]
      refine ⟨?_, fun j d hd hrunning => ?_⟩
      · have htaken := h.taken
        simp [Cs104Slave.callQueue, asduQueueStep, htaken, List.map_map, Function.comp_def]
      · obtain ⟨d₀, hd₀, hstays, hqueued⟩ := hafter hd
        obtain ⟨before, hbefore⟩ := h.sent j d₀ hd₀ (hstays hrunning)
        rw [carriedBy_callQueue_getNext, hqueued hrunning, ← hbefore]
        exact ⟨before, (List.append_assoc _ _ _).symm⟩

theorem CarriedOk.step (h : CarriedOk s) (op : SlaveOp) : CarriedOk (slaveStep p s op) := by
  have hmodify {i : Nat} {f : MasterConnection → MasterConnection}
      (hf : ∀ d, (f d).isRunning = true →
        d.isRunning = true ∧ queuedPayloads (f d).log = queuedPayloads d.log) :
      CarriedOk { s with connections := s.connections.modify i f } := by
    refine h.of_mild rfl rfl fun j d hd => ?_
    rw [List.getElem?_modify] at hd
    obtain ⟨d₀, hd₀, rfl⟩ := Option.map_eq_some_iff.mp hd
    refine ⟨d₀, hd₀, ?_⟩
    by_cases hij : i = j
    · rw [if_pos hij]
      exact ⟨fun hrunning => (hf d₀ hrunning).1, fun hrunning => (hf d₀ hrunning).2⟩
    · rw [if_neg hij]
      exact ⟨id, fun _ => rfl⟩
  cases op with
  | accept now =>
    rw [slaveStep]
    split
    · exact h
    split
    · exact h
    · exact CarriedOk.reset _ _
  | free i =>
    rw [slaveStep]
    split
    · exact h
    refine hmodify fun d hrunning => ?_
    rw [release] at hrunning ⊢
    split at hrunning
    · next hend => exact ⟨hrunning, by rw [if_pos hend]⟩
    · next hend => exact ⟨hrunning, by rw [if_neg hend]⟩
  | close i =>
    rw [slaveStep]
    split
    · exact h
    · exact hmodify fun d hrunning => Bool.noConfusion hrunning
  | enqueue asdu => exact h.of_mild rfl rfl fun i d hd => ⟨d, hd, id, fun _ => rfl⟩
  | thread i env =>
    rw [slaveStep]
    split
    · exact h
    next c hc =>
    split
    · next since hpc =>
      split
      · exact h
      refine h.of_mild rfl rfl fun j d hd => ?_
      rw [List.getElem?_set] at hd
      split at hd
      · next hij =>
        subst hij
        split at hd <;> cases hd
        exact ⟨c, hc, id, fun _ => rfl⟩
      · exact ⟨d, hd, id, fun _ => rfl⟩
    · refine h.of_mild rfl rfl fun j d hd => ?_
      rw [deactivateNext, List.getElem?_mapIdx] at hd
      obtain ⟨d₀, hd₀, rfl⟩ := Option.map_eq_some_iff.mp hd
      refine ⟨d₀, hd₀, ?_⟩
      split
      · exact ⟨id, fun _ => rfl⟩
      split
      · exact ⟨id, fun _ => (mild_record { d₀ with state := .unconfirmedStopped } rfl).queued⟩
      · exact ⟨id, fun _ => rfl⟩
    · exact h.thread hc env

/-- As long as no ASDU overruns the queue, whatever the order of the steps of all threads: the ASDUs
accepted since the queue was last emptied are those that the connections took and then those that
are waiting, in the order in which they were accepted, and a running connection has sent the ones
that it took, as its last frames from the queue. -/
theorem accepted_asdus_are_carried (p : ApciParameters) (n : Nat)
    (highPrioMaxQueueSize : QueueSize) (ops : List SlaveOp)
    (hroom : Run.Guarded (fun s op => ¬ OverrunIn p s op) (slaveStep p)
      (Cs104Slave.create n highPrioMaxQueueSize) ops) :
    let s := Run.exec (slaveStep p) (Cs104Slave.create n highPrioMaxQueueSize) ops
    ∃ q waiting, s.queue.queue = some q ∧ q.Represents waiting ∧
      s.queue.accepted = s.carried.map (·.2) ++ waiting ∧
      ∀ i c, s.connections[i]? = some c → c.isRunning = true →
        s.carriedBy i <:+ queuedPayloads c.log := by
  have hrun := Run.guarded_induction (I := fun _ t => t.queue.InOrder ∧ CarriedOk t)
    ⟨⟨_, [], rfl, HighPriorityAsduQueue.initialize_represents highPrioMaxQueueSize, rfl⟩,
      carriedOk_create n _⟩
    (fun _ t op hok ⟨horder, hcarried⟩ => by
      refine ⟨?_, hcarried.step op⟩
      rw [slaveStep_queue]
      split
      · exact horder
      · next call hcall =>
        exact (asduQueueStep_inOrder_iff horder call).mpr fun hover => hok ⟨call, hcall, hover⟩)
    hroom
  obtain ⟨⟨q, waiting, hqueue, hrepresents, haccepted⟩, hcarried⟩ := hrun
  exact ⟨q, waiting, hqueue, hrepresents, by rw [hcarried.taken, haccepted], hcarried.sent⟩

theorem accepted_asdus_are_carried_started :
    let s := Run.exec (slaveStep startedParameters) (Cs104Slave.create 1 oneAsdu) startedOps
    s.carried = [(0, [1, 2])] ∧
    ∃ q waiting, s.queue.queue = some q ∧ q.Represents waiting ∧
      s.queue.accepted = s.carried.map (·.2) ++ waiting ∧
      ∀ i c, s.connections[i]? = some c → c.isRunning = true →
        s.carriedBy i <:+ queuedPayloads c.log :=
  ⟨by decide +kernel,
    accepted_asdus_are_carried startedParameters 1 oneAsdu startedOps (by decide +kernel)⟩

end Iec104Slave
