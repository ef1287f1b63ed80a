import Iec104Slave.Session
import Iec104Slave.WorkQueue
import Mathlib.Data.List.FinRange

/-!
# Client slots and connection threads

lib60870 calls `connection_event_handler` and the request handlers from the thread of each
connection. A handler looks for its slot (`get_free_client`, `get_client_for_connection`) and
then works on the slot it found. These are two steps, and nothing keeps the threads of
other connections out between them.

The steps of all threads, of the workers that pop, and of the scheduler that posts uploads are
interleaved in any order. A connection object may serve one session after another.

Result: `slots_owned_iff`: every open connection has its own slot exactly as long as no
connection is bound to a slot that another one was bound to since it was found free.
-/

namespace Iec104Slave

/-! ## The state -/

/-- A work message, with the session of the connection that posted it; the uploads of the
scheduler have none. -/
structure SlotMsg where
  msg : Iec104WorkMsg
  session : Option Nat
deriving DecidableEq, Inhabited

def SlotMsg.type (m : SlotMsg) : Iec104MsgType := m.msg.type

/-- The events of an open connection. -/
inductive ConnEvent
  | request (msg : Iec104WorkMsg)
  | activated
  | deactivated
  | closed
deriving DecidableEq

/-- Where the thread of a connection is: not running, in the OPENED handler behind
`get_free_client`, between two events, or in a handler behind `get_client_for_connection`. -/
inductive ConnPc (n : Nat)
  | closed
  | opening (slot : Option (Fin n))
  | ready
  | handling (event : ConnEvent) (slot : Option (Fin n))
deriving DecidableEq

/-- The slots of a server with `client_count = n`, and the connections with the sessions
they serve. `live` lists the connections that are not closed. -/
structure ServerState (n : Nat) where
  clients : Fin n → ClientContext SlotMsg
  pc : Nat → ConnPc n
  session : Nat → Nat
  nextSession : Nat
  live : List Nat

variable {n : Nat}

def ServerState.start (n : Nat) : ServerState n where
  clients := fun _ => clientContextStart (clientContextInit clientQueueCapacity)
  pc := fun _ => .closed
  session := fun _ => 0
  nextSession := 0
  live := []

def getClientForConnection {μ : Type} (clients : Fin n → ClientContext μ) (connection : Nat) :
    Option (Fin n) :=
  (List.finRange n).find? fun i => (clients i).connection == some connection

def getFreeClient {μ : Type} (clients : Fin n → ClientContext μ) : Option (Fin n) :=
  (List.finRange n).find? fun i => !(clients i).connected

/-! ## Steps -/

/-- `opened` and `event` start a handler and look for its slot, `bind` and `finish` do the
rest. -/
inductive ServerOp (n : Nat)
  | opened (connection : Nat)
  | bind (connection : Nat)
  | event (connection : Nat) (event : ConnEvent)
  | finish (connection : Nat)
  | upload (slot : Fin n) (msg : Iec104WorkMsg)
  | pop (slot : Fin n)

/-- The work on the slot that was found, if there is one. -/
def onClient (clients : Fin n → ClientContext SlotMsg) (slot : Option (Fin n))
    (work : ClientContext SlotMsg → ClientContext SlotMsg) : Fin n → ClientContext SlotMsg :=
  match slot with
  | none => clients
  | some i => Function.update clients i (work (clients i))

def ConnEvent.work (session : Nat) (ctx : ClientContext SlotMsg) :
    ConnEvent → ClientContext SlotMsg
  | .request msg => (clientContextPost SlotMsg.type ctx ⟨msg, some session⟩ true).1
  | .activated => { ctx with started := true }
  | .deactivated => { ctx with started := false }
  | .closed => clientContextCloseConnection ctx

/-- At most `client_count` connections are open: another one is not accepted. The scheduler
tests a client before it posts, but the post may come at any time after the test. -/
def serverStep (s : ServerState n) : ServerOp n → ServerState n
  | .opened connection =>
    if s.pc connection = .closed ∧ s.live.length < n then
      { s with
        pc := Function.update s.pc connection (.opening (getFreeClient s.clients))
        session := Function.update s.session connection s.nextSession
        nextSession := s.nextSession + 1
        live := connection :: s.live }
    else s
  | .bind connection =>
    match s.pc connection with
    | .opening slot =>
      { s with
        clients := onClient s.clients slot fun ctx => clientContextBindConnection ctx connection
        pc := Function.update s.pc connection .ready }
    | _ => s
  | .event connection event =>
    match s.pc connection with
    | .ready =>
      { s with
        pc := Function.update s.pc connection
          (.handling event (getClientForConnection s.clients connection)) }
    | _ => s
  | .finish connection =>
    match s.pc connection with
    | .handling event slot =>
      let clients := onClient s.clients slot fun ctx => event.work (s.session connection) ctx
      if event = .closed then
        { s with
          clients := clients
          pc := Function.update s.pc connection .closed
          live := s.live.erase connection }
      else { s with clients := clients, pc := Function.update s.pc connection .ready }
    | _ => s
  | .upload slot msg =>
    { s with
      clients := onClient s.clients (some slot) fun ctx =>
        (clientContextPost SlotMsg.type ctx ⟨msg, none⟩ false).1 }
  | .pop slot =>
    { s with clients := onClient s.clients (some slot) fun ctx => (queuePop ctx).1 }

/-! ## Ownership -/

/-- The OPENED handler of the connection has finished, its CLOSED handler has not started. -/
def ServerState.Established (s : ServerState n) (connection : Nat) : Prop :=
  s.pc connection = .ready ∨
    ∃ event slot, s.pc connection = .handling event slot ∧ event ≠ .closed

/-- Every established connection is bound to exactly one slot. -/
def ServerState.Owned (s : ServerState n) : Prop :=
  ∀ connection, s.Established connection → ∃! i, (s.clients i).connection = some connection

/-- A bind does not replace the binding of a connection that is open, and a request is popped
under the session that posted it. -/
def KeepsOwner (s : ServerState n) : ServerOp n → Prop
  | .bind connection => ∀ i other, s.pc connection = .opening (some i) →
      (s.clients i).connection = some other → s.pc other = .closed
  | .pop i => ∀ m session, (queuePop (s.clients i)).2 = some m → m.session = some session →
      ∃ connection, (s.clients i).connection = some connection ∧ s.session connection = session
  | _ => True

/-- The slot that a connection found free is still free when it is bound. -/
def BindsFree (s : ServerState n) : ServerOp n → Prop
  | .bind connection => ∀ i, s.pc connection = .opening (some i) → (s.clients i).connected = false
  | _ => True

namespace ClientSlotsLemmas

open ClientContextLemmas WorkQueueLemmas

/-- The OPENED handler has bound the connection, and its CLOSED handler has not finished. -/
def Attached : ConnPc n → Prop
  | .ready => True
  | .handling _ _ => True
  | _ => False

/-- What holds in every reachable state. -/
structure ServerInv (s : ServerState n) : Prop where
  started : ∀ i, Started clientQueueCapacity (s.clients i)
  connected : ∀ i, (s.clients i).connected = (s.clients i).connection.isSome
  unique : ∀ i j c, (s.clients i).connection = some c → (s.clients j).connection = some c → i = j
  attached : ∀ i c, (s.clients i).connection = some c → Attached (s.pc c)
  found : ∀ c slot, s.pc c = .opening slot → ∃ i, slot = some i
  closing : ∀ c slot i, s.pc c = .handling .closed slot → (s.clients i).connection = some c →
    slot = some i
  live : ∀ c, c ∈ s.live ↔ s.pc c ≠ .closed
  nodup : s.live.Nodup

/-- What holds as long as only free slots are bound. -/
structure OwnerInv (s : ServerState n) : Prop where
  ready : ∀ c, s.pc c = .ready → ∃ i, (s.clients i).connection = some c
  handling : ∀ c event slot, s.pc c = .handling event slot →
    ∃ i, slot = some i ∧ (s.clients i).connection = some c
  queue : ∀ i, ∀ m ∈ (s.clients i).queued, ∀ session, m.session = some session →
    ∃ c, (s.clients i).connection = some c ∧ s.session c = session

variable {s : ServerState n}

/-! ### What a step can do -/

inductive Move (s : ServerState n) : ServerOp n → ServerState n → Prop
  | stay (op : ServerOp n) : Move s op s
  | opened {c : Nat} (hclosed : s.pc c = .closed) (hroom : s.live.length < n) :
      Move s (.opened c)
        { s with
          pc := Function.update s.pc c (.opening (getFreeClient s.clients))
          session := Function.update s.session c s.nextSession
          nextSession := s.nextSession + 1
          live := c :: s.live }
  | bind {c : Nat} {slot : Option (Fin n)} (hpc : s.pc c = .opening slot) :
      Move s (.bind c)
        { s with
          clients := onClient s.clients slot fun ctx => clientContextBindConnection ctx c
          pc := Function.update s.pc c .ready }
  | event {c : Nat} {event : ConnEvent} (hpc : s.pc c = .ready) :
      Move s (.event c event)
        { s with
          pc := Function.update s.pc c (.handling event (getClientForConnection s.clients c)) }
  | finish {c : Nat} {event : ConnEvent} {slot : Option (Fin n)}
      (hpc : s.pc c = .handling event slot) (hopen : event ≠ .closed) :
      Move s (.finish c)
        { s with
          clients := onClient s.clients slot fun ctx => event.work (s.session c) ctx
          pc := Function.update s.pc c .ready }
  | close {c : Nat} {slot : Option (Fin n)} (hpc : s.pc c = .handling .closed slot) :
      Move s (.finish c)
        { s with
          clients := onClient s.clients slot clientContextCloseConnection
          pc := Function.update s.pc c .closed
          live := s.live.erase c }
  | upload {slot : Fin n} {msg : Iec104WorkMsg} :
      Move s (.upload slot msg)
        { s with
          clients := onClient s.clients (some slot) fun ctx =>
            (clientContextPost SlotMsg.type ctx ⟨msg, none⟩ false).1 }
  | pop {slot : Fin n} :
      Move s (.pop slot)
        { s with clients := onClient s.clients (some slot) fun ctx => (queuePop ctx).1 }

theorem move (s : ServerState n) (op : ServerOp n) : Move s op (serverStep s op) := by
  cases op with
  | opened c =>
    by_cases hopen : s.pc c = .closed ∧ s.live.length < n
    · rw [serverStep, if_pos hopen]
      exact .opened hopen.1 hopen.2
    · rw [serverStep, if_neg hopen]
      exact .stay _
  | bind c =>
    simp only [serverStep]
    split
    · next slot hpc => exact .bind hpc
    · exact .stay _
  | event c event =>
    simp only [serverStep]
    split
    · next hpc => exact .event hpc
    · exact .stay _
  | finish c =>
    simp only [serverStep]
    split
    · next event slot hpc =>
      by_cases hclosed : event = .closed
      · subst hclosed
        exact .close hpc
      · rw [if_neg hclosed]
        exact .finish hpc hclosed
    · exact .stay _
  | upload slot msg => exact .upload
  | pop slot => exact .pop

/-- After the counter of one connection has moved, a counter that reads otherwise than its new
value is that of another connection. -/
theorem pc_of_update {pc : Nat → ConnPc n} {c d : Nat} {new old : ConnPc n}
    (h : Function.update pc c new d = old) (hne : new ≠ old) : d ≠ c ∧ pc d = old := by
  have hd : d ≠ c := by
    intro hd
    subst hd
    exact hne (Function.update_self d new pc ▸ h)
  exact ⟨hd, Function.update_of_ne hd new pc ▸ h⟩

/-! ### Looking for a slot -/

theorem onClient_apply (clients : Fin n → ClientContext SlotMsg) (slot : Option (Fin n))
    (work : ClientContext SlotMsg → ClientContext SlotMsg) (j : Fin n) :
    onClient clients slot work j = if slot = some j then work (clients j) else clients j := by
  cases slot with
  | none => rfl
  | some i =>
    by_cases h : i = j
    · subst h
      rw [if_pos rfl]
      exact Function.update_self i _ clients
    · rw [if_neg fun heq => h (Option.some_inj.mp heq)]
      exact Function.update_of_ne (Ne.symm h) _ clients

/-- What every slot has, and the work leaves behind, every slot has afterwards. -/
theorem onClient_forall {clients : Fin n → ClientContext SlotMsg} (slot : Option (Fin n))
    (work : ClientContext SlotMsg → ClientContext SlotMsg) {P : ClientContext SlotMsg → Prop}
    (h : ∀ i, P (clients i)) (hwork : ∀ i, P (work (clients i))) (i : Fin n) :
    P (onClient clients slot work i) := by
  rw [onClient_apply]
  split
  · exact hwork i
  · exact h i

theorem getClient_some {i : Fin n} {c : Nat} (h : getClientForConnection s.clients c = some i) :
    (s.clients i).connection = some c := by
  have hfound := List.find?_some h
  simpa using hfound

theorem getClient_eq (h : ServerInv s) {i : Fin n} {c : Nat}
    (hi : (s.clients i).connection = some c) : getClientForConnection s.clients c = some i := by
  cases hfind : getClientForConnection s.clients c with
  | none =>
    have hnone := List.find?_eq_none.mp hfind i (List.mem_finRange i)
    simp [hi] at hnone
  | some j => rw [h.unique j i c (getClient_some hfind) hi]

/-- While fewer than `client_count` connections are open there is a free slot: the others have
different connections. -/
theorem getFree_some (h : ServerInv s) (hroom : s.live.length < n) :
    ∃ i, getFreeClient s.clients = some i := by
  cases hfind : getFreeClient s.clients with
  | some i => exact ⟨i, rfl⟩
  | none =>
    have hbound : ∀ i, ∃ c, (s.clients i).connection = some c := by
      intro i
      have hconnected := List.find?_eq_none.mp hfind i (List.mem_finRange i)
      rw [h.connected, Bool.not_eq_true', Bool.not_eq_false] at hconnected
      exact Option.isSome_iff_exists.mp hconnected
    choose owner howner using hbound
    have hnodup : ((List.finRange n).map owner).Nodup := by
      refine (List.nodup_finRange n).map fun i j hij => ?_
      exact h.unique i j (owner i) (howner i) (hij ▸ howner j)
    have hsub : (List.finRange n).map owner ⊆ s.live := by
      intro c hc
      obtain ⟨i, _, rfl⟩ := List.mem_map.mp hc
      refine (h.live _).mpr fun hclosed => ?_
      have hattached := h.attached i _ (howner i)
      rw [hclosed] at hattached
      exact hattached
    have hlen := (List.subperm_of_subset hnodup hsub).length_le
    rw [List.length_map, List.length_finRange] at hlen
    exact absurd hroom (Nat.not_lt.mpr hlen)

/-! ### Work that leaves the binding -/

/-- A started context with the binding of another one. -/
structure SameBinding (ctx ctx' : ClientContext SlotMsg) : Prop where
  started : Started clientQueueCapacity ctx'
  connection : ctx'.connection = ctx.connection
  connected : ctx'.connected = ctx.connected

variable {ctx : ClientContext SlotMsg}

theorem sameBinding_post (h : Started clientQueueCapacity ctx) (m : SlotMsg)
    (highPriority : Bool) :
    SameBinding ctx (clientContextPost SlotMsg.type ctx m highPriority).1 := by
  have hstarted : Started clientQueueCapacity
      (contextStep SlotMsg.type ctx (.post m highPriority)) := (started_step h _).1
  obtain ⟨_, _, _, _, hframe⟩ := push_frame SlotMsg.type ctx m highPriority
  rw [← post_eq_push h.worker] at hframe
  refine ⟨hstarted, ?_, ?_⟩
  · rw [hframe]
  · rw [hframe]

theorem sameBinding_pop (h : Started clientQueueCapacity ctx) :
    SameBinding ctx (queuePop ctx).1 := by
  have hstarted : Started clientQueueCapacity (contextStep SlotMsg.type ctx .pop) :=
    (started_step h _).1
  obtain ⟨_, _, hframe⟩ := pop_frame ctx
  refine ⟨hstarted, ?_, ?_⟩
  · rw [hframe]
  · rw [hframe]

theorem sameBinding_work (h : Started clientQueueCapacity ctx) (session : Nat)
    {event : ConnEvent} (hopen : event ≠ .closed) : SameBinding ctx (event.work session ctx) := by
  have hrep := h.represents
  cases event with
  | request msg => exact sameBinding_post h _ _
  | activated => exact ⟨⟨⟨hrep.holds, hrep.count, hrep.tail⟩, h.worker, h.capacity⟩, rfl, rfl⟩
  | deactivated => exact ⟨⟨⟨hrep.holds, hrep.count, hrep.tail⟩, h.worker, h.capacity⟩, rfl, rfl⟩
  | closed => exact absurd rfl hopen

theorem sameBinding_onClient {clients : Fin n → ClientContext SlotMsg} (slot : Option (Fin n))
    (work : ClientContext SlotMsg → ClientContext SlotMsg)
    (hstarted : ∀ i, Started clientQueueCapacity (clients i))
    (hwork : ∀ i, SameBinding (clients i) (work (clients i))) (i : Fin n) :
    SameBinding (clients i) (onClient clients slot work i) := by
  rw [onClient_apply]
  split
  · exact hwork i
  · exact ⟨hstarted i, rfl, rfl⟩

/-! ### Every reachable state -/

theorem not_attached_closed {c : Nat} (h : s.pc c = .closed) : ¬Attached (s.pc c) := by
  rw [h]
  exact id

theorem not_attached_opening {c : Nat} {slot : Option (Fin n)} (h : s.pc c = .opening slot) :
    ¬Attached (s.pc c) := by
  rw [h]
  exact id

theorem serverInv_start (n : Nat) : ServerInv (ServerState.start n) where
  started := fun _ => started_init (by decide)
  connected := fun _ => rfl
  unique := fun i j c h => by cases h
  attached := fun i c h => by cases h
  found := fun c slot h => by cases h
  closing := fun c slot i h => by cases h
  live := fun c => by simp [ServerState.start]
  nodup := List.nodup_nil

/-- Work on the slots that leaves the bindings as they are. -/
theorem serverInv_clients (h : ServerInv s) {clients : Fin n → ClientContext SlotMsg}
    (hsame : ∀ i, SameBinding (s.clients i) (clients i)) :
    ServerInv { s with clients := clients } where
  started := fun i => (hsame i).started
  connected := fun i => by
    rw [(hsame i).connection, (hsame i).connected]
    exact h.connected i
  unique := fun i j c hi hj =>
    h.unique i j c ((hsame i).connection ▸ hi) ((hsame j).connection ▸ hj)
  attached := fun i c hi => h.attached i c ((hsame i).connection ▸ hi)
  found := h.found
  closing := fun c slot i hpc hi => h.closing c slot i hpc ((hsame i).connection ▸ hi)
  live := h.live
  nodup := h.nodup

/-- A connection between two events, or at the start of one. -/
theorem serverInv_pc (h : ServerInv s) {c : Nat} {pc : ConnPc n} (hbefore : Attached (s.pc c))
    (hafter : Attached pc) (hclosing : ∀ slot i, pc = .handling .closed slot →
      (s.clients i).connection = some c → slot = some i) :
    ServerInv { s with pc := Function.update s.pc c pc } where
  started := h.started
  connected := h.connected
  unique := h.unique
  attached := fun i d hi => by
    by_cases hd : d = c
    · subst hd
      simpa using hafter
    · simpa [hd] using h.attached i d hi
  found := fun d slot hpc => by
    refine h.found d slot (pc_of_update hpc fun heq => ?_).2
    rw [heq] at hafter
    exact hafter
  closing := fun d slot i hpc hi => by
    by_cases hd : d = c
    · subst hd
      exact hclosing slot i (by simpa using hpc) hi
    · exact h.closing d slot i (by simpa [hd] using hpc) hi
  live := fun d => by
    by_cases hd : d = c
    · subst hd
      have hlive : s.pc d ≠ .closed := fun hclosed => not_attached_closed hclosed hbefore
      have hpc : pc ≠ .closed := fun hclosed => by rw [hclosed] at hafter; exact hafter
      simpa [hpc] using (h.live d).mpr hlive
    · simpa [hd] using h.live d
  nodup := h.nodup

theorem serverInv_opened (h : ServerInv s) {c : Nat} (hclosed : s.pc c = .closed)
    (hroom : s.live.length < n) :
    ServerInv { s with
      pc := Function.update s.pc c (.opening (getFreeClient s.clients))
      session := Function.update s.session c s.nextSession
      nextSession := s.nextSession + 1
      live := c :: s.live } := by
  have hne : ∀ i d, (s.clients i).connection = some d → d ≠ c := by
    intro i d hi hd
    exact not_attached_closed hclosed (hd ▸ h.attached i d hi)
  refine ⟨h.started, h.connected, h.unique, ?_, ?_, ?_, ?_, ?_⟩
  · intro i d hi
    simpa [hne i d hi] using h.attached i d hi
  · intro d slot hpc
    by_cases hd : d = c
    · subst hd
      rw [← show getFreeClient s.clients = slot by simpa using hpc]
      exact getFree_some h hroom
    · exact h.found d slot (by simpa [hd] using hpc)
  · intro d slot i hpc hi
    exact h.closing d slot i (pc_of_update hpc (by simp)).2 hi
  · intro d
    by_cases hd : d = c
    · simp [hd]
    · simpa [hd] using h.live d
  · have hnew : c ∉ s.live := fun hc => (h.live c).mp hc hclosed
    exact List.nodup_cons.mpr ⟨hnew, h.nodup⟩

theorem serverInv_bind (h : ServerInv s) {c : Nat} {i : Fin n} (hpc : s.pc c = .opening (some i)) :
    ServerInv { s with
      clients := onClient s.clients (some i) fun ctx => clientContextBindConnection ctx c
      pc := Function.update s.pc c .ready } := by
  -- the connection is bound to no slot so far
  have hne : ∀ j d, (s.clients j).connection = some d → d ≠ c := by
    intro j d hj hd
    exact not_attached_opening hpc (hd ▸ h.attached j d hj)
  have hbound : ∀ j d, (onClient s.clients (some i)
      (fun ctx => clientContextBindConnection ctx c) j).connection = some d →
      j = i ∧ d = c ∨ j ≠ i ∧ d ≠ c ∧ (s.clients j).connection = some d := by
    intro j d hj
    rw [onClient_apply] at hj
    by_cases hji : j = i
    · subst hji
      rw [if_pos rfl] at hj
      exact .inl ⟨rfl, (Option.some_inj.mp hj).symm⟩
    · rw [if_neg fun heq => hji (Option.some_inj.mp heq).symm] at hj
      exact .inr ⟨hji, hne j d hj, hj⟩
  refine ⟨?_, ?_, ?_, ?_, ?_, ?_, ?_, h.nodup⟩
  · refine onClient_forall (some i) (clientContextBindConnection · c) h.started fun j => ?_
    exact started_reset (by decide) (h.started j).worker (h.started j).capacity _ _
  · exact onClient_forall (some i) (clientContextBindConnection · c)
      (P := fun ctx => ctx.connected = ctx.connection.isSome) h.connected fun _ => rfl
  · intro j k d hj hk
    rcases hbound j d hj with ⟨hji, hdc⟩ | ⟨_, hdc, hj⟩
    · rcases hbound k d hk with ⟨hki, _⟩ | ⟨_, hdc', _⟩
      · rw [hji, hki]
      · exact absurd hdc hdc'
    · rcases hbound k d hk with ⟨_, hdc'⟩ | ⟨_, _, hk⟩
      · exact absurd hdc' hdc
      · exact h.unique j k d hj hk
  · intro j d hj
    rcases hbound j d hj with ⟨_, rfl⟩ | ⟨_, hdc, hj⟩
    · simp [Attached]
    · simpa [hdc] using h.attached j d hj
  · intro d slot hd
    exact h.found d slot (pc_of_update hd (by simp)).2
  · intro d slot j hd hj
    obtain ⟨hdc, hd⟩ := pc_of_update hd (by simp)
    rcases hbound j d hj with ⟨_, heq⟩ | ⟨_, _, hj⟩
    · exact absurd heq hdc
    · exact h.closing d slot j hd hj
  · intro d
    by_cases hdc : d = c
    · subst hdc
      simpa using (h.live d).mpr (by simp [hpc])
    · simpa [hdc] using h.live d

theorem serverInv_close (h : ServerInv s) {c : Nat} {slot : Option (Fin n)}
    (hpc : s.pc c = .handling .closed slot) :
    ServerInv { s with
      clients := onClient s.clients slot clientContextCloseConnection
      pc := Function.update s.pc c .closed
      live := s.live.erase c } := by
  -- the slot that was found is the only one that may be bound to the connection
  have hbound : ∀ j d, (onClient s.clients slot clientContextCloseConnection j).connection =
      some d → d ≠ c ∧ (s.clients j).connection = some d := by
    intro j d hj
    rw [onClient_apply] at hj
    split at hj
    · cases hj
    · next hslot =>
      refine ⟨fun hdc => hslot ?_, hj⟩
      exact h.closing c slot j hpc (hdc ▸ hj)
  refine ⟨?_, ?_, ?_, ?_, ?_, ?_, ?_, h.nodup.erase c⟩
  · refine onClient_forall slot clientContextCloseConnection h.started fun j => ?_
    exact started_reset (by decide) (h.started j).worker (h.started j).capacity _ _
  · exact onClient_forall slot clientContextCloseConnection
      (P := fun ctx => ctx.connected = ctx.connection.isSome) h.connected fun _ => rfl
  · intro j k d hj hk
    exact h.unique j k d (hbound j d hj).2 (hbound k d hk).2
  · intro j d hj
    obtain ⟨hdc, hj⟩ := hbound j d hj
    simpa [hdc] using h.attached j d hj
  · intro d slot' hd
    exact h.found d slot' (pc_of_update hd (by simp)).2
  · intro d slot' j hd hj
    exact h.closing d slot' j (pc_of_update hd (by simp)).2 (hbound j d hj).2
  · intro d
    by_cases hdc : d = c
    · subst hdc
      simp [h.nodup.not_mem_erase]
    · simpa [hdc, List.mem_erase_of_ne hdc] using h.live d

theorem serverInv_move (h : ServerInv s) {op : ServerOp n} {t : ServerState n}
    (hmove : Move s op t) : ServerInv t := by
  cases hmove with
  | stay => exact h
  | opened hclosed hroom => exact serverInv_opened h hclosed hroom
  | bind hpc =>
    obtain ⟨i, rfl⟩ := h.found _ _ hpc
    exact serverInv_bind h hpc
  | @event c event hpc =>
    refine serverInv_pc h (by rw [hpc]; trivial) trivial fun slot i heq hi => ?_
    cases heq
    exact getClient_eq h hi
  | @finish c event slot hpc hopen =>
    have hclients := serverInv_clients h (sameBinding_onClient slot
      (fun ctx => event.work (s.session c) ctx) h.started fun i =>
        sameBinding_work (h.started i) (s.session c) hopen)
    refine serverInv_pc hclients ?_ trivial fun slot i heq => by cases heq
    show Attached (s.pc c)
    rw [hpc]
    trivial
  | close hpc => exact serverInv_close h hpc
  | upload =>
    exact serverInv_clients h (sameBinding_onClient _ _ h.started fun i =>
      sameBinding_post (h.started i) _ _)
  | pop =>
    exact serverInv_clients h (sameBinding_onClient _ _ h.started fun i =>
      sameBinding_pop (h.started i))

theorem serverInv_exec (ops : List (ServerOp n)) :
    ServerInv (Run.exec serverStep (ServerState.start n) ops) :=
  Run.exec_induction (I := fun _ => ServerInv) (serverInv_start n)
    (fun _ t op h => serverInv_move h (move t op)) ops

/-! ### As long as free slots are bound -/

theorem mem_queued_post (h : Started clientQueueCapacity ctx) {m m' : SlotMsg}
    {highPriority : Bool}
    (hm : m' ∈ (clientContextPost SlotMsg.type ctx m highPriority).1.queued) :
    m' ∈ ctx.queued ∨ m' = m := by
  rw [post_eq_push h.worker,
    queued_eq (push_refines SlotMsg.type h.represents m highPriority).2] at hm
  exact mem_dequePush hm

theorem mem_queued_pop (h : Started clientQueueCapacity ctx) {m : SlotMsg}
    (hm : m ∈ (queuePop ctx).1.queued) : m ∈ ctx.queued := by
  rw [queued_eq (pop_refines h.represents).2] at hm
  exact List.mem_of_mem_tail hm

/-- Work that adds no message but one of the session of the connection. -/
theorem ownerInv_clients (hs : ServerInv s) (h : OwnerInv s) (slot : Option (Fin n))
    (work : ClientContext SlotMsg → ClientContext SlotMsg)
    (hwork : ∀ i, SameBinding (s.clients i) (work (s.clients i)))
    (hqueue : ∀ i, slot = some i → ∀ m ∈ (work (s.clients i)).queued, ∀ session,
      m.session = some session → m ∈ (s.clients i).queued ∨
        ∃ c, (s.clients i).connection = some c ∧ s.session c = session) :
    OwnerInv { s with clients := onClient s.clients slot work } := by
  have hsame := sameBinding_onClient slot work hs.started hwork
  refine ⟨?_, ?_, ?_⟩
  · intro c hpc
    obtain ⟨i, hi⟩ := h.ready c hpc
    exact ⟨i, (hsame i).connection.trans hi⟩
  · intro c event slot' hpc
    obtain ⟨i, hslot, hi⟩ := h.handling c event slot' hpc
    exact ⟨i, hslot, (hsame i).connection.trans hi⟩
  · intro i m hm session hsession
    dsimp only at hm ⊢
    rw [(hsame i).connection]
    rw [onClient_apply] at hm
    split at hm
    · next hslot =>
      rcases hqueue i hslot m hm session hsession with hm | howner
      · exact h.queue i m hm session hsession
      · exact howner
    · exact h.queue i m hm session hsession

theorem ownerInv_opened (hs : ServerInv s) (h : OwnerInv s) {c : Nat} (hclosed : s.pc c = .closed) :
    OwnerInv { s with
      pc := Function.update s.pc c (.opening (getFreeClient s.clients))
      session := Function.update s.session c s.nextSession
      nextSession := s.nextSession + 1
      live := c :: s.live } := by
  refine ⟨?_, ?_, ?_⟩
  · intro d hpc
    exact h.ready d (pc_of_update hpc (by simp)).2
  · intro d event slot hpc
    exact h.handling d event slot (pc_of_update hpc (by simp)).2
  · intro i m hm session hsession
    obtain ⟨d, hd, hserved⟩ := h.queue i m hm session hsession
    have hne : d ≠ c := fun heq => not_attached_closed hclosed (heq ▸ hs.attached i d hd)
    exact ⟨d, hd, by simpa [hne] using hserved⟩

theorem ownerInv_bind (hs : ServerInv s) (h : OwnerInv s) {c : Nat} {i : Fin n}
    (hfree : (s.clients i).connected = false) :
    OwnerInv { s with
      clients := onClient s.clients (some i) fun ctx => clientContextBindConnection ctx c
      pc := Function.update s.pc c .ready } := by
  have hnone : (s.clients i).connection = none := by
    rw [hs.connected] at hfree
    simpa using hfree
  have hbound : (onClient s.clients (some i)
      (fun ctx => clientContextBindConnection ctx c) i).connection = some c := by
    rw [onClient_apply, if_pos rfl]
    rfl
  -- a slot that was bound is another one
  have hother : ∀ j d, (s.clients j).connection = some d → (onClient s.clients (some i)
      (fun ctx => clientContextBindConnection ctx c) j).connection = some d := by
    intro j d hj
    rw [onClient_apply, if_neg]
    · exact hj
    · intro heq
      rw [← Option.some_inj.mp heq, hnone] at hj
      cases hj
  refine ⟨?_, ?_, ?_⟩
  · intro d hpc
    by_cases hd : d = c
    · exact ⟨i, hd ▸ hbound⟩
    · obtain ⟨j, hj⟩ := h.ready d (by simpa [hd] using hpc)
      exact ⟨j, hother j d hj⟩
  · intro d event slot hpc
    obtain ⟨j, hslot, hj⟩ := h.handling d event slot (pc_of_update hpc (by simp)).2
    exact ⟨j, hslot, hother j d hj⟩
  · intro j m hm session hsession
    dsimp only at hm ⊢
    by_cases hij : i = j
    · subst hij
      rw [onClient_apply, if_pos rfl] at hm
      cases hm
    · have hsame : onClient s.clients (some i)
          (fun ctx => clientContextBindConnection ctx c) j = s.clients j := by
        rw [onClient_apply, if_neg fun heq => hij (Option.some_inj.mp heq)]
      rw [hsame] at hm ⊢
      exact h.queue j m hm session hsession

theorem ownerInv_event (h : OwnerInv s) (hs : ServerInv s) {c : Nat} {event : ConnEvent}
    (hpc : s.pc c = .ready) :
    OwnerInv { s with
      pc := Function.update s.pc c
        (.handling event (getClientForConnection s.clients c)) } := by
  obtain ⟨i, hi⟩ := h.ready c hpc
  refine ⟨?_, ?_, h.queue⟩
  · intro d hd
    exact h.ready d (pc_of_update hd (by simp)).2
  · intro d event' slot hd
    by_cases hdc : d = c
    · subst hdc
      refine ⟨i, ?_, hi⟩
      rw [← getClient_eq hs hi]
      simp at hd
      exact hd.2.symm
    · exact h.handling d event' slot (by simpa [hdc] using hd)

theorem ownerInv_ready (h : OwnerInv s) {c : Nat} {i : Fin n}
    (hi : (s.clients i).connection = some c) :
    OwnerInv { s with pc := Function.update s.pc c .ready } := by
  refine ⟨?_, ?_, h.queue⟩
  · intro d hd
    by_cases hdc : d = c
    · exact ⟨i, hdc ▸ hi⟩
    · exact h.ready d (by simpa [hdc] using hd)
  · intro d event slot hd
    exact h.handling d event slot (pc_of_update hd (by simp)).2

theorem ownerInv_close (h : OwnerInv s) {c : Nat} {i : Fin n}
    (hi : (s.clients i).connection = some c) :
    OwnerInv { s with
      clients := onClient s.clients (some i) clientContextCloseConnection
      pc := Function.update s.pc c .closed
      live := s.live.erase c } := by
  have hother : ∀ j d, d ≠ c → (s.clients j).connection = some d →
      (onClient s.clients (some i) clientContextCloseConnection j).connection = some d := by
    intro j d hdc hj
    rw [onClient_apply, if_neg]
    · exact hj
    · intro heq
      rw [← Option.some_inj.mp heq, hi] at hj
      exact hdc (Option.some_inj.mp hj).symm
  refine ⟨?_, ?_, ?_⟩
  · intro d hd
    obtain ⟨hdc, hd⟩ := pc_of_update hd (by simp)
    obtain ⟨j, hj⟩ := h.ready d hd
    exact ⟨j, hother j d hdc hj⟩
  · intro d event slot hd
    obtain ⟨hdc, hd⟩ := pc_of_update hd (by simp)
    obtain ⟨j, hslot, hj⟩ := h.handling d event slot hd
    exact ⟨j, hslot, hother j d hdc hj⟩
  · intro j m hm session hsession
    dsimp only at hm ⊢
    rw [onClient_apply] at hm ⊢
    split at hm
    · cases hm
    · next hij =>
      rw [if_neg hij]
      exact h.queue j m hm session hsession

theorem mem_queued_work {session : Nat} {event : ConnEvent} (hopen : event ≠ .closed)
    (h : Started clientQueueCapacity ctx) {m : SlotMsg}
    (hm : m ∈ (event.work session ctx).queued) : m ∈ ctx.queued ∨ m.session = some session := by
  cases event with
  | request msg =>
    refine (mem_queued_post h hm).imp_right fun heq => ?_
    rw [heq]
  | activated => exact .inl hm
  | deactivated => exact .inl hm
  | closed => exact absurd rfl hopen

theorem ownerInv_move (hs : ServerInv s) (h : OwnerInv s) {op : ServerOp n} {t : ServerState n}
    (hfree : BindsFree s op) (hmove : Move s op t) : OwnerInv t := by
  cases hmove with
  | stay => exact h
  | opened hclosed hroom => exact ownerInv_opened hs h hclosed
  | bind hpc =>
    obtain ⟨i, rfl⟩ := hs.found _ _ hpc
    exact ownerInv_bind hs h (hfree i hpc)
  | event hpc => exact ownerInv_event h hs hpc
  | @finish c event slot hpc hopen =>
    obtain ⟨i, rfl, hi⟩ := h.handling c event slot hpc
    have hwork : ∀ j, SameBinding (s.clients j) (event.work (s.session c) (s.clients j)) :=
      fun j => sameBinding_work (hs.started j) (s.session c) hopen
    have hclients := ownerInv_clients hs h (some i) (fun ctx => event.work (s.session c) ctx)
      hwork ?_
    · refine ownerInv_ready hclients (i := i) ?_
      exact (sameBinding_onClient (some i) _ hs.started hwork i).connection.trans hi
    · intro j hj m hm session hsession
      cases hj
      refine (mem_queued_work hopen (hs.started i) hm).imp_right fun hposted => ?_
      exact ⟨c, hi, Option.some_inj.mp (hposted.symm.trans hsession)⟩
  | close hpc =>
    obtain ⟨i, rfl, hi⟩ := h.handling _ _ _ hpc
    exact ownerInv_close h hi
  | upload =>
    refine ownerInv_clients hs h _ _ (fun i => sameBinding_post (hs.started i) _ _) ?_
    intro i _ m hm session hsession
    rcases mem_queued_post (hs.started i) hm with hm | rfl
    · exact .inl hm
    · cases hsession
  | pop =>
    refine ownerInv_clients hs h _ _ (fun i => sameBinding_pop (hs.started i)) ?_
    intro i _ m hm session _
    exact .inl (mem_queued_pop (hs.started i) hm)

theorem ownerInv_start (n : Nat) : OwnerInv (ServerState.start n) where
  ready := fun c h => by cases h
  handling := fun c event slot h => by cases h
  queue := fun i m hm => by cases hm

/-! ### Ownership -/

theorem owned_of_inv (hs : ServerInv s) (h : OwnerInv s) : s.Owned := by
  intro c hc
  have hbound : ∃ i, (s.clients i).connection = some c := by
    rcases hc with hpc | ⟨event, slot, hpc, _⟩
    · exact h.ready c hpc
    · obtain ⟨i, _, hi⟩ := h.handling c event slot hpc
      exact ⟨i, hi⟩
  obtain ⟨i, hi⟩ := hbound
  exact ⟨i, hi, fun j hj => hs.unique j i c hj hi⟩

theorem keepsOwner_of_inv (hs : ServerInv s) (h : OwnerInv s) {op : ServerOp n}
    (hfree : BindsFree s op) : KeepsOwner s op := by
  cases op with
  | bind c =>
    intro i other hpc hother
    have hconnected := hfree i hpc
    rw [hs.connected, hother] at hconnected
    cases hconnected
  | pop i =>
    intro m session hm
    rw [(pop_refines (hs.started i).represents).1] at hm
    exact h.queue i m (List.mem_of_mem_head? hm) session
  | opened c => trivial
  | event c event => trivial
  | finish c => trivial
  | upload i msg => trivial

/-- A slot that is connected is bound to an open connection. -/
theorem bindsFree_of_keepsOwner (hs : ServerInv s) {op : ServerOp n} (h : KeepsOwner s op) :
    BindsFree s op := by
  cases op with
  | bind c =>
    intro i hpc
    rw [hs.connected]
    cases hother : (s.clients i).connection with
    | none => rfl
    | some other =>
      exact absurd (hs.attached i other hother) (not_attached_closed (h i other hpc hother))
  | pop i => trivial
  | opened c => trivial
  | event c event => trivial
  | finish c => trivial
  | upload i msg => trivial

end ClientSlotsLemmas

open ClientSlotsLemmas

/-- For any interleaving: every established connection keeps exactly one slot, no binding of an
open connection is replaced and every request is popped under its own connection, exactly if
every bind finds its slot still free. -/
theorem slots_owned_iff (n : Nat) (ops : List (ServerOp n)) :
    (∀ past op rest, ops = past ++ op :: rest →
      KeepsOwner (Run.exec serverStep (.start n) past) op ∧
        (Run.exec serverStep (.start n) (past ++ [op])).Owned) ↔
      Run.Guarded BindsFree serverStep (.start n) ops := by
  constructor
  · intro h past op rest hsplit
    exact bindsFree_of_keepsOwner (serverInv_exec past) (h past op rest hsplit).1
  · intro h past op rest hsplit
    have hfree := h past op rest hsplit
    have howner : OwnerInv (Run.exec serverStep (.start n) past) := by
      rw [hsplit] at h
      exact (Run.guarded_induction (I := fun _ t => ServerInv t ∧ OwnerInv t)
        ⟨serverInv_start n, ownerInv_start n⟩ (fun _ t op hok ht =>
          ⟨serverInv_move ht.1 (move t op), ownerInv_move ht.1 ht.2 hok (move t op)⟩) h.left).2
    refine ⟨keepsOwner_of_inv (serverInv_exec past) howner hfree, ?_⟩
    rw [Run.exec_append]
    refine owned_of_inv (serverInv_move (serverInv_exec past) (move _ op)) ?_
    exact ownerInv_move (serverInv_exec past) howner hfree (move _ op)

/-- Two connections open at the same time and find the same slot. The first one is bound and has
found the slot for a request when the second one is bound. -/
def sameSlotRun : List (ServerOp 2) :=
  [.opened 1, .opened 2, .bind 1, .event 1 (.request { type := .totalCall }), .bind 2, .finish 1]

/-- The second bind replaces an open binding, the first connection is left without a slot, and
its request is popped under the second one. -/
theorem second_bind_takes_slot :
    ¬KeepsOwner (Run.exec serverStep (.start 2) (sameSlotRun.take 4)) (.bind 2) ∧
      ¬(Run.exec serverStep (.start 2) sameSlotRun).Owned ∧
      ¬KeepsOwner (Run.exec serverStep (.start 2) sameSlotRun) (.pop 0) := by
  refine ⟨fun h => ?_, fun h => ?_, fun h => ?_⟩
  · exact absurd (h 0 1 (by decide) (by decide)) (by decide)
  · obtain ⟨i, hi, _⟩ := h 1 (.inl (by decide))
    revert i
    decide +kernel
  · obtain ⟨c, hc, hsession⟩ := h ⟨{ type := .totalCall }, some 0⟩ 0 (by decide +kernel) rfl
    have hbound : ((Run.exec serverStep (.start 2) sameSlotRun).clients 0).connection = some 2 := by
      decide +kernel
    rw [← Option.some_inj.mp (hbound.symm.trans hc)] at hsession
    exact absurd hsession (by decide +kernel)

end Iec104Slave
