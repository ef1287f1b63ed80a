import Iec104Slave.Lib.Semaphores
import Mathlib.Data.Fintype.Sum
import Mathlib.Data.List.FinRange
import Mathlib.Tactic.DeriveFintype

/-!
# The locks of the slave (`cs104_slave.c`)

What the threads do with the semaphores of the slave: the thread of every connection, the server
thread, the main thread, which stops the slave, and the other threads of the application, which use
the queues of the clients and put ASDUs into the queue of the slave, and which the main thread joins
before it stops the slave. `isRunning` of a connection is a flag: the server thread waits for the
end of a connection thread if the flag is cleared, and it has `openConnectionsLock` then. A
connection thread takes this lock when it handles a STARTDT.

The slave has `n` connections, and the application has `m` clients and `q` threads. Whether a slot
is used and whether a connection is started is left open, so a thread may do more here than in the
source. Left out are the wait of a worker for an entry of its queue, and the locks of the point
table, the upload area and the histories: no thread has one of them and waits for a lock of the
slave, or the other way round.

Results:
1. `slave_locks_exclude`: all locks but the state locks of the connections have one holder at most.
   A state lock gets one permit more with every STOPDT, since `handleMessage` posts it twice.
2. `slave_never_deadlocks`: behind every thread that waits there is one that can go on. The wait of
   the server thread is safe since only the connection thread itself clears its flag as long as the
   server thread runs, and it does not come to a STARTDT any more after that.
-/

namespace Iec104Slave

open Semaphores

inductive SlaveLock (n m : Nat)
  | openConnections
  | sentAsdus (c : Fin n)
  | state (c : Fin n)
  | highPrioQueue
  | lowPrioQueue
  | slaveState
  | clientQueue (i : Fin m)
deriving DecidableEq

inductive SlaveThread (n q : Nat)
  | server
  | main
  | connection (c : Fin n)
  | application (i : Fin q)
deriving DecidableEq, Fintype

variable {n m q : Nat}

/-- The flag of a connection is `isRunning`. -/
abbrev SlaveCode (n m q : Nat) := Script (SlaveLock n m) (Fin n) (SlaveThread n q)

namespace SlaveCode

open Script SlaveLock

/-- A section without other operations on locks. -/
def guarded (l : SlaveLock n m) : SlaveCode n m q := locked l skip

def perhaps (a : SlaveCode n m q) : SlaveCode n m q := either a skip

/-! ## The queues and the clients -/

/-- `HighPriorityASDUQueue_enqueue`, and so `IMasterConnection_sendASDU`: an ASDU that is too large
is refused at once. -/
def enqueue : SlaveCode n m q := perhaps (guarded highPrioQueue)

/-- `client_context_bind_connection`, `client_context_close_connection`, `client_context_post` and
`queue_pop`, of some of the clients. -/
def useClients : SlaveCode n m q :=
  each (List.finRange m) fun i => perhaps (guarded (clientQueue i))

/-! ## Sending -/

variable (c : Fin n)

/-- A write to the socket ends the connection if it fails. -/
def write : SlaveCode n m q := perhaps (clear c)

def sendIMessage : SlaveCode n m q := locked (state c) (write c)

/-- `sendASDUInternal`: with a full window the ASDU goes into the queue, or it is dropped. -/
def sendAsduInternal : SlaveCode n m q :=
  seq (guarded (state c)) <| perhaps <|
    either (locked (sentAsdus c) (sendIMessage c)) (seq (guarded (sentAsdus c)) (perhaps enqueue))

/-- `sendNextHighPriorityASDU` and `sendNextLowPriorityASDU`. -/
def sendNext (queue : SlaveLock n m) : SlaveCode n m q :=
  locked (sentAsdus c) <| perhaps <| seq (guarded queue) (perhaps (sendIMessage c))

def sendWaitingAsdus : SlaveCode n m q :=
  seq (guarded highPrioQueue) <|
    either
      (seq (sendNext c highPrioQueue) <| perhaps <| seq (guarded (state c)) <| perhaps <|
        seq (guarded highPrioQueue) (perhaps (guarded lowPrioQueue)))
      (seq (guarded lowPrioQueue) <| seq (perhaps (sendNext c lowPrioQueue)) (guarded lowPrioQueue))

/-! ## Receiving -/

/-- `checkSequenceNumber`; entries of the low-priority queue are marked as confirmed. -/
def checkSequenceNumber : SlaveCode n m q :=
  locked (sentAsdus c) (loop none (guarded lowPrioQueue))

/-- `handleASDU`, with the handlers of the application. -/
def handleAsdu : SlaveCode n m q :=
  loop none (either useClients (either enqueue (sendAsduInternal c)))

/-- An I frame. The connection is closed where the code ends early. -/
def handleIFrame : SlaveCode n m q :=
  seq (guarded (state c)) <| perhaps <| seq (guarded (state c)) <| perhaps <|
    seq (checkSequenceNumber c) <| perhaps <| seq (guarded (state c)) <|
      seq (guarded (state c)) <| perhaps (handleAsdu c)

/-- `CS104_Slave_activate`. -/
def activate : SlaveCode n m q :=
  seq
    (locked openConnections <| each (List.finRange n) fun d =>
      if d = c then skip else perhaps (guarded (state d)))
    (guarded (state c))

def handleStartdt : SlaveCode n m q := seq (activate c) (guarded highPrioQueue)

/-- A STOPDT: `MasterConnection_deactivate`, a section in which received messages are confirmed, and
one more post of its lock. -/
def handleStopdt : SlaveCode n m q :=
  seq (guarded (state c)) <| seq (locked (state c) (write c)) (post (state c))

/-- `handleMessage`; a TESTFR or an unknown frame is the last case. -/
def handleMessage : SlaveCode n m q :=
  seq
    (either (handleIFrame c) <| either (handleStartdt c) <| either (handleStopdt c) <|
      either (checkSequenceNumber c) <| perhaps (guarded (state c)))
    (perhaps (guarded (state c)))

def handleTimeouts : SlaveCode n m q :=
  seq (guarded (state c)) <| seq (perhaps (locked (state c) (write c))) <|
    seq (locked (state c) (write c)) (guarded (sentAsdus c))

/-! ## The threads -/

/-- One round of the loop of `connectionHandlingThread`. -/
def connectionRound : SlaveCode n m q :=
  seq
    (perhaps <| seq (handleMessage c) <|
      seq (perhaps (locked (state c) (clear c))) (locked (state c) (write c))) <|
  seq (handleTimeouts c) <| seq (perhaps (locked (state c) (clear c))) <|
    seq (guarded (state c)) <| perhaps <| seq (guarded (state c)) <| perhaps (sendWaitingAsdus c)

/-- `connectionHandlingThread`. `MasterConnection_isRunning` reads the flag with the state lock. -/
def connectionHandlingThread : List (SlaveCode n m q) :=
  [guarded (state c), useClients, wait (state c),
    loop (some c) (seq (post (state c)) (seq (connectionRound c) (wait (state c)))),
    post (state c), useClients, locked (state c) (clear c), guarded lowPrioQueue]

/-- `getFreeConnection` and `MasterConnection_init` with `openConnectionsLock`, and then
`MasterConnection_start`. The flag of a free connection is cleared already, and its last thread has
been joined, so that the code for these two cases does nothing. -/
def acceptConnection : SlaveCode n m q :=
  seq
    (locked openConnections <|
      seq (each (List.finRange n) fun d => perhaps (guarded (state d))) <|
        seq (each (List.finRange n) fun d => perhaps (guarded (state d)))
          (perhaps (guarded highPrioQueue)))
    (each (List.finRange n) fun d => perhaps (spawn d (.connection d)))

/-- The thread of a connection that is not running any more is joined. -/
def freeConnection (d : Fin n) : SlaveCode n m q :=
  seq (guarded (state d)) <| perhaps <| seq (guarded (state d)) <| perhaps <|
    seq (perhaps <| seq (join (some d) (.connection d) [openConnections]) (guarded (state d)))
      (guarded (state d))

/-- The body of the loop of `serverThread`. -/
def serverRound : SlaveCode n m q :=
  seq (guarded slaveState) <|
    seq (perhaps <| seq (perhaps (guarded openConnections)) (perhaps acceptConnection))
      (locked openConnections (each (List.finRange n) freeConnection))

/-- `serverThread` ends at once if there is no socket. -/
def serverThread : List (SlaveCode n m q) :=
  [guarded slaveState, perhaps <| seq (loop none serverRound) <|
    seq (guarded slaveState) (guarded slaveState)]

/-- The body of the loop of `CS104_Slave_stop`. -/
def closeConnection (d : Fin n) : SlaveCode n m q :=
  seq (wait openConnections) <| seq (guarded (state d)) <|
    seq
      (perhaps <| seq (locked (state d) (clear d)) <|
        perhaps <| seq (post openConnections) <| seq (join none (.connection d) [])
          (wait openConnections))
      (post openConnections)

/-- The end of `iec104_server_stop` and `iec104_server_destroy`: `CS104_Slave_stop` after its loop
that waits for the server thread to leave its own, and then once more in `CS104_Slave_destroy`,
where the server thread is not there any more. -/
def stopRest : List (SlaveCode n m q) :=
  [join none .server [], each (List.finRange n) closeConnection,
    guarded slaveState, each (List.finRange n) closeConnection]

/-- `CS104_Slave_start` and calls of `CS104_Slave_isRunning`, the joins of the application threads
in `iec104_server_stop`, and `CS104_Slave_stop`. -/
def mainThread : List (SlaveCode n m q) :=
  [loop none (guarded slaveState), each (List.finRange q) fun i => join none (.application i) [],
    loop none (guarded slaveState)] ++ stopRest

/-- Workers, the scheduler and the diagnosis server. None of them writes to a socket. -/
def applicationThread : List (SlaveCode n m q) := [loop none (either useClients enqueue)]

end SlaveCode

open SlaveCode

def slaveThreads (n m q : Nat) : SlaveThread n q → List (SlaveCode n m q)
  | .server => serverThread
  | .main => mainThread
  | .connection c => connectionHandlingThread c
  | .application _ => applicationThread

abbrev SlaveWorld (n m q : Nat) := World (SlaveLock n m) (Fin n) (SlaveThread n q)

/-- There is no connection at the beginning. -/
def slaveBegin (n m q : Nat) : SlaveWorld n m q :=
  World.start (slaveThreads n m q) fun
    | .connection _ => false
    | _ => true

/-- The slave after a run. Each step names the thread that takes it, and a choice for what the code
leaves open. -/
def slaveRun (ops : List (SlaveThread n q × Bool)) : SlaveWorld n m q :=
  Run.exec (step (slaveThreads n m q)) (slaveBegin n m q) ops

/-! ## The order of the locks -/

/-- Rank 2 is the place where the server thread waits for a connection thread. -/
def SlaveLock.rank : SlaveLock n m → Nat
  | .openConnections => 1
  | .sentAsdus _ => 3
  | .state _ => 4
  | .highPrioQueue | .lowPrioQueue | .clientQueue _ => 5
  | .slaveState => 6

/-- A state lock is posted by a thread that does not have it. -/
def SlaveLock.Loose (l : SlaveLock n m) : Prop := ∃ c, l = .state c

namespace SlaveCode

open Script SlaveLock

variable {c : Fin n} {h : List (SlaveLock n m)} {a : SlaveCode n m q}

/-- In order at a place where the thread has `h`. -/
abbrev Fits (a : SlaveCode n m q) (h : List (SlaveLock n m)) : Prop := a.Balanced rank Loose h

theorem Fits.perhaps (ha : Fits a h) : Fits (perhaps a) h := .either ha .skip

theorem fits_guarded {l : SlaveLock n m} (hl : ∀ x ∈ h, x.rank < l.rank) :
    Fits (guarded l : SlaveCode n m q) h :=
  .locked hl .skip

theorem fits_useClients : Fits (useClients : SlaveCode n m q) [] :=
  .each fun _ _ => (fits_guarded (by simp)).perhaps

theorem fits_enqueue : Fits (enqueue : SlaveCode n m q) [] := (fits_guarded (by simp)).perhaps

theorem fits_sendIMessage (hh : ∀ x ∈ h, x.rank < 4) : Fits (sendIMessage c : SlaveCode n m q) h :=
  .locked hh (Fits.perhaps .clear)

theorem fits_sendAsduInternal : Fits (sendAsduInternal c : SlaveCode n m q) [] :=
  .seq (fits_guarded (by simp)) <| Fits.perhaps <|
    .either (.locked (by simp) (fits_sendIMessage (by simp [rank])))
      (.seq (fits_guarded (by simp)) fits_enqueue.perhaps)

theorem fits_sendNext {queue : SlaveLock n m} (hqueue : 3 < queue.rank) :
    Fits (sendNext c queue : SlaveCode n m q) [] :=
  .locked (by simp) <| Fits.perhaps <|
    .seq (fits_guarded (by simpa [rank] using hqueue)) (fits_sendIMessage (by simp [rank])).perhaps

theorem fits_sendWaitingAsdus : Fits (sendWaitingAsdus c : SlaveCode n m q) [] :=
  .seq (fits_guarded (by simp)) <|
    .either
      (.seq (fits_sendNext (by simp [rank])) <| Fits.perhaps <|
        .seq (fits_guarded (by simp)) <| Fits.perhaps <|
          .seq (fits_guarded (by simp)) (fits_guarded (by simp)).perhaps)
      (.seq (fits_guarded (by simp)) <|
        .seq (fits_sendNext (by simp [rank])).perhaps (fits_guarded (by simp)))

theorem fits_checkSequenceNumber : Fits (checkSequenceNumber c : SlaveCode n m q) [] :=
  .locked (by simp) (.loop (fits_guarded (by simp [rank])))

theorem fits_handleIFrame : Fits (handleIFrame c : SlaveCode n m q) [] :=
  .seq (fits_guarded (by simp)) <| Fits.perhaps <| .seq (fits_guarded (by simp)) <| Fits.perhaps <|
    .seq fits_checkSequenceNumber <| Fits.perhaps <| .seq (fits_guarded (by simp)) <|
      .seq (fits_guarded (by simp)) <| Fits.perhaps <|
        .loop (.either fits_useClients (.either fits_enqueue fits_sendAsduInternal))

theorem fits_handleStartdt : Fits (handleStartdt c : SlaveCode n m q) [] := by
  refine .seq (.seq (.locked (by simp) (.each fun d _ => ?_)) (fits_guarded (by simp)))
    (fits_guarded (by simp))
  split
  · exact .skip
  · exact (fits_guarded (by simp [rank])).perhaps

/-- The second post is in order only because the state locks are loose. -/
theorem fits_handleStopdt : Fits (handleStopdt c : SlaveCode n m q) [] :=
  .seq (fits_guarded (by simp)) <|
    .seq (.locked (by simp) (Fits.perhaps .clear)) ⟨.inr ⟨c, rfl⟩, rfl⟩

theorem fits_handleMessage : Fits (handleMessage c : SlaveCode n m q) [] :=
  .seq
    (.either fits_handleIFrame <| .either fits_handleStartdt <| .either fits_handleStopdt <|
      .either fits_checkSequenceNumber (fits_guarded (by simp)).perhaps)
    (fits_guarded (by simp)).perhaps

theorem fits_connectionRound : Fits (connectionRound c : SlaveCode n m q) [] := by
  have hclear : Fits (locked (state c) (clear c) : SlaveCode n m q) [] := .locked (by simp) .clear
  have hwrite : Fits (locked (state c) (write c) : SlaveCode n m q) [] :=
    fits_sendIMessage (by simp)
  have htimeouts : Fits (handleTimeouts c : SlaveCode n m q) [] :=
    .seq (fits_guarded (by simp)) <| .seq hwrite.perhaps <| .seq hwrite (fits_guarded (by simp))
  exact .seq (Fits.perhaps <| .seq fits_handleMessage <| .seq hclear.perhaps hwrite) <|
    .seq htimeouts <| .seq hclear.perhaps <| .seq (fits_guarded (by simp)) <| Fits.perhaps <|
      .seq (fits_guarded (by simp)) fits_sendWaitingAsdus.perhaps

theorem fits_serverRound : Fits (serverRound : SlaveCode n m q) [] := by
  have hstates : Fits (each (List.finRange n) fun d => SlaveCode.perhaps (guarded (state d)) :
      SlaveCode n m q) [openConnections] := .each fun _ _ => (fits_guarded (by simp [rank])).perhaps
  have haccept : Fits (acceptConnection : SlaveCode n m q) [] :=
    .seq (.locked (by simp) <| .seq hstates <| .seq hstates (fits_guarded (by simp [rank])).perhaps)
      (.each fun d _ => Fits.perhaps rfl)
  have hfree (d : Fin n) : Fits (freeConnection d : SlaveCode n m q) [openConnections] :=
    .seq (fits_guarded (by simp [rank])) <| Fits.perhaps <|
      .seq (fits_guarded (by simp [rank])) <| Fits.perhaps <|
        .seq (Fits.perhaps <| .seq ⟨rfl, rfl⟩ (fits_guarded (by simp [rank])))
          (fits_guarded (by simp [rank]))
  exact .seq (fits_guarded (by simp)) <|
    .seq (Fits.perhaps <| .seq (fits_guarded (by simp)).perhaps haccept.perhaps)
      (.locked (by simp) (.each fun d _ => hfree d))

theorem fits_closeConnection (d : Fin n) : Fits (closeConnection d : SlaveCode n m q) [] := by
  refine ⟨[openConnections], ⟨by simp, rfl⟩, [openConnections], fits_guarded (by simp [rank]),
    [openConnections], Fits.perhaps ?_, .inl (.head _), by simp⟩
  refine .seq (.locked (by simp [rank]) .clear) (Fits.perhaps ?_)
  exact ⟨[], ⟨.inl (.head _), by simp⟩, [], ⟨rfl, rfl⟩, by simp, rfl⟩

/-- All threads keep to the order of the locks. -/
theorem ordered_slaveThreads (t : SlaveThread n q) :
    OrderedStack rank Loose (slaveThreads n m q t) [] := by
  have hslave : Fits (guarded slaveState : SlaveCode n m q) [] := fits_guarded (by simp)
  cases t with
  | server =>
    exact ⟨[], hslave, [], Fits.perhaps <| .seq (.loop fits_serverRound) (.seq hslave hslave), rfl⟩
  | main =>
    have hclose : Fits (each (List.finRange n) closeConnection : SlaveCode n m q) [] :=
      .each fun d _ => fits_closeConnection d
    exact ⟨[], Balanced.loop hslave, [], Balanced.each fun i _ => ⟨rfl, rfl⟩, [],
      Balanced.loop hslave, [], ⟨rfl, rfl⟩, [], hclose, [], hslave, [], hclose, rfl⟩
  | connection c =>
    -- the state lock is held at the head of the loop
    have hloop : Fits (loop (some c) (seq (post (state c)) (seq (connectionRound c)
        (wait (state c)))) : SlaveCode n m q) [state c] :=
      .loop ⟨[], ⟨.inl (.head _), by simp⟩, [], fits_connectionRound, by simp, rfl⟩
    exact ⟨[], fits_guarded (by simp), [], fits_useClients, [state c], ⟨by simp, rfl⟩, [state c],
      hloop, [], ⟨.inl (.head _), by simp⟩, [], fits_useClients, [],
      Balanced.locked (by simp) .clear, [], fits_guarded (by simp), rfl⟩
  | application i =>
    exact ⟨[], Balanced.loop (.either fits_useClients fits_enqueue), rfl⟩

/-! ## What the threads do with flags and with each other -/

/-- The server thread joins connection threads, with `openConnectionsLock`, and starts them. The
main thread joins without a lock. A connection thread clears its own flag, and an application thread
none. -/
def MayDo : SlaveThread n q → SlaveCode n m q → Prop
  | .server, join f u hs => ∃ c, f = some c ∧ u = .connection c ∧ hs = [openConnections]
  | .main, join f u hs =>
    f = none ∧ hs = [] ∧ (u = .server ∨ (∃ c, u = .connection c) ∨ ∃ i, u = .application i)
  | _, join .. => False
  | .server, clear _ | .application _, clear _ => False
  | .connection c, clear d => d = c
  | .server, spawn d u => u = .connection d
  | _, spawn .. => False
  | _, _ => True

theorem permitted_slaveThreads (t : SlaveThread n q) :
    ∀ a ∈ slaveThreads n m q t, a.All (MayDo t) := by
  cases t with
  | server =>
    simp [slaveThreads, serverThread, serverRound, acceptConnection, freeConnection, perhaps,
      guarded, locked, Script.All, all_each, MayDo]
  | main =>
    simp [slaveThreads, mainThread, stopRest, closeConnection, perhaps, guarded, locked, Script.All,
      all_each, MayDo]
  | connection c =>
    simp [slaveThreads, connectionHandlingThread, connectionRound, handleMessage, handleIFrame,
      handleAsdu, handleStartdt, activate, handleStopdt, checkSequenceNumber, handleTimeouts,
      sendWaitingAsdus, sendNext, sendAsduInternal, sendIMessage, write, enqueue, useClients,
      perhaps, guarded, locked, Script.All, all_each, MayDo, apply_ite (Script.All _)]
  | application i =>
    simp [slaveThreads, applicationThread, enqueue, useClients, perhaps, guarded, locked,
      Script.All, all_each, MayDo]

theorem settles_useClients (c : Fin n) (p : Prop) :
    (useClients : SlaveCode n m q).Settles c openConnections p :=
  .each fun i _ => by simp [perhaps, guarded, locked, Script.Settles]

theorem not_mayWait_useClients (c : Fin n) :
    ¬ (useClients : SlaveCode n m q).MayWait c openConnections := by
  simp [useClients, mayWait_each, perhaps, guarded, locked, Script.MayWait]

theorem settles_handleStartdt (c : Fin n) (p : Prop) :
    (handleStartdt c : SlaveCode n m q).Settles c openConnections p := by
  have hothers (d : Fin n) : (if d = c then skip else perhaps (guarded (state d)) :
      SlaveCode n m q).Settles c openConnections True := by
    split <;> simp [perhaps, guarded, locked, Script.Settles]
  refine ⟨⟨⟨?_, .each fun d _ => hothers d, ?_⟩, ?_⟩, ?_⟩ <;> simp [guarded, locked, Script.Settles]

/-- Once its flag is cleared, a connection thread does not come to another STARTDT. -/
theorem settles_connectionHandlingThread (c : Fin n) :
    StackSettles c openConnections (connectionHandlingThread c : List (SlaveCode n m q)) := by
  simp [StackSettles, connectionHandlingThread, connectionRound, handleMessage, handleIFrame,
    handleAsdu, handleStopdt, checkSequenceNumber, handleTimeouts, sendWaitingAsdus, sendNext,
    sendAsduInternal, sendIMessage, write, enqueue, perhaps, guarded, locked, Script.Settles,
    Script.MayWait, settles_useClients, not_mayWait_useClients, settles_handleStartdt]

end SlaveCode

/-! ## While the server thread runs -/

/-- The main thread is in front of its wait for the server thread, and clears no flag there. -/
def StopsLater (w : SlaveWorld n m q) : Prop :=
  ∃ front, w.stack .main = front ++ stopRest ∧ ∀ a ∈ front, a.All fun b => ∀ c, b ≠ .clear c

/-- What holds until the server thread has ended. -/
structure Watched (w : SlaveWorld n m q) : Prop where
  stops : StopsLater w
  quiet : ∀ c, Quiet c .openConnections (.connection c) w

section Watched

variable {w w' : SlaveWorld n m q} {t u : SlaveThread n q} {f c : Fin n}
  {k : List (SlaveCode n m q)}

/-- Only connection threads are started. -/
theorem eq_connection_of_spawn (hpermitted : AllowedTo MayDo w)
    (hpc : w.stack t = .spawn f u :: k) : u = .connection f := by
  have hspawn : MayDo t (.spawn f u) := hpermitted.head hpc
  cases t with
  | server => exact hspawn
  | _ => exact hspawn.elim

/-- The server thread is not started again. -/
theorem server_ended_move (hpermitted : AllowedTo MayDo w)
    (hmove : Move (slaveThreads n m q) w t w') (hended : w.stack .server = []) :
    w'.stack .server = [] := by
  by_cases ht : t = .server
  · subst ht
    rwa [hmove.eq_of_nil hended]
  · rcases hmove.other (Ne.symm ht) with hsame | ⟨f, k, hpc, -⟩
    · rwa [hsame]
    · cases eq_connection_of_spawn hpermitted hpc

theorem StopsLater.move (h : StopsLater w) (hpermitted : AllowedTo MayDo w)
    (hmove : Move (slaveThreads n m q) w t w') : w.stack .server = [] ∨ StopsLater w' := by
  obtain ⟨front, hmain, hfront⟩ := h
  by_cases ht : t = .main
  · subst ht
    cases front with
    | nil =>
      by_cases hended : w.stack .server = []
      · exact .inl hended
      · have hblocked : Blocked w .main := by
          rw [Blocked, hmain]
          simpa [stopRest, World.awaits] using hended
        rw [hmove.eq_of_blocked hblocked]
        exact .inr ⟨[], hmain, hfront⟩
    | cons a front =>
      refine .inr ?_
      rcases hmove.head hmain with hsame | ⟨new, hnew, hparts⟩
      · exact ⟨a :: front, hsame, hfront⟩
      · refine ⟨new ++ front, hnew.trans (List.append_assoc _ _ _).symm, fun b hb => ?_⟩
        rcases List.mem_append.mp hb with hb | hb
        · exact hparts _ (hfront a (.head _)) b hb
        · exact hfront b (.tail _ hb)
  · refine .inr ?_
    rcases hmove.other (Ne.symm ht) with hsame | ⟨f, k, hpc, -⟩
    · exact ⟨front, hsame.trans hmain, hfront⟩
    · cases eq_connection_of_spawn hpermitted hpc

/-- Nobody but its own thread clears the flag of a connection. -/
theorem Watched.eq_connection_of_clear (h : Watched w) (hpermitted : AllowedTo MayDo w)
    (hpc : w.stack t = .clear c :: k) : t = .connection c := by
  have hclear : MayDo t (.clear c) := hpermitted.head hpc
  cases t with
  | server => exact hclear.elim
  | application i => exact hclear.elim
  | connection d => exact congrArg _ (show c = d from hclear).symm
  | main =>
    obtain ⟨front, hmain, hfront⟩ := h.stops
    rw [hmain] at hpc
    cases front with
    | nil => cases hpc
    | cons a front =>
      obtain ⟨rfl, -⟩ := List.cons.inj hpc
      exact absurd rfl (hfront _ (.head _) c)

theorem Watched.move (h : Watched w) (hpermitted : AllowedTo MayDo w)
    (hmove : Move (slaveThreads n m q) w t w') : w.stack .server = [] ∨ Watched w' := by
  refine (h.stops.move hpermitted hmove).imp_right fun hstops => ⟨hstops, fun c => ?_⟩
  by_cases ht : t = .connection c
  · subst ht
    exact (h.quiet c).move hmove
  · refine (h.quiet c).other hmove (Ne.symm ht) (settles_connectionHandlingThread c)
      (fun f k hpc => ?_) (fun k hpc => ht (h.eq_connection_of_clear hpermitted hpc))
    exact (SlaveThread.connection.inj (eq_connection_of_spawn hpermitted hpc)).symm

theorem watched_begin : Watched (slaveBegin n m q) := by
  refine ⟨⟨[.loop none (guarded .slaveState),
    .each (List.finRange q) fun i => .join none (.application i) [],
    .loop none (guarded .slaveState)], rfl, ?_⟩, fun c => ⟨trivial, fun _ => ?_⟩⟩
  · simp [guarded, Script.locked, Script.All, all_each]
  · exact stackMayWait_nil

end Watched

/-- What every step keeps. -/
structure SlaveInv (w : SlaveWorld n m q) : Prop where
  orderly : Orderly SlaveLock.rank SlaveLock.Loose w
  permitted : AllowedTo MayDo w
  watched : w.stack .server = [] ∨ Watched w

theorem slaveInv_run (ops : List (SlaveThread n q × Bool)) :
    SlaveInv (slaveRun ops : SlaveWorld n m q) := by
  refine run_induction (fun w t w' h hmove => ?_) ?_ ops
  · have hended := server_ended_move h.permitted hmove
    refine ⟨h.orderly.move ordered_slaveThreads hmove,
      h.permitted.move permitted_slaveThreads hmove, ?_⟩
    rcases h.watched with hserver | hwatched
    · exact .inl (hended hserver)
    · exact (hwatched.move h.permitted hmove).imp_left hended
  · exact ⟨orderly_start ordered_slaveThreads, allowedTo_start permitted_slaveThreads,
      .inr watched_begin⟩

/-! ## Exclusion -/

/-- In every run, a lock that is not the state lock of a connection is held by one thread at most,
and a state lock by one thread more than it was posted without being held. -/
theorem slave_locks_exclude (ops : List (SlaveThread n q × Bool)) (l : SlaveLock n m) :
    (slaveRun ops : SlaveWorld n m q).holders l ≤ 1 + (slaveRun ops : SlaveWorld n m q).surplus l ∧
      ((∃ c, l = .state c) ∨ (slaveRun ops : SlaveWorld n m q).surplus l = 0) := by
  have horderly := (slaveInv_run (m := m) ops).orderly
  refine ⟨horderly.excludes l, ?_⟩
  by_cases hloose : l.Loose
  · exact .inl hloose
  · exact .inr (horderly.tight l hloose)

/-- Steps of one thread. The choices that are not taken are at `no`. -/
def turns (t : SlaveThread n q) (len : Nat) (no : List Nat) : List (SlaveThread n q × Bool) :=
  (List.range len).map fun i => (t, !no.contains i)

/-- The server thread accepts a connection, which handles a STARTDT in its first round and a STOPDT
in its second. -/
def stopTurns : List (SlaveThread 1 0 × Bool) :=
  turns .server 56 [] ++ turns (.connection 0) 112 [15, 43, 48, 59, 65, 74, 96, 104] ++
    turns (.connection 0) 29 [8, 9, 21]

-- after a STOPDT the connection thread and the server thread can have the state lock together
example :
    let w : SlaveWorld 1 0 0 := slaveRun (stopTurns ++ turns .server 10 [])
    .state 0 ∈ w.held (.connection 0) ∧ .state 0 ∈ w.held .server := by
  decide +kernel

/-! ## Deadlocks -/

section Deadlock

variable {w : SlaveWorld n m q} {c : Fin n} {k : List (SlaveCode n m q)}

theorem SlaveLock.rank_pos (l : SlaveLock n m) : 0 < l.rank := by
  cases l <;> simp [SlaveLock.rank]

/-- A connection thread that is waited for does not wait for `openConnectionsLock`. -/
theorem SlaveInv.ne_openConnections (h : SlaveInv w) (hserver : w.stack .server ≠ [])
    (hawaits : w.awaits (some c) (.connection c) = true) {l : SlaveLock n m}
    (hpc : w.stack (.connection c) = .wait l :: k) : l ≠ .openConnections := by
  rintro rfl
  have hflag : w.flag c = false := by
    cases hset : w.flag c with
    | false => rfl
    | true => simp [World.awaits, hset] at hawaits
  refine ((h.watched.resolve_left hserver).quiet c).quiet hflag ?_
  rw [hpc]
  exact stackMayWait_cons.mpr (.inl rfl)

theorem SlaveInv.joinsRise (h : SlaveInv w) : JoinsRise SlaveLock.rank w := by
  intro t u f hs k hpc hawaits hblocked
  have hjoin : MayDo t (.join f u hs) := h.permitted.head hpc
  rcases hblocked.place with ⟨l, k', hu, -⟩ | ⟨f', v, hs', k', hu, -⟩
  · rw [World.topRank, hu]
    cases t with
    | server =>
      -- all other locks of a connection thread are above this place
      obtain ⟨c, rfl, rfl, rfl⟩ := hjoin
      have hne := h.ne_openConnections (by simp [hpc]) hawaits hu
      cases l <;> simp [SlaveLock.rank, rankAbove] at hne ⊢
    | main =>
      obtain ⟨-, rfl, -⟩ := hjoin
      exact l.rank_pos
    | connection c => exact hjoin.elim
    | application i => exact hjoin.elim
  · -- only the main thread waits for a thread that waits for a thread
    have hnext : MayDo u (.join f' v hs') := h.permitted.head hu
    rw [World.topRank, hu]
    cases t with
    | server =>
      obtain ⟨c, -, rfl, -⟩ := hjoin
      exact hnext.elim
    | main =>
      obtain ⟨-, rfl, rfl | ⟨c, rfl⟩ | ⟨i, rfl⟩⟩ := hjoin
      · obtain ⟨c, -, -, rfl⟩ := hnext
        simp [rankAbove]
      · exact hnext.elim
      · exact hnext.elim
    | connection c => exact hjoin.elim
    | application i => exact hjoin.elim

end Deadlock

/-- In every run, no thread is deadlocked: one that is not at its end, or a thread that it waits
for, directly or not, can take a step. -/
theorem slave_never_deadlocks (ops : List (SlaveThread n q × Bool)) (t : SlaveThread n q) :
    ¬ Deadlocked (slaveThreads n m q) (slaveRun ops) t := by
  have hinv := slaveInv_run (m := m) ops
  exact not_deadlocked hinv.orderly hinv.joinsRise

end Iec104Slave
