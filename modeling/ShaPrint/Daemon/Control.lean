import ShaPrint.Tracker.Tracker

/-!
The control connections of `adapters/daemon.rs` around the print job tracker: the accept
loop, `handle_connection` with its deadline, `process_stream` for the requests that drain or
stop the daemon, and the drain of `wait` once every connection has ended.

A connection moves from one await point to the next; a drain moves by the critical sections
of the tracker. Print requests start and finish by the tracker's own events. The other control
requests touch neither the tracker nor the loop; they are `status` here.

* `Connection`, `advance`: one connection, and its sections.
* `World`, `step`, `daemon`: the tracker, the accept loop and every connection so far.
-/

namespace ShaPrint.Daemon

/-- `IO_TIMEOUT`: the handling of a connection is dropped after 15 seconds. -/
def ioTimeout : ℕ := 15 * 1000000000

/-- A control request. The timeout of a drain is in seconds. -/
inductive Request where
  | status
  | shutdown
  | drain (timeoutSecs : Option ℕ)
  deriving DecidableEq, Repr

/-- How long a requested drain waits: 30 seconds where the request does not say. -/
def drainTimeout (timeoutSecs : Option ℕ) : ℕ := timeoutSecs.getD 30 * 1000000000

/-- The answer to a request; a drain that succeeded says how many jobs are active. -/
inductive Response where
  | ok
  | drained (activeJobs : ℕ)
  | err
  deriving DecidableEq, Repr

/-- Where the handling of a connection is: awaiting the request line, awaiting the work of a
request that is no drain, awaiting the tracker's drain call, past it, awaiting the write of the
answer, and at the end, with the answer if it was written. -/
inductive Phase where
  | reading
  | serving
  | draining (call : ℕ)
  | cleared
  | writing (response : Response)
  | ended (answered : Option Response)
  deriving DecidableEq, Repr

/-- One connection: when `timeout` drops its handling, and the request once it is read. -/
structure Connection where
  deadline : ℕ
  request : Option Request
  phase : Phase
  deriving DecidableEq, Repr

/-- One poll of a drain call. -/
inductive Poll where
  | listen
  | observe
  | wake
  | timeout
  deriving DecidableEq, Repr

/-- The tracker's event for a poll. -/
def Poll.event (call : ℕ) : Poll → Tracker.Event
  | listen => .drainListen call
  | observe => .drainObserve call
  | wake => .drainWake call
  | timeout => .drainTimeout call

/-- What a section of a connection depends on from outside. A request is admitted when the peer
is authorised and the credential storage is attached. -/
inductive Input where
  | unreadable
  | request (request : Request) (admitted : Bool)
  | served (succeeded : Bool)
  | poll (poll : Poll)
  | report
  | written
  | writeFails
  | deadline
  deriving DecidableEq, Repr

/-- Whether the drain call is at its await point. -/
def awaits (tracker : Tracker.World) (call : ℕ) : Bool :=
  match tracker.drains[call]? with
  | some ⟨_, .waiting _⟩ => true
  | _ => false

/-- Where a connection is after a poll of its drain: it is over when the tracker was found
clear, and an error when the window expired. -/
def polled (tracker : Tracker.World) (call : ℕ) : Poll → Phase
  | .listen => .draining call
  | .observe => if tracker.tracker.isClear then .cleared else .draining call
  | .wake => .draining call
  | .timeout => .writing .err

/-- A request that was read. A drain enters drain mode at its first poll. -/
def received (tracker : Tracker.World) (k : Connection) (request : Request) (admitted : Bool) :
    Option (Tracker.World × Connection) :=
  match request with
  | .drain timeoutSecs =>
      if admitted then
        (Tracker.step tracker (.drain (drainTimeout timeoutSecs))).map fun tracker' =>
          (tracker', { k with
            request := some request, phase := .draining tracker.drains.length })
      else some (tracker, { k with request := some request, phase := .writing .err })
  | _ => some (tracker, { k with request := some request, phase := .serving })

/-- One section of a connection. The deadline drops its handling at an await point. -/
def advance (tracker : Tracker.World) (k : Connection) (x : Input) :
    Option (Tracker.World × Connection) :=
  match k.phase, x with
  | .reading, .unreadable => some (tracker, { k with phase := .writing .err })
  | .reading, .request request admitted => received tracker k request admitted
  | .serving, .served succeeded =>
      some (tracker, { k with phase := .writing (if succeeded then .ok else .err) })
  | .draining call, .poll poll =>
      (Tracker.step tracker (poll.event call)).map fun tracker' =>
        (tracker', { k with phase := polled tracker call poll })
  | .cleared, .report =>
      some (tracker, { k with phase := .writing (.drained tracker.tracker.activeJobs) })
  | .writing response, .written => some (tracker, { k with phase := .ended (some response) })
  | .writing _, .writeFails => some (tracker, { k with phase := .ended none })
  | .reading, .deadline | .serving, .deadline | .writing _, .deadline =>
      if k.deadline ≤ tracker.clock then some (tracker, { k with phase := .ended none }) else none
  | .draining call, .deadline =>
      if k.deadline ≤ tracker.clock ∧ awaits tracker call = true then
        (Tracker.step tracker (.drainAbandon call)).map fun tracker' =>
          (tracker', { k with phase := .ended none })
      else none
  | _, _ => none

/-- Whether a section asks the daemon to stop: the answer to a shutdown was written or its
write failed. -/
def stops (k : Connection) : Input → Bool
  | .written | .writeFails => k.request == some .shutdown && k.phase == .writing .ok
  | _ => false

/-- The events of the tracker that are no part of a drain: print requests and time. -/
def isPrinting : Tracker.Event → Bool
  | .tick _ | .tryAcquireRequest | .markPrintJob _ | .dropLease _ => true
  | _ => false

/-- The daemon: the tracker, whether the loop accepts connections and whether it was asked to
stop, every connection so far, and the drain call of `wait`. -/
structure World where
  tracker : Tracker.World
  accepting : Bool
  cancelled : Bool
  connections : List Connection
  finalDrain : Option ℕ
  deriving DecidableEq, Repr

inductive Event where
  | printing (event : Tracker.Event)
  | accept
  | connection (i : ℕ) (x : Input)
  /-- A signal handler asks the daemon to stop. -/
  | cancel
  /-- The accept loop sees that it was asked to stop. -/
  | breakLoop
  | startFinalDrain
  | pollFinalDrain (poll : Poll)
  deriving DecidableEq, Repr

/-- Whether the handling of a connection is over. -/
def Phase.hasEnded : Phase → Bool
  | .ended _ => true
  | _ => false

def step (w : World) : Event → Option World
  | .printing e =>
      if isPrinting e then (Tracker.step w.tracker e).map fun tracker => { w with tracker }
      else none
  | .accept =>
      if w.accepting then
        some { w with
          connections := w.connections ++ [⟨w.tracker.clock + ioTimeout, none, .reading⟩] }
      else none
  | .connection i x =>
      (w.connections[i]?).bind fun k =>
        (advance w.tracker k x).map fun (tracker, k') =>
          { w with
            tracker
            cancelled := w.cancelled || stops k x
            connections := w.connections.set i k' }
  | .cancel => some { w with cancelled := true }
  | .breakLoop => if w.cancelled then some { w with accepting := false } else none
  | .startFinalDrain =>
      -- the accept task has joined every connection
      if w.accepting = false ∧ w.connections.all (·.phase.hasEnded) = true
          ∧ w.finalDrain = none then
        (Tracker.step w.tracker (.drain (15 * 1000000000))).map fun tracker =>
          { w with tracker, finalDrain := some w.tracker.drains.length }
      else none
  | .pollFinalDrain poll =>
      w.finalDrain.bind fun call =>
        (Tracker.step w.tracker (poll.event call)).map fun tracker => { w with tracker }

/-- The interleavings of the connections and print requests of a daemon started at `now`. -/
def daemon (now : ℕ) : StepSystem World Event := ⟨⟨.new now, true, false, [], none⟩, step⟩

end ShaPrint.Daemon
