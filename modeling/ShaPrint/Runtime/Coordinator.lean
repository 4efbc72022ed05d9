import Mathlib.Logic.Function.Basic
import ShaPrint.Domain.Error
import ShaPrint.Lib.Processes

/-!
The runtime coordinator of `application/coordinator.rs`, with the service states of
`domain/service.rs`: any calls of `start`, `stop` and `shutdown` and the tasks they spawn,
interleaving over the published states, the running tasks and the start gates.

A call is a process that takes one lock a section. How a service prepares, what its task does
and how its `run` ends, whether a deadline passes and whether the future of a call is dropped
at an await are inputs of the section that follows. A task is named by its number; its handle
resolves once it is over.

* `Coordinator`: the states, the running tasks and the gates.
* `StopPhase`, `StartPhase`, `ShutdownPhase`, `TaskPhase`, `Process`: how far a call or a task
  is.
* `stop`, `start`, `shutdown`, `supervise`: the sections.
* `coordinator`: the interleavings.
-/

namespace ShaPrint.Runtime

inductive ServiceId where
  | clientProxy
  | serverSharing
  | serverDiscovery
  deriving DecidableEq, Repr

/-- The services in the order of their ids. -/
def ServiceId.all : List ServiceId := [.clientProxy, .serverSharing, .serverDiscovery]

inductive ServiceState where
  | stopped
  | starting
  | running
  | stopping
  | failed
  deriving DecidableEq, Repr

/-- Whether a task exists that the shell still has to stop. -/
def ServiceState.isLive : ServiceState → Bool
  | .starting | .running | .stopping => true
  | .stopped | .failed => false

/-- Legal lifecycle transitions. -/
def canTransition : ServiceState → ServiceState → Bool
  | .stopped, .starting | .starting, .running | .starting, .stopping | .starting, .failed
  | .running, .stopping | .running, .failed | .stopping, .stopped | .stopping, .failed
  | .failed, .starting | .failed, .stopped => true
  | _, _ => false

structure Coordinator where
  state : ServiceId → ServiceState := fun _ => .stopped
  /-- The tasks that can be cancelled. -/
  running : ServiceId → Option ℕ := fun _ => none
  /-- The start gates that are locked. -/
  gates : ServiceId → Bool := fun _ => false
  /-- How many tasks were spawned. -/
  spawned : ℕ := 0
  /-- The tasks whose handles have resolved. -/
  ended : List ℕ := []

namespace Coordinator

variable (c : Coordinator) (id : ServiceId)

def setState (next : ServiceState) : Coordinator :=
  { c with state := Function.update c.state id next }

/-- `StatusRegistry::transition`. -/
def transition (next : ServiceState) : Option Coordinator :=
  if canTransition (c.state id) next then some (c.setState id next) else none

/-- A rejected transition is logged instead of propagated. -/
def record (next : ServiceState) : Coordinator := (c.transition id next).getD c

/-- `settle_stopped`. -/
def settleStopped : Coordinator :=
  if c.state id = .stopped then c else c.record id .stopped

def take : Coordinator := { c with running := Function.update c.running id none }

def lock : Coordinator := { c with gates := Function.update c.gates id true }

def unlock : Coordinator := { c with gates := Function.update c.gates id false }

/-- A task of the service is spawned. -/
def spawn : Coordinator :=
  { c with
    running := Function.update c.running id (some c.spawned)
    spawned := c.spawned + 1 }

/-- The handle of a task resolves. -/
def finish (task : ℕ) : Coordinator := { c with ended := task :: c.ended }

/-- The tasks that can be cancelled, by the order of their services. -/
def entries : List (ServiceId × ℕ) :=
  ServiceId.all.filterMap fun id => (c.running id).map fun task => (id, task)

end Coordinator

abbrev Outcome := Except ErrorCode Unit

/-- What a section gets from outside. -/
inductive Input where
  | go
  /-- How `preflight`, `prepare` and the second `preflight` ended. -/
  | prepared (outcome : Outcome)
  /-- The deadline of an await passes. -/
  | deadline
  /-- The future of the call is dropped at an await. -/
  | drop
  /-- The service reports ready. -/
  | ready
  /-- `run` returns. -/
  | finished (outcome : Outcome)
  | panicked
  deriving DecidableEq

inductive StopPhase where
  | called
  /-- The state is read. -/
  | taking (live : Bool)
  /-- There is no task left to cancel. -/
  | recording
  | marking (live : Bool) (task : ℕ)
  /-- The task is cancelled and awaited. -/
  | waiting (task : ℕ)
  | returned (outcome : Outcome)
  | dropped
  deriving DecidableEq

inductive StartPhase where
  | called
  /-- The gate is locked. -/
  | gated
  | preparing
  | prepared
  /-- A failed service is stopped first. -/
  | resetting (p : StopPhase)
  | spawning
  /-- `await_ready`. -/
  | waiting
  | discarding (error : ErrorCode)
  /-- The task of the service that could not start is cancelled and awaited. -/
  | tearing (error : ErrorCode) (task : ℕ)
  | abandoning (error : ErrorCode)
  | failing (error : ErrorCode)
  | returned (outcome : Outcome)
  | dropped
  deriving DecidableEq

inductive ShutdownPhase where
  | called
  | marking (done todo : List (ServiceId × ℕ))
  /-- The state of a service is read. -/
  | signalling (done : List (ServiceId × ℕ)) (live : Bool) (entry : ServiceId × ℕ)
      (todo : List (ServiceId × ℕ))
  | waiting (rest : List (ServiceId × ℕ)) (stuck : Bool)
  | returned (outcome : Outcome)
  | dropped
  deriving DecidableEq

inductive TaskPhase where
  | running
  /-- `run` has returned, and the state that ends the task is chosen. -/
  | recording (next : ServiceState)
  | closing
  | resolved
  deriving DecidableEq

/-- A call of the coordinator, or a task. -/
inductive Process where
  | start (id : ServiceId) (phase : StartPhase)
  | stop (id : ServiceId) (phase : StopPhase)
  | shutdown (phase : ShutdownPhase)
  | task (id : ServiceId) (number : ℕ) (phase : TaskPhase)
  deriving DecidableEq

/-! ### Sections -/

section Sections

variable (supervised : ServiceId → Bool) (c : Coordinator)

def stop (id : ServiceId) : StopPhase → Input → Option (Coordinator × StopPhase)
  | .called, .go =>
      some (c,
        if !supervised id then .returned (.error .unknownService)
        else if c.state id = .stopped then .returned (.error .invalidState)
        else .taking (c.state id).isLive)
  | .taking live, .go =>
      match c.running id with
      | none => some (c, .recording)
      | some task => some (c.take id, .marking live task)
  | .recording, .go => some (c.record id .stopped, .returned (.ok ()))
  | .marking live task, .go =>
      if live then
        match c.transition id .stopping with
        | none => some (c, .returned (.error .invalidState))
        | some c => some (c, .waiting task)
      else some (c, .waiting task)
  | .waiting task, .go =>
      if c.ended.contains task then some (c.settleStopped id, .returned (.ok ())) else none
  | .waiting _, .deadline => some (c.record id .failed, .returned (.error .timeout))
  | .waiting _, .drop => some (c, .dropped)
  | _, _ => none

/-- A call of `start` ends, and its gate is free. -/
def leave (id : ServiceId) (outcome : Outcome) : Coordinator × StartPhase × List Process :=
  (c.unlock id, .returned outcome, [])

/-- The last sections of `discard`, from the read of the state on. -/
def abandon (id : ServiceId) (error : ErrorCode) : Coordinator × StartPhase × List Process :=
  if c.state id = .starting then (c, .failing error, []) else leave c id (.error error)

/-- `start` holds the lock of the running tasks until its own is among them. -/
def launch (id : ServiceId) : Coordinator × StartPhase × List Process :=
  if (c.running id).isSome then leave c id (.error .invalidState)
  else match c.transition id .starting with
    | none => leave c id (.error .invalidState)
    | some c => (c.spawn id, .waiting, [.task id c.spawned .running])

/-- `start` goes on once the failed service is stopped. -/
def afterReset (id : ServiceId) : StopPhase → Coordinator × StartPhase × List Process
  | .returned (.ok _) => (c, .spawning, [])
  | .returned (.error e) => leave c id (.error e)
  | .dropped => (c.unlock id, .dropped, [])
  | p => (c, .resetting p, [])

/-- The sections of `start`, and the tasks they spawn. -/
def start (id : ServiceId) :
    StartPhase → Input → Option (Coordinator × StartPhase × List Process)
  | .called, .go =>
      some (
        if !supervised id then (c, .returned (.error .unknownService), [])
        else if c.gates id then (c, .returned (.error .invalidState), [])
        else (c.lock id, .gated, []))
  | .gated, .go =>
      some (if (c.state id).isLive then leave c id (.error .invalidState)
        else (c, .preparing, []))
  | .preparing, .prepared (.ok _) => some (c, .prepared, [])
  | .preparing, .prepared (.error e) => some (leave c id (.error e))
  | .preparing, .drop => some (c.unlock id, .dropped, [])
  | .prepared, .go =>
      some (c, if c.state id = .failed then .resetting .called else .spawning, [])
  | .resetting p, x =>
      (stop supervised c id p x).map fun (c, p) => afterReset c id p
  | .spawning, .go => some (launch c id)
  | .waiting, .go =>
      match c.state id with
      | .running => some (leave c id (.ok ()))
      | .failed => some (c, .discarding .internal, [])
      | _ => none
  | .waiting, .deadline => some (c, .discarding .timeout, [])
  | .waiting, .drop => some (c.unlock id, .dropped, [])
  | .discarding e, .go =>
      match c.running id with
      | none => some (c, .abandoning e, [])
      | some task => some (c.take id, .tearing e task, [])
  | .tearing e task, .go => if c.ended.contains task then some (abandon c id e) else none
  | .tearing e _, .deadline => some (abandon c id e)
  | .tearing _ _, .drop => some (c.unlock id, .dropped, [])
  | .abandoning e, .go => some (abandon c id e)
  | .failing e, .go => some (leave (c.record id .failed) id (.error e))
  | _, _ => none

def shutdown : ShutdownPhase → Input → Option (Coordinator × ShutdownPhase)
  | .called, .go =>
      some ({ c with running := fun _ => none },
        if c.entries = [] then .returned (.ok ()) else .marking [] c.entries)
  | .marking done [], .go => some (c, .waiting done false)
  | .marking done (e :: todo), .go => some (c, .signalling done (c.state e.1).isLive e todo)
  | .signalling done live e todo, .go =>
      if live then
        match c.transition e.1 .stopping with
        | none => some (c, .returned (.error .invalidState))
        | some c => some (c, .marking (done ++ [e]) todo)
      else some (c, .marking (done ++ [e]) todo)
  | .waiting [] stuck, .go =>
      some (c, .returned (if stuck then .error .timeout else .ok ()))
  | .waiting (e :: rest) stuck, .go =>
      if c.ended.contains e.2 then some (c.settleStopped e.1, .waiting rest stuck) else none
  | .waiting (e :: rest) _, .deadline => some (c.record e.1 .failed, .waiting rest true)
  | .waiting (_ :: _) _, .drop => some (c, .dropped)
  | _, _ => none

/-- The state that ends a task, if one is recorded: cancellation ends in `stopped`, an error or
an unexpected return ends in `failed`. -/
def endState : Outcome → ServiceState → Option ServiceState
  | .ok _, .stopping => some .stopped
  | _, .stopped => none
  | _, _ => some .failed

/-- A task, from its service running on. -/
def supervise (id : ServiceId) (number : ℕ) :
    TaskPhase → Input → Option (Coordinator × TaskPhase)
  | .running, .ready => some (c.record id .running, .running)
  | .running, .finished outcome =>
      some (c, match endState outcome (c.state id) with
        | some next => .recording next
        | none => .closing)
  | .running, .panicked => some (c.finish number, .resolved)
  | .recording next, .go => some (c.record id next, .closing)
  | .closing, .go => some (c.finish number, .resolved)
  | _, _ => none

end Sections

/-- The next section of a call or of a task. -/
def advance (supervised : ServiceId → Bool) (c : Coordinator) :
    Process → Input → Option (Coordinator × Process × List Process)
  | .start id p, x => (start supervised c id p x).map fun (c, p, new) => (c, .start id p, new)
  | .stop id p, x => (stop supervised c id p x).map fun (c, p) => (c, .stop id p, [])
  | .shutdown p, x => (shutdown c p x).map fun (c, p) => (c, .shutdown p, [])
  | .task id n p, x => (supervise c id n p x).map fun (c, p) => (c, .task id n p, [])

/-- The calls and the tasks; nothing else changes what they share. -/
def services (supervised : ServiceId → Bool) : Processes Coordinator Process Input Empty where
  init := {}
  starts
    | .start _ .called | .stop _ .called | .shutdown .called => true
    | _ => false
  advance := advance supervised
  outside _ e := e.elim

abbrev World := Processes.World Coordinator Process

abbrev Event := Processes.Event Process Input Empty

/-- The interleavings of any calls, from services that are stopped. -/
def coordinator (supervised : ServiceId → Bool) : StepSystem World Event :=
  (services supervised).system

end ShaPrint.Runtime
