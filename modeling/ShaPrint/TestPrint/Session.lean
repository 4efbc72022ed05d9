import ShaPrint.Lib.Processes
import ShaPrint.Printers.Media
import ShaPrint.Queue.Classify

/-!
The guided test print of `application/test_print.rs`: one session at a time, opened, checked,
sent, confirmed and closed by calls that interleave, and the native submissions they spawn.

A call is a process that takes the session lock once a section. What `inspect` reads and how
an await ends are inputs of the section that follows: they come from the queue, the server
and the clock. The future of a call can be dropped where it awaits, as the deadline of a
control connection does. A submission is a task of its own: it holds the submission guard to
its end, whatever becomes of the call.

* `Session`, `Worker`, `Store`: the session, the native submissions, and what the calls share.
* `Operation`, `Phase`, `Call`: what is called, and how far the call is.
* `refresh`, `send`, `publish`, `decideToSend`, `record`: the sections.
* `guided`: the interleavings.
-/

namespace ShaPrint.TestPrint

open Queue

/-- A classified observation of `application/troubleshooting.rs`. -/
inductive LocalFinding where
  | spoolerReady
  | spoolerUnavailable
  | spoolerUnknown
  | inspectionTimeout
  | queueMatching
  | queueMissing
  | queueMismatched
  | queueUnknown
  | queueEmpty
  | pendingJobs
  | pendingUnknown
  | pendingNotApplicable
  | proxyRunning
  | proxyStopped
  | proxyUnknown
  | serverReachable
  | serverUnreachable
  | serverReachabilityTimeout
  | serverReachabilityUnknown
  | serverIdentityMatching
  | serverNotTrusted
  | serverIdentityChanged
  | serverIdentityUnknown
  | serverIdentityNotApplicable
  | printerShared
  | printerNotShared
  | printerAvailabilityUnknown
  | printerAvailabilityNotApplicable
  | channelAuthorizationRejected
  | channelConfiguredUnobserved
  | channelUnconfigured
  | channelNotApplicable
  | firewallInspectionUnavailable
  deriving DecidableEq

/-- `LocalTroubleshootingSnapshot`. -/
structure Diagnostics where
  target : RecognisedClientQueue
  checks : List LocalFinding
  deriving DecidableEq

def Diagnostics.isRepairEligible (d : Diagnostics) : Bool :=
  d.checks.contains .spoolerReady && d.checks.contains .queueMatching
    && d.checks.contains .queueEmpty && d.checks.contains .proxyRunning
    && d.checks.contains .serverReachable && d.checks.contains .serverIdentityMatching
    && d.checks.contains .printerShared && !d.checks.contains .channelAuthorizationRejected
    && !d.checks.contains .channelUnconfigured && !d.checks.contains .channelNotApplicable

inductive SubmissionOutcome where
  | notSent
  | checking
  | accepted
  | rejected
  | uncertain
  | blocked
  deriving DecidableEq

inductive PhysicalResult where
  | unconfirmed
  | correct
  | noOutput
  | incorrect
  deriving DecidableEq

inductive UserSymptom where
  | clipping
  | shifted
  | incorrectSize
  | blank
  deriving DecidableEq

/-- `TestPrintSnapshot`: the session, and what a call answers of it. -/
structure Session where
  sessionId : ℕ
  diagnostics : Diagnostics
  requestedMedia : Option MediaSpec
  submission : SubmissionOutcome
  physicalResult : PhysicalResult
  userSymptom : Option UserSymptom
  attempts : List SubmissionOutcome
  supported : Bool
  ready : Bool
  run : ℕ
  deriving DecidableEq

def Session.canSend (t : Session) : Bool :=
  t.supported && t.ready && t.requestedMedia.isSome && t.diagnostics.isRepairEligible

/-- A session as `open` stores it. -/
def Session.opened (id : ℕ) (target : RecognisedClientQueue) (supported : Bool) : Session :=
  { sessionId := id
    diagnostics := ⟨target, []⟩
    requestedMedia := none
    submission := .notSent
    physicalResult := .unconfirmed
    userSymptom := none
    attempts := []
    supported
    ready := false
    run := 0 }

/-- A native submission: the session it was made for, what it prints, and how it ended, with no
outcome where the task panicked. -/
structure Worker where
  sessionId : ℕ
  target : RecognisedClientQueue
  media : MediaSpec
  ended : Option (Option SubmissionOutcome)
  deriving DecidableEq

def Worker.inFlight (k : Worker) : Bool := k.ended.isNone

/-- What the calls share. -/
structure Store where
  /-- Whether the platform has a native test print. -/
  hasNative : Bool
  session : Option Session := none
  nextId : ℕ := 1
  submitting : Bool := false
  workers : List Worker := []
  deriving DecidableEq

inductive Operation where
  | open (target : RecognisedClientQueue)
  | close (id : ℕ)
  | refresh (id : ℕ)
  | send (id : ℕ)
  | confirm (id : ℕ) (result : PhysicalResult) (symptom : Option UserSymptom)
  deriving DecidableEq

def stale : AppError :=
  .invalidState "This test print session is closed, busy, or superseded. Check again."

def notAvailable : AppError :=
  .unsupported "Native test print is not available on this platform."

def symptomsMisplaced : AppError := .invalidInput "Symptoms apply only to incorrect output."

/-- How far a call is, with the local variables it still needs. -/
inductive Phase where
  | start
  /-- `open` has taken an id. -/
  | store (target : RecognisedClientQueue)
  /-- `open` calls `refresh`. -/
  | refresh
  /-- `refresh` awaits the inspection. -/
  | inspecting (run : ℕ) (target : RecognisedClientQueue)
  /-- `send` awaits the inspection, holding the submission guard. -/
  | rechecking (run : ℕ) (target : RecognisedClientQueue) (preview : Option MediaSpec)
  /-- `send` returns without a submission, and drops the guard. -/
  | release (result : Except AppError Session)
  /-- `send` awaits its submission. -/
  | waiting (run worker : ℕ)
  /-- The first section refused the call. -/
  | refused (error : AppError)
  | done (result : Except AppError Session)
  | closed
  /-- The future was dropped at an await. -/
  | dropped
  deriving DecidableEq

/-- A call: the session it is about, how far it is, and the submissions it made, by their
numbers. -/
structure Call where
  operation : Operation
  id : ℕ
  phase : Phase
  caused : List ℕ
  deriving DecidableEq

/-- The session an operation names; `open` has none before it takes an id. -/
def Operation.id : Operation → ℕ
  | .open _ => 0
  | .close id | .refresh id | .send id | .confirm id _ _ => id

/-- A call before its first section. -/
def Call.new (operation : Operation) : Call := ⟨operation, operation.id, .start, []⟩

/-- What a section gets from outside: nothing, what `inspect` read, how the await of a
submission ended, or that the future is dropped. -/
inductive Input where
  | go
  | inspected (checks : List LocalFinding) (media : Option MediaSpec)
  | joined
  | timedOut
  | dropped
  deriving DecidableEq

/-! ### The sections -/

/-- The first section of `refresh`. -/
def refresh (s : Store) (c : Call) : Store × Call :=
  match s.session.filter fun t => t.sessionId == c.id && t.submission != .checking with
  | none => (s, { c with phase := .refused stale })
  | some t =>
      ({ s with session := some { t with ready := false, run := t.run + 1 } },
        { c with phase := .inspecting (t.run + 1) t.diagnostics.target })

/-- The first section of `send`. -/
def send (s : Store) (c : Call) : Store × Call :=
  if s.hasNative then
    match s.session.filter fun t => t.sessionId == c.id && t.canSend with
    | none => (s, { c with phase := .refused stale })
    | some t =>
        if s.submitting then (s, { c with phase := .refused stale })
        else
          ({ s with
              submitting := true
              session := some { t with
                ready := false
                run := t.run + 1
                submission := .checking
                physicalResult := .unconfirmed
                userSymptom := none } },
            { c with phase := .rechecking (t.run + 1) t.diagnostics.target t.requestedMedia })
  else
    (s, { c with phase := .refused notAvailable })

def confirm (s : Store) (c : Call) (result : PhysicalResult) (symptom : Option UserSymptom) :
    Store × Call :=
  match s.session.filter fun t =>
      t.sessionId == c.id && (t.submission == .accepted || t.submission == .uncertain) with
  | none => (s, { c with phase := .refused stale })
  | some t =>
      if result ≠ .incorrect ∧ symptom.isSome = true then
        (s, { c with phase := .refused symptomsMisplaced })
      else
        let t := { t with physicalResult := result, userSymptom := symptom }
        ({ s with session := some t }, { c with phase := .done (.ok t) })

def close (s : Store) (c : Call) : Store × Call :=
  ({ s with session := s.session.filter fun t => t.sessionId != c.id },
    { c with phase := .closed })

/-- The first section of a call. -/
def begin (s : Store) (c : Call) : Store × Call :=
  match c.operation with
  | .open target =>
      ({ s with nextId := s.nextId + 1 }, { c with id := s.nextId, phase := .store target })
  | .close _ => close s c
  | .refresh _ => refresh s c
  | .send _ => send s c
  | .confirm _ result symptom => confirm s c result symptom

/-- `open` replaces the session. -/
def storeSession (s : Store) (c : Call) (target : RecognisedClientQueue) : Store × Call :=
  ({ s with session := some (.opened c.id target s.hasNative) }, { c with phase := .refresh })

/-- The session a section goes on with: the open one, if the run is its latest. -/
def Store.current (s : Store) (c : Call) (run : ℕ) : Option Session :=
  s.session.filter fun t => t.sessionId == c.id && t.run == run

/-- The media that `inspect` answers: none without a native test print. -/
def nativeMedia (s : Store) (media : Option MediaSpec) : Option MediaSpec :=
  if s.hasNative then media else none

/-- The last section of `refresh`. -/
def publish (s : Store) (c : Call) (run : ℕ) (diagnostics : Diagnostics)
    (media : Option MediaSpec) : Store × Call :=
  match s.current c run with
  | none => (s, { c with phase := .done (.error stale) })
  | some t =>
      let t := { t with diagnostics, requestedMedia := media, ready := !s.submitting }
      ({ s with session := some t }, { c with phase := .done (.ok t) })

/-- The section of `send` that decides to submit: the submission is spawned under the session
lock, and takes the guard along. -/
def decideToSend (s : Store) (c : Call) (run : ℕ) (preview : Option MediaSpec)
    (diagnostics : Diagnostics) (media : Option MediaSpec) : Store × Call :=
  match s.current c run with
  | none => (s, { c with phase := .release (.error stale) })
  | some t =>
      let t := { t with diagnostics, requestedMedia := media }
      match media with
      | some m =>
          if diagnostics.isRepairEligible && media == preview then
            ({ s with
                session := some t
                workers := s.workers ++ [⟨c.id, diagnostics.target, m, none⟩] },
              { c with
                phase := .waiting run s.workers.length
                caused := c.caused ++ [s.workers.length] })
          else
            let t := { t with submission := .blocked, attempts := t.attempts ++ [.blocked] }
            ({ s with session := some t }, { c with phase := .release (.ok t) })
      | none =>
          let t := { t with submission := .blocked, attempts := t.attempts ++ [.blocked] }
          ({ s with session := some t }, { c with phase := .release (.ok t) })

/-- The outcome of a submission that has ended. -/
def joinedOutcome : Option SubmissionOutcome → SubmissionOutcome
  | some .accepted => .accepted
  | some .rejected => .rejected
  | _ => .uncertain

/-- The last section of `send`. -/
def record (s : Store) (c : Call) (run : ℕ) (outcome : SubmissionOutcome) : Store × Call :=
  match s.current c run with
  | none => (s, { c with phase := .done (.error stale) })
  | some t =>
      let t := { t with
        submission := outcome
        physicalResult := .unconfirmed
        userSymptom := none
        attempts := t.attempts ++ [outcome] }
      ({ s with session := some t }, { c with phase := .done (.ok t) })

/-- The next section of a call. -/
def resume (s : Store) (c : Call) (x : Input) : Option (Store × Call) :=
  match c.phase, x with
  | .start, .go => some (begin s c)
  | .store target, .go => some (storeSession s c target)
  | .refresh, .go => some (refresh s c)
  | .inspecting run target, .inspected checks media =>
      some (publish s c run ⟨target, checks⟩ (nativeMedia s media))
  | .rechecking run target preview, .inspected checks media =>
      some (decideToSend s c run preview ⟨target, checks⟩ (nativeMedia s media))
  | .release result, .go => some ({ s with submitting := false }, { c with phase := .done result })
  | .waiting run n, .joined =>
      ((s.workers[n]?).bind Worker.ended).map fun ended => record s c run (joinedOutcome ended)
  | .waiting run _, .timedOut => some (record s c run .uncertain)
  | .inspecting _ _, .dropped | .waiting _ _, .dropped => some (s, { c with phase := .dropped })
  | .rechecking _ _ _, .dropped =>
      -- the guard is dropped with the future
      some ({ s with submitting := false }, { c with phase := .dropped })
  | _, _ => none

/-- The end of a submission, which drops the guard. -/
inductive Outside where
  | finish (worker : ℕ) (outcome : Option SubmissionOutcome)
  deriving DecidableEq

def finish (s : Store) : Outside → Option Store
  | .finish n outcome =>
      (s.workers[n]?).bind fun k =>
        if k.inFlight then
          some { s with
            submitting := false
            workers := s.workers.set n { k with ended := some outcome } }
        else none

/-- The calls of a guided test print. -/
def calls (hasNative : Bool) : Processes Store Call Input Outside where
  init := { hasNative }
  starts c := c == .new c.operation
  advance s c x := (resume s c x).map fun (s, c) => (s, c, [])
  outside := finish

abbrev World := Processes.World Store Call

abbrev Event := Processes.Event Call Input Outside

/-- The interleavings of any calls, from no session. -/
def guided (hasNative : Bool) : StepSystem World Event := (calls hasNative).system

end ShaPrint.TestPrint
