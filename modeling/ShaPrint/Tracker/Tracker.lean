import Mathlib.Tactic
import Mathlib.Data.List.Count
import ShaPrint.Lib.StepSystem

/-!
The print job tracker of `application/job_tracker.rs`: the counters and flags
behind its lock, and the operations on them, each one critical section.

Instants and durations are natural numbers of nanoseconds. The branches taken
when the lock is poisoned are left out: no critical section of the tracker
panics, so the lock is never poisoned.

* `TrackerState` and its operations: promotion, release, drain mode, admission,
  restart permits and the idle queries.
* `World`: a tracker with the leases, permits and `drain` calls that are live;
  `Event` is one critical section or the passing of time.
* `step`, `tracker`: the step system whose runs are the interleavings.
-/

namespace ShaPrint.Tracker

/-- How long restart readiness is held back after the last job: 8 seconds. -/
def drainCooldown : ℕ := 8 * 1000000000

/-- The state behind the tracker's lock. -/
structure TrackerState where
  activeJobs : ℕ
  activeRequests : ℕ
  acceptingJobs : Bool
  draining : Bool
  lastCompletedAt : Option ℕ
  lastBusyAt : ℕ
  deriving DecidableEq, Repr

namespace TrackerState

/-- A new tracker, made at `now`. -/
def new (now : ℕ) : TrackerState where
  activeJobs := 0
  activeRequests := 0
  acceptingJobs := true
  draining := false
  lastCompletedAt := none
  lastBusyAt := now

/-- `promote_request`: `none` is the refusal. -/
def promoteRequest (st : TrackerState) (now : ℕ) : Option TrackerState :=
  if st.draining || !st.acceptingJobs then none
  else
    some { st with
      activeRequests := st.activeRequests - 1
      activeJobs := st.activeJobs + 1
      lastBusyAt := now }

/-- `release`, without the notification. -/
def release (st : TrackerState) (isPrintJob : Bool) (now : ℕ) : TrackerState :=
  if isPrintJob then
    let st := { st with activeJobs := st.activeJobs - 1 }
    if st.activeJobs = 0 then { st with lastCompletedAt := some now, lastBusyAt := now } else st
  else { st with activeRequests := st.activeRequests - 1 }

/-- Nothing is in flight: the condition under which a release wakes the drains
and a drain is over. -/
def isClear (st : TrackerState) : Bool := st.activeJobs == 0 && st.activeRequests == 0

def beginDrain (st : TrackerState) : TrackerState := { st with draining := true }

def cancelDrain (st : TrackerState) : TrackerState :=
  { st with draining := false, acceptingJobs := true }

/-- `try_acquire_request`: `none` while restarting. -/
def tryAcquireRequest (st : TrackerState) : Option TrackerState :=
  if st.acceptingJobs then some { st with activeRequests := st.activeRequests + 1 } else none

/-- Whether the cooldown since the last finished job is over. -/
def cooledDown (st : TrackerState) (cooldown now : ℕ) : Bool :=
  match st.lastCompletedAt with
  | none => true
  | some finished => cooldown ≤ now - finished

/-- `try_begin_restart_with_cooldown`: `none` where no permit is issued. -/
def tryBeginRestart (st : TrackerState) (cooldown now : ℕ) : Option TrackerState :=
  if !st.acceptingJobs || !st.isClear then none
  else if st.cooledDown cooldown now then some { st with acceptingJobs := false }
  else none

/-- `Drop for RestartPermit`. -/
def dropPermit (st : TrackerState) : TrackerState := { st with acceptingJobs := true }

/-- `is_restart_safe_with_cooldown`. -/
def isRestartSafe (st : TrackerState) (cooldown now : ℕ) : Bool :=
  st.isClear && st.cooledDown cooldown now

/-- `is_idle_for`. -/
def isIdleFor (st : TrackerState) (duration now : ℕ) : Bool :=
  st.activeJobs == 0 && decide (duration ≤ now - st.lastBusyAt)

end TrackerState

/-! ### Drain calls -/

/-- Where a `drain` call is. `starting`: about to listen for notifications;
`listening` and `waiting`: before and after it has read the counters, with
whether a release has notified it since. -/
inductive DrainPhase where
  | starting
  | listening (notified : Bool)
  | waiting (notified : Bool)
  | cleared
  | timedOut
  | abandoned
  deriving DecidableEq, Repr

/-- `notify_waiters` on one drain call. -/
def DrainPhase.notify : DrainPhase → DrainPhase
  | .listening _ => .listening true
  | .waiting _ => .waiting true
  | phase => phase

/-- One `drain` call: its deadline and where it is. -/
structure DrainCall where
  deadline : ℕ
  phase : DrainPhase
  deriving DecidableEq, Repr

/-! ### The tracker in use -/

/-- A tracker and what is live around it: the clock, one entry per live lease
saying whether it is promoted, the number of live permits, and every `drain`
call made so far. -/
structure World where
  clock : ℕ
  tracker : TrackerState
  leases : List Bool
  permits : ℕ
  drains : List DrainCall
  deriving DecidableEq, Repr

/-- One critical section, or the passing of time. Leases and drain calls are named by
their position. -/
inductive Event where
  | tick (duration : ℕ)
  | tryAcquireRequest
  | markPrintJob (lease : ℕ)
  | dropLease (lease : ℕ)
  | beginDrain
  | cancelDrain
  /-- A `drain` call enters drain mode and sets its deadline. -/
  | drain (timeout : ℕ)
  /-- The call starts a round: it listens for notifications. -/
  | drainListen (call : ℕ)
  /-- The call reads the counters. -/
  | drainObserve (call : ℕ)
  /-- The waiting call was notified and starts over. -/
  | drainWake (call : ℕ)
  /-- The waiting call reaches its deadline. -/
  | drainTimeout (call : ℕ)
  /-- The future of the call is dropped. -/
  | drainAbandon (call : ℕ)
  | tryBeginRestart
  | dropPermit
  deriving DecidableEq, Repr

namespace World

/-- A new tracker at instant `now`, with nothing live. -/
def new (now : ℕ) : World := ⟨now, .new now, [], 0, []⟩

/-- The number of live promoted leases. -/
def liveJobs (w : World) : ℕ := w.leases.count true

/-- The number of live leases that are not promoted. -/
def liveRequests (w : World) : ℕ := w.leases.count false

/-- Moves the drain call `i` to `phase`. -/
def setPhase (w : World) (i : ℕ) (phase : DrainPhase) : World :=
  { w with drains := w.drains.modify i fun call => { call with phase } }

/-- Wakes the listening drain calls when nothing is in flight. -/
def notifyIfClear (w : World) : World :=
  if w.tracker.isClear then
    { w with drains := w.drains.map fun call => { call with phase := call.phase.notify } }
  else w

/-- `RequestLease::mark_print_job` on the lease `i`. -/
def markPrintJob (w : World) (i : ℕ) : World :=
  match w.leases[i]? with
  | some false =>
      match w.tracker.promoteRequest w.clock with
      | some tracker => { w with tracker, leases := w.leases.set i true }
      | none => w
  | _ => w

end World

/-- One event; `none` where the lease, permit or drain call it names is not there
or not at that point. -/
def step (w : World) : Event → Option World
  | .tick duration => some { w with clock := w.clock + duration }
  | .tryAcquireRequest =>
      match w.tracker.tryAcquireRequest with
      | some tracker => some { w with tracker, leases := w.leases ++ [false] }
      | none => some w
  | .markPrintJob i => if i < w.leases.length then some (w.markPrintJob i) else none
  | .dropLease i =>
      match w.leases[i]? with
      | some isPrintJob =>
          some { w with
            tracker := w.tracker.release isPrintJob w.clock
            leases := w.leases.eraseIdx i }.notifyIfClear
      | none => none
  | .beginDrain => some { w with tracker := w.tracker.beginDrain }
  | .cancelDrain => some { w with tracker := w.tracker.cancelDrain }
  | .drain timeout =>
      some { w with
        tracker := w.tracker.beginDrain
        drains := w.drains ++ [⟨w.clock + timeout, .starting⟩] }
  | .drainListen i =>
      match w.drains[i]? with
      | some ⟨_, .starting⟩ => some (w.setPhase i (.listening false))
      | _ => none
  | .drainObserve i =>
      match w.drains[i]? with
      | some ⟨_, .listening notified⟩ =>
          some (w.setPhase i (if w.tracker.isClear then .cleared else .waiting notified))
      | _ => none
  | .drainWake i =>
      match w.drains[i]? with
      | some ⟨_, .waiting true⟩ => some (w.setPhase i .starting)
      | _ => none
  | .drainTimeout i =>
      match w.drains[i]? with
      | some ⟨deadline, .waiting _⟩ =>
          if deadline ≤ w.clock then
            some ({ w with tracker := w.tracker.cancelDrain }.setPhase i .timedOut)
          else none
      | _ => none
  | .drainAbandon i =>
      match w.drains[i]? with
      | some ⟨_, .starting⟩ | some ⟨_, .listening _⟩ | some ⟨_, .waiting _⟩ =>
          some (w.setPhase i .abandoned)
      | _ => none
  | .tryBeginRestart =>
      match w.tracker.tryBeginRestart drainCooldown w.clock with
      | some tracker => some { w with tracker, permits := w.permits + 1 }
      | none => some w
  | .dropPermit =>
      if 0 < w.permits then
        some { w with tracker := w.tracker.dropPermit, permits := w.permits - 1 }
      else none

/-- The interleavings of the tracker's operations, from a tracker made at `now`. -/
def tracker (now : ℕ) : StepSystem World Event := ⟨.new now, step⟩

end ShaPrint.Tracker
