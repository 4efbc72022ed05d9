import Mathlib.Data.List.MinMax
import ShaPrint.Endpoint.Address
import ShaPrint.Endpoint.Settings
import ShaPrint.Lib.Digits
import ShaPrint.Lib.StepSystem

/-!
The job store of the sharing endpoint, `JobStore` in `adapters/ipps/endpoint.rs`: the
jobs of multi-step submissions, and the operations on them, each one critical section.

Instants and durations are natural numbers of nanoseconds; one critical section reads the
clock once. The map of jobs is an extensional tree map, so two stores with the same jobs
are equal. Request leases are named by numbers; dropping one is not an operation of the
store. The branches of a poisoned lock are left out, since no section panics.

* `JobStore` and its operations.
* `StoreOp`, `apply`: an operation as a value, and what it leaves.
* `jobStore`: the step system whose runs are the sequences of operations.
-/

namespace ShaPrint.Endpoint

open Ipp

def pendingJobLifetime : ℕ := 5 * 60 * 1000000000
def jobHistoryLifetime : ℕ := 60 * 60 * 1000000000
def maxTrackedJobs : ℕ := 256
def maxJobDocumentBytes : ℕ := 64 * 1024 * 1024

/-- The largest signed number of 32 bits. -/
def i32Max : ℤ := 2147483647

/-- What clients are told about a job. The states are pending 3, processing 5, canceled 7,
aborted 8 and completed 9. -/
structure JobEntry where
  id : ℤ
  uri : Chars
  printerUri : Chars
  printerName : String
  name : String
  documentCount : ℤ
  state : ℤ
  deriving DecidableEq

/-- A tracked job. -/
structure StoredJob where
  entry : JobEntry
  printer : PrinterName
  settings : PrintSettings
  document : Bytes
  createdAt : ℕ
  pendingLease : Option ℕ
  deriving DecidableEq

/-- A job taken out of the store for the spooler. -/
structure JobSubmission where
  entry : JobEntry
  printer : PrinterName
  settings : PrintSettings
  document : Bytes
  deriving DecidableEq

namespace StoredJob

/-- The job is over. -/
def isTerminal (job : StoredJob) : Bool := 7 ≤ job.entry.state && job.entry.state ≤ 9

def lifetime (job : StoredJob) : ℕ :=
  if job.entry.state = 3 then pendingJobLifetime else jobHistoryLifetime

/-- The job is kept at `now`. -/
def isAlive (now : ℕ) (job : StoredJob) : Bool := now - job.createdAt < job.lifetime

/-- The job in a terminal state: its document and its lease are gone. -/
def close (job : StoredJob) (state : ℤ) : StoredJob :=
  { job with entry := { job.entry with state }, document := [], pendingLease := none }

end StoredJob

/-- `{printer_uri}/jobs/{id}`. -/
def jobUri (printerUri : Chars) (id : ℤ) : Chars :=
  printerUri ++ "/jobs/".toList ++ (toString id).toList

/-- What the lock of the store protects. -/
structure JobStore where
  nextId : ℤ
  jobs : Std.ExtTreeMap ℤ StoredJob

namespace JobStore

def new : JobStore := ⟨1, ∅⟩

/-- `expire_locked`. -/
def expireLocked (s : JobStore) (now : ℕ) : JobStore :=
  { s with jobs := s.jobs.filter fun _ job => job.isAlive now }

/-- The oldest job that is over; the lowest id among equally old ones. -/
def oldestTerminal (s : JobStore) : Option ℤ :=
  ((s.jobs.toList.filter fun p => p.2.isTerminal).argmin fun p => p.2.createdAt).map (·.1)

/-- The store with room for one more job; `none` where every tracked job is active. -/
def makeRoom (s : JobStore) : Option JobStore :=
  if maxTrackedJobs ≤ s.jobs.size then
    s.oldestTerminal.map fun id => { s with jobs := s.jobs.erase id }
  else some s

/-- The turns of `next_id` that are left. -/
def nextIdLoop : ℕ → JobStore → Except Status ℤ × JobStore
  | 0, s => (.error .notAcceptingJobs, s)
  | turns + 1, s =>
      let id := max s.nextId 1
      let s := { s with nextId := if id = i32Max then 1 else id + 1 }
      if s.jobs.contains id then nextIdLoop turns s else (.ok id, s)

def allocateId (s : JobStore) : Except Status ℤ × JobStore := nextIdLoop (maxTrackedJobs + 1) s

def newEntry (host : Chars) (printer : PrinterName) (name : Option String) (id : ℤ) :
    JobEntry :=
  let printerUri := (entry host printer true).uri
  { id
    uri := jobUri printerUri id
    printerUri
    printerName := printer.value
    name := name.getD "ShaPrint job"
    documentCount := 0
    state := 3 }

def create (s : JobStore) (now : ℕ) (host : Chars) (printer : PrinterName)
    (name : Option String) (settings : PrintSettings) (lease : ℕ) :
    Except Status JobEntry × JobStore :=
  let s := s.expireLocked now
  match s.makeRoom with
  | none => (.error .notAcceptingJobs, s)
  | some s =>
      match s.allocateId with
      | (.error status, s) => (.error status, s)
      | (.ok id, s) =>
          let job := newEntry host printer name id
          (.ok job, { s with
            jobs := s.jobs.insert id ⟨job, printer, settings, [], now, some lease⟩ })

def get (s : JobStore) (now : ℕ) (id : ℤ) : Except Status JobEntry × JobStore :=
  let s := s.expireLocked now
  match s.jobs[id]? with
  | some job => (.ok job.entry, s)
  | none => (.error .notFound, s)

/-- The values of `which-jobs`, and the states each selects. -/
def whichStates (which : Chars) : Option (ℤ → Bool) :=
  let which := toAsciiLower which
  if which = "all".toList then some fun _ => true
  else if which = "completed".toList then some fun state => 7 ≤ state && state ≤ 9
  else if which = "not-completed".toList then some fun state => 3 ≤ state && state ≤ 6
  else if which = "canceled".toList then some fun state => state == 7
  else if which = "aborted".toList then some fun state => state == 8
  else none

def list (s : JobStore) (now : ℕ) (printer : PrinterName) (whichJobs : Option String) :
    Except Status (List JobEntry) × JobStore :=
  match whichStates (whichJobs.getD "not-completed").toList with
  | none => (.error .attributesOrValuesNotSupported, s)
  | some selects =>
      let s := s.expireLocked now
      let jobs := s.jobs.toList.map (·.2)
      (.ok ((jobs.filter fun job =>
        eqIgnoreAsciiCase job.printer.chars printer.chars && selects job.entry.state).map
          (·.entry)), s)

/-- The pending job `id` of the printer, or the status its absence is answered with. -/
def pendingJob (s : JobStore) (id : ℤ) (printer : PrinterName) : Except Status StoredJob :=
  match s.jobs[id]? with
  | none => .error .notFound
  | some job =>
      if !eqIgnoreAsciiCase job.printer.chars printer.chars then .error .notFound
      else if job.entry.state ≠ 3 then .error .notPossible
      else .ok job

/-- The job with one more document. -/
def addDocument (job : StoredJob) (document : Bytes) : StoredJob :=
  { job with
    entry := { job.entry with documentCount := min (job.entry.documentCount + 1) i32Max }
    document := job.document ++ document }

/-- The job once its documents are taken. -/
def takeDocument (job : StoredJob) : StoredJob :=
  { job with entry := { job.entry with state := 5 }, document := [] }

def appendDocument (s : JobStore) (now : ℕ) (id : ℤ) (printer : PrinterName)
    (document : Bytes) (lastDocument : Bool) :
    Except Status (Option JobSubmission) × JobStore :=
  let s := s.expireLocked now
  match s.pendingJob id printer with
  | .error status => (.error status, s)
  | .ok job =>
      if maxJobDocumentBytes - job.document.length < document.length then
        (.error .documentTooLarge, s)
      else
        let job := addDocument job document
        if !lastDocument then (.ok none, { s with jobs := s.jobs.insert id job })
        else
          let taken := takeDocument job
          (.ok (some ⟨taken.entry, job.printer, job.settings, job.document⟩),
            { s with jobs := s.jobs.insert id taken })

/-- `finish`: there is no expiry here, and any tracked job is closed. -/
def finish (s : JobStore) (id stateValue : ℤ) : Option JobEntry × JobStore :=
  match s.jobs[id]? with
  | none => (none, s)
  | some job =>
      let job := job.close stateValue
      (some job.entry, { s with jobs := s.jobs.insert id job })

def cancel (s : JobStore) (now : ℕ) (id : ℤ) (printer : PrinterName) :
    Except Status JobEntry × JobStore :=
  let s := s.expireLocked now
  match s.pendingJob id printer with
  | .error status => (.error status, s)
  | .ok job =>
      let job := job.close 7
      (.ok job.entry, { s with jobs := s.jobs.insert id job })

def abortIncomplete (s : JobStore) : JobStore :=
  { s with jobs := s.jobs.map fun _ job =>
      if job.entry.state = 3 ∨ job.entry.state = 5 then job.close 8 else job }

end JobStore

/-! ### Sequences of operations -/

/-- How a submission ended: the states `finish` is called with. -/
inductive Outcome where
  | completed
  | aborted
  deriving DecidableEq, Repr

def Outcome.state : Outcome → ℤ
  | completed => 9
  | aborted => 8

/-- One operation on the store. -/
inductive StoreOp where
  | create (now : ℕ) (host : Chars) (printer : PrinterName) (name : Option String)
      (settings : PrintSettings) (lease : ℕ)
  | get (now : ℕ) (id : ℤ)
  | list (now : ℕ) (printer : PrinterName) (whichJobs : Option String)
  | appendDocument (now : ℕ) (id : ℤ) (printer : PrinterName) (document : Bytes)
      (lastDocument : Bool)
  | finish (id : ℤ) (outcome : Outcome)
  | cancel (now : ℕ) (id : ℤ) (printer : PrinterName)
  | expire (now : ℕ)
  | abortIncomplete

namespace JobStore

/-- The store an operation leaves. -/
def apply (s : JobStore) : StoreOp → JobStore
  | .create now host printer name settings lease =>
      (s.create now host printer name settings lease).2
  | .get now id => (s.get now id).2
  | .list now printer whichJobs => (s.list now printer whichJobs).2
  | .appendDocument now id printer document lastDocument =>
      (s.appendDocument now id printer document lastDocument).2
  | .finish id outcome => (s.finish id outcome.state).2
  | .cancel now id printer => (s.cancel now id printer).2
  | .expire now => s.expireLocked now
  | .abortIncomplete => s.abortIncomplete

end JobStore

/-- The sequences of operations on a new store. -/
def jobStore : StepSystem JobStore StoreOp where
  init := JobStore.new
  step s op := some (s.apply op)

end ShaPrint.Endpoint
