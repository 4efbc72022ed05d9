import ShaPrint.Client.Route
import ShaPrint.Queue.Classify
import ShaPrint.Queue.PageSize

/-!
Client queues on CUPS, from `adapters/printers/cups.rs` and
`adapters/queue_installation/cups.rs`.

CUPS itself is a parameter: what libcups answers in a state of the print system, and what a
run of one of its tools answers and leaves behind.

* `Cups`: that parameter, and the queries that both adapters share.
* `plan`: what `apply_queue` reads before it changes anything.
* `applyQueue`, `install`, `repair`: the installer.
* `inspectClientQueue`, `pendingClientJobs`: the catalog.
-/

namespace ShaPrint.Queue

open Split Client

/-- A CUPS destination, as `query_cups_destinations` reports it. -/
structure CupsDestinationRecord where
  name : Chars
  deviceUri : Chars
  hasUsableConversion : Bool
  options : List (Chars × Chars)
  deriving DecidableEq

/-- How a tool ended that could be run. -/
structure Output where
  success : Bool
  stdout : Chars
  stderr : Chars
  deriving DecidableEq

/-- CUPS as the adapters reach it, over the states of the print system. A tool that cannot be
run answers an error. -/
structure Cups (σ : Type) where
  getDests : σ → Except AppError (List CupsDestinationRecord)
  getJobs : σ → Chars → Except AppError ℕ
  getPpd : σ → Chars → Except AppError Chars
  lpadmin : List Chars → σ → Except Chars Output × σ
  lpoptions : List Chars → σ → Except Chars Output

/-- The stable classification of an elevated action's failure. -/
inductive SetupFailureKind where
  | unsupported
  | permissionDenied
  | invalidRequest
  | spoolerUnavailable
  | queueRejected
  | existingQueueConflict
  | timedOut
  | other
  | queueBusy
  | queueNotFound
  deriving DecidableEq

structure SetupFailure where
  kind : SetupFailureKind
  detail : String
  deriving DecidableEq

namespace CupsDestinationRecord

/-- Options that the spooler manages, which are no user's print defaults. -/
def systemOptions : List Chars :=
  ["device-uri".toList, "printer-name".toList, "printer-info".toList,
    "printer-is-accepting-jobs".toList, "printer-is-shared".toList,
    "printer-is-temporary".toList, "printer-location".toList, "printer-make-and-model".toList,
    "printer-state".toList, "printer-state-change-time".toList, "printer-state-reasons".toList,
    "printer-state-message".toList, "printer-type".toList, "printer-uri-supported".toList,
    "marker-change-time".toList, "job-cancel-after".toList, "job-hold-until".toList,
    "job-priority".toList, "job-sheets".toList]

def isCupsSystemOption (key : Chars) : Bool := systemOptions.contains (toAsciiLower key)

/-- User-configured print defaults. -/
def userOptions (record : CupsDestinationRecord) : List (Chars × Chars) :=
  record.options.filter fun option => !isCupsSystemOption option.1

end CupsDestinationRecord

def hasUserPagesizeOrMedia (options : List (Chars × Chars)) : Bool :=
  options.any fun option =>
    eqIgnoreAsciiCase option.1 "pagesize".toList || eqIgnoreAsciiCase option.1 "media".toList

/-- A text that goes to libcups as a C string. -/
def asCString (name : Chars) : Except AppError Chars :=
  if '\x00' ∈ name then .error (.invalidInput "invalid printer destination name") else .ok name

/-- One of the texts occurs in a tool's message. -/
def mentions (message : Chars) (texts : List Chars) : Bool :=
  texts.any fun text => (splitOnce message text).isSome

def classifyLpadminFailure (stderr : Chars) : SetupFailure :=
  let lower := toAsciiLower stderr
  let kind : SetupFailureKind :=
    if mentions lower ["forbidden".toList, "not authorized".toList, "unauthorized".toList,
        "permission denied".toList] then .permissionDenied
    else if mentions lower ["unable to connect".toList, "service unavailable".toList,
        "bad file descriptor".toList, "connection refused".toList, "host is down".toList] then
      .spoolerUnavailable
    else if mentions lower ["unable to create ppd".toList, "unable to copy ppd".toList,
        "does not support required ipp attributes".toList, "printer does not support".toList,
        "not supported".toList, "bad-request".toList, "client-error".toList,
        "server-error".toList] then .queueRejected
    else .other
  let text := String.ofList stderr
  ⟨kind, s!"lpadmin failed: {text}"⟩

namespace Cups

variable {σ : Type} (C : Cups σ)

def queryCupsActiveJobs (s : σ) (cupsName : Chars) : Except AppError ℕ :=
  (asCString cupsName).bind (C.getJobs s)

def queryCupsPrinterPpd (s : σ) (cupsName : Chars) : Except AppError Chars :=
  (asCString cupsName).bind (C.getPpd s)

/-! ### The installer -/

/-- What `apply_queue` does once it has read the state of CUPS. -/
inductive Plan where
  | keep
  | configure (isNewQueue : Bool) (preservedOptions : List (Chars × Chars))
  deriving DecidableEq

/-- The print defaults that a queue keeps: the user's, and the page size of its old PPD if
the user chose none. -/
def preserved (s : σ) (cupsName : Chars) (existing : CupsDestinationRecord) :
    List (Chars × Chars) :=
  let options := existing.userOptions
  if hasUserPagesizeOrMedia options then options
  else
    match C.queryCupsPrinterPpd s cupsName with
    | .error _ => options
    | .ok oldPpd =>
        match extractValidDefaultPagesizeFromPpd oldPpd with
        | some validPs => options ++ [("PageSize".toList, validPs)]
        | none => options

section

variable (sha256 : Bytes → Vector UInt8 32) (proxyAuthority : Chars)
  (request : ClientQueueRequest) (recreateExisting : Bool)

/-- What becomes of a destination that has the queue's name already. -/
def planExisting (s : σ) (existing : CupsDestinationRecord) : Except SetupFailure Plan :=
  let cupsName := request.cupsDestinationName sha256
  let cups := String.ofList cupsName
  match (SpoolerRecord.mk existing.name existing.deviceUri).classify sha256 proxyAuthority with
  | .recognisedClientQueue q =>
      if q.serverAddress ≠ request.serverAddress ∨ q.printerName ≠ request.printer then
        let server := String.ofList q.serverAddress
        let printer := String.ofList q.printerName.chars
        .error ⟨.existingQueueConflict, s!"existing CUPS queue '{cups}' points to conflicting destination server='{server}' printer='{printer}'"⟩
      else if existing.hasUsableConversion && !recreateExisting then .ok .keep
      else
        match C.queryCupsActiveJobs s cupsName with
        | .error e => .error ⟨.spoolerUnavailable, e.message⟩
        | .ok activeJobs =>
            if 0 < activeJobs then
              .error ⟨.queueBusy, s!"CUPS queue '{cups}' has {activeJobs} pending print jobs; cancel or wait for them to finish before repairing"⟩
            else .ok (.configure false (C.preserved s cupsName existing))
  | _ =>
      let uri := String.ofList existing.deviceUri
      .error ⟨.existingQueueConflict, s!"existing CUPS queue '{cups}' points to '{uri}' and is not owned by ShaPrint"⟩

/-- What is read before anything is changed. -/
def plan (s : σ) : Except SetupFailure Plan :=
  match C.getDests s with
  | .error e => .error ⟨.spoolerUnavailable, e.message⟩
  | .ok destinations =>
      match destinations.find? fun d => d.name == request.cupsDestinationName sha256 with
      | some existing =>
          C.planExisting sha256 proxyAuthority request recreateExisting s existing
      | none => .ok (.configure true [])

end

/-- The arguments that create a queue, or point it to its destination again. Every queue is
driverless. -/
def queueArguments (cupsName uri description : Chars) : List Chars :=
  ["-p".toList, cupsName, "-E".toList, "-v".toList, uri, "-D".toList, description, "-o".toList,
    "printer-is-shared=false".toList, "-m".toList, "everywhere".toList]

/-- Creates or updates a queue. A queue that is new is removed again if that fails. -/
def configureDestination (cupsName uri description : Chars) (isNewQueue : Bool) (s : σ) :
    Except SetupFailure Unit × σ :=
  match C.lpadmin (queueArguments cupsName uri description) s with
  | (.error e, s) =>
      let text := String.ofList e
      (.error ⟨.other, s!"cannot execute lpadmin: {text}"⟩, s)
  | (.ok everywhere, s) =>
      if everywhere.success then (.ok (), s)
      else
        (.error (classifyLpadminFailure (trim everywhere.stderr)),
          if isNewQueue then (C.lpadmin ["-x".toList, cupsName] s).2 else s)

/-- The arguments that set options of a queue. -/
def optionArguments (cupsName : Chars) (options : List (Chars × Chars)) : List Chars :=
  "-p".toList :: cupsName ::
    options.flatMap fun option => ["-o".toList, option.1 ++ '=' :: option.2]

/-- Selects a valid page size of the generated PPD, or of what `lpoptions` lists. -/
def autoConfigureDefaultPagesize (cupsName : Chars) (s : σ) : σ :=
  let pagesize := ((C.queryCupsPrinterPpd s cupsName).toOption.bind
      resolveDefaultPagesizeFromPpd).or <|
    (C.lpoptions ["-p".toList, cupsName, "-l".toList] s).toOption.bind fun out =>
      if out.success then resolveDefaultPagesizeFromLpoptions out.stdout else none
  match pagesize with
  | some ps => (C.lpadmin (optionArguments cupsName [("PageSize".toList, ps)]) s).2
  | none => s

def applyUserOptions (cupsName : Chars) (options : List (Chars × Chars)) (s : σ) : σ :=
  if options = [] then s else (C.lpadmin (optionArguments cupsName options) s).2

section

variable (sha256 : Bytes → Vector UInt8 32) (proxyAuthority : Chars)
  (request : ClientQueueRequest)

/-- `apply_queue`, from the plan on. -/
def applyPlan (uri : Chars) (s : σ) : Plan → Except SetupFailure Unit × σ
  | .keep => (.ok (), s)
  | .configure isNewQueue preservedOptions =>
      let cupsName := request.cupsDestinationName sha256
      match C.configureDestination cupsName uri request.queueName.value isNewQueue s with
      | (.error e, s) => (.error e, s)
      | (.ok (), s) =>
          let s := if hasUserPagesizeOrMedia preservedOptions then s
            else C.autoConfigureDefaultPagesize cupsName s
          (.ok (), C.applyUserOptions cupsName preservedOptions s)

def applyQueue (recreateExisting : Bool) (s : σ) : Except SetupFailure Unit × σ :=
  match clientQueueUri proxyAuthority request.serverAddress request.printer.chars with
  | .error e => (.error ⟨.invalidRequest, e.message⟩, s)
  | .ok uri =>
      match C.plan sha256 proxyAuthority request recreateExisting s with
      | .error e => (.error e, s)
      | .ok plan => C.applyPlan sha256 request uri s plan

def install : σ → Except SetupFailure Unit × σ := C.applyQueue sha256 proxyAuthority request false

def repair : σ → Except SetupFailure Unit × σ := C.applyQueue sha256 proxyAuthority request true

end

end Cups

/-! ### The catalog -/

inductive LocalQueueInspection where
  | matching (pendingJobs : Option ℕ)
  | missing
  | mismatched
  deriving DecidableEq

/-- The parts of `LocalPrinterCatalog` that look at one client queue. -/
structure LocalPrinterCatalog where
  inspectClientQueue : RecognisedClientQueue → Except AppError LocalQueueInspection
  pendingClientJobs : RecognisedClientQueue → Except AppError ℕ

section

variable (sha256 : Bytes → Vector UInt8 32) (proxyAuthority : Chars)

def LocalQueueInspection.fromRecord (record : SpoolerRecord) (target : RecognisedClientQueue)
    (pendingJobs : Option ℕ) : LocalQueueInspection :=
  match record.classify sha256 proxyAuthority with
  | .recognisedClientQueue queue => if queue = target then .matching pendingJobs else .mismatched
  | _ => .mismatched

namespace Cups

variable {σ : Type} (C : Cups σ)

def pendingClientJobs (s : σ) (target : RecognisedClientQueue) : Except AppError ℕ :=
  (C.queryCupsActiveJobs s target.queueName.value).bind fun count =>
    if count < 2 ^ 32 then .ok count
    else .error (.queueUnavailable "native job count is unavailable")

def inspectClientQueue (s : σ) (target : RecognisedClientQueue) :
    Except AppError LocalQueueInspection :=
  (C.getDests s).map fun dests =>
    match dests.find? fun dest => dest.name == target.queueName.value with
    | none => .missing
    | some dest => .fromRecord sha256 proxyAuthority ⟨dest.name, dest.deviceUri⟩ target none

/-- `CupsPrinterCatalog`, in a state of the print system. -/
def catalog (s : σ) : LocalPrinterCatalog :=
  ⟨C.inspectClientQueue sha256 proxyAuthority s, C.pendingClientJobs s⟩

end Cups

end

end ShaPrint.Queue
