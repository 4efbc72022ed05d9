import ShaPrint.Channel.Channel
import ShaPrint.Domain.Error
import ShaPrint.Endpoint.JobBounds
import ShaPrint.Endpoint.Response
import ShaPrint.Lib.Processes

/-!
The answering of requests, `answer_job` and `answer_multi_step` of
`adapters/ipps/endpoint.rs` with the writers of `adapters/ipps/protocol.rs` they use, and
any number of requests at once over one job store, as `serve` of `adapters/ipps/mod.rs`
runs them.

A request goes through atomic sections: the first one ends where the submitter is awaited
or the lock of the store is released for the second time. What the source reads of its
dependencies is the input of a section: the selection, the channel, whether the submitter
is available, whether the lease was promoted, the clock and what the submitter returns.
Each section lists the calls that change something outside the request (`Effect`); `Server`
keeps them in order.

* `answerJob`, `answerMultiStep`: the first section, one function for each operation.
* `finishPrintJob`, `finishSendDocument`: what follows the submitter.
* `requests`, `endpoint`: any requests, in every interleaving. `stop` is the end of `serve`:
  it drops the requests in flight and aborts what is incomplete.
-/

namespace ShaPrint.Endpoint

open Ipp Channel BigEndian

/-! ### Responses about jobs -/

def requestedAttribute (requested : List String) (name : String) : Bool :=
  requested.isEmpty || requested.any fun value =>
    eqIgnoreAsciiCase value.toList "all".toList
      || eqIgnoreAsciiCase value.toList name.toList

def jobStateReason (state : ℤ) : String :=
  if state = 7 then "job-canceled-by-user"
  else if state = 8 then "job-aborted-by-system"
  else if state = 9 then "job-completed-successfully"
  else "none"

/-- `write_job_attributes`. -/
def jobGroup (requested : List String) (job : JobEntry) : Group where
  tag := Tag.jobAttributes
  values :=
    let write (name : String) (values : List Written) : List Written :=
      if requestedAttribute requested name then values else []
    write "job-uri" (writeText Tag.uri "job-uri" (String.ofList job.uri))
    ++ write "job-id" (writeInteger "job-id" job.id)
    ++ write "job-printer-uri"
        (writeText Tag.uri "job-printer-uri" (String.ofList job.printerUri))
    ++ write "job-name" (writeText Tag.name "job-name" job.name)
    ++ write "job-state" (writeIntegers Tag.enum "job-state" [job.state])
    ++ write "job-state-reasons"
        (writeText Tag.keyword "job-state-reasons" (jobStateReason job.state))
    ++ write "number-of-documents" (writeInteger "number-of-documents" job.documentCount)

/-- The id and the version of a request, which its response repeats. -/
structure Header where
  requestId : ℕ
  version : UInt8 × UInt8
  deriving DecidableEq

def headerOf (r : Request) : Header := ⟨r.requestId, r.responseVersion⟩

def jobsResponse (h : Header) (jobs : List JobEntry) (requested : List String) : Bytes :=
  message (responseHeader h.requestId h.version .ok)
    (operationGroup :: jobs.map (jobGroup requested))

def jobAttributesResponse (h : Header) (job : JobEntry) (requested : List String) : Bytes :=
  jobsResponse h [job] requested

def managedJobResponse (h : Header) (job : JobEntry) : Bytes := jobsResponse h [job] []

/-- The response to a submitted `Print-Job`; the id is written as a signed number. -/
def jobResponse (h : Header) (jobId : ℕ) (uri : Chars) : Bytes :=
  message (responseHeader h.requestId h.version .ok)
    [operationGroup,
      { tag := Tag.jobAttributes
        values := writeText Tag.uri "job-uri" (String.ofList uri)
          ++ writeInteger "job-id" jobId
          ++ writeIntegers Tag.enum "job-state" [3]
          ++ writeText Tag.keyword "job-state-reasons" "none" }]

/-! ### Sections -/

/-- What the submitter takes. -/
structure PrintJob where
  body : Bytes
  documentStart : ℕ
  settings : PrintSettings
  deriving DecidableEq

def PrintJob.document (job : PrintJob) : Bytes := job.body.drop job.documentStart

/-- A request that is acted upon, with the authority it came to and the selection it found. -/
structure Asked where
  request : Request
  host : Chars
  shared : List PrinterName
  deriving DecidableEq

/-- The printer a request names, if it is shared. -/
def Asked.selected (asked : Asked) : Option PrinterName :=
  (asked.request.value "printer-uri").bind fun uri =>
    findByUri asked.shared asked.host uri.toList

/-- A call that changes something outside the request. -/
inductive Effect where
  /-- `mark_print_job` promotes the request lease. -/
  | promoted
  /-- `PrintFailure::server` is reported to the server user. -/
  | reported (code : ErrorCode) (printer : Option PrinterName)
  /-- The submitter is called, for a job of the store or for a `Print-Job`. -/
  | submitted (asked : Asked) (jobId : Option ℤ) (printer : PrinterName) (job : PrintJob)
  /-- `Create-Job` is accepted. -/
  | created (asked : Asked) (printer : PrinterName) (settings : PrintSettings) (jobId : ℤ)
  /-- `Send-Document` is accepted. -/
  | appended (jobId : ℤ) (document : Bytes)
  | cancelled (jobId : ℤ)
  | finished (jobId : ℤ) (state : ℤ)
  /-- Tracked jobs reach the end of their lifetime. -/
  | expired (jobIds : List ℤ)
  | aborted (jobIds : List ℤ)
  /-- `Print-Job` is answered with an id of the spooler. -/
  | acknowledged (printer : PrinterName) (jobId : ℕ)
  deriving DecidableEq

/-- How far a request is. -/
inductive Phase where
  | received
  /-- `Print-Job` awaits the submitter. -/
  | submitting (h : Header) (printer : PrinterName)
  /-- A document is stored, and it was not the last. -/
  | stored (h : Header) (jobId : ℤ)
  /-- The last document is taken out, and the submitter is awaited. -/
  | sending (h : Header) (jobId : ℤ) (submission : JobSubmission)
  | answered (answer : Bytes)
  deriving DecidableEq

/-- What a section leaves. -/
structure Turn where
  store : JobStore
  effects : List Effect := []
  phase : Phase

/-- What a section reads of the server. -/
structure EndpointContext where
  shared : List PrinterName
  channel : NetworkChannel
  /-- `is_available` of the submitter. -/
  available : Bool
  /-- What `mark_print_job` returns. -/
  marked : Bool
  now : ℕ
  upTime : ℤ

/-- A request on a connection; a lease is named by a number. -/
structure Call where
  bytes : Bytes
  host : Chars
  lease : ℕ
  /-- The `serve` that accepted the connection. -/
  life : ℕ
  phase : Phase

/-- The jobs that are over their lifetime. -/
def JobStore.expiredIds (s : JobStore) (now : ℕ) : List ℤ :=
  (s.jobs.filter fun _ job => !job.isAlive now).keys

section Sections

variable (X : Services) (sha256 : Bytes → Vector UInt8 32)

/-- A response without printers. -/
def refusal (upTime : ℤ) (h : Header) (status : Status) : Phase :=
  .answered (response sha256 upTime h.requestId h.version status [])

/-- Nothing is done but the effects named. -/
def refuse (s : JobStore) (c : EndpointContext) (h : Header) (status : Status)
    (effects : List Effect := []) : Turn :=
  ⟨s, effects, refusal sha256 c.upTime h status⟩

/-- `answer_with_job_status`, from the operation on. -/
def answerWithJobStatus (c : EndpointContext) (host : Chars) (r : Request)
    (acceptingJobs : Bool) : Phase :=
  let respond (status : Status) (printers : List PrinterEntry) : Phase :=
    .answered (response sha256 c.upTime r.requestId r.responseVersion status printers)
  if r.operation = operationGetPrinters then
    respond .ok (c.shared.map fun name => entry host name acceptingJobs)
  else if r.operation = operationGetPrinterAttributes then
    let selected := match r.value "printer-uri" with
      | some uri => findByUri c.shared host uri.toList
      | none => (r.value "printer-name").bind fun name => findByName c.shared name.toList
    match selected with
    | some name => respond .ok [entry host name acceptingJobs]
    | none => respond .notFound []
  else respond .unsupportedOperation []

/-- The code a user should see when the spooler refused a job. -/
def submissionFailure (code : ErrorCode) : ErrorCode :=
  if code = .invalidInput then code else .queueUnavailable

/-- The status of a job the submitter refused. -/
def submissionStatus : ErrorCode → Status
  | .invalidInput => .attributesOrValuesNotSupported
  | .unsupported => .notAcceptingJobs
  | _ => .internalError

/-- `Print-Job` and `Validate-Job` once authorized. -/
def answerPrintJob (s : JobStore) (c : EndpointContext) (bytes : Bytes) (asked : Asked) : Turn :=
  let r := asked.request
  let h := headerOf r
  let printing := decide (r.operation = operationPrintJob)
  let effects := if printing then [Effect.promoted] else []
  if printing && !c.marked then refuse sha256 s c h .notAcceptingJobs effects
  else if !c.available then
    refuse sha256 s c h .notAcceptingJobs
      (effects ++ [.reported .queueUnavailable asked.selected])
  else match asked.selected with
    | none => refuse sha256 s c h .notFound effects
    | some printer =>
        match (r.value "document-format").map fun format => toAsciiLower format.toList with
        | some format =>
            if format ≠ "image/pwg-raster".toList then
              refuse sha256 s c h .documentFormatNotSupported effects
            else proceed h printing effects printer
        | none =>
            if printing then refuse sha256 s c h .badRequest effects
            else proceed h printing effects printer
where
  /-- From the settings on. -/
  proceed (h : Header) (printing : Bool) (effects : List Effect) (printer : PrinterName) :
      Turn :=
    match jobSettings asked.request with
    | .error status =>
        refuse sha256 s c h status
          (effects ++ if printing then [.reported .invalidInput (some printer)] else [])
    | .ok settings =>
        if !printing then refuse sha256 s c h .ok effects
        else if asked.request.document = [] then refuse sha256 s c h .badRequest effects
        else
          ⟨s, effects ++ [.submitted asked none printer
              ⟨bytes, asked.request.documentStart, settings⟩], .submitting h printer⟩

/-- A document format other than raster. -/
def wrongFormat (r : Request) : Bool :=
  (r.value "document-format").any fun format =>
    !eqIgnoreAsciiCase format.toList "image/pwg-raster".toList

/-- The id of the job a request is about. -/
def jobIdOf (r : Request) : Option ℤ := (r.integer "job-id").filter (0 < ·)

def answerCreateJob (s : JobStore) (c : EndpointContext) (lease : ℕ) (asked : Asked) : Turn :=
  let r := asked.request
  let h := headerOf r
  match asked.selected with
  | none => refuse sha256 s c h .notFound
  | some printer =>
      if r.document ≠ [] then refuse sha256 s c h .badRequest
      else if wrongFormat r then refuse sha256 s c h .documentFormatNotSupported
      else if !c.available then
        refuse sha256 s c h .notAcceptingJobs [.reported .queueUnavailable (some printer)]
      else match jobSettings r with
        | .error status =>
            refuse sha256 s c h status [.reported .invalidInput (some printer)]
        | .ok settings =>
            if !c.marked then refuse sha256 s c h .notAcceptingJobs [.promoted]
            else
              let expired := Effect.expired (s.expiredIds c.now)
              match s.create c.now asked.host printer (r.value "job-name") settings lease with
              | (.ok job, s') =>
                  ⟨s', [.promoted, expired, .created asked printer settings job.id],
                    .answered (managedJobResponse h job)⟩
              | (.error status, s') => refuse sha256 s' c h status [.promoted, expired]

def answerSendDocument (s : JobStore) (c : EndpointContext) (bytes : Bytes) (asked : Asked) :
    Turn :=
  let r := asked.request
  let h := headerOf r
  match asked.selected with
  | none => refuse sha256 s c h .notFound
  | some printer =>
      match jobIdOf r with
      | none => refuse sha256 s c h .badRequest
      | some jobId =>
          if wrongFormat r then refuse sha256 s c h .documentFormatNotSupported
          else match r.boolean "last-document" with
            | none => refuse sha256 s c h .badRequest
            | some lastDocument =>
                if r.document = [] then refuse sha256 s c h .badRequest
                else if !c.available then
                  refuse sha256 s c h .notAcceptingJobs
                    [.reported .queueUnavailable (some printer)]
                else
                  let expired := Effect.expired (s.expiredIds c.now)
                  match s.appendDocument c.now jobId printer r.document lastDocument with
                  | (.error status, s') => refuse sha256 s' c h status [expired]
                  | (.ok none, s') =>
                      ⟨s', [expired, .appended jobId r.document], .stored h jobId⟩
                  | (.ok (some submission), s') =>
                      let body := bytes.take r.documentStart ++ submission.document
                      ⟨s', [expired, .appended jobId r.document,
                          .submitted asked (some jobId) submission.printer
                            ⟨body, r.documentStart, submission.settings⟩],
                        .sending h jobId submission⟩

def answerGetJobAttributes (s : JobStore) (c : EndpointContext) (asked : Asked) : Turn :=
  let r := asked.request
  let h := headerOf r
  match jobIdOf r with
  | none => refuse sha256 s c h .badRequest
  | some jobId =>
      let expired := Effect.expired (s.expiredIds c.now)
      match s.get c.now jobId with
      | (.error status, s') => refuse sha256 s' c h status [expired]
      | (.ok job, s') =>
          match asked.selected with
          | none => refuse sha256 s' c h .notFound [expired]
          | some printer =>
              if !eqIgnoreAsciiCase printer.chars job.printerName.toList then
                refuse sha256 s' c h .notFound [expired]
              else
                ⟨s', [expired], .answered (jobAttributesResponse h job
                  (r.textValues "requested-attributes"))⟩

def answerGetJobs (s : JobStore) (c : EndpointContext) (asked : Asked) : Turn :=
  let r := asked.request
  let h := headerOf r
  match asked.selected with
  | none => refuse sha256 s c h .notFound
  | some printer =>
      match s.list c.now printer (r.value "which-jobs") with
      | (.ok jobs, s') =>
          ⟨s', [.expired (s.expiredIds c.now)],
            .answered (jobsResponse h jobs (r.textValues "requested-attributes"))⟩
      | (.error status, s') => refuse sha256 s' c h status

def answerCancelJob (s : JobStore) (c : EndpointContext) (asked : Asked) : Turn :=
  let r := asked.request
  let h := headerOf r
  match asked.selected with
  | none => refuse sha256 s c h .notFound
  | some printer =>
      match jobIdOf r with
      | none => refuse sha256 s c h .badRequest
      | some jobId =>
          let expired := Effect.expired (s.expiredIds c.now)
          match s.cancel c.now jobId printer with
          | (.ok job, s') =>
              ⟨s', [expired, .cancelled jobId], .answered (managedJobResponse h job)⟩
          | (.error status, s') => refuse sha256 s' c h status [expired]

/-- The operations on jobs of the store. -/
def isMultiStep (operation : ℕ) : Bool :=
  operation = operationCreateJob || operation = operationSendDocument
    || operation = operationCancelJob || operation = operationGetJobAttributes
    || operation = operationGetJobs

/-- The channel a request carries is accepted. -/
def authorized (channel : NetworkChannel) (r : Request) : Bool :=
  (r.value "network-channel").any (channel.authorizes X)

/-- `answer_multi_step`, which the operations on jobs of the store come to. -/
def answerMultiStep (s : JobStore) (c : EndpointContext) (call : Call) (r : Request) : Turn :=
  if !authorized X c.channel r then refuse sha256 s c (headerOf r) .notAuthorized
  else
    let asked : Asked := ⟨r, call.host, c.shared⟩
    if r.operation = operationCreateJob then answerCreateJob sha256 s c call.lease asked
    else if r.operation = operationSendDocument then
      answerSendDocument sha256 s c call.bytes asked
    else if r.operation = operationGetJobAttributes then
      answerGetJobAttributes sha256 s c asked
    else if r.operation = operationGetJobs then answerGetJobs sha256 s c asked
    else answerCancelJob sha256 s c asked

/-- The first section of a request. -/
def answerJob (s : JobStore) (c : EndpointContext) (call : Call) : Turn :=
  match Request.parse call.bytes with
  | .error _ => refuse sha256 s c ⟨0, (1, 1)⟩ .badRequest
  | .ok r =>
      if !r.versionIsSupported then refuse sha256 s c (headerOf r) .versionNotSupported
      else if isMultiStep r.operation then answerMultiStep X sha256 s c call r
      else if r.operation ≠ operationPrintJob ∧ r.operation ≠ operationValidateJob then
        ⟨s, [], answerWithJobStatus sha256 c call.host r
          (c.channel.isConfigured && c.available)⟩
      else if !authorized X c.channel r then refuse sha256 s c (headerOf r) .notAuthorized
      else answerPrintJob sha256 s c call.bytes ⟨r, call.host, c.shared⟩

/-- `Print-Job` once the submitter has returned. -/
def finishPrintJob (s : JobStore) (upTime : ℤ) (host : Chars) (h : Header)
    (printer : PrinterName) : Except ErrorCode ℕ → Turn
  | .ok jobId =>
      ⟨s, [.acknowledged printer jobId], .answered (jobResponse h jobId
        (jobUri (Endpoint.entry host printer true).uri jobId))⟩
  | .error code =>
      ⟨s, [.reported (submissionFailure code) (some printer)],
        refusal sha256 upTime h (submissionStatus code)⟩

/-- The second section of `Send-Document` where more documents are to come. -/
def lookStored (s : JobStore) (upTime : ℤ) (now : ℕ) (h : Header) (jobId : ℤ) : Turn :=
  let expired := Effect.expired (s.expiredIds now)
  match s.get now jobId with
  | (.ok job, s') => ⟨s', [expired], .answered (managedJobResponse h job)⟩
  | (.error status, s') => ⟨s', [expired], refusal sha256 upTime h status⟩

/-- `Send-Document` once the submitter has returned. -/
def finishSendDocument (s : JobStore) (upTime : ℤ) (h : Header) (jobId : ℤ)
    (submission : JobSubmission) : Except ErrorCode ℕ → Turn
  | .ok _ =>
      match s.finish jobId 9 with
      | (job, s') =>
          ⟨s', [.finished jobId 9], .answered (managedJobResponse h (job.getD submission.entry))⟩
  | .error code =>
      ⟨(s.finish jobId 8).2,
        [.reported (submissionFailure code) (some submission.printer), .finished jobId 8],
        refusal sha256 upTime h (submissionStatus code)⟩

/-- What a section gets from outside. -/
inductive Input where
  | answer (c : EndpointContext)
  | look (now : ℕ) (upTime : ℤ)
  | submitted (result : Except ErrorCode ℕ) (upTime : ℤ)

/-- The next section of a request. -/
def resume (s : JobStore) (call : Call) : Input → Option Turn
  | .answer c =>
      match call.phase with
      | .received => some (answerJob X sha256 s c call)
      | _ => none
  | .look now upTime =>
      match call.phase with
      | .stored h jobId => some (lookStored sha256 s upTime now h jobId)
      | _ => none
  | .submitted result upTime =>
      match call.phase with
      | .submitting h printer =>
          some (finishPrintJob sha256 s upTime call.host h printer result)
      | .sending h jobId submission =>
          some (finishSendDocument sha256 s upTime h jobId submission result)
      | _ => none

/-! ### Requests at once -/

/-- The store, what was done so far, and the current `serve`. -/
structure Server where
  store : JobStore := JobStore.new
  log : List Effect := []
  life : ℕ := 0

/-- What happens beside the requests. -/
inductive Outside where
  /-- The cleanup of `serve`. -/
  | expire (now : ℕ)
  /-- `serve` ends: the requests in flight are dropped, and what is incomplete is aborted. -/
  | stop
  deriving DecidableEq

/-- The jobs that `abort_incomplete` aborts. -/
def JobStore.incompleteIds (s : JobStore) : List ℤ :=
  (s.jobs.filter fun _ job => job.entry.state = 3 ∨ job.entry.state = 5).keys

def outside (s : Server) : Outside → Server
  | .expire now =>
      { s with
        store := s.store.expireLocked now
        log := s.log ++ [.expired (s.store.expiredIds now)] }
  | .stop =>
      { store := s.store.abortIncomplete
        log := s.log ++ [.aborted s.store.incompleteIds]
        life := s.life + 1 }

/-- The requests; those of an earlier `serve` do not go on. -/
def requests : Processes Server Call Input Outside where
  init := {}
  starts call := match call.phase with
    | .received => true
    | _ => false
  advance s call x :=
    if call.life = s.life then
      (resume X sha256 s.store call x).map fun turn =>
        ({ s with store := turn.store, log := s.log ++ turn.effects },
          { call with phase := turn.phase }, [])
    else none
  outside s x := some (outside s x)

abbrev World := Processes.World Server Call

abbrev Event := Processes.Event Call Input Outside

/-- The interleavings of any requests, from an empty store. -/
def endpoint : StepSystem World Event := (requests X sha256).system

end Sections

end ShaPrint.Endpoint
