import ShaPrint.Client.Delivery
import ShaPrint.Client.Proxied

/-!
What the user of a client is told about a print: the end of `serve_client` in
`adapters/client_proxy.rs`, where the server has answered or could not be asked.

* `forwardedFailure`, `ippStatusFor`, `replied`: what is reported, and what the spooler gets.
* `reported_refusal`, `reported_error`: a refusal of the server, and a failure to ask it.
* `Traced`, `LeftTrace`: what a submission has done on the server, by how far it is.
* `traced_answerJob`, `traced_resume`: one section; `allTraced_of_step`, `nothing_lost`: every run.
-/

namespace ShaPrint.Client

open Ipp Endpoint Channel BigEndian

/-! ### Reports -/

/-- Operations that submit or validate a print job. -/
def isPrintSubmission (operation : ℕ) : Bool :=
  operation = operationPrintJob || operation = operationValidateJob
    || operation = operationCreateJob || operation = operationSendDocument

/-- The failure a user should see for an IPP status the server returned for a print job. -/
def forwardedFailure (status : ℕ) : Option ErrorCode :=
  if status ≤ 0x00ff then none
  else if status = Status.notAuthorized.code then some .notAuthorized
  else if status = Status.notFound.code then some .printerNotShared
  else if 0x0500 ≤ status ∧ status ≤ 0x05ff then some .queueUnavailable
  else some .invalidInput

/-- The IPP status a local driver sees when forwarding failed. -/
def ippStatusFor : ErrorCode → Status
  | .invalidInput => .badRequest
  | .notAuthorized | .invalidState | .serverNotTrusted | .serverIdentityChanged => .notAuthorized
  | .printerNotShared => .notFound
  | _ => .internalError

/-- The status of a response, if it is long enough to have one. -/
def statusIn (response : Bytes) : Option ℕ :=
  if 4 ≤ response.length then some (statusOf response) else none

/-- What is reported to the user, for the outcome of forwarding. -/
def reportedFailure (operation : ℕ) (forwarded : Except AppError Bytes) : Option ErrorCode :=
  if isPrintSubmission operation then
    match forwarded with
    | .ok response =>
        match statusIn response with
        | some status => forwardedFailure status
        | none => some .queueUnavailable
    | .error error => some error.code
  else none

/-- What becomes of the server's answer. -/
structure Reply where
  reported : Option ErrorCode
  response : Bytes

/-- The end of `serve_client`. -/
def replied (sha256 : Bytes → Vector UInt8 32) (upTime : ℤ) (r : Request)
    (remoteUri localUri : Chars) (forwarded : Except AppError Bytes) : Reply where
  reported := reportedFailure r.operation forwarded
  response :=
    let respond (status : Status) : Bytes :=
      response sha256 upTime r.requestId r.responseVersion status []
    match forwarded with
    | .ok answer =>
        if r.operation = operationGetPrinterAttributes then
          match rewritePrinterUriSupported sha256 upTime answer remoteUri localUri with
          | .ok answer => answer
          | .error _ => respond .internalError
        else answer
    | .error error => respond (ippStatusFor error.code)

lemma statusIn_message (requestId : ℕ) (version : UInt8 × UInt8) (status : Status)
    (groups : List Group) :
    statusIn (message (responseHeader requestId version status) groups) = some status.code := by
  have hcode := ofBe16_be16 status.code_lt
  unfold statusIn
  rw [if_pos (by simp [message, responseHeader, be16])]
  exact congrArg some hcode

/-- The only status that is not reported is success. -/
lemma forwardedFailure_code (status : Status) :
    forwardedFailure status.code = none ↔ status = .ok := by
  cases status <;> decide

/-- A refusal of the server is reported. -/
lemma reported_refusal {operation : ℕ} (h : isPrintSubmission operation = true)
    {sha256 : Bytes → Vector UInt8 32} {upTime : ℤ} {requestId : ℕ} {version : UInt8 × UInt8}
    {status : Status} (hstatus : status ≠ .ok) :
    reportedFailure operation (.ok (response sha256 upTime requestId version status []))
      ≠ none := by
  have hin : statusIn (response sha256 upTime requestId version status []) = some status.code :=
    statusIn_message _ _ _ _
  rw [reportedFailure, if_pos h]
  simp only [hin]
  exact mt (forwardedFailure_code status).mp hstatus

/-- So is a submission that could not be forwarded. -/
lemma reported_error {operation : ℕ} (h : isPrintSubmission operation = true) (error : AppError) :
    reportedFailure operation (.error error) ≠ none := by
  simp [reportedFailure, h]

/-- What the server answers a submission is passed on as it is. -/
lemma replied_submission {sha256 : Bytes → Vector UInt8 32} {upTime : ℤ} {q : Request}
    {remoteUri localUri : Chars} {answer : Bytes} (h : isPrintSubmission q.operation = true) :
    (replied sha256 upTime q remoteUri localUri (.ok answer)).response = answer := by
  have hother : q.operation ≠ operationGetPrinterAttributes := by
    intro hquery
    rw [hquery] at h
    exact absurd h (by decide)
  exact if_neg hother

/-! ### The trace of a submission -/

/-- The document of a request was handed to the spooler for a printer. -/
def Handed (log : List Effect) (r : Request) (printer : PrinterName) : Prop :=
  ∃ asked job, asked.request = r ∧ job.document = r.document
    ∧ Effect.submitted asked none printer job ∈ log

/-- What an accepted submission has done on the server. -/
inductive LeftTrace (log : List Effect) (r : Request) (answer : Bytes) : Prop where
  | validated (hoperation : r.operation = operationValidateJob)
  | printed (hoperation : r.operation = operationPrintJob) {printer : PrinterName} {jobId : ℕ}
      {uri : Chars} (hhanded : Handed log r printer)
      (hacknowledged : .acknowledged printer jobId ∈ log)
      (hanswer : answer = jobResponse (headerOf r) jobId uri)
  | created (hoperation : r.operation = operationCreateJob) {asked : Asked}
      {printer : PrinterName} {settings : PrintSettings} {job : JobEntry}
      (hasked : asked.request = r) (hsettings : jobSettings r = .ok settings)
      (hcreated : .created asked printer settings job.id ∈ log)
      (hanswer : answer = managedJobResponse (headerOf r) job)
  | sent (hoperation : r.operation = operationSendDocument) {jobId : ℤ}
      (hjob : jobIdOf r = some jobId) (happended : .appended jobId r.document ∈ log)
      (hlast : r.boolean "last-document" = some true → .finished jobId 9 ∈ log)

/-- How far a submission is, and what it has done. -/
def Traced (log : List Effect) (r : Request) : Phase → Prop
  | .received => True
  | .submitting h printer => h = headerOf r ∧ r.operation = operationPrintJob
      ∧ Handed log r printer
  | .stored _ jobId => r.operation = operationSendDocument ∧ jobIdOf r = some jobId
      ∧ .appended jobId r.document ∈ log ∧ r.boolean "last-document" = some false
  | .sending _ jobId _ => r.operation = operationSendDocument ∧ jobIdOf r = some jobId
      ∧ .appended jobId r.document ∈ log
  | .answered answer => reportedFailure r.operation (.ok answer) = none → LeftTrace log r answer

section Turns

variable {log log' : List Effect} {r : Request} {answer : Bytes} {phase : Phase}

lemma Handed.mono {printer : PrinterName} (h : Handed log r printer) (hle : log ⊆ log') :
    Handed log' r printer := by
  obtain ⟨asked, job, hasked, hdocument, hmem⟩ := h
  exact ⟨asked, job, hasked, hdocument, hle hmem⟩

lemma LeftTrace.mono (h : LeftTrace log r answer) (hle : log ⊆ log') :
    LeftTrace log' r answer := by
  cases h with
  | validated hoperation => exact .validated hoperation
  | printed hoperation hhanded hacknowledged hanswer =>
      exact .printed hoperation (hhanded.mono hle) (hle hacknowledged) hanswer
  | created hoperation hasked hsettings hcreated hanswer =>
      exact .created hoperation hasked hsettings (hle hcreated) hanswer
  | sent hoperation hjob happended hlast =>
      exact .sent hoperation hjob (hle happended) fun h => hle (hlast h)

/-- What was done stays done. -/
lemma Traced.mono (h : Traced log r phase) (hle : log ⊆ log') : Traced log' r phase := by
  cases phase with
  | received => exact trivial
  | submitting header printer => exact ⟨h.1, h.2.1, h.2.2.mono hle⟩
  | stored header jobId => exact ⟨h.1, h.2.1, hle h.2.2.1, h.2.2.2⟩
  | sending header jobId submission => exact ⟨h.1, h.2.1, hle h.2.2⟩
  | answered answer => exact fun hquiet => (h hquiet).mono hle

/-! ### The statuses of refusals -/

lemma media_error {status : Status} (h : r.media = .error status) :
    status = .attributesOrValuesNotSupported := by
  unfold Request.media at h
  split at h
  · cases h
  split at h
  · cases h
  split at h
  · exact (Except.error.inj h).symm
  dsimp only at h
  split at h
  · exact (Except.error.inj h).symm
  split at h
  · exact (Except.error.inj h).symm
  · cases h

lemma requestedColor_error {status : Status} (h : requestedColor r = .error status) :
    status = .attributesOrValuesNotSupported := by
  unfold requestedColor at h
  split at h
  · cases h
  · split_ifs at h
    exact (Except.error.inj h).symm

lemma requestedDuplex_error {status : Status} (h : requestedDuplex r = .error status) :
    status = .attributesOrValuesNotSupported := by
  unfold requestedDuplex at h
  split at h
  · cases h
  · split_ifs at h
    exact (Except.error.inj h).symm

lemma requestedCopies_error {status : Status} (h : requestedCopies r = .error status) :
    status = .attributesOrValuesNotSupported := by
  unfold requestedCopies at h
  split at h
  · cases h
  · split_ifs at h
    exact (Except.error.inj h).symm

lemma requestedOrientation_error {status : Status} (h : requestedOrientation r = .error status) :
    status = .attributesOrValuesNotSupported := by
  unfold requestedOrientation at h
  split at h
  · cases h
  · split_ifs at h
    exact (Except.error.inj h).symm

lemma requestedQuality_error {status : Status} (h : requestedQuality r = .error status) :
    status = .attributesOrValuesNotSupported := by
  unfold requestedQuality at h
  split at h
  · split_ifs at h
    exact (Except.error.inj h).symm
  split at h
  · split_ifs at h
    exact (Except.error.inj h).symm
  · split_ifs at h
    exact (Except.error.inj h).symm

/-- Settings that are not taken have one status, whichever check refuses them. -/
lemma jobSettings_error {status : Status} (h : jobSettings r = .error status) :
    status = .attributesOrValuesNotSupported := by
  unfold jobSettings at h
  rcases except_do_eq_error.mp h with hmedia | ⟨media, -, h⟩
  · exact media_error hmedia
  rcases except_do_eq_error.mp h with hcolor | ⟨color, -, h⟩
  · exact requestedColor_error hcolor
  rcases except_do_eq_error.mp h with hduplex | ⟨duplex, -, h⟩
  · exact requestedDuplex_error hduplex
  rcases except_do_eq_error.mp h with hcopies | ⟨copies, -, h⟩
  · exact requestedCopies_error hcopies
  rcases except_do_eq_error.mp h with horientation | ⟨orientation, -, h⟩
  · exact requestedOrientation_error horientation
  rcases except_do_eq_error.mp h with hquality | ⟨quality, -, h⟩
  · exact requestedQuality_error hquality
  · cases h

variable {X : Services} {sha256 : Bytes → Vector UInt8 32} {s s' : JobStore}
  {c : EndpointContext} {status : Status}

lemma nextIdLoop_status {turns : ℕ} (h : s.nextIdLoop turns = (.error status, s')) :
    status = .notAcceptingJobs := by
  induction turns generalizing s with
  | zero =>
      cases h
      rfl
  | succ turns ih =>
      rw [JobStore.nextIdLoop] at h
      dsimp only at h
      split at h
      · exact ih h
      · cases h

lemma create_status {now : ℕ} {host : Chars} {printer : PrinterName} {name : Option String}
    {settings : PrintSettings} {lease : ℕ}
    (h : s.create now host printer name settings lease = (.error status, s')) : status ≠ .ok := by
  unfold JobStore.create at h
  dsimp only at h
  split at h
  · cases h
    decide
  split at h
  · rename_i hallocate
    cases h
    rw [nextIdLoop_status hallocate]
    decide
  · cases h

lemma pendingJob_status {id : ℤ} {printer : PrinterName}
    (h : s.pendingJob id printer = .error status) : status ≠ .ok := by
  unfold JobStore.pendingJob at h
  split at h
  · cases h
    decide
  · split_ifs at h <;> cases h <;> decide

lemma appendDocument_status {now : ℕ} {id : ℤ} {printer : PrinterName} {document : Bytes}
    {lastDocument : Bool}
    (h : s.appendDocument now id printer document lastDocument = (.error status, s')) :
    status ≠ .ok := by
  unfold JobStore.appendDocument at h
  dsimp only at h
  split at h
  · rename_i hpending
    cases h
    exact pendingJob_status hpending
  split at h
  · cases h
    decide
  split at h
  · cases h
  · cases h

/-- A document after which more are to come was not the last. -/
lemma appendDocument_more {now : ℕ} {id : ℤ} {printer : PrinterName} {document : Bytes}
    {lastDocument : Bool}
    (h : s.appendDocument now id printer document lastDocument = (.ok none, s')) :
    lastDocument = false := by
  unfold JobStore.appendDocument at h
  dsimp only at h
  split at h
  · cases h
  split at h
  · cases h
  split at h
  · rename_i hmore
    simpa using hmore
  · cases h

lemma submissionStatus_ne (code : ErrorCode) : submissionStatus code ≠ .ok := by
  cases code <;> decide

/-! ### One section -/

variable (hsubmission : isPrintSubmission r.operation = true)

include hsubmission

/-- A refusal needs no trace, since the user is told of it. -/
lemma traced_refusal {upTime : ℤ} {h : Header} (hstatus : status ≠ .ok) :
    Traced log r (refusal sha256 upTime h status) := fun hquiet =>
  absurd hquiet (reported_refusal hsubmission hstatus)

lemma traced_refuse {h : Header} {effects : List Effect} (hstatus : status ≠ .ok) :
    Traced (refuse sha256 s c h status effects).effects r
      (refuse sha256 s c h status effects).phase :=
  traced_refusal hsubmission hstatus

lemma traced_proceed {bytes : Bytes} {host : Chars} {shared : List PrinterName}
    {effects : List Effect} {printer : PrinterName} {printing : Bool}
    (hprinting : printing = true → r.operation = operationPrintJob)
    (hvalidating : printing = false → r.operation = operationValidateJob)
    (hdocument : bytes.drop r.documentStart = r.document) :
    Traced (answerPrintJob.proceed sha256 s c bytes ⟨r, host, shared⟩ (headerOf r) printing
        effects printer).effects r
      (answerPrintJob.proceed sha256 s c bytes ⟨r, host, shared⟩ (headerOf r) printing
        effects printer).phase := by
  unfold answerPrintJob.proceed
  cases hsettings : jobSettings r with
  | error status => exact traced_refuse hsubmission (jobSettings_error hsettings ▸ by decide)
  | ok settings =>
      cases printing with
      | false => exact fun _ => .validated (hvalidating rfl)
      | true =>
          simp only [Bool.not_true, Bool.false_eq_true, if_false]
          split_ifs
          · exact traced_refuse hsubmission (by decide)
          · exact ⟨rfl, hprinting rfl, ⟨r, host, shared⟩, ⟨bytes, r.documentStart, settings⟩,
              rfl, hdocument, by simp⟩

/-- `Print-Job` and `Validate-Job`. -/
lemma traced_printJob {bytes : Bytes} {host : Chars} {shared : List PrinterName}
    (hoperation : r.operation = operationPrintJob ∨ r.operation = operationValidateJob)
    (hdocument : bytes.drop r.documentStart = r.document) :
    Traced (answerPrintJob sha256 s c bytes ⟨r, host, shared⟩).effects r
      (answerPrintJob sha256 s c bytes ⟨r, host, shared⟩).phase := by
  have hproceed : ∀ (effects : List Effect) (printer : PrinterName),
      Traced (answerPrintJob.proceed sha256 s c bytes ⟨r, host, shared⟩ (headerOf r)
          (decide (r.operation = operationPrintJob)) effects printer).effects r
        (answerPrintJob.proceed sha256 s c bytes ⟨r, host, shared⟩ (headerOf r)
          (decide (r.operation = operationPrintJob)) effects printer).phase := fun _ _ =>
    traced_proceed hsubmission of_decide_eq_true
      (fun h => hoperation.resolve_left (of_decide_eq_false h)) hdocument
  unfold answerPrintJob
  dsimp only
  split
  · exact traced_refuse hsubmission (by decide)
  split
  · exact traced_refuse hsubmission (by decide)
  split
  · exact traced_refuse hsubmission (by decide)
  split
  · split
    · exact traced_refuse hsubmission (by decide)
    · exact hproceed _ _
  · split
    · exact traced_refuse hsubmission (by decide)
    · exact hproceed _ _

lemma traced_createJob {host : Chars} {shared : List PrinterName} {lease : ℕ}
    (hoperation : r.operation = operationCreateJob) :
    Traced (answerCreateJob sha256 s c lease ⟨r, host, shared⟩).effects r
      (answerCreateJob sha256 s c lease ⟨r, host, shared⟩).phase := by
  unfold answerCreateJob
  dsimp only
  split
  · exact traced_refuse hsubmission (by decide)
  split
  · exact traced_refuse hsubmission (by decide)
  split
  · exact traced_refuse hsubmission (by decide)
  split
  · exact traced_refuse hsubmission (by decide)
  split
  · rename_i hsettings
    exact traced_refuse hsubmission (jobSettings_error hsettings ▸ by decide)
  rename_i hsettings
  split
  · exact traced_refuse hsubmission (by decide)
  split
  · exact fun _ => .created hoperation (rfl : (Asked.mk r host shared).request = r) hsettings
      (List.mem_cons_of_mem _ (List.mem_cons_of_mem _ (List.mem_singleton_self _))) rfl
  · rename_i hcreate
    exact traced_refuse hsubmission (create_status hcreate)

lemma traced_sendDocument {bytes : Bytes} {host : Chars} {shared : List PrinterName}
    (hoperation : r.operation = operationSendDocument) :
    Traced (answerSendDocument sha256 s c bytes ⟨r, host, shared⟩).effects r
      (answerSendDocument sha256 s c bytes ⟨r, host, shared⟩).phase := by
  unfold answerSendDocument
  dsimp only
  split
  · exact traced_refuse hsubmission (by decide)
  split
  · exact traced_refuse hsubmission (by decide)
  rename_i hjob
  split
  · exact traced_refuse hsubmission (by decide)
  split
  · exact traced_refuse hsubmission (by decide)
  rename_i lastDocument hlast
  split
  · exact traced_refuse hsubmission (by decide)
  split
  · exact traced_refuse hsubmission (by decide)
  split
  · rename_i happend
    exact traced_refuse hsubmission (appendDocument_status happend)
  · rename_i happend
    refine ⟨hoperation, hjob, by simp, ?_⟩
    rw [hlast, appendDocument_more happend]
  · exact ⟨hoperation, hjob, by simp⟩

/-- The first section of a submission. -/
lemma traced_answerJob {call : Call} (hparse : Request.parse call.bytes = .ok r) :
    Traced (answerJob X sha256 s c call).effects r (answerJob X sha256 s c call).phase := by
  unfold answerJob
  simp only [hparse]
  split
  · exact traced_refuse hsubmission (by decide)
  split
  · rename_i hmulti
    unfold answerMultiStep
    split
    · exact traced_refuse hsubmission (by decide)
    dsimp only
    split
    · rename_i hcreate
      exact traced_createJob hsubmission hcreate
    split
    · rename_i hsend
      exact traced_sendDocument hsubmission hsend
    · -- the other operations on jobs are no submissions
      rename_i hcreate hsend
      simp only [isMultiStep, hcreate, hsend, decide_false, Bool.false_or, Bool.or_eq_true,
        decide_eq_true_eq] at hmulti
      rcases hmulti with (hother | hother) | hother <;> rw [hother] at hsubmission <;>
        exact absurd hsubmission (by decide)
  rename_i hmulti
  have hoperation : r.operation = operationPrintJob ∨ r.operation = operationValidateJob := by
    simp only [isMultiStep, Bool.or_eq_true, decide_eq_true_eq, not_or] at hmulti
    simpa [isPrintSubmission, hmulti] using hsubmission
  split
  · rename_i hquery
    exact absurd hoperation (not_or.mpr hquery)
  split
  · exact traced_refuse hsubmission (by decide)
  · exact traced_printJob hsubmission hoperation (drop_documentStart hparse)

/-- The next section of a submission. -/
lemma traced_resume {call : Call} {x : Input} {turn : Turn}
    (hparse : Request.parse call.bytes = .ok r) (htraced : Traced log r call.phase)
    (h : resume X sha256 s call x = some turn) : Traced (log ++ turn.effects) r turn.phase := by
  have hmore := htraced.mono (List.subset_append_left log turn.effects)
  have hnow : turn.effects ⊆ log ++ turn.effects := List.subset_append_right log turn.effects
  cases x with
  | answer c =>
      simp only [resume] at h
      split at h
      · obtain rfl := Option.some.inj h
        exact (traced_answerJob hsubmission hparse).mono hnow
      · cases h
  | look now upTime =>
      simp only [resume] at h
      split at h
      · rename_i header jobId hphase
        rw [hphase] at hmore
        obtain ⟨hoperation, hjob, happended, hlast⟩ := hmore
        -- the document is stored, whatever the look at the job finds
        have hsent : ∀ answer, Traced (log ++ turn.effects) r (.answered answer) := fun _ _ =>
          .sent hoperation hjob happended fun h => absurd (hlast.symm.trans h) (by decide)
        have hanswered : ∃ answer, turn.phase = .answered answer := by
          rw [← Option.some.inj h]
          unfold lookStored
          dsimp only
          split
          · exact ⟨_, rfl⟩
          · exact ⟨_, rfl⟩
        obtain ⟨answer, hanswer⟩ := hanswered
        rw [hanswer]
        exact hsent answer
      · cases h
  | submitted result upTime =>
      simp only [resume] at h
      split at h
      · rename_i header printer hphase
        rw [hphase] at hmore
        obtain ⟨rfl, hoperation, hhanded⟩ := hmore
        cases result with
        | ok jobId =>
            obtain rfl := Option.some.inj h
            exact fun _ => .printed hoperation hhanded
              (List.mem_append_right _ (List.mem_singleton_self _)) rfl
        | error code =>
            obtain rfl := Option.some.inj h
            exact traced_refusal hsubmission (submissionStatus_ne code)
      · rename_i header jobId submission hphase
        rw [hphase] at hmore
        obtain ⟨hoperation, hjob, happended⟩ := hmore
        cases result with
        | ok spooled =>
            obtain rfl := Option.some.inj h
            exact fun _ => .sent hoperation hjob happended fun _ =>
              List.mem_append_right _ (List.mem_singleton_self _)
        | error code =>
            obtain rfl := Option.some.inj h
            exact traced_refusal hsubmission (submissionStatus_ne code)
      · cases h

end Turns

/-! ### Every run -/

variable {X : Services} {sha256 : Bytes → Vector UInt8 32}

/-- Every submission has left its trace. -/
def AllTraced (w : Endpoint.World) : Prop :=
  ∀ (i : ℕ) (call : Call), w.processes[i]? = some call → ∀ r, Request.parse call.bytes = .ok r →
    isPrintSubmission r.operation = true → Traced w.shared.log r call.phase

lemma allTraced_of_step {w v : Endpoint.World} {e : Endpoint.Event} (hw : AllTraced w)
    (h : (requests X sha256).step w e = some v) : AllTraced v := by
  cases (requests X sha256).stepped_of_step h with
  | start call hstarts =>
      refine Processes.forall_after_start hw fun r hparse hsubmission => ?_
      simp only [requests] at hstarts
      split at hstarts
      · rename_i hphase
        rw [hphase]
        exact trivial
      · cases hstarts
  | move i x call s call' spawned hcall hadvance =>
      simp only [requests] at hadvance
      split_ifs at hadvance
      obtain ⟨turn, hturn, hresult⟩ := Option.map_eq_some_iff.mp hadvance
      obtain ⟨rfl, rfl, rfl⟩ : _ = s ∧ _ = call' ∧ _ = spawned := by
        simpa only [Prod.mk.injEq] using hresult
      refine Processes.forall_after_move hcall (fun j m _ hm r hparse hsubmission => ?_)
        (fun r hparse hsubmission => ?_) fun m hm => absurd hm List.not_mem_nil
      · exact (hw j m hm r hparse hsubmission).mono (List.subset_append_left _ _)
      · have hparse : Request.parse call.bytes = .ok r := hparse
        exact traced_resume hsubmission hparse (hw i call hcall r hparse hsubmission) hturn
  | outside x s houtside =>
      obtain rfl := Option.some.inj houtside
      intro j m hm r hparse hsubmission
      have hkept : w.shared.log ⊆ (outside w.shared x).log := by
        cases x with
        | expire now => exact List.subset_append_left _ _
        | stop => exact List.subset_append_left _ _
      exact (hw j m hm r hparse hsubmission).mono hkept

/-- **No print is lost in silence.** Of a submission that was forwarded, or that could not be,
the user is told, unless the server has done what the spooler is answered. -/
theorem nothing_lost {es : List Endpoint.Event} {w : Endpoint.World}
    (h : (endpoint X sha256).run es = some w) {call : Call} {r q : Request}
    (hcall : call ∈ w.processes) (hparse : Request.parse call.bytes = .ok r)
    (hsame : r.operation = q.operation) (hsubmission : isPrintSubmission q.operation = true)
    {forwarded : Except AppError Bytes}
    (hforwarded : ∀ answer, forwarded = .ok answer → call.phase = .answered answer)
    {upTime : ℤ} {remoteUri localUri : Chars}
    (hquiet : (replied sha256 upTime q remoteUri localUri forwarded).reported = none) :
    LeftTrace w.shared.log r (replied sha256 upTime q remoteUri localUri forwarded).response := by
  have htraced : AllTraced w :=
    (endpoint X sha256).invariant (I := AllTraced) (fun i call hcall => by cases hcall)
      (fun _ _ _ hw hv => allTraced_of_step hw hv) h
  cases forwarded with
  | error error => exact absurd hquiet (reported_error hsubmission error)
  | ok answer =>
      obtain ⟨i, hi⟩ := List.mem_iff_getElem?.mp hcall
      have hphase := htraced i call hi r hparse (hsame ▸ hsubmission)
      rw [hforwarded answer rfl] at hphase
      rw [replied_submission hsubmission]
      refine hphase ?_
      rw [hsame]
      exact hquiet

/-- The client's job is printed, and its user is told nothing. -/
theorem officePrintJob_left_trace : ∃ es w call answer reply,
    (endpoint officeServices Sha256.digest).run es = some w ∧ call ∈ w.processes
      ∧ call.phase = .answered answer
      ∧ replied Sha256.digest 0 (officeRequest operationPrintJob rasterValues [82, 97, 83, 50])
          [] [] (.ok answer) = reply
      ∧ reply.reported = none
      ∧ LeftTrace w.shared.log (officeRequest operationPrintJob rasterValues [82, 97, 83, 50])
          reply.response := by
  obtain ⟨asked, job, header, hanswer⟩ := officePrintJob_submits JobStore.new
  have hok : ∀ w ∈ officeValues rasterValues, w.Ok := by decide +kernel
  have hnamed : ∀ w ∈ officeValues rasterValues, w.Named := by decide +kernel
  have hparse := parse_office [82, 97, 83, 50] 0 (by decide : operationPrintJob < 65536) hok
    hnamed
  have hrun := run_answer (endpoint officeServices Sha256.digest).run_nil rfl rfl hanswer
  have hquiet : ∀ jobId uri,
      reportedFailure operationPrintJob (.ok (jobResponse header jobId uri)) = none := by
    intro jobId uri
    have hin : statusIn (jobResponse header jobId uri) = some Status.ok.code :=
      statusIn_message _ _ _ _
    rw [reportedFailure, if_pos (by decide)]
    simp only [hin]
    decide
  have hfinish := (endpoint officeServices Sha256.digest).run_concat.mpr ⟨_, hrun,
    step_move (x := .submitted (.ok 7) 0) (List.getElem?_concat_length ..) rfl rfl⟩
  have hmem : ∀ call : Call, call ∈ [call] ++ [] := fun _ => List.mem_singleton_self _
  have hnone := hquiet 7 (jobUri (Endpoint.entry officePrintJob.host office true).uri 7)
  exact ⟨_, _, _, _, _, hfinish, hmem _, rfl, rfl, hnone,
    nothing_lost hfinish (hmem _) hparse rfl (by decide)
      (fun _ h => congrArg Phase.answered (Except.ok.inj h)) hnone⟩

end ShaPrint.Client
