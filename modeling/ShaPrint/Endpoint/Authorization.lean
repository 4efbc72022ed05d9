import ShaPrint.Channel.Restart
import ShaPrint.Endpoint.Turns
import ShaPrint.Lib.Latest
import ShaPrint.Lib.Sha256

/-!
The channel is a gate on every change of state.

* `Authorized`: the bytes are a request that carries the channel.
* `refused_alike`: a request without it is answered in the same way whatever jobs are
  tracked, and nothing is done for it.
* `SubmitsNamed`: what is submitted goes to a printer that was shared when its job was
  accepted and that the request addresses; `submitsNamed_of_run`.
* `authorization_gates`: both.
-/

namespace ShaPrint.Endpoint

open Ipp Channel

section Gate

variable {X : Services} {sha256 : Bytes → Vector UInt8 32}

/-- The bytes are a request that carries a channel which is accepted. -/
def Authorized (X : Services) (channel : NetworkChannel) (bytes : Bytes) : Prop :=
  ∃ r, Request.parse bytes = .ok r ∧ authorized X channel r = true

/-- **A request without the channel is answered without a look at the store.** -/
theorem refused_alike (c : EndpointContext) {call : Call}
    (h : ¬Authorized X c.channel call.bytes) :
    ∃ answer, ∀ s, answerJob X sha256 s c call = ⟨s, [], .answered answer⟩ := by
  unfold answerJob
  cases hparse : Request.parse call.bytes with
  | error e => exact ⟨_, fun s => rfl⟩
  | ok r =>
      have hchannel : (!authorized X c.channel r) = true := by
        rw [Bool.not_eq_true', Bool.eq_false_iff]
        exact fun hauthorized => h ⟨r, hparse, hauthorized⟩
      unfold answerMultiStep
      simp only [hchannel, if_true]
      split_ifs with hversion hmulti hother
      · exact ⟨_, fun s => rfl⟩
      · exact ⟨_, fun s => rfl⟩
      · obtain ⟨answer, hanswer⟩ : ∃ answer, answerWithJobStatus sha256 c call.host r
            (c.channel.isConfigured && c.available) = .answered answer :=
          exists_answerWithJobStatus c call.host r _
        exact ⟨answer, fun s => by rw [hanswer]⟩
      · exact ⟨_, fun s => rfl⟩

end Gate

/-! ### What is submitted -/

/-- The URI of the printer that a request carries names the printer. -/
def Asked.Addresses (asked : Asked) (printer : PrinterName) : Prop :=
  ∃ uri authority encodedName,
    asked.request.value "printer-uri" = some uri
    ∧ ippsAuthorityAndPath uri.toList = some (authority, "ipp/print/".toList ++ encodedName)
    ∧ eqIgnoreAsciiCase authority asked.host = true
    ∧ eqIgnoreAsciiCase printer.chars (percentDecode encodedName) = true

/-- A request accepts a job for a printer it addresses, of the selection it found. -/
structure Asked.Accepts (asked : Asked) (printer : PrinterName) : Prop where
  shared : printer ∈ asked.shared
  addresses : asked.Addresses printer

lemma accepts_of_selected {asked : Asked} {printer : PrinterName}
    (h : asked.selected = some printer) : asked.Accepts printer := by
  obtain ⟨uri, huri, hfind⟩ := Option.bind_eq_some_iff.mp h
  obtain ⟨⟨authority, path⟩, hparts, hfind⟩ := Option.bind_eq_some_iff.mp hfind
  dsimp only at hfind
  split_ifs at hfind with hauthority
  obtain ⟨encodedName, hpath, hname⟩ := Option.bind_eq_some_iff.mp hfind
  obtain ⟨hmem, hsame⟩ := findByName_eq_some hname
  refine ⟨hmem, uri, authority, encodedName, huri, ?_, by simpa using hauthority, hsame⟩
  rw [hparts, Split.dropPrefix?_eq_some.mp hpath]

/-- Names that differ in letter case are addressed alike. -/
lemma Asked.Addresses.congr {asked : Asked} {printer other : PrinterName}
    (h : asked.Addresses printer)
    (hsame : eqIgnoreAsciiCase other.chars printer.chars = true) : asked.Addresses other := by
  obtain ⟨uri, authority, encodedName, huri, hparts, hauthority, hname⟩ := h
  refine ⟨uri, authority, encodedName, huri, hparts, hauthority, ?_⟩
  rw [eqIgnoreAsciiCase_iff] at hname hsame ⊢
  exact hsame.trans hname

/-- The job that a request submits was accepted for the printer: by the request itself, or by
the `Create-Job` that is in the log before. -/
def AcceptedFor (before : List Effect) (asked : Asked) (jobId : Option ℤ)
    (printer : PrinterName) : Prop :=
  match jobId with
  | none => asked.Accepts printer
  | some id => ∃ creating settings,
      Effect.created creating printer settings id ∈ before ∧ creating.Accepts printer

/-- What is submitted after `before` goes to a printer that its request addresses and that was
shared when the job was accepted. -/
def SubmitNamed (before : List Effect) : Effect → Prop
  | .submitted asked jobId printer _ =>
      asked.Addresses printer ∧ AcceptedFor before asked jobId printer
  | _ => True

def SubmitsNamed (log : List Effect) : Prop := Throughout SubmitNamed log

/-- The printers of the tracked jobs, and of what was submitted. -/
structure Named (w : World) : Prop where
  tracked : ∀ (id : ℤ) (job : StoredJob), w.shared.store.jobs[id]? = some job →
    ∃ creating settings, Effect.created creating job.printer settings id ∈ w.shared.log
      ∧ creating.Accepts job.printer
  submits : SubmitsNamed w.shared.log

lemma submitNamed_of_isQuiet {e : Effect} (h : e.isQuiet = true) (before : List Effect) :
    SubmitNamed before e := by
  cases e <;> trivial

lemma named_of_turned {w : World} (hw : Named w) {call : Call} {turn : Turn}
    (h : Turned w.shared.store call turn) :
    SubmitsNamed (w.shared.log ++ turn.effects) := by
  cases h with
  | quiet effects answer hquiet =>
      exact hw.submits.append fun e he => submitNamed_of_isQuiet (hquiet e he)
  | looked now effects answer hquiet =>
      rw [← List.append_assoc]
      exact throughout_concat.mpr
        ⟨hw.submits.append fun e he => submitNamed_of_isQuiet (hquiet e he), trivial⟩
  | finished header jobId submission outcome effects answer _ hquiet =>
      rw [← List.append_assoc]
      exact throughout_concat.mpr
        ⟨hw.submits.append fun e he => submitNamed_of_isQuiet (hquiet e he), trivial⟩
  | printing asked printer job header hselected =>
      have haccepts := accepts_of_selected hselected
      rw [← List.singleton_append, ← List.append_assoc]
      refine throughout_concat.mpr ⟨hw.submits.append fun e he _ => ?_, ?_⟩
      · rw [List.mem_singleton.mp he]
        trivial
      · exact ⟨haccepts.addresses, haccepts⟩
  | sent now asked printer jobId job document printJob header submission hselected hpending =>
      have hsplit : w.shared.log ++ [.expired (w.shared.store.expiredIds now),
          .appended jobId document, .submitted asked (some jobId) job.printer printJob]
          = (w.shared.log ++ [.expired (w.shared.store.expiredIds now),
              .appended jobId document])
            ++ [.submitted asked (some jobId) job.printer printJob] := by simp
      obtain ⟨creating, settings, hcreated, haccepts⟩ :=
        hw.tracked jobId job (JobStore.getElem?_expireLocked.mp hpending.tracked).1
      rw [hsplit]
      refine throughout_concat.mpr ⟨hw.submits.append fun e he _ => ?_, ?_, ?_⟩
      · rcases List.mem_pair.mp he with rfl | rfl <;> trivial
      · exact (accepts_of_selected hselected).addresses.congr hpending.printer_eq
      · exact ⟨creating, settings, List.mem_append_left _ hcreated, haccepts⟩
  | acknowledged | created | appended | cancelled =>
      refine hw.submits.append fun e he _ => ?_
      simp only [List.mem_cons, List.not_mem_nil, or_false] at he
      rcases he with rfl | rfl | rfl <;> trivial

section Run

variable {X : Services} {sha256 : Bytes → Vector UInt8 32}

lemma named_of_served {w v : World} {e : Event} (hw : Named w) (h : Served w e v) : Named v := by
  cases h with
  | start call => exact ⟨hw.tracked, hw.submits⟩
  | turn i x call turn hcall hlife hturned =>
      refine ⟨fun id job hjob => ?_, named_of_turned hw hturned⟩
      rcases hturned.tracked hjob with ⟨old, hold, hprinter, -⟩ | ⟨asked, hcreated, hselected⟩
      · obtain ⟨creating, settings, hmem, haccepts⟩ := hw.tracked id old hold
        rw [hprinter]
        exact ⟨creating, settings, List.mem_append_left _ hmem, haccepts⟩
      · exact ⟨asked, _, List.mem_append_right _ hcreated, accepts_of_selected hselected⟩
  | outside x =>
      cases x with
      | expire now =>
          refine ⟨fun id job hjob => ?_, hw.submits.append fun e he _ => ?_⟩
          · obtain ⟨creating, settings, hmem, haccepts⟩ :=
              hw.tracked id job (JobStore.getElem?_expireLocked.mp hjob).1
            exact ⟨creating, settings, List.mem_append_left _ hmem, haccepts⟩
          · rw [List.mem_singleton.mp he]
            trivial
      | stop =>
          refine ⟨fun id job hjob => ?_, hw.submits.append fun e he _ => ?_⟩
          · obtain ⟨old, hold, hprinter, -⟩ := JobStore.getElem?_abortIncomplete hjob
            obtain ⟨creating, settings, hmem, haccepts⟩ := hw.tracked id old hold
            rw [hprinter]
            exact ⟨creating, settings, List.mem_append_left _ hmem, haccepts⟩
          · rw [List.mem_singleton.mp he]
            trivial

/-- **A request without the channel changes nothing and is answered without a look at the
jobs; and whatever is submitted was accepted for a shared printer that its request
addresses.** -/
theorem authorization_gates {es : List Event} {w : World}
    (h : (endpoint X sha256).run es = some w) :
    (∀ (c : EndpointContext) (call : Call), ¬Authorized X c.channel call.bytes →
      ∃ answer, ∀ s, answerJob X sha256 s c call = ⟨s, [], .answered answer⟩)
    ∧ SubmitsNamed w.shared.log := by
  refine ⟨fun c call hc => refused_alike c hc, ?_⟩
  have hinit : Named (endpoint X sha256).init := by
    refine ⟨fun id job hjob => ?_, throughout_nil⟩
    simp [endpoint, Processes.system, requests, JobStore.new] at hjob
  exact (endpoint_invariant hinit (fun _ _ _ _ hw hv => named_of_served hw hv) h).submits

end Run

/-! ### A printer and its clients -/

def office : PrinterName := ⟨"Archive", by decide, by decide, by decide, by decide⟩

/-- SHA-256 where it is asked for the channel `secret`. -/
def officeServices : Services := servicesFor "secret" secretDigest

/-- What the requests of a client find that knows the channel. -/
def officeContext (now : ℕ) : EndpointContext where
  shared := [office]
  channel := ⟨some ⟨⟨List.replicate 16 5, rfl⟩, secretDigest⟩, none⟩
  available := true
  marked := true
  now
  upTime := 0

/-- The printer, the channel, and what else a request carries. -/
def officeValues (values : List Written) : List Written :=
  ⟨Tag.uri, "printer-uri", asBytes "ipps://server:48631/ipp/print/Archive"⟩
    :: ⟨Tag.text, "network-channel", asBytes "secret"⟩ :: values

/-- A request of the client, to the `life`-th `serve`. -/
def officeCall (operation : ℕ) (values : List Written) (document : Bytes) (life : ℕ) : Call where
  bytes := requestBytes operation 1 (officeValues values) document
  host := "server:48631".toList
  lease := 0
  life
  phase := .received

def rasterValues : List Written :=
  [⟨Tag.mimeMediaType, "document-format", asBytes "image/pwg-raster"⟩]

def officePrintJob : Call := officeCall operationPrintJob rasterValues [82, 97, 83, 50] 0

/-- The request of the client, as the endpoint decodes it. -/
def officeRequest (operation : ℕ) (values : List Written) (document : Bytes) : Request where
  version := (2, 0)
  operation
  requestId := 1
  attributes := (officeValues values).map Written.toAttribute
  document
  documentStart := (requestBytes operation 1 (officeValues values) document).length
    - document.length

lemma parse_office {operation : ℕ} {values : List Written} (document : Bytes) (life : ℕ)
    (hoperation : operation < 65536) (hok : ∀ w ∈ officeValues values, w.Ok)
    (hnamed : ∀ w ∈ officeValues values, w.Named) :
    Request.parse (officeCall operation values document life).bytes
      = .ok (officeRequest operation values document) :=
  parse_requestBytes hoperation (by decide) hok hnamed

/-- What the endpoint does with it. -/
lemma officePrintJob_submits (s : JobStore) :
    ∃ asked job h, answerJob officeServices Sha256.digest s (officeContext 0) officePrintJob
      = ⟨s, [.promoted, .submitted asked none office job], .submitting h office⟩ := by
  have hok : ∀ w ∈ officeValues rasterValues, w.Ok := by decide +kernel
  have hnamed : ∀ w ∈ officeValues rasterValues, w.Named := by decide +kernel
  have hparse := parse_office [82, 97, 83, 50] 0 (by decide : operationPrintJob < 65536) hok
    hnamed
  unfold answerJob
  rw [officePrintJob, hparse]
  exact ⟨_, _, _, rfl⟩

/-- A job is submitted for the client, and nothing is done for an empty request. -/
theorem officePrintJob_gated :
    ∃ es w, (endpoint officeServices Sha256.digest).run es = some w
      ∧ (∃ asked job, Effect.submitted asked none office job ∈ w.shared.log)
      ∧ SubmitsNamed w.shared.log
      ∧ ∃ answer, ∀ s, answerJob officeServices Sha256.digest s (officeContext 0)
          { officePrintJob with bytes := [] } = ⟨s, [], .answered answer⟩ := by
  obtain ⟨asked, job, h, hanswer⟩ := officePrintJob_submits JobStore.new
  have hrun := run_answer (endpoint officeServices Sha256.digest).run_nil rfl rfl hanswer
  have hgates := authorization_gates hrun
  refine ⟨_, _, hrun, ⟨asked, job, by simp⟩, hgates.2, hgates.1 (officeContext 0) _ ?_⟩
  rintro ⟨r, hparse, -⟩
  cases hparse

end ShaPrint.Endpoint
