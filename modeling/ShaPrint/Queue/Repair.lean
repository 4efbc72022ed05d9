import ShaPrint.Lib.Fallible
import ShaPrint.Queue.CupsInstaller
import ShaPrint.Queue.Routing
import ShaPrint.TestPrint.Session

/-!
The checks before a repair, from `application/queue_installation.rs` and `ipc/control.rs`, and
what they make of a queue that is installed on CUPS.

* `recheckRepairPrerequisites`: the recheck of the use case.
* `repairTargetDto`, `queueFindings`, `precheckRepair`: the check of the control plane.
* `Documented`: what CUPS promises of its destinations.
* `inspect_installed`: a queue that is installed is found under its destination's name.
* `FoundByLaterUses`, `install_not_found`: the later uses look for it under the other name.
-/

namespace ShaPrint.Queue

open Split Client TestPrint

/-! ### The recheck -/

def pendingError (n : ℕ) : AppError :=
  .invalidState s!"print jobs are pending in the Client queue ({n} jobs). Wait for them to finish before repairing."

/-- The queue that a repair inspects. -/
def repairTarget (request : ClientQueueRequest) : RecognisedClientQueue :=
  ⟨request.queueName, request.serverAddress, request.printer⟩

def recheckRepairPrerequisites (catalog : Option LocalPrinterCatalog)
    (request : ClientQueueRequest) : Except AppError Unit :=
  match catalog with
  | none => .ok ()
  | some catalog =>
      let target := repairTarget request
      match catalog.inspectClientQueue target with
      | .ok (.matching (some 0)) => .ok ()
      | .ok (.matching (some n)) => .error (pendingError n)
      | .ok (.matching none) =>
          match catalog.pendingClientJobs target with
          | .ok 0 => .ok ()
          | .ok n => .error (pendingError n)
          | .error e => .error (.invalidState s!"pending print jobs could not be read: {e.message}. Repair remains blocked until the queue is known to be empty.")
      | .ok .missing => .error (.queueUnavailable "the Client queue is not installed.")
      | .ok .mismatched => .error (.invalidState
          "the Client queue destination does not match the selected server and printer.")
      | .error e => .error (.invalidState s!"the Client queue state could not be inspected: {e.message}. Repair remains blocked until the queue is known to be empty.")

/-! ### The control plane -/

/-- A client queue as the control protocol names it. -/
structure RecognisedClientQueueDto where
  queueName : Chars
  serverAddress : Chars
  printerName : Chars
  deriving DecidableEq

def RecognisedClientQueueDto.parseTarget (dto : RecognisedClientQueueDto) :
    Except AppError RecognisedClientQueue :=
  (ServerAddress.parse dto.serverAddress).bind fun address =>
    (PrinterName.parse (.ofList dto.printerName)).bind fun printer =>
      (ClientQueueName.parse dto.queueName).map fun queueName =>
        ⟨queueName, address.normalized, printer⟩

/-- The target that `repair_client_queue` sends to the daemon. -/
def repairTargetDto (address printer : Chars) : Except AppError RecognisedClientQueueDto :=
  (ServerAddress.parse address).bind fun parsedAddress =>
    (PrinterName.parse (.ofList printer)).bind fun parsedPrinter =>
      (ClientQueueRequest.new parsedAddress.normalized parsedPrinter).map fun request =>
        ⟨request.queueName.value, parsedAddress.normalized, printer⟩

/-- What the daemon's inspection finds of the queue, within its time. -/
def queueFindings (catalog : LocalPrinterCatalog) (target : RecognisedClientQueue) :
    List LocalFinding :=
  match catalog.inspectClientQueue target with
  | .ok (.matching (some 0)) => [.spoolerReady, .queueMatching, .queueEmpty]
  | .ok (.matching (some _)) => [.spoolerReady, .queueMatching, .pendingJobs]
  | .ok (.matching none) =>
      match catalog.pendingClientJobs target with
      | .ok 0 => [.spoolerReady, .queueMatching, .queueEmpty]
      | .ok _ => [.spoolerReady, .queueMatching, .pendingJobs]
      | .error _ => [.spoolerReady, .queueMatching, .pendingUnknown]
  | .ok .missing => [.spoolerReady, .queueMissing, .pendingNotApplicable]
  | .ok .mismatched => [.spoolerReady, .queueMismatched, .pendingNotApplicable]
  | .error e =>
      [if e.code = .queueUnavailable then .spoolerUnavailable else .spoolerUnknown,
        .queueUnknown, .pendingUnknown]

/-- The control plane's check before it asks for the elevated repair, on the findings that the
daemon answers with. -/
def precheckRepair (inspected : Except AppError (List LocalFinding)) : Except AppError Unit :=
  match inspected with
  | .ok checks =>
      if checks.contains .queueEmpty then .ok ()
      else .error (.invalidState "print jobs are pending or the Client queue state could not be verified; cancel or wait for them to finish before repairing")
  | .error err => .error (.invalidState s!"the Client queue state could not be inspected: {err.message}; repair remains blocked until the queue is known to be empty")

/-- The daemon reads the same target as the recheck builds. -/
lemma parseTarget_repairTargetDto {input printerText : Chars} {address : ServerAddress}
    {printer : PrinterName} {request : ClientQueueRequest} {dto : RecognisedClientQueueDto}
    (haddress : ServerAddress.parse input = .ok address)
    (hprinter : PrinterName.parse (.ofList printerText) = .ok printer)
    (hrequest : ClientQueueRequest.new address.normalized printer = .ok request)
    (hdto : repairTargetDto input printerText = .ok dto) :
    dto.queueName = request.queueName.value ∧ dto.parseTarget = .ok (repairTarget request) := by
  obtain ⟨-, expected, -, rfl⟩ := request_of_parse haddress hrequest
  obtain ⟨hcanonical, hnormalized⟩ := canonical_of_parse haddress
  have hserver : ∃ parsed, ServerAddress.parse address.normalized = .ok parsed
      ∧ parsed.normalized = address.normalized := by
    rw [hnormalized, parse_withPort hcanonical]
    exact ⟨_, rfl, rfl⟩
  obtain ⟨parsed, hparsed, hself⟩ := hserver
  have hname := ClientQueueName.parse_eq_ok.mpr expected.trimmed.symm
  unfold repairTargetDto at hdto
  simp only [haddress, hprinter, hrequest, Except.bind, Except.map] at hdto
  obtain rfl := Except.ok.inj hdto
  refine ⟨rfl, ?_⟩
  unfold RecognisedClientQueueDto.parseTarget
  simp only [hparsed, hprinter, hname, Except.bind, Except.map, hself]
  rfl

/-! ### Two names -/

lemma space_mem_queueName {printer : PrinterName} {server : Chars} {name : ClientQueueName}
    (h : ClientQueueName.forSharedPrinter printer server = .ok name) : ' ' ∈ name.value := by
  have hspace : ' ' ∈ " (ShaPrint ".toList := by decide
  rw [forSharedPrinter_eq_ok.mp h, queueText, List.mem_append, List.mem_append]
  exact .inl (.inl (List.mem_append_right _ hspace))

section

variable {sha256 : Bytes → Vector UInt8 32} {proxyAuthority : Chars}

lemma space_not_mem_cups (printer : PrinterName) (server : Chars) :
    ' ' ∉ cupsDestinationFor sha256 printer server := fun h =>
  absurd (mem_cupsDestinationFor sha256 h) (by decide)

/-- A queue is recognised under its record's name. -/
lemma queueName_of_parseClientQueueName {name server : Chars} {printer : PrinterName}
    {queueName : ClientQueueName}
    (h : parseClientQueueName name = some (printer, server, queueName)) :
    queueName.value = trim name := by
  unfold parseClientQueueName at h
  dsimp only at h
  obtain ⟨actual, hactual, h⟩ := Option.bind_eq_some_iff.mp h
  obtain ⟨_, -, h⟩ := Option.bind_eq_some_iff.mp h
  obtain ⟨_, -, h⟩ := Option.bind_eq_some_iff.mp h
  obtain ⟨_, -, h⟩ := Option.bind_eq_some_iff.mp h
  obtain ⟨_, -, h⟩ := Option.bind_eq_some_iff.mp h
  obtain ⟨_, -, h⟩ := Option.bind_eq_some_iff.mp h
  split at h
  · cases h
  · obtain ⟨-, h⟩ := Prod.mk.inj (Option.some.inj h)
    obtain ⟨-, rfl⟩ := Prod.mk.inj h
    rw [ClientQueueName.parse_eq_ok.mp (except_toOption_eq_some.mp hactual), trim_trim]

lemma queueName_of_classifyDestination {name remainder : Chars} {q : RecognisedClientQueue}
    (h : classifyDestination sha256 name remainder = .recognisedClientQueue q) :
    q.queueName.value = trim name := by
  unfold classifyDestination at h
  split at h
  · split at h
    · cases h
    dsimp only at h
    split at h
    · cases h
    split at h
    · cases h
    split at h
    · cases h
    split at h
    · split at h
      · cases h
      · rename_i hname
        obtain rfl := SpoolerRecordClassification.recognisedClientQueue.inj h
        exact ClientQueueName.parse_eq_ok.mp hname
    · cases h
  · cases h

lemma queueName_of_classify {record : SpoolerRecord} {q : RecognisedClientQueue}
    (h : record.classify sha256 proxyAuthority = .recognisedClientQueue q) :
    q.queueName.value = trim record.name := by
  have hlocal := classifyLocal_ne_recognised (trim record.name) (trim record.port) proxyAuthority q
  unfold SpoolerRecord.classify at h
  dsimp only at h
  split at h
  · rw [queueName_of_classifyDestination h, trim_trim]
  split at h
  · unfold classifyNamed at h
    split at h
    · rename_i hparse
      obtain rfl := SpoolerRecordClassification.recognisedClientQueue.inj h
      rw [queueName_of_parseClientQueueName hparse, trim_trim]
    · split at h
      · cases h
      · exact absurd h hlocal
  · exact absurd h hlocal

/-! ### What the installer leaves -/

/-- What CUPS promises of its destinations, by the URI that a state has for a name: it lists
each name once, `lpadmin -p … -v …` sets the URI, `lpadmin -p … -o …` keeps it. -/
structure Cups.Documented {σ : Type} (C : Cups σ) (deviceUri : σ → Chars → Option Chars) :
    Prop where
  listed : ∀ {s : σ} {dests : List CupsDestinationRecord}, C.getDests s = .ok dests →
    ∀ name, (dests.find? fun d => d.name == name).map (·.deviceUri) = deviceUri s name
  configured : ∀ {s s' : σ} {name uri description : Chars} {out : Output},
    C.lpadmin (queueArguments name uri description) s = (.ok out, s') →
    out.success = true → deviceUri s' name = some uri
  kept : ∀ (s : σ) (name : Chars) (options : List (Chars × Chars)),
    deviceUri (C.lpadmin (optionArguments name options) s).2 = deviceUri s

variable {σ : Type} {C : Cups σ} {request : ClientQueueRequest} {recreate : Bool} {s s' : σ}

/-- How an installation or a repair succeeds. -/
lemma applyQueue_eq_ok
    (h : C.applyQueue sha256 proxyAuthority request recreate s = (.ok (), s')) :
    ∃ uri, clientQueueUri proxyAuthority request.serverAddress request.printer.chars = .ok uri
      ∧ ∃ plan, C.plan sha256 proxyAuthority request recreate s = .ok plan
        ∧ C.applyPlan sha256 request uri s plan = (.ok (), s') := by
  unfold Cups.applyQueue at h
  split at h
  · cases h
  · rename_i uri huri
    split at h
    · cases h
    · rename_i plan hplan
      exact ⟨uri, huri, plan, hplan, h⟩

/-- A queue is kept that is recognised as the requested one. -/
lemma plan_eq_keep (h : C.plan sha256 proxyAuthority request recreate s = .ok .keep) :
    ∃ dests existing q, C.getDests s = .ok dests
      ∧ dests.find? (fun d => d.name == request.cupsDestinationName sha256) = some existing
      ∧ (SpoolerRecord.mk existing.name existing.deviceUri).classify sha256 proxyAuthority
        = .recognisedClientQueue q
      ∧ q.serverAddress = request.serverAddress ∧ q.printerName = request.printer := by
  unfold Cups.plan at h
  split at h
  · cases h
  rename_i dests hdests
  split at h
  · rename_i existing hexisting
    unfold Cups.planExisting at h
    dsimp only at h
    split at h
    · rename_i q hq
      split at h
      · cases h
      · rename_i hsame
        rw [not_or, not_not, not_not] at hsame
        exact ⟨dests, existing, q, hdests, hexisting, hq, hsame⟩
    · cases h
  · cases h

lemma deviceUri_applyUserOptions {deviceUri : σ → Chars → Option Chars}
    (hdoc : C.Documented deviceUri) (name : Chars) (options : List (Chars × Chars)) (s : σ) :
    deviceUri (C.applyUserOptions name options s) = deviceUri s := by
  unfold Cups.applyUserOptions
  split
  · rfl
  · exact hdoc.kept s name options

lemma deviceUri_autoConfigure {deviceUri : σ → Chars → Option Chars}
    (hdoc : C.Documented deviceUri) (name : Chars) (s : σ) :
    deviceUri (C.autoConfigureDefaultPagesize name s) = deviceUri s := by
  unfold Cups.autoConfigureDefaultPagesize
  dsimp only
  split
  · exact hdoc.kept s name _
  · rfl

/-- A queue that is configured points to its destination. -/
lemma deviceUri_applyPlan {deviceUri : σ → Chars → Option Chars} (hdoc : C.Documented deviceUri)
    {uri : Chars} {isNewQueue : Bool} {preservedOptions : List (Chars × Chars)}
    (h : C.applyPlan sha256 request uri s (.configure isNewQueue preservedOptions)
      = (.ok (), s')) :
    deviceUri s' (request.cupsDestinationName sha256) = some uri := by
  unfold Cups.applyPlan at h
  dsimp only at h
  split at h
  · cases h
  rename_i s₁ hconfigured
  obtain rfl := (Prod.mk.inj h).2
  have hset : deviceUri s₁ (request.cupsDestinationName sha256) = some uri := by
    unfold Cups.configureDestination at hconfigured
    split at hconfigured
    · cases hconfigured
    · rename_i everywhere s₂ hrun
      split at hconfigured
      · rename_i hsuccess
        obtain rfl := (Prod.mk.inj hconfigured).2
        exact hdoc.configured hrun hsuccess
      · cases hconfigured
  rw [deviceUri_applyUserOptions hdoc]
  split
  · exact hset
  · rw [deviceUri_autoConfigure hdoc, hset]

omit sha256 in
lemma name_of_find? {dests : List CupsDestinationRecord} {name : Chars}
    {existing : CupsDestinationRecord}
    (h : dests.find? (fun d => d.name == name) = some existing) : existing.name = name := by
  have hbeq := List.find?_some h
  exact eq_of_beq hbeq

/-- **The catalog finds a queue under its destination's name.** After an installation or a
repair, an inspection of the CUPS destination of the queue matches. -/
theorem inspect_installed {deviceUri : σ → Chars → Option Chars} (hdoc : C.Documented deviceUri)
    {input : Chars} {address : ServerAddress} {printer : PrinterName} {cups : ClientQueueName}
    {dests : List CupsDestinationRecord} (haddress : ServerAddress.parse input = .ok address)
    (hrequest : ClientQueueRequest.new address.normalized printer = .ok request)
    (hslash : '/' ∉ proxyAuthority) (hcups : cups.value = request.cupsDestinationName sha256)
    (happlied : C.applyQueue sha256 proxyAuthority request recreate s = (.ok (), s'))
    (hdests : C.getDests s' = .ok dests) :
    C.inspectClientQueue sha256 proxyAuthority s' ⟨cups, address.normalized, printer⟩
      = .ok (.matching none) := by
  obtain ⟨hvalidate, expected, hexpected, rfl⟩ := request_of_parse haddress hrequest
  obtain ⟨uri, huri, plan, hplan, happly⟩ := applyQueue_eq_ok happlied
  have htrim : trim cups.value = cups.value := cups.trimmed
  suffices hfound : ∃ existing, dests.find? (fun d => d.name == cups.value) = some existing
      ∧ (SpoolerRecord.mk existing.name existing.deviceUri).classify sha256 proxyAuthority
        = .recognisedClientQueue ⟨cups, address.normalized, printer⟩ by
    obtain ⟨existing, hfind, hclassify⟩ := hfound
    unfold Cups.inspectClientQueue LocalQueueInspection.fromRecord
    simp only [hdests, Except.map, hfind, hclassify, if_true]
  cases plan with
  | keep =>
      obtain ⟨dests', existing, q, hdests', hfind, hq, hserver, hprinter⟩ := plan_eq_keep hplan
      obtain rfl : s = s' := (Prod.mk.inj happly).2
      obtain rfl : dests' = dests := Except.ok.inj (hdests'.symm.trans hdests)
      rw [← hcups] at hfind
      have hname : existing.name = cups.value := name_of_find? hfind
      have hvalue : q.queueName.value = cups.value := by
        rw [queueName_of_classify hq, hname, htrim]
      refine ⟨existing, hfind, ?_⟩
      rw [hq]
      cases q
      simp only at hserver hprinter hvalue
      rw [ClientQueueName.ext hvalue, hserver, hprinter]
  | configure isNewQueue preservedOptions =>
      rw [clientQueueUri_of_parse haddress] at huri
      obtain rfl := Except.ok.inj huri
      have hbase : cups.value = cupsDestinationFor sha256 printer address.normalized := hcups
      have hstrip : (stripTrailingCopySuffix cups.value).getD cups.value = cups.value := by
        rw [hbase, stripTrailingCopySuffix_cups, Option.getD_none]
      have hlisted := hdoc.listed hdests cups.value
      rw [hcups, deviceUri_applyPlan hdoc happly, ← hcups, Option.map_eq_some_iff] at hlisted
      obtain ⟨existing, hfind, hdevice⟩ := hlisted
      refine ⟨existing, hfind, ?_⟩
      rw [name_of_find? hfind, hdevice]
      exact classify_queueUri sha256 hslash hvalidate hexpected (.inr hbase) htrim hstrip
        (ClientQueueName.parse_eq_ok.mpr htrim.symm)

/-! ### The later uses -/

/-- What the later uses make of an installed queue, if they find it. -/
structure FoundByLaterUses (sha256 : Bytes → Vector UInt8 32) (proxyAuthority : Chars)
    (C : Cups σ) (s : σ) (request : ClientQueueRequest) (dto : RecognisedClientQueueDto) :
    Prop where
  matching : ∀ dests, C.getDests s = .ok dests →
    C.inspectClientQueue sha256 proxyAuthority s (repairTarget request) = .ok (.matching none)
  counted : ∀ cups : ClientQueueName, cups.value = request.cupsDestinationName sha256 →
    C.pendingClientJobs s (repairTarget request)
      = C.pendingClientJobs s ⟨cups, request.serverAddress, request.printer⟩
  controlled : dto.queueName = request.cupsDestinationName sha256
  repaired : ∀ dests, C.getDests s = .ok dests →
    C.queryCupsActiveJobs s (request.cupsDestinationName sha256) = .ok 0 →
    recheckRepairPrerequisites (some (C.catalog sha256 proxyAuthority s)) request = .ok ()
  refused : ∀ dests n, C.getDests s = .ok dests → 0 < n → n < 2 ^ 32 →
    C.queryCupsActiveJobs s (request.cupsDestinationName sha256) = .ok n →
    recheckRepairPrerequisites (some (C.catalog sha256 proxyAuthority s)) request
      = .error (pendingError n)

omit sha256 in
/-- A queue that has no destination of its readable name is missing, for both checks. -/
lemma repair_refused_of_not_listed {sha256 : Bytes → Vector UInt8 32}
    {dests : List CupsDestinationRecord} (hdests : C.getDests s = .ok dests)
    (hname : ∀ d ∈ dests, d.name ≠ request.queueName.value) :
    C.inspectClientQueue sha256 proxyAuthority s (repairTarget request) = .ok .missing
      ∧ recheckRepairPrerequisites (some (C.catalog sha256 proxyAuthority s)) request
        = .error (.queueUnavailable "the Client queue is not installed.")
      ∧ (queueFindings (C.catalog sha256 proxyAuthority s) (repairTarget request)).contains
        .queueEmpty = false := by
  have hfind : dests.find? (fun dest => dest.name == request.queueName.value) = none :=
    List.find?_eq_none.mpr fun d hd => by simpa using hname d hd
  have hinspect : C.inspectClientQueue sha256 proxyAuthority s (repairTarget request)
      = .ok .missing := by
    unfold Cups.inspectClientQueue repairTarget
    simp only [hdests, Except.map, hfind]
  refine ⟨hinspect, ?_, ?_⟩
  · unfold recheckRepairPrerequisites Cups.catalog
    simp only [hinspect]
  · unfold queueFindings Cups.catalog
    simp only [hinspect]
    decide

/-- **No installed queue is found by its later uses.** The recheck and the control plane look
for the readable name, which is never the name of the destination: where CUPS has no
destination of the readable name, as none with a space, both checks refuse the repair of the
queue, whatever its jobs are. -/
theorem install_not_found {input printerText : Chars} {address : ServerAddress}
    {printer : PrinterName} {dto : RecognisedClientQueueDto}
    (haddress : ServerAddress.parse input = .ok address)
    (hprinter : PrinterName.parse (.ofList printerText) = .ok printer)
    (hrequest : ClientQueueRequest.new address.normalized printer = .ok request)
    (hdto : repairTargetDto input printerText = .ok dto)
    (hinstall : C.install sha256 proxyAuthority request s = (.ok (), s')) :
    ¬ FoundByLaterUses sha256 proxyAuthority C s' request dto
      ∧ dto.queueName = request.queueName.value
      ∧ request.queueName.value ≠ request.cupsDestinationName sha256
      ∧ ∀ dests, C.getDests s' = .ok dests → (∀ d ∈ dests, ' ' ∉ d.name) →
        C.inspectClientQueue sha256 proxyAuthority s' (repairTarget request) = .ok .missing
          ∧ recheckRepairPrerequisites (some (C.catalog sha256 proxyAuthority s')) request
            = .error (.queueUnavailable "the Client queue is not installed.")
          ∧ precheckRepair (dto.parseTarget.map
            (queueFindings (C.catalog sha256 proxyAuthority s'))) ≠ .ok () := by
  obtain ⟨hname, htarget⟩ := parseTarget_repairTargetDto haddress hprinter hrequest hdto
  obtain ⟨-, expected, hexpected, rfl⟩ := request_of_parse haddress hrequest
  have hspace : ' ' ∈ expected.value := space_mem_queueName hexpected
  have hne : expected.value ≠ cupsDestinationFor sha256 printer address.normalized := by
    intro h
    exact space_not_mem_cups printer address.normalized (h ▸ hspace)
  refine ⟨fun hfound => hne (hname.symm.trans hfound.controlled), hname, hne, ?_⟩
  intro dests hdests hnames
  have hlisted : ∀ d ∈ dests,
      d.name ≠ (ClientQueueRequest.queueName ⟨expected, address.normalized, printer⟩).value :=
    fun d hd h => hnames d hd (h ▸ hspace)
  obtain ⟨hinspect, hrecheck, hfindings⟩ := repair_refused_of_not_listed hdests hlisted
  refine ⟨hinspect, hrecheck, ?_⟩
  rw [htarget, Except.map, precheckRepair, hfindings]
  simp

end

/-! ### A print system -/

/-- A print system with its destinations and its active jobs, by the names of their queues. -/
structure PrintSystem where
  destinations : List CupsDestinationRecord
  jobs : List Chars
  deriving DecidableEq

/-- `lpadmin` as far as the installer uses it. -/
def PrintSystem.lpadmin (args : List Chars) (s : PrintSystem) : Except Chars Output × PrintSystem :=
  match args with
  | p :: name :: e :: v :: uri :: _ =>
      if p = "-p".toList ∧ e = "-E".toList ∧ v = "-v".toList then
        if ' ' ∈ name then (.ok ⟨false, [], "lpadmin: Printer name can only contain printable characters.".toList⟩, s)
        else
          (.ok ⟨true, [], []⟩, { s with destinations :=
            ⟨name, uri, true, []⟩ :: s.destinations.filter fun d => d.name ≠ name })
      else (.ok ⟨true, [], []⟩, s)
  | [x, name] =>
      if x = "-x".toList then
        (.ok ⟨true, [], []⟩, { s with destinations := s.destinations.filter fun d => d.name ≠ name })
      else (.ok ⟨true, [], []⟩, s)
  | _ => (.ok ⟨true, [], []⟩, s)

/-- The CUPS of such a system, which has no PPD files. -/
def printSystem : Cups PrintSystem where
  getDests s := .ok s.destinations
  getJobs s name :=
    if s.destinations.any (·.name == name) then .ok (s.jobs.count name)
    else .error (.queueUnavailable
      "CUPS refused job listing (The printer or class does not exist.)")
  getPpd _ _ := .error (.queueUnavailable "CUPS did not provide PPD")
  lpadmin := PrintSystem.lpadmin
  lpoptions _ _ := .error "No such file or directory".toList

def officeCupsName : Chars := "ShaPrint_Office_Printer_10.0.0.5-48631_5c4f0f0a".toList

/-- The system with the office printer's queue, which is idle. -/
def officeInstalled : PrintSystem :=
  ⟨[⟨officeCupsName,
    "ipp://127.0.0.1:48632/ipp/print/10.0.0.5%3A48631/Office%20Printer".toList, true, []⟩], []⟩

def officeDto : RecognisedClientQueueDto :=
  ⟨officeRequest.queueName.value, "10.0.0.5:48631".toList, "Office Printer".toList⟩

theorem office_install_not_found :
    ¬ FoundByLaterUses officeDigest "127.0.0.1:48632".toList printSystem officeInstalled
        officeRequest officeDto
      ∧ officeDto.queueName = officeRequest.queueName.value
      ∧ officeRequest.queueName.value ≠ officeRequest.cupsDestinationName officeDigest
      ∧ ∀ dests, printSystem.getDests officeInstalled = .ok dests → (∀ d ∈ dests, ' ' ∉ d.name) →
        printSystem.inspectClientQueue officeDigest "127.0.0.1:48632".toList officeInstalled
            (repairTarget officeRequest) = .ok .missing
          ∧ recheckRepairPrerequisites (some (printSystem.catalog officeDigest
              "127.0.0.1:48632".toList officeInstalled)) officeRequest
            = .error (.queueUnavailable "the Client queue is not installed.")
          ∧ precheckRepair (officeDto.parseTarget.map (queueFindings
            (printSystem.catalog officeDigest "127.0.0.1:48632".toList officeInstalled)))
              ≠ .ok () :=
  install_not_found (s := ⟨[], []⟩)
    (by decide : ServerAddress.parse "10.0.0.5:48631".toList = .ok officeServer)
    (by decide : PrinterName.parse (.ofList "Office Printer".toList) = .ok officePrinter)
    (by decide : ClientQueueRequest.new officeServer.normalized officePrinter = .ok officeRequest)
    (by decide +kernel) (by decide +kernel)

/-- The queue is there, works and is idle, and its repair is refused as if it were not. -/
theorem office_repair_refused :
    printSystem.install officeDigest "127.0.0.1:48632".toList officeRequest ⟨[], []⟩
        = (.ok (), officeInstalled)
      ∧ printSystem.queryCupsActiveJobs officeInstalled
          (officeRequest.cupsDestinationName officeDigest) = .ok 0
      ∧ recheckRepairPrerequisites (some (printSystem.catalog officeDigest
          "127.0.0.1:48632".toList officeInstalled)) officeRequest
        = .error (.queueUnavailable "the Client queue is not installed.")
      ∧ ¬ FoundByLaterUses officeDigest "127.0.0.1:48632".toList printSystem officeInstalled
          officeRequest officeDto := by
  refine ⟨by decide +kernel, by decide +kernel, by decide +kernel, fun hfound => ?_⟩
  exact absurd hfound.controlled (by decide +kernel)

end ShaPrint.Queue
