import ShaPrint.Endpoint.Turns

/-!
What the sharing endpoint is for: a print service that knows wishes, printers and jobs, and
neither bytes nor URIs nor channels.

* `Wish`, `wishOf`: what a request asks of the printer it is about.
* `Deed`, `Done`: what is done for it, as far as the printers and the jobs are concerned.
* `fulfil`: what the service does for a wish, by the operations of the job store.
* `answerJob_done`: the endpoint does just that for the printer that a request selects; a
  request that asks for nothing the service knows changes nothing.
-/

namespace ShaPrint.Endpoint

open Ipp Channel

/-! ### Wishes -/

/-- What a request asks of a printer. -/
inductive Wish where
  | print (settings : PrintSettings) (document : Bytes)
  | validate (settings : PrintSettings)
  | create (name : Option String) (settings : PrintSettings)
  | send (jobId : ℤ) (document : Bytes) (lastDocument : Bool)
  | look (jobId : ℤ) (requested : List String)
  | list (whichJobs : Option String) (requested : List String)
  | cancel (jobId : ℤ)
  deriving DecidableEq

/-- Whether the format of the document is raster, where it is named. -/
def namesRaster (r : Request) : Option Bool :=
  (r.value "document-format").map fun format =>
    decide (toAsciiLower format.toList = "image/pwg-raster".toList)

/-- The wish of a well-formed request about a printer or its jobs. -/
def wishOf (r : Request) : Option Wish :=
  if !r.versionIsSupported then none
  else if r.operation = operationPrintJob then
    if namesRaster r = some true ∧ r.document ≠ [] then
      (jobSettings r).toOption.map (Wish.print · r.document)
    else none
  else if r.operation = operationValidateJob then
    if namesRaster r = some false then none else (jobSettings r).toOption.map Wish.validate
  else if r.operation = operationCreateJob then
    if wrongFormat r = true ∨ r.document ≠ [] then none
    else (jobSettings r).toOption.map (Wish.create (r.value "job-name"))
  else if r.operation = operationSendDocument then
    if wrongFormat r = true ∨ r.document = [] then none
    else
      (jobIdOf r).bind fun jobId =>
        (r.boolean "last-document").map (Wish.send jobId r.document)
  else if r.operation = operationGetJobAttributes then
    (jobIdOf r).map (Wish.look · (r.textValues "requested-attributes"))
  else if r.operation = operationGetJobs then
    some (.list (r.value "which-jobs") (r.textValues "requested-attributes"))
  else if r.operation = operationCancelJob then (jobIdOf r).map Wish.cancel
  else none

/-! ### The service -/

/-- What is done to printers and jobs. -/
inductive Deed where
  | submitted (jobId : Option ℤ) (printer : PrinterName) (document : Bytes)
      (settings : PrintSettings)
  | created (printer : PrinterName) (settings : PrintSettings) (jobId : ℤ)
  | appended (jobId : ℤ) (document : Bytes)
  | cancelled (jobId : ℤ)
  deriving DecidableEq

def deedOf : Effect → Option Deed
  | .submitted _ jobId printer job =>
      some (.submitted jobId printer job.document job.settings)
  | .created _ printer settings jobId => some (.created printer settings jobId)
  | .appended jobId document => some (.appended jobId document)
  | .cancelled jobId => some (.cancelled jobId)
  | _ => none

/-- What a wish comes to: the jobs, what was done, and how the request goes on. -/
structure Done where
  store : JobStore
  deeds : List Deed := []
  phase : Phase

def Turn.done (turn : Turn) : Done := ⟨turn.store, turn.effects.filterMap deedOf, turn.phase⟩

section Service

variable (X : Services) (sha256 : Bytes → Vector UInt8 32)

/-- What the service does for a wish about a printer. -/
def fulfil (s : JobStore) (c : EndpointContext) (host : Chars) (lease : ℕ) (h : Header)
    (printer : PrinterName) : Wish → Done
  | .print settings document =>
      if c.marked && c.available then
        ⟨s, [.submitted none printer document settings], .submitting h printer⟩
      else ⟨s, [], refusal sha256 c.upTime h .notAcceptingJobs⟩
  | .validate _ =>
      ⟨s, [], refusal sha256 c.upTime h (if c.available then .ok else .notAcceptingJobs)⟩
  | .create name settings =>
      if c.marked && c.available then
        match s.create c.now host printer name settings lease with
        | (.ok job, s') =>
            ⟨s', [.created printer settings job.id], .answered (managedJobResponse h job)⟩
        | (.error status, s') => ⟨s', [], refusal sha256 c.upTime h status⟩
      else ⟨s, [], refusal sha256 c.upTime h .notAcceptingJobs⟩
  | .send jobId document lastDocument =>
      if c.available then
        match s.appendDocument c.now jobId printer document lastDocument with
        | (.error status, s') => ⟨s', [], refusal sha256 c.upTime h status⟩
        | (.ok none, s') => ⟨s', [.appended jobId document], .stored h jobId⟩
        | (.ok (some submission), s') =>
            ⟨s', [.appended jobId document, .submitted (some jobId) submission.printer
                submission.document submission.settings], .sending h jobId submission⟩
      else ⟨s, [], refusal sha256 c.upTime h .notAcceptingJobs⟩
  | .look jobId requested =>
      match s.get c.now jobId with
      | (.error status, s') => ⟨s', [], refusal sha256 c.upTime h status⟩
      | (.ok job, s') =>
          if eqIgnoreAsciiCase printer.chars job.printerName.toList then
            ⟨s', [], .answered (jobAttributesResponse h job requested)⟩
          else ⟨s', [], refusal sha256 c.upTime h .notFound⟩
  | .list whichJobs requested =>
      match s.list c.now printer whichJobs with
      | (.ok jobs, s') => ⟨s', [], .answered (jobsResponse h jobs requested)⟩
      | (.error status, s') => ⟨s', [], refusal sha256 c.upTime h status⟩
  | .cancel jobId =>
      match s.cancel c.now jobId printer with
      | (.ok job, s') => ⟨s', [.cancelled jobId], .answered (managedJobResponse h job)⟩
      | (.error status, s') => ⟨s', [], refusal sha256 c.upTime h status⟩

/-- A request that asks for nothing the service knows. -/
structure Turn.Idle (turn : Turn) (s : JobStore) : Prop where
  store : turn.store = s
  deeds : turn.done.deeds = []
  answered : ∃ answer, turn.phase = .answered answer

/-- The section does what the service does for the wish, if there is one. -/
def Fulfils (s : JobStore) (c : EndpointContext) (host : Chars) (lease : ℕ) (h : Header)
    (printer : PrinterName) (wish : Option Wish) (turn : Turn) : Prop :=
  match wish with
  | some wish => turn.done = fulfil sha256 s c host lease h printer wish
  | none => turn.Idle s

/-! ### The endpoint -/

variable {X sha256} {s : JobStore} {c : EndpointContext}

lemma deeds_of_isQuiet {effects : List Effect} (h : ∀ e ∈ effects, e.isQuiet = true) :
    effects.filterMap deedOf = [] := by
  refine List.filterMap_eq_nil_iff.mpr fun e he => ?_
  cases e <;> first | rfl | exact absurd (h _ he) Bool.false_ne_true

lemma idle_refuse {h : Header} {status : Status} {effects : List Effect}
    (hquiet : ∀ e ∈ effects, e.isQuiet = true) :
    (refuse sha256 s c h status effects).Idle s :=
  ⟨rfl, deeds_of_isQuiet hquiet, _, rfl⟩

lemma idle_refuse_nil {h : Header} {status : Status} : (refuse sha256 s c h status).Idle s :=
  idle_refuse fun _ he => absurd he List.not_mem_nil

/-- What a body holds after its attributes is a part of it. -/
lemma document_suffix {attributes attributes' : List Attribute} {bytes document : Bytes}
    (h : parseLoop attributes bytes = .ok (attributes', some document)) : document <:+ bytes := by
  obtain ⟨hscan, htail⟩ := scan_spec bytes
  rw [← hscan, parseLoop_encode] at h
  rw [← hscan]
  refine List.IsSuffix.trans ?_ (List.suffix_append _ _)
  cases hread : readFields attributes (scan bytes).1 with
  | error e => simp [hread] at h
  | ok as =>
      simp only [hread] at h
      generalize (scan bytes).2 = tail at h htail
      cases htail with
      | empty => simp at h
      | terminated rest =>
          rw [parseLoop_end] at h
          obtain rfl := Option.some.inj (Prod.mk.inj (Except.ok.inj h)).2
          exact List.suffix_cons _ _
      | @name tag rest e htag hname =>
          rw [parseLoop_cons, if_neg (Tag.ne_endOfAttributes htag), if_neg (by simp [htag]),
            readText, hname] at h
          cases h
      | @value tag rest name rest' e htag hname hval =>
          rw [parseLoop_cons, if_neg (Tag.ne_endOfAttributes htag), if_neg (by simp [htag]),
            readText, hname] at h
          cases hutf : fromUtf8 name with
          | none => simp [hutf] at h
          | some text => simp [hutf, hval] at h

/-- A body ends with the document of its request. -/
lemma drop_documentStart {bytes : Bytes} {r : Request} (h : Request.parse bytes = .ok r) :
    bytes.drop r.documentStart = r.document := by
  unfold Request.parse at h
  split at h
  · rename_i v0 v1 o0 o1 r0 r1 r2 r3 rest
    cases hloop : parseLoop [] rest with
    | error e => simp [hloop] at h
    | ok p =>
        obtain ⟨attributes, document⟩ := p
        rw [hloop] at h
        obtain rfl := Except.ok.inj h
        cases document with
        | none => simp
        | some document =>
            obtain ⟨before, hbefore⟩ := document_suffix hloop
            have hbody : v0 :: v1 :: o0 :: o1 :: r0 :: r1 :: r2 :: r3 :: rest
                = [v0, v1, o0, o1, r0, r1, r2, r3] ++ before ++ document := by
              rw [← hbefore, List.append_assoc]
              rfl
            simp only [Option.getD_some]
            rw [hbody, List.length_append, Nat.add_sub_cancel]
            exact List.drop_left' rfl
  · cases h

/-! ### One operation after another -/

section Operations

variable {asked : Asked} {printer : PrinterName} {host : Chars} {lease : ℕ} {h : Header}
  {wish : Option Wish}

lemma fulfils_some {w : Wish} {turn : Turn} (hwish : wish = some w)
    (hdone : turn.done = fulfil sha256 s c host lease h printer w) :
    Fulfils sha256 s c host lease h printer wish turn := by
  rw [hwish]
  exact hdone

/-- A refusal is what the service gives for the wish, if there is one. -/
lemma fulfils_refuse {status : Status} {effects : List Effect}
    (hquiet : ∀ e ∈ effects, e.isQuiet = true)
    (hwish : ∀ w, wish = some w →
      fulfil sha256 s c host lease h printer w = ⟨s, [], refusal sha256 c.upTime h status⟩) :
    Fulfils sha256 s c host lease h printer wish (refuse sha256 s c h status effects) := by
  cases wish with
  | none => exact idle_refuse hquiet
  | some w =>
      rw [Fulfils, hwish w rfl, Turn.done, refuse, deeds_of_isQuiet hquiet]

lemma isQuiet_promoted : ∀ e ∈ [Effect.promoted], e.isQuiet = true := fun e he => by
  rw [List.mem_singleton.mp he]
  rfl

lemma isQuiet_reported (code : ErrorCode) (printer : Option PrinterName) :
    ∀ e ∈ [Effect.reported code printer], e.isQuiet = true := fun e he => by
  rw [List.mem_singleton.mp he]
  rfl

lemma isQuiet_append {es fs : List Effect} (hes : ∀ e ∈ es, e.isQuiet = true)
    (hfs : ∀ e ∈ fs, e.isQuiet = true) : ∀ e ∈ es ++ fs, e.isQuiet = true := fun e he =>
  (List.mem_append.mp he).elim (hes e) (hfs e)

/-- The wish of a `Print-Job`. -/
lemma wishOf_printJob {r : Request} (hsupported : r.versionIsSupported = true)
    (hoperation : r.operation = operationPrintJob) :
    wishOf r = if namesRaster r = some true ∧ r.document ≠ [] then
      (jobSettings r).toOption.map (Wish.print · r.document) else none := by
  rw [wishOf, hsupported, if_neg (by simp), if_pos hoperation]

/-- `Print-Job`. -/
lemma fulfils_printJob {bytes : Bytes} (hselected : asked.selected = some printer)
    (hsupported : asked.request.versionIsSupported = true)
    (hoperation : asked.request.operation = operationPrintJob)
    (hdocument : bytes.drop asked.request.documentStart = asked.request.document) :
    Fulfils sha256 s c host lease (headerOf asked.request) printer (wishOf asked.request)
      (answerPrintJob sha256 s c bytes asked) := by
  have hwish := wishOf_printJob hsupported hoperation
  have hprint : ∀ w, wishOf asked.request = some w →
      ∃ settings, w = .print settings asked.request.document := fun w h => by
    rw [hwish] at h
    split_ifs at h
    obtain ⟨settings, -, rfl⟩ := Option.map_eq_some_iff.mp h
    exact ⟨settings, rfl⟩
  unfold answerPrintJob
  simp only [hoperation, decide_true, Bool.true_and, if_true, hselected]
  -- whatever is asked for, a server that takes no jobs says so
  cases hmarked : c.marked with
  | false =>
      refine fulfils_refuse isQuiet_promoted fun w h => ?_
      obtain ⟨settings, rfl⟩ := hprint w h
      rw [fulfil, hmarked]
      rfl
  | true =>
      cases havailable : c.available with
      | false =>
          refine fulfils_refuse (isQuiet_append isQuiet_promoted (isQuiet_reported _ _))
            fun w h => ?_
          obtain ⟨settings, rfl⟩ := hprint w h
          rw [fulfil, havailable, Bool.and_false]
          rfl
      | true =>
          rw [hwish]
          unfold namesRaster
          cases hformat : asked.request.value "document-format" with
          | none => exact idle_refuse isQuiet_promoted
          | some format =>
              simp only [Option.map_some, Option.some.injEq, decide_eq_true_eq]
              by_cases hraster : toAsciiLower format.toList = "image/pwg-raster".toList
              · rw [if_neg (not_not.mpr hraster)]
                unfold answerPrintJob.proceed
                cases hsettings : jobSettings asked.request with
                | error status =>
                    rw [show (Except.error status : Except Status PrintSettings).toOption = none
                      from rfl, Option.map_none, ite_self]
                    exact idle_refuse (isQuiet_append isQuiet_promoted (isQuiet_reported _ _))
                | ok settings =>
                    simp only [Bool.not_true, Bool.false_eq_true, if_false]
                    by_cases hempty : asked.request.document = []
                    · rw [if_pos hempty, if_neg (fun h => h.2 hempty)]
                      exact idle_refuse isQuiet_promoted
                    · rw [if_neg hempty, if_pos ⟨hraster, hempty⟩]
                      refine fulfils_some rfl ?_
                      rw [fulfil, hmarked, havailable, Bool.and_self, if_pos rfl, ← hdocument]
                      rfl
              · rw [if_pos hraster, if_neg (fun h => hraster h.1)]
                exact idle_refuse isQuiet_promoted

/-- `Validate-Job`. -/
lemma fulfils_validateJob {bytes : Bytes} (hselected : asked.selected = some printer)
    (hsupported : asked.request.versionIsSupported = true)
    (hoperation : asked.request.operation = operationValidateJob) :
    Fulfils sha256 s c host lease (headerOf asked.request) printer (wishOf asked.request)
      (answerPrintJob sha256 s c bytes asked) := by
  have hnot : asked.request.operation ≠ operationPrintJob := by
    rw [hoperation]
    decide
  have hwish : wishOf asked.request = if namesRaster asked.request = some false then none
      else (jobSettings asked.request).toOption.map Wish.validate := by
    rw [wishOf, hsupported, if_neg (by simp), if_neg hnot, if_pos hoperation]
  unfold answerPrintJob
  simp only [hnot, decide_false, Bool.false_and, Bool.false_eq_true, if_false, hselected,
    List.nil_append]
  cases havailable : c.available with
  | false =>
      refine fulfils_refuse (isQuiet_reported _ _) fun w h => ?_
      rw [hwish] at h
      split_ifs at h
      obtain ⟨settings, -, rfl⟩ := Option.map_eq_some_iff.mp h
      rw [fulfil, havailable]
      rfl
  | true =>
      have hproceed : Fulfils sha256 s c host lease (headerOf asked.request) printer
          ((jobSettings asked.request).toOption.map Wish.validate)
          (answerPrintJob.proceed sha256 s c bytes asked (headerOf asked.request) false []
            printer) := by
        unfold answerPrintJob.proceed
        cases jobSettings asked.request with
        | error status => exact idle_refuse_nil
        | ok settings =>
            refine fulfils_some rfl ?_
            rw [fulfil, havailable]
            rfl
      rw [hwish]
      unfold namesRaster
      cases hformat : asked.request.value "document-format" with
      | none => exact hproceed
      | some format =>
          simp only [Option.map_some, Option.some.injEq, decide_eq_false_iff_not]
          by_cases hraster : toAsciiLower format.toList = "image/pwg-raster".toList
          · rw [if_neg (not_not.mpr hraster), if_neg (not_not.mpr hraster)]
            exact hproceed
          · rw [if_pos hraster, if_pos hraster]
            exact idle_refuse_nil

/-- `Create-Job`. -/
lemma fulfils_createJob (hselected : asked.selected = some printer)
    (hsupported : asked.request.versionIsSupported = true)
    (hoperation : asked.request.operation = operationCreateJob) :
    Fulfils sha256 s c asked.host lease (headerOf asked.request) printer (wishOf asked.request)
      (answerCreateJob sha256 s c lease asked) := by
  have hwish : wishOf asked.request
      = if wrongFormat asked.request = true ∨ asked.request.document ≠ [] then none
        else (jobSettings asked.request).toOption.map
          (Wish.create (asked.request.value "job-name")) := by
    rw [wishOf, hsupported, hoperation]
    rfl
  unfold answerCreateJob
  simp only [hselected]
  by_cases hdocument : asked.request.document = []
  · rw [if_neg (not_not.mpr hdocument)]
    by_cases hformat : wrongFormat asked.request = true
    · rw [hwish, if_pos (.inl hformat), if_pos hformat]
      exact idle_refuse_nil
    · rw [hwish, if_neg (not_or.mpr ⟨hformat, not_not.mpr hdocument⟩), if_neg hformat]
      cases havailable : c.available with
      | false =>
          refine fulfils_refuse (isQuiet_reported _ _) fun w h => ?_
          obtain ⟨settings, -, rfl⟩ := Option.map_eq_some_iff.mp h
          rw [fulfil, havailable, Bool.and_false]
          rfl
      | true =>
          simp only [Bool.not_true, Bool.false_eq_true, if_false]
          cases jobSettings asked.request with
          | error status => exact idle_refuse (isQuiet_reported _ _)
          | ok settings =>
              refine fulfils_some rfl ?_
              rw [fulfil, havailable, Bool.and_true]
              cases hmarked : c.marked with
              | false => rfl
              | true =>
                  simp only [Bool.not_true, Bool.false_eq_true, if_false, if_true]
                  cases s.create c.now asked.host printer (asked.request.value "job-name")
                      settings lease with
                  | mk answer s' => cases answer <;> rfl
  · rw [if_pos hdocument, hwish, if_pos (.inr hdocument)]
    exact idle_refuse_nil

/-- `Send-Document`. -/
lemma fulfils_sendDocument {bytes : Bytes} (hselected : asked.selected = some printer)
    (hsupported : asked.request.versionIsSupported = true)
    (hoperation : asked.request.operation = operationSendDocument)
    (hstart : asked.request.documentStart ≤ bytes.length) :
    Fulfils sha256 s c host lease (headerOf asked.request) printer (wishOf asked.request)
      (answerSendDocument sha256 s c bytes asked) := by
  have hwish : wishOf asked.request
      = if wrongFormat asked.request = true ∨ asked.request.document = [] then none
        else (jobIdOf asked.request).bind fun jobId =>
          (asked.request.boolean "last-document").map
            (Wish.send jobId asked.request.document) := by
    rw [wishOf, hsupported, hoperation]
    rfl
  have hbefore : (bytes.take asked.request.documentStart).length
      = asked.request.documentStart := by
    rw [List.length_take, min_eq_left hstart]
  rw [hwish]
  unfold answerSendDocument
  simp only [hselected]
  cases jobIdOf asked.request with
  | none =>
      rw [Option.bind_none, ite_self]
      exact idle_refuse_nil
  | some jobId =>
      simp only [Option.bind_some]
      by_cases hformat : wrongFormat asked.request = true
      · rw [if_pos hformat, if_pos (.inl hformat)]
        exact idle_refuse_nil
      · rw [if_neg hformat]
        cases asked.request.boolean "last-document" with
        | none =>
            rw [Option.map_none, ite_self]
            exact idle_refuse_nil
        | some lastDocument =>
            simp only [Option.map_some]
            by_cases hempty : asked.request.document = []
            · rw [if_pos hempty, if_pos (.inr hempty)]
              exact idle_refuse_nil
            · rw [if_neg hempty, if_neg (not_or.mpr ⟨hformat, hempty⟩)]
              refine fulfils_some rfl ?_
              rw [fulfil]
              cases c.available with
              | false => rfl
              | true =>
                  simp only [Bool.not_true, Bool.false_eq_true, if_false, if_true]
                  cases s.appendDocument c.now jobId printer asked.request.document
                      lastDocument with
                  | mk answer s' =>
                      cases answer with
                      | error status => rfl
                      | ok submission =>
                          cases submission with
                          | none => rfl
                          | some submission =>
                              have hjob : (PrintJob.mk (bytes.take asked.request.documentStart
                                  ++ submission.document) asked.request.documentStart
                                  submission.settings).document = submission.document :=
                                List.drop_left' hbefore
                              simp only [Turn.done, List.filterMap_cons, deedOf, hjob,
                                List.filterMap_nil]

/-- The queries and the cancellation. -/
lemma fulfils_getJobAttributes (hselected : asked.selected = some printer)
    (hsupported : asked.request.versionIsSupported = true)
    (hoperation : asked.request.operation = operationGetJobAttributes) :
    Fulfils sha256 s c host lease (headerOf asked.request) printer (wishOf asked.request)
      (answerGetJobAttributes sha256 s c asked) := by
  have hwish : wishOf asked.request = (jobIdOf asked.request).map
      (Wish.look · (asked.request.textValues "requested-attributes")) := by
    rw [wishOf, hsupported, hoperation]
    rfl
  rw [hwish]
  unfold answerGetJobAttributes
  simp only [hselected]
  cases jobIdOf asked.request with
  | none => exact idle_refuse_nil
  | some jobId =>
      refine fulfils_some rfl ?_
      rw [fulfil]
      simp only
      cases s.get c.now jobId with
      | mk answer s' =>
          cases answer with
          | error status => rfl
          | ok job =>
              simp only
              cases eqIgnoreAsciiCase printer.chars job.printerName.toList <;> rfl

lemma fulfils_getJobs (hselected : asked.selected = some printer)
    (hsupported : asked.request.versionIsSupported = true)
    (hoperation : asked.request.operation = operationGetJobs) :
    Fulfils sha256 s c host lease (headerOf asked.request) printer (wishOf asked.request)
      (answerGetJobs sha256 s c asked) := by
  have hwish : wishOf asked.request = some (.list (asked.request.value "which-jobs")
      (asked.request.textValues "requested-attributes")) := by
    rw [wishOf, hsupported, hoperation]
    rfl
  refine fulfils_some hwish ?_
  rw [fulfil]
  unfold answerGetJobs
  simp only [hselected]
  cases s.list c.now printer (asked.request.value "which-jobs") with
  | mk answer s' => cases answer <;> rfl

lemma fulfils_cancelJob (hselected : asked.selected = some printer)
    (hsupported : asked.request.versionIsSupported = true)
    (hoperation : asked.request.operation = operationCancelJob) :
    Fulfils sha256 s c host lease (headerOf asked.request) printer (wishOf asked.request)
      (answerCancelJob sha256 s c asked) := by
  have hwish : wishOf asked.request = (jobIdOf asked.request).map Wish.cancel := by
    rw [wishOf, hsupported, hoperation]
    rfl
  rw [hwish]
  unfold answerCancelJob
  simp only [hselected]
  cases jobIdOf asked.request with
  | none => exact idle_refuse_nil
  | some jobId =>
      refine fulfils_some rfl ?_
      rw [fulfil]
      simp only
      cases s.cancel c.now jobId printer with
      | mk answer s' => cases answer <;> rfl

end Operations

/-- The queries about printers, which need no channel, change nothing. -/
lemma fulfils_query {call : Call} {r : Request} {printer : PrinterName}
    (hparse : Request.parse call.bytes = .ok r) (hmulti : isMultiStep r.operation = false)
    (hother : r.operation ≠ operationPrintJob ∧ r.operation ≠ operationValidateJob) :
    Fulfils sha256 s c call.host call.lease (headerOf r) printer (wishOf r)
      (answerJob X sha256 s c call) := by
  have hwish : wishOf r = none := by
    simp only [isMultiStep, Bool.or_eq_false_iff, decide_eq_false_iff_not] at hmulti
    simp [wishOf, hother, hmulti]
  rw [hwish]
  unfold answerJob
  simp only [hparse, hmulti]
  cases r.versionIsSupported with
  | false => exact idle_refuse_nil
  | true =>
      rw [Bool.not_true, if_neg Bool.false_ne_true, if_neg Bool.false_ne_true, if_pos hother]
      exact ⟨rfl, rfl, exists_answerWithJobStatus c call.host r _⟩

/-- **The endpoint is the print service.** For a request that carries an accepted channel and
selects a printer, a section does what the service does for the wish of the request. -/
theorem fulfils_answerJob {call : Call} {r : Request} {printer : PrinterName}
    (hparse : Request.parse call.bytes = .ok r)
    (hselected : (Asked.mk r call.host c.shared).selected = some printer)
    (hauthorized : authorized X c.channel r = true) :
    Fulfils sha256 s c call.host call.lease (headerOf r) printer (wishOf r)
      (answerJob X sha256 s c call) := by
  unfold answerJob
  simp only [hparse]
  cases hsupported : r.versionIsSupported with
  | false =>
      rw [show wishOf r = none by rw [wishOf, hsupported]; rfl]
      exact idle_refuse_nil
  | true =>
      rw [Bool.not_true, if_neg Bool.false_ne_true]
      by_cases hmulti : isMultiStep r.operation = true
      · rw [if_pos hmulti]
        unfold answerMultiStep
        rw [hauthorized, Bool.not_true, if_neg Bool.false_ne_true]
        simp only
        by_cases hcreate : r.operation = operationCreateJob
        · rw [if_pos hcreate]
          exact fulfils_createJob hselected hsupported hcreate
        rw [if_neg hcreate]
        by_cases hsend : r.operation = operationSendDocument
        · rw [if_pos hsend]
          exact fulfils_sendDocument hselected hsupported hsend (documentStart_le hparse)
        rw [if_neg hsend]
        by_cases hlook : r.operation = operationGetJobAttributes
        · rw [if_pos hlook]
          exact fulfils_getJobAttributes hselected hsupported hlook
        rw [if_neg hlook]
        by_cases hlist : r.operation = operationGetJobs
        · rw [if_pos hlist]
          exact fulfils_getJobs hselected hsupported hlist
        rw [if_neg hlist]
        have hcancel : r.operation = operationCancelJob := by
          simpa [isMultiStep, hcreate, hsend, hlook, hlist] using hmulti
        exact fulfils_cancelJob hselected hsupported hcancel
      · rw [if_neg hmulti]
        by_cases hprint : r.operation = operationPrintJob
        · rw [if_neg (fun h => h.1 hprint), hauthorized, Bool.not_true,
            if_neg Bool.false_ne_true]
          exact fulfils_printJob hselected hsupported hprint (drop_documentStart hparse)
        by_cases hvalidate : r.operation = operationValidateJob
        · rw [if_neg (fun h => h.2 hvalidate), hauthorized, Bool.not_true,
            if_neg Bool.false_ne_true]
          exact fulfils_validateJob hselected hsupported hvalidate
        have hquery : Fulfils sha256 s c call.host call.lease (headerOf r) printer (wishOf r)
            (answerJob X sha256 s c call) :=
          fulfils_query hparse (Bool.eq_false_iff.mpr hmulti) ⟨hprint, hvalidate⟩
        unfold answerJob at hquery
        simp only [hparse, hsupported, Bool.not_true, Bool.false_eq_true, if_false,
          if_neg hmulti] at hquery
        exact hquery

end Service

end ShaPrint.Endpoint
