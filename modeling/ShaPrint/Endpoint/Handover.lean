import ShaPrint.Endpoint.Authorization

/-!
What the spooler is given for a job of the store, in every interleaving of requests.

* `Effect.creates`, `Effect.ends`, `documentsOf`: what the log says of one job.
* `Collecting`: since its creation the job has collected these documents, and nothing has
  ended that; `Collected` says it of every pending job.
* `handedOver_of_run`: what is submitted is a job that was collecting until then, with its
  documents in the order they were accepted, and it is submitted once.
-/

namespace ShaPrint.Endpoint

open Ipp Channel

/-! ### The log of a job -/

/-- A job is created under the id. -/
def Effect.creates (id : ℤ) : Effect → Bool
  | .created _ _ _ jobId => jobId == id
  | _ => false

/-- The job under the id takes no more documents. -/
def Effect.ends (id : ℤ) : Effect → Bool
  | .submitted _ jobId _ _ => jobId == some id
  | .cancelled jobId | .finished jobId _ => jobId == id
  | .expired jobIds | .aborted jobIds => jobIds.contains id
  | _ => false

/-- The document that is accepted for the job under the id. -/
def Effect.documentFor (id : ℤ) : Effect → Bytes
  | .appended jobId document => if jobId = id then document else []
  | _ => []

/-- The documents that are accepted for the job under the id, one after the other. -/
def documentsOf (id : ℤ) (log : List Effect) : Bytes := log.flatMap (Effect.documentFor id)

/-- The effect is of no creation or end of the job under the id. -/
def Effect.Passes (id : ℤ) (e : Effect) : Prop := e.creates id = false ∧ e.ends id = false

/-- The job created last under the id is for this printer and these settings; since then these
documents were accepted for it, and nothing has ended it. -/
def Collecting (log : List Effect) (id : ℤ) (printer : PrinterName) (settings : PrintSettings)
    (documents : Bytes) : Prop :=
  ∃ before asked since, log = before ++ .created asked printer settings id :: since
    ∧ (∀ e ∈ since, e.Passes id) ∧ documents = documentsOf id since

/-- A job of the store that is submitted after `before` had been collecting until then. -/
def CollectedFor (before : List Effect) : Effect → Prop
  | .submitted _ (some id) printer job =>
      Collecting before id printer job.settings job.document
  | _ => True

def HandedOver (log : List Effect) : Prop := Throughout CollectedFor log

section Log

variable {log es : List Effect} {id : ℤ} {printer : PrinterName} {settings : PrintSettings}
  {documents : Bytes}

lemma collecting_created (log : List Effect) (asked : Asked) (printer : PrinterName)
    (settings : PrintSettings) (id : ℤ) :
    Collecting (log ++ [.created asked printer settings id]) id printer settings [] :=
  ⟨log, asked, [], rfl, fun _ he => absurd he List.not_mem_nil, rfl⟩

lemma Collecting.append (h : Collecting log id printer settings documents)
    (hes : ∀ e ∈ es, e.Passes id) :
    Collecting (log ++ es) id printer settings (documents ++ documentsOf id es) := by
  obtain ⟨before, asked, since, rfl, hsince, rfl⟩ := h
  refine ⟨before, asked, since ++ es, by simp, fun e he => ?_, ?_⟩
  · rcases List.mem_append.mp he with he | he
    · exact hsince e he
    · exact hes e he
  · rw [documentsOf, documentsOf, documentsOf, List.flatMap_append]

lemma Effect.passes_of_isQuiet {e : Effect} (h : e.isQuiet = true) (id : ℤ) :
    (e.Passes id ∧ e.documentFor id = []) ∧ ∀ before, CollectedFor before e := by
  cases e <;> first | exact ⟨⟨⟨rfl, rfl⟩, rfl⟩, fun _ => trivial⟩ | cases h

/-- A job that is alive is not among the expired ones. -/
lemma passes_expired {s : JobStore} {now : ℕ} {job : StoredJob}
    (h : (s.expireLocked now).jobs[id]? = some job) :
    (Effect.expired (s.expiredIds now)).Passes id := by
  obtain ⟨hjob, halive⟩ := JobStore.getElem?_expireLocked.mp h
  refine ⟨rfl, ?_⟩
  rw [Effect.ends, List.contains_eq_mem, decide_eq_false_iff_not, JobStore.expiredIds,
    Std.ExtTreeMap.mem_keys, Std.ExtTreeMap.mem_iff_isSome_getElem?,
    Std.ExtTreeMap.getElem?_filter', hjob]
  simp [Option.filter, halive]

end Log

/-! ### Pending jobs -/

/-- A job that is pending after a section was pending before, and what the section logs of it
is its documents, or the section has created it. -/
lemma Turned.pending {s : JobStore} {call : Call} {turn : Turn}
    (h : Turned s call turn) {id : ℤ} {job : StoredJob}
    (hjob : turn.store.jobs[id]? = some job) (hstate : job.entry.state = 3) :
    (∃ old, s.jobs[id]? = some old ∧ old.entry.state = 3 ∧ job.printer = old.printer
      ∧ job.settings = old.settings ∧ (∀ e ∈ turn.effects, e.Passes id)
      ∧ job.document = old.document ++ documentsOf id turn.effects)
    ∨ ∃ before asked, turn.effects = before ++ [.created asked job.printer job.settings id]
      ∧ job.document = [] := by
  have hpassed : ∀ {effects : List Effect}, (∀ e ∈ effects, e.isQuiet = true) →
      (∀ e ∈ effects, e.Passes id) ∧ documentsOf id effects = [] := fun hquiet =>
    ⟨fun e he => (Effect.passes_of_isQuiet (hquiet e he) id).1.1,
      List.flatMap_eq_nil_iff.mpr fun e he => (Effect.passes_of_isQuiet (hquiet e he) id).1.2⟩
  -- a section that leaves the job as it is, and logs nothing of it
  have hkept : ∀ {effects : List Effect}, s.jobs[id]? = some job →
      (∀ e ∈ effects, e.Passes id) ∧ documentsOf id effects = [] →
      ∃ old, s.jobs[id]? = some old ∧ old.entry.state = 3 ∧ job.printer = old.printer
        ∧ job.settings = old.settings ∧ (∀ e ∈ effects, e.Passes id)
        ∧ job.document = old.document ++ documentsOf id effects := by
    rintro effects hbefore ⟨hpasses, hnone⟩
    exact ⟨job, hbefore, hstate, rfl, rfl, hpasses, by rw [hnone, List.append_nil]⟩
  have hother : ∀ {jobId : ℤ}, jobId ≠ id → (jobId == id) = false := fun h => beq_false_of_ne h
  cases h with
  | quiet effects answer hquiet => exact .inl (hkept hjob (hpassed hquiet))
  | printing asked printer printJob header =>
      refine .inl (hkept hjob ⟨fun e he => ?_, rfl⟩)
      rcases List.mem_pair.mp he with rfl | rfl <;> exact ⟨rfl, rfl⟩
  | acknowledged header printer jobId answer =>
      refine .inl (hkept hjob ⟨fun e he => ?_, rfl⟩)
      rw [List.mem_singleton.mp he]
      exact ⟨rfl, rfl⟩
  | looked now effects answer hquiet =>
      obtain ⟨hpasses, hnone⟩ := hpassed hquiet
      refine .inl (hkept (JobStore.getElem?_expireLocked.mp hjob).1 ⟨fun e he => ?_, ?_⟩)
      · rcases List.mem_append.mp he with he | he
        · exact hpasses e he
        · rw [List.mem_singleton.mp he]
          exact passes_expired hjob
      · rw [documentsOf, List.flatMap_append]
        exact List.append_eq_nil_iff.mpr ⟨hnone, rfl⟩
  | created now asked printer settings name room newId next answer hselected hroom =>
      rw [JobStore.getElem?_put] at hjob
      split_ifs at hjob with heq
      · obtain rfl := heq
        obtain rfl := Option.some.inj hjob
        exact .inr ⟨[.promoted, .expired (s.expiredIds now)], asked, rfl, rfl⟩
      · have hold := JobStore.getElem?_of_makeRoom hroom hjob
        refine .inl (hkept (JobStore.getElem?_expireLocked.mp hold).1 ⟨fun e he => ?_, rfl⟩)
        simp only [List.mem_cons, List.not_mem_nil, or_false] at he
        rcases he with rfl | rfl | rfl
        · exact ⟨rfl, rfl⟩
        · exact passes_expired hold
        · exact ⟨hother heq, rfl⟩
  | appended now printer jobId old document header hpending =>
      rw [JobStore.getElem?_put] at hjob
      split_ifs at hjob with heq
      · obtain rfl := heq
        obtain rfl := Option.some.inj hjob
        refine .inl ⟨old, (JobStore.getElem?_expireLocked.mp hpending.tracked).1,
          hpending.state_eq, rfl, rfl, fun e he => ?_, ?_⟩
        · rcases List.mem_pair.mp he with rfl | rfl
          · exact passes_expired hpending.tracked
          · exact ⟨rfl, rfl⟩
        · simp [documentsOf, Effect.documentFor, JobStore.addDocument]
      · refine .inl (hkept (JobStore.getElem?_expireLocked.mp hjob).1 ⟨fun e he => ?_, ?_⟩)
        · rcases List.mem_pair.mp he with rfl | rfl
          · exact passes_expired hjob
          · exact ⟨rfl, rfl⟩
        · simp [documentsOf, Effect.documentFor, heq]
  | sent now asked printer jobId old document printJob header submission _ hpending =>
      rw [JobStore.getElem?_put] at hjob
      split_ifs at hjob with heq
      · obtain rfl := Option.some.inj hjob
        cases hstate
      · refine .inl (hkept (JobStore.getElem?_expireLocked.mp hjob).1 ⟨fun e he => ?_, ?_⟩)
        · simp only [List.mem_cons, List.not_mem_nil, or_false] at he
          rcases he with rfl | rfl | rfl
          · exact passes_expired hjob
          · exact ⟨rfl, rfl⟩
          · exact ⟨rfl, beq_false_of_ne fun h => heq (Option.some.inj h)⟩
        · simp [documentsOf, Effect.documentFor, heq]
  | cancelled now printer jobId old answer hpending =>
      rw [JobStore.getElem?_put] at hjob
      split_ifs at hjob with heq
      · obtain rfl := Option.some.inj hjob
        cases hstate
      · refine .inl (hkept (JobStore.getElem?_expireLocked.mp hjob).1 ⟨fun e he => ?_, rfl⟩)
        rcases List.mem_pair.mp he with rfl | rfl
        · exact passes_expired hjob
        · exact ⟨rfl, hother heq⟩
  | finished header jobId submission outcome effects answer _ hquiet =>
      obtain ⟨hpasses, hnone⟩ := hpassed hquiet
      have hfinished : ∀ {i : ℤ}, jobId ≠ i → s.jobs[i]? = some job → i = id →
          ∃ old, s.jobs[id]? = some old ∧ old.entry.state = 3 ∧ job.printer = old.printer
            ∧ job.settings = old.settings
            ∧ (∀ e ∈ effects ++ [.finished jobId outcome.state], e.Passes id)
            ∧ job.document
              = old.document ++ documentsOf id (effects ++ [.finished jobId outcome.state]) := by
        rintro i hne hbefore rfl
        refine hkept hbefore ⟨fun e he => ?_, ?_⟩
        · rcases List.mem_append.mp he with he | he
          · exact hpasses e he
          · rw [List.mem_singleton.mp he]
            exact ⟨rfl, hother hne⟩
        · rw [documentsOf, List.flatMap_append]
          exact List.append_eq_nil_iff.mpr ⟨hnone, rfl⟩
      rcases s.finish_cases jobId outcome.state with ⟨hnot, hstore⟩ | ⟨old, hold, hstore⟩
      · rw [hstore] at hjob
        refine .inl (hfinished ?_ hjob rfl)
        rintro rfl
        rw [hnot] at hjob
        cases hjob
      · rw [hstore, JobStore.getElem?_put] at hjob
        split_ifs at hjob with heq
        · obtain rfl := Option.some.inj hjob
          cases outcome <;> cases hstate
        · exact .inl (hfinished heq hjob rfl)

/-! ### Runs -/

/-- Pending jobs are collecting, and what was submitted had been. -/
structure Collected (w : World) : Prop where
  pending : ∀ (id : ℤ) (job : StoredJob), w.shared.store.jobs[id]? = some job →
    job.entry.state = 3 →
    Collecting w.shared.log id job.printer job.settings job.document
  handedOver : HandedOver w.shared.log

lemma handedOver_of_turned {w : World} (hw : Collected w) {call : Call}
    {turn : Turn} (h : Turned w.shared.store call turn) :
    HandedOver (w.shared.log ++ turn.effects) := by
  have hquieted : ∀ {effects : List Effect}, (∀ e ∈ effects, e.isQuiet = true) →
      HandedOver (w.shared.log ++ effects) := fun hquiet =>
    hw.handedOver.append fun e he => (Effect.passes_of_isQuiet (hquiet e he) 0).2
  cases h with
  | quiet effects answer hquiet => exact hquieted hquiet
  | looked now effects answer hquiet =>
      rw [← List.append_assoc]
      exact throughout_concat.mpr ⟨hquieted hquiet, trivial⟩
  | finished header jobId submission outcome effects answer _ hquiet =>
      rw [← List.append_assoc]
      exact throughout_concat.mpr ⟨hquieted hquiet, trivial⟩
  | sent now asked printer jobId job document printJob header submission _ hpending _ hdocument
      hsettings =>
      have hbefore := JobStore.getElem?_expireLocked.mp hpending.tracked
      have hpasses : ∀ e ∈ [Effect.expired (w.shared.store.expiredIds now),
          .appended jobId document], e.Passes jobId := by
        intro e he
        rcases List.mem_pair.mp he with rfl | rfl
        · exact passes_expired hpending.tracked
        · exact ⟨rfl, rfl⟩
      have hcollecting := (hw.pending jobId job hbefore.1 hpending.state_eq).append hpasses
      have hdocuments : documentsOf jobId [.expired (w.shared.store.expiredIds now),
          .appended jobId document] = document := by
        simp [documentsOf, Effect.documentFor]
      rw [hdocuments, ← hdocument, ← hsettings] at hcollecting
      have hsplit : w.shared.log ++ [.expired (w.shared.store.expiredIds now),
          .appended jobId document, .submitted asked (some jobId) job.printer printJob]
          = (w.shared.log ++ [.expired (w.shared.store.expiredIds now),
              .appended jobId document])
            ++ [.submitted asked (some jobId) job.printer printJob] := by simp
      rw [hsplit]
      refine throughout_concat.mpr ⟨hw.handedOver.append fun e he _ => ?_, hcollecting⟩
      rcases List.mem_pair.mp he with rfl | rfl <;> trivial
  | printing | acknowledged | created | appended | cancelled =>
      refine hw.handedOver.append fun e he _ => ?_
      simp only [List.mem_cons, List.not_mem_nil, or_false] at he
      rcases he with rfl | rfl | rfl <;> trivial

lemma collected_of_served {w v : World} {e : Event} (hw : Collected w) (h : Served w e v) :
    Collected v := by
  cases h with
  | start call => exact ⟨hw.pending, hw.handedOver⟩
  | turn i x call turn hcall hlife hturned =>
      refine ⟨fun id job hjob hstate => ?_, handedOver_of_turned hw hturned⟩
      rcases hturned.pending hjob hstate with
        ⟨old, hold, hpending, hprinter, hsettings, hpasses, hdocument⟩
        | ⟨before, asked, heffects, hdocument⟩
      · rw [hprinter, hsettings, hdocument]
        exact (hw.pending id old hold hpending).append hpasses
      · dsimp only
        rw [heffects, hdocument, ← List.append_assoc]
        exact collecting_created _ asked _ _ id
  | outside x =>
      cases x with
      | expire now =>
          refine ⟨fun id job hjob hstate => ?_, throughout_concat.mpr ⟨hw.handedOver, trivial⟩⟩
          have hpasses : ∀ e ∈ [Effect.expired (w.shared.store.expiredIds now)],
              e.Passes id := by
            intro e he
            rw [List.mem_singleton.mp he]
            exact passes_expired hjob
          have hnone : documentsOf id [.expired (w.shared.store.expiredIds now)] = [] := rfl
          have hcollecting := (hw.pending id job
            (JobStore.getElem?_expireLocked.mp hjob).1 hstate).append hpasses
          rwa [hnone, List.append_nil] at hcollecting
      | stop =>
          refine ⟨fun id job hjob hstate => ?_, throughout_concat.mpr ⟨hw.handedOver, trivial⟩⟩
          -- after an abort no job is pending
          obtain ⟨old, hold, -, -, rfl⟩ := JobStore.getElem?_abortIncomplete hjob
          split_ifs at hstate with hincomplete
          · cases hstate
          · exact absurd (.inl hstate) hincomplete

section Run

variable {X : Services} {sha256 : Bytes → Vector UInt8 32}

/-- A job of the store is submitted at most once after its creation. -/
def HandedOnce (log : List Effect) : Prop :=
  ∀ before asked id printer job between asked' printer' job' after,
    log = (before ++ .submitted asked (some id) printer job :: between)
      ++ .submitted asked' (some id) printer' job' :: after →
    ∃ e ∈ between, e.creates id = true

lemma HandedOver.once {log : List Effect} (h : HandedOver log) : HandedOnce log := by
  rintro before asked id printer job between asked' printer' job' after hlog
  obtain ⟨before', creating, since, hsplit, hsince, -⟩ := h _ _ _ hlog
  have hsubmitted : Effect.submitted asked (some id) printer job ∉ since := by
    intro hmem
    have hends := (hsince _ hmem).2
    simp [Effect.ends] at hends
  rcases List.append_eq_append_iff.mp hsplit with ⟨rest, hbefore, hrest⟩ | ⟨rest, hbefore, hrest⟩
  · cases rest with
    | nil =>
        rw [List.nil_append] at hrest
        exact absurd (List.cons.inj hrest).1 (by simp)
    | cons e rest =>
        obtain ⟨-, hbetween⟩ := List.cons.inj hrest
        refine ⟨.created creating printer' job'.settings id, ?_, beq_self_eq_true id⟩
        rw [hbetween]
        exact List.mem_append_right _ List.mem_cons_self
  · cases rest with
    | nil =>
        rw [List.nil_append] at hrest
        exact absurd (List.cons.inj hrest).1 (by simp)
    | cons e rest =>
        obtain ⟨-, hsinceEq⟩ := List.cons.inj hrest
        refine absurd ?_ hsubmitted
        rw [hsinceEq]
        exact List.mem_append_right _ List.mem_cons_self

/-- **In every interleaving of requests, what is submitted for a job of the store is the
documents accepted for it since its creation, in their order, under the printer and the settings
of the creation; the job was not cancelled, aborted, expired or submitted before.** -/
theorem handedOver_of_run {es : List Event} {w : World}
    (h : (endpoint X sha256).run es = some w) :
    HandedOver w.shared.log ∧ HandedOnce w.shared.log := by
  have hinit : Collected (endpoint X sha256).init := by
    refine ⟨fun id job hjob => ?_, throughout_nil⟩
    simp [endpoint, Processes.system, requests, JobStore.new] at hjob
  have hcollected := endpoint_invariant hinit (fun _ _ _ _ hw hv => collected_of_served hw hv) h
  exact ⟨hcollected.handedOver, hcollected.handedOver.once⟩

end Run

/-! ### A job of two steps -/

def officeCreateJob (life : ℕ) : Call := officeCall operationCreateJob [] [] life

/-- The last document of the job under the id 1. -/
def officeSendDocument : Call :=
  officeCall operationSendDocument
    [⟨Tag.integer, "job-id", i32Bytes 1⟩, ⟨Tag.boolean, "last-document", [1]⟩]
    [82, 97, 83, 50] 0

def defaultSettings : PrintSettings := ⟨none, none, none, none, none, none⟩

/-- The first job of the client. -/
def officeJob : StoredJob :=
  ⟨JobStore.newEntry "server:48631".toList office none 1, office, defaultSettings, [], 0, some 0⟩

lemma officeCreateJob_creates :
    ∃ asked answer, answerJob officeServices Sha256.digest JobStore.new (officeContext 0)
        (officeCreateJob 0)
      = ⟨JobStore.put ⟨2, ∅⟩ 1 officeJob,
          [.promoted, .expired [], .created asked office defaultSettings 1],
          .answered answer⟩ := by
  have hok : ∀ w ∈ officeValues [], w.Ok := by decide +kernel
  have hnamed : ∀ w ∈ officeValues [], w.Named := by decide +kernel
  have hparse := parse_office [] 0 (by decide : operationCreateJob < 65536) hok hnamed
  unfold answerJob
  rw [officeCreateJob, hparse]
  exact ⟨_, _, rfl⟩

/-- A job of the store is submitted under the id. -/
def Effect.submits (id : ℤ) : Effect → Bool
  | .submitted _ jobId _ _ => jobId == some id
  | _ => false

lemma officeSendDocument_submits :
    (answerJob officeServices Sha256.digest (JobStore.put ⟨2, ∅⟩ 1 officeJob) (officeContext 1)
      officeSendDocument).effects.any (Effect.submits 1) = true := by
  have hok : ∀ w ∈ officeValues [⟨Tag.integer, "job-id", i32Bytes 1⟩,
      ⟨Tag.boolean, "last-document", [1]⟩], w.Ok := by decide +kernel
  have hnamed : ∀ w ∈ officeValues [⟨Tag.integer, "job-id", i32Bytes 1⟩,
      ⟨Tag.boolean, "last-document", [1]⟩], w.Named := by decide +kernel
  have hparse := parse_office [82, 97, 83, 50] 0 (by decide : operationSendDocument < 65536) hok
    hnamed
  unfold answerJob
  rw [officeSendDocument, hparse]
  decide +kernel

/-- The document of a job is handed over. -/
theorem officeJob_handedOver :
    ∃ es w, (endpoint officeServices Sha256.digest).run es = some w
      ∧ w.shared.log.any (Effect.submits 1) = true
      ∧ HandedOver w.shared.log ∧ HandedOnce w.shared.log := by
  obtain ⟨_, _, hcreate⟩ := officeCreateJob_creates
  have hcreated := run_answer (endpoint officeServices Sha256.digest).run_nil rfl rfl hcreate
  have hsent := run_answer hcreated (rfl : officeSendDocument.phase = .received) rfl
    (rfl : answerJob officeServices Sha256.digest _ (officeContext 1) officeSendDocument = _)
  refine ⟨_, _, hsent, ?_, handedOver_of_run hsent⟩
  rw [List.any_append, officeSendDocument_submits, Bool.or_true]

end ShaPrint.Endpoint
