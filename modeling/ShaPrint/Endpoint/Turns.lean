import ShaPrint.Endpoint.Answer

/-!
What a section of a request does to the job store, said once: `Turned` has a constructor
for each kind, and `turned_of_resume` is its inversion.

* `appendDocument_cases`, `cancel_cases`: the outcomes of two operations on the store.
* `Turned`, `turned_of_resume`.
* `Served`, `served_of_step`: what a step of the interleaving does.
* `endpoint_invariant`: the induction rule for runs, which hands out the store's invariant.
-/

namespace ShaPrint.Endpoint

open Ipp Channel

/-! ### Outcomes of the operations -/

/-- The store with `job` tracked under `id`. -/
def JobStore.put (s : JobStore) (id : ℤ) (job : StoredJob) : JobStore :=
  { s with jobs := s.jobs.insert id job }

lemma JobStore.getElem?_put (s : JobStore) (id : ℤ) (job : StoredJob) (i : ℤ) :
    (s.put id job).jobs[i]? = if id = i then some job else s.jobs[i]? := by
  rw [put, Std.ExtTreeMap.getElem?_insert]
  exact if_congr (Std.LawfulEqCmp.compare_eq_iff_eq) rfl rfl

section Outcomes

variable {s : JobStore} {now : ℕ} {id : ℤ} {printer : PrinterName}

/-- A pending job of the printer is tracked under the id. -/
structure Pending (s : JobStore) (id : ℤ) (printer : PrinterName) (job : StoredJob) : Prop where
  tracked : s.jobs[id]? = some job
  printer_eq : eqIgnoreAsciiCase job.printer.chars printer.chars = true
  state_eq : job.entry.state = 3

lemma appendDocument_cases (s : JobStore) (now : ℕ) (id : ℤ) (printer : PrinterName)
    (document : Bytes) (lastDocument : Bool) :
    (∃ status, s.appendDocument now id printer document lastDocument
      = (.error status, s.expireLocked now))
    ∨ ∃ job, Pending (s.expireLocked now) id printer job
      ∧ ¬maxJobDocumentBytes - job.document.length < document.length
      ∧ s.appendDocument now id printer document lastDocument
        = if lastDocument then
            (.ok (some ⟨(JobStore.takeDocument (JobStore.addDocument job document)).entry,
                job.printer, job.settings, job.document ++ document⟩),
              (s.expireLocked now).put id
                (JobStore.takeDocument (JobStore.addDocument job document)))
          else
            (.ok none, (s.expireLocked now).put id (JobStore.addDocument job document)) := by
  unfold JobStore.appendDocument
  simp only
  cases hjob : (s.expireLocked now).pendingJob id printer with
  | error status => exact .inl ⟨status, rfl⟩
  | ok job =>
      obtain ⟨htracked, hprinter, hstate⟩ := JobStore.pendingJob_eq_ok hjob
      simp only
      by_cases hlarge : maxJobDocumentBytes - job.document.length < document.length
      · rw [if_pos hlarge]
        exact .inl ⟨_, rfl⟩
      · rw [if_neg hlarge]
        refine .inr ⟨job, ⟨htracked, hprinter, hstate⟩, hlarge, ?_⟩
        cases lastDocument <;> rfl

/-- A lookup leaves the store after its expiry. -/
lemma exists_get (s : JobStore) (now : ℕ) (id : ℤ) :
    ∃ answer, s.get now id = (answer, s.expireLocked now) := by
  unfold JobStore.get
  simp only
  cases (s.expireLocked now).jobs[id]? <;> exact ⟨_, rfl⟩

lemma cancel_cases (s : JobStore) (now : ℕ) (id : ℤ) (printer : PrinterName) :
    (∃ status, s.cancel now id printer = (.error status, s.expireLocked now))
    ∨ ∃ job, Pending (s.expireLocked now) id printer job
      ∧ s.cancel now id printer
        = (.ok (job.close 7).entry, (s.expireLocked now).put id (job.close 7)) := by
  unfold JobStore.cancel
  simp only
  cases hjob : (s.expireLocked now).pendingJob id printer with
  | error status => exact .inl ⟨status, rfl⟩
  | ok job =>
      obtain ⟨htracked, hprinter, hstate⟩ := JobStore.pendingJob_eq_ok hjob
      exact .inr ⟨job, ⟨htracked, hprinter, hstate⟩, rfl⟩

end Outcomes

/-! ### Sections -/

/-- The effects that are about no job. -/
def Effect.isQuiet : Effect → Bool
  | .promoted | .reported _ _ => true
  | _ => false

/-- The job whose documents the request has taken. -/
def Phase.sends : Phase → Option ℤ
  | .sending _ jobId _ => some jobId
  | _ => none

/-- What a section of `call` leaves of the store `s`. -/
inductive Turned (s : JobStore) (call : Call) : Turn → Prop where
  /-- The store is not touched. -/
  | quiet (effects : List Effect) (answer : Bytes) (hquiet : ∀ e ∈ effects, e.isQuiet = true) :
      Turned s call ⟨s, effects, .answered answer⟩
  /-- `Print-Job` calls the submitter. -/
  | printing (asked : Asked) (printer : PrinterName) (job : PrintJob) (h : Header)
      (hselected : asked.selected = some printer) :
      Turned s call
        ⟨s, [.promoted, .submitted asked none printer job], .submitting h printer⟩
  /-- `Print-Job` is answered with an id. -/
  | acknowledged (h : Header) (printer : PrinterName) (jobId : ℕ) (answer : Bytes)
      (hphase : call.phase = .submitting h printer) :
      Turned s call ⟨s, [.acknowledged printer jobId], .answered answer⟩
  /-- The store drops the jobs that are over their lifetime. -/
  | looked (now : ℕ) (effects : List Effect) (answer : Bytes)
      (hquiet : ∀ e ∈ effects, e.isQuiet = true) :
      Turned s call
        ⟨s.expireLocked now, effects ++ [.expired (s.expiredIds now)], .answered answer⟩
  | created (now : ℕ) (asked : Asked) (printer : PrinterName) (settings : PrintSettings)
      (name : Option String) (room : JobStore) (id next : ℤ) (answer : Bytes)
      (hselected : asked.selected = some printer)
      (hroom : (s.expireLocked now).makeRoom = some room)
      (halloc : room.allocateId = (.ok id, { room with nextId := next }))
      (hfree : room.jobs[id]? = none)
      (hid : 1 ≤ id ∧ id ≤ i32Max) (hnext : 1 ≤ next ∧ next ≤ i32Max) :
      Turned s call
        ⟨JobStore.put { room with nextId := next } id
            ⟨JobStore.newEntry asked.host printer name id, printer, settings, [], now,
              some call.lease⟩,
          [.promoted, .expired (s.expiredIds now), .created asked printer settings id],
          .answered answer⟩
  | appended (now : ℕ) (printer : PrinterName) (jobId : ℤ) (job : StoredJob)
      (document : Bytes) (h : Header)
      (hpending : Pending (s.expireLocked now) jobId printer job)
      (hfits : ¬maxJobDocumentBytes - job.document.length < document.length) :
      Turned s call
        ⟨(s.expireLocked now).put jobId (JobStore.addDocument job document),
          [.expired (s.expiredIds now), .appended jobId document], .stored h jobId⟩
  /-- The last document is appended, and the submitter is called. -/
  | sent (now : ℕ) (asked : Asked) (printer : PrinterName) (jobId : ℤ) (job : StoredJob)
      (document : Bytes) (printJob : PrintJob) (h : Header) (submission : JobSubmission)
      (hselected : asked.selected = some printer)
      (hpending : Pending (s.expireLocked now) jobId printer job)
      (hfits : ¬maxJobDocumentBytes - job.document.length < document.length)
      (hdocument : printJob.document = job.document ++ document)
      (hsettings : printJob.settings = job.settings) :
      Turned s call
        ⟨(s.expireLocked now).put jobId
            (JobStore.takeDocument (JobStore.addDocument job document)),
          [.expired (s.expiredIds now), .appended jobId document,
            .submitted asked (some jobId) job.printer printJob],
          .sending h jobId submission⟩
  | cancelled (now : ℕ) (printer : PrinterName) (jobId : ℤ) (job : StoredJob)
      (answer : Bytes) (hpending : Pending (s.expireLocked now) jobId printer job) :
      Turned s call
        ⟨(s.expireLocked now).put jobId (job.close 7),
          [.expired (s.expiredIds now), .cancelled jobId], .answered answer⟩
  /-- The submitter has returned with a job of the store. -/
  | finished (h : Header) (jobId : ℤ) (submission : JobSubmission) (outcome : Outcome)
      (effects : List Effect) (answer : Bytes)
      (hphase : call.phase = .sending h jobId submission)
      (hquiet : ∀ e ∈ effects, e.isQuiet = true) :
      Turned s call
        ⟨(s.finish jobId outcome.state).2, effects ++ [.finished jobId outcome.state],
          .answered answer⟩

/-- The document of a request is at the end of its body. -/
lemma documentStart_le {bytes : Bytes} {r : Request} (h : Request.parse bytes = .ok r) :
    r.documentStart ≤ bytes.length := by
  unfold Request.parse at h
  split at h
  · split at h
    · cases h
    · rw [← Except.ok.inj h]
      exact Nat.sub_le _ _
  · cases h

section Inversion

variable {X : Services} {sha256 : Bytes → Vector UInt8 32} {s : JobStore} {call : Call}
 

lemma turned_refuse (c : EndpointContext) (h : Header) (status : Status)
    {effects : List Effect} (hquiet : ∀ e ∈ effects, e.isQuiet = true) :
    Turned s call (refuse sha256 s c h status effects) :=
  .quiet effects _ hquiet

lemma turned_refuse_nil (c : EndpointContext) (h : Header) (status : Status) :
    Turned s call (refuse sha256 s c h status) :=
  turned_refuse c h status fun _ he => absurd he List.not_mem_nil

lemma turned_report (c : EndpointContext) (h : Header) (status : Status) (code : ErrorCode)
    (printer : Option PrinterName) :
    Turned s call (refuse sha256 s c h status [.reported code printer]) :=
  turned_refuse c h status fun e he => by rw [List.mem_singleton.mp he]; rfl

lemma turned_ite {p : Prop} [Decidable p] {a b : Turn} (ha : p → Turned s call a)
    (hb : ¬p → Turned s call b) : Turned s call (if p then a else b) := by
  split_ifs with h
  · exact ha h
  · exact hb h

/-- A section that only looks at the store after its expiry. -/
lemma turned_looked (now : ℕ) (answer : Bytes) :
    Turned s call ⟨s.expireLocked now, [.expired (s.expiredIds now)], .answered answer⟩ :=
  .looked now [] answer fun _ he => absurd he List.not_mem_nil

lemma turned_printJob (c : EndpointContext) (bytes : Bytes) (asked : Asked) :
    Turned s call (answerPrintJob sha256 s c bytes asked) := by
  have hpromoted : ∀ printing : Bool,
      ∀ e ∈ (if printing then [Effect.promoted] else []), e.isQuiet = true := by
    intro printing e he
    cases printing with
    | false => cases he
    | true => rw [List.mem_singleton.mp he]; rfl
  have hreported : ∀ (printing : Bool) (es : List Effect), (∀ e ∈ es, e.isQuiet = true) →
      ∀ e ∈ (if printing then [Effect.promoted] else []) ++ es, e.isQuiet = true := by
    intro printing es hes e he
    rcases List.mem_append.mp he with he | he
    · exact hpromoted printing e he
    · exact hes e he
  have hproceed : ∀ (printing : Bool) (printer : PrinterName),
      asked.selected = some printer →
      Turned s call (answerPrintJob.proceed sha256 s c bytes asked (headerOf asked.request)
        printing (if printing then [Effect.promoted] else []) printer) := by
    intro printing printer hselected
    unfold answerPrintJob.proceed
    cases jobSettings asked.request with
    | error status =>
        refine turned_refuse c _ status (hreported printing _ fun e he => ?_)
        cases printing with
        | false => cases he
        | true => rw [List.mem_singleton.mp he]; rfl
    | ok settings =>
        cases printing with
        | false => exact turned_refuse c _ _ (hpromoted false)
        | true =>
            simp only [Bool.not_true, Bool.false_eq_true, if_false, if_true]
            split_ifs
            · exact turned_refuse c _ _ (hpromoted true)
            · exact .printing asked printer _ _ hselected
  unfold answerPrintJob
  simp only
  generalize decide (asked.request.operation = operationPrintJob) = printing
  refine turned_ite (fun _ => turned_refuse c _ _ (hpromoted printing)) fun _ => ?_
  refine turned_ite (fun _ => turned_refuse c _ _ (hreported printing _ fun e he => ?_))
    fun _ => ?_
  · rw [List.mem_singleton.mp he]
    rfl
  · cases hselected : asked.selected with
    | none => exact turned_refuse c _ _ (hpromoted printing)
    | some printer =>
        have hprinter := hproceed printing printer hselected
        simp only
        cases (asked.request.value "document-format").map
            fun format => toAsciiLower format.toList with
        | none =>
            exact turned_ite (fun _ => turned_refuse c _ _ (hpromoted printing))
              fun _ => hprinter
        | some format =>
            exact turned_ite (fun _ => turned_refuse c _ _ (hpromoted printing))
              fun _ => hprinter

/-- Where `create` returns a job, its id was allocated in the room made for it. -/
lemma allocateId_of_create (hs : Bounded s) {now : ℕ} {host : Chars} {printer : PrinterName}
    {name : Option String} {settings : PrintSettings} {lease : ℕ} {room s' : JobStore}
    {job : JobEntry} (hroom : (s.expireLocked now).makeRoom = some room)
    (h : s.create now host printer name settings lease = (.ok job, s')) :
    room.allocateId = (.ok job.id, { room with nextId := s'.nextId }) := by
  obtain ⟨-, hbounded, hsize⟩ := JobStore.makeRoom_eq_some (hs.expireLocked now) hroom
  obtain ⟨id, next, halloc, -⟩ := JobStore.allocateId_eq hbounded hsize
  unfold JobStore.create at h
  simp only [hroom, halloc] at h
  obtain ⟨hjob, rfl⟩ := Prod.mk.inj h
  obtain rfl := Except.ok.inj hjob
  exact halloc

lemma turned_createJob (hs : Bounded s) (c : EndpointContext) (asked : Asked) :
    Turned s call (answerCreateJob sha256 s c call.lease asked) := by
  unfold answerCreateJob
  simp only
  cases hselected : asked.selected with
  | none => exact turned_refuse_nil c _ _
  | some printer =>
      refine turned_ite (fun _ => turned_refuse_nil c _ _) fun _ => ?_
      refine turned_ite (fun _ => turned_refuse_nil c _ _) fun _ => ?_
      refine turned_ite (fun _ => turned_report c _ _ _ _) fun _ => ?_
      · cases jobSettings asked.request with
        | error status => exact turned_report c _ _ _ _
        | ok settings =>
            refine turned_ite (fun _ => turned_refuse c _ _ fun e he => ?_) fun _ => ?_
            · rw [List.mem_singleton.mp he]
              rfl
            · rcases create_cases hs c.now asked.host printer (asked.request.value "job-name")
                settings call.lease with
                ⟨-, h⟩ | ⟨room, id, next, hroom, hfree, hid, hnext, h⟩
              · rw [h]
                exact .looked c.now [.promoted] _
                  fun e he => by rw [List.mem_singleton.mp he]; rfl
              · rw [h]
                exact .created c.now asked printer settings _ room id next _ hselected
                  hroom (allocateId_of_create hs hroom h) hfree hid hnext

lemma turned_sendDocument {r : Request} (hparse : Request.parse call.bytes = .ok r)
    (c : EndpointContext) {asked : Asked} (hasked : asked.request = r) :
    Turned s call (answerSendDocument sha256 s c call.bytes asked) := by
  unfold answerSendDocument
  simp only
  cases hselected : asked.selected with
  | none => exact turned_refuse_nil c _ _
  | some printer =>
      simp only
      cases jobIdOf asked.request with
      | none => exact turned_refuse_nil c _ _
      | some jobId =>
          refine turned_ite (fun _ => turned_refuse_nil c _ _) fun _ => ?_
          · cases asked.request.boolean "last-document" with
            | none => exact turned_refuse_nil c _ _
            | some lastDocument =>
                refine turned_ite (fun _ => turned_refuse_nil c _ _) fun _ => ?_
                refine turned_ite (fun _ => turned_report c _ _ _ _) fun _ => ?_
                · rcases appendDocument_cases s c.now jobId printer asked.request.document
                    lastDocument with ⟨status, h⟩ | ⟨job, hpending, hfits, h⟩
                  · rw [h]
                    exact turned_looked c.now _
                  · rw [h]
                    cases lastDocument with
                    | false => exact .appended c.now printer jobId job _ _ hpending hfits
                    | true =>
                        -- the bytes before the document are as many as it starts after
                        have hstart : (call.bytes.take asked.request.documentStart).length
                            = asked.request.documentStart := by
                          rw [List.length_take, min_eq_left]
                          exact hasked ▸ documentStart_le hparse
                        refine .sent c.now asked printer jobId job _ _ _ _ hselected hpending
                          hfits ?_ rfl
                        exact List.drop_left' hstart

lemma turned_getJobAttributes (c : EndpointContext) (asked : Asked) :
    Turned s call (answerGetJobAttributes sha256 s c asked) := by
  unfold answerGetJobAttributes
  simp only
  cases jobIdOf asked.request with
  | none => exact turned_refuse_nil c _ _
  | some jobId =>
      obtain ⟨answer, h⟩ := exists_get s c.now jobId
      simp only [h]
      cases answer with
      | error status => exact turned_looked c.now _
      | ok job =>
          simp only
          cases asked.selected with
          | none => exact turned_looked c.now _
          | some printer =>
              exact turned_ite (fun _ => turned_looked c.now _) fun _ => turned_looked c.now _

lemma turned_getJobs (c : EndpointContext) (asked : Asked) :
    Turned s call (answerGetJobs sha256 s c asked) := by
  unfold answerGetJobs
  simp only
  cases asked.selected with
  | none => exact turned_refuse_nil c _ _
  | some printer =>
      unfold JobStore.list
      simp only
      cases JobStore.whichStates
          (((asked.request.value "which-jobs").getD "not-completed").toList) with
      | none => exact turned_refuse_nil c _ _
      | some selects => exact turned_looked c.now _

lemma turned_cancelJob (c : EndpointContext) (asked : Asked) :
    Turned s call (answerCancelJob sha256 s c asked) := by
  unfold answerCancelJob
  simp only
  cases asked.selected with
  | none => exact turned_refuse_nil c _ _
  | some printer =>
      simp only
      cases jobIdOf asked.request with
      | none => exact turned_refuse_nil c _ _
      | some jobId =>
          simp only
          rcases cancel_cases s c.now jobId printer with ⟨status, h⟩ | ⟨job, hpending, h⟩
          · rw [h]
            exact turned_looked c.now _
          · rw [h]
            exact .cancelled c.now printer jobId job _ hpending

lemma exists_answerWithJobStatus (c : EndpointContext) (host : Chars) (r : Request)
    (acceptingJobs : Bool) :
    ∃ answer, answerWithJobStatus sha256 c host r acceptingJobs = .answered answer := by
  unfold answerWithJobStatus
  dsimp only
  split_ifs
  · exact ⟨_, rfl⟩
  · split <;> exact ⟨_, rfl⟩
  · exact ⟨_, rfl⟩

lemma turned_answerJob (hs : Bounded s) (c : EndpointContext) :
    Turned s call (answerJob X sha256 s c call) := by
  unfold answerJob
  cases hparse : Request.parse call.bytes with
  | error e => exact turned_refuse_nil c _ _
  | ok r =>
      refine turned_ite (fun _ => turned_refuse_nil c _ _) fun _ => ?_
      refine turned_ite (fun _ => ?_) fun _ => ?_
      · refine turned_ite (fun _ => turned_refuse_nil c _ _) fun _ => ?_
        refine turned_ite (fun hcreate => ?_) fun _ => ?_
        · exact turned_createJob hs c _
        refine turned_ite (fun _ => turned_sendDocument hparse c rfl) fun _ => ?_
        refine turned_ite (fun _ => turned_getJobAttributes c _) fun _ => ?_
        exact turned_ite (fun _ => turned_getJobs c _) fun _ => turned_cancelJob c _
      · refine turned_ite (fun _ => ?_) fun _ => ?_
        · obtain ⟨answer, h⟩ : ∃ answer, answerWithJobStatus sha256 c call.host r
              (c.channel.isConfigured && c.available) = .answered answer :=
            exists_answerWithJobStatus c call.host r _
          rw [h]
          exact .quiet [] answer fun _ he => absurd he List.not_mem_nil
        · exact turned_ite (fun _ => turned_refuse_nil c _ _) fun _ => turned_printJob c _ _

/-- **Every section is of one of the kinds of `Turned`.** -/
theorem turned_of_resume (hs : Bounded s) {x : Input} {turn : Turn}
    (h : resume X sha256 s call x = some turn) : Turned s call turn := by
  cases x with
  | answer c =>
      simp only [resume] at h
      split at h
      · rw [← Option.some.inj h]
        exact turned_answerJob hs c
      · cases h
  | look now upTime =>
      simp only [resume] at h
      split at h
      · rw [← Option.some.inj h, lookStored]
        obtain ⟨answer, hget⟩ := exists_get s now ‹_›
        simp only [hget]
        cases answer <;> exact turned_looked now _
      · cases h
  | submitted result upTime =>
      simp only [resume] at h
      split at h
      · rename_i header printer hphase
        rw [← Option.some.inj h]
        cases result with
        | ok jobId => exact .acknowledged header printer jobId _ hphase
        | error code =>
            exact .quiet _ _ fun e he => by rw [List.mem_singleton.mp he]; rfl
      · rename_i header jobId submission hphase
        rw [← Option.some.inj h]
        cases result with
        | ok _ =>
            exact .finished header jobId submission .completed [] _ hphase
              fun _ he => absurd he List.not_mem_nil
        | error code =>
            exact .finished header jobId submission .aborted [.reported _ _] _ hphase
              fun e he => by rw [List.mem_singleton.mp he]; rfl
      · cases h

end Inversion

/-! ### The invariant of the store -/

/-- Every section keeps the invariant of the store. -/
lemma Turned.bounded {s : JobStore} {call : Call} {turn : Turn}
    (hs : Bounded s) (h : Turned s call turn) : Bounded turn.store := by
  cases h with
  | quiet | printing | acknowledged => exact hs
  | looked now => exact hs.expireLocked now
  | created now asked printer settings name room id next answer _ hroom _ hfree hid hnext =>
      obtain ⟨-, hbounded, hsize⟩ := JobStore.makeRoom_eq_some (hs.expireLocked now) hroom
      refine ⟨?_, hnext, fun i job hjob => ?_⟩
      · calc (room.jobs.insert id _).size ≤ room.jobs.size + 1 := Std.ExtTreeMap.size_insert_le
          _ ≤ maxTrackedJobs := hsize
      · rw [JobStore.getElem?_put] at hjob
        split_ifs at hjob with heq
        · obtain rfl := heq
          obtain rfl := Option.some.inj hjob
          exact jobOk_new hid now asked.host printer name settings call.lease
        · exact hbounded.job_ok i job hjob
  | appended now printer jobId job document header hpending hfits =>
      have hexpired := hs.expireLocked now
      exact hexpired.replace hpending.tracked
        ((hexpired.job_ok jobId job hpending.tracked).addDocument hpending.state_eq hfits)
  | sent now asked printer jobId job document printJob header submission _ hpending hfits =>
      have hexpired := hs.expireLocked now
      have hok := (hexpired.job_ok jobId job hpending.tracked).addDocument hpending.state_eq hfits
      exact hexpired.replace hpending.tracked (hok.takeDocument hpending.state_eq)
  | cancelled now printer jobId job answer hpending =>
      have hexpired := hs.expireLocked now
      exact hexpired.replace hpending.tracked
        ((hexpired.job_ok jobId job hpending.tracked).close (by decide))
  | finished header jobId submission outcome => exact hs.finish jobId outcome

/-! ### Where a tracked job comes from -/

namespace JobStore

variable {s room : JobStore} {id : ℤ} {job : StoredJob}

lemma getElem?_expireLocked {now : ℕ} :
    (s.expireLocked now).jobs[id]? = some job
      ↔ s.jobs[id]? = some job ∧ job.isAlive now = true := by
  rw [expireLocked, Std.ExtTreeMap.getElem?_filter', Option.filter_eq_some_iff]

/-- Room is made by taking a job out. -/
lemma getElem?_of_makeRoom (hroom : s.makeRoom = some room) (h : room.jobs[id]? = some job) :
    s.jobs[id]? = some job := by
  unfold makeRoom at hroom
  split_ifs at hroom
  · obtain ⟨evicted, -, rfl⟩ := Option.map_eq_some_iff.mp hroom
    rw [Std.ExtTreeMap.getElem?_erase] at h
    split_ifs at h
    exact h
  · exact Option.some.inj hroom ▸ h

/-- `finish` closes a tracked job, and does nothing else. -/
lemma finish_cases (s : JobStore) (id state : ℤ) :
    (s.jobs[id]? = none ∧ (s.finish id state).2 = s)
    ∨ ∃ job, s.jobs[id]? = some job ∧ (s.finish id state).2 = s.put id (job.close state) := by
  unfold finish
  cases hjob : s.jobs[id]? with
  | none => exact .inl ⟨rfl, rfl⟩
  | some job => exact .inr ⟨job, rfl, rfl⟩

/-- A job after an abort is as it was, or closed. -/
lemma getElem?_abortIncomplete (h : s.abortIncomplete.jobs[id]? = some job) :
    ∃ old, s.jobs[id]? = some old ∧ job.printer = old.printer ∧ job.settings = old.settings
      ∧ job = if old.entry.state = 3 ∨ old.entry.state = 5 then old.close 8 else old := by
  rw [abortIncomplete, Std.ExtTreeMap.getElem?_map, Option.map_eq_some_iff] at h
  obtain ⟨old, hold, rfl⟩ := h
  refine ⟨old, hold, ?_, ?_, rfl⟩ <;> split_ifs <;> rfl

end JobStore

/-- A job tracked after a section was tracked before, for the same printer and settings, or the
section has created it. -/
lemma Turned.tracked {s : JobStore} {call : Call} {turn : Turn}
    (h : Turned s call turn) {id : ℤ} {job : StoredJob} (hjob : turn.store.jobs[id]? = some job) :
    (∃ old, s.jobs[id]? = some old ∧ job.printer = old.printer ∧ job.settings = old.settings)
    ∨ ∃ asked, Effect.created asked job.printer job.settings id ∈ turn.effects
      ∧ asked.selected = some job.printer := by
  have hput : ∀ {t : JobStore} {jobId : ℤ} {old new : StoredJob},
      (∀ {i : ℤ} {j : StoredJob}, t.jobs[i]? = some j → s.jobs[i]? = some j) →
      t.jobs[jobId]? = some old → (t.put jobId new).jobs[id]? = some job →
      new.printer = old.printer → new.settings = old.settings →
      ∃ old, s.jobs[id]? = some old ∧ job.printer = old.printer ∧ job.settings = old.settings := by
    intro t jobId old new hsub hold hmem hprinter hsettings
    rw [JobStore.getElem?_put] at hmem
    split_ifs at hmem with heq
    · obtain rfl := heq
      obtain rfl := Option.some.inj hmem
      exact ⟨old, hsub hold, hprinter, hsettings⟩
    · exact ⟨job, hsub hmem, rfl, rfl⟩
  have hexpired : ∀ {now : ℕ} {i : ℤ} {j : StoredJob},
      (s.expireLocked now).jobs[i]? = some j → s.jobs[i]? = some j :=
    fun hj => (JobStore.getElem?_expireLocked.mp hj).1
  cases h with
  | quiet | printing | acknowledged => exact .inl ⟨job, hjob, rfl, rfl⟩
  | looked now => exact .inl ⟨job, hexpired hjob, rfl, rfl⟩
  | created now asked printer settings name room created next answer hselected hroom =>
      rw [JobStore.getElem?_put] at hjob
      split_ifs at hjob with heq
      · obtain rfl := heq
        obtain rfl := Option.some.inj hjob
        exact .inr ⟨asked, by simp, hselected⟩
      · exact .inl ⟨job, hexpired (JobStore.getElem?_of_makeRoom hroom hjob), rfl, rfl⟩
  | appended now printer jobId old document header hpending =>
      exact .inl (hput hexpired hpending.tracked hjob rfl rfl)
  | sent now asked printer jobId old document printJob header submission _ hpending =>
      exact .inl (hput hexpired hpending.tracked hjob rfl rfl)
  | cancelled now printer jobId old answer hpending =>
      exact .inl (hput hexpired hpending.tracked hjob rfl rfl)
  | finished header jobId submission outcome =>
      rcases s.finish_cases jobId outcome.state with ⟨-, hstore⟩ | ⟨old, hold, hstore⟩
      · rw [hstore] at hjob
        exact .inl ⟨job, hjob, rfl, rfl⟩
      · rw [hstore] at hjob
        exact .inl (hput (fun hj => hj) hold hjob rfl rfl)

section World

variable {X : Services} {sha256 : Bytes → Vector UInt8 32} {w v : World} {e : Event}

/-- What a step does to the requests and their server. -/
inductive Served (w : World) : Event → World → Prop where
  | start (call : Call) (hphase : call.phase = .received) :
      Served w (.start call) ⟨w.shared, w.processes ++ [call]⟩
  | turn (i : ℕ) (x : Input) (call : Call) (turn : Turn) (hcall : w.processes[i]? = some call)
      (hlife : call.life = w.shared.life)
      (hturned : Turned w.shared.store call turn) :
      Served w (.move i x) ⟨⟨turn.store, w.shared.log ++ turn.effects, w.shared.life⟩,
        w.processes.set i { call with phase := turn.phase } ++ []⟩
  | outside (x : Outside) :
      Served w (.outside x) ⟨Endpoint.outside w.shared x, w.processes⟩

theorem served_of_step (hs : Bounded w.shared.store) (h : (requests X sha256).step w e = some v) :
    Served w e v := by
  cases (requests X sha256).stepped_of_step h with
  | start call hstarts =>
      refine .start call ?_
      simp only [requests] at hstarts
      split at hstarts
      · assumption
      · cases hstarts
  | move i x call s call' spawned hcall hadvance =>
      simp only [requests] at hadvance
      split_ifs at hadvance with hlife
      obtain ⟨turn, hturn, hresult⟩ := Option.map_eq_some_iff.mp hadvance
      obtain ⟨rfl, rfl, rfl⟩ : _ = s ∧ _ = call' ∧ _ = spawned := by
        simpa only [Prod.mk.injEq] using hresult
      exact .turn i x call turn hcall hlife (turned_of_resume hs hturn)
  | outside x s houtside =>
      obtain rfl : outside w.shared x = s := Option.some.inj houtside
      exact .outside x

lemma step_start {call : Call} (hphase : call.phase = .received) :
    (endpoint X sha256).step w (.start call) = some ⟨w.shared, w.processes ++ [call]⟩ := by
  simp [endpoint, Processes.system, Processes.step, requests, hphase]

lemma step_move {i : ℕ} {call : Call} {x : Input} {turn : Turn}
    (hcall : w.processes[i]? = some call) (hlife : call.life = w.shared.life)
    (hturn : resume X sha256 w.shared.store call x = some turn) :
    (endpoint X sha256).step w (.move i x)
      = some ⟨⟨turn.store, w.shared.log ++ turn.effects, w.shared.life⟩,
          w.processes.set i { call with phase := turn.phase } ++ []⟩ := by
  simp [endpoint, Processes.system, Processes.step, requests, hcall, hlife, hturn]

lemma step_outside (x : Outside) :
    (endpoint X sha256).step w (.outside x) = some ⟨outside w.shared x, w.processes⟩ := rfl

/-- A run goes on with one more request and its first section. -/
lemma run_answer {es : List Event} (h : (endpoint X sha256).run es = some w) {call : Call}
    {c : EndpointContext} {turn : Turn} (hphase : call.phase = .received)
    (hlife : call.life = w.shared.life)
    (hanswer : answerJob X sha256 w.shared.store c call = turn) :
    (endpoint X sha256).run (es ++ [.start call] ++ [.move w.processes.length (.answer c)])
      = some ⟨⟨turn.store, w.shared.log ++ turn.effects, w.shared.life⟩,
          w.processes ++ [{ call with phase := turn.phase }]⟩ := by
  have hstart := (endpoint X sha256).run_concat.mpr ⟨w, h, step_start hphase⟩
  refine (endpoint X sha256).run_concat.mpr ⟨_, hstart, ?_⟩
  have hcall : (w.processes ++ [call])[w.processes.length]? = some call := by simp
  have hturn : resume X sha256 w.shared.store call (.answer c) = some turn := by
    rw [← hanswer]
    simp only [resume, hphase]
  have hset : (w.processes ++ [call]).set w.processes.length { call with phase := turn.phase } ++ []
      = w.processes ++ [{ call with phase := turn.phase }] := by simp
  rw [← hset]
  exact step_move hcall hlife hturn

lemma Served.bounded (hs : Bounded w.shared.store) (h : Served w e v) :
    Bounded v.shared.store := by
  cases h with
  | start => exact hs
  | turn i x call turn _ _ hturned => exact hturned.bounded hs
  | outside x =>
      cases x with
      | expire now => exact hs.expireLocked now
      | stop => exact hs.abortIncomplete

/-- The induction rule for requests: what every kind of step keeps holds in every world
reached. -/
theorem endpoint_invariant {I : World → Prop} (hinit : I (endpoint X sha256).init)
    (hstep : ∀ w e v, Bounded w.shared.store → I w → Served w e v → I v)
    {es : List Event} (h : (endpoint X sha256).run es = some w) : I w := by
  refine ((endpoint X sha256).invariant (I := fun w => Bounded w.shared.store ∧ I w)
    ⟨Bounded.new, hinit⟩ (fun w e v hw hv => ?_) h).2
  have hserved := served_of_step hw.1 hv
  exact ⟨hserved.bounded hw.1, hstep w e v hw.1 hw.2 hserved⟩

end World

end ShaPrint.Endpoint
