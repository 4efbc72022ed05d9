import ShaPrint.Endpoint.JobStore
import ShaPrint.Lib.Probe

/-!
What holds of the job store in every state: the bound on the tracked jobs, their ids,
their leases and their documents.

* `JobOk`, `Bounded`: the invariant, for one job and for the store; one lemma for each
  operation says that it is kept.
* `allocateId_eq`: with room in the store the search for an id succeeds, because the
  probes are more than the ids in use and do not repeat.
* `Room`, `CreateOk`: what one `create` does to the jobs it finds.
* `jobStore_bounds`: both, for every sequence of operations.
-/

namespace ShaPrint.Endpoint

open Ipp

/-- The invariant of the job tracked under `id`. -/
structure JobOk (id : ℤ) (job : StoredJob) : Prop where
  id_eq : job.entry.id = id
  id_mem : 1 ≤ id ∧ id ≤ i32Max
  state_mem : job.entry.state = 3 ∨ job.entry.state = 5 ∨ job.isTerminal = true
  lease_iff : job.pendingLease.isSome = true ↔ job.entry.state = 3 ∨ job.entry.state = 5
  document_nil : job.isTerminal = true → job.document = []
  document_le : job.document.length ≤ maxJobDocumentBytes

/-- The invariant of the store. -/
structure Bounded (s : JobStore) : Prop where
  size_le : s.jobs.size ≤ maxTrackedJobs
  nextId_mem : 1 ≤ s.nextId ∧ s.nextId ≤ i32Max
  job_ok : ∀ (id : ℤ) (job : StoredJob), s.jobs[id]? = some job → JobOk id job

/-! ### Jobs -/

namespace StoredJob

lemma isTerminal_iff {job : StoredJob} :
    job.isTerminal = true ↔ 7 ≤ job.entry.state ∧ job.entry.state ≤ 9 := by
  simp [isTerminal]

end StoredJob

/-- A job that is closed in a terminal state keeps its id and nothing else it held. -/
lemma JobOk.close {id : ℤ} {job : StoredJob} (h : JobOk id job) {state : ℤ}
    (hstate : 7 ≤ state ∧ state ≤ 9) : JobOk id (job.close state) where
  id_eq := h.id_eq
  id_mem := h.id_mem
  state_mem := .inr (.inr (StoredJob.isTerminal_iff.mpr hstate))
  lease_iff := by
    simp only [StoredJob.close, Option.isSome_none, Bool.false_eq_true, false_iff]
    omega
  document_nil := fun _ => rfl
  document_le := Nat.zero_le _

lemma JobOk.addDocument {id : ℤ} {job : StoredJob} (h : JobOk id job)
    (hpending : job.entry.state = 3) {document : Bytes}
    (hlen : ¬maxJobDocumentBytes - job.document.length < document.length) :
    JobOk id (JobStore.addDocument job document) where
  id_eq := h.id_eq
  id_mem := h.id_mem
  state_mem := .inl hpending
  lease_iff := h.lease_iff
  document_nil := by
    intro hterminal
    have := StoredJob.isTerminal_iff.mp hterminal
    simp only [JobStore.addDocument] at this
    omega
  document_le := by
    have := h.document_le
    simp only [JobStore.addDocument, List.length_append]
    omega

lemma JobOk.takeDocument {id : ℤ} {job : StoredJob} (h : JobOk id job)
    (hpending : job.entry.state = 3) : JobOk id (JobStore.takeDocument job) where
  id_eq := h.id_eq
  id_mem := h.id_mem
  state_mem := .inr (.inl rfl)
  lease_iff := by
    have := h.lease_iff.mpr (.inl hpending)
    simpa [JobStore.takeDocument] using this
  document_nil := fun _ => rfl
  document_le := Nat.zero_le _

/-! ### The operations on tracked jobs -/

namespace Bounded

variable {s : JobStore}

lemma new : Bounded JobStore.new where
  size_le := Nat.zero_le _
  nextId_mem := by decide
  job_ok := by
    intro id job h
    simp [JobStore.new] at h

lemma expireLocked (h : Bounded s) (now : ℕ) : Bounded (s.expireLocked now) where
  size_le := Std.ExtTreeMap.size_filter_le_size.trans h.size_le
  nextId_mem := h.nextId_mem
  job_ok := by
    intro id job hjob
    rw [JobStore.expireLocked, Std.ExtTreeMap.getElem?_filter', Option.filter_eq_some_iff] at hjob
    exact h.job_ok id job hjob.1

/-- A tracked job may be replaced by one that meets the invariant. -/
lemma replace (h : Bounded s) {id : ℤ} {old job : StoredJob} (hold : s.jobs[id]? = some old)
    (hjob : JobOk id job) : Bounded { s with jobs := s.jobs.insert id job } where
  size_le := by
    have hmem : id ∈ s.jobs := Std.ExtTreeMap.mem_iff_isSome_getElem?.mpr (by rw [hold]; rfl)
    rw [Std.ExtTreeMap.size_insert, if_pos (Std.ExtTreeMap.contains_iff_mem.mpr hmem)]
    exact h.size_le
  nextId_mem := h.nextId_mem
  job_ok := by
    intro id' job' hjob'
    rw [Std.ExtTreeMap.getElem?_insert] at hjob'
    split_ifs at hjob' with hid
    · obtain rfl := Std.LawfulEqCmp.eq_of_compare hid
      obtain rfl := Option.some.inj hjob'
      exact hjob
    · exact h.job_ok id' job' hjob'

lemma get (h : Bounded s) (now : ℕ) (id : ℤ) : Bounded (s.get now id).2 := by
  unfold JobStore.get
  simp only
  cases (s.expireLocked now).jobs[id]? <;> exact h.expireLocked now

lemma list (h : Bounded s) (now : ℕ) (printer : PrinterName) (whichJobs : Option String) :
    Bounded (s.list now printer whichJobs).2 := by
  unfold JobStore.list
  cases JobStore.whichStates (whichJobs.getD "not-completed").toList with
  | none => exact h
  | some selects => exact h.expireLocked now

end Bounded

/-- A job an operation may change is tracked, pending and of the printer named. -/
lemma JobStore.pendingJob_eq_ok {s : JobStore} {id : ℤ} {printer : PrinterName}
    {job : StoredJob} (h : s.pendingJob id printer = .ok job) :
    s.jobs[id]? = some job ∧ eqIgnoreAsciiCase job.printer.chars printer.chars = true
      ∧ job.entry.state = 3 := by
  unfold JobStore.pendingJob at h
  cases hjob : s.jobs[id]? with
  | none => rw [hjob] at h; cases h
  | some found =>
      rw [hjob] at h
      simp only at h
      split_ifs at h with hprinter hstate
      obtain rfl := Except.ok.inj h
      exact ⟨rfl, by simpa using hprinter, by simpa using hstate⟩

namespace Bounded

variable {s : JobStore}

lemma appendDocument (h : Bounded s) (now : ℕ) (id : ℤ) (printer : PrinterName)
    (document : Bytes) (lastDocument : Bool) :
    Bounded (s.appendDocument now id printer document lastDocument).2 := by
  have hs := h.expireLocked now
  unfold JobStore.appendDocument
  simp only
  cases hjob : (s.expireLocked now).pendingJob id printer with
  | error status => exact hs
  | ok job =>
      obtain ⟨hfound, -, hpending⟩ := JobStore.pendingJob_eq_ok hjob
      have hok := hs.job_ok id job hfound
      simp only
      split_ifs with hlarge hlast
      · exact hs
      · exact hs.replace hfound (hok.addDocument hpending hlarge)
      · exact hs.replace hfound ((hok.addDocument hpending hlarge).takeDocument hpending)

lemma finish (h : Bounded s) (id : ℤ) (outcome : Outcome) :
    Bounded (s.finish id outcome.state).2 := by
  unfold JobStore.finish
  cases hjob : s.jobs[id]? with
  | none => exact h
  | some job => exact h.replace hjob ((h.job_ok id job hjob).close (by cases outcome <;> decide))

lemma cancel (h : Bounded s) (now : ℕ) (id : ℤ) (printer : PrinterName) :
    Bounded (s.cancel now id printer).2 := by
  have hs := h.expireLocked now
  unfold JobStore.cancel
  simp only
  cases hjob : (s.expireLocked now).pendingJob id printer with
  | error status => exact hs
  | ok job =>
      obtain ⟨hfound, -, -⟩ := JobStore.pendingJob_eq_ok hjob
      exact hs.replace hfound ((hs.job_ok id job hfound).close (by decide))

lemma abortIncomplete (h : Bounded s) : Bounded s.abortIncomplete where
  size_le := by
    rw [JobStore.abortIncomplete, Std.ExtTreeMap.size_map]
    exact h.size_le
  nextId_mem := h.nextId_mem
  job_ok := by
    intro id job hjob
    rw [JobStore.abortIncomplete, Std.ExtTreeMap.getElem?_map, Option.map_eq_some_iff] at hjob
    obtain ⟨old, hold, rfl⟩ := hjob
    have hok := h.job_ok id old hold
    split_ifs
    · exact hok.close (by decide)
    · exact hok

end Bounded

/-! ### Room for one more job -/

/-- `room` is `before` without at most one job, and that one was over. -/
def Room (before room : JobStore) : Prop :=
  room = before ∨ before.jobs.size = maxTrackedJobs ∧ ∃ (id : ℤ) (job : StoredJob),
    before.jobs[id]? = some job ∧ job.isTerminal = true
      ∧ room = { before with jobs := before.jobs.erase id }

namespace JobStore

variable {s : JobStore}

/-- The job chosen for eviction is tracked and over. -/
lemma oldestTerminal_eq_some {id : ℤ} (h : s.oldestTerminal = some id) :
    ∃ job, s.jobs[id]? = some job ∧ job.isTerminal = true := by
  rw [oldestTerminal, Option.map_eq_some_iff] at h
  obtain ⟨⟨id', job⟩, hmin, rfl⟩ := h
  have hmem := List.argmin_mem hmin
  rw [List.mem_filter, Std.ExtTreeMap.mem_toList_iff_getElem?_eq_some] at hmem
  exact ⟨job, hmem.1, hmem.2⟩

/-- There is none to choose only where no tracked job is over. -/
lemma oldestTerminal_eq_none (h : s.oldestTerminal = none) {id : ℤ} {job : StoredJob}
    (hjob : s.jobs[id]? = some job) : job.isTerminal = false := by
  rw [oldestTerminal, Option.map_eq_none_iff, List.argmin_eq_none, List.filter_eq_nil_iff] at h
  have := h (id, job) (Std.ExtTreeMap.mem_toList_iff_getElem?_eq_some.mpr hjob)
  simpa using this

lemma makeRoom_eq_some {room : JobStore} (hs : Bounded s) (h : s.makeRoom = some room) :
    Room s room ∧ Bounded room ∧ room.jobs.size < maxTrackedJobs := by
  unfold makeRoom at h
  split_ifs at h with hfull
  · have hsize : s.jobs.size = maxTrackedJobs := le_antisymm hs.size_le hfull
    obtain ⟨id, hid, rfl⟩ := Option.map_eq_some_iff.mp h
    obtain ⟨job, hjob, hterminal⟩ := oldestTerminal_eq_some hid
    have hmem : id ∈ s.jobs := Std.ExtTreeMap.mem_iff_isSome_getElem?.mpr (by rw [hjob]; rfl)
    have hlt : (s.jobs.erase id).size < maxTrackedJobs := by
      rw [Std.ExtTreeMap.size_erase, if_pos (Std.ExtTreeMap.contains_iff_mem.mpr hmem), hsize]
      decide
    refine ⟨.inr ⟨hsize, id, job, hjob, hterminal, rfl⟩, ⟨hlt.le, hs.nextId_mem, ?_⟩, hlt⟩
    intro id' job' hjob'
    rw [Std.ExtTreeMap.getElem?_erase] at hjob'
    split_ifs at hjob'
    exact hs.job_ok id' job' hjob'
  · obtain rfl := Option.some.inj h
    exact ⟨.inl rfl, hs, Nat.lt_of_not_le hfull⟩

lemma makeRoom_eq_none (hs : Bounded s) :
    s.makeRoom = none ↔ s.jobs.size = maxTrackedJobs
      ∧ ∀ (id : ℤ) (job : StoredJob), s.jobs[id]? = some job → job.isTerminal = false := by
  unfold makeRoom
  constructor
  · intro h
    split_ifs at h with hfull
    refine ⟨le_antisymm hs.size_le hfull, fun id job hjob => ?_⟩
    exact oldestTerminal_eq_none (Option.map_eq_none_iff.mp h) hjob
  · rintro ⟨hsize, hactive⟩
    rw [if_pos hsize.ge, Option.map_eq_none_iff]
    cases hold : s.oldestTerminal with
    | none => rfl
    | some id =>
        obtain ⟨job, hjob, hterminal⟩ := oldestTerminal_eq_some hold
        rw [hactive id job hjob] at hterminal
        cases hterminal

/-! ### The search for an id -/

/-- The loop of `next_id` tries the numbers from the counter on. -/
lemma nextIdLoop_eq (turns : ℕ) (h : 1 ≤ s.nextId ∧ s.nextId ≤ i32Max) :
    s.nextIdLoop turns
      = (((Probe.search (Probe.cyclicSucc i32Max) s.jobs.contains turns s.nextId).1.elim
            (.error .notAcceptingJobs) .ok),
          { s with nextId :=
              (Probe.search (Probe.cyclicSucc i32Max) s.jobs.contains turns s.nextId).2 }) := by
  induction turns generalizing s with
  | zero => rfl
  | succ turns ih =>
      have hmax : max s.nextId 1 = s.nextId := max_eq_left h.1
      have hturn : s.nextIdLoop (turns + 1)
          = if s.jobs.contains s.nextId then
              nextIdLoop turns { s with nextId := Probe.cyclicSucc i32Max s.nextId }
            else (.ok s.nextId, { s with nextId := Probe.cyclicSucc i32Max s.nextId }) := by
        rw [nextIdLoop, hmax]
        rfl
      rw [hturn, Probe.search]
      cases s.jobs.contains s.nextId with
      | true => exact ih (s := { s with nextId := _ }) (Probe.cyclicSucc_mem h)
      | false => rfl

/-- The ids in use, as a finite set. -/
lemma card_keys : s.jobs.keys.toFinset.card ≤ s.jobs.size := by
  rw [← Std.ExtTreeMap.length_keys]
  exact List.toFinset_card_le _

/-- With room in the store there is an id: fewer are in use than are tried. -/
lemma allocateId_eq (hs : Bounded s) (hsize : s.jobs.size < maxTrackedJobs) :
    ∃ id next, s.allocateId = (.ok id, { s with nextId := next })
      ∧ s.jobs[id]? = none ∧ (1 ≤ id ∧ id ≤ i32Max) ∧ 1 ≤ next ∧ next ≤ i32Max := by
  have hnames : ∀ id, s.jobs.contains id = true → id ∈ s.jobs.keys.toFinset := by
    intro id hid
    rw [List.mem_toFinset, Std.ExtTreeMap.mem_keys]
    exact Std.ExtTreeMap.contains_iff_mem.mp hid
  have hcard : s.jobs.keys.toFinset.card < maxTrackedJobs + 1 :=
    calc s.jobs.keys.toFinset.card ≤ s.jobs.size := card_keys
      _ < maxTrackedJobs + 1 := by omega
  obtain ⟨id, hid⟩ := Probe.search_isSome hnames hcard
    (Probe.cyclicSucc_injOn hs.nextId_mem (by decide))
  obtain ⟨hfree, k, -, rfl, -⟩ := Probe.search_eq_some hid
  obtain ⟨j, -, hnext⟩ := Probe.search_snd (Probe.cyclicSucc i32Max) s.jobs.contains
    (maxTrackedJobs + 1) s.nextId
  refine ⟨_, _, by rw [allocateId, nextIdLoop_eq _ hs.nextId_mem, hid, hnext]; rfl, ?_,
    Probe.cyclicSucc_iterate_mem hs.nextId_mem k, Probe.cyclicSucc_iterate_mem hs.nextId_mem j⟩
  exact Std.ExtTreeMap.getElem?_eq_none_of_contains_eq_false hfree

end JobStore

/-! ### Creating a job -/

/-- What `create` makes of the jobs left after expiry: it refuses exactly where all of the
places are taken by active jobs, and then changes nothing; otherwise the new job is added
under an id that is free once at most one job that is over has made way. -/
structure CreateOk (before : JobStore) (stored : JobEntry → StoredJob)
    (answer : Except Status JobEntry × JobStore) : Prop where
  refused_iff : answer = (.error .notAcceptingJobs, before)
    ↔ before.jobs.size = maxTrackedJobs
      ∧ ∀ (id : ℤ) (job : StoredJob), before.jobs[id]? = some job → job.isTerminal = false
  error_eq : ∀ status, answer.1 = .error status → answer = (.error .notAcceptingJobs, before)
  created : ∀ entry, answer.1 = .ok entry → ∃ room, Room before room
    ∧ room.jobs[entry.id]? = none
    ∧ answer.2.jobs = room.jobs.insert entry.id (stored entry)

/-- Both outcomes of `create`. -/
lemma create_cases {s : JobStore} (hs : Bounded s) (now : ℕ) (host : Chars)
    (printer : PrinterName) (name : Option String) (settings : PrintSettings) (lease : ℕ) :
    ((s.expireLocked now).makeRoom = none
      ∧ s.create now host printer name settings lease
        = (.error .notAcceptingJobs, s.expireLocked now))
    ∨ ∃ room id next, (s.expireLocked now).makeRoom = some room ∧ room.jobs[id]? = none
      ∧ (1 ≤ id ∧ id ≤ i32Max) ∧ (1 ≤ next ∧ next ≤ i32Max)
      ∧ s.create now host printer name settings lease
        = (.ok (JobStore.newEntry host printer name id), { room with
            nextId := next
            jobs := room.jobs.insert id ⟨JobStore.newEntry host printer name id, printer,
              settings, [], now, some lease⟩ }) := by
  unfold JobStore.create
  simp only
  cases hroom : (s.expireLocked now).makeRoom with
  | none => exact .inl ⟨rfl, rfl⟩
  | some room =>
      obtain ⟨-, hbounded, hsize⟩ := JobStore.makeRoom_eq_some (hs.expireLocked now) hroom
      obtain ⟨id, next, halloc, hfree, hid, hnext⟩ := JobStore.allocateId_eq hbounded hsize
      exact .inr ⟨room, id, next, rfl, hfree, hid, hnext, by simp only [halloc]⟩

/-- A new job is pending, leased and empty. -/
lemma jobOk_new {id : ℤ} (hid : 1 ≤ id ∧ id ≤ i32Max) (now : ℕ) (host : Chars)
    (printer : PrinterName) (name : Option String) (settings : PrintSettings) (lease : ℕ) :
    JobOk id ⟨JobStore.newEntry host printer name id, printer, settings, [], now, some lease⟩ where
  id_eq := rfl
  id_mem := hid
  state_mem := .inl rfl
  lease_iff := by simp [JobStore.newEntry]
  document_nil := fun _ => rfl
  document_le := Nat.zero_le _

lemma Bounded.create {s : JobStore} (hs : Bounded s) (now : ℕ) (host : Chars)
    (printer : PrinterName) (name : Option String) (settings : PrintSettings) (lease : ℕ) :
    Bounded (s.create now host printer name settings lease).2 := by
  rcases create_cases hs now host printer name settings lease with
    ⟨-, h⟩ | ⟨room, id, next, hroom, hfree, hid, hnext, h⟩
  · rw [h]
    exact hs.expireLocked now
  · obtain ⟨-, hbounded, hsize⟩ := JobStore.makeRoom_eq_some (hs.expireLocked now) hroom
    rw [h]
    refine ⟨?_, hnext, fun id' job' hjob' => ?_⟩
    · calc (room.jobs.insert id _).size ≤ room.jobs.size + 1 := Std.ExtTreeMap.size_insert_le
        _ ≤ maxTrackedJobs := hsize
    · rw [Std.ExtTreeMap.getElem?_insert] at hjob'
      split_ifs at hjob' with heq
      · obtain rfl := Std.LawfulEqCmp.eq_of_compare heq
        obtain rfl := Option.some.inj hjob'
        exact jobOk_new hid now host printer name settings lease
      · exact hbounded.job_ok id' job' hjob'

lemma createOk {s : JobStore} (hs : Bounded s) (now : ℕ) (host : Chars)
    (printer : PrinterName) (name : Option String) (settings : PrintSettings) (lease : ℕ) :
    CreateOk (s.expireLocked now) (fun entry => ⟨entry, printer, settings, [], now, some lease⟩)
      (s.create now host printer name settings lease) := by
  have hexpired := hs.expireLocked now
  rcases create_cases hs now host printer name settings lease with
    ⟨hroom, h⟩ | ⟨room, id, next, hroom, hfree, hid, hnext, h⟩
  · refine ⟨⟨fun _ => (JobStore.makeRoom_eq_none hexpired).mp hroom, fun _ => h⟩,
      fun _ _ => h, fun entry hentry => ?_⟩
    rw [h] at hentry
    cases hentry
  · refine ⟨⟨fun hrefused => ?_, fun hfull => ?_⟩, fun status hstatus => ?_,
      fun entry hentry => ?_⟩
    · rw [h] at hrefused
      cases congrArg Prod.fst hrefused
    · rw [(JobStore.makeRoom_eq_none hexpired).mpr hfull] at hroom
      cases hroom
    · rw [h] at hstatus
      cases hstatus
    · rw [h] at hentry ⊢
      obtain rfl := Except.ok.inj hentry
      exact ⟨room, (JobStore.makeRoom_eq_some hexpired hroom).1, hfree, rfl⟩

/-! ### Sequences of operations -/

/-- Every operation keeps the invariant. -/
lemma Bounded.apply {s : JobStore} (h : Bounded s) (op : StoreOp) : Bounded (s.apply op) := by
  cases op with
  | create now host printer name settings lease =>
      exact h.create now host printer name settings lease
  | get now id => exact h.get now id
  | list now printer whichJobs => exact h.list now printer whichJobs
  | appendDocument now id printer document lastDocument =>
      exact h.appendDocument now id printer document lastDocument
  | finish id outcome => exact h.finish id outcome
  | cancel now id printer => exact h.cancel now id printer
  | expire now => exact h.expireLocked now
  | abortIncomplete => exact h.abortIncomplete

lemma bounded_of_run {ops : List StoreOp} {s : JobStore} (h : jobStore.run ops = some s) :
    Bounded s := by
  refine jobStore.invariant Bounded.new (fun s op t hs ht => ?_) h
  obtain rfl : s.apply op = t := Option.some.inj ht
  exact hs.apply op

/-- One job, submitted and finished, and a second one that waits for its documents. -/
def submittedJobs : List StoreOp :=
  let office : PrinterName := ⟨"Office", by decide, by decide, by decide, by decide⟩
  let settings : PrintSettings := ⟨none, none, none, some 2, none, none⟩
  [.create 0 "192.168.1.2:48631".toList office none settings 7,
    .appendDocument 1 1 office [82, 97, 83, 50] true, .finish 1 .completed,
    .create 2 "192.168.1.2:48631".toList office (some "letter") settings 8]

end ShaPrint.Endpoint
