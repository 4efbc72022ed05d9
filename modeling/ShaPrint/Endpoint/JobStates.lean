import ShaPrint.Endpoint.Handover

/-!
The ids and the states of the jobs of the store, in every interleaving of requests.

* `createdIds`, `moves`: the ids in the order of creation, and the moves between states.
* `Turned.numbered`, `Turned.moved`, `Turned.sends`: what one section does to the counter, to
  the states, and when its request comes to await the submitter.
* `Orderly`: a request that awaits the submitter for a job is alone with it, and the job is
  processing.
* `states_move_forward`: as long as the counter has not come round, the ids are `1, 2, …` and
  no job leaves a state that is over.
-/

namespace ShaPrint.Endpoint

open Ipp Channel Processes

/-- The id of the job that is created. -/
def Effect.createdId : Effect → Option ℤ
  | .created _ _ _ jobId => some jobId
  | _ => none

/-- The ids of the jobs that were created, oldest first. -/
def createdIds (log : List Effect) : List ℤ := log.filterMap Effect.createdId

/-- Pending jobs are taken, cancelled or aborted; those that are processing are aborted or
completed. -/
def moves : List (ℤ × ℤ) := [(3, 5), (3, 7), (3, 8), (5, 8), (5, 9)]

/-- A job that both stores track is in the same state, or has moved. -/
def StatesMove (s t : JobStore) : Prop :=
  ∀ (id : ℤ) (old new : StoredJob), s.jobs[id]? = some old → t.jobs[id]? = some new →
    new.entry.state = old.entry.state ∨ (old.entry.state, new.entry.state) ∈ moves

lemma createdIds_append (log es : List Effect) :
    createdIds (log ++ es) = createdIds log ++ createdIds es :=
  List.filterMap_append

lemma createdIds_of_quiet {es : List Effect} (h : ∀ e ∈ es, e.isQuiet = true) :
    createdIds es = [] := by
  refine List.filterMap_eq_nil_iff.mpr fun e he => ?_
  have hquiet := h e he
  cases e <;> first | rfl | cases hquiet

/-! ### One section -/

section Section

variable {s : JobStore} {call : Call} {turn : Turn}

/-- Every tracked job was given its id by the counter. -/
def Counted (s : JobStore) : Prop :=
  ∀ (id : ℤ) (job : StoredJob), s.jobs[id]? = some job → id < s.nextId

/-- The counter itself is free, and the search for an id takes it at once. -/
lemma allocateId_of_counted (hs : Bounded s) (hcounted : Counted s) (hlt : s.nextId < i32Max) :
    s.allocateId = (.ok s.nextId, { s with nextId := s.nextId + 1 }) := by
  have hfree : s.jobs.contains s.nextId = false := by
    rw [Std.ExtTreeMap.contains_eq_isSome_getElem?]
    cases hjob : s.jobs[s.nextId]? with
    | none => rfl
    | some job => exact absurd (hcounted s.nextId job hjob) (lt_irrefl _)
  have hmax : max s.nextId 1 = s.nextId := max_eq_left hs.nextId_mem.1
  rw [JobStore.allocateId, JobStore.nextIdLoop, hmax]
  simp only [hfree, Bool.false_eq_true, if_false, if_neg hlt.ne]

lemma JobStore.nextId_of_makeRoom {room : JobStore} (hroom : s.makeRoom = some room) :
    room.nextId = s.nextId := by
  unfold JobStore.makeRoom at hroom
  split_ifs at hroom
  · obtain ⟨evicted, -, rfl⟩ := Option.map_eq_some_iff.mp hroom
    rfl
  · rw [← Option.some.inj hroom]

/-- A section gives the counter to a new job, or leaves it as it is. -/
lemma Turned.numbered (hs : Bounded s) (hcounted : Counted s) (hlt : s.nextId < i32Max)
    (h : Turned s call turn) :
    (createdIds turn.effects = [] ∧ turn.store.nextId = s.nextId)
    ∨ (createdIds turn.effects = [s.nextId] ∧ turn.store.nextId = s.nextId + 1) := by
  cases h with
  | quiet effects answer hquiet => exact .inl ⟨createdIds_of_quiet hquiet, rfl⟩
  | printing | acknowledged | appended | sent | cancelled => exact .inl ⟨rfl, rfl⟩
  | looked now effects answer hquiet =>
      refine .inl ⟨?_, rfl⟩
      rw [createdIds_append, createdIds_of_quiet hquiet]
      rfl
  | created now asked printer settings name room id next answer _ hroom halloc =>
      have hnext : room.nextId = s.nextId :=
        JobStore.nextId_of_makeRoom (s := s.expireLocked now) hroom
      obtain ⟨-, hbounded, -⟩ := JobStore.makeRoom_eq_some (hs.expireLocked now) hroom
      have hroomCounted : Counted room := fun i job hjob =>
        calc i < s.nextId := hcounted i job
              (JobStore.getElem?_expireLocked.mp (JobStore.getElem?_of_makeRoom hroom hjob)).1
          _ = room.nextId := hnext.symm
      have hcounter := allocateId_of_counted hbounded hroomCounted (hnext ▸ hlt)
      obtain ⟨hid, hstore⟩ := Prod.mk.inj (halloc.symm.trans hcounter)
      obtain rfl := Except.ok.inj hid
      obtain rfl : next = room.nextId + 1 := congrArg JobStore.nextId hstore
      refine .inr ⟨?_, ?_⟩
      · rw [← hnext]
        rfl
      · rw [← hnext]
        rfl
  | finished header jobId submission outcome effects answer _ hquiet =>
      refine .inl ⟨?_, ?_⟩
      · rw [createdIds_append, createdIds_of_quiet hquiet]
        rfl
      · rcases s.finish_cases jobId outcome.state with ⟨-, hstore⟩ | ⟨old, -, hstore⟩
        · rw [hstore]
        · rw [hstore]
          rfl

/-- What a section does to the state of a job that it does not create: a pending job moves, or
the submitter has returned with a job to the request that awaits it. -/
lemma Turned.moved (h : Turned s call turn) {id : ℤ} {old new : StoredJob}
    (hcreated : id ∉ createdIds turn.effects) (hold : s.jobs[id]? = some old)
    (hnew : turn.store.jobs[id]? = some new) :
    new.entry.state = old.entry.state
    ∨ (old.entry.state = 3 ∧ (old.entry.state, new.entry.state) ∈ moves)
    ∨ (call.phase.sends = some id ∧ ∃ outcome : Outcome, new.entry.state = outcome.state) := by
  have hkept : ∀ {job : StoredJob}, s.jobs[id]? = some job →
      job.entry.state = old.entry.state := by
    intro job hjob
    rw [Option.some.inj (hjob.symm.trans hold)]
  -- a section that changes one pending job, after the expiry
  have hpending : ∀ {now : ℕ} {jobId : ℤ} {printer : PrinterName} {job : StoredJob}
      (changed : StoredJob), Pending (s.expireLocked now) jobId printer job →
      (changed.entry.state = 3 ∨ (3, changed.entry.state) ∈ moves) →
      ((s.expireLocked now).put jobId changed).jobs[id]? = some new →
      new.entry.state = old.entry.state
        ∨ (old.entry.state = 3 ∧ (old.entry.state, new.entry.state) ∈ moves) := by
    intro now jobId printer job changed hjob hchanged hmem
    rw [JobStore.getElem?_put] at hmem
    split_ifs at hmem with heq
    · obtain rfl := heq
      obtain rfl := Option.some.inj hmem
      have hstate := hkept (JobStore.getElem?_expireLocked.mp hjob.tracked).1
      rw [hjob.state_eq] at hstate
      rcases hchanged with hsame | hmoves
      · exact .inl (hsame.trans hstate)
      · exact .inr ⟨hstate.symm, hstate ▸ hmoves⟩
    · exact .inl (hkept (JobStore.getElem?_expireLocked.mp hmem).1)
  have htaken : ((3 : ℤ), (5 : ℤ)) ∈ moves := by decide
  have hcancelled : ((3 : ℤ), (7 : ℤ)) ∈ moves := by decide
  cases h with
  | quiet | printing | acknowledged => exact .inl (hkept hnew)
  | looked now => exact .inl (hkept (JobStore.getElem?_expireLocked.mp hnew).1)
  | created now asked printer settings name room createdId next answer _ hroom =>
      rw [JobStore.getElem?_put] at hnew
      split_ifs at hnew with heq
      · exact absurd (by simp [createdIds, Effect.createdId, heq]) hcreated
      · exact .inl (hkept
          (JobStore.getElem?_expireLocked.mp (JobStore.getElem?_of_makeRoom hroom hnew)).1)
  | appended now printer jobId job document header hjob =>
      rcases hpending (JobStore.addDocument job document) hjob (.inl hjob.state_eq) hnew
        with hsame | hmoved
      · exact .inl hsame
      · exact .inr (.inl hmoved)
  | sent now asked printer jobId job document printJob header submission _ hjob =>
      rcases hpending _ hjob (.inr htaken) hnew with hsame | hmoved
      · exact .inl hsame
      · exact .inr (.inl hmoved)
  | cancelled now printer jobId job answer hjob =>
      rcases hpending _ hjob (.inr hcancelled) hnew with hsame | hmoved
      · exact .inl hsame
      · exact .inr (.inl hmoved)
  | finished header jobId submission outcome effects answer hphase =>
      rcases s.finish_cases jobId outcome.state with ⟨-, hstore⟩ | ⟨job, -, hstore⟩
      · rw [hstore] at hnew
        exact .inl (hkept hnew)
      · rw [hstore, JobStore.getElem?_put] at hnew
        split_ifs at hnew with heq
        · obtain rfl := heq
          obtain rfl := Option.some.inj hnew
          exact .inr (.inr ⟨by rw [hphase]; rfl, outcome, rfl⟩)
        · exact .inl (hkept hnew)

/-- A request comes to await the submitter by taking a pending job. -/
lemma Turned.sends (h : Turned s call turn) {id : ℤ} (hsends : turn.phase.sends = some id) :
    (∃ old, s.jobs[id]? = some old ∧ old.entry.state = 3)
    ∧ ∃ new, turn.store.jobs[id]? = some new ∧ new.entry.state = 5 := by
  cases h with
  | quiet | printing | acknowledged | looked | created | appended | cancelled | finished =>
      cases hsends
  | sent now asked printer jobId job document printJob header submission _ hjob =>
      obtain rfl := Option.some.inj hsends
      refine ⟨⟨job, (JobStore.getElem?_expireLocked.mp hjob.tracked).1, hjob.state_eq⟩, ?_⟩
      refine ⟨JobStore.takeDocument (JobStore.addDocument job document), ?_, rfl⟩
      dsimp only
      rw [JobStore.getElem?_put, if_pos rfl]

end Section

/-! ### Runs -/

/-- The request is of the current `serve`, and it awaits the submitter for the job. -/
def Awaits (w : World) (id : ℤ) (call : Call) : Prop :=
  call.life = w.shared.life ∧ call.phase.sends = some id

/-- The invariant: the ids so far are those below the counter, and a job that a request awaits
the submitter for is processing and awaited by no other. -/
structure Orderly (w : World) : Prop where
  created : createdIds w.shared.log
    = (List.range (createdIds w.shared.log).length).map fun k : ℕ => (k : ℤ) + 1
  nextId_eq : w.shared.store.nextId = (createdIds w.shared.log).length + 1
  counted : Counted w.shared.store
  awaited : ∀ (j : ℕ) (call : Call), w.processes[j]? = some call → ∀ id, Awaits w id call →
    id < w.shared.store.nextId
      ∧ ∀ job, w.shared.store.jobs[id]? = some job → job.entry.state = 5
  alone : ∀ id, AtMostOne w.processes (Awaits w id)
  later : ∀ (j : ℕ) (call : Call), w.processes[j]? = some call →
    w.shared.life < call.life → call.phase = .received

section Step

variable {w v : World} {e : Event}

/-- What an unfinished counter says about a section. -/
lemma Orderly.numbered (hs : Bounded w.shared.store) (hw : Orderly w) {call : Call} {turn : Turn}
    (h : Turned w.shared.store call turn)
    (hcount : (createdIds (w.shared.log ++ turn.effects)).length < i32Max) :
    (createdIds turn.effects = [] ∧ turn.store.nextId = w.shared.store.nextId)
    ∨ (createdIds turn.effects = [w.shared.store.nextId]
      ∧ turn.store.nextId = w.shared.store.nextId + 1) := by
  rw [createdIds_append, List.length_append] at hcount
  have hnext := hw.nextId_eq
  by_cases hlt : w.shared.store.nextId < i32Max
  · exact h.numbered hs hw.counted hlt
  · -- the counter is at its end, so the section creates nothing
    refine .inl ⟨List.eq_nil_of_length_eq_zero (by omega), ?_⟩
    have hnone : createdIds turn.effects = [] := List.eq_nil_of_length_eq_zero (by omega)
    cases h with
    | quiet | printing | acknowledged | looked | appended | sent | cancelled => rfl
    | created => cases hnone
    | finished header jobId submission outcome =>
        rcases w.shared.store.finish_cases jobId outcome.state with
          ⟨-, hstore⟩ | ⟨old, -, hstore⟩
        · rw [hstore]
        · rw [hstore]
          rfl

/-- No tracked or awaited job is the one that a section creates. -/
lemma not_mem_createdIds {s : JobStore} {turn : Turn} {id : ℤ} (hlt : id < s.nextId)
    (h : (createdIds turn.effects = [] ∧ turn.store.nextId = s.nextId)
      ∨ (createdIds turn.effects = [s.nextId] ∧ turn.store.nextId = s.nextId + 1)) :
    id ∉ createdIds turn.effects := by
  rcases h with ⟨hnone, -⟩ | ⟨hone, -⟩
  · rw [hnone]
    exact List.not_mem_nil
  · rw [hone, List.mem_singleton]
    exact hlt.ne

/-- A section moves the jobs forward. -/
lemma statesMove_of_turned (hs : Bounded w.shared.store) (hw : Orderly w) {i : ℕ} {call : Call}
    {turn : Turn} (hcall : w.processes[i]? = some call) (hlife : call.life = w.shared.life)
    (h : Turned w.shared.store call turn)
    (hcount : (createdIds (w.shared.log ++ turn.effects)).length < i32Max) :
    StatesMove w.shared.store turn.store := by
  intro id old new hold hnew
  have hfresh := not_mem_createdIds (hw.counted id old hold) (hw.numbered hs h hcount)
  rcases h.moved hfresh hold hnew with hsame | ⟨-, hmoved⟩ | ⟨hsends, outcome, hstate⟩
  · exact .inl hsame
  · exact .inr hmoved
  · have hfive := (hw.awaited i call hcall id ⟨hlife, hsends⟩).2 old hold
    rw [hfive, hstate]
    cases outcome <;> exact .inr (by decide)

lemma statesMove_of_served (hs : Bounded w.shared.store) (hw : Orderly w) (h : Served w e v)
    (hcount : (createdIds v.shared.log).length < i32Max) :
    StatesMove w.shared.store v.shared.store := by
  have hsame : ∀ {old new : StoredJob} {id : ℤ}, w.shared.store.jobs[id]? = some old →
      w.shared.store.jobs[id]? = some new → new.entry.state = old.entry.state := by
    intro old new id hold hnew
    rw [Option.some.inj (hold.symm.trans hnew)]
  cases h with
  | start call => exact fun id old new hold hnew => .inl (hsame hold hnew)
  | turn i x call turn hcall hlife hturned =>
      exact statesMove_of_turned hs hw hcall hlife hturned hcount
  | outside x =>
      intro id old new hold hnew
      cases x with
      | expire now => exact .inl (hsame hold (JobStore.getElem?_expireLocked.mp hnew).1)
      | stop =>
          obtain ⟨job, hjob, -, -, rfl⟩ := JobStore.getElem?_abortIncomplete hnew
          obtain rfl := Option.some.inj (hold.symm.trans hjob)
          split_ifs with hincomplete
          · have haborted : ∀ state ∈ [(3 : ℤ), 5], (state, (8 : ℤ)) ∈ moves := by decide
            refine .inr (haborted _ ?_)
            simpa using hincomplete
          · exact .inl rfl

lemma orderly_of_turned (hs : Bounded w.shared.store) (hw : Orderly w) {i : ℕ} {call : Call}
    {turn : Turn} (hcall : w.processes[i]? = some call) (hlife : call.life = w.shared.life)
    (h : Turned w.shared.store call turn)
    (hcount : (createdIds (w.shared.log ++ turn.effects)).length < i32Max) :
    Orderly ⟨⟨turn.store, w.shared.log ++ turn.effects, w.shared.life⟩,
      w.processes.set i { call with phase := turn.phase } ++ []⟩ := by
  have hnumbered := hw.numbered hs h hcount
  have hnext : w.shared.store.nextId ≤ turn.store.nextId := by
    rcases hnumbered with ⟨-, hnext⟩ | ⟨-, hnext⟩ <;> omega
  refine ⟨?_, ?_, ?_, ?_, ?_, ?_⟩
  · rcases hnumbered with ⟨hnone, -⟩ | ⟨hone, -⟩
    · rw [createdIds_append, hnone, List.append_nil]
      exact hw.created
    · rw [createdIds_append, hone, List.length_append, List.length_singleton, List.range_succ,
        List.map_append, ← hw.created, hw.nextId_eq]
      rfl
  · rw [createdIds_append, List.length_append]
    have hbefore := hw.nextId_eq
    rcases hnumbered with ⟨hnone, hnext⟩ | ⟨hone, hnext⟩
    · rw [hnone, List.length_nil, Nat.add_zero]
      exact hnext.trans hbefore
    · rw [hone, List.length_singleton]
      push_cast
      exact hnext.trans (by rw [hbefore])
  · intro id job hjob
    rcases h.tracked hjob with ⟨old, hold, -⟩ | ⟨asked, hmem, -⟩
    · exact lt_of_lt_of_le (hw.counted id old hold) hnext
    · have hid : id ∈ createdIds turn.effects := List.mem_filterMap.mpr ⟨_, hmem, rfl⟩
      rcases hnumbered with ⟨hnone, -⟩ | ⟨hone, hnext⟩
      · rw [hnone] at hid
        cases hid
      · rw [hone, List.mem_singleton] at hid
        exact hid ▸ hnext ▸ Int.lt_succ _
  · refine forall_after_move hcall (fun j other hne hother id hawaits => ?_)
      (fun id hawaits => ?_) fun m hm => absurd hm List.not_mem_nil
    · obtain ⟨hlt, hfive⟩ := hw.awaited j other hother id hawaits
      refine ⟨lt_of_lt_of_le hlt hnext, fun job hjob => ?_⟩
      have hfresh := not_mem_createdIds hlt hnumbered
      rcases h.tracked hjob with ⟨old, hold, -⟩ | ⟨asked, hmem, -⟩
      · have hstate := hfive old hold
        rcases h.moved hfresh hold hjob with hsame | ⟨hthree, -⟩ | ⟨hsends, -⟩
        · exact hsame.trans hstate
        · rw [hstate] at hthree
          cases hthree
        · exact absurd (hw.alone id j i other call hother hcall hawaits ⟨hlife, hsends⟩) hne
      · have hid : id ∈ createdIds turn.effects := List.mem_filterMap.mpr ⟨_, hmem, rfl⟩
        exact absurd hid hfresh
    · obtain ⟨⟨old, hold, -⟩, new, hnew, hstate⟩ := h.sends hawaits.2
      refine ⟨lt_of_lt_of_le (hw.counted id old hold) hnext, fun job hjob => ?_⟩
      rwa [Option.some.inj (hjob.symm.trans hnew)]
  · intro id
    refine atMostOne_after_move hcall (hw.alone id) (fun hawaits => .inr ?_)
      fun m hm => absurd hm List.not_mem_nil
    -- the job was pending, so nobody awaited it
    intro j other hne hother hother'
    obtain ⟨⟨old, hold, hthree⟩, -⟩ := h.sends hawaits.2
    have hfive := (hw.awaited j other hother id hother').2 old hold
    rw [hthree] at hfive
    cases hfive
  · refine forall_after_move hcall (fun j other _ hother => hw.later j other hother)
      (fun hlater => ?_) fun m hm => absurd hm List.not_mem_nil
    exact absurd hlife hlater.ne'

lemma orderly_of_served (hs : Bounded w.shared.store) (hw : Orderly w) (h : Served w e v)
    (hcount : (createdIds v.shared.log).length < i32Max) : Orderly v := by
  cases h with
  | start call hphase =>
      have hnot : ∀ id, ¬Awaits w id call := by
        rintro id ⟨-, hsends⟩
        rw [hphase] at hsends
        cases hsends
      exact {
        created := hw.created
        nextId_eq := hw.nextId_eq
        counted := hw.counted
        awaited := forall_after_start hw.awaited fun id hawaits => absurd hawaits (hnot id)
        alone := fun id => atMostOne_after_start (hw.alone id) (hnot id)
        later := forall_after_start hw.later fun _ => hphase }
  | turn i x call turn hcall hlife hturned =>
      exact orderly_of_turned hs hw hcall hlife hturned hcount
  | outside x =>
      cases x with
      | expire now =>
          have hlog : createdIds (w.shared.log ++ [.expired (w.shared.store.expiredIds now)])
              = createdIds w.shared.log := by
            rw [createdIds_append]
            exact List.append_nil _
          exact {
            created := by
              simp only [outside, hlog]
              exact hw.created
            nextId_eq := by
              simp only [outside, hlog]
              exact hw.nextId_eq
            counted := fun id job hjob =>
              hw.counted id job (JobStore.getElem?_expireLocked.mp hjob).1
            awaited := fun j call hcall id hawaits =>
              ⟨(hw.awaited j call hcall id hawaits).1, fun job hjob =>
                (hw.awaited j call hcall id hawaits).2 job
                  (JobStore.getElem?_expireLocked.mp hjob).1⟩
            alone := hw.alone
            later := hw.later }
      | stop =>
          have hlog : createdIds (w.shared.log ++ [.aborted w.shared.store.incompleteIds])
              = createdIds w.shared.log := by
            rw [createdIds_append]
            exact List.append_nil _
          -- the requests of the next `serve` have not begun
          have hnot : ∀ (j : ℕ) (call : Call) (id : ℤ), w.processes[j]? = some call →
              call.life = w.shared.life + 1 → call.phase.sends ≠ some id := by
            intro j call id hcall hlife hsends
            rw [hw.later j call hcall (by omega)] at hsends
            cases hsends
          exact {
            created := by
              simp only [outside, hlog]
              exact hw.created
            nextId_eq := by
              simp only [outside, hlog]
              exact hw.nextId_eq
            counted := fun id job hjob => by
              obtain ⟨old, hold, -⟩ := JobStore.getElem?_abortIncomplete hjob
              exact hw.counted id old hold
            awaited := fun j call hcall id hawaits =>
              absurd hawaits.2 (hnot j call id hcall hawaits.1)
            alone := fun id i j call other hcall hother hawaits =>
              absurd hawaits.2 (hnot i call id hcall hawaits.1)
            later := fun j call hcall hlater => by
              simp only [outside] at hlater
              exact hw.later j call hcall (by omega) }

/-- The log only grows. -/
lemma createdIds_length_le (h : Served w e v) :
    (createdIds w.shared.log).length ≤ (createdIds v.shared.log).length := by
  have hgrows : ∀ es : List Effect,
      (createdIds w.shared.log).length ≤ (createdIds (w.shared.log ++ es)).length := by
    intro es
    rw [createdIds_append, List.length_append]
    exact Nat.le_add_right _ _
  cases h with
  | start call => exact le_rfl
  | turn => exact hgrows _
  | outside x => cases x <;> exact hgrows _

end Step

section Run

variable {X : Services} {sha256 : Bytes → Vector UInt8 32}

lemma orderly_init : Orderly (endpoint X sha256).init where
  created := rfl
  nextId_eq := rfl
  counted := fun id job hjob => by
    simp [endpoint, Processes.system, requests, JobStore.new] at hjob
  awaited := fun j call hcall => by
    simp [endpoint, Processes.system] at hcall
  alone := fun id i j call other hcall => by
    simp [endpoint, Processes.system] at hcall
  later := fun j call hcall => by
    simp [endpoint, Processes.system] at hcall

/-- **In every interleaving of requests with fewer than 2³¹ - 1 created jobs the jobs are
numbered in the order of their creation, and every step leaves the state of a job as it is or
moves it forward: a job that was cancelled, aborted or completed stays so.** -/
theorem states_move_forward {es : List Event} {w : World}
    (h : (endpoint X sha256).run es = some w)
    (hcount : (createdIds w.shared.log).length < i32Max) :
    createdIds w.shared.log
      = ((List.range (createdIds w.shared.log).length).map fun k : ℕ => (k : ℤ) + 1)
    ∧ ∀ s e t, (endpoint X sha256).Took es s e t →
        StatesMove s.shared.store t.shared.store := by
  have hrun := (endpoint X sha256).run_induction
    (P := fun es w => Bounded w.shared.store ∧ ((createdIds w.shared.log).length < i32Max →
      Orderly w ∧ ∀ s e t, (endpoint X sha256).Took es s e t →
        StatesMove s.shared.store t.shared.store))
    ⟨Bounded.new, fun _ => ⟨orderly_init, fun s e t htook =>
      absurd htook ((endpoint X sha256).not_took_nil s e t)⟩⟩ ?_ h
  · obtain ⟨horderly, hmoves⟩ := hrun.2 hcount
    exact ⟨horderly.created, hmoves⟩
  · rintro es w e v hw ⟨hs, hbefore⟩ hv
    have hserved := served_of_step hs hv
    refine ⟨hserved.bounded hs, fun hcount => ?_⟩
    have hle := createdIds_length_le hserved
    obtain ⟨horderly, hmoves⟩ := hbefore (by omega)
    refine ⟨orderly_of_served hs horderly hserved hcount, fun s f t htook => ?_⟩
    rcases ((endpoint X sha256).took_concat hw hv).mp htook with htook | ⟨rfl, rfl, rfl⟩
    · exact hmoves s f t htook
    · exact statesMove_of_served hs horderly hserved hcount

end Run

/-- The first job of the client is aborted when the endpoint stops. -/
theorem officeJob_moves :
    ∃ es w, (endpoint officeServices Sha256.digest).run es = some w
      ∧ createdIds w.shared.log = [1]
      ∧ (∃ job, w.shared.store.jobs[(1 : ℤ)]? = some job ∧ job.entry.state = 8)
      ∧ ∀ s e t, (endpoint officeServices Sha256.digest).Took es s e t →
          StatesMove s.shared.store t.shared.store := by
  obtain ⟨_, _, hcreate⟩ := officeCreateJob_creates
  have hcreated := run_answer (endpoint officeServices Sha256.digest).run_nil rfl rfl hcreate
  have hstopped := (endpoint officeServices Sha256.digest).run_concat.mpr
    ⟨_, hcreated, step_outside .stop⟩
  have hcount : (([1] : List ℤ).length : ℤ) < i32Max := by decide
  refine ⟨_, _, hstopped, rfl, ⟨officeJob.close 8, ?_, rfl⟩,
    (states_move_forward hstopped hcount).2⟩
  simp only [outside, JobStore.abortIncomplete, Std.ExtTreeMap.getElem?_map,
    JobStore.getElem?_put]
  rfl

end ShaPrint.Endpoint
