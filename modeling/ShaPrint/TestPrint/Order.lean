import ShaPrint.TestPrint.Sections

/-!
The order of sessions, runs and submissions of a guided test print, over every run.

* `Guarded`: the submission guard is held once while it is set, by a call or by a submission.
* `Ranked`, `Moved.ranked`: the sections by what they do to ids and runs.
* `Ordered`: sessions have ids of their own, and every admission is a run of its own.
* `Previewed`: a call that checks again sees the media that its session previewed.
-/

namespace ShaPrint.TestPrint

open Queue Processes

variable {hasNative : Bool} {s s' : Store} {c c' : Call} {x : Input} {w v : World} {e : Event}

/-- What a step of the system is. -/
lemma stepped_of_guided (h : (guided hasNative).step w e = some v) :
    (calls hasNative).Stepped w e v := stepped_of_step _ h

lemma new_of_starts (h : (calls hasNative).starts c = true) : ∃ operation, c = .new operation :=
  ⟨c.operation, beq_iff_eq.mp h⟩

lemma moved_of_advance {t : Store} {d : Call} {spawned : List Call}
    (h : (calls hasNative).advance s c x = some (t, d, spawned)) :
    Moved s c x t d ∧ spawned = [] := by
  obtain ⟨⟨t', d'⟩, hresume, heq⟩ := Option.map_eq_some_iff.mp h
  obtain ⟨rfl, hrest⟩ := Prod.mk.inj heq
  obtain ⟨rfl, rfl⟩ := Prod.mk.inj hrest
  exact ⟨moved_of_resume hresume, rfl⟩

/-- The end of a submission. -/
lemma finished_of_outside {o : Outside} (h : (calls hasNative).outside s o = some s') :
    ∃ n k outcome, s.workers[n]? = some k ∧ k.inFlight = true
      ∧ s' = { s with submitting := false, workers := s.workers.set n { k with ended := some outcome } } := by
  obtain ⟨n, outcome⟩ := o
  obtain ⟨k, hk, hend⟩ := Option.bind_eq_some_iff.mp h
  split at hend
  · rename_i hflight
    exact ⟨n, k, outcome, hk, hflight, (Option.some.inj hend).symm⟩
  · cases hend

/-! ### The submission guard -/

/-- The guard is set while one call or one submission holds it. -/
def Guarded (w : World) : Prop :=
  w.processes.countP (fun c => c.phase.holdsGuard) + w.shared.workers.countP Worker.inFlight
    = w.shared.submitting.toNat

/-- A section passes the guard on. -/
lemma Moved.guard (h : Moved s c x s' c') (hheld : c.phase.holdsGuard = true → s.submitting = true) :
    c'.phase.holdsGuard.toNat + s'.workers.countP Worker.inFlight + s.submitting.toNat
      = c.phase.holdsGuard.toNat + s.workers.countP Worker.inFlight + s'.submitting.toNat := by
  cases h with
  | allot target hoperation hphase => simp [hphase, Phase.holdsGuard]
  | store target hphase => simp [hphase, Phase.holdsGuard]
  | close hoperation hphase => simp [hphase, Phase.holdsGuard]
  | confirm t result symptom hoperation hphase => simp [hphase, Phase.holdsGuard]
  | refuse e hphase => obtain hphase | hphase := hphase <;> simp [hphase, Phase.holdsGuard]
  | admitRefresh t hphase =>
      obtain ⟨hphase, -⟩ | hphase := hphase <;> simp [hphase, Phase.holdsGuard]
  | admitSend t hoperation hphase hsession hid hready hfree =>
      simp [hphase, hfree, Phase.holdsGuard]
      omega
  | stale run x hrun hguard =>
      rw [hguard]
      rfl
  | publish t run target checks media x hphase => simp [hphase, Phase.holdsGuard]
  | staleSend run target preview x hphase => simp [hphase, Phase.holdsGuard]
  | block t run target preview checks media x hphase => simp [hphase, Phase.holdsGuard]
  | submit t run target checks m hphase =>
      simp [hphase, Phase.holdsGuard, Worker.inFlight]
      omega
  | release result hphase =>
      have hset := hheld (by rw [hphase]; rfl)
      simp [hphase, hset, Phase.holdsGuard]
      omega
  | record t run n outcome x hphase => simp [hphase, Phase.holdsGuard]
  | drop run hrun hguard =>
      rw [hguard]
      rfl
  | dropSend run target preview hphase =>
      have hset := hheld (by rw [hphase]; rfl)
      simp [hphase, hset, Phase.holdsGuard]
      omega

theorem guarded_of_step (hw : Guarded w) (h : (guided hasNative).step w e = some v) : Guarded v := by
  rcases stepped_of_guided h with ⟨k, hstarts⟩ | ⟨i, x, k, s, k', spawned, hk, hadvance⟩ | ⟨o, s, hend⟩
  · obtain ⟨operation, rfl⟩ := new_of_starts hstarts
    have hnew : (Call.new operation).phase.holdsGuard = false := rfl
    simpa [Guarded, hnew] using hw
  · obtain ⟨hmoved, rfl⟩ := moved_of_advance hadvance
    have hcount : (w.processes.set i k').countP _ + _ = _ + (k'.phase.holdsGuard).toNat :=
      countP_set_add (fun c : Call => c.phase.holdsGuard) hk
    have hle := toNat_le_countP (fun c : Call => c.phase.holdsGuard) hk
    unfold Guarded at hw ⊢
    have hheld : k.phase.holdsGuard = true → w.shared.submitting = true := by
      intro hholds
      by_contra hfree
      simp only [hholds, Bool.not_eq_true _ ▸ hfree, Bool.toNat_true, Bool.toNat_false] at hle hw
      omega
    have hguard := hmoved.guard hheld
    simp only [List.append_nil]
    omega
  · obtain ⟨n, k, outcome, hk, hflight, rfl⟩ := finished_of_outside hend
    have hcount : (w.shared.workers.set n { k with ended := some outcome }).countP _ + _ = _ :=
      countP_set_add Worker.inFlight hk
    have hbound : w.shared.submitting.toNat ≤ 1 := Bool.toNat_le _
    have hended : Worker.inFlight { k with ended := some outcome } = false := rfl
    unfold Guarded at hw ⊢
    simp only [hflight, hended, Bool.toNat_true, Bool.toNat_false] at hcount ⊢
    omega

/-! ### Sessions and runs -/

/-- Sessions have ids of their own, and every admission is a run of its own. -/
structure Ordered (w : World) : Prop where
  owners : ∀ n, AtMostOne w.processes (Call.Owns n)
  owned : ∀ (i : ℕ) (c : Call), w.processes[i]? = some c → ∀ n, c.Owns n → n < w.shared.nextId
  session : ∀ t, w.shared.session = some t → t.sessionId < w.shared.nextId
  pending : ∀ (i : ℕ) (c : Call), w.processes[i]? = some c → c.phase.storing = true →
    (∃ target, c.operation = .open target) ∧ (∀ t, w.shared.session = some t → t.sessionId ≠ c.id)
      ∧ ∀ (j : ℕ) (k : Call), w.processes[j]? = some k → ∀ run, k.phase.run = some run → k.id ≠ c.id
  runs : ∀ (i : ℕ) (c : Call), w.processes[i]? = some c → ∀ run, c.phase.run = some run →
    c.id < w.shared.nextId ∧ ∀ t, w.shared.session = some t → t.sessionId = c.id → run ≤ t.run
  single : ∀ id run, AtMostOne w.processes (Call.Admitted id run)

/-- A section that leaves the session the one it is, if it leaves one, and admits no call. -/
structure Kept (s : Store) (c : Call) (s' : Store) (c' : Call) : Prop where
  nextId : s'.nextId = s.nextId
  session : ∀ t', s'.session = some t' → ∃ t, s.session = some t ∧ t'.sessionId = t.sessionId
    ∧ t'.run = t.run ∧ (t.IsOf c ∨ (t'.requestedMedia = t.requestedMedia
      ∧ t'.diagnostics.target = t.diagnostics.target))
  id : c'.id = c.id
  operation : c'.operation = c.operation
  opened : ∀ target, c.operation = .open target → c.phase.begun = true
  run : c'.phase.run = none ∨ c'.phase.run = c.phase.run
  stored : c'.phase.storing = false
  rechecks : c'.phase.rechecks = false

/-- A section that admits a call to the session, as its next run. -/
structure Admits (s : Store) (c : Call) (s' : Store) (c' : Call) (t t' : Session) : Prop where
  nextId : s'.nextId = s.nextId
  before : s.session = some t
  after : s'.session = some t'
  sessionId : t.sessionId = c.id
  sessionId' : t'.sessionId = t.sessionId
  run' : t'.run = t.run + 1
  id : c'.id = c.id
  operation : c'.operation = c.operation
  opened : ∀ target, c.operation = .open target → c.phase.begun = true
  run : c'.phase.run = some (t.run + 1)
  stored : c'.phase.storing = false
  media : t'.requestedMedia = t.requestedMedia
  target : t'.diagnostics = t.diagnostics
  preview : ∀ run target preview, c'.phase = .rechecking run target preview →
    preview = t.requestedMedia ∧ target = t.diagnostics.target

/-- A section by what it does to ids and runs. -/
inductive Ranked (s : Store) (c : Call) (s' : Store) (c' : Call) : Prop where
  | allot (target : RecognisedClientQueue) (hoperation : c.operation = .open target)
      (hphase : c.phase = .start) (hs : s' = { s with nextId := s.nextId + 1 })
      (hc : c' = { c with id := s.nextId, phase := .store target })
  | store (target : RecognisedClientQueue) (hphase : c.phase = .store target)
      (hs : s' = { s with session := some (.opened c.id target s.hasNative) })
      (hc : c' = { c with phase := .refresh })
  | admitted (t t' : Session) (h : Admits s c s' c' t t')
  | keep (h : Kept s c s' c')

lemma begun_of_run {run : ℕ} (h : c.phase.run = some run) : c.phase.begun = true := by
  cases hphase : c.phase with
  | start =>
      rw [hphase] at h
      cases h
  | _ => rfl

lemma opened_of_operation {operation : Operation} (h : c.operation = operation)
    (hne : ∀ target, operation ≠ .open target) (target : RecognisedClientQueue)
    (hopen : c.operation = .open target) : c.phase.begun = true :=
  absurd (h.symm.trans hopen) (hne target)

/-- A section that leaves the session alone keeps it. -/
lemma kept_of_quiet {phase : Phase} {submitting : Bool}
    (hopened : ∀ target, c.operation = .open target → c.phase.begun = true)
    (hrun : phase.run = none) (hstored : phase.storing = false) (hrechecks : phase.rechecks = false) :
    Kept s c { s with submitting := submitting } { c with phase := phase } :=
  ⟨rfl, fun t' h => ⟨t', h, rfl, rfl, .inr ⟨rfl, rfl⟩⟩, rfl, rfl, hopened, .inl hrun, hstored,
    hrechecks⟩

/-- A section that goes on with the session it was admitted to keeps it. -/
lemma kept_of_current {phase : Phase} {caused : List ℕ} {t t' : Session} {run : ℕ}
    (hsession : s.session = some t) (hsession' : s'.session = some t') (hnext : s'.nextId = s.nextId)
    (hid : t.sessionId = c.id) (hrun : t.run = run) (hphase : c.phase.run = some run)
    (hsame : t'.sessionId = t.sessionId ∧ t'.run = t.run)
    (hrun' : phase.run = none ∨ phase.run = c.phase.run) (hstored : phase.storing = false)
    (hrechecks : phase.rechecks = false) :
    Kept s c s' { c with phase := phase, caused := caused } := by
  refine ⟨hnext, fun u hu => ?_, rfl, rfl, fun _ _ => begun_of_run hphase, hrun', hstored, hrechecks⟩
  obtain rfl := Option.some.inj (hsession'.symm.trans hu)
  exact ⟨t, hsession, hsame.1, hsame.2, .inl ⟨hid.symm, hrun ▸ hphase⟩⟩

/-- What a section does to ids and runs. -/
lemma Moved.ranked (h : Moved s c x s' c') : Ranked s c s' c' := by
  cases h with
  | allot target hoperation hphase => exact .allot target hoperation hphase rfl rfl
  | store target hphase => exact .store target hphase rfl rfl
  | close hoperation hphase =>
      obtain ⟨id, hoperation⟩ := hoperation
      have hopened := opened_of_operation hoperation fun target h => by cases h
      refine .keep ⟨rfl, fun t' h => ?_, rfl, rfl, hopened, .inl rfl, rfl, rfl⟩
      exact ⟨t', (filter_session_eq_some h).1, rfl, rfl, .inr ⟨rfl, rfl⟩⟩
  | confirm t result symptom hoperation hphase hsession =>
      obtain ⟨id, hoperation⟩ := hoperation
      have hopened := opened_of_operation hoperation fun target h => by cases h
      refine .keep ⟨rfl, fun t' h => ?_, rfl, rfl, hopened, .inl rfl, rfl, rfl⟩
      exact ⟨t, hsession, Option.some.inj h ▸ ⟨rfl, rfl, .inr ⟨rfl, rfl⟩⟩⟩
  | refuse e hphase hoperation =>
      refine .keep (kept_of_quiet (fun target hopen => ?_) rfl rfl rfl)
      rw [hoperation target hopen]
      rfl
  | admitRefresh t hphase hsession hid hsubmission =>
      refine .admitted t { t with ready := false, run := t.run + 1 }
        ⟨rfl, hsession, rfl, hid, rfl, rfl, rfl, rfl, ?_, rfl, rfl, rfl, rfl, fun _ _ _ h => by cases h⟩
      rcases hphase with ⟨-, id, hoperation⟩ | hrefresh
      · exact opened_of_operation hoperation fun target h => by cases h
      · exact fun _ _ => by rw [hrefresh]; rfl
  | admitSend t hoperation hphase hsession hid hready hfree =>
      obtain ⟨id, hoperation⟩ := hoperation
      have hopened := opened_of_operation hoperation fun target h => by cases h
      refine .admitted t t.admitSend
        ⟨rfl, hsession, rfl, hid, rfl, rfl, rfl, rfl, hopened, rfl, rfl, rfl, rfl, ?_⟩
      intro run target preview hrechecks
      obtain ⟨-, rfl, rfl⟩ := Phase.rechecking.inj hrechecks
      exact ⟨rfl, rfl⟩
  | stale run x hrun => exact .keep (kept_of_quiet (fun _ _ => begun_of_run hrun) rfl rfl rfl)
  | publish t run target checks media x hphase hsession hid hrun =>
      exact .keep (kept_of_current hsession rfl rfl hid hrun (by rw [hphase]; rfl) ⟨rfl, rfl⟩
        (.inl rfl) rfl rfl)
  | staleSend run target preview x hphase =>
      exact .keep (kept_of_quiet (fun _ _ => by rw [hphase]; rfl) rfl rfl rfl)
  | block t run target preview checks media x hphase hsession hid hrun =>
      exact .keep (kept_of_current hsession rfl rfl hid hrun (by rw [hphase]; rfl) ⟨rfl, rfl⟩
        (.inl rfl) rfl rfl)
  | submit t run target checks m hphase hsession hid hrun =>
      exact .keep (kept_of_current hsession rfl rfl hid hrun (by rw [hphase]; rfl) ⟨rfl, rfl⟩
        (.inr (by rw [hphase]; rfl)) rfl rfl)
  | release result hphase =>
      exact .keep (kept_of_quiet (fun _ _ => by rw [hphase]; rfl) rfl rfl rfl)
  | record t run n outcome x hphase houtcome hsession hid hrun =>
      exact .keep (kept_of_current hsession rfl rfl hid hrun (by rw [hphase]; rfl) ⟨rfl, rfl⟩
        (.inl rfl) rfl rfl)
  | drop run hrun => exact .keep (kept_of_quiet (fun _ _ => begun_of_run hrun) rfl rfl rfl)
  | dropSend run target preview hphase =>
      exact .keep (kept_of_quiet (fun _ _ => by rw [hphase]; rfl) rfl rfl rfl)

lemma Kept.owns (h : Kept s c s' c') {n : ℕ} (howns : c'.Owns n) : c.Owns n := by
  obtain ⟨⟨target, hopen⟩, -, hid⟩ := howns
  rw [h.operation] at hopen
  exact ⟨⟨target, hopen⟩, h.opened target hopen, h.id ▸ hid⟩

lemma Kept.admitted (h : Kept s c s' c') {run : ℕ} (hrun : c'.phase.run = some run) :
    c.phase.run = some run := by
  rcases h.run with hnone | hsame
  · rw [hnone] at hrun
    cases hrun
  · exact hsame ▸ hrun

section Moves

variable {i : ℕ} {k k' : Call}

lemma ordered_of_kept (hw : Ordered w) (hk : w.processes[i]? = some k) (h : Kept w.shared k s' k') :
    Ordered ⟨s', w.processes.set i k' ++ []⟩ := by
  have hspawned : ∀ {Q : Call → Prop}, ∀ m ∈ ([] : List Call), Q m := fun m hm => by cases hm
  refine ⟨fun n => ?_, ?_, ?_, ?_, ?_, fun id run => ?_⟩
  · exact atMostOne_after_move hk (hw.owners n) (fun howns => .inl (h.owns howns)) hspawned
  · refine forall_after_move hk (fun j m _ hm n hn => ?_) (fun n hn => ?_) hspawned
    · exact h.nextId ▸ hw.owned j m hm n hn
    · exact h.nextId ▸ hw.owned i k hk n (h.owns hn)
  · intro t' ht'
    obtain ⟨t, ht, hid, -⟩ := h.session t' ht'
    rw [hid]
    exact h.nextId ▸ hw.session t ht
  · refine forall_after_move hk (fun j m _ hm hstoring => ?_) (fun hstoring => ?_) hspawned
    · obtain ⟨hopen, hsession, hothers⟩ := hw.pending j m hm hstoring
      refine ⟨hopen, fun t' ht' => ?_, ?_⟩
      · obtain ⟨t, ht, hid, -⟩ := h.session t' ht'
        exact hid ▸ hsession t ht
      · refine forall_after_move hk (fun l n _ hn => hothers l n hn) (fun run hrun => ?_) hspawned
        exact h.id ▸ hothers i k hk run (h.admitted hrun)
    · rw [h.stored] at hstoring
      cases hstoring
  · have hruns : ∀ (j : ℕ) (m : Call) (run : ℕ), w.processes[j]? = some m → m.phase.run = some run →
        m.id < s'.nextId ∧ ∀ t, s'.session = some t → t.sessionId = m.id → run ≤ t.run := by
      intro j m run hm hrun
      obtain ⟨hlt, hle⟩ := hw.runs j m hm run hrun
      refine ⟨h.nextId ▸ hlt, fun t' ht' hid' => ?_⟩
      obtain ⟨t, ht, hid, hsame, -⟩ := h.session t' ht'
      exact hsame ▸ hle t ht (hid ▸ hid')
    refine forall_after_move hk (fun j m _ hm run hrun => hruns j m run hm hrun)
      (fun run hrun => ?_) hspawned
    rw [h.id]
    exact hruns i k run hk (h.admitted hrun)
  · refine atMostOne_after_move hk (hw.single id run) (fun hadmitted => .inl ?_) hspawned
    exact ⟨h.id ▸ hadmitted.1, h.admitted hadmitted.2⟩

lemma ordered_of_admits {t t' : Session} (hw : Ordered w) (hk : w.processes[i]? = some k)
    (h : Admits w.shared k s' k' t t') : Ordered ⟨s', w.processes.set i k' ++ []⟩ := by
  have hspawned : ∀ {Q : Call → Prop}, ∀ m ∈ ([] : List Call), Q m := fun m hm => by cases hm
  have howns : ∀ {n : ℕ}, k'.Owns n → k.Owns n := by
    rintro n ⟨⟨target, hopen⟩, -, hid⟩
    rw [h.operation] at hopen
    exact ⟨⟨target, hopen⟩, h.opened target hopen, h.id ▸ hid⟩
  have hafter : ∀ {u : Session}, s'.session = some u → u = t' := fun hu =>
    Option.some.inj (hu.symm.trans h.after)
  have hnew : t.sessionId < w.shared.nextId := hw.session t h.before
  refine ⟨fun n => ?_, ?_, ?_, ?_, ?_, fun id run => ?_⟩
  · exact atMostOne_after_move hk (hw.owners n) (fun hn => .inl (howns hn)) hspawned
  · refine forall_after_move hk (fun j m _ hm n hn => ?_) (fun n hn => ?_) hspawned
    · exact h.nextId ▸ hw.owned j m hm n hn
    · exact h.nextId ▸ hw.owned i k hk n (howns hn)
  · intro u hu
    obtain rfl := hafter hu
    rw [h.sessionId', h.nextId]
    exact hnew
  · refine forall_after_move hk (fun j m _ hm hstoring => ?_) (fun hstoring => ?_) hspawned
    · obtain ⟨hopen, hsession, hothers⟩ := hw.pending j m hm hstoring
      have hne := hsession t h.before
      refine ⟨hopen, fun u hu => ?_, ?_⟩
      · obtain rfl := hafter hu
        exact h.sessionId' ▸ hne
      · refine forall_after_move hk (fun l n _ hn => hothers l n hn) (fun run _ => ?_) hspawned
        rw [h.id, ← h.sessionId]
        exact hne
    · rw [h.stored] at hstoring
      cases hstoring
  · refine forall_after_move hk (fun j m _ hm run hrun => ?_) (fun run hrun => ?_) hspawned
    · obtain ⟨hlt, hle⟩ := hw.runs j m hm run hrun
      refine ⟨h.nextId ▸ hlt, fun u hu hid => ?_⟩
      obtain rfl := hafter hu
      have hrun := hle t h.before (h.sessionId' ▸ hid)
      rw [h.run']
      omega
    · rw [h.id, ← h.sessionId]
      refine ⟨h.nextId ▸ hnew, fun u hu _ => ?_⟩
      obtain rfl := hafter hu
      rw [h.run] at hrun
      rw [h.run', Option.some.inj hrun]
  · refine atMostOne_after_move hk (hw.single id run) (fun hadmitted => .inr ?_) hspawned
    rintro j m - hm ⟨hid, hrun⟩
    have hlast : run = t.run + 1 := Option.some.inj (hadmitted.2.symm.trans h.run)
    have hle := (hw.runs j m hm run hrun).2 t h.before
      (by rw [h.sessionId, hid, ← hadmitted.1, h.id])
    omega

lemma ordered_of_allot {target : RecognisedClientQueue} (hw : Ordered w)
    (hk : w.processes[i]? = some k) (hoperation : k.operation = .open target) :
    Ordered ⟨{ w.shared with nextId := w.shared.nextId + 1 },
      w.processes.set i { k with id := w.shared.nextId, phase := .store target } ++ []⟩ := by
  have hspawned : ∀ {Q : Call → Prop}, ∀ m ∈ ([] : List Call), Q m := fun m hm => by cases hm
  refine ⟨fun n => ?_, ?_, ?_, ?_, ?_, fun id run => ?_⟩
  · refine atMostOne_after_move hk (hw.owners n) (fun howns => .inr ?_) hspawned
    rintro j m - hm hn
    obtain rfl : w.shared.nextId = n := howns.2.2
    exact absurd (hw.owned j m hm _ hn) (lt_irrefl _)
  · refine forall_after_move hk (fun j m _ hm n hn => ?_) (fun n hn => ?_) hspawned
    · exact Nat.lt_succ_of_lt (hw.owned j m hm n hn)
    · obtain rfl : w.shared.nextId = n := hn.2.2
      exact Nat.lt_succ_self _
  · exact fun t ht => Nat.lt_succ_of_lt (hw.session t ht)
  · refine forall_after_move hk (fun j m _ hm hstoring => ?_) (fun _ => ?_) hspawned
    · obtain ⟨hopen, hsession, hothers⟩ := hw.pending j m hm hstoring
      refine ⟨hopen, hsession, forall_after_move hk (fun l n _ hn => hothers l n hn) ?_ hspawned⟩
      exact fun run hrun => by cases hrun
    · refine ⟨⟨target, hoperation⟩, fun t ht => (hw.session t ht).ne, ?_⟩
      refine forall_after_move hk (fun l n _ hn run hrun => ?_) (fun run hrun => by cases hrun) hspawned
      exact (hw.runs l n hn run hrun).1.ne
  · refine forall_after_move hk (fun j m _ hm run hrun => ?_) (fun run hrun => by cases hrun) hspawned
    obtain ⟨hlt, hle⟩ := hw.runs j m hm run hrun
    exact ⟨Nat.lt_succ_of_lt hlt, hle⟩
  · exact atMostOne_after_move hk (hw.single id run) (fun hadmitted => by cases hadmitted.2) hspawned

lemma ordered_of_store {target : RecognisedClientQueue} (hw : Ordered w)
    (hk : w.processes[i]? = some k) (hphase : k.phase = .store target) :
    Ordered ⟨{ w.shared with session := some (.opened k.id target w.shared.hasNative) },
      w.processes.set i { k with phase := .refresh } ++ []⟩ := by
  have hspawned : ∀ {Q : Call → Prop}, ∀ m ∈ ([] : List Call), Q m := fun m hm => by cases hm
  have hstoring : k.phase.storing = true := by rw [hphase]; rfl
  have hbegun : k.phase.begun = true := by rw [hphase]; rfl
  obtain ⟨hopen, -, hothers⟩ := hw.pending i k hk hstoring
  have howns : k.Owns k.id := ⟨hopen, hbegun, rfl⟩
  refine ⟨fun n => ?_, ?_, ?_, ?_, ?_, fun id run => ?_⟩
  · refine atMostOne_after_move hk (hw.owners n) (fun hn => .inl ?_) hspawned
    exact ⟨hn.1, hbegun, hn.2.2⟩
  · refine forall_after_move hk (fun j m _ hm => hw.owned j m hm) (fun n hn => ?_) hspawned
    exact hw.owned i k hk n ⟨hn.1, hbegun, hn.2.2⟩
  · intro t ht
    obtain rfl := Option.some.inj ht
    exact hw.owned i k hk _ howns
  · refine forall_after_move hk (fun j m hne hm hpending => ?_) (fun h => by cases h) hspawned
    obtain ⟨hopen', -, hothers'⟩ := hw.pending j m hm hpending
    refine ⟨hopen', fun t ht heq => ?_, ?_⟩
    · obtain rfl := Option.some.inj ht
      have hbegun' : m.phase.begun = true := by
        cases hm' : m.phase with
        | start =>
            rw [hm'] at hpending
            cases hpending
        | _ => rfl
      exact hne (hw.owners m.id j i m k hm hk ⟨hopen', hbegun', rfl⟩ ⟨hopen, hbegun, heq⟩)
    · exact forall_after_move hk (fun l n _ hn => hothers' l n hn) (fun run h => by cases h) hspawned
  · refine forall_after_move hk (fun j m _ hm run hrun => ?_) (fun run h => by cases h) hspawned
    refine ⟨(hw.runs j m hm run hrun).1, fun t ht hid => ?_⟩
    obtain rfl := Option.some.inj ht
    exact absurd hid.symm (hothers j m hm run hrun)
  · exact atMostOne_after_move hk (hw.single id run) (fun hadmitted => by cases hadmitted.2) hspawned

end Moves

lemma ordered_of_start (hw : Ordered w) (operation : Operation) :
    Ordered ⟨w.shared, w.processes ++ [.new operation]⟩ := by
  refine ⟨fun n => ?_, ?_, hw.session, ?_, ?_, fun id run => ?_⟩
  · exact atMostOne_after_start (hw.owners n) fun howns => by cases howns.2.1
  · exact forall_after_start hw.owned fun n howns => by cases howns.2.1
  · refine forall_after_start (fun j m hm hstoring => ?_) fun h => by cases h
    obtain ⟨hopen, hsession, hothers⟩ := hw.pending j m hm hstoring
    exact ⟨hopen, hsession, forall_after_start hothers fun run h => by cases h⟩
  · exact forall_after_start hw.runs fun run h => by cases h
  · exact atMostOne_after_start (hw.single id run) fun hadmitted => by cases hadmitted.2

theorem ordered_of_step (hw : Ordered w) (h : (guided hasNative).step w e = some v) : Ordered v := by
  rcases stepped_of_guided h with ⟨k, hstarts⟩ | ⟨i, x, k, s, k', spawned, hk, hadvance⟩ | ⟨o, s, hend⟩
  · obtain ⟨operation, rfl⟩ := new_of_starts hstarts
    exact ordered_of_start hw operation
  · obtain ⟨hmoved, rfl⟩ := moved_of_advance hadvance
    cases hmoved.ranked with
    | allot target hoperation hphase hs hc =>
        subst hs hc
        exact ordered_of_allot hw hk hoperation
    | store target hphase hs hc =>
        subst hs hc
        exact ordered_of_store hw hk hphase
    | admitted t t' hadmits => exact ordered_of_admits hw hk hadmits
    | keep hkept => exact ordered_of_kept hw hk hkept
  · obtain ⟨n, k, outcome, -, -, rfl⟩ := finished_of_outside hend
    exact ⟨hw.owners, hw.owned, hw.session, hw.pending, hw.runs, hw.single⟩

/-- A call that checks again sees the media its session previewed, and has its target. -/
def Previewed (w : World) : Prop :=
  ∀ (i : ℕ) (c : Call), w.processes[i]? = some c → ∀ run target preview,
    c.phase = .rechecking run target preview → ∀ t, w.shared.session = some t → t.IsOf c →
      t.requestedMedia = preview ∧ t.diagnostics.target = target

lemma rechecks_of_phase {run : ℕ} {target : RecognisedClientQueue} {preview : Option MediaSpec}
    (h : c.phase = .rechecking run target preview) : c.phase.rechecks = true := by
  rw [h]
  rfl

theorem previewed_of_step (hordered : Ordered w) (hw : Previewed w)
    (h : (guided hasNative).step w e = some v) : Previewed v := by
  have hspawned : ∀ {Q : Call → Prop}, ∀ m ∈ ([] : List Call), Q m := fun m hm => by cases hm
  rcases stepped_of_guided h with ⟨k, hstarts⟩ | ⟨i, x, k, s, k', spawned, hk, hadvance⟩ | ⟨o, s, hend⟩
  · obtain ⟨operation, rfl⟩ := new_of_starts hstarts
    exact forall_after_start hw fun run target preview h => by cases h
  · obtain ⟨hmoved, rfl⟩ := moved_of_advance hadvance
    cases hmoved.ranked with
    | allot target hoperation hphase hs hc =>
        subst hs hc
        exact forall_after_move hk (fun j m _ hm => hw j m hm) (fun _ _ _ h => by cases h) hspawned
    | store target hphase hs hc =>
        subst hs hc
        refine forall_after_move hk (fun j m _ hm run target' preview hm' t ht his => ?_)
          (fun _ _ _ h => by cases h) hspawned
        obtain rfl := Option.some.inj ht
        -- nothing has been admitted to the new session
        exact absurd his.1 ((hordered.pending i k hk (by rw [hphase]; rfl)).2.2 j m hm _ his.2)
    | admitted t t' hadmits =>
        refine forall_after_move hk (fun j m _ hm run target' preview hm' u hu his => ?_)
          (fun run target' preview hk' u hu his => ?_) hspawned
        · obtain rfl := Option.some.inj (hadmits.after.symm.trans hu)
          have hle := (hordered.runs j m hm _ his.2).2 t hadmits.before
            (hadmits.sessionId'.symm.trans his.1.symm)
          rw [hadmits.run'] at hle
          omega
        · obtain rfl := Option.some.inj (hadmits.after.symm.trans hu)
          obtain ⟨rfl, rfl⟩ := hadmits.preview run target' preview hk'
          exact ⟨hadmits.media, by rw [hadmits.target]⟩
    | keep hkept =>
        refine forall_after_move hk (fun j m hne hm run target' preview hm' u hu his => ?_)
          (fun run target' preview hk' => ?_) hspawned
        · obtain ⟨t, ht, hid, hrun, hsame⟩ := hkept.session u hu
          have hist : t.IsOf m := ⟨his.1.trans hid, hrun ▸ his.2⟩
          rcases hsame with hmover | ⟨hmedia, htarget⟩
          · exact absurd (hordered.single _ _ j i m k hm hk hist hmover) hne
          · rw [hmedia, htarget]
            exact hw j m hm run target' preview hm' t ht hist
        · have hrechecks := rechecks_of_phase hk'
          rw [hkept.rechecks] at hrechecks
          cases hrechecks
  · obtain ⟨n, k, outcome, -, -, rfl⟩ := finished_of_outside hend
    exact hw

end ShaPrint.TestPrint
