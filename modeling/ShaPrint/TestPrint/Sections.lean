import ShaPrint.TestPrint.Session

/-!
What one section of a guided test print does, said once.

* `Phase.run`, `Phase.holdsGuard`, `Phase.sending`, …: what a call is in the middle of.
* `Moved`: the sections, by what they change.
* `moved_of_resume`: every section is one of them.
-/

namespace ShaPrint.TestPrint

open Queue

/-! ### Where a call is -/

/-- The run a call goes on with, once it has been admitted. -/
def Phase.run : Phase → Option ℕ
  | .inspecting run _ | .rechecking run _ _ | .waiting run _ => some run
  | _ => none

/-- Whether the call has taken its first section. -/
def Phase.begun : Phase → Bool
  | .start => false
  | _ => true

/-- Whether `open` is about to store its session. -/
def Phase.storing : Phase → Bool
  | .store _ => true
  | _ => false

/-- Whether `send` has been admitted and has not decided. -/
def Phase.rechecks : Phase → Bool
  | .rechecking _ _ _ => true
  | _ => false

/-- Whether the call holds the submission guard. -/
def Phase.holdsGuard : Phase → Bool
  | .rechecking _ _ _ | .release _ => true
  | _ => false

/-- Whether a `send` has been admitted and has not ended. -/
def Phase.sending : Phase → Bool
  | .rechecking _ _ _ | .waiting _ _ => true
  | _ => false

/-- The call was given session id `n`. -/
def Call.Owns (n : ℕ) (c : Call) : Prop :=
  (∃ target, c.operation = .open target) ∧ c.phase.begun = true ∧ c.id = n

/-- The call goes on with run `run` of session `id`. -/
def Call.Admitted (id run : ℕ) (c : Call) : Prop := c.id = id ∧ c.phase.run = some run

/-- The session is the one the call goes on with. -/
def Session.IsOf (t : Session) (c : Call) : Prop := Call.Admitted t.sessionId t.run c

instance (t : Session) (c : Call) : Decidable (t.IsOf c) :=
  inferInstanceAs (Decidable (_ ∧ _))

/-- A session after `send` has been admitted. -/
def Session.admitSend (t : Session) : Session :=
  { t with
    ready := false
    run := t.run + 1
    submission := .checking
    physicalResult := .unconfirmed
    userSymptom := none }

/-- A session after a decision against a submission. -/
def Session.block (t : Session) (diagnostics : Diagnostics) (media : Option MediaSpec) : Session :=
  { t with
    diagnostics
    requestedMedia := media
    submission := .blocked
    attempts := t.attempts ++ [.blocked] }

/-- A session after the outcome of a submission. -/
def Session.conclude (t : Session) (outcome : SubmissionOutcome) : Session :=
  { t with
    submission := outcome
    physicalResult := .unconfirmed
    userSymptom := none
    attempts := t.attempts ++ [outcome] }

/-- The outcomes of a submission. -/
def SubmissionOutcome.Concludes (outcome : SubmissionOutcome) : Prop :=
  outcome = .accepted ∨ outcome = .rejected ∨ outcome = .uncertain

/-! ### The sections -/

/-- What a section does, by the call and the input it takes. -/
inductive Moved (s : Store) (c : Call) : Input → Store → Call → Prop where
  /-- `open` takes an id. -/
  | allot (target : RecognisedClientQueue) (hoperation : c.operation = .open target)
      (hphase : c.phase = .start) :
      Moved s c .go { s with nextId := s.nextId + 1 } { c with
        id := s.nextId, phase := .store target }
  /-- `open` replaces the session. -/
  | store (target : RecognisedClientQueue) (hphase : c.phase = .store target) :
      Moved s c .go { s with session := some (.opened c.id target s.hasNative) }
        { c with phase := .refresh }
  | close (hoperation : ∃ id, c.operation = .close id) (hphase : c.phase = .start) :
      Moved s c .go { s with session := s.session.filter fun t => t.sessionId != c.id }
        { c with phase := .closed }
  | confirm (t : Session) (result : PhysicalResult) (symptom : Option UserSymptom)
      (hoperation : ∃ id, c.operation = .confirm id result symptom) (hphase : c.phase = .start)
      (hsession : s.session = some t) (hid : t.sessionId = c.id)
      (hsubmission : t.submission = .accepted ∨ t.submission = .uncertain) :
      Moved s c .go
        { s with session := some { t with physicalResult := result, userSymptom := symptom } }
        { c with phase := .done (.ok { t with physicalResult := result, userSymptom := symptom }) }
  | refuse (e : AppError) (hphase : c.phase = .start ∨ c.phase = .refresh)
      (hoperation : ∀ target, c.operation = .open target → c.phase = .refresh) :
      Moved s c .go s { c with phase := .refused e }
  | admitRefresh (t : Session)
      (hphase : (c.phase = .start ∧ ∃ id, c.operation = .refresh id) ∨ c.phase = .refresh)
      (hsession : s.session = some t) (hid : t.sessionId = c.id)
      (hsubmission : t.submission ≠ .checking) :
      Moved s c .go { s with session := some { t with ready := false, run := t.run + 1 } }
        { c with phase := .inspecting (t.run + 1) t.diagnostics.target }
  | admitSend (t : Session) (hoperation : ∃ id, c.operation = .send id) (hphase : c.phase = .start)
      (hsession : s.session = some t) (hid : t.sessionId = c.id) (hready : t.canSend = true)
      (hfree : s.submitting = false) :
      Moved s c .go { s with submitting := true, session := some t.admitSend }
        { c with phase := .rechecking (t.run + 1) t.diagnostics.target t.requestedMedia }
  /-- The session is closed or superseded when `refresh` or a submission ends. -/
  | stale (run : ℕ) (x : Input) (hrun : c.phase.run = some run)
      (hguard : c.phase.holdsGuard = false) (hgone : s.current c run = none) :
      Moved s c x s { c with phase := .done (.error stale) }
  | publish (t : Session) (run : ℕ) (target : RecognisedClientQueue) (checks : List LocalFinding)
      (media : Option MediaSpec) (x : Input) (hphase : c.phase = .inspecting run target)
      (hsession : s.session = some t) (hid : t.sessionId = c.id) (hrun : t.run = run) :
      Moved s c x
        { s with session := some { t with
            diagnostics := ⟨target, checks⟩, requestedMedia := media, ready := !s.submitting } }
        { c with phase := .done (.ok { t with
            diagnostics := ⟨target, checks⟩, requestedMedia := media, ready := !s.submitting }) }
  /-- The session is closed or superseded when `send` has checked again. -/
  | staleSend (run : ℕ) (target : RecognisedClientQueue) (preview : Option MediaSpec) (x : Input)
      (hphase : c.phase = .rechecking run target preview) (hgone : s.current c run = none) :
      Moved s c x s { c with phase := .release (.error stale) }
  | block (t : Session) (run : ℕ) (target : RecognisedClientQueue) (preview : Option MediaSpec)
      (checks : List LocalFinding) (media : Option MediaSpec) (x : Input)
      (hphase : c.phase = .rechecking run target preview)
      (hsession : s.session = some t) (hid : t.sessionId = c.id) (hrun : t.run = run) :
      Moved s c x { s with session := some (t.block ⟨target, checks⟩ media) }
        { c with phase := .release (.ok (t.block ⟨target, checks⟩ media)) }
  | submit (t : Session) (run : ℕ) (target : RecognisedClientQueue) (checks : List LocalFinding)
      (m : MediaSpec) (hphase : c.phase = .rechecking run target (some m))
      (hsession : s.session = some t) (hid : t.sessionId = c.id) (hrun : t.run = run)
      (heligible : (Diagnostics.mk target checks).isRepairEligible = true) :
      Moved s c (.inspected checks (some m))
        { s with
          session := some { t with diagnostics := ⟨target, checks⟩, requestedMedia := some m }
          workers := s.workers ++ [⟨c.id, target, m, none⟩] }
        { c with phase := .waiting run s.workers.length, caused := c.caused ++ [s.workers.length] }
  | release (result : Except AppError Session) (hphase : c.phase = .release result) :
      Moved s c .go { s with submitting := false } { c with phase := .done result }
  | record (t : Session) (run n : ℕ) (outcome : SubmissionOutcome) (x : Input)
      (hphase : c.phase = .waiting run n) (houtcome : outcome.Concludes)
      (hsession : s.session = some t) (hid : t.sessionId = c.id) (hrun : t.run = run) :
      Moved s c x { s with session := some (t.conclude outcome) }
        { c with phase := .done (.ok (t.conclude outcome)) }
  | drop (run : ℕ) (hrun : c.phase.run = some run) (hguard : c.phase.holdsGuard = false) :
      Moved s c .dropped s { c with phase := .dropped }
  | dropSend (run : ℕ) (target : RecognisedClientQueue) (preview : Option MediaSpec)
      (hphase : c.phase = .rechecking run target preview) :
      Moved s c .dropped { s with submitting := false } { c with phase := .dropped }

variable {s s' : Store} {c c' : Call} {x : Input}

/-- The open session, if it passes a test of the section. -/
lemma filter_session_eq_some {p : Session → Bool} {t : Session}
    (h : s.session.filter p = some t) : s.session = some t ∧ p t = true :=
  Option.filter_eq_some_iff.mp h

lemma current_eq_some {run : ℕ} {t : Session} (h : s.current c run = some t) :
    s.session = some t ∧ t.sessionId = c.id ∧ t.run = run := by
  obtain ⟨hsession, hp⟩ := filter_session_eq_some h
  rw [Bool.and_eq_true, beq_iff_eq, beq_iff_eq] at hp
  exact ⟨hsession, hp⟩

lemma current_eq_none {run : ℕ} (h : s.current c run = none) {t : Session}
    (hsession : s.session = some t) : ¬(t.sessionId = c.id ∧ t.run = run) := by
  rw [Store.current, hsession, Option.filter_eq_none_iff] at h
  simpa using h t rfl

lemma joinedOutcome_concludes (ended : Option SubmissionOutcome) :
    (joinedOutcome ended).Concludes := by
  unfold joinedOutcome
  split
  · exact .inl rfl
  · exact .inr (.inl rfl)
  · exact .inr (.inr rfl)

lemma moved_of_refresh
    (hphase : (c.phase = .start ∧ ∃ id, c.operation = .refresh id) ∨ c.phase = .refresh)
    (h : refresh s c = (s', c')) : Moved s c .go s' c' := by
  unfold refresh at h
  split at h
  · obtain ⟨rfl, rfl⟩ := Prod.mk.inj h
    rcases hphase with ⟨hstart, id, hoperation⟩ | hrefresh
    · exact .refuse _ (.inl hstart) fun target hopen => by rw [hoperation] at hopen; cases hopen
    · exact .refuse _ (.inr hrefresh) fun _ _ => hrefresh
  · rename_i t ht
    obtain ⟨hsession, hp⟩ := filter_session_eq_some ht
    rw [Bool.and_eq_true, beq_iff_eq, bne_iff_ne] at hp
    obtain ⟨rfl, rfl⟩ := Prod.mk.inj h
    exact .admitRefresh t hphase hsession hp.1 hp.2

lemma moved_of_send {id : ℕ} (hphase : c.phase = .start) (hoperation : c.operation = .send id)
    (h : send s c = (s', c')) : Moved s c .go s' c' := by
  have hrefuse : ∀ e, Moved s c .go s { c with phase := .refused e } := fun e =>
    .refuse e (.inl hphase) fun target hopen => by rw [hoperation] at hopen; cases hopen
  unfold send at h
  split at h
  · split at h
    · obtain ⟨rfl, rfl⟩ := Prod.mk.inj h
      exact hrefuse _
    · rename_i t ht
      obtain ⟨hsession, hp⟩ := filter_session_eq_some ht
      rw [Bool.and_eq_true, beq_iff_eq] at hp
      split at h
      · obtain ⟨rfl, rfl⟩ := Prod.mk.inj h
        exact hrefuse _
      · rename_i hfree
        obtain ⟨rfl, rfl⟩ := Prod.mk.inj h
        exact .admitSend t ⟨id, hoperation⟩ hphase hsession hp.1 hp.2 (by simpa using hfree)
  · obtain ⟨rfl, rfl⟩ := Prod.mk.inj h
    exact hrefuse _

lemma moved_of_confirm {id : ℕ} {result : PhysicalResult} {symptom : Option UserSymptom}
    (hphase : c.phase = .start) (hoperation : c.operation = .confirm id result symptom)
    (h : confirm s c result symptom = (s', c')) : Moved s c .go s' c' := by
  have hrefuse : ∀ e, Moved s c .go s { c with phase := .refused e } := fun e =>
    .refuse e (.inl hphase) fun target hopen => by rw [hoperation] at hopen; cases hopen
  unfold confirm at h
  split at h
  · obtain ⟨rfl, rfl⟩ := Prod.mk.inj h
    exact hrefuse _
  · rename_i t ht
    obtain ⟨hsession, hp⟩ := filter_session_eq_some ht
    simp only [Bool.and_eq_true, Bool.or_eq_true, beq_iff_eq] at hp
    split at h
    · obtain ⟨rfl, rfl⟩ := Prod.mk.inj h
      exact hrefuse _
    · obtain ⟨rfl, rfl⟩ := Prod.mk.inj h
      exact .confirm t result symptom ⟨id, hoperation⟩ hphase hsession hp.1 hp.2

lemma moved_of_begin (hphase : c.phase = .start) (h : begin s c = (s', c')) :
    Moved s c .go s' c' := by
  unfold begin at h
  split at h
  · rename_i target hoperation
    obtain ⟨rfl, rfl⟩ := Prod.mk.inj h
    exact .allot target hoperation hphase
  · rename_i id hoperation
    obtain ⟨rfl, rfl⟩ := Prod.mk.inj h
    exact .close ⟨id, hoperation⟩ hphase
  · rename_i id hoperation
    exact moved_of_refresh (.inl ⟨hphase, id, hoperation⟩) h
  · rename_i id hoperation
    exact moved_of_send hphase hoperation h
  · rename_i id result symptom hoperation
    exact moved_of_confirm hphase hoperation h

lemma moved_of_publish {run : ℕ} {target : RecognisedClientQueue} {checks : List LocalFinding}
    {media : Option MediaSpec} (hphase : c.phase = .inspecting run target)
    (h : publish s c run ⟨target, checks⟩ media = (s', c')) : Moved s c x s' c' := by
  unfold publish at h
  split at h
  · rename_i hgone
    obtain ⟨rfl, rfl⟩ := Prod.mk.inj h
    exact .stale run x (by rw [hphase]; rfl) (by rw [hphase]; rfl) hgone
  · rename_i t ht
    obtain ⟨hsession, hid, hrun⟩ := current_eq_some ht
    obtain ⟨rfl, rfl⟩ := Prod.mk.inj h
    exact .publish t run target checks media x hphase hsession hid hrun

lemma moved_of_record {run n : ℕ} {outcome : SubmissionOutcome} (hphase : c.phase = .waiting run n)
    (houtcome : outcome.Concludes) (h : record s c run outcome = (s', c')) : Moved s c x s' c' := by
  unfold record at h
  split at h
  · rename_i hgone
    obtain ⟨rfl, rfl⟩ := Prod.mk.inj h
    exact .stale run x (by rw [hphase]; rfl) (by rw [hphase]; rfl) hgone
  · rename_i t ht
    obtain ⟨hsession, hid, hrun⟩ := current_eq_some ht
    obtain ⟨rfl, rfl⟩ := Prod.mk.inj h
    exact .record t run n outcome x hphase houtcome hsession hid hrun

lemma nativeMedia_eq_some {media : Option MediaSpec} {m : MediaSpec}
    (h : nativeMedia s media = some m) : media = some m := by
  unfold nativeMedia at h
  split at h
  · exact h
  · cases h

lemma moved_of_decideToSend {run : ℕ} {target : RecognisedClientQueue}
    {preview media : Option MediaSpec} {checks : List LocalFinding}
    (hphase : c.phase = .rechecking run target preview)
    (h : decideToSend s c run preview ⟨target, checks⟩ (nativeMedia s media) = (s', c')) :
    Moved s c (.inspected checks media) s' c' := by
  unfold decideToSend at h
  split at h
  · rename_i hgone
    obtain ⟨rfl, rfl⟩ := Prod.mk.inj h
    exact .staleSend run target preview _ hphase hgone
  · rename_i t ht
    obtain ⟨hsession, hid, hrun⟩ := current_eq_some ht
    have hblock := Moved.block t run target preview checks (nativeMedia s media)
      (.inspected checks media) hphase hsession hid hrun
    cases hmedia : nativeMedia s media with
    | none =>
        simp only [hmedia] at h hblock
        obtain ⟨rfl, rfl⟩ := Prod.mk.inj h
        exact hblock
    | some m =>
        simp only [hmedia] at h hblock
        split at h
        · rename_i hdecision
          rw [Bool.and_eq_true, beq_iff_eq] at hdecision
          obtain ⟨heligible, rfl⟩ := hdecision
          obtain rfl := nativeMedia_eq_some hmedia
          obtain ⟨rfl, rfl⟩ := Prod.mk.inj h
          exact .submit t run target checks m hphase hsession hid hrun heligible
        · obtain ⟨rfl, rfl⟩ := Prod.mk.inj h
          exact hblock

theorem moved_of_resume (h : resume s c x = some (s', c')) : Moved s c x s' c' := by
  unfold resume at h
  split at h
  case h_1 hphase => exact moved_of_begin hphase (Option.some.inj h)
  case h_2 target hphase =>
    obtain ⟨rfl, rfl⟩ := Prod.mk.inj (Option.some.inj h)
    exact .store target hphase
  case h_3 hphase => exact moved_of_refresh (.inr hphase) (Option.some.inj h)
  case h_4 run target checks media hphase => exact moved_of_publish hphase (Option.some.inj h)
  case h_5 run target preview checks media hphase =>
    exact moved_of_decideToSend hphase (Option.some.inj h)
  case h_6 result hphase =>
    obtain ⟨rfl, rfl⟩ := Prod.mk.inj (Option.some.inj h)
    exact .release result hphase
  case h_7 run n hphase =>
    obtain ⟨ended, -, hrecord⟩ := Option.map_eq_some_iff.mp h
    exact moved_of_record hphase (joinedOutcome_concludes ended) hrecord
  case h_8 run n hphase =>
    exact moved_of_record hphase (.inr (.inr rfl)) (Option.some.inj h)
  case h_9 run target hphase =>
    obtain ⟨rfl, rfl⟩ := Prod.mk.inj (Option.some.inj h)
    exact .drop run (by rw [hphase]; rfl) (by rw [hphase]; rfl)
  case h_10 run n hphase =>
    obtain ⟨rfl, rfl⟩ := Prod.mk.inj (Option.some.inj h)
    exact .drop run (by rw [hphase]; rfl) (by rw [hphase]; rfl)
  case h_11 run target preview hphase =>
    obtain ⟨rfl, rfl⟩ := Prod.mk.inj (Option.some.inj h)
    exact .dropSend run target preview hphase
  case h_12 => cases h

end ShaPrint.TestPrint
