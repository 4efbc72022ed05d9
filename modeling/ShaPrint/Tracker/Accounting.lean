import ShaPrint.Tracker.Moves

/-!
What the tracker's counters and timestamps say about the leases.

* `Accounted`: the counters count the live leases, so no subtraction saturates.
* `JobLiveAt`: at an instant of a run, a promoted lease was live; `Dated` bounds
  these instants by the timestamps once nothing is promoted any more.
* `drain_holds_iff`: after a drain that returned `Ok`, nothing is promoted until
  a `cancel_drain` exactly if the tracker was still draining.
* `tracker_accounting`: all of it, for every run.
-/

namespace ShaPrint.Tracker

/-! ### The counters -/

/-- The counters count the live leases. -/
structure Accounted (w : World) : Prop where
  jobs : w.tracker.activeJobs = w.liveJobs
  requests : w.tracker.activeRequests = w.liveRequests

/-- The counter a lease is counted by: the one its promotion or release takes from. -/
def TrackerState.counterOf (st : TrackerState) (isPrintJob : Bool) : ℕ :=
  if isPrintJob then st.activeJobs else st.activeRequests

/-- Removing a lease takes one off the count of its kind. -/
lemma count_eraseIdx_add {leases : List Bool} {i : ℕ} {b : Bool} (h : leases[i]? = some b)
    (c : Bool) : (leases.eraseIdx i).count c + (if b = c then 1 else 0) = leases.count c := by
  obtain ⟨hi, rfl⟩ := List.getElem?_eq_some_iff.mp h
  have hperm := List.getElem_cons_eraseIdx_perm hi
  rw [← hperm.count_eq c, List.count_cons]
  simp

/-- Promoting a lease moves it from one count to the other. -/
lemma count_set_true {leases : List Bool} {i : ℕ} (h : leases[i]? = some false) :
    (leases.set i true).count true = leases.count true + 1
      ∧ (leases.set i true).count false + 1 = leases.count false := by
  obtain ⟨hi, hb⟩ := List.getElem?_eq_some_iff.mp h
  have hpos : 0 < leases.count false :=
    List.count_pos_iff.mpr (hb ▸ List.getElem_mem hi)
  rw [List.count_set hi, List.count_set hi, hb]
  constructor
  · simp
  · simpa using Nat.sub_add_cancel hpos

lemma TrackerState.release_activeJobs (st : TrackerState) (b : Bool) (now : ℕ) :
    (st.release b now).activeJobs = st.activeJobs - (if b then 1 else 0) := by
  cases b with
  | false => rfl
  | true =>
      simp only [TrackerState.release, ↓reduceIte]
      split <;> rfl

lemma TrackerState.release_activeRequests (st : TrackerState) (b : Bool) (now : ℕ) :
    (st.release b now).activeRequests = st.activeRequests - (if b then 0 else 1) := by
  cases b with
  | false => rfl
  | true =>
      simp only [TrackerState.release, ↓reduceIte]
      split <;> rfl

lemma TrackerState.release_acceptingJobs (st : TrackerState) (b : Bool) (now : ℕ) :
    (st.release b now).acceptingJobs = st.acceptingJobs := by
  cases b with
  | false => rfl
  | true =>
      simp only [TrackerState.release, ↓reduceIte]
      split <;> rfl

/-- The accounting survives every event. -/
lemma Accounted.of_step {w t : World} {e : Event} (hw : Accounted w)
    (h : step w e = some t) : Accounted t := by
  obtain ⟨hjobs, hrequests⟩ := hw
  simp only [World.liveJobs, World.liveRequests] at hjobs hrequests
  cases move_of_step h with
  | quiet _ htracker hleases | tick _ htracker hleases | begin _ htracker hleases
  | cancel _ htracker hleases | issue _ _ _ _ htracker hleases
  | dropPermit _ _ htracker hleases =>
      constructor
      · rw [World.liveJobs, hleases, htracker]
        exact hjobs
      · rw [World.liveRequests, hleases, htracker]
        exact hrequests
  | admission _ _ htracker hleases =>
      constructor
      · simp [World.liveJobs, hleases, htracker, hjobs]
      · simp [World.liveRequests, hleases, htracker, hrequests]
  | promote i hlease _ _ _ htracker hleases =>
      obtain ⟨htrue, hfalse⟩ := count_set_true hlease
      constructor
      · rw [World.liveJobs, hleases, htracker, htrue, ← hjobs]
      · rw [World.liveRequests, hleases, htracker]
        dsimp only
        omega
  | release i b hlease _ htracker hleases =>
      have htrue := count_eraseIdx_add hlease true
      have hfalse := count_eraseIdx_add hlease false
      constructor
      · rw [World.liveJobs, hleases, htracker, TrackerState.release_activeJobs]
        cases b <;> simp at htrue ⊢ <;> omega
      · rw [World.liveRequests, hleases, htracker, TrackerState.release_activeRequests]
        cases b <;> simp at hfalse ⊢ <;> omega

/-- In every state reached, the counters count the live leases. -/
theorem accounted (now : ℕ) {es : List Event} {s : World}
    (h : (tracker now).run es = some s) : Accounted s :=
  (tracker now).invariant (I := Accounted) ⟨rfl, rfl⟩ (fun _ _ _ hw => hw.of_step) h

/-- A live lease is counted, so what takes it off its counter does not saturate. -/
lemma Accounted.counterOf_pos {w : World} (hw : Accounted w) {i : ℕ} {b : Bool}
    (h : w.leases[i]? = some b) : 0 < w.tracker.counterOf b := by
  have hcount : 0 < w.leases.count b := List.count_pos_iff.mpr (List.mem_of_getElem? h)
  cases b with
  | false => simpa [TrackerState.counterOf, hw.requests, World.liveRequests] using hcount
  | true => simpa [TrackerState.counterOf, hw.jobs, World.liveJobs] using hcount

/-- Zero counters mean that no lease is live. -/
lemma Accounted.leases_eq_nil {w : World} (hw : Accounted w) (hjobs : w.tracker.activeJobs = 0)
    (hrequests : w.tracker.activeRequests = 0) : w.leases = [] := by
  rw [List.eq_nil_iff_forall_not_mem]
  intro b hb
  have hcount : 0 < w.leases.count b := List.count_pos_iff.mpr hb
  have h1 := hw.jobs
  have h2 := hw.requests
  simp only [World.liveJobs, World.liveRequests] at h1 h2
  cases b <;> omega

/-! ### The instants at which a job was live -/

/-- A promoted lease was live at the instant `τ` of the run `es`. -/
def JobLiveAt (now : ℕ) (es : List Event) (τ : ℕ) : Prop :=
  ∃ u e v, (tracker now).Took es u e v ∧ 0 < u.liveJobs ∧ u.clock ≤ τ ∧ τ ≤ v.clock

/-- Every instant at which a job was live is past, and dated by the timestamps
once no job is live. -/
structure Dated (w : World) (τ : ℕ) : Prop where
  past : τ ≤ w.clock
  busy : w.tracker.activeJobs = 0 → τ ≤ w.tracker.lastBusyAt
  completed : w.tracker.activeJobs = 0 → ∃ c, w.tracker.lastCompletedAt = some c ∧ τ ≤ c

/-- A release of a live lease dates every past instant, if the last job is gone. -/
lemma Dated.of_release {w t : World} {b : Bool} {τ : ℕ}
    (hw : Dated w τ) (hclock : t.clock = w.clock)
    (htracker : t.tracker = w.tracker.release b w.clock) : Dated t τ := by
  have hpast : τ ≤ t.clock := hclock ▸ hw.past
  cases b with
  | false =>
      simp only [TrackerState.release, Bool.false_eq_true, ↓reduceIte] at htracker
      exact ⟨hpast, fun hz => by rw [htracker] at hz ⊢; exact hw.busy hz,
        fun hz => by rw [htracker] at hz ⊢; exact hw.completed hz⟩
  | true =>
      simp only [TrackerState.release, ↓reduceIte] at htracker
      split at htracker
      · exact ⟨hpast, fun _ => by rw [htracker]; exact hw.past,
          fun _ => ⟨w.clock, by rw [htracker], hw.past⟩⟩
      · rename_i hleft
        exact ⟨hpast, fun hz => absurd (by rw [htracker] at hz; exact hz) hleft,
          fun hz => absurd (by rw [htracker] at hz; exact hz) hleft⟩

/-- What a state dates, the next one dates. -/
lemma Dated.of_step {w t : World} {e : Event} {τ : ℕ} (hw : Dated w τ)
    (h : step w e = some t) : Dated t τ := by
  have hpast : τ ≤ t.clock := hw.past.trans (clock_le_of_step h)
  cases move_of_step h with
  | quiet _ htracker | tick _ htracker | begin _ htracker | cancel _ htracker
  | admission _ _ htracker | issue _ _ _ _ htracker | dropPermit _ _ htracker =>
      exact ⟨hpast, fun hz => by rw [htracker] at hz ⊢; exact hw.busy hz,
        fun hz => by rw [htracker] at hz ⊢; exact hw.completed hz⟩
  | promote _ _ _ _ _ htracker =>
      exact ⟨hpast, fun hz => by simp [htracker] at hz, fun hz => by simp [htracker] at hz⟩
  | release i b hlease hclock htracker => exact .of_release hw hclock htracker

/-- A step out of a state with a live job dates its own instants. -/
lemma dated_of_live {w t : World} {e : Event} {τ : ℕ} (hcount : Accounted w)
    (h : step w e = some t) (hlive : 0 < w.liveJobs) (hτ : τ ≤ t.clock) : Dated t τ := by
  have hactive : 0 < w.tracker.activeJobs := hcount.jobs ▸ hlive
  cases move_of_step h with
  | quiet _ htracker | tick _ htracker | begin _ htracker | cancel _ htracker
  | admission _ _ htracker | issue _ _ _ _ htracker | dropPermit _ _ htracker =>
      have hkept : t.tracker.activeJobs ≠ 0 := by rw [htracker]; exact hactive.ne'
      exact ⟨hτ, fun hz => absurd hz hkept, fun hz => absurd hz hkept⟩
  | promote _ _ _ _ _ htracker =>
      exact ⟨hτ, fun hz => by simp [htracker] at hz, fun hz => by simp [htracker] at hz⟩
  | release i b hlease hclock htracker =>
      have hw : Dated w τ := ⟨hclock ▸ hτ, fun hz => absurd hz hactive.ne',
        fun hz => absurd hz hactive.ne'⟩
      exact .of_release hw hclock htracker

/-- In every state reached, every instant at which a job was live is dated. -/
theorem dated_of_run (now : ℕ) {es : List Event} {s : World}
    (h : (tracker now).run es = some s) : ∀ τ, JobLiveAt now es τ → Dated s τ := by
  refine (tracker now).run_induction (P := fun es s => ∀ τ, JobLiveAt now es τ → Dated s τ)
    ?_ ?_ h
  · rintro τ ⟨u, e, v, htook, -⟩
    exact absurd htook ((tracker now).not_took_nil u e v)
  · rintro es s e t hs ih ht τ ⟨u, f, v, htook, hlive, hle, hτ⟩
    rcases ((tracker now).took_concat hs ht).mp htook with hbefore | ⟨rfl, rfl, rfl⟩
    · exact (ih τ ⟨u, f, v, hbefore, hlive, hle, hτ⟩).of_step ht
    · exact dated_of_live (accounted now hs) ht hlive hτ

/-! ### What a drain leaves behind -/

/-- From `w` on, nothing is promoted before the next `cancel_drain`. -/
def HoldsPromotions (now : ℕ) (w : World) : Prop :=
  ∀ es e u v, (∀ f ∈ es, f.cancelsDrain = false) → (tracker now).runFrom w es = some u →
    step u e = some v → v.liveJobs ≤ u.liveJobs

/-- No promotion while draining. -/
lemma liveJobs_le_of_step {w t : World} {e : Event} (hw : w.tracker.draining = true)
    (h : step w e = some t) : t.liveJobs ≤ w.liveJobs := by
  simp only [World.liveJobs]
  cases move_of_step h with
  | quiet _ _ hleases | tick _ _ hleases | begin _ _ hleases | cancel _ _ hleases
  | issue _ _ _ _ _ hleases | dropPermit _ _ _ hleases => rw [hleases]
  | admission _ _ _ hleases => rw [hleases]; simp
  | promote _ _ hdraining => simp [hw] at hdraining
  | release i b hlease _ _ hleases =>
      rw [hleases]
      exact (Nat.le_add_right _ _).trans (count_eraseIdx_add hlease true).le

/-- A tracker that is draining promotes nothing until `cancel_drain`. -/
lemma holdsPromotions_of_draining (now : ℕ) {w : World} (hw : w.tracker.draining = true) :
    HoldsPromotions now w := by
  intro es e u v hes hu hv
  have hdraining : u.tracker.draining = true :=
    (tracker now).runFrom_invariant (I := fun w => w.tracker.draining = true)
      (fun _ _ _ hs he ht => draining_of_step ht he hs) hw hes hu
  exact liveJobs_le_of_step hdraining hv

/-- Requests are refused only while a permit is live. -/
lemma permit_of_refusing {now : ℕ} {es : List Event} {s : World}
    (h : (tracker now).run es = some s) : s.tracker.acceptingJobs = false → 0 < s.permits := by
  refine (tracker now).invariant
    (I := fun w => w.tracker.acceptingJobs = false → 0 < w.permits) (fun h => nomatch h) ?_ h
  intro w e t hw ht hrefuses
  cases move_of_step ht with
  | quiet _ htracker _ hpermits | tick _ htracker _ hpermits | begin _ htracker _ hpermits =>
      rw [htracker] at hrefuses
      rw [hpermits]
      exact hw hrefuses
  | admission haccepting _ htracker | promote _ _ _ haccepting _ htracker =>
      rw [htracker] at hrefuses
      exact absurd hrefuses (by simp [haccepting])
  | release i b _ _ htracker _ hpermits =>
      rw [htracker, TrackerState.release_acceptingJobs] at hrefuses
      rw [hpermits]
      exact hw hrefuses
  | cancel _ htracker | dropPermit _ _ htracker =>
      rw [htracker] at hrefuses
      cases hrefuses
  | issue _ _ _ _ _ _ hpermits =>
      rw [hpermits]
      exact Nat.succ_pos _

/-- An accepting tracker that is not draining and has no lease admits a request
and promotes it. -/
lemma promotes_of_accepting (now : ℕ) {w : World} (hleases : w.leases = [])
    (hdraining : w.tracker.draining = false) (haccepting : w.tracker.acceptingJobs = true) :
    ∃ u v, (tracker now).runFrom w [.tryAcquireRequest] = some u
      ∧ step u (.markPrintJob 0) = some v ∧ u.liveJobs < v.liveJobs := by
  refine ⟨{ w with
      tracker := { w.tracker with activeRequests := w.tracker.activeRequests + 1 }
      leases := [false] }, _, ?_, rfl, ?_⟩
  · rw [StepSystem.runFrom_singleton]
    simp [tracker, step, TrackerState.tryAcquireRequest, haccepting, hleases]
  · simp [World.markPrintJob, TrackerState.promoteRequest, World.liveJobs, hdraining, haccepting]

/-- A tracker that is not draining and has no lease promotes a request without a
`cancel_drain`, once its permit is gone. -/
lemma not_holdsPromotions {now : ℕ} {w : World} (hleases : w.leases = [])
    (hdraining : w.tracker.draining = false)
    (hpermit : w.tracker.acceptingJobs = false → 0 < w.permits) : ¬ HoldsPromotions now w := by
  intro hholds
  cases haccepting : w.tracker.acceptingJobs with
  | true =>
      obtain ⟨u, v, hu, hv, hlt⟩ := promotes_of_accepting now hleases hdraining haccepting
      exact absurd (hholds _ _ u v (by simp [Event.cancelsDrain]) hu hv) (by omega)
  | false =>
      -- the permit that closed admission is dropped first
      have hdrop : step w .dropPermit = some { w with
          tracker := w.tracker.dropPermit, permits := w.permits - 1 } := by
        simp [step, hpermit haccepting]
      obtain ⟨u, v, hu, hv, hlt⟩ := promotes_of_accepting now
        (w := { w with tracker := w.tracker.dropPermit, permits := w.permits - 1 })
        hleases hdraining rfl
      refine absurd (hholds [.dropPermit, .tryAcquireRequest] _ u v
        (by simp [Event.cancelsDrain]) ?_ hv) (by omega)
      rw [StepSystem.runFrom_cons, show (tracker now).step w .dropPermit = _ from hdrop]
      exact hu

/-- After a drain that returned `Ok`, nothing is promoted until `cancel_drain`
exactly if the tracker was still draining when the drain read the counters. -/
lemma drain_holds_iff {now : ℕ} {es : List Event} {s t : World} {i : ℕ}
    (h : (tracker now).run es = some s) (hreturns : DrainReturns s i t) :
    HoldsPromotions now t ↔ s.tracker.draining = true := by
  obtain ⟨hjobs, hrequests, htracker, hleases, hpermits⟩ := drainReturns_spec hreturns
  constructor
  · intro hholds
    by_contra hdraining
    refine not_holdsPromotions ?_ ?_ ?_ hholds
    · rw [hleases, (accounted now h).leases_eq_nil hjobs hrequests]
    · rw [htracker]
      simpa using hdraining
    · rw [htracker, hpermits]
      exact permit_of_refusing h
  · intro hdraining
    exact holdsPromotions_of_draining now (by rw [htracker, hdraining])

/-- The tracker is still draining when a drain reads the counters, if nothing
cancelled since the drain began. -/
theorem draining_since_drain (now : ℕ) {es : List Event} {timeout : ℕ} {s t u : World}
    (hbegin : step s (.drain timeout) = some t) (hes : ∀ e ∈ es, e.cancelsDrain = false)
    (hu : (tracker now).runFrom t es = some u) : u.tracker.draining = true := by
  refine (tracker now).runFrom_invariant (I := fun w => w.tracker.draining = true)
    (fun _ _ _ hs he ht => draining_of_step ht he hs) ?_ hes hu
  obtain rfl := Option.some.inj hbegin
  rfl

/-! ### The tracker's accounting -/

/-- **The tracker accounts for its leases.** In every state reached, the counters
count the live leases and no subtraction would saturate; a drain that returns
`Ok` has found both at zero, and holds promotions until `cancel_drain` exactly
if the tracker was still draining when it read them; and an idle answer means
that no job was live within the duration asked about. -/
theorem tracker_accounting (now : ℕ) {es : List Event} {s : World}
    (h : (tracker now).run es = some s) :
    (s.tracker.activeJobs = s.liveJobs ∧ s.tracker.activeRequests = s.liveRequests)
      ∧ (∀ (i : ℕ) (isPrintJob : Bool), s.leases[i]? = some isPrintJob → 0 < s.tracker.counterOf isPrintJob)
      ∧ (∀ i t, DrainReturns s i t →
          s.tracker.activeJobs = 0 ∧ s.tracker.activeRequests = 0
            ∧ (HoldsPromotions now t ↔ s.tracker.draining = true))
      ∧ (∀ duration, s.tracker.isIdleFor duration s.clock = true →
          s.liveJobs = 0 ∧ ∀ τ, s.clock < τ + duration → ¬ JobLiveAt now es τ) := by
  have hcount := accounted now h
  refine ⟨⟨hcount.jobs, hcount.requests⟩, fun i b hlease => hcount.counterOf_pos hlease,
    fun i t hreturns => ?_, fun duration hidle => ?_⟩
  · obtain ⟨hjobs, hrequests, -⟩ := drainReturns_spec hreturns
    exact ⟨hjobs, hrequests, drain_holds_iff h hreturns⟩
  · simp only [TrackerState.isIdleFor, Bool.and_eq_true, beq_iff_eq, decide_eq_true_eq] at hidle
    obtain ⟨hzero, hquiet⟩ := hidle
    refine ⟨hcount.jobs ▸ hzero, fun τ hτ hlive => ?_⟩
    have hdated := dated_of_run now h τ hlive
    have hpast := hdated.past
    have hbusy := hdated.busy hzero
    omega

/-- A tracker whose only drain has returned. -/
def drained : World where
  clock := 0
  tracker := { TrackerState.new 0 with draining := true }
  leases := []
  permits := 0
  drains := [⟨100, .cleared⟩]

theorem drained_holdsPromotions : HoldsPromotions 0 drained := by
  have hrun : (tracker 0).run [.drain 100, .drainListen 0] = some _ := rfl
  exact ((tracker_accounting 0 hrun).2.2.1 0 drained ⟨rfl, rfl⟩).2.2.mpr rfl

/-- Two drains overlap and one times out: the job finishes afterwards and the
other drain returns `Ok`, but the tracker promotes again. -/
theorem overlapping_drains_promote :
    ∃ es s t, (tracker 0).run es = some s ∧ DrainReturns s 0 t ∧ ¬ HoldsPromotions 0 t := by
  refine ⟨[.tryAcquireRequest, .markPrintJob 0, .drain 100, .drainListen 0, .drainObserve 0,
    .drain 10, .drainListen 1, .drainObserve 1, .tick 10, .drainTimeout 1, .dropLease 0,
    .drainWake 0, .drainListen 0], _, _, rfl, ⟨rfl, rfl⟩, fun hholds => ?_⟩
  exact absurd (hholds [.tryAcquireRequest] (.markPrintJob 0) _ _ (by decide) rfl rfl) (by decide)

end ShaPrint.Tracker
