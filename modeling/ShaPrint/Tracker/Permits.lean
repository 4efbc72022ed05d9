import ShaPrint.Tracker.Accounting

/-!
What a live restart permit excludes.

A permit closes admission through a flag that `cancel_drain` opens again,
whether or not a permit is live: by the call itself, or by a drain that times
out.

* `Exclusive`: one permit at most, and admission is closed exactly while it is
  live; the invariant of the runs that never cancel a drain under a permit.
* `permit_exclusion`: what holds of every run, what holds of those runs, and
  that a cancelled drain under a live permit readmits requests.
-/

namespace ShaPrint.Tracker

/-- The step admits a request. -/
def Admits (w t : World) : Prop := w.leases.length < t.leases.length

/-- The step issues a permit. -/
def IssuesPermit (w t : World) : Prop := w.permits < t.permits

/-- The event does not cancel a drain while a permit is live. -/
def RespectsPermit (w : World) (e : Event) : Prop := e.cancelsDrain = true → w.permits = 0

/-- At most one permit is live, admission is closed exactly while one is, and no
lease is live then. -/
structure Exclusive (w : World) : Prop where
  accepting : w.tracker.acceptingJobs = true ↔ w.permits = 0
  single : w.permits ≤ 1
  idle : 0 < w.permits → w.leases = []

/-- An admitted request finds admission open. -/
lemma accepting_of_admits {w t : World} {e : Event} (h : step w e = some t)
    (hadmits : Admits w t) : w.tracker.acceptingJobs = true := by
  simp only [Admits] at hadmits
  cases move_of_step h with
  | admission haccepting => exact haccepting
  | quiet _ _ hleases | tick _ _ hleases | begin _ _ hleases | cancel _ _ hleases
  | issue _ _ _ _ _ hleases | dropPermit _ _ _ hleases => simp [hleases] at hadmits
  | promote _ _ _ _ _ _ hleases => simp [hleases] at hadmits
  | release _ _ _ _ _ hleases =>
      rw [hleases] at hadmits
      exact absurd (List.length_eraseIdx_le _ _) hadmits.not_ge

/-- A permit is issued where admission is open, both counters are zero and the
cooldown is over. -/
lemma issued_of_issuesPermit {w t : World} {e : Event} (h : step w e = some t)
    (hissues : IssuesPermit w t) :
    w.tracker.acceptingJobs = true ∧ w.tracker.isClear = true
      ∧ w.tracker.cooledDown drainCooldown w.clock = true := by
  simp only [IssuesPermit] at hissues
  cases move_of_step h with
  | issue haccepting hclear hcooled => exact ⟨haccepting, hclear, hcooled⟩
  | quiet _ _ _ hpermits | tick _ _ _ hpermits | begin _ _ _ hpermits | cancel _ _ _ hpermits
  | admission _ _ _ _ hpermits | promote _ _ _ _ _ _ _ hpermits | release _ _ _ _ _ _ hpermits
  | dropPermit _ _ _ _ hpermits => omega

/-- The exclusion survives every event that respects the permit. -/
lemma Exclusive.of_step {w t : World} {e : Event} (hcount : Accounted w) (hw : Exclusive w)
    (hrespects : RespectsPermit w e) (h : step w e = some t) : Exclusive t := by
  obtain ⟨haccepting, hsingle, hidle⟩ := hw
  cases move_of_step h with
  | quiet _ htracker hleases hpermits | tick _ htracker hleases hpermits
  | begin _ htracker hleases hpermits =>
      exact ⟨by rw [htracker, hpermits]; exact haccepting, by rw [hpermits]; exact hsingle,
        by rw [hpermits, hleases]; exact hidle⟩
  | admission hopen _ htracker _ hpermits =>
      have hnone : t.permits = 0 := hpermits ▸ haccepting.mp hopen
      exact ⟨by simp [htracker, hopen, hnone], by omega, fun hlive => by omega⟩
  | promote _ _ _ hopen _ htracker _ hpermits =>
      have hnone : t.permits = 0 := hpermits ▸ haccepting.mp hopen
      exact ⟨by simp [htracker, hopen, hnone], by omega, fun hlive => by omega⟩
  | release i b hlease _ htracker hleases hpermits =>
      refine ⟨?_, by rw [hpermits]; exact hsingle, fun hlive => ?_⟩
      · rw [htracker, TrackerState.release_acceptingJobs, hpermits]
        exact haccepting
      · rw [hidle (hpermits ▸ hlive)] at hlease
        simp at hlease
  | cancel _ htracker _ hpermits hcancels =>
      have hnone : t.permits = 0 := hpermits ▸ hrespects hcancels
      exact ⟨by simp [htracker, TrackerState.cancelDrain, hnone], by omega,
        fun hlive => by omega⟩
  | issue hopen hclear _ _ htracker hleases hpermits =>
      have hone : t.permits = 1 := by rw [hpermits, haccepting.mp hopen]
      simp only [TrackerState.isClear, Bool.and_eq_true, beq_iff_eq] at hclear
      exact ⟨by simp [htracker, hone], hone.le,
        fun _ => by rw [hleases, hcount.leases_eq_nil hclear.1 hclear.2]⟩
  | dropPermit hlive _ htracker _ hpermits =>
      have hnone : t.permits = 0 := by omega
      exact ⟨by simp [htracker, TrackerState.dropPermit, hnone], by omega,
        fun hlive => by omega⟩

/-- In every run that never cancels a drain under a live permit, the permit is exclusive. -/
theorem exclusive_of_run (now : ℕ) {es : List Event} {s : World}
    (h : (tracker now).run es = some s) (hok : (tracker now).StepsMeet RespectsPermit es) :
    Exclusive s :=
  (StepSystem.run_induction_of_stepsMeet (P := fun _ w => Exclusive w)
    ⟨by simp [tracker, World.new, TrackerState.new], by simp [tracker, World.new],
      fun hlive => absurd hlive (lt_irrefl 0)⟩
    (fun _ _ _ _ hs hw hrespects ht => hw.of_step (accounted now hs) hrespects ht) h hok)

/-- A permit is only issued once every job has been over for the cooldown. -/
lemma cooled_of_issuesPermit (now : ℕ) {es : List Event} {s t : World} {e : Event} {τ : ℕ}
    (h : (tracker now).run es = some s) (ht : step s e = some t) (hissues : IssuesPermit s t)
    (hlive : JobLiveAt now es τ) : τ + drainCooldown ≤ s.clock := by
  obtain ⟨-, hclear, hcooled⟩ := issued_of_issuesPermit ht hissues
  simp only [TrackerState.isClear, Bool.and_eq_true, beq_iff_eq] at hclear
  obtain ⟨c, hc, hτ⟩ := (dated_of_run now h τ hlive).completed hclear.1
  simp only [TrackerState.cooledDown, hc, decide_eq_true_eq] at hcooled
  have hpos : 0 < drainCooldown := by decide
  omega

/-- A drain cancelled under a live permit lets the next request in. -/
lemma readmits_of_cancel {s t : World} {e : Event} (ht : step s e = some t)
    (he : e.cancelsDrain = true) : ∃ u, step t .tryAcquireRequest = some u ∧ Admits t u := by
  have hopen : t.tracker.acceptingJobs = true := by rw [(cancel_of_step ht he).1]; rfl
  refine ⟨{ t with
      tracker := { t.tracker with activeRequests := t.tracker.activeRequests + 1 }
      leases := t.leases ++ [false] }, ?_, ?_⟩
  · simp [step, TrackerState.tryAcquireRequest, hopen]
  · simp [Admits]

/-- **Permit exclusion.** A permit is only ever issued in a state with no live
lease, and once every job of the run has been over for the cooldown. In every
run that never cancels a drain under a live permit, nothing is admitted and no
second permit is issued while one is live; and a drain cancelled while a permit
is live lets the next request in. -/
theorem permit_exclusion (now : ℕ) {es : List Event} {s : World}
    (h : (tracker now).run es = some s) :
    (∀ e t, step s e = some t → IssuesPermit s t →
        s.leases = [] ∧ ∀ τ, JobLiveAt now es τ → τ + drainCooldown ≤ s.clock)
      ∧ ((tracker now).StepsMeet RespectsPermit es → 0 < s.permits →
          ∀ e t, step s e = some t → ¬ Admits s t ∧ ¬ IssuesPermit s t)
      ∧ (∀ e t, step s e = some t → ¬ RespectsPermit s e →
          0 < t.permits ∧ ∃ u, step t .tryAcquireRequest = some u ∧ Admits t u) := by
  refine ⟨fun e t ht hissues => ⟨?_, fun τ => cooled_of_issuesPermit now h ht hissues⟩,
    fun hok hlive e t ht => ?_, fun e t ht hcancels => ?_⟩
  · obtain ⟨-, hclear, -⟩ := issued_of_issuesPermit ht hissues
    simp only [TrackerState.isClear, Bool.and_eq_true, beq_iff_eq] at hclear
    exact (accounted now h).leases_eq_nil hclear.1 hclear.2
  · have hclosed : s.tracker.acceptingJobs ≠ true := fun hopen =>
      hlive.ne' ((exclusive_of_run now h hok).accepting.mp hopen)
    exact ⟨fun hadmits => hclosed (accepting_of_admits ht hadmits),
      fun hissues => hclosed (issued_of_issuesPermit ht hissues).1⟩
  · obtain ⟨he, hlive⟩ := Classical.not_imp.mp hcancels
    refine ⟨?_, readmits_of_cancel ht he⟩
    rw [(cancel_of_step ht he).2]
    exact Nat.pos_of_ne_zero hlive

theorem restarting_exclusion :
    ∃ s, (tracker 0).run [.tryBeginRestart] = some s ∧ 0 < s.permits
      ∧ ∀ e t, step s e = some t → ¬ Admits s t ∧ ¬ IssuesPermit s t := by
  have hrun : (tracker 0).run [.tryBeginRestart] = some _ := rfl
  refine ⟨_, hrun, by decide, (permit_exclusion 0 hrun).2.1 ?_ (by decide)⟩
  exact (StepSystem.stepsMeet_nil _).concat (fun _ _ he => nomatch he)

/-- A drain is cancelled while a permit is live, and the next request is admitted. -/
theorem cancelled_drain_admits :
    ∃ s t, (tracker 0).run [.tryBeginRestart, .cancelDrain] = some s ∧ 0 < s.permits
      ∧ step s .tryAcquireRequest = some t ∧ Admits s t :=
  ⟨_, _, rfl, by decide, rfl, Nat.zero_lt_one⟩

end ShaPrint.Tracker
