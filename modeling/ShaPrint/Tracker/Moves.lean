import ShaPrint.Tracker.Tracker

/-!
What one event of the tracker can do, said once.

The clock, the locked state, the leases and the permits are all that the
tracker's guarantees speak of; `Move` lists the ways an event changes them,
guards included, and `move_of_step` is the inversion every invariant is derived
from. The drain calls only matter through what they do to these, and through the
observation that ends one: `DrainReturns`, `drainReturns_spec`.
-/

namespace ShaPrint.Tracker

/-- The events that call `cancel_drain`: the call itself and a drain that times out. -/
def Event.cancelsDrain : Event → Bool
  | .cancelDrain | .drainTimeout _ => true
  | _ => false

/-- The ways an event changes the clock, the locked state, the leases and the permits. -/
inductive Move (w : World) (e : Event) (t : World) : Prop where
  | quiet (hclock : t.clock = w.clock) (htracker : t.tracker = w.tracker)
      (hleases : t.leases = w.leases) (hpermits : t.permits = w.permits)
      (hcancels : e.cancelsDrain = false)
  | tick (hclock : w.clock ≤ t.clock) (htracker : t.tracker = w.tracker)
      (hleases : t.leases = w.leases) (hpermits : t.permits = w.permits)
      (hcancels : e.cancelsDrain = false)
  | admission (haccepting : w.tracker.acceptingJobs = true) (hclock : t.clock = w.clock)
      (htracker : t.tracker = { w.tracker with activeRequests := w.tracker.activeRequests + 1 })
      (hleases : t.leases = w.leases ++ [false]) (hpermits : t.permits = w.permits)
      (hcancels : e.cancelsDrain = false)
  | promote (i : ℕ) (hlease : w.leases[i]? = some false)
      (hdraining : w.tracker.draining = false) (haccepting : w.tracker.acceptingJobs = true)
      (hclock : t.clock = w.clock)
      (htracker : t.tracker = { w.tracker with
        activeRequests := w.tracker.activeRequests - 1
        activeJobs := w.tracker.activeJobs + 1
        lastBusyAt := w.clock })
      (hleases : t.leases = w.leases.set i true) (hpermits : t.permits = w.permits)
      (hcancels : e.cancelsDrain = false)
  | release (i : ℕ) (isPrintJob : Bool) (hlease : w.leases[i]? = some isPrintJob)
      (hclock : t.clock = w.clock) (htracker : t.tracker = w.tracker.release isPrintJob w.clock)
      (hleases : t.leases = w.leases.eraseIdx i) (hpermits : t.permits = w.permits)
      (hcancels : e.cancelsDrain = false)
  | begin (hclock : t.clock = w.clock) (htracker : t.tracker = w.tracker.beginDrain)
      (hleases : t.leases = w.leases) (hpermits : t.permits = w.permits)
      (hcancels : e.cancelsDrain = false)
  | cancel (hclock : t.clock = w.clock) (htracker : t.tracker = w.tracker.cancelDrain)
      (hleases : t.leases = w.leases) (hpermits : t.permits = w.permits)
      (hcancels : e.cancelsDrain = true)
  | issue (haccepting : w.tracker.acceptingJobs = true) (hclear : w.tracker.isClear = true)
      (hcooled : w.tracker.cooledDown drainCooldown w.clock = true) (hclock : t.clock = w.clock)
      (htracker : t.tracker = { w.tracker with acceptingJobs := false })
      (hleases : t.leases = w.leases) (hpermits : t.permits = w.permits + 1)
      (hcancels : e.cancelsDrain = false)
  | dropPermit (hpermit : 0 < w.permits) (hclock : t.clock = w.clock)
      (htracker : t.tracker = w.tracker.dropPermit)
      (hleases : t.leases = w.leases) (hpermits : t.permits = w.permits - 1)
      (hcancels : e.cancelsDrain = false)

namespace World

@[simp] lemma setPhase_clock (w : World) (i : ℕ) (p : DrainPhase) :
    (w.setPhase i p).clock = w.clock := rfl

@[simp] lemma setPhase_tracker (w : World) (i : ℕ) (p : DrainPhase) :
    (w.setPhase i p).tracker = w.tracker := rfl

@[simp] lemma setPhase_leases (w : World) (i : ℕ) (p : DrainPhase) :
    (w.setPhase i p).leases = w.leases := rfl

@[simp] lemma setPhase_permits (w : World) (i : ℕ) (p : DrainPhase) :
    (w.setPhase i p).permits = w.permits := rfl

@[simp] lemma notifyIfClear_clock (w : World) : w.notifyIfClear.clock = w.clock := by
  unfold notifyIfClear; split <;> rfl

@[simp] lemma notifyIfClear_tracker (w : World) : w.notifyIfClear.tracker = w.tracker := by
  unfold notifyIfClear; split <;> rfl

@[simp] lemma notifyIfClear_leases (w : World) : w.notifyIfClear.leases = w.leases := by
  unfold notifyIfClear; split <;> rfl

@[simp] lemma notifyIfClear_permits (w : World) : w.notifyIfClear.permits = w.permits := by
  unfold notifyIfClear; split <;> rfl

end World

@[simp] lemma TrackerState.release_draining (st : TrackerState) (b : Bool) (now : ℕ) :
    (st.release b now).draining = st.draining := by
  unfold TrackerState.release
  split
  · dsimp only
    split <;> rfl
  · rfl

/-- A change of phase alone is quiet. -/
lemma Move.of_setPhase {w : World} {e : Event} (he : e.cancelsDrain = false) (i : ℕ)
    (p : DrainPhase) : Move w e (w.setPhase i p) :=
  .quiet rfl rfl rfl rfl he

lemma move_markPrintJob (w : World) (i : ℕ) : Move w (.markPrintJob i) (w.markPrintJob i) := by
  unfold World.markPrintJob
  split
  · rename_i hlease
    unfold TrackerState.promoteRequest
    split
    · rename_i tracker hpromote
      split at hpromote
      · cases hpromote
      · rename_i hgate
        obtain rfl := Option.some.inj hpromote
        simp only [Bool.or_eq_true, Bool.not_eq_eq_eq_not, Bool.not_true, not_or,
          Bool.not_eq_true, Bool.not_eq_false] at hgate
        exact .promote i hlease hgate.1 hgate.2 rfl rfl rfl rfl rfl
    · exact .quiet rfl rfl rfl rfl rfl
  · exact .quiet rfl rfl rfl rfl rfl

lemma move_tryBeginRestart {w t : World} (h : step w .tryBeginRestart = some t) :
    Move w .tryBeginRestart t := by
  simp only [step, TrackerState.tryBeginRestart] at h
  split at h
  · rename_i tracker hissue
    obtain rfl := Option.some.inj h
    split at hissue
    · cases hissue
    · rename_i hgate
      split at hissue
      · rename_i hcooled
        obtain rfl := Option.some.inj hissue
        simp only [Bool.or_eq_true, Bool.not_eq_eq_eq_not, Bool.not_true, not_or,
          Bool.not_eq_false] at hgate
        exact .issue hgate.1 hgate.2 hcooled rfl rfl rfl rfl rfl
      · cases hissue
  · obtain rfl := Option.some.inj h
    exact .quiet rfl rfl rfl rfl rfl

/-- Every event is one of the moves. -/
theorem move_of_step {w t : World} {e : Event} (h : step w e = some t) : Move w e t := by
  cases e with
  | tick duration =>
      obtain rfl := Option.some.inj h
      exact .tick (Nat.le_add_right _ _) rfl rfl rfl rfl
  | tryAcquireRequest =>
      simp only [step, TrackerState.tryAcquireRequest] at h
      split at h
      · rename_i tracker hacquire
        obtain rfl := Option.some.inj h
        split at hacquire
        · rename_i haccepting
          obtain rfl := Option.some.inj hacquire
          exact .admission haccepting rfl rfl rfl rfl rfl
        · cases hacquire
      · obtain rfl := Option.some.inj h
        exact .quiet rfl rfl rfl rfl rfl
  | markPrintJob i =>
      simp only [step] at h
      split at h
      · obtain rfl := Option.some.inj h
        exact move_markPrintJob w i
      · cases h
  | dropLease i =>
      simp only [step] at h
      split at h
      · rename_i isPrintJob hlease
        obtain rfl := Option.some.inj h
        exact .release i isPrintJob hlease (by simp) (by simp) (by simp) (by simp) rfl
      · cases h
  | beginDrain =>
      obtain rfl := Option.some.inj h
      exact .begin rfl rfl rfl rfl rfl
  | cancelDrain =>
      obtain rfl := Option.some.inj h
      exact .cancel rfl rfl rfl rfl rfl
  | drain timeout =>
      obtain rfl := Option.some.inj h
      exact .begin rfl rfl rfl rfl rfl
  | drainListen i =>
      simp only [step] at h
      split at h
      · obtain rfl := Option.some.inj h
        exact .of_setPhase rfl _ _
      · cases h
  | drainObserve i =>
      simp only [step] at h
      split at h
      · obtain rfl := Option.some.inj h
        exact .of_setPhase rfl _ _
      · cases h
  | drainWake i =>
      simp only [step] at h
      split at h
      · obtain rfl := Option.some.inj h
        exact .of_setPhase rfl _ _
      · cases h
  | drainTimeout i =>
      simp only [step] at h
      split at h
      · split at h
        · obtain rfl := Option.some.inj h
          exact .cancel rfl rfl rfl rfl rfl
        · cases h
      · cases h
  | drainAbandon i =>
      simp only [step] at h
      split at h
      · obtain rfl := Option.some.inj h
        exact .of_setPhase rfl _ _
      · obtain rfl := Option.some.inj h
        exact .of_setPhase rfl _ _
      · obtain rfl := Option.some.inj h
        exact .of_setPhase rfl _ _
      · cases h
  | tryBeginRestart => exact move_tryBeginRestart h
  | dropPermit =>
      simp only [step] at h
      split at h
      · rename_i hpermit
        obtain rfl := Option.some.inj h
        exact .dropPermit hpermit rfl rfl rfl rfl rfl
      · cases h

/-- What a cancelled drain does, whoever cancels it. -/
lemma cancel_of_step {w t : World} {e : Event} (h : step w e = some t)
    (he : e.cancelsDrain = true) :
    t.tracker = w.tracker.cancelDrain ∧ t.permits = w.permits := by
  cases move_of_step h with
  | cancel _ htracker _ hpermits => exact ⟨htracker, hpermits⟩
  | quiet _ _ _ _ hcancels | tick _ _ _ _ hcancels | begin _ _ _ _ hcancels
  | admission _ _ _ _ _ hcancels | promote _ _ _ _ _ _ _ _ hcancels
  | release _ _ _ _ _ _ _ hcancels | issue _ _ _ _ _ _ _ hcancels
  | dropPermit _ _ _ _ _ hcancels => simp [he] at hcancels

/-- Between the drains, the drain flag stays on. -/
lemma draining_of_step {w t : World} {e : Event} (h : step w e = some t)
    (he : e.cancelsDrain = false) (hw : w.tracker.draining = true) :
    t.tracker.draining = true := by
  cases move_of_step h with
  | quiet _ htracker | tick _ htracker => rw [htracker, hw]
  | begin _ htracker => rw [htracker]; rfl
  | cancel _ _ _ _ hcancels => simp [he] at hcancels
  | promote _ _ hdraining => simp [hw] at hdraining
  | release _ b _ _ htracker =>
      rw [htracker, TrackerState.release_draining, hw]
  | admission _ _ htracker | issue _ _ _ _ htracker | dropPermit _ _ htracker =>
      rw [htracker]
      exact hw

/-! ### The end of a drain -/

/-- The drain call `i` reads the counters and returns `Ok`. -/
def DrainReturns (w : World) (i : ℕ) (t : World) : Prop :=
  step w (.drainObserve i) = some t ∧ (t.drains[i]?).map (·.phase) = some .cleared

/-- A drain that returns `Ok` has found both counters at zero, and changes
nothing that is locked. -/
lemma drainReturns_spec {w t : World} {i : ℕ} (h : DrainReturns w i t) :
    w.tracker.activeJobs = 0 ∧ w.tracker.activeRequests = 0
      ∧ t.tracker = w.tracker ∧ t.leases = w.leases ∧ t.permits = w.permits := by
  obtain ⟨hstep, hphase⟩ := h
  simp only [step] at hstep
  split at hstep
  · rename_i deadline notified hcall
    obtain rfl := Option.some.inj hstep
    have hclear : w.tracker.isClear = true := by
      by_contra hbusy
      simp [World.setPhase, hcall, hbusy] at hphase
    simp only [TrackerState.isClear, Bool.and_eq_true, beq_iff_eq] at hclear
    exact ⟨hclear.1, hclear.2, rfl, rfl, rfl⟩
  · cases hstep

/-- Time does not run backwards. -/
lemma clock_le_of_step {w t : World} {e : Event} (h : step w e = some t) : w.clock ≤ t.clock := by
  cases move_of_step h with
  | tick hclock => exact hclock
  | quiet hclock | admission _ hclock | promote _ _ _ _ hclock | release _ _ _ hclock | begin hclock
  | cancel hclock | issue _ _ _ hclock | dropPermit _ hclock => exact hclock.ge

end ShaPrint.Tracker
