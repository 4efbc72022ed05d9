import ShaPrint.Updater.Sections

/-!
When the updater's status, package and flags fit together.

A call writes the status and the package in separate sections, and a restart request
writes back a status it read before. The two fit together if no call writes between
another call's two sections (`Careful`), except in the windows between them.

* `Exclusive`: the gate admits one check at a time, in every run.
* `Consistent`: what the status says about the package, in a careful run.
* `Asked`, `Intended`: restart requests, by the packages that had become ready.
* `updater_consistent`: the three properties in every state of every careful run.
-/

namespace ShaPrint.Updater

open Processes

variable {currentVersion : String}

/-- What a step is: a new call, or a section of a call. -/
lemma moved_of_step {w t : World} {e : Event} (h : (updater currentVersion).step w e = some t) :
    (∃ c, e = .start c ∧ c.isNew = true ∧ t = ⟨w.shared, w.processes ++ [c]⟩)
      ∨ ∃ i x c s c', e = .move i x ∧ w.processes[i]? = some c ∧ Moved w.shared c x s c'
        ∧ t = ⟨s, w.processes.set i c' ++ []⟩ := by
  cases stepped_of_step (processes currentVersion) h with
  | start c hnew => exact .inl ⟨c, rfl, hnew, rfl⟩
  | move i x c s c' spawned hc hadvance =>
      obtain ⟨⟨s₁, c₁⟩, hsection, heq⟩ := Option.map_eq_some_iff.mp hadvance
      obtain ⟨rfl, rfl, rfl⟩ : s₁ = s ∧ c₁ = c' ∧ [] = spawned := by simpa using heq
      exact .inr ⟨i, x, c, s₁, c₁, rfl, hc, moved_of_advance hsection, rfl⟩
  | outside x => exact nomatch x

/-- A new call is outside every window. -/
lemma Call.outside_of_isNew {c : Call} (h : c.isNew = true) :
    ¬ c.inside ∧ ¬ c.working ∧ ¬ c.storing ∧ ¬ c.failing ∧ ¬ c.requesting := by
  cases c with
  | checkGate | requestRead | autoIdle | installRead | failClear => exact ⟨id, id, id, id, id⟩
  | _ => cases h

lemma Call.inside_of_working {c : Call} (h : c.working) : c.inside := by
  cases c <;> trivial

lemma Call.working_of_storing {c : Call} (h : c.storing) : c.working := by
  cases c <;> trivial

/-! ### The gate -/

/-- At most one check is behind the gate, and it holds it. -/
structure Exclusive (w : World) : Prop where
  single : AtMostOne w.processes Call.inside
  held : Some w.processes Call.inside → w.shared.gate = true

/-- A check goes on behind the gate, or enters it open. -/
lemma Moved.inside {s s' : Shared} {c c' : Call} {x : Input} (h : Moved s c x s' c')
    (hc' : c'.inside) : (c.inside ∧ s'.gate = s.gate) ∨ (s.gate = false ∧ s'.gate = true) := by
  cases h with
  | quiet hinside => exact .inl ⟨hinside.mp hc', rfl⟩
  | enters kind hgate => exact .inr ⟨hgate, rfl⟩
  | sets _ _ _ hinside => exact .inl ⟨hinside, rfl⟩
  | finds | stores | publishes | clears => exact .inl ⟨trivial, rfl⟩
  | leaves | failClears | failSets | reads | writes | waits | takes | unwaits => exact absurd hc' id

/-- Only a check opens the gate, by leaving it. -/
lemma Moved.gate {s s' : Shared} {c c' : Call} {x : Input} (h : Moved s c x s' c')
    (hgate : s.gate = true) : s'.gate = true ∨ c.inside := by
  cases h with
  | leaves => exact .inr trivial
  | enters => exact .inl rfl
  | _ => exact .inl hgate

lemma Exclusive.of_step {w t : World} {e : Event} (hw : Exclusive w)
    (h : (updater currentVersion).step w e = some t) : Exclusive t := by
  obtain ⟨c, rfl, hnew, rfl⟩ | ⟨i, x, c, s, c', rfl, hc, hmoved, rfl⟩ := moved_of_step h
  · have hout := (Call.outside_of_isNew hnew).1
    refine ⟨atMostOne_after_start hw.single hout, fun hsome => hw.held ?_⟩
    exact (some_before_start hsome).resolve_right hout
  · refine ⟨atMostOne_after_move hc hw.single (fun hc' => ?_) (by simp), fun hsome => ?_⟩
    · refine (hmoved.inside hc').imp And.left fun hgate j d _ hd hin => ?_
      rw [hw.held ⟨j, d, hd, hin⟩] at hgate
      cases hgate.1
    · rcases some_before_move hc hsome with hc' | ⟨j, d, hne, hd, hin⟩ | ⟨d, hd, -⟩
      · rcases hmoved.inside hc' with ⟨hin, hgate⟩ | ⟨-, hgate⟩
        · rw [hgate, hw.held ⟨i, c, hc, hin⟩]
        · exact hgate
      · refine (hmoved.gate (hw.held ⟨j, d, hd, hin⟩)).resolve_right fun hself => ?_
        exact hne (hw.single j i d c hd hc hin hself)
      · cases hd

/-- In every run the gate admits one check at a time. -/
theorem exclusive_of_run {es : List Event} {w : World}
    (h : (updater currentVersion).run es = some w) : Exclusive w := by
  refine (updater currentVersion).invariant ⟨?_, ?_⟩ (fun _ _ _ hw ht => hw.of_step ht) h
  · intro i j c d hc
    simp [updater, Processes.system] at hc
  · rintro ⟨i, c, hc, -⟩
    simp [updater, Processes.system] at hc

/-! ### Careful runs -/

/-- The section does not come between the two sections of another call, and the call
does not write what it read before the status changed. -/
def Call.careful (w : World) : Call → Input → Prop
  | .checkStore _, _ => ¬ Some w.processes Call.failing
  | .failClear _, _ => ¬ Some w.processes Call.storing
  | .requestWrite _ next readies, .safe safe =>
      next = withRequest w.shared.status.state
        ∧ (isReady w.shared.status.state = true → readies = w.shared.readies)
        ∧ (isReady w.shared.status.state = true ∨ safe = true)
  | .installWaiting true, _ => isRequested w.shared.status.state = true
  | _, _ => True

/-- The event is a careful section, or the start of a call. -/
def Careful (w : World) : Event → Prop
  | .move i x => ∀ c, w.processes[i]? = some c → c.careful w x
  | _ => True

lemma isReady_of_isRequested {state : UpdateState} (h : isRequested state = true) :
    isReady state = true := by
  cases state with
  | readyToRestart => rfl
  | _ => cases h

@[simp] lemma isReady_withRequest (state : UpdateState) :
    isReady (withRequest state) = isReady state := by
  cases state <;> rfl

lemma isRequested_withRequest (state : UpdateState) :
    isRequested (withRequest state) = isReady state := by
  cases state <;> rfl

/-- What the status says about the package, and the calls in their windows. -/
structure Consistent (w : World) : Prop where
  /-- A check that works has found no update ready, and none has become so. -/
  working : Some w.processes Call.working → isReady w.shared.status.state = false
  publishing : ∀ (i : ℕ) (c : Call), w.processes[i]? = some c → ∀ version,
    c = .checkPublish version → w.shared.package.map (·.version) = some version
  failing : Some w.processes Call.failing → w.shared.package = none
  taken : w.shared.taken = true →
    w.shared.package = none ∧ isReady w.shared.status.state = true
  ready : ∀ version requested, w.shared.status.state = .readyToRestart version requested →
    w.shared.package.map (·.version) = some version ∨ w.shared.taken = true
      ∨ Some w.processes Call.failing
  unready : isReady w.shared.status.state = false →
    w.shared.package = none ∨ Some w.processes Call.storing
  waiting : w.shared.status.waitingForJobs = true → isRequested w.shared.status.state = true

lemma Consistent.of_start {w : World} {c : Call} (hw : Consistent w) (hnew : c.isNew = true) :
    Consistent ⟨w.shared, w.processes ++ [c]⟩ := by
  obtain ⟨-, hworking, hstoring, hfailing, -⟩ := Call.outside_of_isNew hnew
  exact {
    working := fun h => hw.working ((some_before_start h).resolve_right hworking)
    publishing := forall_after_start hw.publishing fun version heq => by
      subst heq
      exact absurd trivial hstoring
    failing := fun h => hw.failing ((some_before_start h).resolve_right hfailing)
    taken := hw.taken
    ready := fun version requested h =>
      (hw.ready version requested h).imp id (Or.imp id some_after_start)
    unready := fun h => (hw.unready h).imp id some_after_start
    waiting := hw.waiting }

/-! ### One careful section -/

section Section

variable {w : World} {i : ℕ} {c c' : Call} {x : Input} {s : Shared}

/-- A section makes the status ready only where a check has published its package. -/
lemma Moved.isReady (h : Moved w.shared c x s c') (hok : c.careful w x) :
    isReady s.status.state = isReady w.shared.status.state ∨ isReady s.status.state = false
      ∨ (c.inside ∧ ¬ c'.working) := by
  cases h with
  | sets next hnext => exact .inr (.inl hnext)
  | publishes => exact .inr (.inr ⟨trivial, id⟩)
  | failSets => exact .inr (.inl rfl)
  | writes auto next readies safe =>
      obtain ⟨rfl, -, -⟩ := hok
      exact .inl (isReady_withRequest _)
  | _ => exact .inl rfl

/-- A check that works has found no update ready. -/
lemma Moved.working (h : Moved w.shared c x s c') (hc' : c'.working) :
    c.working ∨ Updater.isReady w.shared.status.state = false := by
  cases h with
  | quiet _ hworking => exact .inl (hworking hc')
  | enters _ _ hworking => exact absurd hc' hworking
  | finds _ hready => exact .inr hready
  | sets _ _ hworking => exact .inl hworking
  | stores | clears => exact .inl trivial
  | leaves | publishes | failClears | failSets | reads | writes | waits | takes | unwaits =>
      exact absurd hc' id

/-- Who changes the package. -/
lemma Moved.package (h : Moved w.shared c x s c') :
    s.package = w.shared.package ∨ (∃ package, c = .checkStore package)
      ∨ (s.package = none ∧ (c.inside ∨ (∃ message, c = .failClear message)
        ∨ Updater.isReady w.shared.status.state = true)) := by
  cases h with
  | stores package => exact .inr (.inl ⟨package, rfl⟩)
  | clears => exact .inr (.inr ⟨rfl, .inl trivial⟩)
  | failClears message => exact .inr (.inr ⟨rfl, .inr (.inl ⟨message, rfl⟩)⟩)
  | takes package hrequested =>
      exact .inr (.inr ⟨rfl, .inr (.inr (isReady_of_isRequested hrequested))⟩)
  | _ => exact .inl rfl

/-- A `fail` that is in its window has cleared the package. -/
lemma Moved.failing (h : Moved w.shared c x s c') (hc' : c'.failing) : s.package = none := by
  cases h with
  | failClears => rfl
  | quiet _ _ _ _ _ hfailing => exact absurd hc' hfailing
  | enters _ _ _ _ hfailing => exact absurd hc' hfailing
  | sets _ _ _ _ _ _ _ hfailing => exact absurd hc' hfailing
  | finds | stores | clears | leaves | publishes | failSets | reads | writes | waits | takes
  | unwaits => exact absurd hc' id

variable (hw : Consistent w) (hex : Exclusive w) (hc : w.processes[i]? = some c)
  (hok : c.careful w x) (hmoved : Moved w.shared c x s c')

include hw hc in
lemma Consistent.not_ready (h : c.working) : isReady w.shared.status.state = false :=
  hw.working ⟨i, c, hc, h⟩

include hw hex hc hok hmoved in
lemma Consistent.working_of_move (h : Some (w.processes.set i c' ++ []) Call.working) :
    isReady s.status.state = false := by
  rcases some_before_move hc h with hc' | ⟨j, d, hne, hd, hworking⟩ | ⟨d, hd, -⟩
  · have hready : isReady w.shared.status.state = false :=
      (hmoved.working hc').elim (hw.not_ready hc) id
    rcases hmoved.isReady hok with hsame | hnot | ⟨-, hnot⟩
    · rw [hsame, hready]
    · exact hnot
    · exact absurd hc' hnot
  · rcases hmoved.isReady hok with hsame | hnot | ⟨hin, -⟩
    · rw [hsame, hw.working ⟨j, d, hd, hworking⟩]
    · exact hnot
    · exact absurd (hex.single j i d c hd hc (Call.inside_of_working hworking) hin) hne
  · cases hd

include hw hex hc hok hmoved in
lemma Consistent.publishing_of_move :
    ∀ (j : ℕ) (d : Call), (w.processes.set i c' ++ [])[j]? = some d → ∀ version,
      d = .checkPublish version → s.package.map (·.version) = some version := by
  refine forall_after_move hc (fun j d hne hd version heq => ?_) (fun version heq => ?_) (by simp)
  · subst heq
    have hbefore := hw.publishing j _ hd version rfl
    have hready := hw.working ⟨j, _, hd, trivial⟩
    have hout : ¬ c.inside := fun hin => hne (hex.single j i _ c hd hc trivial hin)
    rcases hmoved.package with hsame | ⟨package, rfl⟩ | ⟨-, hin | ⟨message, rfl⟩ | hnow⟩
    · rw [hsame, hbefore]
    · exact absurd trivial hout
    · exact absurd hin hout
    · exact absurd ⟨j, _, hd, trivial⟩ hok
    · rw [hready] at hnow
      cases hnow
  · cases hmoved with
    | stores package =>
        obtain rfl := Call.checkPublish.inj heq
        rfl
    | quiet _ _ _ hstoring =>
        subst heq
        exact absurd trivial hstoring
    | enters _ _ _ hstoring =>
        subst heq
        exact absurd trivial hstoring
    | sets _ _ _ _ _ _ hstoring =>
        subst heq
        exact absurd trivial hstoring
    | _ => cases heq

include hw hc hok hmoved in
lemma Consistent.failing_of_move (h : Some (w.processes.set i c' ++ []) Call.failing) :
    s.package = none := by
  rcases some_before_move hc h with hc' | ⟨j, d, -, hd, hfailing⟩ | ⟨d, hd, -⟩
  · exact hmoved.failing hc'
  · rcases hmoved.package with hsame | ⟨package, rfl⟩ | ⟨hnone, -⟩
    · rw [hsame, hw.failing ⟨j, d, hd, hfailing⟩]
    · exact absurd ⟨j, d, hd, hfailing⟩ hok
    · exact hnone
  · cases hd

include hw hc hok hmoved in
lemma Consistent.taken_of_move (h : s.taken = true) :
    s.package = none ∧ isReady s.status.state = true := by
  have hcontra : w.shared.taken = true → ¬ c.working := by
    intro htaken hworking
    have hready := (hw.taken htaken).2
    rw [hw.not_ready hc hworking] at hready
    cases hready
  cases hmoved with
  | sets _ _ hworking => exact absurd hworking (hcontra h)
  | stores | publishes | clears => exact absurd trivial (hcontra h)
  | failClears => exact ⟨rfl, (hw.taken h).2⟩
  | failSets => cases h
  | writes auto next readies safe =>
      obtain ⟨rfl, -, -⟩ := hok
      exact ⟨(hw.taken h).1, (isReady_withRequest _).trans (hw.taken h).2⟩
  | takes _ hrequested => exact ⟨rfl, isReady_of_isRequested hrequested⟩
  | _ => exact hw.taken h

lemma readyToRestart_of_withRequest {state : UpdateState} {version : String} {requested : Bool}
    (h : withRequest state = .readyToRestart version requested) :
    ∃ before, state = .readyToRestart version before := by
  cases state with
  | readyToRestart version' before =>
      obtain ⟨rfl, -⟩ := UpdateState.readyToRestart.inj h
      exact ⟨before, rfl⟩
  | _ => cases h

include hw hc hok hmoved in
lemma Consistent.ready_of_move {version : String} {requested : Bool}
    (h : s.status.state = .readyToRestart version requested) :
    s.package.map (·.version) = some version ∨ s.taken = true
      ∨ Some (w.processes.set i c' ++ []) Call.failing := by
  have hready : isReady s.status.state = true := by rw [h]; rfl
  have hkeeps : ∀ {requested : Bool}, w.shared.status.state = .readyToRestart version requested →
      ¬ c.failing → w.shared.package.map (·.version) = some version ∨ w.shared.taken = true
        ∨ Some (w.processes.set i c' ++ []) Call.failing := by
    intro requested h hnot
    exact (hw.ready version requested h).imp id
      (Or.imp id fun hsome => some_after_move hc hsome fun hself => absurd hself hnot)
  cases hmoved with
  | sets next hnext => cases hnext.symm.trans hready
  | stores | clears => cases (hw.not_ready hc trivial).symm.trans hready
  | publishes v =>
      obtain ⟨rfl, -⟩ := UpdateState.readyToRestart.inj h
      exact .inl (hw.publishing i _ hc v rfl)
  | failClears => exact .inr (.inr (some_of_moved hc trivial))
  | failSets => cases h
  | writes auto next readies safe =>
      obtain ⟨rfl, -, -⟩ := hok
      obtain ⟨before, hbefore⟩ := readyToRestart_of_withRequest h
      exact hkeeps hbefore id
  | takes => exact .inr (.inl rfl)
  | quiet _ _ _ _ hnot => exact hkeeps h hnot
  | enters | leaves | finds | reads | waits | unwaits => exact hkeeps h id

include hw hc hok hmoved in
lemma Consistent.unready_of_move (h : isReady s.status.state = false) :
    s.package = none ∨ Some (w.processes.set i c' ++ []) Call.storing := by
  have hkeeps : isReady w.shared.status.state = false → ¬ c.storing → w.shared.package = none
      ∨ Some (w.processes.set i c' ++ []) Call.storing := by
    intro h hnot
    exact (hw.unready h).imp id fun hsome => some_after_move hc hsome fun hself => absurd hself hnot
  cases hmoved with
  | sets _ _ hworking _ _ hnot => exact hkeeps (hw.not_ready hc hworking) hnot
  | stores => exact .inr (some_of_moved hc trivial)
  | publishes => cases h
  | clears | failClears | takes => exact .inl rfl
  | failSets => exact .inl (hw.failing ⟨i, _, hc, trivial⟩)
  | writes auto next readies safe =>
      obtain ⟨rfl, -, -⟩ := hok
      exact hkeeps ((isReady_withRequest _).symm.trans h) id
  | quiet _ _ hnot => exact hkeeps h hnot
  | enters | leaves | finds | reads | waits | unwaits => exact hkeeps h id

include hw hok hmoved in
lemma Consistent.waiting_of_move (h : s.status.waitingForJobs = true) :
    isRequested s.status.state = true := by
  cases hmoved with
  | writes auto next readies safe =>
      obtain ⟨rfl, -, hready | rfl⟩ := hok
      · exact (isRequested_withRequest _).trans hready
      · cases h
  | waits waiting =>
      obtain rfl : waiting = true := h
      exact hok
  | sets | publishes | failSets | unwaits => cases h
  | _ => exact hw.waiting h

end Section

lemma Consistent.of_step {w t : World} {e : Event} (hw : Consistent w) (hex : Exclusive w)
    (hok : Careful w e) (h : (updater currentVersion).step w e = some t) : Consistent t := by
  obtain ⟨c, rfl, hnew, rfl⟩ | ⟨i, x, c, s, c', rfl, hc, hmoved, rfl⟩ := moved_of_step h
  · exact hw.of_start hnew
  · have hcareful := hok c hc
    exact {
      working := hw.working_of_move hex hc hcareful hmoved
      publishing := hw.publishing_of_move hex hc hcareful hmoved
      failing := hw.failing_of_move hc hcareful hmoved
      taken := hw.taken_of_move hc hcareful hmoved
      ready := fun _ _ => hw.ready_of_move hc hcareful hmoved
      unready := hw.unready_of_move hc hcareful hmoved
      waiting := hw.waiting_of_move hcareful hmoved }

/-- In every careful run, the status and the package fit together. -/
theorem consistent_of_run {es : List Event} {w : World}
    (h : (updater currentVersion).run es = some w)
    (hok : (updater currentVersion).StepsMeet Careful es) : Consistent w := by
  refine StepSystem.run_induction_of_stepsMeet (P := fun _ w => Consistent w) ?_
    (fun _ _ _ _ hs hw hok ht => hw.of_step (exclusive_of_run hs) hok ht) h hok
  have hnone : ∀ (Q : Call → Prop), ¬ Some (updater currentVersion).init.processes Q := by
    rintro Q ⟨i, c, hc, -⟩
    simp [updater, Processes.system] at hc
  exact {
    working := fun h => absurd h (hnone _)
    publishing := fun i c hc => by simp [updater, Processes.system] at hc
    failing := fun h => absurd h (hnone _)
    taken := fun h => by cases h
    ready := fun version requested h => by cases h
    unready := fun _ => .inl rfl
    waiting := fun h => by cases h }

/-! ### Who asked for the restart -/

/-- The run contains a restart request, by the user or by the idle trigger, that found
an update ready when `readies` packages had become ready. -/
def Asked (currentVersion : String) (es : List Event) (readies : ℕ) : Prop :=
  ∃ u i auto v, (updater currentVersion).Took es u (.move i .go) v
    ∧ u.processes[i]? = some (.requestRead auto)
    ∧ isReady u.shared.status.state = true ∧ u.shared.readies = readies

/-- A restart is requested, or about to be, only where it was asked for after the
package became ready. -/
structure Intended (currentVersion : String) (es : List Event) (w : World) : Prop where
  requests : ∀ (i : ℕ) (c : Call), w.processes[i]? = some c → ∀ auto next readies,
    c = .requestWrite auto next readies → isReady next = true → Asked currentVersion es readies
  requested : isRequested w.shared.status.state = true →
    Asked currentVersion es w.shared.readies

lemma Asked.concat {es : List Event} {w t : World} {e : Event} {readies : ℕ}
    (hs : (updater currentVersion).run es = some w)
    (ht : (updater currentVersion).step w e = some t) (h : Asked currentVersion es readies) :
    Asked currentVersion (es ++ [e]) readies := by
  obtain ⟨u, i, auto, v, htook, hrest⟩ := h
  exact ⟨u, i, auto, v, ((updater currentVersion).took_concat hs ht).mpr (.inl htook), hrest⟩

/-- A section that requests a restart is the second one of a restart request. -/
lemma Moved.requested {s s' : Shared} {c c' : Call} {x : Input} (h : Moved s c x s' c')
    (hrequested : isRequested s'.status.state = true) :
    (isRequested s.status.state = true ∧ s'.readies = s.readies)
      ∨ ∃ auto next readies safe, c = .requestWrite auto next readies ∧ x = .safe safe
        ∧ s' = s.setState next !safe := by
  cases h with
  | sets next hnext =>
      cases hnext.symm.trans (isReady_of_isRequested hrequested)
  | publishes | failSets => cases hrequested
  | writes auto next readies safe => exact .inr ⟨auto, next, readies, safe, rfl, rfl, rfl⟩
  | _ => exact .inl ⟨hrequested, rfl⟩

/-- A restart request is about to write only after it has read. -/
lemma Moved.requests {s s' : Shared} {c : Call} {x : Input} {auto : Bool} {next : UpdateState}
    {readies : ℕ} (h : Moved s c x s' (.requestWrite auto next readies)) :
    c = .requestRead auto ∧ x = .go ∧ next = withRequest s.status.state ∧ readies = s.readies := by
  cases h with
  | quiet _ _ _ _ _ _ hnot => exact absurd trivial hnot
  | enters _ _ _ _ _ hnot => exact absurd trivial hnot
  | sets _ _ _ _ _ _ _ _ hnot => exact absurd trivial hnot
  | reads => exact ⟨rfl, rfl, rfl, rfl⟩

lemma Intended.of_step {es : List Event} {w t : World} {e : Event}
    (hs : (updater currentVersion).run es = some w) (hw : Intended currentVersion es w)
    (hok : Careful w e) (h : (updater currentVersion).step w e = some t) :
    Intended currentVersion (es ++ [e]) t := by
  have hstep := h
  obtain ⟨c, rfl, hnew, rfl⟩ | ⟨i, x, c, s, c', rfl, hc, hmoved, rfl⟩ := moved_of_step h
  · refine ⟨forall_after_start (fun j d hd auto next readies heq hready => ?_)
      fun auto next readies heq => ?_, fun h => (hw.requested h).concat hs hstep⟩
    · exact (hw.requests j d hd auto next readies heq hready).concat hs hstep
    · subst heq
      cases hnew
  · refine ⟨forall_after_move hc (fun j d _ hd auto next readies heq hready => ?_)
      (fun auto next readies heq hready => ?_) (by simp), fun hrequested => ?_⟩
    · exact (hw.requests j d hd auto next readies heq hready).concat hs hstep
    · subst heq
      obtain ⟨rfl, rfl, rfl, rfl⟩ := hmoved.requests
      rw [isReady_withRequest] at hready
      exact ⟨w, i, auto, _, ((updater currentVersion).took_concat hs hstep).mpr
        (.inr ⟨rfl, rfl, rfl⟩), hc, hready, rfl⟩
    · rcases hmoved.requested hrequested with ⟨hbefore, hsame⟩ | ⟨auto, next, readies, safe, rfl, rfl, rfl⟩
      · refine Asked.concat hs hstep ?_
        rw [hsame]
        exact hw.requested hbefore
      · -- the status has not changed since the request read it
        obtain ⟨rfl, hreadies, -⟩ := hok _ hc
        have hready := isReady_of_isRequested hrequested
        have hcurrent := (isReady_withRequest _).symm.trans hready
        refine Asked.concat hs hstep ?_
        have hasked := hw.requests i _ hc auto _ readies rfl hready
        rw [hreadies hcurrent] at hasked
        exact hasked

/-- In every careful run, a restart is requested only where it was asked for. -/
theorem intended_of_run {es : List Event} {w : World}
    (h : (updater currentVersion).run es = some w)
    (hok : (updater currentVersion).StepsMeet Careful es) : Intended currentVersion es w := by
  refine StepSystem.run_induction_of_stepsMeet (P := Intended currentVersion)
    ⟨fun i c hc => ?_, fun h => ?_⟩
    (fun _ _ _ _ hs hw hok ht => hw.of_step hs hok ht) h hok
  · simp [updater, Processes.system] at hc
  · cases h

/-! ### The updater -/

/-- The status is ready for the version of the package held, and for no other. -/
def Shared.Fits (s : Shared) : Prop :=
  ∀ version, (∃ requested, s.status.state = .readyToRestart version requested)
    ↔ s.package.map (·.version) = some version

/-- Between the two sections of a call that write the package and the status: a check
has stored a package it has not published; or the status is still ready after an install
has taken the package, or while a `fail` has cleared it. -/
def Between (w : World) : Prop :=
  Some w.processes Call.storing
    ∨ (isReady w.shared.status.state = true
      ∧ (w.shared.taken = true ∨ Some w.processes Call.failing))

lemma Consistent.fits_iff {w : World} (hw : Consistent w) : w.shared.Fits ↔ ¬ Between w := by
  have hversion : ∀ {state : UpdateState}, isReady state = true →
      ∃ version requested, state = .readyToRestart version requested := by
    intro state h
    cases state with
    | readyToRestart version requested => exact ⟨version, requested, rfl⟩
    | _ => cases h
  constructor
  · rintro hfits (⟨i, c, hc, hstoring⟩ | ⟨hready, hout⟩)
    · cases c with
      | checkPublish version =>
          obtain ⟨requested, hstate⟩ := (hfits version).mpr (hw.publishing i _ hc version rfl)
          have hnot := hw.working ⟨i, _, hc, trivial⟩
          rw [hstate] at hnot
          cases hnot
      | _ => cases hstoring
    · obtain ⟨version, requested, hstate⟩ := hversion hready
      have hheld := (hfits version).mp ⟨requested, hstate⟩
      have hnone : w.shared.package = none := hout.elim (fun h => (hw.taken h).1) hw.failing
      rw [hnone] at hheld
      cases hheld
  · intro hnot version
    have hheld : ∀ {v r}, w.shared.status.state = .readyToRestart v r →
        w.shared.package.map (·.version) = some v := by
      intro v r hstate
      refine (hw.ready v r hstate).resolve_right fun hout => hnot (.inr ⟨?_, hout⟩)
      rw [hstate]
      rfl
    constructor
    · rintro ⟨requested, hstate⟩
      exact hheld hstate
    · intro hpackage
      cases hready : isReady w.shared.status.state with
      | false =>
          rcases hw.unready hready with hnone | hstoring
          · rw [hnone] at hpackage
            cases hpackage
          · exact absurd (.inl hstoring) hnot
      | true =>
          obtain ⟨v, r, hstate⟩ := hversion hready
          obtain rfl : v = version := Option.some.inj ((hheld hstate).symm.trans hpackage)
          exact ⟨r, hstate⟩

/-- A section is careful if its call is. -/
lemma careful_of_call {w : World} {i : ℕ} {c : Call} {x : Input} (hc : w.processes[i]? = some c)
    (h : c.careful w x) : Careful w (.move i x) := by
  intro d hd
  obtain rfl := Option.some.inj (hc.symm.trans hd)
  exact h

def updatePackage : UpdatePackage := ⟨"0.2.0", none⟩

/-- A check that downloads an update, up to its answer. -/
def checkEvents : List Event :=
  [.start (.checkGate .manual), .move 0 .go, .move 0 .go, .move 0 .go,
    .move 0 (.source (some (some ⟨"0.2.0", none⟩))), .move 0 .go, .move 0 .go,
    .move 0 (.download (some updatePackage)), .move 0 .go, .move 0 .go]

end ShaPrint.Updater
