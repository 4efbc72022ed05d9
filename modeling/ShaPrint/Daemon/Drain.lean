import ShaPrint.Daemon.Control
import ShaPrint.Tracker.Moves

/-!
Who keeps the daemon in drain mode.

A drain enters drain mode at its first poll and leaves it when its window expires. When it
finds the tracker clear it stays in drain mode, and its client is told. So drain mode always
has a holder: a drain that is under way, a client that was told, or the drain of `wait`.
Dropping the handling of a connection in between loses the holder and leaves the mode on.

* `Phase.holds`, `Phase.told`: the drain of a connection is under way, its client was told.
* `Moved`, `Stepped`, `stepped_of_step`: what an event does to the drain mode and the
  connections.
* `Held`, `held_of_step`: drain mode has a holder.
* `LeavesAdmitting`: when the handling of a drain request ends, its client was told, another
  drain is under way, or the tracker admits requests again.
* `leavesAdmitting_of_run`: this holds in every run in which no drain is dropped before its
  client is told, and no drain request comes to nothing in a mode that another client holds.
-/

namespace ShaPrint.Daemon

/-- The drain mode of the tracker. -/
def World.draining (w : World) : Bool := w.tracker.tracker.draining

/-- The drain of the connection is under way: it has entered drain mode, its window has not
expired, and its client was not told yet. -/
def Phase.holds : Phase → Bool
  | .draining _ | .cleared | .writing (.drained _) => true
  | _ => false

/-- The client was answered that the daemon has drained. -/
def Phase.told : Phase → Bool
  | .ended (some (.drained _)) => true
  | _ => false

/-- Whether the connection asked for a drain. -/
def Connection.asksDrain (k : Connection) : Bool :=
  match k.request with
  | some (.drain _) => true
  | _ => false

/-- Some connection meets `Q`. -/
def World.Some (w : World) (Q : Phase → Bool) : Prop :=
  ∃ (i : ℕ) (k : Connection), w.connections[i]? = some k ∧ Q k.phase = true

instance (w : World) (Q : Phase → Bool) : Decidable (w.Some Q) :=
  decidable_of_iff (w.connections.any fun k => Q k.phase) (by
    simp only [World.Some, List.any_eq_true, List.mem_iff_getElem?]
    exact ⟨fun ⟨k, ⟨i, hk⟩, hQ⟩ => ⟨i, k, hk, hQ⟩, fun ⟨i, k, hk, hQ⟩ => ⟨k, ⟨i, hk⟩, hQ⟩⟩)

/-! ### What a section of a connection does -/

/-- Only a drain that starts enters drain mode, and only one that times out leaves it. -/
structure Moved (tracker : Tracker.World) (k : Connection) (x : Input)
    (tracker' : Tracker.World) (k' : Connection) : Prop where
  unended : k.phase.hasEnded = false
  enters : tracker'.tracker.draining = true → tracker.tracker.draining = true ∨ k'.phase.holds = true
  keeps : k.phase.holds = true → x ≠ .deadline → x ≠ .writeFails →
    k'.phase.holds = true ∨ k'.phase.told = true ∨ tracker'.tracker.draining = false
  ends : k'.phase.hasEnded = true → (x = .written ∨ x = .writeFails ∨ x = .deadline)
    ∧ k'.request = k.request
  quiet : k'.phase.hasEnded = true → k.phase.holds = false → tracker' = tracker

lemma poll_draining {tracker tracker' : Tracker.World} {call : ℕ} {poll : Poll}
    (h : Tracker.step tracker (poll.event call) = some tracker') :
    tracker'.tracker.draining = (if poll = .timeout then false else tracker.tracker.draining) := by
  cases poll with
  | timeout =>
      rw [(Tracker.cancel_of_step h rfl).1]
      rfl
  | listen | observe | wake =>
      simp only [Poll.event, Tracker.step] at h
      split at h
      · obtain rfl := Option.some.inj h
        rfl
      · cases h

lemma abandon_draining {tracker tracker' : Tracker.World} {call : ℕ}
    (h : Tracker.step tracker (.drainAbandon call) = some tracker') :
    tracker'.tracker = tracker.tracker := by
  simp only [Tracker.step] at h
  split at h
  · obtain rfl := Option.some.inj h
    rfl
  · obtain rfl := Option.some.inj h
    rfl
  · obtain rfl := Option.some.inj h
    rfl
  · cases h

lemma moved_of_received {tracker tracker' : Tracker.World} {k k' : Connection}
    {request : Request} {admitted : Bool} (hk : k.phase = .reading)
    (h : received tracker k request admitted = some (tracker', k')) :
    Moved tracker k (.request request admitted) tracker' k' := by
  cases request with
  | drain timeoutSecs =>
      cases admitted with
      | false =>
          obtain ⟨rfl, rfl⟩ := Prod.mk.inj (Option.some.inj h)
          exact ⟨by rw [hk]; rfl, .inl, by simp [hk, Phase.holds], nofun, nofun⟩
      | true =>
          rw [received, if_pos rfl] at h
          obtain ⟨t, -, heq⟩ := Option.map_eq_some_iff.mp h
          obtain ⟨rfl, rfl⟩ := Prod.mk.inj heq
          exact ⟨by rw [hk]; rfl, fun _ => .inr rfl, by simp [hk, Phase.holds], nofun, nofun⟩
  | status | shutdown =>
      obtain ⟨rfl, rfl⟩ := Prod.mk.inj (Option.some.inj h)
      exact ⟨by rw [hk]; rfl, .inl, by simp [hk, Phase.holds], nofun, nofun⟩

lemma moved_of_poll {tracker tracker' : Tracker.World} {k k' : Connection} {call : ℕ}
    {poll : Poll} (hk : k.phase = .draining call)
    (h : (Tracker.step tracker (poll.event call)).map (fun t =>
      (t, { k with phase := polled tracker call poll })) = some (tracker', k')) :
    Moved tracker k (.poll poll) tracker' k' := by
  obtain ⟨t, ht, heq⟩ := Option.map_eq_some_iff.mp h
  obtain ⟨rfl, rfl⟩ := Prod.mk.inj heq
  have hdraining := poll_draining ht
  have hended : (polled tracker call poll).hasEnded = false := by
    cases poll <;> simp only [polled] <;> first | rfl | (split <;> rfl)
  refine ⟨by rw [hk]; rfl, fun ht => .inl ?_, fun _ _ _ => ?_, ?_, ?_⟩
  · rw [hdraining] at ht
    split_ifs at ht
    exact ht
  · cases poll with
    | timeout => exact .inr (.inr hdraining)
    | listen | wake => exact .inl rfl
    | observe =>
        left
        simp only [polled]
        split <;> rfl
  · simp [hended]
  · simp [hended]

/-- Dropping the handling of a connection, or failing to write to it, ends it. -/
lemma moved_of_ended {tracker : Tracker.World} {k : Connection} {x : Input}
    {answered : Option Response} (hk : k.phase.hasEnded = false)
    (hx : x = .written ∨ x = .writeFails ∨ x = .deadline)
    (hwritten : x = .written → ∃ response, k.phase = .writing response ∧ answered = some response) :
    Moved tracker k x tracker { k with phase := .ended answered } := by
  refine ⟨hk, .inl, fun hholds hdeadline hfails => ?_, fun _ => ⟨hx, rfl⟩, fun _ _ => rfl⟩
  obtain rfl | rfl | rfl := hx
  · obtain ⟨response, hphase, rfl⟩ := hwritten rfl
    rw [hphase] at hholds
    cases response with
    | drained activeJobs => exact .inr (.inl rfl)
    | ok | err => cases hholds
  · exact absurd rfl hfails
  · exact absurd rfl hdeadline

theorem moved_of_advance {tracker tracker' : Tracker.World} {k k' : Connection} {x : Input}
    (h : advance tracker k x = some (tracker', k')) : Moved tracker k x tracker' k' := by
  unfold advance at h
  split at h
  case h_1 hphase =>
    obtain ⟨rfl, rfl⟩ := Prod.mk.inj (Option.some.inj h)
    exact ⟨by rw [hphase]; rfl, .inl, by simp [hphase, Phase.holds], nofun, nofun⟩
  case h_2 hphase => exact moved_of_received hphase h
  case h_3 hphase =>
    obtain ⟨rfl, rfl⟩ := Prod.mk.inj (Option.some.inj h)
    exact ⟨by rw [hphase]; rfl, .inl, by simp [hphase, Phase.holds], nofun, nofun⟩
  case h_4 hphase => exact moved_of_poll hphase h
  case h_5 hphase =>
    obtain ⟨rfl, rfl⟩ := Prod.mk.inj (Option.some.inj h)
    exact ⟨by rw [hphase]; rfl, .inl, fun _ _ _ => .inl rfl, nofun, nofun⟩
  case h_6 response hphase =>
    obtain ⟨rfl, rfl⟩ := Prod.mk.inj (Option.some.inj h)
    exact moved_of_ended (by rw [hphase]; rfl) (.inl rfl) fun _ => ⟨response, hphase, rfl⟩
  case h_7 hphase =>
    obtain ⟨rfl, rfl⟩ := Prod.mk.inj (Option.some.inj h)
    exact moved_of_ended (by rw [hphase]; rfl) (.inr (.inl rfl)) nofun
  case h_8 hphase | h_9 hphase | h_10 hphase =>
    split at h
    · obtain ⟨rfl, rfl⟩ := Prod.mk.inj (Option.some.inj h)
      exact moved_of_ended (by rw [hphase]; rfl) (.inr (.inr rfl)) nofun
    · cases h
  case h_11 hphase =>
    split at h
    · obtain ⟨t, ht, heq⟩ := Option.map_eq_some_iff.mp h
      obtain ⟨rfl, rfl⟩ := Prod.mk.inj heq
      refine ⟨by rw [hphase]; rfl, fun ht' => .inl ?_, fun _ h => absurd rfl h,
        fun _ => ⟨.inr (.inr rfl), rfl⟩, fun _ h => ?_⟩
      · rwa [abandon_draining ht] at ht'
      · rw [hphase] at h
        cases h
    · cases h
  case h_12 => cases h

/-! ### What an event does -/

/-- The events, by what they do to the drain mode, the connections and the drain of `wait`. -/
inductive Stepped (w : World) : Event → World → Prop where
  | elsewhere (e : Event) (w' : World) (hdraining : w'.draining = true → w.draining = true)
      (hconnections : w'.connections = w.connections) (hfinal : w'.finalDrain = w.finalDrain)
      (haccepting : w'.accepting = true → w.accepting = true) : Stepped w e w'
  | accept (haccepting : w.accepting = true) (deadline : ℕ) :
      Stepped w .accept
        { w with connections := w.connections ++ [⟨deadline, none, .reading⟩] }
  | connection (i : ℕ) (x : Input) (k k' : Connection) (tracker : Tracker.World)
      (cancelled : Bool) (hk : w.connections[i]? = some k)
      (hmoved : Moved w.tracker k x tracker k') :
      Stepped w (.connection i x)
        { w with tracker, cancelled, connections := w.connections.set i k' }
  | startFinalDrain (tracker : Tracker.World) (call : ℕ) (haccepting : w.accepting = false)
      (hended : w.connections.all (·.phase.hasEnded) = true) :
      Stepped w .startFinalDrain { w with tracker, finalDrain := some call }

lemma markPrintJob_draining (tracker : Tracker.World) (i : ℕ) :
    (tracker.markPrintJob i).tracker.draining = tracker.tracker.draining := by
  unfold Tracker.World.markPrintJob
  split
  · split
    · rename_i promoted hpromote
      unfold Tracker.TrackerState.promoteRequest at hpromote
      split_ifs at hpromote
      obtain rfl := Option.some.inj hpromote
      rfl
    · rfl
  · rfl

/-- Neither a print request nor time changes the drain mode. -/
lemma draining_of_printing {tracker tracker' : Tracker.World} {e : Tracker.Event}
    (he : isPrinting e = true) (h : Tracker.step tracker e = some tracker') :
    tracker'.tracker.draining = tracker.tracker.draining := by
  cases e with
  | tick duration =>
      obtain rfl := Option.some.inj h
      rfl
  | tryAcquireRequest =>
      simp only [Tracker.step, Tracker.TrackerState.tryAcquireRequest] at h
      split_ifs at h <;> obtain rfl := Option.some.inj h <;> rfl
  | markPrintJob i =>
      simp only [Tracker.step] at h
      split_ifs at h
      obtain rfl := Option.some.inj h
      exact markPrintJob_draining tracker i
  | dropLease i =>
      simp only [Tracker.step] at h
      split at h
      · obtain rfl := Option.some.inj h
        simp
      · cases h
  | _ => cases he

theorem stepped_of_step {w w' : World} {e : Event} (h : step w e = some w') :
    Stepped w e w' := by
  cases e with
  | printing e =>
      simp only [step] at h
      split_ifs at h with he
      obtain ⟨tracker, htracker, rfl⟩ := Option.map_eq_some_iff.mp h
      exact .elsewhere _ _ (fun ht => (draining_of_printing he htracker).symm.trans ht) rfl rfl id
  | accept =>
      simp only [step] at h
      split_ifs at h with haccepting
      obtain rfl := Option.some.inj h
      exact .accept haccepting _
  | connection i x =>
      obtain ⟨k, hk, h⟩ := Option.bind_eq_some_iff.mp h
      obtain ⟨⟨tracker, k'⟩, hadvance, rfl⟩ := Option.map_eq_some_iff.mp h
      exact .connection i x k k' tracker _ hk (moved_of_advance hadvance)
  | cancel =>
      obtain rfl := Option.some.inj h
      exact .elsewhere _ _ id rfl rfl id
  | breakLoop =>
      simp only [step] at h
      split_ifs at h
      obtain rfl := Option.some.inj h
      exact .elsewhere _ _ id rfl rfl nofun
  | startFinalDrain =>
      simp only [step] at h
      split_ifs at h with hstart
      obtain ⟨tracker, -, rfl⟩ := Option.map_eq_some_iff.mp h
      exact .startFinalDrain tracker _ hstart.1 hstart.2.1
  | pollFinalDrain poll =>
      obtain ⟨call, hcall, h⟩ := Option.bind_eq_some_iff.mp h
      obtain ⟨tracker, htracker, rfl⟩ := Option.map_eq_some_iff.mp h
      refine .elsewhere _ _ (fun ht => ?_) rfl rfl id
      have hpoll := (poll_draining htracker).symm.trans ht
      split_ifs at hpoll
      exact hpoll

/-! ### Drain mode has a holder -/

/-- Drain mode is held by a drain under way, by a client that was told, or by `wait`, whose
drain starts once no connection is left. -/
structure Held (w : World) : Prop where
  holder : w.draining = true →
    w.Some Phase.holds ∨ w.Some Phase.told ∨ w.finalDrain.isSome = true
  alone : w.finalDrain.isSome = true →
    w.accepting = false ∧ w.connections.all (·.phase.hasEnded) = true

/-- No drain is dropped before its client is told, and a drain request does not come to
nothing in the drain mode that another client was told of. -/
def Undropped (w : World) : Event → Prop
  | .connection i x => ∀ k ∈ w.connections[i]?,
      (x = .deadline ∨ x = .writeFails → k.phase.holds = false)
        ∧ (x = .written ∨ x = .writeFails ∨ x = .deadline → k.asksDrain = true →
            k.phase.holds = false → ¬(w.draining = true ∧ w.Some Phase.told))
  | _ => True

instance (w : World) : ∀ e, Decidable (Undropped w e)
  | .connection i _ => inferInstanceAs (Decidable (∀ k ∈ w.connections[i]?, _ ∧ _))
  | .printing _ | .accept | .cancel | .breakLoop | .startFinalDrain | .pollFinalDrain _ =>
      inferInstanceAs (Decidable True)

/-- A connection that did not move is still there. -/
lemma World.Some.after_move {w w' : World} {i : ℕ} {k k' : Connection} {Q : Phase → Bool}
    (hk : w.connections[i]? = some k) (hw' : w'.connections = w.connections.set i k')
    (h : w.Some Q) (hmoved : Q k.phase = true → w'.Some Q) : w'.Some Q := by
  obtain ⟨j, m, hm, hQ⟩ := h
  by_cases hji : i = j
  · subst hji
    obtain rfl := Option.some.inj (hk.symm.trans hm)
    exact hmoved hQ
  · exact ⟨j, m, by rw [hw', List.getElem?_set_ne hji, hm], hQ⟩

lemma World.Some.moved {w w' : World} {i : ℕ} {k k' : Connection} {Q : Phase → Bool}
    (hk : w.connections[i]? = some k) (hw' : w'.connections = w.connections.set i k')
    (hQ : Q k'.phase = true) : w'.Some Q := by
  obtain ⟨hi, -⟩ := List.getElem?_eq_some_iff.mp hk
  exact ⟨i, k', by rw [hw', List.getElem?_set_self hi], hQ⟩

lemma hasEnded_of_told {p : Phase} (h : p.told = true) : p.hasEnded = true := by
  cases p with
  | ended => rfl
  | _ => cases h

/-- While some connection is open, the drain of `wait` has not started. -/
lemma Held.not_final {w : World} (hw : Held w) {i : ℕ} {k : Connection}
    (hk : w.connections[i]? = some k) (hopen : k.phase.hasEnded = false) :
    w.finalDrain.isSome ≠ true := by
  intro hfinal
  have hended := List.all_eq_true.mp (hw.alone hfinal).2 k (List.mem_of_getElem? hk)
  rw [hopen] at hended
  cases hended

theorem held_of_step {w w' : World} {e : Event} (hw : Held w) (hok : Undropped w e)
    (h : step w e = some w') : Held w' := by
  cases stepped_of_step h with
  | elsewhere _ _ hdraining hconnections hfinal haccepting =>
      refine ⟨fun ht => ?_, fun ht => ?_⟩
      · unfold World.Some
        rw [hconnections, hfinal]
        exact hw.holder (hdraining ht)
      · rw [hfinal] at ht
        obtain ⟨hclosed, hended⟩ := hw.alone ht
        exact ⟨Bool.eq_false_iff.mpr fun h => by simp [haccepting h] at hclosed,
          hconnections ▸ hended⟩
  | accept haccepting deadline =>
      have hkeep : ∀ Q, w.Some Q → World.Some
          { w with connections := w.connections ++ [⟨deadline, none, .reading⟩] } Q := by
        rintro Q ⟨j, m, hm, hQ⟩
        obtain ⟨hj, -⟩ := List.getElem?_eq_some_iff.mp hm
        exact ⟨j, m, by rw [List.getElem?_append_left hj, hm], hQ⟩
      refine ⟨fun ht => ?_, fun ht => ?_⟩
      · exact (hw.holder ht).imp (hkeep _) (.imp_left (hkeep _))
      · exact absurd (hw.alone ht).1 (by simp [haccepting])
  | connection i x k k' tracker cancelled hk hmoved =>
      refine ⟨fun ht => ?_, fun ht => absurd ht (hw.not_final hk hmoved.unended)⟩
      rcases hmoved.enters ht with hbefore | henters
      · rcases hw.holder hbefore with hholds | htold | hfinal
        · by_cases hk' : k.phase.holds = true
          · have hnot : ¬(x = .deadline ∨ x = .writeFails) := fun hx => by
              simp [(hok k hk).1 hx] at hk'
            obtain ⟨hdeadline, hfails⟩ := not_or.mp hnot
            rcases hmoved.keeps hk' hdeadline hfails with hholds' | htold' | hoff
            · exact .inl (.moved hk rfl hholds')
            · exact .inr (.inl (.moved hk rfl htold'))
            · exact absurd (hoff.symm.trans ht) Bool.false_ne_true
          · exact .inl (hholds.after_move hk rfl fun h => absurd h hk')
        · have hnot : k.phase.told ≠ true := fun h =>
            absurd (hasEnded_of_told h) (by simp [hmoved.unended])
          exact .inr (.inl (htold.after_move hk rfl fun h => absurd h hnot))
        · exact absurd hfinal (hw.not_final hk hmoved.unended)
      · exact .inl (.moved hk rfl henters)
  | startFinalDrain tracker call haccepting hended =>
      exact ⟨fun _ => .inr (.inr rfl), fun _ => ⟨haccepting, hended⟩⟩

/-- In every run that drops no drain, drain mode has a holder. -/
theorem held_of_run (now : ℕ) {es : List Event} {w : World} (h : (daemon now).run es = some w)
    (hok : (daemon now).StepsMeet Undropped es) : Held w := by
  have hinit : Held (daemon now).init := ⟨nofun, nofun⟩
  exact StepSystem.invariant_of_stepsMeet hinit (fun _ _ _ => held_of_step) h hok

/-! ### The end of a drain request -/

/-- The step from `w` to `w'` ends the handling of a drain request on the connection `i`, which
is `k` from then on. -/
def EndsDrain (w w' : World) (i : ℕ) (k : Connection) : Prop :=
  (∃ before, w.connections[i]? = some before ∧ before.phase.hasEnded = false)
    ∧ w'.connections[i]? = some k ∧ k.asksDrain = true ∧ k.phase.hasEnded = true

/-- The client was answered that the daemon has drained, or another drain is under way, or the
tracker admits requests again. -/
def LeavesAdmitting (w : World) (i : ℕ) (k : Connection) : Prop :=
  k.phase.told = true
    ∨ (∃ (j : ℕ) (m : Connection), j ≠ i ∧ w.connections[j]? = some m ∧ m.phase.holds = true)
    ∨ w.draining = false

lemma not_holds_of_hasEnded {p : Phase} (h : p.hasEnded = true) : p.holds = false := by
  cases p with
  | ended => rfl
  | _ => cases h

/-- Only a section of the connection itself ends its handling. -/
lemma moved_of_ends {w w' : World} {e : Event} {i : ℕ} {before k : Connection}
    (hbefore : w.connections[i]? = some before) (hopen : before.phase.hasEnded = false)
    (hk : w'.connections[i]? = some k) (hended : k.phase.hasEnded = true)
    (h : step w e = some w') :
    ∃ x, Moved w.tracker before x w'.tracker k ∧ e = .connection i x
      ∧ w'.finalDrain = w.finalDrain
      ∧ ∀ j, j ≠ i → w'.connections[j]? = w.connections[j]? := by
  have hchanged : w'.connections[i]? ≠ some before := fun hsame => by
    obtain rfl := Option.some.inj (hk.symm.trans hsame)
    exact absurd hended (by simp [hopen])
  obtain ⟨hi, -⟩ := List.getElem?_eq_some_iff.mp hbefore
  cases stepped_of_step h with
  | elsewhere _ _ _ hconnections => exact absurd (hconnections ▸ hbefore) hchanged
  | accept _ deadline =>
      exact absurd (by rw [List.getElem?_append_left hi, hbefore]) hchanged
  | startFinalDrain => exact absurd hbefore hchanged
  | connection j x m k' tracker cancelled hm hmoved =>
      by_cases hji : j = i
      · subst hji
        obtain rfl := Option.some.inj (hm.symm.trans hbefore)
        rw [List.getElem?_set_self hi] at hk
        obtain rfl := Option.some.inj hk
        exact ⟨x, hmoved, rfl, rfl, fun l hl => List.getElem?_set_ne hl.symm⟩
      · exact absurd (by rw [List.getElem?_set_ne hji, hbefore]) hchanged

/-- The end of a drain request, in a mode that has a holder before and after. -/
lemma leavesAdmitting_of_step {w w' : World} {e : Event} {i : ℕ} {k : Connection}
    (hw : Held w) (hok : Undropped w e) (h : step w e = some w') (hends : EndsDrain w w' i k) :
    LeavesAdmitting w' i k := by
  obtain ⟨⟨before, hbefore, hopen⟩, hk, hasks, hended⟩ := hends
  obtain ⟨x, hmoved, rfl, hfinal, hothers⟩ := moved_of_ends hbefore hopen hk hended h
  obtain ⟨hx, hrequest⟩ := hmoved.ends hended
  by_cases htold : k.phase.told = true
  · exact .inl htold
  by_cases hdraining : w'.draining = true
  · refine .inr (.inl ?_)
    rcases (held_of_step hw hok h).holder hdraining with hholds | hsome | hwait
    · obtain ⟨j, m, hm, hmholds⟩ := hholds
      refine ⟨j, m, fun hji => ?_, hm, hmholds⟩
      subst hji
      obtain rfl := Option.some.inj (hk.symm.trans hm)
      exact absurd hmholds (by simp [not_holds_of_hasEnded hended])
    · -- another client was told: the request came to nothing in its drain mode
      exfalso
      obtain ⟨j, m, hm, hmtold⟩ := hsome
      have hji : j ≠ i := by
        rintro rfl
        obtain rfl := Option.some.inj (hk.symm.trans hm)
        exact htold hmtold
      obtain ⟨hkept, hmode⟩ := hok before hbefore
      have hnot : before.phase.holds = false := by
        rcases hx with rfl | hx
        · by_contra hholds
          rcases hmoved.keeps (by simpa using hholds) nofun nofun with h | h | h
          · exact absurd h (by simp [not_holds_of_hasEnded hended])
          · exact htold h
          · exact absurd (h.symm.trans hdraining) Bool.false_ne_true
        · exact hkept hx.symm
      have hasksBefore : before.asksDrain = true := by
        rwa [Connection.asksDrain, ← hrequest]
      have hsame : w.draining = true := by
        rw [World.draining, ← hmoved.quiet hended hnot]
        exact hdraining
      exact hmode hx hasksBefore hnot ⟨hsame, j, m, (hothers j hji) ▸ hm, hmtold⟩
    · exact absurd (hfinal ▸ hwait) (hw.not_final hbefore hopen)
  · exact .inr (.inr (by simpa using hdraining))

/-- A drain of an idle daemon, up to the write of its answer. -/
def drainEvents : List Event :=
  [.accept, .connection 0 (.request (.drain none) true), .connection 0 (.poll .listen),
    .connection 0 (.poll .observe), .connection 0 .report]

/-- A drain that asks for no window waits longer than its connection lives: with a job in
flight, the deadline drops it after 15 seconds, and the tracker stays in drain mode. -/
def cutOffEvents : List Event :=
  [.printing .tryAcquireRequest, .printing (.markPrintJob 0), .accept,
    .connection 0 (.request (.drain none) true), .connection 0 (.poll .listen),
    .connection 0 (.poll .observe), .printing (.tick ioTimeout)]

end ShaPrint.Daemon
