import ShaPrint.Runtime.Hands

/-!
The start gates: at most one `start` of a service is past its gate, whatever else is called.

* `Gating`, `gating_of_start`: what a section of `start` does to its gate.
* `GatesHeld`, `gates_of_run`: a gate is locked while a call holds it, which is one at most.
-/

namespace ShaPrint.Runtime

open Processes

/-- The call holds the gate of its service. -/
def StartPhase.isGated : StartPhase → Bool
  | .called | .returned _ | .dropped => false
  | _ => true

/-- The process is a `start` of the service that is past its gate. -/
def Process.Gated (id : ServiceId) (p : Process) : Prop :=
  ∃ phase, p = .start id phase ∧ phase.isGated = true

/-- A section of `start` keeps what it has of its gate, or locks a free one, or unlocks its
own. -/
inductive Gating (c : Coordinator) (id : ServiceId) (before : Bool) (d : Coordinator) :
    Bool → Prop
  | kept (hgates : d.gates = c.gates) : Gating c id before d before
  | locked (hbefore : before = false) (hfree : c.gates id = false)
      (hgates : d.gates = Function.update c.gates id true) : Gating c id before d true
  | unlocked (hbefore : before = true) (hgates : d.gates = Function.update c.gates id false) :
      Gating c id before d false

section Gates

variable {supervised : ServiceId → Bool} {c d : Coordinator} {id : ServiceId}

namespace Coordinator

lemma record_gates (c : Coordinator) (id : ServiceId) (next : ServiceState) :
    (c.record id next).gates = c.gates := by
  rcases c.record_cases id next with h | ⟨-, h⟩
  · rw [h]
  · rw [h]
    rfl

lemma settleStopped_gates (c : Coordinator) (id : ServiceId) :
    (c.settleStopped id).gates = c.gates := by
  unfold settleStopped
  split_ifs
  · rfl
  · exact c.record_gates id .stopped

lemma transition_gates {next : ServiceState} (h : c.transition id next = some d) :
    d.gates = c.gates := by
  rw [(transition_eq_some h).2]
  rfl

end Coordinator

lemma gates_of_some {α : Type} {next : Coordinator × α} {r : α} (h : some next = some (d, r))
    (hgates : next.1.gates = c.gates) : d.gates = c.gates := by
  rwa [Option.some.inj h] at hgates

lemma stop_gates {p q : StopPhase} {x : Input} (h : stop supervised c id p x = some (d, q)) :
    d.gates = c.gates := by
  unfold stop at h
  split at h
  · exact gates_of_some h rfl
  · split at h
    · exact gates_of_some h rfl
    · exact gates_of_some h rfl
  · exact gates_of_some h (c.record_gates id .stopped)
  · split_ifs at h
    · split at h
      · exact gates_of_some h rfl
      · rename_i hlegal
        exact gates_of_some h (Coordinator.transition_gates hlegal)
    · exact gates_of_some h rfl
  · split_ifs at h
    exact gates_of_some h (c.settleStopped_gates id)
  · exact gates_of_some h (c.record_gates id .failed)
  · exact gates_of_some h rfl
  · cases h

lemma shutdown_gates {p q : ShutdownPhase} {x : Input} (h : shutdown c p x = some (d, q)) :
    d.gates = c.gates := by
  unfold shutdown at h
  split at h
  · exact gates_of_some h rfl
  · exact gates_of_some h rfl
  · exact gates_of_some h rfl
  · split_ifs at h
    · split at h
      · exact gates_of_some h rfl
      · rename_i hlegal
        exact gates_of_some h (Coordinator.transition_gates hlegal)
    · exact gates_of_some h rfl
  · exact gates_of_some h rfl
  · split_ifs at h
    exact gates_of_some h (c.settleStopped_gates _)
  · exact gates_of_some h (c.record_gates _ .failed)
  · exact gates_of_some h rfl
  · cases h

lemma supervise_gates {n : ℕ} {p q : TaskPhase} {x : Input}
    (h : supervise c id n p x = some (d, q)) : d.gates = c.gates := by
  unfold supervise at h
  split at h
  · exact gates_of_some h (c.record_gates id .running)
  · exact gates_of_some h rfl
  · exact gates_of_some h rfl
  · exact gates_of_some h (c.record_gates id _)
  · exact gates_of_some h rfl
  · cases h

lemma gating_leave {outcome : Outcome} (hgates : d.gates = c.gates) :
    Gating c id true (leave d id outcome).1 (leave d id outcome).2.1.isGated :=
  .unlocked rfl (by rw [← hgates]; rfl)

lemma gating_abandon (c : Coordinator) (id : ServiceId) (error : ErrorCode) :
    Gating c id true (abandon c id error).1 (abandon c id error).2.1.isGated := by
  unfold abandon
  split_ifs
  · exact .kept rfl
  · exact gating_leave rfl

theorem gating_of_start {p q : StartPhase} {x : Input} {new : List Process}
    (h : start supervised c id p x = some (d, q, new)) :
    Gating c id p.isGated d q.isGated := by
  have hvalue : ∀ {next : Coordinator × StartPhase × List Process} {before : Bool},
      some next = some (d, q, new) → Gating c id before next.1 next.2.1.isGated →
      Gating c id before d q.isGated := by
    intro next before hnext hgating
    rw [Option.some.inj hnext] at hgating
    exact hgating
  have hkept : Gating c id true c true := .kept rfl
  unfold start at h
  split at h
  · -- called
    refine hvalue h ?_
    split_ifs with hsupervised hlocked
    · exact .kept rfl
    · exact .kept rfl
    · exact .locked rfl (eq_false_of_ne_true hlocked) rfl
  · refine hvalue h ?_
    split_ifs
    · exact gating_leave rfl
    · exact hkept
  · exact hvalue h hkept
  · exact hvalue h (gating_leave rfl)
  · exact hvalue h (.unlocked rfl rfl)
  · refine hvalue h ?_
    split_ifs <;> exact hkept
  · -- resetting
    obtain ⟨⟨d', q'⟩, hstop, hnext⟩ := Option.map_eq_some_iff.mp h
    have hgates := stop_gates hstop
    refine hvalue (congrArg some hnext) ?_
    cases q' with
    | returned outcome =>
        cases outcome with
        | ok => exact .kept hgates
        | error e => exact gating_leave hgates
    | dropped => exact .unlocked rfl (by rw [← hgates]; rfl)
    | called | taking | recording | marking | waiting => exact .kept hgates
  · -- spawning
    refine hvalue h ?_
    unfold launch
    split_ifs
    · exact gating_leave rfl
    · split
      · exact gating_leave rfl
      · rename_i hlegal
        have hgates := Coordinator.transition_gates hlegal
        exact .kept hgates
  · split at h
    · exact hvalue h (gating_leave rfl)
    · exact hvalue h hkept
    · cases h
  · exact hvalue h hkept
  · exact hvalue h (.unlocked rfl rfl)
  · split at h <;> exact hvalue h (.kept rfl)
  · split_ifs at h
    exact hvalue h (gating_abandon c id _)
  · exact hvalue h (gating_abandon c id _)
  · exact hvalue h (.unlocked rfl rfl)
  · exact hvalue h (gating_abandon c id _)
  · exact hvalue h (gating_leave (c.record_gates id .failed))
  · cases h

/-- Only `start` is about the gates. -/
lemma gates_of_advance {p q : Process} {x : Input} {new : List Process}
    (h : advance supervised c p x = some (d, q, new)) :
    (∃ id before after, p = .start id before ∧ q = .start id after
      ∧ Gating c id before.isGated d after.isGated)
    ∨ d.gates = c.gates ∧ ∀ id, ¬p.Gated id ∧ ¬q.Gated id := by
  have hnot : ∀ {r : Process}, (∀ id phase, r ≠ .start id phase) → ∀ id, ¬r.Gated id := by
    rintro r hr id ⟨phase, rfl, -⟩
    exact hr id phase rfl
  cases p with
  | start id p =>
      obtain ⟨⟨d', q', new'⟩, hstart, hnext⟩ := Option.map_eq_some_iff.mp h
      obtain ⟨rfl, rfl, rfl⟩ : d' = d ∧ Process.start id q' = q ∧ new' = new := by
        simpa only [Prod.mk.injEq] using hnext
      exact .inl ⟨id, p, q', rfl, rfl, gating_of_start hstart⟩
  | stop id p =>
      obtain ⟨⟨d', q'⟩, hstop, hnext⟩ := Option.map_eq_some_iff.mp h
      obtain ⟨rfl, rfl, rfl⟩ : d' = d ∧ Process.stop id q' = q ∧ [] = new := by
        simpa only [Prod.mk.injEq] using hnext
      exact .inr ⟨stop_gates hstop, fun i => ⟨hnot (fun _ _ => Process.noConfusion) i,
        hnot (fun _ _ => Process.noConfusion) i⟩⟩
  | shutdown p =>
      obtain ⟨⟨d', q'⟩, hshutdown, hnext⟩ := Option.map_eq_some_iff.mp h
      obtain ⟨rfl, rfl, rfl⟩ : d' = d ∧ Process.shutdown q' = q ∧ [] = new := by
        simpa only [Prod.mk.injEq] using hnext
      exact .inr ⟨shutdown_gates hshutdown, fun i => ⟨hnot (fun _ _ => Process.noConfusion) i,
        hnot (fun _ _ => Process.noConfusion) i⟩⟩
  | task id n p =>
      obtain ⟨⟨d', q'⟩, htask, hnext⟩ := Option.map_eq_some_iff.mp h
      obtain ⟨rfl, rfl, rfl⟩ : d' = d ∧ Process.task id n q' = q ∧ [] = new := by
        simpa only [Prod.mk.injEq] using hnext
      exact .inr ⟨supervise_gates htask, fun i => ⟨hnot (fun _ _ => Process.noConfusion) i,
        hnot (fun _ _ => Process.noConfusion) i⟩⟩

/-! ### Runs -/

/-- A gate is locked by one call, which is past it. -/
structure GatesHeld (w : World) : Prop where
  one : ∀ id, AtMostOne w.processes (Process.Gated id)
  locked : ∀ id, w.shared.gates id = true ↔ Processes.Some w.processes (Process.Gated id)

lemma Process.gated_start {i : ServiceId} {phase : StartPhase} :
    (Process.start id phase).Gated i ↔ i = id ∧ phase.isGated = true := by
  constructor
  · rintro ⟨phase', hphase, hgated⟩
    obtain ⟨rfl, rfl⟩ := Process.start.inj hphase
    exact ⟨rfl, hgated⟩
  · rintro ⟨rfl, hgated⟩
    exact ⟨phase, rfl, hgated⟩

/-- What `start` spawns is a task. -/
lemma isCall_of_start {p q : StartPhase} {x : Input} {new : List Process}
    (h : start supervised c id p x = some (d, q, new)) : ∀ r ∈ new, r.isCall = false := by
  have hnil : ∀ {next : Coordinator × StartPhase × List Process}, some next = some (d, q, new) →
      next.2.2 = [] → ∀ r ∈ new, r.isCall = false := by
    intro next hnext hnone r hr
    rw [Option.some.inj hnext] at hnone
    dsimp only at hnone
    rw [hnone] at hr
    cases hr
  have habandon : ∀ e, (abandon c id e).2.2 = [] := by
    intro e
    unfold abandon
    split_ifs <;> rfl
  unfold start at h
  split at h
  · refine hnil h ?_
    split_ifs <;> rfl
  · refine hnil h ?_
    split_ifs <;> rfl
  · exact hnil h rfl
  · exact hnil h rfl
  · exact hnil h rfl
  · exact hnil h rfl
  · -- resetting
    obtain ⟨⟨d', q'⟩, -, hnext⟩ := Option.map_eq_some_iff.mp h
    refine hnil (congrArg some hnext) ?_
    cases q' with
    | returned outcome => cases outcome <;> rfl
    | called | taking | recording | marking | waiting | dropped => rfl
  · -- spawning
    have hnext := Option.some.inj h
    unfold launch at hnext
    split_ifs at hnext
    · exact hnil (congrArg some hnext) rfl
    · split at hnext
      · exact hnil (congrArg some hnext) rfl
      · obtain ⟨-, -, rfl⟩ : _ = d ∧ _ = q ∧ _ = new := by simpa only [Prod.mk.injEq] using hnext
        intro r hr
        rw [List.mem_singleton.mp hr]
        rfl
  · split at h
    · exact hnil h rfl
    · exact hnil h rfl
    · cases h
  · exact hnil h rfl
  · exact hnil h rfl
  · split at h
    · exact hnil h rfl
    · exact hnil h rfl
  · split_ifs at h
    exact hnil h (habandon _)
  · exact hnil h (habandon _)
  · exact hnil h rfl
  · exact hnil h (habandon _)
  · exact hnil h rfl
  · cases h

lemma not_gated_of_spawned {p q : Process} {x : Input} {new : List Process}
    (h : advance supervised c p x = some (d, q, new)) : ∀ r ∈ new, ∀ id, ¬r.Gated id := by
  have htask : ∀ r ∈ new, r.isCall = false := by
    cases p with
    | start id p =>
        obtain ⟨⟨d', q', new'⟩, hstart, hnext⟩ := Option.map_eq_some_iff.mp h
        obtain ⟨rfl, rfl, rfl⟩ : d' = d ∧ Process.start id q' = q ∧ new' = new := by
          simpa only [Prod.mk.injEq] using hnext
        exact isCall_of_start hstart
    | stop | shutdown | task =>
        obtain ⟨next, -, hnext⟩ := Option.map_eq_some_iff.mp h
        obtain ⟨-, -, rfl⟩ : _ = d ∧ _ = q ∧ [] = new := by
          simpa only [Prod.mk.injEq] using hnext
        exact fun r hr => absurd hr List.not_mem_nil
  rintro r hr id ⟨phase, rfl, -⟩
  cases htask _ hr

section World

variable {w v : World} {i : ℕ}

/-- A section of `start`, where the other gates stay as they are. -/
lemma gatesHeld_of_gating {before after : StartPhase} {new : List Process} (hw : GatesHeld w)
    (hp : w.processes[i]? = some (.start id before)) (hnew : ∀ r ∈ new, ∀ a, ¬r.Gated a)
    (h : Gating w.shared id before.isGated d after.isGated) :
    GatesHeld ⟨d, w.processes.set i (.start id after) ++ new⟩ := by
  generalize hbefore : before.isGated = b at h
  generalize hafter : after.isGated = b' at h
  have hother : ∀ {a : ServiceId}, a ≠ id → d.gates a = w.shared.gates a := by
    intro a ha
    cases h with
    | kept hgates => rw [hgates]
    | locked _ _ hgates | unlocked _ hgates => rw [hgates, Function.update_of_ne ha]
  have hsome : ∀ {a : ServiceId}, (a = id → after.isGated = true → before.isGated = true) →
      Processes.Some (w.processes.set i (.start id after) ++ new) (Process.Gated a) →
      Processes.Some w.processes (Process.Gated a) := by
    intro a hback hsome
    rcases some_before_move hp hsome with hq | ⟨j, r, -, hr, hgated⟩ | ⟨r, hr, hgated⟩
    · obtain ⟨rfl, hgated⟩ := Process.gated_start.mp hq
      exact ⟨i, _, hp, Process.gated_start.mpr ⟨rfl, hback rfl hgated⟩⟩
    · exact ⟨j, r, hr, hgated⟩
    · exact absurd hgated (hnew r hr a)
  have hlocked : ∀ a, a ≠ id ∨ after.isGated = before.isGated ∧ d.gates = w.shared.gates →
      (d.gates a = true
        ↔ Processes.Some (w.processes.set i (.start id after) ++ new) (Process.Gated a)) := by
    intro a ha
    have hgates : d.gates a = w.shared.gates a := ha.elim hother fun hkept => by rw [hkept.2]
    rw [hgates, hw.locked a]
    refine ⟨fun hbefore => some_after_move hp hbefore fun hgated => ?_, hsome fun hid hgated => ?_⟩
    · obtain ⟨rfl, hopen⟩ := Process.gated_start.mp hgated
      rcases ha with ha | ⟨hkept, -⟩
      · exact absurd rfl ha
      · exact Process.gated_start.mpr ⟨rfl, hkept.trans hopen⟩
    · rcases ha with ha | ⟨hkept, -⟩
      · exact absurd hid ha
      · exact hkept.symm.trans hgated
  -- a gate that is free is held by nobody
  have henter : (after.isGated = true → before.isGated = true ∨ w.shared.gates id = false) →
      ∀ a, AtMostOne (w.processes.set i (.start id after) ++ new) (Process.Gated a) := by
    intro hfree a
    refine atMostOne_after_move hp (hw.one a) (fun hq => ?_) fun r hr => hnew r hr a
    obtain ⟨rfl, hgated⟩ := Process.gated_start.mp hq
    rcases hfree hgated with hbefore | hfree
    · exact .inl (Process.gated_start.mpr ⟨rfl, hbefore⟩)
    · refine .inr fun j r _ hr hgated => ?_
      have hlocked := (hw.locked a).mpr ⟨j, r, hr, hgated⟩
      rw [hfree] at hlocked
      cases hlocked
  cases h with
  | kept hgates =>
      exact ⟨henter fun hgated => .inl (hbefore.trans (hafter.symm.trans hgated)),
        fun a => hlocked a (.inr ⟨hafter.trans hbefore.symm, hgates⟩)⟩
  | locked _ hfree hgates =>
      refine ⟨henter fun _ => .inr hfree, fun a => ?_⟩
      by_cases ha : a = id
      · subst ha
        rw [hgates, Function.update_self]
        exact iff_of_true rfl (some_of_moved hp (Process.gated_start.mpr ⟨rfl, hafter⟩))
      · exact hlocked a (.inl ha)
  | unlocked hheld hgates =>
      refine ⟨henter fun hgated => absurd (hafter.symm.trans hgated) (by decide), fun a => ?_⟩
      by_cases ha : a = id
      · subst ha
        rw [hgates, Function.update_self]
        refine iff_of_false (by decide) fun hstill => ?_
        rcases some_before_move hp hstill with hq | ⟨j, r, hne, hr, hgated⟩ | ⟨r, hr, hgated⟩
        · rw [(Process.gated_start.mp hq).2] at hafter
          cases hafter
        · exact hne (hw.one a j i r _ hr hp hgated
            (Process.gated_start.mpr ⟨rfl, hbefore.trans hheld⟩))
        · exact absurd hgated (hnew r hr a)
      · exact hlocked a (.inl ha)

lemma gatesHeld_of_step {e : Event} (hw : GatesHeld w)
    (h : (services supervised).step w e = some v) : GatesHeld v := by
  cases (services supervised).stepped_of_step h with
  | start k hstarts =>
      have hnot : ∀ id, ¬k.Gated id := by
        rintro id ⟨phase, rfl, hgated⟩
        simp only [services] at hstarts
        split at hstarts
        · rename_i hcalled
          rw [(Process.start.inj hcalled).2] at hgated
          cases hgated
        · rename_i hstop
          cases hstop
        · rename_i hshutdown
          cases hshutdown
        · cases hstarts
      refine ⟨fun id => atMostOne_after_start (hw.one id) (hnot id), fun id => ?_⟩
      rw [hw.locked id]
      refine ⟨some_after_start, fun hsome => ?_⟩
      rcases some_before_start hsome with hsome | hgated
      · exact hsome
      · exact absurd hgated (hnot id)
  | move i x p d q new hp hadvance =>
      have hnew := not_gated_of_spawned hadvance
      rcases gates_of_advance hadvance with ⟨id, before, after, rfl, rfl, hgating⟩ | ⟨hgates, hnot⟩
      · exact gatesHeld_of_gating hw hp hnew hgating
      · refine ⟨fun id => atMostOne_after_move hp (hw.one id) (fun hq => absurd hq (hnot id).2)
          fun r hr => hnew r hr id, fun id => ?_⟩
        dsimp only
        rw [hgates, hw.locked id]
        refine ⟨fun hsome => some_after_move hp hsome fun hgated => absurd hgated (hnot id).1,
          fun hsome => ?_⟩
        rcases some_before_move hp hsome with hq | ⟨j, r, -, hr, hgated⟩ | ⟨r, hr, hgated⟩
        · exact absurd hq (hnot id).2
        · exact ⟨j, r, hr, hgated⟩
        · exact absurd hgated (hnew r hr id)
  | outside x => exact x.elim

end World

/-- **In every interleaving of calls at most one `start` of a service is past its gate, so that
no two prepare the service at once, and the gate is locked exactly while there is one.** -/
theorem gates_of_run {es : List Event} {w : World}
    (h : (coordinator supervised).run es = some w) (id : ServiceId) :
    AtMostOne w.processes (Process.Gated id)
    ∧ (w.shared.gates id = true ↔ ∃ (j : ℕ) (phase : StartPhase),
      w.processes[j]? = some (.start id phase) ∧ phase.isGated = true) := by
  have hinit : GatesHeld (coordinator supervised).init := by
    refine ⟨fun id j k r s hr => ?_, fun id => iff_of_false Bool.false_ne_true ?_⟩
    · cases hr
    · rintro ⟨j, r, hr, -⟩
      cases hr
  have hheld := (coordinator supervised).invariant hinit
    (fun _ _ _ hw hv => gatesHeld_of_step hw hv) h
  refine ⟨hheld.one id, (hheld.locked id).trans ⟨?_, ?_⟩⟩
  · rintro ⟨j, r, hr, phase, rfl, hgated⟩
    exact ⟨j, phase, hr, hgated⟩
  · rintro ⟨j, phase, hr, hgated⟩
    exact ⟨j, _, hr, phase, rfl, hgated⟩

end Gates

/-- The server is started twice. -/
def secondStart : List Event :=
  [.start (.start .serverSharing .called), .move 0 .go, .move 0 .go,
    .start (.start .serverSharing .called), .move 1 .go]

/-- The second start of the server is refused while the first one prepares. -/
theorem second_start_refused :
    ∃ w, (coordinator fun _ => true).run secondStart = some w
      ∧ w.processes[0]? = some (.start .serverSharing .preparing)
      ∧ w.processes[1]? = some (.start .serverSharing (.returned (.error .invalidState)))
      ∧ AtMostOne w.processes (Process.Gated .serverSharing) := by
  obtain ⟨w, hw⟩ := Option.isSome_iff_exists.mp
    (by decide +kernel : ((coordinator fun _ => true).run secondStart).isSome = true)
  have hprocesses : ((coordinator fun _ => true).run secondStart).map (·.processes)
      = some [.start .serverSharing .preparing,
        .start .serverSharing (.returned (.error .invalidState))] := by decide +kernel
  rw [hw] at hprocesses
  have hlist : w.processes = _ := Option.some.inj hprocesses
  refine ⟨w, hw, ?_, ?_, (gates_of_run hw .serverSharing).1⟩
  · rw [hlist]
    rfl
  · rw [hlist]
    rfl

end ShaPrint.Runtime
