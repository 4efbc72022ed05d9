import Mathlib.Data.List.Nodup
import Mathlib.Data.Nat.Basic
import Mathlib.Order.Basic
import ShaPrint.Runtime.Coordinator

/-!
What the sections of the coordinator do, in terms of the services that a call is ending.

* `Grip`, `Process.hand`: the services that a call is ending, with the tasks it holds.
* `undisturbed`: the calls that end a service, or start it, follow one another, and a task that
  is awaited ends before the wait does.
* `Acted`, `acted_of_advance`: what a section of a call does, from one hand to another; `Tasked`
  says it of a task.
-/

namespace ShaPrint.Runtime

/-! ### The hand of a call -/

/-- A service that a call is ending. -/
structure Grip where
  id : ServiceId
  /-- The entry of the service was taken, with its task if there was one. -/
  took : Bool
  task : Option ℕ
  /-- The stop of the task is published. -/
  marked : Bool
  deriving DecidableEq

def Grip.mark (g : Grip) : Grip := { g with marked := true }

/-- The task is over, if there is one. -/
def Grip.isOver (c : Coordinator) (g : Grip) : Bool := g.task.all c.ended.contains

/-- The grip on an entry that was taken. -/
def gripOf (e : ServiceId × ℕ) : Grip := ⟨e.1, true, some e.2, false⟩

def StopPhase.hand (id : ServiceId) : StopPhase → List Grip
  | .taking _ => [⟨id, false, none, false⟩]
  | .recording => [⟨id, true, none, false⟩]
  | .marking _ task => [gripOf (id, task)]
  | .waiting task => [(gripOf (id, task)).mark]
  | .called | .returned _ | .dropped => []

def StartPhase.hand (id : ServiceId) : StartPhase → List Grip
  | .resetting p => p.hand id
  | .discarding _ => [⟨id, false, none, false⟩]
  | .tearing _ task => [gripOf (id, task)]
  | .abandoning _ | .failing _ => [⟨id, true, none, false⟩]
  | _ => []

def ShutdownPhase.hand : ShutdownPhase → List Grip
  | .marking done todo => done.map (fun e => (gripOf e).mark) ++ todo.map gripOf
  | .signalling done _ e todo =>
      done.map (fun e => (gripOf e).mark) ++ gripOf e :: todo.map gripOf
  | .waiting rest _ => rest.map fun e => (gripOf e).mark
  | .called | .returned _ | .dropped => []

/-- The task is not at its end: how it ended is not recorded. -/
def TaskPhase.isOpen : TaskPhase → Bool
  | .running | .recording _ => true
  | .closing | .resolved => false

namespace Process

def hand : Process → List Grip
  | .start id p => p.hand id
  | .stop id p => p.hand id
  | .shutdown p => p.hand
  | .task _ _ _ => []

/-- The call is ending the service. -/
def ends (id : ServiceId) (p : Process) : Bool := p.hand.any fun g => g.id == id

def isCall : Process → Bool
  | .task _ _ _ => false
  | _ => true

/-- The process is the `n`-th task, of the service. -/
def IsTask (id : ServiceId) (n : ℕ) (p : Process) : Prop := ∃ phase, p = .task id n phase

/-- The process is a task of the service that runs. -/
def Runs (id : ServiceId) (n : ℕ) (p : Process) : Prop :=
  ∃ phase, p = .task id n phase ∧ phase.isOpen = true

lemma Runs.isTask {id : ServiceId} {n : ℕ} {p : Process} (h : p.Runs id n) : p.IsTask id n :=
  h.imp fun _ hp => hp.1

lemma not_isTask {p : Process} (h : p.isCall = true) (id : ServiceId) (n : ℕ) :
    ¬p.IsTask id n := by
  rintro ⟨phase, rfl⟩
  cases h

lemma IsTask.eq {id i : ServiceId} {n m : ℕ} {p : Process} (h : p.IsTask id n)
    (hi : p.IsTask i m) : i = id ∧ m = n := by
  obtain ⟨phase, rfl⟩ := h
  obtain ⟨phase', h'⟩ := hi
  exact ⟨(Process.task.inj h').1.symm, (Process.task.inj h').2.1.symm⟩

/-- The services that a section begins to end, or starts a task of. -/
def claims (c : Coordinator) : Process → Input → List ServiceId
  | .stop id .called, .go => [id]
  | .start id (.resetting .called), .go => [id]
  | .start id .spawning, .go => [id]
  | .start id .waiting, .go => if c.state id = .failed then [id] else []
  | .start id .waiting, .deadline => [id]
  | .shutdown .called, .go => c.entries.map (·.1)
  | _, _ => []

/-- The state that `shutdown` has read is still one that can be left. -/
def unrefused (c : Coordinator) : Process → Bool
  | .shutdown (.signalling _ live e _) => !live || canTransition (c.state e.1) .stopping
  | _ => true

end Process

/-- A wait is over no earlier than the tasks that are awaited. -/
def inTime (c : Coordinator) (hand : List Grip) : Input → Bool
  | .deadline => hand.head?.all (·.isOver c)
  | .drop => hand.all (·.isOver c)
  | _ => true

/-- No call ends or starts a service that another call is ending, no wait for a task is given
up before its end, and no `shutdown` is refused. -/
def undisturbed (w : World) : Event → Bool
  | .move i x => match w.processes[i]? with
      | some p =>
          ((p.claims w.shared x).all fun id => (w.processes.eraseIdx i).all fun q => !q.ends id)
            && inTime w.shared p.hand x && p.unrefused w.shared
      | none => true
  | _ => true

/-! ### One section -/

/-- The coordinators differ in their gates only. -/
structure SameTasks (c d : Coordinator) : Prop where
  state : d.state = c.state
  running : d.running = c.running
  spawned : d.spawned = c.spawned
  ended : d.ended = c.ended

/-- What a section of a call does, from one hand to another. -/
inductive Acted (c : Coordinator) (hand : List Grip) (claims : List ServiceId) (d : Coordinator) :
    List Grip → List Process → Prop
  | idle (hsame : SameTasks c d) : Acted c hand claims d hand []
  | began (id : ServiceId) (hsame : SameTasks c d) (hbefore : hand = []) (hclaims : id ∈ claims) :
      Acted c hand claims d [⟨id, false, none, false⟩] []
  /-- The entry of a service is taken. -/
  | took (id : ServiceId) (hstate : d.state = c.state) (hspawned : d.spawned = c.spawned)
      (hended : d.ended = c.ended) (hrunning : d.running = Function.update c.running id none)
      (hbefore : hand = [⟨id, false, none, false⟩]) :
      Acted c hand claims d [⟨id, true, c.running id, false⟩] []
  /-- All entries are taken. -/
  | tookAll (hstate : d.state = c.state) (hspawned : d.spawned = c.spawned)
      (hended : d.ended = c.ended) (hrunning : d.running = fun _ => none) (hbefore : hand = [])
      (hclaims : c.entries.map (·.1) ⊆ claims) :
      Acted c hand claims d (c.entries.map gripOf) []
  /-- The stop of a task is published, if its service is live. -/
  | marked (a : List Grip) (g : Grip) (b : List Grip) (hrunning : d.running = c.running)
      (hspawned : d.spawned = c.spawned) (hended : d.ended = c.ended)
      (hstate : d.state = c.state ∨ d.state = Function.update c.state g.id .stopping)
      (hbefore : hand = a ++ g :: b) : Acted c hand claims d (a ++ g.mark :: b) []
  /-- `stop` is refused, and loses the entry. -/
  | refused (g : Grip) (hsame : SameTasks c d) (hbefore : hand = [g]) (hmarked : g.marked = false)
      (hrefused : canTransition (c.state g.id) .stopping = false) : Acted c hand claims d [] []
  /-- The first task in the hand is over, and the service may be settled. -/
  | settled (g : Grip) (b rest : List Grip) (hrunning : d.running = c.running)
      (hspawned : d.spawned = c.spawned) (hended : d.ended = c.ended)
      (hstate : ∀ id, id ≠ g.id → d.state id = c.state id) (hbefore : hand = g :: b)
      (hrest : rest = b ∨ rest = ⟨g.id, true, none, false⟩ :: b)
      (htook : g.took = true) (hover : g.isOver c = true) : Acted c hand claims d rest []
  /-- The future is dropped, with tasks that are over. -/
  | dropped (hsame : SameTasks c d)
      (hover : ∀ g ∈ hand, g.took = true ∧ g.isOver c = true) : Acted c hand claims d [] []
  | spawned (id : ServiceId) (hstate : d.state = Function.update c.state id .starting)
      (hrunning : d.running = Function.update c.running id (some c.spawned))
      (hspawned : d.spawned = c.spawned + 1) (hended : d.ended = c.ended) (hbefore : hand = [])
      (hlegal : canTransition (c.state id) .starting = true) (hclaims : id ∈ claims) :
      Acted c hand claims d hand [.task id c.spawned .running]

/-- What a section of a task does: the handle may resolve, and the state changes to running, or
at the end of the task. -/
structure Tasked (c : Coordinator) (id : ServiceId) (n : ℕ) (before : TaskPhase)
    (d : Coordinator) (after : TaskPhase) : Prop where
  running : d.running = c.running
  spawned : d.spawned = c.spawned
  ended : d.ended = c.ended ∨ d.ended = n :: c.ended ∧ after.isOpen = false
  state : d.state = c.state ∨ d.state = Function.update c.state id .running
    ∨ before.isOpen = true ∧ after.isOpen = false ∧ ∀ i, i ≠ id → d.state i = c.state i
  isOpen : after.isOpen = true → before.isOpen = true

section Sections

variable {supervised : ServiceId → Bool} {c d : Coordinator} {id : ServiceId}
  {claims : List ServiceId}

lemma SameTasks.refl (c : Coordinator) : SameTasks c c := ⟨rfl, rfl, rfl, rfl⟩

/-- A service is started where it is not live. -/
lemma not_isLive_of_starting {s : ServiceState} (h : canTransition s .starting = true) :
    s.isLive = false := by
  cases s with
  | stopped | failed => rfl
  | starting | running | stopping => cases h

/-- A live service that cannot be stopped is being stopped. -/
lemma eq_stopping {s : ServiceState} (hlive : s.isLive = true)
    (h : canTransition s .stopping = false) : s = .stopping := by
  cases s with
  | stopping => rfl
  | stopped | failed => cases hlive
  | starting | running => cases h

namespace Coordinator

lemma transition_eq_some {next : ServiceState} (h : c.transition id next = some d) :
    canTransition (c.state id) next = true ∧ d = c.setState id next := by
  unfold transition at h
  split_ifs at h with hlegal
  exact ⟨hlegal, (Option.some.inj h).symm⟩

lemma transition_eq_none {next : ServiceState} (h : c.transition id next = none) :
    canTransition (c.state id) next = false := by
  unfold transition at h
  split_ifs at h with hlegal
  exact eq_false_of_ne_true hlegal

/-- A rejected transition changes nothing. -/
lemma record_cases (c : Coordinator) (id : ServiceId) (next : ServiceState) :
    c.record id next = c
    ∨ canTransition (c.state id) next = true ∧ c.record id next = c.setState id next := by
  unfold record
  cases h : c.transition id next with
  | none => exact .inl rfl
  | some d => exact .inr ⟨(transition_eq_some h).1, (transition_eq_some h).2⟩

/-- What a record leaves of the other services and of the tasks. -/
lemma record_frame (c : Coordinator) (id : ServiceId) (next : ServiceState) :
    (c.record id next).running = c.running ∧ (c.record id next).spawned = c.spawned
    ∧ (c.record id next).ended = c.ended
    ∧ ∀ i, i ≠ id → (c.record id next).state i = c.state i := by
  rcases c.record_cases id next with h | ⟨-, h⟩
  · rw [h]
    exact ⟨rfl, rfl, rfl, fun _ _ => rfl⟩
  · rw [h]
    exact ⟨rfl, rfl, rfl, fun i hi => Function.update_of_ne hi _ _⟩

lemma settleStopped_frame (c : Coordinator) (id : ServiceId) :
    (c.settleStopped id).running = c.running ∧ (c.settleStopped id).spawned = c.spawned
    ∧ (c.settleStopped id).ended = c.ended
    ∧ ∀ i, i ≠ id → (c.settleStopped id).state i = c.state i := by
  unfold settleStopped
  split_ifs
  · exact ⟨rfl, rfl, rfl, fun _ _ => rfl⟩
  · exact c.record_frame id .stopped

end Coordinator

/-- Nothing of it is about the gates. -/
lemma Acted.of_sameTasks {hand rest : List Grip} {new : List Process} {d' : Coordinator}
    (h : Acted c hand claims d rest new) (hsame : SameTasks d d') :
    Acted c hand claims d' rest new := by
  obtain ⟨hstate, hrunning, hspawned, hended⟩ := hsame
  have htasks : SameTasks c d → SameTasks c d' := fun h =>
    ⟨hstate.trans h.state, hrunning.trans h.running, hspawned.trans h.spawned,
      hended.trans h.ended⟩
  cases h with
  | idle h => exact .idle (htasks h)
  | began id h hbefore hclaims => exact .began id (htasks h) hbefore hclaims
  | took id hs hsp he hr hbefore =>
      exact .took id (hstate.trans hs) (hspawned.trans hsp) (hended.trans he)
        (hrunning.trans hr) hbefore
  | tookAll hs hsp he hr hbefore hclaims =>
      exact .tookAll (hstate.trans hs) (hspawned.trans hsp) (hended.trans he)
        (hrunning.trans hr) hbefore hclaims
  | marked a g b hr hsp he hs hbefore =>
      exact .marked a g b (hrunning.trans hr) (hspawned.trans hsp) (hended.trans he)
        (hs.imp hstate.trans hstate.trans) hbefore
  | refused g h hbefore hmarked hrefused => exact .refused g (htasks h) hbefore hmarked hrefused
  | settled g b rest hr hsp he hs hbefore hrest htook hover =>
      exact .settled g b rest (hrunning.trans hr) (hspawned.trans hsp) (hended.trans he)
        (fun i hi => (congrFun hstate i).trans (hs i hi)) hbefore hrest htook hover
  | dropped h hover => exact .dropped (htasks h) hover
  | spawned id hs hr hsp he hbefore hlegal hclaims =>
      exact .spawned id (hstate.trans hs) (hrunning.trans hr) (hspawned.trans hsp)
        (hended.trans he) hbefore hlegal hclaims

lemma sameTasks_lock (c : Coordinator) (id : ServiceId) : SameTasks c (c.lock id) :=
  ⟨rfl, rfl, rfl, rfl⟩

lemma sameTasks_unlock (c : Coordinator) (id : ServiceId) : SameTasks c (c.unlock id) :=
  ⟨rfl, rfl, rfl, rfl⟩

/-- The first service in the hand is settled by a record. -/
lemma acted_settled (g : Grip) (b : List Grip)
    (hframe : d.running = c.running ∧ d.spawned = c.spawned ∧ d.ended = c.ended
      ∧ ∀ i, i ≠ g.id → d.state i = c.state i)
    (htook : g.took = true) (hover : g.isOver c = true) : Acted c (g :: b) claims d b [] := by
  obtain ⟨hrunning, hspawned, hended, hstate⟩ := hframe
  exact .settled g b b hrunning hspawned hended hstate rfl (.inl rfl) htook hover

theorem stop_acted {p q : StopPhase} {x : Input} (h : stop supervised c id p x = some (d, q))
    (hclaims : p = .called → x = .go → id ∈ claims) (htime : inTime c (p.hand id) x = true) :
    Acted c (p.hand id) claims d (q.hand id) [] := by
  unfold stop at h
  split at h
  · -- called
    obtain ⟨rfl, rfl⟩ := Prod.mk.inj (Option.some.inj h)
    split_ifs
    · exact .idle (.refl _)
    · exact .idle (.refl _)
    · exact .began id (.refl _) rfl (hclaims rfl rfl)
  · -- taking
    split at h
    · rename_i hnone
      obtain ⟨rfl, rfl⟩ := Prod.mk.inj (Option.some.inj h)
      have htook : Acted c [⟨id, false, none, false⟩] claims c
          [⟨id, true, c.running id, false⟩] [] :=
        .took id rfl rfl rfl (by rw [← hnone, Function.update_eq_self]) rfl
      rwa [hnone] at htook
    · rename_i task htask
      obtain ⟨rfl, rfl⟩ := Prod.mk.inj (Option.some.inj h)
      have htook : Acted c [⟨id, false, none, false⟩] claims (c.take id)
          [⟨id, true, c.running id, false⟩] [] := .took id rfl rfl rfl rfl rfl
      rwa [htask] at htook
  · -- recording
    obtain ⟨rfl, rfl⟩ := Prod.mk.inj (Option.some.inj h)
    exact acted_settled _ [] (c.record_frame id .stopped) rfl rfl
  · -- marking
    rename_i live task
    split_ifs at h with hlive
    · split at h
      · rename_i hrefused
        obtain ⟨rfl, rfl⟩ := Prod.mk.inj (Option.some.inj h)
        exact .refused _ (.refl _) rfl rfl (Coordinator.transition_eq_none hrefused)
      · rename_i c' hlegal
        obtain ⟨rfl, rfl⟩ := Prod.mk.inj (Option.some.inj h)
        obtain ⟨-, rfl⟩ := Coordinator.transition_eq_some hlegal
        exact .marked [] (gripOf (id, task)) [] rfl rfl rfl (.inr rfl) rfl
    · obtain ⟨rfl, rfl⟩ := Prod.mk.inj (Option.some.inj h)
      exact .marked [] (gripOf (id, task)) [] rfl rfl rfl (.inl rfl) rfl
  · -- waiting, and the task is over
    split_ifs at h with hended
    obtain ⟨rfl, rfl⟩ := Prod.mk.inj (Option.some.inj h)
    exact acted_settled _ [] (c.settleStopped_frame id) rfl hended
  · -- waiting, and the deadline passes
    obtain ⟨rfl, rfl⟩ := Prod.mk.inj (Option.some.inj h)
    exact acted_settled _ [] (c.record_frame id .failed) rfl htime
  · -- waiting, and the future is dropped
    obtain ⟨rfl, rfl⟩ := Prod.mk.inj (Option.some.inj h)
    refine .dropped (.refl _) fun g hg => ?_
    obtain rfl := List.mem_singleton.mp hg
    exact ⟨rfl, List.all_eq_true.mp htime _ hg⟩
  · cases h

/-- The end of a `start`, at a hand that is let go of. -/
lemma acted_leave {hand : List Grip} {outcome : Outcome} {next : Coordinator × StartPhase ×
    List Process} (h : leave d id outcome = next) (hacted : Acted c hand claims d [] []) :
    Acted c hand claims next.1 (next.2.1.hand id) next.2.2 := by
  rw [← h]
  exact hacted.of_sameTasks (sameTasks_unlock d id)

/-- The last sections of `discard`, where the task is over. -/
lemma acted_abandon (g : Grip) (error : ErrorCode) (hid : g.id = id) (htook : g.took = true)
    (hover : g.isOver c = true) :
    Acted c [g] claims (abandon c id error).1 ((abandon c id error).2.1.hand id)
      (abandon c id error).2.2 := by
  unfold abandon
  split_ifs
  · exact .settled g [] _ rfl rfl rfl (fun _ _ => rfl) rfl (.inr (by rw [hid]; rfl)) htook hover
  · refine acted_leave rfl (acted_settled g [] ⟨rfl, rfl, rfl, fun _ _ => rfl⟩ htook hover)

lemma acted_launch (hclaims : id ∈ claims) :
    Acted c [] claims (launch c id).1 ((launch c id).2.1.hand id) (launch c id).2.2 := by
  unfold launch
  split_ifs
  · exact acted_leave rfl (.idle (.refl _))
  · split
    · exact acted_leave rfl (.idle (.refl _))
    · rename_i c' hstarting
      obtain ⟨hlegal, rfl⟩ := Coordinator.transition_eq_some hstarting
      exact .spawned id rfl rfl rfl rfl rfl hlegal hclaims

lemma acted_afterReset {hand : List Grip} {q : StopPhase}
    (h : Acted c hand claims d (q.hand id) []) :
    Acted c hand claims (afterReset d id q).1 ((afterReset d id q).2.1.hand id)
      (afterReset d id q).2.2 := by
  cases q with
  | returned outcome =>
      cases outcome with
      | ok => exact h
      | error e => exact acted_leave rfl h
  | dropped => exact h.of_sameTasks (sameTasks_unlock d id)
  | called | taking | recording | marking | waiting => exact h

theorem start_acted {p q : StartPhase} {x : Input} {new : List Process}
    (h : start supervised c id p x = some (d, q, new))
    (hclaims : ∀ i ∈ (Process.start id p).claims c x, i ∈ claims)
    (htime : inTime c (p.hand id) x = true) :
    Acted c (p.hand id) claims d (q.hand id) new := by
  -- a section that ends in the value of a function
  have hvalue : ∀ {next : Coordinator × StartPhase × List Process}, some next = some (d, q, new) →
      Acted c (p.hand id) claims next.1 (next.2.1.hand id) next.2.2 →
      Acted c (p.hand id) claims d (q.hand id) new := by
    intro next hnext hacted
    rw [Option.some.inj hnext] at hacted
    exact hacted
  have hidle : Acted c [] claims c [] [] := .idle (.refl c)
  unfold start at h
  split at h
  · -- called
    refine hvalue h ?_
    split_ifs
    · exact hidle
    · exact hidle
    · exact .idle (sameTasks_lock c id)
  · -- gated
    refine hvalue h ?_
    split_ifs
    · exact acted_leave rfl hidle
    · exact hidle
  · exact hvalue h hidle
  · exact hvalue h (acted_leave rfl hidle)
  · exact hvalue h (.idle (sameTasks_unlock c id))
  · -- prepared
    refine hvalue h ?_
    split_ifs <;> exact hidle
  · -- resetting
    rename_i p
    obtain ⟨⟨d', q'⟩, hstop, hnext⟩ := Option.map_eq_some_iff.mp h
    refine hvalue (congrArg some hnext) (acted_afterReset (stop_acted hstop ?_ htime))
    rintro rfl rfl
    exact hclaims id (List.mem_singleton_self id)
  · -- spawning
    exact hvalue h (acted_launch (hclaims id (List.mem_singleton_self id)))
  · -- waiting
    split at h
    · exact hvalue h (acted_leave rfl hidle)
    · rename_i hfailed
      refine hvalue h (.began id (.refl c) rfl (hclaims id ?_))
      rw [Process.claims, if_pos hfailed]
      exact List.mem_singleton_self id
    · cases h
  · exact hvalue h (.began id (.refl c) rfl (hclaims id (List.mem_singleton_self id)))
  · exact hvalue h (.idle (sameTasks_unlock c id))
  · -- discarding
    split at h
    · rename_i hnone
      have htook : Acted c [⟨id, false, none, false⟩] claims c
          [⟨id, true, c.running id, false⟩] [] :=
        .took id rfl rfl rfl (by rw [← hnone, Function.update_eq_self]) rfl
      rw [hnone] at htook
      exact hvalue h htook
    · rename_i task htask
      have htook : Acted c [⟨id, false, none, false⟩] claims (c.take id)
          [⟨id, true, c.running id, false⟩] [] := .took id rfl rfl rfl rfl rfl
      rw [htask] at htook
      exact hvalue h htook
  · -- tearing, and the task is over
    split_ifs at h with hended
    exact hvalue h (acted_abandon _ _ rfl rfl hended)
  · exact hvalue h (acted_abandon _ _ rfl rfl htime)
  · -- tearing, and the future is dropped
    refine hvalue h (.dropped (sameTasks_unlock c id) fun g hg => ?_)
    obtain rfl := List.mem_singleton.mp hg
    exact ⟨rfl, List.all_eq_true.mp htime _ hg⟩
  · exact hvalue h (acted_abandon _ _ rfl rfl rfl)
  · -- failing
    exact hvalue h (acted_leave rfl (acted_settled _ [] (c.record_frame id .failed) rfl rfl))
  · cases h

theorem shutdown_acted {p q : ShutdownPhase} {x : Input} (h : shutdown c p x = some (d, q))
    (hclaims : ∀ i ∈ (Process.shutdown p).claims c x, i ∈ claims)
    (htime : inTime c p.hand x = true) (hlegal : (Process.shutdown p).unrefused c = true) :
    Acted c p.hand claims d q.hand [] := by
  unfold shutdown at h
  split at h
  · -- called
    obtain ⟨rfl, rfl⟩ := Prod.mk.inj (Option.some.inj h)
    have htook : Acted c [] claims { c with running := fun _ => none } (c.entries.map gripOf) [] :=
      .tookAll rfl rfl rfl rfl rfl hclaims
    split_ifs with hempty
    · rwa [hempty] at htook
    · exact htook
  · -- every service is marked
    rename_i done
    obtain ⟨rfl, rfl⟩ := Prod.mk.inj (Option.some.inj h)
    simp only [ShutdownPhase.hand, List.map_nil, List.append_nil]
    exact .idle (.refl c)
  · obtain ⟨rfl, rfl⟩ := Prod.mk.inj (Option.some.inj h)
    exact .idle (.refl c)
  · -- signalling
    rename_i done live e todo
    have hmarked : ∀ {d' : Coordinator}, d'.running = c.running → d'.spawned = c.spawned →
        d'.ended = c.ended →
        (d'.state = c.state ∨ d'.state = Function.update c.state e.1 .stopping) →
        Acted c (ShutdownPhase.signalling done live e todo).hand claims d'
          (ShutdownPhase.marking (done ++ [e]) todo).hand [] := by
      intro d' hrunning hspawned hended hstate
      simp only [ShutdownPhase.hand, List.map_append, List.map_cons, List.map_nil,
        List.append_assoc, List.singleton_append]
      exact .marked _ (gripOf e) _ hrunning hspawned hended hstate rfl
    split_ifs at h with hlive
    · split at h
      · rename_i hrefused
        rw [Process.unrefused, hlive, Coordinator.transition_eq_none hrefused] at hlegal
        cases hlegal
      · rename_i c' hstop
        obtain ⟨rfl, rfl⟩ := Prod.mk.inj (Option.some.inj h)
        obtain ⟨-, rfl⟩ := Coordinator.transition_eq_some hstop
        exact hmarked rfl rfl rfl (.inr rfl)
    · obtain ⟨rfl, rfl⟩ := Prod.mk.inj (Option.some.inj h)
      exact hmarked rfl rfl rfl (.inl rfl)
  · obtain ⟨rfl, rfl⟩ := Prod.mk.inj (Option.some.inj h)
    exact .idle (.refl c)
  · -- waiting, and the first task is over
    split_ifs at h with hended
    obtain ⟨rfl, rfl⟩ := Prod.mk.inj (Option.some.inj h)
    exact acted_settled _ _ (c.settleStopped_frame _) rfl hended
  · -- waiting, and the deadline passes
    obtain ⟨rfl, rfl⟩ := Prod.mk.inj (Option.some.inj h)
    exact acted_settled _ _ (c.record_frame _ .failed) rfl htime
  · -- waiting, and the future is dropped
    obtain ⟨rfl, rfl⟩ := Prod.mk.inj (Option.some.inj h)
    refine .dropped (.refl _) fun g hg => ⟨?_, List.all_eq_true.mp htime g hg⟩
    obtain ⟨e, -, rfl⟩ := List.mem_map.mp hg
    rfl
  · cases h

theorem tasked_of_supervise {n : ℕ} {p q : TaskPhase} {x : Input}
    (h : supervise c id n p x = some (d, q)) : Tasked c id n p d q := by
  unfold supervise at h
  split at h
  · obtain ⟨rfl, rfl⟩ := Prod.mk.inj (Option.some.inj h)
    obtain ⟨hrunning, hspawned, hended, -⟩ := c.record_frame id .running
    refine ⟨hrunning, hspawned, .inl hended, ?_, fun h => h⟩
    rcases c.record_cases id .running with hsame | ⟨-, hset⟩
    · exact .inl (by rw [hsame])
    · exact .inr (.inl (by rw [hset]; rfl))
  · obtain ⟨rfl, rfl⟩ := Prod.mk.inj (Option.some.inj h)
    exact ⟨rfl, rfl, .inl rfl, .inl rfl, fun _ => rfl⟩
  · obtain ⟨rfl, rfl⟩ := Prod.mk.inj (Option.some.inj h)
    exact ⟨rfl, rfl, .inr ⟨rfl, rfl⟩, .inl rfl, fun _ => rfl⟩
  · obtain ⟨rfl, rfl⟩ := Prod.mk.inj (Option.some.inj h)
    obtain ⟨hrunning, hspawned, hended, hstate⟩ := c.record_frame id ‹_›
    exact ⟨hrunning, hspawned, .inl hended, .inr (.inr ⟨rfl, rfl, hstate⟩), fun _ => rfl⟩
  · obtain ⟨rfl, rfl⟩ := Prod.mk.inj (Option.some.inj h)
    exact ⟨rfl, rfl, .inr ⟨rfl, rfl⟩, .inl rfl, fun h => absurd h (by decide)⟩
  · cases h

/-- **What a section does: a call acts on the services in its hand, a task on its own.** -/
theorem acted_of_advance {p q : Process} {x : Input} {new : List Process}
    (h : advance supervised c p x = some (d, q, new)) :
    (p.isCall = true ∧ q.isCall = true
      ∧ (inTime c p.hand x = true → p.unrefused c = true →
        Acted c p.hand (p.claims c x) d q.hand new))
    ∨ ∃ id n before after, p = .task id n before ∧ q = .task id n after ∧ new = []
      ∧ Tasked c id n before d after := by
  cases p with
  | start id p =>
      obtain ⟨⟨d', q', new'⟩, hstart, hnext⟩ := Option.map_eq_some_iff.mp h
      obtain ⟨rfl, rfl, rfl⟩ : d' = d ∧ Process.start id q' = q ∧ new' = new := by
        simpa only [Prod.mk.injEq] using hnext
      exact .inl ⟨rfl, rfl, fun htime _ => start_acted hstart (fun _ hi => hi) htime⟩
  | stop id p =>
      obtain ⟨⟨d', q'⟩, hstop, hnext⟩ := Option.map_eq_some_iff.mp h
      obtain ⟨rfl, rfl, rfl⟩ : d' = d ∧ Process.stop id q' = q ∧ [] = new := by
        simpa only [Prod.mk.injEq] using hnext
      refine .inl ⟨rfl, rfl, fun htime _ => stop_acted hstop ?_ htime⟩
      rintro rfl rfl
      exact List.mem_singleton_self id
  | shutdown p =>
      obtain ⟨⟨d', q'⟩, hshutdown, hnext⟩ := Option.map_eq_some_iff.mp h
      obtain ⟨rfl, rfl, rfl⟩ : d' = d ∧ Process.shutdown q' = q ∧ [] = new := by
        simpa only [Prod.mk.injEq] using hnext
      exact .inl ⟨rfl, rfl, fun htime hlegal =>
        shutdown_acted hshutdown (fun _ hi => hi) htime hlegal⟩
  | task id n p =>
      obtain ⟨⟨d', q'⟩, htask, hnext⟩ := Option.map_eq_some_iff.mp h
      obtain ⟨rfl, rfl, rfl⟩ : d' = d ∧ Process.task id n q' = q ∧ [] = new := by
        simpa only [Prod.mk.injEq] using hnext
      exact .inr ⟨id, n, p, q', rfl, rfl, rfl, tasked_of_supervise htask⟩

end Sections

end ShaPrint.Runtime
