import ShaPrint.Runtime.Hands

/-!
At most one task of a service runs, and a service whose task runs is not reported stopped or
failed, as long as the calls that end the service do not disturb each other.

* `Tasks`, `Hands`: the numbers of the tasks, and the call that ends a service.
* `Kept`, `Lifecycle`: the invariant; a task that runs is among the running ones or in the hand
  of the only call that ends its service.
* `lifecycle_of_run`: at most one task, its service live, and none left after a stop.
-/

namespace ShaPrint.Runtime

open Processes

/-! ### The invariants -/

/-- The numbers of the tasks. -/
structure Tasks (w : World) : Prop where
  lt : ∀ (j : ℕ) (p : Process), w.processes[j]? = some p → ∀ id n, p.IsTask id n →
    n < w.shared.spawned
  number : ∀ n, AtMostOne w.processes fun p => ∃ id, p.IsTask id n
  ended_lt : ∀ n ∈ w.shared.ended, n < w.shared.spawned
  not_ended : ∀ (j : ℕ) (p : Process), w.processes[j]? = some p → ∀ id n, p.Runs id n →
    n ∉ w.shared.ended

/-- A service is ended by one call, and its entry stays out while it is. -/
structure Hands (w : World) : Prop where
  alone : ∀ id, AtMostOne w.processes fun p => p.ends id = true
  distinct : ∀ (j : ℕ) (p : Process), w.processes[j]? = some p → (p.hand.map Grip.id).Nodup
  taken : ∀ (j : ℕ) (p : Process), w.processes[j]? = some p → ∀ g ∈ p.hand, g.took = true →
    w.shared.running g.id = none

/-- The call holds the task. -/
def Process.Holds (id : ServiceId) (n : ℕ) (p : Process) : Prop :=
  ∃ g ∈ p.hand, g.id = id ∧ g.task = some n

/-- The call has published the stop of the service. -/
def Process.Marks (id : ServiceId) (p : Process) : Prop :=
  ∃ g ∈ p.hand, g.id = id ∧ g.marked = true

/-- What is known of a task that runs: its service is live, somebody can cancel it, and it is
the call that stops it that has published so. -/
structure Kept (w : World) (id : ServiceId) (n : ℕ) : Prop where
  live : (w.shared.state id).isLive = true
  held : w.shared.running id = some n ∨ Processes.Some w.processes (Process.Holds id n)
  stopping : w.shared.state id = .stopping → Processes.Some w.processes (Process.Marks id)

structure Lifecycle (w : World) : Prop where
  tasks : Tasks w
  hands : Hands w
  kept : ∀ (j : ℕ) (p : Process), w.processes[j]? = some p → ∀ id n, p.Runs id n → Kept w id n
  one : ∀ id, AtMostOne w.processes fun p => ∃ n, p.Runs id n
  newest : ∀ (j : ℕ) (p : Process), w.processes[j]? = some p → ∀ id n, p.Runs id n →
    ∀ (k : ℕ) (q : Process), w.processes[k]? = some q → ∀ m, q.IsTask id m → m ≤ n

section Step

variable {w : World} {i : ℕ} {p q : Process} {new : List Process} {d : Coordinator}

lemma ends_of_mem {g : Grip} (hg : g ∈ p.hand) : p.ends g.id = true :=
  List.any_eq_true.mpr ⟨g, hg, beq_self_eq_true g.id⟩

lemma exists_of_ends {id : ServiceId} (h : p.ends id = true) : ∃ g ∈ p.hand, g.id = id := by
  obtain ⟨g, hg, hid⟩ := List.any_eq_true.mp h
  exact ⟨g, hg, eq_of_beq hid⟩

/-- A call that holds a grip is the only one with one on the service, and has no other. -/
lemma Hands.grip_eq (hw : Hands w) (hp : w.processes[i]? = some p) {g : Grip} (hg : g ∈ p.hand)
    {k : ℕ} {r : Process} (hr : w.processes[k]? = some r) {h : Grip} (hh : h ∈ r.hand)
    (hid : h.id = g.id) : k = i ∧ h = g := by
  have hk : k = i := hw.alone g.id k i r p hr hp (hid ▸ ends_of_mem hh) (ends_of_mem hg)
  obtain rfl := hk
  obtain rfl := Option.some.inj (hp.symm.trans hr)
  exact ⟨rfl, List.inj_on_of_nodup_map (hw.distinct k p hp) hh hg hid⟩

/-- No task runs of a service whose entry was taken with a task that is over. -/
lemma Lifecycle.not_runs (hw : Lifecycle w) (hp : w.processes[i]? = some p) {g : Grip}
    (hg : g ∈ p.hand) (htook : g.took = true) (hover : g.isOver w.shared = true) {j : ℕ}
    {r : Process} (hr : w.processes[j]? = some r) (n : ℕ) : ¬r.Runs g.id n := by
  intro hruns
  rcases (hw.kept j r hr g.id n hruns).held with hrunning | ⟨k, s, hs, h, hh, hid, htask⟩
  · rw [hw.hands.taken i p hp g hg htook] at hrunning
    cases hrunning
  · obtain ⟨-, rfl⟩ := hw.hands.grip_eq hp hg hs hh hid
    rw [Grip.isOver, htask] at hover
    exact hw.tasks.not_ended j r hr h.id n hruns (List.contains_iff_mem.mp hover)

/-- A task after the section of a call was there before, or is spawned. -/
lemma task_before (hp : w.processes[i]? = some p) (hq : q.isCall = true) {j : ℕ} {r : Process}
    (hr : (w.processes.set i q ++ new)[j]? = some r) {id : ServiceId} {n : ℕ}
    (htask : r.IsTask id n) : w.processes[j]? = some r ∨ (w.processes.length ≤ j ∧ r ∈ new) := by
  rcases getElem?_after_move hp hr with ⟨-, rfl⟩ | ⟨-, hr⟩ | hnew
  · exact absurd htask (Process.not_isTask hq id n)
  · exact .inl hr
  · exact .inr hnew

/-- What a call spawns. -/
lemma Acted.tasks {c : Coordinator} {hand rest : List Grip} {claims : List ServiceId}
    (h : Acted c hand claims d rest new) :
    (new = [] ∧ d.spawned = c.spawned ∧ d.ended = c.ended)
    ∨ ∃ id ∈ claims, new = [.task id c.spawned .running] ∧ d.spawned = c.spawned + 1
      ∧ d.ended = c.ended ∧ rest = hand ∧ (c.state id).isLive = false
      ∧ d.state = Function.update c.state id .starting
      ∧ d.running = Function.update c.running id (some c.spawned) := by
  cases h with
  | idle hsame | began _ hsame | refused _ hsame | dropped hsame =>
      exact .inl ⟨rfl, hsame.spawned, hsame.ended⟩
  | took _ _ hspawned hended | tookAll _ hspawned hended | marked _ _ _ _ hspawned hended
  | settled _ _ _ _ hspawned hended => exact .inl ⟨rfl, hspawned, hended⟩
  | spawned id hstate hrunning hspawned hended _ hlegal hclaims =>
      exact .inr ⟨id, hclaims, rfl, hspawned, hended, rfl, not_isLive_of_starting hlegal, hstate,
        hrunning⟩

lemma isTask_spawned {id i : ServiceId} {n m : ℕ}
    (h : (Process.task id n .running).IsTask i m) : i = id ∧ m = n :=
  Process.IsTask.eq ⟨_, rfl⟩ h

lemma tasks_of_acted {claims : List ServiceId} (hw : Tasks w) (hp : w.processes[i]? = some p)
    (hq : q.isCall = true) (h : Acted w.shared p.hand claims d q.hand new) :
    Tasks ⟨d, w.processes.set i q ++ new⟩ := by
  have hspawned : w.shared.spawned ≤ d.spawned ∧ d.ended = w.shared.ended
      ∧ ∀ r ∈ new, ∀ id n, r.IsTask id n → n = w.shared.spawned ∧ n < d.spawned := by
    rcases h.tasks with ⟨rfl, hspawned, hended⟩ | ⟨id, -, rfl, hspawned, hended, -⟩
    · exact ⟨hspawned.ge, hended, fun r hr => absurd hr List.not_mem_nil⟩
    · refine ⟨by omega, hended, fun r hr i m htask => ?_⟩
      obtain rfl := List.mem_singleton.mp hr
      obtain ⟨-, rfl⟩ := isTask_spawned htask
      exact ⟨rfl, by omega⟩
  obtain ⟨hle, hended, hnew⟩ := hspawned
  refine ⟨fun j r hr id n htask => ?_, fun n => ?_, fun n hn => ?_, fun j r hr id n hruns => ?_⟩
  · rcases task_before hp hq hr htask with hr | ⟨-, hr⟩
    · exact lt_of_lt_of_le (hw.lt j r hr id n htask) hle
    · exact (hnew r hr id n htask).2
  · rintro j k r s hr hs ⟨id, hrtask⟩ ⟨id', hstask⟩
    rcases task_before hp hq hr hrtask with hr' | ⟨hj, hr'⟩
    · rcases task_before hp hq hs hstask with hs' | ⟨-, hs'⟩
      · exact hw.number n j k r s hr' hs' ⟨id, hrtask⟩ ⟨id', hstask⟩
      · have hlt := hw.lt j r hr' id n hrtask
        exact absurd (hnew s hs' id' n hstask).1 hlt.ne
    · rcases task_before hp hq hs hstask with hs' | ⟨hk, hs'⟩
      · have hlt := hw.lt k s hs' id' n hstask
        exact absurd (hnew r hr' id n hrtask).1 hlt.ne
      · -- a section spawns one task at most
        rcases h.tasks with ⟨rfl, -⟩ | ⟨_, -, rfl, -⟩
        · cases hr'
        · have hlast : ∀ {a : ℕ} {t : Process}, w.processes.length ≤ a →
              (w.processes.set i q ++ [Process.task ‹_› w.shared.spawned .running])[a]? = some t →
              a = w.processes.length := by
            intro a t ha ht
            obtain ⟨hlt, -⟩ := List.getElem?_eq_some_iff.mp ht
            rw [List.length_append, List.length_set, List.length_singleton] at hlt
            omega
          exact (hlast hj hr).trans (hlast hk hs).symm
  · rw [hended] at hn
    exact lt_of_lt_of_le (hw.ended_lt n hn) hle
  · rw [hended]
    rcases task_before hp hq hr hruns.isTask with hr | ⟨-, hr⟩
    · exact hw.not_ended j r hr id n hruns
    · intro hn
      have hlt := hw.ended_lt n hn
      exact absurd (hnew r hr id n hruns.isTask).1 hlt.ne

lemma entries_ids (c : Coordinator) : (c.entries.map (·.1)).Nodup := by
  have hids : ∀ ids : List ServiceId,
      ((ids.filterMap fun id => (c.running id).map fun task => (id, task)).map (·.1))
        = ids.filter fun id => (c.running id).isSome := by
    intro ids
    induction ids with
    | nil => rfl
    | cons id ids ih => cases hrunning : c.running id <;> simp [hrunning, ih]
  rw [Coordinator.entries, hids]
  exact List.Nodup.filter _ (by decide)

lemma mem_entries {c : Coordinator} {id : ServiceId} {n : ℕ} (h : c.running id = some n) :
    (id, n) ∈ c.entries := by
  refine List.mem_filterMap.mpr ⟨id, ?_, by rw [h]; rfl⟩
  cases id <;> decide

lemma hands_of_acted {claims : List ServiceId} (hw : Hands w) (hp : w.processes[i]? = some p)
    (hothers : ∀ id ∈ claims, ∀ (j : ℕ) (r : Process), j ≠ i → w.processes[j]? = some r →
      ¬r.ends id = true)
    (h : Acted w.shared p.hand claims d q.hand new) :
    Hands ⟨d, w.processes.set i q ++ new⟩ := by
  have hnew : ∀ r ∈ new, r.hand = [] := by
    rcases h.tasks with ⟨rfl, -⟩ | ⟨id, -, rfl, -⟩
    · exact fun r hr => absurd hr List.not_mem_nil
    · intro r hr
      obtain rfl := List.mem_singleton.mp hr
      rfl
  have hdistinct := hw.distinct i p hp
  have htaken := hw.taken i p hp
  -- the hand after the section, and the entries
  have hafter : (∀ g ∈ q.hand, (∃ h ∈ p.hand, h.id = g.id) ∨ g.id ∈ claims)
      ∧ (q.hand.map Grip.id).Nodup
      ∧ (∀ g ∈ q.hand, g.took = true → d.running g.id = none)
      ∧ ∀ id, d.running id = w.shared.running id ∨ d.running id = none ∨ id ∈ claims := by
    generalize p.hand = hand at h hdistinct htaken
    generalize q.hand = rest at h
    cases h with
    | idle hsame =>
        refine ⟨fun g hg => .inl ⟨g, hg, rfl⟩, hdistinct, fun g hg htook => ?_, fun id => .inl ?_⟩
        · rw [hsame.running]
          exact htaken g hg htook
        · rw [hsame.running]
    | began id hsame _ hclaims =>
        refine ⟨fun g hg => .inr ?_, List.nodup_singleton id, fun g hg htook => ?_,
          fun id => .inl ?_⟩
        · rw [List.mem_singleton.mp hg]
          exact hclaims
        · rw [List.mem_singleton.mp hg] at htook
          cases htook
        · rw [hsame.running]
    | took id _ _ _ hrunning hbefore =>
        refine ⟨fun g hg => .inl ?_, List.nodup_singleton id, fun g hg _ => ?_, fun i => ?_⟩
        · rw [hbefore, List.mem_singleton.mp hg]
          exact ⟨_, List.mem_singleton_self _, rfl⟩
        · rw [hrunning, List.mem_singleton.mp hg]
          exact Function.update_self ..
        · rw [hrunning]
          by_cases hid : i = id
          · rw [hid]
            exact .inr (.inl (Function.update_self ..))
          · exact .inl (Function.update_of_ne hid ..)
    | tookAll _ _ _ hrunning _ hclaims =>
        refine ⟨fun g hg => .inr ?_, ?_, fun g hg _ => ?_, fun i => .inr (.inl ?_)⟩
        · obtain ⟨e, he, rfl⟩ := List.mem_map.mp hg
          exact hclaims (List.mem_map_of_mem he)
        · rw [List.map_map]
          exact entries_ids w.shared
        · rw [hrunning]
        · rw [hrunning]
    | marked a g b hrunning _ _ _ hbefore =>
        subst hbefore
        have hids : (a ++ g.mark :: b).map Grip.id = (a ++ g :: b).map Grip.id := by
          simp [Grip.mark]
        refine ⟨fun h hh => .inl ?_, hids ▸ hdistinct, fun h hh htook => ?_, fun i => .inl ?_⟩
        · simp only [List.mem_append, List.mem_cons] at hh
          rcases hh with hh | rfl | hh
          · exact ⟨h, by simp [hh], rfl⟩
          · exact ⟨g, by simp, rfl⟩
          · exact ⟨h, by simp [hh], rfl⟩
        · rw [hrunning]
          simp only [List.mem_append, List.mem_cons] at hh
          rcases hh with hh | rfl | hh
          · exact htaken h (by simp [hh]) htook
          · exact htaken g (by simp) htook
          · exact htaken h (by simp [hh]) htook
        · rw [hrunning]
    | refused g hsame | dropped hsame =>
        refine ⟨fun g hg => absurd hg List.not_mem_nil, List.nodup_nil,
          fun g hg => absurd hg List.not_mem_nil, fun i => .inl ?_⟩
        rw [hsame.running]
    | settled g b rest hrunning _ _ _ hbefore hrest htook =>
        subst hbefore
        rcases hrest with rfl | rfl
        · refine ⟨fun h hh => .inl ⟨h, List.mem_cons_of_mem _ hh, rfl⟩,
            (List.nodup_cons.mp hdistinct).2, fun h hh htook => ?_, fun i => .inl ?_⟩
          · rw [hrunning]
            exact htaken h (List.mem_cons_of_mem _ hh) htook
          · rw [hrunning]
        · refine ⟨fun h hh => .inl ?_, hdistinct, fun h hh _ => ?_, fun i => .inl ?_⟩
          · rcases List.mem_cons.mp hh with rfl | hh
            · exact ⟨g, List.mem_cons_self, rfl⟩
            · exact ⟨h, List.mem_cons_of_mem _ hh, rfl⟩
          · rw [hrunning]
            rcases List.mem_cons.mp hh with rfl | hh
            · exact htaken g List.mem_cons_self htook
            · exact htaken h (List.mem_cons_of_mem _ hh) ‹_›
          · rw [hrunning]
    | spawned id _ hrunning _ _ hbefore _ hclaims =>
        subst hbefore
        refine ⟨fun g hg => absurd hg List.not_mem_nil, List.nodup_nil,
          fun g hg => absurd hg List.not_mem_nil, fun i => ?_⟩
        rw [hrunning]
        by_cases hid : i = id
        · exact .inr (.inr (hid ▸ hclaims))
        · exact .inl (Function.update_of_ne hid ..)
  obtain ⟨hfrom, hnodup, htook, hrunning⟩ := hafter
  refine ⟨fun id => ?_, ?_, ?_⟩
  · refine atMostOne_after_move hp (hw.alone id) (fun hends => ?_) fun r hr hends => ?_
    · obtain ⟨g, hg, rfl⟩ := exists_of_ends hends
      rcases hfrom g hg with ⟨h, hh, hid⟩ | hclaims
      · exact .inl (hid ▸ ends_of_mem hh)
      · exact .inr (hothers g.id hclaims)
    · rw [Process.ends, hnew r hr] at hends
      cases hends
  · refine forall_after_move hp (fun j r _ hr => hw.distinct j r hr) hnodup fun r hr => ?_
    rw [hnew r hr]
    exact List.nodup_nil
  · refine forall_after_move hp (fun j r hne hr g hg hgtook => ?_) htook fun r hr g hg => ?_
    · rcases hrunning g.id with hsame | hnone | hclaims
      · rw [hsame]
        exact hw.taken j r hr g hg hgtook
      · exact hnone
      · exact absurd (ends_of_mem hg) (hothers g.id hclaims j r hne hr)
    · rw [hnew r hr] at hg
      cases hg

/-- What is known of a task that runs stays known in the sections of calls. -/
lemma kept_of_acted {claims : List ServiceId} (hw : Lifecycle w) (hp : w.processes[i]? = some p)
    (h : Acted w.shared p.hand claims d q.hand new) {j : ℕ} {r : Process}
    (hr : w.processes[j]? = some r) {id : ServiceId} {n : ℕ} (hruns : r.Runs id n) :
    Kept ⟨d, w.processes.set i q ++ new⟩ id n := by
  have hbefore := hw.kept j r hr id n hruns
  -- no task runs of a service that is let go of
  have hother : ∀ g ∈ p.hand, g.took = true → g.isOver w.shared = true → id ≠ g.id := by
    rintro g hg htook hover rfl
    exact hw.not_runs hp hg htook hover hr n hruns
  have hgrip : ∀ {Q : Process → Prop}, Processes.Some w.processes Q → (Q p → Q q) →
      Processes.Some (w.processes.set i q ++ new) Q := fun hsome hmoved =>
    some_after_move hp hsome hmoved
  -- the grips on the service are the same ones, and the service is as it was
  have hframe : d.state id = w.shared.state id → d.running id = w.shared.running id →
      (∀ g ∈ p.hand, g.id = id → ∃ h ∈ q.hand, h.id = id ∧ h.task = g.task
        ∧ (g.marked = true → h.marked = true)) →
      Kept ⟨d, w.processes.set i q ++ new⟩ id n := by
    intro hstate hrunning hsame
    refine ⟨hstate ▸ hbefore.live, hrunning ▸ hbefore.held.imp_right fun hsome => ?_,
      fun hstopping => hgrip (hbefore.stopping (hstate ▸ hstopping)) ?_⟩
    · refine hgrip hsome ?_
      rintro ⟨g, hg, hid, htask⟩
      obtain ⟨h, hh, hhid, hhtask, -⟩ := hsame g hg hid
      exact ⟨h, hh, hhid, hhtask.trans htask⟩
    · rintro ⟨g, hg, hid, hmarked⟩
      obtain ⟨h, hh, hhid, -, hhmarked⟩ := hsame g hg hid
      exact ⟨h, hh, hhid, hhmarked hmarked⟩
  have htaken := hw.hands.taken i p hp
  have halone : ∀ g ∈ p.hand, ∀ Q : Process → Prop,
      (∀ s, Q s → ∃ h ∈ s.hand, h.id = g.id) → Processes.Some w.processes Q → Q p := by
    rintro g hg Q hQ ⟨k, s, hs, hQs⟩
    obtain ⟨h, hh, hid⟩ := hQ s hQs
    obtain ⟨rfl, -⟩ := hw.hands.grip_eq hp hg hs hh hid
    obtain rfl := Option.some.inj (hp.symm.trans hs)
    exact hQs
  generalize hhand : p.hand = hand at h
  generalize hrest : q.hand = rest at h
  cases h with
  | idle hsame =>
      exact hframe (congrFun hsame.state id) (congrFun hsame.running id)
        fun g hg hid => ⟨g, by rw [hrest, ← hhand]; exact hg, hid, rfl, fun h => h⟩
  | began i hsame hempty =>
      exact hframe (congrFun hsame.state id) (congrFun hsame.running id)
        fun g hg => by rw [hhand, hempty] at hg; cases hg
  | took i hstate hspawned hended hrunning hempty =>
      have hg : (⟨i, false, none, false⟩ : Grip) ∈ p.hand := by
        rw [hhand, hempty]
        exact List.mem_singleton_self _
      have hnot : ∀ g ∈ p.hand, g.task = none ∧ g.marked = false := by
        intro g hg
        rw [hhand, hempty] at hg
        rw [List.mem_singleton.mp hg]
        exact ⟨rfl, rfl⟩
      by_cases hid : id = i
      · subst hid
        refine ⟨by rw [hstate]; exact hbefore.live, .inr ?_, fun hstopping => ?_⟩
        · rcases hbefore.held with hheld | hsome
          · refine some_of_moved hp ⟨⟨id, true, w.shared.running id, false⟩, ?_, rfl, hheld⟩
            rw [hrest]
            exact List.mem_singleton_self _
          · obtain ⟨h, hh, -, htask⟩ := halone _ hg _ (fun s hs => hs.imp fun h hh =>
              ⟨hh.1, hh.2.1⟩) hsome
            rw [(hnot h hh).1] at htask
            cases htask
        · rw [hstate] at hstopping
          obtain ⟨h, hh, -, hmarked⟩ := halone _ hg _ (fun s hs => hs.imp fun h hh =>
            ⟨hh.1, hh.2.1⟩) (hbefore.stopping hstopping)
          rw [(hnot h hh).2] at hmarked
          cases hmarked
      · refine hframe (congrFun hstate id) ?_ fun g hg hgid => ?_
        · rw [hrunning]
          exact Function.update_of_ne hid ..
        · rw [hhand, hempty] at hg
          rw [List.mem_singleton.mp hg] at hgid
          exact absurd hgid.symm hid
  | tookAll hstate hspawned hended hrunning hempty =>
      have hnone : ∀ g, g ∉ p.hand := by
        intro g hg
        rw [hhand, hempty] at hg
        cases hg
      refine ⟨by rw [hstate]; exact hbefore.live, .inr ?_, fun hstopping => ?_⟩
      · rcases hbefore.held with hheld | hsome
        · refine some_of_moved hp ⟨gripOf (id, n), ?_, rfl, rfl⟩
          rw [hrest]
          exact List.mem_map_of_mem (mem_entries hheld)
        · exact hgrip hsome fun ⟨g, hg, _⟩ => absurd hg (hnone g)
      · rw [hstate] at hstopping
        exact hgrip (hbefore.stopping hstopping) fun ⟨g, hg, _⟩ => absurd hg (hnone g)
  | marked a g b hrunning hspawned hended hstate hsplit =>
      have hsame : ∀ h ∈ p.hand, ∃ h' ∈ q.hand, h'.id = h.id ∧ h'.task = h.task
          ∧ (h.marked = true → h'.marked = true) := by
        intro h hh
        rw [hhand, hsplit] at hh
        rw [hrest]
        simp only [List.mem_append, List.mem_cons] at hh
        rcases hh with hh | rfl | hh
        · exact ⟨h, by simp [hh], rfl, rfl, fun h => h⟩
        · exact ⟨h.mark, by simp, rfl, rfl, fun _ => rfl⟩
        · exact ⟨h, by simp [hh], rfl, rfl, fun h => h⟩
      have hmarks : g.id = id → q.Marks id := fun hid => ⟨g.mark, by rw [hrest]; simp, hid, rfl⟩
      by_cases hid : id = g.id
      · refine ⟨?_, ?_, fun _ => some_of_moved hp (hmarks hid.symm)⟩
        · rcases hstate with hstate | hstate
          · rw [hstate]
            exact hbefore.live
          · rw [hstate, hid, Function.update_self]
            rfl
        · rw [hrunning]
          refine hbefore.held.imp_right fun hsome => hgrip hsome ?_
          rintro ⟨h, hh, hhid, htask⟩
          obtain ⟨h', hh', hid', htask', -⟩ := hsame h hh
          exact ⟨h', hh', hid'.trans hhid, htask'.trans htask⟩
      · refine hframe ?_ (congrFun hrunning id) fun h hh hhid => ?_
        · rcases hstate with hstate | hstate
          · rw [hstate]
          · rw [hstate, Function.update_of_ne hid]
        · obtain ⟨h', hh', hid', hrest'⟩ := hsame h hh
          exact ⟨h', hh', hid'.trans hhid, hrest'⟩
  | refused g hsame hsingle hmarked hrefused =>
      have hg : g ∈ p.hand := by
        rw [hhand, hsingle]
        exact List.mem_singleton_self g
      -- a running task of the service would be stopping, and stopped by this very call
      have hid : id ≠ g.id := by
        rintro rfl
        have hstopping := eq_stopping hbefore.live hrefused
        obtain ⟨h, hh, -, hhmarked⟩ := halone g hg _ (fun s hs => hs.imp fun h hh =>
          ⟨hh.1, hh.2.1⟩) (hbefore.stopping hstopping)
        rw [hhand, hsingle] at hh
        rw [List.mem_singleton.mp hh, hmarked] at hhmarked
        cases hhmarked
      refine hframe (congrFun hsame.state id) (congrFun hsame.running id) fun h hh hhid => ?_
      rw [hhand, hsingle] at hh
      rw [List.mem_singleton.mp hh] at hhid
      exact absurd hhid.symm hid
  | settled g b rest hrunning hspawned hended hstate hsplit hkeep htook hover =>
      have hid := hother g (by rw [hhand, hsplit]; exact List.mem_cons_self) htook hover
      refine hframe (hstate id hid) (congrFun hrunning id) fun h hh hhid => ?_
      rw [hhand, hsplit] at hh
      rcases List.mem_cons.mp hh with rfl | hh
      · exact absurd hhid.symm hid
      · refine ⟨h, ?_, hhid, rfl, fun h => h⟩
        rw [hrest]
        rcases hkeep with rfl | rfl
        · exact hh
        · exact List.mem_cons_of_mem _ hh
  | dropped hsame hover =>
      refine hframe (congrFun hsame.state id) (congrFun hsame.running id) fun h hh hhid => ?_
      have hhover := hover h (hhand ▸ hh)
      exact absurd hhid.symm (hother h hh hhover.1 hhover.2)
  | spawned i hstate hrunning hspawned hended hempty hlegal =>
      have hid : id ≠ i := by
        rintro rfl
        have hlive := hbefore.live
        rw [not_isLive_of_starting hlegal] at hlive
        cases hlive
      refine hframe ?_ ?_ fun g hg hgid => ⟨g, by rw [hrest, ← hhand]; exact hg, hgid, rfl,
        fun h => h⟩
      · rw [hstate, Function.update_of_ne hid]
      · rw [hrunning, Function.update_of_ne hid]

lemma lifecycle_of_acted {claims : List ServiceId} (hw : Lifecycle w)
    (hp : w.processes[i]? = some p) (hq : q.isCall = true)
    (hothers : ∀ id ∈ claims, ∀ (j : ℕ) (r : Process), j ≠ i → w.processes[j]? = some r →
      ¬r.ends id = true)
    (h : Acted w.shared p.hand claims d q.hand new) :
    Lifecycle ⟨d, w.processes.set i q ++ new⟩ := by
  have hkept : ∀ {j : ℕ} {r : Process}, w.processes[j]? = some r → ∀ {id n}, r.Runs id n →
      Kept ⟨d, w.processes.set i q ++ new⟩ id n := fun hr _ _ hruns =>
    kept_of_acted hw hp h hr hruns
  have hspawned : ∀ r ∈ new, ∀ id n, r.IsTask id n → n = w.shared.spawned
      ∧ (w.shared.state id).isLive = false ∧ d.state id = .starting ∧ d.running id = some n := by
    rcases h.tasks with ⟨rfl, -⟩ | ⟨i, -, rfl, -, -, -, hlive, hstate, hrunning⟩
    · exact fun r hr => absurd hr List.not_mem_nil
    · intro r hr id n htask
      obtain rfl := List.mem_singleton.mp hr
      obtain ⟨rfl, rfl⟩ := isTask_spawned htask
      exact ⟨rfl, hlive, by rw [hstate, Function.update_self], by rw [hrunning,
        Function.update_self]⟩
  have hfree : ∀ r ∈ new, ∀ id n, r.IsTask id n → ∀ {j : ℕ} {s : Process},
      w.processes[j]? = some s → ∀ m, ¬s.Runs id m := by
    intro r hr id n htask j s hs m hruns
    have hlive := (hw.kept j s hs id m hruns).live
    rw [(hspawned r hr id n htask).2.1] at hlive
    cases hlive
  have htasks := tasks_of_acted hw.tasks hp hq h
  refine ⟨htasks, hands_of_acted hw.hands hp hothers h, fun j r hr id n hruns => ?_,
    fun id => ?_, fun j r hr id n hruns k s hs m htask => ?_⟩
  · rcases task_before hp hq hr hruns.isTask with hr | ⟨-, hr⟩
    · exact hkept hr hruns
    · obtain ⟨-, -, hstate, hrunning⟩ := hspawned r hr id n hruns.isTask
      refine ⟨by rw [hstate]; rfl, .inl hrunning, fun hstopping => ?_⟩
      rw [hstate] at hstopping
      cases hstopping
  · rintro j k r s hr hs ⟨n, hrruns⟩ ⟨m, hsruns⟩
    rcases task_before hp hq hr hrruns.isTask with hr' | ⟨-, hr'⟩
    · rcases task_before hp hq hs hsruns.isTask with hs' | ⟨-, hs'⟩
      · exact hw.one id j k r s hr' hs' ⟨n, hrruns⟩ ⟨m, hsruns⟩
      · exact absurd hrruns (hfree s hs' id m hsruns.isTask hr' n)
    · rcases task_before hp hq hs hsruns.isTask with hs' | ⟨-, hs'⟩
      · exact absurd hsruns (hfree r hr' id n hrruns.isTask hs' m)
      · have hn := (hspawned r hr' id n hrruns.isTask).1
        have hm := (hspawned s hs' id m hsruns.isTask).1
        exact htasks.number n j k r s hr hs ⟨id, hrruns.isTask⟩
          ⟨id, hn.trans hm.symm ▸ hsruns.isTask⟩
  · rcases task_before hp hq hr hruns.isTask with hr' | ⟨-, hr'⟩
    · rcases task_before hp hq hs htask with hs' | ⟨-, hs'⟩
      · exact hw.newest j r hr' id n hruns k s hs' m htask
      · exact absurd hruns (hfree s hs' id m htask hr' n)
    · rw [(hspawned r hr' id n hruns.isTask).1]
      rcases task_before hp hq hs htask with hs' | ⟨-, hs'⟩
      · exact (hw.tasks.lt k s hs' id m htask).le
      · exact (hspawned s hs' id m htask).1.le

/-- A task after one of its own sections was there before, if in another phase. -/
lemma isTask_before {id : ServiceId} {n : ℕ} {before after : TaskPhase}
    (hp : w.processes[i]? = some (.task id n before)) {j : ℕ} {r : Process}
    (hr : (w.processes.set i (.task id n after) ++ [])[j]? = some r) {a : ServiceId} {m : ℕ}
    (htask : r.IsTask a m) : ∃ s, w.processes[j]? = some s ∧ s.IsTask a m
      ∧ ((after.isOpen = true → before.isOpen = true) → r.Runs a m → s.Runs a m) := by
  rcases getElem?_after_move hp hr with ⟨rfl, rfl⟩ | ⟨-, hr⟩ | ⟨-, hr⟩
  · obtain ⟨rfl, rfl⟩ := Process.IsTask.eq ⟨after, rfl⟩ htask
    refine ⟨_, hp, ⟨before, rfl⟩, fun hopen hruns => ⟨before, rfl, hopen ?_⟩⟩
    obtain ⟨phase, hphase, hopen⟩ := hruns
    exact (Process.task.inj hphase).2.2 ▸ hopen
  · exact ⟨r, hr, htask, fun _ hruns => hruns⟩
  · cases hr

lemma lifecycle_of_tasked {id : ServiceId} {n : ℕ} {before after : TaskPhase} (hw : Lifecycle w)
    (hp : w.processes[i]? = some (.task id n before))
    (h : Tasked w.shared id n before d after) :
    Lifecycle ⟨d, w.processes.set i (.task id n after) ++ []⟩ := by
  have hbefore : ∀ {j : ℕ} {r : Process},
      (w.processes.set i (.task id n after) ++ [])[j]? = some r → ∀ {a m}, r.IsTask a m →
      ∃ s, w.processes[j]? = some s ∧ s.IsTask a m ∧ (r.Runs a m → s.Runs a m) := by
    intro j r hr a m htask
    obtain ⟨s, hs, hstask, hruns⟩ := isTask_before hp hr htask
    exact ⟨s, hs, hstask, hruns h.isOpen⟩
  have hsome : ∀ {Q : Process → Prop}, (∀ phase, ¬Q (.task id n phase)) →
      Processes.Some w.processes Q →
        Processes.Some (w.processes.set i (.task id n after) ++ []) Q :=
    fun hnot hold => some_after_move hp hold fun hQ => absurd hQ (hnot before)
  -- the task that is over now is not another one that runs
  have hnumber : ∀ {j : ℕ} {r : Process} {a : ServiceId} {m : ℕ},
      (w.processes.set i (.task id n after) ++ [])[j]? = some r → r.Runs a m → m = n →
      after.isOpen = true := by
    intro j r a m hr hruns hm
    obtain ⟨s, hs, hstask, -⟩ := hbefore hr hruns.isTask
    obtain rfl := hw.tasks.number n j i s _ hs hp ⟨a, hm ▸ hstask⟩ ⟨id, before, rfl⟩
    rw [getElem?_moved hp] at hr
    obtain rfl := Option.some.inj hr
    obtain ⟨phase, hphase, hopen⟩ := hruns
    exact (Process.task.inj hphase).2.2 ▸ hopen
  refine ⟨⟨fun j r hr a m htask => ?_, fun m j k r s hr hs => ?_, fun m hm => ?_,
    fun j r hr a m hruns => ?_⟩, ⟨fun a => ?_, ?_, ?_⟩, fun j r hr a m hruns => ?_, fun a => ?_,
    fun j r hr a m hruns k s hs l htask => ?_⟩
  · obtain ⟨s, hs, hstask, -⟩ := hbefore hr htask
    exact h.spawned ▸ hw.tasks.lt j s hs a m hstask
  · rintro ⟨a, hrtask⟩ ⟨b, hstask⟩
    obtain ⟨r', hr', hrtask', -⟩ := hbefore hr hrtask
    obtain ⟨s', hs', hstask', -⟩ := hbefore hs hstask
    exact hw.tasks.number m j k r' s' hr' hs' ⟨a, hrtask'⟩ ⟨b, hstask'⟩
  · have hlt : ∀ m ∈ w.shared.ended, m < d.spawned := h.spawned ▸ hw.tasks.ended_lt
    rcases h.ended with hended | ⟨hended, -⟩
    · exact hlt m (hended ▸ hm)
    · dsimp only at hm
      rw [hended] at hm
      rcases List.mem_cons.mp hm with rfl | hm
      · exact h.spawned ▸ hw.tasks.lt i _ hp id m ⟨before, rfl⟩
      · exact hlt m hm
  · obtain ⟨s, hs, -, hsruns⟩ := hbefore hr hruns.isTask
    have hnot := hw.tasks.not_ended j s hs a m (hsruns hruns)
    rcases h.ended with hended | ⟨hended, hclosed⟩
    · exact hended ▸ hnot
    · dsimp only
      rw [hended, List.mem_cons, not_or]
      refine ⟨fun hm => ?_, hnot⟩
      rw [hnumber hr hruns hm] at hclosed
      cases hclosed
  · exact atMostOne_after_move hp (hw.hands.alone a) (fun hends => .inl hends)
      fun m hm => absurd hm List.not_mem_nil
  · exact forall_after_move hp (fun j r _ hr => hw.hands.distinct j r hr) List.nodup_nil
      fun m hm => absurd hm List.not_mem_nil
  · refine forall_after_move hp (fun j r _ hr g hg htook => ?_)
      (fun g hg => absurd hg List.not_mem_nil) fun m hm => absurd hm List.not_mem_nil
    rw [h.running]
    exact hw.hands.taken j r hr g hg htook
  · obtain ⟨s, hs, -, hsruns⟩ := hbefore hr hruns.isTask
    have hkept := hw.kept j s hs a m (hsruns hruns)
    have hheld := hkept.held.imp_right (hsome (Q := Process.Holds a m)
      fun _ ⟨g, hg, _⟩ => absurd hg List.not_mem_nil)
    have hmarks := fun hstopping => hsome (Q := Process.Marks a)
      (fun _ ⟨g, hg, _⟩ => absurd hg List.not_mem_nil) (hkept.stopping hstopping)
    rcases h.state with hstate | hstate | ⟨hopen, hclosed, hstate⟩
    · exact ⟨by rw [hstate]; exact hkept.live, by rw [h.running]; exact hheld,
        fun hstopping => hmarks (by rw [hstate] at hstopping; exact hstopping)⟩
    · by_cases ha : a = id
      · subst ha
        refine ⟨by rw [hstate, Function.update_self]; rfl, by rw [h.running]; exact hheld,
          fun hstopping => ?_⟩
        rw [hstate, Function.update_self] at hstopping
        cases hstopping
      · have hsame : d.state a = w.shared.state a := by
          rw [hstate, Function.update_of_ne ha]
        exact ⟨by rw [hsame]; exact hkept.live, by rw [h.running]; exact hheld,
          fun hstopping => hmarks (by rw [hsame] at hstopping; exact hstopping)⟩
    · -- the only task of the service that ran is at its end
      have ha : a ≠ id := by
        rintro rfl
        obtain rfl := hw.one a j i s _ hs hp ⟨m, hsruns hruns⟩ ⟨n, before, rfl, hopen⟩
        obtain rfl := Option.some.inj (hs.symm.trans hp)
        have hm : n = m := ((hsruns hruns).isTask.eq ⟨before, rfl⟩).2
        rw [hnumber hr hruns hm.symm] at hclosed
        cases hclosed
      have hsame : d.state a = w.shared.state a := hstate a ha
      exact ⟨by rw [hsame]; exact hkept.live, by rw [h.running]; exact hheld,
        fun hstopping => hmarks (by rw [hsame] at hstopping; exact hstopping)⟩
  · rintro j k r s hr hs ⟨n, hrruns⟩ ⟨m, hsruns⟩
    obtain ⟨r', hr', -, hrruns'⟩ := hbefore hr hrruns.isTask
    obtain ⟨s', hs', -, hsruns'⟩ := hbefore hs hsruns.isTask
    exact hw.one a j k r' s' hr' hs' ⟨n, hrruns' hrruns⟩ ⟨m, hsruns' hsruns⟩
  · obtain ⟨r', hr', -, hruns'⟩ := hbefore hr hruns.isTask
    obtain ⟨s', hs', hstask', -⟩ := hbefore hs htask
    exact hw.newest j r' hr' a m (hruns' hruns) k s' hs' l hstask'

/-- What an undisturbed section finds. -/
lemma of_undisturbed {x : Input} (h : undisturbed w (.move i x) = true)
    (hp : w.processes[i]? = some p) :
    (∀ id ∈ p.claims w.shared x, ∀ (j : ℕ) (r : Process), j ≠ i → w.processes[j]? = some r →
      ¬r.ends id = true)
    ∧ inTime w.shared p.hand x = true ∧ p.unrefused w.shared = true := by
  simp only [undisturbed, hp, Bool.and_eq_true] at h
  obtain ⟨⟨hclaims, htime⟩, hlegal⟩ := h
  refine ⟨fun id hid j r hne hr hends => ?_, htime, hlegal⟩
  have hothers := List.all_eq_true.mp (List.all_eq_true.mp hclaims id hid) r
    (List.mem_eraseIdx_iff_getElem?.mpr ⟨j, hne, hr⟩)
  rw [hends] at hothers
  cases hothers

lemma lifecycle_of_step {supervised : ServiceId → Bool} {v : World} {e : Event}
    (hw : Lifecycle w) (hok : undisturbed w e = true)
    (h : (services supervised).step w e = some v) : Lifecycle v := by
  cases (services supervised).stepped_of_step h with
  | start k hstarts =>
      have hnew : k.hand = [] ∧ k.isCall = true := by
        simp only [services] at hstarts
        split at hstarts <;> first | exact ⟨rfl, rfl⟩ | cases hstarts
      have hbefore : ∀ {j : ℕ} {r : Process}, (w.processes ++ [k])[j]? = some r →
          ∀ {a m}, r.IsTask a m → w.processes[j]? = some r := by
        intro j r hr a m htask
        rcases getElem?_after_start hr with hr | ⟨-, rfl⟩
        · exact hr
        · exact absurd htask (Process.not_isTask hnew.2 a m)
      refine ⟨⟨fun j r hr id n htask => hw.tasks.lt j r (hbefore hr htask) id n htask, ?_,
        hw.tasks.ended_lt, fun j r hr id n hruns =>
          hw.tasks.not_ended j r (hbefore hr hruns.isTask) id n hruns⟩, ⟨fun id => ?_, ?_, ?_⟩,
        fun j r hr id n hruns => ?_, fun id => ?_, fun j r hr id n hruns l s hs m htask =>
          hw.newest j r (hbefore hr hruns.isTask) id n hruns l s (hbefore hs htask) m htask⟩
      · refine fun n => atMostOne_after_start (hw.tasks.number n) ?_
        rintro ⟨id, htask⟩
        exact Process.not_isTask hnew.2 id n htask
      · refine atMostOne_after_start (hw.hands.alone id) fun hends => ?_
        rw [Process.ends, hnew.1] at hends
        cases hends
      · refine forall_after_start hw.hands.distinct ?_
        rw [hnew.1]
        exact List.nodup_nil
      · refine forall_after_start hw.hands.taken fun g hg => ?_
        rw [hnew.1] at hg
        cases hg
      · obtain ⟨hlive, hheld, hstopping⟩ := hw.kept j r (hbefore hr hruns.isTask) id n hruns
        exact ⟨hlive, hheld.imp_right some_after_start, fun h => some_after_start (hstopping h)⟩
      · refine atMostOne_after_start (hw.one id) ?_
        rintro ⟨n, hruns⟩
        exact Process.not_isTask hnew.2 id n hruns.isTask
  | move i x k s k' spawned hk hadvance =>
      rcases acted_of_advance hadvance with
        ⟨-, hcall, hacted⟩ | ⟨id, n, before, after, rfl, rfl, rfl, htasked⟩
      · obtain ⟨hothers, htime, hlegal⟩ := of_undisturbed hok hk
        exact lifecycle_of_acted hw hk hcall hothers (hacted htime hlegal)
      · exact lifecycle_of_tasked hw hk htasked
  | outside x => exact x.elim

end Step

/-! ### Runs -/

section Run

variable {supervised : ServiceId → Bool}

/-- A `stop` that returns without an error has the service in its hand, and its task is
over. -/
lemma exists_grip_of_stop {c d : Coordinator} {id : ServiceId} {p : StopPhase} {x : Input}
    (h : stop supervised c id p x = some (d, .returned (.ok ()))) :
    ∃ g ∈ (Process.stop id p).hand, g.id = id ∧ g.took = true ∧ g.isOver c = true := by
  unfold stop at h
  split at h
  · obtain ⟨-, hq⟩ := Prod.mk.inj (Option.some.inj h)
    split_ifs at hq <;> cases hq
  · split at h <;> cases h
  · exact ⟨_, List.mem_singleton_self _, rfl, rfl, rfl⟩
  · split_ifs at h
    · split at h <;> cases h
    · cases h
  · split_ifs at h with hended
    exact ⟨_, List.mem_singleton_self _, rfl, rfl, hended⟩
  · cases h
  · cases h
  · cases h

/-- The step is the one in which a `stop` of the service returns without an error. -/
def Stops (id : ServiceId) (s t : World) : Prop :=
  ∃ (i : ℕ) (p : StopPhase), s.processes[i]? = some (.stop id p) ∧ p ≠ .returned (.ok ())
    ∧ t.processes[i]? = some (.stop id (.returned (.ok ())))

lemma not_runs_of_stops {id : ServiceId} {s t : World} {e : Event} (hs : Lifecycle s)
    (h : (services supervised).step s e = some t) (hstops : Stops id s t) {j : ℕ} {r : Process}
    (hr : t.processes[j]? = some r) (n : ℕ) : ¬r.Runs id n := by
  obtain ⟨i, p, hi, hp, hi'⟩ := hstops
  cases (services supervised).stepped_of_step h with
  | start k =>
      obtain ⟨hlt, -⟩ := List.getElem?_eq_some_iff.mp hi
      rw [List.getElem?_append_left hlt, hi] at hi'
      exact absurd (Process.stop.inj (Option.some.inj hi')).2 hp
  | move k x m c m' spawned hk hadvance =>
      by_cases hik : i = k
      · subst hik
        obtain rfl := Option.some.inj (hi.symm.trans hk)
        rw [getElem?_moved hk] at hi'
        obtain rfl := Option.some.inj hi'
        obtain ⟨⟨c', p'⟩, hstop, hnext⟩ := Option.map_eq_some_iff.mp hadvance
        obtain ⟨rfl, hp', rfl⟩ : c' = c ∧ Process.stop id p' = _ ∧ [] = spawned := by
          simpa only [Prod.mk.injEq] using hnext
        obtain rfl := (Process.stop.inj hp').2
        obtain ⟨g, hg, rfl, htook, hover⟩ := exists_grip_of_stop hstop
        intro hruns
        rcases task_before hk rfl hr hruns.isTask with hr | ⟨-, hr⟩
        · exact hs.not_runs hk hg htook hover hr n hruns
        · cases hr
      · rw [getElem?_other hi hik] at hi'
        exact absurd (Process.stop.inj (Option.some.inj hi')).2 hp
  | outside x => exact x.elim

lemma lifecycle_init : Lifecycle (coordinator supervised).init := by
  have hnone : ∀ {j : ℕ} {r : Process}, (coordinator supervised).init.processes[j]? ≠ some r := by
    intro j r hr
    cases hr
  exact {
    tasks := ⟨fun j r hr => absurd hr hnone, fun n j k r s hr => absurd hr hnone,
      fun n hn => absurd hn List.not_mem_nil, fun j r hr => absurd hr hnone⟩
    hands := ⟨fun id j k r s hr => absurd hr hnone, fun j r hr => absurd hr hnone,
      fun j r hr => absurd hr hnone⟩
    kept := fun j r hr => absurd hr hnone
    one := fun id j k r s hr => absurd hr hnone
    newest := fun j r hr => absurd hr hnone }

/-- **In every undisturbed interleaving of calls at most one task of a service runs, the service
is then live, and the task is the last that was started of it, so that no task ends a later one's
state; and when a `stop` returns without an error no task of the service runs.** -/
theorem lifecycle_of_run {es : List Event} {w : World}
    (h : (coordinator supervised).run es = some w)
    (hok : (coordinator supervised).StepsMeet (fun w e => undisturbed w e = true) es) :
    (∀ id, AtMostOne w.processes fun p => ∃ n, p.Runs id n)
    ∧ (∀ (j : ℕ) (p : Process), w.processes[j]? = some p → ∀ id n, p.Runs id n →
      (w.shared.state id).isLive = true
      ∧ ∀ (k : ℕ) (q : Process), w.processes[k]? = some q → ∀ m, q.IsTask id m → m ≤ n)
    ∧ ∀ s e t, (coordinator supervised).Took es s e t → ∀ id, Stops id s t →
      ∀ (j : ℕ) (p : Process), t.processes[j]? = some p → ∀ n, ¬p.Runs id n := by
  have hrun := StepSystem.run_induction_of_stepsMeet
    (P := fun es w => Lifecycle w ∧ ∀ s e t, (coordinator supervised).Took es s e t →
      ∀ id, Stops id s t → ∀ (j : ℕ) (p : Process), t.processes[j]? = some p →
        ∀ n, ¬p.Runs id n)
    ⟨lifecycle_init, fun s e t htook => absurd htook ((coordinator supervised).not_took_nil s e t)⟩
    (fun es w e v hw hbefore hok hv => ?_) h hok
  · obtain ⟨hw, hstops⟩ := hrun
    exact ⟨hw.one, fun j p hp id n hruns => ⟨(hw.kept j p hp id n hruns).live,
      hw.newest j p hp id n hruns⟩, hstops⟩
  · refine ⟨lifecycle_of_step hbefore.1 hok hv, fun s f t htook id hstops j p hp n => ?_⟩
    rcases ((coordinator supervised).took_concat hw hv).mp htook with htook | ⟨rfl, rfl, rfl⟩
    · exact hbefore.2 s f t htook id hstops j p hp n
    · exact not_runs_of_stops hbefore.1 hv hstops hp n

end Run

/-- The server is started and stopped, and started again. -/
def restartEvents : List Event :=
  [.start (.start .serverSharing .called), .move 0 .go, .move 0 .go, .move 0 (.prepared (.ok ())),
    .move 0 .go, .move 0 .go, .move 1 .ready, .move 0 .go,
    .start (.stop .serverSharing .called), .move 2 .go, .move 2 .go, .move 2 .go,
    .move 1 (.finished (.ok ())), .move 1 .go, .move 1 .go, .move 2 .go,
    .start (.start .serverSharing .called), .move 3 .go, .move 3 .go,
    .move 3 (.prepared (.ok ())), .move 3 .go, .move 3 .go]

/-- The first task is over, and the second one runs. -/
theorem restart_lifecycle :
    ∃ w, (coordinator fun _ => true).run restartEvents = some w
      ∧ w.processes[2]? = some (.stop .serverSharing (.returned (.ok ())))
      ∧ w.processes[4]? = some (.task .serverSharing 1 .running)
      ∧ ∀ id, AtMostOne w.processes fun p => ∃ n, p.Runs id n := by
  have hok : (coordinator fun _ => true).StepsMeet (fun w e => undisturbed w e = true)
      restartEvents := StepSystem.stepsMeet_of_meetsFrom (by decide +kernel)
  obtain ⟨w, hw⟩ := Option.isSome_iff_exists.mp
    (by decide +kernel : ((coordinator fun _ => true).run restartEvents).isSome = true)
  have hprocesses : ((coordinator fun _ => true).run restartEvents).map (·.processes)
      = some [.start .serverSharing (.returned (.ok ())), .task .serverSharing 0 .resolved,
        .stop .serverSharing (.returned (.ok ())), .start .serverSharing .waiting,
        .task .serverSharing 1 .running] := by decide +kernel
  rw [hw] at hprocesses
  have hlist : w.processes = _ := Option.some.inj hprocesses
  refine ⟨w, hw, ?_, ?_, (lifecycle_of_run hw hok).1⟩
  · rw [hlist]
    rfl
  · rw [hlist]
    rfl

/-- A stop that gives up leaves its task running beside the next one. -/
example : ((coordinator fun _ => true).run
    (restartEvents.take 12 ++ [.move 2 .deadline, .start (.start .serverSharing .called),
      .move 3 .go, .move 3 .go, .move 3 (.prepared (.ok ())), .move 3 .go, .move 3 .go, .move 3 .go,
      .move 3 .go, .move 3 .go])).map (·.processes)
    = some [.start .serverSharing (.returned (.ok ())), .task .serverSharing 0 .running,
      .stop .serverSharing (.returned (.error .timeout)), .start .serverSharing .waiting,
      .task .serverSharing 1 .running] := by decide +kernel

end ShaPrint.Runtime
