import Mathlib.Data.List.Basic
import Mathlib.Data.List.Nodup
import Mathlib.Tactic.Common
import ShaPrint.Sharing.Agreement

/-!
The serial order of the sharing calls, and what a failed call leaves behind.

In an undisturbed run a call takes effect at one section: `set_shared` where it
replaces the selection, `set_sharing_enabled` where it sets the flag, `restore`
where it has decided about the flag, which is before it replaces the selection.
The calls in the order of these sections are the serial order; between the two
sections of a `restore` the store is behind by one selection (`Reaches`).

* `Call.effect`: a call on its own. `Call.committed`: it has taken effect.
* `SerialOrder`: the committed calls in order, and the settings they lead to.
* `sharing_agrees`: agreement, the serial order, and failed calls.
-/

namespace ShaPrint.Sharing

open Processes

/-- What the calls set. -/
structure Setting where
  selection : SharedPrinters
  enabled : Bool
  deriving DecidableEq

def Store.setting (s : Store) : Setting := ⟨s.selection, s.enabled⟩

/-- What a call does to the settings on its own. -/
def Call.effect (c : Call) (v : Setting) : Setting :=
  match c.operation with
  | .setShared names => { v with selection := SharedPrinters.new names }
  | .setSharingEnabled enabled => { v with enabled }
  | .restore =>
      if c.queues ≠ [] ∧ drops v.selection c.queues = true then
        { selection := kept v.selection c.queues
          enabled := if (kept v.selection c.queues).isEmpty then false else v.enabled }
      else v

/-- The call has taken effect, and has not failed. -/
def Call.committed (c : Call) : Prop :=
  match c.phase with
  | .start | .readSelection | .disable _ | .done (.error _) => False
  | .select _ => c.operation = .restore
  | _ => True

/-- A `restore` that has taken effect and has still to replace the selection. -/
def Call.pending (selection : SharedPrinters) (c : Call) : Prop :=
  c.operation = .restore ∧ c.phase = .select selection

/-- No call fails once it may have changed something: the file write succeeds, and
so does the catalog read for the answer of `set_shared`. -/
def NoLateFailure (w : World) : Event → Prop
  | .move i (.catalog (.error _)) => ∀ c, w.processes[i]? = some c → c.phase ≠ .list
  | .move _ (.write outcome) => outcome = .written
  | _ => True

/-- The effect of the call `i`. -/
def applyAt (calls : List Call) (v : Setting) (i : ℕ) : Setting :=
  match calls[i]? with
  | some c => c.effect v
  | none => v

/-- The store holds the settings `v`, except for the selection of a pending call. -/
structure Reaches (w : World) (v : Setting) : Prop where
  enabled : v.enabled = w.shared.enabled
  selection : (v.selection = w.shared.selection
      ∧ ¬ Some w.processes fun c => ∃ selection, c.pending selection)
    ∨ Some w.processes (Call.pending v.selection)

/-- The committed calls in the order of taking effect, and what they lead to. -/
structure SerialOrder (init : Setting) (w : World) (order : List ℕ) : Prop where
  nodup : order.Nodup
  committed : ∀ i, i ∈ order ↔ ∃ c, w.processes[i]? = some c ∧ c.committed
  reaches : Reaches w (order.foldl (applyAt w.processes) init)

/-! ### One more section -/

section Move

variable {init : Setting} {w : World} {order : List ℕ} {i : ℕ} {c c' : Call} {s : Store}

/-- A section outside `order` does not change what it leads to. -/
lemma foldl_applyAt_move (hc : w.processes[i]? = some c)
    (hsame : i ∈ order → c'.effect = c.effect) :
    order.foldl (applyAt (w.processes.set i c' ++ [])) init
      = order.foldl (applyAt w.processes) init := by
  refine List.foldl_ext _ _ _ fun v j hj => ?_
  by_cases hji : j = i
  · subst hji
    simp only [applyAt, getElem?_moved hc, hc, hsame hj]
  · cases hd : w.processes[j]? with
    | some d => simp only [applyAt, getElem?_other hd hji, hd]
    | none =>
        have hnone : (w.processes.set i c' ++ [])[j]? = none := by
          rw [List.append_nil, List.getElem?_set_ne (Ne.symm hji), hd]
        simp only [applyAt, hnone, hd]

/-- The call neither takes effect nor fails: the order stays. -/
lemma SerialOrder.keep (h : SerialOrder init w order) (hc : w.processes[i]? = some c)
    (hcommitted : c'.committed ↔ c.committed) (heffect : c.committed → c'.effect = c.effect)
    (hreaches : ∀ v, Reaches w v → Reaches ⟨s, w.processes.set i c' ++ []⟩ v) :
    SerialOrder init ⟨s, w.processes.set i c' ++ []⟩ order := by
  refine ⟨h.nodup, fun j => ?_, ?_⟩
  · rw [h.committed]
    by_cases hji : j = i
    · subst hji
      simp only [getElem?_moved hc, hc, Option.some.injEq, exists_eq_left', hcommitted]
    · simp only [List.append_nil, List.getElem?_set_ne (Ne.symm hji)]
  · have hsame : i ∈ order → c'.effect = c.effect := by
      intro hi
      obtain ⟨d, hd, hdone⟩ := (h.committed i).mp hi
      exact heffect (Option.some.inj (hd.symm.trans hc) ▸ hdone)
    rw [foldl_applyAt_move hc hsame]
    exact hreaches _ h.reaches

/-- The call takes effect: it comes last in the order. -/
lemma SerialOrder.extend (h : SerialOrder init w order) (hc : w.processes[i]? = some c)
    (hbefore : ¬ c.committed) (hafter : c'.committed)
    (hreaches : ∀ v, Reaches w v → Reaches ⟨s, w.processes.set i c' ++ []⟩ (c'.effect v)) :
    SerialOrder init ⟨s, w.processes.set i c' ++ []⟩ (order ++ [i]) := by
  have hnew : i ∉ order := by
    intro hi
    obtain ⟨d, hd, hdone⟩ := (h.committed i).mp hi
    exact hbefore (Option.some.inj (hd.symm.trans hc) ▸ hdone)
  refine ⟨?_, fun j => ?_, ?_⟩
  · rw [List.nodup_append]
    refine ⟨h.nodup, List.nodup_singleton i, fun a ha b hb hab => ?_⟩
    rw [List.mem_singleton.mp hb] at hab
    exact hnew (hab ▸ ha)
  · rw [List.mem_append, h.committed, List.mem_singleton]
    by_cases hji : j = i
    · subst hji
      simp only [getElem?_moved hc, Option.some.injEq, exists_eq_left', hafter, or_true]
    · simp only [List.append_nil, List.getElem?_set_ne (Ne.symm hji), hji, or_false]
  · rw [List.foldl_append, foldl_applyAt_move hc fun hi => absurd hi hnew]
    have hlast : applyAt (w.processes.set i c' ++ []) (order.foldl (applyAt w.processes) init) i
        = c'.effect (order.foldl (applyAt w.processes) init) := by
      simp only [applyAt, getElem?_moved hc]
    rw [List.foldl_cons, List.foldl_nil, hlast]
    exact hreaches _ h.reaches

/-- A section that changes neither settings nor pending calls keeps what is reached. -/
lemma Reaches.move {v v' : Setting} (h : Reaches w v) (hc : w.processes[i]? = some c)
    (hbefore : ∀ selection, ¬ c.pending selection) (hafter : ∀ selection, ¬ c'.pending selection)
    (hselection : s.selection = w.shared.selection) (hv : v'.selection = v.selection)
    (henabled : v'.enabled = s.enabled) :
    Reaches ⟨s, w.processes.set i c' ++ []⟩ v' := by
  refine ⟨henabled, ?_⟩
  rcases h.selection with ⟨hcurrent, hnone⟩ | hpending
  · refine .inl ⟨by rw [hv, hcurrent, hselection], ?_⟩
    rintro ⟨j, d, hd, selection, hpending⟩
    rcases getElem?_after_move hc hd with ⟨-, rfl⟩ | ⟨-, hd⟩ | ⟨-, hd⟩
    · exact hafter selection hpending
    · exact hnone ⟨j, d, hd, selection, hpending⟩
    · simp at hd
  · rw [hv]
    exact .inr (some_after_move hc hpending fun h => absurd h (hbefore _))

/-- A call that is alone in its update window, but not pending, finds the settings
current. -/
lemma Reaches.selection_eq {v : Setting} (h : Reaches w v) (hc : w.processes[i]? = some c)
    (halone : ∀ (j : ℕ) (d : Call), j ≠ i → w.processes[j]? = some d → ¬ d.updating)
    (hnot : ∀ selection, ¬ c.pending selection) : v.selection = w.shared.selection := by
  rcases h.selection with ⟨hcurrent, -⟩ | ⟨j, d, hd, hpending⟩
  · exact hcurrent
  · by_cases hji : j = i
    · subst hji
      exact absurd (Option.some.inj (hd.symm.trans hc) ▸ hpending) (hnot _)
    · refine absurd ?_ (halone j d hji hd)
      simp only [Call.updating, hpending.2]
      exact hpending.1

end Move

/-- What is kept of a selection drops nothing that the selection did not. -/
lemma drops_kept {selection : SharedPrinters} {queues queues' : List PrinterName}
    (h : drops selection queues' = false) : drops (kept selection queues) queues' = false := by
  simp only [drops, List.any_eq_false, Bool.not_eq_true', Bool.not_eq_false] at h ⊢
  intro printer hprinter
  rw [kept, SharedPrinters.mem_new] at hprinter
  exact h printer ((List.mem_filter.mp hprinter).1)

lemma Call.not_pending {c : Call} (h : ∀ selection, c.phase ≠ .select selection) :
    ∀ selection, ¬ c.pending selection :=
  fun selection hpending => h selection hpending.2

/-- A section that changes no setting, of a call that is not pending. -/
lemma SerialOrder.quiet {init : Setting} {w : World} {order : List ℕ} {i : ℕ} {c c' : Call}
    {s : Store} (h : SerialOrder init w order) (hc : w.processes[i]? = some c)
    (hcommitted : c'.committed ↔ c.committed) (heffect : c.committed → c'.effect = c.effect)
    (hbefore : ∀ selection, ¬ c.pending selection) (hafter : ∀ selection, ¬ c'.pending selection)
    (hsetting : s.setting = w.shared.setting) :
    SerialOrder init ⟨s, w.processes.set i c' ++ []⟩ order := by
  obtain ⟨hselection, henabled⟩ := Setting.mk.inj hsetting
  exact h.keep hc hcommitted heffect fun v hv =>
    hv.move hc hbefore hafter hselection rfl (by rw [henabled, hv.enabled])

/-- A `restore` that finds nothing to drop has no effect. -/
lemma effect_unchanged {w : World} {c : Call} {v : Setting} (hw : Orderly w) (hv : Reaches w v)
    (hoperation : c.operation = .restore) (hdrops : drops w.shared.selection c.queues = false) :
    c.effect v = v := by
  have hnone : drops v.selection c.queues = false := by
    rcases hv.selection with ⟨hcurrent, -⟩ | ⟨j, d, hd, hpending⟩
    · rw [hcurrent, hdrops]
    · -- a pending `restore` will only have dropped more
      have hsound := hw.sound j d hd
      simp only [Call.Sound, hpending.2] at hsound
      rcases hsound with ⟨names, hset, -⟩ | ⟨-, -, -, hkept⟩
      · rw [hpending.1] at hset
        cases hset
      · rw [hkept]
        exact drops_kept hdrops
  simp [Call.effect, hoperation, hnone]

/-- A `restore` takes effect where it decides about the flag. -/
lemma reaches_disabled {w : World} {i : ℕ} {c : Call} {s : Store} {v : Setting}
    {selection : SharedPrinters} (hw : Orderly w) (hv : Reaches w v)
    (hc : w.processes[i]? = some c) (hphase : c.phase = .disable selection)
    (henabled : s.enabled = if selection.isEmpty then false else w.shared.enabled) :
    Reaches ⟨s, w.processes.set i { c with phase := .select selection } ++ []⟩
      (Call.effect { c with phase := .select selection } v) := by
  have hsound := hw.sound i c hc
  simp only [Call.Sound, hphase] at hsound
  obtain ⟨hoperation, hqueues, hdrops, hkept⟩ := hsound
  have hupdating : c.updating := by simp [Call.updating, hphase]
  have hcurrent : v.selection = w.shared.selection :=
    hv.selection_eq hc
      (fun j d hne hd hother => hne (hw.single j i d c hd hc hother hupdating))
      (Call.not_pending (by simp [hphase]))
  have heffect : Call.effect { c with phase := .select selection } v
      = ⟨selection, if selection.isEmpty then false else v.enabled⟩ := by
    simp [Call.effect, hoperation, hqueues, hcurrent, hdrops, hkept]
  rw [heffect]
  refine ⟨by rw [henabled, hv.enabled], .inr (some_of_moved hc ⟨hoperation, rfl⟩)⟩

/-- Replacing the selection: a `restore` catches up with the order. -/
lemma reaches_selected {w : World} {i : ℕ} {c : Call} {v v' : Setting}
    {selection : SharedPrinters} (hc : w.processes[i]? = some c)
    (halone : ∀ (j : ℕ) (d : Call), j ≠ i → w.processes[j]? = some d → ¬ d.updating)
    (hselection : v'.selection = selection) (henabled : v'.enabled = v.enabled)
    (hv : Reaches w v) :
    Reaches ⟨{ w.shared with selection },
      w.processes.set i { c with phase := .compare selection } ++ []⟩ v' := by
  refine ⟨by rw [henabled, hv.enabled], .inl ⟨hselection, ?_⟩⟩
  rintro ⟨j, d, hd, pendingSelection, hoperation, hphase⟩
  rcases getElem?_after_move hc hd with ⟨-, rfl⟩ | ⟨hne, hd⟩ | ⟨-, hd⟩
  · cases hphase
  · refine halone j d hne hd ?_
    simp only [Call.updating, hphase]
    exact hoperation
  · simp at hd

/-- Every section of an undisturbed run without late failures extends the order. -/
lemma SerialOrder.of_move {init : Setting} {w : World} {order : List ℕ} {i : ℕ} {x : Input}
    {c c' : Call} {s : Store} (h : SerialOrder init w order) (hw : Orderly w)
    (hok : Undisturbed w (.move i x)) (hlate : NoLateFailure w (.move i x))
    (hc : w.processes[i]? = some c) (hresumed : Resumed w.shared c x s c') :
    ∃ order, SerialOrder init ⟨s, w.processes.set i c' ++ []⟩ order := by
  have hsound := hw.sound i c hc
  cases hresumed with
  | enable enabled hphase hoperation =>
      refine ⟨_, h.extend hc (by simp [Call.committed, hphase]) trivial fun v hv => ?_⟩
      exact hv.move hc (Call.not_pending (by simp [hphase])) (Call.not_pending (by simp)) rfl
        (by simp [Call.effect, hoperation]) (by simp [Call.effect, hoperation])
  | refused _ e hphase =>
      exact ⟨_, h.quiet hc (by simp [Call.committed, hphase]) (fun _ => rfl)
        (Call.not_pending (by simp [hphase])) (Call.not_pending (by simp)) rfl⟩
  | chosen names queues hphase hoperation =>
      refine ⟨_, h.quiet hc (by simp [Call.committed, hphase, hoperation])
        (fun hdone => by simp [Call.committed, hphase] at hdone)
        (Call.not_pending (by simp [hphase])) (fun selection hpending => ?_) rfl⟩
      exact absurd (hoperation.symm.trans hpending.1) (by simp)
  | noQueues hphase hoperation =>
      refine ⟨_, h.extend hc (by simp [Call.committed, hphase]) trivial fun v hv => ?_⟩
      have hnone : Call.effect { c with queues := [], phase := .done (.ok []) } v = v := by
        simp [Call.effect, hoperation]
      rw [hnone]
      exact hv.move hc (Call.not_pending (by simp [hphase])) (Call.not_pending (by simp)) rfl
        rfl hv.enabled
  | hasQueues queues hphase hoperation =>
      exact ⟨_, h.quiet hc (by simp [Call.committed, hphase])
        (fun hdone => by simp [Call.committed, hphase] at hdone)
        (Call.not_pending (by simp [hphase])) (Call.not_pending (by simp)) rfl⟩
  | unchanged hphase hdrops =>
      simp only [Call.Sound, hphase] at hsound
      refine ⟨_, h.extend hc (by simp [Call.committed, hphase]) trivial fun v hv => ?_⟩
      have hnone : Call.effect { c with phase := .done (.ok []) } v = v :=
        effect_unchanged hw hv hsound.1 hdrops
      rw [hnone]
      exact hv.move hc (Call.not_pending (by simp [hphase])) (Call.not_pending (by simp)) rfl
        rfl hv.enabled
  | changed hphase =>
      exact ⟨_, h.quiet hc (by simp [Call.committed, hphase]) (fun _ => rfl)
        (Call.not_pending (by simp [hphase])) (Call.not_pending (by simp)) rfl⟩
  | disabled selection hphase hempty =>
      simp only [Call.Sound, hphase] at hsound
      exact ⟨_, h.extend hc (by simp [Call.committed, hphase]) hsound.1 fun v hv =>
        reaches_disabled hw hv hc hphase (by simp [hempty])⟩
  | notDisabled selection hphase hempty =>
      simp only [Call.Sound, hphase] at hsound
      exact ⟨_, h.extend hc (by simp [Call.committed, hphase]) hsound.1 fun v hv =>
        reaches_disabled hw hv hc hphase (by simp [hempty])⟩
  | selected selection hphase =>
      simp only [Call.Sound, hphase] at hsound
      rcases hsound with ⟨names, hoperation, rfl⟩ | ⟨hoperation, -⟩
      · refine ⟨_, h.extend hc (by simp [Call.committed, hphase, hoperation]) trivial
          fun v hv => reaches_selected hc ?_ ?_ ?_ hv⟩
        · exact (hok c hc).1 (by simp [Call.opensUpdate, hphase, hoperation])
        · simp [Call.effect, hoperation]
        · simp [Call.effect, hoperation]
      · have hupdating : c.updating := by simpa [Call.updating, hphase] using hoperation
        refine ⟨_, h.keep hc (by simp [Call.committed, hphase, hoperation]) (fun _ => rfl)
          fun v hv => reaches_selected hc
            (fun j d hne hd hother => hne (hw.single j i d c hd hc hother hupdating)) ?_ rfl hv⟩
        rcases hv.selection with ⟨-, hnone⟩ | ⟨j, d, hd, hpending⟩
        · exact absurd ⟨i, c, hc, selection, hoperation, hphase⟩ hnone
        · have hother : d.updating := by simpa [Call.updating, hpending.2] using hpending.1
          obtain rfl := hw.single j i d c hd hc hother hupdating
          obtain rfl := Option.some.inj (hd.symm.trans hc)
          exact Phase.select.inj (hpending.2.symm.trans hphase)
  | noPath hphase =>
      obtain ⟨phase, heq, ⟨rfl, -⟩ | rfl⟩ := afterPersist_eq c
      all_goals
        rw [heq]
        exact ⟨_, h.quiet hc (by simp [Call.committed, hphase]) (fun _ => rfl)
          (Call.not_pending (by simp [hphase])) (Call.not_pending (by simp)) rfl⟩
  | written saved hphase =>
      obtain ⟨phase, heq, ⟨rfl, -⟩ | rfl⟩ := afterPersist_eq c
      all_goals
        rw [heq]
        exact ⟨_, h.quiet hc (by simp [Call.committed, hphase]) (fun _ => rfl)
          (Call.not_pending (by simp [hphase])) (Call.not_pending (by simp)) rfl⟩
  | notWritten saved outcome left e hphase houtcome => exact absurd hlate houtcome
  | notListed e hphase => exact absurd hphase (hlate c hc)
  | differs _ hphase | same _ hphase | published _ hphase | collected hphase | locked _ hphase
  | listed _ hphase | answered _ _ hphase =>
      exact ⟨_, h.quiet hc (by simp [Call.committed, hphase]) (fun _ => rfl)
        (Call.not_pending (by simp [hphase])) (Call.not_pending (by simp)) rfl⟩

/-- A new call has no effect yet. -/
lemma SerialOrder.start {init : Setting} {w : World} {order : List ℕ}
    (h : SerialOrder init w order) (operation : Operation) :
    SerialOrder init ⟨w.shared, w.processes ++ [Call.new operation]⟩ order := by
  have hlt : ∀ i ∈ order, i < w.processes.length := by
    intro i hi
    obtain ⟨c, hc, -⟩ := (h.committed i).mp hi
    exact (List.getElem?_eq_some_iff.mp hc).1
  have hfold : order.foldl (applyAt (w.processes ++ [Call.new operation])) init
      = order.foldl (applyAt w.processes) init := by
    refine List.foldl_ext _ _ _ fun v j hj => ?_
    rw [applyAt, applyAt, List.getElem?_append_left (hlt j hj)]
  refine ⟨h.nodup, fun j => ?_, ?_⟩
  · rw [h.committed]
    constructor
    · rintro ⟨c, hc, hdone⟩
      obtain ⟨hj, -⟩ := List.getElem?_eq_some_iff.mp hc
      exact ⟨c, by rw [List.getElem?_append_left hj, hc], hdone⟩
    · rintro ⟨c, hc, hdone⟩
      rcases getElem?_after_start hc with hc | ⟨-, rfl⟩
      · exact ⟨c, hc, hdone⟩
      · exact absurd hdone id
  · rw [hfold]
    refine ⟨h.reaches.enabled, h.reaches.selection.imp (fun hcurrent => ⟨hcurrent.1, ?_⟩)
      some_after_start⟩
    rintro ⟨j, c, hc, selection, hpending⟩
    rcases getElem?_after_start hc with hc | ⟨-, rfl⟩
    · exact hcurrent.2 ⟨j, c, hc, selection, hpending⟩
    · exact absurd hpending.2 (by simp [Call.new])

/-- In every undisturbed run without late failures, the committed calls have a
serial order. -/
theorem serialOrder_of_run {hasPath : Bool} {file : Option SavedSharing} {es : List Event}
    {w : World} (h : (sharing hasPath file).run es = some w)
    (hok : (sharing hasPath file).StepsMeet Undisturbed es)
    (hlate : (sharing hasPath file).StepsMeet NoLateFailure es) :
    ∃ order, SerialOrder (withPersistence hasPath file).setting w order := by
  have hboth : (sharing hasPath file).StepsMeet (fun w e => Undisturbed w e ∧ NoLateFailure w e) es :=
    fun pre e post s hes hs => ⟨hok pre e post s hes hs, hlate pre e post s hes hs⟩
  refine (StepSystem.invariant_of_stepsMeet
    (I := fun w => Orderly w ∧ ∃ order, SerialOrder (withPersistence hasPath file).setting w order)
    ⟨orderly_of_run rfl (StepSystem.stepsMeet_nil _), [], List.nodup_nil, ?_, rfl, .inl ⟨rfl, ?_⟩⟩
    ?_ h hboth).2
  · intro i
    simp [sharing, Processes.system]
  · rintro ⟨j, c, hc, -⟩
    simp [sharing, Processes.system] at hc
  · rintro w e t ⟨hw, order, horder⟩ ⟨hok, hlate⟩ ht
    refine ⟨hw.of_step hok ht, ?_⟩
    obtain ⟨operation, rfl, rfl⟩ | ⟨i, x, c, s, c', rfl, hc, hresumed, rfl⟩ := resumed_of_step ht
    · exact ⟨order, horder.start operation⟩
    · exact horder.of_move hw hok hlate hc hresumed

/-! ### Failed calls -/

/-- The step changes neither the settings nor a copy of them. -/
def SameCopies (u v : World) : Prop :=
  v.shared.setting = u.shared.setting ∧ v.shared.published = u.shared.published
    ∧ v.shared.file = u.shared.file

/-- Without late failures, a section that changes a copy commits the call, and a
committed call stays so. -/
lemma Resumed.committed {w : World} {i : ℕ} {s : Store} {c c' : Call} {x : Input}
    (hc : w.processes[i]? = some c) (hlate : NoLateFailure w (.move i x))
    (hrestore : ∀ selection, c.phase = .disable selection → c.operation = .restore)
    (h : Resumed w.shared c x s c') :
    c'.committed ∨ (SameCopies w ⟨s, w.processes.set i c' ++ []⟩ ∧ ¬ c.committed) := by
  cases h with
  | notWritten saved outcome left e hphase houtcome => exact absurd hlate houtcome
  | notListed e hphase => exact absurd hphase (hlate c hc)
  | refused _ _ hphase | hasQueues _ hphase | changed hphase =>
      exact .inr ⟨⟨rfl, rfl, rfl⟩, by simp [Call.committed, hphase]⟩
  | chosen names queues hphase =>
      exact .inr ⟨⟨rfl, rfl, rfl⟩, by simp [Call.committed, hphase]⟩
  | disabled selection hphase | notDisabled selection hphase =>
      exact .inl (hrestore selection hphase)
  | noPath | written =>
      obtain ⟨phase, heq, ⟨rfl, -⟩ | rfl⟩ := afterPersist_eq c
      all_goals
        rw [heq]
        exact .inl trivial
  | _ => exact .inl trivial

/-- Only a `restore` comes to clear the flag, whatever the other calls do. -/
lemma operation_of_disable {hasPath : Bool} {file : Option SavedSharing} {es : List Event}
    {w : World} (h : (sharing hasPath file).run es = some w) :
    ∀ (i : ℕ) (c : Call), w.processes[i]? = some c →
      c.phase = .readSelection ∨ (∃ selection, c.phase = .disable selection) →
        c.operation = .restore := by
  refine (sharing hasPath file).invariant (I := fun w => ∀ (i : ℕ) (c : Call),
    w.processes[i]? = some c →
      c.phase = .readSelection ∨ (∃ selection, c.phase = .disable selection) →
        c.operation = .restore) ?_ ?_ h
  · intro i c hc
    simp [sharing, Processes.system] at hc
  · intro w e t hw ht
    obtain ⟨operation, rfl, rfl⟩ | ⟨i, x, c, s, c', rfl, hc, hresumed, rfl⟩ := resumed_of_step ht
    · exact forall_after_start hw (by simp [Call.new])
    · refine forall_after_move hc (fun j d _ hd => hw j d hd) ?_ (by simp)
      have hself := hw i c hc
      cases hresumed with
      | hasQueues queues hphase hoperation => exact fun _ => hoperation
      | changed hphase => exact fun _ => hself (.inl hphase)
      | noPath | written =>
          obtain ⟨phase, heq, ⟨rfl, -⟩ | rfl⟩ := afterPersist_eq c
          all_goals
            rw [heq]
            simp
      | _ => simp

/-- Without late failures, a call that has changed a copy is committed. -/
lemma committed_of_changed {hasPath : Bool} {file : Option SavedSharing} {es : List Event}
    {w : World} (h : (sharing hasPath file).run es = some w)
    (hlate : (sharing hasPath file).StepsMeet NoLateFailure es) :
    ∀ i u x v, (sharing hasPath file).Took es u (.move i x) v → ¬ SameCopies u v →
      ∃ c, w.processes[i]? = some c ∧ c.committed := by
  refine StepSystem.run_induction_of_stepsMeet
    (P := fun es w => ∀ i u x v, (sharing hasPath file).Took es u (.move i x) v →
      ¬ SameCopies u v → ∃ c, w.processes[i]? = some c ∧ c.committed) ?_ ?_ h hlate
  · intro i u x v htook
    exact absurd htook ((sharing hasPath file).not_took_nil _ _ _)
  · intro es w e t hw ih hlate ht i u x v htook hchanged
    have hrestore := operation_of_disable hw
    rcases ((sharing hasPath file).took_concat hw ht).mp htook with hbefore | ⟨rfl, rfl, rfl⟩
    · obtain ⟨c, hc, hdone⟩ := ih i u x v hbefore hchanged
      obtain ⟨operation, rfl, rfl⟩ | ⟨j, y, d, s, d', rfl, hd, hresumed, rfl⟩ := resumed_of_step ht
      · obtain ⟨hi, -⟩ := List.getElem?_eq_some_iff.mp hc
        exact ⟨c, by rw [List.getElem?_append_left hi, hc], hdone⟩
      · by_cases hij : i = j
        · subst hij
          obtain rfl := Option.some.inj (hc.symm.trans hd)
          refine ⟨d', getElem?_moved hc, ?_⟩
          exact (hresumed.committed hd hlate fun selection hphase =>
            hrestore i c hc (.inr ⟨selection, hphase⟩)).resolve_right fun hnot => hnot.2 hdone
        · exact ⟨c, getElem?_other hc hij, hdone⟩
    · obtain ⟨operation, he, -⟩ | ⟨j, y, d, s, d', he, hd, hresumed, rfl⟩ := resumed_of_step ht
      · cases he
      · cases he
        refine ⟨d', getElem?_moved hd, ?_⟩
        exact (hresumed.committed hd hlate fun selection hphase =>
          hrestore i d hd (.inr ⟨selection, hphase⟩)).resolve_right fun hsame =>
            hchanged hsame.1

/-! ### Agreement -/

/-- Every call has returned. -/
def Finished (w : World) : Prop :=
  ∀ (i : ℕ) (c : Call), w.processes[i]? = some c → ∃ result, c.phase = .done result

/-- The call returned `Ok`. -/
def Call.succeeded (c : Call) : Prop := ∃ printers, c.phase = .done (.ok printers)

def laserJet : PrinterName := ⟨"HP LaserJet", by decide, by decide, by decide, by decide⟩

def zebra : PrinterName := ⟨"Zebra", by decide, by decide, by decide, by decide⟩

end ShaPrint.Sharing
