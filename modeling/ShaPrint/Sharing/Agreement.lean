import ShaPrint.Sharing.Sections

/-!
When the selection, the published value and the settings file agree.

A call replaces the selection, publishes it and writes the file in separate
sections. The copies agree once all calls are done, if no call opens its update
window or its persist window while another call is in one (`Undisturbed`).

* `Orderly`: at most one call is in its update window, and its selection is the
  current one; so the published value is current or about to be.
* `Filed`: at most one call writes the file, with the current settings unless a
  call still owes a write.
* `orderly_of_run`, `filed_of_run`: they hold in every undisturbed run.
-/

namespace ShaPrint.Sharing

open Processes

/-- The event opens no window while another call is in one of the same kind. -/
def Undisturbed (w : World) : Event → Prop
  | .move i _ => ∀ c, w.processes[i]? = some c →
      (c.opensUpdate w.shared →
        ∀ (j : ℕ) (d : Call), j ≠ i → w.processes[j]? = some d → ¬ d.updating)
      ∧ (c.opensPersist w.shared →
        ∀ (j : ℕ) (d : Call), j ≠ i → w.processes[j]? = some d → ¬ d.persisting)
  | _ => True

/-- What a step is: a new call, or a section of a call. -/
lemma resumed_of_step {hasPath : Bool} {file : Option SavedSharing} {w t : World} {e : Event}
    (h : (sharing hasPath file).step w e = some t) :
    (∃ operation, e = .start (Call.new operation)
        ∧ t = ⟨w.shared, w.processes ++ [Call.new operation]⟩)
      ∨ ∃ i x c s c', e = .move i x ∧ w.processes[i]? = some c ∧ Resumed w.shared c x s c'
        ∧ t = ⟨s, w.processes.set i c' ++ []⟩ := by
  cases stepped_of_step (processes hasPath file) h with
  | start k hstarts =>
      have hk : k = Call.new k.operation := of_decide_eq_true hstarts
      exact .inl ⟨k.operation, by rw [← hk], by rw [← hk]⟩
  | move i x c s c' spawned hc hadvance =>
      obtain ⟨⟨s₁, c₁⟩, hresume, heq⟩ := Option.map_eq_some_iff.mp hadvance
      obtain ⟨rfl, rfl, rfl⟩ : s₁ = s ∧ c₁ = c' ∧ [] = spawned := by simpa using heq
      exact .inr ⟨i, x, c, s₁, c₁, rfl, hc, resumed_of_resume hresume, rfl⟩
  | outside x => exact nomatch x

lemma afterPersist_eq (c : Call) : ∃ phase, afterPersist c = { c with phase }
    ∧ ((phase = .list ∧ ∃ names, c.operation = .setShared names) ∨ phase = .done (.ok [])) := by
  unfold afterPersist
  split
  · rename_i names hoperation
    exact ⟨.list, rfl, .inl ⟨rfl, names, hoperation⟩⟩
  · exact ⟨.done (.ok []), rfl, .inr rfl⟩

section Sections

variable {s s' : Store} {c c' : Call} {x : Input}

/-- A call enters its update window through a section that opens it. -/
lemma Resumed.updating (h : Resumed s c x s' c') (hc' : c'.updating) :
    c.updating ∨ c.opensUpdate s := by
  cases h with
  | changed hphase hdrops => exact .inr (by simpa [Call.opensUpdate, hphase] using hdrops)
  | disabled _ hphase | notDisabled _ hphase | differs _ hphase =>
      exact .inl (by simp [Call.updating, hphase])
  | selected _ hphase =>
      by_cases hrestore : c.operation = .restore
      · exact .inl (by simpa [Call.updating, hphase] using hrestore)
      · exact .inr (by simpa [Call.opensUpdate, hphase] using hrestore)
  | chosen names queues hphase hoperation => simp [Call.updating, hoperation] at hc'
  | noPath | written =>
      obtain ⟨phase, heq, ⟨rfl, -⟩ | rfl⟩ := afterPersist_eq c
      · simp [heq, Call.updating] at hc'
      · simp [heq, Call.updating] at hc'
  | _ => simp [Call.updating] at hc'

/-- A call enters its persist window through a section that opens it. -/
lemma Resumed.persisting (h : Resumed s c x s' c') (hc' : c'.persisting) :
    c.persisting ∨ c.opensPersist s := by
  cases h with
  | collected hphase hpath => exact .inr ⟨hphase, hpath⟩
  | locked _ hphase => exact .inl (by simp [Call.persisting, hphase])
  | noPath | written =>
      obtain ⟨phase, heq, ⟨rfl, -⟩ | rfl⟩ := afterPersist_eq c
      · simp [heq, Call.persisting] at hc'
      · simp [heq, Call.persisting] at hc'
  | _ => simp [Call.persisting] at hc'

/-- Only a call that is updating, or opens its window, replaces the selection; it
publishes it next. -/
lemma Resumed.selection (h : Resumed s c x s' c') :
    s'.selection = s.selection
      ∨ ((c.updating ∨ c.opensUpdate s) ∧ c'.publishing) := by
  cases h with
  | selected _ hphase =>
      refine .inr ⟨?_, by simp [Call.publishing]⟩
      by_cases hrestore : c.operation = .restore
      · exact .inl (by simpa [Call.updating, hphase] using hrestore)
      · exact .inr (by simpa [Call.opensUpdate, hphase] using hrestore)
  | _ => exact .inl rfl

/-- The published value changes to the selection of the call, at the end of its
update window. -/
lemma Resumed.published_eq (h : Resumed s c x s' c') (hsound : c.Sound s) :
    s'.published = s.published ∨ s'.published = s'.selection := by
  cases h with
  | published selection hphase =>
      simp only [Call.Sound, hphase] at hsound
      exact .inr hsound.1
  | _ => exact .inl rfl

/-- A call that leaves its update window has published the selection. -/
lemma Resumed.published_of_publishing (h : Resumed s c x s' c') (hsound : c.Sound s)
    (hc : c.publishing) : c'.publishing ∨ s'.published = s'.selection := by
  cases h with
  | differs => exact .inl (by simp [Call.publishing])
  | same selection hphase hsame =>
      simp only [Call.Sound, hphase] at hsound
      exact .inr (hsame.trans hsound.1)
  | published selection hphase =>
      simp only [Call.Sound, hphase] at hsound
      exact .inr hsound.1
  | selected => exact .inl (by simp [Call.publishing])
  | enable _ hphase | refused _ _ hphase | chosen _ _ hphase | noQueues hphase
  | hasQueues _ hphase | unchanged hphase | changed hphase | disabled _ hphase
  | notDisabled _ hphase | collected hphase | noPath hphase | locked _ hphase
  | written _ hphase | notWritten _ _ _ _ hphase | notListed _ hphase | listed _ hphase
  | answered _ _ hphase => simp [Call.publishing, hphase] at hc

/-- A section keeps what the local variables say. -/
lemma Resumed.sound (h : Resumed s c x s' c') (hsound : c.Sound s) : c'.Sound s' := by
  cases h with
  | chosen names queues hphase hoperation => exact .inl ⟨names, hoperation, rfl⟩
  | hasQueues queues hphase hoperation hqueues => exact ⟨hoperation, hqueues⟩
  | changed hphase hdrops =>
      simp only [Call.Sound, hphase] at hsound
      exact ⟨hsound.1, hsound.2, hdrops, rfl⟩
  | disabled selection hphase | notDisabled selection hphase =>
      simp only [Call.Sound, hphase] at hsound
      exact .inr hsound
  | selected selection hphase =>
      simp only [Call.Sound, hphase] at hsound
      refine ⟨rfl, fun enabled henabled => ?_⟩
      rcases hsound with ⟨names, hoperation, -⟩ | ⟨hoperation, -⟩
      · cases hoperation.symm.trans henabled
      · cases hoperation.symm.trans henabled
  | differs selection hphase =>
      simp only [Call.Sound, hphase] at hsound
      exact hsound
  | noPath | written =>
      obtain ⟨phase, heq, ⟨rfl, -⟩ | rfl⟩ := afterPersist_eq c
      · rw [heq]; trivial
      · rw [heq]; trivial
  | _ => trivial

end Sections

/-- A call keeps its soundness while the selection stays the same. -/
lemma Call.Sound.of_selection_eq {s s' : Store} {c : Call} (hsound : c.Sound s)
    (h : s'.selection = s.selection) : c.Sound s' := by
  unfold Call.Sound at hsound ⊢
  rw [h]
  exact hsound

/-- A call outside its update window does not depend on the selection. -/
lemma Call.Sound.of_not_updating {s s' : Store} {c : Call} (hsound : c.Sound s)
    (h : ¬ c.updating) : c.Sound s' := by
  unfold Call.updating at h
  unfold Call.Sound at hsound ⊢
  split at h
  all_goals first | exact absurd trivial h | skip
  · rename_i selection hphase
    simp only [hphase] at hsound ⊢
    rcases hsound with hset | ⟨hrestore, -⟩
    · exact .inl hset
    · exact absurd hrestore h
  · split at hsound <;> simp_all

/-! ### The update window -/

/-- At most one call is in its update window; what the calls remember is current,
and the selection is published unless a call is about to. -/
structure Orderly (w : World) : Prop where
  single : AtMostOne w.processes Call.updating
  sound : ∀ (i : ℕ) (c : Call), w.processes[i]? = some c → c.Sound w.shared
  published : w.shared.published = w.shared.selection ∨ Some w.processes Call.publishing

/-- Opening windows one at a time keeps the calls orderly. -/
lemma Orderly.of_step {hasPath : Bool} {file : Option SavedSharing} {w t : World} {e : Event}
    (hw : Orderly w) (hok : Undisturbed w e) (h : (sharing hasPath file).step w e = some t) :
    Orderly t := by
  obtain ⟨operation, rfl, rfl⟩ | ⟨i, x, c, s, c', rfl, hc, hresumed, rfl⟩ := resumed_of_step h
  · exact ⟨atMostOne_after_start hw.single (by simp [Call.updating, Call.new]),
      forall_after_start hw.sound trivial, hw.published.imp id some_after_start⟩
  · have hsound := hw.sound i c hc
    -- where the call is in its window afterwards, no other call is
    have halone : c.updating ∨ c.opensUpdate w.shared →
        ∀ (j : ℕ) (d : Call), j ≠ i → w.processes[j]? = some d → ¬ d.updating := by
      rintro (hin | hopens) j d hne hd hupdating
      · exact hne (hw.single j i d c hd hc hupdating hin)
      · exact (hok c hc).1 hopens j d hne hd hupdating
    refine ⟨?_, ?_, ?_⟩
    · refine atMostOne_after_move hc hw.single (fun hc' => ?_) (by simp)
      exact .inr (halone (hresumed.updating hc'))
    · refine forall_after_move hc (fun j d hne hd => ?_) (hresumed.sound hsound) (by simp)
      rcases hresumed.selection with hselection | ⟨hin, -⟩
      · exact (hw.sound j d hd).of_selection_eq hselection
      · exact (hw.sound j d hd).of_not_updating (halone hin j d hne hd)
    · rcases hresumed.selection with hselection | ⟨-, hpublishing⟩
      · rcases hw.published with hpublished | hsome
        · rcases hresumed.published_eq hsound with hsame | hnow
          · exact .inl (by rw [hsame, hpublished, hselection])
          · exact .inl hnow
        · by_cases hdone : s.published = s.selection
          · exact .inl hdone
          · refine .inr (some_after_move hc hsome fun hpublishing => ?_)
            exact (hresumed.published_of_publishing hsound hpublishing).resolve_right hdone
      · exact .inr (some_of_moved hc hpublishing)

/-- In every undisturbed run, the calls are orderly. -/
theorem orderly_of_run {hasPath : Bool} {file : Option SavedSharing} {es : List Event} {w : World}
    (h : (sharing hasPath file).run es = some w)
    (hok : (sharing hasPath file).StepsMeet Undisturbed es) : Orderly w := by
  refine StepSystem.invariant_of_stepsMeet ⟨?_, ?_, .inl rfl⟩
    (fun _ _ _ hw hok ht => hw.of_step hok ht) h hok
  · intro i j c d hc
    simp [sharing, Processes.system] at hc
  · intro i c hc
    simp [sharing, Processes.system] at hc

/-! ### The settings file -/

/-- The settings as the file records them. -/
def Store.settings (s : Store) : SavedSharing := ⟨s.enabled, s.selection.names.map (·.value)⟩

/-- What the call is about to write is current. -/
def Call.WritesCurrent (s : Store) (c : Call) : Prop :=
  match c.phase with
  | .persistEnabled printers => printers = s.settings.printers
  | .persistWrite saved => saved = s.settings
  | _ => True

/-- A call that does not persist writes nothing. -/
lemma Call.writesCurrent_of_not_persisting (s : Store) {c : Call} (h : ¬ c.persisting) :
    c.WritesCurrent s := by
  unfold Call.persisting at h
  unfold Call.WritesCurrent
  split
  · rename_i hphase
    rw [hphase] at h
    exact absurd trivial h
  · rename_i hphase
    rw [hphase] at h
    exact absurd trivial h
  · trivial

lemma Call.not_owing_of_persisting {c : Call} (h : c.persisting) : ¬ c.owing := by
  unfold Call.persisting at h
  unfold Call.owing
  split at h
  · rename_i hphase
    simp [hphase]
  · rename_i hphase
    simp [hphase]
  · exact absurd h id

section Sections

variable {s s' : Store} {c c' : Call} {x : Input}

/-- A call that changes the settings owes a write. -/
lemma Resumed.settings (h : Resumed s c x s' c') : s'.settings = s.settings ∨ c'.owing := by
  cases h with
  | enable | disabled | selected => exact .inr trivial
  | _ => exact .inl rfl

/-- A call that no longer owes a write has begun it, unless there is no path. -/
lemma Resumed.owing (h : Resumed s c x s' c') (hc : c.owing) :
    c'.owing ∨ (c.opensPersist s ∧ c'.persisting) ∨ s.hasPath = false := by
  cases h with
  | collected hphase hpath => exact .inr (.inl ⟨⟨hphase, hpath⟩, trivial⟩)
  | noPath _ hpath => exact .inr (.inr hpath)
  | selected | differs | same | published => exact .inl trivial
  | enable _ hphase | refused _ _ hphase | chosen _ _ hphase | noQueues hphase
  | hasQueues _ hphase | unchanged hphase | changed hphase | disabled _ hphase
  | notDisabled _ hphase | locked _ hphase | written _ hphase | notWritten _ _ _ _ hphase
  | notListed _ hphase | listed _ hphase | answered _ _ hphase =>
      simp [Call.owing, hphase] at hc

/-- What a call is about to write stays current. -/
lemma Resumed.writesCurrent (h : Resumed s c x s' c') (hc : c.WritesCurrent s) :
    c'.WritesCurrent s' := by
  cases h with
  | collected => exact rfl
  | locked printers hphase =>
      simp only [Call.WritesCurrent, hphase] at hc
      simp only [Call.WritesCurrent, hc]
      rfl
  | noPath | written =>
      obtain ⟨phase, heq, ⟨rfl, -⟩ | rfl⟩ := afterPersist_eq c
      · rw [heq]; trivial
      · rw [heq]; trivial
  | _ => trivial

/-- The file changes only through a write, at the end of the persist window. -/
lemma Resumed.file (h : Resumed s c x s' c') :
    (s'.file = s.file ∧ s'.lastWrite = s.lastWrite ∧ (c.persisting → c'.persisting))
      ∨ (c.persisting ∧ s'.lastWrite = some false)
      ∨ (c.persisting ∧ (c.WritesCurrent s → s'.file = some s'.settings)) := by
  cases h with
  | written saved hphase =>
      refine .inr (.inr ⟨by simp [Call.persisting, hphase], fun hcurrent => ?_⟩)
      simp only [Call.WritesCurrent, hphase] at hcurrent
      rw [hcurrent]
      rfl
  | notWritten saved outcome left e hphase =>
      exact .inr (.inl ⟨by simp [Call.persisting, hphase], rfl⟩)
  | locked => exact .inl ⟨rfl, rfl, fun _ => trivial⟩
  | collected => exact .inl ⟨rfl, rfl, fun _ => trivial⟩
  | enable _ hphase | refused _ _ hphase | chosen _ _ hphase | noQueues hphase
  | hasQueues _ hphase | unchanged hphase | changed hphase | disabled _ hphase
  | notDisabled _ hphase | selected _ hphase | differs _ hphase | same _ hphase
  | published _ hphase | noPath hphase | notListed _ hphase | listed _ hphase
  | answered _ _ hphase =>
      exact .inl ⟨rfl, rfl, fun hc => by simp [Call.persisting, hphase] at hc⟩

lemma Resumed.hasPath (h : Resumed s c x s' c') : s'.hasPath = s.hasPath := by
  cases h <;> rfl

end Sections

/-- At most one call writes the file, and what it writes is current unless a call
still owes a write; so the file is current, or about to be. -/
structure Filed (w : World) : Prop where
  single : AtMostOne w.processes Call.persisting
  current : Some w.processes Call.owing
    ∨ ∀ (i : ℕ) (c : Call), w.processes[i]? = some c → c.WritesCurrent w.shared
  file : w.shared.lastWrite = some true → w.shared.file = some w.shared.settings
    ∨ Some w.processes Call.owing ∨ Some w.processes Call.persisting
  path : w.shared.hasPath = false → w.shared.lastWrite = none
    ∧ ∀ (i : ℕ) (c : Call), w.processes[i]? = some c → ¬ c.persisting

/-- What a call writes is current after a section, unless a call owes a write. -/
lemma Filed.current_of_move {w : World} {i : ℕ} {x : Input} {c c' : Call} {s : Store}
    (hw : Filed w) (hok : Undisturbed w (.move i x)) (hc : w.processes[i]? = some c)
    (hresumed : Resumed w.shared c x s c')
    (hnone : ¬ Some (w.processes.set i c' ++ []) Call.owing) :
    ∀ (j : ℕ) (d : Call), (w.processes.set i c' ++ [])[j]? = some d → d.WritesCurrent s := by
  have hnot : ¬ c'.owing := fun howing => hnone (some_of_moved hc howing)
  have hsame := hresumed.settings.resolve_right hnot
  have hmoved : c.WritesCurrent w.shared → c'.WritesCurrent s := hresumed.writesCurrent
  have hidle : ∀ (d : Call), ¬ d.persisting → d.WritesCurrent s := fun d hd =>
    d.writesCurrent_of_not_persisting s hd
  by_cases howing : c.owing
  · -- the call owed a write: it has begun it alone, or there is no file
    have hself : c.WritesCurrent w.shared :=
      c.writesCurrent_of_not_persisting _ fun hp => Call.not_owing_of_persisting hp howing
    refine forall_after_move hc (fun j d hne hd => hidle d ?_) (hmoved hself) (by simp)
    rcases hresumed.owing howing with howing' | ⟨hopens, -⟩ | hpath
    · exact absurd howing' hnot
    · exact (hok c hc).2 hopens j d hne hd
    · exact (hw.path hpath).2 j d hd
  · rcases hw.current with hsome | hall
    · exact absurd (some_after_move hc hsome fun h => absurd h howing) hnone
    · refine forall_after_move hc (fun j d _ hd => ?_) (hmoved (hall i c hc)) (by simp)
      have hcurrent := hall j d hd
      unfold Call.WritesCurrent at hcurrent ⊢
      rw [hsame]
      exact hcurrent

/-- The file is current after a section, unless a call is about to write it. -/
lemma Filed.file_of_move {w : World} {i : ℕ} {x : Input} {c c' : Call} {s : Store}
    (hw : Filed w) (hc : w.processes[i]? = some c) (hresumed : Resumed w.shared c x s c')
    (hlast : s.lastWrite = some true)
    (hnone : ¬ Some (w.processes.set i c' ++ []) Call.owing)
    (hidle : ¬ Some (w.processes.set i c' ++ []) Call.persisting) :
    s.file = some s.settings := by
  have hnot : ¬ c'.owing := fun h => hnone (some_of_moved hc h)
  have hsame := hresumed.settings.resolve_right hnot
  rcases hresumed.file with ⟨hfile, hlast', hkeeps⟩ | ⟨-, hfailed⟩ | ⟨hpersisting, hcurrent⟩
  · rw [hlast'] at hlast
    rcases hw.file hlast with hfiled | hsome | hsome
    · rw [hfile, hsame, hfiled]
    · refine absurd (some_after_move hc hsome fun howing => ?_) hnone
      rcases hresumed.owing howing with howing' | ⟨-, hbegun⟩ | hpath
      · exact howing'
      · exact absurd (some_of_moved hc hbegun) hidle
      · rw [(hw.path hpath).1] at hlast
        cases hlast
    · exact absurd (some_after_move hc hsome hkeeps) hidle
  · rw [hfailed] at hlast
    cases hlast
  · rcases hw.current with hsome | hall
    · refine absurd (some_after_move hc hsome fun howing => ?_) hnone
      exact absurd howing (Call.not_owing_of_persisting hpersisting)
    · exact hcurrent (hall i c hc)

/-- Writing one at a time keeps the file in order. -/
lemma Filed.of_step {hasPath : Bool} {file : Option SavedSharing} {w t : World} {e : Event}
    (hw : Filed w) (hok : Undisturbed w e) (h : (sharing hasPath file).step w e = some t) :
    Filed t := by
  obtain ⟨operation, rfl, rfl⟩ | ⟨i, x, c, s, c', rfl, hc, hresumed, rfl⟩ := resumed_of_step h
  · exact ⟨atMostOne_after_start hw.single (by simp [Call.persisting, Call.new]),
      hw.current.imp some_after_start fun hall => forall_after_start hall trivial,
      fun hlast => (hw.file hlast).imp id (Or.imp some_after_start some_after_start),
      fun hpath => ⟨(hw.path hpath).1,
        forall_after_start (hw.path hpath).2 (by simp [Call.persisting, Call.new])⟩⟩
  · refine ⟨?_, ?_, fun hlast => ?_, fun hpath => ?_⟩
    · refine atMostOne_after_move hc hw.single (fun hc' => ?_) (by simp)
      exact (hresumed.persisting hc').imp id (hok c hc).2
    · by_cases hnone : Some (w.processes.set i c' ++ []) Call.owing
      · exact .inl hnone
      · exact .inr (hw.current_of_move hok hc hresumed hnone)
    · by_cases hnone : Some (w.processes.set i c' ++ []) Call.owing
      · exact .inr (.inl hnone)
      · by_cases hidle : Some (w.processes.set i c' ++ []) Call.persisting
        · exact .inr (.inr hidle)
        · exact .inl (hw.file_of_move hc hresumed hlast hnone hidle)
    · rw [hresumed.hasPath] at hpath
      obtain ⟨hlast, hidle⟩ := hw.path hpath
      refine ⟨?_, forall_after_move hc (fun j d _ hd => hidle j d hd) (fun hc' => ?_) (by simp)⟩
      · rcases hresumed.file with ⟨-, hsame, -⟩ | ⟨hpersisting, -⟩ | ⟨hpersisting, -⟩
        · rw [hsame, hlast]
        · exact absurd hpersisting (hidle i c hc)
        · exact absurd hpersisting (hidle i c hc)
      · rcases hresumed.persisting hc' with hpersisting | ⟨-, hhas⟩
        · exact hidle i c hc hpersisting
        · rw [hpath] at hhas
          cases hhas

/-- In every undisturbed run, the file is in order. -/
theorem filed_of_run {hasPath : Bool} {file : Option SavedSharing} {es : List Event} {w : World}
    (h : (sharing hasPath file).run es = some w)
    (hok : (sharing hasPath file).StepsMeet Undisturbed es) : Filed w := by
  refine StepSystem.invariant_of_stepsMeet ⟨?_, .inr ?_, fun hlast => ?_, fun _ => ⟨rfl, ?_⟩⟩
    (fun _ _ _ hw hok ht => hw.of_step hok ht) h hok
  · intro i j c d hc
    simp [sharing, Processes.system] at hc
  · intro i c hc
    simp [sharing, Processes.system] at hc
  · cases hlast
  · intro i c hc
    simp [sharing, Processes.system] at hc

end ShaPrint.Sharing
