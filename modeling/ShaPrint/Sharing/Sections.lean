import ShaPrint.Sharing.Sharing

/-!
What one section of a sharing call can do, said once.

* `Resumed`: the sections, with their guards; `resumed_of_resume` is the inversion.
* `Call.updating`, `Call.owing`, `Call.persisting`: the windows of a call.
* `Call.Sound`: what the local variables of a call say about the store.
-/

namespace ShaPrint.Sharing

/-- The sections of a call, as changes of the store and of the call. -/
inductive Resumed (s : Store) (c : Call) : Input → Store → Call → Prop where
  | enable (enabled : Bool) (hphase : c.phase = .start)
      (hoperation : c.operation = .setSharingEnabled enabled) :
      Resumed s c .go { s with enabled } { c with phase := .persist }
  | refused (x : Input) (e : AppError) (hphase : c.phase = .start) :
      Resumed s c x s { c with phase := .done (.error e) }
  | chosen (names queues : List PrinterName) (hphase : c.phase = .start)
      (hoperation : c.operation = .setShared names) :
      Resumed s c (.catalog (.ok queues)) s
        { c with queues, phase := .select (SharedPrinters.new names) }
  | noQueues (hphase : c.phase = .start) (hoperation : c.operation = .restore) :
      Resumed s c (.catalog (.ok [])) s { c with queues := [], phase := .done (.ok []) }
  | hasQueues (queues : List PrinterName) (hphase : c.phase = .start)
      (hoperation : c.operation = .restore) (hqueues : queues ≠ []) :
      Resumed s c (.catalog (.ok queues)) s { c with queues, phase := .readSelection }
  | unchanged (hphase : c.phase = .readSelection) (hdrops : drops s.selection c.queues = false) :
      Resumed s c .go s { c with phase := .done (.ok []) }
  | changed (hphase : c.phase = .readSelection) (hdrops : drops s.selection c.queues = true) :
      Resumed s c .go s { c with phase := .disable (kept s.selection c.queues) }
  | disabled (selection : SharedPrinters) (hphase : c.phase = .disable selection)
      (hempty : selection.isEmpty = true) :
      Resumed s c .go { s with enabled := false } { c with phase := .select selection }
  | notDisabled (selection : SharedPrinters) (hphase : c.phase = .disable selection)
      (hempty : selection.isEmpty = false) :
      Resumed s c .go s { c with phase := .select selection }
  | selected (selection : SharedPrinters) (hphase : c.phase = .select selection) :
      Resumed s c .go { s with selection } { c with phase := .compare selection }
  | differs (selection : SharedPrinters) (hphase : c.phase = .compare selection) :
      Resumed s c .go s { c with phase := .publish selection }
  | same (selection : SharedPrinters) (hphase : c.phase = .compare selection)
      (hsame : s.published = selection) :
      Resumed s c .go s { c with phase := .persist }
  | published (selection : SharedPrinters) (hphase : c.phase = .publish selection) :
      Resumed s c .go { s with published := selection } { c with phase := .persist }
  | collected (hphase : c.phase = .persist) (hpath : s.hasPath = true) :
      Resumed s c .go s
        { c with phase := .persistEnabled (s.selection.names.map (·.value)) }
  | noPath (hphase : c.phase = .persist) (hpath : s.hasPath = false) :
      Resumed s c .go s (afterPersist c)
  | locked (printers : List String) (hphase : c.phase = .persistEnabled printers) :
      Resumed s c .go { s with enabledReaders := s.enabledReaders + 1 }
        { c with phase := .persistWrite ⟨s.enabled, printers⟩ }
  | written (saved : SavedSharing) (hphase : c.phase = .persistWrite saved) :
      Resumed s c (.write .written)
        { s with
          enabledReaders := s.enabledReaders - 1, file := some saved, lastWrite := some true }
        (afterPersist c)
  | notWritten (saved : SavedSharing) (outcome : WriteOutcome) (left : Option SavedSharing)
      (e : AppError) (hphase : c.phase = .persistWrite saved) (houtcome : outcome ≠ .written) :
      Resumed s c (.write outcome)
        { s with enabledReaders := s.enabledReaders - 1, file := left, lastWrite := some false }
        { c with phase := .done (.error e) }
  | notListed (e : AppError) (hphase : c.phase = .list) :
      Resumed s c (.catalog (.error e)) s { c with phase := .done (.error e) }
  | listed (queues : List PrinterName) (hphase : c.phase = .list) :
      Resumed s c (.catalog (.ok queues)) s { c with phase := .listed queues }
  | answered (queues : List PrinterName) (printers : List LocalPrinter)
      (hphase : c.phase = .listed queues) :
      Resumed s c .go s { c with phase := .done (.ok printers) }

lemma resumed_of_begin {s s' : Store} {c c' : Call} {x : Input} (hphase : c.phase = .start)
    (h : begin s c x = some (s', c')) : Resumed s c x s' c' := by
  cases x with
  | go =>
      simp only [begin] at h
      split at h
      · rename_i enabled hoperation
        split at h
        · obtain ⟨rfl, rfl⟩ := Prod.mk.inj (Option.some.inj h)
          exact .enable enabled hphase hoperation
        · cases h
      · cases h
  | catalog answer =>
      cases answer with
      | error e =>
          simp only [begin] at h
          split at h
          · cases h
          · obtain ⟨rfl, rfl⟩ := Prod.mk.inj (Option.some.inj h)
            exact .refused _ e hphase
      | ok queues =>
          simp only [begin] at h
          split at h
          · rename_i names hoperation
            split at h
            · obtain ⟨rfl, rfl⟩ := Prod.mk.inj (Option.some.inj h)
              exact .refused _ _ hphase
            · obtain ⟨rfl, rfl⟩ := Prod.mk.inj (Option.some.inj h)
              exact .chosen names queues hphase hoperation
          · rename_i hoperation
            split at h
            · rename_i hempty
              obtain rfl := List.isEmpty_iff.mp hempty
              obtain ⟨rfl, rfl⟩ := Prod.mk.inj (Option.some.inj h)
              exact .noQueues hphase hoperation
            · rename_i hempty
              obtain ⟨rfl, rfl⟩ := Prod.mk.inj (Option.some.inj h)
              exact .hasQueues queues hphase hoperation fun hnil => hempty (by rw [hnil]; rfl)
          · cases h
  | write outcome => cases h

lemma resumed_of_writeFile {s : Store} {c : Call} {saved : SavedSharing}
    (hphase : c.phase = .persistWrite saved) (outcome : WriteOutcome) :
    Resumed s c (.write outcome) (writeFile s c saved outcome).1
      (writeFile s c saved outcome).2 := by
  cases outcome with
  | written => exact .written saved hphase
  | noDirectory => exact .notWritten saved _ s.file _ hphase (by decide)
  | failed left => exact .notWritten saved _ left _ hphase (by simp)

/-- Every section is one of these. -/
theorem resumed_of_resume {s s' : Store} {c c' : Call} {x : Input}
    (h : resume s c x = some (s', c')) : Resumed s c x s' c' := by
  unfold resume at h
  split at h
  · exact resumed_of_begin ‹_› h
  · split at h
    · obtain ⟨rfl, rfl⟩ := Prod.mk.inj (Option.some.inj h)
      exact .changed ‹_› ‹_›
    · obtain ⟨rfl, rfl⟩ := Prod.mk.inj (Option.some.inj h)
      exact .unchanged ‹_› (Bool.eq_false_iff.mpr ‹_›)
  · split at h
    · split at h
      · obtain ⟨rfl, rfl⟩ := Prod.mk.inj (Option.some.inj h)
        exact .disabled _ ‹_› ‹_›
      · cases h
    · obtain ⟨rfl, rfl⟩ := Prod.mk.inj (Option.some.inj h)
      exact .notDisabled _ ‹_› (Bool.eq_false_iff.mpr ‹_›)
  · obtain ⟨rfl, rfl⟩ := Prod.mk.inj (Option.some.inj h)
    exact .selected _ ‹_›
  · split at h
    · obtain ⟨rfl, rfl⟩ := Prod.mk.inj (Option.some.inj h)
      exact .differs _ ‹_›
    · rename_i hsame
      obtain ⟨rfl, rfl⟩ := Prod.mk.inj (Option.some.inj h)
      exact .same _ ‹_› (not_not.mp hsame)
  · obtain ⟨rfl, rfl⟩ := Prod.mk.inj (Option.some.inj h)
    exact .published _ ‹_›
  · split at h
    · obtain ⟨rfl, rfl⟩ := Prod.mk.inj (Option.some.inj h)
      exact .collected ‹_› ‹_›
    · obtain ⟨rfl, rfl⟩ := Prod.mk.inj (Option.some.inj h)
      exact .noPath ‹_› (Bool.eq_false_iff.mpr ‹_›)
  · obtain ⟨rfl, rfl⟩ := Prod.mk.inj (Option.some.inj h)
    exact .locked _ ‹_›
  · rename_i saved outcome hphase
    have hresumed := resumed_of_writeFile (s := s) hphase outcome
    rw [Option.some.inj h] at hresumed
    exact hresumed
  · obtain ⟨rfl, rfl⟩ := Prod.mk.inj (Option.some.inj h)
    exact .notListed _ ‹_›
  · obtain ⟨rfl, rfl⟩ := Prod.mk.inj (Option.some.inj h)
    exact .listed _ ‹_›
  · obtain ⟨rfl, rfl⟩ := Prod.mk.inj (Option.some.inj h)
    exact .answered _ _ ‹_›
  · cases h

/-! ### The windows of a call -/

/-- Between reading the selection for an update, or replacing it, and the end of
the publication. -/
def Call.updating (c : Call) : Prop :=
  match c.phase with
  | .disable _ | .compare _ | .publish _ => True
  | .select _ => c.operation = .restore
  | _ => False

/-- Between replacing the selection and the end of the publication. -/
def Call.publishing (c : Call) : Prop :=
  match c.phase with
  | .compare _ | .publish _ => True
  | _ => False

/-- Has changed the settings or is about to, and has not begun to persist. -/
def Call.owing (c : Call) : Prop :=
  match c.phase with
  | .select _ | .compare _ | .publish _ | .persist => True
  | _ => False

/-- Between reading the selection for the file and the end of the file write. -/
def Call.persisting (c : Call) : Prop :=
  match c.phase with
  | .persistEnabled _ | .persistWrite _ => True
  | _ => False

/-- The section that comes next opens the update window. -/
def Call.opensUpdate (s : Store) (c : Call) : Prop :=
  match c.phase with
  | .readSelection => drops s.selection c.queues = true
  | .select _ => c.operation ≠ .restore
  | _ => False

/-- The section that comes next opens the persist window. -/
def Call.opensPersist (s : Store) (c : Call) : Prop := c.phase = .persist ∧ s.hasPath = true

/-- What the local variables of a call say about the store. -/
def Call.Sound (s : Store) (c : Call) : Prop :=
  match c.phase with
  | .readSelection => c.operation = .restore ∧ c.queues ≠ []
  | .disable selection =>
      c.operation = .restore ∧ c.queues ≠ [] ∧ drops s.selection c.queues = true
        ∧ selection = kept s.selection c.queues
  | .select selection =>
      (∃ names, c.operation = .setShared names ∧ selection = SharedPrinters.new names)
        ∨ (c.operation = .restore ∧ c.queues ≠ [] ∧ drops s.selection c.queues = true
          ∧ selection = kept s.selection c.queues)
  | .compare selection | .publish selection =>
      selection = s.selection ∧ ∀ enabled, c.operation ≠ .setSharingEnabled enabled
  | _ => True

end ShaPrint.Sharing
