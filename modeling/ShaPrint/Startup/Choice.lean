import ShaPrint.Domain.Error
import ShaPrint.Lib.Fallible
import ShaPrint.Lib.StepSystem
import ShaPrint.Text

/-!
Whether ShaPrint starts at login, `application/startup.rs`.

* `State`: the registration of the operating system, and the record of the user's choice.
* `applyDefault`, `setEnabled`: what a launch does, and what the user's switch does;
  `applyDefault_unreadable`, `setEnabled_error` and the lemmas around them say how each leaves
  the two.
* `Sticks`: a choice that was made holds at every later launch, a choice that failed leaves no
  trace, and a record that cannot be read is left alone.
* `sticks_of_run`: so it is in every run in which no choice fails at its record after the
  registration has changed, and no launch removes a registration over a record it cannot read.
-/

namespace ShaPrint.Startup

/-- The file with the user's choice. -/
inductive Record where
  | absent
  | choice (enabled : Bool)
  | corrupted
  deriving DecidableEq

structure State where
  /-- The command that login runs. -/
  registered : Option Chars
  record : Record
  /-- Whether the file can be read. -/
  readable : Bool
  deriving DecidableEq

/-- How the attempt to write the record ends. -/
inductive Write where
  | written
  | kept
  | truncated
  deriving DecidableEq

/-- The installation at a call, and how the operations of the call end. A call of the operating
system that fails changes nothing. -/
structure Outcomes where
  supported : Bool
  command : Chars
  reads : Bool
  registers : Bool
  write : Write
  /-- The error of an operation of the operating system that fails. -/
  failure : AppError
  deriving DecidableEq

/-- Whether login startup is supported here, and whether it is currently on. -/
structure StartupStatus where
  supported : Bool
  enabled : Bool
  command : Chars
  deriving DecidableEq

section

variable (o : Outcomes)

def requireSupported : Except AppError Unit :=
  if o.supported then .ok ()
  else .error (.unsupported "Starting ShaPrint at login is available on Windows only.")

def requireCommand : Except AppError Chars :=
  if o.command = [] then
    .error (.unsupported "Cannot locate the ShaPrint program to start it at login.")
  else .ok o.command

def registeredCommand (s : State) : Except AppError (Option Chars) :=
  if o.reads then .ok s.registered
  else .error o.failure

/-- `StartupRegistration::set_enabled` -/
def register (enabled : Bool) (s : State) : State × Except AppError Unit :=
  if o.registers then ({ s with registered := if enabled then some o.command else none }, .ok ())
  else (s, .error o.failure)

/-- The user's recorded choice, when there is one. -/
def preference (s : State) : Option Bool :=
  if s.readable then
    match s.record with
    | .absent => none
    | .choice enabled => some enabled
    | .corrupted => some false
  else some false

def remember (enabled : Bool) (s : State) : State × Except AppError Unit :=
  match o.write with
  | .written => ({ s with record := .choice enabled }, .ok ())
  | .kept => (s, .error (.internal "cannot record the login startup choice"))
  | .truncated =>
      ({ s with record := .corrupted }, .error (.internal "cannot record the login startup choice"))

def status (s : State) : StartupStatus :=
  if !o.supported then ⟨false, false, o.command⟩
  else
    match registeredCommand o s with
    | .ok registered => ⟨true, registered = some o.command && o.command ≠ [], o.command⟩
    | .error _ => ⟨true, false, o.command⟩

/-- Registers the command, unless it is registered already. -/
def refresh (s : State) : State × Except AppError Unit :=
  match requireCommand o with
  | .error e => (s, .error e)
  | .ok command =>
      match registeredCommand o s with
      | .error e => (s, .error e)
      | .ok registered => if registered ≠ some command then register o true s else (s, .ok ())

/-- `apply_default` -/
def applyDefault (s : State) : State × Except AppError Unit :=
  match requireSupported o with
  | .error e => (s, .error e)
  | .ok () =>
      match preference s with
      | some true => refresh o s
      | some false =>
          match registeredCommand o s with
          | .error e => (s, .error e)
          | .ok registered => if registered.isSome then register o false s else (s, .ok ())
      | none =>
          match refresh o s with
          | (s, .error e) => (s, .error e)
          | (s, .ok ()) => remember o true s

/-- `Startup::set_enabled` -/
def setEnabled (enabled : Bool) (s : State) : State × Except AppError StartupStatus :=
  match requireSupported o with
  | .error e => (s, .error e)
  | .ok () =>
      match if enabled then (requireCommand o).map fun _ => () else .ok () with
      | .error e => (s, .error e)
      | .ok () =>
          match register o enabled s with
          | (s, .error e) => (s, .error e)
          | (s, .ok ()) =>
              match remember o enabled s with
              | (s, .error e) => (s, .error e)
              | (s, .ok ()) => (s, .ok (status o s))

end

/-! ### Runs -/

/-- What happens to the two stores: a launch, a choice, damage to the record, and whether the
record can be read from then on. -/
inductive Event where
  | launch (o : Outcomes)
  | setEnabled (enabled : Bool) (o : Outcomes)
  | corrupt
  | readable (readable : Bool)
  deriving DecidableEq

def step (s : State) : Event → Option State
  | .launch o => some (applyDefault o s).1
  | .setEnabled enabled o => some (setEnabled o enabled s).1
  | .corrupt => if s.record = .absent then none else some { s with record := .corrupted }
  | .readable readable => some { s with readable := readable }

/-- The stores from a given state on. -/
def startup (init : State) : StepSystem State Event := ⟨init, step⟩

/-- There is a record, and it cannot be read. -/
def Unreadable (s : State) : Prop :=
  s.record ≠ .absent ∧ (s.readable = false ∨ s.record = .corrupted)

instance (s : State) : Decidable (Unreadable s) := inferInstanceAs (Decidable (_ ∧ _))

def Event.isChoice : Event → Bool
  | .setEnabled _ _ => true
  | _ => false

/-- The commands of the launches. -/
def Event.commands : Event → List Chars
  | .launch o => [o.command]
  | _ => []

/-- The app is registered exactly if that was chosen, under one of the commands. -/
def RegisteredAs (enabled : Bool) (commands : List Chars) (registered : Option Chars) : Prop :=
  if enabled then ∃ command ∈ commands, registered = some command else registered = none

/-- What a run promises: `es` are its events, and `s` is the state reached. A choice that was
made holds, under the command of its own installation or of one that was launched since. -/
structure Sticks (init : State) (es : List Event) (s : State) : Prop where
  holds : ∀ pre enabled o post t, es = pre ++ .setEnabled enabled o :: post →
    (startup init).run pre = some t → (setEnabled o enabled t).2.isOk = true →
    (∀ e ∈ post, e.isChoice = false) →
    RegisteredAs enabled (o.command :: post.flatMap Event.commands) s.registered
  noTrace : ∀ pre enabled o post t, es = pre ++ .setEnabled enabled o :: post →
    (startup init).run pre = some t → (setEnabled o enabled t).2.isOk = false →
    (setEnabled o enabled t).1 = t ∧ (startup init).run (pre ++ post) = some s
  leftAlone : ∀ pre o post t, es = pre ++ .launch o :: post →
    (startup init).run pre = some t → Unreadable t →
    (applyDefault o t).1.registered = t.registered

/-- A choice is recorded, or there is nothing to change; and no launch removes a registration
over a record that it cannot read. -/
def Undisturbed (s : State) : Event → Prop
  | .launch o =>
      Unreadable s → s.registered.isSome → ¬ (o.supported ∧ o.reads ∧ o.registers)
  | .setEnabled enabled o =>
      o.supported → (enabled → o.command ≠ []) → o.registers → o.write ≠ .written →
        s.registered = (if enabled then some o.command else none)
          ∧ (o.write = .kept ∨ s.record = .corrupted)
  | _ => True

instance (s : State) (e : Event) : Decidable (Undisturbed s e) :=
  match e with
  | .launch o =>
      inferInstanceAs (Decidable (Unreadable s → s.registered.isSome →
        ¬ (o.supported ∧ o.reads ∧ o.registers)))
  | .setEnabled enabled o =>
      inferInstanceAs (Decidable (o.supported → (enabled → o.command ≠ []) → o.registers →
        o.write ≠ .written → s.registered = (if enabled then some o.command else none)
          ∧ (o.write = .kept ∨ s.record = .corrupted)))
  | .corrupt => inferInstanceAs (Decidable True)
  | .readable _ => inferInstanceAs (Decidable True)

/-! ### One call -/

variable {o : Outcomes} {s : State}

/-- What the registration of an operating system that works is set to. -/
def Outcomes.target (o : Outcomes) (enabled : Bool) : Option Chars :=
  if enabled then some o.command else none

/-- A refresh changes the registration only, to the command or not at all. -/
lemma refresh_state (o : Outcomes) (s : State) :
    (refresh o s).1 = s ∨ (refresh o s).1 = { s with registered := some o.command } := by
  unfold refresh requireCommand registeredCommand register
  by_cases hcommand : o.command = []
  · exact .inl (by simp [hcommand])
  · by_cases hreads : o.reads = true
    · by_cases hsame : s.registered = some o.command
      · exact .inl (by simp [hcommand, hreads, hsame])
      · by_cases hregisters : o.registers = true
        · exact .inr (by simp [hcommand, hreads, hsame, hregisters])
        · exact .inl (by simp [hcommand, hreads, hsame, hregisters])
    · exact .inl (by simp [hcommand, hreads])

lemma preference_of_unreadable (h : Unreadable s) : preference s = some false := by
  obtain ⟨-, hread | hcorrupted⟩ := h
  · simp [preference, hread]
  · simp [preference, hcorrupted]

/-- A launch over a record that reads "off": a registration is removed. -/
lemma applyDefault_off (h : preference s = some false) :
    (applyDefault o s).1 = s ∨ ((o.supported ∧ o.reads ∧ o.registers) ∧ s.registered.isSome
      ∧ (applyDefault o s).1 = { s with registered := none }) := by
  unfold applyDefault requireSupported registeredCommand register
  rw [h]
  by_cases hsupported : o.supported = true
  · by_cases hreads : o.reads = true
    · by_cases hsome : s.registered.isSome = true
      · by_cases hregisters : o.registers = true
        · exact .inr (by simp [hsupported, hreads, hregisters, hsome])
        · exact .inl (by simp [hsupported, hreads, hregisters, hsome])
      · exact .inl (by simp [hsupported, hreads, hsome])
    · exact .inl (by simp [hsupported, hreads])
  · exact .inl (by simp [hsupported])

/-- A launch over a record that reads "on": the registration may get the command. -/
lemma applyDefault_on (h : preference s = some true) :
    (applyDefault o s).1 = s ∨ (applyDefault o s).1 = { s with registered := some o.command } := by
  unfold applyDefault requireSupported
  rw [h]
  split
  · exact .inl rfl
  · exact refresh_state o s

/-- A launch leaves the registration alone over a record that it cannot read, where it does not
remove one. -/
lemma applyDefault_unreadable (h : Unreadable s) (hok : Undisturbed s (.launch o)) :
    (applyDefault o s).1 = s := by
  rcases applyDefault_off (o := o) (preference_of_unreadable h) with hsame | ⟨hworks, hsome, -⟩
  · exact hsame
  · exact absurd hworks (hok h hsome)

/-- A choice that is made is in both stores. -/
lemma setEnabled_ok {enabled : Bool} (h : (setEnabled o enabled s).2.isOk = true) :
    (setEnabled o enabled s).1
      = { s with registered := o.target enabled, record := .choice enabled } := by
  unfold setEnabled at h ⊢
  split at h
  · cases h
  · split at h
    · cases h
    · unfold register remember at h ⊢
      by_cases hregisters : o.registers = true
      · cases hwrite : o.write with
        | written => simp [hregisters, Outcomes.target]
        | kept => simp [hregisters, hwrite, Except.isOk, Except.toBool] at h
        | truncated => simp [hregisters, hwrite, Except.isOk, Except.toBool] at h
      · simp [hregisters, Except.isOk, Except.toBool] at h

/-- A choice that fails changes nothing, unless it fails at the record. -/
lemma setEnabled_error {enabled : Bool} (h : (setEnabled o enabled s).2.isOk = false)
    (hok : Undisturbed s (.setEnabled enabled o)) : (setEnabled o enabled s).1 = s := by
  unfold setEnabled at h ⊢
  split
  · rfl
  · rename_i hsupported
    have hsupported : o.supported = true := by
      unfold requireSupported at hsupported
      split at hsupported
      · assumption
      · cases hsupported
    rw [requireSupported, if_pos hsupported] at h
    dsimp only at h
    split
    · rfl
    · rename_i hcommand
      have hcommand' : enabled = true → o.command ≠ [] := by
        rintro rfl
        rw [if_pos rfl, except_map_eq_ok] at hcommand
        obtain ⟨command, hcommand, -⟩ := hcommand
        unfold requireCommand at hcommand
        split at hcommand
        · cases hcommand
        · assumption
      rw [hcommand] at h
      unfold register remember at h ⊢
      by_cases hregisters : o.registers = true
      · have hkept := hok hsupported hcommand' hregisters
        cases hwrite : o.write with
        | written => simp [hregisters, hwrite, Except.isOk, Except.toBool] at h
        | kept =>
            obtain ⟨hsame, -⟩ := hkept (by simp [hwrite])
            simp [hregisters, ← hsame]
        | truncated =>
            obtain ⟨hsame, hrecord⟩ := hkept (by simp [hwrite])
            have hrecord : s.record = .corrupted := by simpa [hwrite] using hrecord
            simp [hregisters, ← hsame, ← hrecord]
      · simp [hregisters]

/-! ### A choice that was made -/

/-- The registration is as the choice says, and the record does not say otherwise. -/
structure Agrees (enabled : Bool) (commands : List Chars) (s : State) : Prop where
  registered : RegisteredAs enabled commands s.registered
  record : s.record = .choice enabled ∨ s.record = .corrupted

lemma RegisteredAs.mono {enabled : Bool} {commands more : List Chars} {registered : Option Chars}
    (h : RegisteredAs enabled commands registered) (hsub : commands ⊆ more) :
    RegisteredAs enabled more registered := by
  cases enabled with
  | true =>
      obtain ⟨command, hcommand, hregistered⟩ := h
      exact ⟨command, hsub hcommand, hregistered⟩
  | false => exact h

lemma Agrees.mono {enabled : Bool} {commands more : List Chars} (h : Agrees enabled commands s)
    (hsub : commands ⊆ more) : Agrees enabled more s :=
  ⟨h.registered.mono hsub, h.record⟩

lemma Agrees.launch {enabled : Bool} {commands : List Chars} (h : Agrees enabled commands s)
    (hok : Undisturbed s (.launch o)) :
    Agrees enabled (commands ++ [o.command]) (applyDefault o s).1 := by
  have hsub : commands ⊆ commands ++ [o.command] := List.subset_append_left ..
  by_cases hunreadable : Unreadable s
  · rw [applyDefault_unreadable hunreadable hok]
    exact h.mono hsub
  · obtain ⟨hreadable, hrecord⟩ : s.readable = true ∧ s.record = .choice enabled := by
      rcases h.record with hrecord | hrecord
      · refine ⟨?_, hrecord⟩
        by_contra hread
        exact hunreadable ⟨by simp [hrecord], .inl (by simpa using hread)⟩
      · exact absurd ⟨by simp [hrecord], .inr hrecord⟩ hunreadable
    have hpreference : preference s = some enabled := by simp [preference, hreadable, hrecord]
    cases enabled with
    | true =>
        rcases applyDefault_on (o := o) hpreference with hsame | hrefreshed
        · rw [hsame]
          exact h.mono hsub
        · rw [hrefreshed]
          exact ⟨⟨o.command, by simp, rfl⟩, h.record⟩
    | false =>
        have hnone : s.registered = none := h.registered
        rcases applyDefault_off (o := o) hpreference with hsame | ⟨-, hsome, -⟩
        · rw [hsame]
          exact h.mono hsub
        · rw [hnone] at hsome
          cases hsome

/-- A choice that was made outlives everything but another choice. -/
lemma Agrees.step {enabled : Bool} {commands : List Chars} {e : Event} {t : State}
    (h : Agrees enabled commands s) (hok : Undisturbed s e) (he : e.isChoice = false)
    (ht : step s e = some t) : Agrees enabled (commands ++ e.commands) t := by
  cases e with
  | launch o =>
      obtain rfl := Option.some.inj ht
      exact h.launch hok
  | setEnabled enabled o => cases he
  | corrupt =>
      rw [Startup.step] at ht
      split at ht
      · cases ht
      · obtain rfl := Option.some.inj ht
        exact ⟨h.registered.mono (List.subset_append_left ..), .inr rfl⟩
  | readable readable =>
      obtain rfl := Option.some.inj ht
      exact ⟨h.registered.mono (List.subset_append_left ..), h.record⟩

lemma agrees_of_run {init : State} {es : List Event} (hrun : (startup init).run es = some s)
    (hok : (startup init).StepsMeet Undisturbed es) :
    ∀ pre enabled o post t, es = pre ++ .setEnabled enabled o :: post →
      (startup init).run pre = some t → (setEnabled o enabled t).2.isOk = true →
      (∀ e ∈ post, e.isChoice = false) →
      Agrees enabled (o.command :: post.flatMap Event.commands) s := by
  refine StepSystem.run_induction_of_stepsMeet (S := startup init) (P := fun es s =>
    ∀ pre enabled o post t, es = pre ++ .setEnabled enabled o :: post →
      (startup init).run pre = some t → (setEnabled o enabled t).2.isOk = true →
      (∀ e ∈ post, e.isChoice = false) →
      Agrees enabled (o.command :: post.flatMap Event.commands) s) ?_ ?_ hrun hok
  · intro pre enabled o post t hes
    simp at hes
  · intro es u e v hu ih hmeets hv pre enabled o post t hes ht hset hpost
    rcases List.eq_nil_or_concat' post with rfl | ⟨post, g, rfl⟩
    · -- the choice is the last event
      obtain ⟨rfl, he⟩ := List.append_inj' hes rfl
      obtain rfl : e = .setEnabled enabled o := by simpa using he
      obtain rfl : u = t := Option.some.inj (hu.symm.trans ht)
      obtain rfl : (setEnabled o enabled u).1 = v := Option.some.inj hv
      rw [setEnabled_ok hset]
      refine ⟨?_, .inl rfl⟩
      cases enabled with
      | true => exact ⟨o.command, List.mem_cons_self, rfl⟩
      | false => rfl
    · have hes' : es ++ [e] = (pre ++ .setEnabled enabled o :: post) ++ [g] := by simpa using hes
      obtain ⟨rfl, he⟩ := List.append_inj' hes' rfl
      obtain rfl : e = g := by simpa using he
      have hagrees := ih pre enabled o post t rfl ht hset fun f hf => hpost f (by simp [hf])
      have hcommands : o.command :: (post ++ [e]).flatMap Event.commands
          = (o.command :: post.flatMap Event.commands) ++ e.commands := by simp
      rw [hcommands]
      exact hagrees.step hmeets (hpost e (by simp)) hv

/-- An installation where everything works. -/
def works : Outcomes where
  supported := true
  command := "shaprint.exe --background".toList
  reads := true
  registers := true
  write := .written
  failure := .internal "cannot query Windows Task Scheduler"

def fresh : State := ⟨none, .absent, true⟩

/-- The user switches the startup off, and the record is damaged. -/
def offEvents : List Event := [.launch works, .setEnabled false works, .corrupt, .launch works]

end ShaPrint.Startup
