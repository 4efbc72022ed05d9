import ShaPrint.Channel.Restart
import ShaPrint.Lib.Processes

/-!
Moving the Network Channel of the previous ShaPrint app into this one, `application/legacy.rs`,
beside the configurations of the user.

A call is a process that runs one section between two awaits. What it reads and how its writes
end are inputs of a section. A configuration holds `configure_lock` from the section that takes
it to the one that changes the memory; `is_configured` looks at the memory without the lock. The
app starts any number of times: a start opens the channel from the files, and of the calls of an
earlier start nothing is left but the files.

* `LegacySnapshot`, `outcome`, `describe`: what the previous app left, and what becomes of it.
* `App`, `Call`: the files and the memory, and how far a call is.
* `resume`, `imports`: the sections, and the interleavings.
* `Moved`, `moved_of_resume`: what a section does, said once.
-/

namespace ShaPrint.Legacy

open Channel

/-! ### The previous app -/

/-- The Network Channel the previous app used. -/
inductive LegacyChannel where
  | absent
  | readable (channel : String)
  | unreadable
  deriving DecidableEq

/-- What the previous app left for this user. -/
structure LegacySnapshot where
  hasSettings : Bool
  channel : LegacyChannel
  hasClientQueues : Bool
  hasSharedQueues : Bool
  deriving DecidableEq

def LegacySnapshot.found (s : LegacySnapshot) : Bool :=
  s.hasSettings || s.hasClientQueues || s.hasSharedQueues

/-- What happened to the previous app's Network Channel. -/
inductive ChannelOutcome where
  | importable
  | imported
  | keptExisting
  | absent
  | unreadable
  deriving DecidableEq

/-- One setting from the previous app that this app does not take. -/
structure SkippedSetting where
  key : String
  label : String
  reason : String
  deriving DecidableEq

structure ImportReport where
  found : Bool
  channel : ChannelOutcome
  settings : List SkippedSetting
  queuesNeedReselection : Bool
  deriving DecidableEq

/-- Settings the previous app had that this app has no equivalent for. -/
def settingsWithoutEquivalent : List SkippedSetting :=
  [⟨"auto-update", "Automatic updates", "This app does not update itself yet."⟩,
    ⟨"update-channel", "Update channel", "This app does not update itself yet."⟩,
    ⟨"auto-purge", "Automatic print job cleanup", "This app does not keep print job history."⟩,
    ⟨"scan-settings", "Scan folder and auto-save", "Scanning is not part of this app."⟩]

/-- What the previous app's channel means for an app that is configured or not. -/
def outcome (configured : Bool) (snapshot : LegacySnapshot) (alreadyImported : Bool) :
    ChannelOutcome :=
  match snapshot.channel with
  | .unreadable => .unreadable
  | .absent => .absent
  | .readable _ =>
      if alreadyImported then .imported
      else if configured then .keptExisting
      else .importable

/-- The report names every previous setting this app does not take. -/
def describe (snapshot : LegacySnapshot) (channel : ChannelOutcome) : ImportReport where
  found := snapshot.found
  channel := channel
  settings :=
    (if snapshot.hasSettings then settingsWithoutEquivalent else [])
      ++ (if snapshot.hasClientQueues then
          [⟨"client-queues", "Installed client printers",
            "Printer queues are installed again from this app; the previous app's queues are not activated."⟩]
        else [])
      ++ if snapshot.hasSharedQueues then
          [⟨"shared-queues", "Shared server printers",
            "Printer queues are selected again in this app; the previous selection is not activated."⟩]
        else []
  queuesNeedReselection := snapshot.hasClientQueues || snapshot.hasSharedQueues

/-! ### The record of an import -/

/-- The file `legacy-import.json`. -/
inductive Marker where
  | missing
  | corrupted
  | record (networkChannelImported : Bool)
  deriving DecidableEq

/-- How the attempt to write the record ends. -/
inductive MarkerWrite where
  | written
  | kept
  | truncated
  deriving DecidableEq

/-- `read_marker`: a file that is missing, unreadable or invalid says that nothing was imported. -/
def readMarker (readable : Bool) (marker : Marker) : Bool :=
  match readable, marker with
  | true, .record imported => imported
  | _, _ => false

def writeMarker (write : MarkerWrite) (imported : Bool) (marker : Marker) : Marker :=
  match write with
  | .written => .record imported
  | .kept => marker
  | .truncated => .corrupted

/-! ### The app and its calls -/

/-- Whose channel is stored. -/
inductive Origin where
  | user
  | legacy
  deriving DecidableEq

/-- The files and the memory of the app, and the channels that were stored so far, oldest first,
which no code reads. -/
structure App where
  disk : Disk := {}
  memory : NetworkChannel := {}
  locked : Bool := false
  marker : Marker := .missing
  last : Option ImportReport := none
  /-- How many times the app was started again. -/
  life : ℕ := 0
  stores : List (Origin × String) := []

inductive Operation where
  | apply
  | inspect
  | configure (channel : String)
  deriving DecidableEq

/-- What a configuration is for: the user, or the rest of an import. -/
inductive Purpose where
  | user
  | legacy (snapshot : LegacySnapshot)
  deriving DecidableEq

def Purpose.origin : Purpose → Origin
  | .user => .user
  | .legacy _ => .legacy

/-- What a call returns. -/
inductive Answer where
  | configured
  | report (report : ImportReport)
  deriving DecidableEq

/-- How far a call is, with the local variables it still needs. -/
inductive Phase where
  | start
  | readMarker (snapshot : LegacySnapshot)
  | decide (snapshot : LegacySnapshot) (imported : Bool)
  /-- `configure` awaits its lock. -/
  | lock (purpose : Purpose) (channel : String)
  /-- `configure` holds its lock, and awaits its two files. -/
  | persist (purpose : Purpose) (channel : String)
  | install (purpose : Purpose) (configured : NetworkChannel)
  | writeMarker (snapshot : LegacySnapshot)
  | done (result : Except AppError Answer)

/-- A call of one of the app's starts. -/
structure Call where
  operation : Operation
  life : ℕ
  phase : Phase

/-- What a section gets from outside. -/
inductive Input where
  | go
  /-- The previous app's files, or why they or the worker that reads them failed. -/
  | loaded (result : Except AppError LegacySnapshot)
  /-- Whether the record can be read, or why the worker that reads it failed. -/
  | marker (result : Except AppError Bool)
  /-- How the writes of a configuration end, and its salt. -/
  | stored (writes : Writes) (salt : Option Salt)
  | wrote (write : MarkerWrite)

/-! ### The sections -/

/-- The channel is stored, unless it is empty. -/
def store (purpose : Purpose) (channel : String) : Phase :=
  if channel = "" then .done (.error (.invalidInput "Network Channel cannot be empty"))
  else .lock purpose channel

/-- The end of an `apply`, which publishes its report. -/
def publish (s : App) (report : ImportReport) : App × Phase :=
  ({ s with last := some report }, .done (.ok (.report report)))

/-- The section of `apply` that decides whether to import. -/
def decideImport (s : App) (snapshot : LegacySnapshot) (imported : Bool) : App × Phase :=
  let outcome := outcome s.memory.isConfigured snapshot imported
  match outcome, snapshot.channel with
  | .importable, .readable channel => (s, store (.legacy snapshot) channel)
  | _, _ => publish s (describe snapshot outcome)

variable (X : Services) (setup : Setup)

/-- The next section of a call. -/
def resume (s : App) (c : Call) (x : Input) : Option (App × Phase) :=
  match c.phase, x with
  | .start, .go =>
      match c.operation with
      | .configure channel => some (s, store .user channel)
      | _ => none
  | .start, .loaded result =>
      match c.operation, result with
      | .configure _, _ => none
      | _, .error e => some (s, .done (.error e))
      | _, .ok snapshot => some (s, .readMarker snapshot)
  | .readMarker _, .marker (.error e) => some (s, .done (.error e))
  | .readMarker snapshot, .marker (.ok readable) =>
      some (s, .decide snapshot (readMarker readable s.marker))
  | .decide snapshot imported, .go =>
      match c.operation with
      | .inspect =>
          let outcome := outcome s.memory.isConfigured snapshot imported
          some (s, .done (.ok (.report (describe snapshot outcome))))
      | _ => some (decideImport s snapshot imported)
  | .lock purpose channel, .go =>
      if s.locked then none else some ({ s with locked := true }, .persist purpose channel)
  | .persist purpose channel, .stored writes salt =>
      match configure X setup writes salt s.disk channel with
      | (.ok configured, disk) =>
          some ({ s with disk, stores := s.stores ++ [(purpose.origin, channel)] },
            .install purpose configured)
      | (.error e, disk) => some ({ s with disk, locked := false }, .done (.error e))
  | .install .user configured, .go =>
      some ({ s with memory := configured, locked := false }, .done (.ok .configured))
  | .install (.legacy snapshot) configured, .go =>
      some ({ s with memory := configured, locked := false }, .writeMarker snapshot)
  | .writeMarker snapshot, .wrote write =>
      some (publish { s with marker := writeMarker write true s.marker }
        (describe snapshot .imported))
  | _, _ => none

/-- What happens to the app beside its calls. -/
inductive Outside where
  /-- The app ends, at any moment, and starts again. -/
  | restart
  /-- The record is removed or damaged. -/
  | damage (removed : Bool)
  deriving DecidableEq

def outside (s : App) : Outside → Option App
  | .restart =>
      match openWithCredentialFile X setup s.disk with
      | .ok memory =>
          some { s with memory, locked := false, last := none, life := s.life + 1 }
      | .error _ => none
  | .damage removed => some { s with marker := if removed then .missing else .corrupted }

/-- An app without files, as it is installed. -/
def installed : App where
  memory := (openWithCredentialFile X setup {}).toOption.getD {}

/-- The calls of an app; those of an earlier start do not go on. -/
def calls : Processes App Call Input Outside where
  init := installed X setup
  starts c := match c.phase with
    | .start => true
    | _ => false
  advance s c x :=
    if c.life = s.life then
      (resume X setup s c x).map fun (s, phase) => (s, { c with phase }, [])
    else none
  outside := outside X setup

abbrev World := Processes.World App Call

abbrev Event := Processes.Event Call Input Outside

/-- The interleavings of any calls, from an app as it is installed. -/
def imports : StepSystem World Event := (calls X setup).system

/-! ### What a section does -/

variable {X : Services} {setup : Setup} {s s' : App} {c : Call} {x : Input} {phase : Phase}

/-- The call holds the lock. -/
def Phase.holds : Phase → Bool
  | .persist _ _ | .install _ _ => true
  | _ => false

/-- The files are of a new channel, and the memory is not. -/
def Phase.installs : Phase → Bool
  | .install _ _ => true
  | _ => false

/-- The call stores a channel. -/
def Phase.storing : Phase → Bool
  | .lock _ _ | .persist _ _ | .install _ _ | .writeMarker _ => true
  | _ => false

/-- The call takes it that the previous channel was imported. -/
def Phase.saysImported : Phase → Bool
  | .decide _ imported => imported
  | .install (.legacy _) _ | .writeMarker _ => true
  | .done (.ok (.report report)) => report.channel = .imported
  | _ => false

/-- The sections, by what they do. -/
inductive Moved (X : Services) (setup : Setup) (s : App) (c : Call) : App → Phase → Prop where
  /-- Nothing is changed. -/
  | look (phase : Phase) (hwas : c.phase.storing = false) (hfree : phase.holds = false)
      (hinspect : c.operation = .inspect → phase.storing = false)
      (hsaid : phase.saysImported = true →
        c.phase.saysImported = true ∨ s.marker = .record true) :
      Moved X setup s c s phase
  | publish (report : ImportReport) (hwas : c.phase.storing = false)
      (hoperation : c.operation ≠ .inspect)
      (hsaid : report.channel = .imported → c.phase.saysImported = true) :
      Moved X setup s c { s with last := some report } (.done (.ok (.report report)))
  | lock (purpose : Purpose) (channel : String) (hphase : c.phase = .lock purpose channel)
      (hfree : s.locked = false) :
      Moved X setup s c { s with locked := true } (.persist purpose channel)
  | stored (purpose : Purpose) (channel : String) (writes : Writes) (salt : Option Salt)
      (configured : NetworkChannel) (disk : Disk) (hphase : c.phase = .persist purpose channel)
      (hrun : configure X setup writes salt s.disk channel = (.ok configured, disk)) :
      Moved X setup s c
        { s with disk := disk, stores := s.stores ++ [(purpose.origin, channel)] }
        (.install purpose configured)
  | unstored (purpose : Purpose) (channel : String) (writes : Writes) (salt : Option Salt)
      (e : AppError) (disk : Disk) (hphase : c.phase = .persist purpose channel)
      (hrun : configure X setup writes salt s.disk channel = (.error e, disk)) :
      Moved X setup s c { s with disk := disk, locked := false } (.done (.error e))
  | install (purpose : Purpose) (configured : NetworkChannel) (phase : Phase)
      (hphase : c.phase = .install purpose configured) (hfree : phase.holds = false)
      (hsaid : phase.saysImported = true → c.phase.saysImported = true) :
      Moved X setup s c { s with memory := configured, locked := false } phase
  | wrote (snapshot : LegacySnapshot) (write : MarkerWrite)
      (hphase : c.phase = .writeMarker snapshot) :
      Moved X setup s c
        { s with
          marker := writeMarker write true s.marker
          last := some (describe snapshot .imported) }
        (.done (.ok (.report (describe snapshot .imported))))

lemma store_holds (purpose : Purpose) (channel : String) :
    (store purpose channel).holds = false ∧ (store purpose channel).saysImported = false := by
  unfold store
  split_ifs <;> exact ⟨rfl, rfl⟩

/-- A report says that the channel was imported only where the record did. -/
lemma outcome_imported {configured imported : Bool} {snapshot : LegacySnapshot}
    (h : outcome configured snapshot imported = .imported) : imported = true := by
  unfold outcome at h
  split at h
  · cases h
  · cases h
  · split_ifs at h with himported
    exact himported

/-- What a record says that was read. -/
lemma readMarker_true {readable : Bool} {marker : Marker}
    (h : readMarker readable marker = true) : marker = .record true := by
  unfold readMarker at h
  split at h
  · rw [h]
  · cases h

lemma moved_of_decide {snapshot : LegacySnapshot} {imported : Bool}
    (hphase : c.phase = .decide snapshot imported) (hoperation : c.operation ≠ .inspect) :
    Moved X setup s c (decideImport s snapshot imported).1
      (decideImport s snapshot imported).2 := by
  have hwas : c.phase.storing = false := by rw [hphase]; rfl
  have hpublish : Moved X setup s c
      (publish s (describe snapshot (outcome s.memory.isConfigured snapshot imported))).1
      (publish s (describe snapshot (outcome s.memory.isConfigured snapshot imported))).2 :=
    .publish _ hwas hoperation fun hchannel => by
      rw [hphase]
      exact outcome_imported hchannel
  unfold decideImport
  dsimp only
  split
  · rename_i channel hout hchannel
    refine .look _ hwas (store_holds _ _).1 (fun h => absurd h hoperation) fun hsaid => ?_
    rw [(store_holds _ _).2] at hsaid
    cases hsaid
  · exact hpublish

/-- **What a section does.** -/
theorem moved_of_resume (h : resume X setup s c x = some (s', phase)) :
    Moved X setup s c s' phase := by
  unfold resume at h
  split at h
  · rename_i hphase
    have hwas : c.phase.storing = false := by rw [hphase]; rfl
    split at h
    · rename_i channel hoperation
      obtain ⟨rfl, rfl⟩ := Prod.mk.inj (Option.some.inj h)
      refine .look _ hwas (store_holds _ _).1 (fun h => ?_) fun hsaid => ?_
      · rw [hoperation] at h
        cases h
      · rw [(store_holds _ _).2] at hsaid
        cases hsaid
    · cases h
  · rename_i result hphase
    have hwas : c.phase.storing = false := by rw [hphase]; rfl
    split at h
    · cases h
    · obtain ⟨rfl, rfl⟩ := Prod.mk.inj (Option.some.inj h)
      exact .look _ hwas rfl (fun _ => rfl) fun hsaid => by cases hsaid
    · obtain ⟨rfl, rfl⟩ := Prod.mk.inj (Option.some.inj h)
      exact .look _ hwas rfl (fun _ => rfl) fun hsaid => by cases hsaid
  · rename_i snapshot e hphase
    have hwas : c.phase.storing = false := by rw [hphase]; rfl
    obtain ⟨rfl, rfl⟩ := Prod.mk.inj (Option.some.inj h)
    exact .look _ hwas rfl (fun _ => rfl) fun hsaid => by cases hsaid
  · rename_i snapshot readable hphase
    have hwas : c.phase.storing = false := by rw [hphase]; rfl
    obtain ⟨rfl, rfl⟩ := Prod.mk.inj (Option.some.inj h)
    exact .look _ hwas rfl (fun _ => rfl) fun hsaid => .inr (readMarker_true hsaid)
  · rename_i snapshot imported hphase
    have hwas : c.phase.storing = false := by rw [hphase]; rfl
    split at h
    · obtain ⟨rfl, rfl⟩ := Prod.mk.inj (Option.some.inj h)
      refine .look _ hwas rfl (fun _ => rfl) fun hsaid => .inl ?_
      rw [hphase]
      exact outcome_imported (of_decide_eq_true hsaid)
    · rename_i hoperation
      have hmoved : Moved X setup s c (decideImport s snapshot imported).1
          (decideImport s snapshot imported).2 := moved_of_decide hphase hoperation
      rw [Option.some.inj h] at hmoved
      exact hmoved
  · rename_i purpose channel hphase
    split_ifs at h with hlocked
    obtain ⟨rfl, rfl⟩ := Prod.mk.inj (Option.some.inj h)
    exact .lock purpose channel hphase (Bool.eq_false_iff.mpr hlocked)
  · rename_i purpose channel writes salt hphase
    split at h
    · rename_i configured disk hrun
      obtain ⟨rfl, rfl⟩ := Prod.mk.inj (Option.some.inj h)
      exact .stored purpose channel writes salt configured disk hphase hrun
    · rename_i e disk hrun
      obtain ⟨rfl, rfl⟩ := Prod.mk.inj (Option.some.inj h)
      exact .unstored purpose channel writes salt e disk hphase hrun
  · rename_i configured hphase
    obtain ⟨rfl, rfl⟩ := Prod.mk.inj (Option.some.inj h)
    exact .install .user configured _ hphase rfl fun hsaid => by cases hsaid
  · rename_i snapshot configured hphase
    obtain ⟨rfl, rfl⟩ := Prod.mk.inj (Option.some.inj h)
    exact .install (.legacy snapshot) configured _ hphase rfl fun _ => by rw [hphase]; rfl
  · rename_i snapshot write hphase
    obtain ⟨rfl, rfl⟩ := Prod.mk.inj (Option.some.inj h)
    exact .wrote snapshot write hphase
  · cases h

end ShaPrint.Legacy
