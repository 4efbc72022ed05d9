import ShaPrint.Lib.Processes

/-!
The desktop updater, `application/updater.rs`.

Each call is a process that locks the state for one section at a time, and awaits
the check gate, the update source or the installer between them. What the print
job tracker answers is an input of the section that asks it, since the tracker
changes on its own. The adapters' handles inside a release and a package, and the
broadcast of the status, are left out: no section reads them.

* `Shared`: the state behind the lock and the gate; `readies` counts the packages
  that have become ready and `taken` records that an installer has taken the
  package and the status has not been reset by `fail` since.
* `Call`: where a call is. `advance`: its next section.
* `updater`: the interleavings.
-/

namespace ShaPrint.Updater

structure UpdateRelease where
  version : String
  notes : Option String
  deriving DecidableEq

structure UpdatePackage where
  version : String
  notes : Option String
  deriving DecidableEq

inductive UpdateState where
  | idle
  | checking
  | available (version : String) (notes : Option String)
  | downloading (version : String)
  | readyToRestart (version : String) (restartRequested : Bool)
  | failed (message : String)
  deriving DecidableEq

structure UpdateStatus where
  currentVersion : String
  state : UpdateState
  waitingForJobs : Bool
  deriving DecidableEq

inductive CheckKind where
  | manual
  | background
  deriving DecidableEq

/-- What the calls share. -/
structure Shared where
  status : UpdateStatus
  package : Option UpdatePackage
  /-- The check gate is held. -/
  gate : Bool
  readies : ℕ
  taken : Bool
  deriving DecidableEq

/-- `UpdateCoordinator::new`. -/
def Shared.new (currentVersion : String) : Shared where
  status := ⟨currentVersion, .idle, false⟩
  package := none
  gate := false
  readies := 0
  taken := false

/-- `set_state`. -/
def Shared.setState (s : Shared) (next : UpdateState) (waiting : Bool) : Shared :=
  { s with status := { s.status with state := next, waitingForJobs := waiting } }

/-- `update_waiting_flag`. -/
def Shared.updateWaitingFlag (s : Shared) (waiting : Bool) : Shared :=
  { s with status := { s.status with waitingForJobs := waiting } }

/-- What a call returns. -/
inductive Answer where
  | status (status : UpdateStatus)
  | error (message : String)
  | flag (value : Bool)
  | unit
  deriving DecidableEq

/-- Where a call is: the section it takes next, with the local variables it needs. -/
inductive Call where
  /-- `check` awaits the gate. -/
  | checkGate (kind : CheckKind)
  /-- `check` looks for an update that is ready already. -/
  | checkReady (kind : CheckKind)
  | checkStart (kind : CheckKind)
  /-- `check` awaits the source's answer. -/
  | checkSource (kind : CheckKind)
  | checkAvailable (kind : CheckKind) (release : UpdateRelease)
  | checkDownloading (kind : CheckKind) (release : UpdateRelease)
  /-- `check` awaits the download. -/
  | checkDownload (kind : CheckKind) (release : UpdateRelease)
  | checkStore (package : UpdatePackage)
  | checkPublish (version : String)
  | checkClear
  | checkIdle
  | checkFail
  | checkStatus
  /-- `check` releases the gate. -/
  | checkLeave (answer : Answer)
  | requestRead (auto : Bool)
  /-- `request_restart` is about to write back the state it read, when `readies`
  packages had become ready. -/
  | requestWrite (auto : Bool) (next : UpdateState) (readies : ℕ)
  | requestStatus (auto : Bool)
  /-- `request_auto_restart_if_idle` asks the tracker. -/
  | autoIdle (windowHidden : Bool)
  | autoStatus
  | installRead
  /-- `install_if_requested` asks the tracker. -/
  | installSafe
  | installWaiting (waiting : Bool)
  | installTake
  | installUnwait (package : UpdatePackage)
  /-- `install_if_requested` awaits the installer. -/
  | installing (package : UpdatePackage)
  | failClear (message : String)
  | failSet (message : String)
  | done (answer : Answer)
  deriving DecidableEq

/-- What a section gets from outside. -/
inductive Input where
  | go
  /-- The answer of the source, without its error text, which no call uses. -/
  | source (answer : Option (Option UpdateRelease))
  | download (answer : Option UpdatePackage)
  /-- The tracker's `is_restart_safe`. -/
  | safe (answer : Bool)
  /-- The tracker's `is_idle_for` and `is_restart_safe`. -/
  | idle (idle safe : Bool)
  | installed (answer : Except String Unit)
  deriving DecidableEq

/-- What a restart request makes of a state. -/
def withRequest : UpdateState → UpdateState
  | .readyToRestart version _ => .readyToRestart version true
  | other => other

def isReady : UpdateState → Bool
  | .readyToRestart _ _ => true
  | _ => false

/-- The state is ready and a restart is requested. -/
def isRequested : UpdateState → Bool
  | .readyToRestart _ requested => requested
  | _ => false

/-- The state is ready and no restart is requested yet. -/
def isUnrequested : UpdateState → Bool
  | .readyToRestart _ requested => !requested
  | _ => false

def checkFailedMessage : String :=
  "ShaPrint could not check, download, or verify the update. Check your internet connection and try again."

/-- Where `check` goes on after an error of the source. -/
def checkError : CheckKind → Call
  | .manual => .checkFail
  | .background => .checkClear

/-- The calls before their first section. -/
def Call.isNew : Call → Bool
  | .checkGate _ | .requestRead false | .autoIdle _ | .installRead | .failClear _ => true
  | _ => false

/-- The next section of a call. -/
def advance (s : Shared) : Call → Input → Option (Shared × Call)
  | .checkGate kind, .go =>
      if s.gate then none else some ({ s with gate := true }, .checkReady kind)
  | .checkReady kind, .go =>
      if isReady s.status.state then some (s, .checkLeave (.status s.status))
      else some (s, .checkStart kind)
  | .checkStart kind, .go => some (s.setState .checking false, .checkSource kind)
  | .checkSource kind, .source none => some (s, checkError kind)
  | .checkSource _, .source (some none) => some (s, .checkClear)
  | .checkSource kind, .source (some (some release)) => some (s, .checkAvailable kind release)
  | .checkAvailable kind release, .go =>
      some (s.setState (.available release.version release.notes) false,
        .checkDownloading kind release)
  | .checkDownloading kind release, .go =>
      some (s.setState (.downloading release.version) false, .checkDownload kind release)
  | .checkDownload kind _, .download none => some (s, checkError kind)
  | .checkDownload _ _, .download (some package) => some (s, .checkStore package)
  | .checkStore package, .go =>
      some ({ s with package := some package }, .checkPublish package.version)
  | .checkPublish version, .go =>
      some ({ s.setState (.readyToRestart version false) false with readies := s.readies + 1 },
        .checkStatus)
  | .checkClear, .go => some ({ s with package := none }, .checkIdle)
  | .checkIdle, .go => some (s.setState .idle false, .checkStatus)
  | .checkFail, .go =>
      some (s.setState (.failed checkFailedMessage) false,
        .checkLeave (.error checkFailedMessage))
  | .checkStatus, .go => some (s, .checkLeave (.status s.status))
  | .checkLeave answer, .go => some ({ s with gate := false }, .done answer)
  | .requestRead auto, .go =>
      some (s, .requestWrite auto (withRequest s.status.state) s.readies)
  | .requestWrite auto next _, .safe safe => some (s.setState next !safe, .requestStatus auto)
  | .requestStatus auto, .go =>
      some (s, .done (if auto then .flag true else .status s.status))
  | .autoIdle windowHidden, .idle idle safe =>
      if !windowHidden || !idle || !safe then some (s, .done (.flag false))
      else some (s, .autoStatus)
  | .autoStatus, .go =>
      if isUnrequested s.status.state then some (s, .requestRead true)
      else some (s, .done (.flag false))
  | .installRead, .go =>
      if isRequested s.status.state then some (s, .installSafe)
      else some (s, .installWaiting false)
  | .installSafe, .safe safe =>
      if safe then some (s, .installTake) else some (s, .installWaiting true)
  | .installWaiting waiting, .go => some (s.updateWaitingFlag waiting, .done (.flag false))
  | .installTake, .go =>
      if isRequested s.status.state then
        match s.package with
        | some package => some ({ s with package := none, taken := true }, .installUnwait package)
        | none => some (s, .done (.flag false))
      else some (s, .done (.flag false))
  | .installUnwait package, .go => some (s.updateWaitingFlag false, .installing package)
  | .installing _, .installed (.ok _) => some (s, .done (.flag true))
  | .installing _, .installed (.error message) => some (s, .done (.error message))
  | .failClear message, .go => some ({ s with package := none }, .failSet message)
  | .failSet message, .go =>
      some ({ s.setState (.failed message) false with taken := false }, .done .unit)
  | _, _ => none

/-- The calls as processes; they spawn none and nothing else acts. -/
def processes (currentVersion : String) : Processes Shared Call Input Empty where
  init := Shared.new currentVersion
  starts := Call.isNew
  advance s c x := (advance s c x).map fun (s, c) => (s, c, [])
  outside _ x := nomatch x

abbrev World := Processes.World Shared Call

abbrev Event := Processes.Event Call Input Empty

/-- The interleavings of the updater's calls. -/
def updater (currentVersion : String) : StepSystem World Event := (processes currentVersion).system

end ShaPrint.Updater
