import ShaPrint.Domain.Printer
import ShaPrint.Lib.Processes

/-!
The server-side sharing use case, `application/sharing.rs`.

Each call is a process: it takes one lock at a time, and awaits the printer
catalog and the file system between them. The selection, the published value,
the enabled flag and the settings file are the shared state. `persist` holds the
read lock of the enabled flag while it writes the file; the branches of poisoned
locks and of a failed serialization are left out, since no section panics and
the settings always serialize.

* `Store`: the shared state, with `lastWrite` recording how the last file write went.
* `Operation`, `Phase`, `Call`: what is called, and how far the call is.
* `resume`: the next section of a call.
* `sharing`: the interleavings, from the state `with_persistence` builds.
-/

namespace ShaPrint.Sharing

/-- `SavedSharing`: the content of the settings file. -/
structure SavedSharing where
  enabled : Bool
  printers : List String
  deriving DecidableEq

/-- One local queue as the UI lists it. -/
structure LocalPrinter where
  name : PrinterName
  shared : Bool
  deriving DecidableEq

/-- What the calls share. -/
structure Store where
  selection : SharedPrinters
  published : SharedPrinters
  enabled : Bool
  /-- The number of calls that hold the read lock of `enabled`. -/
  enabledReaders : ℕ
  /-- Whether there is a `preference_path`. -/
  hasPath : Bool
  /-- The settings that can be read from the file. -/
  file : Option SavedSharing
  /-- Whether the last file write succeeded; `none` before the first. -/
  lastWrite : Option Bool
  deriving DecidableEq

/-- `with_persistence`, given what the file holds. -/
def withPersistence (hasPath : Bool) (file : Option SavedSharing) : Store :=
  let saved := if hasPath then file else none
  let enabled := match saved with
    | some settings => settings.enabled
    | none => false
  let initialPrinters := match saved with
    | some settings =>
        SharedPrinters.new (settings.printers.filterMap fun s => (PrinterName.parse s).toOption)
    | none => SharedPrinters.empty
  { selection := initialPrinters
    published := initialPrinters
    enabled
    enabledReaders := 0
    hasPath
    file
    lastWrite := none }

inductive Operation where
  | setShared (names : List PrinterName)
  | setSharingEnabled (enabled : Bool)
  | restore
  deriving DecidableEq

/-- How far a call is: what it does next, with the local variables it still needs. -/
inductive Phase where
  /-- Awaits the catalog, or takes the write lock of the enabled flag. -/
  | start
  /-- `restore` reads the selection. -/
  | readSelection
  /-- `restore` clears the enabled flag, if nothing is left of the selection. -/
  | disable (selection : SharedPrinters)
  /-- Replaces the selection. -/
  | select (selection : SharedPrinters)
  /-- Compares the published value with the selection. -/
  | compare (selection : SharedPrinters)
  /-- Publishes the selection. -/
  | publish (selection : SharedPrinters)
  /-- `persist` reads the selection. -/
  | persist
  /-- `persist` takes the read lock of the enabled flag. -/
  | persistEnabled (printers : List String)
  /-- `persist` writes the file, holding that lock. -/
  | persistWrite (saved : SavedSharing)
  /-- `set_shared` awaits the catalog for its answer. -/
  | list
  /-- `set_shared` reads the selection for its answer. -/
  | listed (queues : List PrinterName)
  | done (result : Except AppError (List LocalPrinter))
  deriving DecidableEq

/-- A call, the queues its first catalog read answered, and how far it is. The
calls without an answer are done with the empty list. -/
structure Call where
  operation : Operation
  queues : List PrinterName
  phase : Phase
  deriving DecidableEq

/-- A call before its first section. -/
def Call.new (operation : Operation) : Call := ⟨operation, [], .start⟩

/-- How the file write goes; a failed one may leave anything in the file. -/
inductive WriteOutcome where
  | written
  | noDirectory
  | failed (left : Option SavedSharing)
  deriving DecidableEq

/-- What a section gets from outside: nothing, the catalog's answer, or how the
file write goes. -/
inductive Input where
  | go
  | catalog (answer : Except AppError (List PrinterName))
  | write (outcome : WriteOutcome)
  deriving DecidableEq

/-- `restore` would drop a queue from the selection. -/
def drops (selection : SharedPrinters) (queues : List PrinterName) : Bool :=
  selection.names.any fun printer => !queues.contains printer

/-- What `restore` keeps of the selection. -/
def kept (selection : SharedPrinters) (queues : List PrinterName) : SharedPrinters :=
  SharedPrinters.new (selection.names.filter fun printer => queues.contains printer)

/-- What a call does once it has persisted: `set_shared` lists the queues, the others
are done. -/
def afterPersist (c : Call) : Call :=
  match c.operation with
  | .setShared _ => { c with phase := .list }
  | _ => { c with phase := .done (.ok []) }

/-- The first section of a call. -/
def begin (s : Store) (c : Call) : Input → Option (Store × Call)
  | .go =>
      match c.operation with
      | .setSharingEnabled enabled =>
          if s.enabledReaders = 0 then some ({ s with enabled }, { c with phase := .persist })
          else none
      | _ => none
  | .catalog (.error e) =>
      match c.operation with
      | .setSharingEnabled _ => none
      | _ => some (s, { c with phase := .done (.error e) })
  | .catalog (.ok queues) =>
      match c.operation with
      | .setShared names =>
          match names.find? fun name => !queues.contains name with
          | some name =>
              some (s, { c with phase := .done (.error
                (.invalidInput s!"'{name.value}' is not a local printer queue")) })
          | none => some (s, { c with queues, phase := .select (SharedPrinters.new names) })
      | .restore =>
          if queues.isEmpty then some (s, { c with queues, phase := .done (.ok []) })
          else some (s, { c with queues, phase := .readSelection })
      | .setSharingEnabled _ => none
  | .write _ => none

/-- The file write of `persist`, which then releases the read lock. -/
def writeFile (s : Store) (c : Call) (saved : SavedSharing) : WriteOutcome → Store × Call
  | .written =>
      ({ s with
          enabledReaders := s.enabledReaders - 1, file := some saved, lastWrite := some true },
        afterPersist c)
  | .noDirectory =>
      ({ s with enabledReaders := s.enabledReaders - 1, lastWrite := some false },
        { c with phase := .done (.error (.internal "cannot create settings directory")) })
  | .failed left =>
      ({ s with
          enabledReaders := s.enabledReaders - 1, file := left, lastWrite := some false },
        { c with phase := .done (.error (.internal "cannot write server sharing settings")) })

/-- The next section of a call. -/
def resume (s : Store) (c : Call) (x : Input) : Option (Store × Call) :=
  match c.phase, x with
  | .start, x => begin s c x
  | .readSelection, .go =>
      if drops s.selection c.queues then
        some (s, { c with phase := .disable (kept s.selection c.queues) })
      else some (s, { c with phase := .done (.ok []) })
  | .disable selection, .go =>
      if selection.isEmpty then
        if s.enabledReaders = 0 then
          some ({ s with enabled := false }, { c with phase := .select selection })
        else none
      else some (s, { c with phase := .select selection })
  | .select selection, .go => some ({ s with selection }, { c with phase := .compare selection })
  | .compare selection, .go =>
      if s.published ≠ selection then some (s, { c with phase := .publish selection })
      else some (s, { c with phase := .persist })
  | .publish selection, .go =>
      some ({ s with published := selection }, { c with phase := .persist })
  | .persist, .go =>
      if s.hasPath then
        some (s, { c with phase := .persistEnabled (s.selection.names.map (·.value)) })
      else some (s, afterPersist c)
  | .persistEnabled printers, .go =>
      some ({ s with enabledReaders := s.enabledReaders + 1 },
        { c with phase := .persistWrite ⟨s.enabled, printers⟩ })
  | .persistWrite saved, .write outcome => some (writeFile s c saved outcome)
  | .list, .catalog (.error e) => some (s, { c with phase := .done (.error e) })
  | .list, .catalog (.ok queues) => some (s, { c with phase := .listed queues })
  | .listed queues, .go =>
      some (s, { c with phase := .done (.ok
        (queues.map fun name => ⟨name, s.selection.contains name⟩)) })
  | _, _ => none

/-- The calls as processes; they spawn none and nothing else acts. -/
def processes (hasPath : Bool) (file : Option SavedSharing) :
    Processes Store Call Input Empty where
  init := withPersistence hasPath file
  starts c := decide (c = Call.new c.operation)
  advance s c x := (resume s c x).map fun (s, c) => (s, c, [])
  outside _ x := nomatch x

abbrev World := Processes.World Store Call

abbrev Event := Processes.Event Call Input Empty

/-- The interleavings of calls, from a settings file. -/
def sharing (hasPath : Bool) (file : Option SavedSharing) : StepSystem World Event :=
  (processes hasPath file).system

end ShaPrint.Sharing
