import ShaPrint.Lib.Fallible
import ShaPrint.Queue.Repair

/-!
What an installation or a repair changes on CUPS, `apply_queue` of
`adapters/queue_installation/cups.rs`.

* `LpadminOption`, `readArguments`: the arguments of `lpadmin`, as far as the installer uses them.
* `Cups.recorded`, `commands`: the runs of `lpadmin` that the installer asks for.
* `CupsServer`: a CUPS with its destinations and its jobs, and what `lpadmin` promises of them.
* `Course`: the courses that a run of the installer can take.
* `OwnDestination`, `ownDestination`: the installer touches its own destination only, and fails
  cleanly. Where `lpadmin` could not be run there is nothing to remove, and nothing is removed
  (`stranded_removes_nothing`).
-/

namespace ShaPrint.Queue

open Client Cups

/-! ### The arguments of `lpadmin` -/

inductive LpadminOption where
  | printer (name : Chars)
  | delete (name : Chars)
  | enable
  | deviceUri (uri : Chars)
  | description (text : Chars)
  | option (assignment : Chars)
  | model (name : Chars)
  deriving DecidableEq

namespace LpadminOption

/-- The destination that an option names. -/
def destination : LpadminOption → Option Chars
  | .printer name | .delete name => some name
  | _ => none

/-- An option that has a value. -/
def read (flag value : Chars) : Option LpadminOption :=
  if flag = "-p".toList then some (.printer value)
  else if flag = "-x".toList then some (.delete value)
  else if flag = "-v".toList then some (.deviceUri value)
  else if flag = "-D".toList then some (.description value)
  else if flag = "-o".toList then some (.option value)
  else if flag = "-m".toList then some (.model value)
  else none

end LpadminOption

/-- Reads arguments, none if the installer does not use a flag of them. -/
def readArguments : List Chars → Option (List LpadminOption)
  | [] => some []
  | [flag] => if flag = "-E".toList then some [.enable] else none
  | flag :: value :: rest =>
      if flag = "-E".toList then (readArguments (value :: rest)).map (.enable :: ·)
      else (LpadminOption.read flag value).bind fun option =>
        (readArguments rest).map (option :: ·)

/-- The destinations that options name. -/
def destinationsOf (options : List LpadminOption) : List Chars :=
  options.filterMap LpadminOption.destination

/-- The arguments that remove a queue. -/
def removalArguments (cupsName : Chars) : List Chars := ["-x".toList, cupsName]

lemma readArguments_queueArguments (name uri description : Chars) :
    readArguments (queueArguments name uri description) =
      some [.printer name, .enable, .deviceUri uri, .description description,
        .option "printer-is-shared=false".toList, .model "everywhere".toList] :=
  rfl

lemma readArguments_removalArguments (name : Chars) :
    readArguments (removalArguments name) = some [.delete name] :=
  rfl

/-- The option that sets a print default. -/
def assignment (option : Chars × Chars) : LpadminOption :=
  .option (option.1 ++ '=' :: option.2)

lemma readArguments_options (options : List (Chars × Chars)) :
    readArguments (options.flatMap fun option => ["-o".toList, option.1 ++ '=' :: option.2])
      = some (options.map assignment) := by
  induction options with
  | nil => rfl
  | cons option options ih =>
      have hread : LpadminOption.read "-o".toList (option.1 ++ '=' :: option.2)
          = some (assignment option) := rfl
      have hflag : ¬ "-o".toList = "-E".toList := by decide
      rw [List.flatMap_cons, List.cons_append, List.cons_append, List.nil_append, readArguments,
        if_neg hflag, hread, Option.bind_some, ih, Option.map_some, List.map_cons]

lemma readArguments_optionArguments (name : Chars) (options : List (Chars × Chars)) :
    readArguments (optionArguments name options)
      = some (.printer name :: options.map assignment) := by
  have hread : LpadminOption.read "-p".toList name = some (.printer name) := rfl
  have hflag : ¬ "-p".toList = "-E".toList := by decide
  rw [optionArguments, readArguments, if_neg hflag, hread, Option.bind_some,
    readArguments_options, Option.map_some]

/-- A command that names one destination only. -/
def Targets (name : Chars) (args : List Chars) : Prop :=
  ∃ options, readArguments args = some options ∧ destinationsOf options = [name]

/-- A command that removes no destination. -/
def Keeps (args : List Chars) : Prop :=
  ∃ options, readArguments args = some options ∧ ∀ name, .delete name ∉ options

lemma targets_queueArguments (name uri description : Chars) :
    Targets name (queueArguments name uri description) :=
  ⟨_, readArguments_queueArguments name uri description, rfl⟩

lemma targets_removalArguments (name : Chars) : Targets name (removalArguments name) :=
  ⟨_, readArguments_removalArguments name, rfl⟩

lemma targets_optionArguments (name : Chars) (options : List (Chars × Chars)) :
    Targets name (optionArguments name options) := by
  refine ⟨_, readArguments_optionArguments name options, ?_⟩
  have hnone : (options.map assignment).filterMap LpadminOption.destination = [] := by
    rw [List.filterMap_eq_nil_iff]
    intro option hoption
    obtain ⟨_, -, rfl⟩ := List.mem_map.mp hoption
    rfl
  show name :: (options.map assignment).filterMap LpadminOption.destination = [name]
  rw [hnone]

lemma keeps_queueArguments (name uri description : Chars) :
    Keeps (queueArguments name uri description) :=
  ⟨_, readArguments_queueArguments name uri description, by simp⟩

lemma keeps_optionArguments (name : Chars) (options : List (Chars × Chars)) :
    Keeps (optionArguments name options) :=
  ⟨_, readArguments_optionArguments name options, by simp [assignment]⟩

/-! ### The commands of a run -/

namespace Cups

variable {σ : Type} (C : Cups σ)

/-- CUPS with the runs of `lpadmin` written down. -/
def recorded : Cups (σ × List (List Chars)) where
  getDests s := C.getDests s.1
  getJobs s := C.getJobs s.1
  getPpd s := C.getPpd s.1
  lpadmin args s := ((C.lpadmin args s.1).1, (C.lpadmin args s.1).2, s.2 ++ [args])
  lpoptions args s := C.lpoptions args s.1

/-- The state after runs of `lpadmin`. -/
def replay (s : σ) (issued : List (List Chars)) : σ :=
  issued.foldl (fun s args => (C.lpadmin args s).2) s

variable {C}

@[simp] lemma replay_nil (s : σ) : C.replay s [] = s := rfl

@[simp] lemma replay_cons (s : σ) (args : List Chars) (issued : List (List Chars)) :
    C.replay s (args :: issued) = C.replay (C.lpadmin args s).2 issued :=
  rfl

lemma replay_append (s : σ) (issued issued' : List (List Chars)) :
    C.replay s (issued ++ issued') = C.replay (C.replay s issued) issued' :=
  List.foldl_append

lemma recorded_replay (s : σ) (log issued : List (List Chars)) :
    C.recorded.replay (s, log) issued = (C.replay s issued, log ++ issued) := by
  induction issued generalizing s log with
  | nil => rw [replay_nil, replay_nil, List.append_nil]
  | cons args issued ih =>
      rw [replay_cons, replay_cons]
      show C.recorded.replay ((C.lpadmin args s).2, log ++ [args]) issued = _
      rw [ih, List.append_assoc, List.singleton_append]

/-! ### The steps of the installer, by what they issue -/

variable (C)

/-- The page size that `auto_configure_default_pagesize` selects. -/
def chosenPagesize (cupsName : Chars) (s : σ) : Option Chars :=
  ((C.queryCupsPrinterPpd s cupsName).toOption.bind resolveDefaultPagesizeFromPpd).or <|
    (C.lpoptions ["-p".toList, cupsName, "-l".toList] s).toOption.bind fun out =>
      if out.success then resolveDefaultPagesizeFromLpoptions out.stdout else none

/-- What the best-effort steps issue after the queue was configured. -/
def pagesizeCommands (cupsName : Chars) (preservedOptions : List (Chars × Chars)) (s : σ) :
    List (List Chars) :=
  if hasUserPagesizeOrMedia preservedOptions then []
  else (C.chosenPagesize cupsName s).toList.map fun ps =>
    optionArguments cupsName [("PageSize".toList, ps)]

def optionCommands (cupsName : Chars) (options : List (Chars × Chars)) : List (List Chars) :=
  if options = [] then [] else [optionArguments cupsName options]

variable {C}

lemma autoConfigure_eq (name : Chars) (s : σ) :
    C.autoConfigureDefaultPagesize name s = C.replay s ((C.chosenPagesize name s).toList.map
      fun ps => optionArguments name [("PageSize".toList, ps)]) := by
  unfold autoConfigureDefaultPagesize
  dsimp only
  split
  · rename_i ps hps
    have hchosen : C.chosenPagesize name s = some ps := hps
    rw [hchosen]
    rfl
  · rename_i hnone
    have hchosen : C.chosenPagesize name s = none := hnone
    rw [hchosen]
    rfl

lemma pagesize_eq (name : Chars) (options : List (Chars × Chars)) (s : σ) :
    (if hasUserPagesizeOrMedia options then s else C.autoConfigureDefaultPagesize name s)
      = C.replay s (C.pagesizeCommands name options s) := by
  unfold pagesizeCommands
  split
  · rfl
  · exact autoConfigure_eq name s

lemma applyUserOptions_eq (name : Chars) (options : List (Chars × Chars)) (s : σ) :
    C.applyUserOptions name options s = C.replay s (optionCommands name options) := by
  unfold applyUserOptions optionCommands
  split
  · rfl
  · rfl

variable (C) in
/-- What the installer answers and issues from the plan on: `lpadmin` could not be run; it
reported a failure; or the queue is configured. -/
def outcome (name uri description : Chars) (s : σ) :
    Plan → Except SetupFailure Unit × List (List Chars)
  | .keep => (.ok (), [])
  | .configure isNewQueue preservedOptions =>
      let arguments := queueArguments name uri description
      match (C.lpadmin arguments s).1 with
      | .error e =>
          let text := String.ofList e
          (.error ⟨.other, s!"cannot execute lpadmin: {text}"⟩, [arguments])
      | .ok everywhere =>
          if everywhere.success then
            (.ok (), arguments ::
              (C.pagesizeCommands name preservedOptions (C.lpadmin arguments s).2
                ++ optionCommands name preservedOptions))
          else
            (.error (classifyLpadminFailure (trim everywhere.stderr)),
              arguments :: if isNewQueue then [removalArguments name] else [])

section

variable (sha256 : Bytes → Vector UInt8 32) (proxyAuthority : Chars)
  (request : ClientQueueRequest) (recreate : Bool)

lemma applyPlan_eq (uri : Chars) (s : σ) (plan : Plan) :
    C.applyPlan sha256 request uri s plan =
      ((C.outcome (request.cupsDestinationName sha256) uri request.queueName.value s plan).1,
        C.replay s (C.outcome (request.cupsDestinationName sha256) uri request.queueName.value
          s plan).2) := by
  cases plan with
  | keep => rfl
  | configure isNewQueue preservedOptions =>
      unfold applyPlan configureDestination outcome
      dsimp only
      generalize request.cupsDestinationName sha256 = name
      rcases hrun : C.lpadmin (queueArguments name uri request.queueName.value) s with
        ⟨e | everywhere, s₁⟩
      · show _ = (_, (C.lpadmin (queueArguments name uri request.queueName.value) s).2)
        rw [hrun]
      · dsimp only
        cases hsuccess : everywhere.success with
        | true =>
            simp only [if_true]
            rw [replay_cons, replay_append, hrun, pagesize_eq, applyUserOptions_eq]
        | false =>
            simp only [Bool.false_eq_true, if_false]
            rw [replay_cons, hrun]
            cases isNewQueue with
            | true => rfl
            | false => rfl

lemma recorded_planExisting (s : σ) (log : List (List Chars)) (existing : CupsDestinationRecord) :
    C.recorded.planExisting sha256 proxyAuthority request recreate (s, log) existing
      = C.planExisting sha256 proxyAuthority request recreate s existing := by
  have hjobs : ∀ name, C.recorded.queryCupsActiveJobs (s, log) name
      = C.queryCupsActiveJobs s name := fun _ => rfl
  have hpreserved : ∀ name, C.recorded.preserved (s, log) name existing
      = C.preserved s name existing := fun _ => rfl
  unfold planExisting
  simp only [hjobs, hpreserved]

lemma recorded_plan (s : σ) (log : List (List Chars)) :
    C.recorded.plan sha256 proxyAuthority request recreate (s, log)
      = C.plan sha256 proxyAuthority request recreate s := by
  have hdests : C.recorded.getDests (s, log) = C.getDests s := rfl
  unfold plan
  simp only [hdests, recorded_planExisting]

variable (C) in
/-- The runs of `lpadmin` that the installer asks for, in their order. -/
def commands (s : σ) : List (List Chars) :=
  (C.recorded.applyQueue sha256 proxyAuthority request recreate (s, [])).2.2

/-- The installer stops before it issues anything, or it issues what its plan needs. -/
lemma applyQueue_cases (s : σ) :
    ((∃ failure, C.applyQueue sha256 proxyAuthority request recreate s = (.error failure, s))
        ∧ C.commands sha256 proxyAuthority request recreate s = [])
      ∨ ∃ uri plan, C.plan sha256 proxyAuthority request recreate s = .ok plan
        ∧ C.applyQueue sha256 proxyAuthority request recreate s =
          ((C.outcome (request.cupsDestinationName sha256) uri request.queueName.value s plan).1,
            C.replay s (C.outcome (request.cupsDestinationName sha256) uri
              request.queueName.value s plan).2)
        ∧ C.commands sha256 proxyAuthority request recreate s =
          (C.outcome (request.cupsDestinationName sha256) uri request.queueName.value
            s plan).2 := by
  unfold commands applyQueue
  rw [recorded_plan]
  cases clientQueueUri proxyAuthority request.serverAddress request.printer.chars with
  | error e => exact .inl ⟨⟨_, rfl⟩, rfl⟩
  | ok uri =>
      cases C.plan sha256 proxyAuthority request recreate s with
      | error e => exact .inl ⟨⟨_, rfl⟩, rfl⟩
      | ok plan =>
          refine .inr ⟨uri, plan, rfl, applyPlan_eq sha256 request uri s plan, ?_⟩
          show (C.recorded.applyPlan sha256 request uri (s, []) plan).2.2 = _
          rw [applyPlan_eq, recorded_replay]
          rfl

end

end Cups

/-! ### What the plan found -/

/-- A destination is recognised as the queue of the requested server and printer. -/
def Recognises (sha256 : Bytes → Vector UInt8 32) (proxyAuthority : Chars)
    (request : ClientQueueRequest) (existing : CupsDestinationRecord) : Prop :=
  ∃ q, (SpoolerRecord.mk existing.name existing.deviceUri).classify sha256 proxyAuthority
      = .recognisedClientQueue q
    ∧ q.serverAddress = request.serverAddress ∧ q.printerName = request.printer

section

variable {σ : Type} {C : Cups σ} {sha256 : Bytes → Vector UInt8 32} {proxyAuthority : Chars}
  {request : ClientQueueRequest} {recreate isNewQueue : Bool} {s : σ}
  {options : List (Chars × Chars)} {existing : CupsDestinationRecord} {plan : Plan}

/-- A destination is configured again if it is the queue that is requested, is idle, and needs
it. -/
lemma planExisting_eq_ok
    (h : C.planExisting sha256 proxyAuthority request recreate s existing = .ok plan) :
    Recognises sha256 proxyAuthority request existing
      ∧ (plan = .keep ∨ (¬ (existing.hasUsableConversion = true ∧ recreate = false)
        ∧ C.queryCupsActiveJobs s (request.cupsDestinationName sha256) = .ok 0
        ∧ plan = .configure false
          (C.preserved s (request.cupsDestinationName sha256) existing))) := by
  unfold planExisting at h
  dsimp only at h
  split at h
  · rename_i q hq
    split at h
    · cases h
    rename_i hsame
    rw [not_or, not_not, not_not] at hsame
    refine ⟨⟨q, hq, hsame⟩, ?_⟩
    split at h
    · exact .inl (Except.ok.inj h).symm
    rename_i hneeded
    split at h
    · cases h
    rename_i activeJobs hjobs
    split at h
    · cases h
    rename_i hidle
    obtain rfl : activeJobs = 0 := by omega
    exact .inr ⟨by simpa using hneeded, hjobs, (Except.ok.inj h).symm⟩
  · cases h

/-- A queue is configured that CUPS does not list, or that is to be configured again. -/
lemma plan_eq_configure
    (h : C.plan sha256 proxyAuthority request recreate s = .ok (.configure isNewQueue options)) :
    ∃ dests, C.getDests s = .ok dests
      ∧ ((isNewQueue = true
          ∧ dests.find? (fun d => d.name == request.cupsDestinationName sha256) = none)
        ∨ (isNewQueue = false ∧ ∃ existing,
          dests.find? (fun d => d.name == request.cupsDestinationName sha256) = some existing
          ∧ Recognises sha256 proxyAuthority request existing
          ∧ ¬ (existing.hasUsableConversion = true ∧ recreate = false)
          ∧ C.queryCupsActiveJobs s (request.cupsDestinationName sha256) = .ok 0
          ∧ options = C.preserved s (request.cupsDestinationName sha256) existing)) := by
  unfold Cups.plan at h
  split at h
  · cases h
  rename_i dests hdests
  refine ⟨dests, hdests, ?_⟩
  split at h
  · rename_i existing hfind
    obtain ⟨hrecognised, hkeep | ⟨hneeded, hidle, hplan⟩⟩ := planExisting_eq_ok h
    · cases hkeep
    · obtain ⟨rfl, rfl⟩ := Plan.configure.inj hplan
      exact .inr ⟨rfl, existing, hfind, hrecognised, hneeded, hidle, rfl⟩
  · rename_i hfind
    obtain ⟨rfl, -⟩ := Plan.configure.inj (Except.ok.inj h)
    exact .inl ⟨rfl, hfind⟩

/-- The user's options are among those that a queue keeps. -/
lemma userOptions_subset_preserved (name : Chars) :
    existing.userOptions ⊆ C.preserved s name existing := by
  unfold preserved
  dsimp only
  intro option hoption
  split
  · exact hoption
  · split
    · exact hoption
    · split
      · exact List.mem_append_left _ hoption
      · exact hoption

end

/-! ### What a plan issues -/

namespace Cups

variable {σ : Type} {C : Cups σ} {name uri description : Chars} {s : σ} {plan : Plan}
  {isNewQueue : Bool} {options : List (Chars × Chars)} {args : List Chars}

lemma mem_pagesizeCommands (h : args ∈ C.pagesizeCommands name options s) :
    ∃ chosen, args = optionArguments name chosen := by
  unfold pagesizeCommands at h
  split at h
  · cases h
  · obtain ⟨ps, -, rfl⟩ := List.mem_map.mp h
    exact ⟨_, rfl⟩

lemma mem_optionCommands (h : args ∈ optionCommands name options) :
    args = optionArguments name options := by
  unfold optionCommands at h
  split at h
  · cases h
  · exact List.mem_singleton.mp h

/-- A command of a plan configures the queue, sets options of it, or removes it where it is
new. -/
lemma mem_outcome (h : args ∈ (C.outcome name uri description s plan).2) :
    args = queueArguments name uri description
      ∨ (∃ chosen, args = optionArguments name chosen)
      ∨ (args = removalArguments name ∧ ∃ options, plan = .configure true options) := by
  unfold outcome at h
  split at h
  · cases h
  rename_i isNewQueue options
  dsimp only at h
  split at h
  · exact .inl (List.mem_singleton.mp h)
  split at h
  · rcases List.mem_cons.mp h with rfl | h
    · exact .inl rfl
    rcases List.mem_append.mp h with h | h
    · exact .inr (.inl (mem_pagesizeCommands h))
    · exact .inr (.inl ⟨options, mem_optionCommands h⟩)
  · rcases List.mem_cons.mp h with rfl | h
    · exact .inl rfl
    cases isNewQueue with
    | true => exact .inr (.inr ⟨List.mem_singleton.mp h, options, rfl⟩)
    | false => cases h

lemma targets_outcome (h : args ∈ (C.outcome name uri description s plan).2) :
    Targets name args := by
  obtain rfl | ⟨chosen, rfl⟩ | ⟨rfl, -⟩ := mem_outcome h
  · exact targets_queueArguments name uri description
  · exact targets_optionArguments name chosen
  · exact targets_removalArguments name

/-- A plan for a queue that was there removes nothing. -/
lemma keeps_outcome
    (h : args ∈ (C.outcome name uri description s (.configure false options)).2) : Keeps args := by
  obtain rfl | ⟨chosen, rfl⟩ | ⟨-, _, hplan⟩ := mem_outcome h
  · exact keeps_queueArguments name uri description
  · exact keeps_optionArguments name chosen
  · cases hplan

/-- The options of the queue are set last. -/
lemma getLast?_outcome (hok : (C.outcome name uri description s
      (.configure isNewQueue options)).1 = .ok ()) (hoptions : options ≠ []) :
    (C.outcome name uri description s (.configure isNewQueue options)).2.getLast?
      = some (optionArguments name options) := by
  unfold outcome at hok ⊢
  dsimp only at hok ⊢
  split at hok
  · cases hok
  split at hok
  · rename_i hsuccess
    rw [if_pos hsuccess, optionCommands, if_neg hoptions]
    dsimp only
    rw [← List.cons_append]
    exact List.getLast?_concat
  · cases hok

lemma head?_outcome : (C.outcome name uri description s
      (.configure isNewQueue options)).2.head? = some (queueArguments name uri description) := by
  unfold outcome
  dsimp only
  split
  · rfl
  · split
    · rfl
    · rfl

/-- A plan for a new queue that fails removes it if `lpadmin` was run. -/
lemma removal_mem_outcome {failure : SetupFailure} (hfailed : (C.outcome name uri description s
      (.configure true options)).1 = .error failure) :
    removalArguments name ∈ (C.outcome name uri description s (.configure true options)).2
      ↔ ∃ out, (C.lpadmin (queueArguments name uri description) s).1 = .ok out := by
  unfold outcome at hfailed ⊢
  dsimp only at hfailed ⊢
  split
  · rename_i e hrun
    have hne : removalArguments name ≠ queueArguments name uri description := by
      simp [removalArguments, queueArguments]
    simp [hrun, hne]
  · rename_i everywhere hrun
    rw [hrun] at hfailed
    dsimp only at hfailed
    split at hfailed
    · cases hfailed
    · rename_i hfailure
      simp [hrun, hfailure]

/-- A plan that removes its queue does no more than that. -/
lemma outcome_of_removal {failure : SetupFailure} (hfailed : (C.outcome name uri description s
      (.configure true options)).1 = .error failure)
    (hremoval : removalArguments name
      ∈ (C.outcome name uri description s (.configure true options)).2) :
    (C.outcome name uri description s (.configure true options)).2
      = [queueArguments name uri description, removalArguments name] := by
  obtain ⟨out, hout⟩ := (removal_mem_outcome hfailed).mp hremoval
  unfold outcome at hfailed ⊢
  dsimp only at hfailed ⊢
  rw [hout] at hfailed ⊢
  dsimp only at hfailed ⊢
  split at hfailed
  · cases hfailed
  · rename_i hfailure
    rw [if_neg hfailure]
    rfl

end Cups

/-! ### A server -/

/-- A CUPS with its destinations and its active jobs, by the names of the queues. What its
queries answer is so, `lpadmin` changes only destinations that its arguments name, and removes
one only with `-x`. -/
structure CupsServer (σ : Type) extends Cups σ where
  destinations : σ → Chars → Option CupsDestinationRecord
  jobs : σ → Chars → ℕ
  listed : ∀ {s : σ} {dests : List CupsDestinationRecord}, getDests s = .ok dests →
    ∀ name, dests.find? (fun d => d.name == name) = destinations s name
  counted : ∀ {s : σ} {name : Chars} {n : ℕ}, getJobs s name = .ok n → jobs s name = n
  named : ∀ {args : List Chars} {options : List LpadminOption}, readArguments args = some options →
    ∀ {other : Chars}, other ∉ destinationsOf options →
    ∀ s, destinations (lpadmin args s).2 other = destinations s other
  kept : ∀ {args : List Chars} {options : List LpadminOption}, readArguments args = some options →
    ∀ {name : Chars}, .delete name ∉ options →
    ∀ s, (destinations s name).isSome → (destinations (lpadmin args s).2 name).isSome
  removed : ∀ {name : Chars} {s : σ} {out : Output},
    (lpadmin (removalArguments name) s).1 = .ok out → out.success = true →
    destinations (lpadmin (removalArguments name) s).2 name = none

section

variable {σ : Type} (S : CupsServer σ) (sha256 : Bytes → Vector UInt8 32) (proxyAuthority : Chars)
  (request : ClientQueueRequest) (recreate : Bool) (s : σ)

/-- An installation or a repair touches its own destination only, and fails cleanly. -/
structure OwnDestination (name : Chars) (result : Except SetupFailure Unit) (s' : σ)
    (issued : List (List Chars)) : Prop where
  targets : ∀ args ∈ issued, Targets name args
  others : ∀ other, other ≠ name → S.destinations s' other = S.destinations s other
  untouched : issued = [] → s' = s
  recognised : issued ≠ [] → ∀ existing, S.destinations s name = some existing →
    Recognises sha256 proxyAuthority request existing
  idle : issued ≠ [] → (S.destinations s name).isSome → S.jobs s name = 0
  healthy : recreate = false → ∀ existing, S.destinations s name = some existing →
    existing.hasUsableConversion = true → issued = []
  survives : ∀ failure, result = .error failure → (S.destinations s name).isSome →
    (∀ args ∈ issued, Keeps args) ∧ (S.destinations s' name).isSome
  withdrawn : ∀ failure, result = .error failure → S.destinations s name = none →
    (removalArguments name ∈ issued ↔
      ∃ args out, issued.head? = some args ∧ (S.lpadmin args s).1 = .ok out)
  cleared : ∀ failure, result = .error failure → S.destinations s name = none →
    removalArguments name ∈ issued → ∀ args out, issued.head? = some args →
    (S.lpadmin (removalArguments name) (S.lpadmin args s).2).1 = .ok out → out.success = true →
    S.destinations s' name = none
  reapplied : result = .ok () → issued ≠ [] → ∀ existing,
    S.destinations s name = some existing → ∀ option ∈ existing.userOptions,
    ∃ args options, issued.getLast? = some args ∧ readArguments args = some options
      ∧ assignment option ∈ options

variable {S} {s}

lemma getJobs_of_query {C : Cups σ} {name : Chars} {n : ℕ}
    (h : C.queryCupsActiveJobs s name = .ok n) : C.getJobs s name = .ok n := by
  obtain ⟨_, hname, hjobs⟩ := except_bind_eq_ok.mp h
  unfold asCString at hname
  split at hname
  · cases hname
  · obtain rfl := Except.ok.inj hname
    exact hjobs

lemma destinations_replay {name : Chars} {issued : List (List Chars)}
    (hissued : ∀ args ∈ issued, Targets name args) {other : Chars} (hother : other ≠ name) (s : σ) :
    S.destinations (S.replay s issued) other = S.destinations s other := by
  induction issued generalizing s with
  | nil => rfl
  | cons args issued ih =>
      obtain ⟨options, hread, hnames⟩ := hissued args List.mem_cons_self
      have hnamed : other ∉ destinationsOf options := by
        rw [hnames, List.mem_singleton]
        exact hother
      rw [replay_cons, ih (fun args hargs => hissued args (List.mem_cons_of_mem _ hargs)),
        S.named hread hnamed]

lemma isSome_replay {name : Chars} {issued : List (List Chars)}
    (hissued : ∀ args ∈ issued, Keeps args) (hname : (S.destinations s name).isSome) :
    (S.destinations (S.replay s issued) name).isSome := by
  induction issued generalizing s with
  | nil => exact hname
  | cons args issued ih =>
      obtain ⟨options, hread, hkeeps⟩ := hissued args List.mem_cons_self
      exact ih (fun args hargs => hissued args (List.mem_cons_of_mem _ hargs))
        (S.kept hread (hkeeps name) s hname)

/-- A run that issues nothing. -/
lemma OwnDestination.nothing {name : Chars} {result : Except SetupFailure Unit} :
    OwnDestination S sha256 proxyAuthority request recreate s name result s [] where
  targets args hargs := by cases hargs
  others _ _ := rfl
  untouched _ := rfl
  recognised hne := absurd rfl hne
  idle hne := absurd rfl hne
  healthy _ _ _ _ := rfl
  survives _ _ hsome := by
    refine ⟨?_, hsome⟩
    intro args hargs
    cases hargs
  withdrawn _ _ _ := by simp
  cleared _ _ _ hremoval := by cases hremoval
  reapplied _ hne := absurd rfl hne

section

variable {request} {name uri description : Chars} {dests : List CupsDestinationRecord}
  {options : List (Chars × Chars)}

/-- A run for a queue that CUPS does not list. -/
lemma OwnDestination.fresh (hdests : S.getDests s = .ok dests)
    (hfind : dests.find? (fun d => d.name == name) = none) :
    OwnDestination S sha256 proxyAuthority request recreate s name
      (S.outcome name uri description s (.configure true options)).1
      (S.replay s (S.outcome name uri description s (.configure true options)).2)
      (S.outcome name uri description s (.configure true options)).2 := by
  have habsent : S.destinations s name = none := by rw [← S.listed hdests, hfind]
  have hhead : (S.outcome name uri description s (.configure true options)).2.head?
      = some (queueArguments name uri description) :=
    head?_outcome
  refine ⟨fun args => targets_outcome, ?_, ?_, ?_, ?_, ?_, ?_, ?_, ?_, ?_⟩
  · intro other hother
    exact destinations_replay (fun args => targets_outcome) hother s
  · intro hnil
    rw [hnil, replay_nil]
  · intro _ existing hexisting
    rw [habsent] at hexisting
    cases hexisting
  · intro _ hsome
    rw [habsent] at hsome
    cases hsome
  · intro _ existing hexisting
    rw [habsent] at hexisting
    cases hexisting
  · intro _ _ hsome
    rw [habsent] at hsome
    cases hsome
  · intro failure hfailed _
    rw [removal_mem_outcome hfailed, hhead]
    constructor
    · rintro ⟨out, hout⟩
      exact ⟨_, out, rfl, hout⟩
    · rintro ⟨args, out, hargs, hout⟩
      obtain rfl := Option.some.inj hargs
      exact ⟨out, hout⟩
  · intro failure hfailed _ hremoval args out hargs hout hsuccess
    obtain rfl := Option.some.inj (hhead.symm.trans hargs)
    rw [outcome_of_removal hfailed hremoval, replay_cons, replay_cons, replay_nil]
    exact S.removed hout hsuccess
  · intro _ _ existing hexisting
    rw [habsent] at hexisting
    cases hexisting

/-- A run for a queue that is there, is the one that is requested, is idle and is to be
configured again. -/
lemma OwnDestination.again {existing : CupsDestinationRecord} (hdests : S.getDests s = .ok dests)
    (hfind : dests.find? (fun d => d.name == name) = some existing)
    (hrecognised : Recognises sha256 proxyAuthority request existing)
    (hneeded : ¬ (existing.hasUsableConversion = true ∧ recreate = false))
    (hidle : S.queryCupsActiveJobs s name = .ok 0)
    (hoptions : options = S.preserved s name existing) :
    OwnDestination S sha256 proxyAuthority request recreate s name
      (S.outcome name uri description s (.configure false options)).1
      (S.replay s (S.outcome name uri description s (.configure false options)).2)
      (S.outcome name uri description s (.configure false options)).2 := by
  have hexisting : S.destinations s name = some existing := by rw [← S.listed hdests, hfind]
  have hsame : ∀ {record}, S.destinations s name = some record → existing = record :=
    fun h => Option.some.inj (hexisting.symm.trans h)
  refine ⟨fun args => targets_outcome, ?_, ?_, ?_, ?_, ?_, ?_, ?_, ?_, ?_⟩
  · intro other hother
    exact destinations_replay (fun args => targets_outcome) hother s
  · intro hnil
    rw [hnil, replay_nil]
  · intro _ record hrecord
    rw [← hsame hrecord]
    exact hrecognised
  · intro _ _
    exact S.counted (getJobs_of_query hidle)
  · intro hinstall record hrecord hhealthy
    rw [← hsame hrecord] at hhealthy
    exact absurd ⟨hhealthy, hinstall⟩ hneeded
  · intro _ _ hsome
    exact ⟨fun args => keeps_outcome, isSome_replay (fun args => keeps_outcome) hsome⟩
  · intro _ _ habsent
    rw [hexisting] at habsent
    cases habsent
  · intro _ _ habsent
    rw [hexisting] at habsent
    cases habsent
  · intro hok _ record hrecord option hoption
    rw [← hsame hrecord] at hoption
    have hmem : option ∈ options := hoptions ▸ userOptions_subset_preserved name hoption
    refine ⟨_, _, getLast?_outcome hok (List.ne_nil_of_mem hmem),
      readArguments_optionArguments name options, ?_⟩
    exact List.mem_cons_of_mem _ (List.mem_map_of_mem hmem)

end

variable (S s) in
/-- **CUPS queue setup touches only its own destination and fails cleanly.** For every state of
a CUPS, every request, and all answers of its queries and of its tools. -/
theorem ownDestination :
    OwnDestination S sha256 proxyAuthority request recreate s
      (request.cupsDestinationName sha256)
      (S.applyQueue sha256 proxyAuthority request recreate s).1
      (S.applyQueue sha256 proxyAuthority request recreate s).2
      (S.commands sha256 proxyAuthority request recreate s) := by
  obtain ⟨⟨failure, hrun⟩, hissued⟩ | ⟨uri, plan, hplan, hrun, hissued⟩ :=
    applyQueue_cases sha256 proxyAuthority request recreate s
  · rw [hrun, hissued]
    exact .nothing ..
  rw [hrun, hissued]
  cases plan with
  | keep => exact .nothing ..
  | configure isNewQueue options =>
      obtain ⟨dests, hdests, ⟨rfl, hfind⟩ | ⟨rfl, existing, hfind, hrecognised, hneeded, hidle,
        hoptions⟩⟩ := plan_eq_configure hplan
      · exact .fresh _ _ _ hdests hfind
      · exact .again _ _ _ hdests hfind hrecognised hneeded hidle hoptions

end

/-! ### Where `lpadmin` cannot be run -/

lemma printer_mem_of_read {name : Chars} {rest : List Chars} {options : List LpadminOption}
    (h : readArguments ("-p".toList :: name :: rest) = some options) :
    .printer name ∈ options := by
  have hread : LpadminOption.read "-p".toList name = some (.printer name) := rfl
  have hflag : ¬ "-p".toList = "-E".toList := by decide
  rw [readArguments, if_neg hflag, hread, Option.bind_some] at h
  obtain ⟨_, -, rfl⟩ := Option.map_eq_some_iff.mp h
  exact List.mem_cons_self

lemma find?_filter_name {name other : Chars} (h : other ≠ name)
    (destinations : List CupsDestinationRecord) :
    (destinations.filter fun d => d.name ≠ name).find? (fun d => d.name == other)
      = destinations.find? fun d => d.name == other := by
  rw [List.find?_filter]
  congr 1
  funext d
  by_cases hd : d.name = other
  · simp [hd, h]
  · simp [hd]

/-- What `lpadmin` leaves of another destination than those that it is to change. -/
lemma find?_lpadmin_of_not_mem {args : List Chars} {options : List LpadminOption}
    (hread : readArguments args = some options) {other : Chars}
    (hother : other ∉ destinationsOf options) (s : PrintSystem) :
    (PrintSystem.lpadmin args s).2.destinations.find? (fun d => d.name == other)
      = s.destinations.find? fun d => d.name == other := by
  unfold PrintSystem.lpadmin
  split
  · rename_i p name e v uri rest
    split
    · rename_i hflags
      obtain ⟨rfl, rfl, rfl⟩ := hflags
      have hne : other ≠ name := by
        rintro rfl
        exact hother (List.mem_filterMap.mpr ⟨_, printer_mem_of_read hread, rfl⟩)
      split
      · rfl
      · show List.find? _ (_ :: _) = _
        rw [List.find?_cons_of_neg (by simpa using hne.symm), find?_filter_name hne]
    · rfl
  · rename_i x name
    split
    · rename_i hflag
      subst hflag
      obtain rfl : [LpadminOption.delete name] = options :=
        Option.some.inj ((readArguments_removalArguments name).symm.trans hread)
      have hne : other ≠ name := by
        rintro rfl
        exact hother List.mem_cons_self
      exact find?_filter_name hne _
    · rfl
  · rfl

/-- `lpadmin` keeps a destination that it is not to remove. -/
lemma isSome_lpadmin {args : List Chars} {options : List LpadminOption}
    (hread : readArguments args = some options) {name : Chars} (hkept : .delete name ∉ options)
    (s : PrintSystem) (hsome : (s.destinations.find? fun d => d.name == name).isSome) :
    ((PrintSystem.lpadmin args s).2.destinations.find? fun d => d.name == name).isSome := by
  unfold PrintSystem.lpadmin
  split
  · rename_i p changed e v uri rest
    split
    · split
      · exact hsome
      · show (List.find? _ (_ :: _)).isSome
        by_cases hname : changed = name
        · rw [List.find?_cons_of_pos (by simpa using hname)]
          rfl
        · rw [List.find?_cons_of_neg (by simpa using hname), find?_filter_name (Ne.symm hname)]
          exact hsome
    · exact hsome
  · rename_i x changed
    split
    · rename_i hflag
      subst hflag
      obtain rfl : [LpadminOption.delete changed] = options :=
        Option.some.inj ((readArguments_removalArguments changed).symm.trans hread)
      have hne : name ≠ changed := by
        rintro rfl
        exact hkept List.mem_cons_self
      rw [← find?_filter_name hne] at hsome
      exact hsome
    · exact hsome
  · exact hsome

/-- The print system is a server. -/
def printServer : CupsServer PrintSystem where
  toCups := printSystem
  destinations s name := s.destinations.find? fun d => d.name == name
  jobs s name := s.jobs.count name
  listed h _ := by
    cases h
    rfl
  counted := by
    intro s name n h
    unfold printSystem at h
    dsimp only at h
    split at h
    · exact Except.ok.inj h
    · cases h
  named hread _ hother s := find?_lpadmin_of_not_mem hread hother s
  kept hread _ hkept s hsome := isSome_lpadmin hread hkept s hsome
  removed := by
    intro name s out _ _
    show (s.destinations.filter fun d => d.name ≠ name).find? (fun d => d.name == name) = none
    rw [List.find?_eq_none]
    intro d hd
    simpa using (List.mem_filter.mp hd).2

/-- The print system of a computer that has no `lpadmin`. -/
def strandedServer : CupsServer PrintSystem where
  toCups := { printSystem with
    lpadmin := fun _ s => (.error "No such file or directory (os error 2)".toList, s) }
  destinations := printServer.destinations
  jobs := printServer.jobs
  listed := printServer.listed
  counted := printServer.counted
  named _ _ _ _ := rfl
  kept _ _ _ _ hsome := hsome
  removed h := by cases h

/-- An installation fails of a queue that CUPS does not have, and no removal is issued. -/
theorem stranded_removes_nothing :
    (strandedServer.applyQueue officeDigest "127.0.0.1:48632".toList officeRequest false
        ⟨[], []⟩).1 = .error ⟨.other,
          "cannot execute lpadmin: No such file or directory (os error 2)"⟩
      ∧ strandedServer.destinations ⟨[], []⟩ (officeRequest.cupsDestinationName officeDigest) = none
      ∧ removalArguments (officeRequest.cupsDestinationName officeDigest)
        ∉ strandedServer.commands officeDigest "127.0.0.1:48632".toList officeRequest false
          ⟨[], []⟩ := by
  decide +kernel

end ShaPrint.Queue
