import ShaPrint.Lib.Argv
import ShaPrint.Lib.Fallible
import ShaPrint.Queue.Name

/-!
The elevated helper, from `adapters/elevation.rs`: the string of parameters that the app starts
it with, and how the helper reads the request back.

* `SetupAction`, `HelperRequest`, `CommandLine`: what is asked for, and what a command line means.
* `readOptions`, `parseCommandLine`: the reader.
* `quoteArgument`, `helperParameters`: the writer.
* `spells_quoteArgument`: the splitter of the platform reads a quoted argument to its end.
* `ClientQueueRequest.new_self`: a valid request passes the checks of the helper.
* `helper_runs_request`: the helper runs the request that the app built.
-/

namespace ShaPrint.Queue

open Argv

/-! ### Actions -/

/-- A configuration action. -/
inductive SetupAction where
  | allowInboundSharing
  | selectPrinters
  | startSharing
  | stopSharing
  | showCertificateFingerprint
  | installPrinter
  | repairPrinter
  deriving DecidableEq

namespace SetupAction

def all : List SetupAction :=
  [allowInboundSharing, selectPrinters, startSharing, stopSharing, showCertificateFingerprint,
    installPrinter, repairPrinter]

def asStr : SetupAction → String
  | allowInboundSharing => "allow-inbound-sharing"
  | selectPrinters => "select-printers"
  | startSharing => "start-sharing"
  | stopSharing => "stop-sharing"
  | showCertificateFingerprint => "show-certificate-fingerprint"
  | installPrinter => "install-printer"
  | repairPrinter => "repair-printer"

def parse (value : Chars) : Option SetupAction := all.find? fun action => action.asStr.toList == value

lemma parse_asStr (action : SetupAction) : parse action.asStr.toList = some action := by
  cases action <;> decide

end SetupAction

/-- What the helper was asked to do. -/
inductive HelperRequest where
  | action (action : SetupAction)
  | installClientQueue (request : ClientQueueRequest)
  | repairClientQueue (request : ClientQueueRequest)
  deriving DecidableEq

/-- What a command line means. -/
inductive CommandLine where
  | run
  | setup (request : HelperRequest)
  | invalid (reason : Chars)
  deriving DecidableEq

def setupFlag : Chars := "--setup".toList
def serverOption : Chars := "--server".toList
def printerOption : Chars := "--printer".toList

/-! ### The reader -/

/-- The loop over the options: each has a value and is given once. -/
def readOptions : List Chars → Option Chars → Option Chars → Except Chars (Option Chars × Option Chars)
  | [], server, printer => .ok (server, printer)
  | option :: rest, server, printer =>
      if option ≠ serverOption ∧ option ≠ printerOption then .error option
      else
        match rest with
        | [] => .error option
        | value :: rest =>
            if option = serverOption then
              if server.isSome then .error option else readOptions rest (some value) printer
            else if printer.isSome then .error option
            else readOptions rest server (some value)

/-- The action of a queue request. -/
def queueAction (repair : Bool) : SetupAction :=
  if repair then .repairPrinter else .installPrinter

def queueHelperRequest (repair : Bool) (request : ClientQueueRequest) : HelperRequest :=
  if repair then .repairClientQueue request else .installClientQueue request

/-- Reads the server and the printer, both required exactly once, and validates them again. -/
def parseQueueRequest (arguments : List Chars) (repair : Bool) : CommandLine :=
  match readOptions arguments none none with
  | .error option => .invalid option
  | .ok (some server, some printer) =>
      match (PrinterName.parse (.ofList printer)).bind (ClientQueueRequest.new server) with
      | .ok request => .setup (queueHelperRequest repair request)
      | .error error => .invalid error.message.toList
  | .ok _ => .invalid (queueAction repair).asStr.toList

/-- Reads the action and any data that follows the flag. -/
def parseSetup : List Chars → CommandLine
  | [] => .invalid setupFlag
  | action :: arguments =>
      match SetupAction.parse action with
      | some .installPrinter => parseQueueRequest arguments false
      | some .repairPrinter => parseQueueRequest arguments true
      | some action => .setup (.action action)
      | none => .invalid action

/-- Ignores what the platform passes before the flag. -/
def seekSetup : List Chars → CommandLine
  | [] => .run
  | argument :: rest => if argument = setupFlag then parseSetup rest else seekSetup rest

/-- Reads the helper request out of a command line, the name of the program first. -/
def parseCommandLine (arguments : List Chars) : CommandLine := seekSetup (arguments.drop 1)

/-! ### The writer -/

/-- One character of the loop of `quote_argument`: the text so far, and the backslashes that it
ends in. -/
def quoteStep (out : Chars × ℕ) (c : Char) : Chars × ℕ :=
  if c = '\\' then (out.1 ++ ['\\'], out.2 + 1)
  else if c = '"' then (out.1 ++ List.replicate out.2 '\\' ++ ['\\', '"'], 0)
  else (out.1 ++ [c], 0)

/-- Quotes one argument the way the command line parser of the platform expects. -/
def quoteArgument (value : Chars) : Chars :=
  let out := value.foldl quoteStep (['"'], 0)
  out.1 ++ List.replicate out.2 '\\' ++ ['"']

/-- The parameters of a queue request. -/
def queueParameters (action : SetupAction) (request : ClientQueueRequest) : Chars :=
  setupFlag ++ ' ' :: action.asStr.toList ++ ' ' :: serverOption ++ ' ' ::
    quoteArgument request.serverAddress ++ ' ' :: printerOption ++ ' ' ::
    quoteArgument request.printer.chars

/-- The parameters the app passes when it starts the helper. -/
def helperParameters : HelperRequest → Chars
  | .action action => setupFlag ++ ' ' :: action.asStr.toList
  | .installClientQueue request => queueParameters .installPrinter request
  | .repairClientQueue request => queueParameters .repairPrinter request

/-! ### Quoting -/

/-- The invariant of the loop: what it has written is read as the argument so far, up to the
backslashes that it ends in. -/
def Quotes (out : Chars × ℕ) (value : Chars) : Prop :=
  ∃ text, value = text ++ List.replicate out.2 '\\' ∧
    ∀ rest, splitArguments (out.1 ++ rest) = splitFrom true out.2 (some text) rest

lemma quotes_start : Quotes (['"'], 0) [] :=
  ⟨[], rfl, fun rest => by
    rw [splitArguments, List.singleton_append, splitFrom]
    rfl⟩

lemma quotes_step {out : Chars × ℕ} {value : Chars} (h : Quotes out value) (c : Char) :
    Quotes (quoteStep out c) (value ++ [c]) := by
  obtain ⟨written, backslashes⟩ := out
  obtain ⟨text, rfl, hread⟩ := h
  dsimp only at hread
  unfold quoteStep
  split_ifs with hbackslash hquote
  · subst hbackslash
    refine ⟨text, ?_, fun rest => ?_⟩
    · rw [List.append_assoc, ← List.replicate_succ']
    · rw [List.append_assoc, hread]
      exact splitFrom_backslashes 1
  · -- the backslashes before the quotation mark are doubled, and one more escapes it
    subst hquote
    refine ⟨text ++ List.replicate backslashes '\\' ++ ['"'], ?_, fun rest => ?_⟩
    · exact (List.append_nil _).symm
    · calc splitArguments (written ++ List.replicate backslashes '\\' ++ ['\\', '"'] ++ rest)
          = splitArguments
              (written ++ (List.replicate (backslashes + 1) '\\' ++ '"' :: rest)) := by
            rw [List.replicate_succ']
            simp
        _ = splitFrom true (2 * backslashes + 1) (some text) ('"' :: rest) := by
            rw [hread, splitFrom_backslashes]
            congr 1
            omega
        _ = _ := splitFrom_escaped backslashes
  · refine ⟨text ++ List.replicate backslashes '\\' ++ [c], ?_, fun rest => ?_⟩
    · exact (List.append_nil _).symm
    · rw [List.append_assoc, hread]
      exact splitFrom_quoted hbackslash hquote

lemma quotes_foldl (value : Chars) : Quotes (value.foldl quoteStep (['"'], 0)) value := by
  induction value using List.reverseRecOn with
  | nil => exact quotes_start
  | append_singleton value c ih =>
      rw [List.foldl_concat]
      exact quotes_step ih c

/-- The splitter reads a quoted argument to its end, whatever follows. -/
lemma spells_quoteArgument (value : Chars) : Spells (quoteArgument value) value := by
  intro rest
  obtain ⟨text, hvalue, hread⟩ := quotes_foldl value
  unfold quoteArgument
  generalize value.foldl quoteStep (['"'], 0) = out at hvalue hread ⊢
  -- trailing backslashes are doubled, so the quotation mark after them closes
  calc splitArguments (out.1 ++ List.replicate out.2 '\\' ++ ['"'] ++ rest)
      = splitArguments (out.1 ++ (List.replicate out.2 '\\' ++ '"' :: rest)) := by simp
    _ = splitFrom true (2 * out.2) (some text) ('"' :: rest) := by
        rw [hread, splitFrom_backslashes, ← Nat.two_mul]
    _ = splitFrom false 0 (some (text ++ List.replicate out.2 '\\')) rest := splitFrom_quote out.2
    _ = splitFrom false 0 (some value) rest := by rw [← hvalue]

/-! ### Requests -/

/-- A valid request passes the checks again. -/
lemma ClientQueueRequest.new_self {address : Chars} {printer : PrinterName}
    {request : ClientQueueRequest} (h : ClientQueueRequest.new address printer = .ok request) :
    ClientQueueRequest.new request.serverAddress request.printer = .ok request := by
  have hcopy := h
  obtain ⟨-, -, hname⟩ := except_bind_eq_ok.mp hcopy
  obtain ⟨queueName, -, rfl⟩ := except_map_eq_ok.mp hname
  dsimp only
  rw [ClientQueueRequest.new, trim_trim]
  exact h

/-- The arguments of a queue request. -/
lemma split_queueParameters {action : SetupAction} (request : ClientQueueRequest) :
    splitArguments (queueParameters action request)
      = [setupFlag, action.asStr.toList, serverOption, request.serverAddress, printerOption,
          request.printer.chars] := by
  have haction : action.asStr.toList ≠ [] ∧ action.asStr.toList.all isPlain = true := by
    cases action <;> decide
  unfold queueParameters
  simp only [List.append_assoc, List.cons_append]
  rw [splitArguments_word (by decide) (by decide), splitArguments_word haction.1 haction.2,
    splitArguments_word (by decide) (by decide), (spells_quoteArgument _).split_blank,
    splitArguments_word (by decide) (by decide), (spells_quoteArgument _).split]

/-- The helper reads the options of a valid request back. -/
lemma parseQueueRequest_self {address : Chars} {printer : PrinterName}
    {request : ClientQueueRequest} (h : ClientQueueRequest.new address printer = .ok request)
    (repair : Bool) :
    parseQueueRequest [serverOption, request.serverAddress, printerOption, request.printer.chars]
      repair = .setup (queueHelperRequest repair request) := by
  have hoptions : readOptions
      [serverOption, request.serverAddress, printerOption, request.printer.chars] none none
      = .ok (some request.serverAddress, some request.printer.chars) := rfl
  rw [parseQueueRequest, hoptions]
  dsimp only
  rw [PrinterName.parse_chars, except_ok_bind, ClientQueueRequest.new_self h]

/-- What follows the flag and the action of a queue request are its options. -/
lemma parseCommandLine_queue (program : Chars) (repair : Bool) (arguments : List Chars) :
    parseCommandLine (program :: setupFlag :: (queueAction repair).asStr.toList :: arguments)
      = parseQueueRequest arguments repair := by
  rw [parseCommandLine, List.drop_succ_cons, List.drop_zero, seekSetup, if_pos rfl, parseSetup,
    SetupAction.parse_asStr]
  cases repair <;> rfl

/-- The elevated helper runs the request that the app built, and every list of arguments
survives its quoted form. -/
theorem helper_runs_request {address : Chars} {printer : PrinterName} {request : ClientQueueRequest}
    (h : ClientQueueRequest.new address printer = .ok request) (program : Chars)
    (arguments : List Chars) :
    parseCommandLine (program :: splitArguments (helperParameters (.installClientQueue request)))
        = .setup (.installClientQueue request)
      ∧ parseCommandLine (program :: splitArguments (helperParameters (.repairClientQueue request)))
        = .setup (.repairClientQueue request)
      ∧ splitArguments ([' '].intercalate (arguments.map quoteArgument)) = arguments := by
  refine ⟨?_, ?_, splitArguments_joined spells_quoteArgument arguments⟩
  · rw [helperParameters, split_queueParameters]
    exact (parseCommandLine_queue program false _).trans (parseQueueRequest_self h false)
  · rw [helperParameters, split_queueParameters]
    exact (parseCommandLine_queue program true _).trans (parseQueueRequest_self h true)

/-- A printer whose name looks like an option and holds a quotation mark. -/
def dashedPrinter : PrinterName := ⟨"--printer \"b", by decide, by decide, by decide, by decide⟩

def dashedRequest : ClientQueueRequest :=
  ⟨⟨"--printer \"b (ShaPrint 10.0.0.9-48631)".toList, by decide, by decide, by decide, by decide,
    by decide⟩, "10.0.0.9:48631".toList, dashedPrinter⟩

theorem dashed_helper_runs :
    parseCommandLine ("shaprint.exe".toList
        :: splitArguments (helperParameters (.installClientQueue dashedRequest)))
      = .setup (.installClientQueue dashedRequest) :=
  (helper_runs_request
    (by decide : ClientQueueRequest.new "10.0.0.9:48631".toList dashedPrinter = .ok dashedRequest)
    "shaprint.exe".toList []).1

end ShaPrint.Queue
