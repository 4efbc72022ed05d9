import ShaPrint.Domain.Error
import ShaPrint.Lib.Digits
import ShaPrint.Lib.Fallible
import ShaPrint.Text

/-!
The command line of `shaprintctl`: the arguments that the desktop makes of a mutation, from
`adapters/elevated_ctl.rs`, and how they are parsed, from `adapters/daemon.rs`.

* `ElevatedMutation`, `arguments`: the mutations and their arguments.
* `token`, `scan`: the option scanner, which takes options at any position.
* `commandOf`, `parseCliArgs`: the commands.
* `readSecretFromReader`: the line that a secret is read from.
-/

namespace ShaPrint.Cli

open Digits

/-! ### Services -/

inductive ServiceId where
  | clientProxy
  | serverSharing
  | serverDiscovery
  deriving DecidableEq

namespace ServiceId

def all : List ServiceId := [clientProxy, serverSharing, serverDiscovery]

def asStr : ServiceId → String
  | clientProxy => "client-proxy"
  | serverSharing => "server-sharing"
  | serverDiscovery => "server-discovery"

def parse (value : String) : Except AppError ServiceId :=
  match all.find? fun id => id.asStr == value with
  | some id => .ok id
  | none => .error (.unknownService s!"unknown service '{value}'")

end ServiceId

/-! ### Mutations -/

/-- One machine mutation the desktop requests through the elevated command. -/
inductive ElevatedMutation where
  | startService (id : String)
  | stopService (id : String)
  | stopDaemon
  | setNetworkChannel (channel : String)
  | approveServer (address fingerprint : String)
  | forgetServer (address : String)
  | installClientQueue (address printer : String)
  | repairClientQueue (address printer : String)
  | setSharedPrinters (printers : List String)
  deriving DecidableEq

namespace ElevatedMutation

/-- The secret that goes to standard input. -/
def secret : ElevatedMutation → Option String
  | setNetworkChannel channel => some channel
  | _ => none

/-- The arguments before the options that every mutation has. -/
def command : ElevatedMutation → List String
  | startService id => ["start", id]
  | stopService id => ["stop", id]
  | stopDaemon => ["stop"]
  | setNetworkChannel _ => ["network-channel", "set", "--stdin"]
  | approveServer address fingerprint => ["trust", "approve", address, fingerprint]
  | forgetServer address => ["trust", "forget", address]
  | installClientQueue address printer => ["queue", "install", address, printer]
  | repairClientQueue address printer => ["queue", "repair", address, printer]
  | setSharedPrinters printers =>
      if printers = [] then ["sharing", "clear"] else ["sharing", "set"] ++ printers

/-- The arguments of the command. A path is shown with replacement characters where it is no
text. -/
def arguments (m : ElevatedMutation) (socketPath : Bytes) : List String :=
  m.command ++ ["--json", "--socket", .ofList (fromUtf8Lossy socketPath)]

/-- What is written to the standard input of the command. -/
def input (m : ElevatedMutation) : Bytes :=
  match m.secret with
  | some secret => asBytes secret ++ asBytes "\n"
  | none => []

end ElevatedMutation

/-! ### Options -/

inductive SecretInputSource where
  | promptOrStdin
  | stdin
  | fileDescriptor (fd : ℕ)
  | credentialFile (path : Bytes)
  deriving DecidableEq

inductive CliCommand where
  | status
  | diagnostics
  | startService (id : ServiceId)
  | stopService (id : ServiceId)
  | shutdown
  | drain (timeoutSecs : Option ℕ)
  | networkChannelStatus
  | setNetworkChannel (source : SecretInputSource)
  | inspectServer (address : String)
  | approveServer (address fingerprint : String)
  | forgetServer (address : String)
  | listTrustedServers
  | listServerPrinters (address : String)
  | installClientQueue (address printer : String)
  | repairClientQueue (address printer : String)
  | listClientQueues
  | listLocalPrinters
  | setSharedPrinters (printers : List String)
  | purge (confirm : Bool)
  deriving DecidableEq

structure CliOptions where
  socketPath : Bytes
  json : Bool
  command : CliCommand
  deriving DecidableEq

def defaultSocketPath : String := "/run/shaprint/shaprintd.sock"

/-- The options so far, and the arguments that are none. -/
structure Scan where
  socketPath : String := defaultSocketPath
  json : Bool := false
  stdin : Bool := false
  fd : Option ℕ := none
  credentialFile : Option String := none
  fingerprint : Option String := none
  timeout : Option ℕ := none
  confirm : Bool := false
  positional : List String := []
  deriving DecidableEq

/-- What an argument is, apart from a value of an option before it. -/
inductive Token where
  | confirm
  | socket
  | json
  | stdin
  | timeout
  | timeoutValue (value : Chars)
  | fd
  | credentialFile
  | fingerprint
  | channel
  | unrecognized (name : String)
  | positional
  deriving DecidableEq

/-- Options that would carry the secret. -/
def secretOptions : List String := ["--network-channel", "--channel", "--value", "--secret"]

def isSecretOption (arg : String) : Bool :=
  secretOptions.any fun option =>
    option == arg || (option ++ "=").toList.isPrefixOf arg.toList

def token (arg : String) : Token :=
  if arg = "--confirm" ∨ arg = "--yes" ∨ arg = "-y" then .confirm
  else if arg = "--socket" then .socket
  else if arg = "--json" then .json
  else if arg = "--stdin" then .stdin
  else if arg = "--timeout" then .timeout
  else
    match arg.toList.dropPrefix? "--timeout=".toList with
    | some value => .timeoutValue value
    | none =>
        if arg = "--fd" then .fd
        else if arg = "--credential-file" then .credentialFile
        else if arg = "--fingerprint" then .fingerprint
        else if isSecretOption arg then .channel
        else if arg.toList.head? = some '-' then
          .unrecognized (.ofList (arg.toList.takeWhile (· ≠ '=')))
        else .positional

def missingValue (option : String) : AppError := .invalidInput s!"missing value for '{option}'"

def channelOnCommandLine : AppError :=
  .invalidInput "the Network Channel must not be passed as a command-line argument; use a hidden prompt, --stdin, --fd, or --credential-file"

def parseTimeout (value : Chars) : Except AppError ℕ :=
  match parseUnsigned (2 ^ 64 - 1) value with
  | some timeout => .ok timeout
  | none =>
      let text := String.ofList value
      .error (.invalidInput s!"invalid timeout '{text}' for '--timeout'")

/-- A file descriptor: a number of 32 bits that is not negative. -/
def parseFd (value : String) : Except AppError ℕ :=
  let negativeZero := match value.toList with
    | '-' :: digits => digits ≠ [] && digits.all (· == '0')
    | _ => false
  match if negativeZero then some 0 else parseUnsigned (2 ^ 31 - 1) value.toList with
  | some fd => .ok fd
  | none => .error (.invalidInput s!"invalid file descriptor '{value}' for '--fd'")

/-- The option scanner. -/
def scan : List String → Scan → Except AppError Scan
  | [], s => .ok s
  | arg :: rest, s =>
      match token arg with
      | .confirm => scan rest { s with confirm := true }
      | .json => scan rest { s with json := true }
      | .stdin => scan rest { s with stdin := true }
      | .socket =>
          match rest with
          | [] => .error (missingValue "--socket")
          | value :: rest => scan rest { s with socketPath := value }
      | .timeout =>
          match rest with
          | [] => .error (missingValue "--timeout")
          | value :: rest =>
              (parseTimeout value.toList).bind fun timeout => scan rest { s with timeout := some timeout }
      | .timeoutValue value =>
          (parseTimeout value).bind fun timeout => scan rest { s with timeout := some timeout }
      | .fd =>
          match rest with
          | [] => .error (missingValue "--fd")
          | value :: rest => (parseFd value).bind fun fd => scan rest { s with fd := some fd }
      | .credentialFile =>
          match rest with
          | [] => .error (missingValue "--credential-file")
          | value :: rest => scan rest { s with credentialFile := some value }
      | .fingerprint =>
          match rest with
          | [] => .error (missingValue "--fingerprint")
          | value :: rest => scan rest { s with fingerprint := some value }
      | .channel => .error channelOnCommandLine
      | .unrecognized name => .error (.invalidInput s!"unrecognized shaprintctl option '{name}'")
      | .positional => scan rest { s with positional := s.positional ++ [arg] }

/-! ### Commands -/

/-- How many options name a source of the secret. -/
def Scan.secretSources (s : Scan) : ℕ :=
  s.stdin.toNat + s.fd.isSome.toNat + s.credentialFile.isSome.toNat

/-- The first arguments that are no options are these. -/
def Scan.startsWith (s : Scan) (words : List String) : Bool := words.isPrefixOf s.positional

/-- The options are of the command that they are given for. -/
def checkOptions (s : Scan) : Except AppError Unit :=
  if 1 < s.secretSources then
    .error (.invalidInput "specify at most one of '--stdin', '--fd', or '--credential-file'")
  else if !s.startsWith ["network-channel", "set"] && 0 < s.secretSources then
    .error (.invalidInput "'--stdin', '--fd', and '--credential-file' are only valid with 'network-channel set'")
  else if s.fingerprint.isSome && !s.startsWith ["trust", "approve"] then
    .error (.invalidInput "'--fingerprint' is only valid with 'trust approve'")
  else if s.timeout.isSome && !s.startsWith ["drain"] then
    .error (.invalidInput "'--timeout' is only valid with 'drain'")
  else .ok ()

def secretSource (s : Scan) : SecretInputSource :=
  if s.stdin then .stdin
  else
    match s.fd with
    | some fd => .fileDescriptor fd
    | none =>
        match s.credentialFile with
        | some path => .credentialFile (asBytes path)
        | none => .promptOrStdin

def commandOf (s : Scan) : Except AppError CliCommand :=
  match s.positional with
  | ["status"] => .ok .status
  | ["diagnostics"] | ["diag"] => .ok .diagnostics
  | ["start", service] => (ServiceId.parse service).map .startService
  | ["stop"] | ["stop", "daemon"] | ["shutdown"] => .ok .shutdown
  | ["stop", service] => (ServiceId.parse service).map .stopService
  | ["drain"] => .ok (.drain s.timeout)
  | ["network-channel"] | ["network-channel", "status"] => .ok .networkChannelStatus
  | ["network-channel", "set"] => .ok (.setNetworkChannel (secretSource s))
  | "network-channel" :: "set" :: _ => .error channelOnCommandLine
  | ["trust", "list"] | ["trusted-servers"] => .ok .listTrustedServers
  | ["trust", "inspect", address] | ["inspect", address] => .ok (.inspectServer address)
  | ["trust", "approve", address] =>
      match s.fingerprint with
      | some fingerprint => .ok (.approveServer address fingerprint)
      | none => .error (.invalidInput "missing certificate fingerprint for 'trust approve' (pass --fingerprint <SHA256>)")
  | ["trust", "approve", address, fingerprint] =>
      if s.fingerprint.isSome then
        .error (.invalidInput "specify the fingerprint either positionally or with '--fingerprint', not both")
      else .ok (.approveServer address fingerprint)
  | ["trust", "forget", address] | ["forget", address] => .ok (.forgetServer address)
  | ["trust", "printers", address] | ["printers", address] => .ok (.listServerPrinters address)
  | ["queue", "install", address, printer] => .ok (.installClientQueue address printer)
  | ["queue", "repair", address, printer] => .ok (.repairClientQueue address printer)
  | ["queue", "list"] | ["queues"] => .ok .listClientQueues
  | ["sharing"] | ["sharing", "printers"] | ["sharing", "list"] => .ok .listLocalPrinters
  | ["sharing", "clear"] => .ok (.setSharedPrinters [])
  | "sharing" :: "set" :: rest =>
      if rest = [] then
        .error (.invalidInput "specify at least one local printer name for 'sharing set' (or use 'sharing clear')")
      else .ok (.setSharedPrinters rest)
  | ["purge"] => .ok (.purge s.confirm)
  | [] => .error (.invalidInput "missing command (expected: status, start <service>, stop [service], shutdown, network-channel, trust, printers, queue, sharing, or purge)")
  | other =>
      let text := " ".intercalate other
      .error (.invalidInput s!"invalid command '{text}'")

/-- Parses the arguments of `shaprintctl`, the name of the program first. -/
def parseCliArgs (arguments : List String) : Except AppError CliOptions :=
  (scan (arguments.drop 1) {}).bind fun s =>
    (checkOptions s).bind fun _ =>
      (commandOf s).map fun command => ⟨asBytes s.socketPath, s.json, command⟩

/-! ### Secrets -/

/-- Longest message, and longest line of a secret. -/
def maxMessageBytes : ℕ := 8 * 1024

/-- The bytes up to the first line feed, which belongs to them. -/
def readLine (bytes : Bytes) : Bytes :=
  bytes.takeWhile (· ≠ 10) ++ (bytes.dropWhile (· ≠ 10)).take 1

/-- Reads and trims a single line secret, rejecting empty values. -/
def readSecretFromReader (input : Bytes) : Except AppError String :=
  let line := readLine (input.take (maxMessageBytes + 1))
  match fromUtf8 line with
  | none => .error (.internal "cannot read Network Channel input: stream did not contain valid UTF-8")
  | some text =>
      if maxMessageBytes < line.length then
        .error (.invalidInput "Network Channel input is too large")
      else
        let trimmed := text.toList.rdropWhile fun c => c == '\r' || c == '\n'
        if trimmed = [] then .error (.invalidInput "Network Channel cannot be empty")
        else .ok (.ofList trimmed)

/-- A line without a line feed before its end is read to its end. -/
lemma readLine_append {line rest : Bytes} (h : (10 : UInt8) ∉ line) :
    readLine (line ++ 10 :: rest) = line ++ [10] := by
  have hall : ∀ b ∈ line, decide (b ≠ 10) = true := by
    intro b hb
    refine decide_eq_true ?_
    rintro rfl
    exact h hb
  rw [readLine, List.takeWhile_append_of_pos hall, List.dropWhile_append_of_pos hall,
    List.takeWhile_cons_of_neg (by decide), List.dropWhile_cons_of_neg (by decide),
    List.append_nil]
  rfl

lemma readLine_of_not_mem {line : Bytes} (h : (10 : UInt8) ∉ line) : readLine line = line := by
  have hall : ∀ b ∈ line, decide (b ≠ 10) = true := by
    intro b hb
    refine decide_eq_true ?_
    rintro rfl
    exact h hb
  rw [readLine, List.takeWhile_eq_self_iff.mpr hall, List.dropWhile_eq_nil_iff.mpr hall]
  exact List.append_nil _

end ShaPrint.Cli
