import ShaPrint.Client.ServerAddress
import ShaPrint.Domain.Printer

/-!
The native queues that route a shared printer through the client proxy, and their names:
the first half of `domain/queue.rs`.

* `ClientQueueName`: a checked queue name; `forSharedPrinter` derives it from the printer
  and the server address, which `addressLabel` folds into the name.
* `cupsDestinationFor`: the CUPS destination of the same queue.
* `validateAddress`: the shape of server addresses that the queues accept.
* `ClientQueueRequest`: what the elevated helper needs to install a queue.
-/

namespace ShaPrint.Queue

open Split Digits Client

/-- Longest queue name. -/
def queueNameLimit : ℕ := 220

/-- Longest server address in a queue request. -/
def addressLimit : ℕ := 300

/-- The spooler's RPC name syntax uses these. -/
def isRejected (c : Char) : Bool := c == '\\' || c == ','

/-- Name of a native queue for a shared printer. -/
structure ClientQueueName where
  value : Chars
  nonempty : value ≠ []
  length_le : value.length ≤ queueNameLimit
  printable : value.any isControl = false
  plain : value.find? isRejected = none
  trimmed : trim value = value
  deriving DecidableEq

namespace ClientQueueName

@[ext] lemma ext {a b : ClientQueueName} (h : a.value = b.value) : a = b := by
  cases a
  cases b
  cases h
  rfl

def parse (value : Chars) : Except AppError ClientQueueName :=
  let name := trim value
  if hempty : name = [] then .error (.invalidInput "the Windows queue name is empty")
  else if hlong : queueNameLimit < name.length then
    .error (.invalidInput s!"the Windows queue name is longer than {queueNameLimit} characters")
  else if hcontrol : name.any isControl = true then
    .error (.invalidInput "the Windows queue name contains control characters")
  else
    match hfind : name.find? isRejected with
    | some rejected =>
        let text := String.ofList name
        .error (.invalidInput s!"the Windows queue name \"{text}\" cannot contain '{rejected}'; rename the printer on the server and share it again")
    | none =>
        .ok ⟨name, hempty, Nat.le_of_not_lt hlong, by simpa using hcontrol, hfind, trim_trim value⟩

/-- Parsing gives the trimmed text, where it gives a name. -/
lemma parse_eq_ok {value : Chars} {name : ClientQueueName} :
    parse value = .ok name ↔ name.value = trim value := by
  unfold parse
  constructor
  · intro h
    dsimp only at h
    split_ifs at h
    split at h
    · cases h
    · obtain rfl := Except.ok.inj h
      rfl
  · intro h
    have hlong : ¬ queueNameLimit < name.value.length := Nat.not_lt.mpr name.length_le
    simp only [← h, name.nonempty, hlong, name.printable, Bool.false_eq_true, dite_false]
    split
    · rename_i hfind
      rw [← h, name.plain] at hfind
      cases hfind
    · rfl

end ClientQueueName

/-- A letter, digit, dot or hyphen stays; everything else becomes a hyphen. -/
def foldChar (c : Char) : Char := if c.isAlphanum || c == '.' || c == '-' then c else '-'

/-- Folds a server address into the label part of a queue name. -/
def addressLabel (serverAddress : Chars) : Chars :=
  let label := trimBoth (· == '-') (serverAddress.map foldChar)
  if label = [] then "server".toList else label

/-- `{printer} (ShaPrint {label})` -/
def queueText (printer : PrinterName) (label : Chars) : Chars :=
  printer.chars ++ " (ShaPrint ".toList ++ label ++ ")".toList

/-- The queue name for a printer shared by the server at an address. -/
def ClientQueueName.forSharedPrinter (printer : PrinterName) (serverAddress : Chars) :
    Except AppError ClientQueueName :=
  parse (queueText printer (addressLabel serverAddress))

/-! ### CUPS destinations -/

/-- A byte as `{:02x}`. -/
def hexByte (b : UInt8) : Chars := [(b.toNat / 16).digitChar, (b.toNat % 16).digitChar]

/-- One character of the loop of `sanitize_cups_token`: the text so far, and whether an
underscore was written last. -/
def sanitizeStep (out : Chars × Bool) (c : Char) : Chars × Bool :=
  if c.isAlphanum || c == '-' || c == '.' then (out.1 ++ [c], false)
  else if !out.2 && out.1 ≠ [] then (out.1 ++ ['_'], true)
  else out

def sanitizeCupsToken (input : Chars) : Chars :=
  (input.foldl sanitizeStep ([], false)).1.rdropWhile (· == '_')

/-- The first characters of a text, without the given character at either end. -/
def slug (text : Chars) (limit : ℕ) (separator : Char) (default : Chars) : Chars :=
  let slug := trimBoth (· == separator) (text.take limit)
  if slug = [] then default else slug

/-- The CUPS-safe destination name for a printer on a server, with a digest of both. -/
def cupsDestinationFor (sha256 : Bytes → Vector UInt8 32) (printer : PrinterName)
    (serverAddress : Chars) : Chars :=
  let address := trim serverAddress
  let digest := sha256 (asBytes "shaprint-cups-queue:" ++ utf8 address ++ [0] ++ utf8 printer.chars)
  let shortHash := [digest[0], digest[1], digest[2], digest[3]].flatMap hexByte
  let addrSlug := slug (addressLabel address) 40 '-' "server".toList
  let printerSlug := slug (sanitizeCupsToken printer.chars) 60 '_' "Printer".toList
  "ShaPrint_".toList ++ printerSlug ++ ['_'] ++ addrSlug ++ ['_'] ++ shortHash

/-! ### Server addresses -/

def isAsciiHexDigit (c : Char) : Bool :=
  c.isDigit || ('a' ≤ c && c ≤ 'f') || ('A' ≤ c && c ≤ 'F')

def invalidQueueAddress : AppError :=
  .invalidInput "the server address is not a host or host:port; review the server connection again"

/-- The port text of an address of the form `host`, `host:port` or `[host]:port`. -/
def addressPort (address : Chars) : Except AppError (Option Chars) :=
  match address.dropPrefix? ['['] with
  | some rest =>
      match splitOnce rest [']'] with
      | none => .error invalidQueueAddress
      | some (host, after) =>
          if host = [] || !host.all (fun c => isAsciiHexDigit c || c == ':' || c == '.') then
            .error invalidQueueAddress
          else
            match after.dropPrefix? [':'] with
            | some port => if port ≠ [] then .ok (some port) else .error invalidQueueAddress
            | none => if after = [] then .ok none else .error invalidQueueAddress
  | none =>
      let (host, port) := match splitOnce address [':'] with
        | some (host, port) => (host, some port)
        | none => (address, none)
      if host = [] || !host.all (fun c => c.isAlphanum || c == '.' || c == '-') then
        .error invalidQueueAddress
      else
        match port with
        | some port => if port ≠ [] then .ok (some port) else .error invalidQueueAddress
        | none => .ok none

/-- A port of at most five digits from 1 to 65535. -/
def isPort (port : Chars) : Bool :=
  (utf8 port).length ≤ 5 && port.all Char.isDigit && (parsePort port).any (0 < ·)

/-- Accepts only the canonical `host:port` shapes the client trust store produces. -/
def validateAddress (address : Chars) : Except AppError Unit :=
  if address = [] then
    .error (.invalidInput "enter the address of the server that shares the printer")
  else if addressLimit < address.length then
    .error (.invalidInput "the server address is too long")
  else
    (addressPort address).bind fun port =>
      if port.all isPort then .ok () else .error invalidQueueAddress

/-! ### Requests -/

/-- Everything the elevated helper needs to install one native client queue. -/
structure ClientQueueRequest where
  queueName : ClientQueueName
  serverAddress : Chars
  printer : PrinterName
  deriving DecidableEq

def ClientQueueRequest.new (serverAddress : Chars) (printer : PrinterName) :
    Except AppError ClientQueueRequest :=
  let address := trim serverAddress
  (validateAddress address).bind fun _ =>
    (ClientQueueName.forSharedPrinter printer address).map fun queueName =>
      ⟨queueName, address, printer⟩

end ShaPrint.Queue
