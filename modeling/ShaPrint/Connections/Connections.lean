import Mathlib.Tactic
import ShaPrint.Client.PrinterList
import ShaPrint.Client.ServerAddress
import ShaPrint.Ipp.Proxy
import ShaPrint.Lib.Processes
import ShaPrint.Uri.Percent

/-!
The desktop client's connections and the approvals it keeps,
`adapters/client_connections.rs`.

Each call is a process. It takes the approval lock, reads the file of approvals into
memory, writes the file, or awaits a server, one section at a time; a call that leaves
the sections under the lock releases it with its last one. What a server presents and
answers, and whether the disk works, are inputs of the section that asks. The hash of
a certificate is a parameter. The TLS session below a certificate is left out, and so is
the poisoning of the memory's lock, under which nothing panics.

* `Shared`: the file, the memory, the lock, and what was written on connections.
* `Operation`: the calls. `Phase`: where a call is. `advance`: its next section.
* `connections`: the interleavings.
-/

namespace ShaPrint.Connections

open Client Ipp BigEndian Split Digits

/-! ### The approvals -/

structure TrustRecord where
  fingerprint : String
  deriving DecidableEq, Repr

/-- The approvals, by normalized address. -/
structure TrustData where
  servers : Std.ExtTreeMap String TrustRecord

namespace TrustData

/-- The approved fingerprint of an address. -/
def fingerprint (data : TrustData) (address : String) : Option String :=
  (data.servers[address]?).map (·.fingerprint)

def insert (data : TrustData) (address fingerprint : String) : TrustData :=
  ⟨data.servers.insert address ⟨fingerprint⟩⟩

def remove (data : TrustData) (address : String) : TrustData := ⟨data.servers.erase address⟩

end TrustData

/-- The address that an approval is stored under. -/
def key (address : ServerAddress) : String := .ofList address.normalized

/-! ### Fingerprints -/

/-- A byte as two upper-case hexadecimal digits. -/
def hexByte (byte : UInt8) : Chars :=
  [hexUpper (byte.toNat / 16), hexUpper (byte.toNat % 16)]

/-- The fingerprint of a certificate. -/
def fingerprint (sha256 : Bytes → Vector UInt8 32) (certificate : Bytes) : String :=
  .ofList ([':'].intercalate ((sha256 certificate).toList.map hexByte))

def toAsciiUpper (s : String) : String := .ofList (s.toList.map Char.toUpper)

/-- An ASCII hexadecimal digit. -/
def isHexDigit (byte : UInt8) : Bool := (hexDigit byte).isSome

def validateFingerprint (value : String) : Except AppError Unit :=
  if (asBytes value).length ≠ 95 || !((asBytes value).zipIdx.all fun (byte, i) =>
      if i % 3 = 2 then byte == ':'.toUInt8 else isHexDigit byte) then
    .error (.invalidInput
      "The reviewed certificate fingerprint is invalid. Inspect the server again before approving.")
  else .ok ()

/-! ### Failures -/

/-- How `connect` fails. -/
inductive ConnectFailure where
  | noAnswer
  | unreachable
  | noProvider
  | noServerName
  | tlsTimeout
  | noTls
  | noCertificate
  deriving DecidableEq

def ConnectFailure.error : ConnectFailure → AppError
  | .noAnswer => .serverUnavailable
      "The server did not respond. Check its address, network route, firewall, and that IPPS sharing is running."
  | .unreachable => .serverUnavailable
      "Could not reach the server. Check its address, network route, firewall, and that IPPS sharing is running."
  | .noProvider => .internal "This device could not configure secure IPPS."
  | .noServerName => invalidAddress
  | .tlsTimeout => .serverUnavailable
      "The secure connection timed out. Check the server address and that IPPS sharing is running."
  | .noTls => .serverUnavailable
      "The server could not complete a secure IPPS connection. Check that it is an IPPS server and retry."
  | .noCertificate => .internal
      "The server did not present a certificate. Confirm the address points to an IPPS server."

/-- How `read_trust_store` fails. -/
inductive ReadFailure where
  | malformed
  | unopened
  deriving DecidableEq

def ReadFailure.error : ReadFailure → AppError
  | .malformed => .internal
      "Saved server approvals could not be read. Restore or remove client-server-trust.json, then review each server again."
  | .unopened => .internal
      "Saved server approvals could not be opened. Check app data directory permissions."

/-- How `persist` fails, or the worker that runs it. The file is replaced by a rename, so
it is as before. -/
inductive SaveFailure where
  | unwritable
  | temporary
  | rename
  | worker
  deriving DecidableEq

def SaveFailure.error : SaveFailure → AppError
  | .unwritable => .internal "Could not save the server approval."
  | .temporary => .internal
      "Could not save the server approval. Check app data directory permissions."
  | .rename => .internal
      "Could not finish saving the server approval. Check app data directory permissions and try again."
  | .worker => .internal "The server approval storage worker stopped."

/-- How an exchange on a connection fails. -/
inductive ExchangeFailure where
  | timedOut
  | broken
  deriving DecidableEq

/-! ### Answers -/

structure TrustedServer where
  address : String
  fingerprint : String
  deriving DecidableEq, Repr

structure ConnectionReview where
  address : String
  currentFingerprint : String
  previousFingerprint : Option String
  trusted : Bool
  deriving DecidableEq, Repr

inductive TrustedServerStatus where
  | online
  | offline
  | identityChanged
  deriving DecidableEq, Repr

structure TrustedServerProbe where
  address : String
  status : TrustedServerStatus
  approvedFingerprint : String
  currentFingerprint : Option String
  printers : List String
  deriving DecidableEq, Repr

structure ConnectionPrinters where
  address : String
  printers : List String
  deriving DecidableEq, Repr

inductive ServerIdentityInspection where
  | matching
  | notTrusted
  | changed
  deriving DecidableEq, Repr

inductive ServerInspection where
  | reachable (identity : ServerIdentityInspection) (printerShared : Option Bool)
  | unreachable
  | timeout
  deriving DecidableEq, Repr

/-- What a call returns. -/
inductive Answer where
  | servers (servers : List TrustedServer)
  | forgotten
  | review (review : ConnectionReview)
  | printers (printers : ConnectionPrinters)
  | probe (probe : TrustedServerProbe)
  | ipp (body : Bytes)
  | inspection (inspection : ServerInspection)
  deriving DecidableEq, Repr

/-! ### Queries -/

/-- What a call asks an approved server. -/
inductive Query where
  | printers
  | probe
  | forward (printerUri : String) (body : Bytes) (networkChannel : Option String)
  | inspectServer (printerName : String)
  deriving DecidableEq, Repr

def maxResponse : ℕ := 1024 * 1024

/-- The request of `query_printers`. -/
def printersRequest : Bytes :=
  message ([2, 0] ++ be16 Endpoint.operationGetPrinters ++ be32 1) [Endpoint.operationGroup]

/-- The HTTP request around an IPP request. -/
def httpRequest (address : ServerAddress) (body : Bytes) : Bytes :=
  utf8 ("POST /ipp/print HTTP/1.1\r\nHost: ".toList ++ address.socket
    ++ "\r\nContent-Type: application/ipp\r\nContent-Length: ".toList ++ decimal body.length
    ++ "\r\nConnection: close\r\n\r\n".toList) ++ body

/-- What a query writes on its connection. -/
def Query.request (address : ServerAddress) : Query → Except AppError Bytes
  | .forward printerUri body networkChannel =>
      match prepareProxyRequest body printerUri networkChannel with
      | .error _ => .error (.invalidInput "The local printer sent an invalid IPP request.")
      | .ok request => .ok (httpRequest address request)
  | _ => .ok (httpRequest address printersRequest)

/-- The body of a response with status 200; `noHttp` and `rejected` are the errors. -/
def responseBody (noHttp rejected : AppError) (response : Bytes) : Except AppError Bytes :=
  match splitOnce (response.take (maxResponse + 8192)) (utf8 "\r\n\r\n".toList) with
  | none => .error noHttp
  | some (head, body) =>
      if (utf8 "HTTP/1.1 200".toList).isPrefixOf (head ++ utf8 "\r\n\r\n".toList) then .ok body
      else .error rejected

/-- What `query_printers` makes of a response. -/
def printersAnswered (response : Except ExchangeFailure Bytes) : Except AppError (List String) :=
  match response with
  | .error .timedOut => .error (.timeout
      "The printer query timed out. Check that the server is online and sharing printers.")
  | .error .broken => .error (.internal
      "Could not complete the printer query. Check the server IPPS endpoint and retry.")
  | .ok response =>
      (responseBody
        (.invalidState
          "The server returned an invalid HTTP response. Confirm it is the ShaPrint IPPS endpoint.")
        (.invalidState
          "The IPPS server rejected the printer query. Confirm sharing is enabled and retry.")
        response).bind parsePrinters

/-- What `forward_ipp` makes of a response. -/
def forwardAnswered (response : Except ExchangeFailure Bytes) : Except AppError Bytes :=
  match response with
  | .error .timedOut => .error (.serverUnavailable
      "The print server did not finish the job in time. Check that it is online and sharing the selected printer.")
  | .error .broken => .error (.serverUnavailable
      "Could not complete the secure print request. Check that the server is online and sharing the selected printer.")
  | .ok response =>
      (responseBody
        (.invalidState "The print server returned an invalid IPPS response.")
        (.invalidState
          "The IPPS server rejected the print request. Confirm it is a ShaPrint server and the selected printer is shared.")
        response).bind fun body =>
          if 9 ≤ body.length ∧ body.length ≤ maxResponse then .ok body
          else .error (.invalidState "The print server returned an incomplete IPP response.")

/-- The answer after an exchange with the pinned server. -/
def Query.answered (address : ServerAddress) (pinned : String)
    (response : Except ExchangeFailure Bytes) : Query → Except AppError Answer
  | .printers =>
      (printersAnswered response).map fun names => .printers ⟨key address, names⟩
  | .probe =>
      match printersAnswered response with
      | .ok names => .ok (.probe ⟨key address, .online, pinned, some pinned, names⟩)
      | .error _ => .ok (.probe ⟨key address, .offline, pinned, some pinned, []⟩)
  | .forward _ _ _ => (forwardAnswered response).map .ipp
  | .inspectServer printerName =>
      match printersAnswered response with
      | .ok names =>
          .ok (.inspection (.reachable .matching (some (names.contains printerName))))
      | .error _ => .ok (.inspection (.reachable .matching none))

/-- The answer when the server presents another certificate. -/
def Query.changed (address : ServerAddress) (pinned live : String) : Query → Except AppError Answer
  | .printers => .error (.serverIdentityChanged
      s!"The server certificate changed. Previously approved: {pinned}. Currently presented: {live}. Shared printers are blocked; inspect the current fingerprint and explicitly reapprove it only if you trust the change.")
  | .probe => .ok (.probe ⟨key address, .identityChanged, pinned, some live, []⟩)
  | .forward _ _ _ => .error (.serverIdentityChanged
      "The server certificate changed. Printing is blocked until you inspect the current fingerprint and explicitly reapprove the server.")
  | .inspectServer _ => .ok (.inspection (.reachable .changed none))

/-- The answer when no connection is made. -/
def Query.unreached (address : ServerAddress) (pinned : Option String) (failure : ConnectFailure) :
    Query → Except AppError Answer
  | .probe => .ok (.probe ⟨key address, .offline, pinned.getD "", none, []⟩)
  | .inspectServer _ =>
      if failure.error.code = .timeout then .ok (.inspection .timeout)
      else .ok (.inspection .unreachable)
  | _ => .error failure.error

/-- The answer for a server that is not approved, where the query needs an approval. -/
def Query.notTrusted : Query → Option AppError
  | .printers => some (.serverNotTrusted
      "This server is not approved. Inspect its certificate fingerprint and explicitly approve it before listing shared printers.")
  | .probe => some (.serverNotTrusted
      "This server is not approved. Inspect its certificate fingerprint and explicitly approve it before probing its status.")
  | .forward _ _ _ => some (.serverNotTrusted
      "This server is not approved. Inspect its certificate fingerprint and explicitly approve it before printing.")
  | .inspectServer _ => none

/-! ### Calls -/

/-- The calls, with their arguments. -/
inductive Operation where
  | list
  | forget (input : Chars)
  | inspect (input : Chars)
  | approve (input : Chars) (observed : String)
  | query (input : Chars) (query : Query)
  deriving DecidableEq, Repr

/-- What a call takes the lock for. -/
inductive Job where
  | list
  | forget (address : ServerAddress)
  | inspect (address : ServerAddress) (live : String)
  | approve (address : ServerAddress) (live : String)
  | query (address : ServerAddress) (query : Query)
  deriving DecidableEq

/-- Where a call is: the section it takes next, with the local variables it needs. -/
inductive Phase where
  | start
  /-- `inspect` or `approve` awaits the certificate; `approve` has a reviewed one. -/
  | observe (address : ServerAddress) (reviewed : Option String)
  | lock (job : Job)
  /-- `refresh_store` reads the file. -/
  | read (job : Job)
  /-- `refresh_store` has read the file. -/
  | refresh (job : Job) (latest : TrustData)
  /-- The worker writes the file; `approved` is the new approval, or none for a removal. -/
  | persist (address : ServerAddress) (approved : Option String) (updated : TrustData)
  /-- The file is written, the memory is not. -/
  | store (address : ServerAddress) (approved : Option String) (updated : TrustData)
  | connect (address : ServerAddress) (query : Query) (pinned : Option String)
  /-- The request is about to be written on a connection with this certificate. -/
  | send (address : ServerAddress) (query : Query) (pinned : String) (certificate request : Bytes)
  | done (result : Except AppError Answer)

structure Call where
  operation : Operation
  phase : Phase

/-- What a section gets from outside. -/
inductive Input where
  | go
  /-- The server presents a certificate. -/
  | presented (certificate : Bytes)
  | unconnected (failure : ConnectFailure)
  | unread (failure : ReadFailure)
  | saved
  | unsaved (failure : SaveFailure)
  | answered (response : Bytes)
  /-- The exchange fails after `sent` bytes of the request. -/
  | interrupted (sent : ℕ) (failure : ExchangeFailure)
  deriving DecidableEq

/-- Bytes that were written on a connection. -/
structure Transmission where
  address : ServerAddress
  certificate : Bytes
  bytes : Bytes
  deriving DecidableEq

/-- What the calls share, with the bytes that have been written on connections. -/
structure Shared where
  file : TrustData
  store : TrustData
  /-- The approval lock is held. -/
  locked : Bool
  sent : List Transmission

/-- `ClientConnections::new`. -/
def Shared.new (file : TrustData) : Shared := ⟨file, file, false, []⟩

def Shared.release (s : Shared) : Shared := { s with locked := false }

def Shared.transmit (s : Shared) (address : ServerAddress) (certificate bytes : Bytes) : Shared :=
  { s with sent := s.sent ++ [⟨address, certificate, bytes⟩] }

/-- The phase after an address is parsed. -/
def parsed (input : Chars) (next : ServerAddress → Phase) : Phase :=
  match ServerAddress.parse input with
  | .error error => .done (.error error)
  | .ok address => next address

/-- The sections before the first await. -/
def started : Operation → Phase
  | .list => .lock .list
  | .forget input => parsed input fun address => .lock (.forget address)
  | .inspect input => parsed input fun address => .observe address none
  | .approve input observed => parsed input fun address =>
      match validateFingerprint observed with
      | .error error => .done (.error error)
      | .ok () => .observe address (some observed)
  | .query input (.inspectServer printerName) =>
      match ServerAddress.parse input with
      | .error _ => .done (.ok (.inspection .unreachable))
      | .ok address => .lock (.query address (.inspectServer printerName))
  | .query input query => parsed input fun address => .lock (.query address query)

/-- The phase after `observe_fingerprint`. -/
def observed (address : ServerAddress) (reviewed : Option String) (live : String) : Phase :=
  match reviewed with
  | none => .lock (.inspect address live)
  | some reviewed =>
      if live ≠ toAsciiUpper reviewed then .done (.error (.invalidState
        "The server certificate changed since review. Inspect it again and approve only the fingerprint currently shown."))
      else .lock (.approve address live)

/-- The phase after `refresh_store`. -/
def refreshed (latest : TrustData) : Job → Phase
  | .list => .done (.ok (.servers (latest.servers.toList.map fun (address, record) =>
      ⟨address, record.fingerprint⟩)))
  | .forget address =>
      if latest.fingerprint (key address) = none then .done (.ok .forgotten)
      else .persist address none (latest.remove (key address))
  | .inspect address live =>
      let approved := latest.fingerprint (key address)
      .done (.ok (.review ⟨key address, live, approved, approved = some live⟩))
  | .approve address live => .persist address (some live) (latest.insert (key address) live)
  | .query address query =>
      match latest.fingerprint (key address), query.notTrusted with
      | none, some error => .done (.error error)
      | pinned, _ => .connect address query pinned

/-- A call in these phases holds the approval lock. -/
def Phase.inside : Phase → Bool
  | .read _ | .refresh _ _ | .persist _ _ _ | .store _ _ _ => true
  | _ => false

/-- The answer of a call whose change is in the file and in memory. -/
def stored (address : ServerAddress) : Option String → Answer
  | none => .forgotten
  | some live => .review ⟨key address, live, none, true⟩

/-- The phase after `connect`. -/
def connected (address : ServerAddress) (query : Query) (pinned : Option String)
    (certificate : Bytes) (live : String) : Phase :=
  match pinned with
  | none => .done (.ok (.inspection (.reachable .notTrusted none)))
  | some pinned =>
      if live ≠ pinned then .done (query.changed address pinned live)
      else
        match query.request address with
        | .error error => .done (.error error)
        | .ok request => .send address query pinned certificate request

section Advance

variable (sha256 : Bytes → Vector UInt8 32)

/-- The next section of a call. -/
def advance (s : Shared) (operation : Operation) : Phase → Input → Option (Shared × Phase)
  | .start, .go => some (s, started operation)
  | .observe _ _, .unconnected failure => some (s, .done (.error failure.error))
  | .observe address reviewed, .presented certificate =>
      some (s, observed address reviewed (fingerprint sha256 certificate))
  | .lock job, .go => if s.locked then none else some ({ s with locked := true }, .read job)
  | .read _, .unread failure => some (s.release, .done (.error failure.error))
  | .read job, .go => some (s, .refresh job s.file)
  | .refresh job latest, .go =>
      some ({ s with store := latest, locked := (refreshed latest job).inside },
        refreshed latest job)
  | .persist _ _ _, .unsaved failure => some (s.release, .done (.error failure.error))
  | .persist address approved updated, .saved =>
      some ({ s with file := updated }, .store address approved updated)
  | .store address approved updated, .go =>
      some ({ s with store := updated }.release, .done (.ok (stored address approved)))
  | .connect address query pinned, .unconnected failure =>
      some (s, .done (query.unreached address pinned failure))
  | .connect address query pinned, .presented certificate =>
      some (s, connected address query pinned certificate (fingerprint sha256 certificate))
  | .send address query pinned certificate request, .interrupted sent failure =>
      some (s.transmit address certificate (request.take sent),
        .done (query.answered address pinned (.error failure)))
  | .send address query pinned certificate request, .answered response =>
      some (s.transmit address certificate request,
        .done (query.answered address pinned (.ok response)))
  | _, _ => none

def Call.isNew (c : Call) : Bool :=
  match c.phase with
  | .start => true
  | _ => false

/-- The calls as processes; they spawn none and nothing else acts. -/
def processes (file : TrustData) : Processes Shared Call Input Empty where
  init := Shared.new file
  starts := Call.isNew
  advance s c x := (advance sha256 s c.operation c.phase x).map fun (s, phase) =>
    (s, ⟨c.operation, phase⟩, [])
  outside _ x := nomatch x

abbrev World := Processes.World Shared Call

abbrev Event := Processes.Event Call Input Empty

/-- The interleavings of the calls, from what the file held. -/
def connections (file : TrustData) : StepSystem World Event := (processes sha256 file).system

end Advance

end ShaPrint.Connections
