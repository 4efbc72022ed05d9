import ShaPrint.Queue.Name
import ShaPrint.Uri.Percent

/-!
Classification of spooler records, the second half of `domain/queue.rs`.

* `classify`: a record is a client queue, a broken one, a local printer or neither.
* `classifyDestination`: a record whose port points to the proxy's print path.
* `parseClientQueueName`: the printer and the server that a queue name stands for, used
  where the port is managed by the WSD port monitor and says nothing.
-/

namespace ShaPrint.Queue

open Split Client

/-- One printer queue reported by the platform spooler, with its name and port. -/
structure SpoolerRecord where
  name : Chars
  port : Chars
  deriving DecidableEq

/-- A client queue recognised in the spooler. -/
structure RecognisedClientQueue where
  queueName : ClientQueueName
  serverAddress : Chars
  printerName : PrinterName
  deriving DecidableEq

/-- The conservative classification of one spooler record. -/
inductive SpoolerRecordClassification where
  | recognisedClientQueue (queue : RecognisedClientQueue)
  | ambiguousClientQueue
  | eligibleLocal (name : PrinterName)
  | ignored
  deriving DecidableEq

/-- The name before a trailing ` (Copy n)`. -/
def stripTrailingCopySuffix (name : Chars) : Option Chars :=
  (name.dropSuffix? [')']).bind fun withoutClose =>
    (rsplitOnce withoutClose " (Copy ".toList).bind fun (beforeCopy, copyNumber) =>
      if copyNumber ≠ [] && copyNumber.all Char.isDigit then some beforeCopy else none

/-- The host and the port text of an authority; the port may be missing. -/
def authorityParts (authority : Chars) : Option (Chars × Chars) :=
  match authority.dropPrefix? ['['] with
  | some rest =>
      (splitOnce rest [']']).bind fun (ipv6, after) =>
        if after = [] then some (ipv6, [])
        else (after.dropPrefix? [':']).map fun port => (ipv6, port)
  | none => some ((splitOnce authority [':']).getD (authority, []))

def isLoopbackHost (host : Chars) : Bool :=
  eqIgnoreAsciiCase host "127.0.0.1".toList || eqIgnoreAsciiCase host "localhost".toList
    || host == "::1".toList

def isLoopbackAuthority (authority proxyAuthority : Chars) : Bool :=
  if eqIgnoreAsciiCase authority proxyAuthority then true
  else
    match authorityParts authority with
    | none => false
    | some (host, port) => isLoopbackHost host && (port = [] || (parsePort port).isSome)

/-- What follows `ipp://` or `http://` in a port. -/
def schemeRest (port : Chars) : Option Chars :=
  if "ipp://".toList.isPrefixOf (toAsciiLower port) then some (port.drop 6)
  else if "http://".toList.isPrefixOf (toAsciiLower port) then some (port.drop 7)
  else none

/-- The destination in a loopback URI, after `/ipp/print/`. -/
def printDestination (proxyAuthority rest : Chars) : Option Chars :=
  (splitOnce rest ['/']).bind fun (authority, path) =>
    let pathWithSlash := '/' :: path
    if isLoopbackAuthority authority proxyAuthority
        && "/ipp/print/".toList.isPrefixOf (toAsciiLower pathWithSlash) then
      some (pathWithSlash.drop 11)
    else none

/-- The server address that a label stands for: the last hyphen is taken for the colon
before the port. -/
def candidateAddress (label : Chars) : Chars :=
  match rsplitOnce label ['-'] with
  | some (hostPart, portPart) =>
      if portPart ≠ [] && portPart.all Char.isDigit then hostPart ++ ':' :: portPart else label
  | none => label

def parseClientQueueName (name : Chars) : Option (PrinterName × Chars × ClientQueueName) :=
  let nameTrimmed := trim name
  (ClientQueueName.parse nameTrimmed).toOption.bind fun actualQueueName =>
    let baseName := (stripTrailingCopySuffix nameTrimmed).getD nameTrimmed
    (baseName.dropSuffix? [')']).bind fun withoutSuffix =>
      (rsplitOnce withoutSuffix " (ShaPrint ".toList).bind fun (printerRaw, label) =>
        (PrinterName.parse (.ofList printerRaw)).toOption.bind fun printerName =>
          let candidate := candidateAddress label
          (validateAddress candidate).toOption.bind fun _ =>
            (ClientQueueName.forSharedPrinter printerName candidate).toOption.bind fun expected =>
              if expected.value ≠ baseName then none
              else some (printerName, candidate, actualQueueName)

section

variable (sha256 : Bytes → Vector UInt8 32)

/-- The CUPS-safe destination name of a requested queue. -/
def ClientQueueRequest.cupsDestinationName (request : ClientQueueRequest) : Chars :=
  cupsDestinationFor sha256 request.printer request.serverAddress

/-- A record that points to the proxy's print path: its name must be the derived one. -/
def classifyDestination (nameTrimmed remainder : Chars) : SpoolerRecordClassification :=
  match remainder.splitOn '/' with
  | [server, printer] =>
      if server = [] ∨ printer = [] then .ambiguousClientQueue
      else
        let serverDecoded := percentDecode server
        match validateAddress serverDecoded with
        | .error _ => .ambiguousClientQueue
        | .ok _ =>
            match PrinterName.parse (.ofList (percentDecode printer)) with
            | .error _ => .ambiguousClientQueue
            | .ok printerName =>
                match ClientQueueName.forSharedPrinter printerName serverDecoded with
                | .error _ => .ambiguousClientQueue
                | .ok expectedQueueName =>
                    let expectedCupsName := cupsDestinationFor sha256 printerName serverDecoded
                    let baseName := (stripTrailingCopySuffix nameTrimmed).getD nameTrimmed
                    if expectedQueueName.value = baseName ∨ expectedCupsName = baseName then
                      match ClientQueueName.parse nameTrimmed with
                      | .error _ => .ambiguousClientQueue
                      | .ok actualQueueName =>
                          .recognisedClientQueue ⟨actualQueueName, serverDecoded, printerName⟩
                    else .ambiguousClientQueue
  | _ => .ambiguousClientQueue

/-- A record that is no client queue: a local printer, unless its port mentions the proxy
or a print endpoint. -/
def classifyLocal (nameTrimmed portTrimmed proxyAuthority : Chars) :
    SpoolerRecordClassification :=
  let portLower := toAsciiLower portTrimmed
  let isLoopback := (schemeRest portTrimmed).any fun rest =>
    isLoopbackAuthority (((splitOnce rest ['/']).map (·.1)).getD rest) proxyAuthority
  if (splitOnce portLower (toAsciiLower proxyAuthority)).isSome
      || (splitOnce portLower "/ipp/print/".toList).isSome || isLoopback then
    .ambiguousClientQueue
  else
    match PrinterName.parse (.ofList nameTrimmed) with
    | .ok printerName => .eligibleLocal printerName
    | .error _ => .ignored

/-- A record on a port of the WSD port monitor, which has only its name to go by. -/
def classifyNamed (nameTrimmed portTrimmed proxyAuthority : Chars) :
    SpoolerRecordClassification :=
  match parseClientQueueName nameTrimmed with
  | some (printerName, serverAddress, queueName) =>
      .recognisedClientQueue ⟨queueName, serverAddress, printerName⟩
  | none =>
      if (splitOnce nameTrimmed " (ShaPrint ".toList).isSome then .ambiguousClientQueue
      else classifyLocal nameTrimmed portTrimmed proxyAuthority

/-- Evaluates a spooler entry against the expected local proxy authority. -/
def SpoolerRecord.classify (record : SpoolerRecord) (proxyAuthority : Chars) :
    SpoolerRecordClassification :=
  let nameTrimmed := trim record.name
  let portTrimmed := trim record.port
  match (schemeRest portTrimmed).bind (printDestination proxyAuthority) with
  | some remainder => classifyDestination sha256 nameTrimmed remainder
  | none =>
      if "wsd-".toList.isPrefixOf (toAsciiLower portTrimmed) then
        classifyNamed nameTrimmed portTrimmed proxyAuthority
      else classifyLocal nameTrimmed portTrimmed proxyAuthority

end

end ShaPrint.Queue
