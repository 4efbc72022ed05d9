import ShaPrint.Client.ServerAddress
import ShaPrint.Endpoint.Address
import ShaPrint.Endpoint.Http

/-!
The URIs of the client proxy, from `adapters/client_proxy.rs`.

* `clientQueueUri`: the URI a native queue is installed with.
* `routeUri`, `routeFromRequestPath`: the server and the printer that a queue URI, or the
  path of a request, leads to.
* `remoteUri`, `requestHead`: the printer URI and the head that the proxy sends.
* `queueUri_roundTrip`: the URI of a queue leads back to its server and printer, and the
  request that the proxy makes of it reaches that printer.
-/

namespace ShaPrint.Client

open Split Digits Endpoint

/-- `ipp://{authority}/ipp/print/{server}/{printer}`, both encoded. -/
def queueUri (proxyAuthority serverAddress : Chars) (printerName : PrinterName) : Chars :=
  "ipp://".toList ++ proxyAuthority ++ "/ipp/print/".toList ++ percentEncode serverAddress
    ++ '/' :: percentEncode printerName.chars

/-- Builds the IPP URI a native queue uses to route through this proxy. -/
def clientQueueUri (proxyAuthority serverAddress printerName : Chars) : Except AppError Chars :=
  (normalizeAddress serverAddress).bind fun serverAddress =>
    (PrinterName.parse (.ofList printerName)).map (queueUri proxyAuthority serverAddress)

def notThisProxy : AppError :=
  .invalidInput "The printer queue does not point to this local proxy."

def invalidDestination : AppError :=
  .invalidInput "The local printer queue has an invalid destination."

/-- A path without its query and its fragment. -/
def cutQuery (path : Chars) : Chars := path.takeWhile fun c => c ≠ '?' && c ≠ '#'

/-- The server and the printer of `{server}/{printer}`. -/
def parseRoute (route : Chars) : Except AppError (Chars × PrinterName) :=
  let segments := route.splitOn '/'
  let server := segments.getD 0 []
  let printer := segments.getD 1 []
  if server = [] ∨ printer = [] ∨ 2 < segments.length then .error invalidDestination
  else
    (normalizeAddress (percentDecode server)).bind fun address =>
      (PrinterName.parse (.ofList (percentDecode printer))).map fun name => (address, name)

/-- The host of an authority, and its port if it names one. -/
def hostAndPort (authority : Chars) : Except AppError (Chars × Option ℕ) :=
  match rsplitOnce authority [':'] with
  | some (host, port) =>
      match parsePort port with
      | some port => .ok (host, some port)
      | none => .error invalidDestination
  | none => .ok (authority, none)

/-- The port of the proxy. -/
def proxyPort (proxyAuthority : Chars) : Option ℕ :=
  (rsplitOnce proxyAuthority [':']).bind fun (_, port) => parsePort port

/-- The server and the printer of a queue URI's path. -/
def routePath (path : Chars) : Except AppError (Chars × PrinterName) :=
  match (cutQuery path).dropPrefix? "ipp/print/".toList with
  | none => .error invalidDestination
  | some route => parseRoute route

/-- Splits a loopback queue URI into the server it targets and the validated queue name. -/
def routeUri (uri proxyAuthority : Chars) : Except AppError (Chars × PrinterName) :=
  match splitOnce uri "://".toList with
  | none => .error notThisProxy
  | some (scheme, remainder) =>
      if !eqIgnoreAsciiCase scheme "ipp".toList && !eqIgnoreAsciiCase scheme "http".toList then
        .error notThisProxy
      else
        match splitOnce remainder ['/'] with
        | none => .error invalidDestination
        | some (authority, path) =>
            (hostAndPort authority).bind fun (host, uriPort) =>
              if !eqIgnoreAsciiCase host "localhost".toList && host ≠ "127.0.0.1".toList then
                .error notThisProxy
              else if uriPort.any fun port => some port ≠ proxyPort proxyAuthority then
                .error notThisProxy
              else routePath path

/-- Uses the HTTP request path when the spooler omitted or rewrote `printer-uri`. -/
def routeFromRequestPath (path proxyAuthority : Chars) :
    Except AppError (Chars × PrinterName × Chars) :=
  match (cutQuery path).dropPrefix? "/ipp/print/".toList with
  | none => .error (.invalidInput "The HTTP request path has no printer destination.")
  | some route =>
      (parseRoute route).map fun (serverAddress, printerName) =>
        (serverAddress, printerName, queueUri proxyAuthority serverAddress printerName)

/-- The printer URI of a forwarded request. -/
def remoteUri (serverAddress : Chars) (printerName : PrinterName) : Chars :=
  "ipps://".toList ++ serverAddress ++ "/ipp/print/".toList ++ percentEncode printerName.chars

/-- The head of a forwarded request. -/
def requestHead (address : ServerAddress) (length : ℕ) : Chars :=
  "POST /ipp/print HTTP/1.1\r\nHost: ".toList ++ address.socket
    ++ "\r\nContent-Type: application/ipp\r\nContent-Length: ".toList ++ decimal length
    ++ "\r\nConnection: close\r\n\r\n".toList

/-! ### Destinations -/

lemma cutQuery_eq_self {path : Chars} (hquery : '?' ∉ path) (hfragment : '#' ∉ path) :
    cutQuery path = path := by
  refine List.takeWhile_eq_self_iff.mpr fun c hc => ?_
  have hq : c ≠ '?' := fun h => hquery (h ▸ hc)
  have hf : c ≠ '#' := fun h => hfragment (h ▸ hc)
  simp [hq, hf]

lemma normalized_ne_nil {input server : Chars} (h : normalizeAddress input = .ok server) :
    server ≠ [] := by
  rintro rfl
  have hnil := normalizeAddress_normalized h
  cases hnil

/-- The destination of a normalized server and a printer. -/
def destination (server : Chars) (printerName : PrinterName) : Chars :=
  percentEncode server ++ '/' :: percentEncode printerName.chars

lemma not_mem_destination {server : Chars} {printerName : PrinterName} {c : Char}
    (h : isUnreserved c = false) (hne : c ≠ '%' ∧ c ≠ '/') :
    c ∉ destination server printerName := by
  rw [destination, List.mem_append, List.mem_cons, not_or, not_or]
  exact ⟨not_mem_percentEncode h hne.1, hne.2, not_mem_percentEncode h hne.1⟩

lemma splitOn_destination (server : Chars) (printerName : PrinterName) :
    (destination server printerName).splitOn '/'
      = [percentEncode server, percentEncode printerName.chars] := by
  have hslash : ∀ value, '/' ∉ percentEncode value := fun value =>
    not_mem_percentEncode (by decide) (by decide)
  rw [destination, splitOn_append_cons (hslash _), splitOn_of_not_mem (hslash _)]

/-- A route of two segments leads to the server and the printer that they encode. -/
lemma parseRoute_of_splitOn {route server printer : Chars}
    (h : route.splitOn '/' = [server, printer]) (hserver : server ≠ []) (hprinter : printer ≠ []) :
    parseRoute route = (normalizeAddress (percentDecode server)).bind fun address =>
      (PrinterName.parse (.ofList (percentDecode printer))).map fun name => (address, name) := by
  have hcheck : ¬ (server = [] ∨ printer = [] ∨ 2 < [server, printer].length) := by
    rintro (h | h | h)
    · exact hserver h
    · exact hprinter h
    · simp at h
  unfold parseRoute
  simp only [h, List.getD_cons_zero, List.getD_cons_succ, if_neg hcheck]

/-- A destination leads to its server and its printer. -/
lemma parseRoute_destination {server : Chars} (hserver : normalizeAddress server = .ok server)
    (printerName : PrinterName) :
    parseRoute (destination server printerName) = .ok (server, printerName) := by
  rw [parseRoute_of_splitOn (splitOn_destination server printerName)
    (percentEncode_ne_nil (normalized_ne_nil hserver)) (percentEncode_ne_nil printerName.chars_ne_nil)]
  simp only [percentDecode_percentEncode, hserver, PrinterName.parse_chars, Except.bind, Except.map]

/-- The path of a queue URI. -/
def queuePath (server : Chars) (printerName : PrinterName) : Chars :=
  "/ipp/print/".toList ++ destination server printerName

lemma queueUri_eq (proxyAuthority server : Chars) (printerName : PrinterName) :
    queueUri proxyAuthority server printerName
      = "ipp://".toList ++ proxyAuthority ++ queuePath server printerName := by
  unfold queueUri queuePath destination
  simp only [List.append_assoc]

lemma cutQuery_queuePath (server : Chars) (printerName : PrinterName) :
    cutQuery (queuePath server printerName) = queuePath server printerName := by
  have hnot : ∀ c, isUnreserved c = false → c ≠ '%' ∧ c ≠ '/' → c ∉ "/ipp/print/".toList →
      c ∉ queuePath server printerName := by
    intro c hreserved hne hc
    unfold queuePath
    rw [List.mem_append, not_or]
    exact ⟨hc, not_mem_destination hreserved hne⟩
  exact cutQuery_eq_self (hnot '?' (by decide) (by decide) (by decide))
    (hnot '#' (by decide) (by decide) (by decide))

/-- The path of a queue URI leads to the server and the printer, and gives back the URI. -/
lemma routeFromRequestPath_queuePath {server : Chars} (hserver : normalizeAddress server = .ok server)
    (printerName : PrinterName) (proxyAuthority : Chars) :
    routeFromRequestPath (queuePath server printerName) proxyAuthority
      = .ok (server, printerName, queueUri proxyAuthority server printerName) := by
  have hdrop : (queuePath server printerName).dropPrefix? "/ipp/print/".toList
      = some (destination server printerName) := dropPrefix?_eq_some.mpr rfl
  unfold routeFromRequestPath
  simp only [cutQuery_queuePath, hdrop, parseRoute_destination hserver, Except.map]

/-! ### The authority of the proxy -/

/-- The authority of the proxy on a port. -/
def loopbackAuthority (port : UInt16) : Chars := "127.0.0.1:".toList ++ decimal port.toNat

lemma loopbackAuthority_eq (port : UInt16) :
    loopbackAuthority port = "127.0.0.1".toList ++ ':' :: decimal port.toNat := by
  unfold loopbackAuthority
  rw [show ("127.0.0.1:".toList : Chars) = "127.0.0.1".toList ++ [':'] by decide,
    List.append_assoc, List.singleton_append]

lemma rsplitOnce_loopbackAuthority (port : UInt16) :
    rsplitOnce (loopbackAuthority port) [':'] = some ("127.0.0.1".toList, decimal port.toNat) := by
  rw [rsplitOnce_singleton]
  exact ⟨loopbackAuthority_eq port, fun h => absurd (isDigit_of_mem_decimal h) (by decide)⟩

lemma parsePort_decimal (port : UInt16) : parsePort (decimal port.toNat) = some port.toNat :=
  parseUnsigned_decimal (Nat.le_of_lt_succ port.toNat_lt)

lemma proxyPort_loopbackAuthority (port : UInt16) :
    proxyPort (loopbackAuthority port) = some port.toNat := by
  rw [proxyPort, rsplitOnce_loopbackAuthority]
  exact parsePort_decimal port

lemma hostAndPort_loopbackAuthority (port : UInt16) :
    hostAndPort (loopbackAuthority port) = .ok ("127.0.0.1".toList, some port.toNat) := by
  rw [hostAndPort, rsplitOnce_loopbackAuthority]
  simp only [parsePort_decimal]

lemma slash_not_mem_loopbackAuthority (port : UInt16) : '/' ∉ loopbackAuthority port := by
  unfold loopbackAuthority
  rw [List.mem_append, not_or]
  exact ⟨by decide, fun h => absurd (isDigit_of_mem_decimal h) (by decide)⟩

/-- The URI of a queue is routed to its server and its printer. -/
lemma routeUri_queueUri {server : Chars} (hserver : normalizeAddress server = .ok server)
    (printerName : PrinterName) (port : UInt16) :
    routeUri (queueUri (loopbackAuthority port) server printerName) (loopbackAuthority port)
      = .ok (server, printerName) := by
  have huri : queueUri (loopbackAuthority port) server printerName = "ipp".toList
      ++ "://".toList ++ (loopbackAuthority port ++ queuePath server printerName) := by
    rw [queueUri_eq, show ("ipp://".toList : Chars) = "ipp".toList ++ "://".toList by decide]
    simp only [List.append_assoc]
  have hpath : queuePath server printerName
      = '/' :: ("ipp/print/".toList ++ destination server printerName) := by
    unfold queuePath
    rw [show ("/ipp/print/".toList : Chars) = '/' :: "ipp/print/".toList by decide,
      List.cons_append]
  have hsplit : splitOnce (loopbackAuthority port ++ queuePath server printerName) ['/']
      = some (loopbackAuthority port, "ipp/print/".toList ++ destination server printerName) := by
    rw [hpath]
    exact splitOnce_singleton.mpr ⟨rfl, slash_not_mem_loopbackAuthority port⟩
  have hcut : cutQuery ("ipp/print/".toList ++ destination server printerName)
      = "ipp/print/".toList ++ destination server printerName := by
    have hcut := cutQuery_queuePath server printerName
    rw [hpath] at hcut
    exact (List.cons.inj hcut).2
  have hdrop : ("ipp/print/".toList ++ destination server printerName).dropPrefix?
      "ipp/print/".toList = some (destination server printerName) := dropPrefix?_eq_some.mpr rfl
  have hscheme : eqIgnoreAsciiCase "ipp".toList "ipp".toList = true := eqIgnoreAsciiCase_self _
  unfold routeUri
  rw [huri, splitOnce_scheme (by decide)]
  simp only [hscheme, Bool.not_true, Bool.false_and, Bool.false_eq_true, if_false, hsplit,
    hostAndPort_loopbackAuthority, Except.bind, proxyPort_loopbackAuthority, Option.any_some,
    ne_eq, not_true_eq_false, decide_false, Bool.and_false, routePath, hcut, hdrop,
    parseRoute_destination hserver]

/-! ### The request to the server -/

lemma socket_eq_normalized {input : Chars} {address : ServerAddress}
    (h : ServerAddress.parse input = .ok address) : address.socket = address.normalized :=
  (canonical_of_parse h).2.symm

/-- The lines of a forwarded request's head. -/
lemma lines_requestHead {input : Chars} {address : ServerAddress}
    (h : ServerAddress.parse input = .ok address) (length : ℕ) :
    ((requestHead address length).splitOn '\n').map stripCr
      = ["POST /ipp/print HTTP/1.1".toList, "Host".toList ++ ':' :: ' ' :: address.socket,
        "Content-Type".toList ++ ':' :: " application/ipp".toList,
        "Content-Length".toList ++ ':' :: ' ' :: decimal length,
        "Connection".toList ++ ':' :: " close".toList, [], []] := by
  have hsocket : '\n' ∉ address.socket := fun hc =>
    absurd (isAddressChar_ne ((canonical_of_parse h).1.mem_withPort hc)).1 (by decide)
  have hdecimal : '\n' ∉ decimal length := fun hc =>
    absurd (isDigit_of_mem_decimal hc) (by decide)
  have htext : requestHead address length = "POST /ipp/print HTTP/1.1".toList ++ "\r\n".toList
      ++ (("Host".toList ++ ':' :: ' ' :: address.socket) ++ "\r\n".toList
      ++ (("Content-Type".toList ++ ':' :: " application/ipp".toList) ++ "\r\n".toList
      ++ (("Content-Length".toList ++ ':' :: ' ' :: decimal length) ++ "\r\n".toList
      ++ (("Connection".toList ++ ':' :: " close".toList) ++ "\r\n".toList
      ++ ([] ++ "\r\n".toList ++ []))))) := by
    have h1 : ("POST /ipp/print HTTP/1.1\r\nHost: ".toList : Chars)
        = "POST /ipp/print HTTP/1.1".toList ++ "\r\n".toList ++ "Host".toList ++ [':', ' '] := by
      decide
    have h2 : ("\r\nContent-Type: application/ipp\r\nContent-Length: ".toList : Chars)
        = "\r\n".toList ++ "Content-Type".toList ++ ':' :: " application/ipp".toList
          ++ "\r\n".toList ++ "Content-Length".toList ++ [':', ' '] := by
      decide
    have h3 : ("\r\nConnection: close\r\n\r\n".toList : Chars)
        = "\r\n".toList ++ "Connection".toList ++ ':' :: " close".toList ++ "\r\n".toList
          ++ "\r\n".toList := by
      decide
    unfold requestHead
    rw [h1, h2, h3]
    simp only [List.append_assoc, List.cons_append, List.nil_append, List.append_nil]
  have hnot : ∀ name value : Chars, '\n' ∉ name → '\n' ∉ value → '\n' ∉ name ++ ':' :: value := by
    intro name value hname hvalue
    rw [List.mem_append, List.mem_cons, not_or, not_or]
    exact ⟨hname, by decide, hvalue⟩
  have hspace : ∀ value : Chars, '\n' ∉ value → '\n' ∉ ' ' :: value := by
    intro value hvalue
    rw [List.mem_cons, not_or]
    exact ⟨by decide, hvalue⟩
  rw [htext, splitOn_crlf (by decide), splitOn_crlf (hnot _ _ (by decide) (hspace _ hsocket)),
    splitOn_crlf (by decide), splitOn_crlf (hnot _ _ (by decide) (hspace _ hdecimal)),
    splitOn_crlf (by decide), splitOn_crlf (by decide)]
  have hlast : (([] : Chars).splitOn '\n').map stripCr = [[]] := by decide
  rw [hlast]

/-- A forwarded request's head, as the endpoint reads it. -/
def parsedHead (address : ServerAddress) (length : ℕ) : Head where
  method := "POST".toList
  path := "/ipp/print".toList
  headers := [("Host".toList, address.socket), ("Content-Type".toList, "application/ipp".toList),
    ("Content-Length".toList, decimal length), ("Connection".toList, "close".toList)]

lemma trim_decimal (n : ℕ) : trim (decimal n) = decimal n := by
  have hdigit : ∀ c ∈ decimal n, isWhitespace c = false := fun c hc =>
    (isAddressChar_ne (isAddressChar_of_isHostChar (isHostChar_of_mem_decimal hc))).1
  exact trimBoth_of_trimmed ⟨fun c hc => hdigit c (List.mem_of_mem_head? hc),
    fun c hc => hdigit c (List.mem_of_getLast? hc)⟩

lemma parseHead_requestHead {input : Chars} {address : ServerAddress}
    (h : ServerAddress.parse input = .ok address) (length : ℕ) :
    parseHead (utf8 (requestHead address length)) = .ok (parsedHead address length) := by
  have htrim : trim address.socket = address.socket := (canonical_of_parse h).1.trim_withPort
  have hvalue : trim (' ' :: address.socket) = address.socket :=
    (trimBoth_append (p := [' ']) (List.all_iff_forall_prop.mp (by decide))).trans htrim
  have hwords : splitWhitespace "POST /ipp/print HTTP/1.1".toList
      = ["POST".toList, "/ipp/print".toList, "HTTP/1.1".toList] := by decide
  have hversion : "HTTP/".toList.isPrefixOf "HTTP/1.1".toList = true := by decide
  have hhost : trim "Host".toList = "Host".toList := by decide
  have htype : (trim "Content-Type".toList, trim " application/ipp".toList)
      = ("Content-Type".toList, "application/ipp".toList) := by decide
  have hlength : trim "Content-Length".toList = "Content-Length".toList := by decide
  have hdecimal : trim (' ' :: decimal length) = decimal length :=
    (trimBoth_append (p := [' ']) (List.all_iff_forall_prop.mp (by decide))).trans
      (trim_decimal length)
  have hclose : (trim "Connection".toList, trim " close".toList)
      = ("Connection".toList, "close".toList) := by decide
  unfold parseHead
  rw [fromUtf8Lossy_utf8, lines_requestHead h]
  simp only [hwords, hversion, Bool.not_true, Bool.false_eq_true, if_false]
  rw [parseHeaders_cons (by decide), parseHeaders_cons (by decide), parseHeaders_cons (by decide),
    parseHeaders_cons (by decide), parseHeaders, if_pos rfl, hvalue, hhost, htype, hlength, hclose,
    hdecimal]
  rfl

lemma authority_parsedHead {input : Chars} {address : ServerAddress}
    (h : ServerAddress.parse input = .ok address) (length : ℕ) :
    authority (parsedHead address length) = some address.socket := by
  have htrim : trim address.socket = address.socket := (canonical_of_parse h).1.trim_withPort
  have hname : eqIgnoreAsciiCase "Host".toList "host".toList = true := by decide
  have hne : address.socket ≠ [] := withPort_ne_nil _ _
  unfold authority Head.header parsedHead
  simp only [List.find?_cons, hname, Option.map_some, Option.bind_some, htrim]
  exact if_pos hne

/-- The endpoint takes the address that the client connects to for its authority. -/
lemma authority_requestHead {input : Chars} {address : ServerAddress}
    (h : ServerAddress.parse input = .ok address) (length : ℕ) :
    ∃ head, parseHead (utf8 (requestHead address length)) = .ok head
      ∧ authority head = some address.socket :=
  ⟨_, parseHead_requestHead h length, authority_parsedHead h length⟩

/-- **The URI of a queue, through the proxy.** For every accepted server address, printer
and proxy port, the URI that a queue is installed with leads the proxy to the normalized
address and the printer; so does the path of a request to it, which gives the URI back. The
request that the proxy then sends reaches a shared printer of that name, with the `Host` of
the client's connection, unless another shared name differs from it only in letter case. -/
theorem queueUri_roundTrip {input printer server : Chars} {name : PrinterName}
    (hserver : normalizeAddress input = .ok server)
    (hprinter : PrinterName.parse (.ofList printer) = .ok name) (port : UInt16) :
    ∃ uri path, clientQueueUri (loopbackAuthority port) input printer = .ok uri
      ∧ uri = "ipp://".toList ++ loopbackAuthority port ++ path
      ∧ routeUri uri (loopbackAuthority port) = .ok (server, name)
      ∧ routeFromRequestPath path (loopbackAuthority port) = .ok (server, name, uri)
      ∧ ∃ address, ServerAddress.parse server = .ok address
        ∧ ∀ length, ∃ head host, parseHead (utf8 (requestHead address length)) = .ok head
          ∧ authority head = some host
          ∧ ∀ shared : SharedPrinters, name ∈ shared.names →
            (∀ other ∈ shared.names, eqIgnoreAsciiCase other.chars name.chars = true →
              other = name) →
            findByUri shared.names host (remoteUri server name) = some name := by
  have hself := normalizeAddress_normalized hserver
  obtain ⟨address, haddress, hnormalized⟩ : ∃ address, ServerAddress.parse server = .ok address
      ∧ address.normalized = server := by
    unfold normalizeAddress at hself
    cases hparse : ServerAddress.parse server with
    | error e =>
        rw [hparse] at hself
        cases hself
    | ok address =>
        rw [hparse] at hself
        exact ⟨address, rfl, Except.ok.inj hself⟩
  have hsocket : address.socket = server := (socket_eq_normalized haddress).trans hnormalized
  refine ⟨queueUri (loopbackAuthority port) server name, queuePath server name, ?_,
    queueUri_eq _ _ _, routeUri_queueUri hself name port,
    routeFromRequestPath_queuePath hself name _, address, haddress, fun length => ?_⟩
  · unfold clientQueueUri
    simp only [hserver, hprinter, Except.bind, Except.map]
  · obtain ⟨head, hhead, hauthority⟩ := authority_requestHead haddress length
    refine ⟨head, address.socket, hhead, hauthority, fun shared hshared hdistinct => ?_⟩
    have hslash : '/' ∉ server := by
      rw [← hsocket]
      intro hc
      exact (isAddressChar_ne ((canonical_of_parse haddress).1.mem_withPort hc)).2 (by decide)
    have hlookup : findByUri shared.names address.socket (remoteUri server name)
        = findByName shared.names name.chars :=
      findByUri_ippUri shared.names name.chars (normalized_ne_nil hself) hslash
        (by rw [hsocket]; exact eqIgnoreAsciiCase_self server)
    rw [hlookup, findByName_self_iff hshared]
    intro other hother
    have hmem : other ∈ shared.names := (List.takeWhile_sublist _).mem hother
    have hne : other ≠ name := by simpa using List.mem_takeWhile_imp hother
    by_contra hsame
    exact hne (hdistinct other hmem (by simpa using hsame))

/-- A queue whose printer name needs escapes, on an IPv6 server. -/
def labelPrinter : PrinterName := ⟨"50% A/B?", by decide, by decide, by decide, by decide⟩

theorem labelPrinter_roundTrip :
    ∃ uri path, clientQueueUri (loopbackAuthority 48632) "[2001:DB8::1]".toList
          " 50% A/B?".toList = .ok uri
      ∧ uri = "ipp://".toList ++ loopbackAuthority 48632 ++ path
      ∧ routeUri uri (loopbackAuthority 48632)
        = .ok ("[2001:db8::1]:48631".toList, labelPrinter)
      ∧ routeFromRequestPath path (loopbackAuthority 48632)
        = .ok ("[2001:db8::1]:48631".toList, labelPrinter, uri)
      ∧ ∃ address, ServerAddress.parse "[2001:db8::1]:48631".toList = .ok address
        ∧ ∀ length, ∃ head host, parseHead (utf8 (requestHead address length)) = .ok head
          ∧ authority head = some host
          ∧ ∀ shared : SharedPrinters, labelPrinter ∈ shared.names →
            (∀ other ∈ shared.names, eqIgnoreAsciiCase other.chars labelPrinter.chars = true →
              other = labelPrinter) →
            findByUri shared.names host (remoteUri "[2001:db8::1]:48631".toList labelPrinter)
              = some labelPrinter :=
  queueUri_roundTrip
    (by decide : normalizeAddress "[2001:DB8::1]".toList = .ok "[2001:db8::1]:48631".toList)
    (by decide : PrinterName.parse (.ofList " 50% A/B?".toList) = .ok labelPrinter) 48632

end ShaPrint.Client
