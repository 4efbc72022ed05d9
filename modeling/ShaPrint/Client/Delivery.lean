import ShaPrint.Client.Route
import ShaPrint.Connections.Connections
import ShaPrint.Endpoint.Authorization
import ShaPrint.Endpoint.Exchange
import ShaPrint.Endpoint.Service

/-!
A request on its way through the client proxy: what the spooler sends to a queue on the local
machine, `serve_client` of `adapters/client_proxy.rs` routes, `forward_ipp` of
`adapters/client_connections.rs` sends with the Network Channel, and the endpoint of the server
answers.

* `destinationOf`: the server and the printer of a request, by its printer URI or its path.
* `admission_httpRequest`, `forwardAnswered_answerResponse`: the endpoint reads what the proxy
  writes, and the proxy what the endpoint writes.
* `SameWish`, `SameWish.wishOf`: a request in which only the printer and the channel changed asks
  for the same.
* `delivered`: the endpoint does for the shared printer what the request asks of its queue.
-/

namespace ShaPrint.Client

open Ipp Endpoint Channel Connections BigEndian Digits Net

/-! ### Destinations -/

/-- The server and the printer a request is for, with the URI of the queue. -/
def destinationOf (r : Request) (path proxyAuthority : Chars) :
    Option (Chars × PrinterName × Chars) :=
  ((r.value "printer-uri").bind fun localUri =>
      (routeUri localUri.toList proxyAuthority).toOption.map fun (server, printer) =>
        (server, printer, localUri.toList)).or
    (routeFromRequestPath path proxyAuthority).toOption

/-- A route leads to a normalized address. -/
lemma normalized_of_parseRoute {route server : Chars} {printer : PrinterName}
    (h : parseRoute route = .ok (server, printer)) : normalizeAddress server = .ok server := by
  unfold parseRoute at h
  dsimp only at h
  split at h
  · cases h
  obtain ⟨address, haddress, h⟩ := except_bind_eq_ok.mp h
  obtain ⟨name, -, h⟩ := except_map_eq_ok.mp h
  obtain ⟨rfl, -⟩ := Prod.mk.inj h
  exact normalizeAddress_normalized haddress

lemma normalized_of_routeUri {uri proxyAuthority server : Chars} {printer : PrinterName}
    (h : routeUri uri proxyAuthority = .ok (server, printer)) :
    normalizeAddress server = .ok server := by
  unfold routeUri at h
  split at h
  · cases h
  split at h
  · cases h
  split at h
  · cases h
  obtain ⟨⟨host, uriPort⟩, -, h⟩ := except_bind_eq_ok.mp h
  dsimp only at h
  split at h
  · cases h
  split at h
  · cases h
  unfold routePath at h
  split at h
  · cases h
  · exact normalized_of_parseRoute h

lemma normalized_of_routeFromRequestPath {path proxyAuthority server localUri : Chars}
    {printer : PrinterName}
    (h : routeFromRequestPath path proxyAuthority = .ok (server, printer, localUri)) :
    normalizeAddress server = .ok server := by
  unfold routeFromRequestPath at h
  split at h
  · cases h
  obtain ⟨⟨address, name⟩, hroute, h⟩ := except_map_eq_ok.mp h
  obtain ⟨rfl, -⟩ := Prod.mk.inj h
  exact normalized_of_parseRoute hroute

lemma toOption_eq_some {ε α : Type*} {x : Except ε α} {a : α} :
    x.toOption = some a ↔ x = .ok a := by
  cases x <;> simp [Except.toOption]

/-- The server of a destination is written as the client connects to it. -/
lemma normalized_of_destinationOf {r : Request} {path proxyAuthority server localUri : Chars}
    {printer : PrinterName}
    (h : destinationOf r path proxyAuthority = some (server, printer, localUri)) :
    ∃ address, ServerAddress.parse server = .ok address ∧ address.socket = server := by
  have hself : normalizeAddress server = .ok server := by
    rcases Option.or_eq_some_iff.mp h with h | ⟨-, h⟩
    · obtain ⟨uri, -, h⟩ := Option.bind_eq_some_iff.mp h
      obtain ⟨⟨server', printer'⟩, hroute, h⟩ := Option.map_eq_some_iff.mp h
      obtain ⟨rfl, -⟩ := Prod.mk.inj h
      exact normalized_of_routeUri (toOption_eq_some.mp hroute)
    · exact normalized_of_routeFromRequestPath (toOption_eq_some.mp h)
  obtain ⟨address, haddress, hnormalized⟩ := except_map_eq_ok.mp hself
  exact ⟨address, haddress, (socket_eq_normalized haddress).trans hnormalized⟩

/-! ### The exchange with the server -/

lemma requestHead_eq (address : ServerAddress) (length : ℕ) :
    requestHead address length = headOf ["POST /ipp/print HTTP/1.1".toList,
      "Host: ".toList ++ address.socket, "Content-Type: application/ipp".toList,
      "Content-Length: ".toList ++ decimal length, "Connection: close".toList] := by
  have h1 : ("POST /ipp/print HTTP/1.1\r\nHost: ".toList : Chars)
      = "POST /ipp/print HTTP/1.1".toList ++ "\r\n".toList ++ "Host: ".toList := by
    decide
  have h2 : ("\r\nContent-Type: application/ipp\r\nContent-Length: ".toList : Chars)
      = "\r\n".toList ++ "Content-Type: application/ipp".toList ++ "\r\n".toList
        ++ "Content-Length: ".toList := by
    decide
  have h3 : ("\r\nConnection: close\r\n\r\n".toList : Chars)
      = "\r\n".toList ++ "Connection: close".toList ++ "\r\n".toList ++ "\r\n".toList := by
    decide
  unfold requestHead headOf
  rw [h1, h2, h3]
  simp only [List.flatMap_cons, List.flatMap_nil, List.append_assoc, List.nil_append]

lemma length_socket_le {input : Chars} {address : ServerAddress}
    (h : ServerAddress.parse input = .ok address) : address.socket.length ≤ 262 := by
  obtain ⟨hcanonical, -⟩ := canonical_of_parse h
  unfold ServerAddress.socket withPort
  generalize address.host = host at hcanonical
  generalize address.port = port at hcanonical
  have hdecimal : port ≤ 65535 → (decimal port).length ≤ 5 := fun hport =>
    length_decimal_le (by decide) (by omega)
  cases hcanonical with
  | host hhost hpos hport =>
      have hlength := hhost.length_le
      have hport := hdecimal hport
      rw [if_neg hhost.no_colon, List.length_append, List.length_cons]
      omega
  | ipv6 groups hgroups hpos hport =>
      have hlength := length_ipv6ToChars_le hgroups
      have hport := hdecimal hport
      rw [if_pos (colon_mem_ipv6ToChars hgroups), List.length_append, List.length_append,
        List.length_cons, show "]:".toList.length = 2 by decide]
      omega

lemma length_requestHead_le {input : Chars} {address : ServerAddress}
    (h : ServerAddress.parse input = .ok address) {length : ℕ}
    (hlength : length ≤ Endpoint.maxBodyBytes) :
    (utf8 (requestHead address length)).length ≤ Endpoint.maxHeadBytes := by
  have hdigits : (decimal length).length ≤ 8 :=
    length_decimal_le (by decide) (lt_of_le_of_lt hlength (by decide))
  have hsocket := length_socket_le h
  have hle := length_utf8_le (requestHead address length)
  have h1 : "POST /ipp/print HTTP/1.1\r\nHost: ".toList.length = 32 := by decide
  have h2 : "\r\nContent-Type: application/ipp\r\nContent-Length: ".toList.length = 49 := by
    decide
  have h3 : "\r\nConnection: close\r\n\r\n".toList.length = 23 := by decide
  unfold requestHead at hle ⊢
  rw [List.length_append, List.length_append, List.length_append, List.length_append, h1, h2,
    h3] at hle
  unfold Endpoint.maxHeadBytes
  omega

/-- The endpoint admits what the proxy writes, however it arrives. -/
lemma admission_httpRequest {input : Chars} {address : ServerAddress}
    (h : ServerAddress.parse input = .ok address) {body : Bytes}
    (hbody : body.length ≤ Endpoint.maxBodyBytes)
    {t : Transport} (ht : t.bytes = httpRequest address body) :
    admission true t = .admitted [] body address.socket := by
  have hstream : t.bytes = utf8 (requestHead address body.length) ++ body := ht
  have hfeed : '\n' ∉ address.socket := fun hc =>
    absurd (isAddressChar_ne ((canonical_of_parse h).1.mem_withPort hc)).1 (by decide)
  have hdigits : '\n' ∉ decimal body.length := fun hc =>
    absurd (isDigit_of_mem_decimal hc) (by decide)
  have hlines : AreLines ["POST /ipp/print HTTP/1.1".toList,
      "Host: ".toList ++ address.socket, "Content-Type: application/ipp".toList,
      "Content-Length: ".toList ++ decimal body.length, "Connection: close".toList] := by
    intro line hline
    simp only [List.mem_cons, List.not_mem_nil, or_false] at hline
    rcases hline with rfl | rfl | rfl | rfl | rfl
    · decide
    · exact ⟨List.not_mem_append (by decide) hfeed, List.append_ne_nil_of_left_ne_nil (by decide) _⟩
    · decide
    · exact ⟨List.not_mem_append (by decide) hdigits,
        List.append_ne_nil_of_left_ne_nil (by decide) _⟩
    · decide
  have hblank : FirstBlank t.bytes (utf8 (requestHead address body.length)).length := by
    rw [hstream, requestHead_eq]
    exact firstBlank_headOf hlines body
  have hhead : readHead t = .ok (parsedHead address body.length, body) := by
    refine ((readHead_reads t).accepts _ _).mpr ⟨_, hblank, length_requestHead_le h hbody, ?_, ?_⟩
    · rw [hstream, List.take_left]
      exact parseHead_requestHead h _
    · rw [hstream, List.drop_left]
  have hlength : bodyLength (parsedHead address body.length) = .ok body.length := by
    refine bodyLength_eq_ok.mpr ⟨rfl, rfl, ⟨"application/ipp".toList, rfl, by decide⟩,
      decimal body.length, rfl, ?_, hbody⟩
    rw [trim_decimal]
    exact parseUnsigned_decimal (hbody.trans (by decide))
  have hcontinue : (parsedHead address body.length).expectsContinue = false := rfl
  unfold admission
  simp only [hhead, hlength, hcontinue, authority_parsedHead h, Bool.not_true, Bool.false_eq_true,
    if_false, lt_irrefl, List.take_length]

/-- The proxy takes the answer out of the response. -/
lemma forwardAnswered_answerResponse {answer : Bytes} (hlong : 9 ≤ answer.length)
    (hshort : answer.length ≤ maxResponse) :
    forwardAnswered (.ok (answerResponse answer)) = .ok answer := by
  have hdigits : '\n' ∉ decimal answer.length := fun hc =>
    absurd (isDigit_of_mem_decimal hc) (by decide)
  have hlines : AreLines (["HTTP/1.1 ".toList ++ "200 OK".toList,
      "Content-Type: ".toList ++ "application/ipp".toList,
      "Content-Length: ".toList ++ decimal answer.length] ++ ["Connection: close".toList]) := by
    intro line hline
    simp only [List.cons_append, List.nil_append, List.mem_cons, List.not_mem_nil, or_false]
      at hline
    rcases hline with rfl | rfl | rfl | rfl
    · decide
    · decide
    · exact ⟨List.not_mem_append (by decide) hdigits,
        List.append_ne_nil_of_left_ne_nil (by decide) _⟩
    · decide
  have hlength : (answerResponse answer).length ≤ maxResponse + 8192 := by
    have hdecimal : (decimal answer.length).length ≤ 8 :=
      length_decimal_le (by decide) (lt_of_le_of_lt hshort (by decide))
    have hle := length_utf8_le ("HTTP/1.1 ".toList ++ "200 OK".toList ++ "\r\nContent-Type: ".toList
      ++ "application/ipp".toList ++ "\r\nContent-Length: ".toList ++ decimal answer.length
      ++ "\r\nConnection: close\r\n\r\n".toList)
    have h1 : ("HTTP/1.1 ".toList ++ "200 OK".toList ++ "\r\nContent-Type: ".toList
      ++ "application/ipp".toList ++ "\r\nContent-Length: ".toList).length = 64 := by decide
    have h2 : "\r\nConnection: close\r\n\r\n".toList.length = 23 := by decide
    rw [List.length_append, List.length_append, h1, h2] at hle
    rw [answerResponse, httpResponse, List.length_append]
    omega
  have hstatus : ∀ rest, (utf8 "HTTP/1.1 200".toList).isPrefixOf
      (utf8 ("HTTP/1.1 ".toList ++ "200 OK".toList) ++ rest) = true := fun rest => by
    have hsplit : utf8 ("HTTP/1.1 ".toList ++ "200 OK".toList)
        = utf8 "HTTP/1.1 200".toList ++ utf8 " OK".toList := by decide
    rw [hsplit, List.append_assoc, List.isPrefixOf_iff_prefix]
    exact List.prefix_append _ _
  unfold forwardAnswered responseBody
  dsimp only
  rw [List.take_of_length_le hlength, answerResponse, httpResponse_eq, splitOnce_headOf hlines]
  simp only [List.map_cons, joinLines, List.flatMap_cons, lineBytes, List.append_assoc, hstatus,
    if_true, Except.bind, hlong, hshort, and_self]

/-! ### What a forwarded request asks for -/

/-- The names of the attributes that the proxy passes on. -/
def IsKept (name : String) : Prop := name ≠ "printer-uri" ∧ name ≠ "network-channel"

instance (name : String) : Decidable (IsKept name) := inferInstanceAs (Decidable (_ ∧ _))

/-- The requests differ in the printer and the channel alone. -/
structure SameWish (r r' : Request) : Prop where
  version : r'.version = r.version
  operation : r'.operation = r.operation
  requestId : r'.requestId = r.requestId
  document : r'.document = r.document
  find : ∀ name, IsKept name → r'.find name = r.find name

namespace SameWish

variable {r r' : Request} (h : SameWish r r')

include h

lemma value {name : String} (hname : IsKept name) : r'.value name = r.value name := by
  rw [Request.value, h.find name hname, Request.value]

lemma textValues {name : String} (hname : IsKept name) :
    r'.textValues name = r.textValues name := by
  rw [Request.textValues, h.find name hname, Request.textValues]

lemma integer {name : String} (hname : IsKept name) : r'.integer name = r.integer name := by
  rw [Request.integer, h.find name hname, Request.integer]

lemma boolean {name : String} (hname : IsKept name) : r'.boolean name = r.boolean name := by
  rw [Request.boolean, h.find name hname, Request.boolean]

lemma hasAttribute {name : String} (hname : IsKept name) :
    r'.hasAttribute name = r.hasAttribute name := by
  have hfind : ∀ q : Request, q.hasAttribute name = (q.find name).isSome := fun q => by
    rw [Request.hasAttribute, Request.find, List.isSome_find?]
  rw [hfind, hfind, h.find name hname]

lemma versionIsSupported : r'.versionIsSupported = r.versionIsSupported := by
  rw [Request.versionIsSupported, h.version, Request.versionIsSupported]

lemma headerOf : headerOf r' = headerOf r := by
  rw [Endpoint.headerOf, Endpoint.headerOf, Request.responseVersion, h.versionIsSupported,
    h.version, h.requestId, Request.responseVersion]

lemma media : r'.media = r.media := by
  rw [Request.media, Request.media, h.value (by decide), h.find _ (by decide)]

lemma jobSettings : jobSettings r' = jobSettings r := by
  have hcolor : requestedColor r' = requestedColor r := by
    rw [requestedColor, requestedColor, h.value (by decide)]
  have hduplex : requestedDuplex r' = requestedDuplex r := by
    rw [requestedDuplex, requestedDuplex, h.value (by decide)]
  have hcopies : requestedCopies r' = requestedCopies r := by
    rw [requestedCopies, requestedCopies, h.integer (by decide)]
  have horientation : requestedOrientation r' = requestedOrientation r := by
    rw [requestedOrientation, requestedOrientation, h.integer (by decide)]
  have hquality : requestedQuality r' = requestedQuality r := by
    rw [requestedQuality, requestedQuality, h.integer (by decide), h.value (by decide),
      h.hasAttribute (by decide)]
  rw [Endpoint.jobSettings, Endpoint.jobSettings, h.media, hcolor, hduplex, hcopies, horientation,
    hquality]

/-- A request in which only the printer and the channel changed asks for the same. -/
lemma wishOf : wishOf r' = wishOf r := by
  have hraster : namesRaster r' = namesRaster r := by
    rw [namesRaster, namesRaster, h.value (by decide)]
  have hformat : wrongFormat r' = wrongFormat r := by
    rw [wrongFormat, wrongFormat, h.value (by decide)]
  have hjob : jobIdOf r' = jobIdOf r := by
    rw [jobIdOf, jobIdOf, h.integer (by decide)]
  have hname : r'.value "job-name" = r.value "job-name" := h.value (by decide)
  have hwhich : r'.value "which-jobs" = r.value "which-jobs" := h.value (by decide)
  have hlast : r'.boolean "last-document" = r.boolean "last-document" := h.boolean (by decide)
  have hrequested : r'.textValues "requested-attributes" = r.textValues "requested-attributes" :=
    h.textValues (by decide)
  rw [Endpoint.wishOf, Endpoint.wishOf, h.versionIsSupported, h.operation, h.document, hraster,
    hformat, h.jobSettings, hjob, hname, hwhich, hlast, hrequested]

end SameWish

/-- A forwarded request asks for the same. -/
lemma sameWish_of_forwarded {r r' : Request} {remotePrinterUri : String}
    {networkChannel : Option String} (hversion : r'.version = r.version)
    (hoperation : r'.operation = r.operation) (hid : r'.requestId = r.requestId)
    (hdocument : r'.document = r.document)
    (hattributes : r'.attributes
      = forwardedAttributes remotePrinterUri networkChannel r.attributes) : SameWish r r' where
  version := hversion
  operation := hoperation
  requestId := hid
  document := hdocument
  find name hname := by
    rw [Request.find, hattributes, Request.find]
    exact find_forwardedAttributes_kept hname.1 hname.2 _ _ _

/-! ### Delivery -/

lemma length_remoteUri_le {input : Chars} {address : ServerAddress}
    (h : ServerAddress.parse input = .ok address) (printer : PrinterName) :
    (asBytes (.ofList (remoteUri address.socket printer))).length < 65536 := by
  have hsocket := length_socket_le h
  have hencoded := length_percentEncode_le printer.chars
  have hname := length_utf8_le printer.chars
  have hshort : printer.chars.length ≤ 220 := printer.length_le
  have hle := length_utf8_le (remoteUri address.socket printer)
  have h1 : "ipps://".toList.length = 7 := by decide
  have h2 : "/ipp/print/".toList.length = 11 := by decide
  unfold remoteUri at hle ⊢
  rw [List.length_append, List.length_append, List.length_append, h1, h2] at hle
  rw [asBytes_eq_utf8, String.toList_ofList]
  omega

lemma trimEndNul_remoteUri {input : Chars} {address : ServerAddress}
    (h : ServerAddress.parse input = .ok address) (printer : PrinterName) :
    trimEndNul (.ofList (remoteUri address.socket printer))
      = .ofList (remoteUri address.socket printer) := by
  refine trimEndNul_of_not_mem ?_
  have hsocket : '\x00' ∉ address.socket := fun hc =>
    absurd ((canonical_of_parse h).1.mem_withPort hc) (by decide)
  have hname : '\x00' ∉ percentEncode printer.chars := not_mem_percentEncode (by decide) (by decide)
  rw [String.toList_ofList]
  unfold remoteUri
  exact List.not_mem_append (List.not_mem_append (List.not_mem_append (by decide) hsocket)
    (by decide)) hname

/-- The operations that the proxy adds the Network Channel to. -/
def carriesChannel (operation : ℕ) : Bool :=
  operation = operationPrintJob || operation = operationValidateJob
    || operation = operationCreateJob || operation = operationSendDocument
    || operation = operationCancelJob || operation = operationGetJobAttributes
    || operation = operationGetJobs

/-- The channel that a request is sent on with. -/
def sentChannel (operation : ℕ) (secret : String) : Option String :=
  if carriesChannel operation then some secret else none

lemma not_carriesChannel {operation : ℕ} (h : carriesChannel operation = false) :
    isMultiStep operation = false
      ∧ operation ≠ operationPrintJob ∧ operation ≠ operationValidateJob := by
  simp only [carriesChannel, Bool.or_eq_false_iff, decide_eq_false_iff_not] at h
  obtain ⟨⟨⟨⟨⟨⟨hprint, hvalidate⟩, hcreate⟩, hsend⟩, hcancel⟩, hlook⟩, hlist⟩ := h
  refine ⟨?_, hprint, hvalidate⟩
  simp only [isMultiStep, hcreate, hsend, hcancel, hlook, hlist, decide_false, Bool.or_self]

/-- The printer URI of a request, if it has one, is a text. -/
def NamesPrinterAsText (r : Request) : Prop :=
  ∀ a, r.find "printer-uri" = some a → Tag.isText a.tag = true

/-- What comes of a request for the queue of a printer that is sent on as `out`: the endpoint
admits it, with the server of the queue for its own authority. If it accepts the channel and
shares the printer, it does for the printer what the request asks of the queue, and describes the
printer when it is asked for. -/
structure Delivered (X : Services) (sha256 : Bytes → Vector UInt8 32) (r : Request)
    (server : Chars) (printer : PrinterName) (secret : String) (address : ServerAddress)
    (out : Bytes) : Prop where
  admitted : out.length ≤ Endpoint.maxBodyBytes →
    ∀ t : Transport, t.bytes = httpRequest address out →
      admission true t = .admitted [] out server
  fulfilled : ∀ (s : JobStore) (c : EndpointContext) (lease life : ℕ) (shared : PrinterName),
    (carriesChannel r.operation = true → c.channel.authorizes X (trimEndNul secret) = true) →
    findByName c.shared printer.chars = some shared →
    Fulfils sha256 s c server lease (headerOf r) shared (wishOf r)
      (answerJob X sha256 s c ⟨out, server, lease, life, .received⟩)
  described : ∀ (s : JobStore) (c : EndpointContext) (lease life : ℕ) (shared : PrinterName),
    r.versionIsSupported = true → r.operation = operationGetPrinterAttributes →
    findByName c.shared printer.chars = some shared →
    (answerJob X sha256 s c ⟨out, server, lease, life, .received⟩).phase
      = .answered (response sha256 c.upTime r.requestId r.responseVersion .ok
        [entry server shared (c.channel.isConfigured && c.available)])
  returned : ∀ answer : Bytes, 9 ≤ answer.length → answer.length ≤ maxResponse →
    forwardAnswered (.ok (answerResponse answer)) = .ok answer

section Forwarded

variable {r r' : Request} {server : Chars} {printer : PrinterName} {networkChannel : Option String}

/-- The printer URI that the endpoint reads. -/
lemma value_printerUri {address : ServerAddress}
    (haddress : ServerAddress.parse server = .ok address) (hsocket : address.socket = server)
    (htext : NamesPrinterAsText r)
    (hattributes : r'.attributes
      = forwardedAttributes (.ofList (remoteUri server printer)) networkChannel r.attributes) :
    r'.value "printer-uri" = some (.ofList (remoteUri server printer)) := by
  obtain ⟨tag, hfind, htag⟩ := find_forwardedAttributes_printer
    (.ofList (remoteUri server printer)) networkChannel r.attributes
  have htag : Tag.isText tag = true := by
    rcases htag with rfl | ⟨a, ha, rfl⟩
    · decide
    · exact htext a ha
  have htrim := trimEndNul_remoteUri haddress printer
  rw [hsocket] at htrim
  rw [Request.value, Request.find, hattributes, hfind, Option.bind_some, Attribute.text,
    if_pos htag, List.head?_cons, Option.bind_some, fromUtf8_asBytes, Option.map_some, htrim]

/-- The printer that the endpoint selects. -/
lemma findByUri_remoteUri {address : ServerAddress}
    (haddress : ServerAddress.parse server = .ok address) (hsocket : address.socket = server)
    (shared : List PrinterName) :
    findByUri shared server (remoteUri server printer) = findByName shared printer.chars := by
  have hslash : '/' ∉ server := by
    rw [← hsocket]
    exact fun hc =>
      (isAddressChar_ne ((canonical_of_parse haddress).1.mem_withPort hc)).2 (by decide)
  have hne : server ≠ [] := by
    rw [← hsocket]
    exact withPort_ne_nil _ _
  exact findByUri_ippUri shared printer.chars hne hslash (eqIgnoreAsciiCase_self server)

/-- The channel that the endpoint reads. -/
lemma value_networkChannel {remotePrinterUri secret : String} (hattributes : r'.attributes
      = forwardedAttributes remotePrinterUri (some secret) r.attributes) :
    r'.value "network-channel" = some (trimEndNul secret) := by
  have htag : Tag.isText Tag.text = true := by decide
  rw [Request.value, Request.find, hattributes, find_forwardedAttributes, Option.bind_some,
    Attribute.text, if_pos htag, List.head?_cons, Option.bind_some, fromUtf8_asBytes,
    Option.map_some]

end Forwarded

/-- Named values make well-placed fields. -/
lemma wellFormedFields_named {values : List Written} (hok : ∀ w ∈ values, w.Ok)
    (hnamed : ∀ w ∈ values, w.Named) (inAttribute : Bool) :
    WellFormedFields inAttribute (values.pmap Written.field hok) := by
  induction values generalizing inAttribute with
  | nil => trivial
  | cons w values ih =>
      obtain ⟨hne, htrim⟩ := hnamed w List.mem_cons_self
      refine ⟨?_, ih _ (fun v hv => hnamed v (List.mem_cons_of_mem _ hv)) _⟩
      have hraw : asBytes w.name ≠ [] := mt asBytes_eq_nil.mp hne
      have hplain : PlainName (asBytes w.name) := by
        rw [PlainName, readName_asBytes, htrim, Option.map_some]
      simpa only [Written.field, Field.WellPlaced, if_neg hraw] using hplain

lemma countP_named {values : List Written} (hok : ∀ w ∈ values, w.Ok) (name : String) :
    (values.pmap Written.field hok).countP (Field.isNamed name)
      = values.countP (·.name == name) := by
  induction values with
  | nil => rfl
  | cons w values ih =>
      have hname : Field.isNamed name (w.field (hok w List.mem_cons_self)) = (w.name == name) := by
        rw [Bool.eq_iff_iff]
        simp [Written.field, Field.isNamed]
      rw [List.pmap_cons, List.countP_cons, List.countP_cons, ih, hname]

/-- A request as a client writes it is well formed, if it carries none of the two replaced
attributes twice. -/
lemma wellFormedRequest_requestBytes {operation requestId : ℕ} {values : List Written}
    {document : Bytes} (hok : ∀ w ∈ values, w.Ok) (hnamed : ∀ w ∈ values, w.Named)
    (hprinter : values.countP (·.name == "printer-uri") ≤ 1)
    (hchannel : values.countP (·.name == "network-channel") ≤ 1) :
    WellFormedRequest (requestBytes operation requestId values document) := by
  have hdelimits := Tag.delimits_operationAttributes
  have hheader : ([2, 0] ++ be16 operation ++ be32 requestId).length = 8 := rfl
  obtain ⟨fields, hfields⟩ : ∃ fields, fields
      = .delimiter Tag.operationAttributes hdelimits :: values.pmap Written.field hok := ⟨_, rfl⟩
  have hencode : encodeAll fields = Tag.operationAttributes :: values.flatMap Written.bytes := by
    rw [hfields, encodeAll, List.flatMap_cons, Field.encode, List.singleton_append]
    exact congrArg (Tag.operationAttributes :: ·) (encodeAll_pmap hok)
  have hbytes : requestBytes operation requestId values document
      = [2, 0] ++ be16 operation ++ be32 requestId
        ++ (encodeAll fields ++ Tag.endOfAttributes :: document) := by
    rw [requestBytes, hencode]
    rfl
  have hread : fieldsOf (requestBytes operation requestId values document) = fields := by
    rw [hbytes, fieldsOf_encode hheader]
  refine ⟨?_, ?_, ?_, ?_, ?_⟩
  · rw [hbytes, List.length_append, hheader]
    exact Nat.le_add_right 8 _
  · rw [Terminated, hbytes, List.drop_left' hheader, scan_encode]
    rfl
  · rw [hread, hfields]
    exact ⟨trivial, wellFormedFields_named hok hnamed _⟩
  · rw [hread, hfields, List.countP_cons, countP_named]
    exact hprinter
  · rw [hread, hfields, List.countP_cons, countP_named]
    exact hchannel

/-- What the spooler sends to the queue of the printer. -/
def queueValues : List Written :=
  ⟨Tag.uri, "printer-uri", asBytes "ipp://127.0.0.1:48632/ipp/print/server%3A48631/Archive"⟩
    :: rasterValues

def queuePrintJob : Bytes := requestBytes operationPrintJob 1 queueValues [82, 97, 83, 50]

/-- The request, as it is decoded. -/
def queueRequest : Request where
  version := (2, 0)
  operation := operationPrintJob
  requestId := 1
  attributes := queueValues.map Written.toAttribute
  document := [82, 97, 83, 50]
  documentStart := queuePrintJob.length - 4

/-- It asks for no settings. -/
def unsettled : PrintSettings := ⟨none, none, none, none, none, none⟩

end ShaPrint.Client
