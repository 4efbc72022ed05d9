import ShaPrint.Client.ServerAddress
import ShaPrint.Discovery.Advertise
import ShaPrint.Discovery.Wire
import ShaPrint.Lib.Net.Printed

/-!
What a browser makes of a packet, `adapters/discovery/browse.rs` and `domain/discovery.rs`.

* `NearbyServer`: a server as a client sees it; `NearbyServer.withVersion` is the only check.
* `report`: what one packet reports to the cache.
* `hostOf_report`: every report of a packet is about an address whose host is the source of
  the packet.
-/

namespace ShaPrint.Discovery

open Client Digits Net Split

namespace NearbyServer

def nameLimit : ℕ := 64
def addressLimit : ℕ := 255
def versionLimit : ℕ := 32

def isUsableName (name : Chars) : Bool :=
  name ≠ [] && name.length ≤ nameLimit && !name.any isControl

def isUsableAddress (address : Chars) : Bool :=
  address ≠ [] && (utf8 address).length ≤ addressLimit && !address.any isControl

def isUsableVersion (version : Chars) : Bool :=
  version ≠ [] && version.length ≤ versionLimit && !version.any isControl

end NearbyServer

/-- A server that a client found on the local network. -/
structure NearbyServer where
  name : Chars
  address : Chars
  printers : List PrinterName
  version : Option Chars
  usableName : NearbyServer.isUsableName name = true
  usableAddress : NearbyServer.isUsableAddress address = true
  usableVersion : ∀ v ∈ version, NearbyServer.isUsableVersion v = true

/-- Builds a nearby server from what one advertisement reported. -/
def NearbyServer.withVersion (name address : Chars) (printers : List PrinterName)
    (version : Option Chars) : Except AppError NearbyServer :=
  if hname : isUsableName (trim name) = true then
    if haddress : isUsableAddress (trim address) = true then
      .ok ⟨trim name, trim address, printers, (version.map trim).filter isUsableVersion, hname,
        haddress, fun _ hv => (Option.mem_filter_iff.mp hv).2⟩
    else .error (.invalidInput "the advertised server address is not usable")
  else .error (.invalidInput "the advertised server label is not usable")

/-- What a browser tells the cache. -/
inductive Report where
  | advertised (server : NearbyServer) (lifetime : Duration)
  | withdrawn (address : Chars)

/-- The address that a report is about. -/
def Report.address : Report → Chars
  | .advertised server _ => server.address
  | .withdrawn address => address

/-- The source of a packet. -/
structure Source where
  ip : IpAddr
  valid : match ip with
    | .v4 octets => ∃ a b c d, octets = [a, b, c, d]
    | .v6 groups => IsIpv6 groups

namespace Source

def host (source : Source) : Chars := ipToChars source.ip

end Source

/-- The address a user would review for an advertisement; there is none without a port. -/
def endpointAddress (service : Service) (source : Source) : Option Chars :=
  if service.port = 0 then none else some (source.host ++ ':' :: decimal service.port)

/-- The first label of an instance name. -/
def instanceLabel (instanceName : Chars) : Chars := (instanceName.splitOn '.').headD []

/-- The value of the first property with the given key. -/
def firstProperty (service : Service) (key : Chars) : Option Chars :=
  (service.properties.find? (·.1 == key)).map (·.2)

/-- The printers that an advertisement names, each once. -/
def advertisedPrinters (service : Service) : List PrinterName :=
  service.properties.foldl
    (fun printers property =>
      if property.1 = queueProperty then
        match PrinterName.parse (.ofList property.2) with
        | .ok name => if printers.contains name then printers else printers ++ [name]
        | .error _ => printers
      else printers) []

/-- One advertised instance, as the client will offer it to a user. -/
def nearbyServer (service : Service) (address : Chars) : Option NearbyServer :=
  (NearbyServer.withVersion
    ((firstProperty service nameProperty).getD (instanceLabel service.instanceName)) address
    (advertisedPrinters service) (firstProperty service versionProperty)).toOption

/-- What one service of a packet reports; a service without a lifetime is going away. -/
def reportOf (source : Source) (service : Service) : Option Report :=
  (endpointAddress service source).bind fun address =>
    if service.ttl = 0 then some (.withdrawn address)
    else (nearbyServer service address).map fun server => .advertised server service.ttl

/-- What a packet reports to the cache, in order. A malformed packet is ignored. -/
def report (packet : Bytes) (source : Source) : List Report :=
  match Message.parse packet with
  | .error _ => []
  | .ok message => (services message).filterMap (reportOf source)

/-! ### The host of an address -/

/-- The host of an address: what is before its last colon. -/
def hostOf (address : Chars) : Option Chars := (rsplitOnce address [':']).map (·.1)

lemma colon_not_mem_decimal (n : ℕ) : ':' ∉ decimal n := by
  intro h
  obtain ⟨d, hd, hc⟩ := exists_digitChar_of_mem_toDigits (by decide) h
  have hdigit : ∀ d < 10, ':' ≠ Nat.digitChar d := by decide
  exact hdigit d hd hc

lemma hostOf_endpoint (host : Chars) (port : ℕ) :
    hostOf (host ++ ':' :: decimal port) = some host := by
  have hsplit : rsplitOnce (host ++ ':' :: decimal port) [':'] = some (host, decimal port) :=
    rsplitOnce_singleton.mpr ⟨rfl, colon_not_mem_decimal port⟩
  rw [hostOf, hsplit]
  rfl

/-- The host of a source is printed without whitespace. -/
lemma Source.not_isWhitespace {source : Source} {c : Char} (h : c ∈ source.host) :
    isWhitespace c = false := by
  obtain ⟨ip, hvalid⟩ := source
  cases ip with
  | v4 octets =>
      obtain ⟨a, b, c', d, rfl⟩ := hvalid
      have hall : ∀ x ∈ "0123456789.".toList, isWhitespace x = false :=
        List.all_iff_forall_prop.mp (by decide)
      exact hall c (mem_ipv4ToChars h)
  | v6 groups =>
      have hall : ∀ x ∈ ipv6Alphabet, isWhitespace x = false :=
        List.all_iff_forall_prop.mp (by decide)
      exact hall c (mem_ipv6ToChars hvalid h)

lemma not_isWhitespace_of_mem_decimal {n : ℕ} {c : Char} (h : c ∈ decimal n) :
    isWhitespace c = false := by
  obtain ⟨d, hd, rfl⟩ := exists_digitChar_of_mem_toDigits (by decide) h
  have hdigit : ∀ d < 10, isWhitespace (Nat.digitChar d) = false := by decide
  exact hdigit d hd

/-- The address of an endpoint is shown as it is. -/
lemma trim_endpoint (source : Source) (port : ℕ) :
    trim (source.host ++ ':' :: decimal port) = source.host ++ ':' :: decimal port := by
  have hall : ∀ c ∈ source.host ++ ':' :: decimal port, isWhitespace c = false := by
    intro c hc
    rcases List.mem_append.mp hc with hc | hc
    · exact source.not_isWhitespace hc
    · rcases List.mem_cons.mp hc with rfl | hc
      · decide
      · exact not_isWhitespace_of_mem_decimal hc
  exact trimBoth_of_trimmed ⟨fun c hc => hall c (List.mem_of_head? hc),
    fun c hc => hall c (List.mem_of_getLast? hc)⟩

lemma NearbyServer.address_of_withVersion {name address : Chars} {printers : List PrinterName}
    {version : Option Chars} {server : NearbyServer}
    (h : withVersion name address printers version = .ok server) :
    server.address = trim address := by
  unfold withVersion at h
  split_ifs at h
  obtain rfl := Except.ok.inj h
  rfl

/-- Every report of a packet is about an address whose host is the source of the packet. -/
theorem hostOf_report {packet : Bytes} {source : Source} {r : Report}
    (h : r ∈ report packet source) : hostOf r.address = some source.host := by
  unfold report at h
  split at h
  · cases h
  · obtain ⟨service, -, hservice⟩ := List.mem_filterMap.mp h
    obtain ⟨address, haddress, hreport⟩ := Option.bind_eq_some_iff.mp hservice
    have hendpoint : address = source.host ++ ':' :: decimal service.port := by
      unfold endpointAddress at haddress
      split_ifs at haddress
      exact (Option.some.inj haddress).symm
    subst hendpoint
    split_ifs at hreport
    · obtain rfl := Option.some.inj hreport
      exact hostOf_endpoint source.host service.port
    · obtain ⟨server, hserver, rfl⟩ := Option.map_eq_some_iff.mp hreport
      have hok := NearbyServer.address_of_withVersion (except_toOption_eq_some.mp hserver)
      rw [Report.address, hok, trim_endpoint, hostOf_endpoint]

end ShaPrint.Discovery
