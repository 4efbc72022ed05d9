import ShaPrint.Client.Route
import ShaPrint.Endpoint.Response
import ShaPrint.Ipp.Forwarding
import ShaPrint.Queue.Name

/-!
How the client proxy shows a printer to the local spooler, `rewrite_printer_uri_supported` of
`adapters/ipps/protocol.rs`: the URIs and the names of the response are replaced by those of
the local queue, and attributes that the spooler asks for are added where they are missing.

* `serverFromProxyUri`, `samePrinterUri`, …: what is read off the two URIs;
  `proxiedQueueName` is the name of the queue.
* `ProxiedPrinter`: what the loop compares with and writes; `replacement` is the branch it
  takes for a value.
* `rewriteLoop`, `rewritePrinterUriSupported`: the loop over the bytes, and the function.
* `proxyFields`: the loop on fields; `rewriteLoop_encode` is the simulation, and
  `rewritePrinterUriSupported_eq_ok` the form it is used in.
-/

namespace ShaPrint.Client

open Ipp Endpoint BigEndian Split

/-! ### URIs -/

/-- The scheme, the authority and the path of a URI. -/
def uriParts (uri : Chars) : Option (Chars × Chars × Chars) :=
  (splitOnce uri "://".toList).bind fun (scheme, remainder) =>
    (splitOnce remainder ['/']).map fun (authority, path) => (scheme, authority, path)

/-- The path of a URI after the printers' directory. -/
def printerPath (uri : Chars) : Option Chars :=
  (uriParts uri).bind fun (_, _, path) => path.dropPrefix? "ipp/print/".toList

def serverFromProxyUri (uri : Chars) : Option Chars :=
  (printerPath uri).bind fun path =>
    (splitOnce path ['/']).bind fun (server, _) =>
      if server ≠ [] then some (percentDecode server) else none

def printerFromProxyUri (uri : Chars) : Option Chars :=
  (printerPath uri).bind fun path =>
    (splitOnce path ['/']).bind fun (_, printer) =>
      if printer ≠ [] then some (percentDecode printer) else none

def authorityFromUri (uri : Chars) : Option Chars :=
  (uriParts uri).bind fun (_, authority, _) => if authority ≠ [] then some authority else none

def printerFromRemoteUri (uri : Chars) : Option Chars :=
  (printerPath uri).bind fun printer =>
    if printer ≠ [] ∧ '/' ∉ printer then some (percentDecode printer) else none

/-- The parts of a printer's URI that `same_printer_uri` compares. -/
def sameParts (uri : Chars) : Option (Chars × Chars × Chars) :=
  (uriParts uri).bind fun (scheme, authority, path) =>
    (path.dropPrefix? "ipp/print/".toList).bind fun printer =>
      if authority ≠ [] then some (scheme, authority, printer) else none

def samePrinterUri (left right : Chars) : Bool :=
  match sameParts left, sameParts right with
  | some (leftScheme, leftAuthority, leftPrinter),
    some (rightScheme, rightAuthority, rightPrinter) =>
      eqIgnoreAsciiCase leftScheme rightScheme && eqIgnoreAsciiCase leftAuthority rightAuthority
        && eqIgnoreAsciiCase (percentDecode leftPrinter) (percentDecode rightPrinter)
  | _, _ => false

/-- The name of the local queue, from the server of the local URI and the name in the response,
with the other URI as a fallback for each. -/
def proxiedQueueName (parsed : Request) (remotePrinterUri localPrinterUri : Chars) :
    Option Queue.ClientQueueName :=
  ((serverFromProxyUri localPrinterUri).or (authorityFromUri remotePrinterUri)).bind
    fun serverAddress =>
      ((((parsed.value "printer-name").map String.toList).or
          (printerFromRemoteUri remotePrinterUri)).or
          (printerFromProxyUri localPrinterUri)).bind fun printerRaw =>
        (PrinterName.parse (.ofList printerRaw)).toOption.bind fun printer =>
          (Queue.ClientQueueName.forSharedPrinter printer serverAddress).toOption

/-! ### One value -/

/-- What the loop compares with and writes. -/
structure ProxiedPrinter where
  remoteUri : Chars
  localUri : Chars
  queueName : Option Queue.ClientQueueName
  queueUuid : Option String
  isUnencrypted : Bool

def proxiedPrinter (sha256 : Bytes → Vector UInt8 32) (parsed : Request)
    (remotePrinterUri localPrinterUri : Chars) : ProxiedPrinter :=
  let queueName := proxiedQueueName parsed remotePrinterUri localPrinterUri
  { remoteUri := remotePrinterUri
    localUri := localPrinterUri
    queueName
    queueUuid := queueName.map fun name => printerUuid sha256 name.value
    isUnencrypted := eqIgnoreAsciiCase (localPrinterUri.take 6) "ipp://".toList
      || eqIgnoreAsciiCase (localPrinterUri.take 7) "http://".toList }

namespace ProxiedPrinter

variable (p : ProxiedPrinter)

def matchesRemotePrinter (currentName value : Bytes) : Bool :=
  currentName == asBytes "printer-uri-supported"
    && (fromUtf8 value).any fun value => samePrinterUri value.toList p.remoteUri

/-- What is written for a value, `none` where its bytes are passed on. -/
def replacement (currentName : Bytes) (inGroup : Bool) (value : Bytes) : Option Bytes :=
  if p.matchesRemotePrinter currentName value then some (utf8 p.localUri)
  else if currentName = asBytes "uri-security-supported" ∧ inGroup ∧ p.isUnencrypted then
    some (asBytes "none")
  else if currentName = asBytes "printer-uuid" ∧ inGroup ∧ p.queueUuid.isSome then
    p.queueUuid.map asBytes
  else if (currentName = asBytes "printer-name" ∨ currentName = asBytes "printer-info"
      ∨ currentName = asBytes "printer-make-and-model") ∧ inGroup ∧ p.queueName.isSome then
    p.queueName.map fun name => utf8 name.value
  else if currentName = asBytes "printer-more-info" ∧ inGroup then some (utf8 p.localUri)
  else none

/-- The value that the spooler gets. -/
def shown (currentName : Bytes) (inGroup : Bool) (value : Bytes) : Bytes :=
  (p.replacement currentName inGroup value).getD value

end ProxiedPrinter

/-! ### The loop over the bytes -/

/-- The status of a response. -/
def statusOf (bytes : Bytes) : ℕ := ofBe16 (bytes.getD 2 0) (bytes.getD 3 0)

/-- The attributes that the response lacks. -/
def supplements (upTime : ℤ) (parsed : Request) (localPrinterUri : Chars) : List Written :=
  (if (parsed.integer "printer-up-time").isSome then [] else writeInteger "printer-up-time" upTime)
  ++ (if (parsed.value "compression-supported").isSome then []
      else writeTexts Tag.keyword "compression-supported" ["none"])
  ++ (if (parsed.value "printer-location").isSome then []
      else writeText Tag.text "printer-location" "ShaPrint Network")
  ++ (if (parsed.value "printer-more-info").isSome then []
      else writeText Tag.uri "printer-more-info" (.ofList localPrinterUri))
  ++ if parsed.attributes.any fun a =>
        a.name == "pwg-raster-document-resolution-supported" && a.tag == Tag.keyword then []
      else writeTexts Tag.keyword "pwg-raster-document-resolution-supported" ["300dpi"]

/-- What is added before the end tag; nothing is added to a failure. -/
def addedTo (upTime : ℤ) (bytes : Bytes) (parsed : Request)
    (localPrinterUri : Chars) : List Written :=
  if statusOf bytes ≤ 0x00ff then supplements upTime parsed localPrinterUri else []

/-- The rewriting loop over the bytes from the current position on. -/
def rewriteLoop (p : ProxiedPrinter) (added : List Written) (currentName : Bytes)
    (inGroup : Bool) (output bytes : Bytes) : Except ParseError Bytes :=
  match bytes with
  | [] => .error .truncated
  | tag :: rest =>
      if tag = 0x03 then .ok (output ++ added.flatMap Written.bytes ++ tag :: rest)
      else if 0x01 ≤ tag ∧ tag ≤ 0x05 then
        -- the name stays across groups, and only a printer's group ends the one before
        rewriteLoop p added currentName (inGroup && tag ≠ Tag.printerAttributes)
          (output ++ [tag]) rest
      else
        match _hname : readRaw rest with
        | .error e => .error e
        | .ok (name, rest') =>
            let currentName := nextName currentName name
            match _hvalue : readRaw rest' with
            | .error e => .error e
            | .ok (value, rest'') =>
                let inGroup' := inGroup || p.matchesRemotePrinter currentName value
                match p.replacement currentName inGroup value with
                | some replaced =>
                    rewriteLoop p added currentName inGroup'
                      (output ++ tag :: writeNameAndValue name replaced) rest''
                | none =>
                    -- the bytes of this value, from its tag to its end
                    rewriteLoop p added currentName inGroup'
                      (output ++ bytes.take (bytes.length - rest''.length)) rest''
  termination_by bytes.length
  decreasing_by
    · simp_wf
    all_goals
      have h1 := readRaw_length ‹readRaw rest = _›
      have h2 := readRaw_length ‹readRaw rest' = _›
      simp_all only [List.length_cons]
      omega

/-- Rewrites the advertised URI and the naming attributes for a proxied printer. -/
def rewritePrinterUriSupported (sha256 : Bytes → Vector UInt8 32) (upTime : ℤ) (bytes : Bytes)
    (remotePrinterUri localPrinterUri : Chars) : Except ParseError Bytes :=
  match Request.parse bytes with
  | .error e => .error e
  | .ok parsed =>
      rewriteLoop (proxiedPrinter sha256 parsed remotePrinterUri localPrinterUri)
        (addedTo upTime bytes parsed localPrinterUri) [] false (bytes.take 8) (bytes.drop 8)

/-! ### The loop on fields -/

section Loop

variable {p : ProxiedPrinter} {added : List Written}

lemma rewriteLoop_end (currentName : Bytes) (inGroup : Bool) (output rest : Bytes) :
    rewriteLoop p added currentName inGroup output (Tag.endOfAttributes :: rest)
      = .ok (output ++ added.flatMap Written.bytes ++ Tag.endOfAttributes :: rest) := by
  rw [rewriteLoop, if_pos (show Tag.endOfAttributes = 0x03 from rfl)]

lemma rewriteLoop_delimiter (currentName : Bytes) (inGroup : Bool) (output : Bytes) {tag : UInt8}
    (h : Tag.isDelimiter tag = true ∧ tag ≠ Tag.endOfAttributes) (rest : Bytes) :
    rewriteLoop p added currentName inGroup output (tag :: rest)
      = rewriteLoop p added currentName (inGroup && tag ≠ Tag.printerAttributes)
          (output ++ [tag]) rest := by
  rw [rewriteLoop, if_neg (show tag ≠ 0x03 from h.2), if_pos (Tag.isDelimiter_iff.mp h.1)]

/-- The loop takes one value per turn, and writes the value that is shown. -/
lemma rewriteLoop_value (currentName : Bytes) (inGroup : Bool) (output : Bytes) {tag : UInt8}
    {name value : Bytes}
    (h : Tag.isDelimiter tag = false ∧ name.length < 65536 ∧ value.length < 65536)
    (rest : Bytes) :
    rewriteLoop p added currentName inGroup output (tag :: (writeNameAndValue name value ++ rest))
      = rewriteLoop p added (nextName currentName name)
          (inGroup || p.matchesRemotePrinter (nextName currentName name) value)
          (output ++ tag :: writeNameAndValue name
            (p.shown (nextName currentName name) inGroup value)) rest := by
  have hname := readRaw_append h.2.1 (be16 value.length ++ (value ++ rest))
  have hvalue := readRaw_append h.2.2 rest
  have htake : (tag :: (writeNameAndValue name value ++ rest)).take
      ((tag :: (writeNameAndValue name value ++ rest)).length - rest.length)
      = tag :: writeNameAndValue name value := by
    rw [← List.cons_append, List.length_append, Nat.add_sub_cancel, List.take_left]
  have hbytes : writeNameAndValue name value ++ rest
      = be16 name.length ++ (name ++ (be16 value.length ++ (value ++ rest))) := by
    simp only [writeNameAndValue, List.append_assoc]
  rw [rewriteLoop, if_neg (Tag.ne_three h.1), if_neg (Tag.not_in_range h.1)]
  rw [hbytes] at htake ⊢
  split
  · simp_all
  · rename_i heq
    obtain ⟨rfl, rfl⟩ := Prod.mk.inj (Except.ok.inj (hname.symm.trans heq))
    simp only
    split
    · simp_all
    · rename_i heq
      obtain ⟨rfl, rfl⟩ := Prod.mk.inj (Except.ok.inj (hvalue.symm.trans heq))
      unfold ProxiedPrinter.shown
      cases hreplaced : p.replacement (nextName currentName name) inGroup value with
      | some replaced => rfl
      | none =>
          simp only [htake]
          rfl

/-- The loop succeeds only on a terminated attribute section. -/
lemma rewriteLoop_tail {currentName : Bytes} {inGroup : Bool} {fields : List Field}
    {output tail out : Bytes} (htail : Tail tail)
    (h : rewriteLoop p added currentName inGroup output (encodeAll fields ++ tail) = .ok out) :
    ∃ document, tail = Tag.endOfAttributes :: document := by
  induction fields generalizing currentName inGroup output with
  | nil =>
      rw [encodeAll, List.flatMap_nil, List.nil_append] at h
      cases htail with
      | empty => simp [rewriteLoop] at h
      | terminated document => exact ⟨document, rfl⟩
      | @name tag rest e htag hname =>
          rw [rewriteLoop, if_neg (Tag.ne_three htag), if_neg (Tag.not_in_range htag)] at h
          split at h <;> simp_all
      | @value tag rest name rest' e htag hname hval =>
          rw [rewriteLoop, if_neg (Tag.ne_three htag), if_neg (Tag.not_in_range htag)] at h
          split at h
          · cases h
          · rename_i heq
            obtain ⟨rfl, rfl⟩ := Prod.mk.inj (Except.ok.inj (hname.symm.trans heq))
            split at h <;> simp_all
  | cons f fields ih =>
      rw [encodeAll, List.flatMap_cons, List.append_assoc] at h
      cases f with
      | delimiter tag hd =>
          rw [Field.encode, List.singleton_append, rewriteLoop_delimiter _ _ _ hd] at h
          exact ih h
      | value tag name value hv =>
          rw [Field.encode, List.cons_append, ← writeNameAndValue,
            rewriteLoop_value _ _ _ hv] at h
          exact ih h

/-- What is written for a value fits the length field in front of it. -/
structure ProxiedPrinter.Short (p : ProxiedPrinter) : Prop where
  localUri : (utf8 p.localUri).length < 65536
  queueUuid : ∀ uuid ∈ p.queueUuid, (asBytes uuid).length < 65536

lemma length_queueName_lt (name : Queue.ClientQueueName) : (utf8 name.value).length < 65536 :=
  calc (utf8 name.value).length ≤ 4 * name.value.length := length_utf8_le _
    _ ≤ 4 * Queue.queueNameLimit := Nat.mul_le_mul_left 4 name.length_le
    _ < 65536 := by decide

lemma ProxiedPrinter.Short.shown (hp : p.Short) {currentName value : Bytes} {inGroup : Bool}
    (hvalue : value.length < 65536) : (p.shown currentName inGroup value).length < 65536 := by
  unfold ProxiedPrinter.shown ProxiedPrinter.replacement
  split_ifs with huri hsecurity huuid hname hinfo
  · exact hp.localUri
  · rw [Option.getD_some]
    decide
  · obtain ⟨uuid, huuid⟩ := Option.isSome_iff_exists.mp huuid.2.2
    rw [huuid, Option.map_some, Option.getD_some]
    exact hp.queueUuid uuid huuid
  · obtain ⟨name, hname⟩ := Option.isSome_iff_exists.mp hname.2.2
    rw [hname, Option.map_some, Option.getD_some]
    exact length_queueName_lt name
  · exact hp.localUri
  · exact hvalue

/-- A local URI that fits is all that is needed. -/
lemma short_proxiedPrinter (sha256 : Bytes → Vector UInt8 32) (parsed : Request)
    (remote : Chars) {localUri : Chars} (hlocal : (utf8 localUri).length < 65536) :
    (proxiedPrinter sha256 parsed remote localUri).Short := by
  refine ⟨hlocal, fun uuid huuid => ?_⟩
  obtain ⟨name, -, rfl⟩ := Option.map_eq_some_iff.mp huuid
  have hle := length_utf8_le (printerUuid sha256 name.value).toList
  rw [length_printerUuid] at hle
  rw [asBytes_eq_utf8]
  omega

/-- The loop variables. -/
structure ProxyState where
  currentName : Bytes := []
  inGroup : Bool := false

/-- The loop variables after a field. -/
def ProxyState.next (p : ProxiedPrinter) (st : ProxyState) : Field → ProxyState
  | .delimiter tag _ => { st with inGroup := st.inGroup && tag ≠ Tag.printerAttributes }
  | .value _ name value _ =>
      let currentName := nextName st.currentName name
      ⟨currentName, st.inGroup || p.matchesRemotePrinter currentName value⟩

/-- The field that is written for a field. -/
def proxyField (hp : p.Short) (st : ProxyState) : Field → Field
  | .delimiter tag h => .delimiter tag h
  | .value tag name value h =>
      .value tag name (p.shown (nextName st.currentName name) st.inGroup value)
        ⟨h.1, h.2.1, hp.shown h.2.2⟩

/-- The loop up to the end tag. -/
def proxyFields (hp : p.Short) (st : ProxyState) : List Field → List Field
  | [] => []
  | f :: fields => proxyField hp st f :: proxyFields hp (st.next p f) fields

variable (added) in
/-- The loop on a terminated attribute section writes one field for each, and adds the
missing attributes at the end. -/
lemma rewriteLoop_encode (hp : p.Short) (st : ProxyState) (fields : List Field)
    (output document : Bytes) :
    rewriteLoop p added st.currentName st.inGroup output
        (encodeAll fields ++ Tag.endOfAttributes :: document)
      = .ok (output ++ encodeAll (proxyFields hp st fields) ++ added.flatMap Written.bytes
        ++ Tag.endOfAttributes :: document) := by
  induction fields generalizing st output with
  | nil => rw [encodeAll, List.flatMap_nil, List.nil_append, rewriteLoop_end, proxyFields,
      encodeAll, List.flatMap_nil, List.append_nil]
  | cons f fields ih =>
      rw [encodeAll, List.flatMap_cons, List.append_assoc, proxyFields, encodeAll,
        List.flatMap_cons, ← List.append_assoc output]
      cases f with
      | delimiter tag h =>
          rw [Field.encode, List.singleton_append, rewriteLoop_delimiter _ _ _ h]
          exact ih (st.next p (.delimiter tag h)) _
      | value tag name value h =>
          rw [Field.encode, List.cons_append, ← writeNameAndValue, rewriteLoop_value _ _ _ h]
          exact ih (st.next p (.value tag name value h)) _

end Loop

/-! ### The whole function -/

section Function

variable (sha256 : Bytes → Vector UInt8 32) (upTime : ℤ) (remote : Chars) {localUri : Chars}

/-- A terminated, readable response is written field by field. -/
lemma rewritePrinterUriSupported_encode (hlocal : (utf8 localUri).length < 65536)
    {bytes header document : Bytes} {fields : List Field} {r : Request}
    (hheader : header.length = 8)
    (hbytes : bytes = header ++ (encodeAll fields ++ Tag.endOfAttributes :: document))
    (hr : Request.parse bytes = .ok r) :
    rewritePrinterUriSupported sha256 upTime bytes remote localUri
      = .ok (header ++ (encodeAll (proxyFields
            (short_proxiedPrinter sha256 r remote hlocal) {} fields)
          ++ ((addedTo upTime bytes r localUri).flatMap Written.bytes
            ++ Tag.endOfAttributes :: document))) := by
  have hloop := rewriteLoop_encode (addedTo upTime bytes r localUri)
    (short_proxiedPrinter sha256 r remote hlocal) {} fields header document
  have htake : bytes.take 8 = header := by rw [hbytes, List.take_left' hheader]
  have hdrop : bytes.drop 8 = encodeAll fields ++ Tag.endOfAttributes :: document := by
    rw [hbytes, List.drop_left' hheader]
  rw [rewritePrinterUriSupported, hr]
  simp only [htake, hdrop]
  rw [hloop, List.append_assoc, List.append_assoc]

lemma length_of_parse {bytes : Bytes} {r : Request} (hr : Request.parse bytes = .ok r) :
    8 ≤ bytes.length := by
  unfold Request.parse at hr
  split at hr
  · simp only [List.length_cons]
    omega
  · cases hr

variable {sha256 upTime remote}

/-- What is rewritten was terminated and readable. -/
lemma terminated_of_rewritten {bytes out : Bytes}
    (h : rewritePrinterUriSupported sha256 upTime bytes remote localUri = .ok out) :
    Terminated bytes ∧ ∃ r, Request.parse bytes = .ok r := by
  unfold rewritePrinterUriSupported at h
  cases hr : Request.parse bytes with
  | error e => rw [hr] at h; cases h
  | ok r =>
      rw [hr] at h
      obtain ⟨hscan, htail⟩ := scan_spec (bytes.drop 8)
      simp only at h
      rw [← hscan] at h
      obtain ⟨document, hdocument⟩ := rewriteLoop_tail htail h
      refine ⟨?_, r, rfl⟩
      rw [Terminated, hdocument]
      rfl

end Function

end ShaPrint.Client
