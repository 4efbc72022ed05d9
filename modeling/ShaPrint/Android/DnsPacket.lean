import ShaPrint.Android.Model
import ShaPrint.Discovery.Advertise
import ShaPrint.Lib.Net.Address

/-!
The Android client's reader of discovery packets, `core/network/mdns/DnsPacket.kt`.

* `readDomainName`: a name, of at most 128 steps.
* `parseRecords`, `parseResponse`: the loop over the records, and the reading.
* `readDomainName_at`, `parseRecords_record`: the reader on what the desktop writes.
* `browser_reads_announcement`: what the desktop announces is what both clients read.
-/

namespace ShaPrint.Android

open BigEndian Split Discovery

/-! ### The reader -/

structure DiscoveredService where
  instanceName : Chars
  host : Chars
  port : ℕ
  computerName : Chars
  advertisedQueues : List Chars
  isGoodbye : Bool
  deriving DecidableEq, Repr

/-- How a name ends: an empty one is `null`; `saved` is where the first pointer was. -/
def nameResult (sb : Chars) (saved : Option ℕ) (position : ℕ) : Option (Chars × ℕ) :=
  if sb = [] then none else some (sb, saved.getD position)

/-- The loop of `readDomainName`, with the steps that are left. -/
def readDomainNameLoop (buffer : Bytes) : ℕ → Chars → Option ℕ → ℕ → Option (Chars × ℕ)
  | 0, sb, saved, position => nameResult sb saved position
  | steps + 1, sb, saved, position =>
      match buffer[position]? with
      | none => nameResult sb saved position
      | some len =>
          if len = 0 then nameResult sb saved (position + 1)
          else if len &&& 0xc0 = 0xc0 then
            match buffer[position + 1]? with
            | none => none
            | some b2 =>
                let offset := (len &&& 0x3f).toNat * 256 + b2.toNat
                if buffer.length ≤ offset then none
                else readDomainNameLoop buffer steps sb (some (saved.getD (position + 2))) offset
          else
            match Cursor.take? buffer (position + 1) len.toNat with
            | none => none
            | some label =>
                readDomainNameLoop buffer steps
                  ((if sb = [] then [] else sb ++ ['.']) ++ fromUtf8Lossy label) saved
                  (position + 1 + len.toNat)

def readDomainName (buffer : Bytes) (position : ℕ) : Option (Chars × ℕ) :=
  readDomainNameLoop buffer 128 [] none position

/-- `contains(ascii, ignoreCase = true)` -/
def containsIgnoreCase (ascii : Chars) (s : Chars) : Bool :=
  (splitOnce (s.map foldCase) (ascii.map foldCase)).isSome

def shaPrintService : Chars := "_shaprint-ipps._tcp.local".toList

/-- The variables of the loop over the records; the text values are newest first. -/
structure DnsState where
  ptrInstance : Option Chars
  srvPort : Option ℕ
  srvTarget : Option Chars
  resolvedIp : Option Chars
  txtKeyValues : List (Chars × Chars)
  advertisedQueues : List Chars
  isGoodbye : Bool
  hasShaPrintRecord : Bool
  deriving DecidableEq, Repr

namespace DnsState

def new : DnsState := ⟨none, none, none, none, [], [], false, false⟩

/-- A name has been read. -/
def sees (s : DnsState) (name : Chars) : DnsState :=
  if containsIgnoreCase shaPrintService name then { s with hasShaPrintRecord := true } else s

/-- The lifetime of a record has been read. -/
def lasts (s : DnsState) (ttl : ℕ) : DnsState := { s with isGoodbye := s.isGoodbye || ttl == 0 }

def addEntry (s : DnsState) (key value : Chars) : DnsState :=
  { s with
    txtKeyValues := (key, value) :: s.txtKeyValues
    advertisedQueues := if equalsIgnoreCase "queue" (String.ofList key) then
        s.advertisedQueues ++ [value] else s.advertisedQueues }

/-- One string of a text record; one that has no key is left out. -/
def addText (s : DnsState) (entry : Chars) : DnsState :=
  match splitOnce entry ['='] with
  | some (key, value) => if key ≠ [] then s.addEntry key value else s
  | none => s

/-- The strings of a text record, up to the first that is empty or too long. -/
def addTexts (s : DnsState) (rdata : Bytes) : DnsState :=
  match rdata with
  | [] => s
  | len :: rest =>
      if 0 < len ∧ len.toNat ≤ rest.length then
        addTexts (s.addText (fromUtf8Lossy (rest.take len.toNat))) (rest.drop len.toNat)
      else s
  termination_by rdata.length
  decreasing_by simp only [List.length_drop, List.length_cons]; omega

/-- The data of a record, which begins at `start`. -/
def addRecord (s : DnsState) (buffer : Bytes) (type start : ℕ) (rdata : Bytes) : DnsState :=
  if type = 12 then
    let name := (readDomainName buffer start).map (·.1)
    { s with
      ptrInstance := name
      hasShaPrintRecord := s.hasShaPrintRecord
        || (name.map (containsIgnoreCase shaPrintService)).getD false }
  else if type = 33 then
    if 6 ≤ rdata.length then
      { s with
        srvPort := some (ofBe16 (rdata.getD 4 0) (rdata.getD 5 0))
        srvTarget := (readDomainName buffer (start + 6)).map (·.1) }
    else s
  else if type = 16 then s.addTexts rdata
  else if type = 1 then
    if rdata.length = 4 then { s with resolvedIp := some (Net.ipv4ToChars (rdata.map (·.toNat))) }
    else s
  else s

end DnsState

/-- The loop over the records that are left. -/
def parseRecords (buffer : Bytes) : ℕ → ℕ → DnsState → DnsState
  | 0, _, s => s
  | count + 1, position, s =>
      if buffer.length ≤ position then s
      else
        match readDomainName buffer position with
        | none => s
        | some (name, position) =>
            let s := s.sees name
            match Cursor.take? buffer position 10 with
            | none => s
            | some fields =>
                let ttl := ofBe32 (fields.getD 4 0) (fields.getD 5 0) (fields.getD 6 0)
                  (fields.getD 7 0)
                let s := s.lasts ttl
                match Cursor.take? buffer (position + 10)
                    (ofBe16 (fields.getD 8 0) (fields.getD 9 0)) with
                | none => s
                | some rdata =>
                    parseRecords buffer count (position + 10 + rdata.length)
                      (s.addRecord buffer (ofBe16 (fields.getD 0 0) (fields.getD 1 0))
                        (position + 10) rdata)

/-- The position after the questions. -/
def skipQuestions (buffer : Bytes) : ℕ → ℕ → Option ℕ
  | 0, position => some position
  | count + 1, position =>
      (readDomainName buffer position).bind fun (_, position) =>
        (Cursor.take? buffer position 4).bind fun _ => skipQuestions buffer count (position + 4)

/-- What the records say, for an answer from `senderAddress`. -/
def DnsState.service (s : DnsState) (senderAddress : Option Chars) : Option DiscoveredService :=
  if !s.hasShaPrintRecord then none
  else
    let effectiveHost := s.resolvedIp.getD (senderAddress.getD "127.0.0.1".toList)
    let computerName := (s.txtKeyValues.lookup "name".toList).getD
      ((s.ptrInstance.map fun name => ((splitOnce name "._".toList).map (·.1)).getD name).getD
        effectiveHost)
    some {
      instanceName := s.ptrInstance.getD computerName
      host := effectiveHost
      port := s.srvPort.getD 48631
      computerName := computerName
      advertisedQueues := s.advertisedQueues
      isGoodbye := s.isGoodbye }

/-- `parseResponse`; the first `length` bytes of `data` were received. -/
def parseDnsResponse (data : Bytes) (length : ℕ) (senderAddress : Option Chars) :
    Option DiscoveredService :=
  if length < 12 then none
  else
    let buffer := data.take length
    let field := fun i => ofBe16 (buffer.getD i 0) (buffer.getD (i + 1) 0)
    if field 2 &&& 0x8000 = 0 then none
    else
      (skipQuestions buffer (field 4) 12).bind fun position =>
        (parseRecords buffer (field 6 + field 8 + field 10) position .new).service senderAddress

/-! ### What the desktop writes -/

section Written

open Cursor

variable {buffer : Bytes}

/-- The labels read so far and more of them, with dots between. -/
def dotted (sb : Chars) (labels : List Chars) : Chars :=
  labels.foldl (fun sb label => (if sb = [] then [] else sb ++ ['.']) ++ label) sb

lemma dotted_ne_nil {sb : Chars} {labels : List Chars} (hlabels : ∀ l ∈ labels, IsDnsLabel l)
    (h : sb ≠ [] ∨ labels ≠ []) : dotted sb labels ≠ [] := by
  induction labels generalizing sb with
  | nil => simpa [dotted] using h
  | cons label labels ih =>
      refine ih (fun l hl => hlabels l (by simp [hl])) (.inl fun hnil => ?_)
      exact (hlabels label (by simp)).1 (List.append_eq_nil_iff.mp hnil).2

lemma readDomainNameLoop_at {labels : List Chars} (hlabels : ∀ l ∈ labels, IsDnsLabel l)
    {steps : ℕ} (hsteps : labels.length < steps) (sb : Chars) {position : ℕ} {rest : Bytes}
    (h : At buffer position (nameBytes labels ++ rest)) :
    readDomainNameLoop buffer steps sb none position
      = nameResult (dotted sb labels) none (position + (nameBytes labels).length) := by
  induction labels generalizing steps sb position with
  | nil =>
      obtain ⟨steps, rfl⟩ := Nat.exists_eq_succ_of_ne_zero (Nat.ne_of_gt hsteps)
      have hget : buffer[position]? = some 0 := h.getElem?
      rw [readDomainNameLoop, hget]
      rfl
  | cons label labels ih =>
      obtain ⟨steps, rfl⟩ := Nat.exists_eq_succ_of_ne_zero (Nat.ne_of_gt (Nat.zero_lt_of_lt hsteps))
      obtain ⟨hne, hle⟩ := hlabels label (by simp)
      obtain ⟨hmask, hzero, hnat⟩ := label_byte (utf8_length_pos hne) hle
      have hat : At buffer position
          (UInt8.ofNat (utf8 label).length :: (utf8 label ++ (nameBytes labels ++ rest))) := by
        simpa [nameBytes, frame] using h
      have hpointer : ¬ UInt8.ofNat (utf8 label).length &&& 0xc0 = 0xc0 := by
        rw [hmask]
        decide
      have hnext := ih (fun l hl => hlabels l (by simp [hl])) (Nat.lt_of_succ_lt_succ hsteps)
        ((if sb = [] then [] else sb ++ ['.']) ++ label) hat.tail.skip
      rw [readDomainNameLoop, hat.getElem?]
      simp only [hzero, hpointer, if_false, hnat, hat.tail.take?, fromUtf8Lossy_utf8, hnext]
      simp [dotted, nameBytes, Nat.add_assoc, Nat.add_comm, Nat.add_left_comm]

/-- A name of fewer than 128 labels is read whole. -/
lemma readDomainName_at {labels : List Chars} (hlabels : ∀ l ∈ labels, IsDnsLabel l)
    (hne : labels ≠ []) (hcount : labels.length < 128) {position : ℕ} {rest : Bytes}
    (h : At buffer position (nameBytes labels ++ rest)) :
    readDomainName buffer position
      = some (dotted [] labels, position + (nameBytes labels).length) := by
  rw [readDomainName, readDomainNameLoop_at hlabels hcount [] h, nameResult,
    if_neg (dotted_ne_nil hlabels (.inr hne)), Option.getD_none]

/-- The loop takes one written record per turn. -/
lemma parseRecords_record {labels : List Chars} (hlabels : ∀ l ∈ labels, IsDnsLabel l)
    (hne : labels ≠ []) (hcount : labels.length < 128) {type recordClass lifetime : ℕ}
    (htype : type < 65536) (hlifetime : lifetime < 4294967296) {data : Bytes}
    (hdata : data.length < 65536) (count : ℕ) (s : DnsState) {position : ℕ} {rest : Bytes}
    (h : At buffer position (recordBytes labels type recordClass lifetime data ++ rest)) :
    parseRecords buffer (count + 1) position s
      = parseRecords buffer count
          (position + (recordBytes labels type recordClass lifetime data).length)
          (((s.sees (dotted [] labels)).lasts lifetime).addRecord buffer type
            (position + (nameBytes labels).length + 10) data) := by
  have hat : At buffer position (nameBytes labels ++ ((be16 type ++ (be16 recordClass
      ++ (be32 lifetime ++ be16 data.length))) ++ (data ++ rest))) := by
    simpa [recordBytes] using h
  have hlength := h.length_eq
  have hremaining : ¬ buffer.length ≤ position := by
    simp only [recordBytes, List.length_append, be16_length] at hlength
    omega
  have hfields := hat.skip.take?
  have hrdata := hat.skip.skip.take?
  have hten : (be16 type ++ (be16 recordClass ++ (be32 lifetime ++ be16 data.length))).length
      = 10 := by simp
  rw [hten] at hfields hrdata
  have hend : position + (nameBytes labels).length + 10 + data.length
      = position + (recordBytes labels type recordClass lifetime data).length := by
    simp only [recordBytes, List.length_append, be16_length, be32_length]
    omega
  rw [parseRecords, if_neg hremaining, readDomainName_at hlabels hne hcount hat]
  simp only [hfields]
  simp only [be16, be32, List.cons_append, List.nil_append, List.getD_cons_zero,
    List.getD_cons_succ, ofBe16_be16 hdata, ofBe16_be16 htype, ofBe32_be32 hlifetime, hrdata, hend]

namespace DnsState

/-- The name and the lifetime of a record. -/
lemma sees_lasts {s t : DnsState} {name : Chars} {ttl : ℕ} (h : (s.sees name).lasts ttl = t) :
    t.hasShaPrintRecord = (s.hasShaPrintRecord || containsIgnoreCase shaPrintService name)
      ∧ t.isGoodbye = (s.isGoodbye || ttl == 0) ∧ t.advertisedQueues = s.advertisedQueues
      ∧ t.srvPort = s.srvPort := by
  subst h
  unfold lasts sees
  split <;> simp_all

/-- A text record adds its properties in order. -/
lemma addTexts_pushProperties {properties : List (Chars × Chars)} {bytes : Bytes} (s : DnsState)
    (hkeys : ∀ property ∈ properties, property.1 ≠ [] ∧ '=' ∉ property.1)
    (h : pushProperties properties = .ok bytes) :
    s.addTexts bytes = properties.foldl (fun s property => s.addEntry property.1 property.2) s := by
  induction properties generalizing s bytes with
  | nil =>
      obtain rfl := Except.ok.inj h
      rw [addTexts, List.foldl_nil]
  | cons property properties ih =>
      rw [pushProperties] at h
      split at h
      · cases h
      · rename_i hshort
        obtain ⟨more, hmore, rfl⟩ := except_map_eq_ok.mp h
        obtain ⟨hne, hequals⟩ := hkeys property (by simp)
        have hlength : (UInt8.ofNat (utf8 (propertyEntry property)).length).toNat
            = (utf8 (propertyEntry property)).length := by
          rw [UInt8.toNat_ofNat']
          unfold maxTxtString at hshort
          omega
        have hpos : 0 < UInt8.ofNat (utf8 (propertyEntry property)).length := by
          rw [UInt8.lt_iff_toNat_lt, hlength]
          exact utf8_length_pos (by simp [propertyEntry])
        have hsplit : splitOnce (propertyEntry property) ['='] = some property :=
          splitOnce_singleton.mpr ⟨rfl, hequals⟩
        rw [frame, List.cons_append, addTexts, hlength, if_pos ⟨hpos, by simp⟩, List.take_left',
          List.drop_left', fromUtf8Lossy_utf8, addText, hsplit]
        · simp only [hne, ne_eq, not_false_eq_true, if_true]
          exact ih _ (fun p hp => hkeys p (by simp [hp])) hmore
        · rfl
        · rfl

/-- The entries of printers are the queues, and no other value changes. -/
lemma foldl_addEntry_queues (printers : List PrinterName) (s : DnsState) :
    ∃ values, (printers.map fun printer => (queueProperty, printer.chars)).foldl
        (fun s property => s.addEntry property.1 property.2) s
        = { s with
            txtKeyValues := values
            advertisedQueues := s.advertisedQueues ++ printers.map (·.chars) }
      ∧ values.lookup "name".toList = s.txtKeyValues.lookup "name".toList := by
  induction printers generalizing s with
  | nil => exact ⟨s.txtKeyValues, by simp, rfl⟩
  | cons printer printers ih =>
      obtain ⟨values, hfold, hlookup⟩ := ih (s.addEntry queueProperty printer.chars)
      have hqueue : equalsIgnoreCase "queue" (String.ofList queueProperty) = true := by decide
      refine ⟨values, ?_, ?_⟩
      · rw [List.map_cons, List.foldl_cons, hfold]
        simp [addEntry, hqueue]
      · rw [hlookup, addEntry, List.lookup_cons]
        rfl

end DnsState

/-! ### Agreement -/

/-- The values of a property, in order. -/
def propertyValues (service : Service) (key : Chars) : List Chars :=
  (service.properties.filter (·.1 = key)).map (·.2)

lemma propertyValues_name {service : Service} {label : Chars} {printers : List PrinterName}
    (h : service.properties = properties label printers) :
    propertyValues service nameProperty = [label] := by
  have hpath : pathProperty ≠ nameProperty := by decide
  have hversion : versionProperty ≠ nameProperty := by decide
  have hqueue : queueProperty ≠ nameProperty := by decide
  rw [propertyValues, h, properties, List.filter_append, List.map_append]
  simp [hpath, hversion, hqueue]

lemma propertyValues_queue {service : Service} {label : Chars} {printers : List PrinterName}
    (h : service.properties = properties label printers) :
    propertyValues service queueProperty = printers.map (·.chars) := by
  have hpath : pathProperty ≠ queueProperty := by decide
  have hname : nameProperty ≠ queueProperty := by decide
  have hversion : versionProperty ≠ queueProperty := by decide
  rw [propertyValues, h, properties, List.filter_append, List.map_append]
  simp [hpath, hname, hversion, List.filter_map, Function.comp_def]

/-- The keys of an advertisement are not empty and have no equals sign. -/
lemma keys_of_properties {label : Chars} {printers : List PrinterName} :
    ∀ property ∈ properties label printers, property.1 ≠ [] ∧ '=' ∉ property.1 := by
  have hpath : pathProperty ≠ [] := by decide
  have hname : nameProperty ≠ [] := by decide
  have hversion : versionProperty ≠ [] := by decide
  have hqueue : queueProperty ≠ [] := by decide
  intro property hproperty
  refine ⟨?_, no_equals_in_properties property hproperty⟩
  simp only [properties, List.mem_append, List.mem_cons, List.not_mem_nil, or_false,
    List.mem_map] at hproperty
  rcases hproperty with (rfl | rfl | rfl) | ⟨printer, -, rfl⟩
  · exact hpath
  · exact hname
  · exact hversion
  · exact hqueue

/-- A pointer record keeps the queues, the flag and a found service. -/
lemma addRecord_pointer {s t : DnsState} {start : ℕ} {rdata : Bytes}
    (h : s.addRecord buffer recordTypePtr start rdata = t) :
    (s.hasShaPrintRecord = true → t.hasShaPrintRecord = true) ∧ t.isGoodbye = s.isGoodbye
      ∧ t.advertisedQueues = s.advertisedQueues := by
  subst h
  refine ⟨fun hhas => ?_, rfl, rfl⟩
  simp [DnsState.addRecord, recordTypePtr, hhas]

/-- A service record sets the port. -/
lemma addRecord_service {s t : DnsState} {start port : ℕ} (hport : port < 65536) {target : Bytes}
    (h : s.addRecord buffer recordTypeSrv start (be16 0 ++ be16 0 ++ be16 port ++ target) = t) :
    t.hasShaPrintRecord = s.hasShaPrintRecord ∧ t.isGoodbye = s.isGoodbye
      ∧ t.advertisedQueues = s.advertisedQueues ∧ t.srvPort = some port := by
  subst h
  simp [DnsState.addRecord, recordTypeSrv, be16, ofBe16_be16 hport]

/-- A text record adds the name and the queues. -/
lemma addRecord_text {s t : DnsState} {start : ℕ} {label : Chars} {printers : List PrinterName}
    {bytes : Bytes} (hbytes : pushProperties (properties label printers) = .ok bytes)
    (h : s.addRecord buffer recordTypeTxt start bytes = t) :
    t.hasShaPrintRecord = s.hasShaPrintRecord ∧ t.isGoodbye = s.isGoodbye ∧ t.srvPort = s.srvPort
      ∧ t.advertisedQueues = s.advertisedQueues ++ printers.map (·.chars)
      ∧ t.txtKeyValues.lookup "name".toList = some label := by
  have hpath : equalsIgnoreCase "queue" (String.ofList pathProperty) = false := by decide
  have hname : equalsIgnoreCase "queue" (String.ofList nameProperty) = false := by decide
  have hversion : equalsIgnoreCase "queue" (String.ofList versionProperty) = false := by decide
  obtain ⟨values, hfold, hlookup⟩ := DnsState.foldl_addEntry_queues printers
    (((s.addEntry pathProperty resourcePath).addEntry nameProperty label).addEntry versionProperty
      packageVersion)
  have htexts : t = s.addTexts bytes := by
    rw [← h, DnsState.addRecord, if_neg (by decide), if_neg (by decide)]
    rfl
  rw [DnsState.addTexts_pushProperties s keys_of_properties hbytes, properties, List.foldl_append]
    at htexts
  simp only [List.foldl_cons, List.foldl_nil] at htexts
  rw [hfold] at htexts
  subst htexts
  refine ⟨rfl, rfl, rfl, ?_, hlookup⟩
  simp [DnsState.addEntry, hpath, hname, hversion]

/-- The state after the three records of an announcement. -/
lemma parseRecords_announcement {label target : Chars} {port : ℕ} {printers : List PrinterName}
    {ttl : Duration} {packet : Bytes} (hport : port < 65536)
    (h : encodeAnnouncement label target port (properties label printers) ttl = .ok packet) :
    ∃ s, parseRecords packet 3 12 .new = s ∧ s.hasShaPrintRecord = true ∧ s.srvPort = some port
      ∧ s.txtKeyValues.lookup "name".toList = some label
      ∧ s.advertisedQueues = printers.map (·.chars) ∧ (s.isGoodbye = true ↔ ttl = 0) := by
  obtain ⟨text, htext, htextLength, hne, hdot, hlabels, htargets, hpointerLength, hserviceLength,
    hlt, hpacket⟩ := exists_records h
  have hservice : ∀ l ∈ nameLabels serviceType, IsDnsLabel l := fun l hl => hlabels l (by simp [hl])
  have hthree : (nameLabels serviceType).length = 3 := by decide
  have hat : At packet 12 (recordBytes (nameLabels serviceType) recordTypePtr classIn
      (wholeSeconds ttl) (nameBytes (trim label :: nameLabels serviceType))
      ++ (recordBytes (trim label :: nameLabels serviceType) recordTypeSrv
        (classIn ||| unicastOrCacheFlush) (wholeSeconds ttl)
        (be16 0 ++ be16 0 ++ be16 port ++ nameBytes (nameLabels target))
      ++ (recordBytes (trim label :: nameLabels serviceType) recordTypeTxt
        (classIn ||| unicastOrCacheFlush) (wholeSeconds ttl) text ++ []))) := by
    have hstart := at_start packet
    rw [hpacket] at hstart ⊢
    have hskip := hstart.skip
    rw [show (header messageFlagsResponse 0 3).length = 12 by decide] at hskip
    simpa using hskip
  have hfour : (trim label :: nameLabels serviceType).length < 128 := by
    rw [List.length_cons, hthree]
    decide
  have hfound : containsIgnoreCase shaPrintService (dotted [] (nameLabels serviceType)) = true := by
    decide
  rw [parseRecords_record hservice (by decide) (by rw [hthree]; decide) (by decide) hlt
      hpointerLength 2 .new hat,
    parseRecords_record hlabels (by simp) hfour (by decide) hlt hserviceLength 1 _ hat.skip,
    parseRecords_record hlabels (by simp) hfour (by decide) hlt htextLength 0 _ hat.skip.skip,
    parseRecords]
  generalize hn1 : DnsState.lasts (DnsState.sees .new _) _ = n1
  obtain ⟨hhas, hbye, hqueues, -⟩ := DnsState.sees_lasts hn1
  generalize hs1 : DnsState.addRecord n1 _ recordTypePtr _ _ = s1
  obtain ⟨hhas1, hbye1, hqueues1⟩ := addRecord_pointer hs1
  have hhas1 := hhas1 (by rw [hhas, hfound, Bool.or_true])
  generalize hn2 : DnsState.lasts (s1.sees _) _ = n2
  obtain ⟨hhas2, hbye2, hqueues2, -⟩ := DnsState.sees_lasts hn2
  generalize hs2 : DnsState.addRecord n2 _ recordTypeSrv _ _ = s2
  obtain ⟨hhas3, hbye3, hqueues3, hport3⟩ := addRecord_service hport hs2
  generalize hn3 : DnsState.lasts (s2.sees _) _ = n3
  obtain ⟨hhas4, hbye4, hqueues4, hport4⟩ := DnsState.sees_lasts hn3
  generalize hs3 : DnsState.addRecord n3 _ recordTypeTxt _ _ = s3
  obtain ⟨hhas5, hbye5, hport5, hqueues5, hname⟩ := addRecord_text htext hs3
  refine ⟨s3, rfl, ?_, ?_, hname, ?_, ?_⟩
  · rw [hhas5, hhas4, hhas3, hhas2, hhas1, Bool.true_or, Bool.true_or]
  · rw [hport5, hport4, hport3]
  · rw [hqueues5, hqueues4, hqueues3, hqueues2, hqueues1, hqueues]
    rfl
  · rw [hbye5, hbye4, hbye3, hbye2, hbye1, hbye, ← wholeSeconds_eq_zero ttl]
    simp only [DnsState.new, Bool.false_or, Bool.or_self, beq_iff_eq]

/-- A packet with the header of an announcement is read record by record. -/
lemma parseDnsResponse_header {tail rest : Bytes} (senderAddress : Option Chars) :
    parseDnsResponse (header messageFlagsResponse 0 3 ++ tail ++ rest)
        (header messageFlagsResponse 0 3 ++ tail).length senderAddress
      = (parseRecords (header messageFlagsResponse 0 3 ++ tail) 3 12 .new).service
          senderAddress := by
  have hheader : header messageFlagsResponse 0 3 = [0, 0, 132, 0, 0, 0, 0, 3, 0, 0, 0, 0] := by
    decide
  have hflags : ¬ ofBe16 132 0 &&& 0x8000 = 0 := by decide
  have hlength : ¬ (header messageFlagsResponse 0 3 ++ tail).length < 12 := by
    rw [List.length_append, hheader]
    simp
  rw [parseDnsResponse, if_neg hlength, List.take_left, hheader]
  simp only [List.cons_append, List.nil_append, List.getD_cons_zero, List.getD_cons_succ, hflags,
    if_false]
  rfl

/-- What the service says once its records are read. -/
lemma service_eq {s : DnsState} {port : ℕ} {label : Chars} (senderAddress : Option Chars)
    (hhas : s.hasShaPrintRecord = true) (hport : s.srvPort = some port)
    (hname : s.txtKeyValues.lookup "name".toList = some label) :
    ∃ found, s.service senderAddress = some found ∧ found.port = port
      ∧ found.computerName = label ∧ found.advertisedQueues = s.advertisedQueues
      ∧ found.isGoodbye = s.isGoodbye := by
  rw [DnsState.service, hhas, hport, hname]
  exact ⟨_, rfl, rfl, rfl, rfl, rfl⟩

/-- **The browsers agree.** What the desktop announces for a label, a port and some printers
is read by the Android client and by the desktop's own reader as that label, that port and
the printers that the packet carries, which are the first of those advertised; Android takes
it for a goodbye exactly if its lifetime is zero. -/
theorem browser_reads_announcement {a : Advertised} {ttl : Duration} {packet : Bytes}
    (hport : a.port < 65536) (h : a.encode ttl = .ok packet) (rest : Bytes)
    (senderAddress : Option Chars) :
    ∃ (carried : List PrinterName) (found : DiscoveredService) (message : Message)
      (service : Service),
      carried <+: a.printers
        ∧ encodeAnnouncement a.label a.target a.port (properties a.label carried) ttl = .ok packet
        ∧ parseDnsResponse (packet ++ rest) packet.length senderAddress = some found
        ∧ found.port = a.port ∧ found.computerName = a.label
        ∧ found.advertisedQueues = carried.map (·.chars) ∧ (found.isGoodbye = true ↔ ttl = 0)
        ∧ Message.parse packet = .ok message ∧ services message = [service]
        ∧ service.port = a.port ∧ propertyValues service nameProperty = [a.label]
        ∧ propertyValues service queueProperty = carried.map (·.chars)
        ∧ (service.ttl = 0 ↔ ttl = 0) := by
  obtain ⟨carried, hcarried, hencode⟩ := Advertised.exists_carried h
  obtain ⟨message, hmessage, hservices⟩ :=
    parse_announcement hport no_equals_in_properties hencode
  obtain ⟨s, hs, hhas, hsrv, hname, hqueues, hbye⟩ := parseRecords_announcement hport hencode
  obtain ⟨found, hfound, hfoundPort, hfoundName, hfoundQueues, hfoundBye⟩ :=
    service_eq senderAddress hhas hsrv hname
  obtain ⟨text, -, -, -, -, -, -, -, -, -, hpacket⟩ := exists_records hencode
  refine ⟨carried, found, message, _, hcarried, hencode, ?_, hfoundPort, hfoundName,
    hfoundQueues.trans hqueues, by rw [hfoundBye, hbye], hmessage, hservices, rfl,
    propertyValues_name rfl, propertyValues_queue rfl, ofSecs_wholeSeconds_eq_zero ttl⟩
  rw [← hs] at hfound
  rw [hpacket] at hfound ⊢
  exact (parseDnsResponse_header senderAddress).trans hfound

def officePrinter : PrinterName := ⟨"Büro 2=links", by decide, by decide, by decide, by decide⟩

/-- A server that shares a printer with an equals sign in its name. -/
def officeAdvertised : Advertised :=
  ⟨"DESKTOP=ABC".toList, "DESKTOP=ABC.local.".toList, 48631, [officePrinter]⟩

theorem officeAdvertised_read :
    ∃ packet found, officeAdvertised.encode 0 = .ok packet
      ∧ parseDnsResponse packet packet.length none = some found
      ∧ found.computerName = "DESKTOP=ABC".toList ∧ found.isGoodbye = true := by
  have hsmall : ((encodeAnnouncement officeAdvertised.label officeAdvertised.target
      officeAdvertised.port (properties officeAdvertised.label officeAdvertised.printers)
      0).toOption.any fun packet => packet.length ≤ maxPacket) = true := by
    decide +kernel
  have hencode : ∃ packet, officeAdvertised.encode 0 = .ok packet := by
    rw [Advertised.encode, Advertised.encodeLoop,
      List.take_of_length_le (show officeAdvertised.printers.length ≤ _ by decide)]
    cases hpacket : encodeAnnouncement officeAdvertised.label officeAdvertised.target
        officeAdvertised.port (properties officeAdvertised.label officeAdvertised.printers) 0 with
    | error e =>
        rw [hpacket] at hsmall
        cases hsmall
    | ok packet =>
        rw [hpacket] at hsmall
        exact ⟨packet, if_pos (.inl (of_decide_eq_true hsmall))⟩
  obtain ⟨packet, hpacket⟩ := hencode
  obtain ⟨carried, found, message, service, -, -, hfound, -, hname, -, hbye, -⟩ :=
    browser_reads_announcement (by decide) hpacket [] none
  rw [List.append_nil] at hfound
  exact ⟨packet, found, hpacket, hfound, hname, hbye.mpr rfl⟩

end Written

end ShaPrint.Android
