import ShaPrint.Discovery.Wire

/-!
An announcement reads back as the service it describes.

* `Framed`: labels as the reader accepts them; `reads_name`, `reads_record`: the reader on
  what the encoder writes.
* `exists_records`: an announcement is a header and three records.
* `announcement_roundTrip`: the service that the reader joins from them.
-/

namespace ShaPrint.Discovery

open BigEndian Split Cursor

variable {packet : Bytes}

/-! ### Reading what was written -/

lemma take_at {position : ℕ} {x rest : Bytes} (h : At packet position (x ++ rest)) :
    take packet position x.length = .ok (x, position + x.length) := by
  rw [take, h.take?]

lemma reads_u16 {n : ℕ} (hn : n < 65536) : Reads packet (readU16 packet) (be16 n) n := by
  intro position rest h
  have htake := take_at h
  rw [be16_length] at htake
  rw [readU16, htake, Except.map]
  simp only [be16, List.getD_cons_zero, List.getD_cons_succ, ofBe16_be16 hn, List.length_cons,
    List.length_nil]

lemma reads_u32 {n : ℕ} (hn : n < 4294967296) : Reads packet (readU32 packet) (be32 n) n := by
  intro position rest h
  have htake := take_at h
  rw [be32_length] at htake
  rw [readU32, htake, Except.map]
  simp only [be32, List.getD_cons_zero, List.getD_cons_succ, ofBe32_be32 hn, List.length_cons,
    List.length_nil]

/-- A label that the encoder can write. -/
def IsDnsLabel (label : Chars) : Prop := label ≠ [] ∧ (utf8 label).length ≤ maxLabel

/-- The labels of a name behind their lengths, and the root label. -/
def nameBytes (labels : List Chars) : Bytes :=
  labels.flatMap (fun label => frame (utf8 label)) ++ [0]

/-- The length byte of a label is no pointer. -/
lemma label_byte {n : ℕ} (hpos : 0 < n) (hle : n ≤ maxLabel) :
    UInt8.ofNat n &&& 0xc0 = 0x00 ∧ UInt8.ofNat n ≠ 0 ∧ (UInt8.ofNat n).toNat = n := by
  have hall : ∀ n < 64, 0 < n →
      UInt8.ofNat n &&& 0xc0 = 0x00 ∧ UInt8.ofNat n ≠ 0 ∧ (UInt8.ofNat n).toNat = n := by
    decide
  exact hall n (Nat.lt_succ_of_le hle) hpos

lemma utf8_length_pos {s : Chars} (h : s ≠ []) : 0 < (utf8 s).length := by
  obtain ⟨c, cs, rfl⟩ := List.exists_cons_of_ne_nil h
  have hc := c.utf8Size_pos
  calc 0 < c.utf8Size + (utf8 cs).length := by omega
    _ = (String.utf8EncodeChar c ++ utf8 cs).length := by
      rw [List.length_append, String.length_utf8EncodeChar]
    _ = (utf8 (c :: cs)).length := rfl

lemma nameLoop_at {labels : List Chars} (hlabels : ∀ label ∈ labels, IsDnsLabel label)
    (read : List Chars) {position : ℕ} {rest : Bytes}
    (h : At packet position (nameBytes labels ++ rest)) :
    nameLoop packet read 0 position none
      = .ok (read ++ labels, position + (nameBytes labels).length) := by
  induction labels generalizing read position with
  | nil =>
      have hget : packet[position]? = some 0 := h.getElem?
      rw [nameLoop]
      split
      · simp_all
      · rename_i length hlength
        obtain rfl : length = 0 := Option.some.inj (hlength.symm.trans hget)
        simp [nameBytes]
  | cons label labels ih =>
      obtain ⟨hne, hle⟩ := hlabels label (by simp)
      obtain ⟨hmask, hzero, hnat⟩ := label_byte (utf8_length_pos hne) hle
      have hat : At packet position
          (UInt8.ofNat (utf8 label).length :: (utf8 label ++ (nameBytes labels ++ rest))) := by
        simpa [nameBytes, frame] using h
      have hget := hat.getElem?
      have htake := hat.tail.take?
      have hnext := ih (fun l hl => hlabels l (by simp [hl])) (read ++ [label]) hat.tail.skip
      rw [nameLoop]
      split
      · simp_all
      · rename_i length hlength
        obtain rfl : length = UInt8.ofNat (utf8 label).length :=
          Option.some.inj (hlength.symm.trans hget)
        rw [if_pos hmask, if_neg hzero, hnat, htake]
        simp only [fromUtf8_utf8, String.toList_ofList, hnext]
        simp [nameBytes, Nat.add_assoc, Nat.add_comm, Nat.add_left_comm]

lemma reads_name {labels : List Chars} (hlabels : ∀ label ∈ labels, IsDnsLabel label) :
    Reads packet (readName packet) (nameBytes labels) (joinLabels labels) := by
  intro position rest h
  rw [readName, nameLoop_at hlabels [] h]
  rfl

/-! ### Names -/

/-- What `pushName` accepts, and what it appends. -/
lemma pushName_eq_ok {name : Chars} {bytes : Bytes} (h : pushName name = .ok bytes) :
    (∀ label ∈ nameLabels name, IsDnsLabel label) ∧ bytes = nameBytes (nameLabels name) := by
  unfold pushName at h
  split at h
  · cases h
  · rename_i hlong
    split at h
    · cases h
    · refine ⟨fun label hlabel => ⟨?_, ?_⟩, (Except.ok.inj h).symm⟩
      · simpa using (List.mem_filter.mp hlabel).2
      · by_contra hgt
        exact hlong (List.any_eq_true.mpr ⟨label, hlabel, by simpa using hgt⟩)

/-- The name of an instance has the label and the labels of the service type. -/
lemma nameLabels_instance {label : Chars} (hne : label ≠ []) (hdot : '.' ∉ label) :
    nameLabels (label ++ '.' :: serviceType) = label :: nameLabels serviceType := by
  unfold nameLabels
  rw [splitOn_append_cons hdot, List.filter_cons_of_pos (by simpa using hne)]

lemma joinLabels_serviceType : joinLabels (nameLabels serviceType) = serviceType := by decide

/-- A usable label, and the name of its instance. -/
lemma instanceName_eq_ok {label name : Chars} (h : instanceName label = .ok name) :
    trim label ≠ [] ∧ '.' ∉ trim label ∧ name = trim label ++ '.' :: serviceType := by
  unfold instanceName at h
  dsimp only at h
  split at h
  · cases h
  · rename_i husable
    simp only [Bool.not_eq_eq_eq_not, Bool.not_true, Bool.not_eq_false, Bool.and_eq_true,
      decide_eq_true_eq, List.contains_eq_mem, decide_eq_false_iff_not] at husable
    exact ⟨husable.1.1.1, husable.1.2, (Except.ok.inj h).symm⟩

lemma joinLabels_instance {label : Chars} (hne : label ≠ []) (hdot : '.' ∉ label) :
    joinLabels (nameLabels (label ++ '.' :: serviceType)) = label ++ '.' :: serviceType := by
  have hjoin := joinLabels_serviceType
  rw [nameLabels_instance hne hdot]
  unfold joinLabels at hjoin ⊢
  rw [List.flatMap_cons, hjoin, List.append_assoc, List.singleton_append]

/-! ### Records -/

/-- The bytes of a record. -/
def recordBytes (labels : List Chars) (recordType recordClass lifetime : ℕ) (data : Bytes) : Bytes :=
  nameBytes labels ++ (be16 recordType ++ (be16 recordClass ++ (be32 lifetime
    ++ (be16 data.length ++ data))))

lemma pushRecord_eq_ok {labels : List Chars} {recordType recordClass lifetime : ℕ}
    {data bytes : Bytes}
    (h : pushRecord (nameBytes labels) recordType recordClass lifetime data = .ok bytes) :
    data.length < 65536 ∧ bytes = recordBytes labels recordType recordClass lifetime data := by
  obtain ⟨framed, hframed, rfl⟩ := except_map_eq_ok.mp h
  unfold pushRecordData at hframed
  split at hframed
  · obtain rfl := Except.ok.inj hframed
    exact ⟨‹_›, by simp [recordBytes]⟩
  · cases hframed

/-- The reader takes a record for its fields, if it takes the data for `data`. -/
lemma reads_record {labels : List Chars} {recordType recordClass lifetime : ℕ} {bytes : Bytes}
    {data : RecordData} (hlabels : ∀ label ∈ labels, IsDnsLabel label)
    (htype : recordType < 65536) (hclass : recordClass < 65536) (hlifetime : lifetime < 4294967296)
    (hbytes : bytes.length < 65536)
    (hdata : ∀ (start : ℕ) (rest : Bytes), At packet start (bytes ++ rest) →
      decodeData packet recordType start bytes = .ok data) :
    Reads packet (readRecord packet) (recordBytes labels recordType recordClass lifetime bytes)
      ⟨joinLabels labels, recordType, recordClass &&& unicastOrCacheFlush != 0, .ofSecs lifetime,
        data⟩ := by
  intro position rest h
  simp only [recordBytes, List.append_assoc] at h
  have h1 := h.skip
  have h2 := h1.skip
  have h3 := h2.skip
  have h4 := h3.skip
  have h5 := h4.skip
  rw [readRecord, reads_name hlabels _ _ h, except_ok_do]
  dsimp only
  rw [reads_u16 htype _ _ h1, except_ok_do]
  dsimp only
  rw [reads_u16 hclass _ _ h2, except_ok_do]
  dsimp only
  rw [reads_u32 hlifetime _ _ h3, except_ok_do]
  dsimp only
  rw [reads_u16 hbytes _ _ h4, except_ok_do]
  dsimp only
  rw [take_at h5, except_ok_do]
  dsimp only
  rw [hdata _ _ h5, except_ok_do]
  have hend : position + (nameBytes labels).length + (be16 recordType).length
      + (be16 recordClass).length + (be32 lifetime).length + (be16 bytes.length).length
      + bytes.length
      = position + (recordBytes labels recordType recordClass lifetime bytes).length := by
    simp only [recordBytes, List.length_append]
    omega
  rw [hend]
  rfl

lemma decodeData_pointer {labels : List Chars} (hlabels : ∀ label ∈ labels, IsDnsLabel label)
    (start : ℕ) (rest : Bytes) (h : At packet start (nameBytes labels ++ rest)) :
    decodeData packet recordTypePtr start (nameBytes labels)
      = .ok (.pointer (joinLabels labels)) := by
  rw [decodeData, if_pos rfl, reads_name hlabels _ _ h, except_ok_do]
  dsimp only
  rw [expectConsumed, if_neg (by simp), except_ok_do]
  rfl

lemma decodeData_service {labels : List Chars} (hlabels : ∀ label ∈ labels, IsDnsLabel label)
    {port : ℕ} (hport : port < 65536) (start : ℕ) (rest : Bytes)
    (h : At packet start (be16 0 ++ be16 0 ++ be16 port ++ nameBytes labels ++ rest)) :
    decodeData packet recordTypeSrv start (be16 0 ++ be16 0 ++ be16 port ++ nameBytes labels)
      = .ok (.service 0 0 port (joinLabels labels)) := by
  have hlength : ¬ (be16 0 ++ be16 0 ++ be16 port ++ nameBytes labels).length
      < fixedServiceLength := by
    simp [fixedServiceLength]
    omega
  have h0 : At packet start (be16 0 ++ (be16 0 ++ (be16 port ++ (nameBytes labels ++ rest)))) := by
    simpa using h
  have h1 := h0.skip
  have h2 := h1.skip
  have h3 := h2.skip
  rw [decodeData, if_neg (by decide), if_pos rfl, if_neg hlength,
    reads_u16 (by decide) _ _ h0, except_ok_do]
  dsimp only
  rw [reads_u16 (by decide) _ _ h1, except_ok_do]
  dsimp only
  rw [reads_u16 hport _ _ h2, except_ok_do]
  dsimp only
  rw [reads_name hlabels _ _ h3, except_ok_do]
  dsimp only
  have hend : start + (be16 0).length + (be16 0).length + (be16 port).length
      + (nameBytes labels).length
      = start + (be16 0 ++ be16 0 ++ be16 port ++ nameBytes labels).length := by
    simp only [List.length_append]
    omega
  rw [expectConsumed, if_neg (not_not.mpr hend), except_ok_do]
  rfl

/-- A text record holds its properties, if no key has an equals sign. -/
lemma readProperties_pushProperties {properties : List (Chars × Chars)} {bytes : Bytes}
    (hkeys : ∀ property ∈ properties, '=' ∉ property.1) (h : pushProperties properties = .ok bytes) :
    readProperties bytes = .ok properties := by
  induction properties generalizing bytes with
  | nil =>
      obtain rfl := Except.ok.inj h
      rw [readProperties]
  | cons property properties ih =>
      rw [pushProperties] at h
      split at h
      · cases h
      · rename_i hshort
        obtain ⟨more, hmore, rfl⟩ := except_map_eq_ok.mp h
        have hlength : (UInt8.ofNat (utf8 (propertyEntry property)).length).toNat
            = (utf8 (propertyEntry property)).length := by
          rw [UInt8.toNat_ofNat']
          unfold maxTxtString at hshort
          omega
        have hsplit : splitOnce (propertyEntry property) ['='] = some property :=
          splitOnce_singleton.mpr ⟨rfl, hkeys property (by simp)⟩
        have hmore := ih (fun p hp => hkeys p (by simp [hp])) hmore
        rw [frame, List.cons_append, readProperties, hlength, if_neg (by simp)]
        simp only [List.take_left', List.drop_left', fromUtf8Lossy_utf8, hsplit, hmore,
          Option.getD_some]
        rfl

/-! ### Messages -/

lemma header_append (flags questions answers : ℕ) (rest : Bytes) :
    header flags questions answers ++ rest
      = be16 0 ++ (be16 flags ++ (be16 questions ++ (be16 answers ++ (be16 0 ++ (be16 0 ++ rest)))))
      := by
  simp [header]

/-- A message without questions is read as its records. -/
lemma parse_header {flags answers : ℕ} {xs : List Bytes} {records : List Record}
    (hpacket : packet = header flags 0 answers ++ xs.flatten) (hflags : flags < 65536)
    (hcount : answers < 65536) (hanswers : records.length = answers)
    (hrecords : List.Forall₂ (Reads packet (readRecord packet)) xs records) :
    Message.parse packet = .ok ⟨[], records⟩ := by
  subst hanswers
  have hstart := at_start packet
  have h0 : At packet 0 (be16 0 ++ (be16 flags ++ (be16 0 ++ (be16 records.length ++ (be16 0
      ++ (be16 0 ++ (xs.flatten ++ []))))))) := by
    simpa [hpacket, header] using hstart
  have h1 := h0.skip
  have h2 := h1.skip
  have h3 := h2.skip
  have h4 := h3.skip
  have h5 := h4.skip
  have h6 := h5.skip
  rw [Message.parse, reads_u16 (by decide) _ _ h0, except_ok_do]
  dsimp only
  rw [reads_u16 hflags _ _ h1, except_ok_do]
  dsimp only
  rw [reads_u16 (by decide) _ _ h2, except_ok_do]
  dsimp only
  rw [reads_u16 hcount _ _ h3, except_ok_do]
  dsimp only
  rw [reads_u16 (by decide) _ _ h4, except_ok_do]
  dsimp only
  rw [reads_u16 (by decide) _ _ h5, except_ok_do]
  dsimp only
  rw [readMany, except_ok_do]
  dsimp only
  simp only [Nat.add_zero]
  rw [Reads.many hrecords _ _ h6, except_ok_do]
  rfl

lemma isNamed_self (name : Chars) : isNamed name name = true := eqIgnoreAsciiCase_self _

/-- The three records of one service are joined to it. -/
lemma services_records (name target : Chars) (port : ℕ) (properties : List (Chars × Chars))
    (flush flush' flush'' : Bool) (ttl ttl' ttl'' : Duration) (priority weight : ℕ) :
    services ⟨[], [⟨serviceType, recordTypePtr, flush, ttl, .pointer name⟩,
        ⟨name, recordTypeSrv, flush', ttl', .service priority weight port target⟩,
        ⟨name, recordTypeTxt, flush'', ttl'', .text properties⟩]⟩
      = [⟨name, target, port, properties, ttl⟩] := by
  have hname := isNamed_self name
  have htype := isNamed_self serviceType
  have hsrv : recordTypeSrv ≠ recordTypePtr := by decide
  have htxt : recordTypeTxt ≠ recordTypePtr := by decide
  simp [services, pointedService, RecordData.isService, RecordData.isText, hname, htype, hsrv, htxt]

/-! ### The round trip -/

/-- A name as the reader gives it back. -/
def normalizeName (name : Chars) : Chars := joinLabels (nameLabels name)

/-- A duration in whole seconds, rounded up. -/
def wholeSeconds (ttl : Duration) : ℕ := (ttl + 999999999) / 1000000000

lemma recordLifetime_eq_ok {ttl : Duration} {lifetime : ℕ} (h : recordLifetime ttl = .ok lifetime) :
    lifetime = wholeSeconds ttl ∧ lifetime < 4294967296 := by
  have hrounded : ∀ n : ℕ, (if n = 0 then 0
      else n / 1000000000 + (if 0 < n % 1000000000 then 1 else 0))
        = (n + 999999999) / 1000000000 := by
    intro n
    split_ifs <;> omega
  rw [recordLifetime, hrounded ttl] at h
  split at h
  · obtain rfl := Except.ok.inj h
    exact ⟨rfl, ‹_›⟩
  · cases h

/-- A lifetime is rounded to zero only if it is zero. -/
lemma wholeSeconds_eq_zero (ttl : Duration) : wholeSeconds ttl = 0 ↔ ttl = 0 := by
  have hzero : ∀ n : ℕ, (n + 999999999) / 1000000000 = 0 ↔ n = 0 := by
    intro n
    omega
  exact hzero ttl

lemma ofSecs_wholeSeconds_eq_zero (ttl : Duration) :
    Duration.ofSecs (wholeSeconds ttl) = 0 ↔ ttl = 0 := by
  rw [← wholeSeconds_eq_zero ttl, Duration.ofSecs, Nat.mul_eq_zero]
  exact or_iff_left (by decide)

/-- An announcement is a header and the records of its service. -/
theorem exists_records {label target : Chars} {port : ℕ} {properties : List (Chars × Chars)}
    {ttl : Duration} {packet : Bytes}
    (h : encodeAnnouncement label target port properties ttl = .ok packet) :
    ∃ text, pushProperties properties = .ok text ∧ text.length < 65536
      ∧ trim label ≠ [] ∧ '.' ∉ trim label
      ∧ (∀ l ∈ trim label :: nameLabels serviceType, IsDnsLabel l)
      ∧ (∀ l ∈ nameLabels target, IsDnsLabel l)
      ∧ (nameBytes (trim label :: nameLabels serviceType)).length < 65536
      ∧ (be16 0 ++ be16 0 ++ be16 port ++ nameBytes (nameLabels target)).length < 65536
      ∧ wholeSeconds ttl < 4294967296
      ∧ packet = header messageFlagsResponse 0 3
        ++ [recordBytes (nameLabels serviceType) recordTypePtr classIn (wholeSeconds ttl)
              (nameBytes (trim label :: nameLabels serviceType)),
            recordBytes (trim label :: nameLabels serviceType) recordTypeSrv
              (classIn ||| unicastOrCacheFlush) (wholeSeconds ttl)
              (be16 0 ++ be16 0 ++ be16 port ++ nameBytes (nameLabels target)),
            recordBytes (trim label :: nameLabels serviceType) recordTypeTxt
              (classIn ||| unicastOrCacheFlush) (wholeSeconds ttl) text].flatten := by
  obtain ⟨name, hname, h⟩ := except_do_eq_ok.mp h
  obtain ⟨lifetime, hlifetime, h⟩ := except_do_eq_ok.mp h
  obtain ⟨serviceName, hservice, h⟩ := except_do_eq_ok.mp h
  obtain ⟨pointer, hpointer, h⟩ := except_do_eq_ok.mp h
  obtain ⟨pointerRecord, hpointerRecord, h⟩ := except_do_eq_ok.mp h
  obtain ⟨owner, howner, h⟩ := except_do_eq_ok.mp h
  obtain ⟨targetName, htarget, h⟩ := except_do_eq_ok.mp h
  obtain ⟨serviceRecord, hserviceRecord, h⟩ := except_do_eq_ok.mp h
  obtain ⟨text, htext, h⟩ := except_do_eq_ok.mp h
  obtain ⟨textRecord, htextRecord, h⟩ := except_do_eq_ok.mp h
  obtain rfl := Except.ok.inj h
  obtain ⟨hne, hdot, rfl⟩ := instanceName_eq_ok hname
  obtain ⟨rfl, hlt⟩ := recordLifetime_eq_ok hlifetime
  obtain ⟨-, rfl⟩ := pushName_eq_ok hservice
  obtain ⟨hlabels, rfl⟩ := pushName_eq_ok hpointer
  obtain ⟨-, rfl⟩ := pushName_eq_ok howner
  obtain ⟨htargets, rfl⟩ := pushName_eq_ok htarget
  rw [nameLabels_instance hne hdot] at hlabels hpointerRecord hserviceRecord htextRecord
  obtain ⟨hpointerLength, rfl⟩ := pushRecord_eq_ok hpointerRecord
  obtain ⟨hserviceLength, rfl⟩ := pushRecord_eq_ok hserviceRecord
  obtain ⟨htextLength, rfl⟩ := pushRecord_eq_ok htextRecord
  exact ⟨text, htext, htextLength, hne, hdot, hlabels, htargets, hpointerLength, hserviceLength,
    hlt, by simp⟩

/-- An announcement is read as the three records that describe its service. -/
lemma parse_announcement {label target : Chars} {port : ℕ} {properties : List (Chars × Chars)}
    {ttl : Duration} {packet : Bytes} (hport : port < 65536)
    (hkeys : ∀ property ∈ properties, '=' ∉ property.1)
    (h : encodeAnnouncement label target port properties ttl = .ok packet) :
    ∃ message, Message.parse packet = .ok message
      ∧ services message = [⟨trim label ++ '.' :: serviceType, normalizeName target, port,
          properties, .ofSecs (wholeSeconds ttl)⟩] := by
  obtain ⟨text, htext, htextLength, hne, hdot, hlabels, htargets, hpointerLength, hserviceLength,
    hlt, hpacket⟩ := exists_records h
  have hservice : ∀ l ∈ nameLabels serviceType, IsDnsLabel l := fun l hl => hlabels l (by simp [hl])
  have hjoin : joinLabels (trim label :: nameLabels serviceType) = trim label ++ '.' :: serviceType := by
    rw [← nameLabels_instance hne hdot, joinLabels_instance hne hdot]
  have hdecode : ∀ (start : ℕ) (rest : Bytes), At packet start (text ++ rest) →
      decodeData packet recordTypeTxt start text = .ok (.text properties) := by
    intro start rest _
    rw [decodeData, if_neg (by decide), if_neg (by decide), if_pos rfl,
      readProperties_pushProperties hkeys htext, Except.map]
  have hparse := parse_header hpacket (by decide) (by decide) rfl
    (.cons (reads_record hservice (by decide) (by decide) hlt hpointerLength
        (decodeData_pointer hlabels))
      (.cons (reads_record hlabels (by decide) (by decide) hlt hserviceLength
          (decodeData_service htargets hport))
        (.cons (reads_record hlabels (by decide) (by decide) hlt htextLength hdecode) .nil)))
  refine ⟨_, hparse, ?_⟩
  rw [hjoin, joinLabels_serviceType, services_records, normalizeName]

/-- **The announcement round trip.** What the reader joins from an announcement is exactly
one service: the trimmed label's instance, the target, the port, the properties in order,
and the lifetime in whole seconds rounded up, which is zero only for a goodbye. -/
theorem announcement_roundTrip {label target : Chars} {port : ℕ}
    {properties : List (Chars × Chars)} {ttl : Duration} {packet : Bytes} (hport : port < 65536)
    (hkeys : ∀ property ∈ properties, '=' ∉ property.1)
    (h : encodeAnnouncement label target port properties ttl = .ok packet) :
    ∃ message, Message.parse packet = .ok message
      ∧ services message = [⟨trim label ++ '.' :: serviceType, normalizeName target, port,
          properties, .ofSecs (wholeSeconds ttl)⟩]
      ∧ (Duration.ofSecs (wholeSeconds ttl) = 0 ↔ ttl = 0) := by
  obtain ⟨message, hmessage, hservices⟩ := parse_announcement hport hkeys h
  exact ⟨message, hmessage, hservices, ofSecs_wholeSeconds_eq_zero ttl⟩

def deskProperties : List (Chars × Chars) :=
  [("rp".toList, "ipp/print".toList), ("name".toList, "DESKTOP=ABC".toList),
    ("queue".toList, "Zebra".toList)]

theorem desk_announcement :
    ∃ packet message,
      encodeAnnouncement " DESKTOP-ABC ".toList "desk..local".toList 48631 deskProperties 400000000
        = .ok packet
      ∧ Message.parse packet = .ok message
      ∧ services message = [⟨"DESKTOP-ABC._shaprint-ipps._tcp.local.".toList, "desk.local.".toList,
          48631, deskProperties, .ofSecs 1⟩] := by
  have hsome : (encodeAnnouncement " DESKTOP-ABC ".toList "desk..local".toList 48631 deskProperties
      400000000).toOption.isSome = true := by
    decide +kernel
  cases hpacket : encodeAnnouncement " DESKTOP-ABC ".toList "desk..local".toList 48631
      deskProperties 400000000 with
  | error e =>
      rw [hpacket] at hsome
      cases hsome
  | ok packet =>
      have hkeys : ∀ property ∈ deskProperties, '=' ∉ property.1 :=
        List.all_iff_forall_prop.mp (by decide)
      obtain ⟨message, hmessage, hservices, -⟩ :=
        announcement_roundTrip (by decide) hkeys hpacket
      have hservice : trim " DESKTOP-ABC ".toList ++ '.' :: serviceType
          = "DESKTOP-ABC._shaprint-ipps._tcp.local.".toList := by decide
      have htarget : normalizeName "desk..local".toList = "desk.local.".toList := by decide
      rw [hservice, htarget] at hservices
      exact ⟨packet, message, rfl, hmessage, hservices⟩

end ShaPrint.Discovery
