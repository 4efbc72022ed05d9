import ShaPrint.Discovery.Advertise

/-!
Whether a server can announce what it shares.

* `IsUsable`, `IsHost`: the labels and the targets of computers; `usableLabel` and
  `hostTarget` give such ones for every name.
* `announcementLength`: the bytes of an announcement. Besides the queues there is always room
  for it (`announcementLength_nil_le`).
* `Announces`: an announcement of the first printers that is read as them, within `maxPacket`
  bytes, and that has no room for one more.
* `announces_iff`: a server announces itself exactly when each of the first 48 names takes at
  most 249 bytes. A name has at most 220 characters, so 880 bytes, and the loop that drops
  printers is left by the first one whose text is too long.
-/

namespace ShaPrint.Discovery

open BigEndian Split Cursor

/-! ### Computers -/

/-- What a label keeps of a name. -/
def isLabelChar (c : Char) : Bool := c.isAlphanum || c == '-' || c == '_' || c == ' '

/-- `usable_label` -/
def usableLabel (name : Chars) : Chars :=
  let cleaned := trim (name.map fun c => if isLabelChar c then c else '-')
  if cleaned = [] then "ShaPrint server".toList else cleaned.take 63

/-- The target of the server with a label. -/
def hostTarget (label : Chars) : Chars := label ++ ".local.".toList

/-- A label that a browser can show and match. -/
structure IsUsable (label : Chars) : Prop where
  trim_ne_nil : trim label ≠ []
  length_le : label.length ≤ maxLabel
  no_dot : '.' ∉ label
  printable : ∀ c ∈ label, 0x20 ≤ c.toNat ∧ c.toNat < 0x7f

/-- The name of a host, which takes at most 255 bytes. -/
structure IsHost (target : Chars) : Prop where
  ne_nil : nameLabels target ≠ []
  labels : ∀ label ∈ nameLabels target, (utf8 label).length ≤ maxLabel
  length_le : (nameBytes (nameLabels target)).length ≤ 255

lemma trim_take_ne_nil {s : Chars} (hs : trim s = s) (hne : s ≠ []) (n : ℕ) :
    trim (s.take (n + 1)) ≠ [] := by
  obtain ⟨c, s, rfl⟩ := List.exists_cons_of_ne_nil hne
  have hc : isWhitespace c = false := (trimBoth_eq_self_iff.mp hs).1 c rfl
  have hsingle : Trimmed isWhitespace [c] := ⟨by simpa using hc, by simpa using hc⟩
  obtain ⟨rest, hrest⟩ := exists_trimBoth_append hsingle (by simp) (s.take n)
  rw [List.take_succ_cons, trim, ← List.singleton_append, hrest]
  simp

lemma isLabelChar_bounds {c : Char} (h : isLabelChar c = true) :
    c ≠ '.' ∧ 0x20 ≤ c.toNat ∧ c.toNat < 0x7f := by
  have hlt : c.toNat < 128 := by
    simp only [isLabelChar, Bool.or_eq_true, beq_iff_eq] at h
    rcases h with ((h | rfl) | rfl) | rfl
    · exact isAlphanum_lt h
    all_goals decide
  have hall : ∀ n < 128, isLabelChar (.ofNat n) = true →
      Char.ofNat n ≠ '.' ∧ 0x20 ≤ (Char.ofNat n).toNat ∧ (Char.ofNat n).toNat < 0x7f := by
    decide +kernel
  exact forall_ascii (P := fun c => isLabelChar c = true →
    c ≠ '.' ∧ 0x20 ≤ c.toNat ∧ c.toNat < 0x7f) hall hlt h

lemma isLabelChar_of_mem {name : Chars} {c : Char}
    (hc : c ∈ trim (name.map fun c => if isLabelChar c then c else '-')) :
    isLabelChar c = true := by
  obtain ⟨d, -, rfl⟩ := List.mem_map.mp (trimBoth_subset hc)
  split
  · assumption
  · decide

/-- Whatever a computer is called, its label is usable. -/
theorem isUsable_usableLabel (name : Chars) : IsUsable (usableLabel name) := by
  unfold usableLabel
  dsimp only
  split
  · exact ⟨by decide, by decide, by decide, List.all_iff_forall_prop.mp (by decide)⟩
  · rename_i hne
    have hchars : ∀ c ∈ (trim (name.map fun c => if isLabelChar c then c else '-')).take 63,
        c ≠ '.' ∧ 0x20 ≤ c.toNat ∧ c.toNat < 0x7f := fun c hc =>
      isLabelChar_bounds (isLabelChar_of_mem (List.mem_of_mem_take hc))
    exact {
      trim_ne_nil := trim_take_ne_nil (trim_trim _) hne 62
      length_le := List.length_take_le 63 _
      no_dot := fun hdot => (hchars '.' hdot).1 rfl
      printable := fun c hc => (hchars c hc).2 }

lemma IsUsable.length_utf8_le {label : Chars} (h : IsUsable label) :
    (utf8 label).length ≤ maxLabel := by
  rw [length_utf8_of_ascii fun c hc => (h.printable c hc).2.trans (by decide)]
  exact h.length_le

lemma IsUsable.length_utf8_trim_le {label : Chars} (h : IsUsable label) :
    (utf8 (trim label)).length ≤ maxLabel := by
  have hascii : ∀ c ∈ trim label, c.toNat < 128 := fun c hc =>
    (h.printable c (trimBoth_subset hc)).2.trans (by decide)
  rw [length_utf8_of_ascii hascii]
  exact length_trimBoth_le.trans h.length_le

/-- The target of a usable label is a host. -/
theorem IsUsable.isHost_hostTarget {label : Chars} (h : IsUsable label) :
    IsHost (hostTarget label) := by
  have hne : label ≠ [] := by
    rintro rfl
    exact h.trim_ne_nil rfl
  have hlocal : nameLabels "local.".toList = ["local".toList] := by decide
  have hlabels : nameLabels (hostTarget label) = [label, "local".toList] := by
    calc nameLabels (hostTarget label)
        = nameLabels (label ++ '.' :: "local.".toList) := rfl
      _ = label :: nameLabels "local.".toList := by
        unfold nameLabels
        rw [splitOn_append_cons h.no_dot, List.filter_cons_of_pos (by simpa using hne)]
      _ = [label, "local".toList] := by rw [hlocal]
  have hlength := h.length_utf8_le
  have hfive : (utf8 "local".toList).length = 5 := by decide
  constructor
  · simp [hlabels]
  · rw [hlabels]
    simp only [List.forall_mem_cons, List.not_mem_nil, false_imp_iff, implies_true, and_true]
    exact ⟨hlength, by decide⟩
  · rw [hlabels]
    simp only [nameBytes, List.flatMap_cons, List.flatMap_nil, List.append_nil, List.length_append,
      length_frame, hfive, List.length_singleton]
    unfold maxLabel at hlength
    omega

/-- A server: a computer that shares some printers on a port. -/
structure Server where
  advertised : Advertised
  isUsable : IsUsable advertised.label
  isHost : IsHost advertised.target
  port_lt : advertised.port < 65536

/-- What `advertise` announces on a computer with a name. -/
def Server.ofName (name : Chars) (port : ℕ) (hport : port < 65536) (printers : List PrinterName) :
    Server where
  advertised := ⟨usableLabel name, hostTarget (usableLabel name), port, printers⟩
  isUsable := isUsable_usableLabel name
  isHost := (isUsable_usableLabel name).isHost_hostTarget
  port_lt := hport

/-- A duration that a record can hold; zero withdraws the server. -/
structure Lifetime where
  ttl : Duration
  ttl_le : ttl ≤ .ofSecs 4294967295

/-! ### Lengths -/

/-- The bytes of a text record. -/
def textLength : List (Chars × Chars) → ℕ
  | [] => 0
  | property :: properties => 1 + (utf8 (propertyEntry property)).length + textLength properties

/-- The bytes of an announcement: a header, and three records with the names that own them. -/
def announcementLength (a : Advertised) (printers : List PrinterName) : ℕ :=
  let service := (nameBytes (nameLabels serviceType)).length
  let owner := (nameBytes (trim a.label :: nameLabels serviceType)).length
  let host := (nameBytes (nameLabels a.target)).length
  12 + (service + 10 + owner) + (owner + 10 + (6 + host))
    + (owner + 10 + textLength (properties a.label printers))

/-- The name of a printer is short enough for a text record. -/
def NameFits (printer : PrinterName) : Prop := (utf8 printer.chars).length ≤ 249

instance (printer : PrinterName) : Decidable (NameFits printer) :=
  inferInstanceAs (Decidable (_ ≤ _))

lemma textLength_append (properties more : List (Chars × Chars)) :
    textLength (properties ++ more) = textLength properties + textLength more := by
  induction properties with
  | nil => rw [List.nil_append, textLength, Nat.zero_add]
  | cons property properties ih =>
      rw [List.cons_append, textLength, textLength, ih]
      omega

lemma length_queueEntry (printer : PrinterName) :
    (utf8 (propertyEntry (queueProperty, printer.chars))).length
      = 6 + (utf8 printer.chars).length := by
  calc (utf8 (propertyEntry (queueProperty, printer.chars))).length
      = (utf8 ("queue=".toList ++ printer.chars)).length := rfl
    _ = (utf8 "queue=".toList ++ utf8 printer.chars).length := by
      rw [utf8, Utf8.encode_append]
      rfl
    _ = 6 + (utf8 printer.chars).length := by
      rw [List.length_append]
      rfl

lemma length_nameEntry (label : Chars) :
    (utf8 (propertyEntry (nameProperty, label))).length = 5 + (utf8 label).length := by
  calc (utf8 (propertyEntry (nameProperty, label))).length
      = (utf8 ("name=".toList ++ label)).length := rfl
    _ = (utf8 "name=".toList ++ utf8 label).length := by
      rw [utf8, Utf8.encode_append]
      rfl
    _ = 5 + (utf8 label).length := by
      rw [List.length_append]
      rfl

/-- The properties besides the queues. -/
lemma textLength_properties (label : Chars) (printers : List PrinterName) :
    textLength (properties label printers)
      = 27 + (utf8 label).length
        + textLength (printers.map fun printer => (queueProperty, printer.chars)) := by
  have hpath : (utf8 (propertyEntry (pathProperty, resourcePath))).length = 12 := by decide
  have hversion : (utf8 (propertyEntry (versionProperty, packageVersion))).length = 7 := by decide
  rw [properties, textLength_append, textLength, textLength, textLength, textLength, hpath,
    hversion, length_nameEntry]
  omega

lemma textLength_queues_le {printers : List PrinterName} (h : ∀ p ∈ printers, NameFits p) :
    textLength (printers.map fun printer => (queueProperty, printer.chars))
      ≤ 256 * printers.length := by
  induction printers with
  | nil => exact Nat.zero_le _
  | cons printer printers ih =>
      obtain ⟨hprinter, hprinters⟩ := List.forall_mem_cons.mp h
      have hrest := ih hprinters
      unfold NameFits at hprinter
      rw [List.map_cons, textLength, length_queueEntry, List.length_cons]
      omega

lemma textLength_take_le (properties : List (Chars × Chars)) (n : ℕ) :
    textLength (properties.take n) ≤ textLength properties := by
  conv_rhs => rw [← List.take_append_drop n properties, textLength_append]
  exact Nat.le_add_right _ _

/-- Fewer printers take fewer bytes. -/
lemma announcementLength_take_le (a : Advertised) (printers : List PrinterName) (n : ℕ) :
    announcementLength a (printers.take n) ≤ announcementLength a printers := by
  have hle := textLength_take_le
    (printers.map fun printer => (queueProperty, printer.chars)) n
  rw [← List.map_take] at hle
  simp only [announcementLength, textLength_properties]
  omega

/-- There is always room for an announcement without queues. -/
theorem announcementLength_nil_le (s : Server) :
    announcementLength s.advertised [] ≤ maxPacket := by
  have hservice : (nameBytes (nameLabels serviceType)).length = 27 := by decide
  have howner : (nameBytes (trim s.advertised.label :: nameLabels serviceType)).length
      = (utf8 (trim s.advertised.label)).length + 28 := by
    rw [← Nat.add_assoc _ 27 1, ← hservice]
    simp only [nameBytes, List.flatMap_cons, List.length_append, length_frame]
    omega
  have hlabel := s.isUsable.length_utf8_le
  have htrim := s.isUsable.length_utf8_trim_le
  have hhost := s.isHost.length_le
  have hmax : maxLabel = 63 := rfl
  rw [hmax] at hlabel htrim
  simp only [announcementLength, textLength_properties, hservice, howner, List.map_nil, textLength]
  unfold maxPacket
  omega

/-! ### Encoding -/

lemma pushProperties_eq_ok {properties : List (Chars × Chars)} {text : Bytes}
    (h : pushProperties properties = .ok text) :
    text.length = textLength properties
      ∧ ∀ property ∈ properties, (utf8 (propertyEntry property)).length ≤ maxTxtString := by
  induction properties generalizing text with
  | nil =>
      obtain rfl := Except.ok.inj h
      exact ⟨rfl, by simp⟩
  | cons property properties ih =>
      rw [pushProperties] at h
      split at h
      · cases h
      · rename_i hshort
        obtain ⟨more, hmore, rfl⟩ := except_map_eq_ok.mp h
        obtain ⟨hlength, hentries⟩ := ih hmore
        refine ⟨?_, List.forall_mem_cons.mpr ⟨Nat.not_lt.mp hshort, hentries⟩⟩
        rw [List.length_append, length_frame, textLength, hlength]
        omega

lemma exists_pushProperties {properties : List (Chars × Chars)}
    (h : ∀ property ∈ properties, (utf8 (propertyEntry property)).length ≤ maxTxtString) :
    ∃ text, pushProperties properties = .ok text := by
  induction properties with
  | nil => exact ⟨[], rfl⟩
  | cons property properties ih =>
      obtain ⟨hentry, hentries⟩ := List.forall_mem_cons.mp h
      obtain ⟨text, htext⟩ := ih hentries
      rw [pushProperties, if_neg (Nat.not_lt.mpr hentry), htext]
      exact ⟨_, rfl⟩

lemma forall_properties {label : Chars} {printers : List PrinterName}
    (hlabel : (utf8 label).length ≤ maxLabel) :
    (∀ property ∈ properties label printers,
        (utf8 (propertyEntry property)).length ≤ maxTxtString)
      ↔ ∀ printer ∈ printers, NameFits printer := by
  have hpath : (utf8 (propertyEntry (pathProperty, resourcePath))).length ≤ maxTxtString := by
    decide
  have hversion : (utf8 (propertyEntry (versionProperty, packageVersion))).length
      ≤ maxTxtString := by
    decide
  have hname : (utf8 (propertyEntry (nameProperty, label))).length ≤ maxTxtString := by
    rw [length_nameEntry]
    unfold maxLabel at hlabel
    unfold maxTxtString
    omega
  have hfits : ∀ printer : PrinterName,
      (utf8 (propertyEntry (queueProperty, printer.chars))).length ≤ maxTxtString
        ↔ NameFits printer := by
    intro printer
    rw [length_queueEntry, NameFits, maxTxtString]
    omega
  simp only [properties, List.cons_append, List.nil_append, List.forall_mem_cons, hpath, hname,
    hversion, true_and, List.forall_mem_map, hfits]

lemma pushName_of_labels {name : Chars} (hne : nameLabels name ≠ [])
    (h : ∀ label ∈ nameLabels name, (utf8 label).length ≤ maxLabel) :
    pushName name = .ok (nameBytes (nameLabels name)) := by
  have hshort : ¬ ((nameLabels name).any fun label => maxLabel < (utf8 label).length) = true := by
    rw [List.any_eq_true]
    rintro ⟨label, hlabel, hlong⟩
    exact absurd (of_decide_eq_true hlong) (Nat.not_lt.mpr (h label hlabel))
  rw [pushName, if_neg hshort, if_neg hne]
  rfl

lemma IsUsable.instanceName_eq {label : Chars} (h : IsUsable label) :
    instanceName label = .ok (trim label ++ '.' :: serviceType) := by
  have hdot : '.' ∉ trim label := fun hdot => h.no_dot (trimBoth_subset hdot)
  have hbytes : ∀ byte ∈ utf8 (trim label), 0x20 ≤ byte ∧ byte < 0x7f := by
    intro byte hbyte
    obtain ⟨c, hc, hbyte⟩ := List.mem_flatMap.mp hbyte
    obtain ⟨hlow, hhigh⟩ := h.printable c (trimBoth_subset hc)
    rw [utf8EncodeChar_of_lt (hhigh.trans (by decide)), List.mem_singleton] at hbyte
    subst hbyte
    have hnat : (UInt8.ofNat c.toNat).toNat = c.toNat := by
      rw [UInt8.toNat_ofNat']
      omega
    rw [UInt8.le_iff_toNat_le, UInt8.lt_iff_toNat_lt, hnat]
    exact ⟨hlow, hhigh⟩
  have hall : ((utf8 (trim label)).all fun byte => 0x20 ≤ byte && byte < 0x7f) = true := by
    rw [List.all_eq_true]
    intro byte hbyte
    simpa using hbytes byte hbyte
  unfold instanceName
  simp only [h.trim_ne_nil, h.length_utf8_trim_le, hdot, hall, ne_eq, not_false_eq_true,
    decide_true, List.contains_eq_mem, decide_false, Bool.not_false, Bool.and_self, Bool.not_true,
    Bool.false_eq_true, if_false]

lemma recordLifetime_of_lifetime (l : Lifetime) :
    recordLifetime l.ttl = .ok (wholeSeconds l.ttl) := by
  have hle := l.ttl_le
  unfold Duration.ofSecs at hle
  have hrounded : ∀ n : ℕ, n ≤ 4294967295 * 1000000000 →
      (if n = 0 then 0 else n / 1000000000 + (if 0 < n % 1000000000 then 1 else 0))
        < 4294967296 := by
    intro n hn
    split_ifs <;> omega
  have hok : ∃ lifetime, recordLifetime l.ttl = .ok lifetime :=
    ⟨_, if_pos (hrounded l.ttl hle)⟩
  obtain ⟨lifetime, hlifetime⟩ := hok
  rw [hlifetime, (recordLifetime_eq_ok hlifetime).1]

lemma exists_pushRecord (name : Bytes) (recordType recordClass lifetime : ℕ) {data : Bytes}
    (h : data.length < 65536) :
    ∃ record, pushRecord name recordType recordClass lifetime data = .ok record := by
  rw [pushRecord, pushRecordData, if_pos h]
  exact ⟨_, rfl⟩

/-- An announcement is written, if its text record is not too long. -/
lemma exists_encodeAnnouncement (s : Server) (l : Lifetime) {properties : List (Chars × Chars)}
    (hentries : ∀ property ∈ properties, (utf8 (propertyEntry property)).length ≤ maxTxtString)
    (hlength : textLength properties < 65536) :
    ∃ packet, encodeAnnouncement s.advertised.label s.advertised.target s.advertised.port properties
      l.ttl = .ok packet := by
  obtain ⟨text, htext⟩ := exists_pushProperties hentries
  have hdot : '.' ∉ trim s.advertised.label := fun hdot =>
    s.isUsable.no_dot (trimBoth_subset hdot)
  have hlabels : nameLabels (trim s.advertised.label ++ '.' :: serviceType)
      = trim s.advertised.label :: nameLabels serviceType :=
    nameLabels_instance s.isUsable.trim_ne_nil hdot
  have hshort : ∀ label ∈ nameLabels serviceType, (utf8 label).length ≤ maxLabel :=
    List.all_iff_forall_prop.mp (by decide)
  have hservice : pushName serviceType = .ok (nameBytes (nameLabels serviceType)) :=
    pushName_of_labels (by decide) hshort
  have hinstance : pushName (trim s.advertised.label ++ '.' :: serviceType)
      = .ok (nameBytes (trim s.advertised.label :: nameLabels serviceType)) := by
    rw [← hlabels]
    refine pushName_of_labels (by simp [hlabels]) ?_
    rw [hlabels]
    exact List.forall_mem_cons.mpr ⟨s.isUsable.length_utf8_trim_le, hshort⟩
  have hhost : pushName s.advertised.target = .ok (nameBytes (nameLabels s.advertised.target)) :=
    pushName_of_labels s.isHost.ne_nil s.isHost.labels
  have hroom := announcementLength_nil_le s
  simp only [announcementLength, maxPacket] at hroom
  have hpointerLength : (nameBytes (trim s.advertised.label :: nameLabels serviceType)).length
      < 65536 := by omega
  have htransportLength : (be16 0 ++ be16 0 ++ be16 s.advertised.port
      ++ nameBytes (nameLabels s.advertised.target)).length < 65536 := by
    simp only [List.length_append, be16_length]
    omega
  have htextLength := (pushProperties_eq_ok htext).1.trans_lt hlength
  obtain ⟨pointer, hpointer⟩ := exists_pushRecord (nameBytes (nameLabels serviceType))
    recordTypePtr classIn (wholeSeconds l.ttl) hpointerLength
  obtain ⟨transport, htransport⟩ := exists_pushRecord
    (nameBytes (trim s.advertised.label :: nameLabels serviceType)) recordTypeSrv
    (classIn ||| unicastOrCacheFlush) (wholeSeconds l.ttl) htransportLength
  obtain ⟨shared, hshared⟩ := exists_pushRecord
    (nameBytes (trim s.advertised.label :: nameLabels serviceType)) recordTypeTxt
    (classIn ||| unicastOrCacheFlush) (wholeSeconds l.ttl) htextLength
  rw [encodeAnnouncement, s.isUsable.instanceName_eq, except_ok_do, recordLifetime_of_lifetime,
    except_ok_do, hservice, except_ok_do, hinstance, except_ok_do, hpointer, except_ok_do,
    except_ok_do, hhost, except_ok_do, htransport, except_ok_do, htext, except_ok_do, hshared,
    except_ok_do]
  exact ⟨_, rfl⟩

/-- The length of an announcement, and the names that it can carry. -/
lemma length_encodeAnnouncement (s : Server) {ttl : Duration} {printers : List PrinterName}
    {packet : Bytes}
    (h : encodeAnnouncement s.advertised.label s.advertised.target s.advertised.port
      (properties s.advertised.label printers) ttl = .ok packet) :
    packet.length = announcementLength s.advertised printers
      ∧ ∀ printer ∈ printers, NameFits printer := by
  obtain ⟨text, htext, -, -, -, -, -, -, -, -, rfl⟩ := exists_records h
  obtain ⟨hlength, hentries⟩ := pushProperties_eq_ok htext
  refine ⟨?_, (forall_properties s.isUsable.length_utf8_le).mp hentries⟩
  simp only [List.length_append, List.flatten_cons, List.flatten_nil, List.length_nil, recordBytes,
    header, be16_length, be32_length, hlength, announcementLength]
  omega

/-! ### Announcing -/

/-- The queues that a browser reads out of a packet. -/
def carriedQueues (packet : Bytes) : Except AppError (List Chars) :=
  (Message.parse packet).map fun message =>
    (((services message).flatMap Service.properties).filter fun property =>
      property.1 == queueProperty).map Prod.snd

/-- The printers are announced in a packet within the limit. -/
def FitsPacket (a : Advertised) (ttl : Duration) (printers : List PrinterName) : Prop :=
  ∃ packet,
    encodeAnnouncement a.label a.target a.port (properties a.label printers) ttl = .ok packet
      ∧ packet.length ≤ maxPacket

/-- A packet announces the first `n` printers: those that are shared, or as many as there is
room for, if it need not be more than `cap`. -/
structure AnnouncesFirst (a : Advertised) (ttl : Duration) (cap n : ℕ) (packet : Bytes) : Prop where
  encoded : a.encode ttl = .ok packet
  length_le : packet.length ≤ maxPacket
  queues : carriedQueues packet = .ok ((a.printers.take n).map PrinterName.chars)
  maximal : min cap a.printers.length ≤ n ∨ ¬ FitsPacket a ttl (a.printers.take (n + 1))

/-- There is room for the printers. -/
def HasRoom (a : Advertised) (printers : List PrinterName) : Prop :=
  (∀ printer ∈ printers, NameFits printer) ∧ announcementLength a printers ≤ maxPacket

instance (a : Advertised) (printers : List PrinterName) : Decidable (HasRoom a printers) :=
  inferInstanceAs (Decidable (_ ∧ _))

/-- A server announces as many of its printers as there is room for, up to `cap` of them. -/
def Announces (a : Advertised) (ttl : Duration) (cap : ℕ) : Prop :=
  ∃ n packet, AnnouncesFirst a ttl cap n packet

lemma carriedQueues_of_encode {a : Advertised} {ttl : Duration} {printers : List PrinterName}
    {packet : Bytes} (hport : a.port < 65536) (h : encodeAnnouncement a.label a.target a.port
      (properties a.label printers) ttl = .ok packet) :
    carriedQueues packet = .ok (printers.map PrinterName.chars) := by
  obtain ⟨message, hmessage, hservices⟩ := parse_announcement hport no_equals_in_properties h
  have hpath : (pathProperty == queueProperty) = false := by decide
  have hname : (nameProperty == queueProperty) = false := by decide
  have hversion : (versionProperty == queueProperty) = false := by decide
  rw [carriedQueues, hmessage, Except.map, hservices]
  simp [properties, hpath, hname, hversion, List.filter_map, Function.comp_def]

/-- When the printers fit. -/
lemma fitsPacket_iff (s : Server) (l : Lifetime) {printers : List PrinterName} :
    FitsPacket s.advertised l.ttl printers
      ↔ HasRoom s.advertised printers := by
  constructor
  · rintro ⟨packet, hencode, hle⟩
    obtain ⟨hlength, hnames⟩ := length_encodeAnnouncement s hencode
    exact ⟨hnames, hlength ▸ hle⟩
  · rintro ⟨hnames, hle⟩
    have hentries := (forall_properties s.isUsable.length_utf8_le).mpr hnames
    have htext : textLength (properties s.advertised.label printers) < 65536 := by
      simp only [announcementLength, maxPacket] at hle
      omega
    obtain ⟨packet, hencode⟩ := exists_encodeAnnouncement s l hentries htext
    exact ⟨packet, hencode, (length_encodeAnnouncement s hencode).1.trans_le hle⟩

lemma FitsPacket.take {s : Server} {l : Lifetime} {printers : List PrinterName} {n m : ℕ}
    (h : FitsPacket s.advertised l.ttl (printers.take m)) (hle : n ≤ m) :
    FitsPacket s.advertised l.ttl (printers.take n) := by
  obtain ⟨hnames, hlength⟩ := (fitsPacket_iff s l).mp h
  have htake : printers.take n = (printers.take m).take n := by
    rw [List.take_take, Nat.min_eq_left hle]
  rw [fitsPacket_iff, htake]
  exact ⟨fun p hp => hnames p (List.mem_of_mem_take hp),
    (announcementLength_take_le _ _ _).trans hlength⟩

/-- The loop ends at the first printers that fit. -/
lemma encodeLoop_of_names (s : Server) (l : Lifetime) {printers : List PrinterName}
    (hnames : ∀ printer ∈ printers, NameFits printer) (hlength : printers.length ≤ 48) :
    ∃ n packet, s.advertised.encodeLoop l.ttl printers = .ok packet
      ∧ encodeAnnouncement s.advertised.label s.advertised.target s.advertised.port
          (properties s.advertised.label (printers.take n)) l.ttl = .ok packet
      ∧ packet.length ≤ maxPacket
      ∧ (n = printers.length
        ∨ n < printers.length ∧ ¬ FitsPacket s.advertised l.ttl (printers.take (n + 1))) := by
  induction hk : printers.length generalizing printers with
  | zero =>
      obtain rfl := List.length_eq_zero_iff.mp hk
      have hroom : FitsPacket s.advertised l.ttl [] :=
        (fitsPacket_iff s l).mpr ⟨by simp, announcementLength_nil_le s⟩
      obtain ⟨packet, hencode, hle⟩ := hroom
      refine ⟨0, packet, ?_, hencode, hle, .inl rfl⟩
      rw [Advertised.encodeLoop, hencode, except_ok_bind, if_pos (.inl hle)]
  | succ k ih =>
      have hne : printers ≠ [] := by
        rintro rfl
        cases hk
      have htext : textLength (properties s.advertised.label printers) < 65536 := by
        have hqueues := textLength_queues_le hnames
        have hlabel := s.isUsable.length_utf8_le
        have hmax : maxLabel = 63 := rfl
        rw [textLength_properties]
        omega
      obtain ⟨packet, hencode⟩ := exists_encodeAnnouncement s l
        ((forall_properties s.isUsable.length_utf8_le).mpr hnames) htext
      by_cases hle : packet.length ≤ maxPacket
      · refine ⟨printers.length, packet, ?_, by rwa [List.take_length], hle, .inl hk⟩
        rw [Advertised.encodeLoop, hencode, except_ok_bind, if_pos (.inl hle)]
      · have hfull : ¬ FitsPacket s.advertised l.ttl printers := by
          rintro ⟨packet', hencode', hle'⟩
          obtain rfl := Except.ok.inj (hencode.symm.trans hencode')
          exact hle hle'
        have hshorter : printers.dropLast.length = k := by
          rw [List.length_dropLast, hk, Nat.add_sub_cancel]
        have htake : ∀ n ≤ k, printers.dropLast.take n = printers.take n := by
          intro n hn
          rw [List.dropLast_eq_take, List.take_take, hk, Nat.add_sub_cancel, Nat.min_eq_left hn]
        obtain ⟨n, packet', hloop, hencode', hle', hn⟩ := ih
          (fun p hp => hnames p (List.mem_of_mem_dropLast hp)) (by omega) hshorter
        have hnk : n ≤ k := by
          rcases hn with hn | hn <;> omega
        rw [htake n hnk] at hencode'
        refine ⟨n, packet', ?_, hencode', hle', .inr ⟨by omega, ?_⟩⟩
        · rw [Advertised.encodeLoop, hencode, except_ok_bind, if_neg (not_or.mpr ⟨hle, hne⟩), hloop]
        · rcases hn with hn | ⟨hlt, hn⟩
          · rw [hn, List.take_of_length_le hk.le]
            exact hfull
          · rwa [htake (n + 1) hlt] at hn

/-- What is encoded has names that fit. -/
lemma names_of_encode (s : Server) {ttl : Duration} {packet : Bytes}
    (h : s.advertised.encode ttl = .ok packet) :
    ∀ printer ∈ s.advertised.printers.take maxAdvertisedPrinters, NameFits printer := by
  rw [Advertised.encode, Advertised.encodeLoop, except_bind_eq_ok] at h
  obtain ⟨first, hfirst, -⟩ := h
  exact (length_encodeAnnouncement s hfirst).2

/-- Names that fit are encoded, up to 48 of them or up to the first for which there is no room. -/
lemma exists_encode (s : Server) (l : Lifetime)
    (hnames : ∀ printer ∈ s.advertised.printers.take maxAdvertisedPrinters, NameFits printer) :
    ∃ n packet, s.advertised.encode l.ttl = .ok packet ∧ packet.length ≤ maxPacket
      ∧ carriedQueues packet = .ok ((s.advertised.printers.take n).map PrinterName.chars)
      ∧ (n = min 48 s.advertised.printers.length
        ∨ ¬ FitsPacket s.advertised l.ttl (s.advertised.printers.take (n + 1))) := by
  have hlength : (s.advertised.printers.take maxAdvertisedPrinters).length
      = min 48 s.advertised.printers.length := List.length_take
  obtain ⟨n, packet, hloop, hencode, hle, hn⟩ := encodeLoop_of_names s l hnames (by omega)
  have htake : ∀ m ≤ 48, (s.advertised.printers.take maxAdvertisedPrinters).take m
      = s.advertised.printers.take m := by
    intro m hm
    rw [List.take_take, maxAdvertisedPrinters, Nat.min_eq_left hm]
  have hn48 : n ≤ 48 := by
    rcases hn with hn | hn <;> omega
  rw [htake n hn48] at hencode
  refine ⟨n, packet, hloop, hle, carriedQueues_of_encode s.port_lt hencode, ?_⟩
  rcases hn with hn | ⟨hlt, hfull⟩
  · exact .inl (hn.trans hlength)
  · rw [htake (n + 1) (by omega)] at hfull
    exact .inr hfull

/-- **When a server announces itself.** A server announces as many of its printers as the
packet and the limit of 48 leave room for exactly when each of the first 48 names takes at most
249 bytes. It announces as many as the packet leaves room for if, moreover, no 49th would fit. -/
theorem announces_iff (s : Server) (l : Lifetime) :
    (Announces s.advertised l.ttl maxAdvertisedPrinters
      ↔ ∀ printer ∈ s.advertised.printers.take maxAdvertisedPrinters, NameFits printer)
    ∧ (Announces s.advertised l.ttl s.advertised.printers.length
      ↔ (∀ printer ∈ s.advertised.printers.take maxAdvertisedPrinters, NameFits printer)
        ∧ (s.advertised.printers.length ≤ maxAdvertisedPrinters
          ∨ ¬ HasRoom s.advertised (s.advertised.printers.take (maxAdvertisedPrinters + 1)))) := by
  have hmax : maxAdvertisedPrinters = 48 := rfl
  constructor
  · constructor
    · rintro ⟨n, packet, h⟩
      exact names_of_encode s h.encoded
    · intro hnames
      obtain ⟨n, packet, hencode, hle, hqueues, hn⟩ := exists_encode s l hnames
      exact ⟨n, packet, hencode, hle, hqueues, hn.imp_left fun hn => hn.ge⟩
  · constructor
    · rintro ⟨n, packet, h⟩
      refine ⟨names_of_encode s h.encoded, ?_⟩
      by_contra hmore
      obtain ⟨hlong, hroom⟩ := not_or.mp hmore
      -- at most 48 are carried, so there was room for one more
      have hloop : s.advertised.encodeLoop l.ttl
          (s.advertised.printers.take maxAdvertisedPrinters) = .ok packet := h.encoded
      obtain ⟨carried, hcarried, hencode⟩ := Advertised.exists_carried_of_encodeLoop hloop
      have hqueues := h.queues.symm.trans (carriedQueues_of_encode s.port_lt hencode)
      have hlength := congrArg List.length (Except.ok.inj hqueues)
      have hcount := hcarried.length_le
      simp only [List.length_map, List.length_take] at hlength hcount
      rcases h.maximal with hall | hfull
      · omega
      · have hroom := (fitsPacket_iff s l).mpr (not_not.mp hroom)
        exact hfull (hroom.take (by omega))
    · rintro ⟨hnames, hmore⟩
      obtain ⟨n, packet, hencode, hle, hqueues, hn⟩ := exists_encode s l hnames
      refine ⟨n, packet, hencode, hle, hqueues, ?_⟩
      rcases hn with hn | hfull
      · rcases hmore with hfew | hroom
        · left
          omega
        · by_cases hfew : s.advertised.printers.length ≤ 48
          · left
            omega
          · obtain rfl : n = maxAdvertisedPrinters := by omega
            exact .inr fun hfits => hroom ((fitsPacket_iff s l).mp hfits)
      · exact .inr hfull

/-! ### A wide name -/

/-- A name of 84 characters, which take 252 bytes. -/
def wideName : Chars := List.replicate 84 '印'

lemma toList_wideName : (String.ofList wideName).toList = wideName := String.toList_ofList

def widePrinter : PrinterName where
  value := .ofList wideName
  nonempty := by
    rw [toList_wideName]
    decide
  length_le := by
    rw [toList_wideName]
    decide
  printable := by
    rw [toList_wideName]
    decide +kernel
  trimmed := by
    rw [toList_wideName]
    decide +kernel

/-- A server that shares it cannot announce itself. -/
theorem wide_name_not_announced :
    ¬ ∀ (s : Server) (l : Lifetime), Announces s.advertised l.ttl s.advertised.printers.length := by
  intro h
  obtain ⟨n, packet, hannounced⟩ :=
    h (.ofName "DESKTOP-ABC".toList 8631 (by decide) [widePrinter]) ⟨.ofSecs 120, by decide⟩
  have hfits : NameFits widePrinter :=
    names_of_encode _ hannounced.encoded widePrinter List.mem_cons_self
  have hlength : (utf8 wideName).length = 252 := by decide +kernel
  rw [NameFits, PrinterName.chars, widePrinter, toList_wideName, hlength] at hfits
  exact absurd hfits (by decide)

end ShaPrint.Discovery
