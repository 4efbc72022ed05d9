import ShaPrint.Domain.Error
import ShaPrint.Lib.BigEndian
import ShaPrint.Lib.Cursor
import ShaPrint.Text

/-!
The multicast DNS wire format of `adapters/discovery/wire.rs`.

* `Message.parse`, `services`: the reader, with name compression, and the join of the
  records that describe one service.
* `encodeAnnouncement`: the answer for one service, and its goodbye.
-/

namespace ShaPrint.Discovery

open BigEndian Split

/-- A duration, in nanoseconds. -/
abbrev Duration := ℕ

def Duration.ofSecs (seconds : ℕ) : Duration := seconds * 1000000000

def serviceType : Chars := "_shaprint-ipps._tcp.local.".toList

def recordTypePtr : ℕ := 12
def recordTypeTxt : ℕ := 16
def recordTypeSrv : ℕ := 33

def messageFlagsResponse : ℕ := 0x8400

def classIn : ℕ := 1
def unicastOrCacheFlush : ℕ := 0x8000

def maxNameJumps : ℕ := 64
def maxLabel : ℕ := 63
def maxTxtString : ℕ := 255
def fixedServiceLength : ℕ := 6

structure Query where
  name : Chars
  recordType : ℕ
  unicastResponse : Bool
  deriving DecidableEq, Repr

/-- The data of one record, as far as it is needed. -/
inductive RecordData where
  | pointer (instanceName : Chars)
  | service (priority weight port : ℕ) (target : Chars)
  | text (properties : List (Chars × Chars))
  | other (bytes : Bytes)
  deriving DecidableEq, Repr

structure Record where
  name : Chars
  recordType : ℕ
  cacheFlush : Bool
  ttl : Duration
  data : RecordData
  deriving DecidableEq, Repr

structure Message where
  queries : List Query
  records : List Record
  deriving DecidableEq, Repr

/-! ### The reader -/

def malformedWith (reason : String) : AppError :=
  .invalidInput s!"the multicast DNS packet is malformed: {reason}"

def malformed : AppError := malformedWith "the packet ends before the record it describes"

section Reader

variable (packet : Bytes)

/-- `Reader::take`: the next bytes, and the position after them. -/
def take (position length : ℕ) : Except AppError (Bytes × ℕ) :=
  match Cursor.take? packet position length with
  | none => .error malformed
  | some bytes => .ok (bytes, position + length)

def readU16 (position : ℕ) : Except AppError (ℕ × ℕ) :=
  (take packet position 2).map fun (bytes, position) =>
    (ofBe16 (bytes.getD 0 0) (bytes.getD 1 0), position)

def readU32 (position : ℕ) : Except AppError (ℕ × ℕ) :=
  (take packet position 4).map fun (bytes, position) =>
    (ofBe32 (bytes.getD 0 0) (bytes.getD 1 0) (bytes.getD 2 0) (bytes.getD 3 0), position)

/-- The labels of a name, and the position after it; `afterName` is set by the first
compression pointer. -/
def nameLoop (labels : List Chars) (jumps position : ℕ) (afterName : Option ℕ) :
    Except AppError (List Chars × ℕ) :=
  match _hlength : packet[position]? with
  | none => .error malformed
  | some length =>
      if length &&& 0xc0 = 0x00 then
        if length = 0 then .ok (labels, afterName.getD (position + 1))
        else
          match Cursor.take? packet (position + 1) length.toNat with
          | none => .error malformed
          | some label =>
              match fromUtf8 label with
              | none => .error (malformedWith "a name label is not valid utf-8")
              | some label =>
                  nameLoop (labels ++ [label.toList]) jumps (position + 1 + length.toNat) afterName
      else if length &&& 0xc0 = 0xc0 then
        match packet[position + 1]? with
        | none => .error malformed
        | some second =>
            if maxNameJumps < jumps + 1 then
              .error (malformedWith "a name compression pointer loops")
            else
              nameLoop labels (jumps + 1) ((length &&& 0x3f).toNat * 256 + second.toNat)
                (some (afterName.getD (position + 2)))
      else .error (malformedWith "a name uses a reserved label type")
  termination_by (maxNameJumps + 1 - jumps, packet.length - position)
  decreasing_by
    · obtain ⟨hlt, -⟩ := List.getElem?_eq_some_iff.mp _hlength
      apply Prod.Lex.right
      omega
    · apply Prod.Lex.left
      omega

/-- The labels as one text, each before a dot. -/
def joinLabels (labels : List Chars) : Chars := labels.flatMap (· ++ ['.'])

/-- `Reader::name` -/
def readName (position : ℕ) : Except AppError (Chars × ℕ) :=
  (nameLoop packet [] 0 position none).map fun (labels, position) => (joinLabels labels, position)

/-- `expect_consumed` -/
def expectConsumed (position start : ℕ) (data : Bytes) : Except AppError Unit :=
  if position ≠ start + data.length then
    .error (malformedWith "a record's data does not match its length")
  else .ok ()

/-- The properties of a text record. -/
def readProperties (bytes : Bytes) : Except AppError (List (Chars × Chars)) :=
  match bytes with
  | [] => .ok []
  | length :: rest =>
      if rest.length < length.toNat then .error malformed
      else
        let text := fromUtf8Lossy (rest.take length.toNat)
        (readProperties (rest.drop length.toNat)).map
          ((splitOnce text ['=']).getD (text, []) :: ·)
  termination_by bytes.length
  decreasing_by simp only [List.length_drop, List.length_cons]; omega

/-- `decode_data` -/
def decodeData (recordType start : ℕ) (bytes : Bytes) : Except AppError RecordData :=
  if recordType = recordTypePtr then do
    let (instanceName, position) ← readName packet start
    expectConsumed position start bytes
    return .pointer instanceName
  else if recordType = recordTypeSrv then
    if bytes.length < fixedServiceLength then
      .error (malformedWith "a service record is shorter than its fixed fields")
    else do
      let (priority, position) ← readU16 packet start
      let (weight, position) ← readU16 packet position
      let (port, position) ← readU16 packet position
      let (target, position) ← readName packet position
      expectConsumed position start bytes
      return .service priority weight port target
  else if recordType = recordTypeTxt then (readProperties bytes).map .text
  else .ok (.other bytes)

def readQuery (position : ℕ) : Except AppError (Query × ℕ) := do
  let (name, position) ← readName packet position
  let (recordType, position) ← readU16 packet position
  let (recordClass, position) ← readU16 packet position
  return (⟨name, recordType, recordClass &&& unicastOrCacheFlush != 0⟩, position)

def readRecord (position : ℕ) : Except AppError (Record × ℕ) := do
  let (name, position) ← readName packet position
  let (recordType, position) ← readU16 packet position
  let (recordClass, position) ← readU16 packet position
  let (ttl, position) ← readU32 packet position
  let (length, start) ← readU16 packet position
  let (bytes, position) ← take packet start length
  let data ← decodeData packet recordType start bytes
  return (⟨name, recordType, recordClass &&& unicastOrCacheFlush != 0, .ofSecs ttl, data⟩, position)

def Message.parse : Except AppError Message := do
  let (_, position) ← readU16 packet 0
  let (_, position) ← readU16 packet position
  let (questionCount, position) ← readU16 packet position
  let (answerCount, position) ← readU16 packet position
  let (authorityCount, position) ← readU16 packet position
  let (additionalCount, position) ← readU16 packet position
  let (queries, position) ← Cursor.readMany (readQuery packet) questionCount position
  let (records, _) ← Cursor.readMany (readRecord packet)
    (answerCount + authorityCount + additionalCount) position
  return ⟨queries, records⟩

end Reader

/-! ### Services -/

structure Service where
  instanceName : Chars
  target : Chars
  port : ℕ
  properties : List (Chars × Chars)
  ttl : Duration
  deriving DecidableEq, Repr

def trimEndDots (name : Chars) : Chars := name.rdropWhile (· == '.')

/-- Whether two names are the same, without regard to case and to a dot at the end. -/
def isNamed (left right : Chars) : Bool :=
  eqIgnoreAsciiCase (trimEndDots left) (trimEndDots right)

def RecordData.isService : RecordData → Bool
  | .service _ _ _ _ => true
  | _ => false

def RecordData.isText : RecordData → Bool
  | .text _ => true
  | _ => false

/-- The service of a pointer record, if the message says where it is and what it shares. -/
def pointedService (message : Message) (pointer : Record) : Option Service :=
  if pointer.recordType ≠ recordTypePtr || !isNamed pointer.name serviceType then none
  else
    match pointer.data with
    | .pointer instanceName =>
        let transport := message.records.find? fun record =>
          isNamed record.name instanceName && record.data.isService
        let text := message.records.find? fun record =>
          isNamed record.name instanceName && record.data.isText
        match transport.map Record.data, text.map Record.data with
        | some (.service _ _ port target), some (.text properties) =>
            some ⟨instanceName, target, port, properties, pointer.ttl⟩
        | _, _ => none
    | _ => none

/-- The services that a response advertises. -/
def services (message : Message) : List Service :=
  message.records.filterMap (pointedService message)

/-! ### The encoder -/

/-- `record_lifetime`: whole seconds, rounded up. -/
def recordLifetime (ttl : Duration) : Except AppError ℕ :=
  let seconds := if ttl = 0 then 0
    else ttl / 1000000000 + (if 0 < ttl % 1000000000 then 1 else 0)
  if seconds < 4294967296 then .ok seconds
  else .error (.invalidInput "the advertised lifetime does not fit in a record")

/-- `instance_name` -/
def instanceName (label : Chars) : Except AppError Chars :=
  let label := trim label
  let usable := label ≠ [] && (utf8 label).length ≤ maxLabel && !label.contains '.'
    && (utf8 label).all fun byte => 0x20 ≤ byte && byte < 0x7f
  if !usable then .error (.invalidInput
    s!"'{String.ofList label}' cannot be used as a discovery instance name")
  else .ok (label ++ '.' :: serviceType)

/-- The header of a message that carries questions and answers. -/
def header (flags questions answers : ℕ) : Bytes :=
  be16 0 ++ be16 flags ++ be16 questions ++ be16 answers ++ be16 0 ++ be16 0

/-- The labels of a name. -/
def nameLabels (name : Chars) : List Chars := (name.splitOn '.').filter (· ≠ [])

/-- `push_name`: what it appends. -/
def pushName (name : Chars) : Except AppError Bytes :=
  if (nameLabels name).any fun label => maxLabel < (utf8 label).length then
    .error (.invalidInput
      s!"the DNS name '{String.ofList name}' has a label longer than {maxLabel} characters")
  else if nameLabels name = [] then
    .error (.invalidInput s!"the DNS name '{String.ofList name}' is empty")
  else .ok ((nameLabels name).flatMap (fun label => Cursor.frame (utf8 label)) ++ [0])

/-- `push_record_data`: what it appends. -/
def pushRecordData (data : Bytes) : Except AppError Bytes :=
  if data.length < 65536 then .ok (be16 data.length ++ data)
  else .error (.invalidInput "a DNS record is too long to encode")

/-- A property as the string of a text record. -/
def propertyEntry (property : Chars × Chars) : Chars := property.1 ++ '=' :: property.2

/-- The data of a text record. -/
def pushProperties : List (Chars × Chars) → Except AppError Bytes
  | [] => .ok []
  | property :: properties =>
      let entry := utf8 (propertyEntry property)
      if maxTxtString < entry.length then .error (.invalidInput
        s!"the advertised property '{String.ofList property.1}' is longer than {maxTxtString} characters")
      else (pushProperties properties).map (Cursor.frame entry ++ ·)

/-- One record of an announcement, whose name is encoded already. -/
def pushRecord (name : Bytes) (recordType recordClass lifetime : ℕ) (data : Bytes) :
    Except AppError Bytes :=
  (pushRecordData data).map fun data =>
    name ++ be16 recordType ++ be16 recordClass ++ be32 lifetime ++ data

/-- `encode_announcement` -/
def encodeAnnouncement (label target : Chars) (port : ℕ) (properties : List (Chars × Chars))
    (ttl : Duration) : Except AppError Bytes := do
  let name ← instanceName label
  let lifetime ← recordLifetime ttl
  let serviceName ← pushName serviceType
  let pointer ← pushName name
  let pointerRecord ← pushRecord serviceName recordTypePtr classIn lifetime pointer
  let owner ← pushName name
  let targetName ← pushName target
  let serviceRecord ← pushRecord owner recordTypeSrv (classIn ||| unicastOrCacheFlush) lifetime
    (be16 0 ++ be16 0 ++ be16 port ++ targetName)
  let text ← pushProperties properties
  let textRecord ← pushRecord owner recordTypeTxt (classIn ||| unicastOrCacheFlush) lifetime text
  return header messageFlagsResponse 0 3 ++ pointerRecord ++ serviceRecord ++ textRecord

end ShaPrint.Discovery
