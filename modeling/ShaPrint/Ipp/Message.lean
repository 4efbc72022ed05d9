import ShaPrint.Ipp.Fields

/-!
Messages as the writers of the program put them together: groups of values, each with its
tag, its name and its bytes, between the header and the end tag.

* `Written`, `Group`, `message`: what is written, and its bytes; `Group.fields`: a group as
  the fields of the decoder.
* `Written.Ok`: the lengths fit the two bytes they are written in; then the decoder takes
  one written value per turn (`parseLoop_written`).
* `parseLoop_named`: values that all have a name are read as one attribute each.
* `exists_parseLoop_groups`: any groups are accepted once there is an attribute that
  additional values can be attached to.
-/

namespace ShaPrint.Ipp

open BigEndian

namespace Tag

def printerAttributes : UInt8 := 0x04
def resolution : UInt8 := 0x32
def rangeOfInteger : UInt8 := 0x33
def charset : UInt8 := 0x47
def naturalLanguage : UInt8 := 0x48
def mimeMediaType : UInt8 := 0x49

end Tag

/-- One value as it is written. An additional value of an attribute has the empty name. -/
structure Written where
  tag : UInt8
  name : String
  value : Bytes
  deriving DecidableEq, Repr

/-- Both parts with their lengths, which are cut to two bytes. -/
def writeNameAndValue (name value : Bytes) : Bytes :=
  be16 name.length ++ (name ++ (be16 value.length ++ value))

namespace Written

def bytes (w : Written) : Bytes := w.tag :: writeNameAndValue (asBytes w.name) w.value

/-- The tag is that of a value, and the lengths fit two bytes. -/
def Ok (w : Written) : Prop :=
  Tag.isDelimiter w.tag = false ∧ (asBytes w.name).length < 65536 ∧ w.value.length < 65536

instance (w : Written) : Decidable w.Ok := inferInstanceAs (Decidable (_ ∧ _ ∧ _))

lemma Ok.of_length {tag : UInt8} {name : String} {value : Bytes}
    (h : (⟨tag, name, []⟩ : Written).Ok) (hvalue : value.length < 65536) :
    (⟨tag, name, value⟩ : Written).Ok := ⟨h.1, h.2.1, hvalue⟩

/-- The value as a field of the decoder. -/
def field (w : Written) (h : w.Ok) : Field := .value w.tag (asBytes w.name) w.value h

lemma encode_field (w : Written) (h : w.Ok) : (w.field h).encode = w.bytes := rfl

/-- The attribute a value with a name begins. -/
def toAttribute (w : Written) : Attribute := ⟨w.name, w.tag, [w.value], [w.tag]⟩

/-- The value has a name, and the decoder reads that name as it is. -/
def Named (w : Written) : Prop := w.name ≠ "" ∧ trimEndNul w.name = w.name

instance (w : Written) : Decidable w.Named := inferInstanceAs (Decidable (_ ∧ _))

end Written

/-- A group of values behind its delimiter. -/
structure Group where
  tag : UInt8
  values : List Written
  deriving DecidableEq, Repr

namespace Group

def bytes (g : Group) : Bytes := g.tag :: g.values.flatMap Written.bytes

/-- The tag begins a group, and every value can be written. -/
def Ok (g : Group) : Prop :=
  (Tag.isDelimiter g.tag = true ∧ g.tag ≠ Tag.endOfAttributes) ∧ ∀ w ∈ g.values, w.Ok

/-- The group as the fields that the decoder takes. -/
def fields (g : Group) (h : g.Ok) : List Field :=
  .delimiter g.tag h.1 :: g.values.pmap Written.field h.2

end Group

lemma encodeAll_pmap {values : List Written} (h : ∀ w ∈ values, w.Ok) :
    encodeAll (values.pmap Written.field h) = values.flatMap Written.bytes := by
  induction values with
  | nil => rfl
  | cons w values ih =>
      rw [List.pmap_cons, encodeAll, List.flatMap_cons, List.flatMap_cons, Written.encode_field]
      exact congrArg (w.bytes ++ ·) (ih fun v hv => h v (List.mem_cons_of_mem w hv))

lemma Group.encodeAll_fields (g : Group) (h : g.Ok) : encodeAll (g.fields h) = g.bytes := by
  rw [Group.fields, encodeAll, List.flatMap_cons, Group.bytes, Field.encode, List.singleton_append]
  exact congrArg (g.tag :: ·) (encodeAll_pmap h.2)

/-- A whole message. -/
def message (header : Bytes) (groups : List Group) : Bytes :=
  header ++ (groups.flatMap Group.bytes ++ [Tag.endOfAttributes])

/-- The decoder behind a header of eight bytes. -/
lemma parse_header (v0 v1 : UInt8) (operation requestId : ℕ) {body : Bytes}
    {attributes : List Attribute} {document : Option Bytes}
    (h : parseLoop [] body = .ok (attributes, document)) :
    ∃ r, Request.parse ([v0, v1] ++ be16 operation ++ be32 requestId ++ body) = .ok r
      ∧ r.version = (v0, v1) ∧ r.attributes = attributes ∧ r.document = document.getD [] := by
  simp only [be16, be32, List.cons_append, List.nil_append, Request.parse, h]
  exact ⟨_, rfl, rfl, rfl, rfl⟩

/-! ### The decoder on written values -/

lemma readName_asBytes (name : String) : readName (asBytes name) = some (trimEndNul name) := by
  simp [readName]

lemma parseLoop_delimiter (attributes : List Attribute) {tag : UInt8} (rest : Bytes)
    (h : Tag.isDelimiter tag = true ∧ tag ≠ Tag.endOfAttributes) :
    parseLoop attributes (tag :: rest) = parseLoop attributes rest := by
  rw [parseLoop_cons, if_neg h.2, if_pos h.1]

/-- The decoder takes one written value per turn. -/
lemma parseLoop_written (attributes : List Attribute) {w : Written} (h : w.Ok) (rest : Bytes) :
    parseLoop attributes (w.bytes ++ rest)
      = match readField attributes (w.field h) with
        | .error e => .error e
        | .ok attributes' => parseLoop attributes' rest := by
  rw [← w.encode_field h]
  exact parseLoop_encode_cons attributes (w.field h) rest

/-- Values with names are read as one attribute each. -/
lemma parseLoop_named (attributes : List Attribute) {values : List Written}
    (hok : ∀ w ∈ values, w.Ok) (hnamed : ∀ w ∈ values, w.Named) (rest : Bytes) :
    parseLoop attributes (values.flatMap Written.bytes ++ rest)
      = parseLoop (attributes ++ values.map Written.toAttribute) rest := by
  induction values generalizing attributes with
  | nil => simp
  | cons w values ih =>
      have hw := hok w (by simp)
      obtain ⟨hne, htrim⟩ := hnamed w (by simp)
      have hread : readField attributes (w.field hw) = .ok (attributes ++ [w.toAttribute]) := by
        simp only [Written.field, readField, readName_asBytes, htrim, if_neg hne,
          Written.toAttribute]
      rw [List.flatMap_cons, List.append_assoc, parseLoop_written attributes hw, hread]
      simp only
      rw [ih _ (fun v hv => hok v (by simp [hv])) (fun v hv => hnamed v (by simp [hv])),
        List.append_assoc, List.map_cons, List.singleton_append]

/-- A request as a client writes it: one group of values, and the document. -/
def requestBytes (operation requestId : ℕ) (values : List Written) (document : Bytes) : Bytes :=
  [2, 0] ++ be16 operation ++ be32 requestId
    ++ (Tag.operationAttributes :: (values.flatMap Written.bytes
      ++ Tag.endOfAttributes :: document))

/-- What the endpoint decodes of it. -/
lemma parse_requestBytes {operation requestId : ℕ} {values : List Written} {document : Bytes}
    (hoperation : operation < 65536) (hrequestId : requestId < 4294967296)
    (hok : ∀ w ∈ values, w.Ok) (hnamed : ∀ w ∈ values, w.Named) :
    Request.parse (requestBytes operation requestId values document) = .ok
      { version := (2, 0)
        operation
        requestId
        attributes := values.map Written.toAttribute
        document
        documentStart :=
          (requestBytes operation requestId values document).length - document.length } := by
  have hloop : parseLoop [] (Tag.operationAttributes :: (values.flatMap Written.bytes
      ++ Tag.endOfAttributes :: document))
      = .ok (values.map Written.toAttribute, some document) := by
    rw [parseLoop_delimiter [] _ (by decide), parseLoop_named [] hok hnamed, parseLoop_cons,
      if_pos rfl, List.nil_append]
  unfold requestBytes
  simp only [be16, be32, List.cons_append, List.nil_append, Request.parse, hloop]
  rw [ofBe16_be16 hoperation, ofBe32_be32 hrequestId]
  rfl

/-- With an attribute to attach it to, any value is accepted. -/
lemma exists_parseLoop_written {attributes : List Attribute} (hne : attributes ≠ [])
    {w : Written} (h : w.Ok) (rest : Bytes) :
    ∃ attributes', attributes' ≠ []
      ∧ parseLoop attributes (w.bytes ++ rest) = parseLoop attributes' rest := by
  rw [parseLoop_written attributes h]
  simp only [Written.field, readField, readName_asBytes]
  split_ifs
  · cases hpush : pushValue attributes w.tag w.value with
    | none => exact absurd (pushValue_eq_none.mp hpush) hne
    | some attributes' => exact ⟨attributes', pushValue_ne_nil hpush, rfl⟩
  · exact ⟨_, by simp, rfl⟩

lemma exists_parseLoop_values {attributes : List Attribute} (hne : attributes ≠ [])
    {values : List Written} (hok : ∀ w ∈ values, w.Ok) (rest : Bytes) :
    ∃ attributes', attributes' ≠ []
      ∧ parseLoop attributes (values.flatMap Written.bytes ++ rest)
        = parseLoop attributes' rest := by
  induction values generalizing attributes with
  | nil => exact ⟨attributes, hne, rfl⟩
  | cons w values ih =>
      rw [List.flatMap_cons, List.append_assoc]
      obtain ⟨attributes', hne', hloop⟩ := exists_parseLoop_written hne (hok w (by simp)) _
      rw [hloop]
      exact ih hne' fun v hv => hok v (by simp [hv])

/-- With an attribute to attach it to, every value of any groups is accepted. -/
lemma exists_parseLoop_groups {attributes : List Attribute} (hne : attributes ≠ [])
    {groups : List Group} (hok : ∀ g ∈ groups, g.Ok) (rest : Bytes) :
    ∃ attributes', parseLoop attributes (groups.flatMap Group.bytes ++ rest)
      = parseLoop attributes' rest := by
  induction groups generalizing attributes with
  | nil => exact ⟨attributes, rfl⟩
  | cons g groups ih =>
      obtain ⟨htag, hvalues⟩ := hok g (by simp)
      rw [List.flatMap_cons, List.append_assoc, Group.bytes, List.cons_append,
        parseLoop_delimiter attributes _ htag]
      obtain ⟨attributes', hne', hloop⟩ := exists_parseLoop_values hne hvalues _
      rw [hloop]
      exact ih hne' fun g hg => hok g (by simp [hg])

end ShaPrint.Ipp
