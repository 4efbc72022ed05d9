import ShaPrint.Lib.BigEndian
import ShaPrint.Text

/-!
The IPP request decoder of `adapters/ipps/protocol.rs`: the tags, the readers of
length-prefixed fields, and `Request::parse` with the lookups the endpoint makes
on its result.

A position in the request body is modelled by the bytes from it on, so the
readers return what they read together with the bytes that are left.

* `readU16`, `readRaw`, `readText`: one field each; the `_length` lemmas bound
  what is left, which is why the decoding loop ends.
* `parseLoop`, `Request.parse`: the loop over attributes and delimiters.
* `Request.value`, `Request.textValues`, `Request.hasAttribute`, …: the lookups,
  each reading the first attribute of a name.
-/

namespace ShaPrint.Ipp

open BigEndian

/-! ### Tags -/

namespace Tag

def operationAttributes : UInt8 := 0x01
def jobAttributes : UInt8 := 0x02
def endOfAttributes : UInt8 := 0x03

def integer : UInt8 := 0x21
def boolean : UInt8 := 0x22
def enum : UInt8 := 0x23
def text : UInt8 := 0x41
def name : UInt8 := 0x42
def keyword : UInt8 := 0x44
def uri : UInt8 := 0x45
def begCollection : UInt8 := 0x34
def endCollection : UInt8 := 0x37
def memberAttrName : UInt8 := 0x4a

/-- Delimiter tags introduce an attribute group; they carry no name or value. -/
def isDelimiter (tag : UInt8) : Bool := 0x01 ≤ tag && tag ≤ 0x05

/-- Value tags that carry text. -/
def isText (tag : UInt8) : Bool := tag == 0x41 || tag == 0x42 || (0x44 ≤ tag && tag ≤ 0x4a)

end Tag

/-- A request that could not be decoded. -/
inductive ParseError where
  | truncated
  | overrun
  | notText
  deriving DecidableEq, Repr

/-! ### Reading length-prefixed fields -/

/-- Reads a two-byte length. -/
def readU16 : Bytes → Except ParseError (ℕ × Bytes)
  | hi :: lo :: rest => .ok (ofBe16 hi lo, rest)
  | _ => .error .overrun

/-- Reads one length-prefixed value, which stays raw. -/
def readRaw (bytes : Bytes) : Except ParseError (Bytes × Bytes) :=
  match readU16 bytes with
  | .error e => .error e
  | .ok (length, rest) =>
      if length ≤ rest.length then .ok (rest.take length, rest.drop length)
      else .error .overrun

/-- Reads one length-prefixed text and trims its trailing NULs. -/
def readText (bytes : Bytes) : Except ParseError (String × Bytes) :=
  match readRaw bytes with
  | .error e => .error e
  | .ok (raw, rest) =>
      match fromUtf8 raw with
      | none => .error .notText
      | some text => .ok (trimEndNul text, rest)

/-- A field read off the front is its length, its bytes and what is left. -/
lemma readRaw_eq_ok {bytes raw rest : Bytes} :
    readRaw bytes = .ok (raw, rest) ↔
      raw.length < 65536 ∧ bytes = be16 raw.length ++ raw ++ rest := by
  unfold readRaw readU16
  constructor
  · intro h
    split at h
    · cases h
    · rename_i length rest' heq
      split at heq
      · rename_i hi lo tail
        simp only [Except.ok.injEq, Prod.mk.injEq] at heq
        obtain ⟨rfl, rfl⟩ := heq
        split at h
        · rename_i hle
          simp only [Except.ok.injEq, Prod.mk.injEq] at h
          obtain ⟨rfl, rfl⟩ := h
          have hlen : (tail.take (ofBe16 hi lo)).length = ofBe16 hi lo := by
            rw [List.length_take]
            omega
          refine ⟨by rw [hlen]; exact ofBe16_lt hi lo, ?_⟩
          rw [hlen, be16_ofBe16, List.append_assoc, List.take_append_drop]
          rfl
        · cases h
      · cases heq
  · rintro ⟨hlen, rfl⟩
    simp [be16, ofBe16_be16 hlen]

lemma readRaw_length {bytes raw rest : Bytes} (h : readRaw bytes = .ok (raw, rest)) :
    rest.length < bytes.length := by
  obtain ⟨-, rfl⟩ := readRaw_eq_ok.mp h
  simp only [List.length_append, be16_length]
  omega

lemma readText_eq_ok {bytes rest : Bytes} {text : String} :
    readText bytes = .ok (text, rest) ↔
      ∃ raw s, readRaw bytes = .ok (raw, rest) ∧ fromUtf8 raw = some s ∧ trimEndNul s = text := by
  unfold readText
  cases hraw : readRaw bytes with
  | error e => simp
  | ok p =>
      obtain ⟨raw, rest'⟩ := p
      cases hs : fromUtf8 raw with
      | none =>
          simp only [hs, Except.ok.injEq, Prod.mk.injEq, false_iff, reduceCtorEq]
          rintro ⟨raw', s, ⟨rfl, -⟩, hs', -⟩
          rw [hs] at hs'
          cases hs'
      | some s =>
          simp only [hs, Except.ok.injEq, Prod.mk.injEq]
          constructor
          · rintro ⟨rfl, rfl⟩
            exact ⟨raw, s, ⟨rfl, rfl⟩, hs, rfl⟩
          · rintro ⟨raw', s', ⟨rfl, rfl⟩, hs', rfl⟩
            rw [hs, Option.some.injEq] at hs'
            exact ⟨by rw [hs'], rfl⟩

lemma readText_length {bytes rest : Bytes} {text : String}
    (h : readText bytes = .ok (text, rest)) : rest.length < bytes.length := by
  obtain ⟨raw, s, hraw, -, -⟩ := readText_eq_ok.mp h
  exact readRaw_length hraw

/-! ### The decoded request -/

/-- One attribute of a request: its name, value tag, and one or more values. -/
structure Attribute where
  name : String
  tag : UInt8
  values : List Bytes
  valueTags : List UInt8
  deriving DecidableEq, Repr

/-- The first value as text, for the string tags the endpoint reads. -/
def Attribute.text (a : Attribute) : Option String :=
  if Tag.isText a.tag then (a.values.head?.bind fromUtf8).map trimEndNul else none

/-- A decoded IPP request. -/
structure Request where
  version : UInt8 × UInt8
  operation : ℕ
  requestId : ℕ
  attributes : List Attribute
  document : Bytes
  documentStart : ℕ
  deriving DecidableEq, Repr

/-- An additional value goes to the attribute read last; there is none to
attach it to at the start of the request. -/
def pushValue : List Attribute → UInt8 → Bytes → Option (List Attribute)
  | [], _, _ => none
  | [a], tag, value =>
      some [{ a with values := a.values ++ [value], valueTags := a.valueTags ++ [tag] }]
  | a :: b :: rest, tag, value => (pushValue (b :: rest) tag value).map (a :: ·)

/-- The decoding loop: the attributes read so far, and the bytes from the
current position on. A result carries the bytes after the end-of-attributes tag,
`none` where the body ends without one. -/
def parseLoop (attributes : List Attribute) (bytes : Bytes) :
    Except ParseError (List Attribute × Option Bytes) :=
  match bytes with
  | [] => .ok (attributes, none)
  | tag :: rest =>
      if tag = Tag.endOfAttributes then .ok (attributes, some rest)
      else if Tag.isDelimiter tag then parseLoop attributes rest
      else
        match _hname : readText rest with
        | .error e => .error e
        | .ok (name, rest') =>
            match _hvalue : readRaw rest' with
            | .error e => .error e
            | .ok (value, rest'') =>
                if name = "" then
                  match pushValue attributes tag value with
                  | none => .error .notText
                  | some attributes' => parseLoop attributes' rest''
                else
                  parseLoop (attributes ++ [⟨name, tag, [value], [tag]⟩]) rest''
  termination_by bytes.length
  decreasing_by
    · simp
    all_goals
      have h1 := readText_length ‹_›
      have h2 := readRaw_length ‹_›
      simp only [List.length_cons]
      omega

/-- One turn of the decoding loop. -/
lemma parseLoop_cons (attributes : List Attribute) (tag : UInt8) (rest : Bytes) :
    parseLoop attributes (tag :: rest)
      = if tag = Tag.endOfAttributes then .ok (attributes, some rest)
        else if Tag.isDelimiter tag then parseLoop attributes rest
        else match readText rest with
          | .error e => .error e
          | .ok (name, rest') =>
              match readRaw rest' with
              | .error e => .error e
              | .ok (value, rest'') =>
                  if name = "" then
                    match pushValue attributes tag value with
                    | none => .error .notText
                    | some attributes' => parseLoop attributes' rest''
                  else parseLoop (attributes ++ [⟨name, tag, [value], [tag]⟩]) rest'' := by
  rw [parseLoop]
  refine ite_congr rfl (fun _ => rfl) fun _ => ite_congr rfl (fun _ => rfl) fun _ => ?_
  cases hname : readText rest with
  | error e => split <;> simp_all
  | ok p =>
      split
      · simp_all
      · rename_i heq
        obtain rfl := Except.ok.inj heq
        simp only
        split
        · simp_all
        · simp_all

@[simp] lemma parseLoop_nil (attributes : List Attribute) :
    parseLoop attributes [] = .ok (attributes, none) := by
  rw [parseLoop]

/-- Decodes the header and attributes; the bytes after end-of-attributes are the
document. -/
def Request.parse (bytes : Bytes) : Except ParseError Request :=
  match bytes with
  | v0 :: v1 :: o0 :: o1 :: r0 :: r1 :: r2 :: r3 :: rest =>
      match parseLoop [] rest with
      | .error e => .error e
      | .ok (attributes, document) =>
          .ok {
            version := (v0, v1)
            operation := ofBe16 o0 o1
            requestId := ofBe32 r0 r1 r2 r3
            attributes := attributes
            document := document.getD []
            documentStart := bytes.length - (document.getD []).length }
  | _ => .error .truncated

namespace Request

/-- The first attribute of the given name. -/
def find (r : Request) (name : String) : Option Attribute :=
  r.attributes.find? (·.name == name)

/-- The first value of `name` as text, if the request carries it. -/
def value (r : Request) (name : String) : Option String := (r.find name).bind Attribute.text

/-- All text values for the named attribute in order. -/
def textValues (r : Request) (name : String) : List String :=
  match r.find name with
  | none => []
  | some a => a.values.filterMap fun v => (fromUtf8 v).map trimEndNul

/-- The signed number four big-endian bytes stand for. -/
def i32OfBytes : Bytes → Option ℤ
  | [a, b, c, d] =>
      let n := ofBe32 a b c d
      some (if n < 2147483648 then (n : ℤ) else (n : ℤ) - 4294967296)
  | _ => none

/-- An integer-valued attribute's first value. -/
def integer (r : Request) (name : String) : Option ℤ :=
  (r.find name).bind fun a =>
    if a.tag ≠ Tag.integer ∧ a.tag ≠ Tag.enum then none
    else a.values.head?.bind i32OfBytes

/-- Whether the request contains any attribute with the given name. -/
def hasAttribute (r : Request) (name : String) : Bool := r.attributes.any (·.name == name)

/-- A boolean-valued attribute's first value. -/
def boolean (r : Request) (name : String) : Option Bool :=
  (r.find name).bind fun a =>
    match a.values.head? with
    | some [0] => some false
    | some [1] => some true
    | _ => none

/-- The versions an IPP client may use in a request. -/
def versionIsSupported (r : Request) : Bool :=
  r.version == (2, 0) || r.version == (1, 1) || r.version == (1, 0)

/-- The version the response carries. -/
def responseVersion (r : Request) : UInt8 × UInt8 :=
  if r.versionIsSupported then r.version else (1, 1)

/-- Every value the request carries under `name`, over all its attributes of
that name. -/
def allValues (r : Request) (name : String) : List Bytes :=
  (r.attributes.filter (·.name == name)).flatMap (·.values)

end Request

end ShaPrint.Ipp
