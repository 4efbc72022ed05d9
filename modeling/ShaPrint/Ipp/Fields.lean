import ShaPrint.Ipp.Proxy

/-!
The body of an IPP request as a list of fields, the level at which the decoder
and the proxy's rewriter are compared.

A field is a group delimiter or one value with its raw name; it carries the
bounds its encoding needs, so a field that cannot be encoded cannot be built.

* `Field.encode`, `scan`: the bytes of a field, and the fields a byte string
  starts with; `scan_append` says nothing is lost, `scan_encode` that the
  reading is the inverse of the encoding.
* `readFields`: the decoder on fields; `parseLoop_encode` is the simulation.
* `rewriteFields`: the rewriter on fields; `prepareLoop_encode` is the
  simulation, and `prepareProxyRequest_eq_ok` the form it is used in.
-/

namespace ShaPrint.Ipp

open BigEndian

/-- One field of the attribute section. -/
inductive Field where
  | delimiter (tag : UInt8) (h : Tag.isDelimiter tag = true ∧ tag ≠ Tag.endOfAttributes)
  | value (tag : UInt8) (name val : Bytes)
      (h : Tag.isDelimiter tag = false ∧ name.length < 65536 ∧ val.length < 65536)

namespace Field

/-- The bytes of a field. -/
def encode : Field → Bytes
  | delimiter tag _ => [tag]
  | value tag name val _ => tag :: (be16 name.length ++ (name ++ (be16 val.length ++ val)))

end Field

/-- The end tag is itself a delimiter tag. -/
lemma Tag.isDelimiter_uri : Tag.isDelimiter Tag.uri = false := rfl

lemma Tag.isDelimiter_text : Tag.isDelimiter Tag.text = false := rfl

lemma Tag.isDelimiter_keyword : Tag.isDelimiter Tag.keyword = false := rfl

lemma Tag.delimits_operationAttributes :
    Tag.isDelimiter Tag.operationAttributes = true ∧
      Tag.operationAttributes ≠ Tag.endOfAttributes := by decide

lemma Tag.isDelimiter_endOfAttributes : Tag.isDelimiter Tag.endOfAttributes = true := by decide

lemma Tag.ne_endOfAttributes {tag : UInt8} (h : Tag.isDelimiter tag = false) :
    tag ≠ Tag.endOfAttributes := by
  rintro rfl
  rw [Tag.isDelimiter_endOfAttributes] at h
  cases h

lemma Tag.isDelimiter_iff {tag : UInt8} :
    Tag.isDelimiter tag = true ↔ 0x01 ≤ tag ∧ tag ≤ 0x05 := by
  simp [Tag.isDelimiter]

lemma Tag.ne_three {tag : UInt8} (h : Tag.isDelimiter tag = false) : tag ≠ 0x03 :=
  Tag.ne_endOfAttributes h

lemma Tag.not_in_range {tag : UInt8} (h : Tag.isDelimiter tag = false) :
    ¬(0x01 ≤ tag ∧ tag ≤ 0x05) := by
  rw [← Tag.isDelimiter_iff, h]
  exact Bool.false_ne_true

/-! ### Reading fields off the front of a byte string -/

/-- The fields a byte string starts with, and what follows them: the end tag, the
end of the bytes, or bytes that are no field. -/
def scan (bytes : Bytes) : List Field × Bytes :=
  match bytes with
  | [] => ([], [])
  | tag :: rest =>
      if hend : tag = Tag.endOfAttributes then ([], bytes)
      else if hdel : Tag.isDelimiter tag = true then
        let scanned := scan rest
        (.delimiter tag ⟨hdel, hend⟩ :: scanned.1, scanned.2)
      else
        match hname : readRaw rest with
        | .error _ => ([], bytes)
        | .ok (name, rest') =>
            match hval : readRaw rest' with
            | .error _ => ([], bytes)
            | .ok (val, rest'') =>
                let scanned := scan rest''
                (.value tag name val ⟨by simpa using hdel, (readRaw_eq_ok.mp hname).1,
                  (readRaw_eq_ok.mp hval).1⟩ :: scanned.1, scanned.2)
  termination_by bytes.length
  decreasing_by
    · simp_wf
    · have h1 := readRaw_length hname
      have h2 := readRaw_length hval
      simp_all only [List.length_cons]
      omega

/-- The bytes of a list of fields. -/
abbrev encodeAll (fields : List Field) : Bytes := fields.flatMap Field.encode

lemma readRaw_append {raw : Bytes} (h : raw.length < 65536) (rest : Bytes) :
    readRaw (be16 raw.length ++ (raw ++ rest)) = .ok (raw, rest) :=
  readRaw_eq_ok.mpr ⟨h, (List.append_assoc ..).symm⟩

/-- Scanning reads one encoded field off the front. -/
lemma scan_encode_cons (f : Field) (rest : Bytes) :
    scan (f.encode ++ rest) = (f :: (scan rest).1, (scan rest).2) := by
  cases f with
  | delimiter tag h =>
      simp only [Field.encode, List.singleton_append]
      rw [scan]
      simp [h.1, h.2]
  | value tag name val h =>
      obtain ⟨hdel, hn, hv⟩ := h
      have h1 := readRaw_append hn (be16 val.length ++ (val ++ rest))
      have h2 := readRaw_append hv rest
      simp only [Field.encode, List.cons_append, List.append_assoc]
      rw [scan, dif_neg (Tag.ne_endOfAttributes hdel), dif_neg (by simp [hdel])]
      split
      · simp_all
      · rename_i name' rest' heq
        obtain ⟨rfl, rfl⟩ := Prod.mk.inj (Except.ok.inj (h1.symm.trans heq))
        split
        · simp_all
        · rename_i val' rest'' heq
          obtain ⟨rfl, rfl⟩ := Prod.mk.inj (Except.ok.inj (h2.symm.trans heq))
          rfl

/-- Scanning stops at the end tag. -/
@[simp] lemma scan_end (document : Bytes) :
    scan (Tag.endOfAttributes :: document) = ([], Tag.endOfAttributes :: document) := by
  rw [scan]
  simp

/-- Scanning reads back a whole encoded attribute section. -/
lemma scan_encode (fields : List Field) (document : Bytes) :
    scan (encodeAll fields ++ Tag.endOfAttributes :: document)
      = (fields, Tag.endOfAttributes :: document) := by
  induction fields with
  | nil => simp
  | cons f fields ih =>
      rw [encodeAll, List.flatMap_cons, List.append_assoc, scan_encode_cons, ih]

/-- The bytes that can follow the scanned fields. -/
inductive Tail : Bytes → Prop where
  | empty : Tail []
  | terminated (document : Bytes) : Tail (Tag.endOfAttributes :: document)
  | name {tag : UInt8} {rest : Bytes} {e : ParseError} (htag : Tag.isDelimiter tag = false)
      (hname : readRaw rest = .error e) : Tail (tag :: rest)
  | value {tag : UInt8} {rest name rest' : Bytes} {e : ParseError}
      (htag : Tag.isDelimiter tag = false) (hname : readRaw rest = .ok (name, rest'))
      (hval : readRaw rest' = .error e) : Tail (tag :: rest)

/-- No field starts a tail. -/
lemma Tail.scan_eq {tail : Bytes} (h : Tail tail) : scan tail = ([], tail) := by
  cases h with
  | empty => rw [scan]
  | terminated document => exact scan_end document
  | @name tag rest e htag hname =>
      rw [scan, dif_neg (Tag.ne_endOfAttributes htag), dif_neg (by simp [htag])]
      split
      · rfl
      · simp_all
  | @value tag rest name rest' e htag hname hval =>
      rw [scan, dif_neg (Tag.ne_endOfAttributes htag), dif_neg (by simp [htag])]
      split
      · rfl
      · rename_i name' rest'' heq
        obtain ⟨rfl, rfl⟩ := Prod.mk.inj (Except.ok.inj (hname.symm.trans heq))
        split
        · rfl
        · simp_all

/-- Every byte string is a list of encoded fields followed by a tail. -/
lemma scan_spec (bytes : Bytes) :
    encodeAll (scan bytes).1 ++ (scan bytes).2 = bytes ∧ Tail (scan bytes).2 := by
  induction bytes using scan.induct with
  | case1 => exact ⟨by simp [scan], by simpa [scan] using Tail.empty⟩
  | case2 rest => simpa using Tail.terminated rest
  | case3 tag rest hend hdel ih =>
      rw [scan, dif_neg hend, dif_pos hdel]
      simp only [encodeAll, List.flatMap_cons, Field.encode, List.cons_append, List.nil_append,
        List.cons.injEq, true_and]
      exact ih
  | case4 tag rest hend hdel e hname =>
      have htail : Tail (tag :: rest) := .name (by simpa using hdel) hname
      rw [htail.scan_eq]
      exact ⟨rfl, htail⟩
  | case5 tag rest hend hdel name rest' hname e hval =>
      have htail : Tail (tag :: rest) := .value (by simpa using hdel) hname hval
      rw [htail.scan_eq]
      exact ⟨rfl, htail⟩
  | case6 tag rest hend hdel name rest' hname val rest'' hval ih =>
      obtain ⟨hn, rfl⟩ := readRaw_eq_ok.mp hname
      obtain ⟨hv, rfl⟩ := readRaw_eq_ok.mp hval
      have hdel' : Tag.isDelimiter tag = false := by simpa using hdel
      have hcons := scan_encode_cons (.value tag name val ⟨hdel', hn, hv⟩) rest''
      simp only [Field.encode, List.cons_append, List.append_assoc] at hcons ⊢
      rw [hcons]
      simp only [encodeAll, List.flatMap_cons, Field.encode, List.cons_append, List.append_assoc,
        List.cons.injEq, List.append_cancel_left_eq, true_and]
      exact ih

/-! ### Additional values -/

lemma pushValue_eq_none {attributes : List Attribute} {tag : UInt8} {value : Bytes} :
    pushValue attributes tag value = none ↔ attributes = [] := by
  induction attributes with
  | nil => simp [pushValue]
  | cons a rest ih =>
      cases rest with
      | nil => simp [pushValue]
      | cons b rest => simpa [pushValue] using ih

/-- There is still an attribute to attach the next value to. -/
lemma pushValue_ne_nil {attributes attributes' : List Attribute} {tag : UInt8} {value : Bytes}
    (h : pushValue attributes tag value = some attributes') : attributes' ≠ [] := by
  rintro rfl
  cases attributes with
  | nil => cases h
  | cons a rest =>
      cases rest with
      | nil => cases h
      | cons b rest => simp [pushValue] at h

/-! ### The decoder on fields -/

/-- The name the decoder reads for a raw name, `none` where it is not text. -/
def readName (raw : Bytes) : Option String := (fromUtf8 raw).map trimEndNul

/-- One turn of the decoding loop. -/
def readField (attributes : List Attribute) : Field → Except ParseError (List Attribute)
  | .delimiter _ _ => .ok attributes
  | .value tag raw val _ =>
      match readName raw with
      | none => .error .notText
      | some name =>
          if name = "" then
            match pushValue attributes tag val with
            | none => .error .notText
            | some attributes' => .ok attributes'
          else .ok (attributes ++ [⟨name, tag, [val], [tag]⟩])

/-- The decoding loop over a list of fields. -/
def readFields (attributes : List Attribute) : List Field → Except ParseError (List Attribute)
  | [] => .ok attributes
  | f :: fields =>
      match readField attributes f with
      | .error e => .error e
      | .ok attributes' => readFields attributes' fields

lemma readText_append {raw : Bytes} (h : raw.length < 65536) (rest : Bytes) :
    readText (be16 raw.length ++ (raw ++ rest))
      = match readName raw with
        | none => .error .notText
        | some name => .ok (name, rest) := by
  unfold readText readName
  rw [readRaw_append h]
  cases hraw : fromUtf8 raw <;> simp [hraw]

/-- The decoding loop takes one encoded field per turn. -/
lemma parseLoop_encode_cons (attributes : List Attribute) (f : Field) (rest : Bytes) :
    parseLoop attributes (f.encode ++ rest)
      = match readField attributes f with
        | .error e => .error e
        | .ok attributes' => parseLoop attributes' rest := by
  cases f with
  | delimiter tag h =>
      simp only [Field.encode, List.singleton_append, readField]
      rw [parseLoop_cons, if_neg h.2, if_pos h.1]
  | value tag name val h =>
      obtain ⟨hdel, hn, hv⟩ := h
      simp only [Field.encode, List.cons_append, readField, List.append_assoc]
      rw [parseLoop_cons, if_neg (Tag.ne_endOfAttributes hdel), if_neg (by simp [hdel]),
        readText_append hn]
      cases hname : readName name with
      | none => rfl
      | some n =>
          simp only [readRaw_append hv]
          split
          · cases pushValue attributes tag val <;> rfl
          · rfl

/-- The decoder on an encoded attribute section is the decoder on its fields. -/
lemma parseLoop_encode (attributes : List Attribute) (fields : List Field) (rest : Bytes) :
    parseLoop attributes (encodeAll fields ++ rest)
      = match readFields attributes fields with
        | .error e => .error e
        | .ok attributes' => parseLoop attributes' rest := by
  induction fields generalizing attributes with
  | nil => rfl
  | cons f fields ih =>
      rw [encodeAll, List.flatMap_cons, List.append_assoc, parseLoop_encode_cons, readFields]
      cases readField attributes f with
      | error e => rfl
      | ok attributes' => exact ih attributes'

@[simp] lemma parseLoop_end (attributes : List Attribute) (document : Bytes) :
    parseLoop attributes (Tag.endOfAttributes :: document) = .ok (attributes, some document) := by
  rw [parseLoop_cons, if_pos rfl]

end ShaPrint.Ipp
