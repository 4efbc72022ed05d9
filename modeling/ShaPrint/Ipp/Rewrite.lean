import ShaPrint.Ipp.Fields
import ShaPrint.Lib.Fallible

/-!
The proxy's rewriter on fields: what `prepare_proxy_request` does to the
attribute section of a request, one field at a time.

* `ShortText`: text whose length fits the two bytes IPP gives it.
* `rewriteField`, `rewriteFields`: one turn of the rewriting loop, and the loop
  up to the end tag.
* `prepareLoop_encode_cons`, `prepareLoop_encode`: the simulation of the byte
  loop by the field loop.
* `prepareProxyRequest_eq_ok`: a request is forwarded exactly when its header is
  complete, its attribute section is terminated and read, and the field loop
  succeeds; the output is the rewritten section.
-/

namespace ShaPrint.Ipp

open BigEndian

/-- Text whose byte length fits in the length field of an IPP value. -/
structure ShortText where
  text : String
  short : (asBytes text).length < 65536

/-- A value field holding text under a name. -/
def Field.ofText (tag : UInt8) (htag : Tag.isDelimiter tag = false) (name value : ShortText) :
    Field :=
  .value tag (asBytes name.text) (asBytes value.text) ⟨htag, name.short, value.short⟩

/-- The name `printer-uri`. -/
def printerUriName : ShortText := ⟨"printer-uri", by decide⟩

/-- The name `network-channel`. -/
def networkChannelName : ShortText := ⟨"network-channel", by decide⟩

/-- The field that carries the remote printer URI. -/
def printerUriField (uri : ShortText) : Field :=
  .ofText Tag.uri Tag.isDelimiter_uri printerUriName uri

/-- The field that carries the configured Network Channel. -/
def networkChannelField (channel : ShortText) : Field :=
  .ofText Tag.text Tag.isDelimiter_text networkChannelName channel

lemma Field.encode_ofText (tag : UInt8) (htag : Tag.isDelimiter tag = false)
    (name value : ShortText) :
    (Field.ofText tag htag name value).encode = writeTextAttribute tag name.text value.text := by
  simp [Field.ofText, Field.encode, writeTextAttribute]

/-- The loop variables of the rewriter. -/
structure RewriteState where
  currentName : Bytes := []
  replacedPrinter : Bool := false
  replacedChannel : Bool := false

section

variable (uri : ShortText) (channel : Option ShortText)

/-- One turn of the rewriting loop: the fields written for the field read. -/
def rewriteField (st : RewriteState) : Field → Except ParseError (RewriteState × List Field)
  | .delimiter tag h => .ok ({ st with currentName := [] }, [.delimiter tag h])
  | .value tag name val h =>
      let currentName := nextName st.currentName name
      if currentName = asBytes "printer-uri" then
        if name = [] then .ok ({ st with currentName }, [])
        else if st.replacedPrinter then .error .notText
        else
          .ok ({ st with currentName, replacedPrinter := true },
            [.value tag name (asBytes uri.text) ⟨h.1, h.2.1, uri.short⟩])
      else if currentName = asBytes "network-channel" then
        if name = [] then .ok ({ st with currentName }, [])
        else if st.replacedChannel then .error .notText
        else
          .ok ({ st with currentName, replacedChannel := true },
            channel.toList.map networkChannelField)
      else .ok ({ st with currentName }, [.value tag name val h])

/-- The fields written before the end tag for the attributes not seen. -/
def missingFields (st : RewriteState) : List Field :=
  (if st.replacedPrinter then [] else [printerUriField uri])
    ++ if st.replacedChannel then [] else channel.toList.map networkChannelField

/-- The rewriting loop up to the end tag. -/
def rewriteFields (st : RewriteState) : List Field → Except ParseError (List Field)
  | [] => .ok (missingFields uri channel st)
  | f :: fields =>
      match rewriteField uri channel st f with
      | .error e => .error e
      | .ok (st', written) =>
          match rewriteFields st' fields with
          | .error e => .error e
          | .ok written' => .ok (written ++ written')

/-! ### The byte loop follows the field loop -/

/-- The byte loop with the loop variables of `st`. -/
def prepareFrom (st : RewriteState) (output bytes : Bytes) : Except ParseError Bytes :=
  prepareLoop uri.text (channel.map ShortText.text) st.currentName st.replacedPrinter
    st.replacedChannel output bytes

lemma encodeAll_networkChannel :
    encodeAll (channel.toList.map networkChannelField)
      = writeChannel (channel.map ShortText.text) := by
  cases channel with
  | none => rfl
  | some c => simp [networkChannelField, Field.encode_ofText, networkChannelName, writeChannel]

lemma encodeAll_missingFields (st : RewriteState) :
    encodeAll (missingFields uri channel st)
      = missingAttributes uri.text (channel.map ShortText.text) st.replacedPrinter
          st.replacedChannel := by
  rw [missingFields, missingAttributes, encodeAll, List.flatMap_append]
  congr 1
  · cases st.replacedPrinter
    · simp [printerUriField, Field.encode_ofText, printerUriName]
    · rfl
  · cases st.replacedChannel
    · rw [if_neg Bool.false_ne_true, ← encodeAll, encodeAll_networkChannel]
      cases channel <;> rfl
    · cases channel <;> rfl

/-- A value and what follows it: the bytes up to what follows are the value's. -/
lemma take_encode_append (f : Field) (rest : Bytes) :
    (f.encode ++ rest).take ((f.encode ++ rest).length - rest.length) = f.encode := by
  simp

/-- One turn of the byte loop reads one field and writes the fields for it. -/
lemma prepareLoop_encode_cons (st : RewriteState) (f : Field) (output rest : Bytes) :
    prepareFrom uri channel st output (f.encode ++ rest)
      = match rewriteField uri channel st f with
        | .error e => .error e
        | .ok (st', written) => prepareFrom uri channel st' (output ++ encodeAll written) rest := by
  have htake := take_encode_append f rest
  cases f with
  | delimiter tag h =>
      have hend : tag ≠ 0x03 := h.2
      simp only [Field.encode, List.singleton_append, rewriteField, prepareFrom]
      rw [prepareLoop_cons, if_neg hend, if_pos (Tag.isDelimiter_iff.mp h.1)]
      simp [Field.encode]
  | value tag name val h =>
      obtain ⟨hdel, hn, hv⟩ := h
      simp only [Field.encode, List.cons_append, List.append_assoc] at htake ⊢
      rw [prepareFrom, prepareLoop_cons, if_neg (Tag.ne_three hdel),
        if_neg (Tag.not_in_range hdel), readRaw_append hn]
      simp only [readRaw_append hv, htake, rewriteField]
      -- the branches of the two loops are taken on the same conditions
      by_cases hprinter : nextName st.currentName name = asBytes "printer-uri"
      · simp only [if_pos hprinter]
        by_cases hname : name = []
        · simp [hname, prepareFrom]
        · by_cases hrep : st.replacedPrinter = true
          · simp [hname, hrep]
          · simp [hname, hrep, prepareFrom, Field.encode]
      · simp only [if_neg hprinter]
        by_cases hchannel :
            nextName st.currentName name = asBytes "network-channel"
        · simp only [if_pos hchannel]
          by_cases hname : name = []
          · simp [hname, prepareFrom]
          · by_cases hrep : st.replacedChannel = true
            · simp [hname, hrep]
            · simp only [hname, hrep, ↓reduceIte, Bool.false_eq_true, prepareFrom,
                encodeAll_networkChannel]
        · simp [if_neg hchannel, prepareFrom, Field.encode]

/-- The byte loop on a terminated attribute section is the field loop. -/
lemma prepareLoop_encode (st : RewriteState) (fields : List Field) (output document : Bytes) :
    prepareFrom uri channel st output (encodeAll fields ++ Tag.endOfAttributes :: document)
      = match rewriteFields uri channel st fields with
        | .error e => .error e
        | .ok written =>
            .ok (output ++ encodeAll written ++ Tag.endOfAttributes :: document) := by
  induction fields generalizing st output with
  | nil =>
      simp only [encodeAll, List.flatMap_nil, List.nil_append, prepareFrom, rewriteFields]
      rw [prepareLoop_cons, if_pos (by rfl), ← encodeAll_missingFields]
  | cons f fields ih =>
      rw [encodeAll, List.flatMap_cons, List.append_assoc, prepareLoop_encode_cons, rewriteFields]
      cases rewriteField uri channel st f with
      | error e => rfl
      | ok p =>
          obtain ⟨st', written⟩ := p
          simp only
          rw [ih st']
          cases rewriteFields uri channel st' fields with
          | error e => rfl
          | ok written' => simp [encodeAll, List.append_assoc]

/-- The byte loop succeeds only on a terminated attribute section, whatever it writes. -/
lemma prepareLoop_tail {uri : String} {channel : Option String} {currentName : Bytes}
    {replacedPrinter replacedChannel : Bool} {fields : List Field} {output tail out : Bytes}
    (htail : Tail tail) (h : prepareLoop uri channel currentName replacedPrinter replacedChannel
      output (encodeAll fields ++ tail) = .ok out) :
    ∃ document, tail = Tag.endOfAttributes :: document := by
  induction fields generalizing currentName replacedPrinter replacedChannel output with
  | nil =>
      rw [encodeAll, List.flatMap_nil, List.nil_append] at h
      cases htail with
      | empty => simp [prepareLoop] at h
      | terminated document => exact ⟨document, rfl⟩
      | @name tag rest e htag hname =>
          rw [prepareLoop_cons, if_neg (Tag.ne_three htag), if_neg (Tag.not_in_range htag),
            hname] at h
          cases h
      | @value tag rest name rest' e htag hname hval =>
          rw [prepareLoop_cons, if_neg (Tag.ne_three htag), if_neg (Tag.not_in_range htag),
            hname] at h
          simp only [hval] at h
          cases h
  | cons f fields ih =>
      rw [encodeAll, List.flatMap_cons, List.append_assoc] at h
      cases f with
      | delimiter tag hd =>
          have hend : tag ≠ 0x03 := hd.2
          rw [Field.encode, List.singleton_append, prepareLoop_cons, if_neg hend,
            if_pos (Tag.isDelimiter_iff.mp hd.1)] at h
          exact ih h
      | value tag name val hv =>
          obtain ⟨hdel, hname, hval⟩ := hv
          simp only [Field.encode, List.cons_append, List.append_assoc] at h
          rw [prepareLoop_cons, if_neg (Tag.ne_three hdel), if_neg (Tag.not_in_range hdel),
            readRaw_append hname] at h
          simp only [readRaw_append hval] at h
          -- every branch fails or goes on with the fields that are left
          split_ifs at h <;> exact ih h

/-! ### The whole function -/

/-- The fields of the attribute section of a request body. -/
def fieldsOf (bytes : Bytes) : List Field := (scan (bytes.drop 8)).1

/-- The attribute section of an encoded request is the fields it was encoded from. -/
lemma fieldsOf_encode {header : Bytes} (hheader : header.length = 8) (fields : List Field)
    (document : Bytes) :
    fieldsOf (header ++ (encodeAll fields ++ Tag.endOfAttributes :: document)) = fields := by
  rw [fieldsOf, List.drop_left' hheader, scan_encode]

/-- The decoder reads the attributes off what follows the eight header bytes. -/
lemma parse_attributes {header : Bytes} (hheader : header.length = 8) (rest : Bytes) :
    (Request.parse (header ++ rest)).map (·.attributes) = (parseLoop [] rest).map (·.1) := by
  obtain ⟨a, b, c, d, e, f, g, h, rfl⟩ : ∃ a b c d e f g h, header = [a, b, c, d, e, f, g, h] := by
    match header, hheader with
    | [a, b, c, d, e, f, g, h], _ => exact ⟨a, b, c, d, e, f, g, h, rfl⟩
  simp only [List.cons_append, List.nil_append, Request.parse]
  cases parseLoop [] rest <;> rfl

/-- The decoder on a terminated request reads the fields of its attribute section. -/
lemma parse_encode {header : Bytes} (hheader : header.length = 8) (fields : List Field)
    (document : Bytes) :
    (Request.parse (header ++ (encodeAll fields ++ Tag.endOfAttributes :: document))).map
        (·.attributes)
      = readFields [] fields := by
  rw [parse_attributes hheader, parseLoop_encode]
  cases readFields [] fields with
  | error e => rfl
  | ok attributes =>
      simp only [parseLoop_end]
      rfl

/-- A terminated, readable request is forwarded with its fields rewritten. -/
lemma prepareProxyRequest_encode {header : Bytes} (hheader : header.length = 8)
    {fields written : List Field} {attributes : List Attribute} (document : Bytes)
    (hread : readFields [] fields = .ok attributes)
    (hwrite : rewriteFields uri channel {} fields = .ok written) :
    prepareProxyRequest (header ++ (encodeAll fields ++ Tag.endOfAttributes :: document))
        uri.text (channel.map ShortText.text)
      = .ok (header ++ (encodeAll written ++ Tag.endOfAttributes :: document)) := by
  obtain ⟨r, hr, -⟩ := except_map_eq_ok.mp ((parse_encode hheader fields document).trans hread)
  have hloop := prepareLoop_encode uri channel {} fields header document
  rw [hwrite] at hloop
  rw [prepareProxyRequest, hr]
  simp only [List.take_left' hheader, List.drop_left' hheader]
  rw [← List.append_assoc header (encodeAll written)]
  exact hloop

/-- What is forwarded was terminated and readable, and its fields were rewritten. -/
lemma prepareProxyRequest_eq_ok {input out : Bytes}
    (h : prepareProxyRequest input uri.text (channel.map ShortText.text) = .ok out) :
    ∃ header document attributes written, header.length = 8
      ∧ readFields [] (fieldsOf input) = .ok attributes
      ∧ rewriteFields uri channel {} (fieldsOf input) = .ok written
      ∧ out = header ++ (encodeAll written ++ Tag.endOfAttributes :: document) := by
  unfold prepareProxyRequest at h
  cases hr : Request.parse input with
  | error e => rw [hr] at h; cases h
  | ok r =>
      rw [hr] at h
      have hlen : (input.take 8).length = 8 := by
        rcases Nat.lt_or_ge input.length 8 with hshort | hlong
        · exfalso
          unfold Request.parse at hr
          split at hr
          · simp only [List.length_cons] at hshort
            omega
          · cases hr
        · rw [List.length_take]
          omega
      obtain ⟨hscan, htail⟩ := scan_spec (input.drop 8)
      change prepareFrom uri channel {} (input.take 8) (input.drop 8) = .ok out at h
      rw [← hscan] at h
      obtain ⟨document, hdoc⟩ := prepareLoop_tail htail h
      rw [hdoc, prepareLoop_encode] at h
      have hinput : input = input.take 8
          ++ (encodeAll (fieldsOf input) ++ Tag.endOfAttributes :: document) := by
        rw [fieldsOf, ← hdoc, hscan, List.take_append_drop]
      have hread := parse_encode hlen (fieldsOf input) document
      rw [← hinput, hr] at hread
      cases hwrite : rewriteFields uri channel {} (fieldsOf input) with
      | error e => rw [fieldsOf] at hwrite; rw [hwrite] at h; cases h
      | ok written =>
          rw [fieldsOf] at hwrite
          rw [hwrite] at h
          refine ⟨input.take 8, document, r.attributes, written, hlen, hread.symm, rfl, ?_⟩
          rw [← Except.ok.inj h, List.append_assoc]

end

end ShaPrint.Ipp
