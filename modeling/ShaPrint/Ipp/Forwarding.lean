import ShaPrint.Ipp.Injection

/-!
What the proxy's rewriter leaves of a request: the attributes the decoder reads in the
output are those it reads in the input, with `printer-uri` and `network-channel` replaced.

* `forwardedAttributes`: the attributes of the output, by those of the input.
* `WellFormedRequest`: names are text without trailing NULs, additional values follow an
  attribute of their group, and the two replaced attributes occur at most once.
* `forward_field`, `forward_fields`: the decoder on the input, the rewriter, and the decoder
  on what is written, side by side; the induction is on the fields.
* `prepareProxyRequest_unterminated`: nothing is written for a request without an end tag.
* `forwardsFaithfully_iff`: a well-formed request is preserved if and only if the
  replacement values fit the two bytes their lengths are written in.
* `find_forwardedAttributes`, `value_fits`: the channel the server reads.
-/

namespace ShaPrint.Ipp

open BigEndian

/-! ### The attributes of the output -/

/-- What an attribute becomes: the printer URI keeps its tag and gets the remote URI as its
one value, the Network Channel is the configured one, if any, and every other is kept. -/
def replaceAttribute (remotePrinterUri : String) (networkChannel : Option String)
    (a : Attribute) : List Attribute :=
  if a.name = "printer-uri" then [⟨"printer-uri", a.tag, [asBytes remotePrinterUri], [a.tag]⟩]
  else if a.name = "network-channel" then
    networkChannel.toList.map fun c => ⟨"network-channel", Tag.text, [asBytes c], [Tag.text]⟩
  else [a]

/-- The attributes added at the end for those that are missing. -/
def addedAttributes (remotePrinterUri : String) (networkChannel : Option String)
    (attributes : List Attribute) : List Attribute :=
  (if attributes.any (·.name == "printer-uri") then []
    else [⟨"printer-uri", Tag.uri, [asBytes remotePrinterUri], [Tag.uri]⟩])
  ++ if attributes.any (·.name == "network-channel") then []
    else networkChannel.toList.map fun c => ⟨"network-channel", Tag.text, [asBytes c], [Tag.text]⟩

/-- The attributes of a forwarded request, by those of the request. -/
def forwardedAttributes (remotePrinterUri : String) (networkChannel : Option String)
    (attributes : List Attribute) : List Attribute :=
  attributes.flatMap (replaceAttribute remotePrinterUri networkChannel)
    ++ addedAttributes remotePrinterUri networkChannel attributes

/-! ### Well-formed requests -/

/-- The raw name is text without trailing NULs. -/
def PlainName (raw : Bytes) : Prop := (readName raw).map asBytes = some raw

instance (raw : Bytes) : Decidable (PlainName raw) := inferInstanceAs (Decidable (_ = _))

namespace Field

/-- Whether the field begins an attribute of the given name. -/
def isNamed (name : String) : Field → Bool
  | delimiter _ _ => false
  | value _ raw _ _ => raw == asBytes name

/-- Whether a field is a value, so that additional values may follow it. -/
def isValue : Field → Bool
  | delimiter _ _ => false
  | value _ _ _ _ => true

/-- An additional value follows a value of its group; any other value has a plain name. -/
def WellPlaced (inAttribute : Bool) : Field → Prop
  | delimiter _ _ => True
  | value _ raw _ _ => if raw = [] then inAttribute = true else PlainName raw

instance (inAttribute : Bool) : ∀ f : Field, Decidable (f.WellPlaced inAttribute)
  | delimiter _ _ => inferInstanceAs (Decidable True)
  | value _ raw _ _ =>
      inferInstanceAs (Decidable (if raw = [] then inAttribute = true else PlainName raw))

end Field

/-- Every field of a list is well placed, the first one with or without a value before it. -/
def WellFormedFields : Bool → List Field → Prop
  | _, [] => True
  | inAttribute, f :: fields => f.WellPlaced inAttribute ∧ WellFormedFields f.isValue fields

/-- The end tag follows the fields. -/
def Terminated (input : Bytes) : Prop :=
  (scan (input.drop 8)).2.head? = some Tag.endOfAttributes

/-- A well-formed IPP request with at most one `printer-uri` and one `network-channel`. -/
structure WellFormedRequest (input : Bytes) : Prop where
  header : 8 ≤ input.length
  terminated : Terminated input
  fields : WellFormedFields false (fieldsOf input)
  onePrinterUri : (fieldsOf input).countP (Field.isNamed "printer-uri") ≤ 1
  oneNetworkChannel : (fieldsOf input).countP (Field.isNamed "network-channel") ≤ 1

/-! ### The decoder and the rewriter on one field -/

/-- The attribute with one more value. -/
def Attribute.push (a : Attribute) (tag : UInt8) (value : Bytes) : Attribute :=
  { a with values := a.values ++ [value], valueTags := a.valueTags ++ [tag] }

@[simp] lemma pushValue_concat (init : List Attribute) (a : Attribute) (tag : UInt8)
    (value : Bytes) : pushValue (init ++ [a]) tag value = some (init ++ [a.push tag value]) := by
  induction init with
  | nil => rfl
  | cons b init ih =>
      obtain ⟨c, rest, hcons⟩ := List.exists_cons_of_ne_nil (l := init ++ [a]) (by simp)
      rw [List.cons_append, hcons, pushValue, ← hcons, ih]
      rfl

section

variable (uri : ShortText) (channel : Option ShortText)

/-- The replacement with values that can be written. -/
def replaced : Attribute → List Attribute :=
  replaceAttribute uri.text (channel.map ShortText.text)

lemma replaced_push_of_eq (a : Attribute) (tag : UInt8) (value : Bytes)
    (h : a.name = "printer-uri" ∨ a.name = "network-channel") :
    replaced uri channel (a.push tag value) = replaced uri channel a := by
  rcases h with h | h <;> simp [replaced, replaceAttribute, Attribute.push, h]

lemma replaced_of_ne {a : Attribute} (hprinter : a.name ≠ "printer-uri")
    (hchannel : a.name ≠ "network-channel") : replaced uri channel a = [a] := by
  simp [replaced, replaceAttribute, hprinter, hchannel]

/-- The loop variables of the rewriter after the fields the decoder has read `attributes` of. -/
structure Follows (inAttribute : Bool) (attributes : List Attribute) (st : RewriteState) :
    Prop where
  printer : st.replacedPrinter = attributes.any (·.name == "printer-uri")
  channel : st.replacedChannel = attributes.any (·.name == "network-channel")
  within : inAttribute = true →
    ∃ init a, attributes = init ++ [a] ∧ st.currentName = asBytes a.name
  outside : inAttribute = false → st.currentName = []

/-- One turn of the decoder on the input, of the rewriter, and of the decoder on the output. -/
structure Turns (attributes : List Attribute) (st : RewriteState) (f : Field)
    (attributes' : List Attribute) (st' : RewriteState) (written : List Field) : Prop where
  read : readField attributes f = .ok attributes'
  rewrite : rewriteField uri channel st f = .ok (st', written)
  reread : ∀ rest, readFields (attributes.flatMap (replaced uri channel)) (written ++ rest)
    = readFields (attributes'.flatMap (replaced uri channel)) rest
  printer : st'.replacedPrinter = (st.replacedPrinter || f.isNamed "printer-uri")
  channel : st'.replacedChannel = (st.replacedChannel || f.isNamed "network-channel")
  follows : Follows f.isValue attributes' st'

lemma PlainName.exists_eq {raw : Bytes} (h : PlainName raw) :
    ∃ name, readName raw = some name ∧ raw = asBytes name := by
  obtain ⟨name, hname, heq⟩ := Option.map_eq_some_iff.mp h
  exact ⟨name, hname, heq.symm⟩

lemma asBytes_eq_nil {s : String} : asBytes s = [] ↔ s = "" :=
  ⟨fun h => asBytes_injective (h.trans (by decide)), fun h => h ▸ by decide⟩

/-- A named value begins an attribute. -/
lemma readFields_named (attributes : List Attribute) {tag : UInt8} {name : String} {val : Bytes}
    (h : Tag.isDelimiter tag = false ∧ (asBytes name).length < 65536 ∧ val.length < 65536)
    (hne : name ≠ "") (hname : readName (asBytes name) = some name) (rest : List Field) :
    readFields attributes (.value tag (asBytes name) val h :: rest)
      = readFields (attributes ++ [⟨name, tag, [val], [tag]⟩]) rest := by
  simp [readFields, readField, hname, hne]

lemma readName_printerUri : readName (asBytes "printer-uri") = some "printer-uri" := by decide

lemma readName_networkChannel :
    readName (asBytes "network-channel") = some "network-channel" := by decide

/-- Reading the channel field, when there is one. -/
lemma readFields_configured (attributes : List Attribute) (rest : List Field) :
    readFields attributes (channel.toList.map networkChannelField ++ rest)
      = readFields (attributes ++ (channel.map ShortText.text).toList.map
          fun c => ⟨"network-channel", Tag.text, [asBytes c], [Tag.text]⟩) rest := by
  cases channel with
  | none => simp
  | some c => exact readFields_named attributes _ (by decide) readName_networkChannel rest

/-- An additional value goes to the attribute both loops are in. -/
lemma forward_additional {attributes : List Attribute} {st : RewriteState} {tag : UInt8}
    {val : Bytes} (h : Tag.isDelimiter tag = false ∧ ([] : Bytes).length < 65536 ∧
      val.length < 65536) (hst : Follows true attributes st) :
    ∃ attributes' st' written,
      Turns uri channel attributes st (.value tag [] val h) attributes' st' written := by
  obtain ⟨init, a, rfl, hname⟩ := hst.within rfl
  have hread : ∀ as : List Attribute, readField (as ++ [a]) (.value tag [] val h)
      = .ok (as ++ [a.push tag val]) := by
    intro as
    have hempty : readName [] = some "" := by decide
    simp [readField, hempty]
  have hany : ∀ n, (init ++ [a.push tag val]).any (·.name == n)
      = (init ++ [a]).any (·.name == n) := by
    intro n
    rw [List.any_append, List.any_append]
    rfl
  have hnot : ∀ n : String, n ≠ "" → Field.isNamed n (.value tag [] val h) = false := by
    intro n hn
    exact beq_eq_false_iff_ne.mpr fun h => hn (asBytes_eq_nil.mp h.symm)
  have hprinterNot := hnot "printer-uri" (by decide)
  have hchannelNot := hnot "network-channel" (by decide)
  have hnext : nextName st.currentName [] = asBytes a.name := hname
  have hfollows : Follows true (init ++ [a.push tag val])
      { st with currentName := asBytes a.name } :=
    ⟨hst.printer.trans (hany _).symm, hst.channel.trans (hany _).symm,
      fun _ => ⟨init, a.push tag val, rfl, rfl⟩, fun h => absurd h (by decide)⟩
  by_cases hspecial : a.name = "printer-uri" ∨ a.name = "network-channel"
  · -- the value of a replaced attribute is dropped
    refine ⟨_, { st with currentName := asBytes a.name }, [], hread init, ?_, fun rest => ?_,
      by simp [hprinterNot], by simp [hchannelNot], hfollows⟩
    · rcases hspecial with hspecial | hspecial
      · simp [rewriteField, hnext, hspecial]
      · simp [rewriteField, hnext, hspecial]
    · simp [replaced_push_of_eq uri channel a tag val hspecial]
  · obtain ⟨hprinter, hchannel⟩ := not_or.mp hspecial
    refine ⟨_, { st with currentName := asBytes a.name }, [.value tag [] val h], hread init, ?_,
      fun rest => ?_, by simp [hprinterNot], by simp [hchannelNot], hfollows⟩
    · simp [rewriteField, hnext, hprinter, hchannel]
    · have hkeep := replaced_of_ne uri channel hprinter hchannel
      have hpush := replaced_of_ne uri channel (a := a.push tag val) hprinter hchannel
      rw [List.singleton_append, readFields, List.flatMap_append, List.flatMap_singleton, hkeep,
        hread, List.flatMap_append, List.flatMap_singleton, hpush]

/-- A value with a name begins an attribute, of the replaced ones a first time only. -/
lemma forward_named {inAttribute : Bool} {attributes : List Attribute} {st : RewriteState}
    {tag : UInt8} {name : String} {val : Bytes}
    (h : Tag.isDelimiter tag = false ∧ (asBytes name).length < 65536 ∧ val.length < 65536)
    (hne : name ≠ "") (hname : readName (asBytes name) = some name)
    (hst : Follows inAttribute attributes st)
    (honce : name = "printer-uri" → st.replacedPrinter = false)
    (honce' : name = "network-channel" → st.replacedChannel = false) :
    ∃ attributes' st' written,
      Turns uri channel attributes st (.value tag (asBytes name) val h) attributes' st'
        written := by
  have hraw : asBytes name ≠ [] := mt asBytes_eq_nil.mp hne
  have hnext : nextName st.currentName (asBytes name) = asBytes name := if_neg hraw
  have hread : readField attributes (.value tag (asBytes name) val h)
      = .ok (attributes ++ [⟨name, tag, [val], [tag]⟩]) := by
    simp [readField, hname, hne]
  have hnamed : ∀ n : String, Field.isNamed n (.value tag (asBytes name) val h) = (name == n) := by
    intro n
    rw [Bool.eq_iff_iff]
    simp [Field.isNamed]
  have hfollows : Follows true (attributes ++ [⟨name, tag, [val], [tag]⟩])
      ⟨asBytes name, st.replacedPrinter || (name == "printer-uri"),
        st.replacedChannel || (name == "network-channel")⟩ := by
    refine ⟨?_, ?_, fun _ => ⟨_, _, rfl, rfl⟩, fun h => absurd h (by decide)⟩
    · simp [hst.printer]
    · simp [hst.channel]
  refine ⟨attributes ++ [⟨name, tag, [val], [tag]⟩],
    ⟨asBytes name, st.replacedPrinter || (name == "printer-uri"),
      st.replacedChannel || (name == "network-channel")⟩, ?_⟩
  by_cases hprinter : name = "printer-uri"
  · subst hprinter
    refine ⟨[.value tag (asBytes "printer-uri") (asBytes uri.text) ⟨h.1, h.2.1, uri.short⟩], hread,
      ?_, fun rest => ?_, by rw [hnamed], by rw [hnamed], hfollows⟩
    · simp [rewriteField, hnext, hraw, honce rfl]
    · rw [List.singleton_append, readFields_named _ _ (by decide) hname, List.flatMap_append,
        List.flatMap_singleton]
      rfl
  by_cases hchannel : name = "network-channel"
  · subst hchannel
    refine ⟨channel.toList.map networkChannelField, hread, ?_, fun rest => ?_, by rw [hnamed],
      by rw [hnamed], hfollows⟩
    · simp [rewriteField, hnext, hraw, honce' rfl]
    · rw [readFields_configured, List.flatMap_append, List.flatMap_singleton]
      rfl
  refine ⟨[.value tag (asBytes name) val h], hread, ?_, fun rest => ?_, by rw [hnamed],
    by rw [hnamed], hfollows⟩
  · simp [rewriteField, hnext, hprinter, hchannel]
  · rw [List.singleton_append, readFields_named _ _ hne hname, List.flatMap_append,
      List.flatMap_singleton, replaced_of_ne uri channel hprinter hchannel]

/-- One turn of the two loops side by side. -/
lemma forward_field {inAttribute : Bool} {attributes : List Attribute} {st : RewriteState}
    {f : Field} (hf : f.WellPlaced inAttribute) (hst : Follows inAttribute attributes st)
    (honce : f.isNamed "printer-uri" = true → st.replacedPrinter = false)
    (honce' : f.isNamed "network-channel" = true → st.replacedChannel = false) :
    ∃ attributes' st' written, Turns uri channel attributes st f attributes' st' written := by
  cases f with
  | delimiter tag h =>
      refine ⟨attributes, { st with currentName := [] }, [.delimiter tag h], rfl, rfl,
        fun rest => rfl, (Bool.or_false _).symm, (Bool.or_false _).symm, ?_⟩
      exact ⟨hst.printer, hst.channel, fun h => absurd h Bool.false_ne_true, fun _ => rfl⟩
  | value tag raw val h =>
      by_cases hempty : raw = []
      · subst hempty
        have hin : inAttribute = true := by simpa [Field.WellPlaced] using hf
        subst hin
        exact forward_additional uri channel h hst
      · have hplain : PlainName raw := by simpa [Field.WellPlaced, hempty] using hf
        obtain ⟨name, hname, rfl⟩ := hplain.exists_eq
        have hne : name ≠ "" := mt asBytes_eq_nil.mpr hempty
        exact forward_named uri channel h hne hname hst
          (fun heq => honce (by simp [Field.isNamed, heq]))
          fun heq => honce' (by simp [Field.isNamed, heq])

/-! ### Whole attribute sections -/

/-- What is written at the end tag adds the attributes that are missing. -/
lemma readFields_missingFields {inAttribute : Bool} {attributes : List Attribute}
    {st : RewriteState} (hst : Follows inAttribute attributes st) (as : List Attribute) :
    readFields as (missingFields uri channel st)
      = .ok (as ++ addedAttributes uri.text (channel.map ShortText.text) attributes) := by
  have hchannel : ∀ as : List Attribute,
      readFields as (if st.replacedChannel then [] else channel.toList.map networkChannelField)
        = .ok (as ++ if st.replacedChannel then [] else (channel.map ShortText.text).toList.map
            fun c => ⟨"network-channel", Tag.text, [asBytes c], [Tag.text]⟩) := by
    intro as
    cases st.replacedChannel with
    | true => simp [readFields]
    | false =>
        have hread := readFields_configured channel as []
        rw [List.append_nil] at hread
        exact hread
  rw [missingFields, addedAttributes, ← hst.printer, ← hst.channel]
  cases st.replacedPrinter with
  | true => exact hchannel as
  | false =>
      rw [if_neg Bool.false_ne_true, if_neg Bool.false_ne_true, List.singleton_append,
        ← List.append_assoc, ← hchannel]
      exact readFields_named as _ (by decide) readName_printerUri _

/-- The occurrences of an attribute that are left, once one of them was met. -/
lemma countP_le_of_cons {name : String} {f : Field} {fields : List Field} {met : Bool}
    (h : met.toNat + (f :: fields).countP (Field.isNamed name) ≤ 1) :
    (f.isNamed name = true → met = false)
      ∧ (met || f.isNamed name).toNat + fields.countP (Field.isNamed name) ≤ 1 := by
  rw [List.countP_cons] at h
  cases met <;> cases hf : f.isNamed name <;>
    simp only [hf, Bool.toNat_true, Bool.toNat_false, Bool.or_true, Bool.or_false, reduceCtorEq,
      ↓reduceIte, forall_const, false_implies, true_and] at h ⊢ <;> omega

/-- **The two loops side by side** on well-formed fields: the decoder reads the fields, the
rewriter rewrites them, and the decoder reads in what is written the forwarded attributes. -/
lemma forward_fields {inAttribute : Bool} {attributes : List Attribute} {st : RewriteState}
    {fields : List Field} (hfields : WellFormedFields inAttribute fields)
    (hst : Follows inAttribute attributes st)
    (hprinter : st.replacedPrinter.toNat + fields.countP (Field.isNamed "printer-uri") ≤ 1)
    (hchannel : st.replacedChannel.toNat + fields.countP (Field.isNamed "network-channel") ≤ 1) :
    ∃ attributes' written, readFields attributes fields = .ok attributes'
      ∧ rewriteFields uri channel st fields = .ok written
      ∧ readFields (attributes.flatMap (replaced uri channel)) written
        = .ok (forwardedAttributes uri.text (channel.map ShortText.text) attributes') := by
  induction fields generalizing inAttribute attributes st with
  | nil => exact ⟨attributes, _, rfl, rfl, readFields_missingFields uri channel hst _⟩
  | cons f fields ih =>
      obtain ⟨hf, hrest⟩ := hfields
      obtain ⟨honce, hprinter⟩ := countP_le_of_cons hprinter
      obtain ⟨honce', hchannel⟩ := countP_le_of_cons hchannel
      obtain ⟨as, st', now, turn⟩ := forward_field uri channel hf hst honce honce'
      obtain ⟨attributes', later, hread, hwrite, hreread⟩ :=
        ih hrest turn.follows (turn.printer ▸ hprinter) (turn.channel ▸ hchannel)
      refine ⟨attributes', now ++ later, ?_, ?_, (turn.reread later).trans hreread⟩
      · rw [readFields, turn.read]
        exact hread
      · rw [rewriteFields, turn.rewrite]
        simp only [hwrite]

end

/-! ### Whole requests -/

/-- What the rewriter succeeds on has an end tag. -/
lemma terminated_of_prepareProxyRequest {input out : Bytes} {remotePrinterUri : String}
    {networkChannel : Option String}
    (h : prepareProxyRequest input remotePrinterUri networkChannel = .ok out) :
    Terminated input := by
  unfold prepareProxyRequest at h
  cases hparse : Request.parse input with
  | error e => rw [hparse] at h; cases h
  | ok r =>
      obtain ⟨hscan, htail⟩ := scan_spec (input.drop 8)
      simp only [hparse] at h
      rw [← hscan] at h
      obtain ⟨document, hdocument⟩ := prepareLoop_tail htail h
      rw [Terminated, hdocument]
      rfl

/-- Nothing is written for a request without an end tag. -/
lemma prepareProxyRequest_unterminated {input : Bytes} (h : ¬Terminated input)
    (remotePrinterUri : String) (networkChannel : Option String) :
    ∃ e, prepareProxyRequest input remotePrinterUri networkChannel = .error e := by
  cases hout : prepareProxyRequest input remotePrinterUri networkChannel with
  | error e => exact ⟨e, rfl⟩
  | ok out => exact absurd (terminated_of_prepareProxyRequest hout) h

/-- A terminated request is its header, its fields and its document. -/
lemma Terminated.exists_eq {input : Bytes} (h : Terminated input) (hlength : 8 ≤ input.length) :
    ∃ a b c d e f g i document, input = [a, b, c, d, e, f, g, i]
      ++ (encodeAll (fieldsOf input) ++ Tag.endOfAttributes :: document) := by
  obtain ⟨document, htail⟩ := List.head?_eq_some_iff.mp h
  have hdrop : input.drop 8
      = encodeAll (fieldsOf input) ++ Tag.endOfAttributes :: document := by
    rw [← htail]
    exact (scan_spec (input.drop 8)).1.symm
  match input, hlength, hdrop with
  | a :: b :: c :: d :: e :: f :: g :: i :: rest, _, hdrop =>
      exact ⟨a, b, c, d, e, f, g, i, document, congrArg ([a, b, c, d, e, f, g, i] ++ ·) hdrop⟩

/-- The decoder on a header, readable fields and a document. -/
lemma parse_fields (a b c d e f g i : UInt8) {fields : List Field} {attributes : List Attribute}
    (document : Bytes) (h : readFields [] fields = .ok attributes) :
    ∃ start, Request.parse ([a, b, c, d, e, f, g, i]
        ++ (encodeAll fields ++ Tag.endOfAttributes :: document))
      = .ok ⟨(a, b), ofBe16 c d, ofBe32 e f g i, attributes, document, start⟩ := by
  have hloop := parseLoop_encode [] fields (Tag.endOfAttributes :: document)
  simp only [h, parseLoop_end] at hloop
  simp only [List.cons_append, List.nil_append, Request.parse, hloop, Option.getD_some]
  exact ⟨_, rfl⟩

/-- The values written in place of `printer-uri` and `network-channel` fit the two bytes their
lengths are written in. -/
def ReplacementsFit (remotePrinterUri : String) (networkChannel : Option String) : Prop :=
  (asBytes remotePrinterUri).length < 65536 ∧ ∀ c ∈ networkChannel, (asBytes c).length < 65536

/-- The request is forwarded, and is read as the request it was, with `printer-uri` and
`network-channel` replaced or added at the end. -/
def Preserved (remotePrinterUri : String) (networkChannel : Option String) (input : Bytes) :
    Prop :=
  ∃ r out r', Request.parse input = .ok r
    ∧ prepareProxyRequest input remotePrinterUri networkChannel = .ok out
    ∧ Request.parse out = .ok r'
    ∧ r'.version = r.version ∧ r'.operation = r.operation ∧ r'.requestId = r.requestId
    ∧ r'.document = r.document
    ∧ r'.attributes = forwardedAttributes remotePrinterUri networkChannel r.attributes

/-- A well-formed request is preserved when the replacements can be written. -/
lemma WellFormedRequest.preserved {input : Bytes} (h : WellFormedRequest input)
    (uri : ShortText) (channel : Option ShortText) :
    Preserved uri.text (channel.map ShortText.text) input := by
  have hstart : Follows false [] {} := ⟨rfl, rfl, fun h => absurd h Bool.false_ne_true, fun _ => rfl⟩
  have hprinter := h.onePrinterUri
  have hchannel := h.oneNetworkChannel
  obtain ⟨attributes, written, hread, hwrite, hreread⟩ :=
    forward_fields uri channel h.fields hstart (by simpa using hprinter) (by simpa using hchannel)
  obtain ⟨a, b, c, d, e, f, g, i, document, hinput⟩ := h.terminated.exists_eq h.header
  obtain ⟨start, hparse⟩ := parse_fields a b c d e f g i document hread
  obtain ⟨start', hparse'⟩ := parse_fields a b c d e f g i document hreread
  have hheader : [a, b, c, d, e, f, g, i].length = 8 := rfl
  have hout := prepareProxyRequest_encode uri channel hheader document hread hwrite
  rw [← hinput] at hparse hout
  exact ⟨_, _, _, hparse, hout, hparse', rfl, rfl, rfl, rfl, rfl⟩

/-! ### Replacements that do not fit -/

/-- Every value of the attributes has a length of two bytes. -/
def ValuesFit (attributes : List Attribute) : Prop :=
  ∀ a ∈ attributes, ∀ v ∈ a.values, v.length < 65536

lemma readField_valuesFit {attributes attributes' : List Attribute} {f : Field}
    (hfit : ValuesFit attributes) (h : readField attributes f = .ok attributes') :
    ValuesFit attributes' := by
  cases f with
  | delimiter tag hd => exact Except.ok.inj h ▸ hfit
  | value tag raw val hv =>
      simp only [readField] at h
      cases hname : readName raw with
      | none => simp [hname] at h
      | some name =>
          simp only [hname] at h
          split_ifs at h with hempty
          · rcases List.eq_nil_or_concat attributes with rfl | ⟨init, a, rfl⟩
            · simp [pushValue] at h
            · rw [List.concat_eq_append, pushValue_concat] at h
              obtain rfl := Except.ok.inj h
              intro b hb v hvb
              rcases List.mem_append.mp hb with hb | hb
              · exact hfit b (by simp [hb]) v hvb
              · obtain rfl := List.mem_singleton.mp hb
                rcases List.mem_append.mp hvb with hvb | hvb
                · exact hfit a (by simp) v hvb
                · exact List.mem_singleton.mp hvb ▸ hv.2.2
          · obtain rfl := Except.ok.inj h
            intro b hb v hvb
            rcases List.mem_append.mp hb with hb | hb
            · exact hfit b hb v hvb
            · obtain rfl := List.mem_singleton.mp hb
              exact List.mem_singleton.mp hvb ▸ hv.2.2

lemma readFields_valuesFit {attributes attributes' : List Attribute} {fields : List Field}
    (hfit : ValuesFit attributes) (h : readFields attributes fields = .ok attributes') :
    ValuesFit attributes' := by
  induction fields generalizing attributes with
  | nil => exact Except.ok.inj h ▸ hfit
  | cons f fields ih =>
      rw [readFields] at h
      cases hf : readField attributes f with
      | error e => simp [hf] at h
      | ok as =>
          rw [hf] at h
          exact ih (readField_valuesFit hfit hf) h

/-- What follows the fields adds no attribute. -/
lemma Tail.parseLoop_eq_ok {tail : Bytes} (h : Tail tail) {attributes attributes' : List Attribute}
    {document : Option Bytes} (hloop : parseLoop attributes tail = .ok (attributes', document)) :
    attributes' = attributes := by
  cases h with
  | empty =>
      rw [parseLoop_nil] at hloop
      exact (Prod.mk.inj (Except.ok.inj hloop)).1.symm
  | terminated document =>
      rw [parseLoop_end] at hloop
      exact (Prod.mk.inj (Except.ok.inj hloop)).1.symm
  | @name tag rest e htag hname =>
      rw [parseLoop_cons, if_neg (Tag.ne_endOfAttributes htag), if_neg (by simp [htag]), readText,
        hname] at hloop
      cases hloop
  | @value tag rest name rest' e htag hname hval =>
      rw [parseLoop_cons, if_neg (Tag.ne_endOfAttributes htag), if_neg (by simp [htag]), readText,
        hname] at hloop
      cases hutf : fromUtf8 name with
      | none => simp [hutf] at hloop
      | some text => simp [hutf, hval] at hloop

/-- The decoder reads the attributes of a request off its fields. -/
lemma readFields_of_parse {input : Bytes} {r : Request} (h : Request.parse input = .ok r) :
    readFields [] (fieldsOf input) = .ok r.attributes := by
  unfold Request.parse at h
  split at h
  · rename_i v0 v1 o0 o1 r0 r1 r2 r3 rest
    cases hloop : parseLoop [] rest with
    | error e => simp [hloop] at h
    | ok p =>
        obtain ⟨attributes, document⟩ := p
        rw [hloop] at h
        obtain rfl := Except.ok.inj h
        obtain ⟨hscan, htail⟩ := scan_spec rest
        rw [← hscan, parseLoop_encode] at hloop
        change readFields [] (scan rest).1 = .ok attributes
        cases hread : readFields [] (scan rest).1 with
        | error e => simp [hread] at hloop
        | ok as =>
            simp only [hread] at hloop
            rw [htail.parseLoop_eq_ok hloop]
  · cases h

/-- The replacement values are among the attributes of the output. -/
lemma replacementsFit_of_valuesFit {remotePrinterUri : String} {networkChannel : Option String}
    {attributes : List Attribute}
    (h : ValuesFit (forwardedAttributes remotePrinterUri networkChannel attributes)) :
    ReplacementsFit remotePrinterUri networkChannel := by
  have hkept : ∀ a ∈ attributes, ∀ b ∈ replaceAttribute remotePrinterUri networkChannel a,
      ∀ v ∈ b.values, v.length < 65536 := fun a ha b hb =>
    h b (List.mem_append_left _ (List.mem_flatMap.mpr ⟨a, ha, hb⟩))
  have hadded : ∀ b ∈ addedAttributes remotePrinterUri networkChannel attributes,
      ∀ v ∈ b.values, v.length < 65536 := fun b hb => h b (List.mem_append_right _ hb)
  refine ⟨?_, fun c hc => ?_⟩
  · by_cases hany : attributes.any (·.name == "printer-uri") = true
    · obtain ⟨a, ha, hname⟩ := List.any_eq_true.mp hany
      have hreplace := hkept a ha
      rw [replaceAttribute, if_pos (by simpa using hname)] at hreplace
      exact hreplace _ (List.mem_singleton_self _) _ (List.mem_singleton_self _)
    · exact hadded ⟨"printer-uri", Tag.uri, [asBytes remotePrinterUri], [Tag.uri]⟩
        (by simp [addedAttributes, hany]) _ (by simp)
  · obtain rfl := Option.mem_def.mp hc
    by_cases hany : attributes.any (·.name == "network-channel") = true
    · obtain ⟨a, ha, hname⟩ := List.any_eq_true.mp hany
      have hne : a.name = "network-channel" := by simpa using hname
      have hreplace := hkept a ha
      rw [replaceAttribute, if_neg (by simp [hne]), if_pos hne] at hreplace
      exact hreplace ⟨"network-channel", Tag.text, [asBytes c], [Tag.text]⟩ (by simp) _ (by simp)
    · exact hadded ⟨"network-channel", Tag.text, [asBytes c], [Tag.text]⟩
        (by simp [addedAttributes, hany]) _ (by simp)

/-- The proxy forwards a request faithfully: a well-formed one is preserved, and nothing is
written for one without an end tag. -/
def ForwardsFaithfully (remotePrinterUri : String) (networkChannel : Option String)
    (input : Bytes) : Prop :=
  (WellFormedRequest input → Preserved remotePrinterUri networkChannel input)
    ∧ (¬Terminated input →
      ∃ e, prepareProxyRequest input remotePrinterUri networkChannel = .error e)

/-- A well-formed request is read again only where the replacements fit. -/
lemma ForwardsFaithfully.replacementsFit {remotePrinterUri : String}
    {networkChannel : Option String} {input : Bytes}
    (h : ForwardsFaithfully remotePrinterUri networkChannel input)
    (hwell : WellFormedRequest input) : ReplacementsFit remotePrinterUri networkChannel := by
  obtain ⟨r, out, r', -, -, hparse, -, -, -, -, hattributes⟩ := h.1 hwell
  have hfit : ValuesFit r'.attributes :=
    readFields_valuesFit (fun a ha => absurd ha List.not_mem_nil) (readFields_of_parse hparse)
  exact replacementsFit_of_valuesFit (hattributes ▸ hfit)

/-- **Forwarding preserves the request** exactly when the replacements fit: the remote URI and
the configured channel are written with their lengths cut to two bytes. -/
theorem forwardsFaithfully_iff (remotePrinterUri : String) (networkChannel : Option String)
    (input : Bytes) :
    ForwardsFaithfully remotePrinterUri networkChannel input
      ↔ (WellFormedRequest input → ReplacementsFit remotePrinterUri networkChannel) := by
  constructor
  · exact ForwardsFaithfully.replacementsFit
  · intro hfit
    refine ⟨fun hwell => ?_, fun hend => prepareProxyRequest_unterminated hend _ _⟩
    obtain ⟨huri, hchannel⟩ := hfit hwell
    cases networkChannel with
    | none => exact hwell.preserved ⟨remotePrinterUri, huri⟩ none
    | some c => exact hwell.preserved ⟨remotePrinterUri, huri⟩ (some ⟨c, hchannel c rfl⟩)

lemma sides_short : (asBytes "sides").length < 65536 := by decide

/-- A request with a setting of two values. -/
def duplexFields : List Field :=
  [.delimiter Tag.operationAttributes Tag.delimits_operationAttributes,
    .ofText Tag.keyword Tag.isDelimiter_keyword ⟨"sides", sides_short⟩
      ⟨"two-sided-long-edge", by decide⟩,
    .ofText Tag.keyword Tag.isDelimiter_keyword ⟨"", by decide⟩ ⟨"two-sided-short-edge", by decide⟩]

/-- The request as it is received, with a document of one byte. -/
def duplexRequest : Bytes :=
  [2, 0, 0, 2, 0, 0, 0, 1] ++ (encodeAll duplexFields ++ Tag.endOfAttributes :: [7])

lemma duplexRequest_wellFormed : WellFormedRequest duplexRequest := by
  have hfields : fieldsOf duplexRequest = duplexFields := fieldsOf_encode rfl duplexFields [7]
  refine ⟨?_, ?_, ?_, ?_, ?_⟩
  · rw [duplexRequest, List.length_append]
    exact Nat.le_add_right 8 _
  · have hdrop : duplexRequest.drop 8 = encodeAll duplexFields ++ Tag.endOfAttributes :: [7] :=
      List.drop_left' rfl
    rw [Terminated, hdrop, scan_encode]
    rfl
  · rw [hfields]
    exact ⟨trivial, by decide, by decide, trivial⟩
  · rw [hfields]
    decide
  · rw [hfields]
    decide

/-- A channel of `n` characters, one byte each. -/
def channelOfLength (n : ℕ) : String := .ofList (List.replicate n 'x')

lemma channelOfLength_length (n : ℕ) : (asBytes (channelOfLength n)).length = n := by
  have hsize : 'x'.utf8Size = 1 := by decide
  simp [channelOfLength, asBytes_ofList, List.length_flatMap, hsize]

/-- A well-formed request is not preserved where the configured channel is one byte too long
for the two bytes of its length. -/
theorem duplexRequest_not_forwarded :
    ¬ForwardsFaithfully "ipps://server:48631/ipp/print/A"
      (some (channelOfLength 65536)) duplexRequest := by
  intro h
  have hlength := (h.replacementsFit duplexRequest_wellFormed).2 (channelOfLength 65536) rfl
  rw [channelOfLength_length] at hlength
  exact lt_irrefl _ hlength

/-! ### The channel that is read -/

/-- The server finds the configured channel in the attributes of a forwarded request. -/
lemma find_forwardedAttributes (remotePrinterUri c : String) (attributes : List Attribute) :
    (forwardedAttributes remotePrinterUri (some c) attributes).find? (·.name == "network-channel")
      = some ⟨"network-channel", Tag.text, [asBytes c], [Tag.text]⟩ := by
  have hkept : (attributes.flatMap (replaceAttribute remotePrinterUri (some c))).find?
      (·.name == "network-channel")
        = if attributes.any (·.name == "network-channel") then
            some ⟨"network-channel", Tag.text, [asBytes c], [Tag.text]⟩ else none := by
    induction attributes with
    | nil => rfl
    | cons a attributes ih =>
        rw [List.flatMap_cons, List.find?_append, ih, List.any_cons, replaceAttribute]
        by_cases hprinter : a.name = "printer-uri"
        · simp [hprinter]
        · by_cases hchannel : a.name = "network-channel"
          · simp [hchannel]
          · simp [hprinter, hchannel]
  rw [forwardedAttributes, List.find?_append, hkept, addedAttributes]
  cases attributes.any (·.name == "network-channel") <;>
    cases attributes.any (·.name == "printer-uri") <;> simp

/-- The server finds the printer URI of the proxy, under the tag that the request had. -/
lemma find_forwardedAttributes_printer (remotePrinterUri : String)
    (networkChannel : Option String) (attributes : List Attribute) :
    ∃ tag, (forwardedAttributes remotePrinterUri networkChannel attributes).find?
        (·.name == "printer-uri") = some ⟨"printer-uri", tag, [asBytes remotePrinterUri], [tag]⟩
      ∧ (tag = Tag.uri ∨ ∃ a, attributes.find? (·.name == "printer-uri") = some a
        ∧ a.tag = tag) := by
  have hkept : (attributes.flatMap (replaceAttribute remotePrinterUri networkChannel)).find?
      (·.name == "printer-uri") = (attributes.find? (·.name == "printer-uri")).map
        fun a => ⟨"printer-uri", a.tag, [asBytes remotePrinterUri], [a.tag]⟩ := by
    induction attributes with
    | nil => rfl
    | cons a attributes ih =>
        rw [List.flatMap_cons, List.find?_append, ih, List.find?_cons, replaceAttribute]
        by_cases hprinter : a.name = "printer-uri"
        · simp [hprinter]
        · by_cases hchannel : a.name = "network-channel"
          · cases networkChannel <;> simp [hchannel]
          · rw [if_neg hprinter, if_neg hchannel, List.find?_singleton,
              beq_eq_false_iff_ne.mpr hprinter, if_neg Bool.false_ne_true, Option.none_or]
  rw [forwardedAttributes, List.find?_append, hkept]
  cases hfind : attributes.find? (·.name == "printer-uri") with
  | some a => exact ⟨a.tag, rfl, .inr ⟨a, rfl, rfl⟩⟩
  | none =>
      have hany : attributes.any (·.name == "printer-uri") = false := by
        rw [List.any_eq_false]
        exact List.find?_eq_none.mp hfind
      exact ⟨Tag.uri, by simp [addedAttributes, hany], .inl rfl⟩

/-- The other attributes are found as they were. -/
lemma find_forwardedAttributes_kept {name : String} (hprinter : name ≠ "printer-uri")
    (hchannel : name ≠ "network-channel") (remotePrinterUri : String)
    (networkChannel : Option String) (attributes : List Attribute) :
    (forwardedAttributes remotePrinterUri networkChannel attributes).find? (·.name == name)
      = attributes.find? (·.name == name) := by
  have hnot : ∀ a : Attribute, a.name = "printer-uri" ∨ a.name = "network-channel" →
      (a.name == name) = false := by
    rintro a (h | h)
    · rw [h, beq_eq_false_iff_ne]
      exact hprinter.symm
    · rw [h, beq_eq_false_iff_ne]
      exact hchannel.symm
  have hconfigured : (networkChannel.toList.map fun c =>
      (⟨"network-channel", Tag.text, [asBytes c], [Tag.text]⟩ : Attribute)).find?
        (·.name == name) = none := by
    cases networkChannel <;> simp [hchannel.symm]
  have hkept : (attributes.flatMap (replaceAttribute remotePrinterUri networkChannel)).find?
      (·.name == name) = attributes.find? (·.name == name) := by
    induction attributes with
    | nil => rfl
    | cons a attributes ih =>
        rw [List.flatMap_cons, List.find?_append, ih, List.find?_cons, replaceAttribute]
        by_cases ha : a.name = "printer-uri"
        · rw [if_pos ha, hnot a (.inl ha), List.find?_singleton, hnot _ (.inl rfl),
            if_neg Bool.false_ne_true, Option.none_or]
        · by_cases ha' : a.name = "network-channel"
          · rw [if_neg ha, if_pos ha', hconfigured, Option.none_or, hnot a (.inr ha')]
          · rw [if_neg ha, if_neg ha', List.find?_singleton]
            cases a.name == name <;> rfl
  have hadded : (addedAttributes remotePrinterUri networkChannel attributes).find?
      (·.name == name) = none := by
    rw [addedAttributes, List.find?_append]
    split_ifs <;> simp [hconfigured, hprinter.symm]
  rw [forwardedAttributes, List.find?_append, hadded, Option.or_none, hkept]

/-- The text of an attribute has no trailing NULs, and fits where the value does. -/
lemma Attribute.text_fits {a : Attribute} {v : String} (hfit : ∀ b ∈ a.values, b.length < 65536)
    (h : a.text = some v) : trimEndNul v = v ∧ (asBytes v).length < 65536 := by
  unfold Attribute.text at h
  split_ifs at h
  obtain ⟨s, hs, rfl⟩ := Option.map_eq_some_iff.mp h
  obtain ⟨raw, hraw, hs⟩ := Option.bind_eq_some_iff.mp hs
  obtain rfl := fromUtf8_eq_some.mp hs
  refine ⟨trimEndNul_trimEndNul s, lt_of_le_of_lt ?_ (hfit _ (List.mem_of_head? hraw))⟩
  rw [asBytes_trimEndNul]
  exact (List.rdropWhile_prefix _ _).length_le

/-- What the server reads under a name has no trailing NULs, and fits two bytes of length. -/
lemma value_fits {input : Bytes} {r : Request} {name v : String}
    (hparse : Request.parse input = .ok r) (h : r.value name = some v) :
    trimEndNul v = v ∧ (asBytes v).length < 65536 := by
  obtain ⟨a, ha, hv⟩ := Option.bind_eq_some_iff.mp h
  have hfit : ValuesFit r.attributes :=
    readFields_valuesFit (fun a ha => absurd ha List.not_mem_nil) (readFields_of_parse hparse)
  exact a.text_fits (hfit a (List.mem_of_find?_eq_some ha)) hv

end ShaPrint.Ipp
