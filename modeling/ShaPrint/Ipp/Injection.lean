import ShaPrint.Ipp.Rewrite

/-!
What the server reads of the credential the client proxy injects.

The rewriter recognises `printer-uri` and `network-channel` by their raw names,
and forgets the name it is in at every group delimiter; the decoder trims NULs
off a name, and attaches a value whose name is then empty to the attribute it
read last, delimiters or not. So the two can disagree on whose value a forwarded
value is.

* `owner`: the attribute the decoder attaches a value to.
* `fate`: what the rewriter does with a value.
* `NothingExposed`: no forwarded value is one the decoder attaches to
  `printer-uri` or `network-channel`, or to nothing at all.
* `exact_fields_iff`: on fields, this is when the server reads exactly the
  injected values; the induction is on the fields, with both loops' variables.
* `prepareProxyRequest_injectsExactly_iff`: the same for request bodies.
-/

namespace ShaPrint.Ipp

/-! ### The values under a name -/

/-- Every value under `name`, over all attributes of that name. -/
def valuesUnder (attributes : List Attribute) (name : String) : List Bytes :=
  (attributes.filter (·.name == name)).flatMap (·.values)

lemma Request.allValues_eq (r : Request) (name : String) :
    r.allValues name = valuesUnder r.attributes name := rfl

/-- The name of the attribute read last. -/
def lastName (attributes : List Attribute) : Option String := attributes.getLast?.map (·.name)

@[simp] lemma lastName_nil : lastName [] = none := rfl

lemma valuesUnder_append (as bs : List Attribute) (name : String) :
    valuesUnder (as ++ bs) name = valuesUnder as name ++ valuesUnder bs name := by
  simp [valuesUnder, List.filter_append, List.flatMap_append]

/-- Attaching a value to the last attribute keeps every name and adds the value
under the last one. -/
lemma pushValue_spec {attributes attributes' : List Attribute} {tag : UInt8} {value : Bytes}
    {last : String} (hlast : lastName attributes = some last)
    (h : pushValue attributes tag value = some attributes') :
    lastName attributes' = some last
      ∧ (∀ name, valuesUnder attributes' name
          = valuesUnder attributes name ++ if last = name then [value] else [])
      ∧ ((∀ a ∈ attributes, a.values ≠ []) → ∀ a ∈ attributes', a.values ≠ []) := by
  induction attributes generalizing attributes' with
  | nil => simp at hlast
  | cons a rest ih =>
      cases rest with
      | nil =>
          simp only [pushValue, Option.some.injEq] at h
          subst h
          simp only [lastName, List.getLast?_singleton, Option.map_some, Option.some.injEq] at hlast
          subst hlast
          refine ⟨rfl, fun name => ?_, by simp⟩
          by_cases hn : a.name = name <;> simp [valuesUnder, hn]
      | cons b rest =>
          simp only [pushValue, Option.map_eq_some_iff] at h
          obtain ⟨rest', hrest, rfl⟩ := h
          have hne : rest' ≠ [] := by
            rintro rfl
            cases rest with
            | nil => simp [pushValue] at hrest
            | cons c rest => simp [pushValue] at hrest
          obtain ⟨h1, h2, h3⟩ := ih (by simpa [lastName] using hlast) hrest
          refine ⟨?_, fun name => ?_, fun hall => ?_⟩
          · obtain ⟨c, cs, rfl⟩ := List.exists_cons_of_ne_nil hne
            simpa [lastName] using h1
          · rw [← List.singleton_append, valuesUnder_append, h2, ← List.append_assoc,
              ← valuesUnder_append, List.singleton_append]
          · simp only [List.mem_cons, forall_eq_or_imp] at hall ⊢
            exact ⟨hall.1, h3 (by simpa using hall.2)⟩

/-! ### Whose value the decoder takes a value to be -/

/-- The attribute the decoder attaches a value to, given the attribute it read
last; `none` where the name is unreadable or there is no such attribute. -/
def owner (last : Option String) (raw : Bytes) : Option String :=
  match readName raw with
  | none => none
  | some name => if name = "" then last else some name

/-- Reading a value fails where it has no owner, and otherwise adds it under its
owner, which is then the attribute read last. -/
lemma readField_value (attributes : List Attribute) (tag : UInt8) (raw val : Bytes)
    (h : Tag.isDelimiter tag = false ∧ raw.length < 65536 ∧ val.length < 65536) :
    match owner (lastName attributes) raw with
    | none => ∃ e, readField attributes (.value tag raw val h) = .error e
    | some name => ∃ attributes', readField attributes (.value tag raw val h) = .ok attributes'
        ∧ lastName attributes' = some name
        ∧ (∀ n, valuesUnder attributes' n
            = valuesUnder attributes n ++ if name = n then [val] else [])
        ∧ ((∀ a ∈ attributes, a.values ≠ []) → ∀ a ∈ attributes', a.values ≠ []) := by
  simp only [owner, readField]
  cases hname : readName raw with
  | none => exact ⟨_, rfl⟩
  | some name =>
      by_cases hempty : name = ""
      · simp only [hempty, ↓reduceIte]
        cases hlast : lastName attributes with
        | none =>
            have hnil : attributes = [] := by simpa [lastName] using hlast
            simp [pushValue_eq_none.mpr hnil]
        | some last =>
            cases hpush : pushValue attributes tag val with
            | none => simp [pushValue_eq_none.mp hpush] at hlast
            | some attributes' => exact ⟨attributes', rfl, pushValue_spec hlast hpush⟩
      · simp only [hempty, ↓reduceIte]
        refine ⟨_, rfl, by simp [lastName], fun n => ?_, fun hall a ha => ?_⟩
        · rw [valuesUnder_append]
          by_cases hn : name = n <;> simp [valuesUnder, hn]
        · rcases List.mem_append.mp ha with ha | ha
          · exact hall a ha
          · rw [List.mem_singleton.mp ha]
            simp

/-! ### What the rewriter does with a value -/

/-- What becomes of a value: it is dropped with the attribute it continues, it is
replaced as `printer-uri` or as `network-channel`, or it is forwarded. -/
inductive Fate where
  | dropped
  | printerUri
  | networkChannel
  | forwarded
  deriving DecidableEq

/-- The fate of a value with the raw name `name`. -/
def fate (currentName name : Bytes) : Fate :=
  if nextName currentName name = asBytes "printer-uri" then
    if name = [] then .dropped else .printerUri
  else if nextName currentName name = asBytes "network-channel" then
    if name = [] then .dropped else .networkChannel
  else .forwarded

/-- No forwarded value is one the decoder reads as a value of `printer-uri` or
`network-channel`, and none is left without an attribute to attach it to. The
arguments are whether a channel is configured, the name the rewriter holds and
the attribute the decoder read last in what was written. -/
def NothingExposed (configured : Bool) : Bytes → Option String → List Field → Prop
  | _, _, [] => True
  | _, last, .delimiter _ _ :: fields => NothingExposed configured [] last fields
  | currentName, last, .value _ name _ _ :: fields =>
      match fate currentName name with
      | .dropped => NothingExposed configured (nextName currentName name) last fields
      | .printerUri =>
          NothingExposed configured (nextName currentName name) (some "printer-uri") fields
      | .networkChannel =>
          NothingExposed configured (nextName currentName name)
            (if configured then some "network-channel" else last) fields
      | .forwarded =>
          match owner last name with
          | none => False
          | some target =>
              target ≠ "printer-uri" ∧ target ≠ "network-channel"
                ∧ NothingExposed configured (nextName currentName name) (some target) fields

/-! ### The rewriter by fate -/

section

variable (uri : ShortText) (channel : Option ShortText)

lemma rewriteField_value (st : RewriteState) (tag : UInt8) (name val : Bytes)
    (h : Tag.isDelimiter tag = false ∧ name.length < 65536 ∧ val.length < 65536) :
    rewriteField uri channel st (.value tag name val h)
      = match fate st.currentName name with
        | .dropped => .ok ({ st with currentName := nextName st.currentName name }, [])
        | .printerUri =>
            if st.replacedPrinter then .error .notText
            else .ok ({ st with
                  currentName := nextName st.currentName name, replacedPrinter := true },
                [.value tag name (asBytes uri.text) ⟨h.1, h.2.1, uri.short⟩])
        | .networkChannel =>
            if st.replacedChannel then .error .notText
            else .ok ({ st with
                  currentName := nextName st.currentName name, replacedChannel := true },
                channel.toList.map networkChannelField)
        | .forwarded =>
            .ok ({ st with currentName := nextName st.currentName name },
              [.value tag name val h]) := by
  simp only [rewriteField, fate]
  split_ifs <;> rfl

/-- Only an attribute named `printer-uri` is replaced as such. -/
lemma eq_of_fate_printerUri {currentName name : Bytes}
    (h : fate currentName name = .printerUri) : name = asBytes "printer-uri" := by
  unfold fate nextName at h
  split_ifs at h with h1 h2
  simp_all

lemma owner_printerUri (last : Option String) :
    owner last (asBytes "printer-uri") = some "printer-uri" := by
  have hname : readName (asBytes "printer-uri") = some "printer-uri" := by decide
  rw [owner, hname]
  rfl

lemma owner_networkChannel (last : Option String) :
    owner last (asBytes "network-channel") = some "network-channel" := by
  have hname : readName (asBytes "network-channel") = some "network-channel" := by decide
  rw [owner, hname]
  rfl

/-- The values the rewriter has yet to write under `printer-uri`. -/
def pendingUri (st : RewriteState) : List Bytes :=
  if st.replacedPrinter then [] else [asBytes uri.text]

/-- The values the rewriter has yet to write under `network-channel`. -/
def pendingChannel (st : RewriteState) : List Bytes :=
  if st.replacedChannel then [] else channel.toList.map fun c => asBytes c.text

/-- The decoder reads what was written, and reads under the two names exactly the
values the rewriter had yet to write. -/
def ReadsInjected (st : RewriteState) (attributes : List Attribute) (written : List Field) :
    Prop :=
  ∃ attributes', readFields attributes written = .ok attributes'
    ∧ valuesUnder attributes' "printer-uri"
        = valuesUnder attributes "printer-uri" ++ pendingUri uri st
    ∧ valuesUnder attributes' "network-channel"
        = valuesUnder attributes "network-channel" ++ pendingChannel channel st

lemma readFields_cons_ok {attributes attributes' : List Attribute} {f : Field}
    (h : readField attributes f = .ok attributes') (fields : List Field) :
    readFields attributes (f :: fields) = readFields attributes' fields := by
  simp only [readFields, h]

/-- Reading the written printer URI. -/
lemma readField_printerUri (attributes : List Attribute) (tag : UInt8) (val : Bytes)
    (h : Tag.isDelimiter tag = false ∧ (asBytes "printer-uri").length < 65536
      ∧ val.length < 65536) :
    ∃ attributes', readField attributes (.value tag (asBytes "printer-uri") val h) = .ok attributes'
      ∧ lastName attributes' = some "printer-uri"
      ∧ ∀ n, valuesUnder attributes' n
          = valuesUnder attributes n ++ if "printer-uri" = n then [val] else [] := by
  have hread := readField_value attributes tag (asBytes "printer-uri") val h
  rw [owner_printerUri] at hread
  obtain ⟨attributes', h1, h2, h3, -⟩ := hread
  exact ⟨attributes', h1, h2, h3⟩

/-- Reading the written Network Channel. -/
lemma readField_networkChannel (attributes : List Attribute) (c : ShortText) :
    ∃ attributes', readField attributes (networkChannelField c) = .ok attributes'
      ∧ lastName attributes' = some "network-channel"
      ∧ ∀ n, valuesUnder attributes' n
          = valuesUnder attributes n ++ if "network-channel" = n then [asBytes c.text] else [] := by
  have hread := readField_value attributes Tag.text (asBytes "network-channel") (asBytes c.text)
    ⟨by decide, by decide, c.short⟩
  rw [owner_networkChannel] at hread
  obtain ⟨attributes', h1, h2, h3, -⟩ := hread
  exact ⟨attributes', h1, h2, h3⟩

/-- Reading the channel field, when there is one. -/
lemma readFields_channel (attributes : List Attribute) :
    ∃ attributes', (∀ fields,
        readFields attributes (channel.toList.map networkChannelField ++ fields)
          = readFields attributes' fields)
      ∧ lastName attributes'
          = (if channel.isSome then some "network-channel" else lastName attributes)
      ∧ ∀ n, valuesUnder attributes' n = valuesUnder attributes n
          ++ if "network-channel" = n then channel.toList.map (fun c => asBytes c.text) else [] := by
  cases channel with
  | none => exact ⟨attributes, fun _ => rfl, rfl, fun n => by simp⟩
  | some c =>
      obtain ⟨attributes', h1, h2, h3⟩ := readField_networkChannel attributes c
      exact ⟨attributes', readFields_cons_ok h1, h2, h3⟩

/-- What is written at the end tag is read under the two names. -/
lemma readFields_missing (st : RewriteState) (attributes : List Attribute) :
    ReadsInjected uri channel st attributes (missingFields uri channel st) := by
  have hchannel : ∀ as : List Attribute, ∃ attributes',
      readFields as (if st.replacedChannel then [] else channel.toList.map networkChannelField)
        = .ok attributes'
      ∧ ∀ n, valuesUnder attributes' n = valuesUnder as n
          ++ if "network-channel" = n then pendingChannel channel st else [] := by
    intro as
    unfold pendingChannel
    cases st.replacedChannel with
    | true => exact ⟨as, rfl, fun n => by simp⟩
    | false =>
        obtain ⟨attributes', h1, -, h3⟩ := readFields_channel channel as
        have hnil := h1 []
        rw [List.append_nil] at hnil
        exact ⟨attributes', hnil, h3⟩
  unfold ReadsInjected missingFields pendingUri
  cases st.replacedPrinter with
  | true =>
      obtain ⟨attributes', h1, h3⟩ := hchannel attributes
      exact ⟨attributes', h1, by rw [h3]; simp, by rw [h3]; simp⟩
  | false =>
      obtain ⟨as, h1, -, h3⟩ := readField_printerUri attributes Tag.uri (asBytes uri.text)
        ⟨by decide, by decide, uri.short⟩
      obtain ⟨attributes', h1', h3'⟩ := hchannel as
      refine ⟨attributes', (readFields_cons_ok h1 _).trans h1', ?_, ?_⟩
      · rw [h3', h3]
        simp
      · rw [h3', h3]
        simp

/-! ### The two loops side by side -/

/-- One turn of the rewriter from `st` to `st'` on the field `f`, and what the
decoder makes of the fields written in it: the two agree, or the decoder fails,
or it reads a value under one of the two names that is not the injected one. -/
inductive Turn (st : RewriteState) (f : Field) (attributes : List Attribute)
    (st' : RewriteState) (written : List Field) : Prop where
  | agrees (attributes' : List Attribute)
      (hread : ∀ rest, readFields attributes (written ++ rest) = readFields attributes' rest)
      (huri : valuesUnder attributes' "printer-uri" ++ pendingUri uri st'
        = valuesUnder attributes "printer-uri" ++ pendingUri uri st)
      (hchannel : valuesUnder attributes' "network-channel" ++ pendingChannel channel st'
        = valuesUnder attributes "network-channel" ++ pendingChannel channel st)
      (hexposed : ∀ fields,
        NothingExposed channel.isSome st.currentName (lastName attributes) (f :: fields)
          ↔ NothingExposed channel.isSome st'.currentName (lastName attributes') fields)
  | fails (hread : ∀ rest, ∃ e, readFields attributes (written ++ rest) = .error e)
      (hexposed : ∀ fields,
        ¬NothingExposed channel.isSome st.currentName (lastName attributes) (f :: fields))
  | exposes (attributes' : List Attribute)
      (hread : ∀ rest, readFields attributes (written ++ rest) = readFields attributes' rest)
      (huri : pendingUri uri st' = pendingUri uri st)
      (hchannel : pendingChannel channel st' = pendingChannel channel st)
      (hmore : (valuesUnder attributes "printer-uri").length
            + (valuesUnder attributes "network-channel").length
          < (valuesUnder attributes' "printer-uri").length
            + (valuesUnder attributes' "network-channel").length)
      (hexposed : ∀ fields,
        ¬NothingExposed channel.isSome st.currentName (lastName attributes) (f :: fields))

/-- A forwarded value: the turn is decided by whom the decoder gives the value to. -/
lemma turn_forwarded (st : RewriteState) (attributes : List Attribute) {tag : UInt8}
    {name val : Bytes} (h : Tag.isDelimiter tag = false ∧ name.length < 65536 ∧ val.length < 65536)
    (hfate : fate st.currentName name = .forwarded) :
    Turn uri channel st (.value tag name val h) attributes
      { st with currentName := nextName st.currentName name } [.value tag name val h] := by
  have hread := readField_value attributes tag name val h
  cases howner : owner (lastName attributes) name with
  | none =>
      rw [howner] at hread
      obtain ⟨e, he⟩ := hread
      refine .fails (fun rest => ⟨e, ?_⟩) fun fields => ?_
      · simp [readFields, he]
      · simp [NothingExposed, hfate, howner]
  | some target =>
      rw [howner] at hread
      obtain ⟨attributes', hok, hlast, hvalues, -⟩ := hread
      by_cases huri : target = "printer-uri"
      · subst huri
        refine .exposes attributes' (readFields_cons_ok hok) rfl rfl ?_ fun fields => ?_
        · simp [hvalues]
        · simp [NothingExposed, hfate, howner]
      · by_cases hchannel : target = "network-channel"
        · subst hchannel
          refine .exposes attributes' (readFields_cons_ok hok) rfl rfl ?_ fun fields => ?_
          · simp [hvalues]
          · simp [NothingExposed, hfate, howner]
        · refine .agrees attributes' (readFields_cons_ok hok) ?_ ?_ fun fields => ?_
          · simp [hvalues, huri, pendingUri]
          · simp [hvalues, hchannel, pendingChannel]
          · simp [NothingExposed, hfate, howner, huri, hchannel, hlast]

/-- Every turn of the rewriter is one of the three. -/
lemma turn_of_rewriteField {st st' : RewriteState} {f : Field} {written : List Field}
    (attributes : List Attribute) (h : rewriteField uri channel st f = .ok (st', written)) :
    Turn uri channel st f attributes st' written := by
  cases f with
  | delimiter tag hd =>
      obtain ⟨rfl, rfl⟩ := Prod.mk.inj (Except.ok.inj h)
      exact .agrees attributes (fun rest => rfl) rfl rfl fun fields => Iff.rfl
  | value tag name val hv =>
      rw [rewriteField_value] at h
      cases hfate : fate st.currentName name with
      | dropped =>
          rw [hfate] at h
          obtain ⟨rfl, rfl⟩ := Prod.mk.inj (Except.ok.inj h)
          refine .agrees attributes (fun rest => rfl) rfl rfl fun fields => ?_
          simp [NothingExposed, hfate]
      | printerUri =>
          rw [hfate] at h
          obtain rfl := eq_of_fate_printerUri hfate
          by_cases hrep : st.replacedPrinter = true
          · simp [hrep] at h
          · simp only [hrep, Bool.false_eq_true, ↓reduceIte] at h
            obtain ⟨rfl, rfl⟩ := Prod.mk.inj (Except.ok.inj h)
            obtain ⟨attributes', hok, hlast, hvalues⟩ :=
              readField_printerUri attributes tag (asBytes uri.text) ⟨hv.1, hv.2.1, uri.short⟩
            refine .agrees attributes' (readFields_cons_ok hok) ?_ ?_ fun fields => ?_
            · simp [hvalues, pendingUri, hrep]
            · simp [hvalues, pendingChannel]
            · simp [NothingExposed, hfate, hlast]
      | networkChannel =>
          rw [hfate] at h
          by_cases hrep : st.replacedChannel = true
          · simp [hrep] at h
          · simp only [hrep, Bool.false_eq_true, ↓reduceIte] at h
            obtain ⟨rfl, rfl⟩ := Prod.mk.inj (Except.ok.inj h)
            obtain ⟨attributes', hok, hlast, hvalues⟩ := readFields_channel channel attributes
            refine .agrees attributes' hok ?_ ?_ fun fields => ?_
            · simp [hvalues, pendingUri]
            · simp [hvalues, pendingChannel, hrep]
            · simp [NothingExposed, hfate, hlast]
      | forwarded =>
          rw [hfate] at h
          obtain ⟨rfl, rfl⟩ := Prod.mk.inj (Except.ok.inj h)
          exact turn_forwarded uri channel st attributes hv hfate

/-- The number of values the decoder has read under the two names. -/
def injectedCount (attributes : List Attribute) : ℕ :=
  (valuesUnder attributes "printer-uri").length + (valuesUnder attributes "network-channel").length

/-- The number of values the rewriter has yet to write under the two names. -/
def pendingCount (st : RewriteState) : ℕ :=
  (pendingUri uri st).length + (pendingChannel channel st).length

lemma ReadsInjected.count {st : RewriteState} {attributes attributes' : List Attribute}
    {written : List Field} (h : ReadsInjected uri channel st attributes written)
    (hread : readFields attributes written = .ok attributes') :
    injectedCount attributes' = injectedCount attributes + pendingCount uri channel st := by
  obtain ⟨as, h1, h2, h3⟩ := h
  obtain rfl := Except.ok.inj (h1.symm.trans hread)
  simp only [injectedCount, pendingCount, h2, h3, List.length_append]
  omega

lemma rewriteFields_cons {st : RewriteState} {f : Field} {fields written : List Field}
    (h : rewriteFields uri channel st (f :: fields) = .ok written) :
    ∃ st' now later, rewriteField uri channel st f = .ok (st', now)
      ∧ rewriteFields uri channel st' fields = .ok later ∧ written = now ++ later := by
  rw [rewriteFields] at h
  cases hf : rewriteField uri channel st f with
  | error e => rw [hf] at h; cases h
  | ok p =>
      obtain ⟨st', now⟩ := p
      simp only [hf] at h
      cases hl : rewriteFields uri channel st' fields with
      | error e => rw [hl] at h; cases h
      | ok later =>
          simp only [hl] at h
          exact ⟨st', now, later, rfl, hl, (Except.ok.inj h).symm⟩

/-- The decoder reads at least as many values under the two names as the rewriter
had yet to write: nothing it reads later takes a value away. -/
lemma injectedCount_le {st : RewriteState} {fields written : List Field}
    {attributes attributes' : List Attribute}
    (hwrite : rewriteFields uri channel st fields = .ok written)
    (hread : readFields attributes written = .ok attributes') :
    injectedCount attributes + pendingCount uri channel st ≤ injectedCount attributes' := by
  induction fields generalizing st attributes written with
  | nil =>
      obtain rfl := Except.ok.inj hwrite
      exact ((readFields_missing uri channel st attributes).count uri channel hread).ge
  | cons f fields ih =>
      obtain ⟨st', now, later, hf, hl, rfl⟩ := rewriteFields_cons uri channel hwrite
      cases turn_of_rewriteField uri channel attributes hf with
      | agrees as hnow huri hchannel =>
          have h := ih hl ((hnow later).symm.trans hread)
          have h1 := congrArg List.length huri
          have h2 := congrArg List.length hchannel
          simp only [List.length_append, injectedCount, pendingCount] at h h1 h2 ⊢
          omega
      | fails hnow =>
          obtain ⟨e, he⟩ := hnow later
          rw [he] at hread
          cases hread
      | exposes as hnow huri hchannel hmore =>
          have h := ih hl ((hnow later).symm.trans hread)
          simp only [injectedCount, pendingCount, huri, hchannel] at h hmore ⊢
          omega

/-- **The two loops agree on the injected values** exactly when nothing is
exposed: whatever the decoder has read so far, it goes on to read the values the
rewriter had yet to write under the two names, and no others. -/
theorem exact_fields_iff {st : RewriteState} {fields written : List Field}
    {attributes : List Attribute} (hwrite : rewriteFields uri channel st fields = .ok written) :
    ReadsInjected uri channel st attributes written
      ↔ NothingExposed channel.isSome st.currentName (lastName attributes) fields := by
  induction fields generalizing st attributes written with
  | nil =>
      obtain rfl := Except.ok.inj hwrite
      exact iff_of_true (readFields_missing uri channel st attributes) trivial
  | cons f fields ih =>
      obtain ⟨st', now, later, hf, hl, rfl⟩ := rewriteFields_cons uri channel hwrite
      cases turn_of_rewriteField uri channel attributes hf with
      | agrees as hnow huri hchannel hexposed =>
          rw [hexposed, ← ih hl]
          simp only [ReadsInjected, hnow, huri, hchannel]
      | fails hnow hexposed =>
          refine iff_of_false (fun h => ?_) (hexposed fields)
          obtain ⟨as, has, -⟩ := h
          obtain ⟨e, he⟩ := hnow later
          rw [he] at has
          cases has
      | exposes as hnow huri hchannel hmore hexposed =>
          refine iff_of_false (fun h => ?_) (hexposed fields)
          obtain ⟨as', has', -⟩ := id h
          have hcount := h.count uri channel has'
          have hle := injectedCount_le uri channel hl ((hnow later).symm.trans has')
          simp only [injectedCount, pendingCount, huri, hchannel] at hcount hle hmore
          omega

/-- Every attribute the decoder reads has a value. -/
lemma readFields_values_ne_nil {fields : List Field} {attributes attributes' : List Attribute}
    (hall : ∀ a ∈ attributes, a.values ≠ [])
    (h : readFields attributes fields = .ok attributes') : ∀ a ∈ attributes', a.values ≠ [] := by
  induction fields generalizing attributes with
  | nil =>
      obtain rfl := Except.ok.inj h
      exact hall
  | cons f fields ih =>
      cases f with
      | delimiter tag hd => exact ih hall h
      | value tag name val hv =>
          have hread := readField_value attributes tag name val hv
          rw [readFields] at h
          cases howner : owner (lastName attributes) name with
          | none =>
              rw [howner] at hread
              obtain ⟨e, he⟩ := hread
              rw [he] at h
              cases h
          | some target =>
              rw [howner] at hread
              obtain ⟨as, hok, -, -, hne⟩ := hread
              rw [hok] at h
              exact ih (hne hall) h

end

/-! ### Whole requests -/

/-- Where a name carries at most one value, the first attribute of that name is
the only one, and its text is what the lookups return. -/
lemma textValues_of_valuesUnder {r : Request} {name : String} {vs : List String}
    (hall : ∀ a ∈ r.attributes, a.values ≠ []) (hone : vs.length ≤ 1)
    (htrim : ∀ v ∈ vs, trimEndNul v = v)
    (h : valuesUnder r.attributes name = vs.map asBytes) :
    r.textValues name = vs ∧ (vs = [] → r.hasAttribute name = false) := by
  have hfind : r.find name = (r.attributes.filter (·.name == name)).head? := by
    rw [Request.find, List.head?_filter]
  cases hf : r.attributes.filter (·.name == name) with
  | nil =>
      rw [valuesUnder, hf, List.flatMap_nil] at h
      obtain rfl : vs = [] := by simpa using h.symm
      rw [hf] at hfind
      refine ⟨by simp [Request.textValues, hfind], fun _ => ?_⟩
      simpa [Request.hasAttribute, List.filter_eq_nil_iff] using hf
  | cons a rest =>
      rw [valuesUnder, hf, List.flatMap_cons] at h
      have ha : a ∈ r.attributes := List.mem_of_mem_filter (hf ▸ List.mem_cons_self)
      have hne := List.length_pos_iff.mpr (hall a ha)
      have hlen := congrArg List.length h
      simp only [List.length_append, List.length_map] at hlen
      obtain ⟨v, rfl⟩ : ∃ v, vs = [v] := List.length_eq_one_iff.mp (by omega)
      have hvals : a.values = [asBytes v] := by
        have hrest : rest.flatMap (·.values) = [] := List.length_eq_zero_iff.mp (by
          simp only [List.length_singleton] at hlen
          omega)
        simpa [hrest] using h
      rw [hf] at hfind
      refine ⟨?_, fun hnil => absurd hnil (by simp)⟩
      have htv := htrim v (List.mem_singleton.mpr rfl)
      simp [Request.textValues, hfind, hvals, htv]

/-- The server reads exactly the injected credential: `out` is decoded, the
values it carries under `network-channel` are the configured channel and nothing
else, with no such attribute where none is configured, and its values under
`printer-uri` are the remote URI and nothing else. -/
def InjectsExactly (remotePrinterUri : String) (networkChannel : Option String) (out : Bytes) :
    Prop :=
  ∃ r, Request.parse out = .ok r
    ∧ r.allValues "network-channel" = networkChannel.toList.map asBytes
    ∧ r.textValues "network-channel" = networkChannel.toList
    ∧ (networkChannel = none → r.hasAttribute "network-channel" = false)
    ∧ r.allValues "printer-uri" = [asBytes remotePrinterUri]
    ∧ r.textValues "printer-uri" = [remotePrinterUri]

/-- **Injection is exact exactly when nothing is exposed.** A forwarded request
carries, to the server, the configured channel and the remote URI and no other
value under these names, if and only if no value the rewriter passes on is one
the server attaches to them (or to nothing). -/
theorem prepareProxyRequest_injectsExactly_iff {input out : Bytes} {remotePrinterUri : String}
    {networkChannel : Option String}
    (huri : (asBytes remotePrinterUri).length < 65536)
    (huriNul : (asBytes remotePrinterUri).getLast? ≠ some 0)
    (hchannel : ∀ c ∈ networkChannel, (asBytes c).length < 65536)
    (hchannelNul : ∀ c ∈ networkChannel, (asBytes c).getLast? ≠ some 0)
    (h : prepareProxyRequest input remotePrinterUri networkChannel = .ok out) :
    InjectsExactly remotePrinterUri networkChannel out
      ↔ NothingExposed networkChannel.isSome [] none (fieldsOf input) := by
  obtain ⟨uri, rfl⟩ : ∃ uri : ShortText, uri.text = remotePrinterUri := ⟨⟨_, huri⟩, rfl⟩
  obtain ⟨channel, rfl⟩ : ∃ channel : Option ShortText,
      channel.map ShortText.text = networkChannel := by
    cases networkChannel with
    | none => exact ⟨none, rfl⟩
    | some c => exact ⟨some ⟨c, hchannel c rfl⟩, rfl⟩
  obtain ⟨header, document, -, written, hheader, -, hwrite, rfl⟩ :=
    prepareProxyRequest_eq_ok uri channel h
  have hexact := @exact_fields_iff uri channel _ _ _ [] hwrite
  have hparse := parse_encode hheader written document
  rw [Option.isSome_map]
  refine Iff.trans ⟨fun hinj => ?_, fun hread => ?_⟩ hexact
  · obtain ⟨r, hr, hch, -, -, hu, -⟩ := hinj
    rw [hr] at hparse
    refine ⟨r.attributes, hparse.symm, ?_, ?_⟩
    · exact hu
    · rw [Request.allValues_eq] at hch
      rw [hch]
      cases channel <;> rfl
  · obtain ⟨attributes, hread, hu, hch⟩ := hread
    rw [hread] at hparse
    obtain ⟨r, hr, rfl⟩ := except_map_eq_ok.mp hparse
    have hall := readFields_values_ne_nil (by simp) hread
    have hu' : valuesUnder r.attributes "printer-uri" = [uri.text].map asBytes := by
      rw [hu]
      rfl
    have hch' : valuesUnder r.attributes "network-channel"
        = (channel.map ShortText.text).toList.map asBytes := by
      rw [hch]
      cases channel <;> rfl
    have htu := textValues_of_valuesUnder hall le_rfl
      (by simpa using trimEndNul_eq_self huriNul) hu'
    have htch := textValues_of_valuesUnder hall (by cases channel <;> simp)
      (fun v hv => trimEndNul_eq_self (hchannelNul v (by simpa using hv))) hch'
    exact ⟨r, hr, hch', htch.1, fun hnone => htch.2 (by rw [hnone]; rfl), hu', htu.1⟩

/-- The header of a Print-Job request with request id 1. -/
def printJobHeader : Bytes := [2, 0, 0, 2, 0, 0, 0, 1]

lemma printJobHeader_length : printJobHeader.length = 8 := rfl

/-- An application's request: its own printer URI and channel, and a setting. -/
def plainFields : List Field :=
  [.delimiter Tag.operationAttributes (by decide),
    .ofText Tag.uri Tag.isDelimiter_uri printerUriName ⟨"ipp://127.0.0.1:8632/local", by decide⟩,
    .ofText Tag.text Tag.isDelimiter_text networkChannelName ⟨"rogue", by decide⟩,
    .ofText Tag.keyword (by decide) ⟨"sides", by decide⟩ ⟨"one-sided", by decide⟩]

/-- A request that hides a channel behind a name ending in NUL. -/
def rogueFields : List Field :=
  [.delimiter Tag.operationAttributes (by decide),
    .ofText Tag.text Tag.isDelimiter_text ⟨"network-channel\x00", by decide⟩ ⟨"rogue", by decide⟩]

/-- A request body with the given fields and a one-byte document. -/
def printJobBody (fields : List Field) : Bytes :=
  printJobHeader ++ (encodeAll fields ++ Tag.endOfAttributes :: [7])

/-- The remote URI and the configured channel of the examples. -/
def remoteUri : ShortText := ⟨"ipps://server:48631/ipp/print/A", by decide⟩

def secret : ShortText := ⟨"secret", by decide⟩

/-- An ordinary request, with a channel of the application's own, is forwarded
with the configured channel only. -/
theorem plain_injectsExactly :
    ∃ out, prepareProxyRequest (printJobBody plainFields) "ipps://server:48631/ipp/print/A"
        (some "secret") = .ok out
      ∧ InjectsExactly "ipps://server:48631/ipp/print/A" (some "secret") out := by
  have h := prepareProxyRequest_encode remoteUri (some secret) printJobHeader_length [7]
    (rfl : readFields [] plainFields = .ok _) rfl
  refine ⟨_, h, ?_⟩
  refine (prepareProxyRequest_injectsExactly_iff (by decide) (by decide) (by decide) (by decide)
    h).mpr ?_
  rw [fieldsOf_encode rfl]
  exact ⟨by decide, by decide, trivial⟩

/-- Injection is not exact on every request: a channel value under a name with a
trailing NUL survives, and the server reads it before the configured one. -/
theorem rogue_not_injectsExactly :
    ∃ out, prepareProxyRequest (printJobBody rogueFields) "ipps://server:48631/ipp/print/A"
        (some "secret") = .ok out
      ∧ ¬InjectsExactly "ipps://server:48631/ipp/print/A" (some "secret") out
      ∧ ∃ r, Request.parse out = .ok r ∧ r.value "network-channel" = some "rogue" := by
  have h := prepareProxyRequest_encode remoteUri (some secret) printJobHeader_length [7]
    (rfl : readFields [] rogueFields = .ok _) rfl
  have hparse := parse_encode printJobHeader_length
    [.delimiter Tag.operationAttributes (by decide),
      .ofText Tag.text Tag.isDelimiter_text ⟨"network-channel\x00", by decide⟩ ⟨"rogue", by decide⟩,
      printerUriField remoteUri, networkChannelField secret] [7]
  obtain ⟨r, hr, hattributes⟩ := except_map_eq_ok.mp (hparse.trans rfl)
  refine ⟨_, h, fun hinj => ?_, r, hr, ?_⟩
  · obtain ⟨r', hr', hch, -⟩ := hinj
    obtain rfl := Except.ok.inj (hr.symm.trans hr')
    rw [Request.allValues_eq, hattributes] at hch
    exact absurd hch (by decide)
  · rw [Request.value, Request.find, hattributes]
    decide

end ShaPrint.Ipp
