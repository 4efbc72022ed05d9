import Mathlib.Data.List.Forall2
import ShaPrint.Client.Proxied

/-!
What the spooler reads of a printer behind the client proxy, by what the server sent.

* `Reads`: what one value field does to the attributes that the decoder has.
* `Shown`: two attribute sections that differ in values only; `readFields_shown` decodes them
  side by side.
* `ProxiedPrinter.Shows`: what becomes of a value under a name.
* `proxyFields_eq_self`: without a printer that matches, nothing is replaced.
* `rewritten_attributes`: a response is rewritten exactly if it can be read to its end, and
  what becomes of it.
-/

namespace ShaPrint.Client

open Ipp Endpoint BigEndian

/-! ### The decoder on one field -/

/-- The name of the current value is that of the last attribute, unless it is read as empty. -/
structure Current (currentName : Bytes) (attributes : List Attribute) : Prop where
  start : currentName = [] → attributes = []
  last : ∃ name, readName currentName = some name
    ∧ (name = "" ∨ attributes.getLast?.map Attribute.name = some name)

lemma readName_nil : readName [] = some "" := readName_asBytes ""

lemma ne_nil_of_readName {raw : Bytes} {name : String} (hraw : readName raw = some name)
    (hname : name ≠ "") : raw ≠ [] := by
  rintro rfl
  exact hname (Option.some.inj (readName_nil.symm.trans hraw)).symm

lemma current_nil : Current [] [] := ⟨fun _ => rfl, "", readName_nil, .inl rfl⟩

/-- What a value field does: it adds a value to the last attribute, or begins one. -/
inductive Reads (currentName : Bytes) (attributes : List Attribute) (tag : UInt8)
    (raw value : Bytes) : List Attribute → Prop
  | additional (init : List Attribute) (a : Attribute) (hbefore : attributes = init ++ [a])
      (hraw : readName raw = some "") (hne : nextName currentName raw ≠ []) (name : String)
      (hnext : readName (nextName currentName raw) = some name)
      (hname : name = "" ∨ name = a.name) :
      Reads currentName attributes tag raw value (init ++ [a.push tag value])
  | first (name : String) (hname : name ≠ "") (hraw : readName raw = some name)
      (hnext : nextName currentName raw = raw) :
      Reads currentName attributes tag raw value (attributes ++ [⟨name, tag, [value], [tag]⟩])

section Decoder

variable {currentName raw value : Bytes} {attributes attributes' : List Attribute} {tag : UInt8}
  {h : Tag.isDelimiter tag = false ∧ raw.length < 65536 ∧ value.length < 65536}

lemma exists_concat_of_pushValue (h : pushValue attributes tag value = some attributes') :
    ∃ init a, attributes = init ++ [a] ∧ attributes' = init ++ [a.push tag value] := by
  rcases List.eq_nil_or_concat' attributes with rfl | ⟨init, a, rfl⟩
  · cases h
  · rw [pushValue_concat] at h
    exact ⟨init, a, rfl, (Option.some.inj h).symm⟩

lemma reads_of_readField (hcurrent : Current currentName attributes)
    (hread : readField attributes (.value tag raw value h) = .ok attributes') :
    Reads currentName attributes tag raw value attributes' := by
  unfold readField at hread
  cases hraw : readName raw with
  | none => simp only [hraw] at hread; cases hread
  | some name =>
      simp only [hraw] at hread
      split_ifs at hread with hname
      · obtain rfl := hname
        cases hpush : pushValue attributes tag value with
        | none => rw [hpush] at hread; cases hread
        | some pushed =>
            rw [hpush] at hread
            obtain rfl := Except.ok.inj hread
            obtain ⟨init, a, rfl, rfl⟩ := exists_concat_of_pushValue hpush
            by_cases hempty : raw = []
            · obtain ⟨hstart, current, hcurrent, hlast⟩ := hcurrent
              have hnext : nextName currentName raw = currentName := if_pos hempty
              have hne : currentName ≠ [] := fun h => List.append_ne_nil_of_right_ne_nil init
                (List.cons_ne_nil a []) (hstart h)
              refine .additional init a rfl hraw (by rwa [hnext]) current
                (by rw [hnext, hcurrent]) ?_
              refine hlast.imp_right fun hlast => ?_
              rw [List.getLast?_append, List.getLast?_singleton, Option.some_or] at hlast
              exact (Option.some.inj hlast).symm
            · have hnext : nextName currentName raw = raw := if_neg hempty
              exact .additional init a rfl hraw (by rwa [hnext]) "" (by rw [hnext, hraw]) (.inl rfl)
      · obtain rfl := Except.ok.inj hread
        exact .first name hname hraw (if_neg (ne_nil_of_readName hraw hname))

/-- The name stays that of the last attribute. -/
lemma Reads.current (h : Reads currentName attributes tag raw value attributes') :
    Current (nextName currentName raw) attributes' := by
  cases h with
  | additional init a hbefore hraw hne name hnext hname =>
      refine ⟨fun h => absurd h hne, name, hnext, hname.imp_right fun hname => ?_⟩
      rw [hname, List.getLast?_append, List.getLast?_singleton, Option.some_or]
      rfl
  | first name hname hraw hnext =>
      refine ⟨fun h => absurd (hnext ▸ h) (ne_nil_of_readName hraw hname), name,
        by rw [hnext, hraw], .inr ?_⟩
      rw [List.getLast?_append, List.getLast?_singleton, Option.some_or]
      rfl

lemma Reads.readField (h' : Reads currentName attributes tag raw value attributes') :
    readField attributes (.value tag raw value h) = .ok attributes' := by
  cases h' with
  | additional init a hbefore hraw =>
      rw [hbefore]
      simp only [Ipp.readField, hraw, if_true, pushValue_concat]
  | first name hname hraw hnext => simp only [Ipp.readField, hraw, if_neg hname]

end Decoder

/-! ### Two attribute sections -/

/-- The attribute is the same but for its values. -/
structure SameAttribute (S : String → Bytes → Bytes → Prop) (a b : Attribute) : Prop where
  name : b.name = a.name
  tag : b.tag = a.tag
  valueTags : b.valueTags = a.valueTags
  values : List.Forall₂ (S a.name) a.values b.values

/-- The fields are the same but for their values; `P` relates the values under the name that
the loop has for them. -/
inductive Shown (P : Bytes → Bytes → Bytes → Prop) : Bytes → List Field → List Field → Prop
  | nil (currentName : Bytes) : Shown P currentName [] []
  | delimiter {currentName : Bytes} {tag : UInt8}
      (h : Tag.isDelimiter tag = true ∧ tag ≠ Tag.endOfAttributes) {fields shown : List Field}
      (hrest : Shown P currentName fields shown) :
      Shown P currentName (.delimiter tag h :: fields) (.delimiter tag h :: shown)
  | value {currentName : Bytes} {tag : UInt8} {raw value value' : Bytes}
      (h : Tag.isDelimiter tag = false ∧ raw.length < 65536 ∧ value.length < 65536)
      (h' : Tag.isDelimiter tag = false ∧ raw.length < 65536 ∧ value'.length < 65536)
      (hvalue : P (nextName currentName raw) value value') {fields shown : List Field}
      (hrest : Shown P (nextName currentName raw) fields shown) :
      Shown P currentName (.value tag raw value h :: fields) (.value tag raw value' h' :: shown)

/-- What holds of the values under the name of the loop holds under that of the attribute. A
value whose name is read as empty is attached to any attribute. -/
structure Carries (P : Bytes → Bytes → Bytes → Prop) (S : String → Bytes → Bytes → Prop) :
    Prop where
  named : ∀ currentName name value value', readName currentName = some name →
    P currentName value value' → S name value value'
  unnamed : ∀ currentName value value', currentName ≠ [] → readName currentName = some "" →
    P currentName value value' → ∀ name, S name value value'

section Simulation

variable {S : String → Bytes → Bytes → Prop} {P : Bytes → Bytes → Bytes → Prop}

lemma SameAttribute.push {a b : Attribute} (h : SameAttribute S a b) {value value' : Bytes}
    (hvalue : S a.name value value') (tag : UInt8) :
    SameAttribute S (a.push tag value) (b.push tag value') where
  name := h.name
  tag := h.tag
  valueTags := congrArg (· ++ [tag]) h.valueTags
  values := List.rel_append h.values (.cons hvalue .nil)

lemma forall₂_concat {R : Attribute → Attribute → Prop} {init bs : List Attribute} {a : Attribute}
    (h : List.Forall₂ R (init ++ [a]) bs) :
    ∃ init' b, bs = init' ++ [b] ∧ List.Forall₂ R init init' ∧ R a b := by
  rcases List.eq_nil_or_concat' bs with rfl | ⟨init', b, rfl⟩
  · simp at h
  · rw [← List.forall₂_reverse_iff, List.reverse_append, List.reverse_append] at h
    obtain ⟨hab, hinit⟩ := List.forall₂_cons.mp h
    exact ⟨init', b, rfl, List.forall₂_reverse_iff.mp hinit, hab⟩

/-- One value field, decoded with either value. -/
lemma Reads.shown (hcarries : Carries P S)
    {currentName raw value value' : Bytes} {attributes attributes' shown : List Attribute}
    {tag : UInt8} (h : Reads currentName attributes tag raw value attributes')
    (hvalue : P (nextName currentName raw) value value')
    (hshown : List.Forall₂ (SameAttribute S) attributes shown) :
    ∃ shown', Reads currentName shown tag raw value' shown'
      ∧ List.Forall₂ (SameAttribute S) attributes' shown' := by
  cases h with
  | additional init a hbefore hraw hne name hnext hname =>
      rw [hbefore] at hshown
      obtain ⟨init', b, rfl, hinit, hab⟩ := forall₂_concat hshown
      have hsame : S a.name value value' := by
        rcases hname with rfl | rfl
        · exact hcarries.unnamed _ _ _ hne hnext hvalue a.name
        · exact hcarries.named _ _ _ _ hnext hvalue
      exact ⟨_, .additional init' b rfl hraw hne name hnext
        (hname.imp_right (·.trans hab.name.symm)),
        List.rel_append hinit (.cons (hab.push hsame tag) .nil)⟩
  | first name hname hraw hnext =>
      rw [hnext] at hvalue
      exact ⟨_, .first name hname hraw hnext,
        List.rel_append hshown
          (.cons ⟨rfl, rfl, rfl, .cons (hcarries.named _ _ _ _ hraw hvalue) .nil⟩ .nil)⟩

/-- **Sections that differ in values are decoded side by side.** -/
lemma readFields_shown (hcarries : Carries P S)
    {currentName : Bytes} {fields shownFields : List Field}
    (h : Shown P currentName fields shownFields) {attributes attributes' shown : List Attribute}
    (hcurrent : Current currentName attributes)
    (hshown : List.Forall₂ (SameAttribute S) attributes shown)
    (hread : readFields attributes fields = .ok attributes') :
    ∃ shown', readFields shown shownFields = .ok shown'
      ∧ List.Forall₂ (SameAttribute S) attributes' shown' := by
  induction h generalizing attributes shown with
  | nil currentName =>
      obtain rfl := Except.ok.inj hread
      exact ⟨shown, rfl, hshown⟩
  | delimiter h hrest ih => exact ih hcurrent hshown hread
  | @value currentName tag raw value value' h h' hvalue fields shownFields hrest ih =>
      rw [readFields] at hread
      cases hfield : readField attributes (.value tag raw value h) with
      | error e => rw [hfield] at hread; cases hread
      | ok next =>
          rw [hfield] at hread
          have hreads := reads_of_readField hcurrent hfield
          obtain ⟨shown', hreads', hnext⟩ := hreads.shown hcarries hvalue hshown
          rw [readFields, hreads'.readField]
          exact ih hreads.current hnext hread

end Simulation

/-! ### What is shown for a value -/

namespace ProxiedPrinter

/-- The URI is one of the remote printer. -/
def IsRemoteUri (p : ProxiedPrinter) (value : Bytes) : Prop :=
  ∃ uri, fromUtf8 value = some uri ∧ samePrinterUri uri.toList p.remoteUri = true

/-- The attributes that are named after the queue. -/
def queueNames : List String := ["printer-name", "printer-info", "printer-make-and-model"]

/-- What becomes of a value under a name. -/
inductive Shows (p : ProxiedPrinter) (name : String) (value : Bytes) : Bytes → Prop
  | kept : Shows p name value value
  | uri (hname : name = "printer-uri-supported") (hsame : p.IsRemoteUri value) :
      Shows p name value (utf8 p.localUri)
  | security (hname : name = "uri-security-supported") (hplain : p.isUnencrypted = true) :
      Shows p name value (asBytes "none")
  | uuid (hname : name = "printer-uuid") {uuid : String} (huuid : p.queueUuid = some uuid) :
      Shows p name value (asBytes uuid)
  | name (hname : name ∈ queueNames) {queueName : Queue.ClientQueueName}
      (hqueue : p.queueName = some queueName) : Shows p name value (utf8 queueName.value)
  | info (hname : name = "printer-more-info") : Shows p name value (utf8 p.localUri)

/-- The names whose values may be replaced. -/
def replacedNames : List String :=
  ["printer-uri-supported", "uri-security-supported", "printer-uuid"] ++ queueNames
    ++ ["printer-more-info"]

variable {p : ProxiedPrinter} {name : String} {value value' : Bytes}

/-- Under any other name a value is kept. -/
lemma Shows.eq_of_not_mem (h : p.Shows name value value') (hname : name ∉ replacedNames) :
    value' = value := by
  have hnot : ∀ other ∈ replacedNames, name ≠ other := fun other hother heq =>
    hname (heq ▸ hother)
  cases h with
  | kept => rfl
  | uri h => exact absurd h (hnot _ (by decide))
  | security h => exact absurd h (hnot _ (by decide))
  | uuid h => exact absurd h (hnot _ (by decide))
  | name h => exact absurd (List.mem_append_left _ (List.mem_append_right _ h)) hname
  | info h => exact absurd h (hnot _ (by decide))

lemma readName_plain {currentName : Bytes} {plain : String} (hplain : trimEndNul plain = plain)
    (hcurrent : currentName = asBytes plain) (hread : readName currentName = some name) :
    name = plain := by
  rw [hcurrent, readName_asBytes, hplain] at hread
  exact (Option.some.inj hread).symm

lemma matchesRemotePrinter_iff {currentName : Bytes} :
    p.matchesRemotePrinter currentName value = true
      ↔ currentName = asBytes "printer-uri-supported" ∧ p.IsRemoteUri value := by
  unfold matchesRemotePrinter IsRemoteUri
  rw [Bool.and_eq_true, beq_iff_eq, Option.any_eq_true]

/-- The loop shows a value under the name that the decoder reads. -/
lemma shows_shown {currentName : Bytes} (inGroup : Bool) (value : Bytes)
    (hread : readName currentName = some name) :
    p.Shows name value (p.shown currentName inGroup value) := by
  unfold shown replacement
  split_ifs with huri hsecurity huuid hname hinfo
  · obtain ⟨hcurrent, hsame⟩ := matchesRemotePrinter_iff.mp huri
    exact .uri (readName_plain (by decide +kernel) hcurrent hread) hsame
  · exact .security (readName_plain (by decide +kernel) hsecurity.1 hread) hsecurity.2.2
  · obtain ⟨uuid, hsome⟩ := Option.isSome_iff_exists.mp huuid.2.2
    rw [hsome]
    exact .uuid (readName_plain (by decide +kernel) huuid.1 hread) hsome
  · obtain ⟨queueName, hsome⟩ := Option.isSome_iff_exists.mp hname.2.2
    rw [hsome]
    refine .name ?_ hsome
    rcases hname.1 with hcurrent | hcurrent | hcurrent
    · exact (readName_plain (by decide +kernel) hcurrent hread) ▸ by decide
    · exact (readName_plain (by decide +kernel) hcurrent hread) ▸ by decide
    · exact (readName_plain (by decide +kernel) hcurrent hread) ▸ by decide
  · exact .info (readName_plain (by decide +kernel) hinfo.1 hread)
  · exact .kept

end ProxiedPrinter

section Frame

variable {p : ProxiedPrinter}

/-- What becomes of a value. Where no name ends in a NUL, each URI of the remote printer is
replaced. -/
def Replaced (p : ProxiedPrinter) (plain : Prop) (name : String) (value value' : Bytes) : Prop :=
  p.Shows name value value'
    ∧ (plain → name = "printer-uri-supported" → p.IsRemoteUri value → value' = utf8 p.localUri)

/-- What the loop writes for a value. -/
def Writes (p : ProxiedPrinter) (plain : Prop) (currentName value value' : Bytes) : Prop :=
  (plain → currentName ≠ [] → PlainName currentName)
    ∧ ∃ inGroup, value' = p.shown currentName inGroup value

lemma carries_writes (plain : Prop) : Carries (Writes p plain) (Replaced p plain) where
  named currentName name value value' hread hwrites := by
    obtain ⟨hplain, inGroup, rfl⟩ := hwrites
    refine ⟨p.shows_shown inGroup value hread, fun h hname hremote => ?_⟩
    have hne := ne_nil_of_readName hread (hname ▸ by decide)
    have hcurrent : currentName = asBytes "printer-uri-supported" := by
      have hsame := hplain h hne
      rw [PlainName, hread, hname] at hsame
      exact (Option.some.inj hsame).symm
    have hmatch := ProxiedPrinter.matchesRemotePrinter_iff.mpr ⟨hcurrent, hremote⟩
    rw [ProxiedPrinter.shown, ProxiedPrinter.replacement, if_pos hmatch]
    rfl
  unnamed currentName value value' hne hread hwrites name := by
    obtain ⟨hplain, inGroup, rfl⟩ := hwrites
    rw [(p.shows_shown inGroup value hread).eq_of_not_mem (by decide)]
    refine ⟨.kept, fun h => absurd ?_ hne⟩
    have hsame := hplain h hne
    rw [PlainName, hread] at hsame
    exact (Option.some.inj hsame).symm

/-- No name of the fields ends in a NUL. -/
def PlainNames (fields : List Field) : Prop :=
  ∀ tag raw value h, .value tag raw value h ∈ fields → raw ≠ [] → PlainName raw

lemma shown_proxyFields (hp : p.Short) (plain : Prop) (st : ProxyState) (fields : List Field)
    (hst : plain → st.currentName ≠ [] → PlainName st.currentName)
    (hplain : plain → PlainNames fields) :
    Shown (Writes p plain) st.currentName fields (proxyFields hp st fields) := by
  induction fields generalizing st with
  | nil => exact .nil _
  | cons f fields ih =>
      have hrest : plain → PlainNames fields := fun h tag raw value hv hmem =>
        hplain h tag raw value hv (List.mem_cons_of_mem f hmem)
      cases f with
      | delimiter tag h => exact .delimiter h (ih (st.next p (.delimiter tag h)) hst hrest)
      | value tag raw value h =>
          have hnext : plain → nextName st.currentName raw ≠ [] →
              PlainName (nextName st.currentName raw) := by
            intro hp hne
            by_cases hraw : raw = []
            · rw [nextName, if_pos hraw] at hne ⊢
              exact hst hp hne
            · rw [nextName, if_neg hraw]
              exact hplain hp tag raw value h List.mem_cons_self hraw
          exact .value h _ ⟨hnext, _, rfl⟩ (ih (st.next p (.value tag raw value h)) hnext hrest)

/-- An attribute names the remote printer. -/
def NamesRemote (p : ProxiedPrinter) (attributes : List Attribute) : Prop :=
  ∃ a ∈ attributes, a.name = "printer-uri-supported" ∧ ∃ value ∈ a.values, p.IsRemoteUri value

/-- What an attribute says stays said. -/
lemma Reads.namesRemote {currentName raw value : Bytes} {attributes attributes' : List Attribute}
    {tag : UInt8} (h : Reads currentName attributes tag raw value attributes')
    (hnames : NamesRemote p attributes
      ∨ p.matchesRemotePrinter (nextName currentName raw) value = true) :
    NamesRemote p attributes' := by
  have hplain : trimEndNul "printer-uri-supported" = "printer-uri-supported" := by decide +kernel
  rw [ProxiedPrinter.matchesRemotePrinter_iff] at hnames
  cases h with
  | additional init a hbefore hraw hne name hnext hname =>
      rcases hnames with ⟨b, hb, hbname, v, hv, hremote⟩ | ⟨hcurrent, hremote⟩
      · rw [hbefore] at hb
        rcases List.mem_append.mp hb with hb | hb
        · exact ⟨b, List.mem_append_left _ hb, hbname, v, hv, hremote⟩
        · obtain rfl := List.mem_singleton.mp hb
          exact ⟨_, List.mem_append_right _ List.mem_cons_self, hbname, v,
            List.mem_append_left _ hv, hremote⟩
      · obtain rfl := ProxiedPrinter.readName_plain hplain hcurrent hnext
        refine ⟨_, List.mem_append_right _ List.mem_cons_self, ?_, value,
          List.mem_append_right _ List.mem_cons_self, hremote⟩
        exact (hname.resolve_left (by decide)).symm
  | first name hname hraw hnext =>
      rcases hnames with ⟨b, hb, hnames⟩ | ⟨hcurrent, hremote⟩
      · exact ⟨b, List.mem_append_left _ hb, hnames⟩
      · rw [hnext] at hcurrent
        exact ⟨_, List.mem_append_right _ List.mem_cons_self,
          ProxiedPrinter.readName_plain hplain hcurrent hraw, value, List.mem_cons_self, hremote⟩

lemma namesRemote_of_readFields {currentName : Bytes} {fields : List Field}
    {attributes attributes' : List Attribute} (hcurrent : Current currentName attributes)
    (hnames : NamesRemote p attributes) (hread : readFields attributes fields = .ok attributes') :
    NamesRemote p attributes' := by
  induction fields generalizing currentName attributes with
  | nil =>
      obtain rfl := Except.ok.inj hread
      exact hnames
  | cons f fields ih =>
      cases f with
      | delimiter tag h => exact ih hcurrent hnames hread
      | value tag raw value h =>
          rw [readFields] at hread
          cases hfield : readField attributes (.value tag raw value h) with
          | error e => rw [hfield] at hread; cases hread
          | ok next =>
              rw [hfield] at hread
              have hreads := reads_of_readField hcurrent hfield
              exact ih hreads.current (hreads.namesRemote (.inl hnames)) hread

/-- Where no attribute names the remote printer, nothing is replaced. -/
lemma proxyFields_eq_self (hp : p.Short) {st : ProxyState} (hgroup : st.inGroup = false)
    {fields : List Field} {attributes attributes' : List Attribute}
    (hcurrent : Current st.currentName attributes)
    (hread : readFields attributes fields = .ok attributes') (hnone : ¬NamesRemote p attributes') :
    proxyFields hp st fields = fields := by
  induction fields generalizing st attributes with
  | nil => rfl
  | cons f fields ih =>
      rw [proxyFields]
      cases f with
      | delimiter tag h =>
          have hnext : (st.next p (.delimiter tag h)).inGroup = false := by
            simp only [ProxyState.next, hgroup, Bool.false_and]
          rw [ih hnext hcurrent hread]
          rfl
      | value tag raw value h =>
          rw [readFields] at hread
          cases hfield : readField attributes (.value tag raw value h) with
          | error e => rw [hfield] at hread; cases hread
          | ok next =>
              rw [hfield] at hread
              have hreads := reads_of_readField hcurrent hfield
              have hmatch : p.matchesRemotePrinter (nextName st.currentName raw) value = false := by
                refine Bool.eq_false_iff.mpr fun hmatch => hnone ?_
                exact namesRemote_of_readFields hreads.current
                  (hreads.namesRemote (.inr hmatch)) hread
              have hshown : p.shown (nextName st.currentName raw) st.inGroup value = value := by
                simp only [ProxiedPrinter.shown, ProxiedPrinter.replacement, hmatch, hgroup,
                  Bool.false_eq_true, false_and, and_false, if_false, Option.getD_none]
              have hnext : (st.next p (.value tag raw value h)).inGroup = false := by
                simp only [ProxyState.next, hgroup, hmatch, Bool.or_false]
              rw [ih hnext hreads.current hread]
              simp only [proxyField, hshown]

end Frame

/-! ### The response -/

section Response

variable (sha256 : Bytes → Vector UInt8 32) (upTime : ℤ) (remote : Chars) {localUri : Chars}

/-- What is added can be written, and is read as one attribute each. -/
lemma named_of_mem_addedTo (hlocal : (utf8 localUri).length < 65536) {bytes : Bytes} {r : Request}
    {w : Written} (hw : w ∈ addedTo upTime bytes r localUri) : w.Ok ∧ w.Named := by
  have hskip : ∀ {c : Prop} [Decidable c] {values : List Written},
      w ∈ (if c then [] else values) → w ∈ values := by
    intro c _ values hmem
    split_ifs at hmem
    · cases hmem
    · exact hmem
  by_cases hstatus : statusOf bytes ≤ 0x00ff
  · rw [addedTo, if_pos hstatus] at hw
    unfold supplements at hw
    simp only [List.mem_append] at hw
    rcases hw with (((hw | hw) | hw) | hw) | hw
    · obtain rfl := List.mem_singleton.mp (hskip hw)
      have hname : "printer-up-time" ≠ "" ∧ trimEndNul "printer-up-time" = "printer-up-time" := by
        decide +kernel
      exact ⟨.of_length (by decide +kernel) (by rw [length_i32Bytes]; decide), hname⟩
    · obtain rfl := List.mem_singleton.mp (hskip hw)
      decide +kernel
    · obtain rfl := List.mem_singleton.mp (hskip hw)
      decide +kernel
    · obtain rfl := List.mem_singleton.mp (hskip hw)
      have hname : "printer-more-info" ≠ ""
          ∧ trimEndNul "printer-more-info" = "printer-more-info" := by decide +kernel
      exact ⟨.of_length (by decide +kernel) (by rwa [asBytes_ofList]), hname⟩
    · obtain rfl := List.mem_singleton.mp (hskip hw)
      decide +kernel
  · rw [addedTo, if_neg hstatus] at hw
    cases hw

/-- The same message but for its attributes. -/
structure SameMessage (r r' : Request) : Prop where
  version : r'.version = r.version
  status : r'.operation = r.operation
  requestId : r'.requestId = r.requestId
  document : r'.document = r.document

/-- What the spooler reads of a response. -/
structure Readvertised (p : ProxiedPrinter) (plain : Prop) (added : List Written)
    (r r' : Request) : Prop extends SameMessage r r' where
  attributes : ∃ kept, r'.attributes = kept ++ added.map Written.toAttribute
    ∧ List.Forall₂ (SameAttribute (Replaced p plain)) r.attributes kept
    ∧ (¬NamesRemote p r.attributes → kept = r.attributes)

lemma parse_body (a b c d e f g i : UInt8) {body : Bytes} {attributes : List Attribute}
    {document : Bytes} (h : parseLoop [] body = .ok (attributes, some document)) :
    ∃ start, Request.parse ([a, b, c, d, e, f, g, i] ++ body)
      = .ok ⟨(a, b), ofBe16 c d, ofBe32 e f g i, attributes, document, start⟩ := by
  simp only [List.cons_append, List.nil_append, Request.parse, h, Option.getD_some]
  exact ⟨_, rfl⟩

lemma readFields_fieldsOf {bytes : Bytes} {r : Request} (hend : Terminated bytes)
    (hr : Request.parse bytes = .ok r) : readFields [] (fieldsOf bytes) = .ok r.attributes := by
  obtain ⟨a, b, c, d, e, f, g, i, document, hbytes⟩ := hend.exists_eq (length_of_parse hr)
  have hheader : [a, b, c, d, e, f, g, i].length = 8 := rfl
  have hparse := parse_encode hheader (fieldsOf bytes) document
  rw [← hbytes, hr] at hparse
  exact hparse.symm

/-- What is written for a terminated response is read as the fields that are shown, and what
is added. -/
lemma parse_rewritten (hlocal : (utf8 localUri).length < 65536) {bytes : Bytes} {r : Request}
    (hend : Terminated bytes) (hr : Request.parse bytes = .ok r) {kept : List Attribute}
    (hkept : readFields [] (proxyFields (short_proxiedPrinter sha256 r remote hlocal) {}
      (fieldsOf bytes)) = .ok kept) :
    ∃ out r', rewritePrinterUriSupported sha256 upTime bytes remote localUri = .ok out
      ∧ Request.parse out = .ok r' ∧ SameMessage r r'
      ∧ r'.attributes = kept ++ (addedTo upTime bytes r localUri).map Written.toAttribute := by
  obtain ⟨a, b, c, d, e, f, g, i, document, hbytes⟩ := hend.exists_eq (length_of_parse hr)
  have hheader : [a, b, c, d, e, f, g, i].length = 8 := rfl
  obtain ⟨start, hsame⟩ := parse_fields a b c d e f g i document (readFields_fieldsOf hend hr)
  have hwritten := rewritePrinterUriSupported_encode sha256 upTime remote hlocal hheader hbytes hr
  -- the decoder goes on from the kept attributes to those that are added
  have hloop := parseLoop_encode [] (proxyFields (short_proxiedPrinter sha256 r remote hlocal) {}
    (fieldsOf bytes)) ((addedTo upTime bytes r localUri).flatMap Written.bytes
      ++ Tag.endOfAttributes :: document)
  simp only [hkept, parseLoop_named kept (fun w hw => (named_of_mem_addedTo upTime hlocal hw).1)
    (fun w hw => (named_of_mem_addedTo upTime hlocal hw).2), parseLoop_end] at hloop
  obtain ⟨start', hparse⟩ := parse_body a b c d e f g i hloop
  rw [← hbytes, hr] at hsame
  have hrequest := Except.ok.inj hsame
  exact ⟨_, _, hwritten, hparse, ⟨(congrArg Request.version hrequest).symm,
    (congrArg Request.operation hrequest).symm, (congrArg Request.requestId hrequest).symm,
    (congrArg Request.document hrequest).symm⟩, rfl⟩

/-- A terminated response is rewritten, and read to its end. -/
lemma exists_readvertised (hlocal : (utf8 localUri).length < 65536) {bytes : Bytes} {r : Request}
    (hend : Terminated bytes) (hr : Request.parse bytes = .ok r) :
    ∃ out r', rewritePrinterUriSupported sha256 upTime bytes remote localUri = .ok out
      ∧ Request.parse out = .ok r'
      ∧ Readvertised (proxiedPrinter sha256 r remote localUri) (PlainNames (fieldsOf bytes))
        (addedTo upTime bytes r localUri) r r' := by
  have hread := readFields_fieldsOf hend hr
  have hstart : PlainNames (fieldsOf bytes) → ([] : Bytes) ≠ [] → PlainName [] :=
    fun _ h => absurd rfl h
  obtain ⟨kept, hkept, hall⟩ := readFields_shown (carries_writes (PlainNames (fieldsOf bytes)))
    (shown_proxyFields (short_proxiedPrinter sha256 r remote hlocal)
      (PlainNames (fieldsOf bytes)) {} (fieldsOf bytes) hstart id) current_nil .nil hread
  obtain ⟨out, r', hout, hr', hsame, hattributes⟩ :=
    parse_rewritten sha256 upTime remote hlocal hend hr hkept
  refine ⟨out, r', hout, hr', hsame, kept, hattributes, hall, fun hnone => ?_⟩
  rw [proxyFields_eq_self _ rfl current_nil hread hnone, hread] at hkept
  exact (Except.ok.inj hkept).symm

/-- **A response is rewritten exactly if it can be read to its end. Of what the spooler then
reads, the header, the document and the attributes are those of the server, except that the
values of seven attributes may be replaced, and only if an attribute names the remote printer,
and that attributes are added at the end.** -/
theorem rewritten_attributes (hlocal : (utf8 localUri).length < 65536) (bytes : Bytes) :
    ((∃ out, rewritePrinterUriSupported sha256 upTime bytes remote localUri = .ok out)
      ↔ Terminated bytes ∧ ∃ r, Request.parse bytes = .ok r)
    ∧ ∀ out r, rewritePrinterUriSupported sha256 upTime bytes remote localUri = .ok out →
      Request.parse bytes = .ok r →
      ∃ r', Request.parse out = .ok r'
        ∧ Readvertised (proxiedPrinter sha256 r remote localUri) (PlainNames (fieldsOf bytes))
          (addedTo upTime bytes r localUri) r r' := by
  refine ⟨⟨fun ⟨out, hout⟩ => terminated_of_rewritten hout, fun ⟨hend, r, hr⟩ => ?_⟩,
    fun out r hout hr => ?_⟩
  · obtain ⟨out, r', hout, -⟩ := exists_readvertised sha256 upTime remote hlocal hend hr
    exact ⟨out, hout⟩
  · obtain ⟨out', r', hout', hr', hsame⟩ := exists_readvertised sha256 upTime remote hlocal
      (terminated_of_rewritten hout).1 hr
    obtain rfl := Except.ok.inj (hout.symm.trans hout')
    exact ⟨r', hr', hsame⟩

end Response

/-- The group of a server that names its printer and no more. -/
def archiveGroup : Group where
  tag := Tag.printerAttributes
  values := writeText Tag.uri "printer-uri-supported" "ipps://server:8631/ipp/print/Archive"
    ++ writeText Tag.name "printer-name" "Archive"

def archiveResponse : Bytes := message (responseHeader 1 (2, 0) .ok) [archiveGroup]

theorem archiveResponse_rewritten :
    ∃ out r r', rewritePrinterUriSupported (fun _ => Vector.replicate 32 0) 7 archiveResponse
        "ipps://server:8631/ipp/print/Archive".toList
        "ipp://127.0.0.1:48632/ipp/print/server%3A8631/Archive".toList = .ok out
      ∧ Request.parse archiveResponse = .ok r ∧ Request.parse out = .ok r'
      ∧ Readvertised (proxiedPrinter (fun _ => Vector.replicate 32 0) r
          "ipps://server:8631/ipp/print/Archive".toList
          "ipp://127.0.0.1:48632/ipp/print/server%3A8631/Archive".toList)
        (PlainNames (fieldsOf archiveResponse)) (addedTo 7 archiveResponse r
          "ipp://127.0.0.1:48632/ipp/print/server%3A8631/Archive".toList) r r' := by
  have hgroup : archiveGroup.Ok := ⟨by decide, by decide +kernel⟩
  have hnamed : ∀ w ∈ archiveGroup.values, w.Named := by decide +kernel
  have hlocal : (utf8 "ipp://127.0.0.1:48632/ipp/print/server%3A8631/Archive".toList).length
      < 65536 := by decide +kernel
  have hheader : (responseHeader 1 (2, 0) .ok).length = 8 := rfl
  have hbytes : archiveResponse = responseHeader 1 (2, 0) .ok
      ++ (encodeAll (archiveGroup.fields hgroup) ++ Tag.endOfAttributes :: []) := by
    rw [Group.encodeAll_fields, archiveResponse, message, List.flatMap_singleton]
  have hend : Terminated archiveResponse := by
    rw [Terminated, hbytes, List.drop_left' hheader, scan_encode]
    rfl
  have hloop : parseLoop [] (archiveGroup.bytes ++ [Tag.endOfAttributes])
      = .ok (archiveGroup.values.map Written.toAttribute, some []) := by
    rw [Group.bytes, List.cons_append, parseLoop_delimiter _ _ hgroup.1,
      parseLoop_named _ hgroup.2 hnamed, parseLoop_end, List.nil_append]
  obtain ⟨r, hr, -⟩ := parse_header 2 0 Status.ok.code 1 hloop
  have hparse : Request.parse archiveResponse = .ok r := by
    rw [archiveResponse, message, List.flatMap_singleton]
    exact hr
  obtain ⟨hiff, hread⟩ := rewritten_attributes (fun _ => Vector.replicate 32 0) 7
    "ipps://server:8631/ipp/print/Archive".toList hlocal archiveResponse
  obtain ⟨out, hout⟩ := hiff.mpr ⟨hend, r, hparse⟩
  obtain ⟨r', hr', hsame⟩ := hread out r hout hparse
  exact ⟨out, r, r', hout, hparse, hr', hsame⟩

end ShaPrint.Client
