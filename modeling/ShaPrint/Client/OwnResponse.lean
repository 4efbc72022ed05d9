import ShaPrint.Android.Listing
import ShaPrint.Client.Shown
import ShaPrint.Queue.Recognition

/-!
What the spooler reads of a printer that a ShaPrint server shares: the response of the sharing
endpoint, rewritten by the client proxy for the queue that was installed for the printer.

* `find_readFields`: of the values under a name the decoder finds the first one.
* `queueValue`: what the queue shows for a value.
* `queue_shown`: every attribute of the endpoint is shown as the queue has it, and nothing is
  added.
-/

namespace ShaPrint.Client

open Ipp Endpoint BigEndian Split Digits

/-! ### What the decoder finds -/

/-- The names are read as they are written. -/
def Plain (values : List Written) : Prop := ∀ w ∈ values, trimEndNul w.name = w.name

instance (values : List Written) : Decidable (Plain values) :=
  inferInstanceAs (Decidable (∀ w ∈ values, _))

/-- The tag and the first value of the first attribute of a name. -/
def firstOf (name : String) (attributes : List Attribute) : Option (UInt8 × Option Bytes) :=
  (attributes.find? (·.name == name)).map fun a => (a.tag, a.values.head?)

/-- Every attribute has a value. -/
def Valued (attributes : List Attribute) : Prop := ∀ a ∈ attributes, a.values ≠ []

section Find

variable {attributes attributes' : List Attribute} {tag : UInt8} {raw value currentName : Bytes}

lemma Reads.valued (h : Reads currentName attributes tag raw value attributes')
    (hvalued : Valued attributes) : Valued attributes' := by
  cases h with
  | additional init a hbefore =>
      intro b hb
      rcases List.mem_append.mp hb with hb | hb
      · exact hvalued b (hbefore ▸ List.mem_append_left _ hb)
      · obtain rfl := List.mem_singleton.mp hb
        exact List.append_ne_nil_of_right_ne_nil _ (List.cons_ne_nil _ _)
  | first name =>
      intro b hb
      rcases List.mem_append.mp hb with hb | hb
      · exact hvalued b hb
      · obtain rfl := List.mem_singleton.mp hb
        exact List.cons_ne_nil _ _

/-- An attribute keeps its name and its tag. -/
lemma Reads.exists_of_mem (h : Reads currentName attributes tag raw value attributes')
    {a : Attribute} (ha : a ∈ attributes) {name : String} {tag' : UInt8}
    (hsame : a.name = name ∧ a.tag = tag') : ∃ b ∈ attributes', b.name = name ∧ b.tag = tag' := by
  cases h with
  | additional init last hbefore =>
      rw [hbefore] at ha
      rcases List.mem_append.mp ha with ha | ha
      · exact ⟨a, List.mem_append_left _ ha, hsame⟩
      · obtain rfl := List.mem_singleton.mp ha
        exact ⟨_, List.mem_append_right _ List.mem_cons_self, hsame⟩
  | first => exact ⟨a, List.mem_append_left _ ha, hsame⟩

/-- A value with a name begins an attribute. -/
lemma Reads.exists_of_named (h : Reads currentName attributes tag raw value attributes')
    {name : String} (hraw : readName raw = some name) (hname : name ≠ "") {tag' : UInt8}
    (htag : tag = tag') : ∃ b ∈ attributes', b.name = name ∧ b.tag = tag' := by
  cases h with
  | additional init last hbefore hempty =>
      exact absurd (Option.some.inj (hraw.symm.trans hempty)) hname
  | first other hother hraw' =>
      obtain rfl := Option.some.inj (hraw.symm.trans hraw')
      exact ⟨_, List.mem_append_right _ List.mem_cons_self, rfl, htag⟩

lemma firstOf_append (name : String) (attributes rest : List Attribute) :
    firstOf name (attributes ++ rest) = (firstOf name attributes).or (firstOf name rest) := by
  rw [firstOf, firstOf, firstOf, List.find?_append]
  cases attributes.find? (·.name == name) <;> rfl

/-- A value field leaves what is found under a name, or is found itself. -/
lemma Reads.firstOf (h : Reads currentName attributes tag raw value attributes')
    (hvalued : Valued attributes) {name : String} (hname : name ≠ "") :
    firstOf name attributes' = (Client.firstOf name attributes).or
      (if readName raw = some name then some (tag, some value) else none) := by
  cases h with
  | additional init a hbefore hraw =>
      have hempty : ¬readName raw = some name := by
        rw [hraw]
        exact fun h => hname (Option.some.inj h).symm
      have hhead : (a.values ++ [value]).head? = a.values.head? := by
        cases hvalues : a.values with
        | nil =>
            exact absurd hvalues
              (hvalued a (hbefore ▸ List.mem_append_right _ List.mem_cons_self))
        | cons v values => rfl
      rw [if_neg hempty, Option.or_none, hbefore, firstOf_append, firstOf_append]
      congr 1
      unfold Client.firstOf
      rw [List.find?_singleton, List.find?_singleton]
      cases hsame : a.name == name with
      | true => simp only [Attribute.push, hsame, if_true, Option.map_some, hhead]
      | false => simp only [Attribute.push, hsame, Bool.false_eq_true, if_false, Option.map_none]
  | first other hother hraw =>
      rw [firstOf_append, hraw]
      congr 1
      unfold Client.firstOf
      rw [List.find?_singleton]
      by_cases hsame : other = name
      · rw [if_pos (by simpa using hsame), if_pos (congrArg some hsame)]
        rfl
      · rw [if_neg (by simpa using hsame), if_neg fun h => hsame (Option.some.inj h)]
        rfl

/-- The first value that is written under a name is found. -/
lemma firstOf_readFields {values : List Written} (hok : ∀ w ∈ values, w.Ok) (hplain : Plain values)
    (hcurrent : Current currentName attributes) (hvalued : Valued attributes)
    (hread : readFields attributes (values.pmap Written.field hok) = .ok attributes')
    {name : String} (hname : name ≠ "") :
    Client.firstOf name attributes' = (Client.firstOf name attributes).or
      ((values.find? (·.name == name)).map fun w => (w.tag, some w.value)) := by
  induction values generalizing currentName attributes with
  | nil =>
      obtain rfl := Except.ok.inj hread
      rw [List.find?_nil, Option.map_none, Option.or_none]
  | cons w values ih =>
      rw [List.pmap_cons, readFields] at hread
      cases hfield : readField attributes (w.field (hok w List.mem_cons_self)) with
      | error e => rw [hfield] at hread; cases hread
      | ok next =>
          rw [hfield] at hread
          have hreads := reads_of_readField hcurrent hfield
          have hrest := ih (fun v hv => hok v (List.mem_cons_of_mem w hv))
            (fun v hv => hplain v (List.mem_cons_of_mem w hv)) hreads.current
            (hreads.valued hvalued) hread
          rw [hrest, hreads.firstOf hvalued hname, Option.or_assoc, readName_asBytes,
            hplain w List.mem_cons_self, List.find?_cons]
          congr 1
          by_cases hsame : w.name = name
          · rw [if_pos (congrArg some hsame), show (w.name == name) = true by simpa using hsame]
            rfl
          · rw [if_neg fun h => hsame (Option.some.inj h),
              show (w.name == name) = false by simpa using hsame]
            rfl

/-- A named value begins an attribute of its tag. -/
lemma exists_of_readFields {values : List Written} (hok : ∀ w ∈ values, w.Ok)
    (hplain : Plain values) (hcurrent : Current currentName attributes)
    (hread : readFields attributes (values.pmap Written.field hok) = .ok attributes')
    {name : String} (hname : name ≠ "")
    (h : (∃ a ∈ attributes, a.name = name ∧ a.tag = tag)
      ∨ ∃ w ∈ values, w.name = name ∧ w.tag = tag) :
    ∃ a ∈ attributes', a.name = name ∧ a.tag = tag := by
  induction values generalizing currentName attributes with
  | nil =>
      obtain rfl := Except.ok.inj hread
      exact h.resolve_right fun ⟨w, hw, _⟩ => List.not_mem_nil hw
  | cons w values ih =>
      rw [List.pmap_cons, readFields] at hread
      cases hfield : readField attributes (w.field (hok w List.mem_cons_self)) with
      | error e => rw [hfield] at hread; cases hread
      | ok next =>
          rw [hfield] at hread
          have hreads := reads_of_readField hcurrent hfield
          refine ih (fun v hv => hok v (List.mem_cons_of_mem w hv))
            (fun v hv => hplain v (List.mem_cons_of_mem w hv)) hreads.current hread ?_
          rcases h with ⟨a, ha, hsame⟩ | ⟨v, hv, hsame⟩
          · exact .inl (hreads.exists_of_mem ha hsame)
          · rcases List.mem_cons.mp hv with rfl | hv
            · refine .inl (hreads.exists_of_named ?_ hname hsame.2)
              rw [readName_asBytes, hplain v List.mem_cons_self, hsame.1]
            · exact .inr ⟨v, hv, hsame⟩

/-- The first attribute of a name as text. -/
lemma value_eq_firstOf (r : Request) (name : String) :
    r.value name = (firstOf name r.attributes).bind fun found =>
      if Tag.isText found.1 then (found.2.bind fromUtf8).map trimEndNul else none := by
  unfold Request.value Request.find firstOf
  cases r.attributes.find? (·.name == name) <;> rfl

/-- The first attribute of a name as a number. -/
lemma integer_eq_firstOf (r : Request) (name : String) :
    r.integer name = (firstOf name r.attributes).bind fun found =>
      if found.1 ≠ Tag.integer ∧ found.1 ≠ Tag.enum then none
      else found.2.bind Request.i32OfBytes := by
  unfold Request.integer Request.find firstOf
  cases r.attributes.find? (·.name == name) <;> rfl

end Find

/-! ### The values that the queue shows -/

section Queue

variable (sha256 : Bytes → Vector UInt8 32) (localUri : Chars) (queueName : Queue.ClientQueueName)

/-- What the queue shows for a value. -/
def queueValue (name : String) (value : Bytes) : Bytes :=
  if name = "printer-uri-supported" then utf8 localUri
  else if name = "uri-security-supported" then asBytes "none"
  else if name = "printer-uuid" then asBytes (printerUuid sha256 queueName.value)
  else if name ∈ ProxiedPrinter.queueNames then utf8 queueName.value
  else if name = "printer-more-info" then utf8 localUri
  else value

/-- An attribute as the queue shows it. -/
def queueAttribute (a : Attribute) : Attribute :=
  { a with values := a.values.map (queueValue sha256 localUri queueName a.name) }

variable {sha256 localUri queueName}

/-- What is found under a name is shown as the queue has it. -/
lemma firstOf_map (name : String) (attributes : List Attribute) :
    firstOf name (attributes.map (queueAttribute sha256 localUri queueName))
      = (firstOf name attributes).map fun found =>
        (found.1, found.2.map (queueValue sha256 localUri queueName name)) := by
  unfold firstOf
  rw [List.find?_map, show ((·.name == name) ∘ queueAttribute sha256 localUri queueName)
    = (·.name == name) from rfl]
  cases hfind : attributes.find? (·.name == name) with
  | none => rfl
  | some a =>
      have hname : a.name = name := by simpa using List.find?_some hfind
      simp only [Option.map_some, queueAttribute, hname, List.head?_map]

/-- What the loop writes inside the group of the printer. -/
def WritesQueue (sha256 : Bytes → Vector UInt8 32) (localUri : Chars)
    (queueName : Queue.ClientQueueName) (currentName value value' : Bytes) : Prop :=
  ∃ name, currentName = asBytes name ∧ trimEndNul name = name
    ∧ value' = queueValue sha256 localUri queueName name value

lemma carries_writesQueue : Carries (WritesQueue sha256 localUri queueName)
    fun name value value' => value' = queueValue sha256 localUri queueName name value where
  named currentName name value value' hread := by
    rintro ⟨plain, hcurrent, hplain, rfl⟩
    rw [ProxiedPrinter.readName_plain hplain hcurrent hread]
  unnamed currentName value value' hne hread := by
    rintro ⟨plain, hcurrent, hplain, -⟩
    obtain rfl := ProxiedPrinter.readName_plain hplain hcurrent hread
    exact absurd hcurrent hne

/-- Attributes whose values are shown one by one. -/
lemma eq_map_of_forall₂ {attributes shown : List Attribute}
    (h : List.Forall₂ (SameAttribute fun name value value' =>
      value' = queueValue sha256 localUri queueName name value) attributes shown) :
    shown = attributes.map (queueAttribute sha256 localUri queueName) := by
  induction h with
  | nil => rfl
  | @cons a b attributes shown hsame _ ih =>
      obtain ⟨hname, htag, htags, hvalues⟩ := hsame
      have hmap : b.values = a.values.map (queueValue sha256 localUri queueName a.name) := by
        rw [← List.forall₂_eq_eq_eq, List.forall₂_map_right_iff]
        exact hvalues.flip
      rw [List.map_cons, ← ih]
      congr 1
      cases b
      simp_all only [queueAttribute]

/-- What the loop compares with and writes for the queue. -/
structure IsQueue (p : ProxiedPrinter) (sha256 : Bytes → Vector UInt8 32) (localUri : Chars)
    (queueName : Queue.ClientQueueName) : Prop where
  hlocal : p.localUri = localUri
  hname : p.queueName = some queueName
  huuid : p.queueUuid = some (printerUuid sha256 queueName.value)
  hunencrypted : p.isUnencrypted = true

section Writes

variable {p : ProxiedPrinter}

lemma shown_eq_queueValue (hp : IsQueue p sha256 localUri queueName) {name : String}
    (hname : name ≠ "printer-uri-supported") (value : Bytes) :
    p.shown (asBytes name) true value = queueValue sha256 localUri queueName name value := by
  have hmatch : p.matchesRemotePrinter (asBytes name) value = false := by
    refine Bool.eq_false_iff.mpr fun h => hname ?_
    exact asBytes_inj.mp (ProxiedPrinter.matchesRemotePrinter_iff.mp h).1
  unfold ProxiedPrinter.shown ProxiedPrinter.replacement queueValue ProxiedPrinter.queueNames
  simp only [hmatch, hp.hlocal, hp.hname, hp.huuid, hp.hunencrypted, asBytes_inj,
    Bool.false_eq_true, if_false, and_true, Option.isSome_some, Option.map_some, hname,
    List.mem_cons, List.not_mem_nil, or_false]
  split_ifs <;> rfl

/-- Outside the group of the printer, or under another name, a value is kept. -/
lemma shown_eq_self {name : String} (hplain : trimEndNul name = name)
    (hname : name ∉ ProxiedPrinter.replacedNames) (inGroup : Bool) (value : Bytes) :
    p.shown (asBytes name) inGroup value = value :=
  (p.shows_shown inGroup value (by rw [readName_asBytes, hplain])).eq_of_not_mem hname

lemma queueValue_eq_self {name : String} (hname : name ∉ ProxiedPrinter.replacedNames)
    (value : Bytes) : queueValue sha256 localUri queueName name value = value := by
  simp only [ProxiedPrinter.replacedNames, ProxiedPrinter.queueNames, List.mem_append,
    List.mem_cons, List.not_mem_nil, or_false, not_or] at hname
  unfold queueValue ProxiedPrinter.queueNames
  simp only [hname, List.mem_cons, List.not_mem_nil, or_self, if_false]

lemma nextName_asBytes (current name : String) :
    nextName (asBytes current) (asBytes name) = asBytes (if name = "" then current else name) := by
  unfold nextName
  have hempty : asBytes name = [] ↔ name = "" := by
    rw [← asBytes_inj (t := "")]
    exact Iff.rfl
  simp only [hempty]
  split_ifs <;> rfl

/-- The values of a group are written as the queue shows them, once the loop is inside. -/
lemma shown_inGroup (hp : IsQueue p sha256 localUri queueName) (hshort : p.Short)
    {values : List Written} (hok : ∀ w ∈ values, w.Ok) (hplain : Plain values)
    (hother : ∀ w ∈ values, w.name ≠ "printer-uri-supported") {st : ProxyState}
    (hgroup : st.inGroup = true) {current : String} (hcurrent : st.currentName = asBytes current)
    (hcurrentPlain : trimEndNul current = current)
    (hcurrentOther : current ≠ "printer-uri-supported") :
    Shown (WritesQueue sha256 localUri queueName) st.currentName (values.pmap Written.field hok)
      (proxyFields hshort st (values.pmap Written.field hok)) := by
  induction values generalizing st current with
  | nil => exact .nil _
  | cons w values ih =>
      have hnext : nextName st.currentName (asBytes w.name)
          = asBytes (if w.name = "" then current else w.name) := by
        rw [hcurrent, nextName_asBytes]
      have hplain' : trimEndNul (if w.name = "" then current else w.name)
          = if w.name = "" then current else w.name := by
        split_ifs
        · exact hcurrentPlain
        · exact hplain w List.mem_cons_self
      have hother' : (if w.name = "" then current else w.name) ≠ "printer-uri-supported" := by
        split_ifs
        · exact hcurrentOther
        · exact hother w List.mem_cons_self
      have hvalue : p.shown (nextName st.currentName (asBytes w.name)) st.inGroup w.value
          = queueValue sha256 localUri queueName (if w.name = "" then current else w.name)
            w.value := by
        rw [hnext, hgroup]
        exact shown_eq_queueValue hp hother' w.value
      have hgroup' : (st.next p (w.field (hok w List.mem_cons_self))).inGroup = true := by
        simp only [Written.field, ProxyState.next, hgroup, Bool.true_or]
      rw [List.pmap_cons, proxyFields]
      exact .value _ _ ⟨_, hnext, hplain', hvalue⟩
        (ih (fun v hv => hok v (List.mem_cons_of_mem w hv))
          (fun v hv => hplain v (List.mem_cons_of_mem w hv))
          (fun v hv => hother v (List.mem_cons_of_mem w hv)) hgroup' hnext hplain' hother')

/-- Values under other names are kept, and the group stays as it is. -/
lemma shown_outside (hshort : p.Short) {values : List Written} (hok : ∀ w ∈ values, w.Ok)
    (hplain : Plain values)
    (hnames : ∀ w ∈ values, w.name ≠ "" ∧ w.name ∉ ProxiedPrinter.replacedNames)
    {rest : List Field} (st : ProxyState)
    (hrest : ∀ st' : ProxyState, st'.inGroup = st.inGroup →
      Shown (WritesQueue sha256 localUri queueName) st'.currentName rest
        (proxyFields hshort st' rest)) :
    Shown (WritesQueue sha256 localUri queueName) st.currentName
      (values.pmap Written.field hok ++ rest)
      (proxyFields hshort st (values.pmap Written.field hok ++ rest)) := by
  induction values generalizing st with
  | nil => exact hrest st rfl
  | cons w values ih =>
      obtain ⟨hne, hname⟩ := hnames w List.mem_cons_self
      have hnext : nextName st.currentName (asBytes w.name) = asBytes w.name :=
        if_neg fun hempty => hne (asBytes_inj.mp hempty)
      have hvalue : p.shown (nextName st.currentName (asBytes w.name)) st.inGroup w.value
          = queueValue sha256 localUri queueName w.name w.value := by
        rw [hnext, shown_eq_self (hplain w List.mem_cons_self) hname, queueValue_eq_self hname]
      have hmatch : p.matchesRemotePrinter (nextName st.currentName (asBytes w.name)) w.value
          = false := by
        refine Bool.eq_false_iff.mpr fun h => hname ?_
        rw [hnext, ProxiedPrinter.matchesRemotePrinter_iff, asBytes_inj] at h
        rw [h.1]
        decide
      have hgroup : (st.next p (w.field (hok w List.mem_cons_self))).inGroup = st.inGroup := by
        simp only [Written.field, ProxyState.next, hmatch, Bool.or_false]
      rw [List.pmap_cons, List.cons_append, proxyFields]
      exact .value _ _ ⟨w.name, hnext, hplain w List.mem_cons_self, hvalue⟩
        (ih (fun v hv => hok v (List.mem_cons_of_mem w hv))
          (fun v hv => hplain v (List.mem_cons_of_mem w hv))
          (fun v hv => hnames v (List.mem_cons_of_mem w hv)) _
          fun st' hst' => hrest st' (hst'.trans hgroup))

/-- The group of a printer that begins with its URI. -/
lemma shown_printer (hp : IsQueue p sha256 localUri queueName) (hshort : p.Short)
    {uri first : Written} {rest values : List Written} (hvalues : values = uri :: first :: rest)
    (hok : ∀ w ∈ values, w.Ok) (huri : uri.name = "printer-uri-supported")
    (hremote : p.IsRemoteUri uri.value) (hfirst : first.name ≠ "") (hplain : Plain (first :: rest))
    (hother : ∀ w ∈ first :: rest, w.name ≠ "printer-uri-supported") (st : ProxyState) :
    Shown (WritesQueue sha256 localUri queueName) st.currentName (values.pmap Written.field hok)
      (proxyFields hshort st (values.pmap Written.field hok)) := by
  subst hvalues
  have hnext : ∀ (current : Bytes) (w : Written), w.name ≠ "" →
      nextName current (asBytes w.name) = asBytes w.name := fun current w hne =>
    if_neg fun hempty => hne (asBytes_inj.mp hempty)
  have hurine : uri.name ≠ "" := by
    rw [huri]
    decide
  have hmatch : p.matchesRemotePrinter (asBytes uri.name) uri.value = true := by
    rw [huri]
    exact ProxiedPrinter.matchesRemotePrinter_iff.mpr ⟨rfl, hremote⟩
  have hshown : p.shown (asBytes uri.name) st.inGroup uri.value
      = queueValue sha256 localUri queueName uri.name uri.value := by
    rw [ProxiedPrinter.shown, ProxiedPrinter.replacement, if_pos hmatch, hp.hlocal, queueValue,
      if_pos huri]
    rfl
  have huriPlain : trimEndNul uri.name = uri.name := by
    rw [huri]
    decide +kernel
  have hfirstOther := hother first List.mem_cons_self
  have hfirstShown := shown_eq_queueValue hp hfirstOther first.value
  have hstate : st.next p (uri.field (hok uri List.mem_cons_self)) = ⟨asBytes uri.name, true⟩ := by
    simp only [Written.field, ProxyState.next, hnext _ uri hurine, hmatch, Bool.or_true]
  have hstate' : ProxyState.next p ⟨asBytes uri.name, true⟩
      (first.field (hok first (List.mem_cons_of_mem _ List.mem_cons_self)))
      = ⟨asBytes first.name, true⟩ := by
    simp only [Written.field, ProxyState.next, hnext _ first hfirst, Bool.true_or]
  have hrest : Shown (WritesQueue sha256 localUri queueName)
      (ProxyState.mk (asBytes first.name) true).currentName
      (rest.pmap Written.field fun w hw =>
        hok w (List.mem_cons_of_mem _ (List.mem_cons_of_mem _ hw)))
      (proxyFields hshort ⟨asBytes first.name, true⟩ (rest.pmap Written.field fun w hw =>
        hok w (List.mem_cons_of_mem _ (List.mem_cons_of_mem _ hw)))) :=
    shown_inGroup hp hshort _ (fun w hw => hplain w (List.mem_cons_of_mem _ hw))
      (fun w hw => hother w (List.mem_cons_of_mem _ hw)) rfl rfl
      (hplain first List.mem_cons_self) hfirstOther
  rw [List.pmap_cons, proxyFields, hstate, List.pmap_cons, proxyFields, hstate']
  refine .value _ _ ⟨uri.name, hnext _ uri hurine, huriPlain, by rw [hnext _ uri hurine, hshown]⟩ ?_
  rw [hnext _ uri hurine]
  refine .value _ _ ⟨first.name, hnext _ first hfirst, hplain first List.mem_cons_self,
    by rw [hnext _ first hfirst, hfirstShown]⟩ ?_
  rw [hnext _ first hfirst]
  exact hrest

end Writes

end Queue

/-! ### The URIs of a queue -/

section Uris

variable {server : Chars} {printer : PrinterName}

lemma uriParts_eq {scheme authority path : Chars} (hscheme : ':' ∉ scheme)
    (hauthority : '/' ∉ authority) :
    uriParts (scheme ++ "://".toList ++ (authority ++ '/' :: path))
      = some (scheme, authority, path) := by
  rw [uriParts, splitOnce_scheme hscheme, Option.bind_some]
  simp only [splitOnce_singleton.mpr ⟨rfl, hauthority⟩, Option.map_some]

lemma uriParts_remoteUri (hserver : '/' ∉ server) :
    uriParts (remoteUri server printer)
      = some ("ipps".toList, server, "ipp/print/".toList ++ percentEncode printer.chars) := by
  have huri : remoteUri server printer = "ipps".toList ++ "://".toList
      ++ (server ++ '/' :: ("ipp/print/".toList ++ percentEncode printer.chars)) := by
    have hscheme : ("ipps://".toList : Chars) = "ipps".toList ++ "://".toList := by decide
    have hpath : ("/ipp/print/".toList : Chars) = '/' :: "ipp/print/".toList := by decide
    unfold remoteUri
    simp only [hscheme, hpath, List.append_assoc, List.cons_append]
  rw [huri, uriParts_eq (by decide) hserver]

lemma samePrinterUri_remoteUri (hserver : '/' ∉ server) (hne : server ≠ []) :
    samePrinterUri (remoteUri server printer) (remoteUri server printer) = true := by
  have hparts : sameParts (remoteUri server printer)
      = some ("ipps".toList, server, percentEncode printer.chars) := by
    have hdrop : ("ipp/print/".toList ++ percentEncode printer.chars).dropPrefix?
        "ipp/print/".toList = some (percentEncode printer.chars) := dropPrefix?_eq_some.mpr rfl
    rw [sameParts, uriParts_remoteUri hserver, Option.bind_some]
    simp only [hdrop, Option.bind_some]
    exact if_pos hne
  rw [samePrinterUri, hparts]
  simp only [eqIgnoreAsciiCase_self, Bool.and_self]

/-- The server of a queue's URI. -/
lemma serverFromProxyUri_queueUri (hne : server ≠ []) (port : UInt16) :
    serverFromProxyUri (queueUri (loopbackAuthority port) server printer) = some server := by
  have huri : queueUri (loopbackAuthority port) server printer = "ipp".toList ++ "://".toList
      ++ (loopbackAuthority port
        ++ '/' :: ("ipp/print/".toList ++ destination server printer)) := by
    have hscheme : ("ipp://".toList : Chars) = "ipp".toList ++ "://".toList := by decide
    have hpath : ("/ipp/print/".toList : Chars) = '/' :: "ipp/print/".toList := by decide
    rw [queueUri_eq]
    unfold queuePath
    simp only [hscheme, hpath, List.append_assoc, List.cons_append]
  have hdrop : ("ipp/print/".toList ++ destination server printer).dropPrefix?
      "ipp/print/".toList = some (destination server printer) := dropPrefix?_eq_some.mpr rfl
  have hslash : '/' ∉ percentEncode server := not_mem_percentEncode (by decide) (by decide)
  have hsplit : splitOnce (destination server printer) ['/']
      = some (percentEncode server, percentEncode printer.chars) :=
    splitOnce_singleton.mpr ⟨rfl, hslash⟩
  rw [serverFromProxyUri, printerPath, huri,
    uriParts_eq (by decide) (slash_not_mem_loopbackAuthority port), Option.bind_some]
  simp only [hdrop, Option.bind_some, hsplit, percentDecode_percentEncode]
  exact if_pos (percentEncode_ne_nil hne)

lemma isUnencrypted_queueUri (port : UInt16) :
    eqIgnoreAsciiCase ((queueUri (loopbackAuthority port) server printer).take 6) "ipp://".toList
      = true := by
  have hlength : "ipp://".toList.length = 6 := by decide
  rw [queueUri_eq, List.append_assoc, List.take_left' hlength]
  exact eqIgnoreAsciiCase_self _

/-- The URI of a queue fits a length field. -/
lemma length_queueUri_lt (hserver : server.length ≤ Queue.addressLimit) (printer : PrinterName)
    (port : UInt16) :
    (utf8 (queueUri (loopbackAuthority port) server printer)).length < 65536 := by
  have hprinter : printer.chars.length ≤ 220 := printer.length_le
  have hencode : ∀ value : Chars, (percentEncode value).length ≤ 12 * value.length := fun value =>
    calc (percentEncode value).length ≤ 3 * (utf8 value).length := length_percentEncode_le value
      _ ≤ 3 * (4 * value.length) := Nat.mul_le_mul_left 3 (length_utf8_le value)
      _ = 12 * value.length := by omega
  have hserver' := hencode server
  have hprinter' := hencode printer.chars
  have hport : (decimal port.toNat).length ≤ 5 :=
    Digits.length_decimal_le (by decide) (by have := port.toNat_lt; omega)
  have hlimit : Queue.addressLimit = 300 := rfl
  have hparts : (queueUri (loopbackAuthority port) server printer).length
      = 28 + (decimal port.toNat).length + (percentEncode server).length
        + (percentEncode printer.chars).length := by
    have h1 : "ipp://".toList.length = 6 := by decide
    have h2 : "/ipp/print/".toList.length = 11 := by decide
    have h3 : "127.0.0.1:".toList.length = 10 := by decide
    unfold queueUri loopbackAuthority
    simp only [List.length_append, List.length_cons, h1, h2, h3]
    omega
  have hle := length_utf8_le (queueUri (loopbackAuthority port) server printer)
  omega

end Uris

/-! ### The response of the endpoint -/

section Response

variable (sha256 : Bytes → Vector UInt8 32) (upTime : ℤ)

lemma names_description (printer : PrinterEntry) :
    (descriptionAttributes upTime printer false).map Written.name
      = (descriptionAttributes 0 ⟨[], [], printer.acceptingJobs⟩ false).map Written.name := by
  unfold descriptionAttributes statusAttributes
  simp only [List.map_append]
  rfl

/-- The names after the two identifiers are read as they are written, and none of them is that
of the URI. -/
lemma plain_description (printer : PrinterEntry) :
    ∀ w ∈ descriptionAttributes upTime printer false,
      trimEndNul w.name = w.name ∧ w.name ≠ "printer-uri-supported" := by
  intro w hw
  have hname := List.mem_map_of_mem (f := Written.name) hw
  rw [names_description] at hname
  have hall : ∀ acceptingJobs, ∀ name ∈ (descriptionAttributes 0 ⟨[], [], acceptingJobs⟩
      false).map Written.name,
      name = "" ∨ (asBytes name).getLast? ≠ some 0 ∧ name ≠ "printer-uri-supported" := by
    decide +kernel
  rcases hall _ _ hname with hempty | ⟨hlast, hother⟩
  · rw [hempty]
    exact ⟨by decide +kernel, by decide⟩
  · exact ⟨trimEndNul_eq_self hlast, hother⟩

/-- The fields of the response. -/
def ownFields {printer : PrinterEntry} (h : printer.Writable) : List Field :=
  operationGroup.fields Android.operationGroup_ok
    ++ (printerGroup sha256 upTime false printer).fields (h.group_ok sha256 upTime false)

lemma response_eq_ownFields (requestId : ℕ) (version : UInt8 × UInt8) (status : Status)
    {printer : PrinterEntry} (h : printer.Writable) :
    response sha256 upTime requestId version status [printer]
      = responseHeader requestId version status
        ++ (encodeAll (ownFields sha256 upTime h) ++ Tag.endOfAttributes :: []) := by
  rw [Android.response_eq, ownFields, encodeAll, List.flatMap_append, ← encodeAll, ← encodeAll,
    Group.encodeAll_fields, Group.encodeAll_fields]
  simp only [List.map_cons, List.map_nil, List.flatMap_cons, List.flatMap_nil, List.append_nil,
    List.append_assoc]

variable {sha256 upTime}

/-- The response is written as the queue shows it. -/
lemma shown_ownFields {p : ProxiedPrinter} {localUri : Chars} {queueName : Queue.ClientQueueName}
    (hp : IsQueue p sha256 localUri queueName) (hshort : p.Short)
    {printer : PrinterEntry} (h : printer.Writable)
    (hremote : p.IsRemoteUri (asBytes (.ofList printer.uri))) :
    Shown (WritesQueue sha256 localUri queueName) [] (ownFields sha256 upTime h)
      (proxyFields hshort {} (ownFields sha256 upTime h)) := by
  have hoperation : Plain operationGroup.values ∧ ∀ w ∈ operationGroup.values,
      w.name ≠ "" ∧ w.name ∉ ProxiedPrinter.replacedNames := by decide +kernel
  have hdescription := plain_description upTime printer
  have hrest : ∀ w ∈ (⟨Tag.uri, "printer-uuid", asBytes (printerUuid sha256 printer.name)⟩
      :: (writeText Tag.name "printer-name" (String.ofList printer.name)
        ++ descriptionAttributes upTime printer false) : List Written),
      trimEndNul w.name = w.name ∧ w.name ≠ "printer-uri-supported" := by
    intro w hw
    rcases List.mem_cons.mp hw with rfl | hw
    · exact ⟨(by decide +kernel : trimEndNul "printer-uuid" = "printer-uuid"),
        (by decide : "printer-uuid" ≠ "printer-uri-supported")⟩
    · rcases List.mem_append.mp hw with hw | hw
      · obtain rfl := List.mem_singleton.mp hw
        exact ⟨(by decide +kernel : trimEndNul "printer-name" = "printer-name"),
          (by decide : "printer-name" ≠ "printer-uri-supported")⟩
      · exact hdescription w hw
  refine .delimiter _ (shown_outside hshort Android.operationGroup_ok.2 hoperation.1 hoperation.2
    (ProxyState.next p {} (.delimiter operationGroup.tag Android.operationGroup_ok.1))
    fun st hst => .delimiter _ ?_)
  have hvalues : (printerGroup sha256 upTime false printer).values
      = ⟨Tag.uri, "printer-uri-supported", asBytes (String.ofList printer.uri)⟩
        :: ⟨Tag.uri, "printer-uuid", asBytes (printerUuid sha256 printer.name)⟩
        :: (writeText Tag.name "printer-name" (String.ofList printer.name)
          ++ descriptionAttributes upTime printer false) := rfl
  exact shown_printer hp hshort hvalues _ rfl hremote (by decide : "printer-uuid" ≠ "")
    (fun w hw => (hrest w hw).1) (fun w hw => (hrest w hw).2)
    (st.next p (.delimiter _ (h.group_ok sha256 upTime false).1))

/-! ### What the decoder finds in the response -/

lemma readFields_delimiter (attributes : List Attribute) (fields rest : List Field) {tag : UInt8}
    (h : Tag.isDelimiter tag = true ∧ tag ≠ Tag.endOfAttributes) :
    readFields attributes (fields ++ .delimiter tag h :: rest)
      = readFields attributes (fields ++ rest) := by
  induction fields generalizing attributes with
  | nil => rfl
  | cons f fields ih =>
      rw [List.cons_append, List.cons_append, readFields, readFields]
      cases readField attributes f with
      | error e => rfl
      | ok attributes' => exact ih attributes'

/-- The values of the response. -/
def ownValues (sha256 : Bytes → Vector UInt8 32) (upTime : ℤ) (printer : PrinterEntry) :
    List Written :=
  operationGroup.values ++ (printerGroup sha256 upTime false printer).values

/-- The values before the state of the printer. -/
def valuesBefore (sha256 : Bytes → Vector UInt8 32) (printer : PrinterEntry) : List Written :=
  operationGroup.values ++ (identityAttributes sha256 printer
    ++ writeText Tag.name "printer-name" (String.ofList printer.name)
    ++ (writeText Tag.text "printer-make-and-model" (String.ofList printer.name)
      ++ writeText Tag.text "printer-info" (String.ofList printer.name)
      ++ mediaAttributes false ++ jobAttributes))

lemma ownValues_eq (printer : PrinterEntry) :
    ownValues sha256 upTime printer
      = valuesBefore sha256 printer ++ statusAttributes upTime printer := by
  unfold ownValues valuesBefore printerGroup descriptionAttributes
  simp only [List.append_assoc]

lemma ok_ownValues {printer : PrinterEntry} (h : printer.Writable) :
    ∀ w ∈ ownValues sha256 upTime printer, w.Ok := by
  intro w hw
  rcases List.mem_append.mp hw with hw | hw
  · exact Android.operationGroup_ok.2 w hw
  · exact (h.group_ok sha256 upTime false).2 w hw

lemma readFields_ownFields {printer : PrinterEntry} (h : printer.Writable) :
    readFields [] (ownFields sha256 upTime h)
      = readFields [] ((ownValues sha256 upTime printer).pmap Written.field (ok_ownValues h)) := by
  have hsplit := readFields_delimiter []
    (operationGroup.values.pmap Written.field Android.operationGroup_ok.2)
    ((printerGroup sha256 upTime false printer).values.pmap Written.field
      (h.group_ok sha256 upTime false).2) (h.group_ok sha256 upTime false).1
  rw [ownFields, Group.fields, List.cons_append, readFields, readField]
  simp only
  rw [Group.fields, hsplit, ← List.pmap_append]
  rfl

variable (sha256) in
lemma names_valuesBefore (printer : PrinterEntry) :
    (valuesBefore sha256 printer).map Written.name
      = (valuesBefore (fun _ => Vector.replicate 32 0) ⟨[], [], true⟩).map Written.name := by
  simp only [valuesBefore, identityAttributes, writeText, List.map_append, List.map_cons,
    List.map_nil]

/-- The attributes that the proxy would add. -/
def stateNames : List String :=
  ["printer-up-time", "compression-supported", "printer-location", "printer-more-info"]

lemma not_before {name : String} (hname : name ∈ stateNames) (printer : PrinterEntry) :
    (valuesBefore sha256 printer).find? (·.name == name) = none := by
  refine List.find?_eq_none.mpr fun w hw => ?_
  have hall : ∀ other ∈ (valuesBefore (fun _ => Vector.replicate 32 0) ⟨[], [], true⟩).map
      Written.name, other ∉ stateNames := by decide +kernel
  have hother := hall _ (names_valuesBefore sha256 printer ▸ List.mem_map_of_mem hw)
  simp only [beq_iff_eq]
  exact fun hsame => hother (hsame ▸ hname)

lemma plain_ownValues (printer : PrinterEntry) : Plain (ownValues sha256 upTime printer) := by
  intro w hw
  rcases List.mem_append.mp hw with hw | hw
  · have hoperation : Plain operationGroup.values := by decide +kernel
    exact hoperation w hw
  · rcases List.mem_append.mp hw with hw | hw
    · obtain ⟨huri, huuid, hname⟩ : trimEndNul "printer-uri-supported" = "printer-uri-supported"
          ∧ trimEndNul "printer-uuid" = "printer-uuid"
          ∧ trimEndNul "printer-name" = "printer-name" := by decide +kernel
      simp only [identityAttributes, writeText, List.mem_append, List.mem_singleton] at hw
      rcases hw with (rfl | rfl) | rfl
      · exact huri
      · exact huuid
      · exact hname
    · exact (plain_description upTime printer w hw).1

section Found

variable {printer : PrinterEntry} (h : printer.Writable) {attributes : List Attribute}
  (hread : readFields [] (ownFields sha256 upTime h) = .ok attributes)

include hread

lemma firstOf_ownFields {name : String} (hname : name ≠ "") :
    firstOf name attributes = ((ownValues sha256 upTime printer).find? (·.name == name)).map
      fun w => (w.tag, some w.value) := by
  rw [readFields_ownFields] at hread
  exact firstOf_readFields (ok_ownValues h) (plain_ownValues printer) current_nil
    (fun a ha => absurd ha List.not_mem_nil) hread hname

lemma firstOf_state {name : String} (hname : name ∈ stateNames) :
    firstOf name attributes = ((statusAttributes upTime printer).find? (·.name == name)).map
      fun w => (w.tag, some w.value) := by
  have hne : name ≠ "" := fun hempty => absurd (hempty ▸ hname) (by decide)
  rw [firstOf_ownFields h hread hne, ownValues_eq, List.find?_append, not_before hname,
    Option.none_or]

lemma firstOf_printerUri :
    firstOf "printer-uri-supported" attributes
      = some (Tag.uri, some (asBytes (String.ofList printer.uri))) := by
  rw [firstOf_ownFields h hread (by decide)]
  rfl

lemma firstOf_printerName :
    firstOf "printer-name" attributes
      = some (Tag.name, some (asBytes (String.ofList printer.name))) := by
  rw [firstOf_ownFields h hread (by decide)]
  rfl

lemma firstOf_upTime :
    firstOf "printer-up-time" attributes = some (Tag.integer, some (i32Bytes upTime)) := by
  rw [firstOf_state h hread (by decide)]
  rfl

lemma firstOf_compression :
    firstOf "compression-supported" attributes = some (Tag.keyword, some (asBytes "none")) := by
  rw [firstOf_state h hread (by decide)]
  rfl

lemma firstOf_location :
    firstOf "printer-location" attributes = some (Tag.text, some (asBytes "ShaPrint Network")) := by
  rw [firstOf_state h hread (by decide)]
  rfl

lemma firstOf_moreInfo :
    firstOf "printer-more-info" attributes
      = some (Tag.uri, some (asBytes (String.ofList printer.uri))) := by
  rw [firstOf_state h hread (by decide)]
  rfl

lemma exists_resolutionKeyword :
    ∃ a ∈ attributes,
      a.name = "pwg-raster-document-resolution-supported" ∧ a.tag = Tag.keyword := by
  rw [readFields_ownFields] at hread
  have hjob : ∃ w ∈ jobAttributes, w.name = "pwg-raster-document-resolution-supported"
      ∧ w.tag = Tag.keyword := by decide +kernel
  refine exists_of_readFields (ok_ownValues h) (plain_ownValues printer) current_nil hread
    (by decide) (.inr ?_)
  obtain ⟨w, hw, hsame⟩ := hjob
  refine ⟨w, ?_, hsame⟩
  rw [ownValues_eq]
  simp only [valuesBefore, List.mem_append, hw, or_true, true_or]

end Found

/-- Nothing is added to the response. -/
lemma addedTo_own {printer : PrinterEntry} (h : printer.Writable) {r : Request}
    (hread : readFields [] (ownFields sha256 upTime h) = .ok r.attributes) (proxyUpTime : ℤ)
    (bytes : Bytes) (localUri : Chars) : addedTo proxyUpTime bytes r localUri = [] := by
  have hup : (r.integer "printer-up-time").isSome = true := by
    rw [integer_eq_firstOf, firstOf_upTime h hread]
    rfl
  have htext : ∀ {name tag value}, firstOf name r.attributes = some (tag, some (asBytes value)) →
      Tag.isText tag = true → (r.value name).isSome = true := by
    intro name tag value hfirst htag
    rw [value_eq_firstOf, hfirst, Option.bind_some]
    simp only [htag, if_true, Option.bind_some, fromUtf8_asBytes, Option.map_some,
      Option.isSome_some]
  have hcompression := htext (firstOf_compression h hread) (by decide)
  have hlocation := htext (firstOf_location h hread) (by decide)
  have hinfo := htext (firstOf_moreInfo h hread) (by decide)
  have hresolution : (r.attributes.any fun a =>
      a.name == "pwg-raster-document-resolution-supported" && a.tag == Tag.keyword) = true := by
    obtain ⟨a, ha, hname, htag⟩ := exists_resolutionKeyword h hread
    refine List.any_eq_true.mpr ⟨a, ha, ?_⟩
    rw [hname, htag]
    decide
  have hnone : supplements proxyUpTime r localUri = [] := by
    unfold supplements
    simp only [hup, hcompression, hlocation, hinfo, hresolution, if_true, List.append_nil]
  unfold addedTo
  rw [hnone, ite_self]

end Response

/-! ### A queue and its printer -/

section Queue

variable (sha256 : Bytes → Vector UInt8 32) (upTime proxyUpTime : ℤ)

/-- A text without NULs is read as it is written. -/
lemma value_of_firstOf {r : Request} {name : String} (tag : UInt8) {text : Chars}
    (hfirst : firstOf name r.attributes = some (tag, some (utf8 text)))
    (htag : Tag.isText tag = true) (htext : '\x00' ∉ text) :
    r.value name = some (.ofList text) := by
  have htrim : trimEndNul (String.ofList text) = String.ofList text :=
    trimEndNul_of_not_mem (by rwa [String.toList_ofList])
  rw [value_eq_firstOf, hfirst, Option.bind_some]
  simp only [htag, if_true, Option.bind_some, fromUtf8_utf8, Option.map_some, htrim]

lemma nul_not_mem_of_printable {text : Chars} (h : text.any isControl = false) :
    '\x00' ∉ text := fun hmem =>
  absurd (List.any_eq_false.mp h '\x00' hmem) (by decide)

lemma nul_not_mem_queueUri (server : Chars) (printer : PrinterName) (port : UInt16) :
    '\x00' ∉ queueUri (loopbackAuthority port) server printer := by
  have hencode : ∀ value, '\x00' ∉ percentEncode value := fun value =>
    not_mem_percentEncode (by decide) (by decide)
  have hport : '\x00' ∉ loopbackAuthority port := by
    unfold loopbackAuthority
    rw [List.mem_append, not_or]
    exact ⟨by decide, fun h => absurd (isDigit_of_mem_decimal h) (by decide)⟩
  unfold queueUri
  simp only [List.mem_append, List.mem_cons, not_or]
  exact ⟨⟨⟨⟨by decide, hport⟩, by decide⟩, hencode server⟩, by decide, hencode printer.chars⟩

/-- The loop writes what the queue shows. -/
lemma isQueue_proxiedPrinter {server : Chars} (hne : server ≠ []) {printer : PrinterName}
    {queueName : Queue.ClientQueueName}
    (hqueue : Queue.ClientQueueName.forSharedPrinter printer server = .ok queueName) {r : Request}
    (hname : r.value "printer-name" = some (.ofList printer.chars)) (port : UInt16)
    (remote : Chars) :
    IsQueue (proxiedPrinter sha256 r remote (queueUri (loopbackAuthority port) server printer))
      sha256 (queueUri (loopbackAuthority port) server printer) queueName := by
  have hproxied : proxiedQueueName r remote (queueUri (loopbackAuthority port) server printer)
      = some queueName := by
    unfold proxiedQueueName
    simp only [serverFromProxyUri_queueUri hne, hname, Option.some_or,
      Option.map_some, Option.bind_some, String.toList_ofList, PrinterName.parse_chars,
      Except.toOption, hqueue]
  refine ⟨rfl, hproxied, congrArg (Option.map _) hproxied, ?_⟩
  rw [proxiedPrinter, isUnencrypted_queueUri, Bool.true_or]

/-- **The printer of a queue.** For every server address, printer and port of the proxy: the
proxy shows the attributes of the endpoint one by one, with the URI of the queue for that of the
printer, the name under which the queue is installed for the printer's, its UUID, and no
security; and it adds none. -/
theorem queue_shown {input : Chars} {address : ServerAddress}
    (haddress : ServerAddress.parse input = .ok address) {printer : PrinterName}
    {request : Queue.ClientQueueRequest}
    (hrequest : Queue.ClientQueueRequest.new address.normalized printer = .ok request)
    (port : UInt16) (requestId : ℕ) (version : UInt8 × UInt8) (acceptingJobs : Bool) :
    ∃ r out r',
      Request.parse (response sha256 upTime requestId version .ok
        [entry address.normalized printer acceptingJobs]) = .ok r
      ∧ rewritePrinterUriSupported sha256 proxyUpTime (response sha256 upTime requestId version .ok
          [entry address.normalized printer acceptingJobs]) (remoteUri address.normalized printer)
          (queueUri (loopbackAuthority port) address.normalized printer) = .ok out
      ∧ Request.parse out = .ok r' ∧ SameMessage r r'
      ∧ r'.attributes = r.attributes.map (queueAttribute sha256
          (queueUri (loopbackAuthority port) address.normalized printer) request.queueName)
      ∧ r'.value "printer-uri-supported"
        = some (.ofList (queueUri (loopbackAuthority port) address.normalized printer))
      ∧ r'.value "printer-name" = some (.ofList request.queueName.value) := by
  obtain ⟨hvalidate, queueName, hqueue, rfl⟩ := Queue.request_of_parse haddress hrequest
  obtain ⟨hcanonical, hnormalized⟩ := canonical_of_parse haddress
  have hne : address.normalized ≠ [] := by
    rw [hnormalized]
    exact withPort_ne_nil _ _
  have hslash : '/' ∉ address.normalized := by
    rw [hnormalized]
    exact fun hc => (isAddressChar_ne (hcanonical.mem_withPort hc)).2 (by decide)
  have hlength : address.normalized.length ≤ Queue.addressLimit := by
    unfold Queue.validateAddress at hvalidate
    split_ifs at hvalidate with hempty hlong
    exact Nat.le_of_not_lt hlong
  have hhost : (utf8 address.normalized).length ≤ 8 * 1024 :=
    calc (utf8 address.normalized).length ≤ 4 * address.normalized.length := length_utf8_le _
      _ ≤ 4 * Queue.addressLimit := Nat.mul_le_mul_left 4 hlength
      _ ≤ 8 * 1024 := by decide
  have hlocal := length_queueUri_lt hlength printer port
  have hwritable := entry_writable hhost printer acceptingJobs
  have hbytes := response_eq_ownFields sha256 upTime requestId version .ok hwritable
  have hheader : (responseHeader requestId version .ok).length = 8 := rfl
  have hentries : ∀ e ∈ [entry address.normalized printer acceptingJobs], e.Writable := by
    simpa using hwritable
  obtain ⟨r, hr⟩ := Android.parse_response sha256 upTime requestId version hentries
  have hend : Terminated (response sha256 upTime requestId version .ok
      [entry address.normalized printer acceptingJobs]) := by
    rw [Terminated, hbytes, List.drop_left' hheader, scan_encode]
    rfl
  have hfields : fieldsOf (response sha256 upTime requestId version .ok
      [entry address.normalized printer acceptingJobs]) = ownFields sha256 upTime hwritable := by
    rw [hbytes, fieldsOf_encode hheader]
  have hread := readFields_fieldsOf hend hr
  rw [hfields] at hread
  have hname : r.value "printer-name" = some (.ofList printer.chars) := by
    have hfirst := firstOf_printerName hwritable hread
    rw [asBytes_ofList] at hfirst
    exact value_of_firstOf Tag.name hfirst (by decide) (nul_not_mem_of_printable printer.printable)
  have hqueue' := isQueue_proxiedPrinter sha256 hne hqueue hname port
    (remoteUri address.normalized printer)
  have hshort := short_proxiedPrinter sha256 r (remoteUri address.normalized printer) hlocal
  have hremote : (proxiedPrinter sha256 r (remoteUri address.normalized printer)
      (queueUri (loopbackAuthority port) address.normalized printer)).IsRemoteUri
      (asBytes (.ofList (entry address.normalized printer acceptingJobs).uri)) :=
    ⟨_, fromUtf8_asBytes _, by
      rw [String.toList_ofList]
      exact samePrinterUri_remoteUri hslash hne⟩
  obtain ⟨kept, hkept, hall⟩ := readFields_shown carries_writesQueue
    (shown_ownFields hqueue' hshort hwritable hremote) current_nil .nil hread
  rw [← hfields] at hkept
  obtain ⟨out, r', hout, hr', hsame, hattributes⟩ := parse_rewritten sha256 proxyUpTime
    (remoteUri address.normalized printer) hlocal hend hr hkept
  rw [addedTo_own hwritable hread, List.map_nil, List.append_nil, eq_map_of_forall₂ hall]
    at hattributes
  refine ⟨r, out, r', hr, hout, hr', hsame, hattributes, ?_, ?_⟩
  · refine value_of_firstOf Tag.uri ?_ (by decide) (nul_not_mem_queueUri _ _ _)
    rw [hattributes, firstOf_map, firstOf_printerUri hwritable hread]
    rfl
  · refine value_of_firstOf Tag.name ?_ (by decide)
      (nul_not_mem_of_printable queueName.printable)
    rw [hattributes, firstOf_map, firstOf_printerName hwritable hread]
    rfl

end Queue

/-- A printer that is shared by a server in the network. -/
def archivePrinter : PrinterName := ⟨"Archive 2", by decide, by decide, by decide, by decide⟩

theorem archivePrinter_shown :
    ∃ request, Queue.ClientQueueRequest.new "server:8631".toList archivePrinter = .ok request
      ∧ request.queueName.value = "Archive 2 (ShaPrint server-8631)".toList
      ∧ ∃ r out r',
        Request.parse (response (fun _ => Vector.replicate 32 0) 7 1 (2, 0) .ok
          [entry "server:8631".toList archivePrinter true]) = .ok r
        ∧ rewritePrinterUriSupported (fun _ => Vector.replicate 32 0) 9
            (response (fun _ => Vector.replicate 32 0) 7 1 (2, 0) .ok
              [entry "server:8631".toList archivePrinter true])
            (remoteUri "server:8631".toList archivePrinter)
            (queueUri (loopbackAuthority 48632) "server:8631".toList archivePrinter) = .ok out
        ∧ Request.parse out = .ok r' ∧ SameMessage r r'
        ∧ r'.attributes = r.attributes.map (queueAttribute (fun _ => Vector.replicate 32 0)
            (queueUri (loopbackAuthority 48632) "server:8631".toList archivePrinter)
            request.queueName)
        ∧ r'.value "printer-uri-supported" = some (.ofList
            (queueUri (loopbackAuthority 48632) "server:8631".toList archivePrinter))
        ∧ r'.value "printer-name" = some (.ofList request.queueName.value) := by
  have haddress : ServerAddress.parse "Server:8631".toList
      = .ok ⟨"server".toList, 8631, "server:8631".toList⟩ := by decide
  obtain ⟨request, hrequest, hname⟩ := except_map_eq_ok.mp
    (by decide +kernel : (Queue.ClientQueueRequest.new "server:8631".toList archivePrinter).map
      (·.queueName.value) = .ok "Archive 2 (ShaPrint server-8631)".toList)
  exact ⟨request, hrequest, hname,
    queue_shown (fun _ => Vector.replicate 32 0) 7 9 haddress hrequest 48632 1 (2, 0) true⟩

end ShaPrint.Client
