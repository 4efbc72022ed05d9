import ShaPrint.Android.IppBuffer

/-!
The groups of a printer listing, and the printers that `parseResponse` makes of them.

* `Item`, `items`: the delimiters and the values of a response, as the reader finds them.
* `Section`, `sections`: the printer groups that have a name and are finished. The values of
  the printer groups without a name that come before are part of a section as well, since
  the reader does not drop them.
* `namedMedia`, `namedColorMode`, `namedDuplexMode`, `copiesOf`: what values say about a printer.
* `printers_parseResponse`: every section becomes a printer, with the capabilities that its
  values name.
-/

namespace ShaPrint.Android

open Ipp

/-! ### Items -/

/-- A value, with the name it is read under. -/
structure Entry where
  name : String
  value : Bytes
  deriving DecidableEq

inductive Item where
  | delimiter (tag : UInt8)
  | entry (e : Entry)
  deriving DecidableEq

/-- The items up to the end tag, or up to what is cut off, and whether there is an end tag. -/
def items (lastName : String) (bytes : Bytes) : List Item × Bool :=
  match bytes with
  | [] => ([], false)
  | tag :: rest =>
      if tag = Tag.endOfAttributes then ([], true)
      else if 0x01 ≤ tag ∧ tag ≤ 0x05 then
        let next := items lastName rest
        (.delimiter tag :: next.1, next.2)
      else
        match _hname : readRaw rest with
        | .error _ => ([], false)
        | .ok (rawName, rest') =>
            match _hvalue : readRaw rest' with
            | .error _ => ([], false)
            | .ok (value, rest'') =>
                let name := if rawName = [] then lastName else String.ofList (fromUtf8Lossy rawName)
                let next := items name rest''
                (.entry ⟨name, value⟩ :: next.1, next.2)
  termination_by bytes.length
  decreasing_by
    · simp_wf
    · have h1 := readRaw_length ‹readRaw rest = _›
      have h2 := readRaw_length ‹readRaw rest' = _›
      simp_all only [List.length_cons]
      omega

section Turns

variable (lastName : String) {tag : UInt8}

lemma items_end (rest : Bytes) : items lastName (Tag.endOfAttributes :: rest) = ([], true) := by
  rw [items, if_pos rfl]

lemma items_delimiter (h : tag ≠ Tag.endOfAttributes) (h' : 0x01 ≤ tag ∧ tag ≤ 0x05)
    (rest : Bytes) :
    items lastName (tag :: rest)
      = (.delimiter tag :: (items lastName rest).1, (items lastName rest).2) := by
  rw [items, if_neg h, if_pos h']

lemma items_value (h : tag ≠ Tag.endOfAttributes) (h' : ¬(0x01 ≤ tag ∧ tag ≤ 0x05))
    {rest rest' rest'' rawName value : Bytes} (hname : readRaw rest = .ok (rawName, rest'))
    (hvalue : readRaw rest' = .ok (value, rest'')) {name : String}
    (hlast : name = if rawName = [] then lastName else String.ofList (fromUtf8Lossy rawName)) :
    items lastName (tag :: rest)
      = (.entry ⟨name, value⟩ :: (items name rest'').1, (items name rest'').2) := by
  rw [items, if_neg h, if_neg h']
  split
  · simp_all
  · rename_i heq
    obtain ⟨rfl, rfl⟩ := Prod.mk.inj (Except.ok.inj (hname.symm.trans heq))
    split
    · simp_all
    · rename_i heq
      obtain ⟨rfl, rfl⟩ := Prod.mk.inj (Except.ok.inj (hvalue.symm.trans heq))
      rw [hlast]

lemma items_cut_name (h : tag ≠ Tag.endOfAttributes) (h' : ¬(0x01 ≤ tag ∧ tag ≤ 0x05))
    {rest : Bytes} {e : ParseError} (hname : readRaw rest = .error e) :
    items lastName (tag :: rest) = ([], false) := by
  rw [items, if_neg h, if_neg h']
  split
  · rfl
  · simp_all

lemma items_cut_value (h : tag ≠ Tag.endOfAttributes) (h' : ¬(0x01 ≤ tag ∧ tag ≤ 0x05))
    {rest rest' rawName : Bytes} {e : ParseError} (hname : readRaw rest = .ok (rawName, rest'))
    (hvalue : readRaw rest' = .error e) : items lastName (tag :: rest) = ([], false) := by
  rw [items, if_neg h, if_neg h']
  split
  · simp_all
  · rename_i heq
    obtain ⟨rfl, rfl⟩ := Prod.mk.inj (Except.ok.inj (hname.symm.trans heq))
    split
    · rfl
    · simp_all

end Turns

/-- The loop's turn at an item. -/
def readItem (serverCanonicalAddress : String) (s : ParseState) : Item → ParseState
  | .delimiter tag => s.enterGroup serverCanonicalAddress tag
  | .entry e =>
      let s := { s with lastAttributeName := e.name }
      if s.currentGroup = Tag.printerAttributes then parseAttribute s e.name e.value else s

/-- The end of the loop. -/
def finish (serverCanonicalAddress : String) (ended : Bool) (s : ParseState) : ParseState :=
  if ended then s.commitCurrentPrinter serverCanonicalAddress else s

lemma lastAttributeName_enterGroup (s : ParseState) (address : String) (tag : UInt8) :
    (s.enterGroup address tag).lastAttributeName = s.lastAttributeName := by
  unfold ParseState.enterGroup
  simp only
  split_ifs <;> rfl

lemma lastAttributeName_parseAttribute (s : ParseState) (attrName : String) (value : Bytes) :
    (parseAttribute s attrName value).lastAttributeName = s.lastAttributeName := by
  unfold parseAttribute
  simp only
  split_ifs <;> rfl

lemma lastAttributeName_readItem (s : ParseState) (address : String) (e : Entry) :
    (readItem address s (.entry e)).lastAttributeName = e.name := by
  unfold readItem
  simp only
  split_ifs
  · rw [lastAttributeName_parseAttribute]
  · rfl

/-- The loop takes one item after another. -/
lemma parseLoop_eq_items (address : String) (s : ParseState) (bytes : Bytes) :
    parseLoop address s bytes
      = finish address (items s.lastAttributeName bytes).2
          ((items s.lastAttributeName bytes).1.foldl (readItem address) s) := by
  induction hlength : bytes.length using Nat.strongRecOn generalizing s bytes with
  | ind n ih =>
      cases bytes with
      | nil =>
          rw [parseLoop, items]
          rfl
      | cons tag rest =>
          rw [List.length_cons] at hlength
          by_cases hend : tag = Tag.endOfAttributes
          · rw [hend, parseLoop_end, items_end]
            rfl
          by_cases hgroup : 0x01 ≤ tag ∧ tag ≤ 0x05
          · rw [parseLoop_delimiter _ _ ⟨Tag.isDelimiter_iff.mpr hgroup, hend⟩,
              items_delimiter _ hend hgroup, ih _ (by omega) _ _ rfl, lastAttributeName_enterGroup]
            rfl
          cases hname : readRaw rest with
          | error e =>
              rw [parseLoop_cut_name _ _ hend hgroup hname, items_cut_name _ hend hgroup hname]
              rfl
          | ok next =>
              obtain ⟨rawName, rest'⟩ := next
              have hle := readRaw_length hname
              cases hvalue : readRaw rest' with
              | error e =>
                  rw [parseLoop_cut_value _ _ hend hgroup hname hvalue,
                    items_cut_value _ hend hgroup hname hvalue]
                  rfl
              | ok next =>
                  obtain ⟨value, rest''⟩ := next
                  have hle' := readRaw_length hvalue
                  -- the turn is the one at the item
                  generalize hlast : (if rawName = [] then s.lastAttributeName
                    else String.ofList (fromUtf8Lossy rawName)) = name
                  have hturn : parseValue s rawName value
                      = readItem address s (.entry ⟨name, value⟩) := by
                    unfold parseValue readItem
                    rw [← hlast]
                    split_ifs <;> rfl
                  rw [parseLoop_value _ _ hend hgroup hname hvalue,
                    items_value _ hend hgroup hname hvalue hlast.symm, ih _ (by omega) _ _ rfl,
                    hturn, lastAttributeName_readItem]
                  rfl

/-! ### What values say -/

def Entry.text (e : Entry) : String := String.ofList (fromUtf8Lossy e.value)

def namedMedia (e : Entry) : Option RequestedMedia :=
  if e.name = "media-supported" ∨ e.name = "media-ready" then RequestedMedia.fromIppName e.text
  else none

def namedColorMode (e : Entry) : Option PrintColorMode :=
  if e.name = "print-color-mode-supported" then
    if e.text = "color" then some .color
    else if e.text = "monochrome" ∨ e.text = "bi-level" then some .monochrome
    else none
  else none

def namedDuplexMode (e : Entry) : Option DuplexMode :=
  if e.name = "sides-supported" then
    if e.text = "one-sided" then some .oneSided
    else if e.text = "two-sided-long-edge" then some .twoSidedLongEdge
    else if e.text = "two-sided-short-edge" then some .twoSidedShortEdge
    else none
  else none

/-- The name that the last of the values gives. -/
def nameOf (entries : List Entry) : Option String :=
  entries.foldl (fun name e => if e.name = "printer-name" then some e.text else name) none

/-- The number of copies that the last of the values allows, 99 without one. -/
def copiesOf (entries : List Entry) : ℤ :=
  entries.foldl (fun n e => if e.name = "copies-supported" then maxCopies n e.value else n) 99

/-- The list of what was named, or the default where there is nothing. -/
def offered {α : Type*} [DecidableEq α] (fallback : α) (named : List α) : List α :=
  if addAll [] named ≠ [] then addAll [] named else [fallback]

def capabilitiesOf (entries : List Entry) : PrinterCapabilities where
  supportedMedia := offered .isoA4 (entries.filterMap namedMedia)
  supportedColorModes := offered .color (entries.filterMap namedColorMode)
  supportedDuplexModes := offered .oneSided (entries.filterMap namedDuplexMode)
  maxCopies := copiesOf entries

/-! ### Sections -/

/-- A printer group that has a name and is finished, and the values before it that were not
dropped. -/
structure Section where
  before : List Entry
  own : List Entry
  deriving DecidableEq

/-- The sections of a response, from a group on whose values so far are `own`. -/
def sectionsFrom (ended : Bool) (group : UInt8) (before own : List Entry) : List Item → List Section
  | [] => if ended ∧ (nameOf own).isSome then [⟨before, own⟩] else []
  | .entry e :: rest =>
      if group = Tag.printerAttributes then sectionsFrom ended group before (own ++ [e]) rest
      else sectionsFrom ended group before own rest
  | .delimiter tag :: rest =>
      if tag = Tag.printerAttributes then
        if (nameOf own).isSome then ⟨before, own⟩ :: sectionsFrom ended tag [] [] rest
        else sectionsFrom ended tag (before ++ own) [] rest
      else sectionsFrom ended tag before own rest

/-- The sections of a response behind its header. -/
def sections (data : Bytes) : List Section :=
  sectionsFrom (items "" (data.drop 8)).2 0 [] [] (items "" (data.drop 8)).1

/-- The printer that a section becomes. -/
def Section.printer (sec : Section) (serverCanonicalAddress : String) : SharedPrinter where
  name := (nameOf sec.own).getD ""
  serverCanonicalAddress := serverCanonicalAddress
  isOnline := true
  capabilities := capabilitiesOf (sec.before ++ sec.own)

/-! ### The printers are those of the sections -/

/-- What the loop has read: the values of the group it is in, and those before. -/
structure Reads (s : ParseState) (group : UInt8) (before own : List Entry) : Prop where
  group_eq : s.currentGroup = group
  name : s.currentPrinterName = nameOf own
  media : s.currentMedia = addAll [] ((before ++ own).filterMap namedMedia)
  colorModes : s.currentColorModes = addAll [] ((before ++ own).filterMap namedColorMode)
  duplexModes : s.currentDuplexModes = addAll [] ((before ++ own).filterMap namedDuplexMode)
  copies : s.currentMaxCopies = copiesOf (before ++ own)

lemma reads_new : Reads .new 0 [] [] := ⟨rfl, rfl, rfl, rfl, rfl, rfl⟩

lemma addColorMode_eq (modes : List PrintColorMode) {e : Entry}
    (h : e.name = "print-color-mode-supported") :
    addColorMode modes e.text = addAll modes (namedColorMode e).toList := by
  unfold addColorMode namedColorMode
  rw [if_pos h]
  split_ifs <;> rfl

lemma addDuplexMode_eq (modes : List DuplexMode) {e : Entry} (h : e.name = "sides-supported") :
    addDuplexMode modes e.text = addAll modes (namedDuplexMode e).toList := by
  unfold addDuplexMode namedDuplexMode
  rw [if_pos h]
  split_ifs <;> rfl

/-- A value of a printer's group, field by field. -/
lemma parseAttribute_entry (s : ParseState) (e : Entry) :
    parseAttribute s e.name e.value =
      { s with
        currentPrinterName := if e.name = "printer-name" then some e.text else s.currentPrinterName
        currentMedia := addAll s.currentMedia (namedMedia e).toList
        currentColorModes := addAll s.currentColorModes (namedColorMode e).toList
        currentDuplexModes := addAll s.currentDuplexModes (namedDuplexMode e).toList
        currentMaxCopies :=
          if e.name = "copies-supported" then maxCopies s.currentMaxCopies e.value
          else s.currentMaxCopies } := by
  unfold parseAttribute
  change (if e.name = "printer-name" then { s with currentPrinterName := some e.text } else _) = _
  by_cases hname : e.name = "printer-name"
  · simp [hname, namedMedia, namedColorMode, namedDuplexMode, addAll]
  by_cases hmedia : e.name = "media-supported" ∨ e.name = "media-ready"
  · have hother : e.name ≠ "print-color-mode-supported" ∧ e.name ≠ "sides-supported"
        ∧ e.name ≠ "copies-supported" := by
      rcases hmedia with h | h <;> simp [h]
    have hnamed : namedMedia e
        = RequestedMedia.fromIppName (String.ofList (fromUtf8Lossy e.value)) := if_pos hmedia
    rw [if_neg hname, if_pos hmedia]
    cases hfrom : RequestedMedia.fromIppName (String.ofList (fromUtf8Lossy e.value)) with
    | none =>
        rw [hfrom] at hnamed
        simp [hname, hother, hnamed, namedColorMode, namedDuplexMode, addAll]
    | some media =>
        rw [hfrom] at hnamed
        simp [hname, hother, hnamed, namedColorMode, namedDuplexMode, addAll]
  by_cases hcolor : e.name = "print-color-mode-supported"
  · rw [if_neg hname, if_neg hmedia, if_pos hcolor]
    change { s with currentColorModes := addColorMode s.currentColorModes e.text } = _
    rw [addColorMode_eq _ hcolor]
    simp [hcolor, namedMedia, namedDuplexMode, addAll]
  by_cases hsides : e.name = "sides-supported"
  · rw [if_neg hname, if_neg hmedia, if_neg hcolor, if_pos hsides]
    change { s with currentDuplexModes := addDuplexMode s.currentDuplexModes e.text } = _
    rw [addDuplexMode_eq _ hsides]
    simp [hsides, namedMedia, namedColorMode, addAll]
  simp [hname, hmedia, hcolor, hsides, namedMedia, namedColorMode, namedDuplexMode, addAll]
  split_ifs <;> rfl

lemma addAll_append {α : Type*} [DecidableEq α] (xs ys zs : List α) :
    addAll xs (ys ++ zs) = addAll (addAll xs ys) zs := List.foldl_append

/-- Naming a value appends what it names. -/
lemma filterMap_concat {α : Type*} (f : Entry → Option α) (before own : List Entry) (e : Entry) :
    (before ++ (own ++ [e])).filterMap f = (before ++ own).filterMap f ++ (f e).toList := by
  rw [← List.append_assoc, List.filterMap_append]
  cases hf : f e <;> simp [hf]

section Turns

variable (address : String) {s : ParseState} {group : UInt8} {before own : List Entry}

/-- A value of a printer's group. -/
lemma Reads.entry (h : Reads s Tag.printerAttributes before own) (e : Entry) :
    Reads (readItem address s (.entry e)) Tag.printerAttributes before (own ++ [e])
      ∧ (readItem address s (.entry e)).printers = s.printers := by
  have hturn : readItem address s (.entry e)
      = parseAttribute { s with lastAttributeName := e.name } e.name e.value := if_pos h.group_eq
  rw [hturn, parseAttribute_entry]
  refine ⟨⟨h.group_eq, ?_, ?_, ?_, ?_, ?_⟩, rfl⟩
  · rw [nameOf, List.foldl_append, ← nameOf, ← h.name]
    rfl
  · rw [filterMap_concat, addAll_append, ← h.media]
  · rw [filterMap_concat, addAll_append, ← h.colorModes]
  · rw [filterMap_concat, addAll_append, ← h.duplexModes]
  · rw [← List.append_assoc, copiesOf, List.foldl_append, ← copiesOf, ← h.copies]
    rfl

/-- A value of another group. -/
lemma Reads.other (h : Reads s group before own) (hgroup : group ≠ Tag.printerAttributes)
    (e : Entry) :
    Reads (readItem address s (.entry e)) group before own
      ∧ (readItem address s (.entry e)).printers = s.printers := by
  have hturn : readItem address s (.entry e) = { s with lastAttributeName := e.name } :=
    if_neg (h.group_eq ▸ hgroup)
  rw [hturn]
  exact ⟨⟨h.group_eq, h.name, h.media, h.colorModes, h.duplexModes, h.copies⟩, rfl⟩

/-- A delimiter of another group. -/
lemma Reads.delimiter (h : Reads s group before own) {tag : UInt8}
    (htag : tag ≠ Tag.printerAttributes) :
    Reads (s.enterGroup address tag) tag before own
      ∧ (s.enterGroup address tag).printers = s.printers := by
  unfold ParseState.enterGroup
  simp only
  rw [if_neg fun hboth => htag hboth.1]
  exact ⟨⟨rfl, h.name, h.media, h.colorModes, h.duplexModes, h.copies⟩, rfl⟩

/-- The next printer group, where this one has no name. -/
lemma Reads.unnamed (h : Reads s group before own) (hname : nameOf own = none) :
    Reads (s.enterGroup address Tag.printerAttributes) Tag.printerAttributes (before ++ own) []
      ∧ (s.enterGroup address Tag.printerAttributes).printers = s.printers := by
  have hnone : s.currentPrinterName = none := h.name.trans hname
  unfold ParseState.enterGroup
  simp only
  rw [if_neg fun hboth => by rw [hnone] at hboth; cases hboth.2]
  refine ⟨⟨rfl, hnone, ?_, ?_, ?_, ?_⟩, rfl⟩
  · rw [List.append_nil]
    exact h.media
  · rw [List.append_nil]
    exact h.colorModes
  · rw [List.append_nil]
    exact h.duplexModes
  · rw [List.append_nil]
    exact h.copies

/-- The end of a printer group with a name. -/
lemma Reads.commit (h : Reads s group before own) (hname : (nameOf own).isSome) :
    (s.commitCurrentPrinter address).printers
      = s.printers ++ [Section.printer ⟨before, own⟩ address] := by
  obtain ⟨name, hsome⟩ := Option.isSome_iff_exists.mp hname
  have hcurrent : s.currentPrinterName = some name := h.name.trans hsome
  unfold ParseState.commitCurrentPrinter Section.printer capabilitiesOf offered
  rw [hcurrent, hsome, ← h.media, ← h.colorModes, ← h.duplexModes, ← h.copies]
  rfl

/-- The next printer group, where this one has a name. -/
lemma Reads.named (h : Reads s group before own) (hname : (nameOf own).isSome) :
    Reads (s.enterGroup address Tag.printerAttributes) Tag.printerAttributes [] []
      ∧ (s.enterGroup address Tag.printerAttributes).printers
        = s.printers ++ [Section.printer ⟨before, own⟩ address] := by
  have hsome : s.currentPrinterName.isSome := h.name ▸ hname
  have hcommit := h.commit address hname
  unfold ParseState.enterGroup
  simp only
  rw [if_pos ⟨trivial, hsome⟩]
  exact ⟨⟨rfl, rfl, rfl, rfl, rfl, rfl⟩, hcommit⟩

end Turns

/-- The loop makes a printer of every section. -/
lemma printers_foldl (address : String) (ended : Bool) {s : ParseState} {group : UInt8}
    {before own : List Entry} (h : Reads s group before own) (is : List Item) :
    (finish address ended (is.foldl (readItem address) s)).printers
      = s.printers
        ++ (sectionsFrom ended group before own is).map (Section.printer · address) := by
  induction is generalizing s group before own with
  | nil =>
      rw [List.foldl_nil, sectionsFrom, finish]
      cases ended with
      | false => simp
      | true =>
          by_cases hname : (nameOf own).isSome
          · simp only [if_true, hname, and_self, List.map_cons, List.map_nil]
            exact h.commit address hname
          · have hnone : s.currentPrinterName = none :=
              h.name.trans (Option.not_isSome_iff_eq_none.mp hname)
            simp [ParseState.commitCurrentPrinter, hnone, hname]
  | cons item is ih =>
      rw [List.foldl_cons]
      cases item with
      | entry e =>
          rw [sectionsFrom]
          split_ifs with hgroup
          · subst hgroup
            obtain ⟨hnext, hprinters⟩ := h.entry address e
            rw [ih hnext, hprinters]
          · obtain ⟨hnext, hprinters⟩ := h.other address hgroup e
            rw [ih hnext, hprinters]
      | delimiter tag =>
          rw [sectionsFrom, readItem]
          split_ifs with htag hname
          · subst htag
            obtain ⟨hnext, hprinters⟩ := h.named address hname
            rw [ih hnext, hprinters, List.map_cons, List.append_assoc]
            rfl
          · subst htag
            obtain ⟨hnext, hprinters⟩ := h.unnamed address
              (Option.not_isSome_iff_eq_none.mp hname)
            rw [ih hnext, hprinters]
          · obtain ⟨hnext, hprinters⟩ := h.delimiter address htag
            rw [ih hnext, hprinters]

/-- **The printers of a response are its sections.** -/
theorem printers_parseResponse (data : Bytes) (address : String) :
    (parseResponse data address).printers = (sections data).map (Section.printer · address) := by
  have hloop : ((parseLoop address .new (data.drop 8)).printers)
      = (sections data).map (Section.printer · address) := by
    rw [parseLoop_eq_items, printers_foldl address _ reads_new]
    rfl
  by_cases hshort : data.length < 8
  · rw [← hloop, IppMessage.parseResponse_of_short hshort, List.drop_of_length_le (by omega),
      parseLoop]
    rfl
  · rw [IppMessage.parseResponse_of_long (by omega), hloop]

end ShaPrint.Android
