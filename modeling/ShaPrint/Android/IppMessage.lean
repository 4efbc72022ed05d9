import ShaPrint.Android.Model
import ShaPrint.Endpoint.Response

/-!
The IPP messages of the Android client, `core/ipp/IppMessage.kt`.

* `buildPrintJobHeader`: the request the document follows.
* `ParseState`, `parseAttribute`, `parseLoop`, `parseResponse`: the reading of a printer
  listing. A read past the end stops the loop, and what was read so far is the result.
* `parseLoop_quiet`, `parseLoop_group`: what the loop makes of the values the endpoint
  writes.
-/

namespace ShaPrint.Android

open Ipp Endpoint BigEndian

/-! ### Print-Job -/

/-- A character that Kotlin counts as white space. -/
def isWhitespace (c : Char) : Bool :=
  ShaPrint.isWhitespace c && c.val != 0x85 || (0x1c ≤ c.val && c.val ≤ 0x1f)

/-- `isNullOrBlank`. -/
def isNullOrBlank : Option String → Bool
  | none => true
  | some s => s.toList.all isWhitespace

def writeStringAttribute (tag : UInt8) (name value : String) : List Written :=
  [⟨tag, name, asBytes value⟩]

def writeIntegerAttribute (tag : UInt8) (name : String) (value : ℤ) : List Written :=
  [⟨tag, name, i32Bytes value⟩]

/-- The operation attributes of a Print-Job. -/
def printJobOperationGroup (jobRequest : PrintJobRequest) (networkChannel : Option String) :
    Group where
  tag := Tag.operationAttributes
  values :=
    writeStringAttribute Tag.charset "attributes-charset" "utf-8"
    ++ writeStringAttribute Tag.naturalLanguage "attributes-natural-language" "en"
    ++ writeStringAttribute Tag.uri "printer-uri" (String.ofList jobRequest.printerIppUri)
    ++ writeStringAttribute Tag.name "requesting-user-name" "shaprint-android"
    ++ writeStringAttribute Tag.name "job-name" jobRequest.jobName
    ++ writeStringAttribute Tag.mimeMediaType "document-format" "image/pwg-raster"
    ++ (if isNullOrBlank networkChannel then []
        else writeStringAttribute Tag.keyword "network-channel" (networkChannel.getD ""))

/-- The job template attributes. -/
def printJobTemplateGroup (jobRequest : PrintJobRequest) : Group where
  tag := Tag.jobAttributes
  values :=
    writeIntegerAttribute Tag.integer "copies" jobRequest.copies
    ++ writeStringAttribute Tag.keyword "media" jobRequest.media.ippName
    ++ writeStringAttribute Tag.keyword "print-color-mode" jobRequest.colorMode.ippName
    ++ writeStringAttribute Tag.keyword "sides" jobRequest.duplexMode.ippName
    ++ writeIntegerAttribute Tag.enum "orientation-requested" jobRequest.orientation.ippEnum

/-- The request up to its end tag; the document follows it. -/
def buildPrintJobHeader (jobRequest : PrintJobRequest) (networkChannel : Option String)
    (requestId : ℤ) : Bytes :=
  message ([0x02, 0x00] ++ be16 0x0002 ++ i32Bytes requestId)
    [printJobOperationGroup jobRequest networkChannel, printJobTemplateGroup jobRequest]

/-! ### Printer listings -/

/-- What the loop over the attributes keeps. -/
structure ParseState where
  printers : List SharedPrinter
  currentGroup : UInt8
  currentPrinterName : Option String
  currentMedia : List RequestedMedia
  currentColorModes : List PrintColorMode
  currentDuplexModes : List DuplexMode
  currentMaxCopies : ℤ
  lastAttributeName : String
  deriving DecidableEq, Repr

namespace ParseState

def new : ParseState := ⟨[], 0, none, [], [], [], 99, ""⟩

/-- `commitCurrentPrinter`: the printer read so far, if it has a name, is added. -/
def commitCurrentPrinter (s : ParseState) (serverCanonicalAddress : String) : ParseState :=
  { s with
    printers := s.printers ++ s.currentPrinterName.toList.map fun name =>
      { name
        serverCanonicalAddress
        isOnline := true
        capabilities := {
          supportedMedia := if s.currentMedia ≠ [] then s.currentMedia else [.isoA4]
          supportedColorModes := if s.currentColorModes ≠ [] then s.currentColorModes else [.color]
          supportedDuplexModes :=
            if s.currentDuplexModes ≠ [] then s.currentDuplexModes else [.oneSided]
          maxCopies := s.currentMaxCopies } }
    currentPrinterName := none
    currentMedia := []
    currentColorModes := []
    currentDuplexModes := []
    currentMaxCopies := 99 }

/-- A group delimiter. -/
def enterGroup (s : ParseState) (serverCanonicalAddress : String) (tag : UInt8) : ParseState :=
  let s := if tag = Tag.printerAttributes ∧ s.currentPrinterName.isSome then
    s.commitCurrentPrinter serverCanonicalAddress else s
  { s with currentGroup := tag }

end ParseState

/-- The list with one more value, if it is new. -/
def addNew {α : Type*} [DecidableEq α] (xs : List α) (x : α) : List α :=
  if x ∈ xs then xs else xs ++ [x]

section

variable {α : Type*} [DecidableEq α] {xs ys : List α} {x y : α}

lemma mem_addNew : y ∈ addNew xs x ↔ y ∈ xs ∨ y = x := by
  unfold addNew
  split_ifs with h
  · exact ⟨.inl, fun hy => hy.elim id fun heq => heq ▸ h⟩
  · simp

lemma nodup_addNew (h : xs.Nodup) : (addNew xs x).Nodup := by
  unfold addNew
  split_ifs with hx
  · exact h
  · exact List.nodup_append'.mpr ⟨h, List.nodup_singleton x, by simpa using hx⟩

/-- The list with more values, each if it is new. -/
def addAll (xs ys : List α) : List α := ys.foldl addNew xs

lemma mem_addAll : y ∈ addAll xs ys ↔ y ∈ xs ∨ y ∈ ys := by
  unfold addAll
  induction ys generalizing xs with
  | nil => simp
  | cons x ys ih => rw [List.foldl_cons, ih, mem_addNew, List.mem_cons, or_assoc]

lemma nodup_addAll (h : xs.Nodup) : (addAll xs ys).Nodup := by
  unfold addAll
  induction ys generalizing xs with
  | nil => exact h
  | cons x ys ih => exact ih (nodup_addNew h)

end

def addColorMode (modes : List PrintColorMode) (value : String) : List PrintColorMode :=
  if value = "color" then addNew modes .color
  else if value = "monochrome" ∨ value = "bi-level" then addNew modes .monochrome
  else modes

def addDuplexMode (modes : List DuplexMode) (value : String) : List DuplexMode :=
  if value = "one-sided" then addNew modes .oneSided
  else if value = "two-sided-long-edge" then addNew modes .twoSidedLongEdge
  else if value = "two-sided-short-edge" then addNew modes .twoSidedShortEdge
  else modes

/-- `copies-supported`: the upper bound of a range, or a number. -/
def maxCopies (current : ℤ) (value : Bytes) : ℤ :=
  if value.length = 8 then (Request.i32OfBytes (value.drop 4)).getD current
  else if value.length = 4 then (Request.i32OfBytes value).getD current
  else current

/-- One value of a printer's group. -/
def parseAttribute (s : ParseState) (attrName : String) (value : Bytes) : ParseState :=
  let stringVal := String.ofList (fromUtf8Lossy value)
  if attrName = "printer-name" then { s with currentPrinterName := some stringVal }
  else if attrName = "media-supported" ∨ attrName = "media-ready" then
    { s with currentMedia := match RequestedMedia.fromIppName stringVal with
        | some media => addNew s.currentMedia media
        | none => s.currentMedia }
  else if attrName = "print-color-mode-supported" then
    { s with currentColorModes := addColorMode s.currentColorModes stringVal }
  else if attrName = "sides-supported" then
    { s with currentDuplexModes := addDuplexMode s.currentDuplexModes stringVal }
  else if attrName = "copies-supported" then
    { s with currentMaxCopies := maxCopies s.currentMaxCopies value }
  else s

/-- One value, with the name it is read under: an empty name stands for the last one. -/
def parseValue (s : ParseState) (rawName value : Bytes) : ParseState :=
  let s := if rawName = [] then s
    else { s with lastAttributeName := String.ofList (fromUtf8Lossy rawName) }
  if s.currentGroup = Tag.printerAttributes then parseAttribute s s.lastAttributeName value else s

/-- The loop from the current position on. -/
def parseLoop (serverCanonicalAddress : String) (s : ParseState) (bytes : Bytes) : ParseState :=
  match bytes with
  | [] => s
  | tag :: rest =>
      if tag = Tag.endOfAttributes then s.commitCurrentPrinter serverCanonicalAddress
      else if 0x01 ≤ tag ∧ tag ≤ 0x05 then
        parseLoop serverCanonicalAddress (s.enterGroup serverCanonicalAddress tag) rest
      else
        match _hname : readRaw rest with
        | .error _ => s
        | .ok (rawName, rest') =>
            match _hvalue : readRaw rest' with
            | .error _ => s
            | .ok (value, rest'') =>
                parseLoop serverCanonicalAddress (parseValue s rawName value) rest''
  termination_by bytes.length
  decreasing_by
    · simp_wf
    · have h1 := readRaw_length ‹readRaw rest = _›
      have h2 := readRaw_length ‹readRaw rest' = _›
      simp_all only [List.length_cons]
      omega

/-- The signed number two big-endian bytes stand for. -/
def i16OfBytes (hi lo : UInt8) : ℤ :=
  let n := ofBe16 hi lo
  if n < 32768 then n else (n : ℤ) - 65536

structure ParsedIppResponse where
  statusCode : ℤ
  requestId : ℤ
  printers : List SharedPrinter
  deriving DecidableEq, Repr

def parseResponse (data : Bytes) (serverCanonicalAddress : String) : ParsedIppResponse :=
  match data with
  | _ :: _ :: s0 :: s1 :: r0 :: r1 :: r2 :: r3 :: rest =>
      { statusCode := i16OfBytes s0 s1
        requestId := (Request.i32OfBytes [r0, r1, r2, r3]).getD 0
        printers := (parseLoop serverCanonicalAddress .new rest).printers }
  | _ => ⟨0x0406, 0, []⟩

/-! ### The loop on written values -/

namespace ParseState

/-- The names of the printers read so far, the current one included. -/
def names (s : ParseState) : List String :=
  s.printers.map (·.name) ++ s.currentPrinterName.toList

/-- A step that touches no printer's name: the state after it has the same names and the
same group, and the next value without a name is not a printer's name. -/
structure Quiets (s t : ParseState) : Prop where
  printers : t.printers = s.printers
  currentPrinterName : t.currentPrinterName = s.currentPrinterName
  currentGroup : t.currentGroup = s.currentGroup
  lastAttributeName : t.lastAttributeName ≠ "printer-name"

lemma Quiets.names {s t : ParseState} (h : Quiets s t) : t.names = s.names := by
  unfold ParseState.names
  rw [h.printers, h.currentPrinterName]

lemma Quiets.trans {s t u : ParseState} (h : Quiets s t) (h' : Quiets t u) : Quiets s u where
  printers := h'.printers.trans h.printers
  currentPrinterName := h'.currentPrinterName.trans h.currentPrinterName
  currentGroup := h'.currentGroup.trans h.currentGroup
  lastAttributeName := h'.lastAttributeName

lemma names_commitCurrentPrinter (s : ParseState) (address : String) :
    (s.commitCurrentPrinter address).printers.map (·.name) = s.names := by
  unfold commitCurrentPrinter names
  cases s.currentPrinterName <;> simp

lemma names_enterGroup (s : ParseState) (address : String) (tag : UInt8) :
    (s.enterGroup address tag).names = s.names := by
  unfold enterGroup
  simp only
  split_ifs
  · unfold names
    rw [names_commitCurrentPrinter]
    simp [commitCurrentPrinter, names]
  · rfl

/-- A printer's group begins without a name. -/
lemma enterGroup_printer (s : ParseState) (address : String) :
    (s.enterGroup address Tag.printerAttributes).currentPrinterName = none
      ∧ (s.enterGroup address Tag.printerAttributes).currentGroup = Tag.printerAttributes := by
  unfold enterGroup
  cases hname : s.currentPrinterName <;> simp [commitCurrentPrinter, hname]

end ParseState

lemma ofList_fromUtf8Lossy_asBytes (s : String) : String.ofList (fromUtf8Lossy (asBytes s)) = s := by
  rw [asBytes_eq_utf8, fromUtf8Lossy_utf8, String.ofList_toList]

lemma parseLoop_end (address : String) (s : ParseState) (rest : Bytes) :
    parseLoop address s (Tag.endOfAttributes :: rest) = s.commitCurrentPrinter address := by
  rw [parseLoop, if_pos rfl]

lemma parseLoop_delimiter (address : String) (s : ParseState) {tag : UInt8}
    (h : Tag.isDelimiter tag = true ∧ tag ≠ Tag.endOfAttributes) (rest : Bytes) :
    parseLoop address s (tag :: rest) = parseLoop address (s.enterGroup address tag) rest := by
  rw [parseLoop, if_neg h.2, if_pos (Tag.isDelimiter_iff.mp h.1)]

section Turns

variable (address : String) (s : ParseState) {tag : UInt8}

/-- The loop takes one value per turn. -/
lemma parseLoop_value (h : tag ≠ Tag.endOfAttributes) (h' : ¬(0x01 ≤ tag ∧ tag ≤ 0x05))
    {rest rest' rest'' rawName value : Bytes} (hname : readRaw rest = .ok (rawName, rest'))
    (hvalue : readRaw rest' = .ok (value, rest'')) :
    parseLoop address s (tag :: rest) = parseLoop address (parseValue s rawName value) rest'' := by
  rw [parseLoop, if_neg h, if_neg h']
  split
  · simp_all
  · rename_i heq
    obtain ⟨rfl, rfl⟩ := Prod.mk.inj (Except.ok.inj (hname.symm.trans heq))
    split
    · simp_all
    · rename_i heq
      obtain ⟨rfl, rfl⟩ := Prod.mk.inj (Except.ok.inj (hvalue.symm.trans heq))
      rfl

/-- A name that is cut off ends the loop. -/
lemma parseLoop_cut_name (h : tag ≠ Tag.endOfAttributes) (h' : ¬(0x01 ≤ tag ∧ tag ≤ 0x05))
    {rest : Bytes} {e : ParseError} (hname : readRaw rest = .error e) :
    parseLoop address s (tag :: rest) = s := by
  rw [parseLoop, if_neg h, if_neg h']
  split
  · rfl
  · simp_all

/-- So does a value. -/
lemma parseLoop_cut_value (h : tag ≠ Tag.endOfAttributes) (h' : ¬(0x01 ≤ tag ∧ tag ≤ 0x05))
    {rest rest' rawName : Bytes} {e : ParseError} (hname : readRaw rest = .ok (rawName, rest'))
    (hvalue : readRaw rest' = .error e) : parseLoop address s (tag :: rest) = s := by
  rw [parseLoop, if_neg h, if_neg h']
  split
  · simp_all
  · rename_i heq
    obtain ⟨rfl, rfl⟩ := Prod.mk.inj (Except.ok.inj (hname.symm.trans heq))
    split
    · rfl
    · simp_all

end Turns

/-- The loop takes one written value per turn. -/
lemma parseLoop_written (address : String) (s : ParseState) {w : Written} (h : w.Ok)
    (rest : Bytes) :
    parseLoop address s (w.bytes ++ rest)
      = parseLoop address (parseValue s (asBytes w.name) w.value) rest := by
  have hname := readRaw_append h.2.1 (be16 w.value.length ++ (w.value ++ rest))
  have hvalue := readRaw_append h.2.2 rest
  simp only [Written.bytes, writeNameAndValue, List.cons_append, List.append_assoc]
  exact parseLoop_value address s (Tag.ne_endOfAttributes h.1) (Tag.not_in_range h.1) hname hvalue

lemma parseAttribute_quiets {s : ParseState} {attrName : String} (value : Bytes)
    (hname : attrName ≠ "printer-name") (hlast : s.lastAttributeName ≠ "printer-name") :
    s.Quiets (parseAttribute s attrName value) := by
  unfold parseAttribute
  simp only [if_neg hname]
  split_ifs <;> exact ⟨rfl, rfl, rfl, hlast⟩

/-- A value that is not a printer's name. -/
lemma parseValue_quiets {s : ParseState} {w : Written} (hname : w.name ≠ "printer-name")
    (hlast : w.name ≠ "" ∨ s.lastAttributeName ≠ "printer-name") :
    s.Quiets (parseValue s (asBytes w.name) w.value) := by
  -- the state once the name of the value is known
  have hstate : ∃ t, s.Quiets t ∧ parseValue s (asBytes w.name) w.value
      = if t.currentGroup = Tag.printerAttributes then parseAttribute t t.lastAttributeName w.value
        else t := by
    by_cases hempty : w.name = ""
    · refine ⟨s, ⟨rfl, rfl, rfl, hlast.resolve_left (not_not.mpr hempty)⟩, ?_⟩
      have hnil : asBytes w.name = [] := by rw [hempty]; decide
      unfold parseValue
      rw [if_pos hnil]
    · refine ⟨{ s with lastAttributeName := w.name }, ⟨rfl, rfl, rfl, hname⟩, ?_⟩
      have hcons : asBytes w.name ≠ [] := fun hnil => hempty (asBytes_inj.mp (by rw [hnil]; decide))
      unfold parseValue
      rw [if_neg hcons, ofList_fromUtf8Lossy_asBytes]
  obtain ⟨t, hst, ht⟩ := hstate
  rw [ht]
  split_ifs
  · exact hst.trans (parseAttribute_quiets _ hst.lastAttributeName hst.lastAttributeName)
  · exact hst

lemma parseLoop_quiet (address : String) {s : ParseState} {values : List Written}
    (h : Quiet values) (hlast : s.lastAttributeName ≠ "printer-name") (rest : Bytes) :
    ∃ t, s.Quiets t
      ∧ parseLoop address s (values.flatMap Written.bytes ++ rest) = parseLoop address t rest := by
  induction values generalizing s with
  | nil => exact ⟨s, ⟨rfl, rfl, rfl, hlast⟩, rfl⟩
  | cons w values ih =>
      obtain ⟨hok, hname⟩ := h w (by simp)
      have hstep := parseValue_quiets (s := s) hname (.inr hlast)
      obtain ⟨t, ht, hloop⟩ := ih (fun v hv => h v (by simp [hv])) hstep.lastAttributeName
      refine ⟨t, hstep.trans ht, ?_⟩
      rw [List.flatMap_cons, List.append_assoc, parseLoop_written _ _ hok, hloop]

/-- The same after a printer's name, where the first value has a name of its own. -/
lemma parseLoop_quiet_cons (address : String) (s : ParseState) {w : Written}
    {values : List Written} (h : Quiet (w :: values)) (hw : w.name ≠ "") (rest : Bytes) :
    ∃ t, s.Quiets t
      ∧ parseLoop address s ((w :: values).flatMap Written.bytes ++ rest)
        = parseLoop address t rest := by
  obtain ⟨hok, hname⟩ := h w (by simp)
  have hstep := parseValue_quiets (s := s) hname (.inl hw)
  have hvalues : Quiet values := fun v hv => h v (by simp [hv])
  obtain ⟨t, ht, hloop⟩ := parseLoop_quiet address hvalues hstep.lastAttributeName rest
  refine ⟨t, hstep.trans ht, ?_⟩
  rw [List.flatMap_cons, List.append_assoc, parseLoop_written _ _ hok, hloop]

/-- A printer's name, where the group has none yet. -/
lemma names_parseValue {s : ParseState} (hgroup : s.currentGroup = Tag.printerAttributes)
    (hnone : s.currentPrinterName = none) (name : String) :
    (parseValue s (asBytes "printer-name") (asBytes name)).names = s.names ++ [name] := by
  have hcons : asBytes "printer-name" ≠ [] := by decide
  unfold parseValue
  rw [if_neg hcons, ofList_fromUtf8Lossy_asBytes]
  simp only [hgroup, if_true, parseAttribute, ofList_fromUtf8Lossy_asBytes]
  simp [ParseState.names, hnone]

/-- The group of a printer adds its name. -/
lemma parseLoop_group (sha256 : Bytes → Vector UInt8 32) (upTime : ℤ) (address : String)
    {s : ParseState} (hlast : s.lastAttributeName ≠ "printer-name") {printer : PrinterEntry}
    (h : printer.Writable) (rest : Bytes) :
    ∃ t : ParseState, t.names = s.names ++ [String.ofList printer.name]
      ∧ t.lastAttributeName ≠ "printer-name"
      ∧ parseLoop address s ((printerGroup sha256 upTime false printer).bytes ++ rest)
        = parseLoop address t rest := by
  obtain ⟨hnone, hgroup⟩ := s.enterGroup_printer address
  have hlast' : (s.enterGroup address Tag.printerAttributes).lastAttributeName
      ≠ "printer-name" := by
    unfold ParseState.enterGroup
    simp only
    split_ifs <;> exact hlast
  obtain ⟨t, ht, hloop⟩ := parseLoop_quiet address (h.quiet_identity sha256) hlast'
    ((⟨Tag.name, "printer-name", asBytes (String.ofList printer.name)⟩ : Written).bytes
      ++ ((descriptionAttributes upTime printer false).flatMap Written.bytes ++ rest))
  obtain ⟨u, hu, hloop'⟩ := parseLoop_quiet_cons address
    (parseValue t (asBytes "printer-name") (asBytes (String.ofList printer.name)))
    (h.quiet_description upTime false)
    (show "printer-make-and-model" ≠ "" by decide) rest
  refine ⟨u, ?_, hu.lastAttributeName, ?_⟩
  · rw [hu.names, names_parseValue (ht.currentGroup.trans hgroup)
      (ht.currentPrinterName.trans hnone), ht.names, ParseState.names_enterGroup]
  · rw [Group.bytes, List.cons_append, parseLoop_delimiter _ _ (h.group_ok sha256 upTime false).1]
    simp only [printerGroup, List.flatMap_append, List.append_assoc, writeText,
      List.flatMap_singleton]
    rw [hloop, parseLoop_written _ _ h.ok_name]
    exact hloop'

end ShaPrint.Android
