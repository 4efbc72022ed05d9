import ShaPrint.Android.PageRanges
import ShaPrint.Lib.StepSystem

/-!
The print screen of the Android client, `features/print/PrintViewModel.kt`.

* `PrintUiState`: the document, the settings and the pages that the screen shows.
* `PrintOperation`, `printView`: what the user does on the screen, one operation after another.
* `submitPrintJob`: the job that is sent, or the state in which a job is refused.
* `Consistent`: in custom mode the error and the pages kept are those of the text shown.
* `pageRanges_are_printed`: page ranges mean what they say, from the text to the job.
-/

namespace ShaPrint.Android

open PageRangeParser

/-! ### The state -/

inductive PageRangeMode where
  | all
  | custom
  deriving DecidableEq, Repr

inductive PrintJobState where
  | idle
  | rasterizing
  | streaming
  | completed
  | failed
  deriving DecidableEq, Repr

structure PrintJobProgress where
  state : PrintJobState := .idle
  currentPage : ℤ := 0
  totalPages : ℤ := 0
  percentTransferred : ℤ := 0
  statusMessage : String := "Idle"
  isCompleted : Bool := state == .completed
  isFailed : Bool := state == .failed
  errorMessage : Option String := none
  deriving DecidableEq, Repr

structure PrintUiState where
  selectedPrinter : Option SharedPrinter := none
  documentName : String := "Sample-Document.pdf"
  documentUriString : Option String := none
  totalPages : ℤ := 1
  copies : ℤ := 1
  selectedMedia : RequestedMedia := .isoA4
  colorMode : PrintColorMode := .color
  duplexMode : DuplexMode := .oneSided
  orientation : PrintOrientation := .portrait
  fitToPage : Bool := true
  pageRangeMode : PageRangeMode := .all
  customPageRangeText : Chars := []
  pageRangeError : Option String := none
  selectedPageIndices : List ℤ := []
  documentRevision : Int64 := 0
  jobProgress : PrintJobProgress := {}
  deriving DecidableEq, Repr

namespace PrintUiState

def effectivePagesToPrint (s : PrintUiState) : List ℤ :=
  if s.pageRangeMode = .custom ∧ s.selectedPageIndices ≠ [] then s.selectedPageIndices
  else rangeUntil 0 s.totalPages

/-! ### The operations -/

def setPrinter (s : PrintUiState) (printer : SharedPrinter) : PrintUiState :=
  { s with
    selectedPrinter := some printer
    selectedMedia := printer.capabilities.supportedMedia.head?.getD .isoA4
    colorMode := printer.capabilities.supportedColorModes.head?.getD .color
    duplexMode := printer.capabilities.supportedDuplexModes.head?.getD .oneSided }

def selectDocument (s : PrintUiState) (name uriString : String) (pageCount : ℤ) : PrintUiState :=
  let total := max pageCount 1
  { s with
    documentName := name
    documentUriString := some uriString
    totalPages := total
    pageRangeMode := .all
    customPageRangeText := []
    pageRangeError := none
    selectedPageIndices := rangeUntil 0 total
    documentRevision := s.documentRevision + 1
    jobProgress := { state := .idle } }

def setPageRangeMode (s : PrintUiState) (mode : PageRangeMode) : PrintUiState :=
  if mode = .all then
    { s with
      pageRangeMode := mode
      pageRangeError := none
      selectedPageIndices := rangeUntil 0 s.totalPages }
  else
    match parse s.customPageRangeText s.totalPages with
    | .success pageIndices =>
        { s with pageRangeMode := mode, pageRangeError := none, selectedPageIndices := pageIndices }
    | .error message =>
        { s with
          pageRangeMode := mode
          pageRangeError := if s.customPageRangeText.all isWhitespace then none else some message
          selectedPageIndices := rangeUntil 0 s.totalPages }

def updateCustomPageRange (s : PrintUiState) (text : Chars) : PrintUiState :=
  match parse text s.totalPages with
  | .success pageIndices =>
      { s with
        customPageRangeText := text
        pageRangeError := none
        selectedPageIndices := pageIndices }
  | .error message =>
      { s with
        customPageRangeText := text
        pageRangeError := some message
        selectedPageIndices := [] }

/-- `coerceIn(minimumValue, maximumValue)`, which throws on an empty range. -/
def coerceIn (value minimumValue maximumValue : ℤ) : Option ℤ :=
  if maximumValue < minimumValue then none
  else if value < minimumValue then some minimumValue
  else if maximumValue < value then some maximumValue
  else some value

def maxCopies (s : PrintUiState) : ℤ :=
  (s.selectedPrinter.map fun printer => printer.capabilities.maxCopies).getD 99

/-- `none` where it throws. -/
def updateCopies (s : PrintUiState) (copies : ℤ) : Option PrintUiState :=
  (coerceIn copies 1 s.maxCopies).map fun copies => { s with copies }

end PrintUiState

inductive PrintOperation where
  | setPrinter (printer : SharedPrinter)
  | selectDocument (name uriString : String) (pageCount : ℤ)
  | setPageRangeMode (mode : PageRangeMode)
  | updateCustomPageRange (text : Chars)
  | updateCopies (copies : ℤ)
  | updateMedia (media : RequestedMedia)
  | updateColorMode (colorMode : PrintColorMode)
  | updateDuplexMode (duplexMode : DuplexMode)
  | updateOrientation (orientation : PrintOrientation)
  | updateFitToPage (fitToPage : Bool)
  /-- A job that was submitted reports how far it is. -/
  | progress (jobProgress : PrintJobProgress)

namespace PrintUiState

def step (s : PrintUiState) : PrintOperation → Option PrintUiState
  | .setPrinter printer => some (s.setPrinter printer)
  | .selectDocument name uriString pageCount => some (s.selectDocument name uriString pageCount)
  | .setPageRangeMode mode => some (s.setPageRangeMode mode)
  | .updateCustomPageRange text => some (s.updateCustomPageRange text)
  | .updateCopies copies => s.updateCopies copies
  | .updateMedia media => some { s with selectedMedia := media }
  | .updateColorMode colorMode => some { s with colorMode }
  | .updateDuplexMode duplexMode => some { s with duplexMode }
  | .updateOrientation orientation => some { s with orientation }
  | .updateFitToPage fitToPage => some { s with fitToPage }
  | .progress jobProgress => some { s with jobProgress }

end PrintUiState

/-- The screen from its start on. -/
def printView : StepSystem PrintUiState PrintOperation := ⟨{}, PrintUiState.step⟩

/-! ### Submissions -/

/-- What a submission sends, and the pages of the document that it is made of. -/
structure Submission where
  server : TrustedServer
  request : PrintJobRequest
  pages : List ℤ

namespace PrintUiState

/-- The screen after a job that is refused. -/
def refuse (s : PrintUiState) (message : String) : PrintUiState :=
  { s with jobProgress := { state := .failed, errorMessage := some message } }

/-- The job that is sent, with the trust store's answer for an address. -/
def submitPrintJob (s : PrintUiState)
    (findByCanonicalAddress : String → Option TrustedServer) :
    Except PrintUiState Submission :=
  match s.selectedPrinter with
  | none => .error (s.refuse "Please select a shared printer first.")
  | some printer =>
      if s.pageRangeMode = .custom ∧ s.pageRangeError.isSome then
        let pageRangeError := s.pageRangeError.getD ""
        .error (s.refuse s!"Invalid page range: {pageRangeError}")
      else if s.effectivePagesToPrint.length = 0 then
        .error (s.refuse "No pages selected to print.")
      else
        let address := printer.serverCanonicalAddress
        match findByCanonicalAddress address with
        | none => .error (s.refuse s!"Server {address} is not in your Trusted Servers store.")
        | some trustedServer => .ok {
            server := trustedServer
            request := {
              printerName := printer.name
              serverCanonicalAddress := printer.serverCanonicalAddress
              jobName := s.documentName
              copies := s.copies
              media := s.selectedMedia
              colorMode := s.colorMode
              duplexMode := s.duplexMode
              orientation := s.orientation
              fitToPage := s.fitToPage }
            pages := s.effectivePagesToPrint }

lemma pages_of_submitPrintJob {s : PrintUiState} {find : String → Option TrustedServer}
    {submission : Submission} (h : s.submitPrintJob find = .ok submission) :
    submission.pages = s.effectivePagesToPrint
      ∧ ¬(s.pageRangeMode = .custom ∧ s.pageRangeError.isSome) := by
  unfold submitPrintJob at h
  split at h
  · cases h
  · simp only at h
    split_ifs at h with herror
    split at h
    · cases h
    · cases h
      exact ⟨rfl, herror⟩

/-! ### The pages kept are those of the text shown -/

/-- The error and the pages kept are what the parser makes of the text shown. -/
def Shows (s : PrintUiState) : Prop :=
  (parse s.customPageRangeText s.totalPages = .success s.selectedPageIndices
      ∧ s.pageRangeError = none)
    ∨ ∃ message, parse s.customPageRangeText s.totalPages = .error message
        ∧ s.pageRangeError = some message

structure Consistent (s : PrintUiState) : Prop where
  total : 1 ≤ s.totalPages
  custom : s.pageRangeMode = .custom → s.Shows

lemma Consistent.selectDocument (s : PrintUiState) (name uriString : String) (pageCount : ℤ) :
    (s.selectDocument name uriString pageCount).Consistent where
  total := le_max_right pageCount 1
  custom := fun hmode => by cases hmode

lemma Consistent.setPageRangeMode {s : PrintUiState} (h : s.Consistent) (mode : PageRangeMode) :
    (s.setPageRangeMode mode).Consistent := by
  unfold PrintUiState.setPageRangeMode
  by_cases hall : mode = .all
  · rw [if_pos hall]
    exact ⟨h.total, fun hmode => by rw [hall] at hmode; cases hmode⟩
  · rw [if_neg hall]
    split
    · rename_i hparse
      exact ⟨h.total, fun _ => .inl ⟨hparse, rfl⟩⟩
    · rename_i message hparse
      have hblank : ¬s.customPageRangeText.all isWhitespace = true := fun hblank => by
        rw [parse_of_asksForAll h.total (asksForAll_of_blank hblank)] at hparse
        cases hparse
      exact ⟨h.total, fun _ => .inr ⟨message, hparse, if_neg hblank⟩⟩

lemma Consistent.updateCustomPageRange {s : PrintUiState} (h : s.Consistent) (text : Chars) :
    (s.updateCustomPageRange text).Consistent := by
  unfold PrintUiState.updateCustomPageRange
  split
  · rename_i hparse
    exact ⟨h.total, fun _ => .inl ⟨hparse, rfl⟩⟩
  · rename_i message hparse
    exact ⟨h.total, fun _ => .inr ⟨message, hparse, rfl⟩⟩

/-- One operation. -/
lemma Consistent.step {s t : PrintUiState} (h : s.Consistent) {op : PrintOperation}
    (hop : s.step op = some t) : t.Consistent := by
  cases op with
  | selectDocument name uriString pageCount =>
      cases hop
      exact .selectDocument s name uriString pageCount
  | setPageRangeMode mode =>
      cases hop
      exact h.setPageRangeMode mode
  | updateCustomPageRange text =>
      cases hop
      exact h.updateCustomPageRange text
  | updateCopies copies =>
      obtain ⟨copies, -, rfl⟩ := Option.map_eq_some_iff.mp hop
      exact ⟨h.total, h.custom⟩
  | _ =>
      cases hop
      exact ⟨h.total, h.custom⟩

lemma consistent_of_run {ops : List PrintOperation} {s : PrintUiState}
    (hrun : printView.run ops = some s) : s.Consistent := by
  refine StepSystem.invariant printView ?_ (fun s op t h hop => h.step hop) hrun
  exact ⟨le_refl 1, fun hmode => by cases hmode⟩

/-- A job in custom mode is made of the pages of the text shown, any other of all pages. -/
lemma Consistent.pages {s : PrintUiState} (h : s.Consistent)
    {find : String → Option TrustedServer} {submission : Submission}
    (hsubmit : s.submitPrintJob find = .ok submission) :
    (s.pageRangeMode = .custom →
      parse s.customPageRangeText s.totalPages = .success submission.pages)
      ∧ (s.pageRangeMode = .all → submission.pages = rangeUntil 0 s.totalPages) := by
  obtain ⟨hpages, hallowed⟩ := pages_of_submitPrintJob hsubmit
  rw [hpages]
  unfold effectivePagesToPrint
  constructor
  · intro hmode
    rcases h.custom hmode with ⟨hparse, -⟩ | ⟨message, -, herror⟩
    · rwa [if_pos ⟨hmode, (pages_of_parse h.total hparse).1⟩]
    · exact absurd ⟨hmode, by rw [herror]; rfl⟩ hallowed
  · intro hmode
    rw [if_neg fun hcustom => by rw [hmode] at hcustom; cases hcustom.1]

end PrintUiState

/-! ### Page ranges mean what they say -/

/-- **Page ranges mean what they say.** Pages that are formatted are read back. A text that is
read stands for pages of the document, and unless it asks for every page these are the pages
that its parts name; a part that is not blank and names none is an error. A job is made of the
pages of the text shown, or of every page. -/
theorem pageRanges_are_printed {n : ℤ} (hn : 1 ≤ n) (hmax : n ≤ 2147483647) :
    (∀ indices : List ℤ, indices ≠ [] → (∀ i ∈ indices, 0 ≤ i ∧ i < n) →
      ∃ l, parse (formatPageIndices indices) n = .success l ∧ l.Pairwise (· < ·)
        ∧ ∀ i, i ∈ l ↔ i ∈ indices)
    ∧ (∀ input, AsksForAll input → parse input n = .success (rangeUntil 0 n))
    ∧ (∀ input l, parse input n = .success l →
      l ≠ [] ∧ l.Pairwise (· < ·) ∧ (∀ i ∈ l, 0 ≤ i ∧ i < n)
        ∧ (¬AsksForAll input → ∀ i, i ∈ l ↔ Written n (parts input) i))
    ∧ (∀ input, ¬AsksForAll input → (∃ part ∈ parts input, ¬∃ p q, Within n part p q) →
      ∃ message, parse input n = .error message)
    ∧ ∀ ops s find submission, printView.run ops = some s →
      s.submitPrintJob find = .ok submission →
      (s.pageRangeMode = .custom →
        parse s.customPageRangeText s.totalPages = .success submission.pages)
      ∧ (s.pageRangeMode = .all → submission.pages = rangeUntil 0 s.totalPages) := by
  refine ⟨fun indices hne h => ?_, fun input hall => parse_of_asksForAll hn hall,
    fun input l hparse => ?_, fun input hall hpart => ?_,
    fun ops s find submission hrun hsubmit =>
      (PrintUiState.consistent_of_run hrun).pages hsubmit⟩
  · refine ⟨_, parse_formatPageIndices hmax hne h, pairwise_sorted (nodup_addAll List.nodup_nil),
      fun i => ?_⟩
    rw [List.mem_insertionSort, mem_addAll]
    exact or_iff_right List.not_mem_nil
  · obtain ⟨hne, hsorted, hrange⟩ := pages_of_parse hn hparse
    exact ⟨hne, hsorted, hrange, fun hall => ((parse_eq_success hn hall).mp hparse).2.2.2⟩
  · cases hparse : parse input n with
    | success l =>
        obtain ⟨part, hmem, hnone⟩ := hpart
        exact absurd (((parse_eq_success hn hall).mp hparse).2.1 part hmem) hnone
    | error message => exact ⟨message, rfl⟩

/-- A list with a repeat. -/
theorem threePages_are_printed :
    ∃ l, parse (formatPageIndices [2, 0, 2]) 3 = .success l ∧ l.Pairwise (· < ·)
      ∧ ∀ i, i ∈ l ↔ i ∈ [2, 0, 2] :=
  (pageRanges_are_printed (n := 3) (by decide) (by decide)).1 [2, 0, 2] (by decide) (by decide)

/-- A blank part between two commas is no page and no range, and the text is read. -/
theorem blank_part_skipped :
    ∃ part ∈ ("1,,2".toList.splitOn ',').map trim, (¬∃ p q, Within 2 part p q)
      ∧ parse "1,,2".toList 2 = .success [0, 1] := by
  refine ⟨[], by decide, ?_, by decide⟩
  rintro ⟨p, q, ⟨hnames, -, -, -⟩⟩
  generalize hpart : ([] : Chars) = part at hnames
  cases hnames with
  | page hdash hp =>
      rw [← hpart, toIntOrNull_nil] at hp
      cases hp
  | range => exact absurd hpart (by simp)

end ShaPrint.Android
