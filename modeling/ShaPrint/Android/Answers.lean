import ShaPrint.Android.IppGroups
import ShaPrint.Android.PrintView

/-!
What the answer of a server can do to the print screen: `parseResponse` of
`core/ipp/IppMessage.kt`, then `setPrinter` and `updateCopies` of
`features/print/PrintViewModel.kt`.

* `Own`, `Possible`: a printer whose lists come from its own group, and whose copies can be set.
* `Harmless`: the answer is read, and every printer in it is possible.
* `Section.Clean`: the copies of a section are between 1 and 999, and the groups without a name
  before it name nothing that it does not name itself.
* `harmless_iff`: an answer is harmless exactly if its sections are clean.
-/

namespace ShaPrint.Android

open Ipp PrintUiState

/-! ### Lists -/

/-- A list that is not empty and has only what was named, or the default where nothing was. -/
structure Own {α : Type*} (fallback : α) (named xs : List α) : Prop where
  ne_nil : xs ≠ []
  own : ∀ x ∈ xs, x ∈ named ∨ named = [] ∧ x = fallback

section Lists

variable {α : Type*} [DecidableEq α] {fallback : α} {named before own : List α} {x : α}

lemma offered_ne_nil : offered fallback named ≠ [] := by
  unfold offered
  split_ifs with h
  · exact h
  · exact List.cons_ne_nil _ _

lemma mem_offered : x ∈ offered fallback named ↔ x ∈ named ∨ named = [] ∧ x = fallback := by
  have hmem : ∀ y, y ∈ addAll [] named ↔ y ∈ named := fun y =>
    mem_addAll.trans (or_iff_right List.not_mem_nil)
  unfold offered
  split_ifs with h
  · obtain ⟨y, hy⟩ := List.exists_mem_of_ne_nil _ h
    have hne : named ≠ [] := List.ne_nil_of_mem ((hmem y).mp hy)
    rw [hmem]
    exact ⟨.inl, fun hx => hx.resolve_right fun hnil => hne hnil.1⟩
  · have hnil : named = [] := List.eq_nil_iff_forall_not_mem.mpr fun y hy =>
      h (List.ne_nil_of_mem ((hmem y).mpr hy))
    rw [hnil, List.mem_singleton]
    exact ⟨fun hx => .inr ⟨rfl, hx⟩, fun hx => (hx.resolve_left List.not_mem_nil).2⟩

/-- What comes before does no harm if it is named again. -/
lemma own_offered_iff : Own fallback own (offered fallback (before ++ own))
    ↔ ∀ x ∈ before, x ∈ own ∨ own = [] ∧ x = fallback := by
  constructor
  · intro h x hx
    exact h.own x (mem_offered.mpr (.inl (List.mem_append_left own hx)))
  · refine fun h => ⟨offered_ne_nil, fun x hx => ?_⟩
    rcases mem_offered.mp hx with hx | ⟨hnil, hx⟩
    · rcases List.mem_append.mp hx with hx | hx
      · exact h x hx
      · exact .inl hx
    · exact .inr ⟨(List.append_eq_nil_iff.mp hnil).2, hx⟩

lemma own_named_iff {f : Entry → Option α} {before own : List Entry} :
    Own fallback (own.filterMap f) (offered fallback ((before ++ own).filterMap f))
      ↔ ∀ x ∈ before.filterMap f,
        x ∈ own.filterMap f ∨ own.filterMap f = [] ∧ x = fallback := by
  rw [List.filterMap_append]
  exact own_offered_iff

end Lists

/-! ### Copies -/

/-- Every number of copies can be asked for, and the job has between 1 and 999 of them. -/
def CopiesInRange (printer : SharedPrinter) : Prop :=
  ∀ (s : PrintUiState) (copies : ℤ), ∃ t,
    (s.setPrinter printer).updateCopies copies = some t ∧ 1 ≤ t.copies ∧ t.copies ≤ 999

lemma copiesInRange_iff {printer : SharedPrinter} : CopiesInRange printer
    ↔ 1 ≤ printer.capabilities.maxCopies ∧ printer.capabilities.maxCopies ≤ 999 := by
  have hmax : ∀ s : PrintUiState, (s.setPrinter printer).maxCopies
      = printer.capabilities.maxCopies := fun s => rfl
  constructor
  · intro h
    obtain ⟨t, ht, hlow, hhigh⟩ := h {} printer.capabilities.maxCopies
    obtain ⟨copies, hcopies, rfl⟩ := Option.map_eq_some_iff.mp ht
    rw [hmax, coerceIn] at hcopies
    by_cases hempty : printer.capabilities.maxCopies < 1
    · rw [if_pos hempty] at hcopies
      cases hcopies
    · rw [if_neg hempty, if_neg hempty, if_neg (lt_irrefl _)] at hcopies
      cases hcopies
      exact ⟨hlow, hhigh⟩
  · rintro ⟨hlow, hhigh⟩ s copies
    have hcoerce : ∃ n, coerceIn copies 1 printer.capabilities.maxCopies = some n ∧ 1 ≤ n
        ∧ n ≤ 999 := by
      rw [coerceIn, if_neg (by omega)]
      split_ifs with hsmall hlarge
      · exact ⟨1, rfl, by omega, by omega⟩
      · exact ⟨_, rfl, hlow, hhigh⟩
      · exact ⟨copies, rfl, by omega, by omega⟩
    obtain ⟨n, hn, hn1, hn999⟩ := hcoerce
    refine ⟨{ s.setPrinter printer with copies := n }, ?_, hn1, hn999⟩
    rw [updateCopies, hmax, hn]
    rfl

/-! ### Answers -/

/-- A printer for which every job is possible, with the values of its own group. -/
structure Possible (own : List Entry) (printer : SharedPrinter) : Prop where
  media : Own .isoA4 (own.filterMap namedMedia) printer.capabilities.supportedMedia
  colorModes : Own .color (own.filterMap namedColorMode) printer.capabilities.supportedColorModes
  duplexModes :
    Own .oneSided (own.filterMap namedDuplexMode) printer.capabilities.supportedDuplexModes
  copies : CopiesInRange printer

/-- The reader returns, and every printer is possible with the values of its own group. -/
def Harmless (data : Bytes) (serverCanonicalAddress : String) : Prop :=
  ∃ response, IppMessage.parseResponse data serverCanonicalAddress = .ok response
    ∧ List.Forall₂ Possible ((sections data).map Section.own) response.printers

/-- The copies are in range, and the groups before it that have no name name nothing new. -/
structure Section.Clean (sec : Section) : Prop where
  media : ∀ m ∈ sec.before.filterMap namedMedia,
    m ∈ sec.own.filterMap namedMedia ∨ sec.own.filterMap namedMedia = [] ∧ m = .isoA4
  colorModes : ∀ m ∈ sec.before.filterMap namedColorMode,
    m ∈ sec.own.filterMap namedColorMode ∨ sec.own.filterMap namedColorMode = [] ∧ m = .color
  duplexModes : ∀ m ∈ sec.before.filterMap namedDuplexMode,
    m ∈ sec.own.filterMap namedDuplexMode ∨ sec.own.filterMap namedDuplexMode = [] ∧ m = .oneSided
  copies : 1 ≤ copiesOf (sec.before ++ sec.own) ∧ copiesOf (sec.before ++ sec.own) ≤ 999

lemma possible_iff_clean (sec : Section) (serverCanonicalAddress : String) :
    Possible sec.own (sec.printer serverCanonicalAddress) ↔ sec.Clean :=
  ⟨fun h => ⟨own_named_iff.mp h.media, own_named_iff.mp h.colorModes,
      own_named_iff.mp h.duplexModes, copiesInRange_iff.mp h.copies⟩,
    fun h => ⟨own_named_iff.mpr h.media, own_named_iff.mpr h.colorModes,
      own_named_iff.mpr h.duplexModes, copiesInRange_iff.mpr h.copies⟩⟩

/-- **An answer is harmless exactly if its sections are clean.** -/
theorem harmless_iff (data : Bytes) (serverCanonicalAddress : String) :
    Harmless data serverCanonicalAddress ↔ ∀ sec ∈ sections data, sec.Clean := by
  have hprinters := printers_parseResponse data serverCanonicalAddress
  have hreturns := IppMessage.parseResponse_eq_ok data serverCanonicalAddress
  have hall : List.Forall₂ Possible ((sections data).map Section.own)
      ((sections data).map (Section.printer · serverCanonicalAddress))
      ↔ ∀ sec ∈ sections data, sec.Clean := by
    rw [List.forall₂_map_left_iff, List.forall₂_map_right_iff, List.forall₂_same]
    exact forall₂_congr fun sec _ => possible_iff_clean sec serverCanonicalAddress
  unfold Harmless
  rw [hreturns, ← hall, ← hprinters]
  constructor
  · rintro ⟨response, heq, h⟩
    rwa [← Except.ok.inj heq] at h
  · exact fun h => ⟨_, rfl, h⟩

/-! ### An answer that crashes the screen -/

/-- A printer that allows no copy. -/
def noCopies : List Written :=
  [⟨Tag.name, "printer-name", asBytes "A"⟩, ⟨Tag.integer, "copies-supported", [0, 0, 0, 0]⟩]

/-- Its listing. -/
def noCopiesAnswer : Bytes :=
  [2, 0, 0, 0, 0, 0, 0, 1] ++ Tag.printerAttributes ::
    (noCopies.flatMap Written.bytes ++ [Tag.endOfAttributes])

/-- With the printer of this answer the screen throws at the first change of the copies. -/
theorem noCopies_throws : ∃ response printer,
    IppMessage.parseResponse noCopiesAnswer "server:631" = .ok response
      ∧ response.printers = [printer]
      ∧ (({} : PrintUiState).setPrinter printer).updateCopies 1 = none := by
  refine ⟨_, ⟨"A", "server:631", true, ⟨[.isoA4], [.color], [.oneSided], 0⟩⟩,
    IppMessage.parseResponse_eq_ok _ _, ?_, by decide⟩
  have hloop : (parseResponse noCopiesAnswer "server:631").printers
      = (parseLoop "server:631" .new (Tag.printerAttributes ::
          (noCopies.flatMap Written.bytes ++ [Tag.endOfAttributes]))).printers := rfl
  rw [hloop, parseLoop_delimiter _ _ (by decide), noCopies, List.flatMap_cons, List.flatMap_cons,
    List.flatMap_nil, List.append_nil, List.append_assoc, parseLoop_written _ _ (by decide),
    parseLoop_written _ _ (by decide), parseLoop_end]
  decide

end ShaPrint.Android
