import ShaPrint.Text

/-!
Page sizes of a CUPS queue, from `adapters/queue_installation/cups.rs`: what a PPD file and
the output of `lpoptions -l` declare, and the default that is chosen of it.

* `mem_of_resolve`, `mem_of_extract`: a default that is chosen of a PPD is one of its choices.
-/

namespace ShaPrint.Queue

open Split

/-- The lines of a text. A carriage return before a line feed belongs to the line's end. -/
def textLines (text : Chars) : List Chars :=
  let parts := text.splitOn '\n'
  let ended := parts.dropLast.map fun line => (line.dropSuffix? ['\r']).getD line
  match parts.getLast? with
  | some [] | none => ended
  | some last => ended ++ [last]

/-- The words between white space. -/
def words (text : Chars) : List Chars := (text.splitOnP isWhitespace).filter (· ≠ [])

/-- A name at the end of a list, unless the list has it. -/
def pushNew (names : List Chars) (name : Chars) : List Chars :=
  if name ≠ [] ∧ name ∉ names then names ++ [name] else names

/-- One line of a PPD: the declared default and the choices so far. -/
def ppdLine (sizes : Option Chars × List Chars) (line : Chars) : Option Chars × List Chars :=
  let trimmed := trim line
  match trimmed.dropPrefix? "*DefaultPageSize:".toList with
  | some rest =>
      let val := trim rest
      if val ≠ [] && !eqIgnoreAsciiCase val "unknown".toList then (some val, sizes.2) else sizes
  | none =>
      match trimmed.dropPrefix? "*PageSize ".toList with
      | some rest =>
          let name := (rest.dropWhile isWhitespace).takeWhile fun c =>
            c ≠ '/' && c ≠ ':' && !isWhitespace c
          (sizes.1, pushNew sizes.2 name)
      | none => sizes

/-- The declared `*DefaultPageSize:` and all `*PageSize` choices of a PPD. -/
def parsePpdPagesizes (ppdContent : Chars) : Option Chars × List Chars :=
  (textLines ppdContent).foldl ppdLine (none, [])

def findSize (availableSizes : List Chars) (name : Chars) : Option Chars :=
  availableSizes.find? fun s => eqIgnoreAsciiCase s name

/-- The declared default, if it is one of the choices. -/
def extractValidDefaultPagesizeFromPpd (ppdContent : Chars) : Option Chars :=
  let sizes := parsePpdPagesizes ppdContent
  sizes.1.bind (findSize sizes.2)

def fallbackCandidates : List Chars :=
  ["A4.Borderless".toList, "A4".toList, "Letter.Borderless".toList, "Letter".toList]

/-- A common default among the choices, or the first of them. -/
def fallbackSize (availableSizes : List Chars) : Option Chars :=
  (fallbackCandidates.findSome? (findSize availableSizes)).or availableSizes.head?

/-- The declared default among the choices, with or without its `.Borderless` suffix. -/
def declaredSize (availableSizes : List Chars) (name : Chars) : Option Chars :=
  (findSize availableSizes name).or <|
    (findSize availableSizes (name ++ ".Borderless".toList)).or <|
      (name.dropSuffix? ".Borderless".toList).bind (findSize availableSizes)

def resolveDefaultPagesizeFromPpd (ppdContent : Chars) : Option Chars :=
  let sizes := parsePpdPagesizes ppdContent
  if sizes.2 = [] then none
  else (sizes.1.bind (declaredSize sizes.2)).or (fallbackSize sizes.2)

lemma mem_of_findSize {availableSizes : List Chars} {name size : Chars}
    (h : findSize availableSizes name = some size) : size ∈ availableSizes :=
  List.mem_of_find?_eq_some h

theorem mem_of_extract {ppdContent size : Chars}
    (h : extractValidDefaultPagesizeFromPpd ppdContent = some size) :
    size ∈ (parsePpdPagesizes ppdContent).2 := by
  obtain ⟨name, -, hname⟩ := Option.bind_eq_some_iff.mp h
  exact mem_of_findSize hname

theorem mem_of_resolve {ppdContent size : Chars}
    (h : resolveDefaultPagesizeFromPpd ppdContent = some size) :
    size ∈ (parsePpdPagesizes ppdContent).2 := by
  unfold resolveDefaultPagesizeFromPpd at h
  dsimp only at h
  split at h
  · cases h
  rcases Option.or_eq_some_iff.mp h with h | ⟨-, h⟩
  · obtain ⟨name, -, hname⟩ := Option.bind_eq_some_iff.mp h
    rcases Option.or_eq_some_iff.mp hname with hname | ⟨-, hname⟩
    · exact mem_of_findSize hname
    rcases Option.or_eq_some_iff.mp hname with hname | ⟨-, hname⟩
    · exact mem_of_findSize hname
    · obtain ⟨stripped, -, hstripped⟩ := Option.bind_eq_some_iff.mp hname
      exact mem_of_findSize hstripped
  · rcases Option.or_eq_some_iff.mp h with h | ⟨-, h⟩
    · obtain ⟨candidate, -, hcandidate⟩ := List.exists_of_findSome?_eq_some h
      exact mem_of_findSize hcandidate
    · exact List.mem_of_mem_head? h

/-- One choice of `lpoptions -l`: the active one has a star. -/
def lpoptionsChoice (sizes : Option Chars × List Chars) (choice : Chars) :
    Option Chars × List Chars :=
  let active := match choice.dropPrefix? ['*'] with
    | some active => if active ≠ [] then some active else sizes.1
    | none => sizes.1
  (active, pushNew sizes.2 (choice.dropWhile (· == '*')))

/-- The choices of a line of `lpoptions -l`, if it is the line of the page sizes. -/
def lpoptionsLine (line : Chars) : Option Chars :=
  if "PageSize/".toList.isPrefixOf line || "PageSize:".toList.isPrefixOf line then
    (splitOnce line [':']).map (·.2)
  else none

def resolveDefaultPagesizeFromLpoptions (lpoptionsOutput : Chars) : Option Chars :=
  ((textLines lpoptionsOutput).findSome? lpoptionsLine).bind fun choices =>
    let sizes := (words choices).foldl lpoptionsChoice (none, [])
    sizes.1.or (fallbackSize sizes.2)

end ShaPrint.Queue
