import Mathlib.Data.List.Sort
import ShaPrint.Android.Server
import ShaPrint.Lib.Digits

/-!
Page ranges, `features/print/PageRangeParser.kt`: the text a user writes for the pages to
print, and the text that stands for pages.

* `toIntOrNull`, `parsePart`, `parse`: the parser, with the texts of its errors.
* `formatPageIndices`: the formatter, which joins consecutive pages to a range.
* `Names`, `Within`, `parts`: what a text says.
* `parse_eq_success`: a text is read if every part of it names pages of the document.
* `parse_formatPageIndices`: a formatted list of pages is read back.
-/

namespace ShaPrint.Android

inductive PageRangeResult where
  | success (pageIndices : List ℤ)
  | error (message : String)
  deriving DecidableEq, Repr

namespace PageRangeParser

/-! ### Numbers -/

/-- The zeros of the decimal digits of the Basic Multilingual Plane. The other nine digits
follow each of them. -/
def digitZeros : List ℕ :=
  [0x30, 0x660, 0x6f0, 0x7c0, 0x966, 0x9e6, 0xa66, 0xae6, 0xb66, 0xbe6, 0xc66, 0xce6, 0xd66, 0xde6,
    0xe50, 0xed0, 0xf20, 0x1040, 0x1090, 0x17e0, 0x1810, 0x1946, 0x19d0, 0x1a80, 0x1a90, 0x1b50,
    0x1bb0, 0x1c40, 0x1c50, 0xa620, 0xa8d0, 0xa900, 0xa9d0, 0xa9f0, 0xaa50, 0xabf0, 0xff10]

/-- `Character.digit` in base ten. -/
def digitOf (c : Char) : Option ℕ :=
  (digitZeros.find? fun first => first ≤ c.toNat && c.toNat < first + 10).map (c.toNat - ·)

def valueOf (digits : Chars) : Option ℕ :=
  digits.foldlM (fun value c => (digitOf c).map (value * 10 + ·)) 0

/-- `String.toIntOrNull` -/
def toIntOrNull (s : Chars) : Option ℤ :=
  match s with
  | [] => none
  | first :: rest =>
      if first < '0' then
        if rest = [] then none
        else if first = '-' then
          ((valueOf rest).filter (· ≤ 2147483648)).map fun (n : ℕ) => -(n : ℤ)
        else if first = '+' then ((valueOf rest).filter (· ≤ 2147483647)).map fun (n : ℕ) => (n : ℤ)
        else none
      else ((valueOf (first :: rest)).filter (· ≤ 2147483647)).map fun (n : ℕ) => (n : ℤ)

/-- A number of 32 bits in decimal digits. -/
def decimal (n : ℤ) : Chars :=
  if n < 0 then '-' :: Digits.decimal n.natAbs else Digits.decimal n.toNat

/-- The numbers from `a` on that are below `b`. -/
def rangeUntil (a b : ℤ) : List ℤ := (List.range (b - a).toNat).map fun (k : ℕ) => a + (k : ℤ)

/-! ### The parser -/

/-- Kotlin's `trim`. -/
def trim (s : Chars) : Chars := Split.trimBoth isWhitespace s

/-- The indices of the pages that a part names, or the text of the error. -/
def parsePart (safeTotal : ℤ) (part : Chars) : Except String (List ℤ) :=
  let shown := String.ofList part
  if '-' ∈ part then
    match (part.splitOn '-').map trim with
    | [first, last] =>
        if first = [] ∨ last = [] then .error s!"Invalid range format: '{shown}'. Example: 1-3"
        else
          match toIntOrNull first, toIntOrNull last with
          | none, _ => .error s!"Invalid start page in '{shown}'"
          | some _, none => .error s!"Invalid end page in '{shown}'"
          | some start, some fin =>
              if start < 1 then .error s!"Page number must be 1 or greater ({start})"
              else if fin < start then
                .error s!"Range start ({start}) cannot be greater than end ({fin})"
              else if safeTotal < fin then
                .error s!"Page {fin} exceeds document total of {safeTotal} page(s)"
              else .ok (rangeUntil (start - 1) fin)
    | _ => .error s!"Invalid range format: '{shown}'. Example: 1-3"
  else
    match toIntOrNull part with
    | none => .error s!"Invalid page number: '{shown}'"
    | some page =>
        if page < 1 then .error s!"Page number must be 1 or greater ({page})"
        else if safeTotal < page then
          .error s!"Page {page} exceeds document total of {safeTotal} page(s)"
        else .ok [page - 1]

/-- The loop over the parts. A part that is blank is skipped. -/
def parseParts (safeTotal : ℤ) : List Chars → List ℤ → Except String (List ℤ)
  | [], resultIndices => .ok resultIndices
  | rawPart :: parts, resultIndices =>
      let part := trim rawPart
      if part = [] then parseParts safeTotal parts resultIndices
      else
        match parsePart safeTotal part with
        | .error message => .error message
        | .ok indices => parseParts safeTotal parts (addAll resultIndices indices)

def parse (input : Chars) (totalPages : ℤ) : PageRangeResult :=
  let safeTotal := max totalPages 1
  let trimmed := trim input
  if trimmed = [] ∨ equalsIgnoreCase "all" (String.ofList trimmed) = true then
    .success (rangeUntil 0 safeTotal)
  else
    match parseParts safeTotal (trimmed.splitOn ',') [] with
    | .error message => .error message
    | .ok resultIndices =>
        if resultIndices = [] then .error "Please specify at least one page to print"
        else .success (resultIndices.insertionSort (· ≤ ·))

/-! ### The formatter -/

def formatRange (start fin : ℤ) : Chars :=
  if start = fin then decimal start else decimal start ++ '-' :: decimal fin

/-- The loop over the pages after the first, with the range that is open. -/
def formatRanges (start fin : ℤ) : List ℤ → List Chars
  | [] => [formatRange start fin]
  | current :: rest =>
      if current = wrapInt (fin + 1) then formatRanges start current rest
      else formatRange start fin :: formatRanges current current rest

def formatPageIndices (indices : List ℤ) : Chars :=
  match ((addAll [] indices).insertionSort (· ≤ ·)).map fun i => wrapInt (i + 1) with
  | [] => []
  | first :: rest => ", ".toList.intercalate (formatRanges first first rest)

/-! ### What a text says -/

/-- The text asks for every page. -/
def AsksForAll (input : Chars) : Prop :=
  trim input = [] ∨ equalsIgnoreCase "all" (String.ofList (trim input)) = true

/-- The parts that are not blank, without the white space around them. -/
def kept (rawParts : List Chars) : List Chars := (rawParts.map trim).filter (· ≠ [])

/-- The parts of a text that are not blank. -/
def parts (input : Chars) : List Chars := kept ((trim input).splitOn ',')

/-- A part names a page, or the first and the last page of a range. -/
inductive Names : Chars → ℤ → ℤ → Prop where
  | page {part : Chars} {p : ℤ} (hdash : '-' ∉ part) (hp : toIntOrNull part = some p) :
      Names part p p
  | range {first last : Chars} {p q : ℤ} (hfirst : '-' ∉ first) (hlast : '-' ∉ last)
      (hp : toIntOrNull (trim first) = some p) (hq : toIntOrNull (trim last) = some q) :
      Names (first ++ '-' :: last) p q

/-- A part names an ascending range of pages of a document of `n` pages. One page is a range
from itself to itself. -/
structure Within (n : ℤ) (part : Chars) (p q : ℤ) : Prop where
  names : Names part p q
  pos : 1 ≤ p
  ascending : p ≤ q
  le : q ≤ n

/-! ### Lists of pages -/

lemma mem_rangeUntil {a b i : ℤ} : i ∈ rangeUntil a b ↔ a ≤ i ∧ i < b := by
  unfold rangeUntil
  rw [List.mem_map]
  constructor
  · rintro ⟨k, hk, rfl⟩
    have hk := List.mem_range.mp hk
    omega
  · rintro ⟨ha, hb⟩
    exact ⟨(i - a).toNat, List.mem_range.mpr (by omega), by omega⟩

lemma pairwise_rangeUntil (a b : ℤ) : (rangeUntil a b).Pairwise (· < ·) := by
  unfold rangeUntil
  rw [List.pairwise_map]
  exact List.pairwise_lt_range.imp fun h => by omega

lemma rangeUntil_singleton (p : ℤ) : rangeUntil (p - 1) p = [p - 1] := by
  have hone : (p - (p - 1)).toNat = 1 := by omega
  unfold rangeUntil
  rw [hone]
  simp

/-- Sorting distinct values makes them strictly increasing. -/
lemma pairwise_sorted {l : List ℤ} (h : l.Nodup) :
    (l.insertionSort (· ≤ ·)).Pairwise (· < ·) := by
  have hnodup : (l.insertionSort (· ≤ ·)).Nodup := (List.perm_insertionSort _ l).nodup_iff.mpr h
  exact (List.pairwise_insertionSort (· ≤ ·) l).imp₂ (fun _ _ hle hne => lt_of_le_of_ne hle hne)
    hnodup

/-- Two strictly increasing lists of the same values are equal. -/
lemma eq_of_pairwise_lt {l l' : List ℤ} (h : l.Pairwise (· < ·)) (h' : l'.Pairwise (· < ·))
    (hmem : ∀ i, i ∈ l ↔ i ∈ l') : l = l' := by
  have hperm : l.Perm l' :=
    (List.perm_ext_iff_of_nodup (h.imp ne_of_lt) (h'.imp ne_of_lt)).mpr hmem
  exact hperm.eq_of_pairwise (fun _ _ _ _ hab hba => absurd hab (lt_asymm hba)) h h'

/-! ### The parser reads what a text says -/

lemma toIntOrNull_nil : toIntOrNull [] = none := rfl

/-- A dash splits a range in two if there is no other. -/
lemma splitOn_dash {part : Chars} (h : '-' ∈ part) {a b : Chars}
    (hsplit : (part.splitOn '-').map trim = [a, b]) :
    ∃ first last, part = first ++ '-' :: last ∧ '-' ∉ first ∧ '-' ∉ last ∧ trim first = a
      ∧ trim last = b := by
  obtain ⟨first, last, rfl, hfirst⟩ := List.eq_append_cons_of_mem h
  rw [Split.splitOn_append_cons hfirst, List.map_cons] at hsplit
  obtain ⟨ha, hrest⟩ := List.cons.inj hsplit
  have hlast : '-' ∉ last := by
    intro hmem
    obtain ⟨middle, rest, rfl, hmiddle⟩ := List.eq_append_cons_of_mem hmem
    rw [Split.splitOn_append_cons hmiddle, List.map_cons] at hrest
    exact Split.splitOn_ne_nil (List.map_eq_nil_iff.mp (List.cons.inj hrest).2)
  rw [Split.splitOn_of_not_mem hlast] at hrest
  exact ⟨first, last, rfl, hfirst, hlast, ha, (List.cons.inj hrest).1⟩

lemma exists_within_of_parsePart {n : ℤ} {part : Chars} {l : List ℤ}
    (h : parsePart n part = .ok l) : ∃ p q, Within n part p q ∧ l = rangeUntil (p - 1) q := by
  unfold parsePart at h
  simp only at h
  split at h
  · rename_i hdash
    split at h
    · rename_i a b hsplit
      obtain ⟨first, last, rfl, hfirst, hlast, rfl, rfl⟩ := splitOn_dash hdash hsplit
      split at h
      · cases h
      · split at h
        · cases h
        · cases h
        · rename_i p q hp hq
          split_ifs at h with hpos hasc hle
          cases h
          exact ⟨p, q, ⟨.range hfirst hlast hp hq, by omega, by omega, by omega⟩, rfl⟩
    · cases h
  · rename_i hdash
    split at h
    · cases h
    · rename_i p hp
      split_ifs at h with hpos hle
      cases h
      exact ⟨p, p, ⟨.page hdash hp, by omega, le_refl p, by omega⟩, (rangeUntil_singleton p).symm⟩

lemma parsePart_of_within {n : ℤ} {part : Chars} {p q : ℤ} (h : Within n part p q) :
    parsePart n part = .ok (rangeUntil (p - 1) q) := by
  obtain ⟨hnames, hpos, hasc, hle⟩ := h
  unfold parsePart
  cases hnames with
  | page hdash hp =>
      simp only [if_neg hdash, hp, if_neg (not_lt.mpr hpos), if_neg (not_lt.mpr hle),
        rangeUntil_singleton]
  | @range first last _ _ hfirst hlast hp hq =>
      have hdash : '-' ∈ first ++ '-' :: last := by simp
      have hne : ¬(trim first = [] ∨ trim last = []) := by
        rintro (hnil | hnil)
        · rw [hnil, toIntOrNull_nil] at hp
          cases hp
        · rw [hnil, toIntOrNull_nil] at hq
          cases hq
      simp only [if_pos hdash, Split.splitOn_append_cons hfirst, Split.splitOn_of_not_mem hlast,
        List.map_cons, List.map_nil, if_neg hne, hp, hq, if_neg (not_lt.mpr hpos),
        if_neg (not_lt.mpr hasc), if_neg (not_lt.mpr hle)]

/-- A page of the document is named by one of the parts. -/
def Written (n : ℤ) (parts : List Chars) (i : ℤ) : Prop :=
  ∃ part ∈ parts, ∃ p q, Within n part p q ∧ p ≤ i + 1 ∧ i + 1 ≤ q

lemma written_cons {n : ℤ} {part : Chars} {parts : List Chars} {p q i : ℤ}
    (h : Within n part p q) :
    Written n (part :: parts) i ↔ i ∈ rangeUntil (p - 1) q ∨ Written n parts i := by
  unfold Written
  rw [List.exists_mem_cons_iff, mem_rangeUntil]
  refine or_congr_left ⟨?_, fun hi => ⟨p, q, h, by omega, by omega⟩⟩
  rintro ⟨p', q', h', hp, hq⟩
  -- the part names one range only
  have hok := (parsePart_of_within h).symm.trans (parsePart_of_within h')
  have hsame : rangeUntil (p - 1) q = rangeUntil (p' - 1) q' := by injection hok
  rw [← mem_rangeUntil, hsame, mem_rangeUntil]
  omega

lemma written_map {n i : ℤ} {text : ℤ × ℤ → Chars} {rs : List (ℤ × ℤ)}
    (h : ∀ r ∈ rs, Within n (text r) r.1 r.2) :
    Written n (rs.map text) i ↔ ∃ r ∈ rs, r.1 ≤ i + 1 ∧ i + 1 ≤ r.2 := by
  induction rs with
  | nil => simp [Written]
  | cons r rs ih =>
      rw [List.map_cons, written_cons (h r List.mem_cons_self),
        ih fun r hr => h r (List.mem_cons_of_mem _ hr), List.exists_mem_cons_iff, mem_rangeUntil]
      exact or_congr_left ⟨fun hi => by omega, fun hi => by omega⟩

/-- The loop adds the pages that the parts name. -/
lemma parseParts_eq_ok {n : ℤ} {rawParts : List Chars} {acc r : List ℤ}
    (h : parseParts n rawParts acc = .ok r) :
    (∀ part ∈ kept rawParts, ∃ p q, Within n part p q) ∧ (acc.Nodup → r.Nodup)
      ∧ ∀ i, i ∈ r ↔ i ∈ acc ∨ Written n (kept rawParts) i := by
  induction rawParts generalizing acc with
  | nil =>
      cases h
      refine ⟨fun part hpart => absurd hpart (by simp [kept]), id, fun i => ?_⟩
      simp [kept, Written]
  | cons rawPart rawParts ih =>
      rw [parseParts] at h
      by_cases hblank : trim rawPart = []
      · have hkept : kept (rawPart :: rawParts) = kept rawParts := by
          unfold kept
          rw [List.map_cons, List.filter_cons_of_neg (by simpa using hblank)]
        rw [hkept]
        exact ih (by simpa only [if_pos hblank] using h)
      · have hkept : kept (rawPart :: rawParts) = trim rawPart :: kept rawParts := by
          unfold kept
          rw [List.map_cons, List.filter_cons_of_pos (by simpa using hblank)]
        rw [hkept]
        simp only [if_neg hblank] at h
        split at h
        · cases h
        · rename_i indices hpart
          obtain ⟨p, q, hwithin, rfl⟩ := exists_within_of_parsePart hpart
          obtain ⟨hall, hnodup, hmem⟩ := ih h
          refine ⟨?_, fun hacc => hnodup (nodup_addAll hacc), fun i => ?_⟩
          · rintro part (_ | ⟨_, hpart⟩)
            · exact ⟨p, q, hwithin⟩
            · exact hall part hpart
          · rw [hmem, mem_addAll, written_cons hwithin, or_assoc]

/-- The loop stops at no part that names pages of the document. -/
lemma exists_parseParts {n : ℤ} {rawParts : List Chars} (acc : List ℤ)
    (h : ∀ part ∈ kept rawParts, ∃ p q, Within n part p q) :
    ∃ r, parseParts n rawParts acc = .ok r := by
  induction rawParts generalizing acc with
  | nil => exact ⟨acc, rfl⟩
  | cons rawPart rawParts ih =>
      rw [parseParts]
      by_cases hblank : trim rawPart = []
      · have hkept : kept (rawPart :: rawParts) = kept rawParts := by
          unfold kept
          rw [List.map_cons, List.filter_cons_of_neg (by simpa using hblank)]
        simp only [if_pos hblank]
        exact ih acc (hkept ▸ h)
      · have hkept : kept (rawPart :: rawParts) = trim rawPart :: kept rawParts := by
          unfold kept
          rw [List.map_cons, List.filter_cons_of_pos (by simpa using hblank)]
        rw [hkept] at h
        obtain ⟨p, q, hwithin⟩ := h _ List.mem_cons_self
        simp only [if_neg hblank, parsePart_of_within hwithin]
        exact ih _ fun part hpart => h part (List.mem_cons_of_mem _ hpart)

lemma parse_of_asksForAll {input : Chars} {n : ℤ} (hn : 1 ≤ n) (h : AsksForAll input) :
    parse input n = .success (rangeUntil 0 n) := by
  unfold parse
  rw [max_eq_left hn]
  exact if_pos h

/-- **What a text is read as.** Every part that is not blank names pages of the document, there
is one, and the pages are those that the parts name, each once and in order. -/
theorem parse_eq_success {input : Chars} {n : ℤ} (hn : 1 ≤ n) (h : ¬AsksForAll input)
    {l : List ℤ} : parse input n = .success l ↔
      parts input ≠ [] ∧ (∀ part ∈ parts input, ∃ p q, Within n part p q)
        ∧ l.Pairwise (· < ·) ∧ ∀ i, i ∈ l ↔ Written n (parts input) i := by
  have hsome : ¬(trim input = [] ∨ equalsIgnoreCase "all" (String.ofList (trim input)) = true) := h
  unfold parse
  simp only [max_eq_left hn]
  rw [if_neg hsome]
  constructor
  · intro hparse
    split at hparse
    · cases hparse
    · rename_i r hr
      obtain ⟨hall, hnodup, hmem⟩ := parseParts_eq_ok hr
      split_ifs at hparse with hnil
      cases hparse
      refine ⟨?_, hall, pairwise_sorted (hnodup List.nodup_nil), fun i => ?_⟩
      · intro hnone
        obtain ⟨i, hi⟩ := List.exists_mem_of_ne_nil r hnil
        obtain ⟨part, hpart, -⟩ := ((hmem i).mp hi).resolve_left List.not_mem_nil
        have hpart : part ∈ parts input := hpart
        rw [hnone] at hpart
        cases hpart
      · rw [List.mem_insertionSort, hmem]
        exact or_iff_right List.not_mem_nil
  · rintro ⟨hne, hall, hsorted, hmem⟩
    obtain ⟨r, hr⟩ := exists_parseParts [] hall
    obtain ⟨-, hnodup, hmem'⟩ := parseParts_eq_ok hr
    have hr' : ∀ i, i ∈ r ↔ Written n (parts input) i := fun i =>
      (hmem' i).trans (or_iff_right List.not_mem_nil)
    have hnil : r ≠ [] := by
      obtain ⟨part, hpart⟩ := List.exists_mem_of_ne_nil _ hne
      obtain ⟨p, q, hwithin⟩ := hall part hpart
      have hasc := hwithin.ascending
      have hp : p - 1 ∈ r := (hr' _).mpr ⟨part, hpart, p, q, hwithin, by omega, by omega⟩
      exact List.ne_nil_of_mem hp
    simp only [hr, if_neg hnil]
    refine congrArg PageRangeResult.success (eq_of_pairwise_lt (pairwise_sorted
      (hnodup List.nodup_nil)) hsorted fun i => ?_)
    rw [List.mem_insertionSort, hr', hmem]

/-- The pages that are read are pages of the document. -/
lemma Written.mem_range {n i : ℤ} {parts : List Chars} (h : Written n parts i) : 0 ≤ i ∧ i < n := by
  obtain ⟨part, -, p, q, hwithin, hp, hq⟩ := h
  have hpos := hwithin.pos
  have hle := hwithin.le
  omega

/-- **What is read are pages of the document**, at least one, each once and in order. -/
theorem pages_of_parse {input : Chars} {n : ℤ} (hn : 1 ≤ n) {l : List ℤ}
    (h : parse input n = .success l) : l ≠ [] ∧ l.Pairwise (· < ·) ∧ ∀ i ∈ l, 0 ≤ i ∧ i < n := by
  by_cases hall : AsksForAll input
  · rw [parse_of_asksForAll hn hall] at h
    cases h
    have hfirst : (0 : ℤ) ∈ rangeUntil 0 n := mem_rangeUntil.mpr ⟨le_refl 0, by omega⟩
    exact ⟨List.ne_nil_of_mem hfirst, pairwise_rangeUntil 0 n, fun i => mem_rangeUntil.mp⟩
  · obtain ⟨hne, hwithin, hsorted, hmem⟩ := (parse_eq_success hn hall).mp h
    refine ⟨?_, hsorted, fun i hi => ((hmem i).mp hi).mem_range⟩
    obtain ⟨part, hpart⟩ := List.exists_mem_of_ne_nil _ hne
    obtain ⟨p, q, hpq⟩ := hwithin part hpart
    have hasc := hpq.ascending
    have hp : p - 1 ∈ l := (hmem _).mpr ⟨part, hpart, p, q, hpq, by omega, by omega⟩
    exact List.ne_nil_of_mem hp

/-- Blank text asks for every page. -/
lemma asksForAll_of_blank {input : Chars} (h : input.all isWhitespace = true) :
    AsksForAll input := by
  have hdrop : input.dropWhile isWhitespace = [] :=
    List.dropWhile_eq_nil_iff.mpr (List.all_eq_true.mp h)
  left
  unfold trim Split.trimBoth
  rw [hdrop]
  rfl

/-! ### The formatter writes what the parser reads -/

lemma digitOf_digitChar {d : ℕ} (h : d < 10) : digitOf d.digitChar = some d := by
  have hall : ∀ d < 10, digitOf d.digitChar = some d := by decide
  exact hall d h

lemma valueOf_of_isDigitOf {digits : Chars} (h : ∀ c ∈ digits, Digits.isDigitOf 10 c = true) :
    valueOf digits = some (Digits.valueOf 10 digits) := by
  have hfold : ∀ value, digits.foldlM (fun value c => (digitOf c).map (value * 10 + ·)) value
      = some (digits.foldl (fun value c => value * 10 + (Digits.digitOf 10 c).getD 0) value) := by
    induction digits with
    | nil => exact fun value => rfl
    | cons c digits ih =>
        intro value
        obtain ⟨hlt, hchar⟩ := Digits.digitChar_digitOf (h c List.mem_cons_self)
        have hc : digitOf c = some ((Digits.digitOf 10 c).getD 0) := by
          calc digitOf c = digitOf ((Digits.digitOf 10 c).getD 0).digitChar := by rw [hchar]
            _ = some ((Digits.digitOf 10 c).getD 0) := digitOf_digitChar hlt
        rw [List.foldlM_cons, hc]
        exact ih (fun c hc => h c (List.mem_cons_of_mem _ hc)) _
  exact hfold 0

lemma toIntOrNull_decimal {n : ℤ} (h0 : 0 ≤ n) (hmax : n ≤ 2147483647) :
    toIntOrNull (decimal n) = some n := by
  have hdigits : ∀ c ∈ Digits.decimal n.toNat, Digits.isDigitOf 10 c = true := fun c hc =>
    Digits.isDigitOf_of_mem_toDigits (by decide) (by decide) hc
  have hvalue := valueOf_of_isDigitOf hdigits
  rw [Digits.valueOf_decimal] at hvalue
  rw [decimal, if_neg (not_lt.mpr h0)]
  cases hcons : Digits.decimal n.toNat with
  | nil => exact absurd hcons (Digits.decimal_ne_nil _)
  | cons first rest =>
      have hfirst : ¬first < '0' := by
        have hdigit := Digits.isDigit_of_mem_decimal (hcons ▸ List.mem_cons_self : first ∈ _)
        simp only [Char.isDigit, Bool.and_eq_true, decide_eq_true_eq] at hdigit
        exact Char.not_lt.mpr hdigit.1
      have hle : n.toNat ≤ 2147483647 := by omega
      rw [toIntOrNull, if_neg hfirst, ← hcons, hvalue, Option.filter_some_pos (by simpa using hle),
        Option.map_some, Int.toNat_of_nonneg h0]

/-- The open range and the pages after it become ranges of the same pages. -/
lemma formatRanges_eq {n start fin : ℤ} {l : List ℤ} (hpos : 1 ≤ start) (hasc : start ≤ fin)
    (hsorted : (fin :: l).Pairwise (· < ·)) (hle : ∀ p ∈ fin :: l, p ≤ n)
    (hmax : n ≤ 2147483647) :
    ∃ rs : List (ℤ × ℤ), formatRanges start fin l = rs.map (fun r => formatRange r.1 r.2)
      ∧ rs ≠ [] ∧ (∀ r ∈ rs, 1 ≤ r.1 ∧ r.1 ≤ r.2 ∧ r.2 ≤ n)
      ∧ ∀ p, (∃ r ∈ rs, r.1 ≤ p ∧ p ≤ r.2) ↔ (start ≤ p ∧ p ≤ fin) ∨ p ∈ l := by
  induction l generalizing start fin with
  | nil =>
      refine ⟨[(start, fin)], rfl, List.cons_ne_nil _ _, ?_, fun p => by simp⟩
      rintro r hr
      obtain rfl := List.mem_singleton.mp hr
      exact ⟨hpos, hasc, hle fin List.mem_cons_self⟩
  | cons current rest ih =>
      obtain ⟨hfirst, hrest⟩ := List.pairwise_cons.mp hsorted
      have hlt := hfirst current List.mem_cons_self
      have hcurrent := hle current (by simp)
      have hle' : ∀ p ∈ current :: rest, p ≤ n := fun p hp => hle p (List.mem_cons_of_mem _ hp)
      have hwrap : wrapInt (fin + 1) = fin + 1 := by
        rw [wrapInt, Int.bmod_eq_of_le (by omega) (by omega)]
      rw [formatRanges, hwrap]
      by_cases hnext : current = fin + 1
      · obtain ⟨rs, hrs, hne, hall, hmem⟩ := ih hpos (by omega : start ≤ current) hrest hle'
        rw [if_pos hnext]
        refine ⟨rs, hrs, hne, hall, fun p => ?_⟩
        rw [hmem, List.mem_cons]
        constructor
        · rintro (hp | hp)
          · rcases lt_or_ge fin p with hgt | hge
            · exact .inr (.inl (by omega))
            · exact .inl ⟨hp.1, hge⟩
          · exact .inr (.inr hp)
        · rintro (hp | rfl | hp)
          · exact .inl ⟨hp.1, by omega⟩
          · exact .inl ⟨by omega, le_refl _⟩
          · exact .inr hp
      · obtain ⟨rs, hrs, -, hall, hmem⟩ := ih (by omega : 1 ≤ current) (le_refl current) hrest hle'
        rw [if_neg hnext]
        refine ⟨(start, fin) :: rs, ?_, List.cons_ne_nil _ _, ?_, fun p => ?_⟩
        · rw [hrs, List.map_cons]
        · rintro r (_ | ⟨_, hr⟩)
          · exact ⟨hpos, hasc, by omega⟩
          · exact hall r hr
        · rw [List.exists_mem_cons_iff, hmem, List.mem_cons]
          exact or_congr_right (or_congr_left ⟨fun hp => by omega, fun hp => by omega⟩)

/-- Texts that begin and end with what is not white space, and have no comma. -/
structure Plain (t : Chars) : Prop where
  trimmed : Split.Trimmed isWhitespace t
  ne_nil : t ≠ []
  noComma : ',' ∉ t

/-- What a formatted range is made of. -/
lemma mem_formatRange {p q : ℤ} (hp : 0 ≤ p) (hq : 0 ≤ q) {c : Char} (h : c ∈ formatRange p q) :
    c.isDigit = true ∨ c = '-' := by
  have hdecimal : ∀ {n : ℤ}, 0 ≤ n → c ∈ decimal n → c.isDigit = true := by
    intro n hn hc
    rw [decimal, if_neg (not_lt.mpr hn)] at hc
    exact Digits.isDigit_of_mem_decimal hc
  unfold formatRange at h
  split_ifs at h
  · exact .inl (hdecimal hp h)
  · rcases List.mem_append.mp h with h | h
    · exact .inl (hdecimal hp h)
    · rcases List.mem_cons.mp h with rfl | h
      · exact .inr rfl
      · exact .inl (hdecimal hq h)

/-- A character of a formatted range is no white space, no comma and no letter of `all`. -/
lemma plain_of_isDigit {c : Char} (h : c.isDigit = true ∨ c = '-') :
    isWhitespace c = false ∧ c ≠ ',' ∧ foldCase c ∉ ['a', 'l'] := by
  have hall : ∀ n < 128, (Char.ofNat n).isDigit = true ∨ Char.ofNat n = '-' →
      isWhitespace (Char.ofNat n) = false ∧ Char.ofNat n ≠ ','
        ∧ foldCase (Char.ofNat n) ∉ ['a', 'l'] := by
    decide +kernel
  have hlt : c.toNat < 128 := by
    rcases h with h | rfl
    · exact isAlphanum_lt (by simp [Char.isAlphanum, h])
    · decide
  exact forall_ascii (P := fun c => c.isDigit = true ∨ c = '-' →
    isWhitespace c = false ∧ c ≠ ',' ∧ foldCase c ∉ ['a', 'l']) hall hlt h

lemma plain_formatRange {p q : ℤ} (hp : 0 ≤ p) (hq : 0 ≤ q) : Plain (formatRange p q) where
  trimmed := by
    constructor
    · intro c hc
      exact (plain_of_isDigit (mem_formatRange hp hq (List.mem_of_mem_head? hc))).1
    · intro c hc
      exact (plain_of_isDigit (mem_formatRange hp hq (List.mem_of_mem_getLast? hc))).1
  ne_nil := by
    have hne : ∀ {n : ℤ}, 0 ≤ n → decimal n ≠ [] := by
      intro n hn
      rw [decimal, if_neg (not_lt.mpr hn)]
      exact Digits.decimal_ne_nil _
    unfold formatRange
    split_ifs
    · exact hne hp
    · simp
  noComma := fun h => (plain_of_isDigit (mem_formatRange hp hq h)).2.1 rfl

/-- A formatted range names its pages. -/
lemma names_formatRange {p q : ℤ} (hp : 0 ≤ p) (hasc : p ≤ q) (hmax : q ≤ 2147483647) :
    Names (formatRange p q) p q := by
  have hdash : ∀ {n : ℤ}, 0 ≤ n → '-' ∉ decimal n := by
    intro n hn hmem
    rw [decimal, if_neg (not_lt.mpr hn)] at hmem
    exact absurd (Digits.isDigit_of_mem_decimal hmem) (by decide)
  have htrim : ∀ {n : ℤ}, 0 ≤ n → trim (decimal n) = decimal n := by
    intro n hn
    have hplain := plain_formatRange hn hn
    rw [formatRange, if_pos rfl] at hplain
    exact Split.trimBoth_of_trimmed hplain.trimmed
  unfold formatRange
  split_ifs with hsame
  · subst hsame
    exact .page (hdash hp) (toIntOrNull_decimal hp hmax)
  · refine .range (hdash hp) (hdash (by omega)) ?_ ?_
    · rw [htrim hp, toIntOrNull_decimal hp (by omega)]
    · rw [htrim (by omega), toIntOrNull_decimal (by omega) hmax]

/-- Texts that are joined are found again as the parts. White space may stand in front. -/
lemma splitOn_intercalate {ts : List Chars} (hne : ts ≠ []) (h : ∀ t ∈ ts, Plain t) {w : Chars}
    (hw : ∀ c ∈ w, isWhitespace c = true) :
    ((w ++ ", ".toList.intercalate ts).splitOn ',').map trim = ts := by
  have hcomma : ',' ∉ w := fun hmem => absurd (hw _ hmem) (by decide)
  have htrim : ∀ t ∈ ts, trim (w ++ t) = t := fun t ht => by
    rw [trim, Split.trimBoth_append hw, Split.trimBoth_of_trimmed (h t ht).trimmed]
  induction ts generalizing w with
  | nil => exact absurd rfl hne
  | cons t ts ih =>
      have ht := h t List.mem_cons_self
      have hsplit : ',' ∉ w ++ t := by
        rw [List.mem_append, not_or]
        exact ⟨hcomma, ht.noComma⟩
      cases ts with
      | nil =>
          rw [List.intercalate_singleton, Split.splitOn_of_not_mem hsplit]
          exact congrArg (fun x => [x]) (htrim t List.mem_cons_self)
      | cons t' ts =>
          have hspace : ∀ c ∈ [' '], isWhitespace c = true := fun c hc => by
            rw [List.mem_singleton.mp hc]
            decide
          have hjoin : w ++ ", ".toList.intercalate (t :: t' :: ts)
              = (w ++ t) ++ ',' :: ([' '] ++ ", ".toList.intercalate (t' :: ts)) := by
            rw [List.intercalate_cons_cons]
            simp
          rw [hjoin, Split.splitOn_append_cons hsplit, List.map_cons, htrim t List.mem_cons_self,
            ih (List.cons_ne_nil _ _) (fun u hu => h u (List.mem_cons_of_mem _ hu)) hspace
              (by decide) fun u hu => by
                rw [trim, Split.trimBoth_append hspace,
                  Split.trimBoth_of_trimmed (h u (List.mem_cons_of_mem _ hu)).trimmed]]

lemma intercalate_cons {t t' : Chars} {ts : List Chars} :
    ", ".toList.intercalate (t :: t' :: ts)
      = t ++ (", ".toList ++ ", ".toList.intercalate (t' :: ts)) := by
  rw [List.intercalate_cons_cons, List.append_assoc]

/-- Texts that are joined begin with the first of them and end with the last. -/
lemma trimmed_intercalate {t : Chars} {ts : List Chars} (h : ∀ u ∈ t :: ts, Plain u) :
    Split.Trimmed isWhitespace (", ".toList.intercalate (t :: ts))
      ∧ ∃ rest, ", ".toList.intercalate (t :: ts) = t ++ rest := by
  induction ts generalizing t with
  | nil =>
      rw [List.intercalate_singleton]
      exact ⟨(h t List.mem_cons_self).trimmed, [], (List.append_nil t).symm⟩
  | cons t' ts ih =>
      have ht := h t List.mem_cons_self
      obtain ⟨htrimmed, rest, hrest⟩ := ih fun u hu => h u (List.mem_cons_of_mem _ hu)
      have hne : ", ".toList.intercalate (t' :: ts) ≠ [] := by
        rw [hrest]
        exact List.append_ne_nil_of_left_ne_nil (h t' (by simp)).ne_nil rest
      rw [intercalate_cons]
      refine ⟨⟨fun a ha => ?_, fun a ha => ?_⟩, _, rfl⟩
      · rw [List.head?_append_of_ne_nil _ ht.ne_nil] at ha
        exact ht.trimmed.1 a ha
      · rw [← List.append_assoc, List.getLast?_append_of_ne_nil _ hne] at ha
        exact htrimmed.2 a ha

/-- A text with a digit in it does not ask for every page. -/
lemma not_asksForAll {input : Chars} (htrim : trim input = input) {c : Char} (hmem : c ∈ input)
    (hc : c.isDigit = true ∨ c = '-') : ¬AsksForAll input := by
  unfold AsksForAll
  rw [htrim]
  rintro (hnil | hall)
  · rw [hnil] at hmem
    cases hmem
  · unfold equalsIgnoreCase at hall
    rw [beq_iff_eq, String.toList_ofList (l := input)] at hall
    have hfold : foldCase c ∈ "all".toList.map foldCase := hall ▸ List.mem_map_of_mem hmem
    have hletters : "all".toList.map foldCase = ['a', 'l', 'l'] := by decide
    rw [hletters] at hfold
    exact (plain_of_isDigit hc).2.2 (by simpa using hfold)

lemma parts_intercalate {t : Chars} {ts : List Chars} (h : ∀ u ∈ t :: ts, Plain u) :
    trim (", ".toList.intercalate (t :: ts)) = ", ".toList.intercalate (t :: ts)
      ∧ parts (", ".toList.intercalate (t :: ts)) = t :: ts := by
  have htrim : trim (", ".toList.intercalate (t :: ts)) = ", ".toList.intercalate (t :: ts) :=
    Split.trimBoth_of_trimmed (trimmed_intercalate h).1
  have hsplit := splitOn_intercalate (List.cons_ne_nil t ts) h (w := []) (by simp)
  rw [List.nil_append] at hsplit
  refine ⟨htrim, ?_⟩
  unfold parts kept
  rw [htrim, hsplit, List.filter_eq_self]
  exact fun u hu => by simpa using (h u hu).ne_nil

/-- Formatted ranges are read as their pages. -/
lemma parse_formatted {n : ℤ} (hn : 1 ≤ n) (hmax : n ≤ 2147483647) {rs : List (ℤ × ℤ)}
    (hne : rs ≠ []) (hall : ∀ r ∈ rs, 1 ≤ r.1 ∧ r.1 ≤ r.2 ∧ r.2 ≤ n) {l : List ℤ}
    (hsorted : l.Pairwise (· < ·)) (hmem : ∀ i, i ∈ l ↔ ∃ r ∈ rs, r.1 ≤ i + 1 ∧ i + 1 ≤ r.2) :
    parse (", ".toList.intercalate (rs.map fun r => formatRange r.1 r.2)) n = .success l := by
  have hwithin : ∀ r ∈ rs, Within n (formatRange r.1 r.2) r.1 r.2 := fun r hr => by
    have hr := hall r hr
    exact ⟨names_formatRange (by omega) hr.2.1 (by omega), hr.1, hr.2.1, hr.2.2⟩
  have hplain : ∀ t ∈ rs.map (fun r => formatRange r.1 r.2), Plain t := fun t ht => by
    obtain ⟨r, hr, rfl⟩ := List.mem_map.mp ht
    have hr := hall r hr
    exact plain_formatRange (by omega) (by omega)
  cases rs with
  | nil => exact absurd rfl hne
  | cons r rs =>
      rw [List.map_cons] at hplain ⊢
      obtain ⟨htrim, hparts⟩ := parts_intercalate hplain
      obtain ⟨-, rest, hrest⟩ := trimmed_intercalate hplain
      -- the text begins with a page, so it does not ask for all of them
      have hr := hall r List.mem_cons_self
      obtain ⟨c, hc⟩ := List.exists_mem_of_ne_nil _ (hplain _ List.mem_cons_self).ne_nil
      have hnot : ¬AsksForAll (", ".toList.intercalate
          (formatRange r.1 r.2 :: rs.map fun r => formatRange r.1 r.2)) :=
        not_asksForAll htrim (hrest ▸ List.mem_append_left _ hc)
          (mem_formatRange (by omega) (by omega) hc)
      have hmap : (formatRange r.1 r.2 :: rs.map fun r => formatRange r.1 r.2)
          = (r :: rs).map fun r => formatRange r.1 r.2 := rfl
      rw [parse_eq_success hn hnot, hparts, hmap]
      refine ⟨List.cons_ne_nil _ _, fun t ht => ?_, hsorted, fun i => ?_⟩
      · obtain ⟨r', hr', rfl⟩ := List.mem_map.mp ht
        exact ⟨_, _, hwithin r' hr'⟩
      · rw [hmem, written_map hwithin]

/-- The formatter writes ranges of the pages it is given. -/
lemma exists_formatPageIndices {n : ℤ} (hmax : n ≤ 2147483647) {indices : List ℤ}
    (hne : indices ≠ []) (h : ∀ i ∈ indices, 0 ≤ i ∧ i < n) :
    ∃ rs : List (ℤ × ℤ),
      formatPageIndices indices = ", ".toList.intercalate (rs.map fun r => formatRange r.1 r.2)
        ∧ rs ≠ [] ∧ (∀ r ∈ rs, 1 ≤ r.1 ∧ r.1 ≤ r.2 ∧ r.2 ≤ n)
        ∧ ∀ i, i ∈ indices ↔ ∃ r ∈ rs, r.1 ≤ i + 1 ∧ i + 1 ≤ r.2 := by
  have hnodup : (addAll [] indices).Nodup := nodup_addAll List.nodup_nil
  have hsorted := pairwise_sorted hnodup
  have hmem : ∀ i, i ∈ (addAll [] indices).insertionSort (· ≤ ·) ↔ i ∈ indices := fun i => by
    rw [List.mem_insertionSort, mem_addAll]
    exact or_iff_right List.not_mem_nil
  unfold formatPageIndices
  generalize (addAll [] indices).insertionSort (· ≤ ·) = sorted at hsorted hmem
  -- the pages, counted from one
  have hwrap : sorted.map (fun i => wrapInt (i + 1)) = sorted.map (· + 1) := by
    refine List.map_congr_left fun i hi => ?_
    have hi := h i ((hmem i).mp hi)
    rw [wrapInt, Int.bmod_eq_of_le (by omega) (by omega)]
  have hpage : ∀ p, p ∈ sorted.map (· + 1) ↔ p - 1 ∈ indices := fun p => by
    rw [List.mem_map, ← hmem]
    exact ⟨fun ⟨i, hi, hp⟩ => by rwa [← hp, add_sub_cancel_right], fun hp => ⟨p - 1, hp, by omega⟩⟩
  have hincreasing : (sorted.map (· + 1)).Pairwise (· < ·) := by
    rw [List.pairwise_map]
    exact hsorted.imp fun hlt => by omega
  rw [hwrap]
  generalize sorted.map (· + 1) = pages at hpage hincreasing
  have hbound : ∀ p ∈ pages, 1 ≤ p ∧ p ≤ n := fun p hp => by
    have hp := h _ ((hpage p).mp hp)
    omega
  cases pages with
  | nil =>
      obtain ⟨i, hi⟩ := List.exists_mem_of_ne_nil indices hne
      have hi := (hpage (i + 1)).mpr (by rwa [add_sub_cancel_right])
      cases hi
  | cons first rest =>
      obtain ⟨rs, hrs, hrne, hall, hruns⟩ := formatRanges_eq (hbound first List.mem_cons_self).1
        (le_refl first) hincreasing (fun p hp => (hbound p hp).2) hmax
      refine ⟨rs, congrArg (fun ts => ", ".toList.intercalate ts) hrs, hrne, hall, fun i => ?_⟩
      have hpage := hpage (i + 1)
      rw [add_sub_cancel_right, List.mem_cons] at hpage
      rw [hruns, ← hpage]
      exact or_congr_left ⟨fun hi => by omega, fun hi => by omega⟩

/-- **A formatted list of pages is read back**, in order and without repeats. -/
theorem parse_formatPageIndices {n : ℤ} (hmax : n ≤ 2147483647) {indices : List ℤ}
    (hne : indices ≠ []) (h : ∀ i ∈ indices, 0 ≤ i ∧ i < n) :
    parse (formatPageIndices indices) n
      = .success ((addAll [] indices).insertionSort (· ≤ ·)) := by
  obtain ⟨rs, hrs, hrne, hall, hmem⟩ := exists_formatPageIndices hmax hne h
  obtain ⟨i, hi⟩ := List.exists_mem_of_ne_nil indices hne
  have hn := h i hi
  rw [hrs]
  refine parse_formatted (by omega) hmax hrne hall
    (pairwise_sorted (nodup_addAll List.nodup_nil)) fun i => ?_
  rw [List.mem_insertionSort, mem_addAll, ← hmem]
  exact or_iff_right List.not_mem_nil

end PageRangeParser

end ShaPrint.Android
