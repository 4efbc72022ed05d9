import Mathlib.Data.Prod.Lex
import Mathlib.Order.Lex
import ShaPrint.Lib.Digits
import ShaPrint.Text

/-!
The versions of nightly builds, `scripts/nightly/version.ts`.

* `parseBaseSemver`, `parseNightlyVersion`: the versions that are read; `IsPlain` is a base
  that is written as it is read.
* `compareBaseSemver`, `compareNightlyVersions`: the differences that compare them;
  `Base.compare_pos_iff` and `compareNightly_pos_iff` say that both order the versions
  lexicographically.
* `calculateNextNightlyVersion`: the version of the next build.

A number of the script is a natural number here. The two agree up to `maxSafeInteger`.
-/

namespace ShaPrint.Nightly

open Digits Split

/-- What `String.prototype.trim` removes. -/
def isJsSpace (c : Char) : Bool :=
  (0x09 ≤ c.val && c.val ≤ 0x0d) || c.val == 0x20 || c.val == 0xa0 || c.val == 0x1680
    || (0x2000 ≤ c.val && c.val ≤ 0x200a) || c.val == 0x2028 || c.val == 0x2029
    || c.val == 0x202f || c.val == 0x205f || c.val == 0x3000 || c.val == 0xfeff

/-- `Number.MAX_SAFE_INTEGER` -/
def maxSafeInteger : ℕ := 9007199254740991

/-- The numbers of a version `X.Y.Z`. -/
structure Base where
  major : ℕ
  minor : ℕ
  patch : ℕ
  deriving DecidableEq, Repr

structure ParsedNightlyVersion extends Base where
  channel : Chars
  build : ℕ
  raw : Chars
  deriving DecidableEq, Repr

def cleanVersionString (v : Chars) : Chars :=
  let trimmed := trimBoth isJsSpace v
  if trimmed.head? = some 'v' then trimmed.tail else trimmed

/-- The group `(\d+)`: its number, and what follows. -/
def matchNumber (s : Chars) : Option (ℕ × Chars) :=
  let digits := s.takeWhile Char.isDigit
  if digits = [] then none else some (valueOf 10 digits, s.dropWhile Char.isDigit)

/-- The expression `^(\d+)\.(\d+)\.(\d+)`: its numbers, and what follows. -/
def matchBase (s : Chars) : Option (Base × Chars) := do
  let (major, s) ← matchNumber s
  let s ← s.dropPrefix? ['.']
  let (minor, s) ← matchNumber s
  let s ← s.dropPrefix? ['.']
  let (patch, s) ← matchNumber s
  return (⟨major, minor, patch⟩, s)

def parseNightlyVersion (v : Chars) : Option ParsedNightlyVersion := do
  let cleaned := cleanVersionString v
  let (base, s) ← matchBase cleaned
  let s ← s.dropPrefix? "-nightly.".toList
  let (build, s) ← matchNumber s
  if s = [] then some ⟨base, "nightly".toList, build, cleaned⟩ else none

def parseBaseSemver (v : Chars) : Option Base := (matchBase (cleanVersionString v)).map Prod.fst

/-- The first difference between the numbers. -/
def Base.compare (a b : Base) : ℤ :=
  if a.major ≠ b.major then a.major - b.major
  else if a.minor ≠ b.minor then a.minor - b.minor
  else a.patch - b.patch

def compareBaseSemver (a b : Chars) : ℤ :=
  match parseBaseSemver a, parseBaseSemver b with
  | some pa, some pb => pa.compare pb
  | _, _ => 0

def compareNightlyVersions (a b : Chars) : ℤ :=
  match parseNightlyVersion a, parseNightlyVersion b with
  | none, none => 0
  | none, some _ => -1
  | some _, none => 1
  | some pa, some pb =>
      if pa.major ≠ pb.major then pa.major - pb.major
      else if pa.minor ≠ pb.minor then pa.minor - pb.minor
      else if pa.patch ≠ pb.patch then pa.patch - pb.patch
      else pa.build - pb.build

/-- The base of a nightly, as it is printed. -/
def formatBase (b : Base) : Chars :=
  decimal b.major ++ '.' :: (decimal b.minor ++ '.' :: decimal b.patch)

/-! ### Reading -/

lemma matchNumber_append {digits : Chars} (rest : Chars) (hne : digits ≠ [])
    (hdigits : ∀ c ∈ digits, c.isDigit = true) (hrest : ∀ c ∈ rest.head?, c.isDigit = false) :
    matchNumber (digits ++ rest) = some (valueOf 10 digits, rest) := by
  have htake : (digits ++ rest).takeWhile Char.isDigit = digits := by
    rw [List.takeWhile_append_of_pos hdigits]
    cases rest with
    | nil => rw [List.takeWhile_nil, List.append_nil]
    | cons c rest =>
        rw [List.takeWhile_cons_of_neg (by simpa using hrest c rfl), List.append_nil]
  have hdrop : (digits ++ rest).dropWhile Char.isDigit = rest := by
    rw [List.dropWhile_append_of_pos hdigits, dropWhile_eq_self hrest]
  rw [matchNumber, htake, hdrop]
  exact if_neg hne

lemma matchNumber_decimal (n : ℕ) : matchNumber (decimal n) = some (n, []) := by
  have hmatch := matchNumber_append [] (decimal_ne_nil n)
    (fun c hc => isDigit_of_mem_decimal hc) (by simp)
  rwa [List.append_nil, valueOf_decimal] at hmatch

/-- What is read as a number begins with its digits. -/
lemma matchNumber_eq_some {s rest : Chars} {n : ℕ} (h : matchNumber s = some (n, rest)) :
    ∃ digits, digits ≠ [] ∧ (∀ c ∈ digits, c.isDigit = true) ∧ s = digits ++ rest
      ∧ n = valueOf 10 digits := by
  unfold matchNumber at h
  dsimp only at h
  split at h
  · cases h
  · rename_i hne
    obtain ⟨rfl, rfl⟩ := Prod.mk.inj (Option.some.inj h)
    exact ⟨_, hne, fun c hc => List.mem_takeWhile_imp hc,
      (List.takeWhile_append_dropWhile ..).symm, rfl⟩

/-- A text that is a base, three numbers between dots. -/
structure IsPlain (text : Chars) (b : Base) : Prop where
  written : ∃ major minor patch : Chars,
    text = major ++ '.' :: (minor ++ '.' :: patch)
      ∧ (major ≠ [] ∧ minor ≠ [] ∧ patch ≠ [])
      ∧ (∀ c ∈ major ++ minor ++ patch, c.isDigit = true)
      ∧ b = ⟨valueOf 10 major, valueOf 10 minor, valueOf 10 patch⟩

lemma matchBase_eq_some {s rest : Chars} {b : Base} :
    matchBase s = some (b, rest) ↔ ∃ s' s'', matchNumber s = some (b.major, '.' :: s')
      ∧ matchNumber s' = some (b.minor, '.' :: s'') ∧ matchNumber s'' = some (b.patch, rest) := by
  simp only [matchBase, Option.bind_eq_bind, Option.pure_def, Option.bind_eq_some_iff, Prod.exists,
    dropPrefix?_eq_some, List.singleton_append, Option.some.injEq, Prod.mk.injEq]
  constructor
  · rintro ⟨major, _, hmajor, s', rfl, minor, _, hminor, s'', rfl, patch, _, hpatch, rfl, rfl⟩
    exact ⟨s', s'', hmajor, hminor, hpatch⟩
  · rintro ⟨s', s'', hmajor, hminor, hpatch⟩
    exact ⟨_, _, hmajor, s', rfl, _, _, hminor, s'', rfl, _, _, hpatch, rfl, rfl⟩

lemma IsPlain.matchBase_append {text : Chars} {b : Base} (h : IsPlain text b) (rest : Chars)
    (hrest : ∀ c ∈ rest.head?, c.isDigit = false) : matchBase (text ++ rest) = some (b, rest) := by
  obtain ⟨major, minor, patch, rfl, ⟨hmajor, hminor, hpatch⟩, hdigits, rfl⟩ := h.written
  have hassoc : major ++ '.' :: (minor ++ '.' :: patch) ++ rest
      = major ++ '.' :: (minor ++ '.' :: (patch ++ rest)) := by simp
  rw [hassoc, matchBase_eq_some]
  refine ⟨minor ++ '.' :: (patch ++ rest), patch ++ rest, ?_, ?_, ?_⟩
  · exact matchNumber_append _ hmajor (fun c hc => hdigits c (by simp [hc])) (by simp)
  · exact matchNumber_append _ hminor (fun c hc => hdigits c (by simp [hc])) (by simp)
  · exact matchNumber_append _ hpatch (fun c hc => hdigits c (by simp [hc])) hrest

/-- What is read as a base to its end is a plain one. -/
lemma isPlain_of_matchBase {text : Chars} {b : Base} (h : matchBase text = some (b, [])) :
    IsPlain text b := by
  obtain ⟨s', s'', hmajor, hminor, hpatch⟩ := matchBase_eq_some.mp h
  obtain ⟨major, hmajorNe, hmajorDigits, rfl, hmajorValue⟩ := matchNumber_eq_some hmajor
  obtain ⟨minor, hminorNe, hminorDigits, rfl, hminorValue⟩ := matchNumber_eq_some hminor
  obtain ⟨patch, hpatchNe, hpatchDigits, rfl, hpatchValue⟩ := matchNumber_eq_some hpatch
  refine ⟨major, minor, patch, by rw [List.append_nil], ⟨hmajorNe, hminorNe, hpatchNe⟩, ?_, ?_⟩
  · intro c hc
    rcases List.mem_append.mp hc with hc | hc
    · exact (List.mem_append.mp hc).elim (hmajorDigits c) (hminorDigits c)
    · exact hpatchDigits c hc
  · rw [← hmajorValue, ← hminorValue, ← hpatchValue]

/-- A base is printed plainly. -/
lemma isPlain_formatBase (b : Base) : IsPlain (formatBase b) b := by
  refine ⟨decimal b.major, decimal b.minor, decimal b.patch, rfl,
    ⟨decimal_ne_nil _, decimal_ne_nil _, decimal_ne_nil _⟩, ?_, ?_⟩
  · intro c hc
    simp only [List.mem_append] at hc
    rcases hc with (hc | hc) | hc
    all_goals exact isDigit_of_mem_decimal hc
  · rw [valueOf_decimal, valueOf_decimal, valueOf_decimal]

lemma isJsSpace_of_isDigit {c : Char} (h : c.isDigit = true) : isJsSpace c = false ∧ c ≠ 'v' := by
  have hlt : c.toNat < 128 := isAlphanum_lt (by simp [Char.isAlphanum, h])
  have hall : ∀ n < 128, (Char.ofNat n).isDigit = true →
      isJsSpace (.ofNat n) = false ∧ Char.ofNat n ≠ 'v' := by
    decide +kernel
  exact forall_ascii (P := fun c => c.isDigit = true → isJsSpace c = false ∧ c ≠ 'v') hall hlt h

/-- Nothing is cleaned off a text that begins with a base. -/
lemma IsPlain.clean_append {text rest : Chars} {b : Base} (h : IsPlain text b)
    (hrest : ∀ c ∈ (text ++ rest).getLast?, isJsSpace c = false) :
    cleanVersionString (text ++ rest) = text ++ rest := by
  obtain ⟨major, minor, patch, rfl, ⟨hmajor, -, -⟩, hdigits, -⟩ := h.written
  obtain ⟨c, major, rfl⟩ := List.exists_cons_of_ne_nil hmajor
  obtain ⟨hspace, hv⟩ := isJsSpace_of_isDigit (hdigits c (by simp))
  rw [cleanVersionString, trimBoth_of_trimmed ⟨by simpa using hspace, hrest⟩]
  exact if_neg (by simpa using hv)

lemma IsPlain.clean {text : Chars} {b : Base} (h : IsPlain text b) :
    cleanVersionString text = text := by
  have hlast : ∀ c ∈ (text ++ []).getLast?, isJsSpace c = false := by
    obtain ⟨major, minor, patch, rfl, ⟨-, -, hpatch⟩, hdigits, -⟩ := h.written
    obtain ⟨patch, c, rfl⟩ := List.eq_nil_or_concat' patch |>.resolve_left hpatch
    have hspace := (isJsSpace_of_isDigit (hdigits c (by simp))).1
    have hconcat : major ++ '.' :: (minor ++ '.' :: (patch ++ [c])) ++ []
        = (major ++ '.' :: (minor ++ '.' :: patch)) ++ [c] := by simp
    rw [hconcat, List.getLast?_concat]
    simpa using hspace
  have hclean := h.clean_append hlast
  rwa [List.append_nil] at hclean

lemma IsPlain.parseBaseSemver {text : Chars} {b : Base} (h : IsPlain text b) :
    parseBaseSemver text = some b := by
  have hmatch := h.matchBase_append [] (by simp)
  rw [List.append_nil] at hmatch
  rw [Nightly.parseBaseSemver, h.clean, hmatch]
  rfl

/-- A base with the number of a build is a nightly. -/
lemma IsPlain.parseNightlyVersion {text : Chars} {b : Base} (h : IsPlain text b) (n : ℕ) :
    parseNightlyVersion (text ++ "-nightly.".toList ++ decimal n)
      = some ⟨b, "nightly".toList, n, text ++ "-nightly.".toList ++ decimal n⟩ := by
  obtain ⟨digits, c, hdecimal⟩ :=
    List.eq_nil_or_concat' (decimal n) |>.resolve_left (decimal_ne_nil n)
  have hdigit : c.isDigit = true := isDigit_of_mem_decimal (n := n) (by simp [hdecimal])
  have hlast : ∀ c ∈ (text ++ ("-nightly.".toList ++ decimal n)).getLast?, isJsSpace c = false := by
    rw [hdecimal, ← List.append_assoc, ← List.append_assoc, List.getLast?_concat]
    simpa using (isJsSpace_of_isDigit hdigit).1
  have hhyphen : ∀ c ∈ ("-nightly.".toList ++ decimal n).head?, c.isDigit = false := by
    intro c hc
    obtain rfl := Option.some.inj hc
    rfl
  have hmatch := h.matchBase_append ("-nightly.".toList ++ decimal n) hhyphen
  rw [List.append_assoc, Nightly.parseNightlyVersion, h.clean_append hlast, hmatch]
  simp only [Option.bind_eq_bind, Option.bind_some, dropPrefix?_eq_some.mpr rfl,
    matchNumber_decimal, if_true]

def formatNightlyTag (version : Chars) : Chars := 'v' :: cleanVersionString version

structure CalculateVersionOptions where
  currentMainBaseVersion : Chars
  commitBaseVersion : Option Chars
  existingTagsOrVersions : List Chars
  runNumber : Option ℤ

structure CalculatedNightlyVersion where
  version : Chars
  tag : Chars
  baseVersion : Chars
  buildNumber : ℕ
  deriving DecidableEq, Repr

/-- A version without its suffix. -/
def baseText (version : Chars) : Chars := (cleanVersionString version).takeWhile (· ≠ '-')

/-- The highest base so far and its highest build, after one more nightly. -/
def higher (highest : Option Chars × ℕ) (n : ParsedNightlyVersion) : Option Chars × ℕ :=
  let base := formatBase n.toBase
  match highest with
  | (none, _) => (some base, n.build)
  | (some highestBase, highestBuild) =>
      if 0 < compareBaseSemver base highestBase then (some base, n.build)
      else if compareBaseSemver base highestBase = 0 then
        (some highestBase, if highestBuild < n.build then n.build else highestBuild)
      else (some highestBase, highestBuild)

def CalculateVersionOptions.mainBase (options : CalculateVersionOptions) : Chars :=
  baseText options.currentMainBaseVersion

/-- The base of the commit; without one, or for an empty one, that of the main branch. -/
def CalculateVersionOptions.commitBase (options : CalculateVersionOptions) : Chars :=
  match options.commitBaseVersion with
  | none => options.mainBase
  | some version => if version = [] then options.mainBase else baseText version

/-- The greatest of the bases. -/
def CalculateVersionOptions.targetBase (options : CalculateVersionOptions)
    (highestNightlyBase : Option Chars) : Chars :=
  let target := match highestNightlyBase with
    | none => options.mainBase
    | some highest =>
        if 0 < compareBaseSemver highest options.mainBase then highest else options.mainBase
  if 0 < compareBaseSemver options.commitBase target then options.commitBase else target

/-- The build after the highest one of the base. -/
def nextBuild (targetBase : Chars) : Option Chars × ℕ → ℕ
  | (none, _) => 1
  | (some highest, build) => if compareBaseSemver targetBase highest = 0 then build + 1 else 1

/-- The number of the workflow run, if it is not smaller. -/
def withRunNumber (build : ℕ) : Option ℤ → ℕ
  | none => build
  | some runNumber => if runNumber ≠ 0 ∧ (build : ℤ) ≤ runNumber then runNumber.toNat else build

def calculateNextNightlyVersion (options : CalculateVersionOptions) : CalculatedNightlyVersion :=
  let parsedNightlies := (options.existingTagsOrVersions.filterMap parseNightlyVersion).filter
    fun p => p.channel = "nightly".toList
  let highest := parsedNightlies.foldl higher (none, 0)
  let baseVersion := options.targetBase highest.1
  let buildNumber := withRunNumber (nextBuild baseVersion highest) options.runNumber
  let version := baseVersion ++ "-nightly.".toList ++ decimal buildNumber
  ⟨version, formatNightlyTag version, baseVersion, buildNumber⟩

/-! ### Comparing -/

/-- The order of bases is lexicographic. -/
def Base.key (b : Base) : ℕ ×ₗ ℕ ×ₗ ℕ := toLex (b.major, toLex (b.minor, b.patch))

/-- That of nightlies too, with the build last. -/
def ParsedNightlyVersion.key (p : ParsedNightlyVersion) : (ℕ ×ₗ ℕ ×ₗ ℕ) ×ₗ ℕ :=
  toLex (p.toBase.key, p.build)

lemma Base.key_injective : Function.Injective Base.key := by
  rintro ⟨major, minor, patch⟩ ⟨major', minor', patch'⟩ h
  obtain ⟨rfl, h⟩ := Prod.mk.inj (toLex_inj.mp h)
  obtain ⟨rfl, rfl⟩ := Prod.mk.inj (toLex_inj.mp h)
  rfl

lemma Base.compare_pos_iff {a b : Base} : 0 < a.compare b ↔ b.key < a.key := by
  rw [Base.compare, Base.key, Base.key, Prod.Lex.toLex_lt_toLex, Prod.Lex.toLex_lt_toLex]
  dsimp only
  split_ifs <;> omega

lemma Base.compare_eq_zero_iff {a b : Base} : a.compare b = 0 ↔ a = b := by
  obtain ⟨major, minor, patch⟩ := a
  obtain ⟨major', minor', patch'⟩ := b
  rw [Base.compare, Base.mk.injEq]
  dsimp only
  split_ifs <;> omega

lemma Base.compare_nonneg_iff {a b : Base} : 0 ≤ a.compare b ↔ b.key ≤ a.key := by
  rw [le_iff_lt_or_eq, le_iff_lt_or_eq, compare_pos_iff, eq_comm, compare_eq_zero_iff,
    eq_comm, key_injective.eq_iff]

lemma compareBaseSemver_eq {a b : Chars} {pa pb : Base} (ha : parseBaseSemver a = some pa)
    (hb : parseBaseSemver b = some pb) : compareBaseSemver a b = pa.compare pb := by
  rw [compareBaseSemver, ha, hb]

/-- A nightly compares greater exactly if it comes after the other in the order. -/
lemma compareNightly_pos_iff {a b : Chars} {pa pb : ParsedNightlyVersion}
    (ha : parseNightlyVersion a = some pa) (hb : parseNightlyVersion b = some pb) :
    0 < compareNightlyVersions a b ↔ pb.key < pa.key := by
  rw [compareNightlyVersions, ha, hb, ParsedNightlyVersion.key, ParsedNightlyVersion.key,
    Prod.Lex.toLex_lt_toLex, Base.key, Base.key, Prod.Lex.toLex_lt_toLex, Prod.Lex.toLex_lt_toLex,
    toLex_inj, Prod.mk.injEq, toLex_inj, Prod.mk.injEq]
  dsimp only
  split_ifs <;> omega

end ShaPrint.Nightly
