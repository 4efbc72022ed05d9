import Mathlib.Data.ENat.Basic
import Mathlib.Order.WithBot
import ShaPrint.Nightly.Version

/-!
The update feed of the nightly builds, `scripts/nightly/feed.ts` and `updateNightlyFeed` of
`scripts/nightly/publish.ts`.

* `compareVersions`: `compareNightlyVersions` on numbers as the script reads them;
  `compareVersions_pos_iff` says that it is a linear order of the versions, those that are no
  nightlies first.
* `prepareFeedMetadata`, `validateFeedUpdate`, `updateNightlyFeed`: an update.
* `update_newer`: what is published is newer than what was read of the feed.
* `NamesTag`, `namesTag_retarget`: the release that a URL is of.
-/

namespace ShaPrint.Nightly

open Split

/-! ### Comparing numbers of the script -/

section Numbers

/-- What `parseInt` reads from the digits of a number: the number itself up to `maxSafeInteger`,
and one that is near it, or infinity, beyond. -/
abbrev Numbers := ℕ → ℕ∞

variable (number : Numbers)

/-- The sign of the difference of two numbers, which is all that is looked at. That of infinity
and itself is not a number, which counts as zero. -/
def differenceSign (a b : ℕ∞) : ℤ := if b < a then 1 else if a < b then -1 else 0

/-- `compareNightlyVersions` -/
def compareVersions (a b : Chars) : ℤ :=
  match parseNightlyVersion a, parseNightlyVersion b with
  | none, none => 0
  | none, some _ => -1
  | some _, none => 1
  | some pa, some pb =>
      if number pa.major ≠ number pb.major then
        differenceSign (number pa.major) (number pb.major)
      else if number pa.minor ≠ number pb.minor then
        differenceSign (number pa.minor) (number pb.minor)
      else if number pa.patch ≠ number pb.patch then
        differenceSign (number pa.patch) (number pb.patch)
      else differenceSign (number pa.build) (number pb.build)

/-- The place of a nightly in the order. -/
def ParsedNightlyVersion.place (p : ParsedNightlyVersion) : ℕ∞ ×ₗ ℕ∞ ×ₗ ℕ∞ ×ₗ ℕ∞ :=
  toLex (number p.major, toLex (number p.minor, toLex (number p.patch, number p.build)))

/-- The place of a version, before all nightlies if it is none. -/
def place (v : Chars) : WithBot (ℕ∞ ×ₗ ℕ∞ ×ₗ ℕ∞ ×ₗ ℕ∞) :=
  match parseNightlyVersion v with
  | none => ⊥
  | some p => ↑(p.place number)

variable {number}

lemma differenceSign_pos_iff {a b : ℕ∞} : 0 < differenceSign a b ↔ b < a := by
  unfold differenceSign
  split_ifs with h h'
  · simp [h]
  · simp [h]
  · simp [h]

/-- The first difference that is not zero decides. -/
lemma firstDifference_pos_iff {a b : ℕ∞} {d : ℤ} :
    0 < (if a ≠ b then differenceSign a b else d) ↔ b < a ∨ b = a ∧ 0 < d := by
  split_ifs with h
  · rw [differenceSign_pos_iff]
    exact ⟨.inl, fun hor => hor.resolve_right fun hboth => h hboth.1.symm⟩
  · obtain rfl := not_not.mp h
    exact ⟨fun hd => .inr ⟨rfl, hd⟩, fun hor => (hor.resolve_left (lt_irrefl _)).2⟩

/-- A version compares greater exactly if its place is. -/
lemma compareVersions_pos_iff {a b : Chars} :
    0 < compareVersions number a b ↔ place number b < place number a := by
  unfold compareVersions place
  cases parseNightlyVersion a with
  | none =>
      cases parseNightlyVersion b with
      | none => exact iff_of_false (lt_irrefl _) (lt_irrefl _)
      | some pb =>
          have hneg : ¬(0 : ℤ) < -1 := by omega
          exact iff_of_false hneg (not_lt_of_ge bot_le)
  | some pa =>
      cases parseNightlyVersion b with
      | none =>
          have hpos : (0 : ℤ) < 1 := by omega
          exact iff_of_true hpos (WithBot.bot_lt_coe _)
      | some pb =>
          dsimp only
          rw [WithBot.coe_lt_coe, ParsedNightlyVersion.place, ParsedNightlyVersion.place,
            Prod.Lex.toLex_lt_toLex, Prod.Lex.toLex_lt_toLex, Prod.Lex.toLex_lt_toLex,
            firstDifference_pos_iff, firstDifference_pos_iff, firstDifference_pos_iff,
            differenceSign_pos_iff]

/-- On numbers that are read exactly, it is the comparison of natural numbers. -/
lemma compareVersions_natCast_pos_iff {a b : Chars} :
    0 < compareVersions (fun n => n) a b ↔ 0 < compareNightlyVersions a b := by
  unfold compareVersions
  cases ha : parseNightlyVersion a with
  | none => cases hb : parseNightlyVersion b <;> simp [compareNightlyVersions, ha, hb]
  | some pa =>
      cases hb : parseNightlyVersion b with
      | none => simp [compareNightlyVersions, ha, hb]
      | some pb =>
          dsimp only
          rw [compareNightly_pos_iff ha hb, firstDifference_pos_iff, firstDifference_pos_iff,
            firstDifference_pos_iff, differenceSign_pos_iff, ParsedNightlyVersion.key,
            ParsedNightlyVersion.key, Base.key, Base.key, Prod.Lex.toLex_lt_toLex,
            Prod.Lex.toLex_lt_toLex, Prod.Lex.toLex_lt_toLex, toLex_inj, Prod.mk.injEq, toLex_inj,
            Prod.mk.injEq]
          simp only [Nat.cast_lt, Nat.cast_inj]
          omega

end Numbers

/-! ### An update of the feed -/

structure PlatformMetadata where
  signature : Chars
  url : Chars
  deriving DecidableEq, Repr

/-- The updater's metadata. A version that is missing is an empty one here. -/
structure UpdaterMetadata where
  version : Chars
  notes : Option Chars
  pubDate : Chars
  platforms : List (Chars × PlatformMetadata)
  deriving DecidableEq, Repr

def releasesDownload : Chars := "/releases/download/".toList

/-- The expression `/releases/download/[^/]+/` at the start of a text: what follows it. -/
def matchDownload (s : Chars) : Option Chars := do
  let s ← s.dropPrefix? releasesDownload
  let rest := s.dropWhile (· ≠ '/')
  if s.takeWhile (· ≠ '/') = [] then none else rest.dropPrefix? ['/']

/-- The first match of the expression: what is before it, and what follows it. -/
def findDownload : Chars → Option (Chars × Chars)
  | [] => none
  | c :: s =>
      match matchDownload (c :: s) with
      | some rest => some ([], rest)
      | none => (findDownload s).map fun (before, rest) => (c :: before, rest)

/-- The replacement patterns of `String.prototype.replace`, where the expression has no groups:
a dollar sign before another one, before `&` (the match), or before a backquote or an apostrophe
(what is around it). -/
def expandReplacement (before matched rest : Chars) : Chars → Chars
  | [] => []
  | [c] => [c]
  | c :: d :: s =>
      if c = '$' ∧ d = '$' then '$' :: expandReplacement before matched rest s
      else if c = '$' ∧ d = '&' then matched ++ expandReplacement before matched rest s
      else if c = '$' ∧ d = Char.ofNat 0x60 then before ++ expandReplacement before matched rest s
      else if c = '$' ∧ d = Char.ofNat 0x27 then rest ++ expandReplacement before matched rest s
      else c :: expandReplacement before matched rest (d :: s)

/-- `url.replace(/\/releases\/download\/[^/]+\//, ...)` for a tag. -/
def retarget (tag url : Chars) : Chars :=
  match findDownload url with
  | none => url
  | some (before, rest) =>
      let matched := (url.drop before.length).take (url.length - before.length - rest.length)
      before ++ expandReplacement before matched rest (releasesDownload ++ tag ++ ['/']) ++ rest

/-- The tag of a release begins with `v`. -/
def releaseTag (targetTag : Chars) : Chars :=
  if targetTag.head? = some 'v' then targetTag else 'v' :: targetTag

def prepareFeedMetadata (raw : UpdaterMetadata) (targetTag : Chars) : UpdaterMetadata :=
  { raw with
    platforms := raw.platforms.map fun (key, p) =>
      (key, ⟨p.signature,
        if (splitOnce p.url releasesDownload).isSome then retarget (releaseTag targetTag) p.url
        else p.url⟩) }

variable (number : Numbers)

/-- Whether a version is greater than that of the feed, if there is one. -/
def canAdvanceFeed (newVersion : Chars) (currentFeedVersion : Option Chars) : Bool :=
  match currentFeedVersion with
  | none => true
  | some current => if current = [] then true else 0 < compareVersions number newVersion current

/-- What is missing of the first platform that lacks something. -/
def missingPlatform : List (Chars × PlatformMetadata) → Option String
  | [] => none
  | (key, p) :: platforms =>
      let key := String.ofList key
      if trimBoth isJsSpace p.signature = [] then some s!"Platform {key} is missing signature"
      else if trimBoth isJsSpace p.url = [] then some s!"Platform {key} is missing url"
      else missingPlatform platforms

/-- The version of the feed's metadata, if there is any. -/
def UpdaterMetadata.feedVersion (m : UpdaterMetadata) : Option Chars :=
  if m.version = [] then none else some m.version

/-- Why an update is not allowed. -/
def validateFeedUpdate (newMetadata : UpdaterMetadata) (currentFeed : Option UpdaterMetadata) :
    Except String Unit :=
  if newMetadata.version = [] then .error "Metadata missing version field"
  else if newMetadata.platforms = [] then .error "Metadata platforms dictionary is empty"
  else
    match missingPlatform newMetadata.platforms with
    | some reason => .error reason
    | none =>
        match currentFeed.bind UpdaterMetadata.feedVersion with
        | none => .ok ()
        | some current =>
            if canAdvanceFeed number newMetadata.version (some current) then .ok ()
            else
              let version := String.ofList newMetadata.version
              let current := String.ofList current
              .error s!"New version {version} is not newer than current feed version {current}; cannot move feed backward"

/-- The metadata that `updateNightlyFeed` uploads, or the message of its error. The file
`latest.json` can be missing, and what the query reads of the feed is given. -/
def updateNightlyFeed (latestJsonPath : String) (latestJson : Option UpdaterMetadata)
    (targetTag : Chars) (currentFeed : Option UpdaterMetadata) : Except String UpdaterMetadata :=
  match latestJson with
  | none => .error s!"latest.json not found at: {latestJsonPath}"
  | some raw =>
      let prepared := prepareFeedMetadata raw targetTag
      match validateFeedUpdate number prepared currentFeed with
      | .error reason => .error s!"Feed update rejected: {reason}"
      | .ok () => .ok prepared

variable {number}

/-- An update that is allowed has a version, and a greater one than was read. -/
lemma validateFeedUpdate_eq_ok {m : UpdaterMetadata} {current : Option UpdaterMetadata}
    (h : validateFeedUpdate number m current = .ok ()) :
    m.version ≠ [] ∧ ∀ v, current.bind UpdaterMetadata.feedVersion = some v →
      0 < compareVersions number m.version v := by
  unfold validateFeedUpdate at h
  split_ifs at h with hversion hplatforms
  refine ⟨hversion, fun v hv => ?_⟩
  split at h
  · cases h
  · simp only [hv] at h
    split_ifs at h with hadvance
    have hne : v ≠ [] := by
      obtain ⟨feed, -, hfeed⟩ := Option.bind_eq_some_iff.mp hv
      unfold UpdaterMetadata.feedVersion at hfeed
      split_ifs at hfeed with hempty
      obtain rfl := Option.some.inj hfeed
      exact hempty
    simpa [canAdvanceFeed, hne] using hadvance

lemma updateNightlyFeed_eq_ok {path : String} {latestJson : Option UpdaterMetadata}
    {targetTag : Chars} {current : Option UpdaterMetadata} {m : UpdaterMetadata}
    (h : updateNightlyFeed number path latestJson targetTag current = .ok m) :
    ∃ raw, latestJson = some raw ∧ m = prepareFeedMetadata raw targetTag
      ∧ validateFeedUpdate number m current = .ok () := by
  unfold updateNightlyFeed at h
  split at h
  · cases h
  · rename_i raw
    dsimp only at h
    split at h
    · cases h
    · rename_i hvalid
      obtain rfl := Except.ok.inj h
      exact ⟨raw, rfl, rfl, hvalid⟩

/-- **What is published is newer than what was read of the feed.** -/
theorem update_newer {path : String} {latestJson : Option UpdaterMetadata} {targetTag : Chars}
    {current : Option UpdaterMetadata} {m : UpdaterMetadata}
    (h : updateNightlyFeed number path latestJson targetTag current = .ok m) :
    m.version ≠ [] ∧ ∀ v, current.bind UpdaterMetadata.feedVersion = some v →
      place number v < place number m.version := by
  obtain ⟨raw, -, -, hvalid⟩ := updateNightlyFeed_eq_ok h
  obtain ⟨hne, hnewer⟩ := validateFeedUpdate_eq_ok hvalid
  exact ⟨hne, fun v hv => compareVersions_pos_iff.mp (hnewer v hv)⟩

/-! ### The release of a URL -/

/-- A URL under `/releases/download/` is of the release of a tag. -/
def NamesTag (tag url : Chars) : Prop :=
  ∀ before after, splitOnce url releasesDownload = some (before, after) → tag ++ ['/'] <+: after

/-- What follows `/releases/download/` in a URL is the name of a release, and something in it. -/
def HasRelease (url : Chars) : Prop :=
  ∀ before after, splitOnce url releasesDownload = some (before, after) →
    ∃ release rest, after = release ++ '/' :: rest ∧ release ≠ [] ∧ '/' ∉ release

/-- A text that stands for itself as a replacement. -/
def Literal (s : Chars) : Prop :=
  ∀ before c after, s = before ++ '$' :: c :: after →
    c ≠ '$' ∧ c ≠ '&' ∧ c ≠ Char.ofNat 0x60 ∧ c ≠ Char.ofNat 0x27

lemma releasesDownload_ne_nil : releasesDownload ≠ [] := by decide

/-- The expression matches at a release with something in it. -/
lemma matchDownload_append {release rest : Chars} (hne : release ≠ []) (hslash : '/' ∉ release) :
    matchDownload (releasesDownload ++ (release ++ '/' :: rest)) = some rest := by
  have hall : ∀ c ∈ release, decide (c ≠ '/') = true := by
    intro c hc
    refine decide_eq_true ?_
    rintro rfl
    exact hslash hc
  simp only [matchDownload, dropPrefix?_eq_some.mpr rfl, Option.bind_eq_bind, Option.bind_some,
    List.takeWhile_append_of_pos hall, List.dropWhile_append_of_pos hall]
  rw [List.takeWhile_cons_of_neg (by decide), List.dropWhile_cons_of_neg (by decide),
    List.append_nil, if_neg hne]
  exact dropPrefix?_eq_some.mpr rfl

lemma matchDownload_eq_none {s : Chars} (h : ¬releasesDownload <+: s) : matchDownload s = none := by
  unfold matchDownload
  cases hdrop : s.dropPrefix? releasesDownload with
  | none => rfl
  | some rest => exact absurd ⟨rest, (dropPrefix?_eq_some.mp hdrop).symm⟩ h

/-- The first match is the first occurrence, where that is of a release. -/
lemma findDownload_eq_some {before release rest : Chars} (hne : release ≠ [])
    (hslash : '/' ∉ release) {url : Chars}
    (h : splitOnce url releasesDownload = some (before, release ++ '/' :: rest)) :
    findDownload url = some (before, rest) := by
  induction before generalizing url with
  | nil =>
      obtain ⟨rfl, -⟩ := splitOnce_eq_some.mp h
      rw [List.nil_append]
      have hmatch : matchDownload (releasesDownload ++ (release ++ '/' :: rest)) = some rest :=
        matchDownload_append hne hslash
      obtain ⟨c, s, hcons⟩ := List.exists_cons_of_ne_nil
        (List.append_ne_nil_of_left_ne_nil releasesDownload_ne_nil (release ++ '/' :: rest))
      rw [hcons] at hmatch ⊢
      rw [findDownload, hmatch]
  | cons c before ih =>
      obtain ⟨rfl, -⟩ := splitOnce_eq_some.mp h
      rw [List.cons_append, List.cons_append] at h ⊢
      obtain ⟨hrest, hnot⟩ := splitOnce_cons h
      rw [findDownload, matchDownload_eq_none hnot, ih hrest]
      rfl

lemma Literal.tail {c : Char} {s : Chars} (h : Literal (c :: s)) : Literal s := by
  rintro before d after rfl
  exact h (c :: before) d after rfl

lemma expandReplacement_literal (before matched rest : Chars) {s : Chars} (h : Literal s) :
    expandReplacement before matched rest s = s := by
  fun_induction expandReplacement before matched rest s with
  | case1 => rfl
  | case2 => rfl
  | case3 c d s hmatch => exact absurd hmatch.2 (h [] d s (by rw [hmatch.1]; rfl)).1
  | case4 c d s _ hmatch => exact absurd hmatch.2 (h [] d s (by rw [hmatch.1]; rfl)).2.1
  | case5 c d s _ _ hmatch => exact absurd hmatch.2 (h [] d s (by rw [hmatch.1]; rfl)).2.2.1
  | case6 c d s _ _ _ hmatch => exact absurd hmatch.2 (h [] d s (by rw [hmatch.1]; rfl)).2.2.2
  | case7 c d s _ _ _ _ ih => rw [ih h.tail]

/-- A slash at the end is no part of a pattern. -/
lemma Literal.slash {s : Chars} (h : Literal s) : Literal (s ++ ['/']) := by
  intro before c after heq
  rcases List.eq_nil_or_concat' after with rfl | ⟨after', d, rfl⟩
  · have hlast : s ++ ['/'] = (before ++ ['$']) ++ [c] := by simpa using heq
    obtain rfl : '/' = c := by simpa using (List.append_inj' hlast rfl).2
    decide
  · have hlast : s ++ ['/'] = (before ++ '$' :: c :: after') ++ [d] := by simpa using heq
    exact h before c after' (List.append_inj' hlast rfl).1

lemma Literal.append {s t : Chars} (hs : '$' ∉ s) (h : Literal t) : Literal (s ++ t) := by
  induction s with
  | nil => exact h
  | cons d s ih =>
      obtain ⟨hd, hs⟩ := List.ne_and_not_mem_of_not_mem_cons hs
      intro before c after heq
      cases before with
      | nil => exact absurd (List.cons.inj heq).1.symm hd
      | cons b before => exact ih hs before c after (List.cons.inj heq).2

/-- A URL of a release is made one of the tag. -/
lemma namesTag_retarget {tag url : Chars} (htag : Literal tag) (hurl : HasRelease url) :
    NamesTag tag (if (splitOnce url releasesDownload).isSome then retarget tag url else url) := by
  cases hsplit : splitOnce url releasesDownload with
  | none =>
      rw [if_neg (by simp)]
      rintro before after h
      rw [hsplit] at h
      cases h
  | some parts =>
      obtain ⟨before, after⟩ := parts
      rw [if_pos (Option.isSome_some)]
      obtain ⟨release, rest, rfl, hne, hslash⟩ := hurl before after hsplit
      rw [retarget, findDownload_eq_some hne hslash hsplit]
      dsimp only
      rw [List.append_assoc releasesDownload,
        expandReplacement_literal _ _ _ (htag.slash.append (by decide))]
      obtain ⟨rfl, -⟩ := splitOnce_eq_some.mp hsplit
      rintro before' after' h
      have hassoc : before ++ (releasesDownload ++ (tag ++ ['/'])) ++ rest
          = before ++ releasesDownload ++ (tag ++ ['/'] ++ rest) := by simp
      rw [hassoc, splitOnce_congr hsplit] at h
      obtain ⟨rfl, rfl⟩ := Prod.mk.inj (Option.some.inj h)
      exact List.prefix_append _ rest

/-- **Every URL of a release names the target tag.** -/
theorem namesTag_of_prepare {raw : UpdaterMetadata} {targetTag : Chars}
    (htag : Literal (releaseTag targetTag)) (hurls : ∀ p ∈ raw.platforms, HasRelease p.2.url) :
    ∀ p ∈ (prepareFeedMetadata raw targetTag).platforms,
      NamesTag (releaseTag targetTag) p.2.url := by
  intro p hp
  obtain ⟨q, hq, rfl⟩ := List.mem_map.mp hp
  exact namesTag_retarget htag (hurls q hq)

end ShaPrint.Nightly
