import ShaPrint.Nightly.Version

/-!
Every nightly is an upgrade of those before it.

* `IsHighest`: what the loop over the existing nightlies has found; `IsHighest.foldl`.
* `Release`: the versions, the tags and the run number of a build, whose numbers the script
  represents exactly.
* `exists_targetBase`: the base of the next version is none of the others' predecessors.
* `calculateNext_isNext`: the next version is a nightly, it comes after every existing one, and
  its base is not below that of the main branch.
-/

namespace ShaPrint.Nightly

open Digits

/-! ### The highest nightly -/

/-- The base and the build of the highest of some nightlies. -/
inductive IsHighest (seen : List ParsedNightlyVersion) : Option Chars × ℕ → Prop where
  | nothing (hnil : seen = []) : IsHighest seen (none, 0)
  | found {b : Base} {build : ℕ} (hle : ∀ n ∈ seen, n.key ≤ toLex (b.key, build))
      (hmem : ∃ n ∈ seen, n.toBase = b ∧ n.build = build) :
      IsHighest seen (some (formatBase b), build)

lemma compare_formatBase (a b : Base) :
    compareBaseSemver (formatBase a) (formatBase b) = a.compare b :=
  compareBaseSemver_eq (isPlain_formatBase a).parseBaseSemver (isPlain_formatBase b).parseBaseSemver

lemma IsHighest.higher {seen : List ParsedNightlyVersion} {highest : Option Chars × ℕ}
    (h : IsHighest seen highest) (n : ParsedNightlyVersion) :
    IsHighest (seen ++ [n]) (higher highest n) := by
  cases h with
  | nothing hnil =>
      subst hnil
      refine .found (b := n.toBase) (fun m hm => ?_) ⟨n, by simp, rfl, rfl⟩
      obtain rfl := List.mem_singleton.mp hm
      exact le_rfl
  | found hle hmem =>
      rename_i b build
      rw [Nightly.higher, compare_formatBase]
      split_ifs with hpos hzero hbuild
      · -- a higher base
        have hlt := Base.compare_pos_iff.mp hpos
        refine .found (fun m hm => ?_) ⟨n, by simp, rfl, rfl⟩
        rcases List.mem_append.mp hm with hm | hm
        · exact (hle m hm).trans (Prod.Lex.toLex_le_toLex.mpr (.inl hlt))
        · obtain rfl := List.mem_singleton.mp hm
          exact le_rfl
      · -- a higher build of the same base
        obtain rfl := Base.compare_eq_zero_iff.mp hzero
        refine .found (fun m hm => ?_) ⟨n, by simp, rfl, rfl⟩
        rcases List.mem_append.mp hm with hm | hm
        · exact (hle m hm).trans (Prod.Lex.toLex_le_toLex.mpr (.inr ⟨rfl, hbuild.le⟩))
        · obtain rfl := List.mem_singleton.mp hm
          exact le_rfl
      · obtain rfl := Base.compare_eq_zero_iff.mp hzero
        obtain ⟨top, htop, hbase, hbuildTop⟩ := hmem
        refine .found (fun m hm => ?_) ⟨top, List.mem_append_left _ htop, hbase, hbuildTop⟩
        rcases List.mem_append.mp hm with hm | hm
        · exact hle m hm
        · obtain rfl := List.mem_singleton.mp hm
          exact Prod.Lex.toLex_le_toLex.mpr (.inr ⟨rfl, Nat.not_lt.mp hbuild⟩)
      · -- a lower base
        have hle' : n.toBase.key ≤ b.key := by
          rw [Base.compare_pos_iff, not_lt] at hpos
          exact hpos
        have hne : n.toBase.key ≠ b.key := fun heq =>
          hzero (Base.compare_eq_zero_iff.mpr (Base.key_injective heq))
        obtain ⟨top, htop, htopEq⟩ := hmem
        refine .found (fun m hm => ?_) ⟨top, List.mem_append_left _ htop, htopEq⟩
        rcases List.mem_append.mp hm with hm | hm
        · exact hle m hm
        · obtain rfl := List.mem_singleton.mp hm
          exact Prod.Lex.toLex_le_toLex.mpr (.inl (lt_of_le_of_ne hle' hne))

/-- The loop finds the highest nightly, in whatever order they come. -/
theorem IsHighest.foldl (nightlies : List ParsedNightlyVersion) :
    IsHighest nightlies (nightlies.foldl Nightly.higher (none, 0)) := by
  induction nightlies using List.reverseRecOn with
  | nil => exact .nothing rfl
  | append_singleton nightlies n ih =>
      rw [List.foldl_append, List.foldl_cons, List.foldl_nil]
      exact ih.higher n

/-! ### The next version -/

/-- A version `X.Y.Z`, perhaps behind a `v` and before a suffix. -/
def IsBaseVersion (version : Chars) (b : Base) : Prop := matchBase (baseText version) = some (b, [])

instance (version : Chars) (b : Base) : Decidable (IsBaseVersion version b) :=
  inferInstanceAs (Decidable (_ = _))

/-- Numbers that have a successor which is represented exactly. -/
def Base.IsSafe (b : Base) : Prop :=
  b.major < maxSafeInteger ∧ b.minor < maxSafeInteger ∧ b.patch < maxSafeInteger

/-- What a version is calculated from. -/
structure Release where
  options : CalculateVersionOptions
  base : Base
  main : IsBaseVersion options.currentMainBaseVersion base
  main_safe : base.IsSafe
  commit : ∀ version ∈ options.commitBaseVersion,
    version = [] ∨ ∃ b, IsBaseVersion version b ∧ b.IsSafe
  tags_safe : ∀ tag ∈ options.existingTagsOrVersions, ∀ p ∈ parseNightlyVersion tag,
    p.toBase.IsSafe ∧ p.build < maxSafeInteger
  run_safe : ∀ runNumber ∈ options.runNumber, runNumber < maxSafeInteger

/-- The next version is a nightly after the existing ones, and not below the main branch. -/
structure IsNext (options : CalculateVersionOptions) (next : CalculatedNightlyVersion) : Prop where
  wellFormed : ∃ p, parseNightlyVersion next.version = some p
    ∧ parseBaseSemver next.baseVersion = some p.toBase ∧ p.build = next.buildNumber
    ∧ p.toBase.IsSafe ∧ p.build ≤ maxSafeInteger
  newer : ∀ tag ∈ options.existingTagsOrVersions, (parseNightlyVersion tag).isSome →
    0 < compareNightlyVersions next.version tag
  main_le : ∃ main next', parseBaseSemver options.currentMainBaseVersion = some main
    ∧ parseBaseSemver next.baseVersion = some next'
    ∧ 0 ≤ compareBaseSemver next.baseVersion options.currentMainBaseVersion

lemma IsBaseVersion.isPlain {version : Chars} {b : Base} (h : IsBaseVersion version b) :
    IsPlain (baseText version) b := isPlain_of_matchBase h

lemma IsBaseVersion.parseBaseSemver {version : Chars} {b : Base} (h : IsBaseVersion version b) :
    parseBaseSemver version = some b := by
  have hrest : ∀ c ∈ ((cleanVersionString version).dropWhile (· ≠ '-')).head?,
      c.isDigit = false := by
    intro c hc
    have hhyphen := Split.head?_dropWhile_false hc
    obtain rfl : c = '-' := by simpa using hhyphen
    rfl
  have hmatch := h.isPlain.matchBase_append _ hrest
  rw [baseText, List.takeWhile_append_dropWhile] at hmatch
  rw [Nightly.parseBaseSemver, hmatch]
  rfl

lemma Release.exists_commitBase (r : Release) :
    ∃ b, IsPlain r.options.commitBase b ∧ b.IsSafe := by
  unfold CalculateVersionOptions.commitBase
  split
  · exact ⟨r.base, r.main.isPlain, r.main_safe⟩
  · rename_i version hversion
    split
    · exact ⟨r.base, r.main.isPlain, r.main_safe⟩
    · rename_i hne
      obtain ⟨b, hb, hsafe⟩ := (r.commit version hversion).resolve_left hne
      exact ⟨b, hb.isPlain, hsafe⟩

/-- The greater of two bases is one of them, and not below the other. -/
lemma exists_greater {a b : Chars} {pa pb : Base} (ha : IsPlain a pa) (hb : IsPlain b pb)
    (hpa : pa.IsSafe) (hpb : pb.IsSafe) :
    ∃ p : Base, IsPlain (if 0 < compareBaseSemver a b then a else b) p ∧ p.IsSafe
      ∧ pa.key ≤ p.key ∧ pb.key ≤ p.key := by
  rw [compareBaseSemver_eq ha.parseBaseSemver hb.parseBaseSemver]
  split_ifs with hpos
  · exact ⟨pa, ha, hpa, le_rfl, (Base.compare_pos_iff.mp hpos).le⟩
  · rw [Base.compare_pos_iff, not_lt] at hpos
    exact ⟨pb, hb, hpb, hpos, le_rfl⟩

/-- The base of the next version is not below the others. -/
lemma Release.exists_targetBase (r : Release) {highest : Option Chars}
    (hhighest : ∀ text ∈ highest, ∃ b, text = formatBase b ∧ b.IsSafe) :
    ∃ p : Base, IsPlain (r.options.targetBase highest) p ∧ p.IsSafe ∧ r.base.key ≤ p.key
      ∧ ∀ b, highest = some (formatBase b) → b.key ≤ p.key := by
  obtain ⟨commit, hcommit, hcommitSafe⟩ := r.exists_commitBase
  cases highest with
  | none =>
      obtain ⟨p, hp, hsafe, -, hmain⟩ :=
        exists_greater hcommit r.main.isPlain hcommitSafe r.main_safe
      exact ⟨p, hp, hsafe, hmain, nofun⟩
  | some text =>
      obtain ⟨top, rfl, htop⟩ := hhighest text rfl
      obtain ⟨target, htarget, htargetSafe, htopLe, hmainLe⟩ :=
        exists_greater (isPlain_formatBase top) r.main.isPlain htop r.main_safe
      obtain ⟨p, hp, hsafe, -, hle⟩ :=
        exists_greater hcommit htarget hcommitSafe htargetSafe
      refine ⟨p, hp, hsafe, hmainLe.trans hle, fun b hb => ?_⟩
      have hbases := (isPlain_formatBase b).parseBaseSemver
      rw [← Option.some.inj hb, (isPlain_formatBase top).parseBaseSemver] at hbases
      obtain rfl := Option.some.inj hbases
      exact htopLe.trans hle

lemma le_withRunNumber (build : ℕ) (runNumber : Option ℤ) :
    build ≤ withRunNumber build runNumber := by
  unfold withRunNumber
  split
  · exact le_rfl
  · split_ifs <;> omega

lemma withRunNumber_le {build limit : ℕ} {runNumber : Option ℤ} (hbuild : build ≤ limit)
    (hrun : ∀ n ∈ runNumber, n < limit) : withRunNumber build runNumber ≤ limit := by
  unfold withRunNumber
  split
  · exact hbuild
  · rename_i n
    have hn := hrun n rfl
    split_ifs <;> omega

/-- The next build of a base that is not below the highest one comes after all. -/
lemma IsHighest.lt_next {seen : List ParsedNightlyVersion} {highest : Option Chars × ℕ}
    {text : Chars} {p : Base} {build : ℕ} (h : IsHighest seen highest) (hp : IsPlain text p)
    (htop : ∀ b, highest.1 = some (formatBase b) → b.key ≤ p.key)
    (hbuild : nextBuild text highest ≤ build) : ∀ n ∈ seen, n.key < toLex (p.key, build) := by
  intro n hn
  cases h with
  | nothing hnil =>
      subst hnil
      cases hn
  | found hle hmem =>
      rename_i b top
      refine (hle n hn).trans_lt (Prod.Lex.toLex_lt_toLex.mpr ?_)
      rcases (htop b rfl).lt_or_eq with hlt | heq
      · exact .inl hlt
      · obtain rfl := Base.key_injective heq
        have hzero := Base.compare_eq_zero_iff.mpr (Eq.refl b)
        rw [nextBuild,
          compareBaseSemver_eq hp.parseBaseSemver (isPlain_formatBase b).parseBaseSemver,
          if_pos hzero] at hbuild
        exact .inr ⟨rfl, hbuild⟩

lemma IsHighest.nextBuild_le {seen : List ParsedNightlyVersion} {highest : Option Chars × ℕ}
    {limit : ℕ} (h : IsHighest seen highest) (text : Chars) (hlimit : 0 < limit)
    (hseen : ∀ n ∈ seen, n.build < limit) : nextBuild text highest ≤ limit := by
  cases h with
  | nothing hnil => exact hlimit
  | found hle hmem =>
      obtain ⟨n, hn, -, rfl⟩ := hmem
      have hlt := hseen n hn
      unfold nextBuild
      dsimp only
      split_ifs <;> omega

lemma channel_of_parse {v : Chars} {p : ParsedNightlyVersion}
    (h : parseNightlyVersion v = some p) : p.channel = "nightly".toList := by
  simp only [parseNightlyVersion, Option.bind_eq_bind, Option.bind_eq_some_iff, Prod.exists,
    Option.ite_none_right_eq_some, Option.some.injEq] at h
  obtain ⟨_, _, -, _, -, _, _, -, -, rfl⟩ := h
  rfl

/-- **Nightlies increase.** For every main version and every commit, every list of tags and
every run number, the next version is a well-formed nightly, compares greater than every tag that
is one, and its base is not below that of the main branch. Its numbers are represented exactly. -/
theorem calculateNext_isNext (r : Release) :
    IsNext r.options (calculateNextNightlyVersion r.options) := by
  have hnightlies : ∀ n,
      n ∈ (r.options.existingTagsOrVersions.filterMap parseNightlyVersion).filter
          (fun p => p.channel = "nightly".toList)
        ↔ ∃ tag ∈ r.options.existingTagsOrVersions, parseNightlyVersion tag = some n := by
    intro n
    rw [List.mem_filter, List.mem_filterMap]
    constructor
    · exact fun h => h.1
    · rintro ⟨tag, htag, hn⟩
      exact ⟨⟨tag, htag, hn⟩, decide_eq_true (channel_of_parse hn)⟩
  have hhighest := IsHighest.foldl
    ((r.options.existingTagsOrVersions.filterMap parseNightlyVersion).filter
      fun p => p.channel = "nightly".toList)
  unfold calculateNextNightlyVersion
  dsimp only
  generalize (r.options.existingTagsOrVersions.filterMap parseNightlyVersion).filter
    (fun p => p.channel = "nightly".toList) = nightlies at *
  generalize nightlies.foldl higher (none, 0) = highest at *
  have hsafe : ∀ n ∈ nightlies, n.toBase.IsSafe ∧ n.build < maxSafeInteger := by
    intro n hn
    obtain ⟨tag, htag, hparse⟩ := (hnightlies n).mp hn
    exact r.tags_safe tag htag n hparse
  have hbase : ∀ text ∈ highest.1, ∃ b, text = formatBase b ∧ b.IsSafe := by
    intro text htext
    cases hhighest with
    | nothing => cases htext
    | found hle hmem =>
        obtain ⟨n, hn, rfl, -⟩ := hmem
        exact ⟨n.toBase, (Option.some.inj htext).symm, (hsafe n hn).1⟩
  obtain ⟨p, hp, hpSafe, hmain, htop⟩ := r.exists_targetBase hbase
  generalize r.options.targetBase highest.1 = target at *
  have hbuild := le_withRunNumber (nextBuild target highest) r.options.runNumber
  have hlimit := withRunNumber_le
    (hhighest.nextBuild_le target (by decide) fun n hn => (hsafe n hn).2) r.run_safe
  generalize withRunNumber (nextBuild target highest) r.options.runNumber = build at *
  have hparse := hp.parseNightlyVersion build
  have hlt := hhighest.lt_next hp htop hbuild
  refine ⟨⟨_, hparse, hp.parseBaseSemver, rfl, hpSafe, hlimit⟩, ?_, ?_⟩
  · intro tag htag hsome
    obtain ⟨n, hn⟩ := Option.isSome_iff_exists.mp hsome
    exact (compareNightly_pos_iff hparse hn).mpr (hlt n ((hnightlies n).mpr ⟨tag, htag, hn⟩))
  · refine ⟨r.base, p, r.main.parseBaseSemver, hp.parseBaseSemver, ?_⟩
    dsimp only
    rw [compareBaseSemver_eq hp.parseBaseSemver r.main.parseBaseSemver]
    exact Base.compare_nonneg_iff.mpr hmain

/-- The highest base wins over the one of the main branch, and its builds go on. -/
example : (calculateNextNightlyVersion ⟨"v3.4.0-beta.1".toList, some " 3.3.0".toList,
    ["v3.4.1-nightly.2".toList, "v3.4.0".toList, "3.4.1-nightly.7".toList,
      "3.4.0-nightly.9".toList],
    some 5⟩).version = "3.4.1-nightly.8".toList := by
  decide +kernel

end ShaPrint.Nightly
