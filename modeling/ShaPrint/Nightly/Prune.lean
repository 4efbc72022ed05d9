import Mathlib.Data.List.Sort
import ShaPrint.Nightly.Feed

/-!
The releases that are pruned, `scripts/nightly/prune.ts` and `executePrunePlan` of
`scripts/nightly/publish.ts`.

* `determinePrunePlan`: the plan; `classify_eq` says what the loop over the releases finds.
* `executePrunePlan`: the releases that are deleted, by the plan and three checks of its own.
* `newestFirst`: the nightlies in the order of the plan, `newestFirst_pairwise`.
* `deleted_is_old`: what a run deletes.
-/

namespace ShaPrint.Nightly

open Split

structure GitHubReleaseItem where
  tagName : Chars
  name : Option Chars
  isPrerelease : Bool
  isDraft : Bool
  deriving DecidableEq, Repr

structure PrunePlan where
  toRetain : List GitHubReleaseItem
  toDelete : List GitHubReleaseItem
  feedHolder : Option GitHubReleaseItem
  stableReleases : List GitHubReleaseItem

structure PruneOptions where
  activeFeedTag : Option Chars
  retainCount : Option ℤ
  feedHolderTag : Option Chars

/-- `options.feedHolderTag || "nightly"` -/
def PruneOptions.holder (o : PruneOptions) : Chars :=
  match o.feedHolderTag with
  | none | some [] => "nightly".toList
  | some tag => tag

/-- The tag of the feed that is compared with, if there is one. -/
def PruneOptions.active (o : PruneOptions) : Option Chars :=
  (o.activeFeedTag.map (trimBoth isJsSpace)).filter (· ≠ [])

/-- `options.retainCount ?? 10` -/
def PruneOptions.retain (o : PruneOptions) : ℤ := o.retainCount.getD 10

/-- The feed holder, the stable releases and the versioned nightlies so far. -/
structure Classified where
  feedHolder : Option GitHubReleaseItem := none
  stableReleases : List GitHubReleaseItem := []
  versionedNightlies : List GitHubReleaseItem := []

/-- A release is put with its kind. -/
def classify (holder : Chars) (k : Classified) (rel : GitHubReleaseItem) : Classified :=
  if rel.tagName = holder then { k with feedHolder := some rel }
  else if (parseNightlyVersion rel.tagName).isNone || !rel.isPrerelease then
    { k with stableReleases := k.stableReleases ++ [rel] }
  else { k with versionedNightlies := k.versionedNightlies ++ [rel] }

variable (number : Numbers)

/-- `versionedNightlies.sort(...)`, which is stable: newest first. -/
def newestFirst (nightlies : List GitHubReleaseItem) : List GitHubReleaseItem :=
  nightlies.insertionSort fun a b => compareVersions number b.tagName a.tagName ≤ 0

/-- A nightly is retained among the first, or as the one of the feed. -/
def isRetained (o : PruneOptions) (p : GitHubReleaseItem × ℕ) : Bool :=
  p.2 < o.retain || o.active = some p.1.tagName

def determinePrunePlan (releases : List GitHubReleaseItem) (o : PruneOptions) : PrunePlan :=
  let k := releases.foldl (classify o.holder) {}
  let nightlies := (newestFirst number k.versionedNightlies).zipIdx
  { toRetain := (nightlies.filter (isRetained o)).map Prod.fst
    toDelete := (nightlies.filter fun p => !isRetained o p).map Prod.fst
    feedHolder := k.feedHolder
    stableReleases := k.stableReleases }

/-- The checks before a release is deleted. -/
def isDeletable (rel : GitHubReleaseItem) : Bool :=
  !(rel.tagName == "nightly".toList || rel.tagName == "nightly-feed".toList)
    && rel.isPrerelease && (parseNightlyVersion rel.tagName).isSome

/-- The tags of the releases that `executePrunePlan` deletes. The deletion of a tag can fail. -/
def executePrunePlan (plan : PrunePlan) (fails : List Chars) : List Chars :=
  ((plan.toDelete.filter isDeletable).map GitHubReleaseItem.tagName).filter (!fails.contains ·)

/-- `pruneOldNightlyReleases`: a listing that fails is an empty one. -/
def pruneOldNightlyReleases (o : PruneOptions) (listing : Option (List GitHubReleaseItem))
    (fails : List Chars) : List Chars :=
  executePrunePlan (determinePrunePlan number (listing.getD []) o) fails

/-! ### The plan -/

/-- A versioned nightly prerelease that does not hold the feed. -/
def isNightly (holder : Chars) (rel : GitHubReleaseItem) : Bool :=
  rel.tagName ≠ holder && (parseNightlyVersion rel.tagName).isSome && rel.isPrerelease

variable {number} {o : PruneOptions} {holder : Chars}

/-- The loop finds the nightlies. -/
lemma classify_versionedNightlies (releases : List GitHubReleaseItem) (k : Classified) :
    (releases.foldl (classify holder) k).versionedNightlies
      = k.versionedNightlies ++ releases.filter (isNightly holder) := by
  induction releases generalizing k with
  | nil => simp
  | cons rel releases ih =>
      rw [List.foldl_cons, ih, List.filter_cons]
      by_cases hholder : rel.tagName = holder
      · simp [classify, isNightly, hholder]
      · cases hparse : parseNightlyVersion rel.tagName <;> cases hpre : rel.isPrerelease <;>
          simp [classify, isNightly, hholder, hparse, hpre]

/-- The sort puts no older nightly before a newer one. -/
lemma newestFirst_pairwise (nightlies : List GitHubReleaseItem) :
    (newestFirst number nightlies).Pairwise
      fun a b => place number b.tagName ≤ place number a.tagName := by
  have hle : ∀ a b : GitHubReleaseItem, compareVersions number b.tagName a.tagName ≤ 0
      ↔ place number b.tagName ≤ place number a.tagName := by
    intro a b
    rw [← not_lt, compareVersions_pos_iff, not_lt]
  have : Std.Total fun a b : GitHubReleaseItem =>
      compareVersions number b.tagName a.tagName ≤ 0 := by
    refine ⟨fun a b => ?_⟩
    rw [hle, hle]
    exact le_total _ _
  have : IsTrans GitHubReleaseItem fun a b =>
      compareVersions number b.tagName a.tagName ≤ 0 := by
    refine ⟨fun a b c hab hbc => ?_⟩
    rw [hle] at hab hbc ⊢
    exact hbc.trans hab
  exact (List.pairwise_insertionSort _ nightlies).imp fun h => (hle _ _).mp h

lemma newestFirst_perm (nightlies : List GitHubReleaseItem) :
    (newestFirst number nightlies).Perm nightlies := List.perm_insertionSort _ _

/-- What is deleted is a nightly beyond the number that is retained, and not that of the feed. -/
structure Old (number : Numbers) (o : PruneOptions) (listing : List GitHubReleaseItem)
    (rel : GitHubReleaseItem) : Prop where
  listed : rel ∈ listing
  nightly : isNightly o.holder rel = true
  deletable : isDeletable rel = true
  inactive : o.active ≠ some rel.tagName
  beyond : rel ∈ (newestFirst number (listing.filter (isNightly o.holder))).drop o.retain.toNat

/-- **What a run deletes is old.** -/
theorem deleted_is_old {listing : Option (List GitHubReleaseItem)} {fails : List Chars} {tag : Chars}
    (h : tag ∈ pruneOldNightlyReleases number o listing fails) :
    ∃ rel, Old number o (listing.getD []) rel ∧ rel.tagName = tag := by
  have h := List.mem_of_mem_filter h
  obtain ⟨rel, hrel, rfl⟩ := List.mem_map.mp h
  obtain ⟨hplan, hdeletable⟩ := List.mem_filter.mp hrel
  obtain ⟨⟨rel, i⟩, hmem, rfl⟩ := List.mem_map.mp hplan
  obtain ⟨hindex, hretained⟩ := List.mem_filter.mp hmem
  rw [classify_versionedNightlies] at hindex
  simp only [List.nil_append] at hindex
  have hat := List.mem_zipIdx_iff_getElem?.mp hindex
  have hnew : rel ∈ newestFirst number ((listing.getD []).filter (isNightly o.holder)) :=
    List.mem_of_getElem? hat
  obtain ⟨hlisted, hnightly⟩ := List.mem_filter.mp ((newestFirst_perm _).mem_iff.mp hnew)
  have hnot : ¬((i : ℤ) < o.retain) ∧ o.active ≠ some rel.tagName := by
    simpa [isRetained] using hretained
  refine ⟨rel, ⟨hlisted, hnightly, hdeletable, hnot.2, ?_⟩, rfl⟩
  rw [List.mem_iff_getElem?]
  exact ⟨i - o.retain.toNat, by rw [List.getElem?_drop, ← hat]; congr 1; omega⟩

end ShaPrint.Nightly
