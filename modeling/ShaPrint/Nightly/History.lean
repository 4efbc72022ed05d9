import Mathlib.Data.List.Nodup
import ShaPrint.Lib.StepSystem
import ShaPrint.Nightly.Prune

/-!
The nightly feed and the nightly releases over every history of updates and prunes.

* `GitHub`, `Event`, `nightlies`: the feed, the releases, and what happens to them. What a query
  reads is given with the run, so that it can be late, and be nothing where the query failed.
* `PrunesOld`, `Steady`: what is promised of a prune, and of a history.
* `Timely`: the queries read what is there, and what is published is of a release.
* `steady_of_run`: every history of such runs keeps the promise (`failed_query_moves_back`).
-/

namespace ShaPrint.Nightly

/-! ### Histories -/

/-- The feed's `latest.json`, the versions it has had, oldest first, and the releases. -/
structure GitHub where
  feed : Option UpdaterMetadata
  published : List Chars
  releases : List GitHubReleaseItem

/-- How the upload of the feed's asset ends: the old asset is removed first. -/
inductive Upload where
  | uploaded
  | kept
  | lost
  deriving DecidableEq

structure UpdateRun where
  latestJsonPath : String
  latestJson : Option UpdaterMetadata
  targetTag : Chars
  /-- What `getFeedMetadata` answers, which is nothing if a query fails. -/
  reads : Option UpdaterMetadata
  upload : Upload

structure PruneRun where
  options : PruneOptions
  /-- What `listReleases` reads, if its query does not fail. -/
  listing : Option (List GitHubReleaseItem)
  fails : List Chars

inductive Event where
  | update (run : UpdateRun)
  | prune (run : PruneRun)
  /-- Anything else that is done to the releases. -/
  | release (releases : List GitHubReleaseItem)

variable (number : Numbers)

def UpdateRun.metadata (r : UpdateRun) : Except String UpdaterMetadata :=
  updateNightlyFeed number r.latestJsonPath r.latestJson r.targetTag r.reads

def deleteReleaseAndTag (releases : List GitHubReleaseItem) (tag : Chars) :
    List GitHubReleaseItem :=
  releases.eraseP fun rel => rel.tagName = tag

def step (s : GitHub) : Event → Option GitHub
  | .update r =>
      match r.metadata number, r.upload with
      | .ok m, .uploaded => some { s with feed := some m, published := s.published ++ [m.version] }
      | .ok _, .lost => some { s with feed := none }
      | .ok _, .kept | .error _, _ => some s
  | .prune r =>
      some { s with
        releases := (pruneOldNightlyReleases number r.options r.listing r.fails).foldl
          deleteReleaseAndTag s.releases }
  | .release releases => some { s with releases }

/-- The histories from a feed and some releases on. -/
def nightlies (feed : Option UpdaterMetadata) (releases : List GitHubReleaseItem) :
    StepSystem GitHub Event :=
  ⟨⟨feed, (feed.bind UpdaterMetadata.feedVersion).toList, releases⟩, step number⟩

/-! ### What is promised -/

/-- The nightlies that a prune finds. -/
def PruneRun.listed (r : PruneRun) : List GitHubReleaseItem :=
  (r.listing.getD []).filter (isNightly r.options.holder)

/-- A prune removes nothing but nightly prereleases, not that of the feed, and leaves the newest
of those it finds. -/
structure PrunesOld (r : PruneRun) (u v : GitHub) : Prop where
  removed : ∀ rel ∈ u.releases, rel ∉ v.releases →
    rel.isPrerelease = true ∧ (parseNightlyVersion rel.tagName).isSome = true
      ∧ rel.tagName ≠ r.options.holder ∧ r.options.active ≠ some rel.tagName
  newest : ∃ kept rest : List GitHubReleaseItem, (kept ++ rest).Perm r.listed
    ∧ kept.length = min r.options.retain.toNat r.listed.length
    ∧ (∀ a ∈ kept, ∀ b ∈ rest, ¬0 < compareVersions number b.tagName a.tagName)
    ∧ ∀ a ∈ kept, a ∈ v.releases

/-- What a history promises: every version the feed has is greater than those it had, the URLs
of an update name its tag, and prunes remove what is old. -/
structure Steady (feed : Option UpdaterMetadata) (releases : List GitHubReleaseItem)
    (es : List Event) (s : GitHub) : Prop where
  increasing : s.published.Pairwise fun older newer => 0 < compareVersions number newer older
  tagged : ∀ u r v m, (nightlies number feed releases).Took es u (.update r) v →
    r.metadata number = .ok m → ∀ p ∈ m.platforms, NamesTag (releaseTag r.targetTag) p.2.url
  pruned : ∀ u r v, (nightlies number feed releases).Took es u (.prune r) v →
    PrunesOld number r u v

/-- An update reads the version that was published last, and its URLs and its tag are of releases;
a prune finds releases that are there, and no tag is that of two. -/
def Timely (s : GitHub) : Event → Prop
  | .update r => r.reads.bind UpdaterMetadata.feedVersion = s.published.getLast?
      ∧ Literal (releaseTag r.targetTag)
      ∧ ∀ raw ∈ r.latestJson, ∀ p ∈ raw.platforms, HasRelease p.2.url
  | .prune r => (s.releases.map GitHubReleaseItem.tagName).Nodup
      ∧ ((r.listing.getD []).map GitHubReleaseItem.tagName).Nodup
      ∧ ∀ rel ∈ r.listing.getD [], rel ∈ s.releases
  | .release _ => True

/-! ### One run -/

variable {number} {s t u v : GitHub} {e : Event} {r : PruneRun}

/-- A version that is greater than the greatest. -/
lemma pairwise_concat {versions : List Chars} {version : Chars}
    (h : versions.Pairwise fun older newer => 0 < compareVersions number newer older)
    (hnew : ∀ v, versions.getLast? = some v → place number v < place number version) :
    (versions ++ [version]).Pairwise fun older newer => 0 < compareVersions number newer older := by
  rw [List.pairwise_append]
  refine ⟨h, List.pairwise_singleton _ _, fun v hv w hw => ?_⟩
  rw [List.mem_singleton.mp hw, compareVersions_pos_iff]
  obtain ⟨versions, last, rfl⟩ := (List.eq_nil_or_concat' versions).resolve_left
    (List.ne_nil_of_mem hv)
  have hlast := hnew last List.getLast?_concat
  rcases List.mem_append.mp hv with hv | hv
  · have hlt := (List.pairwise_append.mp h).2.2 v hv last (List.mem_singleton_self _)
    exact (compareVersions_pos_iff.mp hlt).trans hlast
  · rw [List.mem_singleton.mp hv]
    exact hlast

lemma increasing_of_step
    (hs : s.published.Pairwise fun older newer => 0 < compareVersions number newer older)
    (hok : Timely s e) (h : step number s e = some t) :
    t.published.Pairwise fun older newer => 0 < compareVersions number newer older := by
  cases e with
  | update r =>
      obtain ⟨hreads, -, -⟩ := hok
      simp only [step] at h
      split at h
      · rename_i m hm _
        obtain rfl := Option.some.inj h
        refine pairwise_concat hs fun v hv => ?_
        exact (update_newer hm).2 v (hreads.trans hv)
      all_goals
        obtain rfl := Option.some.inj h
        exact hs
  | prune r =>
      obtain rfl := Option.some.inj h
      exact hs
  | release releases =>
      obtain rfl := Option.some.inj h
      exact hs

/-- A release whose tag is not deleted stays. -/
lemma mem_foldl_delete {tags : List Chars} {releases : List GitHubReleaseItem}
    {rel : GitHubReleaseItem} (hrel : rel ∈ releases) (htag : rel.tagName ∉ tags) :
    rel ∈ tags.foldl deleteReleaseAndTag releases := by
  induction tags generalizing releases with
  | nil => exact hrel
  | cons tag tags ih =>
      obtain ⟨hne, htags⟩ := List.ne_and_not_mem_of_not_mem_cons htag
      refine ih ?_ htags
      exact (List.mem_eraseP_of_neg (by simpa using hne)).mpr hrel

lemma prunesOld_of_step (hok : Timely u (.prune r)) (h : step number u (.prune r) = some v) :
    PrunesOld number r u v := by
  obtain ⟨htags, hlistedTags, hthere⟩ := hok
  obtain rfl := Option.some.inj h
  -- what is gone was deleted, and its tag is that of one release only
  have hgone : ∀ rel ∈ u.releases, rel ∉ (pruneOldNightlyReleases number r.options r.listing
      r.fails).foldl deleteReleaseAndTag u.releases → Old number r.options (r.listing.getD []) rel := by
    intro rel hrel hnot
    have hdeleted : rel.tagName ∈ pruneOldNightlyReleases number r.options r.listing r.fails := by
      by_contra htag
      exact hnot (mem_foldl_delete hrel htag)
    obtain ⟨old, hold, htag⟩ := deleted_is_old hdeleted
    obtain rfl := List.inj_on_of_nodup_map htags (hthere old hold.listed) hrel htag
    exact hold
  constructor
  · intro rel hrel hnot
    have hold := hgone rel hrel hnot
    have hnightly := hold.nightly
    simp only [isNightly, Bool.and_eq_true, decide_eq_true_eq] at hnightly
    exact ⟨hnightly.2, hnightly.1.2, hnightly.1.1, hold.inactive⟩
  · have hsplit := List.take_append_drop r.options.retain.toNat (newestFirst number r.listed)
    refine ⟨_, _, (List.Perm.of_eq hsplit).trans (newestFirst_perm _), ?_, ?_, ?_⟩
    · rw [List.length_take, (newestFirst_perm _).length_eq]
    · intro a ha b hb
      have hpairwise : (newestFirst number r.listed).Pairwise _ := newestFirst_pairwise r.listed
      rw [← hsplit] at hpairwise
      rw [compareVersions_pos_iff, not_lt]
      exact (List.pairwise_append.mp hpairwise).2.2 a ha b hb
    · intro a ha
      have hmem : a ∈ r.listed :=
        (newestFirst_perm _).mem_iff.mp (List.mem_of_mem_take ha)
      have hthere := hthere a (List.mem_of_mem_filter hmem)
      by_contra hnot
      have hnodup : (newestFirst number r.listed).Nodup :=
        (newestFirst_perm _).nodup_iff.mpr ((List.Nodup.of_map _ hlistedTags).filter _)
      exact List.disjoint_take_drop hnodup le_rfl ha (hgone a hthere hnot).beyond

/-! ### Every history -/

/-- **The nightly feed never moves back**, its URLs name the tag of their update, and no prune
removes more than old nightlies: in every history of runs whose queries read what is there. -/
theorem steady_of_run (number : Numbers) (feed : Option UpdaterMetadata)
    (releases : List GitHubReleaseItem) (es : List Event) (s : GitHub)
    (h : (nightlies number feed releases).run es = some s)
    (hok : (nightlies number feed releases).StepsMeet Timely es) :
    Steady number feed releases es s where
  increasing := by
    refine StepSystem.invariant_of_stepsMeet (I := fun s => s.published.Pairwise
      fun older newer => 0 < compareVersions number newer older) ?_ ?_ h hok
    · show ((feed.bind UpdaterMetadata.feedVersion).toList).Pairwise _
      cases feed.bind UpdaterMetadata.feedVersion with
      | none => exact List.Pairwise.nil
      | some v => exact List.pairwise_singleton _ _
    · exact fun s e t hs htimely hstep => increasing_of_step hs htimely hstep
  tagged u r v m htook hm := by
    obtain ⟨pre, post, rfl, hu, -⟩ := htook
    obtain ⟨-, htag, hurls⟩ := hok pre _ post u rfl hu
    obtain ⟨raw, hraw, rfl, -⟩ := updateNightlyFeed_eq_ok hm
    exact namesTag_of_prepare htag (hurls raw hraw)
  pruned u r v htook := by
    obtain ⟨pre, post, rfl, hu, hstep⟩ := htook
    exact prunesOld_of_step (hok pre _ post u rfl hu) hstep

/-! ### A history, and one whose query fails -/

/-- The metadata of a build. -/
def nightlyMetadata (version url : String) : UpdaterMetadata :=
  ⟨version.toList, none, [], [("windows-x86_64".toList, ⟨"signature".toList, url.toList⟩)]⟩

/-- The update to a build, with what the query answers. -/
def updateTo (version : String) (reads : Option UpdaterMetadata) : Event :=
  .update ⟨"latest.json",
    some (nightlyMetadata version "https://host/releases/download/draft/ShaPrint.exe"),
    version.toList, reads, .uploaded⟩

def nightlyRelease (tag : String) : GitHubReleaseItem := ⟨tag.toList, none, true, false⟩

/-- Two builds, and a prune that retains one. -/
def twoBuilds : List Event :=
  [updateTo "3.4.0-nightly.1" none,
    updateTo "3.4.0-nightly.2" (some (nightlyMetadata "3.4.0-nightly.1" "")),
    .prune ⟨⟨some "v3.4.0-nightly.2".toList, some 1, none⟩,
      some [nightlyRelease "v3.4.0-nightly.1", nightlyRelease "v3.4.0-nightly.2"], []⟩]

/-- The releases of the two builds, and a stable one. -/
def twoReleases : List GitHubReleaseItem :=
  [nightlyRelease "v3.4.0-nightly.1", nightlyRelease "v3.4.0-nightly.2",
    ⟨"v3.3.0".toList, none, false, false⟩]

lemma literal_of_not_mem {s : Chars} (h : '$' ∉ s) : Literal s := by
  rintro before c after rfl
  simp at h

lemma hasRelease_draft : HasRelease "https://host/releases/download/draft/ShaPrint.exe".toList := by
  intro before after h
  have hsplit : Split.splitOnce "https://host/releases/download/draft/ShaPrint.exe".toList
      releasesDownload = some ("https://host".toList, "draft/ShaPrint.exe".toList) := by
    decide +kernel
  rw [hsplit] at h
  obtain ⟨rfl, rfl⟩ := Prod.mk.inj (Option.some.inj h)
  exact ⟨"draft".toList, "ShaPrint.exe".toList, by decide, by decide, by decide⟩

lemma timely_updateTo {s : GitHub} {version : String} {reads : Option UpdaterMetadata}
    (hreads : reads.bind UpdaterMetadata.feedVersion = s.published.getLast?)
    (htag : '$' ∉ releaseTag version.toList) : Timely s (updateTo version reads) := by
  refine ⟨hreads, literal_of_not_mem htag, fun raw hraw p hp => ?_⟩
  obtain rfl := Option.some.inj hraw
  obtain rfl := List.mem_singleton.mp hp
  exact hasRelease_draft

theorem twoBuilds_steady : ∃ s, (nightlies (fun n => n) none twoReleases).run twoBuilds = some s
    ∧ s.published = ["3.4.0-nightly.1".toList, "3.4.0-nightly.2".toList]
    ∧ s.releases = [nightlyRelease "v3.4.0-nightly.2", ⟨"v3.3.0".toList, none, false, false⟩]
    ∧ Steady (fun n => n) none twoReleases twoBuilds s := by
  refine ⟨_, rfl, rfl, ?_, steady_of_run (fun n => n) none twoReleases twoBuilds _ rfl ?_⟩
  · decide +kernel
  · refine StepSystem.stepsMeet_of_meetsFrom ⟨timely_updateTo rfl (by decide), fun s hs => ?_⟩
    obtain rfl := Option.some.inj hs
    refine ⟨timely_updateTo rfl (by decide), fun s hs => ?_⟩
    obtain rfl := Option.some.inj hs
    exact ⟨⟨by decide, by decide, by decide⟩, fun s hs => trivial⟩

/-- The query for the feed fails, and the feed moves back. -/
theorem failed_query_moves_back :
    ∃ s, (nightlies (fun n => n) none []).run
        [updateTo "3.4.0-nightly.2" none, updateTo "3.4.0-nightly.1" none] = some s
      ∧ ¬Steady (fun n => n) none []
        [updateTo "3.4.0-nightly.2" none, updateTo "3.4.0-nightly.1" none] s := by
  refine ⟨_, rfl, fun h => ?_⟩
  have hback := (List.pairwise_cons.mp h.increasing).1 _ (List.mem_singleton_self _)
  rw [compareVersions_natCast_pos_iff] at hback
  exact absurd hback (by decide +kernel)

end ShaPrint.Nightly
