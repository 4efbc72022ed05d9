import ShaPrint.Android.Preview

/-!
Whether a preview is the one that a fresh rendering gives.

* `Unlisted`, `fresh_congr`: what a rendering depends on beside the parameters that the key
  lists.
* `Undisturbed`: the bitmap that a call finds in the cache was made for the same, and no call
  opens the temporary file while another one uses it.
* `Resumed`: what a section of a call does.
* `Sound`, `Faithful`: every phase of a call is on its way to the fresh rendering, and so is
  every entry of the cache.
* `fresh_of_run`: in a run without disturbance every call returns the fresh rendering.
* `other_colour_returned`: the preview of the test page in another colour mode.
-/

namespace ShaPrint.Android

variable {B : Type} (R : Renderer B)

/-! ### What the key does not list -/

/-- What a rendering depends on beside the parameters that the key lists. -/
inductive Unlisted where
  | testPage (printerName serverCanonicalAddress : String) (colorMode : PrintColorMode)
  | document (bytes : Bytes) (isPdf : Bool)
  deriving DecidableEq

namespace Asked

def isPdf (a : Asked) : Bool :=
  isPdfFile a.document.fileName a.request.documentName a.document.bytes

def unlisted (a : Asked) : Unlisted :=
  match a.request.documentUriString with
  | none => .testPage a.request.printerName a.request.serverCanonicalAddress a.request.colorMode
  | some _ => .document a.document.bytes a.isPdf

end Asked

lemma fresh_of_none {a : Asked} (h : a.request.documentUriString = none) :
    fresh R a = R.testPageOf a.request := by
  unfold fresh
  rw [h]

lemma fresh_of_isSome {a : Asked} (h : a.request.documentUriString.isSome) :
    fresh R a = if a.document.bytes = [] then none
      else R.pageOf a.request a.isPdf a.document.bytes := by
  obtain ⟨uri, huri⟩ := Option.isSome_iff_exists.mp h
  unfold fresh
  rw [huri]
  rfl

/-- The key and what it does not list determine the rendering. -/
lemma fresh_congr {a b : Asked} (hkey : buildCacheKey a.request = buildCacheKey b.request)
    (h : a.unlisted = b.unlisted) : fresh R a = fresh R b := by
  have hlisted := buildCacheKey_inj hkey
  unfold Asked.unlisted at h
  cases ha : a.request.documentUriString with
  | none =>
      cases hb : b.request.documentUriString with
      | none =>
          rw [ha, hb] at h
          obtain ⟨hname, haddress, hcolor⟩ := Unlisted.testPage.inj h
          rw [fresh_of_none R ha, fresh_of_none R hb, Renderer.testPageOf, Renderer.testPageOf,
            hname, haddress, hcolor, hlisted.media, hlisted.orientation, hlisted.targetWidth]
      | some uri =>
          rw [ha, hb] at h
          cases h
  | some uri =>
      cases hb : b.request.documentUriString with
      | none =>
          rw [ha, hb] at h
          cases h
      | some uri' =>
          rw [ha, hb] at h
          obtain ⟨hbytes, hpdf⟩ := Unlisted.document.inj h
          rw [fresh_of_isSome R (by rw [ha]; rfl), fresh_of_isSome R (by rw [hb]; rfl), hbytes,
            hpdf, Renderer.pageOf, Renderer.pageOf, hlisted.media, hlisted.orientation,
            hlisted.targetWidth, hlisted.pageIndex, hlisted.fitToPage]

/-! ### Calls that do not disturb each other -/

namespace PreviewCall

/-- The call writes the temporary file, or is still to read it. -/
def usesTemp (c : PreviewCall B) : Bool :=
  match c.phase with
  | .copying _ _ => true
  | .located | .nonEmpty | .opened _ => c.asked.document.isCopied
  | _ => false

/-- The call is about to open the temporary file, or to take what is in it. -/
def takesTemp (c : PreviewCall B) : Bool :=
  c.asked.request.documentUriString.isSome && c.asked.document.isCopied
    && c.asked.document ≠ .stream .refused

/-- Nothing comes in between at the next section of a call. -/
def Undisturbed (s : PreviewState B) (others : List (PreviewCall B)) (isRecycled : Bool)
    (c : PreviewCall B) : Prop :=
  match c.phase with
  | .start => isRecycled = true
      ∨ ∀ e ∈ s.previewCache, e.1 = c.cacheKey → e.2.maker.unlisted = c.asked.unlisted
  | .missed => c.takesTemp = false
      ∨ (∀ m ∈ others, m.usesTemp = false)
        ∧ (c.asked.document = .stream .missing → s.tempFile.getD [] = [])
  | _ => True

instance (s : PreviewState B) (others : List (PreviewCall B)) (isRecycled : Bool) :
    ∀ c : PreviewCall B, Decidable (c.Undisturbed s others isRecycled)
  | ⟨_, .start⟩ => inferInstanceAs (Decidable (_ ∨ _))
  | ⟨_, .missed⟩ => inferInstanceAs (Decidable (_ ∨ _))
  | ⟨_, .copying _ _⟩ => inferInstanceAs (Decidable True)
  | ⟨_, .located⟩ => inferInstanceAs (Decidable True)
  | ⟨_, .nonEmpty⟩ => inferInstanceAs (Decidable True)
  | ⟨_, .opened _⟩ => inferInstanceAs (Decidable True)
  | ⟨_, .rendered _⟩ => inferInstanceAs (Decidable True)
  | ⟨_, .returned _⟩ => inferInstanceAs (Decidable True)

/-- A section of a call. -/
inductive Resumed (s : PreviewState B) (c : PreviewCall B) (isRecycled : Bool) :
    PreviewState B → PreviewPhase B → Prop where
  | hit (existing : Cached B) (hphase : c.phase = .start)
      (hfind : Lru.find? s.previewCache c.cacheKey = some existing) (hrec : isRecycled = false) :
      Resumed s c isRecycled { s with previewCache := Lru.touch s.previewCache c.cacheKey }
        (.returned (some existing.bitmap))
  | miss (hphase : c.phase = .start) :
      Resumed s c isRecycled { s with previewCache := Lru.touch s.previewCache c.cacheKey } .missed
  | draws (bitmap : B) (hphase : c.phase = .missed)
      (huri : c.asked.request.documentUriString = none)
      (hdraw : R.testPageOf c.asked.request = some bitmap) :
      Resumed s c isRecycled s (.rendered bitmap)
  | drawsNothing (hphase : c.phase = .missed) (huri : c.asked.request.documentUriString = none)
      (hdraw : R.testPageOf c.asked.request = none) : Resumed s c isRecycled s (.returned none)
  | locates (hphase : c.phase = .missed) (huri : c.asked.request.documentUriString.isSome) :
      Resumed s c isRecycled (c.locate s).1 (c.locate s).2
  | writes (offset : ℕ) (chunk : Bytes) (rest : List Bytes)
      (hphase : c.phase = .copying offset (chunk :: rest)) :
      Resumed s c isRecycled
        { s with tempFile := some (writeAt (s.tempFile.getD []) offset chunk) }
        (.copying (offset + chunk.length) rest)
  | breaks (offset : ℕ) (hphase : c.phase = .copying offset []) (hbreaks : c.breaks = true) :
      Resumed s c isRecycled s (.returned none)
  | copied (offset : ℕ) (hphase : c.phase = .copying offset []) (hbreaks : ¬c.breaks = true) :
      Resumed s c isRecycled s .located
  | empty (hphase : c.phase = .located) (hempty : c.content s = []) :
      Resumed s c isRecycled s (.returned none)
  | filled (hphase : c.phase = .located) (hne : c.content s ≠ []) :
      Resumed s c isRecycled s .nonEmpty
  | opens (hphase : c.phase = .nonEmpty) :
      Resumed s c isRecycled s (.opened (isPdfFile c.asked.document.fileName
        c.asked.request.documentName (c.content s)))
  | renders (isPdf : Bool) (bitmap : B) (hphase : c.phase = .opened isPdf)
      (hpage : R.pageOf c.asked.request isPdf (c.content s) = some bitmap) :
      Resumed s c isRecycled s (.rendered bitmap)
  | rendersNothing (isPdf : Bool) (hphase : c.phase = .opened isPdf)
      (hpage : R.pageOf c.asked.request isPdf (c.content s) = none) :
      Resumed s c isRecycled s (.returned none)
  | puts (bitmap : B) (hphase : c.phase = .rendered bitmap) :
      Resumed s c isRecycled
        { s with previewCache := Lru.put 20 s.previewCache c.cacheKey ⟨bitmap, c.asked⟩ }
        (.returned (some bitmap))

variable {R} {s s' : PreviewState B} {c c' : PreviewCall B} {isRecycled : Bool}

theorem resumed_of_resume (h : c.resume R s isRecycled = some (s', c')) :
    ∃ phase, Resumed R s c isRecycled s' phase ∧ c' = { c with phase := phase } := by
  unfold resume at h
  split at h
  · rename_i hphase
    simp only at h
    split at h
    · rename_i existing hfind
      split_ifs at h with hrec
      · cases h
        exact ⟨_, .miss hphase, rfl⟩
      · cases h
        exact ⟨_, .hit existing hphase hfind (by simpa using hrec), rfl⟩
    · cases h
      exact ⟨_, .miss hphase, rfl⟩
  · rename_i hphase
    split at h
    · rename_i huri
      split at h
      · rename_i bitmap hdraw
        cases h
        exact ⟨_, .draws bitmap hphase huri hdraw, rfl⟩
      · rename_i hdraw
        cases h
        exact ⟨_, .drawsNothing hphase huri hdraw, rfl⟩
    · rename_i uri huri
      cases h
      exact ⟨_, .locates hphase (by rw [huri]; rfl), rfl⟩
  · rename_i offset chunk rest hphase
    cases h
    exact ⟨_, .writes offset chunk rest hphase, rfl⟩
  · rename_i offset hphase
    split_ifs at h with hbreaks
    · cases h
      exact ⟨_, .breaks offset hphase hbreaks, rfl⟩
    · cases h
      exact ⟨_, .copied offset hphase hbreaks, rfl⟩
  · rename_i hphase
    split_ifs at h with hempty
    · cases h
      exact ⟨_, .empty hphase hempty, rfl⟩
    · cases h
      exact ⟨_, .filled hphase hempty, rfl⟩
  · rename_i hphase
    cases h
    exact ⟨_, .opens hphase, rfl⟩
  · rename_i isPdf hphase
    split at h
    · rename_i bitmap hpage
      cases h
      exact ⟨_, .renders isPdf bitmap hphase hpage, rfl⟩
    · rename_i hpage
      cases h
      exact ⟨_, .rendersNothing isPdf hphase hpage, rfl⟩
  · rename_i bitmap hphase
    cases h
    exact ⟨_, .puts bitmap hphase, rfl⟩
  · cases h

end PreviewCall

/-! ### On the way to the fresh rendering -/

/-- Every entry is the fresh rendering of the call that made it. -/
def Faithful (s : PreviewState B) : Prop :=
  ∀ e ∈ s.previewCache, e.1 = buildCacheKey e.2.maker.request
    ∧ fresh R e.2.maker = some e.2.bitmap

namespace PreviewCall

/-- The file of the call holds the call's own document. -/
structure Located (s : PreviewState B) (c : PreviewCall B) : Prop where
  uri : c.asked.request.documentUriString.isSome
  content : c.content s = c.asked.document.bytes

/-- The copy is as far as the call has come. -/
structure Copying (s : PreviewState B) (c : PreviewCall B) (offset : ℕ) (rest : List Bytes) :
    Prop where
  uri : c.asked.request.documentUriString.isSome
  copied : ∃ chunks broken done, c.asked.document = .stream (.opened chunks broken)
    ∧ s.tempFile = some done ∧ done.length = offset ∧ done ++ rest.flatten = chunks.flatten

/-- The call is on its way to the fresh rendering. -/
def Sound (s : PreviewState B) (c : PreviewCall B) : Prop :=
  match c.phase with
  | .start | .missed => True
  | .copying offset rest => c.Copying s offset rest
  | .located => c.Located s
  | .nonEmpty => c.Located s ∧ c.asked.document.bytes ≠ []
  | .opened isPdf => c.Located s ∧ c.asked.document.bytes ≠ [] ∧ isPdf = c.asked.isPdf
  | .rendered bitmap => fresh R c.asked = some bitmap
  | .returned result => result = fresh R c.asked

variable {R} {s s' : PreviewState B} {c : PreviewCall B} {isRecycled : Bool}
  {phase : PreviewPhase B} {others : List (PreviewCall B)}

/-- A call that does not use the temporary file does not depend on it. -/
lemma Sound.congr (h : c.Sound R s) (htemp : c.usesTemp = true → s'.tempFile = s.tempFile) :
    c.Sound R s' := by
  have hcontent : c.asked.document.isCopied = false ∨ s'.tempFile = s.tempFile →
      c.content s' = c.content s := by
    intro hcases
    unfold content
    split
    · rfl
    · rename_i hdoc
      rcases hcases with hfile | hsame
      · rw [hdoc] at hfile
        cases hfile
      · rw [hsame]
  have hlocated : c.Located s → (c.asked.document.isCopied = true → s'.tempFile = s.tempFile) →
      c.Located s' := by
    intro hloc hsame
    refine ⟨hloc.uri, (hcontent ?_).trans hloc.content⟩
    cases hcopied : c.asked.document.isCopied with
    | false => exact .inl rfl
    | true => exact .inr (hsame hcopied)
  unfold Sound usesTemp at *
  split at h <;> rename_i hphase
  · trivial
  · trivial
  · obtain ⟨huri, chunks, broken, done, hdoc, htemp', hlength, hdone⟩ := h
    rw [hphase] at htemp
    exact ⟨huri, chunks, broken, done, hdoc, (htemp rfl).trans htemp', hlength, hdone⟩
  · rw [hphase] at htemp
    exact hlocated h htemp
  · rw [hphase] at htemp
    exact ⟨hlocated h.1 htemp, h.2⟩
  · rw [hphase] at htemp
    exact ⟨hlocated h.1 htemp, h.2⟩
  · exact h
  · exact h

/-- A piece that is written at the end. -/
lemma writeAt_length (bytes chunk : Bytes) : writeAt bytes bytes.length chunk = bytes ++ chunk := by
  unfold writeAt
  rw [List.take_length, Nat.sub_self, List.replicate_zero, List.append_nil,
    List.drop_of_length_le (Nat.le_add_right _ _), List.append_nil]

/-- A document without bytes has no rendering. -/
lemma fresh_of_empty (huri : c.asked.request.documentUriString.isSome)
    (hempty : c.asked.document.bytes = []) : fresh R c.asked = none := by
  rw [fresh_of_isSome R huri, if_pos hempty]

/-- The document is found, or its copy begins. -/
lemma sound_locate (huri : c.asked.request.documentUriString.isSome)
    (hok : c.takesTemp = false ∨ (∀ m ∈ others, m.usesTemp = false)
      ∧ (c.asked.document = .stream .missing → s.tempFile.getD [] = [])) :
    ({ c with phase := (c.locate s).2 } : PreviewCall B).Sound R (c.locate s).1 := by
  cases hdoc : c.asked.document with
  | file name content =>
      have hlocate : c.locate s = (s, .located) := by rw [locate, hdoc]
      rw [hlocate]
      refine ⟨huri, ?_⟩
      simp only [PreviewCall.content, hdoc, Document.bytes]
  | stream stream =>
      cases stream with
      | opened chunks broken =>
          have hlocate : c.locate s = ({ s with tempFile := some [] }, .copying 0 chunks) := by
            rw [locate, hdoc]
          rw [hlocate]
          exact ⟨huri, chunks, broken, [], hdoc, rfl, rfl, rfl⟩
      | missing =>
          have hlocate : c.locate s = (s, .located) := by rw [locate, hdoc]
          have htakes : c.takesTemp = true := by
            unfold takesTemp
            rw [huri, hdoc]
            rfl
          have hempty : s.tempFile.getD [] = [] := by
            rcases hok with hnot | ⟨-, hempty⟩
            · rw [htakes] at hnot
              cases hnot
            · exact hempty hdoc
          rw [hlocate]
          refine ⟨huri, ?_⟩
          simp only [PreviewCall.content, hdoc, Document.bytes]
          exact hempty
      | refused =>
          have hlocate : c.locate s = (s, .returned none) := by rw [locate, hdoc]
          rw [hlocate]
          exact (fresh_of_empty huri (by rw [hdoc]; rfl)).symm

/-- One section of a call. -/
lemma Sound.resumed (hfaithful : Faithful R s) (hsound : c.Sound R s)
    (hok : c.Undisturbed s others isRecycled) (h : Resumed R s c isRecycled s' phase) :
    ({ c with phase } : PreviewCall B).Sound R s' := by
  unfold Sound at hsound
  unfold Undisturbed at hok
  cases h with
  | hit existing hphase hfind hrec =>
      rw [hphase] at hok
      obtain ⟨hkey, hfresh⟩ := hfaithful _ (Lru.mem_of_find? hfind)
      rcases hok with htrue | halike
      · rw [hrec] at htrue
        cases htrue
      · have hunlisted := halike _ (Lru.mem_of_find? hfind) rfl
        exact hfresh.symm.trans (fresh_congr R hkey.symm hunlisted)
  | miss hphase => trivial
  | draws bitmap hphase huri hdraw => exact (fresh_of_none R huri).trans hdraw
  | drawsNothing hphase huri hdraw => exact ((fresh_of_none R huri).trans hdraw).symm
  | locates hphase huri =>
      rw [hphase] at hok
      exact sound_locate huri hok
  | writes offset chunk rest hphase =>
      rw [hphase] at hsound
      obtain ⟨huri, chunks, broken, done, hdoc, htemp, hlength, hdone⟩ := hsound
      refine ⟨huri, chunks, broken, done ++ chunk, hdoc, ?_, ?_, ?_⟩
      · simp only [htemp, Option.getD_some, ← hlength, writeAt_length]
      · rw [List.length_append, hlength]
      · rw [← hdone, List.flatten_cons, List.append_assoc]
  | breaks offset hphase hbreaks =>
      rw [hphase] at hsound
      obtain ⟨huri, chunks, broken, done, hdoc, -, -, -⟩ := hsound
      unfold PreviewCall.breaks at hbreaks
      simp only [hdoc] at hbreaks
      exact (fresh_of_empty huri (by rw [hdoc, hbreaks]; rfl)).symm
  | copied offset hphase hbreaks =>
      rw [hphase] at hsound
      obtain ⟨huri, chunks, broken, done, hdoc, htemp, -, hdone⟩ := hsound
      unfold PreviewCall.breaks at hbreaks
      simp only [hdoc, Bool.not_eq_true] at hbreaks
      refine ⟨huri, ?_⟩
      rw [List.flatten_nil, List.append_nil] at hdone
      simp only [PreviewCall.content, hdoc, hbreaks, htemp, Document.bytes, Option.getD_some, hdone]
  | empty hphase hempty =>
      rw [hphase] at hsound
      exact (fresh_of_empty hsound.uri (hsound.content.symm.trans hempty)).symm
  | filled hphase hne =>
      rw [hphase] at hsound
      exact ⟨⟨hsound.uri, hsound.content⟩, fun hempty => hne (hsound.content.trans hempty)⟩
  | opens hphase =>
      rw [hphase] at hsound
      refine ⟨⟨hsound.1.uri, hsound.1.content⟩, hsound.2, ?_⟩
      rw [hsound.1.content]
      rfl
  | renders isPdf bitmap hphase hpage =>
      rw [hphase] at hsound
      obtain ⟨⟨huri, hcontent⟩, hne, rfl⟩ := hsound
      rw [hcontent] at hpage
      exact (fresh_of_isSome R huri).trans ((if_neg hne).trans hpage)
  | rendersNothing isPdf hphase hpage =>
      rw [hphase] at hsound
      obtain ⟨⟨huri, hcontent⟩, hne, rfl⟩ := hsound
      rw [hcontent] at hpage
      exact ((fresh_of_isSome R huri).trans ((if_neg hne).trans hpage)).symm
  | puts bitmap hphase =>
      rw [hphase] at hsound
      exact hsound.symm

/-- The entries stay faithful. -/
lemma faithful_resumed (hfaithful : Faithful R s) (hsound : c.Sound R s)
    (h : Resumed R s c isRecycled s' phase) : Faithful R s' := by
  cases h with
  | hit existing hphase hfind hrec => exact fun e he => hfaithful e (Lru.mem_touch.mp he)
  | miss hphase => exact fun e he => hfaithful e (Lru.mem_touch.mp he)
  | locates hphase huri =>
      have hcache : (c.locate s).1.previewCache = s.previewCache := by
        unfold locate
        split <;> rfl
      exact fun e he => hfaithful e (hcache ▸ he)
  | puts bitmap hphase =>
      unfold Sound at hsound
      rw [hphase] at hsound
      intro e he
      rcases Lru.mem_put he with he | rfl
      · exact hfaithful e he
      · exact ⟨rfl, hsound⟩
  | _ => exact hfaithful

/-- A call whose document is copied takes the temporary file, unless the copy is refused. -/
lemma takesTemp_of_stream (huri : c.asked.request.documentUriString.isSome) {stream : Stream}
    (hdoc : c.asked.document = .stream stream) (hopened : stream ≠ .refused) :
    c.takesTemp = true := by
  unfold takesTemp
  rw [huri, hdoc]
  simpa [Document.isCopied] using hopened

/-- A section leaves the temporary file to the calls that use it or open it. -/
lemma Resumed.temp (h : Resumed R s c isRecycled s' phase) :
    s'.tempFile = s.tempFile ∨ c.usesTemp = true ∨ (c.phase = .missed ∧ c.takesTemp = true) := by
  cases h with
  | writes offset chunk rest hphase =>
      refine .inr (.inl ?_)
      rw [usesTemp, hphase]
  | locates hphase huri =>
      unfold locate
      split
      · exact .inl rfl
      · rename_i chunks broken hdoc
        exact .inr (.inr ⟨hphase, takesTemp_of_stream huri hdoc (by simp)⟩)
      · exact .inl rfl
      · exact .inl rfl
  | _ => exact .inl rfl

/-- A call uses the temporary file only after it has opened it. -/
lemma Resumed.uses (h : Resumed R s c isRecycled s' phase)
    (huses : ({ c with phase } : PreviewCall B).usesTemp = true) :
    c.usesTemp = true ∨ (c.phase = .missed ∧ c.takesTemp = true) := by
  cases h with
  | locates hphase huri =>
      refine .inr ⟨hphase, ?_⟩
      unfold locate at huses
      split at huses
      · rename_i name content hdoc
        unfold usesTemp at huses
        simp only [hdoc, Document.isCopied] at huses
        cases huses
      · rename_i chunks broken hdoc
        exact takesTemp_of_stream huri hdoc (by simp)
      · rename_i hdoc
        exact takesTemp_of_stream huri hdoc (by simp)
      · cases huses
  | writes offset chunk rest hphase =>
      rw [usesTemp, hphase]
      exact .inl rfl
  | copied offset hphase hbreaks =>
      rw [usesTemp, hphase]
      exact .inl rfl
  | filled hphase hne =>
      rw [usesTemp, hphase]
      exact .inl huses
  | opens hphase =>
      rw [usesTemp, hphase]
      exact .inl huses
  | _ => cases huses

end PreviewCall

/-! ### Runs -/

/-- Nothing comes in between at an event. -/
def Undisturbed (w : PreviewWorld B) : PreviewEvent B → Prop
  | .move i isRecycled => ∀ c ∈ w.processes[i]?,
      c.Undisturbed w.shared (w.processes.eraseIdx i) isRecycled
  | _ => True

instance (w : PreviewWorld B) : ∀ e, Decidable (Undisturbed w e)
  | .start _ => inferInstanceAs (Decidable True)
  | .move i isRecycled => inferInstanceAs (Decidable (∀ c ∈ w.processes[i]?,
      c.Undisturbed w.shared (w.processes.eraseIdx i) isRecycled))
  | .outside _ => inferInstanceAs (Decidable True)

/-- The cache is faithful, every call is sound, and one at most uses the temporary file. -/
structure AllFresh (w : PreviewWorld B) : Prop where
  cache : Faithful R w.shared
  calls : ∀ (i : ℕ) (c : PreviewCall B), w.processes[i]? = some c → c.Sound R w.shared
  alone : Processes.AtMostOne w.processes fun c => c.usesTemp = true

variable {R}

/-- While a call opens or uses the temporary file, no other one uses it. -/
lemma AllFresh.others_idle {w : PreviewWorld B} (h : AllFresh R w) {i : ℕ} {c : PreviewCall B}
    {isRecycled : Bool} (hc : w.processes[i]? = some c)
    (hok : c.Undisturbed w.shared (w.processes.eraseIdx i) isRecycled)
    (htemp : c.usesTemp = true ∨ (c.phase = .missed ∧ c.takesTemp = true)) {j : ℕ}
    {m : PreviewCall B} (hne : j ≠ i) (hm : w.processes[j]? = some m) : ¬m.usesTemp = true := by
  intro huses
  rcases htemp with hself | ⟨hphase, htakes⟩
  · exact hne (h.alone j i m c hm hc huses hself)
  · unfold PreviewCall.Undisturbed at hok
    rw [hphase] at hok
    rcases hok with hnot | ⟨hidle, -⟩
    · rw [htakes] at hnot
      cases hnot
    · rw [hidle m (List.mem_eraseIdx_iff_getElem?.mpr ⟨j, hne, hm⟩)] at huses
      cases huses

/-- One event. -/
lemma AllFresh.step {tempFile : Option Bytes} {w t : PreviewWorld B} {e : PreviewEvent B}
    (h : AllFresh R w) (hok : Undisturbed w e) (hstep : (previews R tempFile).step w e = some t) :
    AllFresh R t := by
  cases Processes.stepped_of_step _ hstep with
  | start c hstarts =>
      have hphase : c.phase = .start := by
        unfold previewCalls at hstarts
        simp only at hstarts
        split at hstarts
        · assumption
        · cases hstarts
      refine ⟨h.cache, Processes.forall_after_start h.calls ?_,
        Processes.atMostOne_after_start h.alone ?_⟩
      · unfold PreviewCall.Sound
        rw [hphase]
        trivial
      · unfold PreviewCall.usesTemp
        rw [hphase]
        simp
  | move i isRecycled c s c' spawned hc hadvance =>
      obtain ⟨⟨s', c''⟩, hresume, heq⟩ := Option.map_eq_some_iff.mp hadvance
      cases heq
      obtain ⟨phase, hresumed, rfl⟩ := PreviewCall.resumed_of_resume hresume
      have hundisturbed : c.Undisturbed w.shared (w.processes.eraseIdx i) isRecycled := hok c hc
      have hsound := h.calls i c hc
      refine ⟨PreviewCall.faithful_resumed h.cache hsound hresumed,
        Processes.forall_after_move hc ?_ (hsound.resumed h.cache hundisturbed hresumed) (by simp),
        Processes.atMostOne_after_move hc h.alone ?_ (by simp)⟩
      · intro j m hne hm
        refine (h.calls j m hm).congr fun huses => ?_
        rcases hresumed.temp with hsame | htemp
        · exact hsame
        · exact absurd huses (h.others_idle hc hundisturbed htemp hne hm)
      · intro huses
        exact .inr fun j m hne hm =>
          h.others_idle hc hundisturbed (hresumed.uses huses) hne hm
  | outside event s houtside =>
      cases houtside
      have htemp : (w.shared.use event).tempFile = w.shared.tempFile := by cases event <;> rfl
      refine ⟨fun e he => ?_, fun i c hc => (h.calls i c hc).congr fun _ => htemp, h.alone⟩
      cases event with
      | clearCache => cases he
      | getCachedBitmap request => exact h.cache e (Lru.mem_touch.mp he)

lemma allFresh_of_run {tempFile : Option Bytes} {es : List (PreviewEvent B)} {w : PreviewWorld B}
    (hrun : (previews R tempFile).run es = some w)
    (hok : (previews R tempFile).StepsMeet Undisturbed es) : AllFresh R w := by
  refine StepSystem.invariant_of_stepsMeet (S := previews R tempFile) ?_
    (fun s e t h hmet hstep => h.step hmet hstep) hrun hok
  have hnone : ∀ {i : ℕ} {c : PreviewCall B},
      ¬((previews R tempFile).init.processes[i]? = some c) := fun h => by cases h
  exact ⟨fun e he => (List.not_mem_nil he).elim, fun i c hc => (hnone hc).elim,
    fun i j k m hk => (hnone hk).elim⟩

variable (R) in
/-- **A preview is the fresh rendering.** In a run without disturbance every call that returns
has the rendering of its own document with its own parameters. -/
theorem fresh_of_run {tempFile : Option Bytes} {es : List (PreviewEvent B)} {w : PreviewWorld B}
    (hrun : (previews R tempFile).run es = some w)
    (hok : (previews R tempFile).StepsMeet Undisturbed es) (i : ℕ) (asked : Asked)
    (result : Option B) (hcall : w.processes[i]? = some ⟨asked, .returned result⟩) :
    result = fresh R asked :=
  (allFresh_of_run hrun hok).calls i _ hcall

/-- A drawing that shows the bytes of a document. -/
def shownDocument : Renderer Bytes where
  testPage _ _ _ _ _ _ := none
  pdf bytes _ _ _ _ := some bytes
  image bytes _ _ _ _ := some bytes

/-- The first page of a document that is copied. -/
def documentAt (uri : String) (chunks : List Bytes) : Asked where
  request := {
    documentUriString := some uri
    documentName := none
    documentRevision := 1
    pageIndex := 0
    media := .isoA4
    colorMode := .color
    orientation := .portrait
    fitToPage := true
    printerName := "Epson"
    serverCanonicalAddress := "server:631"
    targetWidth := 600 }
  document := .stream (.opened chunks false)

/-- One document after another, and the first one again. -/
def twoDocuments : List (PreviewEvent Bytes) :=
  .start ⟨documentAt "content://1" [[0x25, 0x50], [0x44, 0x46]], .start⟩
    :: List.replicate 9 (.move 0 false)
    ++ .start ⟨documentAt "content://2" [[1, 2, 3]], .start⟩ :: List.replicate 8 (.move 1 false)
    ++ [.start ⟨documentAt "content://1" [[0x25, 0x50], [0x44, 0x46]], .start⟩, .move 2 false]

theorem twoDocuments_fresh :
    some [0x25, 0x50, 0x44, 0x46]
      = fresh shownDocument (documentAt "content://1" [[0x25, 0x50], [0x44, 0x46]]) := by
  have hsome : ((previews shownDocument none).run twoDocuments).isSome = true := by decide
  obtain ⟨w, hrun⟩ := Option.isSome_iff_exists.mp hsome
  have hcall : ((previews shownDocument none).run twoDocuments).bind (fun w => w.processes[2]?)
      = some ⟨documentAt "content://1" [[0x25, 0x50], [0x44, 0x46]],
          .returned (some [0x25, 0x50, 0x44, 0x46])⟩ := by decide
  rw [hrun] at hcall
  exact fresh_of_run shownDocument hrun (StepSystem.stepsMeet_of_meetsFrom (by decide)) 2 _ _ hcall

/-! ### The test page in another colour mode -/

/-- What a drawing of the test page shows. -/
def shownTestPage : Renderer (String × String × PrintColorMode) where
  testPage printerName serverCanonicalAddress _ colorMode _ _ :=
    some (printerName, serverCanonicalAddress, colorMode)
  pdf _ _ _ _ _ := none
  image _ _ _ _ _ := none

/-- The test page in a colour mode. -/
def testPageIn (colorMode : PrintColorMode) : Asked where
  request := {
    documentUriString := none
    documentName := none
    documentRevision := 0
    pageIndex := 0
    media := .isoA4
    colorMode
    orientation := .portrait
    fitToPage := true
    printerName := "Epson"
    serverCanonicalAddress := "server:631"
    targetWidth := 600 }
  document := .stream .refused

/-- The test page is shown in colour, and then in black and white. -/
def twoModes : List (PreviewEvent (String × String × PrintColorMode)) :=
  [.start ⟨testPageIn .color, .start⟩, .move 0 false, .move 0 false, .move 0 false,
    .start ⟨testPageIn .monochrome, .start⟩, .move 1 false]

/-- The key has no colour mode, so the second preview is the one in colour. -/
theorem other_colour_returned :
    (((previews shownTestPage none).run twoModes).bind fun w => w.processes[1]?)
        = some ⟨testPageIn .monochrome, .returned (some ("Epson", "server:631", .color))⟩
      ∧ fresh shownTestPage (testPageIn .monochrome)
        = some ("Epson", "server:631", .monochrome) := by
  decide

/-- A call that is overtaken after its copy returns the document of the other one. -/
example :
    (((previews shownDocument none).run
      (.start ⟨documentAt "content://1" [[1]], .start⟩ :: List.replicate 4 (.move 0 false)
        ++ .start ⟨documentAt "content://2" [[2]], .start⟩ :: List.replicate 4 (.move 1 false)
        ++ List.replicate 4 (.move 0 false))).bind fun w => w.processes[0]?)
      = some ⟨documentAt "content://1" [[1]], .returned (some [2])⟩ := by
  decide

end ShaPrint.Android
