import ShaPrint.Android.PageRanges
import ShaPrint.Lib.Lru
import ShaPrint.Lib.Processes

/-!
The previews of documents, `features/print/DocumentPreviewHelper.kt`: a cache of bitmaps, and
one temporary file for the documents that a content provider delivers.

The drawing of a page is a parameter, a function of the bytes of the document and of the
settings that are given to it.

* `PreviewRequest`, `buildCacheKey`: what a call asks for, and its key in the cache.
* `Asked`, `fresh`: a call with its document, and the rendering of it alone.
* `PreviewCall`, `resume`, `previews`: the calls of `loadPreviewBitmap`, and how they
  interleave. Every access to the cache and to the temporary file is a section.
* `buildCacheKey_inj`: the parameters that the key lists can be read off it.
-/

namespace ShaPrint.Android

open PageRangeParser

/-! ### Calls -/

/-- The parameters of `loadPreviewBitmap`. -/
structure PreviewRequest where
  documentUriString : Option String
  documentName : Option String
  documentRevision : Int64
  pageIndex : ℤ
  media : RequestedMedia
  colorMode : PrintColorMode
  orientation : PrintOrientation
  fitToPage : Bool
  printerName : String
  serverCanonicalAddress : String
  targetWidth : ℤ
  deriving DecidableEq

def RequestedMedia.name : RequestedMedia → Chars
  | isoA4 => "ISO_A4".toList
  | naLetter => "NA_LETTER".toList
  | omFolio => "OM_FOLIO".toList
  | naLegal => "NA_LEGAL".toList
  | isoA3 => "ISO_A3".toList
  | isoA5 => "ISO_A5".toList

def PrintOrientation.name : PrintOrientation → Chars
  | portrait => "PORTRAIT".toList
  | landscape => "LANDSCAPE".toList

/-- One parameter of a key. -/
def keyField (label : String) (value : Chars) : Chars := '#' :: (label.toList ++ value)

def buildCacheKey (r : PreviewRequest) : Chars :=
  (r.documentUriString.getD "default_test_page").toList
    ++ keyField "rev=" (decimal r.documentRevision.toInt) ++ keyField "p=" (decimal r.pageIndex)
    ++ keyField "m=" r.media.name ++ keyField "o=" r.orientation.name
    ++ keyField "f=" (toString r.fitToPage).toList ++ keyField "w=" (decimal r.targetWidth)

/-! ### Documents -/

/-- What the content provider delivers for a URI. -/
inductive Stream where
  /-- The bytes in the pieces in which they are copied, and whether the copy fails after them. -/
  | opened (chunks : List Bytes) (broken : Bool)
  /-- `openInputStream` returns null. -/
  | missing
  /-- `openInputStream` throws, or the temporary file cannot be opened. -/
  | refused
  deriving DecidableEq

/-- The document that a URI leads to. -/
inductive Document where
  /-- A file with its name, where there is one. -/
  | file (name : String) (content : Option Bytes)
  | stream (s : Stream)
  deriving DecidableEq

namespace Document

/-- The bytes of the document; none where there is no document. -/
def bytes : Document → Bytes
  | file _ content => content.getD []
  | stream (.opened chunks false) => chunks.flatten
  | stream _ => []

/-- The name of the file that is rendered. -/
def fileName : Document → String
  | file name _ => name
  | stream _ => "shaprint_preview_cache.tmp"

/-- The document is copied to the temporary file. -/
def isCopied : Document → Bool
  | file _ _ => false
  | stream _ => true

end Document

/-- `endsWith(".pdf", ignoreCase = true)` -/
def endsWithPdf (name : String) : Bool :=
  4 ≤ name.toList.length
    && equalsIgnoreCase ".pdf" (String.ofList (name.toList.drop (name.toList.length - 4)))

def isPdfFile (fileName : String) (documentName : Option String) (bytes : Bytes) : Bool :=
  documentName.any endsWithPdf || endsWithPdf fileName || bytes.take 4 == [0x25, 0x50, 0x44, 0x46]

/-- The drawing of pages; none where it throws, or where the document has no page. -/
structure Renderer (B : Type) where
  testPage (printerName serverCanonicalAddress : String) (media : RequestedMedia)
    (colorMode : PrintColorMode) (orientation : PrintOrientation) (targetWidth : ℤ) : Option B
  pdf (bytes : Bytes) (pageIndex : ℤ) (media : RequestedMedia) (orientation : PrintOrientation)
    (targetWidth : ℤ) : Option B
  image (bytes : Bytes) (media : RequestedMedia) (orientation : PrintOrientation)
    (fitToPage : Bool) (targetWidth : ℤ) : Option B

/-- A call, with the document that its URI leads to. -/
structure Asked where
  request : PreviewRequest
  document : Document
  deriving DecidableEq

section

variable {B : Type} (R : Renderer B)

def Renderer.testPageOf (r : PreviewRequest) : Option B :=
  R.testPage r.printerName r.serverCanonicalAddress r.media r.colorMode r.orientation r.targetWidth

def Renderer.pageOf (r : PreviewRequest) (isPdf : Bool) (bytes : Bytes) : Option B :=
  if isPdf then R.pdf bytes r.pageIndex r.media r.orientation r.targetWidth
  else R.image bytes r.media r.orientation r.fitToPage r.targetWidth

/-- The rendering of a call's own document with its own parameters. -/
def fresh (a : Asked) : Option B :=
  match a.request.documentUriString with
  | none => R.testPageOf a.request
  | some _ =>
      if a.document.bytes = [] then none
      else R.pageOf a.request
        (isPdfFile a.document.fileName a.request.documentName a.document.bytes) a.document.bytes

end

/-! ### The calls interleave -/

/-- An entry of the cache: a bitmap, and the call that made it, which no call reads. -/
structure Cached (B : Type) where
  bitmap : B
  maker : Asked
  deriving DecidableEq

/-- What the calls share. -/
structure PreviewState (B : Type) where
  previewCache : List (Chars × Cached B)
  /-- The temporary file. -/
  tempFile : Option Bytes

/-- How far a call is. -/
inductive PreviewPhase (B : Type) where
  | start
  | missed
  /-- The stream and the temporary file are open. -/
  | copying (offset : ℕ) (rest : List Bytes)
  /-- The file of the document is known. -/
  | located
  | nonEmpty
  | opened (isPdf : Bool)
  | rendered (bitmap : B)
  | returned (result : Option B)
  deriving DecidableEq

structure PreviewCall (B : Type) where
  asked : Asked
  phase : PreviewPhase B
  deriving DecidableEq

namespace PreviewCall

variable {B : Type} (R : Renderer B)

def cacheKey (c : PreviewCall B) : Chars := buildCacheKey c.asked.request

/-- The bytes of the file that is rendered, as they are now. -/
def content (s : PreviewState B) (c : PreviewCall B) : Bytes :=
  match c.asked.document with
  | .file _ content => content.getD []
  | .stream _ => s.tempFile.getD []

/-- A piece that is written to a file at an offset. -/
def writeAt (bytes : Bytes) (offset : ℕ) (chunk : Bytes) : Bytes :=
  bytes.take offset ++ List.replicate (offset - bytes.length) 0 ++ chunk
    ++ bytes.drop (offset + chunk.length)

/-- The phase that a call is in when its document is to be found. -/
def locate (s : PreviewState B) (c : PreviewCall B) : PreviewState B × PreviewPhase B :=
  match c.asked.document with
  | .file _ _ => (s, .located)
  | .stream (.opened chunks _) => ({ s with tempFile := some [] }, .copying 0 chunks)
  | .stream .missing => (s, .located)
  | .stream .refused => (s, .returned none)

/-- Whether the stream of a call fails after its last piece. -/
def breaks (c : PreviewCall B) : Bool :=
  match c.asked.document with
  | .stream (.opened _ broken) => broken
  | _ => false

/-- The next section of a call. The bitmap that is found in the cache may be recycled. -/
def resume (s : PreviewState B) (c : PreviewCall B) (isRecycled : Bool) :
    Option (PreviewState B × PreviewCall B) :=
  match c.phase with
  | .start =>
      let touched := { s with previewCache := Lru.touch s.previewCache c.cacheKey }
      match Lru.find? s.previewCache c.cacheKey with
      | some existing =>
          if isRecycled then some (touched, { c with phase := .missed })
          else some (touched, { c with phase := .returned (some existing.bitmap) })
      | none => some (touched, { c with phase := .missed })
  | .missed =>
      match c.asked.request.documentUriString with
      | none =>
          match R.testPageOf c.asked.request with
          | some bitmap => some (s, { c with phase := .rendered bitmap })
          | none => some (s, { c with phase := .returned none })
      | some _ => some ((c.locate s).1, { c with phase := (c.locate s).2 })
  | .copying offset (chunk :: rest) =>
      some ({ s with tempFile := some (writeAt (s.tempFile.getD []) offset chunk) },
        { c with phase := .copying (offset + chunk.length) rest })
  | .copying _ [] =>
      if c.breaks then some (s, { c with phase := .returned none })
      else some (s, { c with phase := .located })
  | .located =>
      if c.content s = [] then some (s, { c with phase := .returned none })
      else some (s, { c with phase := .nonEmpty })
  | .nonEmpty =>
      some (s, { c with phase := .opened (isPdfFile c.asked.document.fileName
        c.asked.request.documentName (c.content s)) })
  | .opened isPdf =>
      match R.pageOf c.asked.request isPdf (c.content s) with
      | some bitmap => some (s, { c with phase := .rendered bitmap })
      | none => some (s, { c with phase := .returned none })
  | .rendered bitmap =>
      some ({ s with previewCache := Lru.put 20 s.previewCache c.cacheKey ⟨bitmap, c.asked⟩ },
        { c with phase := .returned (some bitmap) })
  | .returned _ => none

end PreviewCall

/-- What happens to the cache between the sections. -/
inductive CacheUse where
  | clearCache
  /-- The entry's use counts for what is forgotten next. -/
  | getCachedBitmap (request : PreviewRequest)
  deriving DecidableEq

section

variable {B : Type} (R : Renderer B)

def PreviewState.use (s : PreviewState B) : CacheUse → PreviewState B
  | .clearCache => { s with previewCache := [] }
  | .getCachedBitmap request =>
      { s with previewCache := Lru.touch s.previewCache (buildCacheKey request) }

/-- The calls of `loadPreviewBitmap`, from an empty cache, with what an earlier run left in the
temporary file. -/
def previewCalls (tempFile : Option Bytes) :
    Processes (PreviewState B) (PreviewCall B) Bool CacheUse where
  init := ⟨[], tempFile⟩
  starts c := match c.phase with
    | .start => true
    | _ => false
  advance s c isRecycled := (c.resume R s isRecycled).map fun next => (next.1, next.2, [])
  outside s event := some (s.use event)

abbrev PreviewWorld (B : Type) := Processes.World (PreviewState B) (PreviewCall B)

abbrev PreviewEvent (B : Type) := Processes.Event (PreviewCall B) Bool CacheUse

/-- The interleavings of any calls. -/
def previews (tempFile : Option Bytes) : StepSystem (PreviewWorld B) (PreviewEvent B) :=
  (previewCalls R tempFile).system

end

/-! ### The key -/

lemma decimal_injective : Function.Injective decimal := by
  have hdash : ∀ {n : ℕ} {rest : Chars}, Digits.decimal n ≠ '-' :: rest := fun {n rest} h => by
    have hdigit := Digits.isDigit_of_mem_decimal (n := n) (c := '-') (h ▸ List.mem_cons_self)
    exact absurd hdigit (by decide)
  intro m n h
  unfold decimal at h
  split_ifs at h with hm hn hn
  · have habs := Digits.decimal_injective (List.cons.inj h).2
    omega
  · exact absurd h.symm hdash
  · exact absurd h hdash
  · have hnat := Digits.decimal_injective h
    omega

lemma hash_not_mem_decimal (n : ℤ) : '#' ∉ decimal n := by
  intro h
  unfold decimal at h
  split_ifs at h
  · rcases List.mem_cons.mp h with h | h
    · exact absurd h (by decide)
    · exact absurd (Digits.isDigit_of_mem_decimal h) (by decide)
  · exact absurd (Digits.isDigit_of_mem_decimal h) (by decide)

lemma hash_not_mem_media (media : RequestedMedia) : '#' ∉ media.name := by
  cases media <;> decide

lemma hash_not_mem_orientation (orientation : PrintOrientation) : '#' ∉ orientation.name := by
  cases orientation <;> decide

lemma hash_not_mem_bool (b : Bool) : '#' ∉ (toString b).toList := by
  cases b <;> decide

lemma media_name_injective {m m' : RequestedMedia} (h : m.name = m'.name) : m = m' := by
  cases m <;> cases m' <;> first | rfl | exact absurd h (by decide)

lemma orientation_name_injective {o o' : PrintOrientation} (h : o.name = o'.name) : o = o' := by
  cases o <;> cases o' <;> first | rfl | exact absurd h (by decide)

lemma toString_bool_injective {b b' : Bool} (h : (toString b).toList = (toString b').toList) :
    b = b' := by
  cases b <;> cases b' <;> first | rfl | exact absurd h (by decide)

/-- The last parameter of a key can be read off it. -/
lemma append_keyField_inj {p p' v v' : Chars} {label : String} (hlabel : '#' ∉ label.toList)
    (hv : '#' ∉ v) (hv' : '#' ∉ v') (h : p ++ keyField label v = p' ++ keyField label v') :
    p = p' ∧ v = v' := by
  have hrest : ∀ {v : Chars}, '#' ∉ v → '#' ∉ label.toList ++ v := fun hv hmem =>
    (List.mem_append.mp hmem).elim hlabel hv
  obtain ⟨hp, hs⟩ := Split.append_cons_inj h (hrest hv) (hrest hv')
  exact ⟨hp, List.append_cancel_left hs⟩

/-- What the key lists. -/
structure SameListed (r r' : PreviewRequest) : Prop where
  uri : r.documentUriString.getD "default_test_page" = r'.documentUriString.getD "default_test_page"
  documentRevision : r.documentRevision = r'.documentRevision
  pageIndex : r.pageIndex = r'.pageIndex
  media : r.media = r'.media
  orientation : r.orientation = r'.orientation
  fitToPage : r.fitToPage = r'.fitToPage
  targetWidth : r.targetWidth = r'.targetWidth

/-- **The parameters that the key lists can be read off it.** -/
theorem buildCacheKey_inj {r r' : PreviewRequest} (h : buildCacheKey r = buildCacheKey r') :
    SameListed r r' := by
  unfold buildCacheKey at h
  obtain ⟨h, hwidth⟩ := append_keyField_inj (by decide) (hash_not_mem_decimal _)
    (hash_not_mem_decimal _) h
  obtain ⟨h, hfit⟩ := append_keyField_inj (by decide) (hash_not_mem_bool _) (hash_not_mem_bool _) h
  obtain ⟨h, horientation⟩ := append_keyField_inj (by decide) (hash_not_mem_orientation _)
    (hash_not_mem_orientation _) h
  obtain ⟨h, hmedia⟩ := append_keyField_inj (by decide) (hash_not_mem_media _)
    (hash_not_mem_media _) h
  obtain ⟨h, hpage⟩ := append_keyField_inj (by decide) (hash_not_mem_decimal _)
    (hash_not_mem_decimal _) h
  obtain ⟨huri, hrevision⟩ := append_keyField_inj (by decide) (hash_not_mem_decimal _)
    (hash_not_mem_decimal _) h
  exact ⟨String.ext huri, Int64.toInt_inj.mp (decimal_injective hrevision),
    decimal_injective hpage, media_name_injective hmedia, orientation_name_injective horientation,
    toString_bool_injective hfit, decimal_injective hwidth⟩

end ShaPrint.Android
