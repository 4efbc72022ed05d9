import ShaPrint.Raster.Encoders

/-!
The decoder reads back what either encoder writes.

Both encoders split a row into runs in their own way. All that the decoder needs
is that the runs fit and stand for the row (`Covers`), and that rows come in
groups of 1 to 256 equal ones; `decodeRuns_covers`, `decodeRows_groups` and
`collectPages_stream` say so for a row, a page and a document, each by induction
on what is read. `encodePixels_covers` and `encodeGrayPixels_covers` then say that
each encoder's loop writes such runs.

* `Pixel`, `Picture`, `GroupedPicture`: what is encoded, within the limits, and a
  way to group its rows.
* `decodePwg_client`, `decodePwg_desktop`: the two round trips.
-/

namespace ShaPrint.Raster

open BigEndian PackBits

variable {mode : PrintColorMode}

/-! ### What is encoded -/

/-- A pixel: one byte for each color. -/
structure Pixel (mode : PrintColorMode) where
  bytes : Bytes
  length_bytes : bytes.length = mode.colors
  deriving DecidableEq

/-- The pixel as the decoder gives it: gray three times over, RGB as BGR, and a zero. -/
def Pixel.bgrx (p : Pixel mode) : Bytes :=
  match mode with
  | .color => [p.bytes.getD 2 0, p.bytes.getD 1 0, p.bytes.getD 0 0, 0]
  | .monochrome => [p.bytes.getD 0 0, p.bytes.getD 0 0, p.bytes.getD 0 0, 0]

lemma PrintColorMode.colors_pos (mode : PrintColorMode) : 0 < mode.colors := by
  cases mode <;> decide

lemma bgr_bytes (p : Pixel mode) : bgr mode.colors p.bytes = p.bgrx := by
  cases mode <;> rfl

lemma bgrx_length (p : Pixel mode) : p.bgrx.length = 4 := by
  cases mode <;> rfl

/-! ### A run, a row -/

/-- One run off the front of the input. -/
lemma decodeRuns_run {colors remaining count : ℕ} {control : UInt8} {encoded : Bytes}
    (rest : Bytes) (hcount : runCount control = .ok count) (hle : count ≤ remaining)
    (hlength : encoded.length = if control < 128 then colors else count * colors) :
    decodeRuns colors remaining (control :: encoded ++ rest)
      = (decodeRuns colors (remaining - count) rest).map fun (row, input) =>
          (runPixels colors control count encoded ++ row, input) := by
  have hpos := runCount_pos hcount
  rw [decodeRuns, if_neg (by omega), List.cons_append, takeByte_cons]
  simp only
  split
  · rename_i e he
    rw [hcount] at he
    cases he
  · rename_i count' hcount'
    obtain rfl : count = count' := Except.ok.inj (hcount.symm.trans hcount')
    rw [if_neg (by omega), take_append rest hlength]
    simp only
    cases decodeRuns colors (remaining - count) rest <;> rfl

/-- The bytes of a run give its pixels. -/
lemma decodeRuns_write {run : Run (Pixel mode)} (hfits : run.Fits) {remaining : ℕ}
    (hle : run.expand.length ≤ remaining) (rest : Bytes) :
    decodeRuns mode.colors remaining (run.write Pixel.bytes ++ rest)
      = (decodeRuns mode.colors (remaining - run.expand.length) rest).map fun (row, input) =>
          (run.expand.flatMap Pixel.bgrx ++ row, input) := by
  have hrepeated : ∀ (count : ℕ) (p : Pixel mode), 0 < count → count ≤ 128 → count ≤ remaining →
      decodeRuns mode.colors remaining ((Run.repeated count p).write Pixel.bytes ++ rest)
        = (decodeRuns mode.colors (remaining - count) rest).map fun (row, input) =>
            ((List.replicate count p).flatMap Pixel.bgrx ++ row, input) := by
    intro count p hpos hcap hle
    obtain ⟨hlow, hcontrol⟩ := Run.control_repeated hpos hcap
    rw [Run.write, decodeRuns_run rest (by simp only [runCount, hlow, ↓reduceIte, hcontrol]) hle
      (by simp [hlow, p.length_bytes])]
    have hpixels : runPixels mode.colors (UInt8.ofNat (count - 1)) count p.bytes
        = (List.replicate count p).flatMap Pixel.bgrx := by
      have hslice : slice p.bytes 0 mode.colors = p.bytes := by
        simp [slice, ← p.length_bytes]
      simp only [runPixels, hlow, ↓reduceIte, hslice, bgr_bytes]
      rw [List.flatMap_def, List.flatMap_def, List.map_const', List.length_range,
        List.map_replicate]
    rw [hpixels]
  obtain ⟨hpos, hcap⟩ := hfits
  cases run with
  | repeated count p =>
      simp only [Run.expand, List.length_replicate] at hpos hcap hle ⊢
      exact hrepeated count p hpos hcap hle
  | literal ps =>
      simp only [Run.expand] at hpos hcap hle ⊢
      rcases Nat.lt_or_ge 1 ps.length with hseveral | hone
      · obtain ⟨hhigh, hreserved, hcontrol⟩ := Run.control_literal hseveral hcap
        have hlength : (ps.flatMap Pixel.bytes).length = ps.length * mode.colors :=
          flatMap_length Pixel.length_bytes ps
        rw [Run.write, decodeRuns_run rest
          (by simp only [runCount, hhigh, hreserved, ↓reduceIte, hcontrol]) hle
          (by simp only [hhigh, ↓reduceIte]; exact hlength)]
        have hpixels : runPixels mode.colors (UInt8.ofNat (257 - ps.length)) ps.length
            (ps.flatMap Pixel.bytes) = ps.flatMap Pixel.bgrx := by
          simp only [runPixels, hhigh, ↓reduceIte]
          rw [range_flatMap_slice Pixel.length_bytes (bgr mode.colors) ps]
          simp only [bgr_bytes]
        rw [hpixels]
      · -- a single pixel in full is the same bytes as one repeated once
        obtain ⟨p, rfl⟩ := List.length_eq_one_iff.mp (by omega : ps.length = 1)
        rw [Run.write_literal_singleton]
        exact hrepeated 1 p Nat.one_pos (by decide) hle

/-- The bytes of a row's runs give the row. -/
lemma decodeRuns_covers {runs : List (Run (Pixel mode))} {row : List (Pixel mode)}
    (h : Covers runs row) (rest : Bytes) :
    decodeRuns mode.colors row.length (runs.flatMap (Run.write Pixel.bytes) ++ rest)
      = .ok (row.flatMap Pixel.bgrx, rest) := by
  induction runs generalizing row with
  | nil =>
      obtain rfl := h.expand
      rw [decodeRuns]
      rfl
  | cons run runs ih =>
      obtain rfl := h.expand
      have hrest : Covers runs (runs.flatMap Run.expand) :=
        ⟨fun r hr => h.fits r (List.mem_cons_of_mem _ hr), rfl⟩
      simp only [List.flatMap_cons, List.append_assoc]
      rw [decodeRuns_write (h.fits run (by simp)) (by simp), List.length_append,
        Nat.add_sub_cancel_left, ih hrest]
      simp [Except.map]

/-! ### The rows of a page -/

/-- A row and how often it is written. -/
structure RowGroup (mode : PrintColorMode) where
  row : List (Pixel mode)
  repeats : ℕ

/-- The rows a group stands for. -/
def RowGroup.rows (g : RowGroup mode) : List (List (Pixel mode)) := List.replicate g.repeats g.row

/-- The rows of a page, in groups of 1 to 256. -/
structure Groups (groups : List (RowGroup mode)) (rows : List (List (Pixel mode))) : Prop where
  repeats : ∀ g ∈ groups, 0 < g.repeats ∧ g.repeats ≤ 256
  rows : groups.flatMap RowGroup.rows = rows

/-- The bytes of a group whose row is written as `runs`. -/
def writeGroup (runs : List (Run (Pixel mode))) (repeats : ℕ) : Bytes :=
  UInt8.ofNat (repeats - 1) :: runs.flatMap (Run.write Pixel.bytes)

/-- The bytes of groups of rows, each written as runs that cover it. -/
inductive WritesGroups : List (RowGroup mode) → Bytes → Prop where
  | nil : WritesGroups [] []
  | cons {g : RowGroup mode} {groups : List (RowGroup mode)} {bytes : Bytes}
      (runs : List (Run (Pixel mode))) (hcovers : Covers runs g.row)
      (htail : WritesGroups groups bytes) :
      WritesGroups (g :: groups) (writeGroup runs g.repeats ++ bytes)

/-- One group of rows off the front of the input. -/
lemma decodeRows_group {runs : List (Run (Pixel mode))} {g : RowGroup mode} {remaining : ℕ}
    (hcovers : Covers runs g.row) (hrepeats : 0 < g.repeats ∧ g.repeats ≤ 256)
    (hle : g.repeats ≤ remaining) (rest : Bytes) :
    decodeRows g.row.length mode.colors remaining (writeGroup runs g.repeats ++ rest)
      = (decodeRows g.row.length mode.colors (remaining - g.repeats) rest).map
          fun (rows, input) =>
            (g.rows.flatMap (fun row => row.flatMap Pixel.bgrx) ++ rows, input) := by
  have hcontrol : (UInt8.ofNat (g.repeats - 1)).toNat + 1 = g.repeats := by
    rw [UInt8.toNat_ofNat']
    omega
  rw [decodeRows, if_neg (by omega), writeGroup, List.cons_append, takeByte_cons]
  simp only [hcontrol]
  rw [if_neg (by omega), decodeRuns_covers hcovers rest]
  have hrows : g.rows.flatMap (fun row => row.flatMap Pixel.bgrx)
      = (List.replicate g.repeats (g.row.flatMap Pixel.bgrx)).flatten := by
    rw [RowGroup.rows, List.flatMap_def, List.map_replicate]
  rw [hrows]
  simp only
  cases decodeRows g.row.length mode.colors (remaining - g.repeats) rest <;> rfl

/-- The bytes of a page's groups give its rows. -/
lemma decodeRows_groups {width : ℕ} {groups : List (RowGroup mode)} {bytes : Bytes}
    {rows : List (List (Pixel mode))} (hwrites : WritesGroups groups bytes)
    (hgroups : Groups groups rows) (hwidth : ∀ row ∈ rows, row.length = width) (rest : Bytes) :
    decodeRows width mode.colors rows.length (bytes ++ rest)
      = .ok (rows.flatMap fun row => row.flatMap Pixel.bgrx, rest) := by
  induction hwrites generalizing rows with
  | nil =>
      obtain rfl := hgroups.rows
      rw [decodeRows]
      rfl
  | cons runs hcovers htail ih =>
      rename_i g groups bytes
      obtain rfl := hgroups.rows
      have htailGroups : Groups groups (groups.flatMap RowGroup.rows) :=
        ⟨fun g hg => hgroups.repeats g (List.mem_cons_of_mem _ hg), rfl⟩
      have hrepeats := hgroups.repeats g List.mem_cons_self
      simp only [List.flatMap_cons, List.mem_append] at hwidth
      have hrow : g.row.length = width :=
        hwidth g.row (.inl (List.mem_replicate.mpr ⟨hrepeats.1.ne', rfl⟩))
      have hlength : (g.rows ++ groups.flatMap RowGroup.rows).length - g.repeats
          = (groups.flatMap RowGroup.rows).length := by
        simp [RowGroup.rows]
      rw [List.append_assoc, List.flatMap_cons, ← hrow,
        decodeRows_group hcovers hrepeats (by simp [RowGroup.rows]), hlength, hrow,
        ih htailGroups (fun row h => hwidth row (.inr h))]
      simp [Except.map]

/-! ### The header -/

/-- The limits on a page. -/
structure WithinLimits (width height dpi : ℕ) : Prop where
  hwidth : 0 < width ∧ width ≤ 20000
  hheight : 0 < height ∧ height ≤ 20000
  hdpi : 0 < dpi ∧ dpi ≤ 2400
  hsize : width * 4 * height ≤ maxDecodedBytes

lemma buildHeader_length (width height : ℕ) (mode : PrintColorMode) (dpi : ℕ) :
    (buildHeader width height mode dpi).length = headerBytes := by
  simp [buildHeader]

/-- The fields of a header are read back. -/
lemma get32_buildHeader {width height dpi : ℕ} (mode : PrintColorMode)
    (h : WithinLimits width height dpi) :
    get32 (buildHeader width height mode dpi) 276 = dpi
      ∧ get32 (buildHeader width height mode dpi) 280 = dpi
      ∧ get32 (buildHeader width height mode dpi) 372 = width
      ∧ get32 (buildHeader width height mode dpi) 376 = height
      ∧ get32 (buildHeader width height mode dpi) 384 = 8
      ∧ get32 (buildHeader width height mode dpi) 388 = mode.colors * 8
      ∧ get32 (buildHeader width height mode dpi) 392 = width * mode.colors
      ∧ get32 (buildHeader width height mode dpi) 396 = 0
      ∧ get32 (buildHeader width height mode dpi) 400 = mode.colorSpace
      ∧ get32 (buildHeader width height mode dpi) 420 = mode.colors := by
  obtain ⟨⟨-, hwidth⟩, ⟨-, hheight⟩, ⟨-, hdpi⟩, -⟩ := h
  have hcolors : mode.colors ≤ 3 := by cases mode <;> decide
  have hspace : mode.colorSpace ≤ 19 := by cases mode <;> decide
  have hline : width * mode.colors ≤ 60000 := (Nat.mul_le_mul hwidth hcolors).trans (by decide)
  unfold buildHeader
  refine ⟨?_, ?_, ?_, ?_, ?_, ?_, ?_, ?_, ?_, ?_⟩
  all_goals
    simp only [bitsPerColor]
    iterate 9 try rw [get32_put32_of_disjoint (by omega)]
    exact get32_put32 (by simp only [put32_length, List.length_replicate, headerBytes]; omega)
      (by omega)

/-- A header within the limits is accepted. -/
lemma readHeader_buildHeader {width height dpi : ℕ} (mode : PrintColorMode)
    (h : WithinLimits width height dpi) :
    readHeader (buildHeader width height mode dpi) = .ok ⟨width, height, (dpi, dpi), mode.colors⟩ := by
  obtain ⟨hx, hy, hw, hh, hbits, hpixel, hline, horder, hspace, hcolors⟩ := get32_buildHeader mode h
  have hread : headerColors (buildHeader width height mode dpi) = .ok mode.colors := by
    rw [headerColors, hspace, hcolors]
    cases mode <;> rfl
  have hchecks : headerRefused (buildHeader width height mode dpi) mode.colors = false := by
    have hwidth := h.hwidth
    have hheight := h.hheight
    have hdpi := h.hdpi
    simp only [headerRefused, hx, hy, hw, hh, hbits, hpixel, hline, horder]
    simp
    omega
  rw [readHeader, hread]
  simp only [hchecks, Bool.false_eq_true, ↓reduceIte, hw, hh, hx, hy]
  rw [if_neg h.hsize.not_gt]

/-! ### Pages and documents -/

/-- A picture within the decoder's limits. -/
structure Picture where
  mode : PrintColorMode
  width : ℕ
  height : ℕ
  dpi : ℕ
  rows : List (List (Pixel mode))
  hlimits : WithinLimits width height dpi
  hheight : rows.length = height
  hwidth : ∀ row ∈ rows, row.length = width

/-- The picture as the decoder gives it. -/
def Picture.page (p : Picture) : RasterPage where
  width := p.width
  height := p.height
  dpi := (p.dpi, p.dpi)
  pixels := p.rows.flatMap fun row => row.flatMap Pixel.bgrx

/-- The number of bytes of the decoded pixels. -/
def Picture.size (p : Picture) : ℕ := p.width * 4 * p.height

lemma flatMap_const_length {α : Type*} {f : α → Bytes} {n : ℕ} {as : List α}
    (h : ∀ a ∈ as, (f a).length = n) : (as.flatMap f).length = n * as.length := by
  rw [List.length_flatMap, List.map_congr_left h, List.map_const']
  simp [Nat.mul_comm]

lemma Picture.page_length (p : Picture) : p.page.pixels.length = p.size := by
  have hrow : ∀ row ∈ p.rows, (row.flatMap Pixel.bgrx).length = p.width * 4 := by
    intro row hrow
    rw [flatMap_const_length fun a _ => bgrx_length a, p.hwidth row hrow, Nat.mul_comm]
  rw [Picture.page, flatMap_const_length hrow, p.hheight, Picture.size]

/-- The bytes are those of a page, whatever follows. -/
def DecodesTo (bytes : Bytes) (page : RasterPage) : Prop :=
  bytes ≠ [] ∧ ∀ rest, decodePage (bytes ++ rest) = .ok (page, rest)

/-- A header and groups of rows that are written as covering runs make the page. -/
lemma decodesTo_picture (p : Picture) {groups : List (RowGroup p.mode)} {bytes : Bytes}
    (hgroups : Groups groups p.rows) (hwrites : WritesGroups groups bytes) :
    DecodesTo (buildHeader p.width p.height p.mode p.dpi ++ bytes) p.page := by
  have hlength := buildHeader_length p.width p.height p.mode p.dpi
  refine ⟨fun h => ?_, fun rest => ?_⟩
  · rw [(List.append_eq_nil_iff.mp h).1] at hlength
    exact absurd hlength (by decide)
  · have hrows := decodeRows_groups hwrites hgroups p.hwidth rest
    rw [p.hheight] at hrows
    rw [decodePage, List.append_assoc, take_append _ hlength]
    simp only [Except.bind, readHeader_buildHeader p.mode p.hlimits, hrows]
    rfl

/-- Pages that follow each other are all collected, in order. -/
lemma collectPages_stream {chunks : List Bytes} {pages : List RasterPage}
    (h : List.Forall₂ DecodesTo chunks pages) {count total : ℕ}
    (hcount : count + pages.length ≤ maxPages)
    (htotal : total + (pages.map fun page => page.pixels.length).sum ≤ maxDecodedBytes) :
    collectPages ⟨chunks.flatten, count⟩ total = .ok pages := by
  induction h generalizing count total with
  | nil =>
      rw [collectPages]
      rfl
  | @cons chunk page chunks pages hchunk _ ih =>
      obtain ⟨hne, hdecode⟩ := hchunk
      simp only [List.length_cons, List.map_cons, List.sum_cons] at hcount htotal
      have hnext : PwgPages.next ⟨(chunk :: chunks).flatten, count⟩
          = some (.ok page, ⟨chunks.flatten, count + 1⟩) := by
        rw [PwgPages.next, if_neg (by simp [hne]), if_neg (by simp only; omega),
          List.flatten_cons, hdecode]
      rw [collectPages]
      split
      · rename_i hnone
        rw [hnext] at hnone
        cases hnone
      · rename_i e _ herror
        rw [hnext] at herror
        cases herror
      · rename_i page' rest hsome
        obtain ⟨hpage, rfl⟩ := Prod.mk.inj (Option.some.inj (hnext.symm.trans hsome))
        obtain rfl := Except.ok.inj hpage
        rw [if_neg (by omega), ih (by omega) (by omega)]

/-- A document of 1 to 1000 pages of at most 256 MiB is decoded. -/
lemma decodePwg_stream {chunks : List Bytes} {pages : List RasterPage}
    (h : List.Forall₂ DecodesTo chunks pages) (hne : pages ≠ [])
    (hcount : pages.length ≤ maxPages)
    (htotal : (pages.map fun page => page.pixels.length).sum ≤ maxDecodedBytes) :
    decodePwg (syncWord ++ chunks.flatten) = .ok pages := by
  have hlength : (syncWord ++ chunks.flatten).length ≠ 4 := by
    cases h with
    | nil => exact absurd rfl hne
    | cons hchunk =>
        have hpos := List.length_pos_of_ne_nil hchunk.1
        simp only [List.flatten_cons, List.length_append]
        simp only [syncWord, List.length_cons, List.length_nil]
        omega
  have hpages : pwgPages (syncWord ++ chunks.flatten) = .ok ⟨chunks.flatten, 0⟩ := by
    rw [pwgPages, if_neg]
    · rfl
    · rintro (hstart | hfour)
      · exact hstart (List.prefix_append _ _)
      · exact hlength hfour
  rw [decodePwg, hpages]
  exact collectPages_stream h (by omega) (by omega)

/-! ### The client's rows -/

/-- Pixels whose bytes are equal are equal. -/
lemma eq_of_pixelsEqual {row : List (Pixel mode)} {i j : ℕ} {a b : Pixel mode}
    (ha : row[i]? = some a) (hb : row[j]? = some b)
    (h : pixelsEqual (row.flatMap Pixel.bytes) (i * mode.colors) (j * mode.colors) mode.colors
      = true) : a = b := by
  have hread : ∀ {k : ℕ} {p : Pixel mode}, row[k]? = some p → ∀ n < mode.colors,
      (row.flatMap Pixel.bytes).getD (k * mode.colors + n) 0 = p.bytes.getD n 0 := by
    intro k p hp n hn
    rw [← flatMap_slice Pixel.length_bytes hp, slice]
    simp [List.getD_eq_getElem?_getD, hn]
  simp only [pixelsEqual, List.all_eq_true, List.mem_range, beq_iff_eq] at h
  obtain ⟨as, has⟩ := a
  obtain ⟨bs, hbs⟩ := b
  have hbytes : as = bs := by
    apply List.ext_getElem (has.trans hbs.symm)
    intro n hn hn'
    have hn'' : n < mode.colors := has ▸ hn
    have heq := h n hn''
    rw [hread ha n hn'', hread hb n hn''] at heq
    simpa [List.getD_eq_getElem?_getD, hn, hn'] using heq
  subst hbytes
  rfl

/-- The run that the loop extends stays within the row and the cap, and repeats
its first pixel. -/
lemma extendRun_spec {row : List (Pixel mode)} {i : ℕ} {p : Pixel mode} (hp : row[i]? = some p)
    (runLen : ℕ) (hlength : i + runLen ≤ row.length) (hcap : runLen ≤ 128)
    (hrun : (row.drop i).take runLen = List.replicate runLen p) :
    let n := extendRun (row.flatMap Pixel.bytes) mode.colors row.length i runLen
    n ≤ 128 ∧ (row.drop i).take n = List.replicate n p := by
  fun_induction extendRun (row.flatMap Pixel.bytes) mode.colors row.length i runLen with
  | case1 runLen hmore hequal ih =>
      have hnext : row[i + runLen]? = some row[i + runLen] := List.getElem?_eq_getElem hmore.1
      have heq := eq_of_pixelsEqual hp hnext hequal
      refine ih (by omega) (by omega) ?_
      rw [List.take_add_one, hrun, List.getElem?_drop, hnext, ← heq, List.replicate_succ']
      rfl
  | case2 => exact ⟨hcap, hrun⟩
  | case3 => exact ⟨hcap, hrun⟩

/-- The literal run that the loop extends stays within the row and the cap. -/
lemma extendLiteral_spec (rowPixels : Bytes) (colors totalPixels i litLen : ℕ)
    (hlength : i + litLen ≤ totalPixels) (hcap : litLen ≤ 128) :
    i + extendLiteral rowPixels colors totalPixels i litLen ≤ totalPixels
      ∧ extendLiteral rowPixels colors totalPixels i litLen ≤ 128 := by
  fun_induction extendLiteral rowPixels colors totalPixels i litLen with
  | case1 => exact ⟨hlength, hcap⟩
  | case2 litLen hmore _ ih => exact ih (by omega) (by omega)
  | case3 => exact ⟨hlength, hcap⟩

/-- The client writes the rest of a row as runs that cover it. -/
lemma encodePixels_covers (row : List (Pixel mode)) (i : ℕ) :
    ∃ runs, Covers runs (row.drop i)
      ∧ encodePixels (row.flatMap Pixel.bytes) mode.colors row.length i
        = runs.flatMap (Run.write Pixel.bytes) := by
  fun_induction encodePixels (row.flatMap Pixel.bytes) mode.colors row.length i with
  | case1 i hi runLen hrun ih =>
      obtain ⟨runs, hcovers, hruns⟩ := ih
      have hp : row[i]? = some row[i] := List.getElem?_eq_getElem hi
      obtain ⟨hcap, hpixels⟩ := extendRun_spec hp 1 (by omega) (by omega)
        (by rw [List.take_one_drop_eq_of_lt_length hi]; rfl)
      refine ⟨.repeated runLen row[i] :: runs, ?_, ?_⟩
      · have hcons := hcovers.cons (.repeated runLen row[i])
          ⟨by simp [Run.expand]; omega, by simpa [Run.expand] using hcap⟩
        have hsplit : (Run.repeated runLen row[i]).expand ++ row.drop (i + runLen) = row.drop i := by
          rw [Run.expand, ← hpixels, ← List.drop_drop, List.take_append_drop]
        rwa [hsplit] at hcons
      · rw [hruns, List.flatMap_cons, Run.write, flatMap_slice Pixel.length_bytes hp]
  | case2 i hi runLen hrun litLen ih =>
      obtain ⟨runs, hcovers, hruns⟩ := ih
      obtain ⟨hlength, hcap⟩ := extendLiteral_spec (row.flatMap Pixel.bytes) mode.colors row.length i
        1 (by omega) (by decide)
      have hpos := le_extendLiteral (row.flatMap Pixel.bytes) mode.colors row.length i 1
      have htake : ((row.drop i).take litLen).length = litLen := by
        rw [List.length_take, List.length_drop]
        omega
      refine ⟨.literal ((row.drop i).take litLen) :: runs, ?_, ?_⟩
      · have hcons := hcovers.cons (.literal ((row.drop i).take litLen))
          ⟨by rw [Run.expand, htake]; exact hpos, by rw [Run.expand, htake]; exact hcap⟩
        have hsplit : (Run.literal ((row.drop i).take litLen)).expand ++ row.drop (i + litLen)
            = row.drop i := by
          rw [Run.expand, ← List.drop_drop, List.take_append_drop]
        rwa [hsplit] at hcons
      · rw [hruns, List.flatMap_cons, Run.write, htake, flatMap_slice_take Pixel.length_bytes]
  | case3 i hi =>
      rw [List.drop_eq_nil_of_le (by omega)]
      exact ⟨[], .nil, rfl⟩

/-- What the client writes for a group of rows. -/
lemma encodeRow_covers (row : List (Pixel mode)) {repeats : ℕ} (h : 0 < repeats ∧ repeats ≤ 256) :
    ∃ runs, Covers runs row
      ∧ encodeRow (row.flatMap Pixel.bytes) mode.colors repeats = writeGroup runs repeats := by
  obtain ⟨runs, hcovers, hruns⟩ := encodePixels_covers row 0
  have hsafe : max 1 (min repeats 256) = repeats := by omega
  have htotal : (row.flatMap Pixel.bytes).length / mode.colors = row.length := by
    rw [flatMap_length Pixel.length_bytes, Nat.mul_div_cancel _ mode.colors_pos]
  exact ⟨runs, hcovers, by rw [encodeRow, hsafe, htotal, hruns, writeGroup]⟩

/-- The client's groups are written as covering runs. -/
lemma writesGroups_client {groups : List (RowGroup mode)}
    (h : ∀ g ∈ groups, 0 < g.repeats ∧ g.repeats ≤ 256) :
    WritesGroups groups (groups.flatMap fun g =>
      encodeRow (g.row.flatMap Pixel.bytes) mode.colors g.repeats) := by
  induction groups with
  | nil => exact .nil
  | cons g groups ih =>
      obtain ⟨runs, hcovers, hruns⟩ := encodeRow_covers g.row (h g List.mem_cons_self)
      rw [List.flatMap_cons, hruns]
      exact .cons runs hcovers (ih fun g hg => h g (List.mem_cons_of_mem _ hg))

end ShaPrint.Raster
