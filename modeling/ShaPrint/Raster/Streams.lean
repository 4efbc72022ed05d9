import ShaPrint.Raster.RoundTrip

/-!
The streams the two applications write, and that the server decodes them.

* `clientStream`, `groupedStream`: the client's documents, row by row and with
  equal rows in groups.
* `grayPicture`: the desktop's bitmap as a picture; `encodePwgRaster_eq` is its
  stream, `writesGroups_desktop` how its rows are written.
* `decodePwg_streams`: the decoder gives back exactly the pages, for all three.
-/

namespace ShaPrint.Raster

open BigEndian PackBits

/-! ### The client's documents -/

/-- The document of the client, every row on its own. -/
def clientStream (pictures : List Picture) : Bytes :=
  syncWord ++ pictures.flatMap fun p =>
    buildHeader p.width p.height p.mode p.dpi
      ++ p.rows.flatMap fun row => encodeRow (row.flatMap Pixel.bytes) p.mode.colors 1

/-- A picture and a way to group its rows. -/
structure GroupedPicture extends Picture where
  groups : List (RowGroup mode)
  hgroups : Groups groups rows

/-- The document of the client, with the rows of each picture in groups. -/
def groupedStream (pictures : List GroupedPicture) : Bytes :=
  syncWord ++ pictures.flatMap fun p =>
    buildHeader p.width p.height p.mode p.dpi
      ++ p.groups.flatMap fun g => encodeRow (g.row.flatMap Pixel.bytes) p.mode.colors g.repeats

/-- Every row in a group of its own. -/
def Picture.rowByRow (p : Picture) : GroupedPicture where
  toPicture := p
  groups := p.rows.map fun row => ⟨row, 1⟩
  hgroups :=
    { repeats := by
        intro g hg
        obtain ⟨row, -, rfl⟩ := List.mem_map.mp hg
        simp
      rows := by simp [List.flatMap_map, RowGroup.rows] }

lemma clientStream_eq (pictures : List Picture) :
    clientStream pictures = groupedStream (pictures.map Picture.rowByRow) := by
  rw [clientStream, groupedStream, List.flatMap_map]
  simp only [Picture.rowByRow, List.flatMap_map]

/-- A grouped document within the limits is decoded to its pictures. -/
lemma decodePwg_grouped {pictures : List GroupedPicture} (hne : pictures ≠ [])
    (hcount : pictures.length ≤ maxPages)
    (hsize : (pictures.map fun p => p.size).sum ≤ maxDecodedBytes) :
    decodePwg (groupedStream pictures) = .ok (pictures.map fun p => p.page) := by
  have hpages : List.Forall₂ DecodesTo
      (pictures.map fun p => buildHeader p.width p.height p.mode p.dpi
        ++ p.groups.flatMap fun g => encodeRow (g.row.flatMap Pixel.bytes) p.mode.colors g.repeats)
      (pictures.map fun p => p.page) := by
    rw [List.forall₂_map_left_iff, List.forall₂_map_right_iff, List.forall₂_same]
    intro p _
    exact decodesTo_picture p.toPicture p.hgroups (writesGroups_client p.hgroups.repeats)
  rw [groupedStream, List.flatMap_def]
  refine decodePwg_stream hpages (by simpa using hne) (by simpa using hcount) ?_
  rw [List.map_map]
  simpa only [Function.comp_def, Picture.page_length] using hsize

/-! ### The desktop's document -/

/-- A gray value as a pixel. -/
def grayPixel (g : UInt8) : Pixel .monochrome := ⟨[g], rfl⟩

/-- The rows of a gray bitmap. -/
def grayRows (pixels : Bytes) (w h : ℕ) : List (List (Pixel .monochrome)) :=
  (List.range h).map fun y => (slice pixels (y * w) w).map grayPixel

lemma grayRows_length (pixels : Bytes) (w h : ℕ) : (grayRows pixels w h).length = h := by
  simp [grayRows]

lemma grayRows_getElem? (pixels : Bytes) {w h y : ℕ} (hy : y < h) :
    (grayRows pixels w h)[y]? = some ((slice pixels (y * w) w).map grayPixel) := by
  simp [grayRows, hy]

/-- The rows of a bitmap have its width. -/
lemma slice_row_length {pixels : Bytes} {w h y : ℕ} (hlength : pixels.length = w * h)
    (hy : y < h) : (slice pixels (y * w) w).length = w := by
  have hle : (y + 1) * w ≤ h * w := Nat.mul_le_mul_right w hy
  rw [Nat.add_mul, Nat.one_mul, Nat.mul_comm h] at hle
  rw [slice, List.length_take, List.length_drop, hlength]
  omega

/-- The rows of a bitmap, one after the other, are the bitmap. -/
lemma flatMap_slice_rows (pixels : Bytes) (w h : ℕ) :
    (List.range h).flatMap (fun y => slice pixels (y * w) w) = pixels.take (h * w) := by
  induction h with
  | zero => simp
  | succ h ih =>
      rw [List.range_succ, List.flatMap_append, ih, List.flatMap_singleton, slice, Nat.succ_mul,
        List.take_add]

/-- The bitmap as a picture. -/
def grayPicture {width height dpi : ℕ} {pixels : Bytes} (hlimits : WithinLimits width height dpi)
    (hlength : pixels.length = width * height) : Picture where
  mode := .monochrome
  width := width
  height := height
  dpi := dpi
  rows := grayRows pixels width height
  hlimits := hlimits
  hheight := grayRows_length pixels width height
  hwidth := by
    intro row hrow
    obtain ⟨y, hy, rfl⟩ := List.mem_map.mp hrow
    rw [List.length_map, slice_row_length hlength (List.mem_range.mp hy)]

/-- The bitmap's decoded pixels: every gray value three times over, and a zero. -/
lemma grayPicture_page {width height dpi : ℕ} {pixels : Bytes}
    (hlimits : WithinLimits width height dpi) (hlength : pixels.length = width * height) :
    (grayPicture hlimits hlength).page
      = ⟨width, height, (dpi, dpi), pixels.flatMap fun g => [g, g, g, 0]⟩ := by
  have hpixels : (grayRows pixels width height).flatMap (fun row => row.flatMap Pixel.bgrx)
      = pixels.flatMap fun g => [g, g, g, 0] := by
    have hwhole := flatMap_slice_rows pixels width height
    rw [List.take_of_length_le (by rw [hlength, Nat.mul_comm])] at hwhole
    conv_rhs => rw [← hwhole]
    rw [grayRows, List.flatMap_map, List.flatMap_assoc]
    simp only [List.flatMap_map]
    rfl
  rw [Picture.page]
  exact congrArg (RasterPage.mk width height (dpi, dpi)) hpixels

/-- The run of equal pixels that the loop counts. -/
lemma equalPixels_spec {row : Bytes} {x : ℕ} (runLen : ℕ) (hcap : runLen ≤ 128)
    (hrun : (row.drop x).take runLen = List.replicate runLen (row.getD x 0)) :
    let n := equalPixels row.length row x runLen
    n ≤ 128 ∧ (row.drop x).take n = List.replicate n (row.getD x 0) := by
  fun_induction equalPixels row.length row x runLen with
  | case1 runLen hmore ih =>
      obtain ⟨hlt, hlow, hequal⟩ := hmore
      refine ih (by omega) ?_
      rw [List.take_add_one, hrun, List.getElem?_drop, List.replicate_succ', ← hequal]
      simp [List.getD_eq_getElem?_getD, hlt]
  | case2 => exact ⟨hcap, hrun⟩

/-- The desktop writes the rest of a row as runs that cover it. -/
lemma encodeGrayPixels_covers (row : Bytes) (x : ℕ) :
    ∃ runs, Covers runs ((row.drop x).map grayPixel)
      ∧ encodeGrayPixels row.length row x = runs.flatMap (Run.write Pixel.bytes) := by
  fun_induction encodeGrayPixels row.length row x with
  | case1 x hx runLen ih =>
      obtain ⟨runs, hcovers, hruns⟩ := ih
      obtain ⟨hcap, hpixels⟩ := equalPixels_spec 1 (by decide)
        (by rw [List.take_one_drop_eq_of_lt_length hx]; simp [List.getD_eq_getElem?_getD, hx])
      have hpos := le_equalPixels row.length row x 1
      refine ⟨.repeated runLen (grayPixel (row.getD x 0)) :: runs, ?_, ?_⟩
      · have hcons := hcovers.cons (.repeated runLen (grayPixel (row.getD x 0)))
          ⟨by rw [Run.expand, List.length_replicate]; exact hpos,
            by rw [Run.expand, List.length_replicate]; exact hcap⟩
        have hsplit : (Run.repeated runLen (grayPixel (row.getD x 0))).expand
            ++ (row.drop (x + runLen)).map grayPixel = (row.drop x).map grayPixel := by
          rw [Run.expand, ← List.map_replicate, ← hpixels, ← List.drop_drop, ← List.map_append,
            List.take_append_drop]
        rwa [hsplit] at hcons
      · rw [hruns, List.flatMap_cons, Run.write]
        rfl
  | case2 x hx =>
      rw [List.drop_eq_nil_of_le (by omega)]
      exact ⟨[], .nil, rfl⟩

/-- The group of equal rows that the loop counts. -/
lemma equalRows_spec {pixels : Bytes} {w h y : ℕ} (repeats : ℕ) (hlength : y + repeats ≤ h)
    (hcap : repeats ≤ 256)
    (hrows : ((grayRows pixels w h).drop y).take repeats
      = List.replicate repeats ((slice pixels (y * w) w).map grayPixel)) :
    let n := equalRows pixels w h y repeats
    n ≤ 256 ∧ ((grayRows pixels w h).drop y).take n
      = List.replicate n ((slice pixels (y * w) w).map grayPixel) := by
  fun_induction equalRows pixels w h y repeats with
  | case1 repeats hmore hequal ih =>
      refine ih (by omega) (by omega) ?_
      rw [List.take_add_one, hrows, List.getElem?_drop, grayRows_getElem? pixels hmore.1, hequal,
        List.replicate_succ']
      rfl
  | case2 => exact ⟨hcap, hrows⟩
  | case3 => exact ⟨hcap, hrows⟩

/-- The desktop writes the rest of the rows as groups of covering runs. -/
lemma writesGroups_desktop {pixels : Bytes} {w h : ℕ} (hlength : pixels.length = w * h) (y : ℕ) :
    ∃ groups, Groups groups ((grayRows pixels w h).drop y)
      ∧ WritesGroups groups (encodeGrayRows pixels w h y) := by
  fun_induction encodeGrayRows pixels w h y with
  | case1 y hy repeats ih =>
      obtain ⟨groups, hgroups, hwrites⟩ := ih
      have hrow : (grayRows pixels w h)[y]? = some _ := grayRows_getElem? pixels hy
      obtain ⟨hcap, hrows⟩ := equalRows_spec 1 hy (by decide)
        (by rw [List.take_one, List.head?_drop, hrow]; rfl)
      have hpos := le_equalRows pixels w h y 1
      obtain ⟨runs, hcovers, hruns⟩ := encodeGrayPixels_covers (slice pixels (y * w) w) 0
      rw [slice_row_length hlength hy] at hruns
      refine ⟨⟨(slice pixels (y * w) w).map grayPixel, repeats⟩ :: groups, ⟨?_, ?_⟩, ?_⟩
      · intro g hg
        rcases List.mem_cons.mp hg with rfl | hg
        · exact ⟨hpos, hcap⟩
        · exact hgroups.repeats g hg
      · rw [List.flatMap_cons, hgroups.rows, RowGroup.rows, ← hrows, ← List.drop_drop,
          List.take_append_drop]
      · rw [hruns]
        exact .cons runs hcovers hwrites
  | case2 y hy =>
      rw [List.drop_eq_nil_of_le (by rw [grayRows_length]; omega)]
      exact ⟨[], ⟨by simp, rfl⟩, .nil⟩

/-- The desktop's stream, with the client's header. -/
lemma encodePwgRaster_eq (width height dpi : ℕ) (pixels : Bytes) :
    encodePwgRaster width height dpi pixels
      = syncWord ++ (buildHeader width height .monochrome dpi
        ++ encodeGrayRows pixels width height 0) := by
  rw [encodePwgRaster, buildHeader, List.append_assoc]
  simp only [PrintColorMode.colors, PrintColorMode.colorSpace, bitsPerColor, Nat.one_mul,
    Nat.mul_one]
  rfl

/-- The desktop's stream is decoded to its bitmap. -/
lemma decodePwg_desktop {width height dpi : ℕ} {pixels : Bytes}
    (hlimits : WithinLimits width height dpi) (hlength : pixels.length = width * height) :
    decodePwg (encodePwgRaster width height dpi pixels)
      = .ok [⟨width, height, (dpi, dpi), pixels.flatMap fun g => [g, g, g, 0]⟩] := by
  obtain ⟨groups, hgroups, hwrites⟩ := writesGroups_desktop hlength 0
  have hpage := decodesTo_picture (grayPicture hlimits hlength) hgroups hwrites
  rw [grayPicture_page] at hpage
  have hsize := (grayPicture hlimits hlength).page_length
  rw [grayPicture_page] at hsize
  have hdecode := decodePwg_stream (.cons hpage .nil) (by simp)
    (by rw [List.length_singleton]; decide) (by
    simp only [List.map_cons, List.map_nil, List.sum_cons, List.sum_nil, Nat.add_zero, hsize]
    exact hlimits.hsize)
  rw [List.flatten_cons, List.flatten_nil, List.append_nil] at hdecode
  rw [encodePwgRaster_eq]
  exact hdecode

/-! ### The round trips -/

/-- **The encoders and the decoder agree.** Every document of 1 to 1000 pictures
within the limits, and within 256 MiB in all, is decoded to exactly these
pictures, in order: as the client writes it row by row, and with the rows in any
groups of 1 to 256 equal ones. The desktop's stream of a gray bitmap is decoded
to that one page. -/
theorem decodePwg_streams :
    (∀ pictures : List Picture, pictures ≠ [] → pictures.length ≤ maxPages →
        (pictures.map fun p => p.size).sum ≤ maxDecodedBytes →
          decodePwg (clientStream pictures) = .ok (pictures.map fun p => p.page))
      ∧ (∀ pictures : List GroupedPicture, pictures ≠ [] → pictures.length ≤ maxPages →
        (pictures.map fun p => p.size).sum ≤ maxDecodedBytes →
          decodePwg (groupedStream pictures) = .ok (pictures.map fun p => p.page))
      ∧ (∀ (width height dpi : ℕ) (pixels : Bytes), WithinLimits width height dpi →
        pixels.length = width * height →
          decodePwg (encodePwgRaster width height dpi pixels)
            = .ok [⟨width, height, (dpi, dpi), pixels.flatMap fun g => [g, g, g, 0]⟩]) := by
  refine ⟨fun pictures hne hcount hsize => ?_, fun pictures hne hcount hsize => ?_,
    fun width height dpi pixels hlimits hlength => decodePwg_desktop hlimits hlength⟩
  · rw [clientStream_eq, decodePwg_grouped (by simpa using hne) (by simpa using hcount)
      (by simpa [Function.comp_def, Picture.rowByRow] using hsize), List.map_map]
    rfl
  · exact decodePwg_grouped hne hcount hsize

/-- A picture of one colored pixel. -/
def onePixel : Picture where
  mode := .color
  width := 1
  height := 1
  dpi := 300
  rows := [[⟨[1, 2, 3], rfl⟩]]
  hlimits := ⟨by decide, by decide, by decide, by decide⟩
  hheight := rfl
  hwidth := by simp

theorem onePixel_decoded :
    decodePwg (clientStream [onePixel]) = .ok [⟨1, 1, (300, 300), [3, 2, 1, 0]⟩]
      ∧ decodePwg (groupedStream [onePixel.rowByRow]) = .ok [⟨1, 1, (300, 300), [3, 2, 1, 0]⟩]
      ∧ decodePwg (encodePwgRaster 1 1 300 [7]) = .ok [⟨1, 1, (300, 300), [7, 7, 7, 0]⟩] :=
  ⟨decodePwg_streams.1 [onePixel] (by simp) (by decide) (by decide),
    decodePwg_streams.2.1 [onePixel.rowByRow] (by simp) (by decide) (by decide),
    decodePwg_streams.2.2 1 1 300 [7] onePixel.hlimits rfl⟩

end ShaPrint.Raster
