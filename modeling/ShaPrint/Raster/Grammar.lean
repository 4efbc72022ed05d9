import ShaPrint.Raster.RoundTrip

/-!
The grammar of PWG raster documents, and that the decoder accepts exactly it.

* `RunBytes`, `RowBytes`: the runs of a row, whose lengths sum to its width, and the rows of a
  page, whose repeats sum to its height; the control byte 128 is reserved.
* `ValidHeader`, `PageBytes`, `DocumentBytes`: headers, pages, and documents within the limits.
* `decodeRuns_iff`, `decodeRows_iff`, `decodePage_iff`: what each loop takes off its input.
* `decodePwg_iff`: a document is decoded if and only if it is in the grammar.
-/

namespace ShaPrint.Raster

open BigEndian PackBits

/-! ### The grammar -/

/-- The bytes of runs of so many pixels in all. -/
inductive RunBytes (colors : ℕ) : ℕ → Bytes → Prop where
  | nil : RunBytes colors 0 []
  | repeated {control : UInt8} {pixel rest : Bytes} {n : ℕ} (hcontrol : control < 128)
      (hpixel : pixel.length = colors) (hrest : RunBytes colors n rest) :
      RunBytes colors (control.toNat + 1 + n) (control :: pixel ++ rest)
  | literal {control : UInt8} {pixels rest : Bytes} {n : ℕ} (hcontrol : 128 < control)
      (hpixels : pixels.length = (257 - control.toNat) * colors) (hrest : RunBytes colors n rest) :
      RunBytes colors (257 - control.toNat + n) (control :: pixels ++ rest)

/-- The bytes of so many rows in all, each with a byte for how often it is repeated. -/
inductive RowBytes (width colors : ℕ) : ℕ → Bytes → Prop where
  | nil : RowBytes width colors 0 []
  | rows {repeats : UInt8} {row rest : Bytes} {n : ℕ} (hrow : RunBytes colors width row)
      (hrest : RowBytes width colors n rest) :
      RowBytes width colors (repeats.toNat + 1 + n) (repeats :: row ++ rest)

/-- The headers of pages that are supported. -/
structure ValidHeader (header : Bytes) (h : PageHeader) : Prop where
  length : header.length = headerBytes
  width : get32 header 372 = h.width ∧ 1 ≤ h.width ∧ h.width ≤ 20000
  height : get32 header 376 = h.height ∧ 1 ≤ h.height ∧ h.height ≤ 20000
  horizontal : get32 header 276 = h.dpi.1 ∧ 1 ≤ h.dpi.1 ∧ h.dpi.1 ≤ 2400
  vertical : get32 header 280 = h.dpi.2 ∧ 1 ≤ h.dpi.2 ∧ h.dpi.2 ≤ 2400
  colors : (get32 header 400 = 18 ∧ get32 header 420 = 1 ∧ h.colors = 1)
    ∨ (get32 header 400 = 19 ∧ get32 header 420 = 3 ∧ h.colors = 3)
  bitsPerColor : get32 header 384 = 8
  bitsPerPixel : get32 header 388 = h.colors * 8
  bytesPerLine : get32 header 392 = h.width * h.colors
  colorOrder : get32 header 396 = 0
  size : h.width * 4 * h.height ≤ maxDecodedBytes

/-- The bytes of a page: its header and its rows. -/
def PageBytes (page : Bytes) (h : PageHeader) : Prop :=
  ∃ header rows, page = header ++ rows ∧ ValidHeader header h
    ∧ RowBytes h.width h.colors h.height rows

/-- A document within the limits: the sync word and one page or more. -/
def DocumentBytes (document : Bytes) : Prop :=
  ∃ pages : List (Bytes × PageHeader), document = syncWord ++ (pages.map Prod.fst).flatten
    ∧ pages ≠ [] ∧ (∀ page ∈ pages, PageBytes page.1 page.2) ∧ pages.length ≤ maxPages
    ∧ (pages.map fun page => page.2.width * 4 * page.2.height).sum ≤ maxDecodedBytes

/-! ### Rows -/

lemma bgr_length (colors : ℕ) (rgb : Bytes) : (bgr colors rgb).length = 4 := by
  unfold bgr
  split <;> rfl

lemma runPixels_length (colors : ℕ) (control : UInt8) (count : ℕ) (encoded : Bytes) :
    (runPixels colors control count encoded).length = count * 4 := by
  rw [runPixels, flatMap_const_length fun _ _ => bgr_length colors _, List.length_range,
    Nat.mul_comm]

lemma not_lt_128 {control : UInt8} (h : 128 < control) : ¬control < 128 ∧ control ≠ 128 := by
  rw [UInt8.lt_iff_toNat_lt] at h ⊢
  refine ⟨by omega, ?_⟩
  rintro rfl
  omega

/-- The run lengths that the grammar and the decoder give a control byte. -/
lemma runCount_eq_ok {control : UInt8} {count : ℕ} : runCount control = .ok count ↔
    (control < 128 ∧ count = control.toNat + 1) ∨ (128 < control ∧ count = 257 - control.toNat) := by
  unfold runCount
  have hcases : control < 128 ∨ control = 128 ∨ 128 < control := by
    simp only [UInt8.lt_iff_toNat_lt, ← UInt8.toNat_inj]
    omega
  rcases hcases with hlow | rfl | hhigh
  · have hnot : ¬128 < control := by
      rw [UInt8.lt_iff_toNat_lt] at hlow ⊢
      omega
    simp [hlow, hnot, eq_comm]
  · simp
  · obtain ⟨hlow, hreserved⟩ := not_lt_128 hhigh
    simp [hlow, hreserved, hhigh, eq_comm]

/-- What is read of a row is in the grammar, and has four bytes for each pixel. -/
lemma runBytes_of_decodeRuns {colors remaining : ℕ} {input row rest : Bytes}
    (h : decodeRuns colors remaining input = .ok (row, rest)) :
    row.length = remaining * 4 ∧ ∃ bytes, input = bytes ++ rest ∧ RunBytes colors remaining bytes := by
  fun_induction decodeRuns colors remaining input generalizing row with
  | case1 input =>
      obtain ⟨rfl, rfl⟩ := Prod.mk.inj (Except.ok.inj h)
      exact ⟨rfl, [], rfl, .nil⟩
  | case7 remaining input hne control input₁ htake count hcount hle encoded input₂ htake₂ row₁
      input₃ hrow ih =>
      obtain ⟨rfl, rfl⟩ := Prod.mk.inj (Except.ok.inj h)
      obtain ⟨hlength, bytes, rfl, hbytes⟩ := ih hrow
      obtain ⟨rfl, hencoded⟩ := take_eq_ok.mp htake₂
      obtain rfl := takeByte_eq_ok.mp htake
      have hsum : count + (remaining - count) = remaining := by omega
      constructor
      · rw [List.length_append, runPixels_length, hlength, ← Nat.add_mul, hsum]
      · refine ⟨control :: encoded ++ bytes, by simp, ?_⟩
        rw [← hsum]
        rcases runCount_eq_ok.mp hcount with ⟨hlow, rfl⟩ | ⟨hhigh, rfl⟩
        · rw [dif_pos hlow] at hencoded
          exact .repeated hlow hencoded hbytes
        · rw [dif_neg (not_lt_128 hhigh).1] at hencoded
          exact .literal hhigh hencoded hbytes
  | _ => cases h

/-- Runs in the grammar are read, whatever follows. -/
lemma decodeRuns_of_runBytes {colors remaining : ℕ} {bytes : Bytes}
    (h : RunBytes colors remaining bytes) :
    ∃ row, ∀ rest, decodeRuns colors remaining (bytes ++ rest) = .ok (row, rest) := by
  induction h with
  | nil => exact ⟨[], fun rest => by rw [decodeRuns]; rfl⟩
  | @repeated control pixel bytes n hcontrol hpixel _ ih =>
      obtain ⟨row, hrow⟩ := ih
      refine ⟨runPixels colors control (control.toNat + 1) pixel ++ row, fun rest => ?_⟩
      rw [List.append_assoc, decodeRuns_run _ (runCount_eq_ok.mpr (.inl ⟨hcontrol, rfl⟩))
        (Nat.le_add_right _ _) (by rw [if_pos hcontrol, hpixel]), Nat.add_sub_cancel_left, hrow]
      rfl
  | @literal control pixels bytes n hcontrol hpixels _ ih =>
      obtain ⟨row, hrow⟩ := ih
      refine ⟨runPixels colors control (257 - control.toNat) pixels ++ row, fun rest => ?_⟩
      rw [List.append_assoc, decodeRuns_run _ (runCount_eq_ok.mpr (.inr ⟨hcontrol, rfl⟩))
        (Nat.le_add_right _ _) (by rw [if_neg (not_lt_128 hcontrol).1, hpixels]),
        Nat.add_sub_cancel_left, hrow]
      rfl

/-- What is read of a page's rows is in the grammar, and has four bytes for each pixel. -/
lemma rowBytes_of_decodeRows {width colors remaining : ℕ} {input pixels rest : Bytes}
    (h : decodeRows width colors remaining input = .ok (pixels, rest)) :
    pixels.length = width * 4 * remaining
      ∧ ∃ bytes, input = bytes ++ rest ∧ RowBytes width colors remaining bytes := by
  fun_induction decodeRows width colors remaining input generalizing pixels rest with
  | case1 input =>
      obtain ⟨rfl, rfl⟩ := Prod.mk.inj (Except.ok.inj h)
      exact ⟨by simp, [], rfl, .nil⟩
  | case6 remaining input hne byte input₁ htake repeats hle row input₂ hrow rows input₃ hrows =>
      rename_i ih
      obtain ⟨rfl, rfl⟩ := Prod.mk.inj (Except.ok.inj h)
      obtain ⟨hlength, bytes, rfl, hbytes⟩ := ih hrows
      obtain ⟨hrowLength, rowBytes, rfl, hrowBytes⟩ := runBytes_of_decodeRuns hrow
      obtain rfl := takeByte_eq_ok.mp htake
      have hsum : byte.toNat + 1 + (remaining - repeats) = remaining := by omega
      constructor
      · rw [List.length_append, List.length_flatten, List.map_replicate, List.sum_replicate_nat,
          hrowLength, hlength, Nat.mul_comm (width * 4), ← Nat.add_mul,
          Nat.add_sub_of_le (not_lt.mp hle), Nat.mul_comm]
      · refine ⟨byte :: rowBytes ++ bytes, by simp, ?_⟩
        rw [← hsum]
        exact .rows hrowBytes hbytes
  | _ => cases h

/-- Rows in the grammar are read, whatever follows. -/
lemma decodeRows_of_rowBytes {width colors remaining : ℕ} {bytes : Bytes}
    (h : RowBytes width colors remaining bytes) :
    ∃ pixels, ∀ rest, decodeRows width colors remaining (bytes ++ rest) = .ok (pixels, rest) := by
  induction h with
  | nil => exact ⟨[], fun rest => by rw [decodeRows]; rfl⟩
  | @rows repeats row bytes n hrow _ ih =>
      obtain ⟨pixels, hpixels⟩ := ih
      obtain ⟨first, hfirst⟩ := decodeRuns_of_runBytes hrow
      refine ⟨(List.replicate (repeats.toNat + 1) first).flatten ++ pixels, fun rest => ?_⟩
      rw [decodeRows, if_neg (by omega), List.append_assoc, List.cons_append, takeByte_cons]
      dsimp only
      rw [if_neg (by omega), hfirst]
      dsimp only
      rw [Nat.add_sub_cancel_left, hpixels]

/-! ### Pages -/

lemma headerColors_eq_ok {header : Bytes} {colors : ℕ} : headerColors header = .ok colors ↔
    (get32 header 400 = 18 ∧ get32 header 420 = 1 ∧ colors = 1)
      ∨ (get32 header 400 = 19 ∧ get32 header 420 = 3 ∧ colors = 3) := by
  unfold headerColors
  constructor
  · intro h
    split_ifs at h with hgray hcolor
    · exact .inl ⟨hgray.1, hgray.2, (Except.ok.inj h).symm⟩
    · exact .inr ⟨hcolor.1, hcolor.2, (Except.ok.inj h).symm⟩
  · rintro (⟨hspace, hcolors, rfl⟩ | ⟨hspace, hcolors, rfl⟩)
    · rw [if_pos ⟨hspace, hcolors⟩]
    · rw [hspace, hcolors]
      rfl

lemma headerRefused_eq_false {header : Bytes} {colors : ℕ} : headerRefused header colors = false ↔
    (1 ≤ get32 header 372 ∧ get32 header 372 ≤ 20000)
      ∧ (1 ≤ get32 header 376 ∧ get32 header 376 ≤ 20000)
      ∧ (1 ≤ get32 header 276 ∧ get32 header 276 ≤ 2400)
      ∧ (1 ≤ get32 header 280 ∧ get32 header 280 ≤ 2400)
      ∧ get32 header 384 = 8 ∧ get32 header 388 = colors * 8
      ∧ get32 header 392 = get32 header 372 * colors ∧ get32 header 396 = 0 := by
  simp only [headerRefused, Bool.or_eq_false_iff, decide_eq_false_iff_not, not_lt, ne_eq, not_not]
  omega

/-- The checks accept the headers that are supported. -/
lemma readHeader_eq_ok {header : Bytes} {h : PageHeader} (hlength : header.length = headerBytes) :
    readHeader header = .ok h ↔ ValidHeader header h := by
  constructor
  · intro hread
    unfold readHeader at hread
    split at hread
    · cases hread
    · rename_i colors hcolors
      split_ifs at hread with hrefused hsize
      obtain rfl := Except.ok.inj hread
      obtain ⟨hwidth, hheight, hx, hy, hbits, hpixel, hline, horder⟩ :=
        headerRefused_eq_false.mp (Bool.eq_false_of_not_eq_true hrefused)
      exact ⟨hlength, ⟨rfl, hwidth⟩, ⟨rfl, hheight⟩, ⟨rfl, hx⟩, ⟨rfl, hy⟩,
        headerColors_eq_ok.mp hcolors, hbits, hpixel, hline, horder, not_lt.mp hsize⟩
  · intro hvalid
    obtain ⟨-, ⟨hw, hwidth⟩, ⟨hh, hheight⟩, ⟨hx, hdpi⟩, ⟨hy, hdpi'⟩, hcolors, hbits, hpixel, hline,
      horder, hsize⟩ := hvalid
    have hchecks : headerRefused header h.colors = false := by
      rw [headerRefused_eq_false, hw, hh, hx, hy]
      exact ⟨hwidth, hheight, hdpi, hdpi', hbits, hpixel, hline, horder⟩
    rw [readHeader, headerColors_eq_ok.mpr hcolors]
    dsimp only
    rw [hchecks, if_neg Bool.false_ne_true, hw, hh, hx, hy, if_neg (not_lt.mpr hsize)]

/-- What is read of a page is in the grammar, and fills the page. -/
lemma pageBytes_of_decodePage {input rest : Bytes} {page : RasterPage}
    (h : decodePage input = .ok (page, rest)) :
    ∃ bytes header, input = bytes ++ rest ∧ PageBytes bytes header ∧ page.width = header.width
      ∧ page.height = header.height ∧ page.pixels.length = header.width * 4 * header.height := by
  obtain ⟨⟨bytes, input₁⟩, htake, h⟩ := except_bind_eq_ok.mp h
  obtain ⟨header, hheader, h⟩ := except_bind_eq_ok.mp h
  obtain ⟨⟨pixels, input₂⟩, hrows, h⟩ := except_bind_eq_ok.mp h
  obtain ⟨rfl, rfl⟩ := Prod.mk.inj (Except.ok.inj h)
  obtain ⟨rfl, hlength⟩ := take_eq_ok.mp htake
  obtain ⟨hpixels, rows, rfl, hbytes⟩ := rowBytes_of_decodeRows hrows
  exact ⟨bytes ++ rows, header, (List.append_assoc ..).symm,
    ⟨bytes, rows, rfl, (readHeader_eq_ok hlength).mp hheader, hbytes⟩, rfl, rfl, hpixels⟩

/-- A page in the grammar is decoded, whatever follows. -/
lemma decodesTo_of_pageBytes {bytes : Bytes} {header : PageHeader} (h : PageBytes bytes header) :
    ∃ page, DecodesTo bytes page
      ∧ page.pixels.length = header.width * 4 * header.height := by
  obtain ⟨headerText, rows, rfl, hvalid, hrows⟩ := h
  obtain ⟨pixels, hpixels⟩ := decodeRows_of_rowBytes hrows
  refine ⟨⟨header.width, header.height, header.dpi, pixels⟩, ⟨?_, fun rest => ?_⟩,
    (rowBytes_of_decodeRows (hpixels [])).1⟩
  · intro hnil
    have hlength := hvalid.length
    rw [(List.append_eq_nil_iff.mp hnil).1] at hlength
    exact absurd hlength (by decide)
  · rw [decodePage, List.append_assoc, take_append _ hvalid.length, except_ok_bind]
    dsimp only
    rw [(readHeader_eq_ok hvalid.length).mpr hvalid, except_ok_bind, hpixels, except_ok_bind]

/-! ### Documents -/

lemma PwgPages.next_eq_none {pages : PwgPages} : pages.next = none ↔ pages.input = [] := by
  unfold next
  constructor
  · intro h
    split at h
    · assumption
    · split at h <;> cases h
  · intro h
    rw [if_pos h]

/-- A page that the iterator yields is read off its input. -/
lemma PwgPages.next_eq_page {pages pages' : PwgPages} {page : RasterPage}
    (h : pages.next = some (.ok page, pages')) :
    pages.count ≠ maxPages ∧ decodePage pages.input = .ok (page, pages'.input)
      ∧ pages'.count = pages.count + 1 := by
  unfold next at h
  split_ifs at h with hempty hcount
  · cases h
  · split at h
    · cases h
    · rename_i page' input hpage
      obtain ⟨hitem, rfl⟩ := Prod.mk.inj (Option.some.inj h)
      obtain rfl := Except.ok.inj hitem
      exact ⟨hcount, hpage, rfl⟩

/-- What is collected is in the grammar and within the limits. -/
lemma documentBytes_of_collectPages {pages : PwgPages} {total : ℕ} {collected : List RasterPage}
    (h : collectPages pages total = .ok collected) (hcount : pages.count ≤ maxPages)
    (htotal : total ≤ maxDecodedBytes) :
    ∃ chunks : List (Bytes × PageHeader), pages.input = (chunks.map Prod.fst).flatten
      ∧ (∀ chunk ∈ chunks, PageBytes chunk.1 chunk.2) ∧ pages.count + chunks.length ≤ maxPages
      ∧ total + (chunks.map fun chunk => chunk.2.width * 4 * chunk.2.height).sum
        ≤ maxDecodedBytes := by
  fun_induction collectPages pages total generalizing collected with
  | case1 pages total hnext =>
      exact ⟨[], PwgPages.next_eq_none.mp hnext, by simp, hcount, htotal⟩
  | case5 pages total page rest hnext hsize pages' hrest ih =>
      obtain ⟨hlimit, hpage, hnextCount⟩ := PwgPages.next_eq_page hnext
      obtain ⟨bytes, header, hinput, hbytes, -, -, hpixels⟩ := pageBytes_of_decodePage hpage
      obtain ⟨chunks, hchunks, hall, hchunksCount, hchunksTotal⟩ :=
        ih hrest (by omega) (not_lt.mp hsize)
      refine ⟨(bytes, header) :: chunks, ?_, ?_, ?_, ?_⟩
      · rw [hinput, hchunks]
        rfl
      · exact List.forall_mem_cons.mpr ⟨hbytes, hall⟩
      · rw [List.length_cons]
        omega
      · rw [List.map_cons, List.sum_cons, ← hpixels]
        omega
  | _ => cases h

/-- A document is decoded if and only if it is in the grammar and within the limits. -/
theorem decodePwg_iff {document : Bytes} :
    (∃ pages, decodePwg document = .ok pages) ↔ DocumentBytes document := by
  constructor
  · rintro ⟨pages, h⟩
    unfold decodePwg pwgPages at h
    split_ifs at h with hstart
    rw [not_or, not_not] at hstart
    obtain ⟨⟨rest, rfl⟩, hlength⟩ := hstart
    have hdrop : (syncWord ++ rest).drop 4 = rest := List.drop_left' rfl
    dsimp only at h
    rw [hdrop] at h
    obtain ⟨chunks, hinput, hall, hcount, htotal⟩ :=
      documentBytes_of_collectPages h (Nat.zero_le _) (Nat.zero_le _)
    dsimp only at hinput hcount
    refine ⟨chunks, by rw [hinput], ?_, hall, by omega, by omega⟩
    rintro rfl
    rw [hinput] at hlength
    exact hlength rfl
  · rintro ⟨chunks, rfl, hne, hall, hcount, htotal⟩
    have hpages : ∃ pages, List.Forall₂ DecodesTo (chunks.map Prod.fst) pages
        ∧ pages.map (fun page => page.pixels.length)
          = chunks.map fun chunk => chunk.2.width * 4 * chunk.2.height := by
      clear hne hcount htotal
      induction chunks with
      | nil => exact ⟨[], .nil, rfl⟩
      | cons chunk chunks ih =>
          obtain ⟨hchunk, hall⟩ := List.forall_mem_cons.mp hall
          obtain ⟨page, hpage, hpixels⟩ := decodesTo_of_pageBytes hchunk
          obtain ⟨pages, hpages, hsizes⟩ := ih hall
          refine ⟨page :: pages, .cons hpage hpages, ?_⟩
          rw [List.map_cons, List.map_cons, hpixels, hsizes]
    obtain ⟨pages, hpages, hsizes⟩ := hpages
    have hlength : pages.length = chunks.length := by
      rw [← List.Forall₂.length_eq hpages, List.length_map]
    refine ⟨pages, decodePwg_stream hpages ?_ (hlength ▸ hcount) (hsizes ▸ htotal)⟩
    rintro rfl
    exact hne (List.length_eq_zero_iff.mp hlength.symm)

end ShaPrint.Raster
