import ShaPrint.Raster.Grammar

/-!
The decoder with its buffer, and with the accesses and the arithmetic that could panic.

* `Fault`: a panic, or an error that the decoder returns.
* `byteAt`, `subslice`, `copyFromSlice`, `copyWithin`, `number`, `subtract`: what panics out of
  bounds, on overflow and on underflow.
* `checkHeader`, `fillRow`, `fillRows`, `fillPage`, `nextPage`: the decoder in these terms.
* `fillRow_eq`, `fillRows_eq`, `fillPage_eq`: it never panics, and gives what `decodePage` does;
  what is before the row and after it in the buffer is the invariant.
* `decodePwg_exact`: the iteration ends without a panic, its pages are within the limits, and a
  document is decoded if and only if it is in the grammar.
-/

namespace ShaPrint.Raster

open BigEndian PackBits

/-! ### What can panic -/

/-- How a decoding ends that gives no value. -/
inductive Fault where
  | panic
  | refused (error : AppError)
  deriving DecidableEq

variable {α : Type}

/-- `?` on an error that is returned. -/
def refuse (x : Except AppError α) : Except Fault α := x.mapError .refused

@[simp] lemma refuse_ok (a : α) : refuse (.ok a) = .ok a := rfl

@[simp] lemma refuse_error (e : AppError) : refuse (.error e : Except AppError α) = .error (.refused e) :=
  rfl

/-- Numbers are of 32 bits or more. -/
def wordSize : ℕ := 2 ^ 32

/-- The result of an addition or a multiplication. -/
def number (n : ℕ) : Except Fault ℕ := if n < wordSize then .ok n else .error .panic

def subtract (a b : ℕ) : Except Fault ℕ := if b ≤ a then .ok (a - b) else .error .panic

def byteAt (bytes : Bytes) (i : ℕ) : Except Fault UInt8 :=
  match bytes[i]? with
  | some b => .ok b
  | none => .error .panic

/-- `&bytes[start..stop]` -/
def subslice (bytes : Bytes) (start stop : ℕ) : Except Fault Bytes :=
  if start ≤ stop ∧ stop ≤ bytes.length then .ok ((bytes.drop start).take (stop - start))
  else .error .panic

/-- `bytes[start..stop].copy_from_slice(source)` -/
def copyFromSlice (bytes : Bytes) (start stop : ℕ) (source : Bytes) : Except Fault Bytes :=
  if start ≤ stop ∧ stop ≤ bytes.length ∧ source.length = stop - start then
    .ok (bytes.take start ++ source ++ bytes.drop stop)
  else .error .panic

/-- `bytes.copy_within(start..stop, target)` -/
def copyWithin (bytes : Bytes) (start stop target : ℕ) : Except Fault Bytes :=
  (subslice bytes start stop).bind fun source =>
    copyFromSlice bytes target (target + source.length) source

lemma number_of_lt {n : ℕ} (h : n < wordSize) : number n = .ok n := if_pos h

lemma subtract_of_le {a b : ℕ} (h : b ≤ a) : subtract a b = .ok (a - b) := if_pos h

lemma byteAt_of_lt {bytes : Bytes} {i : ℕ} (h : i < bytes.length) :
    byteAt bytes i = .ok (bytes.getD i 0) := by
  rw [byteAt, List.getD_eq_getElem?_getD, List.getElem?_eq_getElem h]
  rfl

lemma subslice_of_le {bytes : Bytes} {start length : ℕ} (h : start + length ≤ bytes.length) :
    subslice bytes start (start + length) = .ok (slice bytes start length) := by
  rw [subslice, if_pos ⟨Nat.le_add_right _ _, h⟩, Nat.add_sub_cancel_left, slice]

/-- Bytes behind the first ones are replaced. -/
lemma copyFromSlice_append (before : Bytes) {behind source : Bytes} (h : source.length ≤ behind.length) :
    copyFromSlice (before ++ behind) before.length (before.length + source.length) source
      = .ok (before ++ source ++ behind.drop source.length) := by
  rw [copyFromSlice, if_pos ⟨Nat.le_add_right _ _, by rw [List.length_append]; omega, by omega⟩,
    List.take_left, List.drop_length_add_append]

/-! ### The header -/

/-- The number of four bytes at an offset. -/
def field (header : Bytes) (offset : ℕ) : Except Fault ℕ := do
  let a ← byteAt header offset
  let b ← byteAt header (offset + 1)
  let c ← byteAt header (offset + 2)
  let d ← byteAt header (offset + 3)
  return ofBe32 a b c d

lemma field_of_le {header : Bytes} {offset : ℕ} (h : offset + 4 ≤ header.length) :
    field header offset = .ok (get32 header offset) := by
  unfold field
  rw [byteAt_of_lt (by omega), byteAt_of_lt (by omega), byteAt_of_lt (by omega),
    byteAt_of_lt (by omega)]
  rfl

/-- The error of every check. -/
def refused : Except Fault α := .error (.refused invalid)

/-- The checks of a header with so many colors, in their order: the products are computed when
the width is known to be small. -/
def checkLayout (header : Bytes) (h : PageHeader) : Except Fault PageHeader :=
  if h.width = 0 ∨ h.height = 0 ∨ 20000 < h.width ∨ 20000 < h.height
      ∨ (h.dpi.1 = 0 ∨ 2400 < h.dpi.1) ∨ (h.dpi.2 = 0 ∨ 2400 < h.dpi.2) then refused
  else do
    let bits ← field header 384
    if bits ≠ 8 then refused
    else do
      let pixelBits ← field header 388
      let expectedBits ← number (h.colors * 8)
      if pixelBits ≠ expectedBits then refused
      else do
        let order ← field header 396
        if order ≠ 0 then refused
        else do
          let line ← field header 392
          let expectedLine ← number (h.width * h.colors)
          if line ≠ expectedLine then refused
          else do
            let rowBytes ← number (h.width * 4)
            -- `checked_mul` and the limit on the size
            if wordSize ≤ rowBytes * h.height ∨ maxDecodedBytes < rowBytes * h.height then refused
            else return h

def checkHeader (header : Bytes) : Except Fault PageHeader := do
  let width ← field header 372
  let height ← field header 376
  let horizontal ← field header 276
  let vertical ← field header 280
  let space ← field header 400
  let colorCount ← field header 420
  if space = 18 ∧ colorCount = 1 then
    checkLayout header ⟨width, height, (horizontal, vertical), 1⟩
  else if space = 19 ∧ colorCount = 3 then
    checkLayout header ⟨width, height, (horizontal, vertical), 3⟩
  else refused

/-- What `readHeader` does with a header of so many colors. -/
def readLayout (header : Bytes) (colors : ℕ) : Except AppError PageHeader :=
  if headerRefused header colors then .error invalid
  else if maxDecodedBytes < get32 header 372 * 4 * get32 header 376 then .error invalid
  else .ok ⟨get32 header 372, get32 header 376, (get32 header 276, get32 header 280), colors⟩

/-- The checks never panic. -/
lemma checkLayout_eq {header : Bytes} (hlength : header.length = headerBytes) {colors : ℕ}
    (hcolors : colors ≤ 3) :
    checkLayout header ⟨get32 header 372, get32 header 376,
      (get32 header 276, get32 header 280), colors⟩ = refuse (readLayout header colors) := by
  have hfield : ∀ offset, offset ≤ 420 → field header offset = .ok (get32 header offset) := by
    intro offset hoffset
    exact field_of_le (by rw [hlength, headerBytes]; omega)
  have hword : maxDecodedBytes < wordSize := by decide
  have hchecks : headerRefused header colors = false ↔ _ := headerRefused_eq_false
  -- a check that fails is one of those that refuse the header
  have hrefused : headerRefused header colors ≠ false → refused = refuse (readLayout header colors) := by
    intro h
    rw [readLayout, if_pos (Bool.eq_true_of_not_eq_false h)]
    rfl
  unfold checkLayout
  dsimp only
  split
  case isTrue hlimits => exact hrefused fun h => by have := hchecks.mp h; omega
  case isFalse hlimits =>
    have hwidth : get32 header 372 ≤ 20000 := by omega
    have hline : get32 header 372 * colors ≤ 20000 * 3 := Nat.mul_le_mul hwidth hcolors
    rw [hfield 384 (by decide), except_ok_do]
    split
    case isTrue hbits => exact hrefused fun h => hbits (hchecks.mp h).2.2.2.2.1
    case isFalse hbits =>
      rw [hfield 388 (by decide), except_ok_do, number_of_lt (by rw [wordSize]; omega),
        except_ok_do]
      split
      case isTrue hpixel => exact hrefused fun h => hpixel (hchecks.mp h).2.2.2.2.2.1
      case isFalse hpixel =>
        rw [hfield 396 (by decide), except_ok_do]
        split
        case isTrue horder => exact hrefused fun h => horder (hchecks.mp h).2.2.2.2.2.2.2
        case isFalse horder =>
          rw [hfield 392 (by decide), except_ok_do, number_of_lt (by rw [wordSize]; omega),
            except_ok_do]
          split
          case isTrue hbytes => exact hrefused fun h => hbytes (hchecks.mp h).2.2.2.2.2.2.1
          case isFalse hbytes =>
            rw [number_of_lt (by rw [wordSize]; omega), except_ok_do]
            have hfalse : headerRefused header colors = false := hchecks.mpr (by omega)
            rw [readLayout, hfalse, if_neg Bool.false_ne_true]
            by_cases hsize : maxDecodedBytes < get32 header 372 * 4 * get32 header 376
            · rw [if_pos (.inr hsize), if_pos hsize]
              rfl
            · rw [if_neg (by omega), if_neg hsize]
              rfl

/-- The checks never panic. -/
lemma checkHeader_eq {header : Bytes} (hlength : header.length = headerBytes) :
    checkHeader header = refuse (readHeader header) := by
  have hfield : ∀ offset, offset ≤ 420 → field header offset = .ok (get32 header offset) := by
    intro offset hoffset
    exact field_of_le (by rw [hlength, headerBytes]; omega)
  have hread : readHeader header = (headerColors header).bind (readLayout header) := by
    unfold readHeader
    cases headerColors header <;> rfl
  rw [hread]
  unfold checkHeader headerColors
  rw [hfield 372 (by decide), hfield 376 (by decide), hfield 276 (by decide),
    hfield 280 (by decide), hfield 400 (by decide), hfield 420 (by decide)]
  simp only [except_ok_do]
  split
  case isTrue hgray => exact checkLayout_eq hlength (by decide)
  case isFalse hgray =>
    split
    case isTrue hcolor => exact checkLayout_eq hlength (by decide)
    case isFalse hcolor => rfl

/-! ### Rows -/

/-- `take(input, 1)?[0]` -/
def readByte (input : Bytes) : Except Fault (UInt8 × Bytes) := do
  let (bytes, rest) ← refuse (take input 1)
  let byte ← byteAt bytes 0
  return (byte, rest)

lemma readByte_eq (input : Bytes) : readByte input = refuse (takeByte input) := by
  cases input with
  | nil => rfl
  | cons byte rest =>
      rw [takeByte_cons, readByte, ← List.singleton_append,
        take_append rest (List.length_singleton (a := byte))]
      rfl

/-- The number of pixels of a run. -/
def readCount (control : UInt8) : Except Fault ℕ :=
  if control < 128 then number (control.toNat + 1)
  else if control = 128 then refused
  else subtract 257 control.toNat

lemma readCount_eq (control : UInt8) : readCount control = refuse (runCount control) := by
  have hlt := control.toNat_lt
  unfold readCount runCount
  split
  case isTrue => exact number_of_lt (by rw [wordSize]; omega)
  case isFalse =>
    split
    case isTrue => rfl
    case isFalse => exact subtract_of_le (by omega)

/-- A run's control byte, its number of pixels and its bytes, at the pixel `x` of a row. -/
def readRun (colors width x : ℕ) (input : Bytes) : Except Fault (UInt8 × ℕ × Bytes × Bytes) := do
  let (control, rest) ← readByte input
  let count ← readCount control
  let left ← subtract width x
  if left < count then refused
  else do
    let length ← number (if control < 128 then colors else count * colors)
    let (encoded, rest) ← refuse (take rest length)
    return (control, count, encoded, rest)

/-- The BGRX bytes of one pixel. -/
def readPixel (colors : ℕ) (rgb : Bytes) : Except Fault Bytes :=
  if colors = 3 then do
    let blue ← byteAt rgb 2
    let green ← byteAt rgb 1
    let red ← byteAt rgb 0
    return [blue, green, red, 0]
  else do
    let gray ← byteAt rgb 0
    return [gray, gray, gray, 0]

/-- Copies one pixel of a run into the row. What is computed for an index is at most the index. -/
def copyPixel (colors : ℕ) (control : UInt8) (encoded : Bytes) (x : ℕ) (row : Bytes) (pixel : ℕ) :
    Except Fault Bytes := do
  let source := if control < 128 then 0 else pixel * colors
  let sourceStop ← number (source + colors)
  let rgb ← subslice encoded source sourceStop
  let bgr ← readPixel colors rgb
  let stop ← number ((x + pixel + 1) * 4)
  copyFromSlice row ((x + pixel) * 4) stop bgr

/-- A run has a pixel or more. -/
lemma readRun_pos {colors width x count : ℕ} {control : UInt8} {input encoded rest : Bytes}
    (h : readRun colors width x input = .ok (control, count, encoded, rest)) : 0 < count := by
  obtain ⟨⟨control', rest'⟩, -, h⟩ := except_do_eq_ok.mp h
  obtain ⟨count', hcount, h⟩ := except_do_eq_ok.mp h
  obtain ⟨left, -, h⟩ := except_do_eq_ok.mp h
  rw [readCount_eq] at hcount
  split at h
  · cases h
  · obtain ⟨length, -, h⟩ := except_do_eq_ok.mp h
    obtain ⟨⟨encoded', rest''⟩, -, h⟩ := except_do_eq_ok.mp h
    obtain ⟨-, h⟩ := Prod.mk.inj (Except.ok.inj h)
    obtain ⟨rfl, -⟩ := Prod.mk.inj h
    cases hrun : runCount control' with
    | error e =>
        rw [hrun] at hcount
        cases hcount
    | ok n =>
        rw [hrun] at hcount
        obtain rfl := Except.ok.inj hcount
        exact runCount_pos hrun

/-- The pixel loop, from the pixel `x` of a row on. -/
def fillRow (colors width x : ℕ) (row input : Bytes) : Except Fault (Bytes × Bytes) :=
  if x < width then
    match _hrun : readRun colors width x input with
    | .error e => .error e
    | .ok (control, count, encoded, rest) =>
        match (List.range count).foldlM (copyPixel colors control encoded x) row with
        | .error e => .error e
        | .ok row => fillRow colors width (x + count) row rest
  else .ok (row, input)
termination_by width - x
decreasing_by
  have := readRun_pos _hrun
  omega

/-! ### Runs -/

/-- The colors of the pages that are supported. -/
def Colors (colors : ℕ) : Prop := colors = 1 ∨ colors = 3

lemma readPixel_eq {colors : ℕ} {rgb : Bytes} (hcolors : Colors colors) (hrgb : rgb.length = colors) :
    readPixel colors rgb = .ok (bgr colors rgb) := by
  rcases hcolors with rfl | rfl
  · unfold readPixel bgr
    rw [if_neg (by decide), if_neg (by decide), byteAt_of_lt (by omega)]
    rfl
  · unfold readPixel bgr
    rw [if_pos rfl, if_pos rfl, byteAt_of_lt (by omega), byteAt_of_lt (by omega),
      byteAt_of_lt (by omega)]
    rfl

/-- The bytes of a run are one pixel, or all of its pixels. -/
def encodedLength (colors : ℕ) (control : UInt8) (count : ℕ) : ℕ :=
  if control < 128 then colors else count * colors

/-- A pixel of a run is copied behind the pixels before it. -/
lemma copyPixel_eq {colors count x pixel : ℕ} {control : UInt8} {encoded before : Bytes}
    (behind : Bytes) (hcolors : Colors colors) (hencoded : encoded.length = encodedLength colors control count)
    (hpixel : pixel < count) (hbefore : before.length = (x + pixel) * 4) (hbehind : 4 ≤ behind.length)
    (hword : (before ++ behind).length < wordSize) (hcount : count ≤ 128) :
    copyPixel colors control encoded x (before ++ behind) pixel
      = .ok (before ++ bgr colors (slice encoded (if control < 128 then 0 else pixel * colors) colors)
          ++ behind.drop 4) := by
  have hinside : (if control < 128 then 0 else pixel * colors) + colors ≤ encoded.length := by
    rw [hencoded, encodedLength]
    split
    · omega
    · rw [← Nat.succ_mul]
      exact Nat.mul_le_mul_right colors hpixel
  have hsmall : encoded.length < wordSize := by
    have hcolors' : colors ≤ 3 := by rcases hcolors with rfl | rfl <;> decide
    have hmul : count * colors ≤ 128 * 3 := Nat.mul_le_mul hcount hcolors'
    rw [hencoded, encodedLength, wordSize]
    split <;> omega
  have hslice : (slice encoded (if control < 128 then 0 else pixel * colors) colors).length
      = colors := by
    rw [slice, List.length_take, List.length_drop]
    omega
  have hstop : (x + pixel + 1) * 4 = before.length + 4 := by omega
  rw [List.length_append] at hword
  unfold copyPixel
  dsimp only
  rw [number_of_lt (by omega), except_ok_do, subslice_of_le hinside, except_ok_do,
    readPixel_eq hcolors hslice, except_ok_do, number_of_lt (by omega), except_ok_do, hstop, ← hbefore]
  have hcopy : (bgr colors
      (slice encoded (if control < 128 then 0 else pixel * colors) colors)).length = 4 :=
    bgr_length _ _
  have hdone := copyFromSlice_append before (hcopy.trans_le hbehind)
  rwa [hcopy] at hdone

lemma runPixels_succ (colors : ℕ) (control : UInt8) (n : ℕ) (encoded : Bytes) :
    runPixels colors control (n + 1) encoded = runPixels colors control n encoded
      ++ bgr colors (slice encoded (if control < 128 then 0 else n * colors) colors) := by
  rw [runPixels, List.range_succ, List.flatMap_append, List.flatMap_singleton]
  rfl

/-- The loop over the pixels of a run copies the run behind the pixels before it. -/
lemma copyPixels_eq {colors count width x : ℕ} {control : UInt8} {encoded row : Bytes}
    (hcolors : Colors colors) (hencoded : encoded.length = encodedLength colors control count)
    (hcount : count ≤ 128) (hwidth : width ≤ 20000) (hx : x + count ≤ width)
    (hrow : row.length = width * 4) {n : ℕ} (hn : n ≤ count) :
    (List.range n).foldlM (copyPixel colors control encoded x) row
      = .ok (row.take (x * 4) ++ runPixels colors control n encoded ++ row.drop ((x + n) * 4)) := by
  induction n with
  | zero => simp [runPixels, pure, Except.pure]
  | succ n ih =>
      have hbefore : (row.take (x * 4) ++ runPixels colors control n encoded).length = (x + n) * 4 := by
        rw [List.length_append, runPixels_length, List.length_take]
        omega
      have hbehind : (row.drop ((x + n) * 4)).length = width * 4 - (x + n) * 4 := by
        rw [List.length_drop, hrow]
      have hcopy := copyPixel_eq (row.drop ((x + n) * 4)) hcolors hencoded
        (by omega : n < count) hbefore (by omega) (by rw [List.length_append, hbefore, hbehind, wordSize]; omega) hcount
      rw [List.range_succ, List.foldlM_append, ih (by omega), except_ok_do, List.foldlM_cons, hcopy,
        except_ok_do, List.foldlM_nil, List.drop_drop, runPixels_succ]
      have hnext : (x + n) * 4 + 4 = (x + (n + 1)) * 4 := by omega
      rw [hnext, List.append_assoc (row.take (x * 4))]
      rfl

/-- A run has at most 128 pixels. -/
lemma runCount_le {control : UInt8} {count : ℕ} (h : runCount control = .ok count) : count ≤ 128 := by
  rcases runCount_eq_ok.mp h with ⟨hlow, rfl⟩ | ⟨hhigh, rfl⟩
  · exact UInt8.lt_iff_toNat_lt.mp hlow
  · have := UInt8.lt_iff_toNat_lt.mp hhigh
    change 128 < _ at this
    omega

lemma fillRow_error {colors width x : ℕ} {row input : Bytes} {e : Fault} (hx : x < width)
    (h : readRun colors width x input = .error e) :
    fillRow colors width x row input = .error e := by
  rw [fillRow, if_pos hx]
  split
  · rename_i e' he
    rw [Except.error.inj (he.symm.trans h)]
  · rename_i hrun
    rw [h] at hrun
    cases hrun

lemma fillRow_run {colors width x count : ℕ} {control : UInt8} {row row' input encoded rest : Bytes}
    (hx : x < width) (h : readRun colors width x input = .ok (control, count, encoded, rest))
    (hcopy : (List.range count).foldlM (copyPixel colors control encoded x) row = .ok row') :
    fillRow colors width x row input = fillRow colors width (x + count) row' rest := by
  rw [fillRow, if_pos hx]
  split
  · rename_i hrun
    rw [h] at hrun
    cases hrun
  · rename_i control' count' encoded' rest' hrun
    have hsame := h.symm.trans hrun
    simp only [Except.ok.injEq, Prod.mk.injEq] at hsame
    obtain ⟨rfl, rfl, rfl, rfl⟩ := hsame
    rw [hcopy]

/-- A run is read as the decoder reads it. -/
lemma readRun_eq {colors width x : ℕ} {input : Bytes} (hcolors : Colors colors) (hx : x ≤ width) :
    readRun colors width x input = (refuse (takeByte input)).bind fun p =>
      (refuse (runCount p.1)).bind fun count =>
        if width - x < count then refused
        else (refuse (take p.2 (encodedLength colors p.1 count))).bind fun q =>
          .ok (p.1, count, q.1, q.2) := by
  unfold readRun
  rw [readByte_eq]
  cases takeByte input with
  | error e => rfl
  | ok p =>
      rw [refuse_ok, except_ok_do, except_ok_bind]
      dsimp only
      rw [readCount_eq]
      cases hcount : runCount p.1 with
      | error e => rfl
      | ok count =>
          have hsmall : encodedLength colors p.1 count < wordSize := by
            have hcolors' : colors ≤ 3 := by rcases hcolors with rfl | rfl <;> decide
            have hmul : count * colors ≤ 128 * 3 := Nat.mul_le_mul (runCount_le hcount) hcolors'
            rw [encodedLength, wordSize]
            split <;> omega
          rw [refuse_ok, except_ok_do, except_ok_bind, subtract_of_le hx, except_ok_do]
          refine ite_congr rfl (fun _ => rfl) fun _ => ?_
          change number (encodedLength colors p.1 count) >>= _ = _
          rw [number_of_lt hsmall]
          rfl

/-- The row behind a run that was copied keeps its length, and what is before it. -/
lemma copied_length (colors : ℕ) (control : UInt8) (encoded : Bytes) {count width x : ℕ} {row : Bytes}
    (hrow : row.length = width * 4) (hx : x + count ≤ width) :
    (row.take (x * 4) ++ runPixels colors control count encoded
        ++ row.drop ((x + count) * 4)).length = width * 4
      ∧ (row.take (x * 4) ++ runPixels colors control count encoded
        ++ row.drop ((x + count) * 4)).take ((x + count) * 4)
          = row.take (x * 4) ++ runPixels colors control count encoded := by
  have hbefore : (row.take (x * 4) ++ runPixels colors control count encoded).length
      = (x + count) * 4 := by
    rw [List.length_append, runPixels_length, List.length_take]
    omega
  constructor
  · rw [List.length_append, hbefore, List.length_drop]
    omega
  · rw [List.take_left' hbefore]

/-- One run of a row. -/
lemma fillRow_step {colors width x count : ℕ} {control : UInt8} {row input input₁ input₂ encoded : Bytes}
    (hcolors : Colors colors) (hwidth : width ≤ 20000) (hrow : row.length = width * 4) (hx : x < width)
    (htake : takeByte input = .ok (control, input₁)) (hcount : runCount control = .ok count)
    (hle : x + count ≤ width)
    (hencoded : take input₁ (encodedLength colors control count) = .ok (encoded, input₂)) :
    fillRow colors width x row input = fillRow colors width (x + count)
      (row.take (x * 4) ++ runPixels colors control count encoded ++ row.drop ((x + count) * 4))
      input₂ := by
  refine fillRow_run hx ?_ (copyPixels_eq hcolors (take_eq_ok.mp hencoded).2 (runCount_le hcount)
    hwidth hle hrow le_rfl)
  rw [readRun_eq hcolors hx.le, htake, refuse_ok, except_ok_bind]
  dsimp only
  rw [hcount, refuse_ok, except_ok_bind, if_neg (by omega), hencoded]
  rfl

/-- A row is filled with the runs that the decoder reads. -/
lemma fillRow_eq {colors width x : ℕ} {row : Bytes} (hcolors : Colors colors)
    (hwidth : width ≤ 20000) (hx : x ≤ width) (hrow : row.length = width * 4) (input : Bytes) :
    fillRow colors width x row input
      = refuse ((decodeRuns colors (width - x) input).map fun p => (row.take (x * 4) ++ p.1, p.2)) := by
  generalize hremaining : width - x = remaining
  fun_induction decodeRuns colors remaining input generalizing x row with
  | case1 input =>
      have hend : x = width := by omega
      rw [fillRow, if_neg (by omega), hend, ← hrow, List.take_length]
      simp [Except.map]
  | case2 remaining input hne e htake =>
      refine fillRow_error (by omega) ?_
      rw [readRun_eq hcolors hx, htake]
      rfl
  | case3 remaining input hne control input₁ htake e hcount =>
      refine fillRow_error (by omega) ?_
      rw [readRun_eq hcolors hx, htake, refuse_ok, except_ok_bind]
      dsimp only
      rw [hcount]
      rfl
  | case4 remaining input hne control input₁ htake count hcount hlong =>
      refine fillRow_error (by omega) ?_
      rw [readRun_eq hcolors hx, htake, refuse_ok, except_ok_bind]
      dsimp only
      rw [hcount, refuse_ok, except_ok_bind, if_pos (by omega)]
      rfl
  | case5 remaining input hne control input₁ htake count hcount hle e htake₂ =>
      rw [dite_eq_ite] at htake₂
      refine fillRow_error (by omega) ?_
      rw [readRun_eq hcolors hx, htake, refuse_ok, except_ok_bind]
      dsimp only
      rw [hcount, refuse_ok, except_ok_bind, if_neg (by omega), encodedLength, htake₂]
      rfl
  | case6 remaining input hne control input₁ htake count hcount hle encoded input₂ htake₂ e
      hrest ih =>
      rw [dite_eq_ite] at htake₂
      have hlength := copied_length colors control encoded hrow (by omega : x + count ≤ width)
      rw [fillRow_step hcolors hwidth hrow (by omega) htake hcount (by omega) htake₂,
        ih (by omega) hlength.1 (by omega), hrest]
      rfl
  | case7 remaining input hne control input₁ htake count hcount hle encoded input₂ htake₂ row₁
      input₃ hrest ih =>
      rw [dite_eq_ite] at htake₂
      have hlength := copied_length colors control encoded hrow (by omega : x + count ≤ width)
      rw [fillRow_step hcolors hwidth hrow (by omega) htake hcount (by omega) htake₂,
        ih (by omega) hlength.1 (by omega), hrest]
      rw [hlength.2]
      change Except.ok (_ ++ _ ++ row₁, input₃) = _
      rw [List.append_assoc]
      rfl

/-! ### Pages -/

/-- Copies a row of the buffer to the row after the first `repeated` of it. -/
def copyRow (rowBytes start : ℕ) (pixels : Bytes) (repeated : ℕ) : Except Fault Bytes := do
  let target ← number (start + repeated * rowBytes)
  copyWithin pixels start (start + rowBytes) target

/-- The row loop, from the row `y` of the buffer on. -/
def fillRows (colors width height y : ℕ) (pixels input : Bytes) : Except Fault (Bytes × Bytes) :=
  if y < height then
    match readByte input with
    | .error e => .error e
    | .ok (byte, rest) =>
        let repeats := byte.toNat + 1
        if height - y < repeats then refused
        else
          match subslice pixels (y * (width * 4)) (y * (width * 4) + width * 4) with
          | .error e => .error e
          | .ok row =>
              match fillRow colors width 0 row rest with
              | .error e => .error e
              | .ok (row, rest) =>
                  match (copyFromSlice pixels (y * (width * 4)) (y * (width * 4) + width * 4) row).bind
                      fun pixels => (List.range' 1 (repeats - 1)).foldlM
                        (copyRow (width * 4) (y * (width * 4))) pixels with
                  | .error e => .error e
                  | .ok pixels => fillRows colors width height (y + repeats) pixels rest
  else .ok (pixels, input)
termination_by height - y

/-- A page off the front of the input, in a buffer of zeros. -/
def fillPage (input : Bytes) : Except Fault (RasterPage × Bytes) :=
  (refuse (take input headerBytes)).bind fun (bytes, input) =>
    (checkHeader bytes).bind fun header =>
      (fillRows header.colors header.width header.height 0
        (List.replicate (header.width * 4 * header.height) 0) input).bind fun (pixels, input) =>
        .ok (⟨header.width, header.height, header.dpi, pixels⟩, input)

lemma replicate_flatten_length (row : Bytes) (n : ℕ) :
    (List.replicate n row).flatten.length = n * row.length := by
  rw [List.length_flatten, List.map_replicate, List.sum_replicate_nat]

/-- A repeat of a row is copied behind the repeats before it. -/
lemma copyRow_eq {before row behind : Bytes} {n : ℕ} (hbehind : row.length ≤ behind.length)
    (hword : (before ++ (List.replicate (n + 1) row).flatten ++ behind).length < wordSize) :
    copyRow row.length before.length (before ++ (List.replicate (n + 1) row).flatten ++ behind) (n + 1)
      = .ok (before ++ (List.replicate (n + 2) row).flatten ++ behind.drop row.length) := by
  have htarget : before.length + (n + 1) * row.length
      = (before ++ (List.replicate (n + 1) row).flatten).length := by
    rw [List.length_append, replicate_flatten_length]
  have hslice : slice (before ++ (List.replicate (n + 1) row).flatten ++ behind) before.length
      row.length = row := by
    rw [slice, List.append_assoc, List.drop_left, List.replicate_succ, List.flatten_cons,
      List.append_assoc, List.take_left]
  rw [List.length_append] at hword
  have hinside : before.length + row.length
      ≤ (before ++ (List.replicate (n + 1) row).flatten ++ behind).length := by
    rw [List.length_append, ← htarget, Nat.succ_mul]
    omega
  unfold copyRow copyWithin
  rw [number_of_lt (by omega), except_ok_do, subslice_of_le hinside, except_ok_bind, hslice,
    htarget, copyFromSlice_append _ hbehind, List.append_assoc before, List.replicate_succ' (n := n + 1),
    List.flatten_concat]

/-- The loop over the repeats of a row copies it behind itself. -/
lemma copyRows_eq (before row behind : Bytes) {n : ℕ} (hbehind : n * row.length ≤ behind.length)
    (hword : (before ++ row ++ behind).length < wordSize) :
    (List.range' 1 n).foldlM (copyRow row.length before.length) (before ++ row ++ behind)
      = .ok (before ++ (List.replicate (n + 1) row).flatten ++ behind.drop (n * row.length)) := by
  induction n with
  | zero => simp [pure, Except.pure]
  | succ n ih =>
      have hnext : (n + 1) * row.length = n * row.length + row.length := Nat.succ_mul _ _
      have hcopy : copyRow row.length before.length
          (before ++ (List.replicate (n + 1) row).flatten ++ behind.drop (n * row.length)) (n + 1)
          = .ok (before ++ (List.replicate (n + 2) row).flatten
              ++ (behind.drop (n * row.length)).drop row.length) := by
        refine copyRow_eq (by rw [List.length_drop]; omega) ?_
        rw [List.length_append, List.length_append, replicate_flatten_length, List.length_drop]
        rw [List.length_append, List.length_append] at hword
        omega
      rw [List.range'_concat, List.foldlM_append, ih (by omega), except_ok_do, Nat.one_mul,
        Nat.add_comm 1 n, List.foldlM_cons, hcopy, except_ok_do, List.foldlM_nil, List.drop_drop,
        hnext]
      rfl

/-- The slice of the buffer for the row `y`, and what the runs of the decoder make of it. -/
lemma fillRow_start {colors width height y : ℕ} {pixels : Bytes} (hcolors : Colors colors)
    (hwidth : width ≤ 20000) (hy : y < height) (hpixels : pixels.length = height * (width * 4))
    (input : Bytes) :
    ∃ row, subslice pixels (y * (width * 4)) (y * (width * 4) + width * 4) = .ok row
      ∧ fillRow colors width 0 row input = refuse (decodeRuns colors width input) := by
  have hinside : y * (width * 4) + width * 4 ≤ pixels.length := by
    rw [hpixels, ← Nat.succ_mul]
    exact Nat.mul_le_mul_right _ hy
  refine ⟨slice pixels (y * (width * 4)) (width * 4), subslice_of_le hinside, ?_⟩
  have hrow : (slice pixels (y * (width * 4)) (width * 4)).length = width * 4 := by
    rw [slice, List.length_take, List.length_drop]
    omega
  rw [fillRow_eq hcolors hwidth (Nat.zero_le _) hrow, Nat.sub_zero]
  cases decodeRuns colors width input with
  | error e => rfl
  | ok p =>
      change Except.ok (List.take 0 _ ++ p.1, p.2) = _
      rw [List.take_zero, List.nil_append]
      rfl

/-- A row is written to the buffer and repeated behind itself. -/
lemma repeatRow_eq {height rowBytes y repeats : ℕ} {pixels row : Bytes} (hpos : 0 < repeats)
    (hle : y + repeats ≤ height) (hpixels : pixels.length = height * rowBytes)
    (hword : height * rowBytes < wordSize) (hrow : row.length = rowBytes) :
    ((copyFromSlice pixels (y * rowBytes) (y * rowBytes + rowBytes) row).bind fun pixels =>
        (List.range' 1 (repeats - 1)).foldlM (copyRow rowBytes (y * rowBytes)) pixels)
      = .ok (pixels.take (y * rowBytes) ++ (List.replicate repeats row).flatten
          ++ pixels.drop ((y + repeats) * rowBytes)) := by
  obtain ⟨n, rfl⟩ : ∃ n, repeats = n + 1 := ⟨repeats - 1, by omega⟩
  have hbuffer : (y + (n + 1)) * rowBytes ≤ height * rowBytes := Nat.mul_le_mul_right _ hle
  have hsplit : (y + (n + 1)) * rowBytes = y * rowBytes + n * rowBytes + rowBytes := by
    rw [← Nat.add_assoc, Nat.succ_mul, Nat.add_mul]
  have hbefore : (pixels.take (y * rowBytes)).length = y * rowBytes := by
    rw [List.length_take]
    omega
  have hbehind : (pixels.drop (y * rowBytes)).length = height * rowBytes - y * rowBytes := by
    rw [List.length_drop, hpixels]
  have hwrite := copyFromSlice_append (pixels.take (y * rowBytes))
    (by omega : row.length ≤ (pixels.drop (y * rowBytes)).length)
  rw [List.take_append_drop, hbefore, hrow] at hwrite
  rw [hwrite, except_ok_bind, Nat.add_sub_cancel]
  have hrepeat := copyRows_eq (pixels.take (y * rowBytes)) row
    ((pixels.drop (y * rowBytes)).drop rowBytes) (n := n) (by rw [List.length_drop, hrow]; omega)
    (by rw [List.length_append, List.length_append, List.length_drop]; omega)
  rw [hbefore, hrow] at hrepeat
  rw [hrepeat, List.drop_drop, List.drop_drop, hsplit]
  congr 3
  omega

/-- The buffer behind a row that was repeated keeps its length, and what is before it. -/
lemma repeated_length {height rowBytes y : ℕ} {pixels row : Bytes} (repeats : ℕ)
    (hpixels : pixels.length = height * rowBytes) (hrow : row.length = rowBytes)
    (hle : y + repeats ≤ height) :
    (pixels.take (y * rowBytes) ++ (List.replicate repeats row).flatten
        ++ pixels.drop ((y + repeats) * rowBytes)).length = height * rowBytes
      ∧ (pixels.take (y * rowBytes) ++ (List.replicate repeats row).flatten
        ++ pixels.drop ((y + repeats) * rowBytes)).take ((y + repeats) * rowBytes)
          = pixels.take (y * rowBytes) ++ (List.replicate repeats row).flatten := by
  have hbuffer : (y + repeats) * rowBytes ≤ height * rowBytes := Nat.mul_le_mul_right _ hle
  have hsplit : (y + repeats) * rowBytes = y * rowBytes + repeats * rowBytes := Nat.add_mul _ _ _
  have hbefore : (pixels.take (y * rowBytes) ++ (List.replicate repeats row).flatten).length
      = (y + repeats) * rowBytes := by
    rw [List.length_append, replicate_flatten_length, List.length_take, hrow]
    omega
  constructor
  · rw [List.length_append, hbefore, List.length_drop]
    omega
  · rw [List.take_left' hbefore]

/-- One row of a page with its repeats. -/
lemma fillRows_step {colors width height y : ℕ} {byte : UInt8} {pixels input input₁ input₂ row : Bytes}
    (hcolors : Colors colors) (hwidth : width ≤ 20000)
    (hpixels : pixels.length = height * (width * 4)) (hword : height * (width * 4) < wordSize)
    (htake : takeByte input = .ok (byte, input₁)) (hle : y + (byte.toNat + 1) ≤ height)
    (hrow : decodeRuns colors width input₁ = .ok (row, input₂)) :
    fillRows colors width height y pixels input
      = fillRows colors width height (y + (byte.toNat + 1))
          (pixels.take (y * (width * 4)) ++ (List.replicate (byte.toNat + 1) row).flatten
            ++ pixels.drop ((y + (byte.toNat + 1)) * (width * 4))) input₂ := by
  obtain ⟨start, hslice, hfill⟩ := fillRow_start hcolors hwidth (by omega : y < height) hpixels input₁
  rw [fillRows, if_pos (by omega), readByte_eq, htake]
  dsimp only [refuse_ok]
  rw [if_neg (by omega), hslice]
  dsimp only
  rw [hfill, hrow]
  dsimp only [refuse_ok]
  rw [repeatRow_eq (Nat.succ_pos _) hle hpixels hword (runBytes_of_decodeRuns hrow).1]

/-- The rows of a page are filled with the rows that the decoder reads. -/
lemma fillRows_eq {colors width height y : ℕ} {pixels : Bytes} (hcolors : Colors colors)
    (hwidth : width ≤ 20000) (hy : y ≤ height) (hpixels : pixels.length = height * (width * 4))
    (hword : height * (width * 4) < wordSize) (input : Bytes) :
    fillRows colors width height y pixels input
      = refuse ((decodeRows width colors (height - y) input).map fun p =>
          (pixels.take (y * (width * 4)) ++ p.1, p.2)) := by
  generalize hremaining : height - y = remaining
  fun_induction decodeRows width colors remaining input generalizing y pixels with
  | case1 input =>
      have hend : y = height := by omega
      rw [fillRows, if_neg (by omega), hend, ← hpixels, List.take_length]
      simp [Except.map]
  | case2 remaining input hne e htake =>
      rw [fillRows, if_pos (by omega), readByte_eq, htake]
      rfl
  | case3 remaining input hne byte input₁ htake repeats =>
      rw [fillRows, if_pos (by omega), readByte_eq, htake]
      dsimp only [refuse_ok]
      rw [if_pos (by omega)]
      rfl
  | case4 remaining input hne byte input₁ htake repeats hle e =>
      rename_i hrow
      obtain ⟨start, hslice, hfill⟩ :=
        fillRow_start hcolors hwidth (by omega : y < height) hpixels input₁
      rw [fillRows, if_pos (by omega), readByte_eq, htake]
      dsimp only [refuse_ok]
      rw [if_neg (by omega), hslice]
      dsimp only
      rw [hfill, hrow]
      rfl
  | case5 remaining input hne byte input₁ htake repeats hle row input₂ hrow e hrows =>
      rename_i ih
      have hnext := repeated_length (byte.toNat + 1) hpixels (runBytes_of_decodeRuns hrow).1
        (by omega : y + (byte.toNat + 1) ≤ height)
      rw [fillRows_step hcolors hwidth hpixels hword htake (by omega) hrow,
        ih (by omega) hnext.1 (by omega), hrows]
      rfl
  | case6 remaining input hne byte input₁ htake repeats hle row input₂ hrow rows input₃ hrows =>
      rename_i ih
      have hnext := repeated_length (byte.toNat + 1) hpixels (runBytes_of_decodeRuns hrow).1
        (by omega : y + (byte.toNat + 1) ≤ height)
      rw [fillRows_step hcolors hwidth hpixels hword htake (by omega) hrow,
        ih (by omega) hnext.1 (by omega), hrows, hnext.2]
      change Except.ok (_ ++ _ ++ rows, input₃) = _
      rw [List.append_assoc]
      rfl

/-- A page is decoded without a panic. -/
lemma fillPage_eq (input : Bytes) : fillPage input = refuse (decodePage input) := by
  unfold fillPage decodePage
  cases htake : take input headerBytes with
  | error e => rfl
  | ok p =>
      obtain ⟨bytes, rest⟩ := p
      have hlength := (take_eq_ok.mp htake).2
      rw [refuse_ok, except_ok_bind, except_ok_bind]
      dsimp only
      rw [checkHeader_eq hlength]
      cases hheader : readHeader bytes with
      | error e => rfl
      | ok header =>
          have hvalid := (readHeader_eq_ok hlength).mp hheader
          have hcolors : Colors header.colors := hvalid.colors.imp (·.2.2) (·.2.2)
          have hsize : header.height * (header.width * 4) < wordSize := by
            have hlimit := hvalid.size
            rw [Nat.mul_comm] at hlimit
            exact lt_of_le_of_lt hlimit (by decide)
          rw [refuse_ok, except_ok_bind, except_ok_bind, fillRows_eq hcolors hvalid.width.2.2
            (Nat.zero_le _) (by rw [List.length_replicate, Nat.mul_comm]) hsize, Nat.sub_zero,
            Nat.zero_mul]
          cases decodeRows header.width header.colors header.height rest <;> rfl

/-! ### The iterator -/

/-- What the iterator yields next, and the iterator after it. -/
def nextPage (pages : PwgPages) : Except Fault (Option (Except AppError RasterPage × PwgPages)) :=
  if pages.input = [] then .ok none
  else
    match if pages.count = maxPages then refused else fillPage pages.input with
    | .error .panic => .error .panic
    | .error (.refused e) => (number (pages.count + 1)).map fun count => some (.error e, ⟨[], count⟩)
    | .ok (page, input) => (number (pages.count + 1)).map fun count => some (.ok page, ⟨input, count⟩)

/-- The iterator ends, without a panic, and has yielded these pages and errors. -/
inductive Yields : PwgPages → List (Except AppError RasterPage) → Prop where
  | done {pages : PwgPages} (hnext : nextPage pages = .ok none) : Yields pages []
  | item {pages rest : PwgPages} {item : Except AppError RasterPage}
      {items : List (Except AppError RasterPage)} (hnext : nextPage pages = .ok (some (item, rest)))
      (hrest : Yields rest items) : Yields pages (item :: items)

lemma nextPage_eq {pages : PwgPages} (hcount : pages.count ≤ maxPages) :
    nextPage pages = .ok pages.next := by
  have hnumber : number (pages.count + 1) = .ok (pages.count + 1) :=
    number_of_lt (lt_of_le_of_lt (Nat.add_le_add_right hcount 1) (by decide))
  unfold nextPage PwgPages.next
  split
  case isTrue => rfl
  case isFalse =>
    rw [fillPage_eq, hnumber]
    by_cases hlimit : pages.count = maxPages
    · rw [if_pos hlimit, if_pos hlimit]
      rfl
    · rw [if_neg hlimit, if_neg hlimit]
      cases decodePage pages.input <;> rfl

/-- The limits on a decoded page. -/
structure RasterPage.Bounded (page : RasterPage) : Prop where
  width : 1 ≤ page.width ∧ page.width ≤ 20000
  height : 1 ≤ page.height ∧ page.height ≤ 20000
  pixels : page.pixels.length = page.width * page.height * 4
  size : page.pixels.length ≤ maxDecodedBytes

lemma bounded_of_decodePage {input rest : Bytes} {page : RasterPage}
    (h : decodePage input = .ok (page, rest)) : page.Bounded := by
  obtain ⟨bytes, header, -, ⟨headerText, rows, -, hvalid, -⟩, hwidth, hheight, hpixels⟩ :=
    pageBytes_of_decodePage h
  refine ⟨hwidth ▸ hvalid.width.2, hheight ▸ hvalid.height.2, ?_, hpixels ▸ hvalid.size⟩
  rw [hpixels, hwidth, hheight, Nat.mul_right_comm]

/-- The number of pages among what was yielded. -/
def pageCount (items : List (Except AppError RasterPage)) : ℕ :=
  items.countP fun item => item.isOk

lemma PwgPages.next_error {pages rest : PwgPages} {e : AppError}
    (h : pages.next = some (.error e, rest)) : rest.input = [] := by
  unfold next at h
  split_ifs at h
  · obtain ⟨-, rfl⟩ := Prod.mk.inj (Option.some.inj h)
    rfl
  · split at h
    · obtain ⟨-, rfl⟩ := Prod.mk.inj (Option.some.inj h)
      rfl
    · cases (Prod.mk.inj (Option.some.inj h)).1

/-- The iteration from any state ends, and what it yields is within the limits. -/
lemma exists_yields (pages : PwgPages) (hcount : pages.count ≤ maxPages) :
    ∃ items, Yields pages items ∧ (∀ page, .ok page ∈ items → page.Bounded)
      ∧ pages.count + pageCount items ≤ maxPages := by
  induction hlength : pages.input.length using Nat.strong_induction_on generalizing pages with
  | _ length ih =>
      have hnext := nextPage_eq hcount
      cases hitem : pages.next with
      | none =>
          rw [hitem] at hnext
          exact ⟨[], .done hnext, fun page hpage => (List.not_mem_nil hpage).elim, hcount⟩
      | some step =>
          obtain ⟨item, rest⟩ := step
          rw [hitem] at hnext
          cases item with
          | error e =>
              -- the iterator is empty behind an error
              have hempty : rest.input = [] := PwgPages.next_error hitem
              refine ⟨[.error e], .item hnext (.done (if_pos hempty)), ?_, hcount⟩
              intro page hpage
              cases List.mem_singleton.mp hpage
          | ok page =>
              obtain ⟨hlimit, hpage, hcount'⟩ := PwgPages.next_eq_page hitem
              obtain ⟨items, hyields, hbounded, hpages⟩ :=
                ih _ (hlength ▸ PwgPages.next_length hitem) rest (by omega) rfl
              refine ⟨.ok page :: items, .item hnext hyields, ?_, ?_⟩
              · intro page' hpage'
                rcases List.mem_cons.mp hpage' with hsame | hlater
                · rw [Except.ok.inj hsame]
                  exact bounded_of_decodePage hpage
                · exact hbounded page' hlater
              · have hone : pageCount (.ok page :: items) = pageCount items + 1 :=
                  List.countP_cons_of_pos rfl
                omega

/-- The decoder accepts exactly the grammar within its limits. -/
theorem decodePwg_exact (document : Bytes) :
    (∀ pages, pwgPages document = .ok pages → ∃ items, Yields pages items
        ∧ (∀ page, .ok page ∈ items → page.Bounded) ∧ pageCount items ≤ maxPages)
      ∧ ((∃ pages, decodePwg document = .ok pages) ↔ DocumentBytes document) := by
  refine ⟨fun pages h => ?_, decodePwg_iff⟩
  have hstart : pages.count = 0 := by
    unfold pwgPages at h
    split at h
    · cases h
    · rw [← Except.ok.inj h]
  obtain ⟨items, hyields, hbounded, hpages⟩ := exists_yields pages (by omega)
  exact ⟨items, hyields, hbounded, by omega⟩

/-- A document that ends in its first header is read to its end. -/
theorem cutHeader_yields : ∃ items, Yields ⟨[0], 0⟩ items
    ∧ (∀ page, .ok page ∈ items → page.Bounded) ∧ pageCount items ≤ maxPages :=
  (decodePwg_exact (syncWord ++ [0])).1 ⟨[0], 0⟩ (by decide)

end ShaPrint.Raster
