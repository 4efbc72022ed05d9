import ShaPrint.Domain.Error
import ShaPrint.Lib.BigEndian
import ShaPrint.Lib.Fallible
import ShaPrint.Lib.PackBits
import ShaPrint.Text

/-!
The server's PWG raster decoder, `adapters/printers/raster.rs`.

A page's pixels are built row by row instead of inside a buffer of zeros: the
source writes every row of the buffer once, in order, and fails otherwise.

* `decodeRuns`, `decodeRows`, `decodePage`: the pixel, row and page loops.
* `PwgPages.next`, `decodePwg`: the page iterator and the loop that collects it.
-/

namespace ShaPrint.Raster

open BigEndian PackBits

/-- A decoded page; the pixels are top-down BGRX. -/
structure RasterPage where
  width : ℕ
  height : ℕ
  dpi : ℕ × ℕ
  pixels : Bytes
  deriving DecidableEq, Repr

def headerBytes : ℕ := 1796
def maxDecodedBytes : ℕ := 256 * 1024 * 1024
def maxPages : ℕ := 1000

/-- `b"RaS2"`. -/
def syncWord : Bytes := [0x52, 0x61, 0x53, 0x32]

def invalid : AppError :=
  .invalidInput "the PWG Raster document is invalid or exceeds supported limits"

/-- The first `count` bytes of the input and what remains of it. -/
def take (input : Bytes) (count : ℕ) : Except AppError (Bytes × Bytes) :=
  if input.length < count then .error invalid else .ok (input.splitAt count)

lemma take_eq_ok {input bytes rest : Bytes} {count : ℕ} :
    take input count = .ok (bytes, rest) ↔ input = bytes ++ rest ∧ bytes.length = count := by
  unfold take
  split
  · rename_i hshort
    simp only [reduceCtorEq, false_iff, not_and]
    rintro rfl hcount
    simp only [List.length_append] at hshort
    omega
  · rename_i hlong
    simp only [List.splitAt_eq, Except.ok.injEq, Prod.mk.injEq]
    constructor
    · rintro ⟨rfl, rfl⟩
      exact ⟨(List.take_append_drop _ _).symm, by simp; omega⟩
    · rintro ⟨rfl, rfl⟩
      simp

/-- Taking a prefix of known length. -/
lemma take_append {bytes : Bytes} (rest : Bytes) {count : ℕ} (h : bytes.length = count) :
    take (bytes ++ rest) count = .ok (bytes, rest) := take_eq_ok.mpr ⟨rfl, h⟩

lemma take_length {input bytes rest : Bytes} {count : ℕ}
    (h : take input count = .ok (bytes, rest)) : rest.length + count = input.length := by
  obtain ⟨rfl, rfl⟩ := take_eq_ok.mp h
  simp [Nat.add_comm]

/-- `take(input, 1)?[0]`. -/
def takeByte (input : Bytes) : Except AppError (UInt8 × Bytes) :=
  (take input 1).map fun (bytes, rest) => (bytes.headD 0, rest)

@[simp] lemma takeByte_cons (byte : UInt8) (rest : Bytes) :
    takeByte (byte :: rest) = .ok (byte, rest) := by
  rw [takeByte, ← List.singleton_append, take_append rest (List.length_singleton (a := byte))]
  rfl

lemma takeByte_length {input rest : Bytes} {byte : UInt8}
    (h : takeByte input = .ok (byte, rest)) : rest.length + 1 = input.length := by
  obtain ⟨⟨bytes, rest'⟩, htake, heq⟩ := except_map_eq_ok.mp h
  obtain ⟨-, rfl⟩ := Prod.mk.inj heq
  exact take_length htake

lemma takeByte_eq_ok {input rest : Bytes} {byte : UInt8} :
    takeByte input = .ok (byte, rest) ↔ input = byte :: rest := by
  constructor
  · intro h
    obtain ⟨⟨bytes, rest'⟩, htake, heq⟩ := except_map_eq_ok.mp h
    obtain ⟨rfl, hlength⟩ := take_eq_ok.mp htake
    obtain ⟨b, rfl⟩ := List.length_eq_one_iff.mp hlength
    obtain ⟨rfl, rfl⟩ := Prod.mk.inj heq
    rfl
  · rintro rfl
    exact takeByte_cons byte rest

/-! ### Rows -/

/-- The BGRX bytes of one pixel. -/
def bgr (colors : ℕ) (rgb : Bytes) : Bytes :=
  if colors = 3 then [rgb.getD 2 0, rgb.getD 1 0, rgb.getD 0 0, 0]
  else [rgb.getD 0 0, rgb.getD 0 0, rgb.getD 0 0, 0]

/-- The number of pixels of a run, from its control byte; 128 is reserved. -/
def runCount (control : UInt8) : Except AppError ℕ :=
  if control < 128 then .ok (control.toNat + 1)
  else if control = 128 then .error invalid
  else .ok (257 - control.toNat)

lemma runCount_pos {control : UInt8} {count : ℕ} (h : runCount control = .ok count) :
    0 < count := by
  have hlt := control.toNat_lt
  unfold runCount at h
  split at h
  · have heq := Except.ok.inj h
    omega
  · split at h
    · cases h
    · have heq := Except.ok.inj h
      omega

/-- The pixels of a run, from its bytes. -/
def runPixels (colors : ℕ) (control : UInt8) (count : ℕ) (encoded : Bytes) : Bytes :=
  (List.range count).flatMap fun pixel =>
    let source := if control < 128 then 0 else pixel * colors
    bgr colors (slice encoded source colors)

/-- The pixel loop: the runs of a row of which `remaining` pixels are left. -/
def decodeRuns (colors remaining : ℕ) (input : Bytes) : Except AppError (Bytes × Bytes) :=
  if remaining = 0 then .ok ([], input)
  else
    match takeByte input with
    | .error e => .error e
    | .ok (control, input) =>
        match _hcount : runCount control with
        | .error e => .error e
        | .ok count =>
            if remaining < count then .error invalid
            else
              match take input (if control < 128 then colors else count * colors) with
              | .error e => .error e
              | .ok (encoded, input) =>
                  match decodeRuns colors (remaining - count) input with
                  | .error e => .error e
                  | .ok (row, input) =>
                      .ok (runPixels colors control count encoded ++ row, input)
termination_by remaining
decreasing_by
  have := runCount_pos _hcount
  omega

/-- The row loop: the rows of a page of which `remaining` are left. -/
def decodeRows (width colors remaining : ℕ) (input : Bytes) : Except AppError (Bytes × Bytes) :=
  if remaining = 0 then .ok ([], input)
  else
    match takeByte input with
    | .error e => .error e
    | .ok (byte, input) =>
        let repeats := byte.toNat + 1
        if remaining < repeats then .error invalid
        else
          match decodeRuns colors width input with
          | .error e => .error e
          | .ok (row, input) =>
              match decodeRows width colors (remaining - repeats) input with
              | .error e => .error e
              | .ok (rows, input) => .ok ((List.replicate repeats row).flatten ++ rows, input)
termination_by remaining

/-! ### Pages -/

/-- The colors of a page, from the color space and the number of colors. -/
def headerColors (header : Bytes) : Except AppError ℕ :=
  if get32 header 400 = 18 ∧ get32 header 420 = 1 then .ok 1
  else if get32 header 400 = 19 ∧ get32 header 420 = 3 then .ok 3
  else .error invalid

/-- The checks on a page's header. -/
def headerRefused (header : Bytes) (colors : ℕ) : Bool :=
  get32 header 372 = 0 || get32 header 376 = 0 || decide (20000 < get32 header 372)
    || decide (20000 < get32 header 376)
    || (get32 header 276 = 0 || decide (2400 < get32 header 276))
    || (get32 header 280 = 0 || decide (2400 < get32 header 280))
    || get32 header 384 ≠ 8 || get32 header 388 ≠ colors * 8 || get32 header 396 ≠ 0
    || get32 header 392 ≠ get32 header 372 * colors

/-- What a page's header says, once checked. -/
structure PageHeader where
  width : ℕ
  height : ℕ
  dpi : ℕ × ℕ
  colors : ℕ
  deriving DecidableEq, Repr

/-- Reads and checks a page's header. -/
def readHeader (header : Bytes) : Except AppError PageHeader :=
  match headerColors header with
  | .error e => .error e
  | .ok colors =>
      if headerRefused header colors then .error invalid
      else if maxDecodedBytes < get32 header 372 * 4 * get32 header 376 then .error invalid
      else
        .ok {
          width := get32 header 372
          height := get32 header 376
          dpi := (get32 header 276, get32 header 280)
          colors }

/-- `decode_page`: a page off the front of the input. -/
def decodePage (input : Bytes) : Except AppError (RasterPage × Bytes) :=
  (take input headerBytes).bind fun (bytes, input) =>
    (readHeader bytes).bind fun header =>
      (decodeRows header.width header.colors header.height input).bind fun (pixels, input) =>
        .ok (⟨header.width, header.height, header.dpi, pixels⟩, input)

/-- The page iterator: what is left of the document, and the pages yielded so far. -/
structure PwgPages where
  input : Bytes
  count : ℕ
  deriving DecidableEq, Repr

/-- `pwg_pages`. -/
def pwgPages (document : Bytes) : Except AppError PwgPages :=
  if ¬ syncWord <+: document ∨ document.length = 4 then .error invalid
  else .ok ⟨document.drop 4, 0⟩

/-- The iterator's `next`: the next item and the iterator after it. -/
def PwgPages.next (pages : PwgPages) : Option (Except AppError RasterPage × PwgPages) :=
  if pages.input = [] then none
  else
    match if pages.count = maxPages then .error invalid else decodePage pages.input with
    | .error e => some (.error e, ⟨[], pages.count + 1⟩)
    | .ok (page, input) => some (.ok page, ⟨input, pages.count + 1⟩)

lemma decodeRuns_length {colors remaining : ℕ} {input row rest : Bytes}
    (h : decodeRuns colors remaining input = .ok (row, rest)) : rest.length ≤ input.length := by
  fun_induction decodeRuns colors remaining input generalizing row with
  | case1 input =>
      obtain ⟨-, rfl⟩ := Prod.mk.inj (Except.ok.inj h)
      exact le_rfl
  | case7 remaining input _ byte input₁ htake count _ _ encoded input₂ htake₂ row₁ input₃ hrow ih =>
      obtain ⟨-, rfl⟩ := Prod.mk.inj (Except.ok.inj h)
      have h1 := takeByte_length htake
      have h2 := take_length htake₂
      have h3 := ih hrow
      omega
  | _ => cases h

lemma decodeRows_length {width colors remaining : ℕ} {input pixels rest : Bytes}
    (h : decodeRows width colors remaining input = .ok (pixels, rest)) :
    rest.length ≤ input.length := by
  fun_induction decodeRows width colors remaining input generalizing pixels rest with
  | case1 input =>
      obtain ⟨-, rfl⟩ := Prod.mk.inj (Except.ok.inj h)
      exact le_rfl
  | case6 remaining input _ byte input₁ htake repeats hle row input₂ hrow rows input₃ hrows =>
      rename_i ih
      obtain ⟨-, rfl⟩ := Prod.mk.inj (Except.ok.inj h)
      have h1 := takeByte_length htake
      have h2 := decodeRuns_length hrow
      have h3 := ih hrows
      omega
  | _ => cases h

/-- A page takes at least its header off the input. -/
lemma decodePage_length {input rest : Bytes} {page : RasterPage}
    (h : decodePage input = .ok (page, rest)) : rest.length < input.length := by
  obtain ⟨⟨bytes, input₁⟩, htake, h⟩ := except_bind_eq_ok.mp h
  obtain ⟨header, -, h⟩ := except_bind_eq_ok.mp h
  obtain ⟨⟨pixels, input₂⟩, hrows, h⟩ := except_bind_eq_ok.mp h
  obtain ⟨-, rfl⟩ := Prod.mk.inj (Except.ok.inj h)
  have hheader := take_length htake
  have hrest := decodeRows_length hrows
  have hpos : 0 < headerBytes := by decide
  omega

/-- A page that the iterator yields leaves less of the document. -/
lemma PwgPages.next_length {pages pages' : PwgPages} {page : RasterPage}
    (h : pages.next = some (.ok page, pages')) : pages'.input.length < pages.input.length := by
  unfold next at h
  split at h
  · cases h
  · split at h
    · cases h
    · rename_i page₁ rest hpage
      simp only [Option.some.injEq, Prod.mk.injEq, Except.ok.injEq] at h
      obtain ⟨rfl, rfl⟩ := h
      split at hpage
      · cases hpage
      · exact decodePage_length hpage

/-- The collecting loop of `decode_pwg`, with `total` bytes of pixels so far. -/
def collectPages (pages : PwgPages) (total : ℕ) : Except AppError (List RasterPage) :=
  match _hnext : pages.next with
  | none => .ok []
  | some (.error e, _) => .error e
  | some (.ok page, rest) =>
      if maxDecodedBytes < total + page.pixels.length then .error invalid
      else
        match collectPages rest (total + page.pixels.length) with
        | .error e => .error e
        | .ok collected => .ok (page :: collected)
termination_by pages.input.length
decreasing_by exact PwgPages.next_length _hnext

/-- `decode_pwg`: every page of the document. -/
def decodePwg (document : Bytes) : Except AppError (List RasterPage) :=
  match pwgPages document with
  | .error e => .error e
  | .ok pages => collectPages pages 0

end ShaPrint.Raster
