import ShaPrint.Raster.Decoder

/-!
The two PWG raster encoders: the Android client's `PwgEncoder.kt` and the
desktop's `encode_pwg_raster` in `linux_test_print.rs`.

Both write to a growing stream, so each function gives the bytes it writes. The
numbers are natural: the header's fields are truncated to 32 bits where they are
written, which is what the machine integers hold, and a byte is the low eight
bits of what is written.

* `buildHeader`, `encodeRow`: the client's page header and its rows, with the
  loops `extendRun` and `extendLiteral` that choose a run's length.
* `encodePwgRaster`: the desktop's one-page stream, with the loops
  `equalRows` and `equalPixels`.
-/

namespace ShaPrint.Raster

open BigEndian PackBits

/-! ### The Android client -/

inductive PrintColorMode where
  | color
  | monochrome
  deriving DecidableEq, Repr

/-- The number of colors of a pixel. -/
def PrintColorMode.colors : PrintColorMode → ℕ
  | .color => 3
  | .monochrome => 1

/-- `COLOR_SPACE_SRGB` and `COLOR_SPACE_SGRAY`. -/
def PrintColorMode.colorSpace : PrintColorMode → ℕ
  | .color => 19
  | .monochrome => 18

def bitsPerColor : ℕ := 8

/-- `PwgEncoder.buildHeader`. -/
def buildHeader (width height : ℕ) (colorMode : PrintColorMode) (dpi : ℕ) : Bytes :=
  let header := List.replicate headerBytes 0
  let header := put32 header 276 dpi
  let header := put32 header 280 dpi
  let header := put32 header 372 width
  let header := put32 header 376 height
  let header := put32 header 384 bitsPerColor
  let header := put32 header 388 (colorMode.colors * bitsPerColor)
  let header := put32 header 392 (width * colorMode.colors)
  let header := put32 header 396 0
  let header := put32 header 400 colorMode.colorSpace
  put32 header 420 colorMode.colors

/-- `pixelsEqual`. -/
def pixelsEqual (data : Bytes) (offsetA offsetB length : ℕ) : Bool :=
  (List.range length).all fun i => data.getD (offsetA + i) 0 == data.getD (offsetB + i) 0

section EncodeRow

variable (rowPixels : Bytes) (colors totalPixels pixelIdx : ℕ)

/-- The loop that extends a run of pixels equal to the first one. -/
def extendRun (runLen : ℕ) : ℕ :=
  if pixelIdx + runLen < totalPixels ∧ runLen < 128 then
    if pixelsEqual rowPixels (pixelIdx * colors) ((pixelIdx + runLen) * colors) colors then
      extendRun (runLen + 1)
    else runLen
  else runLen
termination_by 128 - runLen

/-- The loop that extends a literal run, up to two equal pixels. -/
def extendLiteral (litLen : ℕ) : ℕ :=
  if pixelIdx + litLen < totalPixels ∧ litLen < 128 then
    if pixelIdx + litLen + 1 < totalPixels
        ∧ pixelsEqual rowPixels ((pixelIdx + litLen) * colors) ((pixelIdx + litLen + 1) * colors)
          colors then litLen
    else extendLiteral (litLen + 1)
  else litLen
termination_by 128 - litLen

lemma le_extendLiteral (litLen : ℕ) :
    litLen ≤ extendLiteral rowPixels colors totalPixels pixelIdx litLen := by
  fun_induction extendLiteral rowPixels colors totalPixels pixelIdx litLen with
  | case1 => exact le_rfl
  | case2 _ _ _ ih => omega
  | case3 => exact le_rfl

/-- The pixel loop of `encodeRow`. -/
def encodePixels (pixelIdx : ℕ) : Bytes :=
  if pixelIdx < totalPixels then
    let runLen := extendRun rowPixels colors totalPixels pixelIdx 1
    if 1 < runLen then
      UInt8.ofNat (runLen - 1) :: slice rowPixels (pixelIdx * colors) colors
        ++ encodePixels (pixelIdx + runLen)
    else
      let litLen := extendLiteral rowPixels colors totalPixels pixelIdx 1
      UInt8.ofNat (257 - litLen) :: slice rowPixels (pixelIdx * colors) (litLen * colors)
        ++ encodePixels (pixelIdx + litLen)
  else []
termination_by totalPixels - pixelIdx
decreasing_by
  · omega
  · have := le_extendLiteral rowPixels colors totalPixels pixelIdx 1
    omega

end EncodeRow

/-- `PwgEncoder.encodeRow`: the row, `repeats` times. -/
def encodeRow (rowPixels : Bytes) (colors repeats : ℕ) : Bytes :=
  let safeRepeats := max 1 (min repeats 256)
  UInt8.ofNat (safeRepeats - 1)
    :: encodePixels rowPixels colors (rowPixels.length / colors) 0

/-! ### The desktop -/

section EncodePwgRaster

variable (pixels : Bytes) (w h : ℕ)

/-- The loop that counts the rows equal to the row `y`. -/
def equalRows (y repeats : ℕ) : ℕ :=
  if y + repeats < h ∧ repeats < 256 then
    if slice pixels ((y + repeats) * w) w = slice pixels (y * w) w then equalRows y (repeats + 1)
    else repeats
  else repeats
termination_by 256 - repeats

/-- The loop that counts the pixels of a row equal to the pixel `x`. -/
def equalPixels (row : Bytes) (x runLen : ℕ) : ℕ :=
  if x + runLen < w ∧ runLen < 128 ∧ row.getD (x + runLen) 0 = row.getD x 0 then
    equalPixels row x (runLen + 1)
  else runLen
termination_by 128 - runLen

lemma le_equalRows (y repeats : ℕ) : repeats ≤ equalRows pixels w h y repeats := by
  fun_induction equalRows pixels w h y repeats with
  | case1 _ _ _ ih => omega
  | case2 => exact le_rfl
  | case3 => exact le_rfl

lemma le_equalPixels (row : Bytes) (x runLen : ℕ) : runLen ≤ equalPixels w row x runLen := by
  fun_induction equalPixels w row x runLen with
  | case1 _ _ ih => omega
  | case2 => exact le_rfl

/-- The pixel loop of a row. -/
def encodeGrayPixels (row : Bytes) (x : ℕ) : Bytes :=
  if x < w then
    let runLen := equalPixels w row x 1
    UInt8.ofNat (runLen - 1) :: row.getD x 0 :: encodeGrayPixels row (x + runLen)
  else []
termination_by w - x
decreasing_by
  have := le_equalPixels w row x 1
  omega

/-- The row loop. -/
def encodeGrayRows (y : ℕ) : Bytes :=
  if y < h then
    let repeats := equalRows pixels w h y 1
    UInt8.ofNat (repeats - 1) :: encodeGrayPixels w (slice pixels (y * w) w) 0
      ++ encodeGrayRows (y + repeats)
  else []
termination_by h - y
decreasing_by
  have := le_equalRows pixels w h y 1
  omega

end EncodePwgRaster

/-- `encode_pwg_raster`: a gray bitmap as a stream of one page. -/
def encodePwgRaster (width height dpi : ℕ) (pixels : Bytes) : Bytes :=
  let header := List.replicate 1796 0
  let header := put32 header 276 dpi
  let header := put32 header 280 dpi
  let header := put32 header 372 width
  let header := put32 header 376 height
  let header := put32 header 384 8
  let header := put32 header 388 8
  let header := put32 header 392 width
  let header := put32 header 396 0
  let header := put32 header 400 18
  let header := put32 header 420 1
  syncWord ++ header ++ encodeGrayRows pixels width height 0

end ShaPrint.Raster
