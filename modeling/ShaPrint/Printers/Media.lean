import ShaPrint.Lib.Digits
import ShaPrint.Text

/-!
The media sizes the program advertises, `adapters/printers/media.rs`. Lengths are tenths
of a millimetre.

* `mediaCatalog`: the sizes, in the order they are advertised.
* `mediaForDimensions`: the size nearest to measured dimensions, within the tolerance.
* `customDimensionsAreSupported`: the bounds on a size that is not in the catalogue.
-/

namespace ShaPrint

def dimensionToleranceTenthsMm : ℕ := 5
def customMinTenthsMm : ℤ := 500
def customMaxShortTenthsMm : ℤ := 3302
def customMaxLongTenthsMm : ℤ := 4500

/-- One media size. -/
structure MediaSpec where
  keyword : String
  paperId : ℤ
  shortTenthsMm : ℤ
  longTenthsMm : ℤ
  explicitDimensions : Bool
  deriving DecidableEq, Repr

def mediaCatalog : List MediaSpec :=
  [⟨"iso_a4_210x297mm", 9, 2100, 2970, false⟩,
   ⟨"na_letter_8.5x11in", 1, 2159, 2794, false⟩,
   ⟨"na_legal_8.5x14in", 5, 2159, 3556, false⟩,
   ⟨"om_folio_210x330mm", 14, 2100, 3300, true⟩,
   ⟨"na_foolscap_8.5x13in", 14, 2159, 3302, false⟩,
   ⟨"iso_a3_297x420mm", 8, 2970, 4200, false⟩,
   ⟨"iso_a5_148x210mm", 11, 1480, 2100, false⟩,
   ⟨"iso_a6_105x148mm", 70, 1050, 1480, false⟩,
   ⟨"iso_b4_250x353mm", 12, 2500, 3530, true⟩,
   ⟨"iso_b5_176x250mm", 13, 1760, 2500, true⟩,
   ⟨"jis_b5_182x257mm", 13, 1820, 2570, false⟩,
   ⟨"na_executive_7.25x10.5in", 7, 1842, 2667, false⟩,
   ⟨"na_invoice_5.5x8.5in", 6, 1397, 2159, false⟩,
   ⟨"na_ledger_11x17in", 3, 2794, 4318, false⟩,
   ⟨"oe_photo-4x6_4x6in", 256, 1016, 1524, true⟩,
   ⟨"na_index-4x6_4x6in", 256, 1016, 1524, true⟩,
   ⟨"na_5x7_5x7in", 256, 1270, 1778, true⟩,
   ⟨"iso_dl_110x220mm", 27, 1100, 2200, false⟩,
   ⟨"iso_c5_162x229mm", 28, 1620, 2290, false⟩,
   ⟨"na_number-10_4.125x9.5in", 20, 1048, 2413, false⟩,
   ⟨"na_monarch_3.875x7.5in", 37, 984, 1905, false⟩]

def mediaForDimensions (short long : ℤ) : Option MediaSpec :=
  mediaCatalog.find? fun spec =>
    (short - spec.shortTenthsMm).natAbs ≤ dimensionToleranceTenthsMm
      && (long - spec.longTenthsMm).natAbs ≤ dimensionToleranceTenthsMm

def customDimensionsAreSupported (short long : ℤ) : Bool :=
  customMinTenthsMm ≤ short && customMinTenthsMm ≤ long
    && short ≤ customMaxShortTenthsMm && long ≤ customMaxLongTenthsMm

/-- Tenths of a millimetre as millimetres with one decimal place. -/
def tenthsText (tenths : ℤ) : String :=
  String.ofList (Digits.decimal (tenths.toNat / 10) ++ '.' :: Digits.decimal (tenths.toNat % 10))

end ShaPrint
