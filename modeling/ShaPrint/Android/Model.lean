import ShaPrint.Uri.Percent

/-!
The printers and jobs of the Android client, `core/domain/model`. A string is modelled by
its Unicode characters, so one that has no UTF-8 form cannot be built.

* `RequestedMedia`, `PrintColorMode`, `DuplexMode`, `PrintOrientation`: the settings and
  their names on the wire.
* `SharedPrinter`: a printer of a server, with what it can do.
* `PrintJobRequest`: a job, and the URI of the printer it is for.
* `percentEncodeUriSegment_eq`: the client encodes names as the server does.
-/

namespace ShaPrint.Android

/-- A sum of numbers of 32 bits, which wraps around. -/
def wrapInt (n : ℤ) : ℤ := n.bmod 4294967296

inductive RequestedMedia where
  | isoA4
  | naLetter
  | omFolio
  | naLegal
  | isoA3
  | isoA5
  deriving DecidableEq, Repr

namespace RequestedMedia

def ippName : RequestedMedia → String
  | isoA4 => "iso_a4_210x297mm"
  | naLetter => "na_letter_8.5x11in"
  | omFolio => "om_folio_210x330mm"
  | naLegal => "na_legal_8.5x14in"
  | isoA3 => "iso_a3_297x420mm"
  | isoA5 => "iso_a5_148x210mm"

def entries : List RequestedMedia := [isoA4, naLetter, omFolio, naLegal, isoA3, isoA5]

end RequestedMedia

/-- The ASCII letter, in lower case, that a comparison without regard to case takes a
character for. Beyond ASCII these are the dotless and the dotted I, the long s and the
Kelvin sign. -/
def foldCase (c : Char) : Char :=
  if c.val = 0x130 ∨ c.val = 0x131 then 'i'
  else if c.val = 0x17f then 's'
  else if c.val = 0x212a then 'k'
  else c.toLower

/-- `String.equals(ignoreCase = true)` with an ASCII string. -/
def equalsIgnoreCase (ascii s : String) : Bool := ascii.toList.map foldCase == s.toList.map foldCase

def RequestedMedia.fromIppName (name : String) : Option RequestedMedia :=
  RequestedMedia.entries.find? fun media => equalsIgnoreCase media.ippName name

inductive PrintColorMode where
  | color
  | monochrome
  deriving DecidableEq, Repr

def PrintColorMode.ippName : PrintColorMode → String
  | color => "color"
  | monochrome => "monochrome"

inductive DuplexMode where
  | oneSided
  | twoSidedLongEdge
  | twoSidedShortEdge
  deriving DecidableEq, Repr

def DuplexMode.ippName : DuplexMode → String
  | oneSided => "one-sided"
  | twoSidedLongEdge => "two-sided-long-edge"
  | twoSidedShortEdge => "two-sided-short-edge"

inductive PrintOrientation where
  | portrait
  | landscape
  deriving DecidableEq, Repr

def PrintOrientation.ippEnum : PrintOrientation → ℤ
  | portrait => 3
  | landscape => 4

structure PrinterCapabilities where
  supportedMedia : List RequestedMedia
  supportedColorModes : List PrintColorMode
  supportedDuplexModes : List DuplexMode
  maxCopies : ℤ
  deriving DecidableEq, Repr

/-- A printer made available by a server. -/
structure SharedPrinter where
  name : String
  serverCanonicalAddress : String
  isOnline : Bool
  capabilities : PrinterCapabilities
  deriving DecidableEq, Repr

/-- A document's requested settings, and the printer it is for. -/
structure PrintJobRequest where
  printerName : String
  serverCanonicalAddress : String
  jobName : String
  media : RequestedMedia
  colorMode : PrintColorMode
  duplexMode : DuplexMode
  orientation : PrintOrientation
  copies : ℤ
  fitToPage : Bool
  deriving DecidableEq, Repr

/-- One byte of an encoded segment. -/
def encodeSegmentByte (byte : UInt8) : Chars :=
  let b := byte.toNat
  let isUnreserved := (97 ≤ b && b ≤ 122) || (65 ≤ b && b ≤ 90) || (48 ≤ b && b ≤ 57)
    || b == 45 || b == 46 || b == 95 || b == 126
  if isUnreserved then [Char.ofNat b]
  else ['%', hexUpper (b / 16), hexUpper (b % 16)]

def percentEncodeUriSegment (value : Chars) : Chars := (utf8 value).flatMap encodeSegmentByte

namespace PrintJobRequest

def encodedPrinterName (request : PrintJobRequest) : Chars :=
  percentEncodeUriSegment request.printerName.toList

def printerIppUri (request : PrintJobRequest) : Chars :=
  "ipps://".toList ++ request.serverCanonicalAddress.toList ++ "/ipp/print/".toList
    ++ request.encodedPrinterName

end PrintJobRequest

/-- Both sides leave the same bytes as they are and escape the others alike. -/
lemma encodeSegmentByte_eq (byte : UInt8) : encodeSegmentByte byte = encodeByte byte := by
  have hall : ∀ n < 256, encodeSegmentByte (UInt8.ofNat n) = encodeByte (UInt8.ofNat n) := by
    decide +kernel
  have h := hall byte.toNat byte.toNat_lt
  rwa [UInt8.ofNat_toNat] at h

/-- The client encodes the names of printers as the server does. -/
theorem percentEncodeUriSegment_eq (value : Chars) :
    percentEncodeUriSegment value = percentEncode value := by
  unfold percentEncodeUriSegment percentEncode
  rw [funext encodeSegmentByte_eq]

end ShaPrint.Android
