import ShaPrint.Ipp.Request
import ShaPrint.Ipp.Status
import ShaPrint.Printers.Media

/-!
The print settings a job request asks for: `PrintSettings` of `application/printers.rs`,
`Request::media` of `adapters/ipps/protocol.rs` and `job_settings` of
`adapters/ipps/endpoint.rs`.

* `MediaScan`: what the scan of a media collection keeps; `mediaScanStep` is one member
  of the collection, and `Request.media` the whole reading.
* `jobSettings`: the settings, or the status the request is refused with.
-/

namespace ShaPrint

inductive DuplexMode where
  | simplex
  | longEdge
  | shortEdge
  deriving DecidableEq, Repr

inductive PrintOrientation where
  | portrait
  | landscape
  deriving DecidableEq, Repr

inductive PrintQuality where
  | draft
  | normal
  | high
  deriving DecidableEq, Repr

/-- Settings a server can forward to a local queue. -/
structure PrintSettings where
  media : Option String
  color : Option Bool
  duplex : Option DuplexMode
  copies : Option ℕ
  orientation : Option PrintOrientation
  quality : Option PrintQuality
  deriving DecidableEq, Repr

namespace Ipp

/-! ### The media of a request -/

/-- What the scan of a media collection has read: the open collections, innermost first,
the member whose value comes next, and the parts of the size found so far. -/
structure MediaScan where
  path : List Bytes
  member : Option Bytes
  name : Option String
  mediaSizeSeen : Bool
  x : Option ℤ
  y : Option ℤ
  deriving DecidableEq

def mediaCol : Bytes := asBytes "media-col"
def mediaSize : Bytes := asBytes "media-size"
def mediaSizeName : Bytes := asBytes "media-size-name"
def xDimension : Bytes := asBytes "x-dimension"
def yDimension : Bytes := asBytes "y-dimension"

/-- The value of the member `key`, which is neither a name nor a collection. -/
def mediaScanValue (s : MediaScan) (key : Bytes) (valueTag : UInt8) (value : Bytes) :
    Option MediaScan :=
  if s.path.length = 1 ∧ key = mediaSizeName then
    if ¬(valueTag = Tag.keyword ∨ valueTag = Tag.name) ∨ s.name.isSome then none
    else (fromUtf8 value).bind fun text =>
      let text := trimEndNul text
      if '\x00' ∈ text.toList then none
      else if text = "" then some s
      else some { s with name := some text }
  else if s.path = [mediaSize, mediaCol] ∧ (key = xDimension ∨ key = yDimension) then
    if valueTag ≠ Tag.integer then none
    else (Request.i32OfBytes value).bind fun dimension =>
      if ¬(5000 ≤ dimension ∧ dimension ≤ 45000) then none
      else if key = xDimension then
        if s.x.isSome then none else some { s with x := some dimension }
      else if s.y.isSome then none else some { s with y := some dimension }
  else some s

/-- One field of the collection; `none` refuses the collection. -/
def mediaScanStep (s : MediaScan) (field : UInt8 × Bytes) : Option MediaScan :=
  let (valueTag, value) := field
  if s.path = [] then none
  else if valueTag = Tag.memberAttrName then
    if s.member.isSome ∨ value = [] then none else some { s with member := some value }
  else if valueTag = Tag.begCollection then
    if value ≠ [] ∨ 16 ≤ s.path.length then none
    else s.member.bind fun key =>
      if s.path.length = 1 ∧ key = mediaSize ∧ s.mediaSizeSeen then none
      else some { s with
        path := key :: s.path
        member := none
        mediaSizeSeen := s.mediaSizeSeen || (s.path.length == 1 && key == mediaSize) }
  else if valueTag = Tag.endCollection then
    if s.member.isSome ∨ value ≠ [] then none else some { s with path := s.path.tail }
  else s.member.bind fun key => mediaScanValue { s with member := none } key valueTag value

/-- The dimensions a finished scan asks for, in tenths of a millimetre; the outer `none`
refuses the collection. -/
def mediaDimensions (s : MediaScan) : Option (Option (ℤ × ℤ)) :=
  match s.x, s.y with
  | some x, some y =>
      if min x y > 33020 then none
      else if ¬customDimensionsAreSupported (min x y / 10) (max x y / 10) then none
      else some (some (min x y / 10, max x y / 10))
  | none, none => if s.mediaSizeSeen then none else some none
  | _, _ => none

/-- The keyword for dimensions. -/
def mediaKeyword (short long : ℤ) : String :=
  match mediaForDimensions short long with
  | some spec => spec.keyword
  | none => "custom_" ++ tenthsText short ++ "x" ++ tenthsText long ++ "mm"

/-- Requested media; malformed and out-of-bounds collections are refused. -/
def Request.media (r : Request) : Except Status (Option String) :=
  match r.value "media" with
  | some media => .ok (some media)
  | none =>
      match r.find "media-col" with
      | none => .ok none
      | some collection =>
          if collection.tag ≠ Tag.begCollection ∨ collection.values.head? ≠ some [] then
            .error .attributesOrValuesNotSupported
          else
            let fields := (collection.valueTags.zip collection.values).drop 1
            let scanned := fields.foldlM mediaScanStep ⟨[mediaCol], none, none, false, none, none⟩
            match scanned.filter fun s => s.path.isEmpty && s.member.isNone with
            | none => .error .attributesOrValuesNotSupported
            | some s =>
                match mediaDimensions s with
                | none => .error .attributesOrValuesNotSupported
                | some dimensions =>
                    .ok (s.name <|> dimensions.map fun (short, long) => mediaKeyword short long)

end Ipp

/-! ### The settings of a request -/

namespace Endpoint

open Ipp

/-- `print-color-mode`. -/
def requestedColor (r : Request) : Except Status (Option Bool) :=
  match r.value "print-color-mode" with
  | none => .ok none
  | some mode =>
      if mode = "color" then .ok (some true)
      else if mode ∈ ["monochrome", "bi-level", "process-monochrome", "process-bi-level"] then
        .ok (some false)
      else if mode = "auto" ∨ mode = "auto-monochrome" then .ok none
      else .error .attributesOrValuesNotSupported

/-- `sides`. -/
def requestedDuplex (r : Request) : Except Status (Option DuplexMode) :=
  match r.value "sides" with
  | none => .ok none
  | some sides =>
      if sides = "one-sided" then .ok (some .simplex)
      else if sides = "two-sided-long-edge" then .ok (some .longEdge)
      else if sides = "two-sided-short-edge" then .ok (some .shortEdge)
      else .error .attributesOrValuesNotSupported

/-- `copies`. -/
def requestedCopies (r : Request) : Except Status (Option ℕ) :=
  match r.integer "copies" with
  | none => .ok none
  | some value =>
      if 1 ≤ value ∧ value ≤ 999 then .ok (some value.toNat)
      else .error .attributesOrValuesNotSupported

/-- `orientation-requested`. -/
def requestedOrientation (r : Request) : Except Status (Option PrintOrientation) :=
  match r.integer "orientation-requested" with
  | none => .ok none
  | some value =>
      if value = 3 then .ok (some .portrait)
      else if value = 4 then .ok (some .landscape)
      else .error .attributesOrValuesNotSupported

/-- `print-quality`: an enumeration value, or its name or number as text. -/
def requestedQuality (r : Request) : Except Status (Option PrintQuality) :=
  match r.integer "print-quality" with
  | some value =>
      if value = 3 then .ok (some .draft)
      else if value = 4 then .ok (some .normal)
      else if value = 5 then .ok (some .high)
      else .error .attributesOrValuesNotSupported
  | none =>
      match r.value "print-quality" with
      | some value =>
          if value = "draft" ∨ value = "3" then .ok (some .draft)
          else if value = "normal" ∨ value = "4" then .ok (some .normal)
          else if value = "high" ∨ value = "5" then .ok (some .high)
          else .error .attributesOrValuesNotSupported
      | none =>
          if r.hasAttribute "print-quality" then .error .attributesOrValuesNotSupported
          else .ok none

/-- The settings of a request. Every refusal carries the same status, so the order of the
checks is not seen. -/
def jobSettings (r : Request) : Except Status PrintSettings := do
  let media ← r.media
  let color ← requestedColor r
  let duplex ← requestedDuplex r
  let copies ← requestedCopies r
  let orientation ← requestedOrientation r
  let quality ← requestedQuality r
  return { media, color, duplex, copies, orientation, quality }

end Endpoint

end ShaPrint
