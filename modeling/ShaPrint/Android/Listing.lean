import ShaPrint.Android.IppMessage
import ShaPrint.Client.PrinterList

/-!
The printer listing of the endpoint, as its three readers see it: the desktop client, the
Android client and the endpoint's own request decoder.

* `parsePrinters_response`, `parseResponse_response`, `parse_response`: one reader each.
* `listing_agrees`: all of them read exactly the printers that were written.
-/

namespace ShaPrint.Android

open Ipp Endpoint Client

section

variable (sha256 : Bytes → Vector UInt8 32) (upTime : ℤ)

/-- The names of a listing. -/
def listedNames (printers : List PrinterEntry) : List String :=
  printers.map fun printer => String.ofList printer.name

/-- A response is its header, the operation group and the groups of the printers. -/
lemma response_eq (requestId : ℕ) (version : UInt8 × UInt8) (status : Status)
    (printers : List PrinterEntry) :
    response sha256 upTime requestId version status printers
      = responseHeader requestId version status
        ++ (operationGroup.bytes
          ++ ((printers.map (printerGroup sha256 upTime false)).flatMap Group.bytes
            ++ [Tag.endOfAttributes])) := by
  simp only [response, buildResponse, message, List.flatMap_cons, List.append_assoc]

lemma operationGroup_ok : operationGroup.Ok := by
  refine ⟨by decide, ?_⟩
  decide +kernel

lemma quiet_operationGroup : Quiet operationGroup.values := by decide +kernel

lemma groups_ok {printers : List PrinterEntry}
    (h : ∀ printer ∈ printers, printer.Writable) :
    ∀ g ∈ printers.map (printerGroup sha256 upTime false), g.Ok := by
  intro g hg
  obtain ⟨printer, hprinter, rfl⟩ := List.mem_map.mp hg
  exact (h printer hprinter).group_ok sha256 upTime false

/-! ### The desktop client -/

/-- Collecting names that are new and not empty keeps all of them. -/
lemma foldl_pushName {names new : List String} (hnodup : (names ++ new).Nodup)
    (hne : ∀ name ∈ new, name ≠ "") : new.foldl pushName names = names ++ new := by
  induction new generalizing names with
  | nil => rw [List.foldl_nil, List.append_nil]
  | cons name new ih =>
      have hname : name ∉ names := by
        intro hmem
        exact (List.nodup_append.mp hnodup).2.2 name hmem name (by simp) rfl
      have hpush : pushName names name = names ++ [name] := if_pos ⟨hne name (by simp), hname⟩
      rw [List.append_cons] at hnodup
      rw [List.foldl_cons, hpush, ih hnodup fun n hn => hne n (by simp [hn]), ← List.append_cons]

lemma parsePrintersLoop_groups (names : List String) (inPrinter : Bool)
    {printers : List PrinterEntry} (h : ∀ printer ∈ printers, printer.Writable) :
    parsePrintersLoop names inPrinter
        ((printers.map (printerGroup sha256 upTime false)).flatMap Group.bytes
          ++ [Tag.endOfAttributes])
      = .ok ((listedNames printers).foldl pushName names) := by
  induction printers generalizing names inPrinter with
  | nil => exact parsePrintersLoop_end names inPrinter []
  | cons printer printers ih =>
      rw [List.map_cons, List.flatMap_cons, List.append_assoc,
        parsePrintersLoop_group sha256 upTime names inPrinter (h printer (by simp))]
      exact ih _ _ fun p hp => h p (by simp [hp])

/-- The names of a listing are not empty. -/
lemma ne_empty_of_mem_listedNames {printers : List PrinterEntry}
    (h : ∀ printer ∈ printers, printer.Writable) : ∀ name ∈ listedNames printers, name ≠ "" := by
  intro name hname hempty
  obtain ⟨printer, hprinter, rfl⟩ := List.mem_map.mp hname
  obtain ⟨checked, hchecked⟩ := (h printer hprinter).name
  have hnil : printer.name = [] := by
    have := congrArg String.toList hempty
    rwa [String.toList_ofList] at this
  exact checked.chars_ne_nil (hchecked ▸ hnil)

lemma nodup_listedNames {printers : List PrinterEntry}
    (hnodup : (printers.map (·.name)).Nodup) : (listedNames printers).Nodup := by
  have hmap : listedNames printers = (printers.map (·.name)).map String.ofList := by
    simp only [listedNames, List.map_map, Function.comp_def]
  rw [hmap]
  exact hnodup.map fun a b h => String.ofList_injective h

/-- The desktop client reads the names of the listing, in order. -/
theorem parsePrinters_response (requestId : ℕ) (version : UInt8 × UInt8)
    {printers : List PrinterEntry} (h : ∀ printer ∈ printers, printer.Writable)
    (hnodup : (printers.map (·.name)).Nodup) :
    parsePrinters (response sha256 upTime requestId version .ok printers)
      = .ok (listedNames printers) := by
  have hfold : (listedNames printers).foldl pushName [] = [] ++ listedNames printers :=
    foldl_pushName (nodup_listedNames hnodup) (ne_empty_of_mem_listedNames h)
  have hloop : parsePrintersLoop [] false
      (operationGroup.bytes ++ ((printers.map (printerGroup sha256 upTime false)).flatMap
        Group.bytes ++ [Tag.endOfAttributes])) = .ok (listedNames printers) := by
    rw [Group.bytes, List.cons_append, parsePrintersLoop_delimiter _ _ operationGroup_ok.1,
      parsePrintersLoop_quiet _ _ quiet_operationGroup, parsePrintersLoop_groups sha256 upTime _ _ h,
      hfold, List.nil_append]
  rw [response_eq]
  generalize hbody : operationGroup.bytes ++ _ = body at hloop ⊢
  have hlen : ¬((responseHeader requestId version .ok ++ body).length < 9) := by
    have : 1 ≤ body.length := by
      rw [← hbody, Group.bytes]
      simp
    have hheader : (responseHeader requestId version .ok).length = 8 := rfl
    rw [List.length_append, hheader]
    omega
  have hstatus : BigEndian.ofBe16 ((responseHeader requestId version .ok ++ body).getD 2 0)
      ((responseHeader requestId version .ok ++ body).getD 3 0) = 0 := rfl
  unfold parsePrinters
  rw [if_neg hlen, if_neg (not_not.mpr hstatus)]
  exact hloop

/-! ### The Android client -/

lemma parseLoop_groups (address : String) {s : ParseState}
    (hlast : s.lastAttributeName ≠ "printer-name") {printers : List PrinterEntry}
    (h : ∀ printer ∈ printers, printer.Writable) :
    (parseLoop address s ((printers.map (printerGroup sha256 upTime false)).flatMap Group.bytes
        ++ [Tag.endOfAttributes])).printers.map (·.name) = s.names ++ listedNames printers := by
  induction printers generalizing s with
  | nil =>
      rw [List.map_nil, List.flatMap_nil, List.nil_append, parseLoop_end,
        ParseState.names_commitCurrentPrinter]
      exact (List.append_nil _).symm
  | cons printer printers ih =>
      rw [List.map_cons, List.flatMap_cons, List.append_assoc]
      obtain ⟨t, hnames, hlast', hloop⟩ :=
        parseLoop_group sha256 upTime address hlast (h printer (by simp)) _
      rw [hloop, ih hlast' fun p hp => h p (by simp [hp]), hnames, List.append_assoc]
      rfl

/-- The Android client reads printers with the names of the listing, in order. -/
theorem parseResponse_response (requestId : ℕ) (version : UInt8 × UInt8) (address : String)
    {printers : List PrinterEntry} (h : ∀ printer ∈ printers, printer.Writable) :
    (parseResponse (response sha256 upTime requestId version .ok printers) address).printers.map
      (·.name) = listedNames printers := by
  have hlast : (ParseState.new.enterGroup address operationGroup.tag).lastAttributeName
      ≠ "printer-name" := show "" ≠ "printer-name" by decide
  obtain ⟨t, ht, hloop⟩ := parseLoop_quiet address quiet_operationGroup hlast
    ((printers.map (printerGroup sha256 upTime false)).flatMap Group.bytes
      ++ [Tag.endOfAttributes])
  have hnames : t.names = [] := ht.names.trans (ParseState.names_enterGroup _ address _)
  have hread : (parseLoop address .new (operationGroup.bytes
      ++ ((printers.map (printerGroup sha256 upTime false)).flatMap Group.bytes
        ++ [Tag.endOfAttributes]))).printers.map (·.name) = listedNames printers := by
    rw [Group.bytes, List.cons_append, parseLoop_delimiter _ _ operationGroup_ok.1, hloop,
      parseLoop_groups sha256 upTime address ht.lastAttributeName h, hnames, List.nil_append]
  rw [response_eq]
  exact hread

/-! ### The request decoder -/

/-- The endpoint's own decoder accepts the listing. -/
theorem parse_response (requestId : ℕ) (version : UInt8 × UInt8)
    {printers : List PrinterEntry} (h : ∀ printer ∈ printers, printer.Writable) :
    ∃ request, Request.parse (response sha256 upTime requestId version .ok printers)
      = .ok request := by
  have hnamed : ∀ w ∈ operationGroup.values, w.Named := by decide +kernel
  have hne : operationGroup.values.map Written.toAttribute ≠ [] := by decide
  obtain ⟨attributes, hloop⟩ := exists_parseLoop_groups hne (groups_ok sha256 upTime h)
    [Tag.endOfAttributes]
  have hread : Ipp.parseLoop [] (operationGroup.bytes
      ++ ((printers.map (printerGroup sha256 upTime false)).flatMap Group.bytes
        ++ [Tag.endOfAttributes])) = .ok (attributes, some []) := by
    rw [Group.bytes, List.cons_append, Ipp.parseLoop_delimiter _ _ operationGroup_ok.1,
      parseLoop_named _ operationGroup_ok.2 hnamed, List.nil_append, hloop, Ipp.parseLoop_end]
  obtain ⟨r, hr, -⟩ := parse_header version.1 version.2 Status.ok.code requestId hread
  rw [response_eq]
  exact ⟨r, hr⟩

end

/-- Every listing of printers with different names is read by all three readers as it was
written. -/
theorem listing_agrees (sha256 : Bytes → Vector UInt8 32) (upTime : ℤ) (requestId : ℕ)
    (version : UInt8 × UInt8) (address : String) {printers : List PrinterEntry}
    (h : ∀ printer ∈ printers, printer.Writable) (hnodup : (printers.map (·.name)).Nodup) :
    parsePrinters (response sha256 upTime requestId version .ok printers)
        = .ok (listedNames printers)
      ∧ (parseResponse (response sha256 upTime requestId version .ok printers)
          address).printers.map (·.name) = listedNames printers
      ∧ ∃ request, Request.parse (response sha256 upTime requestId version .ok printers)
          = .ok request :=
  ⟨parsePrinters_response sha256 upTime requestId version h hnodup,
    parseResponse_response sha256 upTime requestId version address h,
    parse_response sha256 upTime requestId version h⟩

/-- The hash on the names of the two printers below. -/
def listedHash (bytes : Bytes) : Vector UInt8 32 :=
  if bytes = asBytes "shaprint-printer-uuid:Zebra" then #v[
    231, 245, 119, 161, 225, 88, 29, 234, 125, 222, 204, 90, 214, 52, 253, 29, 73, 74, 158, 252,
    23, 172, 16, 45, 137, 210, 122, 104, 174, 75, 91, 144]
  else #v[
    60, 169, 66, 202, 195, 8, 3, 57, 63, 97, 225, 198, 108, 83, 85, 170, 117, 238, 193, 16, 213,
    67, 211, 168, 148, 219, 53, 65, 4, 160, 149, 48]

def zebraPrinter : PrinterName := ⟨"Zebra ZD421", by decide, by decide, by decide, by decide⟩

/-- A printer that is named like the attribute that carries the name. -/
def attributePrinter : PrinterName :=
  ⟨"printer-name", by decide, by decide, by decide, by decide⟩

def confusingPrinters : List PrinterEntry :=
  [entry "192.168.1.2:48631".toList zebraPrinter true,
    entry "192.168.1.2:48631".toList attributePrinter true]

theorem confusingPrinters_listing_agrees :
    parsePrinters (response listedHash 40 1 (2, 0) .ok confusingPrinters)
        = .ok ["Zebra ZD421", "printer-name"]
      ∧ (parseResponse (response listedHash 40 1 (2, 0) .ok confusingPrinters)
          "192.168.1.2:48631").printers.map (·.name) = ["Zebra ZD421", "printer-name"]
      ∧ ∃ request, Request.parse (response listedHash 40 1 (2, 0) .ok confusingPrinters)
          = .ok request := by
  have hhost : (utf8 "192.168.1.2:48631".toList).length ≤ 8 * 1024 := by decide
  refine listing_agrees listedHash 40 1 (2, 0) "192.168.1.2:48631" (fun printer hprinter => ?_)
    (by decide)
  simp only [confusingPrinters, List.mem_cons, List.not_mem_nil, or_false] at hprinter
  rcases hprinter with rfl | rfl
  · exact entry_writable hhost _ true
  · exact entry_writable hhost _ true

end ShaPrint.Android
