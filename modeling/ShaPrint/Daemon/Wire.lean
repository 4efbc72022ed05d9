import ShaPrint.Cli.Arguments
import ShaPrint.Daemon.Messages

/-!
Control messages on the socket, `read_json_line`, `write_json_line`, `process_stream` and
`DaemonClient::send` of `adapters/daemon.rs`.

* `writeJsonLine`, `readJsonLine`: a message as a line, and the bounded reader.
* `readJsonLine_writeJsonLine`: the reader returns what was written exactly when the line is
  within its bound, which the writer does not know.
* `Daemon`, `processStream`, `send`: an exchange, where the daemon acts before it answers.
* `Survives`, `survives_iff`: an exchange delivers both messages exactly when both fit
  (`long_listing_reported_as_failed`).
-/

namespace ShaPrint.Daemon

open Json Cli Split

/-! ### Lines -/

/-- `serde_json::to_vec` and a line feed. -/
def writeJsonLine {α : Type*} [Serde α] (payload : α) : Bytes :=
  utf8 (compact (serialize payload)) ++ [10]

/-- Reads a line from what the other side sent. -/
def readJsonLine {α : Type*} [Serde α] (label : String) (stream : Bytes) : Except AppError α :=
  let line := readLine (stream.take (maxMessageBytes + 1))
  match fromUtf8 line with
  | none => .error (.internal s!"cannot read {label}: stream did not contain valid UTF-8")
  | some text =>
      if line = [] then .error (.invalidInput s!"empty {label}")
      else if maxMessageBytes < line.length then .error (.invalidInput s!"{label} is too large")
      else
        match (parse (trim text.toList)).bind deserialize with
        | some payload => .ok payload
        | none => .error (.invalidInput s!"invalid {label}")

/-- A message whose line is within the bound of the reader. -/
def Fits {α : Type*} [Serde α] (payload : α) : Prop :=
  (writeJsonLine payload).length ≤ maxMessageBytes

section

variable {α : Type*} [Serde α] {payload : α}

lemma lineFeed_not_mem (v : Value) : (10 : UInt8) ∉ utf8 (compact v) := by
  intro h
  have hmem : '\n' ∈ compact v := (Utf8.mem_encode_ascii (c := '\n') (by decide)).mp h
  have hprintable := printable_compact v '\n' hmem
  revert hprintable
  decide

/-- An object is no blank text, and the line feed after it is trimmed. -/
lemma trim_object (ms : List (String × Value)) :
    trim (compact (.object ms) ++ ['\n']) = compact (.object ms) := by
  obtain ⟨s, hs⟩ := exists_compact_object_eq ms
  have hopen : ¬ isWhitespace '{' = true := by decide
  have hclose : ¬ isWhitespace '}' = true := by decide
  have hfeed : isWhitespace '\n' = true := by decide
  rw [hs, trim, trimBoth, List.cons_append, List.dropWhile_cons_of_neg hopen]
  simp only [List.reverse_cons, List.reverse_append, List.reverse_nil, List.nil_append,
    List.cons_append, List.append_assoc]
  rw [List.dropWhile_cons_of_pos hfeed, List.dropWhile_cons_of_neg hclose]
  simp

/-- A message that fits is read back. -/
theorem readJsonLine_of_fits (label : String) (hobject : ∃ ms, serialize payload = .object ms)
    (hfits : Fits payload) : readJsonLine label (writeJsonLine payload) = .ok payload := by
  obtain ⟨ms, hms⟩ := hobject
  have hlength : (writeJsonLine payload).length ≤ maxMessageBytes := hfits
  have htake : (writeJsonLine payload).take (maxMessageBytes + 1) = writeJsonLine payload :=
    List.take_of_length_le (by omega)
  have hline : readLine (writeJsonLine payload) = writeJsonLine payload := by
    rw [writeJsonLine, readLine_append (lineFeed_not_mem _)]
  have htext : fromUtf8 (writeJsonLine payload)
      = some (.ofList (compact (serialize payload) ++ ['\n'])) := by
    rw [← fromUtf8_utf8, utf8, Utf8.encode_append]
    rfl
  have hne : writeJsonLine payload ≠ [] := List.concat_ne_nil _ _
  unfold readJsonLine
  dsimp only
  rw [htake, hline, htext]
  dsimp only
  rw [if_neg hne, if_neg (by omega), String.toList_ofList, hms, trim_object, parse_compact,
    Option.bind_some, ← hms, deserialize_serialize]

/-- A message that does not fit is refused by the reader. -/
theorem readJsonLine_of_not_fits (label : String) (hlong : ¬ Fits payload) :
    ∃ error, (readJsonLine label (writeJsonLine payload) : Except AppError α) = .error error := by
  have hlength : maxMessageBytes < (writeJsonLine payload).length := not_le.mp hlong
  have hline : maxMessageBytes
      < (readLine ((writeJsonLine payload).take (maxMessageBytes + 1))).length := by
    have hfeed := lineFeed_not_mem (serialize payload)
    rw [writeJsonLine, List.length_append, List.length_singleton] at hlength
    rcases Nat.lt_or_ge maxMessageBytes (utf8 (compact (serialize payload))).length with hlt | hge
    · rw [writeJsonLine, List.take_append_of_le_length (by omega),
        readLine_of_not_mem fun hmem => hfeed (List.mem_of_mem_take hmem), List.length_take]
      omega
    · rw [writeJsonLine, List.take_of_length_le (by simp; omega), readLine_append hfeed,
        List.length_append, List.length_singleton]
      omega
  unfold readJsonLine
  dsimp only
  split
  · exact ⟨_, rfl⟩
  · split
    · exact ⟨_, rfl⟩
    · exact ⟨_, rfl⟩

end

/-! ### Exchanges -/

def ControlResponse.isErr : ControlResponse → Bool
  | .err _ => true
  | _ => false

/-- What the daemon does for a request that it has read, over the states of the machine. An
error is answered only if a request fails. -/
structure ControlPlane (σ : Type) where
  handle : ControlRequest → σ → Except AppError ControlResponse × σ
  isErr_eq_false : ∀ {request s response}, (handle request s).1 = .ok response →
    response.isErr = false

/-- The answer to what became of a request. -/
def answer : Except AppError ControlResponse → ControlResponse
  | .ok response => response
  | .error error => .err (.ofError error)

/-- A client takes an error out of an answer. -/
def taken : ControlResponse → Except AppError ControlResponse
  | .err error => .error (appErrorFromDto error)
  | response => .ok response

/-- What becomes of a connection. -/
inductive Link where
  | up
  | unreachable (error : AppError)
  | lost (error : AppError)
  deriving DecidableEq

namespace ControlPlane

variable {σ : Type} (D : ControlPlane σ)

/-- The daemon reads a request, acts, and writes its answer. -/
def processStream (stream : Bytes) (s : σ) : Bytes × σ :=
  match readJsonLine "control request" stream with
  | .error error => (writeJsonLine (answer (.error error)), s)
  | .ok request => (writeJsonLine (answer (D.handle request s).1), (D.handle request s).2)

def send (link : Link) (request : ControlRequest) (s : σ) : Except AppError ControlResponse × σ :=
  match link with
  | .unreachable error => (.error error, s)
  | .lost error => (.error error, (D.processStream (writeJsonLine request) s).2)
  | .up =>
      let processed := D.processStream (writeJsonLine request) s
      ((readJsonLine "shaprintd response" processed.1).bind taken, processed.2)

end ControlPlane

/-! ### What survives -/

section

variable {σ : Type} (D : ControlPlane σ) (request : ControlRequest) (s : σ)

/-- An exchange delivers both messages: a client sees a failure only if the daemon did not
answer or its answer is one, and what the daemon acknowledged is not reported as failed. -/
structure Survives : Prop where
  requestRead : readJsonLine "control request" (writeJsonLine request) = .ok request
  answerRead : readJsonLine "shaprintd response" (writeJsonLine (answer (D.handle request s).1))
    = .ok (answer (D.handle request s).1)
  failure : ∀ link error, (D.send link request s).1 = .error error →
    link ≠ .up ∨ ∃ failed, (D.handle request s).1 = .error failed
  acknowledged : ∀ response, (D.handle request s).1 = .ok response →
    D.send .up request s = (.ok response, (D.handle request s).2)

variable {D request s}

lemma taken_of_isErr {response : ControlResponse} (h : response.isErr = false) :
    taken response = .ok response := by
  unfold taken
  split
  · cases h
  · rfl

/-- What a client gets of a request that the daemon read. -/
lemma send_up (hrequest : Fits request) :
    D.send .up request s
      = ((readJsonLine "shaprintd response" (writeJsonLine (answer (D.handle request s).1))).bind
        taken, (D.handle request s).2) := by
  have hread := readJsonLine_of_fits "control request" ⟨_, rfl⟩ hrequest
  unfold ControlPlane.send ControlPlane.processStream
  dsimp only
  rw [hread]

/-- **Control messages survive the socket exactly when they fit a line.** -/
theorem survives_iff :
    Survives D request s ↔ Fits request ∧ Fits (answer (D.handle request s).1) := by
  constructor
  · intro h
    constructor
    · by_contra hlong
      obtain ⟨error, herror⟩ := readJsonLine_of_not_fits "control request" hlong
      rw [h.requestRead] at herror
      cases herror
    · by_contra hlong
      obtain ⟨error, herror⟩ := readJsonLine_of_not_fits "shaprintd response" hlong
      rw [h.answerRead] at herror
      cases herror
  · rintro ⟨hrequest, hresponse⟩
    have hread := readJsonLine_of_fits "shaprintd response" ⟨_, rfl⟩ hresponse
    have hsend : D.send .up request s
        = (taken (answer (D.handle request s).1), (D.handle request s).2) := by
      rw [send_up hrequest, hread]
      rfl
    have hacknowledged : ∀ response, (D.handle request s).1 = .ok response →
        D.send .up request s = (.ok response, (D.handle request s).2) := by
      intro response hok
      rw [hsend, hok, answer, taken_of_isErr (D.isErr_eq_false hok)]
    refine ⟨readJsonLine_of_fits _ ⟨_, rfl⟩ hrequest, hread, ?_, hacknowledged⟩
    intro link error hfailed
    by_cases hup : link = .up
    · subst hup
      cases hhandle : (D.handle request s).1 with
      | error failed => exact .inr ⟨failed, rfl⟩
      | ok response =>
          rw [hacknowledged response hhandle] at hfailed
          cases hfailed
    · exact .inl hup

end

/-! ### A listing that does not fit -/

/-- A daemon that shares local printers, over their names and the shared selection. -/
def sharingPlane : ControlPlane (List Chars × List Chars) where
  handle
    | .setSharedPrinters printers, s =>
        (.ok (.localPrinters (s.1.map fun name => ⟨name, printers.contains name⟩)), (s.1, printers))
    | _, s => (.error (.unsupported "this daemon only shares printers"), s)
  isErr_eq_false h := by
    split at h
    · cases h
      rfl
    · cases h

/-- Every character has a byte. -/
lemma length_le_length_utf8 (s : Chars) : s.length ≤ (utf8 s).length := by
  induction s with
  | nil => exact le_rfl
  | cons c s ih =>
      have hpos : 0 < (String.utf8EncodeChar c).length := by
        rw [String.length_utf8EncodeChar]
        exact Char.utf8Size_pos c
      calc (c :: s).length = 1 + s.length := by rw [List.length_cons, Nat.add_comm]
        _ ≤ (String.utf8EncodeChar c).length + (utf8 s).length := by omega
        _ = (utf8 (c :: s)).length := (List.length_append).symm

/-- A listing is longer than the names in it. -/
lemma length_names_le (printers : List LocalPrinterDto) :
    (printers.map fun printer => printer.name.length).sum
      ≤ (compact (serialize (ControlResponse.localPrinters printers))).length := by
  have hitem : ∀ printer : LocalPrinterDto,
      printer.name.length ≤ (compact (serialize printer)).length := by
    intro printer
    have hname := length_le_length_quoted printer.name
    have hcompact : compact (serialize printer) = '{' :: '"' :: (quoted "name".toList
        ++ ':' :: ('"' :: quoted printer.name
          ++ compactMembers [("shared", .bool printer.shared)])) := rfl
    rw [hcompact]
    simp only [List.length_cons, List.length_append]
    omega
  have hitems : ∀ printers : List LocalPrinterDto,
      (printers.map fun printer => printer.name.length).sum
        ≤ (compactItems (printers.map serialize)).length := by
    intro printers
    induction printers with
    | nil => exact Nat.zero_le _
    | cons printer printers ih =>
        have hprinter := hitem printer
        rw [List.map_cons, List.map_cons, List.sum_cons, compactItems, List.length_cons,
          List.length_append]
        omega
  have hmessage : compact (serialize (ControlResponse.localPrinters printers))
      = '{' :: '"' :: (quoted "result".toList ++ ':' :: ('"' :: quoted "local-printers".toList
        ++ compactMembers [("printers", serialize printers)])) := rfl
  have hlisting : (compact (serialize printers)).length
      ≤ (compact (serialize (ControlResponse.localPrinters printers))).length := by
    rw [hmessage]
    simp only [compactMembers, List.length_cons, List.length_append]
    omega
  refine le_trans ?_ hlisting
  cases printers with
  | nil => exact Nat.zero_le _
  | cons printer printers =>
      have hprinter := hitem printer
      have hrest := hitems printers
      have harray : compact (serialize (printer :: printers))
          = '[' :: (compact (serialize printer) ++ compactItems (printers.map serialize)) := rfl
      rw [harray, List.map_cons, List.sum_cons, List.length_cons, List.length_append]
      omega

/-- Names of printers with a long common part. -/
def printerNames : List Chars :=
  (List.range 50).map fun i => List.replicate 180 'a' ++ Digits.decimal i

/-- The names alone are longer than a message may be. -/
lemma length_printerNames : maxMessageBytes < (printerNames.map List.length).sum := by
  decide +kernel

/-- The daemon clears the shared selection and acknowledges it, and the client reports a
failure. -/
theorem long_listing_reported_as_failed :
    (∃ response, (sharingPlane.handle (.setSharedPrinters []) (printerNames, printerNames)).1
        = .ok response)
      ∧ (sharingPlane.send .up (.setSharedPrinters []) (printerNames, printerNames)).2
        = (printerNames, [])
      ∧ (∃ error, (sharingPlane.send .up (.setSharedPrinters []) (printerNames, printerNames)).1
        = .error error)
      ∧ ¬ Survives sharingPlane (.setSharedPrinters []) (printerNames, printerNames) := by
  have hrequest : Fits (ControlRequest.setSharedPrinters []) := by
    unfold Fits
    decide +kernel
  have hlong : ¬ Fits (answer (sharingPlane.handle (.setSharedPrinters [])
      (printerNames, printerNames)).1) := by
    have hlength : maxMessageBytes < (compact (serialize (answer (sharingPlane.handle
        (.setSharedPrinters []) (printerNames, printerNames)).1))).length := by
      have hnames := length_names_le (printerNames.map fun name => ⟨name, [].contains name⟩)
      rw [List.map_map] at hnames
      exact length_printerNames.trans_le hnames
    intro hfits
    have hbytes := length_le_length_utf8 (compact (serialize (answer (sharingPlane.handle
      (.setSharedPrinters []) (printerNames, printerNames)).1)))
    unfold Fits writeJsonLine at hfits
    rw [List.length_append, List.length_singleton] at hfits
    omega
  obtain ⟨error, herror⟩ := readJsonLine_of_not_fits "shaprintd response" hlong
  refine ⟨⟨_, rfl⟩, ?_, ⟨error, ?_⟩, fun h => ?_⟩
  · rw [send_up hrequest]
    rfl
  · rw [send_up hrequest, herror]
    rfl
  · rw [h.answerRead] at herror
    cases herror

end ShaPrint.Daemon
