import ShaPrint.Domain.Error
import ShaPrint.Endpoint.ReadHead

/-!
One exchange on a connection of the endpoint, `answer_request_with_store` of `adapters/ipps/mod.rs`:
the request that is read off the stream, and the response that is written around an answer.

* `admission`: the head, the length, the lease, the body and the authority, in the order they are
  asked for, and what is written when one of them is missing.
* `httpResponse`: `write_response`.
* `headOf`, `firstBlank_headOf`: a head of lines ends at its blank line.
* `splitOnce_headOf`: the first empty line of a response is the one its head ends with.
-/

namespace ShaPrint.Endpoint

open Split Digits

/-! ### Responses -/

/-- The status line the endpoint answers with. -/
def HttpError.statusLine : HttpError → Chars
  | methodNotAllowed => "405 Method Not Allowed".toList
  | lengthRequired => "411 Length Required".toList
  | tooLarge => "413 Payload Too Large".toList
  | unsupportedTransferEncoding => "501 Not Implemented".toList
  | malformed => "400 Bad Request".toList

/-- One response. -/
def httpResponse (statusLine contentType : Chars) (body : Bytes) : Bytes :=
  utf8 ("HTTP/1.1 ".toList ++ statusLine ++ "\r\nContent-Type: ".toList ++ contentType
    ++ "\r\nContent-Length: ".toList ++ decimal body.length
    ++ "\r\nConnection: close\r\n\r\n".toList) ++ body

/-- A response without a body. -/
def refusedResponse (statusLine : Chars) : Bytes := httpResponse statusLine "text/plain".toList []

/-- The response around an answer. -/
def answerResponse (answer : Bytes) : Bytes :=
  httpResponse "200 OK".toList "application/ipp".toList answer

/-! ### Requests -/

/-- Whether the client waits for the endpoint's permission before sending the body. -/
def Head.expectsContinue (head : Head) : Bool :=
  (head.header "expect".toList).any fun value =>
    eqIgnoreAsciiCase (trim value) "100-continue".toList

def unreadableBody : AppError := .invalidInput "unreadable request body"

/-- What has been written when a request is acted upon, or instead. -/
inductive Admission where
  | refused (written : Bytes)
  | failed (written : Bytes) (error : AppError)
  | admitted (written bytes : Bytes) (host : Chars)
  deriving DecidableEq

/-- A request, up to the call of `answer_job`; `leased` is what `try_acquire_request` returns. -/
def admission (leased : Bool) (t : Transport) : Admission :=
  match readHead t with
  | .error e => .refused (refusedResponse e.statusLine)
  | .ok (head, rest) =>
      match bodyLength head with
      | .error e => .refused (refusedResponse e.statusLine)
      | .ok length =>
          if !leased then .refused (refusedResponse "503 Service Unavailable".toList)
          else
            let interim := if head.expectsContinue then
              utf8 "HTTP/1.1 100 Continue\r\n\r\n".toList else []
            if rest.length < length then .failed interim unreadableBody
            else
              match authority head with
              | none => .refused (interim ++ refusedResponse "400 Bad Request".toList)
              | some host => .admitted interim (rest.take length) host

/-! ### Heads of lines -/

/-- A head of the given lines. -/
def headOf (lines : List Chars) : Chars := lines.flatMap (· ++ "\r\n".toList) ++ "\r\n".toList

/-- The bytes of a line. -/
def lineBytes (line : Chars) : Bytes := utf8 line ++ [13]

/-- Lines of a head are finished, and not blank. -/
def AreLines (lines : List Chars) : Prop := ∀ line ∈ lines, '\n' ∉ line ∧ line ≠ []

lemma utf8_crlf : utf8 "\r\n".toList = [13, 10] := by decide

lemma utf8_append (s t : Chars) : utf8 (s ++ t) = utf8 s ++ utf8 t := Utf8.encode_append s t

lemma utf8_flatMap (lines : List Chars) :
    utf8 (lines.flatMap (· ++ "\r\n".toList)) = joinLines (lines.map lineBytes) := by
  induction lines with
  | nil => rfl
  | cons line lines ih =>
      rw [List.flatMap_cons, utf8_append, utf8_append, ih, utf8_crlf]
      simp [joinLines, lineBytes]

lemma utf8_headOf (lines : List Chars) :
    utf8 (headOf lines) = joinLines (lines.map lineBytes) ++ [13, 10] := by
  rw [headOf, utf8_append, utf8_flatMap, utf8_crlf]

lemma isLines_map {lines : List Chars} (h : AreLines lines) : IsLines (lines.map lineBytes) := by
  intro bytes hbytes
  obtain ⟨line, hline, rfl⟩ := List.mem_map.mp hbytes
  obtain ⟨hfeed, hne⟩ := h line hline
  have hten : (10 : UInt8) ∉ utf8 line := fun hmem =>
    hfeed ((Utf8.mem_encode_ascii (c := '\n') (by decide)).mp hmem)
  refine ⟨fun hmem => ?_, fun hblank => ?_⟩
  · rcases List.mem_append.mp hmem with hmem | hmem
    · exact hten hmem
    · exact absurd hmem (by decide)
  · have hnil : utf8 line = [] := by
      rcases hblank with hblank | hblank
      · exact absurd hblank (List.append_ne_nil_of_right_ne_nil _ (List.cons_ne_nil _ _))
      · exact List.append_left_eq_self.mp hblank
    exact hne (Utf8.encode_injective hnil)

/-- A head ends at its blank line, whatever follows it. -/
lemma firstBlank_headOf {lines : List Chars} (h : AreLines lines) (rest : Bytes) :
    FirstBlank (utf8 (headOf lines) ++ rest) (utf8 (headOf lines)).length := by
  refine ⟨lines.map lineBytes, [13], rest, isLines_map h, .inr rfl, ?_, ?_⟩
  · rw [utf8_headOf, List.append_assoc]
    rfl
  · rw [utf8_headOf]
    simp only [List.length_append, List.length_cons, List.length_nil]

/-! ### The end of a head -/

/-- What follows the last line feed before a carriage return is a blank line. -/
lemma isBlank_of_append {before lines line : Bytes} (hfree : 10 ∉ line)
    (h : before ++ [13, 10] ++ [13] = lines ++ line) : IsBlank line := by
  rcases List.append_eq_append_iff.mp h with ⟨x, -, hx⟩ | ⟨x, hx, rfl⟩
  · -- the line begins with the carriage return, or after it
    cases x with
    | nil => exact .inr hx.symm
    | cons c x =>
        have hnil : x ++ line = [] := (List.cons.inj hx).2.symm
        exact .inl (List.append_eq_nil_iff.mp hnil).2
  · rcases List.eq_nil_or_concat x with rfl | ⟨x, last, rfl⟩
    · exact .inr rfl
    · -- it would hold the line feed
      rw [List.concat_eq_append, ← List.append_assoc] at hx
      have hlast : before ++ [13] ++ [10] = lines ++ x ++ [last] := by simpa using hx
      obtain ⟨-, hten⟩ := List.append_inj' hlast rfl
      obtain rfl : 10 = last := (List.cons.inj hten).1
      exact absurd (by simp) hfree

/-- A stream that ends in an empty line has a blank line. -/
lemma not_unended_crlf {before : Bytes} {lineStart : ℕ} :
    ¬ Unended (before ++ [13, 10, 13, 10]) lineStart := by
  rintro ⟨lines, tail, hlines, htail, heq, -⟩
  have hstream : before ++ [13, 10] ++ [13] ++ [10] = joinLines lines ++ tail := by
    simpa using heq
  rcases List.eq_nil_or_concat tail with rfl | ⟨tail, last, rfl⟩
  · rcases List.eq_nil_or_concat lines with rfl | ⟨lines, line, rfl⟩
    · simp at hstream
    have hlast : before ++ [13, 10] ++ [13] ++ [10] = joinLines lines ++ line ++ [10] := by
      simpa [joinLines] using hstream
    obtain ⟨hfree, hblank⟩ := hlines line (by simp)
    exact hblank (isBlank_of_append hfree (List.append_inj' hlast rfl).1)
  · rw [List.concat_eq_append, ← List.append_assoc] at hstream
    obtain rfl : 10 = last := (List.cons.inj (List.append_inj' hstream rfl).2).1
    exact htail (by simp)

/-- A head ends at the first empty line that follows a line. -/
lemma FirstBlank.le_of_crlf {before after : Bytes} {stop : ℕ}
    (h : FirstBlank (before ++ [13, 10, 13, 10] ++ after) stop) : stop ≤ before.length + 4 := by
  rcases firstBlank_or_unended (before ++ [13, 10, 13, 10]) with ⟨stop', hstop'⟩ | ⟨start, hopen⟩
  · rw [h.unique (hstop'.append after)]
    have hle := hstop'.le
    rwa [List.length_append] at hle
  · exact absurd hopen not_unended_crlf

/-- The first empty line of a message is the one that its head ends with. -/
lemma splitOnce_headOf {lines : List Chars} {line : Chars} (h : AreLines (lines ++ [line]))
    (body : Bytes) :
    splitOnce (utf8 (headOf (lines ++ [line])) ++ body) (utf8 "\r\n\r\n".toList)
      = some (joinLines (lines.map lineBytes) ++ utf8 line, body) := by
  have hsep : utf8 "\r\n\r\n".toList = [13, 10, 13, 10] := by decide
  have hhead : utf8 (headOf (lines ++ [line]))
      = joinLines (lines.map lineBytes) ++ utf8 line ++ [13, 10, 13, 10] := by
    rw [utf8_headOf, List.map_append, joinLines_append]
    simp [joinLines, lineBytes]
  have hblank := firstBlank_headOf h body
  rw [hsep, splitOnce_eq_some, hhead]
  refine ⟨rfl, fun before after heq => ?_⟩
  rw [hhead] at hblank
  rw [heq] at hblank
  have hle := hblank.le_of_crlf
  rw [List.length_append] at hle
  exact Nat.le_of_add_le_add_right hle

/-- A response, by its lines. -/
lemma httpResponse_eq (statusLine contentType : Chars) (body : Bytes) :
    httpResponse statusLine contentType body = utf8 (headOf (["HTTP/1.1 ".toList ++ statusLine,
        "Content-Type: ".toList ++ contentType, "Content-Length: ".toList ++ decimal body.length]
      ++ ["Connection: close".toList])) ++ body := by
  have h1 : ("\r\nContent-Type: ".toList : Chars) = "\r\n".toList ++ "Content-Type: ".toList := by
    decide
  have h2 : ("\r\nContent-Length: ".toList : Chars)
      = "\r\n".toList ++ "Content-Length: ".toList := by
    decide
  have h3 : ("\r\nConnection: close\r\n\r\n".toList : Chars)
      = "\r\n".toList ++ "Connection: close".toList ++ "\r\n".toList ++ "\r\n".toList := by
    decide
  unfold httpResponse headOf
  rw [h1, h2, h3]
  simp only [List.cons_append, List.nil_append, List.flatMap_cons, List.flatMap_nil,
    List.append_assoc]

end ShaPrint.Endpoint
