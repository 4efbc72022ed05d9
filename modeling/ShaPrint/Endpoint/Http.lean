import ShaPrint.Text

/-!
The head of an HTTP request, as `adapters/ipps/http.rs` reads it.

* `parseHead`: the request line and the headers of a raw head.
* `Head.header`: the lookup of a header, without regard to letter case.
* `authority`: the `Host` that the endpoint takes for its own authority.
* `splitOn_crlf`: lines that end in CRLF are read off a head one by one.
-/

namespace ShaPrint.Endpoint

open Split

/-- Why a request was refused before any IPP was read. -/
inductive HttpError where
  | methodNotAllowed
  | lengthRequired
  | tooLarge
  | unsupportedTransferEncoding
  | malformed
  deriving DecidableEq

/-- A request head the endpoint can act on. -/
structure Head where
  method : Chars
  path : Chars
  headers : List (Chars × Chars)
  deriving DecidableEq

/-- Case-insensitive header lookup, as HTTP requires. -/
def Head.header (head : Head) (name : Chars) : Option Chars :=
  (head.headers.find? fun header => eqIgnoreAsciiCase header.1 name).map (·.2)

/-- The words of a line. -/
def splitWhitespace (line : Chars) : List Chars :=
  (line.splitOnP isWhitespace).filter (· ≠ [])

/-- The headers, up to the first empty line. -/
def parseHeaders : List Chars → Except HttpError (List (Chars × Chars))
  | [] => .ok []
  | line :: lines =>
      if line = [] then .ok []
      else
        match splitOnce line [':'] with
        | none => .error .malformed
        | some (name, value) => (parseHeaders lines).map ((trim name, trim value) :: ·)

/-- `strip_suffix('\r')`, where it applies. -/
def stripCr (line : Chars) : Chars := (line.dropSuffix? ['\r']).getD line

/-- Turns the raw head into a request line and its headers. -/
def parseHead (head : Bytes) : Except HttpError Head :=
  match ((fromUtf8Lossy head).splitOn '\n').map stripCr with
  | [] => .error .malformed
  | requestLine :: lines =>
      match splitWhitespace requestLine with
      | method :: path :: version :: _ =>
          if !"HTTP/".toList.isPrefixOf version then .error .malformed
          else (parseHeaders lines).map fun headers => ⟨method, path, headers⟩
      | _ => .error .malformed

/-- The authority a client addressed the endpoint by. -/
def authority (head : Head) : Option Chars :=
  (head.header "host".toList).bind fun host => if trim host ≠ [] then some (trim host) else none

/-! ### Lines -/

lemma stripCr_concat (line : Chars) : stripCr (line ++ ['\r']) = line := by
  rw [stripCr, dropSuffix?_eq_some.mpr rfl, Option.getD_some]

/-- A line that ends in CRLF is read off a text. -/
lemma splitOn_crlf {line rest : Chars} (h : '\n' ∉ line) :
    ((line ++ "\r\n".toList ++ rest).splitOn '\n').map stripCr
      = line :: (rest.splitOn '\n').map stripCr := by
  have htext : line ++ "\r\n".toList ++ rest = (line ++ ['\r']) ++ '\n' :: rest := by
    rw [show ("\r\n".toList : Chars) = ['\r', '\n'] by decide]
    simp
  have hcr : '\n' ∉ line ++ ['\r'] := by
    rw [List.mem_append, not_or]
    exact ⟨h, by decide⟩
  rw [htext, splitOn_append_cons hcr, List.map_cons, stripCr_concat]

/-- A header line is read as its name and its value. -/
lemma parseHeaders_cons {name value : Chars} {lines : List Chars} (h : ':' ∉ name) :
    parseHeaders ((name ++ ':' :: value) :: lines)
      = (parseHeaders lines).map ((trim name, trim value) :: ·) := by
  have hsplit : splitOnce (name ++ ':' :: value) [':'] = some (name, value) :=
    splitOnce_singleton.mpr ⟨rfl, h⟩
  rw [parseHeaders, if_neg (by simp), hsplit]

end ShaPrint.Endpoint
