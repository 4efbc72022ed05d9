import ShaPrint.Domain.Error
import ShaPrint.Lib.Digits
import ShaPrint.Text

/-!
The chunked bodies of requests to the client proxy, from `adapters/client_proxy.rs`.

* `readUntil`: a line of a bounded reader.
* `parseChunkSize`: the size at the front of a line.
* `skipTrailers`, `readChunks`, `readChunkedBody`: the loops over trailers and chunks.
* `SizeLine`, `Chunk`, `Framing`: the lines of an encoding, its chunks, and everything about an
  encoding but the data; `Framing.encode` is the encoding.
-/

namespace ShaPrint.Client

open Digits

/-! ### Reading lines -/

/-- `reader.take(limit).read_until(b'\n', …)`: what is read, and what is left. -/
def readUntil : ℕ → Bytes → Bytes × Bytes
  | 0, stream => ([], stream)
  | _ + 1, [] => ([], [])
  | limit + 1, b :: stream =>
      if b = 10 then ([10], stream)
      else
        let read := readUntil limit stream
        (b :: read.1, read.2)

/-- A line that ends within the limit is read to its end, and a longer one is cut. -/
lemma readUntil_line {line : Bytes} (h : (10 : UInt8) ∉ line) (limit : ℕ) (rest : Bytes) :
    readUntil limit (line ++ 10 :: rest)
      = if line.length < limit then (line ++ [10], rest)
        else (line.take limit, line.drop limit ++ 10 :: rest) := by
  induction line generalizing limit with
  | nil =>
      cases limit with
      | zero => rfl
      | succ limit => rfl
  | cons b line ih =>
      obtain ⟨hb, hline⟩ := not_or.mp (mt List.mem_cons.mpr h)
      cases limit with
      | zero => rfl
      | succ limit =>
          rw [List.cons_append, readUntil, if_neg (Ne.symm hb), ih hline limit]
          by_cases hlt : line.length < limit
          · rw [if_pos hlt, if_pos (by rw [List.length_cons]; omega)]
            rfl
          · rw [if_neg hlt, if_neg (by rw [List.length_cons]; omega)]
            rfl

/-- Without a line feed, everything up to the limit is read. -/
lemma readUntil_of_not_mem {stream : Bytes} (h : (10 : UInt8) ∉ stream) (limit : ℕ) :
    readUntil limit stream = (stream.take limit, stream.drop limit) := by
  induction stream generalizing limit with
  | nil => cases limit <;> rfl
  | cons b stream ih =>
      obtain ⟨hb, hstream⟩ := not_or.mp (mt List.mem_cons.mpr h)
      cases limit with
      | zero => rfl
      | succ limit =>
          rw [readUntil, if_neg (Ne.symm hb), ih hstream limit]
          rfl

lemma readUntil_length (limit : ℕ) (stream : Bytes) :
    (readUntil limit stream).1.length + (readUntil limit stream).2.length = stream.length := by
  fun_induction readUntil limit stream with
  | case1 => simp
  | case2 => rfl
  | case3 => simp [Nat.add_comm]
  | case4 limit b stream hb read ih =>
      change read.1.length + read.2.length = stream.length at ih
      dsimp only
      rw [List.length_cons, List.length_cons]
      omega

/-! ### Chunk sizes -/

/-- `usize::from_str_radix(…, 16)` -/
def fromHex (s : Chars) : Option ℕ :=
  let digits := (s.dropPrefix? ['+']).getD s
  if digits ≠ [] ∧ digits.all (isDigitOf 16) = true ∧ valueOf 16 digits < 2 ^ 64 then
    some (valueOf 16 digits)
  else none

/-- The size that a line begins with, from its text. -/
def sizeText (line : Chars) : Chars := trim ((trim line).takeWhile (· ≠ ';'))

def parseChunkSize (line : Bytes) : Except AppError ℕ :=
  match fromUtf8 line with
  | none => .error (.invalidInput "Chunk size header not valid UTF-8.")
  | some text =>
      match fromHex (sizeText text.toList) with
      | some size => .ok size
      | none =>
          let size := String.ofList (sizeText text.toList)
          .error (.invalidInput s!"Invalid chunk size: {size}")

/-! ### The loops -/

def maxHeadBytes : ℕ := 8 * 1024

def maxBodyBytes : ℕ := 64 * 1024 * 1024

/-- Longest line of a chunk size. -/
def maxSizeBytes : ℕ := 1024

/-- The empty line behind the trailers, and nothing at the end of the stream. -/
def endsTrailers (line : Bytes) : Bool := line == [] || line == [13, 10] || line == [10]

/-- Reads trailing headers until an empty line; what is left of the stream. -/
def skipTrailers (stream : Bytes) : Bytes :=
  if endsTrailers (readUntil maxHeadBytes stream).1 then (readUntil maxHeadBytes stream).2
  else skipTrailers (readUntil maxHeadBytes stream).2
termination_by stream.length
decreasing_by
  rename_i h
  have hlength := readUntil_length maxHeadBytes stream
  have hpos : 0 < (readUntil maxHeadBytes stream).1.length := by
    refine List.length_pos_of_ne_nil ?_
    intro hnil
    rw [hnil] at h
    exact h rfl
  omega

/-- The loop over the chunks, with the body so far. -/
def readChunks (body stream : Bytes) : Except AppError (Bytes × Bytes) :=
  if _hline : (readUntil maxSizeBytes stream).1 = [] then
    .error (.invalidInput "Connection closed while reading chunk size.")
  else
    match parseChunkSize (readUntil maxSizeBytes stream).1 with
    | .error e => .error e
    | .ok size =>
        if size = 0 then .ok (body, skipTrailers (readUntil maxSizeBytes stream).2)
        else if maxBodyBytes - body.length < size then
          .error (.invalidInput "Chunked body exceeds MAX_BODY_BYTES.")
        else if (readUntil maxSizeBytes stream).2.length < size then
          .error (.invalidInput "Incomplete chunk data from local printer.")
        else
          let delim := readUntil 4 ((readUntil maxSizeBytes stream).2.drop size)
          if delim.1 ≠ [13, 10] ∧ delim.1 ≠ [10] then
            .error (.invalidInput "Malformed chunk delimiter.")
          else readChunks (body ++ (readUntil maxSizeBytes stream).2.take size) delim.2
termination_by stream.length
decreasing_by
  have hlength := readUntil_length maxSizeBytes stream
  have hpos := List.length_pos_of_ne_nil _hline
  have hdelim := readUntil_length 4 ((readUntil maxSizeBytes stream).2.drop size)
  rw [List.length_drop] at hdelim
  omega

/-- The body of a request, and what is left of the stream. -/
def readChunkedBody (stream : Bytes) : Except AppError (Bytes × Bytes) := readChunks [] stream

/-! ### Encodings -/

def crlf : Bytes := [13, 10]

/-- The spelling of a chunk size, with an extension that has no line feed. -/
structure SizeLine where
  digits : Chars
  extension : Option Bytes
  hdigits : digits ≠ [] ∧ digits.all (isDigitOf 16) = true
  hextension : ∀ e ∈ extension, (10 : UInt8) ∉ e

namespace SizeLine

def size (line : SizeLine) : ℕ := valueOf 16 line.digits

/-- The extension with the semicolon before it. -/
def suffix (line : SizeLine) : Bytes :=
  match line.extension with
  | none => []
  | some e => 59 :: e

/-- The line without its line feed. -/
def text (line : SizeLine) : Bytes := utf8 line.digits ++ line.suffix ++ [13]

def bytes (line : SizeLine) : Bytes := line.text ++ [10]

end SizeLine

/-- A chunk that is not empty. -/
structure Chunk where
  line : SizeLine
  data : Bytes
  hsize : data.length = line.size
  hne : data ≠ []

def Chunk.bytes (c : Chunk) : Bytes := c.line.bytes ++ (c.data ++ crlf)

/-- A trailer: a line that is not empty. -/
structure Trailer where
  text : Bytes
  hne : text ≠ []
  hline : (10 : UInt8) ∉ text

/-- The trailer without its line feed. -/
def Trailer.line (t : Trailer) : Bytes := t.text ++ [13]

/-- The body that chunks encode. -/
def bodyOf (chunks : List Chunk) : Bytes := chunks.flatMap Chunk.data

/-- The bytes that size lines announce. -/
def totalSize : List SizeLine → ℕ
  | [] => 0
  | line :: lines => line.size + totalSize lines

/-- Everything about an encoding but the data of its chunks. -/
structure Framing where
  lines : List SizeLine
  last : SizeLine
  trailers : List Trailer
  hlines : ∀ line ∈ lines, 0 < line.size
  hlast : last.size = 0
  hsize : totalSize lines ≤ maxBodyBytes

/-- The lines behind the chunks, without the line feeds. -/
def tailLines (trailers : List Trailer) : List Bytes := trailers.map Trailer.line

/-- The encoding of chunks: the last chunk, the trailers and the empty line stand behind them. -/
def encode (chunks : List Chunk) (last : SizeLine) (trailers : List Trailer) : Bytes :=
  chunks.flatMap Chunk.bytes ++ (last.bytes ++ (trailers.flatMap (fun t => t.line ++ [10]) ++ crlf))

end ShaPrint.Client
