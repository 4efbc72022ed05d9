import Mathlib.Tactic.IntervalCases
import ShaPrint.Text

/-!
Percent encoding in printer URIs: `percent_encode` and `percent_decode` of
`adapters/ipps/protocol.rs`, and the second `percent_decode` of `domain/queue.rs`.

* `percentEncode`, `percentDecode`: the codec of the endpoint and the proxy.
* `Queue.percentDecode`: the decoder that classifies spooler records. It drops the two
  characters after a `%` that is no escape, where the other one keeps them.
* `percentDecode_percentEncode`, `Queue.percentDecode_percentEncode`: both decoders
  invert the encoder.
-/

namespace ShaPrint

/-- The characters that stay as they are. -/
def isUnreserved (c : Char) : Bool :=
  c.isAlphanum || c == '-' || c == '.' || c == '_' || c == '~'

/-- A digit of `{:02X}`. -/
def hexUpper (n : ℕ) : Char := n.digitChar.toUpper

/-- One byte of an encoded value. -/
def encodeByte (b : UInt8) : Chars :=
  if isUnreserved (.ofNat b.toNat) then [.ofNat b.toNat]
  else ['%', hexUpper (b.toNat / 16), hexUpper (b.toNat % 16)]

/-- Percent-encodes the parts of a URI that a printer name may contain. -/
def percentEncode (value : Chars) : Chars := (utf8 value).flatMap encodeByte

def hexDigit (byte : UInt8) : Option UInt8 :=
  if 0x30 ≤ byte && byte ≤ 0x39 then some (byte - 0x30)
  else if 0x61 ≤ byte && byte ≤ 0x66 then some (byte - 0x61 + 10)
  else if 0x41 ≤ byte && byte ≤ 0x46 then some (byte - 0x41 + 10)
  else none

/-- The value of an escape `%` followed by these two bytes. -/
def escape (high low : UInt8) : Option UInt8 :=
  (hexDigit high).bind fun h => (hexDigit low).map fun l => h * 16 + l

/-- The loop of `percent_decode`: unusable escapes are kept verbatim. -/
def unescape : Bytes → Bytes
  | b :: high :: low :: rest =>
      if b = 0x25 then
        match escape high low with
        | some byte => byte :: unescape rest
        | none => b :: unescape (high :: low :: rest)
      else b :: unescape (high :: low :: rest)
  | bytes => bytes

/-- Decodes the percent escapes a printer URI carries. -/
def percentDecode (value : Chars) : Chars := fromUtf8Lossy (unescape (utf8 value))

namespace Queue

/-- The loop of the queues' `percent_decode`: a `%` takes the next two bytes with it. -/
def unescape : Bytes → Bytes
  | [] => []
  | b :: rest =>
      if b = 0x25 then
        match rest with
        | high :: low :: rest =>
            match escape high low with
            | some byte => byte :: unescape rest
            | none => b :: unescape rest
        | _ => [b]
      else b :: unescape rest

def percentDecode (value : Chars) : Chars := fromUtf8Lossy (unescape (utf8 value))

end Queue

/-! ### What an encoded value is made of -/

lemma isUnreserved_lt {c : Char} (h : isUnreserved c = true) : c.toNat < 128 := by
  simp only [isUnreserved, Bool.or_eq_true, beq_iff_eq] at h
  rcases h with (((h | rfl) | rfl) | rfl) | rfl
  · exact isAlphanum_lt h
  all_goals decide

/-- The digits of an escape are unreserved, and their bytes read as digits. -/
lemma hexUpper_spec {n : ℕ} (h : n < 16) : isUnreserved (hexUpper n) = true
    ∧ (hexUpper n).toNat < 128 ∧ hexDigit (.ofNat (hexUpper n).toNat) = some (.ofNat n) := by
  interval_cases n <;> decide

lemma mem_encodeByte {b : UInt8} {c : Char} (h : c ∈ encodeByte b) :
    isUnreserved c = true ∨ c = '%' := by
  have hb := b.toNat_lt
  unfold encodeByte at h
  split at h
  · rename_i hunreserved
    obtain rfl := List.mem_singleton.mp h
    exact .inl hunreserved
  · simp only [List.mem_cons, List.not_mem_nil, or_false] at h
    rcases h with rfl | rfl | rfl
    · exact .inr rfl
    · exact .inl (hexUpper_spec (by omega)).1
    · exact .inl (hexUpper_spec (by omega)).1

/-- An encoded value has only unreserved characters and `%`. -/
lemma mem_percentEncode {value : Chars} {c : Char} (h : c ∈ percentEncode value) :
    isUnreserved c = true ∨ c = '%' := by
  obtain ⟨b, -, hb⟩ := List.mem_flatMap.mp h
  exact mem_encodeByte hb

lemma isWhitespace_of_mem_percentEncode {value : Chars} {c : Char} (h : c ∈ percentEncode value) :
    isWhitespace c = false := by
  have hall : ∀ n < 128, isUnreserved (.ofNat n) = true → isWhitespace (.ofNat n) = false := by
    decide +kernel
  rcases mem_percentEncode h with hc | rfl
  · exact forall_ascii (P := fun c => isUnreserved c = true → isWhitespace c = false) hall
      (isUnreserved_lt hc) hc
  · decide

lemma length_encodeByte_le (b : UInt8) : (encodeByte b).length ≤ 3 := by
  unfold encodeByte
  split_ifs <;> simp

lemma length_percentEncode_le (value : Chars) :
    (percentEncode value).length ≤ 3 * (utf8 value).length := by
  unfold percentEncode
  induction utf8 value with
  | nil => exact Nat.zero_le _
  | cons b bytes ih =>
      have hb := length_encodeByte_le b
      rw [List.flatMap_cons, List.length_append, List.length_cons]
      omega

/-- A reserved character is encoded away. -/
lemma not_mem_percentEncode {value : Chars} {c : Char} (h : isUnreserved c = false)
    (hc : c ≠ '%') : c ∉ percentEncode value := by
  intro hmem
  rcases mem_percentEncode hmem with hunreserved | rfl
  · rw [h] at hunreserved
    cases hunreserved
  · exact hc rfl

lemma percentEncode_ne_nil {value : Chars} (h : value ≠ []) : percentEncode value ≠ [] := by
  have henc : ∀ b, encodeByte b ≠ [] := by
    intro b
    unfold encodeByte
    split <;> simp
  cases value with
  | nil => exact absurd rfl h
  | cons c value =>
      have hchar : String.utf8EncodeChar c ≠ [] := by
        unfold String.utf8EncodeChar
        simp only
        split_ifs <;> simp
      obtain ⟨b, bytes, hb⟩ := List.exists_cons_of_ne_nil hchar
      unfold percentEncode utf8
      rw [Utf8.encode_cons, hb, List.cons_append, List.flatMap_cons]
      exact List.append_ne_nil_of_left_ne_nil (henc b) _

/-! ### The bytes of an encoded value -/

/-- The bytes of one encoded byte. -/
def encodedByte (b : UInt8) : Bytes :=
  if isUnreserved (.ofNat b.toNat) then [b]
  else [0x25, .ofNat (hexUpper (b.toNat / 16)).toNat, .ofNat (hexUpper (b.toNat % 16)).toNat]

lemma toNat_ofNat_byte (b : UInt8) : (Char.ofNat b.toNat).toNat = b.toNat := by
  have hall : ∀ n < 256, (Char.ofNat n).toNat = n := by decide +kernel
  exact hall b.toNat b.toNat_lt

lemma utf8_encodeByte (b : UInt8) : utf8 (encodeByte b) = encodedByte b := by
  have hb := b.toNat_lt
  unfold encodeByte encodedByte
  split
  · rename_i hunreserved
    have hlt := isUnreserved_lt hunreserved
    rw [toNat_ofNat_byte] at hlt
    rw [utf8, Utf8.encode_cons, utf8EncodeChar_of_lt (by rw [toNat_ofNat_byte]; exact hlt),
      toNat_ofNat_byte, UInt8.ofNat_toNat]
    rfl
  · obtain ⟨-, hhigh, -⟩ := hexUpper_spec (n := b.toNat / 16) (by omega)
    obtain ⟨-, hlow, -⟩ := hexUpper_spec (n := b.toNat % 16) (by omega)
    simp only [utf8, Utf8.encode_cons, Utf8.encode_nil, utf8EncodeChar_of_lt hhigh,
      utf8EncodeChar_of_lt hlow, utf8EncodeChar_of_lt (show '%'.toNat < 128 by decide)]
    rfl

lemma utf8_percentEncode (value : Chars) :
    utf8 (percentEncode value) = (utf8 value).flatMap encodedByte := by
  unfold percentEncode
  induction utf8 value with
  | nil => rfl
  | cons b bytes ih =>
      rw [List.flatMap_cons, List.flatMap_cons, ← ih, ← utf8_encodeByte]
      exact Utf8.encode_append _ _

/-- The escape of a byte has its value. -/
lemma escape_hexUpper (b : UInt8) :
    escape (.ofNat (hexUpper (b.toNat / 16)).toNat) (.ofNat (hexUpper (b.toNat % 16)).toNat)
      = some b := by
  have hb := b.toNat_lt
  obtain ⟨-, -, hhigh⟩ := hexUpper_spec (n := b.toNat / 16) (by omega)
  obtain ⟨-, -, hlow⟩ := hexUpper_spec (n := b.toNat % 16) (by omega)
  rw [escape, hhigh, hlow, Option.bind_some, Option.map_some, Option.some.injEq]
  apply UInt8.toNat_inj.mp
  rw [UInt8.toNat_add, UInt8.toNat_mul, UInt8.toNat_ofNat', UInt8.toNat_ofNat']
  have h16 : (16 : UInt8).toNat = 16 := rfl
  rw [h16]
  omega

lemma ne_percent_of_isUnreserved {b : UInt8} (h : isUnreserved (.ofNat b.toNat) = true) :
    b ≠ 0x25 := by
  rintro rfl
  exact absurd h (by decide)

/-! ### The endpoint's decoder -/

lemma unescape_cons {b : UInt8} (h : b ≠ 0x25) (rest : Bytes) :
    unescape (b :: rest) = b :: unescape rest := by
  rcases rest with - | ⟨c, - | ⟨d, rest⟩⟩
  · rfl
  · rfl
  · rw [unescape, if_neg h]

lemma unescape_encodedByte (b : UInt8) (rest : Bytes) :
    unescape (encodedByte b ++ rest) = b :: unescape rest := by
  unfold encodedByte
  split
  · rename_i hunreserved
    exact unescape_cons (ne_percent_of_isUnreserved hunreserved) rest
  · rw [List.cons_append, List.cons_append, List.cons_append, List.nil_append, unescape,
      if_pos rfl, escape_hexUpper]

/-- The decoder inverts the encoder. -/
theorem percentDecode_percentEncode (value : Chars) :
    percentDecode (percentEncode value) = value := by
  have hunescape : ∀ bytes : Bytes, unescape (bytes.flatMap encodedByte) = bytes := by
    intro bytes
    induction bytes with
    | nil => rfl
    | cons b bytes ih => rw [List.flatMap_cons, unescape_encodedByte, ih]
  rw [percentDecode, utf8_percentEncode, hunescape, fromUtf8Lossy_utf8]

/-! ### The queues' decoder -/

namespace Queue

lemma unescape_cons {b : UInt8} (h : b ≠ 0x25) (rest : Bytes) :
    unescape (b :: rest) = b :: unescape rest := by
  conv_lhs => rw [unescape.eq_def]
  exact if_neg h

lemma unescape_encodedByte (b : UInt8) (rest : Bytes) :
    unescape (encodedByte b ++ rest) = b :: unescape rest := by
  unfold encodedByte
  split
  · rename_i hunreserved
    exact unescape_cons (ne_percent_of_isUnreserved hunreserved) rest
  · rw [List.cons_append, List.cons_append, List.cons_append, List.nil_append, unescape,
      if_pos rfl]
    simp only [escape_hexUpper]

/-- The queues' decoder inverts the encoder as well. -/
theorem percentDecode_percentEncode (value : Chars) :
    percentDecode (percentEncode value) = value := by
  have hunescape : ∀ bytes : Bytes, unescape (bytes.flatMap encodedByte) = bytes := by
    intro bytes
    induction bytes with
    | nil => rfl
    | cons b bytes ih => rw [List.flatMap_cons, unescape_encodedByte, ih]
  rw [percentDecode, utf8_percentEncode, hunescape, fromUtf8Lossy_utf8]

end Queue

/-! ### Where the decoders agree -/

/-- Every `%` begins an escape, but for one that ends the value. -/
def wellEscaped : Bytes → Bool
  | b :: high :: low :: rest =>
      if b = 0x25 then (escape high low).isSome && wellEscaped rest
      else wellEscaped (high :: low :: rest)
  | [b, _] => b ≠ 0x25
  | _ => true

lemma wellEscaped_cons {b : UInt8} (h : b ≠ 0x25) (rest : Bytes) :
    wellEscaped (b :: rest) = wellEscaped rest := by
  rcases rest with - | ⟨c, - | ⟨d, rest⟩⟩
  · rfl
  · simp [wellEscaped, h]
  · rw [wellEscaped, if_neg h]

/-- Well-formed escapes are decoded alike. -/
lemma unescape_wellEscaped {bytes : Bytes} (h : wellEscaped bytes = true) :
    Queue.unescape bytes = unescape bytes := by
  fun_induction unescape bytes with
  | case1 high low rest byte hescape ih =>
      rw [wellEscaped, if_pos rfl, Bool.and_eq_true] at h
      rw [Queue.unescape, if_pos rfl]
      simp only [hescape, ih h.2]
  | case2 high low rest hescape ih =>
      rw [wellEscaped, if_pos rfl, hescape] at h
      cases h
  | case3 b high low rest hb ih =>
      rw [wellEscaped_cons hb] at h
      rw [Queue.unescape_cons hb, ih h]
  | case4 bytes hshort =>
      -- at most two bytes are left
      rcases bytes with - | ⟨b, - | ⟨c, - | ⟨d, rest⟩⟩⟩
      · rfl
      · by_cases hb : b = 0x25
        · subst hb
          rfl
        · rw [Queue.unescape_cons hb]
          rfl
      · have hb : b ≠ 0x25 := by simpa [wellEscaped] using h
        rw [Queue.unescape_cons hb]
        by_cases hc : c = 0x25
        · subst hc
          rfl
        · rw [Queue.unescape_cons hc]
          rfl
      · exact (hshort b c d rest rfl).elim

/-- A slash is no part of an escape. -/
lemma wellEscaped_percent_slash (b : Bytes) :
    wellEscaped (0x25 :: 0x2f :: b) = false
      ∧ ∀ c, wellEscaped (0x25 :: c :: 0x2f :: b) = false := by
  constructor
  · cases b with
    | nil => rfl
    | cons d b => rfl
  · intro c
    have hslash : escape c 0x2f = none := by
      rw [escape]
      cases hexDigit c with
      | none => rfl
      | some high => rfl
    rw [wellEscaped, if_pos rfl, hslash]
    rfl

/-- Both sides of a slash are well escaped. -/
lemma wellEscaped_append {a b : Bytes} (h : wellEscaped (a ++ 0x2f :: b) = true) :
    wellEscaped a = true ∧ wellEscaped b = true := by
  fun_induction wellEscaped a with
  | case1 high low rest ih =>
      rw [List.cons_append, List.cons_append, List.cons_append, wellEscaped, if_pos rfl,
        Bool.and_eq_true] at h
      obtain ⟨ha, hb⟩ := ih h.2
      exact ⟨by rw [h.1, ha, Bool.and_self], hb⟩
  | case2 c high low rest hc ih =>
      rw [List.cons_append, wellEscaped_cons hc] at h
      exact ih h
  | case3 c d =>
      by_cases hc : c = 0x25
      · subst hc
        have hfalse := (wellEscaped_percent_slash b).2 d
        simp only [List.cons_append, List.nil_append] at h
        rw [hfalse] at h
        cases h
      · simp only [List.cons_append, List.nil_append] at h
        rw [wellEscaped_cons hc] at h
        by_cases hd : d = 0x25
        · subst hd
          rw [(wellEscaped_percent_slash b).1] at h
          cases h
        · rw [wellEscaped_cons hd, wellEscaped_cons (by decide)] at h
          exact ⟨by simpa using hc, h⟩
  | case4 bytes hlong hshort =>
      rcases bytes with - | ⟨c, - | ⟨d, - | ⟨e, rest⟩⟩⟩
      · rw [List.nil_append, wellEscaped_cons (by decide)] at h
        exact ⟨rfl, h⟩
      · by_cases hc : c = 0x25
        · subst hc
          have hfalse := (wellEscaped_percent_slash b).1
          simp only [List.cons_append, List.nil_append] at h
          rw [hfalse] at h
          cases h
        · rw [List.cons_append, List.nil_append, wellEscaped_cons hc,
            wellEscaped_cons (by decide)] at h
          exact ⟨rfl, h⟩
      · exact (hshort c d rfl).elim
      · exact (hlong c d e rest rfl).elim

end ShaPrint
