import Mathlib.Data.List.DropRight
import Mathlib.Tactic.Common
import ShaPrint.Lib.Split
import ShaPrint.Lib.Utf8

/-!
Text as the program holds it: a string is its UTF-8 bytes, and the operations
of the string type the code relies on.

* `asBytes`, `fromUtf8`: the two directions between a string and its bytes;
  `fromUtf8_eq_some` says that reading succeeds exactly on the bytes of a
  string, so a string is determined by its bytes (`asBytes_injective`).
* `trimEndNul`: `trim_end_matches('\0')`; on the bytes it removes the trailing
  zero bytes (`asBytes_trimEndNul`), because no other character's encoding
  holds one.
* `Chars`: a string the code takes apart, as its characters; `fromUtf8Lossy`,
  `toAsciiLower`, `eqIgnoreAsciiCase`, `trim`.
-/

namespace ShaPrint

/-- A byte string. -/
abbrev Bytes := List UInt8

/-! ### Bytes of a string -/

/-- `str::as_bytes`. -/
def asBytes (s : String) : Bytes := s.toUTF8.data.toList

/-- `str::from_utf8`, `none` where the bytes are not valid UTF-8. -/
def fromUtf8 (b : Bytes) : Option String := String.fromUTF8? ⟨b.toArray⟩

lemma asBytes_injective : Function.Injective asBytes := by
  intro s t h
  apply String.toByteArray_inj.mp
  have hdata : s.toUTF8.data = t.toUTF8.data := Array.toList_inj.mp h
  simpa using ByteArray.ext hdata

@[simp] lemma asBytes_inj {s t : String} : asBytes s = asBytes t ↔ s = t :=
  asBytes_injective.eq_iff

/-- Reading bytes as text succeeds exactly on the bytes of a string. -/
lemma fromUtf8_eq_some {b : Bytes} {s : String} : fromUtf8 b = some s ↔ asBytes s = b := by
  unfold fromUtf8 String.fromUTF8? asBytes
  split
  · rename_i h
    simp only [Option.some.injEq]
    constructor
    · rintro rfl
      rfl
    · intro hb
      apply String.toByteArray_inj.mp
      apply ByteArray.ext
      simp only [← hb]
      rfl
  · rename_i h
    simp only [false_iff, reduceCtorEq]
    rintro rfl
    exact h s.isValidUTF8

@[simp] lemma fromUtf8_asBytes (s : String) : fromUtf8 (asBytes s) = some s :=
  fromUtf8_eq_some.mpr rfl

/-- The bytes of a string are its characters' encodings, in order. -/
lemma asBytes_ofList (l : List Char) :
    asBytes (String.ofList l) = l.flatMap String.utf8EncodeChar := by
  simp [asBytes, List.utf8Encode]

/-! ### Characters of a string -/

/-- A string as its characters. -/
abbrev Chars := List Char

/-- The bytes of a string, by its characters. -/
def utf8 (s : Chars) : Bytes := Utf8.encode s

lemma asBytes_eq_utf8 (s : String) : asBytes s = utf8 s.toList := by
  rw [← String.ofList_toList (s := s), asBytes_ofList, String.toList_ofList]
  rfl

@[simp] lemma fromUtf8_utf8 (s : Chars) : fromUtf8 (utf8 s) = some (.ofList s) := by
  rw [fromUtf8_eq_some, asBytes_eq_utf8, String.toList_ofList]

/-- `String::from_utf8_lossy`. -/
def fromUtf8Lossy (b : Bytes) : Chars := Utf8.decodeLossy b

@[simp] lemma fromUtf8Lossy_utf8 (s : Chars) : fromUtf8Lossy (utf8 s) = s :=
  Utf8.decodeLossy_encode s

/-- `to_ascii_lowercase`. -/
def toAsciiLower (s : Chars) : Chars := s.map Char.toLower

/-- `eq_ignore_ascii_case`. -/
def eqIgnoreAsciiCase (a b : Chars) : Bool := toAsciiLower a == toAsciiLower b

@[simp] lemma eqIgnoreAsciiCase_iff {a b : Chars} :
    eqIgnoreAsciiCase a b = true ↔ toAsciiLower a = toAsciiLower b := beq_iff_eq

lemma eqIgnoreAsciiCase_self (a : Chars) : eqIgnoreAsciiCase a a = true :=
  eqIgnoreAsciiCase_iff.mpr rfl

lemma isAlphanum_lt {c : Char} (h : c.isAlphanum = true) : c.toNat < 128 := by
  have hbound : ∀ d : Char, d.toNat < 128 → c.val ≤ d.val → c.toNat < 128 := by
    intro d hd hle
    exact (UInt32.le_iff_toNat_le.mp hle).trans_lt hd
  rcases Bool.or_eq_true_iff.mp h with halpha | hdigit
  · rcases Bool.or_eq_true_iff.mp halpha with hupper | hlower
    · exact hbound 'Z' (by decide) (of_decide_eq_true hupper).2
    · exact hbound 'z' (by decide) (of_decide_eq_true (Bool.and_eq_true_iff.mp hlower).2)
  · exact hbound '9' (by decide) (of_decide_eq_true (Bool.and_eq_true_iff.mp hdigit).2)

/-- What holds of the first 128 code points holds of every ASCII character. -/
lemma forall_ascii {P : Char → Prop} (h : ∀ n < 128, P (.ofNat n)) {c : Char}
    (hc : c.toNat < 128) : P c := by
  have hn := h c.toNat hc
  rwa [Char.ofNat_toNat] at hn

lemma utf8EncodeChar_of_lt {c : Char} (h : c.toNat < 128) :
    String.utf8EncodeChar c = [.ofNat c.toNat] := by
  have hval : c.val.toNat = c.toNat := rfl
  unfold String.utf8EncodeChar
  simp only [hval]
  rw [if_pos (by omega)]

/-- What is no lower-case letter was none before. -/
lemma toLower_eq_self {c : Char} (h : c.toLower.isLower = false) : c.toLower = c := by
  by_cases hc : c.toNat < 128
  · have hall : ∀ n < 128, (Char.ofNat n).toLower.isLower = false →
        (Char.ofNat n).toLower = Char.ofNat n := by
      decide +kernel
    exact forall_ascii (P := fun c => c.toLower.isLower = false → c.toLower = c) hall hc h
  · unfold Char.toLower
    split
    · rename_i hupper
      have hle : c.toNat ≤ 90 := UInt32.le_iff_toNat_le.mp hupper.2
      omega
    · rfl

/-- A text without lower-case letters is the lower case of no other text. -/
lemma eq_of_toAsciiLower_eq {s t : Chars} (h : toAsciiLower s = t)
    (ht : ∀ c ∈ t, c.isLower = false) : s = t := by
  have hself : ∀ c ∈ s, c.toLower = c := fun c hc =>
    toLower_eq_self (ht _ (h ▸ List.mem_map_of_mem hc))
  rw [← h, toAsciiLower, List.map_congr_left hself, List.map_id']

/-- A character takes at most four bytes. -/
lemma length_utf8_le (s : Chars) : (utf8 s).length ≤ 4 * s.length := by
  induction s with
  | nil => exact Nat.zero_le _
  | cons c s ih =>
      have hc := c.utf8Size_le_four
      calc (utf8 (c :: s)).length = (String.utf8EncodeChar c ++ utf8 s).length := rfl
        _ = c.utf8Size + (utf8 s).length := by
          rw [List.length_append, String.length_utf8EncodeChar]
        _ ≤ 4 * (c :: s).length := by
          rw [List.length_cons]
          omega

/-- ASCII text has a byte for each character. -/
lemma length_utf8_of_ascii {s : Chars} (h : ∀ c ∈ s, c.toNat < 128) : (utf8 s).length = s.length := by
  induction s with
  | nil => rfl
  | cons c s ih =>
      have hc := utf8EncodeChar_of_lt (h c List.mem_cons_self)
      have hs := ih fun d hd => h d (List.mem_cons_of_mem c hd)
      calc (utf8 (c :: s)).length = (String.utf8EncodeChar c ++ utf8 s).length := rfl
        _ = s.length + 1 := by rw [hc, List.length_append, hs, List.length_singleton, Nat.add_comm]

/-- A character with the Unicode property `White_Space`. -/
def isWhitespace (c : Char) : Bool :=
  (0x09 ≤ c.val && c.val ≤ 0x0d) || c.val == 0x20 || c.val == 0x85 || c.val == 0xa0
    || c.val == 0x1680 || (0x2000 ≤ c.val && c.val ≤ 0x200a) || c.val == 0x2028
    || c.val == 0x2029 || c.val == 0x202f || c.val == 0x205f || c.val == 0x3000

/-- `str::trim`. -/
def trim (s : Chars) : Chars := Split.trimBoth isWhitespace s

@[simp] lemma trim_trim (s : Chars) : trim (trim s) = trim s := Split.trimBoth_trimBoth

/-! ### Trimming trailing NULs -/

/-- `trim_end_matches('\0')`. -/
def trimEndNul (s : String) : String := String.ofList (s.toList.rdropWhile (· == '\x00'))

lemma trimEndNul_trimEndNul (s : String) : trimEndNul (trimEndNul s) = trimEndNul s := by
  rw [trimEndNul, trimEndNul, String.toList_ofList, List.rdropWhile_idempotent]

/-- A text without NULs is left as it is. -/
lemma trimEndNul_of_not_mem {s : String} (h : '\x00' ∉ s.toList) : trimEndNul s = s := by
  have hself : s.toList.rdropWhile (· == '\x00') = s.toList := by
    rw [List.rdropWhile_eq_self_iff]
    intro hne hlast
    exact h (by simpa using beq_iff_eq.mp hlast ▸ List.getLast_mem hne)
  rw [trimEndNul, hself, String.ofList_toList]

/-- The encoding of a character other than NUL ends in a byte other than zero. -/
lemma utf8EncodeChar_eq_concat {c : Char} (hc : c ≠ '\x00') :
    ∃ w b, String.utf8EncodeChar c = w ++ [b] ∧ b ≠ 0 := by
  have hv : c.val.toNat ≠ 0 := fun h => hc (Char.ext (UInt32.toNat_inj.mp h))
  have hne : ∀ n : ℕ, n % 256 ≠ 0 → UInt8.ofNat n ≠ 0 := by
    intro n hn h
    have := congrArg UInt8.toNat h
    rw [UInt8.toNat_ofNat'] at this
    exact hn this
  unfold String.utf8EncodeChar
  simp only
  split_ifs
  · exact ⟨[], _, rfl, hne _ (by omega)⟩
  · exact ⟨[_], _, rfl, hne _ (by omega)⟩
  · exact ⟨[_, _], _, rfl, hne _ (by omega)⟩
  · exact ⟨[_, _, _], _, rfl, hne _ (by omega)⟩

/-- Trimming the trailing NULs of a string trims the trailing zero bytes. -/
lemma asBytes_trimEndNul (s : String) :
    asBytes (trimEndNul s) = (asBytes s).rdropWhile (· == 0) := by
  obtain ⟨l, rfl⟩ : ∃ l, s = String.ofList l := ⟨s.toList, (String.ofList_toList).symm⟩
  simp only [trimEndNul, String.toList_ofList, asBytes_ofList]
  induction l using List.reverseRecOn with
  | nil => rfl
  | append_singleton l c ih =>
      by_cases hc : c = '\x00'
      · subst hc
        have henc : String.utf8EncodeChar '\x00' = [0] := by decide
        rw [List.rdropWhile_concat_pos _ _ _ (by simp), List.flatMap_append,
          List.flatMap_singleton, henc, List.rdropWhile_concat_pos _ _ _ (by simp)]
        exact ih
      · obtain ⟨w, b, hw, hb⟩ := utf8EncodeChar_eq_concat hc
        rw [List.rdropWhile_concat_neg _ _ _ (by simpa using hc), List.flatMap_append,
          List.flatMap_singleton, hw, ← List.append_assoc,
          List.rdropWhile_concat_neg _ _ _ (by simpa using hb)]

/-- Trimming leaves alone a string whose bytes do not end in zero. -/
lemma trimEndNul_eq_self {s : String} (h : (asBytes s).getLast? ≠ some 0) :
    trimEndNul s = s := by
  apply asBytes_injective
  rw [asBytes_trimEndNul]
  rcases List.eq_nil_or_concat' (asBytes s) with hnil | ⟨w, b, hw⟩
  · rw [hnil, List.rdropWhile_nil]
  · rw [hw, List.rdropWhile_concat_neg]
    simpa [hw] using h

end ShaPrint
