import Mathlib.Data.Bool.AllAny
import Mathlib.Data.List.TakeWhile
import ShaPrint.Lib.Digits

/-!
JSON texts: values, the compact text of a value, and a reader.

* `Value`: null, truth values, natural numbers, texts, arrays and objects.
* `compact`: the text of a value without blanks.
* `readText`, `readNat`, `parseValue`, `parse`: the reader, which skips blanks between tokens.
* `parse_compact`: the reader finds the value of a compact text.
* `printable_compact`: a compact text has no control characters.

Fractions, exponents and negative numbers are not values here, and an escape for half of a
surrogate pair is not read; the writer makes neither.
-/

namespace Json

open Digits

inductive Value where
  | null
  | bool (b : Bool)
  | nat (n : ℕ)
  | text (s : List Char)
  | array (items : List Value)
  | object (members : List (String × Value))

/-! ### Writing -/

/-- A character inside of a text. -/
def escape (c : Char) : List Char :=
  if c = '"' then ['\\', '"']
  else if c = '\\' then ['\\', '\\']
  else if c = '\x08' then ['\\', 'b']
  else if c = '\t' then ['\\', 't']
  else if c = '\n' then ['\\', 'n']
  else if c = '\x0c' then ['\\', 'f']
  else if c = '\r' then ['\\', 'r']
  else if c.toNat < 32 then
    ['\\', 'u', '0', '0', (c.toNat / 16).digitChar, (c.toNat % 16).digitChar]
  else [c]

/-- A text and the quotation mark that ends it. -/
def quoted (s : List Char) : List Char := s.flatMap escape ++ ['"']

mutual

def compact : Value → List Char
  | .null => ['n', 'u', 'l', 'l']
  | .bool true => ['t', 'r', 'u', 'e']
  | .bool false => ['f', 'a', 'l', 's', 'e']
  | .nat n => decimal n
  | .text s => '"' :: quoted s
  | .array [] => ['[', ']']
  | .array (item :: items) => '[' :: (compact item ++ compactItems items)
  | .object [] => ['{', '}']
  | .object ((key, value) :: members) =>
      '{' :: '"' :: (quoted key.toList ++ ':' :: (compact value ++ compactMembers members))

/-- What follows the first item of an array. -/
def compactItems : List Value → List Char
  | [] => [']']
  | item :: items => ',' :: (compact item ++ compactItems items)

/-- What follows the first member of an object. -/
def compactMembers : List (String × Value) → List Char
  | [] => ['}']
  | (key, value) :: members =>
      ',' :: '"' :: (quoted key.toList ++ ':' :: (compact value ++ compactMembers members))

end

/-! ### Reading -/

def isBlank (c : Char) : Bool := c == ' ' || c == '\t' || c == '\n' || c == '\r'

def skipBlank (s : List Char) : List Char := s.dropWhile isBlank

/-- Where the reading of a text is: between characters, after a backslash, or in the digits of
an escape, with how many are left and the value of those before. -/
inductive Scan where
  | plain
  | escape
  | hex (left value : ℕ)

def unescape (c : Char) : Option Char :=
  if c = '"' then some '"'
  else if c = '\\' then some '\\'
  else if c = '/' then some '/'
  else if c = 'b' then some '\x08'
  else if c = 't' then some '\t'
  else if c = 'n' then some '\n'
  else if c = 'f' then some '\x0c'
  else if c = 'r' then some '\r'
  else none

def push (c : Char) (read : List Char × List Char) : List Char × List Char :=
  (c :: read.1, read.2)

/-- Reads a text up to the quotation mark that ends it. -/
def readText : Scan → List Char → Option (List Char × List Char)
  | _, [] => none
  | .plain, c :: rest =>
      if c = '"' then some ([], rest)
      else if c = '\\' then readText .escape rest
      else if c.toNat < 32 then none
      else (readText .plain rest).map (push c)
  | .escape, c :: rest =>
      if c = 'u' then readText (.hex 4 0) rest
      else (unescape c).bind fun c => (readText .plain rest).map (push c)
  | .hex left value, c :: rest =>
      (digitOf 16 c).bind fun digit =>
        if left ≤ 1 then
          if (16 * value + digit).isValidChar then
            (readText .plain rest).map (push (.ofNat (16 * value + digit)))
          else none
        else readText (.hex (left - 1) (16 * value + digit)) rest

/-- Reads a natural number, which has no zeros in front. -/
def readNat (s : List Char) : Option (ℕ × List Char) :=
  let digits := s.takeWhile Char.isDigit
  let rest := s.dropWhile Char.isDigit
  if digits.head? = some '0' ∧ digits ≠ ['0'] then none
  else if rest.head? = some '.' ∨ rest.head? = some 'e' ∨ rest.head? = some 'E' then none
  else some (valueOf 10 digits, rest)

/-- What follows a character, after blanks. -/
def token (c : Char) (s : List Char) : Option (List Char) :=
  match skipBlank s with
  | [] => none
  | d :: rest => if d = c then some rest else none

/-- Reads the key of a member and the colon after it. -/
def readKey (s : List Char) : Option (String × List Char) :=
  (token '"' s).bind fun rest =>
    (readText .plain rest).bind fun read =>
      (token ':' read.2).map fun rest => (.ofList read.1, rest)

def expect (word : List Char) (value : Value) (s : List Char) : Option (Value × List Char) :=
  if word <+: s then some (value, s.drop word.length) else none

mutual

/-- Reads a value. The fuel bounds the values inside of each other and after each other. -/
def parseValue : ℕ → List Char → Option (Value × List Char)
  | 0, _ => none
  | fuel + 1, s =>
      match skipBlank s with
      | [] => none
      | c :: rest =>
          if c = '"' then (readText .plain rest).map fun read => (.text read.1, read.2)
          else if c = '[' then
            match token ']' rest with
            | some rest => some (.array [], rest)
            | none => (parseValue fuel rest).bind fun item =>
                (parseItems fuel item.2).map fun items => (.array (item.1 :: items.1), items.2)
          else if c = '{' then
            match token '}' rest with
            | some rest => some (.object [], rest)
            | none => (readKey rest).bind fun key =>
                (parseValue fuel key.2).bind fun value =>
                  (parseMembers fuel value.2).map fun members =>
                    (.object ((key.1, value.1) :: members.1), members.2)
          else if c = 'n' then expect ['u', 'l', 'l'] .null rest
          else if c = 't' then expect ['r', 'u', 'e'] (.bool true) rest
          else if c = 'f' then expect ['a', 'l', 's', 'e'] (.bool false) rest
          else if c.isDigit then (readNat (c :: rest)).map fun read => (.nat read.1, read.2)
          else none

/-- Reads what follows the first item of an array. -/
def parseItems : ℕ → List Char → Option (List Value × List Char)
  | 0, _ => none
  | fuel + 1, s =>
      match token ']' s with
      | some rest => some ([], rest)
      | none =>
          (token ',' s).bind fun rest =>
            (parseValue fuel rest).bind fun item =>
              (parseItems fuel item.2).map fun items => (item.1 :: items.1, items.2)

/-- Reads what follows the first member of an object. -/
def parseMembers : ℕ → List Char → Option (List (String × Value) × List Char)
  | 0, _ => none
  | fuel + 1, s =>
      match token '}' s with
      | some rest => some ([], rest)
      | none =>
          ((token ',' s).bind readKey).bind fun key =>
            (parseValue fuel key.2).bind fun value =>
              (parseMembers fuel value.2).map fun members =>
                ((key.1, value.1) :: members.1, members.2)

end

/-- Reads a value that nothing but blanks follows. -/
def parse (s : List Char) : Option Value :=
  (parseValue (s.length + 1) s).bind fun read =>
    if skipBlank read.2 = [] then some read.1 else none

/-! ### Texts and numbers -/

lemma skipBlank_cons {c : Char} (h : isBlank c = false) (s : List Char) :
    skipBlank (c :: s) = c :: s := by
  unfold skipBlank
  rw [List.dropWhile_cons_of_neg (by simp [h])]

lemma token_cons {c : Char} (h : isBlank c = false) (s : List Char) :
    token c (c :: s) = some s := by
  rw [token, skipBlank_cons h]
  exact if_pos rfl

lemma token_cons_of_ne {c d : Char} (h : isBlank d = false) (hne : d ≠ c) (s : List Char) :
    token c (d :: s) = none := by
  rw [token, skipBlank_cons h]
  exact if_neg hne

/-- An escaped character is read back. -/
lemma readText_escape (c : Char) (rest : List Char) :
    readText .plain (escape c ++ rest) = (readText .plain rest).map (push c) := by
  unfold escape
  split_ifs with hquote hslash h8 ht hn h12 hr hcontrol
  all_goals try subst c
  all_goals try rfl
  · have hlow : c.toNat % 16 < 16 := Nat.mod_lt _ (by omega)
    have hhigh : c.toNat / 16 < 16 := by omega
    have hzero : digitOf 16 '0' = some 0 := by decide
    have hvalue : 16 * (16 * (16 * (16 * 0 + 0) + 0) + c.toNat / 16) + c.toNat % 16 = c.toNat := by
      omega
    have hvalid : c.toNat.isValidChar := c.valid
    have hu : ¬ 'u' = '\\' := by decide
    simp only [List.cons_append, List.nil_append, readText, hzero, Option.bind_some,
      digitOf_digitChar hhigh le_rfl, digitOf_digitChar hlow le_rfl]
    simp only [show ¬ '\\' = '"' by decide, if_false, if_true, show ¬ (4 ≤ 1) by omega,
      show ¬ (4 - 1 ≤ 1) by omega, show ¬ (4 - 1 - 1 ≤ 1) by omega,
      show 4 - 1 - 1 - 1 ≤ 1 by omega, hvalue, hvalid, Char.ofNat_toNat]
  · simp only [List.cons_append, List.nil_append, readText, hquote, hslash, hcontrol, if_false]

lemma readText_quoted (s rest : List Char) :
    readText .plain (quoted s ++ rest) = some (s, rest) := by
  induction s with
  | nil => rfl
  | cons c s ih =>
      have hquoted : quoted (c :: s) ++ rest = escape c ++ (quoted s ++ rest) := by
        simp [quoted]
      rw [hquoted, readText_escape, ih]
      rfl

lemma readKey_quoted (key : String) (rest : List Char) :
    readKey ('"' :: (quoted key.toList ++ ':' :: rest)) = some (key, rest) := by
  rw [readKey, token_cons (by decide), Option.bind_some, readText_quoted, Option.bind_some,
    token_cons (by decide), Option.map_some, String.ofList_toList]

/-- What can follow a value inside of another. -/
def Follows (rest : List Char) : Prop :=
  ∀ c, rest.head? = some c → c = ',' ∨ c = ']' ∨ c = '}'

lemma readNat_decimal (n : ℕ) {rest : List Char} (hrest : Follows rest) :
    readNat (decimal n ++ rest) = some (n, rest) := by
  have hdigits : ∀ c ∈ decimal n, c.isDigit = true := fun c => isDigit_of_mem_decimal
  have hstop : rest.takeWhile Char.isDigit = [] ∧ rest.dropWhile Char.isDigit = rest := by
    cases rest with
    | nil => exact ⟨rfl, rfl⟩
    | cons c rest =>
        have hc : c.isDigit = false := by
          rcases hrest c rfl with rfl | rfl | rfl <;> decide
        rw [List.takeWhile_cons_of_neg (by simp [hc]), List.dropWhile_cons_of_neg (by simp [hc])]
        exact ⟨rfl, rfl⟩
  unfold readNat
  dsimp only
  rw [List.takeWhile_append_of_pos hdigits, List.dropWhile_append_of_pos hdigits, hstop.1, hstop.2,
    List.append_nil, valueOf_decimal, if_neg, if_neg]
  · rintro (h | h | h) <;> rcases hrest _ h with h | h | h <;> revert h <;> decide
  · rintro ⟨hhead, hne⟩
    have hzero : n = 0 := head?_toDigits (by decide) hhead
    subst hzero
    exact hne (by decide)

/-! ### The round trip -/

/-- A value begins with no blank and with no closing bracket. -/
lemma exists_compact_eq_cons (v : Value) :
    ∃ c s, compact v = c :: s ∧ isBlank c = false ∧ c ≠ ']' := by
  cases v with
  | null => exact ⟨_, _, rfl, by decide, by decide⟩
  | bool b => cases b <;> exact ⟨_, _, rfl, by decide, by decide⟩
  | nat n =>
      obtain ⟨c, s, hdecimal⟩ := List.exists_cons_of_ne_nil (decimal_ne_nil n)
      have hc : c.isDigit = true := isDigit_of_mem_decimal (n := n) (by simp [hdecimal])
      refine ⟨c, s, hdecimal, ?_, ?_⟩
      · have hne : ∀ d : Char, d.isDigit = false → c ≠ d := by
          rintro d hd rfl
          rw [hd] at hc
          cases hc
        simp [isBlank, hne ' ' (by decide), hne '\t' (by decide), hne '\n' (by decide),
          hne '\r' (by decide)]
      · rintro rfl
        revert hc
        decide
  | text s => exact ⟨_, _, rfl, by decide, by decide⟩
  | array items => cases items <;> exact ⟨_, _, rfl, by decide, by decide⟩
  | object members => cases members <;> exact ⟨_, _, rfl, by decide, by decide⟩

lemma compactItems_follows (items : List Value) (rest : List Char) :
    Follows (compactItems items ++ rest) := by
  intro c hc
  cases items with
  | nil =>
      obtain rfl := Option.some.inj hc
      simp
  | cons item items =>
      obtain rfl := Option.some.inj hc
      simp

lemma compactMembers_follows (members : List (String × Value)) (rest : List Char) :
    Follows (compactMembers members ++ rest) := by
  intro c hc
  cases members with
  | nil =>
      obtain rfl := Option.some.inj hc
      simp
  | cons member members =>
      obtain rfl := Option.some.inj hc
      simp

lemma length_escape_pos (c : Char) : 0 < (escape c).length := by
  unfold escape
  split_ifs <;> simp

/-- An escaped text is no shorter. -/
lemma length_le_length_quoted (s : List Char) : s.length ≤ (quoted s).length := by
  induction s with
  | nil => exact Nat.zero_le _
  | cons c s ih =>
      have hpos := length_escape_pos c
      have hquoted : quoted (c :: s) = escape c ++ quoted s := by
        rw [quoted, quoted, List.flatMap_cons, List.append_assoc]
      rw [hquoted, List.length_cons, List.length_append]
      omega

lemma length_compactItems_pos (items : List Value) : 0 < (compactItems items).length := by
  cases items <;> simp [compactItems]

lemma length_compactMembers_pos (members : List (String × Value)) :
    0 < (compactMembers members).length := by
  cases members <;> simp [compactMembers]

lemma length_compact_pos (v : Value) : 0 < (compact v).length := by
  obtain ⟨c, s, h, -, -⟩ := exists_compact_eq_cons v
  simp [h]

mutual

/-- The reader finds a value in front of what can follow it, with fuel for its length. -/
theorem parseValue_compact : ∀ (v : Value) (fuel : ℕ) (rest : List Char),
    (compact v).length ≤ fuel → Follows rest → parseValue fuel (compact v ++ rest) = some (v, rest)
  | .null, fuel + 1, rest, _, _ => by
      rfl
  | .bool true, fuel + 1, rest, _, _ => by
      rfl
  | .bool false, fuel + 1, rest, _, _ => by
      rfl
  | .nat n, fuel + 1, rest, _, hrest => by
      obtain ⟨c, s, hdecimal, hblank, -⟩ := exists_compact_eq_cons (.nat n)
      have hc : c.isDigit = true :=
        isDigit_of_mem_decimal (n := n) (by rw [show decimal n = c :: s from hdecimal]; simp)
      have hne : ∀ d : Char, d.isDigit = false → c ≠ d := by
        rintro d hd rfl
        rw [hd] at hc
        cases hc
      have hread := readNat_decimal n hrest
      rw [show decimal n = c :: s from hdecimal, List.cons_append] at hread
      rw [hdecimal, List.cons_append, parseValue, skipBlank_cons hblank]
      dsimp only
      rw [if_neg (hne '"' (by decide)), if_neg (hne '[' (by decide)), if_neg (hne '{' (by decide)),
        if_neg (hne 'n' (by decide)), if_neg (hne 't' (by decide)), if_neg (hne 'f' (by decide)),
        if_pos hc, hread, Option.map_some]
  | .text s, fuel + 1, rest, _, _ => by
      rw [compact, List.cons_append, parseValue, skipBlank_cons (by decide)]
      dsimp only
      rw [if_pos rfl, readText_quoted, Option.map_some]
  | .array [], fuel + 1, rest, _, _ => by
      rfl
  | .array (item :: items), fuel + 1, rest, hfuel, hrest => by
      rw [compact, List.length_cons, List.length_append] at hfuel
      have hpos := length_compactItems_pos items
      have hitem := parseValue_compact item fuel (compactItems items ++ rest) (by omega)
        (compactItems_follows items rest)
      have hitems := parseItems_compact items fuel rest (by omega) hrest
      obtain ⟨c, s, hhead, hblank, hclose⟩ := exists_compact_eq_cons item
      rw [compact, List.cons_append, List.append_assoc, parseValue, skipBlank_cons (by decide)]
      dsimp only
      rw [if_neg (by decide), if_pos rfl]
      rw [hhead, List.cons_append] at hitem ⊢
      rw [token_cons_of_ne hblank hclose]
      dsimp only
      rw [hitem, Option.bind_some, hitems, Option.map_some]
  | .object [], fuel + 1, rest, _, _ => by
      rfl
  | .object ((key, value) :: members), fuel + 1, rest, hfuel, hrest => by
      simp only [compact, List.length_cons, List.length_append] at hfuel
      have hpos := length_compactMembers_pos members
      have hvalue := parseValue_compact value fuel (compactMembers members ++ rest) (by omega)
        (compactMembers_follows members rest)
      have hmembers := parseMembers_compact members fuel rest (by omega) hrest
      rw [compact, List.cons_append, List.cons_append, List.append_assoc, List.cons_append,
        List.append_assoc, parseValue, skipBlank_cons (by decide)]
      dsimp only
      rw [if_neg (by decide), if_neg (by decide), if_pos rfl,
        token_cons_of_ne (by decide) (by decide)]
      dsimp only
      rw [readKey_quoted, Option.bind_some, hvalue, Option.bind_some, hmembers, Option.map_some]
  | v, 0, rest, hfuel, _ => absurd (length_compact_pos v) (by omega)

theorem parseItems_compact : ∀ (items : List Value) (fuel : ℕ) (rest : List Char),
    (compactItems items).length ≤ fuel → Follows rest →
    parseItems fuel (compactItems items ++ rest) = some (items, rest)
  | [], fuel + 1, rest, _, _ => by
      rfl
  | item :: items, fuel + 1, rest, hfuel, hrest => by
      rw [compactItems, List.length_cons, List.length_append] at hfuel
      have hpos := length_compactItems_pos items
      have hitem := parseValue_compact item fuel (compactItems items ++ rest) (by omega)
        (compactItems_follows items rest)
      have hitems := parseItems_compact items fuel rest (by omega) hrest
      rw [compactItems, List.cons_append, List.append_assoc, parseItems,
        token_cons_of_ne (by decide) (by decide)]
      dsimp only
      rw [token_cons (by decide), Option.bind_some]
      rw [hitem, Option.bind_some, hitems, Option.map_some]
  | items, 0, rest, hfuel, _ => absurd (length_compactItems_pos items) (by omega)

theorem parseMembers_compact : ∀ (members : List (String × Value)) (fuel : ℕ) (rest : List Char),
    (compactMembers members).length ≤ fuel → Follows rest →
    parseMembers fuel (compactMembers members ++ rest) = some (members, rest)
  | [], fuel + 1, rest, _, _ => by
      rfl
  | (key, value) :: members, fuel + 1, rest, hfuel, hrest => by
      simp only [compactMembers, List.length_cons, List.length_append] at hfuel
      have hpos := length_compactMembers_pos members
      have hvalue := parseValue_compact value fuel (compactMembers members ++ rest) (by omega)
        (compactMembers_follows members rest)
      have hmembers := parseMembers_compact members fuel rest (by omega) hrest
      rw [compactMembers, List.cons_append, List.cons_append, List.append_assoc, List.cons_append,
        List.append_assoc, parseMembers, token_cons_of_ne (by decide) (by decide)]
      dsimp only
      rw [token_cons (by decide), Option.bind_some]
      rw [readKey_quoted, Option.bind_some, hvalue, Option.bind_some, hmembers, Option.map_some]
  | members, 0, rest, hfuel, _ => absurd (length_compactMembers_pos members) (by omega)

end

/-- **The reader finds the value of a compact text.** -/
theorem parse_compact (v : Value) : parse (compact v) = some v := by
  have hread := parseValue_compact v ((compact v).length + 1) [] (by omega) (by simp [Follows])
  rw [List.append_nil] at hread
  rw [parse, hread, Option.bind_some]
  rfl

/-! ### The characters of a compact text -/

lemma printable_of_mem_escape {c d : Char} (h : d ∈ escape c) : 32 ≤ d.toNat := by
  unfold escape at h
  split_ifs at h with hquote hslash h8 ht hn h12 hr hcontrol
  any_goals
    simp only [List.mem_cons, List.not_mem_nil, or_false] at h
    rcases h with rfl | rfl <;> decide
  · have hdigit : ∀ n < 16, 32 ≤ n.digitChar.toNat := by decide
    simp only [List.mem_cons, List.not_mem_nil, or_false] at h
    obtain rfl | rfl | rfl | rfl | rfl | rfl := h
    · decide
    · decide
    · decide
    · decide
    · exact hdigit _ (by omega)
    · exact hdigit _ (by omega)
  · obtain rfl := List.mem_singleton.mp h
    omega

lemma printable_of_mem_quoted {s : List Char} {d : Char} (h : d ∈ quoted s) : 32 ≤ d.toNat := by
  rcases List.mem_append.mp h with h | h
  · obtain ⟨c, -, hc⟩ := List.mem_flatMap.mp h
    exact printable_of_mem_escape hc
  · obtain rfl := List.mem_singleton.mp h
    decide

/-- A text whose characters are no control characters. -/
def Printable (s : List Char) : Prop := ∀ c ∈ s, 32 ≤ c.toNat

lemma Printable.cons {c : Char} {s : List Char} (hc : 32 ≤ c.toNat) (hs : Printable s) :
    Printable (c :: s) :=
  List.forall_mem_cons.mpr ⟨hc, hs⟩

lemma Printable.append {s t : List Char} (hs : Printable s) (ht : Printable t) :
    Printable (s ++ t) :=
  List.forall_mem_append.mpr ⟨hs, ht⟩

lemma printable_quoted (s : List Char) : Printable (quoted s) := fun _ => printable_of_mem_quoted

lemma printable_decimal (n : ℕ) : Printable (decimal n) := by
  intro c hc
  have hdigit := isDigit_of_mem_decimal hc
  simp only [Char.isDigit, Bool.and_eq_true, decide_eq_true_eq] at hdigit
  have hlow : 48 ≤ c.toNat := hdigit.1
  omega

mutual

/-- A compact text has no control characters. -/
theorem printable_compact : ∀ v : Value, Printable (compact v)
  | .null => List.all_iff_forall_prop.mp (by decide)
  | .bool true => List.all_iff_forall_prop.mp (by decide)
  | .bool false => List.all_iff_forall_prop.mp (by decide)
  | .nat n => printable_decimal n
  | .text s => (printable_quoted s).cons (by decide)
  | .array [] => List.all_iff_forall_prop.mp (by decide)
  | .array (item :: items) =>
      ((printable_compact item).append (printable_compactItems items)).cons (by decide)
  | .object [] => List.all_iff_forall_prop.mp (by decide)
  | .object ((key, value) :: members) => by
      have hrest := (printable_compact value).append (printable_compactMembers members)
      exact (((printable_quoted key.toList).append (hrest.cons (by decide))).cons
        (by decide)).cons (by decide)

theorem printable_compactItems : ∀ items : List Value, Printable (compactItems items)
  | [] => List.all_iff_forall_prop.mp (by decide)
  | item :: items =>
      ((printable_compact item).append (printable_compactItems items)).cons (by decide)

theorem printable_compactMembers : ∀ members : List (String × Value),
    Printable (compactMembers members)
  | [] => List.all_iff_forall_prop.mp (by decide)
  | (key, value) :: members => by
      have hrest := (printable_compact value).append (printable_compactMembers members)
      exact (((printable_quoted key.toList).append (hrest.cons (by decide))).cons
        (by decide)).cons (by decide)

end

lemma exists_compactMembers_eq (members : List (String × Value)) :
    ∃ s, compactMembers members = s ++ ['}'] := by
  induction members with
  | nil => exact ⟨[], rfl⟩
  | cons member members ih =>
      obtain ⟨key, value⟩ := member
      obtain ⟨s, hs⟩ := ih
      refine ⟨',' :: '"' :: (quoted key.toList ++ ':' :: (compact value ++ s)), ?_⟩
      rw [compactMembers, hs]
      simp

/-- An object is written between braces. -/
lemma exists_compact_object_eq (members : List (String × Value)) :
    ∃ s, compact (.object members) = '{' :: (s ++ ['}']) := by
  cases members with
  | nil => exact ⟨[], rfl⟩
  | cons member members =>
      obtain ⟨key, value⟩ := member
      obtain ⟨s, hs⟩ := exists_compactMembers_eq members
      refine ⟨'"' :: (quoted key.toList ++ ':' :: (compact value ++ s)), ?_⟩
      rw [compact, hs]
      simp

end Json
