import Mathlib.Tactic.Common

/-!
Command lines as one string, and how they are split into arguments: backslashes are special
before a quotation mark only, and spaces and tabs separate arguments outside quotation marks.

* `splitFrom`: the splitter, with the backslashes it has read last and the argument it is in.
* `splitFrom_backslashes`, `splitFrom_quote`, `splitFrom_escaped`, `splitFrom_quoted`: its rules.
* `splitArguments_word`, `splitArguments_joined`: words, and arguments in a spelling that is
  read to its end whatever follows.
-/

namespace Argv

/-- What separates arguments. -/
def isBlank (c : Char) : Bool := c == ' ' || c == '\t'

/-- The argument so far with the backslashes that no quotation mark follows. -/
def flush (backslashes : ℕ) (argument : Option (List Char)) : Option (List Char) :=
  argument.map (· ++ List.replicate backslashes '\\')

/-- Splits what follows. An odd number of backslashes makes a quotation mark a character of
the argument; half of the backslashes before a quotation mark stay. -/
def splitFrom (quoted : Bool) (backslashes : ℕ) (argument : Option (List Char)) :
    List Char → List (List Char)
  | [] => (flush backslashes argument).toList
  | c :: rest =>
      let text := argument.getD []
      if c = '\\' then splitFrom quoted (backslashes + 1) (some text) rest
      else if c = '"' then
        let text := text ++ List.replicate (backslashes / 2) '\\'
        if backslashes % 2 = 0 then splitFrom (!quoted) 0 (some text) rest
        else splitFrom quoted 0 (some (text ++ ['"'])) rest
      else if isBlank c && !quoted then
        (flush backslashes argument).toList ++ splitFrom quoted 0 none rest
      else splitFrom quoted 0 (some (text ++ List.replicate backslashes '\\' ++ [c])) rest

/-- The arguments of a command line, the name of the program apart. -/
def splitArguments (line : List Char) : List (List Char) := splitFrom false 0 none line

variable {quoted : Bool} {backslashes : ℕ} {text rest : List Char} {c : Char}

/-! ### Rules -/

lemma splitFrom_backslashes (n : ℕ) :
    splitFrom quoted backslashes (some text) (List.replicate n '\\' ++ rest)
      = splitFrom quoted (backslashes + n) (some text) rest := by
  induction n generalizing backslashes with
  | zero => rfl
  | succ n ih =>
      rw [List.replicate_succ, List.cons_append, splitFrom, if_pos rfl, Option.getD_some, ih,
        Nat.add_right_comm, Nat.add_assoc]

/-- A quotation mark after an even number of backslashes opens or closes. -/
lemma splitFrom_quote (n : ℕ) :
    splitFrom quoted (2 * n) (some text) ('"' :: rest)
      = splitFrom (!quoted) 0 (some (text ++ List.replicate n '\\')) rest := by
  rw [splitFrom, if_neg (by decide), if_pos rfl, if_pos (Nat.mul_mod_right 2 n),
    Nat.mul_div_cancel_left n (by decide), Option.getD_some]

/-- A quotation mark after an odd number of backslashes is a character. -/
lemma splitFrom_escaped (n : ℕ) :
    splitFrom quoted (2 * n + 1) (some text) ('"' :: rest)
      = splitFrom quoted 0 (some (text ++ List.replicate n '\\' ++ ['"'])) rest := by
  have hhalf : (2 * n + 1) / 2 = n := by omega
  rw [splitFrom, if_neg (by decide), if_pos rfl, if_neg (by omega), hhalf, Option.getD_some]

/-- Every other character stands for itself inside quotation marks. -/
lemma splitFrom_quoted (hbackslash : c ≠ '\\') (hquote : c ≠ '"') :
    splitFrom true backslashes (some text) (c :: rest)
      = splitFrom true 0 (some (text ++ List.replicate backslashes '\\' ++ [c])) rest := by
  rw [splitFrom, if_neg hbackslash, if_neg hquote, if_neg (by simp), Option.getD_some]

lemma splitFrom_blank (hblank : isBlank c = true) :
    splitFrom false 0 (some text) (c :: rest) = text :: splitArguments rest := by
  have hbackslash : c ≠ '\\' := by
    rintro rfl
    cases hblank
  have hquote : c ≠ '"' := by
    rintro rfl
    cases hblank
  rw [splitFrom, if_neg hbackslash, if_neg hquote, hblank, if_pos (by rfl)]
  simp [flush, splitArguments]

/-! ### Words -/

/-- A character that stands for itself at every place of a command line. -/
def isPlain (c : Char) : Bool := c != '\\' && c != '"' && !isBlank c

lemma splitFrom_plain (argument : Option (List Char)) (hc : isPlain c = true) :
    splitFrom false 0 argument (c :: rest)
      = splitFrom false 0 (some (argument.getD [] ++ [c])) rest := by
  simp only [isPlain, Bool.and_eq_true, bne_iff_ne, ne_eq, Bool.not_eq_true'] at hc
  obtain ⟨⟨hbackslash, hquote⟩, hblank⟩ := hc
  rw [splitFrom, if_neg hbackslash, if_neg hquote, hblank, if_neg (by decide)]
  simp

lemma splitFrom_plains {word : List Char} (hword : word.all isPlain = true) :
    splitFrom false 0 (some text) (word ++ rest) = splitFrom false 0 (some (text ++ word)) rest := by
  induction word generalizing text with
  | nil => simp
  | cons c word ih =>
      rw [List.all_cons, Bool.and_eq_true] at hword
      rw [List.cons_append, splitFrom_plain _ hword.1, ih hword.2, Option.getD_some]
      simp

/-- A word is an argument. -/
lemma splitArguments_word {word : List Char} (hne : word ≠ []) (hword : word.all isPlain = true) :
    splitArguments (word ++ ' ' :: rest) = word :: splitArguments rest := by
  cases word with
  | nil => exact absurd rfl hne
  | cons c word =>
      rw [List.all_cons, Bool.and_eq_true] at hword
      rw [splitArguments, List.cons_append, splitFrom_plain none hword.1, splitFrom_plains hword.2,
        splitFrom_blank rfl]
      rfl

/-! ### Joined arguments -/

/-- A spelling of an argument that is read to its end, whatever follows. -/
def Spells (spelling argument : List Char) : Prop :=
  ∀ rest, splitArguments (spelling ++ rest) = splitFrom false 0 (some argument) rest

lemma Spells.split_blank {spelling argument : List Char} (h : Spells spelling argument) :
    splitArguments (spelling ++ ' ' :: rest) = argument :: splitArguments rest := by
  rw [h, splitFrom_blank rfl]

lemma Spells.split {spelling argument : List Char} (h : Spells spelling argument) :
    splitArguments spelling = [argument] := by
  have hend := h []
  rw [List.append_nil] at hend
  rw [hend, splitFrom]
  simp [flush]

/-- Arguments joined by spaces are split into the same arguments. -/
theorem splitArguments_joined {spell : List Char → List Char} (h : ∀ a, Spells (spell a) a)
    (arguments : List (List Char)) :
    splitArguments ([' '].intercalate (arguments.map spell)) = arguments := by
  induction arguments with
  | nil => rfl
  | cons a arguments ih =>
      cases arguments with
      | nil =>
          rw [List.map_singleton, List.intercalate_singleton]
          exact (h a).split
      | cons b arguments =>
          rw [List.map_cons, List.map_cons, List.intercalate_cons_cons, ← List.map_cons,
            List.append_assoc, List.singleton_append, (h a).split_blank, ih]

end Argv
