import ShaPrint.Domain.Error
import ShaPrint.Text

/-!
Local printer queues and the selection a server shares, `domain/printer.rs`.

* `PrinterName`: a checked queue name; `PrinterName.parse` is the only check.
* `SharedPrinters`: a selection, in the order of selecting and without duplicates.
-/

namespace ShaPrint

/-- Longest printer queue name. -/
def nameLimit : ℕ := 220

/-- A control character. -/
def isControl (c : Char) : Bool := c.val < 0x20 || (0x7f ≤ c.val && c.val ≤ 0x9f)

/-- Name of a local printer queue. -/
structure PrinterName where
  value : String
  nonempty : value.toList ≠ []
  length_le : value.toList.length ≤ nameLimit
  printable : value.toList.any isControl = false
  trimmed : trim value.toList = value.toList
  deriving DecidableEq, Repr

namespace PrinterName

/-- Validates a queue name received from the spooler or from the UI. -/
def parse (value : String) : Except AppError PrinterName :=
  let name := String.ofList (trim value.toList)
  if hempty : name.toList = [] then .error (.invalidInput "printer name is empty")
  else if hlong : nameLimit < name.toList.length then
    .error (.invalidInput s!"printer name is longer than {nameLimit} characters")
  else if hcontrol : name.toList.any isControl = true then
    .error (.invalidInput "printer name contains control characters")
  else .ok ⟨name, hempty, Nat.le_of_not_lt hlong, by simpa using hcontrol, by simp [name]⟩

@[ext] lemma ext {a b : PrinterName} (h : a.value = b.value) : a = b := by
  cases a
  cases b
  cases h
  rfl

/-- The name as its characters. -/
def chars (name : PrinterName) : Chars := name.value.toList

lemma chars_ne_nil (name : PrinterName) : name.chars ≠ [] := name.nonempty

lemma chars_injective : Function.Injective chars := by
  intro a b h
  exact ext (String.toList_injective h)

/-- Parsing gives the trimmed text, where it gives a name. -/
lemma parse_eq_ok {value : String} {name : PrinterName} :
    parse value = .ok name ↔ name.chars = trim value.toList := by
  unfold parse
  constructor
  · intro h
    dsimp only at h
    split_ifs at h
    obtain rfl := Except.ok.inj h
    exact String.toList_ofList
  · intro h
    have hvalue : String.ofList (trim value.toList) = name.value := by
      rw [← h, chars, String.ofList_toList]
    have hlong : ¬ nameLimit < name.value.toList.length := Nat.not_lt.mpr name.length_le
    simp only [hvalue, name.nonempty, hlong, name.printable, Bool.false_eq_true, dite_false]

/-- A name parses to itself. -/
lemma parse_value (name : PrinterName) : parse name.value = .ok name :=
  parse_eq_ok.mpr name.trimmed.symm

lemma parse_chars (name : PrinterName) : parse (.ofList name.chars) = .ok name := by
  rw [chars, String.ofList_toList, parse_value]

end PrinterName

/-- The queues a server shares with clients. -/
structure SharedPrinters where
  names : List PrinterName
  nodup : names.Nodup
  deriving DecidableEq

namespace SharedPrinters

/-- No queue. -/
def empty : SharedPrinters := ⟨[], List.nodup_nil⟩

/-- Adds a name that is not selected yet. -/
def insert (selected : SharedPrinters) (name : PrinterName) : SharedPrinters :=
  if h : name ∈ selected.names then selected
  else ⟨selected.names ++ [name], List.nodup_append.mpr ⟨selected.nodup, by simp, by
    rintro a ha b hb rfl
    exact h (List.mem_singleton.mp hb ▸ ha)⟩⟩

/-- Builds a selection, keeping the first occurrence of each name. -/
def new (names : List PrinterName) : SharedPrinters := names.foldl insert empty

def contains (selected : SharedPrinters) (name : PrinterName) : Bool := selected.names.contains name

def isEmpty (selected : SharedPrinters) : Bool := selected.names.isEmpty

lemma mem_insert {selected : SharedPrinters} {name a : PrinterName} :
    a ∈ (selected.insert name).names ↔ a ∈ selected.names ∨ a = name := by
  unfold insert
  split
  · rename_i h
    constructor
    · exact .inl
    · rintro (ha | rfl)
      · exact ha
      · exact h
  · simp

/-- A selection has the names it is built from. -/
lemma mem_new {names : List PrinterName} {a : PrinterName} : a ∈ (new names).names ↔ a ∈ names := by
  have hfold : ∀ (names : List PrinterName) (selected : SharedPrinters),
      a ∈ (names.foldl insert selected).names ↔ a ∈ selected.names ∨ a ∈ names := by
    intro names
    induction names with
    | nil => simp
    | cons name names ih =>
        intro selected
        rw [List.foldl_cons, ih, mem_insert, List.mem_cons, or_assoc]
  simpa [new, empty] using hfold names empty

end SharedPrinters

end ShaPrint
