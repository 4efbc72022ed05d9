import Mathlib.Data.UInt
import Mathlib.Tactic.Common

/-!
Runs of a PackBits-like compression, over any type of value with a fixed-width
encoding.

A run is one value repeated or a few values in full, and is written as a control
byte and its values; the control byte of a single value in full is that of a
value repeated once, so the two are the same bytes.

* `Run`, `Run.expand`, `Run.Fits`: a run, the values it stands for, and the
  length limit of 128.
* `Run.write`: the bytes of a run.
* `Covers`: a list of runs that fit and stand for given values; what an encoder
  has to produce, whichever way it splits.
* `flatMap_slice`: cutting an encoding into fields of the fixed width.
-/

namespace PackBits

variable {α : Type*}

/-! ### Runs -/

/-- One value `count` times over, or the values in full. -/
inductive Run (α : Type*) where
  | repeated (count : ℕ) (value : α)
  | literal (values : List α)

namespace Run

/-- The values a run stands for. -/
def expand : Run α → List α
  | .repeated count value => List.replicate count value
  | .literal values => values

/-- A run has 1 to 128 values. -/
def Fits (run : Run α) : Prop := 0 < run.expand.length ∧ run.expand.length ≤ 128

/-- The bytes of a run: the control byte, then one value or all of them. -/
def write (encode : α → List UInt8) : Run α → List UInt8
  | .repeated count value => UInt8.ofNat (count - 1) :: encode value
  | .literal values => UInt8.ofNat (257 - values.length) :: values.flatMap encode

/-- A single value in full is written as one repeated once. -/
lemma write_literal_singleton (encode : α → List UInt8) (value : α) :
    (literal [value]).write encode = (repeated 1 value).write encode := by
  simp only [write, List.length_singleton, List.flatMap_cons, List.flatMap_nil, List.append_nil]
  rfl

/-- The control byte of a repeated value. -/
lemma control_repeated {count : ℕ} (hpos : 0 < count) (hcap : count ≤ 128) :
    UInt8.ofNat (count - 1) < 128 ∧ (UInt8.ofNat (count - 1)).toNat + 1 = count := by
  rw [UInt8.lt_iff_toNat_lt, UInt8.toNat_ofNat']
  simp only [UInt8.toNat_ofNat, Nat.reducePow, Nat.reduceMod]
  omega

/-- The control byte of several values in full. -/
lemma control_literal {count : ℕ} (hseveral : 1 < count) (hcap : count ≤ 128) :
    ¬ UInt8.ofNat (257 - count) < 128 ∧ UInt8.ofNat (257 - count) ≠ 128
      ∧ 257 - (UInt8.ofNat (257 - count)).toNat = count := by
  rw [UInt8.lt_iff_toNat_lt, ne_eq, ← UInt8.toNat_inj, UInt8.toNat_ofNat']
  simp only [UInt8.toNat_ofNat, Nat.reducePow, Nat.reduceMod]
  omega

end Run

/-! ### Covering a list of values by runs -/

/-- The runs all fit and stand for `values`, in order. -/
structure Covers (runs : List (Run α)) (values : List α) : Prop where
  fits : ∀ run ∈ runs, run.Fits
  expand : runs.flatMap Run.expand = values

lemma Covers.nil : Covers ([] : List (Run α)) [] := ⟨by simp, rfl⟩

lemma Covers.cons {runs : List (Run α)} {values : List α} (h : Covers runs values)
    (run : Run α) (hfits : run.Fits) : Covers (run :: runs) (run.expand ++ values) :=
  ⟨by simpa using ⟨hfits, h.fits⟩, by simp [h.expand]⟩

/-! ### Values inside an encoding -/

/-- The `length` bytes from `offset` on. -/
def slice (bytes : List UInt8) (offset length : ℕ) : List UInt8 :=
  (bytes.drop offset).take length

variable {encode : α → List UInt8} {width : ℕ}

lemma flatMap_length (hwidth : ∀ a, (encode a).length = width) (values : List α) :
    (values.flatMap encode).length = values.length * width := by
  induction values with
  | nil => simp
  | cons a values ih => simp [ih, hwidth, Nat.add_mul, Nat.add_comm]

lemma flatMap_drop (hwidth : ∀ a, (encode a).length = width) (values : List α) (index : ℕ) :
    (values.flatMap encode).drop (index * width) = (values.drop index).flatMap encode := by
  induction values generalizing index with
  | nil => simp
  | cons a values ih =>
      cases index with
      | zero => simp
      | succ index =>
          rw [List.flatMap_cons, Nat.succ_mul, Nat.add_comm, ← hwidth a, List.drop_length_add_append,
            hwidth a, ih, List.drop_succ_cons]

lemma flatMap_take (hwidth : ∀ a, (encode a).length = width) (values : List α) (count : ℕ) :
    (values.flatMap encode).take (count * width) = (values.take count).flatMap encode := by
  induction values generalizing count with
  | nil => simp
  | cons a values ih =>
      cases count with
      | zero => simp
      | succ count =>
          rw [List.flatMap_cons, Nat.succ_mul, Nat.add_comm, ← hwidth a, List.take_length_add_append,
            hwidth a, ih, List.take_succ_cons, List.flatMap_cons]

/-- A field of an encoding is the encoding of a value. -/
lemma flatMap_slice (hwidth : ∀ a, (encode a).length = width) {values : List α} {index : ℕ}
    {a : α} (h : values[index]? = some a) :
    slice (values.flatMap encode) (index * width) width = encode a := by
  obtain ⟨hlt, rfl⟩ := List.getElem?_eq_some_iff.mp h
  rw [slice, flatMap_drop hwidth, List.drop_eq_getElem_cons hlt, List.flatMap_cons,
    List.take_append_of_le_length (hwidth _).ge, ← hwidth values[index], List.take_length]

/-- Consecutive fields of an encoding are the encoding of consecutive values. -/
lemma flatMap_slice_take (hwidth : ∀ a, (encode a).length = width) (values : List α)
    (index count : ℕ) :
    slice (values.flatMap encode) (index * width) (count * width)
      = ((values.drop index).take count).flatMap encode := by
  rw [slice, flatMap_drop hwidth, flatMap_take hwidth]

/-- Reading every field of an encoding reads every value. -/
lemma range_flatMap_slice {β : Type*} (hwidth : ∀ a, (encode a).length = width)
    (f : List UInt8 → List β) (values : List α) :
    ((List.range values.length).flatMap fun i => f (slice (values.flatMap encode) (i * width) width))
      = values.flatMap fun a => f (encode a) := by
  rw [List.range_eq_range', List.flatMap_def, List.flatMap_def]
  congr 1
  apply List.ext_getElem (by simp)
  intro i hi _
  simp only [List.length_map, List.length_range'] at hi
  simp only [List.getElem_map, List.getElem_range', Nat.zero_add, Nat.one_mul]
  rw [← List.flatMap_def, flatMap_slice hwidth (List.getElem?_eq_getElem hi)]

end PackBits
