import Mathlib.Data.UInt
import Mathlib.Tactic.Common
import ShaPrint.Lib.Fallible

/-!
A cursor over a list, and the framing of byte strings by a length byte.

* `Cursor.take?`: the next elements, where there are as many.
* `Cursor.At`: what a list holds from a position on; `At.take?`, `At.getElem?` and
  `At.skip` read it off from the left.
* `Cursor.Reads`: a reader takes a text for a value wherever it stands; `readMany`,
  `Reads.many`: a reader repeated.
* `Cursor.frame`: a byte string behind its length.
-/

namespace Cursor

variable {α : Type*} {list rest x : List α} {position : ℕ} {a : α}

/-- The elements from the position on, if there are `length` of them. -/
def take? (list : List α) (position length : ℕ) : Option (List α) :=
  if position + length ≤ list.length then some ((list.drop position).take length) else none

/-- The list holds `rest` from the position on. -/
structure At (list : List α) (position : ℕ) (rest : List α) : Prop where
  drop : list.drop position = rest
  le : position ≤ list.length

lemma at_start (list : List α) : At list 0 list := ⟨rfl, Nat.zero_le _⟩

namespace At

lemma length_eq (h : At list position rest) : position + rest.length = list.length := by
  have hle := h.le
  rw [← h.drop, List.length_drop]
  omega

/-- The cursor moves over what it is at. -/
lemma skip (h : At list position (x ++ rest)) : At list (position + x.length) rest where
  drop := by rw [← List.drop_drop, h.drop, List.drop_left]
  le := by
    have hlength := h.length_eq
    rw [List.length_append] at hlength
    omega

lemma tail (h : At list position (a :: rest)) : At list (position + 1) rest := h.skip (x := [a])

lemma take? (h : At list position (x ++ rest)) : Cursor.take? list position x.length = some x := by
  have hlength := h.length_eq
  rw [List.length_append] at hlength
  rw [Cursor.take?, if_pos (by omega), h.drop, List.take_left]

lemma getElem? (h : At list position (a :: rest)) : list[position]? = some a := by
  rw [← List.head?_drop, h.drop, List.head?_cons]

end At

/-! ### Readers -/

section Readers

variable {ε β : Type*}

/-- The reader takes `x` for `b`, wherever it stands in the list. -/
def Reads (list : List α) (read : ℕ → Except ε (β × ℕ)) (x : List α) (b : β) : Prop :=
  ∀ (position : ℕ) (rest : List α), At list position (x ++ rest) →
    read position = .ok (b, position + x.length)

/-- A reader repeated: `count` items after one another. -/
def readMany (read : ℕ → Except ε (β × ℕ)) : ℕ → ℕ → Except ε (List β × ℕ)
  | 0, position => .ok ([], position)
  | count + 1, position => do
      let (item, position) ← read position
      let (items, position) ← readMany read count position
      return (item :: items, position)

lemma Reads.many {list : List α} {read : ℕ → Except ε (β × ℕ)} {xs : List (List α)} {bs : List β}
    (h : List.Forall₂ (Reads list read) xs bs) :
    Reads list (readMany read bs.length) xs.flatten bs := by
  induction h with
  | nil =>
      intro position rest _
      rfl
  | @cons x b xs bs hx _ ih =>
      intro position rest hat
      rw [List.flatten_cons, List.append_assoc] at hat
      rw [List.length_cons, readMany, hx _ _ hat, except_ok_do]
      dsimp only
      rw [ih _ _ hat.skip, except_ok_do, List.flatten_cons, List.length_append, Nat.add_assoc]
      rfl

end Readers

/-- A byte string behind its length, which is cut to a byte. -/
def frame (bytes : List UInt8) : List UInt8 := .ofNat bytes.length :: bytes

@[simp] lemma length_frame (bytes : List UInt8) : (frame bytes).length = bytes.length + 1 := rfl

end Cursor
