import Mathlib.Data.List.Basic
import Mathlib.Tactic.Common

/-!
A cache that forgets what was used least recently, as a list of entries with the eldest
first.

* `Lru.find?`, `Lru.touch`, `Lru.put`: the lookup, which makes an entry the youngest, and the
  insertion, which removes the eldest entry when there are too many.
* `Lru.mem_of_find?`, `Lru.mem_touch`, `Lru.mem_put`: where an entry comes from.
-/

namespace Lru

variable {κ β : Type*} [DecidableEq κ] {entries : List (κ × β)} {key : κ} {value : β} {e : κ × β}

def find? (entries : List (κ × β)) (key : κ) : Option β :=
  (entries.find? fun e => e.1 = key).map (·.2)

/-- The entries after a lookup. -/
def touch (entries : List (κ × β)) (key : κ) : List (κ × β) :=
  entries.filter (·.1 ≠ key) ++ entries.filter (·.1 = key)

/-- The entries after an insertion. -/
def put (capacity : ℕ) (entries : List (κ × β)) (key : κ) (value : β) : List (κ × β) :=
  let next := entries.filter (·.1 ≠ key) ++ [(key, value)]
  if capacity < next.length then next.tail else next

lemma mem_of_find? (h : find? entries key = some value) : (key, value) ∈ entries := by
  obtain ⟨e, he, rfl⟩ := Option.map_eq_some_iff.mp h
  have hkey : e.1 = key := by simpa using List.find?_some he
  have hmem := List.mem_of_find?_eq_some he
  rwa [← hkey]

lemma mem_touch : e ∈ touch entries key ↔ e ∈ entries := by
  unfold touch
  rw [List.mem_append, List.mem_filter, List.mem_filter, ← and_or_left]
  exact and_iff_left (by simpa using (em (e.1 = key)).symm)

lemma mem_put {capacity : ℕ} (h : e ∈ put capacity entries key value) :
    e ∈ entries ∨ e = (key, value) := by
  have hnext : e ∈ entries.filter (·.1 ≠ key) ++ [(key, value)] := by
    unfold put at h
    simp only at h
    split_ifs at h
    · exact List.mem_of_mem_tail h
    · exact h
  rcases List.mem_append.mp hnext with hold | hnew
  · exact .inl (List.mem_of_mem_filter hold)
  · exact .inr (List.mem_singleton.mp hnew)

end Lru
