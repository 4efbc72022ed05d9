import Mathlib.Data.List.Induction

/-!
Histories: the latest element that meets a condition, and conditions on every element that
look at what came before it.

* `Latest P es pre e`: `e` is the last element of `es` that meets `P`, and `pre` is what
  came before it.
* `latest_concat_of_pos`, `latest_concat_of_neg`: one more element.
* `Throughout P es`: every element `e` of `es` meets `P pre e`, where `pre` came before it.
* `throughout_concat`, `Throughout.append`: more elements.
-/

variable {α : Type*}

section Latest

variable {P : α → Prop}

/-- `e` is the last element of `es` that meets `P`; `pre` came before it. -/
def Latest (P : α → Prop) (es pre : List α) (e : α) : Prop :=
  ∃ post, es = pre ++ e :: post ∧ P e ∧ ∀ f ∈ post, ¬P f

lemma not_latest_nil {pre : List α} {e : α} : ¬Latest P [] pre e := by
  rintro ⟨post, hes, -⟩
  simp at hes

/-- One more element that meets the condition is the latest. -/
lemma latest_concat_of_pos {es pre : List α} {e f : α} (hf : P f) :
    Latest P (es ++ [f]) pre e ↔ pre = es ∧ e = f := by
  constructor
  · rintro ⟨post, hes, -, hpost⟩
    rcases List.eq_nil_or_concat post with rfl | ⟨post', g, rfl⟩
    · obtain ⟨rfl, hg⟩ := List.append_inj' hes rfl
      exact ⟨rfl, (List.cons.inj hg).1.symm⟩
    · have hes' : es ++ [f] = (pre ++ e :: post') ++ [g] := by simpa using hes
      obtain ⟨-, hg⟩ := List.append_inj' hes' rfl
      obtain rfl := (List.cons.inj hg).1
      exact absurd hf (hpost f (by simp))
  · rintro ⟨rfl, rfl⟩
    exact ⟨[], rfl, hf, fun g hg => absurd hg List.not_mem_nil⟩

/-- One more element that does not meet it changes nothing. -/
lemma latest_concat_of_neg {es pre : List α} {e f : α} (hf : ¬P f) :
    Latest P (es ++ [f]) pre e ↔ Latest P es pre e := by
  constructor
  · rintro ⟨post, hes, he, hpost⟩
    rcases List.eq_nil_or_concat post with rfl | ⟨post', g, rfl⟩
    · obtain ⟨-, hg⟩ := List.append_inj' hes rfl
      obtain rfl := (List.cons.inj hg).1
      exact absurd he hf
    · have hes' : es ++ [f] = (pre ++ e :: post') ++ [g] := by simpa using hes
      exact ⟨post', (List.append_inj' hes' rfl).1, he, fun x hx => hpost x (by simp [hx])⟩
  · rintro ⟨post, rfl, he, hpost⟩
    refine ⟨post ++ [f], by simp, he, fun x hx => ?_⟩
    rcases List.mem_append.mp hx with hx | hx
    · exact hpost x hx
    · exact List.mem_singleton.mp hx ▸ hf

end Latest

section Throughout

variable {P : List α → α → Prop}

/-- Every element meets `P` with what came before it. -/
def Throughout (P : List α → α → Prop) (es : List α) : Prop :=
  ∀ pre e post, es = pre ++ e :: post → P pre e

lemma throughout_nil : Throughout P [] := by
  intro pre e post h
  simp at h

lemma throughout_concat {es : List α} {e : α} :
    Throughout P (es ++ [e]) ↔ Throughout P es ∧ P es e := by
  constructor
  · intro h
    refine ⟨fun pre f post hes => h pre f (post ++ [e]) (by simp [hes]), h es e [] rfl⟩
  · rintro ⟨hes, he⟩ pre f post hsplit
    rcases List.eq_nil_or_concat post with rfl | ⟨post', g, rfl⟩
    · obtain ⟨rfl, hlast⟩ := List.append_inj' hsplit rfl
      obtain rfl := (List.cons.inj hlast).1
      exact he
    · have hsplit' : es ++ [e] = (pre ++ f :: post') ++ [g] := by simpa using hsplit
      exact hes pre f post' (List.append_inj' hsplit' rfl).1

/-- Elements that meet `P` with anything before them. -/
lemma Throughout.append {es fs : List α} (h : Throughout P es)
    (hfs : ∀ f ∈ fs, ∀ pre, P pre f) : Throughout P (es ++ fs) := by
  induction fs using List.reverseRecOn with
  | nil => rwa [List.append_nil]
  | append_singleton fs f ih =>
      rw [← List.append_assoc, throughout_concat]
      exact ⟨ih fun g hg => hfs g (List.mem_append_left _ hg), hfs f (by simp) _⟩

end Throughout
