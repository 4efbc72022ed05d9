import Mathlib.Data.UInt
import ShaPrint.Lib.Json.Text

/-!
Records as JSON objects: a member for each field, read back by the name of the field.

* `Serde`: the types with a JSON form that is read back, and is not null.
* `memberOf`, `readMember`, `readOmitted`: the members of an object.
* `record`: an object by its fields, one of which can be left out or null.
* `memberOf_field`, `memberOf_nulled`, `memberOf_omitted`: what the members of a record are.
-/

namespace Json

/-- A JSON form that is read back. -/
class Serde (α : Type*) where
  serialize : α → Value
  deserialize : Value → Option α
  deserialize_serialize : ∀ a, deserialize (serialize a) = some a
  serialize_ne_null : ∀ a, serialize a ≠ .null

export Serde (serialize deserialize deserialize_serialize serialize_ne_null)

attribute [simp] deserialize_serialize

/-! ### Values that are no objects -/

instance : Serde Bool where
  serialize b := .bool b
  deserialize
    | .bool b => some b
    | _ => none
  deserialize_serialize _ := rfl
  serialize_ne_null _ h := by cases h

instance : Serde (List Char) where
  serialize s := .text s
  deserialize
    | .text s => some s
    | _ => none
  deserialize_serialize _ := rfl
  serialize_ne_null _ h := by cases h

/-- A number of a machine type. -/
def readBounded (bound : ℕ) : Value → Option ℕ
  | .nat n => if n < bound then some n else none
  | _ => none

instance : Serde UInt64 where
  serialize n := .nat n.toNat
  deserialize v := (readBounded UInt64.size v).map UInt64.ofNat
  deserialize_serialize n := by
    rw [readBounded, if_pos n.toNat_lt_size, Option.map_some, UInt64.ofNat_toNat]
  serialize_ne_null _ h := by cases h

instance : Serde UInt16 where
  serialize n := .nat n.toNat
  deserialize v := (readBounded UInt16.size v).map UInt16.ofNat
  deserialize_serialize n := by
    rw [readBounded, if_pos n.toNat_lt_size, Option.map_some, UInt16.ofNat_toNat]
  serialize_ne_null _ h := by cases h

section

variable {α : Type*} [Serde α]

def readItems : List Value → Option (List α)
  | [] => some []
  | item :: items => (deserialize item).bind fun a => (readItems items).map (a :: ·)

lemma readItems_map (l : List α) : readItems (l.map serialize) = some l := by
  induction l with
  | nil => rfl
  | cons a l ih =>
      rw [List.map_cons, readItems, deserialize_serialize, Option.bind_some, ih, Option.map_some]

instance : Serde (List α) where
  serialize l := .array (l.map serialize)
  deserialize
    | .array items => readItems items
    | _ => none
  deserialize_serialize l := readItems_map l
  serialize_ne_null _ h := by cases h

end

/-! ### The members of an object -/

/-- The first value of a key. -/
def memberOf {β : Type*} (key : String) : List (String × β) → Option β
  | [] => none
  | (k, b) :: rest => if k = key then some b else memberOf key rest

def members : Value → Option (List (String × Value))
  | .object ms => some ms
  | _ => none

section

variable {α : Type*} [Serde α]

/-- A member that must be there. -/
def readMember (ms : List (String × Value)) (key : String) : Option α :=
  (memberOf key ms).bind deserialize

/-- The value of a field that may be absent or null. -/
def readAbsent : Option Value → Option (Option α)
  | none => some none
  | some .null => some none
  | some v => (deserialize v).map some

/-- A member that may be absent or null. -/
def readOmitted (ms : List (String × Value)) (key : String) : Option (Option α) :=
  readAbsent (memberOf key ms)

/-- A field that is written as null if it has no value. -/
def nullable : Option α → Value
  | none => .null
  | some a => serialize a

@[simp] lemma readAbsent_map (x : Option α) : readAbsent (x.map serialize) = some x := by
  cases x with
  | none => rfl
  | some a =>
      have hne := serialize_ne_null a
      have hback := deserialize_serialize a
      rw [Option.map_some]
      unfold readAbsent
      split
      · rename_i h
        cases h
      · rename_i h
        exact absurd (Option.some.inj h) hne
      · rename_i v _ h
        rw [← Option.some.inj h, hback, Option.map_some]

@[simp] lemma readAbsent_nullable (x : Option α) : readAbsent (some (nullable x)) = some x := by
  cases x with
  | none => rfl
  | some a => exact readAbsent_map (some a)

end

/-! ### Records -/

/-- The members of a record, by its fields: a field without a value is left out. -/
def present (fields : List (String × Option Value)) : List (String × Value) :=
  fields.filterMap fun field => field.2.map fun v => (field.1, v)

def record (fields : List (String × Option Value)) : Value := .object (present fields)

@[simp] lemma members_record (fields : List (String × Option Value)) :
    members (record fields) = some (present fields) :=
  rfl

section

variable {α β : Type*} [Serde α] [Serde β] {name key : String}
  {fields : List (String × Option Value)}

/-- A field that is always written. -/
def field (name : String) (a : α) : String × Option Value := (name, some (serialize a))

/-- A field that is left out if it has no value. -/
def omitted (name : String) (x : Option α) : String × Option Value := (name, x.map serialize)

/-- A field that is null if it has no value. -/
def nulled (name : String) (x : Option α) : String × Option Value := (name, some (nullable x))

@[simp] lemma memberOf_nil : memberOf key (present []) = none := rfl

@[simp] lemma memberOf_field (a : α) :
    memberOf name (present (field name a :: fields)) = some (serialize a) :=
  if_pos rfl

@[simp] lemma memberOf_nulled (x : Option α) :
    memberOf name (present (nulled name x :: fields)) = some (nullable x) :=
  if_pos rfl

@[simp] lemma memberOf_omitted (x : Option α) (h : memberOf name (present fields) = none) :
    memberOf name (present (omitted name x :: fields)) = x.map serialize := by
  cases x with
  | none => exact h
  | some a => exact if_pos rfl

@[simp] lemma memberOf_omitted_last (x : Option α) :
    memberOf name (present [omitted name x]) = x.map serialize :=
  memberOf_omitted x rfl

/-- A field of another name is passed. -/
lemma memberOf_cons_of_ne {value : Option Value} (h : name ≠ key) :
    memberOf key (present ((name, value) :: fields)) = memberOf key (present fields) := by
  cases value with
  | none => rfl
  | some v => exact if_neg h

@[simp] lemma memberOf_field_of_ne (a : α) (h : name ≠ key) :
    memberOf key (present (field name a :: fields)) = memberOf key (present fields) :=
  memberOf_cons_of_ne h

@[simp] lemma memberOf_nulled_of_ne (x : Option α) (h : name ≠ key) :
    memberOf key (present (nulled name x :: fields)) = memberOf key (present fields) :=
  memberOf_cons_of_ne h

@[simp] lemma memberOf_omitted_of_ne (x : Option α) (h : name ≠ key) :
    memberOf key (present (omitted name x :: fields)) = memberOf key (present fields) :=
  memberOf_cons_of_ne h

end

end Json
