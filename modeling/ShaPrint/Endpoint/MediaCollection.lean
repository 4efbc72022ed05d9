import ShaPrint.Endpoint.Settings

/-!
Which media a media collection asks for.

* `Members`: the members of a collection, and the fields that spell them.
* `requestedMedia`: what the values of `media-size-name` and the dimensions of `media-size` ask
  for, without regard to anything else in the collection.
* `mediaScan_elsewhere`, `mediaScan_size`, `mediaScan_top`: what the members of a collection leave
  in the state of the scan, by where the collection stands; one induction on the members each.
* `exists_members`: fields that the scan accepts spell a collection.
-/

namespace ShaPrint.Ipp

/-! ### Collections -/

/-- The members of a collection, in order: a name with a value, or with a collection. -/
inductive Members where
  | nil
  | value (name : Bytes) (tag : UInt8) (bytes : Bytes) (rest : Members)
  | collection (name : Bytes) (inner rest : Members)

/-- A member without those behind it. -/
inductive Member where
  | value (name : Bytes) (tag : UInt8) (bytes : Bytes)
  | collection (name : Bytes) (inner : Members)

namespace Members

def toList : Members → List Member
  | nil => []
  | value name tag bytes rest => .value name tag bytes :: rest.toList
  | collection name inner rest => .collection name inner :: rest.toList

/-- The fields that spell members: a member's name stands in front of its value, and a collection
has a field at either end. -/
def fields : Members → List (UInt8 × Bytes)
  | nil => []
  | value name tag bytes rest => (Tag.memberAttrName, name) :: (tag, bytes) :: rest.fields
  | collection name inner rest =>
      (Tag.memberAttrName, name) :: (Tag.begCollection, []) ::
        (inner.fields ++ (Tag.endCollection, []) :: rest.fields)

def depth : Members → ℕ
  | nil => 0
  | value _ _ _ rest => rest.depth
  | collection _ inner rest => max (inner.depth + 1) rest.depth

/-- Every member has a name, and the tag of a value is none of those that frame members. -/
def Framed : Members → Prop
  | nil => True
  | value name tag _ rest =>
      name ≠ [] ∧ (tag ≠ Tag.memberAttrName ∧ tag ≠ Tag.begCollection ∧ tag ≠ Tag.endCollection)
        ∧ rest.Framed
  | collection name inner rest => name ≠ [] ∧ inner.Framed ∧ rest.Framed

/-- The values of the members with a name, with their tags. -/
def values (key : Bytes) : Members → List (UInt8 × Bytes)
  | nil => []
  | value name tag bytes rest =>
      if name = key then (tag, bytes) :: rest.values key else rest.values key
  | collection _ _ rest => rest.values key

/-- The collections of the members with a name. -/
def collections (key : Bytes) : Members → List Members
  | nil => []
  | value _ _ _ rest => rest.collections key
  | collection name inner rest =>
      if name = key then inner :: rest.collections key else rest.collections key

end Members

/-! ### What a collection asks for -/

/-- The text of a size name. -/
def sizeNameText (field : UInt8 × Bytes) : Option String :=
  if ¬(field.1 = Tag.keyword ∨ field.1 = Tag.name) then none
  else (fromUtf8 field.2).bind fun text =>
    if '\x00' ∈ (trimEndNul text).toList then none else some (trimEndNul text)

/-- The size name, if there is one; the outer `none` refuses the values. Nothing may stand behind
a name that is not empty. -/
def readNames : Option String → List (UInt8 × Bytes) → Option (Option String)
  | name, [] => some name
  | some _, _ :: _ => none
  | none, field :: fields =>
      (sizeNameText field).bind fun text => readNames (if text = "" then none else some text) fields

/-- A dimension in hundredths of a millimetre. -/
def dimensionOf (field : UInt8 × Bytes) : Option ℤ :=
  if field.1 ≠ Tag.integer then none
  else (Request.i32OfBytes field.2).filter fun dimension => 5000 ≤ dimension && dimension ≤ 45000

/-- The only dimension among values. -/
def readDimension : List (UInt8 × Bytes) → Option ℤ
  | [field] => dimensionOf field
  | _ => none

/-- The short and the long side in tenths of a millimetre, if there is a size. -/
def readSizes : List (List (UInt8 × Bytes) × List (UInt8 × Bytes)) → Option (Option (ℤ × ℤ))
  | [] => some none
  | [(xs, ys)] =>
      (readDimension xs).bind fun x => (readDimension ys).bind fun y =>
        if 33020 < min x y then none else some (some (min x y / 10, max x y / 10))
  | _ => none

/-- The media that size names and the values of the dimensions of the sizes ask for. -/
def requestedMedia (names : List (UInt8 × Bytes))
    (sizes : List (List (UInt8 × Bytes) × List (UInt8 × Bytes))) : Except Status (Option String) :=
  match (readNames none names).bind fun name => (readSizes sizes).map fun size => (name, size) with
  | some (name, size) => .ok (name <|> size.map fun (short, long) => mediaKeyword short long)
  | none => .error .attributesOrValuesNotSupported

/-- The values of the dimensions of a size. -/
def Members.dimensions (size : Members) : List (UInt8 × Bytes) × List (UInt8 × Bytes) :=
  (size.values xDimension, size.values yDimension)

/-- The media that the members of a media collection ask for. -/
def Members.media (m : Members) : Except Status (Option String) :=
  requestedMedia (m.values mediaSizeName) ((m.collections mediaSize).map Members.dimensions)

/-! ### One member -/

section

variable {path : List Bytes} {name : Option String} {seen : Bool} {x y : Option ℤ} {key : Bytes}

/-- A name and the value behind it. -/
lemma mediaScan_value (hpath : path ≠ []) (hkey : key ≠ []) {tag : UInt8}
    (htag : tag ≠ Tag.memberAttrName ∧ tag ≠ Tag.begCollection ∧ tag ≠ Tag.endCollection)
    (bytes : Bytes) (rest : List (UInt8 × Bytes)) :
    ((Tag.memberAttrName, key) :: (tag, bytes) :: rest).foldlM mediaScanStep
        ⟨path, none, name, seen, x, y⟩
      = (mediaScanValue ⟨path, none, name, seen, x, y⟩ key tag bytes).bind
        (rest.foldlM mediaScanStep) := by
  have hname : mediaScanStep ⟨path, none, name, seen, x, y⟩ (Tag.memberAttrName, key)
      = some ⟨path, some key, name, seen, x, y⟩ := by
    simp [mediaScanStep, hpath, hkey]
  have hvalue : mediaScanStep ⟨path, some key, name, seen, x, y⟩ (tag, bytes)
      = mediaScanValue ⟨path, none, name, seen, x, y⟩ key tag bytes := by
    simp [mediaScanStep, hpath, htag]
  rw [List.foldlM_cons, hname, Option.bind_eq_bind, Option.bind_some, List.foldlM_cons, hvalue]
  rfl

/-- A name and the beginning of the collection behind it. -/
lemma mediaScan_begin (hpath : path ≠ []) (hkey : key ≠ []) (hlength : path.length < 16)
    (rest : List (UInt8 × Bytes)) :
    ((Tag.memberAttrName, key) :: (Tag.begCollection, []) :: rest).foldlM mediaScanStep
        ⟨path, none, name, seen, x, y⟩
      = if path.length = 1 ∧ key = mediaSize ∧ seen then none
        else rest.foldlM mediaScanStep
          ⟨key :: path, none, name, seen || (path.length == 1 && key == mediaSize), x, y⟩ := by
  have hname : mediaScanStep ⟨path, none, name, seen, x, y⟩ (Tag.memberAttrName, key)
      = some ⟨path, some key, name, seen, x, y⟩ := by
    simp [mediaScanStep, hpath, hkey]
  have hne : Tag.begCollection ≠ Tag.memberAttrName := by decide
  rw [List.foldlM_cons, hname, Option.bind_eq_bind, Option.bind_some, List.foldlM_cons]
  unfold mediaScanStep
  simp only [hpath, if_false, hne, if_true, ne_eq, not_true_eq_false, Nat.not_le.mpr hlength,
    or_self, Option.bind_some]
  split_ifs <;> rfl

lemma mediaScan_end (hpath : path ≠ []) (rest : List (UInt8 × Bytes)) :
    ((Tag.endCollection, []) :: rest).foldlM mediaScanStep ⟨path, none, name, seen, x, y⟩
      = rest.foldlM mediaScanStep ⟨path.tail, none, name, seen, x, y⟩ := by
  have hstep : mediaScanStep ⟨path, none, name, seen, x, y⟩ (Tag.endCollection, [])
      = some ⟨path.tail, none, name, seen, x, y⟩ := by
    simp [mediaScanStep, hpath, Tag.endCollection, Tag.memberAttrName, Tag.begCollection]
  rw [List.foldlM_cons, hstep]
  rfl

/-! ### Members by where they stand -/

/-- Members that are neither of the media collection nor of a size leave nothing. -/
lemma mediaScan_elsewhere {m : Members} (hm : m.Framed)
    (hpath : 3 ≤ path.length ∨ path.length = 2 ∧ path ≠ [mediaSize, mediaCol])
    (hdepth : m.depth + path.length ≤ 16) (rest : List (UInt8 × Bytes)) :
    (m.fields ++ rest).foldlM mediaScanStep ⟨path, none, name, seen, x, y⟩
      = rest.foldlM mediaScanStep ⟨path, none, name, seen, x, y⟩ := by
  have hne : path ≠ [] := by
    rintro rfl
    simp at hpath
  have hone : path.length ≠ 1 := by omega
  induction m generalizing path rest with
  | nil => rfl
  | value key tag bytes tail ih =>
      have hvalue : mediaScanValue ⟨path, none, name, seen, x, y⟩ key tag bytes
          = some ⟨path, none, name, seen, x, y⟩ := by
        have hsize : path ≠ [mediaSize, mediaCol] := by
          rcases hpath with h | h
          · rintro rfl
            simp at h
          · exact h.2
        simp [mediaScanValue, hone, hsize]
      rw [Members.fields, List.cons_append, List.cons_append, mediaScan_value hne hm.1 hm.2.1,
        hvalue]
      exact ih hm.2.2 hpath hdepth rest hne hone
  | collection key inner tail ihInner ihTail =>
      rw [Members.depth] at hdepth
      have hseen : (seen || (path.length == 1 && key == mediaSize)) = seen := by
        rw [beq_eq_false_iff_ne.mpr hone, Bool.false_and, Bool.or_false]
      have hlength : (key :: path).length = path.length + 1 := List.length_cons
      rw [Members.fields, List.cons_append, List.cons_append, List.append_assoc, List.cons_append,
        mediaScan_begin hne hm.1 (by omega), if_neg fun h => hone h.1, hseen,
        ihInner hm.2.1 (by omega) (by omega) _ (List.cons_ne_nil _ _) (by omega),
        mediaScan_end (List.cons_ne_nil _ _), List.tail_cons]
      exact ihTail hm.2.2 hpath (by omega) rest hne hone

/-- The values of a dimension behind one that may be read already. -/
def readDimensions : Option ℤ → List (UInt8 × Bytes) → Option (Option ℤ)
  | dimension, [] => some dimension
  | some _, _ :: _ => none
  | none, field :: fields =>
      (dimensionOf field).bind fun value => readDimensions (some value) fields

lemma xDimension_ne : xDimension ≠ yDimension := by
  unfold xDimension yDimension
  rw [ne_eq, asBytes_inj]
  decide

lemma dimensionOf_eq (tag : UInt8) (bytes : Bytes) :
    dimensionOf (tag, bytes) = if tag ≠ Tag.integer then none
      else (Request.i32OfBytes bytes).bind fun dimension =>
        if ¬(5000 ≤ dimension ∧ dimension ≤ 45000) then none else some dimension := by
  unfold dimensionOf
  dsimp only
  refine ite_congr rfl (fun _ => rfl) fun _ => ?_
  cases Request.i32OfBytes bytes with
  | none => rfl
  | some dimension =>
      rw [Option.filter_some, Option.bind_some, ite_not]
      simp

lemma readDimensions_singleton (tag : UInt8) (bytes : Bytes) :
    readDimensions x [(tag, bytes)] = if tag ≠ Tag.integer then none
      else (Request.i32OfBytes bytes).bind fun dimension =>
        if ¬(5000 ≤ dimension ∧ dimension ≤ 45000) then none
        else if x.isSome then none else some (some dimension) := by
  cases x with
  | none =>
      rw [readDimensions, dimensionOf_eq, apply_ite (Option.bind · _), Option.bind_assoc]
      refine ite_congr rfl (fun _ => rfl) fun _ => Option.bind_congr fun dimension _ => ?_
      rw [apply_ite (Option.bind · _)]
      rfl
  | some x =>
      rw [readDimensions]
      cases Request.i32OfBytes bytes <;> simp

/-- A dimension of a size may not be read already. -/
lemma scanValue_x (tag : UInt8) (bytes : Bytes) :
    mediaScanValue ⟨[mediaSize, mediaCol], none, name, seen, x, y⟩ xDimension tag bytes
      = (readDimensions x [(tag, bytes)]).map fun x' =>
          ⟨[mediaSize, mediaCol], none, name, seen, x', y⟩ := by
  rw [mediaScanValue, if_neg fun h => absurd h.1 (by simp), if_pos ⟨rfl, .inl rfl⟩,
    readDimensions_singleton, apply_ite (Option.map _), Option.map_bind]
  refine ite_congr rfl (fun _ => rfl) fun _ => Option.bind_congr fun dimension _ => ?_
  rw [if_pos rfl, Function.comp_apply, apply_ite (Option.map _), apply_ite (Option.map _)]
  rfl

lemma scanValue_y (tag : UInt8) (bytes : Bytes) :
    mediaScanValue ⟨[mediaSize, mediaCol], none, name, seen, x, y⟩ yDimension tag bytes
      = (readDimensions y [(tag, bytes)]).map fun y' =>
          ⟨[mediaSize, mediaCol], none, name, seen, x, y'⟩ := by
  rw [mediaScanValue, if_neg fun h => absurd h.1 (by simp), if_pos ⟨rfl, .inr rfl⟩,
    readDimensions_singleton, apply_ite (Option.map _), Option.map_bind]
  refine ite_congr rfl (fun _ => rfl) fun _ => Option.bind_congr fun dimension _ => ?_
  rw [if_neg xDimension_ne.symm, Function.comp_apply, apply_ite (Option.map _),
    apply_ite (Option.map _)]
  rfl

lemma readDimensions_cons (field : UInt8 × Bytes) (fields : List (UInt8 × Bytes)) :
    readDimensions x (field :: fields)
      = (readDimensions x [field]).bind fun x' => readDimensions x' fields := by
  cases x with
  | none =>
      rw [readDimensions, readDimensions, Option.bind_assoc]
      rfl
  | some x => rfl

/-- The members of a size leave its dimensions. -/
lemma mediaScan_size {m : Members} (hm : m.Framed) (hdepth : m.depth ≤ 14)
    (rest : List (UInt8 × Bytes)) :
    (m.fields ++ rest).foldlM mediaScanStep ⟨[mediaSize, mediaCol], none, name, seen, x, y⟩
      = (readDimensions x (m.values xDimension)).bind fun x' =>
          (readDimensions y (m.values yDimension)).bind fun y' =>
            rest.foldlM mediaScanStep ⟨[mediaSize, mediaCol], none, name, seen, x', y'⟩ := by
  have hne : [mediaSize, mediaCol] ≠ [] := List.cons_ne_nil _ _
  induction m generalizing x y rest with
  | nil => simp [Members.fields, Members.values, readDimensions]
  | value key tag bytes tail ih =>
      rw [Members.fields, List.cons_append, List.cons_append, mediaScan_value hne hm.1 hm.2.1]
      have htail : ∀ x y, (tail.fields ++ rest).foldlM mediaScanStep
          ⟨[mediaSize, mediaCol], none, name, seen, x, y⟩ = _ := fun x y => ih hm.2.2 hdepth rest
      unfold Members.values
      by_cases hx : key = xDimension
      · rw [hx, if_pos rfl, if_neg xDimension_ne, scanValue_x,
          readDimensions_cons _ (tail.values xDimension), Option.bind_map, Option.bind_assoc]
        exact Option.bind_congr fun x' _ => htail x' y
      · by_cases hy : key = yDimension
        · rw [hy, if_neg xDimension_ne.symm, if_pos rfl, scanValue_y,
            readDimensions_cons _ (tail.values yDimension), Option.bind_map, Option.bind_comm]
          simp only [Option.bind_assoc]
          exact Option.bind_congr fun y' _ => (htail x y').trans (Option.bind_comm ..)
        · rw [if_neg hx, if_neg hy]
          have hvalue : mediaScanValue ⟨[mediaSize, mediaCol], none, name, seen, x, y⟩ key tag bytes
              = some ⟨[mediaSize, mediaCol], none, name, seen, x, y⟩ := by
            simp [mediaScanValue, hx, hy]
          rw [hvalue]
          exact htail x y
  | collection key inner tail ihInner ihTail =>
      rw [Members.depth] at hdepth
      rw [Members.fields, List.cons_append, List.cons_append, List.append_assoc, List.cons_append,
        mediaScan_begin hne hm.1 (by simp), if_neg (by simp)]
      have hseen : (seen || ([mediaSize, mediaCol].length == 1 && key == mediaSize)) = seen :=
        Bool.or_false seen
      have hlength : [key, mediaSize, mediaCol].length = 3 := rfl
      rw [hseen, mediaScan_elsewhere hm.2.1 (.inl hlength.ge) (by omega),
        mediaScan_end (List.cons_ne_nil _ _), List.tail_cons]
      exact ihTail hm.2.2 (by omega) rest

lemma readNames_cons (field : UInt8 × Bytes) (fields : List (UInt8 × Bytes)) :
    readNames name (field :: fields)
      = (readNames name [field]).bind fun name' => readNames name' fields := by
  cases name with
  | none =>
      rw [readNames, readNames, Option.bind_assoc]
      refine Option.bind_congr fun text _ => ?_
      by_cases htext : text = ""
      · rw [if_pos htext]
        rfl
      · rw [if_neg htext]
        rfl
  | some text => rfl

/-- A size name may not stand behind another. -/
lemma scanValue_name (tag : UInt8) (bytes : Bytes) :
    mediaScanValue ⟨[mediaCol], none, name, seen, x, y⟩ mediaSizeName tag bytes
      = (readNames name [(tag, bytes)]).map fun name' => ⟨[mediaCol], none, name', seen, x, y⟩ := by
  rw [mediaScanValue, if_pos ⟨rfl, rfl⟩]
  cases name with
  | none =>
      rw [readNames, sizeNameText, Option.map_bind, apply_ite (Option.bind · _), Option.bind_assoc]
      refine ite_congr (by simp) (fun _ => rfl) fun _ => Option.bind_congr fun text _ => ?_
      rw [apply_ite (Option.bind · _)]
      refine ite_congr rfl (fun _ => rfl) fun _ => ?_
      rw [Option.bind_some, Function.comp_apply, readNames, Option.map_some]
      by_cases htext : trimEndNul text = ""
      · rw [if_pos htext, if_pos htext]
      · rw [if_neg htext, if_neg htext]
  | some text => simp [readNames]

/-- The sizes behind one that may be read already. -/
def readMore : Bool × Option ℤ × Option ℤ →
    List (List (UInt8 × Bytes) × List (UInt8 × Bytes)) → Option (Bool × Option ℤ × Option ℤ)
  | size, [] => some size
  | (true, _, _), _ :: _ => none
  | (false, x, y), (xs, ys) :: sizes =>
      (readDimensions x xs).bind fun x' => (readDimensions y ys).bind fun y' =>
        readMore (true, x', y') sizes

/-- The members of a media collection leave its size name and its size. -/
lemma mediaScan_top {m : Members} (hm : m.Framed) (hdepth : m.depth ≤ 15)
    (rest : List (UInt8 × Bytes)) :
    (m.fields ++ rest).foldlM mediaScanStep ⟨[mediaCol], none, name, seen, x, y⟩
      = (readNames name (m.values mediaSizeName)).bind fun name' =>
          (readMore (seen, x, y) ((m.collections mediaSize).map Members.dimensions)).bind
            fun size => rest.foldlM mediaScanStep ⟨[mediaCol], none, name', size.1, size.2.1, size.2.2⟩ := by
  have hne : [mediaCol] ≠ [] := List.cons_ne_nil _ _
  induction m generalizing name seen x y rest with
  | nil =>
      simp [Members.fields, Members.values, Members.collections, readNames, readMore]
  | value key tag bytes tail ih =>
      rw [Members.fields, List.cons_append, List.cons_append, mediaScan_value hne hm.1 hm.2.1]
      have htail : ∀ name, (tail.fields ++ rest).foldlM mediaScanStep
          ⟨[mediaCol], none, name, seen, x, y⟩ = _ := fun name => ih hm.2.2 hdepth rest
      unfold Members.values Members.collections
      by_cases hname : key = mediaSizeName
      · rw [hname, if_pos rfl, scanValue_name, readNames_cons _ (tail.values mediaSizeName),
          Option.bind_map, Option.bind_assoc]
        exact Option.bind_congr fun name' _ => htail name'
      · have hvalue : mediaScanValue ⟨[mediaCol], none, name, seen, x, y⟩ key tag bytes
            = some ⟨[mediaCol], none, name, seen, x, y⟩ := by
          simp [mediaScanValue, hname]
        rw [if_neg hname, hvalue]
        exact htail name
  | collection key inner tail ihInner ihTail =>
      rw [Members.depth] at hdepth
      rw [Members.fields, List.cons_append, List.cons_append, List.append_assoc, List.cons_append,
        mediaScan_begin hne hm.1 (by simp)]
      have htail : ∀ seen x y, (tail.fields ++ rest).foldlM mediaScanStep
          ⟨[mediaCol], none, name, seen, x, y⟩ = _ := fun seen x y => ihTail hm.2.2 (by omega) rest
      by_cases hkey : key = mediaSize
      · cases seen with
        | true => simp [hkey, Members.collections, readMore]
        | false =>
            have hseen : (false || ([mediaCol].length == 1 && key == mediaSize)) = true := by
              simp [hkey]
            rw [if_neg (by simp), hseen, hkey, mediaScan_size hm.2.1 (by omega)]
            simp only [mediaScan_end (List.cons_ne_nil _ _), List.tail_cons, htail, Members.values,
              Members.collections, if_true, List.map_cons, readMore, Option.bind_assoc]
            rw [Option.bind_comm (readNames name (tail.values mediaSizeName))]
            refine Option.bind_congr fun x' _ => ?_
            rw [Option.bind_comm (readNames name (tail.values mediaSizeName))]
            rfl
      · have hseen : (seen || ([mediaCol].length == 1 && key == mediaSize)) = seen := by
          rw [beq_eq_false_iff_ne.mpr hkey, Bool.and_false, Bool.or_false]
        have hpath : [key, mediaCol] ≠ [mediaSize, mediaCol] := fun h => hkey (List.cons.inj h).1
        have hlength : [key, mediaCol].length = 2 := rfl
        rw [if_neg fun h => hkey h.2.1, hseen,
          mediaScan_elsewhere hm.2.1 (.inr ⟨hlength, hpath⟩) (by omega),
          mediaScan_end (List.cons_ne_nil _ _), List.tail_cons]
        unfold Members.values Members.collections
        rw [if_neg hkey]
        exact htail seen x y

end

/-! ### Whole collections -/

/-- The state in front of the first member. -/
def MediaScan.start : MediaScan := ⟨[mediaCol], none, none, false, none, none⟩

/-- The fields of a media collection behind its beginning, up to its end. -/
def Members.spelled (m : Members) : List (UInt8 × Bytes) := m.fields ++ [(Tag.endCollection, [])]

/-- The members of a collection that the scan accepts. -/
structure Members.WellFormed (m : Members) : Prop where
  hframed : m.Framed
  hdepth : m.depth ≤ 15

lemma mediaScan_spelled {m : Members} (hm : m.WellFormed) :
    m.spelled.foldlM mediaScanStep .start
      = (readNames none (m.values mediaSizeName)).bind fun name =>
          (readMore (false, none, none) ((m.collections mediaSize).map Members.dimensions)).map
            fun size => ⟨[], none, name, size.1, size.2.1, size.2.2⟩ := by
  unfold Members.spelled MediaScan.start
  rw [mediaScan_top hm.hframed hm.hdepth]
  simp only [mediaScan_end (List.cons_ne_nil _ _), List.tail_cons, List.foldlM_nil]
  refine Option.bind_congr fun name _ => ?_
  rw [Option.map_eq_bind]
  rfl

/-- The media that a scan of all fields asks for. -/
def scannedMedia (scanned : Option MediaScan) : Except Status (Option String) :=
  match scanned.filter fun s => s.path.isEmpty && s.member.isNone with
  | none => .error .attributesOrValuesNotSupported
  | some s =>
      match mediaDimensions s with
      | none => .error .attributesOrValuesNotSupported
      | some dimensions =>
          .ok (s.name <|> dimensions.map fun (short, long) => mediaKeyword short long)

lemma range_of_dimensionOf {field : UInt8 × Bytes} {d : ℤ} (h : dimensionOf field = some d) :
    5000 ≤ d ∧ d ≤ 45000 := by
  unfold dimensionOf at h
  split_ifs at h
  have hrange := (Option.filter_eq_some_iff.mp h).2
  rwa [Bool.and_eq_true, decide_eq_true_eq, decide_eq_true_eq] at hrange

lemma range_of_readDimension {fields : List (UInt8 × Bytes)} {d : ℤ}
    (h : readDimension fields = some d) : 5000 ≤ d ∧ d ≤ 45000 := by
  unfold readDimension at h
  split at h
  · exact range_of_dimensionOf h
  · cases h

/-- One dimension is read, none is left out, and more are refused. -/
lemma readDimensions_none (fields : List (UInt8 × Bytes)) :
    readDimensions none fields
      = if fields = [] then some none else (readDimension fields).map some := by
  cases fields with
  | nil => rfl
  | cons field fields =>
      rw [if_neg (List.cons_ne_nil _ _), readDimensions]
      cases fields with
      | nil =>
          rw [Option.map_eq_bind]
          rfl
      | cons _ _ => exact Option.bind_fun_none (dimensionOf field)

/-- Dimensions within their range are those of a size that is supported. -/
lemma mediaDimensions_some {name : Option String} {seen : Bool} {x y : ℤ}
    (hx : 5000 ≤ x ∧ x ≤ 45000) (hy : 5000 ≤ y ∧ y ≤ 45000) :
    mediaDimensions ⟨[], none, name, seen, some x, some y⟩
      = if 33020 < min x y then none else some (some (min x y / 10, max x y / 10)) := by
  unfold mediaDimensions
  refine ite_congr rfl (fun _ => rfl) fun hmin => ?_
  have hsupported : customDimensionsAreSupported (min x y / 10) (max x y / 10) = true := by
    have hshort : 500 ≤ min x y / 10 ∧ min x y / 10 ≤ 3302 := by omega
    have hlong : 500 ≤ max x y / 10 ∧ max x y / 10 ≤ 4500 := by omega
    simp [customDimensionsAreSupported, customMinTenthsMm, customMaxShortTenthsMm,
      customMaxLongTenthsMm, hshort, hlong]
  rw [if_neg (not_not.mpr hsupported)]

lemma readMore_dimensions (name : Option String)
    (sizes : List (List (UInt8 × Bytes) × List (UInt8 × Bytes))) :
    (readMore (false, none, none) sizes).bind
        (fun size => mediaDimensions ⟨[], none, name, size.1, size.2.1, size.2.2⟩)
      = readSizes sizes := by
  cases sizes with
  | nil => rfl
  | cons size sizes =>
      obtain ⟨xs, ys⟩ := size
      rw [readMore]
      cases sizes with
      | cons size sizes =>
          have hmore : ∀ x y : Option ℤ, readMore (true, x, y) (size :: sizes) = none :=
            fun _ _ => rfl
          simp only [hmore, Option.bind_fun_none, Option.bind_none]
          rfl
      | nil =>
          simp only [readMore, Option.bind_assoc, Option.bind_some]
          rw [readSizes, readDimensions_none, readDimensions_none]
          by_cases hxs : xs = []
          · by_cases hys : ys = []
            · rw [hxs, hys]
              rfl
            · rw [hxs, if_pos rfl, if_neg hys]
              cases readDimension ys <;> rfl
          · rw [if_neg hxs]
            cases hx : readDimension xs with
            | none => rfl
            | some x =>
                by_cases hys : ys = []
                · rw [hys]
                  rfl
                · rw [if_neg hys]
                  cases hy : readDimension ys with
                  | none => rfl
                  | some y =>
                      exact @mediaDimensions_some name true x y (range_of_readDimension hx)
                        (range_of_readDimension hy)

/-- The media of a collection's fields are those that its members ask for. -/
lemma scannedMedia_spelled {m : Members} (hm : m.WellFormed) :
    scannedMedia (m.spelled.foldlM mediaScanStep .start) = m.media := by
  unfold Members.media requestedMedia
  rw [mediaScan_spelled hm, ← readMore_dimensions none]
  cases readNames none (m.values mediaSizeName) with
  | none => rfl
  | some name =>
      cases readMore (false, none, none) ((m.collections mediaSize).map Members.dimensions) with
      | none => rfl
      | some size =>
          rw [Option.bind_some, Option.map_some, Option.bind_some, Option.bind_some]
          unfold scannedMedia
          rw [Option.filter_some]
          dsimp only
          rw [if_pos (by rfl)]
          dsimp only
          rw [show mediaDimensions ⟨[], none, name, size.1, size.2.1, size.2.2⟩
            = mediaDimensions ⟨[], none, none, size.1, size.2.1, size.2.2⟩ from rfl]
          cases mediaDimensions ⟨[], none, none, size.1, size.2.1, size.2.2⟩ <;> rfl

/-! ### Fields that spell no collection -/

/-- A value leaves the open collections as they are. -/
lemma mediaScanValue_eq_some {s t : MediaScan} {key value : Bytes} {tag : UInt8}
    (h : mediaScanValue s key tag value = some t) : t.path = s.path ∧ t.member = s.member := by
  unfold mediaScanValue at h
  by_cases hname : s.path.length = 1 ∧ key = mediaSizeName
  · rw [if_pos hname] at h
    split_ifs at h
    obtain ⟨text, -, h⟩ := Option.bind_eq_some_iff.mp h
    dsimp only at h
    split_ifs at h <;> exact Option.some.inj h ▸ ⟨rfl, rfl⟩
  rw [if_neg hname] at h
  by_cases hsize : s.path = [mediaSize, mediaCol] ∧ (key = xDimension ∨ key = yDimension)
  · rw [if_pos hsize] at h
    by_cases htag : tag = Tag.integer
    · rw [if_neg (not_not.mpr htag)] at h
      obtain ⟨dimension, -, h⟩ := Option.bind_eq_some_iff.mp h
      split_ifs at h <;> exact Option.some.inj h ▸ ⟨rfl, rfl⟩
    · rw [if_pos htag] at h
      cases h
  · rw [if_neg hsize] at h
    exact Option.some.inj h ▸ ⟨rfl, rfl⟩

/-- The steps of the scan that do not refuse the field. -/
lemma mediaScanStep_cases {s t : MediaScan} {field : UInt8 × Bytes}
    (h : mediaScanStep s field = some t) :
    (field.1 = Tag.memberAttrName ∧ s.member = none ∧ field.2 ≠ []
        ∧ t = { s with member := some field.2 }) ∨
    (field = (Tag.begCollection, []) ∧ s.path.length < 16 ∧ t.member = none
        ∧ ∃ key, s.member = some key ∧ t.path = key :: s.path) ∨
    (field = (Tag.endCollection, []) ∧ s.member = none ∧ t.member = none ∧ t.path = s.path.tail) ∨
    ((field.1 ≠ Tag.memberAttrName ∧ field.1 ≠ Tag.begCollection ∧ field.1 ≠ Tag.endCollection)
        ∧ s.member ≠ none ∧ t.member = none ∧ t.path = s.path) := by
  obtain ⟨tag, value⟩ := field
  unfold mediaScanStep at h
  dsimp only at h
  split_ifs at h with hpath hname hrefused hbegin hdeep hend hopen
  · rw [not_or, Bool.not_eq_true, Option.isSome_eq_false_iff, Option.isNone_iff_eq_none] at hrefused
    exact .inl ⟨hname, hrefused.1, hrefused.2, (Option.some.inj h).symm⟩
  · rw [not_or, not_not, Nat.not_le] at hdeep
    obtain ⟨key, hkey, hpush⟩ := Option.bind_eq_some_iff.mp h
    split_ifs at hpush
    obtain rfl := Option.some.inj hpush
    exact .inr (.inl ⟨by rw [hbegin, hdeep.1], hdeep.2, rfl, key, hkey, rfl⟩)
  · rw [not_or, not_not, Bool.not_eq_true, Option.isSome_eq_false_iff,
      Option.isNone_iff_eq_none] at hopen
    obtain rfl := Option.some.inj h
    exact .inr (.inr (.inl ⟨by rw [hend, hopen.2], hopen.1, hopen.1, rfl⟩))
  · obtain ⟨key, hkey, hvalue⟩ := Option.bind_eq_some_iff.mp h
    refine .inr (.inr (.inr ⟨⟨hname, hbegin, hend⟩, by rw [hkey]; exact Option.some_ne_none _, ?_⟩))
    obtain ⟨htpath, htmember⟩ := mediaScanValue_eq_some hvalue
    exact ⟨htmember, htpath⟩

/-- Fields that close the open collections spell the rest of the innermost one first. -/
lemma exists_members {s s' : MediaScan} {fields : List (UInt8 × Bytes)}
    (hrun : fields.foldlM mediaScanStep s = some s') (hmember : s.member = none)
    (hpath : s.path ≠ []) (hdeep : s.path.length ≤ 16)
    (hend : s'.path = [] ∧ s'.member = none) :
    ∃ (m : Members) (rest : List (UInt8 × Bytes)) (t : MediaScan),
      m.Framed ∧ m.depth + s.path.length ≤ 16
      ∧ fields = m.fields ++ (Tag.endCollection, []) :: rest
      ∧ rest.foldlM mediaScanStep t = some s' ∧ t.path = s.path.tail ∧ t.member = none := by
  induction hn : fields.length using Nat.strong_induction_on generalizing s fields with
  | h n ih =>
      subst hn
      cases fields with
      | nil =>
          obtain rfl := Option.some.inj hrun
          exact absurd hend.1 hpath
      | cons field fields =>
          rw [List.foldlM_cons, Option.bind_eq_bind] at hrun
          obtain ⟨t, hstep, hrest⟩ := Option.bind_eq_some_iff.mp hrun
          clear hrun
          rw [List.length_cons] at ih
          obtain ⟨tag, name⟩ := field
          rcases mediaScanStep_cases hstep with ⟨rfl, -, hne, rfl⟩ | ⟨-, -, -, key, hkey, -⟩
            | ⟨hfield, -, htmember, htpath⟩ | ⟨-, hkey, -⟩
          · -- a name, and what it is the name of
            cases fields with
            | nil =>
                obtain rfl := Option.some.inj hrest
                cases hend.2
            | cons field fields =>
                rw [List.foldlM_cons, Option.bind_eq_bind] at hrest
                obtain ⟨u, hnext, hrun⟩ := Option.bind_eq_some_iff.mp hrest
                clear hrest
                rw [List.length_cons] at ih
                obtain ⟨tag, value⟩ := field
                rcases mediaScanStep_cases hnext with ⟨-, hnone, -⟩
                  | ⟨hfield, hshallow, humember, key, hkey, hupath⟩ | ⟨-, hnone, -⟩
                  | ⟨htag, -, humember, hupath⟩
                · cases hnone
                · obtain rfl := Option.some.inj hkey
                  dsimp only at hupath hshallow
                  have hlength : u.path.length = s.path.length + 1 := by
                    rw [hupath, List.length_cons]
                  obtain ⟨inner, rest, v, hinner, hdepth, rfl, hrun, hvpath, hvmember⟩ :=
                    ih _ (by omega) hrun humember (by rw [hupath]; exact List.cons_ne_nil _ _)
                      (by omega) rfl
                  rw [hupath, List.tail_cons] at hvpath
                  obtain ⟨tail, rest', w, htail, hdepth', rfl, hrun, hwpath, hwmember⟩ :=
                    ih _ (by simp; omega) hrun hvmember (hvpath ▸ hpath) (hvpath ▸ hdeep) rfl
                  refine ⟨.collection name inner tail, rest', w, ⟨hne, hinner, htail⟩, ?_, ?_, hrun,
                    by rw [hwpath, hvpath], hwmember⟩
                  · rw [hvpath] at hdepth'
                    rw [Members.depth]
                    omega
                  · rw [hfield, Members.fields, List.cons_append, List.cons_append,
                      List.append_assoc, List.cons_append]
                · cases hnone
                · dsimp only at hupath htag
                  obtain ⟨tail, rest, w, htail, hdepth, rfl, hrun, hwpath, hwmember⟩ :=
                    ih _ (by omega) hrun humember (hupath ▸ hpath) (hupath ▸ hdeep) rfl
                  exact ⟨.value name tag value tail, rest, w, ⟨hne, htag, htail⟩, hupath ▸ hdepth,
                    rfl, hrun, by rw [hwpath, hupath], hwmember⟩
          · rw [hmember] at hkey
            cases hkey
          · refine ⟨.nil, fields, t, trivial, ?_, by rw [hfield]; rfl, hrest, htpath, htmember⟩
            rw [Members.depth]
            omega
          · exact absurd hmember hkey

end ShaPrint.Ipp
