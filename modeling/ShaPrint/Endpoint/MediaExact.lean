import ShaPrint.Endpoint.MediaCollection
import Mathlib.Data.List.Forall2

/-!
The media of a request with a media collection: nothing but the size name and the dimensions of
the size decides it.

* `Members.SameMedia`: collections that differ by members that are not read.
* `CollectionRequest`: a request with a media collection and without plain media.
* `Members.Measures`: a size with proper dimensions, the only kind that is accepted.
* `mediaScan_inRange`: the dimensions that a scan keeps are within their range.
* `media_exact`: all of it for a request.
-/

namespace ShaPrint.Ipp

/-! ### Members that do not matter -/

/-- The value of a member with a name. -/
def Member.valueNamed (key : Bytes) : Member → Option (UInt8 × Bytes)
  | value name tag bytes => if name = key then some (tag, bytes) else none
  | collection _ _ => none

/-- The collection of a member with a name. -/
def Member.collectionNamed (key : Bytes) : Member → Option Members
  | value _ _ _ => none
  | collection name inner => if name = key then some inner else none

/-- The members of a media collection that are read. -/
def Member.ofMedia : Member → Bool
  | value name _ _ => name == mediaSizeName
  | collection name _ => name == mediaSize

/-- The members of a size that are read. -/
def Member.ofSize : Member → Bool
  | value name _ _ => name == xDimension || name == yDimension
  | collection _ _ => false

/-- Members that differ at most in the members of a size that are not read. -/
inductive Member.Same : Member → Member → Prop where
  | value (name : Bytes) (tag : UInt8) (bytes : Bytes) :
      Same (value name tag bytes) (value name tag bytes)
  | collection (name : Bytes) {inner inner' : Members}
      (h : inner.toList.filter Member.ofSize = inner'.toList.filter Member.ofSize) :
      Same (collection name inner) (collection name inner')

/-- Collections that differ by members that are not read, which may stand anywhere. -/
def Members.SameMedia (m m' : Members) : Prop :=
  List.Forall₂ Member.Same (m.toList.filter Member.ofMedia) (m'.toList.filter Member.ofMedia)

lemma values_eq (key : Bytes) (m : Members) :
    m.values key = m.toList.filterMap (Member.valueNamed key) := by
  induction m with
  | nil => rfl
  | value name tag bytes rest ih =>
      unfold Members.values Members.toList
      by_cases h : name = key
      · rw [if_pos h, List.filterMap_cons_some (by rw [Member.valueNamed, if_pos h]), ih]
      · rw [if_neg h, List.filterMap_cons_none (by rw [Member.valueNamed, if_neg h]), ih]
  | collection name inner rest _ ih =>
      rw [Members.values, Members.toList, List.filterMap_cons_none rfl, ih]

lemma collections_eq (key : Bytes) (m : Members) :
    m.collections key = m.toList.filterMap (Member.collectionNamed key) := by
  induction m with
  | nil => rfl
  | value name tag bytes rest ih =>
      rw [Members.collections, Members.toList, List.filterMap_cons_none rfl, ih]
  | collection name inner rest _ ih =>
      unfold Members.collections Members.toList
      by_cases h : name = key
      · rw [if_pos h, List.filterMap_cons_some (by rw [Member.collectionNamed, if_pos h]), ih]
      · rw [if_neg h, List.filterMap_cons_none (by rw [Member.collectionNamed, if_neg h]), ih]

/-- Members that a function leaves out may be filtered. -/
lemma filterMap_filter_of_none {α β : Type*} {p : α → Bool} {f : α → Option β} (l : List α)
    (h : ∀ a, p a = false → f a = none) : (l.filter p).filterMap f = l.filterMap f := by
  rw [List.filterMap_filter]
  refine List.filterMap_congr fun a _ => ?_
  cases hp : p a with
  | true => rfl
  | false => exact (h a hp).symm

lemma filterMap_eq_of_forall₂ {α β : Type*} {R : α → α → Prop} {f : α → Option β}
    (hf : ∀ a b, R a b → f a = f b) {l l' : List α} (h : List.Forall₂ R l l') :
    l.filterMap f = l'.filterMap f := by
  induction h with
  | nil => rfl
  | cons hab _ ih => rw [List.filterMap_cons, List.filterMap_cons, hf _ _ hab, ih]

lemma values_ofSize (m : Members) {key : Bytes} (hkey : key = xDimension ∨ key = yDimension) :
    m.values key = (m.toList.filter Member.ofSize).filterMap (Member.valueNamed key) := by
  rw [values_eq, filterMap_filter_of_none]
  intro a ha
  cases a with
  | value name tag bytes =>
      refine if_neg ?_
      rintro rfl
      rcases hkey with rfl | rfl <;> simp [Member.ofSize] at ha
  | collection name inner => rfl

lemma Member.Same.dimensions {a b : Member} (h : Member.Same a b) :
    Member.valueNamed mediaSizeName a = Member.valueNamed mediaSizeName b
      ∧ (Member.collectionNamed mediaSize a).map Members.dimensions
        = (Member.collectionNamed mediaSize b).map Members.dimensions := by
  cases h with
  | value name tag bytes => exact ⟨rfl, rfl⟩
  | collection name h =>
      refine ⟨rfl, ?_⟩
      dsimp only [Member.collectionNamed]
      by_cases hname : name = mediaSize
      · rw [if_pos hname, if_pos hname, Option.map_some, Option.map_some]
        unfold Members.dimensions
        rw [values_ofSize _ (.inl rfl), values_ofSize _ (.inr rfl), h,
          ← values_ofSize _ (.inl rfl), ← values_ofSize _ (.inr rfl)]
      · rw [if_neg hname, if_neg hname]

/-- Members that are not read make no difference. -/
lemma Members.SameMedia.media {m m' : Members} (h : m.SameMedia m') : m.media = m'.media := by
  have hnames : ∀ m : Members, m.values mediaSizeName
      = (m.toList.filter Member.ofMedia).filterMap (Member.valueNamed mediaSizeName) := by
    intro m
    rw [values_eq, filterMap_filter_of_none]
    intro a ha
    cases a with
    | value name tag bytes => exact if_neg fun hname => by simp [Member.ofMedia, hname] at ha
    | collection name inner => rfl
  have hsizes : ∀ m : Members, (m.collections mediaSize).map Members.dimensions
      = (m.toList.filter Member.ofMedia).filterMap
        fun a => (Member.collectionNamed mediaSize a).map Members.dimensions := by
    intro m
    rw [collections_eq, List.map_filterMap, filterMap_filter_of_none]
    intro a ha
    cases a with
    | value name tag bytes => rfl
    | collection name inner =>
        have hnone : Member.collectionNamed mediaSize (.collection name inner) = none :=
          if_neg fun hname => by simp [Member.ofMedia, hname] at ha
        rw [hnone, Option.map_none]
  unfold Members.media
  rw [hnames m, hnames m', hsizes m, hsizes m']
  rw [filterMap_eq_of_forall₂ (fun a b hab => hab.dimensions.1) h,
    filterMap_eq_of_forall₂ (fun a b hab => hab.dimensions.2) h]

/-! ### Requests -/

/-- A request with a media collection and without plain media. -/
structure CollectionRequest where
  request : Request
  collection : Attribute
  hmedia : request.value "media" = none
  hcollection : request.find "media-col" = some collection

/-- The attribute's fields spell a collection with these members. -/
structure Attribute.Spells (a : Attribute) (m : Members) : Prop where
  htag : a.tag = Tag.begCollection
  hbegin : a.values.head? = some []
  hfields : (a.valueTags.zip a.values).drop 1 = m.spelled

variable (r : CollectionRequest)

lemma media_of_spells {m : Members} (hm : m.WellFormed) (h : r.collection.Spells m) :
    r.request.media = m.media := by
  rw [← scannedMedia_spelled hm, ← h.hfields]
  unfold Request.media
  rw [r.hmedia, r.hcollection]
  dsimp only
  rw [if_neg]
  · rfl
  · rw [h.htag, h.hbegin]
    simp

/-- What spells no collection is refused. -/
lemma media_of_not_spells (h : ∀ m : Members, m.WellFormed → ¬ r.collection.Spells m) :
    r.request.media = .error .attributesOrValuesNotSupported := by
  unfold Request.media
  rw [r.hmedia, r.hcollection]
  dsimp only
  by_cases hbegin : r.collection.tag ≠ Tag.begCollection ∨ r.collection.values.head? ≠ some []
  · rw [if_pos hbegin]
  rw [if_neg hbegin]
  rw [not_or, not_not, not_not] at hbegin
  change scannedMedia (List.foldlM mediaScanStep .start _) = _
  unfold scannedMedia
  cases hscan : (List.foldlM mediaScanStep .start
      ((r.collection.valueTags.zip r.collection.values).drop 1)).filter
        fun s => s.path.isEmpty && s.member.isNone with
  | none => rfl
  | some s =>
      obtain ⟨hrun, hend⟩ := Option.filter_eq_some_iff.mp hscan
      rw [Bool.and_eq_true, List.isEmpty_iff, Option.isNone_iff_eq_none] at hend
      obtain ⟨m, rest, t, hframed, hdepth, hfields, hrest, hpath, -⟩ :=
        exists_members hrun rfl (List.cons_ne_nil _ _) (by decide) hend
      have hnil : rest = [] := by
        cases rest with
        | nil => rfl
        | cons field rest =>
            obtain ⟨u, hstep, -⟩ := Option.bind_eq_some_iff.mp hrest
            unfold mediaScanStep at hstep
            rw [hpath] at hstep
            cases hstep
      rw [hnil] at hfields
      have hshallow : m.depth ≤ 15 := Nat.le_of_succ_le_succ hdepth
      exact absurd ⟨hbegin.1, hbegin.2, hfields⟩ (h m ⟨hframed, hshallow⟩)

/-! ### Dimensions -/

/-- A size has each dimension once, as an integer within the supported range. -/
structure Members.Measures (size : Members) (x y : ℤ) : Prop where
  hx : ∃ bytes, size.values xDimension = [(Tag.integer, bytes)] ∧ Request.i32OfBytes bytes = some x
  hy : ∃ bytes, size.values yDimension = [(Tag.integer, bytes)] ∧ Request.i32OfBytes bytes = some y
  hrange : (5000 ≤ x ∧ x ≤ 45000) ∧ (5000 ≤ y ∧ y ≤ 45000) ∧ min x y ≤ 33020

lemma readDimension_eq_some {fields : List (UInt8 × Bytes)} {d : ℤ}
    (h : readDimension fields = some d) :
    ∃ bytes, fields = [(Tag.integer, bytes)] ∧ Request.i32OfBytes bytes = some d := by
  unfold readDimension at h
  split at h
  · rename_i field
    obtain ⟨tag, bytes⟩ := field
    unfold dimensionOf at h
    split_ifs at h with htag
    obtain rfl : tag = Tag.integer := not_not.mp htag
    exact ⟨bytes, rfl, (Option.filter_eq_some_iff.mp h).1⟩
  · cases h

/-- Only a size that measures something is accepted, and at most one. -/
lemma measures_of_media {m : Members} {media : Option String} (h : m.media = .ok media) :
    (m.collections mediaSize).length ≤ 1 ∧
      ∀ size ∈ m.collections mediaSize, ∃ x y, size.Measures x y := by
  unfold Members.media requestedMedia at h
  cases hsizes : readSizes ((m.collections mediaSize).map Members.dimensions) with
  | none =>
      rw [hsizes] at h
      simp only [Option.map_none, Option.bind_fun_none] at h
      cases h
  | some dimensions =>
      cases hcollections : m.collections mediaSize with
      | nil => exact ⟨Nat.zero_le _, fun size hsize => absurd hsize List.not_mem_nil⟩
      | cons size sizes =>
          rw [hcollections] at hsizes
          cases sizes with
          | cons _ _ => cases hsizes
          | nil =>
              refine ⟨le_rfl, fun size' hsize' => ?_⟩
              obtain rfl := List.mem_singleton.mp hsize'
              obtain ⟨x, hx, hrest⟩ := Option.bind_eq_some_iff.mp hsizes
              obtain ⟨y, hy, hmin⟩ := Option.bind_eq_some_iff.mp hrest
              split_ifs at hmin with hlarge
              exact ⟨x, y, readDimension_eq_some hx, readDimension_eq_some hy,
                range_of_readDimension hx, range_of_readDimension hy, not_lt.mp hlarge⟩

lemma readSizes_swap (sizes : List (List (UInt8 × Bytes) × List (UInt8 × Bytes))) :
    readSizes (sizes.map Prod.swap) = readSizes sizes := by
  cases sizes with
  | nil => rfl
  | cons size sizes =>
      cases sizes with
      | cons _ _ => rfl
      | nil =>
          obtain ⟨xs, ys⟩ := size
          rw [List.map_cons, List.map_nil, Prod.swap_prod_mk, readSizes, readSizes,
            Option.bind_comm]
          refine Option.bind_congr fun x _ => Option.bind_congr fun y _ => ?_
          rw [min_comm, max_comm]

/-- The dimensions read so far are within their range. -/
def MediaScan.InRange (s : MediaScan) : Prop :=
  (∀ x ∈ s.x, 5000 ≤ x ∧ x ≤ 45000) ∧ ∀ y ∈ s.y, 5000 ≤ y ∧ y ≤ 45000

lemma mediaScanValue_inRange {s t : MediaScan} {key value : Bytes} {tag : UInt8}
    (h : mediaScanValue s key tag value = some t) (hs : s.InRange) : t.InRange := by
  unfold mediaScanValue at h
  by_cases hname : s.path.length = 1 ∧ key = mediaSizeName
  · rw [if_pos hname] at h
    split_ifs at h
    obtain ⟨text, -, h⟩ := Option.bind_eq_some_iff.mp h
    dsimp only at h
    split_ifs at h <;> exact Option.some.inj h ▸ hs
  rw [if_neg hname] at h
  by_cases hsize : s.path = [mediaSize, mediaCol] ∧ (key = xDimension ∨ key = yDimension)
  · rw [if_pos hsize] at h
    by_cases htag : tag = Tag.integer
    · rw [if_neg (not_not.mpr htag)] at h
      obtain ⟨dimension, -, h⟩ := Option.bind_eq_some_iff.mp h
      split_ifs at h with hrange hx hseen hseen
      · obtain rfl := Option.some.inj h
        exact ⟨fun x hx => Option.some.inj hx ▸ hrange, hs.2⟩
      · obtain rfl := Option.some.inj h
        exact ⟨hs.1, fun y hy => Option.some.inj hy ▸ hrange⟩
    · rw [if_pos htag] at h
      cases h
  · rw [if_neg hsize] at h
    exact Option.some.inj h ▸ hs

lemma mediaScanStep_inRange {s t : MediaScan} {field : UInt8 × Bytes}
    (h : mediaScanStep s field = some t) (hs : s.InRange) : t.InRange := by
  obtain ⟨tag, value⟩ := field
  unfold mediaScanStep at h
  dsimp only at h
  split_ifs at h
  · exact Option.some.inj h ▸ hs
  · obtain ⟨key, -, hpush⟩ := Option.bind_eq_some_iff.mp h
    split_ifs at hpush
    exact Option.some.inj hpush ▸ hs
  · exact Option.some.inj h ▸ hs
  · obtain ⟨key, -, hvalue⟩ := Option.bind_eq_some_iff.mp h
    exact mediaScanValue_inRange hvalue hs

lemma mediaScan_inRange {fields : List (UInt8 × Bytes)} {s t : MediaScan}
    (h : fields.foldlM mediaScanStep s = some t) (hs : s.InRange) : t.InRange := by
  induction fields generalizing s with
  | nil => exact Option.some.inj h ▸ hs
  | cons field fields ih =>
      rw [List.foldlM_cons, Option.bind_eq_bind] at h
      obtain ⟨u, hstep, hrest⟩ := Option.bind_eq_some_iff.mp h
      exact ih hrest (mediaScanStep_inRange hstep hs)

/-- No number that is computed from the dimensions leaves the 16 bits it is kept in: neither the
sides, nor their distances from a size of the catalogue, nor the lengths of these. -/
def FitsI16 (x y : ℤ) : Prop :=
  0 ≤ min x y / 10 ∧ max x y / 10 ≤ 32767 ∧
    ∀ spec ∈ mediaCatalog, (min x y / 10 - spec.shortTenthsMm).natAbs ≤ 32767
      ∧ (max x y / 10 - spec.longTenthsMm).natAbs ≤ 32767

lemma fitsI16 {x y : ℤ} (hx : 5000 ≤ x ∧ x ≤ 45000) (hy : 5000 ≤ y ∧ y ≤ 45000) : FitsI16 x y := by
  have hcatalog : ∀ spec ∈ mediaCatalog, (0 ≤ spec.shortTenthsMm ∧ spec.shortTenthsMm ≤ 4500)
      ∧ 0 ≤ spec.longTenthsMm ∧ spec.longTenthsMm ≤ 4500 := by
    decide
  refine ⟨by omega, by omega, fun spec hspec => ?_⟩
  obtain ⟨hshort, hlong⟩ := hcatalog spec hspec
  constructor <;> omega

/-- The media of a collection are a function of the size name and the dimensions of the size. -/
theorem media_exact :
    (∀ m : Members, m.WellFormed → r.collection.Spells m →
      r.request.media = m.media ∧
      (∀ (r' : CollectionRequest) (m' : Members), m'.WellFormed → r'.collection.Spells m' →
        (m.SameMedia m' → r'.request.media = r.request.media) ∧
        (m'.values mediaSizeName = m.values mediaSizeName →
          (m'.collections mediaSize).map Members.dimensions
            = ((m.collections mediaSize).map Members.dimensions).map Prod.swap →
          r'.request.media = r.request.media)) ∧
      (∀ media, r.request.media = .ok media → (m.collections mediaSize).length ≤ 1 ∧
        ∀ size ∈ m.collections mediaSize, ∃ x y, size.Measures x y)) ∧
    ((∀ m : Members, m.WellFormed → ¬ r.collection.Spells m) →
      r.request.media = .error .attributesOrValuesNotSupported) ∧
    ∀ (fields : List (UInt8 × Bytes)) (s : MediaScan),
      fields.foldlM mediaScanStep .start = some s → ∀ x ∈ s.x, ∀ y ∈ s.y, FitsI16 x y := by
  refine ⟨fun m hm hspells => ?_, media_of_not_spells r, fun fields s hrun x hx y hy => ?_⟩
  · have hmedia : r.request.media = m.media := media_of_spells r hm hspells
    refine ⟨hmedia, fun r' m' hm' hspells' => ?_, fun media hok => ?_⟩
    · rw [hmedia, media_of_spells r' hm' hspells']
      refine ⟨fun hsame => hsame.media.symm, fun hnames hswap => ?_⟩
      unfold Members.media requestedMedia
      rw [hnames, hswap, readSizes_swap]
    · exact measures_of_media (hmedia ▸ hok)
  · have hstart : MediaScan.start.InRange :=
      ⟨fun x hx => absurd hx (Option.not_mem_none x), fun y hy => absurd hy (Option.not_mem_none y)⟩
    obtain ⟨hxs, hys⟩ := mediaScan_inRange hrun hstart
    exact fitsI16 (hxs x hx) (hys y hy)

end ShaPrint.Ipp
