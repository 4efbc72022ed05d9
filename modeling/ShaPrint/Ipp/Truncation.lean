import ShaPrint.Ipp.Forwarding

/-!
Requests that are cut before their end tag, and which of them the decoder rejects.

* `endOffset`: where the end tag of a request stands.
* `BetweenFields`: a cut behind the header that goes through no field.
* `cut_encode_rejected`: a cut through a field is rejected, whatever was read before it.
* `take_encodeAll`: a cut of several fields is some of them and a cut through the next.
* `cut_rejected_iff`: the decoder rejects a cut request if and only if the cut goes through the
  header or a field; the loop ends without an end tag as it ends with one.
-/

namespace ShaPrint.Ipp

open BigEndian

/-! ### Cuts -/

/-- The offset of the end tag. -/
def endOffset (input : Bytes) : ℕ := 8 + (encodeAll (fieldsOf input)).length

/-- The cut is behind the header, before a field or before the end tag. -/
def BetweenFields (input : Bytes) (cut : ℕ) : Prop :=
  ∃ i, cut = 8 + (encodeAll ((fieldsOf input).take i)).length

/-- The end tag stands at its offset. -/
lemma endOffset_spec {input : Bytes} (hend : Terminated input) (hlength : 8 ≤ input.length) :
    input[endOffset input]? = some Tag.endOfAttributes := by
  obtain ⟨a, b, c, d, e, f, g, i, document, hinput⟩ := hend.exists_eq hlength
  have hheader : [a, b, c, d, e, f, g, i].length = 8 := rfl
  rw [endOffset]
  generalize encodeAll (fieldsOf input) = fields at hinput ⊢
  rw [hinput, List.getElem?_append_right (by omega), hheader, Nat.add_sub_cancel_left,
    List.getElem?_append_right (le_refl _), Nat.sub_self]
  rfl

/-! ### Cuts through a field -/

/-- What is read of a part is read of the whole. -/
lemma readRaw_of_append {bytes raw rest : Bytes} (more : Bytes)
    (h : readRaw bytes = .ok (raw, rest)) : readRaw (bytes ++ more) = .ok (raw, rest ++ more) := by
  obtain ⟨hlength, rfl⟩ := readRaw_eq_ok.mp h
  exact readRaw_eq_ok.mpr ⟨hlength, List.append_assoc ..⟩

/-- A field that is cut is rejected, whatever was read before it. -/
lemma cut_encode_rejected (attributes : List Attribute) (f : Field) {n : ℕ} (hpos : 0 < n)
    (hlt : n < f.encode.length) : ∃ e, parseLoop attributes (f.encode.take n) = .error e := by
  cases f with
  | delimiter tag h =>
      rw [Field.encode, List.length_singleton] at hlt
      omega
  | value tag name val h =>
      obtain ⟨hdel, hname, hval⟩ := h
      obtain ⟨m, rfl⟩ : ∃ m, n = m + 1 := ⟨n - 1, by omega⟩
      generalize hbody : be16 name.length ++ (name ++ (be16 val.length ++ val)) = body
      have hwhole : (Field.value tag name val ⟨hdel, hname, hval⟩).encode = tag :: body := by
        rw [← hbody, Field.encode]
      rw [hwhole, List.length_cons] at hlt
      rw [hwhole, List.take_succ_cons, parseLoop_cons, if_neg (Tag.ne_endOfAttributes hdel),
        if_neg (by simp [hdel])]
      cases htext : readText (body.take m) with
      | error e => exact ⟨e, rfl⟩
      | ok read =>
          obtain ⟨text, rest⟩ := read
          obtain ⟨raw, s, hraw, -, -⟩ := readText_eq_ok.mp htext
          -- the name was read to its end, so the cut goes through the value
          obtain ⟨rfl, hrest⟩ : raw = name ∧ rest ++ body.drop m = be16 val.length ++ (val ++ []) := by
            have hboth := readRaw_of_append (body.drop m) hraw
            rw [List.take_append_drop, ← hbody, readRaw_append hname, hbody] at hboth
            obtain ⟨hraw', hrest⟩ := Prod.mk.inj (Except.ok.inj hboth.symm)
            exact ⟨hraw', by rw [hrest, List.append_nil]⟩
          dsimp only
          cases hvalue : readRaw rest with
          | error e => exact ⟨e, rfl⟩
          | ok read =>
              obtain ⟨value, left⟩ := read
              -- the value was read to its end as well, so nothing is cut
              obtain ⟨-, hleft⟩ := Prod.mk.inj (Except.ok.inj
                ((readRaw_of_append (body.drop m) hvalue).symm.trans
                  (hrest ▸ readRaw_append hval [])))
              have hdrop : body.drop m = [] := (List.append_eq_nil_iff.mp hleft).2
              rw [List.drop_eq_nil_iff] at hdrop
              omega

lemma take_boundary (fields : List Field) (i : ℕ) :
    (encodeAll fields).take (encodeAll (fields.take i)).length = encodeAll (fields.take i) := by
  have hsplit : encodeAll fields = encodeAll (fields.take i) ++ encodeAll (fields.drop i) := by
    rw [encodeAll, encodeAll, encodeAll, ← List.flatMap_append, List.take_append_drop]
  rw [hsplit, List.take_left]

/-- A cut of encoded fields is some of the fields and a cut through the next. -/
lemma take_encodeAll (fields : List Field) {n : ℕ} (hn : n ≤ (encodeAll fields).length) :
    (∃ i, n = (encodeAll (fields.take i)).length)
      ∨ ∃ i, ∃ f : Field, ∃ m, (encodeAll fields).take n = encodeAll (fields.take i) ++ f.encode.take m
          ∧ 0 < m ∧ m < f.encode.length := by
  induction fields generalizing n with
  | nil => exact .inl ⟨0, by simpa using hn⟩
  | cons f fields ih =>
      have hcons : ∀ fields, encodeAll (f :: fields) = f.encode ++ encodeAll fields := fun _ => rfl
      rw [hcons, List.length_append] at hn
      rw [hcons]
      rcases Nat.lt_or_ge n f.encode.length with hlt | hge
      · rcases Nat.eq_zero_or_pos n with rfl | hpos
        · exact .inl ⟨0, rfl⟩
        · refine .inr ⟨0, f, n, ?_, hpos, hlt⟩
          rw [List.take_append_of_le_length (Nat.le_of_lt hlt)]
          rfl
      · obtain ⟨rest, rfl⟩ := Nat.exists_eq_add_of_le hge
        rcases ih (n := rest) (by omega) with ⟨i, hi⟩ | ⟨i, g, m, htake, hm⟩
        · refine .inl ⟨i + 1, ?_⟩
          rw [List.take_succ_cons, hcons, List.length_append, hi]
        · refine .inr ⟨i + 1, g, m, ?_, hm⟩
          rw [List.take_length_add_append, htake, List.take_succ_cons, hcons,
            List.append_assoc]

/-- The first fields of a readable request are readable. -/
lemma readFields_take {fields : List Field} {attributes attributes' : List Attribute}
    (h : readFields attributes fields = .ok attributes') (i : ℕ) :
    ∃ read, readFields attributes (fields.take i) = .ok read := by
  induction fields generalizing attributes i with
  | nil => exact ⟨attributes, by rw [List.take_nil]; rfl⟩
  | cons f fields ih =>
      cases i with
      | zero => exact ⟨attributes, rfl⟩
      | succ i =>
          rw [readFields] at h
          cases hnext : readField attributes f with
          | error e => simp [hnext] at h
          | ok next =>
              simp only [hnext] at h
              obtain ⟨read, hread⟩ := ih h i
              refine ⟨read, ?_⟩
              rw [List.take_succ_cons, readFields, hnext]
              exact hread

/-! ### Cut requests -/

/-- Nothing shorter than the header is accepted. -/
lemma parse_short {input : Bytes} (h : input.length < 8) : Request.parse input = .error .truncated := by
  unfold Request.parse
  split
  · simp at h
    omega
  · rfl

/-- Behind the header, the decoder rejects what its loop rejects. -/
lemma parse_error_iff (a b c d e f g i : UInt8) (body : Bytes) :
    (∃ error, Request.parse ([a, b, c, d, e, f, g, i] ++ body) = .error error)
      ↔ ∃ error, parseLoop [] body = .error error := by
  simp only [List.cons_append, List.nil_append, Request.parse]
  cases parseLoop [] body <;> simp

/-- A cut behind the header leaves the header and a part of the fields. -/
lemma take_header {input : Bytes} (hend : Terminated input) (hlength : 8 ≤ input.length) {n : ℕ}
    (hn : n ≤ (encodeAll (fieldsOf input)).length) : ∃ a b c d e f g i,
      input.take (8 + n) = [a, b, c, d, e, f, g, i] ++ (encodeAll (fieldsOf input)).take n := by
  obtain ⟨a, b, c, d, e, f, g, i, document, hinput⟩ := hend.exists_eq hlength
  refine ⟨a, b, c, d, e, f, g, i, ?_⟩
  generalize fieldsOf input = fields at hinput hn ⊢
  rw [hinput]
  calc ([a, b, c, d, e, f, g, i] ++ (encodeAll fields ++ Tag.endOfAttributes :: document)).take (8 + n)
      = [a, b, c, d, e, f, g, i] ++ (encodeAll fields ++ Tag.endOfAttributes :: document).take n :=
        @List.take_length_add_append _ [a, b, c, d, e, f, g, i] _ n
    _ = [a, b, c, d, e, f, g, i] ++ (encodeAll fields).take n := by
        rw [List.take_append_of_le_length hn]

/-- A request that is cut between two fields is accepted with the attributes before the cut:
the loop ends there as it does at the end tag. -/
lemma parse_between {input : Bytes} {r : Request} (h : Request.parse input = .ok r)
    (hend : Terminated input) (hlength : 8 ≤ input.length) (i : ℕ) :
    ∃ r' attributes, readFields [] ((fieldsOf input).take i) = .ok attributes
      ∧ Request.parse (input.take (8 + (encodeAll ((fieldsOf input).take i)).length)) = .ok r'
      ∧ r'.attributes = attributes := by
  obtain ⟨attributes, hread⟩ := readFields_take (readFields_of_parse h) i
  have hle : (encodeAll ((fieldsOf input).take i)).length ≤ (encodeAll (fieldsOf input)).length := by
    rw [← take_boundary, List.length_take]
    exact min_le_right _ _
  obtain ⟨a, b, c, d, e, f, g, i', htake⟩ := take_header hend hlength hle
  have hloop := parseLoop_encode [] ((fieldsOf input).take i) []
  rw [hread, List.append_nil] at hloop
  dsimp only at hloop
  rw [parseLoop_nil] at hloop
  rw [htake, take_boundary]
  simp only [List.cons_append, List.nil_append, Request.parse, hloop]
  exact ⟨_, _, hread, rfl, rfl⟩

/-- The decoder rejects a request that is cut before its end tag if and only if the cut goes
through the header or a field. -/
theorem cut_rejected_iff {input : Bytes} {r : Request} (h : Request.parse input = .ok r)
    (hend : Terminated input) {cut : ℕ} (hcut : cut ≤ endOffset input) :
    (∃ e, Request.parse (input.take cut) = .error e) ↔ ¬BetweenFields input cut := by
  have hlength : 8 ≤ input.length := by
    by_contra hshort
    rw [parse_short (by omega)] at h
    cases h
  constructor
  · rintro ⟨error, herror⟩ ⟨i, rfl⟩
    obtain ⟨r', -, -, haccepted, -⟩ := parse_between h hend hlength i
    rw [haccepted] at herror
    cases herror
  · intro hbetween
    rcases Nat.lt_or_ge cut 8 with hshort | hge
    · exact ⟨_, parse_short (lt_of_le_of_lt (List.length_take_le _ _) hshort)⟩
    · obtain ⟨n, rfl⟩ := Nat.exists_eq_add_of_le hge
      have hn : n ≤ (encodeAll (fieldsOf input)).length := by
        unfold endOffset at hcut
        omega
      obtain ⟨a, b, c, d, e, f, g, i, htake⟩ := take_header hend hlength hn
      rw [htake, parse_error_iff]
      rcases take_encodeAll (fieldsOf input) hn with ⟨j, rfl⟩ | ⟨j, cutField, m, hcutField, hpos, hlt⟩
      · exact absurd ⟨j, rfl⟩ hbetween
      · obtain ⟨attributes, hread⟩ := readFields_take (readFields_of_parse h) j
        obtain ⟨error, herror⟩ := cut_encode_rejected attributes cutField hpos hlt
        refine ⟨error, ?_⟩
        rw [hcutField, parseLoop_encode, hread]
        exact herror

lemma duplexRequest_parse : ∃ r, Request.parse duplexRequest = .ok r := by
  obtain ⟨r, -, -, hparse, -⟩ :=
    duplexRequest_wellFormed.preserved ⟨"ipps://server:48631/ipp/print/B", by decide⟩ none
  exact ⟨r, hparse⟩

/-- A cut through the header is rejected. -/
theorem duplex_cut_rejected : ∃ e, Request.parse (duplexRequest.take 7) = .error e := by
  obtain ⟨r, hr⟩ := duplexRequest_parse
  have hcut : 7 ≤ endOffset duplexRequest := Nat.le_add_right_of_le (by decide)
  refine (cut_rejected_iff hr duplexRequest_wellFormed.terminated hcut).mpr ?_
  rintro ⟨i, hi⟩
  omega

/-- A request that is cut before the second value of its setting is accepted with the first. -/
theorem duplex_cut_accepted :
    (∃ r, Request.parse duplexRequest = .ok r) ∧ Terminated duplexRequest
      ∧ ∃ cut, cut < endOffset duplexRequest ∧ ∃ r, Request.parse (duplexRequest.take cut) = .ok r
        ∧ r.textValues "sides" = ["two-sided-long-edge"] := by
  have hfields : fieldsOf duplexRequest = duplexFields := fieldsOf_encode rfl duplexFields [7]
  obtain ⟨r, hr⟩ := duplexRequest_parse
  obtain ⟨r', attributes, hread, hparse, hattributes⟩ :=
    parse_between hr duplexRequest_wellFormed.terminated duplexRequest_wellFormed.header 2
  rw [hfields] at hread hparse
  refine ⟨⟨r, hr⟩, duplexRequest_wellFormed.terminated, _, ?_, r', hparse, ?_⟩
  · rw [endOffset, hfields]
    decide
  · have hsides : readFields [] (duplexFields.take 2) = .ok [⟨"sides", Tag.keyword,
        [asBytes "two-sided-long-edge"], [Tag.keyword]⟩] := by decide
    rw [hsides] at hread
    rw [Request.textValues, Request.find, hattributes, ← Except.ok.inj hread]
    decide

end ShaPrint.Ipp
