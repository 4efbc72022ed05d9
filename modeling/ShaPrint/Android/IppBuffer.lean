import ShaPrint.Android.DnsBuffer
import ShaPrint.Android.IppMessage

/-!
The reader of printer listings as the platform runs it, `parseResponse` of
`core/ipp/IppMessage.kt`: over a `ByteBuffer` whose reads throw past its end.

* `IppMessage.attributesTurn`, `IppMessage.parseResponse`: the loop and the reader.
* `IppMessage.parseResponse_eq_ok`: the reader returns for every array of bytes, and it
  returns what `parseResponse` does.
-/

namespace ShaPrint.Android

open BigEndian Ipp

namespace IppMessage

open ByteBuffer

/-! ### The reader -/

/-- A number of 32 bits with its sign. -/
def signed (n : ℕ) : ℤ := if n < 2147483648 then n else (n : ℤ) - 4294967296

/-- `copies-supported`, by a second buffer over the value. -/
def readCopies (currentMaxCopies : ℤ) (valueBytes : Bytes) : Except Thrown ℤ := do
  if valueBytes.length = 8 then
    let (_, position) ← getInt valueBytes 0
    let (upper, _) ← getInt valueBytes position
    return signed upper
  else if valueBytes.length = 4 then
    let (n, _) ← getInt valueBytes 0
    return signed n
  else return currentMaxCopies

def parseAttribute (s : ParseState) (attrName : String) (valueBytes : Bytes) :
    Except Thrown ParseState := do
  if attrName = "copies-supported" then
    let currentMaxCopies ← readCopies s.currentMaxCopies valueBytes
    return { s with currentMaxCopies }
  else return Android.parseAttribute s attrName valueBytes

def parseValue (s : ParseState) (rawName valueBytes : Bytes) : Except Thrown ParseState :=
  let s := if rawName = [] then s
    else { s with lastAttributeName := String.ofList (fromUtf8Lossy rawName) }
  if s.currentGroup = Tag.printerAttributes then parseAttribute s s.lastAttributeName valueBytes
  else .ok s

section Loop

variable (buffer : Bytes) (serverCanonicalAddress : String)

/-- One turn of the loop: the state, and where the loop goes on unless it ends. -/
def attributesTurn (s : ParseState) (position : ℕ) : Except Thrown (ParseState × Option ℕ) := do
  let (tag, position) ← get buffer position
  if tag = Tag.endOfAttributes then return (s.commitCurrentPrinter serverCanonicalAddress, none)
  else if 0x01 ≤ tag ∧ tag ≤ 0x05 then
    return (s.enterGroup serverCanonicalAddress tag, some position)
  else if remaining buffer position < 2 then return (s, none)
  else
    let (nameLen, position) ← getShort buffer position
    if remaining buffer position < nameLen then return (s, none)
    else
      let (rawName, position) ← getBytes buffer nameLen position
      if remaining buffer position < 2 then return (s, none)
      else
        let (valueLen, position) ← getShort buffer position
        if remaining buffer position < valueLen then return (s, none)
        else
          let (valueBytes, position) ← getBytes buffer valueLen position
          let s ← parseValue s rawName valueBytes
          return (s, some position)

variable {buffer serverCanonicalAddress}

lemma getShort_next {position next n : ℕ} (h : getShort buffer position = .ok (n, next)) :
    next = position + 2 := by
  unfold getShort at h
  split at h
  · exact (Prod.mk.inj (Except.ok.inj h)).2.symm
  · cases h

lemma attributesTurn_lt {s s' : ParseState} {position next : ℕ}
    (h : attributesTurn buffer serverCanonicalAddress s position = .ok (s', some next)) :
    position < next ∧ position < buffer.length := by
  unfold attributesTurn at h
  obtain ⟨⟨tag, first⟩, htag, h⟩ := except_do_eq_ok.mp h
  obtain ⟨hget, rfl⟩ := DnsPacket.get_eq_ok htag
  have hlt := (List.getElem?_eq_some_iff.mp hget).1
  refine ⟨?_, hlt⟩
  dsimp only at h
  split at h
  · cases h
  split at h
  · cases h
    omega
  split at h
  · cases h
  obtain ⟨⟨nameLen, afterLength⟩, hlength, h⟩ := except_do_eq_ok.mp h
  have hafter := getShort_next hlength
  dsimp only at h
  split at h
  · cases h
  obtain ⟨⟨rawName, afterName⟩, hname, h⟩ := except_do_eq_ok.mp h
  have hafter' := DnsPacket.getBytes_next hname
  dsimp only at h
  split at h
  · cases h
  obtain ⟨⟨valueLen, valueStart⟩, hvalue, h⟩ := except_do_eq_ok.mp h
  have hstart := getShort_next hvalue
  dsimp only at h
  split at h
  · cases h
  obtain ⟨⟨valueBytes, stop⟩, hbytes, h⟩ := except_do_eq_ok.mp h
  have hstop := DnsPacket.getBytes_next hbytes
  obtain ⟨t, -, h⟩ := except_do_eq_ok.mp h
  cases h
  omega

variable (buffer serverCanonicalAddress)

/-- The loop over the attributes. -/
def attributesLoop (s : ParseState) (position : ℕ) : Except Thrown ParseState :=
  if hasRemaining buffer position then
    match _hturn : attributesTurn buffer serverCanonicalAddress s position with
    | .error e => .error e
    | .ok (s, none) => .ok s
    | .ok (s, some next) => attributesLoop s next
  else .ok s
  termination_by buffer.length - position
  decreasing_by
    have hlt := attributesTurn_lt ‹attributesTurn _ _ _ _ = _›
    omega

end Loop

/-- The reader. -/
def parseResponse (data : Bytes) (serverCanonicalAddress : String) :
    Except Thrown ParsedIppResponse := do
  if data.length < 8 then return { statusCode := 0x0406, requestId := 0, printers := [] }
  else
    let buffer ← wrap data data.length
    let (_, position) ← getShort buffer 0
    let (statusCode, position) ← getShort buffer position
    let (requestId, position) ← getInt buffer position
    let s ← attributesLoop buffer serverCanonicalAddress .new position
    return {
      statusCode := if statusCode < 32768 then statusCode else (statusCode : ℤ) - 65536
      requestId := signed requestId
      printers := s.printers }

/-! ### Nothing is thrown -/

open DnsPacket (getShort_of_le getInt_of_le getBytes_of_take? take?_of_le get_of_getElem?)

section Returns

variable {buffer : Bytes}

lemma drop_eq_cons {position : ℕ} (h : position < buffer.length) :
    buffer.drop position = buffer.getD position 0 :: buffer.drop (position + 1) := by
  rw [List.drop_eq_getElem_cons h, List.getD_eq_getElem?_getD, List.getElem?_eq_getElem h,
    Option.getD_some]

lemma hasRemaining_of_lt {position : ℕ} (h : position < buffer.length) :
    hasRemaining buffer position = true := decide_eq_true h

/-- A length that is cut off. -/
lemma readRaw_of_lt {position : ℕ} (h : buffer.length < position + 2) :
    readRaw (buffer.drop position) = .error .overrun := by
  have hlength : (buffer.drop position).length < 2 := by
    rw [List.length_drop]
    omega
  unfold readRaw
  cases hdrop : buffer.drop position with
  | nil => rfl
  | cons hi rest =>
      cases rest with
      | nil => rfl
      | cons lo rest =>
          rw [hdrop, List.length_cons, List.length_cons] at hlength
          omega

/-- A value behind its length. -/
lemma readRaw_of_le {position : ℕ} (h : position + 2 ≤ buffer.length) :
    readRaw (buffer.drop position)
      = if position + 2 + ofBe16 (buffer.getD position 0) (buffer.getD (position + 1) 0)
          ≤ buffer.length then
        .ok ((buffer.drop (position + 2)).take
            (ofBe16 (buffer.getD position 0) (buffer.getD (position + 1) 0)),
          buffer.drop (position + 2
            + ofBe16 (buffer.getD position 0) (buffer.getD (position + 1) 0)))
      else .error .overrun := by
  have hdrop : buffer.drop position = buffer.getD position 0 :: buffer.getD (position + 1) 0
      :: buffer.drop (position + 2) := by
    rw [drop_eq_cons (by omega), drop_eq_cons (by omega)]
  have hfits : ∀ n, n ≤ (buffer.drop (position + 2)).length ↔ position + 2 + n ≤ buffer.length := by
    intro n
    rw [List.length_drop]
    omega
  unfold readRaw
  rw [hdrop]
  simp only [readU16, hfits, List.drop_drop]

variable (buffer) in
/-- What is at a position: a length that is cut off, a value that is, or a value. -/
inductive Framed (position : ℕ) : Prop where
  | short (hshort : remaining buffer position < 2)
      (hraw : readRaw (buffer.drop position) = .error .overrun)
  | cut {n : ℕ} (hlong : ¬remaining buffer position < 2)
      (hlength : getShort buffer position = .ok (n, position + 2))
      (hcut : remaining buffer (position + 2) < n)
      (hraw : readRaw (buffer.drop position) = .error .overrun)
  | whole {n : ℕ} {bytes : Bytes} (hlong : ¬remaining buffer position < 2)
      (hlength : getShort buffer position = .ok (n, position + 2))
      (hfits : ¬remaining buffer (position + 2) < n)
      (hbytes : getBytes buffer n (position + 2) = .ok (bytes, position + 2 + n))
      (hraw : readRaw (buffer.drop position) = .ok (bytes, buffer.drop (position + 2 + n)))

lemma framed (buffer : Bytes) (position : ℕ) : Framed buffer position := by
  by_cases hshort : remaining buffer position < 2
  · refine .short hshort (readRaw_of_lt ?_)
    rw [remaining] at hshort
    omega
  · have hle : position + 2 ≤ buffer.length := by
      rw [remaining] at hshort
      omega
    have hraw := readRaw_of_le hle
    have hlength := getShort_of_le hle
    generalize ofBe16 (buffer.getD position 0) (buffer.getD (position + 1) 0) = n at hraw hlength
    by_cases hcut : remaining buffer (position + 2) < n
    · refine .cut hshort hlength hcut (hraw.trans (if_neg ?_))
      rw [remaining] at hcut
      omega
    · have hfits : position + 2 + n ≤ buffer.length := by
        rw [remaining] at hcut
        omega
      exact .whole hshort hlength hcut (getBytes_of_take? (take?_of_le hfits))
        (hraw.trans (if_pos hfits))

/-- The last four bytes of a value, with their sign. -/
lemma i32OfBytes_drop {valueBytes : Bytes} {position : ℕ}
    (h : valueBytes.length = position + 4) :
    Request.i32OfBytes (valueBytes.drop position)
      = some (signed (ofBe32 (valueBytes.getD position 0) (valueBytes.getD (position + 1) 0)
        (valueBytes.getD (position + 2) 0) (valueBytes.getD (position + 3) 0))) := by
  rw [drop_eq_cons (by omega), drop_eq_cons (by omega), drop_eq_cons (by omega),
    drop_eq_cons (by omega), List.drop_of_length_le (by omega)]
  rfl

lemma readCopies_eq (current : ℤ) (valueBytes : Bytes) :
    readCopies current valueBytes = .ok (maxCopies current valueBytes) := by
  unfold readCopies maxCopies
  by_cases h8 : valueBytes.length = 8
  · rw [if_pos h8, if_pos h8, i32OfBytes_drop h8, getInt_of_le (by omega), except_ok_do]
    dsimp only
    rw [getInt_of_le (by omega), except_ok_do]
    rfl
  · rw [if_neg h8, if_neg h8]
    by_cases h4 : valueBytes.length = 4
    · have h4' : valueBytes.length = 0 + 4 := h4
      have hvalue := i32OfBytes_drop h4'
      rw [List.drop_zero] at hvalue
      rw [if_pos h4, if_pos h4, hvalue, getInt_of_le (by omega), except_ok_do]
      rfl
    · rw [if_neg h4, if_neg h4]
      rfl

lemma parseAttribute_eq (s : ParseState) (attrName : String) (valueBytes : Bytes) :
    parseAttribute s attrName valueBytes = .ok (Android.parseAttribute s attrName valueBytes) := by
  unfold parseAttribute
  split_ifs with hname
  · rw [readCopies_eq, except_ok_do, hname]
    rfl
  · rfl

lemma parseValue_eq (s : ParseState) (rawName valueBytes : Bytes) :
    parseValue s rawName valueBytes = .ok (Android.parseValue s rawName valueBytes) := by
  unfold parseValue Android.parseValue
  simp only [parseAttribute_eq]
  split_ifs <;> rfl

section Turns

variable {serverCanonicalAddress : String} {s t : ParseState} {position next : ℕ}

lemma attributesLoop_of_stop (hmore : position < buffer.length)
    (hturn : attributesTurn buffer serverCanonicalAddress s position = .ok (t, none)) :
    attributesLoop buffer serverCanonicalAddress s position = .ok t := by
  rw [attributesLoop, if_pos (hasRemaining_of_lt hmore)]
  split
  · simp_all
  · rename_i heq
    rw [(Prod.mk.inj (Except.ok.inj (hturn.symm.trans heq))).1]
  · simp_all

lemma attributesLoop_of_next
    (hturn : attributesTurn buffer serverCanonicalAddress s position = .ok (t, some next)) :
    attributesLoop buffer serverCanonicalAddress s position
      = attributesLoop buffer serverCanonicalAddress t next := by
  rw [attributesLoop, if_pos (hasRemaining_of_lt (attributesTurn_lt hturn).2)]
  split
  · simp_all
  · simp_all
  · rename_i heq
    obtain ⟨rfl, hnext⟩ := Prod.mk.inj (Except.ok.inj (hturn.symm.trans heq))
    rw [Option.some.inj hnext]

end Turns

/-- The loop never throws. -/
lemma attributesLoop_eq (serverCanonicalAddress : String) (s : ParseState) (position : ℕ) :
    attributesLoop buffer serverCanonicalAddress s position
      = .ok (parseLoop serverCanonicalAddress s (buffer.drop position)) := by
  induction hlength : buffer.length - position using Nat.strongRecOn generalizing s position with
  | ind n ih =>
      by_cases hmore : position < buffer.length
      case neg =>
        rw [attributesLoop, if_neg (by simpa [hasRemaining] using hmore),
          List.drop_of_length_le (by omega), parseLoop]
      have hagain : ∀ t next, position < next → attributesLoop buffer serverCanonicalAddress t next
          = .ok (parseLoop serverCanonicalAddress t (buffer.drop next)) := fun t next hlt =>
        ih (buffer.length - next) (by omega) t next rfl
      have htag : ByteBuffer.get buffer position = .ok (buffer.getD position 0, position + 1) := by
        refine get_of_getElem? ?_
        rw [List.getD_eq_getElem?_getD, List.getElem?_eq_getElem hmore, Option.getD_some]
      rw [drop_eq_cons hmore]
      generalize buffer.getD position 0 = tag at htag
      by_cases hend : tag = Tag.endOfAttributes
      · rw [hend, parseLoop_end]
        refine attributesLoop_of_stop hmore ?_
        rw [attributesTurn, htag, except_ok_do]
        exact if_pos hend
      by_cases hgroup : 0x01 ≤ tag ∧ tag ≤ 0x05
      · have hturn : attributesTurn buffer serverCanonicalAddress s position
            = .ok (s.enterGroup serverCanonicalAddress tag, some (position + 1)) := by
          rw [attributesTurn, htag, except_ok_do]
          dsimp only
          rw [if_neg hend, if_pos hgroup]
          rfl
        rw [attributesLoop_of_next hturn, hagain _ _ (by omega),
          parseLoop_delimiter _ _ ⟨Tag.isDelimiter_iff.mpr hgroup, hend⟩]
      have hturn : attributesTurn buffer serverCanonicalAddress s position
          = if remaining buffer (position + 1) < 2 then .ok (s, none)
            else do
              let (nameLen, position) ← getShort buffer (position + 1)
              if remaining buffer position < nameLen then return (s, none)
              else
                let (rawName, position) ← getBytes buffer nameLen position
                if remaining buffer position < 2 then return (s, none)
                else
                  let (valueLen, position) ← getShort buffer position
                  if remaining buffer position < valueLen then return (s, none)
                  else
                    let (valueBytes, position) ← getBytes buffer valueLen position
                    let s ← parseValue s rawName valueBytes
                    return (s, some position) := by
        rw [attributesTurn, htag, except_ok_do]
        dsimp only
        rw [if_neg hend, if_neg hgroup]
        rfl
      cases framed buffer (position + 1) with
      | short hshort hraw =>
          rw [parseLoop_cut_name _ _ hend hgroup hraw]
          exact attributesLoop_of_stop hmore (hturn.trans (if_pos hshort))
      | cut hlong hlength hcut hraw =>
          rw [parseLoop_cut_name _ _ hend hgroup hraw]
          refine attributesLoop_of_stop hmore ?_
          rw [hturn, if_neg hlong, hlength, except_ok_do]
          exact if_pos hcut
      | @whole n rawName hlong hlength hfits hbytes hraw =>
          rw [if_neg hlong, hlength, except_ok_do] at hturn
          dsimp only at hturn
          rw [if_neg hfits, hbytes, except_ok_do] at hturn
          dsimp only at hturn
          cases framed buffer (position + 1 + 2 + n) with
          | short hshort hraw' =>
              rw [parseLoop_cut_value _ _ hend hgroup hraw hraw']
              exact attributesLoop_of_stop hmore (hturn.trans (if_pos hshort))
          | cut hlong' hlength' hcut hraw' =>
              rw [parseLoop_cut_value _ _ hend hgroup hraw hraw']
              refine attributesLoop_of_stop hmore ?_
              rw [hturn, if_neg hlong', hlength', except_ok_do]
              exact if_pos hcut
          | whole hlong' hlength' hfits' hbytes' hraw' =>
              rw [if_neg hlong', hlength', except_ok_do] at hturn
              dsimp only at hturn
              rw [if_neg hfits', hbytes', except_ok_do] at hturn
              dsimp only at hturn
              rw [parseValue_eq, except_ok_do] at hturn
              rw [attributesLoop_of_next hturn, hagain _ _ (by omega),
                parseLoop_value _ _ hend hgroup hraw hraw']

lemma parseResponse_of_short {data : Bytes} (h : data.length < 8)
    (serverCanonicalAddress : String) :
    Android.parseResponse data serverCanonicalAddress = ⟨0x0406, 0, []⟩ := by
  unfold Android.parseResponse
  split
  · simp only [List.length_cons] at h
    omega
  · rfl

/-- The header, and the loop from behind it. -/
lemma parseResponse_of_long {data : Bytes} (h : 8 ≤ data.length) (serverCanonicalAddress : String) :
    Android.parseResponse data serverCanonicalAddress =
      { statusCode := i16OfBytes (data.getD 2 0) (data.getD 3 0)
        requestId := signed (ofBe32 (data.getD 4 0) (data.getD 5 0) (data.getD 6 0) (data.getD 7 0))
        printers := (parseLoop serverCanonicalAddress .new (data.drop 8)).printers } := by
  have hdata : data = data.getD 0 0 :: data.getD 1 0 :: data.getD 2 0 :: data.getD 3 0
      :: data.getD 4 0 :: data.getD 5 0 :: data.getD 6 0 :: data.getD 7 0 :: data.drop 8 := by
    rw [← drop_eq_cons (by omega), ← drop_eq_cons (by omega), ← drop_eq_cons (by omega),
      ← drop_eq_cons (by omega), ← drop_eq_cons (by omega), ← drop_eq_cons (by omega),
      ← drop_eq_cons (by omega), ← drop_eq_cons (by omega), List.drop_zero]
  exact congrArg (Android.parseResponse · serverCanonicalAddress) hdata

/-- **The reader returns for every array of bytes**, and it returns what `parseResponse` does. -/
theorem parseResponse_eq_ok (data : Bytes) (serverCanonicalAddress : String) :
    parseResponse data serverCanonicalAddress
      = .ok (Android.parseResponse data serverCanonicalAddress) := by
  unfold parseResponse
  by_cases hshort : data.length < 8
  · rw [if_pos hshort, parseResponse_of_short hshort]
    rfl
  · have hwrap : wrap data data.length = .ok data := by
      rw [wrap, if_neg (by omega), Int.toNat_natCast, List.take_length]
    rw [if_neg hshort, hwrap, except_ok_do, getShort_of_le (by omega), except_ok_do]
    dsimp only
    rw [getShort_of_le (by omega), except_ok_do]
    dsimp only
    rw [getInt_of_le (by omega), except_ok_do]
    dsimp only
    rw [attributesLoop_eq, except_ok_do, parseResponse_of_long (by omega)]
    rfl

end Returns

end IppMessage

end ShaPrint.Android
