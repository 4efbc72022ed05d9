import ShaPrint.Android.DnsPacket

/-!
The Android client's reader of discovery packets, with what its buffer and its arrays throw.

* `Thrown`, `ByteBuffer`: the exceptions, and the operations that throw them.
* `DnsPacket.parseResponse`: the reader in these terms, with the position of the one buffer handed
  from each operation to the next.
* `readDomainName_eq`, `records_eq`: the reader never throws, and reads what `parseDnsResponse`
  reads. The invariant is that a saved position is within the buffer.
* `parseResponse_returns`: so it returns for every datagram.
-/

namespace ShaPrint.Android

open BigEndian Split

/-- What the operations of the reader throw. -/
inductive Thrown where
  | indexOutOfBounds
  | bufferUnderflow
  | illegalPosition
  | negativeArraySize
  | stringIndexOutOfBounds
  | unknownHost
  deriving DecidableEq

/-- A received datagram: the array, which has at most 2^31 - 1 bytes, and the length in use. -/
structure Datagram where
  data : Bytes
  length : ℤ
  size_le : data.length ≤ 2147483647
  length_le : length ≤ data.length

namespace ByteBuffer

/-- `ByteBuffer.wrap(data, 0, length)`: the bytes up to the limit. -/
def wrap (data : Bytes) (length : ℤ) : Except Thrown Bytes :=
  if length < 0 ∨ (data.length : ℤ) < length then .error .indexOutOfBounds
  else .ok (data.take length.toNat)

variable (buffer : Bytes)

def remaining (position : ℕ) : ℕ := buffer.length - position

def hasRemaining (position : ℕ) : Bool := position < buffer.length

def get (position : ℕ) : Except Thrown (UInt8 × ℕ) :=
  match buffer[position]? with
  | some b => .ok (b, position + 1)
  | none => .error .bufferUnderflow

/-- `get(ByteArray(size))` -/
def getBytes (size : ℤ) (position : ℕ) : Except Thrown (Bytes × ℕ) :=
  if size < 0 then .error .negativeArraySize
  else
    match Cursor.take? buffer position size.toNat with
    | some bytes => .ok (bytes, position + size.toNat)
    | none => .error .bufferUnderflow

/-- `short`, without its sign. -/
def getShort (position : ℕ) : Except Thrown (ℕ × ℕ) :=
  match Cursor.take? buffer position 2 with
  | some bytes => .ok (ofBe16 (bytes.getD 0 0) (bytes.getD 1 0), position + 2)
  | none => .error .bufferUnderflow

/-- `int`, without its sign. -/
def getInt (position : ℕ) : Except Thrown (ℕ × ℕ) :=
  match Cursor.take? buffer position 4 with
  | some bytes => .ok (ofBe32 (bytes.getD 0 0) (bytes.getD 1 0) (bytes.getD 2 0) (bytes.getD 3 0),
      position + 4)
  | none => .error .bufferUnderflow

/-- `position(newPosition)` -/
def seek (newPosition : ℤ) : Except Thrown ℕ :=
  if newPosition < 0 ∨ (buffer.length : ℤ) < newPosition then .error .illegalPosition
  else .ok newPosition.toNat

end ByteBuffer

namespace DnsPacket

open ByteBuffer

/-! ### Strings and addresses -/

/-- `indexOf(c)` -/
def indexOf (text : Chars) (c : Char) : ℤ :=
  match text.findIdx? (· == c) with
  | some i => i
  | none => -1

/-- `substring(start, stop)` -/
def substring (text : Chars) (start stop : ℤ) : Except Thrown Chars :=
  if start < 0 ∨ stop < start ∨ (text.length : ℤ) < stop then .error .stringIndexOutOfBounds
  else .ok ((text.drop start.toNat).take (stop - start).toNat)

/-- `InetAddress.getByAddress(bytes).hostAddress`, of the four bytes of an IPv4 address. -/
def getByAddress (bytes : Bytes) : Except Thrown Chars :=
  if bytes.length = 4 then .ok (Net.ipv4ToChars (bytes.map (·.toNat))) else .error .unknownHost

/-! ### Names -/

section Reader

variable (buffer : Bytes)

/-- The end of `readDomainName`: back to where the first pointer was. -/
def finishName (sb : Chars) (saved : Option ℕ) (position : ℕ) :
    Except Thrown (Option Chars × ℕ) := do
  let position ← match saved with
    | some saved => seek buffer saved
    | none => .ok position
  return (if sb = [] then none else some sb, position)

/-- The loop of `readDomainName`, with the steps that are left. -/
def domainNameLoop : ℕ → Chars → Option ℕ → ℕ → Except Thrown (Option Chars × ℕ)
  | 0, sb, saved, position => finishName buffer sb saved position
  | steps + 1, sb, saved, position =>
      if !hasRemaining buffer position then finishName buffer sb saved position
      else do
        let (len, position) ← get buffer position
        if len = 0 then finishName buffer sb saved position
        else if len &&& 0xc0 = 0xc0 then
          if !hasRemaining buffer position then return (none, position)
          else
            let (b2, position) ← get buffer position
            let offset := (len &&& 0x3f).toNat * 256 + b2.toNat
            let saved := saved.getD position
            if buffer.length ≤ offset then return (none, position)
            else
              let position ← seek buffer offset
              domainNameLoop steps sb (some saved) position
        else if remaining buffer position < len.toNat then return (none, position)
        else
          let (labelBytes, position) ← getBytes buffer len.toNat position
          domainNameLoop steps ((if sb = [] then [] else sb ++ ['.']) ++ fromUtf8Lossy labelBytes)
            saved position

def readDomainName (position : ℕ) : Except Thrown (Option Chars × ℕ) :=
  domainNameLoop buffer 128 [] none position

/-! ### Records -/

/-- One string of a text record. -/
def addText (s : DnsState) (entry : Chars) : Except Thrown DnsState :=
  let eqIdx := indexOf entry '='
  if 0 < eqIdx then do
    let key ← substring entry 0 eqIdx
    let value ← substring entry (eqIdx + 1) entry.length
    return s.addEntry key value
  else .ok s

/-- A turn of the loop over the strings of a text record, `none` where it breaks off. -/
def textTurn (s : DnsState) (remainingTxt : ℤ) (position : ℕ) :
    Except Thrown (Option (DnsState × ℤ × ℕ)) := do
  let (len, position) ← get buffer position
  let remainingTxt := remainingTxt - 1
  if 0 < len ∧ (len.toNat : ℤ) ≤ remainingTxt ∧ len.toNat ≤ remaining buffer position then
    let (strBytes, position) ← getBytes buffer len.toNat position
    let s ← addText s (fromUtf8Lossy strBytes)
    return some (s, remainingTxt - len.toNat, position)
  else return none

variable {buffer}

lemma get_eq_ok {position next : ℕ} {b : UInt8} (h : get buffer position = .ok (b, next)) :
    buffer[position]? = some b ∧ next = position + 1 := by
  unfold ByteBuffer.get at h
  split at h
  · rename_i hget
    obtain ⟨rfl, rfl⟩ := Prod.mk.inj (Except.ok.inj h)
    exact ⟨hget, rfl⟩
  · cases h

lemma getBytes_next {position next : ℕ} {size : ℤ} {bytes : Bytes}
    (h : getBytes buffer size position = .ok (bytes, next)) : next = position + size.toNat := by
  unfold getBytes at h
  split at h
  · cases h
  split at h
  · exact (Prod.mk.inj (Except.ok.inj h)).2.symm
  · cases h

lemma textTurn_lt {s s' : DnsState} {remainingTxt remainingTxt' : ℤ} {position next : ℕ}
    (h : textTurn buffer s remainingTxt position = .ok (some (s', remainingTxt', next))) :
    position < next := by
  unfold textTurn at h
  obtain ⟨⟨len, first⟩, hlen, h⟩ := except_do_eq_ok.mp h
  obtain ⟨-, rfl⟩ := get_eq_ok hlen
  dsimp only at h
  split at h
  · obtain ⟨⟨bytes, stop⟩, hbytes, h⟩ := except_do_eq_ok.mp h
    obtain ⟨more, -, h⟩ := except_do_eq_ok.mp h
    obtain ⟨-, h⟩ := Prod.mk.inj (Option.some.inj (Except.ok.inj h))
    obtain ⟨-, rfl⟩ := Prod.mk.inj h
    have hstop := getBytes_next hbytes
    omega
  · cases h

variable (buffer)

/-- The loop over the strings of a text record. -/
def textLoop (s : DnsState) (remainingTxt : ℤ) (position : ℕ) : Except Thrown DnsState :=
  if _hmore : 0 < remainingTxt ∧ hasRemaining buffer position = true then
    match _hturn : textTurn buffer s remainingTxt position with
    | .error e => .error e
    | .ok none => .ok s
    | .ok (some (s, remainingTxt, next)) => textLoop s remainingTxt next
  else .ok s
  termination_by buffer.length - position
  decreasing_by
    have hposition : position < buffer.length := of_decide_eq_true _hmore.2
    have hlt := textTurn_lt _hturn
    omega

/-- The data of a record. -/
def addRecord (s : DnsState) (type rdLength position : ℕ) : Except Thrown DnsState :=
  if type = 12 then do
    let (name, _) ← readDomainName buffer position
    return { s with
      ptrInstance := name
      hasShaPrintRecord := s.hasShaPrintRecord
        || (name.map (containsIgnoreCase shaPrintService)).getD false }
  else if type = 33 then
    if 6 ≤ rdLength then do
      let (_, position) ← getShort buffer position
      let (_, position) ← getShort buffer position
      let (port, position) ← getShort buffer position
      let (target, _) ← readDomainName buffer position
      return { s with
        srvPort := some port
        srvTarget := target }
    else .ok s
  else if type = 16 then textLoop buffer s rdLength position
  else if type = 1 then
    if rdLength = 4 then do
      let (ipBytes, _) ← getBytes buffer 4 position
      let address ← getByAddress ipBytes
      return { s with resolvedIp := some address }
    else .ok s
  else .ok s

/-- The loop over the records that are left. -/
def records : ℕ → ℕ → DnsState → Except Thrown DnsState
  | 0, _, s => .ok s
  | count + 1, position, s =>
      if !hasRemaining buffer position then .ok s
      else do
        let (name, position) ← readDomainName buffer position
        match name with
        | none => return s
        | some name =>
            let s := s.sees name
            if remaining buffer position < 10 then return s
            else
              let (type, position) ← getShort buffer position
              let (_, position) ← getShort buffer position
              let (ttl, position) ← getInt buffer position
              let (rdLength, rdataStart) ← getShort buffer position
              let s := s.lasts ttl
              if remaining buffer rdataStart < rdLength then return s
              else
                let s ← addRecord buffer s type rdLength rdataStart
                let position ← seek buffer (wrapInt (rdataStart + rdLength))
                records count position s

/-- The loop over the questions that are left, `none` where it gives up. -/
def questions : ℕ → ℕ → Except Thrown (Option ℕ)
  | 0, position => .ok (some position)
  | count + 1, position => do
      let (name, position) ← readDomainName buffer position
      if name = none then return none
      else if remaining buffer position < 4 then return none
      else
        let (_, position) ← getShort buffer position
        let (_, position) ← getShort buffer position
        questions count position

end Reader

def parseResponse (datagram : Datagram) (senderAddress : Option Chars) :
    Except Thrown (Option DiscoveredService) :=
  if datagram.length < 12 then .ok none
  else do
    let buffer ← wrap datagram.data datagram.length
    let (_, position) ← getShort buffer 0
    let (flags, position) ← getShort buffer position
    if flags &&& 0x8000 = 0 then return none
    else
      let (qdCount, position) ← getShort buffer position
      let (anCount, position) ← getShort buffer position
      let (nsCount, position) ← getShort buffer position
      let (arCount, position) ← getShort buffer position
      let start ← questions buffer qdCount position
      match start with
      | none => return none
      | some position =>
          let s ← records buffer (wrapInt (anCount + nsCount + arCount)).toNat position .new
          return s.service senderAddress

/-! ### Nothing is thrown -/

section Returns

variable {buffer : Bytes}

lemma hasRemaining_eq_false {position : ℕ} (h : buffer[position]? = none) :
    hasRemaining buffer position = false := by
  rw [hasRemaining, decide_eq_false_iff_not]
  exact Nat.not_lt.mpr (List.getElem?_eq_none_iff.mp h)

lemma hasRemaining_of_getElem? {position : ℕ} {b : UInt8} (h : buffer[position]? = some b) :
    hasRemaining buffer position = true :=
  decide_eq_true (List.getElem?_eq_some_iff.mp h).1

lemma get_of_getElem? {position : ℕ} {b : UInt8} (h : buffer[position]? = some b) :
    ByteBuffer.get buffer position = .ok (b, position + 1) := by
  rw [ByteBuffer.get, h]

lemma getBytes_of_take? {position n : ℕ} {bytes : Bytes}
    (h : Cursor.take? buffer position n = some bytes) :
    getBytes buffer n position = .ok (bytes, position + n) := by
  rw [getBytes, if_neg (by omega), Int.toNat_natCast, h]

lemma seek_of_le {n : ℕ} (h : n ≤ buffer.length) : seek buffer n = .ok n := by
  rw [seek, if_neg (by omega), Int.toNat_natCast]

lemma take?_of_le {position n : ℕ} (h : position + n ≤ buffer.length) :
    Cursor.take? buffer position n = some ((buffer.drop position).take n) := if_pos h

lemma take?_of_lt {position n : ℕ} (h : buffer.length < position + n) :
    Cursor.take? buffer position n = none := if_neg (Nat.not_le.mpr h)

lemma getD_take_drop {position n i : ℕ} (h : i < n) :
    ((buffer.drop position).take n).getD i 0 = buffer.getD (position + i) 0 := by
  rw [List.getD_eq_getElem?_getD, List.getD_eq_getElem?_getD, List.getElem?_take_of_lt h,
    List.getElem?_drop]

lemma getShort_of_le {position : ℕ} (h : position + 2 ≤ buffer.length) :
    getShort buffer position
      = .ok (ofBe16 (buffer.getD position 0) (buffer.getD (position + 1) 0), position + 2) := by
  rw [getShort, take?_of_le h]
  dsimp only
  rw [getD_take_drop (by decide), getD_take_drop (by decide), Nat.add_zero]

lemma getInt_of_le {position : ℕ} (h : position + 4 ≤ buffer.length) :
    getInt buffer position = .ok (ofBe32 (buffer.getD position 0) (buffer.getD (position + 1) 0)
      (buffer.getD (position + 2) 0) (buffer.getD (position + 3) 0), position + 4) := by
  rw [getInt, take?_of_le h]
  dsimp only
  rw [getD_take_drop (by decide), getD_take_drop (by decide), getD_take_drop (by decide),
    getD_take_drop (by decide), Nat.add_zero]

/-! ### Names -/

/-- What the reader of a name returns, beside the name and the position that are read. -/
def ReturnsName (x : Except Thrown (Option Chars × ℕ)) (read : Option (Chars × ℕ)) : Prop :=
  ∃ stop, x = .ok (read.map (·.1), stop) ∧ ∀ out, read = some out → out.2 = stop

lemma returnsName_none (stop : ℕ) : ReturnsName (.ok (none, stop)) none := ⟨stop, rfl, by simp⟩

lemma finishName_returns {sb : Chars} {saved : Option ℕ} {position : ℕ}
    (hsaved : ∀ p, saved = some p → p ≤ buffer.length) :
    ReturnsName (finishName buffer sb saved position) (nameResult sb saved position) := by
  have hseek : finishName buffer sb saved position
      = .ok (if sb = [] then none else some sb, saved.getD position) := by
    cases saved with
    | none => rfl
    | some p =>
        rw [finishName]
        dsimp only
        rw [seek_of_le (hsaved p rfl), except_ok_do]
        rfl
  refine ⟨saved.getD position, ?_, fun out hout => ?_⟩
  · rw [hseek, nameResult]
    split
    · rfl
    · rfl
  · rw [nameResult] at hout
    split at hout
    · cases hout
    · rw [← Option.some.inj hout]

/-- The loop of a name never throws: a saved position is within the buffer. -/
lemma domainNameLoop_returns (steps : ℕ) {sb : Chars} {saved : Option ℕ} {position : ℕ}
    (hsaved : ∀ p, saved = some p → p ≤ buffer.length) :
    ReturnsName (domainNameLoop buffer steps sb saved position)
      (readDomainNameLoop buffer steps sb saved position) := by
  induction steps generalizing sb saved position with
  | zero => exact finishName_returns hsaved
  | succ steps ih =>
      rw [domainNameLoop, readDomainNameLoop]
      cases hlen : buffer[position]? with
      | none =>
          rw [hasRemaining_eq_false hlen]
          exact finishName_returns hsaved
      | some len =>
          have hlt : position < buffer.length := (List.getElem?_eq_some_iff.mp hlen).1
          rw [hasRemaining_of_getElem? hlen, get_of_getElem? hlen]
          simp only [Bool.not_true, Bool.false_eq_true, if_false, except_ok_do]
          by_cases hzero : len = 0
          · rw [if_pos hzero, if_pos hzero]
            exact finishName_returns hsaved
          rw [if_neg hzero, if_neg hzero]
          by_cases hpointer : len &&& 0xc0 = 0xc0
          · rw [if_pos hpointer, if_pos hpointer]
            cases hb2 : buffer[position + 1]? with
            | none =>
                rw [hasRemaining_eq_false hb2]
                exact returnsName_none _
            | some b2 =>
                have hlt2 : position + 1 < buffer.length := (List.getElem?_eq_some_iff.mp hb2).1
                rw [hasRemaining_of_getElem? hb2, get_of_getElem? hb2]
                simp only [Bool.not_true, Bool.false_eq_true, if_false, except_ok_do]
                by_cases hoffset : buffer.length ≤ (len &&& 0x3f).toNat * 256 + b2.toNat
                · rw [if_pos hoffset, if_pos hoffset]
                  exact returnsName_none _
                · rw [if_neg hoffset, if_neg hoffset, seek_of_le (by omega), except_ok_do]
                  refine ih fun p hp => ?_
                  obtain rfl := Option.some.inj hp
                  cases saved with
                  | none => exact hlt2
                  | some p => exact hsaved p rfl
          · rw [if_neg hpointer, if_neg hpointer]
            have hpos : 0 < len.toNat := Nat.pos_of_ne_zero fun h => hzero (UInt8.toNat_inj.mp h)
            by_cases hshort : remaining buffer (position + 1) < len.toNat
            · rw [if_pos hshort]
              rw [remaining] at hshort
              rw [take?_of_lt (by omega)]
              exact returnsName_none _
            · rw [if_neg hshort]
              rw [remaining] at hshort
              have hwithin : position + 1 + len.toNat ≤ buffer.length := by omega
              have htake := take?_of_le hwithin
              rw [htake, getBytes_of_take? htake, except_ok_do]
              exact ih hsaved

lemma readDomainName_returns (buffer : Bytes) (position : ℕ) :
    ReturnsName (DnsPacket.readDomainName buffer position) (Android.readDomainName buffer position) :=
  domainNameLoop_returns 128 (by simp)

/-! ### Text records -/

lemma addText_eq (s : DnsState) (entry : Chars) : addText s entry = .ok (s.addText entry) := by
  unfold addText DnsState.addText
  cases hsplit : splitOnce entry ['='] with
  | none =>
      have hnot : ∀ c ∈ entry, (c == '=') = false := by
        intro c hc
        rw [beq_eq_false_iff_ne]
        rintro rfl
        exact splitOnce_singleton_none.mp hsplit hc
      rw [indexOf, List.findIdx?_eq_none_iff.mpr hnot]
      rfl
  | some parts =>
      obtain ⟨key, value⟩ := parts
      obtain ⟨rfl, hkey⟩ := splitOnce_singleton.mp hsplit
      have hnot : ∀ c ∈ key, (c == '=') = false := by
        intro c hc
        rw [beq_eq_false_iff_ne]
        rintro rfl
        exact hkey hc
      have hindex : indexOf (key ++ '=' :: value) '=' = (key.length : ℤ) := by
        rw [indexOf, List.findIdx?_append, List.findIdx?_eq_none_iff.mpr hnot, List.findIdx?_cons]
        simp
      simp only [hindex]
      by_cases hempty : key = []
      · rw [hempty, if_neg (by simp), if_neg (by simp)]
      · have hpos : 0 < key.length := List.length_pos_iff.mpr hempty
        have hkey : substring (key ++ '=' :: value) 0 key.length = .ok key := by
          rw [substring, if_neg (by simp; omega)]
          simp
        have hvalue : substring (key ++ '=' :: value) (key.length + 1)
            (key ++ '=' :: value).length = .ok value := by
          have hdrop : ((key.length : ℤ) + 1).toNat = key.length + 1 := by omega
          rw [substring, if_neg (by simp; omega), hdrop, ← List.drop_drop, List.drop_left,
            List.drop_one, List.tail_cons, List.take_of_length_le]
          simp only [List.length_append, List.length_cons]
          omega
        rw [if_pos (by omega), if_pos hempty, hkey, except_ok_do, hvalue, except_ok_do]
        rfl

lemma textTurn_eq {position n : ℕ} {len : UInt8} (s : DnsState)
    (hle : position + (n + 1) ≤ buffer.length) (hlen : buffer[position]? = some len) :
    textTurn buffer s (n + 1 : ℕ) position
      = .ok (if 0 < len ∧ len.toNat ≤ n then
          some (s.addText (fromUtf8Lossy ((buffer.drop (position + 1)).take len.toNat)),
            ((n - len.toNat : ℕ) : ℤ), position + 1 + len.toNat)
        else none) := by
  rw [textTurn, get_of_getElem? hlen, except_ok_do]
  dsimp only
  by_cases hfits : 0 < len ∧ len.toNat ≤ n
  · have hremaining : 0 < len ∧ (len.toNat : ℤ) ≤ ((n + 1 : ℕ) : ℤ) - 1
        ∧ len.toNat ≤ remaining buffer (position + 1) := by
      rw [remaining]
      exact ⟨hfits.1, by omega, by omega⟩
    have hwithin : position + 1 + len.toNat ≤ buffer.length := by omega
    have hbytes := getBytes_of_take? (take?_of_le hwithin)
    have hrest : ((n + 1 : ℕ) : ℤ) - 1 - (len.toNat : ℤ) = ((n - len.toNat : ℕ) : ℤ) := by omega
    rw [if_pos hremaining, if_pos hfits, hbytes, except_ok_do]
    dsimp only
    rw [addText_eq, except_ok_do, hrest]
    rfl
  · have hremaining : ¬ (0 < len ∧ (len.toNat : ℤ) ≤ ((n + 1 : ℕ) : ℤ) - 1
        ∧ len.toNat ≤ remaining buffer (position + 1)) := by
      rintro ⟨hpos, hle, -⟩
      exact hfits ⟨hpos, by omega⟩
    rw [if_neg hremaining, if_neg hfits]
    rfl

/-- The loop over the strings of a text record never throws. -/
lemma textLoop_eq (n : ℕ) {position : ℕ} (s : DnsState) (hle : position + n ≤ buffer.length) :
    textLoop buffer s n position = .ok (s.addTexts ((buffer.drop position).take n)) := by
  induction n using Nat.strongRecOn generalizing position s with
  | ind n ih =>
      rw [textLoop]
      cases n with
      | zero =>
          rw [dif_neg (by simp), List.take_zero, DnsState.addTexts]
      | succ n =>
          have hlt : position < buffer.length := by omega
          have hlen : buffer[position]? = some buffer[position] := List.getElem?_eq_getElem hlt
          have hturn := textTurn_eq s hle hlen
          rw [dif_pos ⟨by omega, hasRemaining_of_getElem? hlen⟩, List.drop_eq_getElem_cons hlt,
            List.take_succ_cons, DnsState.addTexts]
          have hlength : ((buffer.drop (position + 1)).take n).length = n := by
            rw [List.length_take, List.length_drop]
            omega
          rw [hlength]
          by_cases hfits : 0 < buffer[position] ∧ buffer[position].toNat ≤ n
          · rw [if_pos hfits] at hturn
            have hwithin : position + 1 + buffer[position].toNat + (n - buffer[position].toNat)
                ≤ buffer.length := by omega
            have hnext := ih (n - buffer[position].toNat) (by omega)
              (s.addText (fromUtf8Lossy ((buffer.drop (position + 1)).take buffer[position].toNat)))
              hwithin
            rw [if_pos hfits, List.take_take, Nat.min_eq_left hfits.2, List.drop_take,
              List.drop_drop, ← hnext]
            split
            · rename_i e he
              rw [hturn] at he
              cases he
            · rename_i he
              rw [hturn] at he
              cases he
            · rename_i s' remainingTxt' next he
              rw [hturn] at he
              obtain ⟨rfl, hpair⟩ := Prod.mk.inj (Option.some.inj (Except.ok.inj he))
              obtain ⟨rfl, rfl⟩ := Prod.mk.inj hpair
              rfl
          · rw [if_neg hfits] at hturn
            rw [if_neg hfits]
            split
            · rename_i e he
              rw [hturn] at he
              cases he
            · rfl
            · rename_i s' remainingTxt' next he
              rw [hturn] at he
              cases he

/-! ### Records -/

/-- The data of a record is read alike where it stands in the buffer. -/
lemma addRecord_eq (s : DnsState) (type : ℕ) {start n : ℕ} (hle : start + n ≤ buffer.length) :
    addRecord buffer s type n start
      = .ok (s.addRecord buffer type start ((buffer.drop start).take n)) := by
  have hlength : ((buffer.drop start).take n).length = n := by
    rw [List.length_take, List.length_drop]
    omega
  unfold addRecord DnsState.addRecord
  rw [hlength]
  split
  · obtain ⟨stop, hname, -⟩ := readDomainName_returns buffer start
    rw [hname, except_ok_do]
    rfl
  split
  · split
    · rename_i hsix
      obtain ⟨stop, hname, -⟩ := readDomainName_returns buffer (start + 6)
      rw [getShort_of_le (by omega), except_ok_do]
      dsimp only
      rw [getShort_of_le (by omega), except_ok_do]
      dsimp only
      rw [getShort_of_le (by omega), except_ok_do]
      dsimp only
      rw [hname, except_ok_do, getD_take_drop (by omega), getD_take_drop (by omega)]
      rfl
    · rfl
  split
  · exact textLoop_eq n s hle
  split
  · split
    · rename_i hfour
      subst hfour
      have hbytes := getBytes_of_take? (take?_of_le hle)
      rw [show ((4 : ℕ) : ℤ) = 4 from rfl] at hbytes
      rw [hbytes, except_ok_do]
      dsimp only
      rw [getByAddress, if_pos hlength, except_ok_do]
      rfl
    · rfl
  · rfl

lemma wrapInt_of_le {n : ℕ} (h : n ≤ 2147483647) : wrapInt n = n := by
  rw [wrapInt, Int.bmod_eq_of_le (by omega) (by omega)]

/-- The loop over the records never throws. -/
lemma records_eq (hsize : buffer.length ≤ 2147483647) (count position : ℕ) (s : DnsState) :
    records buffer count position s = .ok (parseRecords buffer count position s) := by
  induction count generalizing position s with
  | zero => rfl
  | succ count ih =>
      rw [records, parseRecords]
      by_cases hmore : buffer.length ≤ position
      · have hnone : hasRemaining buffer position = false :=
          decide_eq_false (Nat.not_lt.mpr hmore)
        rw [hnone, if_pos hmore]
        rfl
      have hsome : hasRemaining buffer position = true := decide_eq_true (Nat.not_le.mp hmore)
      obtain ⟨stop, hname, hstop⟩ := readDomainName_returns buffer position
      rw [hsome, if_neg hmore, hname]
      simp only [Bool.not_true, Bool.false_eq_true, if_false, except_ok_do]
      cases hread : Android.readDomainName buffer position with
      | none => rfl
      | some out =>
          obtain ⟨name, next⟩ := out
          obtain rfl : next = stop := hstop _ hread
          simp only [Option.map_some]
          by_cases hfields : next + 10 ≤ buffer.length
          · have hten : ¬ remaining buffer next < 10 := by
              rw [remaining]
              omega
            rw [if_neg hten, getShort_of_le (by omega), except_ok_do]
            dsimp only
            rw [getShort_of_le (by omega), except_ok_do]
            dsimp only
            rw [getInt_of_le (by omega), except_ok_do]
            dsimp only
            rw [getShort_of_le (by omega), except_ok_do, take?_of_le hfields]
            dsimp only
            simp only [getD_take_drop (show 0 < 10 by decide), getD_take_drop (show 1 < 10 by decide),
              getD_take_drop (show 4 < 10 by decide), getD_take_drop (show 5 < 10 by decide),
              getD_take_drop (show 6 < 10 by decide), getD_take_drop (show 7 < 10 by decide),
              getD_take_drop (show 8 < 10 by decide), getD_take_drop (show 9 < 10 by decide),
              Nat.add_assoc, Nat.reduceAdd, Nat.add_zero]
            generalize ofBe16 (buffer.getD (next + 8) 0) (buffer.getD (next + 9) 0) = rdLength
            by_cases hdata : next + 10 + rdLength ≤ buffer.length
            · have hlong : ¬ remaining buffer (next + 10) < rdLength := by
                rw [remaining]
                omega
              have hlength : ((buffer.drop (next + 10)).take rdLength).length = rdLength := by
                rw [List.length_take, List.length_drop]
                omega
              have hseek : seek buffer (wrapInt (((next + 10 : ℕ) : ℤ) + (rdLength : ℤ)))
                  = .ok (next + 10 + rdLength) := by
                rw [← Int.natCast_add, wrapInt_of_le (by omega), seek_of_le hdata]
              rw [if_neg hlong, addRecord_eq _ _ hdata, except_ok_do, hseek, except_ok_do,
                take?_of_le hdata, ih]
              dsimp only
              rw [hlength, Nat.add_assoc]
            · have hlong : remaining buffer (next + 10) < rdLength := by
                rw [remaining]
                omega
              rw [if_pos hlong, take?_of_lt (by omega)]
              rfl
          · have hten : remaining buffer next < 10 := by
              rw [remaining]
              omega
            rw [if_pos hten, take?_of_lt (by omega)]
            rfl

/-- The loop over the questions never throws. -/
lemma questions_eq (count position : ℕ) :
    questions buffer count position = .ok (skipQuestions buffer count position) := by
  induction count generalizing position with
  | zero => rfl
  | succ count ih =>
      obtain ⟨stop, hname, hstop⟩ := readDomainName_returns buffer position
      rw [questions, skipQuestions, hname, except_ok_do]
      dsimp only
      cases hread : Android.readDomainName buffer position with
      | none => rfl
      | some out =>
          obtain ⟨name, next⟩ := out
          obtain rfl : next = stop := hstop _ hread
          rw [Option.map_some, if_neg (by simp), Option.bind_some]
          dsimp only
          by_cases hfields : next + 4 ≤ buffer.length
          · have hfour : ¬ remaining buffer next < 4 := by
              rw [remaining]
              omega
            rw [if_neg hfour, getShort_of_le (by omega), except_ok_do]
            dsimp only
            rw [getShort_of_le (by omega), except_ok_do, take?_of_le hfields, Option.bind_some]
            exact ih _
          · have hfour : remaining buffer next < 4 := by
              rw [remaining]
              omega
            rw [if_pos hfour, take?_of_lt (by omega)]
            rfl

end Returns

/-- The reader returns for every datagram and every sender, and it returns what
`parseDnsResponse` does. -/
theorem parseResponse_returns (datagram : Datagram) (senderAddress : Option Chars) :
    parseResponse datagram senderAddress
      = .ok (parseDnsResponse datagram.data datagram.length.toNat senderAddress) := by
  have hsize := datagram.size_le
  have hle := datagram.length_le
  rw [parseResponse, parseDnsResponse]
  by_cases hshort : datagram.length < 12
  · rw [if_pos hshort, if_pos (by omega)]
  have hbuffer : (datagram.data.take datagram.length.toNat).length = datagram.length.toNat := by
    rw [List.length_take]
    omega
  have hwrap : wrap datagram.data datagram.length
      = .ok (datagram.data.take datagram.length.toNat) := by
    rw [wrap, if_neg (by omega)]
  rw [if_neg hshort, if_neg (by omega), hwrap, except_ok_do]
  generalize datagram.data.take datagram.length.toNat = buffer at hbuffer
  have htwelve : 12 ≤ buffer.length := by omega
  dsimp only
  rw [getShort_of_le (by omega), except_ok_do]
  dsimp only
  rw [getShort_of_le (by omega), except_ok_do]
  dsimp only
  split
  · rfl
  · rw [getShort_of_le (by omega), except_ok_do]
    dsimp only
    rw [getShort_of_le (by omega), except_ok_do]
    dsimp only
    rw [getShort_of_le (by omega), except_ok_do]
    dsimp only
    rw [getShort_of_le (by omega), except_ok_do]
    dsimp only
    rw [questions_eq, except_ok_do]
    cases skipQuestions buffer (ofBe16 (buffer.getD 4 0) (buffer.getD 5 0)) 12 with
    | none => rfl
    | some position =>
        have hans := ofBe16_lt (buffer.getD 6 0) (buffer.getD 7 0)
        have hauth := ofBe16_lt (buffer.getD 8 0) (buffer.getD 9 0)
        have hadd := ofBe16_lt (buffer.getD 10 0) (buffer.getD 11 0)
        have hcount : (wrapInt ((ofBe16 (buffer.getD 6 0) (buffer.getD 7 0) : ℤ)
            + ofBe16 (buffer.getD 8 0) (buffer.getD 9 0)
            + ofBe16 (buffer.getD 10 0) (buffer.getD 11 0))).toNat
            = ofBe16 (buffer.getD 6 0) (buffer.getD 7 0) + ofBe16 (buffer.getD 8 0) (buffer.getD 9 0)
              + ofBe16 (buffer.getD 10 0) (buffer.getD 11 0) := by
          rw [← Int.natCast_add, ← Int.natCast_add, wrapInt_of_le (by omega), Int.toNat_natCast]
        simp only [Nat.zero_add, Nat.reduceAdd, Option.bind_some, hcount]
        rw [records_eq (by omega), except_ok_do]
        rfl

end DnsPacket

end ShaPrint.Android
