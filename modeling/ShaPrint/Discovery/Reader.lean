import ShaPrint.Discovery.Wire

/-!
The reader of multicast DNS packets, with the arithmetic and the accesses that could panic.

* `Packet`: the bytes of a packet, and the numbers that positions are.
* `Packet.nameLoop`, `Packet.parse`: the reader in these terms, with the jumps it follows.
* `nameLoop_spec`, `parse_eq`: it never panics, and reads what `Message.parse` reads.
* `RecordsAt`: the records stand one behind the other, each with data of the length it declares.
* `reads_safely`: no packet panics, a name moves the cursor on within the packet after at most
  64 jumps, and the data of every record takes exactly the bytes that are declared.
-/

namespace ShaPrint.Discovery

open BigEndian Split

/-! ### What can panic -/

/-- How a reading ends that gives no value. -/
inductive Fault where
  | panic
  | rejected (error : AppError)
  deriving DecidableEq

section Rejected

universe u

variable {α β : Type u}

/-- `?` on an error that is returned. -/
def orReject (x : Except AppError α) : Except Fault α := x.mapError .rejected

@[simp] lemma orReject_ok (a : α) : orReject (.ok a) = .ok a := rfl

@[simp] lemma orReject_error (e : AppError) :
    orReject (.error e : Except AppError α) = .error (.rejected e) := rfl

lemma orReject_do (x : Except AppError α) (f : α → Except AppError β) :
    orReject (x >>= f) = (orReject x >>= fun a => orReject (f a)) := by
  cases x with
  | error e => rfl
  | ok a => rfl

lemma orReject_map (x : Except AppError α) (f : α → β) :
    orReject (x.map f) = (orReject x).map f := by
  cases x with
  | error e => rfl
  | ok a => rfl

lemma orReject_eq_ok {x : Except AppError α} {a : α} : orReject x = .ok a ↔ x = .ok a := by
  cases x <;> simp [orReject, Except.mapError]

lemma orReject_ne_panic {x : Except AppError α} : orReject x ≠ .error .panic := by
  cases x <;> simp [orReject, Except.mapError]

/-- Blocks that agree on what is read first. -/
lemma do_congr {x : Except Fault α} {f g : α → Except Fault β}
    (h : ∀ a, x = .ok a → f a = g a) : (x >>= f) = (x >>= g) := by
  cases x with
  | error e => rfl
  | ok a => exact h a rfl

end Rejected

/-- The bytes of a packet, and the largest position. No byte string is longer than half of it. -/
structure Packet where
  bytes : Bytes
  limit : ℕ
  limit_ge : 4294967295 ≤ limit
  length_le : 2 * bytes.length ≤ limit

def rejectMalformed {α : Type} : Except Fault α := .error (.rejected malformed)

/-- `bytes[i]` -/
def index (bytes : Bytes) (i : ℕ) : Except Fault UInt8 :=
  match bytes[i]? with
  | some b => .ok b
  | none => .error .panic

/-- `bytes.get(i).ok_or_else(malformed)` -/
def getByte (bytes : Bytes) (i : ℕ) : Except Fault UInt8 :=
  match bytes[i]? with
  | some b => .ok b
  | none => rejectMalformed

/-- `bytes.get(start..stop).ok_or_else(malformed)` -/
def getRange (bytes : Bytes) (start stop : ℕ) : Except Fault Bytes :=
  if start ≤ stop ∧ stop ≤ bytes.length then .ok ((bytes.drop start).take (stop - start))
  else rejectMalformed

namespace Packet

variable (p : Packet)

/-- An addition that panics on overflow. -/
def add (a b : ℕ) : Except Fault ℕ := if a + b ≤ p.limit then .ok (a + b) else .error .panic

/-- `a.checked_add(b).ok_or_else(malformed)` -/
def checkedAdd (a b : ℕ) : Except Fault ℕ := if a + b ≤ p.limit then .ok (a + b) else rejectMalformed

variable {p}

lemma add_eq_ok {a b n : ℕ} (h : p.add a b = .ok n) : n = a + b := by
  unfold add at h
  split at h
  · exact (Except.ok.inj h).symm
  · cases h

lemma checkedAdd_eq_ok {a b n : ℕ} (h : p.checkedAdd a b = .ok n) : n = a + b := by
  unfold checkedAdd at h
  split at h
  · exact (Except.ok.inj h).symm
  · cases h

variable (p)

/-! ### The reader -/

def take (position length : ℕ) : Except Fault (Bytes × ℕ) := do
  let stop ← p.checkedAdd position length
  let bytes ← getRange p.bytes position stop
  return (bytes, stop)

def u16 (position : ℕ) : Except Fault (ℕ × ℕ) := do
  let (bytes, position) ← p.take position 2
  let high ← index bytes 0
  let low ← index bytes 1
  return (ofBe16 high low, position)

def u32 (position : ℕ) : Except Fault (ℕ × ℕ) := do
  let (bytes, position) ← p.take position 4
  let a ← index bytes 0
  let b ← index bytes 1
  let c ← index bytes 2
  let d ← index bytes 3
  return (ofBe32 a b c d, position)

/-- How a turn of the loop of a name ends. -/
inductive NameStep where
  | done (next : ℕ)
  | label (text : Chars) (next : ℕ)
  | jump (target resume : ℕ)

/-- A turn of the loop of a name: its end, a label, or a compression pointer. -/
def nameStep (position : ℕ) : Except Fault NameStep := do
  let length ← getByte p.bytes position
  if length &&& 0xc0 = 0x00 then
    let next ← p.add position 1
    if length = 0 then
      return .done next
    else
      let stop ← p.add next length.toNat
      let label ← getRange p.bytes next stop
      match fromUtf8 label with
      | none => .error (.rejected (malformedWith "a name label is not valid utf-8"))
      | some label => return .label label.toList stop
  else if length &&& 0xc0 = 0xc0 then
    let next ← p.add position 1
    let second ← getByte p.bytes next
    let resume ← p.add position 2
    return .jump ((length &&& 0x3f).toNat * 256 + second.toNat) resume
  else .error (.rejected (malformedWith "a name uses a reserved label type"))

lemma nameStep_label {position next : ℕ} {text : Chars}
    (h : p.nameStep position = .ok (.label text next)) :
    position < p.bytes.length ∧ position < next := by
  unfold nameStep at h
  obtain ⟨length, hget, h⟩ := except_do_eq_ok.mp h
  have hlt : position < p.bytes.length := by
    unfold getByte at hget
    split at hget
    · rename_i hbyte
      exact (List.getElem?_eq_some_iff.mp hbyte).1
    · cases hget
  split_ifs at h
  · obtain ⟨first, hfirst, h⟩ := except_do_eq_ok.mp h
    cases h
  · obtain ⟨first, hfirst, h⟩ := except_do_eq_ok.mp h
    obtain ⟨stop, hstop, h⟩ := except_do_eq_ok.mp h
    obtain ⟨label, -, h⟩ := except_do_eq_ok.mp h
    have h1 := add_eq_ok hfirst
    have h2 := add_eq_ok hstop
    split at h
    · cases h
    · obtain ⟨-, rfl⟩ := NameStep.label.inj (Except.ok.inj h)
      exact ⟨hlt, by omega⟩
  · obtain ⟨first, hfirst, h⟩ := except_do_eq_ok.mp h
    obtain ⟨second, -, h⟩ := except_do_eq_ok.mp h
    obtain ⟨resume, -, h⟩ := except_do_eq_ok.mp h
    cases h

/-- The labels of a name, the jumps that are followed, and the position after the name; the
position is left where the first compression pointer ends. -/
def nameLoop (labels : List Chars) (jumps position : ℕ) (afterName : Option ℕ) :
    Except Fault (List Chars × ℕ × ℕ) :=
  match _hstep : p.nameStep position with
  | .error e => .error e
  | .ok (.done next) => .ok (labels, jumps, afterName.getD next)
  | .ok (.label text next) => nameLoop (labels ++ [text]) jumps next afterName
  | .ok (.jump target resume) =>
      match _hjumps : p.add jumps 1 with
      | .error e => .error e
      | .ok more =>
          if maxNameJumps < more then
            .error (.rejected (malformedWith "a name compression pointer loops"))
          else nameLoop labels more target (some (afterName.getD resume))
  termination_by (maxNameJumps + 1 - jumps, p.bytes.length - position)
  decreasing_by
    · obtain ⟨hlt, hnext⟩ := p.nameStep_label _hstep
      apply Prod.Lex.right
      omega
    · have hmore := add_eq_ok _hjumps
      apply Prod.Lex.left
      omega

/-- `Reader::name` -/
def name (position : ℕ) : Except Fault (Chars × ℕ) :=
  (p.nameLoop [] 0 position none).map fun (labels, _, position) => (joinLabels labels, position)

def expectConsumed (position start : ℕ) (data : Bytes) : Except Fault Unit := do
  let stop ← p.add start data.length
  if position ≠ stop then
    .error (.rejected (malformedWith "a record's data does not match its length"))
  else .ok ()

/-- A string of a text record, and the position after it. -/
def textStep (bytes : Bytes) (position : ℕ) : Except Fault ((Chars × Chars) × ℕ) := do
  let length ← index bytes position
  let next ← p.add position 1
  let stop ← p.checkedAdd next length.toNat
  let entry ← getRange bytes next stop
  let text := fromUtf8Lossy entry
  return ((splitOnce text ['=']).getD (text, []), stop)

lemma textStep_lt {bytes : Bytes} {position next : ℕ} {property : Chars × Chars}
    (h : p.textStep bytes position = .ok (property, next)) : position < next := by
  unfold textStep at h
  obtain ⟨length, -, h⟩ := except_do_eq_ok.mp h
  obtain ⟨first, hfirst, h⟩ := except_do_eq_ok.mp h
  obtain ⟨stop, hstop, h⟩ := except_do_eq_ok.mp h
  obtain ⟨entry, -, h⟩ := except_do_eq_ok.mp h
  obtain ⟨-, rfl⟩ := Prod.mk.inj (Except.ok.inj h)
  have h1 := add_eq_ok hfirst
  have h2 := checkedAdd_eq_ok hstop
  omega

/-- The loop over the strings of a text record. -/
def textLoop (bytes : Bytes) (position : ℕ) (properties : List (Chars × Chars)) :
    Except Fault (List (Chars × Chars)) :=
  if position < bytes.length then
    match _hstep : p.textStep bytes position with
    | .error e => .error e
    | .ok (property, next) => textLoop bytes next (properties ++ [property])
  else .ok properties
  termination_by bytes.length - position
  decreasing_by
    have hnext := p.textStep_lt _hstep
    omega

def decodeData (recordType start : ℕ) (bytes : Bytes) : Except Fault RecordData :=
  if recordType = recordTypePtr then do
    let (instanceName, position) ← p.name start
    p.expectConsumed position start bytes
    return .pointer instanceName
  else if recordType = recordTypeSrv then
    if bytes.length < fixedServiceLength then
      .error (.rejected (malformedWith "a service record is shorter than its fixed fields"))
    else do
      let (priority, position) ← p.u16 start
      let (weight, position) ← p.u16 position
      let (port, position) ← p.u16 position
      let (target, position) ← p.name position
      p.expectConsumed position start bytes
      return .service priority weight port target
  else if recordType = recordTypeTxt then (p.textLoop bytes 0 []).map .text
  else .ok (.other bytes)

def query (position : ℕ) : Except Fault (Query × ℕ) := do
  let (name, position) ← p.name position
  let (recordType, position) ← p.u16 position
  let (recordClass, position) ← p.u16 position
  return (⟨name, recordType, recordClass &&& unicastOrCacheFlush != 0⟩, position)

def record (position : ℕ) : Except Fault (Record × ℕ) := do
  let (name, position) ← p.name position
  let (recordType, position) ← p.u16 position
  let (recordClass, position) ← p.u16 position
  let (ttl, position) ← p.u32 position
  let (length, start) ← p.u16 position
  let (bytes, position) ← p.take start length
  let data ← p.decodeData recordType start bytes
  return (⟨name, recordType, recordClass &&& unicastOrCacheFlush != 0, .ofSecs ttl, data⟩, position)

/-- `Message::parse` -/
def parse : Except Fault Message := do
  let (_, position) ← p.u16 0
  let (_, position) ← p.u16 position
  let (questionCount, position) ← p.u16 position
  let (answerCount, position) ← p.u16 position
  let (authorityCount, position) ← p.u16 position
  let (additionalCount, position) ← p.u16 position
  let (queries, position) ← Cursor.readMany p.query questionCount position
  let answered ← p.add answerCount authorityCount
  let totalRecords ← p.add answered additionalCount
  let (records, _) ← Cursor.readMany p.record totalRecords position
  return ⟨queries, records⟩

/-! ### No panic -/

variable {p}

lemma add_of_le {a b : ℕ} (h : a + b ≤ p.limit) : p.add a b = .ok (a + b) := if_pos h

/-- Positions within the packet have room for what is added to them. -/
lemma add_of_mem {a b : ℕ} (ha : a ≤ p.bytes.length) (hb : b ≤ 256) :
    p.add a b = .ok (a + b) := by
  have h1 := p.limit_ge
  have h2 := p.length_le
  exact add_of_le (by omega)

lemma add_small {a b : ℕ} (ha : a ≤ 131070) (hb : b ≤ 65535) : p.add a b = .ok (a + b) := by
  have h1 := p.limit_ge
  exact add_of_le (by omega)

lemma index_of_getElem? {bytes : Bytes} {i : ℕ} {b : UInt8} (h : bytes[i]? = some b) :
    index bytes i = .ok b := by
  rw [index, h]

lemma getByte_of_getElem? {bytes : Bytes} {i : ℕ} {b : UInt8} (h : bytes[i]? = some b) :
    getByte bytes i = .ok b := by
  rw [getByte, h]

lemma getByte_of_none {bytes : Bytes} {i : ℕ} (h : bytes[i]? = none) :
    getByte bytes i = rejectMalformed := by
  rw [getByte, h]

/-- A range is what a cursor takes. -/
lemma getRange_eq (bytes : Bytes) (start length : ℕ) : getRange bytes start (start + length)
    = orReject ((Cursor.take? bytes start length).elim (.error malformed) .ok) := by
  unfold getRange Cursor.take?
  by_cases h : start + length ≤ bytes.length
  · rw [if_pos ⟨Nat.le_add_right start length, h⟩, if_pos h, Nat.add_sub_cancel_left]
    rfl
  · rw [if_neg (fun hand => h hand.2), if_neg h]
    rfl

lemma take_eq (position length : ℕ) :
    p.take position length = orReject (Discovery.take p.bytes position length) := by
  have h2 := p.length_le
  unfold Packet.take Discovery.take
  by_cases h : position + length ≤ p.bytes.length
  · rw [checkedAdd, if_pos (by omega), except_ok_do, getRange_eq, Cursor.take?, if_pos h]
    rfl
  · rw [Cursor.take?, if_neg h, checkedAdd]
    split
    · rw [except_ok_do, getRange_eq, Cursor.take?, if_neg h]
      rfl
    · rfl

lemma discoveryTake_eq_ok {packet bytes : Bytes} {position length next : ℕ}
    (h : Discovery.take packet position length = .ok (bytes, next)) :
    bytes = (packet.drop position).take length ∧ bytes.length = length
      ∧ next = position + length ∧ position + length ≤ packet.length := by
  unfold Discovery.take Cursor.take? at h
  split at h
  · cases h
  · rename_i found
    split at found
    · rename_i hle
      obtain ⟨rfl, rfl⟩ := Prod.mk.inj (Except.ok.inj h)
      obtain rfl := Option.some.inj found
      refine ⟨rfl, ?_, rfl, hle⟩
      rw [List.length_take, List.length_drop]
      omega
    · cases found

lemma u16_eq (position : ℕ) : p.u16 position = orReject (readU16 p.bytes position) := by
  unfold u16 readU16
  rw [take_eq, orReject_map]
  cases htake : Discovery.take p.bytes position 2 with
  | error e => rfl
  | ok out =>
      obtain ⟨-, hlength, -⟩ := discoveryTake_eq_ok htake
      obtain ⟨bytes, next⟩ := out
      match bytes, hlength with
      | [a, b], _ => rfl

lemma u32_eq (position : ℕ) : p.u32 position = orReject (readU32 p.bytes position) := by
  unfold u32 readU32
  rw [take_eq, orReject_map]
  cases htake : Discovery.take p.bytes position 4 with
  | error e => rfl
  | ok out =>
      obtain ⟨-, hlength, -⟩ := discoveryTake_eq_ok htake
      obtain ⟨bytes, next⟩ := out
      match bytes, hlength with
      | [a, b, c, d], _ => rfl

/-- A turn of the loop of a name, beside the loop without panics. -/
inductive StepOutcome (labels : List Chars) (jumps position : ℕ) (afterName : Option ℕ) :
    Except Fault NameStep → Except AppError (List Chars × ℕ) → Prop where
  | rejected (e : AppError) :
      StepOutcome labels jumps position afterName (.error (.rejected e)) (.error e)
  | done (next : ℕ) (hlt : position < next) (hle : next ≤ p.bytes.length) :
      StepOutcome labels jumps position afterName (.ok (.done next))
        (.ok (labels, afterName.getD next))
  | label (text : Chars) (next : ℕ) (hlt : position < next) (hle : next ≤ p.bytes.length) :
      StepOutcome labels jumps position afterName (.ok (.label text next))
        (Discovery.nameLoop p.bytes (labels ++ [text]) jumps next afterName)
  | jump (target resume : ℕ) (hlt : position < resume) (hle : resume ≤ p.bytes.length) :
      StepOutcome labels jumps position afterName (.ok (.jump target resume))
        (if maxNameJumps < jumps + 1 then
          .error (malformedWith "a name compression pointer loops")
        else Discovery.nameLoop p.bytes labels (jumps + 1) target (some (afterName.getD resume)))

lemma nameStep_spec (labels : List Chars) (jumps position : ℕ) (afterName : Option ℕ) :
    StepOutcome (p := p) labels jumps position afterName (p.nameStep position)
      (Discovery.nameLoop p.bytes labels jumps position afterName) := by
  rw [Discovery.nameLoop, nameStep]
  split
  · rename_i hget
    rw [getByte_of_none hget]
    exact .rejected malformed
  rename_i length hget
  have hlt : position < p.bytes.length := (List.getElem?_eq_some_iff.mp hget).1
  rw [getByte_of_getElem? hget, except_ok_do]
  by_cases hlabel : length &&& 0xc0 = 0x00
  · rw [if_pos hlabel, if_pos hlabel, add_of_mem hlt.le (by decide), except_ok_do]
    by_cases hzero : length = 0
    · rw [if_pos hzero, if_pos hzero]
      exact .done _ (Nat.lt_succ_self position) hlt
    have hlength := length.toNat_lt
    have hstop : p.add (position + 1) length.toNat = .ok (position + 1 + length.toNat) :=
      add_of_mem hlt (by omega)
    rw [if_neg hzero, if_neg hzero, hstop, except_ok_do, getRange_eq]
    cases htake : Cursor.take? p.bytes (position + 1) length.toNat with
    | none => exact .rejected malformed
    | some label =>
        have hle : position + 1 + length.toNat ≤ p.bytes.length := by
          by_contra hnot
          rw [Cursor.take?, if_neg hnot] at htake
          cases htake
        simp only [Option.elim_some, orReject_ok, except_ok_do]
        cases htext : fromUtf8 label with
        | none => exact .rejected _
        | some text => exact .label text.toList _ (by omega) hle
  rw [if_neg hlabel, if_neg hlabel]
  by_cases hpointer : length &&& 0xc0 = 0xc0
  · rw [if_pos hpointer, if_pos hpointer, add_of_mem hlt.le (by decide), except_ok_do]
    cases hsecond : p.bytes[position + 1]? with
    | none =>
        rw [getByte_of_none hsecond]
        exact .rejected malformed
    | some second =>
        have hle : position + 1 < p.bytes.length := (List.getElem?_eq_some_iff.mp hsecond).1
        rw [getByte_of_getElem? hsecond, except_ok_do, add_of_mem hlt.le (by decide), except_ok_do]
        exact .jump _ _ (by omega) hle
  · rw [if_neg hpointer, if_neg hpointer]
    exact .rejected _

section Turns

variable {labels : List Chars} {jumps position : ℕ} {afterName : Option ℕ}

lemma nameLoop_error {e : Fault} (h : p.nameStep position = .error e) :
    p.nameLoop labels jumps position afterName = .error e := by
  rw [nameLoop]
  split <;> simp_all

lemma nameLoop_done {next : ℕ} (h : p.nameStep position = .ok (.done next)) :
    p.nameLoop labels jumps position afterName = .ok (labels, jumps, afterName.getD next) := by
  rw [nameLoop]
  split <;> simp_all

lemma nameLoop_label {text : Chars} {next : ℕ} (h : p.nameStep position = .ok (.label text next)) :
    p.nameLoop labels jumps position afterName
      = p.nameLoop (labels ++ [text]) jumps next afterName := by
  rw [nameLoop]
  split <;> simp_all

lemma nameLoop_jump {target resume : ℕ} (h : p.nameStep position = .ok (.jump target resume))
    (hjumps : jumps ≤ maxNameJumps) : p.nameLoop labels jumps position afterName
      = if maxNameJumps < jumps + 1 then
          .error (.rejected (malformedWith "a name compression pointer loops"))
        else p.nameLoop labels (jumps + 1) target (some (afterName.getD resume)) := by
  have hbound : maxNameJumps = 64 := rfl
  have hadd : p.add jumps 1 = .ok (jumps + 1) := add_small (by omega) (by decide)
  rw [nameLoop]
  split
  · simp_all
  · simp_all
  · simp_all
  · rename_i heq
    rw [h] at heq
    obtain ⟨rfl, rfl⟩ := NameStep.jump.inj (Except.ok.inj heq)
    split
    · simp_all
    · rename_i hmore
      rw [hadd] at hmore
      obtain rfl := Except.ok.inj hmore
      rfl

end Turns

/-- What the loop of a name gives: an error that is returned, or the labels, after at most 64
jumps, and a position that moved on within the packet unless a jump was taken before. -/
inductive NameOutcome (position : ℕ) (afterName : Option ℕ) :
    Except Fault (List Chars × ℕ × ℕ) → Except AppError (List Chars × ℕ) → Prop where
  | rejected (e : AppError) : NameOutcome position afterName (.error (.rejected e)) (.error e)
  | read (labels : List Chars) (jumps next : ℕ) (hjumps : jumps ≤ maxNameJumps)
      (hafter : ∀ after, afterName = some after → next = after)
      (hfirst : afterName = none → position < next ∧ next ≤ p.bytes.length) :
      NameOutcome position afterName (.ok (labels, jumps, next)) (.ok (labels, next))

/-- The loop of a name never panics, follows at most 64 jumps, and ends behind the name. -/
lemma nameLoop_spec (labels : List Chars) (jumps position : ℕ) (afterName : Option ℕ)
    (hjumps : jumps ≤ maxNameJumps) :
    NameOutcome (p := p) position afterName (p.nameLoop labels jumps position afterName)
      (Discovery.nameLoop p.bytes labels jumps position afterName) := by
  induction labels, jumps, position, afterName using Packet.nameLoop.induct p with
  | case1 labels jumps position afterName e hstep =>
      have hspec := nameStep_spec (p := p) labels jumps position afterName
      rw [hstep] at hspec
      rw [nameLoop_error hstep]
      generalize Discovery.nameLoop p.bytes labels jumps position afterName = result at hspec ⊢
      cases hspec with
      | rejected e => exact .rejected e
  | case2 labels jumps position afterName next hstep =>
      have hspec := nameStep_spec (p := p) labels jumps position afterName
      rw [hstep] at hspec
      rw [nameLoop_done hstep]
      generalize Discovery.nameLoop p.bytes labels jumps position afterName = result at hspec ⊢
      cases hspec with
      | done next hlt hle =>
          refine .read labels jumps _ hjumps (fun after hafter => ?_) fun hnone => ?_
          · rw [hafter]
            rfl
          · rw [hnone]
            exact ⟨hlt, hle⟩
  | case3 labels jumps position afterName text next hstep ih =>
      have hspec := nameStep_spec (p := p) labels jumps position afterName
      rw [hstep] at hspec
      rw [nameLoop_label hstep]
      generalize Discovery.nameLoop p.bytes labels jumps position afterName = result at hspec ⊢
      cases hspec with
      | label text next hlt hle =>
          have hnext := ih hjumps
          generalize p.nameLoop (labels ++ [text]) jumps next afterName = out at hnext ⊢
          generalize Discovery.nameLoop p.bytes (labels ++ [text]) jumps next afterName = result
            at hnext ⊢
          cases hnext with
          | rejected e => exact .rejected e
          | read labels jumps stop hjumps hafter hfirst =>
              exact .read labels jumps stop hjumps hafter fun hnone =>
                ⟨hlt.trans (hfirst hnone).1, (hfirst hnone).2⟩
  | case4 labels jumps position afterName target resume hstep e hadd =>
      have hbound : maxNameJumps = 64 := rfl
      rw [add_small (by omega) (by decide)] at hadd
      cases hadd
  | case5 labels jumps position afterName target resume hstep more hadd hloops =>
      have hspec := nameStep_spec (p := p) labels jumps position afterName
      rw [hstep] at hspec
      rw [nameLoop_jump hstep hjumps]
      obtain rfl := add_eq_ok hadd
      generalize Discovery.nameLoop p.bytes labels jumps position afterName = result at hspec ⊢
      cases hspec with
      | jump target resume hlt hle =>
          rw [if_pos hloops, if_pos hloops]
          exact .rejected _
  | case6 labels jumps position afterName target resume hstep more hadd hmore ih =>
      have hspec := nameStep_spec (p := p) labels jumps position afterName
      rw [hstep] at hspec
      rw [nameLoop_jump hstep hjumps]
      obtain rfl := add_eq_ok hadd
      generalize Discovery.nameLoop p.bytes labels jumps position afterName = result at hspec ⊢
      cases hspec with
      | jump target resume hlt hle =>
          have hnext := ih (Nat.not_lt.mp hmore)
          rw [if_neg hmore, if_neg hmore]
          generalize p.nameLoop labels (jumps + 1) target (some (afterName.getD resume)) = out
            at hnext ⊢
          generalize Discovery.nameLoop p.bytes labels (jumps + 1) target
            (some (afterName.getD resume)) = result at hnext ⊢
          cases hnext with
          | rejected e => exact .rejected e
          | read labels jumps stop hjumps hafter hfirst =>
              -- the first pointer decides where the name ends
              have hstop := hafter _ rfl
              refine .read labels jumps stop hjumps (fun after hsome => ?_) fun hnone => ?_
              · rw [hstop, hsome]
                rfl
              · rw [hnone] at hstop
                rw [hstop]
                exact ⟨hlt, hle⟩

lemma name_eq (position : ℕ) : p.name position = orReject (readName p.bytes position) := by
  have hspec := nameLoop_spec (p := p) [] 0 position none (Nat.zero_le _)
  unfold name readName
  generalize p.nameLoop [] 0 position none = out at hspec ⊢
  generalize Discovery.nameLoop p.bytes [] 0 position none = result at hspec ⊢
  cases hspec with
  | rejected e => rfl
  | read labels jumps next hjumps hafter hfirst => rfl

lemma textStep_eq {bytes : Bytes} {position : ℕ} {length : UInt8} (hbytes : 2 * bytes.length ≤ p.limit)
    (h : bytes[position]? = some length) : p.textStep bytes position
      = (orReject ((Cursor.take? bytes (position + 1) length.toNat).elim (.error malformed) .ok)).map
        fun entry => ((splitOnce (fromUtf8Lossy entry) ['=']).getD (fromUtf8Lossy entry, []),
          position + 1 + length.toNat) := by
  have hlt : position < bytes.length := (List.getElem?_eq_some_iff.mp h).1
  have hge := p.limit_ge
  have hlength := length.toNat_lt
  have hnext : p.add position 1 = .ok (position + 1) := add_of_le (by omega)
  have hstop : p.checkedAdd (position + 1) length.toNat = .ok (position + 1 + length.toNat) :=
    if_pos (by omega)
  rw [textStep, index_of_getElem? h, except_ok_do, hnext, except_ok_do, hstop, except_ok_do,
    getRange_eq]
  rfl

lemma textLoop_eq {bytes : Bytes} (hbytes : 2 * bytes.length ≤ p.limit) (position : ℕ)
    (properties : List (Chars × Chars)) : p.textLoop bytes position properties
      = orReject ((readProperties (bytes.drop position)).map (properties ++ ·)) := by
  induction hn : bytes.length - position using Nat.strongRecOn generalizing position properties with
  | ind n ih =>
      subst hn
      rw [textLoop]
      by_cases hlt : position < bytes.length
      · have hget : bytes[position]? = some bytes[position] := List.getElem?_eq_getElem hlt
        have hstep := textStep_eq hbytes hget
        have hdrop : bytes.drop position = bytes[position] :: bytes.drop (position + 1) :=
          List.drop_eq_getElem_cons hlt
        rw [if_pos hlt, hdrop, readProperties]
        by_cases hlong : (bytes.drop (position + 1)).length < bytes[position].toNat
        · have hnone : Cursor.take? bytes (position + 1) bytes[position].toNat = none := by
            rw [List.length_drop] at hlong
            rw [Cursor.take?, if_neg (by omega)]
          rw [hnone] at hstep
          rw [if_pos hlong]
          split
          · rename_i e he
            rw [hstep] at he
            rw [← Except.error.inj he]
            rfl
          · rename_i property next hok
            rw [hstep] at hok
            cases hok
        · have htake : Cursor.take? bytes (position + 1) bytes[position].toNat
              = some ((bytes.drop (position + 1)).take bytes[position].toNat) := by
            rw [List.length_drop] at hlong
            rw [Cursor.take?, if_pos (by omega)]
          rw [htake] at hstep
          rw [if_neg hlong]
          split
          · rename_i e he
            rw [hstep] at he
            cases he
          · rename_i property next hok
            rw [hstep] at hok
            obtain ⟨rfl, rfl⟩ := Prod.mk.inj (Except.ok.inj hok)
            rw [ih _ (by omega) _ _ rfl, List.drop_drop]
            cases readProperties (bytes.drop (position + 1 + bytes[position].toNat)) with
            | error e => rfl
            | ok rest =>
                simp [Except.map]
      · rw [if_neg hlt, List.drop_eq_nil_of_le (Nat.not_lt.mp hlt), readProperties]
        simp [Except.map]

lemma expectConsumed_eq {position start : ℕ} {data : Bytes}
    (h : start + data.length ≤ p.bytes.length) :
    p.expectConsumed position start data = orReject (Discovery.expectConsumed position start data) := by
  have h2 := p.length_le
  rw [Packet.expectConsumed, add_of_le (by omega), except_ok_do, Discovery.expectConsumed]
  split
  · rfl
  · rfl

/-- The data of a record is read alike where it stands in the packet. -/
lemma decodeData_eq {recordType start : ℕ} {data : Bytes}
    (h : start + data.length ≤ p.bytes.length) :
    p.decodeData recordType start data
      = orReject (Discovery.decodeData p.bytes recordType start data) := by
  have h2 := p.length_le
  unfold Packet.decodeData Discovery.decodeData
  split
  · simp only [name_eq, orReject_do, expectConsumed_eq h]
    rfl
  split
  · split
    · rfl
    · simp only [u16_eq, name_eq, orReject_do, expectConsumed_eq h]
      rfl
  split
  · rw [textLoop_eq (by omega), List.drop_zero]
    cases readProperties data with
    | error e => rfl
    | ok properties => rfl
  · rfl

lemma query_eq (position : ℕ) : p.query position = orReject (readQuery p.bytes position) := by
  unfold query readQuery
  simp only [name_eq, u16_eq, orReject_do]
  rfl

lemma record_eq (position : ℕ) : p.record position = orReject (readRecord p.bytes position) := by
  unfold record readRecord
  simp only [name_eq, u16_eq, u32_eq, take_eq, orReject_do]
  refine do_congr fun name _ => do_congr fun recordType _ => do_congr fun recordClass _ =>
    do_congr fun ttl _ => do_congr fun length _ => do_congr fun bytes hbytes => ?_
  obtain ⟨-, hlength, -, hle⟩ := discoveryTake_eq_ok (orReject_eq_ok.mp hbytes)
  rw [decodeData_eq (hlength.symm ▸ hle)]
  rfl

lemma readMany_eq {β : Type} {read : ℕ → Except Fault (β × ℕ)}
    {read' : ℕ → Except AppError (β × ℕ)} (h : ∀ position, read position = orReject (read' position))
    (count position : ℕ) :
    Cursor.readMany read count position = orReject (Cursor.readMany read' count position) := by
  induction count generalizing position with
  | zero => rfl
  | succ count ih =>
      simp only [Cursor.readMany, h, ih, orReject_do]
      rfl

lemma readU16_lt {packet : Bytes} {position n next : ℕ}
    (h : readU16 packet position = .ok (n, next)) : n < 65536 := by
  obtain ⟨⟨bytes, stop⟩, -, heq⟩ := except_map_eq_ok.mp h
  obtain ⟨rfl, -⟩ := Prod.mk.inj heq
  exact ofBe16_lt _ _

/-- The reader never panics, and reads what `Message.parse` reads. -/
theorem parse_eq : p.parse = orReject (Message.parse p.bytes) := by
  unfold parse Message.parse
  simp only [u16_eq, orReject_do]
  refine do_congr fun _ _ => do_congr fun _ _ => do_congr fun questions _ =>
    do_congr fun answers hanswers => do_congr fun authorities hauthorities =>
    do_congr fun additionals hadditionals => ?_
  have h1 := readU16_lt (orReject_eq_ok.mp hanswers)
  have h2 := readU16_lt (orReject_eq_ok.mp hauthorities)
  have h3 := readU16_lt (orReject_eq_ok.mp hadditionals)
  rw [readMany_eq query_eq]
  refine do_congr fun queries _ => ?_
  rw [add_small (by omega) (by omega), except_ok_do, add_small (by omega) (by omega), except_ok_do,
    readMany_eq record_eq]
  rfl

end Packet

/-! ### The data of the records -/

section Layout

variable (packet : Bytes)

/-- A string of a text record, taken apart at its first equals sign. -/
def textProperty (entry : Bytes) : Chars × Chars :=
  (splitOnce (fromUtf8Lossy entry) ['=']).getD (fromUtf8Lossy entry, [])

/-- The data takes the `length` bytes from `start` on: a name in it ends where they end, and the
strings of a text record fill them. -/
inductive DataAt (recordType start length : ℕ) : RecordData → Prop where
  | pointer {instanceName : Chars} (htype : recordType = recordTypePtr)
      (hname : readName packet start = .ok (instanceName, start + length)) :
      DataAt recordType start length (.pointer instanceName)
  | service {priority weight port : ℕ} {target : Chars} (htype : recordType = recordTypeSrv)
      (hpriority : readU16 packet start = .ok (priority, start + 2))
      (hweight : readU16 packet (start + 2) = .ok (weight, start + 4))
      (hport : readU16 packet (start + 4) = .ok (port, start + 6))
      (htarget : readName packet (start + 6) = .ok (target, start + length)) :
      DataAt recordType start length (.service priority weight port target)
  | text (entries : List Bytes) (htype : recordType = recordTypeTxt)
      (hshort : ∀ entry ∈ entries, entry.length < 256)
      (hdata : (packet.drop start).take length = entries.flatMap Cursor.frame) :
      DataAt recordType start length (.text (entries.map textProperty))
  | other (hptr : recordType ≠ recordTypePtr) (hsrv : recordType ≠ recordTypeSrv)
      (htxt : recordType ≠ recordTypeTxt) :
      DataAt recordType start length (.other ((packet.drop start).take length))

/-- A record stands from one position to another: its name, its fixed fields, the last of which is
the length of its data, and its data. -/
inductive RecordAt (position : ℕ) (record : Record) : ℕ → Prop where
  | mk {fields length recordClass ttl : ℕ}
      (hname : readName packet position = .ok (record.name, fields))
      (htype : readU16 packet fields = .ok (record.recordType, fields + 2))
      (hclass : readU16 packet (fields + 2) = .ok (recordClass, fields + 4))
      (hflush : record.cacheFlush = (recordClass &&& unicastOrCacheFlush != 0))
      (httl : readU32 packet (fields + 4) = .ok (ttl, fields + 8))
      (hlifetime : record.ttl = .ofSecs ttl)
      (hlength : readU16 packet (fields + 8) = .ok (length, fields + 10))
      (hwithin : fields + 10 + length ≤ packet.length)
      (hdata : DataAt packet record.recordType (fields + 10) length record.data) :
      RecordAt position record (fields + 10 + length)

/-- Records one behind the other. -/
inductive RecordsAt : ℕ → List Record → ℕ → Prop where
  | nil (position : ℕ) : RecordsAt position [] position
  | cons {position next stop : ℕ} {record : Record} {records : List Record}
      (hrecord : RecordAt packet position record next) (hrest : RecordsAt next records stop) :
      RecordsAt position (record :: records) stop

variable {packet}

lemma readU16_next {position n next : ℕ} (h : readU16 packet position = .ok (n, next)) :
    next = position + 2 := by
  obtain ⟨⟨bytes, stop⟩, htake, heq⟩ := except_map_eq_ok.mp h
  obtain ⟨-, rfl⟩ := Prod.mk.inj heq
  exact (Packet.discoveryTake_eq_ok htake).2.2.1

lemma readU32_next {position n next : ℕ} (h : readU32 packet position = .ok (n, next)) :
    next = position + 4 := by
  obtain ⟨⟨bytes, stop⟩, htake, heq⟩ := except_map_eq_ok.mp h
  obtain ⟨-, rfl⟩ := Prod.mk.inj heq
  exact (Packet.discoveryTake_eq_ok htake).2.2.1

lemma expectConsumed_eq_ok {position start : ℕ} {data : Bytes}
    (h : expectConsumed position start data = .ok ()) : position = start + data.length := by
  unfold expectConsumed at h
  split at h
  · cases h
  · rename_i heq
    exact Decidable.not_not.mp heq

/-- The strings of a text record fill its data. -/
lemma readProperties_eq_ok {bytes : Bytes} {properties : List (Chars × Chars)}
    (h : readProperties bytes = .ok properties) :
    ∃ entries : List Bytes, (∀ entry ∈ entries, entry.length < 256)
      ∧ bytes = entries.flatMap Cursor.frame ∧ properties = entries.map textProperty := by
  induction bytes using readProperties.induct generalizing properties with
  | case1 =>
      rw [readProperties] at h
      exact ⟨[], by simp, rfl, (Except.ok.inj h).symm⟩
  | case2 length rest hshort =>
      rw [readProperties, if_pos hshort] at h
      cases h
  | case3 length rest hlong ih =>
      rw [readProperties, if_neg hlong] at h
      obtain ⟨more, hmore, rfl⟩ := except_map_eq_ok.mp h
      obtain ⟨entries, hentries, hrest, rfl⟩ := ih hmore
      have hlength : (rest.take length.toNat).length = length.toNat := by
        rw [List.length_take]
        omega
      have hlt := length.toNat_lt
      refine ⟨rest.take length.toNat :: entries, ?_, ?_, rfl⟩
      · rw [List.forall_mem_cons]
        exact ⟨by omega, hentries⟩
      · rw [List.flatMap_cons, ← hrest, Cursor.frame, hlength, UInt8.ofNat_toNat, List.cons_append,
          List.take_append_drop]

/-- What is decoded takes exactly the bytes of the data. -/
lemma dataAt_of_decodeData {recordType start length : ℕ} {data : Bytes} {decoded : RecordData}
    (hbytes : data = (packet.drop start).take length) (hlength : data.length = length)
    (h : decodeData packet recordType start data = .ok decoded) :
    DataAt packet recordType start length decoded := by
  unfold decodeData at h
  split at h
  · rename_i htype
    obtain ⟨⟨name, position⟩, hname, h⟩ := except_do_eq_ok.mp h
    obtain ⟨⟨⟩, hconsumed, h⟩ := except_do_eq_ok.mp h
    obtain rfl := Except.ok.inj h
    have hposition := expectConsumed_eq_ok hconsumed
    rw [hlength] at hposition
    exact .pointer htype (hposition ▸ hname)
  rename_i hptr
  split at h
  · rename_i htype
    split at h
    · cases h
    obtain ⟨⟨priority, p1⟩, hpriority, h⟩ := except_do_eq_ok.mp h
    obtain ⟨⟨weight, p2⟩, hweight, h⟩ := except_do_eq_ok.mp h
    obtain ⟨⟨port, p3⟩, hport, h⟩ := except_do_eq_ok.mp h
    obtain ⟨⟨target, p4⟩, htarget, h⟩ := except_do_eq_ok.mp h
    obtain ⟨⟨⟩, hconsumed, h⟩ := except_do_eq_ok.mp h
    obtain rfl := Except.ok.inj h
    have hposition := expectConsumed_eq_ok hconsumed
    rw [hlength] at hposition
    obtain rfl := readU16_next hpriority
    obtain rfl := readU16_next hweight
    obtain rfl := readU16_next hport
    exact .service htype hpriority hweight hport (hposition ▸ htarget)
  rename_i hsrv
  split at h
  · rename_i htype
    obtain ⟨properties, hproperties, rfl⟩ := except_map_eq_ok.mp h
    obtain ⟨entries, hshort, hdata, rfl⟩ := readProperties_eq_ok hproperties
    exact .text entries htype hshort (hbytes.symm.trans hdata)
  · rename_i htxt
    obtain rfl := Except.ok.inj h
    rw [hbytes]
    exact .other hptr hsrv htxt

lemma recordAt_of_readRecord {position next : ℕ} {record : Record}
    (h : readRecord packet position = .ok (record, next)) : RecordAt packet position record next := by
  unfold readRecord at h
  obtain ⟨⟨name, fields⟩, hname, h⟩ := except_do_eq_ok.mp h
  obtain ⟨⟨recordType, p1⟩, htype, h⟩ := except_do_eq_ok.mp h
  obtain ⟨⟨recordClass, p2⟩, hclass, h⟩ := except_do_eq_ok.mp h
  obtain ⟨⟨ttl, p3⟩, httl, h⟩ := except_do_eq_ok.mp h
  obtain ⟨⟨length, start⟩, hlength, h⟩ := except_do_eq_ok.mp h
  obtain ⟨⟨bytes, stop⟩, htake, h⟩ := except_do_eq_ok.mp h
  obtain ⟨data, hdata, h⟩ := except_do_eq_ok.mp h
  obtain ⟨rfl, rfl⟩ := Prod.mk.inj (Except.ok.inj h)
  obtain rfl := readU16_next htype
  obtain rfl := readU16_next hclass
  obtain rfl := readU32_next httl
  obtain rfl := readU16_next hlength
  obtain ⟨hbytes, hcount, rfl, hwithin⟩ := Packet.discoveryTake_eq_ok htake
  exact .mk hname htype hclass rfl httl rfl hlength hwithin (dataAt_of_decodeData hbytes hcount hdata)

lemma recordsAt_of_readMany {count position stop : ℕ} {records : List Record}
    (h : Cursor.readMany (readRecord packet) count position = .ok (records, stop)) :
    RecordsAt packet position records stop := by
  induction count generalizing position records with
  | zero =>
      obtain ⟨rfl, rfl⟩ := Prod.mk.inj (Except.ok.inj h)
      exact .nil position
  | succ count ih =>
      rw [Cursor.readMany] at h
      obtain ⟨⟨record, next⟩, hrecord, h⟩ := except_do_eq_ok.mp h
      obtain ⟨⟨more, last⟩, hmore, h⟩ := except_do_eq_ok.mp h
      obtain ⟨rfl, rfl⟩ := Prod.mk.inj (Except.ok.inj h)
      exact .cons (recordAt_of_readRecord hrecord) (ih hmore)

lemma recordsAt_of_parse {message : Message} (h : Message.parse packet = .ok message) :
    ∃ start stop, RecordsAt packet start message.records stop := by
  unfold Message.parse at h
  obtain ⟨_, -, h⟩ := except_do_eq_ok.mp h
  obtain ⟨_, -, h⟩ := except_do_eq_ok.mp h
  obtain ⟨_, -, h⟩ := except_do_eq_ok.mp h
  obtain ⟨_, -, h⟩ := except_do_eq_ok.mp h
  obtain ⟨_, -, h⟩ := except_do_eq_ok.mp h
  obtain ⟨_, -, h⟩ := except_do_eq_ok.mp h
  obtain ⟨⟨queries, start⟩, -, h⟩ := except_do_eq_ok.mp h
  obtain ⟨⟨records, stop⟩, hrecords, h⟩ := except_do_eq_ok.mp h
  obtain rfl := Except.ok.inj h
  exact ⟨start, stop, recordsAt_of_readMany hrecords⟩

end Layout

/-! ### Every packet is read safely -/

/-- What a reader of one packet promises. -/
structure ReadsSafely (p : Packet) : Prop where
  parse : p.parse ≠ .error .panic
  name : ∀ position, p.name position ≠ .error .panic
  advances : ∀ position labels jumps next,
    p.nameLoop [] 0 position none = .ok (labels, jumps, next) →
      position < next ∧ next ≤ p.bytes.length ∧ jumps ≤ maxNameJumps
  exactly : ∀ message, p.parse = .ok message →
    ∃ start stop, RecordsAt p.bytes start message.records stop

/-- The reader is safe on every packet. -/
theorem reads_safely (p : Packet) : ReadsSafely p where
  parse := by
    rw [p.parse_eq]
    exact orReject_ne_panic
  name position := by
    rw [p.name_eq]
    exact orReject_ne_panic
  advances position labels jumps next h := by
    have hspec := Packet.nameLoop_spec (p := p) [] 0 position none (Nat.zero_le _)
    rw [h] at hspec
    generalize Discovery.nameLoop p.bytes [] 0 position none = result at hspec
    cases hspec with
    | read labels jumps next hjumps hafter hfirst =>
        exact ⟨(hfirst rfl).1, (hfirst rfl).2, hjumps⟩
  exactly message h := by
    rw [p.parse_eq] at h
    exact recordsAt_of_parse (orReject_eq_ok.mp h)

end ShaPrint.Discovery
