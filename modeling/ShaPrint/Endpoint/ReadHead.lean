import ShaPrint.Endpoint.Http
import ShaPrint.Lib.Digits
import ShaPrint.Lib.Fallible

/-!
Reading the head of a request off a stream, `read_head` and `body_length` of
`adapters/ipps/http.rs`.

* `readHead`: the loop over the reads of a transport, and the lines it scans.
* `Layout`: a stream is lines that are not blank, and then either a blank line or no further line.
* `readLoop_outcome`: what is read depends on the stream alone, whatever the reads are; the lines
  scanned so far are the invariant.
* `bodyLength`: the length of the body that a head announces; `Refused` lists what it refuses.
* `readHead_bodyLength_iff`: a head that is admitted states its length unambiguously, unless it
  states several.
-/

namespace ShaPrint.Endpoint

open Split Digits

/-! ### The reader -/

/-- Longest request head the endpoint reads. -/
def maxHeadBytes : ℕ := 8192

/-- Removes the line ending from a line of the head. -/
def withoutLineEnding (line : Bytes) : Bytes := (line.dropSuffix? [13]).getD line

/-- What a scan finds: the end of the head, or the start of a line that is not finished. -/
inductive Scan where
  | ended (headBytes : ℕ)
  | unfinished (lineStart : ℕ)
  deriving DecidableEq

/-- The loop over the lines from `scan` on; a head ends at the first empty line. -/
def scanLines (head : Bytes) (scan : ℕ) : Scan :=
  match _hfound : (head.drop scan).findIdx? (· == 10) with
  | none => .unfinished scan
  | some offset =>
      if withoutLineEnding ((head.drop scan).take offset) = [] then .ended (scan + offset + 1)
      else scanLines head (scan + offset + 1)
  termination_by head.length - scan
  decreasing_by
    obtain ⟨hlt, -⟩ := List.findIdx?_eq_some_iff_getElem.mp _hfound
    rw [List.length_drop] at hlt
    omega

/-- `consume(amount)`, of what is available. -/
def consume (amount : ℕ) : List Bytes → List Bytes
  | [] => []
  | available :: reads =>
      if amount < available.length then available.drop amount :: reads else reads

/-- The loop of `read_head`: the head so far, and the start of its last line. An empty read is the
end of the stream. -/
def readLoop (head : Bytes) (lineStart : ℕ) (reads : List Bytes) :
    Except HttpError (Head × List Bytes) :=
  match reads with
  | [] => .error .malformed
  | available :: rest =>
      if available = [] then .error .malformed
      else
        let budget := maxHeadBytes - head.length
        if budget = 0 then .error .tooLarge
        else
          let more := head ++ available.take budget
          match scanLines more lineStart with
          | .ended headBytes =>
              (parseHead (more.take headBytes)).map fun parsed =>
                (parsed, consume (headBytes - head.length) (available :: rest))
          | .unfinished lineStart =>
              if maxHeadBytes ≤ more.length then .error .tooLarge
              else readLoop more lineStart (consume (more.length - head.length) (available :: rest))
  termination_by maxHeadBytes - head.length
  decreasing_by
    have hpos := List.length_pos_iff.mpr ‹¬available = []›
    simp only [more, budget, List.length_append, List.length_take] at *
    omega

/-- A stream, as the reads that a transport splits it into. -/
structure Transport where
  reads : List Bytes
  nonempty : ∀ read ∈ reads, read ≠ []

/-- The stream. -/
def Transport.bytes (t : Transport) : Bytes := t.reads.flatten

/-- Reads a request head, and leaves what follows it. -/
def readHead (t : Transport) : Except HttpError (Head × Bytes) :=
  (readLoop [] 0 t.reads).map fun (head, reads) => (head, reads.flatten)

/-! ### The lines of a stream -/

/-- A line that ends a head. -/
def IsBlank (line : Bytes) : Prop := line = [] ∨ line = [13]

instance (line : Bytes) : Decidable (IsBlank line) := inferInstanceAs (Decidable (_ ∨ _))

/-- Lines of a head: finished, and not blank. -/
def IsLines (lines : List Bytes) : Prop := ∀ line ∈ lines, 10 ∉ line ∧ ¬ IsBlank line

/-- Lines with their line feeds. -/
def joinLines (lines : List Bytes) : Bytes := lines.flatMap (· ++ [10])

/-- The first blank line of a stream ends at a position. -/
def FirstBlank (stream : Bytes) (stop : ℕ) : Prop :=
  ∃ lines blank rest, IsLines lines ∧ IsBlank blank
    ∧ stream = joinLines lines ++ (blank ++ 10 :: rest)
    ∧ stop = (joinLines lines).length + blank.length + 1

/-- A stream without a blank line, which ends in an unfinished one. -/
def Unended (stream : Bytes) (lineStart : ℕ) : Prop :=
  ∃ lines tail, IsLines lines ∧ 10 ∉ tail ∧ stream = joinLines lines ++ tail
    ∧ lineStart = (joinLines lines).length

lemma ten_not_mem_blank {line : Bytes} (h : IsBlank line) : 10 ∉ line := by
  rcases h with rfl | rfl
  · exact List.not_mem_nil
  · decide

lemma withoutLineEnding_eq_nil {line : Bytes} : withoutLineEnding line = [] ↔ IsBlank line := by
  unfold withoutLineEnding IsBlank
  cases hcr : line.dropSuffix? [13] with
  | none =>
      rw [Option.getD_none]
      refine ⟨.inl, fun h => h.elim id fun hline => ?_⟩
      rw [hline] at hcr
      exact absurd hcr (by decide)
  | some rest =>
      rw [Option.getD_some]
      have hline := dropSuffix?_eq_some.mp hcr
      constructor
      · rintro rfl
        exact .inr hline
      · rintro (rfl | rfl)
        · simp at hline
        · simpa using hline

@[simp] lemma joinLines_nil : joinLines [] = [] := rfl

lemma joinLines_concat (lines : List Bytes) (line : Bytes) :
    joinLines (lines ++ [line]) = joinLines lines ++ (line ++ [10]) := by
  simp [joinLines]

lemma joinLines_append (lines lines' : List Bytes) :
    joinLines (lines ++ lines') = joinLines lines ++ joinLines lines' := List.flatMap_append

/-- The scan of a line that is finished. -/
lemma scanLines_line {done line rest : Bytes} (h : 10 ∉ line) :
    scanLines (done ++ (line ++ 10 :: rest)) done.length
      = if withoutLineEnding line = [] then .ended (done.length + line.length + 1)
        else scanLines (done ++ (line ++ 10 :: rest)) (done.length + line.length + 1) := by
  have hnot : ∀ b ∈ line, (b == (10 : UInt8)) = false := by
    intro b hb
    rw [beq_eq_false_iff_ne]
    rintro rfl
    exact h hb
  have hfound : ((done ++ (line ++ 10 :: rest)).drop done.length).findIdx? (· == 10)
      = some line.length := by
    rw [List.drop_left, List.findIdx?_append, List.findIdx?_eq_none_iff.mpr hnot,
      List.findIdx?_cons]
    simp
  rw [scanLines]
  split
  · rename_i hnone
    rw [hfound] at hnone
    cases hnone
  · rename_i offset hsome
    rw [hfound] at hsome
    obtain rfl := Option.some.inj hsome
    rw [List.drop_left, List.take_left]

/-- The scan of a line that is not finished. -/
lemma scanLines_tail {done tail : Bytes} (h : 10 ∉ tail) :
    scanLines (done ++ tail) done.length = .unfinished done.length := by
  have hnone : ((done ++ tail).drop done.length).findIdx? (· == 10) = none := by
    rw [List.drop_left, List.findIdx?_eq_none_iff]
    intro b hb
    rw [beq_eq_false_iff_ne]
    rintro rfl
    exact h hb
  rw [scanLines]
  split
  · rfl
  · rename_i offset hsome
    rw [hnone] at hsome
    cases hsome

lemma scanLines_lines {bytes : Bytes} {lines : List Bytes} (done : Bytes) (h : IsLines lines) :
    scanLines (done ++ (joinLines lines ++ bytes)) done.length
      = scanLines (done ++ joinLines lines ++ bytes) (done ++ joinLines lines).length := by
  induction lines generalizing done with
  | nil => simp
  | cons line lines ih =>
      obtain ⟨⟨hten, hblank⟩, hlines⟩ := List.forall_mem_cons.mp h
      have hjoin : joinLines (line :: lines) = line ++ 10 :: joinLines lines := by simp [joinLines]
      have hnot : withoutLineEnding line ≠ [] := fun hnil => hblank (withoutLineEnding_eq_nil.mp hnil)
      have hnext := ih (done ++ (line ++ [10])) hlines
      have hlength : (done ++ (line ++ [10])).length = done.length + line.length + 1 := by
        simp only [List.length_append, List.length_cons, List.length_nil]
        omega
      have htext : done ++ (joinLines (line :: lines) ++ bytes)
          = done ++ (line ++ 10 :: (joinLines lines ++ bytes)) := by
        rw [hjoin, List.append_assoc, List.cons_append]
      have hdone : done ++ (line ++ [10]) ++ (joinLines lines ++ bytes)
          = done ++ (line ++ 10 :: (joinLines lines ++ bytes)) := by simp
      have hlast : done ++ (line ++ [10]) ++ joinLines lines
          = done ++ joinLines (line :: lines) := by
        rw [hjoin]
        simp
      rw [htext, scanLines_line hten, if_neg hnot, ← hlength, ← hdone, hnext, hlast]

lemma scanLines_of_firstBlank {bytes : Bytes} {stop : ℕ} (done : Bytes)
    (h : FirstBlank bytes stop) :
    scanLines (done ++ bytes) done.length = .ended (done.length + stop) := by
  obtain ⟨lines, blank, rest, hlines, hblank, rfl, rfl⟩ := h
  rw [scanLines_lines _ hlines, scanLines_line (ten_not_mem_blank hblank),
    if_pos (withoutLineEnding_eq_nil.mpr hblank), List.length_append]
  congr 1
  omega

lemma scanLines_of_unended {bytes : Bytes} {lineStart : ℕ} (done : Bytes)
    (h : Unended bytes lineStart) :
    scanLines (done ++ bytes) done.length = .unfinished (done.length + lineStart) := by
  obtain ⟨lines, tail, hlines, htail, rfl, rfl⟩ := h
  rw [scanLines_lines _ hlines, scanLines_tail htail, List.length_append]

/-- A stream ends its head at one position only. -/
lemma FirstBlank.unique {bytes : Bytes} {stop stop' : ℕ} (h : FirstBlank bytes stop)
    (h' : FirstBlank bytes stop') : stop = stop' := by
  have heq := (scanLines_of_firstBlank [] h).symm.trans (scanLines_of_firstBlank [] h')
  simpa using heq

lemma Unended.not_firstBlank {bytes : Bytes} {lineStart stop : ℕ} (h : Unended bytes lineStart) :
    ¬ FirstBlank bytes stop := by
  intro h'
  have heq := (scanLines_of_firstBlank [] h').symm.trans (scanLines_of_unended [] h)
  cases heq

lemma FirstBlank.le {bytes : Bytes} {stop : ℕ} (h : FirstBlank bytes stop) :
    stop ≤ bytes.length := by
  obtain ⟨lines, blank, rest, -, -, rfl, rfl⟩ := h
  simp only [List.length_append, List.length_cons]
  omega

lemma FirstBlank.append {bytes : Bytes} {stop : ℕ} (h : FirstBlank bytes stop) (more : Bytes) :
    FirstBlank (bytes ++ more) stop := by
  obtain ⟨lines, blank, rest, hlines, hblank, rfl, rfl⟩ := h
  exact ⟨lines, blank, rest ++ more, hlines, hblank, by simp, rfl⟩

/-- The head ends within any part of the stream that holds its end. -/
lemma FirstBlank.take {bytes : Bytes} {stop n : ℕ} (h : FirstBlank bytes stop) (hle : stop ≤ n) :
    FirstBlank (bytes.take n) stop := by
  obtain ⟨lines, blank, rest, hlines, hblank, rfl, rfl⟩ := h
  refine ⟨lines, blank, rest.take (n - ((joinLines lines).length + blank.length + 1)), hlines,
    hblank, ?_, rfl⟩
  obtain ⟨k, rfl⟩ := Nat.exists_eq_add_of_le hle
  have hhead : joinLines lines ++ (blank ++ 10 :: rest)
      = (joinLines lines ++ (blank ++ [10])) ++ rest := by simp
  have hlength : (joinLines lines ++ (blank ++ [10])).length
      = (joinLines lines).length + blank.length + 1 := by
    simp only [List.length_append, List.length_cons, List.length_nil]
    omega
  rw [hhead, Nat.add_sub_cancel_left, ← hlength, List.take_length_add_append]
  simp

lemma firstBlank_lines {lines : List Bytes} {bytes : Bytes} {stop : ℕ} (hlines : IsLines lines)
    (h : FirstBlank bytes stop) :
    FirstBlank (joinLines lines ++ bytes) ((joinLines lines).length + stop) := by
  obtain ⟨lines', blank, rest, hlines', hblank, rfl, rfl⟩ := h
  refine ⟨lines ++ lines', blank, rest, ?_, hblank, ?_, ?_⟩
  · exact fun line hline => (List.mem_append.mp hline).elim (hlines line) (hlines' line)
  · rw [joinLines_append, List.append_assoc]
  · rw [joinLines_append, List.length_append]
    omega

lemma unended_lines {lines : List Bytes} {bytes : Bytes} {lineStart : ℕ} (hlines : IsLines lines)
    (h : Unended bytes lineStart) :
    Unended (joinLines lines ++ bytes) ((joinLines lines).length + lineStart) := by
  obtain ⟨lines', tail, hlines', htail, rfl, rfl⟩ := h
  refine ⟨lines ++ lines', tail, ?_, htail, ?_, ?_⟩
  · exact fun line hline => (List.mem_append.mp hline).elim (hlines line) (hlines' line)
  · rw [joinLines_append, List.append_assoc]
  · rw [joinLines_append, List.length_append]

/-- A stream ends its head, or it has no blank line. -/
lemma firstBlank_or_unended (bytes : Bytes) :
    (∃ stop, FirstBlank bytes stop) ∨ ∃ lineStart, Unended bytes lineStart := by
  induction hn : bytes.length using Nat.strongRecOn generalizing bytes with
  | ind n ih =>
      subst hn
      by_cases hten : (10 : UInt8) ∈ bytes
      · obtain ⟨line, rest, rfl, hline⟩ := List.eq_append_cons_of_mem hten
        by_cases hblank : IsBlank line
        · exact .inl ⟨_, [], line, rest, by simp [IsLines], hblank, rfl, rfl⟩
        · have hlines : IsLines [line] := by simpa [IsLines] using ⟨hline, hblank⟩
          have htext : line ++ 10 :: rest = joinLines [line] ++ rest := by simp [joinLines]
          have hlt : rest.length < (line ++ 10 :: rest).length := by
            simp only [List.length_append, List.length_cons]
            omega
          rw [htext]
          rcases ih _ hlt rest rfl with ⟨stop, hstop⟩ | ⟨lineStart, hstart⟩
          · exact .inl ⟨_, firstBlank_lines hlines hstop⟩
          · exact .inr ⟨_, unended_lines hlines hstart⟩
      · exact .inr ⟨0, [], bytes, by simp [IsLines], hten, rfl, rfl⟩

/-- The scan goes on where it stopped: it finds the blank line among the bytes that are new, or it
stops at the last line. -/
lemma scanLines_more {head : Bytes} {lineStart : ℕ} (h : Unended head lineStart) (more : Bytes) :
    (∃ stop, scanLines (head ++ more) lineStart = .ended stop ∧ FirstBlank (head ++ more) stop
        ∧ head.length < stop)
      ∨ ∃ start, scanLines (head ++ more) lineStart = .unfinished start
        ∧ Unended (head ++ more) start := by
  have hopen := h
  obtain ⟨lines, tail, hlines, htail, rfl, rfl⟩ := h
  rw [List.append_assoc]
  rcases firstBlank_or_unended (tail ++ more) with ⟨stop, hstop⟩ | ⟨start, hstart⟩
  · have hblank := firstBlank_lines hlines hstop
    refine .inl ⟨_, scanLines_of_firstBlank _ hstop, hblank, ?_⟩
    by_contra hnot
    have hshort := hblank.take (Nat.not_lt.mp hnot)
    rw [← List.append_assoc, List.take_left] at hshort
    exact hopen.not_firstBlank hshort
  · exact .inr ⟨_, scanLines_of_unended _ hstart, unended_lines hlines hstart⟩

/-! ### What is read -/

/-- What a stream is read as: the head up to its first blank line and what follows it, or the
error for a head that is too long, or for a stream that ends before its head does. -/
inductive HeadOutcome (stream : Bytes) : Except HttpError (Head × Bytes) → Prop where
  | ended {stop : ℕ} (hblank : FirstBlank stream stop) (hle : stop ≤ maxHeadBytes) :
      HeadOutcome stream ((parseHead (stream.take stop)).map fun head => (head, stream.drop stop))
  | tooLarge (hlong : ∀ stop, FirstBlank stream stop → maxHeadBytes < stop)
      (hle : maxHeadBytes ≤ stream.length) : HeadOutcome stream (.error .tooLarge)
  | closed (hnone : ∀ stop, ¬ FirstBlank stream stop) (hlt : stream.length < maxHeadBytes) :
      HeadOutcome stream (.error .malformed)

/-- A stream has one outcome. -/
lemma HeadOutcome.unique {stream : Bytes} {result result' : Except HttpError (Head × Bytes)}
    (h : HeadOutcome stream result) (h' : HeadOutcome stream result') : result = result' := by
  cases h with
  | ended hblank hle =>
      cases h' with
      | ended hblank' hle' => rw [hblank.unique hblank']
      | tooLarge hlong' hle' => exact absurd (hlong' _ hblank) (Nat.not_lt.mpr hle)
      | closed hnone' hlt' => exact absurd hblank (hnone' _)
  | tooLarge hlong hle =>
      cases h' with
      | ended hblank' hle' => exact absurd (hlong _ hblank') (Nat.not_lt.mpr hle')
      | tooLarge hlong' hle' => rfl
      | closed hnone' hlt' => exact absurd hle (Nat.not_le.mpr hlt')
  | closed hnone hlt =>
      cases h' with
      | ended hblank' hle' => exact absurd hblank' (hnone _)
      | tooLarge hlong' hle' => exact absurd hle' (Nat.not_le.mpr hlt)
      | closed hnone' hlt' => rfl

lemma consume_flatten {amount : ℕ} {available : Bytes} (reads : List Bytes)
    (h : amount ≤ available.length) :
    (consume amount (available :: reads)).flatten = (available :: reads).flatten.drop amount := by
  rw [consume, List.flatten_cons]
  split
  · rw [List.flatten_cons, List.drop_append_of_le_length h]
  · obtain rfl : amount = available.length := by omega
    rw [List.drop_left]

/-- What the loop reads depends on the stream alone. The lines scanned so far are finished, none
of them is blank, and the head is below its limit. -/
lemma readLoop_outcome {head : Bytes} {lineStart : ℕ} {reads : List Bytes}
    (hhead : Unended head lineStart) (hlt : head.length < maxHeadBytes)
    (hreads : ∀ read ∈ reads, read ≠ []) :
    HeadOutcome (head ++ reads.flatten)
      ((readLoop head lineStart reads).map fun (head, reads) => (head, reads.flatten)) := by
  induction hn : maxHeadBytes - head.length using Nat.strongRecOn
    generalizing head lineStart reads with
  | ind n ih =>
      subst hn
      rw [readLoop.eq_def]
      cases reads with
      | nil =>
          rw [List.flatten_nil, List.append_nil]
          exact .closed (fun stop => hhead.not_firstBlank) hlt
      | cons available rest =>
          obtain ⟨hnonempty, hrest⟩ := List.forall_mem_cons.mp hreads
          have hpos := List.length_pos_iff.mpr hnonempty
          dsimp only
          rw [if_neg hnonempty, if_neg (by omega)]
          have hcount : (available.take (maxHeadBytes - head.length)).length
              = min (maxHeadBytes - head.length) available.length := List.length_take
          have hsplit : available = available.take (maxHeadBytes - head.length)
              ++ available.drop (maxHeadBytes - head.length) := (List.take_append_drop _ _).symm
          generalize available.take (maxHeadBytes - head.length) = taken at hcount hsplit ⊢
          generalize available.drop (maxHeadBytes - head.length) = left at hsplit
          have hstream : head ++ (available :: rest).flatten
              = head ++ taken ++ (left ++ rest.flatten) := by
            rw [List.flatten_cons, hsplit]
            simp only [List.append_assoc]
          have hlength : (head ++ taken).length = head.length + taken.length := List.length_append
          rcases scanLines_more hhead taken with ⟨stop, hscan, hblank, hbeyond⟩ | ⟨start, hscan, hopen⟩
          · have hwithin := hblank.le
            have hamount : stop - head.length ≤ available.length := by omega
            have hconsume := consume_flatten rest hamount
            have hdrop : (head ++ (available :: rest).flatten).drop stop
                = (available :: rest).flatten.drop (stop - head.length) := by
              rw [List.drop_append, List.drop_eq_nil_of_le hbeyond.le, List.nil_append]
            have htake : (head ++ (available :: rest).flatten).take stop
                = (head ++ taken).take stop := by
              rw [hstream, List.take_append_of_le_length hwithin]
            have hended : FirstBlank (head ++ (available :: rest).flatten) stop :=
              hstream ▸ hblank.append _
            have houtcome := HeadOutcome.ended hended (by omega)
            rw [hscan]
            dsimp only
            rw [htake, hdrop, ← hconsume] at houtcome
            cases hparse : parseHead ((head ++ taken).take stop) with
            | error e =>
                rw [hparse] at houtcome
                exact houtcome
            | ok parsed =>
                rw [hparse] at houtcome
                exact houtcome
          · rw [hscan]
            dsimp only
            by_cases hfull : maxHeadBytes ≤ (head ++ taken).length
            · rw [if_pos hfull]
              refine .tooLarge (fun stop hblank => ?_) ?_
              · by_contra hnot
                have hshort := hblank.take (n := (head ++ taken).length) (by omega)
                rw [hstream, List.take_left] at hshort
                exact hopen.not_firstBlank hshort
              · rw [hstream, List.length_append]
                omega
            · rw [if_neg hfull]
              have hall : taken.length = available.length := by omega
              have hleft : left = [] := by
                have hsum := congrArg List.length hsplit
                rw [List.length_append] at hsum
                exact List.length_eq_zero_iff.mp (by omega)
              have hrest' : consume ((head ++ taken).length - head.length) (available :: rest)
                  = rest := by
                rw [consume, if_neg (by omega)]
              rw [hrest', hstream, hleft, List.nil_append]
              exact ih _ (by omega) hopen (by omega) hrest rfl

/-! ### The length of the body -/

/-- Longest request body the endpoint reads. -/
def maxBodyBytes : ℕ := 67108864

/-- `usize::from_str` -/
def parseUsize (s : Chars) : Option ℕ := parseUnsigned 18446744073709551615 s

/-- Checks the head and reports how many body bytes to read. -/
def bodyLength (head : Head) : Except HttpError ℕ :=
  if head.method ≠ "POST".toList then .error .methodNotAllowed
  else if (head.header "transfer-encoding".toList).isSome then
    .error .unsupportedTransferEncoding
  else
    match head.header "content-type".toList with
    | none => .error .malformed
    | some contentType =>
        if !"application/ipp".toList.isPrefixOf (toAsciiLower (trim contentType)) then
          .error .malformed
        else
          match head.header "content-length".toList with
          | none => .error .lengthRequired
          | some length =>
              match parseUsize (trim length) with
              | none => .error .malformed
              | some length => if maxBodyBytes < length then .error .tooLarge else .ok length

/-! ### Heads and bodies -/

/-- What the reader of a head promises for a stream, however the transport splits it: it reads the
head that a blank line ends within the limit, up to that line and no byte further. -/
structure ReadsHead (t : Transport) : Prop where
  outcome : HeadOutcome t.bytes (readHead t)
  accepts : ∀ head rest, readHead t = .ok (head, rest) ↔ ∃ stop, FirstBlank t.bytes stop
    ∧ stop ≤ maxHeadBytes ∧ parseHead (t.bytes.take stop) = .ok head ∧ rest = t.bytes.drop stop
  same : ∀ t' : Transport, t'.bytes = t.bytes → readHead t' = readHead t

lemma readHead_outcome (t : Transport) : HeadOutcome t.bytes (readHead t) :=
  readLoop_outcome ⟨[], [], by simp [IsLines], List.not_mem_nil, rfl, rfl⟩ (by decide) t.nonempty

lemma readHead_reads (t : Transport) : ReadsHead t where
  outcome := readHead_outcome t
  accepts head rest := by
    have houtcome := readHead_outcome t
    constructor
    · intro h
      generalize readHead t = result at h houtcome
      cases houtcome with
      | ended hblank hle =>
          obtain ⟨parsed, hparsed, heq⟩ := except_map_eq_ok.mp h
          obtain ⟨rfl, rfl⟩ := Prod.mk.inj heq
          exact ⟨_, hblank, hle, hparsed, rfl⟩
      | tooLarge hlong hle => cases h
      | closed hnone hlt => cases h
    · rintro ⟨stop, hblank, hle, hparse, rfl⟩
      rw [houtcome.unique (.ended hblank hle), hparse]
      rfl
  same t' h := by
    have houtcome := readHead_outcome t'
    rw [h] at houtcome
    exact houtcome.unique (readHead_outcome t)

/-- The lengths that a head states. -/
def Head.lengths (head : Head) : List Chars :=
  (head.headers.filter fun header => eqIgnoreAsciiCase header.1 "content-length".toList).map (·.2)

/-- A length in digits. -/
structure IsLength (value : Chars) (n : ℕ) : Prop where
  nonempty : trim value ≠ []
  digits : (trim value).all Char.isDigit = true
  value : valueOf 10 (trim value) = n

/-- A head states a length, and no other. -/
def StatesLength (head : Head) (n : ℕ) : Prop :=
  head.lengths ≠ [] ∧ ∀ value ∈ head.lengths, IsLength value n

/-- A head is admitted only if it states the length of its body, and no other. -/
def AdmitsStated (head : Head) : Prop := ∀ n, bodyLength head = .ok n → StatesLength head n

/-- A head that is refused for its method, its transfer encoding, its content type, or its first
length, which is missing, no number, or too large. -/
inductive Refused (head : Head) : Prop where
  | method (h : head.method ≠ "POST".toList)
  | transferEncoding (h : (head.header "transfer-encoding".toList).isSome)
  | contentType (h : ∀ contentType, head.header "content-type".toList = some contentType →
      "application/ipp".toList.isPrefixOf (toAsciiLower (trim contentType)) = false)
  | length (h : ∀ length n, head.header "content-length".toList = some length →
      parseUsize (trim length) = some n → maxBodyBytes < n)

/-- What a head passes that is admitted. -/
lemma bodyLength_eq_ok {head : Head} {n : ℕ} : bodyLength head = .ok n ↔
    head.method = "POST".toList ∧ head.header "transfer-encoding".toList = none
      ∧ (∃ contentType, head.header "content-type".toList = some contentType
        ∧ "application/ipp".toList.isPrefixOf (toAsciiLower (trim contentType)) = true)
      ∧ ∃ length, head.header "content-length".toList = some length
        ∧ parseUsize (trim length) = some n ∧ n ≤ maxBodyBytes := by
  unfold bodyLength
  constructor
  · intro h
    split at h
    · cases h
    rename_i hmethod
    split at h
    · cases h
    rename_i hencoding
    split at h
    · cases h
    rename_i contentType hcontent
    split at h
    · cases h
    rename_i htype
    split at h
    · cases h
    rename_i length hlength
    split at h
    · cases h
    rename_i value hvalue
    split at h
    · cases h
    rename_i hle
    obtain rfl := Except.ok.inj h
    refine ⟨Decidable.not_not.mp hmethod, by simpa using hencoding, ⟨contentType, hcontent, ?_⟩,
      length, hlength, hvalue, Nat.not_lt.mp hle⟩
    simpa using htype
  · rintro ⟨hmethod, hencoding, ⟨contentType, hcontent, htype⟩, length, hlength, hvalue, hle⟩
    have hpost : ¬ head.method ≠ "POST".toList := not_not_intro hmethod
    have hidentity : ¬ (none : Option Chars).isSome = true := Bool.false_ne_true
    rw [if_neg hpost, hencoding, if_neg hidentity, hcontent]
    dsimp only
    rw [htype, hlength]
    dsimp only
    rw [hvalue]
    exact if_neg (Nat.not_lt.mpr hle)

lemma not_ok_of_refused {head : Head} {n : ℕ} (h : Refused head) : bodyLength head ≠ .ok n := by
  intro hok
  obtain ⟨hmethod, hencoding, ⟨contentType, hcontent, htype⟩, length, hlength, hvalue, hle⟩ :=
    bodyLength_eq_ok.mp hok
  cases h with
  | method h => exact h hmethod
  | transferEncoding h =>
      rw [hencoding] at h
      cases h
  | contentType h =>
      rw [h contentType hcontent] at htype
      cases htype
  | length h => exact absurd (h length n hlength hvalue) (Nat.not_lt.mpr hle)

/-- A head is refused, or it is admitted with its first length. -/
lemma refused_or_ok (head : Head) : Refused head ∨ ∃ n, bodyLength head = .ok n := by
  by_cases hmethod : head.method = "POST".toList
  swap
  · exact .inl (.method hmethod)
  cases hencoding : head.header "transfer-encoding".toList with
  | some encoding => exact .inl (.transferEncoding (by rw [hencoding]; rfl))
  | none =>
      by_cases htype : ∃ contentType, head.header "content-type".toList = some contentType
          ∧ "application/ipp".toList.isPrefixOf (toAsciiLower (trim contentType)) = true
      swap
      · refine .inl (.contentType fun contentType hcontent => ?_)
        rw [Bool.eq_false_iff]
        exact fun hprefix => htype ⟨contentType, hcontent, hprefix⟩
      by_cases hlength : ∃ length n, head.header "content-length".toList = some length
          ∧ parseUsize (trim length) = some n ∧ n ≤ maxBodyBytes
      · obtain ⟨length, n, hheader, hvalue, hle⟩ := hlength
        exact .inr ⟨n, bodyLength_eq_ok.mpr ⟨hmethod, hencoding, htype, length, hheader, hvalue, hle⟩⟩
      · refine .inl (.length fun length n hheader hvalue => ?_)
        exact Nat.not_le.mp fun hle => hlength ⟨length, n, hheader, hvalue, hle⟩

/-- The length that is admitted is the first that is stated. -/
lemma header_mem_lengths {head : Head} {length : Chars}
    (h : head.header "content-length".toList = some length) : length ∈ head.lengths := by
  obtain ⟨header, hfind, rfl⟩ := Option.map_eq_some_iff.mp h
  refine List.mem_map_of_mem (List.mem_filter.mpr ⟨List.mem_of_find?_eq_some hfind, ?_⟩)
  have hname := List.find?_some hfind
  exact hname

lemma parseUsize_of_isLength {value : Chars} {m n : ℕ} (h : IsLength value m)
    (hparse : parseUsize (trim value) = some n) : m = n := by
  unfold parseUsize parseUnsigned at hparse
  split at hparse
  · rename_i digits hplus
    have hdigit := List.all_eq_true.mp h.digits '+' (by rw [hplus]; exact List.mem_cons_self)
    exact absurd hdigit (by decide)
  · simp only [Option.ite_none_right_eq_some, Option.some.injEq] at hparse
    exact h.value.symm.trans hparse.2

/-- Every head is read alike however it arrives, and it is admitted only with a length that is
stated unambiguously, exactly if it is refused or states one length. -/
theorem readHead_bodyLength_iff (t : Transport) (head : Head) :
    ReadsHead t ∧ AdmitsStated head ↔ Refused head ∨ ∃ n, StatesLength head n := by
  constructor
  · rintro ⟨-, hadmits⟩
    rcases refused_or_ok head with hrefused | ⟨n, hok⟩
    · exact .inl hrefused
    · exact .inr ⟨n, hadmits n hok⟩
  · intro h
    refine ⟨readHead_reads t, fun n hok => ?_⟩
    rcases h with hrefused | ⟨m, hstates⟩
    · exact absurd hok (not_ok_of_refused hrefused)
    · obtain ⟨-, -, -, length, hheader, hvalue, -⟩ := bodyLength_eq_ok.mp hok
      have hsame := parseUsize_of_isLength (hstates.2 length (header_mem_lengths hheader)) hvalue
      exact hsame ▸ hstates

/-! ### Two lengths -/

/-- The lines of a request that states two lengths. -/
def twoLengthLines : List String :=
  ["POST /ipp/print HTTP/1.1", "Content-Type: application/ipp", "Content-Length: 4",
    "Content-Length: 10"]

/-- The request, with ten bytes behind its head. -/
def twoLengths : Transport where
  reads := [joinLines (twoLengthLines.map asBytes) ++ asBytes "\nBODY123456"]
  nonempty := by simp [joinLines, twoLengthLines]

/-- Its head, of which the first length is admitted. -/
def twoLengthsHead : Head where
  method := "POST".toList
  path := "/ipp/print".toList
  headers := [("Content-Type".toList, "application/ipp".toList),
    ("Content-Length".toList, "4".toList), ("Content-Length".toList, "10".toList)]

theorem two_lengths_admitted :
    ¬ ∀ (t : Transport) (head : Head) (rest : Bytes), readHead t = .ok (head, rest) →
      AdmitsStated head := by
  intro h
  have hread : readHead twoLengths = .ok (twoLengthsHead, asBytes "BODY123456") := by
    refine ((readHead_reads twoLengths).accepts _ _).mpr ⟨_, ⟨twoLengthLines.map asBytes, [],
      asBytes "BODY123456", ?_, .inl rfl, ?_, rfl⟩, ?_, ?_, ?_⟩
    · exact List.all_iff_forall_prop.mp (by decide +kernel)
    · decide +kernel
    · decide +kernel
    · decide +kernel
    · decide +kernel
  have hok : bodyLength twoLengthsHead = .ok 4 := by decide +kernel
  obtain ⟨-, hall⟩ := h _ _ _ hread 4 hok
  have hten := (hall "10".toList (by decide +kernel)).value
  exact absurd hten (by decide +kernel)

end ShaPrint.Endpoint
