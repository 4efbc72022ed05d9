import ShaPrint.Client.ChunkedBody

/-!
Which chunked bodies are read exactly, and which streams that are cut are noticed.

* `parseChunkSize_take`: what the first bytes of a size line are taken for.
* `skipTrailers_line`, `skipTrailers_lines`: a line that is longer than the reader's limit is
  read in pieces, and its last piece may look like the empty line.
* `readChunks_iff`: all bodies with the same framing are read exactly if and only if it fits, by
  induction on the chunks.
* `readChunks_eq_ok`: one pass of the loop.
* `Unnoticed`, `readChunks_cut_iff`: the cuts that go unnoticed.
* `readChunkedBody_iff`: both for a whole encoding.
-/

namespace ShaPrint.Client

open Digits

/-! ### Texts of a size line -/

lemma isDigitOf_cases {c : Char} (h : isDigitOf 16 c = true) :
    c.toNat < 128 ∧ isWhitespace c = false ∧ c ≠ ';' ∧ c ≠ '+' := by
  have hbound : ∀ d : Char, d.toNat < 128 → c ≤ d → c.toNat < 128 :=
    fun d hd hle => (UInt32.le_iff_toNat_le.mp hle).trans_lt hd
  have hlt : c.toNat < 128 := by
    unfold isDigitOf digitOf at h
    dsimp only at h
    split_ifs at h with hdigit hlower hupper
    · exact hbound '9' (by decide) (of_decide_eq_true (Bool.and_eq_true_iff.mp hdigit).2)
    · exact hbound 'f' (by decide) (of_decide_eq_true (Bool.and_eq_true_iff.mp hlower).2)
    · exact hbound 'F' (by decide) (of_decide_eq_true (Bool.and_eq_true_iff.mp hupper).2)
    · cases h
  have hall : ∀ n < 128, isDigitOf 16 (Char.ofNat n) = true →
      isWhitespace (Char.ofNat n) = false ∧ Char.ofNat n ≠ ';' ∧ Char.ofNat n ≠ '+' := by
    decide +kernel
  exact ⟨hlt, forall_ascii (P := fun c => isDigitOf 16 c = true →
    isWhitespace c = false ∧ c ≠ ';' ∧ c ≠ '+') hall hlt h⟩

variable {digits : Chars}

lemma fromHex_digits (hne : digits ≠ []) (hall : digits.all (isDigitOf 16) = true) :
    fromHex digits = if valueOf 16 digits < 2 ^ 64 then some (valueOf 16 digits) else none := by
  have hplus : digits.dropPrefix? ['+'] = none := by
    rw [Split.dropPrefix?_eq_none]
    rintro ⟨rest, rfl⟩
    exact (isDigitOf_cases (List.all_eq_true.mp hall '+' List.mem_cons_self)).2.2.2 rfl
  unfold fromHex
  rw [hplus, Option.getD_none]
  by_cases hlt : valueOf 16 digits < 2 ^ 64
  · rw [if_pos ⟨hne, hall, hlt⟩, if_pos hlt]
  · rw [if_neg (fun h => hlt h.2.2), if_neg hlt]

lemma trimmed_digits (hall : digits.all (isDigitOf 16) = true) :
    Split.Trimmed isWhitespace digits :=
  ⟨fun a ha => (isDigitOf_cases (List.all_eq_true.mp hall a (List.mem_of_mem_head? ha))).2.1,
    fun a ha => (isDigitOf_cases (List.all_eq_true.mp hall a (List.mem_of_getLast? ha))).2.1⟩

lemma takeWhile_digits (hall : digits.all (isDigitOf 16) = true) (rest : Chars) :
    (digits ++ rest).takeWhile (· ≠ ';') = digits ++ rest.takeWhile (· ≠ ';') := by
  refine List.takeWhile_append_of_pos fun c hc => ?_
  exact decide_eq_true (isDigitOf_cases (List.all_eq_true.mp hall c hc)).2.2.1

/-- Digits in front of white space are a size. -/
lemma sizeText_blank (hne : digits ≠ []) (hall : digits.all (isDigitOf 16) = true)
    {blank : Chars} (hblank : ∀ c ∈ blank, isWhitespace c = true) :
    sizeText (digits ++ blank) = digits := by
  have htrim : trim (digits ++ blank) = digits := by
    have hend : (blank.reverse ++ digits.reverse).dropWhile isWhitespace = digits.reverse := by
      rw [List.dropWhile_append_of_pos fun c hc => hblank c (List.mem_reverse.mp hc)]
      refine Split.dropWhile_eq_self fun c hc => ?_
      rw [List.head?_reverse] at hc
      exact (trimmed_digits hall).2 c hc
    have hstart : (digits ++ blank).dropWhile isWhitespace = digits ++ blank := by
      refine Split.dropWhile_eq_self fun c hc => ?_
      rw [List.head?_append_of_ne_nil _ hne] at hc
      exact (trimmed_digits hall).1 c hc
    rw [trim, Split.trimBoth, hstart, List.reverse_append, hend, List.reverse_reverse]
  rw [sizeText, htrim, ← List.append_nil digits, takeWhile_digits hall, List.takeWhile_nil,
    List.append_nil]
  exact Split.trimBoth_of_trimmed (trimmed_digits hall)

/-- Digits in front of a semicolon are a size. -/
lemma sizeText_semicolon (hall : digits.all (isDigitOf 16) = true) (rest : Chars) :
    sizeText (digits ++ ';' :: rest) = digits := by
  have hfront : Split.Trimmed isWhitespace (digits ++ [';']) := by
    constructor
    · intro a ha
      cases digits with
      | nil => exact Option.some.inj ha ▸ rfl
      | cons c digits => exact (trimmed_digits hall).1 a ha
    · intro a ha
      rw [List.getLast?_concat] at ha
      exact Option.some.inj ha ▸ rfl
  obtain ⟨rest', hrest⟩ := Split.exists_trimBoth_append hfront (by simp) rest
  rw [List.append_assoc, List.singleton_append, List.append_assoc, List.singleton_append] at hrest
  have htrim : trim (digits ++ ';' :: rest) = digits ++ ';' :: rest' := hrest
  rw [sizeText, htrim, takeWhile_digits hall, List.takeWhile_cons_of_neg (by simp),
    List.append_nil]
  exact Split.trimBoth_of_trimmed (trimmed_digits hall)

lemma valueOf_eq_zero (hall : digits.all (isDigitOf 16) = true) :
    valueOf 16 digits = 0 ↔ ∀ c ∈ digits, c = '0' := by
  induction digits using List.reverseRecOn with
  | nil => exact ⟨fun _ c hc => absurd hc List.not_mem_nil, fun _ => rfl⟩
  | append_singleton digits c ih =>
      rw [List.all_append, Bool.and_eq_true] at hall
      have hc : isDigitOf 16 c = true := (Bool.and_eq_true_iff.mp hall.2).1
      have hzero : (digitOf 16 c).getD 0 = 0 ↔ c = '0' := by
        have hcases : ∀ n < 128, isDigitOf 16 (Char.ofNat n) = true →
            ((digitOf 16 (Char.ofNat n)).getD 0 = 0 ↔ Char.ofNat n = '0') := by
          decide +kernel
        exact forall_ascii (P := fun c => isDigitOf 16 c = true →
          ((digitOf 16 c).getD 0 = 0 ↔ c = '0')) hcases (isDigitOf_cases hc).1 hc
      rw [valueOf_concat, Nat.add_eq_zero_iff, hzero, Nat.mul_eq_zero, ih hall.1,
        List.forall_mem_append, List.forall_mem_singleton, or_iff_left (by decide)]

variable (line : SizeLine)

lemma ascii_digits : ∀ c ∈ line.digits, c.toNat < 128 :=
  fun c hc => (isDigitOf_cases (List.all_eq_true.mp line.hdigits.2 c hc)).1

lemma bytes_eq : line.bytes = Utf8.encode line.digits ++ (line.suffix ++ crlf) := by
  unfold SizeLine.bytes SizeLine.text
  rw [List.append_assoc, List.append_assoc]
  rfl

/-- What the first bytes of a size line spell. -/
lemma sizeText_take {k : ℕ} (hk : 0 < k) {text : String}
    (h : fromUtf8 (line.bytes.take k) = some text) :
    sizeText text.toList = line.digits.take k := by
  obtain ⟨hne, hall⟩ := line.hdigits
  have hascii := ascii_digits line
  have hlength : (Utf8.encode line.digits).length = line.digits.length :=
    length_utf8_of_ascii hascii
  have htake : ∀ c ∈ line.digits.take k, c.toNat < 128 :=
    fun c hc => hascii c (List.mem_of_mem_take hc)
  have hencode : Utf8.encode text.toList = Utf8.encode (line.digits.take k)
      ++ (line.suffix ++ crlf).take (k - line.digits.length) :=
    calc Utf8.encode text.toList = line.bytes.take k :=
        (asBytes_eq_utf8 text).symm.trans (fromUtf8_eq_some.mp h)
      _ = _ := by rw [bytes_eq, List.take_append, hlength, Utf8.encode_take hascii]
  obtain ⟨tail, htext, htail⟩ := Utf8.exists_of_encode_eq_append htake hencode
  have hne' : line.digits.take k ≠ [] := by
    rw [ne_eq, List.take_eq_nil_iff, not_or]
    exact ⟨hk.ne', hne⟩
  have hall' : (line.digits.take k).all (isDigitOf 16) = true :=
    List.all_eq_true.mpr fun c hc => List.all_eq_true.mp hall c (List.mem_of_mem_take hc)
  rw [htext]
  cases hext : line.extension with
  | none =>
      -- the rest is the beginning of the line break
      have hsuffix : line.suffix ++ crlf = Utf8.encode ['\r', '\n'] := by
        rw [SizeLine.suffix, hext]
        rfl
      rw [hsuffix, Utf8.encode_take (List.all_iff_forall_prop.mp (by decide))] at htail
      refine sizeText_blank hne' hall' fun c hc => ?_
      rw [Utf8.encode_injective htail] at hc
      have hblank : ∀ c ∈ ['\r', '\n'], isWhitespace c = true := List.all_eq_true.mp (by decide)
      exact hblank c (List.mem_of_mem_take hc)
  | some e =>
      have hsuffix : line.suffix ++ crlf = 59 :: (e ++ crlf) := by
        rw [SizeLine.suffix, hext]
        rfl
      rw [hsuffix] at htail
      cases hj : k - line.digits.length with
      | zero =>
          rw [hj, List.take_zero, ← Utf8.encode_nil] at htail
          rw [Utf8.encode_injective htail]
          exact sizeText_blank hne' hall' fun c hc => absurd hc List.not_mem_nil
      | succ j =>
          rw [hj, List.take_succ_cons] at htail
          have hsemicolon : Utf8.encode tail = Utf8.encode [';'] ++ (e ++ crlf).take j := htail
          obtain ⟨tail', rfl, _⟩ :=
            Utf8.exists_of_encode_eq_append (List.all_iff_forall_prop.mp (by decide)) hsemicolon
          exact sizeText_semicolon hall' tail'

/-- What the first bytes of a size line are taken for. -/
lemma parseChunkSize_take {k n : ℕ} (hk : 0 < k) :
    parseChunkSize (line.bytes.take k) = .ok n
      ↔ (fromUtf8 (line.bytes.take k)).isSome = true ∧ n = valueOf 16 (line.digits.take k)
        ∧ n < 2 ^ 64 := by
  unfold parseChunkSize
  cases htext : fromUtf8 (line.bytes.take k) with
  | none =>
      constructor
      · intro h
        cases h
      · intro h
        cases h.1
  | some text =>
      dsimp only
      have hne : line.digits.take k ≠ [] := by
        rw [ne_eq, List.take_eq_nil_iff, not_or]
        exact ⟨hk.ne', line.hdigits.1⟩
      have hall : (line.digits.take k).all (isDigitOf 16) = true :=
        List.all_eq_true.mpr fun c hc =>
          List.all_eq_true.mp line.hdigits.2 c (List.mem_of_mem_take hc)
      rw [sizeText_take line hk htext, fromHex_digits hne hall]
      by_cases hlt : valueOf 16 (line.digits.take k) < 2 ^ 64
      · rw [if_pos hlt]
        constructor
        · intro h
          obtain rfl := Except.ok.inj h
          exact ⟨rfl, rfl, hlt⟩
        · rintro ⟨-, rfl, -⟩
          rfl
      · rw [if_neg hlt]
        constructor
        · intro h
          cases h
        · rintro ⟨-, rfl, h⟩
          exact absurd h hlt

/-! ### Trailers -/

/-- Lines of `n` bytes are read in pieces, the last of which may be as long as an empty line. -/
def SplitsBlank (n : ℕ) : Prop := n % maxHeadBytes = 1 ∨ n % maxHeadBytes = 2

/-- A line that ends in a carriage return, or has nothing. -/
def EndsInReturn (u : Bytes) : Prop := u = [] ∨ ∃ w, u = w ++ [13]

lemma endsTrailers_iff {u : Bytes} (hend : EndsInReturn u) (hlt : u.length < maxHeadBytes) :
    endsTrailers (u ++ [10]) = true ↔ SplitsBlank (u.length + 1) := by
  unfold SplitsBlank
  rcases hend with rfl | ⟨w, rfl⟩
  · exact iff_of_true rfl (.inl rfl)
  · cases w with
    | nil => exact iff_of_true rfl (.inr rfl)
    | cons b w =>
        refine iff_of_false ?_ ?_
        · have htwo : w ++ [13, 10] ≠ [10] := fun h => by simpa using congrArg List.length h
          simp [endsTrailers, htwo]
        · unfold maxHeadBytes at *
          rw [List.length_append, List.length_cons, List.length_singleton] at *
          omega

/-- A trailer ends the trailers if and only if its last piece is as short as an empty line. -/
lemma skipTrailers_line {u : Bytes} (hline : (10 : UInt8) ∉ u) (hend : EndsInReturn u)
    (rest : Bytes) :
    (SplitsBlank (u.length + 1) → skipTrailers (u ++ 10 :: rest) = rest) ∧
    (¬ SplitsBlank (u.length + 1) → skipTrailers (u ++ 10 :: rest) = skipTrailers rest) := by
  induction hn : u.length using Nat.strong_induction_on generalizing u with
  | h n ih =>
      subst hn
      rw [skipTrailers, readUntil_line hline]
      by_cases hlt : u.length < maxHeadBytes
      · rw [if_pos hlt]
        constructor
        · intro h
          rw [if_pos ((endsTrailers_iff hend hlt).mpr h)]
        · intro h
          rw [if_neg (mt (endsTrailers_iff hend hlt).mp h)]
      · rw [if_neg hlt]
        -- the first piece has no line feed, and the rest of the line is a line again
        have hpiece : ¬ endsTrailers (u.take maxHeadBytes) = true := by
          have hlength : (u.take maxHeadBytes).length = maxHeadBytes :=
            List.length_take_of_le (by omega)
          unfold endsTrailers
          simp only [Bool.or_eq_true, beq_iff_eq]
          rintro ((h | h) | h) <;> rw [h] at hlength <;> exact absurd hlength (by decide)
        have hdrop : (u.drop maxHeadBytes).length = u.length - maxHeadBytes := List.length_drop
        have hend' : EndsInReturn (u.drop maxHeadBytes) := by
          rcases hend with rfl | ⟨w, rfl⟩
          · exact .inl List.drop_nil
          · by_cases hw : maxHeadBytes ≤ w.length
            · exact .inr ⟨_, List.drop_append_of_le_length hw⟩
            · refine .inl (List.drop_eq_nil_of_le ?_)
              rw [List.length_append, List.length_singleton]
              omega
        have hsplits : SplitsBlank (u.length - maxHeadBytes + 1) ↔ SplitsBlank (u.length + 1) := by
          unfold SplitsBlank maxHeadBytes at *
          omega
        have hrest := ih (u.length - maxHeadBytes) (by unfold maxHeadBytes at *; omega)
          (fun h => hline (List.mem_of_mem_drop h)) hend' hdrop
        rw [if_neg hpiece, ← hsplits]
        exact hrest

/-- Lines in front of the empty line are skipped exactly if and only if none ends too early. -/
lemma skipTrailers_lines {lines : List Bytes}
    (hlines : ∀ u ∈ lines, (10 : UInt8) ∉ u ∧ EndsInReturn u) (rest : Bytes) :
    skipTrailers (lines.flatMap (· ++ [10]) ++ (crlf ++ rest)) = rest
      ↔ ∀ u ∈ lines, ¬ SplitsBlank (u.length + 1) := by
  induction lines with
  | nil =>
      refine iff_of_true ?_ fun u hu => absurd hu List.not_mem_nil
      exact (skipTrailers_line (u := [13]) (by decide) (.inr ⟨[], rfl⟩) rest).1 (.inr rfl)
  | cons u lines ih =>
      obtain ⟨⟨hline, hend⟩, htail⟩ := List.forall_mem_cons.mp hlines
      rw [List.flatMap_cons, List.append_assoc, List.append_assoc, List.singleton_append,
        List.forall_mem_cons]
      have hskip := skipTrailers_line hline hend (lines.flatMap (· ++ [10]) ++ (crlf ++ rest))
      by_cases hsplits : SplitsBlank (u.length + 1)
      · refine iff_of_false ?_ fun h => h.1 hsplits
        rw [hskip.1 hsplits]
        intro h
        have hlength := congrArg List.length h
        rw [List.length_append, List.length_append, crlf] at hlength
        simp only [List.length_cons, List.length_nil] at hlength
        omega
      · rw [hskip.2 hsplits, ih htail, and_iff_right hsplits]

/-! ### One chunk -/

/-- What the loop does with a line, and with the stream behind it. -/
lemma readChunks_eq_ok {body stream line tail : Bytes} {r : Bytes × Bytes}
    (hread : readUntil maxSizeBytes stream = (line, tail)) :
    readChunks body stream = .ok r ↔ line ≠ [] ∧ ∃ size, parseChunkSize line = .ok size ∧
      ((size = 0 ∧ r = (body, skipTrailers tail)) ∨
        (size ≠ 0 ∧ body.length + size ≤ maxBodyBytes ∧ size ≤ tail.length ∧
          ∃ delim rest, readUntil 4 (tail.drop size) = (delim, rest) ∧ (delim = crlf ∨ delim = [10])
            ∧ readChunks (body ++ tail.take size) rest = .ok r)) := by
  rw [readChunks, hread]
  dsimp only
  by_cases hline : line = []
  · rw [dif_pos hline]
    exact iff_of_false (fun h => by cases h) fun h => h.1 hline
  rw [dif_neg hline, and_iff_right hline]
  cases parseChunkSize line with
  | error e =>
      refine iff_of_false (fun h => by cases h) ?_
      rintro ⟨size, h, -⟩
      cases h
  | ok size =>
      dsimp only
      have hsize : ∀ P : ℕ → Prop,
          (∃ n, (Except.ok size : Except AppError ℕ) = .ok n ∧ P n) ↔ P size := by
        intro P
        constructor
        · rintro ⟨n, hn, h⟩
          rwa [Except.ok.inj hn]
        · exact fun h => ⟨size, rfl, h⟩
      rw [hsize]
      by_cases hzero : size = 0
      · rw [if_pos hzero]
        constructor
        · intro h
          exact .inl ⟨hzero, (Except.ok.inj h).symm⟩
        · rintro (⟨-, rfl⟩ | ⟨h, -⟩)
          · rfl
          · exact absurd hzero h
      rw [if_neg hzero]
      by_cases hlarge : maxBodyBytes - body.length < size
      · rw [if_pos hlarge]
        refine iff_of_false (fun h => by cases h) ?_
        rintro (⟨h, -⟩ | ⟨-, h, -⟩)
        · exact hzero h
        · omega
      rw [if_neg hlarge]
      by_cases hshort : tail.length < size
      · rw [if_pos hshort]
        refine iff_of_false (fun h => by cases h) ?_
        rintro (⟨h, -⟩ | ⟨-, -, h, -⟩)
        · exact hzero h
        · omega
      rw [if_neg hshort]
      obtain ⟨delim, rest⟩ := readUntil 4 (tail.drop size)
      dsimp only
      by_cases hdelim : delim ≠ [13, 10] ∧ delim ≠ [10]
      · rw [if_pos hdelim]
        refine iff_of_false (fun h => by cases h) ?_
        rintro (⟨h, -⟩ | ⟨-, -, -, _, _, heq, h, -⟩)
        · exact hzero h
        · rw [Prod.mk.injEq] at heq
          rcases h with h | h
          · exact hdelim.1 (heq.1.trans h)
          · exact hdelim.2 (heq.1.trans h)
      rw [if_neg hdelim]
      constructor
      · intro h
        refine .inr ⟨hzero, by omega, by omega, delim, rest, rfl, ?_, h⟩
        by_cases hcrlf : delim = [13, 10]
        · exact .inl hcrlf
        · exact .inr (of_not_not fun hlf => hdelim ⟨hcrlf, hlf⟩)
      · rintro (⟨h, -⟩ | ⟨-, -, -, _, _, heq, -, h⟩)
        · exact absurd h hzero
        · rw [Prod.mk.injEq] at heq
          rw [heq.2]
          exact h

/-- The body only grows. -/
lemma readChunks_body {body stream : Bytes} {r : Bytes × Bytes}
    (h : readChunks body stream = .ok r) : body <+: r.1 := by
  induction hn : stream.length using Nat.strong_induction_on generalizing body stream with
  | h n ih =>
      subst hn
      obtain ⟨⟨line, tail⟩, hread⟩ : ∃ read, readUntil maxSizeBytes stream = read := ⟨_, rfl⟩
      obtain ⟨hne, size, -, ⟨-, rfl⟩ | ⟨-, -, -, delim, rest, hdelim, -, h⟩⟩ :=
        (readChunks_eq_ok hread).mp h
      · exact List.prefix_rfl
      · have hlength := readUntil_length maxSizeBytes stream
        have hrest := readUntil_length 4 (tail.drop size)
        rw [hread] at hlength
        rw [hdelim, List.length_drop] at hrest
        have hpos := List.length_pos_of_ne_nil hne
        dsimp only at hlength hrest
        exact (List.prefix_append _ _).trans (ih rest.length (by omega) h rfl)

variable {line}

lemma not_mem_text : (10 : UInt8) ∉ line.text := by
  unfold SizeLine.text
  rw [List.mem_append, List.mem_append, List.mem_singleton]
  rintro ((h | h) | h)
  · have hmem : '\n' ∈ line.digits := (Utf8.mem_encode_ascii (by decide)).mp h
    have hblank := (isDigitOf_cases (List.all_eq_true.mp line.hdigits.2 _ hmem)).2.1
    exact absurd hblank (by decide)
  · cases hext : line.extension with
    | none =>
        rw [SizeLine.suffix, hext] at h
        cases h
    | some e =>
        rw [SizeLine.suffix, hext] at h
        rcases List.mem_cons.mp h with h | h
        · exact absurd h (by decide)
        · exact line.hextension e hext h
  · exact absurd h (by decide)

/-- A size line is read to its end or cut. -/
lemma readUntil_bytes (rest : Bytes) : readUntil maxSizeBytes (line.bytes ++ rest)
    = (line.bytes.take maxSizeBytes, line.bytes.drop maxSizeBytes ++ rest) := by
  have hbytes : line.bytes ++ rest = line.text ++ 10 :: rest := List.append_assoc _ _ _
  rw [hbytes, readUntil_line not_mem_text, SizeLine.bytes]
  have hlength : (line.text ++ [10]).length = line.text.length + 1 := by
    rw [List.length_append, List.length_singleton]
  by_cases hlt : line.text.length < maxSizeBytes
  · rw [if_pos hlt, List.take_of_length_le (by omega), List.drop_eq_nil_of_le (by omega),
      List.nil_append]
  · rw [if_neg hlt, List.take_append_of_le_length (by omega),
      List.drop_append_of_le_length (by omega), List.append_assoc, List.singleton_append]

/-- What is left of a size line that is cut, without its line feed. -/
def SizeLine.leftover (line : SizeLine) : List Bytes :=
  if line.text.length < maxSizeBytes then [] else [line.text.drop maxSizeBytes]

lemma drop_bytes : line.bytes.drop maxSizeBytes = line.leftover.flatMap (· ++ [10]) := by
  unfold SizeLine.bytes SizeLine.leftover
  by_cases hlt : line.text.length < maxSizeBytes
  · rw [if_pos hlt, List.flatMap_nil]
    refine List.drop_eq_nil_of_le ?_
    rw [List.length_append, List.length_singleton]
    omega
  · rw [if_neg hlt, List.flatMap_cons, List.flatMap_nil, List.append_nil,
      List.drop_append_of_le_length (by omega)]

/-! ### Encodings that are read exactly -/

/-- A line in front of a chunk that is read whole. -/
def SizeLine.Whole (line : SizeLine) : Prop :=
  line.bytes.length ≤ maxSizeBytes ∧ (fromUtf8 line.bytes).isSome = true

/-- What stands behind the chunks is read to its end. -/
structure TailFits (last : SizeLine) (trailers : List Trailer) : Prop where
  htext : (fromUtf8 (last.bytes.take maxSizeBytes)).isSome = true
  hleftover : ¬ SplitsBlank (last.bytes.length - maxSizeBytes)
  htrailers : ∀ t ∈ trailers, ¬ SplitsBlank (t.line.length + 1)

lemma take_bytes_of_whole (h : line.Whole) : line.bytes.take maxSizeBytes = line.bytes :=
  List.take_of_length_le h.1

lemma pos_maxSizeBytes : 0 < maxSizeBytes := by decide

lemma bytes_take_ne_nil {k : ℕ} (hk : 0 < k) : line.bytes.take k ≠ [] := by
  unfold SizeLine.bytes
  rw [ne_eq, List.take_eq_nil_iff, not_or]
  exact ⟨hk.ne', List.append_ne_nil_of_right_ne_nil _ (List.cons_ne_nil _ _)⟩

lemma leftover_lines : (∀ u ∈ line.leftover, (10 : UInt8) ∉ u ∧ EndsInReturn u) ∧
    ((∀ u ∈ line.leftover, ¬ SplitsBlank (u.length + 1))
      ↔ ¬ SplitsBlank (line.bytes.length - maxSizeBytes)) := by
  have hlength : line.bytes.length = line.text.length + 1 := by
    rw [SizeLine.bytes, List.length_append, List.length_singleton]
  unfold SizeLine.leftover
  by_cases hlt : line.text.length < maxSizeBytes
  · rw [if_pos hlt]
    refine ⟨fun u hu => absurd hu List.not_mem_nil,
      iff_of_true (fun u hu => absurd hu List.not_mem_nil) ?_⟩
    rw [Nat.sub_eq_zero_of_le (by omega)]
    unfold SplitsBlank
    decide
  · rw [if_neg hlt, List.forall_mem_singleton, List.forall_mem_singleton, List.length_drop, hlength,
      show line.text.length + 1 - maxSizeBytes = line.text.length - maxSizeBytes + 1 by omega]
    refine ⟨⟨fun h => not_mem_text (List.mem_of_mem_drop h), ?_⟩, Iff.rfl⟩
    unfold SizeLine.text at *
    by_cases hw : maxSizeBytes ≤ (utf8 line.digits ++ line.suffix).length
    · exact .inr ⟨_, List.drop_append_of_le_length hw⟩
    · refine .inl (List.drop_eq_nil_of_le ?_)
      rw [List.length_append, List.length_singleton]
      omega

lemma trailer_lines (t : Trailer) : (10 : UInt8) ∉ t.line ∧ EndsInReturn t.line := by
  refine ⟨fun h => ?_, .inr ⟨t.text, rfl⟩⟩
  rcases List.mem_append.mp h with h | h
  · exact t.hline h
  · exact absurd h (by decide)

variable {last : SizeLine} {trailers : List Trailer}

lemma valueOf_take_last (hlast : last.size = 0) (k : ℕ) : valueOf 16 (last.digits.take k) = 0 := by
  have hall := last.hdigits.2
  have hzero := (valueOf_eq_zero hall).mp hlast
  refine (valueOf_eq_zero ?_).mpr fun c hc => hzero c (List.mem_of_mem_take hc)
  exact List.all_eq_true.mpr fun c hc => List.all_eq_true.mp hall c (List.mem_of_mem_take hc)

/-- The loop stops at the first bytes of the last line. -/
lemma readChunks_last (hlast : last.size = 0) {body stream tail : Bytes} {k : ℕ} (hk : 0 < k)
    (hread : readUntil maxSizeBytes stream = (last.bytes.take k, tail)) {r : Bytes × Bytes} :
    readChunks body stream = .ok r
      ↔ (fromUtf8 (last.bytes.take k)).isSome = true ∧ r = (body, skipTrailers tail) := by
  rw [readChunks_eq_ok hread, and_iff_right (bytes_take_ne_nil hk)]
  constructor
  · rintro ⟨size, hsize, hcases⟩
    obtain ⟨hutf8, rfl, -⟩ := (parseChunkSize_take last hk).mp hsize
    rcases hcases with ⟨-, hr⟩ | ⟨hne, -⟩
    · exact ⟨hutf8, hr⟩
    · exact absurd (valueOf_take_last hlast k) hne
  · rintro ⟨hutf8, hr⟩
    have hzero : 0 = valueOf 16 (last.digits.take k) := (valueOf_take_last hlast k).symm
    exact ⟨0, (parseChunkSize_take last hk).mpr ⟨hutf8, hzero, by decide⟩, .inl ⟨rfl, hr⟩⟩

/-- Behind the chunks, the last line and the trailers are read exactly if and only if they fit. -/
lemma readChunks_tail_iff (hlast : last.size = 0) (body : Bytes) (rest : Bytes) :
    readChunks body (encode [] last trailers ++ rest) = .ok (body, rest)
      ↔ TailFits last trailers := by
  have hstream : encode [] last trailers ++ rest
      = last.bytes ++ ((tailLines trailers).flatMap (· ++ [10]) ++ (crlf ++ rest)) := by
    unfold encode tailLines
    rw [List.flatMap_nil, List.nil_append, List.append_assoc, List.append_assoc, List.flatMap_map]
  have hlines : ∀ u ∈ last.leftover ++ tailLines trailers, (10 : UInt8) ∉ u ∧ EndsInReturn u := by
    refine List.forall_mem_append.mpr ⟨leftover_lines.1, ?_⟩
    exact List.forall_mem_map.mpr fun t _ => trailer_lines t
  have hread : readUntil maxSizeBytes (encode [] last trailers ++ rest)
      = (last.bytes.take maxSizeBytes,
        (last.leftover ++ tailLines trailers).flatMap (· ++ [10]) ++ (crlf ++ rest)) := by
    rw [hstream, readUntil_bytes, drop_bytes, List.flatMap_append, List.append_assoc]
  rw [readChunks_last hlast pos_maxSizeBytes hread, Prod.mk.injEq, and_iff_right rfl,
    eq_comm (a := rest), skipTrailers_lines hlines, List.forall_mem_append, leftover_lines.2]
  unfold tailLines
  rw [List.forall_mem_map]
  constructor
  · rintro ⟨h1, h2, h3⟩
    exact ⟨h1, h2, h3⟩
  · rintro ⟨h1, h2, h3⟩
    exact ⟨h1, h2, h3⟩

variable {chunks : List Chunk}

lemma length_digits_le : line.digits.length ≤ line.bytes.length := by
  rw [bytes_eq, List.length_append]
  exact (length_utf8_of_ascii (ascii_digits line)).ge.trans (Nat.le_add_right _ _)

lemma parseChunkSize_bytes (hwhole : line.Whole) {n : ℕ} :
    parseChunkSize line.bytes = .ok n ↔ n = line.size ∧ n < 2 ^ 64 := by
  have hpos : 0 < line.bytes.length := by
    rw [SizeLine.bytes, List.length_append]
    exact Nat.succ_pos _
  have htake := parseChunkSize_take line hpos (n := n)
  rwa [List.take_length, List.take_of_length_le length_digits_le, and_iff_right hwhole.2] at htake

/-- A chunk whose line is read whole is read, and the loop goes on behind it. -/
lemma readChunks_chunk {c : Chunk} (hwhole : c.line.Whole) {body rest : Bytes}
    (hsize : body.length + c.line.size ≤ maxBodyBytes) {r : Bytes × Bytes} :
    readChunks body (c.bytes ++ rest) = .ok r ↔ readChunks (body ++ c.data) rest = .ok r := by
  have hread : readUntil maxSizeBytes (c.bytes ++ rest)
      = (c.line.bytes, c.data ++ (crlf ++ rest)) := by
    rw [Chunk.bytes, List.append_assoc, readUntil_bytes, take_bytes_of_whole hwhole,
      List.drop_eq_nil_of_le hwhole.1, List.nil_append, List.append_assoc]
  have hpos : 0 < c.line.size := c.hsize ▸ List.length_pos_of_ne_nil c.hne
  have hlt : c.line.size < 2 ^ 64 := by
    unfold maxBodyBytes at hsize
    omega
  have htake : (c.data ++ (crlf ++ rest)).take c.line.size = c.data := by
    rw [← c.hsize, List.take_left]
  have hdrop : readUntil 4 ((c.data ++ (crlf ++ rest)).drop c.line.size) = (crlf, rest) := by
    rw [← c.hsize, List.drop_left]
    exact readUntil_line (show (10 : UInt8) ∉ ([13] : Bytes) by decide) 4 rest
  have hne : c.line.bytes ≠ [] := by simp [SizeLine.bytes]
  rw [readChunks_eq_ok hread, and_iff_right hne]
  constructor
  · rintro ⟨size, hn, hcases⟩
    obtain ⟨rfl, -⟩ := (parseChunkSize_bytes hwhole).mp hn
    rcases hcases with ⟨hzero, -⟩ | ⟨-, -, -, delim, rest', hdelim, -, h⟩
    · exact absurd hzero hpos.ne'
    · rw [hdrop, Prod.mk.injEq] at hdelim
      rwa [htake, ← hdelim.2] at h
  · intro h
    refine ⟨c.line.size, (parseChunkSize_bytes hwhole).mpr ⟨rfl, hlt⟩,
      .inr ⟨hpos.ne', hsize, ?_, crlf, rest, hdrop, .inl rfl, ?_⟩⟩
    · rw [List.length_append, c.hsize]
      exact Nat.le_add_right _ _
    · rwa [htake]

lemma bodyOf_cons (c : Chunk) (chunks : List Chunk) :
    bodyOf (c :: chunks) = c.data ++ bodyOf chunks :=
  List.flatMap_cons

lemma encode_cons (c : Chunk) (chunks : List Chunk) :
    encode (c :: chunks) last trailers = c.bytes ++ encode chunks last trailers := by
  unfold encode
  rw [List.flatMap_cons, List.append_assoc]

/-- A line that is not read whole has a chunk whose data is not read. -/
lemma exists_misread {line : SizeLine} (hpos : 0 < line.size) (hwhole : ¬ line.Whole) :
    ∃ c : Chunk, c.line = line ∧ ∀ body rest more r,
      readChunks body (c.bytes ++ rest) = .ok r → r.1 ≠ body ++ (c.data ++ more) := by
  -- the data begins with another byte than what is left of the line
  let b := (line.bytes.drop maxSizeBytes).headD 0
  have hlength : (List.replicate line.size (b + 1)).length = line.size := List.length_replicate
  refine ⟨⟨line, _, hlength, List.ne_nil_of_length_pos (hpos.trans_eq hlength.symm)⟩, rfl, ?_⟩
  intro body rest more r hr heq
  unfold Chunk.bytes at hr
  rw [List.append_assoc] at hr
  obtain ⟨-, size, hparse, hcases⟩ := (readChunks_eq_ok (readUntil_bytes _)).mp hr
  have hutf8 := ((parseChunkSize_take line pos_maxSizeBytes).mp hparse).1
  have hlong : ¬ line.bytes.length ≤ maxSizeBytes :=
    fun h => hwhole ⟨h, by rwa [List.take_of_length_le h] at hutf8⟩
  obtain ⟨n, hn⟩ := Nat.exists_eq_add_of_lt hpos
  have hdata : List.replicate line.size (b + 1) = (b + 1) :: List.replicate n (b + 1) := by
    rw [hn, Nat.zero_add, List.replicate_succ]
  dsimp only at heq
  rw [hdata] at heq
  rcases hcases with ⟨-, rfl⟩ | ⟨hsize, -, -, delim, rest', -, -, h⟩
  · exact absurd (List.self_eq_append_right.mp heq) (List.cons_ne_nil _ _)
  · obtain ⟨more', hmore⟩ := readChunks_body h
    cases hdrop : line.bytes.drop maxSizeBytes with
    | nil => exact absurd (List.drop_eq_nil_iff.mp hdrop) hlong
    | cons b' left =>
        obtain ⟨m, rfl⟩ := Nat.exists_eq_succ_of_ne_zero hsize
        rw [hdrop, List.cons_append, List.take_succ_cons, heq, List.append_assoc] at hmore
        have hhead := (List.cons.inj (List.append_cancel_left hmore)).1
        have hb : b = b' := by
          dsimp only [b]
          rw [hdrop]
          rfl
        rw [hb] at hhead
        exact absurd hhead (by simp)

lemma exists_chunks {lines : List SizeLine} (hlines : ∀ line ∈ lines, 0 < line.size) :
    ∃ chunks : List Chunk, chunks.map Chunk.line = lines := by
  induction lines with
  | nil => exact ⟨[], rfl⟩
  | cons line lines ih =>
      obtain ⟨hpos, htail⟩ := List.forall_mem_cons.mp hlines
      obtain ⟨chunks, rfl⟩ := ih htail
      have hlength : (List.replicate line.size (0 : UInt8)).length = line.size :=
        List.length_replicate
      have hdata := List.ne_nil_of_length_pos (hpos.trans_eq hlength.symm)
      exact ⟨⟨line, _, hlength, hdata⟩ :: chunks, rfl⟩

/-- All bodies with the same framing are read exactly if and only if it fits. -/
lemma readChunks_iff (hlast : last.size = 0) {lines : List SizeLine}
    (hlines : ∀ line ∈ lines, 0 < line.size) {body : Bytes}
    (hsize : body.length + totalSize lines ≤ maxBodyBytes) :
    (∀ chunks : List Chunk, chunks.map Chunk.line = lines → ∀ rest,
        readChunks body (encode chunks last trailers ++ rest) = .ok (body ++ bodyOf chunks, rest))
      ↔ (∀ line ∈ lines, line.Whole) ∧ TailFits last trailers := by
  induction lines generalizing body with
  | nil =>
      have htail : ∀ rest, readChunks body (encode [] last trailers ++ rest) = .ok (body, rest)
          ↔ TailFits last trailers := readChunks_tail_iff hlast body
      constructor
      · intro h
        refine ⟨fun line hline => absurd hline List.not_mem_nil, (htail []).mp ?_⟩
        have hnil := h [] rfl []
        rwa [bodyOf, List.flatMap_nil, List.append_nil body] at hnil
      · rintro ⟨-, hfits⟩ chunks hchunks rest
        rw [List.map_eq_nil_iff] at hchunks
        rw [hchunks, bodyOf, List.flatMap_nil, List.append_nil]
        exact (htail rest).mpr hfits
  | cons line lines ih =>
      obtain ⟨hpos, htail⟩ := List.forall_mem_cons.mp hlines
      rw [totalSize] at hsize
      have hstep : ∀ c : Chunk, c.line = line → (body ++ c.data).length
          + totalSize lines ≤ maxBodyBytes := by
        rintro c rfl
        rw [List.length_append, c.hsize]
        omega
      have hwhole : ∀ c : Chunk, c.line = line → line.Whole → ∀ chunks rest,
          readChunks body (encode (c :: chunks) last trailers ++ rest)
              = .ok (body ++ bodyOf (c :: chunks), rest)
            ↔ readChunks (body ++ c.data) (encode chunks last trailers ++ rest)
              = .ok (body ++ c.data ++ bodyOf chunks, rest) := by
        rintro c rfl hline chunks rest
        rw [encode_cons, bodyOf_cons, ← List.append_assoc, List.append_assoc,
          readChunks_chunk hline (by omega)]
      rw [List.forall_mem_cons]
      constructor
      · intro h
        have hline : line.Whole := by
          by_contra hcut
          obtain ⟨c, rfl, hmisread⟩ := exists_misread hpos hcut
          obtain ⟨chunks, rfl⟩ := exists_chunks htail
          have hread := h (c :: chunks) rfl []
          rw [encode_cons, List.append_assoc] at hread
          refine hmisread body _ (bodyOf chunks) _ hread ?_
          rw [bodyOf_cons]
        obtain ⟨chunks, hchunks⟩ := exists_chunks hlines
        cases chunks with
        | nil => cases hchunks
        | cons c _ =>
            have hc := (List.cons.inj hchunks).1
            obtain ⟨hrest, hfits⟩ := (ih htail (hstep c hc)).mp fun chunks hchunks rest =>
              (hwhole c hc hline chunks rest).mp
                (h (c :: chunks) (by rw [List.map_cons, hc, hchunks]) rest)
            exact ⟨⟨hline, hrest⟩, hfits⟩
      · rintro ⟨⟨hline, hrest⟩, hfits⟩ chunks hchunks rest
        cases chunks with
        | nil => cases hchunks
        | cons c chunks =>
            rw [List.map_cons, List.cons.injEq] at hchunks
            rw [hwhole c hchunks.1 hline]
            exact (ih htail (hstep c hchunks.1)).mpr ⟨hrest, hfits⟩ chunks hchunks.2 rest

/-! ### Streams that end too early -/

/-- The cuts of an encoding after which the stream is taken for a whole one: among the zeros that a
size begins with, and anywhere behind the beginning of the last line. -/
def Unnoticed : List Chunk → SizeLine → ℕ → Prop
  | [], last, cut => 0 < cut ∧ (fromUtf8 (last.bytes.take (min cut maxSizeBytes))).isSome = true
  | c :: chunks, last, cut =>
      if c.bytes.length ≤ cut then Unnoticed chunks last (cut - c.bytes.length)
      else 0 < cut ∧ ∀ d ∈ c.line.digits.take cut, d = '0'

lemma length_bytes : line.bytes.length = line.text.length + 1 := by
  rw [SizeLine.bytes, List.length_append, List.length_singleton]

/-- A line that is cut is read up to the cut. -/
lemma readUntil_cut {cut : ℕ} (hcut : cut < line.bytes.length) :
    readUntil maxSizeBytes (line.bytes.take cut)
      = (line.bytes.take (min cut maxSizeBytes), (line.bytes.take cut).drop maxSizeBytes) := by
  rw [length_bytes] at hcut
  have htake : line.bytes.take cut = line.text.take cut :=
    List.take_append_of_le_length (by omega)
  rw [readUntil_of_not_mem, List.take_take, min_comm]
  rw [htake]
  exact fun h => not_mem_text (List.mem_of_mem_take h)

lemma readChunks_nil (body : Bytes) (r : Bytes × Bytes) : readChunks body [] ≠ .ok r :=
  fun h => ((readChunks_eq_ok (show readUntil maxSizeBytes [] = ([], []) from rfl)).mp h).1 rfl

lemma readChunks_cut_tail (hlast : last.size = 0) (body : Bytes) (cut : ℕ) :
    (∃ r, readChunks body ((encode [] last trailers).take cut) = .ok r)
      ↔ Unnoticed [] last cut := by
  unfold Unnoticed
  rcases Nat.eq_zero_or_pos cut with rfl | hpos
  · refine iff_of_false ?_ fun h => absurd h.1 (lt_irrefl 0)
    rintro ⟨r, h⟩
    exact readChunks_nil body r h
  have hmin : 0 < min cut maxSizeBytes := lt_min hpos pos_maxSizeBytes
  have hread : ∃ tail, readUntil maxSizeBytes ((encode [] last trailers).take cut)
      = (last.bytes.take (min cut maxSizeBytes), tail) := by
    unfold encode
    rw [List.flatMap_nil, List.nil_append, List.take_append]
    by_cases hcut : cut < last.bytes.length
    · rw [Nat.sub_eq_zero_of_le hcut.le, List.take_zero, List.append_nil]
      exact ⟨_, readUntil_cut hcut⟩
    · rw [List.take_of_length_le (by omega), readUntil_bytes]
      refine ⟨_, Prod.ext ?_ rfl⟩
      rw [← List.take_take, List.take_of_length_le (i := cut)]
      rw [List.length_take]
      omega
  obtain ⟨tail, hread⟩ := hread
  rw [and_iff_right hpos]
  constructor
  · rintro ⟨r, h⟩
    exact ((readChunks_last hlast hmin hread).mp h).1
  · intro h
    exact ⟨_, (readChunks_last hlast hmin hread).mpr ⟨h, rfl⟩⟩

lemma readChunks_cut_chunk {c : Chunk} (hwhole : c.line.Whole) (body : Bytes) {cut : ℕ}
    (hcut : cut < c.bytes.length) :
    (∃ r, readChunks body (c.bytes.take cut) = .ok r)
      ↔ 0 < cut ∧ ∀ d ∈ c.line.digits.take cut, d = '0' := by
  rcases Nat.eq_zero_or_pos cut with rfl | hpos
  · refine iff_of_false ?_ fun h => absurd h.1 (lt_irrefl 0)
    rintro ⟨r, h⟩
    exact readChunks_nil body r h
  have hsize : 0 < c.line.size := c.hsize ▸ List.length_pos_of_ne_nil c.hne
  have hall : (c.line.digits.take cut).all (isDigitOf 16) = true :=
    List.all_eq_true.mpr fun d hd =>
      List.all_eq_true.mp c.line.hdigits.2 d (List.mem_of_mem_take hd)
  rw [and_iff_right hpos, ← valueOf_eq_zero hall]
  by_cases hline : cut < c.line.bytes.length
  · -- the line is cut
    have hmin : min cut maxSizeBytes = cut := min_eq_left (hline.le.trans hwhole.1)
    have hread : readUntil maxSizeBytes (c.bytes.take cut) = (c.line.bytes.take cut, []) := by
      have hdrop : (c.line.bytes.take cut).drop maxSizeBytes = [] := by
        refine List.drop_eq_nil_of_le ?_
        rw [List.length_take]
        exact (min_le_left _ _).trans (hline.le.trans hwhole.1)
      rw [Chunk.bytes, List.take_append_of_le_length hline.le, readUntil_cut hline, hmin, hdrop]
    constructor
    · rintro ⟨r, h⟩
      obtain ⟨-, size, hparse, ⟨rfl, -⟩ | ⟨hne, -, hshort, -⟩⟩ := (readChunks_eq_ok hread).mp h
      · exact ((parseChunkSize_take c.line hpos).mp hparse).2.1.symm
      · exact absurd (Nat.le_zero.mp hshort) hne
    · intro hzero
      have hle : cut ≤ (Utf8.encode c.line.digits).length := by
        by_contra hgt
        have hlength : (Utf8.encode c.line.digits).length = c.line.digits.length :=
          length_utf8_of_ascii (ascii_digits c.line)
        rw [List.take_of_length_le (by omega)] at hzero
        exact hsize.ne' hzero
      have hutf8 : (fromUtf8 (c.line.bytes.take cut)).isSome = true := by
        rw [bytes_eq, List.take_append_of_le_length hle, Utf8.encode_take (ascii_digits c.line)]
        exact Option.isSome_iff_exists.mpr ⟨_, fromUtf8_utf8 _⟩
      exact ⟨_, (readChunks_eq_ok hread).mpr ⟨bytes_take_ne_nil hpos, 0,
        (parseChunkSize_take c.line hpos).mpr ⟨hutf8, hzero.symm, by decide⟩, .inl ⟨rfl, rfl⟩⟩⟩
  · -- the data or the delimiter is cut
    rw [List.take_of_length_le (length_digits_le.trans (by omega))]
    refine iff_of_false ?_ hsize.ne'
    rintro ⟨r, h⟩
    have hread : readUntil maxSizeBytes (c.bytes.take cut)
        = (c.line.bytes, (c.data ++ crlf).take (cut - c.line.bytes.length)) := by
      rw [Chunk.bytes, List.take_append, List.take_of_length_le (by omega), readUntil_bytes,
        take_bytes_of_whole hwhole, List.drop_eq_nil_of_le hwhole.1, List.nil_append]
    obtain ⟨-, size, hparse, ⟨rfl, -⟩ | ⟨-, -, hshort, delim, rest, hdelim, hcrlf, -⟩⟩ :=
      (readChunks_eq_ok hread).mp h
    · exact hsize.ne ((parseChunkSize_bytes hwhole).mp hparse).1
    · obtain ⟨rfl, -⟩ := (parseChunkSize_bytes hwhole).mp hparse
      rw [Chunk.bytes, List.length_append, List.length_append] at hcut
      rw [List.length_take] at hshort
      rw [← c.hsize] at hshort hdelim
      obtain ⟨j, hj⟩ : ∃ j, cut - c.line.bytes.length = c.data.length + j :=
        Nat.exists_eq_add_of_le (hshort.trans (min_le_left _ _))
      have hlt : j < 2 := by
        rw [crlf, List.length_cons, List.length_singleton] at hcut
        omega
      rw [hj, List.take_length_add_append, List.drop_left] at hdelim
      obtain rfl | rfl : j = 0 ∨ j = 1 := by omega
      · rw [(Prod.mk.inj hdelim).1.symm] at hcrlf
        exact absurd hcrlf (by decide)
      · rw [(Prod.mk.inj hdelim).1.symm] at hcrlf
        exact absurd hcrlf (by decide)

lemma readChunks_cut_iff (hlast : last.size = 0) {body : Bytes} {cut : ℕ}
    (hwhole : ∀ c ∈ chunks, c.line.Whole)
    (hsize : body.length + totalSize (chunks.map Chunk.line) ≤ maxBodyBytes) :
    (∃ r, readChunks body ((encode chunks last trailers).take cut) = .ok r)
      ↔ Unnoticed chunks last cut := by
  induction chunks generalizing body cut with
  | nil => exact readChunks_cut_tail hlast body cut
  | cons c chunks ih =>
      obtain ⟨hc, htail⟩ := List.forall_mem_cons.mp hwhole
      rw [List.map_cons, totalSize] at hsize
      have hgrown : (body ++ c.data).length + totalSize (chunks.map Chunk.line)
          ≤ maxBodyBytes := by
        rw [List.length_append, c.hsize]
        omega
      rw [encode_cons, Unnoticed, List.take_append]
      by_cases hcut : c.bytes.length ≤ cut
      · rw [if_pos hcut, List.take_of_length_le hcut, ← ih htail hgrown]
        exact exists_congr fun r => readChunks_chunk hc (by omega)
      · rw [if_neg hcut, Nat.sub_eq_zero_of_le (by omega), List.take_zero, List.append_nil]
        exact readChunks_cut_chunk hc body (by omega)

/-! ### Whole encodings -/

/-- Every size line in front of a chunk is at most 1024 bytes long and UTF-8, the first 1024 bytes
of the last line are UTF-8, and neither the rest of it nor a trailer leaves a last piece of one or
two bytes behind pieces of 8 KiB. -/
structure Framing.Fits (f : Framing) : Prop where
  hlines : ∀ line ∈ f.lines, line.Whole
  htail : TailFits f.last f.trailers

/-- All bodies with a framing are read exactly, whatever follows, if and only if the framing fits;
then an encoding that is cut is an error if and only if the cut is noticed. -/
theorem readChunkedBody_iff (f : Framing) :
    ((∀ chunks : List Chunk, chunks.map Chunk.line = f.lines → ∀ rest,
        readChunkedBody (encode chunks f.last f.trailers ++ rest) = .ok (bodyOf chunks, rest))
      ↔ f.Fits) ∧
    (f.Fits → ∀ chunks : List Chunk, chunks.map Chunk.line = f.lines →
      ∀ cut < (encode chunks f.last f.trailers).length,
        (∃ e, readChunkedBody ((encode chunks f.last f.trailers).take cut) = .error e)
          ↔ ¬ Unnoticed chunks f.last cut) := by
  have hsize : ([] : Bytes).length + totalSize f.lines ≤ maxBodyBytes := by
    rw [List.length_nil, Nat.zero_add]
    exact f.hsize
  constructor
  · have hexact : _ ↔ _ ∧ TailFits f.last f.trailers := readChunks_iff f.hlast f.hlines hsize
    constructor
    · intro h
      obtain ⟨hlines, htail⟩ := hexact.mp h
      exact ⟨hlines, htail⟩
    · rintro ⟨hlines, htail⟩
      exact hexact.mpr ⟨hlines, htail⟩
  · intro hfits chunks hchunks cut _
    have hwhole : ∀ c ∈ chunks, c.line.Whole :=
      fun c hc => hfits.hlines _ (hchunks ▸ List.mem_map_of_mem hc)
    rw [← hchunks] at hsize
    have hcut : (∃ r, readChunks [] ((encode chunks f.last f.trailers).take cut) = .ok r)
        ↔ Unnoticed chunks f.last cut := readChunks_cut_iff f.hlast hwhole hsize
    rw [← hcut]
    unfold readChunkedBody
    cases readChunks [] ((encode chunks f.last f.trailers).take cut) with
    | error e => exact iff_of_true ⟨e, rfl⟩ fun ⟨r, h⟩ => by cases h
    | ok r => exact iff_of_false (fun ⟨e, h⟩ => by cases h) fun h => h ⟨r, rfl⟩

/-- The chunk `5 hello`. -/
def hello : Chunk where
  line :=
    { digits := ['5']
      extension := none
      hdigits := by decide
      hextension := fun e he => absurd he (Option.not_mem_none e) }
  data := [104, 101, 108, 108, 111]
  hsize := by decide
  hne := List.cons_ne_nil _ _

/-- The line of the last chunk. -/
def zeroLine : SizeLine where
  digits := ['0']
  extension := none
  hdigits := by decide
  hextension := fun e he => absurd he (Option.not_mem_none e)

/-- A stream that ends in front of the blank line is taken for a whole one. -/
theorem blank_line_missing :
    ¬ ∀ (chunks : List Chunk) (last : SizeLine) (trailers : List Trailer), last.size = 0 →
      ∀ cut < (encode chunks last trailers).length,
        ∃ e, readChunkedBody ((encode chunks last trailers).take cut) = .error e := by
  intro h
  obtain ⟨e, he⟩ := h [hello] zeroLine [] (by decide) 13 (by decide)
  have hwhole : ∀ c ∈ [hello], c.line.Whole := by
    rw [List.forall_mem_singleton]
    exact ⟨by decide, Option.isSome_iff_exists.mpr ⟨_, fromUtf8_utf8 ['5', '\r', '\n']⟩⟩
  have hcut : Unnoticed [hello] zeroLine 13 :=
    ⟨by decide, Option.isSome_iff_exists.mpr ⟨_, fromUtf8_utf8 ['0', '\r', '\n']⟩⟩
  obtain ⟨r, hr⟩ : ∃ r, readChunks [] ((encode [hello] zeroLine []).take 13) = .ok r :=
    (readChunks_cut_iff (by decide) hwhole (by decide)).mpr hcut
  unfold readChunkedBody at he
  rw [he] at hr
  cases hr

end ShaPrint.Client
