import ShaPrint.Cli.Arguments

/-!
Whether an elevated mutation arrives as the command that the user confirmed.

* `token_eq_positional`: an argument is an option if and only if it begins with a hyphen.
* `scan_plain`, `plain_of_scan`: what the scanner makes of arguments that are no options, and
  that it takes no others for such.
* `readSecret_iff`: the secrets that a line carries.
* `Arrives`, `Deliverable`, `arrives_iff`: a mutation arrives if and only if none of its
  strings begins with a hyphen, the socket path is a text, and its secret fits on a line.
-/

namespace ShaPrint.Cli

/-- A string that is no option. -/
def Plain (s : String) : Prop := s.toList.head? ≠ some '-'

instance (s : String) : Decidable (Plain s) :=
  inferInstanceAs (Decidable (s.toList.head? ≠ some '-'))

lemma Plain.ne {s option : String} (h : Plain s) (hoption : option.toList.head? = some '-') :
    s ≠ option := by
  rintro rfl
  exact h hoption

lemma isSecretOption_of_plain {arg : String} (h : Plain arg) : isSecretOption arg = false := by
  have hhyphen : ∀ option ∈ secretOptions, option.toList.head? = some '-'
      ∧ (option ++ "=").toList.head? = some '-' := by decide
  refine List.any_eq_false.mpr fun option hoption => ?_
  obtain ⟨hself, hvalue⟩ := hhyphen option hoption
  rw [Bool.or_eq_true, not_or]
  constructor
  · rw [beq_iff_eq]
    exact (h.ne hself).symm
  · rw [List.isPrefixOf_iff_prefix]
    rintro ⟨rest, hrest⟩
    refine h ?_
    rw [← hrest, List.head?_append_of_ne_nil _ (by rintro hnil; rw [hnil] at hvalue; cases hvalue),
      hvalue]

/-- An argument is an option if and only if it begins with a hyphen. -/
lemma token_eq_positional {arg : String} : token arg = .positional ↔ Plain arg := by
  constructor
  · intro h hhyphen
    unfold token at h
    cases hdrop : arg.toList.dropPrefix? "--timeout=".toList with
    | some value =>
        rw [hdrop] at h
        split_ifs at h
    | none =>
        rw [hdrop] at h
        split_ifs at h
  · intro h
    have hconfirm : ¬(arg = "--confirm" ∨ arg = "--yes" ∨ arg = "-y") := by
      rintro (rfl | rfl | rfl) <;> exact h (by decide)
    have htimeout : arg.toList.dropPrefix? "--timeout=".toList = none := by
      rw [Split.dropPrefix?_eq_none]
      rintro ⟨rest, hrest⟩
      refine h ?_
      rw [← hrest, List.head?_append_of_ne_nil _ (by decide)]
      decide
    unfold token
    rw [if_neg hconfirm, if_neg (h.ne (by decide)), if_neg (h.ne (by decide)),
      if_neg (h.ne (by decide)), if_neg (h.ne (by decide)), htimeout]
    dsimp only
    rw [if_neg (h.ne (by decide)), if_neg (h.ne (by decide)), if_neg (h.ne (by decide)),
      isSecretOption_of_plain h, if_neg (by decide), if_neg h]

/-! ### The scanner -/

lemma scan_cons_plain {w : String} (h : Plain w) (rest : List String) (s : Scan) :
    scan (w :: rest) s = scan rest { s with positional := s.positional ++ [w] } := by
  rw [scan.eq_def]
  dsimp only
  rw [token_eq_positional.mpr h]

/-- Arguments that are no options are kept in their order. -/
lemma scan_plain {words : List String} (h : ∀ w ∈ words, Plain w) (rest : List String) (s : Scan) :
    scan (words ++ rest) s = scan rest { s with positional := s.positional ++ words } := by
  induction words generalizing s with
  | nil => simp
  | cons w words ih =>
      rw [List.cons_append, scan_cons_plain (h w List.mem_cons_self),
        ih fun v hv => h v (List.mem_cons_of_mem _ hv)]
      simp

/-- No option is taken for a positional argument. -/
lemma plain_of_scan {args : List String} {s s' : Scan} (h : scan args s = .ok s') :
    ∀ w ∈ s'.positional, w ∈ s.positional ∨ Plain w := by
  fun_induction scan args s with
  | case1 s =>
      obtain rfl := Except.ok.inj h
      exact fun w hw => .inl hw
  | case8 | case9 | case11 =>
      rename_i ih
      obtain ⟨value, -, h⟩ := except_bind_eq_ok.mp h
      exact ih value h
  | case2 | case3 | case4 | case6 | case13 | case15 =>
      rename_i ih
      exact ih h
  | case5 | case7 | case10 | case12 | case14 | case16 | case17 => cases h
  | case18 arg rest s hpositional ih =>
      intro w hw
      rcases ih h w hw with hw | hw
      · rcases List.mem_append.mp hw with hw | hw
        · exact .inl hw
        · obtain rfl := List.mem_singleton.mp hw
          exact .inr (token_eq_positional.mp hpositional)
      · exact .inr hw

lemma scan_socket (path : String) (s : Scan) :
    scan ["--socket", path] s = .ok { s with socketPath := path } := by
  have hsocket : token "--socket" = .socket := by decide
  rw [scan.eq_def]
  dsimp only
  rw [hsocket]
  rfl

/-- The scanner's result for the options that every mutation has. -/
lemma scan_options (path : String) (s : Scan) :
    scan ["--json", "--socket", path] s = .ok { s with json := true, socketPath := path } := by
  have hjson : token "--json" = .json := by decide
  rw [scan.eq_def]
  dsimp only
  rw [hjson]
  exact scan_socket path _

/-! ### Commands -/

/-- The strings of a command that come from positional arguments. -/
def CliCommand.strings : CliCommand → List String
  | .approveServer address _ | .forgetServer address => [address]
  | .installClientQueue address printer | .repairClientQueue address printer => [address, printer]
  | .setSharedPrinters printers => printers
  | _ => []

lemma strings_subset {s : Scan} {command : CliCommand} (h : commandOf s = .ok command) :
    command.strings ⊆ s.positional := by
  unfold commandOf at h
  split at h
  case h_18 hpositional =>
    split at h
    · cases h
      simp [CliCommand.strings, hpositional]
    · cases h
  case h_19 hpositional =>
    split at h
    · cases h
    · cases h
      simp [CliCommand.strings, hpositional]
  case h_32 hpositional =>
    split at h
    · cases h
    · cases h
      simp [CliCommand.strings, hpositional]
  case h_13 | h_34 | h_35 => cases h
  case h_4 | h_8 =>
    obtain ⟨id, -, rfl⟩ := except_map_eq_ok.mp h
    exact List.nil_subset _
  all_goals
    rename_i hpositional
    cases h
    simp [CliCommand.strings, hpositional]

/-! ### Secrets -/

lemma lineFeed_mem_asBytes {c : String} : 10 ∈ asBytes c ↔ '\n' ∈ c.toList := by
  rw [asBytes_eq_utf8]
  exact Utf8.mem_encode_ascii (c := '\n') (by decide)

/-- A line feed ends the line. -/
lemma eq_of_lineFeed {bytes before after : Bytes} (h : readLine bytes = before ++ 10 :: after) :
    after = [] := by
  have hnot : (10 : UInt8) ∉ bytes.takeWhile (· ≠ 10) := by
    intro hmem
    have := List.mem_takeWhile_imp hmem
    simp at this
  have hlast : ((bytes.dropWhile (· ≠ 10)).take 1).length ≤ 1 := by
    rw [List.length_take]
    exact min_le_left _ _
  rw [readLine] at h
  rcases List.append_eq_append_iff.mp h with ⟨extra, hbefore, htail⟩ | ⟨extra, hhead, htail⟩
  · rw [htail, List.length_append, List.length_cons] at hlast
    exact List.length_eq_zero_iff.mp (by omega)
  · cases extra with
    | nil =>
        rw [List.nil_append] at htail
        rw [← htail, List.length_cons] at hlast
        exact List.length_eq_zero_iff.mp (by omega)
    | cons b extra =>
        obtain ⟨rfl, -⟩ := List.cons.inj htail
        exact absurd (hhead ▸ by simp) hnot

/-- What a secret that is read says of the line. -/
lemma readSecret_eq_ok {input : Bytes} {c : String} (h : readSecretFromReader input = .ok c) :
    ∃ text : String, asBytes text = readLine (input.take (maxMessageBytes + 1))
      ∧ (asBytes text).length ≤ maxMessageBytes
      ∧ c.toList = text.toList.rdropWhile fun c => c == '\r' || c == '\n' := by
  unfold readSecretFromReader at h
  dsimp only at h
  split at h
  · cases h
  · rename_i text htext
    have hbytes := fromUtf8_eq_some.mp htext
    split_ifs at h with hlong hempty
    refine ⟨text, hbytes, ?_, ?_⟩
    · rw [hbytes]
      omega
    · rw [← Except.ok.inj h, String.toList_ofList]

/-- The secrets that a line carries. -/
lemma readSecret_iff {c : String} (hne : c ≠ "") :
    readSecretFromReader (asBytes c ++ asBytes "\n") = .ok c
      ↔ '\n' ∉ c.toList ∧ c.toList.getLast? ≠ some '\r'
        ∧ (asBytes c).length < maxMessageBytes := by
  have hfeed : asBytes "\n" = [10] := by decide
  have hnil : c.toList ≠ [] := fun h => hne (String.toList_inj.mp h)
  rw [hfeed]
  constructor
  · intro h
    obtain ⟨text, hbytes, hlong, hc⟩ := readSecret_eq_ok h
    have hlast : ¬(c.toList.getLast hnil == '\r' || c.toList.getLast hnil == '\n') := by
      have hnot := List.rdropWhile_last_not (fun c => c == '\r' || c == '\n') text.toList
        (hc ▸ hnil)
      simpa only [← hc] using hnot
    rw [Bool.or_eq_true, beq_iff_eq, beq_iff_eq, not_or] at hlast
    have hline : '\n' ∉ c.toList := by
      -- a line feed ends the line, and what is read does not end in one
      intro hmem
      obtain ⟨before, after, hsplit⟩ := List.append_of_mem hmem
      obtain ⟨trimmed, htrimmed⟩ :=
        List.rdropWhile_prefix (fun c => c == '\r' || c == '\n') text.toList
      rw [← hc, hsplit] at htrimmed
      have hfeeds : readLine ((asBytes c ++ [10]).take (maxMessageBytes + 1))
          = utf8 before ++ 10 :: utf8 (after ++ trimmed) := by
        rw [← hbytes, asBytes_eq_utf8, ← htrimmed, List.append_assoc, List.cons_append]
        exact Utf8.encode_append _ _
      have hafter : after ++ trimmed = [] := by
        rw [← fromUtf8Lossy_utf8 (after ++ trimmed), eq_of_lineFeed hfeeds]
        rfl
      refine hlast.2 ?_
      rw [List.getLast_congr hnil (by simp) hsplit, (List.append_eq_nil_iff.mp hafter).1,
        List.getLast_append_singleton]
    refine ⟨hline, ?_, ?_⟩
    · rw [List.getLast?_eq_some_getLast hnil]
      exact fun hcr => hlast.1 (Option.some.inj hcr)
    · by_contra hge
      have hno : (10 : UInt8) ∉ asBytes c := by rwa [lineFeed_mem_asBytes]
      rcases (not_lt.mp hge).eq_or_lt with heq | hlt
      · rw [List.take_of_length_le (by rw [List.length_append, ← heq]; rfl),
          readLine_append hno] at hbytes
        rw [hbytes, List.length_append, List.length_singleton] at hlong
        omega
      · rw [List.take_append_of_le_length hlt,
          readLine_of_not_mem fun hmem => hno (List.mem_of_mem_take hmem)] at hbytes
        rw [hbytes, List.length_take, min_eq_left hlt] at hlong
        omega
  · rintro ⟨hline, hcr, hlong⟩
    have hshort : (asBytes c ++ [10]).take (maxMessageBytes + 1) = asBytes c ++ [10] := by
      refine List.take_of_length_le ?_
      rw [List.length_append, List.length_singleton]
      omega
    have htext : fromUtf8 (asBytes c ++ [10]) = some (c ++ "\n") := by
      rw [fromUtf8_eq_some, asBytes_eq_utf8, asBytes_eq_utf8, String.toList_append]
      exact Utf8.encode_append _ _
    have htrim : (c ++ "\n").toList.rdropWhile (fun d => d == '\r' || d == '\n') = c.toList := by
      rw [String.toList_append, show "\n".toList = ['\n'] from rfl,
        List.rdropWhile_concat_pos _ _ _ (by decide), List.rdropWhile_eq_self_iff]
      intro hl
      rw [Bool.or_eq_true, beq_iff_eq, beq_iff_eq, not_or]
      constructor
      · intro h
        exact hcr (by rw [List.getLast?_eq_some_getLast hl, h])
      · intro h
        exact hline (h ▸ List.getLast_mem hl)
    unfold readSecretFromReader
    dsimp only
    rw [hshort, readLine_append (by rwa [lineFeed_mem_asBytes]), htext]
    dsimp only
    rw [if_neg (by rw [List.length_append, List.length_singleton]; omega), htrim,
      if_neg hnil, String.ofList_toList]

/-! ### Mutations -/

/-- The command that the user confirmed. -/
def ElevatedMutation.denotes : ElevatedMutation → Except AppError CliCommand
  | startService id => (ServiceId.parse id).map .startService
  | stopService id => (ServiceId.parse id).map .stopService
  | stopDaemon => .ok .shutdown
  | setNetworkChannel _ => .ok (.setNetworkChannel .stdin)
  | approveServer address fingerprint => .ok (.approveServer address fingerprint)
  | forgetServer address => .ok (.forgetServer address)
  | installClientQueue address printer => .ok (.installClientQueue address printer)
  | repairClientQueue address printer => .ok (.repairClientQueue address printer)
  | setSharedPrinters printers => .ok (.setSharedPrinters printers)

/-- The strings of a mutation that go on the command line and are no service. -/
def ElevatedMutation.strings : ElevatedMutation → List String
  | approveServer address fingerprint => [address, fingerprint]
  | forgetServer address => [address]
  | installClientQueue address printer | repairClientQueue address printer => [address, printer]
  | setSharedPrinters printers => printers
  | _ => []

/-- What every mutation meets: its service is known, and its channel is not empty. -/
structure ElevatedMutation.Accepted (m : ElevatedMutation) : Prop where
  known : ∃ command, m.denotes = .ok command
  channel : ∀ channel, m.secret = some channel → channel ≠ ""

/-- The mutation arrives: the arguments are parsed as its command, with its socket path, and
its secret is read from the input. -/
structure Arrives (m : ElevatedMutation) (socketPath : Bytes) : Prop where
  parsed : ∀ program, ∃ command, m.denotes = .ok command
    ∧ parseCliArgs (program :: m.arguments socketPath) = .ok ⟨socketPath, true, command⟩
  secret : ∀ channel, m.secret = some channel → readSecretFromReader m.input = .ok channel

/-- The condition on the strings of a mutation and on the path. -/
structure Deliverable (m : ElevatedMutation) (socketPath : Bytes) : Prop where
  plain : ∀ s ∈ m.strings, Plain s
  text : (fromUtf8 socketPath).isSome = true
  line : ∀ channel, m.secret = some channel → '\n' ∉ channel.toList
    ∧ channel.toList.getLast? ≠ some '\r' ∧ (asBytes channel).length < maxMessageBytes

lemma eq_asStr_of_parse {id : String} {service : ServiceId} (h : ServiceId.parse id = .ok service) :
    id = service.asStr := by
  unfold ServiceId.parse at h
  split at h
  · rename_i found hfind
    obtain rfl := Except.ok.inj h
    exact (beq_iff_eq.mp (List.find?_some (p := fun id' : ServiceId => id'.asStr == id) hfind)).symm
  · cases h

lemma parse_asStr (service : ServiceId) : ServiceId.parse service.asStr = .ok service := by
  cases service <;> decide

lemma service_of_known {id : String} {command : ServiceId → CliCommand}
    (h : ∃ c, (ServiceId.parse id).map command = .ok c) : ∃ service : ServiceId, id = service.asStr := by
  obtain ⟨c, hc⟩ := h
  obtain ⟨service, hparse, -⟩ := except_map_eq_ok.mp hc
  exact ⟨service, eq_asStr_of_parse hparse⟩

/-- The words of a command are its strings, services, and words that are no options. -/
lemma plain_command {m : ElevatedMutation} (hm : m.Accepted) (hplain : ∀ s ∈ m.strings, Plain s)
    (hsecret : m.secret = none) : ∀ w ∈ m.command, Plain w := by
  have hservice : ∀ service : ServiceId, Plain service.asStr := by
    intro service
    cases service <;> decide
  obtain ⟨hknown, -⟩ := hm
  cases m with
  | setNetworkChannel channel => cases hsecret
  | stopDaemon => exact List.forall_mem_singleton.mpr (by decide)
  | startService id =>
      obtain ⟨service, rfl⟩ := service_of_known hknown
      exact List.forall_mem_cons.mpr ⟨by decide, List.forall_mem_singleton.mpr (hservice service)⟩
  | stopService id =>
      obtain ⟨service, rfl⟩ := service_of_known hknown
      exact List.forall_mem_cons.mpr ⟨by decide, List.forall_mem_singleton.mpr (hservice service)⟩
  | approveServer | forgetServer | installClientQueue | repairClientQueue =>
      exact List.forall_mem_cons.mpr ⟨by decide, List.forall_mem_cons.mpr ⟨by decide, hplain⟩⟩
  | setSharedPrinters printers =>
      intro w hw
      rw [ElevatedMutation.command] at hw
      split_ifs at hw
      · exact List.forall_mem_cons.mpr ⟨by decide, List.forall_mem_singleton.mpr (by decide)⟩ w hw
      · exact List.forall_mem_cons.mpr ⟨by decide, List.forall_mem_cons.mpr ⟨by decide, hplain⟩⟩ w hw

lemma checkOptions_of_none {s : Scan} (hsources : s.secretSources = 0)
    (hfingerprint : s.fingerprint = none) (htimeout : s.timeout = none) :
    checkOptions s = .ok () := by
  simp [checkOptions, hsources, hfingerprint, htimeout]

/-- The words of a mutation are its command. -/
lemma commandOf_command {m : ElevatedMutation} (hm : m.Accepted) (hsecret : m.secret = none)
    {s : Scan} (hpositional : s.positional = m.command) (hfingerprint : s.fingerprint = none) :
    commandOf s = m.denotes := by
  obtain ⟨hknown, -⟩ := hm
  unfold commandOf
  rw [hpositional]
  cases m with
  | setNetworkChannel channel => cases hsecret
  | stopService id =>
      obtain ⟨service, rfl⟩ := service_of_known hknown
      cases service <;> rfl
  | approveServer address fingerprint =>
      simp only [ElevatedMutation.command, hfingerprint]
      rfl
  | setSharedPrinters printers =>
      by_cases hempty : printers = []
      · subst hempty
        rfl
      · rw [ElevatedMutation.command, if_neg hempty]
        exact if_neg hempty
  | _ => rfl

/-- The arguments that follow the words of a mutation, and what they leave. -/
lemma parse_arguments {m : ElevatedMutation} (hm : m.Accepted)
    (hplain : ∀ s ∈ m.strings, Plain s) (program : String) (socketPath : Bytes) :
    parseCliArgs (program :: m.arguments socketPath) = m.denotes.map fun command =>
      ⟨asBytes (.ofList (fromUtf8Lossy socketPath)), true, command⟩ := by
  by_cases hsecret : m.secret = none
  · have hscan : scan (m.arguments socketPath) {} = .ok
        { positional := m.command, json := true,
          socketPath := .ofList (fromUtf8Lossy socketPath) } := by
      rw [ElevatedMutation.arguments, scan_plain (plain_command hm hplain hsecret), scan_options]
      rfl
    rw [parseCliArgs, List.drop_succ_cons, List.drop_zero, hscan, except_ok_bind,
      checkOptions_of_none rfl rfl rfl, except_ok_bind, commandOf_command hm hsecret rfl rfl]
  · cases m with
    | setNetworkChannel channel =>
        have hwords : ∀ w ∈ ["network-channel", "set"], Plain w :=
          List.forall_mem_cons.mpr ⟨by decide, List.forall_mem_singleton.mpr (by decide)⟩
        have hstdin : token "--stdin" = .stdin := by decide
        have hscan : scan ((ElevatedMutation.setNetworkChannel channel).arguments socketPath) {} = .ok
            { positional := ["network-channel", "set"], stdin := true, json := true,
              socketPath := .ofList (fromUtf8Lossy socketPath) } := by
          rw [ElevatedMutation.arguments, ElevatedMutation.command,
            show ["network-channel", "set", "--stdin"]
              = ["network-channel", "set"] ++ ["--stdin"] from rfl,
            List.append_assoc, scan_plain hwords, List.singleton_append, scan.eq_def]
          dsimp only
          rw [hstdin]
          exact scan_options _ _
        rw [parseCliArgs, List.drop_succ_cons, List.drop_zero, hscan]
        rfl
    | _ => exact absurd rfl hsecret

lemma asBytes_lossy {path : Bytes} :
    asBytes (.ofList (fromUtf8Lossy path)) = path ↔ (fromUtf8 path).isSome = true := by
  rw [Option.isSome_iff_exists]
  constructor
  · intro h
    exact ⟨_, fromUtf8_eq_some.mpr h⟩
  · rintro ⟨s, hs⟩
    rw [← fromUtf8_eq_some.mp hs, asBytes_eq_utf8 s, fromUtf8Lossy_utf8, asBytes_eq_utf8,
      String.toList_ofList]

/-! ### What does not arrive -/

/-- An approval whose fingerprint is taken for an option has no fingerprint, or no output in
JSON. -/
lemma scan_approve {address fingerprint path : String} (hoption : ¬Plain fingerprint) {s : Scan}
    (h : scan [fingerprint, "--json", "--socket", path]
      { positional := ["trust", "approve", address] } = .ok s) :
    s.positional = ["trust", "approve", address] ∧ (s.fingerprint = none ∨ s.json = false) := by
  rw [scan.eq_def] at h
  dsimp only at h
  split at h
  case h_12 hpositional => exact absurd (token_eq_positional.mp hpositional) hoption
  case h_10 | h_11 => cases h
  case h_1 | h_2 | h_3 =>
    rw [scan_options] at h
    obtain rfl := Except.ok.inj h
    exact ⟨rfl, .inl rfl⟩
  case h_6 =>
    obtain ⟨timeout, -, h⟩ := except_bind_eq_ok.mp h
    rw [scan_options] at h
    obtain rfl := Except.ok.inj h
    exact ⟨rfl, .inl rfl⟩
  case h_4 =>
    rw [scan_socket] at h
    obtain rfl := Except.ok.inj h
    exact ⟨rfl, .inl rfl⟩
  case h_5 =>
    obtain ⟨timeout, -, h⟩ := except_bind_eq_ok.mp h
    rw [scan_socket] at h
    obtain rfl := Except.ok.inj h
    exact ⟨rfl, .inl rfl⟩
  case h_7 =>
    obtain ⟨fd, -, h⟩ := except_bind_eq_ok.mp h
    rw [scan_socket] at h
    obtain rfl := Except.ok.inj h
    exact ⟨rfl, .inl rfl⟩
  case h_8 =>
    rw [scan_socket] at h
    obtain rfl := Except.ok.inj h
    exact ⟨rfl, .inl rfl⟩
  case h_9 =>
    -- the option for the output is taken for the fingerprint
    rw [scan_socket] at h
    obtain rfl := Except.ok.inj h
    exact ⟨rfl, .inr rfl⟩

/-- The strings of what arrives are no options. -/
lemma plain_of_arrives {m : ElevatedMutation} {socketPath : Bytes} (h : Arrives m socketPath) :
    ∀ s ∈ m.strings, Plain s := by
  obtain ⟨command, hdenotes, hparsed⟩ := h.parsed ""
  obtain ⟨s, hscan, hrest⟩ := except_bind_eq_ok.mp hparsed
  obtain ⟨-, -, hrest⟩ := except_bind_eq_ok.mp hrest
  obtain ⟨command', hcommand, hoptions⟩ := except_map_eq_ok.mp hrest
  obtain ⟨-, hjson, rfl⟩ := CliOptions.mk.inj hoptions
  have hplain : ∀ w ∈ command'.strings, Plain w := by
    intro w hw
    rcases plain_of_scan hscan w (strings_subset hcommand hw) with hw | hw
    · cases hw
    · exact hw
  cases m with
  | approveServer address fingerprint =>
      obtain rfl := Except.ok.inj hdenotes
      have haddress : Plain address := hplain address (List.mem_singleton_self _)
      refine List.forall_mem_cons.mpr ⟨haddress, List.forall_mem_singleton.mpr ?_⟩
      by_contra hoption
      have hwords : ∀ w ∈ ["trust", "approve", address], Plain w :=
        List.forall_mem_cons.mpr ⟨by decide,
          List.forall_mem_cons.mpr ⟨by decide, List.forall_mem_singleton.mpr haddress⟩⟩
      have hrest := scan_plain hwords [fingerprint, "--json", "--socket",
        .ofList (fromUtf8Lossy socketPath)] {}
      obtain ⟨hpositional, hfingerprint | hnoJson⟩ := scan_approve hoption (hrest ▸ hscan)
      · unfold commandOf at hcommand
        rw [hpositional] at hcommand
        simp only [hfingerprint] at hcommand
        cases hcommand
      · rw [hnoJson] at hjson
        cases hjson
  | forgetServer | installClientQueue | repairClientQueue | setSharedPrinters =>
      obtain rfl := Except.ok.inj hdenotes
      exact hplain
  | startService | stopService | stopDaemon | setNetworkChannel =>
      exact fun s hs => by cases hs

/-- A mutation arrives as the command that the user confirmed if and only if none of its strings
begins with a hyphen, the path of the socket is a text, and its secret fits on a line. -/
theorem arrives_iff {m : ElevatedMutation} (hm : m.Accepted) (socketPath : Bytes) :
    Arrives m socketPath ↔ Deliverable m socketPath := by
  have hsecret : ∀ channel, m.secret = some channel →
      (readSecretFromReader m.input = .ok channel ↔ '\n' ∉ channel.toList
        ∧ channel.toList.getLast? ≠ some '\r' ∧ (asBytes channel).length < maxMessageBytes) := by
    intro channel hchannel
    rw [ElevatedMutation.input, hchannel]
    exact readSecret_iff (hm.channel channel hchannel)
  constructor
  · intro h
    obtain ⟨command, -, hparsed⟩ := h.parsed ""
    have hplain := plain_of_arrives h
    rw [parse_arguments hm hplain] at hparsed
    obtain ⟨_, -, hoptions⟩ := except_map_eq_ok.mp hparsed
    exact ⟨hplain, asBytes_lossy.mp (congrArg CliOptions.socketPath hoptions),
      fun channel hchannel => (hsecret channel hchannel).mp (h.secret channel hchannel)⟩
  · intro h
    refine ⟨fun program => ?_, fun channel hchannel =>
      (hsecret channel hchannel).mpr (h.line channel hchannel)⟩
    obtain ⟨command, hcommand⟩ := hm.known
    refine ⟨command, hcommand, ?_⟩
    rw [parse_arguments hm h.plain, hcommand, asBytes_lossy.mpr h.text]
    rfl

/-- Two printers arrive with the path of the socket. -/
theorem twoPrinters_arrive :
    Arrives (.setSharedPrinters ["Office", "Foyer"]) (asBytes defaultSocketPath) :=
  (arrives_iff ⟨⟨_, rfl⟩, fun _ h => by cases h⟩ _).mpr
    ⟨List.forall_mem_cons.mpr ⟨by decide, List.forall_mem_singleton.mpr (by decide)⟩,
      by rw [fromUtf8_asBytes]; rfl, fun _ h => by cases h⟩

/-- A printer whose name is an option is dropped from the printers to share. -/
theorem optionPrinter_dropped :
    ElevatedMutation.Accepted (.setSharedPrinters ["Office", "--json"])
      ∧ parseCliArgs ("shaprintctl" ::
          ElevatedMutation.arguments (.setSharedPrinters ["Office", "--json"])
            (asBytes defaultSocketPath))
        = .ok ⟨asBytes defaultSocketPath, true, .setSharedPrinters ["Office"]⟩
      ∧ ¬Arrives (.setSharedPrinters ["Office", "--json"]) (asBytes defaultSocketPath) := by
  have hparsed : parseCliArgs ("shaprintctl" ::
      ElevatedMutation.arguments (.setSharedPrinters ["Office", "--json"])
        (asBytes defaultSocketPath))
      = .ok ⟨asBytes defaultSocketPath, true, .setSharedPrinters ["Office"]⟩ := by
    decide +kernel
  refine ⟨⟨⟨_, rfl⟩, fun _ h => by cases h⟩, hparsed, fun h => ?_⟩
  have hplain := plain_of_arrives h "--json" (List.mem_cons_of_mem _ (List.mem_singleton_self _))
  exact hplain (by decide)

end ShaPrint.Cli
