import ShaPrint.Queue.Recognition

/-!
Which server an address names, and that its canonical form says exactly that.

* `Host`, `Denotes`: the server a text names, read off its form: a host name in any case, an
  IP address with or without brackets, and a port where one is given.
* `denotes_of_parseHostPort`, `parseHostPort_of_denotes`: an accepted text names the host and
  the port that are read, and no other.
* `printed_ofText`: a canonical host is what its own denotation prints.
* `canonical_form`: two accepted addresses name the same server exactly when their canonical
  forms agree, and these parse to themselves and can be installed.
-/

namespace ShaPrint.Queue

open Split Digits Net Client

/-- A host, by its IP address or by its name in lower case. -/
inductive Host where
  | ip (address : IpAddr)
  | name (text : Chars)
  deriving DecidableEq

namespace Host

/-- The host a text names without brackets and port. -/
def ofText (text : Chars) : Host :=
  match parseIp text with
  | some address => .ip address
  | none => .name (toAsciiLower text)

/-- The text of a host. -/
def printed : Host → Chars
  | .ip address => ipToChars address
  | .name text => text

end Host

/-- A text without a colon or an opening bracket. -/
def Plain (text : Chars) : Prop := ':' ∉ text ∧ '[' ∉ text

/-- The host and the port that a server address names. -/
inductive Denotes : Chars → Host → ℕ → Prop where
  | host {text : Chars} (hplain : Plain text) : Denotes text (.ofText text) defaultPort
  | hostPort {text digits : Chars} {port : ℕ} (hplain : Plain text)
      (hport : parsePort digits = some port) : Denotes (text ++ ':' :: digits) (.ofText text) port
  | ipv6 {text : Chars} {groups : List ℕ} (hbare : text.head? ≠ some '[')
      (hparse : parseIpv6 text = some groups) : Denotes text (.ip (.v6 groups)) defaultPort
  | bracketed {text : Chars} {groups : List ℕ} (hclosed : ']' ∉ text)
      (hparse : parseIpv6 text = some groups) :
      Denotes ('[' :: text ++ [']']) (.ip (.v6 groups)) defaultPort
  | bracketedPort {text digits : Chars} {groups : List ℕ} {port : ℕ} (hclosed : ']' ∉ text)
      (hparse : parseIpv6 text = some groups) (hport : parsePort digits = some port) :
      Denotes ('[' :: text ++ ']' :: ':' :: digits) (.ip (.v6 groups)) port

/-- Two texts name the same server. -/
def SameServer (input input' : Chars) : Prop :=
  ∃ host port, Denotes (trim input) host port ∧ Denotes (trim input') host port

/-! ### Hosts of canonical texts -/

/-- A number in a port has no colon. -/
lemma colon_not_mem_port {digits : Chars} {port : ℕ} (h : parsePort digits = some port) :
    ':' ∉ digits := by
  intro hmem
  rcases (parseUnsigned_eq_some h).2.2 ':' hmem with hdigit | hplus
  · exact absurd hdigit (by decide)
  · exact absurd hplus (by decide)

lemma ofText_of_parseIp {text : Chars} {ip : IpAddr} (h : parseIp text = some ip) :
    Host.ofText text = .ip ip := by
  rw [Host.ofText, h]

lemma ofText_of_none {text : Chars} (h : parseIp text = none) :
    Host.ofText text = .name (toAsciiLower text) := by
  rw [Host.ofText, h]

/-- The only text without a colon that is an IP address is a printed IPv4 address. -/
lemma parseIp_of_no_colon {text : Chars} {ip : IpAddr} (hcolon : ':' ∉ text)
    (h : parseIp text = some ip) : ∃ a b c d, ip = .v4 [a, b, c, d] ∧ a < 256 ∧ b < 256 ∧ c < 256
      ∧ d < 256 ∧ text = ipv4ToChars [a, b, c, d] := by
  rcases parseIp_eq_some h with ⟨a, b, c, d, rfl, ha, hb, hc, hd, -⟩ | ⟨groups, rfl, -, htwo⟩
  · refine ⟨a, b, c, d, rfl, ha, hb, hc, hd, ?_⟩
    unfold parseIp at h
    split at h
    · rename_i octets rest hread
      split at h
      · rename_i hrest
        obtain ⟨rfl⟩ := IpAddr.v4.inj (Option.some.inj h)
        rw [eq_of_readIpv4 hread, hrest, List.append_nil]
      · cases h
    · obtain ⟨groups, -, hgroups⟩ := Option.map_eq_some_iff.mp h
      cases hgroups
  · rw [List.count_eq_zero_of_not_mem hcolon] at htwo
    omega

lemma parseIp_ipv4ToChars {a b c d : ℕ} (ha : a < 256) (hb : b < 256) (hc : c < 256)
    (hd : d < 256) : parseIp (ipv4ToChars [a, b, c, d]) = some (.v4 [a, b, c, d]) := by
  have hread := readIpv4_ipv4ToChars ha hb hc hd [] (by simp)
  rw [List.append_nil] at hread
  rw [parseIp, hread]
  exact if_pos rfl

/-- A printed IPv6 address does not begin as an IPv4 address. -/
lemma readIpv4_ipv6ToChars {groups : List ℕ} (h : IsIpv6 groups) :
    readIpv4 (ipv6ToChars groups) = none := by
  cases shape_ipv6ToChars h with
  | full htext =>
      rw [htext]
      exact readIpv4_eq_none (dot_not_mem_fmtSubslice _)
  | compressed before after run hrun hgroups htext =>
      rw [htext]
      refine readIpv4_eq_none ?_
      simp [dot_not_mem_fmtSubslice]
  | mapped a b c d ha hb hc hd hgroups htext =>
      rw [htext]
      refine readIpv4_eq_none_of_head fun x hx => ?_
      obtain rfl : ':' = x := Option.some.inj hx
      rfl

lemma ofText_ipv6ToChars {groups : List ℕ} (h : IsIpv6 groups) :
    Host.ofText (ipv6ToChars groups) = .ip (.v6 groups) := by
  refine ofText_of_parseIp ?_
  rw [parseIp, readIpv4_ipv6ToChars h]
  exact congrArg (Option.map IpAddr.v6) (parseIpv6_ipv6ToChars h)

/-- A canonical host is what its denotation prints, so distinct hosts have distinct
denotations. -/
lemma printed_ofText {host : Chars} {port : ℕ} (h : Canonical host port) :
    (Host.ofText host).printed = host := by
  cases h with
  | host hhost hpos hport =>
      cases hip : parseIp host with
      | some ip =>
          obtain ⟨a, b, c, d, rfl, -, -, -, -, htext⟩ := parseIp_of_no_colon hhost.no_colon hip
          rw [ofText_of_parseIp hip]
          exact htext.symm
      | none =>
          rw [ofText_of_none hip]
          exact hhost.lower
  | ipv6 groups hgroups hpos hport =>
      rw [ofText_ipv6ToChars hgroups]
      rfl

/-- Lower case is of no consequence to what a host name names. -/
lemma ofText_toAsciiLower {text : Chars} (hchars : ∀ c ∈ text, isHostChar c = true) :
    Host.ofText (toAsciiLower text) = .ofText text := by
  have hcolon : ∀ {text : Chars}, (∀ c ∈ text, isHostChar c = true) → ':' ∉ text :=
    fun hchars hmem => absurd (hchars ':' hmem) (by decide)
  have hlower : ∀ c ∈ toAsciiLower text, isHostChar c = true := by
    intro c hc
    obtain ⟨d, hd, rfl⟩ := List.mem_map.mp hc
    exact (isHostChar_toLower (hchars d hd)).1
  have hoctets : ∀ {a b c d : ℕ}, ∀ x ∈ ipv4ToChars [a, b, c, d], x.toLower = x := by
    intro a b c d x hx
    have hall : ∀ y ∈ "0123456789.".toList, y.toLower = y :=
      List.all_iff_forall_prop.mp (by decide)
    exact hall x (mem_ipv4ToChars hx)
  cases hip : parseIp text with
  | some ip =>
      -- digits and dots are the same in lower case
      obtain ⟨a, b, c, d, -, -, -, -, -, htext⟩ := parseIp_of_no_colon (hcolon hchars) hip
      rw [htext, toAsciiLower, List.map_congr_left hoctets, List.map_id']
  | none =>
      cases hip' : parseIp (toAsciiLower text) with
      | some ip =>
          obtain ⟨a, b, c, d, -, -, -, -, -, htext⟩ := parseIp_of_no_colon (hcolon hlower) hip'
          have hsame : toAsciiLower text = text := by
            refine (List.map_congr_left fun x hx => ?_).trans (List.map_id' text)
            have hmem : x.toLower ∈ toAsciiLower text := List.mem_map_of_mem hx
            rw [htext] at hmem
            have hdigit := mem_ipv4ToChars hmem
            have hall : ∀ n < 128, (Char.ofNat n).toLower ∈ "0123456789.".toList →
                (Char.ofNat n).toLower = Char.ofNat n := by decide +kernel
            exact forall_ascii (P := fun c => c.toLower ∈ "0123456789.".toList → c.toLower = c)
              hall (isHostChar_lt (hchars x hx)) hdigit
          rw [hsame, hip] at hip'
          cases hip'
      | none =>
          rw [ofText_of_none hip, ofText_of_none hip', toAsciiLower, toAsciiLower, List.map_map]
          refine congrArg Host.name (List.map_congr_left fun c hc => ?_)
          exact (isHostChar_toLower (hchars c hc)).2.1

/-! ### What is accepted -/

lemma plain_of_isHostChar {text : Chars} (h : ∀ c ∈ text, isHostChar c = true) : Plain text :=
  ⟨fun hmem => absurd (h ':' hmem) (by decide), fun hmem => absurd (h '[' hmem) (by decide)⟩

lemma Plain.head {text : Chars} (h : Plain text) (rest : Chars) :
    (text ++ ':' :: rest).head? ≠ some '[' ∧ text.head? ≠ some '[' := by
  cases text with
  | nil => exact ⟨by simp, by simp⟩
  | cons c text =>
      have hc : c ≠ '[' := fun heq => h.2 (heq ▸ List.mem_cons_self)
      exact ⟨by simpa using hc, by simpa using hc⟩

/-- The two forms of a text with at most one colon. -/
lemma splitOn_colon {value : Chars} (h : ¬ 2 < (value.splitOn ':').length) :
    (':' ∉ value ∧ value.splitOn ':' = [value])
      ∨ ∃ name digits, ':' ∉ name ∧ value = name ++ ':' :: digits
        ∧ value.splitOn ':' = [name, digits] := by
  by_cases hcolon : ':' ∈ value
  · obtain ⟨name, digits, hvalue, hname⟩ := List.eq_append_cons_of_mem hcolon
    by_cases hmore : ':' ∈ digits
    · obtain ⟨middle, rest, rfl, hmiddle⟩ := List.eq_append_cons_of_mem hmore
      have hpos : 0 < (rest.splitOn ':').length := List.length_pos_iff.mpr splitOn_ne_nil
      rw [hvalue, splitOn_append_cons hname, splitOn_append_cons hmiddle] at h
      simp only [List.length_cons] at h
      omega
    · refine .inr ⟨name, digits, hname, hvalue, ?_⟩
      rw [hvalue, splitOn_append_cons hname, splitOn_of_not_mem hmore]
  · exact .inl ⟨hcolon, splitOn_of_not_mem hcolon⟩

/-- What is accepted as a host name, with or without a port. -/
lemma parseHostName_forms {value host : Chars} {port : ℕ}
    (h : parseHostName value = .ok (host, port)) :
    ∃ name, (∀ c ∈ name, isHostChar c = true) ∧ host = toAsciiLower name
      ∧ (value = name ∧ port = defaultPort
        ∨ ∃ digits, value = name ++ ':' :: digits ∧ parsePort digits = some port) := by
  unfold parseHostName at h
  dsimp only at h
  split at h
  · cases h
  rename_i hcolons
  split at h
  · cases h
  rename_i hcheck
  simp only [Bool.or_eq_true, not_or, Bool.not_eq_true', Bool.not_eq_false] at hcheck
  have hchars := List.all_eq_true.mp hcheck.2
  rcases splitOn_colon hcolons with ⟨-, hparts⟩ | ⟨name, digits, -, hvalue, hparts⟩
  · rw [hparts] at h hchars
    obtain ⟨rfl, rfl⟩ := Prod.mk.inj (Except.ok.inj h)
    exact ⟨value, hchars, rfl, .inl ⟨rfl, rfl⟩⟩
  · rw [hparts] at h hchars
    cases hport : parsePort digits with
    | none =>
        simp only [List.getElem?_cons_succ, List.getElem?_cons_zero, hport] at h
        cases h
    | some found =>
        simp only [List.getElem?_cons_succ, List.getElem?_cons_zero, hport] at h
        obtain ⟨rfl, rfl⟩ := Prod.mk.inj (Except.ok.inj h)
        exact ⟨name, hchars, rfl, .inr ⟨digits, hvalue, hport⟩⟩

/-- What is accepted in brackets, with or without a port. -/
lemma parseBracketed_forms {value host : Chars} {port : ℕ} (hhead : value.head? = some '[')
    (h : parseBracketed value = .ok (host, port)) :
    ∃ text groups, ']' ∉ text ∧ parseIpv6 text = some groups ∧ host = ipv6ToChars groups
      ∧ (value = '[' :: text ++ [']'] ∧ port = defaultPort
        ∨ ∃ digits, value = '[' :: text ++ ']' :: ':' :: digits
          ∧ parsePort digits = some port) := by
  unfold parseBracketed at h
  split at h
  · cases h
  rename_i before rest hsplit
  obtain ⟨hvalue, hclosed⟩ := splitOnce_singleton.mp hsplit
  -- the bracket is the first character of what stands before the closing one
  obtain ⟨text, rfl⟩ : ∃ text, before = '[' :: text := by
    cases before with
    | nil =>
        rw [hvalue] at hhead
        exact absurd (Option.some.inj hhead) (by decide)
    | cons c text =>
        rw [hvalue, List.cons_append, List.head?_cons] at hhead
        exact ⟨text, by rw [Option.some.inj hhead]⟩
  rw [List.mem_cons, not_or] at hclosed
  split at h
  · cases h
  rename_i groups hgroups
  refine ⟨text, groups, hclosed.2, hgroups, ?_⟩
  split at h
  · rename_i hrest
    obtain ⟨rfl, rfl⟩ := Prod.mk.inj (Except.ok.inj h)
    exact ⟨rfl, .inl ⟨by rw [hvalue, hrest], rfl⟩⟩
  split at h
  · cases h
  rename_i found hport
  obtain ⟨rfl, rfl⟩ := Prod.mk.inj (Except.ok.inj h)
  obtain ⟨digits, hdigits, hport⟩ := Option.bind_eq_some_iff.mp hport
  refine ⟨rfl, .inr ⟨digits, ?_, hport⟩⟩
  rw [hvalue, dropPrefix?_eq_some.mp hdigits]
  rfl

/-! ### What an accepted text names -/

/-- An accepted text names the host and the port that are read. -/
lemma denotes_of_parseHostPort {value host : Chars} {port : ℕ}
    (h : parseHostPort value = .ok (host, port)) : Denotes value (.ofText host) port := by
  unfold parseHostPort at h
  split at h
  · rename_i hhead
    obtain ⟨text, groups, hclosed, hgroups, rfl, hform⟩ := parseBracketed_forms hhead h
    rw [ofText_ipv6ToChars (parseIpv6_eq_some hgroups).1]
    rcases hform with ⟨rfl, rfl⟩ | ⟨digits, rfl, hport⟩
    · exact .bracketed hclosed hgroups
    · exact .bracketedPort hclosed hgroups hport
  rename_i hhead
  split at h
  · rename_i ip hip
    obtain ⟨rfl, rfl⟩ := Prod.mk.inj (Except.ok.inj h)
    rcases parseIp_eq_some hip with ⟨_, _, _, _, -, -, -, -, -, hzero⟩ | ⟨groups, rfl, hipv6, -⟩
    · obtain ⟨a, b, c, d, rfl, ha, hb, hc, hd, rfl⟩ :=
        parseIp_of_no_colon (List.count_eq_zero.mp hzero) hip
      refine .host (plain_of_isHostChar (isHost_ipv4ToChars ha hb hc hd).chars)
    · rw [show ipToChars (.v6 groups) = ipv6ToChars groups from rfl, ofText_ipv6ToChars hipv6]
      refine .ipv6 hhead ?_
      unfold parseIp at hip
      split at hip
      · split at hip
        · cases hip
        · cases hip
      · obtain ⟨found, hfound, heq⟩ := Option.map_eq_some_iff.mp hip
        rw [hfound, IpAddr.v6.inj heq]
  · obtain ⟨name, hchars, rfl, hform⟩ := parseHostName_forms h
    rw [ofText_toAsciiLower hchars]
    rcases hform with ⟨rfl, rfl⟩ | ⟨digits, rfl, hport⟩
    · exact .host (plain_of_isHostChar hchars)
    · exact .hostPort (plain_of_isHostChar hchars) hport

/-- An accepted text in brackets is read by the text between them. -/
lemma parseHostPort_bracketed {text rest host : Chars} {groups : List ℕ} {port : ℕ}
    (hclosed : ']' ∉ text) (hgroups : parseIpv6 text = some groups)
    (h : parseHostPort ('[' :: text ++ ']' :: rest) = .ok (host, port)) :
    host = ipv6ToChars groups ∧ (rest = [] ∧ port = defaultPort
      ∨ ∃ digits, rest = ':' :: digits ∧ parsePort digits = some port) := by
  have hsame : ∀ {text' rest' : Chars}, ']' ∉ text' →
      '[' :: text ++ ']' :: rest = '[' :: text' ++ ']' :: rest' → text = text' ∧ rest = rest' := by
    intro text' rest' hclosed' heq
    have hleft : splitOnce ('[' :: text ++ ']' :: rest) [']'] = some ('[' :: text, rest) :=
      splitOnce_singleton.mpr ⟨rfl, by simp [hclosed]⟩
    have hright : splitOnce ('[' :: text ++ ']' :: rest) [']'] = some ('[' :: text', rest') :=
      splitOnce_singleton.mpr ⟨heq, by simp [hclosed']⟩
    obtain ⟨htext, hrest⟩ := Prod.mk.inj (Option.some.inj (hleft.symm.trans hright))
    exact ⟨(List.cons.inj htext).2, hrest⟩
  rw [parseHostPort, if_pos (by simp)] at h
  obtain ⟨text', groups', hclosed', hgroups', rfl, hform⟩ := parseBracketed_forms rfl h
  rcases hform with ⟨heq, rfl⟩ | ⟨digits, heq, hport⟩
  · obtain ⟨rfl, rfl⟩ := hsame hclosed' heq
    rw [hgroups] at hgroups'
    exact ⟨by rw [Option.some.inj hgroups'], .inl ⟨rfl, rfl⟩⟩
  · obtain ⟨rfl, rfl⟩ := hsame hclosed' heq
    rw [hgroups] at hgroups'
    exact ⟨by rw [Option.some.inj hgroups'], .inr ⟨digits, rfl, hport⟩⟩

/-- An accepted text names nothing but the host and the port that are read. -/
lemma parseHostPort_of_denotes {value text : Chars} {host : Host} {port n : ℕ}
    (hdenotes : Denotes value host n) (h : parseHostPort value = .ok (text, port)) :
    host = .ofText text ∧ n = port := by
  cases hdenotes with
  | host hplain =>
      unfold parseHostPort at h
      rw [if_neg (hplain.head []).2] at h
      split at h
      · rename_i ip hip
        obtain ⟨rfl, rfl⟩ := Prod.mk.inj (Except.ok.inj h)
        obtain ⟨a, b, c, d, rfl, ha, hb, hc, hd, rfl⟩ := parseIp_of_no_colon hplain.1 hip
        exact ⟨rfl, rfl⟩
      · obtain ⟨name, hchars, rfl, hform⟩ := parseHostName_forms h
        rcases hform with ⟨rfl, rfl⟩ | ⟨digits, rfl, hport⟩
        · exact ⟨(ofText_toAsciiLower hchars).symm, rfl⟩
        · exact absurd (by simp) hplain.1
  | @hostPort name digits _ hplain hport =>
      have hcount : (name ++ ':' :: digits).count ':' = 1 := by
        rw [List.count_append, List.count_cons_self, List.count_eq_zero_of_not_mem hplain.1,
          List.count_eq_zero_of_not_mem (colon_not_mem_port hport)]
      unfold parseHostPort at h
      rw [if_neg (hplain.head _).1] at h
      split at h
      · rename_i ip hip
        rcases parseIp_eq_some hip with ⟨_, _, _, _, -, -, -, -, -, hnone⟩ | ⟨_, -, -, htwo⟩
        · omega
        · omega
      · obtain ⟨name', hchars, rfl, hform⟩ := parseHostName_forms h
        rcases hform with ⟨rfl, -⟩ | ⟨digits', heq, hport'⟩
        · exact absurd (hchars ':' (by simp)) (by decide)
        · obtain ⟨rfl, rfl⟩ :=
            append_cons_inj heq (colon_not_mem_port hport) (colon_not_mem_port hport')
          rw [hport] at hport'
          exact ⟨(ofText_toAsciiLower hchars).symm, Option.some.inj hport'⟩
  | @ipv6 _ groups hbare hparse =>
      have htwo := (parseIpv6_eq_some hparse).2
      unfold parseHostPort at h
      rw [if_neg hbare] at h
      split at h
      · rename_i ip hip
        obtain ⟨rfl, rfl⟩ := Prod.mk.inj (Except.ok.inj h)
        refine ⟨?_, rfl⟩
        unfold parseIp at hip
        split at hip
        · rename_i octets rest hread
          split at hip
          · rename_i hrest
            have hcount := (readOctets_length hread).2.2
            rw [hrest] at hcount
            simp only [List.count_nil] at hcount
            omega
          · cases hip
        · rw [hparse] at hip
          obtain rfl := Option.some.inj hip
          exact (ofText_ipv6ToChars (parseIpv6_eq_some hparse).1).symm
      · obtain ⟨name, hchars, rfl, hform⟩ := parseHostName_forms h
        have hname := List.count_eq_zero_of_not_mem (plain_of_isHostChar hchars).1
        rcases hform with ⟨rfl, -⟩ | ⟨digits, rfl, hport⟩
        · omega
        · rw [List.count_append, List.count_cons_self, hname,
            List.count_eq_zero_of_not_mem (colon_not_mem_port hport)] at htwo
          omega
  | bracketed hclosed hparse =>
      obtain ⟨rfl, ⟨-, rfl⟩ | ⟨digits, hrest, -⟩⟩ := parseHostPort_bracketed hclosed hparse h
      · exact ⟨(ofText_ipv6ToChars (parseIpv6_eq_some hparse).1).symm, rfl⟩
      · cases hrest
  | bracketedPort hclosed hparse hport =>
      obtain ⟨rfl, ⟨hrest, -⟩ | ⟨digits, hrest, hport'⟩⟩ :=
        parseHostPort_bracketed hclosed hparse h
      · cases hrest
      · obtain rfl := (List.cons.inj hrest).2
        rw [hport] at hport'
        exact ⟨(ofText_ipv6ToChars (parseIpv6_eq_some hparse).1).symm, Option.some.inj hport'⟩

/-! ### One canonical form -/

/-- An input with the address it is accepted as. -/
structure AcceptedAddress where
  input : Chars
  address : ServerAddress
  accepted : ServerAddress.parse input = .ok address

namespace AcceptedAddress

variable (a b : AcceptedAddress)

lemma canonical : Canonical a.address.host a.address.port := (canonical_of_parse a.accepted).1

lemma normalized_eq : a.address.normalized = withPort a.address.host a.address.port :=
  (canonical_of_parse a.accepted).2

/-- The canonical form parses to the address itself. -/
lemma parse_normalized : ServerAddress.parse a.address.normalized = .ok a.address := by
  rw [a.normalized_eq, parse_withPort a.canonical, ← a.normalized_eq]

lemma denotes_iff {host : Host} {port : ℕ} :
    Denotes (trim a.input) host port ↔ host = .ofText a.address.host ∧ port = a.address.port := by
  have hparse := parseHostPort_of_parse a.accepted
  constructor
  · exact fun hdenotes => parseHostPort_of_denotes hdenotes hparse
  · rintro ⟨rfl, rfl⟩
    exact denotes_of_parseHostPort hparse

/-- An accepted address can be parsed again and installed, and two name the same server exactly
when their canonical forms agree. -/
theorem canonical_form :
    ServerAddress.parse a.address.normalized = .ok a.address
      ∧ validateAddress a.address.normalized = .ok ()
      ∧ (SameServer a.input b.input ↔ a.address.normalized = b.address.normalized) := by
  refine ⟨a.parse_normalized, ?_, ?_, ?_⟩
  · rw [a.normalized_eq]
    exact validateAddress_withPort a.canonical
  · rintro ⟨host, port, ha, hb⟩
    obtain ⟨rfl, rfl⟩ := a.denotes_iff.mp ha
    obtain ⟨hhost, hport⟩ := b.denotes_iff.mp hb
    have hsame : a.address.host = b.address.host := by
      rw [← printed_ofText a.canonical, hhost, printed_ofText b.canonical]
    rw [a.normalized_eq, b.normalized_eq, hsame, hport]
  · intro h
    have hsame : a.address = b.address := by
      have hparse := a.parse_normalized
      rw [h, b.parse_normalized] at hparse
      exact (Except.ok.inj hparse).symm
    refine ⟨_, _, a.denotes_iff.mpr ⟨rfl, rfl⟩, b.denotes_iff.mpr ?_⟩
    rw [hsame]
    exact ⟨rfl, rfl⟩

end AcceptedAddress

end ShaPrint.Queue
