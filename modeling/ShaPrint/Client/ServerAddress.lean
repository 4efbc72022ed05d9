import ShaPrint.Domain.Error
import ShaPrint.Lib.Net.Printed
import ShaPrint.Text

/-!
Server addresses, `ServerAddress::parse` of `adapters/client_connections.rs`.

* `ServerAddress.parse`: a host, or a host and a port, in canonical form.
* `IsHost`, `Canonical`: the canonical forms are a lower-case host name or an IPv4
  address with its port, and a bracketed IPv6 address with its port.
* `canonical_of_parse`, `parse_of_canonical`: parsing gives a canonical form, and gives a
  canonical form back unchanged.
-/

namespace ShaPrint.Client

open Split Digits Net

/-- The port of a server that names none. -/
def defaultPort : ℕ := 48631

structure ServerAddress where
  host : Chars
  port : ℕ
  normalized : Chars
  deriving DecidableEq

def invalidAddress : AppError :=
  .invalidInput "Enter a valid server host or host:port with a port from 1 to 65535; IPv6 addresses must be bracketed."

def urlMessage : String :=
  "Enter a server host or host:port (for example printer.local or printer.local:48631); do not include a URL or credentials."

def bracketsMessage : String :=
  "For IPv6 addresses, use brackets, for example [2001:db8::1]:48631."

/-- `u16::from_str` -/
def parsePort (s : Chars) : Option ℕ := parseUnsigned 65535 s

/-- `IpAddr::to_string`. -/
def ipToChars : IpAddr → Chars
  | .v4 octets => ipv4ToChars octets
  | .v6 groups => ipv6ToChars groups

/-- A label of a host name. -/
def isLabel (label : Chars) : Bool :=
  label ≠ [] && (utf8 label).length ≤ 63 && label.head? ≠ some '-' && label.getLast? ≠ some '-'

def isHostChar (c : Char) : Bool := c.isAlphanum || c == '.' || c == '-'

/-- The host and the port of a bracketed IPv6 address. -/
def parseBracketed (value : Chars) : Except AppError (Chars × ℕ) :=
  match splitOnce value [']'] with
  | none => .error invalidAddress
  | some (before, rest) =>
      match parseIpv6 (before.drop 1) with
      | none => .error invalidAddress
      | some groups =>
          if rest = [] then .ok (ipv6ToChars groups, defaultPort)
          else
            match (rest.dropPrefix? [':']).bind parsePort with
            | none => .error invalidAddress
            | some port => .ok (ipv6ToChars groups, port)

/-- The host and the port of a host name. -/
def parseHostName (value : Chars) : Except AppError (Chars × ℕ) :=
  let parts := value.splitOn ':'
  let host := parts.headD []
  if 2 < parts.length then .error (.invalidInput bracketsMessage)
  else if host = [] || 253 < (utf8 host).length || !(host.splitOn '.').all isLabel
      || !host.all isHostChar then .error invalidAddress
  else
    match parts[1]? with
    | some text =>
        match parsePort text with
        | some port => .ok (toAsciiLower host, port)
        | none => .error invalidAddress
    | none => .ok (toAsciiLower host, defaultPort)

/-- The host and the port that a server address names. -/
def parseHostPort (value : Chars) : Except AppError (Chars × ℕ) :=
  if value.head? = some '[' then parseBracketed value
  else
    match parseIp value with
    | some ip => .ok (ipToChars ip, defaultPort)
    | none => parseHostName value

/-- `{host}:{port}`, with brackets around an IPv6 address. -/
def withPort (host : Chars) (port : ℕ) : Chars :=
  if ':' ∈ host then '[' :: host ++ "]:".toList ++ decimal port
  else host ++ ':' :: decimal port

/-- The value is empty, or looks like a URL. -/
def isNoAddress (value : Chars) : Bool :=
  value = [] || '@' ∈ value || '/' ∈ value || '?' ∈ value || '#' ∈ value || value.any isWhitespace

def ServerAddress.parse (input : Chars) : Except AppError ServerAddress :=
  let value := trim input
  if isNoAddress value then .error (.invalidInput urlMessage)
  else
    (parseHostPort value).bind fun (host, port) =>
      if port = 0 then .error invalidAddress
      else .ok ⟨toAsciiLower host, port, withPort (toAsciiLower host) port⟩

/-- `socket`: what a client connects to, and sends as the `Host`. -/
def ServerAddress.socket (address : ServerAddress) : Chars := withPort address.host address.port

/-- `ClientConnections::normalize_address`. -/
def normalizeAddress (input : Chars) : Except AppError Chars :=
  (ServerAddress.parse input).map (·.normalized)

/-! ### Canonical forms -/

/-- A lower-case host name, or an IPv4 address. -/
structure IsHost (host : Chars) : Prop where
  nonempty : host ≠ []
  length_le : host.length ≤ 253
  chars : ∀ c ∈ host, isHostChar c = true
  lower : toAsciiLower host = host
  labels : ∀ label ∈ host.splitOn '.', isLabel label = true

/-- The canonical forms of a server address, by host and port. -/
inductive Canonical : Chars → ℕ → Prop where
  | host {host : Chars} {port : ℕ} (hhost : IsHost host) (hpos : 0 < port) (hport : port ≤ 65535) :
      Canonical host port
  | ipv6 {port : ℕ} (groups : List ℕ) (hgroups : IsIpv6 groups) (hpos : 0 < port)
      (hport : port ≤ 65535) : Canonical (ipv6ToChars groups) port

lemma IsHost.no_colon {host : Chars} (h : IsHost host) : ':' ∉ host := by
  intro hmem
  exact absurd (h.chars ':' hmem) (by decide)

/-- A host does not begin with a hyphen. -/
lemma IsHost.head_ne {host : Chars} (h : IsHost host) : host.head? ≠ some '-' := by
  intro hhead
  obtain ⟨rest, rfl⟩ := List.head?_eq_some_iff.mp hhead
  obtain ⟨part, parts, hparts⟩ := exists_splitOn_cons (a := '.') (b := '-') (l := rest) (by decide)
  have hlabel := h.labels ('-' :: part) (hparts ▸ List.mem_cons_self)
  simp [isLabel] at hlabel

/-- A host does not end with a hyphen. -/
lemma IsHost.getLast_ne {host : Chars} (h : IsHost host) : host.getLast? ≠ some '-' := by
  intro hlast
  obtain ⟨rest, rfl⟩ := List.getLast?_eq_some_iff.mp hlast
  obtain ⟨parts, part, hparts⟩ := exists_splitOn_concat (a := '.') (b := '-') (l := rest) (by decide)
  have hlabel := h.labels (part ++ ['-']) (hparts ▸ List.mem_append_right _ List.mem_cons_self)
  simp [isLabel] at hlabel

lemma toLower_of_mem_ipv6Alphabet {c : Char} (h : c ∈ ipv6Alphabet) : c.toLower = c := by
  have hall : ∀ x ∈ ipv6Alphabet, x.toLower = x :=
    List.all_iff_forall_prop.mp (by decide)
  exact hall c h

lemma toAsciiLower_ipv6ToChars {groups : List ℕ} (h : IsIpv6 groups) :
    toAsciiLower (ipv6ToChars groups) = ipv6ToChars groups := by
  rw [toAsciiLower, List.map_congr_left fun c hc =>
    toLower_of_mem_ipv6Alphabet (mem_ipv6ToChars h hc), List.map_id']

lemma isHostChar_lt {c : Char} (h : isHostChar c = true) : c.toNat < 128 := by
  simp only [isHostChar, Bool.or_eq_true, beq_iff_eq] at h
  rcases h with (h | rfl) | rfl
  · exact isAlphanum_lt h
  all_goals decide

/-- Lower case keeps host characters, dots and hyphens. -/
lemma isHostChar_toLower {c : Char} (h : isHostChar c = true) :
    isHostChar c.toLower = true ∧ c.toLower.toLower = c.toLower
      ∧ (c.toLower = '.' ↔ c = '.') ∧ (c.toLower = '-' ↔ c = '-') := by
  have hall : ∀ n < 128, isHostChar (.ofNat n) = true →
      isHostChar (Char.ofNat n).toLower = true
        ∧ (Char.ofNat n).toLower.toLower = (Char.ofNat n).toLower
        ∧ ((Char.ofNat n).toLower = '.' ↔ Char.ofNat n = '.')
        ∧ ((Char.ofNat n).toLower = '-' ↔ Char.ofNat n = '-') := by
    decide +kernel
  exact forall_ascii (P := fun c => isHostChar c = true → isHostChar c.toLower = true
    ∧ c.toLower.toLower = c.toLower ∧ (c.toLower = '.' ↔ c = '.') ∧ (c.toLower = '-' ↔ c = '-'))
    hall (isHostChar_lt h) h

/-- A label of host characters is judged alike in lower case. -/
lemma isLabel_toAsciiLower {label : Chars} (h : ∀ c ∈ label, isHostChar c = true)
    (hlabel : isLabel label = true) : isLabel (toAsciiLower label) = true := by
  have hlower : ∀ c ∈ toAsciiLower label, c.toNat < 128 := by
    intro c hc
    obtain ⟨d, hd, rfl⟩ := List.mem_map.mp hc
    exact isHostChar_lt (isHostChar_toLower (h d hd)).1
  have hhyphen : ∀ c ∈ label, c.toLower = '-' → c = '-' := fun c hc =>
    (isHostChar_toLower (h c hc)).2.2.2.mp
  simp only [isLabel, Bool.and_eq_true, decide_eq_true_eq] at hlabel ⊢
  obtain ⟨⟨⟨hne, hlength⟩, hhead⟩, hlast⟩ := hlabel
  rw [length_utf8_of_ascii fun c hc => isHostChar_lt (h c hc)] at hlength
  refine ⟨⟨⟨?_, ?_⟩, ?_⟩, ?_⟩
  · simpa [toAsciiLower] using hne
  · rw [length_utf8_of_ascii hlower]
    simpa [toAsciiLower] using hlength
  · intro hc
    rw [toAsciiLower, List.head?_map, Option.map_eq_some_iff] at hc
    obtain ⟨c, hc, hlow⟩ := hc
    rw [hhyphen c (List.mem_of_mem_head? hc) hlow] at hc
    exact hhead hc
  · intro hc
    rw [toAsciiLower, List.getLast?_map, Option.map_eq_some_iff] at hc
    obtain ⟨c, hc, hlow⟩ := hc
    rw [hhyphen c (List.mem_of_getLast? hc) hlow] at hc
    exact hlast hc

/-- What `parseHostName` accepts as a host name, in lower case. -/
lemma isHost_toAsciiLower {host : Chars} (hne : host ≠ []) (hlength : (utf8 host).length ≤ 253)
    (hchars : host.all isHostChar = true) (hlabels : (host.splitOn '.').all isLabel = true) :
    IsHost (toAsciiLower host) := by
  rw [List.all_eq_true] at hchars hlabels
  rw [length_utf8_of_ascii fun c hc => isHostChar_lt (hchars c hc)] at hlength
  refine ⟨?_, ?_, ?_, ?_, ?_⟩
  · simpa [toAsciiLower] using hne
  · simpa [toAsciiLower] using hlength
  · intro c hc
    obtain ⟨d, hd, rfl⟩ := List.mem_map.mp hc
    exact (isHostChar_toLower (hchars d hd)).1
  · rw [toAsciiLower, toAsciiLower, List.map_map]
    exact List.map_congr_left fun c hc => (isHostChar_toLower (hchars c hc)).2.1
  · intro label hlabel
    rw [toAsciiLower, splitOn_map fun c hc => (isHostChar_toLower (hchars c hc)).2.2.1] at hlabel
    obtain ⟨raw, hraw, rfl⟩ := List.mem_map.mp hlabel
    exact isLabel_toAsciiLower (fun c hc => hchars c (mem_of_mem_splitOn hraw hc)) (hlabels raw hraw)

/-- An IPv4 address has the form of a host name. -/
lemma isHost_ipv4ToChars {a b c d : ℕ} (ha : a < 256) (hb : b < 256) (hc : c < 256)
    (hd : d < 256) : IsHost (ipv4ToChars [a, b, c, d]) := by
  have hdot : ∀ n, '.' ∉ decimal n := by
    intro n hmem
    exact absurd (isDigit_of_mem_decimal hmem) (by decide)
  have hlabel : ∀ n < 256, isLabel (decimal n) = true := by
    decide +kernel
  have hlower : ∀ x ∈ "0123456789.".toList, isHostChar x = true ∧ x.toLower = x :=
    List.all_iff_forall_prop.mp (by decide)
  refine ⟨?_, ?_, ?_, ?_, ?_⟩
  · simp [ipv4ToChars_eq]
  · have hlength := fun {n : ℕ} (h : n < 256) => length_decimal_octet h
    have h1 := hlength ha
    have h2 := hlength hb
    have h3 := hlength hc
    have h4 := hlength hd
    simp only [ipv4ToChars_eq, List.length_append, List.length_cons]
    omega
  · exact fun x hx => (hlower x (mem_ipv4ToChars hx)).1
  · rw [toAsciiLower, List.map_congr_left fun x hx => (hlower x (mem_ipv4ToChars hx)).2, List.map_id']
  · rw [ipv4ToChars_eq, splitOn_append_cons (hdot a), splitOn_append_cons (hdot b),
      splitOn_append_cons (hdot c), splitOn_of_not_mem (hdot d)]
    simp only [List.forall_mem_cons]
    exact ⟨hlabel a ha, hlabel b hb, hlabel c hc, hlabel d hd, by simp⟩

/-! ### Parsing gives a canonical form -/

lemma parsePort_le {text : Chars} {port : ℕ} (h : parsePort text = some port) : port ≤ 65535 :=
  (parseUnsigned_eq_some h).1

lemma parseBracketed_eq_ok {value host : Chars} {port : ℕ}
    (h : parseBracketed value = .ok (host, port)) :
    ∃ groups, IsIpv6 groups ∧ host = ipv6ToChars groups ∧ port ≤ 65535 := by
  unfold parseBracketed at h
  split at h
  · cases h
  split at h
  · cases h
  rename_i groups hgroups
  split at h
  · obtain ⟨rfl, rfl⟩ := Prod.mk.inj (Except.ok.inj h)
    exact ⟨groups, (parseIpv6_eq_some hgroups).1, rfl, by decide⟩
  split at h
  · cases h
  rename_i port' hport
  obtain ⟨rfl, rfl⟩ := Prod.mk.inj (Except.ok.inj h)
  obtain ⟨text, -, hport⟩ := Option.bind_eq_some_iff.mp hport
  exact ⟨groups, (parseIpv6_eq_some hgroups).1, rfl, parsePort_le hport⟩

lemma parseHostName_eq_ok {value host : Chars} {port : ℕ}
    (h : parseHostName value = .ok (host, port)) : IsHost host ∧ port ≤ 65535 := by
  unfold parseHostName at h
  dsimp only at h
  split at h
  · cases h
  split at h
  · cases h
  rename_i hcheck
  simp only [Bool.or_eq_true, decide_eq_true_eq, not_or, Bool.not_eq_true', Bool.not_eq_false,
    Nat.not_lt] at hcheck
  obtain ⟨⟨⟨hne, hlength⟩, hlabels⟩, hchars⟩ := hcheck
  have hhost := isHost_toAsciiLower hne hlength hchars hlabels
  split at h
  · split at h
    · rename_i hport
      obtain ⟨rfl, rfl⟩ := Prod.mk.inj (Except.ok.inj h)
      exact ⟨hhost, parsePort_le hport⟩
    · cases h
  · obtain ⟨rfl, rfl⟩ := Prod.mk.inj (Except.ok.inj h)
    exact ⟨hhost, by decide⟩

lemma parseHostPort_eq_ok {value host : Chars} {port : ℕ}
    (h : parseHostPort value = .ok (host, port)) (hpos : 0 < port) : Canonical host port := by
  unfold parseHostPort at h
  split at h
  · obtain ⟨groups, hgroups, rfl, hport⟩ := parseBracketed_eq_ok h
    exact .ipv6 groups hgroups hpos hport
  split at h
  · rename_i ip hip
    obtain ⟨rfl, rfl⟩ := Prod.mk.inj (Except.ok.inj h)
    rcases parseIp_eq_some hip with ⟨a, b, c, d, rfl, ha, hb, hc, hd, -⟩ | ⟨groups, rfl, hgroups, -⟩
    · exact .host (isHost_ipv4ToChars ha hb hc hd) hpos (by decide)
    · exact .ipv6 groups hgroups hpos (by decide)
  · obtain ⟨hhost, hport⟩ := parseHostName_eq_ok h
    exact .host hhost hpos hport

lemma Canonical.lower {host : Chars} {port : ℕ} (h : Canonical host port) :
    toAsciiLower host = host := by
  cases h with
  | host hhost hpos hport => exact hhost.lower
  | ipv6 groups hgroups hpos hport => exact toAsciiLower_ipv6ToChars hgroups

/-- What an accepted address is made of. -/
lemma parse_eq_ok {input : Chars} {address : ServerAddress}
    (h : ServerAddress.parse input = .ok address) :
    ∃ host port, parseHostPort (trim input) = .ok (host, port) ∧ 0 < port
      ∧ address = ⟨toAsciiLower host, port, withPort (toAsciiLower host) port⟩ := by
  unfold ServerAddress.parse at h
  dsimp only at h
  split at h
  · cases h
  cases hparse : parseHostPort (trim input) with
  | error e =>
      rw [hparse] at h
      cases h
  | ok parts =>
      rw [hparse] at h
      dsimp only [Except.bind] at h
      split at h
      · cases h
      rename_i hzero
      exact ⟨parts.1, parts.2, rfl, Nat.pos_of_ne_zero hzero, (Except.ok.inj h).symm⟩

/-- An accepted address is in canonical form, and its text is the host with the port. -/
theorem canonical_of_parse {input : Chars} {address : ServerAddress}
    (h : ServerAddress.parse input = .ok address) :
    Canonical address.host address.port
      ∧ address.normalized = withPort address.host address.port := by
  obtain ⟨host, port, hparse, hpos, rfl⟩ := parse_eq_ok h
  have hcanonical := parseHostPort_eq_ok hparse hpos
  rw [hcanonical.lower]
  exact ⟨hcanonical, rfl⟩

/-- The host and the port of an accepted address are the ones that are read. -/
lemma parseHostPort_of_parse {input : Chars} {address : ServerAddress}
    (h : ServerAddress.parse input = .ok address) :
    parseHostPort (trim input) = .ok (address.host, address.port) := by
  obtain ⟨host, port, hparse, hpos, rfl⟩ := parse_eq_ok h
  rw [hparse, (parseHostPort_eq_ok hparse hpos).lower]

/-! ### A canonical form parses to itself -/

/-- The characters of canonical addresses. -/
def isAddressChar (c : Char) : Bool := isHostChar c || c == ':' || c == '[' || c == ']'

lemma isAddressChar_of_isHostChar {c : Char} (h : isHostChar c = true) : isAddressChar c = true := by
  simp [isAddressChar, h]

lemma isAddressChar_lt {c : Char} (h : isAddressChar c = true) : c.toNat < 128 := by
  simp only [isAddressChar, Bool.or_eq_true, beq_iff_eq] at h
  rcases h with ((h | rfl) | rfl) | rfl
  · exact isHostChar_lt h
  all_goals decide

/-- What an address does not contain. -/
lemma isAddressChar_ne {c : Char} (h : isAddressChar c = true) :
    isWhitespace c = false ∧ c ∉ "@/?#%".toList := by
  have hall : ∀ n < 128, isAddressChar (.ofNat n) = true →
      isWhitespace (.ofNat n) = false ∧ Char.ofNat n ∉ "@/?#%".toList := by decide +kernel
  exact forall_ascii (P := fun c => isAddressChar c = true →
    isWhitespace c = false ∧ c ∉ "@/?#%".toList) hall (isAddressChar_lt h) h

lemma isHostChar_of_mem_decimal {n : ℕ} {c : Char} (h : c ∈ decimal n) : isHostChar c = true := by
  have hdigit := isDigit_of_mem_decimal h
  simp [isHostChar, Char.isAlphanum, hdigit]

lemma Canonical.mem_withPort {host : Chars} {port : ℕ} (h : Canonical host port) {c : Char}
    (hc : c ∈ withPort host port) : isAddressChar c = true := by
  have hport : c ∈ decimal port → isAddressChar c = true := fun hc =>
    isAddressChar_of_isHostChar (isHostChar_of_mem_decimal hc)
  cases h with
  | host hhost hpos hle =>
      rw [withPort, if_neg hhost.no_colon, List.mem_append, List.mem_cons] at hc
      rcases hc with hc | rfl | hc
      · exact isAddressChar_of_isHostChar (hhost.chars c hc)
      · decide
      · exact hport hc
  | ipv6 groups hgroups hpos hle =>
      have hall : ∀ x ∈ ipv6Alphabet, isAddressChar x = true :=
        List.all_iff_forall_prop.mp (by decide)
      have hsep : ∀ x ∈ "]:".toList, isAddressChar x = true :=
        List.all_iff_forall_prop.mp (by decide)
      rw [withPort, if_pos (colon_mem_ipv6ToChars hgroups), List.mem_append, List.mem_append,
        List.mem_cons] at hc
      rcases hc with ((rfl | hc) | hc) | hc
      · decide
      · exact hall c (mem_ipv6ToChars hgroups hc)
      · exact hsep c hc
      · exact hport hc

lemma parseHostPort_host {host : Chars} {port : ℕ} (hhost : IsHost host) (hport : port ≤ 65535) :
    parseHostPort (host ++ ':' :: decimal port) = .ok (host, port) := by
  have hdecimal : ':' ∉ decimal port := fun hmem =>
    absurd (isHostChar_of_mem_decimal hmem) (by decide)
  have hhead : (host ++ ':' :: decimal port).head? ≠ some '[' := by
    cases hcases : host with
    | nil => exact absurd hcases hhost.nonempty
    | cons c rest =>
        intro h
        obtain rfl := Option.some.inj h
        exact absurd (hhost.chars '[' (hcases ▸ List.mem_cons_self)) (by decide)
  have hcount : (host ++ ':' :: decimal port).count ':' = 1 := by
    rw [List.count_append, List.count_cons_self, List.count_eq_zero_of_not_mem hhost.no_colon,
      List.count_eq_zero_of_not_mem hdecimal]
  have hip : parseIp (host ++ ':' :: decimal port) = none := by
    rw [Option.eq_none_iff_forall_ne_some]
    intro ip hip
    rcases parseIp_eq_some hip with ⟨_, _, _, _, -, -, -, -, -, hnone⟩ | ⟨_, -, -, htwo⟩
    · omega
    · omega
  have hparts : (host ++ ':' :: decimal port).splitOn ':' = [host, decimal port] := by
    rw [splitOn_append_cons hhost.no_colon, splitOn_of_not_mem hdecimal]
  have hlength : (utf8 host).length ≤ 253 := by
    rw [length_utf8_of_ascii fun c hc => isHostChar_lt (hhost.chars c hc)]
    exact hhost.length_le
  have hlabels : (host.splitOn '.').all isLabel = true := List.all_eq_true.mpr hhost.labels
  have hchars : host.all isHostChar = true := List.all_eq_true.mpr hhost.chars
  have hparse : parsePort (decimal port) = some port := parseUnsigned_decimal hport
  rw [parseHostPort, if_neg hhead, hip]
  simp only [parseHostName, hparts, List.length_cons, List.length_nil, List.headD_cons,
    hhost.nonempty, Nat.not_lt.mpr hlength, hlabels, hchars, decide_false, Bool.not_true,
    Bool.or_false, Bool.false_eq_true, if_false, Nat.zero_add, Nat.lt_irrefl, Nat.reduceAdd,
    List.getElem?_cons_succ, List.getElem?_cons_zero, hparse, hhost.lower]

lemma parseHostPort_ipv6 {groups : List ℕ} {port : ℕ} (hgroups : IsIpv6 groups)
    (hport : port ≤ 65535) :
    parseHostPort ('[' :: ipv6ToChars groups ++ "]:".toList ++ decimal port)
      = .ok (ipv6ToChars groups, port) := by
  have hbracket : ']' ∉ '[' :: ipv6ToChars groups := by
    rw [List.mem_cons, not_or]
    exact ⟨by decide, fun hmem => absurd (mem_ipv6ToChars hgroups hmem) (by decide)⟩
  have hsplit : splitOnce ('[' :: ipv6ToChars groups ++ "]:".toList ++ decimal port) [']']
      = some ('[' :: ipv6ToChars groups, ':' :: decimal port) := by
    have hsep : ("]:".toList : Chars) = [']', ':'] := by decide
    rw [splitOnce_singleton]
    exact ⟨by rw [hsep, List.append_assoc]; rfl, hbracket⟩
  have hport : ((':' :: decimal port).dropPrefix? [':']).bind parsePort = some port := by
    rw [show (':' :: decimal port).dropPrefix? [':'] = some (decimal port) from
      dropPrefix?_eq_some.mpr rfl, Option.bind_some]
    exact parseUnsigned_decimal hport
  have hhead : ('[' :: ipv6ToChars groups ++ "]:".toList ++ decimal port).head? = some '[' := rfl
  rw [parseHostPort, if_pos hhead, parseBracketed, hsplit]
  simp only [List.drop_one, List.tail_cons, parseIpv6_ipv6ToChars hgroups, reduceCtorEq, if_false,
    hport]

lemma withPort_ne_nil (host : Chars) (port : ℕ) : withPort host port ≠ [] := by
  unfold withPort
  split
  · simp
  · simp

/-- A canonical address has no whitespace. -/
lemma Canonical.trim_withPort {host : Chars} {port : ℕ} (h : Canonical host port) :
    trim (withPort host port) = withPort host port :=
  trimBoth_of_trimmed ⟨fun _ hc => (isAddressChar_ne (h.mem_withPort (List.mem_of_mem_head? hc))).1,
    fun _ hc => (isAddressChar_ne (h.mem_withPort (List.mem_of_getLast? hc))).1⟩

/-- A canonical form parses to its own host and port. -/
theorem parse_withPort {host : Chars} {port : ℕ} (h : Canonical host port) :
    ServerAddress.parse (withPort host port) = .ok ⟨host, port, withPort host port⟩ := by
  have hchars := fun c (hc : c ∈ withPort host port) => isAddressChar_ne (h.mem_withPort hc)
  have hnot : ∀ c ∈ "@/?#%".toList, c ∉ withPort host port := fun c hc hmem =>
    (hchars c hmem).2 hc
  have haddress : isNoAddress (withPort host port) = false := by
    have hne := withPort_ne_nil host port
    have hwhite : (withPort host port).any isWhitespace = false :=
      List.any_eq_false.mpr fun c hc => by simp [(hchars c hc).1]
    simp [isNoAddress, hne, hwhite, hnot '@' (by decide), hnot '/' (by decide),
      hnot '?' (by decide), hnot '#' (by decide)]
  have hparse : parseHostPort (withPort host port) = .ok (host, port) ∧ port ≠ 0 := by
    cases h with
    | host hhost hpos hport =>
        rw [withPort, if_neg hhost.no_colon]
        exact ⟨parseHostPort_host hhost hport, hpos.ne'⟩
    | ipv6 groups hgroups hpos hport =>
        rw [withPort, if_pos (colon_mem_ipv6ToChars hgroups)]
        exact ⟨parseHostPort_ipv6 hgroups hport, hpos.ne'⟩
  rw [ServerAddress.parse, h.trim_withPort, haddress, hparse.1]
  simp only [Bool.false_eq_true, if_false, Except.bind, hparse.2, h.lower]

/-- Normalizing keeps a normalized address. -/
theorem normalizeAddress_normalized {input normalized : Chars}
    (h : normalizeAddress input = .ok normalized) :
    normalizeAddress normalized = .ok normalized := by
  unfold normalizeAddress at h ⊢
  cases hparse : ServerAddress.parse input with
  | error e =>
      rw [hparse] at h
      cases h
  | ok address =>
      rw [hparse] at h
      obtain ⟨hcanonical, hnormalized⟩ := canonical_of_parse hparse
      have heq : normalized = withPort address.host address.port :=
        (Except.ok.inj h).symm.trans hnormalized
      rw [heq, parse_withPort hcanonical]
      rfl

end ShaPrint.Client
