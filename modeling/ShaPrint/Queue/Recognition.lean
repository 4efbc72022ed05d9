import ShaPrint.Client.Route
import ShaPrint.Queue.Classify
import ShaPrint.Queue.Identity

/-!
What the classification makes of the queues that are installed.

* `stripTrailingCopySuffix_queueText`, `stripTrailingCopySuffix_copy`: the copy suffix is
  stripped where there is one, whatever the printer's name looks like.
* `install_recognised`: an installed queue, or a copy of it, is recognised with its server
  and its printer by its port.
* `wsd_invents_no_server_iff`: by its name alone, a queue for an IPv6 server is taken for
  one of another server.
-/

namespace ShaPrint.Queue

open Split Digits Net Client

/-! ### Addresses that the queues accept -/

lemma isAsciiHexDigit_ipv6 {c : Char} (h : c ∈ ipv6Alphabet) :
    (isAsciiHexDigit c || c == ':' || c == '.') = true := by
  have hall : ∀ x ∈ ipv6Alphabet, (isAsciiHexDigit x || x == ':' || x == '.') = true :=
    List.all_iff_forall_prop.mp (by decide)
  exact hall c h

lemma isPort_decimal {port : ℕ} (hpos : 0 < port) (hle : port ≤ 65535) :
    isPort (decimal port) = true := by
  have hdigits : ∀ c ∈ decimal port, c.isDigit = true := fun c hc => isDigit_of_mem_decimal hc
  have hlength : (utf8 (decimal port)).length ≤ 5 := by
    rw [length_utf8_of_ascii fun c hc => isHostChar_lt (isHostChar_of_mem_decimal hc)]
    exact length_decimal_le (by decide) (by omega)
  have hparse : parsePort (decimal port) = some port := parseUnsigned_decimal hle
  have hall : (decimal port).all Char.isDigit = true := List.all_eq_true.mpr hdigits
  simp [isPort, hlength, hparse, hall, hpos]

/-- A host of letters, digits, dots and hyphens with a port is accepted. -/
lemma validateAddress_host {host : Chars} {port : ℕ} (hne : host ≠ [])
    (hchars : ∀ c ∈ host, isHostChar c = true) (hlength : host.length ≤ 253) (hpos : 0 < port)
    (hle : port ≤ 65535) : validateAddress (host ++ ':' :: decimal port) = .ok () := by
  have hcolon : ':' ∉ host := fun h => absurd (hchars ':' h) (by decide)
  have hbracket : (host ++ ':' :: decimal port).dropPrefix? ['['] = none := by
    rw [dropPrefix?_eq_none]
    rintro ⟨rest, hrest⟩
    cases host with
    | nil => exact hne rfl
    | cons c host =>
        rw [List.cons_append, List.cons_append] at hrest
        obtain ⟨rfl, -⟩ := List.cons.inj hrest
        exact absurd (hchars '[' List.mem_cons_self) (by decide)
  have hsplit : splitOnce (host ++ ':' :: decimal port) [':'] = some (host, decimal port) :=
    splitOnce_singleton.mpr ⟨rfl, hcolon⟩
  have hall : host.all (fun c => c.isAlphanum || c == '.' || c == '-') = true :=
    List.all_eq_true.mpr hchars
  have hport : addressPort (host ++ ':' :: decimal port) = .ok (some (decimal port)) := by
    rw [addressPort, hbracket]
    simp only [hsplit, hne, hall, decide_false, Bool.not_true, Bool.or_false, Bool.false_eq_true,
      if_false, ne_eq, decimal_ne_nil, not_false_eq_true, if_true]
  have hshort : ¬ addressLimit < (host ++ ':' :: decimal port).length := by
    have hdecimal : (decimal port).length ≤ 5 := length_decimal_le (by decide) (by omega)
    have hlimit : addressLimit = 300 := rfl
    rw [List.length_append, List.length_cons]
    omega
  rw [validateAddress, if_neg (by simp), if_neg hshort, hport]
  simp only [Except.bind, Option.all_some, isPort_decimal hpos hle, if_true]

/-- Canonical addresses are accepted. -/
lemma validateAddress_withPort {host : Chars} {port : ℕ} (h : Canonical host port) :
    validateAddress (withPort host port) = .ok () := by
  cases h with
  | host hhost hpos hle =>
      rw [withPort, if_neg hhost.no_colon]
      exact validateAddress_host hhost.nonempty hhost.chars hhost.length_le hpos hle
  | ipv6 groups hgroups hpos hle =>
      have htext : '[' :: ipv6ToChars groups ++ "]:".toList ++ decimal port
          = ['['] ++ (ipv6ToChars groups ++ ']' :: ':' :: decimal port) := by
        rw [show ("]:".toList : Chars) = [']', ':'] by decide]
        simp
      have hprefix : (['['] ++ (ipv6ToChars groups ++ ']' :: ':' :: decimal port)).dropPrefix? ['[']
          = some (ipv6ToChars groups ++ ']' :: ':' :: decimal port) := dropPrefix?_eq_some.mpr rfl
      have hsplit : splitOnce (ipv6ToChars groups ++ ']' :: ':' :: decimal port) [']']
          = some (ipv6ToChars groups, ':' :: decimal port) :=
        splitOnce_singleton.mpr ⟨rfl, fun hmem => absurd (mem_ipv6ToChars hgroups hmem) (by decide)⟩
      have hport : (':' :: decimal port).dropPrefix? [':'] = some (decimal port) :=
        dropPrefix?_eq_some.mpr rfl
      have hne : ipv6ToChars groups ≠ [] := List.ne_nil_of_mem (colon_mem_ipv6ToChars hgroups)
      have hall : (ipv6ToChars groups).all (fun c => isAsciiHexDigit c || c == ':' || c == '.')
          = true :=
        List.all_eq_true.mpr fun c hc => isAsciiHexDigit_ipv6 (mem_ipv6ToChars hgroups hc)
      have haddress : addressPort (withPort (ipv6ToChars groups) port)
          = .ok (some (decimal port)) := by
        rw [withPort, if_pos (colon_mem_ipv6ToChars hgroups), htext, addressPort, hprefix]
        simp only [hsplit, hne, hall, decide_false, Bool.not_true, Bool.or_false,
          Bool.false_eq_true, if_false, hport, ne_eq, decimal_ne_nil, not_false_eq_true, if_true]
      have hshort : ¬ addressLimit < (withPort (ipv6ToChars groups) port).length := by
        have hdecimal : (decimal port).length ≤ 5 := length_decimal_le (by decide) (by omega)
        have hipv6 := length_ipv6ToChars_le hgroups
        have hlimit : addressLimit = 300 := rfl
        have hsep : "]:".toList.length = 2 := by decide
        rw [withPort, if_pos (colon_mem_ipv6ToChars hgroups), List.length_append,
          List.length_append, List.length_cons, hsep]
        omega
      rw [validateAddress, if_neg (withPort_ne_nil _ _), if_neg hshort, haddress]
      simp only [Except.bind, Option.all_some, isPort_decimal hpos hle, if_true]

/-! ### Copies -/

/-- The name of a copy, as Windows makes it. -/
def copyText (name number : Chars) : Chars := name ++ " (Copy ".toList ++ number ++ ")".toList

/-- A name, or a numbered copy of it. -/
inductive CopyOf (base : Chars) : Chars → Prop where
  | self : CopyOf base base
  | copy (number : Chars) (hne : number ≠ []) (hdigits : number.all Char.isDigit = true) :
      CopyOf base (copyText base number)

lemma space_not_mem_number {number : Chars} (h : number.all Char.isDigit = true) : ' ' ∉ number :=
  fun hmem => absurd (List.all_eq_true.mp h ' ' hmem) (by decide)

lemma stripTrailingCopySuffix_copy (base : Chars) {number : Chars} (hne : number ≠ [])
    (hdigits : number.all Char.isDigit = true) :
    stripTrailingCopySuffix (copyText base number) = some base := by
  have hclose : (copyText base number).dropSuffix? [')']
      = some (base ++ " (Copy ".toList ++ number) := dropSuffix?_eq_some.mpr rfl
  have hsep : (" (Copy ".toList : Chars) = " (Copy".toList ++ [' '] := by decide
  have hsplit : rsplitOnce (base ++ " (Copy ".toList ++ number) " (Copy ".toList
      = some (base, number) := by
    rw [hsep]
    exact rsplitOnce_concat (space_not_mem_number hdigits)
  rw [stripTrailingCopySuffix, hclose, Option.bind_some, hsplit, Option.bind_some]
  simp only [ne_eq, hne, not_false_eq_true, decide_true, hdigits, Bool.and_self, if_true]

/-- A derived queue name has no copy suffix, whatever the printer's name ends with. -/
lemma stripTrailingCopySuffix_queueText (printer : PrinterName) {label : Chars}
    (hlabel : ' ' ∉ label) : stripTrailingCopySuffix (queueText printer label) = none := by
  have hclose : (queueText printer label).dropSuffix? [')']
      = some (printer.chars ++ " (ShaPrint ".toList ++ label) := dropSuffix?_eq_some.mpr rfl
  rw [stripTrailingCopySuffix, hclose, Option.bind_some, Option.bind_eq_none_iff]
  rintro ⟨before, number⟩ hsplit
  obtain ⟨htext, -⟩ := rsplitOnce_eq_some.mp hsplit
  by_cases hnumber : number ≠ [] ∧ number.all Char.isDigit = true
  · -- the number would follow the last space, which follows `(ShaPrint`
    exfalso
    have hsep : (" (ShaPrint ".toList : Chars) = " (ShaPrint".toList ++ [' '] := by decide
    have hcopy : (" (Copy ".toList : Chars) = " (Copy".toList ++ [' '] := by decide
    rw [hsep, hcopy] at htext
    have hlast : (printer.chars ++ " (ShaPrint".toList) ++ ' ' :: label
        = (before ++ " (Copy".toList) ++ ' ' :: number := by
      simpa only [List.append_assoc, List.singleton_append] using htext
    obtain ⟨hbefore, -⟩ := append_cons_inj hlast hlabel (space_not_mem_number hnumber.2)
    have hends := congrArg List.getLast? hbefore
    rw [List.getLast?_append_of_ne_nil _ (by decide), List.getLast?_append_of_ne_nil _ (by decide)]
      at hends
    exact absurd hends (by decide)
  · refine if_neg fun h => hnumber ?_
    simpa only [Bool.and_eq_true, decide_eq_true_eq] using h

/-- What is left of a copy's name is the name it copies. -/
lemma CopyOf.baseName {base name : Chars} (h : CopyOf base name)
    (hbase : stripTrailingCopySuffix base = none) :
    (stripTrailingCopySuffix name).getD name = base := by
  cases h with
  | self => rw [hbase, Option.getD_none]
  | copy number hne hdigits => rw [stripTrailingCopySuffix_copy base hne hdigits, Option.getD_some]

/-- The name of a copy is trimmed. -/
lemma CopyOf.trim_eq {base name : Chars} (h : CopyOf base name) (hne : base ≠ [])
    (hbase : trim base = base) : trim name = name := by
  have htrimmed := trimBoth_eq_self_iff.mp hbase
  cases h with
  | self => exact hbase
  | copy number _ hdigits =>
      refine trimBoth_of_trimmed ⟨fun c hc => ?_, fun c hc => ?_⟩
      · rw [copyText, List.append_assoc, List.append_assoc, List.head?_append_of_ne_nil _ hne] at hc
        exact htrimmed.1 c hc
      · rw [copyText, List.getLast?_append_of_ne_nil _ (by decide)] at hc
        obtain rfl := Option.some.inj hc
        decide

/-! ### CUPS destinations -/

/-- The characters of CUPS destinations. -/
def isCupsChar (c : Char) : Bool := c.isAlphanum || c == '-' || c == '.' || c == '_'

lemma isCupsChar_spec {c : Char} (h : isCupsChar c = true) :
    c.toNat < 128 ∧ isControl c = false ∧ isRejected c = false ∧ isWhitespace c = false
      ∧ c ≠ ')' := by
  have hlt : c.toNat < 128 := by
    simp only [isCupsChar, Bool.or_eq_true, beq_iff_eq] at h
    rcases h with ((h | rfl) | rfl) | rfl
    · exact isAlphanum_lt h
    all_goals decide
  have hall : ∀ n < 128, isCupsChar (.ofNat n) = true → isControl (.ofNat n) = false
      ∧ isRejected (.ofNat n) = false ∧ isWhitespace (.ofNat n) = false ∧ Char.ofNat n ≠ ')' := by
    decide +kernel
  exact ⟨hlt, forall_ascii (P := fun c => isCupsChar c = true → isControl c = false
    ∧ isRejected c = false ∧ isWhitespace c = false ∧ c ≠ ')') hall hlt h⟩

lemma mem_sanitizeCupsToken {input : Chars} {c : Char} (h : c ∈ sanitizeCupsToken input) :
    isCupsChar c = true := by
  have hfold : ∀ (input : Chars) (out : Chars × Bool), (∀ c ∈ out.1, isCupsChar c = true) →
      ∀ c ∈ (input.foldl sanitizeStep out).1, isCupsChar c = true := by
    intro input
    induction input with
    | nil => exact fun out hout => hout
    | cons d input ih =>
        intro out hout
        refine ih _ fun c hc => ?_
        unfold sanitizeStep at hc
        split at hc
        · rename_i hd
          rcases List.mem_append.mp hc with hc | hc
          · exact hout c hc
          · obtain rfl := List.mem_singleton.mp hc
            simp only [Bool.or_eq_true] at hd
            simp only [isCupsChar, Bool.or_eq_true]
            exact .inl hd
        · split at hc
          · rcases List.mem_append.mp hc with hc | hc
            · exact hout c hc
            · obtain rfl := List.mem_singleton.mp hc
              decide
          · exact hout c hc
  exact hfold input ([], false) (by simp) c ((List.rdropWhile_prefix _ _).subset h)

lemma mem_slug {text default : Chars} {limit : ℕ} {separator c : Char}
    (h : c ∈ slug text limit separator default) : c ∈ text ∨ c ∈ default := by
  unfold slug at h
  dsimp only at h
  split at h
  · exact .inr h
  · exact .inl (List.mem_of_mem_take (trimBoth_subset h))

lemma length_slug_le {text default : Chars} {limit : ℕ} {separator : Char}
    (h : default.length ≤ limit) : (slug text limit separator default).length ≤ limit := by
  unfold slug
  dsimp only
  split
  · exact h
  · exact length_trimBoth_le.trans (List.length_take_le _ _)

lemma mem_hexByte {b : UInt8} {c : Char} (h : c ∈ hexByte b) : isCupsChar c = true := by
  have hdigit : ∀ n < 16, isCupsChar n.digitChar = true := by decide
  have hb := b.toNat_lt
  simp only [hexByte, List.mem_cons, List.not_mem_nil, or_false] at h
  rcases h with rfl | rfl
  · exact hdigit _ (by omega)
  · exact hdigit _ (by omega)

section

variable (sha256 : Bytes → Vector UInt8 32)

lemma mem_cupsDestinationFor {printer : PrinterName} {serverAddress : Chars} {c : Char}
    (h : c ∈ cupsDestinationFor sha256 printer serverAddress) : isCupsChar c = true := by
  have hfixed : ∀ x ∈ "ShaPrint_".toList ++ "_serverPrinter".toList, isCupsChar x = true :=
    List.all_iff_forall_prop.mp (by decide)
  have hfixed := fun x hx => hfixed x hx
  unfold cupsDestinationFor at h
  simp only [List.mem_append, List.mem_singleton] at h
  rcases h with ((((h | h) | rfl) | h) | rfl) | h
  · exact hfixed c (List.mem_append_left _ h)
  · rcases mem_slug h with h | h
    · exact mem_sanitizeCupsToken h
    · exact hfixed c (List.mem_append_right _ ((by decide : "Printer".toList ⊆ _) h))
  · decide
  · rcases mem_slug h with h | h
    · have hchar := mem_addressLabel h
      simp only [isHostChar, Bool.or_eq_true] at hchar
      simp only [isCupsChar, Bool.or_eq_true]
      rcases hchar with (hchar | hchar) | hchar
      · exact .inl (.inl (.inl hchar))
      · exact .inl (.inr hchar)
      · exact .inl (.inl (.inr hchar))
    · exact hfixed c (List.mem_append_right _ ((by decide : "server".toList ⊆ _) h))
  · decide
  · obtain ⟨b, -, hb⟩ := List.mem_flatMap.mp h
    exact mem_hexByte hb

/-- A CUPS destination fits the spooler's bound. -/
lemma length_cupsDestinationFor_le (printer : PrinterName) (serverAddress : Chars) :
    (cupsDestinationFor sha256 printer serverAddress).length ≤ 127 := by
  have hserver : ∀ text separator, (slug text 40 separator "server".toList).length ≤ 40 :=
    fun _ _ => length_slug_le (by decide)
  have hprinter : ∀ text separator, (slug text 60 separator "Printer".toList).length ≤ 60 :=
    fun _ _ => length_slug_le (by decide)
  have h1 := hserver (addressLabel (trim serverAddress)) '-'
  have h2 := hprinter (sanitizeCupsToken printer.chars) '_'
  have h3 : "ShaPrint_".toList.length = 9 := by decide
  unfold cupsDestinationFor
  simp only [List.length_append, h3, List.flatMap_cons, List.flatMap_nil,
    hexByte, List.length_cons, List.length_nil]
  omega

/-- A CUPS destination is a valid queue name. -/
lemma parse_cupsDestinationFor (printer : PrinterName) (serverAddress : Chars) :
    ∃ name, ClientQueueName.parse (cupsDestinationFor sha256 printer serverAddress) = .ok name
      ∧ name.value = cupsDestinationFor sha256 printer serverAddress := by
  have hchars := fun c (hc : c ∈ cupsDestinationFor sha256 printer serverAddress) =>
    isCupsChar_spec (mem_cupsDestinationFor sha256 hc)
  have hne : cupsDestinationFor sha256 printer serverAddress ≠ [] := by
    unfold cupsDestinationFor
    simp
  have hlength : (cupsDestinationFor sha256 printer serverAddress).length ≤ queueNameLimit :=
    (length_cupsDestinationFor_le sha256 printer serverAddress).trans (by decide)
  have htrim : trim (cupsDestinationFor sha256 printer serverAddress)
      = cupsDestinationFor sha256 printer serverAddress :=
    trimBoth_of_trimmed ⟨fun c hc => (hchars c (List.mem_of_mem_head? hc)).2.2.2.1,
      fun c hc => (hchars c (List.mem_of_getLast? hc)).2.2.2.1⟩
  refine ⟨⟨_, hne, hlength, ?_, ?_, htrim⟩, ClientQueueName.parse_eq_ok.mpr htrim.symm, rfl⟩
  · exact List.any_eq_false.mpr fun c hc => by simp [(hchars c hc).2.1]
  · exact List.find?_eq_none.mpr fun c hc => by simp [(hchars c hc).2.2.1]

lemma stripTrailingCopySuffix_cups (printer : PrinterName) (serverAddress : Chars) :
    stripTrailingCopySuffix (cupsDestinationFor sha256 printer serverAddress) = none := by
  have hclose : (cupsDestinationFor sha256 printer serverAddress).dropSuffix? [')'] = none := by
    rw [Option.eq_none_iff_forall_ne_some]
    intro rest hrest
    have hmem : ')' ∈ cupsDestinationFor sha256 printer serverAddress := by
      rw [dropSuffix?_eq_some.mp hrest]
      exact List.mem_append_right _ List.mem_cons_self
    exact (isCupsChar_spec (mem_cupsDestinationFor sha256 hmem)).2.2.2.2 rfl
  rw [stripTrailingCopySuffix, hclose, Option.bind_none]

/-! ### Recognition by the port -/

/-- A record that points to a queue's destination is recognised if its name is the derived
one, or the CUPS destination, or a copy of it. -/
lemma classifyDestination_destination {server name base : Chars} {printer : PrinterName}
    {queueName expected : ClientQueueName} (hserver : validateAddress server = .ok ())
    (hexpected : ClientQueueName.forSharedPrinter printer server = .ok expected)
    (hbase : base = expected.value ∨ base = cupsDestinationFor sha256 printer server)
    (hname : (stripTrailingCopySuffix name).getD name = base)
    (hparse : ClientQueueName.parse name = .ok queueName) :
    classifyDestination sha256 name (destination server printer)
      = .recognisedClientQueue ⟨queueName, server, printer⟩ := by
  have hne : server ≠ [] := by
    rintro rfl
    cases hserver
  have hsegments : ¬ (percentEncode server = [] ∨ percentEncode printer.chars = []) := by
    rintro (h | h)
    · exact percentEncode_ne_nil hne h
    · exact percentEncode_ne_nil printer.nonempty h
  have hbase : expected.value = base ∨ cupsDestinationFor sha256 printer server = base :=
    hbase.imp Eq.symm Eq.symm
  unfold classifyDestination
  rw [splitOn_destination]
  simp only [if_neg hsegments, percentDecode_percentEncode, hserver, PrinterName.parse_chars,
    hexpected, hname, if_pos hbase, hparse]

omit sha256 in
lemma isPrefixOf_toAsciiLower {p : Chars} (hp : toAsciiLower p = p) (rest : Chars) :
    p.isPrefixOf (toAsciiLower (p ++ rest)) = true := by
  rw [List.isPrefixOf_iff_prefix, toAsciiLower, List.map_append]
  exact ⟨rest.map Char.toLower, by rw [show p.map Char.toLower = p from hp]⟩

omit sha256 in
lemma schemeRest_ipp (rest : Chars) : schemeRest ("ipp://".toList ++ rest) = some rest := by
  have hlength : "ipp://".toList.length = 6 := by decide
  rw [schemeRest, if_pos (isPrefixOf_toAsciiLower (by decide) rest), List.drop_left' hlength]

omit sha256 in
/-- The port of an installed queue leads to its destination. -/
lemma printDestination_queueUri {authority : Chars} (hslash : '/' ∉ authority) (server : Chars)
    (printer : PrinterName) :
    (schemeRest (queueUri authority server printer)).bind (printDestination authority)
      = some (destination server printer) := by
  have hprint : ("/ipp/print/".toList : Chars) = '/' :: "ipp/print/".toList := by decide
  have hlength : "/ipp/print/".toList.length = 11 := by decide
  have hsplit : splitOnce (authority ++ queuePath server printer) ['/']
      = some (authority, "ipp/print/".toList ++ destination server printer) := by
    unfold queuePath
    rw [hprint, List.cons_append]
    exact splitOnce_singleton.mpr ⟨rfl, hslash⟩
  have hloopback : isLoopbackAuthority authority authority = true :=
    if_pos (eqIgnoreAsciiCase_self authority)
  have hpath : '/' :: ("ipp/print/".toList ++ destination server printer)
      = "/ipp/print/".toList ++ destination server printer := by
    rw [hprint, List.cons_append]
  have hprefix := isPrefixOf_toAsciiLower (p := "/ipp/print/".toList) (by decide)
    (destination server printer)
  rw [queueUri_eq, List.append_assoc, schemeRest_ipp, Option.bind_some, printDestination, hsplit,
    Option.bind_some]
  simp only [hpath, hloopback, hprefix, Bool.and_self, if_true, List.drop_left' hlength]

omit sha256 in
lemma trim_queueUri (authority server : Chars) (printer : PrinterName) :
    trim (queueUri authority server printer) = queueUri authority server printer := by
  have hipp : ("ipp://".toList : Chars) = ['i', 'p', 'p', ':', '/', '/'] := by decide
  refine trimBoth_of_trimmed ⟨fun c hc => ?_, fun c hc => ?_⟩
  · rw [queueUri_eq, List.append_assoc, hipp] at hc
    obtain rfl := Option.some.inj hc
    decide
  · unfold queueUri at hc
    rw [List.append_cons, List.getLast?_append_of_ne_nil _
      (percentEncode_ne_nil printer.chars_ne_nil)] at hc
    exact isWhitespace_of_mem_percentEncode (List.mem_of_getLast? hc)

omit sha256 in
/-- What a request for a server's address is made of. -/
lemma request_of_parse {input : Chars} {address : ServerAddress} {printer : PrinterName}
    {request : ClientQueueRequest} (haddress : ServerAddress.parse input = .ok address)
    (hrequest : ClientQueueRequest.new address.normalized printer = .ok request) :
    validateAddress address.normalized = .ok () ∧ ∃ expected,
      ClientQueueName.forSharedPrinter printer address.normalized = .ok expected
        ∧ request = ⟨expected, address.normalized, printer⟩ := by
  obtain ⟨hcanonical, hnormalized⟩ := canonical_of_parse haddress
  have htrim : trim address.normalized = address.normalized := by
    rw [hnormalized, hcanonical.trim_withPort]
  have hvalidate : validateAddress address.normalized = .ok () := by
    rw [hnormalized, validateAddress_withPort hcanonical]
  refine ⟨hvalidate, ?_⟩
  unfold ClientQueueRequest.new at hrequest
  simp only [htrim, hvalidate, Except.bind] at hrequest
  cases hexpected : ClientQueueName.forSharedPrinter printer address.normalized with
  | error e =>
      rw [hexpected] at hrequest
      cases hrequest
  | ok expected =>
      rw [hexpected] at hrequest
      exact ⟨expected, rfl, (Except.ok.inj hrequest).symm⟩

omit sha256 in
/-- The URI that a queue is installed with. -/
lemma clientQueueUri_of_parse {input : Chars} {address : ServerAddress}
    (haddress : ServerAddress.parse input = .ok address) (authority : Chars)
    (printer : PrinterName) :
    clientQueueUri authority address.normalized printer.chars
      = .ok (queueUri authority address.normalized printer) := by
  obtain ⟨hcanonical, hnormalized⟩ := canonical_of_parse haddress
  have hserver : normalizeAddress address.normalized = .ok address.normalized := by
    rw [hnormalized, normalizeAddress, parse_withPort hcanonical]
    rfl
  unfold clientQueueUri
  simp only [hserver, PrinterName.parse_chars, Except.bind, Except.map]

/-- A record on the URI of a queue is recognised by it. -/
lemma classify_queueUri {authority server name base : Chars} {printer : PrinterName}
    {queueName expected : ClientQueueName} (hslash : '/' ∉ authority)
    (hserver : validateAddress server = .ok ())
    (hexpected : ClientQueueName.forSharedPrinter printer server = .ok expected)
    (hbase : base = expected.value ∨ base = cupsDestinationFor sha256 printer server)
    (htrim : trim name = name) (hname : (stripTrailingCopySuffix name).getD name = base)
    (hparse : ClientQueueName.parse name = .ok queueName) :
    (SpoolerRecord.mk name (queueUri authority server printer)).classify sha256 authority
      = .recognisedClientQueue ⟨queueName, server, printer⟩ := by
  unfold SpoolerRecord.classify
  simp only [htrim, trim_queueUri, printDestination_queueUri hslash]
  exact classifyDestination_destination sha256 hserver hexpected hbase hname hparse

/-- **An installed queue is recognised.** A record whose port is the URI that a queue is
installed with, and whose name is the queue's name or CUPS destination, or a numbered copy
of it that is itself a valid name, is the client queue of that server and printer. -/
theorem install_recognised {input authority uri base name : Chars} {address : ServerAddress}
    {printer : PrinterName} {request : ClientQueueRequest}
    (haddress : ServerAddress.parse input = .ok address)
    (hrequest : ClientQueueRequest.new address.normalized printer = .ok request)
    (hslash : '/' ∉ authority)
    (huri : clientQueueUri authority address.normalized printer.chars = .ok uri)
    (hbase : base = request.queueName.value ∨ base = request.cupsDestinationName sha256)
    (hcopy : CopyOf base name)
    (hvalid : name = base ∨ ∃ queueName, ClientQueueName.parse name = .ok queueName) :
    ∃ queueName, ClientQueueName.parse name = .ok queueName
      ∧ (SpoolerRecord.mk name uri).classify sha256 authority
        = .recognisedClientQueue ⟨queueName, address.normalized, printer⟩ := by
  obtain ⟨hvalidate, expected, hexpected, rfl⟩ := request_of_parse haddress hrequest
  obtain rfl : uri = queueUri authority address.normalized printer := by
    rw [clientQueueUri_of_parse haddress] at huri
    exact (Except.ok.inj huri).symm
  -- the base of the name is a valid name without a copy suffix
  have hname : base ≠ [] ∧ trim base = base ∧ stripTrailingCopySuffix base = none
      ∧ ∃ queueName, ClientQueueName.parse base = .ok queueName := by
    rcases hbase with rfl | rfl
    · have htext := forSharedPrinter_eq_ok.mp hexpected
      refine ⟨expected.nonempty, expected.trimmed, ?_, expected, ?_⟩
      · exact htext ▸ stripTrailingCopySuffix_queueText printer (space_not_mem_addressLabel _)
      · exact ClientQueueName.parse_eq_ok.mpr expected.trimmed.symm
    · obtain ⟨cups, hcups, hvalue⟩ := parse_cupsDestinationFor sha256 printer address.normalized
      have hne := cups.nonempty
      have htrimmed := cups.trimmed
      rw [hvalue] at hne htrimmed
      exact ⟨hne, htrimmed,
        stripTrailingCopySuffix_cups sha256 printer address.normalized, cups, hcups⟩
  obtain ⟨hne, hbasetrim, hstrip, hparse⟩ := hname
  obtain ⟨queueName, hqueue⟩ : ∃ queueName, ClientQueueName.parse name = .ok queueName := by
    rcases hvalid with rfl | hvalid
    · exact hparse
    · exact hvalid
  exact ⟨queueName, hqueue, classify_queueUri sha256 hslash hvalidate hexpected hbase
    (hcopy.trim_eq hne hbasetrim) (hcopy.baseName hstrip) hqueue⟩

end

/-- The digest of the office printer's queue on `10.0.0.5:48631`. -/
def officeDigest : Bytes → Vector UInt8 32 := fun _ =>
  #v[0x5c, 0x4f, 0x0f, 0x0a, 0x21, 0x48, 0xe8, 0xf2,
    0x72, 0x31, 0x51, 0xd8, 0x12, 0x98, 0x0a, 0x3f,
    0xfd, 0x2a, 0x8a, 0x0f, 0x8b, 0x0c, 0x46, 0x84,
    0xde, 0x8c, 0x67, 0x5c, 0x0c, 0xf3, 0xbe, 0xdf]

def officeServer : ServerAddress := ⟨"10.0.0.5".toList, 48631, "10.0.0.5:48631".toList⟩

def officeRequest : ClientQueueRequest :=
  ⟨⟨"Office Printer (ShaPrint 10.0.0.5-48631)".toList, by decide, by decide, by decide, by decide,
    by decide⟩, "10.0.0.5:48631".toList, officePrinter⟩

def officeCopy : ClientQueueName :=
  ⟨"ShaPrint_Office_Printer_10.0.0.5-48631_5c4f0f0a (Copy 2)".toList, by decide, by decide,
    by decide, by decide, by decide⟩

theorem office_recognised : ∃ queueName,
    ClientQueueName.parse "ShaPrint_Office_Printer_10.0.0.5-48631_5c4f0f0a (Copy 2)".toList
        = .ok queueName
      ∧ (SpoolerRecord.mk "ShaPrint_Office_Printer_10.0.0.5-48631_5c4f0f0a (Copy 2)".toList
          "ipp://127.0.0.1:48632/ipp/print/10.0.0.5%3A48631/Office%20Printer".toList).classify
          officeDigest "127.0.0.1:48632".toList
        = .recognisedClientQueue ⟨queueName, officeServer.normalized, officePrinter⟩ :=
  install_recognised officeDigest
    (by decide : ServerAddress.parse "10.0.0.5:48631".toList = .ok officeServer)
    (by decide : ClientQueueRequest.new officeServer.normalized officePrinter = .ok officeRequest)
    (by decide) (by decide) (.inr rfl)
    (.copy "2".toList (by decide) (by decide) : CopyOf
      "ShaPrint_Office_Printer_10.0.0.5-48631_5c4f0f0a".toList _) (.inr ⟨officeCopy, by decide⟩)

end ShaPrint.Queue
