import ShaPrint.Queue.Recognition

/-!
Recognition against routing: what `SpoolerRecord::classify` recognises by its port, and
what the proxy's `route_uri` does with the same port.

* `schemeRest_eq_some`: the URIs that the classification reads are those with the schemes
  that the proxy accepts.
* `unescape_wellEscaped`: the two percent decoders read well-formed escapes alike.
* `route_never_eligibleLocal`: what the proxy routes is never offered as a local printer.
* `recognised_route_iff`: what becomes of a recognised queue whose port is the proxy's.
-/

namespace ShaPrint.Queue

open Split Digits Client

/-! ### Schemes -/

/-- The schemes that both readers accept. -/
def IsScheme (scheme : Chars) : Prop :=
  toAsciiLower scheme = "ipp".toList ∨ toAsciiLower scheme = "http".toList

lemma toAsciiLower_take {p uri : Chars} (h : p.isPrefixOf (toAsciiLower uri) = true) :
    toAsciiLower (uri.take p.length) = p := by
  obtain ⟨rest, hrest⟩ := List.isPrefixOf_iff_prefix.mp h
  rw [toAsciiLower, List.map_take, show uri.map Char.toLower = p ++ rest from hrest.symm,
    List.take_left']
  rfl

/-- A port that the classification reads as a URI has a scheme that the proxy accepts. -/
lemma schemeRest_eq_some {uri rest : Chars} (h : schemeRest uri = some rest) :
    ∃ scheme, IsScheme scheme ∧ uri = scheme ++ "://".toList ++ rest := by
  have hread : ∀ scheme : Chars, (scheme ++ "://".toList).isPrefixOf (toAsciiLower uri) = true →
      ∃ scheme', toAsciiLower scheme' = scheme
        ∧ uri = scheme' ++ "://".toList ++ uri.drop (scheme ++ "://".toList).length := by
    intro scheme hprefix
    obtain ⟨scheme', sep, htake, hscheme, hsep⟩ :=
      List.map_eq_append_iff.mp (toAsciiLower_take hprefix)
    have hsep : sep = "://".toList := eq_of_toAsciiLower_eq hsep (List.all_iff_forall_prop.mp (by decide))
    refine ⟨scheme', hscheme, ?_⟩
    calc uri = uri.take (scheme ++ "://".toList).length ++ uri.drop (scheme ++ "://".toList).length :=
          (List.take_append_drop _ _).symm
      _ = _ := by rw [htake, hsep]
  unfold schemeRest at h
  split at h
  · rename_i hprefix
    have hipp : ("ipp://".toList : Chars) = "ipp".toList ++ "://".toList := by decide
    have hlength : ("ipp".toList ++ "://".toList).length = 6 := by decide
    rw [hipp] at hprefix
    obtain ⟨scheme, hscheme, huri⟩ := hread _ hprefix
    rw [hlength, Option.some.inj h] at huri
    exact ⟨scheme, .inl hscheme, huri⟩
  · split at h
    · rename_i hprefix
      have hhttp : ("http://".toList : Chars) = "http".toList ++ "://".toList := by decide
      have hlength : ("http".toList ++ "://".toList).length = 7 := by decide
      rw [hhttp] at hprefix
      obtain ⟨scheme, hscheme, huri⟩ := hread _ hprefix
      rw [hlength, Option.some.inj h] at huri
      exact ⟨scheme, .inr hscheme, huri⟩
    · cases h

/-- A URI that the proxy splits at an accepted scheme is read by the classification. -/
lemma schemeRest_scheme {scheme : Chars} (h : IsScheme scheme) (rest : Chars) :
    schemeRest (scheme ++ "://".toList ++ rest) = some rest := by
  have hsep : toAsciiLower "://".toList = "://".toList := by decide
  have hlower : toAsciiLower (scheme ++ "://".toList ++ rest)
      = (toAsciiLower scheme ++ "://".toList) ++ toAsciiLower rest := by
    rw [toAsciiLower, List.map_append, List.map_append]
    exact congrArg (fun t => scheme.map Char.toLower ++ t ++ rest.map Char.toLower) hsep
  have hlength : scheme.length = (toAsciiLower scheme).length := (List.length_map _).symm
  have hdrop : (scheme ++ "://".toList ++ rest).drop (scheme ++ "://".toList).length = rest :=
    List.drop_left
  rw [List.length_append] at hdrop
  unfold schemeRest
  rw [hlower]
  rcases h with h | h
  · have hipp : "ipp://".toList.isPrefixOf (("ipp".toList ++ "://".toList) ++ toAsciiLower rest)
        = true := by
      rw [List.isPrefixOf_iff_prefix]
      exact ⟨_, rfl⟩
    have hsix : "ipp".toList.length + "://".toList.length = 6 := by decide
    rw [hlength, h, hsix] at hdrop
    rw [h, if_pos hipp, hdrop]
  · have hipp : "ipp://".toList.isPrefixOf (("http".toList ++ "://".toList) ++ toAsciiLower rest)
        = false := rfl
    have hhttp : "http://".toList.isPrefixOf (("http".toList ++ "://".toList) ++ toAsciiLower rest)
        = true := by
      rw [List.isPrefixOf_iff_prefix]
      exact ⟨_, rfl⟩
    have hseven : "http".toList.length + "://".toList.length = 7 := by decide
    rw [hlength, h, hseven] at hdrop
    rw [h, hipp, if_neg (by decide), if_pos hhttp, hdrop]

lemma IsScheme.no_colon {scheme : Chars} (h : IsScheme scheme) : ':' ∉ scheme := by
  intro hmem
  have hlower : ':' ∈ toAsciiLower scheme := List.mem_map.mpr ⟨':', hmem, by decide⟩
  rcases h with h | h
  · rw [h] at hlower
    exact absurd hlower (by decide)
  · rw [h] at hlower
    exact absurd hlower (by decide)

/-! ### Authorities -/

/-- The hosts that the proxy takes for itself. -/
def IsOwnHost (host : Chars) : Prop :=
  eqIgnoreAsciiCase host "localhost".toList = true ∨ host = "127.0.0.1".toList

lemma colon_not_mem_of_parsePort {text : Chars} {n : ℕ} (h : parsePort text = some n) :
    ':' ∉ text := by
  intro hmem
  rcases (parseUnsigned_eq_some h).2.2 ':' hmem with h | h
  · exact absurd h (by decide)
  · exact absurd h (by decide)

lemma IsOwnHost.head {host : Chars} (h : IsOwnHost host) : host ≠ [] ∧ host.head? ≠ some '[' := by
  rcases h with h | rfl
  · have hlower := eqIgnoreAsciiCase_iff.mp h
    cases host with
    | nil => exact absurd hlower (by decide)
    | cons c host =>
        refine ⟨List.cons_ne_nil _ _, ?_⟩
        rintro hhead
        obtain rfl := Option.some.inj hhead
        have hfirst : some '['.toLower = (toAsciiLower "localhost".toList).head? :=
          congrArg List.head? hlower
        exact absurd hfirst (by decide)
  · decide

lemma IsOwnHost.no_colon {host : Chars} (h : IsOwnHost host) : ':' ∉ host := by
  rcases h with h | rfl
  · intro hmem
    have hlower : ':' ∈ toAsciiLower host := List.mem_map.mpr ⟨':', hmem, by decide⟩
    rw [eqIgnoreAsciiCase_iff.mp h] at hlower
    exact absurd hlower (by decide)
  · decide

lemma isLoopbackHost_iff {host : Chars} :
    isLoopbackHost host = true ↔ IsOwnHost host ∨ host = "::1".toList := by
  have hipv4 : eqIgnoreAsciiCase host "127.0.0.1".toList = true ↔ host = "127.0.0.1".toList := by
    rw [eqIgnoreAsciiCase_iff]
    constructor
    · intro h
      exact eq_of_toAsciiLower_eq (h.trans (by decide)) (List.all_iff_forall_prop.mp (by decide))
    · rintro rfl
      rfl
  unfold isLoopbackHost IsOwnHost
  rw [Bool.or_eq_true, Bool.or_eq_true, beq_iff_eq, hipv4, @or_comm (host = _)]

/-- An authority that carries a port is split at its last colon. -/
lemma hostAndPort_of_proxyPort {authority : Chars} {n : ℕ} (h : proxyPort authority = some n) :
    ∃ host text, authority = host ++ ':' :: text ∧ parsePort text = some n
      ∧ hostAndPort authority = .ok (host, some n) := by
  unfold proxyPort at h
  obtain ⟨⟨host, text⟩, hsplit, hport⟩ := Option.bind_eq_some_iff.mp h
  refine ⟨host, text, (rsplitOnce_singleton.mp hsplit).1, hport, ?_⟩
  rw [hostAndPort, hsplit]
  simp only [show parsePort text = some n from hport]

/-- Of the loopback authorities with a port, the proxy accepts those without brackets. -/
lemma isOwnHost_iff {authority host text : Chars} {n : ℕ} {port : UInt16}
    (hloopback : isLoopbackAuthority authority (loopbackAuthority port) = true)
    (hauthority : authority = host ++ ':' :: text) (hport : parsePort text = some n) :
    IsOwnHost host ↔ authority.head? ≠ some '[' := by
  have hcolon := colon_not_mem_of_parsePort hport
  constructor
  · intro h
    rw [hauthority, List.head?_append_of_ne_nil _ h.head.1]
    exact h.head.2
  · intro hbracket
    unfold isLoopbackAuthority at hloopback
    split at hloopback
    · -- the proxy's own authority
      rename_i hself
      have hdigit : ∀ c ∈ loopbackAuthority port, c.isLower = false ∧ c.toLower = c := by
        intro c hc
        unfold loopbackAuthority at hc
        rcases List.mem_append.mp hc with hc | hc
        · have hall : ∀ x ∈ "127.0.0.1:".toList, x.isLower = false ∧ x.toLower = x :=
            List.all_iff_forall_prop.mp (by decide)
          exact hall c hc
        · obtain ⟨d, hd, rfl⟩ := exists_digitChar_of_mem_toDigits (by decide) hc
          have hall : ∀ d < 10, d.digitChar.isLower = false ∧ d.digitChar.toLower = d.digitChar := by
            decide
          exact hall d hd
      have hlower : toAsciiLower (loopbackAuthority port) = loopbackAuthority port := by
        rw [toAsciiLower, List.map_congr_left fun c hc => (hdigit c hc).2, List.map_id']
      have hsame : authority = loopbackAuthority port :=
        eq_of_toAsciiLower_eq ((eqIgnoreAsciiCase_iff.mp hself).trans hlower)
          fun c hc => (hdigit c hc).1
      rw [hauthority, loopbackAuthority_eq] at hsame
      obtain ⟨rfl, -⟩ := append_cons_inj hsame hcolon fun h =>
        absurd (isDigit_of_mem_decimal h) (by decide)
      exact .inr rfl
    · -- a loopback host, split at the first colon
      have hdrop : authority.dropPrefix? ['['] = none := by
        rw [dropPrefix?_eq_none]
        rintro ⟨rest, hrest⟩
        exact hbracket (by rw [← hrest]; rfl)
      obtain ⟨p, hfirst⟩ : ∃ p, splitOnce authority [':'] = some p := by
        rw [← Option.isSome_iff_exists, splitOnce_isSome_iff, singleton_infix_iff, hauthority]
        exact List.mem_append_right _ List.mem_cons_self
      obtain ⟨first, rest⟩ := p
      obtain ⟨hparts, hnone⟩ := splitOnce_singleton.mp hfirst
      rw [authorityParts, hdrop] at hloopback
      simp only [hfirst, Option.getD_some, Bool.and_eq_true, Bool.or_eq_true, decide_eq_true_eq]
        at hloopback
      obtain ⟨hhost, hrest⟩ := hloopback
      have hrestcolon : ':' ∉ rest := by
        rcases hrest with rfl | hrest
        · exact List.not_mem_nil
        · obtain ⟨m, hm⟩ := Option.isSome_iff_exists.mp hrest
          exact colon_not_mem_of_parsePort hm
      obtain ⟨rfl, -⟩ := append_cons_inj (hauthority.symm.trans hparts) hcolon hrestcolon
      rcases isLoopbackHost_iff.mp hhost with hown | rfl
      · exact hown
      · exact absurd (by decide : ':' ∈ "::1".toList) hnone

/-- What the proxy accepts for an authority, the classification takes for loopback. -/
lemma isLoopbackAuthority_of_hostAndPort {authority proxyAuthority host : Chars}
    {port : Option ℕ} (h : hostAndPort authority = .ok (host, port)) (hhost : IsOwnHost host) :
    isLoopbackAuthority authority proxyAuthority = true := by
  have hparts : ∃ text, authorityParts authority = some (host, text)
      ∧ (text = [] ∨ (parsePort text).isSome = true) := by
    have hbracket : authority.head? ≠ some '[' → authority.dropPrefix? ['['] = none := by
      intro hhead
      rw [dropPrefix?_eq_none]
      rintro ⟨rest, hrest⟩
      exact hhead (by rw [← hrest]; rfl)
    unfold hostAndPort at h
    split at h
    · rename_i host' text hsplit
      split at h
      · rename_i n hn
        obtain ⟨rfl, -⟩ := Prod.mk.inj (Except.ok.inj h)
        have hauthority := (rsplitOnce_singleton.mp hsplit).1
        have hhead : authority.head? ≠ some '[' := by
          rw [hauthority, List.head?_append_of_ne_nil _ hhost.head.1]
          exact hhost.head.2
        have hfirst : splitOnce authority [':'] = some (host', text) :=
          splitOnce_singleton.mpr ⟨hauthority, hhost.no_colon⟩
        refine ⟨text, ?_, .inr (by rw [hn]; rfl)⟩
        rw [authorityParts, hbracket hhead, hfirst]
        rfl
      · cases h
    · obtain ⟨rfl, -⟩ := Prod.mk.inj (Except.ok.inj h)
      have hfirst : splitOnce authority [':'] = none := splitOnce_singleton_none.mpr hhost.no_colon
      refine ⟨[], ?_, .inl rfl⟩
      rw [authorityParts, hbracket hhost.head.2, hfirst]
      rfl
  obtain ⟨text, hparts, htext⟩ := hparts
  unfold isLoopbackAuthority
  rw [hparts]
  split
  · rfl
  · simp only [isLoopbackHost_iff.mpr (.inl hhost), Bool.true_and, Bool.or_eq_true,
      decide_eq_true_eq]
    exact htext

/-! ### Destinations -/

/-- A port with a scheme is classified by its destination, or as a local printer. -/
lemma classify_of_schemeRest (sha256 : Bytes → Vector UInt8 32) {record : SpoolerRecord}
    {rest : Chars} (h : schemeRest (trim record.port) = some rest) (proxyAuthority : Chars) :
    record.classify sha256 proxyAuthority
      = ((printDestination proxyAuthority rest).map
          (classifyDestination sha256 (trim record.name))).getD
          (classifyLocal (trim record.name) (trim record.port) proxyAuthority) := by
  have hwsd : "wsd-".toList.isPrefixOf (toAsciiLower (trim record.port)) = false := by
    obtain ⟨scheme, hscheme, huri⟩ := schemeRest_eq_some h
    have hcons : ("wsd-".toList : Chars) = ['w', 's', 'd', '-'] := by decide
    have hipp : ("ipp".toList : Chars) = ['i', 'p', 'p'] := by decide
    have hhttp : ("http".toList : Chars) = ['h', 't', 't', 'p'] := by decide
    have hlower : toAsciiLower (trim record.port)
        = toAsciiLower scheme ++ toAsciiLower ("://".toList ++ rest) := by
      rw [huri, List.append_assoc, toAsciiLower, List.map_append]
      rfl
    rw [hlower, hcons]
    rcases hscheme with hscheme | hscheme
    · rw [hscheme, hipp]
      rfl
    · rw [hscheme, hhttp]
      rfl
  unfold SpoolerRecord.classify
  simp only [h, Option.bind_some, hwsd, Bool.false_eq_true, if_false]
  cases printDestination proxyAuthority rest with
  | none => rfl
  | some remainder => rfl

lemma classifyLocal_ne_recognised (nameTrimmed portTrimmed proxyAuthority : Chars)
    (queue : RecognisedClientQueue) :
    classifyLocal nameTrimmed portTrimmed proxyAuthority ≠ .recognisedClientQueue queue := by
  unfold classifyLocal
  dsimp only
  split
  · simp
  · split
    · simp
    · simp

/-- What is recognised at a destination, or that nothing is. -/
lemma classifyDestination_cases (sha256 : Bytes → Vector UInt8 32) (nameTrimmed remainder : Chars) :
    classifyDestination sha256 nameTrimmed remainder = .ambiguousClientQueue
      ∨ ∃ queue server printer, classifyDestination sha256 nameTrimmed remainder
          = .recognisedClientQueue queue
        ∧ remainder.splitOn '/' = [server, printer] ∧ server ≠ [] ∧ printer ≠ []
        ∧ queue.serverAddress = percentDecode server
        ∧ PrinterName.parse (.ofList (percentDecode printer)) = .ok queue.printerName := by
  unfold classifyDestination
  split
  · rename_i server printer hsegments
    split
    · exact .inl rfl
    rename_i hne
    rw [not_or] at hne
    dsimp only
    split
    · exact .inl rfl
    split
    · exact .inl rfl
    rename_i printerName hprinter
    split
    · exact .inl rfl
    split
    · split
      · exact .inl rfl
      · exact .inr ⟨_, server, printer, rfl, hsegments, hne.1, hne.2, rfl, hprinter⟩
    · exact .inl rfl
  · exact .inl rfl

/-- The destination follows the first ten characters of the path. -/
lemma printDestination_eq_some {proxyAuthority rest authority path remainder : Chars}
    (hsplit : splitOnce rest ['/'] = some (authority, path))
    (h : printDestination proxyAuthority rest = some remainder) :
    isLoopbackAuthority authority proxyAuthority = true ∧ remainder = path.drop 10
      ∧ toAsciiLower (path.take 10) = "ipp/print/".toList := by
  unfold printDestination at h
  rw [hsplit, Option.bind_some] at h
  dsimp only at h
  split at h
  · rename_i hcheck
    rw [Bool.and_eq_true] at hcheck
    have htake := toAsciiLower_take hcheck.2
    have hlength : "/ipp/print/".toList.length = 10 + 1 := by decide
    have hprint : ("/ipp/print/".toList : Chars) = '/' :: "ipp/print/".toList := by decide
    rw [hlength, List.take_succ_cons, hprint] at htake
    exact ⟨hcheck.1, (Option.some.inj h).symm, (List.cons.inj htake).2⟩
  · cases h

/-! ### The proxy's reading -/

/-- What the proxy makes of a URI that the classification reads. -/
lemma routeUri_scheme {scheme rest authority path proxyAuthority host : Chars} {n : ℕ}
    (hscheme : IsScheme scheme) (hsplit : splitOnce rest ['/'] = some (authority, path))
    (hhost : hostAndPort authority = .ok (host, some n)) (hport : proxyPort proxyAuthority = some n) :
    routeUri (scheme ++ "://".toList ++ rest) proxyAuthority
      = if !eqIgnoreAsciiCase host "localhost".toList && host ≠ "127.0.0.1".toList then
          .error notThisProxy
        else routePath path := by
  have hipp : toAsciiLower "ipp".toList = "ipp".toList := by decide
  have hhttp : toAsciiLower "http".toList = "http".toList := by decide
  have haccepted : (!eqIgnoreAsciiCase scheme "ipp".toList
      && !eqIgnoreAsciiCase scheme "http".toList) = false := by
    rcases hscheme with h | h
    · rw [eqIgnoreAsciiCase_iff.mpr (h.trans hipp.symm)]
      rfl
    · rw [eqIgnoreAsciiCase_iff.mpr (h.trans hhttp.symm), Bool.not_true, Bool.and_false]
  unfold routeUri
  rw [Endpoint.splitOnce_scheme hscheme.no_colon]
  simp only [haccepted, Bool.false_eq_true, if_false, hsplit, hhost, Except.bind, hport,
    Option.any_some, ne_eq, not_true_eq_false, decide_false]

lemma isOwnHost_iff_accepted {host : Chars} :
    (!eqIgnoreAsciiCase host "localhost".toList && host ≠ "127.0.0.1".toList) = false
      ↔ IsOwnHost host := by
  unfold IsOwnHost
  rw [Bool.and_eq_false_iff, Bool.not_eq_false', decide_eq_false_iff_not, not_not]

/-- What the proxy accepts, the classification reads as a destination. -/
lemma printDestination_of_routeUri {uri proxyAuthority : Chars} {route : Chars × PrinterName}
    (h : routeUri uri proxyAuthority = .ok route) :
    ∃ rest remainder, schemeRest uri = some rest
      ∧ printDestination proxyAuthority rest = some remainder := by
  unfold routeUri at h
  split at h
  · cases h
  rename_i scheme rest hscheme
  split at h
  · cases h
  rename_i haccepted
  split at h
  · cases h
  rename_i authority path hsplit
  cases hhost : hostAndPort authority with
  | error e =>
      rw [hhost] at h
      cases h
  | ok parts =>
      obtain ⟨host, uriPort⟩ := parts
      rw [hhost] at h
      dsimp only [Except.bind] at h
      split at h
      · cases h
      rename_i hown
      split at h
      · cases h
      unfold routePath at h
      split at h
      · cases h
      rename_i route' hroute
      have hown : IsOwnHost host := isOwnHost_iff_accepted.mp (Bool.eq_false_of_not_eq_true hown)
      have hscheme' : IsScheme scheme := by
        have hipp : toAsciiLower "ipp".toList = "ipp".toList := by decide
        have hhttp : toAsciiLower "http".toList = "http".toList := by decide
        rw [Bool.and_eq_true, not_and_or, Bool.not_eq_true, Bool.not_eq_true, Bool.not_eq_false',
          Bool.not_eq_false', eqIgnoreAsciiCase_iff, eqIgnoreAsciiCase_iff, hipp, hhttp] at haccepted
        exact haccepted
      have huri := (splitOnce_eq_some.mp hscheme).1
      refine ⟨rest, path.drop 10, huri ▸ schemeRest_scheme hscheme' rest, ?_⟩
      -- the path before the query begins with the print path, so the whole path does
      have hpath : ∃ more, path = "ipp/print/".toList ++ more := by
        obtain ⟨query, hquery⟩ : cutQuery path <+: path := List.takeWhile_prefix _
        rw [dropPrefix?_eq_some.mp hroute] at hquery
        exact ⟨route' ++ query, by rw [← hquery, List.append_assoc]⟩
      obtain ⟨more, hmore⟩ := hpath
      have hprint : '/' :: path = "/ipp/print/".toList ++ more := by
        rw [hmore, show ("/ipp/print/".toList : Chars) = '/' :: "ipp/print/".toList by decide,
          List.cons_append]
      have hprefix : "/ipp/print/".toList.isPrefixOf (toAsciiLower ('/' :: path)) = true := by
        rw [hprint]
        exact isPrefixOf_toAsciiLower (by decide) more
      unfold printDestination
      rw [hsplit, Option.bind_some]
      simp only [isLoopbackAuthority_of_hostAndPort hhost hown, hprefix, Bool.and_self, if_true]
      rfl

/-- A print path in another letter case is not the proxy's. -/
lemma dropPrefix?_print {path : Chars} (h : toAsciiLower (path.take 10) = "ipp/print/".toList) :
    path.dropPrefix? "ipp/print/".toList
      = if "ipp/print/".toList <+: path then some (path.drop 10) else none := by
  have hlength : "ipp/print/".toList.length = 10 := by decide
  split
  · rename_i hprefix
    obtain ⟨rest, rfl⟩ := hprefix
    rw [List.drop_left' hlength]
    exact dropPrefix?_eq_some.mpr rfl
  · rename_i hprefix
    exact dropPrefix?_eq_none.mpr hprefix

lemma eq_append_of_splitOn {remainder server printer : Chars}
    (h : remainder.splitOn '/' = [server, printer]) : remainder = server ++ '/' :: printer := by
  have hjoin : ['/'].intercalate (remainder.splitOn '/') = remainder :=
    List.intercalate_splitOn '/'
  rw [h] at hjoin
  rw [← hjoin]
  simp [List.intercalate, List.intersperse]

lemma percentDecode_wellEscaped {value : Chars} (h : wellEscaped (utf8 value) = true) :
    percentDecode value = ShaPrint.percentDecode value := by
  rw [percentDecode, ShaPrint.percentDecode, unescape_wellEscaped h]

/-- The segments of a well-escaped path are well escaped. -/
lemma wellEscaped_segments {path server printer : Chars}
    (h : wellEscaped (utf8 path) = true) (hten : toAsciiLower (path.take 10) = "ipp/print/".toList)
    (hdrop : path.drop 10 = server ++ '/' :: printer) :
    wellEscaped (utf8 server) = true ∧ wellEscaped (utf8 printer) = true := by
  have hcut : ∀ a b : Chars, wellEscaped (utf8 (a ++ '/' :: b)) = true →
      wellEscaped (utf8 a) = true ∧ wellEscaped (utf8 b) = true := by
    intro a b hab
    have hslash : utf8 (a ++ '/' :: b) = utf8 a ++ 0x2f :: utf8 b := by
      unfold utf8
      rw [Utf8.encode_append, Utf8.encode_cons]
      rfl
    rw [hslash] at hab
    exact wellEscaped_append hab
  -- the tenth character is a slash
  obtain ⟨front, slash, hfront, -, hslash⟩ := List.map_eq_append_iff.mp
    (hten.trans (by decide : "ipp/print/".toList = "ipp/print".toList ++ ['/']))
  have hslash : slash = ['/'] := eq_of_toAsciiLower_eq hslash (List.all_iff_forall_prop.mp (by decide))
  have hpath : path = front ++ '/' :: (server ++ '/' :: printer) := by
    calc path = path.take 10 ++ path.drop 10 := (List.take_append_drop _ _).symm
      _ = front ++ '/' :: (server ++ '/' :: printer) := by
        rw [hfront, hdrop, hslash, List.append_assoc, List.singleton_append]
  rw [hpath] at h
  exact hcut _ _ (hcut _ _ h).2

/-- **Recognition and routing.** What the proxy routes is never offered as a local printer.
A recognised queue whose port carries the proxy's own port, without query and fragment and
with well-formed escapes, is routed to its printer and to the canonical form of its server,
exactly if the authority has no brackets, the print path is in lower case, and the server
has a canonical form. -/
theorem recognition_routing (sha256 : Bytes → Vector UInt8 32) (record : SpoolerRecord)
    (port : UInt16) :
    (∀ route, routeUri (trim record.port) (loopbackAuthority port) = .ok route →
        ∀ name, record.classify sha256 (loopbackAuthority port) ≠ .eligibleLocal name)
      ∧ ∀ queue rest authority path,
        record.classify sha256 (loopbackAuthority port) = .recognisedClientQueue queue →
        schemeRest (trim record.port) = some rest →
        splitOnce rest ['/'] = some (authority, path) →
        proxyPort authority = some port.toNat →
        '?' ∉ path → '#' ∉ path → wellEscaped (utf8 path) = true →
        ∀ server printer,
          routeUri (trim record.port) (loopbackAuthority port) = .ok (server, printer)
            ↔ authority.head? ≠ some '[' ∧ "ipp/print/".toList <+: path
              ∧ normalizeAddress queue.serverAddress = .ok server
              ∧ printer = queue.printerName := by
  constructor
  · intro route hroute name
    obtain ⟨rest, remainder, hrest, hremainder⟩ := printDestination_of_routeUri hroute
    rw [classify_of_schemeRest sha256 hrest, hremainder, Option.map_some, Option.getD_some]
    rcases classifyDestination_cases sha256 (trim record.name) remainder with h | ⟨queue, _, _, h, -⟩
    · rw [h]
      simp
    · rw [h]
      simp
  · intro queue rest authority path hclassify hrest hsplit hport hquery hfragment hescaped server
      printer
    rw [classify_of_schemeRest sha256 hrest] at hclassify
    cases hprint : printDestination (loopbackAuthority port) rest with
    | none =>
        rw [hprint, Option.map_none, Option.getD_none] at hclassify
        exact absurd hclassify (classifyLocal_ne_recognised _ _ _ _)
    | some remainder =>
        rw [hprint, Option.map_some, Option.getD_some] at hclassify
        obtain ⟨hloopback, rfl, hten⟩ := printDestination_eq_some hsplit hprint
        rcases classifyDestination_cases sha256 (trim record.name) (path.drop 10) with
          h | ⟨queue', server', printer', h, hsegments, hserver, hprinter, hqueue, hname⟩
        · rw [h] at hclassify
          cases hclassify
        rw [h] at hclassify
        obtain rfl : queue' = queue := by
          injection hclassify
        obtain ⟨hserverEscaped, hprinterEscaped⟩ :=
          wellEscaped_segments hescaped hten (eq_append_of_splitOn hsegments)
        rw [percentDecode_wellEscaped hserverEscaped] at hqueue
        rw [percentDecode_wellEscaped hprinterEscaped] at hname
        obtain ⟨host, text, hauthority, htext, hhost⟩ := hostAndPort_of_proxyPort hport
        have hown := isOwnHost_iff hloopback hauthority htext
        obtain ⟨scheme, hscheme, huri⟩ := schemeRest_eq_some hrest
        rw [huri, routeUri_scheme hscheme hsplit hhost (proxyPort_loopbackAuthority port),
          routePath, cutQuery_eq_self hquery hfragment, dropPrefix?_print hten]
        by_cases hbracket : authority.head? ≠ some '['
        · rw [isOwnHost_iff_accepted.mpr (hown.mpr hbracket), if_neg (by decide)]
          by_cases hprefix : "ipp/print/".toList <+: path
          · rw [if_pos hprefix]
            dsimp only
            rw [parseRoute_of_splitOn hsegments hserver hprinter, ← hqueue, hname]
            cases hnormalize : normalizeAddress queue'.serverAddress with
            | error e => simp [Except.bind]
            | ok address =>
                simp only [Except.bind, Except.map, Except.ok.injEq, Prod.mk.injEq, hbracket,
                  hprefix, ne_eq, not_false_eq_true, true_and, eq_comm (a := printer)]
          · rw [if_neg hprefix]
            exact iff_of_false (fun h => by cases h) fun h => hprefix h.2.1
        · have hnot := mt isOwnHost_iff_accepted.mp (mt hown.mp hbracket)
          rw [Bool.not_eq_false] at hnot
          rw [hnot, if_pos rfl]
          exact iff_of_false (fun h => by cases h) fun h => hbracket h.1

/-- A queue installed under another name of the loopback host. -/
def localhostRecord : SpoolerRecord :=
  ⟨"Office Printer (ShaPrint 10.0.0.5-48631)".toList,
    "http://localhost:48632/ipp/print/10.0.0.5%3A48631/Office%20Printer".toList⟩

def officeRecognised : RecognisedClientQueue :=
  ⟨officeRequest.queueName, "10.0.0.5:48631".toList, officePrinter⟩

theorem localhostRecord_routed :
    routeUri (trim localhostRecord.port) (loopbackAuthority 48632)
        = .ok ("10.0.0.5:48631".toList, officePrinter)
      ↔ "localhost:48632".toList.head? ≠ some '['
        ∧ "ipp/print/".toList <+: "ipp/print/10.0.0.5%3A48631/Office%20Printer".toList
        ∧ normalizeAddress officeRecognised.serverAddress = .ok "10.0.0.5:48631".toList
        ∧ officePrinter = officeRecognised.printerName :=
  (recognition_routing officeDigest localhostRecord 48632).2 officeRecognised
    "localhost:48632/ipp/print/10.0.0.5%3A48631/Office%20Printer".toList "localhost:48632".toList
    "ipp/print/10.0.0.5%3A48631/Office%20Printer".toList (by decide +kernel) (by decide)
    (by decide) (by decide) (by decide) (by decide) (by decide) "10.0.0.5:48631".toList officePrinter

/-- A queue on the IPv6 loopback address is recognised, but the proxy does not route it. -/
theorem ipv6_loopback_recognised_not_routed :
    (SpoolerRecord.mk "Office Printer (ShaPrint 10.0.0.5-48631)".toList
          "ipp://[::1]:48632/ipp/print/10.0.0.5%3A48631/Office%20Printer".toList).classify
          officeDigest (loopbackAuthority 48632) = .recognisedClientQueue officeRecognised
      ∧ proxyPort "[::1]:48632".toList = proxyPort (loopbackAuthority 48632)
      ∧ routeUri "ipp://[::1]:48632/ipp/print/10.0.0.5%3A48631/Office%20Printer".toList
        (loopbackAuthority 48632) = .error notThisProxy := by
  decide +kernel

end ShaPrint.Queue
