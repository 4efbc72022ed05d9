import ShaPrint.Domain.Printer
import ShaPrint.Uri.Percent

/-!
How the sharing endpoint addresses a printer: the advertised URI and the lookup of
`adapters/ipps/endpoint.rs`.

* `entry`: the advertisement of a shared queue.
* `findByUri`, `findByName`: the lookups. Names are compared without regard to ASCII
  letter case, and the first match of the selection wins.
* `findByUri_ippUri`: a URI of the advertised form is looked up by the name it encodes.
* `advertised_resolves_iff`: the advertised URI of a printer leads back to it unless an
  earlier printer of the selection differs from it only in letter case.
-/

namespace ShaPrint.Endpoint

open Split

/-- What the endpoint tells clients about a printer. -/
structure PrinterEntry where
  name : Chars
  uri : Chars
  acceptingJobs : Bool
  deriving DecidableEq

/-- `ipps://{authority}/ipp/print/{name}`, with the name encoded. -/
def ippUri (authority name : Chars) : Chars :=
  "ipps://".toList ++ authority ++ "/ipp/print/".toList ++ percentEncode name

/-- The advertisement for one shared queue. -/
def entry (host : Chars) (name : PrinterName) (acceptingJobs : Bool) : PrinterEntry :=
  ⟨name.chars, ippUri host name.chars, acceptingJobs⟩

def ippsAuthorityAndPath (uri : Chars) : Option (Chars × Chars) :=
  (splitOnce uri "://".toList).bind fun (scheme, remainder) =>
    if !eqIgnoreAsciiCase scheme "ipps".toList then none
    else (splitOnce remainder ['/']).bind fun (authority, path) =>
      if authority ≠ [] ∧ path ≠ [] then some (authority, path) else none

def findByName (shared : List PrinterName) (requested : Chars) : Option PrinterName :=
  shared.find? fun printer => eqIgnoreAsciiCase printer.chars requested

/-- Finds a queue only when the request URI identifies its advertised authority and path. -/
def findByUri (shared : List PrinterName) (host requested : Chars) : Option PrinterName :=
  (ippsAuthorityAndPath requested).bind fun (authority, path) =>
    if !eqIgnoreAsciiCase authority host then none
    else (path.dropPrefix? "ipp/print/".toList).bind fun encodedName =>
      findByName shared (percentDecode encodedName)

/-! ### URIs of the advertised form -/

/-- A scheme without a colon is read off a URI. -/
lemma splitOnce_scheme {scheme rest : Chars} (h : ':' ∉ scheme) :
    splitOnce (scheme ++ "://".toList ++ rest) "://".toList = some (scheme, rest) := by
  rw [splitOnce_eq_some]
  refine ⟨rfl, fun p' s' heq => ?_⟩
  by_contra hlt
  -- the separator would begin inside the scheme
  rw [List.append_assoc, List.append_assoc, List.append_eq_append_iff] at heq
  rcases heq with ⟨x, rfl, hx⟩ | ⟨x, rfl, hx⟩
  · simp at hlt
  · cases x with
    | nil => simp at hlt
    | cons c x =>
        have hsep : ("://".toList : Chars) = [':', '/', '/'] := by decide
        rw [hsep, List.cons_append, List.cons_append] at hx
        obtain ⟨rfl, -⟩ := List.cons.inj hx
        simp at h

lemma ippsAuthorityAndPath_ippUri {authority : Chars} (name : Chars) (hne : authority ≠ [])
    (hslash : '/' ∉ authority) :
    ippsAuthorityAndPath (ippUri authority name)
      = some (authority, "ipp/print/".toList ++ percentEncode name) := by
  have huri : ippUri authority name = "ipps".toList ++ "://".toList
      ++ (authority ++ '/' :: ("ipp/print/".toList ++ percentEncode name)) := by
    have hscheme : ("ipps://".toList : Chars) = "ipps".toList ++ "://".toList := by decide
    have hpath : ("/ipp/print/".toList : Chars) = '/' :: "ipp/print/".toList := by decide
    unfold ippUri
    simp only [hscheme, hpath, List.append_assoc, List.cons_append]
  have hself : eqIgnoreAsciiCase "ipps".toList "ipps".toList = true := eqIgnoreAsciiCase_self _
  have hpath : "ipp/print/".toList ++ percentEncode name ≠ [] :=
    List.append_ne_nil_of_left_ne_nil (by decide) _
  rw [ippsAuthorityAndPath, huri, splitOnce_scheme (by decide), Option.bind_some]
  simp only [hself, Bool.not_true, Bool.false_eq_true, if_false,
    splitOnce_singleton.mpr ⟨rfl, hslash⟩, Option.bind_some]
  rw [if_pos ⟨hne, hpath⟩]

/-- A URI of the advertised form for the endpoint's authority is looked up by its name. -/
theorem findByUri_ippUri (shared : List PrinterName) {authority host : Chars} (name : Chars)
    (hne : authority ≠ []) (hslash : '/' ∉ authority)
    (hhost : eqIgnoreAsciiCase authority host = true) :
    findByUri shared host (ippUri authority name) = findByName shared name := by
  have hdrop : ("ipp/print/".toList ++ percentEncode name).dropPrefix? "ipp/print/".toList
      = some (percentEncode name) := dropPrefix?_eq_some.mpr rfl
  rw [findByUri, ippsAuthorityAndPath_ippUri name hne hslash, Option.bind_some]
  simp only [hhost, Bool.not_true, Bool.false_eq_true, if_false, hdrop, Option.bind_some,
    percentDecode_percentEncode]

/-! ### Lookup by name -/

/-- A lookup finds a member of the selection whose name agrees up to letter case. -/
lemma findByName_eq_some {shared : List PrinterName} {requested : Chars} {name : PrinterName}
    (h : findByName shared requested = some name) :
    name ∈ shared ∧ eqIgnoreAsciiCase name.chars requested = true :=
  ⟨List.mem_of_find?_eq_some h, List.find?_some (p := fun printer : PrinterName =>
    eqIgnoreAsciiCase printer.chars requested) h⟩

/-- A member is found by its own name unless an earlier one has it up to letter case. -/
lemma findByName_self_iff {shared : List PrinterName} {name : PrinterName} (h : name ∈ shared) :
    findByName shared name.chars = some name
      ↔ ∀ other ∈ shared.takeWhile (· ≠ name),
        eqIgnoreAsciiCase other.chars name.chars = false := by
  induction shared with
  | nil => cases h
  | cons first shared ih =>
      by_cases hfirst : first = name
      · subst hfirst
        have hself := eqIgnoreAsciiCase_self first.chars
        simp [findByName, hself]
      · have hmem : name ∈ shared := (List.mem_cons.mp h).resolve_left (Ne.symm hfirst)
        rw [List.takeWhile_cons_of_pos (by simpa using hfirst), List.forall_mem_cons, ← ih hmem]
        unfold findByName
        rw [List.find?_cons]
        cases hsame : eqIgnoreAsciiCase first.chars name.chars with
        | true => simp [hfirst]
        | false => simp

/-- **Addressability.** The URI advertised for a shared printer resolves to that printer
exactly if no printer selected before it has the same name up to ASCII letter case. So
every shared printer has its own address exactly if no two names differ only in case. -/
theorem advertised_resolves_iff (shared : SharedPrinters) {host : Chars} (hne : host ≠ [])
    (hslash : '/' ∉ host) (acceptingJobs : Bool) :
    (∀ name ∈ shared.names,
        (findByUri shared.names host (entry host name acceptingJobs).uri = some name
          ↔ ∀ other ∈ shared.names.takeWhile (· ≠ name),
            eqIgnoreAsciiCase other.chars name.chars = false))
      ∧ ((∀ name ∈ shared.names,
          findByUri shared.names host (entry host name acceptingJobs).uri = some name)
        ↔ ∀ name ∈ shared.names, ∀ other ∈ shared.names,
          eqIgnoreAsciiCase other.chars name.chars = true → other = name) := by
  have hfind : ∀ name : PrinterName,
      findByUri shared.names host (entry host name acceptingJobs).uri
        = findByName shared.names name.chars := fun name =>
    findByUri_ippUri shared.names name.chars hne hslash (eqIgnoreAsciiCase_self host)
  refine ⟨fun name hname => ?_, ?_⟩
  · rw [hfind]
    exact findByName_self_iff hname
  · constructor
    · intro hall name hname other hother hsame
      -- the two names are looked up alike
      have hlookup : findByName shared.names other.chars = findByName shared.names name.chars := by
        unfold findByName
        simp only [eqIgnoreAsciiCase] at hsame ⊢
        rw [beq_iff_eq] at hsame
        rw [hsame]
      rw [← hfind, ← hfind, hall other hother, hall name hname] at hlookup
      exact Option.some.inj hlookup
    · intro hdistinct name hname
      rw [hfind, findByName_self_iff hname]
      intro other hother
      have hmem : other ∈ shared.names := (List.takeWhile_sublist _).mem hother
      have hneq : other ≠ name := by simpa using List.mem_takeWhile_imp hother
      by_contra hsame
      exact hneq (hdistinct name hname other hmem (by simpa using hsame))

def hp : PrinterName := ⟨"HP", by decide, by decide, by decide, by decide⟩

def hpLower : PrinterName := ⟨"hp", by decide, by decide, by decide, by decide⟩

theorem hp_advertised_resolves :
    (∀ name ∈ (SharedPrinters.new [hp]).names,
        (findByUri (SharedPrinters.new [hp]).names "server".toList
            (entry "server".toList name true).uri = some name
          ↔ ∀ other ∈ (SharedPrinters.new [hp]).names.takeWhile (· ≠ name),
            eqIgnoreAsciiCase other.chars name.chars = false))
      ∧ ((∀ name ∈ (SharedPrinters.new [hp]).names,
          findByUri (SharedPrinters.new [hp]).names "server".toList
            (entry "server".toList name true).uri = some name)
        ↔ ∀ name ∈ (SharedPrinters.new [hp]).names, ∀ other ∈ (SharedPrinters.new [hp]).names,
          eqIgnoreAsciiCase other.chars name.chars = true → other = name) :=
  advertised_resolves_iff (SharedPrinters.new [hp]) (by decide) (by decide) true

/-- With `HP` and `hp` shared, the address advertised for `hp` leads to `HP`. -/
theorem case_variants_share_address :
    (SharedPrinters.new [hp, hpLower]).names = [hp, hpLower] ∧ hpLower ≠ hp
      ∧ findByUri (SharedPrinters.new [hp, hpLower]).names "server".toList
        (entry "server".toList hpLower true).uri = some hp := by
  decide

end ShaPrint.Endpoint
