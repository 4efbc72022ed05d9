import Mathlib.Data.Finset.Basic
import Mathlib.Logic.Function.Basic
import ShaPrint.Android.Server
import ShaPrint.Lib.Processes

/-!
The trust store of the Android client, `core/security/EncryptedTrustStore.kt`: entries in
shared preferences, and an index of their addresses that is read, changed and written back.

A stored text is modelled by the object that `org.json` reads of it. How that library takes a
text for a number or a boolean, and the encryption of a channel, are parameters.

* `Preferences`, `loadServer`, `getTrustedServers`: the store and its readers.
* `Operation`, `Call`, `trustStore`: the writers, and how they interleave. Every read of the
  preferences and every `apply` is a section.
* `Coherent`: the index lists every address whose entry loads.
-/

namespace ShaPrint.Android

/-! ### Entries -/

/-- A value of a JSON object; arrays, objects and fractions by their text. -/
inductive JsonValue where
  | null
  | text (s : String)
  | number (n : ℤ)
  | boolean (b : Bool)
  | other (s : String)
  deriving DecidableEq

abbrev JsonObject := List (String × JsonValue)

/-- What the platform does for the store, over the random bytes of an encryption. -/
structure Platform (N : Type) where
  encrypt : N → String → String
  decrypt : String → Option String
  /-- A text as an integer, where `org.json` takes it for one. -/
  toInt : String → Option Int32

namespace JsonObject

def get (o : JsonObject) (name : String) : Option JsonValue := o.lookup name

def getString (o : JsonObject) (name : String) : Option String :=
  (o.get name).map fun
    | .null => "null"
    | .text s | .other s => s
    | .number n => toString n
    | .boolean b => toString b

def getInt (toInt : String → Option Int32) (o : JsonObject) (name : String) : Option Int32 :=
  (o.get name).bind fun
    | .number n => some (.ofInt n)
    | .text s | .other s => toInt s
    | _ => none

def optBoolean (o : JsonObject) (name : String) (fallback : Bool) : Bool :=
  match o.get name with
  | some (.boolean b) => b
  | some (.text s) =>
      if equalsIgnoreCase "true" s then true
      else if equalsIgnoreCase "false" s then false
      else fallback
  | _ => fallback

/-- `has(name) && !isNull(name)` -/
def present (o : JsonObject) (name : String) : Bool :=
  match o.get name with
  | none | some .null => false
  | some _ => true

end JsonObject

/-- A text in the preferences: a JSON object, or one that is none. -/
inductive StoredText where
  | json (o : JsonObject)
  | malformed
  deriving DecidableEq

/-- The shared preferences of the store. -/
structure Preferences where
  strings : String → Option StoredText
  serverIndex : Option (Finset String)

def Preferences.index (p : Preferences) : Finset String := p.serverIndex.getD ∅

def serverKey (canonicalAddress : String) : String := "server_" ++ canonicalAddress

lemma serverKey_injective : Function.Injective serverKey := fun a b h => by
  simpa [serverKey, String.ext_iff] using h

section

variable {N : Type} (X : Platform N)

/-- The object that is stored for a server. -/
def serverJson (nonce : N) (server : TrustedServer) : JsonObject :=
  [("host", .text server.host), ("port", .number server.port.toInt),
    ("computerName", .text server.computerName),
    ("sha256Fingerprint", .text server.sha256Fingerprint),
    ("isOnline", .boolean server.isOnline)]
  ++ (server.networkChannel.map fun channel =>
    ("encryptedChannel", JsonValue.text (X.encrypt nonce channel))).toList

/-- The server that an entry is read as. A field that is missing makes it none. -/
def readServer (json : JsonObject) : Option TrustedServer := do
  let host ← json.getString "host"
  let port ← json.getInt X.toInt "port"
  let computerName ← json.getString "computerName"
  let fingerprint ← json.getString "sha256Fingerprint"
  let isOnline := json.optBoolean "isOnline" true
  let encryptedChannel ←
    if json.present "encryptedChannel" then (json.getString "encryptedChannel").map some
    else some none
  some ⟨host, port, computerName, fingerprint, encryptedChannel.bind X.decrypt, isOnline⟩

/-- The server that a stored text is read as. -/
def readText : StoredText → Option TrustedServer
  | .json json => readServer X json
  | .malformed => none

def loadServer (p : Preferences) (canonicalAddress : String) : Option TrustedServer :=
  (p.strings (serverKey canonicalAddress)).bind (readText X)

/-- The servers in the order of the index, which is none. -/
def getTrustedServers (p : Preferences) : Multiset TrustedServer :=
  p.index.val.filterMap (loadServer X p)

/-- What is stored for a server is read as that server. -/
lemma readServer_serverJson (hcrypto : ∀ n t, X.decrypt (X.encrypt n t) = some t) (nonce : N)
    (server : TrustedServer) : readServer X (serverJson X nonce server) = some server := by
  obtain ⟨host, port, computerName, fingerprint, channel, isOnline⟩ := server
  have hport : Int32.ofInt port.toInt = port := Int32.ofInt_toInt port
  cases channel with
  | none =>
      simp [readServer, serverJson, JsonObject.getString, JsonObject.getInt, JsonObject.optBoolean,
        JsonObject.present, JsonObject.get, List.lookup_cons, hport]
  | some channel =>
      simp [readServer, serverJson, JsonObject.getString, JsonObject.getInt, JsonObject.optBoolean,
        JsonObject.present, JsonObject.get, List.lookup_cons, hport, hcrypto nonce channel]

end

/-! ### The writers -/

inductive Operation where
  | save (server : TrustedServer)
  | remove (canonicalAddress : String)
  deriving DecidableEq

namespace Operation

/-- The address that an operation is about. -/
def address : Operation → String
  | save server => server.canonicalAddress
  | remove canonicalAddress => canonicalAddress

/-- What an operation leaves at its address. -/
def leaves : Operation → Option TrustedServer
  | save server => some server
  | remove _ => none

/-- The index that an operation writes, from the one that it has read. -/
def editIndex : Operation → Finset String → Finset String
  | save server, index => insert server.canonicalAddress index
  | remove canonicalAddress, index => index.erase canonicalAddress

end Operation

/-- How far a call is. -/
inductive Phase where
  | start
  /-- The index has been read, and the entry made. -/
  | read (entry : Option JsonObject) (index : Finset String)
  | done
  deriving DecidableEq

structure Call where
  operation : Operation
  phase : Phase
  deriving DecidableEq

def Call.isDone (c : Call) : Bool := c.phase == .done

section

variable {N : Type} (X : Platform N)

/-- The entry that an operation puts, or none where it removes one. -/
def Operation.entry (nonce : N) : Operation → Option JsonObject
  | save server => some (serverJson X nonce server)
  | remove _ => none

/-- `edit()…apply()`: the entry and the index are written at once. -/
def Preferences.apply (p : Preferences) (operation : Operation) (entry : Option JsonObject)
    (index : Finset String) : Preferences :=
  ⟨Function.update p.strings (serverKey operation.address) (entry.map .json),
    some (operation.editIndex index)⟩

/-- The next section of a call, which encrypts with the given random bytes if it has to. -/
def Call.resume (p : Preferences) (c : Call) (nonce : N) : Option (Preferences × Call) :=
  match c.phase with
  | .start => some (p, { c with phase := .read (c.operation.entry X nonce) p.index })
  | .read entry index => some (p.apply c.operation entry index, { c with phase := .done })
  | .done => none

/-- The calls on a store. -/
def trustCalls (start : Preferences) : Processes Preferences Call N Empty where
  init := start
  starts c := c.phase == .start
  advance p c nonce := (c.resume X p nonce).map fun (p, c) => (p, c, [])
  outside _ e := e.elim

abbrev TrustWorld := Processes.World Preferences Call

abbrev TrustEvent (N : Type) := Processes.Event Call N Empty

/-- The interleavings of any calls on a store. -/
def trustStore (start : Preferences) : StepSystem TrustWorld (TrustEvent N) :=
  (trustCalls X start).system

/-- The index lists every address whose entry loads. -/
def Coherent (p : Preferences) : Prop :=
  ∀ a, (loadServer X p a).isSome = true → a ∈ p.index

end

end ShaPrint.Android
