import ShaPrint.Discovery.Browse
import ShaPrint.Lib.Latest
import ShaPrint.Lib.StepSystem

/-!
The cache of nearby servers, `Discovery` of `application/discovery.rs`.

Instants are natural numbers of nanoseconds; one critical section reads the clock once, and
the clock does not run backwards. The branches of a poisoned lock are left out, since no
section panics. The map has no bound on its size.

* `Cache` and its operations.
* `cache`: the step system whose runs are the sequences of reports, reads and sweeps.
* `Word`: the last word of a server, by the history of the reports.
* `Follows`, `follows_of_run`: the entries follow the last words.
* `nearbyServers_of_run`: so does the list, and a packet changes only what its source hosts.
-/

namespace ShaPrint.Discovery

/-- One advertisement and the moment it stops being valid. -/
structure Entry where
  server : NearbyServer
  expires : ℕ

/-- What the lock protects, and the list that the UI was sent last. -/
structure Cache where
  entries : Std.ExtTreeMap Chars Entry
  published : List NearbyServer

namespace Cache

def new : Cache := ⟨∅, []⟩

/-- `expire` -/
def expire (c : Cache) (now : ℕ) : Cache :=
  { c with entries := c.entries.filter fun _ entry => now < entry.expires }

/-- The order of the list: by label, then by address. -/
def order (left right : NearbyServer) : Bool :=
  (compareLex (compareOn NearbyServer.name) (compareOn NearbyServer.address) left right).isLE

def snapshot (c : Cache) : List NearbyServer :=
  (c.entries.toList.map (·.2.server)).mergeSort order

/-- `publish` of the current list; sending the list that is shown already is no change. -/
def publish (c : Cache) : Cache := { c with published := c.snapshot }

/-- `nearby_servers` -/
def nearbyServers (c : Cache) (now : ℕ) : List NearbyServer := (c.expire now).snapshot

def prune (c : Cache) (now : ℕ) : Cache := (c.expire now).publish

def withdrawn (c : Cache) (address : Chars) : Cache :=
  { c with entries := c.entries.erase address }.publish

def advertised (c : Cache) (maxLifetime now : ℕ) (server : NearbyServer) (lifetime : Duration) :
    Cache :=
  if lifetime = 0 then c.withdrawn server.address
  else
    { c with entries :=
        c.entries.insert server.address ⟨server, now + min lifetime maxLifetime⟩ }.publish

/-- What the cache makes of a report. -/
def receive (c : Cache) (maxLifetime now : ℕ) : Report → Cache
  | .advertised server lifetime => c.advertised maxLifetime now server lifetime
  | .withdrawn address => c.withdrawn address

end Cache

structure World where
  clock : ℕ
  cache : Cache

/-- One critical section of the cache, or the passing of time. -/
inductive Event where
  | tick (duration : ℕ)
  | report (report : Report)
  | read
  | prune

/-- The sequences of reports, reads and sweeps, of a cache made at `start`. -/
def cache (maxLifetime start : ℕ) : StepSystem World Event where
  init := ⟨start, .new⟩
  step w
    | .tick duration => some { w with clock := w.clock + duration }
    | .report r => some { w with cache := w.cache.receive maxLifetime w.clock r }
    | .read => some { w with cache := w.cache.expire w.clock }
    | .prune => some { w with cache := w.cache.prune w.clock }

/-! ### The last word of a server -/

/-- The event is a report about the address. -/
def Event.IsAbout (address : Chars) : Event → Prop
  | .report r => r.address = address
  | _ => False

/-- The time after the events. -/
def timeAfter (start : ℕ) (es : List Event) : ℕ :=
  es.foldl (fun time e => match e with
    | .tick duration => time + duration
    | _ => time) start

/-- The last report about the server's address advertised this server, in an advertisement
that is over at `expires`. -/
def Word (maxLifetime start : ℕ) (es : List Event) (server : NearbyServer) (expires : ℕ) : Prop :=
  ∃ pre lifetime,
    Latest (Event.IsAbout server.address) es pre (.report (.advertised server lifetime))
      ∧ expires = timeAfter start pre + min lifetime maxLifetime

/-! ### The operations, by address -/

namespace Cache

lemma getElem?_expire {c : Cache} {now : ℕ} {address : Chars} {entry : Entry} :
    (c.expire now).entries[address]? = some entry
      ↔ c.entries[address]? = some entry ∧ now < entry.expires := by
  rw [expire, Std.ExtTreeMap.getElem?_filter', Option.filter_eq_some_iff]
  simp

/-- A report is about one address. -/
lemma getElem?_receive_of_ne {c : Cache} {maxLifetime now : ℕ} {r : Report} {address : Chars}
    (h : r.address ≠ address) :
    (c.receive maxLifetime now r).entries[address]? = c.entries[address]? := by
  have herase : (c.entries.erase r.address)[address]? = c.entries[address]? := by
    rw [Std.ExtTreeMap.getElem?_erase, if_neg (by simpa using h)]
  cases r with
  | withdrawn _ => exact herase
  | advertised server lifetime =>
      rw [receive, advertised]
      split
      · exact herase
      · exact (Std.ExtTreeMap.getElem?_insert).trans (if_neg (by simpa [Report.address] using h))

lemma getElem?_withdrawn (c : Cache) (address : Chars) :
    (c.withdrawn address).entries[address]? = none :=
  Std.ExtTreeMap.getElem?_erase_self

lemma getElem?_advertised (c : Cache) (maxLifetime now : ℕ) (server : NearbyServer)
    {lifetime : Duration} (h : lifetime ≠ 0) :
    (c.advertised maxLifetime now server lifetime).entries[server.address]?
      = some ⟨server, now + min lifetime maxLifetime⟩ := by
  rw [advertised, if_neg h]
  exact Std.ExtTreeMap.getElem?_insert_self

lemma mem_snapshot {c : Cache} {server : NearbyServer} :
    server ∈ c.snapshot ↔ ∃ (address : Chars) (entry : Entry), c.entries[address]? = some entry
      ∧ entry.server = server := by
  rw [snapshot, (List.mergeSort_perm _ _).mem_iff, List.mem_map]
  constructor
  · rintro ⟨⟨address, entry⟩, hmem, rfl⟩
    exact ⟨address, entry, Std.ExtTreeMap.mem_toList_iff_getElem?_eq_some.mp hmem, rfl⟩
  · rintro ⟨address, entry, hentry, rfl⟩
    exact ⟨(address, entry), Std.ExtTreeMap.mem_toList_iff_getElem?_eq_some.mpr hentry, rfl⟩

/-- The list is in the cache's order. -/
lemma ordered_snapshot (c : Cache) :
    c.snapshot.Pairwise fun left right => order left right = true := by
  let cmp := compareLex (compareOn NearbyServer.name) (compareOn NearbyServer.address)
  have htotal : ∀ left right, (order left right || order right left) = true := by
    intro left right
    have hswap : cmp left right = (cmp right left).swap := Std.OrientedCmp.eq_swap
    change ((cmp left right).isLE || (cmp right left).isLE) = true
    rw [hswap]
    cases cmp right left <;> rfl
  have htrans : ∀ a b c, order a b = true → order b c = true → order a c = true :=
    fun a b c => @Std.TransCmp.isLE_trans _ cmp _ a b c
  exact List.pairwise_mergeSort htrans htotal _

/-- Every entry is kept under its server's address. -/
def Keyed (c : Cache) : Prop :=
  ∀ (address : Chars) (entry : Entry), c.entries[address]? = some entry →
    entry.server.address = address

/-- The list has every address once. -/
lemma Keyed.nodup_snapshot {c : Cache} (h : c.Keyed) :
    (c.snapshot.map NearbyServer.address).Nodup := by
  have hkeys : (c.entries.toList.map (·.2.server)).map NearbyServer.address
      = c.entries.toList.map (·.1) := by
    rw [List.map_map]
    refine List.map_congr_left fun p hp => ?_
    exact h p.1 p.2 (Std.ExtTreeMap.mem_toList_iff_getElem?_eq_some.mp hp)
  have hperm := (List.mergeSort_perm (c.entries.toList.map (·.2.server)) order).map
    NearbyServer.address
  rw [snapshot, hperm.nodup_iff, hkeys, List.nodup_iff_pairwise_ne, List.pairwise_map]
  exact Std.ExtTreeMap.distinct_keys_toList.imp fun hne heq => hne (by simp [heq])

lemma Keyed.expire {c : Cache} (h : c.Keyed) (now : ℕ) : (c.expire now).Keyed :=
  fun address entry hentry => h address entry (getElem?_expire.mp hentry).1

lemma Keyed.receive {c : Cache} (h : c.Keyed) (maxLifetime now : ℕ) (r : Report) :
    (c.receive maxLifetime now r).Keyed := by
  intro address entry hentry
  by_cases haddress : r.address = address
  · subst haddress
    cases r with
    | withdrawn address =>
        rw [Cache.receive, Report.address, getElem?_withdrawn] at hentry
        cases hentry
    | advertised server lifetime =>
        by_cases hzero : lifetime = 0
        · rw [Cache.receive, Report.address, advertised, if_pos hzero, getElem?_withdrawn] at hentry
          cases hentry
        · rw [Cache.receive, Report.address, getElem?_advertised c _ _ _ hzero] at hentry
          obtain rfl := Option.some.inj hentry
          rfl
  · rw [getElem?_receive_of_ne haddress] at hentry
    exact h address entry hentry

end Cache

/-! ### The entries follow the last words -/

section

variable {maxLifetime start : ℕ}

lemma timeAfter_concat (es : List Event) (e : Event) :
    timeAfter start (es ++ [e]) = timeAfter (timeAfter start es) [e] := by
  simp [timeAfter]

/-- What is about no address changes no last word. -/
lemma word_concat {es : List Event} {e : Event} {server : NearbyServer} {expires : ℕ}
    (h : ¬e.IsAbout server.address) :
    Word maxLifetime start (es ++ [e]) server expires ↔ Word maxLifetime start es server expires := by
  simp only [Word, latest_concat_of_neg h]

/-- The entries that are not over are the last words that are not. -/
structure Follows (maxLifetime start : ℕ) (es : List Event) (w : World) : Prop where
  clock : w.clock = timeAfter start es
  keyed : w.cache.Keyed
  words : ∀ server expires, w.clock < expires →
    (w.cache.entries[server.address]? = some ⟨server, expires⟩
      ↔ Word maxLifetime start es server expires)

/-- The last word of the server a report is about. -/
lemma word_report {es : List Event} {r : Report} {server : NearbyServer} {now expires : ℕ}
    (c : Cache) (hclock : now = timeAfter start es) (hr : r.address = server.address)
    (hlive : now < expires) :
    (c.receive maxLifetime now r).entries[server.address]? = some ⟨server, expires⟩
      ↔ Word maxLifetime start (es ++ [.report r]) server expires := by
  have hlast : Event.IsAbout server.address (.report r) := hr
  simp only [Word, latest_concat_of_pos hlast]
  rw [← hr]
  cases r with
  | withdrawn address =>
      rw [Cache.receive, Report.address, Cache.getElem?_withdrawn]
      simp
  | advertised advertised lifetime =>
      by_cases hzero : lifetime = 0
      · rw [Cache.receive, Report.address, Cache.advertised, if_pos hzero,
          Cache.getElem?_withdrawn]
        refine iff_of_false (Option.some_ne_none _).symm ?_
        rintro ⟨pre, lifetime', ⟨rfl, heq⟩, rfl⟩
        cases heq
        rw [hzero, Nat.zero_min, hclock] at hlive
        exact absurd hlive (lt_irrefl _)
      · rw [Cache.receive, Report.address, Cache.getElem?_advertised c _ _ _ hzero, hclock]
        constructor
        · intro heq
          cases heq
          exact ⟨es, lifetime, ⟨rfl, rfl⟩, rfl⟩
        · rintro ⟨pre, lifetime', ⟨rfl, heq⟩, rfl⟩
          cases heq
          rfl

theorem follows_of_step {es : List Event} {w w' : World} {e : Event}
    (hw : Follows maxLifetime start es w) (h : (cache maxLifetime start).step w e = some w') :
    Follows maxLifetime start (es ++ [e]) w' := by
  cases e with
  | tick duration =>
      obtain rfl := Option.some.inj h
      refine ⟨?_, hw.keyed, fun server expires hlive => ?_⟩
      · rw [timeAfter_concat, ← hw.clock]
        rfl
      · rw [word_concat (e := .tick duration) nofun]
        exact hw.words server expires ((Nat.le_add_right _ _).trans_lt hlive)
  | report r =>
      obtain rfl := Option.some.inj h
      refine ⟨?_, hw.keyed.receive _ _ r, fun server expires hlive => ?_⟩
      · rw [timeAfter_concat, ← hw.clock]
        rfl
      · by_cases hr : r.address = server.address
        · exact word_report w.cache hw.clock hr hlive
        · rw [word_concat (e := .report r) hr]
          exact (Iff.of_eq (by rw [Cache.getElem?_receive_of_ne hr])).trans
            (hw.words server expires hlive)
  | read | prune =>
      obtain rfl := Option.some.inj h
      refine ⟨?_, hw.keyed.expire w.clock, fun server expires hlive => ?_⟩
      · rw [timeAfter_concat, ← hw.clock]
        rfl
      · refine Iff.trans ?_ (word_concat ?_).symm
        · rw [← hw.words server expires hlive]
          exact Cache.getElem?_expire.trans (and_iff_left hlive)
        · exact id

theorem follows_of_run {es : List Event} {w : World}
    (h : (cache maxLifetime start).run es = some w) : Follows maxLifetime start es w := by
  refine StepSystem.run_induction _ (P := Follows maxLifetime start) ⟨rfl, ?_, ?_⟩
    (fun es w e w' _ hw hstep => follows_of_step hw hstep) h
  · intro address entry hentry
    cases hentry
  · intro server expires hlive
    refine iff_of_false (Option.some_ne_none _).symm ?_
    rintro ⟨pre, lifetime, hlatest, -⟩
    exact not_latest_nil hlatest

/-- **The cache follows the last word of each server.** At any time, the list of nearby servers
is exactly the servers whose last word is an advertisement that is not over by its own lifetime
nor by the cache's, each address once and in the cache's order; and a packet changes no entry
whose host is not the packet's source. -/
theorem nearbyServers_of_run {es : List Event} {w : World}
    (h : (cache maxLifetime start).run es = some w) :
    (∀ server, server ∈ w.cache.nearbyServers w.clock
        ↔ ∃ expires, Word maxLifetime start es server expires ∧ w.clock < expires)
      ∧ ((w.cache.nearbyServers w.clock).map NearbyServer.address).Nodup
      ∧ (w.cache.nearbyServers w.clock).Pairwise (fun left right => Cache.order left right = true)
      ∧ ∀ packet source, ∀ r ∈ report packet source, ∀ address,
          hostOf address ≠ some source.host →
          (w.cache.receive maxLifetime w.clock r).entries[address]? = w.cache.entries[address]? := by
  have hw := follows_of_run h
  refine ⟨fun server => ?_, (hw.keyed.expire _).nodup_snapshot, Cache.ordered_snapshot _,
    fun packet source r hr address hhost => ?_⟩
  · rw [Cache.nearbyServers, Cache.mem_snapshot]
    constructor
    · rintro ⟨address, ⟨server', expires⟩, hentry, rfl⟩
      obtain ⟨hentry, hlive⟩ := Cache.getElem?_expire.mp hentry
      have hkey := hw.keyed address _ hentry
      rw [← hkey] at hentry
      exact ⟨expires, (hw.words server' expires hlive).mp hentry, hlive⟩
    · rintro ⟨expires, hword, hlive⟩
      have hentry := (hw.words server expires hlive).mpr hword
      exact ⟨server.address, _, Cache.getElem?_expire.mpr ⟨hentry, hlive⟩, rfl⟩
  · refine Cache.getElem?_receive_of_ne fun haddress => hhost ?_
    rw [← haddress]
    exact hostOf_report hr

end

/-- `DEFAULT_MAX_LIFETIME` -/
def defaultMaxLifetime : Duration := .ofSecs (60 * 60)

def frontDesk : NearbyServer where
  name := "FRONT-DESK".toList
  address := "192.0.2.10:8631".toList
  printers := []
  version := none
  usableName := by decide
  usableAddress := by decide
  usableVersion := nofun

/-- An advertisement of two hours is listed half an hour later. -/
theorem frontDesk_listed :
    ∃ w, (cache defaultMaxLifetime 0).run
        [.report (.advertised frontDesk (.ofSecs 7200)), .tick (Duration.ofSecs 1800)] = some w
      ∧ frontDesk ∈ w.cache.nearbyServers w.clock := by
  have hrun : (cache defaultMaxLifetime 0).run
      [.report (.advertised frontDesk (.ofSecs 7200)), .tick (Duration.ofSecs 1800)] = some _ := rfl
  refine ⟨_, hrun, ((nearbyServers_of_run hrun).1 frontDesk).mpr
    ⟨_, ⟨[], .ofSecs 7200, ?_, rfl⟩, ?_⟩⟩
  · refine ⟨[.tick (Duration.ofSecs 1800)], rfl, rfl, fun e he => ?_⟩
    rw [List.mem_singleton.mp he]
    exact id
  · decide

end ShaPrint.Discovery
