import Swat4Stats.Calendar
import Swat4Stats.IpRegistry

/-!
# Expiry of address ranges

The ranges that whois has told are deleted half a year after they were stored, so that they are
asked for anew. The providers stay.
-/

namespace Swat4Stats

set_option autoImplicit false

open Tx Transition

/-- `GEOIP_IP_EXPIRY`, a hundred and eighty days. -/
def geoipIpExpiry : ℕ := 180 * 24 * 60 * 60 * 1000000

namespace IPManager

def minFreshnessDate (now : Time) : Time := now - geoipIpExpiry

def isFresh (now dateCreated : Time) : Bool := minFreshnessDate now ≤ dateCreated

end IPManager

namespace IpExpiry

open ISPManager IspRace IpRegistry IPManager

/-- The tables, the column `date_created` by the primary key of a range, and the clock. -/
structure State where
  db : Database
  dateCreated : ℕ → Time
  clock : Time

/-- `IPManager.expired`. -/
def State.expired (now : Time) (s : State) (range : IpRange) : Bool :=
  !isFresh now (s.dateCreated range.pk)

def State.deleteExpiredIps (now : Time) (s : State) : State :=
  { s with
    db := { s.db with ipRanges := s.db.ipRanges.delete (s.expired now) }
    clock := now }

inductive Event where
  | lookup (now : Time) (lookup : Lookup)
  | deleteExpiredIps (now : Time)

def Event.now : Event → Time
  | .lookup now _ => now
  | .deleteExpiredIps now => now

def Event.expiry? : Event → Option Time
  | .lookup _ _ => none
  | .deleteExpiredIps now => some now

/-- When the ranges were expired. -/
def expiries (events : List Event) : List Time := events.filterMap Event.expiry?

section System

variable (libraries : WhoisLibraries)

/-- A range that the call inserts is created at the time of the call. -/
def State.lookup (now : Time) (lookup : Lookup) (s : State) : State :=
  { db := ((lookup.call libraries).run s.db).2
    dateCreated := fun pk =>
      if (s.db.ipRanges.find? pk).isSome then s.dateCreated pk else now
    clock := now }

/-- Time does not run backwards. A lookup is one whose answer the columns of providers take. -/
def system : System State Event where
  enabled s e := s.clock ≤ e.now ∧ ∀ now lookup, e = .lookup now lookup →
    lookup.ip < 2 ^ 32 ∧ lookup.Storable libraries
  next s
    | .lookup now lookup => s.lookup libraries now lookup
    | .deleteExpiredIps now => s.deleteExpiredIps now

/-- The provider that a call returns. -/
def provider (db : Database) (lookup : Lookup) : Option IspId :=
  match (lookup.call libraries).run db with
  | (.ok (isp, _), _) => isp
  | (.error _, _) => none

/-- The call asks whois, and is told of a network that is not stored. -/
structure Learns (db : Database) (lookup : Lookup) (network : WhoisQueryResult) : Prop where
  asked : ∃ result db', (lookup.callNoting libraries).run db = (.ok (result, true), db')
  whois : lookup.whois libraries = some network
  unknown : knownRange db network = none

end System

section Call

variable {libraries : WhoisLibraries} {db : Database} {lookup : Lookup}
  {network : WhoisQueryResult}

theorem run_call_cases (libraries : WhoisLibraries) (db : Database) (lookup : Lookup) :
    (∃ isp, (lookup.callNoting libraries).run db = (.ok ((isp, false), false), db) ∧
      (lookup.call libraries).run db = (.ok (isp, false), db)) ∨
    ∃ fallback, (lookup.call libraries).run db =
      (matchByWhois (lookup.whois libraries) fallback).run db := by
  obtain ⟨matched, hmatched⟩ : ∃ matched,
      (ISPManager.match lookup.pick lookup.ip).run db = (.ok matched, db) := ⟨_, rfl⟩
  rw [Lookup.callNoting, Lookup.call, matchOrCreateNoting, matchOrCreate, run_bind, run_bind,
    hmatched]
  cases matched with
  | none => exact .inr ⟨none, rfl⟩
  | some found =>
    obtain ⟨isp, length⟩ := found
    obtain hbroad | haccepted := Decidable.em (length > acceptedIpLength)
    · simp only [hbroad, if_true]
      exact .inr ⟨isp, rfl⟩
    · simp only [haccepted, if_false, run_pure]
      exact .inl ⟨isp, rfl, rfl⟩

theorem run_call_of_learns (h : Learns libraries db lookup network) :
    (lookup.call libraries).run db = (registerNetwork network).run db := by
  obtain ⟨isp, hnoting, _⟩ | ⟨fallback, hcall⟩ := run_call_cases libraries db lookup
  · obtain ⟨result, db', hasked⟩ := h.asked
    rw [hnoting] at hasked
    cases hasked
  · rw [hcall, h.whois]
    rfl

/-- The provider that is found or created has the name and the country. -/
theorem named_of_obtainIsp (h : NamedOnce db) {name : String} {country : Option String}
    {isp : IspId} {created : Bool} {db' : Database}
    (hrun : (obtainIsp (some name) country).run db = (.ok (isp, created), db')) :
    ∃ row ∈ named db' name country, row.pk = isp := by
  have hlength : (named db name country).length ≤ 1 := length_named h
  have hrows : (db.isps.rows.filter fun isp => isp.name = some name ∧ isp.country = country) =
      named db name country := rfl
  simp only [obtainIsp, getOrCreateIsp, getOrCreate, run_bind, run_read, hrows] at hrun
  cases hfound : named db name country with
  | nil =>
    simp only [hfound, createIsp, run_bind, run_atomic, run_statement, run_pure] at hrun
    cases hrun
    exact ⟨_, mem_named.mpr ⟨Table.mem_create.mpr (.inr rfl), rfl, rfl⟩, rfl⟩
  | cons row rest =>
    rw [hfound] at hlength
    obtain rfl : rest = [] := by
      simpa using hlength
    simp only [hfound, run_pure] at hrun
    cases hrun
    exact ⟨row, hfound ▸ List.mem_cons_self, rfl⟩

/-- A network that is not stored gets a row, and a named one the provider of its name. -/
theorem run_registerNetwork_learnt (hunknown : knownRange db network = none)
    (honce : NamedOnce db) : ∃ isps isp created,
      (registerNetwork network).run db =
        (.ok (some isp, created), withRange db network isps isp) ∧
      (∀ row ∈ db.isps.rows, row ∈ isps.rows) ∧
      ∀ name ∈ nameOf network, ∃ row ∈ named (withRange db network isps isp) name
        (countryOf network), row.pk = isp := by
  let db₁ : Database := ((createIpRange network.cidrFrom network.cidrTo).run db).2
  have honce₁ : NamedOnce db₁ := (namedOnce_congr rfl).mpr honce
  obtain ⟨isps, isp, created, hrun, hkept, _, _⟩ :=
    run_obtainIsp honce₁ (nameOf network) (countryOf network)
  refine ⟨isps, isp, created, ?_, hkept, fun name hname => ?_⟩
  · have hcreate : (createIpRange network.cidrFrom network.cidrTo).run db =
        (.ok db.ipRanges.nextPk, db₁) := rfl
    rw [nameOf, countryOf] at hrun
    rw [knownRange] at hunknown
    simp only [registerNetwork, run_atomic, run_bind, run_read, hunknown, hcreate, hrun, run_pure]
    rfl
  · rw [hname] at hrun
    obtain ⟨row, hrow, hpk⟩ := named_of_obtainIsp honce₁ hrun
    exact ⟨row, hrow, hpk⟩

/-- What a call may change: it adds rows only, and at most one range. -/
structure Adds (db db' : Database) : Prop where
  isps : ∀ row ∈ db.isps.rows, row ∈ db'.isps.rows
  ranges : ∀ range ∈ db.ipRanges.rows, range ∈ db'.ipRanges.rows
  onlyNew : ∀ range ∈ db'.ipRanges.rows,
    range ∈ db.ipRanges.rows ∨ range.pk = db.ipRanges.nextPk

theorem Adds.refl (db : Database) : Adds db db :=
  ⟨fun _ hrow => hrow, fun _ hrange => hrange, fun _ hrange => .inl hrange⟩

theorem adds_registerNetwork (honce : NamedOnce db) (network : WhoisQueryResult) :
    Adds db ((registerNetwork network).run db).2 := by
  cases hknown : knownRange db network with
  | some range =>
    have hrun : (registerNetwork network).run db = (.ok (range.isp, false), db) := by
      rw [knownRange] at hknown
      simp only [registerNetwork, run_atomic, run_bind, run_read, hknown, run_pure]
    rw [hrun]
    exact .refl db
  | none =>
    obtain ⟨isps, isp, created, hrun, hkept, _⟩ := run_registerNetwork_learnt hknown honce
    rw [hrun]
    refine ⟨hkept, fun range hrange => mem_withRange.mpr (.inl hrange), fun range hrange => ?_⟩
    obtain hrange | rfl := mem_withRange.mp hrange
    · exact .inl hrange
    · exact .inr rfl

theorem adds_call (honce : NamedOnce db) (libraries : WhoisLibraries) (lookup : Lookup) :
    Adds db ((lookup.call libraries).run db).2 := by
  obtain ⟨isp, _, hcall⟩ | ⟨fallback, hcall⟩ := run_call_cases libraries db lookup
  · rw [hcall]
    exact .refl db
  · rw [hcall]
    cases lookup.whois libraries with
    | none => exact .refl db
    | some network => exact adds_registerNetwork honce network

theorem provider_of_learns (honce : NamedOnce db) (h : Learns libraries db lookup network) :
    ∀ name ∈ nameOf network, ∃ row ∈ named ((lookup.call libraries).run db).2 name
      (countryOf network), provider libraries db lookup = some row.pk := by
  intro name hname
  obtain ⟨isps, isp, created, hrun, _, hnamed⟩ := run_registerNetwork_learnt h.unknown honce
  obtain ⟨row, hrow, rfl⟩ := hnamed name hname
  rw [provider, run_call_of_learns h, hrun]
  exact ⟨row, hrow, rfl⟩

end Call

section Runs

variable {libraries : WhoisLibraries} {s t : State} {e : Event} {events : List Event}

theorem sound_deleteExpiredIps (h : Sound s.db) (now : Time) :
    Sound (s.deleteExpiredIps now).db where
  ordered range hrange := h.ordered range (Table.mem_delete.mp hrange).1
  distinct range hrange other hother :=
    h.distinct range (Table.mem_delete.mp hrange).1 other (Table.mem_delete.mp hother).1
  owned range hrange := h.owned range (Table.mem_delete.mp hrange).1
  namedOnce := h.namedOnce

theorem sound_step (h : Sound s.db) (e : Event) : Sound ((system libraries).next s e).db := by
  cases e with
  | lookup now lookup => exact sound_next h lookup
  | deleteExpiredIps now => exact sound_deleteExpiredIps h now

theorem sound_of_run (hrun : Run (system libraries) s events t) (h : Sound s.db) : Sound t.db := by
  induction hrun with
  | nil => exact h
  | cons _ _ ih => exact ih (sound_step h _)

theorem fitsColumns_of_run (hname : ∀ ip, ∀ name ∈ libraries.ipv4IsDefined ip, FitsColumn 255 name)
    (hrun : Run (system libraries) s events t) (h : Sound s.db) (hfits : FitsColumns s.db) :
    FitsColumns t.db := by
  induction hrun with
  | nil => exact hfits
  | @cons s t e events he _ ih =>
    apply ih (sound_step h e)
    cases e with
    | lookup now lookup => exact fitsColumns_next hname h hfits (he.2 now lookup rfl).2
    | deleteExpiredIps now => exact hfits

theorem isps_of_run (hrun : Run (system libraries) s events t) (h : Sound s.db) :
    ∀ row ∈ s.db.isps.rows, row ∈ t.db.isps.rows := by
  induction hrun with
  | nil => exact fun _ hrow => hrow
  | @cons s t e events _ _ ih =>
    intro row hrow
    apply ih (sound_step h e) row
    cases e with
    | lookup now lookup => exact (adds_call h.namedOnce libraries lookup).isps row hrow
    | deleteExpiredIps now => exact hrow

theorem dateCreated_lookup {now : Time} {lookup : Lookup} {range : IpRange}
    (hrange : range ∈ s.db.ipRanges.rows) :
    (s.lookup libraries now lookup).dateCreated range.pk = s.dateCreated range.pk := by
  simp only [State.lookup, Table.find?_of_mem hrange, Option.isSome_some, if_true]

theorem dateCreated_of_new {now : Time} {lookup : Lookup} {range : IpRange}
    (hrange : range.pk = s.db.ipRanges.nextPk) :
    (s.lookup libraries now lookup).dateCreated range.pk = now := by
  have hnew : s.db.ipRanges.find? range.pk = none := by
    rw [Table.find?_eq_none_iff, hrange]
    exact fun other hother => (s.db.ipRanges.lt_nextPk hother).ne
  simp only [State.lookup, hnew, Option.isSome_none, Bool.false_eq_true, if_false]

/-- A range stays for as long as the expiries find it fresh. -/
theorem survives_of_run (hrun : Run (system libraries) s events t) (h : Sound s.db)
    {range : IpRange} (hrange : range ∈ s.db.ipRanges.rows)
    (hfresh : ∀ now ∈ expiries events, isFresh now (s.dateCreated range.pk) = true) :
    range ∈ t.db.ipRanges.rows := by
  induction hrun with
  | nil => exact hrange
  | @cons s t e events _ _ ih =>
    cases e with
    | lookup now lookup =>
      apply ih (sound_step h _) ((adds_call h.namedOnce libraries lookup).ranges range hrange)
      intro later hlater
      exact (congrArg _ (dateCreated_lookup hrange)).trans (hfresh later hlater)
    | deleteExpiredIps now =>
      refine ih (sound_step h _) (Table.mem_delete.mpr ⟨hrange, ?_⟩) ?_
      · rw [State.expired, hfresh now (List.mem_cons_self ..)]
        rfl
      · exact fun later hlater => hfresh later (List.mem_cons_of_mem _ hlater)

/-- No stored range is older than the past expiries let it be. -/
structure Fresh (past : List Time) (s : State) : Prop where
  le_clock : ∀ now ∈ past, now ≤ s.clock
  fresh : ∀ range ∈ s.db.ipRanges.rows, ∀ now ∈ past,
    isFresh now (s.dateCreated range.pk) = true

theorem isFresh_of_le {now dateCreated : Time} (h : now ≤ dateCreated) :
    isFresh now dateCreated = true :=
  decide_eq_true ((Nat.sub_le ..).trans h)

theorem fresh_step {past : List Time} (hsound : Sound s.db) (h : Fresh past s)
    (he : (system libraries).enabled s e) :
    Fresh (past ++ e.expiry?.toList) ((system libraries).next s e) := by
  have hclock : ∀ now ∈ past, now ≤ e.now := fun now hnow => (h.le_clock now hnow).trans he.1
  cases e with
  | lookup now lookup =>
    rw [Event.expiry?, Option.toList_none, List.append_nil]
    refine ⟨hclock, fun range hrange at' hat => ?_⟩
    obtain hold | hnew := (adds_call hsound.namedOnce libraries lookup).onlyNew range hrange
    · exact (congrArg _ (dateCreated_lookup hold)).trans (h.fresh range hold at' hat)
    · exact (congrArg _ (dateCreated_of_new hnew)).trans (isFresh_of_le (hclock at' hat))
  | deleteExpiredIps now =>
    rw [Event.expiry?, Option.toList_some]
    constructor
    · intro at' hat
      obtain hat | hat := List.mem_append.mp hat
      · exact hclock at' hat
      · exact (List.mem_singleton.mp hat).le
    · intro range hrange at' hat
      obtain ⟨hold, hunexpired⟩ := Table.mem_delete.mp hrange
      obtain hat | hat := List.mem_append.mp hat
      · exact h.fresh range hold at' hat
      · obtain rfl := List.mem_singleton.mp hat
        rw [State.expired, Bool.not_eq_false'] at hunexpired
        exact hunexpired

theorem recent_of_run {past : List Time} (hrun : Run (system libraries) s events t)
    (hsound : Sound s.db) (h : Fresh past s) : Fresh (past ++ expiries events) t := by
  induction hrun generalizing past with
  | nil =>
    rw [expiries, List.filterMap_nil, List.append_nil]
    exact h
  | @cons s t e events he _ ih =>
    have hrest := ih (sound_step hsound e) (fresh_step hsound h he)
    have hcons : expiries (e :: events) = e.expiry?.toList ++ expiries events := by
      cases e with
      | lookup now lookup => rfl
      | deleteExpiredIps now => rfl
    rw [hcons, ← List.append_assoc]
    exact hrest

end Runs

section Registry

variable (libraries : WhoisLibraries)

/-- What a run that ends in `t` has kept. A provider outlives its ranges: when whois describes a
network again, whatever has expired meanwhile, the provider is the one it was. -/
structure Renews (start : State) (events : List Event) (t : State) : Prop where
  sound : Sound t.db
  fits : FitsColumns t.db
  answers : ∀ lookup : Lookup, lookup.Storable libraries → ∃ isp created asked db',
    (lookup.callNoting libraries).run t.db = (.ok ((isp, created), asked), db') ∧
      Answers t.db (lookup.whois libraries) lookup.ip isp asked db' ∧ FitsColumns db'
  fresh : ∀ range ∈ t.db.ipRanges.rows, ∀ now ∈ expiries events,
    isFresh now (t.dateCreated range.pk) = true
  kept : ∀ before after s, events = before ++ after → Run (system libraries) start before s →
    (∀ row ∈ s.db.isps.rows, row ∈ t.db.isps.rows) ∧
    ∀ range ∈ s.db.ipRanges.rows,
      (∀ now ∈ expiries after, isFresh now (s.dateCreated range.pk) = true) →
        range ∈ t.db.ipRanges.rows
  sameProvider : ∀ before now lookup after s network,
    events = before ++ .lookup now lookup :: after → Run (system libraries) start before s →
    Learns libraries s.db lookup network → nameOf network ≠ none →
    ∀ again network', again.Storable libraries → Learns libraries t.db again network' →
      nameOf network' = nameOf network → countryOf network' = countryOf network →
        provider libraries t.db again = provider libraries s.db lookup

variable {libraries} {start t : State} {events : List Event}

/-- The rest of a run, from where its first events have led. -/
theorem rest_of_run {before after : List Event} {s : State}
    (hrun : Run (system libraries) start (before ++ after) t)
    (hbefore : Run (system libraries) start before s) : Run (system libraries) s after t := by
  obtain ⟨u, hu, hrest⟩ := Run.append_iff.mp hrun
  rwa [hbefore.unique hu]

theorem renews_of_run (hname : ∀ ip, ∀ name ∈ libraries.ipv4IsDefined ip, FitsColumn 255 name)
    (hisps : start.db.isps.rows = []) (hranges : start.db.ipRanges.rows = [])
    (hrun : Run (system libraries) start events t) : Renews libraries start events t := by
  have hstart : Sound start.db := sound_of_empty hisps hranges
  have hsound : Sound t.db := sound_of_run hrun hstart
  have hempty : FitsColumns start.db := by simp [FitsColumns, hisps]
  have hfits : FitsColumns t.db := fitsColumns_of_run hname hrun hstart hempty
  constructor
  · exact hsound
  · exact hfits
  · intro lookup hlookup
    obtain ⟨isp, created, asked, db', hnoting, _, hanswers⟩ :=
      run_callNoting libraries hsound lookup
    have hafter := fitsColumns_next hname hsound hfits hlookup
    have hcall : (lookup.call libraries).run t.db = (.ok (isp, created), db') :=
      run_matchOrCreate_of_noting hnoting
    simp only [IpRegistry.system, hcall] at hafter
    exact ⟨isp, created, asked, db', hnoting, hanswers, hafter⟩
  · have hnothing : Fresh [] start := by
      constructor
      · exact List.forall_mem_nil _
      · exact fun _ _ => List.forall_mem_nil _
    exact (recent_of_run hrun hstart hnothing).fresh
  · rintro before after s rfl hbefore
    have hrest := rest_of_run hrun hbefore
    have hs : Sound s.db := sound_of_run hbefore hstart
    exact ⟨isps_of_run hrest hs, fun range hrange hfresh =>
      survives_of_run hrest hs hrange hfresh⟩
  · rintro before now lookup after s network rfl hbefore hlearns hnamed again network' _ hagain
      hsameName hcountry
    obtain ⟨name, hsome⟩ := Option.ne_none_iff_exists'.mp hnamed
    have hs : Sound s.db := sound_of_run hbefore hstart
    obtain ⟨_, hafter⟩ := Run.cons_iff.mp (rest_of_run hrun hbefore)
    obtain ⟨first, hfirst, hprovider⟩ := provider_of_learns hs.namedOnce hlearns name hsome
    obtain ⟨second, hsecond, hprovider'⟩ :=
      provider_of_learns hsound.namedOnce hagain name (hsameName.trans hsome)
    -- the row of the first call is still there when the second one has been made
    obtain ⟨hfirstMem, hfirstName, hfirstCountry⟩ := mem_named.mp hfirst
    have hlast : first ∈ ((again.call libraries).run t.db).2.isps.rows :=
      (adds_call hsound.namedOnce libraries again).isps first
        (isps_of_run hafter (sound_step hs _) first hfirstMem)
    obtain ⟨hsecondMem, hsecondName, hsecondCountry⟩ := mem_named.mp hsecond
    have honce : NamedOnce ((again.call libraries).run t.db).2 :=
      (sound_next hsound again).namedOnce
    have hsame : first = second := by
      refine honce first hlast second hsecondMem ?_ ?_ ?_
      · rw [hfirstName]
        exact Option.some_ne_none name
      · rw [hfirstName, hsecondName]
      · rw [hfirstCountry, hsecondCountry, hcountry]
    rw [hprovider, hprovider', hsame]

end Registry

section Example

def emptyTables : State := ⟨Database.empty, fun _ => 0, 0⟩

/-- Two hundred days later. -/
def later : Time := 200 * 24 * 60 * 60 * 1000000

theorem storable_firstLookup : firstLookup.Storable plainLibraries := by
  rintro _ ⟨⟩ net hnet
  obtain rfl := List.mem_singleton.mp hnet
  constructor
  · rintro _ ⟨⟩
    decide
  · rintro _ ⟨⟩
    decide

theorem renews_firstLookup : ∃ t, Run (system plainLibraries) emptyTables
      [.lookup 0 firstLookup, .deleteExpiredIps later] t ∧ t.db.ipRanges.rows = [] ∧
    Renews plainLibraries emptyTables [.lookup 0 firstLookup, .deleteExpiredIps later] t ∧
    provider plainLibraries t.db firstLookup =
      provider plainLibraries emptyTables.db firstLookup := by
  have hfirst : (system plainLibraries).enabled emptyTables (.lookup 0 firstLookup) := by
    refine ⟨le_refl 0, ?_⟩
    rintro _ _ ⟨⟩
    exact ⟨by decide, storable_firstLookup⟩
  have hexpiry : (system plainLibraries).enabled
      ((system plainLibraries).next emptyTables (.lookup 0 firstLookup))
      (.deleteExpiredIps later) := by
    refine ⟨Nat.zero_le _, ?_⟩
    rintro _ _ ⟨⟩
  have hrun := Run.cons hfirst (Run.cons hexpiry (.nil _))
  have hnone : ∀ ip, ∀ name ∈ plainLibraries.ipv4IsDefined ip, FitsColumn 255 name := by
    rintro _ _ ⟨⟩
  have hrenews := renews_of_run hnone rfl rfl hrun
  refine ⟨_, hrun, by decide, hrenews, ?_⟩
  have hwhois : firstLookup.whois plainLibraries =
      some ⟨some "foo", some "un", 16909056, 16909311⟩ := by decide
  exact hrenews.sameProvider [] 0 firstLookup [.deleteExpiredIps later] emptyTables _ rfl (.nil _)
    ⟨⟨_, _, rfl⟩, hwhois, by decide⟩ (by decide) firstLookup _
    storable_firstLookup ⟨⟨_, _, rfl⟩, hwhois, by decide⟩ rfl rfl

end Example

end IpExpiry

end Swat4Stats
