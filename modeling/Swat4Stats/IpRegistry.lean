import Mathlib.Data.List.MinMax
import Swat4Stats.IspRace
import Swat4Stats.Whois

/-!
# The registry of address ranges

Calls of `match_or_create` one after the other: which ranges and providers they leave, and what each
of them returns.
-/

namespace Swat4Stats

set_option autoImplicit false

open Tx Transition

namespace ISPManager

/-- `match_or_create`, and whether it comes to `_query_ip_address`. -/
def matchOrCreateNoting (pick : ℕ) (whois : Option WhoisQueryResult) (ip : IPv4) :
    DbTx ((Option IspId × Bool) × Bool) := do
  let matched ← ISPManager.match pick ip
  match matched with
  | none => do
    let result ← matchByWhois whois none
    pure (result, true)
  | some (isp, length) =>
    if length > acceptedIpLength then do
      let result ← matchByWhois whois isp
      pure (result, true)
    else
      pure ((isp, false), false)

theorem run_matchOrCreate_of_noting {pick : ℕ} {whois : Option WhoisQueryResult} {ip : IPv4}
    {db db' : Database} {result : Option IspId × Bool} {asked : Bool}
    (h : (matchOrCreateNoting pick whois ip).run db = (.ok (result, asked), db')) :
    (matchOrCreate pick whois ip).run db = (.ok result, db') := by
  have hwhois : ∀ fallback, ((do
      let result ← matchByWhois whois fallback
      pure (result, true) : DbTx _)).run db = (.ok (result, asked), db') →
        (matchByWhois whois fallback).run db = (.ok result, db') := by
    intro fallback hrun
    rw [run_bind] at hrun
    cases hmatch : (matchByWhois whois fallback).run db with
    | mk outcome db₁ =>
      rw [hmatch] at hrun
      cases outcome with
      | error e => cases hrun
      | ok found =>
        cases hrun
        rfl
  obtain ⟨matched, hmatched⟩ : ∃ matched,
      (ISPManager.match pick ip).run db = (.ok matched, db) := ⟨_, rfl⟩
  rw [matchOrCreateNoting, run_bind, hmatched] at h
  rw [matchOrCreate, run_bind, hmatched]
  cases matched with
  | none => exact hwhois none h
  | some found =>
    obtain ⟨isp, length⟩ := found
    obtain hbroad | hbroad := Decidable.em (length > acceptedIpLength)
    · simp only [hbroad, if_true] at h ⊢
      exact hwhois isp h
    · simp only [hbroad, if_false] at h ⊢
      cases h
      rfl

end ISPManager

def IpRange.Contains (range : IpRange) (ip : IPv4) : Prop :=
  range.rangeFrom ≤ ip ∧ ip ≤ range.rangeTo

namespace IpRegistry

open ISPManager IspRace

/-- A call: the address, what whois would answer, and the choice among equally short ranges. -/
structure Lookup where
  pick : ℕ
  answer : Option (List WhoisNet)
  ip : IPv4

section System

variable (libraries : WhoisLibraries)

def Lookup.whois (lookup : Lookup) : Option WhoisQueryResult :=
  _queryIpAddress libraries lookup.answer lookup.ip

def Lookup.call (lookup : Lookup) : DbTx (Option IspId × Bool) :=
  matchOrCreate lookup.pick (lookup.whois libraries) lookup.ip

def Lookup.callNoting (lookup : Lookup) : DbTx ((Option IspId × Bool) × Bool) :=
  matchOrCreateNoting lookup.pick (lookup.whois libraries) lookup.ip

def system : System Database Lookup where
  enabled _ lookup := lookup.ip < 2 ^ 32
  next db lookup := ((lookup.call libraries).run db).2

end System

/-- The stored ranges are in order and differ, and a name and a country have one provider. -/
structure Sound (db : Database) : Prop where
  ordered : ∀ range ∈ db.ipRanges.rows, range.rangeFrom ≤ range.rangeTo
  distinct : ∀ range ∈ db.ipRanges.rows, ∀ other ∈ db.ipRanges.rows,
    range.rangeFrom = other.rangeFrom → range.rangeTo = other.rangeTo → range = other
  owned : ∀ range ∈ db.ipRanges.rows, ∃ isp ∈ db.isps.rows, range.isp = some isp.pk
  namedOnce : NamedOnce db

/-- No stored range around the address is shorter. -/
structure Narrowest (db : Database) (ip : IPv4) (range : IpRange) : Prop where
  mem : range ∈ db.ipRanges.rows
  contains : range.Contains ip
  le : ∀ other ∈ db.ipRanges.rows, other.Contains ip →
    (range.rangeTo : ℤ) - range.rangeFrom ≤ other.rangeTo - other.rangeFrom

/-- The provider has a range around the address. -/
def Serves (db : Database) (isp : IspId) (ip : IPv4) : Prop :=
  (∃ row ∈ db.isps.rows, row.pk = isp) ∧
    ∃ range ∈ db.ipRanges.rows, range.isp = some isp ∧ range.Contains ip

/-- What a call on `db` returns and leaves, where `whois` is what the lookup yields if made. -/
structure Answers (db : Database) (whois : Option WhoisQueryResult) (ip : IPv4)
    (isp : Option IspId) (asked : Bool) (db' : Database) : Prop where
  serves : ∀ pk ∈ isp, Serves db' pk ip
  null : isp = none → asked = true ∧ whois = none ∧
    ∀ range ∈ db.ipRanges.rows, ¬ range.Contains ip
  unchanged : asked = false ∨ whois = none → db' = db
  unasked_iff : 1 < ip → (asked = false ↔ ∃ range, Narrowest db ip range ∧
    (range.rangeTo : ℤ) - range.rangeFrom ≤ acceptedIpLength)
  narrowest : 1 < ip → asked = false → ∃ range, Narrowest db ip range ∧ isp = range.isp

section Match

variable {db : Database} {ip : IPv4} {ranges : List IpRange} {range : IpRange}

theorem mem_shortest : range ∈ shortest ranges ↔
    range ∈ ranges ∧ ∀ other ∈ ranges, length range ≤ length other := by
  simp only [shortest, List.mem_filter, List.all_eq_true, decide_eq_true_eq]

theorem shortest_ne_nil (h : ranges ≠ []) : shortest ranges ≠ [] := by
  obtain ⟨range, hrange⟩ : ∃ range, ranges.argmin length = some range := by
    rw [← Option.ne_none_iff_exists']
    exact fun hnone => h (List.argmin_eq_none.mp hnone)
  have hmem : range ∈ shortest ranges := by
    rw [mem_shortest]
    exact ⟨List.argmin_mem hrange, fun other hother => List.le_of_mem_argmin hother hrange⟩
  exact List.ne_nil_of_mem hmem

/-- The match finds a shortest range around the address, or there is none around it. -/
theorem run_match (pick : ℕ) (db : Database) (ip : IPv4) :
    ((ISPManager.match pick ip).run db = (.ok none, db) ∧
      ∀ range ∈ db.ipRanges.rows, ¬ range.Contains ip) ∨
    ∃ range ∈ db.ipRanges.rows, range.Contains ip ∧
      (∀ other ∈ db.ipRanges.rows, other.Contains ip → length range ≤ length other) ∧
      (ISPManager.match pick ip).run db = (.ok (some (range.isp, length range)), db) := by
  let around := db.ipRanges.rows.filter fun range => range.rangeFrom ≤ ip ∧ ip ≤ range.rangeTo
  have hmem : ∀ range, range ∈ around ↔ range ∈ db.ipRanges.rows ∧ range.Contains ip := by
    intro range
    simp only [around, List.mem_filter, decide_eq_true_eq, IpRange.Contains]
  have hrun : (ISPManager.match pick ip).run db =
      (.ok ((Table.anyRow pick (shortest around)).map fun range =>
        (range.isp, length range)), db) := rfl
  rw [hrun]
  cases hrow : Table.anyRow pick (shortest around) with
  | none =>
    left
    refine ⟨rfl, fun range hrange hcontains => ?_⟩
    have hne : around ≠ [] := List.ne_nil_of_mem ((hmem range).mpr ⟨hrange, hcontains⟩)
    exact shortest_ne_nil hne (Table.anyRow_eq_none_iff.mp hrow)
  | some range =>
    right
    obtain ⟨haround, hle⟩ := mem_shortest.mp (Table.anyRow_mem hrow)
    obtain ⟨hrange, hcontains⟩ := (hmem range).mp haround
    exact ⟨range, hrange, hcontains,
      fun other hother hin => hle other ((hmem other).mpr ⟨hother, hin⟩), rfl⟩

theorem length_of_contains (hip : 1 < ip) (h : range.Contains ip) :
    length range = (range.rangeTo : ℤ) - range.rangeFrom :=
  if_pos (lt_of_lt_of_le hip h.2)

end Match

section Register

variable {db : Database} {network : WhoisQueryResult} {isps : Table Isp Isp.pk} {isp : IspId}

/-- The database with a row for the network, which belongs to that provider. -/
def withRange (db : Database) (network : WhoisQueryResult) (isps : Table Isp Isp.pk)
    (isp : IspId) : Database :=
  ((addIpRange isp db.ipRanges.nextPk).run
    ((createIpRange network.cidrFrom network.cidrTo).run { db with isps }).2).2

theorem rows_withRange : (withRange db network isps isp).ipRanges.rows = db.ipRanges.rows ++
    [⟨db.ipRanges.nextPk, some isp, network.cidrFrom, network.cidrTo⟩] := by
  have hothers : (db.ipRanges.rows.map fun range =>
      if range.pk = db.ipRanges.nextPk then { range with isp := some isp } else range) =
        db.ipRanges.rows := by
    refine (List.map_congr_left fun range hrange => ?_).trans (List.map_id _)
    exact if_neg (db.ipRanges.lt_nextPk hrange).ne
  simp only [withRange, createIpRange, run_statement, addIpRange, run_write, Table.rows_update,
    Table.rows_create, List.map_append, List.map_cons, List.map_nil, decide_eq_true_eq, if_true,
    hothers]

theorem mem_withRange {range : IpRange} : range ∈ (withRange db network isps isp).ipRanges.rows ↔
    range ∈ db.ipRanges.rows ∨
      range = ⟨db.ipRanges.nextPk, some isp, network.cidrFrom, network.cidrTo⟩ := by
  rw [rows_withRange, List.mem_append, List.mem_singleton]

theorem knownRange_eq_none : knownRange db network = none ↔ ∀ range ∈ db.ipRanges.rows,
    range.rangeFrom = network.cidrFrom → range.rangeTo ≠ network.cidrTo := by
  simp only [knownRange, List.find?_eq_none, decide_eq_true_eq, not_and, ne_eq]

theorem sound_withRange (h : Sound db) (hle : network.cidrFrom ≤ network.cidrTo)
    (hunknown : knownRange db network = none) (hkept : ∀ row ∈ db.isps.rows, row ∈ isps.rows)
    (hisp : ∃ row ∈ isps.rows, row.pk = isp)
    (honce : NamedOnce (withRange db network isps isp)) :
    Sound (withRange db network isps isp) where
  ordered range hrange := by
    obtain hrange | rfl := mem_withRange.mp hrange
    · exact h.ordered range hrange
    · exact hle
  distinct range hrange other hother hfrom hto := by
    have hnew := knownRange_eq_none.mp hunknown
    obtain hrange | rfl := mem_withRange.mp hrange
    · obtain hother | rfl := mem_withRange.mp hother
      · exact h.distinct range hrange other hother hfrom hto
      · exact absurd hto (hnew range hrange hfrom)
    · obtain hother | rfl := mem_withRange.mp hother
      · exact absurd hto.symm (hnew other hother hfrom.symm)
      · rfl
  owned range hrange := by
    obtain hrange | rfl := mem_withRange.mp hrange
    · obtain ⟨row, hrow, howner⟩ := h.owned range hrange
      exact ⟨row, hkept row hrow, howner⟩
    · obtain ⟨row, hrow, rfl⟩ := hisp
      exact ⟨row, hrow, rfl⟩
  namedOnce := honce

theorem run_obtainIsp (h : NamedOnce db) (name country : Option String) :
    ∃ isps isp created, (obtainIsp name country).run db = (.ok (isp, created), { db with isps }) ∧
      (∀ row ∈ db.isps.rows, row ∈ isps.rows) ∧ (∃ row ∈ isps.rows, row.pk = isp) ∧
      NamedOnce { db with isps } := by
  let newIsps : Table Isp Isp.pk := db.isps.create (fun pk => { pk, name, country }) fun _ => rfl
  have hkept : ∀ row ∈ db.isps.rows, row ∈ newIsps.rows :=
    fun row hrow => Table.mem_create.mpr (.inl hrow)
  have hnew : ∃ row ∈ newIsps.rows, row.pk = db.isps.nextPk :=
    ⟨_, Table.mem_create.mpr (.inr rfl), rfl⟩
  cases name with
  | none =>
    refine ⟨newIsps, db.isps.nextPk, true, ?_, hkept, hnew, ?_⟩
    · simp only [obtainIsp, createIsp, run_bind, run_statement, run_pure]
      rfl
    · apply (namedOnce_create h rfl).mpr
      rintro _ ⟨⟩
  | some name =>
    have hlength : (named db name country).length ≤ 1 := length_named h
    have hrows : (db.isps.rows.filter fun isp => isp.name = some name ∧ isp.country = country) =
        named db name country := rfl
    simp only [obtainIsp, getOrCreateIsp, getOrCreate, run_bind, run_read, hrows]
    cases hfound : named db name country with
    | nil =>
      refine ⟨newIsps, db.isps.nextPk, true, ?_, hkept, hnew, ?_⟩
      · simp only [createIsp, run_bind, run_atomic, run_statement, run_pure]
        rfl
      · apply (namedOnce_create h rfl).mpr
        rintro _ ⟨⟩
        exact hfound
    | cons isp rest =>
      rw [hfound] at hlength
      obtain rfl : rest = [] := by
        simpa using hlength
      have hisp : isp ∈ named db name country := by
        rw [hfound]
        exact List.mem_cons_self
      exact ⟨db.isps, isp.pk, false, rfl, fun _ hrow => hrow, ⟨isp, (mem_named.mp hisp).1, rfl⟩, h⟩

theorem run_registerNetwork_of_unknown (hunknown : knownRange db network = none)
    (honce : NamedOnce db) : ∃ isps isp created,
      (registerNetwork network).run db =
        (.ok (some isp, created), withRange db network isps isp) ∧
      (∀ row ∈ db.isps.rows, row ∈ isps.rows) ∧ (∃ row ∈ isps.rows, row.pk = isp) ∧
      NamedOnce (withRange db network isps isp) := by
  let db₁ : Database := ((createIpRange network.cidrFrom network.cidrTo).run db).2
  have honce₁ : NamedOnce db₁ := (namedOnce_congr rfl).mpr honce
  obtain ⟨isps, isp, created, hrun, hkept, hisp, honce₂⟩ :=
    run_obtainIsp honce₁ (lookupItem network.description) (lookupItem network.country)
  refine ⟨isps, isp, created, ?_, hkept, hisp, (namedOnce_congr rfl).mpr honce₂⟩
  have hcreate : (createIpRange network.cidrFrom network.cidrTo).run db =
      (.ok db.ipRanges.nextPk, db₁) := rfl
  rw [knownRange] at hunknown
  simp only [registerNetwork, run_atomic, run_bind, run_read, hunknown, hcreate, hrun, run_pure]
  rfl

theorem run_registerNetwork (h : Sound db) (hle : network.cidrFrom ≤ network.cidrTo) :
    ∃ isp created db', (registerNetwork network).run db = (.ok (some isp, created), db') ∧
      Sound db' ∧ (∃ row ∈ db'.isps.rows, row.pk = isp) ∧
      ∃ range ∈ db'.ipRanges.rows, range.isp = some isp ∧
        range.rangeFrom = network.cidrFrom ∧ range.rangeTo = network.cidrTo := by
  cases hknown : knownRange db network with
  | none =>
    obtain ⟨isps, isp, created, hrun, hkept, hisp, honce⟩ :=
      run_registerNetwork_of_unknown hknown h.namedOnce
    exact ⟨isp, created, _, hrun, sound_withRange h hle hknown hkept hisp honce, hisp, _,
      mem_withRange.mpr (.inr rfl), rfl, rfl, rfl⟩
  | some range =>
    have hmem : range ∈ db.ipRanges.rows := List.mem_of_find?_eq_some hknown
    have hends : range.rangeFrom = network.cidrFrom ∧ range.rangeTo = network.cidrTo := by
      simpa using List.find?_some hknown
    obtain ⟨row, hrow, howner⟩ := h.owned range hmem
    have hrun : (registerNetwork network).run db = (.ok (range.isp, false), db) := by
      rw [knownRange] at hknown
      simp only [registerNetwork, run_atomic, run_bind, run_read, hknown, run_pure]
    rw [howner] at hrun
    exact ⟨row.pk, false, db, hrun, h, ⟨row, hrow, rfl⟩, range, hmem, howner, hends⟩

end Register

section Call

variable {db : Database} {ip : IPv4} {range : IpRange} {libraries : WhoisLibraries}

theorem serves_of_mem (h : Sound db) (hrange : range ∈ db.ipRanges.rows)
    (hcontains : range.Contains ip) : ∃ isp, range.isp = some isp ∧ Serves db isp ip := by
  obtain ⟨row, hrow, howner⟩ := h.owned range hrange
  exact ⟨row.pk, howner, ⟨row, hrow, rfl⟩, range, hrange, howner, hcontains⟩

/-- A lookup that is made returns what it falls back to exactly where whois fails. -/
theorem run_matchByWhois (h : Sound db) {whois : Option WhoisQueryResult}
    (hwhois : ∀ network ∈ whois, network.cidrFrom ≤ ip ∧ ip ≤ network.cidrTo)
    (fallback : Option IspId) : ∃ isp created db',
      (matchByWhois whois fallback).run db = (.ok (isp, created), db') ∧ Sound db' ∧
        (whois = none ∧ isp = fallback ∧ db' = db ∨
          whois ≠ none ∧ ∃ pk, isp = some pk ∧ Serves db' pk ip) := by
  cases whois with
  | none => exact ⟨fallback, false, db, rfl, h, .inl ⟨rfl, rfl, rfl⟩⟩
  | some network =>
    obtain ⟨hfrom, hto⟩ := hwhois network rfl
    obtain ⟨isp, created, db', hrun, hsound, hisp, range, hrange, howner, rfrom, rto⟩ :=
      run_registerNetwork h (hfrom.trans hto)
    have hcontains : range.Contains ip := ⟨rfrom.trans_le hfrom, hto.trans_eq rto.symm⟩
    exact ⟨some isp, created, db', hrun, hsound,
      .inr ⟨Option.some_ne_none _, isp, rfl, hisp, range, hrange, howner, hcontains⟩⟩

/-- A shortest range by the `length` column is a narrowest one for all but the first addresses. -/
theorem narrowest_of_shortest (hip : 1 < ip) (hrange : range ∈ db.ipRanges.rows)
    (hcontains : range.Contains ip)
    (hle : ∀ other ∈ db.ipRanges.rows, other.Contains ip → length range ≤ length other) :
    Narrowest db ip range where
  mem := hrange
  contains := hcontains
  le other hother hin := by
    have hlength := hle other hother hin
    rwa [length_of_contains hip hcontains, length_of_contains hip hin] at hlength

theorem answers_of_asked {whois : Option WhoisQueryResult} {isp fallback : Option IspId}
    {db' : Database} (hfallback : ∀ pk ∈ fallback, Serves db pk ip)
    (hunstored : fallback = none → ∀ range ∈ db.ipRanges.rows, ¬ range.Contains ip)
    (hbroad : 1 < ip → ∀ range, Narrowest db ip range →
      acceptedIpLength < (range.rangeTo : ℤ) - range.rangeFrom)
    (hresult : whois = none ∧ isp = fallback ∧ db' = db ∨
      whois ≠ none ∧ ∃ pk, isp = some pk ∧ Serves db' pk ip) :
    Answers db whois ip isp true db' where
  serves := by
    rintro pk rfl
    obtain ⟨_, rfl, rfl⟩ | ⟨_, served, hserved, hserves⟩ := hresult
    · exact hfallback pk rfl
    · obtain rfl := Option.some.inj hserved
      exact hserves
  null := by
    rintro rfl
    obtain ⟨hfailed, hnone, _⟩ | ⟨_, served, hserved, _⟩ := hresult
    · exact ⟨rfl, hfailed, hunstored hnone.symm⟩
    · cases hserved
  unchanged := by
    rintro (hasked | hfailed)
    · cases hasked
    · obtain ⟨_, _, rfl⟩ | ⟨hsucceeded, _⟩ := hresult
      · rfl
      · exact absurd hfailed hsucceeded
  unasked_iff := by
    intro hip
    constructor
    · rintro ⟨⟩
    · rintro ⟨range, hnarrowest, hle⟩
      exact absurd hle (not_le.mpr (hbroad hip range hnarrowest))
  narrowest := by
    rintro _ ⟨⟩

theorem answers_of_accepted {whois : Option WhoisQueryResult} (h : Sound db)
    (hrange : range ∈ db.ipRanges.rows) (hcontains : range.Contains ip)
    (hle : ∀ other ∈ db.ipRanges.rows, other.Contains ip → length range ≤ length other)
    (haccepted : length range ≤ acceptedIpLength) :
    Answers db whois ip range.isp false db where
  serves := by
    obtain ⟨owner, howner, hserves⟩ := serves_of_mem h hrange hcontains
    rw [howner]
    rintro _ ⟨⟩
    exact hserves
  null := by
    intro hnone
    obtain ⟨owner, howner, _⟩ := serves_of_mem h hrange hcontains
    rw [howner] at hnone
    cases hnone
  unchanged := fun _ => rfl
  unasked_iff := by
    intro hip
    have hnarrowest : Narrowest db ip range := narrowest_of_shortest hip hrange hcontains hle
    rw [length_of_contains hip hcontains] at haccepted
    exact iff_of_true rfl ⟨range, hnarrowest, haccepted⟩
  narrowest := fun hip _ => ⟨range, narrowest_of_shortest hip hrange hcontains hle, rfl⟩

theorem run_callNoting (libraries : WhoisLibraries) (h : Sound db) (lookup : Lookup) :
    ∃ isp created asked db',
      (lookup.callNoting libraries).run db = (.ok ((isp, created), asked), db') ∧ Sound db' ∧
        Answers db (lookup.whois libraries) lookup.ip isp asked db' := by
  have hwhois : ∀ network ∈ lookup.whois libraries,
      network.cidrFrom ≤ lookup.ip ∧ lookup.ip ≤ network.cidrTo :=
    fun network hnetwork => around_of_queryIpAddress hnetwork
  rw [Lookup.callNoting, matchOrCreateNoting, run_bind]
  obtain ⟨hmatch, hnone⟩ | ⟨range, hrange, hcontains, hle, hmatch⟩ :=
    run_match lookup.pick db lookup.ip
  · obtain ⟨isp, created, db', hrun, hsound, hresult⟩ := run_matchByWhois h hwhois none
    refine ⟨isp, created, true, db', ?_, hsound, answers_of_asked ?_ (fun _ => hnone) ?_ hresult⟩
    · simp only [hmatch, run_bind, hrun, run_pure]
    · rintro _ ⟨⟩
    · intro _ range hnarrowest
      exact absurd hnarrowest.contains (hnone range hnarrowest.mem)
  · obtain hbroad | haccepted := lt_or_ge acceptedIpLength (length range)
    · -- the match is too broad, and its provider is what the lookup falls back to
      obtain ⟨isp, created, db', hrun, hsound, hresult⟩ := run_matchByWhois h hwhois range.isp
      obtain ⟨owner, howner, hserves⟩ := serves_of_mem h hrange hcontains
      refine ⟨isp, created, true, db', ?_, hsound, answers_of_asked ?_ ?_ ?_ hresult⟩
      · simp only [hmatch, gt_iff_lt, hbroad, if_true, run_bind, hrun, run_pure]
      · rw [howner]
        rintro _ ⟨⟩
        exact hserves
      · rw [howner]
        rintro ⟨⟩
      · intro hip other hnarrowest
        have hlength := hle other hnarrowest.mem hnarrowest.contains
        rw [length_of_contains hip hnarrowest.contains] at hlength
        exact hbroad.trans_le hlength
    · refine ⟨range.isp, false, false, db, ?_, h,
        answers_of_accepted h hrange hcontains hle haccepted⟩
      simp only [hmatch, gt_iff_lt, not_lt.mpr haccepted, if_false, run_pure]

theorem sound_next (h : Sound db) (lookup : Lookup) :
    Sound ((system libraries).next db lookup) := by
  obtain ⟨isp, created, asked, db', hrun, hsound, _⟩ := run_callNoting libraries h lookup
  have hcall : (lookup.call libraries).run db = (.ok (isp, created), db') :=
    run_matchOrCreate_of_noting hrun
  simp only [system, hcall]
  exact hsound

theorem sound_of_empty (hisps : db.isps.rows = []) (hranges : db.ipRanges.rows = []) :
    Sound db := by
  constructor
  · simp [hranges]
  · simp [hranges]
  · simp [hranges]
  · simp [NamedOnce, hisps]

/-- From empty tables every call finds the ranges in order, and returns what it should. -/
theorem sound_and_answers_of_run {start : Database} {lookups : List Lookup}
    (hisps : start.isps.rows = []) (hranges : start.ipRanges.rows = [])
    (hrun : Run (system libraries) start lookups db) :
    Sound db ∧ ∀ lookup, (system libraries).enabled db lookup → ∃ isp created asked db',
      (lookup.call libraries).run db = (.ok (isp, created), db') ∧
      (lookup.callNoting libraries).run db = (.ok ((isp, created), asked), db') ∧
        Answers db (lookup.whois libraries) lookup.ip isp asked db' := by
  have hsound : Sound db := hrun.invariant (fun s lookup hs _ => sound_next hs lookup)
    (sound_of_empty hisps hranges)
  refine ⟨hsound, fun lookup _ => ?_⟩
  obtain ⟨isp, created, asked, db', hnoting, _, hanswers⟩ :=
    run_callNoting libraries hsound lookup
  exact ⟨isp, created, asked, db', run_matchOrCreate_of_noting hnoting, hnoting, hanswers⟩

end Call

section Columns

variable {libraries : WhoisLibraries}

def FitsColumns (db : Database) : Prop :=
  ∀ isp ∈ db.isps.rows, FitsIspColumns isp.name isp.country

def Lookup.Storable (libraries : WhoisLibraries) (lookup : Lookup) : Prop :=
  ∀ nets ∈ lookup.answer, ∀ net ∈ nets, net.Storable libraries

theorem fitsIspColumns_lookupItem {name country : Option String}
    (h : FitsIspColumns name country) : FitsIspColumns (lookupItem name) (lookupItem country) := by
  constructor
  · exact fun text htext => h.1 text (Option.filter_eq_some_iff.mp htext).1
  · exact fun text htext => h.2 text (Option.filter_eq_some_iff.mp htext).1

theorem ensures_createIsp {name country : Option String} (h : FitsIspColumns name country) :
    Ensures (createIsp name country) FitsColumns fun _ => FitsColumns := by
  apply Ensures.statement
  rintro db _ _ hfits ⟨⟩
  exact Table.forall_mem_create hfits fun _ => h

theorem ensures_obtainIsp {name country : Option String} (h : FitsIspColumns name country) :
    Ensures (obtainIsp name country) FitsColumns fun _ => FitsColumns := by
  cases name with
  | none => exact (ensures_createIsp h).bind fun _ => Ensures.pure fun _ hfits => hfits
  | some name =>
    refine Ensures.bind (Q := fun _ => FitsColumns) (Ensures.read fun _ hfits => hfits)
      fun found => ?_
    match found with
    | [] =>
      exact (ensures_createIsp h).atomic.bind fun _ => Ensures.pure fun _ hfits => hfits
    | [_] => exact Ensures.pure fun _ hfits => hfits
    | _ :: _ :: _ => exact Ensures.raise

theorem ensures_matchByWhois {whois : Option WhoisQueryResult}
    (h : ∀ network ∈ whois, FitsIspColumns network.description network.country)
    (fallback : Option IspId) :
    Ensures (matchByWhois whois fallback) FitsColumns fun _ => FitsColumns := by
  cases whois with
  | none => exact Ensures.pure fun _ hfits => hfits
  | some network =>
    apply Ensures.atomic
    refine Ensures.bind (Q := fun _ => FitsColumns) (Ensures.read fun _ hfits => hfits)
      fun known => ?_
    match known with
    | some _ => exact Ensures.pure fun _ hfits => hfits
    | none =>
      refine Ensures.bind (Q := fun _ => FitsColumns) ?_ fun rangePk =>
        (ensures_obtainIsp (fitsIspColumns_lookupItem (h network rfl))).bind fun isp => ?_
      · apply Ensures.atomic
        apply Ensures.statement
        rintro db _ _ hfits ⟨⟩
        exact hfits
      · refine Ensures.bind (Q := fun _ => FitsColumns) (Ensures.write fun _ hfits => hfits)
          fun _ => Ensures.pure fun _ hfits => hfits

theorem ensures_call {lookup : Lookup} (h : ∀ network ∈ lookup.whois libraries,
    FitsIspColumns network.description network.country) :
    Ensures (lookup.call libraries) FitsColumns fun _ => FitsColumns := by
  refine Ensures.bind (Q := fun _ => FitsColumns) (Ensures.read fun _ hfits => hfits)
    fun matched => ?_
  match matched with
  | none => exact ensures_matchByWhois h none
  | some (isp, length) =>
    obtain hbroad | hbroad := Decidable.em (length > acceptedIpLength)
    · simp only [hbroad, if_true]
      exact ensures_matchByWhois h isp
    · simp only [hbroad, if_false]
      exact Ensures.pure fun _ hfits => hfits

theorem fitsColumns_next {db : Database} {lookup : Lookup}
    (hname : ∀ ip, ∀ name ∈ libraries.ipv4IsDefined ip, FitsColumn 255 name)
    (hsound : Sound db) (hfits : FitsColumns db) (hlookup : lookup.Storable libraries) :
    FitsColumns ((system libraries).next db lookup) := by
  have hnetwork : ∀ network ∈ lookup.whois libraries,
      FitsIspColumns network.description network.country :=
    fun network hwhois => fitsIspColumns_of_queryIpAddress (hname lookup.ip) hlookup hwhois
  obtain ⟨isp, created, asked, db', hnoting, _⟩ := run_callNoting libraries hsound lookup
  have hexec : (lookup.call libraries).exec ⟨db, none⟩ = (.ok (isp, created), ⟨db', none⟩) := by
    rw [exec_calm, Lookup.call, run_matchOrCreate_of_noting hnoting]
  simp only [system, run, hexec]
  exact ensures_call hnetwork _ _ _ hfits hexec

/-- No insert of a provider is refused while the answers hold nothing that its columns refuse. -/
theorem fitsColumns_of_run {start db : Database} {lookups : List Lookup}
    (hname : ∀ ip, ∀ name ∈ libraries.ipv4IsDefined ip, FitsColumn 255 name)
    (hanswers : ∀ lookup ∈ lookups, lookup.Storable libraries)
    (hisps : start.isps.rows = []) (hranges : start.ipRanges.rows = [])
    (hrun : Run (system libraries) start lookups db) : FitsColumns db := by
  let Inv := fun db : Database => Sound db ∧ FitsColumns db
  have hstart : Inv start := ⟨sound_of_empty hisps hranges, by simp [FitsColumns, hisps]⟩
  have hinv : Inv db := by
    refine hrun.invariant_of_mem ?_ hstart
    rintro db lookup hlookup ⟨hsound, hfits⟩ _
    exact ⟨sound_next hsound lookup,
      fitsColumns_next hname hsound hfits (hanswers lookup hlookup)⟩
  exact hinv.2

end Columns

section Example

def plainLibraries : WhoisLibraries := ⟨fun _ => none, fun text => text.map Char.toLower⟩

def firstLookup : Lookup where
  pick := 0
  answer := some [{
    cidr := some "1.2.3.5/32, 1.2.3.0/24".toList
    description := some " foo".toList
    country := some "UN".toList }]
  ip := 16909060

def nextLookup : Lookup := ⟨0, none, 16909061⟩

theorem answers_nextLookup : ∃ db, Run (system plainLibraries) Database.empty [firstLookup] db ∧
    db.isps.rows = [⟨1, some "foo", some "un"⟩] ∧
    db.ipRanges.rows = [⟨1, some 1, 16909056, 16909311⟩] ∧ Sound db ∧
    ∃ isp created asked db',
      (nextLookup.callNoting plainLibraries).run db = (.ok ((isp, created), asked), db') ∧
        Answers db none 16909061 isp asked db' := by
  have hrun : Run (system plainLibraries) Database.empty [firstLookup]
      ((system plainLibraries).next Database.empty firstLookup) :=
    .cons (by decide : firstLookup.ip < 2 ^ 32) (.nil _)
  obtain ⟨hsound, hanswers⟩ := sound_and_answers_of_run rfl rfl hrun
  obtain ⟨isp, created, asked, db', _, hnoting, hanswer⟩ :=
    hanswers nextLookup (by decide : nextLookup.ip < 2 ^ 32)
  exact ⟨_, hrun, by decide, by decide, hsound, isp, created, asked, db', hnoting, hanswer⟩

end Example

end IpRegistry

end Swat4Stats
