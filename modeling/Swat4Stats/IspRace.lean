import Swat4Stats.Geoip
import Swat4Stats.Library.Transition

/-!
# Provider lookups side by side

Several workers look up providers at once. What a transaction inserts is visible to the others when
it commits. The unique constraint on ranges makes a second transaction wait for the first, but
nothing of the kind serialises the providers: two lookups of one name can both find nothing.
-/

namespace Swat4Stats

set_option autoImplicit false

open Tx Transition

namespace IspRace

open ISPManager

/-- How far the call of a worker has come. -/
inductive Phase where
  | idle
  /-- No range or only a broad one was found, and the whois query is under way. -/
  | unmatched (fallback : Option IspId)
  | answered (network : WhoisQueryResult)
  /-- The transaction has inserted the range. -/
  | inserted (network : WhoisQueryResult)
  /-- The lookup has found that provider, or none, so that it is to be created. -/
  | looked (network : WhoisQueryResult) (found : Option IspId)

structure State where
  db : Database
  phase : ℕ → Phase

def initial (db : Database) : State := ⟨db, fun _ => .idle⟩

inductive Event where
  | «match» (worker : ℕ) (pick : ℕ) (ip : IPv4)
  | whois (worker : ℕ) (answer : Option WhoisQueryResult)
  | obtainRange (worker : ℕ)
  | lookupIsp (worker : ℕ)
  /-- The provider is created if need be, the range is added to it, and the transaction ends. -/
  | commit (worker : ℕ)
  /-- Whatever rolls the transaction back or ends the call. -/
  | abort (worker : ℕ)
  | deleteExpired (expired : IpRange → Bool)
  /-- Other tables change. -/
  | elsewhere (change : Database → Database)

def nameOf (network : WhoisQueryResult) : Option String := lookupItem network.description

def countryOf (network : WhoisQueryResult) : Option String := lookupItem network.country

/-- The range that the transaction holds. -/
def Phase.range? : Phase → Option (ℕ × ℕ)
  | .inserted network | .looked network _ => some (network.cidrFrom, network.cidrTo)
  | .idle | .unmatched _ | .answered _ => none

def afterMatch : Except (Failure TrackerError) (Option (Option IspId × ℤ)) → Phase
  | .ok none => .unmatched none
  | .ok (some (isp, length)) => if length > acceptedIpLength then .unmatched isp else .idle
  | .error _ => .idle

def knownRange (db : Database) (network : WhoisQueryResult) : Option IpRange :=
  db.ipRanges.rows.find? fun range =>
    range.rangeFrom = network.cidrFrom ∧ range.rangeTo = network.cidrTo

def named (db : Database) (name : String) (country : Option String) : List Isp :=
  db.isps.rows.filter fun isp => isp.name = some name ∧ isp.country = country

def lookupIsp (network : WhoisQueryResult) : DbTx (Option IspId) :=
  match nameOf network with
  | none => pure none
  | some name => do
    let found ← read fun db => named db name (countryOf network)
    match found with
    | [] => pure none
    | [isp] => pure (some isp.pk)
    | _ => raise .multipleObjectsReturned

def afterLookup (network : WhoisQueryResult) : Except (Failure TrackerError) (Option IspId) → Phase
  | .ok found => .looked network found
  | .error _ => .idle

def register (network : WhoisQueryResult) (found : Option IspId) : DbTx Unit := do
  let rangePk ← createIpRange network.cidrFrom network.cidrTo
  match found with
  | some isp => addIpRange isp rangePk
  | none => do
    let isp ← createIsp (nameOf network) (countryOf network)
    addIpRange isp rangePk

def State.set (s : State) (worker : ℕ) (phase : Phase) : State :=
  { s with phase := Function.update s.phase worker phase }

@[simp] theorem State.db_set (s : State) (worker : ℕ) (phase : Phase) :
    (s.set worker phase).db = s.db := rfl

@[simp] theorem State.phase_set_self (s : State) (worker : ℕ) (phase : Phase) :
    (s.set worker phase).phase worker = phase := Function.update_self ..

def system : System State Event where
  enabled s
    | .match worker _ _ => s.phase worker = .idle
    | .whois worker _ => ∃ fallback, s.phase worker = .unmatched fallback
    | .obtainRange worker => ∃ network, s.phase worker = .answered network ∧
      ∀ other, (s.phase other).range? ≠ some (network.cidrFrom, network.cidrTo)
    | .lookupIsp worker => ∃ network, s.phase worker = .inserted network
    | .commit worker => ∃ network found, s.phase worker = .looked network found
    | .abort _ | .deleteExpired _ => True
    | .elsewhere change =>
      (change s.db).isps = s.db.isps ∧ (change s.db).ipRanges = s.db.ipRanges
  next s
    | .match worker pick ip => s.set worker (afterMatch ((ISPManager.match pick ip).run s.db).1)
    | .whois worker answer =>
      match s.phase worker, answer with
      | .unmatched _, none => s.set worker .idle
      | .unmatched _, some network => s.set worker (.answered network)
      | _, _ => s
    | .obtainRange worker =>
      match s.phase worker with
      | .answered network =>
        match knownRange s.db network with
        | some _ => s.set worker .idle
        | none => s.set worker (.inserted network)
      | _ => s
    | .lookupIsp worker =>
      match s.phase worker with
      | .inserted network =>
        s.set worker (afterLookup network ((IspRace.lookupIsp network).run s.db).1)
      | _ => s
    | .commit worker =>
      match s.phase worker with
      | .looked network found =>
        { s.set worker .idle with db := ((register network found).run s.db).2 }
      | _ => s
    | .abort worker => s.set worker .idle
    | .deleteExpired expired =>
      { s with db := { s.db with ipRanges := s.db.ipRanges.delete expired } }
    | .elsewhere change => { s with db := change s.db }

def Event.worker? : Event → Option ℕ
  | .match worker _ _ | .whois worker _ | .obtainRange worker | .lookupIsp worker
  | .commit worker | .abort worker => some worker
  | .deleteExpired _ | .elsewhere _ => none

theorem phase_next {s : State} {e : Event} {other : ℕ} (h : e.worker? ≠ some other) :
    (system.next s e).phase other = s.phase other := by
  have hset : ∀ worker phase, some worker ≠ some other →
      (s.set worker phase).phase other = s.phase other :=
    fun worker phase hne => Function.update_of_ne (fun heq => hne (congrArg some heq.symm)) ..
  cases e with
  | «match» worker pick ip => exact hset worker _ h
  | whois worker answer =>
    simp only [system]
    split
    · exact hset worker _ h
    · exact hset worker _ h
    · rfl
  | obtainRange worker =>
    simp only [system]
    split
    · split
      · exact hset worker _ h
      · exact hset worker _ h
    · rfl
  | lookupIsp worker =>
    simp only [system]
    split
    · exact hset worker _ h
    · rfl
  | commit worker =>
    simp only [system]
    split
    · exact hset worker _ h
    · rfl
  | abort worker => exact hset worker _ h
  | deleteExpired expired => rfl
  | elsewhere change => rfl

theorem phase_foldl {events : List Event} {s : State} {other : ℕ}
    (h : ∀ e ∈ events, e.worker? ≠ some other) :
    (events.foldl system.next s).phase other = s.phase other := by
  induction events generalizing s with
  | nil => rfl
  | cons e events ih =>
    rw [List.foldl_cons, ih fun e' he' => h e' (List.mem_cons_of_mem _ he')]
    exact phase_next (h e List.mem_cons_self)

/-- A call that nothing interrupts. -/
def call (worker pick : ℕ) (ip : IPv4) (answer : Option WhoisQueryResult) : List Event :=
  [.match worker pick ip, .whois worker answer, .obtainRange worker, .lookupIsp worker,
    .commit worker]

theorem run_registerNetwork {network : WhoisQueryResult} {db : Database}
    (hunknown : knownRange db network = none) :
    ((registerNetwork network).run db).2 = match ((lookupIsp network).run db).1 with
      | .ok found => ((register network found).run db).2
      | .error _ => db := by
  rw [knownRange] at hunknown
  simp only [registerNetwork, run_atomic, run_bind, run_read, hunknown, createIpRange,
    run_statement, lookupIsp, nameOf, obtainIsp]
  cases hname : lookupItem network.description with
  | none =>
    simp only [createIsp, run_bind, run_statement, run_pure, addIpRange, run_write, register,
      createIpRange, nameOf, hname, countryOf]
  | some name =>
    have hrows : ∀ db' : Database, db'.isps = db.isps →
        (db'.isps.rows.filter fun isp =>
          isp.name = some name ∧ isp.country = lookupItem network.country) =
            named db name (countryOf network) := by
      intro db' hisps
      rw [hisps]
      rfl
    simp only [getOrCreateIsp, getOrCreate, run_bind, run_read, hrows]
    cases named db name (countryOf network) with
    | nil =>
      simp only [run_bind, run_atomic, createIsp, run_statement, run_pure, addIpRange, run_write,
        register, createIpRange, nameOf, hname, countryOf]
    | cons isp rest =>
      cases rest with
      | nil =>
        simp only [run_bind, run_pure, addIpRange, run_write, register, createIpRange,
          run_statement]
      | cons other rest => simp only [run_raise]

/-- The steps of a call, one after the other, do what the call does. -/
theorem db_call (worker pick : ℕ) (ip : IPv4) (answer : Option WhoisQueryResult) (db : Database) :
    ((call worker pick ip answer).foldl system.next (initial db)).db =
      ((matchOrCreate pick answer ip).run db).2 := by
  have hreturned : ∀ s : State, s.phase worker = .idle →
      [.whois worker answer, .obtainRange worker, .lookupIsp worker,
        .commit worker].foldl system.next s = s := by
    intro s hidle
    simp only [List.foldl_cons, List.foldl_nil, system, hidle]
  have hnetwork : ∀ (s : State) (network : WhoisQueryResult), s.phase worker = .answered network →
      ([.obtainRange worker, .lookupIsp worker, .commit worker].foldl system.next s).db =
        ((registerNetwork network).run s.db).2 := by
    intro s network hanswered
    simp only [List.foldl_cons, List.foldl_nil, system, hanswered]
    cases hknown : knownRange s.db network with
    | some range =>
      have hrun : ((registerNetwork network).run s.db).2 = s.db := by
        rw [knownRange] at hknown
        simp only [registerNetwork, run_atomic, run_bind, run_read, hknown, run_pure]
      simp only [State.phase_set_self, State.db_set, hrun]
    | none =>
      rw [run_registerNetwork hknown]
      simp only [State.phase_set_self, State.db_set]
      cases ((lookupIsp network).run s.db).1 with
      | ok found => rfl
      | error e => rfl
  have hwhois : ∀ (s : State) (fallback : Option IspId), s.phase worker = .unmatched fallback →
      ([.whois worker answer, .obtainRange worker, .lookupIsp worker,
        .commit worker].foldl system.next s).db =
          ((matchByWhois answer fallback).run s.db).2 := by
    intro s fallback hunmatched
    cases answer with
    | none =>
      simp only [List.foldl_cons, List.foldl_nil, system, hunmatched, State.phase_set_self]
      rfl
    | some network =>
      have hnext : system.next s (.whois worker (some network)) =
          s.set worker (.answered network) := by
        simp only [system, hunmatched]
      rw [List.foldl_cons, hnext]
      exact hnetwork _ network (State.phase_set_self ..)
  obtain ⟨matched, hmatched⟩ : ∃ matched,
      (ISPManager.match pick ip).run db = (.ok matched, db) := ⟨_, rfl⟩
  have hnext : system.next (initial db) (.match worker pick ip) =
      (initial db).set worker (afterMatch (.ok matched)) := by
    simp only [system, initial, hmatched]
  rw [call, List.foldl_cons, hnext, matchOrCreate, run_bind, hmatched]
  cases matched with
  | none => exact hwhois _ none (State.phase_set_self ..)
  | some found =>
    obtain ⟨isp, length⟩ := found
    obtain hbroad | hbroad := Decidable.em (length > acceptedIpLength)
    · simp only [hbroad, if_true]
      apply hwhois _ isp
      rw [State.phase_set_self, afterMatch, if_pos hbroad]
    · simp only [hbroad, if_false]
      rw [hreturned]
      · rfl
      · rw [State.phase_set_self, afterMatch, if_neg hbroad]

/-- At most one provider row has a name and a country. -/
def NamedOnce (db : Database) : Prop :=
  ∀ isp ∈ db.isps.rows, ∀ other ∈ db.isps.rows, isp.name ≠ none →
    isp.name = other.name → isp.country = other.country → isp = other

/-- No provider of the name has been committed when a transaction commits a new one. -/
def StillMissing (s : State) : Event → Prop
  | .commit worker => ∀ network, s.phase worker = .looked network none →
      ∀ name ∈ nameOf network, named s.db name (countryOf network) = []
  | _ => True

/-- No other transaction is about to create the provider that a lookup does not find. -/
def Alone (s : State) : Event → Prop
  | .lookupIsp worker => ∀ network, s.phase worker = .inserted network →
      ∀ name ∈ nameOf network, named s.db name (countryOf network) = [] →
        ∀ other network', s.phase other = .looked network' none →
          nameOf network' = some name → countryOf network' ≠ countryOf network
  | _ => True

/-- The provider that a transaction is about to create is missing, and no other one creates it. -/
structure Reserved (s : State) : Prop where
  missing : ∀ worker network, s.phase worker = .looked network none →
    ∀ name ∈ nameOf network, named s.db name (countryOf network) = []
  once : ∀ worker network other network', s.phase worker = .looked network none →
    s.phase other = .looked network' none → nameOf network ≠ none →
      nameOf network = nameOf network' → countryOf network = countryOf network' → worker = other

section Names

variable {s t : State} {db db' : Database} {name : String} {country : Option String} {isp : Isp}
  {network : WhoisQueryResult}

theorem mem_named : isp ∈ named db name country ↔
    isp ∈ db.isps.rows ∧ isp.name = some name ∧ isp.country = country := by
  simp only [named, List.mem_filter, decide_eq_true_eq]

theorem namedOnce_congr (h : db'.isps = db.isps) : NamedOnce db' ↔ NamedOnce db := by
  rw [NamedOnce, NamedOnce, h]

theorem namedOnce_create (h : NamedOnce db) {name : Option String}
    (hisps : db'.isps = db.isps.create (fun pk => { pk, name, country }) fun _ => rfl) :
    NamedOnce db' ↔ ∀ n ∈ name, named db n country = [] := by
  rw [NamedOnce, hisps]
  constructor
  · rintro honce n rfl
    rw [List.eq_nil_iff_forall_not_mem]
    intro isp hisp
    obtain ⟨hmem, hname, hcountry⟩ := mem_named.mp hisp
    have heq := honce isp (Table.mem_create.mpr (.inl hmem)) _ (Table.mem_create.mpr (.inr rfl))
      (by simp [hname]) hname hcountry
    have hlt := db.isps.lt_nextPk hmem
    rw [heq] at hlt
    exact lt_irrefl _ hlt
  · intro hmissing
    have hnew : ∀ isp ∈ db.isps.rows, isp.name ≠ none → isp.name = name →
        isp.country ≠ country := by
      intro isp hisp hsome hname hcountry
      obtain ⟨n, hn⟩ := Option.ne_none_iff_exists'.mp hsome
      have hmem : isp ∈ named db n country := mem_named.mpr ⟨hisp, hn, hcountry⟩
      rw [hmissing n (hname ▸ hn)] at hmem
      cases hmem
    intro isp hisp other hother hsome hname hcountry
    obtain hisp | rfl := Table.mem_create.mp hisp
    · obtain hother | rfl := Table.mem_create.mp hother
      · exact h isp hisp other hother hsome hname hcountry
      · exact absurd hcountry (hnew isp hisp hsome hname)
    · obtain hother | rfl := Table.mem_create.mp hother
      · exact absurd hcountry.symm (hnew other hother (hname ▸ hsome) hname.symm)
      · rfl

theorem length_named (h : NamedOnce db) : (named db name country).length ≤ 1 := by
  have hnodup : (named db name country).Nodup := (List.Nodup.of_map _ db.isps.nodup).filter _
  cases hrows : named db name country with
  | nil => exact Nat.zero_le 1
  | cons isp rest =>
    cases rest with
    | nil => exact le_refl 1
    | cons other rest =>
      have hisp : isp ∈ named db name country := by
        rw [hrows]
        exact List.mem_cons_self
      have hother : other ∈ named db name country := by
        rw [hrows]
        exact List.mem_cons_of_mem _ List.mem_cons_self
      obtain ⟨hmem, hname, hcountry⟩ := mem_named.mp hisp
      obtain ⟨hmem', hname', hcountry'⟩ := mem_named.mp hother
      have heq := h isp hmem other hmem' (by simp [hname]) (hname.trans hname'.symm)
        (hcountry.trans hcountry'.symm)
      rw [hrows, heq] at hnodup
      exact absurd List.mem_cons_self (List.nodup_cons.mp hnodup).1

theorem run_lookupIsp (h : NamedOnce db) : ∃ found, (lookupIsp network).run db = (.ok found, db) ∧
    (found = none → ∀ name ∈ nameOf network, named db name (countryOf network) = []) := by
  unfold lookupIsp
  cases hname : nameOf network with
  | none =>
    refine ⟨none, rfl, ?_⟩
    rintro _ _ ⟨⟩
  | some name =>
    have hlength : (named db name (countryOf network)).length ≤ 1 := length_named h
    simp only [run_bind, run_read]
    cases hrows : named db name (countryOf network) with
    | nil =>
      refine ⟨none, rfl, ?_⟩
      rintro _ _ ⟨⟩
      exact hrows
    | cons isp rest =>
      rw [hrows] at hlength
      obtain rfl : rest = [] := by
        simpa using hlength
      exact ⟨some isp.pk, rfl, fun hnone => by cases hnone⟩

theorem isps_register (found : Option IspId) :
    ((register network found).run db).2.isps = match found with
      | some _ => db.isps
      | none => db.isps.create
        (fun pk => { pk, name := nameOf network, country := countryOf network }) fun _ => rfl := by
  cases found with
  | some isp => rfl
  | none => rfl

end Names

section Steps

variable {s : State}

/-- A step keeps the providers, or a transaction commits. -/
theorem isps_next {e : Event} (he : system.enabled s e) :
    (system.next s e).db.isps = s.db.isps ∨
      ∃ worker network found, e = .commit worker ∧ s.phase worker = .looked network found ∧
        system.next s e =
          { s.set worker .idle with db := ((register network found).run s.db).2 } := by
  cases e with
  | «match» worker pick ip => exact .inl rfl
  | whois worker answer =>
    obtain ⟨fallback, hphase⟩ := he
    simp only [system, hphase]
    cases answer with
    | none => exact .inl rfl
    | some network => exact .inl rfl
  | obtainRange worker =>
    obtain ⟨network, hphase, _⟩ := he
    simp only [system, hphase]
    cases knownRange s.db network with
    | none => exact .inl rfl
    | some range => exact .inl rfl
  | lookupIsp worker =>
    obtain ⟨network, hphase⟩ := he
    simp only [system, hphase]
    exact .inl rfl
  | commit worker =>
    obtain ⟨network, found, hphase⟩ := he
    refine .inr ⟨worker, network, found, rfl, hphase, ?_⟩
    simp only [system, hphase]
  | abort worker => exact .inl rfl
  | deleteExpired expired => exact .inl rfl
  | elsewhere change => exact .inl he.1

theorem namedOnce_next_iff (h : NamedOnce s.db) {e : Event} (he : system.enabled s e) :
    NamedOnce (system.next s e).db ↔ StillMissing s e := by
  obtain hisps | ⟨worker, network, found, rfl, hphase, hnext⟩ := isps_next he
  · apply iff_of_true ((namedOnce_congr hisps).mpr h)
    cases e with
    | commit worker =>
      intro network hphase name hname
      have hnext : system.next s (.commit worker) =
          { s.set worker .idle with db := ((register network none).run s.db).2 } := by
        simp only [system, hphase]
      rw [hnext] at hisps
      have hrows := congrArg (fun t => t.rows.length) ((isps_register none).symm.trans hisps)
      simp at hrows
    | _ => trivial
  · rw [hnext]
    cases found with
    | some isp =>
      refine iff_of_true ((namedOnce_congr (isps_register (some isp))).mpr h) fun network' h' => ?_
      rw [hphase] at h'
      cases h'
    | none =>
      refine (namedOnce_create h (isps_register none)).trans ⟨fun hall network' h' => ?_, ?_⟩
      · rw [hphase] at h'
        cases h'
        exact hall
      · exact fun hmissing => hmissing network hphase

/-- What another phase, or a change that keeps the providers, does to the reservations. -/
theorem Reserved.of_phases (h : Reserved s) {t : State} (hisps : t.db.isps = s.db.isps)
    (hphase : ∀ worker network, t.phase worker = .looked network none →
      s.phase worker = .looked network none) : Reserved t where
  missing worker network hlooked name hname := by
    rw [named, hisps]
    exact h.missing worker network (hphase worker network hlooked) name hname
  once worker network other network' hlooked hlooked' :=
    h.once worker network other network' (hphase worker network hlooked)
      (hphase other network' hlooked')

theorem phase_set {worker other : ℕ} {phase : Phase} {network : WhoisQueryResult}
    (hphase : ∀ network, phase ≠ .looked network none)
    (h : (s.set worker phase).phase other = .looked network none) :
    s.phase other = .looked network none := by
  simp only [State.set] at h
  obtain rfl | hne := eq_or_ne other worker
  · rw [Function.update_self] at h
    exact absurd h (hphase network)
  · rwa [Function.update_of_ne hne] at h

theorem reserved_lookup (h : Reserved s) (hnamed : NamedOnce s.db) {worker : ℕ}
    (he : system.enabled s (.lookupIsp worker)) (halone : Alone s (.lookupIsp worker)) :
    Reserved (system.next s (.lookupIsp worker)) := by
  obtain ⟨network, hphase⟩ := he
  obtain ⟨found, hrun, hmissing⟩ : ∃ found, (lookupIsp network).run s.db = (.ok found, s.db) ∧
      (found = none → ∀ name ∈ nameOf network, named s.db name (countryOf network) = []) :=
    run_lookupIsp hnamed
  have hnext : system.next s (.lookupIsp worker) = s.set worker (.looked network found) := by
    simp only [system, hphase, hrun, afterLookup]
  have hlooked : ∀ {other network'},
      (s.set worker (.looked network found)).phase other = .looked network' none →
        (other = worker ∧ network' = network ∧ found = none) ∨
          (other ≠ worker ∧ s.phase other = .looked network' none) := by
    intro other network' h'
    simp only [State.set] at h'
    obtain rfl | hne := eq_or_ne other worker
    · rw [Function.update_self, Phase.looked.injEq] at h'
      exact .inl ⟨rfl, h'.1.symm, h'.2⟩
    · rw [Function.update_of_ne hne] at h'
      exact .inr ⟨hne, h'⟩
  rw [hnext]
  constructor
  · intro other network' h' name hname
    obtain ⟨rfl, rfl, hnone⟩ | ⟨_, h'⟩ := hlooked h'
    · exact hmissing hnone name hname
    · exact h.missing other network' h' name hname
  · intro a network₁ b network₂ h₁ h₂ hsome hname hcountry
    obtain ⟨name, hname₁⟩ := Option.ne_none_iff_exists'.mp hsome
    obtain ⟨rfl, rfl, hnone⟩ | ⟨_, hold₁⟩ := hlooked h₁
    · obtain ⟨rfl, _⟩ | ⟨_, hold₂⟩ := hlooked h₂
      · rfl
      · exact absurd hcountry.symm (halone _ hphase name hname₁ (hmissing hnone name hname₁) b
          network₂ hold₂ (hname.symm.trans hname₁))
    · obtain ⟨rfl, rfl, hnone⟩ | ⟨_, hold₂⟩ := hlooked h₂
      · have hname₂ := hname.symm.trans hname₁
        exact absurd hcountry (halone _ hphase name hname₂ (hmissing hnone name hname₂) a
          network₁ hold₁ hname₁)
      · exact h.once a network₁ b network₂ hold₁ hold₂ hsome hname hcountry

theorem reserved_commit (h : Reserved s) {worker : ℕ} (he : system.enabled s (.commit worker)) :
    Reserved (system.next s (.commit worker)) := by
  obtain ⟨network, found, hphase⟩ := he
  have hnext : system.next s (.commit worker) =
      { s.set worker .idle with db := ((register network found).run s.db).2 } := by
    simp only [system, hphase]
  have hlooked : ∀ {other network'},
      (s.set worker .idle).phase other = .looked network' none →
        other ≠ worker ∧ s.phase other = .looked network' none := by
    intro other network' h'
    refine ⟨?_, phase_set (fun _ => Phase.noConfusion) h'⟩
    rintro rfl
    simp [State.set] at h'
  rw [hnext]
  constructor
  · intro other network' h' name hname
    obtain ⟨hne, hold⟩ := hlooked h'
    have hmissing := h.missing other network' hold name hname
    cases found with
    | some isp => exact hmissing
    | none =>
      rw [List.eq_nil_iff_forall_not_mem]
      intro isp hisp
      obtain ⟨hmem, hisp', hcountry⟩ := mem_named.mp hisp
      obtain hmem | rfl := Table.mem_create.mp ((isps_register none) ▸ hmem)
      · have hmem' : isp ∈ named s.db name (countryOf network') :=
          mem_named.mpr ⟨hmem, hisp', hcountry⟩
        rw [hmissing] at hmem'
        cases hmem'
      · refine hne (h.once other network' worker network hold hphase ?_ ?_ hcountry.symm)
        · rw [Option.mem_def.mp hname]
          exact Option.some_ne_none name
        · exact (Option.mem_def.mp hname).trans hisp'.symm
  · intro a network₁ b network₂ h₁ h₂
    exact h.once a network₁ b network₂ (hlooked h₁).2 (hlooked h₂).2

theorem reserved_next (h : Reserved s) (hnamed : NamedOnce s.db) {e : Event}
    (he : system.enabled s e) (halone : Alone s e) : Reserved (system.next s e) := by
  cases e with
  | «match» worker pick ip =>
    refine h.of_phases rfl fun other network => phase_set fun network' => ?_
    unfold afterMatch
    split
    · exact Phase.noConfusion
    · split
      · exact Phase.noConfusion
      · exact Phase.noConfusion
    · exact Phase.noConfusion
  | whois worker answer =>
    obtain ⟨fallback, hphase⟩ := he
    simp only [system, hphase]
    cases answer with
    | none => exact h.of_phases rfl fun other network => phase_set fun _ => Phase.noConfusion
    | some network =>
      exact h.of_phases rfl fun other network => phase_set fun _ => Phase.noConfusion
  | obtainRange worker =>
    obtain ⟨network, hphase, _⟩ := he
    simp only [system, hphase]
    cases knownRange s.db network with
    | none => exact h.of_phases rfl fun other network => phase_set fun _ => Phase.noConfusion
    | some range => exact h.of_phases rfl fun other network => phase_set fun _ => Phase.noConfusion
  | lookupIsp worker => exact reserved_lookup h hnamed he halone
  | commit worker => exact reserved_commit h he
  | abort worker => exact h.of_phases rfl fun other network => phase_set fun _ => Phase.noConfusion
  | deleteExpired expired => exact h.of_phases rfl fun _ _ hlooked => hlooked
  | elsewhere change => exact h.of_phases he.1 fun _ _ hlooked => hlooked

theorem stillMissing_of_reserved (h : Reserved s) (e : Event) : StillMissing s e := by
  cases e with
  | commit worker => exact fun network hphase => h.missing worker network hphase
  | _ => trivial

end Steps

/-- Where lookups of one name exclude each other, no provider is committed twice. Exactly the runs
that commit no provider twice have every name once all the way, so that no lookup fails. -/
theorem namedOnce_iff_of_run {db : Database} {events : List Event} {s : State}
    (hdb : NamedOnce db) (h : Run system (initial db) events s) :
    (Run (system.restrict Alone) (initial db) events s →
      Run (system.restrict StillMissing) (initial db) events s) ∧
    (Run (system.restrict StillMissing) (initial db) events s ↔
      ∀ es t, es <+: events → Run system (initial db) es t → NamedOnce t.db ∧
        ∀ network,
          ((lookupIsp network).run t.db).1 ≠ .error (.raised .multipleObjectsReturned)) := by
  constructor
  · intro halone
    rw [h.restrict_iff_forall_step]
    rintro es e t ⟨gs, rfl⟩ ht
    obtain ⟨v, hv, _⟩ := Run.append_iff.mp halone
    obtain ⟨u, hu, _⟩ := Run.append_iff.mp hv
    let Inv := fun s : State => Reserved s ∧ NamedOnce s.db
    have hinv : Inv u := by
      refine hu.invariant_restrict ?_ (show Inv _ from ⟨⟨?_, ?_⟩, hdb⟩)
      · exact fun s e hs he hp => ⟨reserved_next hs.1 hs.2 he hp,
          (namedOnce_next_iff hs.2 he).mpr (stillMissing_of_reserved hs.1 e)⟩
      · rintro worker network ⟨⟩
      · rintro worker network other network' ⟨⟩
    rw [ht.unique hu.of_restrict]
    exact stillMissing_of_reserved hinv.1 e
  · let Any := fun _ : State => True
    let Good := fun s : State => NamedOnce s.db
    refine (h.restrict_iff_forall_prefix (fun s e (_ : Any s) _ _ => trivial)
      (fun s e _ (hs : Good s) he => namedOnce_next_iff hs he) trivial hdb).trans ?_
    constructor
    · intro hall es t hes ht
      have honce : NamedOnce t.db := hall es t hes ht
      refine ⟨honce, fun network hfails => ?_⟩
      obtain ⟨found, hrun, _⟩ : ∃ found, (lookupIsp network).run t.db = (.ok found, t.db) ∧
          (found = none → ∀ name ∈ nameOf network, named t.db name (countryOf network) = []) :=
        run_lookupIsp honce
      rw [hrun] at hfails
      cases hfails
    · exact fun hall es t hes ht => (hall es t hes ht).1

section Example

def firstNetwork : WhoisQueryResult := ⟨some "Comcast", some "us", 256, 511⟩

def secondNetwork : WhoisQueryResult := ⟨some "Comcast", some "us", 512, 767⟩

/-- Both lookups come before both commits. -/
def sideBySide : List Event :=
  [.match 1 0 300, .whois 1 (some firstNetwork), .match 2 0 600, .whois 2 (some secondNetwork),
    .obtainRange 1, .obtainRange 2, .lookupIsp 1, .lookupIsp 2, .commit 1, .commit 2]

def oneByOne : List Event := call 1 0 300 (some firstNetwork) ++ call 2 0 600 (some secondNetwork)

theorem namedOnce_empty : NamedOnce Database.empty := by
  rintro isp ⟨⟩

/-- The range is free after steps of the two workers if neither of them holds it. -/
theorem range_free (events : List Event) {range : ℕ × ℕ}
    (hworkers : ∀ e ∈ events, e.worker? = some 1 ∨ e.worker? = some 2)
    (h : ∀ worker ∈ [1, 2], ((events.foldl system.next
      (initial Database.empty)).phase worker).range? ≠ some range) (other : ℕ) :
    ((events.foldl system.next (initial Database.empty)).phase other).range? ≠ some range := by
  obtain hmem | hother := Decidable.em (other ∈ [1, 2])
  · exact h other hmem
  · rw [phase_foldl]
    · exact (Option.some_ne_none range).symm
    · intro e he hworker
      obtain h₁ | h₂ := hworkers e he
      · obtain rfl := Option.some.inj (hworker.symm.trans h₁)
        exact hother (by decide)
      · obtain rfl := Option.some.inj (hworker.symm.trans h₂)
        exact hother (by decide)

theorem run_sideBySide : Run system (initial Database.empty) sideBySide
    (sideBySide.foldl system.next (initial Database.empty)) :=
  .cons rfl (.cons ⟨_, rfl⟩ (.cons rfl (.cons ⟨_, rfl⟩
    (.cons ⟨_, rfl, range_free (sideBySide.take 4) (by decide) (by decide)⟩
    (.cons ⟨_, rfl, range_free (sideBySide.take 5) (by decide) (by decide)⟩
    (.cons ⟨_, rfl⟩ (.cons ⟨_, rfl⟩ (.cons ⟨_, _, rfl⟩ (.cons ⟨_, _, rfl⟩ (.nil _))))))))))

theorem run_oneByOne : Run (system.restrict StillMissing) (initial Database.empty) oneByOne
    (oneByOne.foldl system.next (initial Database.empty)) := by
  refine .cons ⟨rfl, trivial⟩ (.cons ⟨⟨_, rfl⟩, trivial⟩
    (.cons ⟨⟨_, rfl, range_free (oneByOne.take 2) (by decide) (by decide)⟩, trivial⟩
    (.cons ⟨⟨_, rfl⟩, trivial⟩ (.cons ⟨⟨_, _, rfl⟩, ?_⟩ (.cons ⟨rfl, trivial⟩
    (.cons ⟨⟨_, rfl⟩, trivial⟩
    (.cons ⟨⟨_, rfl, range_free (oneByOne.take 7) (by decide) (by decide)⟩, trivial⟩
    (.cons ⟨⟨_, rfl⟩, trivial⟩ (.cons ⟨⟨_, _, rfl⟩, ?_⟩ (.nil _))))))))))
  · rintro network hphase
    obtain ⟨rfl, -⟩ := Phase.looked.inj hphase
    have hmissing : ∀ name ∈ nameOf firstNetwork,
        named Database.empty name (countryOf firstNetwork) = [] := by decide
    exact hmissing
  · -- the second call finds the provider of the first one
    rintro network hphase
    obtain ⟨-, hfound⟩ := Phase.looked.inj hphase
    cases hfound

theorem namedOnce_of_oneByOne : ∃ s, Run system (initial Database.empty) oneByOne s ∧
    NamedOnce s.db ∧
      ((lookupIsp firstNetwork).run s.db).1 ≠ .error (.raised .multipleObjectsReturned) := by
  have hrun := run_oneByOne.of_restrict
  obtain ⟨honce, hlookup⟩ := (namedOnce_iff_of_run namedOnce_empty hrun).2.mp run_oneByOne _ _
    List.prefix_rfl hrun
  exact ⟨_, hrun, honce, hlookup firstNetwork⟩

/-- Two providers of one name, and a later lookup of it that fails. -/
theorem named_twice : ∃ s, Run system (initial Database.empty) sideBySide s ∧ ¬ NamedOnce s.db ∧
    ((lookupIsp firstNetwork).run s.db).1 = .error (.raised .multipleObjectsReturned) := by
  refine ⟨_, run_sideBySide, fun honce => ?_, by decide⟩
  have hlength : (named (sideBySide.foldl system.next (initial Database.empty)).db "Comcast"
      (some "us")).length ≤ 1 := length_named honce
  revert hlength
  decide

end Example

end IspRace

end Swat4Stats
