import Swat4Stats.GameCounters
import Swat4Stats.Library.Transition
import Swat4Stats.MergeGraph
import Swat4Stats.ServerSearch

/-!
# Relisting while a server changes

A request to the API loads the row of a server, queries the server over the network, and saves the
loaded row with four columns changed. Every other column is saved as it was loaded, so the save
undoes what other transactions did to it in between.
-/

namespace Swat4Stats

set_option autoImplicit false

open Tx Transition

namespace RelistRace

open ServerManager ServerCreateSerializer

structure State where
  db : Database
  /-- The requests that were validated and are not saved yet. -/
  requests : List Attrs

inductive Event where
  | validate (ip : IPv4) (port : ℕ) (probe : Probe)
  /-- The request at that position is saved. -/
  | create (position : ℕ)
  | mergeServers (now : Time) (mainId : ServerId) (mergedIds : List ServerId)
  | updateGameStats (game : Game)
  | updateHostnames (now : Time) (hostnameUpdates : List (Server × Text))
  | incrementQueryFailures (serverIds : List ServerId)
  | resetQueryFailures (serverIds : List ServerId)
  /-- Anything else that happens to the database. -/
  | elsewhere (change : Database → Database)

def accepted {α : Type} : Except (Failure TrackerError) α → List α
  | .ok a => [a]
  | .error _ => []

def saved (s : State) (position : ℕ) : Database :=
  match s.requests[position]? with
  | some attrs => ((create attrs).run s.db).2
  | none => s.db

def system (outside : External) : System State Event where
  enabled s
    | .create position => position < s.requests.length
    -- no server is ever deleted
    | .elsewhere change => ∀ row ∈ s.db.servers.rows,
      ∃ row' ∈ (change s.db).servers.rows, row'.pk = row.pk
    | _ => True
  next s
    | .validate ip port probe =>
      { s with requests := accepted ((validate outside ip port probe).run s.db).1 ++ s.requests }
    | .create position => ⟨saved s position, s.requests.eraseIdx position⟩
    | .mergeServers now mainId mergedIds =>
      { s with db := ((Tasks.mergeServers now mainId mergedIds).run s.db).2 }
    | .updateGameStats game => { s with db := ((updateGameStatsWithGame game).run s.db).2 }
    | .updateHostnames now hostnameUpdates =>
      { s with db := ((updateHostnames outside now hostnameUpdates).run s.db).2 }
    | .incrementQueryFailures serverIds =>
      { s with db := ((incrementQueryFailures serverIds).run s.db).2 }
    | .resetQueryFailures serverIds =>
      { s with db := ((resetQueryFailures serverIds).run s.db).2 }
    | .elsewhere change => { s with db := change s.db }

/-- A server without the four columns that a relisting is to write. -/
def otherColumns (s : Server) : Server :=
  { s with listed := false, failures := 0, hostname := none, hostnameClean := none }

def Kept (pk : ServerId) (db db' : Database) : Prop :=
  ∀ row ∈ db.servers.rows, row.pk = pk →
    ∃ row' ∈ db'.servers.rows, otherColumns row' = otherColumns row

structure ChangesOnlyListing (db db' : Database) : Prop where
  frame : db' = { db with servers := db'.servers }
  servers : ∀ pk, Kept pk db db'

/-- The request is carried out: the attributes fit their columns. -/
def Saves (attrs : Attrs) : Prop := (1 ≤ attrs.port ∧ attrs.port ≤ 65535) ∧ attrs.name.Fits

instance (attrs : Attrs) : Decidable (Saves attrs) := inferInstanceAs (Decidable (_ ∧ _))

/-- The loaded row still agrees with the stored one in the columns that a relisting is not to
write. -/
def Agrees (s : State) : Event → Prop
  | .create position => ∀ attrs ∈ s.requests[position]?, Saves attrs →
      ∀ server ∈ attrs.instance, ∀ row ∈ s.db.servers.rows, row.pk = server.pk →
        otherColumns row = otherColumns server
  | _ => True

/-- No step but a request changes another column of a server that a request has loaded. -/
def LeavesLoaded (s : State) : Event → Prop
  | .mergeServers _ mainId mergedIds => ∀ attrs ∈ s.requests, ∀ server ∈ attrs.instance,
      server.pk ∉ mainId :: mergedIds ∧ ∀ row ∈ s.db.servers.rows, row.pk = server.pk →
        ∀ merged ∈ row.mergedInto, merged ∉ mergedIds
  | .updateGameStats game => ∀ attrs ∈ s.requests, ∀ server ∈ attrs.instance,
      server.pk ≠ game.server
  | .updateHostnames _ hostnameUpdates => ∀ attrs ∈ s.requests, ∀ server ∈ attrs.instance,
      server.pk ∉ hostnameUpdates.map fun update => update.1.pk
  | .elsewhere change => ∀ attrs ∈ s.requests, ∀ server ∈ attrs.instance,
      Kept server.pk s.db (change s.db)
  | _ => True

/-- A request has the address of the row it loaded. -/
def Addressed (attrs : Attrs) : Prop :=
  ∀ server ∈ attrs.instance, server.ip = attrs.ip ∧ server.port = attrs.port

/-- The other columns of the loaded row are those of a stored one. -/
def InFlight (db : Database) (attrs : Attrs) : Prop :=
  ∀ server ∈ attrs.instance, ∃ row ∈ db.servers.rows, otherColumns row = otherColumns server

section Columns

variable {db db' : Database} {attrs : Attrs} {server row : Server}

theorem pk_of_otherColumns (h : otherColumns row = otherColumns server) : row.pk = server.pk := by
  have hpk := congrArg Server.pk h
  exact hpk

/-- The attributes change the listing only, for a server at the address. -/
theorem otherColumns_apply (hip : server.ip = attrs.ip) (hport : server.port = attrs.port) :
    otherColumns (attrs.apply server) = otherColumns server := by
  simp only [otherColumns, Attrs.apply, ← hip, ← hport]

theorem Kept.of_map {f : Server → Server} {pk : ServerId}
    (hrows : db'.servers.rows = db.servers.rows.map f)
    (hf : ∀ row ∈ db.servers.rows, row.pk = pk → otherColumns (f row) = otherColumns row) :
    Kept pk db db' := by
  intro row hrow hpk
  refine ⟨f row, ?_, hf row hrow hpk⟩
  rw [hrows]
  exact List.mem_map_of_mem hrow

theorem InFlight.kept (h : InFlight db attrs)
    (hkept : ∀ server ∈ attrs.instance, Kept server.pk db db') : InFlight db' attrs := by
  intro server hserver
  obtain ⟨row, hrow, hsame⟩ := h server hserver
  obtain ⟨row', hrow', hsame'⟩ := hkept server hserver row hrow (pk_of_otherColumns hsame)
  exact ⟨row', hrow', hsame'.trans hsame⟩

theorem InFlight.agrees (h : InFlight db attrs) :
    ∀ server ∈ attrs.instance, ∀ row ∈ db.servers.rows, row.pk = server.pk →
      otherColumns row = otherColumns server := by
  intro server hserver row hrow hpk
  obtain ⟨row', hrow', hsame⟩ := h server hserver
  rw [db.servers.eq_of_key_eq hrow hrow' (hpk.trans (pk_of_otherColumns hsame).symm)]
  exact hsame

end Columns

section Save

variable {db : Database} {attrs : Attrs} {server : Server}

theorem run_create_of_not_saves (h : ¬ Saves attrs) : ((create attrs).run db).2 = db := by
  simp only [create, run_atomic]
  obtain hport | hport := Decidable.em (1 ≤ attrs.port ∧ attrs.port ≤ 65535)
  · have hfits : ¬ attrs.name.Fits := fun hfits => h ⟨hport, hfits⟩
    simp only [hport, hfits, and_self, not_true, not_false_eq_true, if_true, if_false, run_raise]
  · simp only [hport, not_false_eq_true, if_true, run_raise]

theorem run_create_of_none (hnone : attrs.instance = none) :
    ∃ servers : Table Server Server.pk, ((create attrs).run db).2 = { db with servers } ∧
      (∀ row ∈ db.servers.rows, row ∈ servers.rows) ∧
      ∀ row' ∈ servers.rows,
        row' ∈ db.servers.rows ∨ ∀ row ∈ db.servers.rows, row.pk ≠ row'.pk := by
  obtain hsaves | hsaves := Classical.em (Saves attrs)
  · simp only [create, run_atomic, hsaves.1, hsaves.2, and_self, not_true, if_false, hnone,
      ServerCreateSerializer.createServer, run_statement]
    obtain htaken | htaken :=
      Classical.em (∃ s ∈ db.servers.rows, s.ip = attrs.ip ∧ s.port = attrs.port)
    · simp only [if_pos htaken]
      exact ⟨db.servers, rfl, fun _ hrow => hrow, fun _ hrow => .inl hrow⟩
    · simp only [if_neg htaken]
      refine ⟨_, rfl, fun row hrow => Table.mem_create.mpr (.inl hrow), fun row' hrow' => ?_⟩
      obtain hrow' | rfl := Table.mem_create.mp hrow'
      · exact .inl hrow'
      · exact .inr fun row hrow => (db.servers.lt_nextPk hrow).ne
  · rw [run_create_of_not_saves hsaves]
    exact ⟨db.servers, rfl, fun _ hrow => hrow, fun _ hrow => .inl hrow⟩

theorem run_create_of_some (hsaves : Saves attrs) (hsome : attrs.instance = some server) :
    ∃ servers : Table Server Server.pk, ((create attrs).run db).2 = { db with servers } ∧
      servers.rows = db.servers.rows.map fun row =>
        if row.pk = server.pk then { attrs.apply server with pk := row.pk } else row := by
  refine ⟨db.servers.update (fun s => s.pk = server.pk)
    (fun s => { attrs.apply server with pk := s.pk }) fun _ => rfl, ?_, ?_⟩
  · simp only [create, run_atomic, hsaves.1, hsaves.2, and_self, not_true, if_false, hsome,
      saveServer, run_write]
    rfl
  · rw [Table.rows_update]
    simp only [decide_eq_true_eq]

/-- The save keeps the other columns exactly if the loaded row still agrees with the stored one. -/
theorem changesOnlyListing_create (haddressed : Addressed attrs) :
    ChangesOnlyListing db ((create attrs).run db).2 ↔ (Saves attrs →
      ∀ server ∈ attrs.instance, ∀ row ∈ db.servers.rows, row.pk = server.pk →
        otherColumns row = otherColumns server) := by
  obtain hsaves | hsaves := Classical.em (Saves attrs)
  · cases hinstance : attrs.instance with
    | none =>
      obtain ⟨servers, hrun, hrows⟩ : ∃ servers : Table Server Server.pk,
          ((create attrs).run db).2 = { db with servers } ∧
            ∀ row ∈ db.servers.rows, row ∈ servers.rows := by
        obtain ⟨servers, hrun, hrows, _⟩ := run_create_of_none hinstance
        exact ⟨servers, hrun, hrows⟩
      refine iff_of_true ⟨by rw [hrun], fun pk row hrow _ => ?_⟩ ?_
      · rw [hrun]
        exact ⟨row, hrows row hrow, rfl⟩
      · rintro _ server ⟨⟩
    | some server =>
      obtain ⟨hip, hport⟩ := haddressed server hinstance
      obtain ⟨servers, hrun, hrows⟩ : ∃ servers : Table Server Server.pk,
          ((create attrs).run db).2 = { db with servers } ∧
            servers.rows = db.servers.rows.map fun row =>
              if row.pk = server.pk then { attrs.apply server with pk := row.pk } else row :=
        run_create_of_some hsaves hinstance
      have hsaved : ∀ row : Server, row.pk = server.pk →
          otherColumns { attrs.apply server with pk := row.pk } = otherColumns server := by
        intro row hpk
        rw [← otherColumns_apply hip hport, hpk]
        rfl
      rw [hrun]
      constructor
      · rintro ⟨_, hkept⟩ _ server' ⟨⟩ row hrow hpk
        obtain ⟨row', hrow', hsame⟩ := hkept server.pk row hrow hpk
        have hrow' : row' ∈ servers.rows := hrow'
        rw [hrows] at hrow'
        obtain ⟨old, hold, rfl⟩ := List.mem_map.mp hrow'
        have hpk' : old.pk = server.pk := by
          refine Eq.trans ?_ ((pk_of_otherColumns hsame).trans hpk)
          split
          · rfl
          · rfl
        rw [if_pos hpk', hsaved old hpk'] at hsame
        exact hsame.symm
      · intro hagrees
        refine ⟨rfl, fun pk => Kept.of_map hrows fun row hrow _ => ?_⟩
        split
        · rename_i hpk
          rw [hsaved row hpk]
          exact (hagrees hsaves server rfl row hrow hpk).symm
        · rfl
  · rw [run_create_of_not_saves hsaves]
    refine iff_of_true ⟨rfl, fun pk row hrow _ => ⟨row, hrow, rfl⟩⟩ fun h => absurd h hsaves

end Save

section Steps

variable {outside : External} {s : State} {pk : ServerId}

theorem mem_of_validate {ip : IPv4} {port : ℕ} {probe : Probe} {attrs : Attrs}
    (h : attrs ∈ accepted ((validate outside ip port probe).run s.db).1) :
    Addressed attrs ∧ ∀ server ∈ attrs.instance, server ∈ s.db.servers.rows := by
  obtain ⟨known, hknown, hfound⟩ := ServerSearch.run_validateInstance ip port s.db
  simp only [validate, run_bind, hknown] at h
  cases known with
  | error e => cases h
  | ok known =>
    cases hprobed : probedStatus port probe with
    | none =>
      simp only [hprobed, run_raise] at h
      cases h
    | some status =>
      simp only [hprobed, run_pure, accepted, List.mem_singleton] at h
      rw [h]
      have hmem : ∀ server ∈ known, server ∈ ServerSearch.atAddress ip port s.db :=
        fun server hserver => hfound server (congrArg Except.ok hserver)
      exact ⟨fun server hserver => (ServerSearch.mem_atAddress.mp (hmem server hserver)).2,
        fun server hserver => (ServerSearch.mem_atAddress.mp (hmem server hserver)).1⟩

theorem kept_mergeServers {now : Time} {mainId : ServerId} {mergedIds : List ServerId}
    (hpk : pk ∉ mainId :: mergedIds)
    (hmerged : ∀ row ∈ s.db.servers.rows, row.pk = pk → ∀ merged ∈ row.mergedInto,
      merged ∉ mergedIds) :
    Kept pk s.db ((Tasks.mergeServers now mainId mergedIds).run s.db).2 := by
  obtain ⟨_, key, hrun⟩ | ⟨message, hrun⟩ | ⟨main, _, _, _, _, _, db', hrun, houtcome⟩ :=
    Tasks.run_mergeServers now mainId mergedIds s.db
  · rw [hrun]
    exact fun row hrow _ => ⟨row, hrow, rfl⟩
  · rw [hrun]
    exact fun row hrow _ => ⟨row, hrow, rfl⟩
  · rw [hrun]
    intro row hrow hrowpk
    obtain ⟨stats, hfind, _, hstats⟩ := houtcome.servers row hrow
    have hmem := (Table.find?_eq_some_iff.mp hfind).1
    rw [hrowpk] at hstats
    have hsame : mergedServer now mainId mergedIds row = row := by
      have hid : row.pk ∉ mergedIds := fun hid => hpk (hrowpk ▸ List.mem_cons_of_mem _ hid)
      have hdirect : isIndirect mainId mergedIds row = false := by
        cases hinto : row.mergedInto with
        | none => simp [isIndirect, hinto]
        | some merged => simp [isIndirect, hinto, hmerged row hrow hrowpk merged hinto]
      simp only [mergedServer, hid, hdirect, if_false, Bool.false_eq_true]
    rw [hstats hpk, hsame] at hmem
    exact ⟨row, hmem, rfl⟩

theorem kept_updateHostnames {now : Time} {hostnameUpdates : List (Server × Text)}
    (hpk : pk ∉ hostnameUpdates.map fun update => update.1.pk) :
    Kept pk s.db ((updateHostnames outside now hostnameUpdates).run s.db).2 := by
  obtain ⟨_, hrun⟩ | ⟨_, servers, hrun, hrows⟩ :=
    run_updateHostnames outside now hostnameUpdates s.db
  · rw [hrun]
    exact fun row hrow _ => ⟨row, hrow, rfl⟩
  · rw [hrun]
    refine Kept.of_map hrows fun row _ hrowpk => ?_
    have hnone : (namesOf outside hostnameUpdates).lookup row.pk = none := by
      apply OrderedDict.lookup_eq_none
      rw [namesOf, List.map_map, hrowpk]
      exact hpk
    rw [withHostname, hnone]

/-- Where a step is safe, it keeps the other columns of every loaded server. -/
theorem kept_of_step (haddressed : ∀ attrs ∈ s.requests, Addressed attrs)
    (hloaded : ∀ attrs ∈ s.requests, InFlight s.db attrs) {e : Event}
    (hleaves : LeavesLoaded s e) {attrs : Attrs} (hattrs : attrs ∈ s.requests) {server : Server}
    (hserver : server ∈ attrs.instance) :
    Kept server.pk s.db ((system outside).next s e).db := by
  cases e with
  | validate ip port probe => exact fun row hrow _ => ⟨row, hrow, rfl⟩
  | create position =>
    simp only [system, saved]
    cases hcreated : s.requests[position]? with
    | none => exact fun row hrow _ => ⟨row, hrow, rfl⟩
    | some created =>
      have hmem := List.mem_of_getElem? hcreated
      exact ((changesOnlyListing_create (haddressed created hmem)).mpr
        fun _ => (hloaded created hmem).agrees).servers server.pk
  | mergeServers now mainId mergedIds =>
    obtain ⟨hpk, hmerged⟩ := hleaves attrs hattrs server hserver
    exact kept_mergeServers hpk hmerged
  | updateGameStats game =>
    simp only [system, run_updateGameStatsWithGame]
    refine Kept.of_map rfl fun row _ hpk => ?_
    have hne : row.pk ≠ game.server := hpk ▸ hleaves attrs hattrs server hserver
    simp only [hne, decide_false, Bool.false_eq_true, if_false]
  | updateHostnames now hostnameUpdates =>
    exact kept_updateHostnames (hleaves attrs hattrs server hserver)
  | incrementQueryFailures serverIds =>
    simp only [system]
    obtain ⟨_, hrun⟩ | ⟨_, servers, hrun, hrows⟩ := run_incrementQueryFailures serverIds s.db
    · rw [hrun]
      exact fun row hrow _ => ⟨row, hrow, rfl⟩
    · rw [hrun]
      refine Kept.of_map hrows fun row _ _ => ?_
      unfold withFailure
      split
      · rfl
      · rfl
  | resetQueryFailures serverIds =>
    refine Kept.of_map rfl fun row _ _ => ?_
    split
    · rfl
    · rfl
  | elsewhere change => exact hleaves attrs hattrs server hserver

theorem mem_requests_of_step {e : Event} {attrs : Attrs}
    (h : attrs ∈ ((system outside).next s e).requests) : attrs ∈ s.requests ∨
      Addressed attrs ∧ InFlight s.db attrs ∧ ((system outside).next s e).db = s.db := by
  cases e with
  | validate ip port probe =>
    obtain h | h := List.mem_append.mp h
    · obtain ⟨haddressed, hmem⟩ := mem_of_validate h
      exact .inr ⟨haddressed, fun server hserver => ⟨server, hmem server hserver, rfl⟩, rfl⟩
    · exact .inl h
  | create position => exact .inl (List.mem_of_mem_eraseIdx h)
  | mergeServers now mainId mergedIds => exact .inl h
  | updateGameStats game => exact .inl h
  | updateHostnames now hostnameUpdates => exact .inl h
  | incrementQueryFailures serverIds => exact .inl h
  | resetQueryFailures serverIds => exact .inl h
  | elsewhere change => exact .inl h

theorem addressed_step {e : Event} (h : ∀ attrs ∈ s.requests, Addressed attrs) :
    ∀ attrs ∈ ((system outside).next s e).requests, Addressed attrs := by
  intro attrs hattrs
  obtain hattrs | ⟨haddressed, _⟩ := mem_requests_of_step hattrs
  · exact h attrs hattrs
  · exact haddressed

theorem inFlight_step {e : Event} (haddressed : ∀ attrs ∈ s.requests, Addressed attrs)
    (hloaded : ∀ attrs ∈ s.requests, InFlight s.db attrs) (hleaves : LeavesLoaded s e) :
    ∀ attrs ∈ ((system outside).next s e).requests,
      InFlight ((system outside).next s e).db attrs := by
  intro attrs hattrs
  obtain hattrs | ⟨_, hinFlight, hdb⟩ := mem_requests_of_step hattrs
  · exact (hloaded attrs hattrs).kept fun server hserver =>
      kept_of_step haddressed hloaded hleaves hattrs hserver
  · rw [hdb]
    exact hinFlight

theorem changesOnlyListing_saved (h : ∀ attrs ∈ s.requests, Addressed attrs) (position : ℕ) :
    ChangesOnlyListing s.db (saved s position) ↔ Agrees s (.create position) := by
  rw [saved, Agrees]
  cases hattrs : s.requests[position]? with
  | none =>
    apply iff_of_true ⟨rfl, fun pk row hrow _ => ⟨row, hrow, rfl⟩⟩
    rintro _ ⟨⟩
  | some attrs =>
    refine (changesOnlyListing_create (h attrs (List.mem_of_getElem? hattrs))).trans ?_
    simp only [Option.mem_some_iff, forall_eq']

end Steps

/-- Where no other step changes a server between its load and its save, the two rows agree at
every save. They agree at every save exactly if every save changes the listing only. -/
theorem changesOnlyListing_iff_of_run {outside : External} {db : Database} {events : List Event}
    {s : State} (h : Run (system outside) ⟨db, []⟩ events s) :
    (Run ((system outside).restrict LeavesLoaded) ⟨db, []⟩ events s →
      Run ((system outside).restrict Agrees) ⟨db, []⟩ events s) ∧
    (Run ((system outside).restrict Agrees) ⟨db, []⟩ events s ↔
      ∀ es position t, es ++ [.create position] <+: events →
        Run (system outside) ⟨db, []⟩ es t → ChangesOnlyListing t.db (saved t position)) := by
  let AllAddressed := fun s : State => ∀ attrs ∈ s.requests, Addressed attrs
  have haddressed : ∀ es t, Run (system outside) ⟨db, []⟩ es t → AllAddressed t := by
    intro es t ht
    apply ht.invariant (fun s e (hs : AllAddressed s) _ => addressed_step hs)
    rintro _ ⟨⟩
  constructor
  · intro hleaves
    rw [h.restrict_iff_forall_step]
    rintro es e t ⟨gs, rfl⟩ ht
    cases e with
    | create position =>
      obtain ⟨v, hv, _⟩ := Run.append_iff.mp hleaves
      obtain ⟨u, hu, _⟩ := Run.append_iff.mp hv
      rw [ht.unique hu.of_restrict]
      let Both := fun s : State => AllAddressed s ∧ ∀ attrs ∈ s.requests, InFlight s.db attrs
      have hboth : Both u := by
        refine hu.invariant_restrict ?_ (show Both _ from ⟨?_, ?_⟩)
        · exact fun s e hs _ hp => ⟨addressed_step hs.1, inFlight_step hs.1 hs.2 hp⟩
        · rintro _ ⟨⟩
        · rintro _ ⟨⟩
      exact fun attrs hattrs _ => (hboth.2 attrs (List.mem_of_getElem? hattrs)).agrees
    | _ => trivial
  · rw [h.restrict_iff_forall_step]
    constructor
    · intro hall es position t hes ht
      exact (changesOnlyListing_saved (haddressed es t ht) position).mpr
        (hall es (.create position) t hes ht)
    · intro hall es e t hes ht
      cases e with
      | create position =>
        exact (changesOnlyListing_saved (haddressed es t ht) position).mp
          (hall es position t hes ht)
      | _ => trivial

section Example

open ServerSearch (answer)

def twoServers : Database :=
  { Database.empty with
    servers := ⟨[{ pk := 1, ip := 7, port := 10480 }, { pk := 2, ip := 8, port := 10480 }],
      by decide⟩ }

def loaded : List Event := [.validate 8 10480 (some (answer "Myt Team"))]

def counted : List Event := loaded ++ [.incrementQueryFailures [1]]

def quietlyRelisted : List Event := counted ++ [.create 0]

def merged : List Event := loaded ++ [.mergeServers 5 1 [2]]

instance (outside : External) (s : State) : ∀ e, Decidable ((system outside).enabled s e)
  | .create position => inferInstanceAs (Decidable (position < s.requests.length))
  | .elsewhere change => inferInstanceAs (Decidable (∀ row ∈ s.db.servers.rows,
      ∃ row' ∈ (change s.db).servers.rows, row'.pk = row.pk))
  | .validate _ _ _ | .mergeServers _ _ _ | .updateGameStats _ | .updateHostnames _ _
  | .incrementQueryFailures _ | .resetQueryFailures _ => inferInstanceAs (Decidable True)

theorem changesOnlyListing_of_quietlyRelisted :
    ∃ s, Run (system plainOutside) ⟨twoServers, []⟩ counted s ∧ s.requests.length = 1 ∧
      ChangesOnlyListing s.db (saved s 0) := by
  have hadmits : (system plainOutside).Admits ⟨twoServers, []⟩ quietlyRelisted := by
    decide +kernel
  have hiff := changesOnlyListing_iff_of_run (Run.of_admits hadmits)
  have hagrees := hiff.1 (.cons ⟨trivial, trivial⟩ (.cons ⟨trivial, trivial⟩
    (.cons ⟨by decide +kernel, trivial⟩ (.nil _))))
  have hcounted : Run (system plainOutside) ⟨twoServers, []⟩ counted _ :=
    .of_admits (by decide +kernel)
  exact ⟨_, hcounted, by decide +kernel, hiff.2.mp hagrees counted 0 _ List.prefix_rfl hcounted⟩

/-- The save of a request that loaded the server before a merge enables the merged server. -/
theorem merge_undone : ∃ s, Run (system plainOutside) ⟨twoServers, []⟩ merged s ∧
    ¬ ChangesOnlyListing s.db (saved s 0) ∧
    (∃ row ∈ s.db.servers.rows, row.pk = 2 ∧ row.enabled = false ∧ row.mergedInto = some 1) ∧
    ∃ row ∈ (saved s 0).servers.rows, row.pk = 2 ∧ row.enabled = true ∧ row.mergedInto = none := by
  refine ⟨_, .of_admits (by decide +kernel), fun hlisting => ?_, by decide +kernel,
    by decide +kernel⟩
  have hmerged : ∃ row ∈ (merged.foldl (system plainOutside).next ⟨twoServers, []⟩).db.servers.rows,
      row.pk = 2 ∧ ∀ row' ∈ (saved (merged.foldl (system plainOutside).next ⟨twoServers, []⟩)
        0).servers.rows, otherColumns row' ≠ otherColumns row := by
    decide +kernel
  obtain ⟨row, hrow, hpk, hall⟩ := hmerged
  obtain ⟨row', hrow', hsame⟩ := hlisting.servers 2 row hrow hpk
  exact hall row' hrow' hsame

end Example

end RelistRace

end Swat4Stats
