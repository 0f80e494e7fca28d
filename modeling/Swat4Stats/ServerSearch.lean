import Swat4Stats.Library.Transition
import Swat4Stats.Servers

/-!
# The search vector of a server

A hostname enters the store with a refresh, with a saved game or through the API. The API moves no
watermark, so a server that it creates is not in the index until its hostname changes, and one that
it relists under a new hostname stays in the index under the old one.
-/

namespace Swat4Stats

set_option autoImplicit false

open Tx Transition Watermark

namespace ServerSearch

open ServerManager ServerCreateSerializer

structure State where
  db : Database
  now : Time

def initial : State := ⟨Database.empty, 0⟩

/-- The receivers get instances that were loaded at some earlier moment, so they may be any. -/
inductive Event where
  | createServer (now : Time) (ip : IPv4) (port : ℕ) (enabled : Bool)
  | refresh (now : Time) (servers : List (Server × ServerStatus))
  | stream (now : Time) (server : Server) (hostname : Text)
  | request (now : Time) (ip : IPv4) (port : ℕ) (probe : Probe)
  | updateSearchVector (now : Time) (serverIds : List ServerId)
  /-- The rest of the database changes. -/
  | elsewhere (now : Time) (change : Database → Database)

/-- A request to the API, validated and carried out at once. -/
def request (outside : External) (ip : IPv4) (port : ℕ) (probe : Probe) : DbTx Unit := do
  let attrs ← validate outside ip port probe
  create attrs

namespace Event

def now : Event → Time
  | createServer now _ _ _ => now
  | refresh now _ => now
  | stream now _ _ => now
  | request now _ _ _ => now
  | updateSearchVector now _ => now
  | elsewhere now _ => now

def apply (outside : External) (db : Database) : Event → Database
  | createServer _ ip port enabled => ((ServerManager.createServer ip port enabled).run db).2
  | refresh now servers => ((Signals.updateLiveServersHostnames outside now servers).run db).2
  | stream now server hostname =>
    ((Signals.changeHostnameForStreamingServer outside now server hostname).run db).2
  | request _ ip port probe => ((ServerSearch.request outside ip port probe).run db).2
  | updateSearchVector now serverIds =>
    ((ServerManager.updateSearchVector now serverIds).run db).2
  | elsewhere _ change => change db

end Event

/-- The columns that the steps below write or look at. -/
structure SearchColumns where
  pk : ServerId
  ip : IPv4
  port : ℕ
  hostname : Option Text
  hostnameClean : Option Text
  hostnameUpdatedAt : Option Time
  search : Option SearchVector
  searchUpdatedAt : Option Time
  deriving DecidableEq

def searchColumns (s : Server) : SearchColumns :=
  ⟨s.pk, s.ip, s.port, s.hostname, s.hostnameClean, s.hostnameUpdatedAt, s.search,
    s.searchUpdatedAt⟩

def Event.Enabled (db : Database) : Event → Prop
  | elsewhere _ change =>
    (change db).servers.rows.map searchColumns = db.servers.rows.map searchColumns
  | _ => True

def system (outside : External) : System State Event where
  enabled s e := s.now < e.now ∧ e.Enabled s.db
  next s e := ⟨e.apply outside s.db, e.now⟩

/-- The vector is built from the clean hostname, unless it is to be built anew. -/
def FreshServer (s : Server) : Prop :=
  s.hostname ≠ none → requireSearchUpdate s = false →
    s.search = some (serverSearchVector s.hostnameClean)

def Fresh (s : State) : Prop := ∀ server ∈ s.db.servers.rows, FreshServer server

def CleanServer (outside : External) (s : Server) : Prop :=
  s.hostnameClean = s.hostname.map (forceCleanName outside)

/-- The server answers with a status that can be stored. -/
structure Answers (outside : External) (port : ℕ) (probe : Probe) (status : ServerStatus) :
    Prop where
  probed : probedStatus port probe = some status
  validPort : 1 ≤ port ∧ port ≤ 65535
  fits : (Hostname.of outside status.hostname).Fits

/-- A request that the server answers is for a known server, and it is turned down, or the vector
of the server is to be built anew or is built from the clean form of the hostname in the answer. -/
def KeepsVector (outside : External) (s : State) : Event → Prop
  | .request _ ip port probe => ∀ status, Answers outside port probe status →
      ∃ server ∈ s.db.servers.rows, (server.ip = ip ∧ server.port = port) ∧
        (server.listed = true ∨ requireSearchUpdate server = true ∨
          server.search = some (serverSearchVector
            (some (forceCleanName outside status.hostname))))
  | _ => True

structure Sound (outside : External) (s : State) : Prop where
  addresses : ∀ a ∈ s.db.servers.rows, ∀ b ∈ s.db.servers.rows, a.ip = b.ip → a.port = b.port →
    a = b
  times : ∀ server ∈ s.db.servers.rows, ∀ at' ∈ server.searchUpdatedAt, at' ≤ s.now
  clean : ∀ server ∈ s.db.servers.rows, CleanServer outside server

section Columns

variable {outside : External} {s t : Server}

theorem FreshServer.congr (h : searchColumns s = searchColumns t) :
    FreshServer s ↔ FreshServer t := by
  simp only [searchColumns, SearchColumns.mk.injEq] at h
  obtain ⟨_, _, _, hhostname, hclean, hhostnameAt, hsearch, hsearchAt⟩ := h
  rw [FreshServer, FreshServer, requireSearchUpdate, requireSearchUpdate, hhostname, hclean,
    hhostnameAt, hsearch, hsearchAt]

theorem withHostname_pk (now : Time) (updates : List (ServerId × Hostname)) (s : Server) :
    (withHostname now updates s).pk = s.pk ∧ (withHostname now updates s).ip = s.ip ∧
      (withHostname now updates s).port = s.port ∧
      (withHostname now updates s).searchUpdatedAt = s.searchUpdatedAt := by
  unfold withHostname
  split
  · exact ⟨rfl, rfl, rfl, rfl⟩
  · exact ⟨rfl, rfl, rfl, rfl⟩

end Columns

section Requests

variable {outside : External} {ip : IPv4} {port : ℕ} {probe : Probe} {db : Database}
  {status : ServerStatus} {server : Server}

def attrsOf (outside : External) (ip : IPv4) (port : ℕ) (status : ServerStatus)
    (known : Option Server) : Attrs :=
  ⟨known, ip, port, status, Hostname.of outside status.hostname⟩

def atAddress (ip : IPv4) (port : ℕ) (db : Database) : List Server :=
  db.servers.rows.filter fun s => s.ip = ip ∧ s.port = port

theorem mem_atAddress : server ∈ atAddress ip port db ↔
    server ∈ db.servers.rows ∧ server.ip = ip ∧ server.port = port := by
  simp only [atAddress, List.mem_filter, decide_eq_true_eq]

/-- The check writes nothing, and a server that it lets through is one of the address. -/
theorem run_validateInstance (ip : IPv4) (port : ℕ) (db : Database) :
    ∃ known, (_validateInstance ip port).run db = (known, db) ∧
      ∀ server, known = .ok (some server) → server ∈ atAddress ip port db := by
  simp only [_validateInstance, run_bind, run_read]
  split
  · exact ⟨_, rfl, fun _ h => nomatch h⟩
  · rename_i server hrows
    split
    · exact ⟨_, rfl, fun _ h => nomatch h⟩
    · refine ⟨_, rfl, ?_⟩
      rintro _ ⟨⟩
      rw [atAddress, hrows]
      exact List.mem_singleton_self server
  · exact ⟨_, rfl, fun _ h => nomatch h⟩

theorem run_request_of_refused (h : ¬ ∃ status, Answers outside port probe status) :
    ((request outside ip port probe).run db).2 = db := by
  obtain ⟨known, hknown, _⟩ := run_validateInstance ip port db
  simp only [request, validate, run_bind, hknown]
  cases known with
  | error e => rfl
  | ok known =>
    cases hprobed : probedStatus port probe with
    | none => rfl
    | some status =>
      simp only [run_pure, create, run_atomic]
      obtain hport | hport := Decidable.em (1 ≤ port ∧ port ≤ 65535)
      · have hfits : ¬ (Hostname.of outside status.hostname).Fits :=
          fun hfits => h ⟨status, hprobed, hport, hfits⟩
        simp only [hport, hfits, not_true, not_false_eq_true, and_self, if_true, if_false,
          run_raise]
      · simp only [hport, not_false_eq_true, if_true, run_raise]

theorem run_validate (h : Answers outside port probe status) {known : Option Server}
    (hknown : (_validateInstance ip port).run db = (.ok known, db)) :
    (validate outside ip port probe).run db = (.ok (attrsOf outside ip port status known), db) := by
  simp only [validate, run_bind, hknown, h.probed, run_pure, attrsOf]

theorem run_request_of_free (h : Answers outside port probe status)
    (hfree : atAddress ip port db = []) :
    ((request outside ip port probe).run db).2 = { db with
      servers := db.servers.create (fun pk => (attrsOf outside ip port status none).apply
        { pk, ip, port }) fun _ => rfl } := by
  have hknown : (_validateInstance ip port).run db = (.ok none, db) := by
    rw [atAddress] at hfree
    simp only [_validateInstance, run_bind, run_read, hfree, run_pure]
  have hnone : ¬ ∃ s ∈ db.servers.rows, s.ip = ip ∧ s.port = port := by
    rintro ⟨s, hs, haddress⟩
    have hmem : s ∈ atAddress ip port db := mem_atAddress.mpr ⟨hs, haddress⟩
    rw [hfree] at hmem
    cases hmem
  simp only [request, run_bind, run_validate h hknown, create, attrsOf, run_atomic,
    ServerCreateSerializer.createServer, h.validPort, h.fits, not_true, and_self, if_false,
    run_statement, hnone]

theorem run_request_of_listed (hknown : atAddress ip port db = [server])
    (hlisted : server.listed = true) : ((request outside ip port probe).run db).2 = db := by
  rw [atAddress] at hknown
  simp only [request, validate, _validateInstance, run_bind, run_read, hknown, hlisted, if_true,
    run_raise]

theorem run_request_of_unlisted (h : Answers outside port probe status)
    (hfound : atAddress ip port db = [server]) (hlisted : server.listed = false) :
    ∃ servers : Table Server Server.pk,
      ((request outside ip port probe).run db).2 = { db with servers } ∧
        servers.rows = db.servers.rows.map fun s =>
          if s = server then (attrsOf outside ip port status (some server)).apply s else s := by
  have hknown : (_validateInstance ip port).run db = (.ok (some server), db) := by
    rw [atAddress] at hfound
    simp only [_validateInstance, run_bind, run_read, hfound, hlisted, Bool.false_eq_true,
      if_false, run_pure]
  have hserver : server ∈ db.servers.rows :=
    (mem_atAddress.mp (hfound ▸ List.mem_singleton_self server)).1
  refine ⟨db.servers.update (fun s => s.pk = server.pk) (fun s =>
    { (attrsOf outside ip port status (some server)).apply server with pk := s.pk }) fun _ => rfl,
    ?_, ?_⟩
  · simp only [request, run_bind, run_validate h hknown, create, attrsOf, run_atomic, saveServer,
      h.validPort, h.fits, not_true, and_self, if_false, run_write]
    rfl
  · rw [Table.rows_update]
    refine List.map_congr_left fun s hs => ?_
    obtain hpk | hpk := eq_or_ne s.pk server.pk
    · obtain rfl := db.servers.eq_of_key_eq hs hserver hpk
      simp only [decide_true, if_true]
      rfl
    · have hne : s ≠ server := fun heq => hpk (congrArg Server.pk heq)
      simp only [hpk, hne, decide_false, Bool.false_eq_true, if_false]

end Requests

section Steps

variable {outside : External} {s t : State} {now : Time}

theorem Sound.of_map (h : Sound outside s) {f : Server → Server}
    (hrows : t.db.servers.rows = s.db.servers.rows.map f)
    (haddress : ∀ x ∈ s.db.servers.rows, (f x).ip = x.ip ∧ (f x).port = x.port)
    (htimes : ∀ x ∈ s.db.servers.rows, ∀ at' ∈ (f x).searchUpdatedAt, at' ≤ t.now)
    (hclean : ∀ x ∈ s.db.servers.rows, CleanServer outside (f x)) : Sound outside t := by
  constructor
  · rw [hrows]
    intro a ha b hb hip hport
    obtain ⟨x, hx, rfl⟩ := List.mem_map.mp ha
    obtain ⟨y, hy, rfl⟩ := List.mem_map.mp hb
    rw [(haddress x hx).1, (haddress y hy).1] at hip
    rw [(haddress x hx).2, (haddress y hy).2] at hport
    rw [h.addresses x hx y hy hip hport]
  · simpa only [hrows, List.forall_mem_map] using htimes
  · simpa only [hrows, List.forall_mem_map] using hclean

theorem Sound.later (h : Sound outside s) (hdb : t.db = s.db) (hnow : s.now ≤ t.now) :
    Sound outside t := by
  obtain ⟨haddresses, htimes, hclean⟩ := h
  rw [← hdb] at haddresses htimes hclean
  exact ⟨haddresses, fun server hs at' hat => (htimes server hs at' hat).trans hnow, hclean⟩

theorem fresh_later (hs : Fresh s) (hdb : t.db = s.db) : Fresh t := by
  rw [Fresh, hdb]
  exact hs

/-- Every server whose hostname was written just now is to be indexed anew. -/
theorem behind_withHostname (hnow : s.now < now) {server : Server}
    (htimes : ∀ at' ∈ server.searchUpdatedAt, at' ≤ s.now)
    {updates : List (ServerId × Hostname)} {name : Hostname}
    (hname : updates.lookup server.pk = some name) :
    requireSearchUpdate (withHostname now updates server) = true := by
  rw [withHostname, hname]
  exact isBehind_some.mpr fun at' hat => (htimes at' hat).trans_lt hnow

theorem step_updateHostnames (h : Sound outside s) (hs : Fresh s) (hnow : s.now < now)
    (hostnameUpdates : List (Server × Text)) :
    Sound outside ⟨((updateHostnames outside now hostnameUpdates).run s.db).2, now⟩ ∧
      Fresh ⟨((updateHostnames outside now hostnameUpdates).run s.db).2, now⟩ := by
  obtain ⟨_, hrun⟩ | ⟨_, servers, hrun, hrows⟩ :=
    run_updateHostnames outside now hostnameUpdates s.db
  · rw [hrun]
    exact ⟨h.later rfl hnow.le, hs⟩
  · rw [hrun]
    have hcolumns := withHostname_pk now (namesOf outside hostnameUpdates)
    constructor
    · refine h.of_map hrows (fun x _ => ⟨(hcolumns x).2.1, (hcolumns x).2.2.1⟩) ?_ ?_
      · intro x hx at' hat
        rw [(hcolumns x).2.2.2] at hat
        exact (h.times x hx at' hat).trans hnow.le
      · intro x hx
        unfold withHostname
        split
        · rename_i name hname
          obtain ⟨update, _, heq⟩ := List.mem_map.mp (OrderedDict.mem_of_lookup hname)
          rw [← (Prod.mk.inj heq).2]
          rfl
        · exact h.clean x hx
    · intro x' hx'
      obtain ⟨x, hx, rfl⟩ := List.mem_map.mp (hrows ▸ hx')
      cases hname : (namesOf outside hostnameUpdates).lookup x.pk with
      | none =>
        have hsame : withHostname now (namesOf outside hostnameUpdates) x = x := by
          rw [withHostname, hname]
        rw [hsame]
        exact hs x hx
      | some name =>
        intro _ hsettled
        rw [behind_withHostname hnow (h.times x hx) hname] at hsettled
        cases hsettled

theorem step_refresh (h : Sound outside s) (hs : Fresh s) (hnow : s.now < now)
    (servers : List (Server × ServerStatus)) :
    Sound outside ((system outside).next s (.refresh now servers)) ∧
      Fresh ((system outside).next s (.refresh now servers)) := by
  simp only [system, Event.apply, Event.now, Signals.updateLiveServersHostnames]
  split
  · exact ⟨h.later rfl hnow.le, hs⟩
  · exact step_updateHostnames h hs hnow _

theorem step_stream (h : Sound outside s) (hs : Fresh s) (hnow : s.now < now) (server : Server)
    (hostname : Text) :
    Sound outside ((system outside).next s (.stream now server hostname)) ∧
      Fresh ((system outside).next s (.stream now server hostname)) := by
  simp only [system, Event.apply, Event.now, Signals.changeHostnameForStreamingServer]
  split
  · exact step_updateHostnames h hs hnow _
  · exact ⟨h.later rfl hnow.le, hs⟩

theorem step_updateSearchVector (h : Sound outside s) (hs : Fresh s) (hnow : s.now < now)
    (serverIds : List ServerId) :
    Sound outside ((system outside).next s (.updateSearchVector now serverIds)) ∧
      Fresh ((system outside).next s (.updateSearchVector now serverIds)) := by
  obtain ⟨servers, hrun, hrows⟩ := run_updateSearchVector now serverIds s.db
  simp only [system, Event.apply, Event.now, hrun]
  constructor
  · refine h.of_map hrows (fun x _ => ?_) (fun x hx at' hat => ?_) fun x hx => ?_
    · split
      · exact ⟨rfl, rfl⟩
      · exact ⟨rfl, rfl⟩
    · split at hat
      · cases hat
        exact le_refl now
      · exact (h.times x hx at' hat).trans hnow.le
    · split
      · exact h.clean x hx
      · exact h.clean x hx
  · intro x' hx'
    obtain ⟨x, hx, rfl⟩ := List.mem_map.mp (hrows ▸ hx')
    split
    · exact fun _ _ => rfl
    · exact hs x hx

theorem Sound.create (h : Sound outside s) (hnow : s.now ≤ now) {mk : ℕ → Server}
    {hmk : ∀ n, (mk n).pk = n}
    (hother : ∀ n, ∀ x ∈ s.db.servers.rows, ¬ (x.ip = (mk n).ip ∧ x.port = (mk n).port))
    (htime : ∀ n, (mk n).searchUpdatedAt = none) (hclean : ∀ n, CleanServer outside (mk n)) :
    Sound outside ⟨{ s.db with servers := s.db.servers.create mk hmk }, now⟩ := by
  refine ⟨?_, ?_, ?_⟩
  · intro a ha b hb hip hport
    have hrows : ∀ a ∈ s.db.servers.rows, ∀ b ∈ s.db.servers.rows,
        (a.ip, a.port) = (b.ip, b.port) → a = b := fun a ha b hb haddress =>
      h.addresses a ha b hb (Prod.mk.inj haddress).1 (Prod.mk.inj haddress).2
    have hinj := @Table.inj_create _ _ _ _ hmk _ _ hrows fun x hx haddress =>
      hother _ x hx (Prod.mk.inj haddress)
    exact hinj a ha b hb (Prod.ext hip hport)
  · refine @Table.forall_mem_create _ _ _ _ hmk _
      (fun x hx at' hat => (h.times x hx at' hat).trans hnow) ?_
    intro n at' hat
    rw [htime] at hat
    cases hat
  · exact @Table.forall_mem_create _ _ _ _ hmk _ h.clean hclean

theorem step_createServer (h : Sound outside s) (hs : Fresh s) (hnow : s.now < now) (ip : IPv4)
    (port : ℕ) (enabled : Bool) :
    Sound outside ((system outside).next s (.createServer now ip port enabled)) ∧
      Fresh ((system outside).next s (.createServer now ip port enabled)) := by
  simp only [system, Event.apply, Event.now, ServerManager.createServer, run_bind, run_read]
  split
  · exact ⟨h.later rfl hnow.le, hs⟩
  · rename_i hfree
    rw [List.any_eq_true] at hfree
    have hother : ∀ x ∈ s.db.servers.rows, ¬ (x.ip = ip ∧ x.port = port) :=
      fun x hx haddress => hfree ⟨x, hx, decide_eq_true haddress⟩
    refine ⟨h.create hnow.le (fun _ => hother) (fun _ => rfl) (fun _ => rfl), ?_⟩
    exact Table.forall_mem_create hs fun _ hnone => absurd rfl hnone

/-- A server with a hostname and without a vector that no query selects. -/
theorem step_request_of_free (h : Sound outside s) (hnow : s.now < now) {ip : IPv4} {port : ℕ}
    {probe : Probe} {status : ServerStatus} (hanswers : Answers outside port probe status)
    (hfree : atAddress ip port s.db = []) :
    Sound outside ((system outside).next s (.request now ip port probe)) ∧
      ¬ Fresh ((system outside).next s (.request now ip port probe)) := by
  have hother : ∀ x ∈ s.db.servers.rows, ¬ (x.ip = ip ∧ x.port = port) := by
    intro x hx haddress
    have hmem : x ∈ atAddress ip port s.db := mem_atAddress.mpr ⟨hx, haddress⟩
    rw [hfree] at hmem
    cases hmem
  simp only [system, Event.apply, Event.now, run_request_of_free hanswers hfree]
  refine ⟨h.create hnow.le (fun _ => hother) (fun _ => rfl) (fun _ => rfl), ?_⟩
  intro hfresh
  have hvector := hfresh _ (Table.mem_create.mpr (.inr rfl)) (Option.some_ne_none _) rfl
  cases hvector

theorem step_request_of_unlisted (h : Sound outside s) (hs : Fresh s) (hnow : s.now < now)
    {ip : IPv4} {port : ℕ} {probe : Probe} {status : ServerStatus}
    (hanswers : Answers outside port probe status) {server : Server}
    (hfound : atAddress ip port s.db = [server]) (hlisted : server.listed = false) :
    Sound outside ((system outside).next s (.request now ip port probe)) ∧
      (Fresh ((system outside).next s (.request now ip port probe)) ↔
        (requireSearchUpdate server = true ∨ server.search = some (serverSearchVector
          (some (forceCleanName outside status.hostname))))) := by
  obtain ⟨hserver, hip, hport⟩ : server ∈ s.db.servers.rows ∧ server.ip = ip ∧ server.port = port :=
    mem_atAddress.mp (hfound ▸ List.mem_singleton_self server)
  obtain ⟨servers, hrun, hrows⟩ := run_request_of_unlisted hanswers hfound hlisted
  simp only [system, Event.apply, Event.now, hrun]
  constructor
  · refine h.of_map hrows (fun x _ => ?_) (fun x hx at' hat => ?_) fun x hx => ?_
    · split
      · rename_i heq
        rw [heq]
        exact ⟨hip.symm, hport.symm⟩
      · exact ⟨rfl, rfl⟩
    · refine (h.times x hx at' ?_).trans hnow.le
      split at hat
      · exact hat
      · exact hat
    · split
      · rfl
      · exact h.clean x hx
  · simp only [Fresh, hrows, List.forall_mem_map]
    constructor
    · intro hfresh
      have hrelisted := hfresh server hserver
      rw [if_pos rfl] at hrelisted
      refine or_iff_not_imp_left.mpr fun hsettled => ?_
      exact hrelisted (Option.some_ne_none _) (Bool.not_eq_true _ ▸ hsettled)
    · intro hvector x hx
      split
      · rename_i heq
        intro _ hsettled
        rw [heq] at hsettled ⊢
        refine hvector.resolve_left fun hbehind => ?_
        exact Bool.false_ne_true (hsettled.symm.trans hbehind)
      · exact hs x hx

theorem step_request (h : Sound outside s) (hs : Fresh s) (hnow : s.now < now) (ip : IPv4)
    (port : ℕ) (probe : Probe) :
    Sound outside ((system outside).next s (.request now ip port probe)) ∧
      (Fresh ((system outside).next s (.request now ip port probe)) ↔
        KeepsVector outside s (.request now ip port probe)) := by
  have hsame : ((request outside ip port probe).run s.db).2 = s.db →
      Sound outside ((system outside).next s (.request now ip port probe)) ∧
        Fresh ((system outside).next s (.request now ip port probe)) := fun hdb =>
    ⟨h.later (t := (system outside).next s (.request now ip port probe)) hdb hnow.le,
      fresh_later (t := (system outside).next s (.request now ip port probe)) hs hdb⟩
  obtain ⟨status, hanswers⟩ | hrefused :=
    Classical.em (∃ status, Answers outside port probe status)
  · have hstatus : ∀ status', Answers outside port probe status' → status' = status :=
      fun status' h' => Option.some_inj.mp (h'.probed.symm.trans hanswers.probed)
    cases hfound : atAddress ip port s.db with
    | nil =>
      obtain ⟨hsound, hstale⟩ := step_request_of_free h hnow hanswers hfound
      refine ⟨hsound, iff_of_false hstale fun hkeeps => ?_⟩
      obtain ⟨server, hserver, haddress, _⟩ := hkeeps status hanswers
      have hmem : server ∈ atAddress ip port s.db := mem_atAddress.mpr ⟨hserver, haddress⟩
      rw [hfound] at hmem
      cases hmem
    | cons server rest =>
      obtain ⟨hserver, haddress⟩ : server ∈ s.db.servers.rows ∧
          server.ip = ip ∧ server.port = port :=
        mem_atAddress.mp (hfound ▸ List.mem_cons_self)
      have hone : ∀ x ∈ s.db.servers.rows, x.ip = ip ∧ x.port = port → x = server :=
        fun x hx hx' => h.addresses x hx server hserver (hx'.1.trans haddress.1.symm)
          (hx'.2.trans haddress.2.symm)
      have hnodup : (atAddress ip port s.db).Nodup :=
        (List.Nodup.of_map _ s.db.servers.nodup).filter _
      obtain rfl : rest = [] := by
        cases rest with
        | nil => rfl
        | cons other rest =>
          have hother : other ∈ atAddress ip port s.db := by
            rw [hfound]
            simp
          obtain ⟨hmem, haddress'⟩ := mem_atAddress.mp hother
          rw [hfound, hone other hmem haddress'] at hnodup
          simp at hnodup
      cases hlisted : server.listed with
      | true =>
        obtain ⟨hsound, hfresh⟩ := hsame (run_request_of_listed hfound hlisted)
        refine ⟨hsound, iff_of_true hfresh fun status' _ => ?_⟩
        exact ⟨server, hserver, haddress, .inl hlisted⟩
      | false =>
        obtain ⟨hsound, hiff⟩ := step_request_of_unlisted h hs hnow hanswers hfound hlisted
        refine ⟨hsound, hiff.trans ⟨fun hvector status' hstatus' => ?_, fun hkeeps => ?_⟩⟩
        · rw [hstatus status' hstatus']
          exact ⟨server, hserver, haddress, .inr hvector⟩
        · obtain ⟨server', hserver', haddress', hvector⟩ := hkeeps status hanswers
          rw [hone server' hserver' haddress', hlisted] at hvector
          exact hvector.resolve_left Bool.false_ne_true
  · obtain ⟨hsound, hfresh⟩ := hsame (run_request_of_refused hrefused)
    exact ⟨hsound, iff_of_true hfresh fun status hanswers => absurd ⟨status, hanswers⟩ hrefused⟩

theorem step_elsewhere (h : Sound outside s) (hs : Fresh s) (hnow : s.now < now)
    {change : Database → Database}
    (hchange : (change s.db).servers.rows.map searchColumns =
      s.db.servers.rows.map searchColumns) :
    Sound outside ((system outside).next s (.elsewhere now change)) ∧
      Fresh ((system outside).next s (.elsewhere now change)) := by
  have hold : ∀ x ∈ (change s.db).servers.rows, ∃ y ∈ s.db.servers.rows,
      searchColumns y = searchColumns x := by
    intro x hx
    have hmem : searchColumns x ∈ s.db.servers.rows.map searchColumns :=
      hchange ▸ List.mem_map_of_mem hx
    exact List.mem_map.mp hmem
  refine ⟨⟨?_, ?_, ?_⟩, ?_⟩
  · intro a ha b hb hip hport
    obtain ⟨x, hx, hxa⟩ := hold a ha
    obtain ⟨y, hy, hyb⟩ := hold b hb
    apply (change s.db).servers.eq_of_key_eq ha hb
    have hxy : x = y := by
      refine h.addresses x hx y hy ?_ ?_
      · exact (congrArg SearchColumns.ip hxa).trans
          (hip.trans (congrArg SearchColumns.ip hyb).symm)
      · exact (congrArg SearchColumns.port hxa).trans
          (hport.trans (congrArg SearchColumns.port hyb).symm)
    rw [hxy] at hxa
    exact (congrArg SearchColumns.pk hxa).symm.trans (congrArg SearchColumns.pk hyb)
  · intro x hx at' hat
    obtain ⟨y, hy, hyx⟩ := hold x hx
    have hsame : y.searchUpdatedAt = x.searchUpdatedAt :=
      congrArg SearchColumns.searchUpdatedAt hyx
    rw [← hsame] at hat
    exact (h.times y hy at' hat).trans hnow.le
  · intro x hx
    obtain ⟨y, hy, hyx⟩ := hold x hx
    have hclean := h.clean y hy
    rw [CleanServer] at hclean ⊢
    exact (congrArg SearchColumns.hostnameClean hyx).symm.trans
      (hclean.trans (congrArg (fun c => c.hostname.map (forceCleanName outside)) hyx))
  · intro x hx
    obtain ⟨y, hy, hyx⟩ := hold x hx
    exact (FreshServer.congr hyx).mp (hs y hy)

/-- From a fresh state, exactly the steps that keep the vectors lead to a fresh one. -/
theorem step_iff (h : Sound outside s) (hs : Fresh s) {e : Event}
    (he : (system outside).enabled s e) :
    Sound outside ((system outside).next s e) ∧
      (Fresh ((system outside).next s e) ↔ KeepsVector outside s e) := by
  obtain ⟨hnow, henabled⟩ := he
  cases e with
  | createServer now ip port enabled =>
    exact (step_createServer h hs hnow ip port enabled).imp_right fun hfresh =>
      iff_of_true hfresh trivial
  | refresh now servers =>
    exact (step_refresh h hs hnow servers).imp_right fun hfresh => iff_of_true hfresh trivial
  | stream now server hostname =>
    exact (step_stream h hs hnow server hostname).imp_right fun hfresh =>
      iff_of_true hfresh trivial
  | request now ip port probe => exact step_request h hs hnow ip port probe
  | updateSearchVector now serverIds =>
    exact (step_updateSearchVector h hs hnow serverIds).imp_right fun hfresh =>
      iff_of_true hfresh trivial
  | elsewhere now change =>
    exact (step_elsewhere h hs hnow henabled).imp_right fun hfresh => iff_of_true hfresh trivial

end Steps

/-- Each server with a hostname that the query does not select is clean and indexed as it is. -/
def Indexed (outside : External) (s : State) : Prop :=
  ∀ server ∈ s.db.servers.rows, ∀ hostname ∈ server.hostname,
    requireSearchUpdate server = false →
      server.hostnameClean = some (forceCleanName outside hostname) ∧
        server.search = some (serverSearchVector server.hostnameClean)

theorem indexed_iff {outside : External} {s : State} (h : Sound outside s) :
    Indexed outside s ↔ Fresh s := by
  constructor
  · intro hindexed server hserver hsome hsettled
    obtain ⟨hostname, hhostname⟩ := Option.ne_none_iff_exists'.mp hsome
    exact (hindexed server hserver hostname hhostname hsettled).2
  · intro hfresh server hserver hostname hhostname hsettled
    have hsome : server.hostname = some hostname := hhostname
    refine ⟨?_, hfresh server hserver (by simp [hsome]) hsettled⟩
    rw [h.clean server hserver, hsome]
    rfl

/-- The steps of a run keep the vectors exactly if every server is indexed all the way. -/
theorem indexed_iff_of_run {outside : External} {events : List Event} {s : State}
    (h : Run (system outside) initial events s) :
    Run ((system outside).restrict (KeepsVector outside)) initial events s ↔
      ∀ es t, es <+: events → Run (system outside) initial es t → Indexed outside t := by
  have hsound : Sound outside initial := by
    refine ⟨?_, ?_, ?_⟩
    · rintro a ⟨⟩
    · rintro a ⟨⟩
    · rintro a ⟨⟩
  have hindexed : Indexed outside initial := by
    rintro a ⟨⟩
  have hstep : ∀ s e, Sound outside s → Indexed outside s → (system outside).enabled s e →
      Sound outside ((system outside).next s e) ∧
        (Indexed outside ((system outside).next s e) ↔ KeepsVector outside s e) := by
    intro s e hs hi he
    obtain ⟨hnext, hiff⟩ := step_iff hs ((indexed_iff hs).mp hi) he
    exact ⟨hnext, (indexed_iff hnext).trans hiff⟩
  exact h.restrict_iff_forall_prefix (fun s e hs hi he => (hstep s e hs hi he).1)
    (fun s e hs hi he => (hstep s e hs hi he).2) hsound hindexed

section Example

def answer (hostname : String) : PyValue :=
  .dict (([("hostname", hostname), ("hostport", "10480"), ("gamevariant", "SWAT 4"),
    ("gamever", "1.1"), ("gametype", "CO-OP"), ("numplayers", "0"), ("maxplayers", "16"),
    ("mapname", "A-Bomb Nightclub"), ("password", "0")].map fun entry =>
      (entry.1.toList, PyValue.str entry.2.toList)) ++
    [("players".toList, .list []), ("objectives".toList, .list [])])

def streamedServer : List Event :=
  [.createServer 1 7 10480 true,
    .stream 2 { pk := 1, ip := 7, port := 10480 } "[b]Myt Team[\\b]".toList,
    .updateSearchVector 3 [1]]

def relistedAsIs : List Event :=
  streamedServer ++ [.request 4 7 10480 (some (answer "Myt Team"))]

def relistedRenamed : List Event :=
  streamedServer ++ [.request 4 7 10480 (some (answer "Sog Team"))]

def createdByRequest : List Event := [.request 1 7 10480 (some (answer "Myt Team"))]

instance (outside : External) (s : State) : ∀ e, Decidable ((system outside).enabled s e)
  | .elsewhere now change => inferInstanceAs (Decidable (s.now < now ∧
      (change s.db).servers.rows.map searchColumns = s.db.servers.rows.map searchColumns))
  | .createServer now _ _ _ | .refresh now _ | .stream now _ _ | .request now _ _ _
  | .updateSearchVector now _ => inferInstanceAs (Decidable (s.now < now ∧ True))

instance (outside : External) (s : State) : ∀ e, Decidable (KeepsVector outside s e)
  | .request _ ip port probe =>
    decidable_of_iff (∀ status ∈ probedStatus port probe,
        1 ≤ port ∧ port ≤ 65535 → (Hostname.of outside status.hostname).Fits →
        ∃ server ∈ s.db.servers.rows, (server.ip = ip ∧ server.port = port) ∧
          (server.listed = true ∨ requireSearchUpdate server = true ∨
            server.search = some (serverSearchVector
              (some (forceCleanName outside status.hostname)))))
      ⟨fun h status ⟨hprobed, hport, hfits⟩ => h status hprobed hport hfits,
        fun h status hprobed hport hfits => h status ⟨hprobed, hport, hfits⟩⟩
  | .createServer _ _ _ _ | .refresh _ _ | .stream _ _ _ | .updateSearchVector _ _
  | .elsewhere _ _ => inferInstanceAs (Decidable True)

theorem indexed_of_relistedAsIs :
    Run (system plainOutside) initial relistedAsIs
        (relistedAsIs.foldl (system plainOutside).next initial) ∧
      Indexed plainOutside (relistedAsIs.foldl (system plainOutside).next initial) := by
  have hrun : Run (system plainOutside) initial relistedAsIs
      (relistedAsIs.foldl (system plainOutside).next initial) :=
    .of_admits (by decide +kernel)
  have hrestricted : Run ((system plainOutside).restrict (KeepsVector plainOutside)) initial
      relistedAsIs (relistedAsIs.foldl (system plainOutside).next initial) :=
    .of_admits (by decide +kernel)
  exact ⟨hrun, (indexed_iff_of_run hrun).mp hrestricted _ _ List.prefix_rfl hrun⟩

/-- No query selects the server that the API created or relisted, and the index does not have it
under its hostname. -/
theorem requested_not_indexed :
    (∃ s, Run (system plainOutside) initial createdByRequest s ∧ ¬ Indexed plainOutside s) ∧
      ∃ s, Run (system plainOutside) initial relistedRenamed s ∧ ¬ Indexed plainOutside s := by
  have hruns : ∀ events ∈ [createdByRequest, relistedRenamed],
      (system plainOutside).Admits initial events ∧
      ∃ server ∈ (events.foldl (system plainOutside).next initial).db.servers.rows,
        ∃ hostname ∈ server.hostname, requireSearchUpdate server = false ∧
          server.search ≠ some (serverSearchVector server.hostnameClean) := by
    decide +kernel
  have hstale : ∀ events ∈ [createdByRequest, relistedRenamed],
      ∃ s, Run (system plainOutside) initial events s ∧ ¬ Indexed plainOutside s := by
    intro events hevents
    obtain ⟨hadmits, server, hserver, hostname, hhostname, hsettled, hstale⟩ := hruns events hevents
    exact ⟨_, .of_admits hadmits, fun hindexed =>
      hstale (hindexed server hserver hostname hhostname hsettled).2⟩
  exact ⟨hstale createdByRequest (by simp), hstale relistedRenamed (by simp)⟩

end Example

end ServerSearch

end Swat4Stats
