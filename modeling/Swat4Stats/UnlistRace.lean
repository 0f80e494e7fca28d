import Swat4Stats.Listing
import Swat4Stats.RelistRace

/-!
# Unlisting while a server comes back

The task reads which servers have failed too often, and then unlists them by their keys. What the
read has found may be over by then, and the update looks at the list again, not at the counter.
-/

namespace Swat4Stats

set_option autoImplicit false

open Tx Transition

namespace UnlistRace

open ServerManager ServerCreateSerializer
open RelistRace (accepted Saves)

structure State where
  db : Database
  /-- The servers that a task has read and has not updated yet, for each such task. -/
  unlistings : List (List ServerId)
  /-- The requests to the API that were validated and are not saved yet. -/
  requests : List Attrs

inductive Event where
  /-- The first query of `unlist_failed_servers`. -/
  | readFailed
  /-- The update of the task at that position. -/
  | unlistServers (position : ℕ)
  | relistServers (serverIds : List ServerId)
  | resetQueryFailures (serverIds : List ServerId)
  | incrementQueryFailures (serverIds : List ServerId)
  | validate (ip : IPv4) (port : ℕ) (probe : Probe)
  /-- The request at that position is saved. -/
  | create (position : ℕ)
  /-- Anything else that happens to the database. -/
  | elsewhere (change : Database → Database)

def started (toleratedFailures : ℕ) (db : Database) : List (List ServerId) :=
  match (getListedServersWithExceededFailures toleratedFailures db).map Server.pk with
  | [] => []
  | serverIds => [serverIds]

def unlisted (s : State) (position : ℕ) : Database :=
  match s.unlistings[position]? with
  | some serverIds => ((ServerManager.unlistServers serverIds).run s.db).2
  | none => s.db

def saved (s : State) (position : ℕ) : Database :=
  match s.requests[position]? with
  | some attrs => ((create attrs).run s.db).2
  | none => s.db

/-- No server is deleted, and none is listed or counted otherwise. -/
structure LeavesListing (db db' : Database) : Prop where
  keys : ∀ row ∈ db.servers.rows, ∃ row' ∈ db'.servers.rows, row'.pk = row.pk
  listed : ∀ row' ∈ db'.servers.rows, row'.listed = true → ∃ row ∈ db.servers.rows,
    row.pk = row'.pk ∧ row.listed = true ∧ row.failures = row'.failures

def system (outside : External) (toleratedFailures : ℕ) : System State Event where
  enabled s
    | .unlistServers position => position < s.unlistings.length
    | .create position => position < s.requests.length
    | .elsewhere change => LeavesListing s.db (change s.db)
    | _ => True
  next s
    | .readFailed => { s with unlistings := started toleratedFailures s.db ++ s.unlistings }
    | .unlistServers position =>
      { s with db := unlisted s position, unlistings := s.unlistings.eraseIdx position }
    | .relistServers serverIds =>
      { s with db := ((ServerManager.relistServers serverIds).run s.db).2 }
    | .resetQueryFailures serverIds =>
      { s with db := ((ServerManager.resetQueryFailures serverIds).run s.db).2 }
    | .incrementQueryFailures serverIds =>
      { s with db := ((ServerManager.incrementQueryFailures serverIds).run s.db).2 }
    | .validate ip port probe =>
      { s with requests := accepted ((validate outside ip port probe).run s.db).1 ++ s.requests }
    | .create position =>
      { s with db := saved s position, requests := s.requests.eraseIdx position }
    | .elsewhere change => { s with db := change s.db }

/-- A server that is listed before and not after has failed too often. -/
def UnlistsFailed (toleratedFailures : ℕ) (db db' : Database) : Prop :=
  ∀ row ∈ db.servers.rows, row.listed = true → ∀ row' ∈ db'.servers.rows, row'.pk = row.pk →
    row'.listed = false → toleratedFailures ≤ row.failures

/-- No server that a task has read is relisted, or has its counter reset while it is listed. -/
def LeavesRead (s : State) : Event → Prop
  | .relistServers serverIds => ∀ read ∈ s.unlistings, ∀ row ∈ s.db.servers.rows, row.pk ∈ read →
      row.pk ∈ serverIds → row.listed = true
  | .resetQueryFailures serverIds => ∀ read ∈ s.unlistings, ∀ row ∈ s.db.servers.rows,
      row.pk ∈ read → row.pk ∈ serverIds → row.listed = false
  | .create position => ∀ attrs ∈ s.requests[position]?, Saves attrs →
      ∀ server ∈ attrs.instance, ∀ read ∈ s.unlistings, server.pk ∉ read
  | _ => True

/-- Whoever of them is listed was so before, and has not failed less. -/
def Raises (read : List ServerId) (db db' : Database) : Prop :=
  ∀ row' ∈ db'.servers.rows, row'.pk ∈ read → row'.listed = true → ∃ row ∈ db.servers.rows,
    row.pk = row'.pk ∧ row.listed = true ∧ row.failures ≤ row'.failures

/-- The read is of stored servers, and still holds of those that are listed. -/
structure Holds (toleratedFailures : ℕ) (db : Database) (read : List ServerId) : Prop where
  stored : ∀ pk ∈ read, ∃ row ∈ db.servers.rows, row.pk = pk
  failed : ∀ row ∈ db.servers.rows, row.pk ∈ read → row.listed = true →
    toleratedFailures ≤ row.failures

section Frames

variable {toleratedFailures : ℕ} {db db' : Database} {read serverIds : List ServerId}

theorem Holds.of_raises (h : Holds toleratedFailures db read)
    (hkeys : ∀ row ∈ db.servers.rows, ∃ row' ∈ db'.servers.rows, row'.pk = row.pk)
    (hraises : Raises read db db') : Holds toleratedFailures db' read where
  stored pk hpk := by
    obtain ⟨row, hrow, rfl⟩ := h.stored pk hpk
    exact hkeys row hrow
  failed row' hrow' hpk hlisted := by
    obtain ⟨row, hrow, hsame, hlisted, hle⟩ := hraises row' hrow' hpk hlisted
    exact (h.failed row hrow (hsame ▸ hpk) hlisted).trans hle

theorem Raises.refl : Raises read db db :=
  fun row hrow _ hlisted => ⟨row, hrow, rfl, hlisted, le_rfl⟩

theorem Raises.of_map {f : Server → Server} (hrows : db'.servers.rows = db.servers.rows.map f)
    (hpk : ∀ row, (f row).pk = row.pk)
    (hf : ∀ row ∈ db.servers.rows, row.pk ∈ read → (f row).listed = true →
      row.listed = true ∧ row.failures ≤ (f row).failures) : Raises read db db' := by
  intro row' hrow' hmem hlisted
  rw [hrows] at hrow'
  obtain ⟨row, hrow, rfl⟩ := List.mem_map.mp hrow'
  rw [hpk] at hmem ⊢
  exact ⟨row, hrow, rfl, hf row hrow hmem hlisted⟩

theorem keys_of_map {f : Server → Server} (hrows : db'.servers.rows = db.servers.rows.map f)
    (hpk : ∀ row, (f row).pk = row.pk) :
    ∀ row ∈ db.servers.rows, ∃ row' ∈ db'.servers.rows, row'.pk = row.pk := by
  intro row hrow
  rw [hrows]
  exact ⟨f row, List.mem_map_of_mem hrow, hpk row⟩

theorem Holds.of_map (h : Holds toleratedFailures db read) {f : Server → Server}
    (hrows : db'.servers.rows = db.servers.rows.map f) (hpk : ∀ row, (f row).pk = row.pk)
    (hf : ∀ row ∈ db.servers.rows, row.pk ∈ read → (f row).listed = true →
      row.listed = true ∧ row.failures ≤ (f row).failures) : Holds toleratedFailures db' read :=
  h.of_raises (keys_of_map hrows hpk) (Raises.of_map hrows hpk hf)

theorem holds_started (h : read ∈ started toleratedFailures db) :
    Holds toleratedFailures db read := by
  have hread : read = (getListedServersWithExceededFailures toleratedFailures db).map
      Server.pk := by
    unfold started at h
    split at h
    · cases h
    · exact List.mem_singleton.mp h
  rw [hread]
  constructor
  · intro pk hpk
    obtain ⟨row, hrow, rfl⟩ := List.mem_map.mp hpk
    exact ⟨row, (mem_getListedServersWithExceededFailures.mp hrow).1, rfl⟩
  · intro row hrow hpk _
    obtain ⟨other, hother, hsame⟩ := List.mem_map.mp hpk
    obtain ⟨hmem, _, hle⟩ := mem_getListedServersWithExceededFailures.mp hother
    rwa [db.servers.eq_of_key_eq hmem hrow hsame] at hle

theorem Holds.unlistsFailed (h : Holds toleratedFailures db read) :
    UnlistsFailed toleratedFailures db ((ServerManager.unlistServers read).run db).2 := by
  obtain ⟨servers, hrun, hrows⟩ := run_unlistServers read db
  rw [hrun]
  intro row hrow hlisted row' hrow' hpk hunlisted
  have hrow' : row' ∈ servers.rows := hrow'
  rw [hrows] at hrow'
  obtain ⟨other, hother, rfl⟩ := List.mem_map.mp hrow'
  rw [withUnlisting_pk] at hpk
  obtain rfl := db.servers.eq_of_key_eq hother hrow hpk
  refine h.failed other hother ?_ hlisted
  by_contra hout
  rw [withUnlisting_listed.mpr ⟨hlisted, hout⟩] at hunlisted
  cases hunlisted

end Frames

section Steps

variable {outside : External} {toleratedFailures : ℕ} {s : State}

theorem keys_saved (position : ℕ) : ∀ row ∈ s.db.servers.rows,
    ∃ row' ∈ (saved s position).servers.rows, row'.pk = row.pk := by
  rw [saved]
  cases s.requests[position]? with
  | none => exact fun row hrow => ⟨row, hrow, rfl⟩
  | some attrs =>
    obtain hsaves | hsaves := Classical.em (Saves attrs)
    · cases hinstance : attrs.instance with
      | none =>
        obtain ⟨servers, hrun, hkept, _⟩ := @RelistRace.run_create_of_none s.db _ hinstance
        simp only [hrun]
        exact fun row hrow => ⟨row, hkept row hrow, rfl⟩
      | some server =>
        obtain ⟨servers, hrun, hrows⟩ := @RelistRace.run_create_of_some s.db _ _ hsaves hinstance
        simp only [hrun]
        refine @keys_of_map s.db { s.db with servers } _ hrows fun row => ?_
        split
        · rfl
        · rfl
    · simp only [RelistRace.run_create_of_not_saves hsaves]
      exact fun row hrow => ⟨row, hrow, rfl⟩

/-- A request saves a server that no task has read, or creates one. -/
theorem raises_saved {read : List ServerId} {position : ℕ}
    (hstored : ∀ pk ∈ read, ∃ row ∈ s.db.servers.rows, row.pk = pk)
    (hleaves : ∀ attrs ∈ s.requests[position]?, Saves attrs → ∀ server ∈ attrs.instance,
      server.pk ∉ read) : Raises read s.db (saved s position) := by
  rw [saved]
  cases hattrs : s.requests[position]? with
  | none => exact Raises.refl
  | some attrs =>
    obtain hsaves | hsaves := Classical.em (Saves attrs)
    · cases hinstance : attrs.instance with
      | none =>
        obtain ⟨servers, hrun, _, hnew⟩ := @RelistRace.run_create_of_none s.db _ hinstance
        simp only [hrun]
        intro row' hrow' hmem hlisted
        obtain hrow | hfresh := hnew row' hrow'
        · exact ⟨row', hrow, rfl, hlisted, le_rfl⟩
        · obtain ⟨row, hrow, hpk⟩ := hstored _ hmem
          exact absurd hpk (hfresh row hrow)
      | some server =>
        obtain ⟨servers, hrun, hrows⟩ := @RelistRace.run_create_of_some s.db _ _ hsaves hinstance
        have hout : server.pk ∉ read := hleaves attrs hattrs hsaves server hinstance
        simp only [hrun]
        refine Raises.of_map hrows (fun row => ?_) fun row _ hmem hlisted => ?_
        · split
          · rfl
          · rfl
        · have hne : row.pk ≠ server.pk := fun hpk => hout (hpk ▸ hmem)
          rw [if_neg hne] at hlisted ⊢
          exact ⟨hlisted, le_rfl⟩
    · simp only [RelistRace.run_create_of_not_saves hsaves]
      exact Raises.refl

/-- Where a step leaves the read servers alone, what the tasks have read still holds. -/
theorem holds_next {e : Event} {read : List ServerId} (hread : read ∈ s.unlistings)
    (h : Holds toleratedFailures s.db read)
    (henabled : (system outside toleratedFailures).enabled s e) (hleaves : LeavesRead s e) :
    Holds toleratedFailures ((system outside toleratedFailures).next s e).db read := by
  cases e with
  | readFailed => exact h
  | unlistServers position =>
    simp only [system, unlisted]
    cases s.unlistings[position]? with
    | none => exact h
    | some serverIds =>
      obtain ⟨servers, hrun, hrows⟩ := run_unlistServers serverIds s.db
      simp only [hrun]
      refine h.of_map hrows (fun _ => withUnlisting_pk) fun row _ _ hlisted => ?_
      exact ⟨(withUnlisting_listed.mp hlisted).1, withUnlisting_failures.ge⟩
  | relistServers serverIds =>
    obtain ⟨servers, hrun, hrows⟩ := run_relistServers serverIds s.db
    simp only [system, hrun]
    refine h.of_map hrows (fun _ => withRelisting_pk) fun row hrow hmem hlisted => ?_
    have hout : ¬ (row.pk ∈ serverIds ∧ row.listed = false) := by
      rintro ⟨hin, hunlisted⟩
      rw [hleaves read hread row hrow hmem hin] at hunlisted
      cases hunlisted
    rw [withRelisting, if_neg hout] at hlisted ⊢
    exact ⟨hlisted, le_rfl⟩
  | resetQueryFailures serverIds =>
    refine h.of_map rfl (fun row => ?_) fun row hrow hmem hlisted => ?_
    · split
      · rfl
      · rfl
    · have hout : ¬ (row.pk ∈ serverIds ∧ 0 < row.failures ∧ row.listed = true) := by
        rintro ⟨hin, _, hlisted⟩
        rw [hleaves read hread row hrow hmem hin] at hlisted
        cases hlisted
      simp only [hout, decide_false, Bool.false_eq_true, if_false] at hlisted ⊢
      exact ⟨hlisted, le_rfl⟩
  | incrementQueryFailures serverIds =>
    simp only [system]
    obtain ⟨_, hrun⟩ | ⟨_, servers, hrun, hrows⟩ := run_incrementQueryFailures serverIds s.db
    · rwa [hrun]
    · rw [hrun]
      refine h.of_map hrows (fun row => ?_) fun row _ _ hlisted => ?_
      · unfold withFailure
        split
        · rfl
        · rfl
      · obtain hin | hout := Classical.em (row.pk ∈ serverIds ∧ row.listed = true)
        · rw [withFailure, if_pos hin]
          exact ⟨hin.2, Nat.le_succ _⟩
        · rw [withFailure, if_neg hout] at hlisted ⊢
          exact ⟨hlisted, le_rfl⟩
  | validate ip port probe => exact h
  | create position =>
    have hout : ∀ attrs ∈ s.requests[position]?, Saves attrs → ∀ server ∈ attrs.instance,
        server.pk ∉ read := fun attrs hattrs hsaves server hserver =>
      hleaves attrs hattrs hsaves server hserver read hread
    exact h.of_raises (keys_saved position) (raises_saved h.stored hout)
  | elsewhere change =>
    refine h.of_raises henabled.keys fun row' hrow' _ hlisted => ?_
    obtain ⟨row, hrow, hpk, hlisted, hsame⟩ := henabled.listed row' hrow' hlisted
    exact ⟨row, hrow, hpk, hlisted, hsame.le⟩

theorem mem_unlistings_next {e : Event} {read : List ServerId}
    (h : read ∈ ((system outside toleratedFailures).next s e).unlistings) :
    read ∈ s.unlistings ∨ read ∈ started toleratedFailures s.db ∧
      ((system outside toleratedFailures).next s e).db = s.db := by
  cases e with
  | readFailed =>
    obtain h | h := List.mem_append.mp h
    · exact .inr ⟨h, rfl⟩
    · exact .inl h
  | unlistServers position => exact .inl (List.mem_of_mem_eraseIdx h)
  | relistServers serverIds => exact .inl h
  | resetQueryFailures serverIds => exact .inl h
  | incrementQueryFailures serverIds => exact .inl h
  | validate ip port probe => exact .inl h
  | create position => exact .inl h
  | elsewhere change => exact .inl h

theorem holds_step {e : Event} (h : ∀ read ∈ s.unlistings, Holds toleratedFailures s.db read)
    (henabled : (system outside toleratedFailures).enabled s e) (hleaves : LeavesRead s e) :
    ∀ read ∈ ((system outside toleratedFailures).next s e).unlistings,
      Holds toleratedFailures ((system outside toleratedFailures).next s e).db read := by
  intro read hread
  obtain hread | ⟨hstarted, hdb⟩ := mem_unlistings_next hread
  · exact holds_next hread (h read hread) henabled hleaves
  · rw [hdb]
    exact holds_started hstarted

theorem unlistsFailed_unlisted (h : ∀ read ∈ s.unlistings, Holds toleratedFailures s.db read)
    (position : ℕ) : UnlistsFailed toleratedFailures s.db (unlisted s position) := by
  rw [unlisted]
  cases hread : s.unlistings[position]? with
  | none =>
    intro row hrow hlisted row' hrow' hpk hunlisted
    rw [s.db.servers.eq_of_key_eq hrow' hrow hpk, hlisted] at hunlisted
    cases hunlisted
  | some read => exact (h read (List.mem_of_getElem? hread)).unlistsFailed

end Steps

/-- Where no server is relisted or reset between the read of a task and its update, every update of
the run unlists failing servers only. -/
theorem unlistsFailed_of_run {outside : External} {toleratedFailures : ℕ} {db : Database}
    {events : List Event} {s : State}
    (h : Run ((system outside toleratedFailures).restrict LeavesRead) ⟨db, [], []⟩ events s) :
    ∀ es position t, es ++ [.unlistServers position] <+: events →
      Run (system outside toleratedFailures) ⟨db, [], []⟩ es t →
        UnlistsFailed toleratedFailures t.db (unlisted t position) := by
  rintro es position t ⟨rest, rfl⟩ ht
  obtain ⟨v, hv, _⟩ := Run.append_iff.mp h
  obtain ⟨u, hu, _⟩ := Run.append_iff.mp hv
  rw [ht.unique hu.of_restrict]
  let Inv := fun s : State => ∀ read ∈ s.unlistings, Holds toleratedFailures s.db read
  have hinv : Inv u := by
    refine hu.invariant_restrict ?_ (show Inv ⟨db, [], []⟩ from ?_)
    · exact fun s e hs henabled hleaves => holds_step hs henabled hleaves
    · rintro _ ⟨⟩
  exact unlistsFailed_unlisted hinv position

section Example

open ServerSearch (answer)

instance (db db' : Database) : Decidable (LeavesListing db db') :=
  decidable_of_iff ((∀ row ∈ db.servers.rows, ∃ row' ∈ db'.servers.rows, row'.pk = row.pk) ∧
      ∀ row' ∈ db'.servers.rows, row'.listed = true → ∃ row ∈ db.servers.rows,
        row.pk = row'.pk ∧ row.listed = true ∧ row.failures = row'.failures)
    ⟨fun h => ⟨h.1, h.2⟩, fun h => ⟨h.keys, h.listed⟩⟩

instance (outside : External) (n : ℕ) (s : State) : ∀ e, Decidable ((system outside n).enabled s e)
  | .unlistServers position => inferInstanceAs (Decidable (position < s.unlistings.length))
  | .create position => inferInstanceAs (Decidable (position < s.requests.length))
  | .elsewhere change => inferInstanceAs (Decidable (LeavesListing s.db (change s.db)))
  | .readFailed | .relistServers _ | .resetQueryFailures _ | .incrementQueryFailures _
  | .validate _ _ _ => inferInstanceAs (Decidable True)

instance (s : State) : ∀ e, Decidable (LeavesRead s e)
  | .relistServers serverIds => inferInstanceAs (Decidable (∀ read ∈ s.unlistings,
      ∀ row ∈ s.db.servers.rows, row.pk ∈ read → row.pk ∈ serverIds → row.listed = true))
  | .resetQueryFailures serverIds => inferInstanceAs (Decidable (∀ read ∈ s.unlistings,
      ∀ row ∈ s.db.servers.rows, row.pk ∈ read → row.pk ∈ serverIds → row.listed = false))
  | .create position => inferInstanceAs (Decidable (∀ attrs ∈ s.requests[position]?, Saves attrs →
      ∀ server ∈ attrs.instance, ∀ read ∈ s.unlistings, server.pk ∉ read))
  | .readFailed | .unlistServers _ | .incrementQueryFailures _ | .validate _ _ _ | .elsewhere _ =>
    inferInstanceAs (Decidable True)

def atLimit : Database :=
  { Database.empty with
    servers := ⟨[{ pk := 1, ip := 7, port := 10480, listed := true, failures := 12 },
      { pk := 2, ip := 8, port := 10480 }], by decide⟩ }

def readAndUpdated : List Event :=
  [.validate 8 10480 (some (answer "Myt Team")), .readFailed, .resetQueryFailures [2],
    .relistServers [1], .create 0, .incrementQueryFailures [1], .unlistServers 0]

theorem unlistsFailed_of_readAndUpdated :
    ∃ t, Run (system plainOutside 12) ⟨atLimit, [], []⟩ (readAndUpdated.take 6) t ∧
      UnlistsFailed 12 t.db (unlisted t 0) := by
  have hrun : Run ((system plainOutside 12).restrict LeavesRead) ⟨atLimit, [], []⟩ readAndUpdated
      _ := .of_admits (by decide +kernel)
  have htaken : Run (system plainOutside 12) ⟨atLimit, [], []⟩ (readAndUpdated.take 6) _ :=
    .of_admits (by decide +kernel)
  exact ⟨_, htaken, unlistsFailed_of_run hrun _ 0 _ List.prefix_rfl htaken⟩

/-- The server has answered between the read and the update, which unlists it with no failures. -/
theorem live_unlisted :
    ∃ t, Run (system plainOutside 12) ⟨atLimit, [], []⟩ [.readFailed, .resetQueryFailures [1]] t ∧
      (system plainOutside 12).enabled t (.unlistServers 0) ∧
      (∃ row ∈ t.db.servers.rows, row.pk = 1 ∧ row.listed = true ∧ row.failures = 0) ∧
      ¬ UnlistsFailed 12 t.db (unlisted t 0) := by
  refine ⟨_, .of_admits (by decide +kernel), by decide +kernel, by decide +kernel, ?_⟩
  unfold UnlistsFailed
  decide +kernel

end Example

end UnlistRace

end Swat4Stats
