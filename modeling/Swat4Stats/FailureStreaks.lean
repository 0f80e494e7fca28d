import Swat4Stats.Library.Transition
import Swat4Stats.Listing

/-!
# Streaks of failed refreshes

The counter of a server is to be the length of its current streak, so that a server is unlisted
when the streak is too long, and no sooner. Beside the store a state keeps what the refreshes of
each server have ended with since it was last listed.
-/

namespace Swat4Stats

set_option autoImplicit false

open Transition

namespace FailureStreaks

open ServerManager Refresh

structure State where
  store : Store
  /-- The latest refresh first. -/
  outcomes : ServerId → List Refreshed

inductive Event where
  | refreshListedServers (now : Time) (answers : ServerId → Probe)
  | unlistFailedServers
  | relistServers (serverIds : List ServerId)

def outcome? (answers : ServerId → Probe) (db : Database) (pk : ServerId) : Option Refreshed :=
  ((listed db).find? fun server => server.pk = pk).map fun server =>
    refreshed server (answers server.pk)

def system (outside : External) (toleratedFailures : ℕ) : System State Event where
  enabled _ _ := True
  next s
    | .refreshListedServers now answers =>
      ⟨(Tasks.refreshListedServers outside now answers s.store).2,
        fun pk => (outcome? answers s.store.db pk).toList ++ s.outcomes pk⟩
    | .unlistFailedServers =>
      { s with store := Tasks.unlistFailedServers toleratedFailures s.store }
    | .relistServers serverIds =>
      -- a server that is listed anew has not been refreshed yet
      ⟨{ s.store with db := ((relistServers serverIds).run s.store.db).2 }, fun pk =>
        if pk ∈ serverIds ∧ ∃ row ∈ s.store.db.servers.rows, row.pk = pk ∧ row.listed = false then
          []
        else s.outcomes pk⟩

/-- The refreshes since the latest one with a valid status for the join port of the server. -/
def unsuccessful (outcomes : List Refreshed) : ℕ :=
  (outcomes.takeWhile fun outcome => outcome.status?.isNone).length

/-- What the next unlisting is to do with a server. -/
structure UnlistedInTime (toleratedFailures : ℕ) (pk : ServerId) (s : State) : Prop where
  /-- It unlists a listed server when each of the last refreshes was unsuccessful. -/
  unlists : ∀ row ∈ s.store.db.servers.rows, row.pk = pk → row.listed = true →
    toleratedFailures ≤ (s.outcomes pk).length →
    (∀ outcome ∈ (s.outcomes pk).take toleratedFailures, outcome.status? = none) →
      { row with listed := false } ∈
          (Tasks.unlistFailedServers toleratedFailures s.store).db.servers.rows ∧
        OrderedDict.get? (Tasks.unlistFailedServers toleratedFailures s.store).redis
          row.address = none
  /-- It leaves a listed server as it is when fewer have failed in a row. -/
  keeps : ∀ row ∈ s.store.db.servers.rows, row.pk = pk → row.listed = true →
    unsuccessful (s.outcomes pk) < toleratedFailures →
      row ∈ (Tasks.unlistFailedServers toleratedFailures s.store).db.servers.rows

def Recorded (pk : ServerId) (s : State) : Prop :=
  ∀ row ∈ s.store.db.servers.rows, row.pk = pk → row.listed = true →
    row.failures = unsuccessful (s.outcomes pk)

/-- The refresh counts what the server answers: nothing stops it before the server is written, and
the server does not report the port of another one. -/
def Counts (outside : External) (pk : ServerId) (s : State) : Event → Prop
  | .refreshListedServers _ answers => ∀ server ∈ listed s.store.db, server.pk = pk →
      ¬ Stopped outside answers s.store server ∧
        refreshed server (answers server.pk) ≠ .otherPort
  | .unlistFailedServers | .relistServers _ => True

section Streaks

variable {outcomes : List Refreshed} {outcome : Refreshed} {n : ℕ}

theorem unsuccessful_cons : unsuccessful (outcome :: outcomes) =
    if outcome.status? = none then unsuccessful outcomes + 1 else 0 := by
  simp only [unsuccessful, List.takeWhile_cons, Option.isNone_iff_eq_none]
  split
  · rfl
  · rfl

theorem le_unsuccessful_iff : n ≤ unsuccessful outcomes ↔
    n ≤ outcomes.length ∧ ∀ outcome ∈ outcomes.take n, outcome.status? = none := by
  induction outcomes generalizing n with
  | nil => simp [unsuccessful]
  | cons outcome outcomes ih =>
    cases n with
    | zero => simp
    | succ n =>
      rw [unsuccessful_cons, List.take_succ_cons, List.forall_mem_cons, List.length_cons]
      split
      · rename_i hnone
        rw [Nat.add_le_add_iff_right, Nat.add_le_add_iff_right, ih, and_iff_right hnone]
      · rename_i hsome
        refine iff_of_false (by omega) fun h => hsome h.2.1

end Streaks

section Steps

variable {outside : External} {toleratedFailures : ℕ} {pk : ServerId} {s : State}

theorem outcome?_of_listed {answers : ServerId → Probe} {row : Server}
    (hrow : row ∈ listed s.store.db) :
    outcome? answers s.store.db row.pk = some (refreshed row (answers row.pk)) := by
  have hfind : (listed s.store.db).find? (fun server => server.pk = row.pk) = some row := by
    cases hfind : (listed s.store.db).find? fun server => server.pk = row.pk with
    | none => simpa using List.find?_eq_none.mp hfind row hrow
    | some server =>
      have hpk : server.pk = row.pk := by simpa using List.find?_some hfind
      rw [s.store.db.servers.eq_of_key_eq (mem_listed.mp (List.mem_of_find?_eq_some hfind)).1
        (mem_listed.mp hrow).1 hpk]
  rw [outcome?, hfind, Option.map_some]

theorem outcome?_of_not_listed {answers : ServerId → Probe}
    (h : ∀ row ∈ listed s.store.db, row.pk ≠ pk) : outcome? answers s.store.db pk = none := by
  rw [outcome?, List.find?_eq_none.mpr, Option.map_none]
  simpa using h

/-- A refresh that counts adds one to the counter or sets it to zero, as it does to the streak. -/
theorem recorded_refresh {now : Time} {answers : ServerId → Probe} (h : Recorded pk s)
    (hcounts : Counts outside pk s (.refreshListedServers now answers)) :
    Recorded pk ((system outside toleratedFailures).next s
      (.refreshListedServers now answers)) := by
  obtain ⟨after, hrows, hafter⟩ := rows_refreshListedServers outside now answers s.store
  intro row' hrow' hpk hlisted
  simp only [system] at hrow' ⊢
  rw [hrows] at hrow'
  obtain ⟨row, hrow, rfl⟩ := List.mem_map.mp hrow'
  obtain hin | hout := Classical.em (row.enabled = true ∧ row.listed = true)
  · have hmem : row ∈ listed s.store.db := mem_listed.mpr ⟨hrow, hin⟩
    obtain rfl : row.pk = pk := by
      obtain hstopped | hruns := Classical.em (Stopped outside answers s.store row)
      · rwa [(hafter row).1 hstopped] at hpk
      · rwa [(hafter row).2 hruns, refreshedRow_pk] at hpk
    obtain ⟨hruns, hport⟩ := hcounts row hmem rfl
    rw [(hafter row).2 hruns, refreshedRow, if_pos hin, answered, outcome?_of_listed hmem,
      Option.toList_some, List.singleton_append, unsuccessful_cons]
    cases hrefreshed : refreshed row (answers row.pk) with
    | withStatus status => rfl
    | withError =>
      rw [h row hrow rfl hin.2]
      rfl
    | otherPort => exact absurd hrefreshed hport
  · have hsame : after row = row := by
      obtain hstopped | hruns := Classical.em (Stopped outside answers s.store row)
      · exact (hafter row).1 hstopped
      · rw [(hafter row).2 hruns, refreshedRow, if_neg hout]
    rw [hsame] at hpk hlisted ⊢
    subst hpk
    rw [outcome?_of_not_listed fun other hother hpk => hout ?_]
    · exact h row hrow rfl hlisted
    · obtain ⟨hother, hin⟩ := mem_listed.mp hother
      rwa [s.store.db.servers.eq_of_key_eq hother hrow hpk] at hin

theorem recorded_unlist (h : Recorded pk s) :
    Recorded pk ((system outside toleratedFailures).next s .unlistFailedServers) := by
  intro row' hrow' hpk hlisted
  simp only [system] at hrow'
  rw [(Tasks.unlistFailedServers_eq toleratedFailures s.store).1] at hrow'
  obtain ⟨row, hrow, rfl⟩ := List.mem_map.mp hrow'
  rw [withUnlisting_failures]
  exact h row hrow (withUnlisting_pk.symm.trans hpk) (withUnlisting_listed.mp hlisted).1

theorem recorded_relist {serverIds : List ServerId} (h : Recorded pk s) :
    Recorded pk ((system outside toleratedFailures).next s (.relistServers serverIds)) := by
  obtain ⟨servers, hrun, hrows⟩ := run_relistServers serverIds s.store.db
  intro row' hrow' hpk hlisted
  simp only [system, hrun] at hrow' ⊢
  rw [hrows] at hrow'
  obtain ⟨row, hrow, rfl⟩ := List.mem_map.mp hrow'
  rw [withRelisting_pk] at hpk
  subst hpk
  obtain hin | hout := Classical.em (row.pk ∈ serverIds ∧ row.listed = false)
  · rw [if_pos ⟨hin.1, row, hrow, rfl, hin.2⟩, withRelisting, if_pos hin]
    rfl
  · rw [withRelisting, if_neg hout] at hlisted ⊢
    rw [if_neg, h row hrow rfl hlisted]
    rintro ⟨hmem, other, hother, hpk, hunlisted⟩
    rw [s.store.db.servers.eq_of_key_eq hother hrow hpk] at hunlisted
    exact hout ⟨hmem, hunlisted⟩

theorem recorded_step {e : Event} (h : Recorded pk s) (hcounts : Counts outside pk s e) :
    Recorded pk ((system outside toleratedFailures).next s e) := by
  cases e with
  | refreshListedServers now answers => exact recorded_refresh h hcounts
  | unlistFailedServers => exact recorded_unlist h
  | relistServers serverIds => exact recorded_relist h

theorem nodup_step {e : Event} (h : (OrderedDict.keys s.store.redis).Nodup) :
    (OrderedDict.keys ((system outside toleratedFailures).next s e).store.redis).Nodup := by
  cases e with
  | refreshListedServers now answers => exact OrderedDict.nodup_keys_update h
  | unlistFailedServers =>
    simp only [system]
    rw [(Tasks.unlistFailedServers_eq toleratedFailures s.store).2]
    exact nodup_deleteStatus h
  | relistServers serverIds => exact h

theorem Recorded.unlistedInTime (h : Recorded pk s)
    (hredis : (OrderedDict.keys s.store.redis).Nodup) :
    UnlistedInTime toleratedFailures pk s where
  unlists row hrow hpk hlisted hlength hfailed := by
    have hexceeded : row ∈
        getListedServersWithExceededFailures toleratedFailures s.store.db := by
      refine mem_getListedServersWithExceededFailures.mpr ⟨hrow, hlisted, ?_⟩
      rw [h row hrow hpk hlisted]
      exact le_unsuccessful_iff.mpr ⟨hlength, hfailed⟩
    obtain ⟨hrows, hstatuses⟩ := Tasks.unlistFailedServers_eq toleratedFailures s.store
    rw [hrows, hstatuses, get?_deleteStatus hredis, if_pos (List.mem_map_of_mem hexceeded)]
    refine ⟨List.mem_map.mpr ⟨row, hrow, ?_⟩, rfl⟩
    rw [withUnlisting, if_pos ⟨List.mem_map_of_mem hexceeded, hlisted⟩]
  keeps row hrow hpk hlisted hfew := by
    rw [(Tasks.unlistFailedServers_eq toleratedFailures s.store).1]
    refine List.mem_map.mpr ⟨row, hrow, if_neg fun hin => ?_⟩
    obtain ⟨other, hother, hsame⟩ := List.mem_map.mp hin.1
    obtain ⟨hmem, _, hexceeded⟩ := mem_getListedServersWithExceededFailures.mp hother
    rw [s.store.db.servers.eq_of_key_eq hmem hrow hsame, h row hrow hpk hlisted] at hexceeded
    omega

end Steps

/-- Where every refresh counts what the server answers, the server is unlisted in time in every
state of the run. -/
theorem unlistedInTime_of_run {outside : External} {toleratedFailures : ℕ} {pk : ServerId}
    {s t : State} {events : List Event} (hrecorded : Recorded pk s)
    (hredis : (OrderedDict.keys s.store.redis).Nodup)
    (h : Run ((system outside toleratedFailures).restrict (Counts outside pk)) s events t) :
    UnlistedInTime toleratedFailures pk t := by
  let Inv := fun s : State => Recorded pk s ∧ (OrderedDict.keys s.store.redis).Nodup
  have hinv : Inv t := by
    refine h.invariant_restrict ?_ (show Inv s from ⟨hrecorded, hredis⟩)
    exact fun s e hs _ hcounts => ⟨recorded_step hs.1 hcounts, nodup_step hs.2⟩
  exact hinv.1.unlistedInTime hinv.2

section Example

open ServerSearch (answer)

instance : ∀ r : Refreshed, Decidable (r = .otherPort)
  | .otherPort => .isTrue rfl
  | .withStatus _ => .isFalse nofun
  | .withError => .isFalse nofun

instance (outside : External) (answers : ServerId → Probe) (s : Store) (server : Server) :
    Decidable (Stopped outside answers s server) :=
  inferInstanceAs (Decidable (∃ x ∈ listed s.db,
    Stops outside x (answers x.pk) server (answers server.pk)))

instance (outside : External) (pk : ServerId) (s : State) : ∀ e, Decidable (Counts outside pk s e)
  | .refreshListedServers _ answers => inferInstanceAs (Decidable
      (∀ server ∈ listed s.store.db, server.pk = pk → ¬ Stopped outside answers s.store server ∧
        refreshed server (answers server.pk) ≠ .otherPort))
  | .unlistFailedServers | .relistServers _ => inferInstanceAs (Decidable True)

instance (outside : External) (n : ℕ) (s : State) (e : Event) :
    Decidable ((system outside n).enabled s e) :=
  inferInstanceAs (Decidable True)

/-- `TRACKER_STATUS_TOLERATED_FAILURES`. -/
def toleratedFailures : ℕ := 12

def listedAt (port failures : ℕ) (outcomes : List Refreshed) : State where
  store.db := { Database.empty with
    servers := ⟨[{ pk := 1, ip := 7, port := 10480, listed := true },
      { pk := 2, ip := 8, port, listed := true, failures }],
      show ([1, 2] : List ℕ).Nodup by decide⟩ }
  store.redis := []
  outcomes _ := outcomes

def refresh (first : PyValue) (second : Probe) : Event :=
  .refreshListedServers 5 fun
    | 1 => some first
    | _ => second

/-- An answer with a hostname that does not fit its column. -/
def longAnswer : PyValue :=
  match answer "" with
  | .dict items =>
    .dict (OrderedDict.set items "hostname".toList (.str (List.replicate 257 'a')))
  | value => value

def downAndBack : List Event :=
  List.replicate toleratedFailures (refresh (answer "Myt Team") none) ++
    [.unlistFailedServers, .relistServers [2], refresh (answer "Myt Team") none,
      refresh (answer "Myt Team") (some (answer "Sog Team"))]

theorem unlistedInTime_downAndBack : ∃ t,
    Run (system plainOutside toleratedFailures) (listedAt 10480 0 []) downAndBack t ∧
      UnlistedInTime toleratedFailures 2 t := by
  have hrun : Run ((system plainOutside toleratedFailures).restrict (Counts plainOutside 2))
      (listedAt 10480 0 []) downAndBack _ := .of_admits (by decide +kernel)
  exact ⟨_, hrun.of_restrict, unlistedInTime_of_run (by unfold Recorded; decide +kernel)
    (by exact List.nodup_nil) hrun⟩

/-- A server that answers for another port is never unlisted, and one whose answer comes beside a
hostname that is too long is unlisted just after it. -/
theorem otherPort_stays_listed :
    (∃ t, Run (system plainOutside toleratedFailures) (listedAt 10580 0 [])
        (List.replicate toleratedFailures
          (refresh (answer "Myt Team") (some (answer "Sog Team")))) t ∧
      Recorded 2 (listedAt 10580 0 []) ∧ ¬ UnlistedInTime toleratedFailures 2 t) ∧
    ∃ t, Run (system plainOutside toleratedFailures)
        (listedAt 10480 toleratedFailures (List.replicate toleratedFailures .withError))
        [refresh longAnswer (some (answer "Sog Team"))] t ∧
      Recorded 2
        (listedAt 10480 toleratedFailures (List.replicate toleratedFailures .withError)) ∧
      ¬ UnlistedInTime toleratedFailures 2 t := by
  refine ⟨⟨_, .of_admits (by decide +kernel), by unfold Recorded; decide +kernel, fun h => ?_⟩,
    _, .of_admits (by decide +kernel), by unfold Recorded; decide +kernel, fun h => ?_⟩
  · have hrow := (h.unlists { pk := 2, ip := 8, port := 10580, listed := true }
      (by decide +kernel) rfl rfl (by decide +kernel) (by decide +kernel)).1
    revert hrow
    decide +kernel
  · have hrow := h.keeps
      { pk := 2, ip := 8, port := 10480, listed := true, failures := toleratedFailures }
      (by decide +kernel) rfl rfl (by decide +kernel)
    revert hrow
    decide +kernel

end Example

end FailureStreaks

end Swat4Stats
