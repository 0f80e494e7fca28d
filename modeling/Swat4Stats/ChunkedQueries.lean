import Swat4Stats.Library.Keyset
import Swat4Stats.ProfileNames
import Swat4Stats.Servers

/-!
# Queries read in chunks

`iterate_queryset` is a generator: between two chunks its consumer does what it likes, here with
the state that the next query is evaluated in. The two tasks that use it write the rows of the
chunk that they were just given.
-/

namespace Swat4Stats

set_option autoImplicit false

universe u v w

/-- A filtered queryset and what `values(*fields)` makes of a row, with the primary key among the
fields. -/
structure Queryset {α : Type u} (key : α → ℕ) (β : Type v) where
  isMatch : α → Bool
  values : α → β
  pk : β → ℕ
  pk_values : ∀ x, pk (values x) = key x

inductive IterationError where
  /-- `chunk[-1]` of an empty chunk. -/
  | indexError
  | outOfFuel
  deriving DecidableEq, Repr

section IterateQueryset

variable {σ : Type w} {α : Type u} {key : α → ℕ} {β : Type v}

/-- The loop, with the chunks yielded so far; the consumer is given these, the latest one last. -/
def iterateQuerysetFrom (q : Queryset key β) (rows : σ → Table α key)
    (consume : List (List β) → σ → σ) (chunkSize : ℕ) :
    ℕ → ℕ → List (List β) → σ → Except IterationError (List (List β) × σ)
  | 0, _, _, _ => .error .outOfFuel
  | fuel + 1, lastPk, yielded, s =>
    let chunk := (((rows s).after q.isMatch lastPk).take chunkSize).map q.values
    let s' := consume (yielded ++ [chunk]) s
    if chunk.length < chunkSize then
      .ok (yielded ++ [chunk], s')
    else
      match chunk.getLast? with
      | none => .error .indexError
      | some row =>
        iterateQuerysetFrom q rows consume chunkSize fuel (q.pk row) (yielded ++ [chunk]) s'

def iterateQueryset (q : Queryset key β) (rows : σ → Table α key)
    (consume : List (List β) → σ → σ) (chunkSize fuel : ℕ) (s : σ) :
    Except IterationError (List (List β) × σ) :=
  iterateQuerysetFrom q rows consume chunkSize fuel 0 [] s

/-- The consumer changes no row but those that it has been given. -/
def OnlyYielded (q : Queryset key β) (rows : σ → Table α key)
    (consume : List (List β) → σ → σ) : Prop :=
  ∀ yielded s k, k ∉ yielded.flatten.map q.pk →
    (rows (consume yielded s)).find? k = (rows s).find? k

variable {q : Queryset key β} {rows : σ → Table α key} {consume : List (List β) → σ → σ}
  {chunkSize lastPk : ℕ} {s : σ}

/-- What the consumer is given never lies behind the last key, so that it leaves what comes after
it alone. -/
theorem OnlyYielded.find? (h : OnlyYielded q rows consume) {yielded : List (List β)}
    (hle : ∀ k ∈ yielded.flatten.map q.pk, k ≤ lastPk) {k : ℕ} (hk : lastPk < k) :
    (rows (consume yielded s)).find? k = (rows s).find? k :=
  h yielded s k fun hmem => (hle k hmem).not_gt hk

/-- The induction is on a bound of the fuel: the rows after the last key become fewer with each
full chunk. -/
theorem iterateQuerysetFrom_eq (hsize : 1 ≤ chunkSize) (honly : OnlyYielded q rows consume)
    {I : List (List β) → σ → Prop}
    (hI : ∀ yielded chunk s, I yielded s → I (yielded ++ [chunk])
      (consume (yielded ++ [chunk]) s))
    (enough lastPk : ℕ) (yielded : List (List β)) (s : σ)
    (henough : ((rows s).after q.isMatch lastPk).length < enough)
    (hyielded : ∀ k ∈ yielded.flatten.map q.pk, k ≤ lastPk) (hs : I yielded s) :
    ∃ chunks s', Pages chunkSize ((rows s).after q.isMatch lastPk) chunks ∧
      (∀ fuel ≥ enough, iterateQuerysetFrom q rows consume chunkSize fuel lastPk yielded s =
        .ok (yielded ++ chunks.map (List.map q.values), s')) ∧
      I (yielded ++ chunks.map (List.map q.values)) s' := by
  induction enough generalizing lastPk yielded s with
  | zero => omega
  | succ enough ih =>
    obtain hlt | hle := lt_or_ge ((rows s).after q.isMatch lastPk).length chunkSize
    · -- the last chunk
      refine ⟨[(rows s).after q.isMatch lastPk], _, .last hlt, fun fuel hfuel => ?_, hI _ _ _ hs⟩
      obtain ⟨fuel, rfl⟩ : ∃ n, fuel = n + 1 := ⟨fuel - 1, by omega⟩
      simp only [iterateQuerysetFrom, List.length_map, List.length_take]
      rw [if_pos (by omega), List.take_of_length_le hlt.le, List.map_singleton]
    · have hlength : (((rows s).after q.isMatch lastPk).take chunkSize).length = chunkSize := by
        rw [List.length_take, min_eq_left hle]
      obtain ⟨x, hlast⟩ : ∃ x,
          (((rows s).after q.isMatch lastPk).take chunkSize).getLast? = some x := by
        cases hlast : (((rows s).after q.isMatch lastPk).take chunkSize).getLast? with
        | none =>
          rw [List.getLast?_eq_none_iff.mp hlast] at hlength
          simp only [List.length_nil] at hlength
          omega
        | some x => exact ⟨x, rfl⟩
      have hsorted : (((rows s).after q.isMatch lastPk).take chunkSize).Pairwise
          fun x y => key x < key y :=
        Table.pairwise_after.sublist (List.take_sublist _ _)
      have hstep : ∀ chunk, (((rows s).after q.isMatch lastPk).take chunkSize).map q.values =
          chunk → ∀ fuel, iterateQuerysetFrom q rows consume chunkSize (fuel + 1) lastPk yielded s =
            iterateQuerysetFrom q rows consume chunkSize fuel (key x) (yielded ++ [chunk])
              (consume (yielded ++ [chunk]) s) := by
        rintro chunk rfl fuel
        simp only [iterateQuerysetFrom, List.length_map, hlength, lt_irrefl, if_false,
          List.getLast?_map, hlast, Option.map_some, q.pk_values]
      generalize hchunk : (((rows s).after q.isMatch lastPk).take chunkSize).map q.values =
        chunk at hstep
      have hbound : ∀ k ∈ (yielded ++ [chunk]).flatten.map q.pk, k ≤ key x := by
        intro k hk
        rw [List.flatten_append, List.flatten_singleton, List.map_append, List.mem_append] at hk
        obtain hk | hk := hk
        · have hx := Table.mem_after.mp (List.mem_of_mem_take (List.mem_of_getLast? hlast))
          exact (hyielded k hk).trans hx.2.2.le
        · rw [← hchunk, List.map_map] at hk
          obtain ⟨y, hy, rfl⟩ := List.mem_map.mp hk
          rw [Function.comp_apply, q.pk_values]
          exact Table.key_le_getLast hsorted hlast hy
      have hrest : (rows (consume (yielded ++ [chunk]) s)).after q.isMatch (key x) =
          ((rows s).after q.isMatch lastPk).drop chunkSize := by
        rw [← Table.after_getLast hlast]
        exact Table.after_congr fun k hk => honly.find? hbound hk
      have hfewer : ((rows (consume (yielded ++ [chunk]) s)).after q.isMatch (key x)).length <
          enough := by
        rw [hrest, List.length_drop]
        omega
      obtain ⟨chunks, s', hpages, hrun, hs'⟩ := ih (key x) (yielded ++ [chunk])
        (consume (yielded ++ [chunk]) s) hfewer hbound (hI _ _ _ hs)
      have happend : yielded ++ [chunk] ++ chunks.map (List.map q.values) = yielded ++
          (((rows s).after q.isMatch lastPk).take chunkSize :: chunks).map
            (List.map q.values) := by
        rw [List.map_cons, hchunk, List.append_assoc, List.singleton_append]
      rw [hrest] at hpages
      rw [happend] at hrun hs'
      refine ⟨_, s', .full hle hpages, fun fuel hfuel => ?_, hs'⟩
      obtain ⟨fuel, rfl⟩ : ∃ n, fuel = n + 1 := ⟨fuel - 1, by omega⟩
      rw [hstep chunk rfl]
      exact hrun fuel (by omega)

theorem iterateQueryset_eq (hsize : 1 ≤ chunkSize) (honly : OnlyYielded q rows consume)
    {I : List (List β) → σ → Prop}
    (hI : ∀ yielded chunk s, I yielded s → I (yielded ++ [chunk])
      (consume (yielded ++ [chunk]) s))
    (hpos : ∀ x ∈ (rows s).rows, 0 < key x) (hs : I [] s) :
    ∃ chunks s', Pages chunkSize ((rows s).ordered q.isMatch) chunks ∧
      (∀ fuel > ((rows s).ordered q.isMatch).length,
        iterateQueryset q rows consume chunkSize fuel s =
          .ok (chunks.map (List.map q.values), s')) ∧
      I (chunks.map (List.map q.values)) s' := by
  rw [← Table.after_of_lt hpos]
  exact iterateQuerysetFrom_eq hsize honly hI _ 0 [] s (Nat.lt_succ_self _) (by simp) hs

end IterateQueryset

/-- What `values("pk")` makes of a row. -/
structure PkRow where
  pk : ℕ
  deriving DecidableEq, Repr

def Queryset.onlyPk {α : Type u} (key : α → ℕ) (isMatch : α → Bool) : Queryset key PkRow where
  isMatch := isMatch
  values x := ⟨key x⟩
  pk := PkRow.pk
  pk_values _ := rfl

/-- A body of the loop that writes each row of a chunk, by what it finds in the state. -/
structure ChunkWriter {σ : Type w} {α : Type u} {key : α → ℕ} (rows : σ → Table α key) where
  run : Time → List ℕ → σ → σ
  write : Time → σ → α → α
  key_write : ∀ now s x, key (write now s x) = key x
  rows_run : ∀ now ids s, (rows (run now ids s)).rows =
    (rows s).rows.map fun x => if key x ∈ ids then write now s x else x
  /-- Nothing that is written decides what is written next. -/
  write_run : ∀ now at' ids s x, write now (run at' ids s) x = write now s x
  write_write : ∀ now at' s x, write now s (write at' s x) = write now s x

namespace ChunkWriter

variable {σ : Type w} {α : Type u} {key : α → ℕ} {rows : σ → Table α key}

/-- The body as a consumer: each chunk is written at its own time. -/
def consume (w : ChunkWriter rows) (clock : ℕ → Time) (yielded : List (List PkRow)) (s : σ) : σ :=
  w.run (clock yielded.length) ((yielded.getLast?.getD []).map PkRow.pk) s

variable (w : ChunkWriter rows) (clock : ℕ → Time) {s : σ}

theorem onlyYielded (isMatch : α → Bool) :
    OnlyYielded (Queryset.onlyPk key isMatch) rows (w.consume clock) := by
  intro yielded s k hk
  have hids : k ∉ (yielded.getLast?.getD []).map PkRow.pk := by
    intro hmem
    cases hlast : yielded.getLast? with
    | none => simp [hlast] at hmem
    | some chunk =>
      rw [hlast, Option.getD_some] at hmem
      obtain ⟨row, hrow, rfl⟩ := List.mem_map.mp hmem
      exact hk (List.mem_map_of_mem
        (List.mem_flatten.mpr ⟨chunk, List.mem_of_getLast? hlast, hrow⟩))
  rw [consume, Table.find?_of_rows_eq_map (w.rows_run _ _ _)]
  · cases hfind : (rows s).find? k with
    | none => rfl
    | some x =>
      obtain ⟨_, rfl⟩ := Table.find?_eq_some_iff.mp hfind
      rw [Option.map_some, if_neg hids]
  · intro x
    split
    · exact w.key_write _ _ x
    · rfl

def Written (s : σ) (yielded : List (List PkRow)) (s' : σ) : Prop :=
  (∀ now x, w.write now s' x = w.write now s x) ∧
    ∃ writtenAt : ℕ → Time, (rows s').rows = (rows s).rows.map fun x =>
      if key x ∈ yielded.flatten.map PkRow.pk then w.write (writtenAt (key x)) s x else x

theorem written_consume {yielded : List (List PkRow)} (chunk : List PkRow) {s' : σ}
    (h : w.Written s yielded s') :
    w.Written s (yielded ++ [chunk]) (w.consume clock (yielded ++ [chunk]) s') := by
  obtain ⟨hwrite, writtenAt, hrows⟩ := h
  simp only [consume, List.getLast?_append, List.getLast?_singleton, Option.some_or,
    Option.getD_some]
  generalize hnow : clock (yielded ++ [chunk]).length = now
  refine ⟨fun now' x => (w.write_run _ _ _ _ _).trans (hwrite now' x),
    fun k => if k ∈ chunk.map PkRow.pk then now else writtenAt k, ?_⟩
  rw [w.rows_run, hrows, List.map_map]
  refine List.map_congr_left fun x _ => ?_
  have hkey : key (if key x ∈ yielded.flatten.map PkRow.pk then w.write (writtenAt (key x)) s x
      else x) = key x := by
    split
    · exact w.key_write _ _ _
    · rfl
  rw [Function.comp_apply, hkey, List.flatten_append, List.flatten_singleton, List.map_append,
    hwrite]
  simp only [List.mem_append]
  obtain hchunk | hchunk := Classical.em (key x ∈ chunk.map PkRow.pk)
  · rw [if_pos hchunk, if_pos (Or.inr hchunk), if_pos hchunk]
    split
    · exact w.write_write _ _ _ _
    · rfl
  · rw [if_neg hchunk]
    simp only [hchunk, or_false, if_false]

theorem iterateQueryset_written (isMatch : α → Bool) {chunkSize : ℕ} (hsize : 1 ≤ chunkSize)
    (s : σ) (hpos : ∀ x ∈ (rows s).rows, 0 < key x) :
    ∃ enough chunks s',
      (∀ fuel ≥ enough, iterateQueryset (Queryset.onlyPk key isMatch) rows (w.consume clock)
        chunkSize fuel s = .ok (chunks, s')) ∧
      ∃ writtenAt : ℕ → Time, (rows s').rows = (rows s).rows.map fun x =>
        if isMatch x then w.write (writtenAt (key x)) s x else x := by
  have hstart : w.Written s [] s := ⟨fun _ _ => rfl, fun _ => 0, by simp⟩
  obtain ⟨chunks, s', hpages, hrun, _, writtenAt, hrows⟩ :=
    iterateQueryset_eq hsize (w.onlyYielded clock isMatch)
      (fun _ chunk _ => w.written_consume clock chunk) hpos hstart
  refine ⟨_, _, s', hrun, writtenAt, hrows.trans (List.map_congr_left fun x hx => ?_)⟩
  have hmem : key x ∈ (chunks.map (List.map (Queryset.onlyPk key isMatch).values)).flatten.map
      PkRow.pk ↔ isMatch x = true := by
    rw [← List.map_flatten, hpages.flatten_eq, List.map_map]
    constructor
    · intro h
      obtain ⟨y, hy, hkey⟩ := List.mem_map.mp h
      obtain ⟨hy, hmatch⟩ := Table.mem_ordered.mp hy
      rw [← (rows s).eq_of_key_eq hy hx hkey]
      exact hmatch
    · exact fun h => List.mem_map.mpr ⟨x, Table.mem_ordered.mpr ⟨hx, h⟩, rfl⟩
  simp only [hmem]

end ChunkWriter

section Tasks

def denormAliasNames : ChunkWriter Database.profiles where
  run now profileIds db := ((ProfileManager.denormAliasNames now profileIds).run db).2
  write now db p := { p with
    names := some (ProfileManager.otherNames p (ProfileManager.uniqueAliasNames p.pk db))
    namesUpdatedAt := some now }
  key_write _ _ _ := rfl
  rows_run now profileIds db := by
    obtain ⟨profiles, hrun, hrows⟩ := ProfileManager.run_denormAliasNames now profileIds db
    rw [hrun]
    exact hrows
  write_run now at' profileIds db p := by
    obtain ⟨profiles, hrun, _⟩ := ProfileManager.run_denormAliasNames at' profileIds db
    rw [hrun]
    rfl
  write_write _ _ _ _ := rfl

def updateProfileSearchVector : ChunkWriter Database.profiles where
  run now profileIds db := ((ProfileManager.updateSearchVector now profileIds).run db).2
  write now _ p := { p with
    search := some (profileSearchVector p.name p.names)
    searchUpdatedAt := some now }
  key_write _ _ _ := rfl
  rows_run now profileIds db := by
    obtain ⟨profiles, hrun, hrows⟩ := ProfileManager.run_updateSearchVector now profileIds db
    rw [hrun]
    exact hrows
  write_run _ _ _ _ _ := rfl
  write_write _ _ _ _ := rfl

def updateServerSearchVector : ChunkWriter Database.servers where
  run now serverIds db := ((ServerManager.updateSearchVector now serverIds).run db).2
  write now _ s := { s with
    search := some (serverSearchVector s.hostnameClean)
    searchUpdatedAt := some now }
  key_write _ _ _ := rfl
  rows_run now serverIds db := by
    obtain ⟨servers, hrun, hrows⟩ := ServerManager.run_updateSearchVector now serverIds db
    rw [hrun]
    exact hrows
  write_run _ _ _ _ _ := rfl
  write_write _ _ _ _ := rfl

/-- The task `denorm_profile_names`; `clock` is the time of each chunk. -/
def denormProfileNames (clock : ℕ → Time) (chunkSize fuel : ℕ) (db : Database) :
    Except IterationError (List (List PkRow) × Database) :=
  iterateQueryset (Queryset.onlyPk Profile.pk ProfileManager.requireDenormNames)
    Database.profiles (denormAliasNames.consume clock) chunkSize fuel db

/-- The task `update_search_vector_for_model` for profiles. -/
def updateSearchVectorForProfiles (clock : ℕ → Time) (chunkSize fuel : ℕ) (db : Database) :
    Except IterationError (List (List PkRow) × Database) :=
  iterateQueryset (Queryset.onlyPk Profile.pk ProfileManager.requireSearchUpdate)
    Database.profiles (updateProfileSearchVector.consume clock) chunkSize fuel db

/-- The task `update_search_vector_for_model` for servers. -/
def updateSearchVectorForServers (clock : ℕ → Time) (chunkSize fuel : ℕ) (db : Database) :
    Except IterationError (List (List PkRow) × Database) :=
  iterateQueryset (Queryset.onlyPk Server.pk ServerManager.requireSearchUpdate)
    Database.servers (updateServerSearchVector.consume clock) chunkSize fuel db

variable {clock : ℕ → Time} {chunkSize : ℕ} {db : Database}

/-- Each profile that is behind gets its names once, whatever the size of the chunks. -/
theorem run_denormProfileNames (hsize : 1 ≤ chunkSize)
    (hpos : ∀ p ∈ db.profiles.rows, 0 < p.pk) :
    ∃ enough chunks db',
      (∀ fuel ≥ enough, denormProfileNames clock chunkSize fuel db = .ok (chunks, db')) ∧
      ∃ writtenAt : ProfileId → Time, db'.profiles.rows = db.profiles.rows.map fun p =>
        if ProfileManager.requireDenormNames p then
          { p with
            names := some (ProfileManager.otherNames p
              (ProfileManager.uniqueAliasNames p.pk db))
            namesUpdatedAt := some (writtenAt p.pk) }
        else p :=
  denormAliasNames.iterateQueryset_written clock _ hsize db hpos

theorem run_updateSearchVectorForProfiles (hsize : 1 ≤ chunkSize)
    (hpos : ∀ p ∈ db.profiles.rows, 0 < p.pk) :
    ∃ enough chunks db',
      (∀ fuel ≥ enough,
        updateSearchVectorForProfiles clock chunkSize fuel db = .ok (chunks, db')) ∧
      ∃ writtenAt : ProfileId → Time, db'.profiles.rows = db.profiles.rows.map fun p =>
        if ProfileManager.requireSearchUpdate p then
          { p with
            search := some (profileSearchVector p.name p.names)
            searchUpdatedAt := some (writtenAt p.pk) }
        else p :=
  updateProfileSearchVector.iterateQueryset_written clock _ hsize db hpos

theorem run_updateSearchVectorForServers (hsize : 1 ≤ chunkSize)
    (hpos : ∀ s ∈ db.servers.rows, 0 < s.pk) :
    ∃ enough chunks db',
      (∀ fuel ≥ enough,
        updateSearchVectorForServers clock chunkSize fuel db = .ok (chunks, db')) ∧
      ∃ writtenAt : ServerId → Time, db'.servers.rows = db.servers.rows.map fun s =>
        if ServerManager.requireSearchUpdate s then
          { s with
            search := some (serverSearchVector s.hostnameClean)
            searchUpdatedAt := some (writtenAt s.pk) }
        else s :=
  updateServerSearchVector.iterateQueryset_written clock _ hsize db hpos

end Tasks

/-- However the consumer changes the rows that it was given, the chunks together are the rows that
match at the start, in the order of their keys. -/
theorem iterateQueryset_spec {σ : Type w} {α : Type u} {key : α → ℕ} {β : Type v}
    (q : Queryset key β) (rows : σ → Table α key) (consume : List (List β) → σ → σ)
    (honly : OnlyYielded q rows consume) (chunkSize : ℕ) (hsize : 1 ≤ chunkSize) (s : σ)
    (hpos : ∀ x ∈ (rows s).rows, 0 < key x) :
    ∃ enough chunks s',
      (∀ fuel ≥ enough, iterateQueryset q rows consume chunkSize fuel s = .ok (chunks, s')) ∧
      (∃ inOrder : List α, chunks.flatten = inOrder.map q.values ∧
        inOrder.Pairwise (fun x y => key x < key y) ∧
        ∀ x, x ∈ inOrder ↔ x ∈ (rows s).rows ∧ q.isMatch x = true) ∧
      (∀ chunk ∈ chunks.dropLast, chunk.length = chunkSize) ∧
      ∃ last, chunks.getLast? = some last ∧ last.length < chunkSize := by
  obtain ⟨chunks, s', hpages, hrun, _⟩ :=
    iterateQueryset_eq (I := fun _ _ => True) hsize honly (fun _ _ _ => id) hpos trivial
  refine ⟨_, _, s', hrun, ⟨(rows s).ordered q.isMatch, ?_, Table.pairwise_ordered,
    fun x => Table.mem_ordered⟩, ?_, ?_⟩
  · rw [← List.map_flatten, hpages.flatten_eq]
  · intro chunk hchunk
    rw [← List.map_dropLast] at hchunk
    obtain ⟨page, hpage, rfl⟩ := List.mem_map.mp hchunk
    rw [List.length_map, hpages.length_of_mem_dropLast page hpage]
  · obtain ⟨page, hpage, hlt⟩ := hpages.exists_getLast
    refine ⟨page.map q.values, ?_, by rwa [List.length_map]⟩
    rw [List.getLast?_map, hpage, Option.map_some]

def profileBehind (pk : ProfileId) : Profile := { pk, name := none, aliasUpdatedAt := some 8 }

def profilesBehind : Database :=
  { Database.empty with profiles := ⟨[3, 1, 2, 4].map profileBehind, by decide⟩ }

theorem iterateQueryset_spec_denormProfileNames :
    ∃ enough chunks db',
      (∀ fuel ≥ enough, denormProfileNames id 2 fuel profilesBehind = .ok (chunks, db')) ∧
      (∃ inOrder : List Profile, chunks.flatten = inOrder.map (fun p => ⟨p.pk⟩) ∧
        inOrder.Pairwise (fun x y => x.pk < y.pk) ∧
        ∀ x, x ∈ inOrder ↔ x ∈ profilesBehind.profiles.rows ∧
          ProfileManager.requireDenormNames x = true) ∧
      (∀ chunk ∈ chunks.dropLast, chunk.length = 2) ∧
      ∃ last, chunks.getLast? = some last ∧ last.length < 2 :=
  iterateQueryset_spec (Queryset.onlyPk Profile.pk ProfileManager.requireDenormNames)
    Database.profiles (denormAliasNames.consume id) (denormAliasNames.onlyYielded id _) 2
    (by decide) profilesBehind (by decide)

end Swat4Stats
