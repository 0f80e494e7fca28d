import Swat4Stats.Library.Redirection
import Swat4Stats.MergeGraph
import Mathlib.Data.List.Dedup
import Mathlib.Data.List.Sort

/-!
# Merging servers in the admin

The page of `merge_servers_form` reads the servers it offers, then `ServerMergeForm.clean` reads the
main server and the servers to be merged into it, and the merge itself is a task that runs later.
Between any two of these, other pages may be posted and other tasks may run, and a task may be
delivered more than once.
-/

namespace Swat4Stats

set_option autoImplicit false

open Tx Transition

/-- What is posted: the chosen values, and whether the box is ticked. -/
structure MergePost where
  mainServer : Text
  mergedServers : List Text
  confirm : Bool

/-- A form between two queries of `clean`, with `merged_server_ids_uniq`. -/
structure ServerMergeForm where
  mainServer : Text
  mergedUniq : List Text
  deriving DecidableEq

abbrev MergeTask := Redirection ServerId

namespace ServerMergeForm

/-- The value of a choice, `str(pk)`. -/
def choice (id : ServerId) : Text := Nat.toDigits 10 id

/-- The choices of both fields, or nothing where the page redirects to the list. -/
def choices (ids : Text) (db : Database) : Option (List ServerId) := do
  if ids = [] then
    none
  else
    let serverIds ← (Text.split [','] ids).mapM Text.parseInt
    let queryset := db.servers.rows.filter fun s => (s.pk : ℤ) ∈ serverIds ∧ s.mergedInto = none
    some ((queryset.map Server.pk).insertionSort fun a b => b ≤ a)

/-- The fields are checked against the choices, then `clean` takes the main server out of the
selection. -/
def cleanFields (choices : List ServerId) (post : MergePost) : Option ServerMergeForm :=
  let isChoice := fun (value : Text) => ∃ id ∈ choices, value = choice id
  let mergedUniq := (post.mergedServers.filter fun value => value ≠ post.mainServer).dedup
  if isChoice post.mainServer ∧ (∀ value ∈ post.mergedServers, isChoice value) ∧ post.confirm ∧
      mergedUniq ≠ [] then
    some ⟨post.mainServer, mergedUniq⟩
  else
    none

/-- The first query of `clean`: the main server, unless it is merged itself. -/
def cleanMain (form : ServerMergeForm) (db : Database) : Option ServerId := do
  let id ← Text.parseInt form.mainServer
  let main ← db.servers.rows.find? fun s => (s.pk : ℤ) = id
  if main.mergedInto = none then some main.pk else none

/-- The second query of `clean`. -/
def mergedServers (form : ServerMergeForm) (db : Database) : List ServerId :=
  let queryset := db.servers.rows.filter fun s =>
    s.mergedInto = none ∧ ∃ value ∈ form.mergedUniq, Text.parseInt value = some (s.pk : ℤ)
  (queryset.map Server.pk).insertionSort (· ≤ ·)

def cleanMerged (form : ServerMergeForm) (mainId : ServerId) (db : Database) : Option MergeTask :=
  let merged := form.mergedServers db
  if merged.length = form.mergedUniq.length then some ⟨mainId, merged⟩ else none

end ServerMergeForm

namespace AdminMerges

open ServerMergeForm Redirection

/-- The store, the forms being cleaned, the tasks sent so far, and what their executions came to.
`home` is the server that a game was saved for, and the number of executions before that. -/
structure State where
  db : Database
  opened : List ServerMergeForm
  checked : List (ServerId × ServerMergeForm)
  tasks : List MergeTask
  done : List (MergeTask × Bool)
  home : GameId → ServerId × ℕ

inductive Event where
  | createServer (ip : IPv4) (port : ℕ) (enabled : Bool)
  | saveGame (game : Game)
  | post (ids : Text) (post : MergePost)
  | cleanMain (form : ServerMergeForm)
  | cleanMerged (mainId : ServerId) (form : ServerMergeForm)
  | execute (now : Time) (task : MergeTask)

def State.initial (db : Database) : State where
  db := db
  opened := []
  checked := []
  tasks := []
  done := []
  home pk := ((db.games.find? pk).elim 0 Game.server, 0)

def State.execute (now : Time) (task : MergeTask) (s : State) : State :=
  let (result, db) := (Tasks.mergeServers now task.main task.merged).run s.db
  { s with
    db := db
    done := s.done ++ [(task, result.isOk)] }

def system : System State Event where
  enabled s
    -- also for a server that was merged after the game was received
    | .saveGame game => ∃ server ∈ s.db.servers.rows, server.pk = game.server
    | .cleanMain form => form ∈ s.opened
    | .cleanMerged mainId form => (mainId, form) ∈ s.checked
    | .execute _ task => task ∈ s.tasks
    | _ => True
  next s
    | .createServer ip port enabled =>
      { s with db := MergeGraph.system.next s.db (.createServer ip port enabled) }
    | .saveGame game =>
      { s with
        db := MergeGraph.saveGame game s.db
        home := fun pk =>
          if pk = s.db.games.nextPk then (game.server, s.done.length) else s.home pk }
    | .post ids post =>
      let form := (choices ids s.db).bind fun choices => cleanFields choices post
      { s with opened := s.opened ++ form.toList }
    | .cleanMain form =>
      let mainId := form.cleanMain s.db
      { s with
        opened := s.opened.erase form
        checked := s.checked ++ mainId.toList.map fun mainId => (mainId, form) }
    | .cleanMerged mainId form =>
      { s with
        checked := s.checked.erase (mainId, form)
        tasks := s.tasks ++ (form.cleanMerged mainId s.db).toList }
    | .execute now task => s.execute now task

/-- The merges that were done. -/
def merges (done : List (MergeTask × Bool)) : List MergeTask :=
  (done.filter Prod.snd).map Prod.fst

/-- Where the merges done since a game was saved take its server. -/
def State.whereabouts (s : State) (pk : GameId) : ServerId :=
  resolve (merges (s.done.drop (s.home pk).2)) (s.home pk).1

/-- The rows are never deleted, so their primary keys are only added to. -/
def pks (db : Database) : List ServerId := db.servers.rows.map Server.pk

/-- The values of a form are choices, the main server is not among those to be merged. -/
structure Offered (db : Database) (form : ServerMergeForm) : Prop where
  choices : ∀ value ∈ form.mainServer :: form.mergedUniq, ∃ id ∈ pks db, value = choice id
  nodup : form.mergedUniq.Nodup
  ne_nil : form.mergedUniq ≠ []
  main : form.mainServer ∉ form.mergedUniq

structure Mergeable (db : Database) (task : MergeTask) : Prop where
  rows : ∀ id ∈ task.main :: task.merged, id ∈ pks db
  nodup : task.merged.Nodup
  ne_nil : task.merged ≠ []
  main : task.main ∉ task.merged

@[simp] theorem parseInt_choice (id : ServerId) : Text.parseInt (choice id) = some (id : ℤ) :=
  Text.parseInt_toDigits id

section Forms

variable {db db' : Database} {form : ServerMergeForm} {task : MergeTask} {mainId : ServerId}

theorem mem_pks_of_mem_choices {ids : Text} {offered : List ServerId}
    (h : choices ids db = some offered) {id : ServerId} (hid : id ∈ offered) : id ∈ pks db := by
  unfold choices at h
  split at h
  · cases h
  · obtain ⟨serverIds, -, heq⟩ := Option.bind_eq_some_iff.mp h
    cases heq
    obtain ⟨server, hserver, rfl⟩ := List.mem_map.mp ((List.mem_insertionSort _).mp hid)
    exact List.mem_map_of_mem (List.mem_filter.mp hserver).1

theorem offered_of_post {ids : Text} {post : MergePost}
    (h : ((choices ids db).bind fun offered => cleanFields offered post) = some form) :
    Offered db form := by
  obtain ⟨offered, hoffered, hclean⟩ := Option.bind_eq_some_iff.mp h
  simp only [cleanFields] at hclean
  split at hclean
  · rename_i hvalid
    obtain ⟨hmain, hmerged, -, hne⟩ := hvalid
    cases hclean
    refine ⟨fun value hvalue => ?_, List.nodup_dedup _, hne, fun hmem => ?_⟩
    · have hchoice : ∃ id ∈ offered, value = choice id := by
        obtain rfl | hvalue := List.mem_cons.mp hvalue
        · exact hmain
        · exact hmerged value (List.mem_filter.mp (List.mem_dedup.mp hvalue)).1
      obtain ⟨id, hid, heq⟩ := hchoice
      exact ⟨id, mem_pks_of_mem_choices hoffered hid, heq⟩
    · simpa using (List.mem_filter.mp (List.mem_dedup.mp hmem)).2
  · cases hclean

theorem mem_pks_of_cleanMain (h : Offered db form) (hmain : form.cleanMain db' = some mainId) :
    form.mainServer = choice mainId ∧ mainId ∈ pks db := by
  obtain ⟨id, hid, heq⟩ := h.choices form.mainServer List.mem_cons_self
  rw [cleanMain, heq, parseInt_choice] at hmain
  rw [Option.bind_eq_bind, Option.bind_some] at hmain
  obtain ⟨server, hserver, hmain⟩ := Option.bind_eq_some_iff.mp hmain
  have hfound := List.find?_some hserver
  have hpk : server.pk = id := Int.ofNat_inj.mp (of_decide_eq_true hfound)
  split at hmain
  · cases hmain
    rw [heq, hpk]
    exact ⟨rfl, hid⟩
  · cases hmain

theorem mem_mergedServers (h : Offered db form) {id : ServerId}
    (hid : id ∈ form.mergedServers db') : id ∈ pks db ∧ choice id ∈ form.mergedUniq := by
  obtain ⟨server, hserver, rfl⟩ := List.mem_map.mp ((List.mem_insertionSort _).mp hid)
  obtain ⟨-, value, hvalue, hparse⟩ := of_decide_eq_true (List.mem_filter.mp hserver).2
  obtain ⟨id, hid, rfl⟩ := h.choices value (List.mem_cons_of_mem _ hvalue)
  rw [parseInt_choice] at hparse
  obtain rfl : id = server.pk := Int.ofNat_inj.mp (Option.some.inj hparse)
  exact ⟨hid, hvalue⟩

theorem mergeable_of_cleanMerged (h : Offered db form) (hmain : form.mainServer = choice mainId)
    (hid : mainId ∈ pks db) (htask : form.cleanMerged mainId db = some task) :
    Mergeable db task := by
  simp only [cleanMerged] at htask
  split at htask
  · rename_i hlength
    cases htask
    refine ⟨fun id hmem => ?_, ?_, fun hnil => ?_, fun hmem => ?_⟩
    · obtain rfl | hmem := List.mem_cons.mp hmem
      · exact hid
      · exact (mem_mergedServers h hmem).1
    · exact (List.perm_insertionSort _ _).nodup_iff.mpr
        ((List.filter_sublist.map _).nodup db.servers.nodup)
    · have hnil : form.mergedServers db = [] := hnil
      rw [hnil] at hlength
      exact h.ne_nil (List.length_eq_zero_iff.mp hlength.symm)
    · exact h.main (hmain ▸ (mem_mergedServers h hmem).2)
  · cases htask

theorem Offered.mono (h : Offered db form) (hpks : pks db ⊆ pks db') : Offered db' form :=
  { h with
    choices := fun value hvalue =>
      let ⟨id, hid, heq⟩ := h.choices value hvalue
      ⟨id, hpks hid, heq⟩ }

theorem Mergeable.mono (h : Mergeable db task) (hpks : pks db ⊆ pks db') : Mergeable db' task :=
  { h with rows := fun id hid => hpks (h.rows id hid) }

end Forms

/-- A merge was done if and only if none of its servers had been merged away by then. -/
def Accounted (before : List (MergeTask × Bool)) (entry : MergeTask × Bool) : Prop :=
  entry.2 = true ↔ ∀ id ∈ entry.1.main :: entry.1.merged, id ∉ taken (merges before)

/-- What holds of the forms and of the tasks that were sent for them. -/
structure Requests (db : Database) (opened : List ServerMergeForm)
    (checked : List (ServerId × ServerMergeForm)) (tasks : List MergeTask) : Prop where
  opened : ∀ form ∈ opened, Offered db form
  checked : ∀ entry ∈ checked, Offered db entry.2 ∧ entry.2.mainServer = choice entry.1 ∧
    entry.1 ∈ pks db
  tasks : ∀ task ∈ tasks, Mergeable db task

theorem Requests.mono {db db' : Database} {opened : List ServerMergeForm}
    {checked : List (ServerId × ServerMergeForm)} {tasks : List MergeTask}
    (h : Requests db opened checked tasks) (hpks : pks db ⊆ pks db') :
    Requests db' opened checked tasks where
  opened form hform := (h.opened form hform).mono hpks
  checked entry hentry :=
    let ⟨hoffered, hmain, hid⟩ := h.checked entry hentry
    ⟨hoffered.mono hpks, hmain, hpks hid⟩
  tasks task htask := (h.tasks task htask).mono hpks

structure Invariant (s : State) : Prop where
  requests : Requests s.db s.opened s.checked s.tasks
  sent : ∀ entry ∈ s.done, entry.1 ∈ s.tasks
  servers : ∀ server ∈ s.db.servers.rows, server.mergedInto = pointer (merges s.done) server.pk
  saved : ∀ pk, (s.home pk).2 ≤ s.done.length
  games : ∀ game ∈ s.db.games.rows, game.server = s.whereabouts game.pk
  once : (taken (merges s.done)).Nodup
  accounted : ∀ before entry after, s.done = before ++ entry :: after → Accounted before entry

theorem forall_split_concat {α : Type} {P : List α → α → Prop} {l : List α} {y : α}
    (h : ∀ before x after, l = before ++ x :: after → P before x) (hlast : P l y) :
    ∀ before x after, l ++ [y] = before ++ x :: after → P before x := by
  intro before x after heq
  obtain rfl | ⟨after, z, rfl⟩ := after.eq_nil_or_concat
  · obtain ⟨rfl, hy⟩ := List.append_inj' heq rfl
    cases hy
    exact hlast
  · rw [List.concat_eq_append, ← List.cons_append, ← List.append_assoc] at heq
    exact h before x after (List.append_inj' heq rfl).1

section Steps

variable {s : State} {task : MergeTask}

theorem mem_pks_of_mem_taken (h : Invariant s) {id : ServerId}
    (hid : id ∈ taken (merges s.done)) : id ∈ pks s.db := by
  obtain ⟨merge, hmerge, hid⟩ := List.mem_flatMap.mp hid
  obtain ⟨entry, hentry, rfl⟩ := List.mem_map.mp hmerge
  have htask := h.requests.tasks _ (h.sent entry (List.mem_filter.mp hentry).1)
  exact htask.rows id (List.mem_cons_of_mem _ hid)

theorem mergedInto_eq_none_iff (h : Invariant s) {server : Server}
    (hserver : server ∈ s.db.servers.rows) :
    server.mergedInto = none ↔ server.pk ∉ taken (merges s.done) := by
  rw [h.servers server hserver, pointer_eq_none_iff]

theorem unmerged_iff (h : Invariant s) {ids : List ServerId} (hids : ∀ id ∈ ids, id ∈ pks s.db) :
    (∀ server ∈ s.db.servers.rows, server.pk ∈ ids → server.mergedInto = none) ↔
      ∀ id ∈ ids, id ∉ taken (merges s.done) := by
  constructor
  · intro hnone id hid
    obtain ⟨server, hserver, rfl⟩ := List.mem_map.mp (hids id hid)
    exact (mergedInto_eq_none_iff h hserver).mp (hnone server hserver hid)
  · exact fun hfree server hserver hid =>
      (mergedInto_eq_none_iff h hserver).mpr (hfree _ hid)

theorem ok_iff (h : Invariant s) (htask : Mergeable s.db task) (now : Time) :
    (∃ db', (Tasks.mergeServers now task.main task.merged).run s.db = (.ok (), db')) ↔
      ∀ id ∈ task.main :: task.merged, id ∉ taken (merges s.done) := by
  obtain ⟨main, hmain, hpk⟩ := List.mem_map.mp (htask.rows task.main List.mem_cons_self)
  have hrows : ∀ id ∈ task.merged, ∃ server ∈ s.db.servers.rows, server.pk = id := fun id hid =>
    List.mem_map.mp (htask.rows id (List.mem_cons_of_mem _ hid))
  have hself : main.pk ∉ task.merged := hpk ▸ htask.main
  rw [← hpk, Tasks.mergeServers_ok_iff hmain hrows, mergedInto_eq_none_iff h hmain,
    unmerged_iff h fun id hid => htask.rows id (List.mem_cons_of_mem _ hid)]
  simp only [ne_eq, htask.ne_nil, not_false_eq_true, hself, htask.nodup, true_and,
    List.forall_mem_cons]

theorem merges_concat (done : List (MergeTask × Bool)) (ok : Bool) :
    merges (done ++ [(task, ok)]) = merges done ++ if ok then [task] else [] := by
  cases ok <;> simp [merges]

/-- A merge takes on where the games are from where they were. -/
theorem whereabouts_concat (hsaved : ∀ pk, (s.home pk).2 ≤ s.done.length) (task : MergeTask)
    (db : Database) (ok : Bool) (pk : GameId) :
    State.whereabouts { s with db, done := s.done ++ [(task, ok)] } pk =
      if ok then task.redirect (s.whereabouts pk) else s.whereabouts pk := by
  rw [State.whereabouts, List.drop_append_of_le_length (hsaved pk), merges_concat]
  cases ok with
  | false => rw [if_neg (by decide), List.append_nil, if_neg (by decide), State.whereabouts]
  | true => rw [if_pos rfl, resolve_concat, if_pos rfl, State.whereabouts]

theorem saved_concat (hsaved : ∀ pk, (s.home pk).2 ≤ s.done.length) (entry : MergeTask × Bool)
    (pk : GameId) : (s.home pk).2 ≤ (s.done ++ [entry]).length := by
  have hle := hsaved pk
  rw [List.length_append]
  omega

theorem pks_of_mergeOutcome {now : Time} {mainId : ServerId} {mergedIds : List ServerId}
    {db db' : Database} (h : ServerManager.MergeOutcome now mainId mergedIds db db') :
    pks db' = pks db :=
  h.pks

/-- An execution that fails leaves the store alone, and is accounted for. -/
theorem Invariant.failed (h : Invariant s) (htask : task ∈ s.tasks)
    (htaken : ¬ ∀ id ∈ task.main :: task.merged, id ∉ taken (merges s.done)) :
    Invariant { s with done := s.done ++ [(task, false)] } := by
  have hmerges : merges (s.done ++ [(task, false)]) = merges s.done := by
    simp [merges_concat]
  refine { h with
    sent := fun entry hentry => ?_
    servers := hmerges ▸ h.servers
    saved := saved_concat h.saved _
    games := fun game hgame => ?_
    once := hmerges ▸ h.once
    accounted := ?_ }
  · obtain hentry | rfl : entry ∈ s.done ∨ entry = (task, false) := by simpa using hentry
    · exact h.sent entry hentry
    · exact htask
  · exact (h.games game hgame).trans (whereabouts_concat h.saved task s.db false game.pk).symm
  · refine forall_split_concat h.accounted ⟨fun hok => ?_, fun hfree => absurd hfree htaken⟩
    cases hok

/-- One that is done points the merged servers and their games to the main one. -/
theorem Invariant.merged (h : Invariant s) (htask : task ∈ s.tasks)
    (hfree : ∀ id ∈ task.main :: task.merged, id ∉ taken (merges s.done)) {now : Time}
    {db' : Database} (houtcome : ServerManager.MergeOutcome now task.main task.merged s.db db') :
    Invariant { s with db := db', done := s.done ++ [(task, true)] } := by
  have hmerges : merges (s.done ++ [(task, true)]) = merges s.done ++ [task] := by
    simp [merges_concat]
  have hpks : pks s.db ⊆ pks db' := (pks_of_mergeOutcome houtcome).symm ▸ List.Subset.refl _
  have hmerged : ∀ id ∈ task.merged, id ∉ taken (merges s.done) := fun id hid =>
    hfree id (List.mem_cons_of_mem _ hid)
  refine {
    requests := h.requests.mono hpks
    sent := fun entry hentry => ?_
    servers := fun server hserver => ?_
    saved := saved_concat h.saved _
    games := fun game hgame => ?_
    once := ?_
    accounted := ?_ }
  · obtain hentry | rfl : entry ∈ s.done ∨ entry = (task, true) := by simpa using hentry
    · exact h.sent entry hentry
    · exact htask
  · obtain ⟨before, hbefore, stats, rfl⟩ := MergeGraph.mem_of_mergeOutcome houtcome hserver
    have hpointer := h.servers before hbefore
    simp only [hmerges, ServerManager.mergedServer_pk, pointer_concat hmerged]
    rw [ServerManager.mergedServer]
    by_cases hid : before.pk ∈ task.merged
    · rw [if_pos hid, if_pos hid]
    · rw [if_neg hid, if_neg hid]
      by_cases hindirect : ServerManager.isIndirect task.main task.merged before = true
      · obtain ⟨-, target, htarget, heq⟩ := of_decide_eq_true hindirect
        rw [if_pos hindirect, ← hpointer, heq, Option.map_some, redirect_of_mem htarget]
      · rw [if_neg hindirect, ← hpointer]
        cases hinto : before.mergedInto with
        | none => rfl
        | some target =>
          -- the main server itself points nowhere
          have hne : before.pk ≠ task.main := fun heq => by
            have hnone := (mergedInto_eq_none_iff h hbefore).mpr (heq ▸ hfree _ List.mem_cons_self)
            simp [hnone] at hinto
          have htarget : target ∉ task.merged := fun htarget =>
            hindirect (decide_eq_true ⟨hne, target, htarget, hinto⟩)
          rw [Option.map_some, redirect_of_not_mem htarget]
  · rw [houtcome.games] at hgame
    obtain ⟨before, hbefore, rfl⟩ := List.mem_map.mp hgame
    have hafter := whereabouts_concat h.saved task db' true before.pk
    rw [if_pos rfl, ← h.games before hbefore] at hafter
    split
    · rename_i hid
      exact (redirect_of_mem hid).symm.trans hafter.symm
    · rename_i hid
      exact (redirect_of_not_mem hid).symm.trans hafter.symm
  · rw [hmerges, taken_concat]
    apply h.once.append (h.requests.tasks task htask).nodup
    exact fun id htaken hid => hmerged id hid htaken
  · exact forall_split_concat h.accounted ⟨fun _ => hfree, fun _ => rfl⟩

theorem Invariant.execute (h : Invariant s) (htask : task ∈ s.tasks) (now : Time) :
    Invariant (s.execute now task) := by
  have hiff := ok_iff h (h.requests.tasks task htask) now
  rw [State.execute]
  obtain ⟨-, key, hrun⟩ | ⟨message, hrun⟩ | ⟨-, -, -, -, -, -, db', hrun, houtcome⟩ :=
    Tasks.run_mergeServers now task.main task.merged s.db
  · rw [hrun] at hiff ⊢
    exact h.failed htask fun hfree => nomatch hiff.mpr hfree
  · rw [hrun] at hiff ⊢
    exact h.failed htask fun hfree => nomatch hiff.mpr hfree
  · rw [hrun]
    exact h.merged htask (hiff.mp ⟨db', hrun⟩) houtcome

theorem Invariant.createServer (h : Invariant s) (ip : IPv4) (port : ℕ) (enabled : Bool) :
    Invariant (system.next s (.createServer ip port enabled)) := by
  obtain ⟨db', hdb', hgames, hold, hnew⟩ :=
    MergeGraph.servers_createServer ip port enabled s.db
  have hpks : pks s.db ⊆ pks db' := fun id hid => by
    obtain ⟨server, hserver, rfl⟩ := List.mem_map.mp hid
    exact List.mem_map_of_mem (hold server hserver)
  simp only [system, MergeGraph.system, ← hdb']
  refine { h with
    requests := h.requests.mono hpks
    servers := fun server hserver => ?_
    games := fun game hgame => h.games game (hgames ▸ hgame) }
  by_cases hmem : server ∈ s.db.servers.rows
  · exact h.servers server hmem
  · have hnone := (hnew server hserver).resolve_left hmem
    rw [hnone, eq_comm, pointer_eq_none_iff]
    intro htaken
    obtain ⟨other, hother, hpk⟩ := List.mem_map.mp (mem_pks_of_mem_taken h htaken)
    exact hmem (db'.servers.eq_of_key_eq (hold other hother) hserver hpk ▸ hother)

theorem Invariant.saveGame (h : Invariant s) (game : Game) :
    Invariant (system.next s (.saveGame game)) := by
  have hpks : pks s.db ⊆ pks (MergeGraph.saveGame game s.db) := List.Subset.refl _
  refine { h with
    requests := h.requests.mono hpks
    saved := fun pk => ?_
    games := fun other hother => ?_ }
  · simp only [system]
    split
    · exact le_rfl
    · exact h.saved pk
  · simp only [system, State.whereabouts]
    obtain hother | rfl := Table.mem_create.mp hother
    · rw [if_neg (s.db.games.lt_nextPk hother).ne]
      exact h.games other hother
    · rw [if_pos rfl, List.drop_length]
      rfl

theorem Invariant.post (h : Invariant s) (ids : Text) (post : MergePost) :
    Invariant (system.next s (.post ids post)) := by
  refine { h with requests := { h.requests with opened := fun form hform => ?_ } }
  obtain hform | hform := List.mem_append.mp hform
  · exact h.requests.opened form hform
  · exact offered_of_post (Option.mem_toList.mp hform)

theorem Invariant.cleanMain (h : Invariant s) {form : ServerMergeForm} (hform : form ∈ s.opened) :
    Invariant (system.next s (.cleanMain form)) := by
  refine { h with
    requests := { h.requests with
      opened := fun other hother => h.requests.opened other (List.mem_of_mem_erase hother)
      checked := fun entry hentry => ?_ } }
  obtain hentry | hentry := List.mem_append.mp hentry
  · exact h.requests.checked entry hentry
  · obtain ⟨mainId, hmain, rfl⟩ := List.mem_map.mp hentry
    have hoffered := h.requests.opened form hform
    exact ⟨hoffered, mem_pks_of_cleanMain hoffered (Option.mem_toList.mp hmain)⟩

theorem Invariant.cleanMerged (h : Invariant s) {mainId : ServerId} {form : ServerMergeForm}
    (hentry : (mainId, form) ∈ s.checked) :
    Invariant (system.next s (.cleanMerged mainId form)) := by
  refine { h with
    requests := { h.requests with
      checked := fun entry hentry => h.requests.checked entry (List.mem_of_mem_erase hentry)
      tasks := fun task htask => ?_ }
    sent := fun entry hentry => List.mem_append_left _ (h.sent entry hentry) }
  obtain htask | htask := List.mem_append.mp htask
  · exact h.requests.tasks task htask
  · obtain ⟨hoffered, hmain, hid⟩ := h.requests.checked _ hentry
    exact mergeable_of_cleanMerged hoffered hmain hid (Option.mem_toList.mp htask)

theorem Invariant.next (h : Invariant s) (e : Event) (henabled : system.enabled s e) :
    Invariant (system.next s e) := by
  cases e with
  | createServer ip port enabled => exact h.createServer ip port enabled
  | saveGame game => exact h.saveGame game
  | post ids post => exact h.post ids post
  | cleanMain form => exact h.cleanMain henabled
  | cleanMerged mainId form => exact h.cleanMerged henabled
  | execute now task => exact h.execute henabled now

end Steps

theorem Invariant.initial {db : Database}
    (hinit : ∀ server ∈ db.servers.rows, server.mergedInto = none) :
    Invariant (State.initial db) where
  requests := ⟨by simp [State.initial], by simp [State.initial], by simp [State.initial]⟩
  sent := by simp [State.initial]
  servers server hserver := hinit server hserver
  saved _ := le_rfl
  games game hgame := by
    have hfind : db.games.find? game.pk = some game := Table.find?_of_mem hgame
    show game.server = (db.games.find? game.pk).elim 0 Game.server
    rw [hfind, Option.elim_some]
  once := List.nodup_nil
  accounted := by simp [State.initial]

/-- However pages, tasks, new servers and new games are interleaved, the servers are where the
merges done so far take them one after the other, and a game is where those since it was saved do;
no server is merged away twice, and a task fails for no other reason than a merge that took one of
its servers. -/
theorem merges_of_run {db₀ : Database} {es : List Event} {s : State}
    (hinit : ∀ server ∈ db₀.servers.rows, server.mergedInto = none)
    (hrun : Run system (State.initial db₀) es s) :
    (∀ server ∈ s.db.servers.rows, server.mergedInto = pointer (merges s.done) server.pk) ∧
    (∀ game ∈ s.db.games.rows, game.server = s.whereabouts game.pk) ∧
    (taken (merges s.done)).Nodup ∧
    (∀ task ∈ s.tasks, task.main ∉ task.merged ∧ task.merged ≠ [] ∧ task.merged.Nodup) ∧
    ∀ before task ok after, s.done = before ++ (task, ok) :: after →
      task ∈ s.tasks ∧
      (ok = true ↔ ∀ id ∈ task.main :: task.merged, id ∉ taken (merges before)) := by
  have hinv : Invariant s :=
    hrun.invariant (fun _ e h henabled => h.next e henabled) (.initial hinit)
  refine ⟨hinv.servers, hinv.games, hinv.once, fun task htask => ?_,
    fun before task ok after heq => ?_⟩
  · have hmergeable := hinv.requests.tasks task htask
    exact ⟨hmergeable.main, hmergeable.ne_nil, hmergeable.nodup⟩
  · have hsent : task ∈ s.tasks := hinv.sent (task, ok) (heq ▸ by simp)
    exact ⟨hsent, hinv.accounted before (task, ok) after heq⟩

section Example

instance (s : State) : ∀ e, Decidable (system.enabled s e)
  | .createServer _ _ _ | .post _ _ => inferInstanceAs (Decidable True)
  | .saveGame game => inferInstanceAs (Decidable
      (∃ server ∈ s.db.servers.rows, server.pk = game.server))
  | .cleanMain form => inferInstanceAs (Decidable (form ∈ s.opened))
  | .cleanMerged mainId form => inferInstanceAs (Decidable ((mainId, form) ∈ s.checked))
  | .execute _ task => inferInstanceAs (Decidable (task ∈ s.tasks))

def firstPage : ServerMergeForm := ⟨choice 3, [choice 1]⟩

def secondPage : ServerMergeForm := ⟨choice 2, [choice 3, choice 1]⟩

/-- Both pages pass before either task runs, and a game is saved late for a merged server. -/
def crossedPages : List Event :=
  [.createServer 1 10480 true, .createServer 2 10480 true, .createServer 3 10480 true,
    .saveGame (MergeGraph.gameOf 1),
    .post "1,2,3".toList ⟨choice 3, [choice 1], true⟩,
    .post "3,2,1".toList ⟨choice 2, [choice 3, choice 1, choice 2], true⟩,
    .cleanMain firstPage, .cleanMain secondPage,
    .cleanMerged 3 firstPage, .cleanMerged 2 secondPage,
    .execute 200 ⟨3, [1]⟩, .saveGame (MergeGraph.gameOf 1), .execute 300 ⟨2, [1, 3]⟩,
    .execute 400 ⟨3, [1]⟩]

theorem crossedPages_merges :
    let s := crossedPages.foldl system.next (State.initial Database.empty)
    s.done = [(⟨3, [1]⟩, true), (⟨2, [1, 3]⟩, false), (⟨3, [1]⟩, false)] ∧
    s.db.games.rows.map Game.server = [3, 1] ∧
    (∀ server ∈ s.db.servers.rows, server.mergedInto = pointer [⟨3, [1]⟩] server.pk) ∧
    ∀ game ∈ s.db.games.rows, game.server = s.whereabouts game.pk := by
  have hadmits : system.Admits (State.initial Database.empty) crossedPages := by decide
  have hmerges := merges_of_run (by simp [Database.empty]) (Run.of_admits hadmits)
  exact ⟨by decide, by decide, hmerges.1, hmerges.2.1⟩

end Example

end AdminMerges

end Swat4Stats
