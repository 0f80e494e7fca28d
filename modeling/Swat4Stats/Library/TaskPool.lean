import Swat4Stats.Library.Transition
import Mathlib.Data.List.Nodup
import Mathlib.Data.List.Perm.Basic
import Mathlib.Tactic.Choose

/-!
# Tasks gathered under one semaphore

`gather` creates a task for each coroutine and the event loop runs them in that order up to their
first suspension; who finishes next is up to the outside. A task that finds the semaphore locked
joins the queue of its waiters, and the one that releases it wakes the first of them. Tasks that
look the same are kept apart by their number of occurrences only.
-/

namespace Swat4Stats.TaskPool

set_option autoImplicit false

open Transition

universe u v

/-- The tasks by where their coroutines are. -/
structure Pool (τ : Type u) (α : Type v) where
  created : List τ
  waiting : List τ := []
  running : List τ := []
  /-- Those that were let through, in that order. -/
  acquired : List τ := []
  /-- The callbacks that were called, with what the task came to. -/
  called : List (τ × α) := []
  /-- The value of the semaphore, if there is one. -/
  semaphore : Option ℕ

inductive Event (τ : Type u) (α : Type v) where
  | start
  | finish (task : τ) (outcome : α)

variable {τ : Type u} {α : Type v}

def Event.outcome? : Event τ α → Option (τ × α)
  | .start => none
  | .finish task outcome => some (task, outcome)

namespace Pool

/-- A concurrency of nought is none. -/
def semaphoreOf : Option ℕ → Option ℕ
  | none | some 0 => none
  | some (n + 1) => some (n + 1)

def gather (tasks : List τ) (concurrency : Option ℕ) : Pool τ α where
  created := tasks
  semaphore := semaphoreOf concurrency

def letThrough (task : τ) (p : Pool τ α) : Pool τ α :=
  { p with running := p.running ++ [task], acquired := p.acquired ++ [task] }

/-- The semaphore is locked at nought, and while others wait for it. -/
def acquire (task : τ) (p : Pool τ α) : Pool τ α :=
  match p.semaphore with
  | none => letThrough task p
  | some value =>
    if value = 0 ∨ p.waiting ≠ [] then
      { p with waiting := p.waiting ++ [task] }
    else
      letThrough task { p with semaphore := some (value - 1) }

def start (p : Pool τ α) : Pool τ α :=
  match p.created with
  | [] => p
  | task :: rest => acquire task { p with created := rest }

/-- The slot goes to the first waiter, if there is one. -/
def release (p : Pool τ α) : Pool τ α :=
  match p.semaphore, p.waiting with
  | none, _ => p
  | some value, [] => { p with semaphore := some (value + 1) }
  | some _, task :: rest => letThrough task { p with waiting := rest }

variable [DecidableEq τ]

/-- The task calls its callback and leaves the semaphore. -/
def finish (task : τ) (outcome : α) (p : Pool τ α) : Pool τ α :=
  release { p with
    running := p.running.erase task, called := p.called ++ [(task, outcome)] }

def system : System (Pool τ α) (Event τ α) where
  enabled p
    | .start => p.created ≠ []
    | .finish task _ => task ∈ p.running
  next p
    | .start => p.start
    | .finish task outcome => p.finish task outcome

instance (p : Pool τ α) : ∀ e : Event τ α, Decidable (system.enabled p e)
  | .start => inferInstanceAs (Decidable (p.created ≠ []))
  | .finish task _ => inferInstanceAs (Decidable (task ∈ p.running))

end Pool

open Pool

/-- What holds of the tasks between any two steps. -/
structure Invariant (tasks : List τ) (concurrency : Option ℕ) (p : Pool τ α) : Prop where
  /-- The tasks are let through in the order they were created in. -/
  inOrder : p.acquired ++ p.waiting ++ p.created = tasks
  held : p.acquired.Perm (p.running ++ p.called.map Prod.fst)
  /-- The slots that are not free are those of the running tasks. -/
  slots : p.semaphore.map (· + p.running.length) = semaphoreOf concurrency
  locked : p.waiting ≠ [] → p.semaphore = some 0

section Steps

variable {tasks : List τ} {concurrency : Option ℕ} {p : Pool τ α} {task : τ}

theorem semaphoreOf_pos {n : ℕ} (h : semaphoreOf concurrency = some n) : 0 < n := by
  match concurrency, h with
  | some (m + 1), h =>
    obtain rfl : m + 1 = n := by simpa [semaphoreOf] using h
    omega

theorem invariant_gather : Invariant tasks concurrency (gather tasks concurrency : Pool τ α) where
  inOrder := by simp [gather]
  held := by simp [gather]
  slots := by cases h : semaphoreOf concurrency <;> simp [gather, h]
  locked h := absurd rfl h

/-- A task that comes to the semaphore is let through or put at the end of the queue. -/
theorem acquire_cases (task : τ) (p : Pool τ α) :
    (p.semaphore = none ∧ p.acquire task = letThrough task p) ∨
    (∃ value, p.semaphore = some value ∧ (value = 0 ∨ p.waiting ≠ []) ∧
      p.acquire task = { p with waiting := p.waiting ++ [task] }) ∨
    (∃ value, p.semaphore = some (value + 1) ∧ p.waiting = [] ∧
      p.acquire task = letThrough task { p with semaphore := some value }) := by
  unfold acquire
  cases hsemaphore : p.semaphore with
  | none => exact .inl ⟨rfl, rfl⟩
  | some value =>
    by_cases hlocked : value = 0 ∨ p.waiting ≠ []
    · exact .inr (.inl ⟨value, rfl, hlocked, by simp only [if_pos hlocked]⟩)
    · obtain ⟨hvalue, hwaiting⟩ := not_or.mp hlocked
      obtain ⟨value, rfl⟩ := Nat.exists_eq_succ_of_ne_zero hvalue
      refine .inr (.inr ⟨value, rfl, not_not.mp hwaiting, ?_⟩)
      simp only [if_neg hlocked, Nat.succ_sub_one]

theorem release_cases (p : Pool τ α) :
    (p.semaphore = none ∧ p.release = p) ∨
    (∃ value, p.semaphore = some value ∧ p.waiting = [] ∧
      p.release = { p with semaphore := some (value + 1) }) ∨
    (∃ value task rest, p.semaphore = some value ∧ p.waiting = task :: rest ∧
      p.release = letThrough task { p with waiting := rest }) := by
  unfold release
  cases hsemaphore : p.semaphore with
  | none => exact .inl ⟨rfl, rfl⟩
  | some value =>
    cases hwaiting : p.waiting with
    | nil => exact .inr (.inl ⟨value, rfl, rfl, rfl⟩)
    | cons task rest => exact .inr (.inr ⟨value, task, rest, rfl, rfl, rfl⟩)

theorem perm_letThrough {acquired running finished : List τ} (task : τ)
    (h : acquired.Perm (running ++ finished)) :
    (acquired ++ [task]).Perm (running ++ [task] ++ finished) := by
  rw [List.append_assoc]
  exact (List.perm_append_singleton task acquired).trans
    ((h.cons task).trans List.perm_middle.symm)

theorem Invariant.start (h : Invariant tasks concurrency p) :
    Invariant tasks concurrency p.start := by
  unfold Pool.start
  cases hcreated : p.created with
  | nil => exact h
  | cons task rest =>
    have horder : p.acquired ++ p.waiting ++ task :: rest = tasks := hcreated ▸ h.inOrder
    have hslots := h.slots
    show Invariant tasks concurrency (acquire task { p with created := rest })
    obtain ⟨hnone, heq⟩ | ⟨value, hvalue, hlocked, heq⟩ | ⟨value, hvalue, hwaiting, heq⟩ :=
      acquire_cases task { p with created := rest }
    · have hwaiting : p.waiting = [] := by
        by_contra hwaiting
        exact absurd (hnone.symm.trans (h.locked hwaiting)) (by simp)
      rw [heq]
      refine ⟨?_, perm_letThrough task h.held, ?_, h.locked⟩
      · simpa [letThrough, hwaiting] using horder
      · simpa [letThrough, show p.semaphore = none from hnone] using hslots
    · rw [heq]
      refine ⟨by simpa using horder, h.held, hslots, fun _ => ?_⟩
      cases hlocked with
      | inl hzero => exact hvalue.trans (congrArg some hzero)
      | inr hwaiting => exact h.locked hwaiting
    · rw [heq]
      refine ⟨?_, perm_letThrough task h.held, ?_, fun hne => absurd hwaiting hne⟩
      · simpa [letThrough, show p.waiting = [] from hwaiting] using horder
      · rw [show p.semaphore = some (value + 1) from hvalue] at hslots
        rw [← hslots]
        simp [letThrough]
        omega

/-- The steps that are left: every task is started once and finishes once. -/
def remaining (p : Pool τ α) : ℕ := 2 * p.created.length + p.waiting.length + p.running.length

theorem Invariant.enabled (h : Invariant tasks concurrency p) (hremaining : remaining p ≠ 0) :
    p.created ≠ [] ∨ p.running ≠ [] := by
  by_contra hstuck
  obtain ⟨hcreated, hrunning⟩ := not_or.mp hstuck
  rw [not_not] at hcreated hrunning
  have hwaiting : p.waiting ≠ [] := fun hnil => hremaining (by
    simp [remaining, hcreated, hrunning, hnil])
  have hslots := h.slots
  rw [h.locked hwaiting, hrunning] at hslots
  exact absurd (semaphoreOf_pos hslots.symm) (by simp)

variable [DecidableEq τ]

theorem Invariant.finish (h : Invariant tasks concurrency p) (outcome : α)
    (hrunning : task ∈ p.running) : Invariant tasks concurrency (p.finish task outcome) := by
  have hheld : p.acquired.Perm
      (p.running.erase task ++ (p.called ++ [(task, outcome)]).map Prod.fst) := by
    refine h.held.trans (((List.perm_cons_erase hrunning).append_right _).trans ?_)
    rw [List.map_append, ← List.append_assoc]
    exact (List.perm_append_singleton task _).symm
  have hlength : (p.running.erase task).length + 1 = p.running.length := by
    rw [List.length_erase_of_mem hrunning]
    exact Nat.succ_pred_eq_of_pos (List.length_pos_of_mem hrunning)
  have hslots := h.slots
  obtain ⟨hnone, heq⟩ | ⟨value, hvalue, hwaiting, heq⟩ | ⟨value, waiter, rest, hvalue, hwaiting,
    heq⟩ := release_cases { p with
      running := p.running.erase task, called := p.called ++ [(task, outcome)] }
  · rw [Pool.finish, heq]
    refine ⟨h.inOrder, hheld, ?_, h.locked⟩
    rw [show p.semaphore = none from hnone] at hslots ⊢
    exact hslots
  · rw [Pool.finish, heq]
    refine ⟨h.inOrder, hheld, ?_, fun hne => absurd hwaiting hne⟩
    rw [show p.semaphore = some value from hvalue] at hslots
    rw [← hslots]
    simp
    omega
  · rw [Pool.finish, heq]
    have hzero : p.semaphore = some 0 :=
      h.locked (by rw [show p.waiting = waiter :: rest from hwaiting]; simp)
    refine ⟨?_, perm_letThrough waiter hheld, ?_, fun _ => hzero⟩
    · have hinOrder := h.inOrder
      rw [show p.waiting = waiter :: rest from hwaiting] at hinOrder
      simpa [letThrough] using hinOrder
    · rw [← hslots]
      simp [letThrough, hlength]

theorem Invariant.next (h : Invariant tasks concurrency p) (e : Event τ α)
    (he : system.enabled p e) : Invariant tasks concurrency (system.next p e) := by
  cases e with
  | start => exact h.start
  | finish task outcome => exact h.finish outcome he

theorem remaining_next (e : Event τ α) (he : system.enabled p e) :
    remaining (system.next p e) + 1 = remaining p := by
  cases e with
  | start =>
    obtain ⟨task, rest, hcreated⟩ := List.exists_cons_of_ne_nil he
    have hstart : (system.next p (.start : Event τ α)) =
        Pool.acquire task { p with created := rest } := by
      show p.start = _
      unfold Pool.start
      rw [hcreated]
    rw [hstart]
    obtain ⟨-, heq⟩ | ⟨value, -, -, heq⟩ | ⟨value, -, -, heq⟩ :=
      acquire_cases task { p with created := rest } <;>
    · rw [heq]
      simp [remaining, letThrough, hcreated]
      omega
  | finish task outcome =>
    have hlength : (p.running.erase task).length + 1 = p.running.length := by
      rw [List.length_erase_of_mem he]
      exact Nat.succ_pred_eq_of_pos (List.length_pos_of_mem he)
    show remaining (p.finish task outcome) + 1 = _
    obtain ⟨-, heq⟩ | ⟨value, -, -, heq⟩ | ⟨value, waiter, rest, -, hwaiting, heq⟩ :=
      release_cases { p with
        running := p.running.erase task, called := p.called ++ [(task, outcome)] }
    · rw [Pool.finish, heq]
      simp [remaining]
      omega
    · rw [Pool.finish, heq]
      simp [remaining]
      omega
    · rw [Pool.finish, heq]
      simp [remaining, letThrough, show p.waiting = waiter :: rest from hwaiting]
      omega

theorem called_next (e : Event τ α) :
    (system.next p e).called = p.called ++ e.outcome?.toList := by
  cases e with
  | start =>
    show p.start.called = _
    unfold Pool.start
    cases p.created with
    | nil => simp [Event.outcome?]
    | cons task rest =>
      obtain ⟨-, heq⟩ | ⟨value, -, -, heq⟩ | ⟨value, -, -, heq⟩ :=
        acquire_cases task { p with created := rest } <;>
      simp [heq, letThrough, Event.outcome?]
  | finish task outcome =>
    show (p.finish task outcome).called = _
    obtain ⟨-, heq⟩ | ⟨value, -, -, heq⟩ | ⟨value, waiter, rest, -, -, heq⟩ :=
      release_cases { p with
        running := p.running.erase task, called := p.called ++ [(task, outcome)] } <;>
    (rw [Pool.finish, heq]; rfl)

end Steps

section Runs

variable [DecidableEq τ] {tasks : List τ} {concurrency : Option ℕ} {p : Pool τ α}
  {events : List (Event τ α)}

theorem invariant_run (h : Run system (gather tasks concurrency) events p) :
    Invariant tasks concurrency p :=
  h.invariant (fun _ e hp he => hp.next e he) invariant_gather

theorem length_running_le {n : ℕ} (h : Run system (gather tasks concurrency) events p)
    (hn : semaphoreOf concurrency = some n) : p.running.length ≤ n := by
  have hslots := (invariant_run h).slots
  rw [hn] at hslots
  obtain ⟨value, -, hvalue⟩ := Option.map_eq_some_iff.mp hslots
  omega

theorem length_add_remaining {q : Pool τ α} (h : Run system q events p) :
    events.length + remaining p = remaining q := by
  induction h with
  | nil => simp
  | cons he _ ih =>
    have hnext := remaining_next _ he
    simp only [List.length_cons]
    omega

theorem called_run {q : Pool τ α} (h : Run system q events p) :
    p.called = q.called ++ events.filterMap Event.outcome? := by
  induction h with
  | nil => simp
  | @cons q p e es _ _ ih =>
    rw [ih, called_next, List.append_assoc]
    cases houtcome : e.outcome? <;> simp [houtcome]

/-- All callbacks have been called, one for each task. -/
theorem called_perm (h : Run system (gather tasks concurrency) events p)
    (hdone : remaining p = 0) : (p.called.map Prod.fst).Perm tasks := by
  have hinv := invariant_run h
  obtain ⟨hcreated, hwaiting, hrunning⟩ :
      p.created = [] ∧ p.waiting = [] ∧ p.running = [] := by
    simp only [remaining] at hdone
    refine ⟨?_, ?_, ?_⟩ <;>
    · rw [← List.length_eq_zero_iff]
      omega
  have horder := hinv.inOrder
  have hheld := hinv.held
  rw [hcreated, hwaiting, List.append_nil, List.append_nil] at horder
  rw [hrunning, List.nil_append, horder] at hheld
  exact hheld.symm

theorem mem_called_iff {task : τ} {outcome : α}
    (h : Run system (gather tasks concurrency) events p) :
    (task, outcome) ∈ p.called ↔ .finish task outcome ∈ events := by
  rw [called_run h]
  simp only [gather, List.nil_append, List.mem_filterMap]
  constructor
  · rintro ⟨e, he, houtcome⟩
    cases e with
    | start => cases houtcome
    | finish task' outcome' =>
      cases houtcome
      exact he
  · intro he
    exact ⟨_, he, rfl⟩

/-- Where tasks can be told apart, the calls are those of a function, in some order. -/
theorem exists_outcomes [Inhabited α] (htasks : tasks.Nodup)
    (h : Run system (gather tasks concurrency) events p) (hdone : remaining p = 0) :
    ∃ outcomes : τ → α,
      (∀ task outcome, .finish task outcome ∈ events ↔
        task ∈ tasks ∧ outcome = outcomes task) ∧
      p.called.Perm (tasks.map fun task => (task, outcomes task)) := by
  have hperm := called_perm h hdone
  have hnodup : (p.called.map Prod.fst).Nodup := hperm.nodup_iff.mpr htasks
  have houtcome : ∀ task ∈ tasks, ∃ outcome, (task, outcome) ∈ p.called := by
    intro task htask
    obtain ⟨call, hcall, rfl⟩ := List.mem_map.mp (hperm.mem_iff.mpr htask)
    exact ⟨call.2, hcall⟩
  choose! outcomes houtcomes using houtcome
  have hcalled : p.called.Perm (tasks.map fun task => (task, outcomes task)) := by
    have heq : p.called = (p.called.map Prod.fst).map fun task => (task, outcomes task) := by
      rw [List.map_map]
      refine (List.map_id _).symm.trans (List.map_congr_left fun call hcall => ?_)
      have htask : call.1 ∈ tasks := hperm.mem_iff.mp (List.mem_map_of_mem hcall)
      exact List.inj_on_of_nodup_map hnodup hcall (houtcomes call.1 htask) rfl
    rw [heq]
    exact hperm.map _
  refine ⟨outcomes, fun task outcome => ?_, hcalled⟩
  rw [← mem_called_iff h, hcalled.mem_iff, List.mem_map]
  constructor
  · rintro ⟨task', htask, heq⟩
    cases heq
    exact ⟨htask, rfl⟩
  · rintro ⟨htask, rfl⟩
    exact ⟨task, htask, rfl⟩

/-- Whatever the tasks that still run come to, the others get their turn. -/
theorem Invariant.completes (outcomes : τ → α) (h : Invariant tasks concurrency p) :
    ∃ events q, Run system p events q ∧ remaining q = 0 ∧
      ∀ task outcome, .finish task outcome ∈ events → outcome = outcomes task := by
  generalize hn : remaining p = n
  induction n generalizing p with
  | zero => exact ⟨[], p, .nil p, hn, by simp⟩
  | succ n ih =>
    have hstep : ∀ e : Event τ α, system.enabled p e →
        (∀ task outcome, e = .finish task outcome → outcome = outcomes task) →
        ∃ events q, Run system p events q ∧ remaining q = 0 ∧
          ∀ task outcome, .finish task outcome ∈ events → outcome = outcomes task := by
      intro e he houtcome
      have hnext := remaining_next e he
      obtain ⟨events, q, hrun, hdone, houtcomes⟩ := ih (h.next e he) (by omega)
      refine ⟨e :: events, q, .cons he hrun, hdone, fun task outcome hmem => ?_⟩
      cases List.mem_cons.mp hmem with
      | inl heq => exact houtcome task outcome heq.symm
      | inr htail => exact houtcomes task outcome htail
    cases h.enabled (by omega) with
    | inl hcreated => exact hstep .start hcreated (by simp)
    | inr hrunning =>
      obtain ⟨task, hmem⟩ := List.exists_mem_of_ne_nil _ hrunning
      apply hstep (.finish task (outcomes task)) hmem
      rintro task' outcome ⟨⟩
      rfl

end Runs

end Swat4Stats.TaskPool
