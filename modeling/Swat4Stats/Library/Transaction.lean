import Mathlib.Tactic.Common

/-!
# Transactions with rollback

`Tx` is a program that runs statements against a database `σ` and may raise. A statement either
succeeds or leaves the database as it was, but an exception that is raised between two statements
keeps the effect of the earlier ones: only `atomic` undoes them. To speak of a failure at any
point, a session carries the number of statements that still succeed; when it is used up the next
statement (or the commit at the end of an atomic block) raises `Failure.fault`.
-/

namespace Swat4Stats

set_option autoImplicit false

universe u

inductive Failure (ε : Type u) where
  | raised (e : ε)
  | fault
  deriving DecidableEq, Repr

structure Session (σ : Type u) where
  db : σ
  /-- `none` when nothing fails from outside. -/
  faultIn : Option ℕ

/-- A program never schedules a fault of its own, so a session without one stays without. -/
structure Tx (σ ε α : Type u) where
  exec : Session σ → Except (Failure ε) α × Session σ
  calm : ∀ db, (exec ⟨db, none⟩).2.faultIn = none

namespace Tx

variable {σ ε α β : Type u}

protected def pure (a : α) : Tx σ ε α := ⟨fun s => (.ok a, s), fun _ => rfl⟩

protected def bind (m : Tx σ ε α) (f : α → Tx σ ε β) : Tx σ ε β where
  exec s :=
    match m.exec s with
    | (.ok a, s') => (f a).exec s'
    | (.error e, s') => (.error e, s')
  calm db := by
    have hm := m.calm db
    generalize m.exec ⟨db, none⟩ = r at hm ⊢
    rcases r with ⟨_ | a, ⟨db', fault⟩⟩
    · exact hm
    · cases hm
      exact (f a).calm db'

instance : Monad (Tx σ ε) where
  pure := Tx.pure
  bind := Tx.bind

def raise (e : ε) : Tx σ ε α := ⟨fun s => (.error (.raised e), s), fun _ => rfl⟩

/-- The `raise` of an exception handler. -/
def rethrow (e : Failure ε) : Tx σ ε α := ⟨fun s => (.error e, s), fun _ => rfl⟩

/-- One statement. It counts down the session's fault and fails without effect at zero. -/
def statement (stmt : σ → Except ε (α × σ)) : Tx σ ε α where
  exec s :=
    if s.faultIn = some 0 then (.error .fault, s)
    else
      match stmt s.db with
      | .ok (a, db) => (.ok a, ⟨db, s.faultIn.map (· - 1)⟩)
      | .error e => (.error (.raised e), ⟨s.db, s.faultIn.map (· - 1)⟩)
  calm db := by
    simp only [reduceCtorEq, if_false]
    split <;> rfl

def read (f : σ → α) : Tx σ ε α := statement fun db => .ok (f db, db)

def write (f : σ → σ) : Tx σ ε PUnit := statement fun db => .ok (⟨⟩, f db)

/-- `transaction.atomic()`: what raises inside is rolled back and raised again. The commit, or
the release of the savepoint, is itself a statement that may fail. -/
def atomic (m : Tx σ ε α) : Tx σ ε α where
  exec s :=
    match (do let a ← m; write id; pure a : Tx σ ε α).exec s with
    | (.ok a, s') => (.ok a, s')
    | (.error e, s') => (.error e, ⟨s.db, s'.faultIn⟩)
  calm db := by
    have hm := (do let a ← m; write id; pure a : Tx σ ε α).calm db
    split <;> rename_i heq <;> rw [heq] at hm <;> exact hm

/-- `try ... except`: the handler sees the exception, faults included. -/
def rescue (m : Tx σ ε α) (handler : Failure ε → Tx σ ε α) : Tx σ ε α where
  exec s :=
    match m.exec s with
    | (.ok a, s') => (.ok a, s')
    | (.error e, s') => (handler e).exec s'
  calm db := by
    have hm := m.calm db
    generalize m.exec ⟨db, none⟩ = r at hm ⊢
    rcases r with ⟨e | _, ⟨db', fault⟩⟩
    · cases hm
      exact (handler e).calm db'
    · exact hm

/-- `for x in xs`. -/
def forEach (xs : List β) (body : β → Tx σ ε PUnit) : Tx σ ε PUnit :=
  match xs with
  | [] => pure ⟨⟩
  | x :: xs => do
    body x
    forEach xs body

/-- The result of a program that nothing disturbs, and the database it leaves. -/
def run (m : Tx σ ε α) (db : σ) : Except (Failure ε) α × σ :=
  ((m.exec ⟨db, none⟩).1, (m.exec ⟨db, none⟩).2.db)

theorem exec_bind (m : Tx σ ε α) (f : α → Tx σ ε β) (s : Session σ) :
    (m >>= f).exec s = match m.exec s with
      | (.ok a, s') => (f a).exec s'
      | (.error e, s') => (.error e, s') := rfl

theorem exec_pure (a : α) (s : Session σ) : (pure a : Tx σ ε α).exec s = (.ok a, s) := rfl

theorem exec_read (f : σ → α) (s : Session σ) :
    (read f : Tx σ ε α).exec s =
      if s.faultIn = some 0 then (.error .fault, s)
      else (.ok (f s.db), ⟨s.db, s.faultIn.map (· - 1)⟩) := rfl

theorem exec_rescue (m : Tx σ ε α) (handler : Failure ε → Tx σ ε α) (s : Session σ) :
    (rescue m handler).exec s = match m.exec s with
      | (.ok a, s') => (.ok a, s')
      | (.error e, s') => (handler e).exec s' := rfl

section Run

variable (db : σ)

theorem exec_calm (m : Tx σ ε α) : m.exec ⟨db, none⟩ = ((m.run db).1, ⟨(m.run db).2, none⟩) := by
  have hm := m.calm db
  unfold run
  generalize m.exec ⟨db, none⟩ = r at hm ⊢
  rcases r with ⟨r, ⟨db', fault⟩⟩
  cases hm
  rfl

@[simp] theorem run_pure (a : α) : (pure a : Tx σ ε α).run db = (.ok a, db) := rfl

@[simp] theorem run_raise (e : ε) :
    (raise e : Tx σ ε α).run db = (.error (.raised e), db) := rfl

@[simp] theorem run_read (f : σ → α) : (read f : Tx σ ε α).run db = (.ok (f db), db) := rfl

@[simp] theorem run_write (f : σ → σ) :
    (write f : Tx σ ε PUnit).run db = (.ok ⟨⟩, f db) := rfl

theorem run_statement (stmt : σ → Except ε (α × σ)) :
    (statement stmt).run db = match stmt db with
      | .ok (a, db') => (.ok a, db')
      | .error e => (.error (.raised e), db) := by
  simp only [run, statement, reduceCtorEq, if_false]
  split <;> rfl

theorem run_bind (m : Tx σ ε α) (f : α → Tx σ ε β) :
    (m >>= f).run db = match m.run db with
      | (.ok a, db') => (f a).run db'
      | (.error e, db') => (.error e, db') := by
  rw [run, exec_bind, exec_calm db m]
  rcases m.run db with ⟨_ | a, db'⟩ <;> rfl

theorem run_atomic (m : Tx σ ε α) :
    (atomic m).run db = match m.run db with
      | (.ok a, db') => (.ok a, db')
      | (.error e, _) => (.error e, db) := by
  have hcommit : (do let a ← m; write id; pure a : Tx σ ε α).run db = m.run db := by
    rw [run_bind]
    rcases m.run db with ⟨_ | a, db'⟩ <;> rfl
  rw [run]
  simp only [atomic]
  rw [exec_calm db (do let a ← m; write id; pure a : Tx σ ε α), hcommit]
  rcases m.run db with ⟨_ | a, db'⟩ <;> rfl

theorem run_rescue (m : Tx σ ε α) (handler : Failure ε → Tx σ ε α) :
    (rescue m handler).run db = match m.run db with
      | (.ok a, db') => (.ok a, db')
      | (.error e, db') => (handler e).run db' := by
  rw [run]
  simp only [rescue]
  rw [exec_calm db m]
  rcases m.run db with ⟨e | _, db'⟩ <;> rfl

@[simp] theorem run_forEach_nil (body : β → Tx σ ε PUnit) :
    (forEach [] body).run db = (.ok ⟨⟩, db) := rfl

theorem run_forEach_cons (x : β) (xs : List β) (body : β → Tx σ ε PUnit) :
    (forEach (x :: xs) body).run db = match (body x).run db with
      | (.ok _, db') => (forEach xs body).run db'
      | (.error e, db') => (.error e, db') := by
  rw [forEach, run_bind]
  rcases (body x).run db with ⟨_ | _, db'⟩ <;> rfl

end Run

/-- Whatever fails inside an atomic block, the database is the one before it. -/
theorem db_of_atomic_error {m : Tx σ ε α} {s s' : Session σ} {e : Failure ε}
    (h : (atomic m).exec s = (.error e, s')) : s'.db = s.db := by
  simp only [atomic] at h
  split at h
  · cases h
  · cases h
    rfl

/-- If the program returns, from any session whose database meets `P`, its result and its
database meet `Q`. -/
def Ensures (m : Tx σ ε α) (P : σ → Prop) (Q : α → σ → Prop) : Prop :=
  ∀ s a s', P s.db → m.exec s = (.ok a, s') → Q a s'.db

namespace Ensures

variable {P : σ → Prop} {Q : α → σ → Prop} {R : β → σ → Prop}

theorem pure {a : α} (h : ∀ db, P db → Q a db) : Ensures (pure a : Tx σ ε α) P Q := by
  intro s b s' hp hs
  cases hs
  exact h _ hp

theorem raise {e : ε} : Ensures (raise e : Tx σ ε α) P Q := by
  intro s a s' _ hs
  cases hs

theorem rethrow {e : Failure ε} : Ensures (rethrow e : Tx σ ε α) P Q := by
  intro s a s' _ hs
  cases hs

theorem statement {stmt : σ → Except ε (α × σ)}
    (h : ∀ db a db', P db → stmt db = .ok (a, db') → Q a db') : Ensures (statement stmt) P Q := by
  intro s a s' hp hs
  simp only [Tx.statement] at hs
  split at hs
  · cases hs
  · split at hs
    · rename_i heq
      cases hs
      exact h _ _ _ hp heq
    · cases hs

theorem read {f : σ → α} (h : ∀ db, P db → Q (f db) db) :
    Ensures (read f : Tx σ ε α) P Q := by
  apply statement
  rintro db a db' hp ⟨⟩
  exact h db hp

theorem write {f : σ → σ} {Q : PUnit → σ → Prop} (h : ∀ db, P db → Q ⟨⟩ (f db)) :
    Ensures (write f : Tx σ ε PUnit) P Q := by
  apply statement
  rintro db a db' hp ⟨⟩
  exact h db hp

theorem bind {m : Tx σ ε α} {f : α → Tx σ ε β} (hm : Ensures m P Q)
    (hf : ∀ a, Ensures (f a) (Q a) R) : Ensures (m >>= f) P R := by
  intro s b s' hp hs
  rw [exec_bind] at hs
  split at hs
  · rename_i a s₁ heq
    exact hf a s₁ b s' (hm s a s₁ hp heq) hs
  · cases hs

theorem atomic {m : Tx σ ε α} (hm : Ensures m P Q) : Ensures (atomic m) P Q := by
  intro s a s' hp hs
  simp only [Tx.atomic] at hs
  split at hs
  · rename_i b s₁ heq
    cases hs
    have hcommit : Ensures (do let a ← m; Tx.write id; Pure.pure a : Tx σ ε α) P Q :=
      hm.bind fun a => bind (Q := fun _ => Q a) (write fun _ hq => hq) fun _ => pure fun _ hq => hq
    exact hcommit s a s' hp heq
  · cases hs

/-- The handler may rely on nothing but what every reachable database keeps, `I`. -/
theorem rescue {m : Tx σ ε α} {handler : Failure ε → Tx σ ε α} {I : σ → Prop}
    (hm : Ensures m P Q) (herror : ∀ s e s', P s.db → m.exec s = (.error e, s') → I s'.db)
    (hh : ∀ e, Ensures (handler e) I Q) : Ensures (rescue m handler) P Q := by
  intro s a s' hp hs
  simp only [Tx.rescue] at hs
  split at hs
  · rename_i b s₁ heq
    cases hs
    exact hm s a s' hp heq
  · rename_i e s₁ heq
    exact hh e s₁ a s' (herror s e s₁ hp heq) hs

theorem mono {P' : σ → Prop} {Q' : α → σ → Prop} {m : Tx σ ε α} (hm : Ensures m P Q)
    (hP : ∀ db, P' db → P db) (hQ : ∀ a db, Q a db → Q' a db) : Ensures m P' Q' :=
  fun s a s' hp hs => hQ a _ (hm s a s' (hP _ hp) hs)

theorem and {Q' : α → σ → Prop} {m : Tx σ ε α} (hm : Ensures m P Q) (hm' : Ensures m P Q') :
    Ensures m P fun a db => Q a db ∧ Q' a db :=
  fun s a s' hp hs => ⟨hm s a s' hp hs, hm' s a s' hp hs⟩

theorem const_and {m : Tx σ ε α} (hm : Ensures m P Q) (R : Prop) :
    Ensures m (fun db => R ∧ P db) fun a db => R ∧ Q a db :=
  fun s a s' hp hs => ⟨hp.1, hm s a s' hp.2 hs⟩

theorem of_forall {m : Tx σ ε α} (h : ∀ db₀, P db₀ → Ensures m (· = db₀) Q) : Ensures m P Q :=
  fun s a s' hp hs => h s.db hp s a s' rfl hs

/-- The loop rule: `I done` holds when the body has run for the elements `done`. -/
theorem forEach {xs : List β} {body : β → Tx σ ε PUnit} (I : List β → σ → Prop)
    (hbody : ∀ done x rest, done ++ x :: rest = xs →
      Ensures (body x) (I done) fun _ => I (done ++ [x])) :
    Ensures (forEach xs body) (I []) fun _ => I xs := by
  suffices h : ∀ rest done, done ++ rest = xs →
      Ensures (Tx.forEach rest body) (I done) fun _ => I xs from h xs [] rfl
  intro rest
  induction rest with
  | nil =>
    rintro done hdone
    rw [List.append_nil] at hdone
    subst hdone
    exact pure fun _ h => h
  | cons x rest ih =>
    intro done hdone
    exact (hbody done x rest hdone).bind fun _ => ih (done ++ [x]) (by simpa using hdone)

end Ensures

/-- The program never changes what `f` reads, whether it returns or raises. -/
def Keeps {γ : Type*} (f : σ → γ) (m : Tx σ ε α) : Prop := ∀ s, f (m.exec s).2.db = f s.db

namespace Keeps

variable {γ : Type*} {f : σ → γ}

theorem pure {a : α} : Keeps f (pure a : Tx σ ε α) := fun _ => rfl

theorem raise {e : ε} : Keeps f (raise e : Tx σ ε α) := fun _ => rfl

theorem rethrow {e : Failure ε} : Keeps f (rethrow e : Tx σ ε α) := fun _ => rfl

theorem statement {stmt : σ → Except ε (α × σ)}
    (h : ∀ db a db', stmt db = .ok (a, db') → f db' = f db) : Keeps f (statement stmt) := by
  intro s
  simp only [Tx.statement]
  split
  · rfl
  · split
    · rename_i heq
      exact h _ _ _ heq
    · rfl

theorem read {g : σ → α} : Keeps f (read g : Tx σ ε α) := by
  apply statement
  rintro db a db' ⟨⟩
  rfl

theorem write {g : σ → σ} (h : ∀ db, f (g db) = f db) : Keeps f (write g : Tx σ ε PUnit) := by
  apply statement
  rintro db a db' ⟨⟩
  exact h db

theorem bind {m : Tx σ ε α} {k : α → Tx σ ε β} (hm : Keeps f m) (hk : ∀ a, Keeps f (k a)) :
    Keeps f (m >>= k) := by
  intro s
  rw [exec_bind]
  have hs := hm s
  generalize m.exec s = r at hs ⊢
  obtain ⟨_ | a, s'⟩ := r
  · exact hs
  · exact (hk a s').trans hs

theorem atomic {m : Tx σ ε α} (hm : Keeps f m) : Keeps f (atomic m) := by
  intro s
  have hcommit : Keeps f (do let a ← m; Tx.write id; Pure.pure a : Tx σ ε α) :=
    hm.bind fun a => bind (write fun _ => rfl) fun _ => pure
  have hs := hcommit s
  simp only [Tx.atomic]
  split
  · rename_i heq
    rwa [heq] at hs
  · rfl

theorem rescue {m : Tx σ ε α} {handler : Failure ε → Tx σ ε α} (hm : Keeps f m)
    (hh : ∀ e, Keeps f (handler e)) : Keeps f (rescue m handler) := by
  intro s
  rw [exec_rescue]
  have hs := hm s
  generalize m.exec s = r at hs ⊢
  obtain ⟨e | a, s'⟩ := r
  · exact (hh e s').trans hs
  · exact hs

theorem forEach {xs : List β} {body : β → Tx σ ε PUnit} (h : ∀ x ∈ xs, Keeps f (body x)) :
    Keeps f (forEach xs body) := by
  induction xs with
  | nil => exact pure
  | cons x xs ih => exact (h x (by simp)).bind fun _ => ih fun y hy => h y (by simp [hy])

theorem ensures {m : Tx σ ε α} (hm : Keeps f m) (P : γ → Prop) :
    Ensures m (fun db => P (f db)) fun _ db => P (f db) := by
  intro s a s' hp hs
  have hkeeps := hm s
  rw [hs] at hkeeps
  rwa [hkeeps]

theorem run {m : Tx σ ε α} (hm : Keeps f m) (db : σ) : f (m.run db).2 = f db :=
  hm ⟨db, none⟩

end Keeps

/-- From a database that meets `P` the undisturbed program returns, with `Q` of its result and its
database, or it raises what `E` allows. -/
structure Settles (m : Tx σ ε α) (P : σ → Prop) (Q : α → σ → Prop) (E : Failure ε → Prop) :
    Prop where
  returns : ∀ db, P db → ∀ a db', m.run db = (.ok a, db') → Q a db'
  raises : ∀ db, P db → ∀ e db', m.run db = (.error e, db') → E e

namespace Settles

variable {P : σ → Prop} {Q : α → σ → Prop} {R : β → σ → Prop} {E F : Failure ε → Prop}

theorem pure {a : α} (h : ∀ db, P db → Q a db) : Settles (pure a : Tx σ ε α) P Q E := by
  constructor
  · rintro db hp _ _ ⟨⟩
    exact h db hp
  · rintro db _ _ _ ⟨⟩

theorem raise {e : ε} (h : E (.raised e)) : Settles (raise e : Tx σ ε α) P Q E := by
  constructor
  · rintro db _ _ _ ⟨⟩
  · rintro db _ _ _ ⟨⟩
    exact h

theorem statement {stmt : σ → Except ε (α × σ)}
    (hok : ∀ db a db', P db → stmt db = .ok (a, db') → Q a db')
    (herror : ∀ db e, P db → stmt db = .error e → E (.raised e)) :
    Settles (statement stmt) P Q E := by
  constructor
  · intro db hp a db' hrun
    rw [run_statement] at hrun
    split at hrun
    · rename_i hstmt
      cases hrun
      exact hok db a db' hp hstmt
    · cases hrun
  · intro db hp e db' hrun
    rw [run_statement] at hrun
    split at hrun
    · cases hrun
    · rename_i hstmt
      cases hrun
      exact herror db _ hp hstmt

theorem statement_ok {stmt : σ → α × σ} (h : ∀ db, P db → Q (stmt db).1 (stmt db).2) :
    Settles (Tx.statement fun db => .ok (stmt db)) P Q E := by
  apply statement
  · intro db a db' hp hstmt
    obtain hresult := Except.ok.inj hstmt
    have hq := h db hp
    rwa [hresult] at hq
  · rintro db e _ ⟨⟩

theorem read {f : σ → α} (h : ∀ db, P db → Q (f db) db) :
    Settles (read f : Tx σ ε α) P Q E :=
  statement_ok h

theorem write {f : σ → σ} {Q : PUnit → σ → Prop} (h : ∀ db, P db → Q ⟨⟩ (f db)) :
    Settles (write f : Tx σ ε PUnit) P Q E :=
  statement_ok h

theorem bind {m : Tx σ ε α} {f : α → Tx σ ε β} (hm : Settles m P Q E)
    (hf : ∀ a, Settles (f a) (Q a) R E) : Settles (m >>= f) P R E := by
  constructor
  · intro db hp b db' hrun
    rw [run_bind] at hrun
    split at hrun
    · rename_i a db₁ hfirst
      exact (hf a).returns db₁ (hm.returns db hp a db₁ hfirst) b db' hrun
    · cases hrun
  · intro db hp e db' hrun
    rw [run_bind] at hrun
    split at hrun
    · rename_i a db₁ hfirst
      exact (hf a).raises db₁ (hm.returns db hp a db₁ hfirst) e db' hrun
    · rename_i hfirst
      cases hrun
      exact hm.raises db hp _ _ hfirst

theorem read_bind {f : σ → α} {k : α → Tx σ ε β} (h : ∀ a, Settles (k a) P R E) :
    Settles (Tx.read f >>= k) P R E :=
  bind (Q := fun _ => P) (read fun _ hp => hp) h

theorem atomic {m : Tx σ ε α} (hm : Settles m P Q E) : Settles (atomic m) P Q E := by
  constructor
  · intro db hp a db' hrun
    rw [run_atomic] at hrun
    split at hrun
    · rename_i hblock
      cases hrun
      exact hm.returns db hp _ _ hblock
    · cases hrun
  · intro db hp e db' hrun
    rw [run_atomic] at hrun
    split at hrun
    · cases hrun
    · rename_i hblock
      cases hrun
      exact hm.raises db hp _ _ hblock

/-- The handler knows what was raised, and nothing about the database. -/
theorem rescue {m : Tx σ ε α} {handler : Failure ε → Tx σ ε α} (hm : Settles m P Q F)
    (hh : ∀ e, F e → Settles (handler e) (fun _ => True) Q E) :
    Settles (rescue m handler) P Q E := by
  constructor
  · intro db hp a db' hrun
    rw [run_rescue] at hrun
    split at hrun
    · rename_i hbody
      cases hrun
      exact hm.returns db hp _ _ hbody
    · rename_i e db₁ hbody
      exact (hh e (hm.raises db hp e db₁ hbody)).returns db₁ trivial a db' hrun
  · intro db hp e db' hrun
    rw [run_rescue] at hrun
    split at hrun
    · cases hrun
    · rename_i e₁ db₁ hbody
      exact (hh e₁ (hm.raises db hp e₁ db₁ hbody)).raises db₁ trivial e db' hrun

theorem mono {P' : σ → Prop} {Q' : α → σ → Prop} {m : Tx σ ε α} (hm : Settles m P Q E)
    (hP : ∀ db, P' db → P db) (hQ : ∀ a db, Q a db → Q' a db) : Settles m P' Q' E where
  returns db hp a db' hrun := hQ a db' (hm.returns db (hP db hp) a db' hrun)
  raises db hp e db' hrun := hm.raises db (hP db hp) e db' hrun

theorem of_forall {m : Tx σ ε α} (h : ∀ db₀, P db₀ → Settles m (· = db₀) Q E) :
    Settles m P Q E where
  returns db hp a db' hrun := (h db hp).returns db rfl a db' hrun
  raises db hp e db' hrun := (h db hp).raises db rfl e db' hrun

/-- A fact that is not about the database. -/
theorem assuming {m : Tx σ ε α} {fact : Prop} (h : fact → Settles m P Q E) :
    Settles m (fun db => fact ∧ P db) Q E where
  returns db hp a db' hrun := (h hp.1).returns db hp.2 a db' hrun
  raises db hp e db' hrun := (h hp.1).raises db hp.2 e db' hrun

theorem forEach {xs : List β} {body : β → Tx σ ε PUnit}
    (h : ∀ x ∈ xs, Settles (body x) P (fun _ => P) E) :
    Settles (forEach xs body) P (fun _ => P) E := by
  induction xs with
  | nil => exact pure fun _ hp => hp
  | cons x xs ih =>
    exact (h x List.mem_cons_self).bind fun _ => ih fun y hy => h y (List.mem_cons_of_mem _ hy)

theorem run_cases {m : Tx σ ε α} (hm : Settles m P Q E) {db : σ} (hp : P db) :
    (∃ a db', m.run db = (.ok a, db') ∧ Q a db') ∨ ∃ e db', m.run db = (.error e, db') ∧ E e := by
  cases hrun : m.run db with
  | mk result db' =>
    cases result with
    | error e => exact .inr ⟨e, db', rfl, hm.raises db hp e db' hrun⟩
    | ok a => exact .inl ⟨a, db', rfl, hm.returns db hp a db' hrun⟩

end Settles

/-- From a database that meets `P`, whatever the program raises of its own and not for a fault
meets `E`. -/
def Throws (m : Tx σ ε α) (P : σ → Prop) (E : ε → Prop) : Prop :=
  ∀ s e s', P s.db → m.exec s = (.error (.raised e), s') → E e

namespace Throws

variable {P : σ → Prop} {Q : α → σ → Prop} {E F : ε → Prop}

theorem pure {a : α} : Throws (pure a : Tx σ ε α) P E := by
  rintro s e s' _ ⟨⟩

theorem raise {e : ε} (h : E e) : Throws (raise e : Tx σ ε α) P E := by
  rintro s _ s' _ ⟨⟩
  exact h

theorem rethrow {e : Failure ε} (h : ∀ x, e = .raised x → E x) :
    Throws (rethrow e : Tx σ ε α) P E := by
  rintro s x s' _ ⟨⟩
  exact h x rfl

theorem statement {stmt : σ → Except ε (α × σ)} (h : ∀ db e, P db → stmt db = .error e → E e) :
    Throws (statement stmt) P E := by
  intro s e s' hp hs
  simp only [Tx.statement] at hs
  split at hs
  · cases hs
  · split at hs
    · cases hs
    · rename_i heq
      cases hs
      exact h s.db e hp heq

theorem statement_ok {stmt : σ → α × σ} :
    Throws (Tx.statement fun db => .ok (stmt db)) P E := by
  apply statement
  rintro db e _ ⟨⟩

theorem read {f : σ → α} : Throws (read f : Tx σ ε α) P E := statement_ok

theorem write {f : σ → σ} : Throws (write f : Tx σ ε PUnit) P E := statement_ok

theorem bind {m : Tx σ ε α} {f : α → Tx σ ε β} (hm : Throws m P E) (hq : Ensures m P Q)
    (hf : ∀ a, Throws (f a) (Q a) E) : Throws (m >>= f) P E := by
  intro s e s' hp hs
  rw [exec_bind] at hs
  split at hs
  · rename_i a s₁ heq
    exact hf a s₁ e s' (hq s a s₁ hp heq) hs
  · rename_i heq
    cases hs
    exact hm s e s' hp heq

/-- Two programs that throw alike from any database. -/
theorem seq {m : Tx σ ε α} {f : α → Tx σ ε β} (hm : Throws m P E)
    (hf : ∀ a, Throws (f a) (fun _ => True) E) : Throws (m >>= f) P E :=
  hm.bind (Q := fun _ _ => True) (fun _ _ _ _ _ => trivial) hf

theorem atomic {m : Tx σ ε α} (hm : Throws m P E) : Throws (atomic m) P E := by
  intro s e s' hp hs
  simp only [Tx.atomic] at hs
  split at hs
  · cases hs
  · rename_i heq
    cases hs
    have hcommit : Throws (do let a ← m; Tx.write id; Pure.pure a : Tx σ ε α) P E :=
      hm.seq fun a => write.seq fun _ => pure
    exact hcommit s e _ hp heq

/-- The handler knows what was raised, and nothing about the database. -/
theorem rescue {m : Tx σ ε α} {handler : Failure ε → Tx σ ε α} (hm : Throws m P F)
    (hh : ∀ e, (∀ x, e = .raised x → F x) → Throws (handler e) (fun _ => True) E) :
    Throws (rescue m handler) P E := by
  intro s e s' hp hs
  rw [exec_rescue] at hs
  split at hs
  · cases hs
  · rename_i e₁ s₁ heq
    refine hh e₁ (fun x hx => ?_) s₁ e s' trivial hs
    rw [hx] at heq
    exact hm s x s₁ hp heq

theorem forEach {xs : List β} {body : β → Tx σ ε PUnit}
    (h : ∀ x ∈ xs, Throws (body x) (fun _ => True) E) : Throws (forEach xs body) P E := by
  induction xs generalizing P with
  | nil => exact pure
  | cons x xs ih =>
    have hx := h x List.mem_cons_self
    refine seq (fun s e s' _ hs => hx s e s' trivial hs) fun _ => ?_
    exact ih fun y hy => h y (List.mem_cons_of_mem _ hy)

theorem mono {P' : σ → Prop} {m : Tx σ ε α} (hm : Throws m P E) (hP : ∀ db, P' db → P db)
    (hE : ∀ e, E e → F e) : Throws m P' F :=
  fun s e s' hp hs => hE e (hm s e s' (hP _ hp) hs)

end Throws

end Tx

end Swat4Stats
