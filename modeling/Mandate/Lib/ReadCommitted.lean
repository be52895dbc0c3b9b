/-
  Concurrent transactions at the read committed level.

  A `Program` is a transaction as its statements and what it does with their
  results; a `Database` says what a query answers, what a write does, and which
  unique keys and row locks it takes.  `exec` runs a program alone.  In
  `readCommitted` any number of them interleave statement by statement: each
  statement sees what is committed and what its own transaction wrote, a write
  waits for a rival's in-flight row, and a transaction may be rolled back at any
  time.

  * `exclusive_invariant`: in-flight writes never clash, with each other or
    with what is committed;
  * `ensures_invariant`: what a program ensures on every path it ensures in
    every session;
  * `committed_ensured`: so it holds of every commit.
-/
import Mathlib.Data.List.Basic
import Mathlib.Data.Sigma.Basic
import Mathlib.Logic.Function.Basic
import Mandate.Lib.System

/-- The statements of a transaction: a query, an insert that gives way to a row
    that is there (the result says whether it was made), and a write that does
    not. -/
inductive Program {Q : Type} (A : Q → Type) (E ε α : Type) where
  | done (result : α)
  | fail (error : ε)
  | select (q : Q) (k : A q → Program A E ε α)
  | claim (e : E) (k : Bool → Program A E ε α)
  | write (e : E) (k : Program A E ε α)

/-- Tables `S` that answer queries and take writes.  A new row takes its unique
    `keys`, which a row may already have; it `needs` the rows it refers to, and
    its values have to fit their columns.  A write locks its keys and the rows
    it changes. -/
structure Database (S : Type) {Q : Type} (A : Q → Type) (E K ε : Type) where
  ask : S → (q : Q) → A q
  apply : S → E → S
  keys : E → List K
  needs : E → List K
  locks : E → List K
  fits : E → Bool
  taken : S → K → Bool
  /-- The exceptions of a taken key, a missing row and a value out of range. -/
  duplicate : ε
  missing : ε
  outOfRange : ε
  keys_locks : ∀ e, keys e ⊆ locks e
  taken_apply : ∀ s e k, taken (apply s e) k ↔ taken s k ∨ k ∈ keys e

namespace Program

variable {Q : Type} {A : Q → Type} {E ε α : Type}

/-- Several writes, one after another. -/
def writes (es : List E) (k : Program A E ε α) : Program A E ε α := es.foldr .write k

@[simp] theorem writes_nil (k : Program A E ε α) : writes [] k = k := rfl

@[simp] theorem writes_cons (e : E) (es : List E) (k : Program A E ε α) :
    writes (e :: es) k = .write e (writes es k) := rfl

/-- A program whose result is translated. -/
def map {β : Type} (f : α → β) : Program A E ε α → Program A E ε β
  | .done a => .done (f a)
  | .fail error => .fail error
  | .select q k => .select q fun a => map f (k a)
  | .claim e k => .claim e fun b => map f (k b)
  | .write e k => .write e (map f k)

end Program

namespace Database

variable {S Q : Type} {A : Q → Type} {E K ε α C : Type} (db : Database S A E K ε)

/-! ## One transaction alone -/

/-- The tables with some writes on them. -/
def view (s : S) (w : List E) : S := w.foldl db.apply s

/-- Some row has a key of the write. -/
def conflicts (s : S) (e : E) : Bool := (db.keys e).any (db.taken s)

/-- The write fits its columns, and the rows it refers to are there. -/
def accepts (s : S) (e : E) : Bool := db.fits e && (db.needs e).all (db.taken s)

/-- The exception of a write that is not accepted. -/
def rejection (e : E) : ε := if db.fits e then db.missing else db.outOfRange

/-- A program on tables that nobody else writes: its result and its writes. -/
def exec (s : S) : Program A E ε α → List E → Except ε (α × List E)
  | .done a, w => .ok (a, w)
  | .fail error, _ => .error error
  | .select q k, w => exec s (k (db.ask (db.view s w) q)) w
  | .claim e k, w =>
    if db.conflicts (db.view s w) e then exec s (k false) w
    else if db.accepts (db.view s w) e then exec s (k true) (w ++ [e])
    else .error (db.rejection e)
  | .write e k, w =>
    if db.conflicts (db.view s w) e then .error db.duplicate
    else if db.accepts (db.view s w) e then exec s k (w ++ [e])
    else .error (db.rejection e)

/-- A program run alone, and the tables after it.  An error rolls back. -/
def alone (s : S) (p : Program A E ε α) : Except ε α × S :=
  match db.exec s p [] with
  | .ok (a, w) => (.ok a, db.view s w)
  | .error error => (.error error, s)

theorem exec_select (s : S) (q : Q) (k : A q → Program A E ε α) (w : List E) :
    db.exec s (.select q k) w = db.exec s (k (db.ask (db.view s w) q)) w := rfl

theorem exec_claim_lost {s : S} {e : E} {w : List E} (k : Bool → Program A E ε α)
    (hc : db.conflicts (db.view s w) e) : db.exec s (.claim e k) w = db.exec s (k false) w :=
  if_pos hc

theorem exec_claim_won {s : S} {e : E} {w : List E} (k : Bool → Program A E ε α)
    (hc : ¬ db.conflicts (db.view s w) e) (ha : db.accepts (db.view s w) e) :
    db.exec s (.claim e k) w = db.exec s (k true) (w ++ [e]) := by
  rw [exec, if_neg hc, if_pos ha]

theorem exec_write {s : S} {e : E} {w : List E} (k : Program A E ε α)
    (hc : ¬ db.conflicts (db.view s w) e) (ha : db.accepts (db.view s w) e) :
    db.exec s (.write e k) w = db.exec s k (w ++ [e]) := by
  rw [exec, if_neg hc, if_pos ha]

/-- Writes that are all taken, one after another. -/
def admits (s : S) (w : List E) : List E → Bool
  | [] => true
  | e :: es =>
    !db.conflicts (db.view s w) e && db.accepts (db.view s w) e && admits s (w ++ [e]) es

theorem admits_append (s : S) (es' : List E) : ∀ es w : List E,
    db.admits s w (es ++ es') = (db.admits s w es && db.admits s (w ++ es) es')
  | [], w => by rw [List.append_nil]; rfl
  | e :: es, w => by
    rw [List.cons_append, admits, admits, admits_append s es' es, List.append_assoc,
      List.singleton_append]
    simp only [Bool.and_assoc]

theorem exec_writes {s : S} {k : Program A E ε α} :
    ∀ {es w : List E}, db.admits s w es → db.exec s (.writes es k) w = db.exec s k (w ++ es)
  | [], w, _ => by rw [List.append_nil]; rfl
  | e :: es, w, h => by
    simp only [admits, Bool.and_eq_true, Bool.not_eq_true'] at h
    rw [Program.writes_cons, exec_write db _ (by simp [h.1.1]) h.1.2, exec_writes h.2,
      List.append_assoc, List.singleton_append]

theorem admits_of_exec {s : S} {k : Program A E ε α} {r : α × List E} :
    ∀ {es w : List E}, db.exec s (.writes es k) w = .ok r → db.admits s w es
  | [], _, _ => rfl
  | e :: es, w, h => by
    rw [Program.writes_cons, exec] at h
    split_ifs at h with hc ha
    simp only [admits, Bool.and_eq_true, Bool.not_eq_true']
    exact ⟨⟨Bool.eq_false_iff.2 hc, ha⟩, admits_of_exec h⟩

/-- A translated result. -/
theorem exec_map {β : Type} (s : S) (f : α → β) : ∀ (p : Program A E ε α) (w : List E),
    db.exec s (p.map f) w = (db.exec s p w).map fun r => (f r.1, r.2)
  | .done _, _ => rfl
  | .fail _, _ => rfl
  | .select q k, w => exec_map s f (k _) w
  | .claim e k, w => by
    rw [Program.map, exec, exec]
    split_ifs
    · exact exec_map s f (k false) w
    · exact exec_map s f (k true) (w ++ [e])
    · rfl
  | .write e k, w => by
    rw [Program.map, exec, exec]
    split_ifs
    · rfl
    · exact exec_map s f k (w ++ [e])
    · rfl

theorem alone_map {β : Type} (s : S) (f : α → β) (p : Program A E ε α) :
    db.alone s (p.map f) = ((db.alone s p).1.map f, (db.alone s p).2) := by
  rw [alone, alone, exec_map]
  cases db.exec s p [] with
  | error error => rfl
  | ok result => rfl

theorem alone_ok {s s' : S} {p : Program A E ε α} {a : α} (h : db.alone s p = (.ok a, s')) :
    ∃ w, db.exec s p [] = .ok (a, w) ∧ db.view s w = s' := by
  unfold alone at h
  cases he : db.exec s p [] with
  | error error => simp [he] at h
  | ok result =>
    obtain ⟨b, w⟩ := result
    simp only [he, Prod.mk.injEq, Except.ok.injEq] at h
    exact ⟨w, by rw [h.1], h.2⟩

theorem alone_of_exec {s : S} {p : Program A E ε α} {a : α} {w : List E}
    (h : db.exec s p [] = .ok (a, w)) : db.alone s p = (.ok a, db.view s w) := by
  rw [alone, h]

theorem alone_of_error {s : S} {p : Program A E ε α} {error : ε}
    (h : db.exec s p [] = .error error) : db.alone s p = (.error error, s) := by
  rw [alone, h]

@[simp] theorem view_nil (s : S) : db.view s [] = s := rfl

@[simp] theorem view_append (s : S) (w w' : List E) :
    db.view s (w ++ w') = db.view (db.view s w) w' := List.foldl_append

@[simp] theorem view_cons (s : S) (e : E) (w : List E) :
    db.view s (e :: w) = db.view (db.apply s e) w := rfl

theorem taken_view (s : S) (w : List E) (k : K) :
    db.taken (db.view s w) k ↔ db.taken s k ∨ ∃ e ∈ w, k ∈ db.keys e := by
  induction w generalizing s with
  | nil => simp
  | cons e w ih =>
    rw [view_cons, ih, db.taken_apply]
    simp only [List.mem_cons, exists_eq_or_imp, or_assoc]

theorem conflicts_iff (s : S) (e : E) : db.conflicts s e ↔ ∃ k ∈ db.keys e, db.taken s k := by
  simp [conflicts]

theorem conflicts_view (s : S) (w : List E) (e : E) :
    db.conflicts (db.view s w) e ↔
      db.conflicts s e ∨ ∃ k ∈ db.keys e, ∃ e' ∈ w, k ∈ db.keys e' := by
  simp only [conflicts_iff, taken_view]
  constructor
  · rintro ⟨k, hk, h | h⟩
    · exact .inl ⟨k, hk, h⟩
    · exact .inr ⟨k, hk, h⟩
  · rintro (⟨k, hk, h⟩ | ⟨k, hk, h⟩)
    · exact ⟨k, hk, .inl h⟩
    · exact ⟨k, hk, .inr h⟩

theorem accepts_iff (s : S) (e : E) :
    db.accepts s e ↔ db.fits e ∧ ∀ k ∈ db.needs e, db.taken s k := by
  simp [accepts]

/-- More rows take no key back and remove no row that is needed. -/
theorem conflicts_later (s : S) (ws w : List E) (e : E) (h : db.conflicts (db.view s w) e) :
    db.conflicts (db.view (db.view s ws) w) e := by
  simp only [conflicts_iff, taken_view] at h ⊢
  obtain ⟨k, hk, h | h⟩ := h
  · exact ⟨k, hk, .inl (.inl h)⟩
  · exact ⟨k, hk, .inr h⟩

theorem accepts_later (s : S) (ws w : List E) (e : E) (h : db.accepts (db.view s w) e) :
    db.accepts (db.view (db.view s ws) w) e := by
  simp only [accepts_iff, taken_view] at h ⊢
  exact ⟨h.1, fun k hk => (h.2 k hk).imp .inl id⟩

/-- A write that was taken clashes with no row. -/
theorem conflicts_of_admits {s : S} {e : E} : ∀ {es w : List E}, db.admits s w es → e ∈ es →
    db.conflicts s e = false
  | e' :: es, w, h, hm => by
    simp only [admits, Bool.and_eq_true, Bool.not_eq_true'] at h
    rcases List.mem_cons.1 hm with rfl | hm
    · rw [Bool.eq_false_iff] at h ⊢
      exact fun hc => h.1.1 ((db.conflicts_view s w e).2 (.inl hc))
    · exact conflicts_of_admits h.2 hm

/-! ## Sessions -/

/-- What a query was answered, after some writes of its own transaction. -/
structure Read {Q : Type} (A : Q → Type) (E : Type) where
  pending : List E
  query : Q
  answer : A query

/-- A transaction in flight: what is left of its program, its writes so far,
    and what its queries were answered. -/
structure Session {Q : Type} (A : Q → Type) (E ε α C : Type) where
  txn : C
  program : Program A E ε α
  pending : List E := []
  reads : List (Read A E) := []

/-- The next statement of a session, on the committed tables; `none` when it
    has to wait, fails or is at its end. -/
def advance (s : S) (free : E → Bool) (x : Session A E ε α C) : Option (Session A E ε α C) :=
  match x.program with
  | .done _ | .fail _ => none
  | .select q k =>
    let a := db.ask (db.view s x.pending) q
    some { x with program := k a, reads := x.reads ++ [⟨x.pending, q, a⟩] }
  | .claim e k =>
    if db.conflicts (db.view s x.pending) e then some { x with program := k false }
    else if db.accepts (db.view s x.pending) e ∧ free e then
      some { x with program := k true, pending := x.pending ++ [e] }
    else none
  | .write e k =>
    if db.conflicts (db.view s x.pending) e then none
    else if db.accepts (db.view s x.pending) e ∧ free e then
      some { x with program := k, pending := x.pending ++ [e] }
    else none

/-- What one statement does to a session. -/
inductive Advances (s : S) (free : E → Bool) (x : Session A E ε α C) : Session A E ε α C → Prop
  | selected (q : Q) (k : A q → Program A E ε α) (hp : x.program = .select q k) :
      Advances s free x { x with
        program := k (db.ask (db.view s x.pending) q)
        reads := x.reads ++ [⟨x.pending, q, db.ask (db.view s x.pending) q⟩] }
  | lost (e : E) (k : Bool → Program A E ε α) (hp : x.program = .claim e k)
      (hc : db.conflicts (db.view s x.pending) e) :
      Advances s free x { x with program := k false }
  | won (e : E) (k : Bool → Program A E ε α) (hp : x.program = .claim e k)
      (hc : ¬ db.conflicts (db.view s x.pending) e) (ha : db.accepts (db.view s x.pending) e)
      (hf : free e) :
      Advances s free x { x with program := k true, pending := x.pending ++ [e] }
  | wrote (e : E) (k : Program A E ε α) (hp : x.program = .write e k)
      (hc : ¬ db.conflicts (db.view s x.pending) e) (ha : db.accepts (db.view s x.pending) e)
      (hf : free e) :
      Advances s free x { x with program := k, pending := x.pending ++ [e] }

theorem advances_of_eq {s : S} {free : E → Bool} {x x' : Session A E ε α C}
    (h : db.advance s free x = some x') : db.Advances s free x x' := by
  unfold advance at h
  cases hp : x.program with
  | done a => simp [hp] at h
  | fail error => simp [hp] at h
  | select q k =>
    simp only [hp, Option.some.injEq] at h
    exact h ▸ .selected q k hp
  | claim e k =>
    simp only [hp] at h
    split_ifs at h with hc hf
    · exact Option.some.inj h ▸ .lost e k hp hc
    · exact Option.some.inj h ▸ .won e k hp hc hf.1 hf.2
  | write e k =>
    simp only [hp] at h
    split_ifs at h with hc hf
    exact Option.some.inj h ▸ .wrote e k hp hc hf.1 hf.2

/-! ## Interleavings -/

/-- The committed tables, the sessions in flight, and the transactions whose
    result was `ok`, in the order they committed. -/
structure State (S : Type) {Q : Type} (A : Q → Type) (E ε α C : Type) where
  committed : S
  sessions : ℕ → Option (Session A E ε α C)
  next : ℕ
  log : List C

/-- No session in flight. -/
def State.idle (s : S) : State S A E ε α C := ⟨s, fun _ => none, 0, []⟩

/-- The state with another session, or none, at `i`. -/
def State.put (σ : State S A E ε α C) (i : ℕ) (x : Option (Session A E ε α C)) :
    State S A E ε α C :=
  { σ with sessions := Function.update σ.sessions i x }

variable [DecidableEq K]

/-- Two writes need a common lock. -/
def clash (e e' : E) : Bool := (db.locks e).any fun k => k ∈ db.locks e'

/-- No other session holds a lock that the write needs. -/
def State.free (σ : State S A E ε α C) (i : ℕ) (e : E) : Bool :=
  (List.range σ.next).all fun j =>
    j = i || (σ.sessions j).all fun x => x.pending.all fun e' => !db.clash e e'

/-- The state after a session that reached its end has committed. -/
def State.commit (ok : α → Bool) (σ : State S A E ε α C) (i : ℕ) (x : Session A E ε α C) (a : α) :
    State S A E ε α C :=
  { σ.put i none with
    committed := db.view σ.committed x.pending
    log := if ok a then σ.log ++ [x.txn] else σ.log }

section
variable (code : C → Program A E ε α) (ok : α → Bool)

/-- One step of the interleaving: a transaction begins, a session runs a
    statement that it `may` run, commits, or is rolled back. -/
inductive Step (begins : C → Prop) (may : S → Session A E ε α C → Prop) (σ : State S A E ε α C) :
    State S A E ε α C → Prop
  | start (c : C) (hc : begins c) :
      Step begins may σ { σ.put σ.next (some ⟨c, code c, [], []⟩) with next := σ.next + 1 }
  | advance (i : ℕ) (x x' : Session A E ε α C) (hx : σ.sessions i = some x)
      (hm : may σ.committed x) (ha : db.advance σ.committed (σ.free db i) x = some x') :
      Step begins may σ (σ.put i (some x'))
  | commit (i : ℕ) (x : Session A E ε α C) (a : α) (hx : σ.sessions i = some x)
      (hp : x.program = .done a) : Step begins may σ (σ.commit db ok i x a)
  | rollback (i : ℕ) : Step begins may σ (σ.put i none)

/-- The interleavings of the transactions that may begin, on tables `s`. -/
def readCommitted (begins : C → Prop) (may : S → Session A E ε α C → Prop) (s : S) :
    System (State S A E ε α C) where
  init σ := σ = .idle s
  step := Step db code ok begins may

end

/-! ## In-flight writes are apart -/

/-- In-flight writes clash neither with those of another session nor with the
    committed rows. -/
structure Exclusive (σ : State S A E ε α C) : Prop where
  bound : ∀ i, σ.next ≤ i → σ.sessions i = none
  apart : ∀ i j x y, i ≠ j → σ.sessions i = some x → σ.sessions j = some y →
    ∀ e ∈ x.pending, ∀ e' ∈ y.pending, db.clash e e' = false
  fresh : ∀ i x, σ.sessions i = some x → ∀ e ∈ x.pending, db.conflicts σ.committed e = false

omit [DecidableEq K] in
theorem sessions_put {σ : State S A E ε α C} {i j : ℕ} {x : Option (Session A E ε α C)} :
    (σ.put i x).sessions j = if j = i then x else σ.sessions j := Function.update_apply ..

theorem clash_comm (e e' : E) : db.clash e e' = db.clash e' e := by
  rw [Bool.eq_iff_iff]
  simp only [clash, List.any_eq_true, decide_eq_true_eq]
  exact ⟨fun ⟨k, h, h'⟩ => ⟨k, h', h⟩, fun ⟨k, h, h'⟩ => ⟨k, h', h⟩⟩

theorem clash_of_key {e e' : E} {k : K} (h : k ∈ db.keys e) (h' : k ∈ db.keys e') :
    db.clash e e' = true := by
  simp only [clash, List.any_eq_true, decide_eq_true_eq]
  exact ⟨k, db.keys_locks e h, db.keys_locks e' h'⟩

theorem free_apart {σ : State S A E ε α C} {i j : ℕ} {e : E} {y : Session A E ε α C}
    (hb : ∀ i, σ.next ≤ i → σ.sessions i = none) (hf : σ.free db i e = true) (hj : j ≠ i)
    (hy : σ.sessions j = some y) : ∀ e' ∈ y.pending, db.clash e e' = false := by
  have hlt : j < σ.next := by
    by_contra hn
    rw [hb j (Nat.not_lt.1 hn)] at hy
    cases hy
  have h := List.all_eq_true.1 hf j (List.mem_range.2 hlt)
  simpa [hj, hy] using h

/-- A session that only drops writes, or adds one that is free and fresh, stays
    apart. -/
theorem Exclusive.put {σ : State S A E ε α C} (h : db.Exclusive σ) {i : ℕ} (hi : i < σ.next)
    {x : Session A E ε α C}
    (ha : ∀ j y, j ≠ i → σ.sessions j = some y →
      ∀ e ∈ x.pending, ∀ e' ∈ y.pending, db.clash e e' = false)
    (hf : ∀ e ∈ x.pending, db.conflicts σ.committed e = false) :
    db.Exclusive (σ.put i (some x)) where
  bound j hj := by
    rw [sessions_put, if_neg (by rintro rfl; exact absurd hi (Nat.not_lt.2 hj))]
    exact h.bound j hj
  apart j k y z hjk hy hz := by
    rw [sessions_put] at hy hz
    split_ifs at hy hz with hji hki hki
    · exact absurd (hji.trans hki.symm) hjk
    · cases hy
      exact ha k z hki hz
    · cases hz
      intro e he e' he'
      rw [clash_comm]
      exact ha j y hji hy e' he' e he
    · exact h.apart j k y z hjk hy hz
  fresh j y hy := by
    rw [sessions_put] at hy
    split_ifs at hy
    · cases hy
      exact hf
    · exact h.fresh j y hy

theorem Exclusive.drop {σ : State S A E ε α C} (h : db.Exclusive σ) (i : ℕ) :
    db.Exclusive (σ.put i none) where
  bound j hj := by
    rw [sessions_put]
    split_ifs
    · rfl
    · exact h.bound j hj
  apart j k y z hjk hy hz := by
    rw [sessions_put] at hy hz
    split_ifs at hy hz
    exact h.apart j k y z hjk hy hz
  fresh j y hy := by
    rw [sessions_put] at hy
    split_ifs at hy
    exact h.fresh j y hy

theorem Exclusive.lt {σ : State S A E ε α C} (h : db.Exclusive σ) {i : ℕ}
    {x : Session A E ε α C} (hx : σ.sessions i = some x) : i < σ.next := by
  by_contra hn
  rw [h.bound i (Nat.not_lt.1 hn)] at hx
  cases hx

theorem Exclusive.advance {σ : State S A E ε α C} (h : db.Exclusive σ) {i : ℕ}
    {x x' : Session A E ε α C} (hx : σ.sessions i = some x)
    (ha : db.Advances σ.committed (σ.free db i) x x') : db.Exclusive (σ.put i (some x')) := by
  have hold : ∀ j y, j ≠ i → σ.sessions j = some y →
      ∀ e ∈ x.pending, ∀ e' ∈ y.pending, db.clash e e' = false :=
    fun j y hj hy => h.apart i j x y (Ne.symm hj) hx hy
  -- a new write is free of rivals and fresh on the committed tables
  have hnew : ∀ e, db.conflicts (db.view σ.committed x.pending) e = false →
      σ.free db i e = true → db.Exclusive (σ.put i (some { x with
        program := x'.program, pending := x.pending ++ [e] })) := by
    intro e hc hf
    refine h.put db (h.lt db hx) (fun j y hj hy e₁ h₁ => ?_) fun e₁ h₁ => ?_
    · rcases List.mem_append.1 h₁ with h₁ | h₁
      · exact hold j y hj hy e₁ h₁
      · rw [List.mem_singleton.1 h₁]
        exact db.free_apart h.bound hf hj hy
    · rcases List.mem_append.1 h₁ with h₁ | h₁
      · exact h.fresh i x hx e₁ h₁
      · rw [List.mem_singleton.1 h₁]
        have := (db.conflicts_view σ.committed x.pending e).not.1 (by rw [hc]; simp)
        exact Bool.eq_false_iff.2 fun ht => this (.inl ht)
  cases ha with
  | selected q k hp => exact h.put db (h.lt db hx) hold (h.fresh i x hx)
  | lost e k hp hc => exact h.put db (h.lt db hx) hold (h.fresh i x hx)
  | won e k hp hc _ hf => exact hnew e (Bool.eq_false_iff.2 hc) hf
  | wrote e k hp hc _ hf => exact hnew e (Bool.eq_false_iff.2 hc) hf

/-- What a rival commits does not take the keys of an in-flight write. -/
theorem Exclusive.fresh_commit {σ : State S A E ε α C} (h : db.Exclusive σ) {i j : ℕ}
    (hij : i ≠ j) {x y : Session A E ε α C} (hx : σ.sessions i = some x)
    (hy : σ.sessions j = some y) {e : E} (he : e ∈ x.pending) :
    db.conflicts (db.view σ.committed y.pending) e = false := by
  rw [Bool.eq_false_iff]
  intro hc
  rcases (db.conflicts_view _ _ _).1 hc with hc | ⟨k, hk, e', he', hk'⟩
  · rw [h.fresh i x hx e he] at hc
    cases hc
  · have := h.apart i j x y hij hx hy e he e' he'
    rw [db.clash_of_key hk hk'] at this
    cases this

theorem exclusive_invariant (code : C → Program A E ε α) (ok : α → Bool) (begins : C → Prop)
    (may : S → Session A E ε α C → Prop) (s : S) :
    (db.readCommitted code ok begins may s).Invariant db.Exclusive where
  init := by
    rintro σ rfl
    exact ⟨fun _ _ => rfl, (by rintro i j x y - ⟨⟩), by rintro i x ⟨⟩⟩
  step := by
    rintro σ σ' - h hstep
    cases hstep with
    | start c hc =>
      have hnone := h.bound σ.next (Nat.le_refl _)
      refine ⟨fun j hj => ?_, fun j k y z hjk hy hz => ?_, fun j y hy => ?_⟩
      · have hj' : σ.next + 1 ≤ j := hj
        simp only [sessions_put, if_neg (show j ≠ σ.next by omega)]
        exact h.bound j (by omega)
      · simp only [sessions_put] at hy hz
        split_ifs at hy hz with hji hki hki
        · exact absurd (hji.trans hki.symm) hjk
        · cases hy; simp
        · cases hz; simp
        · exact h.apart j k y z hjk hy hz
      · simp only [sessions_put] at hy
        split_ifs at hy
        · cases hy; simp
        · exact h.fresh j y hy
    | advance i x x' hx hm ha => exact h.advance db hx (db.advances_of_eq ha)
    | commit i x a hx hp =>
      refine ⟨(h.drop db i).bound, (h.drop db i).apart, fun j y hy e he => ?_⟩
      have hy' : (σ.put i none).sessions j = some y := hy
      rw [sessions_put] at hy'
      split_ifs at hy' with hji
      exact h.fresh_commit db hji hy' hx he
    | rollback i => exact h.drop db i

/-! ## What a program ensures -/

section
omit [DecidableEq K]

/-- On every path whose statements keep the `rule`, whatever the queries are
    answered and whichever claims are won, the result, the answers and the
    writes at the end satisfy `P`. -/
inductive Ensures (rule : S → List E → Program A E ε α → Prop)
    (P : α → List (Read A E) → List E → Prop) :
    Program A E ε α → List (Read A E) → List E → Prop
  | done {a : α} {r : List (Read A E)} {w : List E} (h : P a r w) : Ensures rule P (.done a) r w
  | fail {error : ε} {r : List (Read A E)} {w : List E} : Ensures rule P (.fail error) r w
  | select {q : Q} {k : A q → Program A E ε α} {r : List (Read A E)} {w : List E}
      (h : ∀ s, rule s w (.select q k) →
        Ensures rule P (k (db.ask (db.view s w) q)) (r ++ [⟨w, q, db.ask (db.view s w) q⟩]) w) :
      Ensures rule P (.select q k) r w
  | claim {e : E} {k : Bool → Program A E ε α} {r : List (Read A E)} {w : List E}
      (ht : Ensures rule P (k true) r (w ++ [e]))
      (hf : ∀ s, rule s w (.claim e k) → db.conflicts (db.view s w) e →
        Ensures rule P (k false) r w) : Ensures rule P (.claim e k) r w
  | write {e : E} {k : Program A E ε α} {r : List (Read A E)} {w : List E}
      (h : Ensures rule P k r (w ++ [e])) : Ensures rule P (.write e k) r w

variable {db}

theorem Ensures.writes {rule : S → List E → Program A E ε α → Prop}
    {P : α → List (Read A E) → List E → Prop} {k : Program A E ε α} {r : List (Read A E)} :
    ∀ {es w : List E}, db.Ensures rule P k r (w ++ es) → db.Ensures rule P (.writes es k) r w
  | [], w, h => by rwa [List.append_nil] at h
  | e :: es, w, h => .write (Ensures.writes (by rwa [List.append_assoc, List.singleton_append]))

theorem Ensures.advance {rule : S → List E → Program A E ε α → Prop}
    {P : α → List (Read A E) → List E → Prop} {s : S} {free : E → Bool}
    {x x' : Session A E ε α C} (h : db.Ensures rule P x.program x.reads x.pending)
    (hr : rule s x.pending x.program) (ha : db.Advances s free x x') :
    db.Ensures rule P x'.program x'.reads x'.pending := by
  cases ha with
  | selected q k hp =>
    rw [hp] at h hr
    cases h with
    | select h => exact h s hr
  | lost e k hp hc =>
    rw [hp] at h hr
    cases h with
    | claim ht hf => exact hf s hr hc
  | won e k hp hc _ hf =>
    rw [hp] at h
    cases h with
    | claim ht hf => exact ht
  | wrote e k hp hc _ hf =>
    rw [hp] at h
    cases h with
    | write h => exact h

theorem Ensures.of_done {rule : S → List E → Program A E ε α → Prop}
    {P : α → List (Read A E) → List E → Prop} {a : α} {r : List (Read A E)} {w : List E}
    (h : db.Ensures rule P (.done a) r w) : P a r w := by
  cases h with
  | done h => exact h

/-- What holds of all results is ensured. -/
theorem Ensures.of_forall {rule : S → List E → Program A E ε α → Prop}
    {P : α → List (Read A E) → List E → Prop} (h : ∀ a r w, P a r w) (p : Program A E ε α) :
    ∀ r w, db.Ensures rule P p r w := by
  induction p with
  | done a => exact fun r w => .done (h a r w)
  | fail error => exact fun r w => .fail
  | select q k ih => exact fun r w => .select fun s _ => ih _ _ _
  | claim e k ih => exact fun r w => .claim (ih true _ _) fun _ _ _ => ih false _ _
  | write e k ih => exact fun r w => .write (ih _ _)

/-- What is ensured of a result is ensured of its translation. -/
theorem Ensures.map {β : Type} {f : α → β} {rule : S → List E → Program A E ε β → Prop}
    {rule' : S → List E → Program A E ε α → Prop} {P : α → List (Read A E) → List E → Prop}
    {P' : β → List (Read A E) → List E → Prop} {p : Program A E ε α} {r : List (Read A E)}
    {w : List E} (h : db.Ensures rule' P p r w) (hP : ∀ a r w, P a r w → P' (f a) r w)
    (hr : ∀ s w p, rule s w (.map f p) → rule' s w p) : db.Ensures rule P' (p.map f) r w := by
  induction h with
  | done h => exact .done (hP _ _ _ h)
  | fail => exact .fail
  | select _ ih => exact .select fun s hs => ih s (hr _ _ _ hs)
  | claim _ _ iht ihf => exact .claim iht fun s hs hc => ihf s (hr _ _ _ hs) hc
  | write _ ih => exact .write ih

/-- A program that runs alone and keeps the rule ends as it ensures. -/
theorem Ensures.exec {rule : S → List E → Program A E ε α → Prop}
    {P : α → List (Read A E) → List E → Prop} {s : S} {a : α} {w' : List E}
    {p : Program A E ε α} {r : List (Read A E)} {w : List E} (h : db.Ensures rule P p r w)
    (hr : ∀ w p, rule s w p) (he : db.exec s p w = .ok (a, w')) : ∃ r', P a r' w' := by
  induction h with
  | done h => cases he; exact ⟨_, h⟩
  | fail => cases he
  | select _ ih => exact ih s (hr _ _) he
  | claim _ _ iht ihf =>
    rw [Database.exec] at he
    split_ifs at he with hc
    · exact ihf s (hr _ _) hc he
    · exact iht he
  | write _ ih =>
    rw [Database.exec] at he
    split_ifs at he
    exact ih he

end

variable {db}

/-- Every session ensures what its program ensures. -/
theorem ensures_invariant {code : C → Program A E ε α} {ok : α → Bool} {begins : C → Prop}
    {may : S → Session A E ε α C → Prop} (rule : C → S → List E → Program A E ε α → Prop)
    {P : C → α → List (Read A E) → List E → Prop}
    (hmay : ∀ s x, may s x → rule x.txn s x.pending x.program)
    (hcode : ∀ c, begins c → db.Ensures (rule c) (P c) (code c) [] []) (s : S) :
    (db.readCommitted code ok begins may s).Invariant fun σ =>
      ∀ i x, σ.sessions i = some x → begins x.txn ∧
        db.Ensures (rule x.txn) (P x.txn) x.program x.reads x.pending where
  init := by
    rintro σ rfl i x ⟨⟩
  step := by
    rintro σ σ' - h hstep j y hy
    cases hstep with
    | start c hc =>
      simp only [sessions_put] at hy
      split_ifs at hy
      · cases hy
        exact ⟨hc, hcode c hc⟩
      · exact h j y hy
    | advance i x x' hx hm ha =>
      rw [sessions_put] at hy
      split_ifs at hy
      · obtain rfl : x' = y := Option.some.inj hy
        have hadv := db.advances_of_eq ha
        have htxn : x'.txn = x.txn := by cases hadv <;> rfl
        rw [htxn]
        exact ⟨(h i x hx).1, (h i x hx).2.advance (hmay _ _ hm) hadv⟩
      · exact h j y hy
    | commit i x a hx hp =>
      have hy' : (σ.put i none).sessions j = some y := hy
      rw [sessions_put] at hy'
      split_ifs at hy'
      exact h j y hy'
    | rollback i =>
      rw [sessions_put] at hy
      split_ifs at hy
      exact h j y hy

/-- A property of the tables that every ensured commit keeps is kept by runs. -/
theorem committed_ensured {code : C → Program A E ε α} {ok : α → Bool} {begins : C → Prop}
    {may : S → Session A E ε α C → Prop} (rule : C → S → List E → Program A E ε α → Prop)
    {P : C → α → List (Read A E) → List E → Prop}
    (hmay : ∀ s x, may s x → rule x.txn s x.pending x.program)
    (hcode : ∀ c, begins c → db.Ensures (rule c) (P c) (code c) [] []) {s : S} {I : S → Prop}
    (hs : I s)
    (hI : ∀ s c a r w, I s → (∀ e ∈ w, db.conflicts s e = false) → P c a r w → I (db.view s w)) :
    (db.readCommitted code ok begins may s).Invariant fun σ => I σ.committed where
  init := by
    rintro σ rfl
    exact hs
  step := by
    rintro σ σ' hr h hstep
    cases hstep with
    | start c hc => exact h
    | advance i x x' hx hm ha => exact h
    | commit i x a hx hp =>
      have hfresh := ((exclusive_invariant db code ok begins may s).holds hr).fresh i x hx
      have hx := ((ensures_invariant _ hmay hcode s).holds hr i x hx).2
      rw [hp] at hx
      exact hI σ.committed x.txn a x.reads x.pending h hfresh hx.of_done
    | rollback i => exact h

end Database
