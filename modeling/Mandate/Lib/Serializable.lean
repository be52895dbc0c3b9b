/-
  When interleavings of optimistic transactions are serial.

  A session whose answers still hold could have run alone on the committed
  tables (`Replays`).  A database is `Versioned` by a head query when a write
  takes a unique slot of the version that its transaction asked for: then no
  rival commits between the head query and the commit.  So a transaction whose
  answers hold when it asks for the head commits as if it ran alone there
  (`serializable`).
-/
import Mandate.Lib.ReadCommitted

namespace Database

variable {S Q : Type} {A : Q → Type} {E K ε α C : Type} {db : Database S A E K ε}

/-! ## Replaying a session -/

variable (db) in
/-- The answers of a session, given again. -/
def Session.Holds (s : S) (x : Session A E ε α C) : Prop :=
  ∀ r ∈ x.reads, db.ask (db.view s r.pending) r.query = r.answer

variable (db) in
/-- On tables that only grew since, where its answers hold and its writes are
    fresh, the session's program would get to where the session is. -/
def Replays (code : C → Program A E ε α) (s : S) (x : Session A E ε α C) : Prop :=
  ∀ ws, x.Holds db (db.view s ws) →
    (∀ e ∈ x.pending, db.conflicts (db.view s ws) e = false) →
    db.exec (db.view s ws) (code x.txn) [] = db.exec (db.view s ws) x.program x.pending

variable {code : C → Program A E ε α} {ok : α → Bool} {begins : C → Prop}
  {may : S → Session A E ε α C → Prop}

/-- A write that was made replays. -/
theorem conflicts_replayed {s : S} {w ws : List E} {e : E}
    (hc : ¬ db.conflicts (db.view s w) e) (hf : db.conflicts (db.view s ws) e = false) :
    ¬ db.conflicts (db.view (db.view s ws) w) e := by
  intro h
  rcases (db.conflicts_view _ _ _).1 h with h | h
  · rw [hf] at h
    cases h
  · exact hc ((db.conflicts_view _ _ _).2 (.inr h))

theorem Replays.advance {s : S} {free : E → Bool} {x x' : Session A E ε α C}
    (h : Replays db code s x) (ha : db.Advances s free x x') : Replays db code s x' := by
  intro ws hr hw
  have hold : x.Holds db (db.view s ws) → (∀ e ∈ x.pending, db.conflicts (db.view s ws) e = false) →
      _ := h ws
  cases ha with
  | selected q k hp =>
    have hr' : x.Holds db (db.view s ws) := fun r hm => hr r (List.mem_append_left _ hm)
    have hlast := hr ⟨x.pending, q, db.ask (db.view s x.pending) q⟩ (by simp)
    rw [hold hr' hw, hp, exec]
    exact congrArg (fun a => db.exec _ (k a) _) hlast
  | lost e k hp hc =>
    rw [hold hr hw, hp, exec, if_pos (db.conflicts_later s ws x.pending e hc)]
  | won e k hp hc hacc hf =>
    have hw' := fun e' he' => hw e' (List.mem_append_left _ he')
    rw [hold hr hw', hp, exec, if_neg (conflicts_replayed hc (hw e (by simp))),
      if_pos (db.accepts_later s ws x.pending e hacc)]
  | wrote e k hp hc hacc hf =>
    have hw' := fun e' he' => hw e' (List.mem_append_left _ he')
    rw [hold hr hw', hp, exec, if_neg (conflicts_replayed hc (hw e (by simp))),
      if_pos (db.accepts_later s ws x.pending e hacc)]

theorem Replays.commit {s : S} {x : Session A E ε α C} (h : Replays db code s x) (w : List E) :
    Replays db code (db.view s w) x := by
  intro ws
  rw [← db.view_append]
  exact h (w ++ ws)

variable [DecidableEq K]

variable (db code ok begins may) in
theorem replays_invariant (s : S) :
    (db.readCommitted code ok begins may s).Invariant fun σ =>
      ∀ i x, σ.sessions i = some x → Replays db code σ.committed x where
  init := by
    rintro σ rfl i x ⟨⟩
  step := by
    rintro σ σ' - h hstep j y hy
    cases hstep with
    | start c hc =>
      simp only [sessions_put] at hy
      split_ifs at hy
      · cases hy
        exact fun _ _ _ => rfl
      · exact h j y hy
    | advance i x x' hx hm ha =>
      rw [sessions_put] at hy
      split_ifs at hy
      · obtain rfl : x' = y := Option.some.inj hy
        exact (h i x hx).advance (db.advances_of_eq ha)
      · exact h j y hy
    | commit i x a hx hp =>
      have hy' : (σ.put i none).sessions j = some y := hy
      rw [sessions_put] at hy'
      split_ifs at hy'
      exact (h j y hy').commit x.pending
    | rollback i =>
      rw [sessions_put] at hy
      split_ifs at hy
      exact h j y hy

omit [DecidableEq K] in
/-- A session at its end whose answers hold ran as it would alone. -/
theorem Replays.alone {s : S} {x : Session A E ε α C} {a : α} (h : Replays db code s x)
    (hr : x.Holds db s) (hw : ∀ e ∈ x.pending, db.conflicts s e = false)
    (hp : x.program = .done a) : db.alone s (code x.txn) = (.ok a, db.view s x.pending) := by
  have he := h [] hr hw
  rw [view_nil, hp, exec] at he
  rw [Database.alone, he]

/-! ## Running alone is an interleaving -/

omit [DecidableEq K] in
theorem sessions_put_self {σ : State S A E ε α C} {i : ℕ} {x : Option (Session A E ε α C)} :
    (σ.put i x).sessions i = x := Function.update_self ..

omit [DecidableEq K] in
theorem put_put (σ : State S A E ε α C) (i : ℕ) (x y : Option (Session A E ε α C)) :
    (σ.put i x).put i y = σ.put i y := by
  simp only [State.put, Function.update_idem]

variable (db) in
/-- A session after `n` more statements, or where it can do no more. -/
def Session.after (s : S) : ℕ → Session A E ε α C → Session A E ε α C
  | 0, x => x
  | n + 1, x =>
    match db.advance s (fun _ => true) x with
    | some x' => Session.after s n x'
    | none => x

omit [DecidableEq K] in
theorem txn_of_advances {s : S} {free : E → Bool} {x x' : Session A E ε α C}
    (h : db.Advances s free x x') : x'.txn = x.txn := by
  cases h <;> rfl

/-- While no other session has written, a session is free to write. -/
theorem free_of_unwritten {σ : State S A E ε α C} {i : ℕ}
    (hs : ∀ j y, j ≠ i → σ.sessions j = some y → y.pending = []) (x : Session A E ε α C) :
    (σ.put i (some x)).free db i = fun _ => true := by
  funext e
  refine List.all_eq_true.2 fun j _ => ?_
  by_cases hj : j = i
  · simp [hj]
  · cases hy : σ.sessions j with
    | none => simp [sessions_put, hj, hy]
    | some y => simp [sessions_put, hj, hy, hs j y hj hy]

omit [DecidableEq K] in
/-- On the same tables, the answers that hold stay so. -/
theorem Session.Holds.advance {s : S} {free : E → Bool} {x x' : Session A E ε α C}
    (h : x.Holds db s) (ha : db.Advances s free x x') : x'.Holds db s := by
  cases ha with
  | selected q k hp =>
    intro r hr
    rcases List.mem_append.1 hr with hr | hr
    · exact h r hr
    · rw [List.mem_singleton.1 hr]
  | _ => exact h

/-- While no other session has written, a session runs its statements. -/
theorem after_reachable {s : S} {σ : State S A E ε α C} {i : ℕ}
    (hs : ∀ j y, j ≠ i → σ.sessions j = some y → y.pending = []) {c : C}
    (hm : ∀ x : Session A E ε α C, x.txn = c → x.Holds db σ.committed → may σ.committed x) (n : ℕ)
    {x : Session A E ε α C} (hx : x.txn = c) (hh : x.Holds db σ.committed)
    (hr : (db.readCommitted code ok begins may s).Reachable (σ.put i (some x))) :
    (x.after db σ.committed n).txn = c ∧
      (db.readCommitted code ok begins may s).Reachable
        (σ.put i (some (x.after db σ.committed n))) := by
  induction n generalizing x with
  | zero => exact ⟨hx, hr⟩
  | succ n ih =>
    rw [Session.after]
    cases ha : db.advance σ.committed (fun _ => true) x with
    | none => exact ⟨hx, hr⟩
    | some x' =>
      have hadv := db.advances_of_eq ha
      refine ih ((txn_of_advances hadv).trans hx) (hh.advance hadv) ?_
      have hstep := hr.step (.advance i x x' sessions_put_self (hm x hx hh)
        (by rw [free_of_unwritten hs]; exact ha))
      rwa [put_put] at hstep

/-- While no other session has written, a session runs to the end of its
    program.  Its answers hold, unless it may go on with `stale` ones. -/
theorem exec_reachable {s : S} {σ : State S A E ε α C} {i : ℕ} (stale : Prop)
    (hs : ∀ j y, j ≠ i → σ.sessions j = some y → y.pending = []) {a : α} {w' : List E} {c : C}
    (hm : ∀ x : Session A E ε α C, x.txn = c → x.Holds db σ.committed ∨ stale →
      may σ.committed x)
    {p : Program A E ε α} {w : List E} {r : List (Read A E)}
    (hh : Session.Holds db σ.committed (⟨c, p, w, r⟩ : Session A E ε α C) ∨ stale)
    (hr : (db.readCommitted code ok begins may s).Reachable (σ.put i (some ⟨c, p, w, r⟩)))
    (he : db.exec σ.committed p w = .ok (a, w')) :
    ∃ x : Session A E ε α C, x.txn = c ∧ x.program = .done a ∧ x.pending = w' ∧
      (db.readCommitted code ok begins may s).Reachable (σ.put i (some x)) := by
  -- one statement of the session
  have hgo : ∀ {x x' : Session A E ε α C}, x.txn = c → x.Holds db σ.committed ∨ stale →
      (db.readCommitted code ok begins may s).Reachable (σ.put i (some x)) →
      db.advance σ.committed (fun _ => true) x = some x' →
      (db.readCommitted code ok begins may s).Reachable (σ.put i (some x')) := by
    intro x x' hx hxh hr ha
    have hstep := hr.step (.advance i x x' sessions_put_self (hm x hx hxh)
      (by rw [free_of_unwritten hs]; exact ha))
    rwa [put_put] at hstep
  induction p generalizing w r with
  | done b =>
    cases he
    exact ⟨_, rfl, rfl, rfl, hr⟩
  | fail error => cases he
  | select q k ih =>
    refine ih _ (hh.imp_left fun hh r' hr' => ?_) (hgo rfl hh hr rfl) he
    rcases List.mem_append.1 hr' with hr' | hr'
    · exact hh r' hr'
    · rw [List.mem_singleton.1 hr']
  | claim e k ih =>
    rw [exec] at he
    split_ifs at he with hc hacc
    · exact ih _ hh (hgo rfl hh hr (by simp [Database.advance, hc])) he
    · exact ih _ hh (hgo rfl hh hr (by simp [Database.advance, hc, hacc])) he
  | write e k ih =>
    rw [exec] at he
    split_ifs at he with hc hacc
    exact ih hh (hgo rfl hh hr (by simp [Database.advance, hc, hacc])) he

variable (db code ok begins may) in
/-- While no session has written, another transaction can run and commit. -/
theorem alone_reachable {s t : S} {σ : State S A E ε α C} {c : C} {a : α}
    (hr : (db.readCommitted code ok begins may s).Reachable σ)
    (hs : ∀ j y, σ.sessions j = some y → y.pending = []) (hc : begins c)
    (hm : ∀ x : Session A E ε α C, x.txn = c → x.Holds db σ.committed → may σ.committed x)
    (ha : db.alone σ.committed (code c) = (.ok a, t)) :
    (db.readCommitted code ok begins may s).Reachable
      ⟨t, σ.sessions, σ.next + 1, if ok a then σ.log ++ [c] else σ.log⟩ := by
  obtain ⟨w, he, rfl⟩ := db.alone_ok ha
  have hstart := hr.step (.start c hc)
  obtain ⟨x, hx, hp, rfl, hreach⟩ := exec_reachable (σ := { σ with next := σ.next + 1 })
    False (fun j y _ => hs j y) (fun x hx hh => hm x hx (hh.resolve_right id))
    (.inl fun r hr => absurd hr List.not_mem_nil) hstart he
  have hcommit := hreach.step (.commit σ.next x a sessions_put_self hp)
  have hnone : Function.update σ.sessions σ.next none = σ.sessions := by
    rw [Function.update_eq_self_iff]
    exact (((exclusive_invariant db code ok begins may s).holds hr).bound _ (Nat.le_refl _)).symm
  simpa only [State.commit, State.put, Function.update_idem, hx, hnone] using hcommit

variable (db code ok begins may) in
/-- A transaction that stops after `n` statements, is overtaken by a whole
    commit, and goes on to its own.  The answers it was given still hold then,
    unless it may go on with `stale` ones. -/
theorem overtaken_reachable {s t : S} {σ : State S A E ε α C}
    (hr : (db.readCommitted code ok begins may s).Reachable σ) (hidle : ∀ j, σ.sessions j = none)
    (c c' : C) {n : ℕ} {a a' : α} {w : List E} (stale : Prop)
    (hm : ∀ s, ∀ x : Session A E ε α C, x.txn = c → x.Holds db s ∨ stale → may s x)
    (hm' : ∀ x : Session A E ε α C, x.txn = c' → x.Holds db σ.committed → may σ.committed x)
    (hc : begins c) (hc' : begins c')
    (hw : (Session.after db σ.committed n
      (⟨c, code c, [], []⟩ : Session A E ε α C)).pending = [])
    (ha : db.alone σ.committed (code c') = (.ok a', t)) (hok' : ok a')
    (hh : (Session.after db σ.committed n (⟨c, code c, [], []⟩ : Session A E ε α C)).Holds db t ∨
      stale)
    (he : db.exec t (Session.after db σ.committed n
      (⟨c, code c, [], []⟩ : Session A E ε α C)).program [] = .ok (a, w)) (hok : ok a) :
    ∃ σ', (db.readCommitted code ok begins may s).Reachable σ' ∧ σ'.committed = db.view t w ∧
      σ'.log = σ.log ++ [c', c] := by
  have hothers : ∀ j y, j ≠ σ.next → σ.sessions j = some y → y.pending = [] := by
    intro j y _ hy
    rw [hidle j] at hy
    cases hy
  obtain ⟨htxn, hr⟩ := after_reachable (σ := { σ with next := σ.next + 1 }) hothers
    (fun x hx hh => hm σ.committed x hx (.inl hh)) n (x := ⟨c, code c, [], []⟩) rfl
    (fun r hr => absurd hr List.not_mem_nil) (hr.step (.start c hc))
  change (Session.after db σ.committed n _).txn = c at htxn
  change (db.readCommitted code ok begins may s).Reachable
    (State.put { σ with next := σ.next + 1 } σ.next (some (Session.after db σ.committed n _))) at hr
  generalize Session.after db σ.committed n (⟨c, code c, [], []⟩ : Session A E ε α C) = x
    at hw hh he htxn hr
  obtain ⟨c₀, p, w₀, reads⟩ := x
  cases hw
  cases htxn
  -- the rival runs and commits
  have hrival := alone_reachable db code ok begins may hr (fun j y hy => ?_) hc' hm' ha
  · rw [if_pos hok'] at hrival
    obtain ⟨x, hx, hp, rfl, hreach⟩ := exec_reachable stale
      (σ := ⟨t, σ.sessions, σ.next + 2, σ.log ++ [c']⟩) (i := σ.next) hothers
      (fun x hx hh => hm _ x hx hh) hh hrival he
    refine ⟨_, hreach.step (.commit σ.next x a sessions_put_self hp), rfl, ?_⟩
    simp [State.commit, State.put, hok, hx]
  · rw [sessions_put] at hy
    split_ifs at hy with hj
    · cases hy
      rfl
    · exact hothers j y hj hy

/-! ## Serial runs -/

omit [DecidableEq K] in
variable (db code ok) in
/-- Transactions run alone, one after another, each with an `ok` result. -/
inductive Serial (s : S) : List C → S → Prop
  | nil : Serial s [] s
  | snoc {cs : List C} {t t' : S} {c : C} {a : α} (h : Serial s cs t)
      (hc : db.alone t (code c) = (.ok a, t')) (ha : ok a) : Serial s (cs ++ [c]) t'

omit [DecidableEq K] in
/-- The last of the serial transactions. -/
theorem Serial.last {s t : S} (cs : List C) {c : C} (h : Serial db code ok s (cs ++ [c]) t) :
    ∃ t' a, Serial db code ok s cs t' ∧ db.alone t' (code c) = (.ok a, t) ∧ ok a := by
  generalize hl : cs ++ [c] = l at h
  cases h with
  | nil => simp at hl
  | snoc h hc ha =>
    obtain ⟨rfl, heq⟩ := List.append_inj' hl rfl
    cases heq
    exact ⟨_, _, h, hc, ha⟩

omit [DecidableEq K] in
theorem Serial.of_nil {s t : S} (h : Serial db code ok s [] t) : t = s := by
  generalize hl : ([] : List C) = l at h
  cases h with
  | nil => rfl
  | snoc => simp at hl

omit [DecidableEq K] in
/-- Of two serial transactions, the second runs on what the first leaves. -/
theorem Serial.pair {s t : S} {c c' : C} (h : Serial db code ok s [c, c'] t) :
    ∃ a, (db.alone (db.alone s (code c)).2 (code c')).1 = .ok a ∧ ok a := by
  obtain ⟨t₁, a, h₁, hc', ha⟩ := Serial.last [c] h
  obtain ⟨t₀, b, h₀, hc, -⟩ := Serial.last [] h₁
  obtain rfl := h₀.of_nil
  exact ⟨a, by rw [hc, hc'], ha⟩

/-! ## Versions -/

variable (db) in
/-- Tables with the property `I` have a version, which the head query asks for;
    `slot n` is the key that the write over version `n` takes.  Quiet writes
    change no version. -/
structure Versioned (head : Q) (I : S → Prop) where
  version : S → ℕ
  stamp : A head → ℕ
  slot : ℕ → K
  quiet : E → Prop
  stamp_ask : ∀ s w, I s → (∀ e ∈ w, quiet e) → stamp (db.ask (db.view s w) head) = version s
  taken_slot : ∀ s n, I s → (db.taken s (slot n) ↔ n < version s)

variable {head : Q} {I : S → Prop}

namespace Versioned

variable (v : db.Versioned head I)

/-- A commit took the slot of the version that its head query was answered,
    before it wrote anything else that counts; another end wrote nothing. -/
def Slotted (ok : α → Bool) (a : α) (reads : List (Read A E)) (w : List E) : Prop :=
  if ok a then ∃ w₀ a₀, ⟨w₀, head, a₀⟩ ∈ reads ∧ (∀ e ∈ w₀, v.quiet e) ∧
    ∃ e ∈ w, v.slot (v.stamp a₀) ∈ db.keys e
  else w = []

/-- A session knows a version that was there; if it still is, its answers hold. -/
def Current (s : S) (x : Session A E ε α C) : Prop :=
  ∀ w₀ a₀, ⟨w₀, head, a₀⟩ ∈ x.reads → (∀ e ∈ w₀, v.quiet e) →
    v.stamp a₀ ≤ v.version s ∧ (v.stamp a₀ = v.version s → x.Holds db s)

omit [DecidableEq K] in
theorem Current.advance {s : S} {free : E → Bool} {x x' : Session A E ε α C} (hI : I s)
    (h : v.Current s x) (hm : ∀ k, x.program = .select head k → x.Holds db s)
    (ha : db.Advances s free x x') : v.Current s x' := by
  cases ha with
  | selected q k hp =>
    -- a new answer holds on the tables it was read from
    have hnew : x.Holds db s → Session.Holds db s { x with
        program := k (db.ask (db.view s x.pending) q)
        reads := x.reads ++ [⟨x.pending, q, db.ask (db.view s x.pending) q⟩] } := by
      intro hx r hr
      rcases List.mem_append.1 hr with hr | hr
      · exact hx r hr
      · rw [List.mem_singleton.1 hr]
    intro w₀ a₀ hr hq
    rcases List.mem_append.1 hr with hr | hr
    · exact ⟨(h w₀ a₀ hr hq).1, fun hv => hnew ((h w₀ a₀ hr hq).2 hv)⟩
    · cases List.mem_singleton.1 hr
      exact ⟨Nat.le_of_eq (v.stamp_ask s _ hI hq), fun _ => hnew (hm k hp)⟩
  | lost e k hp hc => exact h
  | won e k hp hc _ hf => exact h
  | wrote e k hp hc _ hf => exact h

omit [DecidableEq K] in
/-- A slot that a commit finds free is not of an earlier version. -/
theorem version_le {s : S} {w : List E} {n : ℕ} (hI : I s)
    (hf : ∀ e ∈ w, db.conflicts s e = false) (hs : ∃ e ∈ w, v.slot n ∈ db.keys e) :
    v.version s ≤ n := by
  obtain ⟨e, he, hk⟩ := hs
  by_contra hn
  have ht := (v.taken_slot s n hI).2 (Nat.lt_of_not_le hn)
  have := (db.conflicts_iff s e).2 ⟨_, hk, ht⟩
  rw [hf e he] at this
  cases this

omit [DecidableEq K] in
/-- A commit that took a slot raises the version. -/
theorem lt_version {s : S} {w : List E} {n : ℕ} (hI : I (db.view s w))
    (hs : ∃ e ∈ w, v.slot n ∈ db.keys e) : n < v.version (db.view s w) := by
  obtain ⟨e, he, hk⟩ := hs
  exact (v.taken_slot _ n hI).1 ((db.taken_view s w _).2 (.inr ⟨e, he, hk⟩))

omit [DecidableEq K] in
/-- A commit outdates the version of every other session, or wrote nothing. -/
theorem Current.commit {s : S} {x : Session A E ε α C} {w : List E} (h : v.Current s x)
    (hv : w = [] ∨ v.version s < v.version (db.view s w)) : v.Current (db.view s w) x := by
  rcases hv with rfl | hv
  · exact h
  · intro w₀ a₀ hr hq
    have hle := (h w₀ a₀ hr hq).1
    exact ⟨by omega, fun hn => by omega⟩

end Versioned

/-- Transactions on versioned tables whose answers hold when they ask for the
    head: the committed tables are those of the `ok` ones, run alone in the
    order they committed. -/
theorem serializable (v : db.Versioned head I) (rule : C → S → List E → Program A E ε α → Prop)
    (hmay : ∀ s x, may s x → rule x.txn s x.pending x.program)
    (hhead : ∀ s x k, may s x → x.program = .select head k → x.Holds db s)
    (hcode : ∀ c, begins c → db.Ensures (rule c) (v.Slotted ok) (code c) [] [])
    (hstep : ∀ s c a s', begins c → I s → db.alone s (code c) = (.ok a, s') → ok a → I s')
    {s : S} (hs : I s) :
    (db.readCommitted code ok begins may s).Invariant fun σ =>
      I σ.committed ∧ Serial db code ok s σ.log σ.committed ∧ (∀ c ∈ σ.log, begins c) ∧
        ∀ i x, σ.sessions i = some x → v.Current σ.committed x where
  init := by
    rintro σ rfl
    exact ⟨hs, .nil, by rintro c ⟨⟩, by rintro i x ⟨⟩⟩
  step := by
    rintro σ σ' hreach ⟨hI, hser, hlog, hcur⟩ hstep'
    cases hstep' with
    | start c hc =>
      refine ⟨hI, hser, hlog, fun j y hy => ?_⟩
      simp only [sessions_put] at hy
      split_ifs at hy
      · cases hy
        rintro w₀ a₀ ⟨⟩
      · exact hcur j y hy
    | advance i x x' hx hm ha =>
      refine ⟨hI, hser, hlog, fun j y hy => ?_⟩
      rw [sessions_put] at hy
      split_ifs at hy
      · obtain rfl : x' = y := Option.some.inj hy
        exact (hcur i x hx).advance v hI (fun k => hhead _ x k hm) (db.advances_of_eq ha)
      · exact hcur j y hy
    | commit i x a hx hp =>
      have hfresh := ((exclusive_invariant db code ok begins may s).holds hreach).fresh i x hx
      obtain ⟨hbegins, hends⟩ := (ensures_invariant _ hmay hcode s).holds hreach i x hx
      rw [hp] at hends
      -- the other sessions stay current once this commit is in
      have hothers : x.pending = [] ∨ v.version σ.committed <
          v.version (db.view σ.committed x.pending) → ∀ j y, (σ.put i none).sessions j = some y →
          v.Current (db.view σ.committed x.pending) y := by
        intro hv j y hy
        rw [sessions_put] at hy
        split_ifs at hy
        exact (hcur j y hy).commit v hv
      have hends := hends.of_done
      rw [Versioned.Slotted] at hends
      simp only [State.commit]
      split_ifs at hends ⊢ with ha
      · obtain ⟨w₀, a₀, hr, hq, hslot⟩ := hends
        obtain ⟨hle, hcurrent⟩ := hcur i x hx w₀ a₀ hr hq
        -- the slot is still free, so the version is the one that was read
        have hge := v.version_le hI hfresh hslot
        have hreplays := (replays_invariant db code ok begins may s).holds hreach i x hx
        have halone := hreplays.alone (hcurrent (Nat.le_antisymm hle hge)) hfresh hp
        have hI' := hstep _ _ _ _ hbegins hI halone ha
        have hlog' : ∀ c ∈ σ.log ++ [x.txn], begins c := fun c hc =>
          (List.mem_append.1 hc).elim (hlog c) fun hc => List.mem_singleton.1 hc ▸ hbegins
        exact ⟨hI', hser.snoc halone ha, hlog',
          hothers (.inr (Nat.lt_of_le_of_lt hge (v.lt_version hI' hslot)))⟩
      · rw [hends, view_nil]
        rw [hends, view_nil] at hothers
        exact ⟨hI, hser, hlog, hothers (.inl rfl)⟩
    | rollback i =>
      refine ⟨hI, hser, hlog, fun j y hy => ?_⟩
      rw [sessions_put] at hy
      split_ifs at hy
      exact hcur j y hy

end Database
