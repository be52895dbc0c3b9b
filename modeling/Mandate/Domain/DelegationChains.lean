/-
  Delegation chains: what the walk along the parent ids accepts.

  The loop of `delegationViolations` is given round by round (`ParentWalk.step`).  It
  ends within one round for each record of the mapping and one more, whatever
  cycles the parent ids form (`ParentWalk.run_eq`), and it ends without a violation
  exactly on a finite chain of parents with distinct ids
  (`delegation_walk_exact`).
-/
import Mandate.Domain.Lifecycle

namespace Mandate

variable {records : Dict String AuthorityRecord} {now : Option String}

/-! ## The loop -/

/-- The variables of the loop. -/
structure ParentWalk where
  violations : List String
  seen : List String
  cursor : AuthorityRecord

/-- What one round reports about the parent it reaches. -/
def hopViolations (cursor parent : AuthorityRecord) (parentId : String) (now : Option String) :
    Except PyError (List String) := do
  let lifecycle ← ancestorViolations parent parentId now
  return (scopeViolations cursor parent).map (fun v => s!"{parentId}:{v}") ++ lifecycle

/-- One round: the loop ends with a result, or goes on with new variables. -/
def ParentWalk.step (records : Dict String AuthorityRecord) (now : Option String) (w : ParentWalk) :
    Except PyError (List String) ⊕ ParentWalk :=
  match w.cursor.parentRecordId with
  | none => .inl (.ok w.violations)
  | some parentId =>
    if parentId ∈ w.seen then .inl (.ok (w.violations ++ [s!"cycle_at:{parentId}"]))
    else match records.get? parentId with
      | none => .inl (.ok (w.violations ++ [s!"unresolvable_parent:{parentId}"]))
      | some parent => match hopViolations w.cursor parent parentId now with
        | .error e => .inl (.error e)
        | .ok found => .inr ⟨w.violations ++ found, parentId :: w.seen, parent⟩

/-- At most `n` rounds; `none` when the loop has not ended by then. -/
def ParentWalk.run (records : Dict String AuthorityRecord) (now : Option String) :
    ℕ → ParentWalk → Option (Except PyError (List String))
  | 0, _ => none
  | n + 1, w => match w.step records now with
    | .inl r => some r
    | .inr w' => ParentWalk.run records now n w'

/-- The walk from a cursor by the outcome of its first round. -/
theorem delegationWalk_step (w : ParentWalk) :
    (delegationWalk records now w.seen w.cursor).map (w.violations ++ ·) =
      match w.step records now with
      | .inl r => r
      | .inr w' => (delegationWalk records now w'.seen w'.cursor).map (w'.violations ++ ·) := by
  rw [delegationWalk, ParentWalk.step]
  cases hid : w.cursor.parentRecordId with
  | none => simp [Except.map, pure, Except.pure]
  | some id =>
    by_cases hs : id ∈ w.seen
    · simp [hs, Except.map, pure, Except.pure]
    · simp only [hs, ↓reduceDIte, ↓reduceIte]
      split
      · rename_i hp
        simp [hp, Except.map, pure, Except.pure]
      · rename_i parent hp
        simp only [hp, hopViolations]
        cases ancestorViolations parent id now with
        | error e => rfl
        | ok lifecycle =>
          simp only [bind, Except.bind, pure, Except.pure]
          cases delegationWalk records now (id :: w.seen) parent with
          | error e => rfl
          | ok rest => simp [Except.map]

/-- A round that goes on has seen one more record of the mapping. -/
theorem ParentWalk.unseen_step {w w' : ParentWalk} (h : w.step records now = .inr w') :
    (unseen records w'.seen).length < (unseen records w.seen).length := by
  rw [ParentWalk.step] at h
  split at h
  · cases h
  · rename_i id hid
    split_ifs at h with hs
    split at h
    · cases h
    · rename_i parent hp
      split at h
      · cases h
      · cases h
        exact unseen_lt hs hp

/-- The loop ends before it has made more rounds than there are unseen records,
    with the result of the walk. -/
theorem ParentWalk.run_eq {n : ℕ} {w : ParentWalk} (hn : (unseen records w.seen).length < n) :
    w.run records now n =
      some ((delegationWalk records now w.seen w.cursor).map (w.violations ++ ·)) := by
  induction n generalizing w with
  | zero => omega
  | succ n ih =>
    rw [delegationWalk_step, ParentWalk.run]
    cases hw : w.step records now with
    | inl r => rfl
    | inr w' =>
      have hlt := ParentWalk.unseen_step hw
      exact ih (by omega)

/-! ## Chains of parents -/

/-- Neither recorded as revoked nor expired at the time `now` denotes. -/
def InForceAt (record : AuthorityRecord) (now : String) : Prop :=
  record.status ≠ .revoked ∧ ∃ i, (Datetime.fromisoformat now).bind Datetime.instant? = some i ∧
    i ≤ record.expiresAt.instant

/-- The ancestors of a record up to one without a parent, each with the id it is
    found under: every record narrows the next, and all of them are in force. -/
def ParentChain (records : Dict String AuthorityRecord) (now : Option String) :
    AuthorityRecord → List (String × AuthorityRecord) → Prop
  | record, [] => record.parentRecordId = none
  | record, (id, parent) :: rest =>
    record.parentRecordId = some id ∧ records.get? id = some parent ∧
      scopeViolations record parent = [] ∧ (∀ t ∈ now, InForceAt parent t) ∧
      ParentChain records now parent rest

/-- An aware date-time is not before another exactly when that one is aware and
    its instant is no later. -/
theorem timeLt_eq_false {a b : Datetime} {i : ℤ} (ha : a.instant? = some i) :
    timeLt a b = .ok false ↔ ∃ j, b.instant? = some j ∧ j ≤ i := by
  obtain ⟨c, o | _⟩ := a
  · cases ha
  · cases ha
    obtain ⟨c', _ | o'⟩ := b
    · simp [timeLt, Datetime.lt?, Datetime.instant?]
    · simp [timeLt, Datetime.lt?, Datetime.instant?]

theorem parseTime_eq_ok {text : String} {d : Datetime} :
    parseTime text = .ok d ↔ Datetime.fromisoformat text = some d := by
  rw [parseTime]
  cases Datetime.fromisoformat text <;> simp

theorem resolveStatus_eq_active {record : AuthorityRecord} {now : String} :
    resolveStatus record now false = .ok .active ↔ InForceAt record now := by
  obtain ⟨e, he, hi⟩ := parseTime_text record.expiresAt
  by_cases hr : record.status = .revoked
  · simp [resolveStatus, InForceAt, hr, pure, Except.pure]
  · have htimes : InForceAt record now ↔ ∃ d, parseTime now = .ok d ∧ timeLt e d = .ok false := by
      simp only [InForceAt, timeLt_eq_false hi, parseTime_eq_ok, Option.bind_eq_some_iff]
      exact ⟨fun ⟨_, j, ⟨d, hd, hj⟩, hle⟩ => ⟨d, hd, j, hj, hle⟩,
        fun ⟨d, hd, j, hj, hle⟩ => ⟨hr, j, ⟨d, hd, hj⟩, hle⟩⟩
    rw [htimes]
    simp only [resolveStatus, Bool.false_eq_true, hr, or_self, ↓reduceIte, he]
    cases parseTime now with
    | error x => simp [bind, Except.bind]
    | ok d =>
      simp only [bind, Except.bind, Except.ok.injEq, exists_eq_left']
      cases timeLt e d with
      | error x => simp
      | ok r => cases r <;> simp [pure, Except.pure]

theorem ancestorViolations_eq_nil {parent : AuthorityRecord} {id : String} :
    ancestorViolations parent id now = .ok [] ↔ ∀ t ∈ now, InForceAt parent t := by
  cases now with
  | none => simp [ancestorViolations, pure, Except.pure]
  | some t =>
    simp only [ancestorViolations, Option.mem_some_iff, forall_eq', ← resolveStatus_eq_active]
    cases resolveStatus parent t false with
    | error e => simp [bind, Except.bind]
    | ok status => simp [bind, Except.bind, pure, Except.pure]

theorem hopViolations_eq_nil {cursor parent : AuthorityRecord} {id : String} :
    hopViolations cursor parent id now = .ok [] ↔
      scopeViolations cursor parent = [] ∧ ∀ t ∈ now, InForceAt parent t := by
  rw [hopViolations, ← @ancestorViolations_eq_nil now parent id]
  cases ancestorViolations parent id now with
  | error e => simp [bind, Except.bind]
  | ok lifecycle => simp [bind, Except.bind, pure, Except.pure]

/-- A walk finds nothing when it is at the root, or when it finds nothing about
    a parent it has not seen and nothing from there on. -/
theorem delegationWalk_nil_iff {seen : List String} {cursor : AuthorityRecord} :
    delegationWalk records now seen cursor = .ok [] ↔ cursor.parentRecordId = none ∨
      ∃ id parent, cursor.parentRecordId = some id ∧ id ∉ seen ∧ records.get? id = some parent ∧
        hopViolations cursor parent id now = .ok [] ∧
        delegationWalk records now (id :: seen) parent = .ok [] := by
  rw [delegationWalk]
  cases hid : cursor.parentRecordId with
  | none => simp [pure, Except.pure]
  | some id =>
    by_cases hs : id ∈ seen
    · simp [hs, pure, Except.pure]
    · simp only [hs, ↓reduceDIte, reduceCtorEq, false_or, Option.some.injEq, exists_and_left,
        exists_eq_left', not_false_eq_true, true_and]
      split
      · rename_i hp
        simp [hp, pure, Except.pure]
      · rename_i parent hp
        simp only [hp, Option.some.injEq, exists_eq_left', hopViolations]
        cases ancestorViolations parent id now with
        | error e => simp [bind, Except.bind]
        | ok lifecycle =>
          simp only [bind, Except.bind, pure, Except.pure]
          cases delegationWalk records now (id :: seen) parent with
          | error e => simp
          | ok rest => simp [and_assoc]

/-- A walk that finds nothing goes along a chain of parents it has not seen. -/
theorem delegationWalk_eq_nil {seen : List String} {cursor : AuthorityRecord} :
    delegationWalk records now seen cursor = .ok [] ↔
      ∃ chain, ParentChain records now cursor chain ∧ (chain.map Prod.fst).Nodup ∧
        ∀ id ∈ chain.map Prod.fst, id ∉ seen := by
  constructor
  · intro h
    induction hn : (unseen records seen).length using Nat.strong_induction_on
      generalizing seen cursor with
    | _ n ih =>
      obtain hroot | ⟨id, parent, hid, hs, hp, hhop, hrest⟩ := delegationWalk_nil_iff.1 h
      · exact ⟨[], hroot, by simp, by simp⟩
      · have hlt := unseen_lt hs hp
        obtain ⟨chain, hchain, hnodup, hfresh⟩ := ih _ (hn ▸ hlt) hrest rfl
        obtain ⟨hscope, hforce⟩ := hopViolations_eq_nil.1 hhop
        refine ⟨(id, parent) :: chain, ⟨hid, hp, hscope, hforce, hchain⟩, ?_, ?_⟩
        · rw [List.map_cons, List.nodup_cons]
          exact ⟨fun hm => hfresh id hm (by simp), hnodup⟩
        · intro x hx
          rcases List.mem_cons.1 hx with rfl | hx
          · exact hs
          · exact fun hxs => hfresh x hx (List.mem_cons_of_mem _ hxs)
  · rintro ⟨chain, hchain, hnodup, hfresh⟩
    induction chain generalizing seen cursor with
    | nil => exact delegationWalk_nil_iff.2 (.inl hchain)
    | cons hop chain ih =>
      obtain ⟨id, parent⟩ := hop
      obtain ⟨hid, hp, hscope, hforce, hchain⟩ := hchain
      rw [List.map_cons, List.nodup_cons] at hnodup
      have hrest := @ih (id :: seen) parent hchain hnodup.2 fun x hx => by
        rw [List.mem_cons, not_or]
        exact ⟨fun he => hnodup.1 (he ▸ hx), hfresh x (List.mem_cons_of_mem _ hx)⟩
      exact delegationWalk_nil_iff.2 (.inr ⟨id, parent, hid, hfresh id (by simp), hp,
        hopViolations_eq_nil.2 ⟨hscope, hforce⟩, hrest⟩)

/-! ## Exactness -/

/-- For every record and mapping the loop ends, and it ends without a violation
    exactly when the parent ids lead to the root along distinct records, each
    narrowing the next and all of them in force at `now`. -/
theorem delegation_walk_exact (record : AuthorityRecord) (records : Dict String AuthorityRecord)
    (now : Option String) :
    (∀ n, records.entries.length < n → ParentWalk.run records now n ⟨[], [record.recordId], record⟩ =
      some (delegationViolations record records now)) ∧
    (delegationViolations record records now = .ok [] ↔
      ∃ chain, ParentChain records now record chain ∧
        (record.recordId :: chain.map Prod.fst).Nodup) := by
  refine ⟨fun n hn => ?_, ?_⟩
  · have hlen : (unseen records [record.recordId]).length ≤ records.entries.length := by
      rw [unseen, ← List.length_map (f := Prod.fst)]
      exact List.length_filter_le _ _
    rw [ParentWalk.run_eq (hlen.trans_lt hn), delegationViolations]
    cases delegationWalk records now [record.recordId] record <;> simp [Except.map]
  · rw [delegationViolations, delegationWalk_eq_nil]
    refine exists_congr fun chain => and_congr_right fun _ => ?_
    rw [List.nodup_cons, and_comm]
    simp only [List.mem_singleton]
    exact and_congr_left fun _ => ⟨fun h hm => h _ hm rfl, fun h id hm he => h (he ▸ hm)⟩

end Mandate
