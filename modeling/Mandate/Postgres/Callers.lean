/-
  Concurrent callers of `process_request` over the tables.

  A caller asks the gate, runs its commit as a transaction of its own, and asks
  the gate again when the commit lost its claims; its statements interleave
  with all others.  The decision it returns is the one that is stored under its
  key, unless its commit was refused (`callers_agree`).
-/
import Mandate.Postgres.WriteOnce

namespace Mandate

section
variable [Platform]

namespace Postgres

/-- A transaction of the store in flight. -/
abbrev InFlight := Database.Session Query.Answer Write PyError (Option CommitResult) Txn

/-- The database, with the transactions in flight. -/
abbrev Interleaved := Database.State Tables Query.Answer Write PyError (Option CommitResult) Txn

/-! ## A call -/

/-- How far a call of `process_request` is. -/
inductive Stage where
  | gating (p : Transaction GateVerdict)
  | committing (verdict : GateVerdict) (i : ℕ)
  | regating (p : Transaction GateVerdict)
  | returned (r : Except PyError ProcessResult)

structure Caller where
  pi : PolicyInput
  recordedAt : String
  ids : EventIds
  stage : Stage

/-- The database, and everybody who has called `process_request`. -/
structure Callers where
  db : Interleaved
  calls : List Caller

/-- The commit that the call asks for. -/
def Caller.txn (c : Caller) : Txn := .commitRequest (c.pi.commitRequest c.recordedAt) c.ids

/-- A read of the gate, in a transaction of its own. -/
inductive Stage.Reads (t : Tables) : Stage → Stage → Prop
  | gating (query : Query) (k : query.Answer → Transaction GateVerdict) :
      Reads t (.gating (.select query k)) (.gating (k (t.ask query)))
  | regating (query : Query) (k : query.Answer → Transaction GateVerdict) :
      Reads t (.regating (.select query k)) (.regating (k (t.ask query)))

/-- What the gate answers a call with. -/
def stoppedResult (verdict : GateVerdict) : ProcessResult :=
  ⟨verdict, if verdict.outcome = .idempotentHit then verdict.decision else none, none⟩

variable (signer : GatewaySigner)
  (may : Tables → InFlight → Prop)

/-- What a call does next. -/
inductive Caller.Step [TextForms] (c : Caller) (σ : Interleaved) : Stage → Interleaved → Prop
  | reads {stage : Stage} (h : c.stage.Reads σ.committed stage) : Step c σ stage σ
  | stopped {verdict : GateVerdict} (hs : c.stage = .gating (.done verdict))
      (ho : verdict.outcome ≠ .pass) : Step c σ (.returned (.ok (stoppedResult verdict))) σ
  | passed {verdict : GateVerdict} (hs : c.stage = .gating (.done verdict))
      (ho : verdict.outcome = .pass) : Step c σ (.committing verdict σ.next)
        { σ.put σ.next (some ⟨c.txn, c.txn.code signer, [], []⟩) with next := σ.next + 1 }
  | raised {verdict : GateVerdict} {i : ℕ} (error : PyError)
      (hs : c.stage = .committing verdict i) : Step c σ (.returned (.error error)) (σ.put i none)
  | committed {verdict : GateVerdict} {i : ℕ} (hs : c.stage = .committing verdict i)
      (x : InFlight) (hx : σ.sessions i = some x) (hc : x.txn = c.txn) (r : CommitResult)
      (hp : x.program = .done (some r)) (ho : r.outcome ≠ .alreadyApplied) :
      Step c σ (.returned (.ok ⟨verdict, some (evaluate c.pi), some r⟩))
        (σ.commit postgres applied i x (some r))
  | lost {verdict : GateVerdict} {i : ℕ} (hs : c.stage = .committing verdict i)
      (x : InFlight) (hx : σ.sessions i = some x) (hc : x.txn = c.txn) (r : CommitResult)
      (hp : x.program = .done (some r)) (ho : r.outcome = .alreadyApplied) :
      Step c σ (.regating (gate c.pi .done)) (σ.commit postgres applied i x (some r))
  | answered {verdict : GateVerdict} (hs : c.stage = .regating (.done verdict)) :
      Step c σ (.returned (.ok ⟨verdict, verdict.decision, none⟩)) σ

/-- A call begins or goes on, or the database has a step of anybody's
    transaction.  A caller that stops leaves its transaction to the database. -/
inductive CallersStep [TextForms] (t₀ : Tables) (q : Callers) : Callers → Prop
  | database {σ : Interleaved} (h : (interleavings signer (fun _ => True) may t₀).step q.db σ) :
      CallersStep t₀ q { q with db := σ }
  | begins (pi : PolicyInput) (recordedAt : String) (ids : EventIds) :
      CallersStep t₀ q
        { q with calls := q.calls ++ [⟨pi, recordedAt, ids, .gating (gate pi .done)⟩] }
  | call {j : ℕ} {c : Caller} {stage : Stage} {σ : Interleaved} (hj : q.calls[j]? = some c)
      (h : c.Step signer q.db stage σ) : CallersStep t₀ q ⟨σ, q.calls.set j { c with stage }⟩

/-- The calls of any number of callers, on given tables. -/
def callers [TextForms] (t₀ : Tables) : System Callers where
  init q := q = ⟨.idle t₀, []⟩
  step := CallersStep signer may t₀

/-! ## What a commit stores -/

variable {signer may} {t t' : Tables}

/-- A write of something else than a decision. -/
def Plain (e : Write) : Prop := ∀ key digest decision, e ≠ .idempotency key digest decision

/-- The writes of a request that committed: its decision, and no other. -/
def Claimed (req : CommitRequest) (r : CommitResult) (w : List Write) : Prop :=
  r.outcome = .committed →
    ∃ rest, w = .idempotency req.idempotencyKey req.proposalDigest req.decision :: rest ∧
      ∀ e ∈ rest, Plain e

/-- After its claims a request writes no other decision. -/
theorem appendRequest_claimed {req : CommitRequest} {ids : EventIds} {deal : Deal}
    {event : Option DealEvent} {reads : List (Database.Read Query.Answer Write)}
    {rest : List Write} (h : ∀ e ∈ rest, Plain e) :
    postgres.Ensures (fun _ _ _ => True) (fun r _ w => Claimed req r w)
      (appendRequest signer req ids deal event) reads
      (.idempotency req.idempotencyKey req.proposalDigest req.decision :: rest) := by
  refine .select fun s _ => ?_
  generalize postgres.ask (postgres.view s _) (.chainHead req.dealId) = head
  obtain ⟨seq, prevHash⟩ := head
  dsimp only
  cases planCommitRequest signer deal seq prevHash req event ids with
  | error e => exact .fail
  | ok plan =>
    have hplain : ∀ e ∈ rest ++ (plan.events.map Write.event ++
        (if event.isSome ∨ plan.approval.isSome then [.updateDeal req.dealId plan.newDeal]
          else []) ++
        plan.approval.toList.map Write.approval), Plain e := by
      intro e he
      simp only [List.mem_append, List.mem_map] at he
      rcases he with he | (⟨_, -, rfl⟩ | he) | ⟨_, -, rfl⟩
      · exact h e he
      · simp [Plain]
      · split_ifs at he
        · rw [List.mem_singleton] at he
          simp [he, Plain]
        · cases he
      · simp [Plain]
    refine .writes (.claim (.done fun _ => ⟨(rest ++ _) ++ [.record req.record], rfl, ?_⟩)
      fun _ _ _ => .done fun _ => ⟨_, rfl, hplain⟩)
    intro e he
    rcases List.mem_append.1 he with he | he
    · exact hplain e he
    · rw [List.mem_singleton] at he
      simp [he, Plain]

theorem commitRequest_claimed (req : CommitRequest) (signer : GatewaySigner) (ids : EventIds) :
    postgres.Ensures (fun _ _ _ => True) (fun r _ w => Claimed req r w)
      (commitRequest req signer ids) [] [] := by
  have hrefused : ∀ (outcome : CommitOutcome) detail newDeal reads w, outcome ≠ .committed →
      postgres.Ensures (fun _ _ _ => True) (fun r _ w => Claimed req r w)
        (refuse outcome detail newDeal) reads w :=
    fun outcome detail newDeal reads w ho => .done fun h => absurd h ho
  refine .select fun s _ => ?_
  generalize postgres.ask (postgres.view s []) (.deal req.dealId) = stored
  cases stored with
  | none => exact hrefused _ _ _ _ _ (by decide)
  | some deal =>
    dsimp only
    cases planTransition deal req.action req.decision.outcome with
    | error abort => exact hrefused _ _ _ _ _ (by decide)
    | ok event =>
      refine .claim (.claim (.claim ?_ ?_) ?_) ?_
      · exact appendRequest_claimed (by simp [Plain])
      · refine fun _ _ _ => .select fun s _ => ?_
        generalize postgres.ask (postgres.view s _) (.nonceOwner req.record.nonce) = owner
        cases owner with
        | none => exact .fail
        | some owner =>
          dsimp only
          split_ifs
          · exact hrefused _ _ _ _ _ (by decide)
          · exact appendRequest_claimed (by simp [Plain])
      · exact fun _ _ _ => hrefused _ _ _ _ _ (by decide)
      · exact fun _ _ _ => hrefused _ _ _ _ _ (by decide)

omit [Platform] in
/-- Writes of something else leave the decisions as they are. -/
theorem idempotency_of_plain {w : List Write} (h : ∀ e ∈ w, Plain e) :
    ∀ t : Tables, (postgres.view t w).idempotency = t.idempotency := by
  induction w with
  | nil => exact fun t => rfl
  | cons e w ih =>
    intro t
    rw [Database.view_cons, ih fun e' he' => h e' (List.mem_cons_of_mem _ he')]
    have he := h e List.mem_cons_self
    cases e with
    | idempotency key digest decision => exact absurd rfl (he key digest decision)
    | updateDeal =>
      simp only [postgres_apply, Tables.apply]
      split_ifs <;> rfl
    | updateApproval =>
      simp only [postgres_apply, Tables.apply]
      split_ifs <;> rfl
    | _ => rfl

/-- The decision on a request is the one under its key. -/
def Stored (t : Tables) (pi : PolicyInput) (decision : PolicyDecision) : Prop :=
  t.idempotency.get? pi.proposal.idempotencyKey = some (proposalDigest pi, decision)

/-- A request that committed stored its decision. -/
theorem stored_of_claimed {c : Caller} {r : CommitResult} {w : List Write}
    (h : Claimed (c.pi.commitRequest c.recordedAt) r w) (ho : r.outcome = .committed) (t : Tables) :
    Stored (postgres.view t w) c.pi (evaluate c.pi) := by
  obtain ⟨rest, rfl, hrest⟩ := h ho
  rw [Stored, Database.view_cons, idempotency_of_plain hrest]
  exact Dict.get?_set_self ..

omit [Platform] in
/-- A stored decision is kept by writes that do not take its key. -/
theorem idempotency_kept {key : String} {stored : String × PolicyDecision} {w : List Write} :
    ∀ {t : Tables}, t.idempotency.get? key = some stored → (∀ e ∈ w, .idempotency key ∉ e.keys) →
      (postgres.view t w).idempotency.get? key = some stored := by
  induction w with
  | nil => exact fun h _ => h
  | cons e w ih =>
    intro t h hw
    rw [Database.view_cons]
    refine ih ?_ fun e' he' => hw e' (List.mem_cons_of_mem _ he')
    have he := hw e List.mem_cons_self
    cases e with
    | idempotency key' digest decision =>
      have hne : key ≠ key' := fun hk => he (by simp [Write.keys, hk])
      exact (Dict.get?_set_ne _ _ hne).trans h
    | updateDeal =>
      simp only [postgres_apply, Tables.apply]
      split_ifs <;> exact h
    | updateApproval =>
      simp only [postgres_apply, Tables.apply]
      split_ifs <;> exact h
    | _ => exact h

/-- No step of an interleaving changes a stored decision. -/
theorem idempotency_le_step [TextForms] {t₀ : Tables} {σ σ' : Interleaved}
    (h : (interleavings signer (fun _ => True) may t₀).Reachable σ)
    (hstep : (interleavings signer (fun _ => True) may t₀).step σ σ') :
    σ.committed.idempotency.Le σ'.committed.idempotency := by
  cases hstep with
  | commit i x a hx hp =>
    intro key stored hk
    refine idempotency_kept hk fun e he hkey => ?_
    -- a row that is written is new
    have hfree := ((Database.exclusive_invariant _ _ _ _ _ _).holds h).fresh i x hx e he
    have hconflict : postgres.conflicts _ e = true :=
      postgres_conflicts.2 ⟨_, hkey, Option.isSome_iff_exists.2 ⟨stored, hk⟩⟩
    rw [hfree] at hconflict
    cases hconflict
  | _ => exact .refl _

/-! ## What a call returns -/

/-- What is left of the gate: all of it, reads that find no decision, or a
    verdict whose decision is stored. -/
inductive GateLeft (t : Tables) (pi : PolicyInput) (p : Transaction GateVerdict) : Prop
  | unread (hp : p = gate pi .done)
  | undecided (reads : List (Database.Read Query.Answer Write))
      (h : postgres.Ensures (fun _ _ _ => True) (fun verdict _ _ => verdict.decision = none) p
        reads [])
  | verdict (v : GateVerdict) (hp : p = .done v)
      (h : ∀ decision, v.decision = some decision → Stored t pi decision)

/-- A refused result: its decision was not stored with it. -/
def Unstored (result : ProcessResult) : Prop :=
  ∃ r, result.commit = some r ∧ r.outcome ≠ .committed

inductive Told (t : Tables) (pi : PolicyInput) : Stage → Prop
  | gating {p : Transaction GateVerdict} (h : GateLeft t pi p) : Told t pi (.gating p)
  | committing (verdict : GateVerdict) (i : ℕ) : Told t pi (.committing verdict i)
  | regating {p : Transaction GateVerdict} (h : GateLeft t pi p) : Told t pi (.regating p)
  | raised (error : PyError) : Told t pi (.returned (.error error))
  | returned {result : ProcessResult}
      (h : ∀ decision, result.decision = some decision →
        Stored t pi decision ∨ Unstored result) : Told t pi (.returned (.ok result))

variable {pi : PolicyInput}

theorem GateLeft.mono {p : Transaction GateVerdict} (h : GateLeft t pi p)
    (hle : t.idempotency.Le t'.idempotency) : GateLeft t' pi p := by
  cases h with
  | unread hp => exact .unread hp
  | undecided reads h => exact .undecided reads h
  | verdict v hp h => exact .verdict v hp fun decision hd => hle _ _ (h decision hd)

theorem Told.mono {stage : Stage} (h : Told t pi stage)
    (hle : t.idempotency.Le t'.idempotency) : Told t' pi stage := by
  cases h with
  | gating h => exact .gating (h.mono hle)
  | committing verdict i => exact .committing verdict i
  | regating h => exact .regating (h.mono hle)
  | raised error => exact .raised error
  | returned h => exact .returned fun decision hd => (h decision hd).imp_left (hle _ _)

/-- A gate that has not found the key finds no decision. -/
theorem checkAntiReplay_undecided (pi : PolicyInput) (nonceOwner : String → Option String)
    (seenRequest : String → Bool) :
    (checkAntiReplay pi ⟨nonceOwner, seenRequest, fun _ => none⟩).decision = none := by
  unfold checkAntiReplay
  dsimp only
  split_ifs
  · rfl
  · split
    · split_ifs <;> rfl
    · rfl

/-- A gate that has found the key gives its decision on the same proposal only. -/
theorem checkAntiReplay_found {stored : String × PolicyDecision} {decision : PolicyDecision}
    {nonceOwner : String → Option String} {seenRequest : String → Bool}
    (h : (checkAntiReplay pi ⟨nonceOwner, seenRequest, fun _ => some stored⟩).decision =
      some decision) : stored = (proposalDigest pi, decision) := by
  obtain ⟨digest, stored⟩ := stored
  unfold checkAntiReplay at h
  dsimp only at h
  split_ifs at h with hdigest
  cases h
  rw [hdigest]

theorem GateLeft.read {query : Query} {k : query.Answer → Transaction GateVerdict}
    (h : GateLeft t pi (.select query k)) : GateLeft t pi (k (t.ask query)) := by
  cases h with
  | unread hp =>
    rw [gate] at hp
    cases hp
    simp only [Tables.ask]
    cases hk : t.idempotency.get? pi.proposal.idempotencyKey with
    | some stored =>
      refine .verdict _ rfl fun decision hd => ?_
      rw [Stored, hk, checkAntiReplay_found hd]
    | none =>
      refine .undecided [] (.select fun s _ => ?_)
      generalize postgres.ask (postgres.view s []) (.seenRequest pi.requestId) = seen
      cases seen with
      | true => exact .done (checkAntiReplay_undecided ..)
      | false => exact .select fun s' _ => .done (checkAntiReplay_undecided ..)
  | undecided reads h =>
    cases h with
    | select h => exact .undecided _ (h t trivial)
  | verdict v hp h => cases hp

theorem GateLeft.decision {verdict : GateVerdict} (h : GateLeft t pi (.done verdict))
    {decision : PolicyDecision} (hd : verdict.decision = some decision) : Stored t pi decision := by
  cases h with
  | unread hp => cases hp
  | undecided reads h =>
    rw [h.of_done] at hd
    cases hd
  | verdict v hp h =>
    cases hp
    exact h decision hd

/-- A request in flight that ends as committed has claimed its key. -/
theorem claimed_of_done [TextForms] {t₀ : Tables} {σ : Interleaved} {i : ℕ} {x : InFlight}
    {c : Caller} {r : CommitResult} (h : (interleavings signer (fun _ => True) may t₀).Reachable σ)
    (hx : σ.sessions i = some x) (hc : x.txn = c.txn) (hp : x.program = .done (some r)) :
    Claimed (c.pi.commitRequest c.recordedAt) r x.pending := by
  have hensures := ((Database.ensures_invariant (fun _ _ _ _ => True)
    (P := fun txn a _ w => ∀ req ids r, txn = .commitRequest req ids → a = some r →
      Claimed req r w) (fun _ _ _ => trivial) (fun txn _ => ?_) t₀).holds h i x hx).2
  · rw [hp] at hensures
    exact hensures.of_done _ _ r hc rfl
  · by_cases hrequest : ∃ req ids, txn = .commitRequest req ids
    · obtain ⟨req, ids, rfl⟩ := hrequest
      refine (commitRequest_claimed req signer ids).map ?_ fun _ _ _ _ => trivial
      rintro r _ w hclaimed req' ids' r' heq hr
      cases heq
      cases hr
      exact hclaimed
    · refine Database.Ensures.of_forall (fun a _ w req ids r heq => ?_) _ _ _
      exact absurd ⟨req, ids, heq⟩ hrequest

/-- What a call does next, it is told. -/
theorem Caller.Step.told [TextForms] {t₀ : Tables} {c : Caller} {σ σ' : Interleaved} {stage : Stage}
    (hstep : c.Step signer σ stage σ')
    (hr : (interleavings signer (fun _ => True) may t₀).Reachable σ)
    (h : Told σ.committed c.pi c.stage) :
    (σ' = σ ∨ (interleavings signer (fun _ => True) may t₀).step σ σ') ∧
      Told σ'.committed c.pi stage := by
  cases hstep with
  | reads hreads =>
    refine ⟨.inl rfl, ?_⟩
    generalize c.stage = before at h hreads
    cases hreads with
    | gating query k =>
      cases h with
      | gating h => exact .gating h.read
    | regating query k =>
      cases h with
      | regating h => exact .regating h.read
  | @stopped verdict hs ho =>
    rw [hs] at h
    cases h with
    | gating h =>
      refine ⟨.inl rfl, .returned fun decision hd => .inl (h.decision ?_)⟩
      simp only [stoppedResult] at hd
      split_ifs at hd
      exact hd
  | passed hs ho => exact ⟨.inr (.start c.txn trivial), .committing _ _⟩
  | raised error hs => exact ⟨.inr (.rollback _), .raised error⟩
  | @committed verdict i hs x hx hc r hp ho =>
    refine ⟨.inr (.commit i x _ hx hp), .returned fun decision hd => ?_⟩
    cases hd
    by_cases hcommitted : r.outcome = .committed
    · exact .inl (stored_of_claimed (claimed_of_done hr hx hc hp) hcommitted _)
    · exact .inr ⟨r, rfl, hcommitted⟩
  | lost hs x hx hc r hp ho => exact ⟨.inr (.commit _ x _ hx hp), .regating (.unread rfl)⟩
  | answered hs =>
    rw [hs] at h
    cases h with
    | regating h => exact ⟨.inl rfl, .returned fun decision hd => .inl (h.decision hd)⟩

theorem told_invariant [TextForms] (t₀ : Tables) : (callers signer may t₀).Invariant fun q =>
    (interleavings signer (fun _ => True) may t₀).Reachable q.db ∧
      ∀ c ∈ q.calls, Told q.db.committed c.pi c.stage where
  init := by
    rintro q rfl
    exact ⟨.init rfl, by rintro c ⟨⟩⟩
  step := by
    rintro q q' - ⟨hr, h⟩ hstep
    cases hstep with
    | database hdb =>
      exact ⟨hr.step hdb, fun c hc => (h c hc).mono (idempotency_le_step hr hdb)⟩
    | begins pi recordedAt ids =>
      refine ⟨hr, fun c hc => ?_⟩
      rcases List.mem_append.1 hc with hc | hc
      · exact h c hc
      · rw [List.mem_singleton] at hc
        rw [hc]
        exact .gating (.unread rfl)
    | @call j c stage σ hj hcall =>
      obtain ⟨hdb, htold⟩ := hcall.told hr (h c (List.mem_of_getElem? hj))
      have hreach : (interleavings signer (fun _ => True) may t₀).Reachable σ ∧
          q.db.committed.idempotency.Le σ.committed.idempotency := by
        rcases hdb with rfl | hdb
        · exact ⟨hr, .refl _⟩
        · exact ⟨hr.step hdb, idempotency_le_step hr hdb⟩
      refine ⟨hreach.1, fun c' hc' => ?_⟩
      rcases List.mem_or_eq_of_mem_set hc' with hc' | rfl
      · exact (h c' hc').mono hreach.2
      · exact htold

end Postgres

/-- However calls of `process_request` interleave, statement by statement, with
    each other and with any transactions: a decision that a call returned is
    the stored one from then on, unless its commit was refused.  So all calls
    under one key that were not refused return one decision, on one proposal.
    Where no request clashes once it has claimed its key, that decision is on a
    chain. -/
theorem callers_agree [TextForms] (signer : GatewaySigner) :
    (∀ may t₀ q, (Postgres.callers signer may t₀).Reachable q → ∀ c ∈ q.calls, ∀ result decision,
      c.stage = .returned (.ok result) → result.decision = some decision →
      ¬ Postgres.Unstored result →
        Postgres.Stored q.db.committed c.pi decision ∧
        ∀ c' ∈ q.calls, ∀ result' decision', c'.stage = .returned (.ok result') →
          result'.decision = some decision' → ¬ Postgres.Unstored result' →
          c'.pi.proposal.idempotencyKey = c.pi.proposal.idempotencyKey →
            decision' = decision ∧ proposalDigest c'.pi = proposalDigest c.pi) ∧
      ∀ q, (Postgres.callers signer Unclashed .empty).Reachable q → ∀ c ∈ q.calls,
        ∀ result decision, c.stage = .returned (.ok result) → result.decision = some decision →
        ¬ Postgres.Unstored result →
          ∃ dealId, ∃ e ∈ q.db.committed.eventsFor dealId,
            e.Records c.pi.proposal.idempotencyKey (proposalDigest c.pi) decision := by
  have hstored : ∀ {may t₀ q}, (Postgres.callers signer may t₀).Reachable q → ∀ c ∈ q.calls,
      ∀ result decision, c.stage = .returned (.ok result) → result.decision = some decision →
      ¬ Postgres.Unstored result → Postgres.Stored q.db.committed c.pi decision := by
    intro may t₀ q hq c hc result decision hs hd hn
    have htold := ((Postgres.told_invariant t₀).holds hq).2 c hc
    rw [hs] at htold
    cases htold with
    | returned h => exact (h decision hd).resolve_right hn
  refine ⟨fun may t₀ q hq c hc result decision hs hd hn => ⟨hstored hq c hc _ _ hs hd hn, ?_⟩,
    fun q hq c hc result decision hs hd hn => ?_⟩
  · intro c' hc' result' decision' hs' hd' hn' hkey
    have hrow := hstored hq c hc _ _ hs hd hn
    have hrow' := hstored hq c' hc' _ _ hs' hd' hn'
    rw [Postgres.Stored, hkey, hrow] at hrow'
    obtain ⟨hdigest, hdecision⟩ := Prod.ext_iff.1 (Option.some.inj hrow')
    exact ⟨hdecision.symm, hdigest.symm⟩
  · have hrow := hstored hq c hc _ _ hs hd hn
    obtain ⟨e, he, hrecords⟩ :=
      Postgres.logged_invariant.holds ((Postgres.told_invariant _).holds hq).1 _ _ _ hrow
    exact ⟨e.dealId, e, Tables.mem_eventsFor.2 ⟨he, rfl⟩, hrecords⟩

end

/-! ## A race -/

section
open Sample Postgres
attribute [local instance] Sample.platform Sample.textForms

/-- A call goes on, or a transaction has a statement. -/
inductive Sample.Move where
  | call (j : ℕ)
  | run (i : ℕ)

def Sample.callOn (σ : Interleaved) (c : Caller) : Option (Stage × Interleaved) :=
  match c.stage with
  | .gating (.select query k) => some (.gating (k (σ.committed.ask query)), σ)
  | .gating (.done verdict) =>
    if verdict.outcome = .pass then
      some (.committing verdict σ.next,
        { σ.put σ.next (some ⟨c.txn, c.txn.code signer, [], []⟩) with next := σ.next + 1 })
    else none
  | .committing verdict i =>
    match σ.sessions i with
    | some x =>
      match x.program with
      | .done (some r) =>
        some (if r.outcome = .alreadyApplied then .regating (gate c.pi .done)
          else .returned (.ok ⟨verdict, some (evaluate c.pi), some r⟩),
          σ.commit postgres applied i x (some r))
      | _ => none
    | none => none
  | .regating (.select query k) => some (.regating (k (σ.committed.ask query)), σ)
  | .regating (.done verdict) => some (.returned (.ok ⟨verdict, verdict.decision, none⟩), σ)
  | _ => none

def Sample.move (q : Callers) : Move → Option Callers
  | .call j =>
    match q.calls[j]? with
    | some c => (callOn q.db c).map fun (stage, σ) => ⟨σ, q.calls.set j { c with stage }⟩
    | none => none
  | .run i =>
    match q.db.sessions i with
    | some x => (postgres.advance q.db.committed (q.db.free postgres i) x).map fun x' =>
      { q with db := q.db.put i (some x') }
    | none => none

/-- A call of the agent that counters early. -/
def Sample.counters : Caller := ⟨counteredEarly, now.text, ids, .gating (gate counteredEarly .done)⟩

/-- Two calls on one registered deal. -/
def Sample.atOnce : Callers := ⟨.idle registeredTables, [counters, counters]⟩

/-- Both pass the gate; one commits, and the other finds its key taken. -/
def Sample.moves : List Move :=
  List.replicate 4 (.call 0) ++ List.replicate 4 (.call 1) ++ List.replicate 7 (.run 0) ++
    [.call 0] ++ List.replicate 2 (.run 1) ++ List.replicate 3 (.call 1)

theorem Sample.step_of_callOn {σ σ' : Interleaved} {c : Caller} {stage : Stage}
    (hx : ∀ i x, σ.sessions i = some x → x.txn = c.txn) (h : callOn σ c = some (stage, σ')) :
    c.Step signer σ stage σ' := by
  unfold callOn at h
  split at h
  · rename_i query k hs
    cases h
    exact .reads (hs ▸ .gating query k)
  · rename_i verdict hs
    split_ifs at h with ho
    cases h
    exact .passed hs ho
  · rename_i verdict i hs
    split at h
    · rename_i x hsession
      split at h
      · rename_i r hp
        split_ifs at h with ho
        · cases h
          exact .lost hs x hsession (hx i x hsession) r hp ho
        · cases h
          exact .committed hs x hsession (hx i x hsession) r hp ho
      · cases h
    · cases h
  · rename_i query k hs
    cases h
    exact .reads (hs ▸ .regating query k)
  · rename_i verdict hs
    cases h
    exact .answered hs
  · cases h

/-- What is reached by moves, with transactions of these calls only. -/
structure Sample.Raced (q : Callers) : Prop where
  reachable : (callers signer (fun _ _ => True) registeredTables).Reachable q
  calls : ∀ c ∈ q.calls, c.txn = counters.txn
  sessions : ∀ i x, q.db.sessions i = some x → x.txn = counters.txn

theorem Sample.Raced.move {q q' : Callers} {m : Move} (h : Raced q) (hm : move q m = some q') :
    Raced q' := by
  unfold Sample.move at hm
  cases m with
  | call j =>
    dsimp only at hm
    split at hm
    · rename_i c hj
      obtain ⟨⟨stage, σ⟩, hcall, rfl⟩ := Option.map_eq_some_iff.1 hm
      have hc := h.calls c (List.mem_of_getElem? hj)
      have hstep := step_of_callOn (fun i x hx => (h.sessions i x hx).trans hc.symm) hcall
      refine ⟨h.reachable.step (.call hj hstep), fun c' hc' => ?_, fun i x hx => ?_⟩
      · rcases List.mem_or_eq_of_mem_set hc' with hc' | rfl
        · exact h.calls c' hc'
        · exact hc
      · have hput : ∀ i' y, (∀ x', y = some x' → x'.txn = counters.txn) →
            (q.db.put i' y).sessions i = some x → x.txn = counters.txn := by
          intro i' y hy hx
          rw [Database.sessions_put] at hx
          split_ifs at hx
          · exact hy x hx
          · exact h.sessions i x hx
        cases hstep with
        | reads | stopped | answered => exact h.sessions i x hx
        | passed => exact hput _ _ (fun x' hx' => by cases hx'; exact hc) hx
        | raised | committed | lost => exact hput _ _ (by rintro x' ⟨⟩) hx
    · cases hm
  | run i =>
    dsimp only at hm
    split at hm
    · rename_i x hx
      obtain ⟨x', hadvance, rfl⟩ := Option.map_eq_some_iff.1 hm
      have htxn : x'.txn = x.txn := by cases postgres.advances_of_eq hadvance <;> rfl
      refine ⟨h.reachable.step (.database (.advance i x x' hx trivial hadvance)), h.calls,
        fun j y hy => ?_⟩
      rw [Database.sessions_put] at hy
      split_ifs at hy
      · cases hy
        exact htxn.trans (h.sessions i x hx)
      · exact h.sessions j y hy
    · cases hm

theorem Sample.Raced.moves {ms : List Move} : ∀ {q q' : Callers}, Raced q →
    ms.foldlM Sample.move q = some q' → Raced q' := by
  induction ms with
  | nil =>
    rintro q q' h ⟨⟩
    exact h
  | cons m ms ih =>
    intro q q' h hms
    rw [List.foldlM_cons] at hms
    obtain ⟨q₁, hm, hms⟩ := Option.bind_eq_some_iff.1 hms
    exact ih (h.move hm) hms

theorem Sample.raced_atOnce : Raced atOnce where
  reachable := by
    have hone : (callers signer (fun _ _ => True) registeredTables).Reachable
        ⟨.idle registeredTables, [counters]⟩ :=
      .step (.init rfl) (CallersStep.begins counteredEarly now.text ids)
    exact hone.step (CallersStep.begins counteredEarly now.text ids)
  calls := by simp [atOnce]
  sessions := by rintro i x ⟨⟩

/-- What a call returned: the outcome it was told, and that of its commit. -/
def Sample.told (c : Caller) : Option (Outcome × Option CommitOutcome) :=
  match c.stage with
  | .returned (.ok ⟨_, some decision, commit⟩) =>
    some (decision.outcome, commit.map CommitResult.outcome)
  | _ => none

theorem Sample.returned_of_told {c : Caller} {outcome : Outcome} {commit : Option CommitOutcome}
    (h : told c = some (outcome, commit)) : ∃ result decision,
      c.stage = .returned (.ok result) ∧ result.decision = some decision ∧
        result.commit.map CommitResult.outcome = commit := by
  unfold told at h
  split at h
  · rename_i verdict decision commit' hs
    cases h
    exact ⟨_, decision, hs, rfl, rfl⟩
  · cases h

/-- Two calls at once: one is denied, and the other is told so. -/
theorem callers_agree_race : ∃ q, (callers signer (fun _ _ => True) registeredTables).Reachable q ∧
    ∃ c ∈ q.calls, ∃ c' ∈ q.calls, ∃ result result' decision,
      c.stage = .returned (.ok result) ∧ c'.stage = .returned (.ok result') ∧
      result.commit.map CommitResult.outcome = some .committed ∧ result'.commit = none ∧
      result.decision = some decision ∧ result'.decision = some decision ∧
      Stored q.db.committed c.pi decision := by
  have htold : (moves.foldlM Sample.move atOnce).map (fun q => q.calls.map fun c =>
      (told c, c.pi.proposal.idempotencyKey)) =
      some [(some (.deny, some .committed), counteredEarly.proposal.idempotencyKey),
        (some (.deny, none), counteredEarly.proposal.idempotencyKey)] := by decide +kernel
  obtain ⟨q, hq, htold⟩ := Option.map_eq_some_iff.1 htold
  have hreach := (raced_atOnce.moves hq).reachable
  obtain ⟨c, rest, hcalls, hc, hrest⟩ := List.map_eq_cons_iff.1 htold
  obtain ⟨c', rest', rfl, hc', -⟩ := List.map_eq_cons_iff.1 hrest
  obtain ⟨htold, hkey⟩ := Prod.ext_iff.1 hc
  obtain ⟨htold', hkey'⟩ := Prod.ext_iff.1 hc'
  obtain ⟨result, decision, hs, hd, hcommit⟩ := returned_of_told htold
  obtain ⟨result', decision', hs', hd', hcommit'⟩ := returned_of_told htold'
  have hmem : c ∈ q.calls := by simp [hcalls]
  have hmem' : c' ∈ q.calls := by simp [hcalls]
  have hstored : ¬ Unstored result := by
    rintro ⟨r, hr, ho⟩
    rw [hr] at hcommit
    exact ho (Option.some.inj hcommit)
  have hnone : result'.commit = none := Option.map_eq_none_iff.1 hcommit'
  have hstored' : ¬ Unstored result' := by
    rintro ⟨r, hr, -⟩
    rw [hr] at hnone
    cases hnone
  obtain ⟨hrow, hagree⟩ :=
    (callers_agree signer).1 _ _ q hreach c hmem result decision hs hd hstored
  obtain ⟨rfl, -⟩ := hagree c' hmem' result' decision' hs' hd' hstored' (hkey'.trans hkey.symm)
  exact ⟨q, hreach, c, hmem, c', hmem', result, result', _, hs, hs', hcommit, hnone, hd, hd', hrow⟩

end

end Mandate
