/-
  Request commits are all or nothing, unless a clash is found late.

  A request claims its idempotency key first and returns from the middle of its
  transaction when a later claim fails; the return commits what was claimed.  So
  a request that clashes leaves the key with a decision that no event logs
  (`Overtaken`).  Where no request clashes after it has claimed its key, every
  stored decision is logged, in any interleaving (`request_commits_logged`).
-/
import Mandate.Postgres.Sequential

namespace Mandate

section
variable [Platform]

/-- A commit that says that it committed, or one that changed no table. -/
def AllOrNothing (signer : GatewaySigner) (ids : EventIds) (req : CommitRequest) (t : Tables) :
    Prop :=
  let done := postgres.alone t (Postgres.commitRequest req signer ids)
  (∃ r, done.1 = .ok r ∧ r.outcome = .committed) ∨ done.2 = t

/-- A request that may go ahead on the stored deal, under a fresh idempotency
    key, and whose request id or nonce clashes. -/
structure CommitRequest.Overtaken (req : CommitRequest) (t : Tables) : Prop where
  rechecked : ∃ deal event, t.deals.get? req.dealId = some deal ∧
    planTransition deal req.action req.decision.outcome = .ok event
  fresh : t.idempotency.get? req.idempotencyKey = none
  clashes : req.Clashes t

/-- Every stored decision is logged under its key. -/
def Tables.Logged (t : Tables) : Prop :=
  ∀ key digest decision, t.idempotency.get? key = some (digest, decision) →
    ∃ dealId, ∃ e ∈ t.eventsFor dealId, e.Records key digest decision

/-- The interleavings of the store's transactions. -/
def interleavings [TextForms] (signer : GatewaySigner) (begins : Postgres.Txn → Prop)
    (may : Tables → Database.Session Query.Answer Write PyError (Option CommitResult) Postgres.Txn →
      Prop) (t : Tables) :=
  postgres.readCommitted (Postgres.Txn.code signer) Postgres.applied begins may t

/-- A request that has claimed its idempotency key clashes with nothing. -/
def Unclashed (t : Tables)
    (x : Database.Session Query.Answer Write PyError (Option CommitResult) Postgres.Txn) : Prop :=
  x.pending ≠ [] → ∀ req, x.txn.request? = some req → ¬ req.Clashes t

namespace Postgres

variable {signer : GatewaySigner} {ids : EventIds} {t : Tables} {req : CommitRequest}

/-- A request that ends with nothing written, or as a commit, is all or nothing. -/
theorem allOrNothing_of_ends
    (h : ∀ r w, postgres.exec t (commitRequest req signer ids) [] = .ok (r, w) →
      ∃ reads, Ends req.dealId False r reads w) : AllOrNothing signer ids req t := by
  unfold AllOrNothing Database.alone
  cases he : postgres.exec t (commitRequest req signer ids) [] with
  | error error => exact .inr rfl
  | ok result =>
    obtain ⟨r, w⟩ := result
    obtain ⟨reads, hends⟩ := h r w he
    cases hends with
    | refused ho => exact .inr rfl
    | overtaken _ ho hl => exact hl.elim
    | committed claims rest seq prevHash ho => exact .inl ⟨r, rfl, ho⟩

variable (signer ids) in
/-- An overtaken request answers that it was applied, and keeps its key. -/
theorem exec_overtaken (h : req.Overtaken t) : ∃ r w,
    postgres.exec t (commitRequest req signer ids) [] = .ok (r, w) ∧
      r.outcome = .alreadyApplied ∧
      (w = [.idempotency req.idempotencyKey req.proposalDigest req.decision] ∨
        w = [.idempotency req.idempotencyKey req.proposalDigest req.decision,
          .request req.requestId]) := by
  obtain ⟨deal, event, hd, ht⟩ := h.rechecked
  rw [exec_commitRequest]
  simp only [hd, ht, h.fresh, Option.isSome_none, Bool.false_eq_true, if_false]
  split_ifs with hr
  · exact ⟨_, _, rfl, rfl, .inl rfl⟩
  · obtain ⟨owner, ho, hne⟩ := h.clashes.resolve_left hr
    rw [exec_claimNonce _ _ rfl, ho]
    simp only [if_pos hne]
    exact ⟨_, _, rfl, rfl, .inr rfl⟩

variable (signer ids) in
/-- It keeps its key with its decision, and logs nothing. -/
theorem alone_overtaken (h : req.Overtaken t) :
    let done := postgres.alone t (commitRequest req signer ids)
    (∃ r, done.1 = .ok r ∧ r.outcome = .alreadyApplied) ∧ done.2.events = t.events ∧
      done.2.idempotency.get? req.idempotencyKey = some (req.proposalDigest, req.decision) := by
  obtain ⟨r, w, he, ho, hw⟩ := exec_overtaken signer ids h
  rw [postgres.alone_of_exec he]
  refine ⟨⟨r, rfl, ho⟩, ?_⟩
  rcases hw with rfl | rfl
  · exact ⟨rfl, Dict.get?_set_self ..⟩
  · exact ⟨rfl, Dict.get?_set_self ..⟩

theorem not_allOrNothing_of_overtaken (h : req.Overtaken t) : ¬ AllOrNothing signer ids req t := by
  obtain ⟨⟨r, hr, ho⟩, -, hkey⟩ := alone_overtaken signer ids h
  rintro (⟨r', hr', hc⟩ | ht)
  · cases hr.symm.trans hr'
    rw [ho] at hc
    cases hc
  · -- the key was fresh, and is there now
    rw [ht, h.fresh] at hkey
    cases hkey

theorem allOrNothing_iff : AllOrNothing signer ids req t ↔ ¬ req.Overtaken t := by
  refine ⟨fun h ho => not_allOrNothing_of_overtaken ho h, fun h => ?_⟩
  refine allOrNothing_of_ends fun r w he => ?_
  by_cases hc : req.Clashes t
  · -- stopped before the first claim
    have hstop : w = [] ∧ r.outcome ≠ .committed := by
      rw [exec_commitRequest] at he
      cases hd : t.deals.get? req.dealId with
      | none =>
        simp only [hd] at he
        cases he
        exact ⟨rfl, by simp⟩
      | some deal =>
        simp only [hd] at he
        cases ht : planTransition deal req.action req.decision.outcome with
        | error abort =>
          simp only [ht] at he
          cases he
          exact ⟨rfl, by simp⟩
        | ok event =>
          cases hk : t.idempotency.get? req.idempotencyKey with
          | none => exact absurd ⟨⟨deal, event, hd, ht⟩, hk, hc⟩ h
          | some stored =>
            simp only [ht, hk, Option.isSome_some, if_true] at he
            cases he
            exact ⟨rfl, by simp⟩
    rw [hstop.1]
    exact ⟨[], .refused r [] hstop.2⟩
  · have hends : postgres.Ensures (fun t' _ _ => t' = t) (Ends req.dealId False)
        (commitRequest req signer ids) [] [] :=
      commitRequest_ends _ req fun t' w p ht _ hcl => hc (ht ▸ hcl)
    exact hends.exec (fun _ _ => rfl) he

/-! ## Interleavings -/

variable [TextForms]

/-- Tables that a run gets to, with no transaction in flight. -/
def Settled (signer : GatewaySigner) (begins : Txn → Prop)
    (may : Tables → Database.Session Query.Answer Write PyError (Option CommitResult) Txn → Prop)
    (t t' : Tables) : Prop :=
  ∃ σ, (interleavings signer begins may t).Reachable σ ∧ (∀ i, σ.sessions i = none) ∧
    σ.committed = t'

theorem settled_start (signer : GatewaySigner) (begins : Txn → Prop)
    (may : Tables → Database.Session Query.Answer Write PyError (Option CommitResult) Txn → Prop)
    (t : Tables) : Settled signer begins may t t := ⟨.idle t, .init rfl, fun _ => rfl, rfl⟩

/-- A transaction that runs alone. -/
theorem settled_alone {begins : Txn → Prop}
    {may : Tables → Database.Session Query.Answer Write PyError (Option CommitResult) Txn → Prop}
    {t' : Tables} {c : Txn} (h : Settled signer begins may t t') (hc : begins c)
    (hm : ∀ x : Database.Session Query.Answer Write PyError (Option CommitResult) Txn,
      x.txn = c → x.Holds postgres t' → may t' x)
    (hok : (postgres.alone t' (c.code signer)).1.isOk) :
    Settled signer begins may t (postgres.alone t' (c.code signer)).2 := by
  obtain ⟨σ, hσ, hs, rfl⟩ := h
  cases hr : (postgres.alone σ.committed (c.code signer)).1 with
  | error e =>
    rw [hr] at hok
    cases hok
  | ok r =>
    refine ⟨_, Database.alone_reachable _ _ _ _ _ hσ (fun j y hy => ?_) hc hm (Prod.ext hr rfl),
      hs, rfl⟩
    rw [hs j] at hy
    cases hy

omit [Platform] [TextForms] in
/-- A transaction that was not overtaken logs the decisions it stores. -/
theorem TxnEnds.logs {r : Option CommitResult} {reads : List (Database.Read Query.Answer Write)}
    {w : List Write} (h : TxnEnds False r reads w) {key digest : String}
    {decision : PolicyDecision} (hm : .idempotency key digest decision ∈ w) :
    ∃ e, .event e ∈ w ∧ e.Records key digest decision := by
  cases h with
  | quiet _ _ hq => exact absurd rfl ((hq _ hm).2 key digest decision)
  | commit dealId r _ _ h =>
    cases h with
    | refused ho => cases hm
    | overtaken _ ho hl => exact hl.elim
    | committed claims rest seq prevHash ho hr hq hn hne hd =>
      have hm' : .idempotency key digest decision ∈ claims ++ rest := by
        simpa [List.mem_append, or_assoc] using hm
      obtain ⟨e, he, hrec⟩ := hd key digest decision hm'
      exact ⟨e, List.mem_append_left _ (List.mem_append_right _ (List.mem_map_of_mem he)), hrec⟩

theorem logged_invariant :
    (interleavings signer (fun _ => True) Unclashed .empty).Invariant fun σ =>
      ∀ key digest decision, σ.committed.idempotency.get? key = some (digest, decision) →
        ∃ e ∈ σ.committed.events, e.Records key digest decision := by
  refine Database.committed_ensured (fun c t w _ => w ≠ [] →
    ∀ req, c.request? = some req → ¬ req.Clashes t) (P := fun _ => TxnEnds False)
    (I := fun t => ∀ key digest decision, t.idempotency.get? key = some (digest, decision) →
        ∃ e ∈ t.events, e.Records key digest decision)
    (fun s x hm => hm) (fun c _ => code_ends c fun t w p h hw req hr hc => h hw req hr hc)
    ?_ ?_
  · rintro key digest decision ⟨⟩
  intro t c r reads w ht _ hends key digest decision hk
  rcases idempotency_view hk with hk | hm
  · obtain ⟨e, he, hrec⟩ := ht key digest decision hk
    exact ⟨e, mem_events_view.2 (.inl he), hrec⟩
  · obtain ⟨e, he, hrec⟩ := hends.logs hm
    exact ⟨e, mem_events_view.2 (.inr he), hrec⟩

end Postgres

/-- A request commit is all or nothing exactly when it is not overtaken.  Where
    no request clashes once it has claimed its key, every stored decision is
    logged, and so is every decision that an idempotent hit answers with. -/
theorem request_commits_logged [TextForms] (signer : GatewaySigner) :
    (∀ t ids req, AllOrNothing signer ids req t ↔ ¬ req.Overtaken t) ∧
      ∀ σ, (interleavings signer (fun _ => True) Unclashed .empty).Reachable σ →
        σ.committed.Logged ∧
        ∀ pi decision, (checkAntiReplay pi σ.committed.seen).decision = some decision →
          ∃ dealId, ∃ e ∈ σ.committed.eventsFor dealId,
            e.Records pi.proposal.idempotencyKey (proposalDigest pi) decision := by
  refine ⟨fun t ids req => Postgres.allOrNothing_iff, fun σ hσ => ?_⟩
  have hlogged : σ.committed.Logged := by
    intro key digest decision hk
    obtain ⟨e, he, hrec⟩ := Postgres.logged_invariant.holds hσ key digest decision hk
    exact ⟨e.dealId, e, Tables.mem_eventsFor.2 ⟨he, rfl⟩, hrec⟩
  refine ⟨hlogged, fun pi decision hd => ?_⟩
  unfold checkAntiReplay at hd
  cases hk : σ.committed.seen.decisionFor pi.proposal.idempotencyKey with
  | none =>
    simp only [hk] at hd
    split_ifs at hd
    cases ho : σ.committed.seen.nonceOwner pi.authority.record.nonce with
    | none => simp [ho] at hd
    | some owner =>
      simp only [ho] at hd
      split_ifs at hd
  | some stored =>
    obtain ⟨digest, stored⟩ := stored
    simp only [hk] at hd
    split_ifs at hd with hdigest
    · cases hd
      rw [← hdigest]
      exact hlogged _ _ _ hk

end

/-! ## A worked clash -/

section
open Sample
attribute [local instance] Sample.platform Sample.textForms

/-- Tables with one registered deal. -/
def Sample.registeredTables : Tables :=
  (postgres.alone .empty (Postgres.Txn.code signer (.createDeal (.fresh dealId) start.text))).2

/-- The agent counters an offer that was never made. -/
def Sample.counteredEarly : PolicyInput := input (.fresh dealId) .counteroffer none '1'

/-- The tables after its denial. -/
def Sample.deniedTables : Tables :=
  (postgres.alone registeredTables
    (Postgres.Txn.code signer (.submit counteredEarly now.text ids))).2

/-- A request for a quote under the request id of the denial. -/
def Sample.askedAgain : PolicyInput :=
  { input (.fresh dealId) .requestQuote none '1' with
    proposal := { (input (.fresh dealId) .requestQuote none '2').proposal with }
    contentNeedsDigest := digest_of_noContent }

/-- The tables after that request. -/
def Sample.overtakenTables : Tables :=
  (postgres.alone deniedTables
    (Postgres.commitRequest (askedAgain.commitRequest now.text) signer ids)).2

theorem Sample.askedAgain_overtaken :
    (askedAgain.commitRequest now.text).Overtaken deniedTables ∧
      ∀ e ∈ deniedTables.events,
        e.str? "idempotency_key" ≠ some askedAgain.proposal.idempotencyKey := by
  have hfacts : deniedTables.deals.get? dealId = some (.fresh dealId) ∧
      planTransition (.fresh dealId) askedAgain.proposal.action (evaluate askedAgain).outcome =
        .ok (some .quoteRequested) ∧
      deniedTables.idempotency.get? askedAgain.proposal.idempotencyKey = none ∧
      askedAgain.requestId ∈ deniedTables.seenRequests ∧
      ∀ e ∈ deniedTables.events,
        e.str? "idempotency_key" ≠ some askedAgain.proposal.idempotencyKey := by
    decide +kernel
  obtain ⟨hd, ht, hk, hr, hnone⟩ := hfacts
  exact ⟨⟨⟨_, _, hd, ht⟩, hk, .inl hr⟩, hnone⟩

/-- The request keeps its key, and a retry is answered with a decision that no
    event logs. -/
theorem overtaken_request_keeps_key :
    ¬ AllOrNothing signer ids (askedAgain.commitRequest now.text) deniedTables ∧
      ¬ overtakenTables.Logged ∧
      (checkAntiReplay askedAgain overtakenTables.seen).decision = some (evaluate askedAgain) := by
  obtain ⟨ho, hnone⟩ := askedAgain_overtaken
  obtain ⟨-, hevents, hkey⟩ := Postgres.alone_overtaken signer ids ho
  refine ⟨Postgres.not_allOrNothing_of_overtaken ho, fun hlogged => ?_, ?_⟩
  · obtain ⟨dealId, e, he, -, requestId, action, amount, hp⟩ := hlogged _ _ _ hkey
    have he' := (Tables.mem_eventsFor.1 he).1
    rw [overtakenTables, hevents] at he'
    refine hnone e he' ?_
    simp only [Event.str?, Event.field, hp, decisionPayload]
    rfl
  · have hd : overtakenTables.seen.decisionFor askedAgain.proposal.idempotencyKey =
        some (proposalDigest askedAgain, evaluate askedAgain) := hkey
    rw [checkAntiReplay, hd]
    simp only [if_true]

/-- The run that registers the deal and denies the counteroffer. -/
theorem denied_request_logged :
    (AllOrNothing signer ids (counteredEarly.commitRequest now.text) registeredTables ↔
      ¬ (counteredEarly.commitRequest now.text).Overtaken registeredTables) ∧
    deniedTables.Logged := by
  have hok : (postgres.alone .empty
        (Postgres.Txn.code signer (.createDeal (.fresh dealId) start.text))).1.isOk ∧
      (postgres.alone registeredTables
        (Postgres.Txn.code signer (.submit counteredEarly now.text ids))).1.isOk := by
    decide +kernel
  have hnone : counteredEarly.requestId ∉ registeredTables.seenRequests ∧
      registeredTables.seenNonces.get? record.nonce = none := by
    decide +kernel
  have hfree : ∀ x : Database.Session Query.Answer Write PyError (Option CommitResult)
      Postgres.Txn, x.txn = .submit counteredEarly now.text ids → Unclashed registeredTables x := by
    intro x hx _ req hr
    rw [hx] at hr
    cases hr
    rintro (h | ⟨owner, h, -⟩)
    · exact hnone.1 h
    · cases hnone.2.symm.trans h
  have hstart := Postgres.settled_start signer (fun _ => True) Unclashed .empty
  have hregistered := Postgres.settled_alone hstart trivial
    (fun x hx _ _ req hr => by rw [hx] at hr; cases hr) hok.1
  obtain ⟨σ, hσ, -, ht⟩ := Postgres.settled_alone hregistered trivial (fun x hx _ => hfree x hx) hok.2
  obtain ⟨hiff, hruns⟩ := request_commits_logged signer
  refine ⟨hiff registeredTables ids _, ?_⟩
  have hlogged := (hruns σ hσ).1
  rw [ht] at hlogged
  exact hlogged

end

end Mandate
