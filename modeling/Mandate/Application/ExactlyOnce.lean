/-
  Exactly-once requests.

  Stored decisions, seen requests and nonce owners never change (`Persists`),
  so a call that comes after a committed one is answered by what was stored;
  with the tally of decisions this is `requests_exactly_once`.
-/
import Mandate.Application.Tally

namespace Mandate

section
variable [Platform]

/-! ## The proposal behind a digest -/

omit [Platform] in
/-- Proposals with one canonical form are equal. -/
theorem Proposal.eq_of_normalize {p q : Proposal}
    (h : Json.normalize p.toJson = Json.normalize q.toJson) : p = q := by
  have key := Json.member_inj (by simp) (by simp) h
  have ha : Json.normalize (.str p.action) = Json.normalize (.str q.action) :=
    Option.some.inj (key "action")
  have hd : Json.normalize (.str p.dealId) = Json.normalize (.str q.dealId) :=
    Option.some.inj (key "deal_id")
  have hm := optInt_inj (Option.some.inj (key "amount_minor"))
  have hc : Json.normalize (.str p.currency) = Json.normalize (.str q.currency) :=
    Option.some.inj (key "currency")
  have hf := Json.arr_str_inj (Option.some.inj (key "disclosure_fields"))
  have hi : Json.normalize (.str p.idempotencyKey) = Json.normalize (.str q.idempotencyKey) :=
    Option.some.inj (key "idempotency_key")
  have hs := optStr_inj (Option.some.inj (key "content_sha256"))
  simp only [Json.normalize, Json.str.injEq] at ha hd hc hi
  have hm : p.amountMinor = q.amountMinor :=
    Option.map_injective (f := fun n : ℕ => (n : ℤ)) (fun _ _ h => Int.ofNat.inj h) hm
  cases p
  cases q
  simp_all only

/-- The digest of these two byte strings tells them apart. -/
def NoCollision (a b : Bytes) : Prop := Platform.sha256Hex a = Platform.sha256Hex b → a = b

/-- Without a collision, different proposals have different digests. -/
theorem proposalDigest_ne {pi pi' : PolicyInput} (h : pi.proposal ≠ pi'.proposal)
    (hc : NoCollision (Json.canonicalBytes pi.proposal.toJson)
      (Json.canonicalBytes pi'.proposal.toJson)) : proposalDigest pi ≠ proposalDigest pi' :=
  fun hd => h (Proposal.eq_of_normalize (Json.canonicalBytes_inj.1 (hc hd)))

/-! ## What is stored stays -/

/-- Stored decisions, seen requests and nonce owners of `s` are those of `s'`. -/
structure Persists (s s' : Store) : Prop where
  decisions : ∀ k v, s.decisions.get? k = some v → s'.decisions.get? k = some v
  seenRequests : s.seenRequests ⊆ s'.seenRequests
  nonceOwners : ∀ n o, s.nonceOwners.get? n = some o → s'.nonceOwners.get? n = some o

omit [Platform] in
theorem Persists.refl (s : Store) : Persists s s :=
  ⟨fun _ _ h => h, Finset.Subset.refl _, fun _ _ h => h⟩

omit [Platform] in
theorem Persists.trans {s s' s'' : Store} (h : Persists s s') (h' : Persists s' s'') :
    Persists s s'' where
  decisions k v hk := h'.decisions k v (h.decisions k v hk)
  seenRequests := h.seenRequests.trans h'.seenRequests
  nonceOwners n o hn := h'.nonceOwners n o (h.nonceOwners n o hn)

omit [Platform] in
/-- The seen-request state alone decides persistence. -/
theorem Persists.congr {s s' : Store} (hd : s'.decisions = s.decisions)
    (hs : s'.seenRequests = s.seenRequests) (hn : s'.nonceOwners = s.nonceOwners) :
    Persists s s' where
  decisions k v hk := by rw [hd]; exact hk
  seenRequests := hs ▸ Finset.Subset.refl _
  nonceOwners n o ho := by rw [hn]; exact ho

section
variable {signer : GatewaySigner} {may : Store → LedgerOp → Prop}

/-- A commit past the gate overwrites no stored decision and no owner. -/
theorem persists_processRequest (s : Store) (pi : PolicyInput) (recordedAt : String)
    (ids : EventIds) : Persists s (processRequest s pi signer recordedAt ids).2 := by
  rcases processRequest_cases s pi signer recordedAt ids with hs | ⟨hg, hs⟩
  · rw [hs]; exact .refl s
  · rw [hs]
    obtain ⟨hkey, -, howner⟩ := checkAntiReplay_pass.1 hg
    have hcases := s.commitRequest_cases (pi.commitRequest recordedAt) signer ids
    generalize s.commitRequest (pi.commitRequest recordedAt) signer ids = r at hcases ⊢
    cases hcases with
    | refused r hr => exact .refl s
    | committed deal chain plan hd hc hp _ =>
      refine ⟨fun k v hk => ?_, Finset.subset_insert _ _, fun n o hn => ?_⟩
      · simp only [Store.afterRequest, Dict.get?_set]
        split_ifs with hkk
        · rw [hkk] at hk
          exact absurd (hk.symm.trans hkey) (by simp)
        · exact hk
      · simp only [Store.afterRequest, Dict.get?_set]
        split_ifs with hnn
        · rw [hnn] at hn
          rw [howner o hn]
          rfl
        · exact hn

theorem persists_step {s s' : Store} (h : (service signer may).step s s') : Persists s s' := by
  rcases h with ⟨pi, recordedAt, ids⟩ | ⟨op, ids, ho, hm⟩
  · exact persists_processRequest s pi recordedAt ids
  · cases op with
    | createDeal dealId createdAt =>
      simp only [LedgerOp.run, Store.createDeal]
      split_ifs
      · exact .refl s
      · exact .congr rfl rfl rfl
    | linkDealRecord dealId recordId =>
      obtain ⟨links, hl⟩ := s.linkDealRecord_store dealId recordId
      rw [LedgerOp.run, hl]
      exact .congr rfl rfl rfl
    | putRecord record => exact .congr rfl rfl rfl
    | putRevocation revocation => exact .congr rfl rfl rfl
    | commitRequest req => exact ho.elim
    | commitTransition req =>
      have hcases := s.commitTransition_cases req signer ids
      rw [LedgerOp.run]
      generalize s.commitTransition req signer ids = r at hcases ⊢
      cases hcases with
      | refused r hr => exact .refl s
      | committed => exact .congr rfl rfl rfl
    | commitApproval req =>
      have hcases := s.commitApproval_cases req signer ids
      rw [LedgerOp.run]
      generalize s.commitApproval req signer ids = r at hcases ⊢
      cases hcases with
      | refused r hr => exact .refl s
      | committed => exact .congr rfl rfl rfl
    | commitRevocation req =>
      have hcases := s.commitRevocation_cases req signer ids
      rw [LedgerOp.run]
      generalize s.commitRevocation req signer ids = r at hcases ⊢
      cases hcases with
      | refused r hr => exact .refl s
      | committed => exact .congr rfl rfl rfl

/-- Over any further run, what is stored stays. -/
theorem persists_run {s s' : Store}
    (h : Relation.ReflTransGen (service signer may).step s s') : Persists s s' := by
  induction h with
  | refl => exact .refl s
  | tail _ hs ih => exact ih.trans (persists_step hs)

end

/-! ## Later calls -/

/-- The call committed its decision. -/
def ProcessResult.Committed : Except PyError ProcessResult → Prop
  | .ok ⟨_, _, some commit⟩ => commit.outcome = .committed
  | _ => False

instance : DecidablePred ProcessResult.Committed
  | .ok ⟨_, _, some commit⟩ => inferInstanceAs (Decidable (commit.outcome = .committed))
  | .ok ⟨_, _, none⟩ | .error _ => inferInstanceAs (Decidable False)

omit [Platform] in
theorem ProcessResult.exists_of_committed {r : Except PyError ProcessResult}
    (h : ProcessResult.Committed r) : ∃ verdict decision commit,
      r = .ok ⟨verdict, decision, some commit⟩ ∧ commit.outcome = .committed :=
  match r, h with
  | .ok ⟨_, _, some _⟩, h => ⟨_, _, _, rfl, h⟩

/-- The store holds the request's decision, its id, and its record as the owner
    of its nonce. -/
structure Recorded (pi : PolicyInput) (s : Store) : Prop where
  decision : s.decisions.get? pi.proposal.idempotencyKey = some (proposalDigest pi, evaluate pi)
  request : pi.requestId ∈ s.seenRequests
  nonce : s.nonceOwners.get? pi.authority.record.nonce = some pi.authority.record.recordId

theorem recorded_of_committed {s : Store} {pi : PolicyInput} {signer : GatewaySigner}
    {recordedAt : String} {ids : EventIds}
    (h : ProcessResult.Committed (processRequest s pi signer recordedAt ids).1) :
    Recorded pi (processRequest s pi signer recordedAt ids).2 := by
  obtain ⟨verdict, decision, commit, hr, hc⟩ := ProcessResult.exists_of_committed h
  obtain ⟨-, -, hcommit⟩ := processRequest_commit hr
  have hcases := s.commitRequest_cases (pi.commitRequest recordedAt) signer ids
  rw [hcommit] at hcases
  generalize (processRequest s pi signer recordedAt ids).2 = s' at hcases ⊢
  cases hcases with
  | refused r hnot => exact absurd hc (hnot commit rfl)
  | committed deal chain plan hd hch hp _ =>
    exact ⟨by simp [Store.afterRequest, PolicyInput.commitRequest],
      by simp [Store.afterRequest, PolicyInput.commitRequest],
      by simp [Store.afterRequest, PolicyInput.commitRequest]⟩

omit [Platform] in
theorem Recorded.persists [Platform] {pi : PolicyInput} {s s' : Store} (h : Recorded pi s)
    (hp : Persists s s') : Recorded pi s' :=
  ⟨hp.decisions _ _ h.decision, hp.seenRequests h.request, hp.nonceOwners _ _ h.nonce⟩

/-- A call that is answered without a commit: the verdict's decision, and the
    store as it was. -/
def Answers (s : Store) (pi : PolicyInput) (signer : GatewaySigner) (verdict : GateVerdict) :
    Prop :=
  ∀ recordedAt ids, processRequest s pi signer recordedAt ids =
    (.ok ⟨verdict, verdict.decision, none⟩, s)

section
variable {pi pi' : PolicyInput} {s : Store} {signer : GatewaySigner}

theorem answers_of_gate {verdict : GateVerdict} (hv : checkAntiReplay pi s.seen = verdict)
    (hp : verdict.outcome ≠ .pass)
    (hd : verdict.outcome ≠ .idempotentHit → verdict.decision = none) :
    Answers s pi signer verdict := by
  intro recordedAt ids
  unfold processRequest
  simp only [hv]
  cases ho : verdict.outcome with
  | pass => exact absurd ho hp
  | idempotentHit => rfl
  | replay => simp only [hd (by simp [ho])]
  | conflict => simp only [hd (by simp [ho])]

/-- An equal proposal is answered by the stored decision. -/
theorem Recorded.answers_equal (h : Recorded pi s) (he : pi'.proposal = pi.proposal) :
    Answers s pi' signer ⟨.idempotentHit, "duplicate_proposal", some (evaluate pi)⟩ := by
  refine answers_of_gate ?_ (by simp) (by simp)
  have hdigest : proposalDigest pi = proposalDigest pi' := by simp only [proposalDigest, he]
  simp only [checkAntiReplay, Store.seen, he, h.decision, hdigest, if_true]

/-- A reused key with another proposal is a conflict. -/
theorem Recorded.answers_conflict (h : Recorded pi s)
    (hk : pi'.proposal.idempotencyKey = pi.proposal.idempotencyKey)
    (hne : proposalDigest pi ≠ proposalDigest pi') :
    Answers s pi' signer ⟨.conflict, "idempotency_key_reused_for_different_proposal", none⟩ := by
  refine answers_of_gate ?_ (by simp) (by simp)
  simp only [checkAntiReplay, Store.seen, hk, h.decision, if_neg hne]

/-- A fresh key does not revive a used request id. -/
theorem Recorded.answers_request (h : Recorded pi s)
    (hk : s.decisions.get? pi'.proposal.idempotencyKey = none)
    (hr : pi'.requestId = pi.requestId) :
    Answers s pi' signer ⟨.replay, "request_id_reused", none⟩ := by
  refine answers_of_gate ?_ (by simp) (by simp)
  simp only [checkAntiReplay, Store.seen, hk, hr, h.request, decide_true, if_true]

/-- Nor a nonce of another record. -/
theorem Recorded.answers_nonce (h : Recorded pi s)
    (hk : s.decisions.get? pi'.proposal.idempotencyKey = none)
    (hn : pi'.authority.record.nonce = pi.authority.record.nonce)
    (hr : pi'.authority.record.recordId ≠ pi.authority.record.recordId) :
    ∃ detail, Answers s pi' signer ⟨.replay, detail, none⟩ := by
  by_cases hreq : pi'.requestId ∈ s.seenRequests
  · refine ⟨"request_id_reused", answers_of_gate ?_ (by simp) (by simp)⟩
    simp only [checkAntiReplay, Store.seen, hk, hreq, decide_true, if_true]
  · refine ⟨"nonce_reused_by_different_record", answers_of_gate ?_ (by simp) (by simp)⟩
    have howner : pi.authority.record.recordId ≠ pi'.authority.record.recordId := Ne.symm hr
    simp only [checkAntiReplay, Store.seen, hk, hreq, decide_false, hn, h.nonce, ne_eq, howner,
      not_false_eq_true, if_true, Bool.false_eq_true, if_false]

end

/-- How the store answers a call that comes after a committed one. -/
structure AnswersLater (pi : PolicyInput) (s : Store) (signer : GatewaySigner)
    (pi' : PolicyInput) : Prop where
  equal : pi'.proposal = pi.proposal →
    Answers s pi' signer ⟨.idempotentHit, "duplicate_proposal", some (evaluate pi)⟩
  different : pi'.proposal.idempotencyKey = pi.proposal.idempotencyKey →
    pi'.proposal ≠ pi.proposal →
    NoCollision (Json.canonicalBytes pi.proposal.toJson)
      (Json.canonicalBytes pi'.proposal.toJson) →
    Answers s pi' signer ⟨.conflict, "idempotency_key_reused_for_different_proposal", none⟩
  request : s.seen.decisionFor pi'.proposal.idempotencyKey = none →
    pi'.requestId = pi.requestId → Answers s pi' signer ⟨.replay, "request_id_reused", none⟩
  nonce : s.seen.decisionFor pi'.proposal.idempotencyKey = none →
    pi'.authority.record.nonce = pi.authority.record.nonce →
    pi'.authority.record.recordId ≠ pi.authority.record.recordId →
    ∃ detail, Answers s pi' signer ⟨.replay, detail, none⟩

theorem Recorded.answersLater {pi pi' : PolicyInput} {s : Store} {signer : GatewaySigner}
    (h : Recorded pi s) : AnswersLater pi s signer pi' where
  equal := h.answers_equal
  different hk hne hc := h.answers_conflict hk (proposalDigest_ne hne.symm hc)
  request := h.answers_request
  nonce := h.answers_nonce

/-- One decision event per key and per request id over all chains, and the
    stored decisions are exactly those of the events. -/
structure OneDecisionEach (s : Store) : Prop where
  readable : ∀ chain ∈ s.events.values, ∀ e ∈ chain, e.eventType = .policyDecision →
    e.decision?.isSome
  keys : (s.decisionEntries.map DecisionEntry.idempotencyKey).Nodup
  requests : (s.decisionEntries.map DecisionEntry.requestId).Nodup
  logged : ∀ key stored, s.seen.decisionFor key = some stored →
    ∃ e ∈ s.decisionEntries, Logs key stored e
  stored : ∀ e ∈ s.decisionEntries, ∃ stored,
    s.seen.decisionFor e.idempotencyKey = some stored ∧ Logs e.idempotencyKey stored e

/-- Requests are decided exactly once, in every run; and after a committed
    call, a later call is answered by what was stored. -/
theorem requests_exactly_once {signer : GatewaySigner} {may : Store → LedgerOp → Prop}
    {s : Store} (hr : (service signer may).Reachable s) :
    OneDecisionEach s ∧ ∀ pi recordedAt ids s' pi',
      ProcessResult.Committed (processRequest s pi signer recordedAt ids).1 →
      Relation.ReflTransGen (service signer may).step
        (processRequest s pi signer recordedAt ids).2 s' →
      AnswersLater pi s' signer pi' := by
  have ht := (tallied_invariant signer may).holds hr
  refine ⟨⟨fun c hc e he => (ht.readable c hc e he).decision, ht.keys, ht.requests, ht.logged,
    ht.stored⟩, ?_⟩
  intro pi recordedAt ids s' pi' hcommit hrun
  exact ((recorded_of_committed hcommit).persists (persists_run hrun)).answersLater

end

section
open Sample
attribute [local instance] Sample.platform

/-- The agent asks for a quote. -/
def Sample.asked : PolicyInput := input (.fresh dealId) .requestQuote none '1'

theorem Sample.asked_committed :
    ProcessResult.Committed (processRequest registered asked signer now.text ids).1 := by
  decide +kernel

theorem requests_exactly_once_retry : OneDecisionEach registered ∧
    Answers (processRequest registered asked signer now.text ids).2 asked signer
      ⟨.idempotentHit, "duplicate_proposal", some (evaluate asked)⟩ := by
  obtain ⟨hone, hlater⟩ := requests_exactly_once (registered_reachable (fun _ _ => True) trivial)
  exact ⟨hone, (hlater asked now.text ids _ asked asked_committed .refl).equal rfl⟩

end

end Mandate
