/-
  What an allowed request satisfies, without the order of the steps.

  `Permitted` is the conjunction of all conditions of the mandate.  Each step
  of the engine is characterized by the condition under which it goes on
  (`step…_eq_none`), and none of them allows (`not_allow_of_stepsOnAction`); so
  `evaluate_allow_iff`: the engine allows exactly what is permitted.
-/
import Mandate.Policy.Engine

namespace Mandate

variable [Platform]

/-! ## The conditions -/

/-- The mandate is in force and addressed to this counterparty. -/
structure InForce (pi : PolicyInput) : Prop where
  schema : pi.schemaVersion = supportedSchemaVersion
  signature : pi.authority.signatureValid = true
  notRevoked : pi.authority.status ≠ .revoked
  notExpired : pi.authority.status ≠ .expired
  notBefore : pi.authority.record.notBefore.instant ≤ pi.now.instant
  notAfter : pi.now.instant ≤ pi.authority.record.expiresAt.instant
  narrowing : ∀ link ∈ pi.authority.delegationChain, link.scopeNarrowingValid = true
  audience : ∀ c ∈ pi.authority.record.counterpartyId, ∀ c' ∈ pi.counterparty.id, c' = c

/-- The content screen, when there is content, found nothing to hold. -/
structure ContentClear (pi : PolicyInput) (content : ContentClaims) : Prop where
  available : content.available = true
  declared : ∀ d ∈ content.detected, d.field ∉ pi.authority.record.disclosureFields →
    d.confidenceBp.val < contentHoldBp
  hostility : content.hostilityBp.val < contentHoldBp

/-- The mandate, the deal and the content permit the action without a person. -/
structure PermittedAction (action : ActionToken) (pi : PolicyInput) : Prop where
  allowed : action ∈ pi.authority.record.allowedActions
  state : pi.deal.state ∈ actionValidStates action
  payment : action ∈ paymentActions → pi.deal.openDisputes ≤ 0 ∧ pi.deal.openApprovals ≤ 0
  disclosure : ∀ f ∈ pi.proposal.disclosureFields, f ∈ pi.authority.record.disclosureFields
  spend : ∀ amount ∈ pi.proposal.amount,
    pi.proposal.currency = pi.authority.record.spendCap.currency ∧
      pi.deal.committedMinor + amount ≤ pi.authority.record.spendCap.amountMinor
  rounds : action ∈ negotiationActions →
    pi.deal.negotiatedRounds < pi.authority.record.maxNegotiationRounds
  approval : action ∉ pi.authority.record.requiresHumanApprovalFor
  content : ∀ content ∈ pi.content, ContentClear pi content

/-- All conditions of the mandate. -/
structure Permitted (pi : PolicyInput) : Prop where
  inForce : InForce pi
  notProhibited : ∀ a ∈ pi.authority.record.prohibitedActions, a.value ≠ pi.proposal.action
  action : ∃ action : ActionToken, action.value = pi.proposal.action ∧ PermittedAction action pi

/-! ## When a step goes on -/

variable (pi : PolicyInput) (action : ActionToken)

theorem step01SchemaVersion_eq_none :
    step01SchemaVersion pi = none ↔ pi.schemaVersion = supportedSchemaVersion := by
  simp [step01SchemaVersion]

theorem step02Signature_eq_none :
    step02Signature pi = none ↔ pi.authority.signatureValid = true := by
  simp [step02Signature]

theorem step03Validity_eq_none :
    step03Validity pi = none ↔ pi.authority.status ≠ .revoked ∧ pi.authority.status ≠ .expired ∧
      pi.authority.record.notBefore.instant ≤ pi.now.instant ∧
      pi.now.instant ≤ pi.authority.record.expiresAt.instant := by
  simp only [step03Validity]
  split_ifs with h1 h2 h3 h4 <;> simp_all

theorem step04Delegation_eq_none :
    step04Delegation pi = none ↔
      ∀ link ∈ pi.authority.delegationChain, link.scopeNarrowingValid = true := by
  simp [step04Delegation, List.find?_eq_none]

theorem step05Audience_eq_none :
    step05Audience pi = none ↔
      ∀ c ∈ pi.authority.record.counterpartyId, ∀ c' ∈ pi.counterparty.id, c' = c := by
  unfold step05Audience
  cases pi.authority.record.counterpartyId <;> cases pi.counterparty.id <;> simp

theorem step06Prohibited_eq_none :
    step06Prohibited pi = none ↔
      ∀ a ∈ pi.authority.record.prohibitedActions, a.value ≠ pi.proposal.action := by
  simp [step06Prohibited]

theorem step07Allowed_eq_none :
    step07Allowed action pi = none ↔ action ∈ pi.authority.record.allowedActions := by
  simp [step07Allowed]

theorem step08Transition_eq_none :
    step08Transition action pi = none ↔ pi.deal.state ∈ actionValidStates action ∧
      (action ∈ paymentActions → pi.deal.openDisputes ≤ 0 ∧ pi.deal.openApprovals ≤ 0) := by
  unfold step08Transition
  by_cases hs : pi.deal.state ∈ actionValidStates action
  · by_cases hp : action ∈ paymentActions
    · simp only [hs, hp, not_true, if_false, true_and, forall_const]
      split_ifs with hd ha
      · simp only [false_iff, not_and]; intro h; omega
      · simp only [false_iff, not_and]; intro _; omega
      · simp only [true_iff]; omega
    · simp [hs, hp]
  · simp [hs]

theorem step09Disclosure_eq_none :
    step09Disclosure pi = none ↔
      ∀ f ∈ pi.proposal.disclosureFields, f ∈ pi.authority.record.disclosureFields := by
  simp [step09Disclosure, List.find?_eq_none]

omit [Platform] in
theorem leak?_eq_none (threshold : ℕ) :
    leak? pi threshold = none ↔ ∀ content ∈ pi.content, ∀ d ∈ content.detected,
      d.field ∉ pi.authority.record.disclosureFields → d.confidenceBp.val < threshold := by
  unfold leak?
  cases pi.content with
  | none => simp
  | some content =>
    simp only [Option.bind_some, List.find?_eq_none, ContentClaims.mem_undeclared, and_imp,
      decide_eq_true_eq, not_le, ge_iff_le, Option.mem_some_iff, forall_eq']

theorem step09bContentDisclosure_eq_none :
    step09bContentDisclosure pi = none ↔ leak? pi contentDenyBp = none := by
  simp [step09bContentDisclosure]

theorem step10Spend_eq_none :
    step10Spend pi = none ↔ ∀ amount ∈ pi.proposal.amount,
      pi.proposal.currency = pi.authority.record.spendCap.currency ∧
        pi.deal.committedMinor + amount ≤ pi.authority.record.spendCap.amountMinor := by
  unfold step10Spend
  cases pi.proposal.amount with
  | none => simp
  | some amount =>
    simp only [Option.bind_some, Option.mem_some_iff, forall_eq']
    split_ifs with h1 h2
    · simp [h1]
    · simp only [false_iff, not_and, not_le]; exact fun _ => h2
    · simp only [true_iff]; exact ⟨not_not.1 h1, not_lt.1 h2⟩

theorem step11Limits_eq_none :
    step11Limits action pi = none ↔ (action ∈ negotiationActions →
      pi.deal.negotiatedRounds < pi.authority.record.maxNegotiationRounds) := by
  simp [step11Limits]

theorem step12Approval_eq_none :
    step12Approval action pi = none ↔
      action ∉ pi.authority.record.requiresHumanApprovalFor := by
  simp [step12Approval]

theorem step12bContentHold_eq_none :
    step12bContentHold pi = none ↔ ∀ content ∈ pi.content, ContentClear pi content := by
  have hl := leak?_eq_none pi contentHoldBp
  unfold step12bContentHold
  cases hc : pi.content with
  | none => simp
  | some content =>
    simp only [hc, Option.mem_some_iff, forall_eq'] at hl
    simp only [Option.bind_some, Option.mem_some_iff, forall_eq']
    by_cases ha : content.available = true
    · simp only [ha, not_true, if_false]
      cases hk : leak? pi contentHoldBp with
      | some leak =>
        refine iff_of_false (by simp) fun h => ?_
        rw [hl.2 h.declared] at hk
        cases hk
      | none =>
        simp only
        split_ifs with hh
        · simp only [false_iff]; exact fun h => absurd h.hostility (by omega)
        · exact ⟨fun _ => ⟨ha, hl.1 hk, by omega⟩, fun _ => rfl⟩
    · rw [if_pos ha]
      exact iff_of_false (by simp) fun h => ha h.available

omit [Platform] in
/-- The content that step 12b lets through, step 9b lets through. -/
theorem leak?_deny_of_hold (h : ∀ content ∈ pi.content, ContentClear pi content) :
    leak? pi contentDenyBp = none := by
  rw [leak?_eq_none]
  intro content hc d hd hf
  have := (h content hc).declared d hd hf
  simp only [contentDenyBp, contentHoldBp] at this ⊢
  omega

/-! ## No step allows -/

variable {pi action}

/-- What the decision of a step says: it names its input, and a payment is
    blocked by a dispute on a deal that admits the payment only. -/
structure Stopped (action : ActionToken) (pi : PolicyInput) (d : PolicyDecision) : Prop where
  inputDigest : d.inputDigest = inputDigest pi
  disputed : d.reasonCode = .paymentBlockedByDispute →
    action ∈ paymentActions ∧ pi.deal.state ∈ actionValidStates action ∧ pi.deal.openDisputes > 0

/-- A decision for any other reason. -/
theorem stopped_decision {outcome : Outcome} {reason : ReasonCode} {rule explanation : String}
    (h : reason ≠ .paymentBlockedByDispute) :
    Stopped action pi (decision pi outcome reason rule explanation) :=
  ⟨rfl, fun hr => absurd hr h⟩

variable (action) in
theorem deny_of_stepsBeforeAction {step : PolicyInput → Option PolicyDecision}
    (hs : step ∈ stepsBeforeAction) {d : PolicyDecision} (h : step pi = some d) :
    d.outcome = .deny ∧ Stopped action pi d := by
  simp only [stepsBeforeAction, List.mem_cons, List.not_mem_nil, or_false] at hs
  rcases hs with rfl | rfl | rfl | rfl | rfl | rfl
  · simp only [step01SchemaVersion] at h
    split_ifs at h; cases h; exact ⟨rfl, stopped_decision (by decide)⟩
  · simp only [step02Signature] at h
    split_ifs at h; cases h; exact ⟨rfl, stopped_decision (by decide)⟩
  · simp only [step03Validity] at h
    split_ifs at h <;> (cases h; exact ⟨rfl, stopped_decision (by decide)⟩)
  · obtain ⟨link, -, rfl⟩ := Option.map_eq_some_iff.1 h
    exact ⟨rfl, stopped_decision (by decide)⟩
  · unfold step05Audience at h
    split at h
    · split_ifs at h; cases h; exact ⟨rfl, stopped_decision (by decide)⟩
    · cases h
  · simp only [step06Prohibited] at h
    split_ifs at h; cases h; exact ⟨rfl, stopped_decision (by decide)⟩

theorem not_allow_of_stepsOnAction {step : PolicyInput → Option PolicyDecision}
    (hs : step ∈ stepsOnAction action) {d : PolicyDecision} (h : step pi = some d) :
    d.outcome ≠ .allow ∧ Stopped action pi d := by
  simp only [stepsOnAction, List.mem_cons, List.not_mem_nil, or_false] at hs
  rcases hs with rfl | rfl | rfl | rfl | rfl | rfl | rfl | rfl
  · simp only [step07Allowed] at h
    split_ifs at h; cases h; exact ⟨by simp [deny, decision], stopped_decision (by decide)⟩
  · simp only [step08Transition] at h
    split_ifs at h with hv hd ha
    · cases h; exact ⟨by simp [deny, decision], rfl, fun _ => ⟨hd.1, hv, hd.2⟩⟩
    · cases h; exact ⟨by simp [deny, decision], stopped_decision (by decide)⟩
    · cases h; exact ⟨by simp [deny, decision], stopped_decision (by decide)⟩
  · obtain ⟨f, -, rfl⟩ := Option.map_eq_some_iff.1 h
    exact ⟨by simp [deny, decision], stopped_decision (by decide)⟩
  · obtain ⟨leak, -, rfl⟩ := Option.map_eq_some_iff.1 h
    exact ⟨by simp [deny, decision], stopped_decision (by decide)⟩
  · obtain ⟨amount, -, h⟩ := Option.bind_eq_some_iff.1 h
    simp only at h
    split_ifs at h
    · cases h; exact ⟨by simp [deny, decision], stopped_decision (by decide)⟩
    · cases h; exact ⟨by simp [needsApproval, decision], stopped_decision (by decide)⟩
  · simp only [step11Limits] at h
    split_ifs at h; cases h; exact ⟨by simp [deny, decision], stopped_decision (by decide)⟩
  · simp only [step12Approval] at h
    split_ifs at h; cases h
    exact ⟨by simp [needsApproval, decision], stopped_decision (by decide)⟩
  · obtain ⟨content, -, h⟩ := Option.bind_eq_some_iff.1 h
    by_cases ha : ¬ content.available = true
    · rw [if_pos ha] at h
      cases h; exact ⟨by simp [needsApproval, decision], stopped_decision (by decide)⟩
    · rw [if_neg ha] at h
      cases hk : leak? pi contentHoldBp with
      | some leak =>
        simp only [hk, Option.some.injEq] at h
        subst h; exact ⟨by simp [needsApproval, decision], stopped_decision (by decide)⟩
      | none =>
        simp only [hk] at h
        split_ifs at h; cases h
        exact ⟨by simp [needsApproval, decision], stopped_decision (by decide)⟩

omit [Platform] in
theorem firstDecision_eq_none {steps : List (PolicyInput → Option PolicyDecision)} :
    firstDecision steps pi = none ↔ ∀ step ∈ steps, step pi = none := List.findSome?_eq_none_iff

omit [Platform] in
theorem step_of_firstDecision {steps : List (PolicyInput → Option PolicyDecision)}
    {d : PolicyDecision} (h : firstDecision steps pi = some d) :
    ∃ step ∈ steps, step pi = some d := List.exists_of_findSome?_eq_some h

theorem stepsBeforeAction_pass :
    firstDecision stepsBeforeAction pi = none ↔ InForce pi ∧
      ∀ a ∈ pi.authority.record.prohibitedActions, a.value ≠ pi.proposal.action := by
  simp only [firstDecision_eq_none, stepsBeforeAction, List.forall_mem_cons, List.not_mem_nil,
    false_implies, implies_true, and_true, step01SchemaVersion_eq_none, step02Signature_eq_none,
    step03Validity_eq_none, step04Delegation_eq_none, step05Audience_eq_none,
    step06Prohibited_eq_none]
  constructor
  · rintro ⟨h1, h2, ⟨h3, h4, h5, h6⟩, h7, h8, h9⟩; exact ⟨⟨h1, h2, h3, h4, h5, h6, h7, h8⟩, h9⟩
  · rintro ⟨⟨h1, h2, h3, h4, h5, h6, h7, h8⟩, h9⟩; exact ⟨h1, h2, ⟨h3, h4, h5, h6⟩, h7, h8, h9⟩

theorem stepsOnAction_pass :
    firstDecision (stepsOnAction action) pi = none ↔ PermittedAction action pi := by
  simp only [firstDecision_eq_none, stepsOnAction, List.forall_mem_cons, List.not_mem_nil,
    false_implies, implies_true, and_true, step07Allowed_eq_none, step08Transition_eq_none,
    step09Disclosure_eq_none, step09bContentDisclosure_eq_none, step10Spend_eq_none,
    step11Limits_eq_none, step12Approval_eq_none, step12bContentHold_eq_none]
  constructor
  · rintro ⟨h1, ⟨h2, h3⟩, h4, -, h5, h6, h7, h8⟩; exact ⟨h1, h2, h3, h4, h5, h6, h7, h8⟩
  · rintro ⟨h1, h2, h3, h4, h5, h6, h7, h8⟩
    exact ⟨h1, ⟨h2, h3⟩, h4, leak?_deny_of_hold pi h8, h5, h6, h7, h8⟩

/-- What every decision of the engine says of its input. -/
theorem evaluate_stopped (pi : PolicyInput) :
    ∃ action : ActionToken, Stopped action pi (evaluate pi) := by
  unfold evaluate
  cases hb : firstDecision stepsBeforeAction pi with
  | some d =>
    obtain ⟨step, hs, h⟩ := step_of_firstDecision hb
    exact ⟨.requestQuote, (deny_of_stepsBeforeAction .requestQuote hs h).2⟩
  | none =>
    cases ha : (StrEnum.ofValue? pi.proposal.action : Option ActionToken) with
    | none => exact ⟨.requestQuote, stopped_decision (by decide)⟩
    | some action =>
      simp only
      cases hs : firstDecision (stepsOnAction action) pi with
      | some d =>
        obtain ⟨step, hm, h⟩ := step_of_firstDecision hs
        exact ⟨action, (not_allow_of_stepsOnAction hm h).2⟩
      | none => exact ⟨action, stopped_decision (by decide)⟩

/-- A decision names the digest of the input it was made on. -/
theorem evaluate_inputDigest (pi : PolicyInput) : (evaluate pi).inputDigest = inputDigest pi := by
  obtain ⟨action, h⟩ := evaluate_stopped pi
  exact h.inputDigest

/-- What the mandate permits passes every step. -/
theorem allow_of_permitted {pi : PolicyInput} (hp : Permitted pi) :
    (evaluate pi).outcome = .allow := by
  obtain ⟨action, hv, hp'⟩ := hp.action
  have hb := stepsBeforeAction_pass.2 ⟨hp.inForce, hp.notProhibited⟩
  have ha : (StrEnum.ofValue? pi.proposal.action : Option ActionToken) = some action :=
    StrEnum.ofValue?_eq_some.2 hv
  unfold evaluate
  simp only [hb, ha, stepsOnAction_pass.2 hp']
  rfl

/-- Each condition is that of a step which did not stop the request. -/
theorem permitted_of_allow {pi : PolicyInput} (h : (evaluate pi).outcome = .allow) :
    Permitted pi := by
  unfold evaluate at h
  cases hb : firstDecision stepsBeforeAction pi with
  | some d =>
    obtain ⟨step, hs, hd⟩ := step_of_firstDecision hb
    simp only [hb] at h
    rw [(deny_of_stepsBeforeAction .requestQuote hs hd).1] at h
    cases h
  | none =>
    obtain ⟨hf, hn⟩ := stepsBeforeAction_pass.1 hb
    simp only [hb] at h
    cases ha : (StrEnum.ofValue? pi.proposal.action : Option ActionToken) with
    | none =>
      simp only [ha] at h
      cases h
    | some action =>
      simp only [ha] at h
      cases hs : firstDecision (stepsOnAction action) pi with
      | some d =>
        obtain ⟨step, hm, hd⟩ := step_of_firstDecision hs
        simp only [hs] at h
        exact absurd h (not_allow_of_stepsOnAction hm hd).1
      | none => exact ⟨hf, hn, action, StrEnum.ofValue?_eq_some.1 ha, stepsOnAction_pass.1 hs⟩

/-- The engine allows exactly what the mandate permits. -/
theorem evaluate_allow_iff (pi : PolicyInput) : (evaluate pi).outcome = .allow ↔ Permitted pi :=
  ⟨permitted_of_allow, allow_of_permitted⟩

end Mandate
