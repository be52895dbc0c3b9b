/-
  Held requests and the grants that close them.

  An approval that is granted as it stands, under an active record and on the
  deal of the hold, applies the held action if the action has an event and the
  deal admits it, and is a deny otherwise.  `resolve_dispute` has no event, so
  it can be held but never granted (`held_grantable_iff`).
-/
import Mandate.Application.GrantRecheck
import Mandate.Application.AllowedEffect
import Mandate.Ledger.Verification

namespace Mandate

section
variable [Platform] {signer : GatewaySigner}

/-! ## Holds and their grants -/

/-- A processed request was held: its row waits beside the stored deal. -/
structure Holds (s : Store) (pi : PolicyInput) (signer : GatewaySigner) (recordedAt : String)
    (ids : EventIds) (deal : Deal) (row : Approval) (token : ActionToken) : Prop where
  asks : (evaluate pi).outcome = .needsApproval
  stored : s.deals.get? pi.deal.dealId = some deal
  waits : (processRequest s pi signer recordedAt ids).2.approvals.get? row.approvalId = some row
  pending : PendingOf (pi.commitRequest recordedAt) row
  named : token.value = pi.proposal.action
  counted : (processRequest s pi signer recordedAt ids).2.deals.get? pi.deal.dealId =
    some { deal with openApprovals := deal.openApprovals + 1 }

/-- The row waits, and is granted with its own fields and a signed record,
    while its authority is active and its deal is `deal` but for the open
    approvals. -/
structure GrantsAsHeld (s : Store) (req : ApprovalRequest) (signer : GatewaySigner)
    (row : Approval) (deal : Deal) : Prop where
  waits : s.approvals.get? req.approvalId = some row
  operation : req.operation = .granted
  command : req.commandId ∉ s.seenCommands
  repeats : Repeats signer req row
  signed : req.approvalRecord.isSome
  time : Stampable req.recordedAt
  active : ∃ record revoked, s.grantRecheckInputs row req.occurredAt = .ok (some record, revoked) ∧
    resolveStatus record req.occurredAt revoked = .ok .active
  stored : ∃ n, s.deals.get? row.dealId = some { deal with openApprovals := n }

/-- The grant is committed: the row is granted, and the deal is that of the
    action with one open approval fewer. -/
def AppliesHeld (s : Store) (req : ApprovalRequest) (signer : GatewaySigner) (ids : EventIds)
    (row : Approval) (token : ActionToken) : Prop :=
  ∃ commit s' granted deal after, s.commitApproval req signer ids = (.ok commit, s') ∧
    commit.outcome = .committed ∧
    s'.approvals.get? req.approvalId = some granted ∧ granted.status = .granted ∧
    s.deals.get? row.dealId = some deal ∧ applyAction deal token row.amountMinor = .ok after ∧
    s'.deals.get? row.dealId = some { after with openApprovals := deal.openApprovals - 1 }

/-! ## What a hold leaves -/

/-- A request that asks for an approval and is committed is held. -/
theorem holds_of_commit {s : Store} {pi : PolicyInput} {recordedAt : String} {ids : EventIds}
    {verdict : GateVerdict} {decision : Option PolicyDecision} {commit : CommitResult}
    (ho : (evaluate pi).outcome = .needsApproval)
    (h : (processRequest s pi signer recordedAt ids).1 = .ok ⟨verdict, decision, some commit⟩)
    (hc : commit.outcome = .committed) :
    ∃ deal row token, Holds s pi signer recordedAt ids deal row token := by
  obtain ⟨-, -, hcommit⟩ := processRequest_commit h
  have hcases := s.commitRequest_cases (pi.commitRequest recordedAt) signer ids
  rw [hcommit] at hcases
  obtain ⟨token, hu⟩ := undenied_of_outcome (by rw [ho]; decide)
  generalize hs' : (processRequest s pi signer recordedAt ids).2 = s' at hcases
  cases hcases with
  | refused r hr => exact absurd hc (hr _ rfl)
  | committed deal chain plan hd _ hp _ =>
    cases hp with
    | decided mid did hn => exact absurd ho hn
    | applied mid did id token event target hallow => exact absurd (ho.symm.trans hallow) (by decide)
    | held mid did id aid row _ ha =>
      refine ⟨deal, row, token, ho, hd, ?_, pendingApproval_ok ha, hu.named, ?_⟩
      · rw [hs']
        exact Dict.get?_set_self ..
      · rw [hs']
        exact Dict.get?_set_self ..

/-- On a snapshot in the stored state, the deal admits what is held. -/
theorem Holds.admits {s : Store} {pi : PolicyInput} {recordedAt : String} {ids : EventIds}
    {deal : Deal} {row : Approval} {token : ActionToken}
    (h : Holds s pi signer recordedAt ids deal row token) (hs : deal.state = pi.deal.state) :
    deal.state ∈ actionValidStates token := by
  obtain ⟨action, hu⟩ := undenied_of_outcome (by rw [h.asks]; decide)
  obtain rfl : action = token := StrEnum.value_inj (hu.named.trans h.named.symm)
  exact hs ▸ hu.state

/-! ## What a grant does -/

variable {s : Store} {req : ApprovalRequest} {ids : EventIds} {row : Approval} {deal : Deal}
  {token : ActionToken}

/-- Only a grant makes a pending row granted. -/
theorem grants_of_granted {granted : Approval} (hrow : s.approvals.get? req.approvalId = some row)
    (hp : row.status = .pending)
    (h : (s.commitApproval req signer ids).2.approvals.get? req.approvalId = some granted)
    (hg : granted.status = .granted) : ∃ deal event, Grants s req deal row event := by
  have hcases := s.commitApproval_cases req signer ids
  generalize s.commitApproval req signer ids = r at hcases h
  cases hcases with
  | refused r hr =>
    obtain rfl := Option.some.inj (hrow.symm.trans h)
    exact absurd (hp.symm.trans hg) (by decide)
  | committed deal approval decided chain token record revoked plan hd hc ha hs hn hi hplan hu ht =>
    obtain rfl : decided = granted := Option.some.inj ((Dict.get?_set_self ..).symm.trans h)
    obtain rfl := Option.some.inj (hrow.symm.trans ha)
    cases hplan with
    | denied id denyReason hv =>
      cases hu
      cases hg
    | granted aid id approvalRecord action event target ho har hk hre he htr =>
      subst hk
      exact ⟨deal, event, hd, by rw [hc]; rfl, hrow, hp, hn, ho, by rw [har]; rfl,
        grantInputs_ok ho hi hre, ht⟩

/-- In a reachable store a waiting row's deal has a chain and counts the row. -/
theorem waits_counted (hr : (ledger signer).Reachable s)
    (hrow : s.approvals.get? req.approvalId = some row) (hp : row.status = .pending)
    (hd : s.deals.get? row.dealId = some deal) :
    (s.events.get? row.dealId).isSome ∧ 1 ≤ deal.openApprovals := by
  obtain ⟨chain, hc, -, hcount⟩ := ((faithful_invariant signer).holds hr).row _ _ hd
  have hpos : 0 < pending s.approvals row.dealId :=
    List.countP_pos_iff.2 ⟨row, Dict.mem_values.2 ⟨_, hrow⟩, by simp [hp]⟩
  exact ⟨by rw [hc]; rfl, by omega⟩

omit [Platform] in
theorem closeApproval_applyEvent (h : 1 ≤ deal.openApprovals) (event : DealEvent)
    (target : DealState) (amt : Option ℤ) :
    (applyEvent deal event target amt).closeApproval =
      { applyEvent deal event target amt with openApprovals := deal.openApprovals - 1 } := by
  have hfloor : max 0 (deal.openApprovals - 1) = deal.openApprovals - 1 := max_eq_right (by omega)
  simp only [Deal.closeApproval, applyEvent, hfloor]

/-- What is granted as held passes the recheck of an event the deal admits. -/
theorem GrantsAsHeld.grants {event : DealEvent} {n : ℤ} (hr : (ledger signer).Reachable s)
    (h : GrantsAsHeld s req signer row deal) (hp : row.status = .pending)
    (hv : token.value = row.action) (he : actionEvents token = some event)
    (hm : deal.state ∈ actionValidStates token)
    (hd : s.deals.get? row.dealId = some { deal with openApprovals := n }) :
    Grants s req { deal with openApprovals := n } row event := by
  obtain ⟨record, revoked, hi, hactive⟩ := h.active
  refine ⟨?_, ?_, h.waits, hp, h.command, h.operation, h.signed, ?_, h.time⟩
  · rw [h.repeats.dealId]
    exact hd
  · rw [h.repeats.dealId]
    exact (waits_counted hr h.waits hp hd).1
  · exact ⟨token, some record, revoked, hv.trans h.repeats.action.symm, hi,
      (grantRecheck_iff hactive event).2 ⟨rfl, he, hm⟩⟩

/-- A grant of a held row applies its action exactly when the action has an
    event and the deal admits it. -/
theorem GrantsAsHeld.applies_iff (hr : (ledger signer).Reachable s)
    (h : GrantsAsHeld s req signer row deal) (hp : row.status = .pending)
    (hv : token.value = row.action) :
    AppliesHeld s req signer ids row token ↔
      token ≠ .resolveDispute ∧ deal.state ∈ actionValidStates token := by
  obtain ⟨n, hd⟩ := h.stored
  constructor
  · rintro ⟨commit, s', granted, deal', after, hcommit, -, hrow, hstatus, -, -, -⟩
    obtain ⟨deal'', event, hg⟩ := grants_of_granted h.waits hp (by rw [hcommit]; exact hrow) hstatus
    obtain rfl := Option.some.inj (hd.symm.trans (h.repeats.dealId ▸ hg.stored))
    obtain ⟨token', record, revoked, hv', -, hre⟩ := hg.recheck
    obtain rfl : token' = token :=
      StrEnum.value_inj (hv'.trans (h.repeats.action.trans hv.symm))
    obtain ⟨r, target, -, -, he, ht⟩ := grantRecheck_ok hre
    refine ⟨?_, (mem_actionValidStates he _).2 (ht ▸ rfl)⟩
    rintro rfl
    cases he
  · rintro ⟨hne, hm⟩
    obtain ⟨event, he⟩ := Option.ne_none_iff_exists'.1 (mt actionEvents_eq_none.1 hne)
    have hg := h.grants hr hp hv he hm hd
    obtain ⟨chain, token', target, approvalRecord, hc, hv', he', ht, -, hcommit⟩ :=
      commitApproval_of_grants hg signer ids
    obtain ⟨-, hpos⟩ := waits_counted hr h.waits hp hd
    refine ⟨_, _, _, _, _, hcommit, rfl, Dict.get?_set_self .., rfl, hd, applyAction_event he ht _, ?_⟩
    rw [← h.repeats.dealId, ← h.repeats.amountMinor]
    refine (Dict.get?_set_self ..).trans (congrArg some ?_)
    exact closeApproval_applyEvent hpos ..

/-- A minted record verifies under the key that signed it. -/
theorem verifyApproval_makeApprovalRecord (hs : signer.Signs) (approvalRecordId dealId requestId
    parentAuthorityRecordId action : String) (amountMinor : Option ℕ)
    (currency proposalDigest : String) (issuedAt : Timestamp) :
    (verifyApproval (makeApprovalRecord approvalRecordId dealId requestId parentAuthorityRecordId
      action amountMinor currency proposalDigest issuedAt signer) signer.publicKey
      (some signer.keyId)).valid = true := by
  obtain ⟨raw, hraw, hv⟩ := hs.signBytes (Json.canonicalBytes (.obj (makeApprovalRecord
    approvalRecordId dealId requestId parentAuthorityRecordId action amountMinor currency
    proposalDigest issuedAt signer).unsignedFields))
  simp only [verifyApproval, checkSignature, makeApprovalRecord, approvalSigningPayload,
    ApprovalRecord.unsignedFields] at hraw hv ⊢
  simp [hraw, hv]

/-- What is held can be granted, in every later store, exactly when it is not
    `resolve_dispute` and the stored deal admits it, which it does when the
    snapshot was in the stored state. -/
theorem held_grantable_iff {s : Store} {pi : PolicyInput} {recordedAt : String} {ids : EventIds}
    {verdict : GateVerdict} {decision : Option PolicyDecision} {commit : CommitResult}
    (ho : (evaluate pi).outcome = .needsApproval)
    (h : (processRequest s pi signer recordedAt ids).1 = .ok ⟨verdict, decision, some commit⟩)
    (hc : commit.outcome = .committed) :
    (∃ deal row token, Holds s pi signer recordedAt ids deal row token) ∧
    ∀ deal row token, Holds s pi signer recordedAt ids deal row token →
      (deal.state = pi.deal.state → deal.state ∈ actionValidStates token) ∧
      ∀ (later : Store) (req : ApprovalRequest) (ids' : EventIds), (ledger signer).Reachable later →
        GrantsAsHeld later req signer row deal →
        (AppliesHeld later req signer ids' row token ↔
          token ≠ .resolveDispute ∧ deal.state ∈ actionValidStates token) := by
  refine ⟨holds_of_commit ho h hc, fun deal row token hh => ⟨hh.admits, ?_⟩⟩
  intro later req ids' hr hg
  exact hg.applies_iff hr hh.pending.status (hh.named.trans hh.pending.action.symm)

end

section
open Sample
attribute [local instance] Sample.platform

/-- A mandate under which a person sees every resolution. -/
def Sample.disputeMandate : AuthorityRecord :=
  sign { draftRecord with requiresHumanApprovalFor := [.resolveDispute] }

/-- The resolution of a dispute, which is held. -/
def Sample.heldResolution : PolicyInput :=
  { input disputedDeal .resolveDispute none '1' with authority := ⟨disputeMandate, true, [], .active⟩ }

/-- The store in which the resolution waits. -/
def Sample.resolutionHeld : Store :=
  (processRequest (walked disputedEvents) heldResolution signer now.text ids).2

/-- The row of the resolution. -/
def Sample.resolutionRow : Approval :=
  { approvalId := ids 2, dealId, requestId := ulid '1', authorityRecordId := ulid 'R'
    action := "resolve_dispute", amountMinor := none, currency := "EUR"
    proposalDigest := proposalDigest heldResolution, reasonCode := .approvalRequired
    status := .pending, decidedBy := none, decidedAt := none, commandId := none
    createdAt := now.text }

/-- The operator grants a row, with a signed record of its fields. -/
def Sample.operatorGrant (row : Approval) (amountMinor : Option ℕ) : ApprovalRequest :=
  { dealId := row.dealId, approvalId := row.approvalId, commandId := ulid 'G'
    operation := .granted, actorKind := .principal, actorId := ulid 'P'
    authorityRecordId := row.authorityRecordId, action := row.action
    amountMinor := amountMinor.map fun n : ℕ => (n : ℤ), occurredAt := now.text, recordedAt := now.text
    decidedBy := ulid 'P'
    approvalRecord := some (makeApprovalRecord (ulid 'S') row.dealId row.requestId
      row.authorityRecordId row.action amountMinor row.currency row.proposalDigest now signer) }

theorem Sample.operatorGrant_repeats {row : Approval} {amountMinor : Option ℕ}
    (ha : row.amountMinor = amountMinor.map fun n : ℕ => (n : ℤ)) :
    Repeats signer (operatorGrant row amountMinor) row where
  dealId := rfl
  authorityRecordId := rfl
  action := rfl
  amountMinor := ha.symm
  override record hr := by
    cases hr
    exact ⟨verifyApproval_makeApprovalRecord signer_signs .., rfl, rfl, rfl, rfl, ha.symm, rfl, rfl⟩

/-- The store has no revocation, its record is active until the end of the year,
    and `row` waits in it. -/
structure Sample.Waits (s : Store) (row : Approval) (deal : Deal) : Prop where
  waits : s.approvals.get? row.approvalId = some row
  record : (s.records.get? row.authorityRecordId).map (fun r => (r.status, r.expiresAt.instant)) =
    some (.active, stop.instant)
  revocations : s.revocations.values.length = 0
  commands : ulid 'G' ∉ s.seenCommands
  deal : s.deals.get? row.dealId = some { deal with openApprovals := 1 }

theorem Sample.waits_iff {s : Store} {row : Approval} {deal : Deal} : Waits s row deal ↔
    s.approvals.get? row.approvalId = some row ∧
      (s.records.get? row.authorityRecordId).map (fun r => (r.status, r.expiresAt.instant)) =
        some (.active, stop.instant) ∧
      s.revocations.values.length = 0 ∧ ulid 'G' ∉ s.seenCommands ∧
      s.deals.get? row.dealId = some { deal with openApprovals := 1 } :=
  ⟨fun ⟨a, b, c, d, e⟩ => ⟨a, b, c, d, e⟩, fun ⟨a, b, c, d, e⟩ => ⟨a, b, c, d, e⟩⟩

/-- A waiting row can be granted as it is held. -/
theorem Sample.Waits.grantsAsHeld {s : Store} {row : Approval} {deal : Deal} (h : Waits s row deal)
    (amountMinor : Option ℕ) (ha : row.amountMinor = amountMinor.map fun n : ℕ => (n : ℤ)) :
    GrantsAsHeld s (operatorGrant row amountMinor) signer row deal where
  waits := h.waits
  operation := rfl
  command := h.commands
  repeats := operatorGrant_repeats ha
  signed := rfl
  time := (makeEventId_eq_ok.1 (by decide : makeEventId now.text "" = .ok "")).1
  active := by
    obtain ⟨record, hrecord, hfields⟩ := Option.map_eq_some_iff.1 h.record
    rw [Prod.mk.injEq] at hfields
    have hnone : s.listRevocations record.recordId = [] := by
      rw [Store.listRevocations, List.length_eq_zero_iff.1 h.revocations, List.filter_nil]
    refine ⟨record, false, ?_, ?_⟩
    · simp only [Store.grantRecheckInputs, hrecord, hnone]
      rfl
    · rw [show (operatorGrant row amountMinor).occurredAt = now.text from rfl, resolveStatus_text,
        hfields.1, hfields.2]
      rfl
  stored := ⟨1, h.deal⟩

theorem exists_committed {r : Except PyError ProcessResult}
    (h : (r.toOption.bind ProcessResult.commit).map CommitResult.outcome = some .committed) :
    ∃ verdict decision commit, r = .ok ⟨verdict, decision, some commit⟩ ∧
      commit.outcome = .committed := by
  obtain ⟨commit, hbind, hcommitted⟩ := Option.map_eq_some_iff.1 h
  obtain ⟨⟨verdict, decision, _⟩, hok, rfl⟩ := Option.bind_eq_some_iff.1 hbind
  cases r <;> cases hok
  exact ⟨verdict, decision, commit, rfl, hcommitted⟩

theorem Sample.resolution_held :
    (evaluate heldResolution).outcome = .needsApproval ∧
      (walked disputedEvents).deals.get? dealId = some disputedDeal ∧
      (checkAntiReplay heldResolution (walked disputedEvents).seen).outcome = .pass ∧
      ((processRequest (walked disputedEvents) heldResolution signer now.text ids).1.toOption.bind
        ProcessResult.commit).map CommitResult.outcome = some .committed := by
  decide +kernel

theorem Sample.resolution_waits : Waits resolutionHeld resolutionRow disputedDeal :=
  waits_iff.2 ⟨rfl, rfl, rfl, by decide +kernel, rfl⟩

theorem Sample.resolutionHeld_reachable : (ledger signer).Reachable resolutionHeld :=
  (walked_reachable (ledger signer) rfl (fun _ => ⟨.createDeal _ _, ids, trivial, rfl⟩)
    (fun _ req => ⟨.commitTransition req, ids, trivial, rfl⟩) disputedEvents).step
    ⟨.commitRequest (heldResolution.commitRequest now.text), ids, trivial,
      processRequest_pass resolution_held.2.2.1⟩

/-- A held resolution of a dispute is only ever denied. -/
theorem held_resolution_denied :
    ¬ ∀ (s : Store) (pi : PolicyInput) (recordedAt : String) (ids : EventIds)
      (verdict : GateVerdict) (decision : Option PolicyDecision) (commit : CommitResult),
      (evaluate pi).outcome = .needsApproval →
      (processRequest s pi signer recordedAt ids).1 = .ok ⟨verdict, decision, some commit⟩ →
      commit.outcome = .committed →
      ∀ (deal : Deal) (row : Approval) (token : ActionToken),
      Holds s pi signer recordedAt ids deal row token →
      ∀ (later : Store) (req : ApprovalRequest) (ids' : EventIds),
        (ledger signer).Reachable later →
        GrantsAsHeld later req signer row deal → AppliesHeld later req signer ids' row token := by
  intro h
  obtain ⟨ho, hd, -, hcommit⟩ := resolution_held
  obtain ⟨verdict, decision, commit, hrun, hcommitted⟩ := exists_committed hcommit
  have hholds : Holds (walked disputedEvents) heldResolution signer now.text ids disputedDeal
      resolutionRow .resolveDispute :=
    ⟨ho, hd, resolution_waits.waits, ⟨rfl, rfl, rfl, rfl, rfl, rfl, rfl, rfl⟩, rfl,
      resolution_waits.deal⟩
  have hgrants := resolution_waits.grantsAsHeld none rfl
  have happlies := h _ _ _ _ _ _ _ ho hrun hcommitted _ _ _ hholds _ _ ids
    resolutionHeld_reachable hgrants
  exact ((hgrants.applies_iff resolutionHeld_reachable rfl rfl).1 happlies).1 rfl

/-- The row of the agreement over the cap. -/
def Sample.agreementRow : Approval :=
  { resolutionRow with
    action := "accept_agreement", amountMinor := some 150000
    proposalDigest := proposalDigest agreement, reasonCode := .spendCapExceeded }

theorem Sample.agreement_held :
    (evaluate agreement).outcome = .needsApproval ∧
      (checkAntiReplay agreement offered.seen).outcome = .pass ∧
      offered.deals.get? dealId = some { Deal.fresh dealId with state := .quoteReceived } ∧
      ((processRequest offered agreement signer now.text ids).1.toOption.bind
        ProcessResult.commit).map CommitResult.outcome = some .committed := by
  decide +kernel

theorem Sample.agreement_waits :
    Waits held agreementRow { Deal.fresh dealId with state := .quoteReceived } :=
  waits_iff.2 ⟨rfl, rfl, rfl, by decide +kernel, rfl⟩

theorem Sample.held_ledger : (ledger signer).Reachable held :=
  .step (.step quoted_reachable ⟨.commitTransition
      { quoteRequested with event := .quoteReceived, commandId := ulid 'E' }, ids, trivial, rfl⟩)
    ⟨.commitRequest (agreement.commitRequest now.text), ids, trivial,
      processRequest_pass agreement_held.2.1⟩

theorem held_grantable_iff_agreement :
    AppliesHeld held (operatorGrant agreementRow (some 150000)) signer ids agreementRow
      .acceptAgreement := by
  obtain ⟨ho, hpass, hd, hcommit⟩ := agreement_held
  obtain ⟨verdict, decision, commit, hrun, hcommitted⟩ := exists_committed hcommit
  have hholds : Holds offered agreement signer now.text ids
      { Deal.fresh dealId with state := .quoteReceived } agreementRow .acceptAgreement :=
    ⟨ho, hd, agreement_waits.waits, ⟨rfl, rfl, rfl, rfl, rfl, rfl, rfl, rfl⟩, rfl,
      agreement_waits.deal⟩
  have hgrants := agreement_waits.grantsAsHeld (some 150000) rfl
  exact (((held_grantable_iff ho hrun hcommitted).2 _ _ _ hholds).2 held _ ids held_ledger
    hgrants).2 ⟨by decide, by decide⟩

end

end Mandate
