/-
  Grants and the proposals they answer.

  A decision on an approval changes nothing, logs a deny, or applies a
  transition; the last happens exactly to a request that `Grants`
  (`commitApproval_of_grants`, `grants_of_moved`).  Nothing compares the
  request with the approval row it decides: what is applied is bound to the
  row exactly when the request repeats it (`grantBound_iff`).
-/
import Mandate.Application.Services

namespace Mandate

section
variable [Platform]

/-- The commit appended a transition. -/
def CommitResult.Moved : Except PyError CommitResult → Prop
  | .ok commit => commit.outcome = .committed ∧ ∃ e ∈ commit.events, e.eventType = .stateTransition
  | .error _ => False

instance : DecidablePred CommitResult.Moved
  | .ok commit => inferInstanceAs (Decidable
      (commit.outcome = .committed ∧ ∃ e ∈ commit.events, e.eventType = .stateTransition))
  | .error _ => inferInstanceAs (Decidable False)

/-- What a decision needs to apply a transition: a stored deal, a pending row,
    a fresh command, a grant with a signed record, rechecks that pass, and a
    readable time. -/
structure Grants (s : Store) (req : ApprovalRequest) (deal : Deal) (approval : Approval)
    (event : DealEvent) : Prop where
  stored : s.deals.get? req.dealId = some deal
  chain : (s.events.get? req.dealId).isSome
  row : s.approvals.get? req.approvalId = some approval
  pending : approval.status = .pending
  command : req.commandId ∉ s.seenCommands
  operation : req.operation = .granted
  signed : req.approvalRecord.isSome
  recheck : ∃ token record revoked, token.value = req.action ∧
    s.grantRecheckInputs approval req.occurredAt = .ok (record, revoked) ∧
      grantRecheck record revoked deal token req.occurredAt = .ok (.ok event)
  time : Stampable req.recordedAt

/-- The plan of a grant, stamped with the first two ids. -/
def ApprovalRequest.grantPlan (req : ApprovalRequest) (signer : GatewaySigner) (deal : Deal)
    (approval : Approval) (seq : ℕ) (prevHash : String) (ids : EventIds)
    (approvalRecord : ApprovalRecord) (event : DealEvent) (target : DealState) : CommitPlan :=
  { events := extend seq prevHash
      [req.grantedEvent signer (ids 0) seq prevHash approval.requestId approvalRecord]
      fun n prev => req.transitionEvent signer (ids 1) n prev approval.requestId event deal
        (applyEvent deal event target req.amountMinor).closeApproval
    newDeal := (applyEvent deal event target req.amountMinor).closeApproval
    approval := some (req.decide approval .granted) }

variable {signer : GatewaySigner} {ids : EventIds} {s : Store} {req : ApprovalRequest}
  {deal : Deal} {approval : Approval} {event : DealEvent}

theorem planCommitApproval_grants {seq : ℕ} {prevHash : String} {record : Option AuthorityRecord}
    {revoked : Bool} {token : ActionToken} {target : DealState} {approvalRecord : ApprovalRecord}
    (hs : Stampable req.recordedAt) (ho : req.operation = .granted)
    (har : req.approvalRecord = some approvalRecord)
    (hg : grantRecheck record revoked deal token req.occurredAt = .ok (.ok event))
    (he : actionEvents token = some event) (ht : transitionFor deal.state event = some target) :
    planCommitApproval signer deal approval seq prevHash req record revoked (some token) ids =
      .ok (req.grantPlan signer deal approval seq prevHash ids approvalRecord event target) := by
  have hid : ∀ id, makeEventId req.recordedAt id = .ok id := fun id =>
    makeEventId_eq_ok.2 ⟨hs, rfl⟩
  have hv : req.verdict deal record revoked (some token) =
      .ok (.ok (approvalRecord, token, event)) := by
    simp [ApprovalRequest.verdict, ho, har, hg, bind, Except.bind, pure, Except.pure]
  simp [planCommitApproval, hv, hid, applyAction_event he ht, ApprovalRequest.grantPlan, bind,
    Except.bind, pure, Except.pure]

/-- A request that grants applies its own action and amount. -/
theorem commitApproval_of_grants (h : Grants s req deal approval event) (signer : GatewaySigner)
    (ids : EventIds) :
    ∃ chain token target approvalRecord, s.events.get? req.dealId = some chain ∧
      token.value = req.action ∧ actionEvents token = some event ∧
      transitionFor deal.state event = some target ∧ req.approvalRecord = some approvalRecord ∧
      s.commitApproval req signer ids =
        (.ok (Store.committed (req.grantPlan signer deal approval chain.length
            (lastHash chain genesisHash) ids approvalRecord event target)),
          s.afterApproval req chain (req.grantPlan signer deal approval chain.length
            (lastHash chain genesisHash) ids approvalRecord event target)
            (req.decide approval .granted)) := by
  obtain ⟨chain, hc⟩ := Option.isSome_iff_exists.1 h.chain
  obtain ⟨approvalRecord, har⟩ := Option.isSome_iff_exists.1 h.signed
  obtain ⟨token, record, revoked, hv, hi, hg⟩ := h.recheck
  obtain ⟨r, target, -, -, he, ht⟩ := grantRecheck_ok hg
  refine ⟨chain, token, target, approvalRecord, hc, hv, he, ht, har, ?_⟩
  have hinputs : s.approvalInputs req approval = .ok (some (some token, record, revoked)) := by
    simp [Store.approvalInputs, h.operation, actionToken_eq_some.2 hv, hi, bind, Except.bind, pure,
      Except.pure]
  have hplan : ∀ seq prevHash, planCommitApproval signer deal approval seq prevHash req record
      revoked (some token) ids =
        .ok (req.grantPlan signer deal approval seq prevHash ids approvalRecord event target) :=
    fun _ _ => planCommitApproval_grants h.time h.operation har hg he ht
  simp only [Store.commitApproval, h.stored, h.row, h.pending, ne_eq, not_true_eq_false,
    if_false, h.command, hc, hinputs, hplan]
  rfl

/-- The inputs a grant was planned with are those of its own action. -/
theorem grantInputs_ok {token : ActionToken} {record : Option AuthorityRecord} {revoked : Bool}
    (ho : req.operation = .granted)
    (hi : s.approvalInputs req approval = .ok (some (some token, record, revoked)))
    (hg : grantRecheck record revoked deal token req.occurredAt = .ok (.ok event)) :
    ∃ token record revoked, token.value = req.action ∧
      s.grantRecheckInputs approval req.occurredAt = .ok (record, revoked) ∧
        grantRecheck record revoked deal token req.occurredAt = .ok (.ok event) := by
  simp only [Store.approvalInputs, ho] at hi
  cases hv : (StrEnum.ofValue? req.action : Option ActionToken) with
  | none => simp only [hv] at hi; cases hi
  | some token =>
    simp only [hv] at hi
    obtain ⟨inputs, hgi, hi⟩ := bind_ok.1 hi
    cases hi
    exact ⟨token, _, _, actionToken_eq_some.1 hv, hgi, hg⟩

/-- A decision on an approval changes nothing, is a deny, or grants. -/
theorem commitApproval_outcome (s : Store) (req : ApprovalRequest) (signer : GatewaySigner)
    (ids : EventIds) :
    ((s.commitApproval req signer ids).2 = s ∧
      ∀ commit, (s.commitApproval req signer ids).1 = .ok commit → commit.outcome ≠ .committed) ∨
      (∃ commit approval id n prev reason, (s.commitApproval req signer ids).1 = .ok commit ∧
        s.approvals.get? req.approvalId = some approval ∧ commit.outcome = .committed ∧
          commit.events = [req.deniedEvent signer id n prev approval.requestId reason]) ∨
      ∃ deal approval event, Grants s req deal approval event := by
  have hcases := s.commitApproval_cases req signer ids
  generalize s.commitApproval req signer ids = r at hcases ⊢
  cases hcases with
  | refused r hr => exact .inl ⟨rfl, hr⟩
  | committed deal approval decided chain token record revoked plan hd hc ha hs hn hi hp hu ht =>
    cases hp with
    | denied id denyReason hv =>
      exact .inr (.inl ⟨_, approval, id, _, _, denyReason, rfl, ha, rfl, rfl⟩)
    | granted aid id approvalRecord action event target ho har hk hg he htr =>
      subst hk
      exact .inr (.inr ⟨deal, approval, event, hd, by rw [hc]; rfl, ha, hs, hn, ho,
        by rw [har]; rfl, grantInputs_ok ho hi hg, ht⟩)

/-- A decision applies a transition exactly when it grants. -/
theorem commitApproval_moved_iff :
    CommitResult.Moved (s.commitApproval req signer ids).1 ↔
      ∃ deal approval event, Grants s req deal approval event := by
  constructor
  · intro hm
    rcases commitApproval_outcome s req signer ids with ⟨-, hnot⟩ | hdeny | h
    · cases hr : (s.commitApproval req signer ids).1 with
      | error e => rw [hr] at hm; exact hm.elim
      | ok commit =>
        rw [hr] at hm
        exact absurd hm.1 (hnot commit hr)
    · obtain ⟨commit, approval, id, n, prev, reason, hok, -, -, hev⟩ := hdeny
      rw [hok] at hm
      obtain ⟨e, he, ht⟩ := hm.2
      rw [hev, List.mem_singleton] at he
      subst he
      simp at ht
    · exact h
  · rintro ⟨deal, approval, event, h⟩
    obtain ⟨chain, token, target, record, -, -, -, -, -, hcommit⟩ :=
      commitApproval_of_grants h signer ids
    rw [hcommit]
    exact ⟨rfl, _, List.mem_append_right _ (List.mem_singleton_self _), rfl⟩

/-! ## What a grant is bound to -/

/-- The signed record verifies under the gateway key and carries the fields of
    the approval. -/
structure Overrides (signer : GatewaySigner) (record : ApprovalRecord) (approval : Approval) :
    Prop where
  signed : (verifyApproval record signer.publicKey (some signer.keyId)).valid = true
  dealId : record.dealId = approval.dealId
  requestId : record.requestId = approval.requestId
  parent : record.parentAuthorityRecordId = approval.authorityRecordId
  action : record.action = approval.action
  amountMinor : record.amountMinor.map (fun n : ℕ => (n : ℤ)) = approval.amountMinor
  currency : record.currency = approval.currency
  proposalDigest : record.proposalDigest = approval.proposalDigest

/-- The request repeats the approval it decides. -/
structure Repeats (signer : GatewaySigner) (req : ApprovalRequest) (approval : Approval) :
    Prop where
  dealId : req.dealId = approval.dealId
  authorityRecordId : req.authorityRecordId = approval.authorityRecordId
  action : req.action = approval.action
  amountMinor : req.amountMinor = approval.amountMinor
  override : ∀ record ∈ req.approvalRecord, Overrides signer record approval

/-- What was applied is what was to be approved: the action, the amount, the
    deal and the authority record are the approval's, and the signed record on
    the chain overrides for it. -/
structure Bound (signer : GatewaySigner) (s : Store) (req : ApprovalRequest) (approval : Approval)
    (commit : CommitResult) (s' : Store) : Prop where
  action : ∀ e ∈ commit.events, e.str? "action" = some approval.action
  amount : ∀ e ∈ commit.events, e.int? "amount_minor" = approval.amountMinor
  dealId : ∀ e ∈ commit.events, e.dealId = approval.dealId
  authority : ∀ e ∈ commit.events, e.authorityRecordId = some approval.authorityRecordId
  row : ∃ deal token event target, s.deals.get? approval.dealId = some deal ∧
    token.value = approval.action ∧ actionEvents token = some event ∧
      transitionFor deal.state event = some target ∧ s'.deals = s.deals.set approval.dealId
        (applyEvent deal event target approval.amountMinor).closeApproval
  override : ∃ record, req.approvalRecord = some record ∧ Overrides signer record approval ∧
    ∃ e ∈ commit.events, e.field "approval_record" = some record.toJson

/-- A decision leaves the store as it is, logs a deny of the row's request, or
    applies what the row is about. -/
def GrantBound (s : Store) (req : ApprovalRequest) (signer : GatewaySigner) (ids : EventIds) :
    Prop :=
  let r := s.commitApproval req signer ids
  r.2 = s ∨ ∃ commit approval, r.1 = .ok commit ∧ commit.outcome = .committed ∧
    s.approvals.get? req.approvalId = some approval ∧
      ((∃ e entry, commit.events = [e] ∧ e.approval? = some entry ∧ entry.operation = .denied ∧
        entry.requestId = approval.requestId) ∨
        Bound signer s req approval commit r.2)

section
variable {seq : ℕ} {prevHash : String} {record : ApprovalRecord} {target : DealState}

/-- Both events of a grant carry the request's fields. -/
theorem grantPlan_fields {e : Event}
    (he : e ∈ (req.grantPlan signer deal approval seq prevHash ids record event target).events) :
    e.str? "action" = some req.action ∧ e.int? "amount_minor" = req.amountMinor ∧
      e.dealId = req.dealId ∧ e.authorityRecordId = some req.authorityRecordId := by
  rcases List.mem_append.1 he with he | he
  · rw [List.mem_singleton] at he
    subst he
    refine ⟨?_, ?_, rfl, rfl⟩
    · simp [Event.str?, Event.field, ApprovalRequest.grantedEvent, approvalGrantedPayload,
        approvalHead, Dict.getEntries]
    · cases ha : req.amountMinor <;>
        simp [Event.int?, Event.field, ApprovalRequest.grantedEvent, approvalGrantedPayload,
          approvalHead, Dict.getEntries, ha, optInt]
  · rw [List.mem_singleton] at he
    subst he
    refine ⟨?_, ?_, rfl, rfl⟩
    · simp [Event.str?, Event.field, ApprovalRequest.transitionEvent, transitionPayload,
        Cause.fields, Dict.getEntries]
    · cases ha : req.amountMinor <;>
        simp [Event.int?, Event.field, ApprovalRequest.transitionEvent, transitionPayload,
          Cause.fields, Dict.getEntries, ha, optInt]

theorem grantedEvent_record (id : String) (n : ℕ) (prev requestId : String) :
    (req.grantedEvent signer id n prev requestId record).field "approval_record" =
      some record.toJson := by
  simp [Event.field, ApprovalRequest.grantedEvent, approvalGrantedPayload, approvalHead,
    Dict.getEntries]

end

/-- A grant that repeats its approval is bound to it. -/
theorem grantBound_of_repeats (h : Grants s req deal approval event)
    (hr : Repeats signer req approval) : GrantBound s req signer ids := by
  obtain ⟨chain, token, target, record, hc, hv, he, ht, har, hcommit⟩ :=
    commitApproval_of_grants h signer ids
  refine .inr ⟨_, approval, by rw [hcommit], rfl, h.row, .inr ?_⟩
  rw [hcommit]
  constructor
  · intro e hm
    rw [← hr.action]
    exact (grantPlan_fields hm).1
  · intro e hm
    rw [← hr.amountMinor]
    exact (grantPlan_fields hm).2.1
  · intro e hm
    rw [← hr.dealId]
    exact (grantPlan_fields hm).2.2.1
  · intro e hm
    rw [← hr.authorityRecordId]
    exact (grantPlan_fields hm).2.2.2
  · refine ⟨deal, token, event, target, ?_, ?_, he, ht, ?_⟩
    · rw [← hr.dealId]; exact h.stored
    · rw [← hr.action]; exact hv
    · rw [← hr.dealId, ← hr.amountMinor]; rfl
  · exact ⟨record, har, hr.override record har, _, List.mem_append_left _ (List.mem_singleton_self _),
      grantedEvent_record ..⟩

/-- A grant that is bound to its approval repeats it. -/
theorem repeats_of_grantBound (h : Grants s req deal approval event)
    (hb : GrantBound s req signer ids) : Repeats signer req approval := by
  obtain ⟨chain, token, target, record, hc, hv, he, ht, har, hcommit⟩ :=
    commitApproval_of_grants h signer ids
  unfold GrantBound at hb
  rw [hcommit] at hb
  rcases hb with hsame | ⟨commit, approval', hok, -, hrow, hb⟩
  · -- the command has been seen
    have hseen : insert req.commandId s.seenCommands = s.seenCommands :=
      congrArg Store.seenCommands hsame
    exact absurd (hseen ▸ Finset.mem_insert_self _ _) h.command
  · obtain rfl : approval = approval' := Option.some.inj (h.row.symm.trans hrow)
    cases hok
    rcases hb with ⟨e, entry, hev, -⟩ | hb
    · -- a grant appends two events
      exact absurd (congrArg List.length hev) (by
        simp [Store.committed, ApprovalRequest.grantPlan, extend])
    · have hm : req.grantedEvent signer (ids 0) chain.length (lastHash chain genesisHash)
          approval.requestId record ∈ (Store.committed (req.grantPlan signer deal approval
            chain.length (lastHash chain genesisHash) ids record event target)).events :=
        List.mem_append_left _ (List.mem_singleton_self _)
      obtain ⟨haction, hamount, hdeal, hauth⟩ := grantPlan_fields hm
      obtain ⟨record', har', hover, -⟩ := hb.override
      refine ⟨?_, ?_, ?_, ?_, fun r hr => ?_⟩
      · exact hdeal.symm.trans (hb.dealId _ hm)
      · exact Option.some.inj (hauth.symm.trans (hb.authority _ hm))
      · exact Option.some.inj (haction.symm.trans (hb.action _ hm))
      · exact hamount.symm.trans (hb.amount _ hm)
      · rw [har', Option.mem_some_iff] at hr
        exact hr ▸ hover

/-- A decision is bound to the approval it answers exactly when the request,
    if it grants, repeats the approval. -/
theorem grantBound_iff (s : Store) (req : ApprovalRequest) (signer : GatewaySigner)
    (ids : EventIds) :
    GrantBound s req signer ids ↔
      ∀ deal approval event, Grants s req deal approval event → Repeats signer req approval := by
  constructor
  · intro hb deal approval event h
    exact repeats_of_grantBound h hb
  · intro hrep
    rcases commitApproval_outcome s req signer ids with ⟨hsame, -⟩ | hdeny | ⟨deal, approval, event, h⟩
    · exact .inl hsame
    · obtain ⟨commit, approval, id, n, prev, reason, hok, hrow, hc, hev⟩ := hdeny
      exact .inr ⟨commit, approval, hok, hc, hrow, .inl ⟨_, _, hev, req.deniedEvent_approval? ..,
        rfl, rfl⟩⟩
    · exact grantBound_of_repeats h (hrep deal approval event h)

end

section
open Sample
attribute [local instance] Sample.platform

/-- An agreement over the spend cap. -/
def Sample.agreement : PolicyInput :=
  input { Deal.fresh dealId with state := .quoteReceived } .acceptAgreement (some 150000) '1'

/-- The store in which the agreement waits for an approval. -/
def Sample.held : Store := (processRequest offered agreement signer now.text ids).2

/-- The operator grants the agreement, for some amount. -/
def Sample.grant (amountMinor : ℤ) : ApprovalRequest :=
  { dealId, approvalId := ids 2, commandId := ulid 'G', operation := .granted
    actorKind := .principal, actorId := ulid 'P', authorityRecordId := ulid 'R'
    action := ActionToken.acceptAgreement.value, amountMinor
    occurredAt := now.text, recordedAt := now.text, decidedBy := ulid 'P'
    approvalRecord := some (makeApprovalRecord (ulid 'S') dealId (ulid '1') (ulid 'R')
      ActionToken.acceptAgreement.value (some 150000) "EUR" (proposalDigest agreement) now signer) }

/-- A grant of another amount than the approved one applies it. -/
theorem grant_of_other_amount :
    (service signer fun _ _ => True).Reachable held ∧ (grant 9900000).operation = .granted ∧
      ¬ GrantBound held (grant 9900000) signer ids := by
  refine ⟨.step offered_reachable (.request agreement now.text ids), rfl, fun hb => ?_⟩
  have hm : CommitResult.Moved (held.commitApproval (grant 9900000) signer ids).1 := by
    decide +kernel
  obtain ⟨deal, approval, event, h⟩ := commitApproval_moved_iff.1 hm
  have ha : (held.approvals.get? (ids 2)).map Approval.amountMinor = some (some 150000) := by
    decide +kernel
  have hrow : held.approvals.get? (ids 2) = some approval := h.row
  have hamount : some 9900000 = approval.amountMinor := (repeats_of_grantBound h hb).amountMinor
  rw [hrow, Option.map_some, ← hamount] at ha
  exact absurd ha (by decide)

end

end Mandate
