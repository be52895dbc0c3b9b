/-
  The recheck of a grant against the engine.

  At a validated time a grant passes when the parent record is active and the
  deal's state admits the action (`grantRecheck_iff`); the tables of actions
  and of transitions agree on that.  The recheck does not look at `not_before`,
  so it is the engine's check of the validity interval except before that time
  (`grantRecheck_iff_engine`).
-/
import Mandate.Application.Grants
import Mandate.Policy.Holds

namespace Mandate

section
variable [Platform]

/-! ## What the recheck accepts -/

/-- At a validated time, a grant is rechecked by the status of the record and
    the state of the deal. -/
theorem grantRecheck_iff {record : AuthorityRecord} {revoked : Bool} {deal : Deal}
    {token : ActionToken} {t : String} {status : RecordStatus}
    (hs : resolveStatus record t revoked = .ok status) (event : DealEvent) :
    grantRecheck (some record) revoked deal token t = .ok (.ok event) ↔
      status = .active ∧ actionEvents token = some event ∧
        deal.state ∈ actionValidStates token := by
  constructor
  · intro h
    obtain ⟨r, target, hr, hactive, he, ht⟩ := grantRecheck_ok h
    cases hr
    have hst : status = .active := Except.ok.inj (hs.symm.trans hactive)
    exact ⟨hst, he, (mem_actionValidStates he _).2 (ht ▸ rfl)⟩
  · rintro ⟨rfl, he, hm⟩
    have hf : (actionEvents token).filter (fun event => (transitionFor deal.state event).isSome) =
        some event := Option.filter_eq_some_iff.2 ⟨he, (mem_actionValidStates he _).1 hm⟩
    simp [grantRecheck, hs, hf, bind, Except.bind, pure, Except.pure]

/-- `commit_approval` accepts a grant of the row at `t`. -/
def AcceptsGrant (s : Store) (approval : Approval) (deal : Deal) (token : ActionToken)
    (t : Timestamp) : Prop :=
  ∃ record revoked event, s.grantRecheckInputs approval t.text = .ok (record, revoked) ∧
    grantRecheck record revoked deal token t.text = .ok (.ok event)

/-- An input about the stored parent record at `t`: validly signed, its status
    resolved from the facts that the recheck reads. -/
structure ClaimsParent (s : Store) (approval : Approval) (t : Timestamp) (pi : PolicyInput) : Prop where
  stored : s.records.get? approval.authorityRecordId = some pi.authority.record
  signature : pi.authority.signatureValid = true
  now : pi.now = t
  status : ∃ revoked, s.grantRecheckInputs approval t.text = .ok (some pi.authority.record, revoked) ∧
    resolveStatus pi.authority.record t.text revoked = .ok pi.authority.status

/-- The recheck is step 3 and the table of valid states, but before the record's
    `not_before`; the two tables agree on every state. -/
theorem grantRecheck_iff_engine {s : Store} {approval : Approval} {t : Timestamp}
    {pi : PolicyInput} {token : ActionToken} {event : DealEvent} (h : ClaimsParent s approval t pi)
    (he : actionEvents token = some event) (deal : Deal) :
    ((AcceptsGrant s approval deal token t ↔
        step03Validity pi = none ∧ deal.state ∈ actionValidStates token) ↔
      ¬ (t.instant < pi.authority.record.notBefore.instant ∧ pi.authority.status = .active ∧
        deal.state ∈ actionValidStates token)) ∧
    ∀ state, state ∈ actionValidStates token ↔ (transitionFor state event).isSome := by
  refine ⟨?_, mem_actionValidStates he⟩
  obtain ⟨revoked, hi, hs⟩ := h.status
  have haccepts : AcceptsGrant s approval deal token t ↔
      pi.authority.status = .active ∧ deal.state ∈ actionValidStates token := by
    constructor
    · rintro ⟨record, revoked', event', hi', hg⟩
      rw [hi, Except.ok.injEq, Prod.mk.injEq] at hi'
      obtain ⟨rfl, rfl⟩ := hi'
      obtain ⟨hactive, -, hm⟩ := (grantRecheck_iff hs event').1 hg
      exact ⟨hactive, hm⟩
    · rintro ⟨hactive, hm⟩
      exact ⟨_, revoked, event, hi, (grantRecheck_iff hs event).2 ⟨hactive, he, hm⟩⟩
  -- an active record has not expired
  have hexpires : pi.authority.status = .active →
      pi.now.instant ≤ pi.authority.record.expiresAt.instant := by
    intro hactive
    rw [resolveStatus_text, hactive, Except.ok.injEq] at hs
    split_ifs at hs with hr hlt
    rw [h.now]
    exact not_lt.1 hlt
  have hstep : step03Validity pi = none ↔ pi.authority.status = .active ∧
      pi.authority.record.notBefore.instant ≤ t.instant := by
    rw [step03Validity_eq_none, h.now]
    constructor
    · rintro ⟨hr, hx, hb, -⟩
      refine ⟨?_, hb⟩
      cases hst : pi.authority.status with
      | active => rfl
      | revoked => exact absurd hst hr
      | expired => exact absurd hst hx
    · rintro ⟨hactive, hb⟩
      exact ⟨by rw [hactive]; decide, by rw [hactive]; decide, hb, h.now ▸ hexpires hactive⟩
  rw [haccepts, hstep]
  constructor
  · rintro hiff ⟨hlt, hactive, hm⟩
    exact absurd (hiff.1 ⟨hactive, hm⟩).1.2 (not_le.2 hlt)
  · intro hn
    constructor
    · rintro ⟨hactive, hm⟩
      exact ⟨⟨hactive, not_lt.1 fun hlt => hn ⟨hlt, hactive, hm⟩⟩, hm⟩
    · rintro ⟨⟨hactive, -⟩, hm⟩
      exact ⟨hactive, hm⟩

end

section
open Sample
attribute [local instance] Sample.platform

/-- A mandate that is valid on its last day only, stored. -/
def Sample.lateMandate : AuthorityRecord := { record with notBefore := stop }

def Sample.lateStore : Store := registered.putRecord lateMandate

/-- A row that waits under that mandate. -/
def Sample.lateRow : Approval :=
  { approvalId := ulid '2', dealId, requestId := ulid '1', authorityRecordId := ulid 'R'
    action := "accept_agreement", amountMinor := none, currency := "EUR", proposalDigest := ""
    reasonCode := .approvalRequired, status := .pending, decidedBy := none, decidedAt := none
    commandId := none, createdAt := now.text }

/-- The deal that the row's action fits. -/
def Sample.quotedDealRow : Deal := { Deal.fresh dealId with state := .quoteReceived }

def Sample.underLateMandate : PolicyInput :=
  { input quotedDealRow .acceptAgreement none '1' with authority := ⟨lateMandate, true, [], .active⟩ }

theorem Sample.lateMandate_claimed : ClaimsParent lateStore lateRow now underLateMandate :=
  ⟨rfl, rfl, rfl, false, rfl, by rw [resolveStatus_text]; rfl⟩

/-- A grant decided before `not_before` is accepted; the engine would deny. -/
theorem grant_accepted_early :
    ¬ ∀ (s : Store) (approval : Approval) (t : Timestamp) (pi : PolicyInput) (token : ActionToken)
      (event : DealEvent) (deal : Deal), ClaimsParent s approval t pi →
      actionEvents token = some event →
      (AcceptsGrant s approval deal token t ↔
        step03Validity pi = none ∧ deal.state ∈ actionValidStates token) := by
  intro h
  have hiff := h lateStore lateRow now underLateMandate .acceptAgreement .agreementReached
    quotedDealRow lateMandate_claimed rfl
  have haccepts : AcceptsGrant lateStore lateRow quotedDealRow .acceptAgreement now :=
    ⟨some lateMandate, false, .agreementReached, rfl,
      (grantRecheck_iff (by rw [resolveStatus_text]; rfl) _).2 ⟨rfl, rfl, by decide⟩⟩
  have hnot := (step03Validity_eq_none underLateMandate).1 (hiff.1 haccepts).1
  exact absurd hnot.2.2.1 (by decide)

theorem grantRecheck_iff_engine_late :
    ((AcceptsGrant lateStore lateRow quotedDealRow .acceptAgreement now ↔
        step03Validity underLateMandate = none ∧
          quotedDealRow.state ∈ actionValidStates .acceptAgreement) ↔
      ¬ (now.instant < underLateMandate.authority.record.notBefore.instant ∧
        underLateMandate.authority.status = .active ∧
        quotedDealRow.state ∈ actionValidStates .acceptAgreement)) ∧
    ∀ state, state ∈ actionValidStates .acceptAgreement ↔
      (transitionFor state .agreementReached).isSome :=
  grantRecheck_iff_engine lateMandate_claimed rfl quotedDealRow

end

end Mandate
