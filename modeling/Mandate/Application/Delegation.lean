/-
  Revocation and the delegation tree.

  A record's ancestors are found by its parent ids.  Neither the claim builder
  nor the grant's recheck looks at them: a severed record still carries every
  request and grant that meets the record's own conditions, and these are all
  it carries (`cascades_iff`).
-/
import Mandate.Application.Claims
import Mandate.Application.ExactlyOnce
import Mandate.Application.Grants
import Mandate.Policy.Permitted

namespace Mandate

section
variable [Platform]

/-! ## Severed records -/

omit [Platform] in
/-- The ids of the ancestors of a record, of any height. -/
inductive AncestorId (s : Store) (record : AuthorityRecord) : String → Prop
  | parent {id : String} (h : record.parentRecordId = some id) : AncestorId s record id
  | next {id id' : String} {p : AuthorityRecord} (h : AncestorId s record id)
      (hs : s.records.get? id = some p) (hp : p.parentRecordId = some id') :
      AncestorId s record id'

/-- No record in force has this id: it is missing, expired, recorded as
    revoked, or proven revoked. -/
def Store.Void (s : Store) (signer : GatewaySigner) (now : Timestamp) (id : String) : Prop :=
  ∀ p ∈ s.records.get? id, p.expiresAt.instant < now.instant ∨ p.status = .revoked ∨
    s.provenRevoked signer id now = true

/-- Some ancestor of the record is void. -/
def Store.Severed (s : Store) (signer : GatewaySigner) (record : AuthorityRecord)
    (now : Timestamp) : Prop :=
  ∃ id, AncestorId s record id ∧ s.Void signer now id

/-! ## When a request is committed as allowed -/

/-- The call committed an allow. -/
def ProcessResult.Allowed : Except PyError ProcessResult → Prop
  | .ok ⟨_, some decision, some commit⟩ =>
    commit.outcome = .committed ∧ decision.outcome = .allow
  | _ => False

instance : DecidablePred ProcessResult.Allowed
  | .ok ⟨_, some decision, some commit⟩ => inferInstanceAs (Decidable
      (commit.outcome = .committed ∧ decision.outcome = .allow))
  | .ok ⟨_, none, _⟩ | .ok ⟨_, some _, none⟩ | .error _ => inferInstanceAs (Decidable False)

/-- What lets a request be committed as allowed: the gate, the mandate's own
    conditions, a stored deal on which the action can be taken, and a readable
    time. -/
structure Allowable (s : Store) (pi : PolicyInput) (recordedAt : String) : Prop where
  gate : (checkAntiReplay pi s.seen).outcome = .pass
  permitted : Permitted pi
  stored : ∃ deal token, s.deals.get? pi.deal.dealId = some deal ∧
    token.value = pi.proposal.action ∧
      ∀ event ∈ actionEvents token, (transitionFor deal.state event).isSome
  chain : (s.events.get? pi.deal.dealId).isSome
  time : Stampable recordedAt

variable {s : Store} {signer : GatewaySigner} {ids : EventIds}

omit [Platform] in
theorem ProcessResult.exists_of_allowed {r : Except PyError ProcessResult}
    (h : ProcessResult.Allowed r) : ∃ verdict decision commit,
      r = .ok ⟨verdict, some decision, some commit⟩ ∧ commit.outcome = .committed ∧
        decision.outcome = .allow :=
  match r, h with
  | .ok ⟨_, some _, some _⟩, h => ⟨_, _, _, rfl, h⟩

theorem allowable_of_allowed {pi : PolicyInput} {recordedAt : String}
    (h : ProcessResult.Allowed (processRequest s pi signer recordedAt ids).1) :
    Allowable s pi recordedAt := by
  obtain ⟨verdict, decision, commit, hr, hout, ho⟩ := ProcessResult.exists_of_allowed h
  obtain ⟨hg, hdec, hcommit⟩ := processRequest_commit hr
  cases hdec
  have hp := permitted_of_allow ho
  obtain ⟨deal, event, hd, hcheck⟩ := Store.commitRequest_rechecked
    (congrArg Prod.fst hcommit) hout
  have hcases := s.commitRequest_cases (pi.commitRequest recordedAt) signer ids
  rw [hcommit] at hcases
  generalize (processRequest s pi signer recordedAt ids).2 = s' at hcases
  cases hcases with
  | refused r hnot => exact absurd hout (hnot commit rfl)
  | committed deal' chain plan hd' hc hplan hs =>
    refine ⟨hg, hp, ?_, by rw [show s.events.get? pi.deal.dealId = some chain from hc]; rfl, hs⟩
    cases transitionCheck_of_ok hcheck with
    | notAllowed hnot => exact absurd ho hnot
    | decisionOnly token _ hv he => exact ⟨deal, token, hd, hv, by simp [he]⟩
    | applies token event target _ hv he ht =>
      refine ⟨deal, token, hd, hv, fun e hev => ?_⟩
      rw [he, Option.mem_some_iff] at hev
      rw [← hev, ht]
      rfl

theorem allowed_of_allowable {pi : PolicyInput} {recordedAt : String}
    (h : Allowable s pi recordedAt) (signer : GatewaySigner) (ids : EventIds) :
    ProcessResult.Allowed (processRequest s pi signer recordedAt ids).1 := by
  obtain ⟨chain, hc⟩ := Option.isSome_iff_exists.1 h.chain
  obtain ⟨deal, token, hd, hv, hevent⟩ := h.stored
  have ho := allow_of_permitted h.permitted
  have ho' : (pi.commitRequest recordedAt).decision.outcome = .allow := by
    rw [PolicyInput.commitRequest_decision, ho]
  have hv' : token.value = (pi.commitRequest recordedAt).action := hv
  have hcommit := Store.commitRequest_eq (pi.commitRequest recordedAt) hd hc signer ids
  cases he : actionEvents token with
  | none =>
    simp only [ho', planTransition_decides hv' he,
      planCommitRequest_decides (pi.commitRequest recordedAt) h.time ho'] at hcommit
    rw [processRequest_committed h.gate hcommit]
    exact ⟨rfl, ho⟩
  | some event =>
    obtain ⟨target, ht⟩ := Option.isSome_iff_exists.1 (hevent event he)
    simp only [ho', planTransition_applies hv' he ht,
      planCommitRequest_applies (pi.commitRequest recordedAt) h.time ho' hv' he ht] at hcommit
    rw [processRequest_committed h.gate hcommit]
    exact ⟨rfl, ho⟩

/-! ## The cascade -/

/-- The request is evaluated at `now` on the claim about the record. -/
structure RequestUnder (s : Store) (signer : GatewaySigner) (record : AuthorityRecord)
    (now : Timestamp) (pi : PolicyInput) : Prop where
  authority : buildClaim s signer record now.text = .ok pi.authority
  time : pi.now = now

omit [Platform] in
/-- The request decides at `now` an approval under the stored record. -/
structure DecisionUnder (s : Store) (record : AuthorityRecord) (now : Timestamp)
    (req : ApprovalRequest) : Prop where
  time : req.occurredAt = now.text
  record : ∃ approval, s.approvals.get? req.approvalId = some approval ∧
    s.records.get? approval.authorityRecordId = some record

/-- Under a severed record no request is committed as allowed and no grant
    applies a transition. -/
def Cascades (s : Store) (signer : GatewaySigner) (record : AuthorityRecord) (now : Timestamp) :
    Prop :=
  s.Severed signer record now →
    (∀ pi recordedAt ids, RequestUnder s signer record now pi →
      ¬ ProcessResult.Allowed (processRequest s pi signer recordedAt ids).1) ∧
    ∀ req ids, DecisionUnder s record now req →
      ¬ CommitResult.Moved (s.commitApproval req signer ids).1

/-- Revocation cascades to a record exactly when the record is not severed, or
    nothing meets the record's own conditions. -/
theorem cascades_iff (s : Store) (signer : GatewaySigner) (record : AuthorityRecord)
    (now : Timestamp) :
    Cascades s signer record now ↔ (s.Severed signer record now →
      (∀ pi recordedAt, RequestUnder s signer record now pi → ¬ Allowable s pi recordedAt) ∧
      ∀ req, DecisionUnder s record now req →
        ∀ deal approval event, ¬ Grants s req deal approval event) := by
  refine forall_congr' fun _ => and_congr ?_ ?_
  · constructor
    · intro h pi recordedAt hu ha
      exact h pi recordedAt (fun _ => "") hu (allowed_of_allowable ha signer _)
    · intro h pi recordedAt ids hu ha
      exact h pi recordedAt hu (allowable_of_allowed ha)
  · constructor
    · intro h req hu deal approval event hg
      exact h req (fun _ => "") hu (commitApproval_moved_iff.2 ⟨deal, approval, event, hg⟩)
    · intro h req ids hu hm
      obtain ⟨deal, approval, event, hg⟩ := commitApproval_moved_iff.1 hm
      exact h req hu deal approval event hg

end

section
open Sample
attribute [local instance] Sample.platform

/-- The mandate of a sub-agent, delegated from the record `Q`. -/
def Sample.delegated : AuthorityRecord :=
  sign { draftRecord with parentRecordId := some (ulid 'Q') }

/-- The record `Q`, recorded as revoked. -/
def Sample.revokedParent : AuthorityRecord :=
  sign { draftRecord with recordId := ulid 'Q', status := .revoked }

/-- A store with a revoked record. -/
def Sample.revoked : Store := LedgerOp.run signer ids registered (.putRecord revokedParent)

/-- The sub-agent asks for a quote. -/
def Sample.askedUnder : PolicyInput :=
  { asked with authority := revoked.claimAt signer delegated now }

/-- A request under a child of a revoked record is allowed. -/
theorem severed_allowed :
    (service signer fun _ _ => True).Reachable revoked ∧
      revoked.Severed signer delegated now ∧ RequestUnder revoked signer delegated now askedUnder ∧
      ProcessResult.Allowed (processRequest revoked askedUnder signer now.text ids).1 ∧
      ¬ Cascades revoked signer delegated now := by
  have hs : revoked.Severed signer delegated now :=
    ⟨ulid 'Q', .parent rfl, fun p hp => by
      rw [show revoked.records.get? (ulid 'Q') = some revokedParent from rfl,
        Option.mem_some_iff] at hp
      exact .inr (.inl (hp ▸ rfl))⟩
  have hu : RequestUnder revoked signer delegated now askedUnder :=
    ⟨buildClaim_text revoked signer delegated now, rfl⟩
  have ha : ProcessResult.Allowed (processRequest revoked askedUnder signer now.text ids).1 := by
    decide +kernel
  exact ⟨.step (registered_reachable _ trivial) (.other (.putRecord _) ids trivial trivial), hs, hu,
    ha, fun h => (h hs).1 askedUnder now.text ids hu ha⟩

end

end Mandate
