/-
  What an operation on the store does to one deal.

  An operation keeps a deal and its chain, creates the deal, or commits one of
  the four plans on it (`LedgerOp.dealStep`); laws about a single deal are read
  off these cases.  The approval rows change by one held request or one
  decision (`LedgerOp.approvalsStep`).
-/
import Mandate.Ledger.Runs

namespace Mandate

variable [Platform]

/-- What an operation does to the deal filed under `id` and to its chain. -/
inductive DealStep (signer : GatewaySigner) (id : String) (s : Store) : LedgerOp → Store → Prop
  | kept (op : LedgerOp) (s' : Store) (hd : s'.deals.get? id = s.deals.get? id)
      (he : s'.eventsFor id = s.eventsFor id) : DealStep signer id s op s'
  | created (createdAt : String) (s' : Store) (hn : s.deals.get? id = none)
      (hd : s'.deals.get? id = some (.fresh id)) (he : s'.eventsFor id = []) :
      DealStep signer id s (.createDeal id createdAt) s'
  | requested (req : CommitRequest) (deal : Deal) (chain : List Event) (plan : CommitPlan)
      (hid : req.dealId = id) (hd : s.deals.get? id = some deal)
      (hc : s.events.get? id = some chain)
      (hp : RequestPlan signer deal chain.length (lastHash chain genesisHash) req plan) :
      DealStep signer id s (.commitRequest req) (s.afterRequest req chain plan)
  | transitioned (req : TransitionRequest) (deal : Deal) (chain : List Event) (target : DealState)
      (plan : CommitPlan) (hid : req.dealId = id) (hd : s.deals.get? id = some deal)
      (hc : s.events.get? id = some chain) (hn : req.commandId ∉ s.seenCommands)
      (ht : transitionFor deal.state req.event = some target)
      (hp : TransitionPlan signer deal chain.length (lastHash chain genesisHash) req target plan)
      (hs : Stampable req.recordedAt) :
      DealStep signer id s (.commitTransition req) (s.afterTransition req chain plan)
  | decided (req : ApprovalRequest) (deal : Deal) (approval decided : Approval)
      (chain : List Event) (token : Option ActionToken) (record : Option AuthorityRecord)
      (revoked : Bool) (plan : CommitPlan) (hid : req.dealId = id)
      (hd : s.deals.get? id = some deal) (hc : s.events.get? id = some chain)
      (ha : s.approvals.get? req.approvalId = some approval) (hs : approval.status = .pending)
      (hn : req.commandId ∉ s.seenCommands)
      (hi : s.approvalInputs req approval = .ok (some (token, record, revoked)))
      (hp : ApprovalPlan signer deal approval chain.length (lastHash chain genesisHash) req record
        revoked token plan) (hu : plan.approval = some decided) (ht : Stampable req.recordedAt) :
      DealStep signer id s (.commitApproval req) (s.afterApproval req chain plan decided)
  | revoked (req : RevocationRequest) (deal : Deal) (chain : List Event) (plan : CommitPlan)
      (hid : req.dealId = id) (hd : s.deals.get? id = some deal)
      (hc : s.events.get? id = some chain)
      (hp : RevocationPlan signer deal chain.length (lastHash chain genesisHash) req plan) :
      DealStep signer id s (.commitRevocation req) (s.afterRevocation req chain plan)

variable {signer : GatewaySigner} {ids : EventIds} {s : Store} {id : String}

namespace Store

omit [Platform] in
theorem eventsFor_of_get? {chain : List Event} (h : s.events.get? id = some chain) :
    s.eventsFor id = chain := by
  rw [eventsFor, h]; rfl

omit [Platform] in
theorem eventsFor_of_set_ne {s' : Store} {dealId : String} {chain : List Event}
    (hid : dealId ≠ id) (he : s'.events = s.events.set dealId chain) :
    s'.eventsFor id = s.eventsFor id := by
  rw [eventsFor, eventsFor, he, Dict.get?_set_ne _ _ (Ne.symm hid)]

/-- A commit on another deal keeps this one. -/
theorem apply_kept (op : LedgerOp) {s' : Store} {dealId : String} {chain : List Event}
    {plan : CommitPlan} (hid : dealId ≠ id) (hd : s'.deals = s.deals.set dealId plan.newDeal)
    (he : s'.events = s.events.set dealId (chain ++ plan.events)) : DealStep signer id s op s' :=
  .kept op s' (by rw [hd, Dict.get?_set_ne _ _ (Ne.symm hid)]) (eventsFor_of_set_ne hid he)

end Store

theorem dealStep_createDeal (s : Store) (dealId createdAt id : String) :
    DealStep signer id s (.createDeal dealId createdAt)
      (s.createDeal (.fresh dealId) createdAt).2 := by
  unfold Store.createDeal
  split_ifs with hs
  · exact .kept _ _ rfl rfl
  · have hn : s.deals.get? dealId = none := Option.not_isSome_iff_eq_none.1 hs
    by_cases hid : dealId = id
    · subst hid
      exact .created createdAt _ hn (Dict.get?_set_self ..)
        (Store.eventsFor_of_get? (Dict.get?_set_self ..))
    · exact .kept _ _ (Dict.get?_set_ne _ _ (Ne.symm hid)) (Store.eventsFor_of_set_ne hid rfl)

theorem dealStep_commitRequest (s : Store) (req : CommitRequest) (id : String) :
    DealStep signer id s (.commitRequest req) (s.commitRequest req signer ids).2 := by
  have hcases := s.commitRequest_cases req signer ids
  generalize s.commitRequest req signer ids = r at hcases ⊢
  cases hcases with
  | refused r hr => exact .kept _ _ rfl rfl
  | committed deal chain plan hd hc hp _ =>
    by_cases hid : req.dealId = id
    · exact .requested req deal chain plan hid (hid ▸ hd) (hid ▸ hc) hp
    · exact Store.apply_kept _ hid rfl rfl

theorem dealStep_commitTransition (s : Store) (req : TransitionRequest) (id : String) :
    DealStep signer id s (.commitTransition req) (s.commitTransition req signer ids).2 := by
  have hcases := s.commitTransition_cases req signer ids
  generalize s.commitTransition req signer ids = r at hcases ⊢
  cases hcases with
  | refused r hr => exact .kept _ _ rfl rfl
  | committed deal chain target plan hd hc hn ht hp hs =>
    by_cases hid : req.dealId = id
    · exact .transitioned req deal chain target plan hid (hid ▸ hd) (hid ▸ hc) hn ht hp hs
    · exact Store.apply_kept _ hid rfl rfl

theorem dealStep_commitApproval (s : Store) (req : ApprovalRequest) (id : String) :
    DealStep signer id s (.commitApproval req) (s.commitApproval req signer ids).2 := by
  have hcases := s.commitApproval_cases req signer ids
  generalize s.commitApproval req signer ids = r at hcases ⊢
  cases hcases with
  | refused r hr => exact .kept _ _ rfl rfl
  | committed deal approval decided chain token record revoked plan hd hc ha hs hn hi hp hu ht =>
    by_cases hid : req.dealId = id
    · exact .decided req deal approval decided chain token record revoked plan hid (hid ▸ hd)
        (hid ▸ hc) ha hs hn hi hp hu ht
    · exact Store.apply_kept _ hid rfl rfl

theorem dealStep_commitRevocation (s : Store) (req : RevocationRequest) (id : String) :
    DealStep signer id s (.commitRevocation req) (s.commitRevocation req signer ids).2 := by
  have hcases := s.commitRevocation_cases req signer ids
  generalize s.commitRevocation req signer ids = r at hcases ⊢
  cases hcases with
  | refused r hr => exact .kept _ _ rfl rfl
  | committed deal chain record plan hd hc hn hr hl hp _ =>
    by_cases hid : req.dealId = id
    · exact .revoked req deal chain plan hid (hid ▸ hd) (hid ▸ hc) hp
    · exact .kept _ _ rfl (Store.eventsFor_of_set_ne hid rfl)

/-- Every operation does one of these to a deal. -/
theorem LedgerOp.dealStep (op : LedgerOp) (s : Store) (signer : GatewaySigner) (ids : EventIds)
    (id : String) : DealStep signer id s op (op.run signer ids s) := by
  cases op with
  | createDeal dealId createdAt => exact dealStep_createDeal s dealId createdAt id
  | linkDealRecord dealId recordId =>
    obtain ⟨links, hl⟩ := s.linkDealRecord_store dealId recordId
    rw [LedgerOp.run, hl]
    exact .kept _ _ rfl rfl
  | putRecord record => exact .kept _ _ rfl rfl
  | putRevocation revocation => exact .kept _ _ rfl rfl
  | commitRequest req => exact dealStep_commitRequest s req id
  | commitTransition req => exact dealStep_commitTransition s req id
  | commitApproval req => exact dealStep_commitApproval s req id
  | commitRevocation req => exact dealStep_commitRevocation s req id

/-! ## The approval rows -/

/-- What an operation does to the approval rows. -/
inductive ApprovalsStep (ids : EventIds) (s : Store) : LedgerOp → Store → Prop
  | kept (op : LedgerOp) (s' : Store) (h : s'.approvals = s.approvals) : ApprovalsStep ids s op s'
  | held (req : CommitRequest) (aid : String) (approval : Approval) (s' : Store)
      (ha : req.pendingApproval aid = .ok approval) (hid : approval.approvalId = ids 2)
      (hs : s'.approvals = s.approvals.set approval.approvalId approval) :
      ApprovalsStep ids s (.commitRequest req) s'
  | decided (req : ApprovalRequest) (approval : Approval) (status : ApprovalStatus) (s' : Store)
      (ha : s.approvals.get? req.approvalId = some approval) (hp : approval.status = .pending)
      (hst : status ≠ .pending)
      (hs : s'.approvals = s.approvals.set req.approvalId (req.decide approval status)) :
      ApprovalsStep ids s (.commitApproval req) s'

theorem approvalsStep_commitRequest (s : Store) (req : CommitRequest) :
    ApprovalsStep ids s (.commitRequest req) (s.commitRequest req signer ids).2 := by
  rcases s.commitRequest_planned req signer ids with
    hs | ⟨deal, event, chain, plan, hd, hc, ht, hplan, hs⟩
  · rw [hs]
    exact .kept _ _ rfl
  · rw [hs]
    have hid := planCommitRequest_approvalId hplan
    cases requestPlan_of_ok ht hplan with
    | decided mid did ho => exact .kept _ _ rfl
    | applied mid did id token event target ho hv he ht => exact .kept _ _ rfl
    | held mid did id aid approval ho ha => exact .held req aid approval _ ha (hid _ rfl) rfl

theorem approvalsStep_commitApproval (s : Store) (req : ApprovalRequest) :
    ApprovalsStep ids s (.commitApproval req) (s.commitApproval req signer ids).2 := by
  have hcases := s.commitApproval_cases req signer ids
  generalize s.commitApproval req signer ids = r at hcases ⊢
  cases hcases with
  | refused r hr => exact .kept _ _ rfl
  | committed deal approval decided chain token record revoked plan hd hc ha hs hn hi hp hu _ =>
    cases hp with
    | granted => cases hu; exact .decided req approval .granted _ ha hs (by decide) rfl
    | denied => cases hu; exact .decided req approval .denied _ ha hs (by decide) rfl

/-- Every operation does one of these to the approval rows. -/
theorem LedgerOp.approvalsStep (op : LedgerOp) (s : Store) (signer : GatewaySigner)
    (ids : EventIds) : ApprovalsStep ids s op (op.run signer ids s) := by
  cases op with
  | createDeal dealId createdAt =>
    refine .kept _ _ ?_
    simp only [LedgerOp.run, Store.createDeal]
    split_ifs <;> rfl
  | linkDealRecord dealId recordId =>
    obtain ⟨links, hl⟩ := s.linkDealRecord_store dealId recordId
    rw [LedgerOp.run, hl]
    exact .kept _ _ rfl
  | putRecord record => exact .kept _ _ rfl
  | putRevocation revocation => exact .kept _ _ rfl
  | commitRequest req => exact approvalsStep_commitRequest s req
  | commitTransition req =>
    have hcases := s.commitTransition_cases req signer ids
    simp only [LedgerOp.run]
    generalize s.commitTransition req signer ids = r at hcases ⊢
    cases hcases <;> exact .kept _ _ rfl
  | commitApproval req => exact approvalsStep_commitApproval s req
  | commitRevocation req =>
    have hcases := s.commitRevocation_cases req signer ids
    simp only [LedgerOp.run]
    generalize s.commitRevocation req signer ids = r at hcases ⊢
    cases hcases <;> exact .kept _ _ rfl

end Mandate
