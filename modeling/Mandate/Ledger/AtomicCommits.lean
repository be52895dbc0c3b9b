/-
  In-memory commits are atomic: a commit that raises or is not `COMMITTED`
  leaves every map of the store as it was, and one that is committed appends to
  the chain of its own deal and writes no other deal's row (`commit_atomic`).

  A plan is pure, whatever it validates, hashes or signs.  So each operation is
  first stated over any planner, which may raise at any point (`commitRequestBy`
  and so on), and what it does is read off its body; the operations are then
  those with the planners of `Mandate.Ledger.CommitPlans`, with the events
  validated as they are built.
-/
import Mandate.Ledger.Store

namespace Mandate

variable [Platform]

/-- `build_event` returns a validated model, so a plan with an invalid event
    raises. -/
def CommitPlan.validate (plan : CommitPlan) : Except PyError CommitPlan := do
  plan.events.forM fun e => do let _ ← e.validate
  return plan

/-- What is planned on a stored deal, the length of its chain and its last
    hash. -/
abbrev Planner := Deal → ℕ → String → Except PyError CommitPlan

namespace Store

/-! ## The operations, over any planner -/

def commitRequestBy (s : Store) (req : CommitRequest) (plan : Option DealEvent → Planner) :
    Except PyError CommitResult × Store :=
  match s.deals.get? req.dealId with
  | none => s.refuse .dealNotFound "deal row not found" none
  | some deal =>
    match planTransition deal req.action req.decision.outcome with
    | .error abort => s.refuse .staleState abort none
    | .ok event =>
      match s.events.get? req.dealId with
      | none => (.error .keyError, s)
      | some chain =>
        match plan event deal chain.length (lastHash chain genesisHash) with
        | .error e => (.error e, s)
        | .ok plan => (.ok (committed plan), s.afterRequest req chain plan)

def commitTransitionBy (s : Store) (req : TransitionRequest) (plan : DealState → Planner) :
    Except PyError CommitResult × Store :=
  match s.deals.get? req.dealId with
  | none => s.refuse .dealNotFound "deal row not found" none
  | some deal =>
    if req.commandId ∈ s.seenCommands then
      s.refuse .alreadyApplied s!"command {req.commandId} already applied" deal
    else match transitionFor deal.state req.event with
      | none => s.refuse .staleState (s!"stale_state: event {pyRepr req.event.value} is not " ++
          s!"valid from stored state {deal.state.value}") none
      | some target =>
        match s.events.get? req.dealId with
        | none => (.error .keyError, s)
        | some chain =>
          match plan target deal chain.length (lastHash chain genesisHash) with
          | .error e => (.error e, s)
          | .ok plan => (.ok (committed plan), s.afterTransition req chain plan)

def commitApprovalBy (s : Store) (req : ApprovalRequest)
    (plan : Approval → Option ActionToken → Option AuthorityRecord → Bool → Planner) :
    Except PyError CommitResult × Store :=
  match s.deals.get? req.dealId with
  | none => s.refuse .dealNotFound "deal row not found" none
  | some deal =>
    match s.approvals.get? req.approvalId with
    | none => s.refuse .approvalNotFound "approval not found" none
    | some approval =>
      if approval.status ≠ .pending then
        s.refuse .alreadyApplied s!"approval {req.approvalId} already {approval.status.value}" deal
      else if req.commandId ∈ s.seenCommands then
        s.refuse .alreadyApplied s!"command {req.commandId} already applied" deal
      else match s.events.get? req.dealId with
        | none => (.error .keyError, s)
        | some chain =>
          match s.approvalInputs req approval with
          | .error e => (.error e, s)
          | .ok none => s.refuse .staleState s!"stale_state: unknown action {pyRepr req.action}" none
          | .ok (some (token, record, revoked)) =>
            match plan approval token record revoked deal chain.length
                (lastHash chain genesisHash) with
            | .error e => (.error e, s)
            | .ok plan =>
              match plan.approval with
              | none => (.error .assertionError, s)
              | some approval => (.ok (committed plan), s.afterApproval req chain plan approval)

def commitRevocationBy (s : Store) (req : RevocationRequest) (plan : Planner) :
    Except PyError CommitResult × Store :=
  match s.deals.get? req.dealId with
  | none => s.refuse .dealNotFound "deal row not found" none
  | some deal =>
    if req.commandId ∈ s.seenCommands then
      s.refuse .alreadyApplied s!"command {req.commandId} already applied" deal
    else match s.records.get? req.revocation.recordId with
      | none => s.refuse .recordNotFound
          s!"authority record {req.revocation.recordId} not found" deal
      | some record =>
        if s.listRevocations record.recordId ≠ [] then
          s.refuse .alreadyApplied s!"record {record.recordId} already revoked" deal
        else match s.events.get? req.dealId with
          | none => (.error .keyError, s)
          | some chain =>
            match plan deal chain.length (lastHash chain genesisHash) with
            | .error e => (.error e, s)
            | .ok plan =>
              (.ok ⟨.committed, "1 event appended", plan.events, some deal⟩,
                s.afterRevocation req chain plan)

variable {s : Store} {signer : GatewaySigner} {ids : EventIds}

/-- The operations of `Mandate.Ledger.Store` are those with its planners. -/
theorem commitRequest_eq_by (s : Store) (req : CommitRequest) :
    s.commitRequest req signer ids = s.commitRequestBy req fun event deal seq prevHash =>
      planCommitRequest signer deal seq prevHash req event ids := rfl

theorem commitTransition_eq_by (s : Store) (req : TransitionRequest) :
    s.commitTransition req signer ids = s.commitTransitionBy req fun target deal seq prevHash =>
      planCommitTransition signer deal seq prevHash req target ids := rfl

theorem commitApproval_eq_by (s : Store) (req : ApprovalRequest) :
    s.commitApproval req signer ids = s.commitApprovalBy req
      fun approval token record revoked deal seq prevHash =>
        planCommitApproval signer deal approval seq prevHash req record revoked token ids := rfl

theorem commitRevocation_eq_by (s : Store) (req : RevocationRequest) :
    s.commitRevocation req signer ids = s.commitRevocationBy req fun deal seq prevHash =>
      planCommitRevocation signer deal seq prevHash req ids := rfl

/-! ## What a commit leaves alone -/

/-- A commit that commits nothing changes nothing; one that commits keeps the
    rows and chains of other deals, and the events of every chain. -/
structure CommitsOnly (s : Store) (dealId : String) (done : Except PyError CommitResult × Store) :
    Prop where
  unchanged : (∀ r, done.1 = .ok r → r.outcome ≠ .committed) → done.2 = s
  others : ∀ id, id ≠ dealId → done.2.deals.get? id = s.deals.get? id ∧
    done.2.events.get? id = s.events.get? id
  appended : ∀ id chain, s.events.get? id = some chain →
    ∃ new, done.2.events.get? id = some (chain ++ new)

omit [Platform] in
theorem CommitsOnly.kept (s : Store) (dealId : String) (r : Except PyError CommitResult) :
    s.CommitsOnly dealId (r, s) :=
  ⟨fun _ => rfl, fun _ _ => ⟨rfl, rfl⟩, fun _ chain hc => ⟨[], by rw [List.append_nil, hc]⟩⟩

omit [Platform] in
/-- A committed plan: the deal's row replaced or kept, its chain extended. -/
theorem CommitsOnly.of_plan {s s' : Store} {dealId : String} {chain : List Event}
    {r : CommitResult} {new : List Event} (hr : r.outcome = .committed)
    (hc : s.events.get? dealId = some chain) (he : s'.events = s.events.set dealId (chain ++ new))
    (hd : ∀ id, id ≠ dealId → s'.deals.get? id = s.deals.get? id) :
    s.CommitsOnly dealId (.ok r, s') where
  unchanged h := absurd hr (h r rfl)
  others id hid := ⟨hd id hid, by rw [he, Dict.get?_set_ne _ _ hid]⟩
  appended id chain' hid := by
    by_cases heq : id = dealId
    · subst heq
      obtain rfl : chain = chain' := Option.some.inj (hc.symm.trans hid)
      exact ⟨new, by rw [he, Dict.get?_set_self]⟩
    · exact ⟨[], by rw [he, Dict.get?_set_ne _ _ heq, List.append_nil, hid]⟩

omit [Platform] in
theorem deals_of_apply {s s' : Store} {dealId : String} {deal : Deal}
    (h : s'.deals = s.deals.set dealId deal) (id : String) (hid : id ≠ dealId) :
    s'.deals.get? id = s.deals.get? id := by
  rw [h, Dict.get?_set_ne _ _ hid]

theorem commitRequestBy_only (s : Store) (req : CommitRequest)
    (plan : Option DealEvent → Planner) : s.CommitsOnly req.dealId (s.commitRequestBy req plan) := by
  unfold commitRequestBy
  split
  · exact .kept _ _ _
  · split
    · exact .kept _ _ _
    · split
      · exact .kept _ _ _
      · rename_i chain hc
        split
        · exact .kept _ _ _
        · exact .of_plan rfl hc rfl (deals_of_apply rfl)

theorem commitTransitionBy_only (s : Store) (req : TransitionRequest) (plan : DealState → Planner) :
    s.CommitsOnly req.dealId (s.commitTransitionBy req plan) := by
  unfold commitTransitionBy
  split
  · exact .kept _ _ _
  · split_ifs
    · exact .kept _ _ _
    · split
      · exact .kept _ _ _
      · split
        · exact .kept _ _ _
        · rename_i chain hc
          split
          · exact .kept _ _ _
          · exact .of_plan rfl hc rfl (deals_of_apply rfl)

theorem commitApprovalBy_only (s : Store) (req : ApprovalRequest)
    (plan : Approval → Option ActionToken → Option AuthorityRecord → Bool → Planner) :
    s.CommitsOnly req.dealId (s.commitApprovalBy req plan) := by
  unfold commitApprovalBy
  split
  · exact .kept _ _ _
  · split
    · exact .kept _ _ _
    · split_ifs
      · exact .kept _ _ _
      · exact .kept _ _ _
      · split
        · exact .kept _ _ _
        · rename_i chain hc
          split
          · exact .kept _ _ _
          · exact .kept _ _ _
          · split
            · exact .kept _ _ _
            · -- the plan decides the approval, or the assertion stops it
              split
              · exact .kept _ _ _
              · exact .of_plan rfl hc rfl (deals_of_apply rfl)

omit [Platform] in
theorem commitRevocationBy_only (s : Store) (req : RevocationRequest) (plan : Planner) :
    s.CommitsOnly req.dealId (s.commitRevocationBy req plan) := by
  unfold commitRevocationBy
  split
  · exact .kept _ _ _
  · split_ifs
    · exact .kept _ _ _
    · split
      · exact .kept _ _ _
      · split_ifs
        · exact .kept _ _ _
        · split
          · exact .kept _ _ _
          · rename_i chain hc
            split
            · exact .kept _ _ _
            · exact .of_plan rfl hc rfl fun _ _ => rfl

variable (signer) (ids) in
/-- So are the operations on which runs are built. -/
theorem commits_only (s : Store) :
    (∀ req, s.CommitsOnly req.dealId (s.commitRequest req signer ids)) ∧
    (∀ req, s.CommitsOnly req.dealId (s.commitTransition req signer ids)) ∧
    (∀ req, s.CommitsOnly req.dealId (s.commitApproval req signer ids)) ∧
    ∀ req, s.CommitsOnly req.dealId (s.commitRevocation req signer ids) := by
  refine ⟨fun req => ?_, fun req => ?_, fun req => ?_, fun req => ?_⟩
  · rw [commitRequest_eq_by]; exact s.commitRequestBy_only req _
  · rw [commitTransition_eq_by]; exact s.commitTransitionBy_only req _
  · rw [commitApproval_eq_by]; exact s.commitApprovalBy_only req _
  · rw [commitRevocation_eq_by]; exact s.commitRevocationBy_only req _

end Store

/-! ## The four commits -/

/-- A commit on one deal. -/
inductive Commit where
  | request (req : CommitRequest)
  | transition (req : TransitionRequest)
  | approval (req : ApprovalRequest)
  | revocation (req : RevocationRequest)

def Commit.dealId : Commit → String
  | request req => req.dealId
  | transition req => req.dealId
  | approval req => req.dealId
  | revocation req => req.dealId

/-- The operation of the in-memory store, with each event validated as it is
    built. -/
def Commit.run (signer : GatewaySigner) (ids : EventIds) (s : Store) :
    Commit → Except PyError CommitResult × Store
  | request req => s.commitRequestBy req fun event deal seq prevHash => do
      (← planCommitRequest signer deal seq prevHash req event ids).validate
  | transition req => s.commitTransitionBy req fun target deal seq prevHash => do
      (← planCommitTransition signer deal seq prevHash req target ids).validate
  | approval req => s.commitApprovalBy req
      fun approval token record revoked deal seq prevHash => do
        (← planCommitApproval signer deal approval seq prevHash req record revoked token
          ids).validate
  | revocation req => s.commitRevocationBy req fun deal seq prevHash => do
      (← planCommitRevocation signer deal seq prevHash req ids).validate

/-- Every commit is atomic: what raises or is not committed leaves the whole
    store as it was; what is committed changes no other deal and no event. -/
theorem commit_atomic (signer : GatewaySigner) (ids : EventIds) (s : Store) (c : Commit) :
    s.CommitsOnly c.dealId (c.run signer ids s) := by
  cases c with
  | request req => rw [Commit.run]; exact s.commitRequestBy_only req _
  | transition req => rw [Commit.run]; exact s.commitTransitionBy_only req _
  | approval req => rw [Commit.run]; exact s.commitApprovalBy_only req _
  | revocation req => rw [Commit.run]; exact s.commitRevocationBy_only req _

end Mandate
