/-
  The in-memory ledger store.

  A commit takes the store to a result, or an exception, and the store after
  it.  Each operation comes with an inversion (`Store.commitRequest_cases` and
  so on): it leaves the store as it is, or it commits a plan of the shapes of
  `Mandate.Ledger.CommitPlans` on the stored deal and the head of its chain.
-/
import Mathlib.Data.Finset.Insert
import Mandate.Ledger.CommitPlans

namespace Mandate

inductive CommitOutcome where
  | committed | alreadyApplied | staleState | dealNotFound | approvalNotFound | recordNotFound
deriving DecidableEq, Repr

structure CommitResult where
  outcome : CommitOutcome
  detail : String
  events : List Event
  newDeal : Option Deal

structure Store where
  deals : Dict String Deal
  dealCreatedAt : Dict String String
  dealLinks : Dict String String
  events : Dict String (List Event)
  records : Dict String AuthorityRecord
  revocations : Dict String Revocation
  approvals : Dict String Approval
  nonceOwners : Dict String String
  seenRequests : Finset String
  decisions : Dict String (String × PolicyDecision)
  seenCommands : Finset String

namespace Store

def empty : Store :=
  { deals := .empty, dealCreatedAt := .empty, dealLinks := .empty, events := .empty
    records := .empty, revocations := .empty, approvals := .empty, nonceOwners := .empty
    seenRequests := ∅, decisions := .empty, seenCommands := ∅ }

/-- The chain of a deal; empty for an unknown one. -/
def eventsFor (s : Store) (dealId : String) : List Event := (s.events.get? dealId).getD []

def listRevocations (s : Store) (recordId : String) : List Revocation :=
  s.revocations.values.filter fun r => r.recordId = recordId

def approvalsFor (s : Store) (dealId : String) : List Approval :=
  s.approvals.values.filter fun a => a.dealId = dealId

/-! ## Set-up -/

def createDeal (s : Store) (deal : Deal) (createdAt : String) : Except PyError Unit × Store :=
  if (s.deals.get? deal.dealId).isSome then
    (.error (.valueError s!"deal {deal.dealId} already exists"), s)
  else (.ok (), { s with
    deals := s.deals.set deal.dealId deal
    dealCreatedAt := s.dealCreatedAt.set deal.dealId createdAt
    events := s.events.set deal.dealId [] })

def linkDealRecord (s : Store) (dealId recordId : String) : Except PyError Unit × Store :=
  match s.dealLinks.get? dealId with
  | some existing =>
    if existing ≠ recordId then
      (.error (.valueError s!"deal {dealId} is already linked to record {existing}"), s)
    else (.ok (), { s with dealLinks := s.dealLinks.set dealId recordId })
  | none => (.ok (), { s with dealLinks := s.dealLinks.set dealId recordId })

/-- A link that is set is the one that was asked for. -/
theorem linkDealRecord_ok (s : Store) {dealId recordId : String}
    (h : (s.linkDealRecord dealId recordId).1 = .ok ()) :
    (s.linkDealRecord dealId recordId).2.dealLinks.get? dealId = some recordId := by
  unfold linkDealRecord at h ⊢
  split at h
  · split_ifs at h with hne
    rw [if_neg hne]
    exact Dict.get?_set_self ..
  · exact Dict.get?_set_self ..

theorem linkDealRecord_store (s : Store) (dealId recordId : String) :
    ∃ links, (s.linkDealRecord dealId recordId).2 = { s with dealLinks := links } := by
  unfold linkDealRecord
  split
  · split_ifs
    · exact ⟨_, rfl⟩
    · exact ⟨_, rfl⟩
  · exact ⟨_, rfl⟩

def putRecord (s : Store) (record : AuthorityRecord) : Store :=
  { s with records := s.records.set record.recordId record }

def putRevocation (s : Store) (revocation : Revocation) : Store :=
  { s with revocations := s.revocations.set revocation.revocationId revocation }

/-! ## Commits -/

variable [Platform]

/-- A result that commits nothing. -/
def refuse (s : Store) (outcome : CommitOutcome) (detail : String) (newDeal : Option Deal) :
    Except PyError CommitResult × Store := (.ok ⟨outcome, detail, [], newDeal⟩, s)

/-- Append a plan's events to its deal's chain. -/
def append (s : Store) (dealId : String) (chain : List Event) (plan : CommitPlan) : Store :=
  { s with events := s.events.set dealId (chain ++ plan.events) }

/-- Append a plan's events and replace the deal. -/
def apply (s : Store) (dealId : String) (chain : List Event) (plan : CommitPlan) : Store :=
  { s.append dealId chain plan with deals := s.deals.set dealId plan.newDeal }

/-- The result of a committed plan. -/
def committed (plan : CommitPlan) : CommitResult :=
  ⟨.committed, s!"{plan.events.length} event(s) appended", plan.events, some plan.newDeal⟩

/-- The store after a committed request. -/
def afterRequest (s : Store) (req : CommitRequest) (chain : List Event) (plan : CommitPlan) :
    Store :=
  { s.apply req.dealId chain plan with
    approvals := match plan.approval with
      | some approval => s.approvals.set approval.approvalId approval
      | none => s.approvals
    records := s.records.set req.record.recordId req.record
    nonceOwners := s.nonceOwners.set req.record.nonce req.record.recordId
    seenRequests := insert req.requestId s.seenRequests
    decisions := s.decisions.set req.idempotencyKey (req.proposalDigest, req.decision) }

def commitRequest (s : Store) (req : CommitRequest) (signer : GatewaySigner) (ids : EventIds) :
    Except PyError CommitResult × Store :=
  match s.deals.get? req.dealId with
  | none => s.refuse .dealNotFound "deal row not found" none
  | some deal =>
    match planTransition deal req.action req.decision.outcome with
    | .error abort => s.refuse .staleState abort none
    | .ok event =>
      match s.events.get? req.dealId with
      | none => (.error .keyError, s)
      | some chain =>
        match planCommitRequest signer deal chain.length (lastHash chain genesisHash) req event
            ids with
        | .error e => (.error e, s)
        | .ok plan => (.ok (committed plan), s.afterRequest req chain plan)

/-- The store after a committed transition. -/
def afterTransition (s : Store) (req : TransitionRequest) (chain : List Event)
    (plan : CommitPlan) : Store :=
  { s.apply req.dealId chain plan with seenCommands := insert req.commandId s.seenCommands }

def commitTransition (s : Store) (req : TransitionRequest) (signer : GatewaySigner)
    (ids : EventIds) : Except PyError CommitResult × Store :=
  match s.deals.get? req.dealId with
  | none => s.refuse .dealNotFound "deal row not found" none
  | some deal =>
    if req.commandId ∈ s.seenCommands then
      s.refuse .alreadyApplied s!"command {req.commandId} already applied" deal
    else match transitionFor deal.state req.event with
      | none => s.refuse .staleState (s!"stale_state: event {pyRepr req.event.value} is not " ++
          s!"valid from stored state {deal.state.value}") none
      | some target =>
        match s.events.get? req.dealId with
        | none => (.error .keyError, s)
        | some chain =>
          match planCommitTransition signer deal chain.length (lastHash chain genesisHash) req
              target ids with
          | .error e => (.error e, s)
          | .ok plan => (.ok (committed plan), s.afterTransition req chain plan)

/-- The store after a decided approval. -/
def afterApproval (s : Store) (req : ApprovalRequest) (chain : List Event) (plan : CommitPlan)
    (approval : Approval) : Store :=
  { s.apply req.dealId chain plan with
    approvals := s.approvals.set req.approvalId approval
    seenCommands := insert req.commandId s.seenCommands }

/-- The parent record of an approval, and whether a stored revocation applies
    to it at the time of the decision. -/
def grantRecheckInputs (s : Store) (approval : Approval) (occurredAt : String) :
    Except PyError (Option AuthorityRecord × Bool) :=
  match s.records.get? approval.authorityRecordId with
  | none => .ok (none, false)
  | some record => do
    let revoked ← anyM (fun r => revocationApplies r record occurredAt)
      (s.listRevocations record.recordId)
    return (some record, revoked)

/-- What a grant is planned with; a deny needs nothing. -/
def approvalInputs (s : Store) (req : ApprovalRequest) (approval : Approval) :
    Except PyError (Option (Option ActionToken × Option AuthorityRecord × Bool)) :=
  match req.operation with
  | .denied => .ok (some (none, none, false))
  | .granted =>
    match (StrEnum.ofValue? req.action : Option ActionToken) with
    | none => .ok none
    | some token => do
      let (record, revoked) ← s.grantRecheckInputs approval req.occurredAt
      return some (some token, record, revoked)

/-- Decide one pending approval. -/
def commitApproval (s : Store) (req : ApprovalRequest) (signer : GatewaySigner)
    (ids : EventIds) : Except PyError CommitResult × Store :=
  match s.deals.get? req.dealId with
  | none => s.refuse .dealNotFound "deal row not found" none
  | some deal =>
    match s.approvals.get? req.approvalId with
    | none => s.refuse .approvalNotFound "approval not found" none
    | some approval =>
      if approval.status ≠ .pending then
        s.refuse .alreadyApplied s!"approval {req.approvalId} already {approval.status.value}" deal
      else if req.commandId ∈ s.seenCommands then
        s.refuse .alreadyApplied s!"command {req.commandId} already applied" deal
      else match s.events.get? req.dealId with
        | none => (.error .keyError, s)
        | some chain =>
          match s.approvalInputs req approval with
          | .error e => (.error e, s)
          | .ok none => s.refuse .staleState s!"stale_state: unknown action {pyRepr req.action}" none
          | .ok (some (token, record, revoked)) =>
            match planCommitApproval signer deal approval chain.length (lastHash chain genesisHash)
                req record revoked token ids with
            | .error e => (.error e, s)
            | .ok plan =>
              match plan.approval with
              | none => (.error .assertionError, s)
              | some approval => (.ok (committed plan), s.afterApproval req chain plan approval)

/-- The store after a committed revocation. -/
def afterRevocation (s : Store) (req : RevocationRequest) (chain : List Event)
    (plan : CommitPlan) : Store :=
  { s.append req.dealId chain plan with
    revocations := s.revocations.set req.revocation.revocationId req.revocation
    seenCommands := insert req.commandId s.seenCommands }

/-- Record one revocation as a chain event. -/
def commitRevocation (s : Store) (req : RevocationRequest) (signer : GatewaySigner)
    (ids : EventIds) : Except PyError CommitResult × Store :=
  match s.deals.get? req.dealId with
  | none => s.refuse .dealNotFound "deal row not found" none
  | some deal =>
    if req.commandId ∈ s.seenCommands then
      s.refuse .alreadyApplied s!"command {req.commandId} already applied" deal
    else match s.records.get? req.revocation.recordId with
      | none => s.refuse .recordNotFound
          s!"authority record {req.revocation.recordId} not found" deal
      | some record =>
        if s.listRevocations record.recordId ≠ [] then
          s.refuse .alreadyApplied s!"record {record.recordId} already revoked" deal
        else match s.events.get? req.dealId with
          | none => (.error .keyError, s)
          | some chain =>
            match planCommitRevocation signer deal chain.length (lastHash chain genesisHash) req
                ids with
            | .error e => (.error e, s)
            | .ok plan =>
              (.ok ⟨.committed, "1 event appended", plan.events, some deal⟩,
                s.afterRevocation req chain plan)

/-! ## What a commit does -/

/-- A request commit changes nothing, or commits a plan. -/
inductive RequestStep (s : Store) (req : CommitRequest) (signer : GatewaySigner) :
    Except PyError CommitResult × Store → Prop
  | refused (r : Except PyError CommitResult) (hr : ∀ c, r = .ok c → c.outcome ≠ .committed) :
      RequestStep s req signer (r, s)
  | committed (deal : Deal) (chain : List Event) (plan : CommitPlan)
      (hd : s.deals.get? req.dealId = some deal) (hc : s.events.get? req.dealId = some chain)
      (hp : RequestPlan signer deal chain.length (lastHash chain genesisHash) req plan)
      (ht : Stampable req.recordedAt) :
      RequestStep s req signer (.ok (committed plan), s.afterRequest req chain plan)

theorem commitRequest_cases (s : Store) (req : CommitRequest) (signer : GatewaySigner)
    (ids : EventIds) : s.RequestStep req signer (s.commitRequest req signer ids) := by
  unfold commitRequest
  cases hd : s.deals.get? req.dealId with
  | none => exact .refused _ (by rintro _ ⟨⟩; simp)
  | some deal =>
    simp only
    cases ht : planTransition deal req.action req.decision.outcome with
    | error abort => exact .refused _ (by rintro _ ⟨⟩; simp)
    | ok event =>
      simp only
      cases hc : s.events.get? req.dealId with
      | none => exact .refused _ (by rintro _ ⟨⟩)
      | some chain =>
        simp only
        cases hp : planCommitRequest signer deal chain.length (lastHash chain genesisHash) req
            event ids with
        | error e => exact .refused _ (by rintro _ ⟨⟩)
        | ok plan =>
          exact .committed deal chain plan hd hc (requestPlan_of_ok ht hp)
            (planCommitRequest_stampable hp)

/-- A request commit is never answered as already applied. -/
theorem commitRequest_not_alreadyApplied {s : Store} {req : CommitRequest} {signer : GatewaySigner}
    {ids : EventIds} {commit : CommitResult} (h : (s.commitRequest req signer ids).1 = .ok commit) :
    commit.outcome ≠ .alreadyApplied := by
  unfold commitRequest at h
  cases hd : s.deals.get? req.dealId with
  | none =>
    simp only [hd] at h
    cases h
    simp
  | some deal =>
    simp only [hd] at h
    split at h
    · cases h
      simp
    · split at h
      · cases h
      · split at h
        · cases h
        · cases h
          simp [committed]

/-- A request commit leaves the store as it is, or stores what it planned. -/
theorem commitRequest_planned (s : Store) (req : CommitRequest) (signer : GatewaySigner)
    (ids : EventIds) :
    (s.commitRequest req signer ids).2 = s ∨ ∃ deal event chain plan,
      s.deals.get? req.dealId = some deal ∧ s.events.get? req.dealId = some chain ∧
      planTransition deal req.action req.decision.outcome = .ok event ∧
      planCommitRequest signer deal chain.length (lastHash chain genesisHash) req event ids =
        .ok plan ∧
      (s.commitRequest req signer ids).2 = s.afterRequest req chain plan := by
  unfold commitRequest
  cases hd : s.deals.get? req.dealId with
  | none => exact .inl rfl
  | some deal =>
    simp only
    cases ht : planTransition deal req.action req.decision.outcome with
    | error abort => exact .inl rfl
    | ok event =>
      simp only
      cases hc : s.events.get? req.dealId with
      | none => exact .inl rfl
      | some chain =>
        simp only
        cases hp : planCommitRequest signer deal chain.length (lastHash chain genesisHash) req
            event ids with
        | error e => exact .inl rfl
        | ok plan => exact .inr ⟨deal, event, chain, plan, rfl, rfl, ht, hp, rfl⟩

/-- A committed request passed the recheck on the stored deal. -/
theorem commitRequest_rechecked {s : Store} {req : CommitRequest} {signer : GatewaySigner}
    {ids : EventIds} {commit : CommitResult} (h : (s.commitRequest req signer ids).1 = .ok commit)
    (hc : commit.outcome = .committed) :
    ∃ deal event, s.deals.get? req.dealId = some deal ∧
      planTransition deal req.action req.decision.outcome = .ok event := by
  unfold commitRequest at h
  cases hd : s.deals.get? req.dealId with
  | none =>
    simp only [hd, refuse] at h
    cases h; cases hc
  | some deal =>
    simp only [hd] at h
    cases ht : planTransition deal req.action req.decision.outcome with
    | error abort =>
      simp only [ht, refuse] at h
      cases h; cases hc
    | ok event => exact ⟨deal, event, rfl, ht⟩

/-- On a stored deal with its chain, a request commit is its plan. -/
theorem commitRequest_eq {s : Store} (req : CommitRequest) {deal : Deal} {chain : List Event}
    (hd : s.deals.get? req.dealId = some deal) (hc : s.events.get? req.dealId = some chain)
    (signer : GatewaySigner) (ids : EventIds) :
    s.commitRequest req signer ids =
      match planTransition deal req.action req.decision.outcome with
      | .error abort => s.refuse .staleState abort none
      | .ok event =>
        match planCommitRequest signer deal chain.length (lastHash chain genesisHash) req event
            ids with
        | .error e => (.error e, s)
        | .ok plan => (.ok (committed plan), s.afterRequest req chain plan) := by
  simp only [commitRequest, hd, hc]

/-- A boundary transition changes nothing, or applies the table's transition. -/
inductive TransitionStep (s : Store) (req : TransitionRequest) (signer : GatewaySigner) :
    Except PyError CommitResult × Store → Prop
  | refused (r : Except PyError CommitResult) (hr : ∀ c, r = .ok c → c.outcome ≠ .committed) :
      TransitionStep s req signer (r, s)
  | committed (deal : Deal) (chain : List Event) (target : DealState) (plan : CommitPlan)
      (hd : s.deals.get? req.dealId = some deal) (hc : s.events.get? req.dealId = some chain)
      (hn : req.commandId ∉ s.seenCommands) (ht : transitionFor deal.state req.event = some target)
      (hp : TransitionPlan signer deal chain.length (lastHash chain genesisHash) req target plan)
      (hs : Stampable req.recordedAt) :
      TransitionStep s req signer (.ok (committed plan), s.afterTransition req chain plan)

theorem commitTransition_cases (s : Store) (req : TransitionRequest) (signer : GatewaySigner)
    (ids : EventIds) : s.TransitionStep req signer (s.commitTransition req signer ids) := by
  unfold commitTransition
  cases hd : s.deals.get? req.dealId with
  | none => exact .refused _ (by rintro _ ⟨⟩; simp)
  | some deal =>
    simp only
    split_ifs with hn
    · exact .refused _ (by rintro _ ⟨⟩; simp)
    · cases ht : transitionFor deal.state req.event with
      | none => exact .refused _ (by rintro _ ⟨⟩; simp)
      | some target =>
        simp only
        cases hc : s.events.get? req.dealId with
        | none => exact .refused _ (by rintro _ ⟨⟩)
        | some chain =>
          simp only
          cases hp : planCommitTransition signer deal chain.length (lastHash chain genesisHash)
              req target ids with
          | error e => exact .refused _ (by rintro _ ⟨⟩)
          | ok plan =>
            exact .committed deal chain target plan hd hc hn ht (transitionPlan_of_ok hp)
              (planCommitTransition_stampable hp)

/-- On a stored deal with its chain, a fresh command's transition is its plan. -/
theorem commitTransition_eq {s : Store} (req : TransitionRequest) {deal : Deal}
    {chain : List Event} {target : DealState} (hd : s.deals.get? req.dealId = some deal)
    (hc : s.events.get? req.dealId = some chain) (hn : req.commandId ∉ s.seenCommands)
    (ht : transitionFor deal.state req.event = some target) (signer : GatewaySigner)
    (ids : EventIds) :
    s.commitTransition req signer ids =
      match planCommitTransition signer deal chain.length (lastHash chain genesisHash) req target
          ids with
      | .error e => (.error e, s)
      | .ok plan => (.ok (committed plan), s.afterTransition req chain plan) := by
  simp only [commitTransition, hd, hc, if_neg hn, ht]

/-- A decision on an approval changes nothing, or decides a pending row. -/
inductive ApprovalStep (s : Store) (req : ApprovalRequest) (signer : GatewaySigner) :
    Except PyError CommitResult × Store → Prop
  | refused (r : Except PyError CommitResult) (hr : ∀ c, r = .ok c → c.outcome ≠ .committed) :
      ApprovalStep s req signer (r, s)
  | committed (deal : Deal) (approval decided : Approval) (chain : List Event)
      (token : Option ActionToken) (record : Option AuthorityRecord) (revoked : Bool)
      (plan : CommitPlan)
      (hd : s.deals.get? req.dealId = some deal) (hc : s.events.get? req.dealId = some chain)
      (ha : s.approvals.get? req.approvalId = some approval) (hs : approval.status = .pending)
      (hn : req.commandId ∉ s.seenCommands)
      (hi : s.approvalInputs req approval = .ok (some (token, record, revoked)))
      (hp : ApprovalPlan signer deal approval chain.length (lastHash chain genesisHash) req record
        revoked token plan) (hu : plan.approval = some decided) (ht : Stampable req.recordedAt) :
      ApprovalStep s req signer (.ok (committed plan), s.afterApproval req chain plan decided)

theorem commitApproval_cases (s : Store) (req : ApprovalRequest) (signer : GatewaySigner)
    (ids : EventIds) : s.ApprovalStep req signer (s.commitApproval req signer ids) := by
  unfold commitApproval
  cases hd : s.deals.get? req.dealId with
  | none => exact .refused _ (by rintro _ ⟨⟩; simp)
  | some deal =>
    simp only
    cases ha : s.approvals.get? req.approvalId with
    | none => exact .refused _ (by rintro _ ⟨⟩; simp)
    | some approval =>
      simp only
      split_ifs with hs hn
      · exact .refused _ (by rintro _ ⟨⟩; simp)
      · exact .refused _ (by rintro _ ⟨⟩; simp)
      · cases hc : s.events.get? req.dealId with
        | none => exact .refused _ (by rintro _ ⟨⟩)
        | some chain =>
          simp only
          cases hi : s.approvalInputs req approval with
          | error e => exact .refused _ (by rintro _ ⟨⟩)
          | ok inputs =>
            cases inputs with
            | none => exact .refused _ (by rintro _ ⟨⟩; simp)
            | some inputs =>
              obtain ⟨token, record, revoked⟩ := inputs
              simp only
              cases hp : planCommitApproval signer deal approval chain.length
                  (lastHash chain genesisHash) req record revoked token ids with
              | error e => exact .refused _ (by rintro _ ⟨⟩)
              | ok plan =>
                simp only
                cases hu : plan.approval with
                | none => exact .refused _ (by rintro _ ⟨⟩)
                | some decided =>
                  exact .committed deal approval decided chain token record revoked plan hd hc ha
                    (not_not.1 hs) hn hi (approvalPlan_of_ok hp) hu
                    (planCommitApproval_stampable hp)

/-- A revocation commit changes nothing, or appends one revocation event. -/
inductive RevocationStep (s : Store) (req : RevocationRequest) (signer : GatewaySigner) :
    Except PyError CommitResult × Store → Prop
  | refused (r : Except PyError CommitResult) (hr : ∀ c, r = .ok c → c.outcome ≠ .committed) :
      RevocationStep s req signer (r, s)
  | committed (deal : Deal) (chain : List Event) (record : AuthorityRecord) (plan : CommitPlan)
      (hd : s.deals.get? req.dealId = some deal) (hc : s.events.get? req.dealId = some chain)
      (hn : req.commandId ∉ s.seenCommands)
      (hr : s.records.get? req.revocation.recordId = some record)
      (hl : s.listRevocations record.recordId = [])
      (hp : RevocationPlan signer deal chain.length (lastHash chain genesisHash) req plan)
      (ht : Stampable req.recordedAt) :
      RevocationStep s req signer (.ok ⟨.committed, "1 event appended", plan.events, some deal⟩,
        s.afterRevocation req chain plan)

theorem commitRevocation_cases (s : Store) (req : RevocationRequest) (signer : GatewaySigner)
    (ids : EventIds) : s.RevocationStep req signer (s.commitRevocation req signer ids) := by
  unfold commitRevocation
  cases hd : s.deals.get? req.dealId with
  | none => exact .refused _ (by rintro _ ⟨⟩; simp)
  | some deal =>
    simp only
    split_ifs with hn
    · exact .refused _ (by rintro _ ⟨⟩; simp)
    · cases hr : s.records.get? req.revocation.recordId with
      | none => exact .refused _ (by rintro _ ⟨⟩; simp)
      | some record =>
        simp only
        split_ifs with hl
        · exact .refused _ (by rintro _ ⟨⟩; simp)
        · cases hc : s.events.get? req.dealId with
          | none => exact .refused _ (by rintro _ ⟨⟩)
          | some chain =>
            simp only
            cases hp : planCommitRevocation signer deal chain.length (lastHash chain genesisHash)
                req ids with
            | error e => exact .refused _ (by rintro _ ⟨⟩)
            | ok plan =>
              exact .committed deal chain record plan hd hc hn hr (not_not.1 hl)
                (revocationPlan_of_ok hp) (planCommitRevocation_stampable hp)

end Store

end Mandate
