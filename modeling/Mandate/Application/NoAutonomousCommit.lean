/-
  No autonomous commit.

  A transition of a request stands right after the request's own allow, or
  right after a grant of an approval that was required earlier in the same
  chain; and a request moves a deal at most once.  `Store.Guarded` is kept by
  every step, the main result is `no_autonomous_commit`.
-/
import Mandate.Application.ExactlyOnce
import Mandate.Lib.Preceded

namespace Mandate

/-! ## What stands before a transition -/

/-- The request a transition event names. -/
def Event.transitionRequest? (e : Event) : Option String :=
  if e.eventType = .stateTransition then e.str? "request_id" else none

/-- The event is the decision `outcome` on the request. -/
def Event.Decides (e : Event) (requestId : String) (outcome : Outcome) : Prop :=
  ∃ d, e.decision? = some d ∧ d.requestId = requestId ∧ d.outcome = outcome

/-- The event is an approval event of the request. -/
def Event.Rules (e : Event) (requestId : String) (operation : ApprovalOperation) : Prop :=
  ∃ a, e.approval? = some a ∧ a.requestId = requestId ∧ a.operation = operation

/-- The request was held, and then its approval required. -/
def Held (chain : List Event) (requestId : String) : Prop :=
  ∃ before d between q after, chain = before ++ d :: between ++ q :: after ∧
    d.Decides requestId .needsApproval ∧ q.Rules requestId .required

/-- The last event allows the request, or grants what was held before it. -/
def Authorized (chain : List Event) (requestId : String) : Prop :=
  ∃ before p, chain = before ++ [p] ∧
    (p.Decides requestId .allow ∨ p.Rules requestId .granted ∧ Held before requestId)

/-- Every transition of a request is authorized by the events before it. -/
def Backed (chain : List Event) : Prop :=
  Preceded (fun before e => ∀ r, e.transitionRequest? = some r → Authorized before r) chain

/-- The requests whose transitions stand on a chain. -/
def requestsOf (chain : List Event) : List String := chain.filterMap Event.transitionRequest?

theorem Held.append {chain : List Event} {r : String} (h : Held chain r) (g : List Event) :
    Held (chain ++ g) r := by
  obtain ⟨before, d, between, q, after, rfl, hd, hq⟩ := h
  exact ⟨before, d, between, q, after ++ g, by simp, hd, hq⟩

theorem held_of_decided {before : List Event} {d q : Event} {r : String}
    (hd : d.Decides r .needsApproval) (hq : q.Rules r .required) :
    Held (before ++ [d] ++ [q]) r :=
  ⟨before, d, [], q, [], by simp, hd, hq⟩

/-- Events that name no request keep a chain backed. -/
theorem Backed.append_quiet {chain g : List Event} (h : Backed chain)
    (hg : ∀ e ∈ g, e.transitionRequest? = none) : Backed (chain ++ g) :=
  Preceded.append h fun e he before r hr => by
    rw [hg e he] at hr
    cases hr

theorem transitionRequest?_of_ne {e : Event} (h : e.eventType ≠ .stateTransition) :
    e.transitionRequest? = none := if_neg h

theorem quiet_of_ne {e : Event} (h : e.eventType ≠ .stateTransition) :
    ∀ e' ∈ [e], e'.transitionRequest? = none := by
  intro e' he
  rw [List.mem_singleton.1 he, transitionRequest?_of_ne h]

theorem transitionRequest?_of_view {e : Event} {t : TransitionEntry} (h : e.transition? = some t) :
    e.transitionRequest? = t.requestId := by
  have ht := eventType_of_transition? h
  simp only [Event.transition?, ht, if_true, Option.bind_eq_bind, Option.bind_eq_some_iff,
    Option.pure_def, Option.some.injEq] at h
  obtain ⟨_, -, _, -, _, -, _, -, _, -, _, -, rfl⟩ := h
  simp [Event.transitionRequest?, ht]

theorem requestsOf_append (c g : List Event) : requestsOf (c ++ g) = requestsOf c ++ requestsOf g :=
  List.filterMap_append

theorem requestsOf_eq_nil {g : List Event} (h : ∀ e ∈ g, e.transitionRequest? = none) :
    requestsOf g = [] := List.filterMap_eq_nil_iff.2 h

/-! ## What each plan appends -/

section
variable [Platform] {signer : GatewaySigner} {deal : Deal} {seq : ℕ} {prevHash : String}
  {plan : CommitPlan} {chain : List Event}

theorem quiet_recorded (req : CommitRequest) (mid did : String) :
    ∀ e ∈ req.recorded signer mid did seq prevHash, e.transitionRequest? = none := by
  intro e he
  refine transitionRequest?_of_ne ?_
  rcases List.mem_append.1 he with he | he
  · simp [mem_messages he]
  · rw [List.mem_singleton] at he; subst he; simp

/-- After an appended decision, the chain ends in it. -/
theorem recorded_eq (signer : GatewaySigner) (seq : ℕ) (prevHash : String) (req : CommitRequest)
    (mid did : String) :
    ∃ before d, req.recorded signer mid did seq prevHash = before ++ [d] ∧
      d.Decides req.requestId req.decision.outcome :=
  ⟨_, _, rfl, _, req.decisionEvent_decision? .., rfl, rfl⟩

theorem RequestPlan.backed {req : CommitRequest} (hb : Backed chain)
    (h : RequestPlan signer deal seq prevHash req plan) : Backed (chain ++ plan.events) := by
  cases h with
  | decided mid did ho => exact hb.append_quiet (quiet_recorded req mid did)
  | applied mid did id token event target ho hv he ht =>
    rw [extend, ← List.append_assoc]
    refine Preceded.snoc (hb.append_quiet (quiet_recorded req mid did)) fun r hr => ?_
    rw [transitionRequest?_of_view (req.transitionEvent_transition? ..)] at hr
    cases hr
    obtain ⟨before, d, hd, hdec⟩ := recorded_eq signer seq prevHash req mid did
    exact ⟨chain ++ before, d, by rw [hd, List.append_assoc], .inl (ho ▸ hdec)⟩
  | held mid did id aid approval ho ha =>
    rw [extend, ← List.append_assoc]
    exact (hb.append_quiet (quiet_recorded req mid did)).append_quiet
      (quiet_of_ne (by simp))

theorem RequestPlan.requestsOf {req : CommitRequest}
    (h : RequestPlan signer deal seq prevHash req plan) :
    requestsOf plan.events = [] ∨
      requestsOf plan.events = [req.requestId] ∧ req.decision.outcome = .allow ∧
        plan.approval = none := by
  cases h with
  | decided mid did ho => exact .inl (requestsOf_eq_nil (quiet_recorded req mid did))
  | applied mid did id token event target ho hv he ht =>
    refine .inr ⟨?_, ho, rfl⟩
    rw [extend, requestsOf_append, requestsOf_eq_nil (quiet_recorded req mid did)]
    simp [Mandate.requestsOf, transitionRequest?_of_view (req.transitionEvent_transition? ..)]
  | held mid did id aid approval ho ha =>
    left
    rw [extend, requestsOf_append, requestsOf_eq_nil (quiet_recorded req mid did),
      requestsOf_eq_nil (quiet_of_ne (by simp)), List.append_nil]

/-- A held request's plan leaves the chain held. -/
theorem RequestPlan.held_of_approval {req : CommitRequest} {approval : Approval}
    (h : RequestPlan signer deal seq prevHash req plan) (chain : List Event)
    (ha : plan.approval = some approval) :
    approval.dealId = req.dealId ∧ approval.requestId = req.requestId ∧
      Held (chain ++ plan.events) req.requestId := by
  cases h with
  | decided mid did ho => cases ha
  | applied mid did id token event target ho hv he ht => cases ha
  | held mid did id aid approval' ho hap =>
    cases ha
    have hof := pendingApproval_ok hap
    refine ⟨hof.dealId, hof.requestId, ?_⟩
    obtain ⟨before, d, hd, hdec⟩ := recorded_eq signer seq prevHash req mid did
    rw [extend, hd, ← List.append_assoc, ← List.append_assoc]
    exact held_of_decided (ho ▸ hdec) ⟨_, req.requiredEvent_approval? .., rfl, rfl⟩

theorem TransitionPlan.quiet {req : TransitionRequest} {target : DealState}
    (h : TransitionPlan signer deal seq prevHash req target plan) :
    ∀ e ∈ plan.events, e.transitionRequest? = none := by
  cases h with
  | applied mid id =>
    intro e he
    rcases List.mem_append.1 he with he | he
    · exact transitionRequest?_of_ne (by simp [mem_transitionMessages he])
    · rw [List.mem_singleton] at he
      subst he
      exact transitionRequest?_of_view (req.transitionEvent_transition? ..)

theorem RevocationPlan.quiet {req : RevocationRequest}
    (h : RevocationPlan signer deal seq prevHash req plan) :
    ∀ e ∈ plan.events, e.transitionRequest? = none := by
  cases h with
  | revoked id => exact quiet_of_ne (by simp)

section
variable {approval : Approval} {req : ApprovalRequest} {record : Option AuthorityRecord}
  {revoked : Bool} {token : Option ActionToken}

theorem ApprovalPlan.backed (hb : Backed chain) (hh : Held chain approval.requestId)
    (h : ApprovalPlan signer deal approval seq prevHash req record revoked token plan) :
    Backed (chain ++ plan.events) := by
  cases h with
  | granted aid id approvalRecord action event target ho har hk hg he ht =>
    rw [extend, ← List.append_assoc]
    refine Preceded.snoc (hb.append_quiet (quiet_of_ne (by simp))) fun r hr => ?_
    rw [transitionRequest?_of_view (req.transitionEvent_transition? ..)] at hr
    cases hr
    exact ⟨chain, _, rfl, .inr ⟨⟨_, req.grantedEvent_approval? .., rfl, rfl⟩, hh⟩⟩
  | denied id denyReason hv =>
    exact hb.append_quiet (quiet_of_ne (by simp))

theorem ApprovalPlan.requestsOf
    (h : ApprovalPlan signer deal approval seq prevHash req record revoked token plan) :
    requestsOf plan.events = [] ∨ requestsOf plan.events = [approval.requestId] := by
  cases h with
  | granted aid id approvalRecord action event target ho har hk hg he ht =>
    right
    rw [extend, requestsOf_append, requestsOf_eq_nil (quiet_of_ne (by simp))]
    simp [Mandate.requestsOf, transitionRequest?_of_view (req.transitionEvent_transition? ..)]
  | denied id denyReason hv =>
    exact .inl (requestsOf_eq_nil (quiet_of_ne (by simp)))

/-- The row of a decided approval is no longer pending. -/
theorem ApprovalPlan.decided {decided : Approval}
    (h : ApprovalPlan signer deal approval seq prevHash req record revoked token plan)
    (hu : plan.approval = some decided) :
    decided.dealId = approval.dealId ∧ decided.requestId = approval.requestId ∧
      decided.status ≠ .pending := by
  cases h with
  | granted => cases hu; exact ⟨rfl, rfl, by simp [ApprovalRequest.decide]⟩
  | denied => cases hu; exact ⟨rfl, rfl, by simp [ApprovalRequest.decide]⟩

end

end

/-! ## The guard -/

/-- The requests whose transitions stand on some chain. -/
def Store.transitionRequests (s : Store) : List String := s.events.values.flatMap requestsOf

namespace Store

/-- Chains are backed, approval rows were held, and a request that moved a deal
    did so once, was not denied and has no pending row left. -/
structure Guarded (s : Store) : Prop where
  backed : ∀ id chain, s.events.get? id = some chain → Backed chain
  held : ∀ k a, s.approvals.get? k = some a →
    ∃ chain, s.events.get? a.dealId = some chain ∧ Held chain a.requestId
  oneRow : ∀ k k' a a', s.approvals.get? k = some a → s.approvals.get? k' = some a' →
    a.requestId = a'.requestId → k = k'
  once : s.transitionRequests.Nodup
  decided : ∀ r ∈ s.transitionRequests,
    ∃ e ∈ s.decisionEntries, e.requestId = r ∧ e.outcome ≠ .deny
  settled : ∀ r ∈ s.transitionRequests, ∀ k a, s.approvals.get? k = some a → a.requestId = r →
    a.status ≠ .pending

theorem transitionRequests_append {s s' : Store} {id : String} {chain g : List Event}
    (hc : s.events.get? id = some chain) (he : s'.events = s.events.set id (chain ++ g)) :
    s'.transitionRequests.Perm (s.transitionRequests ++ requestsOf g) := by
  rw [transitionRequests, he]
  exact Dict.flatMap_values_set hc (requestsOf_append chain g)

theorem mem_decisionEntries {s : Store} {id : String} {chain : List Event} {e : Event}
    {d : DecisionEntry} (hc : s.events.get? id = some chain) (he : e ∈ chain)
    (hd : e.decision? = some d) : d ∈ s.decisionEntries :=
  List.mem_flatMap.2 ⟨chain, Dict.mem_values.2 ⟨id, hc⟩, List.mem_filterMap.2 ⟨e, he, hd⟩⟩

/-- A row's request was decided, and was to be approved. -/
theorem Guarded.decided_row {s : Store} (h : s.Guarded) {k : String} {a : Approval}
    (ha : s.approvals.get? k = some a) :
    ∃ e ∈ s.decisionEntries, e.requestId = a.requestId ∧ e.outcome = .needsApproval := by
  obtain ⟨chain, hc, before, d, between, q, after, rfl, ⟨e, he, hr, ho⟩, -⟩ := h.held k a ha
  exact ⟨e, mem_decisionEntries hc (by simp) he, hr, ho⟩

section
variable {s s' : Store} {id : String} {chain g : List Event}

theorem Guarded.backed_set (h : s.Guarded) (he : s'.events = s.events.set id (chain ++ g))
    (hb : Backed (chain ++ g)) (i : String) (c : List Event) (hi : s'.events.get? i = some c) :
    Backed c := by
  rw [he, Dict.get?_set] at hi
  split_ifs at hi
  · cases hi
    exact hb
  · exact h.backed i c hi

theorem Guarded.held_set (h : s.Guarded) (hc : s.events.get? id = some chain)
    (he : s'.events = s.events.set id (chain ++ g)) {k : String} {a : Approval}
    (ha : s.approvals.get? k = some a) :
    ∃ c, s'.events.get? a.dealId = some c ∧ Held c a.requestId := by
  obtain ⟨c, hc', hh⟩ := h.held k a ha
  rw [he, Dict.get?_set]
  split_ifs with hid
  · rw [hid, hc] at hc'
    cases hc'
    exact ⟨_, rfl, hh.append g⟩
  · exact ⟨c, hc', hh⟩

theorem Guarded.decided_set (h : s.Guarded) (hc : s.events.get? id = some chain)
    (he : s'.events = s.events.set id (chain ++ g)) {r : String} (hr : r ∈ s.transitionRequests) :
    ∃ e ∈ s'.decisionEntries, e.requestId = r ∧ e.outcome ≠ .deny := by
  obtain ⟨e, hm, hd⟩ := h.decided r hr
  exact ⟨e, (decisionEntries_append hc he).mem_iff.2 (List.mem_append_left _ hm), hd⟩

/-- A commit that leaves the approval rows and names no request keeps the
    guard. -/
theorem Guarded.quiet (h : s.Guarded) (hc : s.events.get? id = some chain)
    (he : s'.events = s.events.set id (chain ++ g))
    (hg : ∀ e ∈ g, e.transitionRequest? = none) (ha : s'.approvals = s.approvals) :
    s'.Guarded := by
  have hp := transitionRequests_append hc he
  rw [requestsOf_eq_nil hg, List.append_nil] at hp
  refine ⟨h.backed_set he ((h.backed id chain hc).append_quiet hg), fun k a hk => ?_,
    ha ▸ h.oneRow, hp.nodup_iff.2 h.once, fun r hr => ?_, fun r hr => ?_⟩
  · exact h.held_set hc he (ha ▸ hk)
  · exact h.decided_set hc he (hp.mem_iff.1 hr)
  · rw [ha]
    exact h.settled r (hp.mem_iff.1 hr)

end

variable [Platform] {s : Store} {signer : GatewaySigner} {ids : EventIds}

/-- The commit of a request with a fresh id keeps the guard. -/
theorem Guarded.afterRequest (h : s.Guarded) (ht : s.Tallied) {req : CommitRequest} {deal : Deal}
    {chain : List Event} {plan : CommitPlan} (hc : s.events.get? req.dealId = some chain)
    (hp : RequestPlan signer deal chain.length (lastHash chain genesisHash) req plan)
    (hreq : req.requestId ∉ s.seenRequests) : (s.afterRequest req chain plan).Guarded := by
  have he : (s.afterRequest req chain plan).events =
    s.events.set req.dealId (chain ++ plan.events) := rfl
  have hperm := transitionRequests_append hc he
  -- no transition and no row of the request is there yet
  have hnew : req.requestId ∉ s.transitionRequests := fun hm => by
    obtain ⟨e, hm, hr, -⟩ := h.decided _ hm
    exact hreq (hr ▸ ht.seen e hm)
  have hnorow : ∀ k a, s.approvals.get? k = some a → a.requestId ≠ req.requestId := by
    intro k a hk hr
    obtain ⟨e, hm, her, -⟩ := h.decided_row hk
    exact hreq (hr ▸ her ▸ ht.seen e hm)
  -- a row after the commit is an old one, or the held request's
  have hrow : ∀ k a, (s.afterRequest req chain plan).approvals.get? k = some a →
      s.approvals.get? k = some a ∨ plan.approval = some a ∧ k = a.approvalId := by
    intro k a hk
    simp only [Store.afterRequest] at hk
    cases hap : plan.approval with
    | none => simp only [hap] at hk; exact .inl hk
    | some approval =>
      simp only [hap, Dict.get?_set] at hk
      split_ifs at hk with hkk
      · cases hk
        exact .inr ⟨rfl, hkk⟩
      · exact .inl hk
  have hof := fun a (ha : plan.approval = some a) => hp.held_of_approval chain ha
  have hmem : ∀ r ∈ (s.afterRequest req chain plan).transitionRequests,
      r ∈ s.transitionRequests ∨ r = req.requestId ∧ req.decision.outcome = .allow ∧
        plan.approval = none := by
    intro r hr
    rcases List.mem_append.1 (hperm.mem_iff.1 hr) with hr | hr
    · exact .inl hr
    · rcases hp.requestsOf with hq | ⟨hq, ho, ha⟩
      · rw [hq] at hr; cases hr
      · rw [hq, List.mem_singleton] at hr
        exact .inr ⟨hr, ho, ha⟩
  refine ⟨h.backed_set he (hp.backed (h.backed _ _ hc)), ?_, ?_, ?_, ?_, ?_⟩
  · intro k a hk
    rcases hrow k a hk with hk | ⟨ha, -⟩
    · exact h.held_set hc he hk
    · obtain ⟨hd, hr, hh⟩ := hof a ha
      exact ⟨chain ++ plan.events, by rw [he, hd, Dict.get?_set_self], hr ▸ hh⟩
  · intro k k' a a' hk hk' hr
    rcases hrow k a hk with hk | ⟨ha, hka⟩ <;> rcases hrow k' a' hk' with hk' | ⟨ha', hka'⟩
    · exact h.oneRow k k' a a' hk hk' hr
    · exact absurd (hr.trans (hof a' ha').2.1) (hnorow k a hk)
    · exact absurd (hr.symm.trans (hof a ha).2.1) (hnorow k' a' hk')
    · obtain rfl : a = a' := Option.some.inj (ha.symm.trans ha')
      rw [hka, hka']
  · rw [hperm.nodup_iff]
    rcases hp.requestsOf with hq | ⟨hq, -, -⟩
    · rw [hq, List.append_nil]
      exact h.once
    · rw [hq]
      exact List.nodup_append.2 ⟨h.once, by simp, by
        intro r hr r' hr' heq
        rw [List.mem_singleton] at hr'
        exact hnew (hr' ▸ heq ▸ hr)⟩
  · intro r hr
    rcases hmem r hr with hr | ⟨rfl, ho, -⟩
    · exact h.decided_set hc he hr
    · refine ⟨req.decisionEntry, (decisionEntries_append hc he).mem_iff.2 ?_, rfl, ?_⟩
      · rw [hp.decisionsOf]
        exact List.mem_append_right _ (List.mem_singleton_self _)
      · simp [CommitRequest.decisionEntry, ho]
  · intro r hr k a hk har
    rcases hmem r hr with hr | ⟨rfl, -, hap⟩
    · rcases hrow k a hk with hk | ⟨ha, -⟩
      · exact h.settled r hr k a hk har
      · exact absurd ((hof a ha).2.1.symm.trans har ▸ hr) hnew
    · rcases hrow k a hk with hk | ⟨ha, -⟩
      · exact absurd har (hnorow k a hk)
      · rw [hap] at ha
        cases ha

theorem Guarded.processRequest (h : s.Guarded) (ht : s.Tallied) (pi : PolicyInput)
    (recordedAt : String) : (processRequest s pi signer recordedAt ids).2.Guarded := by
  rcases processRequest_cases s pi signer recordedAt ids with hs | ⟨hg, hs⟩
  · rw [hs]; exact h
  · rw [hs]
    obtain ⟨-, hreq, -⟩ := checkAntiReplay_pass.1 hg
    have hcases := s.commitRequest_cases (pi.commitRequest recordedAt) signer ids
    generalize s.commitRequest (pi.commitRequest recordedAt) signer ids = r at hcases ⊢
    cases hcases with
    | refused r hr => exact h
    | committed deal chain plan hd hc hp _ =>
      exact h.afterRequest ht hc hp (of_decide_eq_false hreq)

theorem Guarded.createDeal (h : s.Guarded) (ht : s.Tallied) (deal : Deal) (createdAt : String) :
    (s.createDeal deal createdAt).2.Guarded := by
  unfold Store.createDeal
  split_ifs with hs
  · exact h
  · have hn : s.events.get? deal.dealId = none := by
      by_contra he
      exact hs ((ht.rows _).1 (Option.isSome_iff_ne_none.2 he))
    have hv : (s.events.set deal.dealId []).values = s.events.values ++ [[]] :=
      Dict.values_set_new _ hn
    have hq : (s.events.set deal.dealId []).values.flatMap requestsOf = s.transitionRequests := by
      rw [hv, List.flatMap_append]
      simp [requestsOf, transitionRequests]
    have hd : (s.events.set deal.dealId []).values.flatMap decisionsOf = s.decisionEntries := by
      rw [hv, List.flatMap_append]
      simp [decisionsOf, decisionEntries]
    refine ⟨fun i c hi => ?_, fun k a hk => ?_, h.oneRow, ?_, ?_, ?_⟩
    · simp only [Dict.get?_set] at hi
      split_ifs at hi
      · cases hi
        exact .nil
      · exact h.backed i c hi
    · obtain ⟨c, hc, hh⟩ := h.held k a hk
      refine ⟨c, ?_, hh⟩
      rw [Dict.get?_set_ne _ _ fun hid => ?_, hc]
      rw [hid, hn] at hc
      cases hc
    · rw [transitionRequests, hq]
      exact h.once
    · rw [transitionRequests, decisionEntries, hq, hd]
      exact h.decided
    · rw [transitionRequests, hq]
      exact h.settled

theorem Guarded.commitTransition (h : s.Guarded) (req : TransitionRequest) :
    (s.commitTransition req signer ids).2.Guarded := by
  have hcases := s.commitTransition_cases req signer ids
  generalize s.commitTransition req signer ids = r at hcases ⊢
  cases hcases with
  | refused r hr => exact h
  | committed deal chain target plan hd hc hn ht hp _ => exact h.quiet hc rfl hp.quiet rfl

theorem Guarded.commitRevocation (h : s.Guarded) (req : RevocationRequest) :
    (s.commitRevocation req signer ids).2.Guarded := by
  have hcases := s.commitRevocation_cases req signer ids
  generalize s.commitRevocation req signer ids = r at hcases ⊢
  cases hcases with
  | refused r hr => exact h
  | committed deal chain record plan hd hc hn hr hl hp _ => exact h.quiet hc rfl hp.quiet rfl

/-- A decision on an approval of the same deal keeps the guard. -/
theorem Guarded.commitApproval (h : s.Guarded) (req : ApprovalRequest)
    (hf : LedgerOp.Filed s (.commitApproval req)) :
    (s.commitApproval req signer ids).2.Guarded := by
  have hcases := s.commitApproval_cases req signer ids
  generalize s.commitApproval req signer ids = r at hcases ⊢
  cases hcases with
  | refused r hr => exact h
  | committed deal approval decided chain token record revoked plan hd hc ha hs hn hi hp hu _ =>
    have he : (s.afterApproval req chain plan decided).events =
      s.events.set req.dealId (chain ++ plan.events) := rfl
    have hperm := transitionRequests_append hc he
    have hid : approval.dealId = req.dealId := (hf approval ha).symm
    obtain ⟨hdeal, hreq, hstatus⟩ := hp.decided hu
    have hheld : Held chain approval.requestId := by
      obtain ⟨c, hc', hh⟩ := h.held _ _ ha
      rw [hid, hc] at hc'
      cases hc'
      exact hh
    -- a pending row's request has not moved the deal
    have hnew : approval.requestId ∉ s.transitionRequests := fun hm =>
      h.settled _ hm _ _ ha rfl hs
    have hrow : ∀ k a, (s.afterApproval req chain plan decided).approvals.get? k = some a →
        k = req.approvalId ∧ a = decided ∨ k ≠ req.approvalId ∧ s.approvals.get? k = some a := by
      intro k a hk
      simp only [Store.afterApproval, Dict.get?_set] at hk
      split_ifs at hk with hkk
      · exact .inl ⟨hkk, (Option.some.inj hk).symm⟩
      · exact .inr ⟨hkk, hk⟩
    have hmem : ∀ r ∈ (s.afterApproval req chain plan decided).transitionRequests,
        r ∈ s.transitionRequests ∨ r = approval.requestId := by
      intro r hr
      rcases List.mem_append.1 (hperm.mem_iff.1 hr) with hr | hr
      · exact .inl hr
      · rcases hp.requestsOf with hq | hq
        · rw [hq] at hr; cases hr
        · rw [hq, List.mem_singleton] at hr
          exact .inr hr
    refine ⟨h.backed_set he (hp.backed (h.backed _ _ hc) hheld), ?_, ?_, ?_, ?_, ?_⟩
    · intro k a hk
      rcases hrow k a hk with ⟨rfl, rfl⟩ | ⟨-, hk⟩
      · rw [hdeal, hreq]
        exact h.held_set hc he ha
      · exact h.held_set hc he hk
    · intro k k' a a' hk hk' hr
      rcases hrow k a hk with ⟨rfl, rfl⟩ | ⟨-, hold⟩ <;>
        rcases hrow k' a' hk' with ⟨rfl, rfl⟩ | ⟨-, hold'⟩
      · rfl
      · exact h.oneRow _ _ _ _ ha hold' (hreq.symm.trans hr)
      · exact h.oneRow _ _ _ _ hold ha (hr.trans hreq)
      · exact h.oneRow k k' a a' hold hold' hr
    · rw [hperm.nodup_iff]
      rcases hp.requestsOf with hq | hq
      · rw [hq, List.append_nil]
        exact h.once
      · rw [hq]
        exact List.nodup_append.2 ⟨h.once, by simp, by
          intro r hr r' hr' heq
          rw [List.mem_singleton] at hr'
          exact hnew (hr' ▸ heq ▸ hr)⟩
    · intro r hr
      rcases hmem r hr with hr | rfl
      · exact h.decided_set hc he hr
      · obtain ⟨e, hm, her, ho⟩ := h.decided_row ha
        exact ⟨e, (decisionEntries_append hc he).mem_iff.2 (List.mem_append_left _ hm), her,
          by rw [ho]; decide⟩
    · intro r hr k a hk har
      rcases hrow k a hk with ⟨rfl, rfl⟩ | ⟨hne, hk⟩
      · exact hstatus
      · rcases hmem r hr with hr | rfl
        · exact h.settled r hr k a hk har
        · exact absurd (h.oneRow _ _ _ _ hk ha har) hne

end Store

section
variable [Platform]

/-- The service whose decisions on approvals name the approval's own deal. -/
abbrev filedService (signer : GatewaySigner) : System Store :=
  service signer fun s op => op.Filed s

theorem guarded_invariant (signer : GatewaySigner) :
    (filedService signer).Invariant Store.Guarded where
  init := by
    rintro s rfl
    exact ⟨by rintro i c ⟨⟩, by rintro k a ⟨⟩, by rintro k k' a a' ⟨⟩, .nil, by rintro r ⟨⟩,
      by rintro r ⟨⟩⟩
  step := by
    rintro s s' hr h hstep
    have ht := (tallied_invariant signer _).holds hr
    rcases hstep with ⟨pi, recordedAt, ids⟩ | ⟨op, ids, ho, hf⟩
    · exact h.processRequest ht pi recordedAt
    · cases op with
      | createDeal dealId createdAt => exact h.createDeal ht _ createdAt
      | linkDealRecord dealId recordId =>
        obtain ⟨links, hl⟩ := s.linkDealRecord_store dealId recordId
        rw [LedgerOp.run, hl]
        exact ⟨h.backed, h.held, h.oneRow, h.once, h.decided, h.settled⟩
      | putRecord record => exact ⟨h.backed, h.held, h.oneRow, h.once, h.decided, h.settled⟩
      | putRevocation revocation =>
        exact ⟨h.backed, h.held, h.oneRow, h.once, h.decided, h.settled⟩
      | commitRequest req => exact ho.elim
      | commitTransition req => exact h.commitTransition req
      | commitApproval req => exact h.commitApproval req hf
      | commitRevocation req => exact h.commitRevocation req

/-- No request moves a deal by itself: its transition follows its own allow,
    or the grant of what was held and required before; it moves a deal at most
    once, and never after a deny. -/
theorem no_autonomous_commit {signer : GatewaySigner} {s : Store}
    (hr : (filedService signer).Reachable s) :
    (∀ chain ∈ s.events.values, Backed chain) ∧ s.transitionRequests.Nodup ∧
      ∀ chain ∈ s.events.values, ∀ e ∈ chain, ∀ requestId, e.Decides requestId .deny →
        requestId ∉ s.transitionRequests := by
  have ht := (tallied_invariant signer _).holds hr
  have hg := (guarded_invariant signer).holds hr
  refine ⟨fun chain hc => ?_, hg.once, ?_⟩
  · obtain ⟨id, hc⟩ := Dict.mem_values.1 hc
    exact hg.backed id chain hc
  · rintro chain hc e he r ⟨d, hd, rfl, hdeny⟩ hm
    obtain ⟨id, hc⟩ := Dict.mem_values.1 hc
    obtain ⟨d', hd', hr', ho'⟩ := hg.decided _ hm
    have heq : d = d' := List.inj_on_of_nodup_map ht.requests
      (Store.mem_decisionEntries hc he hd) hd' hr'.symm
    exact ho' (heq ▸ hdeny)

end

section
open Sample
attribute [local instance] Sample.platform

theorem no_autonomous_commit_asked :
    let s := (processRequest registered asked signer now.text ids).2
    (∀ chain ∈ s.events.values, Backed chain) ∧ s.transitionRequests.Nodup ∧
      ∀ chain ∈ s.events.values, ∀ e ∈ chain, ∀ requestId, e.Decides requestId .deny →
        requestId ∉ s.transitionRequests :=
  no_autonomous_commit (.step (registered_reachable _ trivial) (.request asked now.text ids))

end

end Mandate
