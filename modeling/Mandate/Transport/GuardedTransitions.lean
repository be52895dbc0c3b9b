/-
  Transitions that need authority, across the wire.

  Five events of the table need an allowed request or a granted approval.  A
  request or a grant brings its own (`Vouched`), but a counterparty's event
  goes to the ledger as it comes.  In runs without a message that applies one
  of them, or takes a failed payment up again (`Bypass`), every one of these
  transitions is vouched for and no peer moves a deal into a state that binds
  (`guarded_transitions_vouched`); each such message breaks one of the two
  (`bypass_breaks`).
-/
import Mandate.Application.NoAutonomousCommit
import Mandate.Transport.Pipeline

namespace Mandate

/-! ## Vouched chains -/

/-- The events of the agent's binding and payment actions. -/
def guardedEvents : List DealEvent :=
  [.agreementReached, .changeApproved, .accepted, .paymentInitiated, .paymentConfirmed]

/-- The states in which the agent is bound, or money is due or taken. -/
def bindingStates : List DealState := [.agreed, .accepted, .paymentPending, .captured]

/-- The events that a counterparty alone may not apply: the guarded ones, and
    the one that takes a failed payment up again. -/
def barredEvents : List DealEvent := .resumed :: guardedEvents

/-- Only a barred event leads into a binding state. -/
theorem barred_of_binding {s t : DealState} {event : DealEvent}
    (h : transitionFor s event = some t) (ht : t ∈ bindingStates) : event ∈ barredEvents := by
  have hall : ∀ row ∈ transitions, row.2 ∈ bindingStates → row.1.2 ∈ barredEvents := by decide
  exact hall _ (transitionFor_eq_some.1 h) ht

/-- A failed payment that is taken up again is pending. -/
theorem target_of_resumed {s t : DealState} (h : transitionFor s .resumed = some t) :
    s = .failed ∧ t = .paymentPending := by
  have hall : ∀ row ∈ transitions, row.1.2 = .resumed → row.1.1 = .failed ∧
      row.2 = .paymentPending := by decide
  exact hall _ (transitionFor_eq_some.1 h) rfl

/-- The event a transition applied. -/
def Event.transitionEvent? (e : Event) : Option DealEvent :=
  if e.eventType = .stateTransition then (e.str? "event").bind StrEnum.ofValue? else none

/-- Some event allows the request, or grants it. -/
def Vouched (chain : List Event) (requestId : String) : Prop :=
  ∃ p ∈ chain, p.Decides requestId .allow ∨ p.Rules requestId .granted

/-- The entry, if it applies a guarded event, was caused by a request that the
    events before it vouch for. -/
def VouchedEntry (before : List Event) (e : Event) : Prop :=
  ∀ event ∈ e.transitionEvent?, event ∈ guardedEvents →
    ∃ requestId, e.transitionRequest? = some requestId ∧ Vouched before requestId

/-- Every guarded transition on the chain is vouched for. -/
abbrev VouchedChain : List Event → Prop := Preceded VouchedEntry

theorem transitionEvent?_of_ne {e : Event} (h : e.eventType ≠ .stateTransition) :
    e.transitionEvent? = none := if_neg h

theorem transitionEvent?_of_view {e : Event} {t : TransitionEntry} (h : e.transition? = some t) :
    e.transitionEvent? = some t.event := by
  have ht := eventType_of_transition? h
  simp only [Event.transition?, ht, if_true, Option.bind_eq_bind, Option.bind_eq_some_iff,
    Option.pure_def, Option.some.injEq] at h
  obtain ⟨text, hs, event, hv, _, -, _, -, _, -, _, -, rfl⟩ := h
  simp [Event.transitionEvent?, ht, hs, hv]

theorem VouchedEntry.of_ne {e : Event} (h : e.eventType ≠ .stateTransition) (before : List Event) :
    VouchedEntry before e := by
  intro event he
  rw [transitionEvent?_of_ne h] at he
  cases he

section
variable [Platform] {signer : GatewaySigner} {deal : Deal} {seq : ℕ} {prevHash : String}
  {plan : CommitPlan} {chain : List Event}

theorem vouched_recorded (hv : VouchedChain chain) (req : CommitRequest) (mid did : String) :
    VouchedChain (chain ++ req.recorded signer mid did seq prevHash) := by
  refine hv.append fun e he => VouchedEntry.of_ne ?_
  rcases List.mem_append.1 he with he | he
  · simp [mem_messages he]
  · rw [List.mem_singleton] at he; subst he; simp

theorem RequestPlan.vouched {req : CommitRequest} (hv : VouchedChain chain)
    (h : RequestPlan signer deal seq prevHash req plan) : VouchedChain (chain ++ plan.events) := by
  cases h with
  | decided mid did ho => exact vouched_recorded hv req mid did
  | applied mid did id token event target ho _ he ht =>
    rw [extend, ← List.append_assoc]
    refine (vouched_recorded hv req mid did).snoc fun _ _ _ => ?_
    obtain ⟨before, d, hd, hdec⟩ := recorded_eq signer seq prevHash req mid did
    refine ⟨req.requestId, transitionRequest?_of_view (req.transitionEvent_transition? ..), d, ?_,
      .inl (ho ▸ hdec)⟩
    simp [hd]
  | held mid did id aid approval ho ha =>
    rw [extend, ← List.append_assoc]
    refine (vouched_recorded hv req mid did).snoc ?_
    exact VouchedEntry.of_ne (by simp) _

theorem ApprovalPlan.vouched {approval : Approval} {req : ApprovalRequest}
    {record : Option AuthorityRecord} {revoked : Bool} {token : Option ActionToken}
    (hv : VouchedChain chain)
    (h : ApprovalPlan signer deal approval seq prevHash req record revoked token plan) :
    VouchedChain (chain ++ plan.events) := by
  cases h with
  | granted aid id approvalRecord action event target ho har hk hg he ht =>
    rw [extend, ← List.append_assoc]
    refine (hv.snoc (VouchedEntry.of_ne (by simp) _)).snoc fun _ _ _ => ?_
    refine ⟨approval.requestId, transitionRequest?_of_view (req.transitionEvent_transition? ..), _,
      List.mem_append_right _ (List.mem_singleton_self _), .inr ?_⟩
    exact ⟨_, req.grantedEvent_approval? .., rfl, rfl⟩
  | denied id denyReason _ => exact hv.snoc (VouchedEntry.of_ne (by simp) _)

theorem TransitionRequest.transitionEvent_transitionEvent? (req : TransitionRequest) (id : String)
    (n : ℕ) (prev : String) (newDeal : Deal) :
    (req.transitionEvent signer id n prev deal newDeal).transitionEvent? = some req.event :=
  transitionEvent?_of_view (req.transitionEvent_transition? ..)

/-- A boundary transition keeps the chain vouched only off the guarded events. -/
theorem TransitionPlan.vouched_iff {req : TransitionRequest} {target : DealState}
    (hv : VouchedChain chain) (h : TransitionPlan signer deal seq prevHash req target plan) :
    VouchedChain (chain ++ plan.events) ↔ req.event ∉ guardedEvents := by
  cases h with
  | applied mid id =>
    have hmessages : VouchedChain (chain ++ req.messages signer mid seq prevHash) :=
      hv.append fun e he => VouchedEntry.of_ne (by simp [mem_transitionMessages he])
    rw [extend, ← List.append_assoc]
    constructor
    · intro hall hg
      obtain ⟨r, hr, -⟩ := hall _ _ [] rfl _ (req.transitionEvent_transitionEvent? ..) hg
      rw [transitionRequest?_of_view (req.transitionEvent_transition? ..)] at hr
      cases hr
    · intro hn
      refine hmessages.snoc fun event he hg => ?_
      rw [req.transitionEvent_transitionEvent?, Option.mem_some_iff] at he
      exact absurd (he ▸ hg) hn

end

/-! ## Runs of the gateway -/

section
variable [Platform]

/-- A message that applies a barred event to a stored deal: an admitted
    counterparty event, from the deal's counterparty, that the stored state
    permits, under a fresh message id. -/
structure UnguardedMove (g : Gateway) (env : WireEnvelope) (b : Boundary)
    (payload : CounterpartyEventPayload) (event : DealEvent) (deal : Deal) : Prop where
  admitted : screenMessage g env b = .ok (.counterpartyEvent payload)
  named : StrEnum.ofValue? payload.event = some event
  barred : event ∈ barredEvents
  stored : g.store.deals.get? payload.dealId = some deal
  chain : (g.store.events.get? payload.dealId).isSome
  audience : ((g.recordFor payload.dealId).bind AuthorityRecord.counterpartyId).filter
    (· ≠ env.senderId) = none
  transition : (transitionFor deal.state event).isSome
  command : env.messageId ∉ g.store.seenCommands
  time : Stampable b.now

/-- The message moves a deal past the policy engine. -/
def Bypass (g : Gateway) (env : WireEnvelope) (b : Boundary) : Prop :=
  ∃ payload event deal, UnguardedMove g env b payload event deal

/-- A counterparty's event moves a deal into a binding state. -/
def Binds (g : Gateway) (env : WireEnvelope) (b : Boundary) : Prop :=
  env.kind = .counterpartyEvent ∧ ∃ dealId deal,
    (processMessage g env b).2.store.deals.get? dealId = some deal ∧ deal.state ∈ bindingStates ∧
      (g.store.deals.get? dealId).map Deal.state ≠ some deal.state

/-- One step of a gateway: a registered deal, a message that `may` arrive, a
    processed request, or a decision on an approval. -/
inductive GatewayStep (may : Gateway → WireEnvelope → Boundary → Prop) (g : Gateway) :
    Gateway → Prop
  | register (dealId : String) (record : AuthorityRecord) (createdAt : String) :
      GatewayStep may g (registerDeal g dealId record createdAt).2
  | message (env : WireEnvelope) (b : Boundary) (hm : may g env b) :
      GatewayStep may g (processMessage g env b).2
  | request (pi : PolicyInput) (recordedAt : String) (ids : EventIds) :
      GatewayStep may g
        { g with store := (processRequest g.store pi g.signer recordedAt ids).2 }
  | approval (req : ApprovalRequest) (ids : EventIds) :
      GatewayStep may g { g with store := (g.store.commitApproval req g.signer ids).2 }

/-- A gateway from its empty store on. -/
def gateway (may : Gateway → WireEnvelope → Boundary → Prop) : System Gateway where
  init g := g.store = .empty ∧ g.dedup = .empty ∧ g.dealRecords = .empty
  step := GatewayStep may

/-- All chains of the store are vouched. -/
def Store.AllVouched (s : Store) : Prop := ∀ chain ∈ s.events.values, VouchedChain chain

namespace Store

variable {s : Store} {signer : GatewaySigner} {ids : EventIds}

omit [Platform] in
theorem AllVouched.set (h : s.AllVouched) {s' : Store} {id : String} {c : List Event}
    (he : s'.events = s.events.set id c) (hc : VouchedChain c) : s'.AllVouched := by
  intro chain hm
  rw [he] at hm
  rcases Dict.mem_values_set hm with rfl | hm
  · exact hc
  · exact h chain hm

omit [Platform] in
theorem AllVouched.get (h : s.AllVouched) {id : String} {chain : List Event}
    (hc : s.events.get? id = some chain) : VouchedChain chain :=
  h chain (Dict.mem_values.2 ⟨id, hc⟩)

theorem AllVouched.commitRequest (h : s.AllVouched) (req : CommitRequest) :
    (s.commitRequest req signer ids).2.AllVouched := by
  have hcases := s.commitRequest_cases req signer ids
  generalize s.commitRequest req signer ids = r at hcases ⊢
  cases hcases with
  | refused r hr => exact h
  | committed deal chain plan hd hc hp _ => exact h.set rfl (hp.vouched (h.get hc))

theorem AllVouched.processRequest (h : s.AllVouched) (pi : PolicyInput) (recordedAt : String) :
    (processRequest s pi signer recordedAt ids).2.AllVouched := by
  rcases processRequest_cases s pi signer recordedAt ids with hs | ⟨-, hs⟩
  · rw [hs]; exact h
  · rw [hs]; exact h.commitRequest _

theorem AllVouched.commitApproval (h : s.AllVouched) (req : ApprovalRequest) :
    (s.commitApproval req signer ids).2.AllVouched := by
  have hcases := s.commitApproval_cases req signer ids
  generalize s.commitApproval req signer ids = r at hcases ⊢
  cases hcases with
  | refused r hr => exact h
  | committed deal approval decided chain token record revoked plan hd hc ha hs hn hi hp hu _ =>
    exact h.set rfl (hp.vouched (h.get hc))

/-- A guarded transition that the boundary applies is not vouched for. -/
theorem AllVouched.commitTransition_guarded (h : s.AllVouched) {req : TransitionRequest}
    {deal : Deal} {chain : List Event} {target : DealState}
    (hd : s.deals.get? req.dealId = some deal) (hc : s.events.get? req.dealId = some chain)
    (hn : req.commandId ∉ s.seenCommands) (ht : transitionFor deal.state req.event = some target)
    (hs : Stampable req.recordedAt) (hg : req.event ∈ guardedEvents) :
    ¬ (s.commitTransition req signer ids).2.AllVouched := by
  intro hall
  obtain ⟨plan, hp⟩ : ∃ plan, planCommitTransition signer deal chain.length
      (lastHash chain genesisHash) req target ids = .ok plan :=
    ⟨_, planCommitTransition_applies req hs⟩
  rw [commitTransition_eq req hd hc hn ht, hp] at hall
  have hchain : (s.afterTransition req chain plan).events.get? req.dealId =
      some (chain ++ plan.events) := Dict.get?_set_self ..
  exact ((transitionPlan_of_ok hp).vouched_iff (h.get hc)).1 (hall.get hchain) hg

omit [Platform] in
theorem AllVouched.createDeal (h : s.AllVouched) (deal : Deal) (createdAt : String) :
    (s.createDeal deal createdAt).2.AllVouched := by
  unfold Store.createDeal
  split_ifs
  · exact h
  · exact h.set rfl .nil

end Store

/-- What a message does to the store: nothing, a processed request, or a
    counterparty's transition. -/
inductive MessageEffect (g : Gateway) (env : WireEnvelope) (b : Boundary) : Store → Prop
  | nothing : MessageEffect g env b g.store
  | request (pi : PolicyInput) (recordedAt : String) (hk : env.kind = .proposal) :
      MessageEffect g env b (processRequest g.store pi g.signer recordedAt b.eventIds).2
  | transition (payload : CounterpartyEventPayload) (event : DealEvent)
      (ha : screenMessage g env b = .ok (.counterpartyEvent payload))
      (he : StrEnum.ofValue? payload.event = some event)
      (hc : ((g.recordFor payload.dealId).bind AuthorityRecord.counterpartyId).filter
        (· ≠ env.senderId) = none) :
      MessageEffect g env b (g.store.commitTransition (counterpartyRequest g env payload b event)
        g.signer b.eventIds).2

theorem handleProposal_effect (g : Gateway) {env : WireEnvelope} (payload : ProposalPayload)
    (b : Boundary) (hk : env.kind = .proposal) :
    MessageEffect g env b (handleProposal g env payload b).2 := by
  have hcases := handleProposal_cases g env payload b
  generalize handleProposal g env payload b = done at hcases ⊢
  cases hcases with
  | unknown => exact .nothing
  | audience => exact .nothing
  | raised => exact .nothing
  | processed record deal claim now hr hd ha hc hn r s hp =>
    have heffect : MessageEffect g env b
        (processRequest g.store (proposalInput g env payload b record claim deal now) g.signer
          b.now b.eventIds).2 := .request _ _ hk
    rwa [hp] at heffect

theorem handleCounterpartyEvent_effect (g : Gateway) (env : WireEnvelope)
    (payload : CounterpartyEventPayload) (b : Boundary)
    (ha : screenMessage g env b = .ok (.counterpartyEvent payload)) :
    MessageEffect g env b (handleCounterpartyEvent g env payload b).2 := by
  have hcases := handleCounterpartyEvent_cases g env payload b
  generalize handleCounterpartyEvent g env payload b = done at hcases ⊢
  cases hcases with
  | refused => exact .nothing
  | committed deal event hd haud he r s hc =>
    have hfilter : ((g.recordFor payload.dealId).bind AuthorityRecord.counterpartyId).filter
        (· ≠ env.senderId) = none := by
      refine filter_ne_eq_none.2 fun audience h => ?_
      obtain ⟨record, hr, hca⟩ := Option.bind_eq_some_iff.1 h
      exact haud record audience hr hca
    have heffect : MessageEffect g env b (g.store.commitTransition
        (counterpartyRequest g env payload b event) g.signer b.eventIds).2 :=
      .transition payload event ha he hfilter
    rwa [hc] at heffect

/-- A counterparty's event that passes the handler's checks is committed. -/
theorem handleCounterpartyEvent_store {g : Gateway} {env : WireEnvelope}
    {payload : CounterpartyEventPayload} {b : Boundary} {deal : Deal} {event : DealEvent}
    (hd : g.store.deals.get? payload.dealId = some deal)
    (hc : ((g.recordFor payload.dealId).bind AuthorityRecord.counterpartyId).filter
      (· ≠ env.senderId) = none)
    (he : StrEnum.ofValue? payload.event = some event) :
    (handleCounterpartyEvent g env payload b).2 =
      (g.store.commitTransition (counterpartyRequest g env payload b event) g.signer
        b.eventIds).2 := by
  simp only [handleCounterpartyEvent, hd, hc, he]
  generalize g.store.commitTransition (counterpartyRequest g env payload b event) g.signer
    b.eventIds = r
  obtain ⟨_ | _, s⟩ := r <;> rfl

/-- An admitted payload is the envelope's own. -/
theorem parsePayload_of_screened {g : Gateway} {env : WireEnvelope} {b : Boundary}
    {payload : MessagePayload} (h : screenMessage g env b = .ok payload) :
    parsePayload env = .ok payload := by
  have hcases := screenMessage_cases g env b
  rw [h] at hcases
  cases hcases with
  | admitted _ ha => exact ha.parsed

/-- A parsed counterparty event is read from the envelope's payload. -/
theorem read_of_parsePayload {env : WireEnvelope} {payload : CounterpartyEventPayload}
    (h : parsePayload env = .ok (.counterpartyEvent payload)) :
    env.kind = .counterpartyEvent ∧ CounterpartyEventPayload.read env.payload = some payload := by
  cases hk : env.kind with
  | proposal =>
    cases hr : ProposalPayload.read env.payload <;> simp [parsePayload, hk, hr] at h
  | counterpartyEvent =>
    cases hr : CounterpartyEventPayload.read env.payload with
    | none => simp [parsePayload, hk, hr] at h
    | some p => exact ⟨rfl, by simpa [parsePayload, hk, hr] using h⟩
  | receipt =>
    cases hr : ReceiptPayload.read env.payload <;> simp [parsePayload, hk, hr] at h

/-- Only a proposal is parsed as one. -/
theorem kind_of_proposal {env : WireEnvelope} {payload : ProposalPayload}
    (h : parsePayload env = .ok (.proposal payload)) : env.kind = .proposal := by
  cases hk : env.kind with
  | proposal => rfl
  | counterpartyEvent =>
    cases hr : CounterpartyEventPayload.read env.payload <;> simp [parsePayload, hk, hr] at h
  | receipt =>
    cases hr : ReceiptPayload.read env.payload <;> simp [parsePayload, hk, hr] at h

theorem processMessage_effect (g : Gateway) (env : WireEnvelope) (b : Boundary) :
    MessageEffect g env b (processMessage g env b).2.store := by
  unfold processMessage
  cases ha : screenMessage g env b with
  | error answer => exact .nothing
  | ok payload =>
    cases payload with
    | receipt payload => exact .nothing
    | proposal payload =>
      rw [keep_store]
      exact handleProposal_effect g payload b (kind_of_proposal (parsePayload_of_screened ha))
    | counterpartyEvent payload =>
      rw [keep_store]
      exact handleCounterpartyEvent_effect g env payload b ha

/-- A message that bypasses nothing keeps all chains vouched. -/
theorem processMessage_vouched {g : Gateway} {env : WireEnvelope} {b : Boundary}
    (h : g.store.AllVouched) (hb : ¬ Bypass g env b) :
    (processMessage g env b).2.store.AllVouched := by
  have heffect := processMessage_effect g env b
  generalize (processMessage g env b).2.store = s at heffect ⊢
  cases heffect with
  | nothing => exact h
  | request pi recordedAt hk => exact h.processRequest pi recordedAt
  | transition payload event ha he haud =>
    have hcases := g.store.commitTransition_cases (counterpartyRequest g env payload b event)
      g.signer b.eventIds
    generalize g.store.commitTransition (counterpartyRequest g env payload b event) g.signer
      b.eventIds = r at hcases ⊢
    cases hcases with
    | refused r hr => exact h
    | committed deal chain target plan hd hc hn ht hp hs =>
      refine h.set rfl ((hp.vouched_iff (h.get hc)).2 fun hguard => hb ?_)
      have hchain : g.store.events.get? payload.dealId = some chain := hc
      have htarget : transitionFor deal.state event = some target := ht
      exact ⟨payload, event, deal, ha, he, List.mem_cons_of_mem _ hguard, hd,
        by rw [hchain]; rfl, haud, by rw [htarget]; rfl, hn, hs⟩

/-- A message that bypasses nothing moves no deal into a binding state. -/
theorem processMessage_not_binds {g : Gateway} {env : WireEnvelope} {b : Boundary}
    (hb : ¬ Bypass g env b) : ¬ Binds g env b := by
  rintro ⟨hk, dealId, new, hnew, hbinding, hmoved⟩
  have heffect := processMessage_effect g env b
  generalize (processMessage g env b).2.store = s at heffect hnew
  cases heffect with
  | nothing => exact hmoved (by rw [hnew]; rfl)
  | request pi recordedAt hk' => rw [hk] at hk'; cases hk'
  | transition payload event ha he haud =>
    have hcases := g.store.commitTransition_cases (counterpartyRequest g env payload b event)
      g.signer b.eventIds
    generalize g.store.commitTransition (counterpartyRequest g env payload b event) g.signer
      b.eventIds = r at hcases hnew
    cases hcases with
    | refused r hr => exact hmoved (by rw [hnew]; rfl)
    | committed deal chain target plan hd hc hn ht hp hs =>
      have hchain : g.store.events.get? payload.dealId = some chain := hc
      have htarget : transitionFor deal.state event = some target := ht
      cases hp with
      | applied mid id =>
        -- the other deals are as they were, and this one is in the target state
        simp only [Store.afterTransition, Store.apply, Store.append, Dict.get?_set] at hnew
        split_ifs at hnew with hid
        · cases hnew
          refine hb ⟨payload, event, deal, ha, he, barred_of_binding htarget hbinding, hd,
            by rw [hchain]; rfl, haud, by rw [htarget]; rfl, hn, hs⟩
        · exact hmoved (by rw [hnew]; rfl)

omit [Platform] in
theorem registerDeal_vouched {g : Gateway} (h : g.store.AllVouched) (dealId : String)
    (record : AuthorityRecord) (createdAt : String) :
    (registerDeal g dealId record createdAt).2.store.AllVouched := by
  have hc := h.createDeal (.fresh dealId) createdAt
  unfold registerDeal
  split
  · rename_i e s hs
    rw [hs] at hc
    exact hc
  · rename_i s hs
    rw [hs] at hc
    obtain ⟨links, hl⟩ := (s.putRecord record).linkDealRecord_store dealId record.recordId
    have hevents : ∀ s', s' = { s.putRecord record with dealLinks := links } → s'.AllVouched := by
      rintro _ rfl
      exact hc
    split
    · rename_i e s' hs'
      rw [hs'] at hl
      exact hevents s' hl
    · rename_i s' hs'
      rw [hs'] at hl
      exact hevents s' hl

theorem vouched_invariant :
    (gateway fun g env b => ¬ Bypass g env b).Invariant fun g => g.store.AllVouched where
  init := by
    rintro g ⟨hs, -, -⟩
    rw [hs]
    rintro chain ⟨⟩
  step := by
    rintro g g' - h (⟨dealId, record, createdAt⟩ | ⟨env, b, hb⟩ | ⟨pi, recordedAt, ids⟩ |
      ⟨req, ids⟩)
    · exact registerDeal_vouched h dealId record createdAt
    · exact processMessage_vouched h hb
    · exact h.processRequest pi recordedAt
    · exact h.commitApproval req

/-- In every run without a bypass, a guarded transition was allowed or granted
    before, in the same chain, for the request that caused it, and no message of
    the run is a counterparty's event that moves a deal into a binding state. -/
theorem guarded_transitions_vouched {g : Gateway}
    (hr : (gateway fun g env b => ¬ Bypass g env b).Reachable g) :
    g.store.AllVouched ∧ ∀ env b, ¬ Bypass g env b → ¬ Binds g env b :=
  ⟨vouched_invariant.holds hr, fun _ _ => processMessage_not_binds⟩

/-- What a bypass does to the store. -/
theorem UnguardedMove.store {g : Gateway} {env : WireEnvelope} {b : Boundary}
    {payload : CounterpartyEventPayload} {event : DealEvent} {deal : Deal}
    (hm : UnguardedMove g env b payload event deal) :
    (processMessage g env b).2.store = (g.store.commitTransition
      (counterpartyRequest g env payload b event) g.signer b.eventIds).2 := by
  rw [processMessage, hm.admitted, keep_store]
  exact handleCounterpartyEvent_store hm.stored hm.audience hm.named

/-- A bypass leaves a guarded transition that nothing vouches for, or moves the
    deal into a binding state. -/
theorem bypass_breaks {g : Gateway} {env : WireEnvelope} {b : Boundary}
    (h : g.store.AllVouched) (hb : Bypass g env b) :
    ¬ (processMessage g env b).2.store.AllVouched ∨ Binds g env b := by
  obtain ⟨payload, event, deal, hm⟩ := hb
  obtain ⟨chain, hc⟩ := Option.isSome_iff_exists.1 hm.chain
  obtain ⟨target, ht⟩ := Option.isSome_iff_exists.1 hm.transition
  have hstore := hm.store
  have hid : (counterpartyRequest g env payload b event).dealId = payload.dealId := rfl
  have hcommand : (counterpartyRequest g env payload b event).commandId = env.messageId := rfl
  have hevent : (counterpartyRequest g env payload b event).event = event := rfl
  have htime : (counterpartyRequest g env payload b event).recordedAt = b.now := rfl
  generalize counterpartyRequest g env payload b event = req at hid hcommand hevent htime hstore
  subst hevent
  rcases List.mem_cons.1 hm.barred with hresumed | hguarded
  · -- the failed payment is pending again
    right
    obtain ⟨hfailed, rfl⟩ := target_of_resumed (hresumed ▸ ht)
    rw [Store.commitTransition_eq req (hid ▸ hm.stored) (hid ▸ hc) (hcommand ▸ hm.command) ht,
      planCommitTransition_applies req (htime ▸ hm.time)] at hstore
    have hdeal : (processMessage g env b).2.store.deals.get? payload.dealId =
        some (applyEvent deal req.event .paymentPending req.amountMinor) := by
      rw [hstore, ← hid]
      exact Dict.get?_set_self ..
    refine ⟨(read_of_parsePayload (parsePayload_of_screened hm.admitted)).1, payload.dealId, _,
      hdeal, ?_, ?_⟩
    · simp [applyEvent, bindingStates]
    · rw [hm.stored, Option.map_some, hfailed, applyEvent]
      simp
  · left
    rw [hstore]
    refine h.commitTransition_guarded (hid ▸ hm.stored) (hid ▸ hc) ?_ ht (htime ▸ hm.time) hguarded
    rw [hcommand]
    exact hm.command

/-- A message whose payload names no barred event bypasses nothing. -/
theorem not_bypass {g : Gateway} {env : WireEnvelope} {b : Boundary}
    (h : ∀ payload ∈ CounterpartyEventPayload.read env.payload,
      ∀ event ∈ barredEvents, payload.event ≠ StrEnum.value event) : ¬ Bypass g env b := by
  rintro ⟨payload, event, deal, hm⟩
  have hread := (read_of_parsePayload (parsePayload_of_screened hm.admitted)).2
  exact h payload hread event hm.barred (StrEnum.ofValue?_eq_some.1 hm.named).symm

omit [Platform] in
/-- A last event that applies a guarded event for no request is not vouched for. -/
theorem not_vouched_of_last {chain : List Event} {event : DealEvent}
    (he : chain.getLast?.bind Event.transitionEvent? = some event) (hg : event ∈ guardedEvents)
    (hr : chain.getLast?.bind Event.transitionRequest? = none) : ¬ VouchedChain chain := by
  intro hall
  obtain ⟨e, hlast, he⟩ := Option.bind_eq_some_iff.1 he
  rw [hlast, Option.bind_some] at hr
  obtain ⟨before, rfl⟩ := List.getLast?_eq_some_iff.1 hlast
  obtain ⟨r, hr', -⟩ := hall before e [] rfl event (by simpa using he) hg
  rw [hr] at hr'
  cases hr'

end

section
open Sample
attribute [local instance] Sample.platform

/-- The gateway after the peer's quote on the deal. -/
def Sample.answered : Gateway :=
  (processMessage (processMessage opened (message '1' .quoteRequested) boundary).2
    (message '2' .quoteReceived) boundary).2

theorem Sample.answered_reachable {may : Gateway → WireEnvelope → Boundary → Prop}
    (h₁ : may opened (message '1' .quoteRequested) boundary)
    (h₂ : may (processMessage opened (message '1' .quoteRequested) boundary).2
      (message '2' .quoteReceived) boundary) : (gateway may).Reachable answered :=
  .step (.step (.step (.init ⟨rfl, rfl, rfl⟩) (.register dealId record now.text))
    (.message _ boundary h₁)) (.message _ boundary h₂)

/-- The agent accepts the quote. -/
def Sample.acceptance : PolicyInput :=
  input { Deal.fresh dealId with state := .quoteReceived } .acceptAgreement (some 100) 'X'

theorem guarded_transitions_vouched_accepted :
    (processRequest answered.store acceptance answered.signer now.text ids).2.AllVouched ∧
      ¬ Binds { answered with
        store := (processRequest answered.store acceptance answered.signer now.text ids).2 }
        (message '3' .workStarted) boundary := by
  have hmessages : (gateway fun g env b => ¬ Bypass g env b).Reachable answered :=
    answered_reachable (not_bypass (by decide +kernel)) (not_bypass (by decide +kernel))
  obtain ⟨hvouched, hbinds⟩ :=
    guarded_transitions_vouched (hmessages.step (.request acceptance now.text ids))
  exact ⟨hvouched, hbinds _ _ (not_bypass (by decide +kernel))⟩

/-- Three messages of the peer agree the deal, and nobody vouches for it. -/
theorem agreed_by_message :
    let g := (processMessage answered (message '3' .agreementReached) boundary).2
    (gateway fun _ _ _ => True).Reachable g ∧
      (g.store.deals.get? dealId).map Deal.state = some .agreed ∧ ¬ g.store.AllVouched ∧
        Binds answered (message '3' .agreementReached) boundary := by
  have hlast : (((processMessage answered (message '3' .agreementReached) boundary).2.store.events
      |>.get? dealId).bind List.getLast?).map (fun e => (e.transitionEvent?, e.transitionRequest?))
      = some (some .agreementReached, none) := by decide +kernel
  have hagreed : ((processMessage answered (message '3' .agreementReached) boundary).2.store.deals
      |>.get? dealId).map Deal.state = some .agreed := by decide +kernel
  have hquoted : (answered.store.deals.get? dealId).map Deal.state = some .quoteReceived := by
    decide +kernel
  refine ⟨.step (answered_reachable trivial trivial) (.message _ boundary trivial), hagreed, ?_, ?_⟩
  · intro hall
    obtain ⟨e, he, hpair⟩ := Option.map_eq_some_iff.1 hlast
    obtain ⟨chain, hc, hchain⟩ := Option.bind_eq_some_iff.1 he
    obtain ⟨hevent, hrequest⟩ := Prod.mk.inj hpair
    exact not_vouched_of_last (by rw [hchain]; exact hevent) (by decide)
      (by rw [hchain]; exact hrequest) (hall.get hc)
  · obtain ⟨deal, hdeal, hstate⟩ := Option.map_eq_some_iff.1 hagreed
    refine ⟨rfl, dealId, deal, hdeal, ?_, ?_⟩
    · rw [hstate]
      decide
    · rw [hquoted, hstate]
      decide

end

end Mandate
