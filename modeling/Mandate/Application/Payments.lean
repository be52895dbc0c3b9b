/-
  Payments and open questions.

  The engine blocks a payment action while a dispute or an approval is open.
  A grant and a boundary event are not held against the deal's open questions,
  so a run's payments are unquestioned exactly when those two paths meet none
  (`payments_unquestioned_iff`); `payment_with_approval_pending` is a run that
  pays while another approval waits.
-/
import Mandate.Application.Grants
import Mandate.Ledger.DealSteps
import Mandate.Ledger.Replay
import Mandate.Policy.Permitted

namespace Mandate

section
variable [Platform]

/-! ## Payments and questions -/

/-- What the payment actions cause. -/
def paymentEvents : List DealEvent := [.paymentInitiated, .paymentConfirmed]

/-- The event is a payment transition. -/
def Event.Pays (e : Event) : Prop := ∃ t ∈ e.transition?, t.event ∈ paymentEvents

/-- The deal has an open dispute, or a pending approval other than the one
    being decided. -/
def Store.Questioned (s : Store) (dealId : String) (decided : Option String) : Prop :=
  (∃ deal ∈ s.deals.get? dealId, 0 < deal.openDisputes) ∨
    ∃ approvalId approval, s.approvals.get? approvalId = some approval ∧
      approval.dealId = dealId ∧ approval.status = .pending ∧ decided ≠ some approvalId

/-- The approval an operation decides. -/
def LedgerOp.decides : LedgerOp → Option String
  | commitApproval req => some req.approvalId
  | _ => none

/-- No payment transition that the step appends to a deal meets an open
    question of the deal. -/
def Unquestioned (d : Done Store LedgerOp) : Prop :=
  ∀ id g, d.after.eventsFor id = d.before.eventsFor id ++ g → (∃ e ∈ g, e.Pays) →
    ¬ d.before.Questioned id d.label.decides

/-- A request commit carries the engine's decision on the stored deal. -/
def LedgerOp.Current (s : Store) : LedgerOp → Prop
  | commitRequest req => ∃ pi recordedAt, req = PolicyInput.commitRequest pi recordedAt ∧
      ∀ deal ∈ s.deals.get? pi.deal.dealId, deal = pi.deal
  | _ => True

/-- A decision on an approval names the approval's deal, or a deal without
    pending approvals. -/
def LedgerOp.NamesDeal (s : Store) : LedgerOp → Prop
  | commitApproval req => ∀ a ∈ s.approvals.get? req.approvalId,
      req.dealId = a.dealId ∨ pending s.approvals req.dealId = 0
  | _ => True

/-- What a boundary transition needs to be applied. -/
structure Transits (s : Store) (req : TransitionRequest) : Prop where
  target : ∃ deal ∈ s.deals.get? req.dealId, (transitionFor deal.state req.event).isSome
  chain : (s.events.get? req.dealId).isSome
  command : req.commandId ∉ s.seenCommands
  time : Stampable req.recordedAt

/-- No grant and no boundary event applies a payment to a deal with an open
    question. -/
def LedgerOp.Clear (s : Store) : LedgerOp → Prop
  | commitTransition req => Transits s req → req.event ∈ paymentEvents →
      ¬ s.Questioned req.dealId none
  | commitApproval req => ∀ deal approval event, Grants s req deal approval event →
      event ∈ paymentEvents → ¬ s.Questioned req.dealId (some req.approvalId)
  | _ => True

/-! ## The counter covers the pending rows -/

namespace Store

/-- A deal's counter of open approvals is at least the number of its pending
    rows. -/
structure Covered (s : Store) : Prop where
  pending : ∀ id deal, s.deals.get? id = some deal →
    (pending s.approvals id : ℤ) ≤ deal.openApprovals
  known : ∀ a ∈ s.approvals.values, (s.deals.get? a.dealId).isSome

variable {s s' : Store} {signer : GatewaySigner} {ids : EventIds}

omit [Platform] in
theorem Covered.congr (h : s.Covered) (hd : s'.deals = s.deals)
    (ha : s'.approvals = s.approvals) : s'.Covered where
  pending id deal hi := by rw [ha]; exact h.pending id deal (hd ▸ hi)
  known a hm := by rw [hd]; exact h.known a (ha ▸ hm)

omit [Platform] in
/-- A commit on one deal adds pending rows to no other, and its new row covers
    those of its own. -/
theorem Covered.commit (h : s.Covered) {id : String} {deal : Deal}
    (hd : s'.deals = s.deals.set id deal)
    (ho : ∀ i, i ≠ id → Mandate.pending s'.approvals i ≤ Mandate.pending s.approvals i)
    (hp : (Mandate.pending s'.approvals id : ℤ) ≤ deal.openApprovals)
    (hk : ∀ a ∈ s'.approvals.values, a.dealId = id ∨ (s.deals.get? a.dealId).isSome) :
    s'.Covered where
  pending i d hi := by
    rw [hd, Dict.get?_set] at hi
    split_ifs at hi with hid
    · cases hi; rw [hid]; exact hp
    · have := h.pending i d hi
      have := ho i hid
      omega
  known a ha := by
    rw [hd, Dict.get?_set]
    split_ifs with hid
    · rfl
    · exact (hk a ha).resolve_left hid

omit [Platform] in
theorem Covered.createDeal (h : s.Covered) (dealId createdAt : String) :
    (s.createDeal (.fresh dealId) createdAt).2.Covered := by
  unfold Store.createDeal
  split_ifs with hs
  · exact h
  · have hs : s.deals.get? dealId = none := Option.not_isSome_iff_eq_none.1 hs
    have h0 : Mandate.pending s.approvals dealId = 0 := List.countP_eq_zero.2 fun a ha hp => by
      have hk := h.known a ha
      simp only [Bool.decide_and, Bool.and_eq_true, decide_eq_true_eq] at hp
      rw [hp.1, hs] at hk
      cases hk
    refine h.commit rfl (fun _ _ => le_rfl) ?_ fun a ha => .inr (h.known a ha)
    exact Int.ofNat_le.2 h0.le

theorem Covered.commitRequest (h : s.Covered) (req : CommitRequest) :
    (s.commitRequest req signer ids).2.Covered := by
  have hcases := s.commitRequest_cases req signer ids
  generalize s.commitRequest req signer ids = r at hcases ⊢
  cases hcases with
  | refused r hr => exact h
  | committed deal chain plan hd hc hp _ =>
    have hcov := h.pending _ _ hd
    cases hp with
    | decided mid did ho =>
      exact h.commit rfl (fun _ _ => le_rfl) hcov fun a ha => .inr (h.known a ha)
    | applied mid did id token event target ho hv he hte =>
      exact h.commit rfl (fun _ _ => le_rfl) hcov fun a ha => .inr (h.known a ha)
    | held mid did id aid approval ho ha =>
      have hpen := pending_set_pending s.approvals approval.approvalId approval
      have hid : approval.dealId = req.dealId := (pendingApproval_ok ha).dealId
      refine h.commit rfl (fun i hi => ?_) ?_ fun a hm => ?_
      · have := hpen i
        rwa [if_neg (hid ▸ Ne.symm hi)] at this
      · have := hpen req.dealId
        rw [if_pos hid] at this
        simp only [afterRequest]
        omega
      · rcases Dict.mem_values_set hm with rfl | hm
        · exact .inl hid
        · exact .inr (h.known a hm)

theorem Covered.commitTransition (h : s.Covered) (req : TransitionRequest) :
    (s.commitTransition req signer ids).2.Covered := by
  have hcases := s.commitTransition_cases req signer ids
  generalize s.commitTransition req signer ids = r at hcases ⊢
  cases hcases with
  | refused r hr => exact h
  | committed deal chain target plan hd hc hn hte hp _ =>
    have hcov := h.pending _ _ hd
    cases hp with
    | applied mid id =>
      exact h.commit rfl (fun _ _ => le_rfl) hcov fun a ha => .inr (h.known a ha)

omit [Platform] in
theorem closeApproval_openApprovals (deal : Deal) :
    deal.closeApproval.openApprovals = max 0 (deal.openApprovals - 1) := rfl

theorem Covered.commitApproval (h : s.Covered) (req : ApprovalRequest)
    (hf : LedgerOp.NamesDeal s (.commitApproval req)) :
    (s.commitApproval req signer ids).2.Covered := by
  have hcases := s.commitApproval_cases req signer ids
  generalize s.commitApproval req signer ids = r at hcases ⊢
  cases hcases with
  | refused r hr => exact h
  | committed deal approval decided chain token record revoked plan hd hc ha hs hn hi hp hu _ =>
    have hnew : plan.newDeal.openApprovals = max 0 (deal.openApprovals - 1) ∧
        decided.status ≠ .pending ∧ decided.dealId = approval.dealId := by
      cases hp <;> cases hu <;>
        exact ⟨closeApproval_openApprovals _, by simp [ApprovalRequest.decide], rfl⟩
    have hpen := pending_set_decided ha hs hnew.2.1
    have hcov := h.pending _ _ hd
    refine h.commit rfl (fun i _ => ?_) ?_ fun a hm => .inr ?_
    · have := hpen i
      simp only [afterApproval]
      omega
    · have := hpen req.dealId
      rw [hnew.1]
      simp only [afterApproval]
      rcases hf approval ha with hid | h0
      · -- the decided row was one of this deal
        rw [if_pos hid.symm] at this
        omega
      · omega
    · rcases Dict.mem_values_set hm with rfl | hm
      · exact hnew.2.2 ▸ h.known approval (Dict.mem_values.2 ⟨_, ha⟩)
      · exact h.known a hm

theorem Covered.commitRevocation (h : s.Covered) (req : RevocationRequest) :
    (s.commitRevocation req signer ids).2.Covered := by
  have hcases := s.commitRevocation_cases req signer ids
  generalize s.commitRevocation req signer ids = r at hcases ⊢
  cases hcases with
  | refused r hr => exact h
  | committed deal chain record plan hd hc hn hr hl hp _ => exact h.congr rfl rfl

theorem Covered.run (h : s.Covered) (op : LedgerOp) (hf : op.NamesDeal s) :
    (op.run signer ids s).Covered := by
  cases op with
  | createDeal dealId createdAt => exact h.createDeal dealId createdAt
  | linkDealRecord dealId recordId =>
    obtain ⟨links, hl⟩ := s.linkDealRecord_store dealId recordId
    rw [LedgerOp.run, hl]
    exact h.congr rfl rfl
  | putRecord record => exact h.congr rfl rfl
  | putRevocation revocation => exact h.congr rfl rfl
  | commitRequest req => exact h.commitRequest req
  | commitTransition req => exact h.commitTransition req
  | commitApproval req => exact h.commitApproval req hf
  | commitRevocation req => exact h.commitRevocation req

omit [Platform] in
theorem covered_empty : Store.empty.Covered :=
  ⟨by rintro i d ⟨⟩, by rintro a ⟨⟩⟩

omit [Platform] in
/-- A deal whose counters are zero has no open question. -/
theorem Covered.not_questioned (h : s.Covered) {id : String} {deal : Deal}
    (hd : s.deals.get? id = some deal) (hdis : deal.openDisputes ≤ 0)
    (hop : deal.openApprovals ≤ 0) (decided : Option String) : ¬ s.Questioned id decided := by
  rintro (⟨deal', hd', hpos⟩ | ⟨k, a, ha, hid, hp, -⟩)
  · obtain rfl : deal = deal' := Option.some.inj (hd.symm.trans hd')
    omega
  · have hcov := h.pending _ _ hd
    have hpos : 0 < Mandate.pending s.approvals id :=
      List.countP_pos_iff.2 ⟨a, Dict.mem_values.2 ⟨k, ha⟩, by simp [hid, hp]⟩
    omega

end Store

/-! ## What a plan pays -/

variable {signer : GatewaySigner} {ids : EventIds} {s : Store} {deal : Deal} {seq : ℕ}
  {prevHash : String} {plan : CommitPlan}

omit [Platform] in
theorem Event.not_pays_of_ne {e : Event} (h : e.eventType ≠ .stateTransition) : ¬ e.Pays := by
  rintro ⟨t, ht, -⟩
  rw [transition?_of_ne h] at ht
  cases ht

omit [Platform] in
theorem mem_paymentActions {a : ActionToken} {e : DealEvent} (h : actionEvents a = some e)
    (he : e ∈ paymentEvents) : a ∈ paymentActions := by
  cases a <;> cases h <;> revert he <;> decide

theorem RequestPlan.pays {req : CommitRequest} (h : RequestPlan signer deal seq prevHash req plan)
    (hm : ∃ e ∈ plan.events, e.Pays) :
    req.decision.outcome = .allow ∧ ∃ a ∈ paymentActions, a.value = req.action := by
  have hquiet : ∀ mid did, ∀ e ∈ req.recorded signer mid did seq prevHash, ¬ e.Pays := by
    intro mid did e he
    rcases List.mem_append.1 he with he | he
    · exact Event.not_pays_of_ne (by simp [mem_messages he])
    · rw [List.mem_singleton] at he; subst he; exact Event.not_pays_of_ne (by simp)
  obtain ⟨e, he, hpay⟩ := hm
  cases h with
  | decided mid did ho => exact absurd hpay (hquiet mid did e he)
  | applied mid did id token event target ho hv hev htr =>
    rcases List.mem_append.1 he with he | he
    · exact absurd hpay (hquiet mid did e he)
    · rw [List.mem_singleton] at he
      subst he
      obtain ⟨t, ht, hpay⟩ := hpay
      rw [req.transitionEvent_transition?] at ht
      cases ht
      exact ⟨ho, token, mem_paymentActions hev hpay, hv⟩
  | held mid did id aid approval ho ha =>
    rcases List.mem_append.1 he with he | he
    · exact absurd hpay (hquiet mid did e he)
    · rw [List.mem_singleton] at he
      subst he
      exact absurd hpay (Event.not_pays_of_ne (by simp))

theorem TransitionPlan.pays {req : TransitionRequest} {target : DealState}
    (h : TransitionPlan signer deal seq prevHash req target plan) :
    (∃ e ∈ plan.events, e.Pays) ↔ req.event ∈ paymentEvents := by
  cases h with
  | applied mid id =>
    constructor
    · rintro ⟨e, he, hpay⟩
      rcases List.mem_append.1 he with he | he
      · exact absurd hpay (Event.not_pays_of_ne (by simp [mem_transitionMessages he]))
      · rw [List.mem_singleton] at he
        subst he
        obtain ⟨t, ht, hpay⟩ := hpay
        rw [req.transitionEvent_transition?] at ht
        cases ht
        exact hpay
    · intro hpay
      exact ⟨_, List.mem_append_right _ (List.mem_singleton_self _), _,
        req.transitionEvent_transition? .., hpay⟩

/-- The events of a grant pay when its action does. -/
theorem grantPlan_pays {req : ApprovalRequest} {approval : Approval} {record : ApprovalRecord}
    {event : DealEvent} {target : DealState} (hpay : event ∈ paymentEvents) :
    ∃ e ∈ (req.grantPlan signer deal approval seq prevHash ids record event target).events,
      e.Pays :=
  ⟨_, List.mem_append_right _ (List.mem_singleton_self _), _,
    req.transitionEvent_transition? .., hpay⟩

/-! ## One step -/

omit [Platform] in
theorem eventsFor_append {s' : Store} {id : String} {chain g g' : List Event}
    (hc : s.events.get? id = some chain) (he : s'.events = s.events.set id (chain ++ g))
    (h : s'.eventsFor id = s.eventsFor id ++ g') : g' = g := by
  rw [Store.eventsFor_of_get? hc, Store.eventsFor_of_get? (he ▸ Dict.get?_set_self ..)] at h
  exact (List.append_cancel_left h).symm

/-- A request decided on the stored deal, a clear grant and a clear boundary
    event pay no questioned deal. -/
theorem unquestioned_of_clear (hcov : s.Covered) {op : LedgerOp} (hcur : op.Current s)
    (hclear : op.Clear s) : Unquestioned ⟨s, op, op.run signer ids s⟩ := by
  intro id g hg hpay
  have hstep := op.dealStep s signer ids id
  generalize op.run signer ids s = s' at hg hstep
  cases hstep with
  | kept op s' hd he =>
    rw [he, List.self_eq_append_right] at hg
    obtain ⟨e, he, -⟩ := hpay
    simp [hg] at he
  | created createdAt s' hn hd he =>
    rw [he, List.nil_eq_append_iff] at hg
    obtain ⟨e, he, -⟩ := hpay
    simp [hg.2] at he
  | requested req deal chain plan hid hd hc hp =>
    obtain rfl := eventsFor_append (hid ▸ hc) (by rfl) (hid ▸ hg)
    obtain ⟨pi, recordedAt, rfl, hstored⟩ := hcur
    obtain ⟨hallow, action, haction, hv⟩ := hp.pays hpay
    obtain ⟨-, -, action', hv', hp'⟩ := permitted_of_allow hallow
    obtain rfl : action' = action := StrEnum.value_inj (hv'.trans hv.symm)
    obtain rfl : deal = pi.deal := hstored deal (by rw [show pi.deal.dealId = id from hid]; exact hd)
    obtain ⟨hdis, hop⟩ := hp'.payment haction
    exact hcov.not_questioned hd hdis hop _
  | transitioned req deal chain target plan hid hd hc hn ht hp hs =>
    obtain rfl := eventsFor_append (hid ▸ hc) (by rfl) (hid ▸ hg)
    subst hid
    exact hclear ⟨⟨deal, hd, by rw [ht]; rfl⟩, by rw [hc]; rfl, hn, hs⟩ (hp.pays.1 hpay)
  | decided req deal approval decided chain token record revoked plan hid hd hc ha hs hn hi hp hu ht =>
    obtain rfl := eventsFor_append (hid ▸ hc) (by rfl) (hid ▸ hg)
    subst hid
    obtain ⟨e, he, hpay⟩ := hpay
    cases hp with
    | denied eid denyReason hv =>
      rw [List.mem_singleton] at he
      subst he
      exact absurd hpay (Event.not_pays_of_ne (by simp))
    | granted aid eid approvalRecord action event target ho har hk hgr hev htr =>
      subst hk
      refine hclear deal approval event ⟨hd, by rw [hc]; rfl, ha, hs, hn, ho, by rw [har]; rfl,
        grantInputs_ok ho hi hgr, ht⟩ ?_
      rcases List.mem_append.1 he with he | he
      · rw [List.mem_singleton] at he
        subst he
        exact absurd hpay (Event.not_pays_of_ne (by simp))
      · rw [List.mem_singleton] at he
        subst he
        obtain ⟨t, htr, hpay⟩ := hpay
        rw [req.transitionEvent_transition?] at htr
        cases htr
        exact hpay
  | revoked req deal chain plan hid hd hc hp =>
    obtain rfl := eventsFor_append (hid ▸ hc) (by rfl) (hid ▸ hg)
    obtain ⟨e, he, hpay⟩ := hpay
    cases hp with
    | revoked eid =>
      rw [List.mem_singleton] at he
      subst he
      exact absurd hpay (Event.not_pays_of_ne (by simp))

/-- A step that pays no questioned deal is a clear one. -/
theorem clear_of_unquestioned {op : LedgerOp} (h : Unquestioned ⟨s, op, op.run signer ids s⟩) :
    op.Clear s := by
  cases op with
  | commitTransition req =>
    rintro ⟨⟨deal, hd, ht⟩, hc, hn, hs⟩ hpay
    obtain ⟨chain, hc⟩ := Option.isSome_iff_exists.1 hc
    obtain ⟨target, ht⟩ := Option.isSome_iff_exists.1 ht
    have hrun := Store.commitTransition_eq req hd hc hn ht signer ids
    rw [planCommitTransition_applies req hs] at hrun
    have hplan : TransitionPlan signer deal chain.length (lastHash chain genesisHash) req target _ :=
      .applied (ids 0) (ids 1)
    refine h req.dealId _ ?_ (hplan.pays.2 hpay)
    simp only [LedgerOp.run, hrun]
    rw [Store.eventsFor_of_get? hc]
    exact Store.eventsFor_of_get? (Dict.get?_set_self ..)
  | commitApproval req =>
    intro deal approval event hg hpay
    obtain ⟨chain, token, target, record, hc, -, -, -, -, hrun⟩ :=
      commitApproval_of_grants hg signer ids
    have happend : ((LedgerOp.commitApproval req).run signer ids s).eventsFor req.dealId =
        s.eventsFor req.dealId ++ (req.grantPlan signer deal approval chain.length
          (lastHash chain genesisHash) ids record event target).events := by
      simp only [LedgerOp.run, hrun]
      rw [Store.eventsFor_of_get? hc]
      exact Store.eventsFor_of_get? (Dict.get?_set_self ..)
    exact h req.dealId _ happend (grantPlan_pays hpay)
  | _ => trivial

/-! ## Every run -/

/-- The steps of the store in which requests are decided on the stored deal
    and decisions name their approval's deal. -/
def currentStep (signer : GatewaySigner) (s : Store) (op : LedgerOp) (s' : Store) : Prop :=
  op.Current s ∧ op.NamesDeal s ∧ ∃ ids, s' = op.run signer ids s

theorem covered_invariant (signer : GatewaySigner) :
    (Run.system (· = Store.empty) (currentStep signer)).Invariant Store.Covered where
  init := by rintro s rfl; exact Store.covered_empty
  step := by rintro s s' - h ⟨op, -, hf, ids, rfl⟩; exact h.run op hf

/-- In a run, no payment meets an open question exactly when no grant and no
    boundary event applies a payment to a questioned deal. -/
theorem payments_unquestioned_iff {done : List (Done Store LedgerOp)}
    (hr : Run (· = Store.empty) (currentStep signer) done s) :
    (∀ d ∈ done, Unquestioned d) ↔ ∀ d ∈ done, d.label.Clear d.before := by
  refine forall₂_congr fun d hd => ?_
  obtain ⟨hreach, hcur, -, ids, hafter⟩ := hr.before_reachable d hd
  obtain ⟨before, op, after⟩ := d
  obtain rfl : after = op.run signer ids before := hafter
  exact ⟨clear_of_unquestioned,
    unquestioned_of_clear ((covered_invariant signer).holds hreach) hcur⟩

end

section
open Sample
attribute [local instance] Sample.platform

/-- A boundary event with its command. -/
def Sample.boundaryEvent (event : DealEvent) (command : Char) : LedgerOp :=
  .commitTransition { quoteRequested with event, commandId := ulid command }

/-- The steps that bring a deal to its acceptance. -/
def Sample.untilAccepted : List LedgerOp :=
  [.createDeal dealId start.text, boundaryEvent .quoteRequested 'C', boundaryEvent .quoteReceived 'E',
    boundaryEvent .agreementReached 'F', boundaryEvent .workStarted 'K',
    boundaryEvent .completionClaimed 'H', boundaryEvent .acceptanceWindowOpened 'I',
    boundaryEvent .accepted 'J']

/-- A mandate under which a person approves the start of a payment. -/
def Sample.supervised : AuthorityRecord :=
  { record with requiresHumanApprovalFor := [.initiatePayment, .cancelDeal] }

/-- A request under that mandate on the accepted deal with so many approvals
    open. -/
def Sample.heldOnAccepted (action : ActionToken) (openApprovals : ℤ) (n : Char) : LedgerOp :=
  .commitRequest (PolicyInput.commitRequest { input
    { Deal.fresh dealId with state := .accepted, openApprovals } action none n with
    authority := ⟨supervised, true, [], .active⟩ } now.text)

def Sample.accepted : Store := untilAccepted.foldl (LedgerOp.run signer ids) .empty

/-- The store in which the payment waits for an approval. -/
def Sample.paymentHeld : Store :=
  LedgerOp.run signer ids accepted (heldOnAccepted .initiatePayment 0 '1')

/-- The store in which the cancellation waits as well. -/
def Sample.bothHeld : Store :=
  LedgerOp.run signer (fun n => ids (n + 4)) paymentHeld (heldOnAccepted .cancelDeal 1 '2')

/-- The operator grants the payment. -/
def Sample.paymentGrant : ApprovalRequest :=
  { grant 0 with action := ActionToken.initiatePayment.value, amountMinor := none }

theorem Sample.accepted_run : ∃ done, Run (· = Store.empty) (currentStep signer) done accepted ∧
    done.map Done.label = untilAccepted.reverse := by
  have hempty : Run (· = Store.empty) (currentStep signer) [] .empty := .init rfl
  rw [← List.append_nil untilAccepted.reverse]
  refine hempty.foldl fun op ho s => ?_
  simp only [untilAccepted, List.mem_cons, List.not_mem_nil, or_false] at ho
  rcases ho with rfl | rfl | rfl | rfl | rfl | rfl | rfl | rfl <;> exact ⟨trivial, trivial, ids, rfl⟩

theorem Sample.bothHeld_run : ∃ done, Run (· = Store.empty) (currentStep signer) done bothHeld := by
  obtain ⟨done, hr, -⟩ := accepted_run
  have hrows : accepted.deals.get? dealId = some { Deal.fresh dealId with state := .accepted } ∧
      paymentHeld.deals.get? dealId =
        some { Deal.fresh dealId with state := .accepted, openApprovals := 1 } := by
    decide +kernel
  have hstep : currentStep signer accepted (heldOnAccepted .initiatePayment 0 '1') paymentHeld :=
    ⟨⟨_, _, rfl, fun deal hd => Option.some.inj (hd.symm.trans hrows.1)⟩, trivial, ids, rfl⟩
  have hstep' : currentStep signer paymentHeld (heldOnAccepted .cancelDeal 1 '2') bothHeld :=
    ⟨⟨_, _, rfl, fun deal hd => Option.some.inj (hd.symm.trans hrows.2)⟩, trivial, _, rfl⟩
  exact ⟨_, (hr.step hstep).step hstep'⟩

/-- The granted payment starts while the cancellation waits. -/
theorem payment_with_approval_pending :
    ∃ done s, Run (· = Store.empty) (currentStep signer) done s ∧ ¬ ∀ d ∈ done, Unquestioned d := by
  obtain ⟨done, hr⟩ := bothHeld_run
  have hfacts : (bothHeld.approvals.get? (ids 2)).map Approval.dealId = some dealId ∧
      (bothHeld.approvals.get? (ids 6)).map (fun a => (a.dealId, a.status)) =
        some (dealId, .pending) ∧
      CommitResult.Moved (bothHeld.commitApproval paymentGrant signer ids).1 := by
    decide +kernel
  generalize bothHeld = s at hr hfacts
  obtain ⟨hdeal, hwaits, hm⟩ := hfacts
  have hnames : LedgerOp.NamesDeal s (.commitApproval paymentGrant) := by
    intro a ha
    rw [show s.approvals.get? (ids 2) = some a from ha] at hdeal
    exact .inl (Option.some.inj hdeal).symm
  have hstep : currentStep signer s (.commitApproval paymentGrant) _ :=
    ⟨trivial, hnames, ids, rfl⟩
  refine ⟨_, _, hr.step hstep, fun h => ?_⟩
  have hclear := clear_of_unquestioned (h _ (List.mem_cons_self ..))
  obtain ⟨deal, approval, event, hg⟩ := commitApproval_moved_iff.1 hm
  have hevent : event = .paymentInitiated := by
    obtain ⟨token, record, revoked, hv, -, hcheck⟩ := hg.recheck
    obtain ⟨-, -, -, -, he, -⟩ := grantRecheck_ok hcheck
    obtain rfl : token = .initiatePayment := StrEnum.value_inj hv
    exact (Option.some.inj he).symm
  obtain ⟨a, ha, hd⟩ := Option.map_eq_some_iff.1 hwaits
  obtain ⟨hid, hs⟩ := Prod.mk.inj hd
  exact hclear deal approval event hg (hevent ▸ by decide)
    (.inr ⟨ids 6, a, ha, hid, hs, by decide⟩)

/-- The agent starts the payment under the mandate, and the provider confirms
    it. -/
def Sample.startPayment : LedgerOp :=
  .commitRequest (PolicyInput.commitRequest
    (input { Deal.fresh dealId with state := .accepted } .initiatePayment none '1') now.text)

def Sample.paying : Store := LedgerOp.run signer ids accepted startPayment

def Sample.captured : Store :=
  LedgerOp.run signer (fun n => ids (n + 4)) paying (boundaryEvent .paymentConfirmed 'L')

/-- Nothing is open when the payment is made, so no step is questioned. -/
theorem payments_unquestioned_iff_captured :
    ∃ done, Run (· = Store.empty) (currentStep signer) done captured ∧
      (captured.deals.get? dealId).map Deal.state = some .captured ∧
      ∀ d ∈ done, Unquestioned d := by
  obtain ⟨done, hr, hl⟩ := accepted_run
  have hrow : accepted.deals.get? dealId = some { Deal.fresh dealId with state := .accepted } ∧
      (paying.deals.get? dealId).map Deal.openDisputes = some 0 ∧
      (captured.deals.get? dealId).map Deal.state = some .captured := by
    decide +kernel
  have hrows : paying.approvals = .empty := rfl
  have hstart : currentStep signer accepted startPayment paying :=
    ⟨⟨_, _, rfl, fun deal hd => Option.some.inj (hd.symm.trans hrow.1)⟩, trivial, ids, rfl⟩
  have hconfirm : currentStep signer paying (boundaryEvent .paymentConfirmed 'L') captured :=
    ⟨trivial, trivial, _, rfl⟩
  have hrun := (hr.step hstart).step hconfirm
  refine ⟨_, hrun, hrow.2.2, (payments_unquestioned_iff hrun).2 ?_⟩
  refine List.forall_mem_cons.2 ⟨fun _ _ => ?_, List.forall_mem_cons.2 ⟨trivial, fun d hd => ?_⟩⟩
  · rintro (⟨deal, hd, hpos⟩ | ⟨id, a, ha, -⟩)
    · have hdisputes := hrow.2.1
      rw [show paying.deals.get? dealId = some deal from hd, Option.map_some,
        Option.some.injEq] at hdisputes
      omega
    · rw [hrows] at ha
      cases ha
  · -- no event up to the acceptance is a payment
    have hlabel : d.label ∈ untilAccepted := by
      rw [← List.mem_reverse, ← hl]
      exact List.mem_map_of_mem hd
    generalize d.label = label at hlabel
    simp only [untilAccepted, List.mem_cons, List.not_mem_nil, or_false] at hlabel
    rcases hlabel with rfl | rfl | rfl | rfl | rfl | rfl | rfl | rfl
    · trivial
    all_goals exact fun _ hpay => absurd hpay (by decide)

end

end Mandate
