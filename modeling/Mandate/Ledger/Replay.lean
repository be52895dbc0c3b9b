/-
  The deal row is the replay of its chain.

  `replay` folds a deal's events from a fresh draft.  `Takes deal group deal'`
  says that a group of events carries a deal to `deal'`: by replay, along the
  transition table, and with every event readable.  Groups compose, and every
  commit plan appends one; so the stored row is the replay of the stored chain
  in every run (`deal_row_is_replay`).

  Approvals close with a floor at zero, which no run ever reaches: a deal has
  at least as many open approvals as pending rows (`Store.Faithful`).
-/
import Mandate.Ledger.Runs

namespace Mandate

/-! ## Replay -/

/-- How an approval event changes the number of open approvals. -/
def ApprovalOperation.openDelta : ApprovalOperation → ℤ
  | .required => 1
  | .granted | .denied => -1

/-- The deal after one logged event. -/
def replayEvent (deal : Deal) (e : Event) : Deal :=
  match e.transition? with
  | some t => applyEvent deal t.event t.toState t.amountMinor
  | none =>
    match e.approval? with
    | some a => { deal with openApprovals := deal.openApprovals + a.operation.openDelta }
    | none => deal

/-- The deal a chain tells of. -/
def replay (dealId : String) (chain : List Event) : Deal :=
  chain.foldl replayEvent (Deal.fresh dealId)

/-- A replayed deal is the deal of the chain. -/
theorem replay_dealId (dealId : String) (chain : List Event) :
    (replay dealId chain).dealId = dealId := by
  have hfold : ∀ d : Deal, (chain.foldl replayEvent d).dealId = d.dealId := by
    induction chain with
    | nil => exact fun _ => rfl
    | cons e chain ih =>
      intro d
      rw [List.foldl_cons, ih]
      unfold replayEvent
      split
      · rfl
      · split <;> rfl
  exact hfold _

/-- The transitions of a chain. -/
def transitionsOf (chain : List Event) : List TransitionEntry := chain.filterMap Event.transition?

/-- The transitions lead from one state to another, each from where the one
    before ended and each by the table. -/
def Walk : DealState → List TransitionEntry → DealState → Prop
  | s, [], u => s = u
  | s, t :: ts, u =>
    t.fromState = s ∧ ((t.fromState, t.event), t.toState) ∈ transitions ∧ Walk t.toState ts u

theorem walk_append {ts us : List TransitionEntry} : ∀ {s v : DealState},
    Walk s (ts ++ us) v ↔ ∃ u, Walk s ts u ∧ Walk u us v := by
  induction ts with
  | nil => simp [Walk]
  | cons t ts ih => simp only [List.cons_append, Walk, ih]; grind

/-- Transition, approval and decision events say what they are about. -/
structure Event.Readable (e : Event) : Prop where
  transition : e.eventType = .stateTransition → e.transition?.isSome
  approval : e.eventType = .approval → e.approval?.isSome
  decision : e.eventType = .policyDecision → e.decision?.isSome

/-- The events carry the deal to `deal'`. -/
structure Takes (deal : Deal) (group : List Event) (deal' : Deal) : Prop where
  replay : group.foldl replayEvent deal = deal'
  walk : Walk deal.state (transitionsOf group) deal'.state
  readable : ∀ e ∈ group, e.Readable

theorem Takes.append {d d' d'' : Deal} {g g' : List Event} (h : Takes d g d') (h' : Takes d' g' d'') :
    Takes d (g ++ g') d'' where
  replay := by rw [List.foldl_append, h.replay, h'.replay]
  walk := by
    rw [transitionsOf, List.filterMap_append]
    exact walk_append.2 ⟨_, h.walk, h'.walk⟩
  readable e he := (List.mem_append.1 he).elim (h.readable e) (h'.readable e)

theorem Takes.nil (d : Deal) : Takes d [] d := ⟨rfl, rfl, by simp⟩

theorem eventType_of_transition? {e : Event} {t : TransitionEntry} (h : e.transition? = some t) :
    e.eventType = .stateTransition := by
  by_contra ht
  rw [transition?_of_ne ht] at h
  cases h

theorem eventType_of_approval? {e : Event} {a : ApprovalEntry} (h : e.approval? = some a) :
    e.eventType = .approval := by
  by_contra ht
  rw [approval?_of_ne ht] at h
  cases h

/-- Messages, decisions and revocations leave the deal alone. -/
theorem takes_other {d : Deal} {e : Event} (ht : e.eventType ≠ .stateTransition)
    (ha : e.eventType ≠ .approval) (hd : e.eventType = .policyDecision → e.decision?.isSome) :
    Takes d [e] d where
  replay := by simp [replayEvent, transition?_of_ne ht, approval?_of_ne ha]
  walk := by simp [transitionsOf, transition?_of_ne ht, Walk]
  readable e' he := by
    rw [List.mem_singleton] at he
    subst he
    exact ⟨fun h => absurd h ht, fun h => absurd h ha, hd⟩

theorem takes_transition {d : Deal} {e : Event} {t : TransitionEntry} (h : e.transition? = some t)
    (hf : t.fromState = d.state) (ht : transitionFor d.state t.event = some t.toState) :
    Takes d [e] (applyEvent d t.event t.toState t.amountMinor) where
  replay := by simp [replayEvent, h]
  walk := by
    simp only [transitionsOf, List.filterMap_cons, h, List.filterMap_nil, Walk, applyEvent_state]
    exact ⟨hf, hf ▸ transitionFor_eq_some.1 ht, trivial⟩
  readable e' he := by
    rw [List.mem_singleton] at he
    subst he
    have ht := eventType_of_transition? h
    exact ⟨fun _ => by rw [h]; rfl, by simp [ht], by simp [ht]⟩

theorem takes_approval {d : Deal} {e : Event} {a : ApprovalEntry} (h : e.approval? = some a) :
    Takes d [e] { d with openApprovals := d.openApprovals + a.operation.openDelta } where
  replay := by
    have ht : e.transition? = none := transition?_of_ne (by simp [eventType_of_approval? h])
    simp [replayEvent, h, ht]
  walk := by
    have ht : e.transition? = none := transition?_of_ne (by simp [eventType_of_approval? h])
    simp [transitionsOf, ht, Walk]
  readable e' he := by
    rw [List.mem_singleton] at he
    subst he
    have ht := eventType_of_approval? h
    exact ⟨by simp [ht], fun _ => by rw [h]; rfl, by simp [ht]⟩

theorem takes_messages {d : Deal} {g : List Event} (h : ∀ e ∈ g, e.eventType = .message) :
    Takes d g d := by
  induction g with
  | nil => exact .nil d
  | cons e g ih =>
    have he := h e (by simp)
    have hg := ih fun e' he' => h e' (List.mem_cons_of_mem _ he')
    exact (takes_other (by simp [he]) (by simp [he]) (by simp [he])).append hg

/-! ## Every plan carries the deal to its new row -/

section
variable [Platform] {signer : GatewaySigner} {deal : Deal} {seq : ℕ} {prevHash : String}
  {plan : CommitPlan}

theorem takes_recorded (req : CommitRequest) (mid did : String) :
    Takes deal (req.recorded signer mid did seq prevHash) deal := by
  refine (takes_messages fun e he => mem_messages he).append ?_
  exact takes_other (by simp) (by simp) fun _ => by rw [req.decisionEvent_decision?]; rfl

theorem RequestPlan.takes {req : CommitRequest}
    (h : RequestPlan signer deal seq prevHash req plan) : Takes deal plan.events plan.newDeal := by
  cases h with
  | decided mid did ho => exact takes_recorded req mid did
  | applied mid did id token event target ho hv he ht =>
    refine (takes_recorded req mid did).append ?_
    exact takes_transition (req.transitionEvent_transition? ..) rfl ht
  | held mid did id aid approval ho ha =>
    refine (takes_recorded req mid did).append ?_
    exact takes_approval (req.requiredEvent_approval? ..)

theorem TransitionPlan.takes {req : TransitionRequest} {target : DealState}
    (ht : transitionFor deal.state req.event = some target)
    (h : TransitionPlan signer deal seq prevHash req target plan) :
    Takes deal plan.events plan.newDeal := by
  cases h with
  | applied mid id =>
    have hmessages : Takes deal (req.messages signer mid seq prevHash) deal :=
      takes_messages fun e he => mem_transitionMessages he
    exact hmessages.append (takes_transition (req.transitionEvent_transition? ..) rfl ht)

omit [Platform] in
/-- With an approval open, closing one never meets the floor. -/
theorem closeApproval_eq (h : 1 ≤ deal.openApprovals) :
    deal.closeApproval = { deal with openApprovals := deal.openApprovals + -1 } := by
  simp only [Deal.closeApproval, Deal.mk.injEq, true_and]
  omega

theorem ApprovalPlan.takes {approval : Approval} {req : ApprovalRequest}
    {record : Option AuthorityRecord} {revoked : Bool} {token : Option ActionToken}
    (ho : 1 ≤ deal.openApprovals)
    (h : ApprovalPlan signer deal approval seq prevHash req record revoked token plan) :
    Takes deal plan.events plan.newDeal := by
  cases h with
  | granted aid id approvalRecord action event target _ har hk hg he ht =>
    have hgranted : (req.grantedEvent signer aid seq prevHash approval.requestId
        approvalRecord).approval? = some ⟨.granted, approval.requestId, req.action, _⟩ :=
      req.grantedEvent_approval? ..
    have hgroup := takes_approval (d := deal) hgranted
    rw [closeApproval_eq (by exact ho)]
    exact hgroup.append (takes_transition (req.transitionEvent_transition? ..) rfl ht)
  | denied id denyReason hv =>
    rw [closeApproval_eq ho]
    exact takes_approval (req.deniedEvent_approval? ..)

/-- The events of a decided approval are readable, whatever the counter. -/
theorem ApprovalPlan.readable {approval : Approval} {req : ApprovalRequest}
    {record : Option AuthorityRecord} {revoked : Bool} {token : Option ActionToken}
    (h : ApprovalPlan signer deal approval seq prevHash req record revoked token plan) :
    ∀ e ∈ plan.events, e.Readable := by
  cases h with
  | granted aid id approvalRecord action event target _ har hk hg he ht =>
    have hgranted : (req.grantedEvent signer aid seq prevHash approval.requestId
        approvalRecord).approval? = some ⟨.granted, approval.requestId, req.action, _⟩ :=
      req.grantedEvent_approval? ..
    have hgroup := takes_approval (d := deal) hgranted
    exact (hgroup.append (takes_transition (req.transitionEvent_transition? ..) rfl ht)).readable
  | denied id denyReason hv =>
    exact (takes_approval (d := deal) (req.deniedEvent_approval? ..)).readable

theorem RevocationPlan.takes {req : RevocationRequest}
    (h : RevocationPlan signer deal seq prevHash req plan) :
    Takes deal plan.events plan.newDeal := by
  cases h with
  | revoked id => exact takes_other (by simp) (by simp) (by simp)

end

/-! ## Every run -/

/-- The pending rows of a deal. -/
def pending (approvals : Dict String Approval) (dealId : String) : ℕ :=
  approvals.values.countP fun a => a.dealId = dealId ∧ a.status = .pending

theorem pending_set_pending (approvals : Dict String Approval) (k : String) (a : Approval)
    (id : String) :
    pending (approvals.set k a) id ≤ pending approvals id + if a.dealId = id then 1 else 0 := by
  have h := approvals.countP_values_set
    (fun a => decide (a.dealId = id ∧ a.status = .pending)) k a
  unfold pending
  split_ifs with ha <;> simp_all <;> grind

theorem pending_set_decided {approvals : Dict String Approval} {k : String} {a a' : Approval}
    (ha : approvals.get? k = some a) (hp : a.status = .pending) (hp' : a'.status ≠ .pending)
    (id : String) :
    pending (approvals.set k a') id + (if a.dealId = id then 1 else 0) = pending approvals id := by
  have h := approvals.countP_values_set
    (fun a => decide (a.dealId = id ∧ a.status = .pending)) k a'
  unfold pending
  simpa [ha, hp, hp'] using h

namespace Store

/-- Every deal row is what its chain tells, and covers its pending rows. -/
structure Faithful (s : Store) : Prop where
  row : ∀ id deal, s.deals.get? id = some deal → ∃ chain, s.events.get? id = some chain ∧
    Takes (.fresh id) chain deal ∧ (pending s.approvals id : ℤ) ≤ deal.openApprovals
  known : ∀ a ∈ s.approvals.values, (s.deals.get? a.dealId).isSome

/-- A commit that carries its deal's row, and closes no more approvals than it
    decides, keeps the store faithful. -/
theorem Faithful.commit {s s' : Store} (h : s.Faithful) {id : String} {deal : Deal}
    {chain : List Event} {plan : CommitPlan} (hd : s.deals.get? id = some deal)
    (hc : s.events.get? id = some chain)
    (hd' : ∀ i, s'.deals.get? i = if i = id then some plan.newDeal else s.deals.get? i)
    (hc' : s'.events = s.events.set id (chain ++ plan.events))
    (ht : Takes deal plan.events plan.newDeal)
    (ho : ∀ i, i ≠ id → pending s'.approvals i ≤ pending s.approvals i)
    (hp : (pending s'.approvals id : ℤ) - plan.newDeal.openApprovals ≤
      pending s.approvals id - deal.openApprovals)
    (hk : ∀ a ∈ s'.approvals.values, a.dealId = id ∨ a ∈ s.approvals.values) : s'.Faithful where
  row i d hi := by
    rw [hd'] at hi
    split_ifs at hi with hid
    · subst hid
      cases hi
      obtain ⟨chain', hc'', ht', hp'⟩ := h.row i deal hd
      rw [hc] at hc''
      cases hc''
      exact ⟨_, by rw [hc', Dict.get?_set_self], ht'.append ht, by omega⟩
    · obtain ⟨chain', hc'', ht', hp'⟩ := h.row i d hi
      have := ho i hid
      exact ⟨chain', by rw [hc', Dict.get?_set_ne _ _ hid, hc''], ht', by omega⟩
  known a ha := by
    rw [hd']
    split_ifs with hid
    · rfl
    · exact h.known a ((hk a ha).resolve_left hid)

/-- The rows and chains decide faithfulness, together with the approvals. -/
theorem Faithful.congr {s s' : Store} (h : s.Faithful) (hd : s'.deals = s.deals)
    (hc : s'.events = s.events) (ha : s'.approvals = s.approvals) : s'.Faithful where
  row i d hi := by
    rw [hd] at hi
    obtain ⟨chain, hi⟩ := h.row i d hi
    exact ⟨chain, by rw [hc, ha]; exact hi⟩
  known a hm := by rw [hd]; exact h.known a (ha ▸ hm)

variable [Platform] {s : Store} {signer : GatewaySigner} {ids : EventIds}

omit [Platform] in
theorem Faithful.createDeal (h : s.Faithful) (dealId createdAt : String) :
    (s.createDeal (.fresh dealId) createdAt).2.Faithful := by
  unfold Store.createDeal
  split_ifs with hs
  · exact h
  · have hs : s.deals.get? dealId = none := Option.not_isSome_iff_eq_none.1 hs
    refine ⟨fun i d hi => ?_, fun a ha => ?_⟩
    · simp only [Dict.get?_set, Deal.fresh] at hi ⊢
      split_ifs at hi with hid
      · subst hid
        cases hi
        refine ⟨[], by simp, .nil _, ?_⟩
        have h0 : pending s.approvals i = 0 := List.countP_eq_zero.2 fun a ha hp => by
          have := h.known a ha
          simp only [Bool.decide_and, Bool.and_eq_true, decide_eq_true_eq] at hp
          rw [hp.1, hs] at this
          cases this
        exact Int.ofNat_le.2 h0.le
      · obtain ⟨chain, hc, hr⟩ := h.row i d hi
        exact ⟨chain, by rw [if_neg hid, hc], hr⟩
    · have := h.known a ha
      simp only [Dict.get?_set]
      split_ifs
      · rfl
      · exact this

theorem Faithful.commitRequest (h : s.Faithful) (req : CommitRequest) :
    (s.commitRequest req signer ids).2.Faithful := by
  have hcases := s.commitRequest_cases req signer ids
  generalize s.commitRequest req signer ids = r at hcases ⊢
  cases hcases with
  | refused r hr => exact h
  | committed deal chain plan hd hc hp _ =>
    have ht := hp.takes
    cases hp with
    | decided mid did ho =>
      exact h.commit hd hc (fun i => Dict.get?_set ..) rfl ht (fun _ _ => le_rfl) le_rfl
        fun a ha => .inr ha
    | applied mid did id token event target ho hv he hte =>
      exact h.commit hd hc (fun i => Dict.get?_set ..) rfl ht (fun _ _ => le_rfl) le_rfl
        fun a ha => .inr ha
    | held mid did id aid approval ho ha =>
      have hpen := pending_set_pending s.approvals approval.approvalId approval
      have hid : approval.dealId = req.dealId := (pendingApproval_ok ha).dealId
      refine h.commit hd hc (fun i => Dict.get?_set ..) rfl ht (fun i hi => ?_) ?_ fun a hm => ?_
      · have := hpen i
        rwa [if_neg (hid ▸ Ne.symm hi)] at this
      · have := hpen req.dealId
        rw [if_pos hid] at this
        simp only [afterRequest]
        omega
      · rcases Dict.mem_values_set hm with rfl | hm
        · exact .inl hid
        · exact .inr hm

theorem Faithful.commitTransition (h : s.Faithful) (req : TransitionRequest) :
    (s.commitTransition req signer ids).2.Faithful := by
  have hcases := s.commitTransition_cases req signer ids
  generalize s.commitTransition req signer ids = r at hcases ⊢
  cases hcases with
  | refused r hr => exact h
  | committed deal chain target plan hd hc hn hte hp _ =>
    have ht := hp.takes hte
    cases hp with
    | applied mid id =>
      exact h.commit hd hc (fun i => Dict.get?_set ..) rfl ht (fun _ _ => le_rfl) le_rfl
        fun a ha => .inr ha

theorem Faithful.commitApproval (h : s.Faithful) (req : ApprovalRequest)
    (hf : LedgerOp.Filed s (.commitApproval req)) :
    (s.commitApproval req signer ids).2.Faithful := by
  have hcases := s.commitApproval_cases req signer ids
  generalize s.commitApproval req signer ids = r at hcases ⊢
  cases hcases with
  | refused r hr => exact h
  | committed deal approval decided chain token record revoked plan hd hc ha hs hn hi hp hu _ =>
    have hid : approval.dealId = req.dealId := (hf approval ha).symm
    -- the decided row was pending, so an approval is open
    have hopen : 1 ≤ deal.openApprovals := by
      obtain ⟨_, _, _, hle⟩ := h.row _ _ hd
      have hdenied : (req.decide approval .denied).status ≠ .pending := by
        simp [ApprovalRequest.decide]
      have := pending_set_decided ha hs hdenied req.dealId
      rw [if_pos hid] at this
      omega
    have ht := hp.takes hopen
    have hnew : plan.newDeal.openApprovals = deal.openApprovals - 1 ∧ decided.status ≠ .pending ∧
        decided.dealId = req.dealId := by
      cases hp <;> cases hu <;>
        exact ⟨by simp only [Deal.closeApproval, applyEvent_openApprovals]; omega,
          by simp [ApprovalRequest.decide], hid⟩
    have hpen := pending_set_decided ha hs hnew.2.1
    refine h.commit hd hc (fun i => Dict.get?_set ..) rfl ht (fun i hi => ?_) ?_ fun a hm => ?_
    · have := hpen i
      simp only [afterApproval]
      omega
    · have := hpen req.dealId
      rw [if_pos hid] at this
      simp only [afterApproval]
      omega
    · rcases Dict.mem_values_set hm with rfl | hm
      · exact .inl hnew.2.2
      · exact .inr hm

theorem Faithful.commitRevocation (h : s.Faithful) (req : RevocationRequest) :
    (s.commitRevocation req signer ids).2.Faithful := by
  have hcases := s.commitRevocation_cases req signer ids
  generalize s.commitRevocation req signer ids = r at hcases ⊢
  cases hcases with
  | refused r hr => exact h
  | committed deal chain record plan hd hc hn hr hl hp _ =>
    have ht := hp.takes
    cases hp with
    | revoked id =>
      refine h.commit hd hc (fun i => ?_) rfl ht (fun _ _ => le_rfl) le_rfl fun a ha => .inr ha
      split_ifs with hi
      · subst hi; exact hd
      · rfl

end Store

open Store in
theorem faithful_invariant [Platform] (signer : GatewaySigner) :
    (ledger signer).Invariant Store.Faithful where
  init := by
    rintro s rfl
    exact ⟨by rintro i d ⟨⟩, by rintro a ⟨⟩⟩
  step := by
    rintro s s' - h ⟨op, ids, hf, rfl⟩
    cases op with
    | createDeal dealId createdAt => exact h.createDeal dealId createdAt
    | linkDealRecord dealId recordId =>
      obtain ⟨links, hl⟩ := s.linkDealRecord_store dealId recordId
      exact h.congr (by rw [LedgerOp.run, hl]) (by rw [LedgerOp.run, hl]) (by rw [LedgerOp.run, hl])
    | putRecord record => exact h.congr rfl rfl rfl
    | putRevocation revocation => exact h.congr rfl rfl rfl
    | commitRequest req => exact h.commitRequest req
    | commitTransition req => exact h.commitTransition req
    | commitApproval req => exact h.commitApproval req hf
    | commitRevocation req => exact h.commitRevocation req

/-- In every run, a deal's row is the replay of its chain, and its transitions
    lead from the draft to the stored state by the table. -/
theorem deal_row_is_replay [Platform] {signer : GatewaySigner} {s : Store}
    (hr : (ledger signer).Reachable s) {dealId : String} {deal : Deal}
    (hd : s.deals.get? dealId = some deal) :
    ∃ chain, s.events.get? dealId = some chain ∧ deal = replay dealId chain ∧
      Walk .draft (transitionsOf chain) deal.state ∧ ∀ e ∈ chain, e.Readable := by
  obtain ⟨chain, hc, ht, -⟩ := ((faithful_invariant signer).holds hr).row dealId deal hd
  exact ⟨chain, hc, ht.replay.symm, ht.walk, ht.readable⟩

section
open Sample
attribute [local instance] Sample.platform

/-- A store with one deal, for which a quote has been requested. -/
def Sample.quoted : Store :=
  LedgerOp.run signer ids (LedgerOp.run signer ids .empty (.createDeal dealId start.text))
    (.commitTransition quoteRequested)

theorem Sample.quoted_reachable : (ledger signer).Reachable quoted :=
  .step (.step (.init rfl) ⟨.createDeal dealId start.text, ids, trivial, rfl⟩)
    ⟨.commitTransition quoteRequested, ids, trivial, rfl⟩

theorem deal_row_is_replay_quoted :
    ∃ chain, quoted.events.get? dealId = some chain ∧
      { Deal.fresh dealId with state := .quoteRequested } = replay dealId chain ∧
      Walk .draft (transitionsOf chain) .quoteRequested ∧ ∀ e ∈ chain, e.Readable :=
  deal_row_is_replay quoted_reachable rfl

end

end Mandate
