/-
  The approval ledger.

  An approval leaves traces in three places: the counter of its deal's row,
  its own row and the approval events of the chain.  `Store.Balanced` says how
  they agree; every step keeps it, so they agree in every run, and a decided
  row stays as it is (`approvals_balanced`).
-/
import Mathlib.Data.Fintype.EquivFin
import Mandate.Application.Calls
import Mandate.Application.Grants
import Mandate.Ledger.Replay

namespace Mandate

section
variable [Platform]

/-! ## The approval events -/

/-- The approval events of a chain. -/
def approvalsOf (chain : List Event) : List ApprovalEntry := chain.filterMap Event.approval?

/-- How many events of one operation a chain has for a request. -/
def operations (chain : List Event) (operation : ApprovalOperation) (requestId : String) : ℕ :=
  (approvalsOf chain).countP fun e => e.operation = operation ∧ e.requestId = requestId

/-- Whether an approval of this status has had the operation. -/
def ApprovalStatus.Had : ApprovalStatus → ApprovalOperation → Prop
  | _, .required => True
  | .granted, .granted => True
  | .denied, .denied => True
  | _, _ => False

instance (status : ApprovalStatus) : DecidablePred status.Had := fun operation => by
  cases status <;> cases operation <;> unfold ApprovalStatus.Had <;> infer_instance

omit [Platform] in
theorem operations_append (c g : List Event) (operation : ApprovalOperation) (requestId : String) :
    operations (c ++ g) operation requestId =
      operations c operation requestId + operations g operation requestId := by
  simp only [operations, approvalsOf, List.filterMap_append, List.countP_append]

omit [Platform] in
theorem approvalsOf_eq_nil {g : List Event} (h : ∀ e ∈ g, e.eventType ≠ .approval) :
    approvalsOf g = [] :=
  List.filterMap_eq_nil_iff.2 fun e he => approval?_of_ne (h e he)

section
variable {signer : GatewaySigner} {deal : Deal} {seq : ℕ} {prevHash : String} {plan : CommitPlan}

theorem approvalsOf_recorded (req : CommitRequest) (mid did : String) :
    approvalsOf (req.recorded signer mid did seq prevHash) = [] := by
  refine approvalsOf_eq_nil fun e he => ?_
  rcases List.mem_append.1 he with he | he
  · simp [mem_messages he]
  · rw [List.mem_singleton] at he; subst he; simp

theorem TransitionPlan.approvalsOf {req : TransitionRequest} {target : DealState}
    (h : TransitionPlan signer deal seq prevHash req target plan) :
    approvalsOf plan.events = [] := by
  cases h with
  | applied mid id =>
    refine approvalsOf_eq_nil fun e he => ?_
    rcases List.mem_append.1 he with he | he
    · simp [mem_transitionMessages he]
    · rw [List.mem_singleton] at he; subst he; simp

/-- A decision leaves its row with its status, one approval event of its own
    operation, and one open approval fewer. -/
theorem ApprovalPlan.approvalsOf {approval : Approval} {req : ApprovalRequest}
    {record : Option AuthorityRecord} {revoked : Bool} {token : Option ActionToken}
    (h : ApprovalPlan signer deal approval seq prevHash req record revoked token plan) :
    ∃ status operation, status ≠ .pending ∧ operation ≠ .required ∧
      (∀ o, status.Had o ↔ o = .required ∨ o = operation) ∧
      plan.approval = some (req.decide approval status) ∧
      approvalsOf plan.events = [⟨operation, approval.requestId, req.action, req.amountMinor⟩] ∧
      plan.newDeal.openApprovals = max 0 (deal.openApprovals - 1) := by
  cases h with
  | granted aid id approvalRecord action event target ho har hk hg he ht =>
    refine ⟨.granted, .granted, by decide, by decide, by rintro ⟨⟩ <;> decide, rfl, ?_, rfl⟩
    have hnone : ∀ n prev, (req.transitionEvent signer id n prev approval.requestId event deal
        (applyEvent deal event target req.amountMinor).closeApproval).approval? = none :=
      fun n prev => approval?_of_ne (by simp)
    simp [Mandate.approvalsOf, extend, hnone]
  | denied id denyReason hv =>
    refine ⟨.denied, .denied, by decide, by decide, by rintro ⟨⟩ <;> decide, rfl, ?_, rfl⟩
    simp [Mandate.approvalsOf]

theorem RevocationPlan.approvalsOf {req : RevocationRequest}
    (h : RevocationPlan signer deal seq prevHash req plan) : approvalsOf plan.events = [] := by
  cases h; exact approvalsOf_eq_nil (by simp)

end

/-! ## Consistent calls -/

/-- Requests are processed, and a decision on an approval names the approval's
    deal. -/
def Call.Consistent (s : Store) : Call → Prop
  | other (.commitRequest _) => False
  | c => c.op.Filed s

/-- No id that is drawn is an approval's. -/
def Store.FreshIds (s : Store) (ids : EventIds) : Prop := ∀ n, s.approvals.get? (ids n) = none

omit [Platform] in
/-- There are ids that no approval has. -/
theorem Store.exists_freshIds (s : Store) : ∃ ids : EventIds, s.FreshIds ids := by
  have hinf : Infinite String :=
    .of_injective (fun n => String.ofList (List.replicate n '0')) fun m n h => by
      simpa using congrArg String.length h
  obtain ⟨id, hid⟩ := Infinite.exists_notMem_finset (s.approvals.entries.map Prod.fst).toFinset
  refine ⟨fun _ => id, fun _ => ?_⟩
  rw [List.mem_toFinset, ← Dict.isSome_getEntries, Option.not_isSome_iff_eq_none] at hid
  exact hid

/-! ## The balance -/

namespace Store

/-- The counters, the rows and the approval events agree. -/
structure Balanced (s : Store) : Prop where
  counter : ∀ id deal, s.deals.get? id = some deal → deal.openApprovals = pending s.approvals id
  events : ∀ k a, s.approvals.get? k = some a → ∀ id operation,
    operations (s.eventsFor id) operation a.requestId =
      if id = a.dealId ∧ a.status.Had operation then 1 else 0
  distinct : ∀ k a k' a', s.approvals.get? k = some a → s.approvals.get? k' = some a' →
    a.requestId = a'.requestId → k = k'
  rows : ∀ k a, s.approvals.get? k = some a → a.requestId ∈ s.seenRequests
  entries : ∀ id, ∀ e ∈ approvalsOf (s.eventsFor id), e.requestId ∈ s.seenRequests
  known : ∀ k a, s.approvals.get? k = some a → (s.deals.get? a.dealId).isSome
  chains : ∀ id, s.deals.get? id = none → s.eventsFor id = []

variable {s s' : Store} {signer : GatewaySigner} {ids : EventIds}

omit [Platform] in
/-- A chain after a group was appended to one of them. -/
theorem eventsFor_append {id : String} {chain g : List Event} (hc : s.events.get? id = some chain)
    (he : s'.events = s.events.set id (chain ++ g)) (i : String) :
    s'.eventsFor i = s.eventsFor i ++ if i = id then g else [] := by
  split_ifs with hi
  · subst hi
    rw [eventsFor_of_get? hc]
    exact eventsFor_of_get? (he ▸ Dict.get?_set_self ..)
  · rw [List.append_nil]
    exact eventsFor_of_set_ne (Ne.symm hi) he

omit [Platform] in
theorem approvalsOf_append {id : String} {chain g : List Event}
    (hc : s.events.get? id = some chain) (he : s'.events = s.events.set id (chain ++ g))
    (i : String) :
    approvalsOf (s'.eventsFor i) =
      approvalsOf (s.eventsFor i) ++ if i = id then approvalsOf g else [] := by
  rw [eventsFor_append hc he, approvalsOf, List.filterMap_append]
  split_ifs <;> rfl

omit [Platform] in
/-- A step that appends no approval event, and leaves rows and counters alone,
    keeps the balance. -/
theorem Balanced.quiet (h : s.Balanced) (ha : s'.approvals = s.approvals)
    (hcounter : ∀ id deal, s'.deals.get? id = some deal →
      deal.openApprovals = Mandate.pending s.approvals id)
    (hknown : ∀ id, (s.deals.get? id).isSome → (s'.deals.get? id).isSome)
    (hs : s.seenRequests ⊆ s'.seenRequests)
    (he : ∀ id, approvalsOf (s'.eventsFor id) = approvalsOf (s.eventsFor id))
    (hc : ∀ id, s'.deals.get? id = none → s'.eventsFor id = []) : s'.Balanced where
  counter id deal hd := by rw [ha]; exact hcounter id deal hd
  events k a hk id operation := by
    rw [operations, he]
    exact h.events k a (ha ▸ hk) id operation
  distinct := by rw [ha]; exact h.distinct
  rows k a hk := hs (h.rows k a (ha ▸ hk))
  entries id e hm := hs (h.entries id e (he id ▸ hm))
  known k a hk := hknown _ (h.known k a (ha ▸ hk))
  chains := hc

omit [Platform] in
/-- A commit on a stored deal that appends no approval event. -/
theorem Balanced.commit_quiet (h : s.Balanced) {id : String} {deal deal' : Deal}
    {chain g : List Event} (hd : s.deals.get? id = some deal) (hc : s.events.get? id = some chain)
    (hd' : s'.deals = s.deals.set id deal') (he : s'.events = s.events.set id (chain ++ g))
    (ha : s'.approvals = s.approvals) (hs : s.seenRequests ⊆ s'.seenRequests)
    (hop : deal'.openApprovals = deal.openApprovals) (hg : approvalsOf g = []) : s'.Balanced := by
  refine h.quiet ha (fun i d hi => ?_) (fun i hi => ?_) hs (fun i => ?_) fun i hn => ?_
  · rw [hd', Dict.get?_set] at hi
    split_ifs at hi with hii
    · cases hi
      rw [hop, hii]
      exact h.counter id deal hd
    · exact h.counter i d hi
  · rw [hd', Dict.get?_set]
    split_ifs
    · rfl
    · exact hi
  · rw [approvalsOf_append hc he, hg, ite_self, List.append_nil]
  · rw [hd', Dict.get?_set] at hn
    split_ifs at hn with hi
    rw [eventsFor_append hc he, if_neg hi, List.append_nil]
    exact h.chains i hn

omit [Platform] in
/-- One more approval event counts once, for its own operation and request. -/
theorem operations_append_one {id : String} {chain g : List Event} {entry : ApprovalEntry}
    (hc : s.events.get? id = some chain) (he : s'.events = s.events.set id (chain ++ g))
    (hg : approvalsOf g = [entry]) (i : String) (operation : ApprovalOperation)
    (requestId : String) :
    operations (s'.eventsFor i) operation requestId = operations (s.eventsFor i) operation requestId +
      if i = id ∧ entry.operation = operation ∧ entry.requestId = requestId then 1 else 0 := by
  rw [eventsFor_append hc he, operations_append]
  congr 1
  by_cases hi : i = id
  · simp [hi, operations, hg, List.countP_cons]
  · simp [hi, operations, approvalsOf]

omit [Platform] in
/-- A request that was never seen has no approval event. -/
theorem Balanced.operations_unseen (h : s.Balanced) {requestId : String}
    (hr : requestId ∉ s.seenRequests) (id : String) (operation : ApprovalOperation) :
    operations (s.eventsFor id) operation requestId = 0 := by
  refine List.countP_eq_zero.2 fun e he hp => hr ?_
  simp only [Bool.decide_and, Bool.and_eq_true, decide_eq_true_eq] at hp
  exact hp.2 ▸ h.entries id e he

omit [Platform] in
theorem pending_set_new {approvals : Dict String Approval} {k : String} {a : Approval}
    (hk : approvals.get? k = none) (hp : a.status = .pending) (id : String) :
    Mandate.pending (approvals.set k a) id =
      Mandate.pending approvals id + if a.dealId = id then 1 else 0 := by
  have h := approvals.countP_values_set
    (fun a => decide (a.dealId = id ∧ a.status = .pending)) k a
  rw [hk] at h
  simpa [Mandate.pending, hp] using h

omit [Platform] in
/-- A new pending row, with its event, keeps the balance. -/
theorem Balanced.held (h : s.Balanced) {req : CommitRequest} {deal : Deal} {chain g : List Event}
    {approval : Approval} {entry : ApprovalEntry} (hd : s.deals.get? req.dealId = some deal)
    (hc : s.events.get? req.dealId = some chain) (hn : req.requestId ∉ s.seenRequests)
    (hk : s.approvals.get? approval.approvalId = none) (hp : PendingOf req approval)
    (hd' : s'.deals = s.deals.set req.dealId { deal with openApprovals := deal.openApprovals + 1 })
    (he : s'.events = s.events.set req.dealId (chain ++ g))
    (ha : s'.approvals = s.approvals.set approval.approvalId approval)
    (hs : s'.seenRequests = insert req.requestId s.seenRequests) (hg : approvalsOf g = [entry])
    (ho : entry.operation = .required) (hr : entry.requestId = req.requestId) : s'.Balanced where
  counter i d hi := by
    rw [ha, pending_set_new hk hp.status, hp.dealId]
    rw [hd', Dict.get?_set] at hi
    split_ifs at hi with hid
    · cases hi
      rw [hid, if_pos rfl, Nat.cast_add, ← h.counter _ _ hd]
      rfl
    · rw [if_neg (Ne.symm hid), Nat.add_zero]
      exact h.counter i d hi
  events k a hka i operation := by
    rw [operations_append_one hc he hg, ho, hr]
    rw [ha, Dict.get?_set] at hka
    split_ifs at hka with hkk
    · cases hka
      rw [hp.requestId, h.operations_unseen hn, hp.dealId, hp.status]
      cases operation <;> simp [ApprovalStatus.Had]
    · have hne : req.requestId ≠ a.requestId := fun heq => hn (heq ▸ h.rows k a hka)
      simp only [hne, and_false, if_false, Nat.add_zero]
      exact h.events k a hka i operation
  distinct k a k' a' hka hka' heq := by
    rw [ha, Dict.get?_set] at hka hka'
    split_ifs at hka hka' with h1 h2 h2
    · exact h1.trans h2.symm
    · cases hka
      exact absurd (hp.requestId ▸ heq ▸ h.rows k' a' hka') hn
    · cases hka'
      exact absurd (hp.requestId ▸ heq ▸ h.rows k a hka) hn
    · exact h.distinct k a k' a' hka hka' heq
  rows k a hka := by
    rw [hs]
    rw [ha, Dict.get?_set] at hka
    split_ifs at hka
    · cases hka
      exact hp.requestId ▸ Finset.mem_insert_self _ _
    · exact Finset.mem_insert_of_mem (h.rows k a hka)
  entries i e hm := by
    rw [hs]
    rw [approvalsOf_append hc he, hg] at hm
    rcases List.mem_append.1 hm with hm | hm
    · exact Finset.mem_insert_of_mem (h.entries i e hm)
    · split_ifs at hm
      · rw [List.mem_singleton] at hm
        exact hm ▸ hr ▸ Finset.mem_insert_self _ _
      · cases hm
  known k a hka := by
    rw [hd', Dict.get?_set]
    rw [ha, Dict.get?_set] at hka
    split_ifs with hid
    · rfl
    · split_ifs at hka
      · cases hka
        exact absurd hp.dealId hid
      · exact h.known k a hka
  chains i hi := by
    rw [hd', Dict.get?_set] at hi
    split_ifs at hi with hid
    rw [eventsFor_append hc he, if_neg hid, List.append_nil]
    exact h.chains i hi

omit [Platform] in
/-- A pending row that becomes decided, with its event, keeps the balance. -/
theorem Balanced.decided (h : s.Balanced) {req : ApprovalRequest} {deal deal' : Deal}
    {chain g : List Event} {approval : Approval} {status : ApprovalStatus} {entry : ApprovalEntry}
    (hd : s.deals.get? req.dealId = some deal) (hc : s.events.get? req.dealId = some chain)
    (hk : s.approvals.get? req.approvalId = some approval) (hp : approval.status = .pending)
    (hid : req.dealId = approval.dealId) (hst : status ≠ .pending)
    (hop : deal'.openApprovals = max 0 (deal.openApprovals - 1))
    (hd' : s'.deals = s.deals.set req.dealId deal')
    (he : s'.events = s.events.set req.dealId (chain ++ g))
    (ha : s'.approvals = s.approvals.set req.approvalId (req.decide approval status))
    (hs : s'.seenRequests = s.seenRequests) (hg : approvalsOf g = [entry])
    (ho : ∀ operation, status.Had operation ↔ operation = .required ∨ operation = entry.operation)
    (hnr : entry.operation ≠ .required) (hr : entry.requestId = approval.requestId) :
    s'.Balanced where
  counter i d hi := by
    have hdecided : (req.decide approval status).status ≠ .pending := hst
    have hpen := pending_set_decided hk hp hdecided i
    rw [ha]
    rw [hd', Dict.get?_set] at hi
    split_ifs at hi with hii
    · cases hi
      rw [if_pos (hii.trans hid).symm] at hpen
      have hcount := h.counter _ _ hd
      rw [← hii] at hcount
      omega
    · rw [if_neg fun heq => hii (heq.symm.trans hid.symm)] at hpen
      rw [h.counter i d hi]
      omega
  events k a hka i operation := by
    rw [operations_append_one hc he hg, hr]
    rw [ha, Dict.get?_set] at hka
    split_ifs at hka with hkk
    · cases hka
      have hold := h.events _ approval hk i operation
      simp only [ApprovalRequest.decide, hold, hp, hid, ho]
      by_cases hi : i = approval.dealId
      · cases operation <;> cases hop' : entry.operation <;>
          simp_all [ApprovalStatus.Had]
      · simp [hi]
    · have hne : approval.requestId ≠ a.requestId := fun heq =>
        hkk (h.distinct _ _ _ _ hk hka heq).symm
      simp only [hne, and_false, if_false, Nat.add_zero]
      exact h.events k a hka i operation
  distinct k a k' a' hka hka' heq := by
    rw [ha, Dict.get?_set] at hka hka'
    split_ifs at hka hka' with h1 h2 h2
    · exact h1.trans h2.symm
    · cases hka
      exact h1.trans (h.distinct _ _ k' a' hk hka' heq)
    · cases hka'
      exact (h.distinct k a _ _ hka hk heq).trans h2.symm
    · exact h.distinct k a k' a' hka hka' heq
  rows k a hka := by
    rw [hs]
    rw [ha, Dict.get?_set] at hka
    split_ifs at hka
    · cases hka
      exact h.rows _ approval hk
    · exact h.rows k a hka
  entries i e hm := by
    rw [hs]
    rw [approvalsOf_append hc he, hg] at hm
    rcases List.mem_append.1 hm with hm | hm
    · exact h.entries i e hm
    · split_ifs at hm
      · rw [List.mem_singleton] at hm
        exact hm ▸ hr ▸ h.rows _ approval hk
      · cases hm
  known k a hka := by
    rw [hd', Dict.get?_set]
    rw [ha, Dict.get?_set] at hka
    split_ifs with hii
    · rfl
    · split_ifs at hka
      · cases hka
        exact absurd hid.symm hii
      · exact h.known k a hka
  chains i hi := by
    rw [hd', Dict.get?_set] at hi
    split_ifs at hi with hii
    rw [eventsFor_append hc he, if_neg hii, List.append_nil]
    exact h.chains i hi

/-! ## Every step -/

omit [Platform] in
/-- Nothing waits on a deal that is not stored. -/
theorem Balanced.pending_eq_zero (h : s.Balanced) {id : String} (hn : s.deals.get? id = none) :
    Mandate.pending s.approvals id = 0 := by
  refine List.countP_eq_zero.2 fun a ha hp => ?_
  obtain ⟨k, hk⟩ := Dict.mem_values.1 ha
  have hsome := h.known k a hk
  simp only [Bool.decide_and, Bool.and_eq_true, decide_eq_true_eq] at hp
  rw [hp.1, hn] at hsome
  cases hsome

omit [Platform] in
theorem Balanced.createDeal (h : s.Balanced) (dealId createdAt : String) :
    (s.createDeal (.fresh dealId) createdAt).2.Balanced := by
  unfold Store.createDeal
  split_ifs with hs
  · exact h
  · have hn : s.deals.get? dealId = none := Option.not_isSome_iff_eq_none.1 hs
    have hev : ∀ i (s' : Store), s'.events = s.events.set dealId [] →
        s'.eventsFor i = s.eventsFor i := by
      intro i s' he
      by_cases hi : dealId = i
      · subst hi
        rw [h.chains _ hn]
        exact eventsFor_of_get? (he ▸ Dict.get?_set_self ..)
      · exact eventsFor_of_set_ne hi he
    refine h.quiet rfl (fun i d hi => ?_) (fun i hi => ?_) (Finset.Subset.refl _)
      (fun i => by rw [hev i _ rfl]) fun i hi => ?_
    · rw [Dict.get?_set] at hi
      split_ifs at hi with hii
      · cases hi
        rw [hii, show (Deal.fresh dealId).dealId = dealId from rfl, h.pending_eq_zero hn]
        rfl
      · exact h.counter i d hi
    · rw [Dict.get?_set]
      split_ifs
      · rfl
      · exact hi
    · rw [hev i _ rfl]
      rw [Dict.get?_set] at hi
      split_ifs at hi
      exact h.chains i hi

theorem Balanced.processRequest (h : s.Balanced) (pi : PolicyInput) (recordedAt : String)
    (hf : s.approvals.get? (ids 2) = none) :
    (processRequest s pi signer recordedAt ids).2.Balanced := by
  rcases processRequest_cases s pi signer recordedAt ids with hs | ⟨hg, hs⟩
  · rw [hs]; exact h
  · rw [hs]
    obtain ⟨-, hreq, -⟩ := checkAntiReplay_pass.1 hg
    have hreq : (pi.commitRequest recordedAt).requestId ∉ s.seenRequests := of_decide_eq_false hreq
    rcases s.commitRequest_planned (pi.commitRequest recordedAt) signer ids with
      hs | ⟨deal, event, chain, plan, hd, hc, ht, hplan, hs⟩
    · rw [hs]; exact h
    · rw [hs]
      generalize pi.commitRequest recordedAt = req at hreq hd hc ht hplan
      have hid := planCommitRequest_approvalId hplan
      cases requestPlan_of_ok ht hplan with
      | decided mid did ho =>
        exact h.commit_quiet hd hc rfl rfl rfl (Finset.subset_insert ..) rfl
          (approvalsOf_recorded req mid did)
      | applied mid did id token event target ho hv he htr =>
        refine h.commit_quiet hd hc rfl rfl rfl (Finset.subset_insert ..) rfl ?_
        rw [extend, approvalsOf, List.filterMap_append, ← approvalsOf, approvalsOf_recorded]
        exact approvalsOf_eq_nil (by simp)
      | held mid did id aid approval ho ha =>
        have hg : approvalsOf (extend chain.length (lastHash chain genesisHash)
            (req.recorded signer mid did chain.length (lastHash chain genesisHash)) fun n prev =>
              req.requiredEvent signer id n prev approval.approvalId) =
            [⟨.required, req.requestId, req.action, req.amountMinor⟩] := by
          rw [extend, approvalsOf, List.filterMap_append, ← approvalsOf, approvalsOf_recorded]
          simp
        exact h.held hd hc hreq (by rw [hid approval rfl]; exact hf) (pendingApproval_ok ha)
          rfl rfl rfl rfl hg rfl rfl

theorem Balanced.commitTransition (h : s.Balanced) (req : TransitionRequest) :
    (s.commitTransition req signer ids).2.Balanced := by
  have hcases := s.commitTransition_cases req signer ids
  generalize s.commitTransition req signer ids = r at hcases ⊢
  cases hcases with
  | refused r hr => exact h
  | committed deal chain target plan hd hc hn ht hp _ =>
    have hg := hp.approvalsOf
    have hop : plan.newDeal.openApprovals = deal.openApprovals := by cases hp; rfl
    exact h.commit_quiet hd hc rfl rfl rfl (Finset.Subset.refl _) hop hg

theorem Balanced.commitApproval (h : s.Balanced) (req : ApprovalRequest)
    (hf : LedgerOp.Filed s (.commitApproval req)) :
    (s.commitApproval req signer ids).2.Balanced := by
  have hcases := s.commitApproval_cases req signer ids
  generalize s.commitApproval req signer ids = r at hcases ⊢
  cases hcases with
  | refused r hr => exact h
  | committed deal approval decided chain token record revoked plan hd hc ha hs hn hi hp hu _ =>
    obtain ⟨status, operation, hst, ho, hhad, hrow, hg, hop⟩ := hp.approvalsOf
    obtain rfl : decided = req.decide approval status := Option.some.inj (hu.symm.trans hrow)
    exact h.decided hd hc ha hs (hf approval ha) hst hop rfl rfl rfl rfl hg hhad ho rfl

theorem Balanced.commitRevocation (h : s.Balanced) (req : RevocationRequest) :
    (s.commitRevocation req signer ids).2.Balanced := by
  have hcases := s.commitRevocation_cases req signer ids
  generalize s.commitRevocation req signer ids = r at hcases ⊢
  cases hcases with
  | refused r hr => exact h
  | committed deal chain record plan hd hc hn hr hl hp _ =>
    refine h.quiet rfl h.counter (fun _ hi => hi) (Finset.Subset.refl _) (fun i => ?_) fun i hi => ?_
    · rw [approvalsOf_append hc rfl, hp.approvalsOf, ite_self, List.append_nil]
    · rw [eventsFor_append hc rfl, if_neg, List.append_nil]
      · exact h.chains i hi
      · rintro rfl
        rw [show s.deals.get? req.dealId = none from hi] at hd
        cases hd

theorem Balanced.call (h : s.Balanced) (c : Call) (hc : c.Consistent s)
    (hf : s.approvals.get? (ids 2) = none) : (c.run signer ids s).Balanced := by
  cases c with
  | request pi recordedAt => exact h.processRequest pi recordedAt hf
  | other op =>
    cases op with
    | createDeal dealId createdAt => exact h.createDeal dealId createdAt
    | linkDealRecord dealId recordId =>
      obtain ⟨links, hl⟩ := s.linkDealRecord_store dealId recordId
      rw [Call.run, LedgerOp.run, hl]
      exact h.quiet rfl h.counter (fun _ hi => hi) (Finset.Subset.refl _) (fun _ => rfl) h.chains
    | putRecord record =>
      exact h.quiet rfl h.counter (fun _ hi => hi) (Finset.Subset.refl _) (fun _ => rfl) h.chains
    | putRevocation revocation =>
      exact h.quiet rfl h.counter (fun _ hi => hi) (Finset.Subset.refl _) (fun _ => rfl) h.chains
    | commitRequest req => exact hc.elim
    | commitTransition req => exact h.commitTransition req
    | commitApproval req => exact h.commitApproval req hc
    | commitRevocation req => exact h.commitRevocation req

end Store

/-! ## Every run -/

/-- The store under calls with fresh ids, whose decisions name their approval's
    deal. -/
def consistentCalls (signer : GatewaySigner) : System Store where
  init s := s = .empty
  step s s' := ∃ (c : Call) (ids : EventIds), c.Consistent s ∧ s.FreshIds ids ∧
    s' = c.run signer ids s

theorem balanced_invariant (signer : GatewaySigner) :
    (consistentCalls signer).Invariant Store.Balanced where
  init := by
    rintro s rfl
    exact ⟨by rintro id d ⟨⟩, by rintro k a ⟨⟩, by rintro k a k' a' ⟨⟩, by rintro k a ⟨⟩,
      by rintro id e ⟨⟩, by rintro k a ⟨⟩, fun _ _ => rfl⟩
  step := by
    rintro s s' - h ⟨c, ids, hc, hf, rfl⟩
    exact h.call c hc (hf 2)

/-- A step leaves every decided row as it is. -/
theorem decided_row_step {signer : GatewaySigner} {s s' : Store}
    (h : (consistentCalls signer).step s s') {k : String} {a : Approval}
    (ha : s.approvals.get? k = some a) (hd : a.status ≠ .pending) :
    s'.approvals.get? k = some a := by
  obtain ⟨c, ids, hc, hf, rfl⟩ := h
  have hstep := c.approvalsStep s signer ids
  generalize c.op = op at hstep
  generalize c.run signer ids s = s' at hstep ⊢
  cases hstep with
  | kept op s' hs => rw [hs]; exact ha
  | held req aid approval s' hp hid hs =>
    -- the new row has a new id
    have hne : k ≠ approval.approvalId := by
      rintro rfl
      rw [hid, hf 2] at ha
      cases ha
    rw [hs, Dict.get?_set_ne _ _ hne]
    exact ha
  | decided req approval status s' hrow hp hst hs =>
    have hne : k ≠ req.approvalId := by
      rintro rfl
      rw [ha] at hrow
      cases hrow
      exact hd hp
    rw [hs, Dict.get?_set_ne _ _ hne]
    exact ha

/-- In every run, the counters, the rows and the approval events agree: a
    deal's counter is the number of its pending rows; a row has exactly one
    event of each operation it has had, on its own deal's chain, and none of
    any other; and a decided row never changes again. -/
theorem approvals_balanced {signer : GatewaySigner} {s : Store}
    (hr : (consistentCalls signer).Reachable s) :
    (∀ id deal, s.deals.get? id = some deal → deal.openApprovals = pending s.approvals id) ∧
      (∀ k a, s.approvals.get? k = some a → ∀ id operation,
        operations (s.eventsFor id) operation a.requestId =
          if id = a.dealId ∧ a.status.Had operation then 1 else 0) ∧
      ∀ s', Relation.ReflTransGen (consistentCalls signer).step s s' →
        ∀ k a, s.approvals.get? k = some a → a.status ≠ .pending →
          s'.approvals.get? k = some a := by
  have h := (balanced_invariant signer).holds hr
  refine ⟨h.counter, h.events, fun s' hrun k a ha hd => ?_⟩
  induction hrun with
  | refl => exact ha
  | tail _ hs ih => exact decided_row_step hs ih hd

end

section
open Sample
attribute [local instance] Sample.platform

/-- Every step up to the agreement that waits for a person is consistent. -/
theorem Sample.held_consistent : (consistentCalls signer).Reachable held := by
  have hfresh : ∀ s : Store, s.approvals = .empty → s.FreshIds ids := fun s hs n => by rw [hs]; rfl
  have h0 : (consistentCalls signer).step .empty registered :=
    ⟨.other (.createDeal dealId start.text), ids, trivial, hfresh _ rfl, rfl⟩
  have h1 : (consistentCalls signer).step registered
      (LedgerOp.run signer ids registered (.commitTransition quoteRequested)) :=
    ⟨.other (.commitTransition quoteRequested), ids, trivial, hfresh _ rfl, rfl⟩
  have h2 : (consistentCalls signer).step
      (LedgerOp.run signer ids registered (.commitTransition quoteRequested)) offered :=
    ⟨.other (.commitTransition { quoteRequested with event := .quoteReceived, commandId := ulid 'E' }),
      ids, trivial, hfresh _ rfl, rfl⟩
  have h3 : (consistentCalls signer).step offered held :=
    ⟨.request agreement now.text, ids, trivial, hfresh _ rfl, rfl⟩
  exact ((((System.Reachable.init rfl).step h0).step h1).step h2).step h3

/-- The approval that waits is pending, and its request is asked for once. -/
theorem approvals_balanced_held :
    (held.approvals.get? (ids 2)).map Approval.status = some .pending ∧
      ∀ k a, held.approvals.get? k = some a → ∀ id operation,
        operations (held.eventsFor id) operation a.requestId =
          if id = a.dealId ∧ a.status.Had operation then 1 else 0 :=
  ⟨by decide +kernel, (approvals_balanced held_consistent).2.1⟩

end

end Mandate
