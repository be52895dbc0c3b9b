/-
  The limits of a mandate over whole runs.

  A request is held against the counters of the deal it is decided on, a grant
  against none.  So the amount committed on a deal stays within the cap and
  what was granted (`spend_within_cap`), and the negotiation rounds stay within
  their limit exactly when no counteroffer is granted at the limit
  (`rounds_within_limit_iff`); `counteroffers_past_limit` is a run that grants
  two.
-/
import Mandate.Application.Calls
import Mandate.Application.Grants
import Mandate.Policy.Permitted

namespace Mandate

section
variable [Platform]

variable {signer : GatewaySigner} {ids : EventIds} {s s' : Store} {id : String}

/-! ## What moves a deal's counters -/

/-- How an operation changes the amount and the rounds of a stored deal: not
    at all, or by one event of an allowed request, of the boundary, or of a
    grant. -/
inductive RowStep (id : String) (s : Store) (deal : Deal) (s' : Store) : LedgerOp → Deal → Prop
  | same (op : LedgerOp) (deal' : Deal) (hc : deal'.committedMinor = deal.committedMinor)
      (hr : deal'.negotiatedRounds = deal.negotiatedRounds) : RowStep id s deal s' op deal'
  | allowed (req : CommitRequest) (token : ActionToken) (event : DealEvent) (target : DealState)
      (hid : req.dealId = id) (ho : req.decision.outcome = .allow) (hv : token.value = req.action)
      (he : actionEvents token = some event) :
      RowStep id s deal s' (.commitRequest req) (applyEvent deal event target req.amountMinor)
  | crossed (req : TransitionRequest) (target : DealState) (hid : req.dealId = id) :
      RowStep id s deal s' (.commitTransition req)
        (applyEvent deal req.event target req.amountMinor)
  | granted (req : ApprovalRequest) (approval : Approval) (token : ActionToken) (event : DealEvent)
      (target : DealState) (hid : req.dealId = id) (hg : Grants s req deal approval event)
      (hv : token.value = req.action) (he : actionEvents token = some event)
      (ha : s'.approvals.get? req.approvalId = some (req.decide approval .granted)) :
      RowStep id s deal s' (.commitApproval req)
        (applyEvent deal event target req.amountMinor).closeApproval

theorem DealStep.row {op : LedgerOp} (h : DealStep signer id s op s') {deal : Deal}
    (hd : s.deals.get? id = some deal) :
    ∃ deal', s'.deals.get? id = some deal' ∧ RowStep id s deal s' op deal' := by
  cases h with
  | kept op s' hd' he => exact ⟨deal, hd' ▸ hd, .same op deal rfl rfl⟩
  | created createdAt s' hn hd' he =>
    rw [hn] at hd
    cases hd
  | requested req deal' chain plan hid hd' hc hp =>
    obtain rfl : deal' = deal := Option.some.inj (hd'.symm.trans hd)
    refine ⟨plan.newDeal, hid ▸ Dict.get?_set_self .., ?_⟩
    cases hp with
    | decided mid did ho => exact .same _ _ rfl rfl
    | applied mid did eid token event target ho hv he ht =>
      exact .allowed req token event target hid ho hv he
    | held mid did eid aid approval ho ha => exact .same _ _ rfl rfl
  | transitioned req deal' chain target plan hid hd' hc hn ht hp hs =>
    obtain rfl : deal' = deal := Option.some.inj (hd'.symm.trans hd)
    refine ⟨plan.newDeal, hid ▸ Dict.get?_set_self .., ?_⟩
    cases hp with
    | applied mid eid => exact .crossed req target hid
  | decided req deal' approval decided chain token record revoked plan hid hd' hc ha hs hn hi hp hu ht =>
    obtain rfl : deal' = deal := Option.some.inj (hd'.symm.trans hd)
    refine ⟨plan.newDeal, hid ▸ Dict.get?_set_self .., ?_⟩
    cases hp with
    | denied eid denyReason hv => exact .same _ _ rfl rfl
    | granted aid eid approvalRecord action event target ho har hk hg he htr =>
      subst hk
      cases hu
      have hgrants : Grants s req deal' approval event := ⟨hid ▸ hd', by rw [hid, hc]; rfl, ha, hs, hn,
        ho, by rw [har]; rfl, grantInputs_ok ho hi hg, ht⟩
      obtain ⟨token, record', revoked', hv, -, hcheck⟩ := hgrants.recheck
      obtain ⟨-, -, -, -, he', -⟩ := grantRecheck_ok hcheck
      exact .granted req approval token event target hid hgrants hv he' (Dict.get?_set_self ..)
  | revoked req deal' chain plan hid hd' hc hp => exact ⟨deal, hd, .same _ _ rfl rfl⟩

/-- A deal that an operation stores is a fresh one. -/
theorem DealStep.created_row {op : LedgerOp} (h : DealStep signer id s op s')
    (hn : s.deals.get? id = none) {deal : Deal} (hd : s'.deals.get? id = some deal) :
    deal = .fresh id := by
  cases h with
  | kept op s' hd' he => rw [hd', hn] at hd; cases hd
  | created createdAt s' hn' hd' he => rw [hd'] at hd; cases hd; rfl
  | requested req deal' chain plan hid hd' hc hp => rw [hn] at hd'; cases hd'
  | transitioned req deal' chain target plan hid hd' hc _ ht hp hs => rw [hn] at hd'; cases hd'
  | decided req deal' approval decided chain token record revoked plan hid hd' =>
    rw [hn] at hd'; cases hd'
  | revoked req deal' chain plan hid hd' hc hp => rw [hn] at hd'; cases hd'

/-! ## Spending -/

/-- What an approval adds to the committed amount once it is granted. -/
def Approval.spends (a : Approval) : ℤ :=
  if a.action = ActionToken.acceptAgreement.value ∨ a.action = ActionToken.approveChangeOrder.value
  then a.amountMinor.getD 0 else 0

/-- The approval that a step grants, with the deal it is granted on. -/
def grantOf (d : Done Store Call) : Option (String × Approval) :=
  match d.label with
  | .other (.commitApproval req) =>
    ((d.before.approvals.get? req.approvalId).filter fun a => a.status = .pending ∧
      (d.after.approvals.get? req.approvalId).map Approval.status = some .granted).map
        fun a => (req.dealId, a)
  | _ => none

/-- The approvals granted in a run, each with the deal it is granted on. -/
def grantsIn (done : List (Done Store Call)) : List (String × Approval) := done.filterMap grantOf

/-- What the approvals granted on a deal add up to. -/
def grantedAmount (dealId : String) (done : List (Done Store Call)) : ℤ :=
  (((grantsIn done).filter fun g => g.1 = dealId).map fun g => g.2.spends).sum

/-- Requests on the deal use the record and the stored deal, boundary
    transitions on it carry no amount, and grants on it carry the action and
    amount of the pending approval. -/
def Call.Accounted (dealId : String) (record : AuthorityRecord) (s : Store) : Call → Prop
  | request pi _ => pi.deal.dealId = dealId → pi.authority.record = record ∧
      ∀ deal ∈ s.deals.get? dealId, deal = pi.deal
  | other (.commitRequest _) => False
  | other (.commitTransition req) => req.dealId = dealId → req.amountMinor = none
  | other (.commitApproval req) => req.dealId = dealId → req.operation = .granted →
      ∀ a ∈ s.approvals.get? req.approvalId, req.action = a.action ∧ req.amountMinor = a.amountMinor
  | _ => True

omit [Platform] in
theorem grantedAmount_cons_some {dealId : String} {d : Done Store Call} {g : String × Approval}
    (h : grantOf d = some g) (done : List (Done Store Call)) :
    grantedAmount dealId (d :: done) =
      (if g.1 = dealId then g.2.spends else 0) + grantedAmount dealId done := by
  simp only [grantedAmount, grantsIn, List.filterMap_cons, h, List.filter_cons, decide_eq_true_eq]
  split_ifs <;> simp

omit [Platform] in
theorem grantedAmount_cons_none {dealId : String} {d : Done Store Call} (h : grantOf d = none)
    (done : List (Done Store Call)) :
    grantedAmount dealId (d :: done) = grantedAmount dealId done := by
  simp only [grantedAmount, grantsIn, List.filterMap_cons, h]

omit [Platform] in
theorem grantOf_row {d : Done Store Call} {g : String × Approval} (h : grantOf d = some g) :
    ∃ req, d.label = .other (.commitApproval req) ∧ g.1 = req.dealId ∧
      d.before.approvals.get? req.approvalId = some g.2 := by
  unfold grantOf at h
  split at h
  · rename_i req hl
    obtain ⟨a, ha, rfl⟩ := Option.map_eq_some_iff.1 h
    exact ⟨req, hl, rfl, (Option.filter_eq_some_iff.1 ha).1⟩
  · cases h

/-- Approval rows carry no negative amount. -/
def Store.Priced (s : Store) : Prop :=
  ∀ approvalId approval, s.approvals.get? approvalId = some approval →
    0 ≤ approval.amountMinor.getD 0

omit [Platform] in
theorem Store.Priced.spends (h : s.Priced) {approvalId : String} {approval : Approval}
    (ha : s.approvals.get? approvalId = some approval) : 0 ≤ approval.spends := by
  unfold Approval.spends
  split_ifs
  · exact h _ _ ha
  · exact le_rfl

omit [Platform] in
theorem Store.Priced.set (h : s.Priced) {approvalId : String} {approval : Approval}
    (ha : 0 ≤ approval.amountMinor.getD 0)
    (hs : s'.approvals = s.approvals.set approvalId approval) : s'.Priced := by
  intro k a hk
  rw [hs, Dict.get?_set] at hk
  split_ifs at hk
  · cases hk; exact ha
  · exact h k a hk

theorem pendingApproval_amount {req : CommitRequest} {aid : String} {approval : Approval}
    (h : req.pendingApproval aid = .ok approval) : 0 ≤ approval.amountMinor.getD 0 := by
  obtain ⟨requestId, -, h⟩ := bind_ok.1 h
  obtain ⟨createdAt, -, h⟩ := bind_ok.1 h
  obtain ⟨amount, -, h⟩ := bind_ok.1 h
  cases h
  cases amount with
  | none => exact le_rfl
  | some n => exact Int.natCast_nonneg n

theorem Store.Priced.call (h : s.Priced) (c : Call) : (c.run signer ids s).Priced := by
  have hstep := c.approvalsStep s signer ids
  generalize c.op = op at hstep
  generalize c.run signer ids s = s' at hstep ⊢
  cases hstep with
  | kept op s' hs => intro k a hk; exact h k a (hs ▸ hk)
  | held req aid approval s' ha hid hs => exact h.set (pendingApproval_amount ha) hs
  | decided req approval status s' ha hp hst hs =>
    have hpos : 0 ≤ (req.decide approval status).amountMinor.getD 0 := h _ approval ha
    exact h.set hpos hs

/-! ### One step -/

omit [Platform] in
/-- Committing events are those of the two committing actions. -/
theorem spends_of_event {approval : Approval} {token : ActionToken} {event : DealEvent}
    (he : actionEvents token = some event) (hv : token.value = approval.action)
    (hc : event = .agreementReached ∨ event = .changeApproved) :
    approval.spends = approval.amountMinor.getD 0 := by
  refine if_pos ?_
  rw [← hv]
  rcases hc with rfl | rfl <;> (cases token <;> cases he)
  · exact .inl rfl
  · exact .inr rfl

omit [Platform] in
theorem applyEvent_committedMinor (deal : Deal) (event : DealEvent) (target : DealState)
    (amount : Option ℤ) : (applyEvent deal event target amount).committedMinor =
      if event = .agreementReached ∨ event = .changeApproved then
        deal.committedMinor + amount.getD 0 else deal.committedMinor := rfl

omit [Platform] in
theorem grantedAmount_mono (hp : s.Priced) (c : Call) (s' : Store) (dealId : String)
    (done : List (Done Store Call)) :
    grantedAmount dealId done ≤ grantedAmount dealId (⟨s, c, s'⟩ :: done) := by
  cases hg : grantOf ⟨s, c, s'⟩ with
  | none => rw [grantedAmount_cons_none hg]
  | some g =>
    obtain ⟨req, -, -, ha⟩ := grantOf_row hg
    have := hp.spends ha
    rw [grantedAmount_cons_some hg]
    split_ifs <;> omega

/-- A step adds no negative amount, and takes the total past neither the cap
    nor what is granted. -/
theorem spend_step {record : AuthorityRecord} {c : Call} (hc : c.Accounted id record s)
    (hp : s.Priced) {deal deal' : Deal} (hd : s.deals.get? id = some deal)
    (hrow : RowStep id s deal s' c.op deal') {done : List (Done Store Call)}
    (h0 : 0 ≤ grantedAmount id done)
    (hle : deal.committedMinor ≤ record.spendCap.amountMinor + grantedAmount id done) :
    deal.committedMinor ≤ deal'.committedMinor ∧ deal'.committedMinor ≤
      record.spendCap.amountMinor + grantedAmount id (⟨s, c, s'⟩ :: done) := by
  have hmono := grantedAmount_mono hp c s' id done
  generalize hop : c.op = op at hrow
  cases hrow with
  | same op deal' hcm hr => rw [hcm]; exact ⟨le_rfl, by omega⟩
  | allowed req token event target hid ho hv he =>
    cases c with
    | other op => cases hop; exact hc.elim
    | request pi recordedAt =>
      cases hop
      obtain ⟨hrec, hstored⟩ := hc hid
      obtain rfl := hstored deal hd
      obtain ⟨-, -, action, hv', hperm⟩ := permitted_of_allow ho
      rw [applyEvent_committedMinor]
      split_ifs
      · cases ham : pi.proposal.amount with
        | none =>
          simp only [PolicyInput.commitRequest, ham, Option.getD_none]
          omega
        | some amount =>
          have hcap := (hperm.spend amount ham).2
          have hpos : 0 ≤ amount := by
            obtain ⟨n, -, rfl⟩ := Option.map_eq_some_iff.1 ham
            exact Int.natCast_nonneg n
          rw [hrec] at hcap
          simp only [PolicyInput.commitRequest, ham, Option.getD_some]
          omega
      · exact ⟨le_rfl, by omega⟩
  | crossed req target hid =>
    cases c with
    | request pi recordedAt => cases hop
    | other op =>
      cases hop
      rw [applyEvent_committedMinor, hc hid]
      split_ifs
      · simp only [Option.getD_none]; omega
      · exact ⟨le_rfl, by omega⟩
  | granted req approval token event target hid hg hv he ha =>
    cases c with
    | request pi recordedAt => cases hop
    | other op =>
      cases hop
      obtain ⟨haction, hamount⟩ := hc hid hg.operation approval hg.row
      have hgrant : grantOf ⟨s, .other (.commitApproval req), s'⟩ = some (req.dealId, approval) := by
        simp [grantOf, hg.row, hg.pending, ha, ApprovalRequest.decide]
      have hpos := hp _ _ hg.row
      have hclose : ∀ d : Deal, d.closeApproval.committedMinor = d.committedMinor := fun _ => rfl
      rw [hclose, applyEvent_committedMinor]
      split_ifs with hev
      · have hspends := spends_of_event he (hv.trans haction) hev
        rw [grantedAmount_cons_some hgrant, if_pos hid, hamount]
        simp only
        omega
      · exact ⟨le_rfl, by omega⟩

/-! ### Every run -/

/-- The amounts are in order: none is negative, and the deal is within the cap
    and what was granted on it. -/
structure WithinCap (dealId : String) (record : AuthorityRecord) (done : List (Done Store Call))
    (s : Store) : Prop where
  priced : s.Priced
  granted : 0 ≤ grantedAmount dealId done
  total : ∀ deal, s.deals.get? dealId = some deal → 0 ≤ deal.committedMinor ∧
    deal.committedMinor ≤ record.spendCap.amountMinor + grantedAmount dealId done

/-- The steps in which a deal's amounts are accounted for. -/
abbrev spendStep (signer : GatewaySigner) (dealId : String) (record : AuthorityRecord) :=
  callStep signer (Call.Accounted dealId record)

theorem withinCap_of_run {dealId : String} {record : AuthorityRecord}
    {done : List (Done Store Call)}
    (hr : Run (· = Store.empty) (spendStep signer dealId record) done s) :
    WithinCap dealId record done s := by
  induction hr with
  | init hs =>
    subst hs
    exact ⟨by rintro k a ⟨⟩, le_rfl, by rintro deal ⟨⟩⟩
  | @step done s s' c hr hs ih =>
    obtain ⟨hc, ids, rfl⟩ := hs
    have hmono := grantedAmount_mono ih.priced c (c.run signer ids s) dealId done
    refine ⟨ih.priced.call c, ih.granted.trans hmono, fun deal' hd' => ?_⟩
    have hstep := c.dealStep s signer ids dealId
    cases hd : s.deals.get? dealId with
    | none =>
      obtain rfl := hstep.created_row hd hd'
      have := ih.granted.trans hmono
      simp only [Deal.fresh]
      omega
    | some deal =>
      obtain ⟨deal'', hd'', hrow⟩ := hstep.row hd
      obtain rfl : deal' = deal'' := Option.some.inj (hd'.symm.trans hd'')
      obtain ⟨hnonneg, hle⟩ := ih.total deal hd
      obtain ⟨hup, hle'⟩ := spend_step hc ih.priced hd hrow ih.granted hle
      exact ⟨hnonneg.trans hup, hle'⟩

/-- In every run, the committed amount of a deal is within the cap and what
    the approvals granted on it add up to, and no step lowers it.  Where
    decisions name their approval's deal, these are the deal's own approvals. -/
theorem spend_within_cap {dealId : String} {record : AuthorityRecord}
    {done : List (Done Store Call)}
    (hr : Run (· = Store.empty) (spendStep signer dealId record) done s) {deal : Deal}
    (hd : s.deals.get? dealId = some deal) :
    0 ≤ deal.committedMinor ∧
      deal.committedMinor ≤ record.spendCap.amountMinor + grantedAmount dealId done ∧
      (∀ d ∈ done, ∀ before ∈ d.before.deals.get? dealId, ∃ after ∈ d.after.deals.get? dealId,
        before.committedMinor ≤ after.committedMinor) ∧
      ((∀ d ∈ done, d.label.op.Filed d.before) →
        ∀ g ∈ grantsIn done, g.1 = g.2.dealId) := by
  obtain ⟨hnonneg, hle⟩ := (withinCap_of_run hr).total deal hd
  refine ⟨hnonneg, hle, ?_, fun hf g hg => ?_⟩
  · clear hd hnonneg hle
    induction hr with
    | init hs => intro d hd; cases hd
    | @step done s s' c hr hs ih =>
      intro d hd before hb
      rcases List.mem_cons.1 hd with rfl | hd
      · obtain ⟨hc, ids, rfl⟩ := hs
        have hcap := withinCap_of_run hr
        obtain ⟨after, ha, hrow⟩ := (c.dealStep s signer ids dealId).row hb
        exact ⟨after, ha,
          (spend_step hc hcap.priced hb hrow hcap.granted (hcap.total before hb).2).1⟩
      · exact ih d hd before hb
  · obtain ⟨d, hd, hgrant⟩ := List.mem_filterMap.1 hg
    obtain ⟨req, hl, hid, ha⟩ := grantOf_row hgrant
    have hfiled := hf d hd
    rw [hl] at hfiled
    exact hid.trans (hfiled g.2 ha)

/-! ## Negotiating -/

/-- Requests on the deal use the record and the stored deal, and the boundary
    sends it no counteroffer. -/
def Call.Negotiates (dealId : String) (record : AuthorityRecord) (s : Store) : Call → Prop
  | request pi _ => pi.deal.dealId = dealId → pi.authority.record = record ∧
      ∀ deal ∈ s.deals.get? dealId, deal = pi.deal
  | other (.commitRequest _) => False
  | other (.commitTransition req) => req.dealId = dealId → req.event ≠ .counteroffered
  | _ => True

/-- No counteroffer is granted on the deal once its rounds are used up. -/
def Call.Paced (dealId : String) (record : AuthorityRecord) (s : Store) : Call → Prop
  | other (.commitApproval req) => req.dealId = dealId → ∀ deal approval event,
      Grants s req deal approval event → event = .counteroffered →
        deal.negotiatedRounds < record.maxNegotiationRounds
  | _ => True

omit [Platform] in
theorem applyEvent_negotiatedRounds (deal : Deal) (event : DealEvent) (target : DealState)
    (amount : Option ℤ) : (applyEvent deal event target amount).negotiatedRounds =
      if event = .counteroffered then deal.negotiatedRounds + 1 else deal.negotiatedRounds := rfl

omit [Platform] in
theorem mem_negotiationActions {token : ActionToken}
    (he : actionEvents token = some .counteroffered) : token ∈ negotiationActions := by
  cases token <;> cases he
  decide

/-- A granted counteroffer takes one more round. -/
theorem rounds_of_grant {req : ApprovalRequest} {deal deal' : Deal} {approval : Approval}
    (hg : Grants s req deal approval .counteroffered)
    (hd' : (s.commitApproval req signer ids).2.deals.get? req.dealId = some deal') :
    deal'.negotiatedRounds = deal.negotiatedRounds + 1 := by
  obtain ⟨chain, token, target, record, -, -, -, -, -, hcommit⟩ :=
    commitApproval_of_grants hg signer ids
  rw [hcommit] at hd'
  have hnew : (applyEvent deal .counteroffered target req.amountMinor).closeApproval = deal' :=
    Option.some.inj ((Dict.get?_set_self ..).symm.trans hd')
  rw [← hnew]
  rfl

/-- A step lowers no rounds, and leaves them within the limit exactly when they
    were and the step is paced. -/
theorem rounds_step {record : AuthorityRecord} {c : Call} (hc : c.Negotiates id record s)
    {deal deal' : Deal} (hd : s.deals.get? id = some deal)
    (hd' : (c.run signer ids s).deals.get? id = some deal')
    (hrow : RowStep id s deal (c.run signer ids s) c.op deal') :
    deal.negotiatedRounds ≤ deal'.negotiatedRounds ∧
      (deal'.negotiatedRounds ≤ record.maxNegotiationRounds ↔
        deal.negotiatedRounds ≤ record.maxNegotiationRounds ∧ c.Paced id record s) := by
  -- an event takes one round or none
  have hevent : ∀ event target amount, deal.negotiatedRounds ≤
      (applyEvent deal event target amount).negotiatedRounds := by
    intro event target amount
    rw [applyEvent_negotiatedRounds]
    split_ifs <;> omega
  have hup : deal.negotiatedRounds ≤ deal'.negotiatedRounds := by
    generalize c.op = op at hrow
    cases hrow with
    | same op deal' hcm hr => rw [hr]
    | allowed req token event target hid ho hv he => exact hevent ..
    | crossed req target hid => exact hevent ..
    | granted req approval token event target hid hg hv he ha =>
      exact hevent event target req.amountMinor
  refine ⟨hup, fun hle => ⟨hup.trans hle, ?_⟩, fun ⟨hle, hpaced⟩ => ?_⟩
  · cases c with
    | request pi recordedAt => trivial
    | other op =>
      cases op with
      | commitApproval req =>
        intro hid deal₂ approval event hg he
        subst hid he
        obtain rfl : deal = deal₂ := Option.some.inj (hd.symm.trans hg.stored)
        have := rounds_of_grant hg hd'
        omega
      | _ => trivial
  · generalize hop : c.op = op at hrow
    cases hrow with
    | same op deal' hcm hr => rw [hr]; exact hle
    | allowed req token event target hid ho hv he =>
      cases c with
      | other op => cases hop; exact hc.elim
      | request pi recordedAt =>
        cases hop
        obtain ⟨hrec, hstored⟩ := hc hid
        obtain rfl := hstored deal hd
        obtain ⟨-, -, action, hv', hperm⟩ := permitted_of_allow ho
        obtain rfl : token = action := StrEnum.value_inj (hv.trans hv'.symm)
        rw [applyEvent_negotiatedRounds]
        split_ifs with hev
        · have := hperm.rounds (mem_negotiationActions (hev ▸ he))
          rw [hrec] at this
          omega
        · exact hle
    | crossed req target hid =>
      cases c with
      | request pi recordedAt => cases hop
      | other op =>
        cases hop
        rw [applyEvent_negotiatedRounds, if_neg (hc hid)]
        exact hle
    | granted req approval token event target hid hg hv he ha =>
      cases c with
      | request pi recordedAt => cases hop
      | other op =>
        cases hop
        have hclose : ∀ d : Deal, d.closeApproval.negotiatedRounds = d.negotiatedRounds :=
          fun _ => rfl
        rw [hclose, applyEvent_negotiatedRounds]
        split_ifs with hev
        · have := hpaced hid deal approval event hg hev
          omega
        · exact hle

/-- The steps in which a deal's rounds are held against the record. -/
abbrev roundStep (signer : GatewaySigner) (dealId : String) (record : AuthorityRecord) :=
  callStep signer (Call.Negotiates dealId record)

/-- Nothing is granted on a deal that is not stored. -/
theorem paced_of_none {record : AuthorityRecord} (c : Call) (hd : s.deals.get? id = none) :
    c.Paced id record s := by
  cases c with
  | request pi recordedAt => trivial
  | other op =>
    cases op with
    | commitApproval req =>
      intro hid deal approval event hg
      have hstored := hg.stored
      rw [hid, hd] at hstored
      cases hstored
    | _ => trivial

/-- In every run, the rounds of a deal stay within the record's limit exactly
    when the limit is not negative and no counteroffer is granted on the deal
    once its rounds are used up. -/
theorem rounds_within_limit_iff {dealId : String} {record : AuthorityRecord}
    {done : List (Done Store Call)}
    (hr : Run (· = Store.empty) (roundStep signer dealId record) done s) {deal : Deal}
    (hd : s.deals.get? dealId = some deal) :
    deal.negotiatedRounds ≤ record.maxNegotiationRounds ↔
      0 ≤ record.maxNegotiationRounds ∧ ∀ d ∈ done, d.label.Paced dealId record d.before := by
  have hrun : (∀ deal, s.deals.get? dealId = some deal → (deal.negotiatedRounds ≤
      record.maxNegotiationRounds ↔ 0 ≤ record.maxNegotiationRounds ∧
        ∀ d ∈ done, d.label.Paced dealId record d.before)) ∧
      (s.deals.get? dealId = none → ∀ d ∈ done, d.label.Paced dealId record d.before) := by
    clear hd
    induction hr with
    | init hs =>
      subst hs
      exact ⟨by rintro deal ⟨⟩, fun _ d hd => by cases hd⟩
    | @step done s s' c hr hs ih =>
      obtain ⟨hc, ids, rfl⟩ := hs
      have hstep := c.dealStep s signer ids dealId
      cases hb : s.deals.get? dealId with
      | none =>
        have hpaced : ∀ d ∈ ⟨s, c, c.run signer ids s⟩ :: done,
            d.label.Paced dealId record d.before :=
          List.forall_mem_cons.2 ⟨paced_of_none c hb, ih.2 hb⟩
        refine ⟨fun deal hd => ?_, fun _ => hpaced⟩
        obtain rfl := hstep.created_row hb hd
        exact ⟨fun h0 => ⟨h0, hpaced⟩, And.left⟩
      | some before =>
        refine ⟨fun deal hd => ?_, fun hn => ?_⟩
        · obtain ⟨after, ha, hrow⟩ := hstep.row hb
          obtain rfl : deal = after := Option.some.inj (hd.symm.trans ha)
          rw [(rounds_step hc hb hd hrow).2, ih.1 before hb, List.forall_mem_cons, and_assoc,
            and_comm (a := ∀ d ∈ done, _)]
        · obtain ⟨after, ha, -⟩ := hstep.row hb
          rw [hn] at ha
          cases ha
  exact hrun.1 deal hd

end

section
open Sample
attribute [local instance] Sample.platform

/-- The steps that register a deal under the mandate and bring it a quote. -/
def Sample.untilQuote : List Call :=
  [.other (.putRecord record), .other (.createDeal dealId start.text),
    .other (.linkDealRecord dealId record.recordId), .other (.commitTransition quoteRequested),
    .other (.commitTransition { quoteRequested with event := .quoteReceived, commandId := ulid 'E' })]

def Sample.quotedDeal : Store := untilQuote.foldl (Call.run signer ids) .empty

/-- A counteroffer over the cap, on the quoted deal with so many approvals
    open. -/
def Sample.overCap (openApprovals : ℤ) (n : Char) : Call :=
  .request (input { Deal.fresh dealId with state := .quoteReceived, openApprovals } .counteroffer
    (some 150000) n) now.text

def Sample.firstHeld : Store := (overCap 0 '1').run signer ids quotedDeal

def Sample.secondHeld : Store := (overCap 1 '2').run signer (fun n => ids (n + 4)) firstHeld

/-- The operator grants a counteroffer. -/
def Sample.grantOffer (approvalId : String) (command : Char) : ApprovalRequest :=
  { grant 150000 with
    approvalId, commandId := ulid command, action := ActionToken.counteroffer.value }

def Sample.firstGranted : Store :=
  (Call.other (.commitApproval (grantOffer (ids 2) 'G'))).run signer ids secondHeld

def Sample.secondGranted : Store :=
  (Call.other (.commitApproval (grantOffer (ids 6) 'H'))).run signer ids firstGranted

/-- The calls on the sample deal, with everything the callers promise. -/
def Sample.promised (s : Store) (c : Call) : Prop :=
  c.Negotiates dealId record s ∧ c.Accounted dealId record s ∧ c.op.Filed s

theorem Sample.quotedDeal_run :
    ∃ done, Run (· = Store.empty) (callStep signer promised) done quotedDeal ∧
      done.map Done.label = untilQuote.reverse := by
  have hempty : Run (· = Store.empty) (callStep signer promised) [] .empty := .init rfl
  rw [← List.append_nil untilQuote.reverse]
  refine hempty.foldl fun c hc s => ?_
  simp only [untilQuote, List.mem_cons, List.not_mem_nil, or_false] at hc
  rcases hc with rfl | rfl | rfl | rfl | rfl <;>
    exact ⟨⟨by simp [Call.Negotiates, quoteRequested], by simp [Call.Accounted, quoteRequested],
      trivial⟩, ids, rfl⟩

/-- What the sample run stores: the deal as each counteroffer is decided on
    it, the rows that the grants repeat, and the rounds in the end. -/
theorem Sample.offers_stored :
    quotedDeal.deals.get? dealId = some { Deal.fresh dealId with state := .quoteReceived } ∧
      firstHeld.deals.get? dealId =
        some { Deal.fresh dealId with state := .quoteReceived, openApprovals := 1 } ∧
      (secondHeld.approvals.get? (ids 2)).map (fun a => (a.dealId, a.action, a.amountMinor)) =
        some (dealId, ActionToken.counteroffer.value, some 150000) ∧
      (firstGranted.approvals.get? (ids 6)).map (fun a => (a.dealId, a.action, a.amountMinor)) =
        some (dealId, ActionToken.counteroffer.value, some 150000) ∧
      (secondGranted.deals.get? dealId).map Deal.negotiatedRounds = some 2 := by
  decide +kernel

/-- A request on the stored deal, under the mandate. -/
theorem Sample.request_promised {s : Store} {deal : Deal} (h : s.deals.get? dealId = some deal)
    (action : ActionToken) (amountMinor : Option ℕ) (n : Char) :
    promised s (.request (input deal action amountMinor n) now.text) := by
  have hcall : ∀ deal' ∈ s.deals.get? dealId, deal' = deal :=
    fun deal' hd => Option.some.inj (hd.symm.trans h)
  exact ⟨fun _ => ⟨rfl, hcall⟩, fun _ => ⟨rfl, hcall⟩, trivial⟩

/-- A grant that repeats the stored row. -/
theorem Sample.grant_promised {s : Store} {req : ApprovalRequest}
    (h : (s.approvals.get? req.approvalId).map (fun a => (a.dealId, a.action, a.amountMinor)) =
      some (req.dealId, req.action, req.amountMinor)) :
    promised s (.other (.commitApproval req)) := by
  have hrow : ∀ a ∈ s.approvals.get? req.approvalId, req.dealId = a.dealId ∧
      req.action = a.action ∧ req.amountMinor = a.amountMinor := by
    intro a ha
    rw [Option.mem_def.1 ha, Option.map_some, Option.some.injEq, Prod.mk.injEq, Prod.mk.injEq] at h
    exact ⟨h.1.symm, h.2.1.symm, h.2.2.symm⟩
  exact ⟨trivial, fun _ _ a ha => (hrow a ha).2, fun a ha => (hrow a ha).1⟩

theorem Sample.secondGranted_run :
    ∃ done, Run (· = Store.empty) (callStep signer promised) done secondGranted := by
  obtain ⟨done, hr, -⟩ := quotedDeal_run
  obtain ⟨hquoted, hfirst, hrow, hrow', -⟩ := offers_stored
  have h1 : callStep signer promised quotedDeal (overCap 0 '1') firstHeld :=
    ⟨request_promised hquoted _ _ _, ids, rfl⟩
  have h2 : callStep signer promised firstHeld (overCap 1 '2') secondHeld :=
    ⟨request_promised hfirst _ _ _, _, rfl⟩
  have h3 : callStep signer promised secondHeld _ firstGranted := ⟨grant_promised hrow, ids, rfl⟩
  have h4 : callStep signer promised firstGranted _ secondGranted :=
    ⟨grant_promised hrow', ids, rfl⟩
  exact ⟨_, (((hr.step h1).step h2).step h3).step h4⟩

/-- Under a mandate of one round, two granted counteroffers take two. -/
theorem counteroffers_past_limit :
    ∃ done s, Run (· = Store.empty) (callStep signer promised) done s ∧
      ∃ deal, s.deals.get? dealId = some deal ∧ 0 ≤ record.maxNegotiationRounds ∧
        record.maxNegotiationRounds < deal.negotiatedRounds := by
  obtain ⟨done, hr⟩ := secondGranted_run
  obtain ⟨-, -, -, -, hrounds⟩ := offers_stored
  obtain ⟨deal, hd, hr2⟩ := Option.map_eq_some_iff.1 hrounds
  refine ⟨done, secondGranted, hr, deal, hd, by decide, ?_⟩
  rw [hr2]
  decide

/-- What was promised is enough for both laws. -/
theorem Sample.promised_run {may : Store → Call → Prop} (hmay : ∀ s c, promised s c → may s c)
    {done : List (Done Store Call)} {s : Store}
    (hr : Run (· = Store.empty) (callStep signer promised) done s) :
    Run (· = Store.empty) (callStep signer may) done s := by
  induction hr with
  | init hs => exact .init hs
  | step _ hs ih => exact ih.step ⟨hmay _ _ hs.1, hs.2⟩

/-- The sample run is not paced. -/
theorem rounds_within_limit_iff_granted :
    ∃ done deal, Run (· = Store.empty) (roundStep signer dealId record) done secondGranted ∧
      secondGranted.deals.get? dealId = some deal ∧
      (deal.negotiatedRounds ≤ record.maxNegotiationRounds ↔
        0 ≤ record.maxNegotiationRounds ∧ ∀ d ∈ done, d.label.Paced dealId record d.before) := by
  obtain ⟨done, hr⟩ := secondGranted_run
  have hr := promised_run (fun s c hc => hc.1) hr
  obtain ⟨-, -, -, -, hrounds⟩ := offers_stored
  obtain ⟨deal, hd, -⟩ := Option.map_eq_some_iff.1 hrounds
  exact ⟨done, deal, hr, hd, rounds_within_limit_iff hr hd⟩

/-- The quote is accepted within the cap. -/
def Sample.acceptQuote : Call :=
  .request (input { Deal.fresh dealId with state := .quoteReceived } .acceptAgreement (some 60000)
    '1') now.text

def Sample.agreed : Store := acceptQuote.run signer ids quotedDeal

/-- Work starts, and a change is asked for. -/
def Sample.untilChange : List Call :=
  [.other (.commitTransition { quoteRequested with event := .workStarted, commandId := ulid 'F' }),
    .other (.commitTransition
      { quoteRequested with event := .changeRequested, commandId := ulid 'K' })]

def Sample.changeAsked : Store := untilChange.foldl (Call.run signer fun n => ids (n + 3)) agreed

/-- With the change, the cap is passed. -/
def Sample.change : PolicyInput :=
  input { Deal.fresh dealId with state := .changeRequested, committedMinor := 60000 }
    .approveChangeOrder (some 70000) '2'

def Sample.changeHeld : Store :=
  (Call.request change now.text).run signer (fun n => ids (n + 5)) changeAsked

/-- The operator grants the change. -/
def Sample.grantChange : ApprovalRequest :=
  { grant 70000 with
    approvalId := ids 7, action := ActionToken.approveChangeOrder.value
    approvalRecord := some (makeApprovalRecord (ulid 'S') dealId (ulid '2') (ulid 'R')
      ActionToken.approveChangeOrder.value (some 70000) "EUR" (proposalDigest change) now signer) }

def Sample.changeGranted : Store :=
  (Call.other (.commitApproval grantChange)).run signer (fun n => ids (n + 8)) changeHeld

/-- What this run stores. -/
theorem Sample.change_stored :
    changeAsked.deals.get? dealId = some change.deal ∧
      (changeHeld.approvals.get? (ids 7)).map (fun a => (a.dealId, a.action, a.amountMinor)) =
        some (dealId, ActionToken.approveChangeOrder.value, some 70000) ∧
      (changeHeld.approvals.get? (ids 7)).map Approval.status = some .pending ∧
      (changeGranted.approvals.get? (ids 7)).map Approval.status = some .granted ∧
      (changeGranted.deals.get? dealId).map Deal.committedMinor = some 130000 := by
  decide +kernel

/-- The last step of this run grants what was asked for. -/
theorem Sample.grantOf_change : ∃ a,
    grantOf ⟨changeHeld, .other (.commitApproval grantChange), changeGranted⟩ = some (dealId, a) ∧
      a.spends = 70000 := by
  obtain ⟨-, hrow, hpending, hgranted, -⟩ := change_stored
  obtain ⟨a, ha, hfields⟩ := Option.map_eq_some_iff.1 hrow
  obtain ⟨-, hfields⟩ := Prod.mk.inj hfields
  obtain ⟨haction, hminor⟩ := Prod.mk.inj hfields
  have hstatus : a.status = .pending := by
    rw [ha] at hpending
    exact Option.some.inj hpending
  have hheld : changeHeld.approvals.get? grantChange.approvalId = some a := ha
  have hnow : (changeGranted.approvals.get? grantChange.approvalId).map Approval.status =
      some .granted := hgranted
  refine ⟨a, ?_, by simp [Approval.spends, haction, hminor]⟩
  simp only [grantOf, hheld, hnow, Option.filter_some, hstatus, and_self, decide_true, if_true,
    Option.map_some]
  rfl

/-- Only decisions grant. -/
theorem Sample.grantedAmount_of_labels {done : List (Done Store Call)}
    (h : ∀ c ∈ done.map Done.label, ∀ req, c ≠ .other (.commitApproval req)) :
    grantedAmount dealId done = 0 := by
  induction done with
  | nil => rfl
  | cons d done ih =>
    obtain ⟨hd, hdone⟩ := List.forall_mem_cons.1 h
    have hnone : grantOf d = none := by
      unfold grantOf
      split
      · exact absurd ‹_› (hd _)
      · rfl
    rw [grantedAmount_cons_none hnone, ih hdone]

/-- An allowed agreement over 600.00 and a granted change over 700.00, under a
    cap of 1000.00. -/
theorem spend_within_cap_granted :
    ∃ done, Run (· = Store.empty) (spendStep signer dealId record) done changeGranted ∧
      ∃ deal, changeGranted.deals.get? dealId = some deal ∧ deal.committedMinor = 130000 ∧
        grantedAmount dealId done = 70000 ∧
        deal.committedMinor ≤ record.spendCap.amountMinor + grantedAmount dealId done := by
  obtain ⟨done, hr, hl⟩ := quotedDeal_run
  obtain ⟨hquoted, -⟩ := offers_stored
  obtain ⟨hasked, hrow, -, -, htotal⟩ := change_stored
  have hagreed : callStep signer promised quotedDeal acceptQuote agreed :=
    ⟨request_promised hquoted _ _ _, ids, rfl⟩
  have hopen : ∀ c ∈ untilChange, ∀ s,
      callStep signer promised s c (c.run signer (fun n => ids (n + 3)) s) := by
    intro c hc s
    simp only [untilChange, List.mem_cons, List.not_mem_nil, or_false] at hc
    rcases hc with rfl | rfl <;>
      exact ⟨⟨by simp [Call.Negotiates, quoteRequested], by simp [Call.Accounted, quoteRequested],
        trivial⟩, _, rfl⟩
  obtain ⟨done', hr', hl'⟩ := (hr.step hagreed).foldl hopen
  have hheld : callStep signer promised changeAsked (.request change now.text) changeHeld :=
    ⟨request_promised hasked _ _ _, _, rfl⟩
  have hgrant : callStep signer promised changeHeld (.other (.commitApproval grantChange))
      changeGranted := ⟨grant_promised hrow, _, rfl⟩
  have hrun := promised_run (fun s c hc => hc.2.1) ((hr'.step hheld).step hgrant)
  -- the last step is the only one that grants
  have hnone : grantedAmount dealId done' = 0 := by
    refine grantedAmount_of_labels fun c hc req => ?_
    rw [hl', List.map_cons, hl, List.mem_append, List.mem_reverse, List.mem_cons,
      List.mem_reverse] at hc
    simp only [untilChange, untilQuote, List.mem_cons, List.not_mem_nil, or_false] at hc
    rintro rfl
    simp [acceptQuote] at hc
  have hamount : grantedAmount dealId (⟨changeHeld, .other (.commitApproval grantChange),
      changeGranted⟩ :: ⟨changeAsked, .request change now.text, changeHeld⟩ :: done') = 70000 := by
    obtain ⟨a, hgrants, hspends⟩ := grantOf_change
    rw [grantedAmount_cons_some hgrants, if_pos rfl, grantedAmount_cons_none rfl, hnone, hspends,
      add_zero]
  obtain ⟨deal, hd, hcommitted⟩ := Option.map_eq_some_iff.1 htotal
  exact ⟨_, hrun, deal, hd, hcommitted, hamount, (spend_within_cap hrun hd).2.1⟩

end

end Mandate
