/-
  The service with the discipline of an operator's boundary.

  A request is decided on the stored deal under the mandate linked to it, an
  external event carries no amount, and a decision on an approval repeats the
  row it decides (`Call.Proper`).  Over every run of such calls the books of
  each deal are in order: the committed amount is covered by the cap and by the
  grants on its own chain, the counter of open approvals counts its pending
  rows, and nothing moved the deal that was not allowed or granted
  (`Orderly.books`).  Once a mandate is revoked, no such call moves a deal under
  it (`Conducts.unmoved`).
-/
import Mandate.Application.ApprovalLedger
import Mandate.Application.Limits
import Mandate.Application.NoAutonomousCommit
import Mandate.Application.Revocations
import Mandate.Ledger.Writing

namespace Mandate

section
variable [Platform]

/-- What an operator's boundary promises of a call at a time. -/
def Call.Proper (signer : GatewaySigner) (now : Timestamp) (s : Store) : Call → Prop
  | request pi recordedAt => recordedAt = now.text ∧ s.deals.get? pi.deal.dealId = some pi.deal ∧
      (∃ recordId, s.dealLinks.get? pi.deal.dealId = some recordId ∧
        s.records.get? recordId = some pi.authority.record) ∧
      buildClaim s signer pi.authority.record now.text = .ok pi.authority
  | other (.putRecord record) => s.records.get? record.recordId = none
  | other (.commitTransition req) => req.amountMinor = none ∧ req.authorityRecordId = none
  | other (.commitApproval req) => req.occurredAt = now.text ∧
      ∃ a, s.approvals.get? req.approvalId = some a ∧ req.dealId = a.dealId ∧
        req.action = a.action ∧ req.amountMinor = a.amountMinor ∧
        req.authorityRecordId = a.authorityRecordId
  | other (.commitRevocation req) => req.occurredAt = now.text ∧ req.revocation.Signed signer ∧
      req.revocation.revokedAt.instant ≤ now.instant ∧
      ∀ old ∈ s.revocations.get? req.revocation.revocationId, old = req.revocation
  | other (.commitRequest _) | other (.putRevocation _) => False
  | other (.createDeal _ _) | other (.linkDealRecord _ _) => True

/-- The steps of proper calls with fresh ids. -/
def properStep (signer : GatewaySigner) (s : Store) (c : Call) (s' : Store) : Prop :=
  ∃ now ids, c.Proper signer now s ∧ s.FreshIds ids ∧ s' = c.run signer ids s

/-- Proper calls at one time. -/
def Conducts (signer : GatewaySigner) (now : Timestamp) : Store → Store → Prop :=
  Relation.ReflTransGen fun s s' => ∃ c ids, Call.Proper signer now s c ∧ s.FreshIds ids ∧
    s' = c.run signer ids s

/-! ## What proper calls promise -/

variable {signer : GatewaySigner} {s s' : Store} {c : Call} {id : String} {now : Timestamp}

theorem Call.Proper.filed (h : c.Proper signer now s) : c.op.Filed s := by
  cases c with
  | request pi recordedAt => trivial
  | other op =>
    cases op with
    | commitApproval req =>
      obtain ⟨-, a, ha, hdeal, -⟩ := h
      intro a' ha'
      rw [ha] at ha'
      cases ha'
      exact hdeal
    | _ => trivial

theorem Call.Proper.consistent (h : c.Proper signer now s) : c.Consistent s := by
  have hf := h.filed
  cases c with
  | request pi recordedAt => exact hf
  | other op =>
    cases op with
    | commitRequest req => exact h.elim
    | _ => exact hf

/-- A run of proper calls is one of consistent calls. -/
theorem balanced_of_run {done : List (Done Store Call)}
    (h : Run (· = Store.empty) (properStep signer) done s) : s.Balanced := by
  refine (balanced_invariant signer).holds ?_
  induction h with
  | init hs => exact .init hs
  | step _ hs ih =>
    obtain ⟨now, ids, hc, hf, rfl⟩ := hs
    exact ih.step ⟨_, ids, hc.consistent, hf, rfl⟩

/-- A run of proper calls is one of the service whose decisions are filed. -/
theorem filedService_of_run {done : List (Done Store Call)}
    (h : Run (· = Store.empty) (properStep signer) done s) : (filedService signer).Reachable s := by
  induction h with
  | init hs => exact .init hs
  | @step done s s' c _ hs ih =>
    obtain ⟨now, ids, hc, hf, rfl⟩ := hs
    refine ih.step ?_
    cases c with
    | request pi recordedAt => exact .request pi recordedAt ids
    | other op =>
      refine .other op ids ?_ hc.filed
      cases op with
      | commitRequest req => exact hc.elim
      | _ => trivial

/-! ## Links and records -/

/-- A proper call moves no link, and changes no record. -/
structure Grows (s s' : Store) : Prop where
  links : s.dealLinks.Le s'.dealLinks
  records : s.records.Le s'.records
  keyed : s'.Keyed

omit [Platform] in
theorem Grows.of_eq (hk : s.Keyed) (hl : s'.dealLinks = s.dealLinks) (hr : s'.records = s.records) :
    Grows s s' := by
  refine ⟨?_, ?_, fun k r h => hk k r (hr ▸ h)⟩
  · rw [hl]
    exact .refl _
  · rw [hr]
    exact .refl _

omit [Platform] in
theorem Grows.trans {s'' : Store} (h : Grows s s') (h' : Grows s' s'') : Grows s s'' :=
  ⟨h.links.trans h'.links, h.records.trans h'.records, h'.keyed⟩

theorem Call.Proper.grows (h : c.Proper signer now s) (hk : s.Keyed) (ids : EventIds) :
    Grows s (c.run signer ids s) := by
  cases c with
  | request pi recordedAt =>
    obtain ⟨-, hd, ⟨recordId, hl, hr⟩, -⟩ := h
    rcases processRequest_cases s pi signer recordedAt ids with hs | ⟨-, hs⟩
    · rw [Call.run, hs]
      exact .of_eq hk rfl rfl
    · rw [Call.run, hs]
      have hcases := s.commitRequest_cases (pi.commitRequest recordedAt) signer ids
      generalize s.commitRequest (pi.commitRequest recordedAt) signer ids = r at hcases ⊢
      cases hcases with
      | refused r hr => exact .of_eq hk rfl rfl
      | committed deal chain plan hd hc hp ht =>
        refine ⟨.refl _, Dict.le_set.2 fun old hold => ?_, fun k r hget => ?_⟩
        · have hid : pi.authority.record.recordId = recordId := hk _ _ hr
          have hold : s.records.get? pi.authority.record.recordId = some old := hold
          rw [hid, hr] at hold
          exact (Option.some.inj hold).symm
        · simp only [Store.afterRequest, Dict.get?_set] at hget
          split_ifs at hget with hkey
          · cases hget
            exact hkey.symm
          · exact hk k r hget
  | other op =>
    cases op with
    | commitRequest req => exact h.elim
    | putRevocation revocation => exact h.elim
    | createDeal dealId createdAt =>
      simp only [Call.run, LedgerOp.run, Store.createDeal]
      split_ifs
      · exact .of_eq hk rfl rfl
      · exact .of_eq hk rfl rfl
    | linkDealRecord dealId recordId =>
      simp only [Call.run, LedgerOp.run, Store.linkDealRecord]
      split
      · rename_i existing hl
        split_ifs with hne
        · exact .of_eq hk rfl rfl
        · refine ⟨Dict.le_set.2 fun old hold => ?_, .refl _, hk⟩
          rw [hl] at hold
          cases hold
          exact not_not.1 hne
      · rename_i hl
        refine ⟨Dict.le_set.2 fun old hold => ?_, .refl _, hk⟩
        rw [hl] at hold
        cases hold
    | putRecord record =>
      refine ⟨.refl _, Dict.le_set.2 fun old hold => ?_, hk.putRecord rfl⟩
      have hn : s.records.get? record.recordId = none := h
      rw [hn] at hold
      cases hold
    | commitTransition req =>
      have hcases := s.commitTransition_cases req signer ids
      rw [Call.run, LedgerOp.run]
      generalize s.commitTransition req signer ids = r at hcases ⊢
      cases hcases <;> exact .of_eq hk rfl rfl
    | commitApproval req =>
      have hcases := s.commitApproval_cases req signer ids
      rw [Call.run, LedgerOp.run]
      generalize s.commitApproval req signer ids = r at hcases ⊢
      cases hcases <;> exact .of_eq hk rfl rfl
    | commitRevocation req =>
      have hcases := s.commitRevocation_cases req signer ids
      rw [Call.run, LedgerOp.run]
      generalize s.commitRevocation req signer ids = r at hcases ⊢
      cases hcases <;> exact .of_eq hk rfl rfl

/-- What a run of proper calls stored stays as it was stored. -/
theorem grows_of_run {done : List (Done Store Call)}
    (h : Run (· = Store.empty) (properStep signer) done s) :
    s.Keyed ∧ ∀ d ∈ done, Grows d.before s := by
  induction h with
  | init hs =>
    subst hs
    exact ⟨by rintro k r ⟨⟩, by rintro d ⟨⟩⟩
  | @step done s s' c _ hs ih =>
    obtain ⟨now, ids, hc, -, rfl⟩ := hs
    have hgrows := hc.grows ih.1 ids
    refine ⟨hgrows.keyed, fun d hd => ?_⟩
    rcases List.mem_cons.1 hd with rfl | hd
    · exact hgrows
    · exact (ih.2 d hd).trans hgrows

/-! ## Grants on a chain -/

/-- What an approval event says was added to the committed amount. -/
def ApprovalEntry.spends (e : ApprovalEntry) : ℤ :=
  if e.action = ActionToken.acceptAgreement.value ∨ e.action = ActionToken.approveChangeOrder.value
  then e.amountMinor.getD 0 else 0

/-- What the grants logged on a chain add up to. -/
def grantedOn (chain : List Event) : ℤ :=
  (((approvalsOf chain).filter fun e => e.operation = .granted).map ApprovalEntry.spends).sum

omit [Platform] in
theorem grantedOn_append (chain g : List Event) :
    grantedOn (chain ++ g) = grantedOn chain + grantedOn g := by
  simp [grantedOn, approvalsOf, List.filterMap_append]

omit [Platform] in
/-- A group whose approval events grant nothing. -/
theorem grantedOn_eq_zero {g : List Event} (h : ∀ e ∈ approvalsOf g, e.operation ≠ .granted) :
    grantedOn g = 0 := by
  have hnone : (approvalsOf g).filter (fun e => e.operation = .granted) = [] := by
    rw [List.filter_eq_nil_iff]
    intro e he
    simpa using h e he
  rw [grantedOn, hnone]
  rfl

section
variable {deal : Deal} {seq : ℕ} {prevHash : String} {plan : CommitPlan}

/-- A processed request logs no grant. -/
theorem RequestPlan.grantedOn {req : CommitRequest}
    (h : RequestPlan signer deal seq prevHash req plan) : grantedOn plan.events = 0 := by
  refine grantedOn_eq_zero fun e he => ?_
  cases h with
  | decided mid did ho =>
    rw [approvalsOf_recorded] at he
    cases he
  | applied mid did eid token event target ho hv hev ht =>
    rw [extend, approvalsOf, List.filterMap_append, ← approvalsOf, approvalsOf_recorded] at he
    rw [← approvalsOf, approvalsOf_eq_nil (by simp)] at he
    cases he
  | held mid did eid aid approval ho ha =>
    rw [extend, approvalsOf, List.filterMap_append, ← approvalsOf, approvalsOf_recorded] at he
    obtain rfl : e = ⟨.required, req.requestId, req.action, req.amountMinor⟩ := by simpa using he
    simp

end

/-- Only a decision on an approval logs a grant. -/
theorem DealStep.grantedOn {op : LedgerOp} (h : DealStep signer id s op s')
    (hn : s.deals.get? id = none → s.eventsFor id = [])
    (hop : ∀ req, op ≠ .commitApproval req) :
    Mandate.grantedOn (s'.eventsFor id) = Mandate.grantedOn (s.eventsFor id) := by
  have hquiet : ∀ {chain g : List Event} {s'' : Store}, s.events.get? id = some chain →
      s''.events = s.events.set id (chain ++ g) → Mandate.grantedOn g = 0 →
      Mandate.grantedOn (s''.eventsFor id) = Mandate.grantedOn (s.eventsFor id) := by
    intro chain g s'' hc he hg
    rw [Store.eventsFor_append hc he, if_pos rfl, grantedOn_append, hg, add_zero]
  cases h with
  | kept op s' hd he => rw [he]
  | created createdAt s' hd hd' he => rw [he, hn hd]
  | requested req deal chain plan hid hd hc hp =>
    subst hid
    exact hquiet hc rfl hp.grantedOn
  | transitioned req deal chain target plan hid hd hc hs ht hp hst =>
    subst hid
    exact hquiet hc rfl (grantedOn_eq_zero (by simp [hp.approvalsOf]))
  | decided req => exact absurd rfl (hop req)
  | revoked req deal chain plan hid hd hc hp =>
    subst hid
    exact hquiet hc rfl (grantedOn_eq_zero (by simp [hp.approvalsOf]))

/-- A decision logs what it grants. -/
theorem grantedOn_commitApproval {req : ApprovalRequest} {ids : EventIds}
    (hc : Call.Proper signer now s (.other (.commitApproval req))) {done : List (Done Store Call)}
    (ih : grantedAmount id done = grantedOn (s.eventsFor id)) :
    grantedAmount id
        (⟨s, .other (.commitApproval req), (s.commitApproval req signer ids).2⟩ :: done) =
      grantedOn ((s.commitApproval req signer ids).2.eventsFor id) := by
  obtain ⟨-, a, ha, hdeal, haction, hamount, -⟩ := hc
  have hcases := s.commitApproval_cases req signer ids
  generalize s.commitApproval req signer ids = r at hcases ⊢
  cases hcases with
  | refused r hr =>
    rw [grantedAmount_cons_none, ih]
    simp only [grantOf, ha, Option.map_some, Option.map_eq_none_iff, Option.filter_eq_none_iff]
    rintro b hb
    cases hb
    simp +contextual
  | committed deal approval decided chain token record revoked plan hd hch ha' hs hn hi hp hu ht =>
    obtain rfl : a = approval := Option.some.inj (ha.symm.trans ha')
    obtain ⟨status, operation, hst, ho, hhad, hrow, hlogged, -⟩ := hp.approvalsOf
    obtain rfl : decided = req.decide a status := Option.some.inj (hu.symm.trans hrow)
    have hg : status = .granted ↔ operation = .granted := by
      have := hhad .granted
      constructor
      · rintro rfl
        simpa [ApprovalStatus.Had, eq_comm] using this
      · rintro rfl
        cases status <;> simp_all [ApprovalStatus.Had]
    have hlog : grantedOn plan.events = if status = .granted then a.spends else 0 := by
      simp only [grantedOn, hlogged, hg, List.filter_cons, List.filter_nil, decide_eq_true_eq]
      split_ifs
      · simp only [ApprovalEntry.spends, Approval.spends, haction, hamount, List.map_cons,
          List.map_nil, List.sum_cons, List.sum_nil, add_zero]
      · rfl
    have happend : (s.afterApproval req chain plan (req.decide a status)).eventsFor id =
        s.eventsFor id ++ if id = req.dealId then plan.events else [] :=
      Store.eventsFor_append hch rfl id
    rw [happend, grantedOn_append, ← ih]
    by_cases hgrant : status = .granted
    · have hgrants : grantOf ⟨s, .other (.commitApproval req),
          s.afterApproval req chain plan (req.decide a status)⟩ = some (req.dealId, a) := by
        simp [grantOf, ha, hs, Store.afterApproval, ApprovalRequest.decide, hgrant]
      rw [grantedAmount_cons_some hgrants, add_comm]
      simp only [eq_comm (a := req.dealId)]
      split_ifs with hid
      · rw [hlog, if_pos hgrant]
      · rfl
    · have hnone : grantOf ⟨s, .other (.commitApproval req),
          s.afterApproval req chain plan (req.decide a status)⟩ = none := by
        simp [grantOf, ha, Store.afterApproval, ApprovalRequest.decide, hgrant]
      rw [grantedAmount_cons_none hnone]
      split_ifs
      · rw [hlog, if_neg hgrant, add_zero]
      · exact (add_zero _).symm

/-- The amounts that a run grants on a deal are those its chain logs. -/
theorem grantedAmount_of_run {done : List (Done Store Call)}
    (h : Run (· = Store.empty) (properStep signer) done s) (id : String) :
    grantedAmount id done = grantedOn (s.eventsFor id) := by
  induction h with
  | init hs =>
    subst hs
    rfl
  | @step done s s' c hr hs ih =>
    obtain ⟨now, ids, hc, -, rfl⟩ := hs
    have hquiet : grantOf ⟨s, c, c.run signer ids s⟩ = none →
        grantedOn ((c.run signer ids s).eventsFor id) = grantedOn (s.eventsFor id) →
        grantedAmount id (⟨s, c, c.run signer ids s⟩ :: done) =
          grantedOn ((c.run signer ids s).eventsFor id) := by
      intro hg he
      rw [grantedAmount_cons_none hg, ih, he]
    by_cases hgrant : ∃ req, c = .other (.commitApproval req)
    · obtain ⟨req, rfl⟩ := hgrant
      exact grantedOn_commitApproval hc ih
    · refine hquiet ?_ ((c.dealStep s signer ids id).grantedOn ((balanced_of_run hr).chains id) ?_)
      · unfold grantOf
        split
        · rename_i req hl
          exact absurd ⟨req, hl⟩ hgrant
        · rfl
      · intro req hop
        cases c with
        | request pi recordedAt => cases hop
        | other op => exact hgrant ⟨req, congrArg Call.other hop⟩

/-! ## Spending -/

/-- The requests of a run were decided under the record that is linked at its
    end. -/
theorem accounted_of_run {done : List (Done Store Call)}
    (h : Run (· = Store.empty) (properStep signer) done s) {recordId : String}
    {record : AuthorityRecord} (hl : s.dealLinks.get? id = some recordId)
    (hr : s.records.get? recordId = some record) :
    Run (· = Store.empty) (spendStep signer id record) done s := by
  refine h.imp fun d hd => ?_
  obtain ⟨before, c, after⟩ := d
  rintro ⟨now, ids, hc, -, hafter⟩
  have hgrows := (grows_of_run h).2 _ hd
  refine ⟨?_, ids, hafter⟩
  cases c with
  | request pi recordedAt =>
    obtain ⟨-, hdeal, ⟨recordId', hl', hr'⟩, -⟩ := hc
    intro hid
    rw [hid] at hdeal hl'
    have hsame : recordId' = recordId :=
      Option.some.inj ((hgrows.links _ _ hl').symm.trans hl)
    have hrecord : pi.authority.record = record :=
      Option.some.inj ((hgrows.records _ _ (hsame ▸ hr')).symm.trans hr)
    refine ⟨hrecord, fun deal hget => ?_⟩
    exact Option.some.inj (hget.symm.trans hdeal)
  | other op =>
    cases op with
    | commitRequest req => exact hc
    | commitTransition req => exact fun _ => hc.1
    | commitApproval req =>
      obtain ⟨-, a, ha, -, haction, hamount, -⟩ := hc
      intro _ _ a' ha'
      rw [show before.approvals.get? req.approvalId = some a from ha] at ha'
      cases ha'
      exact ⟨haction, hamount⟩
    | _ => trivial

/-! ## Revocations -/

/-- A proper call at a later time appends no transition under a record that was
    revoked before. -/
theorem Call.Proper.sound {t : ℤ} (h : c.Proper signer now s) (ht : t ≤ now.instant)
    (hs : Race.Sound ⟨s, t, []⟩ signer) (ids : EventIds) :
    Race.Sound ⟨c.run signer ids s, now.instant, []⟩ signer := by
  have hlater : Race.Sound ⟨s, now.instant, []⟩ signer := hs.wait ht []
  have hsetUp : ∀ op : LedgerOp, op.SetsUp s →
      Race.Sound ⟨op.run signer ids s, now.instant, []⟩ signer := fun _ ho => hlater.setUp ho
  cases c with
  | request pi recordedAt =>
    obtain ⟨rfl, -, -, hclaim⟩ := h
    rcases processRequest_cases s pi signer now.text ids with heq | ⟨-, heq⟩
    · rw [Call.run, heq]
      exact hlater
    · rw [Call.run, heq]
      refine hs.commit ht fun hallow claim hbuilt => ?_
      obtain rfl : pi.authority = claim := Except.ok.inj (hclaim.symm.trans hbuilt)
      exact (permitted_of_allow hallow).inForce.notRevoked
  | other op =>
    cases op with
    | createDeal dealId createdAt => exact hsetUp (.createDeal dealId createdAt) trivial
    | linkDealRecord dealId recordId => exact hsetUp (.linkDealRecord dealId recordId) trivial
    | putRecord record => exact hsetUp (.putRecord record) trivial
    | putRevocation revocation => exact h.elim
    | commitRequest req => exact h.elim
    | commitTransition req => exact hlater.transition h.2 ids
    | commitApproval req =>
      obtain ⟨hat, a, ha, -, -, -, hauth⟩ := h
      refine hs.decide ht hat fun b hb => ?_
      rw [show s.approvals.get? req.approvalId = some a from ha] at hb
      cases hb
      exact hauth
    | commitRevocation req => exact hs.revoke ht h.1 h.2.1 h.2.2.2

/-- Every stored revocation is validly signed, and of a time up to `t`. -/
def Store.Dated (s : Store) (signer : GatewaySigner) (t : ℤ) : Prop :=
  ∀ id r, s.revocations.get? id = some r → r.Signed signer ∧ r.revokedAt.instant ≤ t

/-- How proper calls change the stored revocations. -/
theorem Call.Proper.revocations (h : c.Proper signer now s) (ids : EventIds) :
    (c.run signer ids s).revocations = s.revocations ∨
      ∃ r : Revocation, r.Signed signer ∧ r.revokedAt.instant ≤ now.instant ∧
        (∀ old ∈ s.revocations.get? r.revocationId, old = r) ∧
        (c.run signer ids s).revocations = s.revocations.set r.revocationId r := by
  cases c with
  | request pi recordedAt =>
    rcases processRequest_cases s pi signer recordedAt ids with heq | ⟨-, heq⟩
    · exact .inl (by rw [Call.run, heq])
    · have hcases := s.commitRequest_cases (pi.commitRequest recordedAt) signer ids
      rw [Call.run, heq]
      generalize s.commitRequest (pi.commitRequest recordedAt) signer ids = r at hcases ⊢
      cases hcases <;> exact .inl rfl
  | other op =>
    rw [Call.run]
    cases op with
    | commitRequest req => exact h.elim
    | putRevocation revocation => exact h.elim
    | putRecord record => exact .inl rfl
    | createDeal dealId createdAt =>
      simp only [LedgerOp.run, Store.createDeal]
      split_ifs <;> exact .inl rfl
    | linkDealRecord dealId recordId =>
      obtain ⟨links, hl⟩ := s.linkDealRecord_store dealId recordId
      exact .inl (by rw [LedgerOp.run, hl])
    | commitTransition req =>
      have hcases := s.commitTransition_cases req signer ids
      rw [LedgerOp.run]
      generalize s.commitTransition req signer ids = r at hcases ⊢
      cases hcases <;> exact .inl rfl
    | commitApproval req =>
      have hcases := s.commitApproval_cases req signer ids
      rw [LedgerOp.run]
      generalize s.commitApproval req signer ids = r at hcases ⊢
      cases hcases <;> exact .inl rfl
    | commitRevocation req =>
      have hcases := s.commitRevocation_cases req signer ids
      rw [LedgerOp.run]
      generalize s.commitRevocation req signer ids = r at hcases ⊢
      cases hcases with
      | refused r hr => exact .inl rfl
      | committed => exact .inr ⟨_, h.2.1, h.2.2.1, h.2.2.2, rfl⟩

theorem Call.Proper.dated {t : ℤ} (h : c.Proper signer now s) (ht : t ≤ now.instant)
    (hs : s.Dated signer t) (ids : EventIds) : (c.run signer ids s).Dated signer now.instant := by
  intro id r hr
  rcases h.revocations ids with heq | ⟨r', hsigned, hat, -, heq⟩
  · rw [heq] at hr
    exact ⟨(hs id r hr).1, (hs id r hr).2.trans ht⟩
  · rw [heq, Dict.get?_set] at hr
    split_ifs at hr
    · cases hr
      exact ⟨hsigned, hat⟩
    · exact ⟨(hs id r hr).1, (hs id r hr).2.trans ht⟩

/-- A revoked record stays revoked. -/
theorem Call.Proper.revokedFrom {t : ℤ} (h : c.Proper signer now s) (ht : t ≤ now.instant)
    {recordId : String} (hr : s.RevokedFrom signer recordId t) (ids : EventIds) :
    (c.run signer ids s).RevokedFrom signer recordId now.instant := by
  rcases h.revocations ids with heq | ⟨r, -, -, hfresh, heq⟩
  · exact (hr.congr heq).later ht
  · exact (hr.set hfresh heq).later ht

/-- No transition of the group is under the record. -/
def Unmoved (recordId : String) (g : List Event) : Prop :=
  ∀ e ∈ g, e.eventType = .stateTransition → e.authorityRecordId ≠ some recordId

theorem unmoved_recorded {req : CommitRequest} {mid did recordId prevHash : String} {seq : ℕ} :
    Unmoved recordId (req.recorded signer mid did seq prevHash) := by
  intro e he ht
  rcases List.mem_append.1 he with he | he
  · simp [mem_messages he] at ht
  · rw [List.mem_singleton] at he
    subst he
    simp at ht

omit [Platform] in
theorem Unmoved.append {recordId : String} {g g' : List Event} (h : Unmoved recordId g)
    (h' : Unmoved recordId g') : Unmoved recordId (g ++ g') := by
  intro e he
  rcases List.mem_append.1 he with he | he
  · exact h e he
  · exact h' e he

omit [Platform] in
theorem unmoved_singleton {recordId : String} {e : Event}
    (h : e.eventType = .stateTransition → e.authorityRecordId ≠ some recordId) :
    Unmoved recordId [e] := by
  intro e' he
  rw [List.mem_singleton] at he
  exact he ▸ h

/-- A proper call moves no deal under a revoked record. -/
theorem Call.Proper.unmoved {t : ℤ} (h : c.Proper signer now s) (ht : t ≤ now.instant)
    (hk : s.Keyed) (hn : s.deals.get? id = none → s.eventsFor id = []) {recordId : String}
    (hr : s.RevokedFrom signer recordId t) (ids : EventIds) :
    ∃ g, (c.run signer ids s).eventsFor id = s.eventsFor id ++ g ∧ Unmoved recordId g := by
  have hstep := c.dealStep s signer ids id
  generalize hop : c.op = op at hstep
  generalize hs' : c.run signer ids s = s' at hstep ⊢
  have happend : ∀ {chain : List Event} {plan : CommitPlan} {s'' : Store},
      s.events.get? id = some chain → s''.events = s.events.set id (chain ++ plan.events) →
        Unmoved recordId plan.events →
        ∃ g, s''.eventsFor id = s.eventsFor id ++ g ∧ Unmoved recordId g := by
    intro chain plan s'' hc he hg
    exact ⟨plan.events, by rw [Store.eventsFor_append hc he, if_pos rfl], hg⟩
  cases hstep with
  | kept op s' hd he => exact ⟨[], by rw [he, List.append_nil], by rintro e ⟨⟩⟩
  | created createdAt s' hnone hd he => exact ⟨[], by rw [he, hn hnone]; rfl, by rintro e ⟨⟩⟩
  | requested req deal chain plan hid hd hc hp =>
    subst hid
    refine happend hc rfl ?_
    cases c with
    | other op =>
      cases hop
      exact h.elim
    | request pi recordedAt =>
      cases hop
      obtain ⟨-, -, -, hclaim⟩ := h
      cases hp with
      | decided mid did ho => exact unmoved_recorded
      | applied mid did eid token event target ho hv hev htr =>
        refine unmoved_recorded.append (unmoved_singleton fun _ hauth => ?_)
        obtain rfl : pi.authority.record.recordId = recordId := Option.some.inj hauth
        have hstatus := hr.claimAt ht
        have hbuilt : pi.authority = s.claimAt signer pi.authority.record now := by
          rw [buildClaim_text] at hclaim
          exact (Except.ok.inj hclaim).symm
        rw [← hbuilt] at hstatus
        exact (permitted_of_allow ho).inForce.notRevoked hstatus
      | held mid did eid aid approval ho ha =>
        exact unmoved_recorded.append (unmoved_singleton (by simp))
  | transitioned req deal chain target plan hid hd hc hnew htr hp hst =>
    subst hid
    refine happend hc rfl ?_
    obtain rfl : c = .other (.commitTransition req) := by
      cases c with
      | request => cases hop
      | other op => exact congrArg Call.other hop
    cases hp with
    | applied mid eid =>
      refine Unmoved.append (fun e he htr' => ?_) (unmoved_singleton fun _ hauth => ?_)
      · simp [mem_transitionMessages he] at htr'
      · have hauth : req.authorityRecordId = some recordId := hauth
        rw [h.2] at hauth
        cases hauth
  | decided req deal approval decided chain token record revoked plan hid hd hc ha hst hnew hi hp hu
      hstamp =>
    subst hid
    refine happend hc rfl ?_
    obtain rfl : c = .other (.commitApproval req) := by
      cases c with
      | request => cases hop
      | other op => exact congrArg Call.other hop
    obtain ⟨hat, a, ha', -, -, -, hauth⟩ := h
    obtain rfl : a = approval := Option.some.inj (ha'.symm.trans ha)
    cases hp with
    | denied eid denyReason hv => exact unmoved_singleton (by simp)
    | granted aid eid approvalRecord action event target ho har hkind hg hev htr =>
      refine Unmoved.append (unmoved_singleton (by simp)) (unmoved_singleton fun _ hcites => ?_)
      obtain rfl : req.authorityRecordId = recordId := Option.some.inj hcites
      rw [hauth] at hr
      subst hkind
      exact hr.not_grants hk hat ht ⟨hd, by rw [hc]; rfl, ha, hst, hnew, ho, by rw [har]; rfl,
        grantInputs_ok ho hi hg, hstamp⟩
  | revoked req deal chain plan hid hd hc hp =>
    subst hid
    refine happend hc rfl ?_
    cases hp with
    | revoked eid => exact unmoved_singleton (by simp)

/-! ## The books -/

/-- The books of a deal: what is stored of it, and its chain. -/
structure Store.Books (s : Store) (signer : GatewaySigner) (id : String) (deal : Deal) : Prop where
  replay : deal = Mandate.replay id (s.eventsFor id)
  written : WrittenFrom signer id 0 genesisHash (s.eventsFor id)
  backed : Backed (s.eventsFor id)
  inEffect : Preceded InEffect (s.eventsFor id)
  open_approvals : deal.openApprovals = pending s.approvals id
  spent : ∀ recordId record, s.dealLinks.get? id = some recordId →
    s.records.get? recordId = some record → 0 ≤ deal.committedMinor ∧
      deal.committedMinor ≤ record.spendCap.amountMinor + grantedOn (s.eventsFor id)

/-- The state after proper calls up to a time. -/
structure Orderly (signer : GatewaySigner) (s : Store) (t : ℤ) : Prop where
  run : ∃ done, Run (· = Store.empty) (properStep signer) done s
  sound : Race.Sound ⟨s, t, []⟩ signer
  dated : s.Dated signer t

theorem orderly_empty (t : ℤ) : Orderly signer .empty t where
  run := ⟨[], .init rfl⟩
  sound := ⟨by rintro id c ⟨⟩, by rintro id c ⟨⟩, by rintro id r ⟨⟩⟩
  dated := by rintro id r ⟨⟩

theorem Orderly.wait {t u : ℤ} (h : Orderly signer s t) (hu : t ≤ u) : Orderly signer s u :=
  ⟨h.run, h.sound.wait hu [], fun id r hr => ⟨(h.dated id r hr).1, (h.dated id r hr).2.trans hu⟩⟩

theorem Orderly.call {t : ℤ} (h : Orderly signer s t) (hc : c.Proper signer now s)
    (ht : t ≤ now.instant) {ids : EventIds} (hf : s.FreshIds ids) :
    Orderly signer (c.run signer ids s) now.instant := by
  obtain ⟨done, hrun⟩ := h.run
  exact ⟨⟨_, hrun.step ⟨now, ids, hc, hf, rfl⟩⟩, hc.sound ht h.sound ids, hc.dated ht h.dated ids⟩

/-- Proper calls at one time leave what was revoked revoked, and move no deal
    under it. -/
theorem Conducts.unmoved {recordId : String} (h : Conducts signer now s s')
    (ho : Orderly signer s now.instant) (hr : s.RevokedFrom signer recordId now.instant) :
    s'.RevokedFrom signer recordId now.instant ∧
      ∀ id, ∃ g, s'.eventsFor id = s.eventsFor id ++ g ∧ Unmoved recordId g := by
  suffices hall : Orderly signer s' now.instant ∧ s'.RevokedFrom signer recordId now.instant ∧
      ∀ id, ∃ g, s'.eventsFor id = s.eventsFor id ++ g ∧ Unmoved recordId g from hall.2
  induction h with
  | refl => exact ⟨ho, hr, fun id => ⟨[], (List.append_nil _).symm, by rintro e ⟨⟩⟩⟩
  | tail _ hstep ih =>
    obtain ⟨c, ids, hc, hf, rfl⟩ := hstep
    obtain ⟨ho', hr', hgroups⟩ := ih
    obtain ⟨done, hrun⟩ := ho'.run
    refine ⟨ho'.call hc le_rfl hf, hc.revokedFrom le_rfl hr' ids, fun id => ?_⟩
    obtain ⟨g, hg, hquiet⟩ := hgroups id
    obtain ⟨g', hg', hquiet'⟩ := hc.unmoved le_rfl ho'.sound.keyed
      ((balanced_of_run hrun).chains id) hr' ids
    exact ⟨g ++ g', by rw [hg', hg, List.append_assoc], hquiet.append hquiet'⟩

theorem Orderly.ledger {t : ℤ} (h : Orderly signer s t) : (ledger signer).Reachable s := by
  obtain ⟨done, hrun⟩ := h.run
  clear h
  induction hrun with
  | init hs => exact .init hs
  | @step done s s' c _ hs ih =>
    obtain ⟨now, ids, hc, -, rfl⟩ := hs
    cases c with
    | request pi recordedAt =>
      rcases processRequest_cases s pi signer recordedAt ids with heq | ⟨-, heq⟩
      · rw [Call.run, heq]
        exact ih
      · rw [Call.run, heq]
        exact ih.step ⟨.commitRequest _, ids, trivial, rfl⟩
    | other op => exact ih.step ⟨op, ids, hc.filed, rfl⟩

/-- The books of every deal are in order. -/
theorem Orderly.books {t : ℤ} (h : Orderly signer s t) {deal : Deal}
    (hd : s.deals.get? id = some deal) : s.Books signer id deal := by
  obtain ⟨done, hrun⟩ := h.run
  obtain ⟨chain, hc, htakes, -⟩ := ((faithful_invariant signer).holds h.ledger).row id deal hd
  have hchain := Store.eventsFor_of_get? hc
  refine ⟨?_, (written_invariant signer).holds h.ledger id, ?_, ?_, ?_,
    fun recordId record hl hr => ?_⟩
  · rw [hchain]
    exact htakes.replay.symm
  · rw [hchain]
    exact ((guarded_invariant signer).holds (filedService_of_run hrun)).backed id chain hc
  · rw [hchain]
    exact h.sound.inEffect id chain hc
  · exact (balanced_of_run hrun).counter id deal hd
  · rw [← grantedAmount_of_run hrun]
    exact (withinCap_of_run (accounted_of_run hrun hl hr)).total deal hd

/-! ## A boundary's calls -/

theorem Orderly.dealId {t : ℤ} (h : Orderly signer s t) {deal : Deal}
    (hd : s.deals.get? id = some deal) : deal.dealId = id := by
  rw [(h.books hd).replay]
  exact replay_dealId ..

/-- A request on the stored deal, under the record that is linked to it and the
    claim built on it, is proper. -/
theorem Orderly.request_proper {t : ℤ} (h : Orderly signer s t) {deal : Deal} {recordId : String}
    {record : AuthorityRecord} {claim : AuthorityClaim} (hd : s.deals.get? id = some deal)
    (hl : s.dealLinks.get? id = some recordId) (hr : s.records.get? recordId = some record)
    (hclaim : buildClaim s signer record now.text = .ok claim) {pi : PolicyInput}
    (hdeal : pi.deal = deal) (hauthority : pi.authority = claim) :
    Call.Proper signer now s (.request pi now.text) := by
  have hid := h.dealId hd
  have hrecord : claim.record = record := by
    rw [buildClaim_text] at hclaim
    cases hclaim
    rfl
  subst hdeal hauthority hid
  exact ⟨rfl, hd, ⟨recordId, hl, hr.trans (congrArg some hrecord.symm)⟩, hrecord.symm ▸ hclaim⟩

/-- Proper calls at one time, after which the state is in order. -/
structure Advances (signer : GatewaySigner) (now : Timestamp) (s s' : Store) : Prop where
  conducts : Conducts signer now s s'
  orderly : Orderly signer s' now.instant
  links : s.dealLinks.Le s'.dealLinks

theorem Advances.trans {s'' : Store} (h : Advances signer now s s')
    (h' : Advances signer now s' s'') : Advances signer now s s'' :=
  ⟨h.conducts.trans h'.conducts, h'.orderly, h.links.trans h'.links⟩

theorem Orderly.stays {t : ℤ} (h : Orderly signer s t) (ht : t ≤ now.instant) :
    Advances signer now s s :=
  ⟨.refl, h.wait ht, .refl _⟩

theorem Orderly.advances {t : ℤ} (h : Orderly signer s t) (hc : c.Proper signer now s)
    (ht : t ≤ now.instant) {ids : EventIds} (hf : s.FreshIds ids) :
    Advances signer now s (c.run signer ids s) :=
  ⟨.single ⟨c, ids, hc, hf, rfl⟩, h.call hc ht hf, (hc.grows h.sound.keyed ids).links⟩

/-- The three store operations of `register_deal`, each at its turn. -/
theorem Orderly.register {t : ℤ} (h : Orderly signer s t) (ht : t ≤ now.instant)
    (dealId createdAt : String) {record : AuthorityRecord}
    (hr : s.records.get? record.recordId = none) :
    Advances signer now s (s.createDeal (.fresh dealId) createdAt).2 ∧
      Advances signer now s (((s.createDeal (.fresh dealId) createdAt).2.putRecord
        record).linkDealRecord dealId record.recordId).2 := by
  obtain ⟨ids, hf⟩ := s.exists_freshIds
  have hcreate := h.advances (c := .other (.createDeal dealId createdAt)) trivial ht hf
  have hrest : (s.createDeal (.fresh dealId) createdAt).2.records = s.records ∧
      (s.createDeal (.fresh dealId) createdAt).2.approvals = s.approvals := by
    unfold Store.createDeal
    split_ifs <;> exact ⟨rfl, rfl⟩
  obtain ⟨hrecords, happrovals⟩ := hrest
  have hfresh : (s.createDeal (.fresh dealId) createdAt).2.FreshIds ids :=
    fun n => happrovals ▸ hf n
  have hnone : (s.createDeal (.fresh dealId) createdAt).2.records.get? record.recordId = none :=
    hrecords ▸ hr
  have hput := hcreate.orderly.advances (c := .other (.putRecord record)) hnone le_rfl hfresh
  have hlink := hput.orderly.advances (c := .other (.linkDealRecord dealId record.recordId))
    trivial le_rfl hfresh
  exact ⟨hcreate, hcreate.trans (hput.trans hlink)⟩

end

end Mandate
