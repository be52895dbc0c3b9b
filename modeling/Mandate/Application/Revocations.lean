/-
  Revocations in force.

  Once a validly signed revocation of a record has arrived, the claim about the
  record is revoked and no grant under it applies a transition
  (`Store.RevokedFrom`).  A request is evaluated before it is committed, and
  the commit does not look at the revocations again; so nothing takes effect
  after a revocation exactly as far as no allowed request is overtaken by one
  (`no_effect_after_revocation`, `overtaken_by_revocation`).
-/
import Mandate.Application.Claims
import Mandate.Application.Grants
import Mandate.Ledger.DealSteps
import Mandate.Lib.Preceded

namespace Mandate

section
variable [Platform]

/-! ## What a stored revocation does -/

/-- Validly signed by the gateway. -/
def Revocation.Signed (r : Revocation) (signer : GatewaySigner) : Prop :=
  (verifyRevocation r signer.publicKey (some signer.keyId)).valid = true

instance (r : Revocation) (signer : GatewaySigner) : Decidable (r.Signed signer) :=
  inferInstanceAs (Decidable (_ = true))

/-- A validly signed revocation of the record, with an instant up to `t`, is
    stored. -/
def Store.RevokedFrom (s : Store) (signer : GatewaySigner) (recordId : String) (t : ℤ) : Prop :=
  ∃ id r, s.revocations.get? id = some r ∧ r.recordId = recordId ∧ r.Signed signer ∧
    r.revokedAt.instant ≤ t

/-- Records are stored under their own ids. -/
def Store.Keyed (s : Store) : Prop :=
  ∀ id record, s.records.get? id = some record → record.recordId = id

variable {s s' : Store} {signer : GatewaySigner} {recordId : String} {t : ℤ}

theorem Store.RevokedFrom.later (h : s.RevokedFrom signer recordId t) {u : ℤ} (hu : t ≤ u) :
    s.RevokedFrom signer recordId u := by
  obtain ⟨id, r, hr, hid, hs, ht⟩ := h
  exact ⟨id, r, hr, hid, hs, ht.trans hu⟩

/-- Writing a revocation under an id that is new, or its own already, takes
    none away. -/
theorem Store.RevokedFrom.set (h : s.RevokedFrom signer recordId t) {id : String} {r : Revocation}
    (hf : ∀ old ∈ s.revocations.get? id, old = r) (hs : s'.revocations = s.revocations.set id r) :
    s'.RevokedFrom signer recordId t := by
  obtain ⟨id', r', hr, hid, hsigned, ht⟩ := h
  refine ⟨id', r', ?_, hid, hsigned, ht⟩
  rw [hs, Dict.get?_set]
  split_ifs with hi
  · rw [← hf r' (hi ▸ hr)]
  · exact hr

theorem Store.RevokedFrom.congr (h : s.RevokedFrom signer recordId t)
    (hs : s'.revocations = s.revocations) : s'.RevokedFrom signer recordId t := by
  obtain ⟨id, r, hr, hrest⟩ := h
  exact ⟨id, r, hs ▸ hr, hrest⟩

omit [Platform] in
theorem Store.mem_listRevocations {id : String} {r : Revocation}
    (hr : s.revocations.get? id = some r) : r ∈ s.listRevocations r.recordId :=
  List.mem_filter.2 ⟨Dict.mem_values.2 ⟨id, hr⟩, by simp⟩

/-- The claim about a revoked record is revoked. -/
theorem Store.RevokedFrom.claimAt {record : AuthorityRecord}
    (h : s.RevokedFrom signer record.recordId t) {now : Timestamp} (ht : t ≤ now.instant) :
    (s.claimAt signer record now).status = .revoked := by
  obtain ⟨id, r, hr, hid, hsigned, hle⟩ := h
  have hproven : s.provenRevoked signer record.recordId now = true :=
    List.any_eq_true.2 ⟨r, hid ▸ s.mem_listRevocations hr,
      decide_eq_true ⟨hsigned, hle.trans ht⟩⟩
  exact if_pos (.inl hproven)

/-- No grant under a revoked record applies a transition. -/
theorem Store.RevokedFrom.not_grants (hk : s.Keyed) {req : ApprovalRequest} {deal : Deal}
    {approval : Approval} {event : DealEvent}
    (h : s.RevokedFrom signer approval.authorityRecordId t) {now : Timestamp}
    (hnow : req.occurredAt = now.text) (ht : t ≤ now.instant) :
    ¬ Grants s req deal approval event := by
  intro hg
  obtain ⟨id, r, hr, hid, -, hle⟩ := h
  obtain ⟨token, record, revoked, -, hi, hcheck⟩ := hg.recheck
  obtain ⟨record', -, rfl, hactive, -, -⟩ := grantRecheck_ok hcheck
  unfold Store.grantRecheckInputs at hi
  cases hrec : s.records.get? approval.authorityRecordId with
  | none => simp only [hrec] at hi; cases hi
  | some stored =>
    have hany : anyM (fun r => revocationApplies r stored now.text)
        (s.listRevocations stored.recordId) = .ok true := by
      rw [anyM_ok fun x _ => revocationApplies_text x stored now, Except.ok.injEq, List.any_eq_true]
      have hmem := s.mem_listRevocations hr
      rw [hid, ← hk _ _ hrec] at hmem
      exact ⟨r, hmem, decide_eq_true ⟨hid.trans (hk _ _ hrec).symm, hle.trans ht⟩⟩
    simp only [hrec, hnow, hany, bind, Except.bind, pure, Except.pure, Except.ok.injEq,
      Prod.mk.injEq, Option.some.injEq] at hi
    obtain ⟨rfl, rfl⟩ := hi
    rw [hnow, resolveStatus_text, if_pos (.inl rfl)] at hactive
    cases hactive

/-! ## The chain -/

/-- The event is a revocation of the record that is in force as it occurs. -/
def Event.Revokes (e : Event) (recordId : String) : Prop :=
  e.eventType = .revocation ∧ ∃ (r : Revocation) (now : Timestamp),
    e.payload = revocationPayload r ∧ r.recordId = recordId ∧ e.occurredAt = now.text ∧
      r.revokedAt.instant ≤ now.instant

/-- A transition cites no record that was revoked before it. -/
def InEffect (before : List Event) (e : Event) : Prop :=
  e.eventType = .stateTransition → ∀ recordId, e.authorityRecordId = some recordId →
    ∀ e' ∈ before, ¬ e'.Revokes recordId

omit [Platform] in
theorem Timestamp.instant_of_text {a b : Timestamp} (h : a.text = b.text) :
    a.instant = b.instant := by
  have ha := a.reads
  rw [h, b.reads] at ha
  exact (Option.some.inj ha).symm

omit [Platform] in
theorem revocationPayload_inj {a b : Revocation} (h : revocationPayload a = revocationPayload b) :
    a.recordId = b.recordId ∧ a.revokedAt.instant = b.revokedAt.instant := by
  simp only [revocationPayload, Revocation.toJson, Revocation.unsignedFields, List.cons.injEq,
    Prod.mk.injEq, Json.obj.injEq, Json.str.injEq, true_and, and_true, List.cons_append] at h
  exact ⟨h.2.2.1, Timestamp.instant_of_text h.2.2.2.1⟩

omit [Platform] in
/-- Events appended to a chain whose revocations all are in `revoked`, when
    none of them revokes and no transition among them cites what is revoked. -/
theorem inEffect_append {revoked : String → Prop} {chain g : List Event}
    (h : Preceded InEffect chain) (hr : ∀ e ∈ chain, ∀ r, e.Revokes r → revoked r)
    (hg : ∀ e ∈ g, e.eventType ≠ .revocation ∧ (e.eventType = .stateTransition →
      ∀ r, e.authorityRecordId = some r → ¬ revoked r)) : Preceded InEffect (chain ++ g) := by
  induction g generalizing chain with
  | nil => simpa using h
  | cons e g ih =>
    obtain ⟨hne, ht⟩ := hg e (by simp)
    have hsnoc : Preceded InEffect (chain ++ [e]) :=
      h.snoc fun htr r hauth e' he' hrev => ht htr r hauth (hr e' he' r hrev)
    have hr' : ∀ e' ∈ chain ++ [e], ∀ r, e'.Revokes r → revoked r := by
      intro e' he' r hrev
      rcases List.mem_append.1 he' with he' | he'
      · exact hr e' he' r hrev
      · rw [List.mem_singleton] at he'
        exact absurd (he' ▸ hrev.1) hne
    simpa using ih hsnoc hr' fun e' he' => hg e' (List.mem_cons_of_mem _ he')

omit [Platform] in
/-- A transition at the end of a chain that starts with a revocation of what it
    cites. -/
theorem not_inEffect {e : Event} {g : List Event} {recordId : String} (he : e.Revokes recordId)
    (hg : g.getLast?.map (fun m => (m.eventType, m.authorityRecordId)) =
      some (.stateTransition, some recordId)) : ¬ Preceded InEffect (e :: g) := by
  intro h
  obtain ⟨m, hm, hlast⟩ := Option.map_eq_some_iff.1 hg
  obtain ⟨ht, hauth⟩ := Prod.mk.inj hlast
  obtain ⟨init, rfl⟩ := List.getLast?_eq_some_iff.1 hm
  exact h (e :: init) m [] (by simp) ht recordId hauth e (by simp) he

/-! ## Requests in two steps -/

/-- The store, the time of the last step, and the requests that were evaluated
    and not yet committed. -/
structure Race where
  store : Store
  clock : ℤ
  flight : List PolicyInput

/-- An operation that sets the store up, and reuses no revocation id. -/
def LedgerOp.SetsUp (s : Store) : LedgerOp → Prop
  | createDeal _ _ | linkDealRecord _ _ | putRecord _ => True
  | putRevocation r => ∀ old ∈ s.revocations.get? r.revocationId, old = r
  | _ => False

/-- The steps of requests, decisions, boundary transitions and revocations on
    one store.  A request is evaluated on the claim built at its time, and
    committed when it `may` be; a grant cites its approval's record, and a
    boundary transition cites none; a revocation is validly signed under an id
    of its own.  Time does not run backwards. -/
inductive RaceStep (signer : GatewaySigner) (may : Store → PolicyInput → Timestamp → Prop)
    (q : Race) : Race → Prop
  | evaluate (pi : PolicyInput) (hclock : q.clock ≤ pi.now.instant)
      (hclaim : buildClaim q.store signer pi.authority.record pi.now.text = .ok pi.authority) :
      RaceStep signer may q { q with clock := pi.now.instant, flight := pi :: q.flight }
  | commit (pi : PolicyInput) (before after : List PolicyInput) (now : Timestamp) (ids : EventIds)
      (hf : q.flight = before ++ pi :: after) (hclock : q.clock ≤ now.instant)
      (hm : may q.store pi now) :
      RaceStep signer may q
        ⟨(q.store.commitRequest (pi.commitRequest now.text) signer ids).2, now.instant,
          before ++ after⟩
  | decide (req : ApprovalRequest) (now : Timestamp) (ids : EventIds)
      (hclock : q.clock ≤ now.instant) (ht : req.occurredAt = now.text)
      (hcites : ∀ a ∈ q.store.approvals.get? req.approvalId,
        req.authorityRecordId = a.authorityRecordId) :
      RaceStep signer may q
        { q with store := (q.store.commitApproval req signer ids).2, clock := now.instant }
  | revoke (req : RevocationRequest) (now : Timestamp) (ids : EventIds)
      (hclock : q.clock ≤ now.instant) (ht : req.occurredAt = now.text)
      (hs : req.revocation.Signed signer)
      (hid : ∀ old ∈ q.store.revocations.get? req.revocation.revocationId, old = req.revocation) :
      RaceStep signer may q
        { q with store := (q.store.commitRevocation req signer ids).2, clock := now.instant }
  | transition (req : TransitionRequest) (ids : EventIds) (hr : req.authorityRecordId = none) :
      RaceStep signer may q { q with store := (q.store.commitTransition req signer ids).2 }
  | setUp (op : LedgerOp) (ids : EventIds) (ho : op.SetsUp q.store) :
      RaceStep signer may q { q with store := op.run signer ids q.store }

/-- No chain has a revocation yet, whatever else has happened on the store. -/
structure Store.Unrevoked (s : Store) : Prop where
  keyed : s.Keyed
  chains : ∀ id chain, s.events.get? id = some chain → ∀ e ∈ chain, e.eventType ≠ .revocation

def race (signer : GatewaySigner) (may : Store → PolicyInput → Timestamp → Prop) : System Race where
  init q := q.store.Unrevoked ∧ q.flight = []
  step := RaceStep signer may

/-- The claim about the record is not revoked as the request is committed, if
    it was allowed. -/
def NotOvertaken (signer : GatewaySigner) (s : Store) (pi : PolicyInput) (now : Timestamp) : Prop :=
  (evaluate pi).outcome = .allow → ∀ claim,
    buildClaim s signer pi.authority.record now.text = .ok claim → claim.status ≠ .revoked

/-! ## The invariant -/

/-- No transition follows a revocation of what it cites, and every logged
    revocation is stored. -/
structure Race.Sound (q : Race) (signer : GatewaySigner) : Prop where
  inEffect : ∀ id chain, q.store.events.get? id = some chain → Preceded InEffect chain
  stored : ∀ id chain, q.store.events.get? id = some chain → ∀ e ∈ chain, ∀ r, e.Revokes r →
    q.store.RevokedFrom signer r q.clock
  keyed : q.store.Keyed

variable {q : Race}

/-- The invariant outlasts the passing of time. -/
theorem Race.Sound.wait (h : q.Sound signer) {u : ℤ} (hu : q.clock ≤ u)
    (flight : List PolicyInput) : Race.Sound ⟨q.store, u, flight⟩ signer :=
  ⟨h.inEffect, fun id chain hc e he r hr => (h.stored id chain hc e he r hr).later hu, h.keyed⟩

/-- A commit that appends no revocation, and no transition under a revoked
    record, keeps the invariant. -/
theorem Race.Sound.append (h : q.Sound signer) {id : String} {chain g : List Event} {u : ℤ}
    {flight : List PolicyInput} (hc : q.store.events.get? id = some chain)
    (he : s'.events = q.store.events.set id (chain ++ g))
    (hv : s'.revocations = q.store.revocations) (hk : s'.Keyed) (hu : q.clock ≤ u)
    (hg : ∀ e ∈ g, e.eventType ≠ .revocation ∧ (e.eventType = .stateTransition →
      ∀ r, e.authorityRecordId = some r → ¬ q.store.RevokedFrom signer r q.clock)) :
    Race.Sound ⟨s', u, flight⟩ signer where
  inEffect i c hi := by
    rw [he, Dict.get?_set] at hi
    split_ifs at hi
    · cases hi
      exact inEffect_append (h.inEffect id chain hc) (h.stored id chain hc) hg
    · exact h.inEffect i c hi
  stored i c hi e hm r hr := by
    refine Store.RevokedFrom.congr ?_ hv
    rw [he, Dict.get?_set] at hi
    split_ifs at hi
    · cases hi
      rcases List.mem_append.1 hm with hm | hm
      · exact (h.stored id chain hc e hm r hr).later hu
      · exact absurd hr.1 (hg e hm).1
    · exact (h.stored i c hi e hm r hr).later hu
  keyed := hk

omit [Platform] in
theorem Store.Keyed.putRecord (h : s.Keyed) {record : AuthorityRecord}
    (hs : s'.records = s.records.set record.recordId record) : s'.Keyed := by
  intro id r hr
  rw [hs, Dict.get?_set] at hr
  split_ifs at hr with hi
  · cases hr; exact hi.symm
  · exact h id r hr

theorem Race.Sound.commit (h : q.Sound signer) {pi : PolicyInput} {now : Timestamp}
    {ids : EventIds} {flight : List PolicyInput} (hclock : q.clock ≤ now.instant)
    (hm : NotOvertaken signer q.store pi now) :
    Race.Sound ⟨(q.store.commitRequest (pi.commitRequest now.text) signer ids).2, now.instant,
      flight⟩ signer := by
  have hcases := q.store.commitRequest_cases (pi.commitRequest now.text) signer ids
  have hauth : (pi.commitRequest now.text).authorityRecordId = pi.authority.record.recordId := rfl
  have hrec : (pi.commitRequest now.text).record = pi.authority.record := rfl
  have hdec : (pi.commitRequest now.text).decision = evaluate pi := rfl
  generalize pi.commitRequest now.text = req at hcases hauth hrec hdec ⊢
  generalize q.store.commitRequest req signer ids = r at hcases ⊢
  cases hcases with
  | refused r hr => exact h.wait hclock flight
  | committed deal chain plan hd hc hp _ =>
    refine h.append hc rfl rfl (h.keyed.putRecord rfl) hclock fun e he => ?_
    have hrecorded : ∀ mid did, ∀ e ∈ req.recorded signer mid did chain.length
        (lastHash chain genesisHash), e.eventType ≠ .revocation ∧ e.eventType ≠ .stateTransition := by
      intro mid did e he
      rcases List.mem_append.1 he with he | he
      · simp [mem_messages he]
      · rw [List.mem_singleton] at he; subst he; simp
    cases hp with
    | decided mid did ho =>
      exact ⟨(hrecorded mid did e he).1, fun ht => absurd ht (hrecorded mid did e he).2⟩
    | applied mid did id token event target ho hv hev htr =>
      rcases List.mem_append.1 he with he | he
      · exact ⟨(hrecorded mid did e he).1, fun ht => absurd ht (hrecorded mid did e he).2⟩
      · rw [List.mem_singleton] at he
        subst he
        refine ⟨by simp, fun _ r hr hrevoked => ?_⟩
        obtain rfl : req.authorityRecordId = r := Option.some.inj hr
        rw [hauth] at hrevoked
        exact hm (hdec ▸ ho) _ (buildClaim_text q.store signer pi.authority.record now)
          (hrevoked.claimAt hclock)
    | held mid did id aid approval ho ha =>
      rcases List.mem_append.1 he with he | he
      · exact ⟨(hrecorded mid did e he).1, fun ht => absurd ht (hrecorded mid did e he).2⟩
      · rw [List.mem_singleton] at he
        subst he
        exact ⟨by simp, by simp⟩

theorem Race.Sound.decide (h : q.Sound signer) {req : ApprovalRequest} {now : Timestamp}
    {ids : EventIds} (hclock : q.clock ≤ now.instant) (ht : req.occurredAt = now.text)
    (hcites : ∀ a ∈ q.store.approvals.get? req.approvalId,
      req.authorityRecordId = a.authorityRecordId) :
    Race.Sound { q with
      store := (q.store.commitApproval req signer ids).2, clock := now.instant } signer := by
  have hcases := q.store.commitApproval_cases req signer ids
  generalize q.store.commitApproval req signer ids = r at hcases ⊢
  cases hcases with
  | refused r hr => exact h.wait hclock q.flight
  | committed deal approval decided chain token record revoked plan hd hc ha hs hn hi hp hu hst =>
    refine h.append hc rfl rfl h.keyed hclock fun e he => ?_
    cases hp with
    | denied id denyReason hv =>
      rw [List.mem_singleton] at he
      subst he
      exact ⟨by simp, by simp⟩
    | granted aid id approvalRecord action event target ho har hk hg hev htr =>
      rcases List.mem_append.1 he with he | he
      · rw [List.mem_singleton] at he
        subst he
        exact ⟨by simp, by simp⟩
      · rw [List.mem_singleton] at he
        subst he
        refine ⟨by simp, fun _ r hr hrevoked => ?_⟩
        obtain rfl : req.authorityRecordId = r := Option.some.inj hr
        rw [hcites approval ha] at hrevoked
        subst hk
        exact hrevoked.not_grants h.keyed ht hclock ⟨hd, by rw [hc]; rfl, ha, hs, hn, ho,
          by rw [har]; rfl, grantInputs_ok ho hi hg, hst⟩

theorem Race.Sound.revoke (h : q.Sound signer) {req : RevocationRequest} {now : Timestamp}
    {ids : EventIds} (hclock : q.clock ≤ now.instant) (ht : req.occurredAt = now.text)
    (hs : req.revocation.Signed signer)
    (hid : ∀ old ∈ q.store.revocations.get? req.revocation.revocationId, old = req.revocation) :
    Race.Sound { q with
      store := (q.store.commitRevocation req signer ids).2, clock := now.instant } signer := by
  have hcases := q.store.commitRevocation_cases req signer ids
  generalize q.store.commitRevocation req signer ids = r at hcases ⊢
  cases hcases with
  | refused r hr => exact h.wait hclock q.flight
  | committed deal chain record plan hd hc hn hr hl hp _ =>
    cases hp with
    | revoked eid =>
      have hold : ∀ id c, q.store.events.get? id = some c → ∀ e ∈ c, ∀ r, e.Revokes r →
          Store.RevokedFrom (q.store.afterRevocation req chain
            ⟨[req.revocationEvent signer eid chain.length (lastHash chain genesisHash)], deal,
              none⟩) signer r now.instant := fun id c hi e hm r hr =>
        ((h.stored id c hi e hm r hr).later hclock).set hid rfl
      refine ⟨fun i c hi => ?_, fun i c hi e hm r hr => ?_, h.keyed⟩
      · simp only [Store.afterRevocation, Store.append, Dict.get?_set] at hi
        split_ifs at hi
        · cases hi
          refine (h.inEffect _ chain hc).append fun e he before htr => ?_
          rw [List.mem_singleton] at he
          subst he
          cases htr
        · exact h.inEffect i c hi
      · simp only [Store.afterRevocation, Store.append, Dict.get?_set] at hi
        split_ifs at hi
        · cases hi
          rcases List.mem_append.1 hm with hm | hm
          · exact hold _ chain hc e hm r hr
          · rw [List.mem_singleton] at hm
            subst hm
            obtain ⟨-, r', now', hpay, hrid, hocc, hle⟩ := hr
            obtain ⟨hrec, hat⟩ := revocationPayload_inj hpay
            have hnow : now.instant = now'.instant := Timestamp.instant_of_text (ht.symm.trans hocc)
            exact ⟨_, req.revocation, Dict.get?_set_self .., hrec.trans hrid, hs,
              hat.trans_le (hle.trans hnow.ge)⟩
        · exact hold i c hi e hm r hr

/-- A boundary event cites no record. -/
theorem Race.Sound.transition {q : Race} (h : q.Sound signer) {req : TransitionRequest}
    (hr : req.authorityRecordId = none) (ids : EventIds) :
    Race.Sound { q with store := (q.store.commitTransition req signer ids).2 } signer := by
  have hcases := q.store.commitTransition_cases req signer ids
  generalize q.store.commitTransition req signer ids = r at hcases ⊢
  cases hcases with
  | refused r hr => exact h
  | committed deal chain target plan hd hc hn ht hp hs =>
    refine h.append hc rfl rfl h.keyed le_rfl fun e he => ?_
    cases hp with
    | applied mid id =>
      rcases List.mem_append.1 he with he | he
      · simp [mem_transitionMessages he]
      · rw [List.mem_singleton] at he
        subst he
        refine ⟨by simp, fun _ r hauth => ?_⟩
        have hauth : req.authorityRecordId = some r := hauth
        rw [hr] at hauth
        cases hauth

/-- An operation that keeps chains and records, and no revocation less. -/
theorem Race.Sound.setUp (h : q.Sound signer) {op : LedgerOp} {ids : EventIds}
    (ho : op.SetsUp q.store) : Race.Sound { q with store := op.run signer ids q.store } signer := by
  cases op with
  | createDeal dealId createdAt =>
    simp only [LedgerOp.run, Store.createDeal]
    split_ifs
    · exact h
    · refine ⟨fun i c hi => ?_, fun i c hi e hm r hr => ?_, h.keyed⟩
      · rw [Dict.get?_set] at hi
        split_ifs at hi
        · cases hi; exact .nil
        · exact h.inEffect i c hi
      · rw [Dict.get?_set] at hi
        split_ifs at hi
        · cases hi; cases hm
        · exact h.stored i c hi e hm r hr
  | linkDealRecord dealId recordId =>
    obtain ⟨links, hl⟩ := q.store.linkDealRecord_store dealId recordId
    rw [LedgerOp.run, hl]
    exact ⟨h.inEffect, h.stored, h.keyed⟩
  | putRecord record => exact ⟨h.inEffect, h.stored, h.keyed.putRecord rfl⟩
  | putRevocation r =>
    exact ⟨h.inEffect, fun i c hi e hm r' hr => (h.stored i c hi e hm r' hr).set ho rfl, h.keyed⟩
  | commitRequest req => exact ho.elim
  | commitTransition req => exact ho.elim
  | commitApproval req => exact ho.elim
  | commitRevocation req => exact ho.elim

theorem sound_invariant (signer : GatewaySigner) :
    (race signer (NotOvertaken signer)).Invariant fun q => q.Sound signer where
  init := by
    rintro q ⟨h, -⟩
    refine ⟨fun id chain hc before e after hsplit _ r _ e' he' hr => ?_,
      fun id chain hc e he r hr => absurd hr.1 (h.chains id chain hc e he), h.keyed⟩
    exact h.chains id chain hc e' (by simp [hsplit, he']) hr.1
  step := by
    intro q q' _ h hs
    cases hs with
    | evaluate pi hclock hclaim => exact h.wait hclock _
    | commit pi before after now ids hf hclock hm => exact h.commit hclock hm
    | decide req now ids hclock ht hcites => exact h.decide hclock ht hcites
    | revoke req now ids hclock ht hs hid => exact h.revoke hclock ht hs hid
    | transition req ids hr => exact h.transition hr ids
    | setUp op ids ho => exact h.setUp ho

/-- In every interleaving in which no allowed request is committed once its
    record's claim is revoked, no transition follows a revocation of the record
    it cites. -/
theorem no_effect_after_revocation {q : Race}
    (hr : (race signer (NotOvertaken signer)).Reachable q) {id : String} {chain : List Event}
    (hc : q.store.events.get? id = some chain) : Preceded InEffect chain :=
  ((sound_invariant signer).holds hr).inEffect id chain hc

end

section
open Sample
attribute [local instance] Sample.platform

/-- A validly signed revocation of the sample mandate. -/
def Sample.revocation : Revocation :=
  let unsigned : Revocation := ⟨"0.1", ulid 'V', ulid 'R', start, ⟨algorithm, signer.keyId, ""⟩⟩
  { unsigned with signature := ⟨algorithm, signer.keyId,
      signer.signBytes (revocationSigningPayload unsigned)⟩ }

/-- The operator revokes the sample mandate on the sample deal. -/
def Sample.revoking : RevocationRequest :=
  { dealId, revocation, commandId := ulid 'W', actorKind := .principal, actorId := ulid 'P'
    occurredAt := now.text, recordedAt := now.text }

/-- The registered deal and the stored mandate. -/
def Sample.mandated : Store := LedgerOp.run signer ids registered (.putRecord record)

/-- The agent's request for a quote, on the claim built from that store. -/
def Sample.askedNow : PolicyInput :=
  { input (.fresh dealId) .requestQuote none '1' with
    authority := mandated.claimAt signer record now }

/-- The store after the revocation, and after the request that was evaluated
    before it. -/
def Sample.mandateRevoked : Store := (mandated.commitRevocation revoking signer ids).2

def Sample.overtaken : Store :=
  (mandateRevoked.commitRequest (askedNow.commitRequest now.text) signer ids).2

/-- The race up to the evaluation of the request. -/
theorem Sample.evaluated_reachable (may : Store → PolicyInput → Timestamp → Prop) :
    (race signer may).Reachable ⟨mandated, now.instant, [askedNow]⟩ := by
  have h0 : (race signer may).Reachable ⟨.empty, start.instant, []⟩ :=
    .init ⟨⟨by rintro id r ⟨⟩, by rintro id c ⟨⟩⟩, rfl⟩
  have h1 : (race signer may).Reachable ⟨registered, start.instant, []⟩ :=
    h0.step (.setUp (.createDeal dealId start.text) ids trivial)
  have h2 : (race signer may).Reachable ⟨mandated, start.instant, []⟩ :=
    h1.step (.setUp (.putRecord record) ids trivial)
  exact h2.step (.evaluate askedNow (by decide) (buildClaim_text mandated signer record now))

theorem Sample.mandateRevoked_reachable (may : Store → PolicyInput → Timestamp → Prop) :
    (race signer may).Reachable ⟨mandateRevoked, now.instant, [askedNow]⟩ :=
  (evaluated_reachable may).step (.revoke revoking now ids le_rfl rfl (by decide +kernel)
    fun old ho => by cases ho)

/-- A revocation that is committed is the last event of the chain. -/
theorem Sample.revoking_chain (ids : EventIds) {s : Store} {chain : List Event}
    (hc : s.events.get? dealId = some chain)
    (hlength : ((s.commitRevocation revoking signer ids).2.events.get? dealId).map List.length =
      some (chain.length + 1)) :
    ∃ e, (s.commitRevocation revoking signer ids).2.events.get? dealId = some (chain ++ [e]) ∧
      e.Revokes (ulid 'R') := by
  have hcases := s.commitRevocation_cases revoking signer ids
  generalize s.commitRevocation revoking signer ids = r at hcases hlength ⊢
  cases hcases with
  | refused r hr => simp [hc] at hlength
  | committed deal chain' record plan hd hc' hn hr hl hp _ =>
    obtain rfl : chain = chain' := Option.some.inj (hc.symm.trans hc')
    cases hp with
    | revoked id =>
      exact ⟨_, Dict.get?_set_self .., rfl, revocation, now, rfl, rfl, rfl, by decide⟩

theorem Sample.mandateRevoked_chain :
    ∃ e, mandateRevoked.events.get? dealId = some [e] ∧ e.Revokes (ulid 'R') := by
  have hempty : mandated.events.get? dealId = some [] := rfl
  exact revoking_chain ids hempty (by decide +kernel)

/-- A revocation overtakes a request that was allowed, and the request still
    takes effect. -/
theorem overtaken_by_revocation :
    ∃ q, (race signer fun _ _ _ => True).Reachable q ∧
      ∃ chain, q.store.events.get? dealId = some chain ∧ ¬ Preceded InEffect chain := by
  have hr : (race signer fun _ _ _ => True).Reachable ⟨overtaken, now.instant, []⟩ :=
    (mandateRevoked_reachable _).step (.commit askedNow [] [] now ids rfl le_rfl trivial)
  obtain ⟨e, hchain, hrevokes⟩ := mandateRevoked_chain
  have hlog : (overtaken.events.get? dealId).map (fun c => c.tail.getLast?.map
      fun m => (m.eventType, m.authorityRecordId)) =
        some (some (.stateTransition, some (ulid 'R'))) := by
    decide +kernel
  obtain ⟨chain, hc, hlast⟩ := Option.map_eq_some_iff.1 hlog
  -- the chain goes on from the revocation
  obtain ⟨g, rfl⟩ : ∃ g, chain = e :: g := by
    have hcases := mandateRevoked.commitRequest_cases (askedNow.commitRequest now.text) signer ids
    rw [overtaken] at hc
    generalize mandateRevoked.commitRequest (askedNow.commitRequest now.text) signer ids = r
      at hcases hc
    cases hcases with
    | refused r hr => exact ⟨[], Option.some.inj (hc.symm.trans hchain)⟩
    | committed deal chain' plan hd hc' hp _ =>
      obtain rfl : [e] = chain' := Option.some.inj (hchain.symm.trans hc')
      exact ⟨plan.events, Option.some.inj (hc.symm.trans (Dict.get?_set_self ..))⟩
  exact ⟨_, hr, _, hc, not_inEffect hrevokes hlast⟩

/-- The request is committed in time, and then its mandate is revoked. -/
def Sample.quoteAsked : Store :=
  (mandated.commitRequest (askedNow.commitRequest now.text) signer ids).2

def Sample.askedThenRevoked : Store :=
  (quoteAsked.commitRevocation revoking signer fun n => ids (n + 4)).2

theorem Sample.askedThenRevoked_reachable :
    (race signer (NotOvertaken signer)).Reachable ⟨askedThenRevoked, now.instant, []⟩ := by
  have hasked : (race signer (NotOvertaken signer)).Reachable ⟨quoteAsked, now.instant, []⟩ := by
    refine (evaluated_reachable _).step (.commit askedNow [] [] now ids rfl le_rfl ?_)
    intro _ claim hclaim
    rw [← Except.ok.inj ((buildClaim_text mandated signer record now).symm.trans hclaim)]
    decide +kernel
  exact hasked.step (.revoke revoking now _ le_rfl rfl (by decide +kernel) fun old ho => by cases ho)

/-- The mandate is cited by a transition, and revoked after it. -/
theorem no_effect_after_revocation_asked :
    ∃ chain e, askedThenRevoked.events.get? dealId = some (chain ++ [e]) ∧
      (evaluate askedNow).outcome = .allow ∧ e.Revokes (ulid 'R') ∧
      (∃ m ∈ chain, m.eventType = .stateTransition ∧ m.authorityRecordId = some (ulid 'R')) ∧
      Preceded InEffect (chain ++ [e]) := by
  have hlog : (quoteAsked.events.get? dealId).map (fun c => c.map fun m =>
      (m.eventType, m.authorityRecordId)) = some [(.policyDecision, some (ulid 'R')),
        (.stateTransition, some (ulid 'R'))] := by
    decide +kernel
  obtain ⟨chain, hc, hevents⟩ := Option.map_eq_some_iff.1 hlog
  have hlength : chain.length = 2 := by simpa using congrArg List.length hevents
  obtain ⟨e, hchain, hrevokes⟩ := revoking_chain (fun n => ids (n + 4)) hc
    (by rw [hlength]; decide +kernel)
  have hmem : (EventType.stateTransition, some (ulid 'R')) ∈ chain.map fun m =>
      (m.eventType, m.authorityRecordId) := by
    rw [hevents]
    exact List.mem_cons_of_mem _ (List.mem_singleton_self _)
  obtain ⟨m, hm, hcites⟩ := List.mem_map.1 hmem
  obtain ⟨ht, ha⟩ := Prod.mk.inj hcites
  exact ⟨chain, e, hchain, by decide +kernel, hrevokes, ⟨m, hm, ht, ha⟩,
    no_effect_after_revocation askedThenRevoked_reachable hchain⟩

end

end Mandate
