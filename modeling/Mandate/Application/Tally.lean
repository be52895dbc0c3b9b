/-
  The tally of decisions.

  Over all chains, an idempotency key names one decision event and so does a
  request id, and the stored decisions are the logged ones.  `Store.Tallied`
  says so, and every step of the service keeps it (`tallied_invariant`).
-/
import Mandate.Application.Services
import Mandate.Ledger.Replay

namespace Mandate

variable [Platform]

/-! ## The logged decisions -/

/-- The decisions logged on a chain. -/
def decisionsOf (chain : List Event) : List DecisionEntry := chain.filterMap Event.decision?

/-- The decisions logged on all chains. -/
def Store.decisionEntries (s : Store) : List DecisionEntry := s.events.values.flatMap decisionsOf

/-- The entry logs the stored proposal digest and decision under `key`. -/
structure Logs (key : String) (stored : String × PolicyDecision) (e : DecisionEntry) : Prop where
  key : e.idempotencyKey = key
  digest : e.proposalDigest = stored.1
  outcome : e.outcome = stored.2.outcome
  reasonCode : e.reasonCode = stored.2.reasonCode
  inputDigest : e.inputDigest = stored.2.inputDigest

omit [Platform] in
theorem decisionsOf_append (c g : List Event) :
    decisionsOf (c ++ g) = decisionsOf c ++ decisionsOf g := List.filterMap_append

omit [Platform] in
theorem decisionsOf_eq_nil {g : List Event} (h : ∀ e ∈ g, e.eventType ≠ .policyDecision) :
    decisionsOf g = [] :=
  List.filterMap_eq_nil_iff.2 fun e he => decision?_of_ne (h e he)

section
variable {signer : GatewaySigner} {deal : Deal} {seq : ℕ} {prevHash : String} {plan : CommitPlan}

theorem decisionsOf_recorded (req : CommitRequest) (mid did : String) :
    decisionsOf (req.recorded signer mid did seq prevHash) = [req.decisionEntry] := by
  rw [CommitRequest.recorded, extend, decisionsOf_append, decisionsOf_eq_nil fun e he => by
    simp [mem_messages he]]
  simp [decisionsOf]

theorem RequestPlan.decisionsOf {req : CommitRequest}
    (h : RequestPlan signer deal seq prevHash req plan) :
    decisionsOf plan.events = [req.decisionEntry] := by
  cases h with
  | decided mid did ho => exact decisionsOf_recorded req mid did
  | applied mid did id token event target ho hv he ht =>
    rw [extend, decisionsOf_append, decisionsOf_recorded, decisionsOf_eq_nil (by simp)]
    rfl
  | held mid did id aid approval ho ha =>
    rw [extend, decisionsOf_append, decisionsOf_recorded, decisionsOf_eq_nil (by simp)]
    rfl

theorem TransitionPlan.decisionsOf {req : TransitionRequest} {target : DealState}
    (h : TransitionPlan signer deal seq prevHash req target plan) :
    decisionsOf plan.events = [] := by
  cases h with
  | applied mid id =>
    refine decisionsOf_eq_nil fun e he => ?_
    rcases List.mem_append.1 he with he | he
    · simp [mem_transitionMessages he]
    · rw [List.mem_singleton] at he; subst he; simp

theorem ApprovalPlan.decisionsOf {approval : Approval} {req : ApprovalRequest}
    {record : Option AuthorityRecord} {revoked : Bool} {token : Option ActionToken}
    (h : ApprovalPlan signer deal approval seq prevHash req record revoked token plan) :
    decisionsOf plan.events = [] := by
  cases h <;> exact decisionsOf_eq_nil (by simp [extend])

theorem RevocationPlan.decisionsOf {req : RevocationRequest}
    (h : RevocationPlan signer deal seq prevHash req plan) : decisionsOf plan.events = [] := by
  cases h; exact decisionsOf_eq_nil (by simp)

end

/-! ## The tally -/

namespace Store

/-- One decision event per key and per request, and the stored decisions are
    the logged ones. -/
structure Tallied (s : Store) : Prop where
  keys : (s.decisionEntries.map DecisionEntry.idempotencyKey).Nodup
  requests : (s.decisionEntries.map DecisionEntry.requestId).Nodup
  seen : ∀ e ∈ s.decisionEntries, e.requestId ∈ s.seenRequests
  logged : ∀ key stored, s.decisions.get? key = some stored →
    ∃ e ∈ s.decisionEntries, Logs key stored e
  stored : ∀ e ∈ s.decisionEntries, ∃ stored,
    s.decisions.get? e.idempotencyKey = some stored ∧ Logs e.idempotencyKey stored e
  original : ∀ key stored, s.decisions.get? key = some stored → ∃ pi : PolicyInput,
    pi.proposal.idempotencyKey = key ∧ stored = (proposalDigest pi, evaluate pi)
  rows : ∀ id, (s.events.get? id).isSome ↔ (s.deals.get? id).isSome
  readable : ∀ chain ∈ s.events.values, ∀ e ∈ chain, e.Readable

omit [Platform] in
/-- Appending a group to a chain appends its decisions. -/
theorem decisionEntries_append {s s' : Store} {id : String} {chain g : List Event}
    (hc : s.events.get? id = some chain) (he : s'.events = s.events.set id (chain ++ g)) :
    s'.decisionEntries.Perm (s.decisionEntries ++ decisionsOf g) := by
  rw [decisionEntries, he]
  exact Dict.flatMap_values_set hc (decisionsOf_append chain g)

/-- A step that logs no decision keeps the tally. -/
theorem Tallied.quiet {s s' : Store} (h : s.Tallied)
    (hp : s'.decisionEntries.Perm s.decisionEntries) (hs : s'.seenRequests = s.seenRequests)
    (hd : s'.decisions = s.decisions)
    (hr : ∀ id, (s'.events.get? id).isSome ↔ (s'.deals.get? id).isSome)
    (he : ∀ chain ∈ s'.events.values, ∀ e ∈ chain, e.Readable) : s'.Tallied where
  keys := (hp.map _).nodup_iff.2 h.keys
  requests := (hp.map _).nodup_iff.2 h.requests
  seen e he := by rw [hs]; exact h.seen e (hp.mem_iff.1 he)
  logged key stored hk := by
    obtain ⟨e, he, hl⟩ := h.logged key stored (hd ▸ hk)
    exact ⟨e, hp.mem_iff.2 he, hl⟩
  stored e he := by rw [hd]; exact h.stored e (hp.mem_iff.1 he)
  original key stored hk := h.original key stored (hd ▸ hk)
  rows := hr
  readable := he

/-- A readable group on a chain leaves all chains readable. -/
theorem readable_set {s : Store} (h : s.Tallied) {id : String} {chain g : List Event}
    (hc : s.events.get? id = some chain) (hg : ∀ e ∈ g, e.Readable) :
    ∀ c ∈ (s.events.set id (chain ++ g)).values, ∀ e ∈ c, e.Readable := by
  intro c hm e he
  rcases Dict.mem_values_set hm with rfl | hm
  · rcases List.mem_append.1 he with he | he
    · exact h.readable chain (Dict.mem_values.2 ⟨id, hc⟩) e he
    · exact hg e he
  · exact h.readable c hm e he

theorem rows_set {s s' : Store} (h : s.Tallied) {id : String} {v : List Event}
    (he : s'.events = s.events.set id v)
    (hd : ∀ i, (s'.deals.get? i).isSome ↔ i = id ∨ (s.deals.get? i).isSome) (i : String) :
    (s'.events.get? i).isSome ↔ (s'.deals.get? i).isSome := by
  rw [he, hd, Dict.get?_set]
  split_ifs with hid
  · simp [hid]
  · simp [hid, h.rows i]

omit [Platform] in
theorem isSome_set {d : Dict String Deal} {k : String} {v : Deal} (i : String) :
    ((d.set k v).get? i).isSome ↔ i = k ∨ (d.get? i).isSome := by
  rw [Dict.get?_set]
  split_ifs with h <;> simp [h]

variable {s : Store} {signer : GatewaySigner} {ids : EventIds}

/-- A commit with a fresh key and a fresh request id adds its decision to the
    tally. -/
theorem Tallied.afterRequest (h : s.Tallied) {req : CommitRequest} {deal : Deal}
    {chain : List Event} {plan : CommitPlan} (hc : s.events.get? req.dealId = some chain)
    (hp : RequestPlan signer deal chain.length (lastHash chain genesisHash) req plan)
    (hkey : s.decisions.get? req.idempotencyKey = none) (hreq : req.requestId ∉ s.seenRequests)
    (ho : ∃ pi : PolicyInput, pi.proposal.idempotencyKey = req.idempotencyKey ∧
      (req.proposalDigest, req.decision) = (proposalDigest pi, evaluate pi)) :
    (s.afterRequest req chain plan).Tallied := by
  have hperm : (s.afterRequest req chain plan).decisionEntries.Perm _ :=
      decisionEntries_append hc rfl
  rw [hp.decisionsOf] at hperm
  have hlog : Logs req.idempotencyKey (req.proposalDigest, req.decision) req.decisionEntry :=
    ⟨rfl, rfl, rfl, rfl, rfl⟩
  -- the new key and request id are on no chain yet
  have hfreshKey : ∀ e ∈ s.decisionEntries, e.idempotencyKey ≠ req.idempotencyKey := by
    intro e he hk
    obtain ⟨stored, hst, -⟩ := h.stored e he
    rw [hk, hkey] at hst
    cases hst
  have hfreshReq : ∀ e ∈ s.decisionEntries, e.requestId ≠ req.requestId := by
    intro e he hk
    exact hreq (hk ▸ h.seen e he)
  refine ⟨?_, ?_, ?_, ?_, ?_, ?_, ?_, ?_⟩
  · rw [(hperm.map _).nodup_iff, List.map_append, List.nodup_append]
    refine ⟨h.keys, by simp, ?_⟩
    rintro k hk k' hk' rfl
    obtain ⟨e, he, rfl⟩ := List.mem_map.1 hk
    exact hfreshKey e he (List.mem_singleton.1 hk')
  · rw [(hperm.map _).nodup_iff, List.map_append, List.nodup_append]
    refine ⟨h.requests, by simp, ?_⟩
    rintro k hk k' hk' rfl
    obtain ⟨e, he, rfl⟩ := List.mem_map.1 hk
    exact hfreshReq e he (List.mem_singleton.1 hk')
  · intro e he
    rcases List.mem_append.1 (hperm.mem_iff.1 he) with he | he
    · exact Finset.mem_insert_of_mem (h.seen e he)
    · rw [List.mem_singleton] at he; subst he; exact Finset.mem_insert_self _ _
  · intro key stored hk
    simp only [Store.afterRequest, Dict.get?_set] at hk
    split_ifs at hk with hkk
    · cases hk
      exact ⟨req.decisionEntry, hperm.mem_iff.2 (by simp), hkk ▸ hlog⟩
    · obtain ⟨e, he, hl⟩ := h.logged key stored hk
      exact ⟨e, hperm.mem_iff.2 (by simp [he]), hl⟩
  · intro e he
    simp only [Store.afterRequest, Dict.get?_set]
    rcases List.mem_append.1 (hperm.mem_iff.1 he) with he | he
    · simp only [if_neg (hfreshKey e he)]
      exact h.stored e he
    · rw [List.mem_singleton] at he
      subst he
      exact ⟨_, if_pos rfl, hlog⟩
  · intro key stored hk
    simp only [Store.afterRequest, Dict.get?_set] at hk
    split_ifs at hk with hkk
    · cases hk
      rw [hkk]
      exact ho
    · exact h.original key stored hk
  · exact rows_set h rfl isSome_set
  · exact readable_set h hc hp.takes.readable

theorem Tallied.processRequest (h : s.Tallied) (pi : PolicyInput) (recordedAt : String) :
    (processRequest s pi signer recordedAt ids).2.Tallied := by
  rcases processRequest_cases s pi signer recordedAt ids with hs | ⟨hg, hs⟩
  · rw [hs]; exact h
  · rw [hs]
    obtain ⟨hkey, hreq, -⟩ := checkAntiReplay_pass.1 hg
    have hcases := s.commitRequest_cases (pi.commitRequest recordedAt) signer ids
    generalize s.commitRequest (pi.commitRequest recordedAt) signer ids = r at hcases ⊢
    cases hcases with
    | refused r hr => exact h
    | committed deal chain plan hd hc hp _ =>
      exact h.afterRequest hc hp hkey (of_decide_eq_false hreq) ⟨pi, rfl, rfl⟩

theorem Tallied.createDeal (h : s.Tallied) (deal : Deal) (createdAt : String) :
    (s.createDeal deal createdAt).2.Tallied := by
  unfold Store.createDeal
  split_ifs with hs
  · exact h
  · have hn : s.events.get? deal.dealId = none := by
      by_contra he
      exact hs ((h.rows _).1 (Option.isSome_iff_ne_none.2 he))
    have hp : (s.events.set deal.dealId []).values.flatMap decisionsOf = s.decisionEntries := by
      rw [Dict.values_set_new _ hn, List.flatMap_append]
      simp [decisionsOf, decisionEntries]
    refine h.quiet (by rw [decisionEntries, hp]) rfl rfl ?_ ?_
    · exact rows_set h rfl isSome_set
    · intro c hm e he
      rcases Dict.mem_values_set hm with rfl | hm
      · cases he
      · exact h.readable c hm e he

theorem Tallied.commitTransition (h : s.Tallied) (req : TransitionRequest) :
    (s.commitTransition req signer ids).2.Tallied := by
  have hcases := s.commitTransition_cases req signer ids
  generalize s.commitTransition req signer ids = r at hcases ⊢
  cases hcases with
  | refused r hr => exact h
  | committed deal chain target plan hd hc hn ht hp _ =>
    have hperm : (s.afterTransition req chain plan).decisionEntries.Perm _ :=
      decisionEntries_append hc rfl
    rw [hp.decisionsOf, List.append_nil] at hperm
    exact h.quiet hperm rfl rfl
      (rows_set h rfl isSome_set)
      (readable_set h hc (hp.takes ht).readable)

theorem Tallied.commitApproval (h : s.Tallied) (req : ApprovalRequest) :
    (s.commitApproval req signer ids).2.Tallied := by
  have hcases := s.commitApproval_cases req signer ids
  generalize s.commitApproval req signer ids = r at hcases ⊢
  cases hcases with
  | refused r hr => exact h
  | committed deal approval decided chain token record revoked plan hd hc ha hs hn hi hp hu _ =>
    have hperm : (s.afterApproval req chain plan decided).decisionEntries.Perm _ :=
      decisionEntries_append hc rfl
    rw [hp.decisionsOf, List.append_nil] at hperm
    exact h.quiet hperm rfl rfl
      (rows_set h rfl isSome_set)
      (readable_set h hc hp.readable)

theorem Tallied.commitRevocation (h : s.Tallied) (req : RevocationRequest) :
    (s.commitRevocation req signer ids).2.Tallied := by
  have hcases := s.commitRevocation_cases req signer ids
  generalize s.commitRevocation req signer ids = r at hcases ⊢
  cases hcases with
  | refused r hr => exact h
  | committed deal chain record plan hd hc hn hr hl hp _ =>
    have hperm : (s.afterRevocation req chain plan).decisionEntries.Perm _ :=
      decisionEntries_append hc rfl
    rw [hp.decisionsOf, List.append_nil] at hperm
    refine h.quiet hperm rfl rfl (rows_set h rfl fun i => ?_)
      (readable_set h hc hp.takes.readable)
    refine ⟨.inr, fun hi => hi.elim (fun hi => ?_) id⟩
    rw [hi, show (s.afterRevocation req chain plan).deals = s.deals from rfl, hd]
    rfl

end Store

theorem tallied_invariant (signer : GatewaySigner) (may : Store → LedgerOp → Prop) :
    (service signer may).Invariant Store.Tallied where
  init := by
    rintro s rfl
    exact ⟨.nil, .nil, by rintro e ⟨⟩, by rintro k v ⟨⟩, by rintro e ⟨⟩, by rintro k v ⟨⟩,
      fun id => .rfl, by rintro c ⟨⟩⟩
  step := by
    rintro s s' - h (⟨pi, recordedAt, ids⟩ | ⟨op, ids, ho, hm⟩)
    · exact h.processRequest pi recordedAt
    · cases op with
      | createDeal dealId createdAt => exact h.createDeal _ createdAt
      | linkDealRecord dealId recordId =>
        obtain ⟨links, hl⟩ := s.linkDealRecord_store dealId recordId
        rw [LedgerOp.run, hl]
        exact h.quiet (.refl _) rfl rfl h.rows h.readable
      | putRecord record => exact h.quiet (.refl _) rfl rfl h.rows h.readable
      | putRevocation revocation => exact h.quiet (.refl _) rfl rfl h.rows h.readable
      | commitRequest req => exact ho.elim
      | commitTransition req => exact h.commitTransition req
      | commitApproval req => exact h.commitApproval req
      | commitRevocation req => exact h.commitRevocation req

end Mandate
