/-
  What the store writes verifies.

  Over any run of valid operations, every chain verifies under the signer's
  key, and any bundle of a stored deal is read back from its printed text as
  the same bundle, which verifies as well (`no_false_alarms`).  The run keeps
  the store sound (`validLedger_invariant`): each chain is written by the signer, with
  identifiers an event accepts, and leads from a draft to the state of its deal.
-/
import Mandate.Ledger.BundleTrips
import Mandate.Ledger.Numbering
import Mandate.Transport.SignedTrips

namespace Mandate

open Json

section

/-! ## The state a chain leads to -/

/-- The transitions of the events lead from one state to another. -/
structure Leads (s : DealState) (events : List Event) (s' : DealState) : Prop where
  walk : Walk s (transitionsOf events) s'
  readable : ∀ e ∈ events, e.Readable

theorem Leads.append {s s' s'' : DealState} {g g' : List Event} (h : Leads s g s')
    (h' : Leads s' g' s'') : Leads s (g ++ g') s'' where
  walk := by
    rw [transitionsOf, List.filterMap_append]
    exact walk_append.2 ⟨_, h.walk, h'.walk⟩
  readable e he := (List.mem_append.1 he).elim (h.readable e) (h'.readable e)

theorem Takes.leads {deal deal' : Deal} {events : List Event} (h : Takes deal events deal') :
    Leads deal.state events deal'.state := ⟨h.walk, h.readable⟩

theorem Leads.lastState {s s' : DealState} {events : List Event} (h : Leads s events s')
    {last : Event} (hl : lastTransition events = some last) :
    last.str? "to_state" = some s'.value := by
  have hlast := lastTransition_eq h.readable
  have htype : last.eventType = .stateTransition := by
    simpa using List.find?_some hl
  have hmem : last ∈ events := List.mem_reverse.1 (List.mem_of_find?_eq_some hl)
  obtain ⟨t, ht⟩ := Option.isSome_iff_exists.1 ((h.readable last hmem).transition htype)
  rw [hl, Option.bind_some, ht] at hlast
  rw [← h.walk.last t hlast.symm]
  exact transition?_toState ht

variable [Platform] {signer : GatewaySigner} {deal : Deal} {seq : ℕ} {prevHash : String}
  {plan : CommitPlan} {ids : EventIds} {s : Store}

theorem ApprovalPlan.leads {approval : Approval} {req : ApprovalRequest}
    {record : Option AuthorityRecord} {revoked : Bool} {token : Option ActionToken}
    (h : ApprovalPlan signer deal approval seq prevHash req record revoked token plan) :
    Leads deal.state plan.events plan.newDeal.state := by
  cases h with
  | granted aid id approvalRecord action event target _ har hk hg he ht =>
    have hgranted : (req.grantedEvent signer aid seq prevHash approval.requestId
        approvalRecord).approval? = some ⟨.granted, approval.requestId, req.action, _⟩ :=
      req.grantedEvent_approval? ..
    exact (takes_approval (d := deal) hgranted).leads.append
      (takes_transition (d := deal) (req.transitionEvent_transition? ..) rfl ht).leads
  | denied id denyReason hv =>
    exact (takes_approval (d := deal) (req.deniedEvent_approval? ..)).leads

/-! ## An event that was built is read -/

/-- A digest is 64 hexadecimal digits. -/
def HexDigests : Prop := ∀ bytes, matchesHash (Platform.sha256Hex bytes).toList

omit [Platform] in
theorem Event.distinct {e : Event} (hp : Distinct (.obj e.payload)) : e.toJson.Distinct := by
  have hrecord : (optStr e.authorityRecordId).Distinct := by
    cases e.authorityRecordId <;> trivial
  simp [Event.toJson, EventSignature.toJson, Distinct, DistinctFields, hrecord]
  exact hp

omit [Platform] in
theorem readsAs_enum {α : Type} [StrEnum α] (a : α) : ReadsAs readEnum (.str (StrEnum.value a)) a :=
  stable_enum (v := .str (StrEnum.value a)) (StrEnum.ofValue?_value a)

omit [Platform] in
theorem readsAs_optStr (o : Option String) : ReadsAs (readOptional readStr) (optStr o) o := by
  have hread : readOptional readStr (optStr o) = some o := by cases o <;> rfl
  exact stable_optStr stable_str hread

omit [Platform] in
theorem EventSignature.readsAs (s : EventSignature) : ReadsAs EventSignature.read s.toJson s := by
  intro w hw
  obtain ⟨d, rfl, hd⟩ := carries_obj (by simp) hw
  refine Option.bind_eq_some_iff.2 ⟨d, readDict_entries d, ?_⟩
  exact bind_member hd rfl (readsAs_str _) <| bind_member hd rfl (readsAs_str _) <|
    bind_member hd rfl (readsAs_str _) rfl

/-- What is written of a valid event is read as the event. -/
theorem Event.read_toJson (hi : KeepsInts) {e : Event} (hv : e.Valid)
    (hp : Distinct (.obj e.payload)) : Event.read e.toJson = some e := by
  obtain ⟨d, hd, hholds⟩ := carries_obj (w := e.toJson) (by simp) ⟨e.distinct hp, rfl⟩
  have hpayload : Mandate.required d "payload" readDict = some ⟨e.payload, hp.1⟩ := by
    have hget : d.get? "payload" = some (.obj e.payload) := by
      rw [Dict.get?, ← Json.obj.inj hd]
      rfl
    exact Option.bind_eq_some_iff.2 ⟨_, hget, dif_pos hp.1⟩
  rw [hd]
  refine Option.bind_eq_some_iff.2 ⟨d, readDict_entries d, ?_⟩
  exact bind_member hholds rfl (readsAs_str _) <| bind_member hholds rfl (readsAs_str _) <|
    bind_member hholds rfl (readsAs_amount hi _) <| bind_member hholds rfl (readsAs_enum _) <|
    bind_member hholds rfl (readsAs_enum _) <| bind_member hholds rfl (readsAs_str _) <|
    bind_member hholds rfl (readsAs_optStr _) <| bind_member hholds rfl (readsAs_str _) <|
    bind_member hholds rfl (readsAs_str _) <| bind_member hholds rfl (readsAs_str _) <|
    Option.bind_eq_some_iff.2 ⟨_, hpayload,
      bind_member hholds rfl (readsAs_str _) <| bind_member hholds rfl (readsAs_str _) <|
      bind_member hholds rfl e.signature.readsAs <|
      toOption_eq_some.2 (Event.validate_ok.2 ⟨hv, rfl⟩)⟩

/-! ## Valid operations -/

variable [TextForms]

/-- The record was read from a request, with a currency of ASCII letters. -/
def AuthorityRecord.Submitted (r : AuthorityRecord) : Prop :=
  ∃ v, AuthorityRecord.read v = some r ∧
    ∀ currency, submittedCurrency v = some currency → ∀ c ∈ currency.toList, c.isAlpha

omit [TextForms] in
/-- The revocation was read from a request. -/
def Revocation.Submitted (r : Revocation) : Prop := ∃ v, Revocation.read v = some r

omit [Platform] [TextForms] in
/-- The authority record that the events of an operation name. -/
def LedgerOp.authorityRecordId : LedgerOp → Option String
  | commitRequest req => some req.authorityRecordId
  | commitTransition req => req.authorityRecordId
  | commitApproval req => some req.authorityRecordId
  | commitRevocation req => some req.revocation.recordId
  | _ => none

/-- The identifiers, records and revocations of an operation are ones that the
    request models accept. -/
def LedgerOp.Valid : LedgerOp → Prop
  | createDeal dealId _ => matchesUlid dealId.toList
  | linkDealRecord _ _ => True
  | putRecord record => record.Submitted
  | putRevocation revocation => revocation.Submitted
  | commitRequest req => matchesUlid req.authorityRecordId.toList ∧ req.record.Submitted
  | commitTransition req => ∀ id ∈ req.authorityRecordId, matchesUlid id.toList
  | commitApproval req => matchesUlid req.authorityRecordId.toList
  | commitRevocation req => req.revocation.Submitted

/-- The store under valid operations. -/
def validLedger (signer : GatewaySigner) : System Store where
  init s := s = .empty
  step s s' := ∃ (op : LedgerOp) (ids : EventIds), op.Valid ∧ (∀ n, matchesUlid (ids n).toList) ∧
    s' = op.run signer ids s

omit [TextForms] in
theorem Revocation.Submitted.recordId {r : Revocation} (h : r.Submitted) :
    matchesUlid r.recordId.toList := by
  obtain ⟨v, h⟩ := h
  obtain ⟨d, -, h⟩ := Option.bind_eq_some_iff.1 h
  obtain ⟨_, -, h⟩ := Option.bind_eq_some_iff.1 h
  obtain ⟨_, -, h⟩ := Option.bind_eq_some_iff.1 h
  obtain ⟨recordId, hr, h⟩ := Option.bind_eq_some_iff.1 h
  iterate 2 obtain ⟨_, -, h⟩ := Option.bind_eq_some_iff.1 h
  cases h
  obtain ⟨x, -, hx⟩ := Option.bind_eq_some_iff.1 hr
  exact (Option.filter_eq_some_iff.1 hx).2

theorem LedgerOp.Valid.authorityRecordId {op : LedgerOp} (h : op.Valid) :
    ∀ id ∈ op.authorityRecordId, matchesUlid id.toList := by
  rintro id hid
  cases op with
  | commitRequest req =>
    cases hid
    exact h.1
  | commitTransition req => exact h id hid
  | commitApproval req =>
    cases hid
    exact h
  | commitRevocation req =>
    cases hid
    exact Revocation.Submitted.recordId h
  | createDeal | linkDealRecord | putRecord | putRevocation => cases hid

/-! ## The identifiers of the events -/

section
omit [TextForms]

/-- The event has a drawn id and names the operation's authority record. -/
structure LedgerOp.Stamps (op : LedgerOp) (ids : EventIds) (e : Event) : Prop where
  eventId : e.eventId ∈ ids.drawn
  authorityRecordId : e.authorityRecordId = op.authorityRecordId

omit [Platform] in
theorem forall_mem_extend {P : Event → Prop} {built : List Event} {next : ℕ → String → Event}
    (hb : ∀ e ∈ built, P e) (hn : ∀ n prev, P (next n prev)) :
    ∀ e ∈ extend seq prevHash built next, P e := by
  intro e he
  rcases List.mem_append.1 he with he | he
  · exact hb e he
  · rw [List.mem_singleton.1 he]
    exact hn _ _

theorem RequestPlan.authorityRecordId {req : CommitRequest}
    (h : RequestPlan signer deal seq prevHash req plan) :
    ∀ e ∈ plan.events, e.authorityRecordId = some req.authorityRecordId := by
  have hrecorded : ∀ mid did, ∀ e ∈ req.recorded signer mid did seq prevHash,
      e.authorityRecordId = some req.authorityRecordId := by
    intro mid did
    refine forall_mem_extend (fun e he => ?_) fun _ _ => rfl
    unfold CommitRequest.messages at he
    cases hc : req.content with
    | none => simp [hc] at he
    | some content =>
      simp only [hc, List.mem_singleton] at he
      rw [he]
      rfl
  cases h with
  | decided mid did ho => exact hrecorded mid did
  | applied mid did id token event target ho hv he ht =>
    dsimp only
    exact forall_mem_extend (hrecorded mid did) fun _ _ => rfl
  | held mid did id aid approval ho ha =>
    dsimp only
    exact forall_mem_extend (hrecorded mid did) fun _ _ => rfl

theorem TransitionPlan.authorityRecordId {req : TransitionRequest} {target : DealState}
    (h : TransitionPlan signer deal seq prevHash req target plan) :
    ∀ e ∈ plan.events, e.authorityRecordId = req.authorityRecordId := by
  cases h with
  | applied mid id =>
    dsimp only
    refine forall_mem_extend (fun e he => ?_) fun _ _ => rfl
    unfold TransitionRequest.messages at he
    cases hc : req.content with
    | none => simp [hc] at he
    | some content =>
      simp only [hc, List.mem_singleton] at he
      rw [he]
      rfl

theorem ApprovalPlan.authorityRecordId {approval : Approval} {req : ApprovalRequest}
    {record : Option AuthorityRecord} {revoked : Bool} {token : Option ActionToken}
    (h : ApprovalPlan signer deal approval seq prevHash req record revoked token plan) :
    ∀ e ∈ plan.events, e.authorityRecordId = some req.authorityRecordId := by
  cases h with
  | granted aid id approvalRecord action event target _ har hk hg he ht =>
    dsimp only
    exact forall_mem_extend (List.forall_mem_singleton.2 rfl) fun _ _ => rfl
  | denied id denyReason hv => exact List.forall_mem_singleton.2 rfl

theorem RevocationPlan.authorityRecordId {req : RevocationRequest}
    (h : RevocationPlan signer deal seq prevHash req plan) :
    ∀ e ∈ plan.events, e.authorityRecordId = some req.revocation.recordId := by
  cases h with
  | revoked id => exact List.forall_mem_singleton.2 rfl

/-- An operation appends events that it stamped to one chain, or keeps the
    chains; a new deal starts a new one. -/
inductive LedgerOp.Appends (op : LedgerOp) (ids : EventIds) (s s' : Store) : Prop
  | kept (h : s'.events = s.events)
  | created (dealId : String) (h : s'.events = s.events.set dealId [])
  | appended (dealId : String) (chain events : List Event)
      (hc : s.events.get? dealId = some chain)
      (h : s'.events = s.events.set dealId (chain ++ events))
      (hs : ∀ e ∈ events, op.Stamps ids e)

omit [Platform] in
theorem stamps_of_plan {op : LedgerOp}
    (hids : (plan.events.map Event.eventId).Sublist ids.drawn)
    (hr : ∀ e ∈ plan.events, e.authorityRecordId = op.authorityRecordId) :
    ∀ e ∈ plan.events, op.Stamps ids e :=
  fun e he => ⟨hids.subset (List.mem_map_of_mem he), hr e he⟩

theorem commitTransition_appends (s : Store) (req : TransitionRequest) :
    (LedgerOp.commitTransition req).Appends ids s (s.commitTransition req signer ids).2 := by
  unfold Store.commitTransition
  cases hd : s.deals.get? req.dealId with
  | none => exact .kept rfl
  | some deal =>
    simp only
    split_ifs with hn
    · exact .kept rfl
    · cases ht : transitionFor deal.state req.event with
      | none => exact .kept rfl
      | some target =>
        simp only
        cases hc : s.events.get? req.dealId with
        | none => exact .kept rfl
        | some chain =>
          simp only
          cases hp : planCommitTransition signer deal chain.length (lastHash chain genesisHash)
              req target ids with
          | error e => exact .kept rfl
          | ok plan =>
            exact .appended _ chain plan.events hc rfl (stamps_of_plan
              (planCommitTransition_ids hp) (transitionPlan_of_ok hp).authorityRecordId)

theorem commitApproval_appends (s : Store) (req : ApprovalRequest) :
    (LedgerOp.commitApproval req).Appends ids s (s.commitApproval req signer ids).2 := by
  unfold Store.commitApproval
  cases hd : s.deals.get? req.dealId with
  | none => exact .kept rfl
  | some deal =>
    simp only
    cases ha : s.approvals.get? req.approvalId with
    | none => exact .kept rfl
    | some approval =>
      simp only
      split_ifs with hs hn
      · exact .kept rfl
      · exact .kept rfl
      · cases hc : s.events.get? req.dealId with
        | none => exact .kept rfl
        | some chain =>
          simp only
          cases hi : s.approvalInputs req approval with
          | error e => exact .kept rfl
          | ok inputs =>
            cases inputs with
            | none => exact .kept rfl
            | some inputs =>
              obtain ⟨token, record, revoked⟩ := inputs
              simp only
              cases hp : planCommitApproval signer deal approval chain.length
                  (lastHash chain genesisHash) req record revoked token ids with
              | error e => exact .kept rfl
              | ok plan =>
                simp only
                cases hu : plan.approval with
                | none => exact .kept rfl
                | some decided =>
                  exact .appended _ chain plan.events hc rfl (stamps_of_plan
                    (planCommitApproval_ids hp) (approvalPlan_of_ok hp).authorityRecordId)

theorem commitRevocation_appends (s : Store) (req : RevocationRequest) :
    (LedgerOp.commitRevocation req).Appends ids s (s.commitRevocation req signer ids).2 := by
  unfold Store.commitRevocation
  cases hd : s.deals.get? req.dealId with
  | none => exact .kept rfl
  | some deal =>
    simp only
    split_ifs with hn
    · exact .kept rfl
    · cases hr : s.records.get? req.revocation.recordId with
      | none => exact .kept rfl
      | some record =>
        simp only
        split_ifs with hl
        · exact .kept rfl
        · cases hc : s.events.get? req.dealId with
          | none => exact .kept rfl
          | some chain =>
            simp only
            cases hp : planCommitRevocation signer deal chain.length (lastHash chain genesisHash)
                req ids with
            | error e => exact .kept rfl
            | ok plan =>
              exact .appended _ chain plan.events hc rfl (stamps_of_plan
                (planCommitRevocation_ids hp) (revocationPlan_of_ok hp).authorityRecordId)

theorem LedgerOp.appends (op : LedgerOp) (s : Store) (signer : GatewaySigner) (ids : EventIds) :
    op.Appends ids s (op.run signer ids s) := by
  cases op with
  | createDeal dealId createdAt =>
    simp only [LedgerOp.run, Store.createDeal]
    split_ifs
    · exact .kept rfl
    · exact .created dealId rfl
  | linkDealRecord dealId recordId =>
    obtain ⟨links, hl⟩ := s.linkDealRecord_store dealId recordId
    rw [LedgerOp.run, hl]
    exact .kept rfl
  | putRecord record => exact .kept rfl
  | putRevocation revocation => exact .kept rfl
  | commitRequest req =>
    rcases s.commitRequest_planned req signer ids with
      hs | ⟨deal, event, chain, plan, -, hc, ht, hp, hs⟩
    · exact .kept (congrArg Store.events hs)
    · exact .appended _ chain plan.events hc (congrArg Store.events hs) (stamps_of_plan
        (planCommitRequest_ids hp) (requestPlan_of_ok ht hp).authorityRecordId)
  | commitTransition req => exact commitTransition_appends s req
  | commitApproval req => exact commitApproval_appends s req
  | commitRevocation req => exact commitRevocation_appends s req

omit [Platform] in
/-- The events of a chain were there before, or the operation stamped them. -/
theorem LedgerOp.Appends.mem {op : LedgerOp} {s s' : Store} (h : op.Appends ids s s')
    {id : String} {e : Event} (he : e ∈ s'.eventsFor id) :
    e ∈ s.eventsFor id ∨ op.Stamps ids e := by
  cases h with
  | kept h =>
    rw [Store.eventsFor, h] at he
    exact .inl he
  | created dealId h =>
    by_cases hid : dealId = id
    · subst hid
      rw [Store.eventsFor, h, Dict.get?_set_self] at he
      cases he
    · exact .inl (Store.eventsFor_of_set_ne hid h ▸ he)
  | appended dealId chain events hc h hs =>
    by_cases hid : dealId = id
    · subst hid
      rw [Store.eventsFor, h, Dict.get?_set_self, Option.getD_some, List.mem_append] at he
      rw [Store.eventsFor_of_get? hc]
      exact he.imp_right (hs e)
    · exact .inl (Store.eventsFor_of_set_ne hid h ▸ he)

end

/-! ## Every run -/

/-- The stored records and revocations were read from requests. -/
structure Store.Submitted (s : Store) : Prop where
  records : ∀ r ∈ s.records.values, r.Submitted
  revocations : ∀ r ∈ s.revocations.values, r.Submitted

theorem LedgerOp.submitted {op : LedgerOp} (hop : op.Valid) (h : s.Submitted) :
    (op.run signer ids s).Submitted := by
  cases op with
  | createDeal dealId createdAt =>
    simp only [LedgerOp.run, Store.createDeal]
    split_ifs
    · exact h
    · exact ⟨h.records, h.revocations⟩
  | linkDealRecord dealId recordId =>
    obtain ⟨links, hl⟩ := s.linkDealRecord_store dealId recordId
    rw [LedgerOp.run, hl]
    exact ⟨h.records, h.revocations⟩
  | putRecord record =>
    refine ⟨fun r hr => ?_, h.revocations⟩
    rcases Dict.mem_values_set hr with rfl | hr
    · exact hop
    · exact h.records r hr
  | putRevocation revocation =>
    refine ⟨h.records, fun r hr => ?_⟩
    rcases Dict.mem_values_set hr with rfl | hr
    · exact hop
    · exact h.revocations r hr
  | commitRequest req =>
    have hcases := s.commitRequest_cases req signer ids
    simp only [LedgerOp.run]
    generalize s.commitRequest req signer ids = result at hcases ⊢
    cases hcases with
    | refused => exact h
    | committed deal chain plan hd hc hp ht =>
      refine ⟨fun r hr => ?_, h.revocations⟩
      rcases Dict.mem_values_set hr with rfl | hr
      · exact hop.2
      · exact h.records r hr
  | commitTransition req =>
    have hcases := s.commitTransition_cases req signer ids
    simp only [LedgerOp.run]
    generalize s.commitTransition req signer ids = result at hcases ⊢
    cases hcases with
    | refused => exact h
    | committed => exact ⟨h.records, h.revocations⟩
  | commitApproval req =>
    have hcases := s.commitApproval_cases req signer ids
    simp only [LedgerOp.run]
    generalize s.commitApproval req signer ids = result at hcases ⊢
    cases hcases with
    | refused => exact h
    | committed => exact ⟨h.records, h.revocations⟩
  | commitRevocation req =>
    have hcases := s.commitRevocation_cases req signer ids
    simp only [LedgerOp.run]
    generalize s.commitRevocation req signer ids = result at hcases ⊢
    cases hcases with
    | refused => exact h
    | committed deal chain record plan hd hc hn hr hl hp ht =>
      refine ⟨h.records, fun r hr => ?_⟩
      rcases Dict.mem_values_set hr with rfl | hr
      · exact hop
      · exact h.revocations r hr

/-- A store whose deals export well. -/
structure Store.Sound (signer : GatewaySigner) (s : Store) : Prop where
  written : s.Written signer
  stamped : ∀ id, ∀ e ∈ s.eventsFor id, matchesUlid e.eventId.toList ∧
    ∀ recordId ∈ e.authorityRecordId, matchesUlid recordId.toList
  row : ∀ id deal, s.deals.get? id = some deal → matchesUlid id.toList ∧
    Leads .draft (s.eventsFor id) deal.state
  submitted : s.Submitted

omit [Platform] [TextForms] in
/-- A commit appends events that lead from the deal to its new row. -/
theorem Leads.commit {s' : Store} {id : String} {newDeal : Deal} {chain events : List Event}
    (h : Leads .draft (s.eventsFor id) deal.state) (hc : s.events.get? id = some chain)
    (hc' : s'.events.get? id = some (chain ++ events))
    (hl : Leads deal.state events newDeal.state) :
    Leads .draft (s'.eventsFor id) newDeal.state := by
  rw [Store.eventsFor_of_get? hc] at h
  rw [Store.eventsFor_of_get? hc']
  exact h.append hl

theorem Store.Sound.row_step {op : LedgerOp} {s' : Store} (h : s.Sound signer) (hop : op.Valid)
    {id : String} (hstep : DealStep signer id s op s') {deal' : Deal}
    (hd' : s'.deals.get? id = some deal') :
    matchesUlid id.toList ∧ Leads .draft (s'.eventsFor id) deal'.state := by
  cases hstep with
  | kept op s' hd he =>
    rw [he]
    exact h.row id deal' (hd ▸ hd')
  | created createdAt s' hn hd he =>
    rw [hd] at hd'
    cases hd'
    rw [he]
    exact ⟨hop, rfl, by simp⟩
  | requested req deal chain plan hid hd hc hp =>
    subst hid
    obtain ⟨hulid, hrow⟩ := h.row _ deal hd
    have hnew : plan.newDeal = deal' := Option.some.inj ((Dict.get?_set_self ..).symm.trans hd')
    rw [← hnew]
    exact ⟨hulid, hrow.commit hc (Dict.get?_set_self ..) hp.takes.leads⟩
  | transitioned req deal chain target plan hid hd hc hn ht hp hs =>
    subst hid
    obtain ⟨hulid, hrow⟩ := h.row _ deal hd
    have hnew : plan.newDeal = deal' := Option.some.inj ((Dict.get?_set_self ..).symm.trans hd')
    rw [← hnew]
    exact ⟨hulid, hrow.commit hc (Dict.get?_set_self ..) (hp.takes ht).leads⟩
  | decided req deal approval decided chain token record revoked plan hid hd hc ha hs hn hi hp =>
    subst hid
    obtain ⟨hulid, hrow⟩ := h.row _ deal hd
    have hnew : plan.newDeal = deal' := Option.some.inj ((Dict.get?_set_self ..).symm.trans hd')
    rw [← hnew]
    exact ⟨hulid, hrow.commit hc (Dict.get?_set_self ..) hp.leads⟩
  | revoked req deal chain plan hid hd hc hp =>
    subst hid
    obtain ⟨hulid, hrow⟩ := h.row _ deal hd
    have hnew : deal = deal' := Option.some.inj (hd.symm.trans hd')
    have hleads : Leads deal.state plan.events plan.newDeal.state := hp.takes.leads
    cases hp
    rw [← hnew]
    exact ⟨hulid, hrow.commit hc (Dict.get?_set_self ..) hleads⟩

theorem validLedger_invariant (signer : GatewaySigner) :
    (validLedger signer).Invariant (Store.Sound signer) where
  init := by
    rintro s rfl
    refine ⟨fun id => trivial, fun id e he => ?_, fun id deal hd => ?_, ⟨fun r hr => ?_,
      fun r hr => ?_⟩⟩
    · cases he
    · cases hd
    · cases hr
    · cases hr
  step := by
    rintro s s' - h ⟨op, ids, hop, hids, rfl⟩
    refine ⟨op.written h.written ids, fun id e he => ?_, fun id deal hd => ?_,
      op.submitted hop h.submitted⟩
    · rcases (op.appends s signer ids).mem he with he | hs
      · exact h.stamped id e he
      · obtain ⟨n, -, hn⟩ := List.mem_map.1 hs.eventId
        refine ⟨hn ▸ hids n, fun recordId hr => ?_⟩
        exact hop.authorityRecordId recordId (hs.authorityRecordId ▸ hr)
    · exact h.row_step hop (op.dealStep s signer ids id) hd

/-! ## Exports -/

omit [TextForms] in
/-- The events of a written chain are valid, if their identifiers are. -/
theorem WrittenFrom.valid {dealId : String} {events : List Event} (hx : HexDigests)
    (hd : matchesUlid dealId.toList)
    (hs : ∀ e ∈ events, matchesUlid e.eventId.toList ∧
      ∀ recordId ∈ e.authorityRecordId, matchesUlid recordId.toList)
    (hp : matchesHash prevHash.toList) (h : WrittenFrom signer dealId seq prevHash events) :
    ∀ e ∈ events, e.Valid := by
  induction events generalizing seq prevHash with
  | nil => simp
  | cons e events ih =>
    obtain ⟨hfirst, hrest⟩ := h
    rw [List.forall_mem_cons] at hs ⊢
    obtain ⟨header, id, t, p, hdeal, rfl⟩ := hfirst.built
    refine ⟨⟨hs.1.1, ?_, hs.1.2, ⟨hp, hx _, hx _⟩, rfl, rfl⟩, ih hs.2 (hx _) hrest⟩
    rw [← hdeal] at hd
    exact hd

omit [Platform] [TextForms] in
theorem genesisHash_hex : matchesHash genesisHash.toList := by decide

/-- A submitted record is read again, if an ASCII letter has a single letter
    for its upper case. -/
theorem AuthorityRecord.Submitted.readsAs (hi : KeepsInts)
    (hb : ∀ b, TextForms.laxBool (.bool b) = some b) (hu : UpperLetters)
    (ha : ∀ c : Char, c.isAlpha → ∃ d, TextForms.upper c = [d]) {r : AuthorityRecord}
    (h : r.Submitted) : ReadsAs AuthorityRecord.read r.toJson r := by
  obtain ⟨v, hr, hletters⟩ := h
  obtain ⟨currency, hc, hiso⟩ := AuthorityRecord.read_currency hr
  refine AuthorityRecord.readsAs hi hb hr ((iso4217_again_iff hu hiso).2 fun c hmem => ?_)
  exact ha c (hletters currency hc c hmem)

omit [Platform] [TextForms] in
theorem EvidenceBundle.distinct {b : EvidenceBundle}
    (he : ∀ e ∈ b.events, Distinct (.obj e.payload)) : b.toJson.Distinct := by
  have hevents : DistinctItems (b.events.map Event.toJson) := by
    refine distinctItems_iff.2 fun x hx => ?_
    obtain ⟨e, hm, rfl⟩ := List.mem_map.1 hx
    exact e.distinct (he e hm)
  have hrecords : DistinctItems (b.authorityRecords.map AuthorityRecord.toJson) := by
    refine distinctItems_iff.2 fun x hx => ?_
    obtain ⟨r, -, rfl⟩ := List.mem_map.1 hx
    exact r.distinct
  have hrevocations : DistinctItems (b.revocations.map Revocation.toJson) := by
    refine distinctItems_iff.2 fun x hx => ?_
    obtain ⟨r, -, rfl⟩ := List.mem_map.1 hx
    exact r.distinct
  simp [EvidenceBundle.toJson, BundleDeal.toJson, GatewayPublicKeyRef.toJson,
    BundleSummary.toJson, SignatureBlock.toJson, Distinct, DistinctFields, hevents, hrecords,
    hrevocations]

/-- The printed text of a bundle is parsed and read as the same bundle. -/
theorem EvidenceBundle.read_bundleJson (hi : KeepsInts) {b : EvidenceBundle}
    (hv : ∀ e ∈ b.events, e.Valid) (hp : ∀ e ∈ b.events, Distinct (.obj e.payload))
    (hr : ∀ r ∈ b.authorityRecords, ReadsAs AuthorityRecord.read r.toJson r)
    (hrev : ∀ r ∈ b.revocations, ReadsAs Revocation.read r.toJson r) :
    ∃ v b', parse (bundleJson b) = some v ∧ EvidenceBundle.read v = some b' ∧ b'.Same b ∧
      ∀ e ∈ b'.events, Distinct (.obj e.payload) := by
  have hdistinct := distinct_normalize b.toJson (EvidenceBundle.distinct hp)
  have hevents : ∀ e ∈ b.events, Event.codec.Survives e := fun e he =>
    Event.survives hi (Event.read_toJson hi (hv e he) (hp e he))
  obtain ⟨b', hb', hsame⟩ := EvidenceBundle.survives hi hevents hr hrev
    ⟨hdistinct, normalize_normalize b.toJson⟩
  exact ⟨_, b', parse_canonical (EvidenceBundle.distinct hp), hb', hsame,
    EvidenceBundle.read_distinct hdistinct hb'⟩

/-- No false alarms.  After any run of valid operations every chain verifies
    under the signer's key; and a bundle of a stored deal, with any of the
    stored records and revocations, is read back from its printed text as the
    same bundle, which verifies with that key. -/
theorem no_false_alarms (hs : signer.Signs) (hx : HexDigests) (hi : KeepsInts)
    (hb : ∀ b, TextForms.laxBool (.bool b) = some b) (hu : UpperLetters)
    (ha : ∀ c : Char, c.isAlpha → ∃ d, TextForms.upper c = [d])
    (hr : (validLedger signer).Reachable s) (id : String) :
    (verifyChain (s.eventsFor id) signer.publicKey).ok = true ∧
      ∀ deal, s.deals.get? id = some deal →
        ∀ (exportedAt createdAt : String) (records : List AuthorityRecord)
          (revocations : List Revocation), (∀ r ∈ records, r ∈ s.records.values) →
          (∀ r ∈ revocations, r ∈ s.revocations.values) →
          ∃ v b, parse (bundleJson (buildBundle exportedAt deal createdAt (s.eventsFor id) records
              revocations signer)) = some v ∧ EvidenceBundle.read v = some b ∧
            b.Same (buildBundle exportedAt deal createdAt (s.eventsFor id) records revocations
              signer) ∧
            ∀ expectedKey : ExpectedKey, expectedKey.load = .ok signer.publicKey →
              (verifyBundle b expectedKey).ok = true := by
  have hsound := (validLedger_invariant signer).holds hr
  have hwritten := hsound.written id
  have hbuilt : ∀ e ∈ s.eventsFor id, (∃ raw, b64urlDecode e.signature.value = .ok raw ∧
      Platform.ed25519Verify signer.publicKey raw e.signingBytes) ∧
      Distinct (.obj e.payload) := by
    intro e he
    obtain ⟨i, hget⟩ := List.getElem?_of_mem he
    have hthis := HashChain.chained_iff.1 hwritten i e hget
    refine ⟨?_, hthis.payload⟩
    obtain ⟨header, eid, t, p, -, rfl⟩ := hthis.built
    exact hs.signBytes _
  have hintact : Intact (s.eventsFor id) signer.publicKey :=
    hwritten.intact fun e he => (hbuilt e he).1
  refine ⟨verifyChain_ok.2 hintact, ?_⟩
  intro deal hd exportedAt createdAt records revocations hrec hrev
  obtain ⟨hulid, hleads⟩ := hsound.row id deal hd
  have hvalid : ∀ e ∈ s.eventsFor id, e.Valid :=
    hwritten.valid hx hulid (hsound.stamped id) genesisHash_hex
  obtain ⟨v, b, hparse, hread, hsame, hdistinct⟩ := EvidenceBundle.read_bundleJson hi
    (b := buildBundle exportedAt deal createdAt (s.eventsFor id) records revocations signer)
    hvalid (fun e he => (hbuilt e he).2)
    (fun r hmem => (hsound.submitted.records r (hrec r hmem)).readsAs hi hb hu ha)
    (fun r hmem => by
      obtain ⟨v, hv⟩ := hsound.submitted.revocations r (hrev r hmem)
      exact stable_revocation hv)
  refine ⟨v, b, hparse, hread, hsame, fun expectedKey hkey => ?_⟩
  have hverifies : (buildBundle exportedAt deal createdAt (s.eventsFor id) records revocations
      signer).Verifies signer.publicKey :=
    buildBundle_verifies hintact (hs.signBytes _) fun last hlast => hleads.lastState hlast
  exact (verifyBundle_ok hkey).2 (hsame.verifies hdistinct (fun e he => (hbuilt e he).2) hverifies)

end

/-! ## A deal with one event -/

open Sample

/-- A platform whose digests are 64 hexadecimal digits. -/
@[reducible] def Sample.digesting : Platform :=
  { Sample.platform with
    sha256Hex := fun bytes => String.ofList ((List.range 64).map fun i =>
      "0123456789abcdef".toList.getD (bytes.foldl (fun h b => h * 31 + b.toNat) i % 16) '0') }

section
attribute [local instance] Sample.digesting Sample.textForms

theorem Sample.hexDigests : HexDigests := by
  intro bytes
  have hdigit : ∀ n, n < 16 →
      "0123456789abcdef".toList.getD n '0' ∈ "0123456789abcdef".toList := by decide
  have hmem : ∀ c ∈ (Platform.sha256Hex bytes).toList, c ∈ "0123456789abcdef".toList := by
    intro c hc
    simp only [Platform.sha256Hex, String.toList_ofList, List.mem_map] at hc
    obtain ⟨i, -, rfl⟩ := hc
    exact hdigit _ (Nat.mod_lt _ (by decide))
  have hlast : (Platform.sha256Hex bytes).toList.getLast? ≠ some '\n' := by
    intro hnewline
    exact absurd (hmem _ (List.mem_of_getLast? hnewline)) (by decide)
  unfold matchesHash
  rw [if_neg hlast, Bool.and_eq_true, decide_eq_true_eq, List.all_eq_true]
  refine ⟨by simp [Platform.sha256Hex], fun c hc => decide_eq_true (hmem c hc)⟩

def Sample.freshIds : EventIds := fun n => ids (n % 10)

theorem Sample.freshIds_ulid (n : ℕ) : matchesUlid (freshIds n).toList := by
  have hdigit : ∀ m, m < 10 → matchesUlid (ids m).toList := by decide
  exact hdigit _ (Nat.mod_lt _ (by decide))

/-- The mandate as it is read from a request. -/
theorem Sample.record_submitted :
    ∃ r, AuthorityRecord.read (submitted "EUR") = some r ∧ r.Submitted := by
  have hread : (AuthorityRecord.read (submitted "EUR")).isSome := by decide +kernel
  obtain ⟨r, hr⟩ := Option.isSome_iff_exists.1 hread
  refine ⟨r, hr, submitted "EUR", hr, fun currency hc c hmem => ?_⟩
  cases hc
  have hall : "EUR".toList.all Char.isAlpha = true := by decide
  exact List.all_eq_true.1 hall c hmem

theorem no_false_alarms_quoted :
    ∃ (s : Store) (deal : Deal) (r : AuthorityRecord), s.deals.get? dealId = some deal ∧
      deal.state = .quoteRequested ∧ r ∈ s.records.values ∧
      (verifyChain (s.eventsFor dealId) signer.publicKey).ok = true ∧
      ∃ v b, parse (bundleJson (buildBundle now.text deal start.text (s.eventsFor dealId) [r] []
          signer)) = some v ∧ EvidenceBundle.read v = some b ∧
        (verifyBundle b (.key signer.publicKey)).ok = true := by
  obtain ⟨r, -, hr⟩ := Sample.record_submitted
  let s₁ := LedgerOp.run signer freshIds .empty (.createDeal dealId start.text)
  let s₂ := LedgerOp.run signer freshIds s₁ (.putRecord r)
  let s₃ := LedgerOp.run signer freshIds s₂ (.commitTransition quoteRequested)
  have hreach₁ : (validLedger signer).Reachable s₁ := by
    refine .step (.init rfl) ⟨.createDeal dealId start.text, freshIds, ?_, freshIds_ulid, rfl⟩
    show matchesUlid dealId.toList
    decide
  have hreach₂ : (validLedger signer).Reachable s₂ :=
    hreach₁.step ⟨.putRecord r, freshIds, hr, freshIds_ulid, rfl⟩
  have hreach : (validLedger signer).Reachable s₃ := by
    refine hreach₂.step ⟨.commitTransition quoteRequested, freshIds, ?_, freshIds_ulid, rfl⟩
    rintro id ⟨⟩
  have hmem : r ∈ s₃.records.values := List.mem_singleton.2 rfl
  obtain ⟨hchain, hexport⟩ := no_false_alarms (fun _ => ⟨List.cons_ne_nil _ _, decide_eq_true rfl⟩)
    Sample.hexDigests (fun _ => rfl) (fun _ => rfl) Sample.upperLetters
    (fun c hc => ⟨c, if_neg (by rintro rfl; exact absurd hc (by decide))⟩) hreach dealId
  obtain ⟨v, b, hparse, hread, -, hok⟩ := hexport _ rfl now.text start.text [r] []
    (List.forall_mem_singleton.2 hmem) (by simp)
  exact ⟨s₃, _, r, rfl, rfl, hmem, hchain, v, b, hparse, hread, hok _ rfl⟩

end

end Mandate
