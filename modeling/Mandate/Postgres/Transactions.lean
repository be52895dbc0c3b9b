/-
  How the transactions of the Postgres store end.

  On every path a commit refuses and has written nothing, is overtaken and
  keeps its first claims, or commits: it claimed its keys, asked for the head
  of the chain, and appended the events that follow it (`Ends`).
-/
import Mandate.Ledger.Numbering
import Mandate.Postgres.Store

namespace Mandate

variable [Platform]

/-- The event a statement appends, if any. -/
def Write.event? : Write → Option Event
  | .event e => some e
  | _ => none

/-- The event logs this decision under this idempotency key. -/
def Event.Records (e : Event) (idempotencyKey proposalDigest : String)
    (decision : PolicyDecision) : Prop :=
  e.eventType = .policyDecision ∧ ∃ requestId action amountMinor, e.payload =
    decisionPayload requestId action decision amountMinor idempotencyKey proposalDigest

/-- The request id was seen, or the nonce is another record's. -/
def CommitRequest.Clashes (req : CommitRequest) (t : Tables) : Prop :=
  req.requestId ∈ t.seenRequests ∨
    ∃ owner, t.seenNonces.get? req.record.nonce = some owner ∧ owner ≠ req.record.recordId

namespace Postgres

/-- How a commit on a deal ends.  Its claims write no event; it is overtaken
    only when `late`. -/
inductive Ends (dealId : String) (late : Prop) :
    CommitResult → List (Database.Read Query.Answer Write) → List Write → Prop
  | refused (r : CommitResult) (reads : List (Database.Read Query.Answer Write))
      (ho : r.outcome ≠ .committed) : Ends dealId late r reads []
  | overtaken (r : CommitResult) (reads : List (Database.Read Query.Answer Write))
      (w : List Write) (ho : r.outcome ≠ .committed) (hl : late) : Ends dealId late r reads w
  | committed (r : CommitResult) (reads : List (Database.Read Query.Answer Write))
      (claims rest : List Write) (seq : ℕ) (prevHash : String) (ho : r.outcome = .committed)
      (hr : ⟨claims, .chainHead dealId, (seq, prevHash)⟩ ∈ reads)
      (hq : ∀ e ∈ claims ++ rest, e.event? = none)
      (hn : Numbered dealId seq r.events) (hne : r.events ≠ [])
      (hd : ∀ key digest decision, .idempotency key digest decision ∈ claims ++ rest →
        ∃ e ∈ r.events, e.Records key digest decision) :
      Ends dealId late r reads (claims ++ r.events.map .event ++ rest)

variable {late : Prop} {signer : GatewaySigner} {ids : EventIds}
  {rule : Tables → List Write → Transaction CommitResult → Prop}
  {reads : List (Database.Read Query.Answer Write)} {w : List Write}

omit [Platform] in
theorem refuse_ends {dealId : String} {outcome : CommitOutcome} {detail : String}
    {newDeal : Option Deal} (ho : outcome ≠ .committed) :
    postgres.Ensures rule (Ends dealId late) (refuse outcome detail newDeal) reads [] :=
  .done (.refused _ _ ho)

theorem records_of_requestPlan {deal : Deal} {seq : ℕ} {prevHash : String} {req : CommitRequest}
    {plan : CommitPlan} (h : RequestPlan signer deal seq prevHash req plan) :
    ∃ e ∈ plan.events, e.Records req.idempotencyKey req.proposalDigest req.decision := by
  have hrec : ∀ mid did, ∃ e ∈ req.recorded signer mid did seq prevHash,
      e.Records req.idempotencyKey req.proposalDigest req.decision := fun mid did =>
    ⟨_, List.mem_append_right _ (List.mem_singleton_self _), rfl, _, _, _, rfl⟩
  cases h with
  | decided mid did ho => exact hrec mid did
  | applied mid did id token event target ho hv he ht =>
    obtain ⟨e, he, hr⟩ := hrec mid did
    exact ⟨e, List.mem_append_left _ he, hr⟩
  | held mid did id aid approval ho ha =>
    obtain ⟨e, he, hr⟩ := hrec mid did
    exact ⟨e, List.mem_append_left _ he, hr⟩

theorem appendRequest_ends {req : CommitRequest} {deal : Deal} {event : Option DealEvent}
    (ht : planTransition deal req.action req.decision.outcome = .ok event)
    (hq : ∀ e ∈ w, e.event? = none)
    (hi : ∀ key digest decision, .idempotency key digest decision ∈ w →
      key = req.idempotencyKey ∧ digest = req.proposalDigest ∧ decision = req.decision) :
    postgres.Ensures rule (Ends req.dealId late) (appendRequest signer req ids deal event)
      reads w := by
  refine .select fun s _ => ?_
  generalize postgres.ask (postgres.view s w) (.chainHead req.dealId) = head
  obtain ⟨seq, prevHash⟩ := head
  simp only
  cases hp : planCommitRequest signer deal seq prevHash req event ids with
  | error e => exact .fail
  | ok plan =>
    have hplan := requestPlan_of_ok ht hp
    obtain ⟨hn, hne⟩ := hplan.numbered
    have hend : ∀ rest, (∀ e ∈ rest, e.event? = none ∧
        ∀ key digest decision, e ≠ .idempotency key digest decision) →
        Ends req.dealId late (Store.committed plan)
          (reads ++ [⟨w, .chainHead req.dealId, (seq, prevHash)⟩])
          (w ++ plan.events.map .event ++ rest) := by
      intro rest hrest
      refine .committed _ _ w rest seq prevHash rfl (by simp) (fun e he => ?_) hn hne
        fun key digest decision hm => ?_
      · exact (List.mem_append.1 he).elim (hq e) fun he => (hrest e he).1
      · rcases List.mem_append.1 hm with hm | hm
        · obtain ⟨rfl, rfl, rfl⟩ := hi key digest decision hm
          exact records_of_requestPlan hplan
        · exact absurd rfl ((hrest _ hm).2 key digest decision)
    simp only
    refine .writes ?_
    generalize hdeals : (if event.isSome ∨ plan.approval.isSome then
      [Write.updateDeal req.dealId plan.newDeal] else []) = deals
    have hquiet : ∀ e ∈ deals ++ plan.approval.toList.map Write.approval ++
        [Write.record req.record], e.event? = none ∧
          ∀ key digest decision, e ≠ .idempotency key digest decision := by
      subst hdeals
      intro e he
      simp only [List.mem_append, List.mem_map, List.mem_singleton] at he
      rcases he with (he | ⟨a, -, rfl⟩) | rfl
      · split_ifs at he
        · rw [List.mem_singleton.1 he]
          exact ⟨rfl, fun _ _ _ => by simp⟩
        · cases he
      · exact ⟨rfl, fun _ _ _ => by simp⟩
      · exact ⟨rfl, fun _ _ _ => by simp⟩
    refine .claim (.done ?_) fun s' _ _ => .done ?_
    · have h := hend _ hquiet
      simpa only [List.append_assoc] using h
    · have h := hend (deals ++ plan.approval.toList.map Write.approval) fun e he =>
        hquiet e (List.mem_append_left _ he)
      simpa only [List.append_assoc] using h

omit [Platform] in
/-- A clash found late leaves the claims behind. -/
theorem overtaken_ends {dealId : String} {outcome : CommitOutcome} {detail : String}
    {newDeal : Option Deal} (ho : outcome ≠ .committed) (hl : late) :
    postgres.Ensures rule (Ends dealId late) (refuse outcome detail newDeal) reads w :=
  .done (.overtaken _ _ _ ho hl)

omit [Platform] in
theorem claimNonce_ends {req : CommitRequest} {k : Transaction CommitResult}
    (hrule : ∀ t p, rule t w p → req.Clashes t → late)
    (hw : ∀ t, (postgres.view t w).seenNonces = t.seenNonces)
    (hk : ∀ reads, postgres.Ensures rule (Ends req.dealId late) k reads w)
    (hk' : postgres.Ensures rule (Ends req.dealId late) k reads
      (w ++ [.nonce req.record.nonce req.record.recordId])) :
    postgres.Ensures rule (Ends req.dealId late) (claimNonce req k) reads w := by
  refine .claim hk' fun s _ _ => .select fun s' hr => ?_
  have hask : postgres.ask (postgres.view s' w) (.nonceOwner req.record.nonce) =
      s'.seenNonces.get? req.record.nonce := congrArg (Dict.get? · req.record.nonce) (hw s')
  cases howner : s'.seenNonces.get? req.record.nonce with
  | none =>
    rw [hask, howner]
    exact .fail
  | some owner =>
    rw [hask, howner]
    simp only
    split_ifs with ho
    · exact overtaken_ends (by decide) (hrule s' _ hr (.inr ⟨owner, howner, ho⟩))
    · exact hk _

variable (rule) in
/-- A request is overtaken only when it has claimed its key and clashes. -/
theorem commitRequest_ends (req : CommitRequest)
    (hrule : ∀ t w p, rule t w p → w ≠ [] → req.Clashes t → late) :
    postgres.Ensures rule (Ends req.dealId late) (commitRequest req signer ids) reads [] := by
  refine .select fun s _ => ?_
  generalize postgres.ask (postgres.view s []) (.deal req.dealId) = stored
  cases stored with
  | none => exact refuse_ends (by decide)
  | some deal =>
    simp only
    cases ht : planTransition deal req.action req.decision.outcome with
    | error abort => exact refuse_ends (by decide)
    | ok event =>
      simp only
      refine .claim ?_ fun _ _ _ => refuse_ends (by decide)
      simp only [Bool.not_true, Bool.false_eq_true, if_false]
      have happend : ∀ reads w, (∀ e ∈ w, e = .idempotency req.idempotencyKey
          req.proposalDigest req.decision ∨ e = .request req.requestId ∨
            e = .nonce req.record.nonce req.record.recordId) →
          postgres.Ensures rule (Ends req.dealId late)
            (appendRequest signer req ids deal event) reads w := by
        intro reads w hw
        refine appendRequest_ends ht (fun e he => ?_) fun key digest decision hm => ?_
        · rcases hw e he with rfl | rfl | rfl <;> rfl
        · rcases hw _ hm with h | h | h
          · simpa using h
          · cases h
          · cases h
      refine .claim ?_ fun s' hr hc => ?_
      · simp only [Bool.not_true, Bool.false_eq_true, if_false, List.nil_append, List.cons_append]
        refine claimNonce_ends (fun t p hr => hrule t _ p hr (by simp)) (fun t => rfl)
          (fun reads => ?_) ?_
        · exact happend _ _ (by simp)
        · exact happend _ _ (by simp)
      · simp only [Bool.not_false, if_true]
        have hseen : req.requestId ∈ s'.seenRequests := by
          obtain ⟨k, hk, ht⟩ := postgres_conflicts.1 hc
          rw [List.mem_singleton.1 hk] at ht
          exact ht
        exact overtaken_ends (by decide) (hrule _ _ _ hr (by simp) (.inl hseen))

omit [Platform] in
/-- A command's claim, and what goes on with it. -/
theorem claimCommand_ends {dealId commandId : String} {deal : Deal} {k : Transaction CommitResult}
    (hk : postgres.Ensures rule (Ends dealId late) k reads [.command commandId]) :
    postgres.Ensures rule (Ends dealId late) (claimCommand commandId deal k) reads [] :=
  .claim hk fun _ _ _ => refuse_ends (by decide)

omit [Platform] in
theorem unlessApplied_ends {dealId commandId : String} {deal : Deal}
    {k : Transaction CommitResult}
    (hk : ∀ reads, postgres.Ensures rule (Ends dealId late) k reads []) :
    postgres.Ensures rule (Ends dealId late) (unlessApplied commandId deal k) reads [] := by
  refine .select fun s _ => ?_
  generalize postgres.ask (postgres.view s []) (.command commandId) = command
  cases command with
  | true => exact refuse_ends (by decide)
  | false => exact hk _

omit [Platform] in
/-- The head of the chain, and the events planned on it. -/
theorem append_ends {dealId commandId : String} {r : CommitResult} {seq : ℕ} (prevHash : String)
    (rest : List Write) (ho : r.outcome = .committed)
    (hr : ⟨[.command commandId], .chainHead dealId, (seq, prevHash)⟩ ∈ reads)
    (hn : Numbered dealId seq r.events ∧ r.events ≠ [])
    (hrest : ∀ e ∈ rest, e.event? = none ∧
      ∀ key digest decision, e ≠ .idempotency key digest decision) :
    Ends dealId late r reads ([.command commandId] ++ r.events.map .event ++ rest) := by
  refine .committed r reads [.command commandId] rest seq prevHash ho hr (fun e he => ?_) hn.1 hn.2
    fun key digest decision hm => ?_
  · rcases List.mem_cons.1 he with rfl | he
    · rfl
    · exact (hrest e he).1
  · rcases List.mem_cons.1 hm with h | hm
    · cases h
    · exact absurd rfl ((hrest _ hm).2 key digest decision)

variable (rule) in
theorem commitTransition_ends (req : TransitionRequest) :
    postgres.Ensures rule (Ends req.dealId late) (commitTransition req signer ids) reads [] := by
  refine .select fun s _ => ?_
  generalize postgres.ask (postgres.view s []) (.deal req.dealId) = stored
  cases stored with
  | none => exact refuse_ends (by decide)
  | some deal =>
    refine unlessApplied_ends fun reads => ?_
    cases ht : transitionFor deal.state req.event with
    | none => exact refuse_ends (by decide)
    | some target =>
      refine claimCommand_ends (.select fun s' _ => ?_)
      generalize postgres.ask _ (.chainHead req.dealId) = head
      obtain ⟨seq, prevHash⟩ := head
      simp only
      cases hp : planCommitTransition signer deal seq prevHash req target ids with
      | error e => exact .fail
      | ok plan =>
        simp only
        refine .writes (.done ?_)
        rw [← List.append_assoc]
        exact append_ends prevHash [_] rfl (by simp) (transitionPlan_of_ok hp).numbered
          (by simp [Write.event?])

section
variable [TextForms]

theorem approvalInputs_ends {req : ApprovalRequest} {dealId : String} {approval : Approval}
    {k : Option ActionToken × Option AuthorityRecord × Bool → Transaction CommitResult}
    (hk : ∀ inputs reads, postgres.Ensures rule (Ends dealId late) (k inputs) reads []) :
    postgres.Ensures rule (Ends dealId late) (approvalInputs req approval k) reads [] := by
  unfold approvalInputs
  cases req.operation with
  | denied => exact hk _ _
  | granted =>
    simp only
    cases (StrEnum.ofValue? req.action : Option ActionToken) with
    | none => exact refuse_ends (by decide)
    | some token =>
      refine .select fun s _ => ?_
      generalize postgres.ask _ (.record approval.authorityRecordId) = row
      cases row with
      | none => exact hk _ _
      | some row =>
        cases hv : row.modelValidate with
        | error e =>
          simp only [hv]
          exact .fail
        | ok record =>
          simp only [hv]
          refine .select fun s' _ => ?_
          generalize postgres.ask _ (.revocations record.recordId) = rows
          cases anyM (fun r => revocationApplies r record req.occurredAt) rows with
          | error e => exact .fail
          | ok revoked => exact hk _ _

variable (rule) in
theorem commitApproval_ends (req : ApprovalRequest) :
    postgres.Ensures rule (Ends req.dealId late) (commitApproval req signer ids) reads [] := by
  refine .select fun s _ => ?_
  generalize postgres.ask (postgres.view s []) (.deal req.dealId) = stored
  cases stored with
  | none => exact refuse_ends (by decide)
  | some deal =>
    refine .select fun s' _ => ?_
    generalize postgres.ask (postgres.view s' []) (.approval req.approvalId) = row
    cases row with
    | none => exact refuse_ends (by decide)
    | some row =>
      simp only
      cases row.modelValidate with
      | error e => exact .fail
      | ok approval =>
        simp only
        split_ifs with hs
        · exact refuse_ends (by decide)
        · refine unlessApplied_ends fun reads => approvalInputs_ends fun inputs reads => ?_
          obtain ⟨token, record, revoked⟩ := inputs
          refine claimCommand_ends (.select fun s'' _ => ?_)
          generalize postgres.ask _ (.chainHead req.dealId) = head
          obtain ⟨seq, prevHash⟩ := head
          simp only
          cases hp : planCommitApproval signer deal approval seq prevHash req record revoked token
              ids with
          | error e => exact .fail
          | ok plan =>
            simp only
            cases hu : plan.approval with
            | none => exact .fail
            | some decided =>
              simp only
              refine .writes (.done ?_)
              rw [← List.append_assoc]
              exact append_ends prevHash [_, _] rfl (by simp) (approvalPlan_of_ok hp).numbered
                (by simp [Write.event?])

end

variable (rule) in
theorem commitRevocation_ends (req : RevocationRequest) :
    postgres.Ensures rule (Ends req.dealId late) (commitRevocation req signer ids) reads [] := by
  refine .select fun s _ => ?_
  generalize postgres.ask (postgres.view s []) (.deal req.dealId) = stored
  cases stored with
  | none => exact refuse_ends (by decide)
  | some deal =>
    refine unlessApplied_ends fun reads => .select fun s' _ => ?_
    generalize postgres.ask _ (.record req.revocation.recordId) = record
    cases record with
    | none => exact refuse_ends (by decide)
    | some record =>
      refine .select fun s'' _ => ?_
      generalize postgres.ask _ (.revocations req.revocation.recordId) = existing
      simp only
      split_ifs with he
      · exact refuse_ends (by decide)
      · refine claimCommand_ends (.select fun s₃ _ => ?_)
        generalize postgres.ask _ (.chainHead req.dealId) = head
        obtain ⟨seq, prevHash⟩ := head
        simp only
        cases hp : planCommitRevocation signer deal seq prevHash req ids with
        | error e => exact .fail
        | ok plan =>
          have hn := (revocationPlan_of_ok hp).numbered
          simp only
          have hend : ∀ reads rest, (∀ e ∈ rest, e.event? = none ∧
              ∀ key digest decision, e ≠ .idempotency key digest decision) →
              Ends req.dealId late ⟨.committed, "1 event appended", plan.events, some deal⟩
                (reads ++ [⟨[.command req.commandId], .chainHead req.dealId, (seq, prevHash)⟩])
                ([.command req.commandId] ++ plan.events.map .event ++ rest) := by
            intro reads rest hrest
            exact append_ends prevHash rest rfl (by simp) hn hrest
          refine .writes (.claim (.done ?_) fun _ _ _ => .done ?_)
          · exact hend _ [_] (by simp [Write.event?])
          · rw [← List.append_nil ([_] ++ _)]
            exact hend _ [] (by simp)

/-! ## All transactions -/

/-- A transaction of the store. -/
inductive Txn where
  | createDeal (deal : Deal) (createdAt : String)
  | linkDealRecord (dealId recordId : String)
  | putRecord (record : AuthorityRecord)
  | putRevocation (revocation : Revocation)
  | submit (pi : PolicyInput) (recordedAt : String) (ids : EventIds)
  | commitRequest (req : CommitRequest) (ids : EventIds)
  | commitTransition (req : TransitionRequest) (ids : EventIds)
  | commitApproval (req : ApprovalRequest) (ids : EventIds)
  | commitRevocation (req : RevocationRequest) (ids : EventIds)

/-- The statements of a transaction, and the result of its commit if it has
    one. -/
def Txn.code [TextForms] (signer : GatewaySigner) : Txn → Transaction (Option CommitResult)
  | createDeal deal createdAt => (Postgres.createDeal deal createdAt).map fun _ => none
  | linkDealRecord dealId recordId => (Postgres.linkDealRecord dealId recordId).map fun _ => none
  | putRecord record => (Postgres.putRecord record).map fun _ => none
  | putRevocation revocation => (Postgres.putRevocation revocation).map fun _ => none
  | submit pi recordedAt ids => Postgres.submit pi signer recordedAt ids
  | commitRequest req ids => (Postgres.commitRequest req signer ids).map some
  | commitTransition req ids => (Postgres.commitTransition req signer ids).map some
  | commitApproval req ids => (Postgres.commitApproval req signer ids).map some
  | commitRevocation req ids => (Postgres.commitRevocation req signer ids).map some

/-- The request a transaction commits. -/
def Txn.request? : Txn → Option CommitRequest
  | submit pi recordedAt _ => some (pi.commitRequest recordedAt)
  | commitRequest req _ => some req
  | _ => none

/-- The result says that the plan was committed. -/
def applied (r : Option CommitResult) : Bool := r.any fun r => r.outcome = .committed

/-- How any transaction ends: with what it writes, or as its commit. -/
inductive TxnEnds (late : Prop) :
    Option CommitResult → List (Database.Read Query.Answer Write) → List Write → Prop
  | quiet (reads : List (Database.Read Query.Answer Write)) (w : List Write)
      (hq : ∀ e ∈ w, e.event? = none ∧ ∀ key digest decision, e ≠ .idempotency key digest decision) :
      TxnEnds late none reads w
  | commit (dealId : String) (r : CommitResult) (reads : List (Database.Read Query.Answer Write))
      (w : List Write) (h : Ends dealId late r reads w) : TxnEnds late (some r) reads w

theorem gate_ends {α : Type} {rule : Tables → List Write → Transaction α → Prop}
    {P : α → List (Database.Read Query.Answer Write) → List Write → Prop} {pi : PolicyInput}
    {k : GateVerdict → Transaction α}
    (hk : ∀ verdict reads, postgres.Ensures rule P (k verdict) reads []) :
    postgres.Ensures rule P (gate pi k) reads [] := by
  refine .select fun s _ => ?_
  generalize postgres.ask (postgres.view s []) (.decision pi.proposal.idempotencyKey) = stored
  cases stored with
  | some stored => exact hk _ _
  | none =>
    refine .select fun s' _ => ?_
    generalize postgres.ask (postgres.view s' []) (.seenRequest pi.requestId) = seen
    cases seen with
    | true => exact hk _ _
    | false => exact .select fun s'' _ => hk _ _

theorem code_ends [TextForms] (c : Txn)
    {rule : Tables → List Write → Transaction (Option CommitResult) → Prop}
    (hrule : ∀ t w p, rule t w p → w ≠ [] → ∀ req, c.request? = some req → req.Clashes t → late) :
    postgres.Ensures rule (TxnEnds late) (c.code signer) [] [] := by
  have hcommit : ∀ {req : CommitRequest}, c.request? = some req → ∀ reads ids,
      postgres.Ensures rule (TxnEnds late) ((commitRequest req signer ids).map some) reads [] := by
    intro req hreq reads ids
    refine (commitRequest_ends (fun t w p => rule t w (p.map some)) req
      fun t w p hr hw hc => hrule t w _ hr hw req hreq hc).map (fun a r w h => .commit _ a r w h) ?_
    exact fun _ _ _ h => h
  have hset : ∀ {p : Transaction Unit}, postgres.Ensures (fun _ _ _ => True)
      (fun _ reads w => TxnEnds late none reads w) p [] [] →
      postgres.Ensures rule (TxnEnds late) (p.map fun _ => none) [] [] :=
    fun h => h.map (fun _ _ _ h => h) fun _ _ _ _ => trivial
  cases c with
  | createDeal deal createdAt =>
    refine hset (.select fun s _ => ?_)
    split_ifs
    · exact .fail
    · exact .write (.done (.quiet _ _ (by simp [Write.event?])))
  | linkDealRecord dealId recordId =>
    refine hset (.select fun s _ => ?_)
    generalize postgres.ask (postgres.view s []) (.dealLink dealId) = existing
    cases existing with
    | none => exact .write (.done (.quiet _ _ (by simp [Write.event?])))
    | some existing =>
      simp only
      split_ifs
      · exact .fail
      · exact .done (.quiet _ _ (by simp))
  | putRecord record =>
    exact hset (.claim (.done (.quiet _ _ (by simp [Write.event?]))) fun _ _ _ =>
      .done (.quiet _ _ (by simp)))
  | putRevocation revocation =>
    exact hset (.claim (.done (.quiet _ _ (by simp [Write.event?]))) fun _ _ _ =>
      .done (.quiet _ _ (by simp)))
  | submit pi recordedAt ids =>
    rw [Txn.code, Postgres.submit]
    refine gate_ends fun verdict reads => ?_
    split_ifs
    · exact hcommit rfl reads ids
    · exact .done (.quiet _ _ (by simp))
  | commitRequest req ids => exact hcommit rfl [] ids
  | commitTransition req ids =>
    rw [Txn.code]
    exact (commitTransition_ends (fun _ _ _ => True) req).map
      (fun a r w h => .commit _ a r w h) fun _ _ _ _ => trivial
  | commitApproval req ids =>
    rw [Txn.code]
    exact (commitApproval_ends (fun _ _ _ => True) req).map
      (fun a r w h => .commit _ a r w h) fun _ _ _ _ => trivial
  | commitRevocation req ids =>
    rw [Txn.code]
    exact (commitRevocation_ends (fun _ _ _ => True) req).map
      (fun a r w h => .commit _ a r w h) fun _ _ _ _ => trivial

end Postgres

end Mandate
