/-
  The chains in the tables never fork.

  A commit reads the head of a chain at read committed level, and a rival may
  move the head on before its events are in.  The unique sequence numbers keep
  it from being overtaken unnoticed: in every interleaving of any transactions
  each chain stays the signer's, event by event, and only grows
  (`chains_never_fork`), also where a commit on a stale deal row is lost.
-/
import Mandate.Ledger.Writing
import Mandate.Lib.AppendOnly
import Mandate.Postgres.Serializability

namespace Mandate

section
variable [Platform]

/-! ## Chains in the tables -/

variable {signer : GatewaySigner} {dealId prevHash : String} {seq : ℕ} {g : List Event}

theorem WrittenFrom.numbered (h : WrittenFrom signer dealId seq prevHash g) :
    Numbered dealId seq g := by
  induction g generalizing seq prevHash with
  | nil => exact .nil
  | cons e g ih =>
    obtain ⟨he, hg⟩ := h
    refine numbered_cons.2 ⟨he.dealId_eq, ?_, ih hg⟩
    obtain ⟨header, id, t, p, -, rfl⟩ := he.built
    rfl

namespace Tables

omit [Platform] in
theorem eventsFor_of_numbered {t : Tables} (h : Numbered dealId 0 (t.rows dealId)) :
    t.eventsFor dealId = t.rows dealId := by
  have hp : ((t.rows dealId).map Event.sequenceNumber).Pairwise (· < ·) := by
    rw [h.numbers]
    exact List.pairwise_lt_range'
  exact List.mergeSort_of_pairwise
    ((List.pairwise_map.1 hp).imp fun hlt => decide_eq_true (Nat.le_of_lt hlt))

omit [Platform] in
theorem chainHead_of_numbered {t : Tables} (h : Numbered dealId 0 (t.rows dealId)) :
    t.chainHead dealId = ((t.rows dealId).length, lastHash (t.rows dealId) genesisHash) := by
  rw [chainHead, lastHash, h.lastRow]
  cases hl : (t.rows dealId).getLast? with
  | none =>
    rw [List.getLast?_eq_none_iff.1 hl]
    rfl
  | some e =>
    have := h.getLast hl
    simp only [Prod.mk.injEq, and_true]
    omega

end Tables

variable (signer) in
/-- The event chains, as logs of the database. -/
def chainLogs : postgres.Logs String Event String where
  entry? := Write.event?
  log := Tables.rows
  hash := Event.eventHash
  genesis := genesisHash
  good := Event.Written signer
  head := .chainHead
  stamp _ head := head
  slot := .sequence
  log_quiet t w id hw := by
    have hevents : (postgres.view t [w]).events = t.events :=
      Postgres.events_view_quiet (fun e he => List.mem_singleton.1 he ▸ hw) t
    show (postgres.view t [w]).rows id = t.rows id
    rw [Tables.rows, hevents, Tables.rows]
  log_entry t w e id n prev hw he := by
    cases w with
    | event e' =>
      cases hw
      show (t.events ++ [e]).filter _ = _
      rw [List.filter_append, List.filter_singleton, decide_eq_true he.dealId_eq]
      rfl
    | _ => cases hw
  log_other t w e id n prev hw he j hj := by
    cases w with
    | event e' =>
      cases hw
      have hne : ¬ e.dealId = j := fun h => hj (h.symm.trans he.dealId_eq)
      show (t.events ++ [e]).filter _ = _
      rw [List.filter_append, List.filter_singleton, decide_eq_false hne]
      exact List.append_nil _
    | _ => cases hw
  slot_keys w e id n prev hw he := by
    cases w with
    | event e' =>
      cases hw
      obtain ⟨header, eid, t, p, rfl, rfl⟩ := he.built
      simp [Write.keys, buildEvent]
    | _ => cases hw
  stamp_head t id h := by
    have hw : WrittenFrom signer id 0 genesisHash (t.rows id) := h
    rw [postgres_ask, Tables.ask, Tables.chainHead_of_numbered hw.numbered, lastHash_eq]
  slot_taken t id n h hn := by
    have hw : WrittenFrom signer id 0 genesisHash (t.rows id) := h
    obtain ⟨e, he, hseq⟩ := (hw.numbered.exists_iff n).2 ⟨Nat.zero_le _, by simpa using hn⟩
    obtain ⟨hmem, hid⟩ := List.mem_filter.1 he
    rw [postgres_taken, decide_eq_true_eq]
    exact ⟨e, hmem, of_decide_eq_true hid, hseq⟩

namespace Postgres

/-! ## Every transaction adds over the head it read -/

variable {ids : EventIds} {reads : List (Database.Read Query.Answer Write)} {w : List Write}

theorem adds_quiet (hw : ∀ e ∈ w, e.event? = none) : (chainLogs signer).Adds reads w :=
  .inl (List.filterMap_eq_nil_iff.2 hw)

theorem adds_plan {claims rest : List Write} (hg : WrittenFrom signer dealId seq prevHash g)
    (hr : ⟨claims, .chainHead dealId, (seq, prevHash)⟩ ∈ reads)
    (hq : ∀ e ∈ claims ++ rest, e.event? = none) :
    (chainLogs signer).Adds reads (claims ++ (g.map .event ++ rest)) := by
  have hclaims : (chainLogs signer).entries claims = [] :=
    List.filterMap_eq_nil_iff.2 fun e he => hq e (List.mem_append_left _ he)
  have hrest : (chainLogs signer).entries rest = [] :=
    List.filterMap_eq_nil_iff.2 fun e he => hq e (List.mem_append_right _ he)
  have hevents : (chainLogs signer).entries (g.map .event) = g := by
    rw [Database.Logs.entries, List.filterMap_map]
    exact List.filterMap_some
  have hentries : (chainLogs signer).entries (claims ++ (g.map .event ++ rest)) = g := by
    have happend : ∀ w w', (chainLogs signer).entries (w ++ w') =
        (chainLogs signer).entries w ++ (chainLogs signer).entries w' :=
      fun w w' => List.filterMap_append
    rw [happend, happend, hclaims, hrest, hevents, List.nil_append, List.append_nil]
  refine .inr ⟨dealId, seq, prevHash, claims, (seq, prevHash), hr, hclaims, rfl, ?_⟩
  rw [hentries]
  exact hg

/-- What every program of this section ensures. -/
abbrev AddsOver (signer : GatewaySigner) {α : Type} (p : Transaction α)
    (reads : List (Database.Read Query.Answer Write)) (w : List Write) : Prop :=
  postgres.Ensures (fun _ _ _ => True) (fun _ => (chainLogs signer).Adds) p reads w

theorem refuse_adds {outcome : CommitOutcome} {detail : String} {newDeal : Option Deal}
    (hw : ∀ e ∈ w, e.event? = none) : AddsOver signer (refuse outcome detail newDeal) reads w :=
  .done (adds_quiet hw)

theorem appendRequest_adds {req : CommitRequest} {deal : Deal} {event : Option DealEvent}
    (ht : planTransition deal req.action req.decision.outcome = .ok event)
    (hw : ∀ e ∈ w, e.event? = none) :
    AddsOver signer (appendRequest signer req ids deal event) reads w := by
  refine .select fun s _ => ?_
  generalize postgres.ask (postgres.view s w) (.chainHead req.dealId) = head
  obtain ⟨seq, prevHash⟩ := head
  simp only
  cases hp : planCommitRequest signer deal seq prevHash req event ids with
  | error e => exact .fail
  | ok plan =>
    have hwritten := (requestPlan_of_ok ht hp).written
    simp only
    refine .writes ?_
    generalize hdeals : (if event.isSome ∨ plan.approval.isSome then
      [Write.updateDeal req.dealId plan.newDeal] else []) = deals
    have hquiet : ∀ e ∈ deals ++ plan.approval.toList.map Write.approval ++
        [Write.record req.record], e.event? = none := by
      subst hdeals
      intro e he
      simp only [List.mem_append, List.mem_map, List.mem_singleton] at he
      rcases he with (he | ⟨a, -, rfl⟩) | rfl
      · split_ifs at he
        · rw [List.mem_singleton.1 he]
          rfl
        · cases he
      · rfl
      · rfl
    have hend : ∀ rest, (∀ e ∈ rest, e.event? = none) → (chainLogs signer).Adds
        (reads ++ [⟨w, .chainHead req.dealId, (seq, prevHash)⟩])
        (w ++ (plan.events.map .event ++ rest)) := by
      intro rest hrest
      refine adds_plan hwritten (by simp) fun e he => ?_
      exact (List.mem_append.1 he).elim (hw e) (hrest e)
    refine .claim (.done ?_) fun s' _ _ => .done ?_
    · simpa only [List.append_assoc] using hend _ hquiet
    · have h := hend (deals ++ plan.approval.toList.map Write.approval) fun e he =>
        hquiet e (List.mem_append_left _ he)
      simpa only [List.append_assoc] using h

theorem commitRequest_adds (req : CommitRequest) :
    AddsOver signer (commitRequest req signer ids) reads [] := by
  refine .select fun s _ => ?_
  generalize postgres.ask (postgres.view s []) (.deal req.dealId) = stored
  cases stored with
  | none => exact refuse_adds (by simp)
  | some deal =>
    simp only
    cases ht : planTransition deal req.action req.decision.outcome with
    | error abort => exact refuse_adds (by simp)
    | ok event =>
      simp only
      refine .claim ?_ fun _ _ _ => refuse_adds (by simp)
      refine .claim ?_ fun _ _ _ => refuse_adds (by simp [Write.event?])
      refine .claim (appendRequest_adds ht (by simp [Write.event?])) fun s' _ _ =>
        .select fun s'' _ => ?_
      generalize postgres.ask _ (.nonceOwner req.record.nonce) = owner
      cases owner with
      | none => exact .fail
      | some owner =>
        simp only
        split_ifs
        · exact refuse_adds (by simp [Write.event?])
        · exact appendRequest_adds ht (by simp [Write.event?])

/-- A command that is new, its claim, and what goes on from the head. -/
theorem claimCommand_adds {commandId : String} {deal : Deal} {k : Transaction CommitResult}
    (hk : AddsOver signer k reads [.command commandId]) :
    AddsOver signer (claimCommand commandId deal k) reads [] :=
  .claim hk fun _ _ _ => refuse_adds (by simp)

theorem unlessApplied_adds {commandId : String} {deal : Deal} {k : Transaction CommitResult}
    (hk : ∀ reads, AddsOver signer k reads []) :
    AddsOver signer (unlessApplied commandId deal k) reads [] := by
  refine .select fun s _ => ?_
  generalize postgres.ask (postgres.view s []) (.command commandId) = command
  cases command with
  | true => exact refuse_adds (by simp)
  | false => exact hk _

theorem commitTransition_adds (req : TransitionRequest) :
    AddsOver signer (commitTransition req signer ids) reads [] := by
  refine .select fun s _ => ?_
  generalize postgres.ask (postgres.view s []) (.deal req.dealId) = stored
  cases stored with
  | none => exact refuse_adds (by simp)
  | some deal =>
    refine unlessApplied_adds fun reads => ?_
    cases ht : transitionFor deal.state req.event with
    | none => exact refuse_adds (by simp)
    | some target =>
      refine claimCommand_adds (.select fun s' _ => ?_)
      generalize postgres.ask _ (.chainHead req.dealId) = head
      obtain ⟨seq, prevHash⟩ := head
      simp only
      cases hp : planCommitTransition signer deal seq prevHash req target ids with
      | error e => exact .fail
      | ok plan =>
        refine .writes (.done ?_)
        exact adds_plan (transitionPlan_of_ok hp).written (by simp) (by simp [Write.event?])

theorem approvalInputs_adds [TextForms] {req : ApprovalRequest} {approval : Approval}
    {k : Option ActionToken × Option AuthorityRecord × Bool → Transaction CommitResult}
    (hk : ∀ inputs reads, AddsOver signer (k inputs) reads []) :
    AddsOver signer (approvalInputs req approval k) reads [] := by
  unfold approvalInputs
  cases req.operation with
  | denied => exact hk _ _
  | granted =>
    simp only
    cases (StrEnum.ofValue? req.action : Option ActionToken) with
    | none => exact refuse_adds (by simp)
    | some token =>
      refine .select fun s _ => ?_
      generalize postgres.ask _ (.record approval.authorityRecordId) = row
      cases row with
      | none => exact hk _ _
      | some row =>
        cases hv : row.modelValidate with
        | error e =>
          simp only [hv]
          exact .fail
        | ok record =>
          simp only [hv]
          refine .select fun s' _ => ?_
          generalize postgres.ask _ (.revocations record.recordId) = rows
          cases anyM (fun r => revocationApplies r record req.occurredAt) rows with
          | error e => exact .fail
          | ok revoked => exact hk _ _

theorem commitApproval_adds [TextForms] (req : ApprovalRequest) :
    AddsOver signer (commitApproval req signer ids) reads [] := by
  refine .select fun s _ => ?_
  generalize postgres.ask (postgres.view s []) (.deal req.dealId) = stored
  cases stored with
  | none => exact refuse_adds (by simp)
  | some deal =>
    refine .select fun s' _ => ?_
    generalize postgres.ask (postgres.view s' []) (.approval req.approvalId) = row
    cases row with
    | none => exact refuse_adds (by simp)
    | some row =>
      simp only
      cases row.modelValidate with
      | error e => exact .fail
      | ok approval =>
        simp only
        split_ifs with hs
        · exact refuse_adds (by simp)
        · refine unlessApplied_adds fun reads => approvalInputs_adds fun inputs reads => ?_
          obtain ⟨token, record, revoked⟩ := inputs
          refine claimCommand_adds (.select fun s'' _ => ?_)
          generalize postgres.ask _ (.chainHead req.dealId) = head
          obtain ⟨seq, prevHash⟩ := head
          simp only
          cases hp : planCommitApproval signer deal approval seq prevHash req record revoked token
              ids with
          | error e => exact .fail
          | ok plan =>
            simp only
            cases hu : plan.approval with
            | none => exact .fail
            | some decided =>
              refine .writes (.done ?_)
              exact adds_plan (approvalPlan_of_ok hp).written (by simp) (by simp [Write.event?])

theorem commitRevocation_adds (req : RevocationRequest) :
    AddsOver signer (commitRevocation req signer ids) reads [] := by
  refine .select fun s _ => ?_
  generalize postgres.ask (postgres.view s []) (.deal req.dealId) = stored
  cases stored with
  | none => exact refuse_adds (by simp)
  | some deal =>
    refine unlessApplied_adds fun reads => .select fun s' _ => ?_
    generalize postgres.ask _ (.record req.revocation.recordId) = record
    cases record with
    | none => exact refuse_adds (by simp)
    | some record =>
      refine .select fun s'' _ => ?_
      generalize postgres.ask _ (.revocations req.revocation.recordId) = existing
      simp only
      split_ifs with he
      · exact refuse_adds (by simp)
      · refine claimCommand_adds (.select fun s₃ _ => ?_)
        generalize postgres.ask _ (.chainHead req.dealId) = head
        obtain ⟨seq, prevHash⟩ := head
        simp only
        cases hp : planCommitRevocation signer deal seq prevHash req ids with
        | error e => exact .fail
        | ok plan =>
          have hwritten := (revocationPlan_of_ok hp).written
          simp only
          have hend : ∀ reads rest, (∀ e ∈ rest, e.event? = none) → (chainLogs signer).Adds
              (reads ++ [⟨[.command req.commandId], .chainHead req.dealId, (seq, prevHash)⟩])
              ([.command req.commandId] ++ plan.events.map .event ++ rest) := by
            intro reads rest hrest
            rw [List.append_assoc]
            refine adds_plan hwritten (by simp) fun e he => ?_
            rcases List.mem_cons.1 he with rfl | he
            · rfl
            · exact hrest e he
          refine .writes (.claim (.done ?_) fun _ _ _ => .done ?_)
          · exact hend _ [_] (by simp [Write.event?])
          · rw [← List.append_nil ([_] ++ _)]
            exact hend _ [] (by simp)

/-- Every transaction adds no event, or adds to one chain over the head that it
    was answered. -/
theorem code_adds [TextForms] (c : Txn) : AddsOver signer (c.code signer) [] [] := by
  have hmap : ∀ {α β : Type} {f : α → β} {p : Transaction α} {reads w},
      AddsOver signer p reads w → AddsOver signer (p.map f) reads w :=
    fun h => h.map (fun _ _ _ h => h) fun _ _ _ _ => trivial
  cases c with
  | createDeal deal createdAt =>
    refine hmap (.select fun s _ => ?_)
    split_ifs
    · exact .fail
    · exact .write (.done (adds_quiet (by simp [Write.event?])))
  | linkDealRecord dealId recordId =>
    refine hmap (.select fun s _ => ?_)
    generalize postgres.ask (postgres.view s []) (.dealLink dealId) = existing
    cases existing with
    | none => exact .write (.done (adds_quiet (by simp [Write.event?])))
    | some existing =>
      simp only
      split_ifs
      · exact .fail
      · exact .done (adds_quiet (by simp))
  | putRecord record =>
    exact hmap (.claim (.done (adds_quiet (by simp [Write.event?]))) fun _ _ _ =>
      .done (adds_quiet (by simp)))
  | putRevocation revocation =>
    exact hmap (.claim (.done (adds_quiet (by simp [Write.event?]))) fun _ _ _ =>
      .done (adds_quiet (by simp)))
  | submit pi recordedAt ids =>
    rw [Txn.code, submit]
    refine gate_ends fun verdict reads => ?_
    split_ifs
    · exact hmap (commitRequest_adds _)
    · exact .done (adds_quiet (by simp))
  | commitRequest req ids => exact hmap (commitRequest_adds req)
  | commitTransition req ids => exact hmap (commitTransition_adds req)
  | commitApproval req ids => exact hmap (commitApproval_adds req)
  | commitRevocation req ids => exact hmap (commitRevocation_adds req)

end Postgres

/-! ## In every interleaving -/

theorem chains_empty : (chainLogs signer).Chains .empty := fun _ => trivial

/-- From empty tables on, in every interleaving of any transactions of the
    store, statement by statement, the events of every deal verify as a chain
    under the signer's key, and whatever runs later only adds to their end. -/
theorem chains_never_fork [TextForms] (hs : signer.Signs)
    {may : Tables → Database.Session Query.Answer Write PyError (Option CommitResult)
      Postgres.Txn → Prop} {σ : Database.State Tables Query.Answer Write PyError
        (Option CommitResult) Postgres.Txn}
    (hr : (interleavings signer (fun _ => True) may .empty).Reachable σ) (dealId : String) :
    (verifyChain (σ.committed.eventsFor dealId) signer.publicKey).ok = true ∧
      ∀ σ', Relation.ReflTransGen (interleavings signer (fun _ => True) may .empty).step σ σ' →
        σ.committed.eventsFor dealId <+: σ'.committed.eventsFor dealId := by
  have hrows : ∀ {σ : Database.State Tables Query.Answer Write PyError (Option CommitResult)
      Postgres.Txn}, (interleavings signer (fun _ => True) may .empty).Reachable σ →
      WrittenFrom signer dealId 0 genesisHash (σ.committed.rows dealId) ∧
        σ.committed.eventsFor dealId = σ.committed.rows dealId := by
    intro σ hσ
    have hchains := (Database.Logs.chained_invariant (fun c _ => Postgres.code_adds c)
      chains_empty).holds hσ
    have hwritten : WrittenFrom signer dealId 0 genesisHash (σ.committed.rows dealId) :=
      hchains.1 dealId
    exact ⟨hwritten, Tables.eventsFor_of_numbered hwritten.numbered⟩
  obtain ⟨hwritten, hevents⟩ := hrows hr
  constructor
  · rw [hevents]
    exact hwritten.verifies hs
  · intro σ' hσ'
    rw [hevents, (hrows (hr.trans hσ')).2]
    exact Database.Logs.grows (fun c _ => Postgres.code_adds c) chains_empty hr hσ' dealId

end

section
open Sample
attribute [local instance] Sample.platform Sample.textForms

/-- From empty tables on, the deal is created, and of two requests for a quote
    the second commits between the reads of the first and its head. -/
theorem chains_never_fork_quoted :
    ∃ σ, (interleavings signer (fun _ => True) (fun _ _ => True) .empty).Reachable σ ∧
      σ.log = [secondQuote, firstQuote] ∧
      (verifyChain (σ.committed.eventsFor dealId) signer.publicKey).ok = true ∧
      (σ.committed.eventsFor dealId).length = 2 := by
  have hdeal : postgres.alone .empty ((Postgres.Txn.createDeal (.fresh dealId) start.text).code
      signer) = (.ok none, registeredTables) := rfl
  have hresumed : (postgres.exec (postgres.alone registeredTables (secondQuote.code signer)).2
      pausedQuote.program []).map (fun r => (Postgres.applied r.1,
        ((postgres.view (postgres.alone registeredTables (secondQuote.code signer)).2 r.2).rows
          dealId).length)) = .ok (true, 2) := rfl
  obtain ⟨r, hr, hok⟩ := ok_of_map secondQuote_applied
  obtain ⟨⟨r', w⟩, hr', hok'⟩ := ok_of_map hresumed
  obtain ⟨happlied, hlength⟩ := Prod.mk.inj hok'
  have hcreated := Database.alone_reachable postgres (Postgres.Txn.code signer) Postgres.applied
    (fun _ => True) (fun _ _ => True) (.init rfl) (by rintro j y ⟨⟩) trivial
    (fun _ _ _ => trivial) hdeal
  obtain ⟨σ, hσ, hcommitted, hlog⟩ := Database.overtaken_reachable postgres
    (Postgres.Txn.code signer) Postgres.applied (fun _ => True) (fun _ _ => True) hcreated
    (fun _ => rfl) firstQuote secondQuote True (fun _ _ _ _ => trivial) (fun _ _ _ => trivial)
    trivial trivial pausedQuote_pending (Prod.ext hr rfl) hok (.inr trivial) hr' happlied
  refine ⟨σ, hσ, hlog, (chains_never_fork signer_signs hσ dealId).1, ?_⟩
  rw [hcommitted, Tables.eventsFor, List.length_mergeSort]
  exact hlength

end

end Mandate
