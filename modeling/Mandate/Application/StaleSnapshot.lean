/-
  Decisions taken on a stale snapshot.

  A commit rechecks one thing against the stored deal: that the action's
  transition is still in the table.  So a request that moves the deal would be
  allowed on the stored deal exactly when the stored counters are still within
  the mandate's limits (`fresh_iff_withinLimits`); a rival commit that used a
  limit up in between goes unnoticed (`stale_counteroffer`).
-/
import Mandate.Application.ExactlyOnce
import Mandate.Policy.Permitted

namespace Mandate

/-- The input with another snapshot of the deal. -/
def PolicyInput.withDeal (pi : PolicyInput) (deal : Deal) : PolicyInput := { pi with deal }

/-- The call committed a transition. -/
def ProcessResult.Moved : Except PyError ProcessResult → Prop
  | .ok ⟨_, _, some commit⟩ =>
    commit.outcome = .committed ∧ ∃ e ∈ commit.events, e.eventType = .stateTransition
  | _ => False

instance : DecidablePred ProcessResult.Moved
  | .ok ⟨_, _, some commit⟩ => inferInstanceAs (Decidable
      (commit.outcome = .committed ∧ ∃ e ∈ commit.events, e.eventType = .stateTransition))
  | .ok ⟨_, _, none⟩ | .error _ => inferInstanceAs (Decidable False)

theorem ProcessResult.exists_of_moved {r : Except PyError ProcessResult}
    (h : ProcessResult.Moved r) : ∃ verdict decision commit,
      r = .ok ⟨verdict, decision, some commit⟩ ∧ commit.outcome = .committed ∧
        ∃ e ∈ commit.events, e.eventType = .stateTransition :=
  match r, h with
  | .ok ⟨_, _, some _⟩, h => ⟨_, _, _, rfl, h⟩

section
variable [Platform]

/-- What lets a request move the stored deal: it passes the gate, is allowed
    on its own snapshot, and causes an event that the stored state permits, at
    a readable time. -/
structure Moves (s : Store) (pi : PolicyInput) (recordedAt : String) (deal : Deal) : Prop where
  gate : (checkAntiReplay pi s.seen).outcome = .pass
  allowed : (evaluate pi).outcome = .allow
  event : ∃ token event, token.value = pi.proposal.action ∧ actionEvents token = some event ∧
    (transitionFor deal.state event).isSome
  time : Stampable recordedAt

/-- The deal's counters leave room for the proposal. -/
structure WithinLimits (pi : PolicyInput) (deal : Deal) : Prop where
  payment : ∀ a ∈ paymentActions, a.value = pi.proposal.action →
    deal.openDisputes ≤ 0 ∧ deal.openApprovals ≤ 0
  spend : ∀ amount ∈ pi.proposal.amount,
    deal.committedMinor + amount ≤ pi.authority.record.spendCap.amountMinor
  rounds : ∀ a ∈ negotiationActions, a.value = pi.proposal.action →
    deal.negotiatedRounds < pi.authority.record.maxNegotiationRounds

variable {s : Store} {pi : PolicyInput} {recordedAt : String} {deal : Deal}

omit [Platform] in
/-- On another deal whose state has a transition for it, a permitted request
    stays permitted within the limits. -/
theorem permitted_withDeal_iff (hp : Permitted pi) {token : ActionToken} {event : DealEvent}
    (hv : token.value = pi.proposal.action) (he : actionEvents token = some event)
    (ht : (transitionFor deal.state event).isSome) :
    Permitted (pi.withDeal deal) ↔ WithinLimits pi deal := by
  have huniq : ∀ a : ActionToken, a.value = pi.proposal.action → a = token := fun a ha =>
    StrEnum.value_inj (ha.trans hv.symm)
  constructor
  · rintro ⟨-, -, action, hva, ha⟩
    obtain rfl := huniq action hva
    refine ⟨fun b hb hvb => ?_, fun amount hm => (ha.spend amount hm).2, fun b hb hvb => ?_⟩
    · exact ha.payment (huniq b hvb ▸ hb)
    · exact ha.rounds (huniq b hvb ▸ hb)
  · intro hl
    obtain ⟨action, hva, ha⟩ := hp.action
    obtain rfl := huniq action hva
    refine ⟨⟨hp.inForce.schema, hp.inForce.signature, hp.inForce.notRevoked,
      hp.inForce.notExpired, hp.inForce.notBefore, hp.inForce.notAfter, hp.inForce.narrowing,
      hp.inForce.audience⟩, hp.notProhibited, action, hva, ?_⟩
    exact { allowed := ha.allowed
            state := (mem_actionValidStates he deal.state).2 ht
            payment := fun hb => hl.payment action hb hva
            disclosure := ha.disclosure
            spend := fun amount hm => ⟨(ha.spend amount hm).1, hl.spend amount hm⟩
            rounds := fun hb => hl.rounds action hb hva
            approval := ha.approval
            content := fun c hc => ⟨(ha.content c hc).available, (ha.content c hc).declared,
              (ha.content c hc).hostility⟩ }

theorem moves_withinLimits_iff (h : Moves s pi recordedAt deal) :
    (evaluate (pi.withDeal deal)).outcome = .allow ↔ WithinLimits pi deal := by
  obtain ⟨token, event, hv, he, ht⟩ := h.event
  have hlimits := permitted_withDeal_iff (permitted_of_allow h.allowed) hv he ht
  exact ⟨fun ho => hlimits.1 (permitted_of_allow ho), fun hl => allow_of_permitted (hlimits.2 hl)⟩

variable {signer : GatewaySigner} {ids : EventIds} {chain : List Event}

/-- A request plan has a transition when its action was allowed and causes an
    event of the table. -/
theorem RequestPlan.moves {req : CommitRequest} {seq : ℕ} {prevHash : String} {plan : CommitPlan}
    (h : RequestPlan signer deal seq prevHash req plan)
    (hm : ∃ e ∈ plan.events, e.eventType = .stateTransition) :
    req.decision.outcome = .allow ∧ ∃ token event, token.value = req.action ∧
      actionEvents token = some event ∧ (transitionFor deal.state event).isSome := by
  have hquiet : ∀ mid did, ∀ e ∈ req.recorded signer mid did seq prevHash,
      e.eventType ≠ .stateTransition := by
    intro mid did e he
    rcases List.mem_append.1 he with he | he
    · simp [mem_messages he]
    · rw [List.mem_singleton] at he; subst he; simp
  obtain ⟨e, he, ht⟩ := hm
  cases h with
  | decided mid did ho => exact absurd ht (hquiet mid did e he)
  | applied mid did id token event target ho hv hev htr =>
    exact ⟨ho, token, event, hv, hev, by rw [htr]; rfl⟩
  | held mid did id aid approval ho ha =>
    rcases List.mem_append.1 he with he | he
    · exact absurd ht (hquiet mid did e he)
    · rw [List.mem_singleton] at he; subst he; simp at ht

/-- A request commits a transition exactly when it may move the stored deal. -/
theorem processRequest_moved_iff (hd : s.deals.get? pi.deal.dealId = some deal)
    (hc : s.events.get? pi.deal.dealId = some chain) :
    ProcessResult.Moved (processRequest s pi signer recordedAt ids).1 ↔
      Moves s pi recordedAt deal := by
  have hcommit := Store.commitRequest_eq (pi.commitRequest recordedAt) hd hc signer ids
  constructor
  · intro h
    obtain ⟨verdict, decision, commit, hr, hout, hmoved⟩ := ProcessResult.exists_of_moved h
    obtain ⟨hg, -, hc'⟩ := processRequest_commit hr
    have hcases := s.commitRequest_cases (pi.commitRequest recordedAt) signer ids
    rw [hc'] at hcases
    generalize (processRequest s pi signer recordedAt ids).2 = s' at hcases
    cases hcases with
    | refused r hnot => exact absurd hout (hnot commit rfl)
    | committed deal' chain' plan hd' hch hp hs =>
      obtain rfl : deal = deal' := Option.some.inj (hd.symm.trans hd')
      obtain ⟨ho, hev⟩ := hp.moves hmoved
      rw [PolicyInput.commitRequest_decision] at ho
      exact ⟨hg, ho, hev, hs⟩
  · rintro ⟨hg, ho, ⟨token, event, hv, he, ht⟩, hs⟩
    obtain ⟨target, ht⟩ := Option.isSome_iff_exists.1 ht
    have ho' : (pi.commitRequest recordedAt).decision.outcome = .allow := by
      rw [PolicyInput.commitRequest_decision, ho]
    have hv' : token.value = (pi.commitRequest recordedAt).action := hv
    simp only [ho', planTransition_applies hv' he ht,
      planCommitRequest_applies (pi.commitRequest recordedAt) hs ho' hv' he ht] at hcommit
    rw [processRequest_committed hg hcommit]
    exact ⟨rfl, _, List.mem_append_right _ (List.mem_singleton_self _), rfl⟩

/-- A call that moves the deal would be allowed on the stored deal too. -/
def Fresh (s : Store) (pi : PolicyInput) (signer : GatewaySigner) (recordedAt : String)
    (ids : EventIds) : Prop :=
  ProcessResult.Moved (processRequest s pi signer recordedAt ids).1 →
    ∀ deal ∈ s.deals.get? pi.deal.dealId, (evaluate (pi.withDeal deal)).outcome = .allow

/-- A call is as good as a fresh one exactly when the stored counters leave
    room for what it moves. -/
theorem fresh_iff_withinLimits {may : Store → LedgerOp → Prop}
    (hr : (service signer may).Reachable s) (pi : PolicyInput) (recordedAt : String)
    (ids : EventIds) :
    Fresh s pi signer recordedAt ids ↔
      ∀ deal ∈ s.deals.get? pi.deal.dealId, Moves s pi recordedAt deal → WithinLimits pi deal := by
  have ht := (tallied_invariant signer may).holds hr
  have hmoved : ∀ deal ∈ s.deals.get? pi.deal.dealId,
      (ProcessResult.Moved (processRequest s pi signer recordedAt ids).1 ↔
        Moves s pi recordedAt deal) := by
    intro deal hd
    have hc := (ht.rows pi.deal.dealId).2 (by rw [hd]; rfl)
    obtain ⟨chain, hc⟩ := Option.isSome_iff_exists.1 hc
    exact processRequest_moved_iff hd hc
  constructor
  · intro h deal hd hm
    exact (moves_withinLimits_iff hm).1 (h ((hmoved deal hd).2 hm) deal hd)
  · intro h hm deal hd
    have hmoves := (hmoved deal hd).1 hm
    exact (moves_withinLimits_iff hmoves).2 (h deal hd hmoves)

end

section
open Sample
attribute [local instance] Sample.platform

/-- A counteroffer on the snapshot of the offered deal. -/
def Sample.counteroffer (n : Char) : PolicyInput :=
  input { Deal.fresh dealId with state := .quoteReceived } .counteroffer none n

/-- The store after the first of two counteroffers. -/
def Sample.countered : Store :=
  (processRequest offered (counteroffer '1') signer now.text ids).2

/-- Under a mandate of one round, a second counteroffer decided on the same
    snapshot still commits. -/
theorem stale_counteroffer :
    offered.deals.get? dealId = some (counteroffer '2').deal ∧
      (service signer fun _ _ => True).step offered countered ∧
      (service signer fun _ _ => True).Reachable countered ∧
      ¬ Fresh countered (counteroffer '2') signer now.text ids := by
  have hstep : (service signer fun _ _ => True).step offered countered :=
    .request (counteroffer '1') now.text ids
  refine ⟨rfl, hstep, .step offered_reachable hstep, fun h => ?_⟩
  have hmoved : ProcessResult.Moved
      (processRequest countered (counteroffer '2') signer now.text ids).1 := by decide +kernel
  have hd : countered.deals.get? dealId =
      some { Deal.fresh dealId with state := .negotiating, negotiatedRounds := 1 } := by
    decide +kernel
  exact absurd (h hmoved _ hd) (by decide +kernel)

/-- The first counteroffer is within the limits. -/
theorem fresh_iff_withinLimits_offered :
    Fresh offered (counteroffer '1') signer now.text ids ↔
      ∀ deal ∈ offered.deals.get? dealId,
        Moves offered (counteroffer '1') now.text deal → WithinLimits (counteroffer '1') deal :=
  fresh_iff_withinLimits offered_reachable (counteroffer '1') now.text ids

end

end Mandate
