/-
  The decision page tells what the ledger logged.

  After a proposal the console shows an outcome, a sentence and the state of
  the deal.  They are those of the decision event that the proposal appended,
  and what that event says was done to the deal and its approvals
  (`decision_page_truthful`).
-/
import Mandate.Api.Operations
import Mandate.Application.AllowedEffect
import Mandate.Transport.Effects

namespace Mandate

/-! ## What a decision does -/

/-- What is done to a deal and its approvals when a request is decided: an
    allowed action applies its event, if it has one; a held one waits; a denied
    one does nothing. -/
inductive Enacts (s s' : Store) (deal deal' : Deal) (e : DecisionEntry) : Prop
  | denied (ho : e.outcome = .deny) (hd : deal' = deal) (ha : s'.approvals = s.approvals)
  | resolved (ho : e.outcome = .allow) (hv : e.action = ActionToken.resolveDispute.value)
      (hd : deal' = deal) (ha : s'.approvals = s.approvals)
  | moved (token : ActionToken) (event : DealEvent) (target : DealState) (ho : e.outcome = .allow)
      (hv : e.action = token.value) (he : actionEvents token = some event)
      (ht : transitionFor deal.state event = some target)
      (hd : deal' = applyEvent deal event target e.amountMinor) (ha : s'.approvals = s.approvals)
  | held (a : Approval) (ho : e.outcome = .needsApproval)
      (hd : deal' = { deal with openApprovals := deal.openApprovals + 1 })
      (hs : a.status = .pending) (hr : a.requestId = e.requestId) (hid : a.dealId = deal.dealId)
      (hact : a.action = e.action) (ha : s'.approvals = s.approvals.set a.approvalId a)

section
variable [Platform]

/-- A committed request logs one decision, and does what it says. -/
structure Enacted (s s' : Store) (dealId : String) (e : DecisionEntry) : Prop where
  logged : ∃ g, s'.eventsFor dealId = s.eventsFor dealId ++ g ∧ decisionsOf g = [e]
  enacts : ∃ deal deal', s.deals.get? dealId = some deal ∧ s'.deals.get? dealId = some deal' ∧
    Enacts s s' deal deal' e

variable {signer : GatewaySigner} {s : Store} {ids : EventIds}

theorem commitRequest_enacted {req : CommitRequest} {deal : Deal} {event : Option DealEvent}
    {commit : CommitResult} (hd : s.deals.get? req.dealId = some deal)
    (hid : deal.dealId = req.dealId)
    (ht : planTransition deal req.action req.decision.outcome = .ok event)
    (h : (s.commitRequest req signer ids).1 = .ok commit) :
    Enacted s (s.commitRequest req signer ids).2 req.dealId req.decisionEntry := by
  cases hc : s.events.get? req.dealId with
  | none =>
    simp only [Store.commitRequest, hd, ht, hc] at h
    cases h
  | some chain =>
    rw [Store.commitRequest_eq req hd hc, ht] at h ⊢
    cases hp : planCommitRequest signer deal chain.length (lastHash chain genesisHash) req event
        ids with
    | error e =>
      simp only [hp] at h
      cases h
    | ok plan =>
      simp only [hp]
      have hplan := requestPlan_of_ok ht hp
      refine ⟨⟨plan.events, ?_, hplan.decisionsOf⟩, deal, plan.newDeal, hd,
        Dict.get?_set_self .., ?_⟩
      · rw [Store.eventsFor_of_get? hc]
        exact Store.eventsFor_of_get? (Dict.get?_set_self ..)
      · have hs := planCommitRequest_stampable hp
        cases transitionCheck_of_ok ht with
        | notAllowed ho =>
          cases hplan with
          | decided mid did hn =>
            have hdeny : req.decision.outcome = .deny := by
              cases houtcome : req.decision.outcome <;> simp_all
            exact .denied hdeny rfl rfl
          | applied mid did eid token event target ho' => exact absurd ho' ho
          | held mid did eid aid a hn ha =>
            have hpending := pendingApproval_ok ha
            exact .held a hn rfl hpending.status hpending.requestId
              (hpending.dealId.trans hid.symm) hpending.action rfl
        | decisionOnly token ho hv he =>
          obtain rfl := actionEvents_eq_none.1 he
          rw [planCommitRequest_decides req hs ho, Except.ok.injEq] at hp
          subst hp
          exact .resolved ho hv.symm rfl rfl
        | applies token event target ho hv he htarget =>
          rw [planCommitRequest_applies req hs ho hv he htarget, Except.ok.injEq] at hp
          subst hp
          exact .moved token event target ho hv.symm he htarget rfl rfl

/-- A processed request on the stored deal: the gate answered it, or it was
    decided and committed. -/
theorem processRequest_enacted {pi : PolicyInput} {recordedAt : String} {result : ProcessResult}
    (hd : s.deals.get? pi.deal.dealId = some pi.deal)
    (h : (processRequest s pi signer recordedAt ids).1 = .ok result) :
    result.verdict.outcome ≠ .pass ∧ (processRequest s pi signer recordedAt ids).2 = s ∨
      result.verdict.outcome = .pass ∧ result.decision = some (evaluate pi) ∧
        Enacted s (processRequest s pi signer recordedAt ids).2 pi.deal.dealId
          (pi.commitRequest recordedAt).decisionEntry := by
  by_cases hg : (checkAntiReplay pi s.seen).outcome = .pass
  · obtain ⟨commit, rfl, hcommit⟩ := processRequest_result hg h
    obtain ⟨event, ht⟩ := planTransition_evaluate pi
    rw [processRequest_pass hg]
    exact .inr ⟨hg, rfl, commitRequest_enacted hd rfl ht hcommit⟩
  · refine .inl ?_
    unfold processRequest at h ⊢
    cases houtcome : (checkAntiReplay pi s.seen).outcome <;> simp only [houtcome] at h ⊢
    · exact absurd houtcome hg
    all_goals
      cases h
      simp [houtcome]

/-! ## The page -/

/-- A page that shows an answer of the gate. -/
def DecisionPage.Gated (shown : DecisionPage) : Prop :=
  shown.outcome = "Blocked by the replay gate" ∨ shown.outcome = "Already processed"

instance (shown : DecisionPage) : Decidable shown.Gated := inferInstanceAs (Decidable (_ ∨ _))

namespace Console

/-- The page shows the logged decision, and no other, on the action that was
    asked for, and the state of the deal after it. -/
structure Tells (s' : Store) (dealId : String) (shown : DecisionPage) (e : DecisionEntry) :
    Prop where
  action : shown.action = e.action
  amountMinor : shown.amountMinor.map Nat.cast = e.amountMinor
  outcome : ∀ outcome, shown.outcome = outcomeLabel outcome ↔ outcome = e.outcome
  sentence : ∀ reasonCode, shown.sentence = reasonSentence reasonCode ↔ reasonCode = e.reasonCode
  currentState : ∃ deal, s'.deals.get? dealId = some deal ∧ shown.currentState = deal.state.value

variable {c : Console} {t : ℤ}

omit [Platform] in
theorem decisionPage_ok {dealId currency : String} {fields : ProposalFields}
    {result : ProcessResult} {shown : DecisionPage}
    (h : c.decisionPage dealId fields currency result = .ok (.decision shown)) :
    result.verdict.outcome ≠ .pass ∧ shown.Gated ∨
      result.verdict.outcome = .pass ∧ ∃ decision, result.decision = some decision ∧
        shown.action = fields.action.value ∧ shown.amountMinor = fields.amountMinor ∧
        shown.outcome = outcomeLabel decision.outcome ∧
        shown.sentence = reasonSentence decision.reasonCode ∧
        shown.currentState = c.currentState dealId := by
  unfold decisionPage at h
  dsimp only at h
  split_ifs at h with hblocked hhit
  · cases h
    exact .inl ⟨hblocked.1, .inl rfl⟩
  · cases h
    exact .inl ⟨by simp [hhit], .inr rfl⟩
  · have hpass : result.verdict.outcome = .pass := by
      by_contra hne
      exact hblocked ⟨hne, hhit⟩
    cases hd : result.decision with
    | none => simp [hd] at h
    | some decision =>
      simp only [hd] at h
      cases h
      exact .inr ⟨hpass, decision, rfl, rfl, rfl, rfl, rfl, rfl⟩

omit [Platform] in
theorem mapError_ok {x : Except PyError Page} {page : Page}
    (h : x.mapError RouteError.python = .ok page) : x = .ok page := by
  cases x with
  | error e => cases h
  | ok page' => exact congrArg Except.ok (Except.ok.inj h)

variable [PyDecimal.CharForms]

/-- The page after a proposal tells what was logged and done. -/
theorem propose_tells (h : c.InOrder t) {x : Exchange} {dealId : String} {d : Draws}
    {shown : DecisionPage} (hp : (c.propose x dealId d).1 = .ok (.decision shown)) :
    shown.Gated ∧ (c.propose x dealId d).2.store = c.store ∨
      ∃ e, Tells (c.propose x dealId d).2.store dealId shown e ∧
        Enacted c.store (c.propose x dealId d).2.store dealId e := by
  unfold propose at hp ⊢
  cases hm : c.mandate dealId with
  | error e =>
    rw [hm] at hp
    cases hp
  | ok m =>
    obtain ⟨record, deal⟩ := m
    obtain ⟨hstored, rfl, -⟩ := h.mandate hm
    cases hf : proposalFields x with
    | error e =>
      rw [hm, hf] at hp
      cases hp
    | ok fields =>
      rw [hm, hf] at hp
      dsimp only at hp ⊢
      cases hclaim : buildClaim c.store c.signer record d.nowIso with
      | error e =>
        rw [hclaim] at hp
        cases hp
      | ok claim =>
        cases hat : timestampField d.nowIso with
        | error e =>
          rw [hclaim, hat] at hp
          cases hp
        | ok now =>
          rw [hclaim, hat] at hp
          dsimp only at hp ⊢
          obtain ⟨hdeal, haction, hamount⟩ :
              let pi := c.proposalInput fields deal.dealId record claim deal now d.newUlid
              pi.deal = deal ∧ fields.action.value = pi.proposal.action ∧
                fields.amountMinor.map Nat.cast = pi.proposal.amount := ⟨rfl, rfl, rfl⟩
          generalize c.proposalInput fields deal.dealId record claim deal now d.newUlid = pi
            at hp hdeal haction hamount ⊢
          subst hdeal
          have henacted : ∀ result,
              (processRequest c.store pi c.signer d.nowIso d.eventIds).1 = .ok result → _ :=
            fun _ => processRequest_enacted hstored
          generalize processRequest c.store pi c.signer d.nowIso d.eventIds = r at hp henacted ⊢
          obtain ⟨r, s⟩ := r
          cases r with
          | error e => cases hp
          | ok result =>
            have hbadge := rememberScreenBadge_ledger { c with store := s } pi.deal.dealId
              pi.requestId (screenContent c.screen fields.content)
            dsimp only at hp henacted hbadge ⊢
            generalize rememberScreenBadge _ _ _ _ = c' at hp hbadge ⊢
            obtain ⟨-, hstore, -⟩ := hbadge
            have hpage := decisionPage_ok (mapError_ok hp)
            rw [hstore]
            rcases henacted result rfl with ⟨hgate, rfl⟩ | ⟨hpass, hdecision, hlog⟩
            · rcases hpage with ⟨-, hgated⟩ | ⟨hpass, -⟩
              · exact .inl ⟨hgated, rfl⟩
              · exact absurd hpass hgate
            · rcases hpage with ⟨hgate, -⟩ |
                  ⟨-, decision, hshown, hfield, hminor, houtcome, hsentence, hstate⟩
              · exact absurd hpass hgate
              · obtain rfl := Option.some.inj (hdecision.symm.trans hshown)
                obtain ⟨deal, deal', -, hafter, -⟩ := hlog.enacts
                refine .inr ⟨_, ⟨hfield.trans haction, ?_, fun outcome => ?_,
                  fun reasonCode => ?_, deal', hafter, ?_⟩, hlog⟩
                · rw [hminor]
                  exact hamount
                · rw [houtcome, Function.Injective.eq_iff outcomeLabel_inj]
                  exact eq_comm
                · rw [hsentence, Function.Injective.eq_iff reasonSentence_inj]
                  exact eq_comm
                · rw [hstate, currentState, hstore, hafter]
                  rfl

variable [CsrfSerializer]

theorem finish_tells (h : c.InOrder t) {x : Exchange} {dealId : String} {d : Draws}
    (hx : x.request.endpoint = .propose dealId) {shown : DecisionPage} {csrf : String}
    {authenticated : Bool}
    (hbody : (c.finish x d).1.response.body = .page (.decision shown) csrf authenticated) :
    shown.Gated ∧ (c.finish x d).2.store = c.store ∨
      ∃ e, Tells (c.finish x d).2.store dealId shown e ∧
        Enacted c.store (c.finish x d).2.store dealId e := by
  have hguards : x.request.endpoint.operates = true := by rw [hx]; rfl
  unfold finish at hbody ⊢
  rw [if_pos hguards] at hbody ⊢
  cases hcsrf : c.requireCsrf x d.time with
  | error e =>
    rw [hcsrf] at hbody
    cases e <;> cases hbody
  | ok _ =>
    rw [hcsrf] at hbody
    dsimp only [route] at hbody ⊢
    rw [hx] at hbody ⊢
    dsimp only [shows] at hbody ⊢
    cases hp : (c.propose x dealId d).1 with
    | error e =>
      rw [hp] at hbody
      cases e <;> cases hbody
    | ok page =>
      rw [hp] at hbody
      obtain rfl : page = .decision shown := by
        cases hbody
        rfl
      exact propose_tells h hp

end Console

variable [PyDecimal.CharForms] [CsrfSerializer]

/-- What the operator reads after a proposal is so: the page shows the one
    decision that was logged with the proposal and the state of the deal after
    it, and the deal and its approvals were changed as that decision says.  When
    the page says that the gate stopped the request, nothing was changed. -/
theorem decision_page_truthful {q : Server × ℤ} {s' : Server} {n : ℕ} {d : Console.Draws}
    {p : Pending} {response : HttpResponse} {dealId csrf : String} {authenticated : Bool}
    {shown : DecisionPage} (h : operatorConsole.Reachable q)
    (hp : q.1.inFlight.get? n = some p) (hx : p.exchange.request.endpoint = .propose dealId)
    (hr : q.1.run (.finish n d) = some (some response, s'))
    (hbody : response.response.body = .page (.decision shown) csrf authenticated) :
    shown.Gated ∧ s'.console.store = q.1.console.store ∨
      ∃ e, Console.Tells s'.console.store dealId shown e ∧
        Enacted q.1.console.store s'.console.store dealId e := by
  obtain ⟨p', hp', -, hresponse, rfl⟩ := Server.run_finish hr
  obtain rfl : p = p' := Option.some.inj (hp.symm.trans hp')
  obtain rfl := Option.some.inj hresponse
  exact Console.finish_tells (inOrder_invariant.holds h).1 hx hbody

end

section
open Sample
attribute [local instance] Sample.platform PyDecimal.CharForms.ascii Sample.serializer

/-- The page after the agent asked for a quote. -/
def Sample.quotePage : DecisionPage where
  dealId := newIds '5' 0
  action := "request_quote"
  currency := some "USD"
  outcome := "Allowed"
  sentence := "Authorized. The action is within the mandate and the deal moved forward."
  currentState := "QUOTE_REQUESTED"

/-- The decision page that a part of a request answers with. -/
def Sample.shownIn (r : Option (Option HttpResponse × Server)) : Option DecisionPage :=
  match r with
  | some (some ⟨⟨_, .page (.decision shown) _ _, _, _⟩, _⟩, _) => some shown
  | _ => none

theorem Sample.shownIn_eq_some {r : Option (Option HttpResponse × Server)} {shown : DecisionPage}
    (h : shownIn r = some shown) : ∃ response s' csrf authenticated,
      r = some (some response, s') ∧
        response.response.body = .page (.decision shown) csrf authenticated := by
  unfold shownIn at h
  split at h
  · cases h
    exact ⟨_, _, _, _, rfl, rfl⟩
  · cases h

/-- The page of the quote is of a logged decision. -/
theorem decision_page_truthful_quote : ∃ e,
    Console.Tells (attended (crossed ++ [.finish 3 '6'])).console.store (newIds '5' 0) quotePage e ∧
      Enacted (attended crossed).console.store
        (attended (crossed ++ [.finish 3 '6'])).console.store (newIds '5' 0) e := by
  have hdue : (crossed.foldlM attend transcript.server).isSome = true := by decide +kernel
  have hquote : attend (attended crossed) (.finish 3 '6') =
      some (attended (crossed ++ [.finish 3 '6'])) := attend_attended (by decide +kernel)
  have hshown : shownIn ((attended crossed).run (.finish 3 (draws '6'))) = some quotePage := by
    decide +kernel
  obtain ⟨response, s, csrf, authenticated, hr, hbody⟩ := shownIn_eq_some hshown
  unfold attend at hquote
  dsimp only at hquote
  split_ifs at hquote
  rw [hr] at hquote
  obtain rfl : s = attended (crossed ++ [.finish 3 '6']) := by
    cases hquote
    rfl
  rcases decision_page_truthful (attended_reachable hdue) rfl rfl hr hbody with ⟨hgated, -⟩ | htells
  · exact absurd hgated (by decide)
  · exact htells

end

end Mandate
