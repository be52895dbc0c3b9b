/-
  The effect of an allowed action.

  A committed ALLOW leaves the deal that `apply_action` gives, unless it
  resolves an open dispute: the commit applies the planned event, and
  `resolve_dispute` has none, so its dispute stays open
  (`allowed_effect_iff`).  Both stores keep the deal of one plan
  (`CommitsDeal.planned`).
-/
import Mandate.Application.Disputes

namespace Mandate

section
variable [Platform]

omit [Platform] in
/-- The decision-only action. -/
theorem actionEvents_eq_none {token : ActionToken} :
    actionEvents token = none ↔ token = .resolveDispute := by
  cases token <;> decide

omit [Platform] in
/-- Resolving a dispute closes one, and moves nothing else. -/
theorem applyAction_resolveDispute (deal : Deal) (amt : Option ℤ) :
    applyAction deal .resolveDispute amt =
      .ok { deal with openDisputes := max 0 (deal.openDisputes - 1) } := rfl

/-- The deal of an allowed plan is that of `apply_action`, but for an open
    dispute that was to be resolved. -/
theorem plannedDeal_iff {signer : GatewaySigner} {deal : Deal} {seq : ℕ} {prevHash : String}
    {req : CommitRequest} {event : Option DealEvent} {ids : EventIds} {plan : CommitPlan}
    (ho : req.decision.outcome = .allow)
    (ht : planTransition deal req.action req.decision.outcome = .ok event)
    (hp : planCommitRequest signer deal seq prevHash req event ids = .ok plan) :
    ∃ token : ActionToken, token.value = req.action ∧
      (applyAction deal token req.amountMinor = .ok plan.newDeal ↔
        (token = .resolveDispute → deal.openDisputes = 0)) := by
  have hs := planCommitRequest_stampable hp
  cases transitionCheck_of_ok ht with
  | notAllowed h => exact absurd ho h
  | decisionOnly token _ hv he =>
    obtain rfl := actionEvents_eq_none.1 he
    rw [planCommitRequest_decides req hs ho, Except.ok.injEq] at hp
    subst hp
    refine ⟨.resolveDispute, hv, ?_⟩
    rw [applyAction_resolveDispute, Except.ok.injEq]
    constructor
    · intro h _
      have := congrArg Deal.openDisputes h
      dsimp only at this
      omega
    · intro h
      have hz := h rfl
      cases deal
      simp_all
  | applies token event target _ hv he htarget =>
    rw [planCommitRequest_applies req hs ho hv he htarget, Except.ok.injEq] at hp
    subst hp
    refine ⟨token, hv, iff_of_true (applyAction_event he htarget _) ?_⟩
    rintro rfl
    cases he

/-! ## The two stores -/

/-- A committed request in either store: the stored deal before and after it. -/
inductive CommitsDeal (signer : GatewaySigner) (ids : EventIds) (req : CommitRequest) :
    Option Deal → Option Deal → Prop
  | memory (s s' : Store) (r : CommitResult) (h : s.commitRequest req signer ids = (.ok r, s'))
      (hr : r.outcome = .committed) :
      CommitsDeal signer ids req (s.deals.get? req.dealId) (s'.deals.get? req.dealId)
  | postgres (t t' : Tables) (r : CommitResult)
      (h : postgres.alone t (Postgres.commitRequest req signer ids) = (.ok r, t'))
      (hr : r.outcome = .committed) :
      CommitsDeal signer ids req (t.deals.get? req.dealId) (t'.deals.get? req.dealId)

variable {signer : GatewaySigner} {ids : EventIds} {req : CommitRequest}

/-- What the Postgres store commits is a plan on the stored deal. -/
theorem Postgres.commitRequest_planned {t t' : Tables} {r : CommitResult}
    (h : postgres.alone t (Postgres.commitRequest req signer ids) = (.ok r, t'))
    (hr : r.outcome = .committed) :
    ∃ deal event seq prevHash plan, t.deals.get? req.dealId = some deal ∧
      planTransition deal req.action req.decision.outcome = .ok event ∧
      planCommitRequest signer deal seq prevHash req event ids = .ok plan ∧
      t'.deals.get? req.dealId = some plan.newDeal := by
  obtain ⟨w, he, rfl⟩ := postgres.alone_ok h
  have hfree : req.Free t := by
    by_contra hn
    exact (exec_taken hn he).1 hr
  cases hd : t.deals.get? req.dealId with
  | none =>
    rw [exec_commitRequest, hd] at he
    cases he
    cases hr
  | some deal =>
    cases ht : planTransition deal req.action req.decision.outcome with
    | error abort =>
      rw [exec_commitRequest, hd] at he
      simp only [ht] at he
      cases he
      cases hr
    | ok event =>
      obtain ⟨claims, hview, hexec⟩ := exec_free signer ids req hfree hd ht
      rw [hexec, exec_appendRequest req hview] at he
      cases hp : planCommitRequest signer deal (t.chainHead req.dealId).1
          (t.chainHead req.dealId).2 req event ids with
      | error e =>
        rw [hp] at he
        cases he
      | ok plan =>
        rw [hp] at he
        dsimp only at he
        rw [postgres.exec_writes (postgres.admits_of_exec he)] at he
        have hdeal : (postgres.view t claims).deals.get? req.dealId = some deal := by
          rw [hview]
          exact hd
        have hrows := view_requestRows event hdeal hp
        have hkept : (postgres.view t w).deals.get? req.dealId = some plan.newDeal := by
          rw [Database.exec] at he
          split_ifs at he
          · cases he
            rw [hrows]
            exact Dict.get?_set_self ..
          · cases he
            rw [Database.view_append, hrows]
            exact Dict.get?_set_self ..
        exact ⟨deal, event, _, _, plan, rfl, ht, hp, hkept⟩

/-- Either store plans on the stored deal and keeps the deal of the plan. -/
theorem CommitsDeal.planned {before after : Option Deal}
    (h : CommitsDeal signer ids req before after) :
    ∃ deal event seq prevHash plan, before = some deal ∧
      planTransition deal req.action req.decision.outcome = .ok event ∧
      planCommitRequest signer deal seq prevHash req event ids = .ok plan ∧
      after = some plan.newDeal := by
  cases h with
  | memory s s' r h hr =>
    obtain ⟨deal, event, hd, ht⟩ := Store.commitRequest_rechecked (congrArg Prod.fst h) hr
    cases hc : s.events.get? req.dealId with
    | none =>
      simp only [Store.commitRequest, hd, ht, hc] at h
      cases h
    | some chain =>
      rw [Store.commitRequest_eq req hd hc, ht] at h
      cases hp : planCommitRequest signer deal chain.length (lastHash chain genesisHash) req event
          ids with
      | error e =>
        simp only [hp] at h
        cases h
      | ok plan =>
        simp only [hp] at h
        cases h
        exact ⟨deal, event, _, _, plan, hd, ht, hp, Dict.get?_set_self ..⟩
  | postgres t t' r h hr => exact Postgres.commitRequest_planned h hr

/-- A committed ALLOW leaves the deal of `apply_action`, in both stores, exactly
    when it does not resolve an open dispute. -/
theorem allowed_effect_iff {before after : Option Deal} (ho : req.decision.outcome = .allow)
    (h : CommitsDeal signer ids req before after) :
    ∃ (deal deal' : Deal) (token : ActionToken), before = some deal ∧ after = some deal' ∧
      token.value = req.action ∧
      (applyAction deal token req.amountMinor = .ok deal' ↔
        (token = .resolveDispute → deal.openDisputes = 0)) := by
  obtain ⟨deal, event, seq, prevHash, plan, hb, ht, hp, ha⟩ := h.planned
  obtain ⟨token, hv, hiff⟩ := plannedDeal_iff ho ht hp
  exact ⟨deal, plan.newDeal, token, hb, ha, hv, hiff⟩

end

section
open Sample
attribute [local instance] Sample.platform

/-- The deal with its dispute open. -/
def Sample.disputedDeal : Deal :=
  { Deal.fresh dealId with state := .disputed, openDisputes := 1 }

/-- An allowed resolution of the dispute. -/
def Sample.resolution : CommitRequest :=
  (input disputedDeal .resolveDispute none '1').commitRequest now.text

theorem Sample.resolution_commits :
    resolution.decision.outcome = .allow ∧
      CommitsDeal signer ids resolution (some disputedDeal) (some disputedDeal) := by
  have hfacts : resolution.decision.outcome = .allow ∧
      (walked disputedEvents).deals.get? resolution.dealId = some disputedDeal ∧
      ((walked disputedEvents).commitRequest resolution signer ids).2.deals.get? resolution.dealId =
        some disputedDeal ∧
      ((walked disputedEvents).commitRequest resolution signer ids).1.toOption.map
        CommitResult.outcome = some .committed := by
    decide +kernel
  generalize walked disputedEvents = s at hfacts
  obtain ⟨ho, hb, ha, hr⟩ := hfacts
  obtain ⟨r, hr, hcommitted⟩ := Option.map_eq_some_iff.1 hr
  have hstep : s.commitRequest resolution signer ids =
      (.ok r, (s.commitRequest resolution signer ids).2) := Prod.ext ?_ rfl
  · refine ⟨ho, ?_⟩
    have hmemory := CommitsDeal.memory s _ r hstep hcommitted
    rwa [hb, ha] at hmemory
  cases hc : (s.commitRequest resolution signer ids).1 with
  | error e =>
    rw [hc] at hr
    cases hr
  | ok r' =>
    rw [hc] at hr
    rw [Option.some.inj hr]

/-- The dispute that was resolved is still open. -/
theorem resolved_dispute_stays_open :
    ¬ ∀ (req : CommitRequest) (before after : Option Deal), req.decision.outcome = .allow →
      CommitsDeal signer ids req before after →
      ∃ (deal deal' : Deal) (token : ActionToken), before = some deal ∧ after = some deal' ∧
        token.value = req.action ∧ applyAction deal token req.amountMinor = .ok deal' := by
  intro h
  obtain ⟨ho, hc⟩ := resolution_commits
  obtain ⟨deal, deal', token, hb, ha, hv, he⟩ := h resolution _ _ ho hc
  obtain rfl : token = .resolveDispute := StrEnum.value_inj hv
  cases hb
  cases ha
  exact absurd he (by decide)

theorem allowed_effect_iff_resolution :
    ∃ (deal deal' : Deal) (token : ActionToken), some disputedDeal = some deal ∧
      some disputedDeal = some deal' ∧ token.value = resolution.action ∧
      (applyAction deal token resolution.amountMinor = .ok deal' ↔
        (token = .resolveDispute → deal.openDisputes = 0)) :=
  allowed_effect_iff resolution_commits.1 resolution_commits.2

end

end Mandate
