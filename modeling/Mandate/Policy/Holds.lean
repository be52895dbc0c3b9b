/-
  What a hold says about an input.

  An input no step before the spend cap denies is `Undenied`; its outcome is
  then read off three conditions, in the order of the engine: the cap, the
  negotiation rounds, and what a person must see (`evaluate_undenied`).  The
  hold of the cap comes before the denial of the rounds, so it hides one
  (`holds_are_clean_iff`).
-/
import Mandate.Policy.Narrowing

namespace Mandate

section
variable [Platform]

/-! ## The conditions -/

/-- No step before the cap comparison denies the input. -/
structure Undenied (action : ActionToken) (pi : PolicyInput) : Prop where
  inForce : InForce pi
  notProhibited : ∀ a ∈ pi.authority.record.prohibitedActions, a.value ≠ pi.proposal.action
  named : action.value = pi.proposal.action
  allowed : action ∈ pi.authority.record.allowedActions
  state : pi.deal.state ∈ actionValidStates action
  payment : action ∈ paymentActions → pi.deal.openDisputes ≤ 0 ∧ pi.deal.openApprovals ≤ 0
  disclosure : ∀ f ∈ pi.proposal.disclosureFields, f ∈ pi.authority.record.disclosureFields
  content : leak? pi contentDenyBp = none
  currency : ∀ amount ∈ pi.proposal.amount,
    pi.proposal.currency = pi.authority.record.spendCap.currency

/-- The amount takes the deal over the cap. -/
def OverCap (pi : PolicyInput) : Prop :=
  ∃ amount ∈ pi.proposal.amount,
    (pi.authority.record.spendCap.amountMinor : ℤ) < pi.deal.committedMinor + amount

/-- A negotiation action with no round left. -/
def RoundsReached (action : ActionToken) (pi : PolicyInput) : Prop :=
  action ∈ negotiationActions ∧
    pi.deal.negotiatedRounds ≥ pi.authority.record.maxNegotiationRounds

/-- The mandate or the content asks for a person. -/
def AsksPerson (action : ActionToken) (pi : PolicyInput) : Prop :=
  action ∈ pi.authority.record.requiresHumanApprovalFor ∨
    ∃ content ∈ pi.content, ¬ ContentClear pi content

/-- No condition of the mandate denies the input. -/
def NothingDenies (pi : PolicyInput) : Prop :=
  ∃ action, Undenied action pi ∧ ¬ RoundsReached action pi

/-! ## The outcome -/

variable {pi : PolicyInput} {action : ActionToken}

open Classical in
/-- The outcome of an undenied input. -/
noncomputable def heldOutcome (action : ActionToken) (pi : PolicyInput) : Outcome :=
  if OverCap pi then .needsApproval
  else if RoundsReached action pi then .deny
  else if AsksPerson action pi then .needsApproval
  else .allow

theorem step10Spend_undenied (h : Undenied action pi) :
    (step10Spend pi = none ∧ ¬ OverCap pi) ∨
      ∃ d, step10Spend pi = some d ∧ d.outcome = .needsApproval ∧ OverCap pi := by
  unfold step10Spend OverCap
  cases ha : pi.proposal.amount with
  | none => exact .inl ⟨rfl, by rintro ⟨amount, ⟨⟩, -⟩⟩
  | some amount =>
    simp only [Option.bind_some, h.currency amount ha, not_true_eq_false, ne_eq, if_false,
      Option.mem_some_iff, exists_eq_left', gt_iff_lt]
    split_ifs with hover
    · exact .inr ⟨_, rfl, rfl, hover⟩
    · exact .inl ⟨rfl, hover⟩

theorem step11Limits_cases (action : ActionToken) (pi : PolicyInput) :
    (step11Limits action pi = none ∧ ¬ RoundsReached action pi) ∨
      ∃ d, step11Limits action pi = some d ∧ d.outcome = .deny ∧ RoundsReached action pi := by
  unfold step11Limits
  split_ifs with h
  · exact .inr ⟨_, rfl, rfl, h⟩
  · exact .inl ⟨rfl, h⟩

theorem step12Approval_cases (action : ActionToken) (pi : PolicyInput) :
    (step12Approval action pi = none ∧ action ∉ pi.authority.record.requiresHumanApprovalFor) ∨
      ∃ d, step12Approval action pi = some d ∧ d.outcome = .needsApproval ∧
        action ∈ pi.authority.record.requiresHumanApprovalFor := by
  unfold step12Approval
  split_ifs with h
  · exact .inr ⟨_, rfl, rfl, h⟩
  · exact .inl ⟨rfl, h⟩

theorem step12bContentHold_cases (pi : PolicyInput) :
    (step12bContentHold pi = none ∧ ¬ ∃ content ∈ pi.content, ¬ ContentClear pi content) ∨
      ∃ d, step12bContentHold pi = some d ∧ d.outcome = .needsApproval ∧
        ∃ content ∈ pi.content, ¬ ContentClear pi content := by
  have hnone := step12bContentHold_eq_none pi
  cases hd : step12bContentHold pi with
  | none =>
    have hclear := hnone.1 hd
    exact .inl ⟨rfl, by rintro ⟨content, hc, hn⟩; exact hn (hclear content hc)⟩
  | some d =>
    refine .inr ⟨d, rfl, step12bContentHold_outcome hd, ?_⟩
    by_contra hn
    rw [hnone.2 fun content hc => by_contra fun hne => hn ⟨content, hc, hne⟩] at hd
    cases hd

/-- The steps before the cap comparison pass on an undenied input. -/
theorem Undenied.steps (h : Undenied action pi) :
    step07Allowed action pi = none ∧ step08Transition action pi = none ∧
      step09Disclosure pi = none ∧ step09bContentDisclosure pi = none :=
  ⟨(step07Allowed_eq_none pi action).2 h.allowed,
    (step08Transition_eq_none pi action).2 ⟨h.state, h.payment⟩,
    (step09Disclosure_eq_none pi).2 h.disclosure,
    (step09bContentDisclosure_eq_none pi).2 h.content⟩

omit [Platform] in
theorem outcomeOf_none (steps : List (Option Outcome)) (after : Outcome) :
    outcomeOf (none :: steps) after = outcomeOf steps after := rfl

omit [Platform] in
theorem outcomeOf_some (o : Outcome) (steps : List (Option Outcome)) (after : Outcome) :
    outcomeOf (some o :: steps) after = o := rfl

/-- The outcome of an undenied input, by the three conditions in their order. -/
theorem evaluate_undenied (h : Undenied action pi) :
    (evaluate pi).outcome = heldOutcome action pi := by
  have hb : firstDecision stepsBeforeAction pi = none :=
    stepsBeforeAction_pass.2 ⟨h.inForce, h.notProhibited⟩
  have haction : (StrEnum.ofValue? pi.proposal.action : Option ActionToken) = some action :=
    StrEnum.ofValue?_eq_some.2 h.named
  obtain ⟨h7, h8, h9, h9b⟩ := h.steps
  have hsteps : outcomes (stepsOnAction action) pi = [none, none, none, none] ++
      outcomes [step10Spend, step11Limits action, step12Approval action, step12bContentHold] pi := by
    simp only [outcomes, stepsOnAction, List.map_cons, h7, h8, h9, h9b, Option.map_none,
      List.cons_append, List.nil_append]
  rw [evaluate_outcome, outcomeOf, ← outcome_firstDecision, hb, haction]
  simp only [Option.map_none, Option.getD_none]
  rw [hsteps]
  simp only [List.cons_append, List.nil_append, outcomeOf_none, outcomes, List.map_cons,
    List.map_nil]
  unfold heldOutcome
  rcases step10Spend_undenied h with ⟨h10, hover⟩ | ⟨d, h10, ho, hover⟩
  · rw [if_neg hover, h10, Option.map_none, outcomeOf_none]
    rcases step11Limits_cases action pi with ⟨h11, hrounds⟩ | ⟨d, h11, ho, hrounds⟩
    · rw [if_neg hrounds, h11, Option.map_none, outcomeOf_none]
      rcases step12Approval_cases action pi with ⟨h12, hasks⟩ | ⟨d, h12, ho, hasks⟩
      · rw [h12, Option.map_none, outcomeOf_none]
        rcases step12bContentHold_cases pi with ⟨h12b, hclear⟩ | ⟨d, h12b, ho, hclear⟩
        · rw [if_neg (by rintro (ha | hc); exacts [hasks ha, hclear hc]), h12b, Option.map_none,
            outcomeOf_none]
          rfl
        · rw [if_pos (.inr hclear), h12b, Option.map_some, outcomeOf_some, ho]
      · rw [if_pos (.inl hasks), h12, Option.map_some, outcomeOf_some, ho]
    · rw [if_pos hrounds, h11, Option.map_some, outcomeOf_some, ho]
  · rw [if_pos hover, h10, Option.map_some, outcomeOf_some, ho]

/-- These steps deny whatever they stop. -/
theorem deny_of_stepsBeforeCap {step : PolicyInput → Option PolicyDecision}
    (hs : step ∈ [step07Allowed action, step08Transition action, step09Disclosure,
      step09bContentDisclosure]) {d : PolicyDecision} (h : step pi = some d) : d.outcome = .deny := by
  simp only [List.mem_cons, List.not_mem_nil, or_false] at hs
  rcases hs with rfl | rfl | rfl | rfl
  · simp only [step07Allowed] at h
    split_ifs at h; cases h; rfl
  · simp only [step08Transition] at h
    split_ifs at h <;> (cases h; rfl)
  · obtain ⟨f, -, rfl⟩ := Option.map_eq_some_iff.1 h; rfl
  · obtain ⟨leak, -, rfl⟩ := Option.map_eq_some_iff.1 h; rfl

omit [Platform] in
/-- A step that goes on or denies goes on, where the outcome is no deny. -/
theorem pass_of_outcomeOf {o : Option PolicyDecision} {steps : List (Option Outcome)}
    {after : Outcome} (ho : ∀ d, o = some d → d.outcome = .deny)
    (h : outcomeOf (o.map PolicyDecision.outcome :: steps) after ≠ .deny) :
    o = none ∧ outcomeOf steps after ≠ .deny := by
  cases o with
  | none => exact ⟨rfl, h⟩
  | some d => exact absurd (ho d rfl) h

/-- What is not denied, no step before the cap denies. -/
theorem undenied_of_outcome (h : (evaluate pi).outcome ≠ .deny) : ∃ action, Undenied action pi := by
  have hb : firstDecision stepsBeforeAction pi = none := by
    cases hd : firstDecision stepsBeforeAction pi with
    | none => rfl
    | some d =>
      obtain ⟨step, hs, hstep⟩ := step_of_firstDecision hd
      rw [evaluate, hd] at h
      exact absurd (deny_of_stepsBeforeAction .requestQuote hs hstep).1 h
  obtain ⟨hforce, hprohibited⟩ := stepsBeforeAction_pass.1 hb
  rw [evaluate_outcome, outcomeOf, ← outcome_firstDecision, hb, Option.map_none,
    Option.getD_none] at h
  cases ha : (StrEnum.ofValue? pi.proposal.action : Option ActionToken) with
  | none =>
    rw [ha] at h
    exact absurd rfl h
  | some action =>
    simp only [ha] at h
    have hdeny : ∀ step ∈ [step07Allowed action, step08Transition action, step09Disclosure,
        step09bContentDisclosure], ∀ d, step pi = some d → d.outcome = .deny :=
      fun step hs d => deny_of_stepsBeforeCap hs
    obtain ⟨h7, h⟩ := pass_of_outcomeOf (hdeny _ (by simp)) h
    obtain ⟨h8, h⟩ := pass_of_outcomeOf (hdeny _ (by simp)) h
    obtain ⟨h9, h⟩ := pass_of_outcomeOf (hdeny _ (by simp)) h
    obtain ⟨h9b, h⟩ := pass_of_outcomeOf (hdeny _ (by simp)) h
    obtain ⟨hstate, hpayment⟩ := (step08Transition_eq_none pi action).1 h8
    refine ⟨action, hforce, hprohibited, StrEnum.ofValue?_eq_some.1 ha,
      (step07Allowed_eq_none pi action).1 h7, hstate, hpayment,
      (step09Disclosure_eq_none pi).1 h9, (step09bContentDisclosure_eq_none pi).1 h9b, ?_⟩
    -- a mismatch of currencies is denied before the comparison
    intro amount hamount
    by_contra hne
    rw [Option.mem_def] at hamount
    have hmismatch : (step10Spend pi).map PolicyDecision.outcome = some .deny := by
      simp only [step10Spend, hamount, Option.bind_some, ne_eq, hne, not_false_eq_true, if_true,
        outcome_deny]
    refine h (?_ : outcomeOf ((step10Spend pi).map PolicyDecision.outcome :: _) .allow = .deny)
    rw [hmismatch, outcomeOf_some]

omit [Platform] in
/-- The action of an undenied input is the one it names. -/
theorem Undenied.action_eq {action' : ActionToken} (h : Undenied action pi)
    (h' : Undenied action' pi) : action = action' := StrEnum.value_inj (h.named.trans h'.named.symm)

/-! ## Holds and denials -/

/-- A hold hides the denial of the rounds: the cap is compared first. -/
def HidesDenial (pi : PolicyInput) : Prop :=
  ∃ action, Undenied action pi ∧ RoundsReached action pi ∧ OverCap pi

theorem needsApproval_iff (h : Undenied action pi) :
    (evaluate pi).outcome = .needsApproval ↔
      OverCap pi ∨ ¬ RoundsReached action pi ∧ AsksPerson action pi := by
  rw [evaluate_undenied h, heldOutcome]
  by_cases hover : OverCap pi
  · simp [hover]
  · by_cases hrounds : RoundsReached action pi
    · simp [hover, hrounds]
    · by_cases hasks : AsksPerson action pi <;> simp [hover, hrounds, hasks]

/-- A held input has nothing that denies it, unless the hold hides a denial. -/
theorem held_nothingDenies_iff (pi : PolicyInput) :
    ((evaluate pi).outcome = .needsApproval → NothingDenies pi) ↔ ¬ HidesDenial pi := by
  constructor
  · rintro h ⟨action, hu, hrounds, hover⟩
    obtain ⟨action', hu', hleft⟩ := h ((needsApproval_iff hu).2 (.inl hover))
    obtain rfl := hu.action_eq hu'
    exact hleft hrounds
  · intro h ho
    obtain ⟨action, hu⟩ := undenied_of_outcome (by rw [ho]; decide)
    refine ⟨action, hu, fun hrounds => h ⟨action, hu, hrounds, ?_⟩⟩
    rcases (needsApproval_iff hu).1 ho with hover | ⟨hleft, -⟩
    · exact hover
    · exact absurd hrounds hleft

/-! ## Asking for more -/

/-- The input with another amount. -/
def PolicyInput.withAmount (pi : PolicyInput) (amount : ℕ) : PolicyInput :=
  { pi with proposal := { pi.proposal with amountMinor := some amount } }

/-- The input under another spend cap. -/
def PolicyInput.withCap (pi : PolicyInput) (cap : ℕ) : PolicyInput :=
  pi.withRecord { pi.authority.record with
    spendCap := { pi.authority.record.spendCap with amountMinor := cap } }

/-- The second input asks for a higher amount, or under a lower cap, and is the
    first otherwise. -/
inductive MoreDemanding : PolicyInput → PolicyInput → Prop
  | amount (pi : PolicyInput) {a a' : ℕ} (h : a ≤ a') :
      MoreDemanding (pi.withAmount a) (pi.withAmount a')
  | cap (pi : PolicyInput) {c c' : ℕ} (h : c' ≤ c) : MoreDemanding (pi.withCap c) (pi.withCap c')

variable {pi' : PolicyInput}

/-- The conditions apart from the cap are the same. -/
structure SameButCap (pi pi' : PolicyInput) : Prop where
  undenied : ∀ action, Undenied action pi ↔ Undenied action pi'
  rounds : ∀ action, RoundsReached action pi ↔ RoundsReached action pi'
  asks : ∀ action, AsksPerson action pi ↔ AsksPerson action pi'

omit [Platform] in
theorem Undenied.withAmount {a : ℕ} (a' : ℕ) (h : Undenied action (pi.withAmount a)) :
    Undenied action (pi.withAmount a') where
  inForce := ⟨h.inForce.schema, h.inForce.signature, h.inForce.notRevoked, h.inForce.notExpired,
    h.inForce.notBefore, h.inForce.notAfter, h.inForce.narrowing, h.inForce.audience⟩
  notProhibited := h.notProhibited
  named := h.named
  allowed := h.allowed
  state := h.state
  payment := h.payment
  disclosure := h.disclosure
  content := h.content
  currency _ _ := h.currency a rfl

omit [Platform] in
theorem Undenied.withCap {c : ℕ} (c' : ℕ) (h : Undenied action (pi.withCap c)) :
    Undenied action (pi.withCap c') where
  inForce := ⟨h.inForce.schema, h.inForce.signature, h.inForce.notRevoked, h.inForce.notExpired,
    h.inForce.notBefore, h.inForce.notAfter, h.inForce.narrowing, h.inForce.audience⟩
  notProhibited := h.notProhibited
  named := h.named
  allowed := h.allowed
  state := h.state
  payment := h.payment
  disclosure := h.disclosure
  content := h.content
  currency := h.currency

omit [Platform] in
/-- The screen does not see the amount or the cap. -/
theorem contentClear_congr {content : ContentClaims}
    (h : pi'.authority.record.disclosureFields = pi.authority.record.disclosureFields) :
    ContentClear pi content ↔ ContentClear pi' content :=
  ⟨fun hc => ⟨hc.available, h ▸ hc.declared, hc.hostility⟩,
    fun hc => ⟨hc.available, h ▸ hc.declared, hc.hostility⟩⟩

omit [Platform] in
theorem MoreDemanding.same (h : MoreDemanding pi pi') : SameButCap pi pi' := by
  cases h with
  | amount pi h =>
    refine ⟨fun action => ⟨.withAmount _, .withAmount _⟩, fun _ => Iff.rfl, fun _ => ?_⟩
    exact or_congr Iff.rfl (exists_congr fun content => and_congr Iff.rfl
      (not_congr (contentClear_congr rfl)))
  | cap pi h =>
    refine ⟨fun action => ⟨.withCap _, .withCap _⟩, fun _ => Iff.rfl, fun _ => ?_⟩
    exact or_congr Iff.rfl (exists_congr fun content => and_congr Iff.rfl
      (not_congr (contentClear_congr rfl)))

omit [Platform] in
/-- What is over the cap stays over it. -/
theorem MoreDemanding.overCap (h : MoreDemanding pi pi') (hover : OverCap pi) : OverCap pi' := by
  cases h with
  | amount pi h =>
    obtain ⟨amount, hm, hlt⟩ := hover
    cases hm
    have hle := Int.ofNat_le.2 h
    exact ⟨_, rfl, lt_of_lt_of_le hlt (add_le_add_right hle _)⟩
  | cap pi h =>
    obtain ⟨amount, hm, hlt⟩ := hover
    exact ⟨amount, hm, lt_of_le_of_lt (Int.ofNat_le.2 h) hlt⟩

/-- Asking for more ranks no higher, unless the hold of the higher amount hides
    the denial that the lower one meets. -/
theorem moreDemanding_rank_iff (h : MoreDemanding pi pi') :
    (evaluate pi').outcome.rank ≤ (evaluate pi).outcome.rank ↔
      ¬ (HidesDenial pi' ∧ ¬ OverCap pi) := by
  by_cases hu : ∃ action, Undenied action pi
  · obtain ⟨action, hu⟩ := hu
    have hu' := (h.same.undenied action).1 hu
    have hhides : HidesDenial pi' ↔ RoundsReached action pi' ∧ OverCap pi' := by
      refine ⟨?_, fun hh => ⟨action, hu', hh⟩⟩
      rintro ⟨action', hu'', hh⟩
      obtain rfl := hu'.action_eq hu''
      exact hh
    rw [evaluate_undenied hu, evaluate_undenied hu', hhides, heldOutcome, heldOutcome,
      h.same.rounds action, h.same.asks action]
    by_cases hover : OverCap pi
    · simp [hover, h.overCap hover]
    · by_cases hover' : OverCap pi'
      · by_cases hrounds : RoundsReached action pi'
        · simp [hover, hover', hrounds, Outcome.rank]
        · by_cases hasks : AsksPerson action pi' <;>
            simp [hover, hover', hrounds, hasks, Outcome.rank]
      · simp [hover, hover']
  · -- both are denied
    have hdeny : ∀ {p}, (¬ ∃ action, Undenied action p) → (evaluate p).outcome = .deny :=
      fun hn => by_contra fun ho => hn (undenied_of_outcome ho)
    have hu' : ¬ ∃ action, Undenied action pi' := by
      rintro ⟨action, hu'⟩
      exact hu ⟨action, (h.same.undenied action).2 hu'⟩
    rw [hdeny hu, hdeny hu']
    refine iff_of_true le_rfl ?_
    rintro ⟨⟨action, hh, -⟩, -⟩
    exact hu' ⟨action, hh⟩

/-- A hold never hides a denial and asking for more never helps, exactly off the
    inputs whose amount is over the cap while no round is left. -/
theorem holds_are_clean_iff (pi : PolicyInput) :
    (((evaluate pi).outcome = .needsApproval → NothingDenies pi) ↔ ¬ HidesDenial pi) ∧
    ∀ lower, MoreDemanding lower pi →
      ((evaluate pi).outcome.rank ≤ (evaluate lower).outcome.rank ↔
        ¬ (HidesDenial pi ∧ ¬ OverCap lower)) :=
  ⟨held_nothingDenies_iff pi, fun _ => moreDemanding_rank_iff⟩

end

section
open Sample
attribute [local instance] Sample.platform

/-- A counteroffer after the last round, for some amount. -/
def Sample.lateOffer (amount : ℕ) : PolicyInput :=
  PolicyInput.withAmount { askedAsChild with
    deal := { dealId, state := .negotiating, negotiatedRounds := 1 }
    proposal := { askedAsChild.proposal with action := "counteroffer" }
    contentNeedsDigest := digest_of_noContent } amount

/-- Over the cap a person is asked about a counteroffer that has no round left,
    and would be denied for less. -/
theorem hold_hides_denial :
    ((evaluate (lateOffer 150000)).outcome = .needsApproval ∧ ¬ NothingDenies (lateOffer 150000)) ∧
    MoreDemanding (lateOffer 1) (lateOffer 150000) ∧
      ¬ (evaluate (lateOffer 150000)).outcome.rank ≤ (evaluate (lateOffer 1)).outcome.rank := by
  refine ⟨⟨by decide +kernel, ?_⟩, .amount _ (by decide), by decide +kernel⟩
  rintro ⟨action, hu, hleft⟩
  obtain rfl : action = .counteroffer := StrEnum.value_inj hu.named
  exact hleft ⟨by decide, le_rfl⟩

theorem holds_are_clean_iff_lateOffer :
    ((evaluate (lateOffer 150000)).outcome.rank ≤ (evaluate (lateOffer 1)).outcome.rank ↔
      ¬ (HidesDenial (lateOffer 150000) ∧ ¬ OverCap (lateOffer 1))) :=
  (holds_are_clean_iff (lateOffer 150000)).2 (lateOffer 1) (.amount _ (by decide))

end

end Mandate
