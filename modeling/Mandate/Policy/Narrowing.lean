/-
  What only narrows.

  A delegated record allows no more than any of its ancestors
  (`delegation_narrows`): a narrowing of the record keeps every condition of
  `Permitted`, and a walk without violations is a chain of narrowings.  More
  screened content never raises the outcome (`content_narrows`): the two
  content steps of the engine deny and hold more, and the others do not see it.
-/
import Mathlib.Logic.Relation
import Mandate.Crypto.Signing
import Mandate.Domain.Lifecycle
import Mandate.Policy.Permitted

namespace Mandate

section
variable [Platform]

/-! ## Delegation -/

/-- The input with another record in its claim. -/
def PolicyInput.withRecord (pi : PolicyInput) (record : AuthorityRecord) : PolicyInput :=
  { pi with authority := { pi.authority with record } }

omit [Platform] in
theorem InForce.narrows {pi : PolicyInput} {parent : AuthorityRecord}
    (hn : Narrows pi.authority.record parent) (h : InForce pi) : InForce (pi.withRecord parent) where
  schema := h.schema
  signature := h.signature
  notRevoked := h.notRevoked
  notExpired := h.notExpired
  notBefore := hn.notBefore.trans h.notBefore
  notAfter := h.notAfter.trans hn.expiresAt
  narrowing := h.narrowing
  audience c hc c' hc' := h.audience c (hn.counterparty c hc) c' hc'

omit [Platform] in
theorem ContentClear.narrows {pi : PolicyInput} {parent : AuthorityRecord} {content : ContentClaims}
    (hn : Narrows pi.authority.record parent) (h : ContentClear pi content) :
    ContentClear (pi.withRecord parent) content where
  available := h.available
  declared d hd hf := h.declared d hd fun hm => hf (hn.disclosure hm)
  hostility := h.hostility

omit [Platform] in
theorem PermittedAction.narrows {pi : PolicyInput} {parent : AuthorityRecord} {action : ActionToken}
    (hn : Narrows pi.authority.record parent) (h : PermittedAction action pi) :
    PermittedAction action (pi.withRecord parent) where
  allowed := hn.allowed h.allowed
  state := h.state
  payment := h.payment
  disclosure f hf := hn.disclosure (h.disclosure f hf)
  spend amount ha := by
    obtain ⟨hc, hle⟩ := h.spend amount ha
    have hcap : (pi.authority.record.spendCap.amountMinor : ℤ) ≤ parent.spendCap.amountMinor :=
      Int.ofNat_le.2 hn.cap
    exact ⟨hc.trans hn.currency, hle.trans hcap⟩
  rounds hr := lt_of_lt_of_le (h.rounds hr) hn.rounds
  approval hm := h.approval (hn.approval hm)
  content content hc := (h.content content hc).narrows hn

omit [Platform] in
/-- Whatever a record permits, the record it narrows permits. -/
theorem Permitted.narrows {pi : PolicyInput} {parent : AuthorityRecord}
    (hn : Narrows pi.authority.record parent) (h : Permitted pi) :
    Permitted (pi.withRecord parent) where
  inForce := h.inForce.narrows hn
  notProhibited a ha := h.notProhibited a (hn.prohibited ha)
  action := by
    obtain ⟨action, hv, ha⟩ := h.action
    exact ⟨action, hv, ha.narrows hn⟩

/-- A record whose delegation walk finds no violation allows nothing that one
    of its ancestors does not allow. -/
theorem delegation_narrows {records : Dict String AuthorityRecord} {now : Option String}
    {pi : PolicyInput} {ancestor : AuthorityRecord}
    (hv : delegationViolations pi.authority.record records now = .ok [])
    (ha : Relation.TransGen (ParentIn records) pi.authority.record ancestor)
    (h : (evaluate pi).outcome = .allow) : (evaluate (pi.withRecord ancestor)).outcome = .allow := by
  have h := permitted_of_allow h
  refine allow_of_permitted ?_
  -- along the chain, from the record up: each walk goes on from the parent
  suffices hup : ∀ {child}, Relation.TransGen (ParentIn records) child ancestor →
      ∀ seen, delegationWalk records now seen child = .ok [] → Permitted (pi.withRecord child) →
        Permitted (pi.withRecord ancestor) from hup ha _ hv h
  intro child hc
  have hstep : ∀ {c p}, Narrows c p → Permitted (pi.withRecord c) → Permitted (pi.withRecord p) :=
    fun {c p} hn hpermit => by
      have hn' : Narrows (pi.withRecord c).authority.record p := hn
      have hpermit' := Permitted.narrows hn' hpermit
      exact hpermit'
  induction hc using Relation.TransGen.head_induction_on with
  | single hp =>
    intro seen hw hpermit
    exact hstep (narrows_of_delegationWalk hp hw).1 hpermit
  | head hp hc ih =>
    intro seen hw hpermit
    obtain ⟨hn, seen', hw'⟩ := narrows_of_delegationWalk hp hw
    exact ih seen' hw' (hstep hn hpermit)

end

section
open Sample
attribute [local instance] Sample.platform

/-- A record and its parent, by id. -/
def Sample.family : Dict String AuthorityRecord :=
  (Dict.empty.set (ulid 'R') record).set (ulid 'S') { record with recordId := ulid 'S' }

/-- A quote asked for under a record delegated from `S`. -/
def Sample.askedAsChild : PolicyInput :=
  { schemaVersion := "0.1"
    requestId := ulid 'X'
    now
    actor := ⟨.agent, ulid 'A'⟩
    authority := {
      record := { record with parentRecordId := some (ulid 'S') }
      signatureValid := true, delegationChain := [], status := .active }
    counterparty := ⟨none⟩
    deal := { dealId, state := .draft }
    proposal := {
      action := "request_quote", dealId, amountMinor := none, currency := "EUR"
      idempotencyKey := ulid 'K' }
    contentNeedsDigest := digest_of_noContent }

theorem delegation_narrows_asked :
    (evaluate (askedAsChild.withRecord { record with recordId := ulid 'S' })).outcome = .allow :=
  @delegation_narrows _ family none askedAsChild _ (by decide +kernel)
    (.single ⟨ulid 'S', rfl, rfl⟩) (by decide +kernel)

end

section
variable [Platform]

/-! ## Content -/

/-- DENY below NEEDS_APPROVAL below ALLOW. -/
def Outcome.rank : Outcome → ℕ
  | deny => 0
  | needsApproval => 1
  | allow => 2

/-- The second claims find everything that the first find, at least as surely. -/
structure ContentClaims.Finds (c c' : ContentClaims) : Prop where
  available : c'.available = true → c.available = true
  hostility : c.hostilityBp ≤ c'.hostilityBp
  detected : ∀ d ∈ c.detected, ∃ d' ∈ c'.detected,
    d'.field = d.field ∧ d.confidenceBp ≤ d'.confidenceBp

/-- The order of screened contents; no content is least. -/
def FindsMore : Option ContentClaims → Option ContentClaims → Prop
  | none, _ => True
  | some c, some c' => c.Finds c'
  | some _, none => False

/-- The input with another content. -/
abbrev PolicyInput.withContent (pi : PolicyInput) (content : Option ContentClaims)
    (h : content.isSome → pi.proposal.contentSha256.isSome) : PolicyInput :=
  { pi with content, contentNeedsDigest := h }

/-- The outcome of steps that end with some outcomes, and of what comes after
    them. -/
def outcomeOf (steps : List (Option Outcome)) (after : Outcome) : Outcome :=
  (steps.findSome? id).getD after

/-- The outcomes of some steps on an input. -/
def outcomes (steps : List (PolicyInput → Option PolicyDecision)) (pi : PolicyInput) :
    List (Option Outcome) :=
  steps.map fun step => (step pi).map PolicyDecision.outcome

omit [Platform] in
theorem outcomeOf_append (steps steps' : List (Option Outcome)) (after : Outcome) :
    outcomeOf (steps ++ steps') after = outcomeOf steps (outcomeOf steps' after) := by
  simp only [outcomeOf, List.findSome?_append]
  cases steps.findSome? id <;> rfl

omit [Platform] in
theorem outcome_firstDecision (steps : List (PolicyInput → Option PolicyDecision))
    (pi : PolicyInput) :
    (firstDecision steps pi).map PolicyDecision.outcome = (outcomes steps pi).findSome? id := by
  induction steps with
  | nil => rfl
  | cons step steps ih =>
    simp only [firstDecision, outcomes, List.findSome?_cons, List.map_cons] at ih ⊢
    cases step pi with
    | none => exact ih
    | some d => rfl

/-- The outcome of an evaluation is that of its steps. -/
theorem evaluate_outcome (pi : PolicyInput) :
    (evaluate pi).outcome = outcomeOf (outcomes stepsBeforeAction pi)
      (match (StrEnum.ofValue? pi.proposal.action : Option ActionToken) with
      | none => .deny
      | some action => outcomeOf (outcomes (stepsOnAction action) pi) .allow) := by
  have hb := outcome_firstDecision stepsBeforeAction pi
  unfold evaluate outcomeOf
  rw [← hb]
  cases firstDecision stepsBeforeAction pi with
  | some d => rfl
  | none =>
    cases (StrEnum.ofValue? pi.proposal.action : Option ActionToken) with
    | none => rfl
    | some action =>
      simp only [Option.map_none, Option.getD_none]
      rw [← outcome_firstDecision]
      cases firstDecision (stepsOnAction action) pi <;> rfl

omit [Platform] in
/-- Steps that end alike or with a deny rank no higher. -/
theorem rank_outcomeOf {steps steps' : List (Option Outcome)} {after after' : Outcome}
    (h : List.Forall₂ (fun o o' => o' = o ∨ o' = some .deny) steps steps')
    (ha : after'.rank ≤ after.rank) :
    (outcomeOf steps' after').rank ≤ (outcomeOf steps after).rank := by
  induction h with
  | nil => exact ha
  | @cons o o' steps steps' ho _ ih =>
    rcases ho with rfl | rfl
    · cases o' with
      | none => exact ih
      | some o => exact le_rfl
    · exact Nat.zero_le _

variable {pi : PolicyInput} {content : Option ContentClaims}
  {h : content.isSome → pi.proposal.contentSha256.isSome}

omit [Platform] in
theorem outcome_ite (c : Prop) [Decidable c] (o o' : Option PolicyDecision) :
    (if c then o else o').map PolicyDecision.outcome =
      if c then o.map PolicyDecision.outcome else o'.map PolicyDecision.outcome := apply_ite ..

theorem outcome_deny (reason : ReasonCode) (rule explanation : String) :
    (some (deny pi reason rule explanation)).map PolicyDecision.outcome = some .deny := rfl

theorem outcome_needsApproval (reason : ReasonCode) (rule explanation : String) :
    (some (needsApproval pi reason rule explanation)).map PolicyDecision.outcome =
      some .needsApproval := rfl

/-- The steps before the action do not see the content. -/
theorem stepsBeforeAction_withContent :
    outcomes stepsBeforeAction (pi.withContent content h) = outcomes stepsBeforeAction pi := by
  simp only [outcomes, stepsBeforeAction, List.map_cons, List.map_nil, List.cons.injEq, and_true]
  refine ⟨?_, ?_, ?_, ?_, ?_, ?_⟩
  · simp only [step01SchemaVersion, PolicyInput.withContent, outcome_ite, outcome_deny]
  · simp only [step02Signature, PolicyInput.withContent, outcome_ite, outcome_deny]
  · simp only [step03Validity, PolicyInput.withContent, outcome_ite, outcome_deny]
  · simp only [step04Delegation, PolicyInput.withContent, Option.map_map, Function.comp_def, deny,
      decision]
  · simp only [step05Audience, PolicyInput.withContent]
    split
    · simp only [outcome_ite, outcome_deny]
    · rfl
  · simp only [step06Prohibited, PolicyInput.withContent, outcome_ite, outcome_deny]

omit [Platform] in
/-- A field that leaks still leaks when more is found. -/
theorem leak?_withContent (hc : FindsMore pi.content content) {threshold : ℕ}
    (hl : leak? (pi.withContent content h) threshold = none) : leak? pi threshold = none := by
  rw [leak?_eq_none] at hl ⊢
  intro c hpi d hd hf
  cases content with
  | none =>
    rw [Option.mem_def] at hpi
    rw [hpi] at hc
    exact hc.elim
  | some c' =>
    rw [Option.mem_def] at hpi
    rw [hpi] at hc
    obtain ⟨d', hd', hfield, hle⟩ := hc.detected d hd
    exact lt_of_le_of_lt hle (hl c' rfl d' hd' (hfield ▸ hf))

/-- The steps on the action do not see it either, but for the content steps;
    step 9b denies more. -/
theorem stepsOnAction_withContent (hc : FindsMore pi.content content) (action : ActionToken) :
    List.Forall₂ (fun o o' => o' = o ∨ o' = some Outcome.deny)
      (outcomes [step07Allowed action, step08Transition action, step09Disclosure,
        step09bContentDisclosure, step10Spend, step11Limits action, step12Approval action] pi)
      (outcomes [step07Allowed action, step08Transition action, step09Disclosure,
        step09bContentDisclosure, step10Spend, step11Limits action, step12Approval action]
        (pi.withContent content h)) := by
  simp only [outcomes, List.map_cons, List.map_nil, List.forall₂_cons, List.Forall₂.nil, and_true]
  refine ⟨.inl ?_, .inl ?_, .inl ?_, ?_, .inl ?_, .inl ?_, .inl ?_⟩
  · simp only [step07Allowed, PolicyInput.withContent, outcome_ite, outcome_deny]
  · simp only [step08Transition, PolicyInput.withContent, outcome_ite, outcome_deny]
  · simp only [step09Disclosure, PolicyInput.withContent, Option.map_map, Function.comp_def, deny,
      decision]
  · cases hl : leak? (pi.withContent content h) contentDenyBp with
    | none =>
      left
      simp only [step09bContentDisclosure, hl, leak?_withContent hc hl, Option.map_none]
    | some leak =>
      right
      simp only [step09bContentDisclosure, hl, Option.map_some, deny, decision]
  · simp only [step10Spend, PolicyInput.withContent]
    cases pi.proposal.amount with
    | none => simp only [Option.bind_none]
    | some amount =>
      simp only [Option.bind_some, outcome_ite, outcome_deny, outcome_needsApproval]
  · simp only [step11Limits, PolicyInput.withContent, outcome_ite, outcome_deny]
  · simp only [step12Approval, PolicyInput.withContent, outcome_ite, outcome_needsApproval]

/-- Step 12b holds, or goes on. -/
theorem step12bContentHold_outcome {d : PolicyDecision} (hd : step12bContentHold pi = some d) :
    d.outcome = .needsApproval := by
  obtain ⟨c, -, hd⟩ := Option.bind_eq_some_iff.1 hd
  by_cases ha : ¬ c.available = true
  · rw [if_pos ha] at hd
    cases hd; rfl
  · rw [if_neg ha] at hd
    cases hk : leak? pi contentHoldBp with
    | some leak =>
      simp only [hk, Option.some.injEq] at hd
      subst hd; rfl
    | none =>
      simp only [hk] at hd
      split_ifs at hd; cases hd; rfl

omit [Platform] in
/-- Content that clears the screen was clear before more was found. -/
theorem contentClear_withContent (hc : FindsMore pi.content content)
    (hclear : ∀ c ∈ content, ContentClear (pi.withContent content h) c) :
    ∀ c ∈ pi.content, ContentClear pi c := by
  intro c hpi
  rw [Option.mem_def] at hpi
  rw [hpi] at hc
  cases content with
  | none => exact hc.elim
  | some c' =>
    have hclear' := hclear c' rfl
    refine ⟨hc.available hclear'.available, fun d hd hf => ?_,
      lt_of_le_of_lt hc.hostility hclear'.hostility⟩
    obtain ⟨d', hd', hfield, hle⟩ := hc.detected d hd
    exact lt_of_le_of_lt hle (hclear'.declared d' hd' (hfield ▸ hf))

theorem step12b_withContent (hc : FindsMore pi.content content) :
    (outcomeOf (outcomes [step12bContentHold] (pi.withContent content h)) .allow).rank ≤
      (outcomeOf (outcomes [step12bContentHold] pi) .allow).rank := by
  cases hs' : step12bContentHold (pi.withContent content h) with
  | none =>
    have hclear := contentClear_withContent hc ((step12bContentHold_eq_none _).1 hs')
    have hs := (step12bContentHold_eq_none pi).2 hclear
    simp [outcomes, hs, hs']
  | some d =>
    have ho := step12bContentHold_outcome hs'
    cases hs : step12bContentHold pi with
    | none => simp [outcomes, outcomeOf, hs, hs', ho, Outcome.rank]
    | some d' => simp [outcomes, outcomeOf, hs, hs', ho, step12bContentHold_outcome hs]

/-- More content never raises the outcome. -/
theorem content_narrows (pi : PolicyInput) (content : Option ContentClaims)
    (h : content.isSome → pi.proposal.contentSha256.isSome) (hc : FindsMore pi.content content) :
    (evaluate (pi.withContent content h)).outcome.rank ≤ (evaluate pi).outcome.rank := by
  have hsame : (pi.withContent content h).proposal.action = pi.proposal.action := rfl
  rw [evaluate_outcome, evaluate_outcome, stepsBeforeAction_withContent, hsame]
  refine rank_outcomeOf ?_ ?_
  · exact List.forall₂_same.2 fun o _ => .inl rfl
  · cases (StrEnum.ofValue? pi.proposal.action : Option ActionToken) with
    | none => exact le_rfl
    | some action =>
      have hsplit : ∀ p : PolicyInput, outcomes (stepsOnAction action) p =
          outcomes [step07Allowed action, step08Transition action, step09Disclosure,
            step09bContentDisclosure, step10Spend, step11Limits action, step12Approval action] p ++
          outcomes [step12bContentHold] p := fun _ => rfl
      simp only [hsplit, outcomeOf_append]
      exact rank_outcomeOf (stepsOnAction_withContent hc action) (step12b_withContent hc)

end

section
open Sample
attribute [local instance] Sample.platform

/-- A screen that finds an address with confidence `bp`. -/
def Sample.screened (bp : BasisPoints) : ContentClaims :=
  { screener := "fixture", questionSetSha256 := "questions", contentChars := 1
    detected := [⟨"address", bp⟩], detectedUnique := by simp }

/-- The question with content on which the screen finds a little. -/
def Sample.askedWithContent : PolicyInput :=
  { askedAsChild with
    proposal := { askedAsChild.proposal with contentSha256 := some "digest" }
    content := some (screened 10)
    contentNeedsDigest := fun _ => rfl }

theorem content_narrows_screened :
    (evaluate (askedWithContent.withContent (some (screened 9500)) fun _ => rfl)).outcome.rank ≤
      (evaluate askedWithContent).outcome.rank :=
  content_narrows askedWithContent (some (screened 9500)) (fun _ => rfl)
    ⟨fun _ => rfl, le_rfl, fun d hd => by
      rw [List.mem_singleton.1 hd]
      exact ⟨⟨"address", 9500⟩, List.mem_singleton_self _, rfl, by decide⟩⟩

end

end Mandate
