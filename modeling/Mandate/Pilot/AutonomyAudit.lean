/-
  The autonomy auditor.

  `findAutonomousCommitViolations` first collects the last outcome of every
  request and the requests that were granted, anywhere in the list, and then
  judges the transitions.  It reports nothing on a list it can read exactly
  when every transition whose request was last held has some grant
  (`find_eq_nil_iff`), so a later grant or a later decision excuses a
  transition without an earlier grant (`audits_autonomy_iff`).
-/
import Mathlib.Data.List.ReduceOption
import Mandate.Ledger.Chain
import Mandate.Pilot.PayloadValues

namespace Mandate

section
variable [Platform]

/-! ## The auditor -/

/-- What the first loop collects. -/
structure Collected where
  outcomes : Dict String String := .empty
  granted : List String := []

/-- The event is a grant, of whatever request. -/
def Event.isGrant (e : Event) : Bool :=
  e.eventType = .approval && e.str? "operation" = some "granted"

/-- The body of the first loop. -/
def Collected.add (c : Collected) (e : Event) : Except PayloadError Collected :=
  if e.eventType = .policyDecision then do
    let outcome ← e.required "outcome"
    let requestId ← e.required "request_id"
    return { c with outcomes := c.outcomes.set (pyStr requestId) (pyStr outcome) }
  else if e.isGrant then do
    return { c with granted := pyStr (← e.required "request_id") :: c.granted }
  else return c

/-- The request of a transition; `None` is none. -/
def Event.transitionRequest (e : Event) : Option String :=
  if e.eventType = .stateTransition then
    match e.field "request_id" with
    | none | some .null => none
    | some v => some (pyStr v)
  else none

/-- The body of the second loop. -/
def Collected.judge (c : Collected) (e : Event) : Except PayloadError (Option String) :=
  match e.transitionRequest with
  | none => .ok none
  | some requestId =>
    if c.outcomes.get? requestId = some "needs_approval" ∧ requestId ∉ c.granted then do
      let action := e.memberText "action"
      let event ← e.required "event"
      return some (s!"state change on approval-gated action {pyRepr action} " ++
        s!"({pyStr event}) with no preceding principal grant")
    else .ok none

def findAutonomousCommitViolations (events : List Event) : Except PayloadError (List String) := do
  let collected ← events.foldlM Collected.add {}
  return (← events.mapM collected.judge).reduceOption

/-! ## What it should report -/

/-- A decision that holds the request. -/
def Event.Holds (e : Event) (requestId : String) : Prop :=
  e.eventType = .policyDecision ∧ e.text? "request_id" = some requestId ∧
    e.text? "outcome" = some "needs_approval"

/-- A grant for the request. -/
def Event.Grants (e : Event) (requestId : String) : Prop :=
  e.isGrant = true ∧ e.text? "request_id" = some requestId

/-- Every transition of a held request stands after a grant for it. -/
def GrantedFirst (events : List Event) : Prop :=
  ∀ before t after requestId, events = before ++ t :: after →
    t.transitionRequest = some requestId → (∃ d ∈ events, d.Holds requestId) →
      ∃ g ∈ before, g.Grants requestId

/-- The auditor reports nothing exactly when no transition lacks its grant. -/
def AuditsAutonomy (events : List Event) : Prop :=
  findAutonomousCommitViolations events = .ok [] ↔ GrantedFirst events

/-! ## When it does -/

/-- A decision names its request and its outcome, and a grant its request. -/
structure Event.Named (e : Event) : Prop where
  decision : e.eventType = .policyDecision → e.field "request_id" ≠ none ∧ e.field "outcome" ≠ none
  grant : e.isGrant = true → e.field "request_id" ≠ none

/-- What a decision on the request says. -/
def Event.outcomeOn? (requestId : String) (e : Event) : Option String :=
  if e.eventType = .policyDecision ∧ e.text? "request_id" = some requestId then e.text? "outcome"
  else none

/-- The outcome of the last decision on the request. -/
def lastOutcome (events : List Event) (requestId : String) : Option String :=
  (events.filterMap (Event.outcomeOn? requestId)).getLast?

/-- Some transition of the held request has no grant before it. -/
def Ungranted (events : List Event) (requestId : String) : Prop :=
  ∃ before t after, events = before ++ t :: after ∧ t.transitionRequest = some requestId ∧
    (∃ d ∈ events, d.Holds requestId) ∧ ∀ g ∈ before, ¬ g.Grants requestId

/-- A later decision of another outcome, or a grant anywhere, hides the request
    from the auditor. -/
def Excused (events : List Event) (requestId : String) : Prop :=
  lastOutcome events requestId ≠ some "needs_approval" ∨ ∃ g ∈ events, g.Grants requestId

/-- Transitions without a grant are not all excused, and only a list with such a
    transition is malformed. -/
structure NotMisled (events : List Event) : Prop where
  named : (∀ e ∈ events, e.Named) → (∃ r, Ungranted events r) →
    ∃ r, Ungranted events r ∧ ¬ Excused events r
  malformed : (¬ ∀ e ∈ events, e.Named) → ∃ r, Ungranted events r

/-! ## The first loop -/

/-- What the first loop knows after an event. -/
structure Collected.After (c : Collected) (e : Event) (c' : Collected) : Prop where
  outcomes : ∀ r, c'.outcomes.get? r = (e.outcomeOn? r).or (c.outcomes.get? r)
  granted : ∀ r, r ∈ c'.granted ↔ e.Grants r ∨ r ∈ c.granted

/-- Where the first loop raises, an event does not name what it should. -/
theorem Collected.add_cases (c : Collected) (e : Event) :
    (¬ e.Named ∧ ∃ err, c.add e = .error err) ∨
      e.Named ∧ ∃ c', c.add e = .ok c' ∧ c.After e c' := by
  by_cases hd : e.eventType = .policyDecision
  · have hg : e.isGrant = false := by simp [Event.isGrant, hd]
    cases ho : e.field "outcome" with
    | none =>
      refine .inl ⟨fun h => (h.decision hd).2 ho, .keyError "outcome", ?_⟩
      simp [Collected.add, hd, Event.required, ho, bind, Except.bind]
    | some outcome =>
      cases hr : e.field "request_id" with
      | none =>
        refine .inl ⟨fun h => (h.decision hd).1 hr, .keyError "request_id", ?_⟩
        simp [Collected.add, hd, Event.required, ho, hr, bind, Except.bind]
      | some requestId =>
        refine .inr ⟨⟨fun _ => by simp [ho, hr], fun h => by simp [hg] at h⟩,
          { c with outcomes := c.outcomes.set (pyStr requestId) (pyStr outcome) }, ?_, ?_, ?_⟩
        · simp [Collected.add, hd, Event.required, ho, hr, bind, Except.bind, pure, Except.pure]
        · intro r
          rw [Dict.get?_set]
          by_cases h : r = pyStr requestId
          · simp [Event.outcomeOn?, Event.text?, hd, hr, ho, h]
          · simp [Event.outcomeOn?, Event.text?, hd, hr, h, Ne.symm h]
        · intro r
          simp [Event.Grants, hg]
  · cases hg : e.isGrant with
    | false =>
      refine .inr ⟨⟨fun h => absurd h hd, fun h => by simp [hg] at h⟩, c, ?_, ?_, ?_⟩
      · simp only [Collected.add, hd, hg, if_false, Bool.false_eq_true]
        rfl
      · intro r
        simp [Event.outcomeOn?, hd]
      · intro r
        simp [Event.Grants, hg]
    | true =>
      cases hr : e.field "request_id" with
      | none =>
        refine .inl ⟨fun h => h.grant hg hr, .keyError "request_id", ?_⟩
        simp [Collected.add, hd, hg, Event.required, hr, bind, Except.bind]
      | some requestId =>
        refine .inr ⟨⟨fun h => absurd h hd, fun _ => by simp [hr]⟩,
          { c with granted := pyStr requestId :: c.granted }, ?_, ?_, ?_⟩
        · simp [Collected.add, hd, hg, Event.required, hr, bind, Except.bind, pure, Except.pure]
        · intro r
          simp [Event.outcomeOn?, hd]
        · intro r
          simp [Event.Grants, hg, Event.text?, hr, eq_comm]

theorem lastOutcome_cons (e : Event) (events : List Event) (r : String) :
    lastOutcome (e :: events) r = (lastOutcome events r).or (e.outcomeOn? r) := by
  rw [lastOutcome, lastOutcome, List.filterMap_cons]
  cases e.outcomeOn? r with
  | none => simp
  | some o => cases h : (events.filterMap (Event.outcomeOn? r)).getLast? <;>
      simp [List.getLast?_cons, h]

/-- The first loop raises exactly when something is not named; else it knows the
    last outcomes and all grants. -/
theorem collect_cases (events : List Event) (c : Collected) :
    ((¬ ∀ e ∈ events, e.Named) ∧ ∃ err, events.foldlM Collected.add c = .error err) ∨
      (∀ e ∈ events, e.Named) ∧ ∃ c', events.foldlM Collected.add c = .ok c' ∧
        (∀ r, c'.outcomes.get? r = (lastOutcome events r).or (c.outcomes.get? r)) ∧
        ∀ r, r ∈ c'.granted ↔ (∃ g ∈ events, g.Grants r) ∨ r ∈ c.granted := by
  induction events generalizing c with
  | nil => exact .inr ⟨by simp, c, rfl, fun r => by simp [lastOutcome], fun r => by simp⟩
  | cons e events ih =>
    rw [List.foldlM_cons]
    rcases c.add_cases e with ⟨hn, err, herr⟩ | ⟨hn, c₁, h₁, hafter⟩
    · exact .inl ⟨fun h => hn (h e (by simp)), err, by rw [herr]; rfl⟩
    · rw [h₁]
      rcases ih c₁ with ⟨hns, err, herr⟩ | ⟨hns, c', h', hout, hgranted⟩
      · exact .inl ⟨fun h => hns fun e' he => h e' (by simp [he]), err, herr⟩
      · refine .inr ⟨?_, c', h', fun r => ?_, fun r => ?_⟩
        · intro e' he
          rcases List.mem_cons.1 he with rfl | he
          · exact hn
          · exact hns e' he
        · rw [hout, hafter.outcomes, lastOutcome_cons, Option.or_assoc]
        · rw [hgranted, hafter.granted]
          simp only [List.mem_cons, exists_eq_or_imp]
          rw [or_left_comm, or_assoc]

/-! ## The second loop -/

theorem Collected.judge_eq_none {c : Collected} {e : Event} :
    c.judge e = .ok none ↔ ∀ r, e.transitionRequest = some r →
      c.outcomes.get? r = some "needs_approval" → r ∈ c.granted := by
  unfold Collected.judge
  cases ht : e.transitionRequest with
  | none => simp
  | some r =>
    by_cases h : c.outcomes.get? r = some "needs_approval" ∧ r ∉ c.granted
    · have hne : ¬ ∀ r', some r = some r' → c.outcomes.get? r' = some "needs_approval" →
          r' ∈ c.granted := fun hall => h.2 (hall r rfl h.1)
      simp only [if_pos h, hne, iff_false]
      cases he : e.required "event" <;> simp [bind, Except.bind, pure, Except.pure]
    · simp only [if_neg h, true_iff]
      rintro r' hr' hout
      cases hr'
      exact by_contra fun hn => h ⟨hout, hn⟩

omit [Platform] in
theorem mapM_none_iff {α ε : Type} {f : Event → Except ε (Option α)} {events : List Event} :
    (do return (← events.mapM f).reduceOption : Except ε (List α)) = .ok [] ↔
      ∀ e ∈ events, f e = .ok none := by
  induction events with
  | nil => simp [pure, Except.pure, bind, Except.bind, List.reduceOption_nil]
  | cons e events ih =>
    rw [List.mapM_cons]
    cases he : f e with
    | error err => simp [he, bind, Except.bind]
    | ok o =>
      cases hes : events.mapM f with
      | error err =>
        have hnot : ¬ ∀ e ∈ events, f e = .ok none := by simpa [hes, bind, Except.bind] using ih
        simp only [bind, Except.bind, List.forall_mem_cons, hnot, and_false, reduceCtorEq]
      | ok os =>
        simp only [hes, bind, Except.bind, pure, Except.pure, Except.ok.injEq] at ih ⊢
        cases o with
        | none => simp [he, ih, List.reduceOption_cons_of_none]
        | some v => simp [he, List.reduceOption_cons_of_some]

/-- On a list that can be read, nothing is reported exactly when every
    transition of a request that was last held has a grant somewhere. -/
theorem find_eq_nil_iff (events : List Event) :
    findAutonomousCommitViolations events = .ok [] ↔ (∀ e ∈ events, e.Named) ∧
      ∀ t ∈ events, ∀ r, t.transitionRequest = some r →
        lastOutcome events r = some "needs_approval" → ∃ g ∈ events, g.Grants r := by
  rw [findAutonomousCommitViolations]
  rcases collect_cases events {} with ⟨hn, err, herr⟩ | ⟨hn, c, hc, hout, hgranted⟩
  · simp [herr, hn, bind, Except.bind]
  · simp only [Dict.get?_empty, Option.or_none, List.not_mem_nil, or_false] at hout hgranted
    rw [hc]
    refine (mapM_none_iff (f := c.judge)).trans ?_
    simp only [Collected.judge_eq_none, hout, hgranted]
    exact ⟨fun h => ⟨hn, h⟩, fun h => h.2⟩

/-! ## Exactness -/

theorem grantedFirst_iff {events : List Event} : GrantedFirst events ↔ ¬ ∃ r, Ungranted events r := by
  constructor
  · rintro h ⟨r, before, t, after, hsplit, ht, hd, hg⟩
    obtain ⟨g, hmem, hgr⟩ := h before t after r hsplit ht hd
    exact hg g hmem hgr
  · intro h before t after r hsplit ht hd
    by_contra hg
    exact h ⟨r, before, t, after, hsplit, ht, hd, fun g hmem hgr => hg ⟨g, hmem, hgr⟩⟩

theorem holds_of_lastOutcome {events : List Event} {r : String}
    (h : lastOutcome events r = some "needs_approval") : ∃ d ∈ events, d.Holds r := by
  obtain ⟨d, hd, ho⟩ := List.mem_filterMap.1 (List.mem_of_getLast? h)
  unfold Event.outcomeOn? at ho
  split_ifs at ho with hr
  exact ⟨d, hd, hr.1, hr.2, ho⟩

/-- The auditor is exact on a list exactly when it is not misled. -/
theorem audits_autonomy_iff (events : List Event) :
    AuditsAutonomy events ↔ NotMisled events := by
  rw [AuditsAutonomy, find_eq_nil_iff, grantedFirst_iff]
  constructor
  · intro h
    refine ⟨fun hn hu => ?_, fun hn => ?_⟩
    · by_contra hall
      refine h.1 ⟨hn, fun t ht r hr ho => ?_⟩ hu
      by_contra hg
      obtain ⟨before, after, hsplit⟩ := List.append_of_mem ht
      refine hall ⟨r, ⟨before, t, after, hsplit, hr, holds_of_lastOutcome ho, ?_⟩, ?_⟩
      · intro g hmem hgr
        exact hg ⟨g, by simp [hsplit, hmem], hgr⟩
      · rintro (hne | hgr)
        · exact hne ho
        · exact hg hgr
    · by_contra hu
      exact hn (h.2 hu).1
  · intro h
    constructor
    · rintro ⟨hn, hclean⟩ hu
      obtain ⟨r, ⟨before, t, after, hsplit, ht, -, -⟩, hnot⟩ := h.named hn hu
      have ho : lastOutcome events r = some "needs_approval" :=
        by_contra fun hne => hnot (.inl hne)
      exact hnot (.inr (hclean t (by simp [hsplit]) r ht ho))
    · intro hu
      refine ⟨by_contra fun hn => hu (h.malformed hn), fun t ht r hr ho => ?_⟩
      obtain ⟨before, after, hsplit⟩ := List.append_of_mem ht
      obtain ⟨g, hmem, hgr⟩ := grantedFirst_iff.2 hu before t after r hsplit hr
        (holds_of_lastOutcome ho)
      exact ⟨g, by simp [hsplit, hmem], hgr⟩

end

/-! ## Misled auditors -/

namespace Sample

attribute [local instance] Sample.platform

/-- A signed entry of a log. -/
def entry (eventType : EventType) (payload : Payload) : Event :=
  buildEvent signer ⟨dealId, .agent, ulid 'A', none, now.text, now.text⟩ (ulid 'E') 0 eventType
    genesisHash payload

def heldEntry : Event :=
  entry .policyDecision [("request_id", .str "r"), ("outcome", .str "needs_approval")]

def movedEntry : Event :=
  entry .stateTransition [("request_id", .str "r"), ("event", .str "agreement_reached")]

def grantEntry : Event :=
  entry .approval [("request_id", .str "r"), ("operation", .str "granted")]

def deniedEntry : Event :=
  entry .policyDecision [("request_id", .str "r"), ("outcome", .str "deny")]

end Sample

section
open Sample
attribute [local instance] Sample.platform

/-- A grant logged after the transition, and a second decision, hide it. -/
theorem autonomy_missed :
    ¬ AuditsAutonomy [heldEntry, movedEntry, grantEntry] ∧
    ¬ AuditsAutonomy [heldEntry, movedEntry, deniedEntry] ∧
    ¬ AuditsAutonomy [entry .policyDecision []] := by
  have hunguarded : ∀ after, ¬ GrantedFirst (heldEntry :: movedEntry :: after) := by
    intro after h
    obtain ⟨g, hg, hgr⟩ := h [heldEntry] movedEntry after "r" rfl rfl
      ⟨heldEntry, by simp, rfl, rfl, rfl⟩
    rw [List.mem_singleton.1 hg] at hgr
    exact absurd hgr.1 (by decide)
  refine ⟨fun h => hunguarded _ (h.1 ?_), fun h => hunguarded _ (h.1 ?_), fun h => ?_⟩
  · decide
  · decide
  · have hnone : GrantedFirst [entry .policyDecision []] := by
      intro before t after r hsplit ht
      have hmem : t ∈ [entry .policyDecision []] := by simp [hsplit]
      rw [List.mem_singleton.1 hmem] at ht
      cases ht
    have hfind := h.2 hnone
    revert hfind
    decide

end

end Mandate
