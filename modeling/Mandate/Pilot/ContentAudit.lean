/-
  The content auditor.

  `findContentViolations` remembers the last outbound message until the next
  decision, and reports an allow when the screen detected a field that the
  message did not declare.  The engine instead compares with the allow-list of
  the mandate, and above its thresholds: the two agree on requests that declare
  what they are allowed to reveal, and on messages that can be read
  (`content_audit_agrees`).
-/
import Mandate.Application.Calls
import Mandate.Policy.Narrowing
import Mandate.Pilot.AutonomyAudit

namespace Mandate

open PyDecimal (CharForms)

section
variable [Platform] [CharForms]

/-! ## The auditor -/

/-- One `MESSAGE` event as the report reads it. -/
structure ScreenedMessage where
  direction : String
  screener : String
  available : Bool
  detected : List (String × ℤ)
  hostilityBp : ℤ
  declared : List String

/-- One detected field of a screen. -/
def detectedField (d : Json) : Except PayloadError (String × ℤ) := do
  let field ← getMember "field" d
  let confidence ← getMember "confidence_bp" d
  return (pyStr (field.getD .null), ← pyInt (confidence.getD .null))

/-- What the report reads of a message. -/
def Event.screenedMessage (e : Event) : Except PayloadError ScreenedMessage := do
  let screen := orElse (e.field "screen") (.obj [])
  let detected := orElse (← getMember "detected" screen) (.arr [])
  let screener ← getMember "screener" screen
  let available ← getMember "available" screen
  let fields ← (← iterate detected).mapM detectedField
  let hostility ← pyInt ((← getMember "hostility_bp" screen).getD (.int 0))
  let declared ← iterate (orElse (e.field "declared_fields") (.arr []))
  return {
    direction := e.memberText "direction"
    screener := pyStr (screener.getD .null)
    available := truthy (available.getD (.bool true))
    detected := fields
    hostilityBp := hostility
    declared := declared.map pyStr }

/-- `_messages`. -/
def screenedMessages (events : List Event) : Except PayloadError (List ScreenedMessage) :=
  (events.filter (·.eventType = .message)).mapM Event.screenedMessage

omit [Platform] [CharForms] in
/-- The detected fields that the message does not declare. -/
def ScreenedMessage.undeclared (m : ScreenedMessage) : List String :=
  (m.detected.filter fun d => d.1 ∉ m.declared).map Prod.fst

/-- What the loop keeps. -/
structure ContentAudit where
  pending : Option ScreenedMessage := none
  violations : List String := []

/-- The message and the decision make a violation. -/
def contentViolation (m : ScreenedMessage) (e : Event) : List String :=
  if m.undeclared ≠ [] ∧ e.memberText "outcome" = "allow" then
    let fields := ", ".intercalate (m.undeclared.insertionSort (· ≤ ·))
    let action := e.memberText "action"
    [s!"message revealing {fields} was allowed out on action {pyRepr action}"]
  else []

/-- The body of the loop. -/
def ContentAudit.step (a : ContentAudit) (e : Event) : Except PayloadError ContentAudit :=
  if e.eventType = .message then do
    let messages ← screenedMessages [e]
    return { a with pending := messages.head?.filter (·.direction = "outbound") }
  else if e.eventType = .policyDecision then
    match a.pending with
    | some m => return ⟨none, a.violations ++ contentViolation m e⟩
    | none => return a
  else return a

def findContentViolations (events : List Event) : Except PayloadError (List String) := do
  return (← events.foldlM ContentAudit.step {}).violations

/-! ## What it should report -/

/-- When the mandate permits the request, what the screen detected in its content
    is declared, or is held by policy: off the allow-list and at the threshold. -/
def DeclaredIfPermitted (pi : PolicyInput) : Prop :=
  Permitted pi → ∀ content ∈ pi.content, ∀ d ∈ content.detected,
    d.field ∈ pi.proposal.disclosureFields ∨
      d.field ∉ pi.authority.record.disclosureFields ∧ contentHoldBp ≤ d.confidenceBp.val

/-- The calls of a service whose requests declare what is permitted to go out. -/
def Call.Declared (_ : Store) : Call → Prop
  | request pi _ => DeclaredIfPermitted pi
  | other op => op.Other

/-- An outbound message reports a field, held by policy and neither declared nor
    on the allow-list, and the next decision is an allow. -/
structure LeakAllowed (allowList : List String) (m : Event) (between : List Event) (d : Event) :
    Prop where
  outbound : ∃ message, m.screenedMessage = .ok message ∧ message.direction = "outbound" ∧
    ∃ f ∈ message.detected, f.1 ∉ message.declared ∧ f.1 ∉ allowList ∧ (contentHoldBp : ℤ) ≤ f.2
  message : m.eventType = .message
  between : ∀ e ∈ between, e.eventType ≠ .message ∧ e.eventType ≠ .policyDecision
  decision : d.eventType = .policyDecision
  allow : d.memberText "outcome" = "allow"

/-! ## One step -/

omit [Platform] [CharForms] in
theorem ok_bind {α β : Type} (x : α) (f : α → Except PayloadError β) : .ok x >>= f = f x := rfl

variable {a a' : ContentAudit} {e : Event}

/-- The audit with the message in view, when it went out. -/
def ContentAudit.seen (a : ContentAudit) (m : ScreenedMessage) : ContentAudit :=
  { a with pending := (some m).filter (·.direction = "outbound") }

theorem ContentAudit.step_message (a : ContentAudit) (h : e.eventType = .message) :
    a.step e = a.seen <$> e.screenedMessage := by
  simp only [step, screenedMessages, h, List.filter_cons, decide_true, if_true, List.filter_nil,
    List.mapM_cons, List.mapM_nil]
  cases e.screenedMessage <;> rfl

theorem ContentAudit.step_decision (h : e.eventType = .policyDecision) :
    a.step e =
      .ok ⟨none, a.violations ++ (a.pending.map fun m => contentViolation m e).getD []⟩ := by
  unfold step
  cases a with
  | mk pending violations => cases pending <;> simp [h, pure, Except.pure]

theorem ContentAudit.step_other (a : ContentAudit) (hm : e.eventType ≠ .message)
    (hd : e.eventType ≠ .policyDecision) : a.step e = .ok a := by
  simp [step, hm, hd, pure, Except.pure]

/-- A step raises exactly on a message that cannot be read, and keeps what was
    reported. -/
theorem ContentAudit.step_cases (a : ContentAudit) (e : Event) :
    (e.eventType = .message ∧ (∃ err, e.screenedMessage = .error err) ∧
      ∃ err, a.step e = .error err) ∨
    (e.eventType = .message → ∃ m, e.screenedMessage = .ok m) ∧
      ∃ a', a.step e = .ok a' ∧ a.violations <+: a'.violations := by
  by_cases hm : e.eventType = .message
  · cases h : e.screenedMessage with
    | error err => exact .inl ⟨hm, ⟨err, rfl⟩, err, by rw [a.step_message hm, h]; rfl⟩
    | ok m =>
      exact .inr ⟨fun _ => ⟨m, rfl⟩, a.seen m, by rw [a.step_message hm, h]; rfl,
        List.prefix_rfl⟩
  · refine .inr ⟨fun h => absurd h hm, ?_⟩
    by_cases hd : e.eventType = .policyDecision
    · exact ⟨_, step_decision hd, List.prefix_append _ _⟩
    · exact ⟨a, a.step_other hm hd, List.prefix_rfl⟩

/-- The audit raises exactly when some message cannot be read. -/
theorem ContentAudit.run_cases (a : ContentAudit) (events : List Event) :
    ((¬ ∀ e ∈ events, e.eventType = .message → ∃ m, e.screenedMessage = .ok m) ∧
      ∃ err, events.foldlM step a = .error err) ∨
    (∀ e ∈ events, e.eventType = .message → ∃ m, e.screenedMessage = .ok m) ∧
      ∃ a', events.foldlM step a = .ok a' ∧ a.violations <+: a'.violations := by
  induction events generalizing a with
  | nil => exact .inr ⟨by simp, a, rfl, List.prefix_rfl⟩
  | cons e events ih =>
    rw [List.foldlM_cons, List.forall_mem_cons]
    rcases a.step_cases e with ⟨hm, ⟨err, hread⟩, err', hstep⟩ | ⟨hread, a', hstep, hprefix⟩
    · refine .inl ⟨fun h => ?_, err', by rw [hstep]; rfl⟩
      obtain ⟨m, hok⟩ := h.1 hm
      rw [hread] at hok
      cases hok
    · rw [hstep]
      rcases ih a' with ⟨hn, herr⟩ | ⟨hall, a'', hrun, hprefix'⟩
      · exact .inl ⟨fun h => hn h.2, herr⟩
      · exact .inr ⟨⟨hread, hall⟩, a'', hrun, hprefix.trans hprefix'⟩

theorem ContentAudit.run_other (a : ContentAudit) {events : List Event}
    (h : ∀ e ∈ events, e.eventType ≠ .message ∧ e.eventType ≠ .policyDecision) :
    events.foldlM step a = .ok a := by
  induction events with
  | nil => rfl
  | cons e events ih =>
    obtain ⟨hm, hd⟩ := h e (by simp)
    rw [List.foldlM_cons, a.step_other hm hd]
    exact ih fun e' he => h e' (by simp [he])

theorem find_ok_iff {events : List Event} {violations : List String} :
    findContentViolations events = .ok violations ↔
      ∃ a, events.foldlM ContentAudit.step {} = .ok a ∧ a.violations = violations := by
  unfold findContentViolations
  cases events.foldlM ContentAudit.step {} <;> simp [bind, Except.bind, pure, Except.pure]

/-! ## Leaks are reported -/

theorem LeakAllowed.violation {allowList : List String} {m d : Event} {between : List Event}
    (h : LeakAllowed allowList m between d) (a : ContentAudit) :
    ∃ a', (m :: between ++ [d]).foldlM ContentAudit.step a = .ok a' ∧ a'.violations ≠ [] := by
  obtain ⟨message, hread, hout, f, hf, hdeclared, -, -⟩ := h.outbound
  have hundeclared : message.undeclared ≠ [] := by
    refine List.ne_nil_of_mem (a := f.1) (List.mem_map.2 ⟨f, ?_, rfl⟩)
    exact List.mem_filter.2 ⟨hf, by simpa using hdeclared⟩
  have hviolation : contentViolation message d ≠ [] := by
    rw [contentViolation, if_pos ⟨hundeclared, h.allow⟩]
    exact List.cons_ne_nil _ _
  have hm : a.step m = .ok { a with pending := some message } := by
    rw [a.step_message h.message, hread]
    simp [ContentAudit.seen, hout]
  refine ⟨⟨none, a.violations ++ contentViolation message d⟩, ?_,
    List.append_ne_nil_of_right_ne_nil _ hviolation⟩
  rw [List.cons_append, List.foldlM_cons, hm, ok_bind, List.foldlM_append,
    ContentAudit.run_other _ h.between, ok_bind, List.foldlM_cons,
    ContentAudit.step_decision h.decision]
  rfl

/-- On a list whose messages can be read, a leak that was allowed is reported. -/
theorem LeakAllowed.reported_iff {allowList : List String} {m d : Event} {between : List Event}
    (h : LeakAllowed allowList m between d) (before after : List Event) :
    (∃ v vs, findContentViolations (before ++ (m :: between ++ [d]) ++ after) = .ok (v :: vs)) ↔
      ∀ e ∈ before ++ (m :: between ++ [d]) ++ after, e.eventType = .message →
        ∃ message, e.screenedMessage = .ok message := by
  simp only [find_ok_iff]
  rcases ContentAudit.run_cases {} (before ++ (m :: between ++ [d]) ++ after) with
    ⟨hn, err, hrun⟩ | ⟨hall, a, hrun, -⟩
  · refine iff_of_false ?_ hn
    rintro ⟨v, vs, a, ha, -⟩
    rw [hrun] at ha
    cases ha
  · refine iff_of_true ?_ hall
    have hne : a.violations ≠ [] := by
      rw [List.foldlM_append, List.foldlM_append] at hrun
      rcases ContentAudit.run_cases {} before with ⟨hn, -⟩ | ⟨-, a₁, h₁, -⟩
      · exact absurd (fun e he => hall e (by simp [he])) hn
      · obtain ⟨a₂, h₂, hv⟩ := h.violation a₁
        rw [h₁, ok_bind, h₂, ok_bind] at hrun
        rcases ContentAudit.run_cases a₂ after with ⟨-, err, herr⟩ | ⟨-, a₃, h₃, hprefix⟩
        · rw [herr] at hrun
          cases hrun
        · rw [h₃, Except.ok.injEq] at hrun
          subst hrun
          exact fun hnil => hv (List.prefix_nil.1 (hnil ▸ hprefix))
    obtain ⟨v, vs, hvs⟩ := List.exists_cons_of_ne_nil hne
    exact ⟨v, vs, a, hrun, hvs⟩

/-! ## Built messages are read -/

/-- The screen of a message as it is read. -/
def ContentClaims.screened (c : ContentClaims) (direction : String) (declared : List String) :
    ScreenedMessage :=
  { direction
    screener := c.screener
    available := c.available
    detected := c.detected.map fun d => (d.field, (d.confidenceBp.val : ℤ))
    hostilityBp := c.hostilityBp.val
    declared }

variable (signer : GatewaySigner) (header : EventHeader) (id : String) (n : ℕ) (prev : String)

omit [Platform] [CharForms] in
theorem iterate_orElse_arr (xs : List Json) :
    iterate (orElse (some (.arr xs)) (.arr [])) = .ok xs := by
  cases xs <;> simp [orElse, truthy, iterate]

theorem mapM_detectedField (detected : List DetectedField) :
    (detected.map DetectedField.toJson).mapM detectedField =
      .ok (detected.map fun d => (d.field, (d.confidenceBp.val : ℤ))) := by
  rw [List.mapM_map]
  exact List.mapM_pure

/-- An event with claims as its screen is read as these claims. -/
theorem screenedMessage_eq {e : Event} {c : ContentClaims} {direction : String}
    {declared : List String} (hs : e.field "screen" = some c.toJson)
    (hd : e.memberText "direction" = direction)
    (hf : iterate (orElse (e.field "declared_fields") (.arr [])) = .ok (declared.map .str)) :
    e.screenedMessage = .ok (c.screened direction declared) := by
  have hscreen : orElse (some c.toJson) (.obj []) = c.toJson := by
    simp [orElse, ContentClaims.toJson, truthy]
  have hmembers : getMember "detected" c.toJson =
        .ok (some (.arr (c.detected.map DetectedField.toJson))) ∧
      getMember "screener" c.toJson = .ok (some (.str c.screener)) ∧
      getMember "available" c.toJson = .ok (some (.bool c.available)) ∧
      getMember "hostility_bp" c.toJson = .ok (some (.int c.hostilityBp.val)) :=
    ⟨rfl, rfl, rfl, rfl⟩
  have htexts : (declared.map Json.str).map pyStr = declared := by
    rw [List.map_map]
    exact List.map_id _
  simp only [Event.screenedMessage, hs, hscreen, hmembers, ok_bind, iterate_orElse_arr,
    mapM_detectedField, hf, hd, htexts]
  rfl

theorem screenedMessage_outbound (content : ScreenedContent) (requestId action : String)
    (declared : List String) :
    (buildEvent signer header id n .message prev
      (outboundMessagePayload content requestId action declared)).screenedMessage =
      .ok (content.claims.screened "outbound" declared) :=
  screenedMessage_eq rfl rfl (iterate_orElse_arr _)

theorem screenedMessage_inbound (content : ScreenedContent) (commandId event : String) :
    (buildEvent signer header id n .message prev
      (inboundMessagePayload content commandId event)).screenedMessage =
      .ok (content.claims.screened "inbound" []) :=
  screenedMessage_eq rfl rfl rfl

/-! ## Chains of a service -/

/-- The audit of the chain has nothing to report and waits for nothing. -/
def Quiescent (chain : List Event) : Prop := chain.foldlM ContentAudit.step {} = .ok {}

variable {signer} {deal : Deal} {seq : ℕ} {prevHash : String} {plan : CommitPlan}

theorem Quiescent.append {chain g : List Event} (h : Quiescent chain) (hg : Quiescent g) :
    Quiescent (chain ++ g) := by
  rw [Quiescent, List.foldlM_append, h]
  exact hg

theorem quiescent_other {events : List Event}
    (h : ∀ e ∈ events, e.eventType ≠ .message ∧ e.eventType ≠ .policyDecision) : Quiescent events :=
  ContentAudit.run_other _ h

theorem quiescent_singleton {e : Event} (hm : e.eventType ≠ .message)
    (hd : e.eventType ≠ .policyDecision) : Quiescent [e] :=
  quiescent_other fun e' he => by
    rw [List.mem_singleton.1 he]
    exact ⟨hm, hd⟩

theorem quiescent_decision {d : Event} (hd : d.eventType = .policyDecision) : Quiescent [d] := by
  rw [Quiescent, List.foldlM_cons, ContentAudit.step_decision hd]
  rfl

theorem quiescent_message {m d : Event} {message : ScreenedMessage} (hm : m.eventType = .message)
    (hread : m.screenedMessage = .ok message) (hd : d.eventType = .policyDecision)
    (hnone : contentViolation message d = []) : Quiescent [m, d] := by
  have hstep : ContentAudit.step {} m = .ok (ContentAudit.seen {} message) := by
    rw [ContentAudit.step_message _ hm, hread]
    rfl
  rw [Quiescent, List.foldlM_cons, hstep, ok_bind, List.foldlM_cons,
    ContentAudit.step_decision hd, ok_bind, List.foldlM_nil, ContentAudit.seen]
  by_cases hout : message.direction = "outbound"
  · simp [Option.filter, hout, hnone, pure, Except.pure]
  · simp [Option.filter, hout, pure, Except.pure]

/-- The request declares what its content reveals, when it is allowed. -/
def CommitRequest.Declared (req : CommitRequest) : Prop :=
  req.decision.outcome = .allow → ∀ content ∈ req.content, ∀ d ∈ content.claims.detected,
    d.field ∈ req.declaredFields

/-- The message and the decision of a request. -/
theorem CommitRequest.quiescent_recorded {req : CommitRequest} (h : req.Declared)
    (mid did : String) : Quiescent (req.recorded signer mid did seq prevHash) := by
  unfold CommitRequest.recorded extend CommitRequest.messages
  cases hc : req.content with
  | none => exact quiescent_decision rfl
  | some content =>
    refine quiescent_message rfl (screenedMessage_outbound ..) rfl (if_neg fun hv => hv.1 ?_)
    have hallow : req.decision.outcome = .allow := by
      have hvalue : req.decision.outcome.value = "allow" := hv.2
      revert hvalue
      cases req.decision.outcome <;> decide
    have hdeclared := h hallow content hc
    rw [ScreenedMessage.undeclared, List.map_eq_nil_iff, List.filter_eq_nil_iff]
    intro f hf
    obtain ⟨d, hd, rfl⟩ := List.mem_map.1 hf
    exact fun hnot => of_decide_eq_true hnot (hdeclared d hd)

theorem RequestPlan.quiescent {req : CommitRequest} (h : req.Declared)
    (hp : RequestPlan signer deal seq prevHash req plan) :
    Quiescent plan.events := by
  cases hp with
  | decided mid did ho => exact CommitRequest.quiescent_recorded h mid did
  | applied mid did id token event target ho hv he ht =>
    exact (CommitRequest.quiescent_recorded h mid did).append
      (quiescent_singleton (by simp) (by simp))
  | held mid did id aid approval ho ha =>
    exact (CommitRequest.quiescent_recorded h mid did).append
      (quiescent_singleton (by simp) (by simp))

theorem TransitionPlan.quiescent {req : TransitionRequest} {target : DealState}
    (hp : TransitionPlan signer deal seq prevHash req target plan) : Quiescent plan.events := by
  cases hp with
  | applied mid id =>
    refine Quiescent.append ?_ (quiescent_singleton (by simp) (by simp))
    unfold TransitionRequest.messages
    cases req.content with
    | none => rfl
    | some content =>
      rw [Quiescent, List.foldlM_cons, ContentAudit.step_message _ rfl, screenedMessage_inbound]
      rfl

theorem ApprovalPlan.quiescent {approval : Approval} {req : ApprovalRequest}
    {record : Option AuthorityRecord} {revoked : Bool} {token : Option ActionToken}
    (hp : ApprovalPlan signer deal approval seq prevHash req record revoked token plan) :
    Quiescent plan.events := by
  cases hp with
  | granted =>
    exact (quiescent_singleton (by simp) (by simp)).append (quiescent_singleton (by simp) (by simp))
  | denied => exact quiescent_singleton (by simp) (by simp)

theorem RevocationPlan.quiescent {req : RevocationRequest}
    (hp : RevocationPlan signer deal seq prevHash req plan) : Quiescent plan.events := by
  cases hp with
  | revoked id => exact quiescent_singleton (by simp) (by simp)

omit [CharForms] in
/-- What is allowed is not held. -/
theorem DeclaredIfPermitted.declared {pi : PolicyInput} (h : DeclaredIfPermitted pi)
    (hallow : (evaluate pi).outcome = .allow) {content : ContentClaims} (hc : content ∈ pi.content)
    {d : DetectedField} (hd : d ∈ content.detected) : d.field ∈ pi.proposal.disclosureFields := by
  have hpermitted := permitted_of_allow hallow
  obtain ⟨action, -, haction⟩ := hpermitted.action
  rcases h hpermitted content hc d hd with hdeclared | ⟨hoff, hbp⟩
  · exact hdeclared
  · exact absurd ((haction.content content hc).declared d hd hoff) (not_lt.2 hbp)

omit [CharForms] in
theorem Call.Declared.commitRequest {s : Store} {c : Call} (h : c.Declared s) {req : CommitRequest}
    (hop : c.op = .commitRequest req) : req.Declared := by
  cases c with
  | request pi recordedAt =>
    cases hop
    intro hallow content hc
    obtain ⟨claims, hclaims, hmap⟩ := Option.bind_eq_some_iff.1 hc
    obtain ⟨digest, -, rfl⟩ := Option.map_eq_some_iff.1 hmap
    intro d hd
    exact DeclaredIfPermitted.declared h hallow hclaims hd
  | other op =>
    cases hop
    exact h.elim

/-- A call of a service keeps every chain quiescent. -/
theorem Call.Declared.quiescent {s : Store} {c : Call} (h : c.Declared s) (ids : EventIds)
    {id : String} (hs : Quiescent (s.eventsFor id)) :
    Quiescent ((c.run signer ids s).eventsFor id) := by
  have hstep := c.dealStep s signer ids id
  have hreq := fun req (hop : c.op = .commitRequest req) => h.commitRequest hop
  have happend : ∀ {chain : List Event} {plan : CommitPlan} {s' : Store},
      s.events.get? id = some chain → s'.events.get? id = some (chain ++ plan.events) →
        Quiescent plan.events → Quiescent (s'.eventsFor id) := by
    intro chain plan s' hc hc' hplan
    rw [Store.eventsFor_of_get? hc'] at *
    rw [Store.eventsFor_of_get? hc] at hs
    exact hs.append hplan
  generalize c.op = op at hstep hreq
  generalize c.run signer ids s = s' at hstep ⊢
  cases hstep with
  | kept op s' hd he =>
    rw [he]
    exact hs
  | created createdAt s' hn hd he =>
    rw [he]
    rfl
  | requested req deal chain plan hid hd hc hp =>
    subst hid
    exact happend hc (Dict.get?_set_self ..) (hp.quiescent (hreq req rfl))
  | transitioned req deal chain target plan hid hd hc hn ht hp hstamp =>
    subst hid
    exact happend hc (Dict.get?_set_self ..) hp.quiescent
  | decided req deal approval decided chain token record revoked plan hid hd hc ha hst hn hi hp =>
    subst hid
    exact happend hc (Dict.get?_set_self ..) hp.quiescent
  | revoked req deal chain plan hid hd hc hp =>
    subst hid
    exact happend hc (Dict.get?_set_self ..) hp.quiescent

/-- The runs of a service whose requests declare what is permitted to go out. -/
def declaringService (signer : GatewaySigner) : System Store :=
  Run.system (· = .empty) (callStep signer Call.Declared)

theorem quiescent_invariant (signer : GatewaySigner) :
    (declaringService signer).Invariant fun s => ∀ id, Quiescent (s.eventsFor id) where
  init := by
    rintro s rfl id
    rfl
  step := by
    rintro s s' - hs ⟨c, hc, ids, rfl⟩ id
    exact hc.quiescent ids (hs id)

/-- No chain of a service is flagged whose requests declare what is permitted to
    go out, and an allowed leak is reported on every list whose messages can be read. -/
theorem content_audit_agrees (signer : GatewaySigner) :
    (∀ s, (declaringService signer).Reachable s → ∀ id,
      findContentViolations (s.eventsFor id) = .ok []) ∧
    ∀ allowList m between d, LeakAllowed allowList m between d → ∀ before after,
      (∃ v vs, findContentViolations (before ++ (m :: between ++ [d]) ++ after) = .ok (v :: vs)) ↔
        ∀ e ∈ before ++ (m :: between ++ [d]) ++ after, e.eventType = .message →
          ∃ message, e.screenedMessage = .ok message := by
  refine ⟨fun s hr id => find_ok_iff.2 ⟨{}, (quiescent_invariant signer).holds hr id, rfl⟩, ?_⟩
  intro allowList m between d h before after
  exact h.reported_iff before after

end

/-! ## False alarms -/

section
open Sample
attribute [local instance] Sample.platform PyDecimal.CharForms.ascii

/-- A request for a quote in whose content the screen finds, with little
    confidence, an address that is not declared. -/
def Sample.hinted : PolicyInput :=
  let pi := Sample.input (.fresh dealId) .requestQuote none '1'
  { pi with
    content := some (screened 100)
    proposal := { pi.proposal with contentSha256 := some "digest" }
    contentNeedsDigest := fun _ => rfl }

def Sample.hintedStore : Store := (processRequest registered hinted signer now.text ids).2

/-- An outbound message that reveals an address, and an allow. -/
def Sample.leak : Event × Event :=
  (entry .message [("direction", .str "outbound"), ("screen", (screened 9500).toJson)],
    entry .policyDecision [("outcome", .str "allow")])

/-- A message whose hostility is no number. -/
def Sample.garbled : Event := entry .message [("screen", .obj [("hostility_bp", .null)])]

/-- The engine's own allow is reported, and an allowed leak is not behind a
    message that cannot be read. -/
theorem content_audit_disagrees :
    ((service signer fun _ _ => True).Reachable hintedStore ∧
      findContentViolations (hintedStore.eventsFor dealId) =
        .ok ["message revealing address was allowed out on action 'request_quote'"]) ∧
    LeakAllowed [] leak.1 [] leak.2 ∧
      findContentViolations ([garbled] ++ (leak.1 :: [] ++ [leak.2]) ++ []) =
        .error .typeError := by
  refine ⟨⟨?_, by decide +kernel⟩, ?_, by decide +kernel⟩
  · exact .step (registered_reachable _ trivial) (.request hinted now.text ids)
  · refine ⟨⟨(screened 9500).screened "outbound" [], screenedMessage_eq rfl rfl rfl, rfl,
      ("address", 9500), by decide, List.not_mem_nil, List.not_mem_nil, by decide⟩, rfl, by simp,
      rfl, rfl⟩

end

end Mandate
