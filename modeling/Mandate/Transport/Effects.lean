/-
  What an accepted answer stands for.

  A proposal that is answered as accepted has its decision on the deal's chain.
  A counterparty's event is also answered as accepted when its message id is
  the command id of another transition, and then nothing is on the chain.  So
  an accepted answer means an effect exactly when the message id is not taken
  (`accepted_iff_effect`, `accepted_without_effect`).
-/
import Mandate.Transport.AtMostOnce
import Mandate.Transport.Answers

namespace Mandate

/-! ## Effects on a chain -/

/-- The transition that a command of an actor applied. -/
structure Event.Commands (e : Event) (commandId actorId event : String) : Prop where
  type : e.eventType = .stateTransition
  command : e.str? "command_id" = some commandId
  actor : e.actorId = actorId
  event : e.str? "event" = some event

/-- A transition by an event that a request caused. -/
structure Event.Applies (e : Event) (event : DealEvent) (requestId : String) : Prop where
  type : e.eventType = .stateTransition
  event : e.str? "event" = some event.value
  request : e.str? "request_id" = some requestId

/-- The decision on an action is logged, and followed by the action's event when
    it allowed one. -/
def LogsDecision (chain : List Event) (action : String) (d : PolicyDecision) : Prop :=
  ∃ before e after requestId amount key digest, chain = before ++ e :: after ∧
    e.eventType = .policyDecision ∧
    e.payload = decisionPayload requestId action d amount key digest ∧
    (d.outcome = .allow → ∀ token event, StrEnum.ofValue? action = some token →
      actionEvents token = some event → ∃ t ∈ after.head?, t.Applies event requestId)

theorem LogsDecision.append {chain : List Event} {action : String} {d : PolicyDecision}
    (h : LogsDecision chain action d) (g : List Event) : LogsDecision (chain ++ g) action d := by
  obtain ⟨before, e, after, requestId, amount, key, digest, rfl, ht, hp, hnext⟩ := h
  refine ⟨before, e, after ++ g, requestId, amount, key, digest, by simp, ht, hp, ?_⟩
  intro ho token event hv he
  obtain ⟨t, hm, happ⟩ := hnext ho token event hv he
  exact ⟨t, by rw [List.head?_append, Option.mem_def.1 hm]; rfl, happ⟩

namespace Store

/-- The deal's chain has the transition of a command. -/
def Commanded (s : Store) (dealId commandId actorId event : String) : Prop :=
  ∃ chain, s.events.get? dealId = some chain ∧ ∃ e ∈ chain, e.Commands commandId actorId event

/-- The deal's chain has the decision. -/
def Decided (s : Store) (dealId action : String) (d : PolicyDecision) : Prop :=
  ∃ chain, s.events.get? dealId = some chain ∧ LogsDecision chain action d

variable {s s' : Store} {dealId : String} {chain g : List Event}

theorem Decided.append (hc : s.events.get? dealId = some chain)
    (hs : s'.events = s.events.set dealId (chain ++ g)) {id action : String} {d : PolicyDecision}
    (h : s.Decided id action d) : s'.Decided id action d := by
  obtain ⟨c, hget, hlog⟩ := h
  rw [Decided, hs]
  by_cases hid : id = dealId
  · subst hid
    rw [hc] at hget
    cases hget
    exact ⟨_, Dict.get?_set_self .., hlog.append g⟩
  · exact ⟨c, by rw [Dict.get?_set_ne _ _ hid, hget], hlog⟩

variable (s') in
/-- An append adds the commands of the events it appends. -/
theorem commanded_append (hc : s.events.get? dealId = some chain)
    (hs : s'.events = s.events.set dealId (chain ++ g)) {id commandId actorId event : String} :
    s'.Commanded id commandId actorId event ↔ s.Commanded id commandId actorId event ∨
      id = dealId ∧ ∃ e ∈ g, e.Commands commandId actorId event := by
  unfold Commanded
  rw [hs]
  by_cases hid : id = dealId
  · subst hid
    simp only [Dict.get?_set_self, hc, Option.some.injEq, exists_eq_left', List.mem_append, true_and]
    constructor
    · rintro ⟨e, he | he, h⟩
      · exact .inl ⟨e, he, h⟩
      · exact .inr ⟨e, he, h⟩
    · rintro (⟨e, he, h⟩ | ⟨e, he, h⟩)
      · exact ⟨e, .inl he, h⟩
      · exact ⟨e, .inr he, h⟩
  · simp only [Dict.get?_set_ne _ _ hid, hid, false_and, or_false]

variable (s') in
/-- A new chain has no commands. -/
theorem commanded_create (hn : s.events.get? dealId = none)
    (hs : s'.events = s.events.set dealId []) {id commandId actorId event : String} :
    s'.Commanded id commandId actorId event ↔ s.Commanded id commandId actorId event := by
  unfold Commanded
  rw [hs]
  by_cases hid : id = dealId
  · subst hid
    simp [hn]
  · rw [Dict.get?_set_ne _ _ hid]

theorem Decided.create (hn : s.events.get? dealId = none)
    (hs : s'.events = s.events.set dealId []) {id action : String} {d : PolicyDecision}
    (h : s.Decided id action d) : s'.Decided id action d := by
  obtain ⟨chain, hc, hlog⟩ := h
  refine ⟨chain, ?_, hlog⟩
  rw [hs, Dict.get?_set_ne]
  · exact hc
  · rintro rfl
    rw [hn] at hc
    cases hc

end Store

section
variable [Platform] {signer : GatewaySigner} {deal : Deal} {seq : ℕ} {prevHash : String}
  {plan : CommitPlan} {chain : List Event}

/-! ## What a plan appends -/

/-- A boundary transition appends its own command and no other. -/
theorem TransitionPlan.commands {req : TransitionRequest} {target : DealState}
    (h : TransitionPlan signer deal seq prevHash req target plan)
    {commandId actorId event : String} :
    (∃ e ∈ plan.events, e.Commands commandId actorId event) ↔
      commandId = req.commandId ∧ actorId = req.actorId ∧ event = req.event.value := by
  cases h with
  | applied mid id =>
    constructor
    · rintro ⟨e, he, htype, hcommand, hactor, hevent⟩
      rcases List.mem_append.1 he with he | he
      · rw [mem_transitionMessages he] at htype
        cases htype
      · rw [List.mem_singleton] at he
        subst he
        simp only [TransitionRequest.transitionEvent, Event.str?, Event.field, buildEvent_payload,
          transitionPayload, Cause.fields, List.cons_append, List.nil_append, Dict.getEntries,
          String.reduceEq, if_false, if_true, Option.some.injEq] at hcommand hevent
        exact ⟨hcommand.symm, hactor.symm, hevent.symm⟩
    · rintro ⟨rfl, rfl, rfl⟩
      refine ⟨_, List.mem_append_right _ (List.mem_singleton_self _), rfl, ?_, rfl, ?_⟩
      · simp [TransitionRequest.transitionEvent, Event.str?, Event.field, transitionPayload,
          Cause.fields, Dict.getEntries]
      · simp [TransitionRequest.transitionEvent, Event.str?, Event.field, transitionPayload,
          Cause.fields, Dict.getEntries]

/-- A request appends no command. -/
theorem RequestPlan.commands {req : CommitRequest}
    (h : RequestPlan signer deal seq prevHash req plan) {commandId actorId event : String} :
    ¬ ∃ e ∈ plan.events, e.Commands commandId actorId event := by
  have hrecorded : ∀ mid did, ∀ e ∈ req.recorded signer mid did seq prevHash,
      e.eventType ≠ .stateTransition := by
    intro mid did e he
    rcases List.mem_append.1 he with he | he
    · simp [mem_messages he]
    · rw [List.mem_singleton] at he
      simp [he]
  rintro ⟨e, he, hcommands⟩
  cases h with
  | decided mid did ho => exact hrecorded mid did e he hcommands.type
  | applied mid did id token event' target ho hv hev ht =>
    rcases List.mem_append.1 he with he | he
    · exact hrecorded mid did e he hcommands.type
    · rw [List.mem_singleton] at he
      subst he
      have hcommand := hcommands.command
      simp only [CommitRequest.transitionEvent, Event.str?, Event.field, buildEvent_payload,
        transitionPayload, Cause.fields, List.cons_append, List.nil_append, Dict.getEntries,
        String.reduceEq, if_false] at hcommand
      cases hcommand
  | held mid did id aid approval ho ha =>
    rcases List.mem_append.1 he with he | he
    · exact hrecorded mid did e he hcommands.type
    · rw [List.mem_singleton] at he
      have htype := hcommands.type
      simp [he] at htype

/-- A planned request logs its decision, and the event that it allows. -/
theorem planCommitRequest_logs {req : CommitRequest} {event : Option DealEvent} {ids : EventIds}
    (hc : planTransition deal req.action req.decision.outcome = .ok event)
    (hp : planCommitRequest signer deal seq prevHash req event ids = .ok plan) :
    LogsDecision (chain ++ plan.events) req.action req.decision := by
  have hplan := requestPlan_of_ok hc hp
  have hlogs : ∀ mid did after, (req.decision.outcome = .allow → ∀ token event,
      StrEnum.ofValue? req.action = some token → actionEvents token = some event →
        ∃ t ∈ after.head?, t.Applies event req.requestId) →
      LogsDecision (chain ++ (req.recorded signer mid did seq prevHash ++ after)) req.action
        req.decision := by
    intro mid did after hnext
    let messages := req.messages signer mid seq prevHash
    refine ⟨chain ++ messages, req.decisionEvent signer did (seq + messages.length)
      (lastHash messages prevHash), after, _, _, _, _, ?_, rfl, rfl, hnext⟩
    rw [CommitRequest.recorded, extend, List.append_assoc, List.append_assoc]
    rfl
  cases transitionCheck_of_ok hc with
  | notAllowed ho =>
    cases hplan with
    | decided mid did _ =>
      have h := hlogs mid did [] fun h => absurd h ho
      rwa [List.append_nil] at h
    | applied _ _ _ _ _ _ h => exact absurd h ho
    | held mid did id aid approval _ ha => exact hlogs mid did _ fun h => absurd h ho
  | decisionOnly token ho hv he =>
    have hnext : ∀ after : List Event, ∀ token event, StrEnum.ofValue? req.action = some token →
        actionEvents token = some event → ∃ t ∈ after.head?, t.Applies event req.requestId := by
      intro after token' event hv' he'
      rw [actionToken_eq_some.2 hv] at hv'
      cases hv'
      rw [he] at he'
      cases he'
    cases hplan with
    | decided mid did _ =>
      have h := hlogs mid did [] fun _ => hnext []
      rwa [List.append_nil] at h
    | applied mid did _ _ _ _ _ _ _ _ => exact hlogs mid did _ fun _ => hnext _
    | held mid did id aid approval _ ha => exact hlogs mid did _ fun _ => hnext _
  | applies token event target ho hv he ht =>
    rw [planCommitRequest_applies req (planCommitRequest_stampable hp) ho hv he ht] at hp
    cases hp
    refine hlogs _ _ _ fun _ token' event' hv' he' => ⟨_, rfl, rfl, ?_, ?_⟩
    · rw [actionToken_eq_some.2 hv] at hv'
      cases hv'
      rw [he] at he'
      cases he'
      rfl
    · rfl

end

/-! ## Traced stores -/

namespace Store

/-- Every stored command is that of one transition, and every stored decision is
    on the chain of the deal it is about. -/
structure Traced [Platform] (s : Store) : Prop where
  keyed : ∀ id deal, s.deals.get? id = some deal → deal.dealId = id
  chains : ∀ id, (s.events.get? id).isSome → (s.deals.get? id).isSome
  seen : ∀ c, c ∈ s.seenCommands ↔ ∃ id actorId event, s.Commanded id c actorId event
  once : ∀ c id id' actorId actorId' event event', s.Commanded id c actorId event →
    s.Commanded id' c actorId' event' → id = id' ∧ actorId = actorId' ∧ event = event'
  decided : ∀ key digest d, s.decisions.get? key = some (digest, d) →
    ∃ p : Proposal, digest = canonicalSha256Hex p.toJson ∧ s.Decided p.dealId p.action d

variable [Platform] {s s' : Store} {signer : GatewaySigner} {ids : EventIds}

omit [Platform] in
theorem Commanded.congr (hs : s'.events = s.events) {id c actorId event : String} :
    s'.Commanded id c actorId event ↔ s.Commanded id c actorId event := by
  rw [Commanded, Commanded, hs]

theorem Traced.congr (h : s.Traced) (hd : s'.deals = s.deals) (he : s'.events = s.events)
    (hc : s'.seenCommands = s.seenCommands) (hk : s'.decisions = s.decisions) : s'.Traced where
  keyed := by rw [hd]; exact h.keyed
  chains := by rw [hd, he]; exact h.chains
  seen c := by
    simp only [hc, Commanded.congr he]
    exact h.seen c
  once := by
    simp only [Commanded.congr he]
    exact h.once
  decided := by
    simp only [hk, Decided, he]
    exact h.decided

omit [Platform] in
theorem keyed_set (h : ∀ id deal, s.deals.get? id = some deal → deal.dealId = id) {dealId : String}
    {deal : Deal} (hd : deal.dealId = dealId) : ∀ id deal', (s.deals.set dealId deal).get? id =
      some deal' → deal'.dealId = id := by
  intro id deal' hget
  rw [Dict.get?_set] at hget
  split_ifs at hget with hid
  · cases hget
    rw [hid, hd]
  · exact h id deal' hget

omit [Platform] in
theorem chains_set (h : ∀ id, (s.events.get? id).isSome → (s.deals.get? id).isSome)
    (dealId : String) (chain : List Event) (deal : Deal) : ∀ id,
      ((s.events.set dealId chain).get? id).isSome → ((s.deals.set dealId deal).get? id).isSome := by
  intro id
  rw [Dict.get?_set, Dict.get?_set]
  split_ifs with hid
  · exact fun _ => rfl
  · exact h id

/-- A new deal starts an empty chain. -/
theorem Traced.create (h : s.Traced) {deal : Deal} (hn : s.events.get? deal.dealId = none)
    (hd : s'.deals = s.deals.set deal.dealId deal)
    (he : s'.events = s.events.set deal.dealId []) (hc : s'.seenCommands = s.seenCommands)
    (hk : s'.decisions = s.decisions) : s'.Traced where
  keyed := by rw [hd]; exact keyed_set h.keyed rfl
  chains := by rw [hd, he]; exact chains_set h.chains _ _ _
  seen c := by
    simp only [hc, commanded_create s' hn he]
    exact h.seen c
  once := by
    simp only [commanded_create s' hn he]
    exact h.once
  decided key digest d hget := by
    obtain ⟨p, hp, hdec⟩ := h.decided key digest d (hk ▸ hget)
    exact ⟨p, hp, hdec.create hn he⟩

theorem Traced.createDeal (h : s.Traced) (deal : Deal) (createdAt : String) :
    (s.createDeal deal createdAt).2.Traced := by
  unfold Store.createDeal
  split_ifs with hs
  · exact h
  · have hn : s.events.get? deal.dealId = none := by
      by_contra he
      exact hs (h.chains deal.dealId (Option.isSome_iff_ne_none.2 he))
    exact h.create hn rfl rfl rfl rfl

/-- A committed transition adds its command, and no other. -/
theorem Traced.commitTransition (h : s.Traced) (req : TransitionRequest) :
    (s.commitTransition req signer ids).2.Traced := by
  have hcases := s.commitTransition_cases req signer ids
  generalize s.commitTransition req signer ids = r at hcases ⊢
  cases hcases with
  | refused r hr => exact h
  | committed deal chain target plan hd hc hn ht hp hs =>
    have hdeal : plan.newDeal.dealId = req.dealId := by
      cases hp with
      | applied mid id => exact h.keyed _ deal hd
    have hown : ∀ {id c actorId event}, (s.afterTransition req chain plan).Commanded id c actorId
        event ↔ s.Commanded id c actorId event ∨ id = req.dealId ∧ c = req.commandId ∧
          actorId = req.actorId ∧ event = req.event.value := by
      intro id c actorId event
      rw [commanded_append (s.afterTransition req chain plan) hc rfl, hp.commands]
    have hfresh : ∀ {id actorId event}, ¬ s.Commanded id req.commandId actorId event :=
      fun hcommanded => hn ((h.seen _).2 ⟨_, _, _, hcommanded⟩)
    refine ⟨keyed_set h.keyed hdeal, chains_set h.chains _ _ _, fun c => ?_, ?_, ?_⟩
    · have hins : c ∈ (s.afterTransition req chain plan).seenCommands ↔
          c = req.commandId ∨ c ∈ s.seenCommands := Finset.mem_insert
      rw [hins, h.seen]
      constructor
      · rintro (rfl | ⟨id, actorId, event, hcommanded⟩)
        · exact ⟨_, _, _, hown.2 (.inr ⟨rfl, rfl, rfl, rfl⟩)⟩
        · exact ⟨id, actorId, event, hown.2 (.inl hcommanded)⟩
      · rintro ⟨id, actorId, event, hcommanded⟩
        rcases hown.1 hcommanded with hold | ⟨-, rfl, -, -⟩
        · exact .inr ⟨id, actorId, event, hold⟩
        · exact .inl rfl
    · intro c id id' actorId actorId' event event' hcommanded hcommanded'
      rcases hown.1 hcommanded with hold | ⟨rfl, rfl, rfl, rfl⟩
      · rcases hown.1 hcommanded' with hold' | ⟨rfl, rfl, rfl, rfl⟩
        · exact h.once c _ _ _ _ _ _ hold hold'
        · exact absurd hold hfresh
      · rcases hown.1 hcommanded' with hold' | ⟨rfl, -, rfl, rfl⟩
        · exact absurd hold' hfresh
        · exact ⟨rfl, rfl, rfl⟩
    · intro key digest d hk
      obtain ⟨p, hp', hdec⟩ := h.decided key digest d hk
      exact ⟨p, hp', hdec.append hc rfl⟩

/-- A committed request adds its decision, and no command. -/
theorem Traced.afterRequest (h : s.Traced) {req : CommitRequest} {deal : Deal} {chain : List Event}
    {event : Option DealEvent} {plan : CommitPlan} (hd : s.deals.get? req.dealId = some deal)
    (hc : s.events.get? req.dealId = some chain)
    (ht : planTransition deal req.action req.decision.outcome = .ok event)
    (hp : planCommitRequest signer deal chain.length (lastHash chain genesisHash) req event ids =
      .ok plan)
    (hq : ∃ p : Proposal, req.proposalDigest = canonicalSha256Hex p.toJson ∧
      p.dealId = req.dealId ∧ p.action = req.action) : (s.afterRequest req chain plan).Traced := by
  have hplan := requestPlan_of_ok ht hp
  have hdeal : plan.newDeal.dealId = req.dealId := by
    cases hplan with
    | decided => exact h.keyed _ deal hd
    | applied => exact h.keyed _ deal hd
    | held => exact h.keyed _ deal hd
  have hsame : ∀ {id c actorId event}, (s.afterRequest req chain plan).Commanded id c actorId event ↔
      s.Commanded id c actorId event := by
    intro id c actorId event
    rw [commanded_append (s.afterRequest req chain plan) hc rfl,
      iff_false_intro hplan.commands, and_false, or_false]
  refine ⟨keyed_set h.keyed hdeal, chains_set h.chains _ _ _, fun c => ?_, ?_, ?_⟩
  · simp only [hsame]
    exact h.seen c
  · simp only [hsame]
    exact h.once
  · intro key digest d hk
    have hset : (s.afterRequest req chain plan).decisions = s.decisions.set req.idempotencyKey
        (req.proposalDigest, req.decision) := rfl
    rw [hset, Dict.get?_set] at hk
    split_ifs at hk with hkey
    · cases hk
      obtain ⟨p, hdigest, hid, haction⟩ := hq
      refine ⟨p, hdigest, chain ++ plan.events, ?_, ?_⟩
      · rw [hid]
        exact Dict.get?_set_self ..
      · rw [haction]
        exact planCommitRequest_logs ht hp
    · obtain ⟨p, hp', hdec⟩ := h.decided key digest d hk
      exact ⟨p, hp', hdec.append hc rfl⟩

theorem Traced.processRequest (h : s.Traced) (pi : PolicyInput) (recordedAt : String)
    (hdeal : pi.proposal.dealId = pi.deal.dealId) :
    (processRequest s pi signer recordedAt ids).2.Traced := by
  rcases processRequest_cases s pi signer recordedAt ids with hs | ⟨-, hs⟩
  · rw [hs]
    exact h
  · rw [hs]
    rcases s.commitRequest_planned (pi.commitRequest recordedAt) signer ids with
      hs | ⟨deal, event, chain, plan, hd, hc, ht, hp, hs⟩
    · rw [hs]
      exact h
    · rw [hs]
      exact h.afterRequest hd hc ht hp ⟨pi.proposal, rfl, hdeal, rfl⟩

end Store

/-! ## The answers of the handlers -/

section
variable [Platform]

/-- The answer says that the message was accepted. -/
def Answer.Accepted (answer : Answer) : Prop := answer.body.get? "outcome" = some (.str "accepted")

omit [Platform] in
theorem not_accepted_error (status : ℕ) (reason : String) :
    ¬ (errorAnswer status reason).Accepted := by
  simp [Answer.Accepted, errorAnswer, Json.get?, Dict.getEntries]

/-- A transition is answered as already applied when its command was seen, and
    as committed when it was not and is now on the chain. -/
theorem commitTransition_effect {s : Store} {req : TransitionRequest} {signer : GatewaySigner}
    {ids : EventIds} {result : CommitResult} (h : (s.commitTransition req signer ids).1 = .ok result) :
    (result.outcome = .alreadyApplied →
      req.commandId ∈ s.seenCommands ∧ (s.commitTransition req signer ids).2 = s) ∧
    (result.outcome = .committed → req.commandId ∉ s.seenCommands ∧
      req.commandId ∈ (s.commitTransition req signer ids).2.seenCommands ∧
      (s.commitTransition req signer ids).2.Commanded req.dealId req.commandId req.actorId
        req.event.value) := by
  constructor
  · intro ho
    by_contra hn
    have hnew : req.commandId ∉ s.seenCommands := by
      intro hseen
      refine hn ⟨hseen, ?_⟩
      have hcases := s.commitTransition_cases req signer ids
      generalize s.commitTransition req signer ids = r at hcases ⊢
      cases hcases with
      | refused r hr => rfl
      | committed deal chain target plan hd hc hn ht hp hs => exact absurd hseen hn
    unfold Store.commitTransition at h
    split at h
    · cases h
      cases ho
    · rw [if_neg hnew] at h
      split at h
      · cases h
        cases ho
      · split at h
        · cases h
        · split at h
          · cases h
          · cases h
            cases ho
  · intro ho
    have hcases := s.commitTransition_cases req signer ids
    generalize s.commitTransition req signer ids = r at h hcases ⊢
    cases hcases with
    | refused r hr => exact absurd ho (hr _ h)
    | committed deal chain target plan hd hc hn ht hp hs =>
      refine ⟨hn, Finset.mem_insert_self _ _, ?_⟩
      exact (Store.commanded_append (s.afterTransition req chain plan) hc rfl).2
        (.inr ⟨rfl, hp.commands.2 ⟨rfl, rfl, rfl⟩⟩)

variable {g : Gateway} {env : WireEnvelope} {b : Boundary} {answer : Answer}

/-- An event is answered as accepted when its message id was seen, or when its
    transition is now on the chain. -/
theorem event_accepted {payload : CounterpartyEventPayload}
    (h : (handleCounterpartyEvent g env payload b).1 = .ok answer) (ha : answer.Accepted) :
    (env.messageId ∈ g.store.seenCommands ∧
      (handleCounterpartyEvent g env payload b).2 = g.store) ∨
    (env.messageId ∉ g.store.seenCommands ∧
      env.messageId ∈ (handleCounterpartyEvent g env payload b).2.seenCommands ∧
      (handleCounterpartyEvent g env payload b).2.Commanded payload.dealId env.messageId
        env.senderId payload.event) := by
  have hcases := handleCounterpartyEvent_cases g env payload b
  generalize handleCounterpartyEvent g env payload b = done at h hcases ⊢
  cases hcases with
  | refused status reason hs =>
    cases h
    exact absurd ha (not_accepted_error status reason)
  | committed deal event hd haud he r s hc =>
    cases r with
    | error e => cases h
    | ok result =>
      have heffect := commitTransition_effect (congrArg Prod.fst hc)
      rw [congrArg Prod.snd hc] at heffect
      simp only [Except.bind, transitionAnswer] at h
      split_ifs at h with happlied hcommitted
      · exact .inl (heffect.1 happlied)
      · cases h
        exact absurd ha (not_accepted_error 409 _)
      · obtain ⟨hnew, hseen, hcommanded⟩ := heffect.2 (not_not.1 hcommitted)
        have hvalue : (counterpartyRequest g env payload b event).event.value = payload.event :=
          StrEnum.ofValue?_eq_some.1 he
        rw [hvalue] at hcommanded
        exact .inr ⟨hnew, hseen, hcommanded⟩

/-- A stored decision with the proposal's digest is given again. -/
theorem checkAntiReplay_idempotentHit {pi : PolicyInput} {store : SeenStore}
    (h : (checkAntiReplay pi store).outcome = .idempotentHit) :
    ∃ d, store.decisionFor pi.proposal.idempotencyKey = some (proposalDigest pi, d) ∧
      (checkAntiReplay pi store).decision = some d := by
  unfold checkAntiReplay at h ⊢
  cases hk : store.decisionFor pi.proposal.idempotencyKey with
  | some stored =>
    obtain ⟨digest, d⟩ := stored
    simp only [hk] at h ⊢
    split_ifs at h ⊢ with hdigest
    exact ⟨d, by rw [hdigest], rfl⟩
  | none =>
    simp only [hk] at h
    split at h
    · cases h
    · split at h
      · split_ifs at h
      · cases h

/-- An allowed action is open in the state of the deal. -/
theorem planTransition_evaluate (pi : PolicyInput) :
    ∃ event, planTransition pi.deal pi.proposal.action (evaluate pi).outcome = .ok event := by
  by_cases ho : (evaluate pi).outcome = .allow
  · obtain ⟨token, hv, hpermitted⟩ := (permitted_of_allow ho).action
    rw [ho]
    cases he : actionEvents token with
    | none => exact ⟨none, planTransition_decides hv he⟩
    | some event =>
      obtain ⟨target, ht⟩ := Option.isSome_iff_exists.1
        ((mem_actionValidStates he pi.deal.state).1 hpermitted.state)
      exact ⟨some event, planTransition_applies hv he ht⟩
  · exact ⟨none, if_pos ho⟩

/-- A request commit that passes the recheck and returns has logged its
    decision. -/
theorem commitRequest_decided {s : Store} {req : CommitRequest} {deal : Deal}
    {event : Option DealEvent} {signer : GatewaySigner} {ids : EventIds} {commit : CommitResult}
    (hd : s.deals.get? req.dealId = some deal)
    (ht : planTransition deal req.action req.decision.outcome = .ok event)
    (h : (s.commitRequest req signer ids).1 = .ok commit) :
    (s.commitRequest req signer ids).2.Decided req.dealId req.action req.decision := by
  cases hc : s.events.get? req.dealId with
  | none =>
    simp only [Store.commitRequest, hd, ht, hc] at h
    cases h
  | some chain =>
    rw [Store.commitRequest_eq req hd hc, ht] at h ⊢
    cases hp : planCommitRequest signer deal chain.length (lastHash chain genesisHash) req event
        ids with
    | error e =>
      simp only [hp] at h
      cases h
    | ok plan =>
      have hset : (s.afterRequest req chain plan).events =
        s.events.set req.dealId (chain ++ plan.events) := rfl
      simp only [hp]
      exact ⟨chain ++ plan.events, by rw [hset, Dict.get?_set_self], planCommitRequest_logs ht hp⟩

/-- A proposal that is answered as accepted has its decision on the chain. -/
theorem proposal_accepted {payload : ProposalPayload} (hf : CollisionFree) (ht : g.store.Traced)
    (h : (handleProposal g env payload b).1 = .ok answer) (ha : answer.Accepted) :
    ∃ d, answer.Carries d ∧
      (handleProposal g env payload b).2.Decided payload.dealId payload.action d := by
  have hcases := handleProposal_cases g env payload b
  generalize handleProposal g env payload b = done at h hcases ⊢
  cases hcases with
  | unknown =>
    cases h
    exact absurd ha (not_accepted_error 404 _)
  | audience =>
    cases h
    exact absurd ha (not_accepted_error 403 _)
  | raised => cases h
  | processed record deal claim now hr hd haud hc hn r s hp =>
    have hid : deal.dealId = payload.dealId := ht.keyed _ _ hd
    have hdeal : (proposalInput g env payload b record claim deal now).deal = deal := rfl
    have hdealId : (proposalInput g env payload b record claim deal now).proposal.dealId =
      payload.dealId := rfl
    have haction : (proposalInput g env payload b record claim deal now).proposal.action =
      payload.action := rfl
    generalize proposalInput g env payload b record claim deal now = pi at hp hdeal hdealId haction
    cases r with
    | error e => cases h
    | ok result =>
      simp only [Except.bind, proposalAnswer] at h
      cases hg : (checkAntiReplay pi g.store.seen).outcome with
      | idempotentHit =>
        obtain ⟨d, hstored, hverdict⟩ := checkAntiReplay_idempotentHit hg
        simp only [processRequest, hg, Prod.mk.injEq, Except.ok.injEq] at hp
        obtain ⟨rfl, rfl⟩ := hp
        simp only [hg, if_true, hverdict] at h
        obtain ⟨receipt, rfl, hreceipt⟩ := accepted_ok h
        obtain ⟨p, hdigest, hdec⟩ := ht.decided _ _ _ hstored
        rw [← Proposal.eq_of_normalize (hf.normalize_eq hdigest), hdealId, haction] at hdec
        exact ⟨d, ⟨receipt, rfl, by rw [hreceipt.contents]; rfl⟩, hdec⟩
      | pass =>
        obtain ⟨commit, rfl, hcommit⟩ := processRequest_result hg (congrArg Prod.fst hp)
        simp only [hg, reduceCtorEq, if_false, ne_eq, not_true_eq_false] at h
        obtain ⟨receipt, rfl, hreceipt⟩ := accepted_ok h
        have hstored : g.store.deals.get? pi.deal.dealId = some pi.deal := by rw [hdeal, hid, hd]
        obtain ⟨event, hplan⟩ := planTransition_evaluate pi
        have hdec : (g.store.commitRequest (pi.commitRequest b.now) g.signer b.eventIds).2.Decided
            pi.deal.dealId pi.proposal.action (evaluate pi) :=
          commitRequest_decided hstored hplan hcommit
        rw [← processRequest_pass hg, congrArg Prod.snd hp, haction, hdeal, hid] at hdec
        exact ⟨evaluate pi, ⟨receipt, rfl, by rw [hreceipt.contents]; rfl⟩, hdec⟩
      | replay =>
        simp only [processRequest, hg, Prod.mk.injEq, Except.ok.injEq] at hp
        obtain ⟨rfl, rfl⟩ := hp
        simp only [hg, reduceCtorEq, if_false, ne_eq, not_false_eq_true, if_true,
          Except.ok.injEq] at h
        subst h
        exact absurd ha (not_accepted_error 400 _)
      | conflict =>
        simp only [processRequest, hg, Prod.mk.injEq, Except.ok.injEq] at hp
        obtain ⟨rfl, rfl⟩ := hp
        simp only [hg, reduceCtorEq, if_false, ne_eq, not_false_eq_true, if_true,
          Except.ok.injEq] at h
        subst h
        exact absurd ha (not_accepted_error 400 _)

end

/-! ## The message behind a fingerprint -/

section

/-- Objects with one canonical form have the same strings under a key. -/
theorem str_of_normalize {fs gs : Dict String Json}
    (h : Json.normalize (.obj fs.entries) = Json.normalize (.obj gs.entries)) {key text : String}
    (hf : fs.get? key = some (.str text)) : gs.get? key = some (.str text) := by
  have hmember := Json.member_inj fs.nodup gs.nodup h key
  rw [show Dict.getEntries key fs.entries = some (.str text) from hf] at hmember
  obtain ⟨v, hv, htext⟩ := Option.map_eq_some_iff.1 hmember.symm
  cases v with
  | str t =>
    simp only [Json.normalize, Json.str.injEq] at htext
    rw [← htext]
    exact hv
  | null => simp [Json.normalize] at htext
  | bool _ => simp [Json.normalize] at htext
  | int _ => simp [Json.normalize] at htext
  | arr _ => simp [Json.normalize] at htext
  | obj _ => simp [Json.normalize] at htext

theorem readUlid_eq_some {v : Json} {text : String} (h : readUlid v = some text) :
    v = .str text :=
  readStr_eq_some.1 (Option.filter_eq_some_iff.1 h).1

theorem required_eq_some {payload : Dict String Json} {key text : String}
    {read : Json → Option String} (hread : ∀ v, read v = some text → v = .str text)
    (h : required payload key read = some text) : payload.get? key = some (.str text) := by
  obtain ⟨v, hv, hr⟩ := Option.bind_eq_some_iff.1 h
  rw [hv, hread v hr]

variable [Platform] {env env' : WireEnvelope}

/-- Envelopes with one fingerprint are one message. -/
theorem same_message (hf : CollisionFree) (h : envelopeFingerprint env = envelopeFingerprint env') :
    env.kind = env'.kind ∧ env.messageId = env'.messageId ∧ env.senderId = env'.senderId ∧
      Json.normalize (.obj env.payload.entries) = Json.normalize (.obj env'.payload.entries) := by
  have key := Json.member_inj
    (by simp [WireEnvelope.unsignedFields]) (by simp [WireEnvelope.unsignedFields])
    (hf.normalize_eq h)
  have hkind : Json.normalize (.str env.kind.value) = Json.normalize (.str env'.kind.value) :=
    Option.some.inj (key "kind")
  have hid : Json.normalize (.str env.messageId) = Json.normalize (.str env'.messageId) :=
    Option.some.inj (key "message_id")
  have hsender : Json.normalize (.str env.senderId) = Json.normalize (.str env'.senderId) :=
    Option.some.inj (key "sender_id")
  simp only [Json.normalize, Json.str.injEq] at hkind hid hsender
  exact ⟨MessageKind.value_inj hkind, hid, hsender, Option.some.inj (key "payload")⟩

/-- What is read of a proposal's payload. -/
theorem proposal_members {p : ProposalPayload} (h : parsePayload env = .ok (.proposal p)) :
    env.payload.get? "deal_id" = some (.str p.dealId) ∧
      env.payload.get? "action" = some (.str p.action) := by
  have hkind : env.kind = .proposal := kind_of_parsed h
  simp only [parsePayload, hkind] at h
  cases hr : ProposalPayload.read env.payload with
  | none => simp [hr] at h
  | some p' =>
    simp only [hr, Option.map_some, Except.ok.injEq, MessagePayload.proposal.injEq] at h
    subst h
    simp only [ProposalPayload.read, Option.bind_eq_bind, Option.bind_eq_some_iff,
      Option.pure_def, Option.some.injEq] at hr
    obtain ⟨action, ha, dealId, hd, _, -, _, -, _, -, _, -, _, -, rfl⟩ := hr
    exact ⟨required_eq_some (fun _ => readUlid_eq_some) hd,
      required_eq_some (fun _ => readStr_eq_some.1) ha⟩

end

/-! ## Accepted answers -/

section
variable [Platform]

/-- The effect an accepted answer to the message stands for: the decision it
    carries, or the transition of the event. -/
def HasEffect (s : Store) (env : WireEnvelope) (answer : Answer) : Prop :=
  match parsePayload env with
  | .ok (.proposal p) => ∃ d, answer.Carries d ∧ s.Decided p.dealId p.action d
  | .ok (.counterpartyEvent p) => s.Commanded p.dealId env.messageId env.senderId p.event
  | _ => False

/-- The message id of an event is the command id of another transition: on
    another deal, of another sender or by another event. -/
def Taken (s : Store) (env : WireEnvelope) : Prop :=
  ∃ p, parsePayload env = .ok (.counterpartyEvent p) ∧ ∃ dealId actorId event,
    s.Commanded dealId env.messageId actorId event ∧
      ¬ (dealId = p.dealId ∧ actorId = env.senderId ∧ event = p.event)

/-- What an accepted answer always leaves: the decision it carries, or the
    message id of the event among the seen ones. -/
def Settled (s : Store) (env : WireEnvelope) (answer : Answer) : Prop :=
  match parsePayload env with
  | .ok (.proposal p) => ∃ d, answer.Carries d ∧ s.Decided p.dealId p.action d
  | .ok (.counterpartyEvent _) => env.messageId ∈ s.seenCommands
  | _ => False

/-- What a later store keeps. -/
structure Store.Keeps (s s' : Store) : Prop where
  commands : s.seenCommands ⊆ s'.seenCommands
  decided : ∀ id action d, s.Decided id action d → s'.Decided id action d

variable {s s' : Store} {env env' : WireEnvelope} {answer : Answer}

omit [Platform] in
theorem Store.Keeps.refl (s : Store) : s.Keeps s := ⟨subset_rfl, fun _ _ _ h => h⟩

theorem Settled.mono (h : Settled s env answer) (hk : s.Keeps s') : Settled s' env answer := by
  unfold Settled at h ⊢
  split at h
  · obtain ⟨d, hd, hdec⟩ := h
    exact ⟨d, hd, hk.decided _ _ _ hdec⟩
  · exact hk.commands h
  · exact h

/-- It is the same for the same message. -/
theorem Settled.congr (hf : CollisionFree) (h : Settled s env answer)
    (he : envelopeFingerprint env = envelopeFingerprint env') {payload : MessagePayload}
    (hp : parsePayload env' = .ok payload) : Settled s env' answer := by
  obtain ⟨hkind, hid, -, hpayload⟩ := same_message hf he
  unfold Settled at h ⊢
  split at h
  · rename_i p hparsed
    have hk := kind_of_parsed hp
    rw [← hkind, kind_of_parsed hparsed] at hk
    cases payload with
    | proposal p' =>
      obtain ⟨hdeal, haction⟩ := proposal_members hparsed
      obtain ⟨hdeal', haction'⟩ := proposal_members hp
      rw [str_of_normalize hpayload hdeal, Option.some.injEq, Json.str.injEq] at hdeal'
      rw [str_of_normalize hpayload haction, Option.some.injEq, Json.str.injEq] at haction'
      rw [hp]
      simpa only [hdeal', haction'] using h
    | counterpartyEvent p' => cases hk
    | receipt p' => cases hk
  · rename_i p hparsed
    have hk := kind_of_parsed hp
    rw [← hkind, kind_of_parsed hparsed] at hk
    cases payload with
    | proposal p' => cases hk
    | counterpartyEvent p' =>
      rw [hp]
      simpa only [hid] using h
    | receipt p' => cases hk
  · exact h.elim

end

/-! ## Runs -/

section
variable [Platform]

/-- One step of the wire: a deal is registered, or a message comes in. -/
inductive WireStep (g : Gateway) : Gateway → Prop
  | register (dealId : String) (record : AuthorityRecord) (createdAt : String) :
      WireStep g (registerDeal g dealId record createdAt).2
  | message (env : WireEnvelope) (b : Boundary) : WireStep g (processMessage g env b).2

/-- A gateway under messages, from its empty store on. -/
def wire : System Gateway where
  init g := g.store = .empty ∧ g.dedup = .empty ∧ g.dealRecords = .empty
  step := WireStep

/-- The store is traced, and the stored answers are settled. -/
structure Wired (g : Gateway) : Prop where
  traced : g.store.Traced
  settled : ∀ key fingerprint answer, g.dedup.get? key = some (fingerprint, answer) →
    answer.Accepted → ∃ env, fingerprint = envelopeFingerprint env ∧ Settled g.store env answer

omit [Platform] in
/-- Registering a deal creates it, and stores and links its mandate. -/
theorem registerDeal_gateway (g : Gateway) (dealId : String) (record : AuthorityRecord)
    (createdAt : String) : ∃ records links dealRecords,
      (registerDeal g dealId record createdAt).2 = { g with
        store := { (g.store.createDeal (.fresh dealId) createdAt).2 with
          records, dealLinks := links }
        dealRecords } := by
  unfold registerDeal
  generalize g.store.createDeal (.fresh dealId) createdAt = created
  obtain ⟨_ | _, s⟩ := created
  · exact ⟨s.records, s.dealLinks, g.dealRecords, rfl⟩
  · simp only
    obtain ⟨links, hl⟩ := (s.putRecord record).linkDealRecord_store dealId record.recordId
    generalize (s.putRecord record).linkDealRecord dealId record.recordId = linked at hl ⊢
    obtain ⟨_ | _, s'⟩ := linked
    · cases hl
      exact ⟨_, links, g.dealRecords, rfl⟩
    · cases hl
      exact ⟨_, links, _, rfl⟩

omit [Platform] in
theorem createDeal_keeps {s : Store} (deal : Deal) (createdAt : String)
    (hc : ∀ id, (s.events.get? id).isSome → (s.deals.get? id).isSome) :
    s.Keeps (s.createDeal deal createdAt).2 := by
  unfold Store.createDeal
  split_ifs with hs
  · exact .refl s
  · have hn : s.events.get? deal.dealId = none := by
      by_contra he
      exact hs (hc _ (Option.isSome_iff_ne_none.2 he))
    exact ⟨subset_rfl, fun _ _ _ h => h.create hn rfl⟩

theorem processRequest_keeps (s : Store) (pi : PolicyInput) (signer : GatewaySigner)
    (recordedAt : String) (ids : EventIds) :
    s.Keeps (processRequest s pi signer recordedAt ids).2 := by
  rcases processRequest_cases s pi signer recordedAt ids with hs | ⟨-, hs⟩
  · rw [hs]
    exact .refl s
  · rw [hs]
    have hcases := s.commitRequest_cases (pi.commitRequest recordedAt) signer ids
    generalize s.commitRequest (pi.commitRequest recordedAt) signer ids = r at hcases ⊢
    cases hcases with
    | refused r hr => exact .refl s
    | committed deal chain plan hd hc hp _ => exact ⟨subset_rfl, fun _ _ _ h => h.append hc rfl⟩

theorem commitTransition_keeps (s : Store) (req : TransitionRequest) (signer : GatewaySigner)
    (ids : EventIds) : s.Keeps (s.commitTransition req signer ids).2 := by
  have hcases := s.commitTransition_cases req signer ids
  generalize s.commitTransition req signer ids = r at hcases ⊢
  cases hcases with
  | refused r hr => exact .refl s
  | committed deal chain target plan hd hc hn ht hp hs =>
    exact ⟨Finset.subset_insert _ _, fun _ _ _ h => h.append hc rfl⟩

variable {g : Gateway} {env : WireEnvelope} {b : Boundary} {answer : Answer}

/-- The handlers keep what is stored, and a traced store traced. -/
theorem handleProposal_traced (h : g.store.Traced) (payload : ProposalPayload) :
    (handleProposal g env payload b).2.Traced ∧
      g.store.Keeps (handleProposal g env payload b).2 := by
  have hcases := handleProposal_cases g env payload b
  generalize handleProposal g env payload b = done at hcases ⊢
  cases hcases with
  | unknown => exact ⟨h, .refl _⟩
  | audience => exact ⟨h, .refl _⟩
  | raised => exact ⟨h, .refl _⟩
  | processed record deal claim now hr hd haud hc hn r s hp =>
    have hs := congrArg Prod.snd hp
    simp only at hs ⊢
    rw [← hs]
    exact ⟨h.processRequest _ b.now (h.keyed _ _ hd).symm, processRequest_keeps ..⟩

theorem handleCounterpartyEvent_traced (h : g.store.Traced) (payload : CounterpartyEventPayload) :
    (handleCounterpartyEvent g env payload b).2.Traced ∧
      g.store.Keeps (handleCounterpartyEvent g env payload b).2 := by
  have hcases := handleCounterpartyEvent_cases g env payload b
  generalize handleCounterpartyEvent g env payload b = done at hcases ⊢
  cases hcases with
  | refused => exact ⟨h, .refl _⟩
  | committed deal event hd haud he r s hc =>
    have hs := congrArg Prod.snd hc
    simp only at hs ⊢
    rw [← hs]
    exact ⟨h.commitTransition _, commitTransition_keeps ..⟩

variable (env b) in
theorem processMessage_traced (h : g.store.Traced) : (processMessage g env b).2.store.Traced ∧
    g.store.Keeps (processMessage g env b).2.store := by
  have hcases := processMessage_cases g env b
  generalize processMessage g env b = done at hcases ⊢
  cases hcases with
  | refused => exact ⟨h, .refl _⟩
  | again => exact ⟨h, .refl _⟩
  | receipt => exact ⟨h, .refl _⟩
  | proposal payload ha done hh hd =>
    rw [keep_store, ← hd]
    exact handleProposal_traced h payload
  | event payload ha done hh hd =>
    rw [keep_store, ← hd]
    exact handleCounterpartyEvent_traced h payload

/-- An accepted answer is settled after it is given. -/
theorem processMessage_settled (hf : CollisionFree) (h : Wired g)
    (hp : (processMessage g env b).1 = .ok answer) (ha : answer.Accepted) :
    Settled (processMessage g env b).2.store env answer := by
  have hcases := processMessage_cases g env b
  generalize processMessage g env b = done at hcases hp ⊢
  cases hcases with
  | refused reason hr =>
    cases hp
    exact absurd ha (not_accepted_error 400 reason)
  | again payload answer' hl hd =>
    cases hp
    obtain ⟨env', he, hs⟩ := h.settled _ _ _ hd ha
    exact hs.congr hf he.symm hl.parsed
  | receipt payload hadm =>
    cases hp
    simp [Answer.Accepted, Json.get?, Dict.getEntries] at ha
  | proposal payload hadm done hh hd =>
    rw [keep_answer, ← hd] at hp
    rw [keep_store, ← hd, Settled, hadm.parsed]
    exact proposal_accepted hf h.traced hp ha
  | event payload hadm done hh hd =>
    rw [keep_answer, ← hd] at hp
    rw [keep_store, ← hd, Settled, hadm.parsed]
    rcases event_accepted hp ha with ⟨hseen, hs⟩ | ⟨-, hseen, -⟩
    · rw [hs]
      exact hseen
    · exact hseen

/-- A message adds only its own answer to the dedup table. -/
theorem processMessage_dedup (g : Gateway) (env : WireEnvelope) (b : Boundary) :
    (processMessage g env b).2.dedup = g.dedup ∨
      ∃ answer, (processMessage g env b).1 = .ok answer ∧ (processMessage g env b).2.dedup =
        g.dedup.set (env.senderId, env.idempotencyKey) (envelopeFingerprint env, answer) := by
  rcases deliver_dedup g ⟨env, b, false⟩ with h | ⟨-, -, answer, ha, h⟩
  · exact .inl h
  · exact .inr ⟨answer, ha, h⟩

theorem Wired.processMessage (hf : CollisionFree) (h : Wired g) (env : WireEnvelope)
    (b : Boundary) : Wired (processMessage g env b).2 := by
  obtain ⟨htraced, hkeeps⟩ := processMessage_traced env b h.traced
  have hold : ∀ key fingerprint answer, g.dedup.get? key = some (fingerprint, answer) →
      answer.Accepted → ∃ env', fingerprint = envelopeFingerprint env' ∧
        Settled (Mandate.processMessage g env b).2.store env' answer := by
    intro key fingerprint answer hd ha
    obtain ⟨env', he, hs⟩ := h.settled key fingerprint answer hd ha
    exact ⟨env', he, hs.mono hkeeps⟩
  refine ⟨htraced, ?_⟩
  rcases processMessage_dedup g env b with hsame | ⟨own, hown, hset⟩
  · rw [hsame]
    exact hold
  · intro key fingerprint answer hd ha
    rw [hset, Dict.get?_set] at hd
    split_ifs at hd
    · cases hd
      exact ⟨env, rfl, processMessage_settled hf h hown ha⟩
    · exact hold key fingerprint answer hd ha

theorem Wired.registerDeal (h : Wired g) (dealId : String) (record : AuthorityRecord)
    (createdAt : String) : Wired (registerDeal g dealId record createdAt).2 := by
  obtain ⟨records, links, dealRecords, hg⟩ := registerDeal_gateway g dealId record createdAt
  have hkeeps := createDeal_keeps (.fresh dealId) createdAt h.traced.chains
  have htraced := h.traced.createDeal (.fresh dealId) createdAt
  rw [hg]
  generalize (g.store.createDeal (.fresh dealId) createdAt).2 = s at hkeeps htraced
  refine ⟨htraced.congr rfl rfl rfl rfl, fun key fingerprint answer hd ha => ?_⟩
  obtain ⟨env, he, hs⟩ := h.settled key fingerprint answer hd ha
  exact ⟨env, he, hs.mono ⟨hkeeps.commands, hkeeps.decided⟩⟩

theorem wired_of_reachable (hf : CollisionFree) {g : Gateway} (hr : wire.Reachable g) :
    Wired g := by
  have hinv : wire.Invariant Wired :=
    { init := by
        rintro g ⟨hs, hd, -⟩
        refine ⟨?_, by rw [hd]; rintro key fingerprint answer ⟨⟩⟩
        rw [hs]
        refine ⟨by rintro id deal ⟨⟩, by rintro id ⟨⟩, fun c => ⟨by rintro ⟨⟩, ?_⟩, ?_,
          by rintro key digest d ⟨⟩⟩
        · rintro ⟨_, _, _, _, ⟨⟩, -⟩
        · rintro _ _ _ _ _ _ _ ⟨_, ⟨⟩, -⟩
      step := by
        rintro g g' - h (⟨dealId, record, createdAt⟩ | ⟨env, b⟩)
        · exact h.registerDeal dealId record createdAt
        · exact h.processMessage hf env b }
  exact hinv.holds hr

/-- A message id that was seen before an event was accepted, or the event's
    transition after it. -/
theorem processMessage_event (hf : CollisionFree) (h : Wired g) {p : CounterpartyEventPayload}
    (hq : parsePayload env = .ok (.counterpartyEvent p))
    (hp : (processMessage g env b).1 = .ok answer) (ha : answer.Accepted) :
    (env.messageId ∈ g.store.seenCommands ∧ (processMessage g env b).2.store = g.store) ∨
      (env.messageId ∉ g.store.seenCommands ∧ (processMessage g env b).2.store.Commanded p.dealId
        env.messageId env.senderId p.event) := by
  have hsettled := processMessage_settled hf h hp ha
  rw [Settled, hq] at hsettled
  have hcases := processMessage_cases g env b
  generalize processMessage g env b = done at hcases hp hsettled ⊢
  cases hcases with
  | refused reason hr => exact .inl ⟨hsettled, rfl⟩
  | again payload answer' hl hd => exact .inl ⟨hsettled, rfl⟩
  | receipt payload hadm => exact .inl ⟨hsettled, rfl⟩
  | proposal payload hadm done hh hd =>
    have hother := hadm.parsed
    rw [hq] at hother
    cases hother
  | event payload hadm done hh hd =>
    have hsame := hadm.parsed
    rw [hq] at hsame
    cases hsame
    rw [keep_answer, ← hd] at hp
    rw [keep_store, ← hd]
    rcases event_accepted hp ha with hseen | ⟨hnew, -, hcommanded⟩
    · exact .inl hseen
    · exact .inr ⟨hnew, hcommanded⟩

/-- In every run over any messages, an accepted answer means that the effect
    of its message is on the chain, exactly when the message id of an event is
    not taken by another transition; for a proposal it always is. -/
theorem accepted_iff_effect (hf : CollisionFree) (hr : wire.Reachable g)
    (hp : (processMessage g env b).1 = .ok answer) (ha : answer.Accepted) :
    HasEffect (processMessage g env b).2.store env answer ↔ ¬ Taken g.store env := by
  have h := wired_of_reachable hf hr
  have hsettled := processMessage_settled hf h hp ha
  unfold Settled at hsettled
  split at hsettled
  · rename_i p hq
    rw [HasEffect, hq]
    refine iff_of_true hsettled ?_
    rintro ⟨p', hq', -⟩
    rw [hq] at hq'
    cases hq'
  · rename_i p hq
    have htaken : Taken g.store env ↔ ∃ dealId actorId event,
        g.store.Commanded dealId env.messageId actorId event ∧
          ¬ (dealId = p.dealId ∧ actorId = env.senderId ∧ event = p.event) := by
      simp only [Taken, hq, Except.ok.injEq, MessagePayload.counterpartyEvent.injEq,
        exists_eq_left']
    rw [HasEffect, hq, htaken]
    rcases processMessage_event hf h hq hp ha with ⟨hseen, hs⟩ | ⟨hnew, hcommanded⟩
    · rw [hs]
      constructor
      · rintro hown ⟨dealId, actorId, event, hcommanded, hne⟩
        exact hne (h.traced.once _ _ _ _ _ _ _ hcommanded hown)
      · intro hn
        obtain ⟨dealId, actorId, event, hcommanded⟩ := (h.traced.seen _).1 hseen
        by_contra hown
        refine hn ⟨dealId, actorId, event, hcommanded, ?_⟩
        rintro ⟨rfl, rfl, rfl⟩
        exact hown hcommanded
    · refine iff_of_true hcommanded ?_
      rintro ⟨dealId, actorId, event, hold, -⟩
      exact hnew ((h.traced.seen _).2 ⟨dealId, actorId, event, hold⟩)
  · exact hsettled.elim

end

/-! ## A message id used twice -/

section
open Sample
attribute [local instance] Sample.platform

theorem Sample.opened_reachable : wire.Reachable opened :=
  .step (.init ⟨rfl, rfl, rfl⟩) (.register dealId record now.text)

/-- An answer that says so is accepted. -/
theorem exists_accepted {r : Except PyError Answer} (h : r.toOption.map
    (fun answer => (answer.body.get? "outcome").bind readStr) = some (some "accepted")) :
    ∃ answer, r = .ok answer ∧ answer.Accepted := by
  cases r with
  | error e => cases h
  | ok answer =>
    obtain ⟨v, hv, ht⟩ := Option.bind_eq_some_iff.1 (Option.some.inj h)
    exact ⟨answer, rfl, hv.trans (congrArg some (readStr_eq_some.1 ht))⟩

theorem accepted_iff_effect_first :
    ∃ answer, (processMessage opened (message '1' .quoteRequested) boundary).1 = .ok answer ∧
      (HasEffect (processMessage opened (message '1' .quoteRequested) boundary).2.store
        (message '1' .quoteRequested) answer ↔
          ¬ Taken opened.store (message '1' .quoteRequested)) := by
  obtain ⟨answer, hp, ha⟩ := exists_accepted
    (r := (processMessage opened (message '1' .quoteRequested) boundary).1) (by decide +kernel)
  exact ⟨answer, hp, accepted_iff_effect Sample.collisionFree opened_reachable hp ha⟩

/-- The peer's quote under a message id that it has used for its request. -/
def Sample.reused : WireEnvelope := { message '1' .quoteReceived with idempotencyKey := ulid '2' }

/-- The quote is answered as accepted, and the deal has no quote. -/
theorem accepted_without_effect :
    let g := (processMessage opened (message '1' .quoteRequested) boundary).2
    wire.Reachable g ∧ ∃ answer, (processMessage g reused boundary).1 = .ok answer ∧
      answer.Accepted ∧ ¬ HasEffect (processMessage g reused boundary).2.store reused answer ∧
      ((processMessage g reused boundary).2.store.deals.get? dealId).map Deal.state =
        some .quoteRequested := by
  intro g
  obtain ⟨answer, hp, ha⟩ := exists_accepted (r := (processMessage g reused boundary).1)
    (by decide +kernel)
  have hevents : ((processMessage g reused boundary).2.store.eventsFor dealId).map
      (fun e => e.str? "event") = [some "quote_requested"] := by decide +kernel
  have hparse : parsePayload reused = .ok (.counterpartyEvent ⟨dealId, "quote_received", ""⟩) := rfl
  refine ⟨opened_reachable.step (.message _ boundary), answer, hp, ha, ?_, by decide +kernel⟩
  rw [HasEffect, hparse]
  rintro ⟨chain, hc, e, he, hcommands⟩
  rw [Store.eventsFor, hc, Option.getD_some] at hevents
  have hmem := List.mem_map_of_mem (f := fun e => e.str? "event") he
  rw [hevents, hcommands.event] at hmem
  simp at hmem

end

end Mandate
