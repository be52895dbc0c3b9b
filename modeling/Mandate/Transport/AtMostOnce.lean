/-
  At most once over the wire.

  Three layers keep a message from taking effect twice: the dedup table, the
  idempotency key of a request and the command id of a transition.  The last
  two are written with the effect (`Store.Spent`), so they still hold when the
  process stops before the answer is stored.  Over any sequence of deliveries,
  an envelope causes at most one decision and one transition, and a stored
  answer is given to every redelivery (`at_most_once`).
-/
import Mandate.Transport.Pipeline

namespace Mandate

/-! ## What is logged -/

/-- The events of one type, on all chains. -/
def Store.eventsOf (s : Store) (type : EventType) : List Event :=
  s.events.values.flatMap fun chain => chain.filter (·.eventType = type)

theorem Store.eventsOf_append {s s' : Store} {dealId : String} {chain g : List Event}
    (hc : s.events.get? dealId = some chain) (hs : s'.events = s.events.set dealId (chain ++ g))
    (type : EventType) :
    (s'.eventsOf type).length = (s.eventsOf type).length + (g.filter (·.eventType = type)).length := by
  have hp := Dict.flatMap_values_set (f := fun chain : List Event =>
    chain.filter (·.eventType = type)) hc (List.filter_append chain g)
  rw [eventsOf, hs, hp.length_eq, List.length_append, eventsOf]

section
variable [Platform]

section
variable {signer : GatewaySigner} {deal : Deal} {seq : ℕ} {prevHash : String} {plan : CommitPlan}

theorem recorded_eventTypes (req : CommitRequest) (mid did : String) {type : EventType}
    (h : type ≠ .message) :
    ((req.recorded signer mid did seq prevHash).filter (·.eventType = type)).length =
      if type = .policyDecision then 1 else 0 := by
  have hmessages : (req.messages signer mid seq prevHash).filter (·.eventType = type) = [] :=
    List.filter_eq_nil_iff.2 fun e he => by simp [mem_messages he, h.symm]
  rw [CommitRequest.recorded, extend, List.filter_append, hmessages]
  by_cases ht : type = .policyDecision <;> simp [ht, eq_comm]

/-- A request logs one decision, and at most one event that follows it. -/
theorem RequestPlan.eventTypes {req : CommitRequest} {type : EventType}
    (h : RequestPlan signer deal seq prevHash req plan)
    (ht : type = .policyDecision ∨ type = .stateTransition) :
    (plan.events.filter (·.eventType = type)).length ≤ 1 := by
  have hm : type ≠ .message := by rcases ht with rfl | rfl <;> decide
  cases h with
  | decided mid did ho =>
    rw [recorded_eventTypes req mid did hm]
    split_ifs <;> omega
  | applied mid did id token event target ho hv he htr =>
    rw [extend, List.filter_append, List.length_append, recorded_eventTypes req mid did hm]
    rcases ht with rfl | rfl <;> simp
  | held mid did id aid approval ho ha =>
    rw [extend, List.filter_append, List.length_append, recorded_eventTypes req mid did hm]
    rcases ht with rfl | rfl <;> simp

/-- A boundary transition logs one transition and no decision. -/
theorem TransitionPlan.eventTypes {req : TransitionRequest} {target : DealState}
    {type : EventType} (h : TransitionPlan signer deal seq prevHash req target plan)
    (ht : type = .policyDecision ∨ type = .stateTransition) :
    (plan.events.filter (·.eventType = type)).length ≤ 1 := by
  have hm : type ≠ .message := by rcases ht with rfl | rfl <;> decide
  cases h with
  | applied mid id =>
    have hmessages : (req.messages signer mid seq prevHash).filter (·.eventType = type) = [] :=
      List.filter_eq_nil_iff.2 fun e he => by simp [mem_transitionMessages he, hm.symm]
    rw [extend, List.filter_append, hmessages]
    rcases ht with rfl | rfl <;> simp

end

/-! ## Deliveries -/

/-- A delivery of an envelope, after which the process may stop before the
    answer is stored. -/
structure Delivery where
  env : WireEnvelope
  boundary : Boundary
  crashes : Bool

def Gateway.deliver (g : Gateway) (d : Delivery) : Gateway :=
  let g' := (processMessage g d.env d.boundary).2
  if d.crashes then { g' with dedup := g.dedup } else g'

def Gateway.deliveries (g : Gateway) (ds : List Delivery) : Gateway := ds.foldl Gateway.deliver g

/-- How many events of a type a delivery appends. -/
def Delivery.logs (d : Delivery) (g : Gateway) (type : EventType) : ℕ :=
  ((g.deliver d).store.eventsOf type).length - (g.store.eventsOf type).length

open Classical in
/-- How many events of a type the deliveries of an envelope append. -/
noncomputable def causedBy (env : WireEnvelope) (type : EventType) : Gateway → List Delivery → ℕ
  | _, [] => 0
  | g, d :: ds => (if d.env = env then d.logs g type else 0) + causedBy env type (g.deliver d) ds

theorem deliver_store (g : Gateway) (d : Delivery) :
    (g.deliver d).store = (processMessage g d.env d.boundary).2.store := by
  simp only [Gateway.deliver]
  split_ifs <;> rfl

/-! ## Spent envelopes -/

/-- The key or the command id of the envelope is in the ledger. -/
def Store.Spent (s : Store) (env : WireEnvelope) : Prop :=
  match env.kind with
  | .proposal => (s.decisions.get? env.idempotencyKey).isSome
  | .counterpartyEvent => env.messageId ∈ s.seenCommands
  | .receipt => True

omit [Platform] in
/-- Keys and command ids stay in the ledger. -/
theorem Store.Spent.mono {s s' : Store} {env : WireEnvelope} (h : s.Spent env)
    (hd : ∀ key, (s.decisions.get? key).isSome → (s'.decisions.get? key).isSome)
    (hc : s.seenCommands ⊆ s'.seenCommands) : s'.Spent env := by
  unfold Store.Spent at h ⊢
  cases hk : env.kind with
  | proposal => rw [hk] at h; exact hd _ h
  | counterpartyEvent => rw [hk] at h; exact hc h
  | receipt => trivial

theorem kind_of_parsed {env : WireEnvelope} {payload : MessagePayload}
    (h : parsePayload env = .ok payload) :
    match payload with
    | .proposal _ => env.kind = .proposal
    | .counterpartyEvent _ => env.kind = .counterpartyEvent
    | .receipt _ => env.kind = .receipt := by
  unfold parsePayload at h
  cases hk : env.kind with
  | proposal =>
    simp only [hk] at h
    cases hr : ProposalPayload.read env.payload with
    | none => simp [hr] at h
    | some p => simp only [hr, Option.map_some, Except.ok.injEq] at h; subst h; rfl
  | counterpartyEvent =>
    simp only [hk] at h
    cases hr : CounterpartyEventPayload.read env.payload with
    | none => simp [hr] at h
    | some p => simp only [hr, Option.map_some, Except.ok.injEq] at h; subst h; rfl
  | receipt =>
    simp only [hk] at h
    cases hr : ReceiptPayload.read env.payload with
    | none => simp [hr] at h
    | some p => simp only [hr, Option.map_some, Except.ok.injEq] at h; subst h; rfl

/-- What a message does to the store: nothing, or one commit under a fresh key
    or command id, which is spent by it. -/
inductive StoreStep (s : Store) (env : WireEnvelope) : Store → Prop
  | kept : StoreStep s env s
  | committed (s' : Store) (hn : ¬ s.Spent env) (hs : s'.Spent env)
      (hd : ∀ key, (s.decisions.get? key).isSome → (s'.decisions.get? key).isSome)
      (hc : s.seenCommands ⊆ s'.seenCommands)
      (hlog : ∀ type, type = .policyDecision ∨ type = .stateTransition →
        (s'.eventsOf type).length ≤ (s.eventsOf type).length + 1) : StoreStep s env s'

theorem proposal_storeStep {g : Gateway} {env : WireEnvelope} {payload : ProposalPayload}
    {b : Boundary} (hp : parsePayload env = .ok (.proposal payload)) :
    StoreStep g.store env (handleProposal g env payload b).2 := by
  have hkind : env.kind = .proposal := kind_of_parsed hp
  have hcases := handleProposal_cases g env payload b
  generalize handleProposal g env payload b = done at hcases ⊢
  cases hcases with
  | unknown => exact .kept
  | audience => exact .kept
  | raised => exact .kept
  | processed record deal claim now hr hd ha hc hn r s hproc =>
    have hs := congrArg Prod.snd hproc
    simp only at hs ⊢
    rw [← hs]
    rcases processRequest_cases g.store (proposalInput g env payload b record claim deal now)
      g.signer b.now b.eventIds with hsame | ⟨hpass, hcommit⟩
    · rw [hsame]
      exact .kept
    · rw [hcommit]
      have hfresh : g.store.decisions.get? env.idempotencyKey = none :=
        (checkAntiReplay_pass.1 hpass).1
      have hkey : ((proposalInput g env payload b record claim deal now).commitRequest
        b.now).idempotencyKey = env.idempotencyKey := rfl
      generalize (proposalInput g env payload b record claim deal now).commitRequest b.now = req
        at hkey ⊢
      have hstep := g.store.commitRequest_cases req g.signer b.eventIds
      generalize g.store.commitRequest req g.signer b.eventIds = done at hstep ⊢
      cases hstep with
      | refused r hr => exact .kept
      | committed deal chain plan hd hc hplan ht =>
        have hdec : (g.store.afterRequest req chain plan).decisions =
            g.store.decisions.set env.idempotencyKey (req.proposalDigest, req.decision) := by
          rw [← hkey]
          rfl
        refine .committed _ ?_ ?_ (fun key hk => ?_) subset_rfl fun type htype => ?_
        · simp [Store.Spent, hkind, hfresh]
        · simp [Store.Spent, hkind, hdec]
        · rw [hdec, Dict.get?_set]
          split_ifs
          · rfl
          · exact hk
        · rw [Store.eventsOf_append hc (g := plan.events) rfl]
          exact Nat.add_le_add_left (hplan.eventTypes htype) _

theorem event_storeStep {g : Gateway} {env : WireEnvelope} {payload : CounterpartyEventPayload}
    {b : Boundary} (hp : parsePayload env = .ok (.counterpartyEvent payload)) :
    StoreStep g.store env (handleCounterpartyEvent g env payload b).2 := by
  have hkind : env.kind = .counterpartyEvent := kind_of_parsed hp
  have hcases := handleCounterpartyEvent_cases g env payload b
  generalize handleCounterpartyEvent g env payload b = done at hcases ⊢
  cases hcases with
  | refused => exact .kept
  | committed deal event hd ha he r s hcommit =>
    have hs := congrArg Prod.snd hcommit
    simp only at hs ⊢
    rw [← hs]
    have hid : (counterpartyRequest g env payload b event).commandId = env.messageId := rfl
    generalize counterpartyRequest g env payload b event = req at hid ⊢
    have hstep := g.store.commitTransition_cases req g.signer b.eventIds
    generalize g.store.commitTransition req g.signer b.eventIds = done at hstep ⊢
    cases hstep with
    | refused r hr => exact .kept
    | committed deal chain target plan hd hc hn ht hplan hst =>
      refine .committed _ ?_ ?_ (fun key hk => hk) (Finset.subset_insert _ _) fun type htype => ?_
      · simpa [Store.Spent, hkind, ← hid] using hn
      · simp [Store.Spent, hkind, ← hid, Store.afterTransition]
      · rw [Store.eventsOf_append hc (g := plan.events) rfl]
        exact Nat.add_le_add_left (hplan.eventTypes htype) _

theorem processMessage_storeStep (g : Gateway) (env : WireEnvelope) (b : Boundary) :
    StoreStep g.store env (processMessage g env b).2.store := by
  have hcases := processMessage_cases g env b
  generalize processMessage g env b = done at hcases ⊢
  cases hcases with
  | refused => exact .kept
  | again => exact .kept
  | receipt => exact .kept
  | proposal payload h done hh hd =>
    rw [keep_store, ← hd]
    exact proposal_storeStep h.parsed
  | event payload h done hh hd =>
    rw [keep_store, ← hd]
    exact event_storeStep h.parsed

/-- Spent envelopes stay spent. -/
theorem Store.Spent.deliver {g : Gateway} {env : WireEnvelope} (h : g.store.Spent env)
    (d : Delivery) : (g.deliver d).store.Spent env := by
  rw [deliver_store]
  have hstep := processMessage_storeStep g d.env d.boundary
  generalize (processMessage g d.env d.boundary).2.store = s at hstep ⊢
  cases hstep with
  | kept => exact h
  | committed _ hn hs hd hc hlog => exact h.mono hd hc

/-- A spent envelope causes nothing any more. -/
theorem causedBy_spent {env : WireEnvelope} {type : EventType} {ds : List Delivery} {g : Gateway}
    (h : g.store.Spent env) : causedBy env type g ds = 0 := by
  induction ds generalizing g with
  | nil => rfl
  | cons d ds ih =>
    rw [causedBy, ih (h.deliver d), Nat.add_zero]
    split_ifs with he
    · subst he
      have hstep := processMessage_storeStep g d.env d.boundary
      rw [← deliver_store] at hstep
      generalize hs : (g.deliver d).store = s at hstep
      cases hstep with
      | kept => rw [Delivery.logs, hs, Nat.sub_self]
      | committed _ hn => exact absurd h hn
    · rfl

theorem causedBy_le_one {env : WireEnvelope} {type : EventType}
    (ht : type = .policyDecision ∨ type = .stateTransition) {ds : List Delivery} {g : Gateway} :
    causedBy env type g ds ≤ 1 := by
  induction ds generalizing g with
  | nil => exact Nat.zero_le _
  | cons d ds ih =>
    rw [causedBy]
    split_ifs with he
    · subst he
      have hstep := processMessage_storeStep g d.env d.boundary
      rw [← deliver_store] at hstep
      generalize hs : (g.deliver d).store = s at hstep
      cases hstep with
      | kept =>
        rw [Delivery.logs, hs, Nat.sub_self, Nat.zero_add]
        exact ih
      | committed _ hn hspent hd hc hlog =>
        rw [causedBy_spent (hs ▸ hspent), Delivery.logs, hs]
        have := hlog type ht
        omega
    · rw [Nat.zero_add]
      exact ih

/-! ## Stored answers -/

/-- The envelope can be read here, and its answer is stored. -/
def Gateway.Answered (g : Gateway) (env : WireEnvelope) (answer : Answer) : Prop :=
  (∃ payload, Legible g env payload) ∧
    g.dedup.get? (env.senderId, env.idempotencyKey) = some (envelopeFingerprint env, answer)

/-- A message changes the dedup table only by storing its own answer. -/
theorem deliver_dedup (g : Gateway) (d : Delivery) :
    (g.deliver d).dedup = g.dedup ∨
      g.dedup.get? (d.env.senderId, d.env.idempotencyKey) = none ∧
        (∃ payload, Legible g d.env payload) ∧
        ∃ answer, (processMessage g d.env d.boundary).1 = .ok answer ∧
          (g.deliver d).dedup = g.dedup.set (d.env.senderId, d.env.idempotencyKey)
            (envelopeFingerprint d.env, answer) := by
  simp only [Gateway.deliver]
  split_ifs with hcrash
  · exact .inl rfl
  · have hcases := processMessage_cases g d.env d.boundary
    generalize processMessage g d.env d.boundary = done at hcases ⊢
    have hkeep : ∀ {payload}, Admitted g d.env d.boundary payload →
        ∀ r : Except PyError Answer × Store, (g.keep d.env r).2.dedup = g.dedup ∨
          g.dedup.get? (d.env.senderId, d.env.idempotencyKey) = none ∧
          (∃ payload, Legible g d.env payload) ∧ ∃ answer, (g.keep d.env r).1 = .ok answer ∧
            (g.keep d.env r).2.dedup = g.dedup.set (d.env.senderId, d.env.idempotencyKey)
              (envelopeFingerprint d.env, answer) := by
      rintro payload h ⟨_ | answer, s⟩
      · exact .inl rfl
      · exact .inr ⟨h.new, ⟨payload, h.toLegible⟩, answer, rfl, rfl⟩
    cases hcases with
    | refused => exact .inl rfl
    | again => exact .inl rfl
    | receipt => exact .inl rfl
    | proposal payload h done hh hd => exact hkeep h done
    | event payload h done hh hd => exact hkeep h done

theorem deliver_setUp (g : Gateway) (d : Delivery) :
    (g.deliver d).identity = g.identity ∧ (g.deliver d).peers = g.peers := by
  have hcases := processMessage_cases g d.env d.boundary
  simp only [Gateway.deliver]
  generalize processMessage g d.env d.boundary = done at hcases ⊢
  have hkeep : ∀ r : Except PyError Answer × Store, (g.keep d.env r).2.identity = g.identity ∧
      (g.keep d.env r).2.peers = g.peers := by
    rintro ⟨_ | answer, s⟩ <;> exact ⟨rfl, rfl⟩
  cases hcases with
  | refused => split_ifs <;> exact ⟨rfl, rfl⟩
  | again => split_ifs <;> exact ⟨rfl, rfl⟩
  | receipt => split_ifs <;> exact ⟨rfl, rfl⟩
  | proposal payload h done hh hd => split_ifs <;> exact hkeep done
  | event payload h done hh hd => split_ifs <;> exact hkeep done

theorem deliveries_setUp (g : Gateway) (ds : List Delivery) :
    (g.deliveries ds).identity = g.identity ∧ (g.deliveries ds).peers = g.peers := by
  induction ds generalizing g with
  | nil => exact ⟨rfl, rfl⟩
  | cons d ds ih =>
    obtain ⟨hi, hp⟩ := deliver_setUp g d
    obtain ⟨hi', hp'⟩ := ih (g.deliver d)
    exact ⟨hi'.trans hi, hp'.trans hp⟩

omit [Platform] in
theorem Legible.congr [Platform] {g g' : Gateway} {env : WireEnvelope} {payload : MessagePayload}
    (h : Legible g env payload) (hi : g'.identity = g.identity) (hp : g'.peers = g.peers) :
    Legible g' env payload :=
  ⟨hi ▸ h.recipient, hp ▸ h.peer, h.parsed⟩

/-- Stored answers stay. -/
theorem Gateway.Answered.deliver {g : Gateway} {env : WireEnvelope} {answer : Answer}
    (h : g.Answered env answer) (d : Delivery) : (g.deliver d).Answered env answer := by
  obtain ⟨⟨payload, hl⟩, hget⟩ := h
  obtain ⟨hi, hp⟩ := deliver_setUp g d
  refine ⟨⟨payload, hl.congr hi hp⟩, ?_⟩
  rcases deliver_dedup g d with hd | ⟨hnone, -, answer', -, hd⟩
  · rw [hd]
    exact hget
  · rw [hd, Dict.get?_set_ne _ _ fun heq => ?_]
    · exact hget
    · rw [heq, hnone] at hget
      cases hget

theorem Gateway.Answered.deliveries {g : Gateway} {env : WireEnvelope} {answer : Answer}
    (h : g.Answered env answer) (ds : List Delivery) : (g.deliveries ds).Answered env answer := by
  induction ds generalizing g with
  | nil => exact h
  | cons d ds ih => exact ih (h.deliver d)

theorem deliveries_append (g : Gateway) (before : List Delivery) (d : Delivery)
    (between : List Delivery) : g.deliveries (before ++ d :: between) =
      ((g.deliveries before).deliver d).deliveries between := by
  simp only [Gateway.deliveries, List.foldl_append, List.foldl_cons]

/-- A stored answer is given again, and another envelope under its key is
    refused. -/
theorem Gateway.Answered.redelivered {g : Gateway} {env : WireEnvelope} {answer : Answer}
    (h : g.Answered env answer) :
    (∀ b, processMessage g env b = (.ok answer, g)) ∧
      ∀ env' payload, Legible g env' payload → env'.senderId = env.senderId →
        env'.idempotencyKey = env.idempotencyKey →
        envelopeFingerprint env' ≠ envelopeFingerprint env →
          ∀ b, ∃ reason, processMessage g env' b = (.ok (errorAnswer 400 reason), g) := by
  obtain ⟨⟨payload, hl⟩, hget⟩ := h
  refine ⟨hl.answered_again hget, ?_⟩
  intro env' payload' hl' hsender hkey hfp b
  rw [← hsender, ← hkey] at hget
  have hcases := processMessage_cases g env' b
  generalize processMessage g env' b = done at hcases ⊢
  cases hcases with
  | refused reason h => exact ⟨reason, rfl⟩
  | again _ answer' _ hd' =>
    rw [hget] at hd'
    exact absurd (congrArg Prod.fst (Option.some.inj hd')).symm hfp
  | receipt _ h =>
    rw [h.new] at hget
    cases hget
  | proposal _ h =>
    rw [h.new] at hget
    cases hget
  | event _ h =>
    rw [h.new] at hget
    cases hget

/-- In every sequence of deliveries, an envelope causes at most one decision
    and one transition.  Once the answer to an envelope is stored, its
    redeliveries get that answer and change nothing, and another envelope of
    the sender under the same key is refused and changes nothing. -/
theorem at_most_once (g : Gateway) :
    (∀ env type ds, type = .policyDecision ∨ type = .stateTransition →
      causedBy env type g ds ≤ 1) ∧
    ∀ before d between g', g' = g.deliveries (before ++ d :: between) →
      ((g.deliveries before).deliver d).dedup ≠ (g.deliveries before).dedup →
        ∃ answer, (processMessage (g.deliveries before) d.env d.boundary).1 = .ok answer ∧
          (∀ b, processMessage g' d.env b = (.ok answer, g')) ∧
          ∀ env payload, Legible g' env payload → env.senderId = d.env.senderId →
            env.idempotencyKey = d.env.idempotencyKey →
            envelopeFingerprint env ≠ envelopeFingerprint d.env →
              ∀ b, ∃ reason, processMessage g' env b = (.ok (errorAnswer 400 reason), g') := by
  refine ⟨fun env type ds ht => causedBy_le_one ht, ?_⟩
  rintro before d between _ rfl hne
  rcases deliver_dedup (g.deliveries before) d with hd | ⟨-, ⟨payload, hl⟩, answer, ha, hd⟩
  · exact absurd hd hne
  · obtain ⟨hi, hp⟩ := deliver_setUp (g.deliveries before) d
    have hstored : ((g.deliveries before).deliver d).Answered d.env answer :=
      ⟨⟨payload, hl.congr hi hp⟩, by rw [hd, Dict.get?_set_self]⟩
    rw [deliveries_append]
    exact ⟨answer, ha, (hstored.deliveries between).redelivered⟩

end

section
open Sample
attribute [local instance] Sample.platform

/-- The peer's request for a quote, and another message under its key. -/
def Sample.wired : WireEnvelope := message '1' .quoteRequested

def Sample.rewired : WireEnvelope := message '1' .quoteReceived

/-- The process stops before the answer is stored. -/
def Sample.stopped : Delivery := ⟨wired, boundary, true⟩

def Sample.completed : Delivery := ⟨wired, boundary, false⟩

theorem Sample.legible_rewired : Legible opened rewired (.counterpartyEvent
    { dealId, event := DealEvent.quoteReceived.value }) where
  recipient := rfl
  peer := ⟨peer, rfl, rfl, rfl, rfl, rfl, peer.publicKey,
    b64urlDecode_b64urlEncode (by decide), rfl⟩
  parsed := rfl

theorem Sample.rewired_fingerprint : envelopeFingerprint rewired ≠ envelopeFingerprint wired := by
  intro h
  have hpayload := Option.some.inj (Json.member_inj rewired.nodup_toJson wired.nodup_toJson
    (collisionFree.normalize_eq h) "payload")
  have hevent := Json.normalize_str_inj (Option.some.inj
    (Json.member_inj rewired.payload.nodup wired.payload.nodup hpayload "event"))
  exact absurd hevent (by decide)

/-- The process stops after the commit; the second delivery is answered from
    the ledger, the third from the table, and the other message is refused. -/
theorem at_most_once_stopped :
    ((opened.deliver stopped).store.deals.get? dealId).map Deal.state = some .quoteRequested ∧
      causedBy wired .stateTransition opened [stopped, completed, completed] ≤ 1 ∧
      ∀ g, g = opened.deliveries [stopped, completed, completed] →
        (∃ answer, answer.status = 200 ∧ ∀ b, processMessage g wired b = (.ok answer, g)) ∧
          ∀ b, ∃ reason, processMessage g rewired b = (.ok (errorAnswer 400 reason), g) := by
  obtain ⟨honce, hstored⟩ := at_most_once opened
  refine ⟨by decide +kernel, honce _ _ _ (.inr rfl), fun g hg => ?_⟩
  have hnew : ((opened.deliveries [stopped]).deliver completed).dedup ≠
      (opened.deliveries [stopped]).dedup := by
    intro h
    have hget := congrArg (fun d => (d.get? (wired.senderId, wired.idempotencyKey)).isSome) h
    exact absurd hget (by decide +kernel)
  obtain ⟨answer, hanswer, hagain, hother⟩ := hstored [stopped] completed [completed] g hg hnew
  have hstatus : (processMessage (opened.deliveries [stopped]) completed.env
      completed.boundary).1.toOption.map Answer.status = some 200 := by decide +kernel
  rw [hanswer] at hstatus
  obtain ⟨hi, hp⟩ := deliveries_setUp opened [stopped, completed, completed]
  rw [← hg] at hi hp
  exact ⟨⟨answer, Option.some.inj hstatus, hagain⟩,
    hother rewired _ (legible_rewired.congr hi hp) rfl rfl rewired_fingerprint⟩

end

end Mandate
