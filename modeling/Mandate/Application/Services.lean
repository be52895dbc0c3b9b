/-
  The single writer path of requests: anti-replay gate, evaluation,
  transactional commit.

  The gate only reads; its order is idempotency key, request id, nonce.  A
  request either changes nothing or, having passed the gate, is one commit of
  the request built from its input (`processRequest_cases`).
-/
import Mandate.Ledger.Runs
import Mandate.Policy.Engine

namespace Mandate

section
variable [Platform]

/-! ## The anti-replay gate -/

inductive GateOutcome where
  | pass | replay | idempotentHit | conflict
deriving DecidableEq, Repr

/-- The gate's result; `decision` is set only on an idempotent hit. -/
structure GateVerdict where
  outcome : GateOutcome
  detail : String
  decision : Option PolicyDecision := none
deriving DecidableEq

/-- The read side of the seen-request state, which both backends have. -/
structure SeenStore where
  nonceOwner : String → Option String
  seenRequest : String → Bool
  decisionFor : String → Option (String × PolicyDecision)

/-- The seen-request state of the in-memory store. -/
def Store.seen (s : Store) : SeenStore :=
  { nonceOwner := s.nonceOwners.get?
    seenRequest := fun requestId => requestId ∈ s.seenRequests
    decisionFor := s.decisions.get? }

def proposalDigest (pi : PolicyInput) : String := canonicalSha256Hex pi.proposal.toJson

def checkAntiReplay (pi : PolicyInput) (store : SeenStore) : GateVerdict :=
  match store.decisionFor pi.proposal.idempotencyKey with
  | some (storedDigest, storedDecision) =>
    if storedDigest = proposalDigest pi then
      ⟨.idempotentHit, "duplicate_proposal", some storedDecision⟩
    else ⟨.conflict, "idempotency_key_reused_for_different_proposal", none⟩
  | none =>
    if store.seenRequest pi.requestId then ⟨.replay, "request_id_reused", none⟩
    else match store.nonceOwner pi.authority.record.nonce with
      | some owner =>
        if owner ≠ pi.authority.record.recordId then ⟨.replay, "nonce_reused_by_different_record", none⟩
        else ⟨.pass, "first_seen", none⟩
      | none => ⟨.pass, "first_seen", none⟩

/-- A request passes when its key and id are fresh and its nonce is its own. -/
theorem checkAntiReplay_pass {pi : PolicyInput} {store : SeenStore} :
    (checkAntiReplay pi store).outcome = .pass ↔
      store.decisionFor pi.proposal.idempotencyKey = none ∧ store.seenRequest pi.requestId = false ∧
        ∀ owner ∈ store.nonceOwner pi.authority.record.nonce,
          owner = pi.authority.record.recordId := by
  unfold checkAntiReplay
  cases store.decisionFor pi.proposal.idempotencyKey with
  | some stored =>
    simp only [reduceCtorEq, false_and, iff_false]
    split_ifs <;> simp
  | none =>
    cases hr : store.seenRequest pi.requestId with
    | true => simp
    | false =>
      cases ho : store.nonceOwner pi.authority.record.nonce with
      | none => simp
      | some owner => by_cases h : owner = pi.authority.record.recordId <;> simp [h]

/-! ## Processing -/

structure ProcessResult where
  verdict : GateVerdict
  decision : Option PolicyDecision
  commit : Option CommitResult

/-- The commit a request asks for. -/
def PolicyInput.commitRequest (pi : PolicyInput) (recordedAt : String) : CommitRequest :=
  { dealId := pi.deal.dealId
    requestId := pi.requestId
    decision := evaluate pi
    actorKind := pi.actor.kind
    actorId := pi.actor.id
    authorityRecordId := pi.authority.record.recordId
    action := pi.proposal.action
    amountMinor := pi.proposal.amount
    occurredAt := pi.now.text
    recordedAt
    idempotencyKey := pi.proposal.idempotencyKey
    proposalDigest := proposalDigest pi
    record := pi.authority.record
    content := pi.content.bind fun claims =>
      pi.proposal.contentSha256.map fun digest => ⟨digest, claims⟩
    declaredFields := pi.proposal.disclosureFields }

/-- Evaluate one proposed action and commit its outcome.  A commit that lost
    its claims to a rival is answered by the gate again. -/
def processRequest (s : Store) (pi : PolicyInput) (signer : GatewaySigner) (recordedAt : String)
    (ids : EventIds) : Except PyError ProcessResult × Store :=
  let verdict := checkAntiReplay pi s.seen
  match verdict.outcome with
  | .idempotentHit => (.ok ⟨verdict, verdict.decision, none⟩, s)
  | .replay | .conflict => (.ok ⟨verdict, none, none⟩, s)
  | .pass =>
    match s.commitRequest (pi.commitRequest recordedAt) signer ids with
    | (.error e, s') => (.error e, s')
    | (.ok commit, s') =>
      if commit.outcome = .alreadyApplied then
        let verdict := checkAntiReplay pi s'.seen
        (.ok ⟨verdict, verdict.decision, none⟩, s')
      else (.ok ⟨verdict, some (evaluate pi), some commit⟩, s')

/-- Past the gate, the store is what the commit leaves. -/
theorem processRequest_pass {s : Store} {pi : PolicyInput} {signer : GatewaySigner}
    {recordedAt : String} {ids : EventIds} (h : (checkAntiReplay pi s.seen).outcome = .pass) :
    (processRequest s pi signer recordedAt ids).2 =
      (s.commitRequest (pi.commitRequest recordedAt) signer ids).2 := by
  simp only [processRequest, h]
  obtain ⟨r, s'⟩ := s.commitRequest (pi.commitRequest recordedAt) signer ids
  cases r with
  | error e => rfl
  | ok commit => simp only; split_ifs <;> rfl

/-- The store after a request: as it was, or after one commit past the gate. -/
theorem processRequest_cases (s : Store) (pi : PolicyInput) (signer : GatewaySigner)
    (recordedAt : String) (ids : EventIds) :
    (processRequest s pi signer recordedAt ids).2 = s ∨
      (checkAntiReplay pi s.seen).outcome = .pass ∧
        (processRequest s pi signer recordedAt ids).2 =
          (s.commitRequest (pi.commitRequest recordedAt) signer ids).2 := by
  cases h : (checkAntiReplay pi s.seen).outcome with
  | pass => exact .inr ⟨rfl, processRequest_pass h⟩
  | idempotentHit => exact .inl (by simp only [processRequest, h])
  | replay => exact .inl (by simp only [processRequest, h])
  | conflict => exact .inl (by simp only [processRequest, h])

theorem processRequest_commit {s : Store} {pi : PolicyInput} {signer : GatewaySigner}
    {recordedAt : String} {ids : EventIds} {verdict : GateVerdict}
    {decision : Option PolicyDecision} {commit : CommitResult}
    (h : (processRequest s pi signer recordedAt ids).1 = .ok ⟨verdict, decision, some commit⟩) :
    (checkAntiReplay pi s.seen).outcome = .pass ∧ decision = some (evaluate pi) ∧
      s.commitRequest (pi.commitRequest recordedAt) signer ids =
        (.ok commit, (processRequest s pi signer recordedAt ids).2) := by
  unfold processRequest at h ⊢
  cases hg : (checkAntiReplay pi s.seen).outcome with
  | idempotentHit => simp only [hg] at h; cases h
  | replay => simp only [hg] at h; cases h
  | conflict => simp only [hg] at h; cases h
  | pass =>
    simp only [hg] at h ⊢
    generalize s.commitRequest (pi.commitRequest recordedAt) signer ids = r at h ⊢
    obtain ⟨r, s'⟩ := r
    cases r with
    | error e => cases h
    | ok c =>
      simp only at h ⊢
      split_ifs at h ⊢ with ho
      · cases h
      · cases h
        exact ⟨trivial, rfl, rfl⟩

/-- Past the gate, the result is the evaluation and the commit. -/
theorem processRequest_result {s : Store} {pi : PolicyInput} {signer : GatewaySigner}
    {recordedAt : String} {ids : EventIds} {result : ProcessResult}
    (hg : (checkAntiReplay pi s.seen).outcome = .pass)
    (h : (processRequest s pi signer recordedAt ids).1 = .ok result) :
    ∃ commit, result = ⟨checkAntiReplay pi s.seen, some (evaluate pi), some commit⟩ ∧
      (s.commitRequest (pi.commitRequest recordedAt) signer ids).1 = .ok commit := by
  unfold processRequest at h
  simp only [hg] at h
  have hnot : ∀ commit, (s.commitRequest (pi.commitRequest recordedAt) signer ids).1 =
      .ok commit → commit.outcome ≠ .alreadyApplied :=
    fun _ => Store.commitRequest_not_alreadyApplied
  generalize s.commitRequest (pi.commitRequest recordedAt) signer ids = r at h hnot ⊢
  obtain ⟨_ | commit, s'⟩ := r
  · cases h
  · simp only [if_neg (hnot commit rfl), Except.ok.injEq] at h
    exact ⟨commit, h.symm, rfl⟩

/-- Past the gate, a committed plan is the result. -/
theorem processRequest_committed {s s' : Store} {pi : PolicyInput} {signer : GatewaySigner}
    {recordedAt : String} {ids : EventIds} {plan : CommitPlan}
    (hg : (checkAntiReplay pi s.seen).outcome = .pass)
    (h : s.commitRequest (pi.commitRequest recordedAt) signer ids =
      (.ok (Store.committed plan), s')) :
    processRequest s pi signer recordedAt ids =
      (.ok ⟨checkAntiReplay pi s.seen, some (evaluate pi), some (Store.committed plan)⟩, s') := by
  have hne : (Store.committed plan).outcome ≠ .alreadyApplied := by simp [Store.committed]
  simp only [processRequest, hg, h, if_neg hne]

@[simp] theorem PolicyInput.commitRequest_decision (pi : PolicyInput) (recordedAt : String) :
    (pi.commitRequest recordedAt).decision = evaluate pi := rfl

/-! ## Runs -/

/-- An operation that is no request commit. -/
def LedgerOp.Other : LedgerOp → Prop
  | commitRequest _ => False
  | _ => True

/-- One step of the service: a processed request, or another operation that
    `may` run. -/
inductive ServiceStep (signer : GatewaySigner) (may : Store → LedgerOp → Prop) (s : Store) :
    Store → Prop
  | request (pi : PolicyInput) (recordedAt : String) (ids : EventIds) :
      ServiceStep signer may s (processRequest s pi signer recordedAt ids).2
  | other (op : LedgerOp) (ids : EventIds) (ho : op.Other) (hm : may s op) :
      ServiceStep signer may s (op.run signer ids s)

/-- The store under processed requests and the operations that `may` run. -/
def service (signer : GatewaySigner) (may : Store → LedgerOp → Prop) : System Store where
  init s := s = .empty
  step := ServiceStep signer may

end

/-! ## A worked run -/

section
open Sample
attribute [local instance] Sample.platform

/-- The agent's proposal `n` of an action on a snapshot of the deal. -/
def Sample.input (deal : Deal) (action : ActionToken) (amountMinor : Option ℕ) (n : Char) :
    PolicyInput :=
  { schemaVersion := "0.1"
    requestId := ulid n
    now
    actor := ⟨.agent, ulid 'A'⟩
    authority := { record, signatureValid := true, delegationChain := [], status := .active }
    counterparty := ⟨none⟩
    deal
    proposal := {
      action := action.value, dealId, amountMinor, currency := "EUR"
      idempotencyKey := String.ofList ['k', n] } }

/-- A store with one registered deal. -/
def Sample.registered : Store := LedgerOp.run signer ids .empty (.createDeal dealId start.text)

theorem Sample.registered_reachable (may : Store → LedgerOp → Prop)
    (h : may .empty (.createDeal dealId start.text)) : (service signer may).Reachable registered :=
  .step (.init rfl) (.other (.createDeal dealId start.text) ids trivial h)

/-- A store whose deal has a quote. -/
def Sample.offered : Store :=
  LedgerOp.run signer ids (LedgerOp.run signer ids registered (.commitTransition quoteRequested))
    (.commitTransition { quoteRequested with event := .quoteReceived, commandId := ulid 'E' })

theorem Sample.offered_reachable : (service signer fun _ _ => True).Reachable offered :=
  .step (.step (registered_reachable _ trivial)
    (.other (.commitTransition quoteRequested) ids trivial trivial))
    (.other (.commitTransition _) ids trivial trivial)

end

end Mandate
