/-
  Deals: states, events, the transition table, the action vocabulary's place in
  it, and the counter rules.
-/
import Mandate.Domain.Authority

namespace Mandate

inductive DealState where
  | draft | quoteRequested | quoteReceived | negotiating | agreed | inProgress
  | changeRequested | completed | acceptanceWindow | disputed | accepted
  | paymentPending | captured | partiallyRefunded | refunded | cancelled
  | expired | failed
deriving DecidableEq, Repr

def DealState.value : DealState → String
  | draft => "DRAFT"
  | quoteRequested => "QUOTE_REQUESTED"
  | quoteReceived => "QUOTE_RECEIVED"
  | negotiating => "NEGOTIATING"
  | agreed => "AGREED"
  | inProgress => "IN_PROGRESS"
  | changeRequested => "CHANGE_REQUESTED"
  | completed => "COMPLETED"
  | acceptanceWindow => "ACCEPTANCE_WINDOW"
  | disputed => "DISPUTED"
  | accepted => "ACCEPTED"
  | paymentPending => "PAYMENT_PENDING"
  | captured => "CAPTURED"
  | partiallyRefunded => "PARTIALLY_REFUNDED"
  | refunded => "REFUNDED"
  | cancelled => "CANCELLED"
  | expired => "EXPIRED"
  | failed => "FAILED"

instance : StrEnum DealState where
  all := [.draft, .quoteRequested, .quoteReceived, .negotiating, .agreed, .inProgress,
    .changeRequested, .completed, .acceptanceWindow, .disputed, .accepted, .paymentPending,
    .captured, .partiallyRefunded, .refunded, .cancelled, .expired, .failed]
  value := DealState.value
  mem_all s := by cases s <;> decide
  nodup := by decide

inductive DealEvent where
  | quoteRequested | quoteReceived | counteroffered | agreementReached | workStarted
  | changeRequested | changeApproved | changeRejected | completionClaimed
  | acceptanceWindowOpened | accepted | disputeOpened | paymentInitiated
  | paymentConfirmed | paymentFailed | refunded | partiallyRefunded | cancelled
  | expired | resumed
deriving DecidableEq, Repr

def DealEvent.value : DealEvent → String
  | quoteRequested => "quote_requested"
  | quoteReceived => "quote_received"
  | counteroffered => "counteroffered"
  | agreementReached => "agreement_reached"
  | workStarted => "work_started"
  | changeRequested => "change_requested"
  | changeApproved => "change_approved"
  | changeRejected => "change_rejected"
  | completionClaimed => "completion_claimed"
  | acceptanceWindowOpened => "acceptance_window_opened"
  | accepted => "accepted"
  | disputeOpened => "dispute_opened"
  | paymentInitiated => "payment_initiated"
  | paymentConfirmed => "payment_confirmed"
  | paymentFailed => "payment_failed"
  | refunded => "refunded"
  | partiallyRefunded => "partially_refunded"
  | cancelled => "cancelled"
  | expired => "expired"
  | resumed => "resumed"

instance : StrEnum DealEvent where
  all := [.quoteRequested, .quoteReceived, .counteroffered, .agreementReached, .workStarted,
    .changeRequested, .changeApproved, .changeRejected, .completionClaimed,
    .acceptanceWindowOpened, .accepted, .disputeOpened, .paymentInitiated, .paymentConfirmed,
    .paymentFailed, .refunded, .partiallyRefunded, .cancelled, .expired, .resumed]
  value := DealEvent.value
  mem_all e := by cases e <;> decide
  nodup := by decide

/-- An immutable snapshot of a deal. -/
structure Deal where
  dealId : String
  state : DealState
  negotiatedRounds : ℤ := 0
  committedMinor : ℤ := 0
  openDisputes : ℤ := 0
  openApprovals : ℤ := 0
deriving DecidableEq

def Deal.toJson (d : Deal) : Json :=
  .obj [("deal_id", .str d.dealId), ("state", .str d.state.value),
    ("negotiated_rounds", .int d.negotiatedRounds), ("committed_minor", .int d.committedMinor),
    ("open_disputes", .int d.openDisputes), ("open_approvals", .int d.openApprovals)]

/-- The deal after one event: the target state and the counter table. -/
def applyEvent (deal : Deal) (event : DealEvent) (targetState : DealState)
    (amountMinor : Option ℤ) : Deal :=
  { deal with
    state := targetState
    negotiatedRounds :=
      if event = .counteroffered then deal.negotiatedRounds + 1 else deal.negotiatedRounds
    committedMinor :=
      if event = .agreementReached ∨ event = .changeApproved then
        deal.committedMinor + amountMinor.getD 0
      else deal.committedMinor
    openDisputes :=
      if event = .disputeOpened then deal.openDisputes + 1
      else if event = .accepted ∧ deal.state = .disputed then max 0 (deal.openDisputes - 1)
      else if event = .refunded ∨ event = .partiallyRefunded then 0
      else deal.openDisputes }

/-! ## The transition table -/

/-- The table: `((from, event), to)`. -/
def transitions : List ((DealState × DealEvent) × DealState) :=
  [((.draft, .quoteRequested), .quoteRequested),
   ((.quoteRequested, .quoteReceived), .quoteReceived),
   ((.quoteReceived, .counteroffered), .negotiating),
   ((.negotiating, .counteroffered), .negotiating),
   ((.quoteReceived, .agreementReached), .agreed),
   ((.negotiating, .agreementReached), .agreed),
   ((.agreed, .workStarted), .inProgress),
   ((.inProgress, .changeRequested), .changeRequested),
   ((.changeRequested, .changeApproved), .inProgress),
   ((.changeRequested, .changeRejected), .inProgress),
   ((.inProgress, .completionClaimed), .completed),
   ((.completed, .acceptanceWindowOpened), .acceptanceWindow),
   ((.acceptanceWindow, .accepted), .accepted),
   ((.acceptanceWindow, .disputeOpened), .disputed),
   ((.disputed, .accepted), .accepted),
   ((.disputed, .refunded), .refunded),
   ((.disputed, .partiallyRefunded), .partiallyRefunded),
   ((.accepted, .paymentInitiated), .paymentPending),
   ((.paymentPending, .paymentConfirmed), .captured),
   ((.paymentPending, .paymentFailed), .failed),
   ((.failed, .resumed), .paymentPending),
   ((.draft, .expired), .expired),
   ((.quoteRequested, .expired), .expired),
   ((.quoteReceived, .expired), .expired),
   ((.negotiating, .expired), .expired),
   ((.agreed, .expired), .expired),
   ((.draft, .cancelled), .cancelled),
   ((.quoteRequested, .cancelled), .cancelled),
   ((.quoteReceived, .cancelled), .cancelled),
   ((.negotiating, .cancelled), .cancelled),
   ((.agreed, .cancelled), .cancelled),
   ((.inProgress, .cancelled), .cancelled),
   ((.changeRequested, .cancelled), .cancelled),
   ((.completed, .cancelled), .cancelled),
   ((.acceptanceWindow, .cancelled), .cancelled),
   ((.disputed, .cancelled), .cancelled),
   ((.accepted, .cancelled), .cancelled),
   ((.paymentPending, .cancelled), .cancelled)]

/-- The target state, or `none` if the pair is not in the table. -/
def transitionFor (state : DealState) (event : DealEvent) : Option DealState :=
  Dict.getEntries (state, event) transitions

theorem transitionFor_eq_some {s t : DealState} {e : DealEvent} :
    transitionFor s e = some t ↔ ((s, e), t) ∈ transitions :=
  ⟨Dict.mem_of_getEntries _, Dict.getEntries_of_mem _ (by decide)⟩

def terminalStates : List DealState :=
  [.captured, .partiallyRefunded, .refunded, .cancelled, .expired]

def cancelExcluded : List DealState := terminalStates ++ [.failed]

/-- The states an action may be taken from. -/
def actionValidStates : ActionToken → List DealState
  | .requestQuote => [.draft]
  | .counteroffer => [.quoteReceived, .negotiating]
  | .acceptAgreement => [.quoteReceived, .negotiating]
  | .startWork => [.agreed]
  | .proposeChange => [.inProgress]
  | .approveChangeOrder => [.changeRequested]
  | .claimCompletion => [.inProgress]
  | .acceptCompletion => [.acceptanceWindow, .disputed]
  | .openDispute => [.acceptanceWindow]
  | .initiatePayment => [.accepted]
  | .capturePayment => [.paymentPending]
  | .cancelDeal => (StrEnum.all (α := DealState)).filter fun s => s ∉ cancelExcluded
  | .resolveDispute => [.disputed]

/-- The event an action causes; `resolveDispute` is decision-only. -/
def actionEvents : ActionToken → Option DealEvent
  | .requestQuote => some .quoteRequested
  | .counteroffer => some .counteroffered
  | .acceptAgreement => some .agreementReached
  | .startWork => some .workStarted
  | .proposeChange => some .changeRequested
  | .approveChangeOrder => some .changeApproved
  | .claimCompletion => some .completionClaimed
  | .acceptCompletion => some .accepted
  | .openDispute => some .disputeOpened
  | .initiatePayment => some .paymentInitiated
  | .capturePayment => some .paymentConfirmed
  | .cancelDeal => some .cancelled
  | .resolveDispute => none

def negotiationActions : List ActionToken := [.counteroffer]

def paymentActions : List ActionToken := [.initiatePayment, .capturePayment]

/-- The two tables agree: an action's valid states are those its event has a
    transition from. -/
theorem mem_actionValidStates {a : ActionToken} {e : DealEvent} (h : actionEvents a = some e)
    (s : DealState) : s ∈ actionValidStates a ↔ (transitionFor s e).isSome := by
  cases a <;> cases h <;> cases s <;> decide

/-! ## The exceptions of the source -/

/-- What the code raises. -/
inductive PyError where
  | valueError (msg : String)
  | typeError
  | keyError
  | overflowError
  | assertionError
  | noResultFound
  | integrityError
  | dataError
deriving DecidableEq, Repr

/-- The deal after an allowed action.  Raises when the pair is not in the
    table; `resolveDispute` closes one dispute and moves no state. -/
def applyAction (deal : Deal) (action : ActionToken) (amountMinor : Option ℤ) :
    Except PyError Deal := do
  let new ← match actionEvents action with
    | none => pure deal
    | some event =>
      match transitionFor deal.state event with
      | none => throw (.valueError s!"no transition from {deal.state.value} on {event.value}")
      | some target => pure (applyEvent deal event target amountMinor)
  return if action = .resolveDispute then { new with openDisputes := max 0 (new.openDisputes - 1) }
    else new

/-- On an action with an event, `applyAction` is `applyEvent` at the table's
    target. -/
theorem applyAction_event {deal : Deal} {a : ActionToken} {e : DealEvent} {t : DealState}
    (he : actionEvents a = some e) (ht : transitionFor deal.state e = some t) (amt : Option ℤ) :
    applyAction deal a amt = .ok (applyEvent deal e t amt) := by
  have hr : a ≠ .resolveDispute := by rintro rfl; cases he
  simp only [applyAction, he, ht, if_neg hr]
  rfl

@[simp] theorem applyEvent_dealId (d : Deal) (e : DealEvent) (t : DealState) (amt : Option ℤ) :
    (applyEvent d e t amt).dealId = d.dealId := rfl

@[simp] theorem applyEvent_state (d : Deal) (e : DealEvent) (t : DealState) (amt : Option ℤ) :
    (applyEvent d e t amt).state = t := rfl

@[simp] theorem applyEvent_openApprovals (d : Deal) (e : DealEvent) (t : DealState)
    (amt : Option ℤ) : (applyEvent d e t amt).openApprovals = d.openApprovals := rfl

end Mandate
