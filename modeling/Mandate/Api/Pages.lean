/-
  What the console shows: its pages as data, and the sentences for an operator.

  Every reason code has a sentence of its own, so a decision page tells which
  reason was given (`reasonSentence_inj`).
-/
import Mandate.Domain.Approvals

namespace Mandate

/-! ## Phrasing -/

def reasonSentences : List (ReasonCode × String) :=
  [(.ok, "Authorized. The action is within the mandate and the deal moved forward."),
   (.unknownSchemaVersion,
    "This mandate uses a format the console does not understand, so it was not acted on."),
   (.missingField,
    "The request was missing a required piece of information, so it could not be evaluated."),
   (.invalidSignatureClaim,
    "The mandate's signature could not be verified, so it carries no authority."),
   (.recordRevoked, "This mandate has been revoked, so it no longer authorizes anything."),
   (.recordExpired, "This mandate has expired and no longer authorizes the action."),
   (.notYetValid, "This mandate is not in force yet, so it cannot authorize the action."),
   (.delegationChainBroken,
    "A link in this mandate's chain of authority is invalid, so its scope cannot be trusted."),
   (.audienceMismatch,
    "This mandate was issued for a different counterparty than the one in play."),
   (.replayDetected, "This exact request was already handled; the original decision stands."),
   (.actionProhibited, "The mandate explicitly forbids this action."),
   (.actionNotAllowed, "The mandate does not allow this action."),
   (.unknownAction, "This is not a recognized action type."),
   (.invalidTransition, "The deal is not in a state where this action can happen right now."),
   (.disclosureNotAllowed, "The mandate does not permit exposing the requested field."),
   (.spendCapExceeded, "This would take the deal over its spend limit, so a person must approve " ++
    "the extra amount first."),
   (.negotiationLimitReached, "The mandate's limit on negotiation rounds has been reached."),
   (.approvalRequired,
    "The mandate requires a person to approve this action before it can proceed."),
   (.paymentBlockedByDispute, "Payment is blocked because a dispute is still open."),
   (.paymentBlockedByOpenApproval,
    "Payment is blocked because an approval is still waiting on a person."),
   (.currencyMismatch,
    "The proposed amount is in a different currency than the mandate's spend limit."),
   (.disclosureDetected, "The content screen found the message would reveal something the " ++
    "mandate does not permit exposing, so it was not sent."),
   (.contentReviewRequired, "The content screen suspects the message reveals something the " ++
    "mandate does not permit; a person must read it before it goes out."),
   (.hostileContentSuspected, "The content screen suspects the message contains injected " ++
    "instructions or a claim of authority; a person must read it first."),
   (.contentScreenUnavailable, "The content screen could not check this message, so a person " ++
    "must read it before it goes out.")]

/-- The sentence for a reason code; one without a sentence shows its name. -/
def reasonSentence (reasonCode : ReasonCode) : String :=
  (reasonSentences.lookup reasonCode).getD s!"(unexplained reason: {reasonCode.value})"

def outcomeLabels : List (Outcome × String) :=
  [(.allow, "Allowed"), (.deny, "Denied"), (.needsApproval, "Needs a person's approval")]

def outcomeLabel (outcome : Outcome) : String := (outcomeLabels.lookup outcome).getD outcome.value

/-- No two reasons share a sentence. -/
theorem reasonSentence_inj : Function.Injective reasonSentence := by
  intro a b h
  have hall : ((StrEnum.all (α := ReasonCode)).map reasonSentence).Nodup := by decide +kernel
  exact List.inj_on_of_nodup_map hall (StrEnum.mem_all a) (StrEnum.mem_all b) h

theorem outcomeLabel_inj : Function.Injective outcomeLabel := by
  intro a b h
  have hall : ((StrEnum.all (α := Outcome)).map outcomeLabel).Nodup := by decide +kernel
  exact List.inj_on_of_nodup_map hall (StrEnum.mem_all a) (StrEnum.mem_all b) h

/-! ## Pages -/

/-- What the deal page shows about one screened message. -/
structure ScreenBadge where
  screener : String
  available : Bool
  detected : List String
  hostilityPct : ℕ
  persuasionPct : ℕ
  urgency : Fin 4
  urgencyLabel : String
deriving DecidableEq

/-- A pending approval and its badge, if any. -/
structure ApprovalRow where
  approval : Approval
  screen : Option ScreenBadge
deriving DecidableEq

/-- One deal on the home page. -/
structure DealRow where
  id : String
  state : String
  committedMinor : ℤ
  mandateState : String
  openApprovals : ℕ
deriving DecidableEq

/-- One event of the timeline; the payload is shown as it is. -/
structure TimelineRow where
  seq : ℕ
  type : String
  actor : String
  actorId : String
  occurredAt : String
  payload : List (String × Json)

/-- The page after an operator's action. -/
structure DecisionPage where
  dealId : String
  action : String
  amountMinor : Option ℕ := none
  currency : Option String := none
  outcome : String
  sentence : String
  originalOutcome : Option String := none
  originalReason : Option String := none
  currentState : String
deriving DecidableEq

inductive Page where
  | login (error : Option String)
  | home (deals : List DealRow)
  | deal (dealId : String) (deal : Deal) (mandateState : String) (approvals : List ApprovalRow)
      (boundaryEvents : List String) (screeningOn : Bool)
  | timeline (dealId dealState : String) (events : List TimelineRow)
  | propose (dealId dealState currency : String) (actions disclosureFields : List String)
      (screeningOn : Bool) (error : Option String)
  | decision (shown : DecisionPage)

def urgencyLabels : Fin 4 → String
  | 0 => "no time pressure"
  | 1 => "soon"
  | 2 => "today"
  | 3 => "emergency"

/-- The badge of the screen's claims: integers of the screen and field names
    only. -/
def screenBadge (claims : ContentClaims) : ScreenBadge :=
  { screener := claims.screener
    available := claims.available
    detected := claims.detected.map fun d => s!"{d.field} ({d.confidenceBp.val / 100}%)"
    hostilityPct := claims.hostilityBp.val / 100
    persuasionPct := claims.persuasionBp.val / 100
    urgency := claims.urgencyLevel
    urgencyLabel := urgencyLabels claims.urgencyLevel }

/-- The key the approvals of a deal page are sorted by. -/
def ApprovalRow.urgency (r : ApprovalRow) : ℕ := (r.screen.map fun b => b.urgency.val).getD 0

/-- The most urgent first; the sort is stable. -/
def byUrgency (rows : List ApprovalRow) : List ApprovalRow :=
  rows.insertionSort fun a b => b.urgency ≤ a.urgency

end Mandate
