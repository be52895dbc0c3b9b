/-
  Runs of calls: proposed actions, and the other operations of the store, with
  a record of what was called.
-/
import Mandate.Application.Services
import Mandate.Ledger.DealSteps

namespace Mandate

variable [Platform]

/-- A call on the service: a proposed action, or another operation. -/
inductive Call where
  | request (pi : PolicyInput) (recordedAt : String)
  | other (op : LedgerOp)

/-- The store after a call. -/
def Call.run (signer : GatewaySigner) (ids : EventIds) (s : Store) : Call → Store
  | request pi recordedAt => (processRequest s pi signer recordedAt ids).2
  | other op => op.run signer ids s

/-- The operation of the store that a call asks for. -/
def Call.op : Call → LedgerOp
  | request pi recordedAt => .commitRequest (pi.commitRequest recordedAt)
  | other op => op

/-- The steps of the calls that `may` be made. -/
def callStep (signer : GatewaySigner) (may : Store → Call → Prop) (s : Store) (c : Call)
    (s' : Store) : Prop :=
  may s c ∧ ∃ ids, s' = c.run signer ids s

theorem Call.dealStep (c : Call) (s : Store) (signer : GatewaySigner) (ids : EventIds)
    (id : String) : DealStep signer id s c.op (c.run signer ids s) := by
  cases c with
  | request pi recordedAt =>
    rcases processRequest_cases s pi signer recordedAt ids with hs | ⟨-, hs⟩
    · rw [Call.run, hs]
      exact .kept _ _ rfl rfl
    · rw [Call.run, hs]
      exact dealStep_commitRequest s _ id
  | other op => exact op.dealStep s signer ids id

theorem Call.approvalsStep (c : Call) (s : Store) (signer : GatewaySigner) (ids : EventIds) :
    ApprovalsStep ids s c.op (c.run signer ids s) := by
  cases c with
  | request pi recordedAt =>
    rcases processRequest_cases s pi signer recordedAt ids with hs | ⟨-, hs⟩
    · rw [Call.run, hs]
      exact .kept _ _ rfl
    · rw [Call.run, hs]
      exact approvalsStep_commitRequest s _
  | other op => exact op.approvalsStep s signer ids

end Mandate
