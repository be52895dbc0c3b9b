/-
  Dispute bookkeeping: a stored deal has at most one open dispute, and only
  while it is disputed or after it was cancelled out of a dispute
  (`disputes_settled`).

  The counter moves with the events of the transition table, so the invariant
  is checked against each row of it (`DisputesSettled.applyEvent`); every write
  of a deal is a new draft, an event of the table or a change of the approval
  counter.
-/
import Mandate.Policy.Permitted
import Mandate.Postgres.Runs

namespace Mandate

/-- At most one open dispute, and none outside `DISPUTED` and `CANCELLED`. -/
structure DisputesSettled (d : Deal) : Prop where
  nonneg : 0 ≤ d.openDisputes
  le_one : d.openDisputes ≤ 1
  closed : d.state ≠ .disputed → d.state ≠ .cancelled → d.openDisputes = 0

theorem DisputesSettled.of_none {d : Deal} (h : d.openDisputes = 0) : DisputesSettled d :=
  ⟨h.ge, h.le.trans zero_le_one, fun _ _ => h⟩

/-- What the table says about disputes: one is opened from the acceptance
    window only, and each way out of it closes it or cancels the deal. -/
theorem transitions_disputes : ∀ row ∈ transitions, row.1.1 ≠ .cancelled ∧
    (row.1.2 = .disputeOpened → row.1.1 = .acceptanceWindow ∧ row.2 = .disputed) ∧
    (row.1.1 = .disputed → row.1.2 = .accepted ∨ row.1.2 = .refunded ∨
      row.1.2 = .partiallyRefunded ∨ row.1.2 = .cancelled ∧ row.2 = .cancelled) := by
  decide

/-- A transition of the table keeps the disputes settled. -/
theorem DisputesSettled.applyEvent {d : Deal} {e : DealEvent} {t : DealState}
    (ht : transitionFor d.state e = some t) (h : DisputesSettled d) (amt : Option ℤ) :
    DisputesSettled (applyEvent d e t amt) := by
  obtain ⟨hc, ho, hd⟩ := transitions_disputes _ (transitionFor_eq_some.1 ht)
  simp only at hc ho hd
  by_cases hs : d.state = .disputed
  · have hle := h.le_one
    have hn := h.nonneg
    rcases hd hs with rfl | rfl | rfl | ⟨rfl, rfl⟩
    · refine .of_none ?_
      simp only [Mandate.applyEvent, hs, reduceCtorEq, if_false, and_self, if_true]
      omega
    · exact .of_none rfl
    · exact .of_none rfl
    · exact ⟨hn, hle, fun _ hcancelled => absurd rfl hcancelled⟩
  · have hz := h.closed hs hc
    by_cases he : e = .disputeOpened
    · -- the one row that opens a dispute
      subst he
      obtain ⟨-, rfl⟩ := ho rfl
      have hone : (Mandate.applyEvent d .disputeOpened .disputed amt).openDisputes = 1 := by
        simp only [Mandate.applyEvent, hz, if_true]
        rfl
      exact ⟨hone ▸ zero_le_one, hone.le, fun hdisputed _ => absurd rfl hdisputed⟩
    · refine .of_none ?_
      simp only [Mandate.applyEvent, if_neg he, hs, and_false, if_false, hz, ite_self]

theorem DisputesSettled.fresh (dealId : String) : DisputesSettled (.fresh dealId) := .of_none rfl

theorem DisputesSettled.closeApproval {d : Deal} (h : DisputesSettled d) :
    DisputesSettled d.closeApproval := ⟨h.nonneg, h.le_one, h.closed⟩

section
variable [Platform]

/-- A payment is never blocked by a dispute: its states have none open. -/
theorem DisputesSettled.not_blocked {pi : PolicyInput} (h : DisputesSettled pi.deal) :
    (evaluate pi).reasonCode ≠ .paymentBlockedByDispute := by
  obtain ⟨action, hstop⟩ := evaluate_stopped pi
  intro hr
  obtain ⟨hp, hs, ho⟩ := hstop.disputed hr
  have hstates : ∀ a ∈ paymentActions, ∀ s ∈ actionValidStates a, s ≠ .disputed ∧ s ≠ .cancelled := by
    decide
  obtain ⟨hd, hc⟩ := hstates action hp _ hs
  have := h.closed hd hc
  omega

/-! ## Runs -/

/-- All deals of a store. -/
def Store.DisputesSettled (s : Store) : Prop :=
  ∀ id d, s.deals.get? id = some d → Mandate.DisputesSettled d

/-- Every operation keeps the disputes settled. -/
theorem Store.DisputesSettled.run {s : Store} (h : s.DisputesSettled) (op : LedgerOp)
    (signer : GatewaySigner) (ids : EventIds) : (op.run signer ids s).DisputesSettled := by
  intro id d hd
  have hstep := op.dealStep s signer ids id
  generalize op.run signer ids s = s' at hstep hd
  cases hstep with
  | kept op s' hkept he => exact h id d (hkept ▸ hd)
  | created createdAt s' hn hnew he =>
    rw [hnew, Option.some.injEq] at hd
    exact hd ▸ .fresh id
  | requested req deal chain plan hid hdeal hc hp =>
    have hset : (s.afterRequest req chain plan).deals.get? id = some plan.newDeal := by
      rw [← hid]
      exact Dict.get?_set_self ..
    obtain rfl : plan.newDeal = d := Option.some.inj (hset.symm.trans hd)
    cases hp with
    | decided mid did ho => exact h id deal hdeal
    | applied mid did eid token event target ho hv he ht => exact (h id deal hdeal).applyEvent ht _
    | held mid did eid aid approval ho ha =>
      obtain ⟨hn, hle, hz⟩ := h id deal hdeal
      exact ⟨hn, hle, hz⟩
  | transitioned req deal chain target plan hid hdeal hc hn ht hp hs =>
    have hset : (s.afterTransition req chain plan).deals.get? id = some plan.newDeal := by
      rw [← hid]
      exact Dict.get?_set_self ..
    obtain rfl : plan.newDeal = d := Option.some.inj (hset.symm.trans hd)
    cases hp with
    | applied mid eid => exact (h id deal hdeal).applyEvent ht _
  | decided req deal approval row chain token record revoked plan hid hdeal hc ha hs hn hi hp hu ht =>
    have hset : (s.afterApproval req chain plan row).deals.get? id = some plan.newDeal := by
      rw [← hid]
      exact Dict.get?_set_self ..
    obtain rfl : plan.newDeal = d := Option.some.inj (hset.symm.trans hd)
    cases hp with
    | granted aid eid approvalRecord action event target ho har hk hg he ht =>
      exact ((h id deal hdeal).applyEvent ht _).closeApproval
    | denied eid reason hv => exact (h id deal hdeal).closeApproval
  | revoked req deal chain plan hid hdeal hc hp =>
    have hsame : (s.afterRevocation req chain plan).deals.get? id = s.deals.get? id := rfl
    exact h id d (hsame ▸ hd)

/-- The in-memory store under all its operations, decisions on approvals of
    other deals included. -/
def commits (signer : GatewaySigner) : System Store where
  init s := s = .empty
  step s s' := ∃ (op : LedgerOp) (ids : EventIds), s' = op.run signer ids s

theorem disputesSettled_invariant (signer : GatewaySigner) :
    (commits signer).Invariant Store.DisputesSettled where
  init := by rintro _ rfl id d ⟨⟩
  step := by
    rintro s _ - h ⟨op, ids, rfl⟩
    exact h.run op signer ids

namespace Postgres

/-- New deals are drafts. -/
def Txn.Registers : Txn → Prop
  | createDeal deal _ => deal = .fresh deal.dealId
  | _ => True

/-- The Postgres store under all its transactions. -/
def commits [TextForms] (signer : GatewaySigner) : System Tables where
  init t := t = .empty
  step t t' := ∃ c : Txn, c.Registers ∧ t' = (postgres.alone t (c.code signer)).2

theorem disputesSettled_invariant [TextForms] (signer : GatewaySigner) :
    (commits signer).Invariant fun t => t.Sound ∧ t.store.DisputesSettled where
  init := by
    rintro _ rfl
    exact ⟨Tables.sound_empty, by rintro id d ⟨⟩⟩
  step := by
    rintro t _ - ⟨hsound, h⟩ ⟨c, hc, rfl⟩
    have hstep := code_stepped signer hsound c
    refine ⟨hstep.sound hsound, ?_⟩
    generalize postgres.alone t (c.code signer) = r at hstep ⊢
    cases hstep with
    | quiet r t' hr hs hd he ha =>
      intro id d hget
      have hget : t'.deals.get? id = some d := hget
      rw [hd] at hget
      exact h id d hget
    | created deal createdAt heq hn =>
      subst heq
      intro id d hget
      have hget : (t.deals.set deal.dealId deal).get? id = some d := hget
      rw [Dict.get?_set] at hget
      split_ifs at hget with hid
      · cases hget
        rw [show deal = .fresh deal.dealId from hc]
        exact .fresh _
      · exact h id d hget
    | committed op ids hop r t' ho hs hdecided hsame =>
      have hdeals : t'.store.deals = (op.run signer ids t.store).deals := by rw [hsame]
      intro id d hget
      exact h.run op signer ids id d (hdeals ▸ hget)

end Postgres

/-- In every run of either store, each stored deal has at most one open dispute,
    and none outside `DISPUTED` and `CANCELLED`; no decision on it blocks a
    payment by a dispute. -/
theorem disputes_settled [TextForms] (signer : GatewaySigner) (id : String) (d : Deal)
    (h : (∃ s, (commits signer).Reachable s ∧ s.deals.get? id = some d) ∨
      ∃ t, (Postgres.commits signer).Reachable t ∧ t.deals.get? id = some d) :
    (0 ≤ d.openDisputes ∧ d.openDisputes ≤ 1) ∧
    (d.state ≠ .disputed → d.state ≠ .cancelled → d.openDisputes = 0) ∧
    ∀ pi : PolicyInput, pi.deal = d → (evaluate pi).reasonCode ≠ .paymentBlockedByDispute := by
  have hd : DisputesSettled d := by
    rcases h with ⟨s, hs, hget⟩ | ⟨t, ht, hget⟩
    · exact (disputesSettled_invariant signer).holds hs id d hget
    · exact ((Postgres.disputesSettled_invariant signer).holds ht).2 id d hget
  refine ⟨⟨hd.nonneg, hd.le_one⟩, hd.closed, ?_⟩
  rintro pi rfl
  exact hd.not_blocked

end

section
open Sample
attribute [local instance] Sample.platform Sample.textForms

/-- A deal walked along boundary events, each under its own command. -/
def Sample.walked (events : List (DealEvent × Char)) : Store :=
  events.foldl (fun s (event, c) => LedgerOp.run signer ids s
      (.commitTransition { quoteRequested with event, commandId := ulid c }))
    (LedgerOp.run signer ids .empty (.createDeal dealId start.text))

theorem Sample.walked_reachable (system : System Store) (h0 : system.init .empty)
    (hcreate : ∀ s, system.step s (LedgerOp.run signer ids s (.createDeal dealId start.text)))
    (hmove : ∀ s req, system.step s (LedgerOp.run signer ids s (.commitTransition req)))
    (events : List (DealEvent × Char)) : system.Reachable (walked events) := by
  have hstart := (System.Reachable.init h0).step (hcreate .empty)
  unfold walked
  generalize LedgerOp.run signer ids .empty (.createDeal dealId start.text) = s at hstart
  induction events generalizing s with
  | nil => exact hstart
  | cons event events ih => exact ih _ (hstart.step (hmove _ _))

/-- The way to a dispute. -/
def Sample.disputedEvents : List (DealEvent × Char) :=
  [(.quoteRequested, '1'), (.quoteReceived, '2'), (.agreementReached, '3'), (.workStarted, '4'),
    (.completionClaimed, '5'), (.acceptanceWindowOpened, '6'), (.disputeOpened, '7')]

theorem disputes_settled_disputed :
    let d : Deal := { Deal.fresh dealId with state := .disputed, openDisputes := 1 }
    (0 ≤ d.openDisputes ∧ d.openDisputes ≤ 1) ∧
    (d.state ≠ .disputed → d.state ≠ .cancelled → d.openDisputes = 0) ∧
    ∀ pi : PolicyInput, pi.deal = d → (evaluate pi).reasonCode ≠ .paymentBlockedByDispute :=
  disputes_settled signer dealId _ (.inl ⟨_, walked_reachable (commits signer) rfl
    (fun _ => ⟨_, ids, rfl⟩) (fun _ _ => ⟨_, ids, rfl⟩) disputedEvents, by decide +kernel⟩)

end

end Mandate
