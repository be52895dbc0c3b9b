/-
  The database schema: tables, the statements on them, their keys and columns.

  `postgres` is the schema as a `Database`: primary keys and the unique
  constraint on a deal's sequence numbers, foreign keys, column ranges, and the
  rows an `UPDATE` locks.  A table keeps the columns that some statement reads.
-/
import Mandate.Lib.Serializable
import Mandate.Ledger.Store

namespace Mandate

/-- The rows of each table, by primary key; events by insertion. -/
structure Tables where
  deals : Dict String Deal
  dealCreatedAt : Dict String String
  dealLinks : Dict String String
  events : List Event
  authorityRecords : Dict String AuthorityRecord
  revocations : Dict String Revocation
  approvals : Dict String Approval
  seenNonces : Dict String String
  seenRequests : Finset String
  idempotency : Dict String (String × PolicyDecision)
  seenCommands : Finset String

/-- The `SELECT` statements. -/
inductive Query where
  | deal (dealId : String)
  | dealLink (dealId : String)
  | nonceOwner (nonce : String)
  | seenRequest (requestId : String)
  | decision (idempotencyKey : String)
  | command (commandId : String)
  | approval (approvalId : String)
  | record (recordId : String)
  | revocations (recordId : String)
  | chainHead (dealId : String)

/-- What a `SELECT` answers. -/
@[reducible] def Query.Answer : Query → Type
  | .deal _ => Option Deal
  | .dealLink _ => Option String
  | .nonceOwner _ => Option String
  | .seenRequest _ => Bool
  | .decision _ => Option (String × PolicyDecision)
  | .command _ => Bool
  | .approval _ => Option Approval
  | .record _ => Option AuthorityRecord
  | .revocations _ => List Revocation
  | .chainHead _ => ℕ × String

/-- The `INSERT` and `UPDATE` statements. -/
inductive Write where
  | deal (deal : Deal) (createdAt : String)
  | updateDeal (dealId : String) (newDeal : Deal)
  | dealLink (dealId recordId : String)
  | record (record : AuthorityRecord)
  | revocation (revocation : Revocation)
  | nonce (nonce recordId : String)
  | request (requestId : String)
  | idempotency (idempotencyKey proposalDigest : String) (decision : PolicyDecision)
  | command (commandId : String)
  | event (event : Event)
  | approval (approval : Approval)
  | updateApproval (approvalId : String) (approval : Approval)

/-- Unique keys. -/
inductive Key where
  | deal (dealId : String)
  | dealLink (dealId : String)
  | record (recordId : String)
  | revocation (revocationId : String)
  | nonce (nonce : String)
  | request (requestId : String)
  | idempotency (idempotencyKey : String)
  | command (commandId : String)
  | eventId (eventId : String)
  | sequence (dealId : String) (sequenceNumber : ℕ)
  | approval (approvalId : String)
deriving DecidableEq

/-- The event with the highest sequence number. -/
def lastRow : List Event → Option Event
  | [] => none
  | e :: es =>
    match lastRow es with
    | some e' => if e.sequenceNumber ≤ e'.sequenceNumber then some e' else some e
    | none => some e

namespace Tables

def empty : Tables :=
  { deals := .empty, dealCreatedAt := .empty, dealLinks := .empty, events := []
    authorityRecords := .empty, revocations := .empty, approvals := .empty
    seenNonces := .empty, seenRequests := ∅, idempotency := .empty, seenCommands := ∅ }

/-- The event rows of a deal. -/
def rows (t : Tables) (dealId : String) : List Event := t.events.filter fun e => e.dealId = dealId

/-- The chain of a deal, by sequence number. -/
def eventsFor (t : Tables) (dealId : String) : List Event :=
  (t.rows dealId).mergeSort fun e e' => e.sequenceNumber ≤ e'.sequenceNumber

/-- The next sequence number and the previous event hash of a deal's chain. -/
def chainHead (t : Tables) (dealId : String) : ℕ × String :=
  match lastRow (t.rows dealId) with
  | none => (0, genesisHash)
  | some head => (head.sequenceNumber + 1, head.eventHash)

def ask (t : Tables) : (q : Query) → q.Answer
  | .deal dealId => t.deals.get? dealId
  | .dealLink dealId => t.dealLinks.get? dealId
  | .nonceOwner nonce => t.seenNonces.get? nonce
  | .seenRequest requestId => decide (requestId ∈ t.seenRequests)
  | .decision idempotencyKey => t.idempotency.get? idempotencyKey
  | .command commandId => decide (commandId ∈ t.seenCommands)
  | .approval approvalId => t.approvals.get? approvalId
  | .record recordId => t.authorityRecords.get? recordId
  | .revocations recordId => t.revocations.values.filter fun r => r.recordId = recordId
  | .chainHead dealId => t.chainHead dealId

/-- The tables after a statement; an `UPDATE` of a missing row does nothing. -/
def apply (t : Tables) : Write → Tables
  | .deal deal createdAt => { t with
      deals := t.deals.set deal.dealId deal
      dealCreatedAt := t.dealCreatedAt.set deal.dealId createdAt }
  | .updateDeal dealId newDeal =>
    if (t.deals.get? dealId).isSome then { t with deals := t.deals.set dealId newDeal } else t
  | .dealLink dealId recordId => { t with dealLinks := t.dealLinks.set dealId recordId }
  | .record record => { t with
      authorityRecords := t.authorityRecords.set record.recordId record }
  | .revocation revocation => { t with
      revocations := t.revocations.set revocation.revocationId revocation }
  | .nonce nonce recordId => { t with seenNonces := t.seenNonces.set nonce recordId }
  | .request requestId => { t with seenRequests := insert requestId t.seenRequests }
  | .idempotency idempotencyKey proposalDigest decision => { t with
      idempotency := t.idempotency.set idempotencyKey (proposalDigest, decision) }
  | .command commandId => { t with seenCommands := insert commandId t.seenCommands }
  | .event event => { t with events := t.events ++ [event] }
  | .approval approval => { t with
      approvals := t.approvals.set approval.approvalId approval }
  | .updateApproval approvalId approval =>
    if (t.approvals.get? approvalId).isSome then
      { t with approvals := t.approvals.set approvalId approval }
    else t

/-- Some row has the key. -/
def Taken (t : Tables) : Key → Prop
  | .deal dealId => (t.deals.get? dealId).isSome
  | .dealLink dealId => (t.dealLinks.get? dealId).isSome
  | .record recordId => (t.authorityRecords.get? recordId).isSome
  | .revocation revocationId => (t.revocations.get? revocationId).isSome
  | .nonce nonce => (t.seenNonces.get? nonce).isSome
  | .request requestId => requestId ∈ t.seenRequests
  | .idempotency idempotencyKey => (t.idempotency.get? idempotencyKey).isSome
  | .command commandId => commandId ∈ t.seenCommands
  | .eventId eventId => ∃ e ∈ t.events, e.eventId = eventId
  | .sequence dealId n => ∃ e ∈ t.events, e.dealId = dealId ∧ e.sequenceNumber = n
  | .approval approvalId => (t.approvals.get? approvalId).isSome

instance (t : Tables) : DecidablePred t.Taken
  | .deal _ | .dealLink _ | .record _ | .revocation _ | .nonce _ | .idempotency _ | .approval _ =>
    inferInstanceAs (Decidable (_ = true))
  | .request _ | .command _ => inferInstanceAs (Decidable (_ ∈ _))
  | .eventId _ | .sequence _ _ => inferInstanceAs (Decidable (∃ e ∈ _, _))

end Tables

/-- The primary keys, and the unique constraint of the event chain. -/
def Write.keys : Write → List Key
  | .deal d _ => [.deal d.dealId]
  | .dealLink dealId _ => [.dealLink dealId]
  | .record r => [.record r.recordId]
  | .revocation r => [.revocation r.revocationId]
  | .nonce n _ => [.nonce n]
  | .request requestId => [.request requestId]
  | .idempotency idempotencyKey _ _ => [.idempotency idempotencyKey]
  | .command commandId => [.command commandId]
  | .event e => [.eventId e.eventId, .sequence e.dealId e.sequenceNumber]
  | .approval a => [.approval a.approvalId]
  | .updateDeal _ _ | .updateApproval _ _ => []

/-- The foreign keys. -/
def Write.needs : Write → List Key
  | .dealLink dealId recordId => [.deal dealId, .record recordId]
  | .revocation r => [.record r.recordId]
  | .event e => [.deal e.dealId]
  | .approval a => [.deal a.dealId]
  | _ => []

/-- A new row locks its keys, an update its row. -/
def Write.locks (e : Write) : List Key :=
  e.keys ++ match e with
    | .updateDeal dealId _ => [.deal dealId]
    | .updateApproval approvalId _ => [.approval approvalId]
    | _ => []

/-- `INTEGER` and `BIGINT` columns. -/
def FitsInteger (n : ℤ) : Prop := -2 ^ 31 ≤ n ∧ n < 2 ^ 31

def FitsBigint (n : ℤ) : Prop := -2 ^ 63 ≤ n ∧ n < 2 ^ 63

instance (n : ℤ) : Decidable (FitsInteger n) := inferInstanceAs (Decidable (_ ∧ _))

instance (n : ℤ) : Decidable (FitsBigint n) := inferInstanceAs (Decidable (_ ∧ _))

/-- The counters of a deal fit their columns. -/
structure Deal.Fits (deal : Deal) : Prop where
  negotiatedRounds : FitsInteger deal.negotiatedRounds
  committedMinor : FitsBigint deal.committedMinor
  openDisputes : FitsInteger deal.openDisputes
  openApprovals : FitsInteger deal.openApprovals

theorem Deal.fits_iff (deal : Deal) : deal.Fits ↔ FitsInteger deal.negotiatedRounds ∧
    FitsBigint deal.committedMinor ∧ FitsInteger deal.openDisputes ∧
      FitsInteger deal.openApprovals :=
  ⟨fun h => ⟨h.1, h.2, h.3, h.4⟩, fun h => ⟨h.1, h.2.1, h.2.2.1, h.2.2.2⟩⟩

instance (deal : Deal) : Decidable deal.Fits := decidable_of_iff' _ deal.fits_iff

def Write.fits : Write → Bool
  | .deal d _ => decide d.Fits
  | .updateDeal _ d => decide d.Fits
  | .event e => decide (FitsBigint e.sequenceNumber)
  | _ => true

/-- A new row takes its keys, and no row goes away. -/
theorem Tables.taken_apply (t : Tables) (e : Write) (k : Key) :
    (t.apply e).Taken k ↔ t.Taken k ∨ k ∈ e.keys := by
  have hset : ∀ {α : Type} (d : Dict String α) (i j : String) (v : α),
      ((d.set i v).get? j).isSome ↔ (d.get? j).isSome ∨ j = i := by
    intro α d i j v
    rw [Dict.get?_set]
    by_cases h : j = i
    · simp [h]
    · simp [h]
  have hkeep : ∀ {α : Type} (d : Dict String α) (i j : String) (v : α), (d.get? i).isSome →
      (((d.set i v).get? j).isSome ↔ (d.get? j).isSome) := by
    intro α d i j v hi
    rw [hset]
    exact ⟨fun h => h.elim id fun h => h ▸ hi, .inl⟩
  cases e with
  | updateDeal dealId newDeal =>
    simp only [apply, Write.keys, List.not_mem_nil, or_false]
    split_ifs with h
    · cases k <;> simp only [Taken, hkeep _ _ _ _ h]
    · rfl
  | updateApproval approvalId approval =>
    simp only [apply, Write.keys, List.not_mem_nil, or_false]
    split_ifs with h
    · cases k <;> simp only [Taken, hkeep _ _ _ _ h]
    · rfl
  | event event =>
    cases k <;> simp only [apply, Taken, Write.keys, List.mem_append, List.mem_cons, or_and_right,
      exists_or, exists_eq_left', List.not_mem_nil, or_false, Key.eventId.injEq,
      Key.sequence.injEq, reduceCtorEq, false_or, eq_comm]
  | _ =>
    cases k <;> simp only [apply, Taken, Write.keys, hset, List.mem_singleton, Finset.mem_insert,
      or_comm, Key.deal.injEq, Key.dealLink.injEq, Key.record.injEq, Key.revocation.injEq,
      Key.nonce.injEq, Key.request.injEq, Key.idempotency.injEq, Key.command.injEq,
      Key.approval.injEq, reduceCtorEq, false_or]

/-- The ledger's database. -/
def postgres : Database Tables Query.Answer Write Key PyError where
  ask := Tables.ask
  apply := Tables.apply
  keys := Write.keys
  needs := Write.needs
  locks := Write.locks
  fits := Write.fits
  taken t k := decide (t.Taken k)
  duplicate := .integrityError
  missing := .integrityError
  outOfRange := .dataError
  keys_locks e := List.subset_append_left ..
  taken_apply t e k := by simpa only [decide_eq_true_eq] using t.taken_apply e k

@[simp] theorem postgres_ask (t : Tables) (q : Query) : postgres.ask t q = t.ask q := rfl

@[simp] theorem postgres_apply (t : Tables) (e : Write) : postgres.apply t e = t.apply e := rfl

@[simp] theorem postgres_taken (t : Tables) (k : Key) :
    postgres.taken t k = decide (t.Taken k) := rfl

@[simp] theorem postgres_keys (e : Write) : postgres.keys e = e.keys := rfl

@[simp] theorem postgres_needs (e : Write) : postgres.needs e = e.needs := rfl

@[simp] theorem postgres_fits (e : Write) : postgres.fits e = e.fits := rfl

theorem postgres_conflicts {t : Tables} {e : Write} :
    postgres.conflicts t e ↔ ∃ k ∈ e.keys, t.Taken k := by
  simp only [Database.conflicts_iff, postgres_taken, postgres_keys, decide_eq_true_eq]

/-! ## What a list of writes does -/

theorem mem_events_view {e : Event} {w : List Write} : ∀ {t : Tables},
    e ∈ (postgres.view t w).events ↔ e ∈ t.events ∨ .event e ∈ w := by
  induction w with
  | nil => simp
  | cons e' w ih =>
    intro t
    rw [Database.view_cons, ih]
    cases e' with
    | event e' => simp [Tables.apply, or_assoc]
    | updateDeal =>
      simp only [postgres_apply, Tables.apply, List.mem_cons, reduceCtorEq, false_or]
      split_ifs <;> rfl
    | updateApproval =>
      simp only [postgres_apply, Tables.apply, List.mem_cons, reduceCtorEq, false_or]
      split_ifs <;> rfl
    | _ => simp [Tables.apply]

theorem idempotency_view {key digest : String} {decision : PolicyDecision} {w : List Write} :
    ∀ {t : Tables}, (postgres.view t w).idempotency.get? key = some (digest, decision) →
      t.idempotency.get? key = some (digest, decision) ∨ .idempotency key digest decision ∈ w := by
  induction w with
  | nil => exact .inl
  | cons e w ih =>
    intro t h
    rw [Database.view_cons] at h
    refine (ih h).elim (fun h => ?_) fun h => .inr (List.mem_cons_of_mem _ h)
    cases e with
    | idempotency key' digest' decision' =>
      simp only [postgres_apply, Tables.apply, Dict.get?_set] at h
      split_ifs at h with hk
      · obtain ⟨rfl, rfl⟩ := h
        exact .inr (by simp [hk])
      · exact .inl h
    | updateDeal =>
      simp only [postgres_apply, Tables.apply] at h
      split_ifs at h
      · exact .inl h
      · exact .inl h
    | updateApproval =>
      simp only [postgres_apply, Tables.apply] at h
      split_ifs at h
      · exact .inl h
      · exact .inl h
    | _ => exact .inl h

theorem Tables.mem_eventsFor {t : Tables} {dealId : String} {e : Event} :
    e ∈ t.eventsFor dealId ↔ e ∈ t.events ∧ e.dealId = dealId := by
  simp only [eventsFor, rows, List.mem_mergeSort, List.mem_filter, decide_eq_true_eq]

end Mandate
