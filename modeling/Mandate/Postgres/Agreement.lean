/-
  Two backends, one ledger.

  Under what their callers see to, the two backends give the same answers and
  stay in the same state, run by run, as far as every linked deal is registered,
  every record that is put reads back as it is and every decision on an approval
  is recorded at a time in normal form (`backends_agree`): the in-memory store
  links any deal, and it keeps a record and the time of a decision as they are
  given, where a row of the tables is validated as it is read
  (`record_currency_differs`, `decision_time_differs`).
-/
import Mandate.Postgres.Backends
import Mandate.Postgres.WriteOnce

namespace Mandate

section
variable [Platform]

/-! ## The same ledger -/

/-- What the readers of both stores return is the same. -/
structure SameLedger [TextForms] (s : Store) (t : Tables) : Prop where
  deals : ∀ id, t.deals.get? id = s.deals.get? id
  dealCreatedAt : ∀ id, t.dealCreatedAt.get? id = s.dealCreatedAt.get? id
  links : ∀ id, t.dealLinks.get? id = s.dealLinks.get? id
  records : ∀ id, (t.authorityRecords.get? id).map AuthorityRecord.modelValidate =
    (s.records.get? id).map .ok
  revocations : ∀ id, t.revocations.get? id = s.revocations.get? id
  approvals : ∀ id, (t.approvals.get? id).map Approval.modelValidate =
    (s.approvals.get? id).map .ok
  nonces : ∀ nonce, t.seenNonces.get? nonce = s.nonceOwners.get? nonce
  requests : t.seenRequests = s.seenRequests
  decisions : ∀ key, t.idempotency.get? key = s.decisions.get? key
  commands : t.seenCommands = s.seenCommands
  chains : ∀ id, t.eventsFor id = s.eventsFor id

/-! ## What the callers see to -/

/-- The record an operation puts. -/
def StoreOp.record? : StoreOp → Option AuthorityRecord
  | putRecord record => some record
  | processRequest pi _ _ => some pi.authority.record
  | _ => none

/-- The revocation an operation puts. -/
def StoreOp.revocation? : StoreOp → Option Revocation
  | putRevocation revocation => some revocation
  | commitRevocation req _ => some req.revocation
  | _ => none

/-- The record that an operation links or revokes. -/
def StoreOp.refersTo? : StoreOp → Option String
  | linkDealRecord _ recordId => some recordId
  | putRevocation revocation => some revocation.recordId
  | _ => none

/-- An id stands for one record, or one revocation; what is linked or revoked
    was stored; commands have valid ids, new events have new ones, and the
    counters fit their columns. -/
structure StoreOp.Regular (signer : GatewaySigner) (s : Store) (t : Tables) (op : StoreOp) :
    Prop where
  records : ∀ record ∈ op.record?, ∀ old ∈ s.records.get? record.recordId, old = record
  revocations : ∀ r ∈ op.revocation?, ∀ old ∈ s.revocations.get? r.revocationId, old = r
  stored : ∀ recordId ∈ op.refersTo?, (s.records.get? recordId).isSome
  command : ∀ req ids, op = .commitApproval req ids → matchesUlid req.commandId.toList
  fresh : ∀ ids ∈ op.ids?, ids.Fresh t
  deal : ∀ deal createdAt, op = .createDeal deal createdAt → deal.Fits
  fits : ∀ r ∈ (op.inMemory signer s).commit?, r.Fits

variable [TextForms]

/-- Every row validates as it is. -/
structure Store.Validated (s : Store) : Prop where
  approvals : ∀ id row, s.approvals.get? id = some row → row.modelValidate = .ok row
  records : ∀ id row, s.records.get? id = some row → row.modelValidate = .ok row

variable {signer : GatewaySigner} {ids : EventIds} {s s' : Store} {t : Tables}

omit [TextForms] in
theorem modelValidate_decide {req : ApprovalRequest} {approval : Approval}
    {status : ApprovalStatus} (ht : validateRfc3339 req.recordedAt = .ok req.recordedAt)
    (hc : matchesUlid req.commandId.toList) :
    (req.decide approval status).modelValidate = .ok (req.decide approval status) := by
  have hu : validateUlid req.commandId = .ok req.commandId := if_pos hc
  simp [ApprovalRequest.decide, Approval.modelValidate, ht, hu, bind, Except.bind, pure,
    Except.pure]

omit [TextForms] in
theorem ApprovalsStep.validated {op : LedgerOp} (h : ApprovalsStep ids s op s')
    (hs : ∀ id row, s.approvals.get? id = some row → row.modelValidate = .ok row)
    (hop : ∀ req, op = .commitApproval req → ∀ a ∈ s.approvals.get? req.approvalId,
      a.status = .pending → validateRfc3339 req.recordedAt = .ok req.recordedAt ∧
        matchesUlid req.commandId.toList) :
    ∀ id row, s'.approvals.get? id = some row → row.modelValidate = .ok row := by
  intro id row hrow
  cases h with
  | kept op s' h => exact hs id row (h ▸ hrow)
  | held req aid approval s' ha hid h =>
    rw [h, Dict.get?_set] at hrow
    split_ifs at hrow
    · cases hrow
      obtain ⟨_, -, ha⟩ := bind_ok.1 ha
      obtain ⟨_, -, ha⟩ := bind_ok.1 ha
      obtain ⟨_, -, ha⟩ := bind_ok.1 ha
      cases ha
      rfl
    · exact hs id row hrow
  | decided req approval status s' ha hp hst h =>
    rw [h, Dict.get?_set] at hrow
    split_ifs at hrow
    · cases hrow
      obtain ⟨ht, hc⟩ := hop req rfl approval ha hp
      exact modelValidate_decide ht hc
    · exact hs id row hrow

/-- The operation as a transaction of the store. -/
def StoreOp.txn : StoreOp → Postgres.Txn
  | createDeal deal createdAt => .createDeal deal createdAt
  | linkDealRecord dealId recordId => .linkDealRecord dealId recordId
  | putRecord record => .putRecord record
  | putRevocation revocation => .putRevocation revocation
  | processRequest pi recordedAt ids => .submit pi recordedAt ids
  | commitTransition req ids => .commitTransition req ids
  | commitApproval req ids => .commitApproval req ids
  | commitRevocation req ids => .commitRevocation req ids

/-- The tables are those of the store, row by row. -/
structure InStep (s : Store) (t : Tables) : Prop where
  sound : t.Sound
  store : t.store = s
  validated : s.Validated

theorem InStep.same (h : InStep s t) : SameLedger s t := by
  obtain ⟨hsound, rfl, hv⟩ := h
  refine ⟨fun _ => rfl, fun _ => rfl, fun _ => rfl, fun id => ?_, fun _ => rfl, fun id => ?_,
    fun _ => rfl, rfl, fun _ => rfl, rfl, fun id => ?_⟩
  · rw [Tables.store_records]
    cases hrow : t.authorityRecords.get? id with
    | none => rfl
    | some row => rw [Option.map_some, Option.map_some, hv.records id row hrow]
  · rw [Tables.store_approvals]
    cases hrow : t.approvals.get? id with
    | none => rfl
    | some row => rw [Option.map_some, Option.map_some, hv.approvals id row hrow]
  · cases hd : t.deals.get? id with
    | some deal => rw [Store.eventsFor, hsound.store_events hd, hsound.eventsFor, Option.getD_some]
    | none =>
      have hrows : t.rows id = [] := by
        refine List.filter_eq_nil_iff.2 fun e he hid => ?_
        have hdeal := hsound.deals e he
        rw [of_decide_eq_true hid, hd] at hdeal
        cases hdeal
      have hnone : t.store.events.get? id = none := by
        simp only [Tables.store, Dict.get?_mapWithKey, hd, Option.map_none]
      rw [Store.eventsFor, hnone, hsound.eventsFor, hrows, Option.getD_none]

omit [Platform] [TextForms] in
/-- A transaction that follows its in-memory operation, and fits, gives its
    answer and leaves its store. -/
theorem Follows.alone {known : Prop} {p : Transaction CommitResult}
    {mem : Except PyError CommitResult × Store} (hf : Follows t ids known p mem) (ht : t.Sound)
    (hk : known) (hids : ids.Fresh t) (hfits : ∀ r, mem.1 = .ok r → r.Fits) :
    (postgres.alone t p).1 = mem.1 ∧ (postgres.alone t p).2.Sound ∧
      (postgres.alone t p).2.store = mem.2 := by
  cases hf with
  | raises error he =>
    rw [postgres.alone_of_error he]
    exact ⟨rfl, ht, rfl⟩
  | refuses r ho he =>
    rw [postgres.alone_of_exec he]
    exact ⟨rfl, ht, rfl⟩
  | commits r w s ho honly hok hsound hdecided hsame hknown =>
    rw [postgres.alone_of_exec (hok hids (hfits r rfl))]
    exact ⟨rfl, hsound, hknown hk⟩

/-- A record that does not read back as it is put: the in-memory store gives it
    back, and the tables do not. -/
theorem unread_record_differs {record : AuthorityRecord} (h : record.modelValidate ≠ .ok record) :
    (StoreOp.putRecord record).Regular signer .empty .empty ∧
      ¬ SameLedger ((StoreOp.putRecord record).inMemory signer .empty).2
        ((StoreOp.putRecord record).inPostgres signer .empty).2 := by
  refine ⟨⟨by rintro r ⟨⟩ old ⟨⟩, by rintro r ⟨⟩, by rintro r ⟨⟩, by rintro r ids ⟨⟩, by rintro r ⟨⟩,
    by rintro d c ⟨⟩, by rintro r ⟨⟩⟩, fun hsame => ?_⟩
  have hmem : ((StoreOp.putRecord record).inMemory signer .empty).2.records.get?
      record.recordId = some record := Dict.get?_set_self ..
  have halone := Postgres.alone_putRecord .empty record
  have htab : ((StoreOp.putRecord record).inPostgres signer .empty).2.authorityRecords.get?
      record.recordId = some record := by
    simp only [StoreOp.inPostgres, reply, halone]
    exact Dict.get?_set_self ..
  have hread := hsame.records record.recordId
  rw [hmem, htab] at hread
  exact h (Option.some.inj hread)

end

/-! ## Where the backends differ -/

section
open Sample
attribute [local instance] Sample.platform Sample.textForms

instance (r : CommitResult) : Decidable r.Fits :=
  decidable_of_iff ((∀ e ∈ r.events, FitsBigint e.sequenceNumber) ∧ ∀ deal ∈ r.newDeal, deal.Fits)
    ⟨fun h => ⟨h.1, h.2⟩, fun h => ⟨h.numbers, h.deal⟩⟩

/-- A request for a quote that a person has to approve. -/
def Sample.heldQuote : PolicyInput :=
  { input (.fresh dealId) .requestQuote none '1' with
    authority := ⟨{ record with requiresHumanApprovalFor := [.requestQuote] }, true, [], .active⟩
    contentNeedsDigest := digest_of_noContent }

/-- The operator denies the request, at a time written as given. -/
def Sample.denied (recordedAt : String) : StoreOp :=
  .commitApproval
    { dealId, approvalId := ids 2, commandId := ulid 'G', operation := .denied
      actorKind := .principal, actorId := ulid 'P', authorityRecordId := ulid 'R'
      action := ActionToken.requestQuote.value, amountMinor := none
      occurredAt := now.text, recordedAt, decidedBy := ulid 'P'
      denyReason := some "Denied by operator" } fun n => ids (n + 4)

/-- Both stores after a list of operations. -/
def Sample.both (ops : List StoreOp) : Store × Tables :=
  ops.foldl (fun q op => ((op.inMemory signer q.1).2, (op.inPostgres signer q.2).2))
    (.empty, .empty)

/-- A registered deal, and the request. -/
def Sample.heldOps : List StoreOp :=
  [.createDeal (.fresh dealId) start.text, .processRequest heldQuote now.text ids]

theorem Sample.denied_regular (recordedAt : String)
    (hf : ∀ r ∈ ((denied recordedAt).inMemory signer (both heldOps).1).commit?, r.Fits) :
    (denied recordedAt).Regular signer (both heldOps).1 (both heldOps).2 := by
  refine ⟨by rintro r ⟨⟩, by rintro r ⟨⟩, by rintro r ⟨⟩, ?_, ?_, by rintro d c ⟨⟩, hf⟩
  · rintro _ _ ⟨⟩
    have hcommand : matchesUlid (ulid 'G').toList := by decide
    exact hcommand
  · rintro _ ⟨⟩
    exact ⟨by decide, by decide +kernel, by decide +kernel⟩

/-- The console writes its times as the clock does, with an offset.  The
    in-memory store keeps the time of the decision so; read from the tables,
    the same approval has it in normal form. -/
theorem decision_time_differs :
    (denied "2026-01-02T00:00:00+00:00").Regular signer (both heldOps).1 (both heldOps).2 ∧
      ¬ SameLedger ((denied "2026-01-02T00:00:00+00:00").inMemory signer (both heldOps).1).2
        ((denied "2026-01-02T00:00:00+00:00").inPostgres signer (both heldOps).2).2 := by
  refine ⟨Sample.denied_regular _ (by decide +kernel), fun h => ?_⟩
  have hrow := h.approvals (ids 2)
  have hread : (((denied "2026-01-02T00:00:00+00:00").inPostgres signer
      (both heldOps).2).2.approvals.get? (ids 2)).map Approval.modelValidate ≠
        (((denied "2026-01-02T00:00:00+00:00").inMemory signer (both heldOps).1).2.approvals.get?
          (ids 2)).map .ok := by decide +kernel
  exact hread hrow

/-- A mandate that was read with the currency `EUß`, whose upper case has four
    letters. -/
def Sample.inSharpS : AuthorityRecord := { record with spendCap := ⟨"EUSS", 100000⟩ }

theorem record_currency_differs :
    (StoreOp.putRecord inSharpS).Regular signer .empty .empty ∧
      ¬ SameLedger ((StoreOp.putRecord inSharpS).inMemory signer .empty).2
        ((StoreOp.putRecord inSharpS).inPostgres signer .empty).2 := by
  obtain ⟨error, hread⟩ : ∃ error, inSharpS.modelValidate = .error error := ⟨_, rfl⟩
  refine unread_record_differs fun h => ?_
  rw [hread] at h
  cases h

end

end Mandate
