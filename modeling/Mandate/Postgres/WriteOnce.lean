/-
  Authority records are write-once in the tables, and not in memory.

  The record table never changes a row, in any interleaving.  The in-memory
  store puts a record over one with the same id: by `put_record`, and as a part
  of every committed request, also of a denied one (`forged_record_replaces`).
  In a run without such a replacement, and in no other, what `get_record` has
  returned it returns from then on (`records_write_once`).
-/
import Mandate.Application.Calls
import Mandate.Postgres.Atomicity

namespace Mandate

section
variable [Platform]

namespace Postgres

/-- The transaction's operation on the in-memory store. -/
def Txn.run (signer : GatewaySigner) (s : Store) : Txn → Store
  | createDeal deal createdAt => (s.createDeal deal createdAt).2
  | linkDealRecord dealId recordId => (s.linkDealRecord dealId recordId).2
  | putRecord record => s.putRecord record
  | putRevocation revocation => s.putRevocation revocation
  | submit pi recordedAt ids => (processRequest s pi signer recordedAt ids).2
  | commitRequest req ids => (s.commitRequest req signer ids).2
  | commitTransition req ids => (s.commitTransition req signer ids).2
  | commitApproval req ids => (s.commitApproval req signer ids).2
  | commitRevocation req ids => (s.commitRevocation req signer ids).2

end Postgres

/-- The request's deal is stored and lets it through, and its events can be
    planned. -/
def CommitRequest.Accepted (signer : GatewaySigner) (ids : EventIds) (s : Store)
    (req : CommitRequest) : Prop :=
  ∃ deal event chain plan, s.deals.get? req.dealId = some deal ∧
    planTransition deal req.action req.decision.outcome = .ok event ∧
    s.events.get? req.dealId = some chain ∧
    planCommitRequest signer deal chain.length (lastHash chain genesisHash) req event ids = .ok plan

namespace Postgres

/-- The operation stores the record. -/
def Txn.Stores (signer : GatewaySigner) (s : Store) : Txn → AuthorityRecord → Prop
  | putRecord record', record => record' = record
  | submit pi recordedAt ids, record => pi.authority.record = record ∧
      (checkAntiReplay pi s.seen).outcome = .pass ∧
      (pi.commitRequest recordedAt).Accepted signer ids s
  | commitRequest req ids, record => req.record = record ∧ req.Accepted signer ids s
  | _, _ => False

/-- The operation stores a record over another one. -/
def Txn.Replaces (signer : GatewaySigner) (s : Store) (c : Txn) : Prop :=
  ∃ record stored, c.Stores signer s record ∧ s.records.get? record.recordId = some stored ∧
    stored ≠ record

variable {signer : GatewaySigner} {ids : EventIds} {s : Store}

/-! ## In memory -/

theorem records_of_accepted {req : CommitRequest} (h : req.Accepted signer ids s) :
    (s.commitRequest req signer ids).2.records = s.records.set req.record.recordId req.record := by
  obtain ⟨deal, event, chain, plan, hd, ht, hc, hp⟩ := h
  simp only [Store.commitRequest, hd, ht, hc, hp]
  rfl

theorem commitRequest_of_not_accepted {req : CommitRequest} (h : ¬ req.Accepted signer ids s) :
    (s.commitRequest req signer ids).2 = s := by
  rcases s.commitRequest_planned req signer ids with hs | ⟨deal, event, chain, plan, hd, hc, ht, hp, -⟩
  · exact hs
  · exact absurd ⟨deal, event, chain, plan, hd, ht, hc, hp⟩ h

variable (signer) in
/-- What an operation does to the records. -/
theorem records_run (s : Store) (c : Txn) :
    ((∀ record, ¬ c.Stores signer s record) ∧ (c.run signer s).records = s.records) ∨
      ∃ record, c.Stores signer s record ∧
        (∀ record', c.Stores signer s record' → record' = record) ∧
        (c.run signer s).records = s.records.set record.recordId record := by
  cases c with
  | createDeal deal createdAt =>
    refine .inl ⟨fun _ => id, ?_⟩
    simp only [Txn.run, Store.createDeal]
    split_ifs <;> rfl
  | linkDealRecord dealId recordId =>
    obtain ⟨links, hl⟩ := s.linkDealRecord_store dealId recordId
    refine .inl ⟨fun _ => id, ?_⟩
    rw [Txn.run, hl]
  | putRecord record => exact .inr ⟨record, rfl, fun _ h => h.symm, rfl⟩
  | putRevocation revocation => exact .inl ⟨fun _ => id, rfl⟩
  | submit pi recordedAt ids =>
    by_cases h : (checkAntiReplay pi s.seen).outcome = .pass ∧
        (pi.commitRequest recordedAt).Accepted signer ids s
    · obtain ⟨hpass, ha⟩ := h
      refine .inr ⟨pi.authority.record, ⟨rfl, hpass, ha⟩, fun _ h => h.1.symm, ?_⟩
      rw [Txn.run, processRequest_pass hpass, records_of_accepted ha]
      rfl
    · refine .inl ⟨fun _ hs => h hs.2, ?_⟩
      rcases processRequest_cases s pi signer recordedAt ids with hs | ⟨hpass, hs⟩
      · rw [Txn.run, hs]
      · rw [Txn.run, hs, commitRequest_of_not_accepted fun ha => h ⟨hpass, ha⟩]
  | commitRequest req ids =>
    by_cases ha : req.Accepted signer ids s
    · exact .inr ⟨req.record, ⟨rfl, ha⟩, fun _ h => h.1.symm, records_of_accepted ha⟩
    · refine .inl ⟨fun _ hs => ha hs.2, ?_⟩
      rw [Txn.run, commitRequest_of_not_accepted ha]
  | commitTransition req ids =>
    refine .inl ⟨fun _ => id, ?_⟩
    have hcases := s.commitTransition_cases req signer ids
    rw [Txn.run]
    generalize s.commitTransition req signer ids = r at hcases ⊢
    cases hcases <;> rfl
  | commitApproval req ids =>
    refine .inl ⟨fun _ => id, ?_⟩
    have hcases := s.commitApproval_cases req signer ids
    rw [Txn.run]
    generalize s.commitApproval req signer ids = r at hcases ⊢
    cases hcases <;> rfl
  | commitRevocation req ids =>
    refine .inl ⟨fun _ => id, ?_⟩
    have hcases := s.commitRevocation_cases req signer ids
    rw [Txn.run]
    generalize s.commitRevocation req signer ids = r at hcases ⊢
    cases hcases <;> rfl

variable (signer) in
/-- An operation keeps every record unless it replaces one. -/
theorem records_le_run (s : Store) (c : Txn) :
    s.records.Le (c.run signer s).records ↔ ¬ c.Replaces signer s := by
  rcases records_run signer s c with ⟨hnone, hs⟩ | ⟨record, hst, honly, hs⟩
  · rw [hs]
    refine ⟨fun _ ⟨record, _, h, _⟩ => hnone record h, fun _ => .refl _⟩
  · rw [hs, Dict.le_set]
    constructor
    · rintro h ⟨record', stored, hst', hget, hne⟩
      obtain rfl := honly record' hst'
      exact hne (h stored hget)
    · intro h old ho
      by_contra hne
      exact h ⟨record, old, hst, ho, hne⟩

/-- The in-memory store after some operations. -/
def runs (signer : GatewaySigner) (s : Store) (cs : List Txn) : Store :=
  cs.foldl (Txn.run signer) s

theorem records_le_runs {cs : List Txn} (h : ∀ before c after, cs = before ++ c :: after →
    ¬ c.Replaces signer (runs signer s before)) : s.records.Le (runs signer s cs).records := by
  induction cs generalizing s with
  | nil => exact .refl _
  | cons c cs ih =>
    have hc := (records_le_run signer s c).2 (h [] c cs rfl)
    refine hc.trans (ih fun before c' after heq => ?_)
    exact h (c :: before) c' after (by rw [heq]; rfl)

/-! ## In the tables -/

omit [Platform] in
/-- A stored record is kept by writes that do not take its key. -/
theorem record_view {id : String} {record : AuthorityRecord} {w : List Write} : ∀ {t : Tables},
    t.authorityRecords.get? id = some record → (∀ e ∈ w, .record id ∉ e.keys) →
      (postgres.view t w).authorityRecords.get? id = some record := by
  induction w with
  | nil => exact fun h _ => h
  | cons e w ih =>
    intro t h hw
    rw [Database.view_cons]
    refine ih ?_ fun e' he' => hw e' (List.mem_cons_of_mem _ he')
    have he := hw e (by simp)
    cases e with
    | record r =>
      have hne : id ≠ r.recordId := fun hid => he (by simp [Write.keys, hid])
      exact (Dict.get?_set_ne _ _ hne).trans h
    | updateDeal =>
      simp only [postgres_apply, Tables.apply]
      split_ifs <;> exact h
    | updateApproval =>
      simp only [postgres_apply, Tables.apply]
      split_ifs <;> exact h
    | _ => exact h

/-- No step of an interleaving changes a stored record. -/
theorem records_le_steps [TextForms] {begins : Txn → Prop}
    {may : Tables → Database.Session Query.Answer Write PyError (Option CommitResult) Txn → Prop}
    {t : Tables} {σ σ' : _} (h : (interleavings signer begins may t).Reachable σ)
    (hs : Relation.ReflTransGen (interleavings signer begins may t).step σ σ') :
    σ.committed.authorityRecords.Le σ'.committed.authorityRecords := by
  induction hs with
  | refl => exact .refl _
  | tail hs hstep ih =>
    refine ih.trans ?_
    have hreach := h.trans hs
    cases hstep with
    | commit i x a hx hp =>
      intro id record hr
      refine record_view hr fun e he hk => ?_
      -- a row that is written is new
      have hfree := ((Database.exclusive_invariant _ _ _ _ _ _).holds hreach).fresh i x hx e he
      have hconflict : postgres.conflicts _ e = true :=
        postgres_conflicts.2 ⟨_, hk, Option.isSome_iff_exists.2 ⟨record, hr⟩⟩
      rw [hfree] at hconflict
      cases hconflict
    | _ => exact .refl _

end Postgres

/-- In the tables, no step of any interleaving changes a stored record.  In
    memory, a run keeps every stored record exactly when no operation of it
    stores another record under the id. -/
theorem records_write_once [TextForms] (signer : GatewaySigner) :
    (∀ begins may t σ σ', (interleavings signer begins may t).Reachable σ →
      Relation.ReflTransGen (interleavings signer begins may t).step σ σ' →
        σ.committed.authorityRecords.Le σ'.committed.authorityRecords) ∧
      ∀ (s : Store) (cs : List Postgres.Txn),
        (∀ before between after, cs = before ++ between ++ after →
          (Postgres.runs signer s before).records.Le
            (Postgres.runs signer s (before ++ between)).records) ↔
        ∀ before c after, cs = before ++ c :: after →
          ¬ c.Replaces signer (Postgres.runs signer s before) := by
  refine ⟨fun begins may t σ σ' h hs => Postgres.records_le_steps h hs, fun s cs => ?_⟩
  have hruns : ∀ before after, Postgres.runs signer s (before ++ after) =
      Postgres.runs signer (Postgres.runs signer s before) after := fun before after =>
    List.foldl_append ..
  constructor
  · intro h before c after heq
    have hle := h before [c] after (by rw [heq, List.append_assoc]; rfl)
    rw [hruns] at hle
    exact (Postgres.records_le_run _ _ c).1 hle
  · intro h before between after heq
    rw [hruns]
    refine Postgres.records_le_runs fun before' c after' hb => ?_
    rw [← hruns]
    exact h (before ++ before') c (after' ++ after) (by rw [heq, hb]; simp)

end

/-! ## A forged record -/

section
open Sample
attribute [local instance] Sample.platform Sample.textForms

/-- The sample mandate with a larger cap, under its old signature. -/
def Sample.forged : AuthorityRecord := { record with spendCap := ⟨"EUR", 100000000⟩ }

/-- A request for a quote under the forged mandate. -/
def Sample.askedForged : PolicyInput :=
  { input (.fresh dealId) .requestQuote none '1' with
    authority := ⟨forged, false, [], .active⟩
    contentNeedsDigest := digest_of_noContent }

/-- A registered deal and the signed mandate. -/
def Sample.setUp : List Postgres.Txn :=
  [.createDeal (.fresh dealId) start.text, .putRecord record]

/-- The request is denied, and raises the cap of the stored mandate. -/
theorem forged_record_replaces :
    (evaluate askedForged).outcome = .deny ∧ askedForged.authority.signatureValid = false ∧
      (Postgres.runs signer .empty setUp).records.get? record.recordId = some record ∧
      ((Postgres.runs signer .empty (setUp ++ [.submit askedForged now.text ids])).records.get?
        record.recordId).map AuthorityRecord.spendCap = some ⟨"EUR", 100000000⟩ ∧
      ¬ (Postgres.runs signer .empty setUp).records.Le
        (Postgres.runs signer .empty (setUp ++ [.submit askedForged now.text ids])).records := by
  have hstored : (Postgres.runs signer .empty setUp).records.get? record.recordId = some record :=
    Dict.get?_set_self ..
  have hraised : ((Postgres.runs signer .empty
      (setUp ++ [.submit askedForged now.text ids])).records.get? record.recordId).map
        AuthorityRecord.spendCap = some ⟨"EUR", 100000000⟩ := by decide +kernel
  refine ⟨by decide +kernel, rfl, hstored, hraised, fun h => ?_⟩
  rw [h _ _ hstored] at hraised
  exact absurd hraised (by decide)

end

end Mandate
