/-
  Runs of the transactions of the Postgres store, one after another.

  A transaction that runs alone changes no deal, chain or approval, creates a
  deal, or commits what the in-memory operation commits on the store of the
  tables (`Postgres.Stepped`).  So in every run the deal rows are the replays of
  their chains (`Tables.Written.faithful`).
-/
import Mandate.Ledger.DealSteps
import Mandate.Ledger.Replay
import Mandate.Postgres.Refinement

namespace Mandate

variable [Platform]

namespace Postgres

/-- The commit a transaction asks for, as an operation of the in-memory store. -/
def Txn.commit? : Txn → Option (LedgerOp × EventIds)
  | submit pi recordedAt ids => some (.commitRequest (pi.commitRequest recordedAt), ids)
  | commitRequest req ids => some (.commitRequest req, ids)
  | commitTransition req ids => some (.commitTransition req, ids)
  | commitApproval req ids => some (.commitApproval req, ids)
  | commitRevocation req ids => some (.commitRevocation req, ids)
  | _ => none

/-- What a transaction that runs alone does to deals, chains and approvals. -/
inductive Stepped (signer : GatewaySigner) (t : Tables) (c : Txn) :
    Except PyError (Option CommitResult) × Tables → Prop
  | quiet (r : Except PyError (Option CommitResult)) (t' : Tables)
      (hr : ∀ a, r = .ok a → ¬ applied a) (hs : t'.Sound) (hd : t'.deals = t.deals)
      (he : t'.events = t.events) (ha : t'.approvals = t.approvals) : Stepped signer t c (r, t')
  | created (deal : Deal) (createdAt : String) (hc : c = .createDeal deal createdAt)
      (hn : t.deals.get? deal.dealId = none) : Stepped signer t c (.ok none, { t with
        deals := t.deals.set deal.dealId deal
        dealCreatedAt := t.dealCreatedAt.set deal.dealId createdAt })
  | committed (op : LedgerOp) (ids : EventIds) (hc : c.commit? = some (op, ids)) (r : CommitResult)
      (t' : Tables) (ho : r.outcome = .committed) (hs : t'.Sound)
      (hdecided : t'.store.Decides t.store)
      (hsame : t'.store = { op.run signer ids t.store with
        records := t'.authorityRecords, revocations := t'.revocations }) :
      Stepped signer t c (.ok (some r), t')

variable {t : Tables} {signer : GatewaySigner} {ids : EventIds}

/-- A request whose key, id or nonce is taken changes no more than its claims. -/
theorem exec_taken {req : CommitRequest} (hfree : ¬ req.Free t) {r : CommitResult} {w : List Write}
    (he : postgres.exec t (commitRequest req signer ids) [] = .ok (r, w)) :
    r.outcome ≠ .committed ∧ ∃ idempotency seenRequests,
      postgres.view t w = { t with idempotency, seenRequests } := by
  rw [exec_commitRequest] at he
  cases hd : t.deals.get? req.dealId with
  | none =>
    simp only [hd] at he
    cases he
    exact ⟨by simp, _, _, rfl⟩
  | some deal =>
    simp only [hd] at he
    cases ht : planTransition deal req.action req.decision.outcome with
    | error abort =>
      simp only [ht] at he
      cases he
      exact ⟨by simp, _, _, rfl⟩
    | ok event =>
      simp only [ht] at he
      split_ifs at he with hk hr
      · cases he
        exact ⟨by simp, _, _, rfl⟩
      · cases he
        exact ⟨by simp, _, _, rfl⟩
      · -- so another record has the nonce
        have hclash : req.Clashes t := by
          by_contra hc
          exact hfree ⟨Option.not_isSome_iff_eq_none.1 hk, hc⟩
        obtain ⟨owner, ho, hne⟩ := hclash.resolve_left hr
        rw [exec_claimNonce _ _ rfl, ho] at he
        simp only [if_pos hne] at he
        cases he
        exact ⟨by simp, _, _, rfl⟩

/-- A commit that follows its in-memory operation steps so. -/
theorem stepped_of_follows {c : Txn} {op : LedgerOp} {p : Transaction CommitResult} {known : Prop}
    {mem : Except PyError CommitResult × Store} (h : t.Sound)
    (hf : Follows t ids known p mem) (hc : c.commit? = some (op, ids))
    (hmem : mem.2 = op.run signer ids t.store) :
    Stepped signer t c (postgres.alone t (p.map some)) := by
  rw [Database.alone_map]
  cases hf with
  | raises error he =>
    rw [postgres.alone_of_error he]
    exact .quiet _ _ (by rintro a ⟨⟩) h rfl rfl rfl
  | refuses r ho he =>
    rw [postgres.alone_of_exec he]
    exact .quiet _ _ (by rintro a ⟨⟩; simpa [applied] using ho) h rfl rfl rfl
  | commits r w s ho honly hok hsound hdecided hsame hknown =>
    cases he : postgres.exec t p [] with
    | error error =>
      rw [postgres.alone_of_error he]
      exact .quiet _ _ (by rintro a ⟨⟩) h rfl rfl rfl
    | ok x =>
      obtain rfl := honly x he
      rw [postgres.alone_of_exec he]
      cases hmem
      refine .committed op ids hc r _ ho hsound ?_ hsame
      have hdec := hdecided ⟨_, he⟩
      intro id a hid hp
      rw [hsame]
      exact hdec id a hid hp

theorem stepped_of_unwritten {c : Txn} (h : t.Sound) {p : Transaction (Option CommitResult)}
    (he : ∀ r w, postgres.exec t p [] = .ok (r, w) → w = [] ∧ ¬ applied r) :
    Stepped signer t c (postgres.alone t p) := by
  cases hr : postgres.exec t p [] with
  | error error =>
    rw [postgres.alone_of_error hr]
    exact .quiet _ _ (by rintro a ⟨⟩) h rfl rfl rfl
  | ok x =>
    obtain ⟨r, w⟩ := x
    obtain ⟨rfl, ha⟩ := he r w hr
    rw [postgres.alone_of_exec hr]
    exact .quiet _ _ (by rintro a ⟨⟩; exact ha) h rfl rfl rfl

theorem commitRequest_stepped (h : t.Sound) (req : CommitRequest) {c : Txn}
    (hc : c.commit? = some (.commitRequest req, ids)) :
    Stepped signer t c (postgres.alone t ((commitRequest req signer ids).map some)) := by
  by_cases hfree : req.Free t
  · exact stepped_of_follows h (commitRequest_follows h req hfree) hc rfl
  · rw [Database.alone_map]
    cases he : postgres.exec t (commitRequest req signer ids) [] with
    | error error =>
      rw [postgres.alone_of_error he]
      exact .quiet _ _ (by rintro a ⟨⟩) h rfl rfl rfl
    | ok x =>
      obtain ⟨r, w⟩ := x
      obtain ⟨ho, idempotency, seenRequests, hw⟩ := exec_taken hfree he
      rw [postgres.alone_of_exec he, hw]
      exact .quiet _ _ (by rintro a ⟨⟩; simpa [applied] using ho) (h.congr rfl (fun _ => id) rfl)
        rfl rfl rfl

theorem commitApproval_stepped [TextForms] (h : t.Sound) (req : ApprovalRequest) {c : Txn}
    (hc : c.commit? = some (.commitApproval req, ids)) :
    Stepped signer t c (postgres.alone t ((commitApproval req signer ids).map some)) := by
  by_cases hread : Readable t req
  · exact stepped_of_follows h (commitApproval_follows h req hread) hc rfl
  · refine stepped_of_unwritten h fun r w he => ?_
    rw [Database.exec_map] at he
    cases hx : postgres.exec t (commitApproval req signer ids) [] with
    | error e =>
      rw [hx] at he
      cases he
    | ok x =>
      obtain ⟨hw, ho⟩ := exec_unreadable hread hx
      rw [hx] at he
      cases he
      exact ⟨hw, by simpa [applied] using ho⟩

/-- The gate of a request, on tables that stay as they are. -/
theorem exec_gate {α : Type} (pi : PolicyInput) (k : GateVerdict → Transaction α) :
    postgres.exec t (gate pi k) [] = postgres.exec t (k (checkAntiReplay pi t.seen)) [] := by
  rw [gate, Database.exec_select]
  simp only [Database.view_nil, postgres_ask, Tables.ask]
  cases hk : t.idempotency.get? pi.proposal.idempotencyKey with
  | some stored =>
    have hseen : checkAntiReplay pi t.seen =
        checkAntiReplay pi ⟨fun _ => none, fun _ => false, fun _ => some stored⟩ := by
      simp only [checkAntiReplay, Tables.seen, hk]
    rw [hseen]
  | none =>
    simp only
    rw [Database.exec_select]
    simp only [Database.view_nil, postgres_ask, Tables.ask]
    by_cases hr : pi.requestId ∈ t.seenRequests
    · have hseen : checkAntiReplay pi t.seen =
          checkAntiReplay pi ⟨fun _ => none, fun _ => true, fun _ => none⟩ := by
        simp only [checkAntiReplay, Tables.seen, hk, decide_eq_true hr, if_true]
      rw [hseen]
      simp only [decide_eq_true hr, if_true]
    · have hseen : checkAntiReplay pi t.seen = checkAntiReplay pi
          ⟨fun _ => t.seenNonces.get? pi.authority.record.nonce, fun _ => false, fun _ => none⟩ := by
        simp only [checkAntiReplay, Tables.seen, hk, decide_eq_false hr]
      rw [hseen]
      simp only [decide_eq_false hr, Bool.false_eq_true, if_false]
      rfl

theorem submit_stepped (h : t.Sound) (pi : PolicyInput) (recordedAt : String) {c : Txn}
    (hc : c.commit? = some (.commitRequest (pi.commitRequest recordedAt), ids)) :
    Stepped signer t c (postgres.alone t (submit pi signer recordedAt ids)) := by
  have hexec : postgres.alone t (submit pi signer recordedAt ids) =
      if (checkAntiReplay pi t.seen).outcome = .pass then
        postgres.alone t ((commitRequest (pi.commitRequest recordedAt) signer ids).map some)
      else (.ok none, t) := by
    rw [Database.alone, submit, exec_gate]
    split_ifs
    · rfl
    · rfl
  rw [hexec]
  split_ifs
  · exact commitRequest_stepped h _ hc
  · exact .quiet _ _ (by rintro a ⟨⟩; simp [applied]) h rfl rfl rfl

/-! ## Set-up -/

omit [Platform] in
theorem alone_createDeal (t : Tables) (deal : Deal) (createdAt : String) :
    postgres.alone t (createDeal deal createdAt) =
      if (t.deals.get? deal.dealId).isSome then
        (.error (.valueError s!"deal {deal.dealId} already exists"), t)
      else if deal.Fits then (.ok (), { t with
        deals := t.deals.set deal.dealId deal
        dealCreatedAt := t.dealCreatedAt.set deal.dealId createdAt })
      else (.error .dataError, t) := by
  have hselect : postgres.exec t (createDeal deal createdAt) [] = postgres.exec t
      (if (t.deals.get? deal.dealId).isSome then
        .fail (.valueError s!"deal {deal.dealId} already exists")
      else .write (.deal deal createdAt) (.done ())) [] := rfl
  rw [Database.alone, hselect]
  by_cases hs : (t.deals.get? deal.dealId).isSome
  · rw [if_pos hs, if_pos hs]
    rfl
  · have hc : ¬ postgres.conflicts (postgres.view t []) (.deal deal createdAt) = true :=
      not_conflicts fun k hk ht => hs (by rwa [List.mem_singleton.1 hk] at ht)
    rw [if_neg hs, if_neg hs, Database.exec, if_neg hc]
    by_cases hf : deal.Fits
    · have hfits : (Write.deal deal createdAt).fits = true := decide_eq_true hf
      rw [if_pos hf, if_pos (accepts_of_free hfits rfl)]
      rfl
    · have hfits : (Write.deal deal createdAt).fits = false := decide_eq_false hf
      rw [if_neg hf, if_neg (by simp [Database.accepts, hfits]), Database.rejection, postgres_fits,
        hfits]
      rfl

omit [Platform] in
theorem alone_linkDealRecord (t : Tables) (dealId recordId : String) :
    postgres.alone t (linkDealRecord dealId recordId) =
      match t.dealLinks.get? dealId with
      | some existing =>
        if existing ≠ recordId then
          (.error (.valueError s!"deal {dealId} is already linked to record {existing}"), t)
        else (.ok (), t)
      | none =>
        if (t.deals.get? dealId).isSome ∧ (t.authorityRecords.get? recordId).isSome then
          (.ok (), { t with dealLinks := t.dealLinks.set dealId recordId })
        else (.error .integrityError, t) := by
  rw [Database.alone, linkDealRecord, Database.exec_select]
  simp only [Database.view_nil, postgres_ask, Tables.ask]
  cases hl : t.dealLinks.get? dealId with
  | some existing =>
    simp only
    split_ifs
    · rfl
    · rfl
  | none =>
    have hc : ¬ postgres.conflicts (postgres.view t []) (.dealLink dealId recordId) = true :=
      not_conflicts fun k hk ht => by
        rw [List.mem_singleton.1 hk, Database.view_nil, Tables.Taken, hl] at ht
        cases ht
    have ha : postgres.accepts (postgres.view t []) (.dealLink dealId recordId) = true ↔
        (t.deals.get? dealId).isSome ∧ (t.authorityRecords.get? recordId).isSome := by
      simp only [postgres.accepts_iff, postgres_taken, decide_eq_true_eq]
      simp [Write.needs, Write.fits, Tables.Taken]
    simp only
    rw [Database.exec, if_neg hc]
    split_ifs with h₁ h₂ h₂
    · rfl
    · exact absurd (ha.1 h₁) h₂
    · exact absurd (ha.2 h₂) h₁
    · rfl

omit [Platform] in
theorem alone_putRecord (t : Tables) (record : AuthorityRecord) :
    postgres.alone t (putRecord record) = (.ok (),
      if (t.authorityRecords.get? record.recordId).isSome then t
      else { t with authorityRecords := t.authorityRecords.set record.recordId record }) := by
  rw [Database.alone, putRecord, Database.exec]
  by_cases hs : (t.authorityRecords.get? record.recordId).isSome
  · have hc : postgres.conflicts (postgres.view t []) (.record record) = true :=
      postgres_conflicts.2 ⟨.record record.recordId, List.mem_singleton_self _, hs⟩
    rw [if_pos hs, if_pos hc]
    rfl
  · have hc : ¬ postgres.conflicts (postgres.view t []) (.record record) = true :=
      not_conflicts fun k hk ht => hs (by rwa [List.mem_singleton.1 hk] at ht)
    rw [if_neg hs, if_neg hc, if_pos (accepts_of_free rfl rfl)]
    rfl

omit [Platform] in
theorem alone_putRevocation (t : Tables) (revocation : Revocation) :
    postgres.alone t (putRevocation revocation) =
      if (t.revocations.get? revocation.revocationId).isSome then (.ok (), t)
      else if (t.authorityRecords.get? revocation.recordId).isSome then (.ok (), { t with
        revocations := t.revocations.set revocation.revocationId revocation })
      else (.error .integrityError, t) := by
  rw [Database.alone, putRevocation, Database.exec]
  by_cases hs : (t.revocations.get? revocation.revocationId).isSome
  · have hc : postgres.conflicts (postgres.view t []) (.revocation revocation) = true :=
      postgres_conflicts.2 ⟨.revocation revocation.revocationId, List.mem_singleton_self _, hs⟩
    rw [if_pos hs, if_pos hc]
    rfl
  · have hc : ¬ postgres.conflicts (postgres.view t []) (.revocation revocation) = true :=
      not_conflicts fun k hk ht => hs (by rwa [List.mem_singleton.1 hk] at ht)
    have ha : postgres.accepts (postgres.view t []) (.revocation revocation) = true ↔
        (t.authorityRecords.get? revocation.recordId).isSome := by
      simp only [postgres.accepts_iff, postgres_taken, decide_eq_true_eq]
      simp [Write.needs, Write.fits, Tables.Taken]
    rw [if_neg hs, if_neg hc]
    split_ifs with h₁ h₂ h₂
    · rfl
    · exact absurd (ha.1 h₁) h₂
    · exact absurd (ha.2 h₂) h₁
    · rfl

variable (signer) in
/-- What every transaction that runs alone does. -/
theorem code_stepped [TextForms] (h : t.Sound) (c : Txn) :
    Stepped signer t c (postgres.alone t (c.code signer)) := by
  cases c with
  | createDeal deal createdAt =>
    rw [Txn.code, Database.alone_map, alone_createDeal]
    split_ifs with hs hf
    · exact .quiet _ _ (by rintro a ⟨⟩) h rfl rfl rfl
    · exact .created deal createdAt rfl (Option.not_isSome_iff_eq_none.1 hs)
    · exact .quiet _ _ (by rintro a ⟨⟩) h rfl rfl rfl
  | linkDealRecord dealId recordId =>
    rw [Txn.code, Database.alone_map, alone_linkDealRecord]
    cases t.dealLinks.get? dealId with
    | some existing =>
      simp only
      split_ifs
      · exact .quiet _ _ (by rintro a ⟨⟩) h rfl rfl rfl
      · exact .quiet _ _ (by rintro a ⟨⟩; simp [applied]) h rfl rfl rfl
    | none =>
      simp only
      split_ifs
      · exact .quiet _ _ (by rintro a ⟨⟩; simp [applied]) (h.congr rfl (fun _ => id) rfl) rfl rfl rfl
      · exact .quiet _ _ (by rintro a ⟨⟩) h rfl rfl rfl
  | putRecord record =>
    rw [Txn.code, Database.alone_map, alone_putRecord]
    split_ifs
    · exact .quiet _ _ (by rintro a ⟨⟩; simp [applied]) h rfl rfl rfl
    · exact .quiet _ _ (by rintro a ⟨⟩; simp [applied]) h.putRecord rfl rfl rfl
  | putRevocation revocation =>
    rw [Txn.code, Database.alone_map, alone_putRevocation]
    split_ifs
    · exact .quiet _ _ (by rintro a ⟨⟩; simp [applied]) h rfl rfl rfl
    · exact .quiet _ _ (by rintro a ⟨⟩; simp [applied]) (h.congr rfl (fun _ => id) rfl) rfl rfl rfl
    · exact .quiet _ _ (by rintro a ⟨⟩) h rfl rfl rfl
  | submit pi recordedAt ids => exact submit_stepped h pi recordedAt rfl
  | commitRequest req ids => exact commitRequest_stepped h req rfl
  | commitTransition req ids => exact stepped_of_follows h (commitTransition_follows h req) rfl rfl
  | commitApproval req ids => exact commitApproval_stepped h req rfl
  | commitRevocation req ids => exact stepped_of_follows h (commitRevocation_follows h req) rfl rfl

/-! ## Runs -/

/-- New deals are drafts, and a decision names the approval's own deal. -/
def Txn.Filed (t : Tables) : Txn → Prop
  | createDeal deal _ => deal = .fresh deal.dealId
  | commitApproval req _ =>
    ∀ a, t.approvals.get? req.approvalId = some a → req.dealId = a.dealId
  | _ => True

end Postgres

omit [Platform] in
/-- A new deal has no events. -/
theorem Tables.Sound.store_createDeal {t : Tables} (h : t.Sound) (deal : Deal) (createdAt : String)
    (hn : t.deals.get? deal.dealId = none) :
    Tables.store { t with
      deals := t.deals.set deal.dealId deal
      dealCreatedAt := t.dealCreatedAt.set deal.dealId createdAt } =
        (t.store.createDeal deal createdAt).2 := by
  have hrows : t.rows deal.dealId = [] := by
    refine List.filter_eq_nil_iff.2 fun e he hid => ?_
    have := h.deals e he
    rw [of_decide_eq_true hid, hn] at this
    cases this
  have hevents : t.eventsFor deal.dealId = [] := by rw [h.eventsFor, hrows]
  have hmap : (t.deals.set deal.dealId deal).mapWithKey (fun dealId _ => t.eventsFor dealId) =
      (t.deals.mapWithKey fun dealId _ => t.eventsFor dealId).set deal.dealId [] := by
    rw [Dict.mapWithKey_set, hevents]
  rw [Store.createDeal, Tables.store_deals, hn]
  simp only [Option.isSome_none, Bool.false_eq_true, if_false]
  rw [Tables.store, Store.mk.injEq]
  exact ⟨rfl, rfl, rfl, hmap, rfl, rfl, rfl, rfl, rfl, rfl, rfl⟩

/-- Sound tables whose deal rows are the replays of their chains. -/
structure Tables.Faithful (t : Tables) : Prop where
  sound : t.Sound
  store : t.store.Faithful

namespace Postgres

variable {t : Tables} {signer : GatewaySigner} {c : Txn}
  {done : Except PyError (Option CommitResult) × Tables}

theorem Stepped.sound (h : Stepped signer t c done) (ht : t.Sound) : done.2.Sound := by
  cases h with
  | quiet r t' hr hs hd he ha => exact hs
  | created deal createdAt hc hn =>
    refine ht.congr rfl (fun i hi => ?_) rfl
    simp only [Dict.get?_set]
    split_ifs
    · rfl
    · exact hi
  | committed op ids hc r t' ho hs hdecided hsame => exact hs

theorem Stepped.faithful (h : Stepped signer t c done) (ht : t.Faithful) (hf : c.Filed t) :
    done.2.Faithful := by
  refine ⟨h.sound ht.sound, ?_⟩
  cases h with
  | quiet r t' hr hs hd he ha =>
    refine ht.store.congr hd ?_ ha
    have hrows : ∀ dealId, t'.eventsFor dealId = t.eventsFor dealId := fun dealId => by
      rw [Tables.eventsFor, Tables.rows, he, Tables.eventsFor, Tables.rows]
    simp only [Tables.store, hd, hrows]
  | created deal createdAt hc hn =>
    subst hc
    have hdeal : deal = .fresh deal.dealId := hf
    dsimp only
    rw [ht.sound.store_createDeal deal createdAt hn, hdeal]
    exact ht.store.createDeal _ _
  | committed op ids hc r t' ho hs hdecided hsame =>
    have hrun : (op.run signer ids t.store).Faithful := by
      cases c with
      | submit pi recordedAt ids => cases hc; exact ht.store.commitRequest _
      | commitRequest req ids => cases hc; exact ht.store.commitRequest _
      | commitTransition req ids => cases hc; exact ht.store.commitTransition _
      | commitApproval req ids => cases hc; exact ht.store.commitApproval _ fun a ha => hf a ha
      | commitRevocation req ids => cases hc; exact ht.store.commitRevocation _
      | _ => cases hc
    rw [hsame]
    exact hrun.congr rfl rfl rfl

end Postgres

/-- Tables that transactions lead to, one after another. -/
inductive Tables.Written [TextForms] (signer : GatewaySigner) : Tables → Prop
  | empty : Written signer .empty
  | step {t : Tables} (h : Written signer t) (c : Postgres.Txn) (hc : c.Filed t) :
      Written signer (postgres.alone t (c.code signer)).2

theorem Tables.Written.faithful [TextForms] {signer : GatewaySigner} {t : Tables}
    (h : t.Written signer) : t.Faithful := by
  induction h with
  | empty => exact ⟨Tables.sound_empty, by rintro i d ⟨⟩, by rintro a ⟨⟩⟩
  | step h c hc ih => exact (Postgres.code_stepped signer ih.sound c).faithful ih hc

end Mandate
