/-
  The console keeps the books.

  What a route does to the store is proper: it decides on the stored deal under
  the mandate that is linked, at the time of the request (`finish_proceeds`).
  So the books of every deal are in order, however the requests at the console
  interleave (`console_keeps_books`).
-/
import Mandate.Api.Outsiders
import Mandate.Application.Conduct

namespace Mandate

section
variable [Platform]

namespace Console

/-! ## One operation -/

/-- The ledger of the console is one of proper calls, and the mandates that it
    shows are the linked ones. -/
structure InOrder (c : Console) (t : ℤ) : Prop where
  orderly : Orderly c.signer c.store t
  linked : c.dealRecords.Le c.store.dealLinks

/-- What is drawn at a time: the time as `isoformat` writes it, and new ids. -/
structure Draws.New (d : Draws) (s : Store) (t : ℤ) (now : Timestamp) : Prop where
  nowIso : d.nowIso = now.text
  printed : Datetime.isoformatUtc now.instant = some now.text
  later : t ≤ now.instant
  eventIds : s.FreshIds d.eventIds
  records : ∀ n, s.records.get? (d.newUlid n) = none
  revocations : ∀ n, s.revocations.get? (d.newUlid n) = none
  commands : ∀ n, d.newUlid n ∉ s.seenCommands

variable {c c' : Console} {t : ℤ} {now : Timestamp} {d : Draws}

theorem InOrder.congr (h : c.InOrder t) (hsigner : c'.signer = c.signer)
    (hstore : c'.store = c.store) (hrecords : c'.dealRecords = c.dealRecords) : c'.InOrder t := by
  refine ⟨?_, ?_⟩
  · rw [hsigner, hstore]
    exact h.orderly
  · rw [hrecords, hstore]
    exact h.linked

theorem InOrder.wait (h : c.InOrder t) {u : ℤ} (hu : t ≤ u) : c.InOrder u :=
  ⟨h.orderly.wait hu, h.linked⟩

/-- The console goes on with proper calls at this time. -/
structure Proceeds (c : Console) (now : Timestamp) (c' : Console) : Prop where
  inOrder : c'.InOrder now.instant
  signer : c'.signer = c.signer
  conducts : Conducts c.signer now c.store c'.store

theorem Proceeds.trans {c'' : Console} (h : c.Proceeds now c') (h' : c'.Proceeds now c'') :
    c.Proceeds now c'' := by
  refine ⟨h'.inOrder, h'.signer.trans h.signer, h.conducts.trans ?_⟩
  rw [← h.signer]
  exact h'.conducts

theorem Proceeds.congr {c'' : Console} (h : c.Proceeds now c') (hsigner : c''.signer = c'.signer)
    (hstore : c''.store = c'.store) (hrecords : c''.dealRecords = c'.dealRecords) :
    c.Proceeds now c'' := by
  refine ⟨h.inOrder.congr hsigner hstore hrecords, hsigner.trans h.signer, ?_⟩
  rw [hstore]
  exact h.conducts

theorem InOrder.stays (h : c.InOrder t) (ht : t ≤ now.instant) : c.Proceeds now c :=
  ⟨h.wait ht, rfl, .refl⟩

theorem InOrder.proceeds (h : c.InOrder t) {s' : Store} (hs : Advances c.signer now c.store s') :
    c.Proceeds now { c with store := s' } :=
  ⟨⟨hs.orderly, h.linked.trans hs.links⟩, rfl, hs.conducts⟩

theorem InOrder.call (h : c.InOrder t) (call : Call) (hc : call.Proper c.signer now c.store)
    (ht : t ≤ now.instant) {ids : EventIds} (hf : c.store.FreshIds ids) :
    c.Proceeds now { c with store := call.run c.signer ids c.store } :=
  h.proceeds (h.orderly.advances hc ht hf)

/-- What `_mandate` returns is the stored deal, and the record linked to it. -/
theorem InOrder.mandate (h : c.InOrder t) {dealId : String} {record : AuthorityRecord}
    {deal : Deal} (hm : c.mandate dealId = .ok (record, deal)) :
    c.store.deals.get? deal.dealId = some deal ∧ deal.dealId = dealId ∧
      ∃ recordId, c.store.dealLinks.get? dealId = some recordId ∧
        c.store.records.get? recordId = some record := by
  unfold Console.mandate at hm
  split at hm
  · cases hm
  · rename_i recordId hl
    split at hm
    · rename_i record' deal' hr hd
      cases hm
      have hid := h.orderly.dealId hd
      exact ⟨hid.symm ▸ hd, hid, recordId, h.linked _ _ hl, hr⟩
    · cases hm

theorem registerDeal_proceeds (h : c.InOrder t) (ht : t ≤ now.instant) (dealId : String)
    {record : AuthorityRecord} (hr : c.store.records.get? record.recordId = none)
    (createdAt : String) : c.Proceeds now (c.registerDeal dealId record createdAt).2 := by
  obtain ⟨hcreated, hregistered⟩ := h.orderly.register ht dealId createdAt hr
  unfold registerDeal
  generalize c.store.createDeal (.fresh dealId) createdAt = r at hcreated hregistered ⊢
  obtain ⟨r, s⟩ := r
  cases r with
  | error e => exact h.proceeds hcreated
  | ok _ =>
    have hlink := h.proceeds hregistered
    have hlinked := @Store.linkDealRecord_ok (s.putRecord record) dealId record.recordId
    dsimp only at hlink ⊢
    generalize (s.putRecord record).linkDealRecord dealId record.recordId = r at hlink hlinked ⊢
    obtain ⟨r, s'⟩ := r
    cases r with
    | error e => exact hlink
    | ok _ =>
      refine ⟨⟨hlink.inOrder.orderly, hlink.inOrder.linked.set (hlinked rfl)⟩, rfl,
        hlink.conducts⟩

theorem newDeal_proceeds (h : c.InOrder t) (hd : d.New c.store t now) :
    c.Proceeds now (c.newDeal d).2 := by
  unfold newDeal
  dsimp only
  split
  · exact h.stays hd.later
  · rename_i record hrecord
    have hid : ∃ n, record.recordId = d.newUlid n := by
      unfold makeDefaultRecord makeSignedRecord at hrecord
      obtain ⟨issuedAt, -, hrecord⟩ := bind_ok.1 hrecord
      obtain ⟨expiresAt, -, hrecord⟩ := bind_ok.1 hrecord
      cases hrecord
      exact ⟨3, rfl⟩
    obtain ⟨n, hid⟩ := hid
    have hnone : c.store.records.get? record.recordId = none := hid ▸ hd.records n
    have hregistered := registerDeal_proceeds h hd.later (d.newUlid 0) hnone d.nowIso
    generalize c.registerDeal (d.newUlid 0) record d.nowIso = r at hregistered ⊢
    obtain ⟨r, c'⟩ := r
    cases r <;> exact hregistered

theorem boundaryEvent_proceeds (h : c.InOrder t) (hd : d.New c.store t now) (x : Exchange)
    (dealId : String) : c.Proceeds now (c.boundaryEvent x dealId d).2 := by
  unfold boundaryEvent
  split
  · exact h.stays hd.later
  · split
    · exact h.stays hd.later
    · rename_i event _
      have hcall : c.Proceeds now { c with store := (c.store.commitTransition
          (c.boundaryRequest x dealId event d) c.signer d.eventIds).2 } :=
        h.call (.other (.commitTransition (c.boundaryRequest x dealId event d)))
          ⟨rfl, rfl⟩ hd.later hd.eventIds
      generalize c.store.commitTransition _ c.signer d.eventIds = r at hcall ⊢
      obtain ⟨r, s⟩ := r
      cases r <;> exact hcall

/-- The decision of a form repeats the row that it decides. -/
theorem approvalRequest_ok {x : Exchange} {dealId approvalId : String} {req : ApprovalRequest}
    (hr : c.approvalRequest x dealId approvalId d = .ok req) :
    req.occurredAt = d.nowIso ∧ ∃ a, c.store.approvals.get? req.approvalId = some a ∧
      req.dealId = a.dealId ∧ req.action = a.action ∧ req.amountMinor = a.amountMinor ∧
      req.authorityRecordId = a.authorityRecordId := by
  unfold approvalRequest at hr
  split at hr
  · cases hr
  · cases hr
  · rename_i approval _ ha
    obtain ⟨ha, hdeal⟩ := Option.filter_eq_some_iff.1 ha
    have hdeal : approval.dealId = dealId := of_decide_eq_true hdeal
    split_ifs at hr
    · unfold grantRequest at hr
      split at hr
      · cases hr
      · cases hr
      · dsimp only at hr
        split_ifs at hr
        cases hr
        exact ⟨rfl, approval, ha, hdeal.symm, rfl, rfl, rfl⟩
    · cases hr
      exact ⟨rfl, approval, ha, hdeal.symm, rfl, rfl, rfl⟩

theorem decideApproval_proceeds (h : c.InOrder t) (hd : d.New c.store t now) (x : Exchange)
    (dealId approvalId : String) :
    c.Proceeds now (c.decideApproval x dealId approvalId d).2 := by
  unfold decideApproval
  split
  · exact h.stays hd.later
  · rename_i req hreq
    obtain ⟨hat, hrow⟩ := approvalRequest_ok hreq
    have hcall : c.Proceeds now
        { c with store := (c.store.commitApproval req c.signer d.eventIds).2 } :=
      h.call (.other (.commitApproval req)) ⟨hat.trans hd.nowIso, hrow⟩ hd.later hd.eventIds
    generalize c.store.commitApproval req c.signer d.eventIds = r at hcall ⊢
    obtain ⟨r, s⟩ := r
    cases r <;> exact hcall

/-- A revocation of the deal's mandate, signed and dated at the time. -/
theorem revocationRequest_ok (hd : d.New c.store t now) (hs : c.signer.Signs) {dealId : String}
    {req : RevocationRequest} (hreq : c.revocationRequest dealId d = .ok req) :
    ∃ record deal, c.mandate dealId = .ok (record, deal) ∧ req.dealId = dealId ∧
      req.revocation.recordId = record.recordId ∧ req.commandId = d.newUlid 1 ∧
        Call.Proper c.signer now c.store (.other (.commitRevocation req)) := by
  unfold revocationRequest at hreq
  cases hm : c.mandate dealId with
  | error e =>
    rw [hm] at hreq
    cases hreq
  | ok m =>
    obtain ⟨record, deal⟩ := m
    rw [hm] at hreq
    dsimp only [bind, Except.bind] at hreq
    cases hmade : c.makeSignedRevocation record.recordId d.nowIso d.newUlid with
    | error e =>
      rw [hmade] at hreq
      cases hreq
    | ok revocation =>
      rw [hmade] at hreq
      cases hreq
      unfold makeSignedRevocation at hmade
      obtain ⟨revokedAt, hat, hmade⟩ := bind_ok.1 hmade
      cases hmade
      rw [hd.nowIso] at hat
      refine ⟨record, deal, rfl, rfl, rfl, rfl, hd.nowIso, hs.checkSignature _,
        (timestampField_isoformat hd.printed hat).le, fun old hold => ?_⟩
      have hnone := hd.revocations 0
      dsimp only at hold
      rw [hnone] at hold
      cases hold

omit [Platform] in
theorem mandate_error {dealId : String} {e : RouteError} (h : c.mandate dealId = .error e) :
    ∃ detail, e = .http 404 detail := by
  unfold Console.mandate at h
  split at h
  · cases h
    exact ⟨_, rfl⟩
  · split at h <;> cases h
    exact ⟨_, rfl⟩

theorem revoke_error {dealId : String} {e : RouteError} (h : (c.revoke dealId d).1 = .error e) :
    (∃ detail, e = .http 404 detail) ∨ ∃ e', e = .python e' := by
  unfold revoke at h
  split at h
  · rename_i hreq
    cases h
    unfold revocationRequest at hreq
    cases hm : c.mandate dealId with
    | error e' =>
      rw [hm] at hreq
      cases hreq
      exact .inl (mandate_error hm)
    | ok m =>
      rw [hm] at hreq
      dsimp only [bind, Except.bind] at hreq
      split at hreq <;> cases hreq
      exact .inr ⟨_, rfl⟩
  · split at h <;> cases h
    exact .inr ⟨_, rfl⟩

theorem revoke_proceeds (h : c.InOrder t) (hd : d.New c.store t now) (hs : c.signer.Signs)
    (dealId : String) : c.Proceeds now (c.revoke dealId d).2 := by
  unfold revoke
  split
  · exact h.stays hd.later
  · rename_i req hreq
    obtain ⟨-, -, -, -, -, -, hproper⟩ := revocationRequest_ok hd hs hreq
    have hcall : c.Proceeds now
        { c with store := (c.store.commitRevocation req c.signer d.eventIds).2 } :=
      h.call (.other (.commitRevocation req)) hproper hd.later hd.eventIds
    generalize c.store.commitRevocation req c.signer d.eventIds = r at hcall ⊢
    obtain ⟨r, s⟩ := r
    cases r <;> exact hcall

/-- After a redirect the mandate is revoked. -/
theorem revoke_revoked (h : c.InOrder t) (hd : d.New c.store t now) (hs : c.signer.Signs)
    {dealId recordId : String} {response : Response}
    (hl : c.dealRecords.get? dealId = some recordId)
    (hok : (c.revoke dealId d).1 = .ok response) :
    (c.revoke dealId d).2.store.RevokedFrom c.signer recordId now.instant := by
  have hkeyed := h.orderly.sound.keyed
  unfold revoke at hok ⊢
  split at hok
  · cases hok
  · rename_i req hreq
    obtain ⟨record, deal, hm, hdeal, hrid, hcommand, -, hsigned, hat, -⟩ :=
      revocationRequest_ok hd hs hreq
    have hrecord : c.store.records.get? recordId = some record ∧
        c.store.deals.get? dealId = some deal := by
      unfold Console.mandate at hm
      rw [hl] at hm
      dsimp only at hm
      split at hm
      · rename_i record' deal' hr hd
        cases hm
        exact ⟨hr, hd⟩
      · cases hm
    have hid : record.recordId = recordId := hkeyed _ _ hrecord.1
    have hstored : ∀ s' : Store, s'.revocations =
        c.store.revocations.set req.revocation.revocationId req.revocation →
          s'.RevokedFrom c.signer recordId now.instant := by
      intro s' hs'
      exact ⟨_, _, hs' ▸ Dict.get?_set_self .., hrid.trans hid, hsigned, hat⟩
    generalize hcommit : c.store.commitRevocation req c.signer d.eventIds = r at hok ⊢
    obtain ⟨r, s⟩ := r
    cases r with
    | error e => cases hok
    | ok result =>
      dsimp only
      unfold Store.commitRevocation at hcommit
      rw [hdeal, hrecord.2, hrid, hid, hrecord.1] at hcommit
      dsimp only at hcommit
      rw [if_neg (hcommand ▸ hd.commands 1)] at hcommit
      by_cases hlisted : c.store.listRevocations record.recordId = []
      · rw [if_neg (not_not.2 hlisted)] at hcommit
        split at hcommit
        · cases hcommit
        · split at hcommit
          · cases hcommit
          · cases hcommit
            exact hstored _ rfl
      · -- revoked before, and nothing is written
        rw [if_pos hlisted] at hcommit
        cases hcommit
        obtain ⟨r, hr⟩ := List.exists_mem_of_ne_nil _ hlisted
        obtain ⟨hr, hrecordId⟩ := List.mem_filter.1 hr
        obtain ⟨k, hk⟩ := Dict.mem_values.1 hr
        obtain ⟨hsigned', hat'⟩ := h.orderly.dated k r hk
        exact ⟨k, r, hk, (of_decide_eq_true hrecordId).trans hid, hsigned', hat'.trans hd.later⟩

omit [Platform] in
/-- A badge is for display only. -/
theorem rememberScreenBadge_ledger (c : Console) (dealId requestId : String)
    (screened : Option ScreenedContent) :
    (c.rememberScreenBadge dealId requestId screened).signer = c.signer ∧
      (c.rememberScreenBadge dealId requestId screened).store = c.store ∧
      (c.rememberScreenBadge dealId requestId screened).dealRecords = c.dealRecords := by
  unfold rememberScreenBadge
  split <;> exact ⟨rfl, rfl, rfl⟩

/-- A proposal is decided on the stored deal, on the claim built at its time. -/
theorem proposal_proper (h : c.InOrder t) (hd : d.New c.store t now) {dealId : String}
    {record : AuthorityRecord} {deal : Deal} (hm : c.mandate dealId = .ok (record, deal))
    {claim : AuthorityClaim} (hclaim : buildClaim c.store c.signer record d.nowIso = .ok claim)
    (fields : ProposalFields) (at' : Timestamp) :
    Call.Proper c.signer now c.store
      (.request (c.proposalInput fields dealId record claim deal at' d.newUlid) d.nowIso) := by
  obtain ⟨hdeal, rfl, recordId, hl, hr⟩ := h.mandate hm
  rw [hd.nowIso] at hclaim ⊢
  exact h.orderly.request_proper hdeal hl hr hclaim rfl rfl

variable [PyDecimal.CharForms]

theorem propose_proceeds (h : c.InOrder t) (hd : d.New c.store t now) (x : Exchange)
    (dealId : String) : c.Proceeds now (c.propose x dealId d).2 := by
  unfold propose
  split
  · exact h.stays hd.later
  · exact h.stays hd.later
  · rename_i record deal fields hm _
    split
    · exact h.stays hd.later
    · exact h.stays hd.later
    · rename_i claim at' hclaim _
      dsimp only
      have hproper := proposal_proper h hd hm hclaim fields at'
      generalize c.proposalInput fields dealId record claim deal at' d.newUlid = pi at hproper ⊢
      have hcall : c.Proceeds now { c with store :=
          (processRequest c.store pi c.signer d.nowIso d.eventIds).2 } :=
        h.call _ hproper hd.later hd.eventIds
      generalize processRequest c.store pi c.signer d.nowIso d.eventIds = r at hcall ⊢
      obtain ⟨r, s⟩ := r
      cases r with
      | error e => exact hcall
      | ok result =>
        have hbadge := rememberScreenBadge_ledger { c with store := s } dealId pi.requestId
          (screenContent c.screen fields.content)
        exact hcall.congr hbadge.1 hbadge.2.1 hbadge.2.2

variable [CsrfSerializer]

/-- The last part of any request keeps the ledger in order. -/
theorem finish_proceeds (h : c.InOrder t) (hd : d.New c.store t now) (hs : c.signer.Signs)
    (x : Exchange) : c.Proceeds now (c.finish x d).2 := by
  have hstays := h.stays hd.later
  by_cases hx : x.request.endpoint.operates = true
  · have hroute : c.Proceeds now (c.route x d).console := by
      unfold route
      cases he : x.request.endpoint with
      | newDeal => exact newDeal_proceeds h hd
      | propose dealId => exact propose_proceeds h hd x dealId
      | boundaryEvent dealId => exact boundaryEvent_proceeds h hd x dealId
      | decideApproval dealId approvalId => exact decideApproval_proceeds h hd x dealId approvalId
      | revoke dealId => exact revoke_proceeds h hd hs dealId
      | _ => simp [he, Endpoint.operates] at hx
    unfold finish
    rw [if_pos hx]
    split
    · exact hstays
    · exact hroute
  · have hx : x.request.endpoint.operates = false := by simpa using hx
    have hroute := finished_route (c := c) (d := d) hx
    have hfinish : (c.finish x d).2 = (c.route x d).console := by
      unfold finish
      simp [hx]
    rw [hfinish]
    generalize (c.route x d).console = c' at hroute ⊢
    generalize (c.route x d).answer = r at hroute
    cases hroute with
    | operated hop => simp [hx] at hop
    | loggedIn => exact hstays.congr rfl rfl rfl
    | loggedOut => exact hstays.congr rfl rfl rfl
    | unchanged => exact hstays

theorem finish_signer (c : Console) (x : Exchange) (d : Draws) :
    (c.finish x d).2.signer = c.signer := by
  have hcases := c.finish_cases x d
  generalize c.finish x d = r at hcases ⊢
  cases hcases with
  | operated _ _ _ _ hc => exact hc.signer
  | loggedIn | loggedOut | unchanged => rfl

/-- A redirect of the route for revocations is one of a revocation. -/
theorem finish_revoked (h : c.InOrder t) (hd : d.New c.store t now) (hs : c.signer.Signs)
    {x : Exchange} {dealId recordId : String} (hx : x.request.endpoint = .revoke dealId)
    (hl : c.dealRecords.get? dealId = some recordId)
    (hredirect : (c.finish x d).1.response.status = 303) :
    (c.finish x d).2.store.RevokedFrom c.signer recordId now.instant := by
  have hguards : x.request.endpoint.operates = true := by rw [hx]; rfl
  unfold finish at hredirect ⊢
  rw [if_pos hguards] at hredirect ⊢
  cases hcsrf : c.requireCsrf x d.time with
  | error e =>
    rw [hcsrf] at hredirect
    unfold requireCsrf at hcsrf
    split at hcsrf <;> cases hcsrf <;> cases hredirect
  | ok _ =>
    rw [hcsrf] at hredirect
    dsimp only [route] at hredirect ⊢
    rw [hx] at hredirect ⊢
    dsimp only at hredirect ⊢
    cases hr : (c.revoke dealId d).1 with
    | ok response => exact revoke_revoked h hd hs hl hr
    | error e =>
      rw [hr] at hredirect
      rcases revoke_error hr with ⟨detail, rfl⟩ | ⟨e', rfl⟩
      · cases hredirect
      · cases hredirect

end Console

/-! ## Every run -/

variable [PyDecimal.CharForms] [CsrfSerializer]

/-- The console with the time of its last operation: deals are registered with
    new records, and requests are served part by part.  Time does not run
    backwards, and drawn ids are new. -/
inductive ConsoleStep : Server × ℤ → Server × ℤ → Prop
  | register {s : Server} {t : ℤ} (dealId : String) (record : AuthorityRecord)
      (now : Timestamp) (ht : t ≤ now.instant)
      (hr : s.console.store.records.get? record.recordId = none) :
      ConsoleStep (s, t)
        ({ s with console := (s.console.registerDeal dealId record now.text).2 }, now.instant)
  | finish {s s' : Server} {t : ℤ} {r : Option HttpResponse} (n : ℕ) (d : Console.Draws)
      (now : Timestamp) (hd : d.New s.console.store t now)
      (hr : s.run (.finish n d) = some (r, s')) : ConsoleStep (s, t) (s', now.instant)
  | arrive {s s' : Server} {t : ℤ} {r : Option HttpResponse} (request : HttpRequest)
      (d : Console.SessionDraw) (hr : s.run (.arrive request d) = some (r, s')) :
      ConsoleStep (s, t) (s', t)
  | authorise {s s' : Server} {t : ℤ} {r : Option HttpResponse} (n : ℕ)
      (hr : s.run (.authorise n) = some (r, s')) : ConsoleStep (s, t) (s', t)

/-- A console starts without deals, with a key whose signatures verify. -/
def operatorConsole : System (Server × ℤ) where
  init q := q.1.console.store = .empty ∧ q.1.console.dealRecords = .empty ∧
    q.1.console.signer.Signs
  step := ConsoleStep

/-- A step keeps the time and all but sessions, or goes on with proper calls. -/
theorem ConsoleStep.proceeds {q q' : Server × ℤ} (hstep : ConsoleStep q q')
    (h : q.1.console.InOrder q.2) (hs : q.1.console.signer.Signs) :
    (q'.2 = q.2 ∧ q'.1.console = { q.1.console with sessions := q'.1.console.sessions }) ∨
      ∃ now : Timestamp, q.2 ≤ now.instant ∧ q'.2 = now.instant ∧
        q.1.console.Proceeds now q'.1.console := by
  cases hstep with
  | register dealId record now ht hr =>
    exact .inr ⟨now, ht, rfl, Console.registerDeal_proceeds h ht dealId hr now.text⟩
  | finish n d now hd hr =>
    obtain ⟨p, -, -, -, rfl⟩ := Server.run_finish hr
    exact .inr ⟨now, hd.later, rfl, Console.finish_proceeds h hd hs p.exchange⟩
  | @arrive s s' t r request d hr =>
    have hcases := s.console.sessionMiddleware_cases request d
    unfold Server.run at hr
    dsimp only at hr
    generalize s.console.sessionMiddleware request d = m at hcases hr
    cases hr
    rcases hcases with ⟨token, session, -, -, rfl⟩ | rfl
    · exact .inl ⟨rfl, rfl⟩
    · exact .inl ⟨rfl, rfl⟩
  | authorise n hr =>
    obtain ⟨p, -, ⟨session, -, -, rfl⟩ | ⟨e, -, -, rfl⟩⟩ := Server.run_authorise hr
    · exact .inl ⟨rfl, rfl⟩
    · exact .inl ⟨rfl, rfl⟩

theorem inOrder_invariant : operatorConsole.Invariant fun q =>
    q.1.console.InOrder q.2 ∧ q.1.console.signer.Signs where
  init := by
    rintro ⟨s, t⟩ ⟨hstore, hrecords, hsigns⟩
    refine ⟨⟨?_, ?_⟩, hsigns⟩
    · rw [show s.console.store = .empty from hstore]
      exact orderly_empty t
    · rw [show s.console.dealRecords = .empty from hrecords]
      rintro k v ⟨⟩
  step := by
    rintro q q' - ⟨h, hs⟩ hstep
    rcases hstep.proceeds h hs with ⟨ht, hc⟩ | ⟨now, -, ht, hc⟩
    · rw [ht, hc]
      exact ⟨h.congr rfl rfl rfl, hs⟩
    · rw [ht, hc.signer]
      exact ⟨hc.inOrder, hs⟩

/-- Whatever is asked of the console, in any interleaving, the books of every
    deal are in order: the row is the replay of the chain, the chain verifies,
    no request moved the deal by itself, none under a revoked mandate, the
    counter of open approvals counts the rows that wait, and the committed
    amount is covered by the cap of the linked mandate and the logged grants. -/
theorem console_keeps_books {q : Server × ℤ} (h : operatorConsole.Reachable q) {dealId : String}
    {deal : Deal} (hd : q.1.console.store.deals.get? dealId = some deal) :
    q.1.console.store.Books q.1.console.signer dealId deal ∧
      (verifyChain (q.1.console.store.eventsFor dealId) q.1.console.signer.publicKey).ok = true ∧
      ∀ recordId ∈ q.1.console.dealRecords.get? dealId,
        q.1.console.store.dealLinks.get? dealId = some recordId := by
  obtain ⟨hin, hs⟩ := inOrder_invariant.holds h
  have hbooks := hin.orderly.books hd
  exact ⟨hbooks, hbooks.written.verifies hs,
    fun recordId hr => hin.linked _ _ hr⟩

end

section
open Sample
attribute [local instance] Sample.platform PyDecimal.CharForms.ascii Sample.serializer

/-- One part of serving a request, with the texts it draws. -/
inductive Sample.Turn where
  | arrive (request : HttpRequest) (c : Char)
  | authorise (n : ℕ)
  | finish (n : ℕ) (c : Char)

/-- No stored id starts with `c`, and no approval is stored. -/
def Sample.unused (s : Store) (c : Char) : Bool :=
  s.approvals.entries.isEmpty &&
    ((s.records.entries.map Prod.fst ++ s.revocations.entries.map Prod.fst).all
      fun k => k.toList.head? ≠ some c) && decide (∀ k ∈ s.seenCommands, k.toList.head? ≠ some c)

/-- The server after a turn, if it is due and its ids are new. -/
def Sample.attend (s : Server) : Turn → Option Server
  | .arrive request c => (s.run (.arrive request (draw c))).map Prod.snd
  | .authorise n => (s.run (.authorise n)).map Prod.snd
  | .finish n c =>
    if unused s.console.store c then (s.run (.finish n (draws c))).map Prod.snd else none

theorem Sample.get?_newIds {α : Type} {d : Dict String α} {c : Char} {n : ℕ}
    (h : ∀ k ∈ d.entries.map Prod.fst, k.toList.head? ≠ some c) : d.get? (newIds c n) = none := by
  rw [← Option.not_isSome_iff_eq_none]
  intro hsome
  exact h _ (Dict.isSome_getEntries.1 hsome) (by simp [newIds])

theorem Sample.new_of_unused {s : Store} {c : Char} (h : unused s c = true) :
    (draws c).New s clock.instant clock := by
  simp only [unused, Bool.and_eq_true, List.all_eq_true, List.mem_append, decide_eq_true_eq] at h
  obtain ⟨⟨happrovals, hkeys⟩, hcommands⟩ := h
  refine ⟨rfl, by decide +kernel, le_rfl, fun n => ?_, fun n => ?_, fun n => ?_, fun n hn => ?_⟩
  · rw [Dict.get?, List.isEmpty_iff.1 happrovals]
    rfl
  · exact get?_newIds fun k hk => hkeys k (.inl hk)
  · exact get?_newIds fun k hk => hkeys k (.inr hk)
  · exact hcommands _ hn (by simp [draws, newIds])

theorem Sample.step_of_attend {s s' : Server} {turn : Turn} (h : attend s turn = some s') :
    operatorConsole.step (s, clock.instant) (s', clock.instant) := by
  unfold attend at h
  cases turn with
  | arrive request c =>
    obtain ⟨⟨r, s''⟩, hr, rfl⟩ := Option.map_eq_some_iff.1 h
    exact .arrive request _ hr
  | authorise n =>
    obtain ⟨⟨r, s''⟩, hr, rfl⟩ := Option.map_eq_some_iff.1 h
    exact .authorise n hr
  | finish n c =>
    dsimp only at h
    split_ifs at h with hunused
    obtain ⟨⟨r, s''⟩, hr, rfl⟩ := Option.map_eq_some_iff.1 h
    exact .finish n _ clock (new_of_unused hunused) hr

/-- The server after some turns. -/
def Sample.attended (turns : List Turn) : Server :=
  (turns.foldlM attend transcript.server).getD transcript.server

theorem Sample.attend_attended {turns : List Turn} {turn : Turn}
    (h : ((turns ++ [turn]).foldlM attend transcript.server).isSome = true) :
    attend (attended turns) turn = some (attended (turns ++ [turn])) := by
  obtain ⟨s, hs⟩ := Option.isSome_iff_exists.1 h
  rw [attended, attended, hs]
  rw [List.foldlM_append] at hs
  obtain ⟨s₁, h₁, hs⟩ := Option.bind_eq_some_iff.1 hs
  rw [h₁]
  obtain ⟨s₂, h₂, hs⟩ := Option.bind_eq_some_iff.1 hs
  cases hs
  exact h₂

theorem Sample.attended_reachable {turns : List Turn} :
    (turns.foldlM attend transcript.server).isSome = true →
      operatorConsole.Reachable (attended turns, clock.instant) := by
  induction turns using List.reverseRecOn with
  | nil => exact fun _ => .init ⟨rfl, rfl, signer_signs⟩
  | append_singleton turns turn ih =>
    intro h
    refine (ih ?_).step (step_of_attend (attend_attended h))
    rw [List.foldlM_append] at h
    cases hs : turns.foldlM attend transcript.server with
    | none => simp [hs] at h
    | some s => rfl

/-- The operator logs in and opens a deal. -/
def Sample.dealOpened : List Turn :=
  [.arrive ⟨.loginGet, none, .empty⟩ '0', .finish 0 '1',
    .arrive (login "open sesame") '2', .finish 1 '3',
    .arrive ⟨.newDeal, some "T3", formOf [("csrf_token", "s.P3")]⟩ '4', .authorise 2, .finish 2 '5']

/-- A proposal of the agent and a revocation of its mandate, both with their
    logins checked. -/
def Sample.crossed : List Turn :=
  dealOpened ++ [
    .arrive ⟨.propose (newIds '5' 0), some "T3",
      formOf [("csrf_token", "s.P3"), ("action", "request_quote")]⟩ '6', .authorise 3,
    .arrive ⟨.revoke (newIds '5' 0), some "T3", formOf [("csrf_token", "s.P3")]⟩ '6', .authorise 4]

/-- Both have run, the proposal first. -/
def Sample.bothRun : List Turn := crossed ++ [.finish 3 '6', .finish 4 '7']

theorem console_keeps_books_crossed :
    (attended bothRun).console.store.Books (attended bothRun).console.signer (newIds '5' 0)
        { Deal.fresh (newIds '5' 0) with state := .quoteRequested } ∧
      (verifyChain ((attended bothRun).console.store.eventsFor (newIds '5' 0))
        (attended bothRun).console.signer.publicKey).ok = true ∧
      ((attended bothRun).console.store.eventsFor (newIds '5' 0)).map Event.eventType =
        [.policyDecision, .stateTransition, .revocation] := by
  have hreach : operatorConsole.Reachable (attended bothRun, clock.instant) :=
    attended_reachable (by decide +kernel)
  obtain ⟨hrow, hevents⟩ : (attended bothRun).console.store.deals.get? (newIds '5' 0) =
        some { Deal.fresh (newIds '5' 0) with state := .quoteRequested } ∧
      ((attended bothRun).console.store.eventsFor (newIds '5' 0)).map Event.eventType =
        [.policyDecision, .stateTransition, .revocation] := by
    decide +kernel
  generalize attended bothRun = s at hreach hrow hevents ⊢
  obtain ⟨hbooks, hverifies, -⟩ := console_keeps_books hreach hrow
  exact ⟨hbooks, hverifies, hevents⟩

end

section
variable [Platform] [PyDecimal.CharForms] [CsrfSerializer]

/-! ## After a revocation -/

/-- A step leaves what was revoked revoked, and moves no deal under it. -/
theorem ConsoleStep.unmoved {q q' : Server × ℤ} (hstep : ConsoleStep q q')
    (h : q.1.console.InOrder q.2) (hs : q.1.console.signer.Signs) {recordId : String}
    (hr : q.1.console.store.RevokedFrom q.1.console.signer recordId q.2) :
    q'.1.console.store.RevokedFrom q'.1.console.signer recordId q'.2 ∧
      ∀ id, ∃ g, q'.1.console.store.eventsFor id = q.1.console.store.eventsFor id ++ g ∧
        Unmoved recordId g := by
  rcases hstep.proceeds h hs with ⟨ht, hc⟩ | ⟨now, hle, ht, hc⟩
  · rw [ht, hc]
    exact ⟨hr, fun id => ⟨[], (List.append_nil _).symm, by rintro e ⟨⟩⟩⟩
  · rw [ht, hc.signer]
    exact hc.conducts.unmoved (h.orderly.wait hle) (hr.later hle)

/-- Once the console has answered a revocation with a redirect, nothing that
    runs later moves a deal under the mandate, in any interleaving: no request
    that was in flight, no approval that waited, no new proposal. -/
theorem revocation_is_final {q q₂ q₃ : Server × ℤ} {s₁ : Server} {n : ℕ} {d : Console.Draws}
    {now : Timestamp} {p : Pending} {response : HttpResponse} {dealId recordId : String}
    (h : operatorConsole.Reachable q) (hp : q.1.inFlight.get? n = some p)
    (hx : p.exchange.request.endpoint = .revoke dealId)
    (hl : q.1.console.dealRecords.get? dealId = some recordId)
    (hd : d.New q.1.console.store q.2 now)
    (hr : q.1.run (.finish n d) = some (some response, s₁))
    (hredirect : response.response.status = 303)
    (hrun : Relation.ReflTransGen operatorConsole.step (s₁, now.instant) q₂)
    (hstep : operatorConsole.step q₂ q₃) (id : String) :
    ∃ g, q₃.1.console.store.eventsFor id = q₂.1.console.store.eventsFor id ++ g ∧
      Unmoved recordId g := by
  obtain ⟨hin, hs⟩ := inOrder_invariant.holds h
  have hreach : operatorConsole.Reachable (s₁, now.instant) := h.step (.finish n d now hd hr)
  have hrevoked : s₁.console.store.RevokedFrom s₁.console.signer recordId now.instant := by
    obtain ⟨p', hp', -, hresponse, hs₁⟩ := Server.run_finish hr
    obtain rfl : p = p' := Option.some.inj (hp.symm.trans hp')
    obtain rfl := Option.some.inj hresponse
    rw [hs₁, Console.finish_signer]
    exact Console.finish_revoked hin hd hs hx hl hredirect
  have hlater : q₂.1.console.store.RevokedFrom q₂.1.console.signer recordId q₂.2 := by
    clear hstep
    induction hrun with
    | refl => exact hrevoked
    | tail hrun hs' ih =>
      obtain ⟨hin', hsigns⟩ := inOrder_invariant.holds (hreach.trans hrun)
      exact (ConsoleStep.unmoved hs' hin' hsigns ih).1
  obtain ⟨hin', hsigns⟩ := inOrder_invariant.holds (hreach.trans hrun)
  exact (ConsoleStep.unmoved hstep hin' hsigns hlater).2 id

end

section
open Sample
attribute [local instance] Sample.platform PyDecimal.CharForms.ascii Sample.serializer

/-- The proposal is committed after the revocation, and moves nothing. -/
theorem revocation_is_final_crossed :
    ∃ g, (attended (crossed ++ [.finish 4 '6'] ++ [.finish 3 '7'])).console.store.eventsFor
        (newIds '5' 0) =
      (attended (crossed ++ [.finish 4 '6'])).console.store.eventsFor (newIds '5' 0) ++ g ∧
        Unmoved (newIds '5' 3) g := by
  have hdue : (crossed.foldlM attend transcript.server).isSome = true := by decide +kernel
  have hrevoke : attend (attended crossed) (.finish 4 '6') =
      some (attended (crossed ++ [.finish 4 '6'])) := attend_attended (by decide +kernel)
  have hpropose : attend (attended (crossed ++ [.finish 4 '6'])) (.finish 3 '7') =
      some (attended (crossed ++ [.finish 4 '6'] ++ [.finish 3 '7'])) :=
    attend_attended (by decide +kernel)
  have hstep := step_of_attend hpropose
  unfold attend at hrevoke
  dsimp only at hrevoke
  split_ifs at hrevoke with hunused
  obtain ⟨⟨response, s⟩, hr, hs⟩ := Option.map_eq_some_iff.1 hrevoke
  have hanswer : ((attended crossed).run (.finish 4 (draws '6'))).map
      (fun r => r.1.map fun response => response.response.status) = some (some 303) := by
    decide +kernel
  rw [hr] at hanswer
  cases response with
  | none => cases hanswer
  | some response =>
    obtain rfl : s = attended (crossed ++ [.finish 4 '6']) := hs
    exact revocation_is_final (attended_reachable hdue) rfl rfl rfl
      (new_of_unused hunused) hr (Option.some.inj (Option.some.inj hanswer)) .refl hstep _

end

end Mandate
