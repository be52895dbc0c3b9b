/-
  The gateway over a ledger that outlives it.

  A gateway is built on a stored ledger (`buildGatewayState`), stops at any
  point, and is built again; the operator's calls come in between.  Whatever
  peers send, the books of every deal are in order (`gateway_keeps_books`).  A
  deal whose registration stopped before its mandate was linked is never
  decided on (`half_registered_deal`).
-/
import Mandate.Application.Conduct
import Mandate.Transport.Effects

namespace Mandate

/-- `build_gateway_state`: the registry is rebuilt from the links in the store,
    so that deals stay actionable. -/
def buildGatewayState (identity : GatewayIdentity) (signer : GatewaySigner) (store : Store)
    (dedup : Dict (String × String) (String × Answer)) (peers : Dict String GatewayIdentity)
    (maxAgeSeconds : Option ℤ) (screen : ContentScreen) : Gateway :=
  { identity, signer, store, dedup, peers, maxAgeSeconds, screen, dealRecords := store.dealLinks }

section
variable [Platform]

/-! ## A message advances the ledger -/

/-- The ledger is one of proper calls, and the registry has stored links only. -/
structure Gateway.InOrder (g : Gateway) (t : ℤ) : Prop where
  orderly : Orderly g.signer g.store t
  linked : g.dealRecords.Le g.store.dealLinks

/-- What a message reads of the clock and the entropy source at a time. -/
structure Boundary.New (b : Boundary) (s : Store) (t : ℤ) (now : Timestamp) : Prop where
  nowText : b.now = now.text
  later : t ≤ now.instant
  eventIds : s.FreshIds b.eventIds

variable {g : Gateway} {env : WireEnvelope} {b : Boundary} {t : ℤ} {now : Timestamp}

/-- A proposal is decided on the stored deal, under its own mandate. -/
theorem ProposalHandled.advances {payload : ProposalPayload} {done : Except PyError Answer × Store}
    (hh : ProposalHandled g env payload b done) (h : g.InOrder t) (hb : b.New g.store t now) :
    Advances g.signer now g.store done.2 := by
  cases hh with
  | unknown | audience | raised => exact h.orderly.stays hb.later
  | processed record deal claim at' hr hd ha hc hn r s hp =>
    obtain ⟨recordId, hl, hrecord⟩ := Option.bind_eq_some_iff.1 hr
    rw [hb.nowText] at hc hp
    have hproper : Call.Proper g.signer now g.store
        (.request (proposalInput g env payload b record claim deal at') now.text) :=
      h.orderly.request_proper hd (h.linked _ _ hl) hrecord hc rfl rfl
    have hadvances := h.orderly.advances hproper hb.later hb.eventIds
    rw [Call.run, hp] at hadvances
    exact hadvances

theorem EventHandled.advances {payload : CounterpartyEventPayload}
    {done : Except PyError Answer × Store} (hh : EventHandled g env payload b done)
    (h : g.InOrder t) (hb : b.New g.store t now) : Advances g.signer now g.store done.2 := by
  cases hh with
  | refused => exact h.orderly.stays hb.later
  | committed deal event hd ha he r s hc =>
    have hadvances := h.orderly.advances
      (c := .other (.commitTransition (counterpartyRequest g env payload b event)))
      ⟨rfl, rfl⟩ hb.later hb.eventIds
    rw [Call.run, LedgerOp.run, hc] at hadvances
    exact hadvances

theorem processMessage_advances (h : g.InOrder t) (hb : b.New g.store t now) (env : WireEnvelope) :
    Advances g.signer now g.store (processMessage g env b).2.store := by
  have hcases := processMessage_cases g env b
  generalize processMessage g env b = done at hcases ⊢
  cases hcases with
  | refused | again | receipt => exact h.orderly.stays hb.later
  | proposal payload _ done hh _ =>
    rw [keep_store]
    exact hh.advances h hb
  | event payload _ done hh _ =>
    rw [keep_store]
    exact hh.advances h hb

theorem processMessage_state (g : Gateway) (env : WireEnvelope) (b : Boundary) :
    (processMessage g env b).2.signer = g.signer ∧
      (processMessage g env b).2.dealRecords = g.dealRecords := by
  have hcases := processMessage_cases g env b
  generalize processMessage g env b = done at hcases ⊢
  cases hcases with
  | refused | again | receipt => exact ⟨rfl, rfl⟩
  | proposal _ _ done | event _ _ done =>
    obtain ⟨_ | _, s⟩ := done <;> exact ⟨rfl, rfl⟩

theorem registerDeal_inOrder (h : g.InOrder t) (ht : t ≤ now.instant) (dealId createdAt : String)
    {record : AuthorityRecord} (hr : g.store.records.get? record.recordId = none) :
    (registerDeal g dealId record createdAt).2.InOrder now.instant ∧
      (registerDeal g dealId record createdAt).2.signer = g.signer := by
  obtain ⟨hcreated, hregistered⟩ := h.orderly.register ht dealId createdAt hr
  unfold registerDeal
  generalize g.store.createDeal (.fresh dealId) createdAt = r at hcreated hregistered ⊢
  obtain ⟨r, s⟩ := r
  cases r with
  | error e => exact ⟨⟨hcreated.orderly, h.linked.trans hcreated.links⟩, rfl⟩
  | ok _ =>
    have hlinked := @Store.linkDealRecord_ok (s.putRecord record) dealId record.recordId
    dsimp only at hregistered ⊢
    generalize (s.putRecord record).linkDealRecord dealId record.recordId = r
      at hregistered hlinked ⊢
    obtain ⟨r, s'⟩ := r
    have hle := h.linked.trans hregistered.links
    cases r with
    | error e => exact ⟨⟨hregistered.orderly, hle⟩, rfl⟩
    | ok _ => exact ⟨⟨hregistered.orderly, hle.set (hlinked rfl)⟩, rfl⟩

/-! ## Every run -/

/-- The gateway with the time of its last step.  What it had not stored is lost
    in a restart, also the answers that its dedup table had not got. -/
inductive GatewayLife : Gateway × ℤ → Gateway × ℤ → Prop
  | register {g : Gateway} {t : ℤ} (dealId createdAt : String) (record : AuthorityRecord)
      (now : Timestamp) (ht : t ≤ now.instant) (hr : g.store.records.get? record.recordId = none) :
      GatewayLife (g, t) ((registerDeal g dealId record createdAt).2, now.instant)
  | message {g : Gateway} {t : ℤ} (env : WireEnvelope) (b : Boundary) (now : Timestamp)
      (hb : b.New g.store t now) : GatewayLife (g, t) ((processMessage g env b).2, now.instant)
  | restart {g : Gateway} {t : ℤ} (identity : GatewayIdentity)
      (dedup : Dict (String × String) (String × Answer)) (peers : Dict String GatewayIdentity)
      (maxAgeSeconds : Option ℤ) (screen : ContentScreen) : GatewayLife (g, t)
        (buildGatewayState identity g.signer g.store dedup peers maxAgeSeconds screen, t)

/-- The gateway lives on, or the ledger has a proper call of another process:
    of the operator's console, or of a registration that stops after it. -/
inductive ServedStep : Gateway × ℤ → Gateway × ℤ → Prop
  | own {q q' : Gateway × ℤ} (h : GatewayLife q q') : ServedStep q q'
  | other {g : Gateway} {t : ℤ} (c : Call) (ids : EventIds) (now : Timestamp)
      (ht : t ≤ now.instant) (hc : c.Proper g.signer now g.store) (hf : g.store.FreshIds ids) :
      ServedStep (g, t) ({ g with store := c.run g.signer ids g.store }, now.instant)

theorem GatewayLife.inOrder {q q' : Gateway × ℤ} (hstep : GatewayLife q q') (h : q.1.InOrder q.2)
    (hs : q.1.signer.Signs) : q'.1.InOrder q'.2 ∧ q'.1.signer.Signs := by
  cases hstep with
  | register dealId createdAt record now ht hr =>
    obtain ⟨hin, hsigner⟩ := registerDeal_inOrder h ht dealId createdAt hr
    exact ⟨hin, hsigner ▸ hs⟩
  | @message g t env b now hb =>
    obtain ⟨hsigner, hrecords⟩ := processMessage_state g env b
    have hadvances := processMessage_advances h hb env
    refine ⟨⟨?_, ?_⟩, hsigner ▸ hs⟩
    · rw [hsigner]
      exact hadvances.orderly
    · rw [hrecords]
      exact h.linked.trans hadvances.links
  | restart => exact ⟨⟨h.orderly, .refl _⟩, hs⟩

/-- A gateway that is built on an empty ledger, with a key whose signatures
    verify. -/
def servedGateway : System (Gateway × ℤ) where
  init q := q.1.store = .empty ∧ q.1.dealRecords = .empty ∧ q.1.signer.Signs
  step := ServedStep

theorem servedGateway_inOrder : servedGateway.Invariant fun q =>
    q.1.InOrder q.2 ∧ q.1.signer.Signs where
  init := by
    rintro ⟨g, t⟩ ⟨hstore, hrecords, hsigns⟩
    refine ⟨⟨?_, ?_⟩, hsigns⟩
    · rw [show g.store = .empty from hstore]
      exact orderly_empty t
    · rw [show g.dealRecords = .empty from hrecords]
      rintro k v ⟨⟩
  step := by
    rintro q q' - ⟨h, hs⟩ hstep
    cases hstep with
    | own hlife => exact hlife.inOrder h hs
    | other c ids now ht hc hf =>
      have hadvances := h.orderly.advances hc ht hf
      exact ⟨⟨hadvances.orderly, h.linked.trans hadvances.links⟩, hs⟩

/-- Whatever peers send, in whatever order, with restarts and the operator's
    calls in between, the books of every deal are in order: the row is the
    replay of the chain, the chain verifies, no proposal moved the deal by
    itself, none under a revoked mandate, and the committed amount is covered
    by the cap of the linked mandate and the logged grants. -/
theorem gateway_keeps_books {q : Gateway × ℤ} (h : servedGateway.Reachable q) {dealId : String}
    {deal : Deal} (hd : q.1.store.deals.get? dealId = some deal) :
    q.1.store.Books q.1.signer dealId deal ∧
      (verifyChain (q.1.store.eventsFor dealId) q.1.signer.publicKey).ok = true ∧
      ∀ recordId ∈ q.1.dealRecords.get? dealId,
        q.1.store.dealLinks.get? dealId = some recordId := by
  obtain ⟨hin, hs⟩ := servedGateway_inOrder.holds h
  have hbooks := hin.orderly.books hd
  exact ⟨hbooks, hbooks.written.verifies hs, fun recordId hr => hin.linked _ _ hr⟩

/-! ## A registration that stopped -/

/-- A stored deal without a mandate, compared with the store at an earlier
    time: only counterparties had events on its chain, and nothing was
    committed. -/
structure Unlinked (s₀ : Store) (id : String) (s : Store) (dealRecords : Dict String String) :
    Prop where
  link : s.dealLinks.get? id = none
  registry : dealRecords.get? id = none
  deal : ∃ deal₀ deal, s₀.deals.get? id = some deal₀ ∧ s.deals.get? id = some deal ∧
    deal.committedMinor = deal₀.committedMinor ∧ deal.openApprovals = deal₀.openApprovals
  chain : ∃ grown, s.eventsFor id = s₀.eventsFor id ++ grown ∧
    ∀ e ∈ grown, e.actorKind = .counterparty

variable {s₀ s s' : Store} {dealRecords : Dict String String} {id : String}

omit [Platform] in
/-- What keeps the deal and its chain, and links nothing to it. -/
theorem Unlinked.kept (h : Unlinked s₀ id s dealRecords) (hl : s'.dealLinks.get? id = none)
    (hd : s'.deals.get? id = s.deals.get? id) (he : s'.eventsFor id = s.eventsFor id) :
    Unlinked s₀ id s' dealRecords :=
  ⟨hl, h.registry, hd ▸ h.deal, he ▸ h.chain⟩

/-- A transition without an amount commits nothing. -/
theorem Unlinked.transition {signer : GatewaySigner} {ids : EventIds} {req : TransitionRequest}
    (h : Unlinked s₀ id s dealRecords) (hk : req.actorKind = .counterparty)
    (ha : req.amountMinor = none) :
    Unlinked s₀ id (s.commitTransition req signer ids).2 dealRecords := by
  have hlinks : (s.commitTransition req signer ids).2.dealLinks = s.dealLinks := by
    have hcases := s.commitTransition_cases req signer ids
    generalize s.commitTransition req signer ids = r at hcases ⊢
    cases hcases <;> rfl
  have hstep : DealStep signer id s (.commitTransition req)
      (s.commitTransition req signer ids).2 := dealStep_commitTransition s req id
  generalize (s.commitTransition req signer ids).2 = s' at hlinks hstep ⊢
  have hlink : s'.dealLinks.get? id = none := hlinks ▸ h.link
  cases hstep with
  | kept _ _ hd he => exact h.kept hlink hd he
  | transitioned _ deal chain target plan hid hd hc hn ht hp hs =>
    obtain ⟨deal₀, deal', hd₀, hd', hcommitted, happrovals⟩ := h.deal
    obtain rfl : deal = deal' := Option.some.inj (hd.symm.trans hd')
    obtain ⟨grown, hchain, hgrown⟩ := h.chain
    subst hid
    rw [Store.eventsFor_of_get? hc] at hchain
    cases hp with
    | applied mid eid =>
      refine ⟨hlink, h.registry, ⟨deal₀, _, hd₀, Dict.get?_set_self .., ?_, happrovals⟩, ?_⟩
      · rw [applyEvent_committedMinor, ha]
        simpa using hcommitted
      · refine ⟨grown ++ extend chain.length (lastHash chain genesisHash)
          (req.messages signer mid chain.length (lastHash chain genesisHash)) fun n prev =>
            req.transitionEvent signer eid n prev deal
              (applyEvent deal req.event target req.amountMinor), ?_, ?_⟩
        · rw [Store.eventsFor_of_get? (Dict.get?_set_self ..), ← List.append_assoc, ← hchain]
        · intro e he
          rcases List.mem_append.1 he with he | he
          · exact hgrown e he
          · rw [extend, List.mem_append, List.mem_singleton] at he
            rcases he with he | rfl
            · unfold TransitionRequest.messages at he
              split at he
              · rw [List.mem_singleton] at he
                rw [he]
                exact hk
              · cases he
            · exact hk

/-- A proposal that is decided is on another deal. -/
theorem ProposalHandled.unlinked {payload : ProposalPayload}
    {done : Except PyError Answer × Store} (hh : ProposalHandled g env payload b done)
    (hin : g.InOrder t) (h : Unlinked s₀ id g.store g.dealRecords) :
    Unlinked s₀ id done.2 g.dealRecords := by
  cases hh with
  | unknown | audience | raised => exact h
  | processed record deal claim at' hr hd ha hc hn r s hp =>
    have hne : payload.dealId ≠ id := by
      rintro rfl
      obtain ⟨recordId, hl, -⟩ := Option.bind_eq_some_iff.1 hr
      rw [h.registry] at hl
      cases hl
    generalize hpi : proposalInput g env payload b record claim deal at' = pi at hp
    have hcases := processRequest_cases g.store pi g.signer b.now b.eventIds
    rw [hp] at hcases
    rcases hcases with hs | ⟨-, hs⟩
    · exact (show s = g.store from hs) ▸ h
    · have hlinks : (g.store.commitRequest (pi.commitRequest b.now) g.signer b.eventIds).2.dealLinks
          = g.store.dealLinks := by
        have hcases := g.store.commitRequest_cases (pi.commitRequest b.now) g.signer b.eventIds
        generalize g.store.commitRequest (pi.commitRequest b.now) g.signer b.eventIds = r
          at hcases ⊢
        cases hcases <;> rfl
      have hstep : DealStep g.signer id g.store (.commitRequest (pi.commitRequest b.now))
          (g.store.commitRequest (pi.commitRequest b.now) g.signer b.eventIds).2 :=
        dealStep_commitRequest g.store _ id
      rw [← hs] at hlinks hstep
      cases hstep with
      | kept _ _ hd' he => exact h.kept (hlinks ▸ h.link) hd' he
      | requested req deal' chain plan hid =>
        subst hpi
        exact absurd ((hin.orderly.dealId hd).symm.trans hid) hne

theorem EventHandled.unlinked {payload : CounterpartyEventPayload}
    {done : Except PyError Answer × Store} (hh : EventHandled g env payload b done)
    (h : Unlinked s₀ id g.store g.dealRecords) : Unlinked s₀ id done.2 g.dealRecords := by
  cases hh with
  | refused => exact h
  | committed deal event hd ha he r s hc =>
    have hafter : Unlinked s₀ id (g.store.commitTransition
        (counterpartyRequest g env payload b event) g.signer b.eventIds).2 g.dealRecords :=
      h.transition rfl rfl
    rw [hc] at hafter
    exact hafter

theorem processMessage_unlinked (hin : g.InOrder t) (h : Unlinked s₀ id g.store g.dealRecords)
    (env : WireEnvelope) (b : Boundary) :
    Unlinked s₀ id (processMessage g env b).2.store (processMessage g env b).2.dealRecords := by
  rw [(processMessage_state g env b).2]
  have hcases := processMessage_cases g env b
  generalize processMessage g env b = done at hcases ⊢
  cases hcases with
  | refused | again | receipt => exact h
  | proposal payload _ done hh _ =>
    rw [keep_store]
    exact hh.unlinked hin h
  | event payload _ done hh _ =>
    rw [keep_store]
    exact hh.unlinked h

omit [Platform] in
/-- A deal that is stored is not registered again. -/
theorem registerDeal_stored {g : Gateway} {deal : Deal} (hd : g.store.deals.get? id = some deal)
    (record : AuthorityRecord) (createdAt : String) :
    registerDeal g id record createdAt =
      (.error (.valueError s!"deal {id} already exists"), g) := by
  have hcreate : g.store.createDeal (.fresh id) createdAt =
      (.error (.valueError s!"deal {id} already exists"), g.store) :=
    if_pos (Option.isSome_iff_exists.2 ⟨deal, hd⟩)
  rw [registerDeal, hcreate]

omit [Platform] in
theorem registerDeal_unlinked (h : Unlinked s₀ id g.store g.dealRecords) (dealId createdAt : String)
    (record : AuthorityRecord) : Unlinked s₀ id (registerDeal g dealId record createdAt).2.store
      (registerDeal g dealId record createdAt).2.dealRecords := by
  by_cases hid : dealId = id
  · obtain ⟨-, deal, -, hd, -⟩ := h.deal
    rw [hid, registerDeal_stored hd]
    exact h
  · have hne : id ≠ dealId := fun h => hid h.symm
    unfold registerDeal
    have hcreated : Unlinked s₀ id (g.store.createDeal (.fresh dealId) createdAt).2
        g.dealRecords := by
      unfold Store.createDeal
      split_ifs
      · exact h
      · exact h.kept h.link (Dict.get?_set_ne _ _ hne) (Store.eventsFor_of_set_ne hid rfl)
    generalize g.store.createDeal (.fresh dealId) createdAt = r at hcreated ⊢
    obtain ⟨r, s⟩ := r
    cases r with
    | error e => exact hcreated
    | ok _ =>
      have hlinked : Unlinked s₀ id ((s.putRecord record).linkDealRecord dealId record.recordId).2
          g.dealRecords := by
        unfold Store.linkDealRecord
        split
        · split_ifs
          · exact hcreated.kept hcreated.link rfl rfl
          · exact hcreated.kept ((Dict.get?_set_ne _ _ hne).trans hcreated.link) rfl rfl
        · exact hcreated.kept ((Dict.get?_set_ne _ _ hne).trans hcreated.link) rfl rfl
      dsimp only
      generalize (s.putRecord record).linkDealRecord dealId record.recordId = r at hlinked ⊢
      obtain ⟨r, s'⟩ := r
      cases r with
      | error e => exact hlinked
      | ok _ =>
        exact ⟨hlinked.link, (Dict.get?_set_ne _ _ hne).trans h.registry, hlinked.deal,
          hlinked.chain⟩

/-- Neither messages nor registrations nor restarts link a mandate to a deal
    that was stored without one. -/
theorem GatewayLife.unlinked {q q' : Gateway × ℤ} (hstep : GatewayLife q q')
    (hin : q.1.InOrder q.2) (h : Unlinked s₀ id q.1.store q.1.dealRecords) :
    Unlinked s₀ id q'.1.store q'.1.dealRecords := by
  cases hstep with
  | register dealId createdAt record now ht hr =>
    exact registerDeal_unlinked h dealId createdAt record
  | message env b now hb => exact processMessage_unlinked hin h env b
  | restart => exact ⟨h.link, h.link, h.deal, h.chain⟩

/-- A proposal on a deal without a mandate is answered 404. -/
theorem processMessage_of_unlinked (h : Unlinked s₀ id g.store g.dealRecords)
    {payload : ProposalPayload} (hp : screenMessage g env b = .ok (.proposal payload))
    (hid : payload.dealId = id) :
    (processMessage g env b).1 = .ok (errorAnswer 404 s!"deal {id} is not known to this gateway") ∧
      (processMessage g env b).2.store = g.store := by
  have hnone : g.recordFor payload.dealId = none := by
    rw [Gateway.recordFor, hid, h.registry]
    rfl
  have hhandled : handleProposal g env payload b =
      (.ok (errorAnswer 404 s!"deal {id} is not known to this gateway"), g.store) := by
    rw [← hid]
    unfold handleProposal
    rw [hnone]
  unfold processMessage
  rw [hp]
  dsimp only
  rw [keep_answer, keep_store, hhandled]
  exact ⟨rfl, rfl⟩

/-- A registration that stopped before the mandate was linked is not taken up
    again, though `register_deal` is called idempotent.  Through all messages,
    registrations and restarts the deal has no mandate: each proposal on it is
    answered 404, nothing is committed, and only counterparties move it. -/
theorem half_registered_deal {q q' : Gateway × ℤ} (h : servedGateway.Reachable q)
    (hd : (q.1.store.deals.get? id).isSome) (hl : q.1.store.dealLinks.get? id = none)
    (hrun : Relation.ReflTransGen GatewayLife q q') :
    Unlinked q.1.store id q'.1.store q'.1.dealRecords ∧
      (∀ record createdAt, registerDeal q'.1 id record createdAt =
        (.error (.valueError s!"deal {id} already exists"), q'.1)) ∧
      ∀ env b payload, screenMessage q'.1 env b = .ok (.proposal payload) → payload.dealId = id →
        (processMessage q'.1 env b).1 =
            .ok (errorAnswer 404 s!"deal {id} is not known to this gateway") ∧
          (processMessage q'.1 env b).2.store = q'.1.store := by
  obtain ⟨deal, hd⟩ := Option.isSome_iff_exists.1 hd
  have hunlinked : servedGateway.Reachable q' ∧
      Unlinked q.1.store id q'.1.store q'.1.dealRecords := by
    induction hrun with
    | refl =>
      have hregistry : q.1.dealRecords.get? id = none := by
        rw [← Option.not_isSome_iff_eq_none]
        intro hsome
        obtain ⟨recordId, hr⟩ := Option.isSome_iff_exists.1 hsome
        rw [(servedGateway_inOrder.holds h).1.linked _ _ hr] at hl
        cases hl
      exact ⟨h, hl, hregistry, ⟨deal, deal, hd, hd, rfl, rfl⟩, [], (List.append_nil _).symm,
        by rintro e ⟨⟩⟩
    | tail _ hstep ih =>
      exact ⟨ih.1.step (.own hstep), hstep.unlinked (servedGateway_inOrder.holds ih.1).1 ih.2⟩
  obtain ⟨-, hunlinked⟩ := hunlinked
  refine ⟨hunlinked, fun record createdAt => ?_, fun env b payload hp hid => ?_⟩
  · obtain ⟨-, deal', -, hd', -⟩ := hunlinked.deal
    exact registerDeal_stored hd' record createdAt
  · exact processMessage_of_unlinked hunlinked hp hid

end

section
open Sample
attribute [local instance] Sample.platform

theorem Sample.blank_served : servedGateway.Reachable (blank, now.instant) :=
  .init ⟨rfl, rfl, signer_signs⟩

theorem Sample.boundary_new {s : Store} (h : s.approvals = .empty) :
    boundary.New s now.instant now :=
  ⟨rfl, le_rfl, fun n => by rw [h]; rfl⟩

/-- The books after the peer's request for a quote. -/
theorem gateway_keeps_books_quoteRequested : ∃ deal,
    (processMessage opened (message '1' .quoteRequested) boundary).2.store.Books signer dealId
      deal := by
  have hreach : servedGateway.Reachable
      ((processMessage opened (message '1' .quoteRequested) boundary).2, now.instant) :=
    (blank_served.step (.own (.register dealId now.text record now le_rfl rfl))).step
      (.own (.message _ boundary now (boundary_new rfl)))
  have hd : ((processMessage opened (message '1' .quoteRequested)
      boundary).2.store.deals.get? dealId).isSome = true := by decide +kernel
  obtain ⟨deal, hd⟩ := Option.isSome_iff_exists.1 hd
  exact ⟨deal, (gateway_keeps_books hreach hd).1⟩

/-- The gateway stopped after it had created the deal, and was built again. -/
def Sample.rebuilt : Gateway :=
  buildGatewayState identity signer (Store.empty.createDeal (.fresh dealId) now.text).2 .empty
    blank.peers none blank.screen

/-- The peer moves the deal, and its registration is refused. -/
theorem half_registered_deal_rebuilt :
    let g := (processMessage rebuilt (message '1' .quoteRequested) boundary).2
    Unlinked rebuilt.store dealId g.store g.dealRecords ∧
      registerDeal g dealId record now.text =
        (.error (.valueError s!"deal {dealId} already exists"), g) := by
  intro g
  have hstopped : servedGateway.Reachable
      ({ blank with store := (Store.empty.createDeal (.fresh dealId) now.text).2 }, now.instant) :=
    blank_served.step (.other (.other (.createDeal dealId now.text)) ids now le_rfl trivial
      fun _ => rfl)
  have hrebuilt : servedGateway.Reachable (rebuilt, now.instant) :=
    hstopped.step (.own (.restart identity .empty blank.peers none blank.screen))
  have hstored : (rebuilt.store.deals.get? dealId).isSome := rfl
  obtain ⟨hunlinked, hregister, -⟩ := half_registered_deal hrebuilt hstored rfl
    (.single (.message (message '1' .quoteRequested) boundary now (boundary_new rfl)))
  exact ⟨hunlinked, hregister record now.text⟩

end

end Mandate
