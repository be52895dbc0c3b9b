/-
  A commit on the tables is the commit of the in-memory store.

  `Tables.store` reads the tables as an in-memory store.  On tables whose
  chains are numbered (`Tables.Sound`) each transaction that runs alone raises,
  or answers what the in-memory operation answers and leaves its store
  (`Follows`); it raises only where that operation does, or where a row does
  not fit.
-/
import Mandate.Postgres.Sequential

namespace Mandate

/-! ## Tables as a store -/

namespace Tables

/-- The tables as an in-memory store. -/
def store (t : Tables) : Store :=
  { deals := t.deals
    dealCreatedAt := t.dealCreatedAt
    dealLinks := t.dealLinks
    events := t.deals.mapWithKey fun dealId _ => t.eventsFor dealId
    records := t.authorityRecords
    revocations := t.revocations
    approvals := t.approvals
    nonceOwners := t.seenNonces
    seenRequests := t.seenRequests
    decisions := t.idempotency
    seenCommands := t.seenCommands }

@[simp] theorem store_deals (t : Tables) : t.store.deals = t.deals := rfl

@[simp] theorem store_approvals (t : Tables) : t.store.approvals = t.approvals := rfl

@[simp] theorem store_records (t : Tables) : t.store.records = t.authorityRecords := rfl

@[simp] theorem store_revocations (t : Tables) : t.store.revocations = t.revocations := rfl

@[simp] theorem store_seenCommands (t : Tables) : t.store.seenCommands = t.seenCommands := rfl

/-- Every event row is on the chain of a stored deal, at its number, and every
    record under its own id. -/
structure Sound (t : Tables) : Prop where
  numbered : ∀ dealId, Numbered dealId 0 (t.rows dealId)
  deals : ∀ e ∈ t.events, (t.deals.get? e.dealId).isSome
  keyed : ∀ id record, t.authorityRecords.get? id = some record → record.recordId = id

theorem sound_empty : empty.Sound := ⟨fun _ => .nil, by rintro e ⟨⟩, by rintro id r ⟨⟩⟩

end Tables

theorem Numbered.lastRow {dealId : String} {n : ℕ} {g : List Event} (h : Numbered dealId n g) :
    lastRow g = g.getLast? := by
  induction g generalizing n with
  | nil => rfl
  | cons e g ih =>
    obtain ⟨-, hn, htail⟩ := numbered_cons.1 h
    rw [Mandate.lastRow, ih htail]
    cases hl : g.getLast? with
    | none => rw [List.getLast?_eq_none_iff.1 hl]; rfl
    | some e' =>
      have hle : e.sequenceNumber ≤ e'.sequenceNumber := by
        have := ((htail.exists_iff e'.sequenceNumber).1 ⟨e', List.mem_of_getLast? hl, rfl⟩).1
        omega
      simp only [if_pos hle, List.getLast?_cons, hl, Option.getD_some]

/-- The last event of a chain has the last number. -/
theorem Numbered.getLast {dealId : String} {n : ℕ} {g : List Event} (h : Numbered dealId n g)
    {e : Event} (he : g.getLast? = some e) : e.sequenceNumber + 1 = n + g.length := by
  obtain ⟨g', rfl⟩ := List.getLast?_eq_some_iff.1 he
  have hlast := congrArg List.getLast? h.numbers
  simp only [List.map_append, List.map_cons, List.map_nil, List.getLast?_concat,
    List.length_append, List.length_cons, List.length_nil, List.range'_concat, Option.some.injEq,
    Nat.one_mul, Nat.zero_add] at hlast ⊢
  omega

namespace Tables.Sound

variable {t t' : Tables} {dealId : String} {g : List Event}

theorem eventsFor (h : t.Sound) (dealId : String) : t.eventsFor dealId = t.rows dealId := by
  refine List.mergeSort_of_pairwise ?_
  have hp : ((t.rows dealId).map Event.sequenceNumber).Pairwise (· < ·) := by
    rw [(h.numbered dealId).numbers]
    exact List.pairwise_lt_range'
  exact (List.pairwise_map.1 hp).imp fun hlt => decide_eq_true hlt.le

theorem chainHead (h : t.Sound) (dealId : String) :
    t.chainHead dealId = ((t.rows dealId).length, lastHash (t.rows dealId) genesisHash) := by
  rw [Tables.chainHead, lastHash, (h.numbered dealId).lastRow]
  cases hl : (t.rows dealId).getLast? with
  | none => rw [List.getLast?_eq_none_iff.1 hl]; rfl
  | some e =>
    have := (h.numbered dealId).getLast hl
    simp only [Prod.mk.injEq, and_true]
    omega

/-- The chain of a stored deal. -/
theorem store_events (h : t.Sound) {deal : Deal} (hd : t.deals.get? dealId = some deal) :
    t.store.events.get? dealId = some (t.rows dealId) := by
  simp only [store, Dict.get?_mapWithKey, hd, Option.map_some, h.eventsFor]

/-- Other rows do not matter, as long as no deal goes away. -/
theorem congr (h : t.Sound) (he : t'.events = t.events)
    (hk : ∀ i, (t.deals.get? i).isSome → (t'.deals.get? i).isSome)
    (hr : t'.authorityRecords = t.authorityRecords) : t'.Sound where
  numbered i := by
    have hi := h.numbered i
    rwa [rows, ← he] at hi
  deals e hm := hk _ (h.deals e (he ▸ hm))
  keyed := hr ▸ h.keyed

theorem rows_append (hg : ∀ e ∈ g, e.dealId = dealId) (he : t'.events = t.events ++ g)
    (i : String) : t'.rows i = t.rows i ++ if i = dealId then g else [] := by
  rw [rows, he, List.filter_append]
  refine congrArg _ ?_
  split_ifs with hi
  · exact List.filter_eq_self.2 fun e hm => decide_eq_true (hi ▸ hg e hm)
  · exact List.filter_eq_nil_iff.2 fun e hm => by simpa [hg e hm] using Ne.symm hi

/-- Events that go on from the end of the chain of a stored deal. -/
theorem append (h : t.Sound) (hd : (t.deals.get? dealId).isSome)
    (hg : Numbered dealId (t.rows dealId).length g) (he : t'.events = t.events ++ g)
    (hk : ∀ i, (t.deals.get? i).isSome → (t'.deals.get? i).isSome)
    (hr : t'.authorityRecords = t.authorityRecords) : t'.Sound where
  numbered i := by
    rw [rows_append hg.dealId he]
    split_ifs with hi
    · subst hi
      exact (h.numbered i).append (by rwa [Nat.zero_add])
    · rw [List.append_nil]
      exact h.numbered i
  deals e hm := by
    rw [he] at hm
    rcases List.mem_append.1 hm with hm | hm
    · exact hk _ (h.deals e hm)
    · exact hg.dealId e hm ▸ hk _ hd
  keyed := hr ▸ h.keyed

/-- A record that is put under its own id. -/
theorem putRecord (h : t.Sound) {record : AuthorityRecord} : Sound { t with
    authorityRecords := t.authorityRecords.set record.recordId record } where
  numbered := h.numbered
  deals := h.deals
  keyed id r hr := by
    simp only [Dict.get?_set] at hr
    split_ifs at hr with hid
    · cases hr
      exact hid.symm
    · exact h.keyed id r hr

theorem store_append (h : t.Sound) {deal newDeal : Deal} (hd : t.deals.get? dealId = some deal)
    (hg : Numbered dealId (t.rows dealId).length g) (he : t'.events = t.events ++ g)
    (hdeals : t'.deals = t.deals.set dealId newDeal)
    (hr : t'.authorityRecords = t.authorityRecords) :
    t'.store.events = t.store.events.set dealId (t.rows dealId ++ g) := by
  have ht' : t'.Sound := by
    refine h.append (hd ▸ rfl) hg he (fun i hi => ?_) hr
    rw [hdeals, Dict.get?_set]
    split_ifs
    · rfl
    · exact hi
  have hrows := rows_append hg.dealId he
  simp only [store, hdeals, Dict.mapWithKey_set, ht'.eventsFor, hrows, h.eventsFor, if_true]
  refine Dict.set_mapWithKey_congr (fun i _ hi => ?_) ..
  rw [if_neg hi, List.append_nil]

end Tables.Sound

/-! ## Written rows -/

theorem view_events (g : List Event) : ∀ t : Tables,
    postgres.view t (g.map .event) = { t with events := t.events ++ g } := by
  induction g with
  | nil => intro t; simp
  | cons e g ih =>
    intro t
    rw [List.map_cons, Database.view_cons, ih]
    simp [Tables.apply]

/-- The tables after a plan's events and the deal it leaves. -/
def Tables.afterPlan (t : Tables) (dealId : String) (plan : CommitPlan) : Tables :=
  { t with events := t.events ++ plan.events, deals := t.deals.set dealId plan.newDeal }

theorem view_plan {t : Tables} {dealId : String} {deal : Deal} {plan : CommitPlan}
    {claims : List Write} (hd : (postgres.view t claims).deals.get? dealId = some deal) :
    postgres.view t (claims ++ (plan.events.map .event ++ [.updateDeal dealId plan.newDeal])) =
      (postgres.view t claims).afterPlan dealId plan := by
  rw [Database.view_append, Database.view_append, view_events]
  simp only [Database.view_cons, Database.view_nil, postgres_apply, Tables.apply, hd,
    Option.isSome_some, if_true, Tables.afterPlan]

namespace Tables.Sound

variable {t : Tables} {dealId : String} {deal : Deal} {plan : CommitPlan}

theorem afterPlan (h : t.Sound) (hd : t.deals.get? dealId = some deal)
    (hg : Numbered dealId (t.rows dealId).length plan.events) :
    (t.afterPlan dealId plan).Sound := by
  refine h.append (hd ▸ rfl) hg rfl (fun i hi => ?_) rfl
  simp only [Tables.afterPlan, Dict.get?_set]
  split_ifs
  · rfl
  · exact hi

theorem store_afterPlan (h : t.Sound) (hd : t.deals.get? dealId = some deal)
    (hg : Numbered dealId (t.rows dealId).length plan.events) :
    (t.afterPlan dealId plan).store = t.store.apply dealId (t.rows dealId) plan := by
  have hevents : (t.afterPlan dealId plan).store.events = _ := h.store_append hd hg rfl rfl rfl
  rw [Store.apply, Store.append, ← hevents]
  rfl

end Tables.Sound

/-! ## Writes that are taken -/

/-- The ids of a commit are its own. -/
structure EventIds.Fresh (ids : EventIds) (t : Tables) : Prop where
  drawn : ids.drawn.Nodup
  events : ∀ id ∈ ids.drawn, ∀ e ∈ t.events, e.eventId ≠ id
  approvals : ∀ id ∈ ids.drawn, t.approvals.get? id = none

/-- What a commit leaves fits its columns. -/
structure CommitResult.Fits (r : CommitResult) : Prop where
  numbers : ∀ e ∈ r.events, FitsBigint e.sequenceNumber
  deal : ∀ deal ∈ r.newDeal, deal.Fits

theorem fits_event {e : Event} : (Write.event e).fits = true ↔ FitsBigint e.sequenceNumber := by
  rw [Write.fits, decide_eq_true_eq]

theorem fits_updateDeal {dealId : String} {deal : Deal} :
    (Write.updateDeal dealId deal).fits = true ↔ deal.Fits := by
  rw [Write.fits, decide_eq_true_eq]

/-- Events under new ids that go on from the last number of a stored deal. -/
theorem admits_events {t : Tables} {dealId : String} {g : List Event} {n : ℕ} {w : List Write}
    (hd : ((postgres.view t w).deals.get? dealId).isSome)
    (hn : ∀ e ∈ (postgres.view t w).events, e.dealId = dealId → e.sequenceNumber < n)
    (hg : Numbered dealId n g) (hids : (g.map Event.eventId).Nodup)
    (hfresh : ∀ e ∈ g, ∀ e' ∈ (postgres.view t w).events, e'.eventId ≠ e.eventId)
    (hfits : ∀ e ∈ g, FitsBigint e.sequenceNumber) :
    postgres.admits t w (g.map .event) := by
  induction g generalizing n w with
  | nil => rfl
  | cons e g ih =>
    obtain ⟨hdeal, hnum, htail⟩ := numbered_cons.1 hg
    rw [List.map_cons, List.nodup_cons] at hids
    have hview : postgres.view t (w ++ [.event e]) =
        { postgres.view t w with events := (postgres.view t w).events ++ [e] } := by
      rw [Database.view_append]; rfl
    have hc : postgres.conflicts (postgres.view t w) (.event e) = false := by
      rw [Bool.eq_false_iff]
      refine Postgres.not_conflicts fun k hk ht => ?_
      rcases List.mem_pair.1 hk with rfl | rfl
      · obtain ⟨e', he', hid⟩ := ht
        exact hfresh e (by simp) e' he' hid
      · obtain ⟨e', he', hid, hseq⟩ := ht
        have := hn e' he' (hid.trans hdeal)
        omega
    have ha : postgres.accepts (postgres.view t w) (.event e) = true := by
      rw [postgres.accepts_iff, postgres_fits, fits_event]
      refine ⟨hfits e (by simp), fun k hk => ?_⟩
      rw [List.mem_singleton.1 hk, postgres_taken, decide_eq_true_eq, hdeal]
      exact hd
    rw [List.map_cons, Database.admits, hc, ha]
    simp only [Bool.not_false, Bool.and_self, Bool.true_and]
    refine ih (by rw [hview]; exact hd) (fun e' he' hid => ?_) htail hids.2 (fun e₁ h₁ e' he' => ?_)
      fun e' he' => hfits e' (by simp [he'])
    · rw [hview] at he'
      rcases List.mem_append.1 he' with he' | he'
      · exact (hn e' he' hid).trans (Nat.lt_succ_self n)
      · rw [List.mem_singleton.1 he', hnum]
        exact Nat.lt_succ_self n
    · rw [hview] at he'
      rcases List.mem_append.1 he' with he' | he'
      · exact hfresh e₁ (by simp [h₁]) e' he'
      · rw [List.mem_singleton.1 he']
        exact fun hid => hids.1 (hid ▸ List.mem_map_of_mem h₁)

/-- The same, on a sound chain after claims that wrote no event. -/
theorem Tables.Sound.admits_events {t : Tables} (h : t.Sound) {dealId : String} {deal : Deal}
    {g : List Event} {w : List Write} {ids : EventIds} (hd : t.deals.get? dealId = some deal)
    (hwd : (postgres.view t w).deals = t.deals) (hwe : (postgres.view t w).events = t.events)
    (hg : Numbered dealId (t.rows dealId).length g) (hids : ids.Fresh t)
    (hsub : (g.map Event.eventId).Sublist ids.drawn)
    (hfits : ∀ e ∈ g, FitsBigint e.sequenceNumber) : postgres.admits t w (g.map .event) := by
  refine Mandate.admits_events (by rw [hwd, hd]; rfl) (fun e he hid => ?_) hg
    (hids.drawn.sublist hsub) (fun e he e' he' => ?_) hfits
  · rw [hwe] at he
    have := ((h.numbered dealId).exists_iff e.sequenceNumber).1
      ⟨e, List.mem_filter.2 ⟨he, decide_eq_true hid⟩, rfl⟩
    omega
  · rw [hwe] at he'
    exact hids.events _ (hsub.subset (List.mem_map_of_mem he)) e' he'

/-- Updates, whose values fit. -/
theorem admits_updates {t : Tables} : ∀ {es w : List Write},
    (∀ e ∈ es, e.keys = [] ∧ e.needs = [] ∧ e.fits) → postgres.admits t w es
  | [], _, _ => rfl
  | e :: es, w, h => by
    obtain ⟨hk, hn, hf⟩ := h e (by simp)
    have hc : postgres.conflicts (postgres.view t w) e = false := by
      simp only [Database.conflicts, postgres_keys, hk, List.any_nil]
    rw [Database.admits, hc, Postgres.accepts_of_free hf hn,
      admits_updates fun e' he' => h e' (List.mem_cons_of_mem _ he')]
    rfl

/-! ## Commits -/

variable [Platform]

/-- No decided approval changes. -/
def Store.Decides (s' s : Store) : Prop :=
  ∀ id approval, s.approvals.get? id = some approval → approval.status ≠ .pending →
    s'.approvals.get? id = some approval

/-- The transaction alone does what the in-memory operation does on the store
    of the tables: raises, refuses and writes nothing, or commits.  A commit
    raises only where its rows do not fit.  It leaves the same store, but for
    records and revocations that were `known` under another value. -/
inductive Follows (t : Tables) (ids : EventIds) (known : Prop) (p : Transaction CommitResult) :
    Except PyError CommitResult × Store → Prop
  | raises (error : PyError) (he : postgres.exec t p [] = .error error) :
      Follows t ids known p (.error error, t.store)
  | refuses (r : CommitResult) (ho : r.outcome ≠ .committed)
      (he : postgres.exec t p [] = .ok (r, [])) : Follows t ids known p (.ok r, t.store)
  | commits (r : CommitResult) (w : List Write) (s : Store) (ho : r.outcome = .committed)
      (honly : ∀ x, postgres.exec t p [] = .ok x → x = (r, w))
      (hok : ids.Fresh t → r.Fits → postgres.exec t p [] = .ok (r, w))
      (hsound : (postgres.view t w).Sound)
      (hdecided : (∃ x, postgres.exec t p [] = .ok x) → s.Decides t.store)
      (hsame : (postgres.view t w).store = { s with
        records := (postgres.view t w).authorityRecords
        revocations := (postgres.view t w).revocations })
      (hknown : known → (postgres.view t w).store = s) : Follows t ids known p (.ok r, s)

namespace Follows

variable {t : Tables} {ids : EventIds} {known : Prop} {p k : Transaction CommitResult}
  {r : CommitResult} {claims es w : List Write} {s : Store}

omit [Platform] in
/-- A commit that claims, writes, and comes to its end. -/
theorem of_writes (ho : r.outcome = .committed)
    (he : postgres.exec t p [] = postgres.exec t (.writes es k) claims)
    (hk : postgres.exec t k (claims ++ es) = .ok (r, w))
    (ha : ids.Fresh t → r.Fits → postgres.admits t claims es)
    (hsound : (postgres.view t w).Sound)
    (hdecided : postgres.admits t claims es → s.Decides t.store)
    (hsame : (postgres.view t w).store = { s with
      records := (postgres.view t w).authorityRecords
      revocations := (postgres.view t w).revocations })
    (hknown : known → (postgres.view t w).store = s) : Follows t ids known p (.ok r, s) := by
  refine .commits r w s ho (fun x hx => ?_) (fun hf hr => ?_) hsound (fun ⟨x, hx⟩ => ?_) hsame hknown
  · rw [he] at hx
    rw [postgres.exec_writes (postgres.admits_of_exec hx), hk] at hx
    exact (Except.ok.inj hx).symm
  · rw [he, postgres.exec_writes (ha hf hr), hk]
  · rw [he] at hx
    exact hdecided (postgres.admits_of_exec hx)

omit [Platform] in
/-- A commit that leaves the very same store. -/
theorem of_writes_same (ho : r.outcome = .committed)
    (he : postgres.exec t p [] = postgres.exec t (.writes es k) claims)
    (hk : postgres.exec t k (claims ++ es) = .ok (r, w))
    (ha : ids.Fresh t → r.Fits → postgres.admits t claims es)
    (hsound : (postgres.view t w).Sound) (hdecided : s.Decides t.store)
    (hstore : (postgres.view t w).store = s) : Follows t ids known p (.ok r, s) :=
  of_writes ho he hk ha hsound (fun _ => hdecided) (by rw [← hstore]; rfl) fun _ => hstore

end Follows

/-- Its key, its id and its nonce are free. -/
structure CommitRequest.Free (req : CommitRequest) (t : Tables) : Prop where
  key : t.idempotency.get? req.idempotencyKey = none
  clashes : ¬ req.Clashes t

/-- The tables with the claims of a request. -/
def Tables.claimed (t : Tables) (req : CommitRequest) : Tables :=
  { t with
    idempotency := t.idempotency.set req.idempotencyKey (req.proposalDigest, req.decision)
    seenRequests := insert req.requestId t.seenRequests
    seenNonces := t.seenNonces.set req.record.nonce req.record.recordId }

namespace Postgres

variable {t : Tables} {signer : GatewaySigner} {ids : EventIds}

omit [Platform] in
/-- A command that was not applied is claimed. -/
theorem exec_claimCommand {commandId : String} {deal : Deal} {k : Transaction CommitResult}
    (hn : commandId ∉ t.seenCommands) : postgres.exec t (claimCommand commandId deal k) [] =
      postgres.exec t k [.command commandId] := by
  have hc : ¬ postgres.conflicts (postgres.view t []) (.command commandId) = true :=
    not_conflicts fun k hk ht => hn (by rwa [List.mem_singleton.1 hk] at ht)
  rw [claimCommand, postgres.exec_claim_won _ hc (accepts_of_free rfl rfl), if_pos rfl]
  rfl

omit [Platform] in
theorem exec_unlessApplied {commandId : String} {deal : Deal} {k : Transaction CommitResult} :
    postgres.exec t (unlessApplied commandId deal k) [] =
      if commandId ∈ t.seenCommands then
        .ok (⟨.alreadyApplied, s!"command {commandId} already applied", [], some deal⟩, [])
      else postgres.exec t k [] := by
  rw [unlessApplied, Database.exec_select]
  simp only [Database.view_nil, postgres_ask, Tables.ask, decide_eq_true_eq]
  split_ifs
  · rfl
  · rfl

omit [Platform] in
/-- The events of a plan and the deal it leaves, and what the tables are then. -/
theorem admits_plan (h : t.Sound) {dealId : String} {deal : Deal} {plan : CommitPlan}
    {claims rest : List Write} {r : CommitResult} (hd : t.deals.get? dealId = some deal)
    (hwd : (postgres.view t claims).deals = t.deals)
    (hwe : (postgres.view t claims).events = t.events)
    (hg : Numbered dealId (t.rows dealId).length plan.events) (hids : ids.Fresh t)
    (hsub : (plan.events.map Event.eventId).Sublist ids.drawn) (hr : r.Fits)
    (he : r.events = plan.events)
    (hrest : postgres.admits t (claims ++ plan.events.map .event) rest) :
    postgres.admits t claims (plan.events.map .event ++ rest) := by
  rw [Database.admits_append, hrest, Bool.and_true]
  exact h.admits_events hd hwd hwe hg hids hsub fun e hm => hr.numbers e (he ▸ hm)

variable (signer ids) in
theorem exec_commitTransition (req : TransitionRequest) :
    postgres.exec t (commitTransition req signer ids) [] =
      match t.deals.get? req.dealId with
      | none => .ok (⟨.dealNotFound, "deal row not found", [], none⟩, [])
      | some deal =>
        if req.commandId ∈ t.seenCommands then
          .ok (⟨.alreadyApplied, s!"command {req.commandId} already applied", [], some deal⟩, [])
        else match transitionFor deal.state req.event with
          | none => .ok (⟨.staleState, s!"stale_state: event {pyRepr req.event.value} is not " ++
              s!"valid from stored state {deal.state.value}", [], none⟩, [])
          | some target =>
            match planCommitTransition signer deal (t.chainHead req.dealId).1
                (t.chainHead req.dealId).2 req target ids with
            | .error e => .error e
            | .ok plan => postgres.exec t (.writes
                (plan.events.map .event ++ [.updateDeal req.dealId plan.newDeal])
                (.done (Store.committed plan))) [.command req.commandId] := by
  rw [commitTransition, Database.exec_select]
  simp only [Database.view_nil, postgres_ask, Tables.ask]
  cases t.deals.get? req.dealId with
  | none => rfl
  | some deal =>
    simp only
    rw [exec_unlessApplied]
    split_ifs with hn
    · rfl
    · cases transitionFor deal.state req.event with
      | none => rfl
      | some target =>
        simp only
        rw [exec_claimCommand hn, Database.exec_select]
        have hhead : postgres.ask (postgres.view t [.command req.commandId])
            (.chainHead req.dealId) = t.chainHead req.dealId := rfl
        rw [hhead]
        generalize t.chainHead req.dealId = head
        obtain ⟨seq, prevHash⟩ := head
        simp only
        cases planCommitTransition signer deal seq prevHash req target ids with
        | error e => rfl
        | ok plan => rfl

theorem commitTransition_follows (h : t.Sound) (req : TransitionRequest) :
    Follows t ids True (commitTransition req signer ids)
      (t.store.commitTransition req signer ids) := by
  have hexec := exec_commitTransition (t := t) signer ids req
  unfold Store.commitTransition
  rw [Tables.store_deals, Tables.store_seenCommands]
  cases hd : t.deals.get? req.dealId with
  | none =>
    simp only [hd] at hexec
    exact .refuses _ (by simp) hexec
  | some deal =>
    simp only [hd] at hexec ⊢
    split_ifs at hexec ⊢ with hn
    · exact .refuses _ (by simp) hexec
    · cases ht : transitionFor deal.state req.event with
      | none =>
        simp only [ht] at hexec
        exact .refuses _ (by simp) hexec
      | some target =>
        simp only [ht, h.store_events hd, h.chainHead] at hexec ⊢
        cases hp : planCommitTransition signer deal (t.rows req.dealId).length
            (lastHash (t.rows req.dealId) genesisHash) req target ids with
        | error e =>
          simp only [hp] at hexec
          exact .raises _ hexec
        | ok plan =>
          simp only [hp] at hexec
          have hn := (transitionPlan_of_ok hp).numbered.1
          have h₁ : (postgres.view t [.command req.commandId]).Sound := h.congr rfl (fun _ => id) rfl
          have hd₁ : (postgres.view t [.command req.commandId]).deals.get? req.dealId =
            some deal := hd
          refine .of_writes_same rfl hexec rfl (fun hf hr => ?_) ?_ (fun _ _ h _ => h) ?_
          · exact admits_plan h hd rfl rfl hn hf (planCommitTransition_ids hp) hr rfl
              (admits_updates (by simpa [Write.keys, Write.needs] using fits_updateDeal.2 (hr.deal _ rfl)))
          · rw [view_plan hd₁]
            exact h₁.afterPlan hd hn
          · rw [view_plan hd₁, h₁.store_afterPlan hd hn]
            rfl

/-! ## Decisions on approvals -/

/-- A validated row differs from the stored one in two members at most. -/
theorem modelValidate_ok {row approval : Approval} (h : row.modelValidate = .ok approval) :
    ∃ decidedAt commandId, approval = { row with decidedAt, commandId } := by
  unfold Approval.modelValidate at h
  cases hd : row.decidedAt with
  | none =>
    cases hc : row.commandId with
    | none =>
      simp only [hd, hc] at h
      cases h
      exact ⟨_, _, rfl⟩
    | some commandId =>
      simp only [hd, hc] at h
      obtain ⟨_, -, h⟩ := bind_ok.1 h
      obtain ⟨_, -, h⟩ := bind_ok.1 h
      obtain ⟨_, -, h⟩ := bind_ok.1 h
      cases h
      exact ⟨_, _, rfl⟩
  | some decidedAt =>
    cases hc : row.commandId with
    | none =>
      simp only [hd, hc] at h
      obtain ⟨_, -, h⟩ := bind_ok.1 h
      obtain ⟨_, -, h⟩ := bind_ok.1 h
      obtain ⟨_, -, h⟩ := bind_ok.1 h
      cases h
      exact ⟨_, _, rfl⟩
    | some commandId =>
      simp only [hd, hc] at h
      obtain ⟨_, -, h⟩ := bind_ok.1 h
      obtain ⟨_, -, h⟩ := bind_ok.1 h
      obtain ⟨_, -, h⟩ := bind_ok.1 h
      obtain ⟨_, -, h⟩ := bind_ok.1 h
      cases h
      exact ⟨_, _, rfl⟩

/-- A plan does not depend on the cap of the parent record. -/
theorem planCommitApproval_spendCap (deal : Deal) (approval : Approval) (seq : ℕ)
    (prevHash : String) (req : ApprovalRequest) (record : AuthorityRecord) (cap : SpendCap)
    (revoked : Bool) (token : Option ActionToken) :
    planCommitApproval signer deal approval seq prevHash req
        (some { record with spendCap := cap }) revoked token ids =
      planCommitApproval signer deal approval seq prevHash req (some record) revoked token ids :=
  rfl

section
variable [TextForms]

/-- A validated record differs from the stored one in its cap at most. -/
theorem record_modelValidate_ok {row record : AuthorityRecord}
    (h : row.modelValidate = .ok record) : ∃ cap, record = { row with spendCap := cap } := by
  unfold AuthorityRecord.modelValidate at h
  obtain ⟨currency, -, h⟩ := bind_ok.1 h
  cases h
  exact ⟨_, rfl⟩

/-- The rows that a decision reads can be read. -/
structure Readable (t : Tables) (req : ApprovalRequest) : Prop where
  approval : ∀ row, t.approvals.get? req.approvalId = some row →
    ∃ approval, row.modelValidate = .ok approval
  record : req.operation = .granted → ∀ row, t.approvals.get? req.approvalId = some row →
    ∀ record, t.authorityRecords.get? row.authorityRecordId = some record →
      ∃ read, record.modelValidate = .ok read

theorem exec_approvalInputs (req : ApprovalRequest) (approval : Approval)
    (k : Option ActionToken × Option AuthorityRecord × Bool → Transaction CommitResult)
    (hread : req.operation = .granted → ∀ record,
      t.authorityRecords.get? approval.authorityRecordId = some record →
        ∃ read, record.modelValidate = .ok read)
    (hk : ∀ token (record : AuthorityRecord) cap revoked,
      k (token, some { record with spendCap := cap }, revoked) = k (token, some record, revoked)) :
    postgres.exec t (approvalInputs req approval k) [] =
      match t.store.approvalInputs req approval with
      | .error e => .error e
      | .ok none => .ok (⟨.staleState, s!"stale_state: unknown action {pyRepr req.action}", [],
          none⟩, [])
      | .ok (some inputs) => postgres.exec t (k inputs) [] := by
  unfold approvalInputs Store.approvalInputs
  cases ho : req.operation with
  | denied => rfl
  | granted =>
    simp only
    cases (StrEnum.ofValue? req.action : Option ActionToken) with
    | none => rfl
    | some token =>
      simp only
      rw [grantRecheckInputs, Database.exec_select, Store.grantRecheckInputs]
      simp only [Database.view_nil, postgres_ask, Tables.ask, Tables.store_records]
      cases hrow : t.authorityRecords.get? approval.authorityRecordId with
      | none => rfl
      | some row =>
        obtain ⟨record, hv⟩ := hread ho row hrow
        obtain ⟨cap, rfl⟩ := record_modelValidate_ok hv
        simp only [hv]
        rw [Database.exec_select]
        have hrows : postgres.ask (postgres.view t []) (.revocations row.recordId) =
          t.store.listRevocations row.recordId := rfl
        have happlies : ∀ r, revocationApplies r { row with spendCap := cap } req.occurredAt =
          revocationApplies r row req.occurredAt := fun _ => rfl
        simp only [hrows, happlies]
        cases anyM (fun r => revocationApplies r row req.occurredAt)
            (t.store.listRevocations row.recordId) with
        | error e => rfl
        | ok revoked =>
          simp only [hk]
          rfl

/-- The statements that decide an approval. -/
def decideWrites (req : ApprovalRequest) (plan : CommitPlan) (decided : Approval) : List Write :=
  plan.events.map .event ++ [.updateDeal req.dealId plan.newDeal,
    .updateApproval req.approvalId decided]

variable (signer ids) in
theorem exec_commitApproval (req : ApprovalRequest)
    (hread : req.operation = .granted → ∀ row, t.approvals.get? req.approvalId = some row →
      ∀ record, t.authorityRecords.get? row.authorityRecordId = some record →
        ∃ read, record.modelValidate = .ok read) :
    postgres.exec t (commitApproval req signer ids) [] =
      match t.deals.get? req.dealId with
      | none => .ok (⟨.dealNotFound, "deal row not found", [], none⟩, [])
      | some deal =>
        match t.approvals.get? req.approvalId with
        | none => .ok (⟨.approvalNotFound, "approval not found", [], none⟩, [])
        | some row =>
          match row.modelValidate with
          | .error e => .error e
          | .ok approval =>
            if approval.status ≠ .pending then
              .ok (⟨.alreadyApplied, s!"approval {req.approvalId} already {approval.status.value}",
                [], some deal⟩, [])
            else if req.commandId ∈ t.seenCommands then
              .ok (⟨.alreadyApplied, s!"command {req.commandId} already applied", [], some deal⟩, [])
            else match t.store.approvalInputs req approval with
              | .error e => .error e
              | .ok none => .ok (⟨.staleState, s!"stale_state: unknown action {pyRepr req.action}",
                  [], none⟩, [])
              | .ok (some (token, record, revoked)) =>
                match planCommitApproval signer deal approval (t.chainHead req.dealId).1
                    (t.chainHead req.dealId).2 req record revoked token ids with
                | .error e => .error e
                | .ok plan =>
                  match plan.approval with
                  | none => .error .assertionError
                  | some decided => postgres.exec t (.writes (decideWrites req plan decided)
                      (.done (Store.committed plan))) [.command req.commandId] := by
  rw [commitApproval, Database.exec_select]
  simp only [Database.view_nil, postgres_ask, Tables.ask]
  cases t.deals.get? req.dealId with
  | none => rfl
  | some deal =>
    simp only
    rw [Database.exec_select]
    simp only [Database.view_nil, postgres_ask, Tables.ask]
    cases hrow : t.approvals.get? req.approvalId with
    | none => rfl
    | some row =>
      simp only
      cases hv : row.modelValidate with
      | error e => rfl
      | ok approval =>
        obtain ⟨decidedAt, commandId, rfl⟩ := modelValidate_ok hv
        simp only
        split_ifs with hs hn
        · rfl
        · rw [exec_unlessApplied, if_pos hn]
        · rw [exec_unlessApplied, if_neg hn,
            exec_approvalInputs req { row with decidedAt, commandId } _
              (fun ho record => hread ho row hrow record)
              fun token record cap revoked => by simp only [planCommitApproval_spendCap]]
          cases t.store.approvalInputs req { row with decidedAt, commandId } with
          | error e => rfl
          | ok inputs =>
            cases inputs with
            | none => rfl
            | some inputs =>
              obtain ⟨token, record, revoked⟩ := inputs
              simp only
              rw [exec_claimCommand hn, Database.exec_select]
              have hhead : postgres.ask (postgres.view t [.command req.commandId])
                  (.chainHead req.dealId) = t.chainHead req.dealId := rfl
              rw [hhead]
              generalize t.chainHead req.dealId = head
              obtain ⟨seq, prevHash⟩ := head
              simp only
              cases planCommitApproval signer deal { row with decidedAt, commandId } seq prevHash
                  req record revoked token ids with
              | error e => rfl
              | ok plan =>
                simp only
                cases plan.approval with
                | none => rfl
                | some decided => rfl

/-- A decision whose rows cannot all be read commits nothing. -/
theorem exec_unreadable {req : ApprovalRequest} (hread : ¬ Readable t req) {r : CommitResult}
    {w : List Write} (he : postgres.exec t (commitApproval req signer ids) [] = .ok (r, w)) :
    w = [] ∧ r.outcome ≠ .committed := by
  rw [commitApproval, Database.exec_select] at he
  simp only [Database.view_nil, postgres_ask, Tables.ask] at he
  cases hd : t.deals.get? req.dealId with
  | none => simp only [hd] at he; cases he; exact ⟨rfl, by simp⟩
  | some deal =>
    simp only [hd] at he
    rw [Database.exec_select] at he
    simp only [Database.view_nil, postgres_ask, Tables.ask] at he
    cases hrow : t.approvals.get? req.approvalId with
    | none => simp only [hrow] at he; cases he; exact ⟨rfl, by simp⟩
    | some row =>
      cases hv : row.modelValidate with
      | error e => simp only [hrow, hv] at he; cases he
      | ok approval =>
        simp only [hrow, hv] at he
        -- so it is the parent record of a grant that cannot be read
        obtain ⟨ho, record, hrecord, e, herror⟩ : req.operation = .granted ∧ ∃ record,
            t.authorityRecords.get? row.authorityRecordId = some record ∧
              ∃ e, record.modelValidate = .error e := by
          by_contra hall
          refine hread ⟨fun row' hrow' => ?_, fun ho row' hrow' record hrecord => ?_⟩
          · rw [hrow] at hrow'
            cases hrow'
            exact ⟨approval, hv⟩
          · rw [hrow] at hrow'
            cases hrow'
            cases hr : record.modelValidate with
            | ok read => exact ⟨read, rfl⟩
            | error e => exact absurd ⟨ho, record, hrecord, e, hr⟩ hall
        obtain ⟨decidedAt, commandId, rfl⟩ := modelValidate_ok hv
        split_ifs at he with hs
        · cases he
          exact ⟨rfl, by simp⟩
        · rw [exec_unlessApplied] at he
          split_ifs at he with hn
          · cases he
            exact ⟨rfl, by simp⟩
          · unfold approvalInputs at he
            simp only [ho] at he
            cases ha : (StrEnum.ofValue? req.action : Option ActionToken) with
            | none => simp only [ha] at he; cases he; exact ⟨rfl, by simp⟩
            | some token =>
              simp only [ha] at he
              rw [grantRecheckInputs, Database.exec_select] at he
              simp only [Database.view_nil, postgres_ask, Tables.ask, hrecord, herror] at he
              cases he

theorem commitApproval_follows (h : t.Sound) (req : ApprovalRequest) (hread : Readable t req) :
    Follows t ids True (commitApproval req signer ids) (t.store.commitApproval req signer ids) := by
  have hexec := exec_commitApproval (t := t) signer ids req hread.record
  unfold Store.commitApproval
  rw [Tables.store_deals, Tables.store_seenCommands, Tables.store_approvals]
  cases hd : t.deals.get? req.dealId with
  | none =>
    simp only [hd] at hexec
    exact .refuses _ (by simp) hexec
  | some deal =>
    simp only [hd] at hexec ⊢
    cases ha : t.approvals.get? req.approvalId with
    | none =>
      simp only [ha] at hexec
      exact .refuses _ (by simp) hexec
    | some row =>
      obtain ⟨approval, hv⟩ := hread.approval row ha
      simp only [ha, hv] at hexec ⊢
      obtain ⟨decidedAt, commandId, rfl⟩ := modelValidate_ok hv
      -- what is planned does not depend on the two members
      have hinputs : t.store.approvalInputs req { row with decidedAt, commandId } =
        t.store.approvalInputs req row := rfl
      have hplan : ∀ seq prevHash record revoked token,
          planCommitApproval signer deal { row with decidedAt, commandId } seq prevHash req record
            revoked token ids =
          planCommitApproval signer deal row seq prevHash req record revoked token ids :=
        fun _ _ _ _ _ => rfl
      simp only [hinputs, hplan] at hexec
      split_ifs at hexec ⊢ with hs hn
      · exact .refuses _ (by simp) hexec
      · exact .refuses _ (by simp) hexec
      · simp only [h.store_events hd, h.chainHead] at hexec ⊢
        cases hi : t.store.approvalInputs req row with
        | error e =>
          simp only [hi] at hexec
          exact .raises _ hexec
        | ok inputs =>
          cases inputs with
          | none =>
            simp only [hi] at hexec
            exact .refuses _ (by simp) hexec
          | some inputs =>
            obtain ⟨token, record, revoked⟩ := inputs
            simp only [hi] at hexec ⊢
            cases hp : planCommitApproval signer deal row (t.rows req.dealId).length
                (lastHash (t.rows req.dealId) genesisHash) req record revoked token ids with
            | error e =>
              simp only [hp] at hexec
              exact .raises _ hexec
            | ok plan =>
              simp only [hp] at hexec ⊢
              cases hu : plan.approval with
              | none =>
                simp only [hu] at hexec
                exact .raises _ hexec
              | some decided =>
                simp only [hu] at hexec
                have hn' := (approvalPlan_of_ok hp).numbered.1
                have h₁ : (postgres.view t [.command req.commandId]).Sound := h.congr rfl (fun _ => id) rfl
                have hd₁ : (postgres.view t [.command req.commandId]).deals.get? req.dealId =
                  some deal := hd
                have hview : postgres.view t ([.command req.commandId] ++ decideWrites req plan decided) =
                    { (postgres.view t [.command req.commandId]).afterPlan req.dealId plan with
                      approvals := t.approvals.set req.approvalId decided } := by
                  have hsplit : [.command req.commandId] ++ decideWrites req plan decided =
                      ([.command req.commandId] ++ (plan.events.map .event ++
                        [.updateDeal req.dealId plan.newDeal])) ++
                          [.updateApproval req.approvalId decided] := by
                    simp [decideWrites]
                  rw [hsplit, Database.view_append, view_plan hd₁]
                  exact if_pos (ha ▸ rfl)
                have hdecided : Store.Decides (t.store.afterApproval req (t.rows req.dealId) plan
                    decided) t.store := by
                  intro id a hid hpending
                  refine (Dict.get?_set_ne _ _ fun heq => hpending ?_).trans hid
                  subst heq
                  rw [← Option.some.inj (ha.symm.trans hid)]
                  exact not_not.1 hs
                refine .of_writes_same rfl hexec rfl (fun hf hr => ?_) ?_ hdecided ?_
                · exact admits_plan h hd rfl rfl hn' hf (planCommitApproval_ids hp) hr rfl
                    (admits_updates (by simpa [Write.keys, Write.needs, Write.fits] using hr.deal _ rfl))
                · rw [hview]
                  exact (h₁.afterPlan hd hn').congr rfl (fun _ => id) rfl
                · rw [hview]
                  have hstore := h₁.store_afterPlan hd hn'
                  exact congrArg (fun s : Store => { s with
                    approvals := t.approvals.set req.approvalId decided }) hstore

end

/-! ## Revocations -/

/-- The result of a revocation. -/
def revoked (deal : Deal) (plan : CommitPlan) : CommitResult :=
  ⟨.committed, "1 event appended", plan.events, some deal⟩

variable (signer ids) in
theorem exec_commitRevocation (req : RevocationRequest) :
    postgres.exec t (commitRevocation req signer ids) [] =
      match t.deals.get? req.dealId with
      | none => .ok (⟨.dealNotFound, "deal row not found", [], none⟩, [])
      | some deal =>
        if req.commandId ∈ t.seenCommands then
          .ok (⟨.alreadyApplied, s!"command {req.commandId} already applied", [], some deal⟩, [])
        else match t.authorityRecords.get? req.revocation.recordId with
          | none => .ok (⟨.recordNotFound,
              s!"authority record {req.revocation.recordId} not found", [], some deal⟩, [])
          | some _ =>
            if t.store.listRevocations req.revocation.recordId ≠ [] then
              .ok (⟨.alreadyApplied, s!"record {req.revocation.recordId} already revoked", [],
                some deal⟩, [])
            else match planCommitRevocation signer deal (t.chainHead req.dealId).1
                (t.chainHead req.dealId).2 req ids with
              | .error e => .error e
              | .ok plan => postgres.exec t (.writes (plan.events.map .event)
                  (.claim (.revocation req.revocation) fun _ => .done (revoked deal plan)))
                  [.command req.commandId] := by
  rw [commitRevocation, Database.exec_select]
  simp only [Database.view_nil, postgres_ask, Tables.ask]
  cases t.deals.get? req.dealId with
  | none => rfl
  | some deal =>
    simp only
    rw [exec_unlessApplied]
    by_cases hn : req.commandId ∈ t.seenCommands
    · rw [if_pos hn, if_pos hn]
    · rw [if_neg hn, if_neg hn, Database.exec_select]
      simp only [Database.view_nil, postgres_ask, Tables.ask]
      cases t.authorityRecords.get? req.revocation.recordId with
      | none => rfl
      | some record =>
        simp only
        rw [Database.exec_select]
        have hrows : postgres.ask (postgres.view t []) (.revocations req.revocation.recordId) =
          t.store.listRevocations req.revocation.recordId := rfl
        rw [hrows]
        by_cases hl : t.store.listRevocations req.revocation.recordId ≠ []
        · rw [if_pos hl, if_pos hl]
          rfl
        · rw [if_neg hl, if_neg hl, exec_claimCommand hn, Database.exec_select]
          have hhead : postgres.ask (postgres.view t [.command req.commandId])
              (.chainHead req.dealId) = t.chainHead req.dealId := rfl
          rw [hhead]
          generalize t.chainHead req.dealId = head
          obtain ⟨seq, prevHash⟩ := head
          simp only
          cases planCommitRevocation signer deal seq prevHash req ids with
          | error e => rfl
          | ok plan => rfl

/-- The revocation is stored where its id is new; an id that another one has
    is left to it. -/
theorem commitRevocation_follows (h : t.Sound) (req : RevocationRequest) :
    Follows t ids
      (∀ old, t.revocations.get? req.revocation.revocationId = some old → old = req.revocation)
      (commitRevocation req signer ids) (t.store.commitRevocation req signer ids) := by
  have hexec := exec_commitRevocation (t := t) signer ids req
  unfold Store.commitRevocation
  rw [Tables.store_deals, Tables.store_seenCommands, Tables.store_records]
  cases hd : t.deals.get? req.dealId with
  | none =>
    simp only [hd] at hexec
    exact .refuses _ (by simp) hexec
  | some deal =>
    simp only [hd] at hexec ⊢
    by_cases hn : req.commandId ∈ t.seenCommands
    · rw [if_pos hn] at hexec ⊢
      exact .refuses _ (by simp) hexec
    · rw [if_neg hn] at hexec ⊢
      cases hr : t.authorityRecords.get? req.revocation.recordId with
      | none =>
        simp only [hr] at hexec
        exact .refuses _ (by simp) hexec
      | some record =>
        simp only [hr, h.keyed _ _ hr] at hexec ⊢
        by_cases hl : t.store.listRevocations req.revocation.recordId ≠ []
        · rw [if_pos hl] at hexec ⊢
          exact .refuses _ (by simp) hexec
        · rw [if_neg hl] at hexec ⊢
          simp only [h.store_events hd, h.chainHead] at hexec ⊢
          cases hp : planCommitRevocation signer deal (t.rows req.dealId).length
              (lastHash (t.rows req.dealId) genesisHash) req ids with
          | error e =>
            simp only [hp] at hexec
            exact .raises _ hexec
          | ok plan =>
            simp only [hp] at hexec
            have hplan := (revocationPlan_of_ok hp).numbered.1
            -- the tables after the command and the events
            have hview : postgres.view t ([.command req.commandId] ++ plan.events.map .event) =
                { t with
                  seenCommands := insert req.commandId t.seenCommands
                  events := t.events ++ plan.events } := by
              rw [Database.view_append, view_events]
              rfl
            have hsound : Tables.Sound { t with
                seenCommands := insert req.commandId t.seenCommands
                events := t.events ++ plan.events } :=
              h.append (hd ▸ rfl) hplan rfl (fun _ => id) rfl
            have hevents : (Tables.store { t with
                seenCommands := insert req.commandId t.seenCommands
                events := t.events ++ plan.events }).events = _ :=
              h.store_append hd hplan rfl (Dict.set_of_get? hd).symm rfl
            have hstore : ∀ revocations, Tables.store { t with
                revocations
                seenCommands := insert req.commandId t.seenCommands
                events := t.events ++ plan.events } =
                  { t.store.afterRevocation req (t.rows req.dealId) plan with revocations } := by
              intro revocations
              rw [Store.afterRevocation, Store.append, ← hevents]
              rfl
            have hadmits : ids.Fresh t → (revoked deal plan).Fits →
                postgres.admits t [.command req.commandId] (plan.events.map .event) :=
              fun hf hfits => h.admits_events hd rfl rfl hplan hf (planCommitRevocation_ids hp)
                hfits.numbers
            -- the claim is won where the id is new
            cases hold : t.revocations.get? req.revocation.revocationId with
            | none =>
              have hclaim : postgres.view t (([.command req.commandId] ++
                  plan.events.map .event) ++ [.revocation req.revocation]) = { t with
                    revocations := t.revocations.set req.revocation.revocationId req.revocation
                    seenCommands := insert req.commandId t.seenCommands
                    events := t.events ++ plan.events } := by
                rw [Database.view_append, hview]
                rfl
              refine .of_writes (w := ([.command req.commandId] ++ plan.events.map .event) ++
                [.revocation req.revocation]) rfl hexec ?_ hadmits ?_ (fun _ _ _ h _ => h) ?_ ?_
              · have hc : ¬ postgres.conflicts (postgres.view t ([.command req.commandId] ++
                    plan.events.map .event)) (.revocation req.revocation) = true := by
                  refine not_conflicts fun k hk ht => ?_
                  rw [List.mem_singleton.1 hk, hview] at ht
                  exact absurd ht (by simp [Tables.Taken, hold])
                have ha : postgres.accepts (postgres.view t ([.command req.commandId] ++
                    plan.events.map .event)) (.revocation req.revocation) = true := by
                  refine (postgres.accepts_iff _ _).2 ⟨rfl, fun k hk => ?_⟩
                  rw [List.mem_singleton.1 hk, hview, postgres_taken]
                  exact decide_eq_true (by simp [Tables.Taken, hr])
                rw [postgres.exec_claim_won _ hc ha]
                rfl
              · rw [hclaim]
                exact hsound.congr rfl (fun _ => id) rfl
              · rw [hclaim, hstore]
                rfl
              · intro _
                rw [hclaim, hstore]
                rfl
            | some old =>
              refine .of_writes (w := [.command req.commandId] ++ plan.events.map .event) rfl hexec
                ?_ hadmits ?_ (fun _ _ _ h _ => h) ?_ ?_
              · have hc : postgres.conflicts (postgres.view t ([.command req.commandId] ++
                    plan.events.map .event)) (.revocation req.revocation) = true := by
                  rw [postgres_conflicts, hview]
                  exact ⟨_, List.mem_singleton_self _, by simp [Tables.Taken, hold]⟩
                rw [postgres.exec_claim_lost _ hc]
                rfl
              · rw [hview]
                exact hsound
              · rw [hview, hstore]
                rfl
              · -- the stored one would be listed
                intro hknown
                obtain rfl := hknown old rfl
                refine absurd (not_not.1 hl) (List.ne_nil_of_mem (a := req.revocation) ?_)
                exact List.mem_filter.2 ⟨Dict.mem_values.2 ⟨_, hold⟩, by simp⟩

/-! ## Requests -/

variable (signer ids) in
theorem exec_free (req : CommitRequest) (hfree : req.Free t) {deal : Deal} {event : Option DealEvent}
    (hd : t.deals.get? req.dealId = some deal)
    (ht : planTransition deal req.action req.decision.outcome = .ok event) :
    ∃ claims, postgres.view t claims = t.claimed req ∧
      postgres.exec t (commitRequest req signer ids) [] =
        postgres.exec t (appendRequest signer req ids deal event) claims := by
  rw [exec_commitRequest]
  have hr : req.requestId ∉ t.seenRequests := fun h => hfree.clashes (.inl h)
  simp only [hd, ht, hfree.key, Option.isSome_none, Bool.false_eq_true, if_false, if_neg hr]
  rw [exec_claimNonce _ _ rfl]
  cases ho : t.seenNonces.get? req.record.nonce with
  | none =>
    exact ⟨[.idempotency req.idempotencyKey req.proposalDigest req.decision,
      .request req.requestId, .nonce req.record.nonce req.record.recordId], rfl, rfl⟩
  | some owner =>
    have howner : owner = req.record.recordId :=
      by_contra fun hne => hfree.clashes (.inr ⟨owner, ho, hne⟩)
    simp only [howner, ne_eq, not_true_eq_false, if_false]
    refine ⟨[.idempotency req.idempotencyKey req.proposalDigest req.decision,
      .request req.requestId], ?_, rfl⟩
    rw [Tables.claimed, Dict.set_of_get? (howner ▸ ho)]
    rfl

/-- The rows of a request's plan, after its events. -/
def requestRows (req : CommitRequest) (event : Option DealEvent) (plan : CommitPlan) : List Write :=
  (if event.isSome ∨ plan.approval.isSome then [.updateDeal req.dealId plan.newDeal] else []) ++
    plan.approval.toList.map .approval

theorem exec_appendRequest (req : CommitRequest) {deal : Deal} {event : Option DealEvent}
    {claims : List Write} (hw : postgres.view t claims = t.claimed req) :
    postgres.exec t (appendRequest signer req ids deal event) claims =
      match planCommitRequest signer deal (t.chainHead req.dealId).1 (t.chainHead req.dealId).2 req
          event ids with
      | .error e => .error e
      | .ok plan => postgres.exec t (.writes (plan.events.map .event ++ requestRows req event plan)
          (.claim (.record req.record) fun _ => .done (Store.committed plan))) claims := by
  rw [appendRequest, Database.exec_select, hw]
  have hhead : postgres.ask (t.claimed req) (.chainHead req.dealId) = t.chainHead req.dealId := rfl
  rw [hhead]
  generalize t.chainHead req.dealId = head
  obtain ⟨seq, prevHash⟩ := head
  simp only
  cases planCommitRequest signer deal seq prevHash req event ids with
  | error e => rfl
  | ok plan => simp only [requestRows, List.append_assoc]

/-- What the rows of a plan leave. -/
theorem view_requestRows {req : CommitRequest} {deal : Deal} (event : Option DealEvent)
    {plan : CommitPlan} {claims : List Write} {seq : ℕ} {prevHash : String}
    (hd : (postgres.view t claims).deals.get? req.dealId = some deal)
    (hp : planCommitRequest signer deal seq prevHash req event ids = .ok plan) :
    postgres.view t (claims ++ (plan.events.map .event ++ requestRows req event plan)) =
      { (postgres.view t claims).afterPlan req.dealId plan with
        approvals := match plan.approval with
          | some approval => (postgres.view t claims).approvals.set approval.approvalId approval
          | none => (postgres.view t claims).approvals } := by
  have hdeals : postgres.view t (claims ++ (plan.events.map .event ++
      (if event.isSome ∨ plan.approval.isSome then [.updateDeal req.dealId plan.newDeal]
        else []))) = (postgres.view t claims).afterPlan req.dealId plan := by
    split_ifs with hu
    · exact view_plan hd
    · -- nothing to update: the deal is kept
      simp only [not_or, Option.not_isSome_iff_eq_none] at hu
      obtain ⟨rfl, ha⟩ := hu
      rw [List.append_nil, Database.view_append, view_events, Tables.afterPlan,
        planCommitRequest_newDeal hp ha, Dict.set_of_get? hd]
  rw [requestRows, ← List.append_assoc, ← List.append_assoc, List.append_assoc claims,
    Database.view_append, hdeals]
  cases plan.approval with
  | none => rfl
  | some approval => rfl

/-- The pending row of a held request is new. -/
theorem admits_requestRows {req : CommitRequest} (deal : Deal) {event : Option DealEvent}
    {plan : CommitPlan} {w : List Write} {seq : ℕ} {prevHash : String}
    (hwd : (postgres.view t w).deals.get? req.dealId = some deal)
    (hwa : (postgres.view t w).approvals = t.approvals) (hf : ids.Fresh t)
    (hr : (Store.committed plan).Fits)
    (ht : planTransition deal req.action req.decision.outcome = .ok event)
    (hp : planCommitRequest signer deal seq prevHash req event ids = .ok plan) :
    postgres.admits t w (requestRows req event plan) := by
  have hdeals : ∀ w, postgres.admits t w (if event.isSome ∨ plan.approval.isSome then
      [.updateDeal req.dealId plan.newDeal] else []) := by
    intro w
    refine admits_updates fun e he => ?_
    split_ifs at he
    · rw [List.mem_singleton.1 he]
      exact ⟨rfl, rfl, fits_updateDeal.2 (hr.deal _ rfl)⟩
    · cases he
  rw [requestRows, Database.admits_append, hdeals w, Bool.true_and]
  cases ha : plan.approval with
  | none => rfl
  | some approval =>
    have hid : approval.approvalId = ids 2 := planCommitRequest_approvalId hp approval (by rw [ha]; rfl)
    have hdeal : approval.dealId = req.dealId := by
      cases requestPlan_of_ok ht hp with
      | decided mid did ho => cases ha
      | applied mid did id token event target ho hv he ht => cases ha
      | held mid did id aid approval' ho hpend =>
        cases ha
        exact (pendingApproval_ok hpend).dealId
    have hnew : t.approvals.get? approval.approvalId = none :=
      hf.approvals _ (by rw [hid]; exact List.mem_map_of_mem (by simp))
    -- the deal was updated, the approvals were not
    have hview : postgres.view t (w ++ [.updateDeal req.dealId plan.newDeal]) =
        { postgres.view t w with
          deals := (postgres.view t w).deals.set req.dealId plan.newDeal } := by
      rw [Database.view_append]
      exact if_pos (hwd ▸ rfl)
    have hc : postgres.conflicts (postgres.view t (w ++ [.updateDeal req.dealId plan.newDeal]))
        (.approval approval) = false := by
      rw [Bool.eq_false_iff]
      refine not_conflicts fun k hk ht => ?_
      rw [List.mem_singleton.1 hk, hview, Tables.Taken, hwa, hnew] at ht
      cases ht
    have hacc : postgres.accepts (postgres.view t (w ++ [.updateDeal req.dealId plan.newDeal]))
        (.approval approval) = true := by
      refine (postgres.accepts_iff _ _).2 ⟨rfl, fun k hk => ?_⟩
      rw [List.mem_singleton.1 hk, hview, hdeal, postgres_taken, decide_eq_true_eq, Tables.Taken,
        Dict.get?_set_self]
      rfl
    simp only [Option.isSome_some, or_true, if_true, Option.toList_some, List.map_cons,
      List.map_nil, Database.admits, hc, hacc, Bool.not_false, Bool.and_self]

theorem commitRequest_follows (h : t.Sound) (req : CommitRequest) (hfree : req.Free t) :
    Follows t ids
      (∀ old, t.authorityRecords.get? req.record.recordId = some old → old = req.record)
      (commitRequest req signer ids) (t.store.commitRequest req signer ids) := by
  unfold Store.commitRequest
  rw [Tables.store_deals]
  cases hd : t.deals.get? req.dealId with
  | none =>
    have hexec := exec_commitRequest signer ids t req
    simp only [hd] at hexec
    exact .refuses _ (by simp) hexec
  | some deal =>
    simp only
    cases ht : planTransition deal req.action req.decision.outcome with
    | error abort =>
      have hexec := exec_commitRequest signer ids t req
      simp only [hd, ht] at hexec
      exact .refuses _ (by simp) hexec
    | ok event =>
      obtain ⟨claims, hw, hexec⟩ := exec_free signer ids req hfree hd ht
      rw [exec_appendRequest req hw] at hexec
      simp only [h.store_events hd, h.chainHead] at hexec ⊢
      cases hp : planCommitRequest signer deal (t.rows req.dealId).length
          (lastHash (t.rows req.dealId) genesisHash) req event ids with
      | error e =>
        simp only [hp] at hexec
        exact .raises _ hexec
      | ok plan =>
        simp only [hp] at hexec
        have hplan := (requestPlan_of_ok ht hp).numbered.1
        have h₁ : (t.claimed req).Sound := h.congr rfl (fun _ => id) rfl
        have hd₁ : (postgres.view t claims).deals.get? req.dealId = some deal := by rw [hw]; exact hd
        have hview := view_requestRows event hd₁ hp
        rw [hw] at hview
        generalize hes : plan.events.map .event ++ requestRows req event plan = es at hexec hview
        have hadmits : ids.Fresh t → (Store.committed plan).Fits → postgres.admits t claims es := by
          intro hf hfits
          subst hes
          refine admits_plan h hd (by rw [hw]; rfl) (by rw [hw]; rfl) hplan hf
            (planCommitRequest_ids hp) hfits rfl (admits_requestRows deal ?_ ?_ hf hfits ht hp)
          · rw [Database.view_append, hw, view_events]
            exact hd
          · rw [Database.view_append, hw, view_events]
            rfl
        have hstore : ∀ records, Tables.store { postgres.view t (claims ++ es) with
            authorityRecords := records } =
              { t.store.afterRequest req (t.rows req.dealId) plan with records } := by
          intro records
          rw [hview]
          exact congrArg (fun s : Store => { s with
            records
            approvals := match plan.approval with
              | some approval => t.approvals.set approval.approvalId approval
              | none => t.approvals }) (h₁.store_afterPlan hd hplan)
        have hsound : (postgres.view t (claims ++ es)).Sound := by
          rw [hview]
          exact (h₁.afterPlan hd hplan).congr rfl (fun _ => id) rfl
        have hrecords : (postgres.view t (claims ++ es)).authorityRecords = t.authorityRecords := by
          rw [hview]
          rfl
        have hrevocations : (postgres.view t (claims ++ es)).revocations = t.revocations := by
          rw [hview]
          rfl
        have hdecided : postgres.admits t claims es →
            Store.Decides (t.store.afterRequest req (t.rows req.dealId) plan) t.store := by
          intro hadm id a hid _
          simp only [Store.afterRequest, Tables.store_approvals]
          cases happ : plan.approval with
          | none => exact hid
          | some approval =>
            -- a row that was inserted is new
            have hmem : Write.approval approval ∈ es := by
              rw [← hes, requestRows, happ]
              simp
            have hfresh := postgres.conflicts_of_admits hadm hmem
            refine (Dict.get?_set_ne _ _ fun heq => ?_).trans hid
            rw [Bool.eq_false_iff, ne_eq, postgres_conflicts] at hfresh
            refine hfresh ⟨_, List.mem_singleton_self _, ?_⟩
            rw [Tables.Taken, ← heq]
            exact hid ▸ rfl
        -- the record is stored where its id is new
        cases hold : t.authorityRecords.get? req.record.recordId with
        | none =>
          have hclaim : postgres.view t ((claims ++ es) ++ [.record req.record]) =
              { postgres.view t (claims ++ es) with
                authorityRecords := t.authorityRecords.set req.record.recordId req.record } := by
            rw [Database.view_append, ← hrecords]
            rfl
          have hc : ¬ postgres.conflicts (postgres.view t (claims ++ es)) (.record req.record) =
              true := by
            refine not_conflicts fun k hk ht => ?_
            rw [List.mem_singleton.1 hk, Tables.Taken, hrecords, hold] at ht
            cases ht
          refine .of_writes (w := (claims ++ es) ++ [.record req.record]) rfl hexec ?_ hadmits ?_
            hdecided ?_ ?_
          · rw [postgres.exec_claim_won _ hc (accepts_of_free rfl rfl)]
            rfl
          · rw [hclaim, ← hrecords]
            exact hsound.putRecord
          · rw [hclaim, hstore]
            simp only [hrevocations]
            rfl
          · intro _
            rw [hclaim, hstore]
            rfl
        | some old =>
          have hc : postgres.conflicts (postgres.view t (claims ++ es)) (.record req.record) =
              true := by
            rw [postgres_conflicts]
            refine ⟨_, List.mem_singleton_self _, ?_⟩
            rw [Tables.Taken, hrecords, hold]
            rfl
          have hstore' := hstore t.authorityRecords
          rw [← hrecords] at hstore'
          refine .of_writes (w := claims ++ es) rfl hexec ?_ hadmits hsound hdecided ?_ ?_
          · rw [postgres.exec_claim_lost _ hc]
            rfl
          · refine hstore'.trans ?_
            simp only [hrevocations]
            rfl
          · intro hknown
            obtain rfl := hknown old rfl
            refine hstore'.trans ?_
            rw [hrecords, Store.afterRequest, Tables.store_records, Dict.set_of_get? hold]

end Postgres

end Mandate
