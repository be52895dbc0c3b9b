/-
  The commits on one deal are serializable where their reads still hold.

  A commit reads the deal, the approval and the command first, and asks for the
  head of the chain last; the unique sequence numbers keep rivals out from there
  on.  A rival that commits between the first read and the head is not noticed:
  its update of the deal is lost (`lost_update`).  In every interleaving in
  which the earlier answers of a commit still hold as it asks for the head, the
  committed tables are those of the committed transactions run one after
  another, the deal's row is the replay of its chain, and no approval is
  decided twice (`commits_serializable`).
-/
import Mathlib.Data.List.Permutation
import Mandate.Postgres.Atomicity
import Mandate.Postgres.Runs

namespace Mandate

section
variable [Platform]

namespace Postgres

/-- A commit on the deal.  The approvals it decides are the deal's. -/
def Txn.CommitsOn (dealId : String) (t : Tables) : Txn → Prop
  | commitRequest req _ => req.dealId = dealId
  | commitTransition req _ => req.dealId = dealId
  | commitApproval req _ => req.dealId = dealId ∧
      ∀ a, t.approvals.get? req.approvalId = some a → a.dealId = dealId
  | commitRevocation req _ => req.dealId = dealId
  | _ => False

/-- A commit that asks for the head of the chain has answers that still hold,
    and a request that has claimed its key clashes with nothing. -/
def Steady (dealId : String) (t : Tables)
    (x : Database.Session Query.Answer Write PyError (Option CommitResult) Txn) : Prop :=
  (∀ k, x.program = .select (.chainHead dealId) k → x.Holds postgres t) ∧ Unclashed t x

/-- The approval a transaction decides. -/
def Txn.approval? : Txn → Option String
  | commitApproval req _ => some req.approvalId
  | _ => none

/-! ## The versions of a chain -/

omit [Platform] in
theorem events_view_quiet {w : List Write} (hw : ∀ e ∈ w, e.event? = none) : ∀ t : Tables,
    (postgres.view t w).events = t.events := by
  induction w with
  | nil => exact fun t => rfl
  | cons e w ih =>
    intro t
    rw [Database.view_cons, ih fun e' he' => hw e' (List.mem_cons_of_mem _ he')]
    have he := hw e (by simp)
    cases e with
    | event e => cases he
    | updateDeal =>
      simp only [postgres_apply, Tables.apply]
      split_ifs <;> rfl
    | updateApproval =>
      simp only [postgres_apply, Tables.apply]
      split_ifs <;> rfl
    | _ => rfl

/-- The length of a deal's chain is its version: the next event takes the
    sequence number after it. -/
def chainVersion (dealId : String) {I : Tables → Prop} (hI : ∀ t, I t → t.Sound) :
    postgres.Versioned (.chainHead dealId) I where
  version t := (t.rows dealId).length
  stamp head := head.1
  slot := .sequence dealId
  quiet e := e.event? = none
  stamp_ask t w ht hw := by
    have hrows : (postgres.view t w).rows dealId = t.rows dealId := by
      rw [Tables.rows, events_view_quiet hw, Tables.rows]
    have hhead : (postgres.view t w).chainHead dealId = t.chainHead dealId := by
      rw [Tables.chainHead, hrows, Tables.chainHead]
    rw [postgres_ask, Tables.ask, hhead, (hI t ht).chainHead]
  taken_slot t n ht := by
    have hiff := ((hI t ht).numbered dealId).exists_iff n
    rw [postgres_taken, decide_eq_true_eq, Tables.Taken]
    simp only [Tables.rows, List.mem_filter, decide_eq_true_eq, and_assoc] at hiff
    rw [hiff]
    simp [Tables.rows]

variable {signer : GatewaySigner} {dealId : String} {t t₀ : Tables} {c : Txn}

/-! ## A commit takes the slot after its head -/

omit [Platform] in
theorem slotted_of_ends {I : Tables → Prop} (hI : ∀ t, I t → t.Sound) {r : CommitResult}
    {reads : List (Database.Read Query.Answer Write)} {w : List Write}
    (h : Ends dealId False r reads w) :
    (chainVersion dealId hI).Slotted applied (some r) reads w := by
  unfold Database.Versioned.Slotted
  cases h with
  | refused ho =>
    rw [if_neg (by simpa [applied] using ho)]
  | overtaken _ ho hl => exact hl.elim
  | committed claims rest seq prevHash ho hr hq hn hne hd =>
    rw [if_pos (by simpa [applied] using ho)]
    refine ⟨claims, (seq, prevHash), hr, fun e he => hq e (List.mem_append_left _ he), ?_⟩
    obtain ⟨e, he, hdeal, hseq⟩ := hn.head_mem hne
    refine ⟨.event e, ?_, ?_⟩
    · exact List.mem_append_left _ (List.mem_append_right _ (List.mem_map_of_mem he))
    · simp [chainVersion, Write.keys, hdeal, hseq]

theorem code_slotted [TextForms] {I : Tables → Prop} (hI : ∀ t, I t → t.Sound)
    (hc : c.CommitsOn dealId t₀) :
    postgres.Ensures (fun t w _ => w ≠ [] → ∀ req, c.request? = some req → ¬ req.Clashes t)
      ((chainVersion dealId hI).Slotted applied) (c.code signer) [] [] := by
  cases c with
  | commitRequest req ids =>
    obtain rfl : req.dealId = dealId := hc
    rw [Txn.code]
    refine (commitRequest_ends (fun t w _ => w ≠ [] → ¬ req.Clashes t) req
      fun t w p hr hw hcl => hr hw hcl).map (fun a r w h => slotted_of_ends hI h) ?_
    exact fun t w p hr hw => hr hw req rfl
  | commitTransition req ids =>
    obtain rfl : req.dealId = dealId := hc
    rw [Txn.code]
    exact (commitTransition_ends (fun _ _ _ => True) req).map
      (fun a r w h => slotted_of_ends hI h) fun _ _ _ _ => trivial
  | commitApproval req ids =>
    obtain ⟨rfl, -⟩ : req.dealId = dealId ∧ _ := hc
    rw [Txn.code]
    exact (commitApproval_ends (fun _ _ _ => True) req).map
      (fun a r w h => slotted_of_ends hI h) fun _ _ _ _ => trivial
  | commitRevocation req ids =>
    obtain rfl : req.dealId = dealId := hc
    rw [Txn.code]
    exact (commitRevocation_ends (fun _ _ _ => True) req).map
      (fun a r w h => slotted_of_ends hI h) fun _ _ _ _ => trivial
  | _ => exact hc.elim

/-! ## What serial commits keep -/

/-- Faithful tables whose approvals are those of `t₀`, or the deal's. -/
structure OnDeal (dealId : String) (t₀ t : Tables) : Prop where
  faithful : t.Faithful
  approvals : ∀ id a, t.approvals.get? id = some a → a.dealId = dealId ∨
    ∃ a₀, t₀.approvals.get? id = some a₀ ∧ a₀.dealId = a.dealId

omit [Platform] in
theorem Txn.CommitsOn.filed (hc : c.CommitsOn dealId t₀) (h : OnDeal dealId t₀ t) : c.Filed t := by
  cases c with
  | commitApproval req ids =>
    obtain ⟨rfl, hown⟩ : req.dealId = dealId ∧ _ := hc
    intro a ha
    rcases h.approvals _ a ha with hid | ⟨a₀, ha₀, hid⟩
    · exact hid.symm
    · exact (hown a₀ ha₀).symm.trans hid
  | createDeal deal createdAt => exact hc.elim
  | _ => trivial

/-- The requests a transaction on the deal commits are the deal's. -/
theorem Txn.CommitsOn.request (hc : c.CommitsOn dealId t₀) {req : CommitRequest} {ids : EventIds}
    (ho : c.commit? = some (.commitRequest req, ids)) : req.dealId = dealId := by
  cases c with
  | commitRequest req' ids' => cases ho; exact hc
  | submit pi recordedAt ids' => exact hc.elim
  | _ => cases ho

theorem OnDeal.commit [TextForms] (h : OnDeal dealId t₀ t) (hc : c.CommitsOn dealId t₀)
    {a : Option CommitResult} {t' : Tables}
    (halone : postgres.alone t (c.code signer) = (.ok a, t')) (ha : applied a) :
    OnDeal dealId t₀ t' := by
  have hstep := code_stepped signer h.faithful.sound c
  refine ⟨?_, ?_⟩
  · have := hstep.faithful h.faithful (hc.filed h)
    rwa [halone] at this
  · rw [halone] at hstep
    cases hstep with
    | quiet r t' hr hs hd he hap => exact absurd ha (hr a rfl)
    | created deal createdAt hc' hn => cases ha
    | committed op ids hop r t' ho hs hdecided hsame =>
      have hap : t'.approvals = (op.run signer ids t.store).approvals :=
        congrArg Store.approvals hsame
      rw [hap]
      have hrows := op.approvalsStep t.store signer ids
      generalize op.run signer ids t.store = s' at hrows
      intro id x hx
      cases hrows with
      | kept _ _ hs' =>
        rw [hs'] at hx
        exact h.approvals id x hx
      | held req aid approval _ hpend hid hs' =>
        rw [hs', Dict.get?_set] at hx
        split_ifs at hx
        · cases hx
          exact .inl ((pendingApproval_ok hpend).dealId.trans (hc.request hop))
        · exact h.approvals id x hx
      | decided req approval status _ hrow hp hst hs' =>
        rw [hs', Dict.get?_set] at hx
        split_ifs at hx with hid
        · cases hx
          subst hid
          exact h.approvals _ approval hrow
        · exact h.approvals id x hx

/-- The approvals that were decided, each once, are no longer pending. -/
structure DecidedOnce (cs : List Txn) (t : Tables) : Prop where
  nodup : (cs.filterMap Txn.approval?).Nodup
  decided : ∀ id ∈ cs.filterMap Txn.approval?, ∃ a, t.approvals.get? id = some a ∧
    a.status ≠ .pending

omit [Platform] in
/-- What followed its operation to a commit has its answer and its approvals. -/
theorem committed_of_follows {ids : EventIds} {known : Prop} {p : Transaction CommitResult}
    {mem : Except PyError CommitResult × Store} (hf : Follows t ids known p mem) {r : CommitResult}
    {t' : Tables} (halone : postgres.alone t (p.map some) = (.ok (some r), t'))
    (hr : r.outcome = .committed) : mem.1 = .ok r ∧ t'.approvals = mem.2.approvals := by
  rw [Database.alone_map] at halone
  cases hf with
  | raises error he =>
    rw [postgres.alone_of_error he] at halone
    cases halone
  | refuses r' ho he =>
    rw [postgres.alone_of_exec he] at halone
    cases halone
    exact absurd hr ho
  | commits r' w s ho honly hok hsound hdecided hsame hknown =>
    cases he : postgres.exec t p [] with
    | error error =>
      rw [postgres.alone_of_error he] at halone
      cases halone
    | ok x =>
      obtain rfl := honly x he
      rw [postgres.alone_of_exec he] at halone
      cases halone
      exact ⟨rfl, congrArg Store.approvals hsame⟩

/-- A decision that commits finds its row pending, and leaves it decided. -/
theorem decided_of_commitApproval [TextForms] (h : t.Sound) {req : ApprovalRequest} {ids : EventIds}
    {r : CommitResult} {t' : Tables}
    (halone : postgres.alone t ((commitApproval req signer ids).map some) = (.ok (some r), t'))
    (hr : r.outcome = .committed) :
    (∃ row, t.approvals.get? req.approvalId = some row ∧ row.status = .pending) ∧
      ∃ a, t'.approvals.get? req.approvalId = some a ∧ a.status ≠ .pending := by
  by_cases hread : Readable t req
  · obtain ⟨hmem, happ⟩ := committed_of_follows (commitApproval_follows h req hread) halone hr
    have hcases := t.store.commitApproval_cases req signer ids
    generalize t.store.commitApproval req signer ids = done at hcases hmem happ
    cases hcases with
    | refused r' hr' => exact absurd hr (hr' r hmem)
    | committed deal approval decided chain token record revoked plan hd hc ha hs hn hi hp hu hst =>
      refine ⟨⟨approval, ha, hs⟩, decided, ?_, ?_⟩
      · rw [happ]
        exact Dict.get?_set_self ..
      · cases hp <;> cases hu <;> exact ApprovalStatus.noConfusion
  · rw [Database.alone_map, Database.alone] at halone
    cases hx : postgres.exec t (commitApproval req signer ids) [] with
    | error e =>
      rw [hx] at halone
      cases halone
    | ok x =>
      obtain ⟨-, ho⟩ := exec_unreadable hread hx
      rw [hx] at halone
      cases halone
      exact absurd hr ho

theorem DecidedOnce.commit [TextForms] {cs : List Txn} (h : DecidedOnce cs t) (ht : t.Sound)
    {a : Option CommitResult} {t' : Tables}
    (halone : postgres.alone t (c.code signer) = (.ok a, t')) (ha : applied a) :
    DecidedOnce (cs ++ [c]) t' := by
  have hstep := code_stepped signer ht c
  rw [halone] at hstep
  cases hstep with
  | quiet r t' hr hs hd he hap => exact absurd ha (hr a rfl)
  | created deal createdAt hc' hn => cases ha
  | committed op ids hop r t' ho hs hdecided hsame =>
    have hkept : ∀ id ∈ cs.filterMap Txn.approval?, ∃ a, t'.approvals.get? id = some a ∧
        a.status ≠ .pending := by
      intro id hid
      obtain ⟨x, hx, hp⟩ := h.decided id hid
      exact ⟨x, hdecided id x hx hp, hp⟩
    -- a transaction that decides nothing
    have hother : c.approval? = none → DecidedOnce (cs ++ [c]) t' := by
      intro hc
      have hlist : (cs ++ [c]).filterMap Txn.approval? = cs.filterMap Txn.approval? := by
        simp [hc]
      exact ⟨by rw [hlist]; exact h.nodup, by rw [hlist]; exact hkept⟩
    cases c with
    | commitApproval req ids' =>
      obtain ⟨⟨row, hrow, hp⟩, decided, hdec, hnp⟩ := decided_of_commitApproval ht halone ho
      have hlist : (cs ++ [Txn.commitApproval req ids']).filterMap Txn.approval? =
          cs.filterMap Txn.approval? ++ [req.approvalId] := by
        simp [Txn.approval?]
      -- the row was pending, so it was not decided before
      have hnew : req.approvalId ∉ cs.filterMap Txn.approval? := by
        intro hid
        obtain ⟨x, hx, hxp⟩ := h.decided _ hid
        rw [hrow] at hx
        cases hx
        exact hxp hp
      constructor
      · rw [hlist]
        exact List.nodup_append.2 ⟨h.nodup, List.nodup_singleton _, fun a ha b hb heq =>
          hnew (List.mem_singleton.1 hb ▸ heq ▸ ha)⟩
      · intro id hid
        rw [hlist, List.mem_append, List.mem_singleton] at hid
        rcases hid with hid | rfl
        · exact hkept id hid
        · exact ⟨decided, hdec, hnp⟩
    | _ => exact hother rfl

/-- Serial commits decide each approval once. -/
theorem decidedOnce_of_serial [TextForms] {cs : List Txn}
    (h : Database.Serial postgres (Txn.code signer) applied t₀ cs t) (ht : t₀.Sound) :
    t.Sound ∧ DecidedOnce cs t := by
  induction h with
  | nil => exact ⟨ht, List.nodup_nil, by rintro id ⟨⟩⟩
  | @snoc cs t t' c a h hc ha ih =>
    refine ⟨?_, ih.2.commit ih.1 hc ha⟩
    have := (code_stepped signer ih.1 c).sound ih.1
    rwa [hc] at this

/-- In every interleaving, faithful tables stay so and the commits are serial. -/
theorem serializable_invariant [TextForms] (h : t₀.Faithful) :
    (interleavings signer (Txn.CommitsOn dealId t₀) (Steady dealId) t₀).Invariant fun σ =>
      OnDeal dealId t₀ σ.committed ∧
        Database.Serial postgres (Txn.code signer) applied t₀ σ.log σ.committed ∧
        (∀ c ∈ σ.log, c.CommitsOn dealId t₀) ∧ ∀ i x, σ.sessions i = some x →
          (chainVersion dealId fun t (ht : OnDeal dealId t₀ t) => ht.faithful.sound).Current
            σ.committed x := by
  refine Database.serializable _ (fun c t w _ => w ≠ [] →
    ∀ req, c.request? = some req → ¬ req.Clashes t) (fun t x hm => hm.2) (fun t x k hm => hm.1 k)
    (fun c hc => code_slotted _ hc) (fun t c a t' hc hI halone ha => hI.commit hc halone ha) ?_
  exact ⟨h, fun id a ha => .inr ⟨a, ha, rfl⟩⟩

end Postgres

/-- In every interleaving of commits on one deal in which earlier answers still
    hold at the head of the chain, the committed tables are those of the commits
    in the log, run alone in that order.  The deal's row is the replay of its
    chain, its transitions lead from one to the next, and no approval is decided
    twice. -/
theorem commits_serializable [TextForms] {signer : GatewaySigner} {dealId : String} {t₀ : Tables}
    (h : t₀.Written signer) : ∀ σ, (interleavings signer (Postgres.Txn.CommitsOn dealId t₀)
      (Postgres.Steady dealId) t₀).Reachable σ →
    Database.Serial postgres (Postgres.Txn.code signer) Postgres.applied t₀ σ.log σ.committed ∧
      (∀ deal, σ.committed.deals.get? dealId = some deal →
        deal = replay dealId (σ.committed.eventsFor dealId) ∧
        Walk .draft (transitionsOf (σ.committed.eventsFor dealId)) deal.state ∧
        ∀ e ∈ σ.committed.eventsFor dealId, e.Readable) ∧
      (σ.log.filterMap Postgres.Txn.approval?).Nodup := by
  intro σ hσ
  obtain ⟨hon, hser, -, -⟩ := (Postgres.serializable_invariant h.faithful).holds hσ
  refine ⟨hser, fun deal hd => ?_, (Postgres.decidedOnce_of_serial hser h.faithful.sound).2.nodup⟩
  obtain ⟨chain, hc, ht, -⟩ := hon.faithful.store.row dealId deal hd
  have hchain : chain = σ.committed.eventsFor dealId := by
    rw [Tables.store, Dict.get?_mapWithKey, hd] at hc
    exact (Option.some.inj hc).symm
  rw [← hchain]
  exact ⟨ht.replay.symm, ht.walk, ht.readable⟩

end

/-! ## A lost update -/

section
open Sample
attribute [local instance] Sample.platform Sample.textForms

theorem Sample.registered_written : registeredTables.Written signer :=
  .step .empty (.createDeal (.fresh dealId) start.text) rfl

theorem ok_of_map {ε α β : Type} {f : α → β} {x : Except ε α} {b : β} (h : x.map f = .ok b) :
    ∃ a, x = .ok a ∧ f a = b := by
  cases x with
  | error e => cases h
  | ok a => exact ⟨a, rfl, Except.ok.inj h⟩

/-- A request for a quote. -/
def Sample.firstQuote : Postgres.Txn := .commitTransition quoteRequested ids

/-- Another request for a quote, under a command of its own. -/
def Sample.secondQuote : Postgres.Txn :=
  .commitTransition { quoteRequested with commandId := ulid 'D' } fun n => ids (n + 4)

/-- The first request after its reads. -/
def Sample.pausedQuote :
    Database.Session Query.Answer Write PyError (Option CommitResult) Postgres.Txn :=
  .after postgres registeredTables 2 ⟨firstQuote, firstQuote.code signer, [], []⟩

theorem Sample.pausedQuote_pending : pausedQuote.pending = [] := rfl

theorem Sample.secondQuote_applied : (postgres.alone registeredTables
    (secondQuote.code signer)).1.map Postgres.applied = .ok true := rfl

/-- The second request commits between the reads of the first and its head.
    Both commit, and no order of the two is serial. -/
theorem lost_update :
    ∃ σ, (interleavings signer (Postgres.Txn.CommitsOn dealId registeredTables) (fun _ _ => True)
        registeredTables).Reachable σ ∧
      σ.log = [secondQuote, firstQuote] ∧
      ∀ cs, cs.Perm σ.log → ¬ Database.Serial postgres (Postgres.Txn.code signer) Postgres.applied
        registeredTables cs σ.committed := by
  have hresumed : (postgres.exec (postgres.alone registeredTables (secondQuote.code signer)).2
      pausedQuote.program []).map (fun r => Postgres.applied r.1) = .ok true := rfl
  -- alone after the other, a request finds the quote requested
  have hstale : (postgres.alone (postgres.alone registeredTables (firstQuote.code signer)).2
        (secondQuote.code signer)).1.map Postgres.applied = .ok false ∧
      (postgres.alone (postgres.alone registeredTables (secondQuote.code signer)).2
        (firstQuote.code signer)).1.map Postgres.applied = .ok false := ⟨rfl, rfl⟩
  obtain ⟨r, hr, hok⟩ := ok_of_map secondQuote_applied
  obtain ⟨⟨r', w⟩, hr', hok'⟩ := ok_of_map hresumed
  obtain ⟨σ, hσ, hcommitted, hlog⟩ := Database.overtaken_reachable postgres
    (Postgres.Txn.code signer) Postgres.applied (Postgres.Txn.CommitsOn dealId registeredTables)
    (fun _ _ => True) (σ := .idle registeredTables) (.init rfl) (fun _ => rfl) firstQuote
    secondQuote True (fun _ _ _ _ => trivial) (fun _ _ _ => trivial) rfl rfl pausedQuote_pending
    (Prod.ext hr rfl) hok (.inr trivial) hr' hok'
  have hlog : σ.log = [secondQuote, firstQuote] := hlog
  refine ⟨σ, hσ, hlog, fun cs hcs hser => ?_⟩
  rw [hlog] at hcs
  have hcs : cs = [secondQuote, firstQuote] ∨ cs = [firstQuote, secondQuote] := by
    simpa [List.permutations, List.permutationsAux, List.permutationsAux.rec] using
      List.mem_permutations.2 hcs
  have hnot : ∀ {c c' : Postgres.Txn}, (postgres.alone
      (postgres.alone registeredTables (c.code signer)).2 (c'.code signer)).1.map
        Postgres.applied = .ok false → ¬ Database.Serial postgres (Postgres.Txn.code signer)
          Postgres.applied registeredTables [c, c'] σ.committed := by
    intro c c' hs h
    obtain ⟨a, ha, hok⟩ := h.pair
    rw [ha] at hs
    simp [Except.map, hok] at hs
  rcases hcs with rfl | rfl
  · exact hnot hstale.2 hser
  · exact hnot hstale.1 hser

/-- The denial of a counteroffer, under ids of its own. -/
def Sample.deniedOffer : Postgres.Txn :=
  .commitRequest (counteredEarly.commitRequest now.text) fun n => ids (n + 4)

/-- The tables after it. -/
def Sample.offeredTables : Tables := (postgres.alone registeredTables (deniedOffer.code signer)).2

/-- The denial changes neither the deal nor the commands that were read. -/
theorem Sample.pausedQuote_holds : pausedQuote.Holds postgres offeredTables := by
  have hreads : pausedQuote.reads = [⟨[], .deal dealId, registeredTables.deals.get? dealId⟩,
      ⟨[], .command (ulid 'C'), false⟩] := rfl
  have hsame : offeredTables.deals.get? dealId = registeredTables.deals.get? dealId ∧
      decide (ulid 'C' ∈ offeredTables.seenCommands) = false := ⟨rfl, rfl⟩
  intro read hread
  rw [hreads] at hread
  rcases List.mem_cons.1 hread with rfl | hread
  · exact hsame.1
  · rw [List.mem_singleton.1 hread]
    exact hsame.2

theorem Sample.firstQuote_steady (t : Tables)
    (x : Database.Session Query.Answer Write PyError (Option CommitResult) Postgres.Txn)
    (hx : x.txn = firstQuote) (h : x.Holds postgres t ∨ False) : Postgres.Steady dealId t x := by
  refine ⟨fun _ _ => h.resolve_right id, fun _ req hreq => ?_⟩
  rw [hx] at hreq
  cases hreq

theorem Sample.deniedOffer_steady
    (x : Database.Session Query.Answer Write PyError (Option CommitResult) Postgres.Txn)
    (hx : x.txn = deniedOffer) (h : x.Holds postgres registeredTables) :
    Postgres.Steady dealId registeredTables x := by
  have hnone : counteredEarly.requestId ∉ registeredTables.seenRequests ∧
      registeredTables.seenNonces.get? record.nonce = none := ⟨Finset.notMem_empty _, rfl⟩
  refine ⟨fun _ _ => h, fun _ req hreq => ?_⟩
  rw [hx] at hreq
  cases hreq
  rintro (hseen | ⟨owner, howned, -⟩)
  · exact hnone.1 hseen
  · cases hnone.2.symm.trans howned

/-- The denial commits between the reads of the request for a quote and its
    head, which finds the deal as it was read. -/
theorem quote_serializable :
    ∃ σ, (interleavings signer (Postgres.Txn.CommitsOn dealId registeredTables)
        (Postgres.Steady dealId) registeredTables).Reachable σ ∧
      σ.log = [deniedOffer, firstQuote] ∧
      Database.Serial postgres (Postgres.Txn.code signer) Postgres.applied registeredTables
        [deniedOffer, firstQuote] σ.committed ∧
      ∀ deal, σ.committed.deals.get? dealId = some deal →
        deal = replay dealId (σ.committed.eventsFor dealId) := by
  have hrival : (postgres.alone registeredTables (deniedOffer.code signer)).1.map
      Postgres.applied = .ok true := rfl
  have hresumed : (postgres.exec offeredTables pausedQuote.program []).map
      (fun r => Postgres.applied r.1) = .ok true := rfl
  obtain ⟨r, hr, hok⟩ := ok_of_map hrival
  obtain ⟨⟨r', w⟩, hr', hok'⟩ := ok_of_map hresumed
  obtain ⟨σ, hσ, -, hlog⟩ := Database.overtaken_reachable postgres (Postgres.Txn.code signer)
    Postgres.applied (Postgres.Txn.CommitsOn dealId registeredTables) (Postgres.Steady dealId)
    (σ := .idle registeredTables) (.init rfl) (fun _ => rfl) firstQuote deniedOffer False
    firstQuote_steady deniedOffer_steady rfl rfl pausedQuote_pending (Prod.ext hr rfl) hok
    (.inl pausedQuote_holds) hr' hok'
  have hlog : σ.log = [deniedOffer, firstQuote] := hlog
  obtain ⟨hser, hrow, -⟩ := commits_serializable registered_written σ hσ
  rw [hlog] at hser
  exact ⟨σ, hσ, hlog, hser, fun deal hd => (hrow deal hd).1⟩

end

end Mandate
