/-
  The sequence numbers of a deal's chain.

  Every commit plan appends events of its deal numbered from where the chain
  ends; so a chain is numbered from zero on.
-/
import Mandate.Ledger.CommitPlans

namespace Mandate

/-- Events of one deal, numbered from `seq` on. -/
structure Numbered (dealId : String) (seq : ℕ) (events : List Event) : Prop where
  dealId : ∀ e ∈ events, e.dealId = dealId
  numbers : events.map Event.sequenceNumber = List.range' seq events.length

variable {dealId : String} {seq : ℕ} {g g' : List Event}

theorem Numbered.nil : Numbered dealId seq [] := ⟨by simp, rfl⟩

theorem Numbered.append (h : Numbered dealId seq g) (h' : Numbered dealId (seq + g.length) g') :
    Numbered dealId seq (g ++ g') where
  dealId e he := (List.mem_append.1 he).elim (h.dealId e) (h'.dealId e)
  numbers := by
    rw [List.map_append, h.numbers, h'.numbers, List.length_append, List.range'_append_1]

theorem numbered_singleton {e : Event} (hd : e.dealId = dealId) (hn : e.sequenceNumber = seq) :
    Numbered dealId seq [e] where
  dealId e' he := by rw [List.mem_singleton.1 he, hd]
  numbers := by simp [hn]

theorem numbered_cons {e : Event} : Numbered dealId seq (e :: g) ↔
    e.dealId = dealId ∧ e.sequenceNumber = seq ∧ Numbered dealId (seq + 1) g := by
  constructor
  · intro h
    have hn : e.sequenceNumber = seq ∧
        g.map Event.sequenceNumber = List.range' (seq + 1) g.length := by
      simpa [List.range'_succ] using h.numbers
    exact ⟨h.dealId e (by simp), hn.1, fun e' he' => h.dealId e' (by simp [he']), hn.2⟩
  · rintro ⟨hd, hn, hg⟩
    exact (numbered_singleton hd hn).append hg

/-- A number below the end is taken, and no other. -/
theorem Numbered.exists_iff (h : Numbered dealId seq g) (n : ℕ) :
    (∃ e ∈ g, e.sequenceNumber = n) ↔ seq ≤ n ∧ n < seq + g.length := by
  rw [← List.mem_map, h.numbers, List.mem_range'_1]

/-- The first event has the first number. -/
theorem Numbered.head_mem (h : Numbered dealId seq g) (hg : g ≠ []) :
    ∃ e ∈ g, e.dealId = dealId ∧ e.sequenceNumber = seq := by
  have hlen : 0 < g.length := List.length_pos_iff.2 hg
  obtain ⟨e, he, hn⟩ := (h.exists_iff seq).2 ⟨Nat.le_refl _, by omega⟩
  exact ⟨e, he, h.dealId e he, hn⟩

theorem Numbered.extend {prevHash : String} {next : ℕ → String → Event} (h : Numbered dealId seq g)
    (hd : ∀ n prev, (next n prev).dealId = dealId)
    (hn : ∀ n prev, (next n prev).sequenceNumber = n) :
    Numbered dealId seq (extend seq prevHash g next) :=
  h.append (numbered_singleton (hd ..) (hn ..))

theorem extend_ne_nil {prevHash : String} {next : ℕ → String → Event} :
    extend seq prevHash g next ≠ [] := by
  simp [extend]

variable [Platform] {signer : GatewaySigner} {deal : Deal} {prevHash : String} {plan : CommitPlan}
  {ids : EventIds}

theorem numbered_recorded (signer : GatewaySigner) (req : CommitRequest) (mid did : String)
    (seq : ℕ) (prevHash : String) :
    Numbered req.dealId seq (req.recorded signer mid did seq prevHash) := by
  refine Numbered.extend ?_ (fun _ _ => rfl) (fun _ _ => rfl)
  unfold CommitRequest.messages
  split
  · exact numbered_singleton rfl rfl
  · exact .nil

theorem RequestPlan.numbered {req : CommitRequest}
    (h : RequestPlan signer deal seq prevHash req plan) :
    Numbered req.dealId seq plan.events ∧ plan.events ≠ [] := by
  have hrec := fun mid did => numbered_recorded signer req mid did seq prevHash
  cases h with
  | decided mid did ho =>
    dsimp only
    exact ⟨hrec mid did, extend_ne_nil⟩
  | applied mid did id token event target ho hv he ht =>
    dsimp only
    exact ⟨(hrec mid did).extend (fun _ _ => rfl) (fun _ _ => rfl), extend_ne_nil⟩
  | held mid did id aid approval ho ha =>
    dsimp only
    exact ⟨(hrec mid did).extend (fun _ _ => rfl) (fun _ _ => rfl), extend_ne_nil⟩

theorem TransitionPlan.numbered {req : TransitionRequest} {target : DealState}
    (h : TransitionPlan signer deal seq prevHash req target plan) :
    Numbered req.dealId seq plan.events ∧ plan.events ≠ [] := by
  have hmsg : ∀ mid, Numbered req.dealId seq (req.messages signer mid seq prevHash) := by
    intro mid
    unfold TransitionRequest.messages
    split
    · exact numbered_singleton rfl rfl
    · exact .nil
  cases h with
  | applied mid id =>
    dsimp only
    exact ⟨(hmsg mid).extend (fun _ _ => rfl) (fun _ _ => rfl), extend_ne_nil⟩

theorem ApprovalPlan.numbered {approval : Approval} {req : ApprovalRequest}
    {record : Option AuthorityRecord} {revoked : Bool} {token : Option ActionToken}
    (h : ApprovalPlan signer deal approval seq prevHash req record revoked token plan) :
    Numbered req.dealId seq plan.events ∧ plan.events ≠ [] := by
  cases h with
  | granted aid id approvalRecord action event target ho har hk hg he ht =>
    dsimp only
    have hfirst : Numbered req.dealId seq
        [req.grantedEvent signer aid seq prevHash approval.requestId approvalRecord] :=
      numbered_singleton rfl rfl
    exact ⟨hfirst.extend (fun _ _ => rfl) (fun _ _ => rfl), extend_ne_nil⟩
  | denied => exact ⟨numbered_singleton rfl rfl, List.cons_ne_nil _ _⟩

theorem RevocationPlan.numbered {req : RevocationRequest}
    (h : RevocationPlan signer deal seq prevHash req plan) :
    Numbered req.dealId seq plan.events ∧ plan.events ≠ [] := by
  cases h with
  | revoked => exact ⟨numbered_singleton rfl rfl, List.cons_ne_nil _ _⟩

/-! ## The ids of a plan -/

/-- The ids of a commit's events, in the order they are drawn. -/
def EventIds.drawn (ids : EventIds) : List String := (List.range 4).map ids

variable (seq signer prevHash) in
theorem recorded_ids (req : CommitRequest) (id id' : String) :
    ((req.recorded signer id id' seq prevHash).map Event.eventId).Sublist [id, id'] := by
  unfold CommitRequest.recorded CommitRequest.messages extend
  cases req.content with
  | none => exact (List.Sublist.refl [id']).cons id
  | some content => exact .refl _

theorem planCommitRequest_ids {req : CommitRequest} {event : Option DealEvent}
    (h : planCommitRequest signer deal seq prevHash req event ids = .ok plan) :
    (plan.events.map Event.eventId).Sublist ids.drawn := by
  obtain ⟨mid, hm, h₁⟩ := bind_ok.1 h
  obtain ⟨did, hd, h₂⟩ := bind_ok.1 h₁
  obtain ⟨plan', hp, h₃⟩ := bind_ok.1 h₂
  obtain ⟨-, rfl⟩ := makeEventId_eq_ok.1 hm
  obtain ⟨-, rfl⟩ := makeEventId_eq_ok.1 hd
  have hrec := recorded_ids seq signer prevHash req (ids 0) (ids 1)
  -- the decision's events come before those of what follows it
  have hext : ∀ {id : String} {next : ℕ → String → Event}, (∀ n prev, (next n prev).eventId = id) →
      ((extend seq prevHash (req.recorded signer (ids 0) (ids 1) seq prevHash) next).map
        Event.eventId).Sublist [ids 0, ids 1, id] := by
    intro id next hn
    rw [extend, List.map_append, List.map_singleton, hn]
    exact hrec.append (.refl [id])
  have hplan : (plan'.events.map Event.eventId).Sublist [ids 0, ids 1, ids 2] := by
    unfold CommitRequest.planEvent at hp
    cases event with
    | none =>
      cases hp
      exact hrec.trans (List.sublist_append_left [ids 0, ids 1] [ids 2])
    | some event =>
      obtain ⟨token, -, hp⟩ := bind_ok.1 hp
      obtain ⟨newDeal, -, hp⟩ := bind_ok.1 hp
      obtain ⟨id, hid, hp⟩ := bind_ok.1 hp
      obtain ⟨-, rfl⟩ := makeEventId_eq_ok.1 hid
      cases hp
      exact hext fun _ _ => rfl
  unfold CommitRequest.planApproval at h₃
  split_ifs at h₃ with ho
  · obtain ⟨aid, ha, h₄⟩ := bind_ok.1 h₃
    obtain ⟨approval, hpend, h₅⟩ := bind_ok.1 h₄
    obtain ⟨id, hid, h₆⟩ := bind_ok.1 h₅
    obtain ⟨-, rfl⟩ := makeEventId_eq_ok.1 hid
    cases h₆
    dsimp only
    rw [extend, List.map_append]
    exact hplan.append (.refl [ids 3])
  · cases h₃
    exact hplan.trans (List.sublist_append_left [ids 0, ids 1, ids 2] [ids 3])

theorem planCommitTransition_ids {req : TransitionRequest} {target : DealState}
    (h : planCommitTransition signer deal seq prevHash req target ids = .ok plan) :
    (plan.events.map Event.eventId).Sublist ids.drawn := by
  rw [planCommitTransition_applies req (planCommitTransition_stampable h)] at h
  cases h
  have hsub : ((req.messages signer (ids 0) seq prevHash).map Event.eventId).Sublist [ids 0] := by
    unfold TransitionRequest.messages
    cases req.content with
    | none => exact List.nil_sublist _
    | some content => exact .refl _
  dsimp only
  rw [extend, List.map_append]
  exact (hsub.append (.refl [ids 1])).trans (List.sublist_append_left [ids 0, ids 1] [ids 2, ids 3])

theorem planCommitApproval_ids {approval : Approval} {req : ApprovalRequest}
    {record : Option AuthorityRecord} {revoked : Bool} {token : Option ActionToken}
    (h : planCommitApproval signer deal approval seq prevHash req record revoked token ids =
      .ok plan) : (plan.events.map Event.eventId).Sublist ids.drawn := by
  obtain ⟨verdict, -, h⟩ := bind_ok.1 h
  cases verdict with
  | error denyReason =>
    obtain ⟨id, hm, h⟩ := bind_ok.1 h
    obtain ⟨-, rfl⟩ := makeEventId_eq_ok.1 hm
    cases h
    exact List.sublist_append_left [ids 0] [ids 1, ids 2, ids 3]
  | ok grant =>
    obtain ⟨newDeal, -, h₁⟩ := bind_ok.1 h
    obtain ⟨aid, ha, h₂⟩ := bind_ok.1 h₁
    obtain ⟨id, hm, h₃⟩ := bind_ok.1 h₂
    obtain ⟨-, rfl⟩ := makeEventId_eq_ok.1 ha
    obtain ⟨-, rfl⟩ := makeEventId_eq_ok.1 hm
    cases h₃
    exact List.sublist_append_left [ids 0, ids 1] [ids 2, ids 3]

theorem planCommitRevocation_ids {req : RevocationRequest}
    (h : planCommitRevocation signer deal seq prevHash req ids = .ok plan) :
    (plan.events.map Event.eventId).Sublist ids.drawn := by
  obtain ⟨id, hm, h⟩ := bind_ok.1 h
  obtain ⟨-, rfl⟩ := makeEventId_eq_ok.1 hm
  cases h
  exact List.sublist_append_left [ids 0] [ids 1, ids 2, ids 3]

end Mandate
