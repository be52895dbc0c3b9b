/-
  The deal section of a bundle.

  The summary binds the deal's id and the events, and one check compares the
  state with the last transition; the rest of the section is bound by nothing.
  So a bundle that verifies names the deal of its events, and its state is the
  replayed one where the chain has a transition; any other section with that
  id and that state verifies as well (`deal_section_bound`).
-/
import Mandate.Ledger.Anchoring
import Mandate.Ledger.Replay
import Mandate.Ledger.Writing

namespace Mandate

/-! ## Events of one form tell the same -/

section
variable {e e' : Event}

/-- The events have one type, and the same payload as JSON objects. -/
structure Event.Tells (e e' : Event) : Prop where
  eventType : e.eventType = e'.eventType
  member : ∀ key, (e.field key).map Json.normalize = (e'.field key).map Json.normalize

theorem Event.SameForm.tells (h : e.SameForm e') (hd : Json.Distinct (.obj e.payload))
    (hd' : Json.Distinct (.obj e'.payload)) : e.Tells e' where
  eventType := h.eventType
  member := Json.member_inj hd.1 hd'.1 h.payload

theorem Event.Tells.str? (h : e.Tells e') (key : String) : e.str? key = e'.str? key := by
  have hm := h.member key
  unfold Event.str?
  generalize e.field key = x at hm
  generalize e'.field key = y at hm
  rcases x with _ | (_ | _ | _ | _ | _ | _) <;> rcases y with _ | (_ | _ | _ | _ | _ | _) <;>
    simp_all [Json.normalize]

theorem Event.Tells.int? (h : e.Tells e') (key : String) : e.int? key = e'.int? key := by
  have hm := h.member key
  unfold Event.int?
  generalize e.field key = x at hm
  generalize e'.field key = y at hm
  rcases x with _ | (_ | _ | _ | _ | _ | _) <;> rcases y with _ | (_ | _ | _ | _ | _ | _) <;>
    simp_all [Json.normalize]

theorem Event.Tells.transition? (h : e.Tells e') : e.transition? = e'.transition? := by
  simp only [Event.transition?, h.eventType, h.str?, h.int?]

theorem Event.Tells.approval? (h : e.Tells e') : e.approval? = e'.approval? := by
  simp only [Event.approval?, h.eventType, h.str?, h.int?]

theorem Event.Tells.decision? (h : e.Tells e') : e.decision? = e'.decision? := by
  simp only [Event.decision?, h.eventType, h.str?, h.int?]

theorem Event.Tells.replayEvent (h : e.Tells e') (deal : Deal) :
    Mandate.replayEvent deal e = Mandate.replayEvent deal e' := by
  unfold Mandate.replayEvent
  rw [h.transition?, h.approval?]

theorem Event.Readable.tells (hr : e.Readable) (h : e.Tells e') : e'.Readable where
  transition ht := h.transition? ▸ hr.transition (h.eventType.trans ht)
  approval ht := h.approval? ▸ hr.approval (h.eventType.trans ht)
  decision ht := h.decision? ▸ hr.decision (h.eventType.trans ht)

theorem Takes.tells {deal deal' : Deal} {events events' : List Event}
    (h : Takes deal events deal') (ht : List.Forall₂ Event.Tells events events') :
    Takes deal events' deal' where
  replay := by
    rw [← h.replay]
    clear h
    induction ht generalizing deal with
    | nil => rfl
    | cons he _ ih => rw [List.foldl_cons, List.foldl_cons, ih, he.replayEvent]
  walk := by
    have htransitions : transitionsOf events' = transitionsOf events := by
      clear h
      unfold transitionsOf
      induction ht with
      | nil => rfl
      | cons he _ ih => rw [List.filterMap_cons, List.filterMap_cons, ih, he.transition?]
    rw [htransitions]
    exact h.walk
  readable e' he' := by
    obtain ⟨i, hi, rfl⟩ := List.getElem_of_mem he'
    rw [List.forall₂_iff_get] at ht
    have hlt : i < events.length := ht.1 ▸ hi
    exact (h.readable _ (List.getElem_mem hlt)).tells (ht.2 i hlt hi)

end

/-! ## The last transition of a chain -/

/-- The last transition the checks of a bundle look at. -/
def lastTransition (events : List Event) : Option Event :=
  events.reverse.find? (·.eventType = .stateTransition)

theorem lastTransition_isSome {events : List Event} :
    (lastTransition events).isSome ↔ ∃ e ∈ events, e.eventType = .stateTransition := by
  simp [lastTransition]

theorem Walk.last {s u : DealState} {ts : List TransitionEntry} (h : Walk s ts u) :
    ∀ t ∈ ts.getLast?, t.toState = u := by
  induction ts generalizing s with
  | nil => rintro t ⟨⟩
  | cons t ts ih =>
    intro t' ht'
    obtain ⟨-, -, hwalk⟩ := h
    cases ts with
    | nil =>
      cases ht'
      exact hwalk
    | cons t₂ ts => exact ih hwalk t' (by rwa [List.getLast?_cons_cons] at ht')

/-- Of a readable chain, the last transition event tells the last transition. -/
theorem lastTransition_eq {events : List Event} (h : ∀ e ∈ events, e.Readable) :
    (lastTransition events).bind Event.transition? = (transitionsOf events).getLast? := by
  unfold lastTransition transitionsOf
  rw [List.getLast?_filterMap]
  have hrev : ∀ e ∈ events.reverse, e.Readable := fun e he => h e (List.mem_reverse.1 he)
  generalize events.reverse = es at hrev ⊢
  induction es with
  | nil => rfl
  | cons e es ih =>
    by_cases ht : e.eventType = .stateTransition
    · obtain ⟨t, hte⟩ := Option.isSome_iff_exists.1 ((hrev e (by simp)).transition ht)
      rw [List.find?_cons_of_pos (by simpa using ht), List.findSome?_cons_of_isSome (by simp [hte])]
      rfl
    · rw [List.find?_cons_of_neg (by simpa using ht), List.findSome?_cons_of_isNone
        (by simp [transition?_of_ne ht])]
      exact ih fun e he => hrev e (List.mem_cons_of_mem _ he)

theorem transition?_toState {e : Event} {t : TransitionEntry} (h : e.transition? = some t) :
    e.str? "to_state" = some t.toState.value := by
  unfold Event.transition? at h
  split_ifs at h
  cases hs : e.str? "to_state" with
  | none => simp [hs] at h
  | some s =>
    simp only [hs, Option.bind_eq_bind, Option.bind_some, Option.bind_eq_some_iff] at h
    obtain ⟨_, _, _, _, _, _, _, _, toState, hv, h⟩ := h
    cases h
    have hvalue : toState.value = s := StrEnum.ofValue?_eq_some.1 hv
    rw [← hvalue]

/-- The last transition of a chain leads to the deal's state. -/
theorem Takes.lastState {deal deal' : Deal} {events : List Event} (h : Takes deal events deal')
    {last : Event} (hl : lastTransition events = some last) :
    last.str? "to_state" = some deal'.state.value := by
  have hlast := lastTransition_eq h.readable
  have htype : last.eventType = .stateTransition := by
    simpa using List.find?_some hl
  have hmem : last ∈ events := List.mem_reverse.1 (List.mem_of_find?_eq_some hl)
  obtain ⟨t, ht⟩ := Option.isSome_iff_exists.1 ((h.readable last hmem).transition htype)
  rw [hl, Option.bind_some, ht] at hlast
  rw [← h.walk.last t hlast.symm]
  exact transition?_toState ht

/-! ## What a verified section says -/

section
variable [Platform]

/-- The events of the export are those stored for its deal. -/
def BundleCall.Exported (call : BundleCall) : Prop :=
  ∃ s deal, (ledger call.signer).Reachable s ∧ s.deals.get? call.deal.dealId = some deal ∧
    call.events = s.eventsFor call.deal.dealId

/-- The stored chain tells of its deal, names it in every event and has JSON
    payloads. -/
theorem BundleCall.Exported.chain {call : BundleCall} (h : call.Exported) :
    (∃ deal, Takes (.fresh call.deal.dealId) call.events deal) ∧
      ∀ e ∈ call.events, e.dealId = call.deal.dealId ∧ Json.Distinct (.obj e.payload) := by
  obtain ⟨s, deal, hr, hd, he⟩ := h
  refine ⟨?_, fun e hm => ?_⟩
  · obtain ⟨chain, hc, ht, -⟩ := ((faithful_invariant call.signer).holds hr).row _ deal hd
    rw [he, Store.eventsFor_of_get? hc]
    exact ⟨deal, ht⟩
  · have hwritten := (written_invariant call.signer).holds hr call.deal.dealId
    rw [← he] at hwritten
    obtain ⟨i, hi⟩ := List.getElem?_of_mem hm
    have hthis := HashChain.chained_iff.1 hwritten i e hi
    exact ⟨hthis.dealId_eq, hthis.payload⟩

omit [Platform] in
theorem tells_of_same {events events' : List Event} (h : List.Forall₂ Event.Same events events')
    (hd : ∀ e ∈ events, Json.Distinct (.obj e.payload))
    (hd' : ∀ e ∈ events', Json.Distinct (.obj e.payload)) :
    List.Forall₂ Event.Tells events events' := by
  induction h with
  | nil => exact .nil
  | cons he _ ih =>
    refine .cons (he.tells (hd _ (by simp)) (hd' _ (by simp))) ?_
    exact ih (fun e hm => hd e (List.mem_cons_of_mem _ hm))
      fun e hm => hd' e (List.mem_cons_of_mem _ hm)

/-- A section with the id, and with the state where the chain has a transition,
    verifies as well as the bundle's own. -/
theorem EvidenceBundle.Verifies.withDeal {publicKey : Bytes} {b : EvidenceBundle}
    (h : b.Verifies publicKey) {deal : BundleDeal} (hid : deal.dealId = b.deal.dealId)
    (hs : (∃ e ∈ b.events, e.eventType = .stateTransition) → deal.state = b.deal.state) :
    { b with deal }.Verifies publicKey where
  schemaVersion := h.schemaVersion
  namedKey := h.namedKey
  intact := h.intact
  eventCount := h.eventCount
  chain := h.chain
  records := h.records
  revocations := h.revocations
  head := h.head
  algorithm := h.algorithm
  keyId := h.keyId
  signed := hid ▸ h.signed
  dealState last hl := by
    have htransition := lastTransition_isSome.1 (Option.isSome_of_mem hl)
    rw [h.dealState last hl]
    exact congrArg some (hs htransition).symm

/-- In a bundle that verifies, the section names the deal of every event, and
    its state is the replayed one if the chain has a transition.  Any other
    section with that id and that state verifies as well. -/
theorem deal_section_bound {publicKey : Bytes} {log : List SignedItem}
    {expectedKey : ExpectedKey} {b : EvidenceBundle} (hf : CollisionFree)
    (hu : ChainKeyUse publicKey log) (hx : ∀ call, .summary call ∈ log → call.Exported)
    (hkey : expectedKey.load = .ok publicKey)
    (hb : ∀ e ∈ b.events, Json.Distinct (.obj e.payload))
    (h : (verifyBundle b expectedKey).ok = true) :
    (∀ e ∈ b.events, e.dealId = b.deal.dealId) ∧
      ((∃ e ∈ b.events, e.eventType = .stateTransition) →
        b.deal.state = (replay b.deal.dealId b.events).state.value) ∧
      ∀ deal : BundleDeal, deal.dealId = b.deal.dealId →
        ((∃ e ∈ b.events, e.eventType = .stateTransition) → deal.state = b.deal.state) →
        (verifyBundle { b with deal } expectedKey).ok = true := by
  have hv := (verifyBundle_ok hkey).1 h
  obtain ⟨call, hcall, -, hid, hsame, -, -⟩ := hv.exported hf hu
  obtain ⟨⟨deal, htakes⟩, hchain⟩ := (hx call hcall).chain
  have htells := tells_of_same hsame (fun e he => (hchain e he).2) hb
  have htakes' := htakes.tells htells
  refine ⟨fun e he => ?_, fun htransition => ?_, fun deal hid hs => ?_⟩
  · obtain ⟨i, hi, rfl⟩ := List.getElem_of_mem he
    rw [List.forall₂_iff_get] at hsame
    have hlt : i < call.events.length := hsame.1 ▸ hi
    have hevent : call.events[i].dealId = b.events[i].dealId := (hsame.2 i hlt hi).dealId
    rw [← hevent, (hchain _ (List.getElem_mem hlt)).1, hid]
  · obtain ⟨last, hlast⟩ := Option.isSome_iff_exists.1 (lastTransition_isSome.2 htransition)
    have hstate := (hv.dealState last hlast).symm.trans (htakes'.lastState hlast)
    rw [Option.some.injEq] at hstate
    rw [hstate, ← hid, replay, htakes'.replay]
  · exact (verifyBundle_ok hkey).2 (hv.withDeal hid hs)

end

/-! ## A section with another counter -/

open Sample

section
attribute [local instance] Sample.platform

def Sample.storedExport : BundleCall :=
  ⟨now.text, { dealId, state := .quoteRequested }, start.text, quoted.eventsFor dealId, [], [],
    signer⟩

def Sample.storedUses : List SignedItem :=
  (quoted.eventsFor dealId).map .event ++ [.summary Sample.storedExport]

end

/-- A platform on which only the payloads of these uses verify. -/
@[reducible] def Sample.recipient : Platform :=
  { Sample.platform with
    ed25519Verify := fun publicKey signature payload =>
      signature == publicKey &&
        (storedUses.map (@SignedItem.payload Sample.platform)).contains payload }

attribute [local instance] Sample.recipient

theorem Sample.storedUses_ideal : ChainKeyUse signer.publicKey storedUses where
  ideal signature payload h := by
    obtain ⟨-, hm⟩ := Bool.and_eq_true_iff.1 h
    exact List.mem_map.1 (List.contains_iff_mem.1 hm)
  key call hm := by
    rcases List.mem_append.1 hm with hm | hm
    · obtain ⟨e, -, he⟩ := List.mem_map.1 hm
      cases he
    · cases List.mem_singleton.1 hm
      rfl

/-- The section claims a commitment that no event tells of. -/
def Sample.altered : EvidenceBundle :=
  let b := Sample.storedExport.bundle
  { b with deal := { b.deal with committedMinor := 500 } }

/-- The store of the export, on this platform. -/
def Sample.stored : Store :=
  LedgerOp.run signer ids (LedgerOp.run signer ids .empty (.createDeal dealId start.text))
    (.commitTransition quoteRequested)

theorem Sample.stored_reachable : (ledger signer).Reachable stored :=
  .step (.step (.init rfl) ⟨.createDeal dealId start.text, ids, trivial, rfl⟩)
    ⟨.commitTransition quoteRequested, ids, trivial, rfl⟩

theorem Sample.storedExport_events : storedExport.events = stored.eventsFor dealId := rfl

theorem Sample.storedUses_exported : ∀ call, .summary call ∈ storedUses → call.Exported := by
  intro call hm
  rcases List.mem_append.1 hm with hm | hm
  · obtain ⟨e, -, he⟩ := List.mem_map.1 hm
    cases he
  · cases List.mem_singleton.1 hm
    exact ⟨stored, _, stored_reachable, rfl, storedExport_events⟩

theorem Sample.storedUse_signed (item : SignedItem) (h : item ∈ storedUses) :
    ∃ raw, b64urlDecode (signer.signBytes item.payload) = .ok raw ∧
      Platform.ed25519Verify signer.publicKey raw item.payload :=
  ⟨signer.publicKey, b64urlDecode_b64urlEncode (List.cons_ne_nil _ _),
    Bool.and_eq_true_iff.2 ⟨rfl, List.contains_iff_mem.2 (List.mem_map_of_mem h)⟩⟩

theorem Sample.storedExport_verifies : storedExport.bundle.Verifies signer.publicKey := by
  obtain ⟨chain, hc, htakes, -⟩ := ((faithful_invariant signer).holds stored_reachable).row dealId
    { Deal.fresh dealId with state := .quoteRequested } rfl
  have hchain : storedExport.events = chain :=
    storedExport_events.trans (Store.eventsFor_of_get? hc)
  have hwritten := (written_invariant signer).holds stored_reachable dealId
  rw [← storedExport_events] at hwritten
  refine buildBundle_verifies (hwritten.intact fun e he => ?_)
    (storedUse_signed (.summary storedExport) (by simp [storedUses])) ?_
  · obtain ⟨i, hi⟩ := List.getElem?_of_mem he
    have hsigned := storedUse_signed (.event e) (List.mem_append_left _ (List.mem_map_of_mem he))
    obtain ⟨header, id, t, p, -, rfl⟩ := (HashChain.chained_iff.1 hwritten i e hi).built
    exact hsigned
  · intro last hlast
    rw [hchain] at hlast
    exact htakes.lastState hlast

theorem Sample.altered_ok : (verifyBundle altered (.key signer.publicKey)).ok = true :=
  (verifyBundle_ok rfl).2 (storedExport_verifies.withDeal rfl fun _ => rfl)

theorem deal_section_altered :
    CollisionFree ∧ ChainKeyUse signer.publicKey Sample.storedUses ∧
      (∀ call, .summary call ∈ Sample.storedUses → call.Exported) ∧
      (verifyBundle Sample.altered (.key signer.publicKey)).ok = true ∧
      Sample.altered.deal.committedMinor = 500 ∧
      (replay Sample.altered.deal.dealId Sample.altered.events).committedMinor = 0 :=
  ⟨Sample.collisionFree, Sample.storedUses_ideal, Sample.storedUses_exported, Sample.altered_ok,
    rfl, rfl⟩

theorem Sample.altered_transition : ∃ e ∈ altered.events, e.eventType = .stateTransition := by
  have hany : altered.events.any (fun e => e.eventType = .stateTransition) = true := rfl
  simpa using hany

theorem deal_section_bound_altered :
    (∀ e ∈ Sample.altered.events, e.dealId = dealId) ∧
      Sample.altered.deal.state = (replay dealId Sample.altered.events).state.value := by
  have hwritten := (written_invariant signer).holds Sample.stored_reachable dealId
  rw [← Sample.storedExport_events] at hwritten
  have hpayload : ∀ e ∈ Sample.altered.events, Json.Distinct (.obj e.payload) := by
    intro e he
    obtain ⟨i, hi⟩ := List.getElem?_of_mem he
    exact (HashChain.chained_iff.1 hwritten i e hi).payload
  have hbound := deal_section_bound Sample.collisionFree Sample.storedUses_ideal
    Sample.storedUses_exported rfl hpayload Sample.altered_ok
  exact ⟨hbound.1, hbound.2.1 Sample.altered_transition⟩

end Mandate
