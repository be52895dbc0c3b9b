/-
  Bundles travel.

  A bundle is read section by section.  If its events, records and revocations
  survive, whatever carries the bundle is read as the same bundle
  (`EvidenceBundle.survives`), and the same bundle verifies
  (`EvidenceBundle.Same.verifies`).
-/
import Mandate.Ledger.DealSection
import Mandate.Ledger.EventTrips

namespace Mandate

open Json

/-! ## Reading -/

section
variable [Platform]

def GatewayPublicKeyRef.read (v : Json) : Option GatewayPublicKeyRef := do
  let fields ← readDict v
  return {
    algorithm := ← required fields "algorithm" readStr
    keyId := ← required fields "key_id" readStr
    keyB64url := ← required fields "key_b64url" readStr }

def BundleSummary.read (v : Json) : Option BundleSummary := do
  let fields ← readDict v
  return {
    chainHeadEventHash := ← required fields "chain_head_event_hash" readStr
    eventCount := ← required fields "event_count" Platform.laxInt
    chainSha256 := ← required fields "chain_sha256" readStr
    recordsSha256 := ← required fields "records_sha256" readStr
    revocationsSha256 := ← required fields "revocations_sha256" readStr }

def BundleDeal.read (v : Json) : Option BundleDeal := do
  let fields ← readDict v
  return {
    dealId := ← required fields "deal_id" readStr
    state := ← required fields "state" readStr
    negotiatedRounds := ← required fields "negotiated_rounds" Platform.laxInt
    committedMinor := ← required fields "committed_minor" Platform.laxInt
    openDisputes := ← required fields "open_disputes" Platform.laxInt
    openApprovals := ← required fields "open_approvals" Platform.laxInt
    createdAt := ← required fields "created_at" readStr }

def EvidenceBundle.read [TextForms] (v : Json) : Option EvidenceBundle := do
  let fields ← readDict v
  return {
    schemaVersion := ← required fields "schema_version" readStr
    exportedAt := ← required fields "exported_at" readStr
    deal := ← required fields "deal" BundleDeal.read
    events := ← required fields "events" (readList Event.read)
    authorityRecords := ← required fields "authority_records" (readList AuthorityRecord.read)
    revocations := ← required fields "revocations" (readList Revocation.read)
    gatewayPublicKey := ← required fields "gateway_public_key" GatewayPublicKeyRef.read
    verification := ← required fields "verification" BundleSummary.read
    summarySignature := ← required fields "summary_signature" SignatureBlock.read }

end

/-! ## The same bundle -/

/-- The bundles are equal but for the order in which members of payloads stand. -/
structure EvidenceBundle.Same (b b' : EvidenceBundle) : Prop where
  events : List.Forall₂ Event.Same b.events b'.events
  others : { b with events := [] } = { b' with events := [] }

/-! ## Sections -/

/-- Items that survive are read as the same items. -/
theorem Codec.survives_items {α : Type} {c : Codec α} {xs : List α} (h : ∀ x ∈ xs, c.Survives x)
    {w : Json} (hw : Carries w (.arr (xs.map c.write))) :
    ∃ ys, readList c.read w = some ys ∧ List.Forall₂ c.same ys xs := by
  obtain ⟨ws, rfl, hws⟩ := carries_arr hw
  clear hw
  rw [readList]
  induction xs generalizing ws with
  | nil =>
    cases hws
    exact ⟨[], rfl, .nil⟩
  | cons x xs ih =>
    cases hws with
    | @cons w _ ws _ hfirst hrest =>
      obtain ⟨y, hy, hsame⟩ := Codec.survives_iff.1 (h x (by simp)) w hfirst
      obtain ⟨ys, hys, hsames⟩ := ih (fun x' hx' => h x' (List.mem_cons_of_mem _ hx')) ws hrest
      exact ⟨y :: ys, by rw [List.mapM_cons, hy, hys]; rfl, .cons hsame hsames⟩

theorem readsAs_items {α : Type} {read : Json → Option α} {write : α → Json} {xs : List α}
    (h : ∀ x ∈ xs, ReadsAs read (write x) x) :
    ReadsAs (readList read) (.arr (xs.map write)) xs := by
  intro w hw
  obtain ⟨ys, hys, hsame⟩ := Codec.survives_items (c := Codec.ofEq read write)
    (fun x hx => Codec.ofEq_survives_iff.2 (h x hx)) hw
  have heq : ys = xs := (congrFun (congrFun List.forall₂_eq_eq_eq ys) xs).mp hsame
  rw [← heq]
  exact hys

variable [Platform]

omit [Platform] in
theorem readsAs_str (s : String) : ReadsAs readStr (.str s) s := by
  intro w hw
  rw [carries_str hw]
  rfl

theorem readsAs_int (hi : KeepsInts) (i : ℤ) : ReadsAs Platform.laxInt (.int i) i := by
  intro w hw
  rw [carries_int hw, hi]

omit [Platform] in
/-- One member of a model, and then the others. -/
theorem bind_member {α β : Type} {d : Dict String Json} {fields : List (String × Json)}
    (hd : Holds d fields) {key : String} {v : Json} (hk : Dict.getEntries key fields = some v)
    {read : Json → Option α} {a : α} (hr : ReadsAs read v a) {f : α → Option β} {b : β}
    (hf : f a = some b) : (required d key read >>= f) = some b :=
  Option.bind_eq_some_iff.2 ⟨a, hd.readsAs hk hr, hf⟩

omit [Platform] in
theorem SignatureBlock.readsAs (s : SignatureBlock) : ReadsAs SignatureBlock.read s.toJson s := by
  intro w hw
  obtain ⟨d, rfl, hd⟩ := carries_obj (by simp) hw
  refine Option.bind_eq_some_iff.2 ⟨d, readDict_entries d, ?_⟩
  exact bind_member hd rfl (readsAs_str _) <| bind_member hd rfl (readsAs_str _) <|
    bind_member hd rfl (readsAs_str _) rfl

omit [Platform] in
theorem GatewayPublicKeyRef.readsAs (k : GatewayPublicKeyRef) :
    ReadsAs GatewayPublicKeyRef.read k.toJson k := by
  intro w hw
  obtain ⟨d, rfl, hd⟩ := carries_obj (by simp) hw
  refine Option.bind_eq_some_iff.2 ⟨d, readDict_entries d, ?_⟩
  exact bind_member hd rfl (readsAs_str _) <| bind_member hd rfl (readsAs_str _) <|
    bind_member hd rfl (readsAs_str _) rfl

theorem BundleSummary.readsAs (hi : KeepsInts) (s : BundleSummary) :
    ReadsAs BundleSummary.read s.toJson s := by
  intro w hw
  obtain ⟨d, rfl, hd⟩ := carries_obj (by simp) hw
  refine Option.bind_eq_some_iff.2 ⟨d, readDict_entries d, ?_⟩
  exact bind_member hd rfl (readsAs_str _) <| bind_member hd rfl (readsAs_int hi _) <|
    bind_member hd rfl (readsAs_str _) <| bind_member hd rfl (readsAs_str _) <|
    bind_member hd rfl (readsAs_str _) rfl

theorem BundleDeal.readsAs (hi : KeepsInts) (deal : BundleDeal) :
    ReadsAs BundleDeal.read deal.toJson deal := by
  intro w hw
  obtain ⟨d, rfl, hd⟩ := carries_obj (by simp) hw
  refine Option.bind_eq_some_iff.2 ⟨d, readDict_entries d, ?_⟩
  exact bind_member hd rfl (readsAs_str _) <| bind_member hd rfl (readsAs_str _) <|
    bind_member hd rfl (readsAs_int hi _) <| bind_member hd rfl (readsAs_int hi _) <|
    bind_member hd rfl (readsAs_int hi _) <| bind_member hd rfl (readsAs_int hi _) <|
    bind_member hd rfl (readsAs_str _) rfl

/-- Whatever carries a bundle whose items survive is read as the same bundle. -/
theorem EvidenceBundle.survives [TextForms] (hi : KeepsInts) {b : EvidenceBundle}
    (he : ∀ e ∈ b.events, Event.codec.Survives e)
    (hr : ∀ r ∈ b.authorityRecords, ReadsAs AuthorityRecord.read r.toJson r)
    (hv : ∀ r ∈ b.revocations, ReadsAs Revocation.read r.toJson r) {w : Json}
    (hw : Carries w b.toJson) : ∃ b', EvidenceBundle.read w = some b' ∧ b'.Same b := by
  obtain ⟨d, rfl, hd⟩ := carries_obj (by simp) hw
  obtain ⟨x, hx, hc⟩ := hd "events" _ rfl
  obtain ⟨events, hevents, hsame⟩ := Codec.survives_items he hc
  have hmember : required d "events" (readList Event.read) = some events :=
    Option.bind_eq_some_iff.2 ⟨x, hx, hevents⟩
  refine ⟨{ b with events }, Option.bind_eq_some_iff.2 ⟨d, readDict_entries d, ?_⟩, hsame, rfl⟩
  exact bind_member hd rfl (readsAs_str _) <| bind_member hd rfl (readsAs_str _) <|
    bind_member hd rfl (b.deal.readsAs hi) <|
    Option.bind_eq_some_iff.2 ⟨events, hmember,
      bind_member hd rfl (readsAs_items hr) <| bind_member hd rfl (readsAs_items hv) <|
      bind_member hd rfl b.gatewayPublicKey.readsAs <|
      bind_member hd rfl (b.verification.readsAs hi) <|
      bind_member hd rfl b.summarySignature.readsAs rfl⟩

/-! ## Payloads that were read -/

omit [Platform] in
theorem readDict_eq_some {v : Json} {d : Dict String Json} (h : readDict v = some d) :
    v = .obj d.entries := by
  cases v with
  | obj fields =>
    rw [readDict] at h
    split_ifs at h
    cases h
    rfl
  | null | bool | int | str | arr => cases h

omit [Platform] in
/-- What is read of a value without repeated keys has none. -/
theorem required_distinct {v : Json} {d p : Dict String Json} {key : String} (hv : Distinct v)
    (hd : readDict v = some d) (h : required d key readDict = some p) :
    Distinct (.obj p.entries) := by
  obtain ⟨x, hx, hp⟩ := Option.bind_eq_some_iff.1 h
  rw [readDict_eq_some hd, Distinct] at hv
  rw [← readDict_eq_some hp]
  exact distinctFields_iff.1 hv.2 _ (Dict.mem_of_getEntries _ hx)

theorem Event.read_distinct {v : Json} {e : Event} (hv : Distinct v) (h : Event.read v = some e) :
    Distinct (.obj e.payload) := by
  obtain ⟨d, hd, h⟩ := Option.bind_eq_some_iff.1 h
  iterate 10 obtain ⟨_, -, h⟩ := Option.bind_eq_some_iff.1 h
  obtain ⟨payload, hp, h⟩ := Option.bind_eq_some_iff.1 h
  iterate 3 obtain ⟨_, -, h⟩ := Option.bind_eq_some_iff.1 h
  obtain ⟨-, rfl⟩ := Event.validate_ok.1 (toOption_eq_some.1 h)
  exact required_distinct hv hd hp

omit [Platform] in
theorem mem_of_mapM {α : Type} {read : Json → Option α} {vs : List Json} {xs : List α}
    (h : vs.mapM read = some xs) {x : α} (hx : x ∈ xs) : ∃ v ∈ vs, read v = some x := by
  induction vs generalizing xs with
  | nil =>
    cases h
    cases hx
  | cons v vs ih =>
    rw [List.mapM_cons] at h
    obtain ⟨y, hy, h⟩ := Option.bind_eq_some_iff.1 h
    obtain ⟨ys, hys, h⟩ := Option.bind_eq_some_iff.1 h
    cases h
    rcases List.mem_cons.1 hx with rfl | hx
    · exact ⟨v, by simp, hy⟩
    · obtain ⟨v', hv', hread⟩ := ih hys hx
      exact ⟨v', by simp [hv'], hread⟩

/-- The payloads of a bundle that was read have no repeated keys. -/
theorem EvidenceBundle.read_distinct [TextForms] {v : Json} {b : EvidenceBundle}
    (hv : Distinct v) (h : EvidenceBundle.read v = some b) :
    ∀ e ∈ b.events, Distinct (.obj e.payload) := by
  obtain ⟨d, hd, h⟩ := Option.bind_eq_some_iff.1 h
  iterate 3 obtain ⟨_, -, h⟩ := Option.bind_eq_some_iff.1 h
  obtain ⟨events, he, h⟩ := Option.bind_eq_some_iff.1 h
  iterate 5 obtain ⟨_, -, h⟩ := Option.bind_eq_some_iff.1 h
  cases h
  obtain ⟨x, hx, he⟩ := Option.bind_eq_some_iff.1 he
  have hdistinct : Distinct x := by
    rw [readDict_eq_some hd, Distinct] at hv
    exact distinctFields_iff.1 hv.2 _ (Dict.mem_of_getEntries _ hx)
  intro e hmem
  cases x with
  | arr vs =>
    obtain ⟨v', hv', hread⟩ := mem_of_mapM he hmem
    exact Event.read_distinct (distinctItems_iff.1 hdistinct v' hv') hread
  | null | bool | int | str | obj => cases he

/-! ## The same bundle verifies -/

theorem Event.Same.intact {e e' : Event} {publicKey : Bytes} {i : ℕ} {previous : String}
    (h : e.Same e') (hi : e'.Intact publicKey i previous) : e.Intact publicKey i previous where
  payloadHash := by
    have hbytes : canonicalBytes (.obj e.payload) = canonicalBytes (.obj e'.payload) :=
      canonicalBytes_inj.2 h.payload
    rw [h.payloadHash, hi.payloadHash, canonicalSha256Hex, canonicalSha256Hex, hbytes]
  eventHash := by rw [h.eventHash, hi.eventHash, h.signingBytes]
  algorithm := by rw [h.signature, hi.algorithm]
  signed := by
    rw [h.signature, h.signingBytes]
    exact hi.signed
  sequence := by rw [h.sequenceNumber, hi.sequence]
  link := by rw [h.previousEventHash, hi.link]

theorem intactFrom_same {events events' : List Event} {publicKey : Bytes} {i : ℕ}
    {previous : String} (hs : List.Forall₂ Event.Same events events')
    (h : IntactFrom publicKey i previous events') : IntactFrom publicKey i previous events := by
  induction hs generalizing i previous with
  | nil => trivial
  | cons he _ ih =>
    obtain ⟨hfirst, hrest⟩ := h
    exact ⟨he.intact hfirst, he.eventHash ▸ ih hrest⟩

theorem sectionSha256_same {events events' : List Event}
    (hs : List.Forall₂ Event.Same events events') :
    sectionSha256 (events.map Event.toJson) = sectionSha256 (events'.map Event.toJson) := by
  have hitems : normalizeItems (events.map Event.toJson) =
      normalizeItems (events'.map Event.toJson) := by
    induction hs with
    | nil => rfl
    | cons he _ ih =>
      rw [List.map_cons, List.map_cons, normalizeItems, normalizeItems, he.normalize, ih]
  have hbytes : canonicalBytes (.arr (events.map Event.toJson)) =
      canonicalBytes (.arr (events'.map Event.toJson)) :=
    canonicalBytes_inj.2 (by rw [Json.normalize, Json.normalize, hitems])
  rw [sectionSha256, sectionSha256, canonicalSha256Hex, canonicalSha256Hex, hbytes]

omit [Platform] in
theorem headEventHash_same {events events' : List Event}
    (hs : List.Forall₂ Event.Same events events') :
    headEventHash events = headEventHash events' := by
  have hhashes : events.map Event.eventHash = events'.map Event.eventHash := by
    induction hs with
    | nil => rfl
    | cons he _ ih => rw [List.map_cons, List.map_cons, he.eventHash, ih]
  rw [headEventHash, headEventHash, HashChain.headHash, HashChain.headHash, ← List.getLast?_map,
    ← List.getLast?_map, hhashes]

omit [Platform] in
/-- The last transitions tell the same. -/
theorem lastTransition_tells {events events' : List Event}
    (ht : List.Forall₂ Event.Tells events events') {last : Event}
    (h : lastTransition events = some last) :
    ∃ last', lastTransition events' = some last' ∧ last.Tells last' := by
  have hrev := List.rel_reverse ht
  unfold lastTransition at h ⊢
  generalize events.reverse = es at h hrev
  generalize events'.reverse = es' at hrev
  induction hrev with
  | nil => cases h
  | @cons e e' es es' he _ ih =>
    by_cases htype : e.eventType = .stateTransition
    · rw [List.find?_cons_of_pos (by simpa using htype)] at h
      cases h
      exact ⟨e', List.find?_cons_of_pos (by simpa using he.eventType ▸ htype), he⟩
    · rw [List.find?_cons_of_neg (by simpa using htype)] at h
      rw [List.find?_cons_of_neg (by simpa using he.eventType ▸ htype)]
      exact ih h

/-- The same bundle verifies. -/
theorem EvidenceBundle.Same.verifies {b b' : EvidenceBundle} {publicKey : Bytes} (h : b.Same b')
    (hd : ∀ e ∈ b.events, Distinct (.obj e.payload))
    (hd' : ∀ e ∈ b'.events, Distinct (.obj e.payload)) (hv : b'.Verifies publicKey) :
    b.Verifies publicKey := by
  obtain ⟨hevents, hothers⟩ := h
  have hlength := hevents.length_eq
  cases b
  cases b'
  simp only [EvidenceBundle.mk.injEq] at hothers
  obtain ⟨rfl, rfl, rfl, -, rfl, rfl, rfl, rfl, rfl⟩ := hothers
  exact {
    schemaVersion := hv.schemaVersion
    namedKey := hv.namedKey
    intact := intact_iff.2 (intactFrom_same hevents (intact_iff.1 hv.intact))
    eventCount := by rw [hv.eventCount, hlength]
    chain := by rw [hv.chain, sectionSha256_same hevents]
    records := hv.records
    revocations := hv.revocations
    head := by rw [hv.head, headEventHash_same hevents]
    algorithm := hv.algorithm
    keyId := hv.keyId
    signed := hv.signed
    dealState := by
      intro last hlast
      obtain ⟨last', hlast', ht⟩ := lastTransition_tells (tells_of_same hevents hd hd') hlast
      rw [ht.str?]
      exact hv.dealState last' hlast' }

end Mandate
