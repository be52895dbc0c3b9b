/-
  Whose answer a receipt is.

  Any number of gateways on a network that reorders, replays and redirects
  messages, and that signs nothing for a gateway.  A receipt that one of them
  accepts from a peer was issued by that peer and responds to the expected
  message id.  But `verifyReceipt` does not look at the recipient, so the
  receipt is the answer to the gateway's own message exactly when it is
  addressed to it (`receipt_answers_iff_addressed`, `redirected_receipt`).
-/
import Mandate.Transport.Effects

namespace Mandate

section
variable [Platform]

/-! ## Answers with a receipt -/

/-- The answer is accepted with a receipt for the message. -/
def Answer.Receipts (answer : Answer) (env : WireEnvelope) : Prop :=
  ∃ receipt g payload, answer = acceptedAnswer receipt ∧ receipt.Receipts g env payload

variable {g : Gateway} {env : WireEnvelope} {b : Boundary} {answer : Answer}

theorem proposalAnswer_accepted {result : ProcessResult}
    (h : proposalAnswer g env b result = .ok answer) (ha : answer.Accepted) :
    ∃ events reason decision, accepted g env b events reason decision = .ok answer := by
  unfold proposalAnswer at h
  split_ifs at h with hhit hpass
  · exact ⟨_, _, _, h⟩
  · cases h
    exact absurd ha (not_accepted_error 400 _)
  · cases hd : result.decision with
    | none =>
      rw [hd] at h
      cases h
    | some decision =>
      rw [hd] at h
      exact ⟨_, _, _, h⟩

theorem transitionAnswer_accepted {result : CommitResult}
    (h : transitionAnswer g env b result = .ok answer) (ha : answer.Accepted) :
    ∃ events reason decision, accepted g env b events reason decision = .ok answer := by
  unfold transitionAnswer at h
  split_ifs at h with happlied hcommitted
  · exact ⟨_, _, _, h⟩
  · cases h
    exact absurd ha (not_accepted_error 409 _)
  · exact ⟨_, _, _, h⟩

/-- An accepted answer was stored for the sender, or comes with a new receipt. -/
theorem processMessage_accepted (h : (processMessage g env b).1 = .ok answer)
    (ha : answer.Accepted) :
    (∃ fingerprint, g.dedup.get? (env.senderId, env.idempotencyKey) = some (fingerprint, answer)) ∨
      ∃ events reason decision, accepted g env b events reason decision = .ok answer := by
  have hcases := processMessage_cases g env b
  generalize processMessage g env b = done at hcases h
  cases hcases with
  | refused reason hr =>
    cases h
    exact absurd ha (not_accepted_error 400 reason)
  | again payload answer' hl hd =>
    cases h
    exact .inl ⟨_, hd⟩
  | receipt payload hadm =>
    cases h
    simp [Answer.Accepted, Json.get?, Dict.getEntries] at ha
  | proposal payload hadm done hh hd =>
    rw [keep_answer] at h
    cases hh with
    | unknown =>
      cases h
      exact absurd ha (not_accepted_error 404 _)
    | audience =>
      cases h
      exact absurd ha (not_accepted_error 403 _)
    | raised => cases h
    | processed record deal claim now hr hd haud hc hn r s hp =>
      cases r with
      | error e => cases h
      | ok result => exact .inr (proposalAnswer_accepted h ha)
  | event payload hadm done hh hd =>
    rw [keep_answer] at h
    cases hh with
    | refused status reason hs =>
      cases h
      exact absurd ha (not_accepted_error status reason)
    | committed deal event hd haud he r s hc =>
      cases r with
      | error e => cases h
      | ok result => exact .inr (transitionAnswer_accepted h ha)

omit [Platform] in
theorem acceptedAnswer_accepted (receipt : WireEnvelope) : (acceptedAnswer receipt).Accepted := rfl

omit [Platform] in
/-- An accepted answer determines all of its receipt but the signature. -/
theorem acceptedAnswer_unsigned {r r' : WireEnvelope} (h : acceptedAnswer r = acceptedAnswer r') :
    r.unsignedFields = r'.unsignedFields := by
  simp only [acceptedAnswer, Answer.mk.injEq, Json.obj.injEq, List.cons.injEq, Prod.mk.injEq,
    true_and, and_true] at h
  exact List.append_inj_left' (Json.obj.inj h) rfl

/-! ## The network -/

/-- What a gateway did under its key: it sent a message, or it answered one. -/
inductive Signed (ι : Type) where
  | sent (i : ι) (env : WireEnvelope)
  | answered (i : ι) (env : WireEnvelope) (answer : Answer)

/-- The gateways, and all that they sent and answered. -/
structure Network (ι : Type) where
  gateway : ι → Gateway
  log : List (Signed ι)

variable {ι : Type}

/-- The gateway signed the contents of the envelope. -/
def Network.Authored (w : Network ι) (i : ι) (r : WireEnvelope) : Prop :=
  ∃ r', envelopeSigningPayload r' = envelopeSigningPayload r ∧
    (.sent i r' ∈ w.log ∨ ∃ env, .answered i env (acceptedAnswer r') ∈ w.log)

/-- The envelope is one the network can make up: where its signature verifies
    under the key of a gateway, the gateway signed its contents. -/
def Network.Unforged (w : Network ι) (r : WireEnvelope) : Prop :=
  ∀ i raw, b64urlDecode r.signature.value = .ok raw →
    Platform.ed25519Verify (w.gateway i).identity.publicKey raw (envelopeSigningPayload r) →
      w.Authored i r

/-- The gateway issued the receipt as its answer to the message. -/
def Network.Issued (w : Network ι) (i : ι) (r env : WireEnvelope) : Prop :=
  ∃ r', envelopeSigningPayload r' = envelopeSigningPayload r ∧
    .answered i env (acceptedAnswer r') ∈ w.log

/-- The log after a message is answered; an exception answers nothing. -/
def Network.logged (w : Network ι) (i : ι) (env : WireEnvelope) :
    Except PyError Answer → List (Signed ι)
  | .ok answer => .answered i env answer :: w.log
  | .error _ => w.log

/-- One step of the network.  A gateway sends a message that is no receipt; the
    network delivers an envelope to a gateway; or an operator changes a ledger. -/
inductive NetworkStep [DecidableEq ι] (w : Network ι) : Network ι → Prop
  | send (i : ι) (kind : MessageKind) (payload : Dict String Json)
      (recipientId messageId idempotencyKey issuedAt : String) (env : WireEnvelope)
      (hk : kind ≠ .receipt)
      (he : makeEnvelope kind payload (w.gateway i).identity recipientId messageId idempotencyKey
        issuedAt = .ok env) :
      NetworkStep w { w with log := .sent i env :: w.log }
  | deliver (i : ι) (env : WireEnvelope) (b : Boundary) (hu : w.Unforged env) :
      NetworkStep w
        { gateway := Function.update w.gateway i (processMessage (w.gateway i) env b).2
          log := w.logged i env (processMessage (w.gateway i) env b).1 }
  | operate (i : ι) (store : Store) (dealRecords : Dict String String) :
      NetworkStep w { w with
        gateway := Function.update w.gateway i { w.gateway i with store, dealRecords } }

/-- The network, from gateways that have answered nothing on. -/
def network (ι : Type) [DecidableEq ι] : System (Network ι) where
  init w := w.log = [] ∧ ∀ i, (w.gateway i).dedup = .empty
  step := NetworkStep

/-- Every accepted answer comes with a receipt for a message of the same sender
    that was given this answer. -/
structure Network.Honest (w : Network ι) : Prop where
  sent : ∀ i env, .sent i env ∈ w.log → env.kind ≠ .receipt
  stored : ∀ i sender key fingerprint answer,
    (w.gateway i).dedup.get? (sender, key) = some (fingerprint, answer) → answer.Accepted →
      ∃ env, .answered i env answer ∈ w.log ∧ env.senderId = sender ∧ answer.Receipts env
  answered : ∀ i env answer, .answered i env answer ∈ w.log → answer.Accepted →
    ∃ env', .answered i env' answer ∈ w.log ∧ env'.senderId = env.senderId ∧ answer.Receipts env'

theorem Network.Honest.deliver [DecidableEq ι] {w : Network ι} (h : w.Honest) (i : ι)
    (env : WireEnvelope) (b : Boundary) :
    Network.Honest { gateway := Function.update w.gateway i (processMessage (w.gateway i) env b).2
                     log := w.logged i env (processMessage (w.gateway i) env b).1 } := by
  have hdedup := processMessage_dedup (w.gateway i) env b
  have haccepted : ∀ answer, (processMessage (w.gateway i) env b).1 = .ok answer →
      answer.Accepted → _ := fun _ => processMessage_accepted
  generalize processMessage (w.gateway i) env b = done at hdedup haccepted ⊢
  obtain ⟨r, g'⟩ := done
  have hlog : ∀ {e}, e ∈ w.log → e ∈ w.logged i env r := by
    intro e he
    cases r with
    | error _ => exact he
    | ok answer => exact List.mem_cons_of_mem _ he
  -- the answer just given, if it is accepted
  have hnew : ∀ answer, r = .ok answer → answer.Accepted → ∃ env',
      .answered i env' answer ∈ w.logged i env r ∧ env'.senderId = env.senderId ∧
        answer.Receipts env' := by
    rintro answer rfl ha
    rcases haccepted answer rfl ha with ⟨fingerprint, hd⟩ | ⟨events, reason, decision, hacc⟩
    · obtain ⟨env', hm, hs, hr⟩ := h.stored i _ _ _ _ hd ha
      exact ⟨env', hlog hm, hs, hr⟩
    · obtain ⟨receipt, rfl, hreceipt⟩ := accepted_ok hacc
      exact ⟨env, List.mem_cons_self, rfl, receipt, _, _, rfl, hreceipt⟩
  refine ⟨fun j e he => ?_, fun j sender key fingerprint answer hd ha => ?_,
    fun j e answer he ha => ?_⟩
  · cases r with
    | error _ => exact h.sent j e he
    | ok answer => exact h.sent j e ((List.mem_cons.1 he).resolve_left (by simp))
  · have hold : (w.gateway j).dedup.get? (sender, key) = some (fingerprint, answer) →
        ∃ env', .answered j env' answer ∈ w.logged i env r ∧ env'.senderId = sender ∧
          answer.Receipts env' := by
      intro hd
      obtain ⟨env', hm, hs, hr⟩ := h.stored j sender key fingerprint answer hd ha
      exact ⟨env', hlog hm, hs, hr⟩
    by_cases hij : j = i
    · subst hij
      simp only [Function.update_self] at hd
      rcases hdedup with hsame | ⟨own, hown, hset⟩
      · exact hold (hsame ▸ hd)
      · simp only at hset
        rw [hset, Dict.get?_set] at hd
        split_ifs at hd with hkey
        · cases hd
          cases hkey
          exact hnew answer hown ha
        · exact hold hd
    · simp only [Function.update_of_ne hij] at hd
      exact hold hd
  · cases r with
    | error _ =>
      obtain ⟨env', hm, hs, hr⟩ := h.answered j e answer he ha
      exact ⟨env', hm, hs, hr⟩
    | ok own =>
      rcases List.mem_cons.1 he with heq | hold
      · cases heq
        exact hnew answer rfl ha
      · obtain ⟨env', hm, hs, hr⟩ := h.answered j e answer hold ha
        exact ⟨env', hlog hm, hs, hr⟩

theorem honest_of_reachable [DecidableEq ι] {w : Network ι} (hr : (network ι).Reachable w) :
    w.Honest := by
  have hinv : (network ι).Invariant Network.Honest :=
    { init := by
        rintro w ⟨hlog, hdedup⟩
        refine ⟨?_, fun i sender key fingerprint answer hd => ?_, ?_⟩
        · rw [hlog]
          rintro i env ⟨⟩
        · rw [hdedup] at hd
          cases hd
        · rw [hlog]
          rintro i env answer ⟨⟩
      step := by
        rintro w w' - h (⟨i, kind, payload, recipientId, messageId, key, issuedAt, env, hk, he⟩ |
          ⟨i, env, b, hu⟩ | ⟨i, store, dealRecords⟩)
        · have hkind : env.kind = kind := by
            unfold makeEnvelope at he
            cases hkey : (w.gateway i).identity.privateKey with
            | none =>
              simp only [hkey] at he
              cases he
            | some privateKey =>
              simp only [hkey] at he
              obtain ⟨at', -, he⟩ := bind_ok.1 he
              cases he
              rfl
          refine ⟨fun j e hm => ?_, fun j sender key fingerprint answer hd ha => ?_,
            fun j e answer hm ha => ?_⟩
          · rcases List.mem_cons.1 hm with heq | hm
            · cases heq
              exact hkind ▸ hk
            · exact h.sent j e hm
          · obtain ⟨env', hm, hs, hr⟩ := h.stored j sender key fingerprint answer hd ha
            exact ⟨env', List.mem_cons_of_mem _ hm, hs, hr⟩
          · obtain ⟨env', hm', hs, hr⟩ := h.answered j e answer
              ((List.mem_cons.1 hm).resolve_left (by simp)) ha
            exact ⟨env', List.mem_cons_of_mem _ hm', hs, hr⟩
        · exact h.deliver i env b
        · refine ⟨h.sent, fun j sender key fingerprint answer hd ha => ?_, h.answered⟩
          by_cases hij : j = i
          · subst hij
            simp only [Function.update_self] at hd
            exact h.stored j sender key fingerprint answer hd ha
          · simp only [Function.update_of_ne hij] at hd
            exact h.stored j sender key fingerprint answer hd ha }
  exact hinv.holds hr

/-! ## Accepting a receipt -/

theorem verifyReceipt_ok {r : WireEnvelope} {peer : GatewayIdentity} {m : String}
    {now : Option String} {maxAge : Option ℤ} {payload : ReceiptPayload}
    (h : verifyReceipt r peer m now maxAge = .ok payload) :
    r.Authentic peer ∧ parsePayload r = .ok (.receipt payload) ∧ payload.respondsTo = m := by
  unfold verifyReceipt at h
  split_ifs at h with hk
  cases hv : verifyEnvelope r peer with
  | error reason =>
    rw [hv] at h
    cases h
  | ok u =>
    cases hp : parsePayload r with
    | error reason =>
      rw [hv, hp] at h
      cases h
    | ok p =>
      rw [hv, hp] at h
      cases p with
      | proposal p => cases h
      | counterpartyEvent p => cases h
      | receipt p =>
        simp only [bind, Except.bind] at h
        split_ifs at h with hm
        have hp : p = payload := by
          cases maxAge with
          | none => exact Except.ok.inj h
          | some maxAge =>
            cases now with
            | none => cases h
            | some now =>
              simp only at h
              split_ifs at h
              exact Except.ok.inj h
        subst hp
        exact ⟨verifyEnvelope_ok.1 hv, rfl, not_not.1 hm⟩

theorem receipt_members {env : WireEnvelope} {p : ReceiptPayload}
    (h : parsePayload env = .ok (.receipt p)) :
    env.payload.get? "responds_to" = some (.str p.respondsTo) := by
  have hkind : env.kind = .receipt := kind_of_parsed h
  simp only [parsePayload, hkind] at h
  cases hr : ReceiptPayload.read env.payload with
  | none => simp [hr] at h
  | some p' =>
    simp only [hr, Option.map_some, Except.ok.injEq, MessagePayload.receipt.injEq] at h
    subst h
    simp only [ReceiptPayload.read, Option.bind_eq_bind, Option.bind_eq_some_iff,
      Option.pure_def, Option.some.injEq] at hr
    obtain ⟨respondsTo, hrt, _, -, _, -, _, -, _, -, _, -, rfl⟩ := hr
    exact required_eq_some (fun _ => readUlid_eq_some) hrt

omit [Platform] in
/-- Envelopes with one signing payload say the same. -/
theorem same_contents {r r' : WireEnvelope}
    (h : envelopeSigningPayload r = envelopeSigningPayload r') :
    r.kind = r'.kind ∧ r.recipientId = r'.recipientId ∧
      Json.normalize (.obj r.payload.entries) = Json.normalize (.obj r'.payload.entries) := by
  have key := Json.member_inj (by simp [WireEnvelope.unsignedFields])
    (by simp [WireEnvelope.unsignedFields]) (Json.canonicalBytes_inj.1 h)
  have hkind : Json.normalize (.str r.kind.value) = Json.normalize (.str r'.kind.value) :=
    Option.some.inj (key "kind")
  have hrecipient : Json.normalize (.str r.recipientId) = Json.normalize (.str r'.recipientId) :=
    Option.some.inj (key "recipient_id")
  simp only [Json.normalize, Json.str.injEq] at hkind hrecipient
  exact ⟨MessageKind.value_inj hkind, hrecipient, Option.some.inj (key "payload")⟩

omit [Platform] in
/-- A receipt among the answers of a gateway is addressed to the sender, and
    responds to a message of that sender with the same answer. -/
theorem Network.Honest.addressed {w : Network ι} (h : w.Honest) {j : ι} {r r' env : WireEnvelope}
    (hs : envelopeSigningPayload r' = envelopeSigningPayload r)
    (hm : .answered j env (acceptedAnswer r') ∈ w.log) :
    r.recipientId = env.senderId ∧ ∃ env', w.Issued j r env' ∧ env'.senderId = env.senderId ∧
      r.payload.get? "responds_to" = some (.str env'.messageId) := by
  obtain ⟨env', hm', hsender, receipt, g, payload, heq, hreceipt⟩ :=
    h.answered j env _ hm (acceptedAnswer_accepted r')
  have hpayload : envelopeSigningPayload receipt = envelopeSigningPayload r := by
    rw [← hs, envelopeSigningPayload, envelopeSigningPayload, acceptedAnswer_unsigned heq]
  obtain ⟨-, hrecipient, hcontents⟩ := same_contents hpayload
  refine ⟨by rw [← hrecipient, hreceipt.recipient, hsender], env', ⟨r', hs, hm'⟩, hsender, ?_⟩
  refine str_of_normalize hcontents ?_
  rw [hreceipt.contents, ← hreceipt.respondsTo]
  rfl

/-- In every run of the network, a receipt that verifies under the key of a
    gateway and responds to the expected message id was issued by that gateway,
    and it was issued as the answer to a gateway's own message with that id
    exactly when it is addressed to this gateway. -/
theorem receipt_answers_iff_addressed [DecidableEq ι] {w : Network ι}
    (hr : (network ι).Reachable w) {r : WireEnvelope} (hu : w.Unforged r) (i j : ι)
    {peer : GatewayIdentity} (hkey : peer.publicKey = (w.gateway j).identity.publicKey)
    {messageId : String} {now : Option String} {maxAge : Option ℤ} {payload : ReceiptPayload}
    (h : verifyReceipt r peer messageId now maxAge = .ok payload) :
    (∃ env, w.Issued j r env) ∧
      ((∃ env, w.Issued j r env ∧ env.senderId = (w.gateway i).identity.identityId ∧
          env.messageId = messageId) ↔
        r.recipientId = (w.gateway i).identity.identityId) := by
  have hhonest := honest_of_reachable hr
  obtain ⟨hauth, hparsed, rfl⟩ := verifyReceipt_ok h
  obtain ⟨raw, hraw, hverify⟩ := hauth.signed
  -- only the gateway itself can have signed it, and it signs receipts only in its answers
  obtain ⟨r', hs, hsent | ⟨env, hm⟩⟩ := hu j raw hraw (hkey ▸ hverify)
  · refine absurd ?_ (hhonest.sent j r' hsent)
    rw [(same_contents hs).1]
    exact kind_of_parsed hparsed
  · obtain ⟨hrecipient, env', hissued, hsender, hresponds⟩ := hhonest.addressed hs hm
    refine ⟨⟨env', hissued⟩, ?_, fun haddressed => ⟨env', hissued, ?_, ?_⟩⟩
    · rintro ⟨own, ⟨r'', hs', hm'⟩, hown, -⟩
      rw [(hhonest.addressed hs' hm').1, hown]
    · rw [hsender, ← hrecipient, haddressed]
    · rw [receipt_members hparsed, Option.some.injEq, Json.str.injEq] at hresponds
      exact hresponds.symm

end

/-! ## Issued receipts verify -/

section
variable [Platform]

/-- The identity signs, and what it signs verifies. -/
def GatewayIdentity.Signs (identity : GatewayIdentity) : Prop :=
  ∀ key, identity.privateKey = some key → ∀ payload, Platform.ed25519Sign key payload ≠ [] ∧
    Platform.ed25519Verify identity.publicKey (Platform.ed25519Sign key payload) payload

theorem makeEnvelope_authentic {kind : MessageKind} {payload : Dict String Json}
    {sender : GatewayIdentity} {recipientId messageId idempotencyKey issuedAt : String}
    {env : WireEnvelope} (hs : sender.Signs) (h : makeEnvelope kind payload sender recipientId
      messageId idempotencyKey issuedAt = .ok env) :
    env.Authentic sender ∧ env.kind = kind ∧ env.payload = payload := by
  unfold makeEnvelope at h
  cases hk : sender.privateKey with
  | none =>
    simp only [hk] at h
    cases h
  | some key =>
    simp only [hk] at h
    obtain ⟨at', -, h⟩ := bind_ok.1 h
    cases h
    exact ⟨⟨rfl, rfl, rfl, rfl, _, b64urlDecode_b64urlEncode (hs key hk _).1, (hs key hk _).2⟩,
      rfl, rfl⟩

omit [Platform] in
theorem readStrs_map (xs : List String) : readStrs (.arr (xs.map .str)) = some xs := by
  rw [readStrs, List.mapM_map]
  induction xs with
  | nil => rfl
  | cons x xs ih =>
    rw [List.mapM_cons, ih]
    rfl

/-- What a gateway writes into a receipt is read back. -/
theorem ReceiptPayload.read_fields {p : ReceiptPayload} (hu : matchesUlid p.respondsTo.toList)
    (hl : Platform.laxInt (.int p.status) = some p.status)
    (hd : ∀ v ∈ p.decision, ∃ fields, v = .obj fields) : ReceiptPayload.read p.fields = some p := by
  have hid : readUlid (.str p.respondsTo) = some p.respondsTo :=
    Option.filter_eq_some_iff.2 ⟨rfl, hu⟩
  have ho : (StrEnum.ofValue? p.outcome.value : Option ReceiptOutcome) = some p.outcome :=
    StrEnum.ofValue?_value _
  have hreason : readOptional readStr (optStr p.reason) = some p.reason := by
    cases p.reason <;> rfl
  have hdecision : readOptional readObject (p.decision.getD .null) = some p.decision := by
    cases hv : p.decision with
    | none => rfl
    | some v =>
      obtain ⟨fields, rfl⟩ := hd v hv
      rfl
  simp [ReceiptPayload.read, required, withDefault, ReceiptPayload.fields, Dict.get?,
    Dict.getEntries, hid, ho, hl, hreason, hdecision, readStrs_map, readStr]

/-- An accepted answer comes with a receipt that verifies for its message. -/
theorem accepted_verifies {g : Gateway} {env : WireEnvelope} {b : Boundary} {events : List String}
    {reason : Option String} {decision : Option PolicyDecision} {answer : Answer}
    (hs : g.identity.Signs) (hu : matchesUlid env.messageId.toList)
    (hl : Platform.laxInt (.int 200) = some 200)
    (h : accepted g env b events reason decision = .ok answer) :
    ∃ receipt payload, answer = acceptedAnswer receipt ∧
      verifyReceipt receipt g.identity env.messageId none none = .ok payload := by
  obtain ⟨receipt, hr, h⟩ := bind_ok.1 h
  cases h
  obtain ⟨hauth, hkind, hpayload⟩ := makeEnvelope_authentic hs hr
  obtain ⟨payload, hfields, hid, hstatus, hdecision⟩ : ∃ payload : ReceiptPayload,
      receipt.payload = payload.fields ∧ payload.respondsTo = env.messageId ∧
        payload.status = 200 ∧ ∀ v ∈ payload.decision, ∃ fields, v = .obj fields := by
    refine ⟨_, hpayload, rfl, rfl, fun v hv => ?_⟩
    obtain ⟨d, -, rfl⟩ := Option.map_eq_some_iff.1 hv
    exact ⟨_, rfl⟩
  have hread : parsePayload receipt = .ok (.receipt payload) := by
    simp only [parsePayload, hkind, hfields, Option.map_some,
      ReceiptPayload.read_fields (hid ▸ hu) (hstatus ▸ hl) hdecision]
  refine ⟨receipt, payload, rfl, ?_⟩
  rw [verifyReceipt, if_neg (not_not.2 hkind), verifyEnvelope_ok.2 hauth, hread]
  simp only [bind, Except.bind, hid, ne_eq, not_true_eq_false, if_false]

end

/-! ## A redirected receipt -/

section
open Sample
attribute [local instance] Sample.platform

/-- Another registered peer of the gateway. -/
def Sample.thief : GatewayIdentity := ⟨ulid 'T', [7, 8, 9], some [7, 8, 9]⟩

/-- The gateway that holds the deal, with two peers, and the gateway of the
    first peer. -/
def Sample.pair : Bool → Gateway
  | true => { opened with peers := opened.peers.set thief.identityId thief }
  | false => { blank with identity := peer, peers := Dict.empty.set identity.identityId identity }

/-- The thief's message, under the message id of the peer's. -/
def Sample.copied : WireEnvelope :=
  let draft := { message '1' .quoteRequested with
    idempotencyKey := ulid '2', senderId := thief.identityId
    signature := ⟨algorithm, thief.identityId, ""⟩ }
  { draft with signature := ⟨algorithm, thief.identityId,
      Mandate.sign thief.publicKey (envelopeSigningPayload draft)⟩ }

theorem Sample.message_made (n : Char) (event : DealEvent) :
    makeEnvelope .counterpartyEvent (message n event).payload peer identity.identityId (ulid n)
      (ulid n) boundary.now = .ok (message n event) := by
  have hkey : peer.privateKey = some peer.publicKey := rfl
  simp only [makeEnvelope, hkey, timestampField_now]
  rfl

theorem Sample.identity_signs : identity.Signs := by
  rintro key hk payload
  cases hk
  exact ⟨List.cons_ne_nil _ _, rfl⟩

/-- A signature that decodes to a key verifies under that key only. -/
theorem Sample.unforged_of {w : Network Bool} {r : WireEnvelope} {raw : Bytes}
    (hraw : b64urlDecode r.signature.value = .ok raw)
    (h : ∀ i, (w.gateway i).identity.publicKey = raw → w.Authored i r) : w.Unforged r := by
  intro i raw' hraw' hverify
  rw [hraw] at hraw'
  cases hraw'
  exact h i (of_decide_eq_true hverify).symm

/-- The network after the first peer sent its message and the gateway answered
    an envelope. -/
def Sample.exchanged (env : WireEnvelope) (receipt : WireEnvelope) : Network Bool where
  gateway := Function.update pair true (processMessage (pair true) env boundary).2
  log := [.answered true env (acceptedAnswer receipt), .sent false (message '1' .quoteRequested)]

theorem Sample.exchanged_identity (env receipt : WireEnvelope) (i : Bool) :
    ((exchanged env receipt).gateway i).identity = (pair i).identity := by
  cases i with
  | false => rfl
  | true => exact (deliver_setUp (pair true) ⟨env, boundary, false⟩).1

/-- An accepted envelope under the message id of the first peer's message leads
    to a receipt that this peer accepts. -/
theorem Sample.exchanged_receipt (env : WireEnvelope) {raw : Bytes}
    (hid : env.messageId = ulid '1') (hraw : b64urlDecode env.signature.value = .ok raw)
    (hauthored : ∀ i, (pair i).identity.publicKey = raw →
      Network.Authored ⟨pair, [.sent false (message '1' .quoteRequested)]⟩ i env)
    (hok : (processMessage (pair true) env boundary).1.toOption.map
      (fun answer => (answer.body.get? "outcome").bind readStr) = some (some "accepted")) :
    ∃ r payload, (network Bool).Reachable (exchanged env r) ∧ (exchanged env r).Unforged r ∧
      verifyReceipt r identity (ulid '1') none none = .ok payload := by
  obtain ⟨answer, hp, ha⟩ := exists_accepted hok
  rcases processMessage_accepted hp ha with ⟨fingerprint, hd⟩ | ⟨events, reason, decision, hacc⟩
  · cases hd
  · obtain ⟨r, payload, rfl, hverify⟩ :=
      accepted_verifies identity_signs (by rw [hid]; decide) rfl hacc
    have hinit : (network Bool).Reachable ⟨pair, []⟩ := .init ⟨rfl, by rintro (_ | _) <;> rfl⟩
    have hsent := hinit.step (.send false .counterpartyEvent _ _ _ _ _ (message '1' .quoteRequested)
      (by decide) (message_made '1' .quoteRequested))
    have hanswered := hsent.step (.deliver true env boundary (unforged_of hraw hauthored))
    simp only [Network.logged, hp] at hanswered
    refine ⟨r, payload, hanswered, ?_, hid ▸ hverify⟩
    obtain ⟨raw', hraw', hsigned⟩ := (verifyReceipt_ok hverify).1.signed
    refine unforged_of hraw' fun i hkey => ?_
    rw [exchanged_identity, of_decide_eq_true hsigned] at hkey
    cases i with
    | false => cases hkey
    | true => exact ⟨r, rfl, .inr ⟨env, List.mem_cons_self⟩⟩

theorem receipt_answers_iff_addressed_own : ∃ r,
    (∃ env, (exchanged (message '1' .quoteRequested) r).Issued true r env) ∧
      ((∃ env, (exchanged (message '1' .quoteRequested) r).Issued true r env ∧
          env.senderId = peer.identityId ∧ env.messageId = ulid '1') ↔
        r.recipientId = peer.identityId) := by
  have hauthored : ∀ i, (pair i).identity.publicKey = peer.publicKey →
      Network.Authored ⟨pair, [.sent false (message '1' .quoteRequested)]⟩ i
        (message '1' .quoteRequested) := by
    rintro (_ | _) hkey
    · exact ⟨_, rfl, .inl List.mem_cons_self⟩
    · cases hkey
  obtain ⟨r, payload, hr, hu, hv⟩ := exchanged_receipt (message '1' .quoteRequested) rfl decode_peer
    hauthored (by decide +kernel)
  exact ⟨r, receipt_answers_iff_addressed hr hu false true
    (congrArg GatewayIdentity.publicKey (exchanged_identity _ r true)).symm hv⟩

/-- The peer has sent a message, and it accepts the receipt that answers the
    message of the thief, who copied the id.  The gateway has not answered the
    peer at all. -/
theorem redirected_receipt : ∃ (w : Network Bool) (r : WireEnvelope) (payload : ReceiptPayload),
    (network Bool).Reachable w ∧ w.Unforged r ∧
      .sent false (message '1' .quoteRequested) ∈ w.log ∧
      verifyReceipt r (w.gateway true).identity (message '1' .quoteRequested).messageId none none =
        .ok payload ∧
      ¬ ∃ env, w.Issued true r env ∧ env.senderId = (w.gateway false).identity.identityId ∧
        env.messageId = (message '1' .quoteRequested).messageId := by
  obtain ⟨r, payload, hr, hu, hv⟩ := exchanged_receipt copied rfl
    (b64urlDecode_b64urlEncode (by decide)) (by rintro (_ | _) ⟨⟩) (by decide +kernel)
  refine ⟨exchanged copied r, r, payload, hr, hu, by simp [exchanged], ?_, ?_⟩
  · rw [exchanged_identity]
    exact hv
  · rintro ⟨env, ⟨r', hs, hm⟩, hsender, -⟩
    simp only [exchanged, List.mem_cons, Signed.answered.injEq, true_and, reduceCtorEq,
      List.not_mem_nil, or_self, or_false] at hm
    rw [exchanged_identity, hm.1] at hsender
    have hne : thief.identityId ≠ peer.identityId := by decide
    exact hne hsender

end

end Mandate
