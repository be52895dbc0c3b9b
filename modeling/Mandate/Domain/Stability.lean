/-
  What a model was read as is read again from what is written of it.

  Every field reader is stable: identifiers, enumerations, amounts and lists
  are kept as they are, and a timestamp is written in its normal form.  The
  one exception is the currency, whose upper case can have more than three
  letters (`iso4217_again_iff`); so revocations and approvals are stable, and
  an authority record is exactly if its currency is.
-/
import Mandate.Domain.Reading

namespace Mandate

open Json

variable [Platform]

/-! ## Keys -/

section
omit [Platform]

theorem distinct_optInt (n : Option ℤ) : (optInt n).Distinct := by
  cases n <;> simp [optInt, Distinct]

theorem SignatureBlock.distinct (s : SignatureBlock) : s.toJson.Distinct := by
  simp [SignatureBlock.toJson, Distinct, DistinctFields]

theorem ApprovalRecord.distinct (r : ApprovalRecord) : r.toJson.Distinct := by
  simp [ApprovalRecord.toJson, ApprovalRecord.unsignedFields, Distinct, DistinctFields,
    distinct_optInt, r.signature.distinct]

theorem Revocation.distinct (r : Revocation) : r.toJson.Distinct := by
  simp [Revocation.toJson, Revocation.unsignedFields, Distinct, DistinctFields,
    r.signature.distinct]

theorem AuthorityRecord.distinct (r : AuthorityRecord) : r.toJson.Distinct := by
  have hactions : ∀ actions : List ActionToken,
      DistinctItems (actions.map fun a => .str a.value) := by
    intro actions
    refine distinctItems_iff.2 fun x hx => ?_
    obtain ⟨a, -, rfl⟩ := List.mem_map.1 hx
    trivial
  have hfields : DistinctItems (r.disclosureFields.map .str) := by
    refine distinctItems_iff.2 fun x hx => ?_
    obtain ⟨s, -, rfl⟩ := List.mem_map.1 hx
    trivial
  have hoptStr : ∀ s : Option String, (optStr s).Distinct := by
    intro s
    cases s <;> trivial
  simp [AuthorityRecord.toJson, AuthorityRecord.unsignedFields, SpendCap.toJson,
    SignatureBlock.toJson, Distinct, DistinctFields, hactions, hfields, hoptStr]

end

/-! ## Field readers -/

section
omit [Platform]

theorem stable_str : Stable readStr .str := by
  intro v s _ w hw
  rw [carries_str hw]
  rfl

/-- A reader of strings that keeps what it has normalised. -/
theorem stable_text {α : Type} {f : String → Option α} {text : α → String}
    (hf : ∀ s a, f s = some a → f (text a) = some a) :
    Stable (fun v => (readStr v).bind f) fun a => .str (text a) := by
  intro v a h w hw
  obtain ⟨s, -, hs⟩ := Option.bind_eq_some_iff.1 h
  rw [carries_str hw]
  exact hf s a hs

theorem stable_ulid : Stable readUlid .str := by
  intro v s h w hw
  rw [readUlid, Option.filter_eq_some_iff] at h
  rw [carries_str hw, readUlid, readStr, Option.filter_eq_some_iff]
  exact ⟨rfl, h.2⟩

theorem stable_enum {α : Type} [StrEnum α] : Stable readEnum fun a : α => .str (StrEnum.value a) :=
  stable_text fun _ a _ => StrEnum.ofValue?_value a

theorem stable_strs : Stable readStrs fun xs => .arr (xs.map .str) := by
  intro v xs h w hw
  cases v with
  | arr vs =>
    obtain ⟨ws, rfl, hws⟩ := carries_arr hw
    exact stable_str.items h hws
  | null | bool | int | str | obj => cases h

theorem stable_list {α : Type} {read : Json → Option α} {write : α → Json}
    (hs : Stable read write) : Stable (readList read) fun xs => .arr (xs.map write) := by
  intro v xs h w hw
  cases v with
  | arr vs =>
    obtain ⟨ws, rfl, hws⟩ := carries_arr hw
    exact hs.items h hws
  | null | bool | int | str | obj => cases h

theorem readOptional_of_ne {α : Type} {read : Json → Option α} {v : Json} (h : v ≠ .null) :
    readOptional read v = (read v).map some := by
  cases v with
  | null => exact absurd rfl h
  | bool | int | str | arr | obj => rfl

theorem stable_optional {α : Type} {read : Json → Option α} {write : α → Json}
    {writeOptional : Option α → Json} (hs : Stable read write) (hnone : writeOptional none = .null)
    (hsome : ∀ a, writeOptional (some a) = write a) (hnull : ∀ a, write a ≠ .null) :
    Stable (readOptional read) writeOptional := by
  intro v o h w hw
  cases o with
  | none =>
    rw [hnone] at hw
    rw [carries_null hw]
    rfl
  | some a =>
    rw [hsome] at hw
    have hv : v ≠ .null := by
      rintro rfl
      cases h
    have hw' : w ≠ .null := by
      rintro rfl
      have hnorm := hw.2
      cases hwa : write a <;> simp_all [Json.normalize]
    rw [readOptional_of_ne hv, Option.map_eq_some_iff] at h
    obtain ⟨a', hread, heq⟩ := h
    cases heq
    rw [readOptional_of_ne hw', hs hread w hw]
    rfl

theorem stable_optStr {read : Json → Option String} (hs : Stable read .str) :
    Stable (readOptional read) optStr :=
  stable_optional hs rfl (fun _ => rfl) fun _ => by simp

/-- Of a reading that starts with a stable field: the rest of it, and how it
    starts again. -/
theorem stable_field {α β : Type} {read : Json → Option α} {write : α → Json}
    (hs : Stable read write) {d : Dict String Json} {key : String} {f : α → Option β} {b : β}
    (h : (required d key read >>= f) = some b) :
    ∃ a, f a = some b ∧ ∀ {d' : Dict String Json} {fields : List (String × Json)},
      Holds d' fields → Dict.getEntries key fields = some (write a) →
        ∀ {f' : α → Option β} {b' : β}, f' a = some b' →
          (required d' key read >>= f') = some b' := by
  obtain ⟨a, ha, h⟩ := Option.bind_eq_some_iff.1 h
  refine ⟨a, h, fun hd hk f' b' hf => Option.bind_eq_some_iff.2 ⟨a, ?_, hf⟩⟩
  exact hs.member ha hd hk

theorem stable_default {α β : Type} {read : Json → Option α} {write : α → Json} {default : α}
    (hs : Stable read write) (hdefault : ReadsAs read (write default) default)
    {d : Dict String Json} {key : String} {f : α → Option β} {b : β}
    (h : (withDefault d key read default >>= f) = some b) :
    ∃ a, f a = some b ∧ ∀ {d' : Dict String Json} {fields : List (String × Json)},
      Holds d' fields → Dict.getEntries key fields = some (write a) →
        ∀ {f' : α → Option β} {b' : β}, f' a = some b' →
          (withDefault d' key read default >>= f') = some b' := by
  obtain ⟨a, ha, h⟩ := Option.bind_eq_some_iff.1 h
  have hagain : ReadsAs read (write a) a := by
    unfold withDefault at ha
    cases hv : d.get? key with
    | some v => exact hs (by rwa [hv] at ha)
    | none =>
      rw [hv] at ha
      cases ha
      exact hdefault
  refine ⟨a, h, fun hd hk f' b' hf => Option.bind_eq_some_iff.2 ⟨a, ?_, hf⟩⟩
  obtain ⟨w, hw, hc⟩ := hd _ _ hk
  rw [withDefault, hw]
  exact hagain w hc

theorem readDict_entries (d : Dict String Json) : readDict (.obj d.entries) = some d :=
  dif_pos d.nodup

end

theorem stable_timestamp : Stable readTimestamp fun t => .str t.text := by
  refine stable_text fun s t h => ?_
  cases hs : timestampField s with
  | error e => rw [hs] at h; cases h
  | ok t' =>
    rw [hs] at h
    cases h
    rw [timestampField_text hs]
    rfl

theorem stable_rfc3339 : Stable readRfc3339 .str := by
  refine @stable_text String _ id fun s t h => ?_
  cases hs : validateRfc3339 s with
  | error e => rw [hs] at h; cases h
  | ok t' =>
    rw [hs] at h
    cases h
    rw [id, validateRfc3339_idem hs]
    rfl

/-- The validation library keeps an integer in an integer field. -/
def KeepsInts : Prop := ∀ i : ℤ, Platform.laxInt (.int i) = some i

theorem stable_laxInt (hi : KeepsInts) : Stable Platform.laxInt .int := by
  intro v i _ w hw
  rw [carries_int hw, hi]

theorem readsAs_amount (hi : KeepsInts) (n : ℕ) : ReadsAs readAmount (.int n) n := by
  intro w hw
  rw [carries_int hw, readAmount, hi, Option.bind_some, if_neg (by omega), Int.toNat_natCast]

theorem stable_amount (hi : KeepsInts) : Stable readAmount fun n => .int (n : ℤ) :=
  fun _ n _ => readsAs_amount hi n

theorem stable_optAmount (hi : KeepsInts) :
    Stable (readOptional readAmount) fun n => optInt (n.map fun n : ℕ => (n : ℤ)) :=
  stable_optional (stable_amount hi) rfl (fun _ => rfl) fun _ => by simp

/-! ## Models -/

section
omit [Platform]

theorem stable_signatureBlock : Stable SignatureBlock.read SignatureBlock.toJson := by
  intro v s h w hw
  obtain ⟨d, -, h⟩ := Option.bind_eq_some_iff.1 h
  obtain ⟨algorithm, h, k₁⟩ := stable_field stable_str h
  obtain ⟨keyId, h, k₂⟩ := stable_field stable_str h
  obtain ⟨value, h, k₃⟩ := stable_field stable_str h
  cases h
  obtain ⟨d', rfl, hd⟩ := carries_obj (by simp) hw
  refine Option.bind_eq_some_iff.2 ⟨d', readDict_entries d', ?_⟩
  exact k₁ hd rfl <| k₂ hd rfl <| k₃ hd rfl rfl

end

theorem stable_revocation : Stable Revocation.read Revocation.toJson := by
  intro v r h w hw
  obtain ⟨d, -, h⟩ := Option.bind_eq_some_iff.1 h
  obtain ⟨schemaVersion, h, k₁⟩ := stable_field stable_str h
  obtain ⟨revocationId, h, k₂⟩ := stable_field stable_ulid h
  obtain ⟨recordId, h, k₃⟩ := stable_field stable_ulid h
  obtain ⟨revokedAt, h, k₄⟩ := stable_field stable_timestamp h
  obtain ⟨signature, h, k₅⟩ := stable_field stable_signatureBlock h
  cases h
  obtain ⟨d', rfl, hd⟩ := carries_obj (by simp [Revocation.unsignedFields]) hw
  refine Option.bind_eq_some_iff.2 ⟨d', readDict_entries d', ?_⟩
  exact k₁ hd rfl <| k₂ hd rfl <| k₃ hd rfl <| k₄ hd rfl <| k₅ hd rfl rfl

theorem stable_approvalRecord (hi : KeepsInts) :
    Stable ApprovalRecord.read ApprovalRecord.toJson := by
  intro v r h w hw
  obtain ⟨d, -, h⟩ := Option.bind_eq_some_iff.1 h
  obtain ⟨schemaVersion, h, k₁⟩ := stable_field stable_str h
  obtain ⟨approvalRecordId, h, k₂⟩ := stable_field stable_ulid h
  obtain ⟨dealId, h, k₃⟩ := stable_field stable_ulid h
  obtain ⟨requestId, h, k₄⟩ := stable_field stable_ulid h
  obtain ⟨parent, h, k₅⟩ := stable_field stable_ulid h
  obtain ⟨action, h, k₆⟩ := stable_field stable_str h
  obtain ⟨amountMinor, h, k₇⟩ := stable_field (stable_optAmount hi) h
  obtain ⟨currency, h, k₈⟩ := stable_field stable_str h
  obtain ⟨proposalDigest, h, k₉⟩ := stable_field stable_str h
  obtain ⟨issuedAt, h, k₁₀⟩ := stable_field stable_timestamp h
  obtain ⟨signature, h, k₁₁⟩ := stable_field stable_signatureBlock h
  cases h
  obtain ⟨d', rfl, hd⟩ := carries_obj (by simp [ApprovalRecord.unsignedFields]) hw
  refine Option.bind_eq_some_iff.2 ⟨d', readDict_entries d', ?_⟩
  exact k₁ hd rfl <| k₂ hd rfl <| k₃ hd rfl <| k₄ hd rfl <| k₅ hd rfl <| k₆ hd rfl <| k₇ hd rfl <|
    k₈ hd rfl <| k₉ hd rfl <| k₁₀ hd rfl <| k₁₁ hd rfl rfl

theorem stable_approval (hi : KeepsInts) : Stable Approval.read Approval.toJson := by
  intro v r h w hw
  obtain ⟨d, -, h⟩ := Option.bind_eq_some_iff.1 h
  obtain ⟨amountMinor, h, k₁⟩ := stable_field (stable_optAmount hi) h
  obtain ⟨approvalId, h, k₂⟩ := stable_field stable_ulid h
  obtain ⟨dealId, h, k₃⟩ := stable_field stable_ulid h
  obtain ⟨requestId, h, k₄⟩ := stable_field stable_ulid h
  obtain ⟨recordId, h, k₅⟩ := stable_field stable_ulid h
  obtain ⟨action, h, k₆⟩ := stable_field stable_str h
  obtain ⟨currency, h, k₇⟩ := stable_field stable_str h
  obtain ⟨proposalDigest, h, k₈⟩ := stable_field stable_str h
  obtain ⟨reasonCode, h, k₉⟩ := stable_field stable_enum h
  obtain ⟨status, h, k₁₀⟩ := stable_field stable_enum h
  obtain ⟨decidedBy, h, k₁₁⟩ := stable_field (stable_optStr stable_str) h
  obtain ⟨decidedAt, h, k₁₂⟩ := stable_field (stable_optStr stable_rfc3339) h
  obtain ⟨commandId, h, k₁₃⟩ := stable_field (stable_optStr stable_ulid) h
  obtain ⟨createdAt, h, k₁₄⟩ := stable_field stable_rfc3339 h
  cases h
  obtain ⟨d', rfl, hd⟩ := carries_obj (by simp) hw
  refine Option.bind_eq_some_iff.2 ⟨d', readDict_entries d', ?_⟩
  exact k₁ hd rfl <| k₂ hd rfl <| k₃ hd rfl <| k₄ hd rfl <| k₅ hd rfl <| k₆ hd rfl <| k₇ hd rfl <|
    k₈ hd rfl <| k₉ hd rfl <| k₁₀ hd rfl <| k₁₁ hd rfl <| k₁₂ hd rfl <| k₁₃ hd rfl <| k₁₄ hd rfl
    rfl

/-! ## The currency -/

variable [TextForms]

/-- Every character has an upper case, and a letter's, where it is a single
    character, is a letter and its own upper case. -/
structure UpperLetters : Prop where
  nonempty : ∀ c, TextForms.upper c ≠ []
  letter : ∀ c d, TextForms.isAlpha c → TextForms.upper c = [d] →
    TextForms.isAlpha d ∧ TextForms.upper d = [d]

/-- Every character of the text has a single character for its upper case. -/
def SingleUpper (v : String) : Prop := ∀ c ∈ v.toList, ∃ d, TextForms.upper c = [d]

theorem iso4217_ok {v s : String} : iso4217 v = .ok s ↔
    v.length = 3 ∧ (∀ c ∈ v.toList, TextForms.isAlpha c) ∧ upperCase v = s := by
  unfold iso4217
  split_ifs with h
  · refine iff_of_false (by rintro ⟨⟩) ?_
    rintro ⟨hlen, halpha, -⟩
    rcases h with h | h
    · exact h hlen
    · exact h (List.all_eq_true.2 halpha)
  · simp only [not_or, not_not, List.all_eq_true] at h
    rw [Except.ok.injEq]
    exact ⟨fun hs => ⟨h.1, h.2, hs⟩, fun hs => hs.2.2⟩

omit [Platform] in
/-- A text whose upper case is no longer has only single upper cases. -/
theorem singleUpper_of_length (hu : UpperLetters) {v : String}
    (h : (upperCase v).length = v.length) : SingleUpper v := by
  have hle : ∀ cs : List Char, cs.length ≤ (cs.flatMap TextForms.upper).length := by
    intro cs
    induction cs with
    | nil => simp
    | cons c cs ih =>
      have hpos := List.length_pos_iff.2 (hu.nonempty c)
      rw [List.flatMap_cons, List.length_append, List.length_cons]
      omega
  rw [upperCase, String.length_ofList, ← String.length_toList] at h
  unfold SingleUpper
  generalize v.toList = cs at h ⊢
  induction cs with
  | nil => simp
  | cons c cs ih =>
    have hpos := List.length_pos_iff.2 (hu.nonempty c)
    have hrest := hle cs
    rw [List.flatMap_cons, List.length_append, List.length_cons] at h
    rw [List.forall_mem_cons]
    exact ⟨List.length_eq_one_iff.1 (by omega), ih (by omega)⟩

omit [Platform] in
/-- Single upper cases of letters are letters in upper case. -/
theorem upperCase_single (hu : UpperLetters) {v : String}
    (ha : ∀ c ∈ v.toList, TextForms.isAlpha c) (hs : SingleUpper v) :
    (upperCase v).length = v.length ∧ (∀ c ∈ (upperCase v).toList, TextForms.isAlpha c) ∧
      upperCase (upperCase v) = upperCase v := by
  have hlist : (v.toList.flatMap TextForms.upper).length = v.toList.length ∧
      (∀ c ∈ v.toList.flatMap TextForms.upper, TextForms.isAlpha c) ∧
      (v.toList.flatMap TextForms.upper).flatMap TextForms.upper =
        v.toList.flatMap TextForms.upper := by
    unfold SingleUpper at hs
    generalize v.toList = cs at ha hs ⊢
    induction cs with
    | nil => simp
    | cons c cs ih =>
      rw [List.forall_mem_cons] at ha hs
      obtain ⟨d, hd⟩ := hs.1
      obtain ⟨hlen, halpha, hfix⟩ := ih ha.2 hs.2
      obtain ⟨hda, hdu⟩ := hu.letter c d ha.1 hd
      rw [List.flatMap_cons, hd, List.singleton_append, List.flatMap_cons, hdu, hfix]
      exact ⟨by simp [hlen], List.forall_mem_cons.2 ⟨hda, halpha⟩, rfl⟩
  simp only [upperCase, String.toList_ofList, ← String.length_toList]
  exact ⟨hlist.1, hlist.2.1, congrArg String.ofList hlist.2.2⟩

/-- A currency validates again exactly if every letter of what was submitted
    has a single letter for its upper case. -/
theorem iso4217_again_iff (hu : UpperLetters) {v s : String} (h : iso4217 v = .ok s) :
    iso4217 s = .ok s ↔ SingleUpper v := by
  obtain ⟨hlen, halpha, rfl⟩ := iso4217_ok.1 h
  rw [iso4217_ok]
  constructor
  · rintro ⟨hlen', -, -⟩
    exact singleUpper_of_length hu (hlen'.trans hlen.symm)
  · intro hs
    obtain ⟨hlen', halpha', hfix⟩ := upperCase_single hu halpha hs
    exact ⟨hlen'.trans hlen, halpha', hfix⟩

/-! ## Authority records -/

/-- The currency a record was submitted with. -/
def submittedCurrency (v : Json) : Option String := do
  let fields ← readDict v
  let cap ← required fields "spend_cap" readDict
  required cap "currency" readStr

theorem SpendCap.readsAs (hi : KeepsInts) {cap : SpendCap}
    (hc : iso4217 cap.currency = .ok cap.currency) : ReadsAs SpendCap.read cap.toJson cap := by
  intro w hw
  have hcurrency : ReadsAs readCurrency (.str cap.currency) cap.currency := by
    intro w hw
    rw [carries_str hw, readCurrency, readStr, Option.bind_some, hc]
    rfl
  obtain ⟨d, rfl, hd⟩ := carries_obj (by simp) hw
  refine Option.bind_eq_some_iff.2 ⟨d, readDict_entries d, ?_⟩
  refine Option.bind_eq_some_iff.2 ⟨cap.currency, hd.readsAs rfl hcurrency, ?_⟩
  exact Option.bind_eq_some_iff.2 ⟨cap.amountMinor, hd.readsAs rfl (readsAs_amount hi _), rfl⟩

theorem SpendCap.read_currency {v : Json} {cap : SpendCap} (h : SpendCap.read v = some cap) :
    ∃ d s, readDict v = some d ∧ required d "currency" readStr = some s ∧
      iso4217 s = .ok cap.currency := by
  obtain ⟨d, hd, h⟩ := Option.bind_eq_some_iff.1 h
  obtain ⟨currency, hc, h⟩ := Option.bind_eq_some_iff.1 h
  obtain ⟨amount, -, h⟩ := Option.bind_eq_some_iff.1 h
  cases h
  obtain ⟨x, hx, hc⟩ := Option.bind_eq_some_iff.1 hc
  obtain ⟨s, hs, hc⟩ := Option.bind_eq_some_iff.1 hc
  refine ⟨d, s, hd, Option.bind_eq_some_iff.2 ⟨x, hx, hs⟩, ?_⟩
  cases hi : iso4217 s with
  | error e => rw [hi] at hc; cases hc
  | ok s' => rw [hi] at hc; cases hc; rfl

/-- What a record's currency was normalised from. -/
theorem AuthorityRecord.read_currency {v : Json} {r : AuthorityRecord}
    (h : AuthorityRecord.read v = some r) :
    ∃ s, submittedCurrency v = some s ∧ iso4217 s = .ok r.spendCap.currency := by
  obtain ⟨d, hd, h⟩ := Option.bind_eq_some_iff.1 h
  iterate 8 obtain ⟨_, -, h⟩ := Option.bind_eq_some_iff.1 h
  obtain ⟨cap, hcap, h⟩ := Option.bind_eq_some_iff.1 h
  iterate 12 obtain ⟨_, -, h⟩ := Option.bind_eq_some_iff.1 h
  cases h
  obtain ⟨x, hx, hcap⟩ := Option.bind_eq_some_iff.1 hcap
  obtain ⟨dc, s, hdc, hs, hiso⟩ := SpendCap.read_currency hcap
  refine ⟨s, Option.bind_eq_some_iff.2 ⟨d, hd, ?_⟩, hiso⟩
  exact Option.bind_eq_some_iff.2 ⟨dc, Option.bind_eq_some_iff.2 ⟨x, hx, hdc⟩, hs⟩

/-- A record whose currency validates again is read again. -/
theorem AuthorityRecord.readsAs (hi : KeepsInts)
    (hb : ∀ b, TextForms.laxBool (.bool b) = some b) {v : Json} {r : AuthorityRecord}
    (h : AuthorityRecord.read v = some r)
    (hc : iso4217 r.spendCap.currency = .ok r.spendCap.currency) :
    ReadsAs AuthorityRecord.read r.toJson r := by
  have hbool : ∀ b, ReadsAs TextForms.laxBool (.bool b) b := by
    intro b w hw
    rw [carries_bool hw, hb]
  intro w hw
  obtain ⟨d, -, h⟩ := Option.bind_eq_some_iff.1 h
  obtain ⟨schemaVersion, h, k₁⟩ := stable_field stable_str h
  obtain ⟨recordId, h, k₂⟩ := stable_field stable_ulid h
  obtain ⟨principalId, h, k₃⟩ := stable_field stable_ulid h
  obtain ⟨agentId, h, k₄⟩ := stable_field stable_ulid h
  obtain ⟨counterpartyId, h, k₅⟩ := stable_field (stable_optStr stable_ulid) h
  obtain ⟨purpose, h, k₆⟩ := stable_field stable_str h
  obtain ⟨allowedActions, h, k₇⟩ := stable_field (stable_list stable_enum) h
  obtain ⟨prohibitedActions, h, k₈⟩ := stable_field (stable_list stable_enum) h
  obtain ⟨cap, hcap, h⟩ := Option.bind_eq_some_iff.1 h
  obtain ⟨rounds, h, k₁₀⟩ := stable_field (stable_laxInt hi) h
  obtain ⟨hours, h, k₁₁⟩ := stable_field (stable_laxInt hi) h
  obtain ⟨silent, h, k₁₂⟩ := stable_default (fun _ b _ => hbool b) (hbool false) h
  obtain ⟨disclosureFields, h, k₁₃⟩ := stable_field stable_strs h
  obtain ⟨requiresApproval, h, k₁₄⟩ := stable_field (stable_list stable_enum) h
  obtain ⟨issuedAt, h, k₁₅⟩ := stable_field stable_timestamp h
  obtain ⟨notBefore, h, k₁₆⟩ := stable_field stable_timestamp h
  obtain ⟨expiresAt, h, k₁₇⟩ := stable_field stable_timestamp h
  obtain ⟨parentRecordId, h, k₁₈⟩ := stable_field (stable_optStr stable_ulid) h
  obtain ⟨status, h, k₁₉⟩ := stable_field stable_enum h
  obtain ⟨nonce, h, k₂₀⟩ := stable_field stable_str h
  obtain ⟨signature, h, k₂₁⟩ := stable_field stable_signatureBlock h
  cases h
  obtain ⟨d', rfl, hd⟩ := carries_obj (by simp [AuthorityRecord.unsignedFields]) hw
  have hcap' : required d' "spend_cap" SpendCap.read = some cap :=
    hd.readsAs rfl (SpendCap.readsAs hi hc)
  refine Option.bind_eq_some_iff.2 ⟨d', readDict_entries d', ?_⟩
  refine k₁ hd rfl <| k₂ hd rfl <| k₃ hd rfl <| k₄ hd rfl <| k₅ hd rfl <| k₆ hd rfl <| k₇ hd rfl <|
    k₈ hd rfl <| Option.bind_eq_some_iff.2 ⟨cap, hcap', ?_⟩
  exact k₁₀ hd rfl <| k₁₁ hd rfl <| k₁₂ hd rfl <| k₁₃ hd rfl <| k₁₄ hd rfl <| k₁₅ hd rfl <|
    k₁₆ hd rfl <| k₁₇ hd rfl <| k₁₈ hd rfl <| k₁₉ hd rfl <| k₂₀ hd rfl <| k₂₁ hd rfl rfl

/-- A record survives exactly if every letter of the currency it was submitted
    with has a single letter for its upper case. -/
theorem AuthorityRecord.survives_iff (hi : KeepsInts)
    (hb : ∀ b, TextForms.laxBool (.bool b) = some b) (hu : UpperLetters) {v : Json}
    {r : AuthorityRecord} (h : AuthorityRecord.read v = some r) :
    (Codec.ofEq AuthorityRecord.read AuthorityRecord.toJson).Survives r ↔
      ∀ s, submittedCurrency v = some s → SingleUpper s := by
  obtain ⟨s, hs, hiso⟩ := AuthorityRecord.read_currency h
  have hcondition : (∀ s, submittedCurrency v = some s → SingleUpper s) ↔ SingleUpper s := by
    rw [hs]
    simp
  rw [hcondition, Codec.ofEq_survives_iff, ← iso4217_again_iff hu hiso]
  constructor
  · intro hread
    obtain ⟨s', hs', hiso'⟩ := AuthorityRecord.read_currency
      (hread r.toJson ⟨r.distinct, rfl⟩)
    obtain rfl : r.spendCap.currency = s' := Option.some.inj hs'
    exact hiso'
  · exact AuthorityRecord.readsAs hi hb h

end Mandate
