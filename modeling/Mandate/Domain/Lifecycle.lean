/-
  Authority lifecycle: status resolution, revocation, delegation chains.

  `now` is the boundary's text and is read with `fromisoformat`; reading a
  malformed text, or comparing a naive time with a record's aware one, raises.
-/
import Mandate.Domain.Approvals

namespace Mandate

/-- `_parse`. -/
def parseTime (value : String) : Except PyError Datetime :=
  match Datetime.fromisoformat value with
  | some t => .ok t
  | none => .error (.valueError "Invalid isoformat string")

/-- `a < b` on date-times. -/
def timeLt (a b : Datetime) : Except PyError Bool :=
  match a.lt? b with
  | some r => .ok r
  | none => .error .typeError

/-- The current status of a record at `now`: a recorded or proven revocation
    sticks, otherwise the record expires strictly after `expires_at`. -/
def resolveStatus (record : AuthorityRecord) (now : String) (revoked : Bool) :
    Except PyError RecordStatus := do
  if revoked ∨ record.status = .revoked then return .revoked
  if ← timeLt (← parseTime record.expiresAt.text) (← parseTime now) then return .expired
  return .active

/-- Whether a revocation fact binds a record as of `now`. -/
def revocationApplies (revocation : Revocation) (record : AuthorityRecord) (now : String) :
    Except PyError Bool := do
  if revocation.recordId ≠ record.recordId then return false
  return !(← timeLt (← parseTime now) (← parseTime revocation.revokedAt.text))

/-- `any` over a generator that may raise: stops at the first hit. -/
def anyM {α : Type} (p : α → Except PyError Bool) : List α → Except PyError Bool
  | [] => .ok false
  | x :: xs => do if ← p x then return true else anyM p xs

/-- The names of the narrowing checks a child record fails against its parent. -/
def scopeViolations (child parent : AuthorityRecord) : List String :=
  (if child.allowedActions ⊆ parent.allowedActions then [] else ["allowed_actions_not_subset"]) ++
  (if parent.prohibitedActions ⊆ child.prohibitedActions then []
    else ["prohibited_actions_not_superset"]) ++
  (if child.spendCap.currency ≠ parent.spendCap.currency then ["spend_cap_currency_mismatch"]
    else if child.spendCap.amountMinor > parent.spendCap.amountMinor then
      ["spend_cap_exceeds_parent"] else []) ++
  (if child.maxNegotiationRounds > parent.maxNegotiationRounds then
    ["max_negotiation_rounds_exceed_parent"] else []) ++
  (if child.disclosureFields ⊆ parent.disclosureFields then []
    else ["disclosure_fields_not_subset"]) ++
  (if parent.requiresHumanApprovalFor ⊆ child.requiresHumanApprovalFor then []
    else ["approval_gates_not_superset"]) ++
  (if child.notBefore.instant < parent.notBefore.instant then
    ["not_before_earlier_than_parent"] else []) ++
  (if child.expiresAt.instant > parent.expiresAt.instant then ["expires_after_parent"] else []) ++
  (if parent.counterpartyId.isSome ∧ child.counterpartyId ≠ parent.counterpartyId then
    ["counterparty_mismatch_with_parent"] else [])

/-- The records of the mapping that a walk has not seen yet. -/
def unseen (records : Dict String AuthorityRecord) (seen : List String) : List String :=
  (records.entries.map Prod.fst).filter (· ∉ seen)

theorem unseen_lt {records : Dict String AuthorityRecord} {seen : List String} {id : String}
    {p : AuthorityRecord} (hn : id ∉ seen) (hp : records.get? id = some p) :
    (unseen records (id :: seen)).length < (unseen records seen).length := by
  have hk : id ∈ records.entries.map Prod.fst :=
    List.mem_map_of_mem (f := Prod.fst) (Dict.mem_of_getEntries _ hp)
  have hm : id ∈ unseen records seen := by simpa [unseen, hn] using hk
  have hsub : unseen records (id :: seen) = (unseen records seen).filter (· ≠ id) := by
    simp only [unseen, List.filter_filter]
    refine List.filter_congr fun x _ => ?_
    simp [not_or]
  rw [hsub]
  exact List.length_filter_lt_length_iff_exists.2 ⟨id, hm, by simp⟩

/-- What the lifecycle of an ancestor violates at `now`, if it is given. -/
def ancestorViolations (parent : AuthorityRecord) (parentId : String) :
    Option String → Except PyError (List String)
  | none => return []
  | some now => do
    let status ← resolveStatus parent now false
    return if status ≠ .active then [s!"ancestor_{status.value}:{parentId}"] else []

/-- The walk of `delegationViolations` from `cursor` on. -/
def delegationWalk (records : Dict String AuthorityRecord) (now : Option String)
    (seen : List String) (cursor : AuthorityRecord) : Except PyError (List String) :=
  match cursor.parentRecordId with
  | none => return []
  | some parentId =>
    if _hs : parentId ∈ seen then return [s!"cycle_at:{parentId}"]
    else match _hp : records.get? parentId with
      | none => return [s!"unresolvable_parent:{parentId}"]
      | some parent => do
        let scope := (scopeViolations cursor parent).map fun v => s!"{parentId}:{v}"
        let lifecycle ← ancestorViolations parent parentId now
        let rest ← delegationWalk records now (parentId :: seen) parent
        return scope ++ lifecycle ++ rest
termination_by (unseen records seen).length
decreasing_by exact unseen_lt _hs _hp

/-- Walk the parent chain upward and report what it violates. -/
def delegationViolations (record : AuthorityRecord) (records : Dict String AuthorityRecord)
    (now : Option String) : Except PyError (List String) :=
  delegationWalk records now [record.recordId] record

/-! ## Narrowing -/

/-- The child allows no more than the parent, in every field. -/
structure Narrows (child parent : AuthorityRecord) : Prop where
  allowed : child.allowedActions ⊆ parent.allowedActions
  prohibited : parent.prohibitedActions ⊆ child.prohibitedActions
  currency : child.spendCap.currency = parent.spendCap.currency
  cap : child.spendCap.amountMinor ≤ parent.spendCap.amountMinor
  rounds : child.maxNegotiationRounds ≤ parent.maxNegotiationRounds
  disclosure : child.disclosureFields ⊆ parent.disclosureFields
  approval : parent.requiresHumanApprovalFor ⊆ child.requiresHumanApprovalFor
  notBefore : parent.notBefore.instant ≤ child.notBefore.instant
  expiresAt : child.expiresAt.instant ≤ parent.expiresAt.instant
  counterparty : ∀ c ∈ parent.counterpartyId, child.counterpartyId = some c

/-- The scope checks find nothing exactly on a narrowing. -/
theorem scopeViolations_eq_nil {child parent : AuthorityRecord} :
    scopeViolations child parent = [] ↔ Narrows child parent := by
  have hcap : (if child.spendCap.currency ≠ parent.spendCap.currency then
      ["spend_cap_currency_mismatch"]
      else if child.spendCap.amountMinor > parent.spendCap.amountMinor then
        ["spend_cap_exceeds_parent"] else []) = [] ↔
      child.spendCap.currency = parent.spendCap.currency ∧
        child.spendCap.amountMinor ≤ parent.spendCap.amountMinor := by
    split_ifs with h1 h2
    · simp [h1]
    · simp only [false_iff, not_and, not_le]; exact fun _ => h2
    · simp only [true_iff]; exact ⟨not_not.1 h1, not_lt.1 h2⟩
  have hcounterparty : (if parent.counterpartyId.isSome ∧
      child.counterpartyId ≠ parent.counterpartyId then ["counterparty_mismatch_with_parent"]
      else []) = [] ↔ ∀ c ∈ parent.counterpartyId, child.counterpartyId = some c := by
    cases parent.counterpartyId <;> simp
  simp only [scopeViolations, List.append_eq_nil_iff, hcap, hcounterparty, ite_eq_left_iff,
    ite_eq_right_iff, List.cons_ne_nil, imp_false, not_not, not_lt]
  constructor
  · rintro ⟨⟨⟨⟨⟨⟨⟨⟨h1, h2⟩, h3, h4⟩, h5⟩, h6⟩, h7⟩, h8⟩, h9⟩, h10⟩
    exact ⟨h1, h2, h3, h4, h5, h6, h7, h8, h9, h10⟩
  · rintro ⟨h1, h2, h3, h4, h5, h6, h7, h8, h9, h10⟩
    exact ⟨⟨⟨⟨⟨⟨⟨⟨h1, h2⟩, h3, h4⟩, h5⟩, h6⟩, h7⟩, h8⟩, h9⟩, h10⟩

/-- The parent of a record in the mapping. -/
def ParentIn (records : Dict String AuthorityRecord) (child parent : AuthorityRecord) : Prop :=
  ∃ id ∈ child.parentRecordId, records.get? id = some parent

/-- A walk that finds nothing went along a narrowing, and on from its parent. -/
theorem narrows_of_delegationWalk {records : Dict String AuthorityRecord} {now : Option String}
    {seen : List String} {child parent : AuthorityRecord} (hp : ParentIn records child parent)
    (h : delegationWalk records now seen child = .ok []) :
    Narrows child parent ∧ ∃ seen', delegationWalk records now seen' parent = .ok [] := by
  obtain ⟨id, hid, hp⟩ := hp
  rw [Option.mem_def] at hid
  rw [delegationWalk] at h
  simp only [hid] at h
  split_ifs at h with hs
  · cases h
  · split at h
    · cases h
    · rename_i parent' hp'
      rw [hp, Option.some.injEq] at hp'
      subst hp'
      cases hl : ancestorViolations parent id now with
      | error e => simp [hl, bind, Except.bind] at h
      | ok lifecycle =>
        cases hr : delegationWalk records now (id :: seen) parent with
        | error e => simp [hl, hr, bind, Except.bind] at h
        | ok rest =>
          simp only [hl, hr, bind, Except.bind, pure, Except.pure, Except.ok.injEq,
            List.append_eq_nil_iff, List.map_eq_nil_iff] at h
          obtain ⟨⟨hscope, -⟩, rfl⟩ := h
          exact ⟨scopeViolations_eq_nil.1 hscope, _, hr⟩

/-! ## On validated times -/

theorem parseTime_text (t : Timestamp) :
    ∃ d, parseTime t.text = .ok d ∧ d.instant? = some t.instant := by
  obtain ⟨d, hd, hi⟩ := t.fromisoformat_text
  exact ⟨d, by rw [parseTime, hd], hi⟩

theorem timeLt_ok {a b : Datetime} {i j : ℤ} (ha : a.instant? = some i) (hb : b.instant? = some j) :
    timeLt a b = .ok (decide (i < j)) := by
  rw [timeLt, Datetime.lt?_of_instant ha hb]

/-- At a validated time the status is a comparison of instants. -/
theorem resolveStatus_text (record : AuthorityRecord) (now : Timestamp) (revoked : Bool) :
    resolveStatus record now.text revoked = .ok (
      if revoked ∨ record.status = .revoked then .revoked
      else if record.expiresAt.instant < now.instant then .expired else .active) := by
  obtain ⟨d, hd, hi⟩ := parseTime_text record.expiresAt
  obtain ⟨d', hd', hi'⟩ := parseTime_text now
  unfold resolveStatus
  split_ifs with hr he
  · rfl
  · simp [hd, hd', timeLt_ok hi hi', he, bind, Except.bind, pure, Except.pure]
  · simp [hd, hd', timeLt_ok hi hi', he, bind, Except.bind, pure, Except.pure]

/-- At a validated time a revocation applies from its instant on. -/
theorem revocationApplies_text (r : Revocation) (record : AuthorityRecord) (now : Timestamp) :
    revocationApplies r record now.text =
      .ok (decide (r.recordId = record.recordId ∧ r.revokedAt.instant ≤ now.instant)) := by
  obtain ⟨d, hd, hi⟩ := parseTime_text now
  obtain ⟨d', hd', hi'⟩ := parseTime_text r.revokedAt
  unfold revocationApplies
  split_ifs with h
  · simp [h, pure, Except.pure]
  · simp only [ne_eq, not_not] at h
    simp only [hd, hd', timeLt_ok hi hi', h, bind, Except.bind, pure, Except.pure, true_and,
      ← decide_not, not_lt]

/-- When no element raises, `anyM` is `any`. -/
theorem anyM_ok {α : Type} {p : α → Except PyError Bool} {q : α → Bool} :
    ∀ {xs : List α}, (∀ x ∈ xs, p x = .ok (q x)) → anyM p xs = .ok (xs.any q)
  | [], _ => rfl
  | x :: xs, h => by
    have ih := anyM_ok fun y hy => h y (List.mem_cons_of_mem _ hy)
    simp only [anyM, h x (by simp), bind, Except.bind, ih, List.any_cons]
    cases q x <;> rfl

end Mandate
