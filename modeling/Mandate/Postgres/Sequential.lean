/-
  The transactions of the Postgres store, run alone.

  On given tables a transaction comes down to the checks of the source, in
  their order, and the writes of its plan.
-/
import Mandate.Postgres.Transactions

namespace Mandate

variable [Platform]

namespace Postgres

variable {t : Tables} {w : List Write}

omit [Platform] in
/-- A write without a foreign key or a bounded column is accepted. -/
theorem accepts_of_free {e : Write} (hf : e.fits = true) (hn : e.needs = []) :
    postgres.accepts t e = true := by
  simp [Database.accepts, hf, hn]

omit [Platform] in
theorem not_conflicts {e : Write} (h : ∀ k ∈ e.keys, ¬ t.Taken k) :
    ¬ postgres.conflicts t e = true := by
  rw [postgres_conflicts]
  rintro ⟨k, hk, ht⟩
  exact h k hk ht

/-! ## Requests -/

variable (signer : GatewaySigner) (ids : EventIds)

omit [Platform] in
/-- The claim of a request's nonce, on tables without new nonces. -/
theorem exec_claimNonce (req : CommitRequest) (k : Transaction CommitResult)
    (hw : (postgres.view t w).seenNonces = t.seenNonces) :
    postgres.exec t (claimNonce req k) w =
      match t.seenNonces.get? req.record.nonce with
      | none => postgres.exec t k (w ++ [.nonce req.record.nonce req.record.recordId])
      | some owner =>
        if owner ≠ req.record.recordId then
          .ok (⟨.alreadyApplied, "nonce owned by another record; the stored verdict answers", [],
            none⟩, w)
        else postgres.exec t k w := by
  cases ho : t.seenNonces.get? req.record.nonce with
  | none =>
    have hc : ¬ postgres.conflicts (postgres.view t w)
        (.nonce req.record.nonce req.record.recordId) = true :=
      not_conflicts (by simp [Write.keys, Tables.Taken, hw, ho])
    rw [claimNonce, postgres.exec_claim_won _ hc (accepts_of_free rfl rfl), if_pos rfl]
  | some owner =>
    have hc : postgres.conflicts (postgres.view t w)
        (.nonce req.record.nonce req.record.recordId) = true := by
      rw [postgres_conflicts]
      exact ⟨_, List.mem_singleton_self _, by simp [Tables.Taken, hw, ho]⟩
    rw [claimNonce, postgres.exec_claim_lost _ hc, if_neg (by simp), Database.exec_select]
    simp only [postgres_ask, Tables.ask, hw, ho]
    split_ifs
    · rfl
    · rfl

/-- A request alone: the deal, the recheck, then the claims in their order. -/
theorem exec_commitRequest (t : Tables) (req : CommitRequest) :
    postgres.exec t (commitRequest req signer ids) [] =
      match t.deals.get? req.dealId with
      | none => .ok (⟨.dealNotFound, "deal row not found", [], none⟩, [])
      | some deal =>
        match planTransition deal req.action req.decision.outcome with
        | .error abort => .ok (⟨.staleState, abort, [], none⟩, [])
        | .ok event =>
          let key := .idempotency req.idempotencyKey req.proposalDigest req.decision
          let append := appendRequest signer req ids deal event
          if (t.idempotency.get? req.idempotencyKey).isSome then
            .ok (⟨.alreadyApplied,
              "idempotency key already committed; the stored decision answers", [], none⟩, [])
          else if req.requestId ∈ t.seenRequests then
            .ok (⟨.alreadyApplied, "request_id already seen; the stored verdict answers", [],
              none⟩, [key])
          else postgres.exec t (claimNonce req append) [key, .request req.requestId] := by
  rw [commitRequest, Database.exec_select]
  simp only [Database.view_nil, postgres_ask, Tables.ask]
  cases t.deals.get? req.dealId with
  | none => rfl
  | some deal =>
    simp only
    cases planTransition deal req.action req.decision.outcome with
    | error abort => rfl
    | ok event =>
      simp only
      split_ifs with hk hr
      · have hc : postgres.conflicts (postgres.view t [])
            (.idempotency req.idempotencyKey req.proposalDigest req.decision) = true :=
          postgres_conflicts.2 ⟨_, List.mem_singleton_self _, hk⟩
        rw [postgres.exec_claim_lost _ hc]
        rfl
      · have hc : ¬ postgres.conflicts (postgres.view t [])
            (.idempotency req.idempotencyKey req.proposalDigest req.decision) = true :=
          not_conflicts (by simpa [Write.keys, Tables.Taken] using hk)
        have hc' : postgres.conflicts (postgres.view t
            [.idempotency req.idempotencyKey req.proposalDigest req.decision])
            (.request req.requestId) = true :=
          postgres_conflicts.2 ⟨_, List.mem_singleton_self _, hr⟩
        rw [postgres.exec_claim_won _ hc (accepts_of_free rfl rfl)]
        simp only [Bool.not_true, Bool.false_eq_true, if_false, List.nil_append]
        rw [postgres.exec_claim_lost _ hc']
        rfl
      · have hc : ¬ postgres.conflicts (postgres.view t [])
            (.idempotency req.idempotencyKey req.proposalDigest req.decision) = true :=
          not_conflicts (by simpa [Write.keys, Tables.Taken] using hk)
        have hc' : ¬ postgres.conflicts (postgres.view t
            [.idempotency req.idempotencyKey req.proposalDigest req.decision])
            (.request req.requestId) = true :=
          not_conflicts (by simpa [Write.keys, Tables.Taken, Tables.apply] using hr)
        rw [postgres.exec_claim_won _ hc (accepts_of_free rfl rfl)]
        simp only [Bool.not_true, Bool.false_eq_true, if_false, List.nil_append]
        rw [postgres.exec_claim_won _ hc' (accepts_of_free rfl rfl)]
        simp only [Bool.not_true, Bool.false_eq_true, if_false, List.cons_append, List.nil_append]

end Postgres

end Mandate
