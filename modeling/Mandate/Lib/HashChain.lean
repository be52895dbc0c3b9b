/-
  Chains whose entries carry the hash of the entry before them.

  `good i prev e` says that `e` is a proper entry at position `i` after an
  entry with hash `prev`.

  * `Chained`: every entry is proper; `chained_iff` states it position by
    position, and `Chained.append` extends a chain;
  * `scan`: one pass that checks each entry against the last entry found to be
    proper.  It reports no failure exactly on the chains (`scan_ok`), and its
    first failure is at the first position that is not proper (`scan_first`);
  * `agree_upto`: where a hash fixes its entry and the hash before it, chains
    with one hash at a position agree up to there.
-/
import Mathlib.Data.List.Basic

universe u v w

namespace HashChain

variable {α : Type u} {η : Type v} {κ : Type w}

section
variable (hash : α → η) (good : ℕ → η → α → Prop)

/-- Every entry is proper, from position `i` and hash `prev` on. -/
def Chained : ℕ → η → List α → Prop
  | _, _, [] => True
  | i, prev, e :: es => good i prev e ∧ Chained (i + 1) (hash e) es

/-- The hash of the last entry, if any. -/
def headHash (genesis : η) (es : List α) : η := (es.getLast?.map hash).getD genesis

/-- The hash before position `i`. -/
def prevAt (genesis : η) (es : List α) : ℕ → η
  | 0 => genesis
  | i + 1 => (es[i]?.map hash).getD genesis

variable {hash good}

theorem prevAt_cons (genesis : η) (e : α) (es : List α) (i : ℕ) (hi : i ≤ es.length) :
    prevAt hash genesis (e :: es) (i + 1) = prevAt hash (hash e) es i := by
  cases i with
  | zero => rfl
  | succ i =>
    obtain ⟨e', he'⟩ : ∃ e', es[i]? = some e' := ⟨es[i], List.getElem?_eq_getElem hi⟩
    simp [prevAt, he']

theorem headHash_append (genesis : η) (es gs : List α) :
    headHash hash genesis (es ++ gs) = headHash hash (headHash hash genesis es) gs := by
  cases hg : gs.getLast? with
  | none =>
    rw [List.getLast?_eq_none_iff] at hg
    simp [hg, headHash]
  | some e => simp [headHash, List.getLast?_append, hg]

/-- A chain, and a chain that goes on from its head. -/
theorem chained_append {i : ℕ} {prev : η} {es gs : List α} :
    Chained hash good i prev (es ++ gs) ↔ Chained hash good i prev es ∧
      Chained hash good (i + es.length) (headHash hash prev es) gs := by
  induction es generalizing i prev with
  | nil => simp [Chained, headHash]
  | cons e es ih =>
    have hhead : headHash hash prev (e :: es) = headHash hash (hash e) es := by
      rw [← List.singleton_append, headHash_append]
      rfl
    have hlen : i + (e :: es).length = i + 1 + es.length := by
      rw [List.length_cons]
      omega
    rw [List.cons_append, Chained, Chained, ih, hhead, hlen, and_assoc]

theorem chained_singleton {i : ℕ} {prev : η} {e : α} :
    Chained hash good i prev [e] ↔ good i prev e := by
  simp [Chained]

theorem chained_iff_from {i : ℕ} {prev : η} {es : List α} : Chained hash good i prev es ↔
    ∀ j e, es[j]? = some e → good (i + j) (prevAt hash prev es j) e := by
  induction es generalizing i prev with
  | nil => simp [Chained]
  | cons e es ih =>
    rw [Chained, ih]
    constructor
    · rintro ⟨he, hes⟩ j e' hj
      cases j with
      | zero =>
        cases hj
        exact he
      | succ j =>
        rw [List.getElem?_cons_succ] at hj
        have hlt := (List.getElem?_eq_some_iff.1 hj).1
        rw [prevAt_cons _ _ _ _ (Nat.le_of_lt hlt)]
        have := hes j e' hj
        rwa [Nat.add_assoc, Nat.add_comm 1 j] at this
    · intro h
      refine ⟨h 0 e rfl, fun j e' hj => ?_⟩
      have hlt := (List.getElem?_eq_some_iff.1 hj).1
      have := h (j + 1) e' (by rwa [List.getElem?_cons_succ])
      rw [prevAt_cons _ _ _ _ (Nat.le_of_lt hlt)] at this
      rwa [Nat.add_assoc, Nat.add_comm 1 j]

/-- A chain, position by position. -/
theorem chained_iff {genesis : η} {es : List α} : Chained hash good 0 genesis es ↔
    ∀ i e, es[i]? = some e → good i (prevAt hash genesis es i) e := by
  simp only [chained_iff_from, Nat.zero_add]

/-! ## One pass -/

variable (hash) (ok : κ → Bool) (check : ℕ → η → α → List κ)

/-- Check the entries one after the other.  The hash that the next entry has to
    name moves on only past an entry that passes. -/
def scan : ℕ → η → List α → List κ
  | _, _, [] => []
  | i, prev, e :: es =>
    check i prev e ++ scan (i + 1) (if (check i prev e).all ok then hash e else prev) es

variable {hash ok check}

theorem scan_ok (hc : ∀ i prev e, (check i prev e).all ok ↔ good i prev e) {i : ℕ} {prev : η}
    {es : List α} : (scan hash ok check i prev es).all ok ↔ Chained hash good i prev es := by
  induction es generalizing i prev with
  | nil => simp [scan, Chained]
  | cons e es ih =>
    rw [scan, List.all_append, Bool.and_eq_true, Chained, ih, ← hc]
    refine and_congr_right fun hall => ?_
    rw [if_pos hall]

/-- Passes with the same results go on alike. -/
theorem scan_map_eq {κ' : Type w} {ρ : Type u} {ok' : κ' → Bool} {check' : ℕ → η → α → List κ'}
    {f : κ → ρ} {f' : κ' → ρ}
    (hmap : ∀ i prev e, (check i prev e).map f = (check' i prev e).map f')
    (hok : ∀ i prev e, (check i prev e).all ok = (check' i prev e).all ok') {i : ℕ} {prev : η}
    {es : List α} :
    (scan hash ok check i prev es).map f = (scan hash ok' check' i prev es).map f' := by
  induction es generalizing i prev with
  | nil => rfl
  | cons e es ih => rw [scan, scan, List.map_append, List.map_append, hmap, hok, ih]

theorem scan_first_from (hc : ∀ i prev e, (check i prev e).all ok ↔ good i prev e) {i : ℕ}
    {prev : η} {es : List α} {c : κ}
    (h : (scan hash ok check i prev es).find? (fun c => !ok c) = some c) :
    ∃ j e, es[j]? = some e ∧ Chained hash good i prev (es.take j) ∧
      ¬ good (i + j) (prevAt hash prev es j) e ∧
      (check (i + j) (prevAt hash prev es j) e).find? (fun c => !ok c) = some c := by
  induction es generalizing i prev with
  | nil => simp [scan] at h
  | cons e es ih =>
    rw [scan, List.find?_append] at h
    by_cases hgood : good i prev e
    · have hall := (hc i prev e).2 hgood
      have hnone : (check i prev e).find? (fun c => !ok c) = none := by
        rw [List.find?_eq_none]
        intro c hm
        simp [List.all_eq_true.1 hall c hm]
      rw [hnone, Option.none_or, if_pos hall] at h
      obtain ⟨j, e', hj, hchained, hbad, hfind⟩ := ih h
      have hlt := (List.getElem?_eq_some_iff.1 hj).1
      refine ⟨j + 1, e', by rwa [List.getElem?_cons_succ], ?_, ?_, ?_⟩
      · rw [List.take_succ_cons, Chained]
        exact ⟨hgood, hchained⟩
      · rwa [prevAt_cons _ _ _ _ (Nat.le_of_lt hlt), ← Nat.add_assoc, Nat.add_right_comm]
      · rwa [prevAt_cons _ _ _ _ (Nat.le_of_lt hlt), ← Nat.add_assoc, Nat.add_right_comm]
    · refine ⟨0, e, rfl, trivial, hgood, ?_⟩
      cases hfind : (check i prev e).find? (fun c => !ok c) with
      | some c' =>
        rw [hfind, Option.some_or, Option.some.injEq] at h
        rw [← h]
        exact hfind
      | none =>
        refine absurd ((hc i prev e).1 ?_) hgood
        rw [List.find?_eq_none] at hfind
        exact List.all_eq_true.2 fun c hm => by simpa using hfind c hm

/-- The first failure of a pass is at the first position that is not proper. -/
theorem scan_first (hc : ∀ i prev e, (check i prev e).all ok ↔ good i prev e) {genesis : η}
    {es : List α} {c : κ}
    (h : (scan hash ok check 0 genesis es).find? (fun c => !ok c) = some c) :
    ∃ i e, es[i]? = some e ∧ Chained hash good 0 genesis (es.take i) ∧
      ¬ good i (prevAt hash genesis es i) e ∧
      (check i (prevAt hash genesis es i) e).find? (fun c => !ok c) = some c := by
  simpa only [Nat.zero_add] using scan_first_from hc h

end

/-! ## What a hash fixes -/

variable {hash : α → η} {good : ℕ → η → α → Prop} {same : α → α → Prop}

/-- Chains with one hash at a position agree up to there. -/
theorem agree_upto (hb : ∀ i prev prev' e e', good i prev e → good i prev' e' →
    hash e = hash e' → same e e' ∧ prev = prev') {genesis : η} {es es' : List α}
    (h : Chained hash good 0 genesis es) (h' : Chained hash good 0 genesis es') {i : ℕ}
    {e e' : α} (he : es[i]? = some e) (he' : es'[i]? = some e') (hh : hash e = hash e') :
    ∀ j ≤ i, ∃ d d', es[j]? = some d ∧ es'[j]? = some d' ∧ same d d' ∧ hash d = hash d' := by
  rw [chained_iff] at h h'
  induction i generalizing e e' with
  | zero =>
    intro j hj
    obtain rfl := Nat.le_zero.1 hj
    exact ⟨e, e', he, he', (hb _ _ _ _ _ (h _ _ he) (h' _ _ he') hh).1, hh⟩
  | succ i ih =>
    obtain ⟨hsame, hprev⟩ := hb _ _ _ _ _ (h _ _ he) (h' _ _ he') hh
    intro j hj
    rcases Nat.lt_or_eq_of_le hj with hlt | rfl
    · have hi := Nat.lt_of_succ_lt (List.getElem?_eq_some_iff.1 he).1
      have hi' := Nat.lt_of_succ_lt (List.getElem?_eq_some_iff.1 he').1
      have hd : es[i]? = some es[i] := List.getElem?_eq_getElem hi
      have hd' : es'[i]? = some es'[i] := List.getElem?_eq_getElem hi'
      -- the hash before is that of the entry one position earlier
      simp only [prevAt, hd, hd', Option.map_some, Option.getD_some] at hprev
      exact ih hd hd' hprev j (Nat.lt_succ_iff.1 hlt)
    · exact ⟨e, e', he, he', hsame, hh⟩

end HashChain
