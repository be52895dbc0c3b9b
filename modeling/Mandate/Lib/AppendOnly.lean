/-
  Hash chains that concurrent transactions append to.

  A database keeps `Logs` when some writes add an entry to a log, at a position
  that is a unique key.  A transaction that reads the head of a log and then
  writes entries over it (`Adds`) may have read a head that a rival has moved on
  since; the unique positions stop it.  So in every interleaving, whatever else
  the transactions do, each log is a chain (`chained_invariant`), and it only
  grows (`grows`).
-/
import Mandate.Lib.HashChain
import Mandate.Lib.ReadCommitted

namespace Database

open HashChain

variable {S Q : Type} {A : Q → Type} {E K ε α C ι Entry η : Type}

/-- Logs of entries, each with a head query.  A write adds at most one entry; a
    `good` entry takes the unique `slot` of its position in its log. -/
structure Logs (db : Database S A E K ε) (ι Entry η : Type) where
  entry? : E → Option Entry
  log : S → ι → List Entry
  hash : Entry → η
  genesis : η
  good : ι → ℕ → η → Entry → Prop
  head : ι → Q
  stamp : (i : ι) → A (head i) → ℕ × η
  slot : ι → ℕ → K
  log_quiet : ∀ s e i, entry? e = none → log (db.apply s e) i = log s i
  log_entry : ∀ s e x i n prev, entry? e = some x → good i n prev x →
    log (db.apply s e) i = log s i ++ [x]
  log_other : ∀ s e x i n prev, entry? e = some x → good i n prev x → ∀ j, j ≠ i →
    log (db.apply s e) j = log s j
  slot_keys : ∀ e x i n prev, entry? e = some x → good i n prev x → slot i n ∈ db.keys e
  stamp_head : ∀ s i, Chained hash (good i) 0 genesis (log s i) →
    stamp i (db.ask s (head i)) = ((log s i).length, headHash hash genesis (log s i))
  slot_taken : ∀ s i n, Chained hash (good i) 0 genesis (log s i) → n < (log s i).length →
    db.taken s (slot i n)

namespace Logs

variable {db : Database S A E K ε} (L : db.Logs ι Entry η)

/-- The entries among some writes. -/
def entries (w : List E) : List Entry := w.filterMap L.entry?

/-- Every log is a chain. -/
def Chains (s : S) : Prop := ∀ i, Chained L.hash (L.good i) 0 L.genesis (L.log s i)

/-- A transaction adds no entry, or entries that go on from a head that it was
    answered before it wrote any. -/
def Adds (reads : List (Read A E)) (w : List E) : Prop :=
  L.entries w = [] ∨ ∃ i n prev w₀ a, ⟨w₀, L.head i, a⟩ ∈ reads ∧ L.entries w₀ = [] ∧
    L.stamp i a = (n, prev) ∧ Chained L.hash (L.good i) n prev (L.entries w)

/-- A head that was answered is that of a chain which the log goes on from. -/
def Knows (s : S) (reads : List (Read A E)) : Prop :=
  ∀ i w₀ a, ⟨w₀, L.head i, a⟩ ∈ reads → L.entries w₀ = [] →
    ∃ pre, pre <+: L.log s i ∧ L.stamp i a = (pre.length, headHash L.hash L.genesis pre)

variable {L}

theorem log_view_quiet {w : List E} (hw : L.entries w = []) (s : S) (i : ι) :
    L.log (db.view s w) i = L.log s i := by
  induction w generalizing s with
  | nil => rfl
  | cons e w ih =>
    rw [entries, List.filterMap_cons] at hw
    cases he : L.entry? e with
    | none =>
      rw [he] at hw
      rw [view_cons, ih hw, L.log_quiet s e i he]
    | some x =>
      rw [he] at hw
      cases hw

/-- Entries that are good for one log are added to it, and to no other. -/
theorem log_view {w : List E} {i : ι} {n : ℕ} {prev : η}
    (hw : Chained L.hash (L.good i) n prev (L.entries w)) (s : S) :
    L.log (db.view s w) i = L.log s i ++ L.entries w ∧
      ∀ j, j ≠ i → L.log (db.view s w) j = L.log s j := by
  induction w generalizing s n prev with
  | nil => exact ⟨(List.append_nil _).symm, fun _ _ => rfl⟩
  | cons e w ih =>
    cases he : L.entry? e with
    | none =>
      have hentries : L.entries (e :: w) = L.entries w := by simp [entries, he]
      rw [hentries] at hw ⊢
      obtain ⟨hi, hother⟩ := ih hw (db.apply s e)
      constructor
      · rw [view_cons, hi, L.log_quiet s e i he]
      · intro j hj
        rw [view_cons, hother j hj, L.log_quiet s e j he]
    | some x =>
      have hentries : L.entries (e :: w) = x :: L.entries w := by simp [entries, he]
      rw [hentries] at hw ⊢
      obtain ⟨hx, hrest⟩ := hw
      obtain ⟨hi, hother⟩ := ih hrest (db.apply s e)
      constructor
      · rw [view_cons, hi, L.log_entry s e x i n prev he hx, List.append_assoc]
        rfl
      · intro j hj
        rw [view_cons, hother j hj, L.log_other s e x i n prev he hx j hj]

/-- The first of the entries takes the slot of its position. -/
theorem slot_of_chained {w : List E} {i : ι} {n : ℕ} {prev : η}
    (hw : Chained L.hash (L.good i) n prev (L.entries w)) (hne : L.entries w ≠ []) :
    ∃ e ∈ w, L.slot i n ∈ db.keys e := by
  cases hentries : L.entries w with
  | nil => exact absurd hentries hne
  | cons x xs =>
    rw [hentries] at hw
    have hx : x ∈ L.entries w := by simp [hentries]
    obtain ⟨e, he, hex⟩ := List.mem_filterMap.1 hx
    exact ⟨e, he, L.slot_keys e x i n prev hex hw.1⟩

theorem Knows.longer {s s' : S} {reads : List (Read A E)} (h : L.Knows s reads)
    (hs : ∀ i, L.log s i <+: L.log s' i) : L.Knows s' reads := by
  intro i w₀ a hr hw
  obtain ⟨pre, hpre, hstamp⟩ := h i w₀ a hr hw
  exact ⟨pre, hpre.trans (hs i), hstamp⟩

/-- What is added over a head that was answered goes on from the whole log: a
    shorter chain's next slot is taken. -/
theorem Chains.adds {s : S} (h : L.Chains s) {reads : List (Read A E)} {w : List E}
    (hk : L.Knows s reads) (hw : L.Adds reads w) (hf : ∀ e ∈ w, db.conflicts s e = false) :
    L.Chains (db.view s w) ∧ ∀ i, L.log s i <+: L.log (db.view s w) i := by
  by_cases hquiet : L.entries w = []
  · refine ⟨fun i => ?_, fun i => ?_⟩
    · rw [log_view_quiet hquiet]
      exact h i
    · exact ⟨[], by rw [List.append_nil, log_view_quiet hquiet]⟩
  · obtain ⟨i, n, prev, w₀, a, hr, hw₀, hstamp, hchain⟩ := hw.resolve_left hquiet
    obtain ⟨pre, ⟨rest, hrest⟩, hpre⟩ := hk i w₀ a hr hw₀
    obtain ⟨rfl, rfl⟩ : n = pre.length ∧ prev = headHash L.hash L.genesis pre := by
      rw [hstamp] at hpre
      exact ⟨congrArg Prod.fst hpre, congrArg Prod.snd hpre⟩
    have hlast : rest = [] := by
      by_contra hne
      obtain ⟨e, he, hkey⟩ := slot_of_chained hchain hquiet
      have hlt : pre.length < (L.log s i).length := by
        have := List.length_pos_iff.2 hne
        rw [← hrest, List.length_append]
        omega
      have := (db.conflicts_iff s e).2 ⟨_, hkey, L.slot_taken s i _ (h i) hlt⟩
      rw [hf e he] at this
      cases this
    rw [hlast, List.append_nil] at hrest
    obtain ⟨hi, hother⟩ := log_view hchain s
    constructor
    · intro j
      by_cases hj : j = i
      · subst hj
        rw [hi]
        refine chained_append.2 ⟨h j, ?_⟩
        rwa [← hrest, Nat.zero_add]
      · rw [hother j hj]
        exact h j
    · intro j
      by_cases hj : j = i
      · rw [hj, hi]
        exact List.prefix_append _ _
      · exact ⟨[], by rw [List.append_nil, hother j hj]⟩

theorem Knows.advance {s : S} {free : E → Bool} {x x' : Session A E ε α C} (hs : L.Chains s)
    (h : L.Knows s x.reads) (ha : db.Advances s free x x') : L.Knows s x'.reads := by
  cases ha with
  | selected q k hp =>
    intro i w₀ a hr hw
    rcases List.mem_append.1 hr with hr | hr
    · exact h i w₀ a hr hw
    · cases List.mem_singleton.1 hr
      have hlog := log_view_quiet hw s i
      refine ⟨L.log s i, List.prefix_refl _, ?_⟩
      rw [L.stamp_head _ i (hlog ▸ hs i), hlog]
  | lost e k hp hc => exact h
  | won e k hp hc _ hf => exact h
  | wrote e k hp hc _ hf => exact h

variable [DecidableEq K] {code : C → Program A E ε α} {ok : α → Bool} {begins : C → Prop}
  {may : S → Session A E ε α C → Prop}

/-- A step keeps the chains and every head that was answered, and each log goes
    on from what it was. -/
theorem chained_step (hcode : ∀ c, begins c →
      db.Ensures (fun _ _ _ => True) (fun _ => L.Adds) (code c) [] [])
    {s : S} {σ σ' : State S A E ε α C}
    (hr : (db.readCommitted code ok begins may s).Reachable σ) (hs : L.Chains σ.committed)
    (hk : ∀ i x, σ.sessions i = some x → L.Knows σ.committed x.reads)
    (hstep : Step db code ok begins may σ σ') :
    L.Chains σ'.committed ∧ (∀ i x, σ'.sessions i = some x → L.Knows σ'.committed x.reads) ∧
      ∀ i, L.log σ.committed i <+: L.log σ'.committed i := by
  cases hstep with
  | start c hc =>
    refine ⟨hs, fun j y hy => ?_, fun i => List.prefix_refl _⟩
    simp only [sessions_put] at hy
    split_ifs at hy
    · cases hy
      rintro i w₀ a ⟨⟩
    · exact hk j y hy
  | advance i x x' hx hm ha =>
    refine ⟨hs, fun j y hy => ?_, fun i => List.prefix_refl _⟩
    rw [sessions_put] at hy
    split_ifs at hy
    · cases hy
      exact (hk i x hx).advance hs (db.advances_of_eq ha)
    · exact hk j y hy
  | commit i x a hx hp =>
    have hfresh := ((exclusive_invariant db code ok begins may s).holds hr).fresh i x hx
    have hends := ((ensures_invariant (fun _ _ _ _ => True) (fun _ _ _ => trivial) hcode s).holds
      hr i x hx).2
    rw [hp] at hends
    obtain ⟨hchains, hgrows⟩ := hs.adds (hk i x hx) hends.of_done hfresh
    refine ⟨hchains, fun j y hy => ?_, hgrows⟩
    have hy' : (σ.put i none).sessions j = some y := hy
    rw [sessions_put] at hy'
    split_ifs at hy'
    exact (hk j y hy').longer hgrows
  | rollback i =>
    refine ⟨hs, fun j y hy => ?_, fun i => List.prefix_refl _⟩
    rw [sessions_put] at hy
    split_ifs at hy
    exact hk j y hy

theorem chained_invariant (hcode : ∀ c, begins c →
      db.Ensures (fun _ _ _ => True) (fun _ => L.Adds) (code c) [] []) {s : S} (hs : L.Chains s) :
    (db.readCommitted code ok begins may s).Invariant fun σ => L.Chains σ.committed ∧
      ∀ i x, σ.sessions i = some x → L.Knows σ.committed x.reads where
  init := by
    rintro σ rfl
    exact ⟨hs, by rintro i x ⟨⟩⟩
  step := by
    rintro σ σ' hr ⟨hchains, hknows⟩ hstep
    obtain ⟨h, h', -⟩ := chained_step hcode hr hchains hknows hstep
    exact ⟨h, h'⟩

/-- Over any further run, each log only grows. -/
theorem grows (hcode : ∀ c, begins c →
      db.Ensures (fun _ _ _ => True) (fun _ => L.Adds) (code c) [] []) {s : S} (hs : L.Chains s)
    {σ σ' : State S A E ε α C} (hr : (db.readCommitted code ok begins may s).Reachable σ)
    (h : Relation.ReflTransGen (db.readCommitted code ok begins may s).step σ σ') (i : ι) :
    L.log σ.committed i <+: L.log σ'.committed i := by
  induction h with
  | refl => exact List.prefix_refl _
  | tail hrun hstep ih =>
    have hr' := hr.trans hrun
    obtain ⟨hchains, hknows⟩ := (chained_invariant hcode hs).holds hr'
    exact ih.trans ((chained_step hcode hr' hchains hknows hstep).2.2 i)

end Logs

end Database
