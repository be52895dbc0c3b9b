/-
  Finite maps that iterate in insertion order.

  A key keeps its place when its value is replaced, and a new key goes to the
  end: the behaviour of a dictionary in a language that fixes the iteration
  order.  The keys of the entry list are distinct by construction.

  * `get?_set` computes a lookup after an update;
  * `mem_values` ties the value list to lookups;
  * `countP_values_set` counts the values after one update.
-/
import Mathlib.Data.List.Basic
import Mathlib.Data.List.Nodup
import Mathlib.Tactic.SplitIfs

universe u v

/-- A dictionary: its entries in insertion order, with distinct keys. -/
structure Dict (κ : Type u) (α : Type v) where
  entries : List (κ × α)
  nodup : (entries.map Prod.fst).Nodup

namespace Dict

variable {κ : Type u} {α : Type v} [DecidableEq κ]

/-- Replace the value of `k`, or append the entry. -/
def setEntries (k : κ) (v : α) : List (κ × α) → List (κ × α)
  | [] => [(k, v)]
  | e :: es => if e.1 = k then (k, v) :: es else e :: setEntries k v es

/-- The value of the first entry with key `k`. -/
def getEntries (k : κ) : List (κ × α) → Option α
  | [] => none
  | e :: es => if e.1 = k then some e.2 else getEntries k es

theorem mem_keys_setEntries {k k' : κ} {v : α} :
    ∀ es : List (κ × α), k' ∈ (setEntries k v es).map Prod.fst ↔ k' = k ∨ k' ∈ es.map Prod.fst
  | [] => by simp [setEntries]
  | e :: es => by
    unfold setEntries
    split_ifs with h
    · subst h; simp
    · simp only [List.map_cons, List.mem_cons, mem_keys_setEntries es]; tauto

theorem nodup_setEntries {k : κ} {v : α} :
    ∀ es : List (κ × α), (es.map Prod.fst).Nodup → ((setEntries k v es).map Prod.fst).Nodup
  | [], _ => by simp [setEntries]
  | e :: es, hn => by
    rw [List.map_cons, List.nodup_cons] at hn
    unfold setEntries
    split_ifs with h
    · subst h; simpa using hn
    · rw [List.map_cons, List.nodup_cons, mem_keys_setEntries]
      exact ⟨fun hm => hm.elim h hn.1, nodup_setEntries es hn.2⟩

theorem getEntries_setEntries (k k' : κ) (v : α) :
    ∀ es : List (κ × α), getEntries k' (setEntries k v es) =
      if k' = k then some v else getEntries k' es
  | [] => by simp [setEntries, getEntries, eq_comm]
  | e :: es => by
    have ih := getEntries_setEntries k k' v es
    unfold setEntries
    by_cases h : e.1 = k
    · by_cases h' : k' = k
      · subst h'; simp [getEntries, h]
      · have hk : ¬ k = k' := fun hk => h' hk.symm
        simp [getEntries, h, hk, h']
    · by_cases h' : k' = k
      · subst h'; simp [getEntries, h, ih]
      · simp [getEntries, h, ih, h']

theorem getEntries_of_mem {k : κ} {v : α} :
    ∀ es : List (κ × α), (es.map Prod.fst).Nodup → (k, v) ∈ es → getEntries k es = some v
  | e :: es, hn, hm => by
    rw [List.map_cons, List.nodup_cons] at hn
    rcases List.mem_cons.1 hm with rfl | hm
    · simp [getEntries]
    · have hk : e.1 ≠ k := fun h => hn.1 (h ▸ List.mem_map_of_mem hm)
      simp only [getEntries, if_neg hk]
      exact getEntries_of_mem es hn.2 hm

theorem mem_of_getEntries {k : κ} {v : α} :
    ∀ es : List (κ × α), getEntries k es = some v → (k, v) ∈ es
  | e :: es, h => by
    unfold getEntries at h
    split_ifs at h with hk
    · cases h; subst hk; simp
    · exact List.mem_cons_of_mem _ (mem_of_getEntries es h)

theorem getEntries_append (k : κ) : ∀ es es' : List (κ × α),
    getEntries k (es ++ es') = (getEntries k es).or (getEntries k es')
  | [], _ => rfl
  | e :: es, es' => by
    rw [List.cons_append, getEntries, getEntries]
    split_ifs
    · rfl
    · exact getEntries_append k es es'

theorem isSome_getEntries {k : κ} :
    ∀ {es : List (κ × α)}, (getEntries k es).isSome ↔ k ∈ es.map Prod.fst
  | [] => by simp [getEntries]
  | e :: es => by
    unfold getEntries
    split_ifs with hk
    · simp [hk]
    · rw [isSome_getEntries, List.map_cons, List.mem_cons]
      exact ⟨.inr, fun h => h.resolve_left (Ne.symm hk)⟩

/-- The order of entries with distinct keys does not matter to a lookup. -/
theorem getEntries_perm (k : κ) {es es' : List (κ × α)} (hp : es.Perm es')
    (hn : (es.map Prod.fst).Nodup) : getEntries k es = getEntries k es' := by
  have hn' : (es'.map Prod.fst).Nodup := (hp.map Prod.fst).nodup_iff.1 hn
  ext v
  constructor
  · intro h; exact getEntries_of_mem _ hn' (hp.mem_iff.1 (mem_of_getEntries _ h))
  · intro h; exact getEntries_of_mem _ hn (hp.mem_iff.2 (mem_of_getEntries _ h))

theorem countP_setEntries (p : α → Bool) (k : κ) (v : α) :
    ∀ es : List (κ × α), ((setEntries k v es).map Prod.snd).countP p +
        ((getEntries k es).elim 0 fun o => if p o then 1 else 0) =
      (es.map Prod.snd).countP p + if p v then 1 else 0
  | [] => by simp [setEntries, getEntries, List.countP_cons]
  | e :: es => by
    have ih := countP_setEntries p k v es
    unfold setEntries getEntries
    split_ifs with h
    all_goals simp_all [List.countP_cons]
    all_goals omega

/-- The empty dictionary. -/
def empty : Dict κ α := ⟨[], by simp⟩

/-- Look a key up. -/
def get? (d : Dict κ α) (k : κ) : Option α := getEntries k d.entries

/-- Write a key. -/
def set (d : Dict κ α) (k : κ) (v : α) : Dict κ α :=
  ⟨setEntries k v d.entries, nodup_setEntries _ d.nodup⟩

/-- The values in insertion order. -/
def values (d : Dict κ α) : List α := d.entries.map Prod.snd

@[simp] theorem get?_empty (k : κ) : (empty : Dict κ α).get? k = none := rfl

omit [DecidableEq κ] in
@[simp] theorem values_empty : (empty : Dict κ α).values = [] := rfl

theorem get?_set (d : Dict κ α) (k k' : κ) (v : α) :
    (d.set k v).get? k' = if k' = k then some v else d.get? k' :=
  getEntries_setEntries k k' v d.entries

@[simp] theorem get?_set_self (d : Dict κ α) (k : κ) (v : α) : (d.set k v).get? k = some v := by
  rw [get?_set, if_pos rfl]

theorem get?_set_ne (d : Dict κ α) {k k' : κ} (v : α) (h : k' ≠ k) :
    (d.set k v).get? k' = d.get? k' := by
  rw [get?_set, if_neg h]

theorem mem_values {d : Dict κ α} {v : α} : v ∈ d.values ↔ ∃ k, d.get? k = some v := by
  simp only [values, List.mem_map, Prod.exists, exists_eq_right]
  exact exists_congr fun k =>
    ⟨fun h => getEntries_of_mem _ d.nodup h, fun h => mem_of_getEntries _ h⟩

theorem mem_values_set {d : Dict κ α} {k : κ} {v w : α} (h : w ∈ (d.set k v).values) :
    w = v ∨ w ∈ d.values := by
  obtain ⟨k', h⟩ := mem_values.1 h
  rw [get?_set] at h
  split_ifs at h
  · exact .inl (Option.some.inj h).symm
  · exact .inr (mem_values.2 ⟨k', h⟩)

/-- One update adds the new value to a count and takes the replaced value out. -/
theorem countP_values_set (d : Dict κ α) (p : α → Bool) (k : κ) (v : α) :
    (d.set k v).values.countP p + ((d.get? k).elim 0 fun o => if p o then 1 else 0) =
      d.values.countP p + if p v then 1 else 0 :=
  countP_setEntries p k v d.entries

/-! ## Flattened values -/

variable {β : Type v}

theorem flatMap_setEntries (f : α → List β) {k : κ} {v : α} (v' : α) :
    ∀ {es : List (κ × α)}, getEntries k es = some v →
      (((setEntries k v' es).map Prod.snd).flatMap f ++ f v).Perm
        ((es.map Prod.snd).flatMap f ++ f v')
  | e :: es, h => by
    unfold getEntries at h
    unfold setEntries
    split_ifs at h ⊢ with hk
    · cases h
      simp only [List.map_cons, List.flatMap_cons, List.append_assoc (f e.2)]
      exact List.perm_append_comm.trans (List.perm_append_comm.append_left _)
    · have ih := flatMap_setEntries f v' h
      simp only [List.map_cons, List.flatMap_cons, List.append_assoc]
      exact ih.append_left _

/-- Lengthening one value lengthens the flattened values by as much. -/
theorem flatMap_values_set {d : Dict κ α} {f : α → List β} {k : κ} {v v' : α} {g : List β}
    (h : d.get? k = some v) (hf : f v' = f v ++ g) :
    ((d.set k v').values.flatMap f).Perm (d.values.flatMap f ++ g) := by
  have hp := flatMap_setEntries f v' h
  rw [hf] at hp
  refine (List.perm_append_right_iff (f v)).1 (hp.trans ?_)
  rw [List.append_assoc]
  exact List.perm_append_comm.append_left _

theorem values_set_new {d : Dict κ α} {k : κ} (v : α) (h : d.get? k = none) :
    (d.set k v).values = d.values ++ [v] := by
  have : ∀ es : List (κ × α), getEntries k es = none → setEntries k v es = es ++ [(k, v)] := by
    intro es
    induction es with
    | nil => intro _; rfl
    | cons e es ih =>
      intro h
      unfold getEntries at h
      unfold setEntries
      split_ifs at h ⊢ with hk
      rw [ih h, List.cons_append]
  simp only [values, set]
  rw [this _ h, List.map_append]
  rfl

/-- Writing what is there changes nothing. -/
theorem set_of_get? {d : Dict κ α} {k : κ} {v : α} (h : d.get? k = some v) : d.set k v = d := by
  have : ∀ es : List (κ × α), getEntries k es = some v → setEntries k v es = es := by
    intro es
    induction es with
    | nil => intro h; cases h
    | cons e es ih =>
      intro h
      unfold getEntries at h
      unfold setEntries
      split_ifs at h ⊢ with hk
      · cases h; rw [← hk]
      · rw [ih h]
  obtain ⟨es, hn⟩ := d
  simp only [set, mk.injEq]
  exact this es h

/-! ## Mapped values -/

/-- Another value for each key. -/
def mapWithKey (f : κ → α → β) (d : Dict κ α) : Dict κ β where
  entries := d.entries.map fun e => (e.1, f e.1 e.2)
  nodup := by simpa only [List.map_map, Function.comp_def] using d.nodup

theorem get?_mapWithKey (f : κ → α → β) (d : Dict κ α) (k : κ) :
    (d.mapWithKey f).get? k = (d.get? k).map (f k) := by
  have : ∀ es : List (κ × α), getEntries k (es.map fun e => (e.1, f e.1 e.2)) =
      (getEntries k es).map (f k) := by
    intro es
    induction es with
    | nil => rfl
    | cons e es ih =>
      simp only [List.map_cons, getEntries]
      split_ifs with hk
      · rw [← hk]; rfl
      · exact ih
  exact this d.entries

theorem mapWithKey_set (f : κ → α → β) (d : Dict κ α) (k : κ) (v : α) :
    (d.set k v).mapWithKey f = (d.mapWithKey f).set k (f k v) := by
  have : ∀ es : List (κ × α), (setEntries k v es).map (fun e => (e.1, f e.1 e.2)) =
      setEntries k (f k v) (es.map fun e => (e.1, f e.1 e.2)) := by
    intro es
    induction es with
    | nil => rfl
    | cons e es ih =>
      simp only [List.map_cons, setEntries]
      split_ifs
      · rfl
      · rw [List.map_cons, ih]
  simp only [mapWithKey, set, mk.injEq]
  exact this d.entries

/-- Only the values that are not overwritten count. -/
theorem set_mapWithKey_congr {f g : κ → α → β} {k : κ} (h : ∀ i v, i ≠ k → f i v = g i v)
    (d : Dict κ α) (b : β) : (d.mapWithKey f).set k b = (d.mapWithKey g).set k b := by
  have : ∀ es : List (κ × α), (es.map Prod.fst).Nodup →
      setEntries k b (es.map fun e => (e.1, f e.1 e.2)) =
        setEntries k b (es.map fun e => (e.1, g e.1 e.2)) := by
    intro es hn
    induction es with
    | nil => rfl
    | cons e es ih =>
      rw [List.map_cons, List.nodup_cons] at hn
      simp only [List.map_cons, setEntries]
      split_ifs with hk
      · -- the key does not occur again
        refine congrArg _ (List.map_congr_left fun e' he' => ?_)
        rw [h e'.1 e'.2 fun hk' => hn.1 (hk.trans hk'.symm ▸ List.mem_map_of_mem he')]
      · rw [ih hn.2, h e.1 e.2 hk]
  simp only [mapWithKey, set, mk.injEq]
  exact this d.entries d.nodup

/-- What one dictionary has, the other has too. -/
def Le (d d' : Dict κ α) : Prop := ∀ k v, d.get? k = some v → d'.get? k = some v

theorem Le.refl (d : Dict κ α) : d.Le d := fun _ _ h => h

theorem Le.trans {d d' d'' : Dict κ α} (h : d.Le d') (h' : d'.Le d'') : d.Le d'' :=
  fun k v hk => h' k v (h k v hk)

/-- A key can be set to the value it has, or when it has none. -/
theorem le_set {d : Dict κ α} {k : κ} {v : α} :
    d.Le (d.set k v) ↔ ∀ old, d.get? k = some old → old = v := by
  constructor
  · intro h old ho
    have hv := h k old ho
    rw [get?_set_self] at hv
    exact (Option.some.inj hv).symm
  · intro h i w hi
    rw [get?_set]
    split_ifs with hk
    · rw [h w (hk ▸ hi)]
    · exact hi

/-- An entry that the greater dictionary has keeps the lesser one below it. -/
theorem Le.set {d d' : Dict κ α} (h : d.Le d') {k : κ} {v : α} (hk : d'.get? k = some v) :
    (d.set k v).Le d' := by
  intro k' v' hget
  rw [get?_set] at hget
  split_ifs at hget with heq
  · cases hget
    exact heq ▸ hk
  · exact h k' v' hget

/-! ## Removal -/

/-- A key taken out. -/
def remove (d : Dict κ α) (k : κ) : Dict κ α where
  entries := d.entries.filter fun e => e.1 ≠ k
  nodup := d.nodup.sublist ((List.filter_sublist).map Prod.fst)

theorem get?_remove (d : Dict κ α) (k k' : κ) :
    (d.remove k).get? k' = if k' = k then none else d.get? k' := by
  have : ∀ es : List (κ × α), getEntries k' (es.filter fun e => e.1 ≠ k) =
      if k' = k then none else getEntries k' es := by
    intro es
    induction es with
    | nil => simp [getEntries]
    | cons e es ih =>
      by_cases he : e.1 = k
      · rw [List.filter_cons_of_neg (by simpa using he), ih]
        by_cases hk : k' = k
        · rw [if_pos hk, if_pos hk]
        · rw [if_neg hk, if_neg hk, getEntries, if_neg]
          rintro rfl
          exact hk he
      · rw [List.filter_cons_of_pos (by simpa using he), getEntries, getEntries, ih]
        by_cases hk : k' = k
        · rw [if_pos hk, if_pos hk, if_neg (by rintro rfl; exact he hk)]
        · rw [if_neg hk, if_neg hk]
  exact this d.entries

/-- What is left was there, under another key. -/
theorem get?_of_remove {d : Dict κ α} {k k' : κ} {v : α} (h : (d.remove k).get? k' = some v) :
    k' ≠ k ∧ d.get? k' = some v := by
  rw [get?_remove] at h
  split_ifs at h with hk
  exact ⟨hk, h⟩

theorem remove_of_none {d : Dict κ α} {k : κ} (h : d.get? k = none) : d.remove k = d := by
  have hall : ∀ e ∈ d.entries, decide (e.1 ≠ k) = true := by
    rintro ⟨k', v⟩ he
    rw [decide_eq_true_eq]
    rintro rfl
    have hv := getEntries_of_mem _ d.nodup he
    rw [get?, hv] at h
    cases h
  cases d
  simp only [remove, mk.injEq]
  exact List.filter_eq_self.2 hall

end Dict
