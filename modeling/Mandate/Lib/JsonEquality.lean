/-
  Equality of JSON values, and canonical forms.

  `Same` compares objects as maps and lists item by item.  Objects with the
  same members have one canonical form (`normalize_obj_iff`), so canonical
  bytes are equal exactly for equal values (`canonicalBytes_eq_iff`).
-/
import Mandate.Lib.JsonParse

namespace Json

mutual
/-- The values are equal: objects as maps, lists item by item. -/
def Same : Json → Json → Prop
  | .null, .null => True
  | .bool b, .bool c => b = c
  | .int i, .int j => i = j
  | .str s, .str t => s = t
  | .arr xs, .arr ys => SameItems xs ys
  | .obj fs, .obj gs => SameMembers fs gs ∧ ∀ k ∈ gs.map Prod.fst, k ∈ fs.map Prod.fst
  | _, _ => False
def SameItems : List Json → List Json → Prop
  | [], [] => True
  | x :: xs, y :: ys => Same x y ∧ SameItems xs ys
  | _, _ => False
/-- Every member of the first object is one of the second. -/
def SameMembers : List (String × Json) → List (String × Json) → Prop
  | [], _ => True
  | (k, x) :: fs, gs => (∃ y, Dict.getEntries k gs = some y ∧ Same x y) ∧ SameMembers fs gs
end

/-! ## Objects as maps -/

theorem mem_normalizeFields {fs : List (String × Json)} {k : String} {x : Json}
    (hn : (fs.map Prod.fst).Nodup) :
    (k, x) ∈ normalizeFields fs ↔ (Dict.getEntries k fs).map normalize = some x := by
  have hn' : ((normalizeFields fs).map Prod.fst).Nodup := by rwa [keys_normalizeFields]
  rw [← getEntries_normalizeFields]
  exact ⟨Dict.getEntries_of_mem _ hn', Dict.mem_of_getEntries _⟩

theorem sortFields_perm {fs gs : List (String × Json)} (hn : (fs.map Prod.fst).Nodup)
    (h : fs.Perm gs) : sortFields fs = sortFields gs := by
  have hf := List.perm_insertionSort (fun a b : String × Json => a.1 ≤ b.1) fs
  have hg := List.perm_insertionSort (fun a b : String × Json => a.1 ≤ b.1) gs
  refine List.Perm.eq_of_pairwise ?_ (List.pairwise_insertionSort _ fs)
    (List.pairwise_insertionSort _ gs) (hf.trans (h.trans hg.symm))
  rintro ⟨k, x⟩ ⟨l, y⟩ hx hy hkl hlk
  obtain rfl : k = l := le_antisymm hkl hlk
  have hx' := Dict.getEntries_of_mem _ hn (hf.mem_iff.1 hx)
  have hy' := Dict.getEntries_of_mem _ hn (h.mem_iff.2 (hg.mem_iff.1 hy))
  rw [Option.some.inj (hx'.symm.trans hy')]

/-- Objects have one canonical form exactly when their members have. -/
theorem normalize_obj_iff {fs gs : List (String × Json)} (hf : (fs.map Prod.fst).Nodup)
    (hg : (gs.map Prod.fst).Nodup) :
    normalize (.obj fs) = normalize (.obj gs) ↔
      ∀ k, (Dict.getEntries k fs).map normalize = (Dict.getEntries k gs).map normalize := by
  constructor
  · exact member_inj hf hg
  · intro h
    have hf' : ((normalizeFields fs).map Prod.fst).Nodup := by rwa [keys_normalizeFields]
    have hg' : ((normalizeFields gs).map Prod.fst).Nodup := by rwa [keys_normalizeFields]
    rw [normalize, normalize, obj.injEq]
    refine sortFields_perm hf' ((List.perm_ext_iff_of_nodup hf'.of_map hg'.of_map).2 ?_)
    rintro ⟨k, x⟩
    rw [mem_normalizeFields hf, mem_normalizeFields hg, h k]

/-- Members added to objects with one canonical form. -/
theorem normalize_obj_append {fs gs : List (String × Json)} {f : String × Json}
    (hf : ((fs ++ [f]).map Prod.fst).Nodup) (hg : ((gs ++ [f]).map Prod.fst).Nodup)
    (h : normalize (.obj fs) = normalize (.obj gs)) :
    normalize (.obj (fs ++ [f])) = normalize (.obj (gs ++ [f])) := by
  have hf' : (fs.map Prod.fst).Nodup := (List.map_append ▸ hf).of_append_left
  have hg' : (gs.map Prod.fst).Nodup := (List.map_append ▸ hg).of_append_left
  rw [normalize_obj_iff hf' hg'] at h
  rw [normalize_obj_iff hf hg]
  intro k
  rw [Dict.getEntries_append, Dict.getEntries_append, Option.map_or, Option.map_or, h k]

theorem normalize_arr_iff {xs ys : List Json} :
    normalize (.arr xs) = normalize (.arr ys) ↔ normalizeItems xs = normalizeItems ys := by
  rw [normalize, normalize, arr.injEq]

/-- The members of one object are among those of the other, which has no other
    key. -/
theorem getEntries_congr_iff {fs gs : List (String × Json)} (hf : (fs.map Prod.fst).Nodup) :
    (∀ k, (Dict.getEntries k fs).map normalize = (Dict.getEntries k gs).map normalize) ↔
      (∀ f ∈ fs, (Dict.getEntries f.1 gs).map normalize = some (normalize f.2)) ∧
        ∀ k ∈ gs.map Prod.fst, k ∈ fs.map Prod.fst := by
  constructor
  · intro h
    refine ⟨fun f hm => ?_, fun k hk => ?_⟩
    · rw [← h, Dict.getEntries_of_mem fs hf hm, Option.map_some]
    · rw [← Dict.isSome_getEntries] at hk ⊢
      have hk' := congrArg Option.isSome (h k)
      rwa [Option.isSome_map, Option.isSome_map, hk] at hk'
  · rintro ⟨hm, hk⟩ k
    cases hx : Dict.getEntries k fs with
    | some x =>
      rw [Option.map_some]
      exact (hm _ (Dict.mem_of_getEntries _ hx)).symm
    | none =>
      cases hy : Dict.getEntries k gs with
      | none => rfl
      | some y =>
        have hmem := hk k (Dict.isSome_getEntries.1 (by rw [hy]; rfl))
        rw [← Dict.isSome_getEntries, hx] at hmem
        cases hmem

/-! ## One canonical form for equal values -/

mutual
theorem normalize_eq_iff : ∀ v w : Json, Distinct v → Distinct w →
    (normalize v = normalize w ↔ Same v w)
  | .arr xs, .arr ys, hv, hw => by
    rw [normalize_arr_iff, Same]
    exact normalizeItems_eq_iff xs ys hv hw
  | .obj fs, .obj gs, hv, hw => by
    rw [normalize_obj_iff hv.1 hw.1, getEntries_congr_iff hv.1, Same,
      sameMembers_iff fs gs hv.2 hw.2]
  | .null, w, _, _ | .bool _, w, _, _ | .int _, w, _, _ | .str _, w, _, _ => by
    cases w <;> simp [normalize, Same]
  | .arr _, .null, _, _ | .arr _, .bool _, _, _ | .arr _, .int _, _, _ | .arr _, .str _, _, _
  | .arr _, .obj _, _, _ | .obj _, .null, _, _ | .obj _, .bool _, _, _ | .obj _, .int _, _, _
  | .obj _, .str _, _, _ | .obj _, .arr _, _, _ => by
    simp [normalize, Same]
theorem normalizeItems_eq_iff : ∀ xs ys : List Json, DistinctItems xs → DistinctItems ys →
    (normalizeItems xs = normalizeItems ys ↔ SameItems xs ys)
  | [], [], _, _ => by simp [SameItems]
  | [], _ :: _, _, _ | _ :: _, [], _, _ => by simp [normalizeItems, SameItems]
  | x :: xs, y :: ys, hx, hy => by
    rw [normalizeItems, normalizeItems, List.cons.injEq, SameItems,
      normalize_eq_iff x y hx.1 hy.1, normalizeItems_eq_iff xs ys hx.2 hy.2]
theorem sameMembers_iff : ∀ fs gs : List (String × Json), DistinctFields fs → DistinctFields gs →
    ((∀ f ∈ fs, (Dict.getEntries f.1 gs).map normalize = some (normalize f.2)) ↔
      SameMembers fs gs)
  | [], _, _, _ => by simp [SameMembers]
  | (k, x) :: fs, gs, hf, hg => by
    rw [List.forall_mem_cons, SameMembers, sameMembers_iff fs gs hf.2 hg, Option.map_eq_some_iff]
    refine and_congr (exists_congr fun y => and_congr_right fun hy => ?_) Iff.rfl
    rw [eq_comm]
    exact normalize_eq_iff x y hf.1 (distinctFields_iff.1 hg _ (Dict.mem_of_getEntries _ hy))
end

/-- Canonical bytes are equal exactly for equal values. -/
theorem canonicalBytes_eq_iff {v w : Json} (hv : Distinct v) (hw : Distinct w) :
    canonicalBytes v = canonicalBytes w ↔ Same v w :=
  canonicalBytes_inj.trans (normalize_eq_iff v w hv hw)

end Json
