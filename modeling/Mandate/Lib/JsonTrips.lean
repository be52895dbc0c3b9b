/-
  Values that travel as JSON.

  What carries a value keeps its strings, its numbers and the order of its
  lists, but not the order in which an object's members stand (`Carries`).

  * `ReadsAs`: whatever carries a value is read as the same thing; the rules
    follow the shape of the value, and `Holds.required` reads one member;
  * `Codec`: a way to write and to read values of a type.  A value survives
    if it stays the same over any number of trips; one trip decides it
    (`survives_iff`).
-/
import Mathlib.Logic.Relation
import Mandate.Lib.JsonEquality

namespace Json

universe u
variable {α : Type u} {w v : Json}

/-- `w` carries `v`: the same value, with the members of objects in any order. -/
def Carries (w v : Json) : Prop := Distinct w ∧ normalize w = normalize v

theorem carries_str {s : String} (h : Carries w (.str s)) : w = .str s := by
  obtain ⟨-, hw⟩ := h
  cases w <;> simp_all [normalize]

theorem carries_int {i : ℤ} (h : Carries w (.int i)) : w = .int i := by
  obtain ⟨-, hw⟩ := h
  cases w <;> simp_all [normalize]

theorem carries_bool {b : Bool} (h : Carries w (.bool b)) : w = .bool b := by
  obtain ⟨-, hw⟩ := h
  cases w <;> simp_all [normalize]

theorem carries_null (h : Carries w .null) : w = .null := by
  obtain ⟨-, hw⟩ := h
  cases w <;> simp_all [normalize]

/-- A list is carried item by item. -/
theorem carries_arr {vs : List Json} (h : Carries w (.arr vs)) :
    ∃ ws, w = .arr ws ∧ List.Forall₂ Carries ws vs := by
  obtain ⟨hd, hw⟩ := h
  cases w with
  | arr ws =>
    refine ⟨ws, rfl, ?_⟩
    rw [Distinct, distinctItems_iff] at hd
    rw [normalize, normalize, arr.injEq] at hw
    induction ws generalizing vs with
    | nil =>
      cases vs with
      | nil => exact .nil
      | cons v vs => simp [normalizeItems] at hw
    | cons x ws ih =>
      cases vs with
      | nil => simp [normalizeItems] at hw
      | cons v vs =>
        rw [normalizeItems, normalizeItems, List.cons.injEq] at hw
        exact .cons ⟨hd x (by simp), hw.1⟩ (ih (fun y hy => hd y (List.mem_cons_of_mem _ hy)) hw.2)
  | null | bool | int | str | obj => simp [normalize] at hw

/-- The dictionary holds the members, carried. -/
def Holds (d : Dict String Json) (fields : List (String × Json)) : Prop :=
  ∀ key v, Dict.getEntries key fields = some v → ∃ w, d.get? key = some w ∧ Carries w v

/-- An object is carried as a dictionary of its members. -/
theorem carries_obj {fields : List (String × Json)} (hn : (fields.map Prod.fst).Nodup)
    (h : Carries w (.obj fields)) :
    ∃ d : Dict String Json, w = .obj d.entries ∧ Holds d fields := by
  obtain ⟨hd, hw⟩ := h
  cases w with
  | obj members =>
    rw [Distinct] at hd
    refine ⟨⟨members, hd.1⟩, rfl, fun key v hv => ?_⟩
    have key := member_inj hd.1 hn hw key
    rw [hv, Option.map_some, Option.map_eq_some_iff] at key
    obtain ⟨x, hx, hnorm⟩ := key
    exact ⟨x, hx, distinctFields_iff.1 hd.2 _ (Dict.mem_of_getEntries _ hx), hnorm⟩
  | null | bool | int | str | arr => simp [normalize] at hw

/-! ## Reading what is carried -/

/-- Whatever carries the value is read as `a`. -/
def ReadsAs (read : Json → Option α) (v : Json) (a : α) : Prop :=
  ∀ w, Carries w v → read w = some a

/-- The members of the dictionary are read as those of the object. -/
theorem Holds.readsAs {d : Dict String Json} {fields : List (String × Json)} (h : Holds d fields)
    {key : String} (hk : Dict.getEntries key fields = some v) {read : Json → Option α} {a : α}
    (hr : ReadsAs read v a) : (d.get? key).bind read = some a := by
  obtain ⟨w, hw, hc⟩ := h key v hk
  rw [hw]
  exact hr w hc

/-- What is read is read again from what is written of it. -/
def Stable (read : Json → Option α) (write : α → Json) : Prop :=
  ∀ ⦃v a⦄, read v = some a → ReadsAs read (write a) a

/-- A member that was read is read again. -/
theorem Stable.member {read : Json → Option α} {write : α → Json} (hs : Stable read write)
    {d d' : Dict String Json} {key : String} {a : α} (h : (d.get? key).bind read = some a)
    {fields : List (String × Json)} (hd : Holds d' fields)
    (hk : Dict.getEntries key fields = some (write a)) : (d'.get? key).bind read = some a := by
  obtain ⟨v, -, hv⟩ := Option.bind_eq_some_iff.1 h
  exact hd.readsAs hk (hs hv)

/-- Items that were read are read again. -/
theorem Stable.items {read : Json → Option α} {write : α → Json} (hs : Stable read write)
    {vs : List Json} {as : List α} (h : vs.mapM read = some as) {ws : List Json}
    (hw : List.Forall₂ Carries ws (as.map write)) : ws.mapM read = some as := by
  induction vs generalizing as ws with
  | nil =>
    cases h
    cases hw
    rfl
  | cons v vs ih =>
    rw [List.mapM_cons] at h
    obtain ⟨a, ha, h⟩ := Option.bind_eq_some_iff.1 h
    obtain ⟨as', has, h⟩ := Option.bind_eq_some_iff.1 h
    cases h
    cases hw with
    | cons hfirst hrest =>
      rw [List.mapM_cons, hs ha _ hfirst, ih has hrest]
      rfl

/-! ## Trips -/

/-- A way to write and to read values of a type; `same` values are written as
    the same JSON value. -/
structure Codec (α : Type u) where
  read : Json → Option α
  write : α → Json
  same : α → α → Prop
  refl : ∀ a, same a a
  write_same : ∀ {a b}, same a b → normalize (write a) = normalize (write b)

namespace Codec

variable (c : Codec α)

/-- One trip: the value is written, carried, and read again. -/
def Trip (a b : α) : Prop := ∃ w, Carries w (c.write a) ∧ c.read w = some b

/-- However often the value has travelled, it is the same, and what carries it
    can be read again. -/
def Survives (a : α) : Prop := ∀ b, Relation.ReflTransGen c.Trip a b →
  c.same b a ∧ ∀ w, Carries w (c.write b) → (c.read w).isSome

variable {c} {a : α}

/-- A value that is read as the same survives. -/
theorem survives_iff : c.Survives a ↔
    ∀ w, Carries w (c.write a) → ∃ b, c.read w = some b ∧ c.same b a := by
  constructor
  · intro h w hw
    obtain ⟨b, hb⟩ := Option.isSome_iff_exists.1 ((h a .refl).2 w hw)
    exact ⟨b, hb, (h b (.single ⟨w, hw, hb⟩)).1⟩
  · intro h b hab
    -- what carries a value that is the same carries `a`
    have hstep : ∀ b, c.same b a → ∀ w, Carries w (c.write b) →
        ∃ b', c.read w = some b' ∧ c.same b' a :=
      fun b hb w hw => h w ⟨hw.1, hw.2.trans (c.write_same hb)⟩
    have hsame : c.same b a := by
      induction hab with
      | refl => exact c.refl a
      | tail _ htrip ih =>
        obtain ⟨w, hw, hread⟩ := htrip
        obtain ⟨b', hb', hs⟩ := hstep _ ih w hw
        rw [hread] at hb'
        cases hb'
        exact hs
    refine ⟨hsame, fun w hw => ?_⟩
    obtain ⟨b', hb', -⟩ := hstep b hsame w hw
    rw [hb']
    rfl

/-- The codec of a type whose values are told apart by what is written. -/
def ofEq (read : Json → Option α) (write : α → Json) : Codec α where
  read := read
  write := write
  same := (· = ·)
  refl := fun _ => rfl
  write_same := fun h => congrArg (fun a => normalize (write a)) h

theorem ofEq_survives_iff {read : Json → Option α} {write : α → Json} :
    (ofEq read write).Survives a ↔ ReadsAs read (write a) a := by
  rw [survives_iff]
  constructor
  · intro h w hw
    obtain ⟨b, hb, rfl⟩ := h w hw
    exact hb
  · intro h w hw
    exact ⟨a, h w hw, rfl⟩

end Codec

end Json
