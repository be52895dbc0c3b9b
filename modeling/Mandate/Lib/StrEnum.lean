/-
  Closed vocabularies: finite types whose members are written as distinct
  strings.
-/
import Mathlib.Data.List.Basic
import Mathlib.Data.List.Nodup

/-- A finite vocabulary with the string of each member. -/
class StrEnum (α : Type) where
  all : List α
  value : α → String
  mem_all : ∀ a, a ∈ all
  nodup : (all.map value).Nodup

namespace StrEnum

variable {α : Type} [StrEnum α]

/-- The member written as `s`, if any. -/
def ofValue? (s : String) : Option α := (all (α := α)).find? fun a => value a = s

theorem value_inj {a b : α} (h : value a = value b) : a = b :=
  List.inj_on_of_nodup_map nodup (mem_all a) (mem_all b) h

theorem ofValue?_eq_some {s : String} {a : α} : ofValue? s = some a ↔ value a = s := by
  constructor
  · intro h; simpa using List.find?_some h
  · rintro rfl
    have hs : ((all : List α).find? fun b => value b = value a).isSome :=
      List.find?_isSome.2 ⟨a, mem_all a, by simp⟩
    obtain ⟨b, hb⟩ := Option.isSome_iff_exists.1 hs
    have hv : value b = value a := by simpa using List.find?_some hb
    rw [ofValue?, hb, value_inj hv]

@[simp] theorem ofValue?_value (a : α) : ofValue? (value a) = some a := ofValue?_eq_some.2 rfl

end StrEnum
