/-
  Logs whose every entry is justified by the entries before it.

  `Preceded P log` says that each entry of `log` is in the relation `P` with
  what stands before it.  Logs grow at the end: `Preceded.snoc` adds one
  justified entry, `Preceded.append` a group that needs no justification.
-/
import Mathlib.Data.List.Basic

universe u

variable {α : Type u}

/-- Every entry is in relation `P` to the entries before it. -/
def Preceded (P : List α → α → Prop) (log : List α) : Prop :=
  ∀ before e after, log = before ++ e :: after → P before e

namespace Preceded

variable {P : List α → α → Prop} {log : List α}

theorem nil : Preceded P [] := by
  intro before e after h
  simp at h

/-- One more justified entry. -/
theorem snoc {e : α} (h : Preceded P log) (he : P log e) : Preceded P (log ++ [e]) := by
  intro before e' after hl
  rcases List.append_eq_append_iff.1 hl with ⟨as, rfl, hs⟩ | ⟨as, rfl, hs⟩
  · -- the entry is the new one
    rcases List.append_eq_singleton_iff.1 hs.symm with ⟨rfl, hs⟩ | ⟨rfl, hs⟩
    · cases hs
      simpa using he
    · cases hs
  · cases as with
    | nil =>
      cases hs
      simpa using he
    | cons a as =>
      cases hs
      exact h before e' as rfl

/-- Entries that are justified whatever stands before them. -/
theorem append {group : List α} (h : Preceded P log) (hg : ∀ e ∈ group, ∀ before, P before e) :
    Preceded P (log ++ group) := by
  induction group generalizing log with
  | nil => simpa using h
  | cons e group ih =>
    have he : Preceded P (log ++ [e]) := h.snoc (hg e (by simp) log)
    simpa using ih he fun e' he' => hg e' (List.mem_cons_of_mem _ he')

end Preceded
