/-
  Transition systems: initial states, steps, the states a run reaches, and the
  two rules that reason about runs.

  * `System.Invariant.holds`: what holds initially and survives every step
    holds of every reachable state;
  * `System.Simulation.reachable`: the image of a reachable state under a
    simulation is reachable;
  * `Run`: the runs whose steps carry labels, for statements about what was
    done and not only about where it led.
-/
import Mathlib.Logic.Relation

universe u v

/-- A transition system over states `σ`. -/
structure System (σ : Type u) where
  init : σ → Prop
  step : σ → σ → Prop

namespace System

variable {σ : Type u} {τ : Type v}

/-- The states of the runs of `M`. -/
inductive Reachable (M : System σ) : σ → Prop where
  | init {s : σ} : M.init s → M.Reachable s
  | step {s s' : σ} : M.Reachable s → M.step s s' → M.Reachable s'

/-- `I` holds initially and survives the steps from reachable states. -/
structure Invariant (M : System σ) (I : σ → Prop) : Prop where
  init : ∀ s, M.init s → I s
  step : ∀ s s', M.Reachable s → I s → M.step s s' → I s'

theorem Invariant.holds {M : System σ} {I : σ → Prop} (h : M.Invariant I) {s : σ}
    (hr : M.Reachable s) : I s := by
  induction hr with
  | init hs => exact h.init _ hs
  | step hr hs ih => exact h.step _ _ hr ih hs

/-- A further run from a reachable state stays reachable. -/
theorem Reachable.trans {M : System σ} {s s' : σ} (hr : M.Reachable s)
    (h : Relation.ReflTransGen M.step s s') : M.Reachable s' := by
  induction h with
  | refl => exact hr
  | tail _ hs ih => exact ih.step hs

/-- `abs` maps initial states to initial states, and a step to some steps,
    possibly none. -/
structure Simulation (M : System σ) (N : System τ) (abs : σ → τ) : Prop where
  init : ∀ s, M.init s → N.init (abs s)
  step : ∀ s s', M.Reachable s → M.step s s' → Relation.ReflTransGen N.step (abs s) (abs s')

theorem Simulation.reachable {M : System σ} {N : System τ} {abs : σ → τ}
    (h : M.Simulation N abs) {s : σ} (hr : M.Reachable s) : N.Reachable (abs s) := by
  induction hr with
  | init hs => exact .init (h.init _ hs)
  | step hr hs ih => exact ih.trans (h.step _ _ hr hs)

end System

/-! ## Labelled runs -/

/-- One step of a run: what was done, in which state, and the state after it. -/
structure Done (σ : Type u) (α : Type v) where
  before : σ
  label : α
  after : σ

/-- A run from an initial state: what was done, the latest first, and the
    state it led to. -/
inductive Run {σ : Type u} {α : Type v} (init : σ → Prop) (step : σ → α → σ → Prop) :
    List (Done σ α) → σ → Prop where
  | init {s : σ} : init s → Run init step [] s
  | step {done : List (Done σ α)} {s s' : σ} {a : α} :
      Run init step done s → step s a s' → Run init step (⟨s, a, s'⟩ :: done) s'

namespace Run

variable {σ : Type u} {α : Type v} {init : σ → Prop} {step : σ → α → σ → Prop}
  {done : List (Done σ α)} {s : σ}

/-- The labels forgotten. -/
def system (init : σ → Prop) (step : σ → α → σ → Prop) : System σ where
  init := init
  step s s' := ∃ a, step s a s'

theorem reachable (h : Run init step done s) : (system init step).Reachable s := by
  induction h with
  | init hs => exact .init hs
  | step _ hs ih => exact ih.step ⟨_, hs⟩

/-- Every step of a run starts in a reachable state. -/
theorem before_reachable (h : Run init step done s) :
    ∀ d ∈ done, (system init step).Reachable d.before ∧ step d.before d.label d.after := by
  induction h with
  | init hs => intro d hd; cases hd
  | step hr hs ih =>
    intro d hd
    rcases List.mem_cons.1 hd with rfl | hd
    · exact ⟨hr.reachable, hs⟩
    · exact ih d hd

/-- Steps that were taken may be taken for other steps. -/
theorem imp {step' : σ → α → σ → Prop} (h : Run init step done s)
    (hs : ∀ d ∈ done, step d.before d.label d.after → step' d.before d.label d.after) :
    Run init step' done s := by
  induction h with
  | init hinit => exact .init hinit
  | @step done s s' a _ hstep ih =>
    refine (ih fun d hd => hs d (List.mem_cons_of_mem _ hd)).step ?_
    exact hs ⟨s, a, s'⟩ (List.mem_cons_self ..) hstep

/-- Steps that are open in every state extend a run by their labels. -/
theorem foldl {next : σ → α → σ} {labels : List α} (hn : ∀ a ∈ labels, ∀ s, step s a (next s a))
    (h : Run init step done s) : ∃ done', Run init step done' (labels.foldl next s) ∧
      done'.map Done.label = labels.reverse ++ done.map Done.label := by
  induction labels generalizing done s with
  | nil => exact ⟨done, h, rfl⟩
  | cons a labels ih =>
    obtain ⟨done', hr, hl⟩ := ih (fun a' ha => hn a' (List.mem_cons_of_mem _ ha))
      (h.step (hn a (by simp) s))
    exact ⟨done', hr, by simp [hl]⟩

end Run
