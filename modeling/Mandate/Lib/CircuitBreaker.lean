/-
  Circuit breakers: a service that fails too often in a row is left alone until
  a cool-down has passed.

  A breaker counts failures; at the limit it opens for the cool-down and counts
  anew.  While it is open the service is not asked, so the attempts of a run are
  those the breaker admitted (`Admitted`).

  * `Admitted.spaced`: among one more attempts than the limit, all but the last
    of them failed, two successive ones are a cool-down apart;
  * `open_explained`: an open breaker was opened by as many successive failures
    as the limit, less than a cool-down ago.
-/
import Mathlib.Data.List.Infix
import Mathlib.Order.Lattice
import Mandate.Lib.Preceded

universe u

/-- One request to the service, as its caller saw it: the clock before and
    after it, and whether it failed. -/
structure Attempt (T : Type u) where
  asked : T
  answered : T
  failed : Bool

structure CircuitBreaker (T : Type u) where
  failures : ℕ
  openUntil : T

namespace CircuitBreaker

variable {T : Type u} [Add T]

section
variable (limit : ℕ) (cooldown : T)

/-- One more attempt: a failure that reaches the limit opens the breaker. -/
def record (b : CircuitBreaker T) (a : Attempt T) : CircuitBreaker T :=
  if a.failed then
    if limit ≤ b.failures + 1 then ⟨0, a.answered + cooldown⟩
    else ⟨b.failures + 1, b.openUntil⟩
  else ⟨0, b.openUntil⟩

/-- The breaker after the attempts, the earliest first. -/
def recordAll (b : CircuitBreaker T) (attempts : List (Attempt T)) : CircuitBreaker T :=
  attempts.foldl (record limit cooldown) b

/-- As many failures open the breaker; a limit of zero is like a limit of one. -/
def needed : ℕ := max 1 limit

end

variable {limit : ℕ} {cooldown : T} {b : CircuitBreaker T} {attempts : List (Attempt T)}

theorem recordAll_append {more : List (Attempt T)} :
    b.recordAll limit cooldown (attempts ++ more) =
      (b.recordAll limit cooldown attempts).recordAll limit cooldown more :=
  List.foldl_append ..

theorem recordAll_snoc {a : Attempt T} :
    b.recordAll limit cooldown (attempts ++ [a]) =
      (b.recordAll limit cooldown attempts).record limit cooldown a :=
  recordAll_append

/-- What one attempt does to the breaker. -/
theorem record_cases (limit : ℕ) (cooldown : T) (b : CircuitBreaker T) (a : Attempt T) :
    (a.failed = false ∧ b.record limit cooldown a = ⟨0, b.openUntil⟩) ∨
    (a.failed = true ∧ b.failures + 1 < needed limit ∧
      b.record limit cooldown a = ⟨b.failures + 1, b.openUntil⟩) ∨
    (a.failed = true ∧ needed limit ≤ b.failures + 1 ∧
      b.record limit cooldown a = ⟨0, a.answered + cooldown⟩) := by
  have hneeded : needed limit ≤ b.failures + 1 ↔ limit ≤ b.failures + 1 := by
    simp only [needed]; omega
  unfold record
  split_ifs with hf hl
  · exact .inr (.inr ⟨hf, hneeded.2 hl, rfl⟩)
  · exact .inr (.inl ⟨hf, not_le.1 (mt hneeded.1 hl), rfl⟩)
  · exact .inl ⟨by simpa using hf, rfl⟩

theorem needed_pos : 0 < needed limit := Nat.lt_of_lt_of_le Nat.one_pos (le_max_left ..)

/-- The count stays below the limit. -/
theorem recordAll_failures_lt (cooldown : T) (hb : b.failures < needed limit)
    (attempts : List (Attempt T)) :
    (b.recordAll limit cooldown attempts).failures < needed limit := by
  induction attempts using List.reverseRecOn with
  | nil => exact hb
  | append_singleton before a ih =>
    rw [recordAll_snoc]
    rcases record_cases limit cooldown (b.recordAll limit cooldown before) a
        with ⟨-, h⟩ | ⟨-, hlt, h⟩ | ⟨-, -, h⟩
    · rw [h]; exact needed_pos
    · rw [h]; exact hlt
    · rw [h]; exact needed_pos

/-! ## Attempts during an outage -/

/-- Failures short of the limit are counted. -/
theorem recordAll_failures (cooldown : T) (hf : ∀ a ∈ attempts, a.failed = true)
    (hlt : b.failures + attempts.length < needed limit) :
    (b.recordAll limit cooldown attempts).failures = b.failures + attempts.length := by
  induction attempts using List.reverseRecOn with
  | nil => rfl
  | append_singleton before a ih =>
    rw [List.length_append, List.length_singleton] at hlt ⊢
    have hcount := ih (fun x hx => hf x (List.mem_append_left _ hx)) (by omega)
    rw [recordAll_snoc]
    rcases record_cases limit cooldown (b.recordAll limit cooldown before) a
        with ⟨hok, -⟩ | ⟨-, -, h⟩ | ⟨-, hle, -⟩
    · rw [hf a (by simp)] at hok
      cases hok
    · rw [h, hcount]; rfl
    · omega

/-- The failure that reaches the limit opens the breaker. -/
theorem recordAll_openUntil (cooldown : T) {a : Attempt T}
    (hf : ∀ x ∈ attempts, x.failed = true) (ha : a.failed = true)
    (hlen : b.failures + attempts.length + 1 = needed limit) :
    (b.recordAll limit cooldown (attempts ++ [a])).openUntil = a.answered + cooldown := by
  have hcount := recordAll_failures cooldown hf (show b.failures + _ < needed limit by omega)
  rw [recordAll_snoc]
  rcases record_cases limit cooldown (b.recordAll limit cooldown attempts) a
        with ⟨hok, -⟩ | ⟨-, hlt, -⟩ | ⟨-, -, h⟩
  · rw [ha] at hok
    cases hok
  · omega
  · rw [h]

/-! ## From the attempts to the breaker -/

/-- As many successive failures as open a breaker, and the end of the cool-down
    after them. -/
def Outage (limit : ℕ) (cooldown : T) (block : List (Attempt T)) (ends : T) : Prop :=
  block.length = needed limit ∧ (∀ a ∈ block, a.failed = true) ∧
    ∃ a ∈ block.getLast?, ends = a.answered + cooldown

/-- The count and the end of the cool-down, from the attempts made. -/
structure Explained (limit : ℕ) (cooldown : T) (b : CircuitBreaker T)
    (attempts : List (Attempt T)) (c : CircuitBreaker T) : Prop where
  failures : ∃ block, block <:+ attempts ∧ block.length = c.failures ∧
    ∀ a ∈ block, a.failed = true
  openUntil : c.openUntil = b.openUntil ∨
    ∃ block, block <:+: attempts ∧ Outage limit cooldown block c.openUntil

theorem explained (limit : ℕ) (cooldown : T) (hb : b.failures = 0) (attempts : List (Attempt T)) :
    Explained limit cooldown b attempts (b.recordAll limit cooldown attempts) := by
  induction attempts using List.reverseRecOn with
  | nil => exact ⟨⟨[], List.suffix_refl _, hb.symm, by simp⟩, .inl rfl⟩
  | append_singleton before a ih =>
    have hcount := recordAll_failures_lt cooldown (show b.failures < needed limit from
      hb ▸ needed_pos) before
    obtain ⟨⟨block, hsuffix, hblock, hfailed⟩, hopen⟩ := ih
    have hkept : (b.recordAll limit cooldown before).openUntil = b.openUntil ∨
        ∃ block, block <:+: before ++ [a] ∧
          Outage limit cooldown block (b.recordAll limit cooldown before).openUntil :=
      hopen.imp_right fun ⟨block, hinfix, hout⟩ =>
        ⟨block, hinfix.trans (List.prefix_append ..).isInfix, hout⟩
    have hsuffix' : block ++ [a] <:+ before ++ [a] := by
      obtain ⟨front, rfl⟩ := hsuffix
      exact ⟨front, by simp⟩
    have hfailed' (ha : a.failed = true) : ∀ x ∈ block ++ [a], x.failed = true := by
      intro x hx
      rcases List.mem_append.1 hx with hx | hx
      · exact hfailed x hx
      · rw [List.mem_singleton.1 hx]; exact ha
    rw [recordAll_snoc]
    rcases record_cases limit cooldown (b.recordAll limit cooldown before) a
        with ⟨-, h⟩ | ⟨ha, -, h⟩ | ⟨ha, hle, h⟩
    · rw [h]
      exact ⟨⟨[], List.nil_suffix, rfl, by simp⟩, hkept⟩
    · rw [h]
      exact ⟨⟨block ++ [a], hsuffix', by simp [hblock], hfailed' ha⟩, hkept⟩
    · rw [h]
      refine ⟨⟨[], List.nil_suffix, rfl, by simp⟩, .inr ⟨block ++ [a], hsuffix'.isInfix, ?_⟩⟩
      exact ⟨by simp [hblock]; omega, hfailed' ha, a, by simp, rfl⟩

/-! ## Open and closed -/

variable [LinearOrder T]

def Open (b : CircuitBreaker T) (now : T) : Prop := now < b.openUntil

instance (b : CircuitBreaker T) (now : T) : Decidable (b.Open now) :=
  inferInstanceAs (Decidable (now < b.openUntil))

/-- The breaker was closed at each attempt. -/
def Admitted (limit : ℕ) (cooldown : T) (b : CircuitBreaker T) (attempts : List (Attempt T)) :
    Prop :=
  Preceded (fun before a => ¬ (b.recordAll limit cooldown before).Open a.asked) attempts

/-- Two successive attempts are a cool-down apart. -/
def Spaced (cooldown : T) (attempts : List (Attempt T)) : Prop :=
  ∃ a a', [a, a'] <:+: attempts ∧ a.answered + cooldown ≤ a'.asked

theorem Admitted.spaced (h : Admitted limit cooldown b attempts) (hb : b.failures < needed limit)
    {window : List (Attempt T)} (hw : window <:+: attempts)
    (hlen : window.length = needed limit + 1) (hf : ∀ a ∈ window.dropLast, a.failed = true) :
    Spaced cooldown window := by
  obtain ⟨before, after, rfl⟩ := hw
  -- the breaker as the window finds it, and the failures it still takes
  have hcount := recordAll_failures_lt cooldown hb before
  generalize hc : b.recordAll limit cooldown before = c at hcount
  obtain ⟨missing, hmissing⟩ : ∃ n, c.failures + n + 1 = needed limit :=
    ⟨needed limit - c.failures - 1, by omega⟩
  obtain ⟨outage, a, a', rest, rfl, houtage⟩ :
      ∃ outage a a' rest, window = outage ++ [a] ++ a' :: rest ∧ outage.length = missing := by
    have hdrop : missing + 1 < window.length := by omega
    refine ⟨window.take missing, window[missing], window[missing + 1], window.drop (missing + 2),
      ?_, by rw [List.length_take]; omega⟩
    rw [List.take_append_getElem (by omega), ← List.drop_eq_getElem_cons hdrop,
      List.take_append_drop]
  have hfailed : ∀ x ∈ outage ++ [a], x.failed = true := by
    intro x hx
    refine hf x ?_
    rw [List.dropLast_append_of_ne_nil (by simp)]
    exact List.mem_append_left _ hx
  have hopen := recordAll_openUntil cooldown (fun x hx => hfailed x (List.mem_append_left _ hx))
    (hfailed a (by simp)) (houtage ▸ hmissing)
  refine ⟨a, a', ⟨outage, rest, by simp⟩, ?_⟩
  have hclosed : ¬ (b.recordAll limit cooldown (before ++ (outage ++ [a]))).Open a'.asked :=
    h _ a' (rest ++ after) (by simp)
  rw [recordAll_append, hc] at hclosed
  rw [← hopen]
  exact not_lt.1 hclosed

theorem open_explained (hb : b.failures = 0) {now : T}
    (ho : (b.recordAll limit cooldown attempts).Open now) :
    now < b.openUntil ∨ ∃ block ends, block <:+: attempts ∧
      Outage limit cooldown block ends ∧ now < ends := by
  rcases (explained limit cooldown hb attempts).openUntil with h | h
  · exact .inl (h ▸ ho)
  · obtain ⟨block, hinfix, hout⟩ := h
    exact .inr ⟨block, _, hinfix, hout, ho⟩

end CircuitBreaker
