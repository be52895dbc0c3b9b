/-
  Redaction of log payloads.

  `redact` recurses into a dictionary before it looks at the key, and never
  into a list.  It hides what lies beneath sensitive keys, and nothing else,
  exactly when no sensitive key holds a dictionary and no list holds an exposed
  value (`redacts_iff`).
-/
import Mathlib.Logic.Basic

namespace Mandate

/-- A value of a log payload: dictionaries and lists of values of any type. -/
inductive LogValue (α : Type) where
  | str (s : String)
  | other (a : α)
  | list (items : List (LogValue α))
  | dict (entries : List (String × LogValue α))

variable {α : Type}

/-- `_SENSITIVE_KEYS`. -/
def sensitiveKeys : List String :=
  ["password", "passwd", "secret", "seed", "private", "token", "authorization"]

/-- `_REDACTED`. -/
def redacted : LogValue α := .str "***redacted***"

/-- Whether a key is sensitive; `lower` is `str.lower`. -/
def isSensitive (lower : String → String) (key : String) : Bool := lower key ∈ sensitiveKeys

variable (lower : String → String)

/-! ## The formatter -/

mutual
/-- `RedactingJsonFormatter._redact`. -/
def redact : List (String × LogValue α) → List (String × LogValue α)
  | [] => []
  | (key, value) :: data => (key, redactValue key value) :: redact data
/-- What is logged for a value under a key. -/
def redactValue (key : String) : LogValue α → LogValue α
  | .dict entries => .dict (redact entries)
  | .list items => if isSensitive lower key then redacted else .list items
  | .str s => if isSensitive lower key then redacted else .str s
  | .other a => if isSensitive lower key then redacted else .other a
end

/-! ## What redaction should do -/

mutual
/-- The value has, at some depth, a sensitive key with a value that is not
    redacted. -/
def Exposed : LogValue α → Prop
  | .str _ => False
  | .other _ => False
  | .list items => ExposedItems items
  | .dict entries => ExposedEntries entries
def ExposedItems : List (LogValue α) → Prop
  | [] => False
  | v :: vs => Exposed v ∨ ExposedItems vs
def ExposedEntries : List (String × LogValue α) → Prop
  | [] => False
  | (key, v) :: es => (if isSensitive lower key then v ≠ redacted else Exposed v) ∨
      ExposedEntries es
end

mutual
/-- The values differ only beneath sensitive keys. -/
def Agree : LogValue α → LogValue α → Prop
  | .str s, w => w = .str s
  | .other a, w => w = .other a
  | .list vs, w => ∃ ws, w = .list ws ∧ AgreeItems vs ws
  | .dict es, w => ∃ fs, w = .dict fs ∧ AgreeEntries es fs
def AgreeItems : List (LogValue α) → List (LogValue α) → Prop
  | [], ws => ws = []
  | v :: vs, ws => ∃ w ws', ws = w :: ws' ∧ Agree v w ∧ AgreeItems vs ws'
def AgreeEntries : List (String × LogValue α) → List (String × LogValue α) → Prop
  | [], fs => fs = []
  | (key, v) :: es, fs => ∃ w fs', fs = (key, w) :: fs' ∧
      (isSensitive lower key = false → Agree v w) ∧ AgreeEntries es fs'
end

/-- The output shows nothing beneath a sensitive key and keeps all the rest of
    the payload. -/
structure Redacts (data out : List (String × LogValue α)) : Prop where
  hidden : ¬ ExposedEntries lower out
  kept : AgreeEntries lower data out

mutual
/-- The dictionary with every value beneath a sensitive key replaced. -/
def maskEntries : List (String × LogValue α) → List (String × LogValue α)
  | [] => []
  | (key, v) :: es => (key, if isSensitive lower key then redacted else mask v) :: maskEntries es
def mask : LogValue α → LogValue α
  | .str s => .str s
  | .other a => .other a
  | .list items => .list (maskItems items)
  | .dict entries => .dict (maskEntries entries)
def maskItems : List (LogValue α) → List (LogValue α)
  | [] => []
  | v :: vs => mask v :: maskItems vs
end

mutual
theorem agree_mask : ∀ v : LogValue α, Agree lower v (mask lower v)
  | .str _ => rfl
  | .other _ => rfl
  | .list items => ⟨_, rfl, agree_maskItems items⟩
  | .dict entries => ⟨_, rfl, agree_maskEntries entries⟩
theorem agree_maskItems : ∀ vs : List (LogValue α), AgreeItems lower vs (maskItems lower vs)
  | [] => rfl
  | v :: vs => ⟨_, _, rfl, agree_mask v, agree_maskItems vs⟩
theorem agree_maskEntries : ∀ es : List (String × LogValue α),
    AgreeEntries lower es (maskEntries lower es)
  | [] => rfl
  | (key, v) :: es => by
    refine ⟨_, _, rfl, fun hk => ?_, agree_maskEntries es⟩
    rw [hk]
    exact agree_mask v
end

mutual
theorem mask_congr : ∀ {v w : LogValue α}, Agree lower v w → mask lower v = mask lower w
  | .str _, _, h => by
    obtain rfl := h
    rfl
  | .other _, _, h => by
    obtain rfl := h
    rfl
  | .list items, _, h => by
    obtain ⟨ws, rfl, hi⟩ := h
    rw [mask, mask, maskItems_congr hi]
  | .dict entries, _, h => by
    obtain ⟨fs, rfl, he⟩ := h
    rw [mask, mask, maskEntries_congr he]
theorem maskItems_congr : ∀ {vs ws : List (LogValue α)}, AgreeItems lower vs ws →
    maskItems lower vs = maskItems lower ws
  | [], _, h => by
    obtain rfl := h
    rfl
  | v :: vs, _, h => by
    obtain ⟨w, ws, rfl, hv, hvs⟩ := h
    rw [maskItems, maskItems, mask_congr hv, maskItems_congr hvs]
theorem maskEntries_congr : ∀ {es fs : List (String × LogValue α)}, AgreeEntries lower es fs →
    maskEntries lower es = maskEntries lower fs
  | [], _, h => by
    obtain rfl := h
    rfl
  | (key, v) :: es, _, h => by
    obtain ⟨w, fs, rfl, hv, hes⟩ := h
    rw [maskEntries, maskEntries, maskEntries_congr hes]
    cases hk : isSensitive lower key with
    | true => rfl
    | false => simp only [Bool.false_eq_true, ↓reduceIte, mask_congr (hv hk)]
end

mutual
/-- Masking leaves a value alone exactly when the value exposes nothing. -/
theorem mask_eq_self : ∀ v : LogValue α, mask lower v = v ↔ ¬ Exposed lower v
  | .str _ => by simp [mask, Exposed]
  | .other _ => by simp [mask, Exposed]
  | .list items => by rw [mask, Exposed, LogValue.list.injEq, maskItems_eq_self items]
  | .dict entries => by rw [mask, Exposed, LogValue.dict.injEq, maskEntries_eq_self entries]
theorem maskItems_eq_self : ∀ vs : List (LogValue α),
    maskItems lower vs = vs ↔ ¬ ExposedItems lower vs
  | [] => by simp [maskItems, ExposedItems]
  | v :: vs => by
    rw [maskItems, ExposedItems, List.cons.injEq, mask_eq_self v, maskItems_eq_self vs, not_or]
theorem maskEntries_eq_self : ∀ es : List (String × LogValue α),
    maskEntries lower es = es ↔ ¬ ExposedEntries lower es
  | [] => by simp [maskEntries, ExposedEntries]
  | (key, v) :: es => by
    rw [maskEntries, ExposedEntries, List.cons.injEq, maskEntries_eq_self es, not_or]
    cases isSensitive lower key with
    | true => simp [eq_comm]
    | false => simp [mask_eq_self v]
end

/-- The masked dictionary is the one output that redacts a payload. -/
theorem redacts_iff_eq {data out : List (String × LogValue α)} :
    Redacts lower data out ↔ out = maskEntries lower data := by
  constructor
  · rintro ⟨hidden, kept⟩
    rw [maskEntries_congr lower kept]
    exact ((maskEntries_eq_self lower out).2 hidden).symm
  · rintro rfl
    have hkept := agree_maskEntries lower data
    exact ⟨(maskEntries_eq_self lower _).1 (maskEntries_congr lower hkept).symm, hkept⟩

/-! ## Where the formatter redacts -/

mutual
/-- Along dictionaries, a sensitive key holds a dictionary, or another key holds
    a list that exposes a value. -/
def Missed : List (String × LogValue α) → Prop
  | [] => False
  | (key, v) :: es => MissedValue key v ∨ Missed es
def MissedValue (key : String) : LogValue α → Prop
  | .str _ => False
  | .other _ => False
  | .list items => isSensitive lower key = false ∧ ExposedItems lower items
  | .dict entries => isSensitive lower key = true ∨ Missed entries
end

mutual
theorem redact_eq_mask : ∀ es : List (String × LogValue α),
    redact lower es = maskEntries lower es ↔ ¬ Missed lower es
  | [] => by simp [redact, maskEntries, Missed]
  | (key, v) :: es => by
    rw [redact, maskEntries, Missed, List.cons.injEq, Prod.mk.injEq, redact_eq_mask es,
      redactValue_eq_mask key v, not_or]
    simp
theorem redactValue_eq_mask (key : String) : ∀ v : LogValue α,
    redactValue lower key v = (if isSensitive lower key then redacted else mask lower v) ↔
      ¬ MissedValue lower key v
  | .str _ => by simp [redactValue, mask, MissedValue]
  | .other _ => by simp [redactValue, mask, MissedValue]
  | .list items => by
    rw [redactValue, mask, MissedValue, eq_comm]
    cases isSensitive lower key with
    | true => simp
    | false => simp [maskItems_eq_self lower items]
  | .dict entries => by
    rw [redactValue, mask, MissedValue]
    cases isSensitive lower key with
    | true => simp [redacted]
    | false => simp [redact_eq_mask entries]
end

/-- The formatter redacts a payload exactly when, along its dictionaries, no
    sensitive key holds a dictionary and no other key a list that exposes a
    value; and payloads of this kind that differ only beneath sensitive keys
    are logged as one. -/
theorem redacts_iff (data : List (String × LogValue α)) :
    (Redacts lower data (redact lower data) ↔ ¬ Missed lower data) ∧
      ∀ data', ¬ Missed lower data → ¬ Missed lower data' → AgreeEntries lower data data' →
        redact lower data = redact lower data' := by
  refine ⟨(redacts_iff_eq lower).trans (redact_eq_mask lower data), fun data' h h' hagree => ?_⟩
  rw [(redact_eq_mask lower data).2 h, (redact_eq_mask lower data').2 h',
    maskEntries_congr lower hagree]

/-- A password is logged when a sensitive key holds the dictionary that it is
    in, and when a list does. -/
theorem nested_password_logged :
    (redact id [("authorization", .dict [("value", .str "s3cret")])] =
        [("authorization", (.dict [("value", .str "s3cret")] : LogValue Empty))] ∧
      ¬ Redacts id [("authorization", (.dict [("value", .str "s3cret")] : LogValue Empty))]
        (redact id [("authorization", .dict [("value", .str "s3cret")])])) ∧
    (redact id [("logins", .list [.dict [("password", .str "s3cret")]])] =
        [("logins", (.list [.dict [("password", .str "s3cret")]] : LogValue Empty))] ∧
      ¬ Redacts id [("logins", (.list [.dict [("password", .str "s3cret")]] : LogValue Empty))]
        (redact id [("logins", .list [.dict [("password", .str "s3cret")]])])) := by
  refine ⟨⟨rfl, fun h => h.hidden ?_⟩, rfl, fun h => h.hidden ?_⟩
  · exact .inl (by simp [isSensitive, sensitiveKeys, redacted, redactValue])
  · exact .inl (.inl (.inl (by simp [isSensitive, sensitiveKeys, redacted])))

end Mandate
