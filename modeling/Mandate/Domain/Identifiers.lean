/-
  The languages of identifiers, hashes and field tokens.

  The validators' patterns end in `$`, which also matches before a final
  newline, and the one for ULIDs ignores case beyond ASCII.  Each accepts its
  documented language except on such texts (`documented_languages_iff`).
-/
import Mathlib.Data.List.DropRight
import Mandate.Domain.Events

namespace Mandate

/-! ## The validators of content claims -/

section
variable [Platform]

/-- `_SHA256_RE`. -/
def matchesSha256 (cs : List Char) : Bool :=
  let body := if cs.getLast? = some '\n' then cs.dropLast else cs
  body.length = 64 && body.all fun c => c ∈ "0123456789abcdef".toList

def validateSha256Hex (v : String) : Except PyError String :=
  if matchesSha256 v.toList then .ok v
  else .error (.valueError s!"not a 64-char lowercase hex sha256: {pyRepr v}")

/-- A character of a field token after the first. -/
def isFieldChar (c : Char) : Bool := c.isLower || c.isDigit || c = '_'

/-- `_FIELD_RE`. -/
def matchesField (cs : List Char) : Bool :=
  let body := if cs.getLast? = some '\n' then cs.dropLast else cs
  match body with
  | [] => false
  | c :: cs => c.isLower && cs.length ≤ 63 && cs.all isFieldChar

/-- `DetectedField._v_field`. -/
def DetectedField.validateField (v : String) : Except PyError String :=
  if matchesField v.toList then .ok v
  else .error (.valueError s!"disclosure field token must be snake_case ascii: {pyRepr v}")

end

/-! ## The documented languages -/

/-- 26 characters of Crockford base32, in either case. -/
def UlidText (cs : List Char) : Prop :=
  cs.length = 26 ∧ ∀ c ∈ cs, c ∈ crockford ∨ c ∈ crockford.map Char.toLower

/-- 64 lowercase hexadecimal digits. -/
def HashText (cs : List Char) : Prop :=
  cs.length = 64 ∧ ∀ c ∈ cs, c ∈ "0123456789abcdef".toList

/-- A lowercase letter, then at most 63 lowercase letters, digits or
    underscores, all in ASCII. -/
def FieldText (cs : List Char) : Prop :=
  ∃ c rest, cs = c :: rest ∧ ('a' ≤ c ∧ c ≤ 'z') ∧ rest.length ≤ 63 ∧
    ∀ d ∈ rest, ('a' ≤ d ∧ d ≤ 'z') ∨ ('0' ≤ d ∧ d ≤ '9') ∨ d = '_'

/-- The text without a final newline. -/
def beforeNewline (cs : List Char) : List Char := if cs.getLast? = some '\n' then cs.dropLast else cs

/-- The text is in the language but for a newline after it. -/
def NewlineAdded (lang : List Char → Prop) (cs : List Char) : Prop :=
  cs.getLast? = some '\n' ∧ lang cs.dropLast

/-- What ignoring case outside ASCII takes for an s or a k. -/
def longS : Char := Char.ofNat 0x17f

def kelvinSign : Char := Char.ofNat 0x212a

/-- The text is a ULID but for a long s in the place of an s, a Kelvin sign in
    the place of a k, or a newline after it. -/
def UlidAltered (cs : List Char) : Prop :=
  ((beforeNewline cs).length = 26 ∧ ∀ c ∈ beforeNewline cs,
    (c ∈ crockford ∨ c ∈ crockford.map Char.toLower) ∨ c = longS ∨ c = kelvinSign) ∧
  ∃ c ∈ cs, c = longS ∨ c = kelvinSign ∨ c = '\n'

/-! ## Single patterns -/

/-- What holds of the first 128 characters holds of every ASCII character. -/
theorem ascii_forall {P : Char → Prop} (h : ∀ n : Fin 128, P (Char.ofNat n)) {c : Char}
    (hc : c ≤ 'z') : P c := by
  have hle : c.toNat ≤ 122 := hc
  have hn : c.toNat < 128 := by omega
  rw [← Char.ofNat_toNat c]
  exact h ⟨c.toNat, hn⟩

theorem toUpper_mem_crockford {c : Char} :
    c.toUpper ∈ crockford ↔ c ∈ crockford ∨ c ∈ crockford.map Char.toLower := by
  have hup : crockford.all (fun c => c.toUpper ∈ crockford) = true := by decide
  have hlow : (crockford.map Char.toLower).all (fun c => c.toUpper ∈ crockford) = true := by decide
  constructor
  · intro h
    by_cases hl : 'a'.val ≤ c.val ∧ c.val ≤ 'z'.val
    · refine ascii_forall (P := fun c => c.toUpper ∈ crockford →
        c ∈ crockford ∨ c ∈ crockford.map Char.toLower) ?_ hl.2 h
      decide +kernel
    · have hup : c.toUpper = c := dif_neg hl
      exact .inl (hup ▸ h)
  · rintro (h | h)
    · exact of_decide_eq_true (List.all_eq_true.1 hup c h)
    · exact of_decide_eq_true (List.all_eq_true.1 hlow c h)

theorem isLower_iff {c : Char} : c.isLower = true ↔ 'a' ≤ c ∧ c ≤ 'z' := by
  change (decide (c.val ≥ 'a'.val) && decide (c.val ≤ 'z'.val)) = true ↔ _
  simp [Char.le_def]

theorem isFieldChar_iff {c : Char} :
    isFieldChar c = true ↔ ('a' ≤ c ∧ c ≤ 'z') ∨ ('0' ≤ c ∧ c ≤ '9') ∨ c = '_' := by
  simp [isFieldChar, isLower_iff, Char.isDigit, Char.le_def, or_assoc]

/-- A pattern that ends in `$` accepts one text too many for each of its texts. -/
theorem anchored_iff {p : List Char → Bool} {lang : List Char → Prop} {cs : List Char}
    (hp : ∀ cs, p cs = true ↔ lang cs) (hlang : lang cs → cs.getLast? ≠ some '\n') :
    ((p (beforeNewline cs) = true) ↔ lang cs) ↔ ¬ NewlineAdded lang cs := by
  by_cases hn : cs.getLast? = some '\n'
  · have hnot : ¬ lang cs := fun h => hlang h hn
    simp [beforeNewline, NewlineAdded, hn, hp, hnot]
  · simp [beforeNewline, NewlineAdded, hn, hp]

theorem getLast?_ne_newline {cs : List Char} (h : ∀ c ∈ cs, c ≠ '\n') :
    cs.getLast? ≠ some '\n' :=
  fun hl => h _ (List.mem_of_getLast? hl) rfl

theorem matchesSha256_iff (cs : List Char) :
    (matchesSha256 cs = true ↔ HashText cs) ↔ ¬ NewlineAdded HashText cs := by
  refine anchored_iff (p := fun cs => cs.length = 64 && cs.all fun c =>
    c ∈ "0123456789abcdef".toList) (fun cs => by simp [HashText]) fun h => ?_
  refine getLast?_ne_newline ?_
  rintro c hc rfl
  exact absurd (h.2 _ hc) (by decide)

theorem matchesField_iff (cs : List Char) :
    (matchesField cs = true ↔ FieldText cs) ↔ ¬ NewlineAdded FieldText cs := by
  refine anchored_iff (p := fun cs => match cs with
    | [] => false
    | c :: cs => c.isLower && cs.length ≤ 63 && cs.all isFieldChar) (fun cs => ?_) fun h => ?_
  · cases cs with
    | nil => simp [FieldText]
    | cons c cs => simp [FieldText, isLower_iff, isFieldChar_iff, and_assoc]
  · obtain ⟨c, rest, rfl, hc, -, hrest⟩ := h
    refine getLast?_ne_newline ?_
    rintro d hd rfl
    rcases List.mem_cons.1 hd with rfl | hd
    · exact absurd hc (by decide)
    · exact absurd (hrest _ hd) (by decide)

theorem UlidText.ne_altered {cs : List Char} (h : UlidText cs) :
    ∀ c ∈ cs, ¬ (c = longS ∨ c = kelvinSign ∨ c = '\n') := by
  intro c hc
  have hmem := h.2 c hc
  rintro (rfl | rfl | rfl) <;> exact absurd hmem (by decide)

theorem matchesUlid_iff (cs : List Char) :
    (matchesUlid cs = true ↔ UlidText cs) ↔ ¬ UlidAltered cs := by
  have hloose : matchesUlid cs = true ↔ (beforeNewline cs).length = 26 ∧
      ∀ c ∈ beforeNewline cs, (c ∈ crockford ∨ c ∈ crockford.map Char.toLower) ∨ c = longS ∨
        c = kelvinSign := by
    simp [matchesUlid, beforeNewline, isUlidChar, toUpper_mem_crockford, longS, kelvinSign,
      or_assoc]
  by_cases hu : UlidText cs
  · have hnot : ¬ UlidAltered cs := fun h => by
      obtain ⟨-, c, hc, halt⟩ := h
      exact hu.ne_altered c hc halt
    have hbody : beforeNewline cs = cs :=
      if_neg (getLast?_ne_newline fun c hc he => hu.ne_altered c hc (.inr (.inr he)))
    have hmatch : matchesUlid cs = true :=
      hloose.2 ⟨by rw [hbody]; exact hu.1, fun c hc => .inl (hu.2 c (hbody ▸ hc))⟩
    exact ⟨fun _ => hnot, fun _ => ⟨fun _ => hu, fun _ => hmatch⟩⟩
  · have halt : matchesUlid cs = true → ∃ c ∈ cs, c = longS ∨ c = kelvinSign ∨ c = '\n' := by
      intro hm
      by_contra hno
      simp only [not_exists, not_and, not_or] at hno
      have hbody : beforeNewline cs = cs :=
        if_neg (getLast?_ne_newline fun c hc => (hno c hc).2.2)
      obtain ⟨hlen, hall⟩ := hloose.1 hm
      rw [hbody] at hlen hall
      exact hu ⟨hlen, fun c hc => (hall c hc).resolve_right (not_or.2 ⟨(hno c hc).1, (hno c hc).2.1⟩)⟩
    rw [UlidAltered, ← hloose]
    exact ⟨fun h hm => hu (h.1 hm.1), fun h => ⟨fun hm => absurd ⟨hm, halt hm⟩ h, fun h => absurd h hu⟩⟩

/-! ## The validators -/

/-- What is left of a text without its characters outside ASCII and the white
    space at its end. -/
def visible (cs : List Char) : List Char :=
  (cs.filter fun c => c.toNat < 128).rdropWhile Char.isWhitespace

/-- A validator with its documented language and the texts altered so that the
    validator does not see it. -/
structure Validator where
  validate : String → Except PyError String
  language : List Char → Prop
  altered : List Char → Prop

/-- The validator returns the texts of its language and raises on all others,
    except on altered ones, and no two texts that it accepts and that are not
    altered differ only in what is not visible. -/
structure Validator.Documented (v : Validator) : Prop where
  total : ∀ s, v.validate s = .ok s ∨ ∃ m, v.validate s = .error (.valueError m)
  exact : ∀ s, (v.validate s = .ok s ↔ v.language s.toList) ↔ ¬ v.altered s.toList
  visible : ∀ s t, v.validate s = .ok s → v.validate t = .ok t → ¬ v.altered s.toList →
    ¬ v.altered t.toList → visible s.toList = visible t.toList → s = t

section
variable [Platform]

def ulidValidator : Validator := ⟨validateUlid, UlidText, UlidAltered⟩

def sha256Validator : Validator := ⟨validateSha256Hex, HashText, NewlineAdded HashText⟩

def hashValidator : Validator := ⟨validateHash, HashText, NewlineAdded HashText⟩

def fieldValidator : Validator :=
  ⟨DetectedField.validateField, FieldText, NewlineAdded FieldText⟩

omit [Platform] in
theorem visible_eq {cs : List Char} (h : ∀ c ∈ cs, c.toNat < 128 ∧ ¬ c.isWhitespace) :
    visible cs = cs := by
  have hfilter : cs.filter (fun c => c.toNat < 128) = cs :=
    List.filter_eq_self.2 fun c hc => decide_eq_true (h c hc).1
  rw [visible, hfilter, List.rdropWhile_eq_self_iff]
  exact fun hne => (h _ (List.getLast_mem hne)).2

omit [Platform] in
/-- A check of the whole text, with a language of visible characters. -/
theorem Validator.Documented.of_pattern {p : List Char → Bool} {message : String → String}
    {language altered : List Char → Prop}
    (hexact : ∀ cs, (p cs = true ↔ language cs) ↔ ¬ altered cs)
    (hvisible : ∀ cs, language cs → ∀ c ∈ cs, c.toNat < 128 ∧ ¬ c.isWhitespace) :
    Validator.Documented ⟨fun v => if p v.toList then .ok v else .error (.valueError (message v)),
      language, altered⟩ := by
  have hok : ∀ s : String, (if p s.toList then Except.ok s
      else .error (PyError.valueError (message s))) = .ok s ↔ p s.toList = true := by
    intro s
    split_ifs with h <;> simp [h]
  refine ⟨fun s => ?_, fun s => ?_, fun s t hs ht has hat hv => ?_⟩
  · dsimp only
    split_ifs with h
    · exact .inl rfl
    · exact .inr ⟨_, rfl⟩
  · dsimp only
    rw [hok]
    exact hexact _
  · have hls := ((hexact _).2 has).1 ((hok s).1 hs)
    have hlt := ((hexact _).2 hat).1 ((hok t).1 ht)
    rw [visible_eq (hvisible _ hls), visible_eq (hvisible _ hlt)] at hv
    exact String.toList_inj.1 hv

omit [Platform] in
theorem HashText.visible {cs : List Char} (h : HashText cs) :
    ∀ c ∈ cs, c.toNat < 128 ∧ ¬ c.isWhitespace := by
  have hdigits : "0123456789abcdef".toList.all
      (fun c => c.toNat < 128 && !c.isWhitespace) = true := by decide
  intro c hc
  simpa using List.all_eq_true.1 hdigits c (h.2 c hc)

omit [Platform] in
theorem UlidText.visible {cs : List Char} (h : UlidText cs) :
    ∀ c ∈ cs, c.toNat < 128 ∧ ¬ c.isWhitespace := by
  have hchars : (crockford ++ crockford.map Char.toLower).all
      (fun c => c.toNat < 128 && !c.isWhitespace) = true := by decide
  intro c hc
  simpa using List.all_eq_true.1 hchars c (List.mem_append.2 (h.2 c hc))

omit [Platform] in
theorem FieldText.visible {cs : List Char} (h : FieldText cs) :
    ∀ c ∈ cs, c.toNat < 128 ∧ ¬ c.isWhitespace := by
  have hfield : ∀ d : Char, ('a' ≤ d ∧ d ≤ 'z') ∨ ('0' ≤ d ∧ d ≤ '9') ∨ d = '_' →
      d.toNat < 128 ∧ ¬ d.isWhitespace := by
    intro d hd
    have hle : d ≤ 'z' := by
      rcases hd with hd | hd | rfl
      · exact hd.2
      · exact le_trans hd.2 (by decide)
      · decide
    refine ascii_forall (P := fun d => ('a' ≤ d ∧ d ≤ 'z') ∨ ('0' ≤ d ∧ d ≤ '9') ∨ d = '_' →
      d.toNat < 128 ∧ ¬ d.isWhitespace) ?_ hle hd
    decide +kernel
  obtain ⟨c, rest, rfl, hc, -, hrest⟩ := h
  intro d hd
  rcases List.mem_cons.1 hd with rfl | hd
  · exact hfield d (.inl hc)
  · exact hfield d (hrest d hd)

/-- Each validator accepts its documented language, and tells its texts apart
    by what is visible of them, exactly on the texts without a newline added
    and, for ULIDs, without a long s or a Kelvin sign. -/
theorem documented_languages_iff : ulidValidator.Documented ∧ sha256Validator.Documented ∧
    hashValidator.Documented ∧ fieldValidator.Documented :=
  ⟨.of_pattern matchesUlid_iff fun _ => UlidText.visible,
    .of_pattern matchesSha256_iff fun _ => HashText.visible,
    .of_pattern matchesSha256_iff fun _ => HashText.visible,
    .of_pattern matchesField_iff fun _ => FieldText.visible⟩

end

section
attribute [local instance] Sample.platform

/-- A newline after a ULID, a hash or a field token is accepted with it, and so
    is a Kelvin sign for a K. -/
theorem altered_accepted :
    (validateUlid "01ARZ3NDEKTSV4RRFFQ69G5FAV\n" = .ok "01ARZ3NDEKTSV4RRFFQ69G5FAV\n" ∧
      ¬ UlidText "01ARZ3NDEKTSV4RRFFQ69G5FAV\n".toList) ∧
    (validateUlid "01ARZ3NDE\u212aTSV4RRFFQ69G5FAV" = .ok "01ARZ3NDE\u212aTSV4RRFFQ69G5FAV" ∧
      ¬ UlidText "01ARZ3NDE\u212aTSV4RRFFQ69G5FAV".toList) ∧
    (validateSha256Hex (genesisHash ++ "\n") = .ok (genesisHash ++ "\n") ∧
      ¬ HashText (genesisHash ++ "\n").toList) ∧
    (validateHash (genesisHash ++ "\n") = .ok (genesisHash ++ "\n") ∧
      ¬ HashText (genesisHash ++ "\n").toList) ∧
    (DetectedField.validateField "ssn\n" = .ok "ssn\n" ∧ ¬ FieldText "ssn\n".toList) := by
  refine ⟨⟨rfl, fun h => absurd h.1 (by decide)⟩, ⟨rfl, fun h => ?_⟩,
    ⟨rfl, fun h => absurd h.1 (by decide)⟩, ⟨rfl, fun h => absurd h.1 (by decide)⟩, rfl, ?_⟩
  · exact absurd (h.2 kelvinSign (by decide)) (by decide)
  · rintro ⟨c, rest, h, -, -, hrest⟩
    obtain ⟨rfl, rfl⟩ := List.cons.inj h
    exact absurd (hrest '\n' (by decide)) (by decide)

end

end Mandate
