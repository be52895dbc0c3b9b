/-
  The content screens' protocol: the questions every screen is asked, the
  answers in floating point, and the claims in integers that the engine reads.

  `claimsFromResult_ok` says what becomes of a result: no answer makes the
  conversion raise, a screen that could not answer gives unavailable claims, and
  the fields detected are those that were asked about and got a positive
  probability.
-/
import Mandate.Domain.Identifiers
import Mandate.Lib.Binary64
import Mandate.Lib.PyDecimal

namespace Mandate

/-! ## The question set -/

/-- One question about a sensitive field. -/
structure FieldQuestion where
  field : String
  text : String
  examples : List String := []

/-- The ordered questions of every screen. -/
structure QuestionSet where
  version : String
  fields : List FieldQuestion
  hostilityOptions : Dict String String
  persuasionOptions : Dict String String
  urgencyLevels : List String

def QuestionSet.fieldTokens (qs : QuestionSet) : List String := qs.fields.map FieldQuestion.field

def FieldQuestion.toJson (q : FieldQuestion) : Json :=
  .obj [("field", .str q.field), ("text", .str q.text), ("examples", .arr (q.examples.map .str))]

def optionsJson (options : Dict String String) : Json :=
  .obj (options.entries.map fun e => (e.1, .str e.2))

def QuestionSet.toJson (qs : QuestionSet) : Json :=
  .obj [("version", .str qs.version), ("fields", .arr (qs.fields.map FieldQuestion.toJson)),
    ("hostility_options", optionsJson qs.hostilityOptions),
    ("persuasion_options", optionsJson qs.persuasionOptions),
    ("urgency_levels", .arr (qs.urgencyLevels.map .str))]

def sensitiveFields : List FieldQuestion :=
  [{ field := "customer_phone"
     text := "Does the text reveal a customer's or principal's telephone number?"
     examples := ["call her at 831-555-0142", "his cell is (408) 555-0199"] },
   { field := "customer_email"
     text := "Does the text reveal a customer's or principal's email address?"
     examples := ["send it to dana@example.com"] },
   { field := "customer_address"
     text := "Does the text reveal a customer's or principal's street address?"
     examples := ["the unit is at 14 Ocean View Blvd", "meet at 220 Pine St, Apt 3"] },
   { field := "invoice_total"
     text := "Does the text state an invoice, quote, or price total?"
     examples := ["the total comes to $3,500", "invoice is 2,000 dollars"] },
   { field := "price_floor"
     text := "Does the text reveal the lowest price the principal would accept, " ++
       "or their budget ceiling?"
     examples := ["we can go as low as 2,800", "our budget tops out at 5k"] },
   { field := "internal_notes"
     text := "Does the text reveal internal notes, margins, or staff remarks " ++
       "not meant for the counterparty?"
     examples := ["our margin on this is 40%", "tech said the customer is difficult"] },
   { field := "work_order_id"
     text := "Does the text reveal an internal work-order, ticket, or job identifier?"
     examples := ["ref WO-88412", "ticket #4471"] }]

def hostilityOptions : Dict String String where
  entries :=
    [("benign", "Ordinary business content: facts, offers, questions, scheduling, courtesy."),
     ("instruction_like", "Tells the reader (a person or an agent) to do something outside the " ++
       "business at hand: change a limit, skip a step, forward data."),
     ("authority_claim", "Asserts the writer has permission, approval, or a mandate it does not " ++
       "evidence: 'you are authorized', 'the owner already agreed'."),
     ("injection", "Text aimed at an AI system rather than a person: 'ignore previous " ++
       "instructions', hidden directives, role-play framing.")]
  nodup := by decide

def persuasionOptions : Dict String String where
  entries :=
    [("factual", "States facts, terms, or questions; the reader can verify each claim."),
     ("persuasive",
       "Argues at the approver: urgency, flattery, pressure, 'trust me', 'just approve this'.")]
  nodup := by decide

def urgencyLevels : List String :=
  ["No time pressure expressed.", "Mild: a preference for a reply soon.",
   "Clear deadline or same-day need stated.",
   "Emergency: safety, outage, or immediate loss claimed."]

def defaultQuestionSet : QuestionSet where
  version := "0.1"
  fields := sensitiveFields
  hostilityOptions := hostilityOptions
  persuasionOptions := persuasionOptions
  urgencyLevels := urgencyLevels

/-- The fields asked about are disclosure tokens. -/
def QuestionSet.Fields (qs : QuestionSet) : Prop :=
  ∀ token ∈ qs.fieldTokens, matchesField token.toList

theorem defaultQuestionSet_fields : defaultQuestionSet.Fields := by
  unfold QuestionSet.Fields
  decide +kernel

variable [Platform]

def questionSetDigest (qs : QuestionSet) : String := canonicalSha256Hex qs.toJson

/-! ## Results and claims -/

/-- One screen's answers. -/
structure ScreenResult where
  screener : String
  ok : Bool
  fieldProbabilities : Dict String Binary64 := Dict.empty
  hostility : Binary64 := 0
  persuasion : Binary64 := 0
  urgency : ℤ := 0
  error : String := ""

/-- What the validators of content claims say to a screener. -/
def validateScreener [PyDecimal.CharForms] (v : String) : Except PyError String :=
  if PyDecimal.strip v.toList = [] then
    .error (.valueError "screener must name the pinned screener")
  else if "-latest".toList <:+ v.toList ∨ ":latest".toList <:+ v.toList ∨
      "jev-latest".toList <:+: v.toList then
    .error (.valueError s!"screener must be a pinned version, not a floating alias: {pyRepr v}")
  else .ok v

def validateBasisPoints (v : ℤ) : Except PyError BasisPoints :=
  if h : 0 ≤ v ∧ v ≤ bpScale then .ok ⟨v.toNat, by omega⟩
  else .error (.valueError s!"basis points must be within 0..{bpScale}: {v}")

/-- The first field that was listed before. -/
def listedTwice (seen : List String) : List String → Option String
  | [] => none
  | field :: fields =>
    if field ∈ seen then some field else listedTwice (field :: seen) fields

omit [Platform] in
theorem listedTwice_eq_none {seen fields : List String} :
    listedTwice seen fields = none ↔ fields.Nodup ∧ ∀ field ∈ fields, field ∉ seen := by
  induction fields generalizing seen with
  | nil => simp [listedTwice]
  | cons field fields ih =>
    unfold listedTwice
    split_ifs with hseen
    · simp [hseen]
    · rw [ih, List.nodup_cons, List.forall_mem_cons]
      simp only [List.mem_cons, not_or]
      constructor
      · rintro ⟨hn, hf⟩
        exact ⟨⟨fun hm => (hf _ hm).1 rfl, hn⟩, hseen, fun f hm => (hf f hm).2⟩
      · rintro ⟨⟨hm, hn⟩, -, hf⟩
        exact ⟨hn, fun f hfm => ⟨fun heq => hm (heq ▸ hfm), hf f hfm⟩⟩

variable [PyDecimal.CharForms]

/-- The constructor of content claims. -/
def ContentClaims.validate (screener questionSetSha256 : String) (contentChars : ℕ)
    (available : Bool) (detected : List DetectedField)
    (hostilityBp persuasionBp urgencyLevel : ℤ) : Except PyError ContentClaims := do
  let screener ← validateScreener screener
  let questionSetSha256 ← validateSha256Hex questionSetSha256
  match hd : listedTwice [] (detected.map DetectedField.field) with
  | some field => throw (.valueError s!"detected field listed twice: {pyRepr field}")
  | none =>
    let hostilityBp ← validateBasisPoints hostilityBp
    let persuasionBp ← validateBasisPoints persuasionBp
    if hu : 0 ≤ urgencyLevel ∧ urgencyLevel ≤ 3 then
      return {
        screener, questionSetSha256, contentChars, available, detected, hostilityBp, persuasionBp
        urgencyLevel := ⟨urgencyLevel.toNat, by omega⟩
        detectedUnique := (listedTwice_eq_none.1 hd).1 }
    else throw (.valueError s!"urgency_level must be within 0..3: {urgencyLevel}")

/-! ## Pinned screeners -/

omit [Platform] in
/-- A text that starts with something else than white space is not blank. -/
theorem strip_cons_ne_nil {c : Char} (hc : PyDecimal.isSpace c = false) (cs : List Char) :
    PyDecimal.strip (c :: cs) ≠ [] := by
  intro h
  rw [PyDecimal.strip, List.dropWhile_cons_of_neg (by simp [hc]), List.reverse_eq_nil_iff,
    List.dropWhile_eq_nil_iff] at h
  have hspace := h c (by simp)
  rw [hc] at hspace
  cases hspace

omit [Platform] [PyDecimal.CharForms] in
/-- A piece without the separating character stands on one side of it. -/
theorem infix_append_cons {piece front back : List Char} {c : Char} (hc : c ∉ piece)
    (h : piece <:+: front ++ c :: back) : piece <:+: front ∨ piece <:+: back := by
  obtain ⟨l, r, h⟩ := h
  rw [List.append_assoc] at h
  rcases List.append_eq_append_iff.1 h with ⟨as, rfl, hrest⟩ | ⟨bs, rfl, hrest⟩
  · -- it starts before the character, so it ends there
    rcases List.append_eq_append_iff.1 hrest with ⟨cs, rfl, -⟩ | ⟨cs, rfl, hcs⟩
    · exact .inl ⟨l, cs, by simp⟩
    · cases cs with
      | nil => exact .inl ⟨l, [], by simp⟩
      | cons x cs =>
        cases hcs
        exact absurd (by simp) hc
  · cases bs with
    | nil =>
      cases piece with
      | nil => exact .inl (List.nil_infix ..)
      | cons x piece =>
        cases hrest
        exact absurd (by simp) hc
    | cons x bs =>
      cases hrest
      exact .inr ⟨bs, r, by simp⟩

/-- The screener of a pinned model is one. -/
theorem validateScreener_pinned {model : String} (h : ¬ "latest".toList <:+: model.toList) :
    validateScreener ("typesafe:" ++ model) = .ok ("typesafe:" ++ model) := by
  have htext : ("typesafe:" ++ model).toList = "typesafe".toList ++ ':' :: model.toList := by
    rw [String.toList_append]
    rfl
  have hlatest : ¬ "latest".toList <:+: "typesafe".toList ++ ':' :: model.toList := by
    intro hin
    rcases infix_append_cons (by decide) hin with hin | hin
    · exact absurd hin (by decide)
    · exact h hin
  have hpart : ∀ form ∈ ["-latest", ":latest", "jev-latest"], "latest".toList <:+: form.toList := by
    decide
  unfold validateScreener
  have hblank : PyDecimal.strip ("typesafe".toList ++ ':' :: model.toList) ≠ [] :=
    strip_cons_ne_nil (c := 't') (by rfl) _
  rw [htext, if_neg hblank, if_neg]
  rintro (hs | hs | hs)
  · exact hlatest ((hpart _ (by simp)).trans hs.isInfix)
  · exact hlatest ((hpart _ (by simp)).trans hs.isInfix)
  · exact hlatest ((hpart _ (by simp)).trans hs)

/-! ## From answers to claims -/

variable [Binary64.Rounding]

def noIntegerError : Binary64.NoInteger → PyError
  | .infinity => .overflowError
  | .nan => .valueError "cannot convert float NaN to integer"

/-- `min(1.0, max(0.0, p))`. -/
def clampProbability (p : Binary64) : Binary64 :=
  let p := if Binary64.less 0 p then p else 0
  if Binary64.less p 1 then p else 1

/-- Clamp a probability and round it to basis points. -/
def toBasisPoints (p : Binary64) : Except PyError ℤ :=
  if p = .nan then .ok 0
  else ((clampProbability p).scale bpScale).round.mapError noIntegerError

/-- The fields that were asked about and are given a positive probability. -/
def detectedFields (known : List String) : List (String × Binary64) →
    Except PyError (List DetectedField)
  | [] => .ok []
  | (token, p) :: rest => do
    let bp ← toBasisPoints p
    if token ∈ known ∧ 0 < bp then
      let field ← DetectedField.validateField token
      let confidenceBp ← validateBasisPoints bp
      return { field, confidenceBp } :: (← detectedFields known rest)
    else detectedFields known rest

def sortedItems (probabilities : Dict String Binary64) : List (String × Binary64) :=
  probabilities.entries.insertionSort fun a b => a.1 ≤ b.1

def claimsFromResult (result : ScreenResult) (content : String) (questions : QuestionSet) :
    Except PyError ContentClaims := do
  let qsDigest := questionSetDigest questions
  if ¬ result.ok then
    ContentClaims.validate result.screener qsDigest content.length false [] 0 0 0
  else
    let detected ← detectedFields questions.fieldTokens (sortedItems result.fieldProbabilities)
    let hostility ← toBasisPoints result.hostility
    let persuasion ← toBasisPoints result.persuasion
    ContentClaims.validate result.screener qsDigest content.length true detected hostility
      persuasion (max 0 (min 3 result.urgency))

/-! ## The conversion raises nothing -/

omit [Platform] [PyDecimal.CharForms] [Binary64.Rounding] in
theorem clampProbability_mem (p : Binary64) :
    ∃ q : ℚ, clampProbability p = .finite q ∧ 0 ≤ q ∧ q ≤ 1 := by
  cases p with
  | nan => exact ⟨0, rfl, le_refl 0, zero_le_one⟩
  | infinite negative =>
    cases negative with
    | true => exact ⟨0, rfl, le_refl 0, zero_le_one⟩
    | false => exact ⟨1, rfl, zero_le_one, le_refl 1⟩
  | finite q =>
    have hpos : Binary64.less 0 (.finite q) = decide (0 < q) := rfl
    have hone : Binary64.less (.finite q) 1 = decide (q < 1) := rfl
    have hzero : Binary64.less 0 1 = true := rfl
    unfold clampProbability
    by_cases h0 : 0 < q
    · by_cases h1 : q < 1
      · exact ⟨q, by simp [hpos, hone, h0, h1], h0.le, h1.le⟩
      · exact ⟨1, by simp [hpos, hone, h0, h1]; rfl, zero_le_one, le_refl 1⟩
    · exact ⟨0, by simp [hpos, hzero, h0]; rfl, le_refl 0, zero_le_one⟩

omit [Platform] [PyDecimal.CharForms] in
theorem toBasisPoints_ok (p : Binary64) : ∃ bp : BasisPoints, toBasisPoints p = .ok bp.val := by
  unfold toBasisPoints
  split_ifs with hnan
  · exact ⟨0, rfl⟩
  · obtain ⟨q, hq, h0, h1⟩ := clampProbability_mem p
    obtain ⟨k, hk, hk0, hk1⟩ := Binary64.scale_round (n := bpScale) h0 h1 (by decide)
    refine ⟨⟨k.toNat, by omega⟩, ?_⟩
    rw [hq, hk]
    simp [Except.mapError, hk0]

omit [PyDecimal.CharForms] [Binary64.Rounding] [Platform] in
@[simp] theorem validateBasisPoints_val (bp : BasisPoints) :
    validateBasisPoints (bp.val : ℤ) = .ok bp := by
  have hle : (bp.val : ℤ) ≤ bpScale := by have := bp.isLt; omega
  rw [validateBasisPoints, dif_pos ⟨Int.natCast_nonneg _, hle⟩]
  rfl

omit [PyDecimal.CharForms] in
theorem detectedFields_ok {known : List String} (hknown : ∀ t ∈ known, matchesField t.toList)
    (items : List (String × Binary64)) :
    ∃ detected, detectedFields known items = .ok detected ∧
      (detected.map DetectedField.field).Sublist (items.map Prod.fst) ∧
      ∀ d, d ∈ detected ↔ d.field ∈ known ∧ 0 < d.confidenceBp.val ∧
        ∃ p, (d.field, p) ∈ items ∧ toBasisPoints p = .ok d.confidenceBp.val := by
  induction items with
  | nil => exact ⟨[], rfl, List.Sublist.refl _, by simp⟩
  | cons item items ih =>
    obtain ⟨token, p⟩ := item
    obtain ⟨detected, hrest, hsub, hmem⟩ := ih
    obtain ⟨bp, hbp⟩ := toBasisPoints_ok p
    -- what the first item adds to the fields
    have hitem : ∀ d : DetectedField,
        (∃ p', (d.field, p') ∈ (token, p) :: items ∧ toBasisPoints p' = .ok d.confidenceBp.val) ↔
          d = ⟨token, bp⟩ ∨
          ∃ p', (d.field, p') ∈ items ∧ toBasisPoints p' = .ok d.confidenceBp.val := by
      intro d
      constructor
      · rintro ⟨p', hp', hd⟩
        rcases List.mem_cons.1 hp' with heq | hp'
        · obtain ⟨hfield, rfl⟩ := Prod.mk.inj heq
          have hval : bp = d.confidenceBp := by
            rw [hbp] at hd
            exact Fin.ext (Int.natCast_inj.1 (Except.ok.inj hd))
          exact .inl (by rw [hval, ← hfield])
        · exact .inr ⟨p', hp', hd⟩
      · rintro (rfl | ⟨p', hp', hd⟩)
        · exact ⟨p, List.mem_cons_self .., hbp⟩
        · exact ⟨p', List.mem_cons_of_mem _ hp', hd⟩
    by_cases hin : token ∈ known ∧ 0 < (bp.val : ℤ)
    · refine ⟨⟨token, bp⟩ :: detected, ?_, hsub.cons_cons _, ?_⟩
      · have hfield : DetectedField.validateField token = .ok token := if_pos (hknown _ hin.1)
        simp only [detectedFields, hbp, hin, hfield, validateBasisPoints_val, hrest, bind,
          Except.bind, pure, Except.pure, and_self, if_true]
      · intro d
        rw [List.mem_cons, hmem, hitem]
        constructor
        · rintro (rfl | ⟨hk, hpos, hp⟩)
          · exact ⟨hin.1, Int.natCast_pos.1 hin.2, .inl rfl⟩
          · exact ⟨hk, hpos, .inr hp⟩
        · rintro ⟨hk, hpos, rfl | hp⟩
          · exact .inl rfl
          · exact .inr ⟨hk, hpos, hp⟩
    · refine ⟨detected, ?_, hsub.cons _, ?_⟩
      · simp only [detectedFields, hbp, hin, hrest, bind, Except.bind, if_false]
      · intro d
        rw [hmem, hitem]
        constructor
        · rintro ⟨hk, hpos, hp⟩
          exact ⟨hk, hpos, .inr hp⟩
        · rintro ⟨hk, hpos, rfl | hp⟩
          · exact absurd ⟨hk, Int.natCast_pos.2 hpos⟩ hin
          · exact ⟨hk, hpos, hp⟩

omit [Platform] [PyDecimal.CharForms] [Binary64.Rounding] in
theorem mem_sortedItems {probabilities : Dict String Binary64} {item : String × Binary64} :
    item ∈ sortedItems probabilities ↔ probabilities.get? item.1 = some item.2 := by
  rw [sortedItems, List.mem_insertionSort]
  exact ⟨Dict.getEntries_of_mem _ probabilities.nodup, Dict.mem_of_getEntries _⟩

omit [Binary64.Rounding] in
theorem ContentClaims.validate_ok {screener sha : String}
    (hscreener : validateScreener screener = .ok screener)
    (hsha : matchesSha256 sha.toList) {detected : List DetectedField}
    (hn : (detected.map DetectedField.field).Nodup) (chars : ℕ) (available : Bool)
    (hostility persuasion : BasisPoints) (urgency : Fin 4) :
    ContentClaims.validate screener sha chars available detected hostility.val persuasion.val
        urgency.val =
      .ok ⟨screener, sha, chars, available, detected, hostility, persuasion, urgency, hn⟩ := by
  have hd : listedTwice [] (detected.map DetectedField.field) = none :=
    listedTwice_eq_none.2 ⟨hn, by simp⟩
  have hs : validateSha256Hex sha = .ok sha := if_pos hsha
  have hu : 0 ≤ (urgency.val : ℤ) ∧ (urgency.val : ℤ) ≤ 3 := by omega
  unfold ContentClaims.validate
  simp only [hscreener, hs, bind, Except.bind]
  split
  · rename_i field hfield
    rw [hd] at hfield
    cases hfield
  · simp only [validateBasisPoints_val, hu, and_self, dite_true, pure, Except.pure]
    rfl

/-- The claims about a content, from a result: nothing of what was asked is
    left out and nothing is added. -/
structure ClaimsOf (result : ScreenResult) (content : String) (questions : QuestionSet)
    (claims : ContentClaims) : Prop where
  screener : claims.screener = result.screener
  digest : claims.questionSetSha256 = questionSetDigest questions
  chars : claims.contentChars = content.length
  available : claims.available = result.ok
  detected : result.ok = true → ∀ d, d ∈ claims.detected ↔
    d.field ∈ questions.fieldTokens ∧ 0 < d.confidenceBp.val ∧
      ∃ p, result.fieldProbabilities.get? d.field = some p ∧
        toBasisPoints p = .ok d.confidenceBp.val
  hostility : result.ok = true → toBasisPoints result.hostility = .ok claims.hostilityBp.val

theorem claimsFromResult_ok {result : ScreenResult} {questions : QuestionSet}
    (hscreener : validateScreener result.screener = .ok result.screener)
    (hquestions : questions.Fields) (hdigest : matchesSha256 (questionSetDigest questions).toList)
    (content : String) :
    ∃ claims, claimsFromResult result content questions = .ok claims ∧
      ClaimsOf result content questions claims := by
  cases hok : result.ok with
  | false =>
    refine ⟨⟨result.screener, questionSetDigest questions, content.length, false, [], 0, 0, 0,
      nothingDetected_nodup⟩, ?_, rfl, rfl, rfl, hok.symm, ?_, ?_⟩
    · rw [claimsFromResult, if_pos (by simp [hok])]
      exact ContentClaims.validate_ok hscreener hdigest nothingDetected_nodup _ _ 0 0 0
    · intro h
      rw [hok] at h
      cases h
    · intro h
      rw [hok] at h
      cases h
  | true =>
    obtain ⟨detected, hdetected, hsub, hmem⟩ :=
      detectedFields_ok hquestions (sortedItems result.fieldProbabilities)
    obtain ⟨hostility, hhostility⟩ := toBasisPoints_ok result.hostility
    obtain ⟨persuasion, hpersuasion⟩ := toBasisPoints_ok result.persuasion
    have hn : (detected.map DetectedField.field).Nodup := by
      refine hsub.nodup (((List.perm_insertionSort _ _).map Prod.fst).nodup_iff.2 ?_)
      exact result.fieldProbabilities.nodup
    obtain ⟨urgency, hurgency⟩ : ∃ u : Fin 4, max 0 (min 3 result.urgency) = u.val :=
      ⟨⟨(max 0 (min 3 result.urgency)).toNat, by omega⟩, by simp⟩
    refine ⟨⟨result.screener, questionSetDigest questions, content.length, true, detected,
      hostility, persuasion, urgency, hn⟩, ?_, rfl, rfl, rfl, hok.symm, ?_, fun _ => hhostility⟩
    · rw [claimsFromResult, if_neg (by simp [hok])]
      simp only [hdetected, hhostility, hpersuasion, hurgency, bind, Except.bind]
      exact ContentClaims.validate_ok hscreener hdigest hn _ _ hostility persuasion urgency
    · intro _ d
      simp only [hmem, mem_sortedItems]

end Mandate
