/-
  Timestamps normalise by instant.

  The validator accepts the spelled date-times whose parts are in range, and
  returns the instant, cut to microseconds, written in UTC.  Only an instant
  outside years 1 to 9999 escapes it, as an `OverflowError`
  (`normalises_iff`).
-/
import Mathlib.Data.List.TakeWhile
import Mandate.Domain.Validation
import Mandate.Lib.Rfc3339

namespace Mandate

open Datetime

/-! ## The pattern -/

/-- Each character fits its place in the pattern. -/
theorem fitsAll_iff {digit : Char → Bool} {pattern : String} {cs : List Char} :
    fitsAll digit pattern cs = true ↔
      List.Forall₂ (fun p c => fits digit p c = true) pattern.toList cs := by
  rw [fitsAll, Bool.and_eq_true, decide_eq_true_eq, ← String.length_toList, List.forall₂_iff_zip]
  refine and_congr_right fun _ => ?_
  rw [List.all_eq_true, ← List.map_uncurry_zip_eq_zipWith]
  simp only [List.mem_map, Prod.exists, Function.uncurry_apply_pair]
  constructor
  · intro h a b hab
    exact h _ ⟨a, b, hab, rfl⟩
  · rintro h _ ⟨a, b, hab, rfl⟩
    exact h hab

/-- Two digits as a string of digits. -/
def twoDigits (a b : Char) (ha : a.isDigit = true) (hb : b.isDigit = true) : DigitString 2 :=
  ⟨[a, b], rfl, by simp [ha, hb]⟩

theorem matchesZone_plain {cs : List Char} :
    (cs = ['Z'] || cs = ['z'] || fitsAll Char.isDigit "+dd:dd" cs) = true ↔
      ∃ z : Zone, z.text = cs := by
  constructor
  · intro h
    simp only [Bool.or_eq_true, decide_eq_true_eq] at h
    rcases h with (rfl | rfl) | h
    · exact ⟨.utc 'Z' (.inl rfl), rfl⟩
    · exact ⟨.utc 'z' (.inr rfl), rfl⟩
    · simp [fitsAll_iff, List.forall₂_cons_left_iff, fits] at h
      rcases h with ⟨a, b, c, d, ⟨ha, hb, hc, hd⟩, rfl⟩ | ⟨a, b, c, d, ⟨ha, hb, hc, hd⟩, rfl⟩
      · exact ⟨.offset false (twoDigits a b ha hb) (twoDigits c d hc hd), rfl⟩
      · exact ⟨.offset true (twoDigits a b ha hb) (twoDigits c d hc hd), rfl⟩
  · rintro ⟨z, rfl⟩
    cases z with
    | utc z h => rcases h with rfl | rfl <;> rfl
    | offset negative hours minutes =>
      have hh := hours.2.2
      have hm := minutes.2.2
      obtain ⟨a, b, hab⟩ := hours.eq_two
      obtain ⟨c, d, hcd⟩ := minutes.eq_two
      rw [hab] at hh
      rw [hcd] at hm
      simp only [List.mem_cons, List.not_mem_nil, or_false, forall_eq_or_imp, forall_eq] at hh hm
      have hlen : "+dd:dd".length = 6 := by decide
      rw [Zone.text, hab, hcd]
      cases negative <;> simp [fitsAll, fits, Zone.sign, hh, hm, hlen]

/-- What may follow the seconds: a fraction and an offset. -/
theorem matchesZone_iff {cs : List Char} : matchesZone Char.isDigit cs = true ↔
    ∃ (fraction : List Char) (z : Zone), (∀ c ∈ fraction, c.isDigit = true) ∧
      (if fraction = [] then [] else '.' :: fraction) ++ z.text = cs := by
  constructor
  · intro h
    unfold matchesZone at h
    dsimp only at h
    rw [matchesZone_plain] at h
    obtain ⟨z, hz⟩ := h
    split at hz
    · rename_i c cs
      split_ifs at hz with hc
      · refine ⟨c :: cs.takeWhile Char.isDigit, z, ?_, ?_⟩
        · exact List.forall_mem_cons.2 ⟨hc, fun d hd => List.mem_takeWhile_imp hd⟩
        · rw [if_neg (List.cons_ne_nil _ _), hz, List.cons_append, List.cons_append,
            List.takeWhile_append_dropWhile]
      · exact ⟨[], z, by simp, by simp [hz]⟩
    · exact ⟨[], z, by simp, by simp [hz]⟩
  · rintro ⟨fraction, z, hfraction, rfl⟩
    obtain ⟨c, cs, hz, hdot, hdigit⟩ := z.head_text
    have hzone := matchesZone_plain.2 ⟨z, rfl⟩
    cases fraction with
    | nil =>
      rw [if_pos rfl, List.nil_append]
      rw [hz] at hzone ⊢
      unfold matchesZone
      dsimp only
      split
      · rename_i heq
        exact absurd (List.cons.inj heq).1 hdot
      · exact hzone
    | cons d ds =>
      have hdrop : (ds ++ z.text).dropWhile Char.isDigit = z.text := by
        rw [List.dropWhile_append_of_pos fun c hc => hfraction c (List.mem_cons_of_mem _ hc), hz]
        exact List.dropWhile_cons_of_neg (by simp [hdigit])
      have hd := hfraction d (by simp)
      rw [if_neg (List.cons_ne_nil _ _)]
      simp only [List.cons_append, matchesZone, hd, ↓reduceIte, hdrop]
      exact hzone

/-- With ASCII digits the pattern matches what spells a date-time, in range or
    not. -/
theorem matchesDateTime_iff {cs : List Char} :
    matchesDateTime Char.isDigit cs = true ↔ ∃ p : Rfc3339, p.text = cs := by
  have hpattern : "dddd-dd-ddTdd:dd:dd".length = 19 := by decide
  rw [matchesDateTime, Bool.and_eq_true, matchesZone_iff]
  constructor
  · rintro ⟨h, fraction, z, hfraction, hzone⟩
    have hcs := List.take_append_drop 19 cs
    generalize cs.take 19 = clock at h hcs
    simp [fitsAll_iff, List.forall₂_cons_left_iff, fits] at h
    obtain ⟨y₁, hy₁, y₂, y₃, y₄, m₁, m₂, d₁, d₂, x,
      ⟨hy₂, hy₃, hy₄, hm₁, hm₂, hd₁, hd₂, hx⟩, rfl⟩ := h
    obtain ⟨t, ht, h₁, h₂, i₁, i₂, s₁, s₂, ⟨hh₁, hh₂, hi₁, hi₂, hs₁, hs₂⟩, rfl⟩ :
        ∃ t, (t = 'T' ∨ t = ' ') ∧ ∃ h₁ h₂ i₁ i₂ s₁ s₂ : Char,
          (h₁.isDigit = true ∧ h₂.isDigit = true ∧ i₁.isDigit = true ∧ i₂.isDigit = true ∧
            s₁.isDigit = true ∧ s₂.isDigit = true) ∧
          x = [t, h₁, h₂, ':', i₁, i₂, ':', s₁, s₂] := by
      rcases hx with hx | hx
      · exact ⟨'T', .inl rfl, hx⟩
      · exact ⟨' ', .inr rfl, hx⟩
    refine ⟨⟨⟨[y₁, y₂, y₃, y₄], rfl, by simp [hy₁, hy₂, hy₃, hy₄]⟩, twoDigits m₁ m₂ hm₁ hm₂,
      twoDigits d₁ d₂ hd₁ hd₂, t, twoDigits h₁ h₂ hh₁ hh₂, twoDigits i₁ i₂ hi₁ hi₂,
      twoDigits s₁ s₂ hs₁ hs₂, fraction, z, ht, hfraction⟩, ?_⟩
    rw [← hcs, ← hzone]
    rfl
  · rintro ⟨p, rfl⟩
    have hy := p.year.2.2
    have hm := p.month.2.2
    have hd := p.dayOfMonth.2.2
    have hh := p.hour.2.2
    have hi := p.minute.2.2
    have hs := p.seconds.2.2
    obtain ⟨y₁, y₂, y₃, y₄, hyear⟩ := p.year.eq_four
    obtain ⟨m₁, m₂, hmonth⟩ := p.month.eq_two
    obtain ⟨d₁, d₂, hday⟩ := p.dayOfMonth.eq_two
    obtain ⟨h₁, h₂, hhour⟩ := p.hour.eq_two
    obtain ⟨i₁, i₂, hminute⟩ := p.minute.eq_two
    obtain ⟨s₁, s₂, hseconds⟩ := p.seconds.eq_two
    rw [hyear] at hy
    rw [hmonth] at hm
    rw [hday] at hd
    rw [hhour] at hh
    rw [hminute] at hi
    rw [hseconds] at hs
    simp only [List.mem_cons, List.not_mem_nil, or_false, forall_eq_or_imp, forall_eq]
      at hy hm hd hh hi hs
    rw [Rfc3339.text, Rfc3339.clockText, hyear, hmonth, hday, hhour, hminute, hseconds]
    refine ⟨?_, p.fraction, p.zone, p.fraction_isDigit, rfl⟩
    have hsep := p.separator_eq
    simp [fitsAll, fits, hpattern, hy, hm, hd, hh, hi, hs, hsep]

/-! ## Writing the offset out -/

/-- What the replacements make of a text. -/
def spelledOut (cs : List Char) : List Char :=
  (cs.map fun c => if c = 'z' then 'Z' else c).flatMap fun c =>
    if c = 'Z' then "+00:00".toList else [c]

theorem spelledOut_append (cs ds : List Char) :
    spelledOut (cs ++ ds) = spelledOut cs ++ spelledOut ds := by
  rw [spelledOut, List.map_append, List.flatMap_append]
  rfl

theorem spelledOut_eq {cs : List Char} (h : ∀ c ∈ cs, c ≠ 'Z' ∧ c ≠ 'z') : spelledOut cs = cs := by
  induction cs with
  | nil => rfl
  | cons c cs ih =>
    obtain ⟨hZ, hz⟩ := h c (by simp)
    have hcs := ih fun d hd => h d (List.mem_cons_of_mem _ hd)
    rw [spelledOut] at hcs ⊢
    rw [List.map_cons, List.flatMap_cons, hcs, if_neg hz, if_neg hZ]
    rfl

theorem digit_ne_zulu {c : Char} (h : c.isDigit = true) : c ≠ 'Z' ∧ c ≠ 'z' := by
  constructor <;> rintro rfl <;> exact absurd h (by decide)

theorem spelledOut_zone (z : Zone) : spelledOut z.text = z.plain := by
  cases z with
  | utc z h => rcases h with rfl | rfl <;> rfl
  | offset negative hours minutes =>
    refine spelledOut_eq fun c hc => ?_
    rcases List.mem_cons.1 hc with rfl | hc
    · cases negative <;> decide
    · rcases List.mem_append.1 hc with hc | hc
      · exact digit_ne_zulu (hours.2.2 c hc)
      · rcases List.mem_cons.1 hc with rfl | hc
        · decide
        · exact digit_ne_zulu (minutes.2.2 c hc)

theorem replaceZ_map (cs : List Char) :
    replaceZ (String.ofList (cs.map fun c => if c = 'z' then 'Z' else c)) =
      String.ofList (spelledOut cs) := by
  have hlist : (String.ofList (cs.map fun c => if c = 'z' then 'Z' else c)).toList =
      cs.map fun c => if c = 'z' then 'Z' else c := String.toList_ofList
  rw [replaceZ, hlist, spelledOut]

/-- The date-time that is read is the one that is spelled. -/
theorem replaceZ_text (p : Rfc3339) :
    replaceZ (String.ofList (p.text.map fun c => if c = 'z' then 'Z' else c)) =
      String.ofList p.plain := by
  have hfront := spelledOut_eq (p.forall_front (fun _ => digit_ne_zulu) (by simp))
  rw [replaceZ_map, p.text_eq, spelledOut_append, hfront, spelledOut_zone, p.plain_eq]

/-! ## What is matched and read -/

/-- A spelled date-time is one line of ASCII. -/
theorem ascii_text (p : Rfc3339) : ∀ c ∈ p.text, c.toNat < 128 ∧ c ≠ '\n' := by
  rw [p.text_eq, List.forall_mem_append]
  exact ⟨p.forall_front (fun _ => ascii_of_isDigit) (by simp),
    p.zone.forall_text (fun _ => ascii_of_isDigit) (by simp)⟩

theorem ascii_of_isoChar {c : Char} (h : IsoChar c) : c.toNat < 128 ∧ c ≠ '\n' := by
  have hmarks : ∀ c ∈ ['-', ':', '.', ',', '+', 'W', 'Z'], c.toNat < 128 ∧ c ≠ '\n' := by simp
  exact h.elim ascii_of_isDigit (hmarks c)

theorem mem_spelledOut {cs : List Char} {c : Char} (h : c ∈ cs) (hc : c ≠ 'Z' ∧ c ≠ 'z') :
    c ∈ spelledOut cs := by
  refine List.mem_flatMap.2 ⟨c, List.mem_map.2 ⟨c, h, if_neg hc.2⟩, ?_⟩
  rw [if_neg hc.1]
  exact List.mem_singleton.2 rfl

section
variable [Platform]

theorem matchesRfc3339_text (p : Rfc3339) : matchesRfc3339 p.text = true := by
  rw [matchesRfc3339_ascii (ascii_text p)]
  exact matchesDateTime_iff.2 ⟨p, rfl⟩

theorem isDecimal_ne {c : Char} (h : isDecimal c = true) :
    c ≠ 'W' ∧ c ≠ 'Z' ∧ c ≠ 'z' := by
  refine ⟨?_, ?_, ?_⟩ <;> rintro rfl <;> simp [isDecimal] at h

/-- What is matched starts with a date in decimal digits and a separator. -/
theorem matchesRfc3339_date {cs : List Char} (h : matchesRfc3339 cs = true) :
    ∃ y₁ y₂ y₃ y₄ m₁ m₂ d₁ d₂ t rest,
      cs = y₁ :: y₂ :: y₃ :: y₄ :: '-' :: m₁ :: m₂ :: '-' :: d₁ :: d₂ :: t :: rest ∧
        (∀ c ∈ [y₁, y₂, y₃, y₄, m₁, m₂, d₁, d₂], isDecimal c = true) ∧ (t = 'T' ∨ t = ' ') := by
  obtain ⟨body, ending, rfl, hbody⟩ : ∃ body ending, body ++ ending = cs ∧
      fitsAll isDecimal "dddd-dd-ddTdd:dd:dd" (body.take 19) = true := by
    simp only [matchesRfc3339, matchesDateTime, Bool.and_eq_true] at h
    split_ifs at h with hlast
    · exact ⟨cs.dropLast, ['\n'], List.dropLast_append_getLast? _ hlast, h.1⟩
    · exact ⟨cs, [], List.append_nil cs, h.1⟩
  have htake := List.take_append_drop 19 body
  generalize body.take 19 = front at hbody htake
  simp [fitsAll_iff, List.forall₂_cons_left_iff, fits] at hbody
  obtain ⟨y₁, hy₁, y₂, y₃, y₄, m₁, m₂, d₁, d₂, x, ⟨hy₂, hy₃, hy₄, hm₁, hm₂, hd₁, hd₂, hx⟩, rfl⟩ :=
    hbody
  have hdate : ∀ c ∈ [y₁, y₂, y₃, y₄, m₁, m₂, d₁, d₂], isDecimal c = true := by
    simp [hy₁, hy₂, hy₃, hy₄, hm₁, hm₂, hd₁, hd₂]
  rw [← htake]
  rcases hx with ⟨_, _, _, _, _, _, -, rfl⟩ | ⟨_, _, _, _, _, _, -, rfl⟩
  · exact ⟨y₁, y₂, y₃, y₄, m₁, m₂, d₁, d₂, 'T', _, rfl, hdate, .inl rfl⟩
  · exact ⟨y₁, y₂, y₃, y₄, m₁, m₂, d₁, d₂, ' ', _, rfl, hdate, .inr rfl⟩

/-- What is matched and read is one line of ASCII: the reader takes no other
    digits than ASCII ones, and no final newline. -/
theorem ascii_of_read {v : String} {dt : Datetime} (hm : matchesRfc3339 v.toList = true)
    (h : fromisoformat (replaceZ (String.ofList (v.toList.map fun c => if c = 'z' then 'Z' else c)))
      = some dt) : ∀ c ∈ v.toList, c.toNat < 128 ∧ c ≠ '\n' := by
  obtain ⟨y₁, y₂, y₃, y₄, m₁, m₂, d₁, d₂, t, rest, hv, hdate, ht⟩ := matchesRfc3339_date hm
  have hne : t ≠ 'Z' ∧ t ≠ 'z' := by rcases ht with rfl | rfl <;> decide
  have hfront : spelledOut [y₁, y₂, y₃, y₄, '-', m₁, m₂, '-', d₁, d₂, t] =
      [y₁, y₂, y₃, y₄, '-', m₁, m₂, '-', d₁, d₂, t] := by
    refine spelledOut_eq ?_
    simp only [List.forall_mem_cons] at hdate ⊢
    obtain ⟨h₁, h₂, h₃, h₄, h₅, h₆, h₇, h₈, -⟩ := hdate
    exact ⟨(isDecimal_ne h₁).2, (isDecimal_ne h₂).2, (isDecimal_ne h₃).2, (isDecimal_ne h₄).2,
      by decide, (isDecimal_ne h₅).2, (isDecimal_ne h₆).2, by decide, (isDecimal_ne h₇).2,
      (isDecimal_ne h₈).2, hne, by simp⟩
  have hspelled : spelledOut v.toList =
      y₁ :: y₂ :: y₃ :: y₄ :: '-' :: m₁ :: m₂ :: '-' :: d₁ :: d₂ :: t :: spelledOut rest := by
    rw [hv]
    exact (spelledOut_append [y₁, y₂, y₃, y₄, '-', m₁, m₂, '-', d₁, d₂, t] rest).trans
      (congrArg (· ++ spelledOut rest) hfront)
  rw [replaceZ_map, hspelled] at h
  have hW := (isDecimal_ne (hdate m₁ (by simp))).1
  obtain ⟨hread, hrest⟩ := isoChar_of_fromisoformat hW h
  rw [hv]
  simp only [List.forall_mem_cons] at hread ⊢
  obtain ⟨h₁, h₂, h₃, h₄, h₅, h₆, h₇, h₈, -⟩ := hread
  refine ⟨ascii_of_isoChar h₁, ascii_of_isoChar h₂, ascii_of_isoChar h₃, ascii_of_isoChar h₄,
    by decide, ascii_of_isoChar h₅, ascii_of_isoChar h₆, by decide, ascii_of_isoChar h₇,
    ascii_of_isoChar h₈, by rcases ht with rfl | rfl <;> decide, fun c hc => ?_⟩
  by_cases hZ : c ≠ 'Z' ∧ c ≠ 'z'
  · exact ascii_of_isoChar (hrest c (mem_spelledOut hc hZ))
  · rw [not_and_or, not_not, not_not] at hZ
    rcases hZ with rfl | rfl <;> decide

/-! ## The validator -/

/-- A spelled date-time whose instant has a date in UTC is returned as that
    instant. -/
theorem validateRfc3339_denotes {v : String} {x : ℚ} (h : Denotes v x) :
    validateRfc3339 v = match isoformatUtc ⌊x⌋ with
      | none => .error .overflowError
      | some s => .ok (String.ofList (s.toList.take (s.length - 6) ++ ['Z'])) := by
  obtain ⟨p, hp, hx⟩ := h
  have hread := p.read_plain
  rw [hx, Option.map_some] at hread
  obtain ⟨dt, hdt, hi⟩ := Option.bind_eq_some_iff.1 hread
  rw [validateRfc3339, if_pos (hp ▸ matchesRfc3339_text p), ← hp, replaceZ_text]
  cases hs : isoformatUtc ⌊x⌋ with
  | none => simp only [hdt, hi, hs]
  | some s => simp only [hdt, hi, hs]

/-- Every other text raises `ValueError`. -/
theorem validateRfc3339_rejects {v : String} (h : ∀ x, ¬ Denotes v x) :
    ∃ m, validateRfc3339 v = .error (.valueError m) := by
  rw [validateRfc3339]
  split_ifs with hm
  · cases hdt : fromisoformat
        (replaceZ (String.ofList (v.toList.map fun c => if c = 'z' then 'Z' else c))) with
    | none =>
      simp only [hdt]
      exact ⟨_, rfl⟩
    | some dt =>
      rw [matchesRfc3339_ascii (ascii_of_read hm hdt), matchesDateTime_iff] at hm
      obtain ⟨p, hp⟩ := hm
      have hread := p.read_plain
      have hnone : p.instant? = none := by
        cases hx : p.instant? with
        | none => rfl
        | some x => exact absurd ⟨p, hp, hx⟩ (h x)
      rw [hnone, Option.map_none, ← replaceZ_text, hp, hdt, Option.bind_some] at hread
      simp only [hdt, hread]
      exact ⟨_, rfl⟩
  · exact ⟨_, rfl⟩

/-- Validation raises `ValueError`, or returns a text that denotes the instant of
    its argument, cut to microseconds. -/
def Normalises (v : String) : Prop :=
  (∃ m, validateRfc3339 v = .error (.valueError m)) ∨
    ∃ t x, validateRfc3339 v = .ok t ∧ Denotes v x ∧ Denotes t ⌊x⌋

/-- A text normalises exactly when the instant it denotes, if any, falls in
    years 1 to 9999 in UTC; validation is idempotent on its results, and texts
    of one instant, cut to microseconds, have one result. -/
theorem normalises_iff (v : String) :
    (Normalises v ↔ ∀ x, Denotes v x → InRange ⌊x⌋) ∧
      (∀ t, validateRfc3339 v = .ok t → validateRfc3339 t = .ok t) ∧
      ∀ w t u x y, validateRfc3339 v = .ok t → validateRfc3339 w = .ok u → Denotes v x →
        Denotes w y → ⌊x⌋ = ⌊y⌋ → t = u := by
  refine ⟨⟨fun h x hx => ?_, fun h => ?_⟩, fun t => validateRfc3339_idem,
    fun w t u x y hv hw hx hy hxy => ?_⟩
  · have hval := validateRfc3339_denotes hx
    by_contra hrange
    rw [isoformatUtc, if_neg hrange] at hval
    rcases h with ⟨m, hm⟩ | ⟨t, y, ht, -⟩
    · rw [hval] at hm
      cases hm
    · rw [hval] at ht
      cases ht
  · by_cases hx : ∃ x, Denotes v x
    · obtain ⟨x, hx⟩ := hx
      obtain ⟨s, hs⟩ : ∃ s, isoformatUtc ⌊x⌋ = some s := by
        rw [isoformatUtc, if_pos (h x hx)]
        exact ⟨_, rfl⟩
      have hval := validateRfc3339_denotes hx
      rw [hs] at hval
      exact .inr ⟨_, x, hval, hx, denotes_printed hs⟩
    · exact .inl (validateRfc3339_rejects fun x hd => hx ⟨x, hd⟩)
  · rw [validateRfc3339_denotes hx] at hv
    rw [validateRfc3339_denotes hy, ← hxy, hv] at hw
    exact Except.ok.inj hw

end

section
attribute [local instance] Sample.platform

/-- The first hour of year 1, an hour ahead of UTC, raises an `OverflowError`. -/
theorem first_hour_overflows :
    validateRfc3339 "0001-01-01T00:00:00+01:00" = .error .overflowError ∧
      ¬ Normalises "0001-01-01T00:00:00+01:00" := by
  have h : validateRfc3339 "0001-01-01T00:00:00+01:00" = .error .overflowError := by decide
  refine ⟨h, ?_⟩
  rintro (⟨m, hm⟩ | ⟨t, x, ht, -⟩)
  · rw [h] at hm
    cases hm
  · rw [h] at ht
    cases ht

end

end Mandate
