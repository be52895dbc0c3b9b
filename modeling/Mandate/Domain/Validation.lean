/-
  The field validators the models share: identifiers, timestamps, amounts.

  What a timestamp is validated to is its normal form (`validateRfc3339_idem`).
-/
import Mandate.Platform
import Mandate.Lib.Isoformat
import Mandate.Domain.Deals

namespace Mandate

variable [Platform]

/-- Crockford base32, in upper case. -/
def crockford : List Char := "0123456789ABCDEFGHJKMNPQRSTVWXYZ".toList

/-- A character of `ULID_RE`.  The pattern ignores case, so the long s and the
    Kelvin sign fold into it. -/
def isUlidChar (c : Char) : Bool :=
  c.toUpper ∈ crockford || c = Char.ofNat 0x17f || c = Char.ofNat 0x212a

/-- `ULID_RE`; its `$` also matches before a final newline. -/
def matchesUlid (cs : List Char) : Bool :=
  let body := if cs.getLast? = some '\n' then cs.dropLast else cs
  body.length = 26 && body.all isUlidChar

def validateUlid (v : String) : Except PyError String :=
  if matchesUlid v.toList then .ok v
  else .error (.valueError s!"not a valid ULID (26-char Crockford base32): {pyRepr v}")

/-- `\d` of a pattern: a decimal digit of any script. -/
def isDecimal (c : Char) : Bool := c.isDigit || (127 < c.toNat && Platform.isDecimal c)

section
variable (digit : Char → Bool)

/-- One character of a pattern: `d` a digit, `T` the separator, `+` a sign. -/
def fits (p c : Char) : Bool :=
  if p = 'd' then digit c
  else if p = 'T' then c = 'T' || c = ' '
  else if p = '+' then c = '+' || c = '-'
  else c = p

def fitsAll (pattern : String) (cs : List Char) : Bool :=
  pattern.length = cs.length && (pattern.toList.zipWith (fits digit) cs).all id

/-- What follows the seconds: an optional fraction and the offset. -/
def matchesZone (cs : List Char) : Bool :=
  let rest := match cs with
    | '.' :: c :: cs => if digit c then cs.dropWhile digit else '.' :: c :: cs
    | cs => cs
  rest = ['Z'] || rest = ['z'] || fitsAll digit "+dd:dd" rest

def matchesDateTime (cs : List Char) : Bool :=
  fitsAll digit "dddd-dd-ddTdd:dd:dd" (cs.take 19) && matchesZone digit (cs.drop 19)

end

/-- `_RFC3339_RE`; its `$` also matches before a final newline. -/
def matchesRfc3339 (cs : List Char) : Bool :=
  let body := if cs.getLast? = some '\n' then cs.dropLast else cs
  matchesDateTime isDecimal body

/-- `v.replace("Z", "+00:00")`. -/
def replaceZ (v : String) : String :=
  String.ofList (v.toList.flatMap fun c => if c = 'Z' then "+00:00".toList else [c])

/-- Check a timestamp and write it in UTC with a final `Z`. -/
def validateRfc3339 (v : String) : Except PyError String :=
  if matchesRfc3339 v.toList then
    let spelled := replaceZ (String.ofList (v.toList.map fun c => if c = 'z' then 'Z' else c))
    match Datetime.fromisoformat spelled with
    | none => .error (.valueError s!"Invalid isoformat string: {pyRepr spelled}")
    | some dt =>
      match dt.instant? with
      | none => .error (.valueError s!"timestamp must carry a UTC offset: {pyRepr v}")
      | some i =>
        match Datetime.isoformatUtc i with
        | none => .error .overflowError
        | some s => .ok (String.ofList (s.toList.take (s.length - 6) ++ ['Z']))
  else .error (.valueError s!"not a valid RFC3339 timestamp: {pyRepr v}")

/-- A checked timestamp field. -/
def timestampField (v : String) : Except PyError Timestamp := do
  match Timestamp.ofText? (← validateRfc3339 v) with
  | some t => return t
  | none => throw (.valueError s!"not a valid RFC3339 timestamp: {pyRepr v}")

/-- Money is non-negative; no amount is fine. -/
def validateAmountMinor (v : Option ℤ) : Except PyError (Option ℕ) :=
  match v with
  | none => .ok none
  | some v => if v < 0 then .error (.valueError s!"amount_minor must be non-negative: {v}")
    else .ok (some v.toNat)

omit [Platform] in
/-- A computation that returns is one whose parts return. -/
theorem bind_ok {α β : Type} {x : Except PyError α} {f : α → Except PyError β} {b : β} :
    x >>= f = .ok b ↔ ∃ a, x = .ok a ∧ f a = .ok b := by
  cases x with
  | error e => simp [bind, Except.bind]
  | ok a => simp [bind, Except.bind]

/-! ## The normal form of a timestamp -/

section
omit [Platform]
open Datetime

section
variable {digit digit' : Char → Bool}

theorem dropWhile_congr {cs : List Char} (h : ∀ c ∈ cs, digit c = digit' c) :
    cs.dropWhile digit = cs.dropWhile digit' := by
  induction cs with
  | nil => rfl
  | cons c cs ih =>
    obtain ⟨hc, hcs⟩ := List.forall_mem_cons.1 h
    rw [List.dropWhile_cons, List.dropWhile_cons, hc, ih hcs]

theorem zipWith_fits_congr {pattern cs : List Char} (h : ∀ c ∈ cs, digit c = digit' c) :
    pattern.zipWith (fits digit) cs = pattern.zipWith (fits digit') cs := by
  induction pattern generalizing cs with
  | nil => rfl
  | cons p pattern ih =>
    cases cs with
    | nil => rfl
    | cons c cs =>
      obtain ⟨hc, hcs⟩ := List.forall_mem_cons.1 h
      rw [List.zipWith_cons_cons, List.zipWith_cons_cons, ih hcs, fits, fits, hc]

theorem fitsAll_congr {pattern : String} {cs : List Char} (h : ∀ c ∈ cs, digit c = digit' c) :
    fitsAll digit pattern cs = fitsAll digit' pattern cs := by
  rw [fitsAll, fitsAll, zipWith_fits_congr h]

theorem matchesZone_congr {cs : List Char} (h : ∀ c ∈ cs, digit c = digit' c) :
    matchesZone digit cs = matchesZone digit' cs := by
  have hplain : ∀ {rest : List Char}, (∀ c ∈ rest, c ∈ cs) →
      (rest = ['Z'] || rest = ['z'] || fitsAll digit "+dd:dd" rest) =
        (rest = ['Z'] || rest = ['z'] || fitsAll digit' "+dd:dd" rest) := fun hrest => by
    rw [fitsAll_congr fun c hc => h c (hrest c hc)]
  unfold matchesZone
  dsimp only
  split
  · rename_i c cs
    have hc := h c (by simp)
    have hcs : ∀ d ∈ cs, digit d = digit' d := fun d hd => h d (by simp [hd])
    rw [hc, dropWhile_congr hcs]
    refine hplain fun d hd => ?_
    split_ifs at hd
    · simp [List.dropWhile_subset digit' hd]
    · exact hd
  · exact hplain fun _ hd => hd

/-- Only what is a digit among the characters of the text matters. -/
theorem matchesDateTime_congr {cs : List Char} (h : ∀ c ∈ cs, digit c = digit' c) :
    matchesDateTime digit cs = matchesDateTime digit' cs := by
  rw [matchesDateTime, matchesDateTime, fitsAll_congr fun c hc => h c (List.mem_of_mem_take hc),
    matchesZone_congr fun c hc => h c (List.mem_of_mem_drop hc)]

end

theorem ascii_of_isDigit {c : Char} (h : c.isDigit = true) : c.toNat < 128 ∧ c ≠ '\n' := by
  simp only [Char.isDigit, Bool.and_eq_true, decide_eq_true_eq, UInt32.le_iff_toNat_le] at h
  have hle : c.toNat ≤ 57 := h.2
  refine ⟨by omega, ?_⟩
  rintro rfl
  exact absurd h.1 (by decide)

/-- On an ASCII text of one line the pattern takes ASCII digits only. -/
theorem matchesRfc3339_ascii [Platform] {cs : List Char}
    (h : ∀ c ∈ cs, c.toNat < 128 ∧ c ≠ '\n') :
    matchesRfc3339 cs = matchesDateTime Char.isDigit cs := by
  have hlast : cs.getLast? ≠ some '\n' := fun hl => (h _ (List.mem_of_getLast? hl)).2 rfl
  have hdigit : ∀ c ∈ cs, isDecimal c = c.isDigit := fun c hc => by
    have hlow : ¬ 127 < c.toNat := by
      have := (h c hc).1
      omega
    simp [isDecimal, hlow]
  rw [matchesRfc3339, if_neg hlast, matchesDateTime_congr hdigit]

theorem matchesZone_printed (us : ℕ) :
    matchesZone Char.isDigit ((if us = 0 then [] else '.' :: pad 6 us) ++ ['Z']) = true := by
  split_ifs with hz
  · rfl
  · have hd : ∀ c ∈ pad 6 us, c.isDigit = true := isDigit_pad
    cases hp : pad 6 us with
    | nil =>
      have hnone := digits_pad 6 us
      rw [hp, digits, List.foldl_nil, Option.some.injEq] at hnone
      exact absurd hnone.symm hz
    | cons c cs =>
      rw [hp] at hd
      have hrest : (cs ++ ['Z']).dropWhile Char.isDigit = ['Z'] := by
        rw [List.dropWhile_append_of_pos fun c' hc' => hd c' (List.mem_cons_of_mem _ hc')]
        rfl
      simp only [matchesZone, List.cons_append, hd c (by simp), if_true, hrest, decide_true,
        Bool.true_or]

/-- What is written of an instant, with `Z` for the offset, fits the pattern. -/
theorem matchesDateTime_printed {y m d us : ℕ} (hy : y < 10000) (hm : m < 100) (hd : d < 100)
    (hus : us < day) :
    matchesDateTime Char.isDigit (pad 4 y ++ '-' :: pad 2 m ++ '-' :: pad 2 d ++ 'T' ::
      printClock us ++ ['Z']) = true := by
  have hsec : us / second < 86400 := by
    simp only [day, second] at hus ⊢
    omega
  obtain ⟨a, b, c, e, hpy, hdy, -⟩ := pad_four hy
  obtain ⟨f, g, hpm, hdm, -⟩ := pad_two hm
  obtain ⟨p, q, hpd, hdd, -⟩ := pad_two hd
  obtain ⟨r, t, hph, hdh, -⟩ := pad_two (n := us / second / 3600) (by omega)
  obtain ⟨u, v, hpi, hdi, -⟩ := pad_two (n := us / second / 60 % 60) (by omega)
  obtain ⟨w, x, hps, hds, -⟩ := pad_two (n := us / second % 60) (by omega)
  have hlen : "dddd-dd-ddTdd:dd:dd".length = 19 := by decide
  simp only [List.mem_cons, List.not_mem_nil, or_false, forall_eq_or_imp, forall_eq] at *
  unfold printClock
  dsimp only
  rw [hpy, hpm, hpd, hph, hpi, hps]
  simp only [matchesDateTime, List.cons_append, List.nil_append, List.take_succ_cons, List.take_zero,
    List.drop_succ_cons, List.drop_zero, matchesZone_printed, Bool.and_true]
  simp [fitsAll, fits, *]

/-- What is written is one line of ASCII. -/
theorem ascii_printed {y m d us : ℕ} {c : Char}
    (h : c ∈ pad 4 y ++ '-' :: pad 2 m ++ '-' :: pad 2 d ++ 'T' :: printClock us ++ ['Z']) :
    c.toNat < 128 ∧ c ≠ '\n' := by
  have hmarks : ∀ c ∈ ['-', 'T', ':', '.'], c.toNat < 128 ∧ c ≠ '\n' := by simp
  rcases List.mem_append.1 h with h | h
  · exact (mem_printed h).elim ascii_of_isDigit (hmarks c)
  · obtain rfl := List.mem_singleton.1 h
    decide

/-- Writing the offset as `Z` and reading it back as an offset. -/
theorem replaceZ_ofList {body : List Char} (h : ∀ c ∈ body, c ≠ 'Z' ∧ c ≠ 'z') :
    replaceZ (String.ofList ((body ++ ['Z']).map fun c => if c = 'z' then 'Z' else c)) =
      String.ofList (body ++ "+00:00".toList) := by
  have hmap : body.map (fun c => if c = 'z' then 'Z' else c) = body :=
    (List.map_congr_left fun c hc => if_neg (h c hc).2).trans (List.map_id' body)
  have hflat : body.flatMap (fun c => if c = 'Z' then "+00:00".toList else [c]) = body := by
    refine (List.flatMap_congr fun c hc => if_neg (h c hc).1).trans ?_
    simp
  have hlist : (String.ofList (body ++ ['Z'])).toList = body ++ ['Z'] := String.toList_ofList
  have hlast : ['Z'].map (fun c => if c = 'z' then 'Z' else c) = ['Z'] := rfl
  rw [List.map_append, hmap, hlast, replaceZ, hlist, List.flatMap_append, hflat]
  rfl

/-- A validated timestamp is in normal form: it validates as itself. -/
theorem validateRfc3339_idem [Platform] {v s : String} (h : validateRfc3339 v = .ok s) :
    validateRfc3339 s = .ok s := by
  unfold validateRfc3339 at h
  dsimp only at h
  split_ifs at h
  cases hdt : fromisoformat
      (replaceZ (String.ofList (v.toList.map fun c => if c = 'z' then 'Z' else c))) with
  | none =>
    rw [hdt] at h
    cases h
  | some dt =>
    rw [hdt] at h
    cases hi : dt.instant? with
    | none =>
      simp only [hi] at h
      cases h
    | some i =>
      simp only [hi] at h
      cases ht : isoformatUtc i with
      | none =>
        simp only [ht] at h
        cases h
      | some text =>
        simp only [ht, Except.ok.injEq] at h
        obtain ⟨y, m, d, ord, us, hdate, hus, -, htext⟩ := isoformatUtc_parts ht
        obtain ⟨hy, hm, hd⟩ := ymd2ord_bounds hdate
        have hnoZ : ∀ c ∈ pad 4 y ++ '-' :: pad 2 m ++ '-' :: pad 2 d ++ 'T' :: printClock us,
            c ≠ 'Z' ∧ c ≠ 'z' := by
          intro c hc
          rcases mem_printed hc with hc | hc
          · constructor <;> rintro rfl <;> exact absurd hc (by decide)
          · constructor <;> rintro rfl <;> exact absurd hc (by decide)
        have hmatch := matchesDateTime_printed hy hm hd hus
        rw [← matchesRfc3339_ascii fun c => ascii_printed] at hmatch
        generalize pad 4 y ++ '-' :: pad 2 m ++ '-' :: pad 2 d ++ 'T' :: printClock us = body at *
        have hs : s = String.ofList (body ++ ['Z']) := by
          rw [← h, ← String.length_toList, htext, List.length_append]
          simp
        have hread : replaceZ (String.ofList (s.toList.map fun c => if c = 'z' then 'Z' else c)) =
            text := by
          rw [hs, String.toList_ofList, replaceZ_ofList hnoZ, ← htext, String.ofList_toList]
        rw [validateRfc3339, hread, hs, String.toList_ofList, if_pos hmatch]
        simp only [fromisoformat_isoformatUtc ht, instant?, Option.map_some, sub_zero, ht]
        rw [← hs, h]

/-- A validated field keeps its value. -/
theorem timestampField_text [Platform] {v : String} {t : Timestamp} (h : timestampField v = .ok t) :
    timestampField t.text = .ok t := by
  unfold timestampField at h
  cases hv : validateRfc3339 v with
  | error e =>
    rw [hv] at h
    cases h
  | ok s =>
    cases ht : Timestamp.ofText? s with
    | none =>
      simp only [hv, ht, bind, Except.bind] at h
      cases h
    | some t' =>
      simp only [hv, ht, bind, Except.bind, pure, Except.pure, Except.ok.injEq] at h
      subst h
      have htext := Timestamp.text_ofText? ht
      simp only [timestampField, htext, validateRfc3339_idem hv, ht, bind, Except.bind, pure,
        Except.pure]

/-- The time as `isoformat` writes it keeps its instant when it is checked. -/
theorem timestampField_isoformat [Platform] {i : ℤ} {s : String} (hs : isoformatUtc i = some s)
    {t : Timestamp} (h : timestampField s = .ok t) : t.instant = i := by
  obtain ⟨y, m, d, ord, us, hdate, hus, hi, htext⟩ := isoformatUtc_parts hs
  have hplain : ∀ c ∈ s.toList, c ≠ 'Z' ∧ c ≠ 'z' := by
    intro c hc
    rw [htext] at hc
    rcases List.mem_append.1 hc with hc | hc
    · rcases mem_printed hc with hc | hc
      · constructor <;> rintro rfl <;> exact absurd hc (by decide)
      · constructor <;> rintro rfl <;> exact absurd hc (by decide)
    · constructor <;> rintro rfl <;> revert hc <;> decide
  have hlower : (s.toList.map fun c => if c = 'z' then 'Z' else c) = s.toList :=
    (List.map_congr_left fun c hc => if_neg (hplain c hc).2).trans (List.map_id _)
  have hspelled : replaceZ s = s := by
    have hcs : (s.toList.flatMap fun c => if c = 'Z' then "+00:00".toList else [c]) = s.toList :=
      (List.flatMap_congr fun c hc => if_neg (hplain c hc).1).trans (List.flatMap_singleton' _)
    rw [replaceZ, hcs, String.ofList_toList]
  obtain ⟨v, hv, h⟩ := bind_ok.1 h
  have hread := fromisoformat_isoformatUtc hs
  unfold validateRfc3339 at hv
  dsimp only at hv
  split_ifs at hv
  rw [hlower, String.ofList_toList, hspelled, hread] at hv
  simp only [instant?, Option.map_some, sub_zero, hs, Except.ok.injEq] at hv
  have hcut : s.toList.take (s.length - 6) =
      pad 4 y ++ '-' :: pad 2 m ++ '-' :: pad 2 d ++ 'T' :: printClock us := by
    generalize pad 4 y ++ '-' :: pad 2 m ++ '-' :: pad 2 d ++ 'T' :: printClock us = body at *
    rw [← String.length_toList, htext, List.length_append]
    simp
  have hzulu : parseOffset 'Z' [] = some 0 := rfl
  have hclock := fromisoformat_parts hdate (parseTime_printClock_zone hus rfl hzulu)
  split at h
  · rename_i t' ht
    cases h
    have hreads := t.reads
    rw [Timestamp.text_ofText? ht, ← hv, hcut] at hreads
    simp only [List.cons_append, List.append_assoc] at hclock hreads
    rw [hclock] at hreads
    simpa [instant?, hi] using hreads.symm
  · cases h

end

example : validateUlid "01ARZ3NDEKTSV4RRFFQ69G5FAV" = .ok "01ARZ3NDEKTSV4RRFFQ69G5FAV" := rfl

example : validateRfc3339 "2026-01-01 01:00:00.25+01:00" = .ok "2026-01-01T00:00:00.250000Z" := rfl

end Mandate
