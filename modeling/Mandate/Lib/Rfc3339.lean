/-
  RFC 3339 date-times, part by part.

  An `Rfc3339` value is a date-time as it is spelled; `text` writes it, and
  `instant?` is the exact instant it denotes.  `fromisoformat` reads a spelled
  date-time as its instant, cut to microseconds (`read_plain`), and nothing but
  ASCII in one that is laid out like it (`isoChar_of_fromisoformat`).
-/
import Mathlib.Algebra.Order.Floor.Semiring
import Mathlib.Data.Rat.Floor
import Mandate.Lib.Isoformat

namespace Datetime

/-- A string of `n` ASCII digits. -/
def DigitString (n : ℕ) : Type := {cs : List Char // cs.length = n ∧ ∀ c ∈ cs, c.isDigit = true}

namespace DigitString

def value {n : ℕ} (d : DigitString n) : ℕ := Nat.ofDigitChars 10 d.1 0

theorem digits_eq {n : ℕ} (d : DigitString n) : digits d.1 = some d.value :=
  Datetime.digits_eq d.2.2

theorem eq_two (d : DigitString 2) : ∃ a b, d.1 = [a, b] :=
  List.length_eq_two.1 d.2.1

theorem eq_four (d : DigitString 4) : ∃ a b c e, d.1 = [a, b, c, e] := by
  obtain ⟨cs, hl, hd⟩ := d
  match cs, hl with
  | [a, b, c, e], _ => exact ⟨a, b, c, e, rfl⟩

/-- A number below `10 ^ n` as a string of `n` digits. -/
def ofNat (n k : ℕ) (hn : 0 < n) (h : k < 10 ^ n) : DigitString n :=
  ⟨pad n k, length_pad hn h, isDigit_pad⟩

theorem value_ofNat {n k : ℕ} (hn : 0 < n) (h : k < 10 ^ n) : (ofNat n k hn h).value = k := by
  have hd := (ofNat n k hn h).digits_eq
  rw [show (ofNat n k hn h).1 = pad n k from rfl, digits_pad] at hd
  exact (Option.some.inj hd).symm

end DigitString

/-- The offset of a date-time, as it is spelled. -/
inductive Zone where
  | utc (z : Char) (h : z = 'Z' ∨ z = 'z')
  | offset (negative : Bool) (hours minutes : DigitString 2)

namespace Zone

def sign (negative : Bool) : Char := if negative then '-' else '+'

def text : Zone → List Char
  | .utc z _ => [z]
  | .offset negative hours minutes => sign negative :: hours.1 ++ ':' :: minutes.1

theorem head_text (z : Zone) : ∃ c cs, z.text = c :: cs ∧ c ≠ '.' ∧ c.isDigit = false := by
  cases z with
  | utc z h => exact ⟨z, [], rfl, by rcases h with rfl | rfl <;> decide⟩
  | offset negative hours minutes =>
    exact ⟨sign negative, _, rfl, by cases negative <;> decide⟩

/-- The text with UTC written as an offset. -/
def plain : Zone → List Char
  | .utc _ _ => "+00:00".toList
  | .offset negative hours minutes => sign negative :: hours.1 ++ ':' :: minutes.1

/-- The offset in microseconds; it is less than a day. -/
def shift? : Zone → Option ℤ
  | .utc _ _ => some 0
  | .offset negative hours minutes =>
    let t := micros (hours.value, minutes.value, 0, 0)
    if t < day then some (if negative then -(t : ℤ) else t) else none

end Zone

/-- A date-time as it is spelled; an empty fraction is no fraction. -/
structure Rfc3339 where
  year : DigitString 4
  month : DigitString 2
  dayOfMonth : DigitString 2
  separator : Char
  hour : DigitString 2
  minute : DigitString 2
  seconds : DigitString 2
  fraction : List Char
  zone : Zone
  separator_eq : separator = 'T' ∨ separator = ' '
  fraction_isDigit : ∀ c ∈ fraction, c.isDigit = true

namespace Rfc3339

def fractionText (p : Rfc3339) : List Char := if p.fraction = [] then [] else '.' :: p.fraction

def clockText (p : Rfc3339) : List Char :=
  p.hour.1 ++ ':' :: (p.minute.1 ++ ':' :: (p.seconds.1 ++ p.fractionText))

def text (p : Rfc3339) : List Char :=
  p.year.1 ++ '-' :: (p.month.1 ++ '-' :: (p.dayOfMonth.1 ++ p.separator ::
    (p.clockText ++ p.zone.text)))

/-- The text with UTC written as an offset. -/
def plain (p : Rfc3339) : List Char :=
  p.year.1 ++ '-' :: (p.month.1 ++ '-' :: (p.dayOfMonth.1 ++ p.separator ::
    (p.clockText ++ p.zone.plain)))

/-- The text up to the offset. -/
def front (p : Rfc3339) : List Char :=
  p.year.1 ++ '-' :: (p.month.1 ++ '-' :: (p.dayOfMonth.1 ++ p.separator :: p.clockText))

theorem text_eq (p : Rfc3339) : p.text = p.front ++ p.zone.text := by
  simp [text, front]

theorem plain_eq (p : Rfc3339) : p.plain = p.front ++ p.zone.plain := by
  simp [plain, front]

/-- The fraction of a second, in microseconds. -/
def fractionMicros (p : Rfc3339) : ℚ :=
  (Nat.ofDigitChars 10 p.fraction 0 * second : ℕ) / (10 ^ p.fraction.length : ℕ)

/-- The instant in microseconds from year 1 in UTC; there is none when the date,
    the time of day or the offset is out of range. -/
def instant? (p : Rfc3339) : Option ℚ := do
  let ord ← ymd2ord p.year.value p.month.value p.dayOfMonth.value
  let shift ← p.zone.shift?
  if 24 ≤ p.hour.value ∨ 60 ≤ p.minute.value ∨ 60 ≤ p.seconds.value then none
  else some (((((ord : ℤ) - 1) * day + micros (p.hour.value, p.minute.value, p.seconds.value, 0) -
    shift : ℤ) : ℚ) + p.fractionMicros)

end Rfc3339

/-- The text spells a date-time with the instant `x`. -/
def Denotes (v : String) (x : ℚ) : Prop := ∃ p : Rfc3339, p.text = v.toList ∧ p.instant? = some x

/-! ## Reading the parts -/

theorem ofDigitChars_lt {cs : List Char} (h : ∀ c ∈ cs, c.isDigit = true) :
    Nat.ofDigitChars 10 cs 0 < 10 ^ cs.length := by
  induction cs with
  | nil => simp
  | cons c cs ih =>
    have hc := h c (by simp)
    have hcs := ih fun d hd => h d (List.mem_cons_of_mem _ hd)
    simp only [Char.isDigit, Bool.and_eq_true, decide_eq_true_eq, UInt32.le_iff_toNat_le] at hc
    rw [Nat.ofDigitChars_cons, Nat.ofDigitChars_eq_ofDigitChars_zero, List.length_cons, pow_succ]
    have hle : c.toNat - '0'.toNat ≤ 9 := by
      have hup : c.toNat ≤ 57 := hc.2
      change c.toNat - 48 ≤ 9
      omega
    have hmul := Nat.mul_le_mul_left (10 ^ cs.length) hle
    rw [Nat.mul_zero, Nat.zero_add]
    omega

/-- A fraction is read as its number of microseconds, cut. -/
theorem parseFraction_digits {ds : List Char} (hne : ds ≠ []) (hd : ∀ c ∈ ds, c.isDigit = true) :
    parseFraction ds = some (Nat.ofDigitChars 10 ds 0 * second / 10 ^ ds.length) := by
  have htake : ∀ c ∈ ds.take 6, c.isDigit = true := fun c hc => hd c (List.mem_of_mem_take hc)
  rw [parseFraction, if_neg hne, digits_eq hd, digits_eq htake]
  simp only [Option.bind_some, Option.map_some, Option.some.injEq]
  have hvalue : Nat.ofDigitChars 10 ds 0 =
      10 ^ (ds.drop 6).length * Nat.ofDigitChars 10 (ds.take 6) 0 +
        Nat.ofDigitChars 10 (ds.drop 6) 0 := by
    conv_lhs => rw [← List.take_append_drop 6 ds]
    rw [Nat.ofDigitChars_append, Nat.ofDigitChars_eq_ofDigitChars_zero]
  have hrest : Nat.ofDigitChars 10 (ds.drop 6) 0 < 10 ^ (ds.drop 6).length :=
    ofDigitChars_lt fun c hc => hd c (List.mem_of_mem_drop hc)
  rcases Nat.le_total ds.length 6 with hle | hge
  · have hpow : second = 10 ^ (6 - ds.length) * 10 ^ ds.length := by
      rw [← pow_add, Nat.sub_add_cancel hle]
      rfl
    rw [List.take_of_length_le hle, hpow, ← Nat.mul_assoc,
      Nat.mul_div_cancel _ (Nat.pow_pos (by decide))]
  · have hlen : (ds.take 6).length = 6 := by rw [List.length_take, Nat.min_eq_left hge]
    have hpow : 10 ^ ds.length = 10 ^ (ds.drop 6).length * second := by
      rw [List.length_drop, show second = 10 ^ 6 from rfl, ← pow_add, Nat.sub_add_cancel hge]
    rw [hlen, hpow, Nat.mul_div_mul_right _ _ (by decide), hvalue,
      Nat.mul_add_div (Nat.pow_pos (by decide)), Nat.div_eq_of_lt hrest]
    simp

theorem Rfc3339.floor_fractionMicros (p : Rfc3339) :
    ⌊p.fractionMicros⌋ =
      ((Nat.ofDigitChars 10 p.fraction 0 * second / 10 ^ p.fraction.length : ℕ) : ℤ) := by
  rw [Rfc3339.fractionMicros]
  exact Rat.floor_natCast_div_natCast _ _

section
variable {P : Char → Prop}

/-- What holds of digits and of the marks of a clock holds of its characters. -/
theorem Rfc3339.forall_clockText (p : Rfc3339) (hdigit : ∀ c : Char, c.isDigit = true → P c)
    (hmark : ∀ c ∈ [':', '.'], P c) : ∀ c ∈ p.clockText, P c := by
  have hcolon := hmark ':' (by simp)
  have hfraction : ∀ c ∈ p.fractionText, P c := by
    rw [Rfc3339.fractionText]
    split_ifs
    · simp
    · exact List.forall_mem_cons.2 ⟨hmark '.' (by simp), fun c hc =>
        hdigit c (p.fraction_isDigit c hc)⟩
  simp only [Rfc3339.clockText, List.forall_mem_append, List.forall_mem_cons]
  exact ⟨fun c hc => hdigit c (p.hour.2.2 c hc), hcolon,
    fun c hc => hdigit c (p.minute.2.2 c hc), hcolon,
    fun c hc => hdigit c (p.seconds.2.2 c hc), hfraction⟩

theorem Rfc3339.forall_front (p : Rfc3339) (hdigit : ∀ c : Char, c.isDigit = true → P c)
    (hmark : ∀ c ∈ ['-', 'T', ' ', ':', '.'], P c) : ∀ c ∈ p.front, P c := by
  have hhyphen := hmark '-' (by simp)
  have hsep : P p.separator := by
    rcases p.separator_eq with h | h <;> rw [h]
    · exact hmark 'T' (by simp)
    · exact hmark ' ' (by simp)
  have hclock := p.forall_clockText hdigit fun c hc => hmark c (List.mem_cons_of_mem _
    (List.mem_cons_of_mem _ (List.mem_cons_of_mem _ hc)))
  simp only [Rfc3339.front, List.forall_mem_append, List.forall_mem_cons]
  exact ⟨fun c hc => hdigit c (p.year.2.2 c hc), hhyphen,
    fun c hc => hdigit c (p.month.2.2 c hc), hhyphen,
    fun c hc => hdigit c (p.dayOfMonth.2.2 c hc), hsep, hclock⟩

theorem Zone.forall_text (z : Zone) (hdigit : ∀ c : Char, c.isDigit = true → P c)
    (hmark : ∀ c ∈ ['Z', 'z', '+', '-', ':'], P c) : ∀ c ∈ z.text, P c := by
  cases z with
  | utc z h =>
    intro c hc
    obtain rfl := List.mem_singleton.1 hc
    rcases h with rfl | rfl
    · exact hmark 'Z' (by simp)
    · exact hmark 'z' (by simp)
  | offset negative hours minutes =>
    have hsign : P (sign negative) := by
      cases negative
      · exact hmark '+' (by simp)
      · exact hmark '-' (by simp)
    simp only [Zone.text, List.forall_mem_cons, List.forall_mem_append]
    exact ⟨⟨hsign, fun c hc => hdigit c (hours.2.2 c hc)⟩, hmark ':' (by simp),
      fun c hc => hdigit c (minutes.2.2 c hc)⟩

end

theorem Rfc3339.isZone_clockText (p : Rfc3339) : ∀ c ∈ p.clockText, isZone c = false :=
  p.forall_clockText (fun _ => isZone_of_isDigit) (by simp [isZone])

/-- The clock is read component by component. -/
theorem Rfc3339.parseClock_text (p : Rfc3339) :
    parseClock p.clockText = some (p.hour.value, p.minute.value, p.seconds.value,
      Nat.ofDigitChars 10 p.fraction 0 * second / 10 ^ p.fraction.length) := by
  have hh := p.hour.digits_eq
  have hm := p.minute.digits_eq
  have hs := p.seconds.digits_eq
  obtain ⟨a, b, hab⟩ := p.hour.eq_two
  obtain ⟨c, d, hcd⟩ := p.minute.eq_two
  obtain ⟨e, f, hef⟩ := p.seconds.eq_two
  rw [hab] at hh
  rw [hcd] at hm
  rw [hef] at hs
  rw [Rfc3339.clockText, Rfc3339.fractionText, hab, hcd, hef]
  split_ifs with hf
  · show (do return (← digits [a, b], ← digits [c, d], ← digits [e, f], 0)) = _
    rw [hh, hm, hs, hf]
    rfl
  · show (do return (← digits [a, b], ← digits [c, d], ← digits [e, f],
      ← parseFraction p.fraction)) = _
    rw [hh, hm, hs, parseFraction_digits hf p.fraction_isDigit]
    rfl

/-- The offset is read as its shift. -/
theorem Zone.plain_eq (z : Zone) : ∃ sign rest, z.plain = sign :: rest ∧ isZone sign = true ∧
    parseOffset sign rest = z.shift? := by
  cases z with
  | utc z h =>
    have hzero : parseOffset '+' "00:00".toList = some 0 := by decide
    exact ⟨'+', "00:00".toList, rfl, rfl, hzero⟩
  | offset negative hours minutes =>
    refine ⟨Zone.sign negative, hours.1 ++ ':' :: minutes.1, rfl, by cases negative <;> rfl, ?_⟩
    have hh := hours.digits_eq
    have hm := minutes.digits_eq
    obtain ⟨a, b, hab⟩ := hours.eq_two
    obtain ⟨c, d, hcd⟩ := minutes.eq_two
    rw [hab] at hh
    rw [hcd] at hm
    have hclock : parseClock ([a, b] ++ ':' :: [c, d]) =
        some (hours.value, minutes.value, 0, 0) := by
      show (do return (← digits [a, b], ← digits [c, d], 0, 0)) = _
      rw [hh, hm]
      rfl
    have hsign : sign negative ≠ 'Z' := by cases negative <;> decide
    have hminus : sign negative = '-' ↔ negative = true := by cases negative <;> decide
    rw [hab, hcd, parseOffset, if_neg hsign, hclock, Option.bind_some, shift?]
    simp only [hminus]

/-- The time is read with its offset. -/
theorem Rfc3339.parseTime_plain (p : Rfc3339) :
    parseTime (p.clockText ++ p.zone.plain) =
      if 24 ≤ p.hour.value ∨ 60 ≤ p.minute.value ∨ 60 ≤ p.seconds.value then none
      else p.zone.shift?.map fun shift => (micros (p.hour.value, p.minute.value, p.seconds.value,
        Nat.ofDigitChars 10 p.fraction 0 * second / 10 ^ p.fraction.length), some shift) := by
  obtain ⟨sign, rest, hzone, hsign, hoffset⟩ := p.zone.plain_eq
  have hclock : ∀ c ∈ p.clockText, (!isZone c) = true := fun c hc => by
    rw [p.isZone_clockText c hc]
    rfl
  have htake : (p.clockText ++ p.zone.plain).takeWhile (fun c => !isZone c) = p.clockText := by
    rw [List.takeWhile_append_of_pos hclock, hzone]
    simp [hsign]
  have hdrop : (p.clockText ++ p.zone.plain).dropWhile (fun c => !isZone c) = sign :: rest := by
    rw [List.dropWhile_append_of_pos hclock, hzone]
    simp [hsign]
  rw [parseTime, htake, hdrop, p.parseClock_text]
  simp only [Option.bind_eq_bind, Option.bind_some]
  split_ifs
  · rfl
  · rw [hoffset]
    cases p.zone.shift? <;> rfl

/-- A spelled date-time is read as its instant, cut to microseconds. -/
theorem Rfc3339.read_plain (p : Rfc3339) :
    (fromisoformat (String.ofList p.plain)).bind Datetime.instant? =
      p.instant?.map fun x => ⌊x⌋ := by
  have hyear := p.year.digits_eq
  have hmonth := p.month.digits_eq
  have hday := p.dayOfMonth.digits_eq
  have hdigit := p.month.2.2
  obtain ⟨a, b, c, e, hy⟩ := p.year.eq_four
  obtain ⟨f, g, hm⟩ := p.month.eq_two
  obtain ⟨q, r, hd⟩ := p.dayOfMonth.eq_two
  rw [hy] at hyear
  rw [hm] at hmonth hdigit
  rw [hd] at hday
  have hW : f ≠ 'W' := by
    rintro rfl
    exact absurd (hdigit 'W' (by simp)) (by decide)
  have htime := p.parseTime_plain
  obtain ⟨t, ts, hts⟩ : ∃ t ts, p.clockText ++ p.zone.plain = t :: ts := by
    obtain ⟨u, v, hu⟩ := p.hour.eq_two
    exact ⟨u, _, by rw [Rfc3339.clockText, hu]; rfl⟩
  rw [hts] at htime
  have hsep : separatorAt (a :: b :: c :: e :: '-' :: f :: g :: '-' :: q :: r :: p.separator ::
      t :: ts) = 10 := by
    simp [separatorAt, hW]
  have hparse : parseDate [a, b, c, e, '-', f, g, '-', q, r] =
      ymd2ord p.year.value p.month.value p.dayOfMonth.value := by
    simp only [parseDate, List.length_cons, List.length_nil, List.take, List.drop,
      List.getElem?_cons_succ, List.getElem?_cons_zero, List.head?_cons, Option.some.injEq, hyear,
      hmonth, hday, hW, Option.bind_eq_bind, Option.bind_some, if_true, if_false, Nat.reduceAdd,
      Nat.reduceLT]
  rw [Rfc3339.plain, hts, hy, hm, hd, fromisoformat, String.toList_ofList]
  simp only [List.cons_append, List.nil_append, hsep, List.take_succ_cons, List.take_zero,
    List.drop_succ_cons, List.drop_zero, List.length_cons, hparse, htime, Option.bind_eq_bind]
  rw [if_neg (by omega), Rfc3339.instant?]
  cases ymd2ord p.year.value p.month.value p.dayOfMonth.value with
  | none => rfl
  | some ord =>
    simp only [Option.bind_some, Option.bind_eq_bind]
    split_ifs
    · cases p.zone.shift? <;> rfl
    · cases p.zone.shift? with
      | none => rfl
      | some shift =>
        simp only [Option.map_some, Option.bind_some, Option.pure_def, Datetime.instant?,
          Option.some.injEq, Int.floor_intCast_add, p.floor_fractionMicros, micros]
        push_cast
        ring

/-! ## The characters of what is read -/

theorem isDigit_of_digit? {c : Char} {d : ℕ} (h : digit? c = some d) : c.isDigit = true := by
  rw [digit?] at h
  split_ifs at h with hc
  simp only [Char.isDigit, Bool.and_eq_true, decide_eq_true_eq, UInt32.le_iff_toNat_le]
  exact hc

theorem isDigit_of_digits {cs : List Char} {n : ℕ} (h : digits cs = some n) :
    ∀ c ∈ cs, c.isDigit = true := by
  -- once a character is not a digit, nothing is read
  have hnone : ∀ ds : List Char, ds.foldl
      (fun acc c => acc.bind fun n => (digit? c).map fun d => 10 * n + d) none = none := by
    intro ds
    induction ds with
    | nil => rfl
    | cons d ds ih => exact ih
  rw [digits] at h
  generalize some 0 = acc at h
  induction cs generalizing acc with
  | nil => simp
  | cons c cs ih =>
    rw [List.foldl_cons] at h
    rw [List.forall_mem_cons]
    refine ⟨?_, ih _ h⟩
    cases hc : digit? c with
    | some d => exact isDigit_of_digit? hc
    | none =>
      rw [hc] at h
      cases acc <;> simp [hnone] at h

/-- A character of a date-time besides its separator. -/
def IsoChar (c : Char) : Prop := c.isDigit = true ∨ c ∈ ['-', ':', '.', ',', '+', 'W', 'Z']

theorem isoChar_of_digits {cs : List Char} {n : ℕ} (h : digits cs = some n) :
    ∀ c ∈ cs, IsoChar c :=
  fun c hc => .inl (isDigit_of_digits h c hc)

theorem isoChar_of_fraction {cs : List Char} {n : ℕ} (h : parseFraction cs = some n) :
    ∀ c ∈ cs, IsoChar c := by
  rw [parseFraction] at h
  split_ifs at h
  obtain ⟨k, hk, -⟩ := Option.bind_eq_some_iff.1 h
  exact isoChar_of_digits hk

theorem isoChar_pair {a b : Char} {n : ℕ} (h : digits [a, b] = some n) : IsoChar a ∧ IsoChar b := by
  have hall := isoChar_of_digits h
  exact ⟨hall a (by simp), hall b (by simp)⟩

theorem isoChar_of_clock {cs : List Char} {t : ℕ × ℕ × ℕ × ℕ} (h : parseClock cs = some t) :
    ∀ c ∈ cs, IsoChar c := by
  have hcolon : IsoChar ':' := .inr (by decide)
  have hpoint : ∀ {p : Char}, (p = '.' || p = ',') = true → IsoChar p := fun h => by
    simp only [Bool.or_eq_true, decide_eq_true_eq] at h
    rcases h with rfl | rfl <;> exact .inr (by decide)
  unfold parseClock at h
  split at h
  · obtain ⟨n, hn, -⟩ := Option.map_eq_some_iff.1 h
    exact isoChar_of_digits hn
  · simp only [Option.bind_eq_bind, Option.bind_eq_some_iff] at h
    obtain ⟨_, hh, _, hm, -⟩ := h
    simp [isoChar_pair hh, isoChar_pair hm, hcolon]
  · simp only [Option.bind_eq_bind, Option.bind_eq_some_iff] at h
    obtain ⟨_, hh, _, hm, -⟩ := h
    simp [isoChar_pair hh, isoChar_pair hm]
  · simp only [Option.bind_eq_bind, Option.bind_eq_some_iff] at h
    obtain ⟨_, hh, _, hm, _, hs, -⟩ := h
    simp [isoChar_pair hh, isoChar_pair hm, isoChar_pair hs, hcolon]
  · simp only [Option.bind_eq_bind, Option.bind_eq_some_iff] at h
    obtain ⟨_, hh, _, hm, _, hs, -⟩ := h
    simp [isoChar_pair hh, isoChar_pair hm, isoChar_pair hs]
  · split_ifs at h with hp
    simp only [Option.bind_eq_bind, Option.bind_eq_some_iff] at h
    obtain ⟨_, hh, _, hm, _, hs, _, hf, -⟩ := h
    have hrest := isoChar_of_fraction hf
    simpa [isoChar_pair hh, isoChar_pair hm, isoChar_pair hs, hcolon, hpoint hp] using hrest
  · split_ifs at h with hp
    simp only [Option.bind_eq_bind, Option.bind_eq_some_iff] at h
    obtain ⟨_, hh, _, hm, _, hs, _, hf, -⟩ := h
    have hrest := isoChar_of_fraction hf
    simpa [isoChar_pair hh, isoChar_pair hm, isoChar_pair hs, hpoint hp] using hrest
  · cases h

theorem isoChar_of_offset {sign : Char} {cs : List Char} {shift : ℤ}
    (h : parseOffset sign cs = some shift) : ∀ c ∈ cs, IsoChar c := by
  rw [parseOffset] at h
  split at h
  · split_ifs at h with hnil
    simp [hnil]
  · obtain ⟨t, ht, -⟩ := Option.bind_eq_some_iff.1 h
    exact isoChar_of_clock ht

theorem isoChar_of_time {cs : List Char} {r : ℕ × Option ℤ} (h : parseTime cs = some r) :
    ∀ c ∈ cs, IsoChar c := by
  obtain ⟨t, hclock, hzone⟩ := Option.bind_eq_some_iff.1 h
  rw [← List.takeWhile_append_dropWhile (p := fun c => !isZone c) (l := cs),
    List.forall_mem_append]
  refine ⟨isoChar_of_clock hclock, ?_⟩
  have hhead := List.head?_dropWhile_not (fun c => !isZone c) cs
  generalize cs.dropWhile (fun c => !isZone c) = zone at hzone hhead
  cases zone with
  | nil => simp
  | cons sign rest =>
    have hsign : IsoChar sign := by
      simp only [List.head?_cons, isZone, Bool.not_eq_false', Bool.or_eq_true,
        decide_eq_true_eq] at hhead
      rcases hhead with (rfl | rfl) | rfl <;> exact .inr (by decide)
    dsimp only at hzone
    split_ifs at hzone
    obtain ⟨shift, hoffset, -⟩ := Option.bind_eq_some_iff.1 hzone
    exact List.forall_mem_cons.2 ⟨hsign, isoChar_of_offset hoffset⟩

/-- A text laid out like a calendar date is read only when its date is in
    digits and what follows its separator is in characters of a date-time. -/
theorem isoChar_of_fromisoformat {y₁ y₂ y₃ y₄ m₁ m₂ d₁ d₂ t : Char} {rest : List Char}
    {dt : Datetime} (hW : m₁ ≠ 'W') (h : fromisoformat (String.ofList
      (y₁ :: y₂ :: y₃ :: y₄ :: '-' :: m₁ :: m₂ :: '-' :: d₁ :: d₂ :: t :: rest)) = some dt) :
    (∀ c ∈ [y₁, y₂, y₃, y₄, m₁, m₂, d₁, d₂], IsoChar c) ∧ ∀ c ∈ rest, IsoChar c := by
  have hsep : separatorAt (y₁ :: y₂ :: y₃ :: y₄ :: '-' :: m₁ :: m₂ :: '-' :: d₁ :: d₂ :: t :: rest)
      = 10 := by
    simp [separatorAt, hW]
  rw [fromisoformat, String.toList_ofList, if_neg (by simp)] at h
  obtain ⟨ord, hdate, htime⟩ := Option.bind_eq_some_iff.1 h
  simp only [hsep, List.take_succ_cons, List.take_zero, List.drop_succ_cons, List.drop_zero]
    at hdate htime
  constructor
  · simp [parseDate, hW, Option.bind_eq_some_iff] at hdate
    obtain ⟨_, hy, _, hm, _, hd, -⟩ := hdate
    have hyear := isoChar_of_digits hy
    simpa [isoChar_pair hm, isoChar_pair hd] using hyear
  · cases rest with
    | nil => simp
    | cons c cs =>
      obtain ⟨r, hr, -⟩ := Option.bind_eq_some_iff.1 htime
      exact isoChar_of_time hr

/-! ## Writing the parts -/

theorem ofDigitChars_pad (width n : ℕ) : Nat.ofDigitChars 10 (pad width n) 0 = n := by
  have hd := digits_pad width n
  rw [digits_eq isDigit_pad] at hd
  exact Option.some.inj hd

/-- The fraction that is written of a time of day. -/
def printFraction (us : ℕ) : List Char := if us % second = 0 then [] else pad 6 (us % second)

theorem isDigit_printFraction (us : ℕ) : ∀ c ∈ printFraction us, c.isDigit = true := by
  rw [printFraction]
  split_ifs
  · simp
  · exact isDigit_pad

/-- What is written of an instant, with `Z` for the offset, denotes it. -/
theorem denotes_printed {i : ℤ} {s : String} (h : isoformatUtc i = some s) :
    Denotes (String.ofList (s.toList.take (s.length - 6) ++ ['Z'])) i := by
  obtain ⟨y, m, d, ord, us, hdate, hus, hi, htext⟩ := isoformatUtc_parts h
  obtain ⟨hy, hm, hd⟩ := ymd2ord_bounds hdate
  have hsec : us / second < 86400 := by
    simp only [day, second] at hus ⊢
    omega
  have hhour : us / second / 3600 < 10 ^ 2 := by omega
  have hminute : us / second / 60 % 60 < 10 ^ 2 := by omega
  have hseconds : us / second % 60 < 10 ^ 2 := by omega
  refine ⟨⟨.ofNat 4 y (by decide) hy, .ofNat 2 m (by decide) hm, .ofNat 2 d (by decide) hd, 'T',
    .ofNat 2 _ (by decide) hhour, .ofNat 2 _ (by decide) hminute, .ofNat 2 _ (by decide) hseconds,
    printFraction us, .utc 'Z' (.inl rfl), .inl rfl, isDigit_printFraction us⟩, ?_, ?_⟩
  · have htake : s.toList.take (s.length - 6) =
        pad 4 y ++ '-' :: pad 2 m ++ '-' :: pad 2 d ++ 'T' :: printClock us := by
      generalize pad 4 y ++ '-' :: pad 2 m ++ '-' :: pad 2 d ++ 'T' :: printClock us = body at *
      rw [← String.length_toList, htext, List.length_append]
      simp
    rw [htake, String.toList_ofList]
    by_cases hz : us % second = 0
    · simp [Rfc3339.text, Rfc3339.clockText, Rfc3339.fractionText, printFraction, hz, printClock,
        DigitString.ofNat, Zone.text]
    · have hne : pad 6 (us % second) ≠ [] := by
        intro hnil
        have hlen : (pad 6 (us % second)).length = 6 :=
          length_pad (by decide) (Nat.mod_lt _ (by decide))
        rw [hnil] at hlen
        cases hlen
      simp [Rfc3339.text, Rfc3339.clockText, Rfc3339.fractionText, printFraction, hz, printClock,
        DigitString.ofNat, Zone.text, hne]
  · have hfraction : ((Nat.ofDigitChars 10 (printFraction us) 0 * second : ℕ) : ℚ) /
        ((10 ^ (printFraction us).length : ℕ) : ℚ) = ((us % second : ℕ) : ℚ) := by
      by_cases hz : us % second = 0
      · simp [printFraction, hz]
      · have hlen : (pad 6 (us % second)).length = 6 :=
          length_pad (by decide) (Nat.mod_lt _ (by decide))
        have hsecond : second = 10 ^ 6 := rfl
        rw [printFraction, if_neg hz, ofDigitChars_pad, hlen, hsecond, Nat.cast_mul]
        exact mul_div_cancel_right₀ _ (Nat.cast_ne_zero.2 (by decide))
    have hmicros : micros (us / second / 3600, us / second / 60 % 60, us / second % 60, 0) +
        us % second = us := by
      simp only [micros, second]
      omega
    have hbounds : ¬ (24 ≤ us / second / 3600 ∨ 60 ≤ us / second / 60 % 60 ∨
        60 ≤ us / second % 60) := by omega
    simp only [Rfc3339.instant?, Rfc3339.fractionMicros, DigitString.value_ofNat, hdate,
      Zone.shift?, Option.bind_eq_bind, Option.bind_some, hfraction, if_neg hbounds,
      Option.some.injEq, sub_zero]
    generalize micros (us / second / 3600, us / second / 60 % 60, us / second % 60, 0) = clock at *
    generalize us % second = fraction at *
    rw [← hi, ← hmicros]
    push_cast
    ring

end Datetime
