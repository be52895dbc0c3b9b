/-
  ISO 8601 date-times: the `datetime` type of the source language, read with
  `fromisoformat` and compared as instants.

  A `Datetime` is a count of microseconds on its own clock and, when it is
  aware, its offset from UTC.  `fromisoformat` reads calendar dates
  (`YYYY-MM-DD`, `YYYYMMDD`) and week dates (`YYYY-Www-D`, `YYYYWwwD`, day
  optional), any single separator character, a time down to hours with
  optional fraction (cut at six digits), and an offset (`Z` or signed).
  `isoformatUtc` writes an instant back in UTC.  Comparing an aware date-time
  with a naive one is a type error (`none`).
-/
import Mathlib.Algebra.Ring.Nat
import Mathlib.Data.List.Basic
import Mathlib.Data.Int.Notation

/-- A date-time: microseconds from 0001-01-01T00:00:00 on its own clock, and
    the UTC offset in microseconds unless it is naive. -/
structure Datetime where
  clock : ℤ
  offset : Option ℤ
deriving DecidableEq, Repr

namespace Datetime

/-! ## Calendar -/

def isLeap (y : ℕ) : Bool := y % 4 = 0 && (y % 100 ≠ 0 || y % 400 = 0)

def daysInMonth (y m : ℕ) : ℕ :=
  if m = 2 then (if isLeap y then 29 else 28)
  else if m = 4 || m = 6 || m = 9 || m = 11 then 30
  else 31

/-- Days before January 1st of year `y`, counted from year 1. -/
def daysBeforeYear (y : ℕ) : ℕ := (y - 1) * 365 + (y - 1) / 4 - (y - 1) / 100 + (y - 1) / 400

def daysBeforeMonth (y m : ℕ) : ℕ := ((List.range (m - 1)).map fun k => daysInMonth y (k + 1)).sum

/-- The ordinal of a date, 0001-01-01 being 1, or `none` when out of range. -/
def ymd2ord (y m d : ℕ) : Option ℕ :=
  if 1 ≤ y ∧ y ≤ 9999 ∧ 1 ≤ m ∧ m ≤ 12 ∧ 1 ≤ d ∧ d ≤ daysInMonth y m then
    some (daysBeforeYear y + daysBeforeMonth y m + d)
  else none

def maxOrdinal : ℕ := 3652059

/-- The ordinal of the Monday that starts week 1 of year `y`. -/
def isoweek1monday (y : ℕ) : ℤ :=
  let firstday := daysBeforeYear y + 1
  let firstweekday := (firstday + 6) % 7
  let week1monday : ℤ := firstday - firstweekday
  if firstweekday > 3 then week1monday + 7 else week1monday

/-- The ordinal of a week date, or `none` when out of range. -/
def isoweek2ord (y w d : ℕ) : Option ℕ :=
  let firstWeekday := (daysBeforeYear y + 1) % 7
  if 1 ≤ y ∧ y ≤ 9999 ∧ 1 ≤ d ∧ d ≤ 7 ∧ ((1 ≤ w ∧ w < 53) ∨
      (w = 53 ∧ (firstWeekday = 4 ∨ (firstWeekday = 3 ∧ isLeap y)))) then
    let ord := isoweek1monday y + ((w - 1) * 7 + (d - 1) : ℕ)
    if 1 ≤ ord ∧ ord ≤ maxOrdinal then some ord.toNat else none
  else none

/-! ## Reading -/

def digit? (c : Char) : Option ℕ :=
  if 48 ≤ c.toNat ∧ c.toNat ≤ 57 then some (c.toNat - 48) else none

/-- The value of a digit string; `none` on a character that is not an ASCII
    digit. -/
def digits : List Char → Option ℕ
  | cs => cs.foldl (fun acc c => acc.bind fun n => (digit? c).map fun d => 10 * n + d) (some 0)

/-- Where the date part ends. -/
def separatorAt (cs : List Char) : ℕ :=
  let at' := fun n => cs[n]?
  if cs.length = 7 then 7
  else if at' 4 = some '-' then
    if at' 5 = some 'W' then
      if 8 < cs.length ∧ at' 8 = some '-' then
        if 10 < cs.length ∧ ((at' 10).bind digit?).isSome then 8 else 10
      else 8
    else 10
  else if at' 4 = some 'W' then
    let stop := 7 + ((cs.drop 7).takeWhile fun c => (digit? c).isSome).length
    if stop < 9 then stop else if stop % 2 = 0 then 7 else 8
  else 8

/-- The date part, as an ordinal. -/
def parseDate (cs : List Char) : Option ℕ := do
  let y ← if cs.length < 4 then none else digits (cs.take 4)
  let hasSep := cs[4]? = some '-'
  let rest := cs.drop (if hasSep then 5 else 4)
  if rest.head? = some 'W' then
    let w ← if rest.length < 3 then none else digits ((rest.drop 1).take 2)
    match rest.drop 3 with
    | [] => isoweek2ord y w 1
    | [d] => if hasSep then none else (digits [d]).bind (isoweek2ord y w)
    | ['-', d] => if hasSep then (digits [d]).bind (isoweek2ord y w) else none
    | _ => none
  else
    let m ← if rest.length < 2 then none else digits (rest.take 2)
    match rest.drop 2 with
    | [a, b] => if hasSep then none else (digits [a, b]).bind (ymd2ord y m)
    | ['-', a, b] => if hasSep then (digits [a, b]).bind (ymd2ord y m) else none
    | _ => none

/-- A fraction of a second in microseconds, cut after six digits. -/
def parseFraction (cs : List Char) : Option ℕ :=
  if cs = [] then none
  else (digits cs).bind fun _ => (digits (cs.take 6)).map fun n => n * 10 ^ (6 - (cs.take 6).length)

/-- `HH[:MM[:SS[.f+]]]` or `HH[MM[SS[.f+]]]`, in microseconds, with each
    component. -/
def parseClock (cs : List Char) : Option (ℕ × ℕ × ℕ × ℕ) :=
  match cs with
  | [a, b] => (digits [a, b]).map fun h => (h, 0, 0, 0)
  | [a, b, ':', c, d] => do return (← digits [a, b], ← digits [c, d], 0, 0)
  | [a, b, c, d] => do return (← digits [a, b], ← digits [c, d], 0, 0)
  | [a, b, ':', c, d, ':', e, f] => do return (← digits [a, b], ← digits [c, d], ← digits [e, f], 0)
  | [a, b, c, d, e, f] => do return (← digits [a, b], ← digits [c, d], ← digits [e, f], 0)
  | a :: b :: ':' :: c :: d :: ':' :: e :: f :: p :: rest =>
    if p = '.' || p = ',' then do
      return (← digits [a, b], ← digits [c, d], ← digits [e, f], ← parseFraction rest)
    else none
  | a :: b :: c :: d :: e :: f :: p :: rest =>
    if p = '.' || p = ',' then do
      return (← digits [a, b], ← digits [c, d], ← digits [e, f], ← parseFraction rest)
    else none
  | _ => none

def second : ℕ := 1000000

def micros : ℕ × ℕ × ℕ × ℕ → ℕ
  | (h, m, s, us) => ((h * 60 + m) * 60 + s) * second + us

def day : ℕ := 24 * 60 * 60 * second

/-- A UTC offset, strictly between minus and plus one day. -/
def parseOffset (sign : Char) (cs : List Char) : Option ℤ :=
  if sign = 'Z' then (if cs = [] then some 0 else none)
  else (parseClock cs).bind fun t =>
    if micros t < day then some (if sign = '-' then -(micros t : ℤ) else micros t) else none

def isZone (c : Char) : Bool := c = '-' || c = '+' || c = 'Z'

/-- The time part: microseconds into the day and the offset. -/
def parseTime (cs : List Char) : Option (ℕ × Option ℤ) := do
  let t ← parseClock (cs.takeWhile fun c => !isZone c)
  let (h, m, s, _) := t
  if 24 ≤ h ∨ 60 ≤ m ∨ 60 ≤ s then none
  else match cs.dropWhile fun c => !isZone c with
    | [] => return (micros t, none)
    | sign :: rest => return (micros t, some (← parseOffset sign rest))

/-- Read an ISO 8601 date-time. -/
def fromisoformat (text : String) : Option Datetime :=
  let cs := text.toList
  if cs.length < 7 then none
  else do
    let ord ← parseDate (cs.take (separatorAt cs))
    match cs.drop (separatorAt cs + 1) with
    | [] => return ⟨(ord - 1) * day, none⟩
    | time =>
      let (us, offset) ← parseTime time
      return ⟨(ord - 1) * day + us, offset⟩

/-! ## Writing -/

/-- The year of the day `n`, counted from 0. -/
def yearOf (n : ℕ) : ℕ :=
  let y := n * 400 / 146097 + 1
  if daysBeforeYear (y + 1) ≤ n then y + 1 else if n < daysBeforeYear y then y - 1 else y

/-- The date of an ordinal. -/
def ord2ymd (ord : ℕ) : ℕ × ℕ × ℕ :=
  let y := yearOf (ord - 1)
  let n := ord - 1 - daysBeforeYear y
  let m := (List.range 12).countP fun k => daysBeforeMonth y (k + 1) ≤ n
  (y, m, n - daysBeforeMonth y m + 1)

def pad (width n : ℕ) : List Char := (Nat.toDigits 10 n).leftpad width '0'

/-- The time of day, microseconds only when there are any. -/
def printClock (us : ℕ) : List Char :=
  let s := us / second
  pad 2 (s / 3600) ++ ':' :: pad 2 (s / 60 % 60) ++ ':' :: pad 2 (s % 60) ++
    if us % second = 0 then [] else '.' :: pad 6 (us % second)

/-- Whether an instant has a date in UTC, that is, in years 1 to 9999. -/
abbrev InRange (i : ℤ) : Prop := 0 ≤ i ∧ i < maxOrdinal * day

/-- An instant in UTC, with offset `+00:00`. -/
def isoformatUtc (i : ℤ) : Option String :=
  if InRange i then
    let (y, m, d) := ord2ymd (i.toNat / day + 1)
    some (String.ofList (pad 4 y ++ '-' :: pad 2 m ++ '-' :: pad 2 d ++ 'T' ::
      printClock (i.toNat % day) ++ "+00:00".toList))
  else none

/-! ## Comparison -/

/-- The instant of an aware date-time, in microseconds from year 1 in UTC. -/
def instant? (t : Datetime) : Option ℤ := t.offset.map fun o => t.clock - o

/-- `a < b`; `none` when only one of them is aware. -/
def lt? (a b : Datetime) : Option Bool :=
  match a.offset, b.offset with
  | some o, some o' => some (decide (a.clock - o < b.clock - o'))
  | none, none => some (decide (a.clock < b.clock))
  | _, _ => none

theorem lt?_of_instant {a b : Datetime} {i j : ℤ} (ha : a.instant? = some i)
    (hb : b.instant? = some j) : a.lt? b = some (decide (i < j)) := by
  obtain ⟨a, _ | o⟩ := a <;> obtain ⟨b, _ | o'⟩ := b <;> simp_all [instant?, lt?]

end Datetime

/-- A string that reads as an aware date-time, with the instant it denotes. -/
structure Timestamp where
  text : String
  instant : ℤ
  reads : (Datetime.fromisoformat text).bind Datetime.instant? = some instant

namespace Timestamp

theorem fromisoformat_text (t : Timestamp) :
    ∃ d, Datetime.fromisoformat t.text = some d ∧ d.instant? = some t.instant :=
  Option.bind_eq_some_iff.1 t.reads

/-- The timestamp a text denotes, if it reads as an aware date-time. -/
def ofText? (text : String) : Option Timestamp :=
  match h : (Datetime.fromisoformat text).bind Datetime.instant? with
  | some i => some ⟨text, i, h⟩
  | none => none

theorem text_ofText? {s : String} {t : Timestamp} (h : ofText? s = some t) : t.text = s := by
  unfold ofText? at h
  split at h
  · cases h
    rfl
  · cases h

/-- The text determines the instant. -/
theorem ext_text {t u : Timestamp} (h : t.text = u.text) : t = u := by
  obtain ⟨t, i, ht⟩ := t
  obtain ⟨u, j, hu⟩ := u
  obtain rfl : t = u := h
  obtain rfl : i = j := Option.some.inj (ht.symm.trans hu)
  rfl

end Timestamp

example : ((Datetime.fromisoformat "2026-01-01T02:00:00.5+02:00").bind Datetime.instant?) =
    ((Datetime.fromisoformat "20260101 000000.500000Z").bind Datetime.instant?) := by decide

example : ((Datetime.fromisoformat "2024-02-29T23:30:00-00:30").bind Datetime.instant?).bind
    Datetime.isoformatUtc = some "2024-03-01T00:00:00+00:00" := by decide
