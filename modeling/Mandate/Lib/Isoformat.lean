/-
  What `isoformatUtc` writes is read back: the text of an instant in UTC is the
  date-time with that instant on its clock and no offset.

  * `digits_pad`: a padded number reads as itself;
  * `ymd2ord_ord2ymd`: the date of an ordinal has that ordinal;
  * `fromisoformat_isoformatUtc` puts the date and the clock together.
-/
import Mathlib.Tactic.IntervalCases
import Mathlib.Tactic.Linarith
import Mandate.Lib.Datetime

namespace Datetime

/-! ## Numbers -/

theorem digit?_of_isDigit {c : Char} (h : c.isDigit) : digit? c = some (c.toNat - 48) := by
  simp only [Char.isDigit, Bool.and_eq_true, decide_eq_true_eq, UInt32.le_iff_toNat_le] at h
  exact if_pos h

theorem digits_eq {cs : List Char} (h : ∀ c ∈ cs, c.isDigit) :
    digits cs = some (Nat.ofDigitChars 10 cs 0) := by
  have hfold : ∀ (ds : List Char) (n : ℕ), (∀ c ∈ ds, c.isDigit) →
      ds.foldl (fun acc c => acc.bind fun n => (digit? c).map fun d => 10 * n + d) (some n) =
        some (Nat.ofDigitChars 10 ds n) := by
    intro ds
    induction ds with
    | nil => intro n _; rfl
    | cons c ds ih =>
      intro n hd
      have hc := digit?_of_isDigit (hd c (by simp))
      simp only [List.foldl_cons, Option.bind_some, hc, Option.map_some]
      exact ih _ fun c' hc' => hd c' (List.mem_cons_of_mem _ hc')
  exact hfold cs 0 h

theorem isDigit_pad {width n : ℕ} : ∀ c ∈ pad width n, c.isDigit := by
  intro c hc
  rw [pad, List.leftpad] at hc
  rcases List.mem_append.1 hc with hc | hc
  · rw [(List.mem_replicate.1 hc).2]
    decide
  · exact Nat.isDigit_of_mem_toDigits (by decide) (by decide) hc

theorem digits_pad (width n : ℕ) : digits (pad width n) = some n := by
  rw [digits_eq isDigit_pad, pad, List.leftpad, Nat.ofDigitChars_append,
    Nat.ofDigitChars_replicate_zero, Nat.mul_zero, Nat.ofDigitChars_ten_toDigits]

theorem length_pad {width n : ℕ} (hw : 0 < width) (h : n < 10 ^ width) :
    (pad width n).length = width := by
  have hlen := (Nat.length_toDigits_le_iff (by decide) hw).2 h
  rw [pad, List.leftpad, List.length_append, List.length_replicate]
  omega

theorem pad_two {n : ℕ} (h : n < 100) :
    ∃ a b : Char, pad 2 n = [a, b] ∧ (∀ c ∈ [a, b], c.isDigit) ∧ digits [a, b] = some n := by
  obtain ⟨a, b, hp⟩ := List.length_eq_two.1 (length_pad (by decide) h)
  exact ⟨a, b, hp, hp ▸ isDigit_pad, hp ▸ digits_pad 2 n⟩

theorem pad_four {n : ℕ} (h : n < 10000) : ∃ a b c d : Char, pad 4 n = [a, b, c, d] ∧
    (∀ x ∈ [a, b, c, d], x.isDigit) ∧ digits [a, b, c, d] = some n := by
  have hl : (pad 4 n).length = 4 := length_pad (by decide) h
  match hp : pad 4 n, hl with
  | [a, b, c, d], _ => exact ⟨a, b, c, d, rfl, hp ▸ isDigit_pad, hp ▸ digits_pad 4 n⟩

/-! ## Dates -/

theorem daysBeforeYear_succ {y : ℕ} (hy : 1 ≤ y) :
    daysBeforeYear (y + 1) = daysBeforeYear y + if isLeap y then 366 else 365 := by
  obtain ⟨k, rfl⟩ := Nat.exists_eq_add_of_le' hy
  have hleap : isLeap (k + 1) = true ↔ 4 ∣ k + 1 ∧ (¬ 100 ∣ k + 1 ∨ 400 ∣ k + 1) := by
    simp [isLeap, Nat.dvd_iff_mod_eq_zero]
  have h100 : 100 ∣ k + 1 → 4 ∣ k + 1 := fun h => dvd_trans (by decide) h
  have h400 : 400 ∣ k + 1 → 100 ∣ k + 1 := fun h => dvd_trans (by decide) h
  have hle : k / 100 ≤ k / 4 := Nat.div_le_div_left (by decide) (by decide)
  simp only [daysBeforeYear, Nat.add_sub_cancel, Nat.succ_div, hleap]
  by_cases h₁ : 4 ∣ k + 1
  · by_cases h₂ : 100 ∣ k + 1
    · by_cases h₃ : 400 ∣ k + 1
      · simp only [h₁, h₂, h₃, if_true, not_true_eq_false, false_or, and_self]
        omega
      · simp only [h₁, h₂, h₃, if_true, if_false, not_true_eq_false, or_self, and_false]
        omega
    · simp only [h₁, h₂, mt h400 h₂, if_true, if_false, not_false_eq_true, true_or, and_self]
      omega
  · simp only [h₁, mt h100 h₁, mt h400 (mt h100 h₁), if_false, false_and]
    omega

/-- A year has 365.2425 days, give or take. -/
theorem daysBeforeYear_bounds (k : ℕ) :
    146097 * k ≤ 400 * daysBeforeYear (k + 1) + 699 ∧
      400 * daysBeforeYear (k + 1) ≤ 146097 * k + 396 := by
  have hle : k / 100 ≤ k / 4 := Nat.div_le_div_left (by decide) (by decide)
  simp only [daysBeforeYear, Nat.add_sub_cancel]
  omega

/-- The year of a day is the one it lies in. -/
theorem yearOf_spec (n : ℕ) :
    1 ≤ yearOf n ∧ daysBeforeYear (yearOf n) ≤ n ∧ n < daysBeforeYear (yearOf n + 1) := by
  obtain ⟨q, hq⟩ : ∃ q, q = n * 400 / 146097 := ⟨_, rfl⟩
  have hafter := (daysBeforeYear_bounds (q + 2)).1
  unfold yearOf
  rw [← hq]
  dsimp only
  split_ifs with h₁ h₂
  · refine ⟨by omega, h₁, ?_⟩
    rw [show q + 1 + 1 + 1 = q + 2 + 1 by omega]
    omega
  · obtain ⟨p, rfl⟩ : ∃ p, q = p + 1 := by
      refine Nat.exists_eq_add_of_le' (Nat.pos_of_ne_zero ?_)
      rintro rfl
      simp [daysBeforeYear] at h₂
    have hbefore := (daysBeforeYear_bounds p).2
    rw [Nat.add_sub_cancel]
    refine ⟨by omega, by omega, h₂⟩
  · exact ⟨by omega, by omega, by omega⟩

theorem yearOf_le {n : ℕ} (h : n < maxOrdinal) : yearOf n ≤ 9999 := by
  obtain ⟨-, hle, -⟩ := yearOf_spec n
  by_contra hgt
  simp only [daysBeforeYear, maxOrdinal] at hle h
  omega

/-- The month that a day of a year lies in, by whether the year is leap. -/
theorem month_spec {y n : ℕ} (h : n < if isLeap y then 366 else 365) :
    let m := (List.range 12).countP fun k => daysBeforeMonth y (k + 1) ≤ n
    1 ≤ m ∧ m ≤ 12 ∧ daysBeforeMonth y m ≤ n ∧ n < daysBeforeMonth y m + daysInMonth y m := by
  have key : ∀ (leap : Bool) (n : ℕ), (n < if leap then 366 else 365) →
      let inMonth := fun m => if m = 2 then (if leap then 29 else 28)
        else if m = 4 || m = 6 || m = 9 || m = 11 then 30 else 31
      let before := fun m => ((List.range (m - 1)).map fun k => inMonth (k + 1)).sum
      let m := (List.range 12).countP fun k => before (k + 1) ≤ n
      1 ≤ m ∧ m ≤ 12 ∧ before m ≤ n ∧ n < before m + inMonth m := by
    intro leap n hn
    have hn' : n < 366 := by
      split_ifs at hn <;> omega
    revert hn hn' n leap
    decide +kernel
  exact key (isLeap y) n h

theorem ymd2ord_ord2ymd {ord y m d : ℕ} (h : 1 ≤ ord) (hmax : ord ≤ maxOrdinal)
    (heq : ord2ymd ord = (y, m, d)) : ymd2ord y m d = some ord := by
  obtain ⟨hy, hle, hlt⟩ := yearOf_spec (ord - 1)
  have hymax := yearOf_le (n := ord - 1) (by omega)
  rw [daysBeforeYear_succ hy] at hlt
  obtain ⟨hm, hm', hdm, hdm'⟩ := month_spec (y := yearOf (ord - 1))
    (n := ord - 1 - daysBeforeYear (yearOf (ord - 1))) (by omega)
  simp only [ord2ymd, Prod.mk.injEq] at heq
  obtain ⟨rfl, rfl, rfl⟩ := heq
  rw [ymd2ord, if_pos ⟨hy, hymax, hm, hm', by omega, by omega⟩]
  congr 1
  omega

/-! ## The clock -/

/-- The characters of a clock. -/
theorem mem_printClock {us : ℕ} : ∀ c ∈ printClock us, c.isDigit ∨ c = ':' ∨ c = '.' := by
  intro c hc
  unfold printClock at hc
  simp only [List.mem_append, List.mem_cons] at hc
  rcases hc with ((h | rfl | h) | rfl | h) | h
  · exact .inl (isDigit_pad c h)
  · exact .inr (.inl rfl)
  · exact .inl (isDigit_pad c h)
  · exact .inr (.inl rfl)
  · exact .inl (isDigit_pad c h)
  · split_ifs at h
    · cases h
    · rcases List.mem_cons.1 h with rfl | h
      · exact .inr (.inr rfl)
      · exact .inl (isDigit_pad c h)

theorem isZone_of_isDigit {c : Char} (h : c.isDigit) : isZone c = false := by
  have hd : c ≠ '-' ∧ c ≠ '+' ∧ c ≠ 'Z' := by
    refine ⟨?_, ?_, ?_⟩ <;> rintro rfl <;> revert h <;> decide
  simp [isZone, hd.1, hd.2.1, hd.2.2]

theorem isZone_printClock {us : ℕ} : ∀ c ∈ printClock us, isZone c = false := by
  intro c hc
  rcases mem_printClock c hc with h | rfl | rfl
  · exact isZone_of_isDigit h
  · rfl
  · rfl

theorem parseFraction_pad {us : ℕ} (h : us < 1000000) : parseFraction (pad 6 us) = some us := by
  have hl : (pad 6 us).length = 6 := length_pad (by decide) h
  have hne : pad 6 us ≠ [] := by
    intro hnil
    rw [hnil] at hl
    cases hl
  have ht : (pad 6 us).take 6 = pad 6 us := List.take_of_length_le hl.le
  rw [parseFraction, if_neg hne, ht, digits_pad, hl]
  simp

/-- The clock is read back, component by component. -/
theorem parseClock_printClock {us : ℕ} (h : us < day) :
    parseClock (printClock us) =
      some (us / second / 3600, us / second / 60 % 60, us / second % 60, us % second) := by
  have hsec : us / second < 86400 := by
    simp only [day, second] at h ⊢
    omega
  obtain ⟨a, b, hh, -, hhour⟩ := pad_two (n := us / second / 3600) (by omega)
  obtain ⟨c, d, hm, -, hmin⟩ := pad_two (n := us / second / 60 % 60) (by omega)
  obtain ⟨e, f, hs, -, hseconds⟩ := pad_two (n := us / second % 60) (by omega)
  have hfrac := @parseFraction_pad (us % second) (Nat.mod_lt _ (by decide))
  unfold printClock
  dsimp only
  rw [hh, hm, hs]
  split_ifs with hz
  · rw [hz]
    show (do return (← digits [a, b], ← digits [c, d], ← digits [e, f], 0)) = _
    rw [hhour, hmin, hseconds]
    rfl
  · show (do return (← digits [a, b], ← digits [c, d], ← digits [e, f],
      ← parseFraction (pad 6 (us % second)))) = _
    rw [hhour, hmin, hseconds, hfrac]
    rfl

theorem micros_parts (us : ℕ) :
    micros (us / second / 3600, us / second / 60 % 60, us / second % 60, us % second) = us := by
  simp only [micros, second]
  omega

/-- The clock with an offset is read back. -/
theorem parseTime_printClock_zone {us : ℕ} (h : us < day) {sign : Char} {rest : List Char}
    {offset : ℤ} (hs : isZone sign = true) (ho : parseOffset sign rest = some offset) :
    parseTime (printClock us ++ sign :: rest) = some (us, some offset) := by
  have hzone : ∀ c ∈ printClock us, (!isZone c) = true := fun c hc => by
    rw [isZone_printClock c hc]
    rfl
  have htake : (printClock us ++ sign :: rest).takeWhile (fun c => !isZone c) = printClock us := by
    rw [List.takeWhile_append_of_pos hzone]
    simp [hs]
  have hdrop : (printClock us ++ sign :: rest).dropWhile (fun c => !isZone c) = sign :: rest := by
    rw [List.dropWhile_append_of_pos hzone]
    simp [hs]
  have hsec : us / second < 86400 := by
    simp only [day, second] at h ⊢
    omega
  have hbounds : ¬ (24 ≤ us / second / 3600 ∨ 60 ≤ us / second / 60 % 60 ∨
      60 ≤ us / second % 60) := by omega
  rw [parseTime, htake, hdrop, parseClock_printClock h]
  simp only [Option.bind_eq_bind, Option.bind_some, if_neg hbounds, micros_parts, ho]
  rfl

/-- The clock with the offset of UTC is read back. -/
theorem parseTime_printClock {us : ℕ} (h : us < day) :
    parseTime (printClock us ++ "+00:00".toList) = some (us, some 0) :=
  parseTime_printClock_zone h (by decide) (by decide)

/-! ## The whole text -/

theorem ymd2ord_bounds {y m d ord : ℕ} (h : ymd2ord y m d = some ord) :
    y < 10000 ∧ m < 100 ∧ d < 100 := by
  unfold ymd2ord at h
  split_ifs at h with hr
  obtain ⟨-, hy, -, hm, -, hd⟩ := hr
  have hdays : daysInMonth y m ≤ 31 := by
    unfold daysInMonth
    split_ifs <;> omega
  omega

/-- A date and a time are read apart. -/
theorem fromisoformat_parts {y m d ord us : ℕ} {time : List Char} {offset : Option ℤ}
    (hdate : ymd2ord y m d = some ord) (htime : parseTime time = some (us, offset)) :
    fromisoformat (String.ofList (pad 4 y ++ '-' :: pad 2 m ++ '-' :: pad 2 d ++ 'T' :: time)) =
      some ⟨(ord - 1) * day + us, offset⟩ := by
  obtain ⟨hy, hm, hd⟩ := ymd2ord_bounds hdate
  obtain ⟨a, b, c, e, hpy, -, hyear⟩ := pad_four hy
  obtain ⟨f, g, hpm, hdigit, hmonth⟩ := pad_two hm
  obtain ⟨p, q, hpd, -, hdayOf⟩ := pad_two hd
  have hne : time ≠ [] := by
    rintro rfl
    cases htime
  have hW : f ≠ 'W' := by
    rintro rfl
    exact absurd (hdigit 'W' (by simp)) (by decide)
  obtain ⟨t, ts, rfl⟩ := List.exists_cons_of_ne_nil hne
  have hsep : separatorAt (a :: b :: c :: e :: '-' :: f :: g :: '-' :: p :: q :: 'T' :: t :: ts) =
      10 := by
    simp [separatorAt, hW]
  have hparse : parseDate [a, b, c, e, '-', f, g, '-', p, q] = some ord := by
    simp only [parseDate, List.length_cons, List.length_nil, List.take, List.drop,
      List.getElem?_cons_succ, List.getElem?_cons_zero, List.head?_cons, Option.some.injEq, hyear,
      hmonth, hdayOf, hW, hdate, Option.bind_eq_bind, Option.bind_some, if_true, if_false,
      Nat.reduceAdd, Nat.reduceLT]
  rw [hpy, hpm, hpd, fromisoformat, String.toList_ofList]
  simp only [List.cons_append, List.nil_append, hsep, List.take_succ_cons, List.take_zero,
    List.drop_succ_cons, List.drop_zero, List.length_cons, hparse, htime, Option.bind_eq_bind,
    Option.bind_some]
  rw [if_neg (by omega)]
  rfl

/-- The parts of what is written. -/
theorem isoformatUtc_parts {i : ℤ} {s : String} (h : isoformatUtc i = some s) :
    ∃ y m d ord us : ℕ, ymd2ord y m d = some ord ∧ us < day ∧ ((ord : ℤ) - 1) * day + us = i ∧
      s.toList = pad 4 y ++ '-' :: pad 2 m ++ '-' :: pad 2 d ++ 'T' :: printClock us ++
        "+00:00".toList := by
  unfold isoformatUtc at h
  split_ifs at h with hi
  obtain ⟨n, rfl⟩ := Int.eq_ofNat_of_zero_le hi.1
  have hn : n < maxOrdinal * day := by exact_mod_cast hi.2
  have hdays : n / day < maxOrdinal := Nat.div_lt_of_lt_mul (by rwa [Nat.mul_comm] at hn)
  rw [Int.toNat_natCast] at h
  obtain ⟨y, m, d, hymd⟩ : ∃ y m d, ord2ymd (n / day + 1) = (y, m, d) := ⟨_, _, _, rfl⟩
  rw [hymd, Option.some.injEq] at h
  refine ⟨y, m, d, n / day + 1, n % day, ymd2ord_ord2ymd (Nat.succ_pos _) hdays hymd,
    Nat.mod_lt _ (by decide), ?_, by rw [← h, String.toList_ofList]⟩
  have hsplit := Nat.div_add_mod' n day
  rw [Nat.cast_succ, add_sub_cancel_right]
  exact_mod_cast hsplit

/-- The characters of what is written before the offset. -/
theorem mem_printed {y m d us : ℕ} {c : Char}
    (h : c ∈ pad 4 y ++ '-' :: pad 2 m ++ '-' :: pad 2 d ++ 'T' :: printClock us) :
    c.isDigit ∨ c ∈ ['-', 'T', ':', '.'] := by
  simp only [List.mem_append, List.mem_cons] at h
  rcases h with ((h | rfl | h) | rfl | h) | rfl | h
  · exact .inl (isDigit_pad c h)
  · exact .inr (by simp)
  · exact .inl (isDigit_pad c h)
  · exact .inr (by simp)
  · exact .inl (isDigit_pad c h)
  · exact .inr (by simp)
  · rcases mem_printClock c h with h | rfl | rfl
    · exact .inl h
    · exact .inr (by simp)
    · exact .inr (by simp)

/-- What is written of an instant reads as that instant in UTC. -/
theorem fromisoformat_isoformatUtc {i : ℤ} {s : String} (h : isoformatUtc i = some s) :
    fromisoformat s = some ⟨i, some 0⟩ := by
  obtain ⟨y, m, d, ord, us, hdate, hus, rfl, hs⟩ := isoformatUtc_parts h
  have hread := fromisoformat_parts hdate (parseTime_printClock hus)
  rw [← String.ofList_toList (s := s), hs]
  simp only [List.cons_append, List.append_assoc] at hread ⊢
  exact hread

end Datetime
