/-
  Reading JSON text.

  `parse` accepts the JSON grammar over integers: whitespace between tokens,
  all escapes, numbers without fraction or exponent.  Of members with one key
  the last counts.  A value with distinct keys is read back from what `print`
  writes (`parse_print`), and so from its canonical text (`parse_canonical`).
-/
import Mandate.Lib.Json

namespace Json

/-! ## Strings -/

def isSpace (c : Char) : Bool := c = ' ' || c = '\t' || c = '\n' || c = '\r'

def skipSpace (cs : List Char) : List Char := cs.dropWhile isSpace

def hexDigit? (c : Char) : Option ℕ :=
  if '0' ≤ c ∧ c ≤ '9' then some (c.toNat - 48)
  else if 'a' ≤ c ∧ c ≤ 'f' then some (c.toNat - 87)
  else if 'A' ≤ c ∧ c ≤ 'F' then some (c.toNat - 55)
  else none

/-- Four hexadecimal digits. -/
def parseUnit : List Char → Option (ℕ × List Char)
  | a :: b :: c :: d :: rest => do
    return (((← hexDigit? a) * 16 + (← hexDigit? b)) * 256 + (← hexDigit? c) * 16 +
      (← hexDigit? d), rest)
  | _ => none

/-- What follows a backslash.  A high surrogate needs a low one after it. -/
def parseEscape : List Char → Option (Char × List Char)
  | '"' :: rest => some ('"', rest)
  | '\\' :: rest => some ('\\', rest)
  | '/' :: rest => some ('/', rest)
  | 'b' :: rest => some (Char.ofNat 8, rest)
  | 'f' :: rest => some (Char.ofNat 12, rest)
  | 'n' :: rest => some ('\n', rest)
  | 'r' :: rest => some ('\r', rest)
  | 't' :: rest => some ('\t', rest)
  | 'u' :: rest => do
    let (n, rest) ← parseUnit rest
    if n < 55296 ∨ 57343 < n then some (Char.ofNat n, rest)
    else if 56320 ≤ n then none
    else match rest with
      | '\\' :: 'u' :: rest => do
        let (m, rest) ← parseUnit rest
        if 56320 ≤ m ∧ m ≤ 57343 then
          some (Char.ofNat (65536 + (n - 55296) * 1024 + (m - 56320)), rest)
        else none
      | _ => none
  | _ => none

/-- The rest of a string, up to its closing quote. -/
def parseChars : ℕ → List Char → Option (List Char × List Char)
  | 0, _ => none
  | _ + 1, [] => none
  | _ + 1, '"' :: rest => some ([], rest)
  | n + 1, '\\' :: rest => do
    let (c, rest) ← parseEscape rest
    let (cs, rest) ← parseChars n rest
    return (c :: cs, rest)
  | n + 1, c :: rest =>
    if c.toNat < 32 then none
    else do
      let (cs, rest) ← parseChars n rest
      return (c :: cs, rest)

def parseStr (cs : List Char) : Option (String × List Char) :=
  (parseChars cs.length cs).map fun p => (String.ofList p.1, p.2)

/-! ## Numbers -/

/-- Digits without a leading zero. -/
def parseNat (cs : List Char) : Option (ℕ × List Char) :=
  let digits := cs.takeWhile Char.isDigit
  if digits = [] ∨ (digits.head? = some '0' ∧ digits.length ≠ 1) then none
  else some (Nat.ofDigitChars 10 digits 0, cs.dropWhile Char.isDigit)

def parseSigned : List Char → Option (ℤ × List Char)
  | '-' :: cs => (parseNat cs).map fun p => (-(p.1 : ℤ), p.2)
  | cs => (parseNat cs).map fun p => ((p.1 : ℤ), p.2)

/-- An integer; a fraction or an exponent after it makes it none. -/
def parseInt (cs : List Char) : Option (ℤ × List Char) :=
  (parseSigned cs).filter fun p => p.2.head? ∉ [some '.', some 'e', some 'E']

/-! ## Values -/

/-- Members in the order they first occur, with the values they have last. -/
def members (fields : List (String × Json)) : List (String × Json) :=
  fields.foldl (fun es f => Dict.setEntries f.1 f.2 es) []

mutual
def parseValue : ℕ → List Char → Option (Json × List Char)
  | 0, _ => none
  | n + 1, cs =>
    match skipSpace cs with
    | 'n' :: 'u' :: 'l' :: 'l' :: rest => some (.null, rest)
    | 't' :: 'r' :: 'u' :: 'e' :: rest => some (.bool true, rest)
    | 'f' :: 'a' :: 'l' :: 's' :: 'e' :: rest => some (.bool false, rest)
    | '"' :: rest => (parseStr rest).map fun p => (.str p.1, p.2)
    | '[' :: rest =>
      match skipSpace rest with
      | ']' :: rest => some (.arr [], rest)
      | rest => (parseItems n rest).map fun p => (.arr p.1, p.2)
    | '{' :: rest =>
      match skipSpace rest with
      | '}' :: rest => some (.obj [], rest)
      | rest => (parseMembers n rest).map fun p => (.obj (members p.1), p.2)
    | rest => (parseInt rest).map fun p => (.int p.1, p.2)
/-- Items up to the closing bracket. -/
def parseItems : ℕ → List Char → Option (List Json × List Char)
  | 0, _ => none
  | n + 1, cs => do
    let (x, rest) ← parseValue n cs
    match skipSpace rest with
    | ',' :: rest => (parseItems n rest).map fun p => (x :: p.1, p.2)
    | ']' :: rest => some ([x], rest)
    | _ => none
/-- Members up to the closing brace. -/
def parseMembers : ℕ → List Char → Option (List (String × Json) × List Char)
  | 0, _ => none
  | n + 1, cs =>
    match skipSpace cs with
    | '"' :: rest => do
      let (k, rest) ← parseStr rest
      match skipSpace rest with
      | ':' :: rest => do
        let (x, rest) ← parseValue n rest
        match skipSpace rest with
        | ',' :: rest => (parseMembers n rest).map fun p => ((k, x) :: p.1, p.2)
        | '}' :: rest => some ([(k, x)], rest)
        | _ => none
      | _ => none
    | _ => none
end

/-- The value a text denotes. -/
def parse (text : String) : Option Json :=
  (parseValue (text.toList.length + 1) text.toList).bind fun p =>
    if skipSpace p.2 = [] then some p.1 else none

/-! ## Reading back a string -/

theorem hexDigit?_hexDigit {n : ℕ} (h : n < 16) : hexDigit? (hexDigit n) = some n := by
  interval_cases n <;> decide

theorem parseUnit_hexDigits {n : ℕ} (h : n < 65536) (x : List Char) :
    parseUnit (hexDigit (n / 4096) :: hexDigit (n / 256 % 16) :: hexDigit (n / 16 % 16) ::
      hexDigit (n % 16) :: x) = some (n, x) := by
  simp only [parseUnit, hexDigit?_hexDigit (show n / 4096 < 16 by omega),
    hexDigit?_hexDigit (show n / 256 % 16 < 16 by omega),
    hexDigit?_hexDigit (show n / 16 % 16 < 16 by omega),
    hexDigit?_hexDigit (show n % 16 < 16 by omega), Option.bind_eq_bind, Option.bind_some,
    Option.pure_def, Option.some.injEq, Prod.mk.injEq, and_true]
  omega

/-- An escaped character is a plain one, or a backslash and its escape. -/
theorem escapeChar_cases (c : Char) :
    (escapeChar c = [c] ∧ c ≠ '"' ∧ c ≠ '\\' ∧ ¬ c.toNat < 32) ∨
      ∃ e, escapeChar c = '\\' :: e ∧ ∀ x, parseEscape (e ++ x) = some (c, x) := by
  have hr := toNat_range c
  unfold escapeChar
  split_ifs with h1 h2 h3 h4 h5 h6 h7 h8 h9
  · subst h1
    exact .inr ⟨_, rfl, fun x => rfl⟩
  · subst h2
    exact .inr ⟨_, rfl, fun x => rfl⟩
  · subst h3
    exact .inr ⟨_, rfl, fun x => rfl⟩
  · subst h4
    exact .inr ⟨_, rfl, fun x => rfl⟩
  · subst h5
    exact .inr ⟨_, rfl, fun x => rfl⟩
  · obtain rfl : c = Char.ofNat 8 := by rw [← h6, Char.ofNat_toNat]
    exact .inr ⟨_, rfl, fun x => rfl⟩
  · obtain rfl : c = Char.ofNat 12 := by rw [← h7, Char.ofNat_toNat]
    exact .inr ⟨_, rfl, fun x => rfl⟩
  · exact .inl ⟨rfl, h1, h2, by omega⟩
  · refine .inr ⟨_, rfl, fun x => ?_⟩
    have hb : c.toNat < 55296 ∨ 57343 < c.toNat := by omega
    simp only [List.cons_append, List.nil_append, parseEscape, parseUnit_hexDigits h9,
      Option.bind_eq_bind, Option.bind_some, if_pos hb, Char.ofNat_toNat]
  · -- above the basic plane: a surrogate pair
    obtain ⟨hi, hhi⟩ : ∃ hi, hi = 55296 + (c.toNat - 65536) / 1024 := ⟨_, rfl⟩
    obtain ⟨lo, hlo⟩ : ∃ lo, lo = 56320 + (c.toNat - 65536) % 1024 := ⟨_, rfl⟩
    rw [← hhi, ← hlo]
    refine .inr ⟨(escapeUnit hi).tail ++ escapeUnit lo, rfl, fun x => ?_⟩
    have hsurrogate : ¬ (hi < 55296 ∨ 57343 < hi) := by omega
    have hhigh : ¬ 56320 ≤ hi := by omega
    have hlow : 56320 ≤ lo ∧ lo ≤ 57343 := by omega
    have hval : 65536 + (hi - 55296) * 1024 + (lo - 56320) = c.toNat := by omega
    simp only [escapeUnit, List.tail_cons, List.cons_append, List.nil_append, parseEscape,
      parseUnit_hexDigits (show hi < 65536 by omega),
      parseUnit_hexDigits (show lo < 65536 by omega), Option.bind_eq_bind, Option.bind_some,
      if_neg hsurrogate, if_neg hhigh, if_pos hlow, hval, Char.ofNat_toNat]

theorem parseChars_printChars : ∀ (cs : List Char) (n : ℕ) (x : List Char),
    (printChars cs).length ≤ n → parseChars n (printChars cs ++ x) = some (cs, x)
  | [], 0, x, h => by simp [printChars] at h
  | [], n + 1, x, _ => rfl
  | c :: cs, 0, x, h => by
    rcases escapeChar_cases c with ⟨hc, -⟩ | ⟨e, hc, -⟩ <;> simp [printChars, hc] at h
  | c :: cs, n + 1, x, h => by
    rcases escapeChar_cases c with ⟨hc, hquote, hback, hctl⟩ | ⟨e, hc, hparse⟩
    · rw [printChars, hc] at h ⊢
      have ih := parseChars_printChars cs n x (by
        simp only [List.length_append, List.length_cons, List.length_nil] at h
        omega)
      rw [List.append_assoc, List.singleton_append, parseChars, if_neg hctl, ih]
      · rfl
      · exact hquote
      · exact hback
    · rw [printChars, hc] at h ⊢
      have ih := parseChars_printChars cs n x (by
        simp only [List.length_append, List.length_cons] at h
        omega)
      rw [List.append_assoc, List.cons_append, parseChars, hparse]
      simp only [Option.bind_eq_bind, Option.bind_some, ih]
      rfl

theorem parseStr_printStr (s : String) (x : List Char) :
    parseStr (printChars s.toList ++ x) = some (s, x) := by
  rw [parseStr, parseChars_printChars _ _ _ (by rw [List.length_append]; omega), Option.map_some,
    String.ofList_toList]

/-! ## Reading back a number -/

/-- What may follow a value: the end, or a token that closes or separates. -/
def Follows (x : List Char) : Prop := ∀ c ∈ x.head?, c = ',' ∨ c = ']' ∨ c = '}'

theorem follows_printItems (xs : List Json) (x : List Char) :
    Follows (printItems false xs ++ x) := by
  cases xs <;> simp [printItems, sep, Follows]

theorem follows_printFields (fs : List (String × Json)) (x : List Char) :
    Follows (printFields false fs ++ x) := by
  cases fs <;> simp [printFields, sep, Follows]

theorem skipSpace_of_head {c : Char} (hc : isSpace c = false) (x : List Char) :
    skipSpace (c :: x) = c :: x := by
  simp [skipSpace, hc]

theorem toDigits_head {n : ℕ} (h : (Nat.toDigits 10 n).head? = some '0') : n = 0 := by
  induction n using Nat.strong_induction_on with
  | h n ih =>
    rw [Nat.toDigits_eq_if (by decide)] at h
    split_ifs at h with hn
    · revert h
      interval_cases n <;> decide
    · obtain ⟨c, cs, hc⟩ := List.exists_cons_of_ne_nil (Nat.toDigits_ne_nil (b := 10) (n := n / 10))
      have hzero := ih (n / 10) (by omega) (by rw [hc] at h ⊢; exact h)
      omega

theorem parseNat_toDigits (n : ℕ) {x : List Char} (hx : Follows x) :
    parseNat (Nat.toDigits 10 n ++ x) = some (n, x) := by
  have hdigits : ∀ c ∈ Nat.toDigits 10 n, c.isDigit = true := fun c hc =>
    Nat.isDigit_of_mem_toDigits (by decide) (by decide) hc
  have hstop : x.takeWhile Char.isDigit = [] ∧ x.dropWhile Char.isDigit = x := by
    cases x with
    | nil => exact ⟨rfl, rfl⟩
    | cons c x =>
      have hc : c.isDigit = false := by
        rcases hx c rfl with rfl | rfl | rfl <;> decide
      simp [hc]
  have hlead : ¬ (Nat.toDigits 10 n = [] ∨
      ((Nat.toDigits 10 n).head? = some '0' ∧ (Nat.toDigits 10 n).length ≠ 1)) := by
    rintro (hnil | ⟨hzero, hlen⟩)
    · exact Nat.toDigits_ne_nil hnil
    · rw [toDigits_head hzero] at hlen
      exact hlen rfl
  rw [parseNat, List.takeWhile_append_of_pos hdigits, List.dropWhile_append_of_pos hdigits,
    hstop.1, hstop.2, List.append_nil, if_neg hlead, Nat.ofDigitChars_ten_toDigits]

theorem parseSigned_printInt (i : ℤ) {x : List Char} (hx : Follows x) :
    parseSigned (printInt i ++ x) = some (i, x) := by
  cases i with
  | ofNat n =>
    rw [printInt, parseSigned, parseNat_toDigits n hx]
    · rfl
    · intro cs hcs
      obtain ⟨c, ds, hc⟩ := List.exists_cons_of_ne_nil (Nat.toDigits_ne_nil (b := 10) (n := n))
      rw [hc, List.cons_append, List.cons.injEq] at hcs
      rw [hcs.1] at hc
      exact minus_notMem_toDigits n ds hc
  | negSucc n =>
    rw [printInt, List.cons_append, parseSigned, parseNat_toDigits _ hx]
    rfl

theorem parseInt_printInt (i : ℤ) {x : List Char} (hx : Follows x) :
    parseInt (printInt i ++ x) = some (i, x) := by
  have hrest : x.head? ∉ [some '.', some 'e', some 'E'] := by
    cases x with
    | nil => simp
    | cons c x => rcases hx c rfl with rfl | rfl | rfl <;> simp
  rw [parseInt, parseSigned_printInt i hx, Option.filter_some, if_pos (decide_eq_true hrest)]

/-! ## Reading back a value -/

mutual
/-- The keys of every object are distinct. -/
def Distinct : Json → Prop
  | .arr xs => DistinctItems xs
  | .obj fields => (fields.map Prod.fst).Nodup ∧ DistinctFields fields
  | _ => True
def DistinctItems : List Json → Prop
  | [] => True
  | x :: xs => Distinct x ∧ DistinctItems xs
def DistinctFields : List (String × Json) → Prop
  | [] => True
  | (_, x) :: fs => Distinct x ∧ DistinctFields fs
end

theorem setEntries_of_notMem {k : String} {v : Json} : ∀ {es : List (String × Json)},
    k ∉ es.map Prod.fst → Dict.setEntries k v es = es ++ [(k, v)]
  | [], _ => rfl
  | e :: es, h => by
    rw [List.map_cons, List.mem_cons, not_or] at h
    rw [Dict.setEntries, if_neg (Ne.symm h.1), setEntries_of_notMem h.2, List.cons_append]

/-- Members with distinct keys are kept as they stand. -/
theorem members_of_nodup {fs : List (String × Json)} (h : (fs.map Prod.fst).Nodup) :
    members fs = fs := by
  have hfold : ∀ (fs es : List (String × Json)), ((es ++ fs).map Prod.fst).Nodup →
      fs.foldl (fun es f => Dict.setEntries f.1 f.2 es) es = es ++ fs := by
    intro fs
    induction fs with
    | nil => intro es _; simp
    | cons f fs ih =>
      intro es hn
      have hf : f.1 ∉ es.map Prod.fst := by
        intro hm
        rw [List.map_append, List.map_cons] at hn
        exact (List.nodup_append.1 hn).2.2 _ hm _ (by simp) rfl
      rw [List.foldl_cons, setEntries_of_notMem hf, ih _ (by simpa using hn)]
      simp
  exact hfold fs [] h

theorem leads_notSpace {v : Json} {c : Char} (h : Leads v c) : isSpace c = false := by
  cases v with
  | bool b => cases b <;> (rw [Leads] at h; subst h; rfl)
  | int i =>
    have hc : c ≠ ' ' ∧ c ≠ '\t' ∧ c ≠ '\n' ∧ c ≠ '\r' := by
      refine ⟨?_, ?_, ?_, ?_⟩ <;> rintro rfl <;> exact absurd h (by simp [Leads, isNum])
    simp [isSpace, hc]
  | _ => rw [Leads] at h; subst h; rfl

/-- A value is not preceded by space. -/
theorem skipSpace_print (v : Json) (x : List Char) : skipSpace (print v ++ x) = print v ++ x := by
  obtain ⟨c, cs, hv, hc⟩ := print_head v
  rw [hv, List.cons_append, skipSpace_of_head (leads_notSpace hc)]

theorem skipSpace_follows {x : List Char} (h : Follows x) : skipSpace x = x := by
  cases x with
  | nil => rfl
  | cons c x =>
    refine skipSpace_of_head ?_ x
    rcases h c rfl with rfl | rfl | rfl <;> rfl

theorem print_length_pos (v : Json) : 0 < (print v).length := by
  obtain ⟨c, cs, hv, -⟩ := print_head v
  rw [hv]
  exact Nat.succ_pos _

theorem printItems_length_pos (first : Bool) (xs : List Json) :
    0 < (printItems first xs).length := by
  cases xs with
  | nil => simp [printItems]
  | cons x xs =>
    have := print_length_pos x
    simp only [printItems, List.length_append]
    omega

theorem printFields_length_pos (first : Bool) (fs : List (String × Json)) :
    0 < (printFields first fs).length := by
  cases fs with
  | nil => simp [printFields]
  | cons f fs =>
    simp only [printFields, printStr, List.length_append, List.length_cons]
    omega

/-- A printed integer is read as a number, not as another token. -/
theorem parseValue_int (n : ℕ) (i : ℤ) {x : List Char} (hx : Follows x) :
    parseValue (n + 1) (printInt i ++ x) = some (.int i, x) := by
  have hskip : skipSpace (printInt i ++ x) = printInt i ++ x := by
    simpa only [print] using skipSpace_print (.int i) x
  have hhead : ∀ c cs, printInt i ++ x = c :: cs → isNum c = true := by
    intro c cs h
    obtain ⟨d, ds, hv, hd⟩ := print_head (.int i)
    rw [print] at hv
    rw [hv, List.cons_append, List.cons.injEq] at h
    exact h.1 ▸ hd
  have hint := parseInt_printInt i hx
  rw [parseValue, hskip]
  generalize printInt i ++ x = cs at hhead hint
  split
  · exact absurd (hhead _ _ rfl) (by decide)
  · exact absurd (hhead _ _ rfl) (by decide)
  · exact absurd (hhead _ _ rfl) (by decide)
  · exact absurd (hhead _ _ rfl) (by decide)
  · exact absurd (hhead _ _ rfl) (by decide)
  · exact absurd (hhead _ _ rfl) (by decide)
  · rw [hint]
    rfl

theorem parseValue_quote (n : ℕ) (cs : List Char) :
    parseValue (n + 1) ('"' :: cs) = (parseStr cs).map fun p => (.str p.1, p.2) := rfl

/-- An opening bracket that is not closed at once. -/
theorem parseValue_bracket (n : ℕ) {cs : List Char} (h : ∀ y, skipSpace cs ≠ ']' :: y) :
    parseValue (n + 1) ('[' :: cs) =
      (parseItems n (skipSpace cs)).map fun p => (.arr p.1, p.2) := by
  show (match skipSpace cs with
    | ']' :: rest => some (.arr [], rest)
    | rest => (parseItems n rest).map fun p => (.arr p.1, p.2) : Option (Json × List Char)) = _
  split
  · rename_i rest heq
    exact absurd heq (h rest)
  · rfl

theorem parseValue_brace (n : ℕ) {cs : List Char} (h : ∀ y, skipSpace cs ≠ '}' :: y) :
    parseValue (n + 1) ('{' :: cs) =
      (parseMembers n (skipSpace cs)).map fun p => (.obj (members p.1), p.2) := by
  show (match skipSpace cs with
    | '}' :: rest => some (.obj [], rest)
    | rest => (parseMembers n rest).map fun p => (.obj (members p.1), p.2) :
      Option (Json × List Char)) = _
  split
  · rename_i rest heq
    exact absurd heq (h rest)
  · rfl

/-- One member, and what comes after it. -/
theorem parseMembers_member (n : ℕ) (k : String) {cs rest : List Char} {v : Json}
    (hv : parseValue n cs = some (v, rest)) :
    parseMembers (n + 1) (printStr k ++ (':' :: cs)) = match skipSpace rest with
      | ',' :: rest => (parseMembers n rest).map fun p => ((k, v) :: p.1, p.2)
      | '}' :: rest => some ([(k, v)], rest)
      | _ => none := by
  have hkey := parseStr_printStr k (':' :: cs)
  show (do
    let (k, rest) ← parseStr (printChars k.toList ++ (':' :: cs))
    match skipSpace rest with
    | ':' :: rest => do
      let (x, rest) ← parseValue n rest
      match skipSpace rest with
      | ',' :: rest => (parseMembers n rest).map fun p => ((k, x) :: p.1, p.2)
      | '}' :: rest => some ([(k, x)], rest)
      | _ => none
    | _ => none : Option (List (String × Json) × List Char)) = _
  rw [hkey]
  show (do
    let (x, rest) ← parseValue n cs
    match skipSpace rest with
    | ',' :: rest => (parseMembers n rest).map fun p => ((k, x) :: p.1, p.2)
    | '}' :: rest => some ([(k, x)], rest)
    | _ => none : Option (List (String × Json) × List Char)) = _
  rw [hv]
  rfl

mutual
/-- A printed value is read back, whatever follows it. -/
theorem parseValue_print : ∀ (v : Json) (n : ℕ) (x : List Char), (print v).length ≤ n →
    Distinct v → Follows x → parseValue n (print v ++ x) = some (v, x)
  | v, 0, x, h, _, _ => absurd h (Nat.not_le.2 (print_length_pos v))
  | .null, n + 1, x, _, _, _ => by rw [print, parseValue]; rfl
  | .bool true, n + 1, x, _, _, _ => by rw [print, parseValue]; rfl
  | .bool false, n + 1, x, _, _, _ => by rw [print, parseValue]; rfl
  | .int i, n + 1, x, _, _, hx => by rw [print, parseValue_int n i hx]
  | .str s, n + 1, x, _, _, _ => by
    rw [print, printStr, List.cons_append, parseValue_quote, parseStr_printStr]
    rfl
  | .arr [], n + 1, x, _, _, _ => by rw [print, printItems]; rfl
  | .arr (v :: xs), n + 1, x, h, hd, _ => by
    rw [Distinct, DistinctItems] at hd
    rw [print, printItems, sep, List.nil_append, List.length_cons, List.length_append] at h
    have hitems := parseItems_print v xs n x (by omega) hd.1 hd.2
    rw [print, printItems, sep, List.nil_append, List.cons_append, List.append_assoc,
      parseValue_bracket n, skipSpace_print, hitems]
    · rfl
    · intro y
      rw [skipSpace_print]
      exact print_ne_close v (by simp) _ _
  | .obj [], n + 1, x, _, _, _ => by rw [print, printFields]; rfl
  | .obj ((k, v) :: fs), n + 1, x, h, hd, _ => by
    rw [Distinct, DistinctFields] at hd
    simp only [print, printFields, sep, List.nil_append, List.length_cons, List.length_append] at h
    have hfields := parseMembers_print k v fs n x (by omega) hd.2.1 hd.2.2
    have hskip : ∀ y, skipSpace (printStr k ++ y) = printStr k ++ y := fun y =>
      skipSpace_of_head rfl _
    simp only [print, printFields, sep, List.nil_append, List.cons_append, List.append_assoc]
    rw [parseValue_brace n, hskip, hfields]
    · show some (Json.obj (members ((k, v) :: fs)), x) = _
      rw [members_of_nodup hd.1]
    · intro y
      rw [hskip, printStr]
      simp
theorem parseItems_print : ∀ (v : Json) (xs : List Json) (n : ℕ) (x : List Char),
    (print v).length + (printItems false xs).length ≤ n → Distinct v → DistinctItems xs →
    parseItems n (print v ++ (printItems false xs ++ x)) = some (v :: xs, x)
  | v, xs, 0, x, h, _, _ => by
    have := print_length_pos v
    omega
  | v, xs, n + 1, x, h, hv, hxs => by
    have hpos := printItems_length_pos false xs
    have hfirst := parseValue_print v n (printItems false xs ++ x) (by omega) hv
      (follows_printItems xs x)
    rw [parseItems, hfirst]
    simp only [Option.bind_eq_bind, Option.bind_some, skipSpace_follows (follows_printItems xs x)]
    cases xs with
    | nil => rfl
    | cons w ws =>
      rw [DistinctItems] at hxs
      rw [printItems, sep] at h ⊢
      simp only [List.length_append, List.length_cons, List.length_nil] at h
      have hrest := parseItems_print w ws n x (by omega) hxs.1 hxs.2
      simp only [List.cons_append, List.nil_append, List.append_assoc, hrest]
      rfl
theorem parseMembers_print : ∀ (k : String) (v : Json) (fs : List (String × Json)) (n : ℕ)
    (x : List Char), (printStr k).length + (print v).length + (printFields false fs).length ≤ n →
    Distinct v → DistinctFields fs →
    parseMembers n (printStr k ++ (':' :: (print v ++ (printFields false fs ++ x)))) =
      some ((k, v) :: fs, x)
  | k, v, fs, 0, x, h, _, _ => by
    have := print_length_pos v
    omega
  | k, v, fs, n + 1, x, h, hv, hfs => by
    have hpos := printFields_length_pos false fs
    have hfirst := parseValue_print v n (printFields false fs ++ x) (by omega) hv
      (follows_printFields fs x)
    rw [parseMembers_member n k hfirst, skipSpace_follows (follows_printFields fs x)]
    cases fs with
    | nil => rfl
    | cons f gs =>
      rw [DistinctFields] at hfs
      simp only [printFields, sep, List.length_append, List.length_cons, List.length_nil] at h ⊢
      have hrest := parseMembers_print f.1 f.2 gs n x (by omega) hfs.1 hfs.2
      simp only [List.cons_append, List.nil_append, List.append_assoc, hrest]
      rfl
end

/-- A value with distinct keys is read back from what is written of it. -/
theorem parse_print {v : Json} (h : Distinct v) : parse (String.ofList (print v)) = some v := by
  have hv := parseValue_print v ((print v).length + 1) [] (by omega) h (by simp [Follows])
  rw [List.append_nil] at hv
  rw [parse, String.toList_ofList, hv]
  rfl

/-! ## Canonical text -/

theorem distinctItems_iff {xs : List Json} : DistinctItems xs ↔ ∀ x ∈ xs, Distinct x := by
  induction xs with
  | nil => simp [DistinctItems]
  | cons x xs ih => rw [DistinctItems, ih, List.forall_mem_cons]

theorem distinctFields_iff {fs : List (String × Json)} :
    DistinctFields fs ↔ ∀ f ∈ fs, Distinct f.2 := by
  induction fs with
  | nil => simp [DistinctFields]
  | cons f fs ih =>
    obtain ⟨k, x⟩ := f
    rw [DistinctFields, ih, List.forall_mem_cons]

theorem normalizeFields_eq_map (fs : List (String × Json)) :
    normalizeFields fs = fs.map fun f => (f.1, normalize f.2) := by
  induction fs with
  | nil => rfl
  | cons f fs ih =>
    obtain ⟨k, x⟩ := f
    rw [normalizeFields, ih, List.map_cons]

theorem mem_sortFields {f : String × Json} {fs : List (String × Json)} :
    f ∈ sortFields fs ↔ f ∈ fs := List.mem_insertionSort _

theorem nodup_sortFields {fs : List (String × Json)} (h : (fs.map Prod.fst).Nodup) :
    ((sortFields fs).map Prod.fst).Nodup :=
  ((List.perm_insertionSort _ fs).map Prod.fst).nodup_iff.2 h

mutual
theorem distinct_normalize : ∀ v : Json, Distinct v → Distinct (normalize v)
  | .null, h => h
  | .bool _, h => h
  | .int _, h => h
  | .str _, h => h
  | .arr xs, h => by
    rw [Distinct] at h
    rw [normalize, Distinct]
    exact distinctItems_normalize xs h
  | .obj fs, h => by
    rw [Distinct] at h
    rw [normalize, Distinct, distinctFields_iff]
    have hfs := distinctFields_normalize fs h.2
    rw [distinctFields_iff] at hfs
    refine ⟨nodup_sortFields ?_, fun f hf => hfs f (mem_sortFields.1 hf)⟩
    rw [keys_normalizeFields]
    exact h.1
theorem distinctItems_normalize : ∀ xs : List Json,
    DistinctItems xs → DistinctItems (normalizeItems xs)
  | [], h => h
  | x :: xs, h => by
    rw [DistinctItems] at h
    rw [normalizeItems, DistinctItems]
    exact ⟨distinct_normalize x h.1, distinctItems_normalize xs h.2⟩
theorem distinctFields_normalize : ∀ fs : List (String × Json),
    DistinctFields fs → DistinctFields (normalizeFields fs)
  | [], h => h
  | (k, x) :: fs, h => by
    rw [DistinctFields] at h
    rw [normalizeFields, DistinctFields]
    exact ⟨distinct_normalize x h.1, distinctFields_normalize fs h.2⟩
end

/-- The canonical text denotes the value with its keys in order. -/
theorem parse_canonical {v : Json} (h : Distinct v) :
    parse (String.ofList (canonical v)) = some (normalize v) :=
  parse_print (distinct_normalize v h)

theorem pairwise_sortFields (fs : List (String × Json)) :
    (sortFields fs).Pairwise fun a b => a.1 ≤ b.1 := by
  have htotal : Std.Total fun a b : String × Json => a.1 ≤ b.1 :=
    ⟨fun a b => le_total a.1 b.1⟩
  have htrans : IsTrans (String × Json) fun a b => a.1 ≤ b.1 := ⟨fun _ _ _ => le_trans⟩
  exact List.pairwise_insertionSort _ fs

/-- Members in order whose values are normalized stay as they are. -/
theorem normalize_obj_of_sorted {fs : List (String × Json)}
    (hs : fs.Pairwise fun a b => a.1 ≤ b.1) (hf : ∀ f ∈ fs, normalize f.2 = f.2) :
    normalize (.obj fs) = .obj fs := by
  have hmap : normalizeFields fs = fs := by
    rw [normalizeFields_eq_map]
    refine (List.map_congr_left fun f hm => ?_).trans (List.map_id fs)
    rw [hf f hm]
    rfl
  rw [normalize, hmap, sortFields, hs.insertionSort_eq]

mutual
/-- Normalizing once is enough. -/
theorem normalize_normalize : ∀ v : Json, normalize (normalize v) = normalize v
  | .null => rfl
  | .bool _ => rfl
  | .int _ => rfl
  | .str _ => rfl
  | .arr xs => by rw [normalize, normalize, normalizeItems_normalizeItems xs]
  | .obj fs => by
    rw [normalize]
    refine normalize_obj_of_sorted (pairwise_sortFields _) fun f hf => ?_
    exact normalize_normalizeFields fs f (mem_sortFields.1 hf)
theorem normalizeItems_normalizeItems : ∀ xs : List Json,
    normalizeItems (normalizeItems xs) = normalizeItems xs
  | [] => rfl
  | x :: xs => by
    rw [normalizeItems, normalizeItems, normalize_normalize x, normalizeItems_normalizeItems xs]
theorem normalize_normalizeFields : ∀ fs : List (String × Json),
    ∀ f ∈ normalizeFields fs, normalize f.2 = f.2
  | [], f, hf => by cases hf
  | (k, x) :: fs, f, hf => by
    rw [normalizeFields] at hf
    rcases List.mem_cons.1 hf with rfl | hf
    · exact normalize_normalize x
    · exact normalize_normalizeFields fs f hf
end

end Json
