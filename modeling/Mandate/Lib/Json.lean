/-
  JSON values and their canonical serialization: object keys sorted by code
  point at every depth, no whitespace, every character outside the printable
  ASCII range escaped.

  * `print` writes a value as it stands, `normalize` sorts the keys, and
    `canonical` is their composition;
  * `print_inj`: the printed form determines the value (a prefix property, so
    that it holds inside arrays and objects);
  * `canonicalBytes_inj`: equal bytes come from values that are equal up to the
    order of keys;
  * `get?_normalize`: sorting keys does not change what a key maps to.
-/
import Mathlib.Data.List.Basic
import Mathlib.Data.List.Sort
import Mathlib.Data.String.Basic
import Mathlib.Tactic.IntervalCases
import Mathlib.Tactic.Tauto
import Mandate.Lib.Dict

/-- A JSON value without fractions: the values a canonical serializer accepts. -/
inductive Json where
  | null
  | bool (b : Bool)
  | int (i : ℤ)
  | str (s : String)
  | arr (xs : List Json)
  | obj (fields : List (String × Json))

namespace Json

/-! ## Text -/

/-- A lower-case hexadecimal digit. -/
def hexDigit (n : ℕ) : Char :=
  if n < 10 then Char.ofNat (48 + n) else Char.ofNat (87 + n)

/-- The escape of one UTF-16 unit. -/
def escapeUnit (n : ℕ) : List Char :=
  ['\\', 'u', hexDigit (n / 4096), hexDigit (n / 256 % 16), hexDigit (n / 16 % 16), hexDigit (n % 16)]

/-- One character of a string: short escapes, printable ASCII as it is, and
    UTF-16 units for the rest (a surrogate pair above the basic plane). -/
def escapeChar (c : Char) : List Char :=
  if c = '"' then ['\\', '"']
  else if c = '\\' then ['\\', '\\']
  else if c = '\n' then ['\\', 'n']
  else if c = '\r' then ['\\', 'r']
  else if c = '\t' then ['\\', 't']
  else if c.toNat = 8 then ['\\', 'b']
  else if c.toNat = 12 then ['\\', 'f']
  else if 32 ≤ c.toNat ∧ c.toNat ≤ 126 then [c]
  else if c.toNat < 65536 then escapeUnit c.toNat
  else escapeUnit (55296 + (c.toNat - 65536) / 1024) ++ escapeUnit (56320 + (c.toNat - 65536) % 1024)

/-- A quoted string. -/
def printChars : List Char → List Char
  | [] => ['"']
  | c :: cs => escapeChar c ++ printChars cs

def printStr (s : String) : List Char := '"' :: printChars s.toList

def printInt : ℤ → List Char
  | .ofNat n => Nat.toDigits 10 n
  | .negSucc n => '-' :: Nat.toDigits 10 (n + 1)

/-- The separator before an element: none before the first. -/
def sep : Bool → List Char
  | true => []
  | false => [',']

mutual
/-- The text of a value, keys in the order they have. -/
def print : Json → List Char
  | .null => ['n', 'u', 'l', 'l']
  | .bool true => ['t', 'r', 'u', 'e']
  | .bool false => ['f', 'a', 'l', 's', 'e']
  | .int i => printInt i
  | .str s => printStr s
  | .arr xs => '[' :: printItems true xs
  | .obj fields => '{' :: printFields true fields
def printItems (first : Bool) : List Json → List Char
  | [] => [']']
  | x :: xs => sep first ++ (print x ++ printItems false xs)
def printFields (first : Bool) : List (String × Json) → List Char
  | [] => ['}']
  | (k, x) :: fs => sep first ++ (printStr k ++ (':' :: (print x ++ printFields false fs)))
end

/-! ## Canonical form -/

/-- Sort the members of an object by key. -/
def sortFields (fields : List (String × Json)) : List (String × Json) :=
  fields.insertionSort fun a b => a.1 ≤ b.1

mutual
/-- The value with the keys of every object sorted. -/
def normalize : Json → Json
  | .null => .null
  | .bool b => .bool b
  | .int i => .int i
  | .str s => .str s
  | .arr xs => .arr (normalizeItems xs)
  | .obj fields => .obj (sortFields (normalizeFields fields))
def normalizeItems : List Json → List Json
  | [] => []
  | x :: xs => normalize x :: normalizeItems xs
def normalizeFields : List (String × Json) → List (String × Json)
  | [] => []
  | (k, x) :: fs => (k, normalize x) :: normalizeFields fs
end

def canonical (v : Json) : List Char := print (normalize v)

/-- The canonical text as ASCII bytes. -/
def canonicalBytes (v : Json) : List UInt8 := (canonical v).map fun c => UInt8.ofNat c.toNat

/-- The member `k` of an object. -/
def get? (k : String) : Json → Option Json
  | .obj fields => Dict.getEntries k fields
  | _ => none

/-! ## Decoding one character -/

def hexVal (c : Char) : ℕ := if c.toNat < 58 then c.toNat - 48 else c.toNat - 87

def unitVal (a b c d : Char) : ℕ := hexVal a * 4096 + hexVal b * 256 + hexVal c * 16 + hexVal d

/-- Read one escaped character back. -/
def unescape : List Char → Option (Char × List Char)
  | '\\' :: 'u' :: a :: b :: c :: d :: rest =>
    let n := unitVal a b c d
    if 55296 ≤ n ∧ n < 56320 then
      match rest with
      | _ :: _ :: e :: f :: g :: h :: rest' =>
        some (Char.ofNat (65536 + (n - 55296) * 1024 + (unitVal e f g h - 56320)), rest')
      | _ => none
    else some (Char.ofNat n, rest)
  | '\\' :: '"' :: rest => some ('"', rest)
  | '\\' :: '\\' :: rest => some ('\\', rest)
  | '\\' :: 'n' :: rest => some ('\n', rest)
  | '\\' :: 'r' :: rest => some ('\r', rest)
  | '\\' :: 't' :: rest => some ('\t', rest)
  | '\\' :: 'b' :: rest => some (Char.ofNat 8, rest)
  | '\\' :: 'f' :: rest => some (Char.ofNat 12, rest)
  | c :: rest => some (c, rest)
  | [] => none

theorem hexVal_hexDigit {n : ℕ} (h : n < 16) : hexVal (hexDigit n) = n := by
  interval_cases n <;> rfl

theorem unitVal_escapeUnit {n : ℕ} (h : n < 65536) :
    unitVal (hexDigit (n / 4096)) (hexDigit (n / 256 % 16)) (hexDigit (n / 16 % 16))
      (hexDigit (n % 16)) = n := by
  rw [unitVal, hexVal_hexDigit (by omega), hexVal_hexDigit (by omega), hexVal_hexDigit (by omega),
    hexVal_hexDigit (by omega)]
  omega

/-- A character is not a surrogate and lies below `0x110000`. -/
theorem toNat_range (c : Char) : c.toNat < 55296 ∨ (57343 < c.toNat ∧ c.toNat < 1114112) := c.valid

theorem unescape_escapeChar (c : Char) (rest : List Char) :
    unescape (escapeChar c ++ rest) = some (c, rest) := by
  have hr := toNat_range c
  unfold escapeChar
  split_ifs with h1 h2 h3 h4 h5 h6 h7 h8 h9
  · subst h1; rfl
  · subst h2; rfl
  · subst h3; rfl
  · subst h4; rfl
  · subst h5; rfl
  · have : c = Char.ofNat 8 := by rw [← h6, Char.ofNat_toNat]
    subst this; rfl
  · have : c = Char.ofNat 12 := by rw [← h7, Char.ofNat_toNat]
    subst this; rfl
  · show unescape (c :: rest) = _
    unfold unescape
    split <;> simp_all
  · simp only [escapeUnit, List.cons_append, List.nil_append, unescape, unitVal_escapeUnit h9]
    rw [if_neg (by omega), Char.ofNat_toNat]
  · have hu : 55296 + (c.toNat - 65536) / 1024 < 65536 := by omega
    have hl : 56320 + (c.toNat - 65536) % 1024 < 65536 := by omega
    simp only [escapeUnit, List.cons_append, List.nil_append, unescape, unitVal_escapeUnit hu,
      unitVal_escapeUnit hl]
    rw [if_pos (by omega)]
    have : 65536 + (55296 + (c.toNat - 65536) / 1024 - 55296) * 1024 +
        (56320 + (c.toNat - 65536) % 1024 - 56320) = c.toNat := by omega
    rw [this, Char.ofNat_toNat]

/-! ## The printed form determines the value -/

theorem escapeChar_append_inj {c d : Char} {x y : List Char}
    (h : escapeChar c ++ x = escapeChar d ++ y) : c = d ∧ x = y := by
  have h' := unescape_escapeChar c x
  rw [h, unescape_escapeChar] at h'
  simpa [eq_comm] using h'

/-- An escaped character does not start with a quote. -/
theorem escapeChar_head (c : Char) (x y : List Char) : escapeChar c ++ x ≠ '"' :: y := by
  unfold escapeChar escapeUnit
  split_ifs with h1 <;> simp_all

theorem printChars_append_inj : ∀ {cs ds x y : List Char},
    printChars cs ++ x = printChars ds ++ y → cs = ds ∧ x = y
  | [], [], x, y, h => by simpa [printChars] using h
  | [], d :: ds, x, y, h => by
    simp only [printChars, List.append_assoc] at h
    exact absurd h.symm (escapeChar_head _ _ _)
  | c :: cs, [], x, y, h => by
    simp only [printChars, List.append_assoc] at h
    exact absurd h (escapeChar_head _ _ _)
  | c :: cs, d :: ds, x, y, h => by
    simp only [printChars, List.append_assoc] at h
    obtain ⟨hc, h⟩ := escapeChar_append_inj h
    obtain ⟨hcs, hx⟩ := printChars_append_inj h
    exact ⟨by rw [hc, hcs], hx⟩

theorem printStr_append_inj {s t : String} {x y : List Char}
    (h : printStr s ++ x = printStr t ++ y) : s = t ∧ x = y := by
  simp only [printStr, List.cons_append, List.cons.injEq, true_and] at h
  obtain ⟨hs, hx⟩ := printChars_append_inj h
  exact ⟨String.toList_inj.1 hs, hx⟩

/-- The characters of a printed integer. -/
def isNum (c : Char) : Bool := c.isDigit || c = '-'

theorem printInt_isNum (i : ℤ) : ∀ c ∈ printInt i, isNum c := by
  intro c hc
  cases i with
  | ofNat n => simp [isNum, Nat.isDigit_of_mem_toDigits (by decide) (by decide) hc]
  | negSucc n =>
    rcases List.mem_cons.1 hc with rfl | hc
    · rfl
    · simp [isNum, Nat.isDigit_of_mem_toDigits (by decide) (by decide) hc]

theorem toDigits_inj {m n : ℕ} (h : Nat.toDigits 10 m = Nat.toDigits 10 n) : m = n := by
  rw [← Nat.ofDigitChars_ten_toDigits (n := m), h, Nat.ofDigitChars_ten_toDigits]

theorem minus_notMem_toDigits (n : ℕ) (x : List Char) : Nat.toDigits 10 n ≠ '-' :: x := by
  intro h
  have := Nat.isDigit_of_mem_toDigits (b := 10) (n := n) (c := '-') (by decide) (by decide)
    (by rw [h]; simp)
  exact absurd this (by decide)

theorem printInt_inj : ∀ {i j : ℤ}, printInt i = printInt j → i = j
  | .ofNat m, .ofNat n, h => by rw [toDigits_inj h]
  | .ofNat m, .negSucc n, h => absurd h (minus_notMem_toDigits m _)
  | .negSucc m, .ofNat n, h => absurd h.symm (minus_notMem_toDigits n _)
  | .negSucc m, .negSucc n, h => by
    simp only [printInt, List.cons.injEq, true_and] at h
    have := toDigits_inj h
    rw [show m = n by omega]

/-- What may follow a value: nothing that would continue an integer. -/
def Stops (x : List Char) : Prop := ∀ c ∈ x.head?, isNum c = false

theorem takeWhile_printInt {i : ℤ} {x : List Char} (hx : Stops x) :
    (printInt i ++ x).takeWhile isNum = printInt i := by
  rw [List.takeWhile_append_of_pos (printInt_isNum i)]
  cases x with
  | nil => simp
  | cons c x => simp [hx c (by simp)]

theorem printInt_append_inj {i j : ℤ} {x y : List Char} (hx : Stops x) (hy : Stops y)
    (h : printInt i ++ x = printInt j ++ y) : i = j ∧ x = y := by
  have hp : printInt i = printInt j := by
    rw [← takeWhile_printInt (i := i) hx, h, takeWhile_printInt hy]
  refine ⟨printInt_inj hp, ?_⟩
  rw [hp] at h
  exact List.append_cancel_left h

/-- The first character of a printed value, by kind of value. -/
def Leads : Json → Char → Prop
  | .null, c => c = 'n'
  | .bool true, c => c = 't'
  | .bool false, c => c = 'f'
  | .int _, c => isNum c
  | .str _, c => c = '"'
  | .arr _, c => c = '['
  | .obj _, c => c = '{'

theorem print_head (v : Json) : ∃ c cs, print v = c :: cs ∧ Leads v c := by
  cases v with
  | null => exact ⟨_, _, by rw [print], rfl⟩
  | bool b => cases b <;> exact ⟨_, _, by rw [print], rfl⟩
  | int i =>
    rw [print]
    cases h : printInt i with
    | nil => cases i <;> simp [printInt, Nat.toDigits_ne_nil] at h
    | cons c cs => exact ⟨c, cs, rfl, printInt_isNum i c (by rw [h]; simp)⟩
  | str s => exact ⟨_, _, by rw [print, printStr], rfl⟩
  | arr xs => exact ⟨_, _, by rw [print], rfl⟩
  | obj fs => exact ⟨_, _, by rw [print], rfl⟩

/-- No value starts with a closing bracket or a comma. -/
theorem print_ne_close (v : Json) {c : Char} (hc : c ∈ [']', '}', ',']) (x y : List Char) :
    print v ++ x ≠ c :: y := by
  intro h
  obtain ⟨d, ds, hv, hl⟩ := print_head v
  rw [hv, List.cons_append, List.cons.injEq] at h
  obtain ⟨rfl, -⟩ := h
  have hnum : isNum d = false := by
    simp only [List.mem_cons, List.not_mem_nil, or_false] at hc
    rcases hc with rfl | rfl | rfl <;> decide
  cases v with
  | bool b => cases b <;> (simp only [Leads] at hl; subst hl; simp at hc)
  | int i => rw [Leads, hnum] at hl; cases hl
  | _ => simp only [Leads] at hl; subst hl; simp at hc

/-- Two values with equal texts start alike. -/
theorem leads_of_eq {v w : Json} {x y : List Char} (h : print v ++ x = print w ++ y) :
    ∃ c, Leads v c ∧ Leads w c := by
  obtain ⟨c, cs, hv, hc⟩ := print_head v
  obtain ⟨d, ds, hw, hd⟩ := print_head w
  rw [hv, hw, List.cons_append, List.cons_append, List.cons.injEq] at h
  exact ⟨c, hc, h.1 ▸ hd⟩

theorem stops_printItems (xs : List Json) (x : List Char) : Stops (printItems false xs ++ x) := by
  cases xs <;> simp [printItems, sep, Stops] <;> decide

theorem stops_printFields (fs : List (String × Json)) (x : List Char) :
    Stops (printFields false fs ++ x) := by
  cases fs <;> simp [printFields, sep, Stops] <;> decide

mutual
/-- A printed value is determined by any text it is a prefix of. -/
theorem print_append_inj : ∀ (v w : Json) {x y : List Char}, Stops x → Stops y →
    print v ++ x = print w ++ y → v = w ∧ x = y
  | .null, w, x, y, _, _, h => by
    obtain ⟨c, hv, hw⟩ := leads_of_eq h
    rw [Leads] at hv; subst hv
    cases w with
    | null => exact ⟨rfl, List.append_cancel_left h⟩
    | bool b => cases b <;> exact absurd hw (by simp [Leads])
    | _ => exact absurd hw (by simp [Leads, isNum])
  | .bool b, w, x, y, _, _, h => by
    obtain ⟨c, hv, hw⟩ := leads_of_eq h
    cases b <;> rw [Leads] at hv <;> subst hv
    all_goals
      cases w with
      | bool b' => cases b' <;> first
          | exact ⟨rfl, List.append_cancel_left h⟩
          | exact absurd hw (by simp [Leads])
      | _ => exact absurd hw (by simp [Leads, isNum])
  | .int i, w, x, y, hx, hy, h => by
    obtain ⟨c, hv, hw⟩ := leads_of_eq h
    rw [Leads] at hv
    cases w with
    | int j =>
      rw [print, print] at h
      obtain ⟨hij, hxy⟩ := printInt_append_inj hx hy h
      exact ⟨by rw [hij], hxy⟩
    | bool b => cases b <;> (rw [Leads] at hw; subst hw; exact absurd hv (by decide))
    | _ => rw [Leads] at hw; subst hw; exact absurd hv (by decide)
  | .str s, w, x, y, _, _, h => by
    obtain ⟨c, hv, hw⟩ := leads_of_eq h
    rw [Leads] at hv; subst hv
    cases w with
    | str t =>
      rw [print, print] at h
      obtain ⟨hst, hxy⟩ := printStr_append_inj h
      exact ⟨by rw [hst], hxy⟩
    | bool b => cases b <;> exact absurd hw (by simp [Leads])
    | _ => exact absurd hw (by simp [Leads, isNum])
  | .arr xs, w, x, y, _, _, h => by
    obtain ⟨c, hv, hw⟩ := leads_of_eq h
    rw [Leads] at hv; subst hv
    cases w with
    | arr ys =>
      simp only [print, List.cons_append, List.cons.injEq, true_and] at h
      obtain ⟨hxs, hxy⟩ := printItems_append_inj true xs ys h
      exact ⟨by rw [hxs], hxy⟩
    | bool b => cases b <;> exact absurd hw (by simp [Leads])
    | _ => exact absurd hw (by simp [Leads, isNum])
  | .obj fs, w, x, y, _, _, h => by
    obtain ⟨c, hv, hw⟩ := leads_of_eq h
    rw [Leads] at hv; subst hv
    cases w with
    | obj gs =>
      simp only [print, List.cons_append, List.cons.injEq, true_and] at h
      obtain ⟨hfs, hxy⟩ := printFields_append_inj true fs gs h
      exact ⟨by rw [hfs], hxy⟩
    | bool b => cases b <;> exact absurd hw (by simp [Leads])
    | _ => exact absurd hw (by simp [Leads, isNum])
theorem printItems_append_inj (first : Bool) : ∀ (xs ys : List Json) {x y : List Char},
    printItems first xs ++ x = printItems first ys ++ y → xs = ys ∧ x = y
  | [], [], x, y, h => ⟨rfl, List.append_cancel_left h⟩
  | [], b :: ys, x, y, h => by
    cases first
    · simp [printItems, sep] at h
    · simp only [printItems, sep, List.nil_append, List.cons_append, List.append_assoc] at h
      exact absurd h.symm (print_ne_close b (by simp) _ _)
  | a :: xs, [], x, y, h => by
    cases first
    · simp [printItems, sep] at h
    · simp only [printItems, sep, List.nil_append, List.cons_append, List.append_assoc] at h
      exact absurd h (print_ne_close a (by simp) _ _)
  | a :: xs, b :: ys, x, y, h => by
    simp only [printItems, List.append_assoc] at h
    obtain ⟨hab, h⟩ := print_append_inj a b (stops_printItems xs x) (stops_printItems ys y)
      (List.append_cancel_left h)
    obtain ⟨hxs, hxy⟩ := printItems_append_inj false xs ys h
    exact ⟨by rw [hab, hxs], hxy⟩
theorem printFields_append_inj (first : Bool) : ∀ (fs gs : List (String × Json)) {x y : List Char},
    printFields first fs ++ x = printFields first gs ++ y → fs = gs ∧ x = y
  | [], [], x, y, h => ⟨rfl, List.append_cancel_left h⟩
  | [], (k, b) :: gs, x, y, h => by
    cases first <;> simp [printFields, sep, printStr] at h
  | (k, a) :: fs, [], x, y, h => by
    cases first <;> simp [printFields, sep, printStr] at h
  | (k, a) :: fs, (l, b) :: gs, x, y, h => by
    simp only [printFields, List.append_assoc, List.cons_append] at h
    obtain ⟨hkl, h⟩ := printStr_append_inj (List.append_cancel_left h)
    obtain ⟨hab, h⟩ := print_append_inj a b (stops_printFields fs x) (stops_printFields gs y)
      (List.cons.inj h).2
    obtain ⟨hfs, hxy⟩ := printFields_append_inj false fs gs h
    exact ⟨by rw [hkl, hab, hfs], hxy⟩
end

/-- The printed form determines the value. -/
theorem print_inj {v w : Json} (h : print v = print w) : v = w :=
  (print_append_inj v w (x := []) (y := []) (by simp [Stops]) (by simp [Stops])
    (by rw [h])).1

/-! ## Canonical bytes -/

theorem toNat_hexDigit {n : ℕ} (h : n < 16) : (hexDigit n).toNat < 128 := by
  interval_cases n <;> decide

theorem escapeUnit_ascii {n : ℕ} (h : n < 65536) : ∀ c ∈ escapeUnit n, c.toNat < 128 := by
  intro c hc
  simp only [escapeUnit, List.mem_cons, List.not_mem_nil, or_false] at hc
  rcases hc with rfl | rfl | rfl | rfl | rfl | rfl
  · decide
  · decide
  all_goals exact toNat_hexDigit (by omega)

theorem escapeChar_ascii (c : Char) : ∀ d ∈ escapeChar c, d.toNat < 128 := by
  have hr := toNat_range c
  intro d hd
  unfold escapeChar at hd
  split_ifs at hd with h1 h2 h3 h4 h5 h6 h7 h8 h9
  · simp only [List.mem_cons, List.not_mem_nil, or_false] at hd; rcases hd with rfl | rfl <;> decide
  · simp only [List.mem_cons, List.not_mem_nil, or_false] at hd; rcases hd with rfl | rfl <;> decide
  · simp only [List.mem_cons, List.not_mem_nil, or_false] at hd; rcases hd with rfl | rfl <;> decide
  · simp only [List.mem_cons, List.not_mem_nil, or_false] at hd; rcases hd with rfl | rfl <;> decide
  · simp only [List.mem_cons, List.not_mem_nil, or_false] at hd; rcases hd with rfl | rfl <;> decide
  · simp only [List.mem_cons, List.not_mem_nil, or_false] at hd; rcases hd with rfl | rfl <;> decide
  · simp only [List.mem_cons, List.not_mem_nil, or_false] at hd; rcases hd with rfl | rfl <;> decide
  · simp only [List.mem_cons, List.not_mem_nil, or_false] at hd; subst hd; omega
  · exact escapeUnit_ascii h9 d hd
  · rcases List.mem_append.1 hd with hd | hd
    · exact escapeUnit_ascii (by omega) d hd
    · exact escapeUnit_ascii (by omega) d hd

theorem printStr_ascii (s : String) : ∀ c ∈ printStr s, c.toNat < 128 := by
  have : ∀ cs : List Char, ∀ c ∈ printChars cs, c.toNat < 128 := by
    intro cs
    induction cs with
    | nil => simp [printChars]
    | cons d ds ih =>
      intro c hc
      rcases List.mem_append.1 hc with hc | hc
      · exact escapeChar_ascii d c hc
      · exact ih c hc
  intro c hc
  rcases List.mem_cons.1 hc with rfl | hc
  · decide
  · exact this _ c hc

theorem printInt_ascii (i : ℤ) : ∀ c ∈ printInt i, c.toNat < 128 := by
  intro c hc
  have := printInt_isNum i c hc
  simp only [isNum, Bool.or_eq_true, decide_eq_true_eq] at this
  rcases this with h | rfl
  · simp only [Char.isDigit, Bool.and_eq_true, decide_eq_true_eq, UInt32.le_iff_toNat_le] at h
    exact lt_of_le_of_lt h.2 (by decide)
  · decide

theorem sep_ascii (first : Bool) : ∀ c ∈ sep first, c.toNat < 128 := by
  cases first <;> simp [sep]

mutual
theorem print_ascii : ∀ (v : Json), ∀ c ∈ print v, c.toNat < 128
  | .null => by simp [print]
  | .bool true => by simp [print]
  | .bool false => by simp [print]
  | .int i => by rw [print]; exact printInt_ascii i
  | .str s => by rw [print]; exact printStr_ascii s
  | .arr xs => by
    intro c hc
    rw [print] at hc
    rcases List.mem_cons.1 hc with rfl | hc
    · decide
    · exact printItems_ascii true xs c hc
  | .obj fs => by
    intro c hc
    rw [print] at hc
    rcases List.mem_cons.1 hc with rfl | hc
    · decide
    · exact printFields_ascii true fs c hc
theorem printItems_ascii (first : Bool) : ∀ (xs : List Json), ∀ c ∈ printItems first xs, c.toNat < 128
  | [] => by simp [printItems]
  | x :: xs => by
    intro c hc
    simp only [printItems, List.mem_append] at hc
    rcases hc with hc | hc | hc
    · exact sep_ascii first c hc
    · exact print_ascii x c hc
    · exact printItems_ascii false xs c hc
theorem printFields_ascii (first : Bool) :
    ∀ (fs : List (String × Json)), ∀ c ∈ printFields first fs, c.toNat < 128
  | [] => by simp [printFields]
  | (k, x) :: fs => by
    intro c hc
    simp only [printFields, List.mem_append, List.mem_cons] at hc
    rcases hc with hc | hc | rfl | hc | hc
    · exact sep_ascii first c hc
    · exact printStr_ascii k c hc
    · decide
    · exact print_ascii x c hc
    · exact printFields_ascii false fs c hc
end

theorem ascii_left_inv {cs : List Char} (h : ∀ c ∈ cs, c.toNat < 128) :
    (cs.map fun c => UInt8.ofNat c.toNat).map (fun b => Char.ofNat b.toNat) = cs := by
  rw [List.map_map]
  refine (List.map_congr_left fun c hc => ?_).trans (List.map_id cs)
  have : c.toNat % 256 = c.toNat := Nat.mod_eq_of_lt (lt_trans (h c hc) (by decide))
  simp only [Function.comp_apply, UInt8.toNat_ofNat', id_eq]
  rw [show (2 ^ 8 : ℕ) = 256 from rfl, this, Char.ofNat_toNat]

/-- Equal bytes come from values that agree up to the order of keys. -/
theorem canonicalBytes_inj {v w : Json} :
    canonicalBytes v = canonicalBytes w ↔ normalize v = normalize w := by
  constructor
  · intro h
    refine print_inj ?_
    rw [← ascii_left_inv (print_ascii (normalize v)), ← ascii_left_inv (print_ascii (normalize w))]
    exact congrArg _ h
  · intro h; rw [canonicalBytes, canonicalBytes, canonical, canonical, h]

/-! ## Members of a normalized object -/

theorem keys_normalizeFields : ∀ fs : List (String × Json),
    (normalizeFields fs).map Prod.fst = fs.map Prod.fst
  | [] => rfl
  | (k, x) :: fs => by rw [normalizeFields, List.map_cons, List.map_cons, keys_normalizeFields fs]

theorem getEntries_normalizeFields (k : String) : ∀ fs : List (String × Json),
    Dict.getEntries k (normalizeFields fs) = (Dict.getEntries k fs).map normalize
  | [] => rfl
  | (l, x) :: fs => by
    unfold normalizeFields Dict.getEntries
    split_ifs
    · rfl
    · exact getEntries_normalizeFields k fs

/-- Sorting the keys does not change what a key maps to. -/
theorem get?_normalize {fs : List (String × Json)} (hn : (fs.map Prod.fst).Nodup) (k : String) :
    (normalize (.obj fs)).get? k = (Dict.getEntries k fs).map normalize := by
  rw [← getEntries_normalizeFields]
  refine Dict.getEntries_perm k (List.perm_insertionSort _ _) ?_
  refine ((List.perm_insertionSort _ (normalizeFields fs)).map Prod.fst).nodup_iff.2 ?_
  rw [keys_normalizeFields]; exact hn

/-- Two normalized objects that agree have the same normalized members. -/
theorem member_inj {fs gs : List (String × Json)} (hf : (fs.map Prod.fst).Nodup)
    (hg : (gs.map Prod.fst).Nodup) (h : normalize (.obj fs) = normalize (.obj gs)) (k : String) :
    (Dict.getEntries k fs).map normalize = (Dict.getEntries k gs).map normalize := by
  rw [← get?_normalize hf, h, get?_normalize hg]

theorem normalize_str_inj {s t : String} (h : normalize (.str s) = normalize (.str t)) : s = t := by
  simpa only [normalize, str.injEq] using h

theorem normalize_int_inj {i j : ℤ} (h : normalize (.int i) = normalize (.int j)) : i = j := by
  simpa only [normalize, int.injEq] using h

theorem normalizeItems_eq_map : ∀ xs : List Json, normalizeItems xs = xs.map normalize
  | [] => rfl
  | x :: xs => by rw [normalizeItems, normalizeItems_eq_map xs, List.map_cons]

/-- Arrays with one canonical form agree item by item. -/
theorem arr_map_inj {α : Type} {f : α → Json} {xs ys : List α}
    (h : normalize (.arr (xs.map f)) = normalize (.arr (ys.map f))) :
    List.Forall₂ (fun x y => normalize (f x) = normalize (f y)) xs ys := by
  rw [normalize, normalize, arr.injEq, normalizeItems_eq_map, normalizeItems_eq_map, List.map_map,
    List.map_map] at h
  rw [← List.forall₂_eq_eq_eq] at h
  simpa only [List.forall₂_map_left_iff, List.forall₂_map_right_iff, Function.comp_apply] using h

/-- Arrays of items that their canonical form determines. -/
theorem arr_eq_of_normalize {α : Type} {f : α → Json}
    (hf : ∀ x y, normalize (f x) = normalize (f y) → x = y) {xs ys : List α}
    (h : normalize (.arr (xs.map f)) = normalize (.arr (ys.map f))) : xs = ys := by
  rw [← List.forall₂_eq_eq_eq]
  exact (arr_map_inj h).imp fun x y => hf x y

theorem normalizeItems_str : ∀ xs : List String, normalizeItems (xs.map .str) = xs.map .str
  | [] => rfl
  | x :: xs => by rw [List.map_cons, normalizeItems, normalize, normalizeItems_str xs]

theorem arr_str_inj {xs ys : List String}
    (h : normalize (.arr (xs.map .str)) = normalize (.arr (ys.map .str))) : xs = ys := by
  rw [normalize, normalize, normalizeItems_str, normalizeItems_str] at h
  exact List.map_injective_iff.2 (fun _ _ => str.inj) (arr.inj h)

end Json
