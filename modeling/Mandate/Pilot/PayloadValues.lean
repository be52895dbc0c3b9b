/-
  How the pilot report reads payloads.

  The auditors apply the source language's conversions to whatever a payload
  holds: `str`, `int`, truth and iteration.  Text is its own `str`.
-/
import Mandate.Domain.Events
import Mandate.Lib.PyDecimal

namespace Mandate

open PyDecimal (CharForms asciiForm readSign digitsValue)

/-- What reading a payload raises. -/
inductive PayloadError where
  | keyError (key : String)
  | attributeError
  | typeError
  | valueError
deriving DecidableEq

/-! ## Text -/

section
variable [Platform]

mutual
/-- `repr`. -/
def reprValue : Json → String
  | .null => "None"
  | .bool b => if b then "True" else "False"
  | .int i => toString i
  | .str s => pyRepr s
  | .arr xs => "[" ++ ", ".intercalate (reprItems xs) ++ "]"
  | .obj fields => "\x7b" ++ ", ".intercalate (reprMembers fields) ++ "\x7d"
def reprItems : List Json → List String
  | [] => []
  | x :: xs => reprValue x :: reprItems xs
def reprMembers : List (String × Json) → List String
  | [] => []
  | (k, x) :: fields => (pyRepr k ++ ": " ++ reprValue x) :: reprMembers fields
end

/-- `str`. -/
def pyStr : Json → String
  | .str s => s
  | v => reprValue v

@[simp] theorem pyStr_str (s : String) : pyStr (.str s) = s := rfl

/-- `str(payload.get(key))`. -/
def Event.memberText (e : Event) (key : String) : String := pyStr ((e.field key).getD .null)

/-- `str` of a member that is there. -/
def Event.text? (e : Event) (key : String) : Option String := (e.field key).map pyStr

end

/-! ## Truth, iteration and members -/

/-- `bool`. -/
def truthy : Json → Bool
  | .null => false
  | .bool b => b
  | .int i => i ≠ 0
  | .str s => s ≠ ""
  | .arr xs => xs ≠ []
  | .obj fields => fields ≠ []

/-- `v or default`, where a missing member is `None`. -/
def orElse (v : Option Json) (default : Json) : Json :=
  match v with
  | some v => if truthy v then v else default
  | none => default

/-- What a loop over a value runs through. -/
def iterate : Json → Except PayloadError (List Json)
  | .arr xs => .ok xs
  | .str s => .ok (s.toList.map fun c => .str (String.singleton c))
  | .obj fields => .ok (fields.map fun f => .str f.1)
  | .null | .bool _ | .int _ => .error .typeError

/-- `v.get(key)`. -/
def getMember (key : String) : Json → Except PayloadError (Option Json)
  | .obj fields => .ok (Dict.getEntries key fields)
  | _ => .error .attributeError

/-- `payload[key]`. -/
def Event.required (e : Event) (key : String) : Except PayloadError Json :=
  match e.field key with
  | some v => .ok v
  | none => .error (.keyError key)

/-! ## Numbers -/

section
variable [CharForms]

/-- White space inside ASCII. -/
def isAsciiSpace (c : Char) : Bool := c = ' ' || (9 ≤ c.toNat && c.toNat ≤ 13)

/-- The most digits a text of a number may have. -/
def maxStrDigits : ℕ := 4300

/-- `int` of a text: digits with single underscores between them. -/
def intOfText (s : String) : Option ℤ := do
  let cs ← s.toList.mapM asciiForm
  let body := ((cs.dropWhile isAsciiSpace).reverse.dropWhile isAsciiSpace).reverse
  let (negative, digits) := readSign body
  let groups := digits.splitOn '_'
  if groups.all (fun g => g ≠ [] && g.all Char.isDigit) && groups.flatten.length ≤ maxStrDigits then
    some (if negative then -(digitsValue groups.flatten : ℤ) else digitsValue groups.flatten)
  else none

/-- `int`. -/
def pyInt : Json → Except PayloadError ℤ
  | .bool b => .ok (if b then 1 else 0)
  | .int i => .ok i
  | .str s =>
    match intOfText s with
    | some i => .ok i
    | none => .error .valueError
  | .null | .arr _ | .obj _ => .error .typeError

end

end Mandate
