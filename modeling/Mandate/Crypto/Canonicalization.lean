/-
  The canonicalizer on Python values.

  `reject` guards the serializer and does not look into tuples; `dumps` writes
  tuples as lists and keys of any scalar type as text.  A value is refused or
  written as its canonical JSON exactly when nothing unfit is hidden in a tuple
  and no integer is too long to write (`canonicalizes_iff`).
-/
import Mathlib.Data.Rat.Defs
import Mandate.Domain.Validation
import Mandate.Lib.JsonParse

namespace Mandate

/-- What serialization needs of the floats: the value, unless it is infinite or
    not a number, and the text. -/
class PyFloat (φ : Type) where
  value : φ → Option ℚ
  repr : φ → String

/-- A scalar key of a dictionary. -/
inductive PyKey (φ : Type) where
  | none
  | bool (b : Bool)
  | int (i : ℤ)
  | float (f : φ)
  | str (s : String)

inductive PyValue (φ : Type) where
  | none
  | bool (b : Bool)
  | int (i : ℤ)
  | float (f : φ)
  | str (s : String)
  | list (items : List (PyValue φ))
  | tuple (items : List (PyValue φ))
  | dict (entries : List (PyKey φ × PyValue φ))

variable {φ : Type}

/-! ## The guard -/

mutual
/-- `_reject_non_serializable`. -/
def reject : PyValue φ → Except PyError Unit
  | .float _ => .error
    (.valueError "canonical serialization forbids floats (money is integer minor units)")
  | .dict entries => rejectEntries entries
  | .list items => rejectItems items
  | .none | .bool _ | .int _ | .str _ | .tuple _ => .ok ()
def rejectEntries : List (PyKey φ × PyValue φ) → Except PyError Unit
  | [] => .ok ()
  | (.str _, item) :: entries => do
    reject item
    rejectEntries entries
  | (_, _) :: _ => .error .typeError
def rejectItems : List (PyValue φ) → Except PyError Unit
  | [] => .ok ()
  | item :: items => do
    reject item
    rejectItems items
end

/-! ## The serializer -/

section
variable [PyFloat φ] (maxDigits : ℕ)

/-- More digits than the interpreter writes; there is no limit when it is 0. -/
def TooLong (i : ℤ) : Prop := maxDigits ≠ 0 ∧ maxDigits < (Nat.toDigits 10 i.natAbs).length

instance (i : ℤ) : Decidable (TooLong maxDigits i) := inferInstanceAs (Decidable (_ ∧ _))

def intText (i : ℤ) : Except PyError (List Char) :=
  if TooLong maxDigits i then .error (.valueError
    s!"Exceeds the limit ({maxDigits} digits) for integer string conversion")
  else .ok (Json.printInt i)

def floatText (f : φ) : Except PyError (List Char) :=
  match PyFloat.value f with
  | some _ => .ok (PyFloat.repr f).toList
  | none => .error (.valueError
    s!"Out of range float values are not JSON compliant: {PyFloat.repr f}")

/-- The text a key is written as, before it is quoted. -/
def keyText : PyKey φ → Except PyError (List Char)
  | .none => .ok "null".toList
  | .bool true => .ok "true".toList
  | .bool false => .ok "false".toList
  | .int i => intText maxDigits i
  | .float f => floatText f
  | .str s => .ok s.toList

def PyKey.isStr : PyKey φ → Bool
  | .str _ => true
  | _ => false

/-- The value of a number among the keys; truth values are numbers. -/
def PyKey.number? : PyKey φ → Option ℚ
  | .bool b => some (if b then 1 else 0)
  | .int i => some i
  | .float f => some ((PyFloat.value f).getD 0)
  | .none | .str _ => Option.none

/-- The keys can be compared with one another: all are strings, or all numbers. -/
def Comparable (keys : List (PyKey φ)) : Bool :=
  keys.length < 2 || keys.all PyKey.isStr || keys.all fun k => k.number?.isSome

/-- The order of comparable keys.  Where it puts a float that is not finite
    does not matter: such a key is not written. -/
def PyKey.le : PyKey φ → PyKey φ → Bool
  | .str s, .str t => s ≤ t
  | k, l => k.number?.getD 0 ≤ l.number?.getD 0

/-- `sorted(dct.items())`. -/
def sortItems {β : Type} (items : List (PyKey φ × β)) : Except PyError (List (PyKey φ × β)) :=
  if Comparable (items.map Prod.fst) then .ok (items.insertionSort fun a b => a.1.le b.1)
  else .error .typeError

/-- Texts with commas between them and a bracket after them. -/
def joinTexts (close : Char) :
    Bool → List (Except PyError (List Char)) → Except PyError (List Char)
  | _, [] => .ok [close]
  | first, text :: texts => do
    let head ← text
    return Json.sep first ++ (head ++ (← joinTexts close false texts))

/-- The text of a key of any length. -/
def PyKey.text : PyKey φ → String
  | .none => "null"
  | .bool true => "true"
  | .bool false => "false"
  | .int i => String.ofList (Json.printInt i)
  | .float f => PyFloat.repr f
  | .str s => s

/-- A member of an object. -/
def memberText (member : PyKey φ × Except PyError (List Char)) : Except PyError (List Char) := do
  let key ← keyText maxDigits member.1
  return '"' :: Json.printChars key ++ ':' :: (← member.2)

mutual
/-- `json.dumps` with sorted keys, no white space, and ASCII only. -/
def dumps : PyValue φ → Except PyError (List Char)
  | .none => .ok "null".toList
  | .bool true => .ok "true".toList
  | .bool false => .ok "false".toList
  | .int i => intText maxDigits i
  | .float f => floatText f
  | .str s => .ok (Json.printStr s)
  | .list items => do return '[' :: (← joinTexts ']' true (dumpsItems items))
  | .tuple items => do return '[' :: (← joinTexts ']' true (dumpsItems items))
  | .dict entries => do
    let items ← sortItems (dumpsEntries entries)
    return '{' :: (← joinTexts '}' true (items.map (memberText maxDigits)))
def dumpsItems : List (PyValue φ) → List (Except PyError (List Char))
  | [] => []
  | item :: items => dumps item :: dumpsItems items
def dumpsEntries : List (PyKey φ × PyValue φ) → List (PyKey φ × Except PyError (List Char))
  | [] => []
  | (key, item) :: entries => (key, dumps item) :: dumpsEntries entries
end

/-- `canonical_bytes`. -/
def PyValue.canonicalBytes (value : PyValue φ) : Except PyError Bytes := do
  reject value
  return (← dumps maxDigits value).map fun c => UInt8.ofNat c.toNat

end

/-! ## What is fit for canonical JSON -/

mutual
/-- The JSON value of a Python value, in which tuples are lists; there is none
    when a float or a key that is not a string occurs in it. -/
def PyValue.json? : PyValue φ → Option Json
  | .none => some .null
  | .bool b => some (.bool b)
  | .int i => some (.int i)
  | .float _ => Option.none
  | .str s => some (.str s)
  | .list items => do return .arr (← jsonItems? items)
  | .tuple items => do return .arr (← jsonItems? items)
  | .dict entries => do return .obj (← jsonEntries? entries)
def jsonItems? : List (PyValue φ) → Option (List Json)
  | [] => some []
  | item :: items => do return (← item.json?) :: (← jsonItems? items)
def jsonEntries? : List (PyKey φ × PyValue φ) → Option (List (String × Json))
  | [] => some []
  | (.str key, item) :: entries => do return (key, ← item.json?) :: (← jsonEntries? entries)
  | (_, _) :: _ => Option.none
end

mutual
/-- The value with every key replaced by its text. -/
def PyValue.keyed [PyFloat φ] : PyValue φ → PyValue φ
  | .list items => .list (keyedItems items)
  | .tuple items => .tuple (keyedItems items)
  | .dict entries => .dict (keyedEntries entries)
  | .none => .none
  | .bool b => .bool b
  | .int i => .int i
  | .float f => .float f
  | .str s => .str s
def keyedItems [PyFloat φ] : List (PyValue φ) → List (PyValue φ)
  | [] => []
  | item :: items => item.keyed :: keyedItems items
def keyedEntries [PyFloat φ] : List (PyKey φ × PyValue φ) → List (PyKey φ × PyValue φ)
  | [] => []
  | (key, item) :: entries => (.str key.text, item.keyed) :: keyedEntries entries
end

mutual
/-- The guard meets a float or a key that is not a string: one that is not in a
    tuple. -/
def Seen : PyValue φ → Prop
  | .float _ => True
  | .list items => SeenItems items
  | .dict entries => SeenEntries entries
  | .none | .bool _ | .int _ | .str _ | .tuple _ => False
def SeenItems : List (PyValue φ) → Prop
  | [] => False
  | item :: items => Seen item ∨ SeenItems items
def SeenEntries : List (PyKey φ × PyValue φ) → Prop
  | [] => False
  | (key, item) :: entries => key.isStr = false ∨ Seen item ∨ SeenEntries entries
end

section
variable [PyFloat φ] (maxDigits : ℕ)

def SerializerRefusesKey : PyKey φ → Prop
  | .int i => TooLong maxDigits i
  | .float f => PyFloat.value f = Option.none
  | .none | .bool _ | .str _ => False

mutual
/-- The serializer itself refuses the value: for a float that is not finite, an
    integer that is too long, or keys of one dictionary that cannot be
    compared. -/
def SerializerRefuses : PyValue φ → Prop
  | .int i => TooLong maxDigits i
  | .float f => PyFloat.value f = Option.none
  | .list items => SerializerRefusesItems items
  | .tuple items => SerializerRefusesItems items
  | .dict entries => Comparable (entries.map Prod.fst) = false ∨ SerializerRefusesEntries entries
  | .none | .bool _ | .str _ => False
def SerializerRefusesItems : List (PyValue φ) → Prop
  | [] => False
  | item :: items => SerializerRefuses item ∨ SerializerRefusesItems items
def SerializerRefusesEntries : List (PyKey φ × PyValue φ) → Prop
  | [] => False
  | (key, item) :: entries => SerializerRefusesKey maxDigits key ∨ SerializerRefuses item ∨
      SerializerRefusesEntries entries
end

/-- A float or a key that is not a string makes `canonical_bytes` raise
    `ValueError` or `TypeError`; without one it returns the canonical JSON. -/
def Canonicalizes (value : PyValue φ) : Prop :=
  match value.json? with
  | none => value.canonicalBytes maxDigits = .error .typeError ∨
      ∃ m, value.canonicalBytes maxDigits = .error (.valueError m)
  | some json => value.canonicalBytes maxDigits = .ok (Json.canonicalBytes json)

/-- A float or a key that is not a string occurs exactly when the guard meets
    one or the serializer refuses the value. -/
def NothingHidden (value : PyValue φ) : Prop :=
  value.json? = none ↔ Seen value ∨ SerializerRefuses maxDigits value


/-! ## The guard and what it meets -/

/-- A failure is a `ValueError` or a `TypeError`. -/
def Proper {α : Type} (x : Except PyError α) : Prop :=
  ∀ e, x = .error e → e = .typeError ∨ ∃ m, e = .valueError m

theorem Proper.ok {α : Type} (a : α) : Proper (.ok a) := fun _ h => nomatch h

theorem Proper.bind {α β : Type} {x : Except PyError α} {f : α → Except PyError β}
    (hx : Proper x) (hf : ∀ a, Proper (f a)) : Proper (x >>= f) := by
  intro e h
  cases x with
  | error e' =>
    cases h
    exact hx _ rfl
  | ok a => exact hf a e h

omit [PyFloat φ] in
mutual
theorem reject_ok : ∀ v : PyValue φ, reject v = .ok () ↔ ¬ Seen v
  | .float _ => by simp [reject, Seen]
  | .dict entries => by rw [reject, Seen, rejectEntries_ok entries]
  | .list items => by rw [reject, Seen, rejectItems_ok items]
  | .none | .bool _ | .int _ | .str _ | .tuple _ => by simp [reject, Seen]
theorem rejectItems_ok : ∀ items : List (PyValue φ), rejectItems items = .ok () ↔ ¬ SeenItems items
  | [] => by simp [rejectItems, SeenItems]
  | item :: items => by
    rw [rejectItems, bind_ok, SeenItems, not_or, ← reject_ok item, ← rejectItems_ok items]
    exact ⟨fun ⟨_, h⟩ => h, fun h => ⟨(), h⟩⟩
theorem rejectEntries_ok : ∀ entries : List (PyKey φ × PyValue φ),
    rejectEntries entries = .ok () ↔ ¬ SeenEntries entries
  | [] => by simp [rejectEntries, SeenEntries]
  | (.str _, item) :: entries => by
    rw [rejectEntries, bind_ok, SeenEntries, not_or, not_or, ← reject_ok item,
      ← rejectEntries_ok entries]
    exact ⟨fun ⟨_, h⟩ => ⟨by simp [PyKey.isStr], h⟩, fun h => ⟨(), h.2⟩⟩
  | (.none, _) :: _ | (.bool _, _) :: _ | (.int _, _) :: _ | (.float _, _) :: _ => by
    simp [rejectEntries, SeenEntries, PyKey.isStr]
end

omit [PyFloat φ] in
mutual
theorem reject_proper : ∀ v : PyValue φ, Proper (reject v)
  | .float _ => fun _ h => .inr ⟨_, (Except.error.inj h).symm⟩
  | .dict entries => rejectEntries_proper entries
  | .list items => rejectItems_proper items
  | .none | .bool _ | .int _ | .str _ | .tuple _ => Proper.ok ()
theorem rejectItems_proper : ∀ items : List (PyValue φ), Proper (rejectItems items)
  | [] => Proper.ok ()
  | item :: items => (reject_proper item).bind fun _ => rejectItems_proper items
theorem rejectEntries_proper : ∀ entries : List (PyKey φ × PyValue φ),
    Proper (rejectEntries entries)
  | [] => Proper.ok ()
  | (.str _, item) :: entries => (reject_proper item).bind fun _ => rejectEntries_proper entries
  | (.none, _) :: _ | (.bool _, _) :: _ | (.int _, _) :: _ | (.float _, _) :: _ =>
    fun _ h => .inl (Except.error.inj h).symm
end

/-! ## When the serializer returns -/

theorem intText_isOk {i : ℤ} : (∃ t, intText maxDigits i = .ok t) ↔ ¬ TooLong maxDigits i := by
  rw [intText]
  split_ifs with h <;> simp [h]

theorem floatText_isOk {f : φ} : (∃ t, floatText f = .ok t) ↔ PyFloat.value f ≠ none := by
  rw [floatText]
  cases PyFloat.value f <;> simp

theorem keyText_isOk {key : PyKey φ} :
    (∃ t, keyText maxDigits key = .ok t) ↔ ¬ SerializerRefusesKey maxDigits key := by
  cases key with
  | none => simp [keyText, SerializerRefusesKey]
  | bool b => cases b <;> simp [keyText, SerializerRefusesKey]
  | int i => exact intText_isOk maxDigits
  | float f => exact floatText_isOk
  | str s => simp [keyText, SerializerRefusesKey]

omit [PyFloat φ] in
theorem joinTexts_isOk {close : Char} {first : Bool} {texts : List (Except PyError (List Char))} :
    (∃ t, joinTexts close first texts = .ok t) ↔ ∀ x ∈ texts, ∃ t, x = .ok t := by
  induction texts generalizing first with
  | nil => simp [joinTexts]
  | cons text texts ih =>
    simp only [joinTexts, bind_ok, List.forall_mem_cons, ← @ih false]
    constructor
    · rintro ⟨t, u, hu, v, hv, -⟩
      exact ⟨⟨u, hu⟩, v, hv⟩
    · rintro ⟨⟨u, hu⟩, v, hv⟩
      exact ⟨_, u, hu, v, hv, rfl⟩

theorem memberText_isOk {key : PyKey φ} {x : Except PyError (List Char)} :
    (∃ t, memberText maxDigits (key, x) = .ok t) ↔
      ¬ SerializerRefusesKey maxDigits key ∧ ∃ t, x = .ok t := by
  rw [← keyText_isOk]
  simp only [memberText, bind_ok]
  constructor
  · rintro ⟨t, u, hu, v, hv, -⟩
    exact ⟨⟨u, hu⟩, v, hv⟩
  · rintro ⟨⟨u, hu⟩, v, hv⟩
    exact ⟨_, u, hu, v, hv, rfl⟩

theorem keys_dumpsEntries (entries : List (PyKey φ × PyValue φ)) :
    (dumpsEntries maxDigits entries).map Prod.fst = entries.map Prod.fst := by
  induction entries with
  | nil => rfl
  | cons entry entries ih =>
    obtain ⟨key, item⟩ := entry
    rw [dumpsEntries, List.map_cons, List.map_cons, ih]

mutual
theorem dumps_isOk : ∀ v : PyValue φ,
    (∃ t, dumps maxDigits v = .ok t) ↔ ¬ SerializerRefuses maxDigits v
  | .none => by simp [dumps, SerializerRefuses]
  | .bool true => by simp [dumps, SerializerRefuses]
  | .bool false => by simp [dumps, SerializerRefuses]
  | .str _ => by simp [dumps, SerializerRefuses]
  | .int _ => intText_isOk maxDigits
  | .float _ => floatText_isOk
  | .list items => by
    rw [dumps, SerializerRefuses, ← dumpsItems_isOk items, ← @joinTexts_isOk ']' true]
    simp only [bind_ok]
    exact ⟨fun ⟨_, u, hu, _⟩ => ⟨u, hu⟩, fun ⟨u, hu⟩ => ⟨_, u, hu, rfl⟩⟩
  | .tuple items => by
    rw [dumps, SerializerRefuses, ← dumpsItems_isOk items, ← @joinTexts_isOk ']' true]
    simp only [bind_ok]
    exact ⟨fun ⟨_, u, hu, _⟩ => ⟨u, hu⟩, fun ⟨u, hu⟩ => ⟨_, u, hu, rfl⟩⟩
  | .dict entries => by
    have hmembers := dumpsEntries_isOk entries
    rw [dumps, SerializerRefuses, not_or, ← hmembers, sortItems, keys_dumpsEntries]
    cases Comparable (entries.map Prod.fst) with
    | false => simp [bind, Except.bind]
    | true =>
      simp only [↓reduceIte, bind_ok, Except.ok.injEq, exists_eq_left', Bool.true_eq_false,
        not_false_eq_true, true_and]
      refine Iff.trans ⟨fun ⟨_, u, hu, _⟩ => ⟨u, hu⟩, fun ⟨u, hu⟩ => ⟨_, u, hu, rfl⟩⟩
        (joinTexts_isOk.trans ?_)
      simp only [List.forall_mem_map, List.mem_insertionSort]
theorem dumpsItems_isOk : ∀ items : List (PyValue φ),
    (∀ x ∈ dumpsItems maxDigits items, ∃ t, x = .ok t) ↔ ¬ SerializerRefusesItems maxDigits items
  | [] => by simp [dumpsItems, SerializerRefusesItems]
  | item :: items => by
    rw [dumpsItems, SerializerRefusesItems, List.forall_mem_cons, not_or, dumps_isOk item,
      dumpsItems_isOk items]
theorem dumpsEntries_isOk : ∀ entries : List (PyKey φ × PyValue φ),
    (∀ m ∈ dumpsEntries maxDigits entries, ∃ t, memberText maxDigits m = .ok t) ↔
      ¬ SerializerRefusesEntries maxDigits entries
  | [] => by simp [dumpsEntries, SerializerRefusesEntries]
  | (key, item) :: entries => by
    rw [dumpsEntries, SerializerRefusesEntries, List.forall_mem_cons, not_or, not_or,
      memberText_isOk,
      dumps_isOk item, dumpsEntries_isOk entries, and_assoc]
end

theorem floatText_proper (f : φ) : Proper (floatText f) := by
  rw [floatText]
  cases PyFloat.value f with
  | none => exact fun _ h => .inr ⟨_, (Except.error.inj h).symm⟩
  | some _ => exact .ok _

theorem intText_proper (i : ℤ) : Proper (intText maxDigits i) := by
  rw [intText]
  split_ifs
  · exact fun _ h => .inr ⟨_, (Except.error.inj h).symm⟩
  · exact .ok _

theorem keyText_proper (key : PyKey φ) : Proper (keyText maxDigits key) := by
  cases key with
  | none => exact .ok _
  | bool b => cases b <;> exact .ok _
  | int i => exact intText_proper maxDigits i
  | float f => exact floatText_proper f
  | str s => exact .ok _

omit [PyFloat φ] in
theorem joinTexts_proper {close : Char} {first : Bool} {texts : List (Except PyError (List Char))}
    (h : ∀ x ∈ texts, Proper x) : Proper (joinTexts close first texts) := by
  induction texts generalizing first with
  | nil => exact .ok _
  | cons text texts ih =>
    obtain ⟨htext, htexts⟩ := List.forall_mem_cons.1 h
    exact htext.bind fun _ => (ih htexts).bind fun _ => .ok _

mutual
theorem dumps_proper : ∀ v : PyValue φ, Proper (dumps maxDigits v)
  | .none | .bool true | .bool false | .str _ => Proper.ok _
  | .int i => intText_proper maxDigits i
  | .float f => floatText_proper f
  | .list items | .tuple items =>
    (joinTexts_proper (dumpsItems_proper items)).bind fun _ => .ok _
  | .dict entries => by
    rw [dumps, sortItems]
    split_ifs
    · refine (joinTexts_proper ?_).bind fun _ => .ok _
      simp only [List.forall_mem_map, List.mem_insertionSort]
      exact dumpsEntries_proper entries
    · exact fun _ h => .inl (Except.error.inj h).symm
theorem dumpsItems_proper : ∀ items : List (PyValue φ), ∀ x ∈ dumpsItems maxDigits items, Proper x
  | [] => by simp [dumpsItems]
  | item :: items => by
    rw [dumpsItems, List.forall_mem_cons]
    exact ⟨dumps_proper item, dumpsItems_proper items⟩
theorem dumpsEntries_proper : ∀ entries : List (PyKey φ × PyValue φ),
    ∀ m ∈ dumpsEntries maxDigits entries, Proper (memberText maxDigits m)
  | [] => by simp [dumpsEntries]
  | (key, item) :: entries => by
    rw [dumpsEntries, List.forall_mem_cons]
    exact ⟨(keyText_proper maxDigits key).bind fun _ => (dumps_proper item).bind fun _ => .ok _,
      dumpsEntries_proper entries⟩
end

/-! ## What the serializer returns -/

/-- The texts with commas between them and a bracket after them. -/
def joined (close : Char) : Bool → List (List Char) → List Char
  | _, [] => [close]
  | first, text :: texts => Json.sep first ++ (text ++ joined close false texts)

omit [PyFloat φ] in
theorem joinTexts_eq {close : Char} {first : Bool} (texts : List (List Char)) :
    joinTexts close first (texts.map .ok) = .ok (joined close first texts) := by
  induction texts generalizing first with
  | nil => rfl
  | cons text texts ih =>
    rw [List.map_cons, joinTexts, ih]
    rfl

omit [PyFloat φ] in
theorem printItems_eq {first : Bool} (xs : List Json) :
    Json.printItems first xs = joined ']' first (xs.map Json.print) := by
  induction xs generalizing first with
  | nil => rfl
  | cons x xs ih => rw [Json.printItems, List.map_cons, joined, ih]

omit [PyFloat φ] in
theorem printFields_eq {first : Bool} (fields : List (String × Json)) :
    Json.printFields first fields =
      joined '}' first (fields.map fun f => Json.printStr f.1 ++ ':' :: Json.print f.2) := by
  induction fields generalizing first with
  | nil => rfl
  | cons f fields ih =>
    obtain ⟨k, x⟩ := f
    rw [Json.printFields, List.map_cons, joined, ih]
    simp

omit [PyFloat φ] in
theorem canonical_arr (xs : List Json) :
    Json.canonical (.arr xs) = '[' :: joined ']' true (xs.map Json.canonical) := by
  rw [Json.canonical, Json.normalize, Json.print, printItems_eq, Json.normalizeItems_eq_map,
    List.map_map]
  rfl

omit [PyFloat φ] in
theorem canonical_obj (fields : List (String × Json)) :
    Json.canonical (.obj fields) = '{' :: joined '}' true
      ((fields.insertionSort fun a b => a.1 ≤ b.1).map fun f =>
        Json.printStr f.1 ++ ':' :: Json.canonical f.2) := by
  have hsort : Json.sortFields (Json.normalizeFields fields) =
      (fields.insertionSort fun a b => a.1 ≤ b.1).map fun f => (f.1, f.2.normalize) := by
    rw [Json.normalizeFields_eq_map, Json.sortFields]
    exact (List.map_insertionSort (fun a b : String × Json => a.1 ≤ b.1) (fun a b => a.1 ≤ b.1)
      (fun f => (f.1, f.2.normalize)) fields fun _ _ _ _ => Iff.rfl).symm
  rw [Json.canonical, Json.normalize, Json.print, hsort, printFields_eq, List.map_map]
  rfl

omit [PyFloat φ] in
theorem joinItems_eq (js : List Json) :
    joinTexts ']' true (js.map fun j => .ok (Json.canonical j)) =
      .ok (joined ']' true (js.map Json.canonical)) := by
  rw [← joinTexts_eq, List.map_map]
  rfl

/-- A member of an object with what is written of its value. -/
def written (f : String × Json) : PyKey φ × Except PyError (List Char) :=
  (.str f.1, .ok (Json.canonical f.2))

theorem sortItems_written (fields : List (String × Json)) :
    sortItems (fields.map (written (φ := φ))) =
      .ok ((fields.insertionSort fun a b => a.1 ≤ b.1).map written) := by
  have hkeys : Comparable ((fields.map (written (φ := φ))).map Prod.fst) = true := by
    simp [Comparable, PyKey.isStr, written]
  have hsort := List.map_insertionSort (fun a b : String × Json => a.1 ≤ b.1)
    (fun a b : PyKey φ × Except PyError (List Char) => a.1.le b.1) written fields
    fun a _ b _ => by simp [written, PyKey.le]
  rw [sortItems, if_pos hkeys, hsort]

theorem joinMembers_eq (fields : List (String × Json)) :
    joinTexts '}' true ((fields.map (written (φ := φ))).map (memberText maxDigits)) =
      .ok (joined '}' true (fields.map fun f =>
        Json.printStr f.1 ++ ':' :: Json.canonical f.2)) := by
  rw [← joinTexts_eq, List.map_map, List.map_map]
  refine congrArg _ (List.map_congr_left fun f _ => ?_)
  simp [written, memberText, keyText, Json.printStr, bind, Except.bind, pure, Except.pure]

mutual
theorem dumps_eq : ∀ (v : PyValue φ) {json : Json}, v.json? = some json →
    ¬ SerializerRefuses maxDigits v → dumps maxDigits v = .ok (Json.canonical json)
  | .none, _, h, _ => by
    cases h
    rfl
  | .bool b, _, h, _ => by
    cases h
    cases b <;> rfl
  | .int i, _, h, hr => by
    cases h
    exact if_neg hr
  | .float _, _, h, _ => nomatch h
  | .str _, _, h, _ => by
    cases h
    rfl
  | .list items, _, h, hr | .tuple items, _, h, hr => by
    rw [PyValue.json?] at h
    obtain ⟨js, hjs, h⟩ := Option.bind_eq_some_iff.1 h
    cases h
    rw [dumps, dumpsItems_eq items hjs hr, joinItems_eq, canonical_arr]
    rfl
  | .dict entries, _, h, hr => by
    rw [PyValue.json?] at h
    obtain ⟨fields, hfields, h⟩ := Option.bind_eq_some_iff.1 h
    cases h
    rw [dumps, dumpsEntries_eq entries hfields (not_or.1 hr).2, sortItems_written, canonical_obj]
    simp only [bind, Except.bind, joinMembers_eq]
    rfl
theorem dumpsItems_eq : ∀ (items : List (PyValue φ)) {js : List Json},
    jsonItems? items = some js → ¬ SerializerRefusesItems maxDigits items →
      dumpsItems maxDigits items = js.map fun j => .ok (Json.canonical j)
  | [], _, h, _ => by
    cases h
    rfl
  | item :: items, _, h, hr => by
    rw [jsonItems?] at h
    obtain ⟨j, hj, h⟩ := Option.bind_eq_some_iff.1 h
    obtain ⟨js, hjs, h⟩ := Option.bind_eq_some_iff.1 h
    cases h
    obtain ⟨hitem, hitems⟩ := not_or.1 hr
    rw [dumpsItems, dumps_eq item hj hitem, dumpsItems_eq items hjs hitems, List.map_cons]
theorem dumpsEntries_eq : ∀ (entries : List (PyKey φ × PyValue φ)) {fields : List (String × Json)},
    jsonEntries? entries = some fields → ¬ SerializerRefusesEntries maxDigits entries →
      dumpsEntries maxDigits entries = fields.map written
  | [], _, h, _ => by
    cases h
    rfl
  | (.str key, item) :: entries, _, h, hr => by
    rw [jsonEntries?] at h
    obtain ⟨j, hj, h⟩ := Option.bind_eq_some_iff.1 h
    obtain ⟨fields, hfields, h⟩ := Option.bind_eq_some_iff.1 h
    cases h
    obtain ⟨-, hr⟩ := not_or.1 hr
    obtain ⟨hitem, hentries⟩ := not_or.1 hr
    rw [dumpsEntries, dumps_eq item hj hitem, dumpsEntries_eq entries hfields hentries,
      List.map_cons]
    rfl
  | (.none, _) :: _, _, h, _ | (.bool _, _) :: _, _, h, _ | (.int _, _) :: _, _, h, _
  | (.float _, _) :: _, _, h, _ => nomatch h
end

/-! ## Exactness -/

theorem canonicalBytes_isOk {v : PyValue φ} :
    (∃ b, v.canonicalBytes maxDigits = .ok b) ↔ ¬ (Seen v ∨ SerializerRefuses maxDigits v) := by
  rw [not_or, ← reject_ok, ← dumps_isOk]
  simp only [PyValue.canonicalBytes, bind_ok]
  exact ⟨fun ⟨_, (), h, t, ht, _⟩ => ⟨h, t, ht⟩, fun ⟨h, t, ht⟩ => ⟨_, (), h, t, ht, rfl⟩⟩

theorem canonicalBytes_proper (v : PyValue φ) : Proper (v.canonicalBytes maxDigits) :=
  (reject_proper v).bind fun _ => (dumps_proper maxDigits v).bind fun _ => .ok _

/-- The value raises exactly when the guard or the serializer refuses it. -/
theorem canonicalBytes_raises {v : PyValue φ} :
    (v.canonicalBytes maxDigits = .error .typeError ∨
      ∃ m, v.canonicalBytes maxDigits = .error (.valueError m)) ↔
      Seen v ∨ SerializerRefuses maxDigits v := by
  rw [← not_iff_not, ← canonicalBytes_isOk]
  have hproper := canonicalBytes_proper maxDigits v
  cases hv : v.canonicalBytes maxDigits with
  | ok b => simp
  | error e => rcases hproper e hv with rfl | ⟨m, rfl⟩ <;> simp

theorem canonicalBytes_eq {v : PyValue φ} {json : Json} (h : v.json? = some json)
    (hs : ¬ Seen v) (hr : ¬ SerializerRefuses maxDigits v) :
    v.canonicalBytes maxDigits = .ok (Json.canonicalBytes json) := by
  rw [PyValue.canonicalBytes, (reject_ok v).2 hs, dumps_eq maxDigits v h hr]
  rfl

mutual
/-- In a value fit for JSON every key is its own text. -/
theorem keyed_of_json : ∀ (v : PyValue φ) {json : Json}, v.json? = some json → v.keyed = v
  | .none, _, _ | .bool _, _, _ | .int _, _, _ | .float _, _, _ | .str _, _, _ => rfl
  | .list items, _, h | .tuple items, _, h => by
    rw [PyValue.json?] at h
    obtain ⟨js, hjs, -⟩ := Option.bind_eq_some_iff.1 h
    rw [PyValue.keyed, keyedItems_of_json items hjs]
  | .dict entries, _, h => by
    rw [PyValue.json?] at h
    obtain ⟨fields, hfields, -⟩ := Option.bind_eq_some_iff.1 h
    rw [PyValue.keyed, keyedEntries_of_json entries hfields]
theorem keyedItems_of_json : ∀ (items : List (PyValue φ)) {js : List Json},
    jsonItems? items = some js → keyedItems items = items
  | [], _, _ => rfl
  | item :: items, _, h => by
    rw [jsonItems?] at h
    obtain ⟨j, hj, h⟩ := Option.bind_eq_some_iff.1 h
    obtain ⟨js, hjs, -⟩ := Option.bind_eq_some_iff.1 h
    rw [keyedItems, keyed_of_json item hj, keyedItems_of_json items hjs]
theorem keyedEntries_of_json : ∀ (entries : List (PyKey φ × PyValue φ))
    {fields : List (String × Json)}, jsonEntries? entries = some fields →
      keyedEntries entries = entries
  | [], _, _ => rfl
  | (.str key, item) :: entries, _, h => by
    rw [jsonEntries?] at h
    obtain ⟨j, hj, h⟩ := Option.bind_eq_some_iff.1 h
    obtain ⟨fields, hfields, -⟩ := Option.bind_eq_some_iff.1 h
    rw [keyedEntries, keyed_of_json item hj, keyedEntries_of_json entries hfields, PyKey.text]
  | (.none, _) :: _, _, h | (.bool _, _) :: _, _, h | (.int _, _) :: _, _, h
  | (.float _, _) :: _, _, h => nomatch h
end

/-- The canonicalizer treats a value as documented exactly when nothing unfit is
    hidden in it and nothing fit is refused; and two such values that differ
    only in the types of their keys never have the same bytes. -/
theorem canonicalizes_iff (maxDigits : ℕ) (value : PyValue φ) :
    (Canonicalizes maxDigits value ↔ NothingHidden maxDigits value) ∧
      ∀ other bytes, NothingHidden maxDigits value → NothingHidden maxDigits other →
        value.keyed = other.keyed → value.canonicalBytes maxDigits = .ok bytes →
          other.canonicalBytes maxDigits = .ok bytes → value = other := by
  have hfit : ∀ {v : PyValue φ} {bytes}, NothingHidden maxDigits v →
      v.canonicalBytes maxDigits = .ok bytes → v.keyed = v := by
    intro v bytes hv hok
    have hnot := (canonicalBytes_isOk maxDigits).1 ⟨bytes, hok⟩
    obtain ⟨json, hjson⟩ := Option.ne_none_iff_exists'.1 fun hnone => hnot (hv.1 hnone)
    exact keyed_of_json v hjson
  refine ⟨?_, fun other bytes hv hw hkeyed hvb hwb => ?_⟩
  · unfold Canonicalizes NothingHidden
    cases hj : value.json? with
    | none =>
      rw [canonicalBytes_raises]
      simp
    | some json =>
      simp only [reduceCtorEq, false_iff]
      constructor
      · intro h
        exact (canonicalBytes_isOk maxDigits).1 ⟨_, h⟩
      · intro h
        exact canonicalBytes_eq maxDigits hj (fun hs => h (.inl hs)) fun hr => h (.inr hr)
  · rw [← hfit hv hvb, hkeyed, hfit hw hwb]

end

/-- One float, 1.5. -/
@[reducible] def Sample.oneAndAHalf : PyFloat Unit := ⟨fun _ => some (3 / 2), fun _ => "1.5"⟩

section
attribute [local instance] Sample.oneAndAHalf

/-- In a tuple a float is written, and keys 1 and "1" are written alike. -/
theorem tuple_hides :
    (PyValue.tuple [.float ()]).canonicalBytes 4300 = .ok [91, 49, 46, 53, 93] ∧
    ¬ Canonicalizes 4300 (.tuple [.float ()]) ∧
    (PyValue.tuple [.dict [(.int 1, .int 0)]] : PyValue Unit).canonicalBytes 4300 =
      .ok (Json.canonicalBytes (.arr [.obj [("1", .int 0)]])) ∧
    (PyValue.tuple [.dict [(.str "1", .int 0)]] : PyValue Unit).canonicalBytes 4300 =
      .ok (Json.canonicalBytes (.arr [.obj [("1", .int 0)]])) ∧
    ¬ Canonicalizes 4300 (.tuple [.dict [(.int 1, .int 0)]] : PyValue Unit) := by
  refine ⟨rfl, ?_, rfl, rfl, ?_⟩
  · rintro (h | ⟨m, h⟩) <;> cases h
  · rintro (h | ⟨m, h⟩) <;> cases h

end

end Mandate
