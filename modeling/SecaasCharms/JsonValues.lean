import SecaasCharms.CharmActions

/-!
# Decoded JSON values as Python prints and subscripts them

`json.loads` and `Response.json` give `None`, booleans, numbers, strings,
lists and dictionaries.  A float is kept as the text that `repr` gives it.
The last part is what ops makes of the dictionary of an action's results.
-/

namespace SecaasCharms

open TextLines

inductive Json where
  | null
  | bool (value : Bool)
  | int (value : ℤ)
  | float (shown : Text)
  | str (text : Text)
  | arr (items : List Json)
  | obj (fields : List (Text × Json))

namespace Json

def typeName : Json → Text
  | .null => "NoneType".toList
  | .bool _ => "bool".toList
  | .int _ => "int".toList
  | .float _ => "float".toList
  | .str _ => "str".toList
  | .arr _ => "list".toList
  | .obj _ => "dict".toList

def notSubscriptable (value : Json) : Text :=
  "'".toList ++ value.typeName ++ "' object is not subscriptable".toList

/-- `value[key]` for a string key. -/
def getItem (key : Text) : Json → Except Text Json
  | .obj fields =>
      match fields.lookup key with
      | some value => .ok value
      | none => .error ("'".toList ++ key ++ "'".toList)
  | .arr _ =>
      .error "list indices must be integers or slices, not str".toList
  | .str _ => .error "string indices must be integers".toList
  | value => .error value.notSubscriptable

/-- `value[index]` for a number that is not negative. -/
def getIndex (index : ℕ) : Json → Except Text Json
  | .arr items =>
      match items[index]? with
      | some item => .ok item
      | none => .error "list index out of range".toList
  | .str text =>
      match text[index]? with
      | some c => .ok (.str [c])
      | none => .error "string index out of range".toList
  | .obj _ => .error (digits index)
  | value => .error value.notSubscriptable

def items : Json → Except Text (List (Text × Json))
  | .obj fields => .ok fields
  | value =>
      .error ("'".toList ++ value.typeName ++
        "' object has no attribute 'items'".toList)

/-- `value == text`. -/
def equalsText (text : Text) : Json → Bool
  | .str other => other = text
  | _ => false

/-! ## `repr` and `str` -/

def hexDigits (width n : ℕ) : Text :=
  let shown := Nat.toDigits 16 n
  List.replicate (width - shown.length) '0' ++ shown

/-- How `repr` shows one character of a string in the given quotes.  Which
characters outside ASCII are printable is for the Unicode database to say. -/
def reprChar (printable : Char → Bool) (quote c : Char) : Text :=
  if c = quote ∨ c = '\\' then ['\\', c]
  else if c = '\t' then "\\t".toList
  else if c = '\n' then "\\n".toList
  else if c = '\r' then "\\r".toList
  else if c.toNat < 0x20 ∨ c.toNat = 0x7f then
    "\\x".toList ++ hexDigits 2 c.toNat
  else if c.toNat < 0x7f ∨ printable c = true then [c]
  else if c.toNat ≤ 0xff then "\\x".toList ++ hexDigits 2 c.toNat
  else if c.toNat ≤ 0xffff then "\\u".toList ++ hexDigits 4 c.toNat
  else "\\U".toList ++ hexDigits 8 c.toNat

def reprText (printable : Char → Bool) (text : Text) : Text :=
  let apostrophe := Char.ofNat 39
  let quote := if apostrophe ∈ text ∧ '"' ∉ text then '"' else apostrophe
  quote :: text.flatMap (reprChar printable quote) ++ [quote]

mutual

def repr (printable : Char → Bool) : Json → Text
  | .null => "None".toList
  | .bool true => "True".toList
  | .bool false => "False".toList
  | .int value => (toString value).toList
  | .float shown => shown
  | .str text => reprText printable text
  | .arr items =>
      "[".toList ++ ", ".toList.intercalate (reprItems printable items) ++
        "]".toList
  | .obj fields =>
      "\x7b".toList ++ ", ".toList.intercalate (reprFields printable fields) ++
        "\x7d".toList

def reprItems (printable : Char → Bool) : List Json → List Text
  | [] => []
  | item :: items => repr printable item :: reprItems printable items

def reprFields (printable : Char → Bool) : List (Text × Json) → List Text
  | [] => []
  | (key, value) :: fields =>
      (reprText printable key ++ ": ".toList ++ repr printable value) ::
        reprFields printable fields

end

/-- `str(value)`, which is also what an f-string shows. -/
def shown (printable : Char → Bool) : Json → Text
  | .str text => text
  | value => repr printable value

example : shown (fun _ => true)
      (.obj [("total".toList, .int 2), ("name".toList, .str "it's".toList)]) =
    "\x7b'total': 2, 'name': \"it's\"\x7d".toList := by
  decide

end Json

/-! ## The keys of an action's results -/

def isResultKeyEnd (c : Char) : Bool := c.isLower || c.isDigit

/-- `^[a-z0-9](([a-z0-9-.]+)?[a-z0-9])?$`; the `$` also matches in front of a
last newline. -/
def isResultKey (key : Text) : Bool :=
  let key := if key.getLast? = some '\n' then key.dropLast else key
  key.head?.any isResultKeyEnd && key.getLast?.any isResultKeyEnd &&
    key.all (fun c => isResultKeyEnd c || c == '-' || c == '.')

def invalidResultKey (printable : Char → Bool) (key : Text) : Text :=
  "key '".toList ++ Json.reprText printable key ++
    "' is invalid: must be similar to 'key', ".toList ++
    "'some-key2', or 'some.key'".toList

/-- `event.set_results`, given which keys are accepted: one that is not
raises, and nothing is set. -/
def setResults (printable : Char → Bool) (accepts : Text → Bool)
    (fields : List (Text × Text)) : Except Text ActionResult :=
  match fields.find? (fun field => !accepts field.1) with
  | some field => .error (invalidResultKey printable field.1)
  | none => .ok (.results fields)

theorem setResults_eq_ok_iff {printable : Char → Bool}
    {accepts : Text → Bool} {fields : List (Text × Text)}
    {result : ActionResult} :
    setResults printable accepts fields = .ok result ↔
      (∀ field ∈ fields, accepts field.1 = true) ∧
        result = .results fields := by
  unfold setResults
  cases hfound : fields.find? (fun field => !accepts field.1) with
  | some field =>
      have hmem := List.mem_of_find?_eq_some hfound
      have hrefused := List.find?_some hfound
      simp only [reduceCtorEq, false_iff]
      rintro ⟨hall, -⟩
      rw [hall field hmem] at hrefused
      contradiction
  | none =>
      rw [List.find?_eq_none] at hfound
      have hall : ∀ field ∈ fields, accepts field.1 = true := by
        intro field hfield
        simpa using hfound field hfield
      rw [Except.ok.injEq, and_iff_right hall]
      exact eq_comm

end SecaasCharms
