import SecaasCharms.JsonText
import SecaasCharms.JsonValues

/-!
# `json.loads` and `json.dumps`

`loads` makes Python values of a JSON text: an object becomes a dictionary,
which keeps the place of a key that is set again.  `dumps` with an indent
prints a value over several lines, in ASCII.
-/

namespace SecaasCharms

open TextLines

/-! ## `json.loads` -/

/-- What the module relies on: how `repr` shows the float of a literal, the
text of a byte string, and the message of a decoding error. -/
structure JsonModule where
  reprFloat : Text → { shown : Text // shown ≠ [] }
  decodeBytes : List UInt8 → Except Text Text
  decodeError : Text → Text

/-- `fields[key] = value`. -/
def setItem : List (Text × Json) → Text → Json → List (Text × Json)
  | [], key, value => [(key, value)]
  | field :: fields, key, value =>
      if field.1 = key then (key, value) :: fields
      else field :: setItem fields key value

def dict (pairs : List (Text × Json)) : List (Text × Json) :=
  pairs.foldl (fun fields pair => setItem fields pair.1 pair.2) []

namespace JsonModule

mutual

def ofValue (json : JsonModule) : JsonText.Value → Json
  | .null => .null
  | .bool value => .bool value
  | .int value => .int value
  | .real literal => .float (json.reprFloat literal).val
  | .str text => .str text
  | .arr items => .arr (json.ofItems items)
  | .obj members => .obj (dict (json.ofMembers members))

def ofItems (json : JsonModule) : List JsonText.Value → List Json
  | [] => []
  | item :: items => json.ofValue item :: json.ofItems items

def ofMembers (json : JsonModule) :
    List (Text × JsonText.Value) → List (Text × Json)
  | [] => []
  | (name, value) :: members =>
      (name, json.ofValue value) :: json.ofMembers members

end

/-- What `loads` is given: a string, bytes, or an object of another type. -/
inductive Document where
  | str (text : Text)
  | bytes (bytes : List UInt8)
  | other (typeName : Text)

/-- `json.loads` of a string.  What Python reads beyond JSON is left out:
`NaN`, `Infinity`, `-Infinity` and the escape of a surrogate without its
partner, which no text can hold. -/
def loadsText (json : JsonModule) (text : Text) : Except Text Json :=
  match JsonText.decode text with
  | some value => .ok (json.ofValue value)
  | none => .error (json.decodeError text)

def loads (json : JsonModule) : Document → Except Text Json
  | .str text => json.loadsText text
  | .bytes bytes => (json.decodeBytes bytes).bind json.loadsText
  | .other typeName =>
      .error ("the JSON object must be str, bytes or bytearray, not ".toList ++
        typeName)

end JsonModule

/-! ## `json.dumps` -/

namespace Json

def escapeUnit (code : ℕ) : Text := "\\u".toList ++ hexDigits 4 code

/-- One character of a string; above U+FFFF as a pair of surrogates. -/
def escapeChar (c : Char) : Text :=
  if c = '"' then "\\\"".toList
  else if c = '\\' then "\\\\".toList
  else if c = '\n' then "\\n".toList
  else if c = '\r' then "\\r".toList
  else if c = '\t' then "\\t".toList
  else if c = '\x0c' then "\\f".toList
  else if c = '\x08' then "\\b".toList
  else if 0x20 ≤ c.toNat ∧ c.toNat ≤ 0x7e then [c]
  else if c.toNat < 0x10000 then escapeUnit c.toNat
  else
    escapeUnit (0xd800 + (c.toNat - 0x10000) / 0x400) ++
      escapeUnit (0xdc00 + (c.toNat - 0x10000) % 0x400)

def dumpsText (text : Text) : Text :=
  '"' :: text.flatMap escapeChar ++ ['"']

def dumpsFloat (shown : Text) : Text :=
  if shown = "inf".toList then "Infinity".toList
  else if shown = "-inf".toList then "-Infinity".toList
  else if shown = "nan".toList then "NaN".toList
  else shown

def newlineIndent (indent level : ℕ) : Text :=
  '\n' :: List.replicate (indent * level) ' '

/-- The parts of an array or an object on lines of their own. -/
def enclose (indent level : ℕ) (opening closing : Char) (parts : List Text) :
    Text :=
  if parts = [] then [opening, closing]
  else
    opening :: newlineIndent indent (level + 1) ++
      (',' :: newlineIndent indent (level + 1)).intercalate parts ++
        newlineIndent indent level ++ [closing]

mutual

def dumpsAt (indent level : ℕ) : Json → Text
  | .null => "null".toList
  | .bool true => "true".toList
  | .bool false => "false".toList
  | .int value => (toString value).toList
  | .float shown => dumpsFloat shown
  | .str text => dumpsText text
  | .arr items =>
      enclose indent level '[' ']' (dumpsItems indent (level + 1) items)
  | .obj fields =>
      enclose indent level '\x7b' '\x7d' (dumpsFields indent (level + 1) fields)

def dumpsItems (indent level : ℕ) : List Json → List Text
  | [] => []
  | item :: items => dumpsAt indent level item :: dumpsItems indent level items

def dumpsFields (indent level : ℕ) : List (Text × Json) → List Text
  | [] => []
  | (key, value) :: fields =>
      (dumpsText key ++ ": ".toList ++ dumpsAt indent level value) ::
        dumpsFields indent level fields

end

/-- `json.dumps(value, indent=indent)`. -/
def dumps (indent : ℕ) (value : Json) : Text := dumpsAt indent 0 value

example : dumps 2 (.obj (dict [("a".toList, .int 1),
      ("b".toList, .arr [.str "é\n".toList, .obj []]),
      ("a".toList, .null)])) =
    "\x7b\n  \"a\": null,\n  \"b\": [\n    \"\\u00e9\\n\",\n    \x7b\x7d\n  ]\n\x7d".toList := by
  decide +kernel

theorem enclose_ne_nil (indent level : ℕ) (opening closing : Char)
    (parts : List Text) : enclose indent level opening closing parts ≠ [] := by
  unfold enclose
  split
  · exact List.cons_ne_nil _ _
  · simp

theorem dumpsFloat_ne_nil {shown : Text} (hshown : shown ≠ []) :
    dumpsFloat shown ≠ [] := by
  unfold dumpsFloat
  split_ifs
  · decide
  · decide
  · decide
  · exact hshown

end Json

/-- Nothing that was loaded is dumped as the empty text. -/
theorem dumps_ofValue_ne_nil (json : JsonModule) (indent : ℕ)
    (value : JsonText.Value) : (json.ofValue value).dumps indent ≠ [] := by
  have hnull : "null".toList ≠ [] := by decide
  have htrue : "true".toList ≠ [] := by decide
  have hfalse : "false".toList ≠ [] := by decide
  cases value with
  | null => exact hnull
  | bool value =>
      cases value with
      | true => exact htrue
      | false => exact hfalse
  | int value =>
      intro hempty
      have hread := JsonText.intOf?_intText value
      have htext : JsonText.intText value = [] := hempty
      rw [htext] at hread
      contradiction
  | real literal => exact Json.dumpsFloat_ne_nil (json.reprFloat literal).2
  | str text => exact List.cons_ne_nil _ _
  | arr items => exact Json.enclose_ne_nil _ _ _ _ _
  | obj members => exact Json.enclose_ne_nil _ _ _ _ _

end SecaasCharms
