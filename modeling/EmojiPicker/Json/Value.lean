import EmojiPicker.Json.Token

/-!
# JSON values

* `Json` — a value, its fields in the order of the document;
* `Json.ofTokens?` — the value that some tokens spell, read with a stack of the arrays and objects
  that are still open;
* `Json.parse?` — the value of a document.

Nothing bounds how deep values nest.
-/

namespace EmojiPicker

/-- A JSON value. Strings that spell no text, as values or as names, are kept as `none`. -/
inductive Json where
  | null
  | bool (value : Bool)
  | number (text : List Char)
  | string (text : Option (List Char))
  | array (items : List Json)
  | object (fields : List (Option (List Char) × Json))
  deriving Repr

namespace Json

/-- An array or object that is still open, with what it holds so far, last first. -/
inductive Frame where
  | array (items : List Json)
  | object (fields : List (Option (List Char) × Json)) (name : Option (List Char))

/-- What may come next. -/
inductive Expected where
  | value
  | firstItem
  | name (fields : List (Option (List Char) × Json))
  | firstName
  | colon (fields : List (Option (List Char) × Json)) (name : Option (List Char))
  | separator
  | done (value : Json)

/-- A complete value goes into the innermost open one. -/
def place (v : Json) : List Frame → Expected × List Frame
  | [] => (.done v, [])
  | .array items :: above => (.separator, .array (v :: items) :: above)
  | .object fields name :: above => (.separator, .object ((name, v) :: fields) name :: above)

def ofToken? : Token → Option Json
  | .null => some .null
  | .bool b => some (.bool b)
  | .number text => some (.number text)
  | .string text => some (.string text)
  | _ => none

def beginValue? (t : Token) (stack : List Frame) : Option (Expected × List Frame) :=
  match t with
  | .openArray => some (.firstItem, .array [] :: stack)
  | .openObject => some (.firstName, stack)
  | t => (ofToken? t).map (place · stack)

def step? : Expected → List Frame → Token → Option (Expected × List Frame)
  | .value, stack, t => beginValue? t stack
  -- Only an empty array or object may end before its first item.
  | .firstItem, .array _ :: above, .closeArray => some (place (.array []) above)
  | .firstItem, stack, t => beginValue? t stack
  | .firstName, stack, .closeObject => some (place (.object []) stack)
  | .firstName, stack, .string name => some (.colon [] name, stack)
  | .name fields, stack, .string name => some (.colon fields name, stack)
  | .colon fields name, stack, .colon => some (.value, .object fields name :: stack)
  | .separator, .array items :: above, .comma => some (.value, .array items :: above)
  | .separator, .array items :: above, .closeArray => some (place (.array items.reverse) above)
  | .separator, .object fields _ :: above, .comma => some (.name fields, above)
  | .separator, .object fields _ :: above, .closeObject =>
      some (place (.object fields.reverse) above)
  | _, _, _ => none

def run? (expected : Expected) (stack : List Frame) : List Token → Option Json
  | [] => match expected with
    | .done v => some v
    | _ => none
  | t :: rest => do
      let (expected, stack) ← step? expected stack t
      run? expected stack rest

def ofTokens? (tokens : List Token) : Option Json :=
  run? .value [] tokens

def parse? (cs : List Char) : Option Json := do
  ofTokens? (← Token.scan? cs)

end Json
end EmojiPicker
