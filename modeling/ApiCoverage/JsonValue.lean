import ApiCoverage.Decimal.Display
import ApiCoverage.Text.Layout

/-!
# JSON documents

JSON values and the text in which they are written: one item or field per line, two blanks of
indentation per level. In strings, quotes, backslashes and control characters below the blank are
escaped and everything else stands as it is.
-/

namespace ApiCoverage

/-- A JSON value. -/
inductive JsonValue where
  | null
  | boolean (value : Bool)
  | natural (value : Nat)
  | decimal (value : Decimal.Binary64)
  | string (text : String)
  | array (items : List JsonValue)
  | object (fields : List (String × JsonValue))

namespace JsonValue

/-- A character of a string as it is written. -/
def escapeChar (char : Char) : List Char :=
  match char with
  | '"' => ['\\', '"']
  | '\\' => ['\\', '\\']
  | '\x08' => ['\\', 'b']
  | '\t' => ['\\', 't']
  | '\n' => ['\\', 'n']
  | '\x0c' => ['\\', 'f']
  | '\r' => ['\\', 'r']
  | other =>
      if other.toNat < 0x20 then '\\' :: 'u' :: (Text.hexDigits 4 other.toNat).toList
      else [other]

/-- A string as it is written. -/
def quote (text : String) : String :=
  String.ofList ('"' :: text.toList.flatMap escapeChar ++ ['"'])

/-- Items between brackets, each on a line of its own; `indent` stands before the closing
bracket. -/
def block (opening closing indent : String) (items : List String) : String :=
  opening ++ "\n" ++ ",\n".intercalate items ++ "\n" ++ indent ++ closing

mutual

/-- A value as it is written after an indentation. -/
def render (indent : String) : JsonValue → String
  | null => "null"
  | boolean true => "true"
  | boolean false => "false"
  | natural value => toString value
  | decimal value => Decimal.shortest value
  | string text => quote text
  | array [] => "[]"
  | array (first :: rest) =>
      let inner := indent ++ "  "
      block "[" "]" indent (renderItems inner (first :: rest))
  | object [] => "\x7b\x7d"
  | object (first :: rest) =>
      let inner := indent ++ "  "
      block "\x7b" "\x7d" indent (renderFields inner (first :: rest))

/-- The items of an array as they are written. -/
def renderItems (indent : String) : List JsonValue → List String
  | [] => []
  | item :: rest => (indent ++ item.render indent) :: renderItems indent rest

/-- The fields of an object as they are written. -/
def renderFields (indent : String) : List (String × JsonValue) → List String
  | [] => []
  | (name, value) :: rest =>
      (indent ++ quote name ++ ": " ++ value.render indent) :: renderFields indent rest

end

/-- A value as a document of its own. -/
def document (value : JsonValue) : String :=
  value.render "" ++ "\n"

end JsonValue

end ApiCoverage
