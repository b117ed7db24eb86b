/-!
# Quoted text

The four string forms of TOML: basic and literal, each on one line or on several. Basic strings
have escapes. In the multi-line forms a line end right after the opening quotes is dropped, line
ends read as line feeds, and up to two quotes may stand before the closing three.
-/

namespace ApiCoverage.Toml.Quoted

/-- Whether a character may stand in a comment or, quotes and backslashes apart, in a string. -/
def isPlain (char : Char) : Bool :=
  char == '\t' || (0x20 ≤ char.toNat && char.toNat != 0x7F)

/-- The value of a hexadecimal digit. -/
def hexValue? (char : Char) : Option Nat :=
  if char.isDigit then some (char.toNat - '0'.toNat)
  else if 'a' ≤ char && char ≤ 'f' then some (char.toNat - 'a'.toNat + 10)
  else if 'A' ≤ char && char ≤ 'F' then some (char.toNat - 'A'.toNat + 10)
  else none

/-- The number of a sequence of hexadecimal digits. -/
def hexNumber? (value : Nat) : List Char → Option Nat
  | [] => some value
  | char :: rest =>
      match hexValue? char with
      | some digit => hexNumber? (value * 16 + digit) rest
      | none => none

/-- The character with a code written in `count` hexadecimal digits, and the characters after. -/
def codePoint? (count : Nat) (chars : List Char) : Option (Char × List Char) :=
  let digits := chars.take count
  match hexNumber? 0 digits with
  | some code =>
      if digits.length = count ∧ code.isValidChar then some (Char.ofNat code, chars.drop count)
      else none
  | none => none

/-- The character that an escape stands for, from the character after the backslash on. -/
def escape? : List Char → Option (Char × List Char)
  | 'b' :: rest => some ('\x08', rest)
  | 't' :: rest => some ('\t', rest)
  | 'n' :: rest => some ('\n', rest)
  | 'f' :: rest => some ('\x0c', rest)
  | 'r' :: rest => some ('\r', rest)
  | '\x22' :: rest => some ('\x22', rest)
  | '\\' :: rest => some ('\\', rest)
  | 'u' :: rest => codePoint? 4 rest
  | 'U' :: rest => codePoint? 8 rest
  | _ => none

/-- Whether a character is a space or a tab. -/
def isSpace (char : Char) : Bool :=
  char == ' ' || char == '\t'

/-- The characters after a line end, if one comes first. -/
def lineEnd? : List Char → Option (List Char)
  | '\n' :: rest => some rest
  | '\r' :: '\n' :: rest => some rest
  | _ => none

/-- Drops spaces and line ends; `fuel` bounds their number. -/
def dropSpacesAndLines : Nat → List Char → List Char
  | 0, chars => chars
  | fuel + 1, chars =>
      let rest := chars.dropWhile isSpace
      match lineEnd? rest with
      | some after => dropSpacesAndLines fuel after
      | none => rest

/-- The characters after a line end that a backslash hides, with the spaces and line ends around
it. -/
def hiddenLineEnd? (chars : List Char) : Option (List Char) :=
  (lineEnd? (chars.dropWhile isSpace)).map fun rest => dropSpacesAndLines rest.length rest

/-- The rest of a basic string on one line, after the characters in `done`, which stand in
reverse. -/
def basic (done : List Char) : Nat → List Char → Option (String × List Char)
  | 0, _ => none
  | fuel + 1, chars =>
      match chars with
      | [] => none
      | '\x22' :: rest => some (String.ofList done.reverse, rest)
      | '\\' :: rest => (escape? rest).bind fun (char, rest) => basic (char :: done) fuel rest
      | char :: rest => if isPlain char then basic (char :: done) fuel rest else none

/-- The rest of a literal string on one line. -/
def literal (done : List Char) : List Char → Option (String × List Char)
  | [] => none
  | '\x27' :: rest => some (String.ofList done.reverse, rest)
  | char :: rest => if isPlain char then literal (char :: done) rest else none

/-- The end of a multi-line string at a run of quotes, if the run closes it: the string and what
follows. A run of three to five quotes closes, and those beyond three belong to the string. -/
def closing? (quote : Char) (done chars : List Char) : Option (String × List Char) :=
  let run := chars.takeWhile (· == quote)
  if 3 ≤ run.length ∧ run.length ≤ 5 then
    some (String.ofList (run.drop 3 ++ done).reverse, chars.drop run.length)
  else none

/-- The rest of a multi-line string. -/
def multiLine (quote : Char) (escapes : Bool) (done : List Char) :
    Nat → List Char → Option (String × List Char)
  | 0, _ => none
  | fuel + 1, chars =>
      match lineEnd? chars, chars with
      | some rest, _ => multiLine quote escapes ('\n' :: done) fuel rest
      | none, [] => none
      | none, char :: rest =>
          if char == quote then
            let run := chars.takeWhile (· == quote)
            if run.length < 3 then
              multiLine quote escapes (run ++ done) fuel (chars.drop run.length)
            else closing? quote done chars
          else if escapes && char == '\\' then
            match hiddenLineEnd? rest with
            | some rest => multiLine quote escapes done fuel rest
            | none =>
                (escape? rest).bind fun (char, rest) =>
                  multiLine quote escapes (char :: done) fuel rest
          else if isPlain char then multiLine quote escapes (char :: done) fuel rest
          else none

/-- A multi-line string after its opening quotes. -/
def multiLineBody (quote : Char) (escapes : Bool) (chars : List Char) :
    Option (String × List Char) :=
  let body := (lineEnd? chars).getD chars
  multiLine quote escapes [] (body.length + 1) body

/-- Reads a string on one line. -/
def readLine? : List Char → Option (String × List Char)
  | '\x22' :: rest => basic [] (rest.length + 1) rest
  | '\x27' :: rest => literal [] rest
  | _ => none

/-- Reads a string of any form. -/
def read? : List Char → Option (String × List Char)
  | '\x22' :: '\x22' :: '\x22' :: rest => multiLineBody '\x22' true rest
  | '\x27' :: '\x27' :: '\x27' :: rest => multiLineBody '\x27' false rest
  | chars => readLine? chars

end ApiCoverage.Toml.Quoted
