import Reconciler.Json.Number

/-!
# Reading JSON

The grammar of RFC 8259, without latitude: no byte order mark, no comment, no text after the value.
What is well formed but cannot be held becomes `Json.unkeepable` in place; whether that is an error
depends on who looks at it.
-/

namespace Reconciler.Json

open Reconciler.Text

/-- The number of enclosing arrays and objects beyond which a value is not held. -/
def maximumDepth : Nat :=
  127

/-- Whether a character may stand between the tokens of a JSON text. -/
def isSpace (character : Char) : Bool :=
  character == ' ' || character == '\n' || character == '\t' || character == '\r'

/-- The characters from the next token on. -/
def skipSpace (characters : List Char) : List Char :=
  characters.dropWhile isSpace

/-- The code unit that the four hexadecimal digits of an escape name. -/
def codeUnit? (first second third fourth : Char) : Option Nat := do
  let digits ← [first, second, third, fourth].mapM hexDigit?
  return numberOfDigits 16 digits

/-- The character that a backslash and one character stand for. -/
def simpleEscape? (character : Char) : Option Char :=
  match character with
  | '"' => some '"'
  | '\\' => some '\\'
  | '/' => some '/'
  | 'b' => some '\x08'
  | 'f' => some '\x0c'
  | 'n' => some '\n'
  | 'r' => some '\r'
  | 't' => some '\t'
  | _ => none

/--
The code points of a string up to its closing quote, most recent first, and the characters after
the quote. Surrogates that escapes name are code points of their own here.
-/
def readPoints (points : List Nat) : List Char → Option (List Nat × List Char)
  | [] => none
  | '"' :: rest => some (points, rest)
  | '\\' :: 'u' :: first :: second :: third :: fourth :: rest =>
    match codeUnit? first second third fourth with
    | some point => readPoints (point :: points) rest
    | none => none
  | '\\' :: escape :: rest =>
    match simpleEscape? escape with
    | some character => readPoints (character.toNat :: points) rest
    | none => none
  | character :: rest =>
    if character.toNat < 0x20 then none else readPoints (character.toNat :: points) rest

/-- Whether a code point is the first half of a surrogate pair. -/
def isHighSurrogate (point : Nat) : Bool :=
  0xD800 ≤ point && point < 0xDC00

/-- Whether a code point is the second half of a surrogate pair. -/
def isLowSurrogate (point : Nat) : Bool :=
  0xDC00 ≤ point && point < 0xE000

/--
The characters that code points name, the points given last first; there are none if half of a
surrogate pair stands alone.
-/
def joinSurrogates (characters : List Char) : List Nat → Option (List Char)
  | [] => some characters
  | low :: high :: points =>
    if isLowSurrogate low && isHighSurrogate high then
      let point := 0x10000 + (high - 0xD800) * 0x400 + (low - 0xDC00)
      joinSurrogates (Char.ofNat point :: characters) points
    else if isLowSurrogate low || isHighSurrogate low then none
    else joinSurrogates (Char.ofNat low :: characters) (high :: points)
  | [point] =>
    if isLowSurrogate point || isHighSurrogate point then none
    else some (Char.ofNat point :: characters)

/-- Reads a string after its opening quote; it has no text if a surrogate stands alone. -/
def readString (characters : List Char) : Option (Option String × List Char) := do
  let (points, rest) ← readPoints [] characters
  return ((joinSurrogates [] points).map String.ofList, rest)

/-- Reads the digits after a decimal point, if there is one. -/
def readFraction : List Char → Option (List Char × List Char)
  | '.' :: rest =>
    let (digits, after) := rest.span isDecimalDigit
    if digits.isEmpty then none else some (digits, after)
  | characters => some ([], characters)

/-- Reads an exponent, if there is one. -/
def readExponent : List Char → Option (Option Int × List Char)
  | character :: rest =>
    if character = 'e' || character = 'E' then
      let (negative, unsigned) :=
        match rest with
        | '-' :: after => (true, after)
        | '+' :: after => (false, after)
        | after => (false, after)
      let (digits, after) := unsigned.span isDecimalDigit
      if digits.isEmpty then none
      else
        let size := (decimalNumber digits : Int)
        some (some (if negative then -size else size), after)
    else some (none, character :: rest)
  | [] => some (none, [])

/-- Reads a number. -/
def readNumber (characters : List Char) : Option (Json × List Char) := do
  let (negative, unsigned) :=
    match characters with
    | '-' :: rest => (true, rest)
    | rest => (false, rest)
  let (whole, rest) := unsigned.span isDecimalDigit
  guard (whole.length = 1 ∨ whole.length > 1 ∧ whole.head? ≠ some '0')
  let (fraction, rest) ← readFraction rest
  let (exponent, rest) ← readExponent rest
  let literal : NumberLiteral := ⟨negative, whole, fraction, exponent⟩
  return (literal.value, rest)

/-- An array of items given last first, at a depth. -/
def closeArray (depth : Nat) (items : List Json) : Json :=
  if maximumDepth < depth then unkeepable else array items.reverse

/--
An object of members given last first, at a depth. It cannot be held if one of its names cannot.
-/
def closeObject (depth : Nat) (members : List (Option String × Json)) : Json :=
  if maximumDepth < depth then unkeepable
  else
    match members.reverse.mapM fun (name, value) => name.map fun text => (text, value) with
    | some members => object members
    | none => unkeepable

mutual

/-- Reads a value that lies inside a number of arrays and objects. -/
def readValue (depth : Nat) : Nat → List Char → Option (Json × List Char)
  | 0, _ => none
  | fuel + 1, characters =>
    match skipSpace characters with
    | 'n' :: 'u' :: 'l' :: 'l' :: rest => some (null, rest)
    | 't' :: 'r' :: 'u' :: 'e' :: rest => some (bool true, rest)
    | 'f' :: 'a' :: 'l' :: 's' :: 'e' :: rest => some (bool false, rest)
    | '"' :: rest =>
      (readString rest).map fun (text, after) =>
        (match text with
          | some text => string text
          | none => unkeepable, after)
    | '[' :: rest =>
      match skipSpace rest with
      | ']' :: after => some (closeArray (depth + 1) [], after)
      | _ => readItems (depth + 1) [] fuel rest
    | '\x7b' :: rest =>
      match skipSpace rest with
      | '\x7d' :: after => some (closeObject (depth + 1) [], after)
      | _ => readMembers (depth + 1) [] fuel rest
    | other => readNumber other

/-- Reads the items of an array from one of them to the closing bracket. -/
def readItems (depth : Nat) (items : List Json) : Nat → List Char → Option (Json × List Char)
  | 0, _ => none
  | fuel + 1, characters =>
    match readValue depth fuel characters with
    | none => none
    | some (item, rest) =>
      match skipSpace rest with
      | ',' :: after => readItems depth (item :: items) fuel after
      | ']' :: after => some (closeArray depth (item :: items), after)
      | _ => none

/-- Reads the members of an object from one of them to the closing brace. -/
def readMembers (depth : Nat) (members : List (Option String × Json)) :
    Nat → List Char → Option (Json × List Char)
  | 0, _ => none
  | fuel + 1, characters =>
    match skipSpace characters with
    | '"' :: rest =>
      match readString rest with
      | none => none
      | some (name, rest) =>
        match skipSpace rest with
        | ':' :: rest =>
          match readValue depth fuel rest with
          | none => none
          | some (value, rest) =>
            match skipSpace rest with
            | ',' :: after => readMembers depth ((name, value) :: members) fuel after
            | '\x7d' :: after => some (closeObject depth ((name, value) :: members), after)
            | _ => none
        | _ => none
    | _ => none

end

/-- The value that a whole text writes. -/
def parse? (text : String) : Option Json := do
  let characters := text.toList
  let (value, rest) ← readValue 0 (characters.length + 1) characters
  guard (skipSpace rest).isEmpty
  return value

end Reconciler.Json
