import MethodSignatures.Json.Basic
import MethodSignatures.Json.Writer
import MethodSignatures.Text.Digits

/-! # Reading JSON

A reader for the grammar of RFC 8259. Blanks may stand around every value, key and sign; nothing may follow
the value but blanks. A key that an object repeats keeps its first place and its last value.
-/

namespace MethodSignatures.Json

def isBlank (c : Char) : Bool :=
  c = ' ' || c = '\t' || c = '\n' || c = '\r'

def skipBlanks (text : List Char) : List Char :=
  text.dropWhile isBlank

/-! ## Strings -/

/-- The character that a letter behind a backslash stands for. A solidus may be escaped, though it is
written as it is. -/
def ofLetter? (letter : Char) : Option Char :=
  if letter = '/' then some '/' else (quoting.letters.find? (·.2 = letter)).map (·.1)

def isHighSurrogate (unit : Nat) : Bool :=
  0xD800 ≤ unit && unit < 0xDC00

def isLowSurrogate (unit : Nat) : Bool :=
  0xDC00 ≤ unit && unit < 0xE000

/-- The character of a surrogate pair. -/
def ofSurrogates (high low : Nat) : Char :=
  .ofNat (0x10000 + (high - 0xD800) * 0x400 + (low - 0xDC00))

/-- Reads the body of a string and its closing quote. Controls must be escaped, and an escaped surrogate
must be one half of a pair. -/
def readString : List Char → Option (List Char × List Char)
  | [] => none
  | '"' :: rest => some ([], rest)
  | '\\' :: 'u' :: a :: b :: c :: d :: rest =>
    match Text.ofFourHexDigits? a b c d with
    | none => none
    | some unit =>
      if isLowSurrogate unit then none
      else if isHighSurrogate unit then
        match rest with
        | '\\' :: 'u' :: a :: b :: c :: d :: rest =>
          match Text.ofFourHexDigits? a b c d with
          | none => none
          | some low =>
            if isLowSurrogate low then
              (readString rest).map fun (body, rest) => (ofSurrogates unit low :: body, rest)
            else none
        | _ => none
      else (readString rest).map fun (body, rest) => (.ofNat unit :: body, rest)
  | '\\' :: letter :: rest =>
    match ofLetter? letter with
    | none => none
    | some c => (readString rest).map fun (body, rest) => (c :: body, rest)
  | c :: rest => if c.toNat < 0x20 then none else (readString rest).map fun (body, rest) => (c :: body, rest)

/-! ## Numbers -/

/-- The digits at the front of a text, at least one, and the text behind them. -/
def readDigits (text : List Char) : Option (List Char × List Char) :=
  let digits := text.takeWhile Char.isDigit
  if digits.isEmpty then none else some (digits, text.dropWhile Char.isDigit)

/-- The digits in front of the decimal point. A zero stands alone there. -/
def readWhole (text : List Char) : Option (List Char × List Char) :=
  match readDigits text with
  | some ('0' :: _ :: _, _) => none
  | cut => cut

/-- The digits behind the decimal point, if there is one. -/
def readFraction : List Char → Option (Option (List Char) × List Char)
  | '.' :: rest => (readDigits rest).map fun (digits, rest) => (some digits, rest)
  | text => some (none, text)

def readExponent : List Char → Option (Option Int × List Char)
  | mark :: rest =>
    if mark = 'e' ∨ mark = 'E' then
      match rest with
      | '-' :: rest => (readDigits rest).map fun (digits, rest) => (some (-(Text.ofDecimal digits : Int)), rest)
      | '+' :: rest => (readDigits rest).map fun (digits, rest) => (some (Text.ofDecimal digits : Int), rest)
      | rest => (readDigits rest).map fun (digits, rest) => (some (Text.ofDecimal digits : Int), rest)
    else some (none, mark :: rest)
  | [] => some (none, [])

/-- The place of the decimal point, if a fraction or an exponent sets one. -/
def decimalExponent : Option (List Char) → Option Int → Option Int
  | none, none => none
  | none, some exponent => some exponent
  | some fraction, exponent => some (exponent.getD 0 - fraction.length)

def readMagnitude (negative : Bool) (text : List Char) : Option (JsonNumber × List Char) := do
  let (whole, rest) ← readWhole text
  let (fraction, rest) ← readFraction rest
  let (exponent, rest) ← readExponent rest
  let digits := Text.ofDecimal (whole ++ fraction.getD [])
  return ({ negative, digits, exponent := decimalExponent fraction exponent }, rest)

def readNumber : List Char → Option (JsonNumber × List Char)
  | '-' :: rest => readMagnitude true rest
  | text => readMagnitude false text

/-! ## Values -/

def readKey (text : List Char) : Option (String × List Char) :=
  match skipBlanks text with
  | '"' :: rest =>
    match readString rest with
    | some (key, rest) =>
      match skipBlanks rest with
      | ':' :: rest => some (.ofList key, rest)
      | _ => none
    | none => none
  | _ => none

mutual
/-- Reads a value at the front of a text, which begins with no blank. -/
def readValue : Nat → List Char → Option (Json × List Char)
  | 0, _ => none
  | _ + 1, 'n' :: 'u' :: 'l' :: 'l' :: rest => some (.null, rest)
  | _ + 1, 't' :: 'r' :: 'u' :: 'e' :: rest => some (.bool true, rest)
  | _ + 1, 'f' :: 'a' :: 'l' :: 's' :: 'e' :: rest => some (.bool false, rest)
  | _ + 1, '"' :: rest => (readString rest).map fun (text, rest) => (.string (.ofList text), rest)
  | fuel + 1, '[' :: rest =>
    match skipBlanks rest with
    | ']' :: rest => some (.array [], rest)
    | rest => (readItems fuel rest).map fun (items, rest) => (.array items, rest)
  | fuel + 1, '\x7b' :: rest =>
    match skipBlanks rest with
    | '\x7d' :: rest => some (.object [], rest)
    | rest => (readMembers fuel rest).map fun (members, rest) => (.object members, rest)
  | _ + 1, text => (readNumber text).map fun (value, rest) => (.number value, rest)

def readItems : Nat → List Char → Option (List Json × List Char)
  | 0, _ => none
  | fuel + 1, text =>
    match readValue fuel (skipBlanks text) with
    | none => none
    | some (item, rest) =>
      match skipBlanks rest with
      | ',' :: rest => (readItems fuel rest).map fun (items, rest) => (item :: items, rest)
      | ']' :: rest => some ([item], rest)
      | _ => none

def readMembers : Nat → List Char → Option (List (String × Json) × List Char)
  | 0, _ => none
  | fuel + 1, text =>
    match readKey text with
    | none => none
    | some (key, rest) =>
      match readValue fuel (skipBlanks rest) with
      | none => none
      | some (value, rest) =>
        match skipBlanks rest with
        | ',' :: rest =>
          (readMembers fuel rest).map fun (members, rest) => ((key, value) :: members, rest)
        | '\x7d' :: rest => some ([(key, value)], rest)
        | _ => none
end

/-- Reads a text that is one value, with the members of its objects as they are written. Every call of a reader of
values takes a character or is made by one that took a character, so that twice the length of the text bounds their
depth. -/
def read? (text : String) : Option Json :=
  match readValue (2 * text.toList.length + 1) (skipBlanks text.toList) with
  | some (value, rest) => if (skipBlanks rest).isEmpty then some value else none
  | none => none

/-! ## Repeated keys -/

/-- Puts a member in front of others. If they hold its key, their value stays and their place is given up. -/
def consMember (key : String) (value : Json) (members : List (String × Json)) : List (String × Json) :=
  match members.lookup key with
  | none => (key, value) :: members
  | some last => (key, last) :: members.filter (·.1 ≠ key)

mutual
/-- Gives every object within a value one member for each of its keys. -/
def settle : Json → Json
  | array items => array (settleItems items)
  | object members => object (settleMembers members)
  | value => value
termination_by structural value => value

def settleItems : List Json → List Json
  | [] => []
  | item :: rest => item.settle :: settleItems rest
termination_by structural items => items

def settleMembers : List (String × Json) → List (String × Json)
  | [] => []
  | (key, value) :: rest => consMember key value.settle (settleMembers rest)
termination_by structural members => members
end

/-- Reads a text that is one value and settles its repeated keys. -/
def parse? (text : String) : Option Json :=
  (read? text).map settle

end MethodSignatures.Json
