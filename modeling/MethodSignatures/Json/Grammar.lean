import MethodSignatures.Json.Basic
import MethodSignatures.Text.Digits

/-! # The grammar of JSON

Which texts spell a value, by the rules of RFC 8259, and which value a text spells: one relation for each rule of the
grammar. The members of an object are all of those that are written, in order, also where a key is repeated. An escaped
surrogate has to be one half of a pair, since it stands for no character otherwise.
-/

namespace MethodSignatures.Json

/-- Blanks that may stand around a value and around each sign of an array or object. -/
def IsSpace (text : List Char) : Prop :=
  ∀ c ∈ text, c ∈ [' ', '\t', '\n', '\r']

/-! ## Strings -/

/-- The letters that may stand behind a backslash, and the characters that they stand for. -/
def letterEscapes : List (Char × Char) :=
  [('"', '"'), ('\\', '\\'), ('/', '/'), ('b', '\x08'), ('f', '\x0c'), ('n', '\n'), ('r', '\r'), ('t', '\t')]

/-- `text` spells `characters` between the quotes of a string. -/
inductive Characters : (text characters : List Char) → Prop where
  | nil : Characters [] []
  | plain {c : Char} {text characters : List Char} (printable : 0x20 ≤ c.toNat) (noQuote : c ≠ '"')
      (noBackslash : c ≠ '\\') (rest : Characters text characters) : Characters (c :: text) (c :: characters)
  | letter {letter c : Char} {text characters : List Char} (isEscape : (letter, c) ∈ letterEscapes)
      (rest : Characters text characters) : Characters ('\\' :: letter :: text) (c :: characters)
  | code {p q r s : Char} {unit : Nat} {text characters : List Char} (digits : Text.ofFourHexDigits? p q r s = some unit)
      (noSurrogate : unit < 0xD800 ∨ 0xE000 ≤ unit) (rest : Characters text characters) :
      Characters ('\\' :: 'u' :: p :: q :: r :: s :: text) (.ofNat unit :: characters)
  | pair {p q r s p' q' r' s' : Char} {high low : Nat} {text characters : List Char}
      (highDigits : Text.ofFourHexDigits? p q r s = some high) (isHigh : 0xD800 ≤ high ∧ high < 0xDC00)
      (lowDigits : Text.ofFourHexDigits? p' q' r' s' = some low) (isLow : 0xDC00 ≤ low ∧ low < 0xE000)
      (rest : Characters text characters) :
      Characters ('\\' :: 'u' :: p :: q :: r :: s :: '\\' :: 'u' :: p' :: q' :: r' :: s' :: text)
        (.ofNat (0x10000 + (high - 0xD800) * 0x400 + (low - 0xDC00)) :: characters)

/-! ## Numbers -/

def IsDigits (text : List Char) : Prop :=
  text ≠ [] ∧ ∀ c ∈ text, c.isDigit = true

/-- Digits in front of a decimal point. Only a zero alone begins with a zero. -/
def IsWhole (text : List Char) : Prop :=
  IsDigits text ∧ (text.head? = some '0' → text = ['0'])

/-- A decimal point and the digits behind it, or nothing. -/
inductive Fraction : (text : List Char) → (digits : Option (List Char)) → Prop where
  | absent : Fraction [] none
  | present {digits : List Char} (isDigits : IsDigits digits) : Fraction ('.' :: digits) (some digits)

/-- A mark and a power of ten, or nothing. -/
inductive Exponent : (text : List Char) → (exponent : Option Int) → Prop where
  | absent : Exponent [] none
  | unsigned {mark : Char} {digits : List Char} (isMark : mark = 'e' ∨ mark = 'E') (isDigits : IsDigits digits) :
      Exponent (mark :: digits) (some (Text.ofDecimal digits : Int))
  | positive {mark : Char} {digits : List Char} (isMark : mark = 'e' ∨ mark = 'E') (isDigits : IsDigits digits) :
      Exponent (mark :: '+' :: digits) (some (Text.ofDecimal digits : Int))
  | negative {mark : Char} {digits : List Char} (isMark : mark = 'e' ∨ mark = 'E') (isDigits : IsDigits digits) :
      Exponent (mark :: '-' :: digits) (some (-(Text.ofDecimal digits : Int)))

/-- The power of ten that the digits of a number count, if a fraction or an exponent sets one. -/
def scaleOf : (fraction : Option (List Char)) → (exponent : Option Int) → Option Int
  | none, none => none
  | fraction, exponent => some (exponent.getD 0 - (fraction.getD []).length)

inductive Number : (text : List Char) → (number : JsonNumber) → Prop where
  | mk {negative : Bool} {whole fraction power : List Char} {digits : Option (List Char)} {exponent : Option Int}
      (isWhole : IsWhole whole) (isFraction : Fraction fraction digits) (isExponent : Exponent power exponent) :
      Number ((if negative then ['-'] else []) ++ whole ++ fraction ++ power)
        ⟨negative, Text.ofDecimal (whole ++ digits.getD []), scaleOf digits exponent⟩

/-! ## Values -/

mutual
/-- `text` spells `value`, with no blank around it. -/
inductive Value : (text : List Char) → (value : Json) → Prop where
  | null : Value ['n', 'u', 'l', 'l'] .null
  | boolTrue : Value ['t', 'r', 'u', 'e'] (.bool true)
  | boolFalse : Value ['f', 'a', 'l', 's', 'e'] (.bool false)
  | number {text : List Char} {number : JsonNumber} (spelled : Number text number) : Value text (.number number)
  | string {text characters : List Char} (spelled : Characters text characters) :
      Value ('"' :: text ++ ['"']) (.string (.ofList characters))
  | emptyArray {space : List Char} (isSpace : IsSpace space) : Value ('[' :: space ++ [']']) (.array [])
  | array {text : List Char} {items : List Json} (spelled : Items text items) :
      Value ('[' :: text ++ [']']) (.array items)
  | emptyObject {space : List Char} (isSpace : IsSpace space) : Value ('\x7b' :: space ++ ['\x7d']) (.object [])
  | object {text : List Char} {members : List (String × Json)} (spelled : Members text members) :
      Value ('\x7b' :: text ++ ['\x7d']) (.object members)

/-- `text` spells `value`, with blanks around it: a text of its own, an item of an array or what stands behind the
colon of a member. -/
inductive Document : (text : List Char) → (value : Json) → Prop where
  | mk {before text after : List Char} {value : Json} (isBefore : IsSpace before) (spelled : Value text value)
      (isAfter : IsSpace after) : Document (before ++ text ++ after) value

/-- `text` spells the items of an array, at least one, with the commas between them. -/
inductive Items : (text : List Char) → (items : List Json) → Prop where
  | last {text : List Char} {item : Json} (spelled : Document text item) : Items text [item]
  | cons {text others : List Char} {item : Json} {items : List Json} (spelled : Document text item)
      (rest : Items others items) : Items (text ++ ',' :: others) (item :: items)

/-- `text` spells one member of an object. -/
inductive Member : (text : List Char) → (member : String × Json) → Prop where
  | mk {before key characters after text : List Char} {value : Json} (isBefore : IsSpace before)
      (keySpelled : Characters key characters) (isAfter : IsSpace after) (spelled : Document text value) :
      Member (before ++ '"' :: key ++ '"' :: after ++ ':' :: text) (.ofList characters, value)

/-- `text` spells the members of an object, at least one, with the commas between them. -/
inductive Members : (text : List Char) → (members : List (String × Json)) → Prop where
  | last {text : List Char} {member : String × Json} (spelled : Member text member) : Members text [member]
  | cons {text others : List Char} {member : String × Json} {members : List (String × Json)}
      (spelled : Member text member) (rest : Members others members) :
      Members (text ++ ',' :: others) (member :: members)
end

end MethodSignatures.Json
