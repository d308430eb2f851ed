/-! # Quoted texts

A quoted text stands between double quotes. Inside them a character is written as it is, as a backslash
and a letter, or as a backslash, a `u` and its code point; a `QuoteStyle` says which.
-/

namespace MethodSignatures.Text

structure QuoteStyle where
  /-- The characters that are written with a letter, each with its letter. -/
  letters : List (Char × Char)
  /-- The characters without a letter that are not written as they are. -/
  hidden : Char → Bool
  /-- A code point, as it stands behind `u`. -/
  code : Nat → List Char

namespace QuoteStyle

def escape (style : QuoteStyle) (c : Char) : List Char :=
  match style.letters.lookup c with
  | some letter => ['\\', letter]
  | none => if style.hidden c then '\\' :: 'u' :: style.code c.toNat else [c]

def quote (style : QuoteStyle) (text : String) : List Char :=
  '"' :: text.toList.flatMap style.escape ++ ['"']

end QuoteStyle

end MethodSignatures.Text
