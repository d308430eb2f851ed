import MethodSignatures.Text.Quoted

/-! # Texts made visible

The quoting of log records and dumps. Six characters have a letter, and of the others the hidden ones are written by their
code point. Which they are depends on the character tables in use, so that it is for the caller to say.
-/

namespace MethodSignatures.Text

def visibleLetters : List (Char × Char) :=
  [('\x00', '0'), ('\t', 't'), ('\n', 'n'), ('\r', 'r'), ('"', '"'), ('\\', '\\')]

/-- A code point stands in lower-case hexadecimal between braces. -/
def visible (hidden : Char → Bool) : QuoteStyle where
  letters := visibleLetters
  hidden
  code point := '\x7b' :: Nat.toDigits 16 point ++ ['\x7d']

end MethodSignatures.Text
