/-! # Blank characters

The characters with the Unicode property White_Space. They end a head token, they are trimmed from a
method name, and a text of nothing else counts as empty. Arguments do not use them: there only the
plain space U+0020 divides, and every other blank is part of a token.
-/

namespace MethodSignatures.Text

/-- Closed ranges of code points, ascending and apart: the 25 characters with the property White_Space. -/
def blankRanges : List (Nat × Nat) :=
  [(0x09, 0x0D), (0x20, 0x20), (0x85, 0x85), (0xA0, 0xA0), (0x1680, 0x1680), (0x2000, 0x200A),
   (0x2028, 0x2029), (0x202F, 0x202F), (0x205F, 0x205F), (0x3000, 0x3000)]

def inRanges (ranges : List (Nat × Nat)) (code : Nat) : Bool :=
  ranges.any fun (first, last) => first ≤ code && code ≤ last

def isBlank (c : Char) : Bool :=
  inRanges blankRanges c.toNat

@[simp]
theorem isBlank_space : isBlank ' ' = true := by decide

example : (blankRanges.map fun (first, last) => last + 1 - first).sum = 25 := by decide

end MethodSignatures.Text
