import MethodSignatures.Error

/-! # Access modifiers

The three keywords that may lead a signature. `Modifier.parseFront` reads one at the front of a text, and
`Modifier.parse` reads a text that is one and nothing else; both say of a text that they refuse what it was.
`Modifier.ofKeyword?` looks a text up among the keywords.
-/

namespace MethodSignatures

inductive Modifier where
  | publ
  | priv
  | prot
deriving DecidableEq

namespace Modifier

def keyword : Modifier → String
  | publ => "public"
  | priv => "private"
  | prot => "protected"

/-- Every modifier, in ascending order. -/
def all : List Modifier :=
  [publ, priv, prot]

theorem mem_all (modifier : Modifier) : modifier ∈ all := by
  cases modifier <;> decide

/-! ## Looking a keyword up -/

/-- The modifier whose keyword the whole text is. Case counts, and so do blanks around the keyword. -/
def ofKeyword? (text : String) : Option Modifier :=
  all.find? (·.keyword = text)

theorem ofKeyword?_eq_some_iff {text : String} {modifier : Modifier} :
    ofKeyword? text = some modifier ↔ text = modifier.keyword := by
  constructor
  · intro h
    simpa [eq_comm] using List.find?_some h
  · rintro rfl
    cases modifier <;> decide

@[simp]
theorem ofKeyword?_keyword (modifier : Modifier) : ofKeyword? modifier.keyword = some modifier :=
  ofKeyword?_eq_some_iff.2 rfl

theorem eq_of_keyword_eq {modifier other : Modifier} (same : modifier.keyword = other.keyword) : modifier = other := by
  have sameModifier := congrArg ofKeyword? same
  simpa using sameModifier

theorem ofKeyword?_eq_none_iff {text : String} : ofKeyword? text = none ↔ ∀ modifier, text ≠ keyword modifier := by
  rw [Option.eq_none_iff_forall_ne_some]
  simp [ofKeyword?_eq_some_iff]

/-! ## Reading -/

/-- The modifiers in the order in which their keywords are tried at the front of a text. -/
def tried : List Modifier :=
  [publ, prot, priv]

theorem mem_tried (modifier : Modifier) : modifier ∈ tried := by
  cases modifier <;> decide

/-- The first modifier tried whose keyword leads the text, and the text behind it. -/
def leading? (text : String) : Option (Modifier × String) :=
  tried.findSome? fun modifier =>
    (modifier.keyword.toList.isPrefixOf? text.toList).map fun rest => (modifier, String.ofList rest)

/-- Why no modifier was read at the front of a text. -/
inductive FrontFault where
  /-- No keyword leads `rest`, of which nothing was read. -/
  | noKeyword (rest : String)
deriving DecidableEq

/-- The modifier at the front of a text, and the text behind its keyword. -/
def parseFront (text : String) : Except FrontFault (Modifier × String) :=
  match leading? text with
  | some found => .ok found
  | none => .error (.noKeyword text)

/-- Reads a text that is one keyword and nothing else. Any other text is refused as a whole. -/
def parse (text : String) : Except SignatureError Modifier :=
  match parseFront text with
  | .error _ => .error (.unknownModifier text)
  | .ok (modifier, rest) => if rest.isEmpty then .ok modifier else .error (.unknownModifier text)

/-- An absent keyword is read as an absent modifier. -/
def parseOption : Option String → Except SignatureError (Option Modifier)
  | none => .ok none
  | some text => (parse text).map some

/-! ## Order -/

def rank : Modifier → Nat
  | publ => 0
  | priv => 1
  | prot => 2

instance : Ord Modifier where
  compare left right := compare left.rank right.rank

def sort (modifiers : List Modifier) : List Modifier :=
  modifiers.mergeSort (·.rank ≤ ·.rank)

def neighbours (modifiers : List Modifier) : List Ordering :=
  List.zipWith compare modifiers modifiers.tail

end Modifier

end MethodSignatures
