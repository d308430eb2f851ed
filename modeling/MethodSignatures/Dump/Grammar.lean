import MethodSignatures.Dump
import MethodSignatures.Text.Token

/-! # The grammar of dumps

Which texts spell a dump. The layouts of a dump differ in the blanks around the members of a group and in the comma
behind the last one; the grammar leaves both free. It is strict about names, which end where a sign begins: with other
words than `Named` allows, a dump need not be told from another one.
-/

namespace MethodSignatures.Dump

def isNameChar (c : Char) : Bool :=
  c.isAlpha || c = '_'

def IsName (text : List Char) : Prop :=
  text ≠ [] ∧ ∀ c ∈ text, isNameChar c = true

/-- A group may go without a name, unless its opening bracket stands apart from it. -/
structure IsGroupName (brackets : Brackets) (name : List Char) : Prop where
  isNameChar_of_mem : ∀ c ∈ name, isNameChar c = true
  nonempty : brackets = .curly → name ≠ []

theorem isGroupName_iff {brackets : Brackets} {name : List Char} :
    IsGroupName brackets name ↔ (∀ c ∈ name, isNameChar c = true) ∧ (brackets = .curly → name ≠ []) :=
  ⟨fun h => ⟨h.1, h.2⟩, fun ⟨h₁, h₂⟩ => ⟨h₁, h₂⟩⟩

-- As for tokens, names are decided along the text.
instance (text : List Char) : Decidable (IsName text) :=
  @instDecidableAnd (text ≠ []) _ _ (List.decidableBAll (isNameChar · = true) text)

instance (brackets : Brackets) (name : List Char) : Decidable (IsGroupName brackets name) :=
  @decidable_of_iff' _ _ isGroupName_iff
    (@instDecidableAnd _ _ (List.decidableBAll (isNameChar · = true) name) inferInstance)

/-- All words, labels and names in a dump are such that a sign ends them. -/
inductive Named : Dump → Prop where
  | word {text : String} (isName : IsName text.toList) : Named (.word text)
  | number (value : Nat) : Named (.number value)
  | quoted (content : String) : Named (.quoted content)
  | field {label : String} {value : Dump} (isName : IsName label.toList) (valueNamed : Named value) :
      Named (.field label value)
  | group {name : String} {brackets : Brackets} {members : List Dump} (isName : IsGroupName brackets name.toList)
      (membersNamed : ∀ member ∈ members, Named member) : Named (.group name brackets members)

mutual
/-- `text` spells `dump`, with its texts quoted in a style. -/
inductive Spells (style : Text.QuoteStyle) : (text : List Char) → (dump : Dump) → Prop where
  | word {text : String} (isName : IsName text.toList) : Spells style text.toList (.word text)
  | number {value : Nat} : Spells style (Nat.toDigits 10 value) (.number value)
  | quoted {content : String} : Spells style (style.quote content) (.quoted content)
  | field {label : String} {text : List Char} {value : Dump} (isName : IsName label.toList)
      (spelled : Spells style text value) : Spells style (label.toList ++ ':' :: ' ' :: text) (.field label value)
  | group {name : String} {brackets : Brackets} {text : List Char} {members : List Dump}
      (isName : IsGroupName brackets name.toList) (spelled : SpellsMembers style text members) :
      Spells style (name.toList ++ brackets.opening ++ text ++ [brackets.closing]) (.group name brackets members)

/-- `text` spells the members of a group, all that stands between its brackets. -/
inductive SpellsMembers (style : Text.QuoteStyle) : (text : List Char) → (members : List Dump) → Prop where
  | nil {gap : List Char} (isGap : Text.AllBlank gap) : SpellsMembers style gap []
  | last {before text after : List Char} {member : Dump} (isGap : Text.AllBlank before)
      (spelled : Spells style text member) (isGapAfter : Text.AllBlank after) :
      SpellsMembers style (before ++ text ++ after) [member]
  | cons {before text others : List Char} {member : Dump} {members : List Dump} (isGap : Text.AllBlank before)
      (spelled : Spells style text member) (rest : SpellsMembers style others members) :
      SpellsMembers style (before ++ text ++ ',' :: others) (member :: members)
end

end MethodSignatures.Dump
