import MethodSignatures.Text.Token

/-! # Trimming

`trim` takes the blanks off both ends of a text. What it leaves is bounded by other characters than
blanks (`startsUnblank_trim`, `startsUnblank_reverse_trim`), what it takes is blank (`exists_eq_append_trim`),
and these facts determine it (`trim_append_append`).
-/

namespace MethodSignatures.Text

theorem startsUnblank_dropWhile (text : List Char) : StartsUnblank (text.dropWhile isBlank) := by
  induction text with
  | nil => simp
  | cons c rest ih => by_cases hc : isBlank c = true <;> simp_all

theorem dropWhile_isBlank_of_startsUnblank {text : List Char} (h : StartsUnblank text) :
    text.dropWhile isBlank = text := by
  cases text with
  | nil => rfl
  | cons c rest => simp [startsUnblank_cons.1 h]

def trim (text : List Char) : List Char :=
  ((text.dropWhile isBlank).reverse.dropWhile isBlank).reverse

theorem startsUnblank_reverse_trim (text : List Char) : StartsUnblank (trim text).reverse := by
  rw [trim, List.reverse_reverse]
  exact startsUnblank_dropWhile _

theorem exists_eq_append_trim (text : List Char) :
    ∃ lead trail, text = lead ++ trim text ++ trail ∧
      (∀ c ∈ lead, isBlank c = true) ∧ ∀ c ∈ trail, isBlank c = true := by
  refine ⟨text.takeWhile isBlank, ((text.dropWhile isBlank).reverse.takeWhile isBlank).reverse, ?_, ?_, ?_⟩
  · rw [List.append_assoc, trim, ← List.reverse_append, List.takeWhile_append_dropWhile, List.reverse_reverse,
      List.takeWhile_append_dropWhile]
  · exact List.all_eq_true.1 List.all_takeWhile
  · exact fun c hmem => List.all_eq_true.1 List.all_takeWhile c (List.mem_reverse.1 hmem)

theorem startsUnblank_trim (text : List Char) : StartsUnblank (trim text) := by
  obtain ⟨trail, htrail⟩ : ∃ trail, text.dropWhile isBlank = trim text ++ trail :=
    ⟨((text.dropWhile isBlank).reverse.takeWhile isBlank).reverse, by
      rw [trim, ← List.reverse_append, List.takeWhile_append_dropWhile, List.reverse_reverse]⟩
  have hstart := startsUnblank_dropWhile text
  rw [htrail] at hstart
  cases hname : trim text with
  | nil => simp
  | cons c name => simpa [hname] using hstart

theorem trim_append_append {lead name trail : List Char} (hlead : ∀ c ∈ lead, isBlank c = true)
    (htrail : ∀ c ∈ trail, isBlank c = true) (hstart : StartsUnblank name) (hend : StartsUnblank name.reverse) :
    trim (lead ++ name ++ trail) = name := by
  rw [trim, List.append_assoc, List.dropWhile_append_of_pos hlead]
  cases name with
  | nil => rw [List.nil_append, ← List.append_nil trail, List.dropWhile_append_of_pos htrail]; rfl
  | cons c name =>
    have hjoined : StartsUnblank (c :: name ++ trail) := by simpa using hstart
    rw [dropWhile_isBlank_of_startsUnblank hjoined, List.reverse_append,
      List.dropWhile_append_of_pos (by simpa using htrail), dropWhile_isBlank_of_startsUnblank hend,
      List.reverse_reverse]

end MethodSignatures.Text
