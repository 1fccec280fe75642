import Mathlib.Data.List.Infix
import PagedQuery.Query.Predicate

/-!
# Patterns of texts

A text is compared with a pattern by `LIKE`: a percent sign stands for any
text, an underscore for any character, and a backslash takes the character
after it as it is. The pattern that is bound to search for a text is matched by
the texts that contain it, whatever characters the text has.

* `Pattern.accepts`: whether a text matches a pattern;
* `Pattern.accepts_escapePattern_append`: escaped texts match themselves only;
* `Leaf.accepts_iff_isInfix_of_contains`: the pattern of a leaf.
-/

namespace PagedQuery

namespace Pattern

/-- Whether a text matches a pattern. A backslash with nothing after it matches no text. -/
def accepts : (pattern text : List Char) → Bool
  | [], text => text.isEmpty
  | '%' :: pattern, text => text.tails.any (accepts pattern)
  | '_' :: pattern, text => !text.isEmpty && accepts pattern text.tail
  | ['\\'], _ => false
  | '\\' :: c :: pattern, text => text.head? = some c && accepts pattern text.tail
  | c :: pattern, text => text.head? = some c && accepts pattern text.tail

example : accepts "%50\\%\\_o_f%".toList "now 50%_off!".toList = true := by decide

/-- A character that the pattern asks for is the first one of the text. -/
theorem head?_and_accepts_iff {c : Char} {pattern text : List Char} :
    (text.head? = some c && accepts pattern text.tail) = true ↔
      ∃ rest, text = c :: rest ∧ accepts pattern rest = true := by
  cases text with
  | nil => simp
  | cons d rest => simp [and_assoc]

/-- A percent sign matches what comes before a text that matches the rest of the pattern. -/
theorem accepts_percent_cons {pattern text : List Char} :
    accepts ('%' :: pattern) text = true ↔
      ∃ before rest, text = before ++ rest ∧ accepts pattern rest = true := by
  rw [accepts, List.any_eq_true]
  constructor
  · rintro ⟨rest, hrest, haccepts⟩
    obtain ⟨before, rfl⟩ := (List.mem_tails _ _).mp hrest
    exact ⟨before, rest, rfl, haccepts⟩
  · rintro ⟨before, rest, rfl, haccepts⟩
    exact ⟨rest, (List.mem_tails _ _).mpr (List.suffix_append before rest), haccepts⟩

theorem accepts_percent (text : List Char) : accepts ['%'] text = true :=
  accepts_percent_cons.mpr ⟨text, [], (List.append_nil text).symm, rfl⟩

/-- A character without a meaning in patterns stands for itself. -/
theorem accepts_cons {c : Char} (hplain : Literal.isPatternChar c = false)
    (pattern text : List Char) :
    accepts (c :: pattern) text = (text.head? = some c && accepts pattern text.tail) := by
  simp only [Literal.isPatternChar, Bool.or_eq_false_iff, decide_eq_false_iff_not] at hplain
  obtain ⟨⟨hbackslash, hpercent⟩, hunderscore⟩ := hplain
  rw [accepts]
  · exact hpercent
  · exact hunderscore
  · exact fun h _ => hbackslash h
  · exact fun _ _ h _ => hbackslash h

/-- A character as it is escaped matches itself. -/
theorem accepts_escapePattern_cons {c : Char} {pattern text : List Char} :
    accepts (Literal.escapePattern [c] ++ pattern) text = true ↔
      ∃ rest, text = c :: rest ∧ accepts pattern rest = true := by
  cases hmark : Literal.isPatternChar c with
  | true =>
    have hescaped : Literal.escapePattern [c] ++ pattern = '\\' :: c :: pattern := by
      simp [Literal.escapePattern, hmark]
    rw [hescaped, accepts]
    exact head?_and_accepts_iff
  | false =>
    have hescaped : Literal.escapePattern [c] ++ pattern = c :: pattern := by
      simp [Literal.escapePattern, hmark]
    rw [hescaped, accepts_cons hmark]
    exact head?_and_accepts_iff

/-- A text as it is escaped matches itself, and what follows matches the rest of the pattern. -/
theorem accepts_escapePattern_append {searched pattern text : List Char} :
    accepts (Literal.escapePattern searched ++ pattern) text = true ↔
      ∃ rest, text = searched ++ rest ∧ accepts pattern rest = true := by
  induction searched generalizing text with
  | nil => simp [Literal.escapePattern]
  | cons c searched ih =>
    have hcons : Literal.escapePattern (c :: searched) ++ pattern =
        Literal.escapePattern [c] ++ (Literal.escapePattern searched ++ pattern) := by
      simp [Literal.escapePattern]
    rw [hcons, accepts_escapePattern_cons]
    constructor
    · rintro ⟨after, rfl, hafter⟩
      obtain ⟨rest, rfl, hrest⟩ := ih.mp hafter
      exact ⟨rest, rfl, hrest⟩
    · rintro ⟨rest, rfl, hrest⟩
      exact ⟨searched ++ rest, rfl, ih.mpr ⟨rest, rfl, hrest⟩⟩

/-- The pattern of a text is matched by the texts that contain it. -/
theorem accepts_likePattern_iff (searched text : String) :
    accepts (Literal.likePattern searched).toList text.toList = true ↔
      searched.toList <:+: text.toList := by
  rw [Literal.likePattern, String.toList_ofList, List.cons_append, accepts_percent_cons]
  constructor
  · rintro ⟨before, rest, htext, hrest⟩
    obtain ⟨after, rfl, -⟩ := accepts_escapePattern_append.mp hrest
    exact ⟨before, after, by rw [htext, List.append_assoc]⟩
  · rintro ⟨before, after, htext⟩
    refine ⟨before, searched.toList ++ after, by rw [← htext, List.append_assoc], ?_⟩
    exact accepts_escapePattern_append.mpr ⟨after, rfl, accepts_percent after⟩

end Pattern

namespace Leaf

/-- A leaf that searches for a text compares its column with a pattern, which a text matches
exactly if it contains the searched one. -/
theorem accepts_iff_isInfix_of_contains {ctx : Context} {leaf : Leaf} {searched : String}
    (hop : leaf.op = .contains) (hvalues : leaf.values = [searched])
    (htype : ctx.catalog.fieldType leaf.field = .string ∨
      ctx.catalog.fieldType leaf.field = .unknown) (qualifier : Option String) :
    ∃ pattern, leaf.predicate ctx qualifier =
        .ok (.compare (columnOf qualifier leaf.field) .like (.param (.string pattern))) ∧
      ∀ text : String, Pattern.accepts pattern.toList text.toList = true ↔
        searched.toList <:+: text.toList := by
  refine ⟨Literal.likePattern searched, ?_, Pattern.accepts_likePattern_iff searched⟩
  have hsingle : leaf.single = .ok searched := by rw [single, hvalues]
  have hstring : leaf.op.isStringOnly = true := by rw [hop]; rfl
  have hnull : leaf.op ≠ .isNull := by simp [hop]
  rw [predicate, if_neg hnull, if_pos hstring, if_pos htype, hsingle, hop]
  rfl

/-- Signs that have a meaning in patterns are searched for as they are. -/
theorem accepts_iff_isInfix_of_contains_discount :
    ∃ pattern, Leaf.predicate ⟨.empty, .mysql⟩ (some "t") ⟨.contains, "note", .unknown, ["50%_\\"]⟩ =
        .ok (.compare (columnOf (some "t") "note") .like (.param (.string pattern))) ∧
      Pattern.accepts pattern.toList "now 50%_\\ off".toList = true ∧
      Pattern.accepts pattern.toList "now 500_\\ off".toList = false := by
  have hvalues : (⟨.contains, "note", .unknown, ["50%_\\"]⟩ : Leaf).values = ["50%_\\"] := rfl
  have htype : (⟨.empty, .mysql⟩ : Context).catalog.fieldType "note" = .unknown := rfl
  obtain ⟨pattern, hpredicate, haccepts⟩ :=
    accepts_iff_isInfix_of_contains rfl hvalues (.inr htype) (some "t")
  refine ⟨pattern, hpredicate, (haccepts _).mpr (by decide), ?_⟩
  rw [← Bool.not_eq_true, haccepts]
  decide

end Leaf

end PagedQuery
