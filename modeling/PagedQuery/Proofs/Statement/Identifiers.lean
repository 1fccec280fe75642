import Mathlib.Data.List.TakeWhile
import PagedQuery.Dialect.Basic
import PagedQuery.Text.Digits

/-!
# Reading identifiers back

What a database reads where a statement has a name: a bare word in its letters,
or a text in quotes. A doubled quote stands for a quote; in one dialect a
backslash has a meaning as well. A name that is written in quotes is read as
itself, and nothing after it is taken for a part of it, unless a backslash in
it has that meaning.

* `Dialect.isWord`, `Dialect.hasEscapes`: what the dialects read differently;
* `Dialect.readQuoted`, `Dialect.readIdentifier?`: reading an identifier, and what is left;
* `Dialect.readQuoted_doubleQuotes_append`: texts in quotes without a backslash;
* `Dialect.readIdentifier?_quoteIdentifier`: which names are read as themselves.
-/

namespace PagedQuery

/-! ## Reading -/

namespace Dialect

/-- The characters that a bare identifier goes on with. -/
def isWord : Dialect → Char → Bool
  | .clickhouse, c => c.isAlphanum || c = '_'
  | _, c => c.isAlphanum || c = '_' || c = '$' || 128 ≤ c.val

/-- A character of a bare identifier as it counts: one dialect takes letters in lower case. -/
def fold : Dialect → Char → Char
  | .postgres, c => c.toLower
  | _, c => c

/-- Whether a backslash in quotes has a meaning. -/
def hasEscapes : Dialect → Bool
  | .clickhouse => true
  | _ => false

/-- The character that another one stands for after a backslash. -/
def unescape : Char → Char
  | 'a' => '\x07'
  | 'b' => '\x08'
  | 't' => '\t'
  | 'n' => '\n'
  | 'v' => '\x0b'
  | 'f' => '\x0c'
  | 'r' => '\r'
  | '0' => '\x00'
  | c => c

/-- Reads an identifier after its opening quote: the name, and what follows the closing quote. -/
def readQuoted (dialect : Dialect) : List Char → Option (List Char × List Char)
  | [] => none
  | [c] => if c = dialect.identifierQuote then some ([], []) else none
  | c :: d :: rest =>
    if c = dialect.identifierQuote then
      if d = dialect.identifierQuote then
        (readQuoted dialect rest).map fun (name, rest) => (d :: name, rest)
      else some ([], d :: rest)
    else if dialect.hasEscapes && c = '\\' then
      (readQuoted dialect rest).map fun (name, rest) => (unescape d :: name, rest)
    else (readQuoted dialect (d :: rest)).map fun (name, rest) => (c :: name, rest)

/-- Reads the identifier that a text begins with: the name, and what follows it. -/
def readIdentifier? (dialect : Dialect) : List Char → Option (String × List Char)
  | [] => none
  | c :: rest =>
    if c = dialect.identifierQuote then
      (dialect.readQuoted rest).map fun (name, rest) => (String.ofList name, rest)
    else if dialect.isWord c && !c.isDigit then
      some (String.ofList (((c :: rest).takeWhile dialect.isWord).map dialect.fold),
        (c :: rest).dropWhile dialect.isWord)
    else none

example : readIdentifier? .mysql "`a``b`.c".toList = some ("a`b", ".c".toList) := by decide

end Dialect

/-! ## Texts in quotes -/

namespace Identifier

theorem length_doubleQuotes (quote : Char) (text : List Char) :
    (doubleQuotes quote text).length = text.length + text.count quote := by
  induction text with
  | nil => rfl
  | cons c rest ih =>
    rw [doubleQuotes, List.flatMap_cons, List.length_append, ← doubleQuotes, ih, List.length_cons,
      List.count_cons]
    by_cases hc : c = quote
    · simp [hc]
      omega
    · simp [hc]
      omega

theorem count_doubleQuotes (quote : Char) (text : List Char) :
    (doubleQuotes quote text).count quote = 2 * text.count quote := by
  induction text with
  | nil => rfl
  | cons c rest ih =>
    rw [doubleQuotes, List.flatMap_cons, List.count_append, ← doubleQuotes, ih, List.count_cons]
    by_cases hc : c = quote
    · simp [hc]
      omega
    · simp [hc]

end Identifier

namespace Dialect

variable {dialect : Dialect}

theorem readQuoted_quote_cons {rest : List Char}
    (hrest : ∀ c ∈ rest.head?, c ≠ dialect.identifierQuote) :
    dialect.readQuoted (dialect.identifierQuote :: rest) = some ([], rest) := by
  cases rest with
  | nil => simp [readQuoted]
  | cons c rest => simp [readQuoted, hrest c rfl]

/-- A character in quotes that has no meaning there. -/
theorem readQuoted_cons {c : Char} (hquote : c ≠ dialect.identifierQuote)
    (hescape : (dialect.hasEscapes && c = '\\') = false) (rest : List Char) :
    dialect.readQuoted (c :: rest) =
      (dialect.readQuoted rest).map fun (name, rest) => (c :: name, rest) := by
  cases rest with
  | nil => simp [readQuoted, hquote]
  | cons d rest => simp [readQuoted, hquote, hescape]

/-- A text in which every quote is doubled is read as itself. -/
theorem readQuoted_doubleQuotes_append {text : List Char}
    (h : dialect.hasEscapes = true → '\\' ∉ text) (following : List Char) :
    dialect.readQuoted (Identifier.doubleQuotes dialect.identifierQuote text ++ following) =
      (dialect.readQuoted following).map fun (name, rest) => (text ++ name, rest) := by
  induction text with
  | nil => simp [Identifier.doubleQuotes]
  | cons c rest ih =>
    have hread := ih fun hescapes hmem => h hescapes (List.mem_cons_of_mem c hmem)
    by_cases hquote : c = dialect.identifierQuote
    · have hdouble : Identifier.doubleQuotes dialect.identifierQuote (c :: rest) =
          c :: c :: Identifier.doubleQuotes dialect.identifierQuote rest := by
        simp [Identifier.doubleQuotes, hquote]
      rw [hdouble, List.cons_append, List.cons_append, readQuoted, if_pos hquote, if_pos hquote,
        hread, Option.map_map]
      rfl
    · have hsingle : Identifier.doubleQuotes dialect.identifierQuote (c :: rest) =
          c :: Identifier.doubleQuotes dialect.identifierQuote rest := by
        simp [Identifier.doubleQuotes, hquote]
      have hescape : (dialect.hasEscapes && c = '\\') = false := by
        rw [Bool.and_eq_false_imp]
        rintro hescapes
        exact decide_eq_false fun heq => h hescapes (heq ▸ List.mem_cons_self)
      rw [hsingle, List.cons_append, readQuoted_cons hquote hescape, hread, Option.map_map]
      rfl

/-- Every character of a name takes one character of the text that is no quote, or two quotes. -/
theorem two_mul_length_lt_of_readQuoted {text name rest : List Char}
    (h : dialect.readQuoted text = some (name, rest)) :
    ∃ consumed, text = consumed ++ rest ∧
      2 * name.length + consumed.count dialect.identifierQuote < 2 * consumed.length := by
  fun_induction readQuoted dialect text generalizing name rest with
  | case1 => cases h
  | case2 =>
    cases h
    exact ⟨[_], rfl, by simp⟩
  | case3 => cases h
  | case4 rest₁ ih =>
    obtain ⟨⟨name₁, rest₂⟩, hread, heq⟩ := Option.map_eq_some_iff.mp h
    cases heq
    obtain ⟨consumed, rfl, hlt⟩ := ih hread
    exact ⟨_ :: _ :: consumed, rfl, by simp; omega⟩
  | case5 d rest₁ hd =>
    cases h
    exact ⟨[_], rfl, by simp⟩
  | case6 c d rest₁ hc hescape ih =>
    obtain ⟨⟨name₁, rest₂⟩, hread, heq⟩ := Option.map_eq_some_iff.mp h
    cases heq
    obtain ⟨consumed, rfl, hlt⟩ := ih hread
    refine ⟨c :: d :: consumed, rfl, ?_⟩
    simp only [List.length_cons, List.count_cons, beq_iff_eq, hc, if_false]
    split <;> omega
  | case7 c d rest₁ hc hescape ih =>
    obtain ⟨⟨name₁, rest₂⟩, hread, heq⟩ := Option.map_eq_some_iff.mp h
    cases heq
    obtain ⟨consumed, htext, hlt⟩ := ih hread
    refine ⟨c :: consumed, by rw [htext, List.cons_append], ?_⟩
    simp only [List.length_cons, List.count_cons, beq_iff_eq, hc, if_false]
    omega

/-- A text with a backslash is not read as itself where a backslash has a meaning: it takes the
character after it out of the text, and no character is left for that. -/
theorem not_mem_of_readQuoted {text following : List Char} (hescapes : dialect.hasEscapes = true)
    (h : dialect.readQuoted (Identifier.doubleQuotes dialect.identifierQuote text ++
      dialect.identifierQuote :: following) = some (text, following)) : '\\' ∉ text := by
  intro hmem
  obtain ⟨u, w, rfl, hu⟩ := List.eq_append_cons_of_mem hmem
  have hquote : '\\' ≠ dialect.identifierQuote := by cases dialect <;> decide
  have hdouble : Identifier.doubleQuotes dialect.identifierQuote (u ++ '\\' :: w) =
      Identifier.doubleQuotes dialect.identifierQuote u ++
        '\\' :: Identifier.doubleQuotes dialect.identifierQuote w := by
    simp [Identifier.doubleQuotes, hquote]
  rw [hdouble, List.append_assoc, List.cons_append,
    readQuoted_doubleQuotes_append fun _ => hu] at h
  obtain ⟨d, rest, hd⟩ : ∃ d rest, Identifier.doubleQuotes dialect.identifierQuote w ++
      dialect.identifierQuote :: following = d :: rest :=
    List.exists_cons_of_ne_nil (by simp)
  rw [hd, readQuoted, if_neg hquote, hescapes] at h
  obtain ⟨⟨name, left⟩, hmap, heq⟩ := Option.map_eq_some_iff.mp h
  obtain ⟨⟨name', left'⟩, hread, heq'⟩ := Option.map_eq_some_iff.mp hmap
  cases heq'
  obtain ⟨hname, rfl⟩ := Prod.mk.inj heq
  obtain ⟨-, rfl⟩ := List.cons.inj (List.append_cancel_left hname)
  obtain ⟨consumed, rfl, hlt⟩ := two_mul_length_lt_of_readQuoted hread
  -- the rest of the text and its closing quote, but for the character after the backslash
  have hconsumed : Identifier.doubleQuotes dialect.identifierQuote name' ++
      [dialect.identifierQuote] = d :: consumed := by
    have hsame : (Identifier.doubleQuotes dialect.identifierQuote name' ++
        [dialect.identifierQuote]) ++ left = (d :: consumed) ++ left := by simpa using hd
    exact List.append_cancel_right hsame
  have hlength := congrArg List.length hconsumed
  have hcount := congrArg (List.count dialect.identifierQuote) hconsumed
  simp only [List.length_append, List.length_cons, List.length_nil,
    Identifier.length_doubleQuotes] at hlength
  rw [List.count_append, List.count_singleton_self, Identifier.count_doubleQuotes,
    List.count_cons] at hcount
  split at hcount <;> omega

/-! ## Bare words -/

theorem isWord_of_isTail {c : Char} (h : Identifier.isTail c = true) : dialect.isWord c = true := by
  have hword : (c.isAlphanum || c = '_') = true := by
    simp only [Identifier.isTail, Bool.or_eq_true, decide_eq_true_eq] at h
    rcases h with (hlower | hdigit) | rfl
    · have halpha : c.isAlpha = true := (Bool.or_eq_true _ _).mpr (.inr hlower)
      simp [Char.isAlphanum, halpha]
    · simp [Char.isAlphanum, hdigit]
    · rfl
  cases dialect <;> simp_all [isWord]

/-- Letters of bare names are in lower case already. -/
theorem fold_of_isTail {c : Char} (h : Identifier.isTail c = true) : dialect.fold c = c := by
  have hlower : c.toLower = c := by
    refine Text.toLower_eq_self ?_
    simp only [Identifier.isTail, Bool.or_eq_true, decide_eq_true_eq] at h
    rcases h with (hlower | hdigit) | rfl
    · have hrange := Text.range_of_isLower hlower
      omega
    · have hrange := Text.range_of_isDigit hdigit
      omega
    · exact .inr (by decide)
  cases dialect
  · exact hlower
  · rfl
  · rfl

theorem isTail_of_isHead {c : Char} (h : Identifier.isHead c = true) :
    Identifier.isTail c = true ∧ c.isDigit = false := by
  simp only [Identifier.isHead, Bool.or_eq_true, decide_eq_true_eq] at h
  rcases h with hlower | rfl
  · refine ⟨by simp [Identifier.isTail, hlower], ?_⟩
    rw [← Bool.not_eq_true]
    intro hdigit
    have hletters := Text.range_of_isLower hlower
    have hdigits := Text.range_of_isDigit hdigit
    omega
  · decide

theorem ne_identifierQuote_of_isTail {c : Char} (h : Identifier.isTail c = true) :
    c ≠ dialect.identifierQuote := by
  rintro rfl
  cases dialect <;> cases h

theorem isTail_of_isPlain {text : List Char} (h : Identifier.isPlain text = true) :
    ∀ c ∈ text, Identifier.isTail c = true := by
  cases text with
  | nil => cases h
  | cons c rest =>
    rw [Identifier.isPlain, Bool.and_eq_true, List.all_eq_true] at h
    exact List.forall_mem_cons.mpr ⟨(isTail_of_isHead h.1).1, h.2⟩

/-- A plain name is read up to the first character that does not belong to a word. -/
theorem readIdentifier?_of_isPlain {name : String} (h : Identifier.isPlain name.toList = true)
    {following : List Char} (hfollowing : ∀ c ∈ following.head?, dialect.isWord c = false) :
    dialect.readIdentifier? (name.toList ++ following) = some (name, following) := by
  have htails := isTail_of_isPlain h
  obtain ⟨c, rest, hname⟩ : ∃ c rest, name.toList = c :: rest :=
    List.exists_cons_of_ne_nil (by rintro hnil; rw [hnil] at h; cases h)
  rw [hname, Identifier.isPlain, Bool.and_eq_true] at h
  obtain ⟨htail, hdigit⟩ := isTail_of_isHead h.1
  have htake : (name.toList ++ following).takeWhile dialect.isWord = name.toList ∧
      (name.toList ++ following).dropWhile dialect.isWord = following := by
    rw [List.takeWhile_append_of_pos fun d hd => isWord_of_isTail (htails d hd),
      List.dropWhile_append_of_pos fun d hd => isWord_of_isTail (htails d hd)]
    cases following with
    | nil => simp
    | cons d following => simp [hfollowing d rfl]
  have hfold : name.toList.map dialect.fold = name.toList :=
    (List.map_congr_left fun d hd => fold_of_isTail (htails d hd)).trans (List.map_id _)
  rw [hname, List.cons_append, readIdentifier?, if_neg (ne_identifierQuote_of_isTail htail),
    isWord_of_isTail htail, hdigit, ← List.cons_append, ← hname, htake.1, htake.2, hfold,
    String.ofList_toList]
  rfl

/-! ## Names as they are written -/

/-- A name in quotes is read as itself exactly if no backslash in it has a meaning. -/
theorem readIdentifier?_quoted (name : String) {following : List Char}
    (hfollowing : ∀ c ∈ following.head?, c ≠ dialect.identifierQuote) :
    dialect.readIdentifier?
        (Identifier.quoted dialect.identifierQuote name.toList ++ following) =
          some (name, following) ↔
      (dialect.hasEscapes = true → '\\' ∉ name.toList) := by
  have hread : dialect.readIdentifier?
      (Identifier.quoted dialect.identifierQuote name.toList ++ following) =
        (dialect.readQuoted (Identifier.doubleQuotes dialect.identifierQuote name.toList ++
          dialect.identifierQuote :: following)).map fun (name, rest) =>
            (String.ofList name, rest) := by
    simp [Identifier.quoted, readIdentifier?]
  rw [hread]
  constructor
  · intro hself hescapes
    obtain ⟨⟨read, left⟩, hquoted, heq⟩ := Option.map_eq_some_iff.mp hself
    obtain ⟨rfl, rfl⟩ := Prod.mk.inj heq
    rw [String.toList_ofList] at hquoted ⊢
    exact not_mem_of_readQuoted hescapes hquoted
  · intro hbackslash
    rw [readQuoted_doubleQuotes_append hbackslash, readQuoted_quote_cons hfollowing]
    simp

theorem quoteIdentifier_injective_of_hasEscapes_eq_false (h : dialect.hasEscapes = false) :
    Function.Injective dialect.quoteIdentifier := by
  have hread (name : String) :
      dialect.readIdentifier? (dialect.quoteIdentifier name) = some (name, []) := by
    unfold quoteIdentifier
    split
    · rename_i hplain
      have hnone : ∀ c ∈ ([] : List Char).head?, dialect.isWord c = false := by simp
      simpa using readIdentifier?_of_isPlain hplain hnone
    · have hnone : ∀ c ∈ ([] : List Char).head?, c ≠ dialect.identifierQuote := by simp
      simpa [h] using readIdentifier?_quoted name hnone
  intro a b hab
  have hsame := hread a
  rw [hab, hread b] at hsame
  exact (Prod.mk.inj (Option.some.inj hsame)).1.symm

/-- No two names are written alike. -/
theorem quoteIdentifier_injective (dialect : Dialect) :
    Function.Injective dialect.quoteIdentifier := by
  cases dialect with
  | postgres => exact quoteIdentifier_injective_of_hasEscapes_eq_false rfl
  | mysql => exact quoteIdentifier_injective_of_hasEscapes_eq_false rfl
  | clickhouse =>
    -- names are written as in the first dialect, though they are read differently
    have hinjective : Function.Injective (quoteIdentifier .postgres) :=
      quoteIdentifier_injective_of_hasEscapes_eq_false rfl
    exact hinjective

/-- A name as it is written is read as itself, and all that follows is left, exactly if no
backslash in it has a meaning for the dialect. No two names are written alike. -/
theorem readIdentifier?_quoteIdentifier (dialect : Dialect) :
    Function.Injective dialect.quoteIdentifier ∧
      ∀ (name : String) (following : List Char),
        (∀ c ∈ following.head?, dialect.isWord c = false ∧ c ≠ dialect.identifierQuote) →
          (dialect.readIdentifier? (dialect.quoteIdentifier name ++ following) =
              some (name, following) ↔
            (dialect.hasEscapes = true → '\\' ∉ name.toList)) := by
  refine ⟨quoteIdentifier_injective dialect, ?_⟩
  intro name following hfollowing
  by_cases hplain : Identifier.isPlain name.toList = true
  · have hread := readIdentifier?_of_isPlain hplain fun c hc => (hfollowing c hc).1
    rw [quoteIdentifier, if_pos hplain]
    refine iff_of_true hread fun _ hbackslash => ?_
    have htail := isTail_of_isPlain hplain _ hbackslash
    exact absurd htail (by decide)
  · rw [quoteIdentifier, if_neg hplain]
    exact readIdentifier?_quoted name fun c hc => (hfollowing c hc).2

/-- A name with quotes and a backslash, before the name of a column. -/
theorem readIdentifier?_quoteIdentifier_oddName :
    readIdentifier? .mysql (quoteIdentifier .mysql "a`\\\"`" ++ ".c".toList) =
        some ("a`\\\"`", ".c".toList) ∧
      readIdentifier? .clickhouse (quoteIdentifier .clickhouse "a\\" ++ ".c".toList) ≠
        some ("a\\", ".c".toList) := by
  have hfollowing (dialect : Dialect) : ∀ c ∈ ".c".toList.head?,
      dialect.isWord c = false ∧ c ≠ dialect.identifierQuote := by
    intro c hc
    obtain rfl : '.' = c := Option.some.inj hc
    cases dialect <;> decide
  have hmysql := (readIdentifier?_quoteIdentifier .mysql).2 "a`\\\"`" _ (hfollowing .mysql)
  have hclickhouse := (readIdentifier?_quoteIdentifier .clickhouse).2 "a\\" _ (hfollowing _)
  exact ⟨hmysql.mpr (by decide), fun hread => absurd (hclickhouse.mp hread rfl) (by decide)⟩

/-- A name that ends its own quotes: what comes after them in the name is read as a part of the
statement. -/
theorem quoteIdentifier_not_read_back :
    (∀ c ∈ " FROM sales".toList.head?,
        isWord .clickhouse c = false ∧ c ≠ identifierQuote .clickhouse) ∧
      readIdentifier? .clickhouse
          (quoteIdentifier .clickhouse "id\\\" FROM secrets --" ++ " FROM sales".toList) =
        some ("id\"", " FROM secrets --\" FROM sales".toList) := by
  refine ⟨fun c hc => ?_, by decide +kernel⟩
  obtain rfl : ' ' = c := Option.some.inj hc
  decide

end Dialect

end PagedQuery
