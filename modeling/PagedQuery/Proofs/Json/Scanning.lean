import Mathlib.Data.List.TakeWhile
import PagedQuery.Json.Printer
import PagedQuery.Json.Reader

/-!
# Scanning what was written

The scanner finds in the compact text of a value the tokens that the value is
made of. A number has no end of its own: it ends with the text or at the next
token, which is never part of a number.

* `Json.Numeral.read?_render`: numbers read as what was written;
* `Json.Scanner.Ends`, `Json.Scans`: tokens found so far, and texts with known tokens;
* `Json.scans_quote`: strings, with their escapes;
* `Json.scan?_renderChars`: the tokens of a value.
-/

namespace PagedQuery.Json

/-! ## Numbers -/

section

variable {n : Nat} {c : Char}

theorem isDigit_of_mem_toDigits (hc : c ∈ Nat.toDigits 10 n) : c.isDigit = true :=
  Nat.isDigit_of_mem_toDigits (by decide) (by decide) hc

/-- Only zero is written with a zero in front. -/
theorem eq_zero_of_head?_toDigits (h : (Nat.toDigits 10 n).head? = some '0') : n = 0 := by
  induction n using Nat.strongRecOn with
  | _ n ih =>
    rw [Nat.toDigits_eq_if (by decide)] at h
    split at h
    · have hdigit : ∀ m < 10, Nat.digitChar m = '0' → m = 0 := by decide
      exact hdigit n ‹_› (Option.some.inj h)
    · have hge : 10 ≤ n := Nat.le_of_not_lt ‹_›
      obtain ⟨first, rest, hdigits⟩ := List.exists_cons_of_ne_nil
        (Nat.toDigits_ne_nil (b := 10) (n := n / 10))
      rw [hdigits] at h
      have hzero : n / 10 = 0 := by
        apply ih (n / 10) (by omega)
        rw [hdigits]
        exact h
      omega

theorem digitsValue_toDigits (n : Nat) : Binary64.digitsValue (Nat.toDigits 10 n) = n :=
  Nat.ofDigitChars_ten_toDigits

/-- The digits in front of what is no digit. -/
theorem span_toDigits (n : Nat) {rest : List Char}
    (hrest : ∀ c ∈ rest.head?, c.isDigit = false) :
    (Nat.toDigits 10 n ++ rest).takeWhile Char.isDigit = Nat.toDigits 10 n ∧
      (Nat.toDigits 10 n ++ rest).dropWhile Char.isDigit = rest := by
  have hall : ∀ c ∈ Nat.toDigits 10 n, c.isDigit = true := fun c hc => isDigit_of_mem_toDigits hc
  rw [List.takeWhile_append_of_pos hall, List.dropWhile_append_of_pos hall]
  cases rest with
  | nil => simp
  | cons c rest =>
    have hc : c.isDigit = false := hrest c rfl
    simp [hc]

end

theorem exists_cons_toDigits (n : Nat) :
    ∃ first rest, Nat.toDigits 10 n = first :: rest ∧ first.isDigit = true := by
  obtain ⟨first, rest, hdigits⟩ :=
    List.exists_cons_of_ne_nil (Nat.toDigits_ne_nil (b := 10) (n := n))
  refine ⟨first, rest, hdigits, ?_⟩
  apply isDigit_of_mem_toDigits (n := n)
  rw [hdigits]
  exact List.mem_cons_self

theorem splitSign_toDigits (n : Nat) :
    Binary64.splitSign (Nat.toDigits 10 n) = (false, Nat.toDigits 10 n) := by
  obtain ⟨first, rest, hdigits, hfirst⟩ := exists_cons_toDigits n
  rw [hdigits]
  unfold Binary64.splitSign
  split
  · rename_i heq
    cases heq
    cases hfirst
  · rename_i heq
    cases heq
    cases hfirst
  · rfl

namespace Numeral

theorem readExponent?_of_splitSign {text : List Char} {negative : Bool} {n : Nat}
    (hne : text ≠ []) (hsplit : Binary64.splitSign text = (negative, Nat.toDigits 10 n)) :
    readExponent? text = some (if negative then -(n : Int) else n) := by
  have hall : (Nat.toDigits 10 n).all Char.isDigit = true :=
    List.all_eq_true.mpr fun c hc => isDigit_of_mem_toDigits hc
  cases text with
  | nil => exact absurd rfl hne
  | cons c rest =>
    simp only [readExponent?, hsplit, digitsValue_toDigits]
    exact if_pos ⟨Nat.toDigits_ne_nil, hall⟩

theorem readExponent?_toString (exponent : Int) :
    readExponent? (toString exponent).toList = some exponent := by
  change readExponent? exponent.repr.toList = some exponent
  rw [Int.repr_eq_if]
  split
  · have hpos : 0 ≤ exponent := ‹_›
    rw [Nat.toList_repr, readExponent?_of_splitSign Nat.toDigits_ne_nil (splitSign_toDigits _)]
    simp only [Bool.false_eq_true, if_false, Int.toNat_of_nonneg hpos]
  · have hneg : exponent < 0 := Int.not_le.mp ‹_›
    rw [String.toList_append, Nat.toList_repr]
    have hsplit : Binary64.splitSign ("-".toList ++ Nat.toDigits 10 (-exponent).toNat) =
        (true, Nat.toDigits 10 (-exponent).toNat) := rfl
    rw [readExponent?_of_splitSign (by simp) hsplit]
    simp only [if_true]
    congr 1
    omega

/-- The digits of a number are read up to what is no digit. -/
theorem read?_toDigits (negative : Bool) (n : Nat) (tail : List Char)
    (htail : ∀ c ∈ tail.head?, c.isDigit = false) :
    read? ((if negative then ['-'] else []) ++ (Nat.toDigits 10 n ++ tail)) =
      readTail? negative (Nat.toDigits 10 n) tail := by
  obtain ⟨htake, hdrop⟩ := span_toDigits n htail
  have hzeros : ¬ (Nat.toDigits 10 n = [] ∨
      (Nat.toDigits 10 n).head? = some '0' ∧ 1 < (Nat.toDigits 10 n).length) := by
    rintro (hnil | ⟨hhead, hlength⟩)
    · exact Nat.toDigits_ne_nil hnil
    · rw [eq_zero_of_head?_toDigits hhead] at hlength
      exact absurd hlength (by decide)
  cases negative with
  | true =>
    simp only [if_true, List.cons_append, List.nil_append, read?, htake, hdrop]
    exact if_neg hzeros
  | false =>
    obtain ⟨first, rest, hdigits, hfirst⟩ := exists_cons_toDigits n
    have hsign : first ≠ '-' := by
      rintro rfl
      cases hfirst
    rw [hdigits] at htake hdrop hzeros ⊢
    simp only [Bool.false_eq_true, if_false, List.nil_append, read?]
    split
    · rename_i heq
      exact absurd (List.cons.inj heq).1 hsign
    · rw [htake, hdrop]
      exact if_neg hzeros

theorem read?_render (n : Numeral) : read? n.render = some n := by
  cases n with
  | integer negative magnitude =>
    have hread := read?_toDigits negative magnitude [] nofun
    rw [List.append_nil] at hread
    rw [render, hread, readTail?, digitsValue_toDigits]
  | decimal negative digits exponent =>
    have hread := read?_toDigits negative digits ('e' :: (toString exponent).toList) (by simp)
    have htail (text : List Char) : readTail? negative (Nat.toDigits 10 digits) ('e' :: text) =
        (readExponent? text).map fun exponent =>
          .decimal negative (Binary64.digitsValue (Nat.toDigits 10 digits)) exponent := rfl
    rw [render, List.append_assoc, hread, htail, readExponent?_toString, digitsValue_toDigits]
    rfl

/-- The first character of a number tells that it is one. -/
theorem exists_cons_render (n : Numeral) :
    ∃ first rest, n.render = first :: rest ∧ (first.isDigit || first = '-') = true := by
  have hfirst (negative : Bool) (m : Nat) (tail : List Char) :
      ∃ first rest, (if negative then ['-'] else []) ++ Nat.toDigits 10 m ++ tail = first :: rest ∧
        (first.isDigit || first = '-') = true := by
    cases negative with
    | true => exact ⟨'-', _, rfl, rfl⟩
    | false =>
      obtain ⟨first, rest, hdigits, hdigit⟩ := exists_cons_toDigits m
      refine ⟨first, rest ++ tail, ?_, ?_⟩
      · rw [hdigits]
        rfl
      · rw [hdigit, Bool.true_or]
  cases n with
  | integer negative magnitude =>
    have hread := hfirst negative magnitude []
    rwa [List.append_nil] at hread
  | decimal negative digits exponent => exact hfirst negative digits _

theorem isNumberChar_of_mem_render {n : Numeral} {c : Char} (hc : c ∈ n.render) :
    isNumberChar c = true := by
  have hdigit {c : Char} (h : c.isDigit = true) : isNumberChar c = true := by
    rw [isNumberChar, h, Bool.true_or, Bool.true_or, Bool.true_or, Bool.true_or, Bool.true_or]
  have hsign {negative : Bool} (h : c ∈ if negative then ['-'] else []) :
      isNumberChar c = true := by
    cases negative with
    | true =>
      cases List.mem_singleton.mp h
      rfl
    | false => cases h
  cases n with
  | integer negative magnitude =>
    rcases List.mem_append.mp hc with hc | hc
    · exact hsign hc
    · exact hdigit (isDigit_of_mem_toDigits hc)
  | decimal negative digits exponent =>
    rcases List.mem_append.mp hc with hc | hc
    · rcases List.mem_append.mp hc with hc | hc
      · exact hsign hc
      · exact hdigit (isDigit_of_mem_toDigits hc)
    · rcases List.mem_cons.mp hc with rfl | hc
      · rfl
      · change c ∈ exponent.repr.toList at hc
        rw [Int.repr_eq_if] at hc
        split at hc
        · rw [Nat.toList_repr] at hc
          exact hdigit (isDigit_of_mem_toDigits hc)
        · rw [String.toList_append, Nat.toList_repr] at hc
          rcases List.mem_append.mp hc with hc | hc
          · exact hsign (show c ∈ if true then ['-'] else [] from hc)
          · exact hdigit (isDigit_of_mem_toDigits hc)

end Numeral

/-! ## The scanner -/

namespace Scanner

variable {s s' : Scanner} {tokens : List Token} {text rest : List Char} {c : Char}

/-- The scanner after some more text. -/
def run? (s : Scanner) (text : List Char) : Option Scanner :=
  text.foldlM feed s

@[simp] theorem run?_nil : s.run? [] = some s := rfl

theorem run?_cons_of_eq (h : s.feed c = some s') (rest : List Char) :
    s.run? (c :: rest) = s'.run? rest := by
  rw [run?, List.foldlM_cons, h]
  rfl

theorem run?_append_of_eq (h : s.run? text = some s') (rest : List Char) :
    s.run? (text ++ rest) = s'.run? rest := by
  rw [run?, List.foldlM_append]
  change (s.run? text).bind _ = _
  rw [h]
  rfl

/-- The tokens that the scanner has found, the last one first. A number that the text may still
continue counts as found. -/
inductive Ends : List Token → Scanner → Prop where
  | gap {tokens : List Token} : Ends tokens { mode := .gap, tokens }
  | number {tokens : List Token} {text : List Char} {n : Numeral}
    (hread : Numeral.read? text.reverse = some n) :
    Ends (.scalar (.number n) :: tokens) { mode := .number text, tokens }

/-- A character that is part of no number begins something new. -/
theorem Ends.feed (h : Ends tokens s) (hc : isNumberChar c = false) :
    s.feed c = Scanner.begin { mode := .gap, tokens } c := by
  cases h with
  | gap => rfl
  | number hread => simp [Scanner.feed, hc, hread, push]

theorem Ends.finish? (h : Ends tokens s) : s.finish? = some tokens.reverse := by
  cases h with
  | gap => rfl
  | number hread => simp [Scanner.finish?, hread, push]

/-- A character that is a token of its own. -/
structure IsSymbol (c : Char) (token : Token) : Prop where
  begin : ∀ tokens,
    Scanner.begin { mode := .gap, tokens } c = some { mode := .gap, tokens := token :: tokens }
  notNumber : isNumberChar c = false

theorem isSymbol_openArray : IsSymbol '[' .openArray := ⟨fun _ => rfl, rfl⟩

theorem isSymbol_closeArray : IsSymbol ']' .closeArray := ⟨fun _ => rfl, rfl⟩

theorem isSymbol_openObject : IsSymbol '\x7b' .openObject := ⟨fun _ => rfl, rfl⟩

theorem isSymbol_closeObject : IsSymbol '\x7d' .closeObject := ⟨fun _ => rfl, rfl⟩

theorem isSymbol_comma : IsSymbol ',' .comma := ⟨fun _ => rfl, rfl⟩

theorem isSymbol_colon : IsSymbol ':' .colon := ⟨fun _ => rfl, rfl⟩

end Scanner

/-! ## Texts with known tokens -/

open Scanner

/-- The text holds these tokens, wherever it begins. -/
def Scans (text : List Char) (tokens : List Token) : Prop :=
  ∀ before, ∃ s, run? { mode := .gap, tokens := before } text = some s ∧
    Ends (tokens.reverse ++ before) s

section

variable {text rest : List Char} {tokens tokens' : List Token} {c : Char} {token : Token}

theorem scans_nil : Scans [] [] :=
  fun _ => ⟨_, rfl, .gap⟩

theorem Scans.symbol (h : Scans text tokens) (hc : IsSymbol c token) (hrest : Scans rest tokens') :
    Scans (text ++ c :: rest) (tokens ++ token :: tokens') := by
  intro before
  obtain ⟨s, hs, hends⟩ := h before
  obtain ⟨s', hs', hends'⟩ := hrest (token :: (tokens.reverse ++ before))
  refine ⟨s', ?_, ?_⟩
  · have hfeed := (hends.feed hc.notNumber).trans (hc.begin _)
    rw [run?_append_of_eq hs, run?_cons_of_eq hfeed, hs']
  · simpa using hends'

theorem Scans.scan? (h : Scans text tokens) : Token.scan? text = some tokens := by
  obtain ⟨s, hs, hends⟩ := h []
  rw [List.append_nil] at hends
  change (run? _ text).bind Scanner.finish? = _
  rw [hs, Option.bind_some, hends.finish?, List.reverse_reverse]

/-! ## Strings -/

theorem hexDigit?_hexChar : ∀ d < 16, hexDigit? (hexChar d) = some d := by decide

/-- One more hexadecimal digit of an escape. -/
theorem feed_hexChar {d : Nat} (hd : d < 16) (missing value : Nat) (units : List Nat)
    (before : List Token) :
    feed { mode := .string units (.hex missing value), tokens := before } (hexChar d) =
      some { mode := if missing ≤ 1 then .string ((value * 16 + d) :: units) .outside
          else .string units (.hex (missing - 1) (value * 16 + d)), tokens := before } := by
  simp only [feed, inString, hexDigit?_hexChar d hd, Option.bind_some, goTo]
  by_cases hlast : missing ≤ 1
  · rw [if_pos hlast, if_pos hlast]
  · rw [if_neg hlast, if_neg hlast]

theorem run?_escapeChar (c : Char) (units : List Nat) (before : List Token) :
    run? { mode := .string units .outside, tokens := before } (escapeChar c) =
      some { mode := .string (c.toNat :: units) .outside, tokens := before } := by
  unfold escapeChar
  split
  · rfl
  · rfl
  · rfl
  · rfl
  · rfl
  · rfl
  · rfl
  · rename_i hquote hbackslash _ _ _ _ _
    split
    · -- four hexadecimal digits, of which the first two are zero
      have hcontrol : c.toNat < 32 := ‹_›
      have hhigh := feed_hexChar (show c.toNat / 16 < 16 by omega) 2 0 units before
      have hlow := feed_hexChar (show c.toNat % 16 < 16 by omega) 1 (c.toNat / 16) units before
      have hvalue : c.toNat / 16 * 16 + c.toNat % 16 = c.toNat := by omega
      rw [Nat.zero_mul, Nat.zero_add] at hhigh
      rw [hvalue] at hlow
      have hstart : run? { mode := .string units .outside, tokens := before }
          ['\\', 'u', '0', '0'] =
          some { mode := .string units (.hex 2 0), tokens := before } := rfl
      refine (run?_append_of_eq hstart [_, _]).trans ?_
      rw [run?_cons_of_eq hhigh]
      exact run?_cons_of_eq hlow []
    · rename_i hplain
      refine run?_cons_of_eq ?_ []
      simp only [feed, inString, goTo]
      rw [if_neg hquote, if_neg hbackslash, if_neg hplain]

theorem run?_escaped (text : List Char) (units : List Nat) (before : List Token) :
    run? { mode := .string units .outside, tokens := before } (text.flatMap escapeChar) =
      some {
        mode := .string (text.reverse.map Char.toNat ++ units) .outside
        tokens := before } := by
  induction text generalizing units with
  | nil => rfl
  | cons c rest ih =>
    rw [List.flatMap_cons, run?_append_of_eq (run?_escapeChar c units before), ih]
    simp

theorem joinUnits?_toNat (text : List Char) : joinUnits? (text.map Char.toNat) = some text := by
  have hvalid (c : Char) : ¬ (0xD800 ≤ c.toNat ∧ c.toNat < 0xE000) := by
    rcases c.valid with h | h
    · intro hc
      have : c.toNat < 0xD800 := h
      omega
    · intro hc
      have : 0xDFFF < c.toNat := h.1
      omega
  induction text with
  | nil => rfl
  | cons c rest ih =>
    cases rest with
    | nil => simp [joinUnits?, hvalid c]
    | cons next rest =>
      have hc := hvalid c
      rw [List.map_cons, List.map_cons, joinUnits?, if_neg (by omega), if_neg (by omega)]
      rw [← List.map_cons, ih, Option.map_some, Char.ofNat_toNat]

theorem scans_quote (text : String) : Scans (quote text) [.scalar (.string (some text))] := by
  intro before
  refine ⟨_, ?_, .gap⟩
  have hopen : feed { mode := .gap, tokens := before } '\x22' =
      some { mode := .string [] .outside, tokens := before } := rfl
  rw [quote, List.cons_append, run?_cons_of_eq hopen,
    run?_append_of_eq (run?_escaped text.toList [] before)]
  refine run?_cons_of_eq ?_ []
  simp [feed, inString, push, joinUnits?_toNat]

end

/-! ## Values -/

mutual

/-- Every string and every key of the value is Unicode text. -/
def HasText : Json → Prop
  | .string text => text.isSome
  | .array items => AllHaveText items
  | .object members => MembersHaveText members
  | _ => True

def AllHaveText : List Json → Prop
  | [] => True
  | item :: rest => HasText item ∧ AllHaveText rest

def MembersHaveText : List (Option String × Json) → Prop
  | [] => True
  | (key, value) :: rest => key.isSome ∧ HasText value ∧ MembersHaveText rest

end

mutual

/-- The tokens that a value is made of. -/
def tokens : Json → List Token
  | .array items => .openArray :: itemTokens items ++ [.closeArray]
  | .object members => .openObject :: memberTokens members ++ [.closeObject]
  | value => [.scalar value]

def itemTokens : List Json → List Token
  | [] => []
  | [item] => tokens item
  | item :: next :: rest => tokens item ++ .comma :: itemTokens (next :: rest)

def memberTokens : List (Option String × Json) → List Token
  | [] => []
  | [(key, value)] => .scalar (.string key) :: .colon :: tokens value
  | (key, value) :: next :: rest =>
    .scalar (.string key) :: .colon :: tokens value ++ .comma :: memberTokens (next :: rest)

end

theorem run?_number {rest : List Char} (hrest : ∀ c ∈ rest, isNumberChar c = true)
    (text : List Char) (before : List Token) :
    run? { mode := .number text, tokens := before } rest =
      some { mode := .number (rest.reverse ++ text), tokens := before } := by
  induction rest generalizing text with
  | nil => rfl
  | cons c rest ih =>
    obtain ⟨hc, hrest⟩ := List.forall_mem_cons.mp hrest
    have hfeed : feed { mode := .number text, tokens := before } c =
        some { mode := .number (c :: text), tokens := before } := if_pos hc
    rw [run?_cons_of_eq hfeed, ih hrest]
    simp

theorem isGap_of_number {c : Char} (hc : (c.isDigit || c = '-') = true) : isGap c = false := by
  rw [Bool.eq_false_iff]
  intro hgap
  simp only [isGap, Bool.or_eq_true, decide_eq_true_eq] at hgap
  rcases hgap with ((rfl | rfl) | rfl) | rfl <;> cases hc

theorem scans_render (n : Numeral) : Scans n.render [.scalar (.number n)] := by
  intro before
  obtain ⟨first, rest, htext, hfirst⟩ := n.exists_cons_render
  have hstart : feed { mode := .gap, tokens := before } first =
      some { mode := .number [first], tokens := before } := by
    simp [feed, Scanner.begin, isGap_of_number hfirst, hfirst, goTo]
  have hrest : ∀ c ∈ rest, isNumberChar c = true := by
    intro c hc
    apply Numeral.isNumberChar_of_mem_render (n := n)
    rw [htext]
    exact List.mem_cons_of_mem first hc
  refine ⟨{ mode := .number (rest.reverse ++ [first]), tokens := before }, ?_, .number ?_⟩
  · rw [htext, run?_cons_of_eq hstart, run?_number hrest]
  · rw [List.reverse_append, List.reverse_reverse, List.reverse_singleton, List.singleton_append,
      ← htext, Numeral.read?_render]

mutual

theorem scans_renderChars : ∀ value : Json, value.HasText → Scans value.renderChars value.tokens
  | .null, _ => fun _ => ⟨_, rfl, .gap⟩
  | .bool true, _ => fun _ => ⟨_, rfl, .gap⟩
  | .bool false, _ => fun _ => ⟨_, rfl, .gap⟩
  | .number n, _ => scans_render n
  | .string (some text), _ => scans_quote text
  | .array items, h =>
    (scans_nil.symbol isSymbol_openArray (scans_renderItems items h)).symbol isSymbol_closeArray
      scans_nil
  | .object members, h =>
    (scans_nil.symbol isSymbol_openObject (scans_renderMembers members h)).symbol
      isSymbol_closeObject scans_nil

theorem scans_renderItems : ∀ items : List Json, AllHaveText items →
    Scans (renderItems items) (itemTokens items)
  | [], _ => scans_nil
  | [item], h => scans_renderChars item h.1
  | item :: next :: rest, h =>
    (scans_renderChars item h.1).symbol isSymbol_comma (scans_renderItems (next :: rest) h.2)

theorem scans_renderMembers : ∀ members : List (Option String × Json), MembersHaveText members →
    Scans (renderMembers members) (memberTokens members)
  | [], _ => scans_nil
  | [(some key, value)], h =>
    (scans_quote key).symbol isSymbol_colon (scans_renderChars value h.2.1)
  | (some key, value) :: next :: rest, h =>
    ((scans_quote key).symbol isSymbol_colon (scans_renderChars value h.2.1)).symbol
      isSymbol_comma (scans_renderMembers (next :: rest) h.2.2)

end

/-- The tokens of the text of a value are those of the value. -/
theorem scan?_renderChars {value : Json} (h : value.HasText) :
    Token.scan? value.renderChars = some value.tokens :=
  (scans_renderChars value h).scan?

end PagedQuery.Json
