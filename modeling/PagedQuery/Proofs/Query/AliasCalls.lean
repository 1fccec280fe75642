import Mathlib.Data.List.ReduceOption
import PagedQuery.Proofs.Query.Aliases

/-!
# Aliases that are asked for in turn

Names are cleaned and cut, so different names may have the same base, and a
numbered form of one base may be another base or a form of it. A call goes
through the forms of its base until one is free, and no form is gone through
twice, so the calls end and their answers stay distinct in any order.

* `Aliases.IsAlias`: the names that every database takes;
* `Aliases.Sound`: what every call keeps;
* `Aliases.attempt`, `Aliases.Retries`: a call as attempts at one form after the other;
* `Aliases.aliases_of_calls`: the aliases of calls in turn.
-/

namespace PagedQuery.Aliases

/-! ## Characters and lengths -/

/-- The characters of aliases. -/
def IsAliasChar (c : Char) : Prop :=
  ('a' ≤ c ∧ c ≤ 'z') ∨ ('0' ≤ c ∧ c ≤ '9') ∨ c = '_'

/-- A name that every database takes, of bounded length. -/
structure IsAlias (maxLength : Nat) (name : String) : Prop where
  ne_empty : name ≠ ""
  length_le : name.length ≤ maxLength
  chars : ∀ c ∈ name.toList, IsAliasChar c

theorem isAliasChar_of_isDigit {c : Char} (h : c.isDigit = true) : IsAliasChar c := by
  simp only [Char.isDigit, Bool.and_eq_true, decide_eq_true_eq] at h
  exact .inr (.inl h)

theorem isAliasChar_of_isLower {c : Char} (h : c.isLower = true) : IsAliasChar c := by
  have hrange : (decide ('a' ≤ c) && decide (c ≤ 'z')) = true := h
  rw [Bool.and_eq_true, decide_eq_true_eq, decide_eq_true_eq] at hrange
  exact .inl hrange

theorem isAliasChar_cleanChar (c : Char) : IsAliasChar (cleanChar c) := by
  unfold cleanChar
  dsimp only
  split
  · rename_i hclean
    simp only [Bool.or_eq_true, decide_eq_true_eq] at hclean
    rcases hclean with (hlower | hdigit) | hline
    · exact isAliasChar_of_isLower hlower
    · exact isAliasChar_of_isDigit hdigit
    · exact .inr (.inr hline)
  · exact .inr (.inr rfl)

theorem isAliasChar_of_mem_clean {name : String} {c : Char} (hc : c ∈ clean name) :
    IsAliasChar c := by
  unfold clean at hc
  split at hc
  · have hexpr : "expr".toList = ['e', 'x', 'p', 'r'] := by decide
    rw [hexpr] at hc
    simp only [List.mem_cons, List.not_mem_nil, or_false] at hc
    rcases hc with rfl | rfl | rfl | rfl <;> exact .inl (by decide)
  · obtain ⟨c, -, rfl⟩ := List.mem_map.mp hc
    exact isAliasChar_cleanChar c

theorem isAliasChar_of_mem_suffix {n : Nat} {c : Char} (hc : c ∈ suffix n) : IsAliasChar c := by
  unfold suffix at hc
  split at hc
  · cases hc
  · rcases List.mem_cons.mp hc with rfl | hdigit
    · exact .inr (.inr rfl)
    · exact isAliasChar_of_isDigit (Nat.isDigit_of_mem_toDigits (by decide) (by decide) hdigit)

theorem clean_ne_nil (name : String) : clean name ≠ [] := by
  unfold clean
  split
  · decide
  · rename_i hname
    simpa using hname

/-- The longest counter leaves room for a character, whatever the length bound. -/
theorem length_suffix_lt {n : Nat} (hn : n < maxForms) : (suffix n).length < leastMaxLength := by
  unfold suffix
  split
  · decide
  · have hdigits : (Nat.toDigits 10 n).length ≤ 5 :=
      (Nat.length_toDigits_le_iff (by decide) (by decide)).mpr (by unfold maxForms at hn; omega)
    unfold leastMaxLength
    simp only [List.length_cons]
    omega

/-- A form of a name is an alias. -/
theorem isAlias_candidate {a : Aliases} (hroom : leastMaxLength ≤ a.maxLength) (name : String)
    {n : Nat} (hn : n < maxForms) : IsAlias a.maxLength (a.candidate (a.base name) n) := by
  have hsuffix := length_suffix_lt hn
  have hkeep : 0 < a.maxLength - (suffix n).length := by omega
  have hlength : 0 < (clean name).length := List.length_pos_iff.mpr (clean_ne_nil name)
  constructor
  · intro hempty
    have hcount := congrArg String.length hempty
    simp only [candidate, base, String.length_ofList, List.length_append, List.length_take,
      String.length_empty] at hcount
    omega
  · simp only [candidate, String.length_ofList, List.length_append, List.length_take]
    omega
  · intro c hc
    rw [candidate, String.toList_ofList, List.mem_append] at hc
    rcases hc with hc | hc
    · exact isAliasChar_of_mem_clean (List.mem_of_mem_take (List.mem_of_mem_take hc))
    · exact isAliasChar_of_mem_suffix hc

/-! ## Calls in turn -/

/-- The aliases issued after calls for some names. -/
def afterCalls (a : Aliases) (names : List String) : Aliases :=
  names.foldl (fun a name => (a.generate name).2) a

/-- The answers to calls for some names, one after the other. -/
def answers (a : Aliases) : List String → List (Option String)
  | [] => []
  | name :: rest => (a.generate name).1 :: answers (a.generate name).2 rest

theorem issues_answers (a : Aliases) (names : List String) :
    a.Issues (a.answers names).reduceOption (a.afterCalls names) := by
  induction names generalizing a with
  | nil => exact .nil a
  | cons name rest ih =>
    have hissues := (a.issues_generate name).append (ih (a.generate name).2)
    rw [answers]
    cases hanswer : (a.generate name).1 with
    | none =>
      rw [List.reduceOption_cons_of_none]
      rwa [hanswer] at hissues
    | some aliasName =>
      rw [List.reduceOption_cons_of_some]
      rwa [hanswer] at hissues

/-- What every call keeps. -/
structure Sound (a : Aliases) : Prop where
  room : leastMaxLength ≤ a.maxLength
  counter_le : ∀ base, a.counter base ≤ maxForms
  issued : ∀ name ∈ a.issued, IsAlias a.maxLength name

theorem sound_new (maxLength : Nat) : (new maxLength).Sound where
  room := Nat.le_max_right ..
  counter_le base := by
    have hcounter : (new maxLength).counter base = 0 := Std.HashMap.getD_empty
    omega
  issued name hname := absurd hname Std.HashSet.not_mem_empty

theorem Sound.count {a : Aliases} (h : a.Sound) {n : Nat} (hn : n ≤ maxForms) (base : List Char) :
    (a.count base n).Sound where
  room := h.room
  counter_le other := by
    rw [counter_count]
    split
    · exact hn
    · exact h.counter_le other
  issued := h.issued

theorem Sound.generate {a : Aliases} (h : a.Sound) (name : String) :
    (a.generate name).2.Sound := by
  rcases a.generate_cases name with ⟨n, -, hn, -, -, hgenerate⟩ | ⟨-, hgenerate⟩
  · rw [hgenerate]
    have hcount := h.count (n := n + 1) hn (a.base name)
    refine ⟨hcount.room, hcount.counter_le, ?_⟩
    intro other hother
    rcases mem_issue.mp hother with rfl | hbefore
    · exact isAlias_candidate h.room name hn
    · exact h.issued other hbefore
  · rw [hgenerate]
    exact h.count (Nat.le_refl _) _

theorem Sound.afterCalls {a : Aliases} (h : a.Sound) (names : List String) :
    (a.afterCalls names).Sound := by
  induction names generalizing a with
  | nil => exact h
  | cons name rest ih => exact ih (h.generate name)

/-! ## Attempts -/

/-- The outcome of an attempt at the next form of a base. -/
inductive Attempt where
  | issued (aliasName : String)
  /-- The form has been issued before. -/
  | taken
  /-- There is no further form. -/
  | exhausted

/-- The outcome that ends a call with an answer. -/
def Attempt.ofAnswer : Option String → Attempt
  | some aliasName => .issued aliasName
  | none => .exhausted

/-- One attempt at the next form of a base: the form is counted, and issued if it is free. -/
def attempt (a : Aliases) (base : List Char) : Attempt × Aliases :=
  let n := a.counter base
  if maxForms ≤ n then (.exhausted, a)
  else if a.issued.contains (a.candidate base n) then (.taken, a.count base (n + 1))
  else
    (.issued (a.candidate base n), (a.count base (n + 1)).issue (a.candidate base n))

/-- A number of attempts at forms that have been issued before. -/
inductive Retries (base : List Char) (a : Aliases) : Nat → Aliases → Prop where
  | start : Retries base a 0 a
  | retry {tries : Nat} {between after : Aliases} (h : Retries base a tries between)
    (htaken : between.attempt base = (.taken, after)) : Retries base a (tries + 1) after

/-- The same names have been issued, and the next forms have the same numbers. -/
structure Alike (a b : Aliases) : Prop where
  maxLength : a.maxLength = b.maxLength
  issued : a.issued = b.issued
  counter : ∀ base, a.counter base = b.counter base

/-- Aliases that differ only in the counter of a base. -/
structure Counted (a : Aliases) (base : List Char) (n : Nat) (b : Aliases) : Prop where
  maxLength : b.maxLength = a.maxLength
  issued : b.issued = a.issued
  counter : ∀ other, b.counter other = if base = other then n else a.counter other

theorem Counted.self (a : Aliases) (base : List Char) : a.Counted base (a.counter base) a where
  maxLength := rfl
  issued := rfl
  counter other := by
    split
    · rename_i h
      rw [h]
    · rfl

theorem Counted.count {a b : Aliases} {base : List Char} {n : Nat} (h : a.Counted base n b)
    (m : Nat) : a.Counted base m (b.count base m) where
  maxLength := h.maxLength
  issued := h.issued
  counter other := by
    rw [counter_count, h.counter]
    split <;> rfl

theorem Counted.candidate {a b : Aliases} {base : List Char} {n : Nat} (h : a.Counted base n b)
    (k : Nat) : b.candidate base k = a.candidate base k := by
  rw [Aliases.candidate, Aliases.candidate, h.maxLength]

theorem Counted.attempt {a b : Aliases} {base : List Char} {n : Nat} (h : a.Counted base n b) :
    b.attempt base =
      if maxForms ≤ n then (.exhausted, b)
      else if a.candidate base n ∈ a.issued then (.taken, b.count base (n + 1))
      else (.issued (a.candidate base n), (b.count base (n + 1)).issue (a.candidate base n)) := by
  have hcounter : b.counter base = n := by rw [h.counter, if_pos rfl]
  rw [Aliases.attempt, hcounter, h.candidate, h.issued]
  rfl

/-- Each retry counts one form that has been issued before. -/
theorem Retries.counted {a b : Aliases} {base : List Char} {tries : Nat}
    (h : Retries base a tries b) (hle : a.counter base ≤ maxForms) :
    a.Counted base (a.counter base + tries) b ∧ a.counter base + tries ≤ maxForms := by
  induction h with
  | start => exact ⟨.self a base, hle⟩
  | @retry tries between after _ htaken ih =>
    obtain ⟨hcounted, -⟩ := ih
    rw [hcounted.attempt] at htaken
    split at htaken
    · cases htaken
    · split at htaken
      · cases htaken
        exact ⟨hcounted.count _, by omega⟩
      · cases htaken

/-- Forms that have been issued before are tried one after the other. -/
theorem exists_retries {a : Aliases} (base : List Char) (tries : Nat)
    (hle : a.counter base + tries ≤ maxForms)
    (htaken : ∀ k, a.counter base ≤ k → k < a.counter base + tries →
      a.candidate base k ∈ a.issued) :
    ∃ b, Retries base a tries b ∧ a.Counted base (a.counter base + tries) b := by
  induction tries with
  | zero => exact ⟨a, .start, .self a base⟩
  | succ tries ih =>
    obtain ⟨b, hretries, hcounted⟩ := ih (by omega) fun k hk hkn => htaken k hk (by omega)
    refine ⟨b.count base (a.counter base + tries + 1), hretries.retry ?_, hcounted.count _⟩
    rw [hcounted.attempt, if_neg (by omega), if_pos (htaken _ (by omega) (by omega))]

/-! ## What a call does -/

/-- A call for a name, after any calls: it ends after a bounded number of attempts, none of which
counts past the last form or has a counter that does not fit. It answers the first form that has
not been issued, or leaves the issued names as they are. -/
structure Serves (a : Aliases) (name : String) : Prop where
  ends : ∃ tries b after, Retries (a.base name) a tries b ∧
    b.attempt (a.base name) = (.ofAnswer (a.generate name).1, after) ∧
    after.Alike (a.generate name).2
  bounded : ∀ tries b, Retries (a.base name) a tries b →
    tries ≤ maxForms ∧ b.counter (a.base name) ≤ maxForms ∧
      (b.counter (a.base name) < maxForms →
        (suffix (b.counter (a.base name))).length < b.maxLength)
  answers : ∀ aliasName, (a.generate name).1 = some aliasName →
    ∃ n, a.counter (a.base name) ≤ n ∧ n < maxForms ∧
      aliasName = a.candidate (a.base name) n ∧ aliasName ∉ a.issued ∧
      ∀ k, a.counter (a.base name) ≤ k → k < n → a.candidate (a.base name) k ∈ a.issued
  fails : (a.generate name).1 = none → (a.generate name).2.issued = a.issued ∧
    ∀ k, a.counter (a.base name) ≤ k → k < maxForms → a.candidate (a.base name) k ∈ a.issued

theorem Sound.ends {a : Aliases} (h : a.Sound) (name : String) :
    ∃ tries b after, Retries (a.base name) a tries b ∧
      b.attempt (a.base name) = (.ofAnswer (a.generate name).1, after) ∧
      after.Alike (a.generate name).2 := by
  have hle := h.counter_le (a.base name)
  rcases a.generate_cases name with ⟨n, hn, hmax, hfree, hbefore, hgenerate⟩ | ⟨hall, hgenerate⟩
  · obtain ⟨b, hretries, hcounted⟩ := exists_retries (a.base name)
      (n - a.counter (a.base name)) (by omega) fun k hk hkn => hbefore k hk (by omega)
    rw [Nat.add_sub_cancel' hn] at hcounted
    rw [hgenerate]
    refine ⟨_, b, (b.count (a.base name) (n + 1)).issue (a.candidate (a.base name) n),
      hretries, ?_, ?_⟩
    · rw [hcounted.attempt, if_neg (by omega), if_neg hfree]
      rfl
    · refine ⟨hcounted.maxLength, ?_, ?_⟩
      · show b.issued.insert _ = a.issued.insert _
        rw [hcounted.issued]
      · intro other
        exact ((hcounted.count (n + 1)).counter other).trans (counter_count ..).symm
  · obtain ⟨b, hretries, hcounted⟩ := exists_retries (a.base name)
      (maxForms - a.counter (a.base name)) (by omega) fun k hk hkn => hall k hk (by omega)
    rw [Nat.add_sub_cancel' hle] at hcounted
    rw [hgenerate]
    refine ⟨_, b, b, hretries, ?_, hcounted.maxLength, hcounted.issued, ?_⟩
    · rw [hcounted.attempt, if_pos (Nat.le_refl _)]
      rfl
    · intro other
      exact (hcounted.counter other).trans (counter_count ..).symm

theorem Sound.serves {a : Aliases} (h : a.Sound) (name : String) : a.Serves name where
  ends := h.ends name
  bounded := by
    intro tries b hretries
    obtain ⟨hcounted, hle⟩ := hretries.counted (h.counter_le _)
    have hcounter : b.counter (a.base name) = a.counter (a.base name) + tries := by
      rw [hcounted.counter, if_pos rfl]
    refine ⟨by omega, by omega, ?_⟩
    intro hlt
    rw [hcounted.maxLength]
    exact Nat.lt_of_lt_of_le (length_suffix_lt hlt) h.room
  answers := by
    intro aliasName hanswer
    rcases a.generate_cases name with ⟨n, hn, hmax, hfree, hbefore, hgenerate⟩ | ⟨-, hgenerate⟩
    · rw [hgenerate] at hanswer
      cases hanswer
      exact ⟨n, hn, hmax, rfl, hfree, hbefore⟩
    · rw [hgenerate] at hanswer
      cases hanswer
  fails := by
    intro hanswer
    rcases a.generate_cases name with ⟨n, -, -, -, -, hgenerate⟩ | ⟨hall, hgenerate⟩
    · rw [hgenerate] at hanswer
      cases hanswer
    · rw [hgenerate]
      exact ⟨rfl, hall⟩

/-- Whatever the length bound and the names that are asked for in turn, the aliases are distinct
names that every database takes, counters stay within the number of forms, and the next call, for
any name, ends with the first form that has not been issued, or issues nothing. -/
theorem aliases_of_calls (maxLength : Nat) (names : List String) :
    ((new maxLength).answers names).reduceOption.Nodup ∧
      (∀ aliasName ∈ ((new maxLength).answers names).reduceOption,
        IsAlias (max maxLength leastMaxLength) aliasName) ∧
      (∀ aliasName, aliasName ∈ ((new maxLength).afterCalls names).issued ↔
        aliasName ∈ ((new maxLength).answers names).reduceOption) ∧
      (∀ base, ((new maxLength).afterCalls names).counter base ≤ maxForms) ∧
      ∀ name, ((new maxLength).afterCalls names).Serves name := by
  have hissues := (new maxLength).issues_answers names
  have hsound := (sound_new maxLength).afterCalls names
  refine ⟨hissues.nodup, ?_, ?_, hsound.counter_le, hsound.serves⟩
  swap
  · intro aliasName
    rw [hissues.issued]
    exact or_iff_right Std.HashSet.not_mem_empty
  intro aliasName halias
  have halias := hsound.issued aliasName ((hissues.issued aliasName).mpr (.inr halias))
  rwa [hissues.maxLength] at halias

end PagedQuery.Aliases
