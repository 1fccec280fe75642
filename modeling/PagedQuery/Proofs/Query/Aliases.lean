import Mathlib.Data.List.Nodup
import PagedQuery.Query.Dimension

/-!
# Aliases that are issued

Aliases are issued one after the other, none of them twice. A name that nobody
has asked for comes out as it fits, unless it has been issued as a numbered form
of another one.

* `Aliases.Issues`: names that are issued one after the other, and are therefore distinct;
* `Aliases.generate_cases`: what a call can do;
* `issues_of_issueAlias`: an alias is issued for the first time;
* `Aliases.Unasked`, `issueAlias_of_unasked`: names that come out as they fit;
* `exists_issueAlias`: names that come out in some form.
-/

namespace PagedQuery

namespace Aliases

/-- The names are issued one after the other, each of them for the first time. -/
structure Issues (before : Aliases) (names : List String) (after : Aliases) : Prop where
  nodup : names.Nodup
  fresh : ∀ name ∈ names, name ∉ before.issued
  issued : ∀ name, name ∈ after.issued ↔ name ∈ before.issued ∨ name ∈ names
  maxLength : after.maxLength = before.maxLength

theorem Issues.nil (a : Aliases) : a.Issues [] a where
  nodup := List.nodup_nil
  fresh _ hname := absurd hname List.not_mem_nil
  issued name := by simp
  maxLength := rfl

theorem Issues.append {before between after : Aliases} {names others : List String}
    (h : before.Issues names between) (hothers : between.Issues others after) :
    before.Issues (names ++ others) after where
  nodup := by
    refine List.nodup_append.mpr ⟨h.nodup, hothers.nodup, ?_⟩
    rintro name hname _ hother rfl
    exact hothers.fresh name hother ((h.issued name).mpr (.inr hname))
  fresh := by
    intro name hname
    rcases List.mem_append.mp hname with hname | hname
    · exact h.fresh name hname
    · exact fun hbefore => hothers.fresh name hname ((h.issued name).mpr (.inl hbefore))
  issued := by
    intro name
    rw [hothers.issued, h.issued, List.mem_append, or_assoc]
  maxLength := hothers.maxLength.trans h.maxLength

/-! ## Calls -/

/-- The search finds the first form that has not been issued. -/
theorem search_eq_some {a : Aliases} {base : List Char} {n forms k : Nat} {aliasName : String}
    (h : a.search base n forms = some (k, aliasName)) :
    n ≤ k ∧ k < n + forms ∧ aliasName = a.candidate base k ∧ a.candidate base k ∉ a.issued ∧
      ∀ j, n ≤ j → j < k → a.candidate base j ∈ a.issued := by
  induction forms generalizing n with
  | zero => cases h
  | succ forms ih =>
    rw [search] at h
    split at h
    · rename_i htaken
      obtain ⟨hle, hlt, halias, hfree, hbefore⟩ := ih h
      refine ⟨by omega, by omega, halias, hfree, ?_⟩
      intro j hj hjk
      rcases Nat.eq_or_lt_of_le hj with rfl | hj
      · exact htaken
      · exact hbefore j hj hjk
    · rename_i hfree
      cases h
      refine ⟨Nat.le_refl _, by omega, rfl, hfree, ?_⟩
      intro j hj hjn
      omega

/-- The search fails once all forms have been issued. -/
theorem search_eq_none {a : Aliases} {base : List Char} {n forms : Nat}
    (h : a.search base n forms = none) :
    ∀ j, n ≤ j → j < n + forms → a.candidate base j ∈ a.issued := by
  induction forms generalizing n with
  | zero =>
    intro j hj hjn
    omega
  | succ forms ih =>
    rw [search] at h
    split at h
    · rename_i htaken
      intro j hj hjn
      rcases Nat.eq_or_lt_of_le hj with rfl | hj
      · exact htaken
      · exact ih h j hj (by omega)
    · cases h

/-- Aliases with the next counter of a base. -/
def count (a : Aliases) (base : List Char) (n : Nat) : Aliases :=
  { a with counters := a.counters.insert (String.ofList base) n }

theorem counter_count (a : Aliases) (base other : List Char) (n : Nat) :
    (a.count base n).counter other = if base = other then n else a.counter other := by
  simp only [counter, count, Std.HashMap.getD_insert, beq_iff_eq, String.ofList_inj]

/-- Aliases with another issued name. -/
def issue (a : Aliases) (aliasName : String) : Aliases :=
  { a with issued := a.issued.insert aliasName }

theorem counter_issue (a : Aliases) (aliasName : String) (base : List Char) :
    (a.issue aliasName).counter base = a.counter base :=
  rfl

theorem mem_issue {a : Aliases} {aliasName name : String} :
    name ∈ (a.issue aliasName).issued ↔ aliasName = name ∨ name ∈ a.issued := by
  rw [issue, Std.HashSet.mem_insert, beq_iff_eq]

/-- A call issues the first form from the counter on that has not been issued, or all forms from
there on have been issued. -/
theorem generate_cases (a : Aliases) (name : String) :
    (∃ n, a.counter (a.base name) ≤ n ∧ n < maxForms ∧
      a.candidate (a.base name) n ∉ a.issued ∧
      (∀ k, a.counter (a.base name) ≤ k → k < n → a.candidate (a.base name) k ∈ a.issued) ∧
      a.generate name = (some (a.candidate (a.base name) n),
        (a.count (a.base name) (n + 1)).issue (a.candidate (a.base name) n))) ∨
    ((∀ k, a.counter (a.base name) ≤ k → k < maxForms →
        a.candidate (a.base name) k ∈ a.issued) ∧
      a.generate name = (none, a.count (a.base name) maxForms)) := by
  unfold generate
  dsimp only
  split
  · rename_i n aliasName hsearch
    obtain ⟨hle, hlt, rfl, hfree, hbefore⟩ := search_eq_some hsearch
    exact .inl ⟨n, hle, by omega, hfree, hbefore, rfl⟩
  · rename_i hsearch
    refine .inr ⟨?_, rfl⟩
    intro k hk hkmax
    exact search_eq_none hsearch k hk (by omega)

/-- What a call answers is issued by it for the first time. -/
theorem issues_generate (a : Aliases) (name : String) :
    a.Issues (a.generate name).1.toList (a.generate name).2 := by
  rcases a.generate_cases name with ⟨n, -, -, hfree, -, h⟩ | ⟨-, h⟩
  · rw [h]
    refine ⟨List.nodup_singleton _, by simpa using hfree, ?_, rfl⟩
    intro other
    rw [mem_issue, Option.toList_some, List.mem_singleton, or_comm, eq_comm]
    rfl
  · rw [h]
    exact ⟨List.nodup_nil, by simp, fun other => by simp [count], rfl⟩

end Aliases

theorem issues_of_issueAlias {before after : Aliases} {name aliasName : String}
    (h : issueAlias before name = .ok (aliasName, after)) : before.Issues [aliasName] after := by
  have hissues := before.issues_generate name
  unfold issueAlias at h
  split at h
  · rename_i hgenerate
    cases h
    rwa [hgenerate] at hissues
  · cases h

/-! ## Names that nobody has asked for -/

namespace Aliases

/-- Nobody has asked for the name, and no other name was issued in its place. -/
def Unasked (a : Aliases) (name : String) : Prop :=
  a.counter (a.base name) = 0 ∧ a.fit name ∉ a.issued

theorem unasked_new (maxLength : Nat) (name : String) : (new maxLength).Unasked name :=
  ⟨Std.HashMap.getD_empty, Std.HashSet.not_mem_empty⟩

theorem candidate_zero (a : Aliases) (name : String) :
    a.candidate (a.base name) 0 = a.fit name := by
  simp [candidate, suffix, fit, base, List.take_take]

/-- A name that nobody has asked for comes out as it fits. -/
theorem generate_of_unasked {a : Aliases} {name : String} (h : a.Unasked name) :
    a.generate name = (some (a.fit name), (a.count (a.base name) 1).issue (a.fit name)) := by
  obtain ⟨hcounter, hfresh⟩ := h
  rw [← a.candidate_zero] at hfresh
  rcases a.generate_cases name with ⟨n, -, -, -, hbefore, hgenerate⟩ | ⟨hall, -⟩
  · have hzero : n = 0 := by
      by_contra hpos
      exact hfresh (hbefore 0 (Nat.le_of_eq hcounter) (Nat.pos_of_ne_zero hpos))
    subst hzero
    rwa [a.candidate_zero] at hgenerate
  · exact absurd (hall 0 (Nat.le_of_eq hcounter) (by decide)) hfresh

/-- Names that nobody has asked for stay so when another name is issued. -/
theorem Unasked.issue_of_ne {a : Aliases} {name other : String} (h : a.Unasked other)
    (hne : a.fit other ≠ a.fit name) (n : Nat) :
    ((a.count (a.base name) n).issue (a.fit name)).Unasked other := by
  obtain ⟨hcounter, hfresh⟩ := h
  constructor
  · have hbase : a.base name ≠ a.base other := by
      intro hsame
      exact hne (congrArg String.ofList hsame.symm)
    exact (counter_count ..).trans ((if_neg hbase).trans hcounter)
  · intro hissued
    rcases mem_issue.mp hissued with hsame | hbefore
    · exact hne hsame.symm
    · exact hfresh hbefore

end Aliases

theorem issueAlias_of_generate {a after : Aliases} {name aliasName : String}
    (h : a.generate name = (some aliasName, after)) :
    issueAlias a name = .ok (aliasName, after) := by
  unfold issueAlias
  rw [h]

/-- A name that nobody has asked for comes out as it fits, and other names are left alone. -/
theorem issueAlias_of_unasked {a : Aliases} {name : String} (h : a.Unasked name) :
    ∃ after, issueAlias a name = .ok (a.fit name, after) ∧ after.maxLength = a.maxLength ∧
      ∀ other, a.Unasked other → a.fit other ≠ a.fit name → after.Unasked other := by
  refine ⟨_, issueAlias_of_generate (Aliases.generate_of_unasked h), rfl, ?_⟩
  intro other hother hne
  exact hother.issue_of_ne hne 1

/-- A name is issued in some form as long as one of its forms is left. -/
theorem exists_issueAlias {a : Aliases} {name : String} {n : Nat}
    (hcounter : a.counter (a.base name) ≤ n) (hn : n < Aliases.maxForms)
    (hfree : a.candidate (a.base name) n ∉ a.issued) :
    ∃ aliasName after, issueAlias a name = .ok (aliasName, after) := by
  rcases a.generate_cases name with ⟨k, -, -, -, -, hgenerate⟩ | ⟨hall, -⟩
  · exact ⟨_, _, issueAlias_of_generate hgenerate⟩
  · exact absurd (hall n hcounter hn) hfree

end PagedQuery
