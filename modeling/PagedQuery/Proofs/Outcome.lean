import Mathlib.Data.List.Forall2

/-!
# Outcomes

Computations that may end in an error, and what they have in common.

* `bind_eq_ok_iff`: when a sequence of two computations succeeds;
* `mapM_eq_error_iff`: when a list of computations fails, and with which error;
* `SameOutcome`: both fail with one error, or both succeed with related results.
-/

namespace PagedQuery

variable {ε α β γ δ : Type}

@[simp] theorem bind_eq_ok_iff {x : Except ε α} {f : α → Except ε β} {b : β} :
    (x >>= f) = .ok b ↔ ∃ a, x = .ok a ∧ f a = .ok b := by
  cases x with
  | error e => simp [bind, Except.bind]
  | ok a => simp [bind, Except.bind]

theorem bind_of_ok {x : Except ε α} {f : α → Except ε β} {a : α} (h : x = .ok a) :
    (x >>= f) = f a := by
  rw [h]
  rfl

/-- What is related element by element to a list is related to its elements. -/
theorem exists_mem_of_forall₂ {R : α → β → Prop} {as : List α} {bs : List β}
    (h : List.Forall₂ R as bs) {b : β} (hb : b ∈ bs) : ∃ a ∈ as, R a b := by
  induction h with
  | nil => exact absurd hb List.not_mem_nil
  | cons hfirst _ ih =>
    rcases List.mem_cons.mp hb with rfl | hb
    · exact ⟨_, List.mem_cons_self, hfirst⟩
    · obtain ⟨a, ha, hR⟩ := ih hb
      exact ⟨a, List.mem_cons_of_mem _ ha, hR⟩

/-- The elements of two related lists are related position by position. -/
theorem getElem?_of_forall₂ {R : α → β → Prop} {as : List α} {bs : List β}
    (h : List.Forall₂ R as bs) {i : Nat} {b : β} (hb : bs[i]? = some b) :
    ∃ a, as[i]? = some a ∧ R a b := by
  induction h generalizing i with
  | nil => cases hb
  | @cons a _ _ _ hfirst _ ih =>
    cases i with
    | zero =>
      cases hb
      exact ⟨a, rfl, hfirst⟩
    | succ i => exact ih hb

/-- Functions that agree on related elements make the same list of related lists. -/
theorem map_eq_map_of_forall₂ {R : α → β → Prop} {f : α → γ} {g : β → γ} {as : List α}
    {bs : List β} (h : List.Forall₂ R as bs) (hfg : ∀ a ∈ as, ∀ b, R a b → f a = g b) :
    as.map f = bs.map g := by
  induction h with
  | nil => rfl
  | cons hfirst _ ih =>
    rw [List.map_cons, List.map_cons, hfg _ List.mem_cons_self _ hfirst,
      ih fun a ha => hfg a (List.mem_cons_of_mem _ ha)]

theorem filterMap_eq_filterMap_of_forall₂ {R : α → β → Prop} {f : α → Option γ}
    {g : β → Option γ} {as : List α} {bs : List β} (h : List.Forall₂ R as bs)
    (hfg : ∀ a ∈ as, ∀ b, R a b → f a = g b) : as.filterMap f = bs.filterMap g := by
  have hmap := congrArg (List.filterMap id) (map_eq_map_of_forall₂ h hfg)
  rwa [List.filterMap_map, List.filterMap_map] at hmap

/-- Functions that agree on what is related to the same elements make the same list of lists that
are related to one list. -/
theorem map_eq_map_of_forall₂_left {R : α → β → Prop} {R' : α → γ → Prop}
    {f : β → δ} {g : γ → δ} {as : List α} {bs : List β} {cs : List γ}
    (h : List.Forall₂ R as bs) (h' : List.Forall₂ R' as cs)
    (hfg : ∀ a ∈ as, ∀ b c, R a b → R' a c → f b = g c) : bs.map f = cs.map g := by
  induction h generalizing cs with
  | nil =>
    cases h'
    rfl
  | cons hfirst _ ih =>
    cases h' with
    | cons hfirst' hrest' =>
      rw [List.map_cons, List.map_cons, hfg _ List.mem_cons_self _ _ hfirst hfirst',
        ih hrest' fun a ha => hfg a (List.mem_cons_of_mem _ ha)]

/-- What is related to a part of a list is made of the results for that part. -/
theorem map_snd_filter_zip_of_forall₂ {R : α → β → Prop} {R' : α → γ → Prop}
    {f : β → δ} {g : γ → δ} {keep : α → Bool} {as : List α} {bs : List β} {cs : List γ}
    (h : List.Forall₂ R as bs) (h' : List.Forall₂ R' (as.filter keep) cs)
    (hfg : ∀ a ∈ as, keep a = true → ∀ b c, R a b → R' a c → f b = g c) :
    ((as.zip (bs.map f)).filter fun pair => keep pair.1).map Prod.snd = cs.map g := by
  induction h generalizing cs with
  | nil =>
    cases h'
    rfl
  | @cons a _ as _ hfirst _ ih =>
    have hfg' (a' : α) (ha' : a' ∈ as) := hfg a' (List.mem_cons_of_mem a ha')
    rw [List.map_cons, List.zip_cons_cons, List.filter_cons]
    by_cases hkeep : keep a = true
    · rw [List.filter_cons_of_pos hkeep] at h'
      cases h' with
      | cons hfirst' hrest' =>
        rw [if_pos hkeep, List.map_cons, List.map_cons, ih hrest' hfg',
          hfg a List.mem_cons_self hkeep _ _ hfirst hfirst']
    · rw [List.filter_cons_of_neg hkeep] at h'
      rw [if_neg hkeep, ih h' hfg']

/-- The results of a function on a list stand where their arguments stand. -/
theorem forall₂_of_mapM_eq_ok {f : α → Except ε β} {as : List α} {bs : List β}
    (h : as.mapM f = .ok bs) : List.Forall₂ (fun a b => f a = .ok b) as bs := by
  induction as generalizing bs with
  | nil =>
    rw [List.mapM_nil] at h
    cases h
    exact .nil
  | cons a rest ih =>
    rw [List.mapM_cons] at h
    obtain ⟨first, hfirst, h⟩ := bind_eq_ok_iff.mp h
    obtain ⟨others, hothers, h⟩ := bind_eq_ok_iff.mp h
    cases h
    exact .cons hfirst (ih hothers)

/-- A list of computations fails with the error of the first one that fails. -/
theorem mapM_eq_error_iff {f : α → Except ε β} {as : List α} {e : ε} :
    as.mapM f = .error e ↔
      ∃ before a after, as = before ++ a :: after ∧ (∀ b ∈ before, ∃ y, f b = .ok y) ∧
        f a = .error e := by
  induction as with
  | nil =>
    rw [List.mapM_nil]
    exact ⟨fun h => (nomatch h), fun ⟨_, _, _, hnil, _⟩ => by simp at hnil⟩
  | cons first rest ih =>
    rw [List.mapM_cons]
    constructor
    · intro h
      cases hfirst : f first with
      | error e' =>
        rw [hfirst] at h
        cases h
        exact ⟨[], first, rest, rfl, by simp, hfirst⟩
      | ok y =>
        rw [hfirst] at h
        cases hrest : rest.mapM f with
        | ok ys =>
          rw [hrest] at h
          cases h
        | error e' =>
          rw [hrest] at h
          cases h
          obtain ⟨before, a, after, rfl, hbefore, ha⟩ := ih.mp hrest
          refine ⟨first :: before, a, after, rfl, ?_, ha⟩
          exact List.forall_mem_cons.mpr ⟨⟨y, hfirst⟩, hbefore⟩
    · rintro ⟨before, a, after, has, hbefore, ha⟩
      cases before with
      | nil =>
        cases has
        rw [ha]
        rfl
      | cons _ before =>
        cases has
        obtain ⟨⟨y, hfirst⟩, hbefore⟩ := List.forall_mem_cons.mp hbefore
        rw [hfirst, ih.mpr ⟨before, a, after, rfl, hbefore, ha⟩]
        rfl

/-- Results for a list exist if there is one for each of its elements. -/
theorem exists_mapM_eq_ok_iff {f : α → Except ε β} {as : List α} :
    (∃ bs, as.mapM f = .ok bs) ↔ ∀ a ∈ as, ∃ b, f a = .ok b := by
  constructor
  · rintro ⟨bs, h⟩ a ha
    obtain ⟨b, -, hb⟩ := exists_mem_of_forall₂ (forall₂_of_mapM_eq_ok h).flip ha
    exact ⟨b, hb⟩
  · intro h
    cases hmapM : as.mapM f with
    | ok bs => exact ⟨bs, rfl⟩
    | error e =>
      obtain ⟨before, a, after, rfl, -, ha⟩ := mapM_eq_error_iff.mp hmapM
      obtain ⟨b, hb⟩ := h a (by simp)
      rw [ha] at hb
      cases hb

/-- What holds of each result of a function holds of all results of a list. -/
theorem forall_mem_of_mapM_eq_ok {f : α → Except ε β} {P : β → Prop}
    (hf : ∀ a b, f a = .ok b → P b) {as : List α} {bs : List β} (h : as.mapM f = .ok bs) :
    ∀ b ∈ bs, P b := by
  intro b hb
  obtain ⟨a, -, ha⟩ := exists_mem_of_forall₂ (forall₂_of_mapM_eq_ok h) hb
  exact hf a b ha

theorem forall₂_of_mapM_eq_some {f : α → Option β} {as : List α} {bs : List β}
    (h : as.mapM f = some bs) : List.Forall₂ (fun a b => f a = some b) as bs := by
  induction as generalizing bs with
  | nil =>
    cases h
    exact .nil
  | cons a rest ih =>
    rw [List.mapM_cons] at h
    obtain ⟨first, hfirst, h⟩ := Option.bind_eq_some_iff.mp h
    obtain ⟨others, hothers, h⟩ := Option.bind_eq_some_iff.mp h
    cases h
    exact .cons hfirst (ih hothers)

/-- Every result for a list is the result for one of its elements. -/
theorem exists_of_mapM_eq_some {f : α → Option β} {xs : List α} {ys : List β} {y : β}
    (h : xs.mapM f = some ys) (hy : y ∈ ys) : ∃ x ∈ xs, f x = some y :=
  exists_mem_of_forall₂ (forall₂_of_mapM_eq_some h) hy

/-- Both computations fail with the same error, or both succeed and `R` relates the results. -/
inductive SameOutcome (R : α → β → Prop) : Except ε α → Except ε β → Prop where
  | error (e : ε) : SameOutcome R (.error e) (.error e)
  | ok {a : α} {b : β} (h : R a b) : SameOutcome R (.ok a) (.ok b)

namespace SameOutcome

variable {R : α → β → Prop} {S : γ → δ → Prop}

/-- A computation has the same outcome as itself. -/
theorem of_eq {x y : Except ε α} (h : x = y) : SameOutcome Eq x y := by
  subst h
  cases x with
  | error e => exact .error e
  | ok a => exact .ok rfl

/-- A computation succeeds if one with the same outcome does. -/
theorem exists_of_ok {a : α} {y : Except ε β} (h : SameOutcome R (.ok a) y) :
    ∃ b, y = .ok b ∧ R a b := by
  cases h with
  | ok hab => exact ⟨_, rfl, hab⟩

/-- Sequences have the same outcome if their parts have. -/
theorem bind {x : Except ε α} {y : Except ε β} {f : α → Except ε γ} {g : β → Except ε δ}
    (hxy : SameOutcome R x y) (hfg : ∀ a b, R a b → SameOutcome S (f a) (g b)) :
    SameOutcome S (x >>= f) (y >>= g) := by
  cases hxy with
  | error e => exact .error e
  | ok h => exact hfg _ _ h

/-- A list of computations has the same outcome if each computation has. -/
theorem mapM {f : α → Except ε γ} {g : α → Except ε δ}
    (h : ∀ a, SameOutcome (fun _ _ => True) (f a) (g a)) (as : List α) :
    SameOutcome (fun _ _ => True) (as.mapM f) (as.mapM g) := by
  induction as with
  | nil => exact .ok trivial
  | cons a rest ih =>
    rw [List.mapM_cons, List.mapM_cons]
    refine (h a).bind fun _ _ _ => ?_
    exact ih.bind fun _ _ _ => .ok trivial

end SameOutcome

end PagedQuery
