import PagedQuery.Proofs.Task.Step
import PagedQuery.Task.Simulation

/-!
# Runs of a holder

A run is a list of actions, each at its time. Nothing is said about the times:
what holds of all runs holds whatever the clock does.

* `Holder.run`: the state after a list of actions, `none` if one is not possible;
* `Holder.run_invariant`: what steps preserve holds after every run;
* `Holder.Passes`: the states that a run goes through, and the steps that it takes there;
* `Holder.Along`, `Holder.checkAlong`: what holds at each step of a run;
* `Factory.ofScript`: tasks to run.
-/

namespace PagedQuery.Task

/-- A task whose computations follow a script, one execution after the other. -/
def Factory.ofScript (fetchSize : Nat) (script : List ScriptedRun) : Factory :=
  { query := "script", fetchSize, createError := none, progress := none
    backend :=
      { connect := fun _ => .ok ()
        execute := fun _ n => (script[n]?.getD .empty).outcome 0 } }

namespace Holder

/-- The state after a list of actions, each at its time. -/
def run (h : Holder) : List (Nat × Action) → Option Holder
  | [] => some h
  | (now, a) :: rest => (h.step now a).bind fun h' => h'.run rest

variable {h h' h'' : Holder} {as : List (Nat × Action)}

theorem run_cons_eq_some_iff {now : Nat} {a : Action} :
    h.run ((now, a) :: as) = some h'' ↔ ∃ h', h.step now a = some h' ∧ h'.run as = some h'' :=
  Option.bind_eq_some_iff

theorem run_concat {now : Nat} {a : Action} (hrun : h.run as = some h')
    (hstep : h'.step now a = some h'') : h.run (as ++ [(now, a)]) = some h'' := by
  induction as generalizing h with
  | nil =>
    cases hrun
    exact run_cons_eq_some_iff.mpr ⟨h'', hstep, rfl⟩
  | cons step rest ih =>
    obtain ⟨h₁, hfirst, hrun⟩ := run_cons_eq_some_iff.mp hrun
    exact run_cons_eq_some_iff.mpr ⟨h₁, hfirst, ih hrun⟩

theorem run_append_eq_some_iff {bs : List (Nat × Action)} :
    h.run (as ++ bs) = some h'' ↔ ∃ h', h.run as = some h' ∧ h'.run bs = some h'' := by
  induction as generalizing h with
  | nil => simp [run]
  | cons step as ih =>
    rw [List.cons_append, run_cons_eq_some_iff]
    constructor
    · rintro ⟨h₁, hstep, hrun⟩
      obtain ⟨h', hfirst, hlast⟩ := ih.mp hrun
      exact ⟨h', run_cons_eq_some_iff.mpr ⟨h₁, hstep, hfirst⟩, hlast⟩
    · rintro ⟨h', hfirst, hlast⟩
      obtain ⟨h₁, hstep, hfirst⟩ := run_cons_eq_some_iff.mp hfirst
      exact ⟨h₁, hstep, ih.mpr ⟨h', hfirst, hlast⟩⟩

/-- What every step preserves holds after every run. -/
theorem run_invariant {P : Holder → Prop}
    (hstep : ∀ {h now a h'}, P h → h.Step now a h' → P h') (hinit : P h)
    (hrun : h.run as = some h') : P h' := by
  induction as generalizing h with
  | nil =>
    cases hrun
    exact hinit
  | cons step rest ih =>
    obtain ⟨h₁, hfirst, hrun⟩ := run_cons_eq_some_iff.mp hrun
    exact ih (hstep hinit (step_of_eq_some hfirst)) hrun

/-- What holds at first, and after a step if it holds before, holds after every run; it may speak
of the run so far. -/
theorem run_induction {P : List (Nat × Action) → Holder → Prop} (hinit : P [] h)
    (hstep : ∀ {as g now a g'}, h.run as = some g → g.Step now a g' → P as g →
      P (as ++ [(now, a)]) g')
    (hrun : h.run as = some h') : P as h' := by
  have hfrom : ∀ (bs before : List (Nat × Action)) (g : Holder), h.run before = some g →
      P before g → g.run bs = some h' → P (before ++ bs) h' := by
    intro bs
    induction bs with
    | nil =>
      intro before g _ hg hend
      cases hend
      rwa [List.append_nil]
    | cons b bs ih =>
      intro before g hbefore hg hend
      obtain ⟨g', hb, hend⟩ := run_cons_eq_some_iff.mp hend
      have hnext := ih (before ++ [b]) g' (run_concat hbefore hb)
        (hstep hbefore (step_of_eq_some hb) hg) hend
      rwa [List.append_assoc] at hnext
  exact hfrom as [] h rfl hinit hrun

/-- The run goes through the state `g` and takes the action there, at that time. -/
def Passes (h : Holder) (as : List (Nat × Action)) (g : Holder) (now : Nat) (a : Action) : Prop :=
  ∃ before after, as = before ++ (now, a) :: after ∧ h.run before = some g

theorem passes_last {now : Nat} {a : Action} (hrun : h.run as = some h') :
    h.Passes (as ++ [(now, a)]) h' now a :=
  ⟨as, [], rfl, hrun⟩

theorem Passes.append {g : Holder} {now : Nat} {a : Action} (hpass : h.Passes as g now a)
    (bs : List (Nat × Action)) : h.Passes (as ++ bs) g now a := by
  obtain ⟨before, after, rfl, hbefore⟩ := hpass
  exact ⟨before, after ++ bs, List.append_assoc .., hbefore⟩

/-- The step that the run takes there, and the rest of the run. -/
theorem Passes.split {g : Holder} {now : Nat} {a : Action} (hpass : h.Passes as g now a)
    (hrun : h.run as = some h') :
    ∃ before g' after, h.run before = some g ∧ g.step now a = some g' ∧ g'.run after = some h' := by
  obtain ⟨before, after, rfl, hbefore⟩ := hpass
  obtain ⟨_, hg, hrest⟩ := run_append_eq_some_iff.mp hrun
  cases Option.some.inj (hbefore.symm.trans hg)
  obtain ⟨g', hstep, hafter⟩ := run_cons_eq_some_iff.mp hrest
  exact ⟨before, g', after, hbefore, hstep, hafter⟩

/-- `P` holds of each step of a run: of its time, the state before it and the action. -/
def Along (P : Nat → Holder → Action → Prop) (h : Holder) : List (Nat × Action) → Prop
  | [] => True
  | (now, a) :: rest => P now h a ∧ ∀ h', h.step now a = some h' → h'.Along P rest

/-- Whether `p` is true at each step of a run. -/
def checkAlong (p : Nat → Holder → Action → Bool) (h : Holder) : List (Nat × Action) → Bool
  | [] => true
  | (now, a) :: rest =>
    p now h a &&
      match h.step now a with
      | some h' => h'.checkAlong p rest
      | none => true

theorem along_of_checkAlong {P : Nat → Holder → Action → Prop} {p : Nat → Holder → Action → Bool}
    (hp : ∀ now h a, p now h a = true → P now h a) (hcheck : h.checkAlong p as = true) :
    h.Along P as := by
  induction as generalizing h with
  | nil => trivial
  | cons step rest ih =>
    obtain ⟨hfirst, hrest⟩ := Bool.and_eq_true_iff.mp hcheck
    refine ⟨hp _ _ _ hfirst, ?_⟩
    intro h' hstep
    rw [hstep] at hrest
    exact ih hrest

/-- What every step of a kind preserves holds after every run of such steps. -/
theorem run_invariant_along {P : Nat → Holder → Action → Prop} {Q : Holder → Prop}
    (hstep : ∀ {h now a h'}, Q h → P now h a → h.Step now a h' → Q h') (hinit : Q h)
    (halong : h.Along P as) (hrun : h.run as = some h') : Q h' := by
  induction as generalizing h with
  | nil =>
    cases hrun
    exact hinit
  | cons step rest ih =>
    obtain ⟨h₁, hfirst, hrun⟩ := run_cons_eq_some_iff.mp hrun
    obtain ⟨hkind, hrest⟩ := halong
    exact ih (hstep hinit hkind (step_of_eq_some hfirst)) (hrest h₁ hfirst) hrun

/-! ## Lists of calls, jobs and workers -/

section

variable {α : Type} {l : List α} {a b : α} {i j : Nat}

theorem getElem?_set_of_some (hi : l[i]? = some a) :
    (l.set i b)[j]? = if i = j then some b else l[j]? := by
  obtain ⟨hlt, -⟩ := List.getElem?_eq_some_iff.mp hi
  rw [List.getElem?_set, if_pos hlt]

theorem getElem?_set_self_of_some (hi : l[i]? = some a) : (l.set i b)[i]? = some b := by
  rw [getElem?_set_of_some hi, if_pos rfl]

/-- What stands in the place of the old one is the new one. -/
theorem eq_of_getElem?_set_self {c : α} (hi : l[i]? = some a) (hc : (l.set i b)[i]? = some c) :
    b = c :=
  Option.some.inj ((getElem?_set_self_of_some hi).symm.trans hc)

/-- What is in a list with one more at its end was in it before, or is the new one. -/
theorem getElem?_of_append_singleton (hj : (l ++ [b])[j]? = some a) :
    l[j]? = some a ∨ j = l.length ∧ b = a := by
  rw [List.getElem?_append] at hj
  split at hj
  · exact .inl hj
  · rw [List.getElem?_singleton] at hj
    split at hj
    · exact .inr ⟨by omega, Option.some.inj hj⟩
    · cases hj

theorem forall_mem_set {P : α → Prop} (hl : ∀ x ∈ l, P x) (hb : P b) : ∀ x ∈ l.set i b, P x := by
  intro x hx
  rcases List.mem_or_eq_of_mem_set hx with hx | rfl
  · exact hl x hx
  · exact hb

theorem forall_mem_append_singleton {P : α → Prop} (hl : ∀ x ∈ l, P x) (hb : P b) :
    ∀ x ∈ l ++ [b], P x := by
  intro x hx
  rcases List.mem_append.mp hx with hx | hx
  · exact hl x hx
  · rw [List.mem_singleton.mp hx]
    exact hb

variable {β : Type} {f : α → Option β}

theorem filterMap_set_of_eq (hi : l[i]? = some a) (hb : f b = f a) :
    (l.set i b).filterMap f = l.filterMap f := by
  induction l generalizing i with
  | nil => rfl
  | cons x l ih =>
    cases i with
    | zero =>
      cases hi
      rw [List.set_cons_zero, List.filterMap_cons, List.filterMap_cons, hb]
    | succ i =>
      rw [List.set_cons_succ, List.filterMap_cons, List.filterMap_cons, ih hi]

/-- What is left if all but one give nothing. -/
theorem filterMap_set_of_others (hi : i < l.length)
    (hothers : ∀ j x, l[j]? = some x → j ≠ i → f x = none) :
    (l.set i b).filterMap f = (f b).toList := by
  induction l generalizing i with
  | nil => exact absurd hi (Nat.not_lt_zero i)
  | cons x l ih =>
    cases i with
    | zero =>
      have hl : l.filterMap f = [] := by
        rw [List.filterMap_eq_nil_iff]
        intro y hy
        obtain ⟨j, hj⟩ := List.getElem?_of_mem hy
        exact hothers (j + 1) y hj (Nat.succ_ne_zero j)
      rw [List.set_cons_zero, List.filterMap_cons, hl]
      cases f b <;> rfl
    | succ i =>
      have hx : f x = none := hothers 0 x rfl (Nat.succ_ne_zero i).symm
      rw [List.set_cons_succ, List.filterMap_cons, hx]
      refine ih (Nat.lt_of_succ_lt_succ hi) ?_
      intro j y hj hne
      exact hothers (j + 1) y hj (fun heq => hne (Nat.succ.inj heq))

end

/-- The same calls are at the stages of a kind. -/
def SameStages (kind : Stage → Bool) (calls calls' : List Stage) : Prop :=
  ∀ (c : Nat) (s : Stage), kind s = true → (calls'[c]? = some s ↔ calls[c]? = some s)

namespace SameStages

variable {kind : Stage → Bool} {calls : List Stage} {c : Nat} {s s' : Stage}

theorem refl (kind : Stage → Bool) (calls : List Stage) : SameStages kind calls calls :=
  fun _ _ _ => Iff.rfl

theorem set (hc : calls[c]? = some s) (hs : kind s = false) (hs' : kind s' = false) :
    SameStages kind calls (calls.set c s') := by
  intro c' t ht
  rw [getElem?_set_of_some hc]
  split
  · rename_i heq
    rw [← heq, hc]
    constructor
    · intro hsome
      rw [← Option.some.inj hsome, hs'] at ht
      cases ht
    · intro hsome
      rw [← Option.some.inj hsome, hs] at ht
      cases ht
  · exact Iff.rfl

theorem append (hs : kind s = false) : SameStages kind calls (calls ++ [s]) := by
  intro c' t ht
  rw [List.getElem?_append]
  split
  · exact Iff.rfl
  · rename_i hge
    have hnone : calls[c']? = none := List.getElem?_eq_none (Nat.le_of_not_lt hge)
    rw [hnone, List.getElem?_singleton]
    split
    · constructor
      · intro hsome
        rw [← Option.some.inj hsome, hs] at ht
        cases ht
      · intro hsome
        cases hsome
    · exact Iff.rfl

theorem mono {kind' : Stage → Bool} {calls' : List Stage} (hsame : SameStages kind calls calls')
    (hkind : ∀ s, kind' s = true → kind s = true) : SameStages kind' calls calls' :=
  fun c s hs => hsame c s (hkind s hs)

theorem forall_mem_eq_false {calls' : List Stage} (hsame : SameStages kind calls calls')
    (hnone : ∀ s ∈ calls, kind s = false) : ∀ s ∈ calls', kind s = false := by
  intro s hs
  obtain ⟨c, hc⟩ := List.getElem?_of_mem hs
  cases hkind : kind s with
  | false => rfl
  | true =>
    have hmem := List.mem_of_getElem? ((hsame c s hkind).mp hc)
    rw [hnone s hmem] at hkind
    cases hkind

theorem mem_iff {calls' : List Stage} (hsame : SameStages kind calls calls') (hs : kind s = true) :
    s ∈ calls' ↔ s ∈ calls := by
  rw [List.mem_iff_getElem?, List.mem_iff_getElem?]
  exact exists_congr fun c => hsame c s hs

end SameStages

end Holder

end PagedQuery.Task
