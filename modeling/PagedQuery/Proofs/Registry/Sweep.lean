import PagedQuery.Proofs.Registry.Touches

/-!
# Sweeps

A sweep copies the map, checks one holder after the other and removes those that
it has found lost. While nothing else takes a lock, it removes exactly the
holders that are lost, and the others go on as if there had been no sweep.

* `Registry.SweepStep`, `Registry.Action.isBackground`: the steps of a sweep, and work that goes
  on meanwhile;
* `Registry.Marked`: what has become of a holder;
* `Registry.Sweeping`, `Registry.Sweeping.step`: how far a sweep is, and that it goes on;
* `Registry.Swept`, `Registry.sweep_of_run`: what a sweep removes and what it leaves alone.
-/

namespace PagedQuery.Task.Registry

variable {Id : Type}

/-! ## Steps -/

/-- The action is a step of the sweep with number `c`: one of its own, or one of the idle check
that it waits for. -/
def SweepStep (r : Registry Id) (c : Nat) : Action Id → Prop
  | .call c' => c' = c
  | .inner slot (.call k) => ∃ left lost, r.calls[c]? = some (.sweepWait slot k left lost)
  | _ => False

/-- Whether the action takes no lock: a batch job or a computation goes on, or a call comes in that
has not begun. -/
def Action.isBackground : Action Id → Bool
  | .inner _ a => a.isBackground
  | .begin _ => true
  | _ => false

/-- The work of an action on the holder of `slot`. -/
def Action.work? (now slot : Nat) : Action Id → Option (Nat × Task.Action)
  | .inner slot' a => if a.isBackground = true ∧ slot' = slot then some (now, a) else none
  | _ => none

/-- The work on the holder of `slot` in a list of actions. -/
def work (now slot : Nat) (as : List (Action Id)) : List (Nat × Task.Action) :=
  as.filterMap (Action.work? now slot)

theorem work_concat_of_none {now slot : Nat} {a : Action Id} (as : List (Action Id))
    (hnone : a.work? now slot = none) : work now slot (as ++ [a]) = work now slot as := by
  rw [work, work, List.filterMap_append, List.filterMap_cons_none hnone, List.filterMap_nil,
    List.append_nil]

theorem work_concat_inner {now slot : Nat} {b : Task.Action} (as : List (Action Id))
    (hb : b.isBackground = true) :
    work now slot (as ++ [.inner slot b]) = work now slot as ++ [(now, b)] := by
  rw [work, work, List.filterMap_append]
  simp [Action.work?, hb]

/-! ## Holders during a sweep -/

/-- What a sweep knows of a holder. -/
inductive Mark where
  | unseen
  | checking (call : Nat) (stage : Task.Stage)
  | kept
  | lost

/-- The mark of a holder that the sweep has checked. -/
def Mark.checked : Bool → Mark
  | true => .lost
  | false => .kept

/-- What has become of a holder, which was `h₀` before the sweep, by the sweep and by the work
`as`. -/
inductive Marked (now : Nat) (h₀ : Holder) (as : List (Nat × Task.Action)) (h : Holder) :
    Mark → Prop where
  | unseen (hwork : h₀.run as = some h) (honly : h₀.OnlyWork h) : Marked now h₀ as h .unseen
  | checking {k : Nat} {s : Task.Stage} (hcheck : Holder.Checking now h₀ as h k s) :
      Marked now h₀ as h (.checking k s)
  /-- The holder is what the work alone would have made of it, but for the call that is over. -/
  | kept {g : Holder} (hwork : h₀.run as = some g) (honly : h₀.OnlyWork g)
      (hkept : ¬ h₀.Reclaimable now)
      (hbeside : g.Beside h h₀.fetchLock none [.returned (.checked false)]) :
      Marked now h₀ as h .kept
  | lost (hlost : h₀.Reclaimable now) (hclosed : h.lifecycle = .closed) :
      Marked now h₀ as h .lost

section

variable {now k : Nat} {h₀ h h' : Holder} {as : List (Nat × Task.Action)} {mark : Mark}
  {s : Task.Stage}

theorem Marked.background {b : Task.Action} (hmarked : Marked now h₀ as h mark)
    (hb : b.isBackground = true) (hstep : h.step now b = some h') :
    Marked now h₀ (as ++ [(now, b)]) h' mark := by
  have honly' := (Holder.step_of_eq_some hstep).onlyWork hb
  cases hmarked with
  | unseen hwork honly => exact .unseen (Holder.run_concat hwork hstep) (honly.trans honly')
  | checking hcheck => exact .checking (hcheck.background hb hstep)
  | kept hwork honly hkept hbeside =>
    obtain ⟨g', hstep', hbeside'⟩ := hbeside.background hb hstep
    exact .kept (Holder.run_concat hwork hstep')
      (honly.trans ((Holder.step_of_eq_some hstep').onlyWork hb)) hkept hbeside'
  | lost hlost hclosed => exact .lost hlost ((congrArg Holder.lifecycle honly').trans hclosed)

/-- A check begins. -/
theorem Marked.check (hmarked : Marked now h₀ as h .unseen) (hfree : h₀.stateLock = none) :
    Marked now h₀ as { h with calls := h.calls ++ [Holder.firstStage .check] }
      (.checking h.calls.length .checkBegin) := by
  cases hmarked with
  | unseen hwork honly =>
    have hcalls : h.calls = h₀.calls := by rw [honly]
    have hlock : h.fetchLock = h₀.fetchLock := by rw [honly]
    have hstate : h.stateLock = none := by rw [honly, hfree]
    refine .checking (.inspecting hwork honly (congrArg List.length hcalls) ?_ .begin)
    show { h with calls := h.calls ++ [Holder.firstStage .check] } = _
    rw [← hlock, ← hstate]
    rfl

/-- A check is over. -/
theorem Marked.over {found : Bool} (hmarked : Marked now h₀ as h (.checking k s))
    (hk : h.calls[k]? = some (.returned (.checked found))) :
    Marked now h₀ as h (.checked found) := by
  cases hmarked with
  | checking hcheck =>
    cases Option.some.inj (hk.symm.trans hcheck.getElem?_calls)
    cases hcheck with
    | inspecting hwork honly hlength hbeside hinspects =>
      cases hinspects with
      | keep hkept => exact .kept hwork honly hkept hbeside
    | reclaiming hlost hclosed hk' hs =>
      cases found with
      | true => exact .lost hlost hclosed
      | false => cases hs

end

/-! ## The course of a sweep -/

/-- The marks when the sweep is done with some holders and has found some of them lost. -/
def markOf (done lost : List Nat) (slot : Nat) : Mark :=
  if slot ∈ lost then .lost else if slot ∈ done then .kept else .unseen

theorem markOf_of_mem_lost {done lost : List Nat} {slot : Nat} (hlost : slot ∈ lost) :
    markOf done lost slot = .lost :=
  if_pos hlost

theorem markOf_of_mem_done {done lost : List Nat} {slot : Nat} (hlost : slot ∉ lost)
    (hdone : slot ∈ done) : markOf done lost slot = .kept := by
  rw [markOf, if_neg hlost, if_pos hdone]

theorem markOf_of_not_mem {done lost : List Nat} {slot : Nat} (hlost : lost ⊆ done)
    (hdone : slot ∉ done) : markOf done lost slot = .unseen := by
  rw [markOf, if_neg fun hmem => hdone (hlost hmem), if_neg hdone]

/-- The lost holders after one more has been checked. -/
def addLost (lost : List Nat) (slot : Nat) : Bool → List Nat
  | true => lost ++ [slot]
  | false => lost

theorem addLost_subset {done lost : List Nat} {slot : Nat} (hlost : lost ⊆ done) (found : Bool) :
    addLost lost slot found ⊆ done ++ [slot] := by
  cases found with
  | true => simpa [addLost] using List.subset_append_of_subset_left [slot] hlost
  | false => exact List.subset_append_of_subset_left [slot] hlost

theorem markOf_addLost_of_ne {done lost : List Nat} {slot slot' : Nat} (hne : slot' ≠ slot)
    (found : Bool) :
    markOf (done ++ [slot]) (addLost lost slot found) slot' = markOf done lost slot' := by
  cases found <;> simp [markOf, addLost, hne]

theorem markOf_addLost_self {done lost : List Nat} {slot : Nat} (hlost : slot ∉ lost)
    (found : Bool) : markOf (done ++ [slot]) (addLost lost slot found) slot = .checked found := by
  cases found with
  | true => exact markOf_of_mem_lost (by simp [addLost])
  | false => exact markOf_of_mem_done hlost (by simp)

/-- The marks while the sweep is at one of the holders. -/
def markWhile (done lost : List Nat) (slot : Nat) (mark : Mark) (slot' : Nat) : Mark :=
  if slot' = slot then mark else markOf done lost slot'

theorem markWhile_self (done lost : List Nat) (slot : Nat) (mark : Mark) :
    markWhile done lost slot mark slot = mark :=
  if_pos rfl

theorem markWhile_of_ne {done lost : List Nat} {slot slot' : Nat} {mark : Mark}
    (hne : slot' ≠ slot) : markWhile done lost slot mark slot' = markOf done lost slot' :=
  if_neg hne

/-- How far a sweep is that has begun with the registry `r`: the map, the stage of the sweep, what
it knows of the holders, and how many steps it has left at most. -/
inductive SweepPhase (r : Registry Id) (entries : List (Id × Nat)) :
    Stage Id → (Nat → Mark) → Nat → Prop where
  | begin (hmap : entries = r.entries) :
      SweepPhase r entries .sweepBegin (markOf [] []) (10 * r.registered.length + 3)
  | next {done left lost : List Nat} (hmap : entries = r.entries)
      (hall : r.registered = done ++ left) (hlost : lost ⊆ done) :
      SweepPhase r entries (.sweepNext left lost) (markOf done lost) (10 * left.length + 2)
  | wait {done left lost : List Nat} {slot k : Nat} {s : Task.Stage} (hmap : entries = r.entries)
      (hall : r.registered = done ++ slot :: left) (hlost : lost ⊆ done) :
      SweepPhase r entries (.sweepWait slot k left lost)
        (markWhile done lost slot (.checking k s)) (10 * left.length + 3 + s.checkRank)
  | remove {lost : List Nat} (hmap : entries = r.entries) (hlost : lost ⊆ r.registered) :
      SweepPhase r entries (.sweepRemove lost) (markOf r.registered lost) 1
  | swept {lost : List Nat} {n : Nat}
      (hmap : entries = r.entries.filter fun entry => entry.2 ∉ lost)
      (hlost : lost ⊆ r.registered) : SweepPhase r entries (.swept n) (markOf r.registered lost) 0

/-- No idle check is inside of a section under the state lock of a registered holder. -/
def IsFree (r : Registry Id) : Prop :=
  ∀ slot ∈ r.registered, ∀ h, r.holder? slot = some h → h.stateLock = none

/-- What has become of all holders of the registry `r`, by a sweep and by the work in `as`. -/
def Marks (r : Registry Id) (as : List (Action Id)) (q : Registry Id) (mark : Nat → Mark) : Prop :=
  ∀ slot h₀, r.holder? slot = some h₀ →
    ∃ h, q.holder? slot = some h ∧ Marked r.clock h₀ (work r.clock slot as) h (mark slot)

/-- The registry has become `q` by the sweep with number `c`, which has begun with `r` and has at
most `rank` steps left, and by the work in `as`. -/
structure Sweeping (r : Registry Id) (c : Nat) (as : List (Action Id)) (q : Registry Id)
    (rank : Nat) : Prop where
  clock : q.clock = r.clock
  phase : ∃ stage mark, q.calls[c]? = some stage ∧ r.SweepPhase q.entries stage mark rank ∧
    r.Marks as q mark

section

variable {r q q' : Registry Id} {c : Nat} {as as' : List (Action Id)} {marks marks' : Nat → Mark}
  {rank : Nat}

/-- Only one holder takes a step. -/
theorem Marks.set (slot : Nat) (hmarks : r.Marks as q marks)
    (hholders : ∀ k, k ≠ slot → q'.holder? k = q.holder? k)
    (hworks : ∀ k, k ≠ slot → work r.clock k as' = work r.clock k as)
    (hsame : ∀ k, k ≠ slot → marks' k = marks k)
    (hslot : ∀ h₀ h, r.holder? slot = some h₀ → q.holder? slot = some h →
      Marked r.clock h₀ (work r.clock slot as) h (marks slot) →
      ∃ h', q'.holder? slot = some h' ∧
        Marked r.clock h₀ (work r.clock slot as') h' (marks' slot)) :
    r.Marks as' q' marks' := by
  intro k h₀ hk
  obtain ⟨h, hh, hmarked⟩ := hmarks k h₀ hk
  by_cases heq : k = slot
  · subst heq
    exact hslot h₀ h hk hh hmarked
  · rw [hholders k heq, hworks k heq, hsame k heq]
    exact ⟨h, hh, hmarked⟩

/-- No holder takes a step. -/
theorem Marks.same (hmarks : r.Marks as q marks) (hholders : ∀ k, q'.holder? k = q.holder? k)
    (hworks : ∀ k, work r.clock k as' = work r.clock k as) :
    r.Marks as' q' marks := by
  intro k h₀ hk
  rw [hholders, hworks]
  exact hmarks k h₀ hk

/-- A registered holder that the sweep has checked was found lost and is closed, or is as the work
alone would have made of it but for the check. -/
theorem Marks.verdict {lost : List Nat} {slot : Nat} {h₀ : Holder}
    (hmarks : r.Marks as q (markOf r.registered lost)) (hmem : slot ∈ r.registered)
    (hslot : r.holder? slot = some h₀) :
    ∃ h, q.holder? slot = some h ∧
      (slot ∈ lost ∧ h₀.Reclaimable r.clock ∧ h.lifecycle = .closed ∨
        slot ∉ lost ∧ ¬ h₀.Reclaimable r.clock ∧ ∃ g, h₀.run (work r.clock slot as) = some g ∧
          h₀.OnlyWork g ∧ g.Beside h h₀.fetchLock none [.returned (.checked false)]) := by
  obtain ⟨h, hh, hmarked⟩ := hmarks slot h₀ hslot
  refine ⟨h, hh, ?_⟩
  by_cases hlost : slot ∈ lost
  · rw [markOf_of_mem_lost hlost] at hmarked
    cases hmarked with
    | lost hreclaimable hclosed => exact .inl ⟨hlost, hreclaimable, hclosed⟩
  · rw [markOf_of_mem_done hlost hmem] at hmarked
    cases hmarked with
    | kept hwork honly hkept hbeside => exact .inr ⟨hlost, hkept, _, hwork, honly, hbeside⟩

/-- The sweep begins to check a holder. -/
theorem Marks.beginCheck {done lost : List Nat} {slot : Nat} {h : Holder}
    (hmarks : r.Marks as q (markOf done lost)) (hlost : lost ⊆ done) (hnot : slot ∉ done)
    (hfree : ∀ h₀, r.holder? slot = some h₀ → h₀.stateLock = none)
    (hslot : q.holder? slot = some h) :
    r.Marks (as ++ [.call c]) (q.beginOn slot h .check)
      (markWhile done lost slot (.checking h.calls.length .checkBegin)) := by
  refine hmarks.set slot (fun k hne => holder?_setHolder_of_ne hne.symm _)
    (fun _ _ => work_concat_of_none as rfl) (fun _ hne => markWhile_of_ne hne) ?_
  intro h₀ h' hh₀ hh hmarked
  cases Option.some.inj (hslot.symm.trans hh)
  rw [markOf_of_not_mem hlost hnot] at hmarked
  rw [markWhile_self, work_concat_of_none as rfl]
  exact ⟨_, holder?_setHolder hslot _, hmarked.check (hfree h₀ hh₀)⟩

/-- The check of a holder is over. -/
theorem Marks.endCheck {done lost : List Nat} {slot k : Nat} {s : Task.Stage} {found : Bool}
    (hmarks : r.Marks as q (markWhile done lost slot (.checking k s))) (hnot : slot ∉ lost)
    (hreply : q.innerReply? slot k = some (.checked found)) :
    r.Marks (as ++ [.call c]) q (markOf (done ++ [slot]) (addLost lost slot found)) := by
  obtain ⟨h, hslot, hk⟩ := innerReply?_eq_some_iff.mp hreply
  refine hmarks.set slot (fun _ _ => rfl) (fun _ _ => work_concat_of_none as rfl) ?_ ?_
  · intro k hne
    rw [markOf_addLost_of_ne hne, markWhile_of_ne hne]
  · intro h₀ h' _ hh hmarked
    cases Option.some.inj (hslot.symm.trans hh)
    rw [markWhile_self] at hmarked
    rw [markOf_addLost_self hnot, work_concat_of_none as rfl]
    exact ⟨h, hslot, hmarked.over hk⟩

theorem sweeping_start (hc : r.calls[c]? = some .sweepBegin) :
    r.Sweeping c [] r (10 * r.registered.length + 3) := by
  refine ⟨rfl, _, _, hc, .begin rfl, ?_⟩
  intro slot h₀ hslot
  exact ⟨h₀, hslot, .unseen rfl rfl⟩

variable [DecidableEq Id] {a : Action Id}

/-- Work that goes on does not disturb the sweep. -/
theorem Sweeping.background (hsweep : r.Sweeping c as q rank) (ha : a.isBackground = true)
    (hstep : q.Step a q') : r.Sweeping c (as ++ [a]) q' rank := by
  obtain ⟨stage, mark, hc, hphase, hmarks⟩ := hsweep.phase
  cases hstep with
  | begin operation =>
    have hc' : (q.calls ++ [firstStage operation])[c]? = some stage := by
      rw [List.getElem?_append_left (List.getElem?_eq_some_iff.mp hc).1, hc]
    refine ⟨hsweep.clock, stage, mark, hc', hphase, ?_⟩
    exact hmarks.same (fun _ => rfl) fun _ => work_concat_of_none as rfl
  | @inner slot b s h' hs hallowed hinner =>
    have hslot : q.holder? slot = some s.holder := holder?_eq_some_iff.mpr ⟨s, hs, rfl⟩
    refine ⟨hsweep.clock, stage, mark, hc, hphase, ?_⟩
    refine hmarks.set slot (fun k hne => holder?_setHolder_of_ne hne.symm h')
      (fun k hne => work_concat_of_none as (if_neg fun hb => hne hb.2.symm)) (fun _ _ => rfl) ?_
    intro h₀ h _ hh hmarked
    cases Option.some.inj (hslot.symm.trans hh)
    rw [hsweep.clock] at hinner
    rw [work_concat_inner as ha]
    exact ⟨h', holder?_setHolder hslot h', hmarked.background ha hinner⟩
  | _ => cases ha

/-- The check that the sweep waits for goes on. -/
theorem Sweeping.check {slot k : Nat} (hsweep : r.Sweeping c as q rank)
    (htidy : r.Tidy) (ha : q.SweepStep c (.inner slot (.call k)))
    (hstep : q.Step (.inner slot (.call k)) q') :
    ∃ rank' < rank, r.Sweeping c (as ++ [.inner slot (.call k)]) q' rank' := by
  obtain ⟨stage, mark, hc, hphase, hmarks⟩ := hsweep.phase
  obtain ⟨left, lost, hwait⟩ := ha
  cases Option.some.inj (hc.symm.trans hwait)
  cases hphase with
  | @wait done _ _ _ _ s hmap hall hlost =>
    cases hstep with
    | @inner _ _ sl h' hs hallowed hinner =>
      have hslot : q.holder? slot = some sl.holder := holder?_eq_some_iff.mpr ⟨sl, hs, rfl⟩
      obtain ⟨h₀, hh₀⟩ := htidy.exists_holder (hall ▸ List.mem_append_right done List.mem_cons_self)
      obtain ⟨h, hh, hmarked⟩ := hmarks slot h₀ hh₀
      cases Option.some.inj (hslot.symm.trans hh)
      rw [markWhile_self] at hmarked
      cases hmarked with
      | checking hcheck =>
        rw [hsweep.clock] at hinner
        obtain ⟨s', hcheck', hrank⟩ := hcheck.step hinner
        refine ⟨10 * left.length + 3 + s'.checkRank, by omega, hsweep.clock, _, _, hc,
          .wait hmap hall hlost, ?_⟩
        refine hmarks.set slot (fun k hne => holder?_setHolder_of_ne hne.symm h')
          (fun _ _ => work_concat_of_none as rfl) ?_ ?_
        · intro k hne
          rw [markWhile_of_ne hne, markWhile_of_ne hne]
        · intro h₀' h hh₀' hh hmarked
          cases Option.some.inj (hh₀.symm.trans hh₀')
          rw [markWhile_self, work_concat_of_none as rfl]
          exact ⟨h', holder?_setHolder hslot h', .checking hcheck'⟩

/-- The sweep takes a step of its own. -/
theorem Sweeping.call (hsweep : r.Sweeping c as q rank) (htidy : r.Tidy) (hfree : r.IsFree)
    (hstep : q.Step (.call c) q') : ∃ rank' < rank, r.Sweeping c (as ++ [.call c]) q' rank' := by
  obtain ⟨stage, mark, hc, hphase, hmarks⟩ := hsweep.phase
  have hnodup := htidy.nodup
  have hrest {q' : Registry Id} (hholders : ∀ k, q'.holder? k = q.holder? k) :
      r.Marks (as ++ [.call c]) q' mark :=
    hmarks.same hholders fun k => work_concat_of_none as rfl
  have hat (next : Stage Id) : (q.goTo c next).calls[c]? = some next := getElem?_goTo_self hc next
  cases hstep with
  | @call _ _ _ hc' hcall =>
    cases Option.some.inj (hc.symm.trans hc')
    cases hphase with
    | begin hmap =>
      cases hcall with
      | sweepBegin =>
        have hall : q.registered = r.registered := congrArg (List.map Prod.snd) hmap
        rw [hall]
        exact ⟨_, by omega, hsweep.clock, _, _, hat _, .next hmap rfl (List.Subset.refl []),
          hrest fun _ => rfl⟩
    | @next done left lost hmap hall hlost =>
      cases hcall with
      | sweepDone =>
        rw [List.append_nil] at hall
        subst hall
        exact ⟨1, by omega, hsweep.clock, _, _, hat _, .remove hmap hlost, hrest fun _ => rfl⟩
      | @sweepCheck slot left _ h hslot =>
        have hnot : slot ∉ done := by
          rw [hall, List.nodup_append] at hnodup
          exact fun hmem => hnodup.2.2 slot hmem slot List.mem_cons_self rfl
        have hmem : slot ∈ r.registered := by rw [hall]; simp
        have hless : 10 * left.length + 3 + Task.Stage.checkBegin.checkRank <
            10 * (slot :: left).length + 2 := by
          simp only [Task.Stage.checkRank, List.length_cons]
          omega
        exact ⟨_, hless, hsweep.clock, _, _, hat _, .wait hmap hall hlost,
          hmarks.beginCheck hlost hnot (hfree slot hmem) hslot⟩
    | @wait done left lost slot k s hmap hall hlost =>
      have hnot : slot ∉ lost := by
        rw [hall, List.nodup_append] at hnodup
        exact fun hmem => hnodup.2.2 slot (hlost hmem) slot List.mem_cons_self rfl
      have hall' : r.registered = (done ++ [slot]) ++ left := by rw [hall, List.append_cons]
      have hover {found : Bool} (hreply : q.innerReply? slot k = some (.checked found)) :
          r.Sweeping c (as ++ [.call c]) (q.goTo c (.sweepNext left (addLost lost slot found)))
            (10 * left.length + 2) :=
        ⟨hsweep.clock, _, _, hat _, .next hmap hall' (addLost_subset hlost found),
          hmarks.endCheck hnot hreply⟩
      cases hcall with
      | sweepLost hreply => exact ⟨_, by omega, hover hreply⟩
      | sweepKept hreply => exact ⟨_, by omega, hover hreply⟩
    | @remove lost hmap hlost =>
      cases hcall with
      | sweepRemove =>
        rw [foldl_removeCurrent]
        have hmap' : (q.entries.filter fun entry => entry.2 ∉ lost) =
            r.entries.filter fun entry => entry.2 ∉ lost := by rw [hmap]
        exact ⟨0, by omega, hsweep.clock, _, _, hat _, .swept hmap' hlost, hrest fun _ => rfl⟩
    | swept hmap hlost => cases hcall

theorem Sweeping.step (hsweep : r.Sweeping c as q rank) (htidy : r.Tidy) (hfree : r.IsFree)
    (ha : q.SweepStep c a) (hstep : q.Step a q') :
    ∃ rank' < rank, r.Sweeping c (as ++ [a]) q' rank' := by
  cases a with
  | call c' =>
    obtain rfl : c' = c := ha
    exact hsweep.call htidy hfree hstep
  | inner slot b =>
    cases b with
    | call k => exact hsweep.check htidy ha hstep
    | _ => cases ha
  | _ => cases ha

/-- A sweep that is not at its end can go on. -/
theorem Sweeping.exists_step (hsweep : r.Sweeping c as q rank) (htidy : r.Tidy) :
    (∃ n, q.calls[c]? = some (.swept n)) ∨ ∃ a q', q.SweepStep c a ∧ q.step a = some q' := by
  obtain ⟨stage, mark, hc, hphase, hmarks⟩ := hsweep.phase
  have hcall {q' : Registry Id} (hcall : q.callStep c stage = some q') :
      ∃ a q', q.SweepStep c a ∧ q.step a = some q' :=
    ⟨.call c, q', rfl, Option.bind_eq_some_iff.mpr ⟨stage, hc, hcall⟩⟩
  cases hphase with
  | begin hmap => exact .inr (hcall rfl)
  | @next done left lost hmap hall hlost =>
    cases left with
    | nil => exact .inr (hcall rfl)
    | cons slot left =>
      obtain ⟨h₀, hh₀⟩ := htidy.exists_holder (hall ▸ List.mem_append_right done List.mem_cons_self)
      obtain ⟨h, hslot, -⟩ := hmarks slot h₀ hh₀
      have hbegin : q.beginInner? slot .check = some (h.calls.length, q.beginOn slot h .check) :=
        beginInner?_eq_some_iff.mpr ⟨h, hslot, rfl, rfl⟩
      exact .inr (hcall (Option.bind_eq_some_iff.mpr ⟨_, hbegin, rfl⟩))
  | @wait done left lost slot k s hmap hall hlost =>
    obtain ⟨h₀, hh₀⟩ := htidy.exists_holder (hall ▸ List.mem_append_right done List.mem_cons_self)
    obtain ⟨h, hslot, hmarked⟩ := hmarks slot h₀ hh₀
    rw [markWhile_self] at hmarked
    cases hmarked with
    | checking hcheck =>
      cases hs : s.isReturned with
      | false =>
        obtain ⟨h', hinner⟩ := hcheck.exists_step hs
        obtain ⟨sl, hsl, rfl⟩ := holder?_eq_some_iff.mp hslot
        rw [← hsweep.clock] at hinner
        refine .inr ⟨.inner slot (.call k), q.setHolder slot h', ⟨left, lost, hc⟩, ?_⟩
        refine Option.bind_eq_some_iff.mpr ⟨sl, hsl, ?_⟩
        rw [hinner]
        rfl
      | true =>
        obtain ⟨found, rfl⟩ := hcheck.eq_returned hs
        have hreply := innerReply?_eq_some_iff.mpr ⟨h, hslot, hcheck.getElem?_calls⟩
        cases found with
        | true => exact .inr (hcall (Option.bind_eq_some_iff.mpr ⟨_, hreply, rfl⟩))
        | false => exact .inr (hcall (Option.bind_eq_some_iff.mpr ⟨_, hreply, rfl⟩))
  | remove hmap hlost => exact .inr (hcall rfl)
  | swept hmap hlost => exact .inl ⟨_, hc⟩

/-- A sweep comes to its end by its own steps. -/
theorem Sweeping.completes (htidy : r.Tidy) (hfree : r.IsFree) (hsweep : r.Sweeping c as q rank) :
    ∃ bs q' n, q.run bs = some q' ∧ (∀ p b p', q.Passes bs p b p' → p.SweepStep c b) ∧
      q'.calls[c]? = some (.swept n) := by
  induction rank using Nat.strongRecOn generalizing as q with
  | ind rank ih =>
    rcases hsweep.exists_step htidy with ⟨n, hn⟩ | ⟨a, q₁, ha, hstep⟩
    · refine ⟨[], q, n, rfl, ?_, hn⟩
      rintro p b p' ⟨before, after, heq, -⟩
      simp at heq
    · obtain ⟨rank₁, hless, hsweep₁⟩ := hsweep.step htidy hfree ha (step_of_eq_some hstep)
      obtain ⟨bs, q', n, hrun, hown, hn⟩ := ih rank₁ hless hsweep₁
      refine ⟨a :: bs, q', n, run_cons_eq_some_iff.mpr ⟨q₁, hstep, hrun⟩, ?_, hn⟩
      intro p b p' hpass
      rcases passes_cons_iff.mp hpass with ⟨rfl, rfl, -⟩ | ⟨q₂, hstep', hpass⟩
      · exact ha
      · cases Option.some.inj (hstep.symm.trans hstep')
        exact hown p b p' hpass

/-- A sweep that nothing is in the way of goes on as it should. -/
theorem run_sweeping (htidy : r.Tidy) (hfree : r.IsFree) (hc : r.calls[c]? = some .sweepBegin)
    (hrun : r.run as = some q)
    (hsteps : ∀ p a p', r.Passes as p a p' → p.SweepStep c a ∨ a.isBackground = true) :
    ∃ rank, r.Sweeping c as q rank := by
  refine run_induction (P := fun as q =>
    (∀ p a p', r.Passes as p a p' → p.SweepStep c a ∨ a.isBackground = true) →
      ∃ rank, r.Sweeping c as q rank) ?_ ?_ hrun hsteps
  · intro _
    exact ⟨_, sweeping_start hc⟩
  · intro as p a p' hp hstep ih hsteps
    obtain ⟨rank, hsweep⟩ := ih fun p₁ b p₁' hpass =>
      hsteps p₁ b p₁' (passes_concat_iff.mpr (.inl hpass))
    rcases hsteps p a p' (passes_concat_iff.mpr (.inr ⟨rfl, hp, hstep⟩)) with hown | hback
    · obtain ⟨rank', -, hsweep'⟩ := hsweep.step htidy hfree hown (step_of_eq_some hstep)
      exact ⟨rank', hsweep'⟩
    · exact ⟨rank, hsweep.background hback (step_of_eq_some hstep)⟩

end

/-! ## What a sweep does -/

variable [DecidableEq Id] {config : EngineConfig} {r r' : Registry Id} {as bs : List (Action Id)}
  {c n rank : Nat}

/-- After the run, the holder of the slot is closed, or has no fetch in progress and was last
touched an idle timeout ago. -/
def LostAfter (config : EngineConfig) (as : List (Action Id)) (r : Registry Id) (slot : Nat) :
    Prop :=
  ∃ h last, r.holder? slot = some h ∧ (start config).LastTouch as slot last ∧
    (h.lifecycle = .closed ∨ ¬ h.Fetching ∧ config.idleTimeout ≤ r.clock - last)

/-- What has become of the registry `r` by a sweep after the run `as`, and by the work in `bs` that
went on meanwhile. -/
structure Swept (config : EngineConfig) (as : List (Action Id)) (r : Registry Id)
    (bs : List (Action Id)) (r' : Registry Id) : Prop where
  /-- Exactly the lost holders have left the map. -/
  mem_entries_iff : ∀ entry, entry ∈ r'.entries ↔
    entry ∈ r.entries ∧ ¬ LostAfter config as r entry.2
  /-- Those are closed. -/
  removed : ∀ entry ∈ r.entries, LostAfter config as r entry.2 → r'.IsClosed entry.2
  /-- The others are what the work alone has made of them, and a check on them is over. -/
  kept : ∀ entry ∈ r'.entries, ∀ h, r.holder? entry.2 = some h →
    ∃ g log, h.run (work r.clock entry.2 bs) = some g ∧
      r'.holder? entry.2 =
        some { g with calls := g.calls ++ [.returned (.checked false)], log }
  /-- A holder that is not in the map is what the work alone has made of it. -/
  unregistered : ∀ slot h, slot ∉ r.registered → r.holder? slot = some h →
    ∃ g, h.run (work r.clock slot bs) = some g ∧ r'.holder? slot = some g
  /-- All that are left are open, and in a fetch or touched since. -/
  left : ∀ entry ∈ r'.entries, ∃ h last, r'.holder? entry.2 = some h ∧
    (start config).LastTouch (as ++ bs) entry.2 last ∧ h.lifecycle ≠ .closed ∧
    (h.Fetching ∨ r'.clock - last < config.idleTimeout)

/-- Whether a registered holder is lost is what an idle check on it goes by. -/
theorem lostAfter_iff {slot : Nat} {h : Holder} (hrun : (start config).run as = some r)
    (hmem : slot ∈ r.registered) (hslot : r.holder? slot = some h) (hfree : h.stateLock = none) :
    LostAfter config as r slot ↔ h.Reclaimable r.clock := by
  obtain ⟨id, hentry⟩ := mem_registered_iff.mp hmem
  obtain ⟨h₁, hslot₁, htimeout⟩ := (run_tidy hrun).holders _ hentry
  cases Option.some.inj (hslot.symm.trans hslot₁)
  rw [run_config hrun] at htimeout
  have hlast := run_lastTouch hrun hslot
  have hlost : h.IsLost r.clock ↔ h.Reclaimable r.clock :=
    (run_honest hrun slot h hslot).isLost_iff hfree
  constructor
  · rintro ⟨h₂, last, hslot₂, hlast₂, hcase⟩
    cases Option.some.inj (hslot.symm.trans hslot₂)
    rw [hlast₂.unique hlast, ← htimeout] at hcase
    exact hlost.mp hcase
  · intro hreclaimable
    have hcase := hlost.mpr hreclaimable
    rw [Holder.IsLost, htimeout] at hcase
    exact ⟨h, h.lastTouched, hslot, hlast, hcase⟩

/-- A holder that is not lost is open, and in a fetch or touched since. -/
theorem open_of_not_lostAfter {slot : Nat} {h : Holder} (hrun : (start config).run as = some r)
    (hslot : r.holder? slot = some h) (hnot : ¬ LostAfter config as r slot) :
    ∃ last, (start config).LastTouch as slot last ∧ h.lifecycle ≠ .closed ∧
      (h.Fetching ∨ r.clock - last < config.idleTimeout) := by
  have hlast := run_lastTouch hrun hslot
  refine ⟨h.lastTouched, hlast, ?_, ?_⟩
  · intro hclosed
    exact hnot ⟨h, _, hslot, hlast, .inl hclosed⟩
  · apply Classical.byContradiction
    intro hneither
    obtain ⟨hquiet, hold⟩ := not_or.mp hneither
    exact hnot ⟨h, _, hslot, hlast, .inr ⟨hquiet, Nat.le_of_not_lt hold⟩⟩

/-- What a sweep has found lost is lost. -/
theorem Marks.mem_lost_iff {lost : List Nat} {slot : Nat} (hrun : (start config).run as = some r)
    (hfree : r.IsFree) (hmarks : r.Marks bs r' (markOf r.registered lost))
    (hmem : slot ∈ r.registered) : slot ∈ lost ↔ LostAfter config as r slot := by
  obtain ⟨h₀, hslot⟩ := (run_tidy hrun).exists_holder hmem
  rw [lostAfter_iff hrun hmem hslot (hfree slot hmem h₀ hslot)]
  obtain ⟨h, -, ⟨hyes, hreclaimable, -⟩ | ⟨hno, hkept, -⟩⟩ := hmarks.verdict hmem hslot
  · exact ⟨fun _ => hreclaimable, fun _ => hyes⟩
  · exact ⟨fun hyes => absurd hyes hno, fun hreclaimable => absurd hreclaimable hkept⟩

/-- A sweep that is over has done what it should. -/
theorem Sweeping.swept (hrun : (start config).run as = some r) (hfree : r.IsFree)
    (hsweep : r.Sweeping c bs r' rank) (hrun' : r.run bs = some r')
    (hc : r'.calls[c]? = some (.swept n)) : Swept config as r bs r' := by
  obtain ⟨stage, mark, hc', hphase, hmarks⟩ := hsweep.phase
  cases Option.some.inj (hc.symm.trans hc')
  cases hphase with
  | @swept lost _ hmap hsubset =>
    have hmem {entry : Id × Nat} (hentry : entry ∈ r.entries) : entry.2 ∈ r.registered :=
      mem_registered_iff.mpr ⟨entry.1, hentry⟩
    have hentries (entry : Id × Nat) :
        entry ∈ r'.entries ↔ entry ∈ r.entries ∧ entry.2 ∉ lost := by
      rw [hmap, List.mem_filter, decide_eq_true_iff]
    have hlost {entry : Id × Nat} (hentry : entry ∈ r.entries) :
        entry.2 ∈ lost ↔ LostAfter config as r entry.2 :=
      hmarks.mem_lost_iff hrun hfree (hmem hentry)
    refine ⟨?_, ?_, ?_, ?_, ?_⟩
    · intro entry
      rw [hentries entry]
      exact and_congr_right fun hentry => not_congr (hlost hentry)
    · intro entry hentry hyes
      obtain ⟨h₀, hslot⟩ := (run_tidy hrun).exists_holder (hmem hentry)
      obtain ⟨h, hh, ⟨-, -, hclosed⟩ | ⟨hno, -⟩⟩ := hmarks.verdict (hmem hentry) hslot
      · exact ⟨h, hh, congrArg Lifecycle.state hclosed⟩
      · exact absurd ((hlost hentry).mpr hyes) hno
    · intro entry hleft h₀ hslot
      obtain ⟨hentry, hno⟩ := (hentries entry).mp hleft
      have hunlocked : h₀.stateLock = none := hfree _ (hmem hentry) h₀ hslot
      obtain ⟨h, hh, ⟨hyes, -⟩ | ⟨-, -, g, hwork, honly, hbeside⟩⟩ :=
        hmarks.verdict (hmem hentry) hslot
      · exact absurd hyes hno
      · have hfetch : g.fetchLock = h₀.fetchLock := by rw [honly]
        have hstate : g.stateLock = none := by rw [honly, hunlocked]
        refine ⟨g, h.log, hwork, ?_⟩
        rw [Holder.Beside, ← hfetch, ← hstate] at hbeside
        exact hh.trans (congrArg some hbeside)
    · intro slot h₀ hnot hslot
      obtain ⟨h, hh, hmarked⟩ := hmarks slot h₀ hslot
      rw [markOf_of_not_mem hsubset hnot] at hmarked
      cases hmarked with
      | unseen hwork honly => exact ⟨h, hwork, hh⟩
    · intro entry hleft
      obtain ⟨hentry, hno⟩ := (hentries entry).mp hleft
      obtain ⟨h₀, hslot⟩ := (run_tidy hrun).exists_holder (hmem hentry)
      obtain ⟨h, hh, ⟨hyes, -⟩ | ⟨-, hkept, g, hwork, honly, hbeside⟩⟩ :=
        hmarks.verdict (hmem hentry) hslot
      · exact absurd hyes hno
      · obtain ⟨hlife, hlast, htimeout, hfetch, hstate⟩ := hbeside.sees honly
        have hboth : (start config).run (as ++ bs) = some r' :=
          run_append_eq_some_iff.mpr ⟨r, hrun, hrun'⟩
        have hkept' : ¬ LostAfter config (as ++ bs) r' entry.2 := by
          rw [lostAfter_iff hboth (mem_registered_iff.mpr ⟨entry.1, hleft⟩) hh hstate]
          rwa [Holder.Reclaimable, hlife, hlast, htimeout, hfetch, hsweep.clock]
        obtain ⟨last, hopen⟩ := open_of_not_lostAfter hboth hh hkept'
        exact ⟨h, last, hh, hopen⟩

/-- A sweep that no other call gets in the way of comes to its end. Whatever work goes on meanwhile,
it removes exactly the holders that are closed, or have no fetch in progress and were last touched
an idle timeout ago; those are closed then, and the others go on as if there had been no sweep. -/
theorem sweep_of_run (hrun : (start config).run as = some r)
    (hc : r.calls[c]? = some .sweepBegin) (hfree : r.IsFree) :
    (∃ bs r' n, r.run bs = some r' ∧ (∀ q a q', r.Passes bs q a q' → q.SweepStep c a) ∧
        r'.calls[c]? = some (.swept n)) ∧
      ∀ bs r' n, r.run bs = some r' →
        (∀ q a q', r.Passes bs q a q' → q.SweepStep c a ∨ a.isBackground = true) →
        r'.calls[c]? = some (.swept n) → Swept config as r bs r' := by
  have htidy := run_tidy hrun
  constructor
  · exact (sweeping_start hc).completes htidy hfree
  · intro bs r' n hrun' hsteps hn
    obtain ⟨rank, hsweep⟩ := run_sweeping htidy hfree hc hrun' hsteps
    exact hsweep.swept hrun hfree hrun' hn

/-- One of two tasks is in a fetch, and nobody fetches the other for its idle timeout. Then a sweep
begins. -/
def idleTasks : List (Action Nat) :=
  [.put 7 (.ofScript 5 []), .put 8 (.ofScript 5 []), .begin (.fetch 8 100000), .call 0,
    .inner 1 (.call 0), .inner 1 (.call 0), .tick 60000, .begin .sweep]

theorem sweep_of_run_idleTasks :
    ∃ (r : Registry Nat) (bs : List (Action Nat)) (r' : Registry Nat) (n : Nat),
      (start .default).run idleTasks = some r ∧ r.calls[1]? = some .sweepBegin ∧ r.IsFree ∧
      r.run bs = some r' ∧ r'.calls[1]? = some (.swept n) ∧
      (7, 0) ∉ r'.entries ∧ r'.IsClosed 0 ∧ (8, 1) ∈ r'.entries := by
  have hrun : ∃ (r : Registry Nat) (idle busy : Holder),
      (start .default).run idleTasks = some r ∧ r.calls[1]? = some .sweepBegin ∧
      r.entries = [(7, 0), (8, 1)] ∧ r.holder? 0 = some idle ∧ r.holder? 1 = some busy ∧
      idle.stateLock = none ∧ busy.stateLock = none ∧
      idle.fetchLock = none ∧ idle.idleTimeout = 60000 ∧ idle.lastTouched = 0 ∧ r.clock = 60000 ∧
      busy.fetchLock = some 0 ∧ busy.lifecycle.state = .executed :=
    ⟨_, _, _, rfl, rfl, rfl, rfl, rfl, rfl, rfl, rfl, rfl, rfl, rfl, rfl, rfl⟩
  obtain ⟨r, idle, busy, hrun, hc, hentries, hidle, hbusy, hidleFree, hbusyFree, hunlocked,
    htimeout, hlast, hclock, hlocked, hopen⟩ := hrun
  have hregistered : r.registered = [0, 1] := by rw [registered, hentries]; rfl
  have hfree : r.IsFree := by
    intro slot hmem h hslot
    have hcase : slot = 0 ∨ slot = 1 := by simpa [hregistered] using hmem
    rcases hcase with rfl | rfl
    · cases Option.some.inj (hidle.symm.trans hslot)
      exact hidleFree
    · cases Option.some.inj (hbusy.symm.trans hslot)
      exact hbusyFree
  have hlost : LostAfter .default idleTasks r 0 := by
    refine (lostAfter_iff hrun (by simp [hregistered]) hidle hidleFree).mpr (.inr ⟨hunlocked, ?_⟩)
    omega
  have hkept : ¬ LostAfter .default idleTasks r 1 := by
    rw [lostAfter_iff hrun (by simp [hregistered]) hbusy hbusyFree]
    rintro (hclosed | ⟨hnone, -⟩)
    · rw [hclosed] at hopen
      cases hopen
    · cases hlocked.symm.trans hnone
  obtain ⟨⟨bs, r', n, hrun', hown, hn⟩, hswept⟩ := sweep_of_run hrun hc hfree
  have hdone := hswept bs r' n hrun' (fun q a q' hpass => .inl (hown q a q' hpass)) hn
  have hidleMem : (7, 0) ∈ r.entries := by rw [hentries]; simp
  have hbusyMem : (8, 1) ∈ r.entries := by rw [hentries]; simp
  refine ⟨r, bs, r', n, hrun, hc, hfree, hrun', hn, ?_, hdone.removed _ hidleMem hlost, ?_⟩
  · intro hleft
    exact ((hdone.mem_entries_iff _).mp hleft).2 hlost
  · exact (hdone.mem_entries_iff _).mpr ⟨hbusyMem, hkept⟩

end PagedQuery.Task.Registry
