import PagedQuery.Proofs.Registry.Run

/-!
# How holders leave the map

A holder leaves the map when its task is cancelled or the registry is shut
down, and whoever takes it out closes it; or because a fetch or a sweep has
found this holder closed. So a call that still works on an older holder never
takes out a newer one of the same name, and no holder is lost that is open.

* `Registry.Closes`, `Registry.Secured`: calls that are about to close a holder, and holders that
  are closed or will be;
* `Registry.Step.secured`: a holder that leaves the map;
* `Registry.removal_of_run`: entries and what becomes of their holders, in every run.
-/

namespace PagedQuery.Task.Registry

variable {Id : Type} [DecidableEq Id] {r r' : Registry Id} {a : Action Id}
  {as : List (Action Id)} {c slot k : Nat} {stage : Stage Id}

/-! ## Holders that will be closed -/

/-- The call `k` on the holder of `slot` is about to cancel it. -/
def Cancels (r : Registry Id) (slot k : Nat) : Prop :=
  ∃ h, r.holder? slot = some h ∧ h.calls[k]? = some (.close true .cancel)

/-- A call at the stage has still to close the holder of `slot`: it waits for a cancel of the
holder, or will make one. -/
def Closes (r : Registry Id) (slot : Nat) : Stage Id → Prop
  | .cancelWait slot' k => slot' = slot ∧ r.Cancels slot k
  | .shutdownNext left => slot ∈ left
  | .shutdownWait slot' k left => slot ∈ left ∨ slot' = slot ∧ r.Cancels slot k
  | _ => False

/-- The holder of `slot` is closed, or the call `c` has still to close it. -/
def Secured (r : Registry Id) (c slot : Nat) : Prop :=
  r.IsClosed slot ∨ ∃ stage, r.calls[c]? = some stage ∧ r.Closes slot stage

omit [DecidableEq Id] in
theorem Motion.cancels (hmotion : r.Motion a r') (hcancels : r.Cancels slot k) :
    r'.IsClosed slot ∨ r'.Cancels slot k := by
  obtain ⟨h, hslot, hk⟩ := hcancels
  obtain ⟨h', hslot', rfl | ⟨b, hinner, -⟩⟩ := hmotion.after hslot
  · exact .inr ⟨h', hslot', hk⟩
  · rcases hinner.close_or_closed hk with hk' | hclosed
    · exact .inr ⟨h', hslot', hk'⟩
    · exact .inl ⟨h', hslot', hclosed⟩

omit [DecidableEq Id] in
theorem Motion.closes (hmotion : r.Motion a r') (hcloses : r.Closes slot stage) :
    r'.IsClosed slot ∨ r'.Closes slot stage := by
  cases stage with
  | cancelWait slot' k =>
    obtain ⟨rfl, hcancels⟩ := hcloses
    exact (hmotion.cancels hcancels).imp_right fun hnext => ⟨rfl, hnext⟩
  | shutdownNext left => exact .inr hcloses
  | shutdownWait slot' k left =>
    rcases hcloses with hleft | ⟨rfl, hcancels⟩
    · exact .inr (.inl hleft)
    · exact (hmotion.cancels hcancels).imp_right fun hnext => .inr ⟨rfl, hnext⟩
  | _ => cases hcloses

omit [DecidableEq Id] in
theorem cancels_beginOn {h : Holder} (hslot : r.holder? slot = some h) :
    (r.beginOn slot h .cancel).Cancels slot h.calls.length := by
  refine ⟨_, holder?_setHolder hslot _, ?_⟩
  rw [List.getElem?_append_right (Nat.le_refl _), Nat.sub_self]
  rfl

omit [DecidableEq Id] in
theorem not_cancels_of_reply {reply : Reply} (hreply : r.innerReply? slot k = some reply) :
    ¬ r.Cancels slot k := by
  rintro ⟨h, hslot, hk⟩
  obtain ⟨h', hslot', hk'⟩ := innerReply?_eq_some_iff.mp hreply
  cases Option.some.inj (hslot.symm.trans hslot')
  cases hk.symm.trans hk'

/-- A call that has still to close a holder goes on to do so. -/
theorem CallStep.closes (hcall : r.CallStep c stage r') (hc : r.calls[c]? = some stage)
    (hcloses : r.Closes slot stage) :
    ∃ next, r'.calls[c]? = some next ∧ r'.Closes slot next := by
  have hat (next : Stage Id) : (r.calls.set c next)[c]? = some next :=
    Holder.getElem?_set_self_of_some hc
  cases hcall with
  | cancelReturn hreply =>
    obtain ⟨rfl, hcancels⟩ := hcloses
    exact absurd hcancels (not_cancels_of_reply hreply)
  | shutdownDone => cases hcloses
  | shutdownCancel hslot =>
    refine ⟨_, hat _, ?_⟩
    rcases List.mem_cons.mp hcloses with rfl | hleft
    · exact .inr ⟨rfl, cancels_beginOn hslot⟩
    · exact .inl hleft
  | shutdownReturn hreply =>
    rcases hcloses with hleft | ⟨rfl, hcancels⟩
    · exact ⟨_, hat _, hleft⟩
    · exact absurd hcancels (not_cancels_of_reply hreply)
  | _ => cases hcloses

theorem Secured.step (hsecured : r.Secured c slot) (hstep : r.Step a r') : r'.Secured c slot := by
  rcases hsecured with hclosed | ⟨stage, hc, hcloses⟩
  · exact .inl (hstep.motion.isClosed hclosed)
  · by_cases hmover : a.mover? = some c
    · cases hstep with
      | call hc' hcall =>
        cases hmover
        cases Option.some.inj (hc.symm.trans hc')
        exact .inr (hcall.closes hc hcloses)
      | abandonLookup hc' | abandonWait hc' =>
        cases hmover
        cases Option.some.inj (hc.symm.trans hc')
        cases hcloses
      | _ => cases hmover
    · rcases hstep.motion.closes hcloses with hclosed | hcloses'
      · exact .inl hclosed
      · exact .inr ⟨stage, hstep.getElem?_calls_of_ne hmover hc, hcloses'⟩

/-! ## Holders that leave the map -/

/-- A call that takes a holder out of the map finds it closed, or has still to close it. -/
theorem CallStep.secured (hcall : r.CallStep c stage r') (hc : r.calls[c]? = some stage)
    (hjustified : r.Justifies stage) {entry : Id × Nat} (hmem : entry ∈ r.entries)
    (hremoves : r.Removes entry stage) : r'.Secured c entry.2 := by
  have hat (next : Stage Id) : (r.calls.set c next)[c]? = some next :=
    Holder.getElem?_set_self_of_some hc
  have hfound (hclosed : r.IsClosed entry.2) : r'.Secured c entry.2 :=
    .inl ((hcall.motion (a := .call c)).isClosed hclosed)
  cases hcall with
  | fetchRemove =>
    obtain rfl : entry.2 = _ := hremoves
    exact hfound hjustified.2
  | cancelMissing hlookup => cases hlookup.symm.trans hremoves
  | cancelFound hlookup hslot =>
    cases Option.some.inj (hlookup.symm.trans hremoves)
    exact .inr ⟨_, hat _, rfl, cancels_beginOn hslot⟩
  | sweepRemove => exact hfound (hjustified entry.2 hremoves)
  | shutdownBegin => exact .inr ⟨_, hat _, mem_registered_iff.mpr ⟨entry.1, hmem⟩⟩
  | _ => cases hremoves

/-- An entry leaves the map by a step of a call that takes it out, and from then on its holder is
closed or that call has still to close it. -/
theorem Step.secured (hstep : r.Step a r') (hjustified : ∀ stage ∈ r.calls, r.Justifies stage)
    {entry : Id × Nat} (hmem : entry ∈ r.entries) (hgone : entry ∉ r'.entries) :
    ∃ c stage, a = .call c ∧ r.calls[c]? = some stage ∧ r.Removes entry stage ∧
      r'.Secured c entry.2 := by
  have hremoves : ∃ c stage, a = .call c ∧ r.calls[c]? = some stage ∧ r.Removes entry stage := by
    apply Classical.byContradiction
    intro hnone
    exact hgone ((hstep.mem_entries_iff entry).mpr (.inl ⟨hmem, hnone⟩))
  obtain ⟨c, stage, rfl, hc, hremoves⟩ := hremoves
  cases hstep with
  | call hc' hcall =>
    cases Option.some.inj (hc.symm.trans hc')
    have hstage := hjustified stage (List.mem_of_getElem? hc)
    exact ⟨c, stage, rfl, hc, hremoves, hcall.secured hc hstage hmem hremoves⟩

/-- The holder is in the map, or it is closed, or a call has still to close it. -/
def Kept (r : Registry Id) (slot : Nat) : Prop :=
  slot ∈ r.registered ∨ ∃ c, r.Secured c slot

theorem Kept.step (hkept : r.Kept slot) (hjustified : ∀ stage ∈ r.calls, r.Justifies stage)
    (hstep : r.Step a r') : r'.Kept slot := by
  rcases hkept with hmem | ⟨c, hsecured⟩
  · obtain ⟨id, hentry⟩ := mem_registered_iff.mp hmem
    by_cases hstays : (id, slot) ∈ r'.entries
    · exact .inl (mem_registered_iff.mpr ⟨id, hstays⟩)
    · obtain ⟨c, -, -, -, -, hsecured⟩ := hstep.secured hjustified hentry hstays
      exact .inr ⟨c, hsecured⟩
  · exact .inr ⟨c, hsecured.step hstep⟩

/-- What is kept stays so, as long as calls remove only what is closed. -/
theorem run_kept {config : EngineConfig} {bs : List (Action Id)}
    (hrun : (start config).run as = some r) (hkept : r.Kept slot) (hrest : r.run bs = some r') :
    r'.Kept slot := by
  have hboth : r'.Kept slot ∧ ∃ as, (start config).run as = some r' := by
    refine run_induction (P := fun _ q => q.Kept slot ∧ ∃ as, (start config).run as = some q)
      ⟨hkept, as, hrun⟩ ?_ hrest
    rintro bs q a q' - hstep ⟨hq, as, has⟩
    exact ⟨hq.step (run_justifies has) (step_of_eq_some hstep), as ++ [a],
      run_concat_eq_some_iff.mpr ⟨q, has, hstep⟩⟩
  exact hboth.1

omit [DecidableEq Id] in
/-- Nobody has still to close a holder that no call works on. -/
theorem Secured.isClosed (hsecured : r.Secured c slot)
    (hfree : ∀ stage, r.calls[c]? = some stage → stage.uses slot = false) : r.IsClosed slot := by
  rcases hsecured with hclosed | ⟨stage, hc, hcloses⟩
  · exact hclosed
  · have hnot := hfree stage hc
    cases stage with
    | cancelWait slot' k =>
      obtain ⟨rfl, -⟩ := hcloses
      simp [Stage.uses] at hnot
    | shutdownNext left =>
      have hleft : slot ∈ left := hcloses
      simp [Stage.uses, hleft] at hnot
    | shutdownWait slot' k left =>
      rcases hcloses with hleft | ⟨rfl, -⟩
      · simp [Stage.uses, hleft] at hnot
      · simp [Stage.uses] at hnot
    | _ => cases hcloses

/-- How an entry leaves the map, in every run: by a cancel of its name or a shutdown, which has
closed the holder when it returns, or by a fetch or a sweep that has found this very holder
closed. A fetch or a sweep that has found another one leaves the entry alone. And once the holder
is out of the map and no call works on it any more, it is closed. -/
theorem removal_of_run {config : EngineConfig} {bs : List (Action Id)} {r'' : Registry Id}
    {id : Id} (hrun : (start config).run as = some r) (hmem : (id, slot) ∈ r.entries)
    (hstep : r.step a = some r') (hrest : r'.run bs = some r'') :
    ((id, slot) ∉ r'.entries → ∃ c, a = .call c ∧
      (r.calls[c]? = some (.cancelRemove id) ∧
          (r''.calls[c]? = some .cancelled → r''.IsClosed slot) ∨
        r.calls[c]? = some .shutdownBegin ∧
          (r''.calls[c]? = some .stopped → r''.IsClosed slot) ∨
        (∃ result, r.calls[c]? = some (.fetchRemove slot result) ∧ r.IsClosed slot) ∨
        ∃ lost, r.calls[c]? = some (.sweepRemove lost) ∧ slot ∈ lost ∧ r.IsClosed slot)) ∧
    (∀ c slot' result, a = .call c → r.calls[c]? = some (.fetchRemove slot' result) →
      slot' ≠ slot → (id, slot) ∈ r'.entries) ∧
    (∀ c lost, a = .call c → r.calls[c]? = some (.sweepRemove lost) → slot ∉ lost →
      (id, slot) ∈ r'.entries) ∧
    (slot ∉ r''.registered → (∀ stage ∈ r''.calls, stage.uses slot = false) →
      r''.IsClosed slot) := by
  have htidy := run_tidy hrun
  have hjustified := run_justifies hrun
  have hstep' := step_of_eq_some hstep
  have hstays {c : Nat} {stage : Stage Id} (ha : a = .call c) (hc : r.calls[c]? = some stage)
      (hnot : ¬ r.Removes (id, slot) stage) : (id, slot) ∈ r'.entries := by
    refine (hstep'.mem_entries_iff (id, slot)).mpr (.inl ⟨hmem, ?_⟩)
    rintro ⟨c', stage', ha', hc', hremoves⟩
    cases ha.symm.trans ha'
    cases Option.some.inj (hc.symm.trans hc')
    exact hnot hremoves
  refine ⟨?_, ?_, ?_, ?_⟩
  · intro hgone
    obtain ⟨c, stage, rfl, hc, hremoves, hsecured⟩ := hstep'.secured hjustified hmem hgone
    have hlater : r''.Secured c slot := run_invariant Secured.step hsecured hrest
    have hdone {stage : Stage Id} (huses : stage.uses slot = false)
        (hreturned : r''.calls[c]? = some stage) : r''.IsClosed slot := by
      refine hlater.isClosed ?_
      intro stage' hc'
      cases Option.some.inj (hreturned.symm.trans hc')
      exact huses
    have hstage := hjustified stage (List.mem_of_getElem? hc)
    refine ⟨c, rfl, ?_⟩
    cases stage with
    | cancelRemove id' =>
      cases htidy.eq_of_mem hmem (mem_entries_of_lookup? hremoves)
      exact .inl ⟨hc, hdone rfl⟩
    | shutdownBegin => exact .inr (.inl ⟨hc, hdone rfl⟩)
    | fetchRemove slot' result =>
      obtain rfl : slot = slot' := hremoves
      exact .inr (.inr (.inl ⟨result, hc, hstage.2⟩))
    | sweepRemove lost => exact .inr (.inr (.inr ⟨lost, hc, hremoves, hstage slot hremoves⟩))
    | _ => cases hremoves
  · intro c slot' result ha hc hne
    exact hstays ha hc hne.symm
  · intro c lost ha hc hnot
    exact hstays ha hc hnot
  · intro hout hfree
    have hkept : r''.Kept slot := by
      have hentry : r.Kept slot := .inl (mem_registered_iff.mpr ⟨id, hmem⟩)
      exact run_kept hrun hentry (run_cons_eq_some_iff.mpr ⟨r', hstep, hrest⟩)
    rcases hkept with hregistered | ⟨c, hsecured⟩
    · exact absurd hregistered hout
    · exact hsecured.isClosed fun stage hc => hfree stage (List.mem_of_getElem? hc)

/-- A task is cancelled while a fetch waits for it, and its name is given to another one. The
fetch finds the first task closed and is about to remove it. -/
def staleFetch : List (Action Nat) :=
  [.put 7 (.ofScript 5 []), .begin (.fetch 7 10), .call 0, .inner 0 (.call 0), .inner 0 (.call 0),
    .begin (.cancel 7), .call 1, .inner 0 (.call 1), .inner 0 (.call 1), .inner 0 (.call 1),
    .inner 0 (.call 1), .call 1, .put 7 (.ofScript 5 []),
    .inner 0 (.call 0), .inner 0 (.call 0), .inner 0 (.call 0), .call 0]

theorem removal_of_run_staleFetch :
    ∃ (r r' : Registry Nat) (result : FetchResult),
      (start .default).run staleFetch = some r ∧
      r.calls[0]? = some (.fetchRemove 0 result) ∧
      r.step (.call 0) = some r' ∧
      (7, 1) ∈ r'.entries := by
  have hrun : ∃ (r r' : Registry Nat) (result : FetchResult),
      (start .default).run staleFetch = some r ∧
      r.entries = [(7, 1)] ∧
      r.calls[0]? = some (.fetchRemove 0 result) ∧
      r.step (.call 0) = some r' :=
    ⟨_, _, _, rfl, rfl, rfl, rfl⟩
  obtain ⟨r, r', result, hrun, hentries, hc, hstep⟩ := hrun
  have hmem : (7, 1) ∈ r.entries := by
    rw [hentries]
    exact List.mem_singleton.mpr rfl
  have hrest : r'.run [] = some r' := rfl
  obtain ⟨-, hstale, -⟩ := removal_of_run hrun hmem hstep hrest
  exact ⟨r, r', result, hrun, hc, hstep, hstale 0 0 result rfl hc (by decide)⟩

end PagedQuery.Task.Registry
