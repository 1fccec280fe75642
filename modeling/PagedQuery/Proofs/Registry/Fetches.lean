import PagedQuery.Proofs.Registry.Run

/-!
# What a fetch has done

A fetch looks a task up, waits for the call that it makes on its holder, and
takes the task out of the map if that call says that the task is finished. What
it returns tells what has become of the task, whatever other calls did
meanwhile.

* `Registry.FetchStep`: the steps of a fetch;
* `Registry.Followed`: what becomes of a fetch that waits;
* `Registry.Undisturbed`: nothing is different but calls and logs;
* `Registry.fetch_result_of_run`: what is the case when a fetch returns.
-/

namespace PagedQuery.Task.Registry

variable {Id : Type}

/-- Whether a call is a fetch. -/
def Stage.isFetch : Stage Id → Bool
  | .fetchLookup .. => true
  | .fetchWait .. => true
  | .fetchRemove .. => true
  | .fetched _ => true
  | .abandoned => true
  | _ => false

/-- Whether a fetch has found its task before. -/
def Stage.hasFound : Stage Id → Bool
  | .fetchWait .. => true
  | .fetchRemove .. => true
  | .fetched (.error .notFound) => false
  | .fetched _ => true
  | _ => false

/-- The action is a step of the fetch with number `c`: one of its own, or one of the call on a
holder that it waits for. -/
def FetchStep (r : Registry Id) (c : Nat) (a : Action Id) : Prop :=
  a.mover? = some c ∨
    ∃ slot k b, r.calls[c]? = some (.fetchWait slot k) ∧ b.mover? = some k ∧ a = .inner slot b

/-- The map is the same, and the holders are but for their calls and logs. -/
structure Undisturbed (r r' : Registry Id) : Prop where
  entries : r'.entries = r.entries
  holders : ∀ k, Option.Rel Holder.Undisturbed (r.holder? k) (r'.holder? k)

variable [DecidableEq Id] {r r' q q' : Registry Id} {a : Action Id} {as : List (Action Id)}
  {c slot k : Nat} {stage stage' : Stage Id} {result : FetchResult}

/-- The fetch has waited for the call `k` on the holder of `slot`, at some time in the run. -/
def HasWaited (r : Registry Id) (as : List (Action Id)) (c slot k : Nat) : Prop :=
  ∃ q, r.Visits as q ∧ q.calls[c]? = some (.fetchWait slot k)

/-! ## Fetches stay fetches -/

theorem CallStep.exists_next (hcall : r.CallStep c stage r') (hc : r.calls[c]? = some stage) :
    ∃ next, r'.calls[c]? = some next ∧ next.isFetch = stage.isFetch := by
  have hat (next : Stage Id) : (r.calls.set c next)[c]? = some next :=
    Holder.getElem?_set_self_of_some hc
  cases hcall with
  | sweepRemove =>
    rw [foldl_removeCurrent]
    exact ⟨_, hat _, rfl⟩
  | _ => exact ⟨_, hat _, rfl⟩

/-- A fetch is one from its first step to its last, and nothing else becomes one. -/
theorem Step.exists_next (hstep : r.Step a r') (hc : r.calls[c]? = some stage) :
    ∃ next, r'.calls[c]? = some next ∧ next.isFetch = stage.isFetch := by
  by_cases hmover : a.mover? = some c
  · cases hstep with
    | call hc' hcall =>
      cases hmover
      cases Option.some.inj (hc.symm.trans hc')
      exact hcall.exists_next hc
    | abandonLookup hc' =>
      cases hmover
      cases Option.some.inj (hc.symm.trans hc')
      exact ⟨_, getElem?_goTo_self hc' _, rfl⟩
    | abandonWait hc' => exact ⟨stage, hc, rfl⟩
    | _ => cases hmover
  · exact ⟨stage, hstep.getElem?_calls_of_ne hmover hc, rfl⟩

theorem run_isFetch (hrun : q.run as = some r) (hc : q.calls[c]? = some stage)
    (hc' : r.calls[c]? = some stage') : stage.isFetch = stage'.isFetch := by
  have hkept : ∃ next, r.calls[c]? = some next ∧ next.isFetch = stage.isFetch := by
    refine run_invariant (P := fun r => ∃ next, r.calls[c]? = some next ∧
      next.isFetch = stage.isFetch) ?_ ⟨stage, hc, rfl⟩ hrun
    rintro r a r' ⟨next, hnext, hfetch⟩ hstep
    obtain ⟨next', hnext', hfetch'⟩ := hstep.exists_next hnext
    exact ⟨next', hnext', hfetch'.trans hfetch⟩
  obtain ⟨next, hnext, hfetch⟩ := hkept
  cases Option.some.inj (hc'.symm.trans hnext)
  exact hfetch.symm

/-! ## Waiting for a holder -/

/-- What has become of a fetch that waited for the call `k` on the holder of `slot`. -/
inductive Followed (r : Registry Id) (c slot k : Nat) : Prop where
  | waiting (hc : r.calls[c]? = some (.fetchWait slot k))
  | abandoned (hc : r.calls[c]? = some .abandoned)
  | removing {result : FetchResult} (hreply : r.innerReply? slot k = some (.fetched result))
      (hc : r.calls[c]? = some (.fetchRemove slot result))
  | returned {result : FetchResult} (hreply : r.innerReply? slot k = some (.fetched result))
      (hc : r.calls[c]? = some (.fetched result))
      (hgone : isFinal result = true → slot ∉ r.registered)

omit [DecidableEq Id] in
theorem lt_of_innerReply? {reply : Reply} (hreply : r.innerReply? slot k = some reply) :
    slot < r.slots.length := by
  obtain ⟨h, hslot, -⟩ := innerReply?_eq_some_iff.mp hreply
  exact lt_of_holder? hslot

theorem CallStep.followed (hcall : r.CallStep c stage r') (hc : r.calls[c]? = some stage)
    (hfollowed : r.Followed c slot k) : r'.Followed c slot k := by
  have hat (next : Stage Id) : (r.goTo c next).calls[c]? = some next :=
    getElem?_goTo_self hc next
  cases hfollowed with
  | waiting hwait =>
    cases Option.some.inj (hc.symm.trans hwait)
    cases hcall with
    | fetchFinal hreply hfinal => exact .removing hreply (hat _)
    | fetchReturn hreply hfinal =>
      refine .returned hreply (hat _) ?_
      intro hnot
      rw [hfinal] at hnot
      cases hnot
    | fetchAbandoned hreply => exact .abandoned (hat _)
  | abandoned hdone =>
    cases Option.some.inj (hc.symm.trans hdone)
    cases hcall
  | removing hreply hremove =>
    cases Option.some.inj (hc.symm.trans hremove)
    cases hcall with
    | fetchRemove =>
      refine .returned hreply (hat _) ?_
      intro _ hmem
      obtain ⟨id, hentry⟩ := mem_registered_iff.mp hmem
      simp [removeCurrent, goTo] at hentry
  | returned hreply hdone hgone =>
    cases Option.some.inj (hc.symm.trans hdone)
    cases hcall

theorem Followed.step (hfollowed : r.Followed c slot k) (hstep : r.Step a r') :
    r'.Followed c slot k := by
  by_cases hmover : a.mover? = some c
  · cases hstep with
    | call hc hcall =>
      cases hmover
      exact hcall.followed hc hfollowed
    | abandonLookup hc =>
      cases hmover
      exact .abandoned (getElem?_goTo_self hc _)
    | abandonWait hc hslot hinner =>
      -- the call on the holder is dropped, and the fetch waits for its end
      cases hmover
      cases hfollowed with
      | waiting hwait => exact .waiting hwait
      | abandoned hdone => cases hc.symm.trans hdone
      | removing hreply hremove => cases hc.symm.trans hremove
      | returned hreply hdone => cases hc.symm.trans hdone
    | _ => cases hmover
  · have hkept {stage : Stage Id} (hc : r.calls[c]? = some stage) : r'.calls[c]? = some stage :=
      hstep.getElem?_calls_of_ne hmover hc
    cases hfollowed with
    | waiting hc => exact .waiting (hkept hc)
    | abandoned hc => exact .abandoned (hkept hc)
    | removing hreply hc => exact .removing (hstep.motion.innerReply? hreply) (hkept hc)
    | returned hreply hc hgone =>
      refine .returned (hstep.motion.innerReply? hreply) (hkept hc) ?_
      intro hfinal
      exact hstep.not_mem_registered (lt_of_innerReply? hreply) (hgone hfinal)

/-- What a fetch returns is what the call on the holder returned. -/
theorem run_followed (hrun : q.run as = some r) (hwait : q.calls[c]? = some (.fetchWait slot k))
    (hc : r.calls[c]? = some (.fetched result)) :
    r.innerReply? slot k = some (.fetched result) ∧
      (isFinal result = true → slot ∉ r.registered) := by
  cases run_invariant Followed.step (.waiting hwait) hrun with
  | waiting hc' => cases hc.symm.trans hc'
  | abandoned hc' => cases hc.symm.trans hc'
  | removing hreply hc' => cases hc.symm.trans hc'
  | returned hreply hc' hgone =>
    cases Option.some.inj (hc.symm.trans hc')
    exact ⟨hreply, hgone⟩

/-- A fetch that finds its task waits for a call on a holder then. -/
theorem Step.hasFound_before (hstep : r.Step a r') (hc : r'.calls[c]? = some stage)
    (hfound : stage.hasFound = true) :
    (∃ stage, r.calls[c]? = some stage ∧ stage.hasFound = true) ∨
      ∃ slot k, r'.calls[c]? = some (.fetchWait slot k) := by
  by_cases hmover : a.mover? = some c
  · have hat {next : Stage Id} {stage' : Stage Id} (hc' : r.calls[c]? = some stage')
        (hset : (r.calls.set c next)[c]? = some stage) : next = stage := by
      rw [Holder.getElem?_set_self_of_some hc'] at hset
      exact Option.some.inj hset
    cases hstep with
    | call hc' hcall =>
      cases hmover
      cases hcall with
      | fetchFound hlookup hslot =>
        obtain rfl := hat hc' hc
        exact .inr ⟨_, _, hc⟩
      | fetchFinal hreply | fetchReturn hreply | fetchRemove => exact .inl ⟨_, hc', rfl⟩
      | sweepRemove =>
        rw [foldl_removeCurrent] at hc
        obtain rfl := hat hc' hc
        cases hfound
      | _ =>
        obtain rfl := hat hc' hc
        cases hfound
    | abandonLookup hc' =>
      cases hmover
      obtain rfl := hat hc' hc
      cases hfound
    | abandonWait hc' =>
      cases hmover
      exact .inl ⟨_, hc', rfl⟩
    | _ => cases hmover
  · rcases hstep.getElem?_calls_before hmover hc with hc | ⟨operation, rfl⟩
    · exact .inl ⟨stage, hc, hfound⟩
    · cases operation <;> cases hfound

/-- A fetch that has found its task has waited for a call on a holder. -/
theorem exists_hasWaited {config : EngineConfig} (hrun : (start config).run as = some r)
    (hc : r.calls[c]? = some stage) (hfound : stage.hasFound = true) :
    ∃ slot k, (start config).HasWaited as c slot k := by
  refine run_induction (P := fun as r => ∀ stage, r.calls[c]? = some stage →
    stage.hasFound = true → ∃ slot k, (start config).HasWaited as c slot k) ?_ ?_ hrun stage hc
    hfound
  · intro stage hc
    cases hc
  · intro as q a q' hq hstep ih stage hc hfound
    rcases (step_of_eq_some hstep).hasFound_before hc hfound with
      ⟨stage', hc', hfound'⟩ | ⟨slot, k, hwait⟩
    · obtain ⟨slot, k, q₀, hvisit, hwait⟩ := ih stage' hc' hfound'
      exact ⟨slot, k, q₀, hvisit.append [a], hwait⟩
    · exact ⟨slot, k, q', visits_last (run_concat_eq_some_iff.mpr ⟨q, hq, hstep⟩), hwait⟩

/-! ## The call on the holder -/

/-- What a call on a holder could not return, it does not return. -/
theorem mayReturn_of_reply {h : Holder} {s : Task.Stage} (hrun : q.run as = some r)
    (hslot : q.holder? slot = some h) (hk : h.calls[k]? = some s)
    (hreply : r.innerReply? slot k = some (.fetched result)) : s.MayReturn result := by
  apply Classical.byContradiction
  intro hnot
  have hkept : ∃ h s, r.holder? slot = some h ∧ h.calls[k]? = some s ∧ ¬ s.MayReturn result := by
    refine run_invariant (P := fun r => ∃ h s, r.holder? slot = some h ∧ h.calls[k]? = some s ∧
      ¬ s.MayReturn result) ?_ ⟨h, s, hslot, hk, hnot⟩ hrun
    rintro r a r' ⟨h, s, hslot, hk, hnot⟩ hstep
    obtain ⟨h', hslot', rfl | ⟨b, hinner, -⟩⟩ := hstep.motion.after hslot
    · exact ⟨h', s, hslot', hk, hnot⟩
    · obtain ⟨s', hk'⟩ := hinner.exists_call hk
      exact ⟨h', s', hslot', hk', fun hreturn => hnot (hinner.mayReturn hk hk' hreturn)⟩
  obtain ⟨h', s', hslot', hk', hno⟩ := hkept
  obtain ⟨h'', hslot'', hk''⟩ := innerReply?_eq_some_iff.mp hreply
  cases Option.some.inj (hslot'.symm.trans hslot'')
  cases Option.some.inj (hk'.symm.trans hk'')
  exact hno rfl

/-- The step of the run by which the call `k` on the holder of `slot` accepts the batch, and
stores the source of the next one. -/
def Accepts (r : Registry Id) (as : List (Action Id)) (slot k : Nat) (batch : Batch) : Prop :=
  ∃ q q' h h' e source,
    r.Passes as q (.inner slot (.call k)) q' ∧
    q.holder? slot = some h ∧ h.calls[k]? = some (.fetchFinish batch (some source)) ∧
    q'.holder? slot = some h' ∧ h'.lifecycle = .executed e ∧ e.source = some source

theorem Accepts.concat {batch : Batch} (haccepts : r.Accepts as slot k batch) (a : Action Id) :
    r.Accepts (as ++ [a]) slot k batch := by
  obtain ⟨q, q', h, h', e, source, hpass, hrest⟩ := haccepts
  exact ⟨q, q', h, h', e, source, passes_concat_iff.mpr (.inl hpass), hrest⟩

/-- A call on a holder that has a batch with more to come has accepted it in a step of the run. -/
theorem exists_accepts {config : EngineConfig} {h : Holder} {s : Task.Stage} {batch : Batch}
    (hrun : (start config).run as = some r) (hslot : r.holder? slot = some h)
    (hk : h.calls[k]? = some s) (haccepted : s.HasAccepted batch) (hnext : batch.hasNext = true) :
    (start config).Accepts as slot k batch := by
  refine run_induction (P := fun as r => ∀ h s, r.holder? slot = some h → h.calls[k]? = some s →
    s.HasAccepted batch → (start config).Accepts as slot k batch) ?_ ?_ hrun h s hslot hk haccepted
  · intro h s hslot
    cases hslot
  · intro as q a q' hq hstep ih h' s' hslot' hk' haccepted'
    rcases (step_of_eq_some hstep).motion.before hslot' with
      ⟨-, -, factory, idleTimeout, rfl⟩ | ⟨h, hslot, rfl | ⟨b, hinner, hcause⟩⟩
    · cases hk'
    · exact (ih h' s' hslot hk' haccepted').concat a
    · have hcoherent := (run_honest hq slot h hslot).coherent
      rcases hinner.accepts hcoherent hk' haccepted' hnext with
        ⟨s, hk, haccepted⟩ | ⟨rfl, source, e, hk, hlife, hsource⟩
      · exact (ih h s hslot hk haccepted).concat a
      · cases hcause rfl
        exact ⟨q, q', h, h', e, source, passes_concat_iff.mpr (.inr ⟨rfl, hq, hstep⟩), hslot, hk,
          hslot', hlife, hsource⟩

/-! ## Steps that change nothing -/

theorem optionRel_refl (h? : Option Holder) : Option.Rel Holder.Undisturbed h? h? := by
  cases h? with
  | none => exact .none
  | some h => exact .some h.undisturbed_refl

omit [DecidableEq Id] in
theorem undisturbed_of_same (hentries : r'.entries = r.entries)
    (hholders : ∀ k, r'.holder? k = r.holder? k) : r.Undisturbed r' := by
  refine ⟨hentries, ?_⟩
  intro k
  rw [hholders]
  exact optionRel_refl (r.holder? k)

omit [DecidableEq Id] in
theorem undisturbed_of_setHolder {h h' : Holder} (hslot : r.holder? slot = some h)
    (hundisturbed : h.Undisturbed h') (hentries : r'.entries = r.entries)
    (hslots : r'.slots = (r.setHolder slot h').slots) : r.Undisturbed r' := by
  have hholders (k : Nat) : r'.holder? k = (r.setHolder slot h').holder? k := by
    rw [holder?, hslots, holder?]
  refine ⟨hentries, ?_⟩
  intro k
  rw [hholders]
  by_cases heq : slot = k
  · subst heq
    rw [hslot, holder?_setHolder hslot]
    exact .some hundisturbed
  · rw [holder?_setHolder_of_ne heq]
    exact optionRel_refl (r.holder? k)

omit [DecidableEq Id] in
theorem Undisturbed.isClosed (hundisturbed : r.Undisturbed r') (hclosed : r'.IsClosed slot) :
    r.IsClosed slot := by
  obtain ⟨h', hslot', hstate⟩ := hclosed
  have hsame := hundisturbed.holders slot
  rw [hslot'] at hsame
  cases hslot : r.holder? slot with
  | none =>
    rw [hslot] at hsame
    cases hsame
  | some h =>
    rw [hslot] at hsame
    cases hsame with
    | some hrest =>
      have hlife : h'.lifecycle = h.lifecycle := by
        rw [hrest]
      exact ⟨h, hslot, hlife ▸ hstate⟩

/-- The own steps of a fetch change nothing, unless it takes its task out of the map. -/
theorem CallStep.undisturbed (hcall : r.CallStep c stage r') (hfetch : stage.isFetch = true)
    (hnot : ∀ slot result, stage ≠ .fetchRemove slot result) : r.Undisturbed r' := by
  cases hcall with
  | fetchMissing | fetchFinal | fetchReturn | fetchAbandoned =>
    exact undisturbed_of_same rfl fun _ => rfl
  | fetchFound hlookup hslot =>
    exact undisturbed_of_setHolder hslot (Holder.undisturbed_begin _ _) rfl rfl
  | fetchRemove => exact absurd rfl (hnot _ _)
  | _ => cases hfetch

/-- A fetch takes its finished task out of the map, or the call on the holder goes on; any other
step of the fetch changes nothing. -/
theorem FetchStep.cases (hfetch : r.FetchStep c a) (hstep : r.Step a r')
    (hc : r.calls[c]? = some stage) (hs : stage.isFetch = true) :
    r.Undisturbed r' ∨
      (∃ slot result, stage = .fetchRemove slot result ∧
        r' = (r.removeCurrent slot).goTo c (.fetched result)) ∨
      ∃ slot k b h h', stage = .fetchWait slot k ∧ b.mover? = some k ∧
        r.holder? slot = some h ∧ h.Step r.clock b h' ∧ r' = r.setHolder slot h' := by
  rcases hfetch with hmover | ⟨slot, k, b, hwait, hmover, rfl⟩
  · cases hstep with
    | call hc' hcall =>
      cases hmover
      cases Option.some.inj (hc.symm.trans hc')
      by_cases hremove : ∃ slot result, stage = .fetchRemove slot result
      · obtain ⟨slot, result, rfl⟩ := hremove
        cases hcall
        exact .inr (.inl ⟨slot, result, rfl, rfl⟩)
      · refine .inl (hcall.undisturbed hs ?_)
        intro slot result heq
        exact hremove ⟨slot, result, heq⟩
    | abandonLookup hc' => exact .inl (undisturbed_of_same rfl fun _ => rfl)
    | abandonWait hc' hslot hinner =>
      refine .inl (undisturbed_of_setHolder hslot ?_ rfl rfl)
      cases Holder.step_of_eq_some hinner <;> rfl
    | _ => cases hmover
  · cases Option.some.inj (hc.symm.trans hwait)
    cases hstep with
    | inner hs' hallowed hinner =>
      exact .inr (.inr ⟨slot, k, b, _, _, rfl, hmover, holder?_eq_some_iff.mpr ⟨_, hs', rfl⟩,
        Holder.step_of_eq_some hinner, rfl⟩)

theorem FetchStep.exists_call (hfetch : r.FetchStep c a) (hstep : r.Step a r') :
    ∃ stage, r.calls[c]? = some stage := by
  rcases hfetch with hmover | ⟨slot, k, b, hwait, -⟩
  · cases hstep with
    | call hc | abandonLookup hc | abandonWait hc =>
      cases hmover
      exact ⟨_, hc⟩
    | _ => cases hmover
  · exact ⟨_, hwait⟩

/-- A result stays. -/
theorem run_fetched (hrun : q.run as = some r) (hc : q.calls[c]? = some (.fetched result)) :
    r.calls[c]? = some (.fetched result) := by
  refine run_invariant (P := fun r => r.calls[c]? = some (.fetched result)) ?_ hc hrun
  intro r a r' hc hstep
  by_cases hmover : a.mover? = some c
  · cases hstep with
    | call hc' hcall =>
      cases hmover
      cases Option.some.inj (hc.symm.trans hc')
      cases hcall
    | abandonLookup hc' | abandonWait hc' =>
      cases hmover
      cases hc.symm.trans hc'
    | _ => cases hmover
  · exact hstep.getElem?_calls_of_ne hmover hc

/-! ## Results -/

section

variable {config : EngineConfig} (hrun : (start config).run as = some r)
  (hc : r.calls[c]? = some (.fetched result)) (hpass : (start config).Passes as q a q')
  (hfetch : q.FetchStep c a)
include hrun hc hpass hfetch

/-- A fetch that returns what no fetch with the fetch lock returns has changed nothing. -/
theorem Passes.undisturbed (hnot : isAnswer result = false) : q.Undisturbed q' := by
  obtain ⟨before, after, hbefore, hstep, hafter⟩ := hpass.split hrun
  have hrest : q.run (a :: after) = some r := run_cons_eq_some_iff.mpr ⟨q', hstep, hafter⟩
  obtain ⟨stage, hstage⟩ := hfetch.exists_call (step_of_eq_some hstep)
  have hs : stage.isFetch = true := run_isFetch hrest hstage hc
  rcases hfetch.cases (step_of_eq_some hstep) hstage hs with
    hundisturbed | ⟨slot, found, rfl, rfl⟩ | ⟨slot, k, b, h, h', rfl, hmover, hslot, hinner, rfl⟩
  · exact hundisturbed
  · obtain ⟨hfinal, -⟩ := run_justifies hbefore _ (List.mem_of_getElem? hstage)
    have hfound := run_fetched hafter (getElem?_goTo_self hstage _)
    cases Option.some.inj (hc.symm.trans hfound)
    rw [isAnswer_of_isFinal hfinal] at hnot
    cases hnot
  · obtain ⟨hreply, -⟩ := run_followed hrest hstage hc
    obtain ⟨_, s', -, hk', -⟩ := hinner.getElem?_calls_of_mover hmover
    have hreturn := mayReturn_of_reply hafter (holder?_setHolder hslot h') hk' hreply
    have hcoherent := (run_honest hbefore slot h hslot).coherent
    exact undisturbed_of_setHolder hslot (hinner.refused hcoherent hmover hk' hnot hreturn) rfl rfl

/-- A fetch that says that there is more has closed nothing. -/
theorem Passes.stays_open {batch : Batch} (hresult : result = .ok batch)
    (hnext : batch.hasNext = true) {x : Nat} (hclosed : q'.IsClosed x) : q.IsClosed x := by
  obtain ⟨before, after, hbefore, hstep, hafter⟩ := hpass.split hrun
  have hrest : q.run (a :: after) = some r := run_cons_eq_some_iff.mpr ⟨q', hstep, hafter⟩
  obtain ⟨stage, hstage⟩ := hfetch.exists_call (step_of_eq_some hstep)
  have hs : stage.isFetch = true := run_isFetch hrest hstage hc
  rcases hfetch.cases (step_of_eq_some hstep) hstage hs with
    hundisturbed | ⟨slot, found, rfl, rfl⟩ | ⟨slot, k, b, h, h', rfl, hmover, hslot, hinner, rfl⟩
  · exact hundisturbed.isClosed hclosed
  · exact hclosed
  · obtain ⟨hreply, -⟩ := run_followed hrest hstage hc
    obtain ⟨_, s', -, hk', -⟩ := hinner.getElem?_calls_of_mover hmover
    have hreturn := mayReturn_of_reply hafter (holder?_setHolder hslot h') hk' hreply
    rw [hresult] at hreturn
    have hcoherent := (run_honest hbefore slot h hslot).coherent
    obtain ⟨h'', hx, hstate⟩ := hclosed
    by_cases heq : slot = x
    · subst heq
      rw [holder?_setHolder hslot] at hx
      cases hx
      exact ⟨h, hslot, hinner.open_of_mayReturn hcoherent hmover hk' hreturn hnext hstate⟩
    · rw [holder?_setHolder_of_ne heq] at hx
      exact ⟨h'', hx, hstate⟩

end

omit [DecidableEq Id] in
/-- Whoever finds an aborted batch job finds the holder closed. -/
theorem Honest.closed_of_aborted (hhonest : r.Honest) {h : Holder} {j deadline : Nat}
    (hslot : r.holder? slot = some h) (hk : h.calls[k]? = some (.fetchWait j deadline))
    (hjob : h.jobs[j]? = some .aborted) : h.lifecycle = .closed :=
  Lifecycle.state_eq_closed_iff.mp ((hhonest slot h hslot).closed_of_aborted hk hjob)

/-- What a fetch returns, in every run and whatever other calls do. After a result that ends the
task, the holder that the fetch waited for is closed and out of the map. After a batch that says
that there is more, the fetch has stored the source of the next one when it accepted the batch,
and has closed nothing. A fetch that was refused, or did not find its task, has changed nothing.
And an aborted batch job is found only after the close. -/
theorem fetch_result_of_run {config : EngineConfig} (hrun : (start config).run as = some r) :
    (∀ c result, r.calls[c]? = some (.fetched result) →
      (isFinal result = true →
        (∃ slot k, (start config).HasWaited as c slot k) ∧
          ∀ slot k, (start config).HasWaited as c slot k →
            r.IsClosed slot ∧ slot ∉ r.registered) ∧
      (∀ batch, result = .ok batch → batch.hasNext = true →
        (∃ slot k, (start config).HasWaited as c slot k) ∧
          (∀ slot k, (start config).HasWaited as c slot k →
            (start config).Accepts as slot k batch) ∧
          ∀ q a q', (start config).Passes as q a q' → q.FetchStep c a →
            ∀ slot, q'.IsClosed slot → q.IsClosed slot) ∧
      (result = .error .fetchInProgress ∨ result = .error .notFound →
        ∀ q a q', (start config).Passes as q a q' → q.FetchStep c a → q.Undisturbed q')) ∧
    ∀ (slot k j deadline : Nat) (h : Holder), r.holder? slot = some h →
      h.calls[k]? = some (.fetchWait j deadline) → h.jobs[j]? = some .aborted →
      h.lifecycle = .closed := by
  have hhonest := run_honest hrun
  refine ⟨?_, fun slot k j deadline h => hhonest.closed_of_aborted⟩
  intro c result hc
  -- the reply of the call that the fetch waited for
  have hreply {slot k : Nat} (hwaited : (start config).HasWaited as c slot k) :
      r.innerReply? slot k = some (.fetched result) ∧
        (isFinal result = true → slot ∉ r.registered) := by
    obtain ⟨q, hvisit, hwait⟩ := hwaited
    obtain ⟨before, after, -, hafter⟩ := hvisit.split hrun
    exact run_followed hafter hwait hc
  refine ⟨?_, ?_, ?_⟩
  · intro hfinal
    constructor
    · apply exists_hasWaited hrun hc
      cases result with
      | ok batch => rfl
      | error error => cases error <;> first | rfl | cases hfinal
    · intro slot k hwaited
      obtain ⟨hsame, hgone⟩ := hreply hwaited
      exact ⟨hhonest.isClosed_of_reply hsame hfinal, hgone hfinal⟩
  · rintro batch rfl hnext
    refine ⟨exists_hasWaited hrun hc rfl, ?_, ?_⟩
    · intro slot k hwaited
      obtain ⟨h, hslot, hk⟩ := innerReply?_eq_some_iff.mp (hreply hwaited).1
      exact exists_accepts hrun hslot hk rfl hnext
    · intro q a q' hpass hfetch slot
      exact hpass.stays_open hrun hc hfetch rfl hnext
  · intro hrefused q a q' hpass hfetch
    apply hpass.undisturbed hrun hc hfetch
    rcases hrefused with rfl | rfl <;> rfl

/-- A task of one row, whose only fetch but one comes too early. -/
def earlyFetch : List (Action Nat) :=
  [.put 7 (.ofScript 5 [{ ScriptedRun.empty with rows := 1 }]),
    .begin (.fetch 7 10), .call 0, .inner 0 (.call 0),
    .begin (.fetch 7 10), .call 1, .inner 0 (.call 1), .call 1,
    .inner 0 (.call 0), .inner 0 (.worker 0), .inner 0 (.worker 0), .inner 0 (.worker 0),
    .inner 0 (.worker 0), .inner 0 (.job 0), .inner 0 (.job 0), .inner 0 (.job 0),
    .inner 0 (.call 0), .inner 0 (.call 0), .inner 0 (.call 0), .inner 0 (.call 0),
    .inner 0 (.call 0), .inner 0 (.call 0), .inner 0 (.call 0), .call 0, .call 0]

theorem fetch_result_of_run_earlyFetch :
    ∃ (r : Registry Nat) (batch : Batch),
      (start .default).run earlyFetch = some r ∧
      r.calls[0]? = some (.fetched (.ok batch)) ∧
      r.calls[1]? = some (.fetched (.error .fetchInProgress)) ∧
      batch.hasNext = false ∧
      ∃ slot, r.IsClosed slot ∧ slot ∉ r.registered := by
  have hrun : ∃ (r : Registry Nat) (batch : Batch),
      (start .default).run earlyFetch = some r ∧
      r.calls[0]? = some (.fetched (.ok batch)) ∧
      r.calls[1]? = some (.fetched (.error .fetchInProgress)) ∧
      batch.hasNext = false :=
    ⟨_, _, rfl, rfl, rfl, rfl⟩
  obtain ⟨r, batch, hrun, hfirst, hsecond, hlast⟩ := hrun
  have hfinal : isFinal (.ok batch) = true := by
    show (!batch.hasNext) = true
    rw [hlast]
    rfl
  obtain ⟨hresults, -⟩ := fetch_result_of_run hrun
  obtain ⟨⟨slot, k, hwaited⟩, hgone⟩ := (hresults 0 (.ok batch) hfirst).1 hfinal
  exact ⟨r, batch, hrun, hfirst, hsecond, hlast, slot, hgone slot k hwaited⟩

end PagedQuery.Task.Registry
