import PagedQuery.Proofs.Registry.Separation

/-!
# No task affects another

What a registry does for one name is decided by the steps about that name and
their times: they are a run of a registry that has nothing else in it. So two
runs with the same steps about a name, whatever else goes on in them, give the
name the same answers.

* `Registry.stepsOn`: the steps of a run that are about a name, with their times;
* `Registry.replay`, `Registry.replay_stepsOn`: these steps alone make the part of the name;
* `Registry.answers`, `Registry.answers_of_stepsOn`: two runs with the same steps about a name.
-/

namespace PagedQuery.Task.Registry

variable {Id : Type} [DecidableEq Id] {id : Id} {r r' q : Registry Id} {a : Action Id}
  {as bs : List (Action Id)} {operations : List (Operation Id)}

/-! ## Steps about a name -/

/-- The operations that calls are begun for. -/
def begun (as : List (Action Id)) : List (Operation Id) :=
  as.filterMap Action.operation?

/-- The steps of a run that are about a name, each with its time. Holders and calls have the
numbers there that they have among those of the name. -/
def stepsOn (id : Id) (operations : List (Operation Id)) (r : Registry Id) :
    List (Action Id) → List (Nat × Action Id)
  | [] => []
  | a :: as =>
    match r.step a with
    | none => []
    | some r' =>
      ((ownAction? id operations r a).map fun b => (r.clock, b)).toList ++
        stepsOn id (operations ++ a.operation?.toList) r' as

/-- The registry at another time. -/
def atTime (q : Registry Id) (now : Nat) : Registry Id :=
  { q with clock := now }

/-- The state after a list of steps, each at its time. -/
def replay (q : Registry Id) : List (Nat × Action Id) → Option (Registry Id)
  | [] => some q
  | (now, b) :: steps => ((q.atTime now).step b).bind fun q' => q'.settle.replay steps

theorem stepsOn_cons (hfirst : r.step a = some r') (as : List (Action Id)) :
    stepsOn id operations r (a :: as) =
      ((ownAction? id operations r a).map fun b => (r.clock, b)).toList ++
        stepsOn id (operations ++ a.operation?.toList) r' as := by
  rw [stepsOn, hfirst]

omit [DecidableEq Id] in
theorem begun_cons (a : Action Id) (as : List (Action Id)) :
    begun (a :: as) = a.operation?.toList ++ begun as := by
  rw [begun, List.filterMap_cons]
  cases a.operation? <;> rfl

/-- In every run, calls work on holders of their own names. -/
theorem Placed.run (hplaced : Placed operations r) (hrun : r.run as = some r') :
    Placed (operations ++ begun as) r' := by
  induction as generalizing operations r with
  | nil =>
    cases hrun
    rwa [begun, List.filterMap_nil, List.append_nil]
  | cons a as ih =>
    obtain ⟨r₁, hfirst, hrest⟩ := run_cons_eq_some_iff.mp hrun
    rw [begun_cons, ← List.append_assoc]
    exact ih (hplaced.step (step_of_eq_some hfirst)) hrest

theorem replay_cons {now : Nat} {b : Action Id} {steps : List (Nat × Action Id)}
    {q' : Registry Id} (hstep : (q.atTime now).step b = some q') :
    q.replay ((now, b) :: steps) = q'.settle.replay steps := by
  rw [replay, hstep, Option.bind_some]

/-- The steps about a name, and nothing else, lead to the part of the registry that belongs to
the name. -/
theorem replay_stepsOn (hplaced : Placed operations r) (hrun : r.run as = some r') (now : Nat) :
    ∃ now', ((view id operations r).atTime now).replay (stepsOn id operations r as) =
      some ((view id (operations ++ begun as) r').atTime now') := by
  induction as generalizing operations r now with
  | nil =>
    cases hrun
    refine ⟨now, ?_⟩
    rw [begun, List.filterMap_nil, List.append_nil]
    rfl
  | cons a as ih =>
    obtain ⟨r₁, hfirst, hrest⟩ := run_cons_eq_some_iff.mp hrun
    have hstep := step_of_eq_some hfirst
    have hplaced' := hplaced.step hstep
    rw [begun_cons, ← List.append_assoc, stepsOn_cons hfirst]
    cases hown : ownAction? id operations r a with
    | none =>
      have hsame := hstep.view_of_other hplaced hown
      obtain ⟨now', hreplay⟩ := ih hplaced' hrest now
      refine ⟨now', ?_⟩
      rw [← hreplay, ← hsame]
      rfl
    | some b =>
      obtain ⟨q, hmirror, hq⟩ := hstep.view_of_own hplaced hown
      obtain ⟨now', hreplay⟩ := ih hplaced' hrest r₁.clock
      refine ⟨now', ?_⟩
      have hnow : (((view id operations r).atTime now).atTime r.clock).step b = some q :=
        hmirror.eq_some
      rw [← hreplay, Option.map_some, Option.toList_some, List.singleton_append,
        replay_cons hnow, hq]
      rfl

/-- An action begins a call about a name if it does so as an action of the name. -/
theorem filter_operation?_toList (a : Action Id) :
    a.operation?.toList.filter (Operation.concerns id) =
      ((ownAction? id operations r a).bind Action.operation?).toList := by
  have hslot (slot : Nat) {f : Nat → Action Id} (hf : ∀ k, (f k).operation? = none) :
      (((ownSlot? id r slot).map f).bind Action.operation?).toList = [] := by
    cases ownSlot? id r slot with
    | none => rfl
    | some k => simp [hf]
  have hcall (c : Nat) {f : Nat → Action Id} (hf : ∀ k, (f k).operation? = none) :
      (((ownCall? id operations r c).map f).bind Action.operation?).toList = [] := by
    cases ownCall? id operations r c with
    | none => rfl
    | some k => simp [hf]
  cases a with
  | tick ms => rfl
  | put id' factory =>
    rw [ownAction?]
    split <;> rfl
  | own id' factory idleTimeout =>
    rw [ownAction?]
    split <;> rfl
  | disown slot => exact (hslot slot fun _ => rfl).symm
  | ask slot operation => exact (hslot slot fun _ => rfl).symm
  | begin operation =>
    rw [ownAction?, Action.operation?, Option.toList_some]
    cases hconcerns : operation.concerns id <;> simp [hconcerns, Action.operation?]
  | call c => exact (hcall c fun _ => rfl).symm
  | abandon c => exact (hcall c fun _ => rfl).symm
  | inner slot action => exact (hslot slot fun _ => rfl).symm
  | reap => rfl
  | drop slot => exact (hslot slot fun _ => rfl).symm

/-- The calls about a name were begun in the steps about the name. -/
theorem filter_begun (hrun : r.run as = some r') :
    (begun as).filter (Operation.concerns id) =
      begun ((stepsOn id operations r as).map Prod.snd) := by
  induction as generalizing operations r with
  | nil => rfl
  | cons a as ih =>
    obtain ⟨r₁, hfirst, hrest⟩ := run_cons_eq_some_iff.mp hrun
    rw [begun_cons, List.filter_append, ih hrest, filter_operation?_toList, stepsOn_cons hfirst]
    cases ownAction? id operations r a with
    | none => rfl
    | some b => exact (begun_cons b _).symm

/-! ## Answers -/

/-- What a call returns. What a sweep or a shutdown says about all names together is left out. -/
inductive Answer where
  | fetched (result : FetchResult)
  | abandoned
  | cancelled
  | swept
  | stopped
  | status (found : Option (Binary64 × TaskState))

def Stage.answer? : Stage Id → Option Answer
  | .fetched result => some (.fetched result)
  | .abandoned => some .abandoned
  | .cancelled => some .cancelled
  | .swept _ => some .swept
  | .stopped => some .stopped
  | .status found => some (.status found)
  | _ => none

theorem Stage.answer?_restrict (stage : Stage Id) (names : List Id) :
    (stage.restrict id names).answer? = stage.answer? := by
  cases stage with
  | sweepWait slot k left lost =>
    rw [restrict]
    split <;> rfl
  | shutdownWait slot k left =>
    rw [restrict]
    split <;> rfl
  | _ => rfl

/-- The calls about a name in the order in which they were begun, and their answers so far. -/
def answers (id : Id) (operations : List (Operation Id)) (r : Registry Id) :
    List (Operation Id × Option Answer) :=
  ((operations.zip r.calls).filter fun c => c.1.concerns id).map fun c => (c.1, c.2.answer?)

theorem map_fst_answers (hlength : operations.length = r.calls.length) :
    (answers id operations r).map Prod.fst = operations.filter (Operation.concerns id) := by
  have hmap : (operations.zip r.calls).map Prod.fst = operations :=
    List.map_fst_zip (Nat.le_of_eq hlength)
  rw [answers, List.map_map]
  conv => rhs; rw [← hmap, List.filter_map]
  rfl

theorem map_snd_answers :
    (answers id operations r).map Prod.snd = (view id operations r).calls.map Stage.answer? := by
  rw [answers, view, List.map_map, List.map_map]
  apply List.map_congr_left
  intro call _
  exact (Stage.answer?_restrict call.2 r.names).symm

/-! ## Two runs -/

theorem eq_of_map_eq_map {α β : Type} {xs ys : List (α × β)}
    (hfst : xs.map Prod.fst = ys.map Prod.fst) (hsnd : xs.map Prod.snd = ys.map Prod.snd) :
    xs = ys := by
  rw [← List.zip_unzip xs, ← List.zip_unzip ys, List.unzip_eq_map, List.unzip_eq_map, hfst, hsnd]

theorem current_view (hnamed : r.Named) (operations : List (Operation Id)) :
    ((view id operations r).lookup? id).bind (view id operations r).holder? =
      (r.lookup? id).bind r.holder? := by
  rw [lookup?_view]
  cases hlookup : r.lookup? id with
  | none => rfl
  | some slot => exact holder?_view (named_of_lookup? hnamed hlookup)

theorem put_isOk (factory : Factory) : (r.put id factory).isOk = (r.lookup? id).isNone := by
  simp only [put, step]
  cases r.lookup? id <;> rfl

theorem isNone_lookup?_view (r : Registry Id) (operations : List (Operation Id)) :
    ((view id operations r).lookup? id).isNone = (r.lookup? id).isNone := by
  rw [lookup?_view, Option.isNone_map]

/-- In two runs with the same steps about a name at the same times, the calls about the name
are the same and have the same answers; the holders that were made under the name, current or
not, are in the same state, and the name can be registered in both or in none. -/
theorem answers_of_stepsOn {config : EngineConfig} (hr : (start config).run as = some r)
    (hq : (start config).run bs = some q)
    (hsame : stepsOn id [] (start config) as = stepsOn id [] (start config) bs) :
    answers id (begun as) r = answers id (begun bs) q ∧
      (r.slots.filter fun s => s.id = id) = (q.slots.filter fun s => s.id = id) ∧
      (r.lookup? id).bind r.holder? = (q.lookup? id).bind q.holder? ∧
      ∀ factory, (r.put id factory).isOk = (q.put id factory).isOk := by
  have hplaced : Placed (begun as) r := (Placed.start config).run hr
  have hplaced' : Placed (begun bs) q := (Placed.start config).run hq
  obtain ⟨now, hfirst⟩ := replay_stepsOn (.start config) hr 0
  obtain ⟨now', hsecond⟩ := replay_stepsOn (.start config) hq 0
  have hview : (view id (begun as) r).atTime now = (view id (begun bs) q).atTime now' := by
    rw [hsame] at hfirst
    exact Option.some.inj (hfirst.symm.trans hsecond)
  refine ⟨?_, ?_, ?_, ?_⟩
  · apply eq_of_map_eq_map
    · rw [map_fst_answers hplaced.length_eq, map_fst_answers hplaced'.length_eq,
        filter_begun hr, filter_begun hq, hsame]
    · rw [map_snd_answers, map_snd_answers]
      exact congrArg (fun r => r.calls.map Stage.answer?) hview
  · exact congrArg Registry.slots hview
  · rw [← current_view hplaced.named (begun as), ← current_view hplaced'.named (begun bs)]
    exact congrArg (fun r => (r.lookup? id).bind r.holder?) hview
  · intro factory
    rw [put_isOk, put_isOk, ← isNone_lookup?_view r (begun as), ← isNone_lookup?_view q (begun bs)]
    exact congrArg (fun r => (r.lookup? id).isNone) hview

/-- A task of one row, which is fetched while a sweep goes on. -/
def sweptFetch : List (Action Nat) :=
  [.put 7 (.ofScript 5 [{ ScriptedRun.empty with rows := 1 }]), .tick 2,
    .begin (.fetch 7 10), .call 0, .inner 0 (.call 0),
    .begin .sweep, .call 1, .call 1, .inner 0 (.call 1), .inner 0 (.call 1), .call 1,
    .call 1, .call 1,
    .inner 0 (.call 0), .inner 0 (.worker 0), .inner 0 (.worker 0), .inner 0 (.worker 0),
    .inner 0 (.worker 0), .inner 0 (.job 0), .inner 0 (.job 0), .inner 0 (.job 0),
    .inner 0 (.call 0), .inner 0 (.call 0), .inner 0 (.call 0), .inner 0 (.call 0),
    .inner 0 (.call 0), .inner 0 (.call 0), .inner 0 (.call 0), .call 0, .call 0]

/-- The steps about the task. -/
def sweptSteps : List (Nat × Action Nat) :=
  (0, .put 7 (.ofScript 5 [{ ScriptedRun.empty with rows := 1 }])) ::
    (sweptFetch.drop 2).map fun a => (2, a)

/-- The same task beside another, which is cancelled before its first row. -/
def crowdedFetch : List (Action Nat) :=
  [.put 8 (.ofScript 5 []), .begin (.fetch 8 10),
    .put 7 (.ofScript 5 [{ ScriptedRun.empty with rows := 1 }]), .tick 1, .call 0, .tick 1,
    .begin (.fetch 7 10), .call 1, .inner 1 (.call 0),
    .begin .sweep, .call 2,
    .call 2, .inner 0 (.call 1), .inner 0 (.call 1), .inner 0 (.call 1), .call 2,
    .call 2, .inner 1 (.call 1), .inner 1 (.call 1), .begin (.cancel 8), .call 3, .call 2,
    .call 2, .call 2,
    .inner 1 (.call 0), .inner 1 (.worker 0), .inner 1 (.worker 0), .inner 1 (.worker 0),
    .inner 1 (.worker 0), .inner 1 (.job 0), .inner 1 (.job 0), .inner 1 (.job 0),
    .inner 1 (.call 0), .inner 1 (.call 0), .inner 1 (.call 0), .inner 1 (.call 0),
    .inner 1 (.call 0), .inner 1 (.call 0), .inner 1 (.call 0), .call 1, .call 1]

theorem answers_of_stepsOn_crowdedFetch :
    ∃ (r q : Registry Nat) (batch : Batch),
      (start .default).run crowdedFetch = some r ∧ (start .default).run sweptFetch = some q ∧
      stepsOn 7 [] (start .default) crowdedFetch = stepsOn 7 [] (start .default) sweptFetch ∧
      answers 7 (begun sweptFetch) q =
        [(.fetch 7 10, some (.fetched (.ok batch))), (.sweep, some .swept)] ∧
      answers 7 (begun crowdedFetch) r =
        [(.fetch 7 10, some (.fetched (.ok batch))), (.sweep, some .swept)] := by
  have hsame : stepsOn 7 [] (start .default) crowdedFetch =
      stepsOn 7 [] (start .default) sweptFetch := by
    have hcrowded : stepsOn 7 [] (start .default) crowdedFetch = sweptSteps := rfl
    have halone : stepsOn 7 [] (start .default) sweptFetch = sweptSteps := rfl
    exact hcrowded.trans halone.symm
  have hcrowded : ∃ r : Registry Nat, (start .default).run crowdedFetch = some r := ⟨_, rfl⟩
  have halone : ∃ (q : Registry Nat) (batch : Batch),
      (start .default).run sweptFetch = some q ∧
      answers 7 (begun sweptFetch) q =
        [(.fetch 7 10, some (.fetched (.ok batch))), (.sweep, some .swept)] :=
    ⟨_, _, rfl, rfl⟩
  obtain ⟨r, hcrowded⟩ := hcrowded
  obtain ⟨q, batch, hswept, halone⟩ := halone
  obtain ⟨hanswers, -⟩ := answers_of_stepsOn hcrowded hswept hsame
  exact ⟨r, q, batch, hcrowded, hswept, hsame, halone, hanswers.trans halone⟩

end PagedQuery.Task.Registry
