import Provision.Proofs.Plan.DependencyOrder
import Provision.Proofs.Request

/-!
# Steps at once and steps in turn

A run may apply several steps of a plan at once, and their calls may reach the store in any
order.  It still comes to what a run comes to that takes the steps in turn (`Refines`).

Both runs are taken apart into what the steps do by themselves (`Ran`), and this does not
depend on the other steps.  So a run without cancellation succeeds if no step of the plan
fails by itself (`Ran.done_iff`), and then its calls and events are, up to their order, those
of all the steps (`Ran.perm_calls`, `Ran.perm_events`).  If it does not succeed, the steps
that have been applied hold what they require, and none of them fails.
-/
namespace Provision.Plan
open Relation Resolver Execution ScriptedStore

/-- The store shows that a step has been applied. -/
def Shows (s : ScriptedStore) (step : Step) : Prop :=
  s.installed? step.key step.target = entryAfter step.kind

instance (s : ScriptedStore) (step : Step) : Decidable (Shows s step) :=
  inferInstanceAs (Decidable (_ = _))

/-- The places of the steps that have been applied, as the store shows it. -/
def shown (steps : List Step) (s : ScriptedStore) : List Nat :=
  (List.range steps.length).filter fun i => ∃ step ∈ steps[i]?, Shows s step

/-- Applying the step to the store at the start would fail. -/
def Fails (c : Context ScriptedStore) (start : ScriptedStore) (step : Step) : Prop :=
  (applyStep c step start).outcome ≠ .done ()

/-- **A run that applies steps at once refines one that takes them in turn.** -/
structure Refines (c : Context ScriptedStore) (steps : List Step) (start : ScriptedStore)
    (concurrent sequential : Applied ScriptedStore Unit) : Prop where
  done_iff : concurrent.outcome = .done () ↔ sequential.outcome = .done ()
  installed : concurrent.outcome = .done () → ∀ key target,
    concurrent.state.installed? key target = sequential.state.installed? key target
  calls : concurrent.outcome = .done () → concurrent.state.calls.Perm sequential.state.calls
  events : concurrent.outcome = .done () → concurrent.events.Perm sequential.events
  /-- What makes a run fail is a step that fails by itself. -/
  succeeds : concurrent.outcome = .done () ↔ ∀ step ∈ steps, ¬ Fails c start step
  /-- At first the store shows no step, so what it shows of them later has been applied. -/
  fresh : shown steps start = []
  /-- What the store shows is what the run has reported. -/
  reported : (reports concurrent.events).Perm
    ((shown steps concurrent.state).filterMap fun i => (steps[i]?).map (report c.id))
  requiresClosed : RequiresClosed steps (shown steps concurrent.state)
  /-- What has been applied neither fails nor requires, at any remove, what fails. -/
  unfailed : ∀ i ∈ shown steps concurrent.state, ∀ j step,
    ReflTransGen (Requires steps) i j → steps[j]? = some step → ¬ Fails c start step

variable {r : Resolver} {actions : List Action} {steps : List Step} {snapshot : Snapshot}
  {id : UInt32} {start s : ScriptedStore} {cancelled : Cancellation}
  {applied : Applied ScriptedStore Unit} {stages : Nat → Stage}
  {solo : Nat → List Event × ScriptedStore} {step : Step} {i : Nat}

/-! ## Runs of steps that go as by themselves -/

namespace Ran

theorem applyStep_eq (h : Ran snapshot id steps start cancelled applied stages solo)
    (hi : steps[i]? = some step) {outcome : Outcome TransactionError Unit}
    (hended : stages i = .ended outcome) :
    applyStep (context snapshot id) step start = ⟨outcome, (solo i).1, (solo i).2⟩ := by
  have halone := h.composed.alone i step hi
  rw [hended] at halone
  exact halone.applyStep_of_ended

/-- What has been applied does not fail. -/
theorem not_fails (h : Ran snapshot id steps start cancelled applied stages solo)
    (hi : steps[i]? = some step) (hfinished : i ∈ finished steps stages) :
    ¬ Fails (context snapshot id) start step := by
  rw [Fails, h.applyStep_eq hi (mem_finished.mp hfinished).2]
  exact not_not_intro rfl

/-- **A run that is not cancelled succeeds if no step fails by itself.** -/
theorem done_iff (h : Ran snapshot id steps start cancelled applied stages solo)
    (hcancelled : ∀ events, cancelled events = false) :
    applied.outcome = .done () ↔ ∀ step ∈ steps, ¬ Fails (context snapshot id) start step := by
  constructor
  · intro hdone step hmem
    obtain ⟨i, hi⟩ := List.mem_iff_getElem?.mp hmem
    have hlt := (List.getElem?_eq_some_iff.mp hi).1
    exact h.not_fails hi (mem_finished.mpr ⟨hlt, h.conclusion.done_iff.mp hdone i hlt⟩)
  · intro hnone
    refine Classical.byContradiction fun hne => ?_
    rcases h.conclusion.stopped hne with ⟨events, hevents⟩ | ⟨i, hi, outcome, hfailed, hended⟩
    · rw [hcancelled] at hevents
      cases hevents
    · apply hnone steps[i] (List.getElem_mem hi)
      rw [Fails, h.applyStep_eq (List.getElem?_eq_getElem hi) hended]
      exact hfailed

/-- The store shows the steps that have been applied. -/
theorem shown_eq (h : Ran snapshot id steps start cancelled applied stages solo)
    (hfresh : shown steps start = []) : shown steps applied.state = finished steps stages := by
  refine List.filter_congr fun i hi => ?_
  have hlt := List.mem_range.mp hi
  have hplace : steps[i]? = some steps[i] := List.getElem?_eq_getElem hlt
  have hbefore : ¬ Shows start steps[i] := by
    intro hshows
    have hmem : i ∈ shown steps start :=
      List.mem_filter.mpr ⟨hi, decide_eq_true ⟨_, hplace, hshows⟩⟩
    rw [hfresh] at hmem
    cases hmem
  have hentry := installed?_of_composed h.composed h.conclusion.settled hplace
  rw [decide_eq_decide]
  constructor
  · rintro ⟨step, hstep, hshows⟩
    rw [hplace] at hstep
    cases hstep
    refine Classical.byContradiction fun hne => hbefore ?_
    rw [if_neg hne] at hentry
    exact hentry.symm.trans hshows
  · intro hended
    rw [if_pos hended] at hentry
    exact ⟨_, hplace, hentry⟩

end Ran

theorem flatMap_eq_filterMap_filter {α β : Type} {p : α → Prop} [DecidablePred p] {l : List α}
    {f : α → List β} {g : α → Option β}
    (h : ∀ x ∈ l, f x = if p x then (g x).toList else []) :
    l.flatMap f = (l.filter p).filterMap g := by
  induction l with
  | nil => rfl
  | cons x l ih =>
    have hx := h x (List.mem_cons_self ..)
    have hrest := ih fun y hy => h y (List.mem_cons_of_mem _ hy)
    rw [List.flatMap_cons, hx, hrest]
    by_cases hp : p x
    · rw [if_pos hp, List.filter_cons_of_pos (by simpa using hp), List.filterMap_cons]
      cases g x <;> rfl
    · rw [if_neg hp, List.filter_cons_of_neg (by simpa using hp), List.nil_append]

/-- Going through the places of a list is going through the list. -/
theorem flatMap_range_length {α β : Type} {l : List α} {f : Nat → List β} {g : α → List β}
    (h : ∀ i x, l[i]? = some x → f i = g x) : (List.range l.length).flatMap f = l.flatMap g := by
  rw [List.flatMap_def, List.flatMap_def]
  congr 1
  refine List.ext_getElem (by simp) fun i hi hi' => ?_
  rw [List.length_map] at hi'
  rw [List.getElem_map, List.getElem_map, List.getElem_range]
  exact h i _ (List.getElem?_eq_getElem hi')

namespace Ran

/-- **What a run reports that succeeds**, up to its order. -/
theorem perm_events (h : Ran snapshot id steps start cancelled applied stages solo)
    (hdone : applied.outcome = .done ()) : applied.events.Perm
      (steps.flatMap fun step => (applyStep (context snapshot id) step start).events) := by
  have hended := h.conclusion.done_iff.mp hdone
  refine h.composed.events.trans (List.Perm.of_eq (flatMap_range_length fun i step hi => ?_))
  rw [h.applyStep_eq hi (hended i (List.getElem?_eq_some_iff.mp hi).1)]

/-- **The calls of a run that succeeds**, up to their order. -/
theorem perm_calls (h : Ran snapshot id steps start cancelled applied stages solo)
    (hdone : applied.outcome = .done ()) : applied.state.calls.Perm
      (start.calls ++ steps.flatMap fun step =>
        start.callsSince (applyStep (context snapshot id) step start).state) := by
  have hended := h.conclusion.done_iff.mp hdone
  refine h.composed.calls.trans (List.Perm.append_left _ (List.Perm.of_eq
    (flatMap_range_length fun i step hi => ?_)))
  rw [h.applyStep_eq hi (hended i (List.getElem?_eq_some_iff.mp hi).1)]

/-- **The steps that a run reports** are those it has applied. -/
theorem perm_reports (h : Ran snapshot id steps start cancelled applied stages solo) :
    (reports applied.events).Perm
      ((finished steps stages).filterMap fun i => (steps[i]?).map (report id)) := by
  refine (h.composed.events.filter _).trans (List.Perm.of_eq ?_)
  rw [List.filter_flatMap]
  refine flatMap_eq_filterMap_filter fun i hi => ?_
  have hlt := List.mem_range.mp hi
  have hplace := List.getElem?_eq_getElem hlt
  have halone := h.composed.alone i _ hplace
  change reports (solo i).1 = _
  cases hstage : stages i with
  | waiting =>
    rw [hstage] at halone
    rw [halone.of_waiting.1, if_neg Stage.noConfusion]
    rfl
  | fetched artifact => exact absurd hstage (h.conclusion.settled i artifact)
  | ended outcome =>
    have hreports := reports_applyStep (context snapshot id) steps[i] start
    rw [h.applyStep_eq hplace hstage] at hreports
    refine Eq.trans hreports ?_
    rw [hplace]
    simp only [Stage.ended.injEq]
    rfl

/-- What the applied steps require, at any remove, has been applied. -/
theorem mem_finished_of_requires (h : Ran snapshot id steps start cancelled applied stages solo)
    {j : Nat} (hi : i ∈ finished steps stages) (hreach : ReflTransGen (Requires steps) i j) :
    j ∈ finished steps stages := by
  induction hreach with
  | refl => exact hi
  | tail _ hrequires ih =>
    obtain ⟨step, hstep, hmem⟩ := hrequires
    exact h.requiresClosed _ ih step hstep _ hmem

end Ran

/-- **Two runs of a plan**, of which neither is cancelled. -/
theorem Ran.refines {applied' : Applied ScriptedStore Unit} {stages' : Nat → Stage}
    {solo' : Nat → List Event × ScriptedStore}
    (h : Ran snapshot id steps start (fun _ => false) applied stages solo)
    (h' : Ran snapshot id steps start (fun _ => false) applied' stages' solo')
    (hresolve : r.resolve actions = .ok steps) (hfresh : shown steps start = []) :
    Refines (context snapshot id) steps start applied applied' := by
  have hiff : applied.outcome = .done () ↔ applied'.outcome = .done () :=
    (h.done_iff fun _ => rfl).trans (h'.done_iff fun _ => rfl).symm
  have hshown := h.shown_eq hfresh
  constructor
  case done_iff => exact hiff
  case installed =>
    exact fun hdone => (h.fulfilled hresolve hdone).unique (h'.fulfilled hresolve (hiff.mp hdone))
  case calls => exact fun hdone => (h.perm_calls hdone).trans (h'.perm_calls (hiff.mp hdone)).symm
  case events =>
    exact fun hdone => (h.perm_events hdone).trans (h'.perm_events (hiff.mp hdone)).symm
  case succeeds => exact h.done_iff fun _ => rfl
  case fresh => exact hfresh
  case reported =>
    rw [hshown]
    exact h.perm_reports
  case requiresClosed =>
    rw [hshown]
    exact h.requiresClosed
  case unfailed =>
    intro i hi j step hreach hj
    rw [hshown] at hi
    exact h.not_fails hj (h.mem_finished_of_requires hi hreach)

/-! ## Plans of a client -/

/-- A store shows nothing of a plan that has been made for it. -/
theorem shown_eq_nil_of_resolve {cascade : Bool} (hfixed : start.fixedStatus = [])
    (hresolve : (Resolver.ofStore snapshot start cascade).resolve actions = .ok steps) :
    shown steps start = [] := by
  have hgranted := (realizes_of_resolve hresolve).1
  refine List.filter_eq_nil_iff.mpr fun i _ hshown => ?_
  obtain ⟨step, hstep, hshows⟩ := of_decide_eq_true hshown
  have hplanned := (mem_changes_of_resolve hresolve).mp
    (List.mem_map_of_mem (List.mem_of_getElem? hstep))
  rw [Step.change] at hplanned
  rw [Shows] at hshows
  cases hkind : step.kind with
  | install =>
    rw [hkind] at hplanned hshows
    obtain ⟨⟨root, ha, hreach⟩, hstatus⟩ := mem_planned_install _ |>.mp hplanned
    obtain ⟨⟨-, -, -, hknown⟩, -⟩ := hgranted.obtainable root step.target ha step.key hreach
    exact hstatus ((upToDate_iff_of_known hfixed hknown).mpr hshows)
  | uninstall =>
    rw [hkind] at hplanned hshows
    obtain ⟨-, -, hinst⟩ := mem_planned_uninstall _ |>.mp hplanned
    have hknown : ∀ reason, start.status step.key step.target ≠ .unknown reason := by
      intro reason hunknown
      have hinst : (start.status step.key step.target).isInstalled = true := hinst
      rw [hunknown] at hinst
      cases hinst
    exact (isInstalled_iff_of_known hfixed hknown).mp hinst hshows

/-- A client that may apply `most` steps at once. -/
def limited (client : Client ScriptedStore) (most : UInt64) : Client ScriptedStore :=
  { client with config := client.config.setMaxConcurrentSteps most }

/-- **Applying steps at once refines applying them in turn**, for the plan of any request that
is run right away, whatever the script of the store makes fail, however many steps may be
applied at once and in whatever order their calls are made. -/
theorem refines_of_createTransaction (client client' : Client ScriptedStore)
    (hstore : client.store = ScriptedStore.store) (hfixed : client.state.fixedStatus = [])
    (actions : List Action) (transaction : Transaction)
    (hcreate : client.createTransaction actions = (.ok transaction, client'))
    (most : UInt64) (id : Option UInt32) (turns turns' : Nat → List Nat) :
    Refines (context client.snapshot (id.getD transaction.id)) transaction.steps client.state
      ((limited client' most).runTransaction transaction id turns fun _ => false).1
      ((limited client' 1).runTransaction transaction id turns' fun _ => false).1 := by
  obtain ⟨⟨actions', -, hresolve⟩, hnew, builder, hclient'⟩ :=
    Client.createTransaction_eq_ok hcreate
  rw [Client.resolver_eq hstore] at hresolve
  have hran := fun (limit : UInt64) (turns : Nat → List Nat) => exists_ran_of_resolve hresolve
    client.snapshot (id.getD transaction.id) ((limited client' limit).mode turns) (fun _ => false)
    client.state
  have hrun : ∀ (limit : UInt64) (turns : Nat → List Nat),
      ((limited client' limit).runTransaction transaction id turns fun _ => false).1 =
        runSteps (context client.snapshot (id.getD transaction.id))
          ((limited client' limit).mode turns) (fun _ => false) transaction.steps
          client.state := by
    intro limit turns
    have hstore' : (limited client' limit).store = ScriptedStore.store := by
      rw [limited, hclient', hstore]
    rw [Client.runTransaction_of_new hstore' hnew, limited, hclient']
    rfl
  obtain ⟨stages, solo, h⟩ := hran most turns
  obtain ⟨stages', solo', h'⟩ := hran 1 turns'
  rw [hrun, hrun]
  exact h.refines h' hresolve (shown_eq_nil_of_resolve hfixed hresolve)

/-- The sample transaction, its installs and removals made two at once and one at a time. -/
theorem sample_refines :
    Sample.client.createTransaction Sample.request = (.ok Sample.transaction, Sample.clientAfter) ∧
    Refines (context Sample.snapshot 1) Sample.steps Sample.store
      ((limited Sample.clientAfter 2).runTransaction Sample.transaction none (fun _ => [1, 0, 1])
        fun _ => false).1
      ((limited Sample.clientAfter 1).runTransaction Sample.transaction none (fun _ => [])
        fun _ => false).1 :=
  ⟨Sample.createTransaction_request, refines_of_createTransaction Sample.client Sample.clientAfter
    rfl rfl Sample.request Sample.transaction Sample.createTransaction_request 2 none _ _⟩

end Provision.Plan
