import Provision.Proofs.Request

/-!
# What a successful run has achieved

A request is made into a transaction and run right away.  If the run succeeds, everything that
was asked for holds in the store, and nothing has happened that was not called for
(`Achieved`): what is needed is up to date, what was to go is gone, more than that is only
removed by cascading, and a package without a step is as it was.

All steps have been applied then, so the store is the one after the whole plan (`After`), and
what the plan holds is known from the request (`mem_planned_install`,
`mem_planned_uninstall_iff`).
-/
namespace Provision.Plan
open Relation Resolver Execution

/-- **What a request has achieved** that turned the state of a client into `final`. -/
structure Achieved (client : Client ScriptedStore) (actions : List Action) (steps : List Step)
    (final : ScriptedStore) : Prop where
  /-- Whatever can be reached from a package to be installed is installed and up to date. -/
  installed : ∀ root target, (⟨.install, target, root⟩ : Action) ∈ actions →
    ∀ key, ReflTransGen client.snapshot.DependsOn root key →
      final.installed? key target = some true
  removed : ∀ root target, (⟨.uninstall, target, root⟩ : Action) ∈ actions →
    final.installed? root target = none
  /-- What is gone without a request depended on something requested that is gone, too, and
  the client cascades. -/
  cascaded : ∀ key target, client.state.installed? key target ≠ none →
    final.installed? key target = none → (⟨.uninstall, target, key⟩ : Action) ∉ actions →
      client.config.cascadeUninstall = true ∧
        ∃ root, (⟨.uninstall, target, root⟩ : Action) ∈ actions ∧
          client.state.installed? root target ≠ none ∧ final.installed? root target = none ∧
            TransGen client.snapshot.DependsOn key root
  /-- What has no step is as it was. -/
  kept : ∀ key target, (∀ step ∈ steps, (step.key, step.target) ≠ (key, target)) →
    final.installed? key target = client.state.installed? key target

variable {r : Resolver} {actions : List Action} {steps : List Step} {start s : ScriptedStore}

namespace Fulfilled

variable {key : PackageKey} {target : Target}

/-- What an install needs is up to date after the plan. -/
theorem needed (h : Fulfilled r actions start s) (hgranted : Granted r actions)
    (hstatus : r.status key target = .upToDate → start.installed? key target = some true)
    (hneeded : r.Needed actions key target) : s.installed? key target = some true := by
  by_cases hupToDate : r.status key target = .upToDate
  · have hinstall : (key, target, ActionKind.install) ∉ r.planned actions :=
      fun hmem => (r.mem_planned_install.mp hmem).2 hupToDate
    have huninstall := (hgranted.compatible key target hneeded).2
    rw [h.kept key target hinstall huninstall]
    exact hstatus hupToDate
  · exact h.installed key target (r.mem_planned_install.mpr ⟨hneeded, hupToDate⟩)

/-- What was installed and is gone was to be removed by the plan. -/
theorem planned_of_gone (h : Fulfilled r actions start s)
    (hbefore : start.installed? key target ≠ none) (hgone : s.installed? key target = none) :
    (key, target, .uninstall) ∈ r.planned actions := by
  refine Classical.byContradiction fun huninstall => ?_
  by_cases hinstall : (key, target, ActionKind.install) ∈ r.planned actions
  · rw [h.installed key target hinstall] at hgone
    cases hgone
  · rw [h.kept key target hinstall huninstall] at hgone
    exact hbefore hgone

/-- A package to be uninstalled is gone after the plan. -/
theorem gone (h : Fulfilled r actions start s) (hgranted : Granted r actions)
    (hfaithful : r.snapshot.Faithful)
    (hstatus : (r.status key target).isInstalled = true ↔ start.installed? key target ≠ none)
    (ha : (⟨.uninstall, target, key⟩ : Action) ∈ actions) : s.installed? key target = none := by
  by_cases hinst : (r.status key target).isInstalled = true
  · exact h.removed key target ((mem_planned_uninstall_iff hfaithful hgranted.offered).mpr
      ⟨hinst, key, ha, hinst, ReflTransGen.refl⟩)
  · have hinstall : (key, target, ActionKind.install) ∉ r.planned actions := fun hmem =>
      (hgranted.compatible key target (r.mem_planned_install.mp hmem).1).1 ha
    have huninstall : (key, target, ActionKind.uninstall) ∉ r.planned actions :=
      fun hmem => hinst (r.mem_planned_uninstall.mp hmem).2.2
    rw [h.kept key target hinstall huninstall]
    exact Classical.not_not.mp fun hne => hinst (hstatus.mpr hne)

end Fulfilled

theorem installed?_ne_none_iff {key : PackageKey} {target : Target} (h : start.Tells) :
    (start.status key target).isInstalled = true ↔ start.installed? key target ≠ none := by
  rw [h.isInstalled_iff, Option.isSome_iff_ne_none]

/-- The store after a whole plan is what was asked for. -/
theorem achieved_of_fulfilled {client : Client ScriptedStore} {actions' : List Action}
    (htells : client.state.Tells) (hfaithful : client.snapshot.Faithful)
    (hmem : ∀ a, a ∈ actions' ↔ a ∈ actions)
    (hresolve : (Resolver.ofStore client.snapshot client.state
      client.config.cascadeUninstall).resolve actions' = .ok steps)
    (h : Fulfilled (Resolver.ofStore client.snapshot client.state client.config.cascadeUninstall)
      actions' client.state s) : Achieved client actions steps s := by
  have hgranted := (realizes_of_resolve hresolve).1
  have hrealizes := realizes_planned_of_resolve hfaithful hresolve
  have hgone : ∀ root target, (⟨.uninstall, target, root⟩ : Action) ∈ actions' →
      s.installed? root target = none :=
    fun root target ha => h.gone hgranted hfaithful (installed?_ne_none_iff htells) ha
  constructor
  case installed =>
    intro root target ha key hreach
    exact h.needed hgranted htells.upToDate_iff.mp ⟨root, (hmem _).mpr ha, hreach⟩
  case removed => exact fun root target ha => hgone root target ((hmem _).mpr ha)
  case cascaded =>
    intro key target hbefore hafter hunrequested
    have hplanned := h.planned_of_gone hbefore hafter
    obtain ⟨hinst, root, ha, hroot, hreach⟩ :=
      (mem_planned_uninstall_iff hfaithful hgranted.offered).mp hplanned
    have hne : key ≠ root := fun heq => hunrequested (heq ▸ (hmem _).mp ha)
    have hdep : TransGen client.snapshot.DependsOn key root :=
      (reflTransGen_iff_eq_or_transGen.mp hreach).resolve_left (Ne.symm hne)
    -- Without cascading, the request would have been refused.
    have hcascade : client.config.cascadeUninstall = true := by
      refine (Bool.not_eq_false _).mp fun hcascade => hunrequested ((hmem _).mp ?_)
      obtain ⟨-, hdependents⟩ := (feasible_of_resolve hfaithful hresolve).removals root target ha
      exact (hdependents hroot key hne hdep).2 hcascade hinst
    exact ⟨hcascade, root, (hmem _).mp ha, (installed?_ne_none_iff htells).mp hroot,
      hgone root target ha, hdep⟩
  case kept =>
    intro key target hnone
    have hunplanned : ∀ kind, (key, target, kind) ∉ (Resolver.ofStore client.snapshot
        client.state client.config.cascadeUninstall).planned actions' := by
      intro kind hplanned
      rw [← hrealizes.change] at hplanned
      obtain ⟨step, hstep, hchange⟩ := List.mem_map.mp hplanned
      exact hnone step hstep (congrArg (fun c => (c.1, c.2.1)) hchange)
    exact h.kept key target (hunplanned .install) (hunplanned .uninstall)

/-- **A successful run has achieved what was asked for**, and nothing else. -/
theorem achieved_of_run (client client' : Client ScriptedStore)
    (hstore : client.store = ScriptedStore.store) (htells : client.state.Tells)
    (hfaithful : client.snapshot.Faithful) (actions : List Action) (transaction : Transaction)
    (hcreate : client.createTransaction actions = (.ok transaction, client'))
    (id : Option UInt32) (turns : Nat → List Nat) (cancelled : Cancellation)
    (hdone : (client'.runTransaction transaction id turns cancelled).1.outcome = .done ()) :
    Achieved client actions transaction.steps
      (client'.runTransaction transaction id turns cancelled).2.2.state := by
  obtain ⟨⟨actions', hvalidate, hresolve⟩, hnew, builder, hclient'⟩ :=
    Client.createTransaction_eq_ok hcreate
  rw [Client.resolver_eq hstore] at hresolve
  have hstore' : client'.store = ScriptedStore.store := by rw [hclient', hstore]
  have hstate : client'.state = client.state := by rw [hclient']
  rw [Client.runTransaction_of_new hstore' hnew, hstate] at hdone ⊢
  obtain ⟨stages, solo, hran⟩ := exists_ran_of_resolve hresolve client'.snapshot
    (id.getD transaction.id) (client'.mode turns) cancelled client.state
  exact achieved_of_fulfilled htells hfaithful (fun _ => Validation.mem_of_validate hvalidate)
    hresolve (hran.fulfilled hresolve hdone)

/-- The sample request, with the calls of its steps made in the opposite order. -/
theorem sample_achieved :
    (Sample.clientAfter.runTransaction Sample.transaction none (fun _ => [1, 0])
      fun _ => false).1.outcome = .done () ∧
    Achieved Sample.client Sample.request Sample.steps
      (Sample.clientAfter.runTransaction Sample.transaction none (fun _ => [1, 0])
        fun _ => false).2.2.state := by
  have hdone : (Sample.clientAfter.runTransaction Sample.transaction none (fun _ => [1, 0])
      fun _ => false).1.outcome = .done () := by decide +kernel
  exact ⟨hdone, achieved_of_run Sample.client Sample.clientAfter rfl ⟨rfl, rfl⟩ Sample.faithful
    Sample.request Sample.transaction Sample.createTransaction_request none _ _ hdone⟩

end Provision.Plan
