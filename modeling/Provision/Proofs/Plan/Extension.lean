import Provision.Proofs.Plan.Arrangement

/-!
# Requests that ask for more

Actions added at the end of a request add steps at the end of its plan.  The steps that were
there keep their places and what they require; all that may happen to them is that an added
action asks for one of them, too (`confirms_of_resolve_append`).

Two facts carry this.  What a change has to follow is called for along with it, so whatever
another request calls for besides never comes in between (`mem_planned_of_follows`), and the
changes of the shorter request stand on their own in the plan of the longer one
(`detached_append`).  And they are called for first, so the walk that arranges a plan is
through with them before it gets to the rest.
-/
namespace Provision.Plan
open Relation Resolver

variable {r : Resolver} {actions actions' : List Action} {steps steps' : List Step}
  {c c' : Change}

/-! ## What a change has to follow -/

/-- **What a planned change has to follow is planned**, if any request calls for it. -/
theorem mem_planned_of_follows (hc : c ∈ r.planned actions) (hfollows : Follows r.snapshot c c')
    (hc' : c' ∈ r.planned actions') : c' ∈ r.planned actions := by
  obtain ⟨key, target, kind⟩ := c
  obtain ⟨key', target', kind'⟩ := c'
  obtain ⟨heq, hdep⟩ := hfollows
  cases heq
  cases kind with
  | install =>
    obtain ⟨⟨root, ha, hreach⟩, -⟩ := r.mem_planned_install.mp hc
    obtain ⟨-, hstatus⟩ := r.mem_planned_install.mp hc'
    have hneeded : r.Needed actions key' target := ⟨root, ha, hreach.trans hdep.to_reflTransGen⟩
    exact r.mem_planned_install.mpr ⟨hneeded, hstatus⟩
  | uninstall =>
    obtain ⟨⟨root, ha, hroot, hreach⟩, -⟩ := r.mem_planned_uninstall.mp hc
    obtain ⟨-, hpresent⟩ := r.mem_planned_uninstall.mp hc'
    -- The walk of dependents goes up every chain of dependencies.
    have hup : TransGen r.dependents.Leads key key' :=
      TransGen.mono (fun _ _ h => h.mem_dependentsOf) key key' (transGen_swap.mpr hdep)
    have hdoomed : r.Doomed actions key' target :=
      ⟨root, ha, hroot, hreach.trans hup.to_reflTransGen⟩
    exact r.mem_planned_uninstall.mpr ⟨hdoomed, hpresent⟩

/-- **A change awaits the same in every plan it is part of.** -/
theorem awaits_of_awaits (hc : c ∈ r.planned actions) (hc' : c ∈ r.planned actions')
    (h : Awaits r.snapshot (r.planned actions) c c') :
    Awaits r.snapshot (r.planned actions') c c' := by
  obtain ⟨key, target, kind⟩ := c
  obtain ⟨heq, hvia⟩ := h
  refine ⟨heq, ?_⟩
  cases kind with
  -- A package on the way that the other plan changes is one that the change has to follow.
  | install =>
    refine Snapshot.DependsVia.mono hvia fun x hx hthrough hplanned => hthrough ?_
    exact mem_planned_of_follows hc ⟨rfl, hx⟩ hplanned
  | uninstall =>
    refine Snapshot.DependsVia.of_last hvia fun x hthrough hplanned hlast => hthrough ?_
    exact mem_planned_of_follows hc ⟨rfl, hlast.transGen⟩ (Classical.not_not.mp hplanned)

/-! ## The plan of the longer request -/

/-- What a request calls for comes first. -/
theorem isPrefix_planned (r : Resolver) (actions more : List Action) :
    r.planned actions <+: r.planned (actions ++ more) := by
  rw [planned_append, List.eraseDups_append, eraseDups_of_nodup (r.nodup_planned actions)]
  exact List.prefix_append _ _

/-- The changes of the shorter request, told from the plan of the longer one. -/
theorem filter_planned_append (r : Resolver) (actions more : List Action) :
    (r.planned (actions ++ more)).filter (· ∈ r.planned actions) = r.planned actions := by
  obtain ⟨rest, hrest⟩ := isPrefix_planned r actions more
  have hnodup := r.nodup_planned (actions ++ more)
  rw [← hrest] at hnodup
  have hnew : rest.filter (· ∈ r.planned actions) = [] := by
    refine List.filter_eq_nil_iff.mpr fun c hc => ?_
    rw [decide_eq_true_eq]
    exact fun hplanned => List.disjoint_of_nodup_append hnodup hplanned hc
  have hall : (r.planned actions).filter (· ∈ r.planned actions) = r.planned actions :=
    List.filter_eq_self.mpr fun c hc => decide_eq_true hc
  rw [← hrest, List.filter_append, hnew, hall, List.append_nil]

/-- **The shorter request stands on its own** in the plan of the longer one. -/
theorem detached_append (r : Resolver) (actions more : List Action) :
    Detached r.snapshot (r.planned (actions ++ more)) (· ∈ r.planned actions) := by
  intro c hc hkeep c' hc'
  have hplanned : c ∈ r.planned actions := of_decide_eq_true hkeep
  rw [filter_planned_append, decide_eq_true_eq]
  constructor
  · intro hawaits
    exact ⟨mem_planned_of_follows hplanned hawaits.follows hc',
      awaits_of_awaits hc hplanned hawaits⟩
  · exact fun h => awaits_of_awaits hplanned hc h.2

/-- The plan of the longer request goes on where that of the shorter one ends. -/
theorem isPrefix_arranged_append (r : Resolver) (actions more : List Action) :
    arranged r.snapshot (r.planned actions) <+:
      arranged r.snapshot (r.planned (actions ++ more)) := by
  have hprefix := (detached_append r actions more).isPrefix_arranged
  rw [filter_planned_append] at hprefix
  exact hprefix (isPrefix_planned r actions more)

theorem awaits_arranged_append {more : List Action}
    (hc : c ∈ arranged r.snapshot (r.planned actions))
    (hc' : c' ∈ arranged r.snapshot (r.planned (actions ++ more))) :
    Awaits r.snapshot (arranged r.snapshot (r.planned (actions ++ more))) c c' ↔
      c' ∈ arranged r.snapshot (r.planned actions) ∧
        Awaits r.snapshot (arranged r.snapshot (r.planned actions)) c c' := by
  rw [mem_arranged] at hc hc'
  have hmore : c ∈ r.planned (actions ++ more) := (isPrefix_planned r actions more).subset hc
  have hdetached := detached_append r actions more c hmore (decide_eq_true hc) c' hc'
  rw [filter_planned_append, decide_eq_true_eq] at hdetached
  rw [mem_arranged, Awaits.congr fun _ => mem_arranged, Awaits.congr fun _ => mem_arranged]
  exact hdetached

/-! ## Its steps -/

/-- **A step that stays**: at most, it is asked for now and was not. -/
structure Confirms (s s' : Step) : Prop where
  same : s' = { s with explicit := s'.explicit }
  explicit : s.explicit = true → s'.explicit = true

/-- Every step of the shorter plan stays where it is. -/
theorem confirms_of_getElem? {more : List Action}
    (h : Realizes r actions (arranged r.snapshot (r.planned actions)) steps)
    (h' : Realizes r (actions ++ more) (arranged r.snapshot (r.planned (actions ++ more))) steps')
    {i : Nat} {s s' : Step} (hs : steps[i]? = some s) (hs' : steps'[i]? = some s') :
    Confirms s s' := by
  have hmem := List.mem_of_getElem? hs
  have hmem' := List.mem_of_getElem? hs'
  have hplace : ∀ (j : Nat) (c : Change), (arranged r.snapshot (r.planned actions))[j]? = some c ↔
      (arranged r.snapshot (r.planned (actions ++ more)))[j]? = some c ∧
        c ∈ arranged r.snapshot (r.planned actions) :=
    fun j c => getElem?_eq_some_of_isPrefix (isPrefix_arranged_append r actions more) nodup_arranged
  have hchange : s.change = s'.change := by
    have hc := ((hplace i s.change).mp (h.planned_getElem? hs)).1
    exact Option.some.inj (hc.symm.trans (h'.planned_getElem? hs'))
  constructor
  case same =>
    refine h.eq_of_change h' hs hs' hchange fun j => ?_
    rw [h.requires s hmem, h'.requires s' hmem', ← hchange]
    refine exists_congr fun c => ?_
    rw [hplace, and_assoc]
    refine and_congr_right fun hj => ?_
    have hc := List.mem_of_getElem? (h.planned_getElem? hs)
    exact (awaits_arranged_append hc (List.mem_of_getElem? hj)).symm
  case explicit =>
    obtain ⟨hkey, htarget, hkind⟩ := Step.change_eq_iff.mp hchange
    rw [h.explicit s hmem, h'.explicit s' hmem', hkey, htarget, hkind]
    exact List.mem_append_left more

/-- **Later actions only add to a plan**, whatever the snapshot is: it begins with the steps
that there were without them, in the same places and with the same requirements. -/
theorem confirms_of_resolve_append (r : Resolver) (actions more : List Action)
    (steps steps' : List Step) (h : r.resolve actions = .ok steps)
    (h' : r.resolve (actions ++ more) = .ok steps') :
    List.Forall₂ Confirms steps (steps'.take steps.length) := by
  have hrealizes := realizes_arranged_of_resolve h
  have hrealizes' := realizes_arranged_of_resolve h'
  have hlength : steps.length ≤ steps'.length := by
    have hle := (isPrefix_arranged_append r actions more).length_le
    rw [← hrealizes.change, ← hrealizes'.change, List.length_map, List.length_map] at hle
    exact hle
  refine List.forall₂_iff_get.mpr ⟨?_, fun i hi hi' => ?_⟩
  · rw [List.length_take, Nat.min_eq_left hlength]
  · rw [List.get_eq_getElem, List.get_eq_getElem, List.getElem_take]
    have hlt : i < steps'.length := Nat.lt_of_lt_of_le hi hlength
    exact confirms_of_getElem? hrealizes hrealizes' (List.getElem?_eq_getElem hi)
      (List.getElem?_eq_getElem hlt)

/-- To the sample request, the user's base, which is needed already, and the user's tool are
added: the step of the base is asked for now, and the tool comes at the end. -/
theorem sample_confirms : ∃ steps,
    Sample.resolver.resolve (Sample.request ++ [⟨.install, .user, Sample.named "base"⟩,
      ⟨.install, .user, Sample.named "tool"⟩]) = .ok steps ∧
      List.Forall₂ Confirms Sample.steps (steps.take Sample.steps.length) := by
  have hmore : Sample.resolver.resolve (Sample.request ++ [⟨.install, .user, Sample.named "base"⟩,
      ⟨.install, .user, Sample.named "tool"⟩]) =
      .ok [⟨Sample.named "base", .user, .install, ⟨0, "2"⟩, true, 0, []⟩,
        ⟨Sample.named "app", .user, .install, ⟨0, "2"⟩, true, 1, [0]⟩,
        ⟨Sample.named "tool", .system, .uninstall, ⟨0, "2"⟩, false, 2, []⟩,
        ⟨Sample.named "base", .system, .uninstall, ⟨0, "2"⟩, true, 3, [2]⟩,
        ⟨Sample.named "tool", .user, .install, ⟨0, "2"⟩, true, 4, [0]⟩] := by
    decide +kernel
  exact ⟨_, hmore, confirms_of_resolve_append Sample.resolver _ _ _ _ Sample.resolve_request hmore⟩

end Provision.Plan
