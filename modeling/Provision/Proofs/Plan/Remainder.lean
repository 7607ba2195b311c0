import Provision.Proofs.Plan.Application
import Provision.Proofs.Plan.Feasible

/-!
# Resolving what was carried out in part

A request that was resolved and carried out in part can be resolved again.  If the steps
that were carried out hold what they require, the outcome is the remaining steps, renumbered
(`remainder`).

`Advanced` says what carrying out changes in the statuses, as far as the request looks at
them.  Each action then calls for what it called for before, without the changes made
(`Advanced.called`): an install no longer finds new what has come, and a removal finds
nothing to do once its package is gone, since what depended on it went before.  The
remaining changes wait for each other as before, although packages that were changed are
looked through now (`Advanced.awaits_iff`): a way between two of them past one that was
changed would have had one of the two changed first.  Steps whose changes wait for each other
as before realize their part of the plan (`Realizes.remaining`), and a plan is realized in one
way, so the remaining steps are the ones that the new resolution finds.
-/
namespace Provision.Plan
open Relation Resolver

variable {r : Resolver} {actions : List Action} {gone : List Change} {key key' : PackageKey}
  {target : Target} {now : PackageKey → Target → InstallStatus}

/-- **Statuses after some changes of a plan have been made.** -/
structure Advanced (r : Resolver) (now : PackageKey → Target → InstallStatus)
    (actions : List Action) (gone : List Change) : Prop where
  known : ∀ key target, (now key target).Known
  /-- What is needed is up to date if it was, or has been installed. -/
  upToDate : ∀ key target, r.Needed actions key target →
    (now key target = .upToDate ↔ r.status key target = .upToDate ∨
      (key, target, .install) ∈ gone)
  /-- What depends on something to be removed is installed if it was and has not gone. -/
  isInstalled : ∀ root target, (⟨.uninstall, target, root⟩ : Action) ∈ actions →
    ∀ key, ReflTransGen r.snapshot.DependsOn key root → ((now key target).isInstalled = true ↔
      (r.status key target).isInstalled = true ∧ (key, target, .uninstall) ∉ gone)
  planned : ∀ c ∈ gone, c ∈ r.planned actions
  /-- Whatever a change had to wait for has been made. -/
  closed : ∀ c ∈ gone, ∀ c' ∈ r.planned actions,
    Awaits r.snapshot (r.planned actions) c c' → c' ∈ gone

namespace Advanced

/-- Whatever depends on a package that has gone has gone, too. -/
theorem uninstall_of_transGen (h : Advanced r now actions gone)
    (hkey : (key, target, .uninstall) ∈ gone) (hdep : TransGen r.snapshot.DependsOn key' key)
    (hkey' : (key', target, .uninstall) ∈ r.planned actions) :
    (key', target, .uninstall) ∈ gone := by
  have hchain := Snapshot.transGen_dependsVia
    (fun x => (x, target, ActionKind.uninstall) ∉ r.planned actions)
    (not_not_intro (h.planned _ hkey)) hdep
  clear hdep
  induction hchain using TransGen.head_induction_on with
  | single hvia => exact h.closed _ hkey _ hkey' ⟨rfl, hvia.1⟩
  | head hvia _ ih =>
    have hnext := ih (Classical.not_not.mp hvia.2)
    exact h.closed _ hnext _ hkey' ⟨rfl, hvia.1⟩

/-- An install calls for what it called for, as far as it has not been installed. -/
theorem called_install (h : Advanced r now actions gone) {root : PackageKey}
    (ha : (⟨.install, target, root⟩ : Action) ∈ actions) :
    ({ r with status := now } : Resolver).called ⟨.install, target, root⟩ =
      (r.called ⟨.install, target, root⟩).filter (! gone.contains ·) := by
  rw [Resolver.called_install, Resolver.called_install, List.filter_map, List.filter_filter]
  refine congrArg _ (List.filter_congr fun key hkey => ?_)
  have hreach : ReflTransGen r.snapshot.DependsOn root key :=
    Digraph.mem_reachable_singleton.mp hkey
  rw [Bool.eq_iff_iff]
  simp only [decide_eq_true_eq, Function.comp, Bool.and_eq_true, Bool.not_eq_true',
    List.contains_eq_mem, decide_eq_false_iff_not, ne_eq, h.upToDate key target ⟨root, ha, hreach⟩]
  tauto

/-- A removal calls for what it called for, as far as it has not gone. -/
theorem called_uninstall (h : Advanced r now actions gone) (hfaithful : r.snapshot.Faithful)
    {root : PackageKey} (ha : (⟨.uninstall, target, root⟩ : Action) ∈ actions) :
    ({ r with status := now } : Resolver).called ⟨.uninstall, target, root⟩ =
      (r.called ⟨.uninstall, target, root⟩).filter (! gone.contains ·) := by
  have hroot := h.isInstalled root target ha root ReflTransGen.refl
  by_cases hnow : (now root target).isInstalled = true
  · obtain ⟨hbefore, hstays⟩ := hroot.mp hnow
    rw [Resolver.called_uninstall r hbefore,
      Resolver.called_uninstall { r with status := now } hnow, List.filter_map, List.filter_filter]
    refine congrArg _ (List.filter_congr fun key hkey => ?_)
    have hreach := (reach_dependents hfaithful).mp (Digraph.mem_reachable_singleton.mp hkey)
    rw [Bool.eq_iff_iff]
    simp only [Function.comp, Bool.and_eq_true, Bool.not_eq_true', List.contains_eq_mem,
      decide_eq_false_iff_not, h.isInstalled root target ha key hreach]
    tauto
  · rw [called_uninstall_of_absent { r with status := now } hnow, eq_comm, List.filter_eq_nil_iff]
    -- The package has gone, and whatever depends on it went before.
    rintro ⟨key, target', kind⟩ hc
    rw [Bool.not_eq_true', Bool.not_eq_false, List.contains_iff_mem]
    cases kind with
    | install =>
      obtain ⟨_, heq, -⟩ := r.mem_called_install.mp hc
      cases heq
    | uninstall =>
      obtain ⟨_, heq, hbefore, hreach, -⟩ := r.mem_called_uninstall.mp hc
      cases heq
      have hgone : (root, target, ActionKind.uninstall) ∈ gone :=
        Classical.not_not.mp fun hstays => hnow (hroot.mpr ⟨hbefore, hstays⟩)
      rcases reflTransGen_iff_eq_or_transGen.mp ((reach_dependents hfaithful).mp hreach) with
        rfl | htrans
      · exact hgone
      · exact h.uninstall_of_transGen hgone htrans (r.mem_planned.mpr ⟨_, ha, hc⟩)

/-- **A request calls for what it called for, without the changes made.** -/
theorem planned_eq (h : Advanced r now actions gone) (hfaithful : r.snapshot.Faithful) :
    ({ r with status := now } : Resolver).planned actions =
      (r.planned actions).filter (! gone.contains ·) := by
  rw [Resolver.planned, Resolver.planned, ← eraseDups_filter, List.filter_flatMap]
  refine congrArg List.eraseDups ?_
  refine List.flatMap_congr fun a ha => ?_
  obtain ⟨kind, target, root⟩ := a
  cases kind with
  | install => exact h.called_install ha
  | uninstall => exact h.called_uninstall hfaithful ha

/-- **The changes that remain wait for each other as before.** -/
theorem awaits_iff (h : Advanced r now actions gone) {c c' : Change}
    (hc : c ∈ (r.planned actions).filter (! gone.contains ·))
    (hc' : c' ∈ (r.planned actions).filter (! gone.contains ·)) :
    Awaits r.snapshot ((r.planned actions).filter (! gone.contains ·)) c c' ↔
      Awaits r.snapshot (r.planned actions) c c' := by
  have hmem : ∀ c, c ∈ (r.planned actions).filter (! gone.contains ·) ↔
      c ∈ r.planned actions ∧ c ∉ gone := by
    intro c
    simp [List.mem_filter]
  obtain ⟨-, hstays'⟩ := (hmem c').mp hc'
  obtain ⟨hplanned', -⟩ := (hmem c').mp hc'
  obtain ⟨key, target, kind⟩ := c
  obtain ⟨key', target', kind'⟩ := c'
  refine and_congr_right fun hplace => ?_
  cases hplace
  cases kind with
  | install =>
    constructor
    · -- A package on the way that was installed would have had to wait for `key'`.
      refine fun hvia => Snapshot.DependsVia.of_last hvia fun x hx hx' hlast => hstays' ?_
      have hgone : (x, target, ActionKind.install) ∈ gone := by
        by_contra hstays
        exact hx ((hmem _).mpr ⟨Classical.not_not.mp hx', hstays⟩)
      exact h.closed _ hgone _ hplanned' ⟨rfl, hlast⟩
    · exact fun hvia => hvia.mono fun x _ hx h => hx ((hmem _).mp h).1
  | uninstall =>
    constructor
    · -- A package on the way that was removed would have had to wait for `key'`.
      refine fun hvia => Snapshot.DependsVia.of_first hvia fun x hx hx' hfirst => hstays' ?_
      have hgone : (x, target, ActionKind.uninstall) ∈ gone := by
        by_contra hstays
        exact hx ((hmem _).mpr ⟨Classical.not_not.mp hx', hstays⟩)
      exact h.closed _ hgone _ hplanned' ⟨rfl, hfirst⟩
    · exact fun hvia => hvia.mono fun x _ hx h => hx ((hmem _).mp h).1

/-- **A request stays feasible.** -/
theorem feasible (h : Advanced r now actions gone) (hfeasible : Feasible r actions) :
    Feasible { r with status := now } actions where
  offered := hfeasible.offered
  installs := by
    intro root target ha key hreach
    obtain ⟨hoffered, -, hacyclic⟩ := hfeasible.installs root target ha key hreach
    exact ⟨hoffered, h.known key target, hacyclic⟩
  removals := by
    intro root target ha
    refine ⟨h.known root target, fun hroot key hne hdep => ⟨h.known key target, ?_⟩⟩
    intro hcascade hinst
    have hroot' := (h.isInstalled root target ha root ReflTransGen.refl).mp hroot
    have hinst' := (h.isInstalled root target ha key hdep.to_reflTransGen).mp hinst
    obtain ⟨-, hdependents⟩ := hfeasible.removals root target ha
    exact (hdependents hroot'.1 key hne hdep).2 hcascade hinst'.1
  disjoint := hfeasible.disjoint
  acyclic := by
    intro root target ha hroot key hinst hreach
    have hroot' := (h.isInstalled root target ha root ReflTransGen.refl).mp hroot
    have hinst' := (h.isInstalled root target ha key hreach).mp hinst
    exact hfeasible.acyclic root target ha hroot'.1 key hinst'.1 hreach

end Advanced

/-! ## The remaining steps -/

/-- The places of the steps that are not in `done`. -/
def remainingPlaces (steps : List Step) (done : List Nat) : List Nat :=
  (List.range steps.length).filter (! done.contains ·)

/-- A step in its new place, `places` being the old places of the steps that remain. -/
def moved (places : List Nat) (position : Nat) (s : Step) : Step :=
  { s with order := position, requires := s.requires.filterMap places.idxOf? }

/-- **The steps that are not in `done`**, in the same order.  They are renumbered, and they
require what they required, as far as it remains. -/
def remainder (steps : List Step) (done : List Nat) : List Step :=
  (remainingPlaces steps done).zipIdx.filterMap fun (i, position) =>
    (steps[i]?).map (moved (remainingPlaces steps done) position)

variable {steps : List Step} {done : List Nat}

theorem mem_remainingPlaces {i : Nat} :
    i ∈ remainingPlaces steps done ↔ i < steps.length ∧ i ∉ done := by
  simp [remainingPlaces]

theorem ascending_remainingPlaces (steps : List Step) (done : List Nat) :
    (remainingPlaces steps done).Pairwise (· < ·) :=
  List.pairwise_lt_range.filter _

theorem nodup_remainingPlaces (steps : List Step) (done : List Nat) :
    (remainingPlaces steps done).Nodup :=
  (ascending_remainingPlaces steps done).imp Nat.ne_of_lt

theorem getElem?_remainder (k : Nat) : (remainder steps done)[k]? =
    (remainingPlaces steps done)[k]?.bind fun i =>
      (steps[i]?).map (moved (remainingPlaces steps done) k) := by
  rw [remainder, getElem?_filterMap_of_isSome, List.getElem?_zipIdx]
  · cases (remainingPlaces steps done)[k]? with
    | none => rfl
    | some i => simp
  · rintro ⟨i, k⟩ hmem
    have hi := mem_remainingPlaces.mp
      (List.mem_of_getElem? (List.mem_zipIdx_iff_getElem?.mp hmem))
    rw [Option.isSome_map, List.getElem?_eq_getElem hi.1]
    rfl

/-- A step of the remainder comes from one that is not in `done`. -/
theorem exists_of_getElem?_remainder {k : Nat} {s : Step}
    (hs : (remainder steps done)[k]? = some s) :
    ∃ i s₀, (remainingPlaces steps done)[k]? = some i ∧ steps[i]? = some s₀ ∧
      s = moved (remainingPlaces steps done) k s₀ := by
  rw [getElem?_remainder] at hs
  obtain ⟨i, hi, hs⟩ := Option.bind_eq_some_iff.mp hs
  obtain ⟨s₀, hs₀, rfl⟩ := Option.map_eq_some_iff.mp hs
  exact ⟨i, s₀, hi, hs₀, rfl⟩

theorem exists_of_mem_remainder {s : Step} (hs : s ∈ remainder steps done) :
    ∃ (k i : Nat) (s₀ : Step), (remainingPlaces steps done)[k]? = some i ∧ steps[i]? = some s₀ ∧
      s = moved (remainingPlaces steps done) k s₀ := by
  obtain ⟨k, hk⟩ := List.mem_iff_getElem?.mp hs
  exact ⟨k, exists_of_getElem?_remainder hk⟩

/-- Nothing remains once every step is done. -/
theorem remainder_eq_nil (h : ∀ i < steps.length, i ∈ done) : remainder steps done = [] := by
  have hnone : remainingPlaces steps done = [] :=
    List.eq_nil_iff_forall_not_mem.mpr fun i hi =>
      (mem_remainingPlaces.mp hi).2 (h i (mem_remainingPlaces.mp hi).1)
  rw [remainder, hnone]
  rfl

variable {planned : List Change}

/-- The places that remain are those of the changes that remain. -/
theorem getElem?_filter_carried (hchange : steps.map Step.change = planned)
    (hnodup : planned.Nodup) (k : Nat) :
    (planned.filter (! (carried steps done).contains ·))[k]? =
      (remainingPlaces steps done)[k]?.bind (planned[·]?) := by
  have hlength : steps.length = planned.length := by rw [← hchange, List.length_map]
  have hsome : ∀ i ∈ remainingPlaces steps done, (planned[i]?).isSome := by
    intro i hi
    have hlt := (mem_remainingPlaces.mp hi).1
    rw [hlength] at hlt
    rw [List.getElem?_eq_getElem hlt]
    rfl
  rw [← getElem?_filterMap_of_isSome hsome]
  refine congrArg (·[k]?) ?_
  conv_lhs => rw [← filterMap_getElem?_range planned]
  rw [remainingPlaces, List.filterMap_filter, List.filter_filterMap, hlength]
  refine List.filterMap_congr fun i hi => ?_
  obtain ⟨c, hc⟩ : ∃ c, planned[i]? = some c :=
    ⟨_, List.getElem?_eq_getElem (List.mem_range.mp hi)⟩
  -- No two steps make one change, so a change tells its step.
  have hcarried : c ∈ carried steps done ↔ i ∈ done := by
    rw [mem_carried, hchange]
    constructor
    · rintro ⟨j, hj, hc'⟩
      rw [eq_of_getElem?_of_nodup hnodup hc hc']
      exact hj
    · exact fun hi => ⟨i, hi, hc⟩
  by_cases hdone : i ∈ done
  · simp [hc, hdone, hcarried]
  · simp [hc, hdone, hcarried]

/-- The new places of the steps that a remaining step requires. -/
theorem mem_requires_moved {places : List Nat} (hnodup : places.Nodup) {position : Nat} {s : Step}
    {j : Nat} : j ∈ (moved places position s).requires ↔
      ∃ i ∈ s.requires, places[j]? = some i := by
  simp only [moved, List.mem_filterMap, idxOf?_eq_some_of_nodup hnodup]

theorem ascending_requires_moved {places : List Nat} (hplaces : places.Pairwise (· < ·))
    {position : Nat} {s : Step} (hs : s.requires.Pairwise (· < ·)) :
    (moved places position s).requires.Pairwise (· < ·) := by
  have hnodup : places.Nodup := hplaces.imp Nat.ne_of_lt
  refine List.pairwise_filterMap.mpr (hs.imp fun {i i'} hlt j hj j' hj' => ?_)
  obtain ⟨hj, hi⟩ := List.getElem?_eq_some_iff.mp ((idxOf?_eq_some_of_nodup hnodup).mp hj)
  obtain ⟨hj', hi'⟩ := List.getElem?_eq_some_iff.mp ((idxOf?_eq_some_of_nodup hnodup).mp hj')
  -- Places in the wrong order would hold old places in the wrong order.
  refine Nat.lt_of_not_le fun hle => ?_
  rcases Nat.lt_or_eq_of_le hle with hlt' | rfl
  · have := List.pairwise_iff_getElem.mp hplaces j' j hj' hj hlt'
    omega
  · omega

/-- A remaining step requires what its change still awaits. -/
theorem Realizes.mem_requires_remainder {kept : List Change}
    (h : Realizes r actions planned steps) (hnodup : planned.Nodup)
    (hkept : kept = planned.filter (! (carried steps done).contains ·))
    (hawaits : ∀ c ∈ kept, ∀ c' ∈ kept,
      (Awaits r.snapshot kept c c' ↔ Awaits r.snapshot planned c c'))
    {k i j : Nat} {s : Step} (hi : (remainingPlaces steps done)[k]? = some i)
    (hs : steps[i]? = some s) : j ∈ (moved (remainingPlaces steps done) k s).requires ↔
      ∃ c, kept[j]? = some c ∧ Awaits r.snapshot kept s.change c := by
  have hget : ∀ k, kept[k]? = (remainingPlaces steps done)[k]?.bind (planned[·]?) :=
    hkept ▸ getElem?_filter_carried h.change hnodup
  have hmem := List.mem_of_getElem? hs
  have hstays : s.change ∈ kept := by
    refine List.mem_of_getElem? (i := k) ?_
    rw [hget, hi]
    exact h.planned_getElem? hs
  rw [mem_requires_moved (nodup_remainingPlaces steps done)]
  constructor
  · rintro ⟨i', hi', hj⟩
    obtain ⟨c, hc, hbefore⟩ := (h.requires s hmem i').mp hi'
    have hc' : kept[j]? = some c := by
      rw [hget, hj]
      exact hc
    exact ⟨c, hc', (hawaits _ hstays c (List.mem_of_getElem? hc')).mpr hbefore⟩
  · rintro ⟨c, hc, hafter⟩
    have hbefore := (hawaits _ hstays c (List.mem_of_getElem? hc)).mp hafter
    rw [hget] at hc
    obtain ⟨i', hj, hc⟩ := Option.bind_eq_some_iff.mp hc
    exact ⟨i', (h.requires s hmem i').mpr ⟨c, hc, hbefore⟩, hj⟩

/-- **Some of the steps realize their part of a plan**, if the changes that are kept wait for
each other as before and are asked for as before. -/
theorem Realizes.remaining {kept : List Change} {actions' : List Action}
    (h : Realizes r actions planned steps) (hnodup : planned.Nodup)
    (hkept : kept = planned.filter (! (carried steps done).contains ·))
    (hactions : ∀ c ∈ kept,
      ((⟨c.2.2, c.2.1, c.1⟩ : Action) ∈ actions ↔ (⟨c.2.2, c.2.1, c.1⟩ : Action) ∈ actions'))
    (hawaits : ∀ c ∈ kept, ∀ c' ∈ kept,
      (Awaits r.snapshot kept c c' ↔ Awaits r.snapshot planned c c')) :
    Realizes r actions' kept (remainder steps done) := by
  have hchange : (Provision.Plan.remainder steps done).map Step.change = kept := by
    refine List.ext_getElem? fun k => ?_
    rw [List.getElem?_map, getElem?_remainder, hkept, getElem?_filter_carried h.change hnodup,
      ← h.change]
    cases (remainingPlaces steps done)[k]? with
    | none => rfl
    | some i =>
      simp only [Option.bind_some, Option.map_map, List.getElem?_map]
      rfl
  constructor
  case change => exact hchange
  case order =>
    intro k s hs
    obtain ⟨i, s₀, -, -, rfl⟩ := exists_of_getElem?_remainder hs
    rfl
  case version =>
    intro s hs
    obtain ⟨k, i, s₀, -, hs₀, rfl⟩ := exists_of_mem_remainder hs
    exact h.version s₀ (List.mem_of_getElem? hs₀)
  case explicit =>
    intro s hs
    have hstays : s.change ∈ kept := hchange ▸ List.mem_map_of_mem hs
    obtain ⟨k, i, s₀, -, hs₀, rfl⟩ := exists_of_mem_remainder hs
    exact (h.explicit s₀ (List.mem_of_getElem? hs₀)).trans (hactions _ hstays)
  case requires =>
    intro s hs j
    obtain ⟨k, i, s₀, hi, hs₀, rfl⟩ := exists_of_mem_remainder hs
    exact h.mem_requires_remainder hnodup hkept hawaits hi hs₀
  case ascending =>
    intro s hs
    obtain ⟨k, i, s₀, -, hs₀, rfl⟩ := exists_of_mem_remainder hs
    exact ascending_requires_moved (ascending_remainingPlaces steps done)
      (h.ascending s₀ (List.mem_of_getElem? hs₀))

/-- **The remainder realizes what remains of the plan.** -/
theorem Realizes.remainder (h : Realizes r actions (r.planned actions) steps)
    (hadvanced : Advanced r now actions (carried steps done)) :
    Realizes { r with status := now } actions
      ((r.planned actions).filter (! (carried steps done).contains ·)) (remainder steps done) := by
  have hremaining := h.remaining (r.nodup_planned actions) rfl (fun _ _ => Iff.rfl)
    fun _ hc _ hc' => hadvanced.awaits_iff hc hc'
  exact hremaining.of_snapshot rfl

/-! ## Stores that some steps were applied to -/

/-- The store after the steps at some places have been carried out, one after the other. -/
def carryOutAll (start : ScriptedStore) (steps : List Step) (done : List Nat) : ScriptedStore :=
  (done.filterMap (steps[·]?)).foldl ScriptedStore.carryOut start

theorem after_carryOutAll (start : ScriptedStore) (hunopposed : Unopposed steps)
    (done : List Nat) : After steps start done (carryOutAll start steps done) := by
  induction done using List.reverseRecOn with
  | nil => exact After.refl steps start
  | append_singleton done i ih =>
    have hmem : ∀ c, c ∈ carried steps (done ++ [i]) ↔ c ∈ carried steps (i :: done) := by
      intro c
      simp only [mem_carried, List.mem_append, List.mem_cons, List.not_mem_nil, or_false]
      exact exists_congr fun k => and_congr_left fun _ => or_comm
    rw [carryOutAll, List.filterMap_append, List.foldl_append]
    cases hi : steps[i]? with
    | none =>
      have hnone : carried steps (i :: done) = carried steps done := by
        rw [carried, List.filterMap_cons, hi]
        rfl
      rw [List.filterMap_cons, hi]
      exact ih.congr fun c => (hmem c).trans (by rw [hnone])
    | some step =>
      rw [List.filterMap_cons, hi]
      exact (ih.carryOut hunopposed hi).congr hmem

theorem unopposed_of_resolve (hfaithful : r.snapshot.Faithful)
    (h : r.resolve actions = .ok steps) : Unopposed steps :=
  (realizes_planned_of_resolve hfaithful h).unopposed (granted_of_resolve h).1 (List.Perm.refl _)

variable {snapshot : Snapshot} {start s : ScriptedStore} {cascade : Bool}

/-- **A store that some steps were applied to has advanced.** -/
theorem advanced_of_after (hfaithful : snapshot.Faithful) (htells : start.Tells)
    (hresolve : (Resolver.ofStore snapshot start cascade).resolve actions = .ok steps)
    (hclosed : RequiresClosed steps done) (hafter : After steps start done s) :
    Advanced (Resolver.ofStore snapshot start cascade) (fun key target => s.status key target)
      actions (carried steps done) := by
  have hgranted := (granted_of_resolve hresolve).1
  have hfeasible := feasible_of_resolve hfaithful hresolve
  have hrealizes := realizes_planned_of_resolve hfaithful hresolve
  have htells' := hafter.tells htells
  constructor
  case known => exact fun key target reason => htells'.ne_unknown reason
  case upToDate =>
    intro key target hneeded
    have hstays : (key, target, ActionKind.uninstall) ∉ carried steps done :=
      fun h => (hgranted.compatible key target hneeded).2 (hrealizes.planned_of_carried h)
    change s.status key target = .upToDate ↔ start.status key target = .upToDate ∨ _
    rw [htells'.upToDate_iff, htells.upToDate_iff]
    by_cases hnew : (key, target, ActionKind.install) ∈ carried steps done
    · simp [hafter.installed key target hnew, hnew]
    · simp [hafter.kept key target hnew hstays, hnew]
  case isInstalled =>
    intro root target ha key hreach
    have hnew : (key, target, ActionKind.install) ∉ carried steps done := by
      intro h
      obtain ⟨⟨root', ha', hreach'⟩, -⟩ := (mem_planned_install _).mp (hrealizes.planned_of_carried h)
      exact hfeasible.disjoint root' target ha' key hreach' root ha hreach
    change (s.status key target).isInstalled = true ↔
      (start.status key target).isInstalled = true ∧ _
    rw [htells'.isInstalled_iff, htells.isInstalled_iff]
    by_cases hgone : (key, target, ActionKind.uninstall) ∈ carried steps done
    · simp [hafter.removed key target hgone, hgone]
    · simp [hafter.kept key target hnew hgone, hgone]
  case planned => exact fun c hc => hrealizes.planned_of_carried hc
  case closed => exact fun c hc c' hc' hawaits => hrealizes.mem_carried hclosed hc hc' hawaits

/-- **Resolving again yields the remaining steps.** -/
theorem resolve_of_after (hfaithful : snapshot.Faithful) (htells : start.Tells)
    (hresolve : (Resolver.ofStore snapshot start cascade).resolve actions = .ok steps)
    (hclosed : RequiresClosed steps done) (hafter : After steps start done s) :
    (Resolver.ofStore snapshot s cascade).resolve actions = .ok (remainder steps done) := by
  have hadvanced := advanced_of_after hfaithful htells hresolve hclosed hafter
  have hrealizes := realizes_planned_of_resolve hfaithful hresolve
  have hfeasible := hadvanced.feasible (feasible_of_resolve hfaithful hresolve)
  obtain ⟨steps', hsteps', hrealizes'⟩ := hfeasible.realized hfaithful
  rw [hadvanced.planned_eq hfaithful] at hrealizes'
  obtain rfl := hrealizes'.unique (hrealizes.remainder hadvanced)
  exact hsteps'

/-- A request can be taken up again wherever applying its steps has stopped. -/
theorem resolve_of_applying (hfaithful : snapshot.Faithful) (htells : start.Tells)
    (hresolve : (Resolver.ofStore snapshot start cascade).resolve actions = .ok steps)
    {id : UInt32} (hrun : Applying snapshot id steps start done s) :
    (Resolver.ofStore snapshot s cascade).resolve actions = .ok (remainder steps done) :=
  resolve_of_after hfaithful htells hresolve hrun.requiresClosed
    (hrun.after (unopposed_of_resolve hfaithful hresolve))

/-- **Resolving again yields the remaining steps**, whichever steps have been carried out, as
long as they hold what they require; nothing remains when all have been. -/
theorem resolve_carryOutAll (snapshot : Snapshot) (hfaithful : snapshot.Faithful)
    (start : ScriptedStore) (htells : start.Tells) (actions : List Action) (cascade : Bool)
    (steps : List Step)
    (hresolve : (Resolver.ofStore snapshot start cascade).resolve actions = .ok steps)
    (done : List Nat) (hclosed : RequiresClosed steps done) :
    (Resolver.ofStore snapshot (carryOutAll start steps done) cascade).resolve actions =
        .ok (remainder steps done) ∧
      ((∀ i < steps.length, i ∈ done) → remainder steps done = []) := by
  have hafter := after_carryOutAll start (unopposed_of_resolve hfaithful hresolve) done
  exact ⟨resolve_of_after hfaithful htells hresolve hclosed hafter, remainder_eq_nil⟩

/-- The sample request once the library's base has been updated and the tool removed. -/
theorem sample_resolve_carryOutAll :
    RequiresClosed Sample.steps [2, 0] ∧
      (Resolver.ofStore Sample.snapshot (carryOutAll Sample.store Sample.steps [2, 0])
        true).resolve Sample.request =
        .ok [⟨Sample.named "app", .user, .install, ⟨0, "2"⟩, true, 0, []⟩,
          ⟨Sample.named "base", .system, .uninstall, ⟨0, "2"⟩, true, 1, []⟩] := by
  have hclosed : RequiresClosed Sample.steps [2, 0] := by decide
  exact ⟨hclosed, (resolve_carryOutAll Sample.snapshot Sample.faithful Sample.store ⟨rfl, rfl⟩
    Sample.request true Sample.steps Sample.resolve_request [2, 0] hclosed).1⟩

end Provision.Plan
