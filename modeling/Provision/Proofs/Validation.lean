import Provision.Proofs.Distinct
import Provision.Validation

/-!
# Requests that contradict themselves

A list of changes is `Contradictory` if it has both kinds for one package at one target, and then
one of its changes is the first that opposes an earlier one (`FirstOpposing`).  A search goes
through the list with the kinds wanted so far, and all that matters about these is that they are
the changes behind it (`Tells`).  So the search for a contradiction and the validation of a request
find the same change, although they keep different lists (`findContradiction?_eq_some_iff`,
`validate_eq_error_iff`); and a request that is accepted is answered with each of its actions
where it stands first (`validate_eq_ok_iff`).
-/
namespace Provision

theorem Action.change_inj {a b : Action} : a.change = b.change ↔ a = b := by
  cases a
  cases b
  simp only [change, Prod.mk.injEq, mk.injEq]
  constructor
  · rintro ⟨rfl, rfl, rfl⟩
    exact ⟨rfl, rfl, rfl⟩
  · rintro ⟨rfl, rfl, rfl⟩
    exact ⟨rfl, rfl, rfl⟩

theorem Action.mem_map_change {actions : List Action} {key : PackageKey} {target : Target}
    {kind : ActionKind} :
    (key, target, kind) ∈ actions.map change ↔ (⟨kind, target, key⟩ : Action) ∈ actions :=
  List.mem_map_of_injective (f := change) (fun _ _ => change_inj.mp) (a := ⟨kind, target, key⟩)

namespace Validation

variable {changes front rest : List Change} {actions before after kept : List Action} {c : Change}
  {key other : PackageKey} {target : Target} {kind : ActionKind} {seen : Wanted}
  {cause : TransactionError}

/-- **Both kinds are wanted for one package at one target.** -/
def Contradictory (changes : List Change) : Prop :=
  ∃ key target, (key, target, .install) ∈ changes ∧ (key, target, .uninstall) ∈ changes

/-- **The first change that opposes an earlier one** is a change of the package `key`. -/
def FirstOpposing (changes : List Change) (key : PackageKey) : Prop :=
  ∃ front target kind rest, changes = front ++ (key, target, kind) :: rest ∧
    (∃ opposite, opposite ≠ kind ∧ (key, target, opposite) ∈ front) ∧ ¬ Contradictory front

/-- There are no more than two kinds. -/
theorem both_of_ne {kind' : ActionKind} (hne : kind ≠ kind')
    (h : (key, target, kind) ∈ changes) (h' : (key, target, kind') ∈ changes) :
    (key, target, .install) ∈ changes ∧ (key, target, .uninstall) ∈ changes := by
  cases kind <;> cases kind'
  · exact absurd rfl hne
  · exact ⟨h, h'⟩
  · exact ⟨h', h⟩
  · exact absurd rfl hne

theorem Contradictory.mono {changes' : List Change} (h : Contradictory changes)
    (hsubset : changes ⊆ changes') : Contradictory changes' := by
  obtain ⟨key, target, hinstall, huninstall⟩ := h
  exact ⟨key, target, hsubset hinstall, hsubset huninstall⟩

namespace FirstOpposing

/-- Both kinds are wanted for the package that is found. -/
theorem exists_both (h : FirstOpposing changes key) : ∃ target,
    (key, target, .install) ∈ changes ∧ (key, target, .uninstall) ∈ changes := by
  obtain ⟨front, target, kind, rest, rfl, ⟨opposite, hne, hmem⟩, -⟩ := h
  exact ⟨target, both_of_ne hne (List.mem_append_left _ hmem)
    (List.mem_append_right _ List.mem_cons_self)⟩

theorem contradictory (h : FirstOpposing changes key) : Contradictory changes :=
  ⟨key, h.exists_both⟩

/-- There is one first change. -/
theorem unique (h : FirstOpposing changes key) (h' : FirstOpposing changes other) :
    key = other := by
  obtain ⟨front, target, kind, rest, rfl, hopposite, hclear⟩ := h
  obtain ⟨front', target', kind', rest', heq, hopposite', hclear'⟩ := h'
  -- What stands before the one change does not go on past the other.
  have hover {front front' : List Change} {key target kind}
      (hopposite : ∃ opposite, opposite ≠ kind ∧ (key, target, opposite) ∈ front)
      (hfront : front ++ [(key, target, kind)] <+: front') : Contradictory front' := by
    obtain ⟨opposite, hne, hmem⟩ := hopposite
    exact ⟨key, target, both_of_ne hne (hfront.subset (List.mem_append_left _ hmem))
      (hfront.subset (List.mem_append_right _ List.mem_cons_self))⟩
  rcases List.append_eq_append_iff.mp heq with ⟨mid, rfl, hmid⟩ | ⟨mid, rfl, hmid⟩
  · cases mid with
    | nil => exact congrArg Prod.fst (List.cons.inj hmid).1
    | cons c mid =>
      obtain ⟨rfl, -⟩ := List.cons.inj hmid
      exact absurd (hover hopposite ⟨mid, by simp⟩) hclear'
  · cases mid with
    | nil => exact (congrArg Prod.fst (List.cons.inj hmid).1).symm
    | cons c mid =>
      obtain ⟨rfl, -⟩ := List.cons.inj hmid
      exact absurd (hover hopposite' ⟨mid, by simp⟩) hclear

end FirstOpposing

/-! ## What has been seen -/

/-- **The kinds wanted so far are those of the changes in `front`.** -/
def Tells (seen : Wanted) (front : List Change) : Prop :=
  ∀ key target kind, seen.lookup (key, target) = some kind ↔ (key, target, kind) ∈ front

namespace Tells

theorem nil : Tells [] [] := by
  simp [Tells]

theorem not_contradictory (h : Tells seen front) : ¬ Contradictory front := by
  rintro ⟨key, target, hinstall, huninstall⟩
  cases ((h key target _).mpr hinstall).symm.trans ((h key target _).mpr huninstall)

/-- A change that opposes none of those behind it is seen. -/
theorem next (h : Tells seen front)
    (hc : ∀ kind, seen.lookup (c.1, c.2.1) = some kind → kind = c.2.2) :
    Tells (((c.1, c.2.1), c.2.2) :: seen) (front ++ [c]) := by
  intro key target kind
  rw [List.lookup_cons, List.mem_append, List.mem_singleton]
  split
  · rename_i hplace
    obtain ⟨rfl, rfl⟩ := Prod.mk.inj (beq_iff_eq.mp hplace)
    constructor
    · intro hkind
      cases hkind
      exact Or.inr rfl
    · rintro (hmem | heq)
      · rw [hc kind ((h _ _ kind).mpr hmem)]
      · rw [← heq]
  · rename_i hplace
    rw [h key target kind, or_iff_left]
    rintro rfl
    simp at hplace

/-- A change that is seen again need not be kept again. -/
theorem again (h : Tells seen front) (hc : seen.lookup (c.1, c.2.1) = some c.2.2) :
    Tells seen (front ++ [c]) := by
  intro key target kind
  rw [h key target kind, List.mem_append, List.mem_singleton, or_iff_left_of_imp]
  rintro rfl
  exact (h _ _ _).mp hc

/-- A change that opposes one of those behind it is the first to do so. -/
theorem firstOpposing (h : Tells seen front) (hc : seen.lookup (c.1, c.2.1) = some kind)
    (hne : kind ≠ c.2.2) : FirstOpposing (front ++ c :: rest) c.1 :=
  ⟨front, c.2.1, c.2.2, rest, rfl, ⟨kind, hne, (h _ _ _).mp hc⟩, h.not_contradictory⟩

end Tells

/-! ## The search -/

/-- What comes of the search from somewhere within a list. -/
theorem findContradictionFrom?_cases (h : Tells seen front) (rest : List Change) :
    match findContradictionFrom? seen rest with
    | some key => FirstOpposing (front ++ rest) key
    | none => ¬ Contradictory (front ++ rest) := by
  induction rest generalizing seen front with
  | nil =>
    rw [findContradictionFrom?, List.append_nil]
    exact h.not_contradictory
  | cons c rest ih =>
    obtain ⟨key, target, kind⟩ := c
    have hnext (hc : ∀ previous, seen.lookup (key, target) = some previous → previous = kind) :
        match findContradictionFrom? (((key, target), kind) :: seen) rest with
        | some key' => FirstOpposing (front ++ (key, target, kind) :: rest) key'
        | none => ¬ Contradictory (front ++ (key, target, kind) :: rest) := by
      rw [List.append_cons]
      exact ih (h.next (c := (key, target, kind)) hc)
    rw [findContradictionFrom?]
    cases hseen : seen.lookup (key, target) with
    | none => exact hnext (by simp [hseen])
    | some previous =>
      by_cases hkind : previous = kind
      · simp only [if_pos hkind]
        exact hnext (by simp [hseen, hkind])
      · simp only [if_neg hkind]
        exact h.firstOpposing (c := (key, target, kind)) hseen hkind

/-- **What is searched for.** -/
theorem findContradiction?_eq_some_iff :
    findContradiction? changes = some key ↔ FirstOpposing changes key := by
  have hcases := findContradictionFrom?_cases Tells.nil changes
  rw [List.nil_append, ← findContradiction?] at hcases
  constructor
  · intro h
    rwa [h] at hcases
  · intro h
    cases hfound : findContradiction? changes with
    | none =>
      rw [hfound] at hcases
      exact absurd h.contradictory hcases
    | some other =>
      rw [hfound] at hcases
      rw [h.unique hcases]

theorem findContradiction?_eq_none_iff :
    findContradiction? changes = none ↔ ¬ Contradictory changes := by
  have hcases := findContradictionFrom?_cases Tells.nil changes
  rw [List.nil_append, ← findContradiction?] at hcases
  cases hfound : findContradiction? changes with
  | none =>
    rw [hfound] at hcases
    exact iff_of_true rfl hcases
  | some key =>
    rw [hfound] at hcases
    exact iff_of_false nofun (not_not_intro hcases.contradictory)

/-! ## The validation -/

/-- What comes of the validation from somewhere within a request. -/
theorem validateFrom_cases (h : Tells seen (before.map Action.change)) (after : List Action) :
    match validateFrom seen after with
    | .error cause => ∃ key, cause = .contradiction key ∧
        FirstOpposing ((before ++ after).map Action.change) key
    | .ok kept => ¬ Contradictory ((before ++ after).map Action.change) ∧
        (before ++ after).eraseDups = before.eraseDups ++ kept := by
  induction after generalizing seen before with
  | nil =>
    rw [validateFrom, List.append_nil]
    exact ⟨h.not_contradictory, (List.append_nil _).symm⟩
  | cons a after ih =>
    rw [validateFrom]
    cases hseen : seen.lookup (a.key, a.target) with
    | none =>
      have hnew : a ∉ before := fun ha => by
        cases hseen.symm.trans ((h a.key a.target a.kind).mpr (List.mem_map_of_mem ha))
      have htells : Tells (((a.key, a.target), a.kind) :: seen)
          ((before ++ [a]).map Action.change) := by
        rw [List.map_append]
        exact h.next (c := a.change) fun kind hkind => nomatch hseen.symm.trans hkind
      have hrest := ih htells
      rw [eraseDups_concat, if_neg hnew, ← List.append_cons] at hrest
      dsimp only
      revert hrest
      cases validateFrom (((a.key, a.target), a.kind) :: seen) after with
      | error cause => exact id
      | ok kept => exact fun hrest => ⟨hrest.1, hrest.2.trans (List.append_cons ..).symm⟩
    | some kind =>
      by_cases hkind : kind = a.kind
      · have htells : Tells seen ((before ++ [a]).map Action.change) := by
          rw [List.map_append]
          exact h.again (c := a.change) (hseen.trans (congrArg some hkind))
        have hrest := ih htells
        have hold : a ∈ before :=
          Action.mem_map_change.mp ((h _ _ _).mp (hseen.trans (congrArg some hkind)))
        rw [eraseDups_concat, if_pos hold, ← List.append_cons] at hrest
        simpa only [if_pos hkind] using hrest
      · simp only [if_neg hkind]
        refine ⟨a.key, rfl, ?_⟩
        rw [List.map_append, List.map_cons]
        exact h.firstOpposing (c := a.change) hseen hkind

theorem validate_cases (actions : List Action) :
    match validate actions with
    | .error cause => ∃ key, cause = .contradiction key ∧
        FirstOpposing (actions.map Action.change) key
    | .ok kept => ¬ Contradictory (actions.map Action.change) ∧ actions.eraseDups = kept := by
  have hstart : Tells [] (([] : List Action).map Action.change) := .nil
  have hcases := validateFrom_cases hstart actions
  rwa [List.nil_append, List.eraseDups_nil] at hcases

/-- **Which requests are accepted, and what is left of them.** -/
theorem validate_eq_ok_iff : validate actions = .ok kept ↔
    ¬ Contradictory (actions.map Action.change) ∧ kept = actions.eraseDups := by
  have hcases := validate_cases actions
  cases hanswer : validate actions with
  | error cause =>
    rw [hanswer] at hcases
    obtain ⟨key, -, hfirst⟩ := hcases
    exact iff_of_false nofun fun h => h.1 hfirst.contradictory
  | ok kept' =>
    rw [hanswer] at hcases
    obtain ⟨hclear, heq⟩ := hcases
    rw [heq]
    exact ⟨fun h => ⟨hclear, (Except.ok.inj h).symm⟩, fun h => congrArg Except.ok h.2.symm⟩

/-- **Which requests are refused, and on account of which package.** -/
theorem validate_eq_error_iff : validate actions = .error cause ↔
    ∃ key, cause = .contradiction key ∧ FirstOpposing (actions.map Action.change) key := by
  have hcases := validate_cases actions
  cases hanswer : validate actions with
  | error cause' =>
    rw [hanswer] at hcases
    obtain ⟨key, rfl, hfirst⟩ := hcases
    constructor
    · intro h
      cases h
      exact ⟨key, rfl, hfirst⟩
    · rintro ⟨other, rfl, hother⟩
      rw [hfirst.unique hother]
  | ok kept =>
    rw [hanswer] at hcases
    refine iff_of_false nofun ?_
    rintro ⟨key, -, hfirst⟩
    exact hcases.1 hfirst.contradictory

/-- Validation keeps the actions of a request. -/
theorem mem_of_validate (h : validate actions = .ok kept) {a : Action} :
    a ∈ kept ↔ a ∈ actions := by
  rw [(validate_eq_ok_iff.mp h).2, List.mem_eraseDups]

/-- **Validation and the search agree.**  A request is refused exactly if it asks for both kinds
for one package at one target, and then on account of the first action that opposes an earlier
one, which is also what the search finds.  Otherwise the search finds nothing, and the answer
holds each action where it stands first; it is accepted as it is. -/
theorem validate_agrees (actions : List Action) :
    ((∃ cause, validate actions = .error cause) ↔ ∃ key target,
      (⟨.install, target, key⟩ : Action) ∈ actions ∧ ⟨.uninstall, target, key⟩ ∈ actions) ∧
    match validate actions with
    | .error cause => ∃ key, cause = .contradiction key ∧
        FirstOpposing (actions.map Action.change) key ∧
        findContradiction? (actions.map Action.change) = some key
    | .ok kept => findContradiction? (actions.map Action.change) = none ∧
        kept = actions.eraseDups ∧ validate kept = .ok kept := by
  have hcontradictory : Contradictory (actions.map Action.change) ↔ ∃ key target,
      (⟨.install, target, key⟩ : Action) ∈ actions ∧ ⟨.uninstall, target, key⟩ ∈ actions := by
    simp only [Contradictory, Action.mem_map_change]
  rw [← hcontradictory]
  cases hanswer : validate actions with
  | error cause =>
    obtain ⟨key, rfl, hfirst⟩ := validate_eq_error_iff.mp hanswer
    exact ⟨iff_of_true ⟨_, rfl⟩ hfirst.contradictory, key, rfl, hfirst,
      findContradiction?_eq_some_iff.mpr hfirst⟩
  | ok kept =>
    obtain ⟨hclear, rfl⟩ := validate_eq_ok_iff.mp hanswer
    refine ⟨iff_of_false (fun ⟨_, h⟩ => nomatch h) hclear, findContradiction?_eq_none_iff.mpr hclear,
      rfl, validate_eq_ok_iff.mpr ⟨fun h => hclear (h.mono ?_), ?_⟩⟩
    · exact List.map_subset _ fun a ha => List.mem_eraseDups.mp ha
    · rw [eraseDups_of_nodup (nodup_eraseDups actions)]

end Validation
end Provision
