import Provision.Proofs.Files.Disk

/-!
# Making a directory with the ones it lies in

A path may lead into a directory as far as some place and be missing from there on (`Missing`).
Then the missing directories are made one in the other (`Grown`): nothing else changes, nothing
stood where one is made, and if the work does not fail, the path leads to where it would
(`meets_makeDirectories`).
-/
namespace Provision

open FileSystem
open Provision.Path (Ordinary Fits)

variable {fs fs' : FileSystem} {p q path : Path} {place x : Location} {name : FileName}
  {names missing made : List FileName} {above : List Path}

namespace FileSystem

/-! ## Directories that are made one in the other -/

/-- **Directories have been made**, one in the other, along names at which nothing stood. -/
inductive Grown (fs : FileSystem) (place : Location) : List FileName → FileSystem → Prop
  | refl : Grown fs place [] fs
  | make {names : List FileName} {fs' : FileSystem} {name : FileName}
      (h : Grown fs place names fs') (hplace : fs'.get? (place ++ names) = some .directory)
      (hfree : fs'.get? (place ++ names ++ [name]) = none) :
      Grown fs place (names ++ [name]) (fs'.put (place ++ names ++ [name]) .directory)

namespace Grown

theorem sameExcept (h : Grown fs place names fs') :
    SameExcept (fun x => ∃ front, front ≠ [] ∧ front <+: names ∧ x = place ++ front) fs fs' := by
  induction h with
  | refl => exact .refl _ _
  | @make names fs' name h hplace hfree ih =>
    have hmade : SameExcept (· = place ++ names ++ [name]) fs'
        (fs'.put (place ++ names ++ [name]) .directory) := sameExcept_put (by simp)
    refine (ih.mono ?_).trans (hmade.mono ?_)
    · rintro x ⟨front, hne, hfront, rfl⟩
      exact ⟨front, hne, hfront.trans (List.prefix_append _ _), rfl⟩
    · rintro x rfl
      exact ⟨names ++ [name], by simp, List.prefix_rfl, List.append_assoc ..⟩

/-- Where a directory was made, nothing stood before. -/
theorem get? (h : Grown fs place names fs') {front : List FileName} (hne : front ≠ [])
    (hfront : front <+: names) :
    fs.get? (place ++ front) = none ∧ fs'.get? (place ++ front) = some .directory := by
  induction h with
  | refl => exact absurd (List.prefix_nil.mp hfront) hne
  | @make names fs' name h hplace hfree ih =>
    rw [get?_put (by simp)]
    rcases List.prefix_concat_iff.mp hfront with rfl | hfront
    · rw [← List.append_assoc, if_pos rfl, ← h.sameExcept.get?]
      · exact ⟨hfree, rfl⟩
      · rintro ⟨front, -, hstarts, heq⟩
        obtain rfl := List.append_cancel_left ((List.append_assoc ..).symm.trans heq)
        exact not_concat_isPrefix _ _ hstarts
    · obtain ⟨hnone, hsome⟩ := ih hfront
      rw [if_neg, hsome]
      · exact ⟨hnone, rfl⟩
      · rintro heq
        rw [heq, hfree] at hsome
        cases hsome

theorem get?_eq_or (h : Grown fs place names fs') (x : Location) :
    fs'.get? x = fs.get? x ∨ fs'.get? x = some .directory := by
  by_cases hx : ∃ front, front ≠ [] ∧ front <+: names ∧ x = place ++ front
  · obtain ⟨front, hne, hfront, rfl⟩ := hx
    exact Or.inr (h.get? hne hfront).2
  · exact Or.inl (h.sameExcept.get? x hx)

theorem grounded (h : Grown fs place names fs') {root : Location} (hfs : Grounded root fs) :
    Grounded root fs' := by
  induction h with
  | refl => exact hfs
  | make h hplace hfree ih => exact ih.put hplace hfree

end Grown

/-- **Names along a path at which nothing stands**: the path leads as far as `place`, if it leads
anywhere, and the names are missing from there on. -/
inductive Missing (fs : FileSystem) (place : Location) : Path → List FileName → Prop
  | present {p : Path} (hp : p.bytes = [] ∨ Present fs p ∧ p.trimmed = p)
      (hplace : ∀ goal, Enters fs p goal → goal = place) : Missing fs place p []
  | child {p : Path} {missing : List FileName} {name : FileName}
      (hname : Ordinary name) (habsent : ¬ Present fs (p.join ⟨name⟩))
      (habove : Fits (p.join ⟨name⟩) → Missing fs place p.normal missing) :
      Missing fs place (p.join ⟨name⟩) (missing ++ [name])

/-- A directory that a path leads into has nothing missing before it. -/
theorem Missing.of_enters {name : FileName} (hp : Enters fs p place) (hname : Ordinary name)
    (hfits : Fits (p.join ⟨name⟩)) : Missing fs place p.normal [] := by
  have hnormal := enters_normal_iff.mpr hp
  refine .present ?_ fun goal hgoal => hgoal.unique hnormal
  by_cases hnil : p.normal.bytes = []
  · exact Or.inl hnil
  · exact Or.inr ⟨hnormal.present (hfits.normal_of_child hname hnil), Path.trimmed_normal p⟩

/-- A path with one more name, which leads to where the names say if it leads anywhere. -/
theorem Missing.join (hname : Ordinary name)
    (habove : Fits (p.join ⟨name⟩) → Missing fs place p.normal missing)
    (hp : ∀ goal, Enters fs (p.join ⟨name⟩) goal → goal = place ++ (missing ++ [name])) :
    ∃ mid more, mid ++ more = place ++ (missing ++ [name]) ∧ place <+: mid ∧
      Missing fs mid (p.join ⟨name⟩) more := by
  by_cases hpresent : Present fs (p.join ⟨name⟩)
  · exact ⟨_, [], List.append_nil _, List.prefix_append _ _,
      .present (Or.inr ⟨hpresent, Path.trimmed_child hname⟩) hp⟩
  · exact ⟨place, missing ++ [name], rfl, List.prefix_rfl, .child hname hpresent habove⟩

theorem Missing.present_of_nil (h : Missing fs place p []) (hne : p.bytes ≠ []) : Present fs p := by
  generalize hmissing : ([] : List FileName) = missing at h
  cases h with
  | present hp => exact (hp.resolve_left hne).1
  | child => exact absurd hmissing.symm (by simp)

theorem Missing.eq_of_enters (h : Missing fs place p missing) (hfits : p.bytes ≠ [] → Fits p)
    {goal : Location} (hgoal : Enters fs p goal) : missing = [] ∧ goal = place := by
  cases h with
  | present hp hplace => exact ⟨rfl, hplace goal hgoal⟩
  | child hname habsent =>
    exact absurd (hgoal.present (hfits (Path.bytes_child_ne_nil hname))) habsent

/-- A directory is not made where something stands. -/
theorem makeDirectory_of_present (hp : Present fs p.trimmed) :
    fs.makeDirectory p = .error .alreadyExists := by
  obtain ⟨place, hplace, hsome⟩ := present_iff.mp hp
  rw [makeDirectory, freePlace, hplace]
  simp only [bind, Except.bind, hsome]
  rfl

/-- A directory that a path leads into is not made again, nor is anything found missing. -/
theorem Enters.exists_makeDirectory_eq_error (h : Enters fs p place) (hne : p.bytes ≠ []) :
    ∃ cause, fs.makeDirectory p = .error cause ∧ cause ≠ .notFound := by
  by_cases hfits : Fits p.trimmed
  · have hpresent := (enters_trimmed_iff.mpr h).present hfits
    exact ⟨.alreadyExists, makeDirectory_of_present hpresent, by decide⟩
  · rw [makeDirectory, freePlace, locate]
    by_cases hnul : p.trimmed.bytes.contains 0 = true
    · exact ⟨.nulInPath, by rw [if_pos hnul]; rfl, by decide⟩
    · have hlength : longestPath < p.trimmed.bytes.length := by
        refine Nat.not_le.mp fun hle => hfits ⟨by simpa using hnul, ?_, hle⟩
        exact Path.bytes_trimmed_ne_nil hne
      refine ⟨.nameTooLong, ?_, by decide⟩
      rw [if_neg hnul, if_neg (Path.bytes_trimmed_ne_nil hne), if_pos hlength]
      rfl

/-- What is looked for in vain has a path that can be looked for. -/
theorem fits_of_makeDirectory (h : fs.makeDirectory p = .error .notFound)
    (htrimmed : p.trimmed = p) (hne : p.bytes ≠ []) : Fits p := by
  have hlocate : fs.locate p false = .error .notFound := by
    rw [makeDirectory, freePlace, htrimmed] at h
    cases hlocate : fs.locate p false with
    | error cause =>
      rw [hlocate] at h
      exact congrArg Except.error (Except.error.inj h)
    | ok x =>
      rw [hlocate] at h
      cases hentry : (fs.get? x).isSome <;> simp only [bind, Except.bind, hentry] at h <;> cases h
  rw [locate, if_neg hne] at hlocate
  refine ⟨fun hnul => ?_, hne, Nat.not_lt.mp fun hlength => ?_⟩
  · rw [if_pos (by simpa using hnul)] at hlocate
    cases hlocate
  · rw [if_pos hlength] at hlocate
    split at hlocate <;> cases hlocate

namespace Grown

theorem eq_of_nil (h : Grown fs place [] fs') : fs' = fs := by
  generalize hnames : ([] : List FileName) = names at h
  cases h with
  | refl => rfl
  | make => exact absurd hnames.symm (by simp)

/-- All directories have been made: where the path ends there is something. -/
theorem get?_ne_none (h : Grown fs place missing fs')
    (hmissing : Missing fs place (p.join ⟨name⟩) missing) (hname : Ordinary name)
    {goal : Location} (hgoal : ∀ x, Enters fs p x → x = goal)
    (heq : place ++ missing = goal ++ [name]) : fs'.get? (goal ++ [name]) ≠ none := by
  by_cases hnil : missing = []
  · subst hnil
    obtain ⟨x, hx, hsome⟩ :=
      present_iff.mp (hmissing.present_of_nil (Path.bytes_child_ne_nil hname))
    obtain ⟨x, hnames, rfl⟩ := (locate_child_iff hname).mp hx
    obtain rfl := hgoal x hnames.enters
    rw [h.eq_of_nil]
    exact Option.isSome_iff_ne_none.mp hsome
  · rw [← heq, (h.get? hnil List.prefix_rfl).2]
    exact nofun

/-- One more directory is made where the path leads. -/
theorem child (h : Grown fs place names fs') (hp : Enters fs' p (place ++ names))
    (hname : Ordinary name) (hlength : name.length ≤ longestName)
    (hfree : fs'.get? (place ++ names ++ [name]) = none) :
    Grown fs place (names ++ [name]) (fs'.put (place ++ names ++ [name]) .directory) ∧
      ∀ goal, Enters (fs'.put (place ++ names ++ [name]) .directory) (p.join ⟨name⟩) goal →
        goal = place ++ (names ++ [name]) := by
  refine ⟨h.make hp.directory hfree, fun goal hgoal => ?_⟩
  have hput : Enters (fs'.put (place ++ names ++ [name]) .directory) p (place ++ names) :=
    hp.put hfree
  have hchild := hput.child hname hlength (by rw [get?_put (by simp), if_pos rfl])
  rw [hgoal.unique hchild, List.append_assoc]

/-- In a directory that was made there is nothing, so nothing is found in it. -/
theorem not_isDirectory (h : Grown fs place names fs') (hfs : Grounded place fs)
    (hp : ∀ goal, Enters fs' p goal → goal = place ++ names) (hname : Ordinary name)
    (habsent : ¬ Present fs (p.join ⟨name⟩)) : ¬ fs'.isDirectory (p.join ⟨name⟩) = true := by
  intro hdirectory
  obtain ⟨hfits, goal, hgoal⟩ := isDirectory_iff.mp hdirectory
  by_cases hnames : names = []
  · subst hnames
    rw [h.eq_of_nil] at hgoal
    exact habsent (hgoal.present hfits)
  · obtain ⟨hlocate, hentry⟩ := find?_eq_ok_iff.mp (hgoal.find? hfits)
    obtain ⟨-, -, x, hx, hstands⟩ := exists_enters_of_locate hname hlocate
    obtain rfl := hp x hx
    have hnone : fs.get? (place ++ names ++ [name]) = none := by
      refine hfs.get?_eq_none (List.prefix_append _ _) ?_ ⟨name, [], rfl⟩
      rw [(h.get? hnames List.prefix_rfl).1]
      exact nofun
    rw [← h.sameExcept.get?] at hnone
    · rcases hstands with rfl | ⟨-, link, hlink⟩
      · exact nomatch hnone.symm.trans hentry
      · exact nomatch hnone.symm.trans hlink
    · rintro ⟨front, -, hfront, heq⟩
      obtain rfl := List.append_cancel_left ((List.append_assoc ..).symm.trans heq)
      exact not_concat_isPrefix _ _ hfront

end Grown

end FileSystem

namespace Disk

theorem run_makeChain_cons (hpath : path.bytes ≠ []) (fs : FileSystem) :
    makeChain (path :: above) fs = if fs.makeDirectory path = .error .notFound then
      match makeChain above fs with
      | (.ok (), fs') => ensureDirectory path fs'
      | (.error cause, fs') => (.error cause, fs')
    else ensureDirectory path fs := by
  rw [makeChain, if_neg hpath]
  simp only [run_bind, run_look]
  split
  · rename_i heq
    simp only [heq, run_bind]
    rcases makeChain above fs with ⟨_ | ⟨⟩, fs'⟩ <;> rfl
  · rename_i hne
    cases hcall : fs.makeDirectory path with
    | ok fs' => rfl
    | error cause =>
      cases cause with
      | notFound => exact absurd hcall hne
      | _ => rfl

/-- One more directory is made in the ones that have been made. -/
theorem meets_ensureDirectory_of_grown (h : Grown fs place names fs') (hfs : Grounded place fs)
    (hp : ∀ goal, Enters fs' p goal → goal = place ++ names) (hname : Ordinary name)
    (habsent : ¬ Present fs (p.join ⟨name⟩)) :
    Meets (· = fs') (ensureDirectory (p.join ⟨name⟩))
      (fun _ fs'' => Grown fs place (names ++ [name]) fs'' ∧
        ∀ goal, Enters fs'' (p.join ⟨name⟩) goal → goal = place ++ (names ++ [name]))
      (Grown fs place names) := by
  refine ⟨?_⟩
  rintro fs' rfl
  rw [run_ensureDirectory]
  cases hcall : fs'.makeDirectory (p.join ⟨name⟩) with
  | ok fs'' =>
    obtain ⟨x, hx, hfree, rfl⟩ := (makeDirectory_child_iff hname).mp hcall
    obtain rfl := hp x hx.enters
    exact h.child hx.enters hname hx.length_le hfree
  | error cause =>
    simp only [if_neg (h.not_isDirectory hfs hp hname habsent)]
    exact h

/-- If a directory can be made at once, none of those it lies in was missing. -/
theorem meets_ensureDirectory_of_missing (hname : Ordinary name)
    (habsent : ¬ Present fs (p.join ⟨name⟩))
    (habove : Fits (p.join ⟨name⟩) → Missing fs place p.normal missing) :
    Meets (· = fs) (ensureDirectory (p.join ⟨name⟩))
      (fun _ fs' => Grown fs place (missing ++ [name]) fs' ∧
        ∀ goal, Enters fs' (p.join ⟨name⟩) goal → goal = place ++ (missing ++ [name]))
      (· = fs) := by
  refine ⟨?_⟩
  rintro fs rfl
  rw [run_ensureDirectory]
  cases hcall : fs.makeDirectory (p.join ⟨name⟩) with
  | ok fs' =>
    obtain ⟨x, hx, hfree, rfl⟩ := (makeDirectory_child_iff hname).mp hcall
    obtain ⟨rfl, rfl⟩ := (habove hx.fits).eq_of_enters
      (fun hne => hx.fits.normal_of_child hname hne) (enters_normal_iff.mpr hx.enters)
    have hrefl : Grown fs x [] fs := .refl
    have hchild := hrefl.child (by simpa using hx.enters) hname hx.length_le (by simpa using hfree)
    simpa using hchild
  | error cause =>
    have hdirectory : ¬ fs.isDirectory (p.join ⟨name⟩) = true := by
      intro hdirectory
      obtain ⟨hfits, goal, hgoal⟩ := isDirectory_iff.mp hdirectory
      exact habsent (hgoal.present hfits)
    simp only [if_neg hdirectory]

/-- Nothing is made if a directory is refused and not for want of another one. -/
theorem meets_makeChain_of_refused (h : p.bytes ≠ [] →
      ∃ cause, fs.makeDirectory p = .error cause ∧ cause ≠ .notFound) :
    Meets (· = fs) (makeChain p.ancestors) (fun _ => (· = fs)) (· = fs) := by
  refine ⟨?_⟩
  rintro fs rfl
  rw [Path.ancestors]
  by_cases hnil : p.bytes = []
  · rw [makeChain, if_pos hnil]
    rfl
  · obtain ⟨cause, hcall, hne⟩ := h hnil
    rw [run_makeChain_cons hnil, hcall, if_neg (by simpa using hne), run_ensureDirectory, hcall]
    by_cases hdirectory : fs.isDirectory p = true
    · simp only [if_pos hdirectory]
    · simp only [if_neg hdirectory]

/-- A directory that is there is not made again. -/
theorem meets_makeChain_of_present (hp : p.bytes = [] ∨ Present fs p ∧ p.trimmed = p) :
    Meets (· = fs) (makeChain p.ancestors) (fun _ => (· = fs)) (· = fs) := by
  refine meets_makeChain_of_refused fun hnil => ?_
  obtain ⟨hp, htrimmed⟩ := hp.resolve_left hnil
  exact ⟨.alreadyExists, makeDirectory_of_present (htrimmed.symm ▸ hp), by decide⟩

theorem meets_makeDirectories_of_enters (hp : Enters fs p place) :
    Meets (· = fs) (makeDirectories p) (fun _ => (· = fs)) (· = fs) :=
  meets_makeChain_of_refused hp.exists_makeDirectory_eq_error

/-- All is done where the directory is there. -/
theorem makeDirectories_of_enters (hp : Enters fs p place) (hfits : p.bytes ≠ [] → Fits p) :
    makeDirectories p fs = (.ok (), fs) := by
  rw [makeDirectories, Path.ancestors]
  by_cases hnil : p.bytes = []
  · rw [makeChain, if_pos hnil]
    rfl
  · obtain ⟨cause, hcall, hne⟩ := hp.exists_makeDirectory_eq_error hnil
    rw [run_makeChain_cons hnil, hcall, if_neg (by simpa using hne), run_ensureDirectory, hcall]
    exact if_pos (isDirectory_iff.mpr ⟨hfits hnil, place, hp⟩)

/-- **What making a directory with the ones it lies in does.**  The missing directories are made
one in the other, all of them if the work does not fail. -/
theorem meets_makeChain (h : Missing fs place p missing) (hfs : Grounded place fs) :
    Meets (· = fs) (makeChain p.ancestors)
      (fun _ fs' => Grown fs place missing fs' ∧
        ∀ goal, Enters fs' p goal → goal = place ++ missing)
      (fun fs' => ∃ made, made <+: missing ∧ Grown fs place made fs') := by
  induction h with
  | @present p hp hplace =>
    refine (meets_makeChain_of_present hp).weaken (fun _ => id) ?_ ?_
    · rintro - fs' rfl
      exact ⟨.refl, by simpa using hplace⟩
    · rintro fs' rfl
      exact ⟨[], List.nil_prefix, .refl⟩
  | @child p missing name hname habsent habove ih =>
    refine ⟨?_⟩
    rintro fs rfl
    have hnil := Path.bytes_child_ne_nil (p := p) hname
    rw [Path.ancestors_child hname, run_makeChain_cons hnil]
    by_cases hcall : fs.makeDirectory (p.join ⟨name⟩) = .error .notFound
    · rw [if_pos hcall]
      -- Those it lies in are made first.
      have hfits := fits_of_makeDirectory hcall (Path.trimmed_child hname) hnil
      have habove := (ih hfits).run fs rfl
      revert habove
      rcases makeChain p.normal.ancestors fs with ⟨cause | ⟨⟩, fs'⟩
      · rintro ⟨made, hmade, hgrown⟩
        exact ⟨made, hmade.trans (List.prefix_append _ _), hgrown⟩
      · rintro ⟨hgrown, hp⟩
        simp only [enters_normal_iff] at hp
        refine ((meets_ensureDirectory_of_grown hgrown hfs hp hname habsent).weaken (fun _ => id)
          (fun _ _ => id) fun fs'' hgrown => ?_).run fs' rfl
        exact ⟨missing, List.prefix_append _ _, hgrown⟩
    · rw [if_neg hcall]
      refine ((meets_ensureDirectory_of_missing hname habsent habove).weaken (fun _ => id)
        (fun _ _ => id) ?_).run fs rfl
      rintro fs' rfl
      exact ⟨[], List.nil_prefix, .refl⟩

theorem meets_makeDirectories (h : Missing fs place p missing) (hfs : Grounded place fs) :
    Meets (· = fs) (makeDirectories p)
      (fun _ fs' => Grown fs place missing fs' ∧
        ∀ goal, Enters fs' p goal → goal = place ++ missing)
      (fun fs' => ∃ made, made <+: missing ∧ Grown fs place made fs') :=
  meets_makeChain h hfs

end Disk

end Provision
