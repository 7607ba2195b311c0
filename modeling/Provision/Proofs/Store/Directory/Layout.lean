import Provision.Proofs.Files.Directories
import Provision.Store.Directory.Records

/-!
# Where a store keeps things

A store keeps a directory for each target below its root, with the records and the packages in
it.  As long as nothing else is put in their places (`Layout`), its paths lead there and nowhere
else, whatever stands below the directory of the packages.  The directories are made when they are
needed, and making them changes nothing else (`Layout.meets_makeTargetDir`,
`Layout.meets_makePackagesDir`).
-/
namespace Provision

open FileSystem
open Provision.Path (Ordinary Fits)

namespace Path

/-- A text with another character than slashes and dots is an ordinary name. -/
theorem ordinary_of_mem {s : String} {c : Char} (hc : c ∈ s.toList) (hdot : c ≠ '.')
    (hslash : '/' ∉ s.toList) : Ordinary (Utf8.ofString s) := by
  refine ordinary_ofString ?_ ?_ ?_ hslash <;> rintro rfl
  · simp at hc
  · exact absurd hc (by simpa using hdot)
  · exact absurd hc (by simpa using hdot)

end Path

/-- What is chosen between texts makes an ordinary name of them, if they have no slashes. -/
theorem Naming.ordinary_choose (n : Naming) (fs : FileSystem) (directory : Path)
    (before after : String) {c : Char} (hc : c ∈ before.toList) (hdot : c ≠ '.')
    (hbefore : '/' ∉ before.toList) (hafter : '/' ∉ after.toList) :
    Ordinary (Utf8.ofString (before ++ n.choose fs directory before after ++ after)) := by
  refine Path.ordinary_of_mem (by simpa using Or.inl hc) hdot ?_
  simp only [String.toList_append, List.mem_append, not_or]
  refine ⟨⟨hbefore, fun hmem => ?_⟩, hafter⟩
  exact absurd (n.isAlphanum_of_mem_choose fs directory before after _ hmem) (by decide)

namespace DirectoryStore

variable {s : DirectoryStore} {base : Location} {target target' : Target} {fs fs' : FileSystem}

/-- The place of a target's directory, in a store whose root leads to `base`. -/
def targetPlace (base : Location) (target : Target) : Location :=
  base ++ [Utf8.ofString target.name]

/-- The place of the directory that holds the directories of packages. -/
def packagesPlace (base : Location) (target : Target) : Location :=
  targetPlace base target ++ [Utf8.ofString "pkg"]

/-- The place of the file that records what is installed. -/
def recordsPlace (base : Location) (target : Target) : Location :=
  targetPlace base target ++ [Utf8.ofString "installed.json"]

theorem ordinary_name (target : Target) : Ordinary (Utf8.ofString target.name) := by
  cases target
  · exact Path.ordinary_ofString (by decide) (by decide) (by decide) (by decide)
  · exact Path.ordinary_ofString (by decide) (by decide) (by decide) (by decide)

theorem ordinary_pkg : Ordinary (Utf8.ofString "pkg") :=
  Path.ordinary_ofString (by decide) (by decide) (by decide) (by decide)

theorem ordinary_installed : Ordinary (Utf8.ofString "installed.json") :=
  Path.ordinary_ofString (by decide) (by decide) (by decide) (by decide)

/-- **What a store finds below its root**: directories and records where it keeps them, or
nothing. -/
structure Layout (s : DirectoryStore) (base : Location) (fs : FileSystem) : Prop where
  root : Anchored fs s.root base
  grounded : Grounded base fs
  target : ∀ target, fs.get? (targetPlace base target) = none ∨
    fs.get? (targetPlace base target) = some .directory
  packages : ∀ target, fs.get? (packagesPlace base target) = none ∨
    fs.get? (packagesPlace base target) = some .directory
  records : ∀ target, fs.get? (recordsPlace base target) = none ∨
    ∃ content, fs.get? (recordsPlace base target) = some (.file content)

theorem below_targetPlace (base : Location) (target : Target) :
    Below base (targetPlace base target) :=
  below_of_isPrefix_child List.prefix_rfl

theorem below_packagesPlace (base : Location) (target : Target) :
    Below base (packagesPlace base target) :=
  below_of_isPrefix_child (List.prefix_append _ _)

theorem below_recordsPlace (base : Location) (target : Target) :
    Below base (recordsPlace base target) :=
  below_of_isPrefix_child (List.prefix_append _ _)

theorem recordsPlace_ne_targetPlace (target target' : Target) :
    recordsPlace base target ≠ targetPlace base target' := by
  simp [recordsPlace, targetPlace]

theorem recordsPlace_ne_packagesPlace (target target' : Target) :
    recordsPlace base target ≠ packagesPlace base target' := by
  have hne : Utf8.ofString "installed.json" ≠ Utf8.ofString "pkg" := by decide
  simp [recordsPlace, packagesPlace, targetPlace, hne]

theorem targetPlace_injective (h : targetPlace base target = targetPlace base target') :
    target = target' := by
  have hname : Utf8.ofString target.name = Utf8.ofString target'.name := by
    simpa [targetPlace] using h
  cases target <;> cases target' <;> first | rfl | exact absurd hname (by decide)

/-- A root below which nothing stands will do. -/
theorem layout_of_empty (hroot : Enters fs s.root base)
    (hempty : ∀ x, Below base x → fs.get? x = none) : Layout s base fs where
  root := hroot.anchored hempty
  grounded := .of_empty hempty
  target target := Or.inl (hempty _ (below_targetPlace base target))
  packages target := Or.inl (hempty _ (below_packagesPlace base target))
  records target := Or.inl (hempty _ (below_recordsPlace base target))

namespace Layout

theorem enters_root (h : Layout s base fs) : Enters fs s.root base :=
  h.root.enters

/-- The directory of a target is found at its place. -/
theorem enters_targetDir (h : Layout s base fs)
    (hdirectory : fs.get? (targetPlace base target) = some .directory) :
    Enters fs (s.targetDir target) (targetPlace base target) :=
  h.enters_root.child (ordinary_name target) (by cases target <;> decide) hdirectory

/-- Where the directory of the packages is there, so is that of the target. -/
theorem target_of_packages (h : Layout s base fs)
    (hdirectory : fs.get? (packagesPlace base target) = some .directory) :
    fs.get? (targetPlace base target) = some .directory :=
  h.grounded _ (Utf8.ofString "pkg") (List.prefix_append _ _)
    (by rw [← packagesPlace, hdirectory]; exact Option.some_ne_none _)

/-- The directory of the packages is found at its place. -/
theorem enters_packagesDir (h : Layout s base fs)
    (hdirectory : fs.get? (packagesPlace base target) = some .directory) :
    Enters fs (s.packagesDir target) (packagesPlace base target) :=
  (h.enters_targetDir (h.target_of_packages hdirectory)).child ordinary_pkg (by decide) hdirectory

theorem eq_of_enters_target (h : Layout s base fs) {p : Path} {goal : Location}
    (hp : Enters fs p base) (hgoal : Enters fs (p.join ⟨Utf8.ofString target.name⟩) goal) :
    goal = targetPlace base target := by
  obtain ⟨place, hplace, hstands⟩ := exists_enters_of_enters_child (ordinary_name target) hgoal
  obtain rfl := hplace.unique hp
  rcases hstands with rfl | ⟨path, hlink⟩
  · rfl
  · rcases h.target target with hnone | hdirectory
    · exact nomatch hnone.symm.trans hlink
    · exact nomatch hdirectory.symm.trans hlink

theorem eq_of_enters_targetDir (h : Layout s base fs) {goal : Location}
    (hgoal : Enters fs (s.targetDir target) goal) : goal = targetPlace base target :=
  h.eq_of_enters_target h.enters_root hgoal

theorem eq_of_enters_packagesDir (h : Layout s base fs) {goal : Location}
    (hgoal : Enters fs (s.packagesDir target) goal) : goal = packagesPlace base target := by
  obtain ⟨place, hplace, hstands⟩ := exists_enters_of_enters_child ordinary_pkg hgoal
  obtain rfl := h.eq_of_enters_targetDir hplace
  rcases hstands with rfl | ⟨path, hlink⟩
  · rfl
  · rcases h.packages target with hnone | hdirectory
    · exact nomatch hnone.symm.trans hlink
    · exact nomatch hdirectory.symm.trans hlink

/-- The layout stays when files come and go elsewhere. -/
theorem of_elsewhere (h : Layout s base fs) (hsame : ∀ x, base <+: x → fs'.get? x = fs.get? x)
    (hroot : Anchored fs' s.root base) : Layout s base fs' where
  root := hroot
  grounded x name hx hentry := by
    rw [hsame _ (hx.trans (List.prefix_append _ _))] at hentry
    rw [hsame _ hx]
    exact h.grounded x name hx hentry
  target target := by
    rw [hsame _ (below_targetPlace base target).isPrefix]
    exact h.target target
  packages target := by
    rw [hsame _ (below_packagesPlace base target).isPrefix]
    exact h.packages target
  records target := by
    rw [hsame _ (below_recordsPlace base target).isPrefix]
    exact h.records target

/-! ## The directories are made -/

/-- The directories of a target that are not there yet. -/
def Absent (base : Location) (target : Target) (fs : FileSystem) (x : Location) : Prop :=
  (x = targetPlace base target ∨ x = packagesPlace base target) ∧ fs.get? x = none

/-- No directory is missing where that of the packages is there. -/
theorem not_absent (h : Layout s base fs)
    (hdirectory : fs.get? (packagesPlace base target) = some .directory) {x : Location} :
    ¬ Absent base target fs x := by
  rintro ⟨rfl | rfl, hnone⟩
  · exact nomatch hnone.symm.trans (h.target_of_packages hdirectory)
  · exact nomatch hnone.symm.trans hdirectory

theorem eq_of_prefix_packagesPlace {place front : Location} (hplace : base <+: place)
    (hne : front ≠ []) (hfront : place ++ front <+: packagesPlace base target) :
    place ++ front = targetPlace base target ∨ place ++ front = packagesPlace base target := by
  rw [packagesPlace, targetPlace] at *
  rcases List.prefix_concat_iff.mp hfront with heq | hfront
  · exact Or.inr heq
  rcases List.prefix_concat_iff.mp hfront with heq | hfront
  · exact Or.inl heq
  · have hlength := hfront.length_le
    have hlength' := hplace.length_le
    have hpos := List.length_pos_of_ne_nil hne
    rw [List.length_append] at hlength
    omega

/-- Directories have been made, or some of them. -/
theorem of_grown {place : Location} {made : List FileName} (h : Layout s base fs)
    (hplace : base <+: place) (hmade : place ++ made <+: packagesPlace base target)
    (hgrown : Grown fs place made fs') :
    Layout s base fs' ∧ SameExcept (Absent base target fs) fs fs' := by
  have hsame : SameExcept (Absent base target fs) fs fs' := by
    refine hgrown.sameExcept.mono ?_
    rintro x ⟨front, hne, hfront, rfl⟩
    have hstarts : place ++ front <+: place ++ made := (List.prefix_append_right_inj _).mpr hfront
    exact ⟨eq_of_prefix_packagesPlace hplace hne (hstarts.trans hmade), (hgrown.get? hne hfront).1⟩
  have htold (x : Location) (hx : fs.get? x = none ∨ fs.get? x = some .directory) :
      fs'.get? x = none ∨ fs'.get? x = some .directory := by
    rcases hgrown.get?_eq_or x with heq | heq
    · rwa [heq]
    · exact Or.inr heq
  refine ⟨⟨h.root.of_sameExcept (hsame.mono ?_), hgrown.grounded h.grounded,
    fun target => htold _ (h.target target), fun target => htold _ (h.packages target), ?_⟩, hsame⟩
  · rintro x ⟨rfl | rfl, -⟩
    · exact below_targetPlace base target
    · exact below_packagesPlace base target
  · intro target'
    rw [hsame.get?]
    · exact h.records target'
    · rintro ⟨heq | heq, -⟩
      · exact recordsPlace_ne_targetPlace _ _ heq
      · exact recordsPlace_ne_packagesPlace _ _ heq

/-- What is missing of the path of a target's directory. -/
theorem exists_missing_target {p : Path} (h : Layout s base fs) (hp : Enters fs p base)
    (target : Target) : ∃ mid more, mid ++ more = targetPlace base target ∧ base <+: mid ∧
      Missing fs mid (p.join ⟨Utf8.ofString target.name⟩) more :=
  Missing.join (ordinary_name target) (fun hfits => .of_enters hp (ordinary_name target) hfits)
    fun _ hgoal => h.eq_of_enters_target hp hgoal

/-- A directory that the store keeps is made. -/
theorem meets_makeDirectories {p : Path} {name : FileName} {place mid : Location}
    {more : List FileName} (h : Layout s base fs) (hname : Ordinary name) (hmid : base <+: mid)
    (heq : mid ++ more = place ++ [name])
    (hstarts : place ++ [name] <+: packagesPlace base target)
    (hmissing : Missing fs mid (p.join ⟨name⟩) more)
    (hp : ∀ goal, Enters fs p goal → goal = place) :
    Disk.Meets (· = fs) (Disk.makeDirectories (p.join ⟨name⟩))
      (fun _ fs' => (Layout s base fs' ∧ SameExcept (Absent base target fs) fs fs') ∧
        fs'.get? (place ++ [name]) ≠ none)
      (fun fs' => Layout s base fs' ∧ SameExcept (Absent base target fs) fs fs') := by
  refine (Disk.meets_makeDirectories hmissing (h.grounded.mono hmid)).weaken (fun _ => id) ?_ ?_
  · rintro - fs' ⟨hgrown, -⟩
    exact ⟨h.of_grown hmid (heq ▸ hstarts) hgrown, hgrown.get?_ne_none hmissing hname hp heq⟩
  · rintro fs' ⟨made, hmade, hgrown⟩
    refine h.of_grown hmid (List.IsPrefix.trans ?_ hstarts) hgrown
    rw [← heq]
    exact (List.prefix_append_right_inj _).mpr hmade

theorem meets_makeTargetDir (h : Layout s base fs) (target : Target) :
    Disk.Meets (· = fs) (Disk.makeDirectories (s.targetDir target))
      (fun _ fs' => (Layout s base fs' ∧ SameExcept (Absent base target fs) fs fs') ∧
        fs'.get? (targetPlace base target) = some .directory)
      (fun fs' => Layout s base fs' ∧ SameExcept (Absent base target fs) fs fs') := by
  obtain ⟨mid, more, heq, hmid, hmissing⟩ := h.exists_missing_target h.enters_root target
  refine (h.meets_makeDirectories (ordinary_name target) hmid heq (List.prefix_append _ _) hmissing
    fun x hx => hx.unique h.enters_root).weaken (fun _ => id) ?_ fun _ => id
  exact fun _ fs' ⟨hfs', hne⟩ => ⟨hfs', (hfs'.1.target target).resolve_left hne⟩

theorem meets_makePackagesDir (h : Layout s base fs) (target : Target) :
    Disk.Meets (· = fs) (Disk.makeDirectories (s.packagesDir target))
      (fun _ fs' => (Layout s base fs' ∧ SameExcept (Absent base target fs) fs fs') ∧
        fs'.get? (packagesPlace base target) = some .directory)
      (fun fs' => Layout s base fs' ∧ SameExcept (Absent base target fs) fs fs') := by
  obtain ⟨front, missing, htarget, hfront, habove⟩ :=
    h.exists_missing_target (enters_normal_iff.mpr h.enters_root) target
  rw [← Path.normal_child (ordinary_name target)] at habove
  obtain ⟨mid, more, heq, hmid, hmissing⟩ := Missing.join (p := s.targetDir target) ordinary_pkg
    (fun _ => habove) fun goal hgoal => by
      rw [h.eq_of_enters_packagesDir hgoal, packagesPlace, ← htarget, List.append_assoc]
  rw [← List.append_assoc, htarget] at heq
  refine (h.meets_makeDirectories ordinary_pkg (hfront.trans hmid) heq List.prefix_rfl hmissing
    fun x hx => h.eq_of_enters_targetDir hx).weaken (fun _ => id) ?_ fun _ => id
  exact fun _ fs' ⟨hfs', hne⟩ => ⟨hfs', (hfs'.1.packages target).resolve_left hne⟩

end Layout

end DirectoryStore

end Provision
