import Provision.Proofs.Archive.Confinement
import Provision.Proofs.Store.Directory.Packages
import Provision.Store.Directory.Install

/-!
# Extracting beside the packages

An archive is extracted to a directory that is made for it beside the packages, at a name at
which nothing stood (`Beside`).  As long as no more than that has happened, taking the directory
away leaves everything as it was (`Beside.removed`).  Then it takes the place of the package's
directory, which is the one step that changes more (`Unpacked`); where that is refused, the
package's directory stays as it was (`Beside.meets_putInPlace`).
-/
namespace Provision

open FileSystem
open Provision.Path (Ordinary Fits)

/-- The paths of the files of an archive, as the archive has them. -/
def ArchiveReading.filePaths (r : ArchiveReading) : List Path :=
  (r.entries.filter (·.kind.isFile)).map (·.path)

/-- What extracting gives if it does not fail: the archive was read to its end. -/
theorem Archive.meets_extract_value (root : Path) (r : ArchiveReading) :
    Disk.Meets (fun _ => True) (extract root r)
      (fun files _ => files = r.filePaths ∧ r.failure = none) (fun _ => True) := by
  rw [extract]
  have hentries : Disk.Meets (fun _ => True) (r.entries.forM (extractEntry root))
      (fun _ _ => True) (fun _ => True) := by
    refine .forM fun e _ => ⟨fun fs _ => ?_⟩
    rcases extractEntry root e fs with ⟨_ | _, _⟩ <;> trivial
  refine hentries.bind fun _ => ?_
  cases hfailure : r.failure with
  | some cause => exact .throw fun _ _ => trivial
  | none => exact .pure fun _ _ => ⟨rfl, rfl⟩

namespace DirectoryStore

variable {s : DirectoryStore} {base : Location} {target : Target} {fs fs' fs₁ fs₂ fs₃ : FileSystem}
  {name : FileName} {key : PackageKey}

/-- The place of a package's directory. -/
def packagePlace (base : Location) (target : Target) (key : PackageKey) : Location :=
  packagesPlace base target ++ [packageName key]

/-! ## A directory beside the packages -/

/-- **Nothing has happened but beside the packages**, at a name at which nothing stood. -/
structure Beside (s : DirectoryStore) (base : Location) (target : Target) (name : FileName)
    (fs fs' : FileSystem) : Prop where
  layout : Layout s base fs'
  same : SameExcept (fun x => Layout.Absent base target fs x ∨
    packagesPlace base target ++ [name] <+: x) fs fs'
  free : ∀ x, packagesPlace base target ++ [name] <+: x → fs.get? x = none
  names : Names fs' (s.packagesDir target) name (packagesPlace base target)
  directory : ∀ entry, fs'.get? (packagesPlace base target ++ [name]) = some entry →
    entry = .directory

namespace Beside

/-- What is done to the directory itself keeps the rest as it was. -/
theorem of_sameExcept (h : Beside s base target name fs fs₁)
    (hsame : SameExcept (packagesPlace base target ++ [name] <+: ·) fs₁ fs₂)
    (hgrounded : Grounded base fs₂)
    (hdirectory : ∀ entry, fs₂.get? (packagesPlace base target ++ [name]) = some entry →
      entry = .directory) : Beside s base target name fs fs₂ where
  layout := h.layout.of_packages (hsame.mono fun _ => below_of_isPrefix_child) hgrounded
  same := h.same.trans (hsame.mono fun _ => Or.inr)
  free := h.free
  names := by
    have hlayout := h.layout.of_packages (hsame.mono fun _ => below_of_isPrefix_child) hgrounded
    refine ⟨h.names.fits, h.names.length_le, hlayout.enters_packagesDir ?_⟩
    rw [hsame.get? _ (not_concat_isPrefix _ _), h.names.enters.directory]
  directory := hdirectory

/-- **The directory is taken away again**, and everything is as it was. -/
theorem removed (h : Beside s base target name fs fs') (hname : Ordinary name) :
    Layout s base
        ((fs'.removeTree ((s.packagesDir target).join ⟨name⟩)).toOption.getD fs') ∧
      SameExcept (Layout.Absent base target fs) fs
        ((fs'.removeTree ((s.packagesDir target).join ⟨name⟩)).toOption.getD fs') := by
  obtain ⟨hsame, hgrounded⟩ : SameExcept (Below (packagesPlace base target)) fs' _ ∧ _ :=
    h.layout.of_getD_removeTree hname
  refine ⟨h.layout.of_packages hsame hgrounded, hsame.working.trans h.same.working,
    fun x hx => ?_⟩
  rw [get?_getD_removeTree_child hname h.names
    (h.layout.grounded.mono (below_packagesPlace base target).isPrefix) h.directory]
  split
  · rw [h.free x ‹_›]
  · exact h.same.get? x (not_or.mpr ⟨hx, ‹_›⟩)

end Beside

/-! ## Making it -/

/-- **An empty directory beside the packages.** -/
structure Staged (s : DirectoryStore) (base : Location) (target : Target) (name : FileName)
    (fs fs' : FileSystem) : Prop where
  ordinary : Ordinary name
  beside : Beside s base target name fs fs'
  made : fs'.get? (packagesPlace base target ++ [name]) = some .directory
  empty : ∀ x, Below (packagesPlace base target ++ [name]) x → fs'.get? x = none

theorem Layout.not_absent_of_isPrefix {x : Location}
    (hx : packagesPlace base target ++ [name] <+: x) : ¬ Absent base target fs x := by
  have hlength := hx.length_le
  rintro ⟨rfl | rfl, -⟩ <;> simp [packagesPlace, targetPlace] at hlength

/-- It is made where nothing stands, in the directory of the packages. -/
theorem Layout.staged_put (h : Layout s base fs₁)
    (hsame : SameExcept (Absent base target fs) fs fs₁) (hname : Ordinary name)
    (hnames : Names fs₁ (s.packagesDir target) name (packagesPlace base target))
    (hfree : fs₁.get? (packagesPlace base target ++ [name]) = none) :
    Staged s base target name fs
      (fs₁.put (packagesPlace base target ++ [name]) .directory) := by
  have hnone (rest : Location) : fs₁.get? (packagesPlace base target ++ [name] ++ rest) = none :=
    h.grounded.get?_append_eq_none
      ((below_packagesPlace base target).isPrefix.trans (List.prefix_append _ _)) hfree rest
  have hput : SameExcept (· = packagesPlace base target ++ [name]) fs₁
      (fs₁.put (packagesPlace base target ++ [name]) .directory) := sameExcept_put (by simp)
  have hmade : (fs₁.put (packagesPlace base target ++ [name]) .directory).get?
      (packagesPlace base target ++ [name]) = some .directory := by
    rw [get?_put (by simp), if_pos rfl]
  refine ⟨hname, ⟨?_, ?_, ?_, ?_, ?_⟩, hmade, ?_⟩
  · have hbelow : SameExcept (Below (packagesPlace base target)) fs₁
        (fs₁.put (packagesPlace base target ++ [name]) .directory) :=
      hput.mono fun x hx => hx ▸ below_of_isPrefix_child List.prefix_rfl
    exact h.of_packages hbelow (h.grounded.put hnames.enters.directory hfree)
  · refine (hsame.mono fun _ => Or.inl).trans (hput.mono ?_)
    rintro x rfl
    exact Or.inr List.prefix_rfl
  · intro x hx
    rw [← hsame.get? x (not_absent_of_isPrefix hx)]
    obtain ⟨rest, rfl⟩ := hx
    exact hnone rest
  · exact ⟨hnames.fits, hnames.length_le, hnames.enters.put hfree⟩
  · exact fun entry hentry => Option.some.inj (hentry.symm.trans hmade)
  · rintro x ⟨first, rest, rfl⟩
    rw [get?_put (by simp), if_neg (by simp), hnone]

theorem Layout.meets_makeStaging (h : Layout s base fs) (target : Target) :
    Disk.Meets (· = fs) (s.makeStaging target)
      (fun staging fs' => ∃ name, staging = (s.packagesDir target).join ⟨name⟩ ∧
        Staged s base target name fs fs')
      (fun fs' => Layout s base fs' ∧ SameExcept (Absent base target fs) fs fs') := by
  rw [makeStaging]
  refine (h.meets_makePackagesDir target).adapt.bind fun _ => .look_bind fun staging =>
    .of_forall ?_
  rintro fs₁ ⟨⟨⟨hlayout, hsame⟩, -⟩, rfl⟩
  have hname := s.naming.ordinary_choose fs₁ (s.packagesDir target) ".staging-" "" (c := 's')
    (by simp) (by decide) (by simp) (by simp)
  refine Disk.Meets.bind (.adapt (.change ?_ ?_)) fun _ => .pure fun _ => id
  · rintro _ fs' rfl hcall
    obtain ⟨place, hnames, hfree, rfl⟩ := (makeDirectory_child_iff hname).mp hcall
    obtain rfl := hlayout.eq_of_enters_packagesDir hnames.enters
    exact ⟨_, rfl, hlayout.staged_put hsame hname hnames hfree⟩
  · rintro _ rfl
    exact ⟨hlayout, hsame⟩

/-! ## Extracting to it -/

theorem Staged.anchored (h : Staged s base target name fs fs₁) :
    Anchored fs₁ ((s.packagesDir target).join ⟨name⟩) (packagesPlace base target ++ [name]) := by
  have htarget := h.beside.layout.target_of_packages h.beside.names.enters.directory
  exact ((h.beside.layout.root.child (ordinary_name target) (by cases target <;> decide)
    htarget).child ordinary_pkg (by decide) h.beside.names.enters.directory).child h.ordinary
      h.beside.names.length_le h.made

/-- **Extracting does not leave the directory that was made for it.** -/
theorem Staged.meets_extract (h : Staged s base target name fs fs₁) (r : ArchiveReading) :
    Disk.Meets (· = fs₁) (Archive.extract ((s.packagesDir target).join ⟨name⟩) r)
      (fun _ fs₂ => Beside s base target name fs fs₂ ∧
        fs₂.get? (packagesPlace base target ++ [name]) = some .directory)
      (Beside s base target name fs) := by
  have hlayout := h.beside.layout
  have hstarts : base <+: packagesPlace base target ++ [name] :=
    (below_packagesPlace base target).isPrefix.trans (List.prefix_append _ _)
  have hinside {fs₂ : FileSystem}
      (hfs : Archive.Inside (packagesPlace base target ++ [name]) fs₁ fs₂) :
      Beside s base target name fs fs₂ ∧
        fs₂.get? (packagesPlace base target ++ [name]) = some .directory := by
    have hmade : fs₂.get? (packagesPlace base target ++ [name]) = some .directory := by
      rw [hfs.same.get? _ (not_below_self _), h.made]
    exact ⟨h.beside.of_sameExcept (hfs.same.mono fun _ => Below.isPrefix)
      (hlayout.grounded.of_below hfs.same hfs.grounded)
      fun entry hentry => Option.some.inj (hentry.symm.trans hmade), hmade⟩
  refine (Archive.meets_extract h.anchored h.beside.names.fits (Path.trimmed_child h.ordinary)
    r).weaken
    ?_ ?_ ?_
  · rintro _ rfl
    exact ⟨.refl _ _, hlayout.grounded.mono hstarts⟩
  · exact fun _ _ => hinside
  · exact fun _ hfs => (hinside hfs).1

/-! ## Putting a package in place -/

/-- **The directory has taken the place of the package's directory**, with all that was in it. -/
structure Placed (s : DirectoryStore) (base : Location) (target : Target) (key : PackageKey)
    (name : FileName) (fs fs' : FileSystem) : Prop where
  layout : Layout s base fs'
  same : SameExcept (fun x => packagesPlace base target ++ [name] <+: x ∨
    packagePlace base target key <+: x) fs fs'
  placed : ∀ rest, fs'.get? (packagePlace base target key ++ rest) =
    fs.get? (packagesPlace base target ++ [name] ++ rest)
  gone : ∀ x, packagesPlace base target ++ [name] <+: x → fs'.get? x = none
  names : Names fs (s.packagesDir target) (packageName key) (packagesPlace base target)

/-- What the directory takes the place of has been taken away, or was not there. -/
theorem Layout.placed_of_moved (h : Layout s base fs₁)
    (hnames : Names fs₁ (s.packagesDir target) (packageName key) (packagesPlace base target))
    (hne : name ≠ packageName key)
    (hcleared : fs₂ = fs₁ ∨ fs₂ = fs₁.prune (packagePlace base target key)) :
    Placed s base target key name fs₁ (fs₂.moved (packagesPlace base target ++ [name])
      (packagePlace base target key)) := by
  have hsource : ¬ packagePlace base target key <+: packagesPlace base target ++ [name] :=
    not_prefix_concat _ hne.symm
  have hgoal : ¬ packagesPlace base target ++ [name] <+: packagePlace base target key :=
    not_prefix_concat _ hne
  have hcleared' : SameExcept (packagePlace base target key <+: ·) fs₁ fs₂ ∧ Grounded base fs₂ := by
    rcases hcleared with rfl | rfl
    · exact ⟨.refl _ _, h.grounded⟩
    · exact ⟨sameExcept_prune (by simp [packagePlace]), h.grounded.prune (by simp [packagePlace])⟩
  have hsame : SameExcept (fun x => packagesPlace base target ++ [name] <+: x ∨
      packagePlace base target key <+: x) fs₁ (fs₂.moved (packagesPlace base target ++ [name])
        (packagePlace base target key)) :=
    (hcleared'.1.mono fun _ => Or.inr).trans (sameExcept_moved hne)
  have hdirectory' : fs₂.get? (packagesPlace base target) = some .directory := by
    rw [hcleared'.1.get? _ (not_concat_isPrefix _ _), hnames.enters.directory]
  have hbelow : SameExcept (Below (packagesPlace base target)) fs₁
      (fs₂.moved (packagesPlace base target ++ [name]) (packagePlace base target key)) :=
    hsame.mono fun x hx => hx.elim below_of_isPrefix_child below_of_isPrefix_child
  refine ⟨h.of_packages hbelow (hcleared'.2.moved hdirectory'
    (below_packagesPlace base target).isPrefix hne), hsame, fun rest => ?_, fun x hx => ?_, hnames⟩
  · rw [get?_moved_append hsource hgoal,
      hcleared'.1.get? _ (not_prefix_source_append hsource hgoal rest)]
  · exact get?_moved_of_source hsource hgoal hx

/-- What stood in the place of the package has been taken away, or could not be seen. -/
def Cleared (s : DirectoryStore) (target : Target) (key : PackageKey) (fs fs' : FileSystem) :
    Prop :=
  fs.contains (s.packageDir key target) = false ∧ fs' = fs ∨
    fs.contains (s.packageDir key target) = true ∧
      fs.removeTree (s.packageDir key target) = .ok fs'

theorem meets_clearPackageDir_cleared (target : Target) (key : PackageKey) :
    Disk.Meets (· = fs) (clearPackageDir (s.packageDir key target))
      (fun _ => Cleared s target key fs) (· = fs) := by
  rw [clearPackageDir]
  refine .look_bind fun there => .ite (fun hthere => .change ?_ ?_) fun hthere => .pure ?_
  · rintro _ fs' ⟨rfl, rfl⟩ hcall
    exact Or.inr ⟨hthere, hcall⟩
  · exact fun fs' hfs' => hfs'.1
  · rintro _ ⟨rfl, rfl⟩
    exact Or.inl ⟨by simpa using hthere, rfl⟩

/-- Where something has been taken away, it was at the package's place. -/
theorem Layout.of_cleared (h : Layout s base fs) (hname : Ordinary (packageName key))
    (hcleared : Cleared s target key fs fs') : Layout s base fs' ∧ (fs' = fs ∨
      fs' = fs.prune (packagePlace base target key) ∧
        Names fs (s.packagesDir target) (packageName key) (packagesPlace base target)) := by
  rcases hcleared with ⟨-, rfl⟩ | ⟨-, hcall⟩
  · exact ⟨h, Or.inl rfl⟩
  · obtain ⟨hsame, hgrounded⟩ : SameExcept (Below (packagesPlace base target)) fs fs' ∧ _ :=
      h.of_removeTree hname hcall
    obtain ⟨place, entry, hnames, -, -, rfl⟩ := (removeTree_child_iff hname).mp hcall
    obtain rfl := h.eq_of_enters_packagesDir hnames.enters
    exact ⟨h.of_packages hsame hgrounded, Or.inr ⟨rfl, hnames⟩⟩

theorem Layout.meets_clearPackageDir (h : Layout s base fs) (hname : Ordinary (packageName key)) :
    Disk.Meets (· = fs) (clearPackageDir (s.packageDir key target))
      (fun _ => Kept s base target fs) (Kept s base target fs) := by
  refine (meets_clearPackageDir_cleared target key).weaken (fun _ => id) ?_ ?_
  · rintro - fs' hcleared
    obtain ⟨hlayout, rfl | ⟨rfl, -⟩⟩ := h.of_cleared hname hcleared
    · exact ⟨h, .refl _ _⟩
    · have hprune : SameExcept (packagePlace base target key <+: ·) fs
          (fs.prune (packagePlace base target key)) := sameExcept_prune (by simp [packagePlace])
      exact ⟨hlayout, hprune.mono fun x hx => Or.inr (below_of_isPrefix_child hx)⟩
  · rintro fs' rfl
    exact ⟨h, .refl _ _⟩

section Placing

variable (hname : Ordinary name) (hname' : Ordinary (packageName key))
  (h : Beside s base target name fs fs₁)
  (hmade : fs₁.get? (packagesPlace base target ++ [name]) = some .directory)
include hname hname' h hmade

theorem Beside.placed_of_rename (hcleared : Cleared s target key fs₁ fs₂)
    (hcall : fs₂.rename ((s.packagesDir target).join ⟨name⟩) (s.packageDir key target) = .ok fs₃) :
    Placed s base target key name fs₁ fs₃ := by
  obtain ⟨hlayout, heq⟩ := h.layout.of_cleared hname' hcleared
  obtain ⟨place, entry, hnames, hgoal, hentry, hrenamed⟩ := rename_child_eq_ok hname hname' hcall
  obtain rfl := hlayout.eq_of_enters_packagesDir hnames.enters
  rcases hrenamed with ⟨rfl, -⟩ | ⟨hne, -, rfl⟩
  · -- The directory would have been taken away with what it is to take the place of.
    rcases hcleared with ⟨hunseen, -⟩ | ⟨-, hremoved⟩
    · have hseen := (h.names.enters.child hname h.names.length_le hmade).find? h.names.fits
      have hcontains : fs₁.contains (s.packageDir key target) = true :=
        congrArg Except.isOk hseen
      exact nomatch hunseen.symm.trans hcontains
    · obtain ⟨place, -, hfound, -, -, rfl⟩ := (removeTree_child_iff hname).mp hremoved
      rw [hfound.enters.unique h.names.enters, get?_prune (by simp),
        if_pos List.prefix_rfl] at hentry
      cases hentry
  · exact h.layout.placed_of_moved ⟨hgoal.fits, hgoal.length_le, h.names.enters⟩ hne
      (heq.imp_right And.left)

theorem Beside.of_refused_rename {cause : FileError} (hcleared : Cleared s target key fs₁ fs₂)
    (hcall : fs₂.rename ((s.packagesDir target).join ⟨name⟩) (s.packageDir key target) =
      .error cause) : Beside s base target name fs fs₂ := by
  obtain ⟨hlayout, rfl | ⟨rfl, hnames⟩⟩ := h.layout.of_cleared hname' hcleared
  · exact h
  · have hprune : SameExcept (packagePlace base target key <+: ·) fs₁
        (fs₁.prune (packagePlace base target key)) := sameExcept_prune (by simp [packagePlace])
    have hgone : (fs₁.prune (packagePlace base target key)).get? (packagePlace base target key) =
        none := by
      rw [get?_prune (by simp [packagePlace]), if_pos List.prefix_rfl]
    by_cases hne : name = packageName key
    · refine h.of_sameExcept (hne ▸ hprune) hlayout.grounded fun entry hentry => ?_
      rw [hne, ← packagePlace, hgone] at hentry
      cases hentry
    · have henters : Enters (fs₁.prune (packagePlace base target key)) (s.packagesDir target)
          (packagesPlace base target) := hlayout.enters_packagesDir (by
        rw [hprune.get? _ (not_concat_isPrefix _ _), h.names.enters.directory])
      have hentry : (fs₁.prune (packagePlace base target key)).get?
          (packagesPlace base target ++ [name]) = some .directory := by
        rw [hprune.get? _ (not_prefix_concat _ (Ne.symm hne)), hmade]
      have hdone := rename_child hname hname' hne ⟨h.names.fits, h.names.length_le, henters⟩
        ⟨hnames.fits, hnames.length_le, henters⟩ hentry (checkReplace_of_none hgone)
      exact nomatch hdone.symm.trans hcall

/-- **A package is put in place, or its directory stays as it was.** -/
theorem Beside.meets_putInPlace :
    Disk.Meets (· = fs₁)
      (putInPlace ((s.packagesDir target).join ⟨name⟩) (s.packageDir key target))
      (fun _ => Placed s base target key name fs₁) (Beside s base target name fs) := by
  rw [putInPlace]
  have hclear : Disk.Meets (· = fs₁) (clearPackageDir (s.packageDir key target))
      (fun _ => Cleared s target key fs₁) (Beside s base target name fs) :=
    (meets_clearPackageDir_cleared target key).weaken (fun _ => id) (fun _ _ => id)
      fun fs' hfs' => hfs' ▸ h
  refine hclear.bind fun _ => ⟨fun fs₂ hcleared => ?_⟩
  rw [Disk.run_change]
  cases hcall : fs₂.rename ((s.packagesDir target).join ⟨name⟩) (s.packageDir key target) with
  | ok fs₃ => exact h.placed_of_rename hname hname' hmade hcleared hcall
  | error cause => exact h.of_refused_rename hname hname' hmade hcleared hcall

end Placing

/-- **A package as it was unpacked.**  Its directory is what extracting the archive made of an
empty directory, and nothing else has changed but directories that were missing. -/
structure Unpacked (s : DirectoryStore) (base : Location) (target : Target) (key : PackageKey)
    (r : ArchiveReading) (files : List Path) (fs fs' : FileSystem) : Prop where
  layout : Layout s base fs'
  same : SameExcept (fun x => Layout.Absent base target fs x ∨
    packagePlace base target key <+: x) fs fs'
  names : Names fs' (s.packagesDir target) (packageName key) (packagesPlace base target)
  made : fs'.get? (packagePlace base target key) = some .directory
  contents : ∃ name fs₁ fs₂, Staged s base target name fs fs₁ ∧
    Archive.extract ((s.packagesDir target).join ⟨name⟩) r fs₁ = (.ok files, fs₂) ∧
    ∀ rest, fs'.get? (packagePlace base target key ++ rest) =
      fs₂.get? (packagesPlace base target ++ [name] ++ rest)

theorem Unpacked.kept {r : ArchiveReading} {files : List Path}
    (h : Unpacked s base target key r files fs fs') : Kept s base target fs fs' :=
  ⟨h.layout, h.same.mono fun _ hx => hx.imp_right below_of_isPrefix_child⟩

theorem Staged.unpacked {r : ArchiveReading} {files : List Path}
    (h : Staged s base target name fs fs₁)
    (hrun : Archive.extract ((s.packagesDir target).join ⟨name⟩) r fs₁ = (.ok files, fs₂))
    (hplaced : Placed s base target key name fs₂ fs₃) :
    Unpacked s base target key r files fs fs₃ := by
  obtain ⟨hbeside, hmade⟩ := (h.meets_extract r).of_run_eq_ok rfl hrun
  refine ⟨hplaced.layout, ⟨hplaced.same.working.trans hbeside.same.working, fun x hx => ?_⟩,
    ⟨hplaced.names.fits, hplaced.names.length_le, hplaced.layout.enters_packagesDir ?_⟩, ?_,
    name, fs₁, fs₂, h, hrun, hplaced.placed⟩
  · obtain ⟨habsent, hplace⟩ := not_or.mp hx
    by_cases hstarts : packagesPlace base target ++ [name] <+: x
    · rw [hplaced.gone x hstarts, hbeside.free x hstarts]
    · rw [hplaced.same.get? x (not_or.mpr ⟨hstarts, hplace⟩),
        hbeside.same.get? x (not_or.mpr ⟨habsent, hstarts⟩)]
  · rw [hplaced.same.get? _ (not_or.mpr ⟨not_concat_isPrefix _ _, not_concat_isPrefix _ _⟩),
      hbeside.names.enters.directory]
  · have hplaced' := hplaced.placed []
    rwa [List.append_nil, List.append_nil, hmade] at hplaced'

end DirectoryStore

end Provision
