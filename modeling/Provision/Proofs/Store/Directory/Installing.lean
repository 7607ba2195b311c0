import Provision.Proofs.Store.Directory.Staging

/-!
# What installing and uninstalling change

If an id has no slashes, all the work on its package is done below the directory of the packages,
and the records are replaced last.  An installation gets as far as that or leaves everything as it
was (`Layout.install_cases`), so the records tell of a package only if nothing failed
(`Layout.meets_install`, `Layout.meets_uninstall`).
-/
namespace Provision.DirectoryStore

open FileSystem
open Provision.Path (Ordinary Fits)

variable {s : DirectoryStore} {base : Location} {target : Target} {fs fs' fs₁ fs₂ fs₃ : FileSystem}
  {name : FileName} {key : PackageKey}

/-! ## How far an installation gets -/

/-- **A path names a file with a content**, if not for directories that are still to be made. -/
def NamesFile (fs : FileSystem) (path : Path) (content : Bytes) : Prop :=
  ∃ place, fs.get? place = some (.file content) ∧
    ∀ found, fs.find? path = .ok found → found = (place, .file content)

theorem openArtifact_cases (artifact : Artifact) (fs : FileSystem) :
    (∃ cause, openArtifact artifact fs = (.error cause, fs)) ∨
      ∃ place content, fs.find? artifact.path = .ok (place, .file content) ∧
        openArtifact artifact fs = (.ok content, fs) := by
  rw [openArtifact, Disk.run_bind, Disk.run_adapt, Disk.run_inspect]
  cases fs.find? artifact.path with
  | error cause => exact Or.inl ⟨_, rfl⟩
  | ok found =>
    obtain ⟨place, entry⟩ := found
    cases entry with
    | file content => exact Or.inr ⟨place, content, rfl, rfl⟩
    | directory => exact Or.inl ⟨_, rfl⟩
    | link path => exact Or.inl ⟨_, rfl⟩

/-- Beside the packages an artifact holds what it held before. -/
theorem Staged.namesFile {path : Path} {place : Location} {content : Bytes}
    (h : Staged s base target name fs fs₁) (hfind : fs₁.find? path = .ok (place, .file content)) :
    NamesFile fs path content := by
  have hkept (x : Location) (entry : FileEntry) (hx : fs.get? x = some entry) :
      fs₁.get? x = some entry := by
    rw [h.beside.same.get? x, hx]
    rintro (⟨-, hnone⟩ | hstarts)
    · exact nomatch hnone.symm.trans hx
    · exact nomatch (h.beside.free x hstarts).symm.trans hx
  obtain ⟨-, hentry⟩ := find?_eq_ok_iff.mp hfind
  refine ⟨place, ?_, fun found hfound => ?_⟩
  · rw [← h.beside.same.get? place, hentry]
    -- What is new are directories, and the file is none.
    rintro (⟨rfl | rfl, -⟩ | ⟨rest, rfl⟩)
    · rcases h.beside.layout.target target with hnone | hdirectory
      · exact nomatch hnone.symm.trans hentry
      · exact nomatch hdirectory.symm.trans hentry
    · exact nomatch h.beside.names.enters.directory.symm.trans hentry
    · cases rest with
      | nil =>
        rw [List.append_nil, h.made] at hentry
        cases hentry
      | cons first rest => exact nomatch (h.empty _ ⟨first, rest, rfl⟩).symm.trans hentry
  · exact Except.ok.inj ((find?_mono h.beside.same.working hkept hfound).symm.trans hfind)

variable {snapshot : Snapshot} {artifact : Artifact}

/-- How far the work gets that is done once there is a directory to extract to. -/
theorem Staged.work_cases (h : Staged s base target name fs fs₁)
    (hname : Ordinary (packageName artifact.key)) {records : List Path → InstalledRecords}
    {work : Disk InstallError Unit} (hwork : work = do
      let content ← openArtifact artifact
      let files ← (Archive.extract ((s.packagesDir target).join ⟨name⟩)
        (s.readArchive content)).adapt refusalOf
      (putInPlace ((s.packagesDir target).join ⟨name⟩) (s.packageDir artifact.key target)).adapt
        fun cause => .io cause.message
      (s.saveRecords target (records files)).adapt fun cause => .store cause.message) :
    ((∃ cause, (work fs₁).1 = .error cause) ∧ Beside s base target name fs (work fs₁).2) ∨
    ∃ content files mid saved, NamesFile fs artifact.path content ∧
      Unpacked s base target artifact.key (s.readArchive content) files fs mid ∧
      mid.get? (packagesPlace base target ++ [name]) = none ∧
      s.saveRecords target (records files) mid = (saved, (work fs₁).2) ∧
      (work fs₁).1 = saved.mapError fun cause => .store cause.message := by
  rw [hwork, Disk.run_bind]
  rcases openArtifact_cases artifact fs₁ with ⟨cause, hopen⟩ | ⟨place, content, hfind, hopen⟩
  · rw [hopen]
    exact Or.inl ⟨⟨cause, rfl⟩, h.beside⟩
  rw [hopen]
  simp only [Disk.run_bind, Disk.run_adapt]
  rcases hextract : Archive.extract ((s.packagesDir target).join ⟨name⟩)
    (s.readArchive content) fs₁ with ⟨cause | files, fs₂⟩
  · exact Or.inl ⟨⟨_, rfl⟩, (h.meets_extract _).of_run_eq_error rfl hextract⟩
  obtain ⟨hbeside, hmade⟩ := (h.meets_extract _).of_run_eq_ok rfl hextract
  have hput := hbeside.meets_putInPlace h.ordinary hname hmade
  rcases hplace : putInPlace ((s.packagesDir target).join ⟨name⟩)
    (s.packageDir artifact.key target) fs₂ with ⟨cause | ⟨⟩, fs₃⟩
  · simp only [Except.mapError, hplace]
    exact Or.inl ⟨⟨_, rfl⟩, hput.of_run_eq_error rfl hplace⟩
  · simp only [Except.mapError, hplace]
    have hplaced := hput.of_run_eq_ok rfl hplace
    exact Or.inr ⟨content, files, fs₃, _, h.namesFile hfind, h.unpacked hextract hplaced,
      hplaced.gone _ List.prefix_rfl, rfl, rfl⟩

/-- Saving records changes nothing else where the directories are there. -/
theorem Layout.sameExcept_saveRecords (h : Layout s base fs)
    (hdirectory : fs.get? (packagesPlace base target) = some .directory)
    {records : InstalledRecords} {saved : Except DocumentError Unit}
    (hrun : s.saveRecords target records fs = (saved, fs')) :
    Layout s base fs' ∧ SameExcept (· = recordsPlace base target) fs fs' := by
  cases saved with
  | error cause =>
    obtain ⟨hlayout, hsame⟩ := (h.meets_saveRecords target records).of_run_eq_error rfl hrun
    exact ⟨hlayout, hsame.mono fun x hx => absurd hx (h.not_absent hdirectory)⟩
  | ok value =>
    have hsaved := (h.meets_saveRecords target records).of_run_eq_ok rfl hrun
    exact ⟨hsaved.layout, hsaved.same.mono fun x hx =>
      hx.resolve_left (h.not_absent hdirectory)⟩

/-- **How far an installation gets.**  It fails and everything is as it was, or the package is
unpacked and whether its records are saved decides. -/
theorem Layout.install_cases (h : Layout s base fs) {target : Target}
    (hid : (snapshot.get? artifact.key).isSome → '/' ∉ artifact.key.id.toList)
    {result : Except InstallError Unit}
    (hrun : s.install snapshot artifact target fs = (result, fs')) :
    ((∃ cause, result = .error cause) ∧ Layout s base fs' ∧
      SameExcept (Absent base target fs) fs fs') ∨
    ∃ package records content files mid saved, snapshot.get? artifact.key = some package ∧
      s.records target fs = .ok records ∧ NamesFile fs artifact.path content ∧
      Unpacked s base target artifact.key (s.readArchive content) files fs mid ∧
      s.saveRecords target (records.insert artifact.key ⟨package.version, files⟩) mid =
        (saved, fs') ∧
      result = saved.mapError fun cause => .store cause.message := by
  rw [install] at hrun
  cases hpackage : snapshot.get? artifact.key with
  | none =>
    rw [hpackage] at hrun
    cases hrun
    exact Or.inl ⟨⟨_, rfl⟩, h, .refl _ _⟩
  | some package =>
    have hname := ordinary_packageName (hid (by rw [hpackage]; rfl))
    simp only [hpackage] at hrun
    rw [Disk.run_bind, Disk.run_adapt, Disk.run_inspect] at hrun
    cases hrecords : s.records target fs with
    | error cause =>
      rw [hrecords] at hrun
      cases hrun
      exact Or.inl ⟨⟨_, rfl⟩, h, .refl _ _⟩
    | ok records =>
      simp only [hrecords, Except.mapError, Disk.run_bind] at hrun
      rcases hstaging : s.makeStaging target fs with ⟨cause | staging, fs₁⟩
      · rw [hstaging] at hrun
        cases hrun
        exact Or.inl ⟨⟨_, rfl⟩, (h.meets_makeStaging target).of_run_eq_error rfl hstaging⟩
      · obtain ⟨name, rfl, hstaged⟩ := (h.meets_makeStaging target).of_run_eq_ok rfl hstaging
        rw [hstaging] at hrun
        simp only [Disk.run_cleaning] at hrun
        rcases hstaged.work_cases hname rfl with ⟨⟨cause, hcause⟩, hbeside⟩ | hsaved
        · rw [hcause] at hrun
          obtain ⟨rfl, rfl⟩ := Prod.mk.inj hrun
          exact Or.inl ⟨⟨cause, rfl⟩, hbeside.removed hstaged.ordinary⟩
        · obtain ⟨content, files, mid, saved, hholds, hunpacked, hgone, hsaved, hresult⟩ := hsaved
          obtain ⟨rfl, rfl⟩ := Prod.mk.inj hrun
          obtain ⟨hlayout, hsame⟩ :=
            hunpacked.layout.sameExcept_saveRecords hunpacked.names.enters.directory hsaved
          have hne := ne_recordsPlace_of_below (below_of_isPrefix_child
            (List.prefix_refl (packagesPlace base target ++ [name]))) target
          rw [getD_removeTree_of_none hstaged.ordinary fun place hplace => by
            rw [hlayout.eq_of_enters_packagesDir hplace, hsame.get? _ hne, hgone]]
          exact Or.inr ⟨package, records, content, files, mid, saved, rfl, rfl, hholds, hunpacked,
            hsaved, hresult⟩

/-! ## What installing and uninstalling change -/

theorem Kept.meets_saveRecords (h : Kept s base target fs fs') (records : InstalledRecords) :
    Disk.Meets (· = fs') (s.saveRecords target records)
      (fun _ fs'' => Saved s base target records (Zone base target fs) fs fs'')
      (Kept s base target fs) := by
  have hzone (x : Location) (hx : Layout.Absent base target fs' x) : Zone base target fs x := by
    by_contra hnot
    have hnone := hx.2
    rw [h.same.get? x hnot] at hnone
    exact hnot (Or.inl ⟨hx.1, hnone⟩)
  refine (h.layout.meets_saveRecords target records).weaken (fun _ => id) ?_ ?_
  · exact fun _ fs'' hsaved => hsaved.of_sameExcept h.same hzone
  · exact fun fs'' hfs'' => ⟨hfs''.1, h.same.trans (hfs''.2.mono hzone)⟩

/-- **What installing does.**  It replaces the records by ones that have the package with the
version that the snapshot tells, or it leaves the records alone; apart from the records, only the
packages of the target change. -/
theorem Layout.meets_install (h : Layout s base fs) (target : Target)
    (hid : (snapshot.get? artifact.key).isSome → '/' ∉ artifact.key.id.toList) :
    Disk.Meets (· = fs) (s.install snapshot artifact target)
      (fun _ fs' => ∃ package records files, snapshot.get? artifact.key = some package ∧
        s.records target fs = .ok records ∧
        Saved s base target (records.insert artifact.key ⟨package.version, files⟩)
          (Zone base target fs) fs fs')
      (Kept s base target fs) := by
  refine ⟨?_⟩
  rintro fs rfl
  rcases hrun : s.install snapshot artifact target fs with ⟨result, fs'⟩
  rcases h.install_cases hid hrun with ⟨⟨cause, rfl⟩, hlayout, hsame⟩ | hsaved
  · exact ⟨hlayout, hsame.mono fun _ => Or.inl⟩
  · obtain ⟨package, records, content, files, mid, saved, hpackage, hrecords, -, hunpacked, hsaved,
      rfl⟩ := hsaved
    have hsave := hunpacked.kept.meets_saveRecords
      (records.insert artifact.key ⟨package.version, files⟩)
    cases saved with
    | error cause => exact hsave.of_run_eq_error rfl hsaved
    | ok value => exact ⟨package, records, files, hpackage, hrecords, hsave.of_run_eq_ok rfl hsaved⟩

theorem Layout.meets_readRecords {δ : Type} (h : Layout s base fs) (target : Target)
    (f : DocumentError → δ) :
    Disk.Meets (· = fs) ((Disk.inspect (s.records target)).adapt f)
      (fun records fs' => fs' = fs ∧ s.records target fs = .ok records)
      (Kept s base target fs) := by
  refine .adapt (.inspect ?_ ?_)
  · rintro fs' records rfl hrecords
    exact ⟨rfl, hrecords⟩
  · rintro fs' rfl
    exact ⟨h, .refl _ _⟩

/-- **What uninstalling does.**  It replaces the records by ones without the package, or it leaves
the records alone; apart from the records, only the packages of the target change.  Any key will
do, as none with slashes in its id is recorded. -/
theorem Layout.meets_uninstall (h : Layout s base fs) (key : PackageKey) (target : Target) :
    Disk.Meets (· = fs) (s.uninstall key target)
      (fun _ fs' => ∃ records, s.records target fs = .ok records ∧
        Saved s base target (records.erase key) (Zone base target fs) fs fs')
      (Kept s base target fs) := by
  have hkept : Kept s base target fs fs := ⟨h, .refl _ _⟩
  rw [uninstall]
  refine (h.meets_readRecords target _).bind fun records =>
    .of_forall fun fs' ⟨hfs', hrecords⟩ => ?_
  subst fs'
  refine .ite (fun _ => .throw_bind fun fs' hfs' => hfs' ▸ hkept) fun hfound => ?_
  have hname := ordinary_packageName (slash_notMem_of_records hrecords
    (Option.isSome_iff_ne_none.mpr (by simpa using hfound)))
  have hclear : Disk.Meets (· = fs) ((clearPackageDir (s.packageDir key target)).adapt
        fun cause => UninstallError.io cause.message)
      (fun _ => Kept s base target fs) (Kept s base target fs) :=
    (h.meets_clearPackageDir hname).adapt
  refine hclear.bind fun _ => .adapt (.of_forall fun fs' hfs' => ?_)
  exact (hfs'.meets_saveRecords _).weaken (fun _ => id)
    (fun _ _ hsaved => ⟨records, hrecords, hsaved⟩) fun _ => id

end Provision.DirectoryStore
