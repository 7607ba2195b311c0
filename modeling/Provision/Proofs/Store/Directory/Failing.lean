import Provision.Archive.Tar.Writer
import Provision.Proofs.Store.Directory.Containment

/-!
# Installations that fail

An archive is extracted beside the packages first, so an installation that fails mostly leaves
everything as it was (`Untouched`).  The records come after the package's directory, though.  When
they cannot be saved, the directory already holds what was extracted, and what it held before is
gone (`Overtaken`).  This is so if the file system refuses the new records, and also if they cannot
be written because the archive has a file whose path is no text
(`Layout.untouched_or_overtaken_of_install`), which happens to an archive that is in good order
otherwise (`unwritable_file_overtakes`).
-/
namespace Provision.DirectoryStore

open FileSystem

variable {s : DirectoryStore} {base : Location} {target : Target} {fs fs' fs₁ fs₂ : FileSystem}
  {key : PackageKey} {r : ArchiveReading} {files : List Path}

/-- **A store that is as it was**: nothing has changed anywhere, but that directories of the store
may have been made that were missing.  So the packages of both targets are what they were, and
nothing is left beside them. -/
structure Untouched (s : DirectoryStore) (base : Location) (target : Target)
    (fs fs' : FileSystem) : Prop where
  layout : Layout s base fs'
  same : SameExcept (Layout.Absent base target fs) fs fs'
  records : ∀ target', s.records target' fs' = s.records target' fs

/-- **A package that was overtaken**: its directory holds what the archive was extracted to, but
the records say what they said before.  Nothing else has changed. -/
structure Overtaken (s : DirectoryStore) (base : Location) (target : Target) (key : PackageKey)
    (r : ArchiveReading) (fs fs' : FileSystem) : Prop where
  unpacked : Unpacked s base target key r r.filePaths fs fs'
  records : ∀ target', s.records target' fs' = s.records target' fs

theorem Layout.untouched (h : Layout s base fs) (hfs' : Layout s base fs')
    (hsame : SameExcept (Absent base target fs) fs fs') : Untouched s base target fs fs' := by
  refine ⟨hfs', hsame, fun target' => h.records_congr hfs' (hsame.get? _ ?_)⟩
  rintro ⟨heq | heq, -⟩
  · exact recordsPlace_ne_targetPlace _ _ heq
  · exact recordsPlace_ne_packagesPlace _ _ heq

/-- The files of a package that was unpacked are those of its archive. -/
theorem Unpacked.files_eq (h : Unpacked s base target key r files fs fs') :
    files = r.filePaths := by
  obtain ⟨name, fs₁, fs₂, -, hrun, -⟩ := h.contents
  exact ((Archive.meets_extract_value _ r).of_run_eq_ok trivial hrun).1

/-- Records that could not be saved leave the package unpacked. -/
theorem Unpacked.overtaken (h : Unpacked s base target key r files fs fs₁) (hfs : Layout s base fs)
    {records : InstalledRecords} {cause : DocumentError}
    (hsaved : s.saveRecords target records fs₁ = (.error cause, fs')) :
    Overtaken s base target key r fs fs' := by
  obtain ⟨hlayout, hsame⟩ := (h.layout.meets_saveRecords target records).of_run_eq_error rfl hsaved
  have hget (x : Location) : fs'.get? x = fs₁.get? x :=
    hsame.get? x (h.layout.not_absent h.names.enters.directory)
  refine ⟨⟨hlayout, h.same.trans (hsame.mono fun x hx => ?_),
    ⟨h.names.fits, h.names.length_le, hlayout.enters_packagesDir ?_⟩, (hget _).trans h.made, ?_⟩,
    fun target' => hfs.records_congr hlayout ?_⟩
  · exact absurd hx (h.layout.not_absent h.names.enters.directory)
  · exact (hget _).trans h.names.enters.directory
  · obtain ⟨name, fs₂, fs₃, hstaged, hrun, hplaced⟩ := h.contents
    exact ⟨name, fs₂, fs₃, hstaged, h.files_eq ▸ hrun, fun rest => (hget _).trans (hplaced rest)⟩
  · rw [hget, h.same.get?]
    rintro (⟨heq | heq, -⟩ | hstarts)
    · exact recordsPlace_ne_targetPlace _ _ heq
    · exact recordsPlace_ne_packagesPlace _ _ heq
    · exact ne_recordsPlace_of_below (below_of_isPrefix_child hstarts) target' rfl

/-- **What a failed installation leaves behind.**  Everything is as it was; or else the archive has
taken the place of the package's directory, and the records could not be saved, because a file of
the archive has a path that is no text, or because the file system refused. -/
theorem Layout.untouched_or_overtaken_of_install (h : Layout s base fs) {snapshot : Snapshot}
    {artifact : Artifact} (hid : (snapshot.get? artifact.key).isSome → '/' ∉ artifact.key.id.toList)
    {cause : InstallError}
    (hrun : s.install snapshot artifact target fs = (.error cause, fs')) :
    Untouched s base target fs fs' ∨
      ∃ content, NamesFile fs artifact.path content ∧
        Overtaken s base target artifact.key (s.readArchive content) fs fs' ∧
        ((∃ p ∈ (s.readArchive content).filePaths, p.text? = none) ∨
          ∃ refusal, cause = .store (DocumentError.io refusal).message) := by
  rcases h.install_cases hid hrun with ⟨-, hlayout, hsame⟩ | hsaved
  · exact Or.inl (h.untouched hlayout hsame)
  obtain ⟨package, records, content, files, mid, saved, hpackage, hrecords, hcontent, hunpacked,
    hsaved, hresult⟩ := hsaved
  cases saved with
  | ok value => cases hresult
  | error refused =>
    cases hresult
    refine Or.inr ⟨content, hcontent, hunpacked.overtaken h hsaved, ?_⟩
    rcases saveRecords_eq_error hsaved with ⟨refusal, rfl⟩ | hjson
    · exact Or.inr ⟨refusal, rfl⟩
    · obtain ⟨p, hp, htext⟩ := exists_of_insert_toJson_eq_error hrecords hjson
      exact Or.inl ⟨p, hunpacked.files_eq ▸ hp, htext⟩

namespace Sample

/-- A compressed file that holds a content as it is. -/
def packed (content : Bytes) : Bytes :=
  Gzip.mark ++ List.replicate 7 0 ++ 1 :: Gzip.littleEndianBytes 2 content.length ++
    Gzip.littleEndianBytes 2 (0xFFFF - content.length) ++ content ++
    Gzip.littleEndianBytes 4 (Crc32.checksum content).toNat ++
    Gzip.littleEndianBytes 4 content.length

/-- An archive with one file, which is empty. -/
def archiveOf (path : Bytes) : Bytes :=
  packed (Tar.writeEntry ⟨⟨path⟩, .file, []⟩)

/-- The place of the application. -/
def appPlace : Location := packagesPlace root .user ++ [Utf8.ofString "app-743eb8fff4f1"]

/-- The file of the application that is installed. -/
def oldFile : Location := appPlace ++ [Utf8.ofString "old"]

/-- A store that has installed the application, and an archive. -/
def upgrading (archive : Bytes) : FileSystem where
  entries := [(root, .directory), (targetPlace root .user, .directory),
    (recordsPlace root .user, .file (Utf8.ofString
      "\x7b\"r/packages/app\":\x7b\"version\":\"1\",\"files\":[\"old\"]\x7d\x7d")),
    (packagesPlace root .user, .directory), (appPlace, .directory), (oldFile, .file []),
    ([Utf8.ofString "archive"], .file archive)]
  working := []

/-- The second version of the application, as it is on offer. -/
def offer : Snapshot :=
  (RepositoryIndex.ofRepositories [(Repository.empty "r" none).insert
    ⟨keyOf "app", ⟨0, "2"⟩, [], .full, none⟩]).snapshot

/-- Installing it from the archive. -/
def upgrade (archive : Bytes) : Except InstallError Unit × FileSystem :=
  store.install offer (artifact (keyOf "app")) .user (upgrading archive)

theorem anchored_root (hroot : fs.get? root = some .directory) : Anchored fs store.root root := by
  have hname : Path.Ordinary (Utf8.ofString "root") :=
    Path.ordinary_ofString (by decide) (by decide) (by decide) (by decide)
  have htop : Anchored fs (.ofString "/") [] := fun _ _ => ⟨get?_root _, mostLinks, .done⟩
  exact htop.child hname (by decide) hroot

theorem layout_upgrading (archive : Bytes) : Layout store root (upgrading archive) where
  root := anchored_root rfl
  grounded := by
    refine .of_entries ?_
    simp only [upgrading, List.forall_mem_cons]
    exact ⟨fun _ => rfl, fun _ => rfl, fun _ => rfl, fun _ => rfl, fun _ => rfl, fun _ => rfl,
      fun _ => rfl, nofun⟩
  target
    | .user => Or.inr rfl
    | .system => Or.inl rfl
  packages
    | .user => Or.inr rfl
    | .system => Or.inl rfl
  records
    | .user => Or.inr ⟨_, rfl⟩
    | .system => Or.inl rfl

end Sample

/-- An archive with nothing in it, not even a header. -/
theorem sample_untouched_or_overtaken : ∃ cause fs', Layout Sample.store Sample.root
      (Sample.upgrading []) ∧
    ((Sample.offer.get? (Sample.keyOf "app")).isSome → '/' ∉ (Sample.keyOf "app").id.toList) ∧
    Sample.upgrade [] = (.error cause, fs') ∧
    (Untouched Sample.store Sample.root .user (Sample.upgrading []) fs' ∨
      ∃ content, NamesFile (Sample.upgrading []) (.ofString "/archive") content ∧
        Overtaken Sample.store Sample.root .user (Sample.keyOf "app") (Tar.readCompressed content)
          (Sample.upgrading []) fs' ∧
        ((∃ p ∈ (Tar.readCompressed content).filePaths, p.text? = none) ∨
          ∃ refusal, cause = .store (DocumentError.io refusal).message)) := by
  have hfails : (Sample.upgrade []).1.isOk = false := by decide +kernel
  have hid : (Sample.offer.get? (Sample.keyOf "app")).isSome →
      '/' ∉ (Sample.keyOf "app").id.toList := fun _ => by decide
  rcases hrun : Sample.upgrade [] with ⟨cause | value, fs'⟩
  · have hinstall : Sample.store.install Sample.offer (Sample.artifact (Sample.keyOf "app")) .user
        (Sample.upgrading []) = (.error cause, fs') := hrun
    exact ⟨cause, fs', Sample.layout_upgrading [], hid, rfl,
      (Sample.layout_upgrading []).untouched_or_overtaken_of_install hid hinstall⟩
  · rw [hrun] at hfails
    cases hfails

set_option maxRecDepth 100000 in
/-- **An archive with a file whose path is no text** replaces what was installed, though it is not
installed: the records still tell of the first version, and its file is gone. -/
theorem unwritable_file_overtakes :
    Layout Sample.store Sample.root (Sample.upgrading (Sample.archiveOf [0xFF])) ∧
      '/' ∉ (Sample.keyOf "app").id.toList ∧
      ∃ cause fs', Sample.upgrade (Sample.archiveOf [0xFF]) = (.error cause, fs') ∧
        (Sample.upgrading (Sample.archiveOf [0xFF])).get? Sample.oldFile = some (.file []) ∧
        fs'.get? Sample.oldFile = none ∧
        (Sample.store.installed .user fs').toOption = some [(Sample.keyOf "app", ⟨0, "1"⟩)] := by
  have hall : ((Sample.upgrade (Sample.archiveOf [0xFF])).1.isOk,
      (Sample.upgrade (Sample.archiveOf [0xFF])).2.get? Sample.oldFile,
      (Sample.store.installed .user (Sample.upgrade (Sample.archiveOf [0xFF])).2).toOption) =
      (false, none, some [(Sample.keyOf "app", ⟨0, "1"⟩)]) := by
    decide +kernel
  refine ⟨Sample.layout_upgrading _, by decide, ?_⟩
  rcases hrun : Sample.upgrade (Sample.archiveOf [0xFF]) with ⟨cause | value, fs'⟩
  · rw [hrun] at hall
    obtain ⟨-, hrest⟩ := Prod.mk.inj hall
    obtain ⟨hold, hrecords⟩ := Prod.mk.inj hrest
    exact ⟨cause, fs', rfl, rfl, hold, hrecords⟩
  · rw [hrun] at hall
    cases hall

end Provision.DirectoryStore
