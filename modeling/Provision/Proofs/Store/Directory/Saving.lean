import Provision.Proofs.Store.Directory.Layout
import Provision.Proofs.Store.Directory.Records

/-!
# Reading and replacing the records of a store

In the layout of a store, the records of a target are what its file says
(`Layout.records_of_file`).  They are replaced through a draft beside the file: either the draft
takes the place of the file (`Saved`), or it is taken away and the records are what they were
(`Layout.meets_saveRecords`).
-/
namespace Provision.DirectoryStore

open FileSystem
open Provision.Path (Ordinary Fits)

variable {s : DirectoryStore} {base : Location} {target : Target} {fs fs' : FileSystem}
  {records : InstalledRecords}

/-! ## Reading -/

/-- Where nothing is recorded, there are no records. -/
theorem Layout.records_of_none (h : Layout s base fs)
    (hnone : fs.get? (recordsPlace base target) = none) : s.records target fs = .ok [] := by
  have habsent : fs.contains (s.recordsPath target) = false := by
    rw [contains]
    cases hfind : fs.find? (s.recordsPath target) with
    | error cause => rfl
    | ok found =>
      obtain ⟨hlocate, hentry⟩ := find?_eq_ok_iff.mp hfind
      obtain ⟨-, -, place, hplace, hstands⟩ := exists_enters_of_locate ordinary_installed hlocate
      obtain rfl := h.eq_of_enters_targetDir hplace
      rcases hstands with heq | ⟨-, path, hlink⟩
      · rw [heq] at hentry
        exact nomatch hnone.symm.trans hentry
      · exact nomatch hnone.symm.trans hlink
  rw [DirectoryStore.records, habsent]
  rfl

/-- **Records are read from their file.** -/
theorem Layout.records_of_file (h : Layout s base fs) (hfits : Fits (s.recordsPath target))
    {content : Bytes} (hfile : fs.get? (recordsPlace base target) = some (.file content)) :
    s.records target fs =
      (Json.decodeBytes InstalledRecords.decode content).mapError .invalid := by
  have hdirectory : fs.get? (targetPlace base target) = some .directory :=
    h.grounded _ (Utf8.ofString "installed.json") (List.prefix_append _ _)
      (by rw [← recordsPlace, hfile]; exact Option.some_ne_none _)
  have hlocate : fs.locate (s.recordsPath target) true = .ok (recordsPlace base target) :=
    (h.enters_targetDir hdirectory).locate_child ordinary_installed hfits (by decide)
      fun _ path hlink => by cases hfile.symm.trans hlink
  have hfind : fs.find? (s.recordsPath target) = .ok (recordsPlace base target, .file content) :=
    find?_eq_ok_iff.mpr ⟨hlocate, hfile⟩
  rw [DirectoryStore.records, contains, hfind]
  simp only [readJson, hfind]
  rfl

/-- A file that no path leads to records nothing. -/
theorem records_of_not_fits (hfits : ¬ Fits (s.recordsPath target)) :
    s.records target fs = .ok [] := by
  have habsent : fs.contains (s.recordsPath target) = false := by
    rw [contains]
    cases hfind : fs.find? (s.recordsPath target) with
    | error cause => rfl
    | ok found => exact absurd (locate_eq_ok_iff.mp (find?_eq_ok_iff.mp hfind).1).1 hfits
  rw [DirectoryStore.records, habsent]
  rfl

/-- The records are told by what stands at their place. -/
theorem Layout.records_congr (h : Layout s base fs) (h' : Layout s base fs')
    (hsame : fs'.get? (recordsPlace base target) = fs.get? (recordsPlace base target)) :
    s.records target fs' = s.records target fs := by
  rcases h.records target with hnone | ⟨content, hfile⟩
  · rw [h.records_of_none hnone, h'.records_of_none (hsame.trans hnone)]
  · by_cases hfits : Fits (s.recordsPath target)
    · rw [h.records_of_file hfits hfile, h'.records_of_file hfits (hsame.trans hfile)]
    · rw [records_of_not_fits hfits, records_of_not_fits hfits]

/-! ## Saving -/

theorem Layout.of_records (h : Layout s base fs)
    (hsame : SameExcept (· = recordsPlace base target) fs fs') (hgrounded : Grounded base fs')
    (hrecords : fs'.get? (recordsPlace base target) = none ∨
      ∃ content, fs'.get? (recordsPlace base target) = some (.file content)) :
    Layout s base fs' where
  root := h.root.of_sameExcept (hsame.mono fun x hx => hx ▸ below_recordsPlace base target)
  grounded := hgrounded
  target target' := by
    rw [hsame.get? _ (recordsPlace_ne_targetPlace _ _).symm]
    exact h.target target'
  packages target' := by
    rw [hsame.get? _ (recordsPlace_ne_packagesPlace _ _).symm]
    exact h.packages target'
  records target' := by
    by_cases heq : recordsPlace base target' = recordsPlace base target
    · rw [heq]
      exact hrecords
    · rw [hsame.get? _ heq]
      exact h.records target'

/-- **What saving records achieves**, where nothing changes but a zone and the records. -/
structure Saved (s : DirectoryStore) (base : Location) (target : Target)
    (records : InstalledRecords) (zone : Location → Prop) (fs fs' : FileSystem) : Prop where
  layout : Layout s base fs'
  same : SameExcept (fun x => zone x ∨ x = recordsPlace base target) fs fs'
  fits : Fits (s.recordsPath target)
  recorded : ∃ json, records.toJson = .ok json ∧
    fs'.get? (recordsPlace base target) = some (.file (Utf8.encode (json.pretty 0)))

theorem Saved.of_sameExcept {zone zone' : Location → Prop} {fs₀ : FileSystem}
    (h : Saved s base target records zone' fs fs') (hfs : SameExcept zone fs₀ fs)
    (hzone : ∀ x, zone' x → zone x) : Saved s base target records zone fs₀ fs' :=
  ⟨h.layout, (hfs.mono fun _ => Or.inl).trans (h.same.mono fun x => Or.imp_left (hzone x)),
    h.fits, h.recorded⟩

/-- A draft of the records has been written. -/
structure Drafted (s : DirectoryStore) (base : Location) (target : Target) (draft : FileName)
    (content : Bytes) (fs fs' : FileSystem) : Prop where
  names : Names fs (s.targetDir target) draft (targetPlace base target)
  free : fs.get? (targetPlace base target ++ [draft]) = none
  eq_put : fs' = fs.put (targetPlace base target ++ [draft]) (.file content)

section Replacing

variable {content : Bytes} {draft : FileName} (hdraft : Ordinary draft)
include hdraft

/-- The draft has taken the place of the records, and nothing is left to be taken away. -/
theorem Drafted.moved {fs'' : FileSystem} (h : Drafted s base target draft content fs fs')
    (hfs : Layout s base fs) (hne : draft ≠ Utf8.ofString "installed.json")
    (hmoved : fs'' = fs'.moved (targetPlace base target ++ [draft]) (recordsPlace base target)) :
    Layout s base fs'' ∧ SameExcept (· = recordsPlace base target) fs fs'' ∧
      fs''.get? (recordsPlace base target) = some (.file content) ∧
      (fs''.removeFile ((s.targetDir target).join ⟨draft⟩)).toOption.getD fs'' = fs'' := by
  obtain ⟨hnames, hfree, rfl⟩ := h
  have hstarts : base <+: targetPlace base target := List.prefix_append _ _
  have hrecords : fs.get? (recordsPlace base target) ≠ some .directory := by
    intro heq
    rcases hfs.records target with hnone | ⟨content, hfile⟩
    · exact nomatch hnone.symm.trans heq
    · exact nomatch hfile.symm.trans heq
  have hget (x : Location) : fs''.get? x =
      if x = recordsPlace base target then some (.file content) else fs.get? x := by
    rw [hmoved]
    exact get?_moved_put (hfs.grounded.mono hstarts) hfree hrecords hne x
  have hsame : SameExcept (· = recordsPlace base target) fs fs'' :=
    ⟨by rw [hmoved]; rfl, fun x hx => by rw [hget, if_neg hx]⟩
  have hfile : fs''.get? (recordsPlace base target) = some (.file content) := by
    rw [hget, if_pos rfl]
  have hgrounded : Grounded base fs'' := by
    have hput : Grounded base (fs.put (targetPlace base target ++ [draft]) (.file content)) :=
      hfs.grounded.put hnames.enters.directory hfree
    rw [hmoved]
    exact hput.moved (by rw [get?_put (by simp), if_neg (by simp), hnames.enters.directory])
      hstarts hne
  have hlayout := hfs.of_records hsame hgrounded (Or.inr ⟨_, hfile⟩)
  refine ⟨hlayout, hsame, hfile, ?_⟩
  cases hremove : fs''.removeFile ((s.targetDir target).join ⟨draft⟩) with
  | error cause => rfl
  | ok fs₃ =>
    obtain ⟨place, entry, hnames, hentry, -⟩ := (removeFile_child_iff hdraft).mp hremove
    rw [hlayout.eq_of_enters_targetDir hnames.enters, hget, hfree, if_neg] at hentry
    · cases hentry
    · simpa [recordsPlace] using hne

/-- A draft that could not take the place of the records is taken away again. -/
theorem Drafted.pruned (h : Drafted s base target draft content fs fs') (hfs : Layout s base fs) :
    Layout s base ((fs'.removeFile ((s.targetDir target).join ⟨draft⟩)).toOption.getD fs') ∧
      SameExcept (fun _ => False) fs
        ((fs'.removeFile ((s.targetDir target).join ⟨draft⟩)).toOption.getD fs') := by
  obtain ⟨hnames, hfree, rfl⟩ := h
  have hentry : (fs.put (targetPlace base target ++ [draft]) (.file content)).get?
      (targetPlace base target ++ [draft]) = some (.file content) := by
    rw [get?_put (by simp), if_pos rfl]
  rw [(removeFile_child_iff hdraft).mpr ⟨_, _,
    ⟨hnames.fits, hnames.length_le, hnames.enters.put hfree⟩, hentry, nofun, rfl⟩]
  change Layout s base (FileSystem.prune _ _) ∧ SameExcept _ fs (FileSystem.prune _ _)
  have hsame : SameExcept (fun _ => False) fs
      ((fs.put (targetPlace base target ++ [draft]) (.file content)).prune
        (targetPlace base target ++ [draft])) :=
    ⟨rfl, fun x _ => get?_prune_put (hfs.grounded.mono (List.prefix_append _ _)) hfree x⟩
  have hrecords : SameExcept (· = recordsPlace base target) fs _ := hsame.mono fun _ => False.elim
  refine ⟨hfs.of_records hrecords
    ((hfs.grounded.put hnames.enters.directory hfree).prune (by simp)) ?_, hsame⟩
  rw [hsame.get? _ id]
  exact hfs.records target

/-- **Records are replaced as a whole, or stay as they are.** -/
theorem Layout.meets_replaceRecords (h : Layout s base fs) (target : Target) {json : Json}
    (hjson : records.toJson = .ok json) (hne : draft ≠ Utf8.ofString "installed.json") :
    Disk.Meets (· = fs) (do
        (Disk.change (·.writeNew ((s.targetDir target).join ⟨draft⟩)
          (Utf8.encode (json.pretty 0)))).adapt DocumentError.io
        Disk.cleaning ((s.targetDir target).join ⟨draft⟩) FileSystem.removeFile
          ((Disk.change (·.rename ((s.targetDir target).join ⟨draft⟩)
            (s.recordsPath target))).adapt DocumentError.io))
      (fun _ fs' => Saved s base target records (fun _ => False) fs fs')
      (fun fs' => Layout s base fs' ∧ SameExcept (fun _ => False) fs fs') := by
  have hwrite : Disk.Meets (· = fs) ((Disk.change (·.writeNew ((s.targetDir target).join ⟨draft⟩)
        (Utf8.encode (json.pretty 0)))).adapt DocumentError.io)
      (fun _ => Drafted s base target draft (Utf8.encode (json.pretty 0)) fs)
      (fun fs' => Layout s base fs' ∧ SameExcept (fun _ => False) fs fs') := by
    refine .adapt (.change ?_ ?_)
    · rintro _ fs' rfl hcall
      obtain ⟨place, hnames, hfree, rfl⟩ := (writeNew_child_iff hdraft).mp hcall
      obtain rfl := h.eq_of_enters_targetDir hnames.enters
      exact ⟨hnames, hfree, rfl⟩
    · rintro _ rfl
      exact ⟨h, .refl _ _⟩
  have hrename : Disk.Meets (Drafted s base target draft (Utf8.encode (json.pretty 0)) fs)
      ((Disk.change (·.rename ((s.targetDir target).join ⟨draft⟩)
        (s.recordsPath target))).adapt DocumentError.io)
      (fun _ fs'' => Fits (s.recordsPath target) ∧
        ∃ fs', Drafted s base target draft (Utf8.encode (json.pretty 0)) fs fs' ∧
          fs'' = fs'.moved (targetPlace base target ++ [draft]) (recordsPlace base target))
      (Drafted s base target draft (Utf8.encode (json.pretty 0)) fs) := by
    refine .adapt (.change (fun fs' fs'' hdrafted hcall => ?_) fun _ => id)
    obtain ⟨place, entry, hnames, hrecords, -, ⟨heq, -⟩ | ⟨-, -, rfl⟩⟩ :=
      rename_child_eq_ok hdraft ordinary_installed hcall
    · exact absurd heq hne
    · have henters : Enters fs' (s.targetDir target) (targetPlace base target) := by
        rw [hdrafted.eq_put]
        exact hdrafted.names.enters.put hdrafted.free
      rw [hnames.enters.unique henters]
      exact ⟨hrecords.fits, fs', hdrafted, rfl⟩
  refine hwrite.bind fun _ => hrename.cleaning ?_ ?_
  · rintro - fs'' ⟨hfits, fs', hdrafted, hmoved⟩
    obtain ⟨hlayout, hsame, hfile, hclean⟩ := hdrafted.moved hdraft h hne hmoved
    rw [hclean]
    exact ⟨hlayout, hsame.mono fun _ => Or.inr, hfits, json, hjson, hfile⟩
  · exact fun fs' hdrafted => hdrafted.pruned hdraft h

end Replacing

theorem draft_ne_installed (middle : String) :
    Utf8.ofString (".tmp" ++ middle ++ "") ≠ Utf8.ofString "installed.json" := by
  intro heq
  have hhead := congrArg (·.toList.head?) (Utf8.ofString_injective heq)
  simp at hhead

/-- **What saving records achieves.** -/
theorem Layout.meets_saveRecords (h : Layout s base fs) (target : Target)
    (records : InstalledRecords) :
    Disk.Meets (· = fs) (s.saveRecords target records)
      (fun _ fs' => Saved s base target records (Absent base target fs) fs fs')
      (fun fs' => Layout s base fs' ∧ SameExcept (Absent base target fs) fs fs') := by
  rw [saveRecords]
  refine (h.meets_makeTargetDir target).adapt.bind fun _ => ?_
  refine .lift_bind (fun json hjson => .look_bind fun draft => .of_forall ?_) fun _ hfs => hfs.1
  rintro fs₁ ⟨⟨⟨hfs₁, hsame⟩, -⟩, rfl⟩
  have hdraft := s.naming.ordinary_choose fs₁ (s.targetDir target) ".tmp" "" (c := 't')
    (by simp) (by decide) (by simp) (by simp)
  have hreplace := hfs₁.meets_replaceRecords hdraft target hjson (draft_ne_installed _)
  refine hreplace.weaken (fun _ => id) ?_ ?_
  · exact fun _ fs' hsaved => hsaved.of_sameExcept hsame fun _ => False.elim
  · exact fun fs' hfs' => ⟨hfs'.1, hsame.trans (hfs'.2.mono fun _ => False.elim)⟩

/-- **Records are not saved** if the file system refuses, or if they cannot be written. -/
theorem saveRecords_eq_error {cause : DocumentError}
    (h : s.saveRecords target records fs = (.error cause, fs')) :
    (∃ refusal, cause = .io refusal) ∨ records.toJson = .error cause := by
  rw [saveRecords, Disk.run_bind_eq_error] at h
  rcases h with h | ⟨⟨⟩, fs₁, -, h⟩
  · obtain ⟨refusal, -, rfl⟩ := Disk.run_adapt_eq_error.mp h
    exact Or.inl ⟨refusal, rfl⟩
  rcases Disk.run_bind_eq_error.mp h with h | ⟨json, fs₂, -, h⟩
  · rw [Disk.run_lift] at h
    exact Or.inr (Prod.mk.inj h).1
  rcases Disk.run_bind_eq_error.mp h with h | ⟨draft, fs₃, -, h⟩
  · cases h
  rcases Disk.run_bind_eq_error.mp h with h | ⟨⟨⟩, fs₄, -, h⟩
  · obtain ⟨refusal, -, rfl⟩ := Disk.run_adapt_eq_error.mp h
    exact Or.inl ⟨refusal, rfl⟩
  · rw [Disk.run_cleaning] at h
    obtain ⟨hrename, -⟩ := Prod.mk.inj h
    obtain ⟨refusal, -, rfl⟩ := Disk.run_adapt_eq_error.mp (Prod.ext hrename rfl)
    exact Or.inl ⟨refusal, rfl⟩

end Provision.DirectoryStore
