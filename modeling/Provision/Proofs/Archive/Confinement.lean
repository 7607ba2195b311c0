import Provision.Archive.Extract
import Provision.Proofs.Files.Growth

/-!
# Extracting does not leave its directory

The entries of an archive choose their paths and their links.  Still nothing changes but what is
below the directory that is extracted to (`meets_extract`): a path that goes up is refused, and
before anything is put somewhere, the nearest directory that is there and then the directory
itself are checked to lie within (`meets_enterDirectory`).  What replaces a file first takes it
away, which cannot make a path lead somewhere else (`LeadsInside.prune`).

An entry that is extracted only adds to what is there, and something stands at the end of its path
then (`meets_extractEntry`).
-/
namespace Provision

open FileSystem
open Provision.Path (Ordinary Fits)

variable {fs fs' fs₀ : FileSystem} {root p : Path} {place base inner : Location} {name : FileName}
  {names : List FileName} {entry : FileEntry} {linked : Prop}

/-- An entry that may leave a link.  A hard link does where it leads to one. -/
def ArchiveEntry.IsLink (e : ArchiveEntry) : Prop :=
  (∃ target, e.kind = .symbolicLink target) ∨ ∃ target, e.kind = .hardLink target

namespace Path

/-- A path with further names. -/
def descend (p : Path) (names : List FileName) : Path :=
  names.foldl (fun p name => p.join ⟨name⟩) p

theorem descend_concat (p : Path) (names : List FileName) (name : FileName) :
    p.descend (names ++ [name]) = (p.descend names).join ⟨name⟩ :=
  List.foldl_concat ..

theorem normal_descend (h : ∀ name ∈ names, Ordinary name) :
    (p.descend names).normal = p.normal.descend names := by
  induction names using List.reverseRecOn with
  | nil => rfl
  | append_singleton names name ih =>
    rw [descend_concat, descend_concat, normal_child (h name (by simp)),
      ih fun name hname => h name (List.mem_append_left _ hname)]

theorem localNames_descend (h : ∀ name ∈ names, Ordinary name) :
    (p.descend names).localNames = p.localNames ++ names := by
  induction names using List.reverseRecOn with
  | nil => exact (List.append_nil _).symm
  | append_singleton names name ih =>
    rw [descend_concat, localNames_child (h name (by simp)),
      ih fun name hname => h name (List.mem_append_left _ hname), List.append_assoc]

theorem isAbsolute_descend (h : ∀ name ∈ names, Ordinary name) :
    (p.descend names).isAbsolute = p.isAbsolute := by
  induction names using List.reverseRecOn with
  | nil => rfl
  | append_singleton names name ih =>
    rw [descend_concat, isAbsolute_child (h name (by simp)),
      ih fun name hname => h name (List.mem_append_left _ hname)]

/-- The names of a path that does not go up. -/
theorem ordinary_of_mem_localNames (h : p.goesUp = false) (hname : name ∈ p.localNames) :
    Ordinary name := by
  obtain ⟨hmem, hhere⟩ := List.mem_filter.mp hname
  obtain ⟨hne, hslash⟩ := proper_of_mem_names hmem
  refine ⟨hne, by simpa using hhere, ?_, hslash⟩
  rintro rfl
  rw [goesUp, List.contains_eq_mem, decide_eq_false_iff_not] at h
  exact h hmem

end Path

namespace FileSystem

theorem leadsInto_iff (hroot : Enters fs root place) (hfits : Fits root) :
    fs.leadsInto root p = true ↔
      ∃ inner entry, fs.find? p = .ok (inner, entry) ∧ place <+: inner := by
  rw [leadsInto, hroot.find? hfits]
  cases fs.find? p with
  | error cause => simp
  | ok found =>
    simp only [List.isPrefixOf_iff_prefix, Except.ok.injEq]
    constructor
    · exact fun h => ⟨found.1, found.2, rfl, h⟩
    · rintro ⟨inner, entry, rfl, h⟩
      exact h

/-- Directories are entered by their names. -/
theorem Enters.descend (h : Enters fs p place) (hnames : ∀ name ∈ names, Ordinary name)
    (hlength : ∀ name ∈ names, name.length ≤ longestName)
    (hdirectory : ∀ front, front <+: names → fs.get? (place ++ front) = some .directory) :
    Enters fs (p.descend names) (place ++ names) := by
  induction names using List.reverseRecOn with
  | nil => rwa [List.append_nil]
  | append_singleton names name ih =>
    have hfront := ih (fun name hname => hnames name (List.mem_append_left _ hname))
      (fun name hname => hlength name (List.mem_append_left _ hname))
      fun front hfront => hdirectory front (hfront.trans (List.prefix_append _ _))
    have hlast := hdirectory (names ++ [name]) List.prefix_rfl
    rw [← List.append_assoc] at hlast ⊢
    rw [Path.descend_concat]
    exact hfront.child (hnames name (by simp)) (hlength name (by simp)) hlast

/-- What is missing of a path is missing from a place on that the first directory present leads
to. -/
theorem exists_missing_of_firstPresent? {first : Path} {outer : Location}
    (hroot : Enters fs root outer) (hfits : root.bytes = [] ∨ Fits root)
    (htrimmed : root.trimmed = root) (hnames : ∀ name ∈ names, Ordinary name)
    (hfirst : fs.firstPresent? (root.descend names).ancestors = some first)
    (hleads : ∃ inner entry, fs.find? first = .ok (inner, entry) ∧ outer <+: inner) :
    ∃ place missing, outer <+: place ∧ Missing fs place (root.descend names) missing := by
  induction names using List.reverseRecOn generalizing root with
  | nil =>
    exact ⟨outer, [], List.prefix_rfl,
      .present (hfits.imp_right fun h => ⟨hroot.present h, htrimmed⟩)
        fun goal hgoal => hgoal.unique hroot⟩
  | append_singleton names name ih =>
    have hname := hnames name (by simp)
    have hfront : ∀ name ∈ names, Ordinary name := fun name hmem =>
      hnames name (List.mem_append_left _ hmem)
    rw [Path.descend_concat, Path.ancestors_child hname, firstPresent?, List.find?_cons] at hfirst
    rw [Path.descend_concat]
    by_cases hpresent : Present fs ((root.descend names).join ⟨name⟩)
    · simp only [show _ = true from hpresent] at hfirst
      cases hfirst
      obtain ⟨inner, entry, hfind, hinner⟩ := hleads
      exact ⟨inner, [], hinner, .present (Or.inr ⟨hpresent, Path.trimmed_child hname⟩)
        fun goal hgoal => (hgoal.eq_of_find? hfind).symm⟩
    · simp only [show _ = false from Bool.eq_false_iff.mpr hpresent,
        Path.normal_descend hfront] at hfirst
      have hnormal : root.normal.bytes = [] ∨ Fits root.normal := by
        by_cases hnil : root.normal.bytes = []
        · exact Or.inl hnil
        · exact Or.inr ((hfits.resolve_left fun h => hnil (Path.bytes_normal_of_nil h)).normal hnil)
      obtain ⟨place, missing, hplace, hmissing⟩ := ih (enters_normal_iff.mpr hroot) hnormal
        (Path.trimmed_normal root) hfront hfirst
      rw [← Path.normal_descend hfront] at hmissing
      exact ⟨place, missing ++ [name], hplace, .child hname hpresent fun _ => hmissing⟩

end FileSystem

namespace Archive

/-- **What extracting keeps**: nothing but what is below a place changes, and it stays a tree. -/
structure Inside (base : Location) (fs₀ fs : FileSystem) : Prop where
  same : SameExcept (Below base) fs₀ fs
  grounded : Grounded base fs

theorem Inside.of_zone {zone : Location → Prop} (h : Inside base fs₀ fs)
    (hsame : SameExcept zone fs fs') (hzone : ∀ x, zone x → Below base x)
    (hgrounded : Grounded base fs') : Inside base fs₀ fs' :=
  ⟨h.same.trans (hsame.mono hzone), hgrounded⟩

/-- Directories that are made below the place. -/
theorem Inside.of_grown {made : List FileName} (h : Inside base fs₀ fs) (hplace : base <+: place)
    (hgrown : Grown fs place made fs') : Inside base fs₀ fs' := by
  refine h.of_zone hgrown.sameExcept ?_ (hgrown.grounded h.grounded)
  rintro x ⟨front, hne, -, rfl⟩
  obtain ⟨rest, rfl⟩ := hplace
  obtain ⟨first, front, rfl⟩ := List.exists_cons_of_ne_nil hne
  exact Below.of_append ⟨first, front, rfl⟩

/-- Something is put in a directory within the place. -/
theorem Inside.put {entry : FileEntry} (h : Inside base fs₀ fs) (hinner : base <+: inner)
    (hdirectory : fs.get? inner = some .directory) (hfree : fs.get? (inner ++ [name]) = none) :
    Inside base fs₀ (fs.put (inner ++ [name]) entry) := by
  refine h.of_zone (sameExcept_put (by simp)) ?_ (h.grounded.put hdirectory hfree)
  rintro x rfl
  obtain ⟨rest, rfl⟩ := hinner
  exact Below.of_append ⟨name, [], rfl⟩

theorem Inside.prune (h : Inside base fs₀ fs) (hinner : base <+: inner) :
    Inside base fs₀ (fs.prune (inner ++ [name])) := by
  refine h.of_zone (sameExcept_prune (by simp)) ?_ (h.grounded.prune (by simp))
  rintro x hx
  obtain ⟨rest, rfl⟩ := hinner
  exact (below_of_isPrefix_child hx).of_append

/-- **A directory that entries may be put into**: its path leads into the place, if anywhere. -/
def LeadsInside (base : Location) (directory : Path) (fs : FileSystem) : Prop :=
  ∀ goal, Enters fs directory goal → base <+: goal

section

variable (hroot : Anchored fs₀ root base) (hfits : Fits root) (htrimmed : root.trimmed = root)
include hroot hfits

/-- A path that was found to lead inside does. -/
theorem meets_checkLeads (h : Inside base fs₀ fs) (p : Path) :
    Disk.Meets (· = fs)
      (Disk.look (·.leadsInto root p) >>= fun leads =>
        (if !leads then throw (ExtractError.leadsOutside root) else pure () :
          Disk ExtractError Unit))
      (fun _ fs' => fs' = fs ∧ LeadsInside base p fs) (Inside base fs₀) := by
  refine .look_bind fun leads => .ite (fun _ => .throw fun _ hfs => hfs.1 ▸ h)
    fun hleads => .pure ?_
  rintro _ ⟨rfl, heq⟩
  refine ⟨rfl, fun goal hgoal => ?_⟩
  obtain ⟨inner, entry, hfind, hinner⟩ :=
    (leadsInto_iff (hroot _ h.same) hfits).mp (heq.trans (by simpa using hleads))
  exact hgoal.eq_of_find? hfind ▸ hinner

include htrimmed in
/-- The first directory present of those that a path lies in leads inside, so the others are made
inside. -/
theorem meets_enterDirectory (linked : Prop) (h : Inside base fs₀ fs)
    (hnames : ∀ name ∈ names, Ordinary name) :
    Disk.Meets (· = fs) (enterDirectory root (root.descend names))
      (fun _ fs' => Inside base fs₀ fs' ∧ LeadsInside base (root.descend names) fs' ∧
        Grows linked fs fs') (Inside base fs₀) := by
  have hcheck : Disk.Meets (fun fs' => Inside base fs₀ fs' ∧ Grows linked fs fs')
      (Disk.look (·.leadsInto root (root.descend names)) >>= fun leads =>
        (if !leads then throw (ExtractError.leadsOutside root) else pure () :
          Disk ExtractError Unit))
      (fun _ fs' => Inside base fs₀ fs' ∧ LeadsInside base (root.descend names) fs' ∧
        Grows linked fs fs') (Inside base fs₀) := by
    refine .of_forall fun fs' ⟨hfs', hgrows⟩ => ?_
    refine (meets_checkLeads hroot hfits hfs' _).weaken (fun _ => id) ?_ fun _ => id
    rintro - _ ⟨rfl, hleads⟩
    exact ⟨hfs', hleads, hgrows⟩
  rw [enterDirectory]
  refine .look_bind fun first => ?_
  cases first with
  | none => exact .throw_bind fun _ hfs => hfs.1 ▸ h
  | some first =>
    refine .look_bind fun leads => .ite (fun _ => .throw_bind fun _ hfs => hfs.1.1 ▸ h)
      fun hleads => .of_forall ?_
    rintro _ ⟨⟨rfl, hfirst⟩, rfl⟩
    refine .look_bind fun found => .ite (fun _ => ?_) fun _ => ?_
    · obtain ⟨place, missing, hplace, hmissing⟩ :=
        exists_missing_of_firstPresent? (hroot _ h.same) (Or.inr hfits) htrimmed hnames hfirst
          ((leadsInto_iff (hroot _ h.same) hfits).mp (by simpa using hleads))
      have hmakes := Disk.meets_makeDirectories hmissing (h.grounded.mono hplace)
      have hmake := hmakes.adapt (f := fun _ => ExtractError.cannotCreate (root.descend names))
      refine Disk.Meets.bind (hmake.weaken (fun _ hfs => hfs.1) ?_ ?_) fun _ => hcheck
      · exact fun _ _ hfs => ⟨h.of_grown hplace hfs.1, hfs.1.grows⟩
      · rintro _ ⟨made, -, hgrown⟩
        exact h.of_grown hplace hgrown
    · refine hcheck.strengthen ?_
      rintro _ ⟨rfl, -⟩
      exact ⟨h, .refl _ _⟩

end

/-- Taking something away does not open a way. -/
theorem LeadsInside.prune (h : LeadsInside base p fs) (hplace : place ≠ []) :
    LeadsInside base p (fs.prune place) :=
  fun goal hgoal => h goal (hgoal.of_prune hplace)

/-- A call that puts an entry at a name in a directory, at which nothing stands. -/
def PutsChild (p : Path) (name : FileName) (entry : FileEntry)
    (call : FileSystem → Except FileError FileSystem) : Prop :=
  ∀ fs fs', call fs = .ok fs' → ∃ place, Names fs p name place ∧
    fs.get? (place ++ [name]) = none ∧ fs' = fs.put (place ++ [name]) entry

section

variable (hname : Ordinary name)
include hname

theorem putsChild_makeLink (target : Path) :
    PutsChild p name (.link target) (·.makeLink (p.join ⟨name⟩) target) :=
  fun _ _ => (makeLink_child_iff hname).mp

theorem putsChild_writeNew (content : Bytes) :
    PutsChild p name (.file content) (·.writeNew (p.join ⟨name⟩) content) :=
  fun _ _ => (writeNew_child_iff hname).mp

end

/-! ## What an entry leaves -/

/-- **Something has been laid down** at a name in the directory that a path leads into, which lies
within the place. -/
def Lays (base : Location) (p : Path) (name : FileName) (fs : FileSystem) : Prop :=
  name.length ≤ longestName ∧
    ∃ place, base <+: place ∧ Enters fs p place ∧ fs.get? (place ++ [name]) ≠ none

/-- **An entry has been laid down within the place**, and what was there has only been added to. -/
structure Adds (base : Location) (fs₀ : FileSystem) (p : Path) (name : FileName) (linked : Prop)
    (fs fs' : FileSystem) : Prop where
  inside : Inside base fs₀ fs'
  grows : Grows linked fs fs'
  lays : Lays base p name fs'

section

variable (h : Inside base fs₀ fs) (hleads : LeadsInside base p fs)
include h hleads

/-- Something is put at a name at which nothing stands. -/
theorem Adds.put (hnames : Names fs p name place) (hfree : fs.get? (place ++ [name]) = none)
    (hlink : ∀ path, entry = .link path → linked) :
    Adds base fs₀ p name linked fs (fs.put (place ++ [name]) entry) where
  inside := h.put (hleads place hnames.enters) hnames.enters.directory hfree
  grows := .put hfree hlink
  lays := by
    refine ⟨hnames.length_le, place, hleads place hnames.enters, hnames.enters.put hfree, ?_⟩
    rw [get?_put (by simp), if_pos rfl]
    exact Option.some_ne_none _

/-- What is removed and what is put in its place are at the same name in one directory. -/
theorem Adds.replace {old : FileEntry} {place' : Location} (hnames : Names fs p name place)
    (hold : fs.get? (place ++ [name]) = some old) (hne : old ≠ .directory)
    (hnames' : Names (fs.prune (place ++ [name])) p name place')
    (hfree : (fs.prune (place ++ [name])).get? (place' ++ [name]) = none)
    (hentry : entry ≠ .directory) (hlink : ∀ path, entry = .link path → linked) :
    Adds base fs₀ p name linked fs
      ((fs.prune (place ++ [name])).put (place' ++ [name]) entry) := by
  obtain rfl := (hnames'.enters.of_prune (by simp)).unique hnames.enters
  have hinner := hleads _ hnames.enters
  have hpruned : Inside base fs₀ (fs.prune (place' ++ [name])) := h.prune hinner
  have hput := Adds.put hpruned (hleads.prune (by simp)) hnames' hfree hlink
  exact ⟨hput.inside, .replace h.grounded (hinner.trans (List.prefix_append _ _)) (by simp) hold hne
    hentry hlink, hput.lays⟩

variable {call : FileSystem → Except FileError FileSystem}

theorem meets_change {cause : ExtractError} (hcall : PutsChild p name entry call)
    (hlink : ∀ path, entry = .link path → linked) :
    Disk.Meets (· = fs) (change cause call) (fun _ => Adds base fs₀ p name linked fs)
      (Inside base fs₀) := by
  refine .adapt (.change ?_ ?_)
  · rintro _ fs' rfl hdone
    obtain ⟨place, hnames, hfree, rfl⟩ := hcall _ fs' hdone
    exact .put h hleads hnames hfree hlink
  · rintro _ rfl
    exact h

theorem meets_changeReplacing (hname : Ordinary name) (hcall : PutsChild p name entry call)
    (hentry : entry ≠ .directory) (hlink : ∀ path, entry = .link path → linked) :
    Disk.Meets (· = fs) (changeReplacing (p.join ⟨name⟩) call)
      (fun _ => Adds base fs₀ p name linked fs) (Inside base fs₀) := by
  rw [changeReplacing]
  refine .look_bind fun answer => ?_
  split
  · have hremove : Disk.Meets (fun fs' => fs' = fs ∧ call fs' = .error .alreadyExists)
        (change (.cannotUnpack (p.join ⟨name⟩)) (·.removeFile (p.join ⟨name⟩)))
        (fun _ fs₁ => ∃ place old, Names fs p name place ∧
          fs.get? (place ++ [name]) = some old ∧ old ≠ .directory ∧
          fs₁ = fs.prune (place ++ [name])) (Inside base fs₀) := by
      refine .adapt (.change ?_ fun _ hfs => hfs.1 ▸ h)
      rintro _ fs₁ ⟨rfl, -⟩ hdone
      exact (removeFile_child_iff hname).mp hdone
    refine hremove.bind fun _ => .adapt (.change ?_ ?_)
    · rintro _ fs' ⟨place, old, hnames, hold, hne, rfl⟩ hdone
      obtain ⟨place', hnames', hfree, rfl⟩ := hcall _ fs' hdone
      exact .replace h hleads hnames hold hne hnames' hfree hentry hlink
    · rintro _ ⟨place, old, hnames, -, -, rfl⟩
      exact h.prune (hleads place hnames.enters)
  · exact (meets_change h hleads hcall hlink).strengthen fun _ hfs => hfs.1

theorem meets_ensureDirectory (hname : Ordinary name) :
    Disk.Meets (· = fs) (Disk.ensureDirectory (p.join ⟨name⟩))
      (fun _ => Adds base fs₀ p name linked fs) (Inside base fs₀) := by
  refine ⟨?_⟩
  rintro fs rfl
  rw [Disk.run_ensureDirectory]
  cases hcall : fs.makeDirectory (p.join ⟨name⟩) with
  | ok fs' =>
    obtain ⟨place, hnames, hfree, rfl⟩ := (makeDirectory_child_iff hname).mp hcall
    exact .put h hleads hnames hfree fun _ hlink => FileEntry.noConfusion hlink
  | error cause =>
    cases hdirectory : fs.isDirectory (p.join ⟨name⟩) with
    | false => exact h
    | true =>
      obtain ⟨-, goal, hgoal⟩ := isDirectory_iff.mp hdirectory
      obtain ⟨place, hplace, hstands⟩ := exists_enters_of_enters_child hname hgoal
      refine ⟨h, .refl _ _, length_le_of_enters_child hname hgoal, place, hleads place hplace,
        hplace, ?_⟩
      rcases hstands with rfl | ⟨path, hlink⟩
      · rw [hgoal.directory]
        exact Option.some_ne_none _
      · rw [hlink]
        exact Option.some_ne_none _

theorem meets_unpack (hname : Ordinary name) (root : Path) (e : ArchiveEntry) :
    Disk.Meets (· = fs) (unpack root (p.join ⟨name⟩) e)
      (fun _ => Adds base fs₀ p name e.IsLink fs) (Inside base fs₀) := by
  have hfile (content : Bytes) : ∀ path, FileEntry.file content = .link path → e.IsLink := nofun
  have hwrite (content : Bytes) : Disk.Meets (· = fs)
      (changeReplacing (p.join ⟨name⟩) (·.writeNew (p.join ⟨name⟩) content))
      (fun _ => Adds base fs₀ p name e.IsLink fs) (Inside base fs₀) :=
    meets_changeReplacing h hleads hname (putsChild_writeNew hname content) nofun (hfile content)
  have hmakeLink (target : Path) (hkind : e.kind = .symbolicLink target) : Disk.Meets (· = fs)
      (changeReplacing (p.join ⟨name⟩) (·.makeLink (p.join ⟨name⟩) target))
      (fun _ => Adds base fs₀ p name e.IsLink fs) (Inside base fs₀) :=
    meets_changeReplacing h hleads hname (putsChild_makeLink hname target) nofun
      fun _ _ => Or.inl ⟨target, hkind⟩
  rw [unpack]
  cases hkind : e.kind with
  | directory => exact (meets_ensureDirectory h hleads hname).adapt
  | slashedFile => exact (meets_ensureDirectory h hleads hname).adapt
  | symbolicLink target =>
    exact .ite (fun _ => .throw_bind fun _ hfs => hfs ▸ h) fun _ => hmakeLink target hkind
  | hardLink target =>
    refine .look_bind fun leads => .ite (fun _ => .throw_bind fun _ hfs => hfs.1 ▸ h) fun _ => ?_
    have hfind : Disk.Meets (fun fs' => fs' = fs ∧ fs'.leadsInto root (root.join target) = leads)
        ((Disk.inspect (·.find? (root.join target) false)).adapt fun _ =>
          ExtractError.cannotUnpack (p.join ⟨name⟩)) (fun _ fs' => fs' = fs) (Inside base fs₀) :=
      .adapt (.inspect (fun _ _ hfs _ => hfs.1) fun _ hfs => hfs.1 ▸ h)
    refine hfind.bind fun found => ?_
    obtain ⟨source, entry⟩ := found
    cases entry with
    | file content =>
      exact meets_change h hleads (putsChild_writeNew hname content) (hfile content)
    | link path =>
      exact meets_change h hleads (putsChild_makeLink hname path) fun _ _ =>
        Or.inr ⟨target, hkind⟩
    | directory => exact .throw fun _ hfs => hfs ▸ h
  | file => exact hwrite e.content
  | unknown mark => exact hwrite e.content

end

/-- An entry is extracted below the directory that its path lies in. -/
theorem extractEntry_eq {e : ArchiveEntry} {front : List FileName} {last : FileName} (root : Path)
    (hup : e.path.goesUp = false) (hnames : e.path.localNames = front ++ [last]) :
    extractEntry root e = (do
      enterDirectory root (root.descend front)
      unpack root ((root.descend front).join ⟨last⟩) e) := by
  have hne : front ++ [last] ≠ [] := by simp
  rw [extractEntry, hup, hnames]
  simp only [Bool.false_eq_true, if_false, hne, List.dropLast_concat, List.foldl_concat]
  rfl

/-- The names of an entry that is extracted. -/
theorem ordinary_of_localNames_eq {e : ArchiveEntry} {front : List FileName} {last : FileName}
    (hup : e.path.goesUp = false) (hnames : e.path.localNames = front ++ [last]) :
    (∀ name ∈ front, Ordinary name) ∧ Ordinary last := by
  have hordinary (name : FileName) (hname : name ∈ front ++ [last]) : Ordinary name :=
    Path.ordinary_of_mem_localNames hup (hnames ▸ hname)
  exact ⟨fun name hname => hordinary name (List.mem_append_left _ hname),
    hordinary last (by simp)⟩

theorem extractEntry_of_goesUp {e : ArchiveEntry} (hup : e.path.goesUp = true) :
    extractEntry root e = throw (.pointsOutside e.path) := by
  rw [extractEntry, hup]
  rfl

theorem extractEntry_of_nil {e : ArchiveEntry} (hup : e.path.goesUp = false)
    (hnil : e.path.localNames = []) : extractEntry root e = pure () := by
  rw [extractEntry, hup, hnil]
  rfl

section

variable (hroot : Anchored fs₀ root base) (hfits : Fits root) (htrimmed : root.trimmed = root)
include hroot hfits htrimmed

/-- **What extracting an entry does.**  Something stands at the end of its path then, unless the
path names the directory itself. -/
theorem meets_extractEntry (h : Inside base fs₀ fs) (e : ArchiveEntry) :
    Disk.Meets (· = fs) (extractEntry root e)
      (fun _ fs' => e.path.goesUp = false ∧ Inside base fs₀ fs' ∧ Grows e.IsLink fs fs' ∧
        (e.path.localNames = [] ∨ ∃ front last, e.path.localNames = front ++ [last] ∧
          Lays base (root.descend front) last fs')) (Inside base fs₀) := by
  cases hup : e.path.goesUp with
  | true =>
    rw [extractEntry_of_goesUp hup]
    exact .throw fun _ hfs => hfs ▸ h
  | false =>
    rcases List.eq_nil_or_concat e.path.localNames with hnil | ⟨front, last, hnames⟩
    · rw [extractEntry_of_nil hup hnil]
      refine .pure ?_
      rintro _ rfl
      exact ⟨rfl, h, .refl _ _, Or.inl hnil⟩
    · rw [List.concat_eq_append] at hnames
      obtain ⟨hfront, hlast⟩ := ordinary_of_localNames_eq hup hnames
      rw [extractEntry_eq root hup hnames]
      refine (meets_enterDirectory hroot hfits htrimmed e.IsLink h hfront).bind fun _ =>
        .of_forall ?_
      rintro fs₁ ⟨hfs₁, hleads, hgrows⟩
      refine (meets_unpack hfs₁ hleads hlast root e).weaken (fun _ => id) ?_ fun _ => id
      rintro - fs' hadds
      exact ⟨rfl, hadds.inside, hgrows.trans hadds.grows, Or.inr ⟨front, last, hnames, hadds.lays⟩⟩

/-- **Extracting does not leave the directory.**  Whatever an archive has for entries, with
whatever paths and links, nothing but what is below the directory changes. -/
theorem meets_extract (r : ArchiveReading) :
    Disk.Meets (Inside base fs₀) (extract root r) (fun _ => Inside base fs₀) (Inside base fs₀) := by
  rw [extract]
  have hentry (e : ArchiveEntry) : Disk.Meets (Inside base fs₀) (extractEntry root e)
      (fun _ => Inside base fs₀) (Inside base fs₀) :=
    .of_forall fun fs hfs => (meets_extractEntry hroot hfits htrimmed hfs e).weaken (fun _ => id)
      (fun _ _ hdone => hdone.2.1) fun _ => id
  refine (Disk.Meets.forM fun e _ => hentry e).bind fun _ => ?_
  cases r.failure with
  | some cause => exact .throw fun _ => id
  | none => exact .pure fun _ => id

end

end Archive

end Provision
