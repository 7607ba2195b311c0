import Provision.Proofs.Archive.Confinement

/-!
# What extracting leaves behind

An archive that is extracted without a failure only adds to a directory, so what an entry leaves at
the end of its path (`Laid`) is still there when all is done.  It is where the names before the last
one led when the entry had been extracted (`LedTo`).  If nothing but directories is on the way at
the end, that is where the names themselves lead along, for what is a directory in the end was never
a link; and if the archive has no links, there is nothing else on the way (`extracted_of_run`).
-/
namespace Provision.Archive

open FileSystem
open Provision.Path (Ordinary Fits)

variable {fs fs' mid fs₀ : FileSystem} {root : Path} {place base : Location}
  {front : List FileName} {linked : Prop} {e : ArchiveEntry} {r : ArchiveReading}
  {before after entries : List ArchiveEntry} {files : List Path}

/-! ## What an entry left -/

/-- **Where names led while an archive was extracted**: to a place below the root, when some of the
entries had been extracted. -/
def LedTo (root : Path) (start : FileSystem) (entries : List ArchiveEntry)
    (front : List FileName) (rest : Location) : Prop :=
  ∃ base mid, Enters start root base ∧ entries.forM (extractEntry root) start = (.ok (), mid) ∧
    Enters mid (root.descend front) (base ++ rest)

/-- **An entry has been laid down** when it had been extracted, in `mid`: unless its path names the
directory itself, something stood at the end of it.  What there was has only been added to, before
and since. -/
structure Laid (base : Location) (fs₀ : FileSystem) (root : Path) (linked : Prop)
    (mid fs' : FileSystem) (e : ArchiveEntry) : Prop where
  goesUp : e.path.goesUp = false
  inside : Inside base fs₀ mid
  before : Grows linked fs₀ mid
  after : Grows linked mid fs'
  lays : e.path.localNames = [] ∨ ∃ front last, e.path.localNames = front ++ [last] ∧
    Lays base (root.descend front) last mid

theorem length_le_of_enters_descend (hfront : ∀ name ∈ front, Ordinary name)
    (h : Enters fs (root.descend front) place) : ∀ name ∈ front, name.length ≤ longestName := by
  induction front using List.reverseRecOn generalizing place with
  | nil => exact nofun
  | append_singleton front last ih =>
    have hlast : Ordinary last := hfront last (by simp)
    rw [Path.descend_concat] at h
    obtain ⟨inner, hinner, -⟩ := exists_enters_of_enters_child hlast h
    intro name hname
    rcases List.mem_append.mp hname with hname | hname
    · exact ih (fun name hname => hfront name (List.mem_append_left _ hname)) hinner name hname
    · exact List.mem_singleton.mp hname ▸ length_le_of_enters_child hlast h

theorem Laid.length_le (h : Laid base fs₀ root linked mid fs' e) :
    ∀ name ∈ e.path.localNames, name.length ≤ longestName := by
  rcases h.lays with hnil | ⟨front, last, hnames, ⟨hlast, place, -, henters, -⟩⟩
  · rw [hnil]
    exact nofun
  · have hfront := length_le_of_enters_descend (ordinary_of_localNames_eq h.goesUp hnames).1 henters
    intro name hname
    rw [hnames, List.mem_append, List.mem_singleton] at hname
    rcases hname with hname | rfl
    · exact hfront name hname
    · exact hlast

/-- A link would still be something else than a directory. -/
theorem Laid.ne_link_of_directory (h : Laid base fs₀ root linked mid fs' e)
    (hdirectory : fs'.get? place = some .directory) (path : Path) :
    mid.get? place ≠ some (.link path) := by
  intro hlink
  have hthere : mid.get? place ≠ none := by
    rw [hlink]
    exact Option.some_ne_none _
  exact nomatch hlink.symm.trans ((h.after.directory _ hthere).mp hdirectory)

/-- Links come from entries that leave them. -/
theorem Laid.ne_link_of_not (h : Laid base fs₀ root linked mid fs' e) (hunlinked : ¬ linked)
    (hfree : fs₀.get? place = none) (path : Path) : mid.get? place ≠ some (.link path) := by
  intro hlink
  exact hunlinked ((h.before.link _ path hlink).resolve_left fun hold =>
    nomatch hfree.symm.trans hold)

section

variable (hroot : Anchored fs₀ root base)
include hroot

/-- Where no links are on the way, names lead to their own place. -/
theorem eq_of_enters_descend (hfront : ∀ name ∈ front, Ordinary name)
    (hlinks : ∀ names path, names <+: front → names ≠ [] →
      fs.get? (base ++ names) ≠ some (.link path))
    (hinside : Inside base fs₀ fs) (h : Enters fs (root.descend front) place) :
    place = base ++ front := by
  induction front using List.reverseRecOn generalizing place with
  | nil => exact (h.unique (hroot fs hinside.same)).trans (List.append_nil base).symm
  | append_singleton front name ih =>
    rw [Path.descend_concat] at h
    obtain ⟨inner, hinner, hgoal⟩ := exists_enters_of_enters_child (hfront name (by simp)) h
    obtain rfl : inner = base ++ front :=
      ih (fun name hname => hfront name (List.mem_append_left _ hname))
        (fun names path hnames => hlinks names path (hnames.trans (List.prefix_append _ _))) hinner
    rw [List.append_assoc] at hgoal
    rcases hgoal with heq | ⟨path, hlink⟩
    · exact heq
    · exact absurd hlink (hlinks _ path List.prefix_rfl (by simp))

/-- What an entry left is still there at the end.  Where no link was on the way when it was laid
down, it is at its names. -/
theorem Laid.stands (h : Laid base fs₀ root linked mid fs' e) (hne : e.path.localNames ≠ []) :
    ∃ front last rest, e.path.localNames = front ++ [last] ∧
      Enters mid (root.descend front) (base ++ rest) ∧ fs'.get? (base ++ rest ++ [last]) ≠ none ∧
      ((∀ names path, names <+: front → names ≠ [] →
        mid.get? (base ++ names) ≠ some (.link path)) → rest = front) := by
  obtain ⟨front, last, hnames, hlays⟩ := h.lays.resolve_left hne
  obtain ⟨-, place, ⟨rest, rfl⟩, henters, hthere⟩ := hlays
  refine ⟨front, last, rest, hnames, henters, h.after.stays _ hthere, fun hlinks => ?_⟩
  exact List.append_cancel_left (eq_of_enters_descend hroot
    (ordinary_of_localNames_eq h.goesUp hnames).1 hlinks h.inside henters)

/-- If nothing but directories is on the way at the end, what an entry left is at its names. -/
theorem Laid.stands_of_open (h : Laid base fs₀ root linked mid fs' e)
    (hne : e.path.localNames ≠ []) :
    ∃ front last rest, e.path.localNames = front ++ [last] ∧
      Enters mid (root.descend front) (base ++ rest) ∧ fs'.get? (base ++ rest ++ [last]) ≠ none ∧
      (Open fs' base e.path.localNames → rest = front) := by
  obtain ⟨front, last, rest, hnames, henters, hthere, hdirect⟩ := h.stands hroot hne
  refine ⟨front, last, rest, hnames, henters, hthere, fun hopen => ?_⟩
  rw [hnames] at hopen
  exact hdirect fun names path hstarts _ => h.ne_link_of_directory (hopen.directory hstarts) path

/-- If there are no links, nothing but directories is on the way. -/
theorem Laid.open_of_not (h : Laid base fs₀ root linked mid fs' e) (hunlinked : ¬ linked)
    (hempty : ∀ x, Below base x → fs₀.get? x = none) (hinside : Inside base fs₀ fs') :
    Open fs' base e.path.localNames := by
  refine hinside.grounded.open_of_ne_none ?_
  by_cases hnil : e.path.localNames = []
  · rw [hnil, List.append_nil, (hroot fs' hinside.same).directory]
    exact Option.some_ne_none _
  · obtain ⟨front, last, rest, hnames, -, hthere, hdirect⟩ := h.stands hroot hnil
    obtain rfl : rest = front := hdirect fun names path _ hne => by
      obtain ⟨first, more, rfl⟩ := List.exists_cons_of_ne_nil hne
      exact h.ne_link_of_not hunlinked (hempty _ ⟨first, more, rfl⟩) path
    rwa [hnames, ← List.append_assoc]

end

/-! ## What an archive leaves -/

/-- **What an archive leaves** in a directory that was empty: something at the end of every path
that does not name the directory itself, in the place that the names before the last one led to when
the entry had been extracted.  That is along these names if nothing but directories is on the way,
and only links can bar it. -/
structure Extracted (root : Path) (start : FileSystem) (r : ArchiveReading) (place : Location)
    (fs : FileSystem) : Prop where
  goesUp : ∀ e ∈ r.entries, e.path.goesUp = false
  length_le : ∀ e ∈ r.entries, ∀ name ∈ e.path.localNames, name.length ≤ longestName
  stands : ∀ before e after, r.entries = before ++ e :: after → e.path.localNames ≠ [] →
    ∃ front last rest, e.path.localNames = front ++ [last] ∧
      LedTo root start (before ++ [e]) front rest ∧ fs.get? (place ++ rest ++ [last]) ≠ none ∧
      (Open fs place e.path.localNames → rest = front)
  unlinked : (∀ e ∈ r.entries, ¬ e.IsLink) → ∀ e ∈ r.entries, Open fs place e.path.localNames

/-- It may be moved as a whole. -/
theorem Extracted.of_get?_eq (h : Extracted root fs₀ r base fs)
    (hget : ∀ rest, fs'.get? (place ++ rest) = fs.get? (base ++ rest)) :
    Extracted root fs₀ r place fs' := by
  have hopen (names : List FileName) : Open fs' place names ↔ Open fs base names := by
    simp only [Open, hget]
  refine ⟨h.goesUp, h.length_le, fun before e after hsplit hne => ?_, fun hunlinked e he => ?_⟩
  · obtain ⟨front, last, rest, hnames, hled, hthere, hdirect⟩ := h.stands before e after hsplit hne
    refine ⟨front, last, rest, hnames, hled, ?_, hdirect ∘ (hopen _).mp⟩
    rw [List.append_assoc, hget, ← List.append_assoc]
    exact hthere
  · exact (hopen _).mpr (h.unlinked hunlinked e he)

/-- An archive that was extracted without a failure was read to its end. -/
theorem run_entries_of_run_extract (h : extract root r fs = (.ok files, fs')) :
    r.entries.forM (extractEntry root) fs = (.ok (), fs') := by
  obtain ⟨⟨⟩, mid, hentries, hend⟩ := Disk.run_bind_eq_ok.mp h
  cases hfailure : r.failure with
  | some cause =>
    rw [hfailure] at hend
    cases hend
  | none =>
    rw [hfailure] at hend
    cases hend
    exact hentries

section

variable (hroot : Anchored fs₀ root base) (hfits : Fits root) (htrimmed : root.trimmed = root)
include hroot hfits htrimmed

theorem meets_extractEntries (h : Inside base fs₀ fs)
    (hlinked : ∀ e ∈ entries, e.IsLink → linked) :
    Disk.Meets (· = fs) (entries.forM (extractEntry root))
      (fun _ fs' => Inside base fs₀ fs' ∧ Grows linked fs fs') (fun _ => True) := by
  induction entries generalizing fs with
  | nil =>
    refine .pure ?_
    rintro _ rfl
    exact ⟨h, .refl _ _⟩
  | cons e entries ih =>
    have hentry := (meets_extractEntry hroot hfits htrimmed h e).weaken (fun _ => id)
      (fun _ _ => id) (fun _ _ => trivial)
    refine hentry.bind fun _ => .of_forall ?_
    rintro fs₁ ⟨-, hinside, hgrows, -⟩
    refine (ih hinside fun e' he' => hlinked e' (List.mem_cons_of_mem _ he')).weaken (fun _ => id)
      ?_ fun _ => id
    rintro - fs' ⟨hinside', hgrows'⟩
    exact ⟨hinside', (hgrows.mono (hlinked e List.mem_cons_self)).trans hgrows'⟩

/-- Every entry has been laid down when it had been extracted. -/
theorem exists_laid (h : Inside base fs₀ fs₀)
    (hlinked : ∀ e' ∈ before ++ e :: after, e'.IsLink → linked)
    (hrun : (before ++ e :: after).forM (extractEntry root) fs₀ = (.ok (), fs')) :
    ∃ mid, (before ++ [e]).forM (extractEntry root) fs₀ = (.ok (), mid) ∧
      Laid base fs₀ root linked mid fs' e := by
  rw [List.append_cons] at hrun
  obtain ⟨mid, hupTo, hrest⟩ := Disk.run_forM_append_eq_ok.mp hrun
  obtain ⟨fs₁, hbefore, hentry⟩ := Disk.run_forM_append_eq_ok.mp hupTo
  obtain ⟨⟨⟩, fs₂, hentry, hdone⟩ := Disk.run_bind_eq_ok.mp hentry
  cases hdone
  obtain ⟨hinside₁, hgrows₁⟩ := (meets_extractEntries hroot hfits htrimmed h fun e' he' =>
    hlinked e' (List.mem_append_left _ he')).of_run_eq_ok rfl hbefore
  obtain ⟨hup, hinside, hgrows, hlays⟩ :=
    (meets_extractEntry hroot hfits htrimmed hinside₁ e).of_run_eq_ok rfl hentry
  obtain ⟨-, hafter⟩ := (meets_extractEntries hroot hfits htrimmed hinside fun e' he' =>
    hlinked e' (List.mem_append_right _ (List.mem_cons_of_mem _ he'))).of_run_eq_ok rfl hrest
  have hlink := hlinked e (List.mem_append_right _ List.mem_cons_self)
  exact ⟨_, hupTo, hup, hinside, hgrows₁.trans (hgrows.mono hlink), hafter, hlays⟩

/-- **What an archive leaves that was extracted without a failure.** -/
theorem extracted_of_run (hempty : ∀ x, Below base x → fs₀.get? x = none)
    (hrun : extract root r fs₀ = (.ok files, fs')) : Extracted root fs₀ r base fs' := by
  have hstart : Inside base fs₀ fs₀ := ⟨.refl _ _, .of_empty hempty⟩
  have hentries := run_entries_of_run_extract hrun
  obtain ⟨hinside, -⟩ := (meets_extractEntries hroot hfits htrimmed hstart
    fun e he hlink => (⟨e, he, hlink⟩ : ∃ e ∈ r.entries, e.IsLink)).of_run_eq_ok rfl hentries
  have hlaid {before : List ArchiveEntry} {e : ArchiveEntry} {after : List ArchiveEntry}
      (hsplit : r.entries = before ++ e :: after) :
      ∃ mid, (before ++ [e]).forM (extractEntry root) fs₀ = (.ok (), mid) ∧
        Laid base fs₀ root (∃ e ∈ r.entries, e.IsLink) mid fs' e :=
    exists_laid hroot hfits htrimmed hstart (fun e' he' hlink => ⟨e', hsplit ▸ he', hlink⟩)
      (hsplit ▸ hentries)
  have hlaid' {e : ArchiveEntry} (he : e ∈ r.entries) :
      ∃ mid, Laid base fs₀ root (∃ e ∈ r.entries, e.IsLink) mid fs' e := by
    obtain ⟨before, after, hsplit⟩ := List.append_of_mem he
    obtain ⟨mid, -, h⟩ := hlaid hsplit
    exact ⟨mid, h⟩
  refine ⟨fun e he => (hlaid' he).elim fun mid h => h.goesUp,
    fun e he => (hlaid' he).elim fun mid h => h.length_le, fun before e after hsplit hne => ?_,
    fun hunlinked e he => ?_⟩
  · obtain ⟨mid, hmid, h⟩ := hlaid hsplit
    obtain ⟨front, last, rest, hnames, henters, hthere, hdirect⟩ := h.stands_of_open hroot hne
    exact ⟨front, last, rest, hnames, ⟨base, mid, hroot.enters, hmid, henters⟩, hthere, hdirect⟩
  · obtain ⟨mid, h⟩ := hlaid' he
    exact h.open_of_not hroot (fun ⟨e', he', hlink⟩ => hunlinked e' he' hlink) hempty hinside

end

end Provision.Archive
