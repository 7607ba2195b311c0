import Provision.Proofs.Files.Directories

/-!
# Adding to what is there

Putting something where nothing stands, and replacing a file or a link, only adds to a file system
(`Grows`): no place is left empty at which something stood, and a directory stays a directory.

Making a directory with the ones it lies in changes still less, whatever its path is: directories
are made where nothing stood (`Furnished`), and none at all if the path leads into one already
(`meets_makeDirectories_furnished`).
-/
namespace Provision

namespace FileSystem

variable {fs fs' fs'' : FileSystem} {base place : Location} {entry entry' : FileEntry}
  {linked linked' : Prop} {made : List FileName}

/-- **A file system that has grown.**  What stands somewhere has been replaced at most, never a
directory and never by one; there are new links only if `linked`. -/
structure Grows (linked : Prop) (fs fs' : FileSystem) : Prop where
  stays : ∀ x, fs.get? x ≠ none → fs'.get? x ≠ none
  directory : ∀ x, fs.get? x ≠ none →
    (fs'.get? x = some .directory ↔ fs.get? x = some .directory)
  link : ∀ x path, fs'.get? x = some (.link path) → fs.get? x = some (.link path) ∨ linked

namespace Grows

theorem refl (linked : Prop) (fs : FileSystem) : Grows linked fs fs :=
  ⟨fun _ => id, fun _ _ => Iff.rfl, fun _ _ => Or.inl⟩

theorem trans (h : Grows linked fs fs') (h' : Grows linked fs' fs'') : Grows linked fs fs'' where
  stays x hx := h'.stays x (h.stays x hx)
  directory x hx := (h'.directory x (h.stays x hx)).trans (h.directory x hx)
  link x path hx := (h'.link x path hx).elim (h.link x path) Or.inr

theorem mono (h : Grows linked fs fs') (hlinked : linked → linked') : Grows linked' fs fs' :=
  ⟨h.stays, h.directory, fun x path hx => (h.link x path hx).imp_right hlinked⟩

/-- Something is put where nothing stands. -/
theorem put (hfree : fs.get? place = none) (hlink : ∀ path, entry = .link path → linked) :
    Grows linked fs (fs.put place entry) := by
  have hplace : place ≠ [] := by
    rintro rfl
    exact nomatch (get?_root fs).symm.trans hfree
  have hget (x : Location) (hx : fs.get? x ≠ none) : (fs.put place entry).get? x = fs.get? x := by
    rw [get?_put hplace, if_neg]
    rintro rfl
    exact hx hfree
  refine ⟨fun x hx => by rwa [hget x hx], fun x hx => by rw [hget x hx], fun x path hx => ?_⟩
  rw [get?_put hplace] at hx
  split at hx
  · exact Or.inr (hlink path (Option.some.inj hx))
  · exact Or.inl hx

/-- A file or a link is replaced by another one. -/
theorem replace (hfs : Grounded base fs) (hplace : base <+: place) (hne : place ≠ [])
    (hentry : fs.get? place = some entry) (hold : entry ≠ .directory) (hnew : entry' ≠ .directory)
    (hlink : ∀ path, entry' = .link path → linked) :
    Grows linked fs ((fs.prune place).put place entry') := by
  have hbelow (x : Location) (hx : place <+: x) (hne : x ≠ place) : fs.get? x = none := by
    refine hfs.get?_eq_none hplace ?_ (below_of_isPrefix hx hne)
    rw [hentry]
    exact fun heq => hold (Option.some.inj heq)
  have hget (x : Location) : ((fs.prune place).put place entry').get? x =
      if x = place then some entry' else fs.get? x := by
    rw [get?_put hne, get?_prune hne]
    split
    · rfl
    · split
      · rw [hbelow x ‹_› ‹_›]
      · rfl
  refine ⟨fun x hx => ?_, fun x hx => ?_, fun x path hx => ?_⟩
  · rw [hget]
    split
    · exact Option.some_ne_none _
    · exact hx
  · rw [hget]
    split
    · rename_i heq
      rw [heq, hentry]
      exact iff_of_false (fun h => hnew (Option.some.inj h)) fun h => hold (Option.some.inj h)
    · exact Iff.rfl
  · rw [hget] at hx
    split at hx
    · exact Or.inr (hlink path (Option.some.inj hx))
    · exact Or.inl hx

end Grows

/-- Directories that are made where nothing stood. -/
theorem Grown.grows (h : Grown fs place made fs') : Grows linked fs fs' := by
  induction h with
  | refl => exact .refl _ _
  | make _ _ hfree ih => exact ih.trans (.put hfree nofun)

/-! ## Directories that are made anywhere -/

/-- **Nothing but directories has come**, where nothing stood. -/
structure Furnished (fs fs' : FileSystem) : Prop where
  working : fs'.working = fs.working
  get? : ∀ x, fs'.get? x = fs.get? x ∨ fs.get? x = none ∧ fs'.get? x = some .directory
  grounded : Grounded [] fs → Grounded [] fs'

namespace Furnished

theorem refl (fs : FileSystem) : Furnished fs fs :=
  ⟨rfl, fun _ => Or.inl rfl, id⟩

theorem trans (h : Furnished fs fs') (h' : Furnished fs' fs'') : Furnished fs fs'' := by
  refine ⟨h'.working.trans h.working, fun x => ?_, h'.grounded ∘ h.grounded⟩
  rcases h'.get? x with heq | ⟨hnone, hmade⟩
  · rw [heq]
    exact h.get? x
  · rcases h.get? x with heq | ⟨-, hmade'⟩
    · exact Or.inr ⟨heq.symm.trans hnone, hmade⟩
    · exact nomatch hmade'.symm.trans hnone

/-- What stands somewhere is left alone. -/
theorem get?_of_some (h : Furnished fs fs') (x : Location) (e : FileEntry)
    (hx : fs.get? x = some e) : fs'.get? x = some e := by
  rcases h.get? x with heq | ⟨hnone, -⟩
  · rw [heq, hx]
  · exact nomatch hnone.symm.trans hx

/-- What is not a directory was there. -/
theorem get?_of_ne_directory (h : Furnished fs fs') (hplace : fs'.get? place = some entry)
    (hentry : entry ≠ .directory) : fs.get? place = some entry := by
  rcases h.get? place with heq | ⟨-, hmade⟩
  · rw [← heq, hplace]
  · exact absurd (Option.some.inj (hplace.symm.trans hmade)) hentry

theorem get?_of_none (h : Furnished fs fs') (hplace : fs'.get? place = none) :
    fs.get? place = none := by
  rcases h.get? place with heq | ⟨hnone, -⟩
  · rw [← heq, hplace]
  · exact hnone

/-- The same told of a file system in which the same stands everywhere. -/
theorem of_get?_eq (h : Furnished fs fs') (hworking : fs''.working = fs'.working)
    (hsame : ∀ x, fs''.get? x = fs'.get? x) : Furnished fs fs'' := by
  refine ⟨hworking.trans h.working, fun x => by rw [hsame]; exact h.get? x, fun hfs => ?_⟩
  intro x name hx hentry
  rw [hsame] at hentry ⊢
  exact h.grounded hfs x name hx hentry

end Furnished

/-- What is free is free in a directory. -/
theorem exists_directory_of_freePlace {p : Path} (hfs : Grounded [] fs)
    (h : fs.freePlace p = .ok place) :
    ∃ directory name, place = directory ++ [name] ∧ fs.get? directory = some .directory := by
  obtain ⟨hlocate, hfree⟩ := freePlace_eq_ok_iff.mp h
  obtain ⟨-, hfollow⟩ := locate_eq_ok_iff.mp hlocate
  rcases List.eq_nil_or_concat p.trimmed.pieces with hnil | ⟨front, last, hpieces⟩
  · exact absurd hnil (List.splitOn_ne_nil _ _)
  rw [List.concat_eq_append] at hpieces
  have hslash : Path.slash ∉ last := Path.slash_notMem_of_mem_pieces (by rw [hpieces]; simp)
  rw [hpieces] at hfollow
  obtain ⟨mid, next, -, hlast⟩ := exists_leads_of_follow hfollow
  have hnext := directory_of_follow hlast
  by_cases hblank : Path.isBlank last = true
  · rw [follow_of_move (.stay hnext hblank) (Or.inl rfl), List.nil_append, follow_nil] at hlast
    cases hlast
    exact nomatch hfree.symm.trans hnext
  by_cases habove : last = Path.above
  -- The directory above a directory is there.
  · subst habove
    rw [follow_of_move (.up hnext) (Or.inl rfl), List.nil_append, follow_nil] at hlast
    cases hlast
    rcases List.eq_nil_or_concat next with rfl | ⟨above, name, rfl⟩
    · exact nomatch hfree.symm.trans (get?_root fs)
    · rw [List.concat_eq_append] at hnext hfree
      rw [List.dropLast_concat] at hfree
      exact nomatch hfree.symm.trans (hfs above name List.nil_prefix (by simp [hnext]))
  · obtain ⟨hnil, hhere⟩ := not_or.mp (isBlank_eq_false_iff.mp (Bool.not_eq_true _ ▸ hblank))
    obtain ⟨-, -, heq | ⟨hfalse, -⟩⟩ :=
      follow_child_eq_ok ⟨hnil, hhere, habove, hslash⟩ hlast
    · exact ⟨next, last, heq, hnext⟩
    · cases hfalse

/-- A directory is made in a directory, where nothing stood. -/
theorem furnished_of_makeDirectory {p : Path} (h : fs.makeDirectory p = .ok fs') :
    Furnished fs fs' := by
  obtain ⟨place, hplace, h⟩ := bind_eq_ok.mp h
  cases h
  have hfree := (freePlace_eq_ok_iff.mp hplace).2
  have hne : place ≠ [] := by
    rintro rfl
    exact nomatch hfree.symm.trans (get?_root fs)
  refine ⟨rfl, fun x => ?_, fun hfs => ?_⟩
  · rw [get?_put hne]
    split
    · rename_i hx
      exact Or.inr ⟨hx ▸ hfree, rfl⟩
    · exact Or.inl rfl
  · obtain ⟨directory, name, rfl, hdirectory⟩ := exists_directory_of_freePlace hfs hplace
    exact hfs.put hdirectory hfree

end FileSystem

namespace Disk

open FileSystem

variable {fs : FileSystem}

theorem meets_ensureDirectory_furnished (p : Path) :
    Meets (Furnished fs) (ensureDirectory p) (fun _ => Furnished fs) (Furnished fs) := by
  refine ⟨fun fs' hfs' => ?_⟩
  rw [run_ensureDirectory]
  cases hcall : fs'.makeDirectory p with
  | ok fs'' => exact hfs'.trans (furnished_of_makeDirectory hcall)
  | error cause =>
    by_cases hdirectory : fs'.isDirectory p = true
    · simpa only [if_pos hdirectory] using hfs'
    · simpa only [if_neg hdirectory] using hfs'

theorem meets_makeChain_furnished (paths : List Path) :
    Meets (Furnished fs) (makeChain paths) (fun _ => Furnished fs) (Furnished fs) := by
  induction paths with
  | nil => exact .pure fun _ => id
  | cons path above ih =>
    by_cases hpath : path.bytes = []
    · rw [makeChain, if_pos hpath]
      exact .pure fun _ => id
    refine ⟨fun fs' hfs' => ?_⟩
    rw [run_makeChain_cons hpath]
    by_cases hcall : fs'.makeDirectory path = .error .notFound
    · rw [if_pos hcall]
      have habove := ih.run fs' hfs'
      revert habove
      rcases makeChain above fs' with ⟨cause | ⟨⟩, fs''⟩
      · exact id
      · exact (meets_ensureDirectory_furnished path).run fs''
    · rw [if_neg hcall]
      exact (meets_ensureDirectory_furnished path).run fs' hfs'

/-- **What making a directory with the ones it lies in leaves alone**, whatever its path is and
however far the work gets. -/
theorem meets_makeDirectories_furnished (p : Path) :
    Meets (· = fs) (makeDirectories p) (fun _ => Furnished fs) (Furnished fs) :=
  (meets_makeChain_furnished p.ancestors).strengthen fun _ hfs => hfs ▸ .refl fs

end Disk

end Provision
