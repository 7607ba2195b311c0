import Mathlib.Data.List.Induction
import Provision.Proofs.Files.Lookup
import Provision.Proofs.Lookup

/-!
# What a change does

A change is known by what stands where afterwards (`get?_put`, `get?_prune`, `get?_moved_append`
and its companions), so it leaves everything alone but its zone (`sameExcept_put` and so on).
Where everything below a place stands in a directory (`Grounded`), it still does afterwards.  The
calls are told for a name in a directory: when they are not refused, and what they put or take
away then.
-/
namespace Provision.FileSystem

open Provision.Path (Ordinary Fits)

variable {fs fs' : FileSystem} {p q : Path} {place x y source goal root : Location}
  {name name' : FileName} {entry : FileEntry}

/-! ## What stands where after a change -/

theorem get?_root (fs : FileSystem) : fs.get? [] = some .directory :=
  rfl

theorem get?_of_ne_nil (fs : FileSystem) (hx : x ≠ []) : fs.get? x = fs.entries.lookup x :=
  if_neg hx

theorem get?_put (hplace : place ≠ []) :
    (fs.put place entry).get? x = if x = place then some entry else fs.get? x := by
  by_cases hx : x = []
  · subst hx
    rw [get?_root, if_neg hplace.symm, get?_root]
  · rw [get?_of_ne_nil _ hx, get?_of_ne_nil _ hx, put, List.lookup_cons]
    by_cases heq : x = place
    · simp [heq]
    · have hne : (x == place) = false := beq_eq_false_iff_ne.mpr heq
      rw [hne, if_neg heq]
      exact (lookup_filter_fst (fun y => decide (y ≠ place)) x _).trans (if_pos (by simp [heq]))

theorem get?_prune (hplace : place ≠ []) :
    (fs.prune place).get? x = if place <+: x then none else fs.get? x := by
  by_cases hx : x = []
  · subst hx
    rw [get?_root, if_neg (fun h => hplace (List.prefix_nil.mp h)), get?_root]
  · rw [get?_of_ne_nil _ hx, get?_of_ne_nil _ hx, prune,
      lookup_filter_fst (fun y => decide (¬ place.isPrefixOf y)) x]
    by_cases hstarts : place <+: x <;> simp [hstarts]

/-- Where an entry stands after a move. -/
def movedTo (source goal x : Location) : Location :=
  match source.isPrefixOf? x with
  | some rest => goal ++ rest
  | none => x

theorem movedTo_append (rest : Location) : movedTo source goal (source ++ rest) = goal ++ rest := by
  rw [movedTo, List.isPrefixOf?_eq_some_iff_append_eq.mpr rfl]

theorem movedTo_of_not_isPrefix (h : ¬ source <+: x) : movedTo source goal x = x := by
  rw [movedTo]
  split
  · rename_i rest hrest
    exact absurd ⟨rest, List.isPrefixOf?_eq_some_iff_append_eq.mp hrest⟩ h
  · rfl

theorem entries_relocate : (fs.relocate source goal).entries =
    fs.entries.map fun e => (movedTo source goal e.1, e.2) := by
  refine List.map_congr_left fun e _ => ?_
  rw [movedTo]
  cases source.isPrefixOf? e.1 <;> rfl

/-- The move of `source` to `goal`, which takes away what stood there before. -/
def moved (fs : FileSystem) (source goal : Location) : FileSystem :=
  (fs.prune goal).relocate source goal

section Moved

variable (hsource : ¬ goal <+: source) (hgoal : ¬ source <+: goal)
include hsource hgoal

theorem not_prefix_source_append (rest : Location) : ¬ goal <+: source ++ rest := fun h =>
  (List.prefix_or_prefix_of_prefix h (List.prefix_append source rest)).elim hsource hgoal

theorem get?_moved_append (rest : Location) :
    (fs.moved source goal).get? (goal ++ rest) = fs.get? (source ++ rest) := by
  have hgoal' : goal ≠ [] := fun h => hsource (h ▸ List.nil_prefix)
  have hsource' : source ≠ [] := fun h => hgoal (h ▸ List.nil_prefix)
  have hentries : ∀ e ∈ (fs.prune goal).entries,
      goal ++ rest = movedTo source goal e.1 ↔ source ++ rest = e.1 := by
    intro e he
    by_cases hstarts : source <+: e.1
    · obtain ⟨more, hmore⟩ := hstarts
      rw [← hmore, movedTo_append, List.append_right_inj, List.append_right_inj]
    · have hnot : ¬ goal <+: e.1 := by simpa using (List.mem_filter.mp he).2
      rw [movedTo_of_not_isPrefix hstarts]
      exact ⟨fun h => absurd ⟨rest, h⟩ hnot, fun h => absurd ⟨rest, h⟩ hstarts⟩
  rw [moved, get?_of_ne_nil _ (by simp [hgoal']), entries_relocate, lookup_map_fst hentries,
    ← get?_of_ne_nil _ (by simp [hsource']), get?_prune hgoal',
    if_neg (not_prefix_source_append hsource hgoal rest)]

theorem get?_moved_of_source (hx : source <+: x) : (fs.moved source goal).get? x = none := by
  have hx' : x ≠ [] := by
    rintro rfl
    exact hgoal (List.prefix_nil.mp hx ▸ List.nil_prefix)
  rw [get?_of_ne_nil _ hx', moved, entries_relocate, List.lookup_eq_none_iff]
  rintro ⟨y, e⟩ hy
  obtain ⟨⟨y', e'⟩, -, heq⟩ := List.mem_map.mp hy
  obtain ⟨rfl, rfl⟩ := Prod.mk.inj heq
  rw [bne_iff_ne]
  rintro rfl
  by_cases hstarts : source <+: y'
  · obtain ⟨rest, rfl⟩ := hstarts
    obtain ⟨more, hmore⟩ := hx
    rw [movedTo_append] at hmore
    exact not_prefix_source_append hsource hgoal more ⟨rest, hmore.symm⟩
  · rw [movedTo_of_not_isPrefix hstarts] at hx
    exact hstarts hx

omit hgoal in
theorem get?_moved_of_not (hx : ¬ goal <+: x) (hx' : ¬ source <+: x) :
    (fs.moved source goal).get? x = fs.get? x := by
  have hgoal' : goal ≠ [] := fun h => hsource (h ▸ List.nil_prefix)
  by_cases hnil : x = []
  · subst hnil
    rfl
  have hentries : ∀ e ∈ (fs.prune goal).entries, x = movedTo source goal e.1 ↔ x = e.1 := by
    intro e _
    by_cases hstarts : source <+: e.1
    · obtain ⟨rest, hrest⟩ := hstarts
      rw [← hrest, movedTo_append]
      exact ⟨fun h => absurd ⟨rest, h.symm⟩ hx, fun h => absurd ⟨rest, h.symm⟩ hx'⟩
    · rw [movedTo_of_not_isPrefix hstarts]
  rw [moved, get?_of_ne_nil _ hnil, entries_relocate, lookup_map_fst hentries,
    ← get?_of_ne_nil _ hnil, get?_prune hgoal', if_neg hx]

end Moved

/-- What is put last stands at a place. -/
theorem put_put (entry' : FileEntry) : (fs.put place entry).put place entry' = fs.put place entry' := by
  simp [put, List.filter_filter]

/-! ## What a change leaves alone -/

theorem sameExcept_put (hplace : place ≠ []) :
    SameExcept (· = place) fs (fs.put place entry) :=
  ⟨rfl, fun x hx => by rw [get?_put hplace, if_neg hx]⟩

theorem sameExcept_prune (hplace : place ≠ []) :
    SameExcept (place <+: ·) fs (fs.prune place) :=
  ⟨rfl, fun x hx => by rw [get?_prune hplace, if_neg hx]⟩

theorem not_prefix_concat (place : Location) (hne : name ≠ name') :
    ¬ place ++ [name] <+: place ++ [name'] := by
  rw [List.prefix_append_right_inj]
  simpa using hne

theorem sameExcept_moved (hne : name ≠ name') :
    SameExcept (fun x => place ++ [name] <+: x ∨ place ++ [name'] <+: x) fs
      (fs.moved (place ++ [name]) (place ++ [name'])) :=
  ⟨rfl, fun _ hx => get?_moved_of_not (not_prefix_concat _ hne.symm) (fun h => hx (Or.inr h))
    fun h => hx (Or.inl h)⟩

/-- A path leads into the same directory after something was put where nothing stood. -/
theorem Enters.put (h : Enters fs p place) (hfree : fs.get? x = none) :
    Enters (fs.put x entry) p place := by
  refine h.mono rfl fun y e hy => ?_
  rw [get?_put, if_neg, hy]
  · rintro rfl
    exact nomatch hfree.symm.trans hy
  · rintro rfl
    exact nomatch (get?_root fs).symm.trans hfree

/-- A path names the same place after something was put where nothing stood. -/
theorem Names.put (h : Names fs p name place) (hfree : fs.get? x = none) :
    Names (fs.put x entry) p name place :=
  ⟨h.fits, h.length_le, h.enters.put hfree⟩

/-- Where a path leads does not depend on what has been taken away. -/
theorem Enters.of_prune (h : Enters (fs.prune x) p place) (hx : x ≠ []) : Enters fs p place := by
  refine h.mono rfl fun y e hy => ?_
  rw [get?_prune hx] at hy
  split at hy
  · cases hy
  · exact hy

/-! ## Trees -/

/-- **Everything below a place stands in a directory.** -/
def Grounded (root : Location) (fs : FileSystem) : Prop :=
  ∀ x name, root <+: x → fs.get? (x ++ [name]) ≠ none → fs.get? x = some .directory

namespace Grounded

theorem of_empty (hempty : ∀ x, Below root x → fs.get? x = none) : Grounded root fs := by
  rintro x name ⟨rest, rfl⟩ hentry
  exact absurd (hempty _ ⟨(rest ++ [name]).head (by simp), (rest ++ [name]).tail,
    by rw [List.cons_head_tail, List.append_assoc]⟩) hentry

/-- It is enough to look at the entries. -/
theorem of_entries (h : ∀ e ∈ fs.entries, root <+: e.1.dropLast →
    fs.get? e.1.dropLast = some .directory) : Grounded root fs := by
  intro x name hx hentry
  rw [get?_of_ne_nil _ (by simp), ne_eq, List.lookup_eq_none_iff] at hentry
  push Not at hentry
  obtain ⟨e, he, heq⟩ := hentry
  have hlast : x ++ [name] = e.1 := by simpa using heq
  have hplace : e.1.dropLast = x := by rw [← hlast, List.dropLast_concat]
  exact hplace ▸ h e he (hplace.symm ▸ hx)

theorem mono (h : Grounded root fs) (hplace : root <+: place) : Grounded place fs :=
  fun x name hx => h x name (hplace.trans hx)

/-- A tree that changed below a place, where it is a tree. -/
theorem of_below (h : Grounded root fs) (hsame : SameExcept (Below place) fs fs')
    (hplace : Grounded place fs') : Grounded root fs' := by
  intro x name hx hentry
  by_cases hbelow : place <+: x
  · exact hplace x name hbelow hentry
  · have hnot : ¬ Below place (x ++ [name]) := by
      rintro ⟨first, rest, heq⟩
      rcases List.eq_nil_or_concat rest with rfl | ⟨front, last, rfl⟩
      · obtain ⟨rfl, -⟩ := List.append_inj' heq rfl
        exact hbelow List.prefix_rfl
      · rw [List.concat_eq_append, ← List.cons_append, ← List.append_assoc] at heq
        obtain ⟨rfl, -⟩ := List.append_inj' heq rfl
        exact hbelow (List.prefix_append _ _)
    rw [hsame.get? _ hnot] at hentry
    rw [hsame.get? _ fun hx => hbelow hx.isPrefix]
    exact h x name hx hentry

/-- Nothing stands below a place that is not a directory. -/
theorem get?_eq_none (h : Grounded root fs) (hplace : root <+: place)
    (hentry : fs.get? place ≠ some .directory) (hx : Below place x) : fs.get? x = none := by
  obtain ⟨name, rest, rfl⟩ := hx
  induction rest using List.reverseRecOn with
  | nil => exact Classical.not_not.mp fun hne => hentry (h place name hplace hne)
  | append_singleton rest last ih =>
    refine Classical.not_not.mp fun hne => ?_
    have hdirectory := h (place ++ name :: rest) last (hplace.trans (List.prefix_append _ _))
      (by rwa [List.append_assoc, List.cons_append])
    rw [ih] at hdirectory
    cases hdirectory

/-- Nothing stands below a place at which nothing stands. -/
theorem get?_append_eq_none (h : Grounded root fs) (hplace : root <+: place)
    (hnone : fs.get? place = none) (rest : Location) : fs.get? (place ++ rest) = none := by
  cases rest with
  | nil => rwa [List.append_nil]
  | cons first rest =>
    exact h.get?_eq_none hplace (by rw [hnone]; exact nofun) ⟨first, rest, rfl⟩

/-- The way is open to what stands somewhere. -/
theorem open_of_ne_none (h : Grounded root fs) {names : List FileName}
    (hentry : fs.get? (root ++ names) ≠ none) : Open fs root names := by
  intro front hfront hne
  by_contra hnot
  obtain ⟨rest, rfl⟩ := hfront
  refine hentry (h.get?_eq_none (List.prefix_append root front) hnot (below_of_isPrefix ?_ ?_))
  · rw [← List.append_assoc]
    exact List.prefix_append _ _
  · simpa using hne

theorem put (h : Grounded root fs) (hplace : fs.get? place = some .directory)
    (hfree : fs.get? (place ++ [name]) = none) :
    Grounded root (fs.put (place ++ [name]) entry) := by
  intro x last hx hentry
  have hget (y : Location) (hy : y ≠ place ++ [name]) :
      (fs.put (place ++ [name]) entry).get? y = fs.get? y :=
    (sameExcept_put (by simp)).get? y hy
  by_cases hlast : x ++ [last] = place ++ [name]
  · obtain ⟨rfl, -⟩ := List.append_inj' hlast rfl
    rw [hget x (by simp), hplace]
  · rw [hget _ hlast] at hentry
    have hdirectory := h x last hx hentry
    rw [hget x (by rintro rfl; exact nomatch hfree.symm.trans hdirectory), hdirectory]

theorem prune (h : Grounded root fs) (hplace : place ≠ []) : Grounded root (fs.prune place) := by
  intro x name hx hentry
  rw [get?_prune hplace] at hentry ⊢
  split at hentry
  · exact absurd rfl hentry
  · rename_i hnot
    rw [if_neg fun h => hnot (h.trans (List.prefix_append _ _))]
    exact h x name hx hentry

theorem moved (h : Grounded root fs) (hplace : fs.get? place = some .directory)
    (hroot : root <+: place) (hne : name ≠ name') :
    Grounded root (fs.moved (place ++ [name]) (place ++ [name'])) := by
  have hsource := not_prefix_concat place hne.symm
  have hgoal := not_prefix_concat place hne
  intro x last hx hentry
  by_cases hx' : place ++ [name'] <+: x
  · obtain ⟨rest, rfl⟩ := hx'
    rw [List.append_assoc, get?_moved_append hsource hgoal, ← List.append_assoc] at hentry
    rw [get?_moved_append hsource hgoal]
    exact h _ last (hroot.trans (List.append_assoc .. ▸ List.prefix_append _ _)) hentry
  by_cases hx'' : place ++ [name] <+: x
  · rw [get?_moved_of_source hsource hgoal (hx''.trans (List.prefix_append _ _))] at hentry
    exact absurd rfl hentry
  rw [get?_moved_of_not hsource hx' hx'']
  by_cases hlast : place ++ [name'] <+: x ++ [last]
  · rcases List.prefix_concat_iff.mp hlast with heq | hstarts
    · obtain ⟨rfl, -⟩ := List.append_inj' heq rfl
      exact hplace
    · exact absurd hstarts hx'
  · refine h x last hx fun hnone => hentry ?_
    by_cases hlast' : place ++ [name] <+: x ++ [last]
    · exact get?_moved_of_source hsource hgoal hlast'
    · rw [get?_moved_of_not hsource hlast hlast', hnone]

end Grounded

/-- **A draft takes the place of what it replaces**: it is as if that had been written at once. -/
theorem get?_moved_put (hfs : Grounded place fs) (hfree : fs.get? (place ++ [name]) = none)
    (hgoal : fs.get? (place ++ [name']) ≠ some .directory) (hne : name ≠ name') (x : Location) :
    ((fs.put (place ++ [name]) entry).moved (place ++ [name]) (place ++ [name'])).get? x =
      if x = place ++ [name'] then some entry else fs.get? x := by
  have hsource := not_prefix_concat place hne.symm
  have hnone (goal rest : Location) (hplace : place <+: goal)
      (hgoal : fs.get? goal ≠ some .directory) (hrest : rest ≠ []) :
      fs.get? (goal ++ rest) = none := by
    obtain ⟨first, rest, rfl⟩ := List.exists_cons_of_ne_nil hrest
    exact hfs.get?_eq_none hplace hgoal ⟨first, rest, rfl⟩
  have hdraft (rest : Location) : fs.get? (place ++ [name] ++ rest) = none := by
    by_cases hrest : rest = []
    · rwa [hrest, List.append_nil]
    · exact hnone _ rest (List.prefix_append _ _) (by simp [hfree]) hrest
  by_cases hx : place ++ [name'] <+: x
  · obtain ⟨rest, rfl⟩ := hx
    rw [get?_moved_append hsource (not_prefix_concat _ hne), get?_put (by simp)]
    by_cases hrest : rest = []
    · simp [hrest]
    · rw [if_neg (by simpa using hrest), if_neg (by simpa using hrest), hdraft,
        hnone _ rest (List.prefix_append _ _) hgoal hrest]
  have hne' : x ≠ place ++ [name'] := by
    rintro rfl
    exact hx List.prefix_rfl
  rw [if_neg hne']
  by_cases hx' : place ++ [name] <+: x
  · obtain ⟨rest, rfl⟩ := hx'
    rw [get?_moved_of_source hsource (not_prefix_concat _ hne) (List.prefix_append _ _), hdraft]
  · rw [get?_moved_of_not hsource hx hx', get?_put (by simp), if_neg]
    rintro rfl
    exact hx' List.prefix_rfl

/-- **A draft that is taken away** leaves nothing behind. -/
theorem get?_prune_put (hfs : Grounded place fs) (hfree : fs.get? (place ++ [name]) = none)
    (x : Location) :
    ((fs.put (place ++ [name]) entry).prune (place ++ [name])).get? x = fs.get? x := by
  rw [get?_prune (by simp)]
  split
  · rename_i hx
    obtain ⟨rest, rfl⟩ := hx
    cases rest with
    | nil => rw [List.append_nil, hfree]
    | cons first rest =>
      exact (hfs.get?_eq_none (List.prefix_append _ _) (by simp [hfree]) ⟨first, rest, rfl⟩).symm
  · rename_i hx
    rw [get?_put (by simp), if_neg]
    rintro rfl
    exact hx List.prefix_rfl

/-! ## The calls -/

theorem freePlace_eq_ok_iff : fs.freePlace p = .ok place ↔
    fs.locate p.trimmed false = .ok place ∧ fs.get? place = none := by
  rw [freePlace, bind_eq_ok]
  constructor
  · rintro ⟨x, hx, h⟩
    cases hfree : fs.get? x with
    | none =>
      rw [hfree] at h
      cases h
      exact ⟨hx, hfree⟩
    | some entry =>
      rw [hfree] at h
      cases h
  · rintro ⟨hplace, hfree⟩
    refine ⟨place, hplace, ?_⟩
    rw [hfree]
    rfl

section Calls

variable (hname : Ordinary name)
include hname

theorem freePlace_child_iff : fs.freePlace (p.join ⟨name⟩) = .ok goal ↔
    ∃ place, Names fs p name place ∧ goal = place ++ [name] ∧ fs.get? goal = none := by
  rw [freePlace_eq_ok_iff, Path.trimmed_child hname, locate_child_iff hname]
  constructor
  · rintro ⟨⟨place, hnames, hgoal⟩, hfree⟩
    exact ⟨place, hnames, hgoal, hfree⟩
  · rintro ⟨place, hnames, hgoal, hfree⟩
    exact ⟨⟨place, hnames, hgoal⟩, hfree⟩

/-- What is put at a name in a directory, at which nothing stands. -/
theorem put_child_iff : (fs.freePlace (p.join ⟨name⟩) >>= fun x => pure (fs.put x entry)) =
    .ok fs' ↔ ∃ place, Names fs p name place ∧ fs.get? (place ++ [name]) = none ∧
      fs' = fs.put (place ++ [name]) entry := by
  rw [bind_eq_ok]
  constructor
  · rintro ⟨x, hx, h⟩
    obtain ⟨place, hnames, rfl, hfree⟩ := (freePlace_child_iff hname).mp hx
    cases h
    exact ⟨place, hnames, hfree, rfl⟩
  · rintro ⟨place, hnames, hfree, rfl⟩
    exact ⟨_, (freePlace_child_iff hname).mpr ⟨place, hnames, rfl, hfree⟩, rfl⟩

theorem makeDirectory_child_iff : fs.makeDirectory (p.join ⟨name⟩) = .ok fs' ↔
    ∃ place, Names fs p name place ∧ fs.get? (place ++ [name]) = none ∧
      fs' = fs.put (place ++ [name]) .directory :=
  put_child_iff hname

theorem makeLink_child_iff {target : Path} : fs.makeLink (p.join ⟨name⟩) target = .ok fs' ↔
    ∃ place, Names fs p name place ∧ fs.get? (place ++ [name]) = none ∧
      fs' = fs.put (place ++ [name]) (.link target) :=
  put_child_iff hname

theorem writeNew_child_iff {content : Bytes} : fs.writeNew (p.join ⟨name⟩) content = .ok fs' ↔
    ∃ place, Names fs p name place ∧ fs.get? (place ++ [name]) = none ∧
      fs' = fs.put (place ++ [name]) (.file content) := by
  rw [writeNew, Path.endsInSlash_child hname]
  exact put_child_iff hname

/-- A file that is there is written. -/
theorem write_child_of_file {content content' : Bytes} (h : Names fs p name place)
    (hfile : fs.get? (place ++ [name]) = some (.file content)) :
    fs.write (p.join ⟨name⟩) content' = .ok (fs.put (place ++ [name]) (.file content')) := by
  have hlocate : fs.locate (p.join ⟨name⟩) true = .ok (place ++ [name]) :=
    h.enters.locate_child hname h.fits h.length_le fun _ path hlink => by cases hfile.symm.trans hlink
  rw [write, Path.trimmed_child hname, hlocate, Path.endsInSlash_child hname]
  simp only [bind, Except.bind, hfile]
  rfl

/-- A file that has just been made is written. -/
theorem write_child_of_put {content content' : Bytes} (h : Names fs p name place)
    (hfree : fs.get? (place ++ [name]) = none) :
    (fs.put (place ++ [name]) (.file content)).write (p.join ⟨name⟩) content' =
      .ok (fs.put (place ++ [name]) (.file content')) := by
  rw [write_child_of_file hname (h.put hfree) (by rw [get?_put (by simp), if_pos rfl]), put_put]

/-- **A file or a link is removed.** -/
theorem removeFile_child_iff : fs.removeFile (p.join ⟨name⟩) = .ok fs' ↔
    ∃ place entry, Names fs p name place ∧ fs.get? (place ++ [name]) = some entry ∧
      entry ≠ .directory ∧ fs' = fs.prune (place ++ [name]) := by
  rw [removeFile, bind_eq_ok]
  constructor
  · rintro ⟨⟨x, entry⟩, hx, h⟩
    obtain ⟨place, hnames, rfl, hentry⟩ := (find?_child_iff hname).mp hx
    cases entry with
    | directory => cases h
    | file content =>
      cases h
      exact ⟨place, _, hnames, hentry, nofun, rfl⟩
    | link path =>
      cases h
      exact ⟨place, _, hnames, hentry, nofun, rfl⟩
  · rintro ⟨place, entry, hnames, hentry, hdirectory, rfl⟩
    refine ⟨_, (find?_child_iff hname).mpr ⟨place, hnames, rfl, hentry⟩, ?_⟩
    cases entry with
    | directory => exact absurd rfl hdirectory
    | file content => rfl
    | link path => rfl

/-- **A directory with all that is in it, or a link, is removed.** -/
theorem removeTree_child_iff : fs.removeTree (p.join ⟨name⟩) = .ok fs' ↔
    ∃ place entry, Names fs p name place ∧ fs.get? (place ++ [name]) = some entry ∧
      (∀ content, entry ≠ .file content) ∧ fs' = fs.prune (place ++ [name]) := by
  rw [removeTree, bind_eq_ok]
  constructor
  · rintro ⟨⟨x, entry⟩, hx, h⟩
    obtain ⟨place, hnames, rfl, hentry⟩ := (find?_child_iff hname).mp hx
    cases entry with
    | directory =>
      cases h
      exact ⟨place, _, hnames, hentry, nofun, rfl⟩
    | file content => cases h
    | link path =>
      cases h
      exact ⟨place, _, hnames, hentry, nofun, rfl⟩
  · rintro ⟨place, entry, hnames, hentry, hfile, rfl⟩
    refine ⟨_, (find?_child_iff hname).mpr ⟨place, hnames, rfl, hentry⟩, ?_⟩
    cases entry with
    | directory => rfl
    | file content => exact absurd rfl (hfile content)
    | link path => rfl

/-- Nothing is removed where nothing stands. -/
theorem getD_removeTree_of_none (h : ∀ place, Enters fs p place → fs.get? (place ++ [name]) = none) :
    (fs.removeTree (p.join ⟨name⟩)).toOption.getD fs = fs := by
  cases hcall : fs.removeTree (p.join ⟨name⟩) with
  | error cause => rfl
  | ok fs' =>
    obtain ⟨place, entry, hnames, hentry, -⟩ := (removeTree_child_iff hname).mp hcall
    exact nomatch (h place hnames.enters).symm.trans hentry

/-- A directory is taken away if it is there, so nothing stands there afterwards. -/
theorem get?_getD_removeTree_child (h : Names fs p name place) (hfs : Grounded place fs)
    (hdirectory : ∀ entry, fs.get? (place ++ [name]) = some entry → entry = .directory)
    (x : Location) : ((fs.removeTree (p.join ⟨name⟩)).toOption.getD fs).get? x =
      if place ++ [name] <+: x then none else fs.get? x := by
  cases hentry : fs.get? (place ++ [name]) with
  | some entry =>
    obtain rfl := hdirectory entry hentry
    rw [(removeTree_child_iff hname).mpr ⟨place, _, h, hentry, nofun, rfl⟩]
    exact get?_prune (by simp)
  | none =>
    rw [getD_removeTree_of_none hname fun place' hplace' => by
      rw [hplace'.unique h.enters, hentry]]
    split
    · rename_i hx
      obtain ⟨rest, rfl⟩ := hx
      exact hfs.get?_append_eq_none (List.prefix_append _ _) hentry rest
    · rfl

end Calls

/-- **A name in a directory is given to something else in it.** -/
theorem rename_child_eq_ok (hname : Ordinary name) (hname' : Ordinary name')
    (h : fs.rename (p.join ⟨name⟩) (p.join ⟨name'⟩) = .ok fs') :
    ∃ place entry, Names fs p name place ∧ Names fs p name' place ∧
      fs.get? (place ++ [name]) = some entry ∧
      (name = name' ∧ fs' = fs ∨ name ≠ name' ∧
        fs.checkReplace entry (place ++ [name']) = .ok () ∧
        fs' = fs.moved (place ++ [name]) (place ++ [name'])) := by
  rw [rename, bind_eq_ok] at h
  obtain ⟨⟨source, entry⟩, hsource, h⟩ := h
  obtain ⟨place, hnames, rfl, hentry⟩ := (find?_child_iff hname).mp hsource
  obtain ⟨goal, hgoal, h⟩ := bind_eq_ok.mp h
  rw [Path.trimmed_child hname', locate_child_iff hname'] at hgoal
  obtain ⟨place', hnames', rfl⟩ := hgoal
  obtain rfl := hnames.enters.unique hnames'.enters
  refine ⟨place, entry, hnames, hnames', hentry, ?_⟩
  by_cases hne : name = name'
  · subst hne
    rw [if_pos rfl] at h
    cases h
    exact Or.inl ⟨rfl, rfl⟩
  · have hstarts : ¬ (place ++ [name]).isPrefixOf (place ++ [name']) := by
      rw [List.isPrefixOf_iff_prefix]
      exact not_prefix_concat _ hne
    rw [if_neg (by simpa using hne), if_neg hstarts] at h
    obtain ⟨⟨⟩, hcheck, h⟩ := bind_eq_ok.mp h
    cases h
    exact Or.inr ⟨hne, hcheck, rfl⟩

/-- **A name in a directory is given to something else in it**, where that may take the place of
what had it. -/
theorem rename_child (hname : Ordinary name) (hname' : Ordinary name') (hne : name ≠ name')
    (h : Names fs p name place) (h' : Names fs p name' place)
    (hentry : fs.get? (place ++ [name]) = some entry)
    (hcheck : fs.checkReplace entry (place ++ [name']) = .ok ()) :
    fs.rename (p.join ⟨name⟩) (p.join ⟨name'⟩) =
      .ok (fs.moved (place ++ [name]) (place ++ [name'])) := by
  have hsource : fs.find? (p.join ⟨name⟩) false = .ok (place ++ [name], entry) :=
    (find?_child_iff hname).mpr ⟨place, h, rfl, hentry⟩
  have hgoal : fs.locate (p.join ⟨name'⟩) false = .ok (place ++ [name']) :=
    (locate_child_iff hname').mpr ⟨place, h', rfl⟩
  have hstarts : ¬ (place ++ [name]).isPrefixOf (place ++ [name']) := by
    rw [List.isPrefixOf_iff_prefix]
    exact not_prefix_concat _ hne
  rw [rename, hsource, Path.trimmed_child hname', hgoal]
  simp only [bind, Except.bind]
  rw [if_neg (by simpa using hne), if_neg hstarts, hcheck]
  rfl

theorem checkReplace_of_none (hfree : fs.get? place = none) :
    fs.checkReplace entry place = .ok () := by
  simp only [checkReplace, hfree]

end Provision.FileSystem
