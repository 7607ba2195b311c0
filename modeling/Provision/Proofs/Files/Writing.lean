import Provision.Proofs.Files.Change

/-!
# What is written is found

Writing a file puts it where its path leads, and the path leads there afterwards, too
(`find?_of_write`).  The way to a file could only be lost if it went through a link that the file
takes the place of; but whoever comes to a link without following it was below it from the start
(`Leads.isPrefix_of_link`).
-/
namespace Provision.FileSystem

open Provision.Path (Fits)

variable {fs fs' : FileSystem} {p : Path} {place next goal : Location} {name : FileName}
  {names more rest : List FileName} {links mid links' : Nat} {entry : FileEntry}
  {content content' : Bytes} {link : Path}

/-! ## The way to a file that was put -/

theorem Move.isPrefix_of_link (h : Move fs links place name mid next more)
    (hlink : fs.get? goal = some (.link link)) (hnext : goal <+: next) : goal <+: place := by
  have hroot : goal ≠ [] := by
    rintro rfl
    cases hlink
  cases h with
  | stay => exact hnext
  | up => exact hnext.trans (List.dropLast_prefix place)
  | down _ _ _ _ hentry hplain =>
    rcases List.prefix_concat_iff.mp hnext with rfl | hplace
    · exact absurd (Option.some.inj (hentry.symm.trans hlink)) (hplain link)
    · exact hplace
  | through _ _ _ _ hentry =>
    rw [startOf] at hnext
    split at hnext
    · exact absurd (List.prefix_nil.mp hnext) hroot
    · exact hnext

/-- A way that ends at a link has never left what is below it. -/
theorem Leads.isPrefix_of_link (h : Leads fs links place names links' goal)
    (hlink : fs.get? goal = some (.link link)) : goal <+: place := by
  induction h with
  | done => exact List.prefix_rfl
  | move hmove _ ih => exact hmove.isPrefix_of_link hlink (ih hlink)

section Put

variable (hgoal : fs.get? goal ≠ some .directory)
include hgoal

theorem ne_nil_of_ne_directory : goal ≠ [] := by
  rintro rfl
  exact hgoal (get?_root fs)

/-- Directories stay where they are. -/
theorem get?_put_directory (h : fs.get? place = some .directory) :
    (fs.put goal entry).get? place = some .directory := by
  rw [get?_put (ne_nil_of_ne_directory hgoal), if_neg, h]
  rintro rfl
  exact hgoal h

/-- A name moves to the same place, unless it is the name of a link that a file was put for. -/
theorem Move.put (h : Move fs links place name mid next more)
    (hlink : ∀ link, fs.get? (place ++ [name]) = some (.link link) → place ++ [name] ≠ goal) :
    Move (fs.put goal (.file content)) links place name mid next more := by
  have hget : (fs.put goal (.file content)).get? (place ++ [name]) =
      if place ++ [name] = goal then some (.file content) else fs.get? (place ++ [name]) :=
    get?_put (ne_nil_of_ne_directory hgoal)
  cases h with
  | stay hplace hname => exact .stay (get?_put_directory hgoal hplace) hname
  | up hplace => exact .up (get?_put_directory hgoal hplace)
  | down hplace hname habove hlength hentry hplain =>
    by_cases heq : place ++ [name] = goal
    · rw [if_pos heq] at hget
      exact .down (get?_put_directory hgoal hplace) hname habove hlength hget nofun
    · rw [if_neg heq, hentry] at hget
      exact .down (get?_put_directory hgoal hplace) hname habove hlength hget hplain
  | through hplace hname habove hlength hentry =>
    rw [if_neg (hlink _ hentry), hentry] at hget
    exact .through (get?_put_directory hgoal hplace) hname habove hlength hget

/-- The last name leads to what was put there. -/
theorem EndsAt.follow_put (h : EndsAt fs true place name goal) :
    (fs.put goal (.file content)).follow true links place [name] = .ok goal := by
  have hput : (fs.put goal (.file content)).get? goal = some (.file content) :=
    (get?_put (ne_nil_of_ne_directory hgoal)).trans (if_pos rfl)
  obtain ⟨hplace, hblank, habove, hlength, rfl, -⟩ := h
  have hmove : Move (fs.put (place ++ [name]) (.file content)) links place name links
      (place ++ [name]) [] :=
    .down (get?_put_directory hgoal hplace) hblank habove hlength hput nofun
  rw [follow_of_move hmove (Or.inl rfl)]
  exact follow_nil _ _

/-- **Names lead to a file that was put where they led.** -/
theorem follow_put (h : fs.follow true links place names = .ok goal) :
    (fs.put goal (.file content)).follow true links place names = .ok goal := by
  induction links using Nat.strongRecOn generalizing place names with
  | ind links ihlinks =>
    induction names generalizing place with
    | nil =>
      cases (follow_nil links place).symm.trans h
      exact follow_nil _ _
    | cons name rest ihnames =>
      rcases follow_cons_eq_ok h with ⟨mid, next, more, hmove, hfollow⟩ | ⟨rfl, hends⟩
      · have hput : Move (fs.put goal (.file content)) links place name mid next more := by
          refine hmove.put hgoal fun link hlink heq => ?_
          rw [heq] at hlink
          obtain ⟨_, hleads⟩ := leads_of_follow h (by rw [hlink]; rfl)
          exact not_concat_isPrefix place name (heq ▸ hleads.isPrefix_of_link hlink)
        rw [follow_of_move hput (Or.inr (Or.inr rfl))]
        rcases hmove.links_lt with hlt | ⟨rfl, rfl⟩
        · exact ihlinks mid hlt hfollow
        · exact ihnames hfollow
      · exact hends.follow_put hgoal

end Put

/-! ## Writing -/

theorem write_eq_ok_iff : fs.write p content = .ok fs' ↔ p.endsInSlash = false ∧
    ∃ place, fs.locate p.trimmed true = .ok place ∧ fs.get? place ≠ some .directory ∧
      fs' = fs.put place (.file content) := by
  rw [write, bind_eq_ok]
  cases hslash : p.endsInSlash with
  | true =>
    refine iff_of_false ?_ fun h => Bool.noConfusion h.1
    rintro ⟨place, -, h⟩
    cases h
  | false =>
    simp only [Bool.false_eq_true, if_false, true_and]
    refine exists_congr fun place => and_congr_right fun _ => ?_
    split
    · rename_i hentry
      exact iff_of_false (fun h => by cases h) fun h => h.1 hentry
    · rename_i hentry
      exact ⟨fun h => ⟨hentry, (Except.ok.inj h).symm⟩, fun h => congrArg Except.ok h.2.symm⟩

theorem trimmed_of_endsInSlash (h : p.endsInSlash = false) : p.trimmed = p :=
  Path.trimmed_of_getLast? (by simpa [Path.endsInSlash] using h)

/-- **What is written is found.** -/
theorem find?_of_write (h : fs.write p content = .ok fs') :
    ∃ place, fs'.find? p = .ok (place, .file content) := by
  obtain ⟨hslash, place, hplace, hentry, rfl⟩ := write_eq_ok_iff.mp h
  rw [trimmed_of_endsInSlash hslash] at hplace
  obtain ⟨hfits, hfollow⟩ := locate_eq_ok_iff.mp hplace
  refine ⟨place, find?_eq_ok_iff.mpr ⟨locate_eq_ok_iff.mpr ⟨hfits, follow_put hentry hfollow⟩, ?_⟩⟩
  rw [get?_put (ne_nil_of_ne_directory hentry), if_pos rfl]

/-- **Writing again** is as if nothing had been written before. -/
theorem write_of_write (h : fs.write p content = .ok fs') :
    fs'.write p content' = fs.write p content' := by
  obtain ⟨place, hfind⟩ := find?_of_write h
  obtain ⟨hslash, goal, hgoal, hentry, rfl⟩ := write_eq_ok_iff.mp h
  obtain ⟨hlocate, hfile⟩ := find?_eq_ok_iff.mp hfind
  have hplace : place = goal := by
    obtain ⟨-, hfollow⟩ := locate_eq_ok_iff.mp hlocate
    rw [trimmed_of_endsInSlash hslash] at hgoal
    exact Except.ok.inj (hfollow.symm.trans (follow_put hentry (locate_eq_ok_iff.mp hgoal).2))
  subst hplace
  have hafter : (fs.put place (.file content)).write p content' =
      .ok (fs.put place (.file content')) := by
    refine write_eq_ok_iff.mpr ⟨hslash, place, ?_, ?_, (put_put _).symm⟩
    · rwa [trimmed_of_endsInSlash hslash]
    · rw [hfile]
      exact nofun
  rw [hafter]
  exact (write_eq_ok_iff.mpr ⟨hslash, place, hgoal, hentry, rfl⟩).symm

end Provision.FileSystem
