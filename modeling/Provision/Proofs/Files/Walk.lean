import Provision.Proofs.Files.Path

/-!
# Walking along names

Following names is a walk: each name moves from one place to another (`Move`), and a link is
replaced by the names of its path.  `Leads` is a walk on which every name is there; it only
depends on what exists (`Leads.mono`), goes to one place (`Leads.unique`), and is what
`follow` does but for the last name (`exists_leads_of_follow`).
-/
namespace Provision.FileSystem

open Provision.Path (isBlank plain Ordinary)

/-! ## One name -/

/-- **What a name leads to**, and how many links may still be followed then.  A link is followed
by taking the pieces of its path (`more`) before the names that are still to come. -/
inductive Move (fs : FileSystem) : (links : Nat) → (place : Location) → (name : FileName) →
    (links' : Nat) → (next : Location) → (more : List FileName) → Prop
  | stay {links : Nat} {place : Location} {name : FileName}
    (hplace : fs.get? place = some .directory) (hname : isBlank name = true) :
    Move fs links place name links place []
  | up {links : Nat} {place : Location} (hplace : fs.get? place = some .directory) :
    Move fs links place Path.above links place.dropLast []
  | down {links : Nat} {place : Location} {name : FileName} {entry : FileEntry}
    (hplace : fs.get? place = some .directory) (hname : isBlank name = false)
    (habove : name ≠ Path.above) (hlength : name.length ≤ longestName)
    (hentry : fs.get? (place ++ [name]) = some entry) (hlink : ∀ path, entry ≠ .link path) :
    Move fs links place name links (place ++ [name]) []
  | through {links : Nat} {place : Location} {name : FileName} {path : Path}
    (hplace : fs.get? place = some .directory) (hname : isBlank name = false)
    (habove : name ≠ Path.above) (hlength : name.length ≤ longestName)
    (hentry : fs.get? (place ++ [name]) = some (.link path)) :
    Move fs (links + 1) place name links (startOf place path) path.pieces

variable {fs : FileSystem} {links links' mid : Nat} {place next goal : Location} {name : FileName}
  {names rest more : List FileName} {followLast : Bool} {entry : FileEntry} {path : Path}

theorem isBlank_above : isBlank Path.above = false := by decide

theorem isBlank_iff : isBlank name = true ↔ name = [] ∨ name = Path.here := by
  simp [isBlank]

theorem isBlank_eq_false_iff : isBlank name = false ↔ ¬ (name = [] ∨ name = Path.here) := by
  simp [isBlank]

theorem Move.directory (h : Move fs links place name links' next more) :
    fs.get? place = some .directory := by
  cases h <;> assumption

/-! ## Following -/

section Stretch

variable {cause : FileError} {directory : Location}

theorem follow_of_ended (h : fs.stretch followLast place names = .ended goal) :
    fs.follow followLast links place names = .ok goal := by
  unfold follow
  rw [h]

theorem follow_of_refused (h : fs.stretch followLast place names = .refused cause) :
    fs.follow followLast links place names = .error cause := by
  unfold follow
  rw [h]

theorem follow_of_atLink_zero
    (h : fs.stretch followLast place names = .atLink directory path rest) :
    fs.follow followLast 0 place names = .error .tooManyLinks := by
  unfold follow
  rw [h]

theorem follow_of_atLink_succ
    (h : fs.stretch followLast place names = .atLink directory path rest) :
    fs.follow followLast (links + 1) place names =
      fs.follow followLast links (startOf directory path) (path.pieces ++ rest) := by
  rw [follow.eq_def]
  simp only [h]

theorem follow_congr {names' : List FileName}
    (h : fs.stretch followLast place names = fs.stretch followLast next names') :
    fs.follow followLast links place names = fs.follow followLast links next names' := by
  rw [follow.eq_def, follow.eq_def fs followLast links next]
  simp only [h]

variable (hplace : fs.get? place = some .directory)
include hplace

theorem stretch_blank (hname : isBlank name = true) :
    fs.stretch followLast place (name :: rest) = fs.stretch followLast place rest := by
  rw [stretch, hplace]
  simp only [if_pos (isBlank_iff.mp hname)]

theorem stretch_above : fs.stretch followLast place (Path.above :: rest) =
    fs.stretch followLast place.dropLast rest := by
  rw [stretch, hplace]
  simp only [if_neg (isBlank_eq_false_iff.mp isBlank_above), if_true]

variable (hname : isBlank name = false) (habove : name ≠ Path.above)
include hname habove

theorem stretch_long (hlength : longestName < name.length) :
    fs.stretch followLast place (name :: rest) = .refused .nameTooLong := by
  rw [stretch, hplace]
  simp only [if_neg (isBlank_eq_false_iff.mp hname), if_neg habove, if_pos hlength]

variable (hlength : name.length ≤ longestName)
include hlength

theorem stretch_absent (hentry : fs.get? (place ++ [name]) = none) :
    fs.stretch followLast place (name :: rest) =
      if rest = [] then .ended (place ++ [name]) else .refused .notFound := by
  rw [stretch, hplace]
  simp only [if_neg (isBlank_eq_false_iff.mp hname), if_neg habove,
    if_neg (Nat.not_lt.mpr hlength), hentry]

theorem stretch_link (hentry : fs.get? (place ++ [name]) = some (.link path)) :
    fs.stretch followLast place (name :: rest) =
      if rest = [] ∧ ¬ followLast = true then .ended (place ++ [name])
      else .atLink place path rest := by
  rw [stretch, hplace]
  simp only [if_neg (isBlank_eq_false_iff.mp hname), if_neg habove,
    if_neg (Nat.not_lt.mpr hlength), hentry]

theorem stretch_present (hentry : fs.get? (place ++ [name]) = some entry)
    (hlink : ∀ path, entry ≠ .link path) :
    fs.stretch followLast place (name :: rest) =
      fs.stretch followLast (place ++ [name]) rest := by
  rw [stretch, hplace]
  simp only [if_neg (isBlank_eq_false_iff.mp hname), if_neg habove,
    if_neg (Nat.not_lt.mpr hlength), hentry]

end Stretch

theorem follow_nil (links : Nat) (place : Location) :
    fs.follow followLast links place [] = .ok place :=
  follow_of_ended rfl

/-- Following names is moving along the first and following the others.  Only a link at the very
end may be an exception. -/
theorem follow_of_move (h : Move fs links place name mid next more)
    (hlast : more = [] ∨ rest ≠ [] ∨ followLast = true) :
    fs.follow followLast links place (name :: rest) =
      fs.follow followLast mid next (more ++ rest) := by
  cases h with
  | stay hplace hname => exact follow_congr (stretch_blank hplace hname)
  | up hplace => exact follow_congr (stretch_above hplace)
  | down hplace hname habove hlength hentry hlink =>
    exact follow_congr (stretch_present hplace hname habove hlength hentry hlink)
  | through hplace hname habove hlength hentry =>
    refine follow_of_atLink_succ ?_
    rw [stretch_link hplace hname habove hlength hentry, if_neg]
    rintro ⟨hrest, hfollow⟩
    rcases hlast with hnil | hne | htrue
    · exact List.splitOn_ne_nil _ _ hnil
    · exact hne hrest
    · exact hfollow htrue

/-- **Where following names ends at the last of them**: at a name that does not exist, or at a
link that is not followed. -/
structure EndsAt (fs : FileSystem) (followLast : Bool) (place : Location) (name : FileName)
    (goal : Location) : Prop where
  directory : fs.get? place = some .directory
  isBlank : isBlank name = false
  ne_above : name ≠ Path.above
  length_le : name.length ≤ longestName
  eq_concat : goal = place ++ [name]
  last : fs.get? goal = none ∨ followLast = false ∧ ∃ path, fs.get? goal = some (.link path)

/-- Names are followed in directories only. -/
theorem directory_of_follow (h : fs.follow followLast links place (name :: rest) = .ok goal) :
    fs.get? place = some .directory := by
  have hrefused (cause : FileError)
      (hstretch : fs.stretch followLast place (name :: rest) = .refused cause) : False :=
    nomatch (follow_of_refused hstretch).symm.trans h
  cases hplace : fs.get? place with
  | none => exact (hrefused .notFound (by rw [stretch, hplace])).elim
  | some entry =>
    cases entry with
    | directory => rfl
    | file content => exact (hrefused .notDirectory (by rw [stretch, hplace])).elim
    | link path => exact (hrefused .notDirectory (by rw [stretch, hplace])).elim

section Ordinary

variable (hplace : fs.get? place = some .directory) (hname : isBlank name = false)
  (habove : name ≠ Path.above)
include hplace hname habove

theorem length_le_of_follow (h : fs.follow followLast links place (name :: rest) = .ok goal) :
    name.length ≤ longestName := by
  refine Nat.not_lt.mp fun hlength => ?_
  cases (follow_of_refused (stretch_long hplace hname habove hlength)).symm.trans h

/-- A name that does not exist can only be the last one. -/
theorem endsAt_of_absent (hentry : fs.get? (place ++ [name]) = none)
    (h : fs.follow followLast links place (name :: rest) = .ok goal) :
    rest = [] ∧ EndsAt fs followLast place name goal := by
  have hlength := length_le_of_follow hplace hname habove h
  have hstretch : fs.stretch followLast place (name :: rest) =
      if rest = [] then .ended (place ++ [name]) else .refused .notFound :=
    stretch_absent hplace hname habove hlength hentry
  split at hstretch
  · rename_i hrest
    cases h.symm.trans (follow_of_ended hstretch)
    exact ⟨hrest, hplace, hname, habove, hlength, rfl, Or.inl hentry⟩
  · cases (follow_of_refused hstretch).symm.trans h

/-- A link is followed, or it is the last name. -/
theorem through_or_endsAt (hentry : fs.get? (place ++ [name]) = some (.link path))
    (h : fs.follow followLast links place (name :: rest) = .ok goal) :
    (∃ mid next more, Move fs links place name mid next more ∧
      fs.follow followLast mid next (more ++ rest) = .ok goal) ∨
    rest = [] ∧ EndsAt fs followLast place name goal := by
  have hlength := length_le_of_follow hplace hname habove h
  have hstretch : fs.stretch followLast place (name :: rest) =
      if rest = [] ∧ ¬ followLast = true then .ended (place ++ [name])
      else .atLink place path rest :=
    stretch_link hplace hname habove hlength hentry
  split at hstretch
  · rename_i hlast
    cases h.symm.trans (follow_of_ended hstretch)
    exact Or.inr ⟨hlast.1, hplace, hname, habove, hlength, rfl,
      Or.inr ⟨by simpa using hlast.2, path, hentry⟩⟩
  · cases links with
    | zero => cases h.symm.trans (follow_of_atLink_zero hstretch)
    | succ links =>
      exact Or.inl ⟨_, _, _, .through hplace hname habove hlength hentry,
        follow_of_atLink_succ hstretch ▸ h⟩

end Ordinary

/-- **What following names means**: moving along the first, or ending at the last. -/
theorem follow_cons_eq_ok (h : fs.follow followLast links place (name :: rest) = .ok goal) :
    (∃ mid next more, Move fs links place name mid next more ∧
      fs.follow followLast mid next (more ++ rest) = .ok goal) ∨
    rest = [] ∧ EndsAt fs followLast place name goal := by
  have hplace := directory_of_follow h
  have hmove {next : Location} (hm : Move fs links place name links next []) :
      ∃ mid next more, Move fs links place name mid next more ∧
        fs.follow followLast mid next (more ++ rest) = .ok goal :=
    ⟨links, next, [], hm, follow_of_move hm (Or.inl rfl) ▸ h⟩
  by_cases hblank : isBlank name = true
  · exact Or.inl (hmove (.stay hplace hblank))
  rw [Bool.not_eq_true] at hblank
  by_cases habove : name = Path.above
  · subst habove
    exact Or.inl (hmove (.up hplace))
  cases hentry : fs.get? (place ++ [name]) with
  | none => exact Or.inr (endsAt_of_absent hplace hblank habove hentry h)
  | some entry =>
    by_cases hlink : ∃ path, entry = .link path
    · obtain ⟨path, rfl⟩ := hlink
      exact through_or_endsAt hplace hblank habove hentry h
    · have hlength := length_le_of_follow hplace hblank habove h
      exact Or.inl (hmove (.down hplace hblank habove hlength hentry
        fun path heq => hlink ⟨path, heq⟩))

/-! ## Many names -/

/-- **Where names lead**, all links followed, and how many links may still be followed then.
Everything that names lead to exists. -/
inductive Leads (fs : FileSystem) :
    (links : Nat) → (place : Location) → (names : List FileName) → (links' : Nat) →
      (goal : Location) → Prop
  | done {links : Nat} {place : Location} : Leads fs links place [] links place
  | move {links mid links' : Nat} {place next goal : Location} {name : FileName}
    {more rest : List FileName} (hmove : Move fs links place name mid next more)
    (hrest : Leads fs mid next (more ++ rest) links' goal) :
    Leads fs links place (name :: rest) links' goal

/-- **Paths lead through two entries alike** if they are the same or both files. -/
inductive Alike : FileEntry → FileEntry → Prop
  | refl (entry : FileEntry) : Alike entry entry
  | file (content content' : Bytes) : Alike (.file content) (.file content')

section Alike

variable {fs' : FileSystem}
  (hfs : ∀ x e, fs.get? x = some e → ∃ e', fs'.get? x = some e' ∧ Alike e e')
include hfs

theorem get?_directory_of_alike (h : fs.get? place = some .directory) :
    fs'.get? place = some .directory := by
  obtain ⟨entry, hentry, halike⟩ := hfs _ _ h
  cases halike
  exact hentry

theorem Move.of_alike (h : Move fs links place name links' next more) :
    Move fs' links place name links' next more := by
  cases h with
  | stay hplace hname => exact .stay (get?_directory_of_alike hfs hplace) hname
  | up hplace => exact .up (get?_directory_of_alike hfs hplace)
  | down hplace hname habove hlength hentry hlink =>
    obtain ⟨entry', hentry', halike⟩ := hfs _ _ hentry
    refine .down (get?_directory_of_alike hfs hplace) hname habove hlength hentry' ?_
    cases halike with
    | refl => exact hlink
    | file => exact nofun
  | through hplace hname habove hlength hentry =>
    obtain ⟨entry', hentry', halike⟩ := hfs _ _ hentry
    cases halike
    exact .through (get?_directory_of_alike hfs hplace) hname habove hlength hentry'

/-- Names lead to the same place where files have other contents and more exists. -/
theorem Leads.of_alike (h : Leads fs links place names links' goal) :
    Leads fs' links place names links' goal := by
  induction h with
  | done => exact .done
  | move hmove _ ih => exact .move (hmove.of_alike hfs) ih

end Alike

/-- Names lead to the same place where more exists. -/
theorem Leads.mono {fs' : FileSystem} (hfs : ∀ x e, fs.get? x = some e → fs'.get? x = some e)
    (h : Leads fs links place names links' goal) : Leads fs' links place names links' goal :=
  h.of_alike fun x e hx => ⟨e, hfs x e hx, .refl e⟩

theorem Move.unique {mid' : Nat} {next' : Location} {more' : List FileName}
    (h : Move fs links place name mid next more) (h' : Move fs links place name mid' next' more') :
    mid = mid' ∧ next = next' ∧ more = more' := by
  cases h with
  | stay hplace hname =>
    cases h' with
    | stay => exact ⟨rfl, rfl, rfl⟩
    | up => cases hname
    | down _ hname' => cases hname.symm.trans hname'
    | through _ hname' => cases hname.symm.trans hname'
  | up hplace =>
    cases h' with
    | stay _ hname => cases hname
    | up => exact ⟨rfl, rfl, rfl⟩
    | down _ _ habove => exact absurd rfl habove
    | through _ _ habove => exact absurd rfl habove
  | down hplace hname habove hlength hentry hlink =>
    cases h' with
    | stay _ hname' => cases hname.symm.trans hname'
    | up => exact absurd rfl habove
    | down => exact ⟨rfl, rfl, rfl⟩
    | through _ _ _ _ hentry' =>
      exact absurd (Option.some.inj (hentry.symm.trans hentry')) (hlink _)
  | through hplace hname habove hlength hentry =>
    cases h' with
    | stay _ hname' => cases hname.symm.trans hname'
    | up => exact absurd rfl habove
    | down _ _ _ _ hentry' hlink =>
      exact absurd (Option.some.inj (hentry'.symm.trans hentry)) (hlink _)
    | through _ _ _ _ hentry' =>
      cases hentry.symm.trans hentry'
      exact ⟨rfl, rfl, rfl⟩

/-- Names lead to one place. -/
theorem Leads.unique {links'' : Nat} {goal' : Location} (h : Leads fs links place names links' goal)
    (h' : Leads fs links place names links'' goal') : links' = links'' ∧ goal = goal' := by
  induction h with
  | done =>
    cases h'
    exact ⟨rfl, rfl⟩
  | move hmove _ ih =>
    cases h' with
    | move hmove' hrest' =>
      obtain ⟨rfl, rfl, rfl⟩ := hmove.unique hmove'
      exact ih hrest'

theorem Leads.append {links'' : Nat} {goal' : Location} (h : Leads fs links place names links' goal)
    (hrest : Leads fs links' goal rest links'' goal') :
    Leads fs links place (names ++ rest) links'' goal' := by
  induction h with
  | done => exact hrest
  | move hmove _ ih =>
    refine .move hmove ?_
    have hlater := ih hrest
    rwa [List.append_assoc] at hlater

theorem Leads.split (h : Leads fs links place (names ++ rest) links' goal) :
    ∃ mid next, Leads fs links place names mid next ∧ Leads fs mid next rest links' goal := by
  generalize hall : names ++ rest = all at h
  induction h generalizing names with
  | done =>
    obtain ⟨rfl, rfl⟩ := List.append_eq_nil_iff.mp hall
    exact ⟨_, _, .done, .done⟩
  | move hmove hlater ih =>
    cases names with
    | nil =>
      obtain rfl : rest = _ := hall
      exact ⟨_, _, .done, .move hmove hlater⟩
    | cons name names =>
      obtain ⟨rfl, rfl⟩ := List.cons.inj hall
      obtain ⟨mid, next, hnames, hrest⟩ := ih (List.append_assoc ..)
      exact ⟨mid, next, .move hmove hnames, hrest⟩

theorem Leads.directory (h : Leads fs links place names links' goal)
    (hgoal : fs.get? goal = some .directory) : fs.get? place = some .directory := by
  cases h with
  | done => exact hgoal
  | move hmove _ => exact hmove.directory

/-- Names that stand for the directory they are in make no difference on the way to a
directory. -/
theorem leads_plain_iff (hgoal : fs.get? goal = some .directory) :
    Leads fs links place (plain names) links' goal ↔ Leads fs links place names links' goal := by
  induction names generalizing links place with
  | nil => exact Iff.rfl
  | cons name rest ih =>
    have hcons : name :: rest = [name] ++ rest := rfl
    cases hblank : isBlank name with
    | true =>
      have hplain : plain (name :: rest) = plain rest := by simp [plain, hblank]
      rw [hplain, ih]
      constructor
      · intro h
        exact .move (.stay (h.directory hgoal) hblank) h
      · intro h
        cases h with
        | move hmove hrest =>
          obtain ⟨rfl, rfl, rfl⟩ := hmove.unique (.stay hmove.directory hblank)
          exact hrest
    | false =>
      have hplain : plain (name :: rest) = [name] ++ plain rest := by simp [plain, hblank]
      rw [hplain, hcons]
      constructor
      · intro h
        obtain ⟨mid, next, hname, hrest⟩ := h.split
        exact hname.append (ih.mp hrest)
      · intro h
        obtain ⟨mid, next, hname, hrest⟩ := h.split
        exact hname.append (ih.mpr hrest)

/-! ## Following and leading -/

/-- Following goes on where names lead. -/
theorem Leads.follow_append (h : Leads fs links place names mid next) (hrest : rest ≠ []) :
    fs.follow followLast links place (names ++ rest) = fs.follow followLast mid next rest := by
  induction h with
  | done => rfl
  | move hmove _ ih =>
    rw [List.cons_append, follow_of_move hmove (Or.inr (Or.inl (by simp [hrest]))),
      ← List.append_assoc, ih]

theorem Leads.follow_true (h : Leads fs links place names links' goal) :
    fs.follow true links place names = .ok goal := by
  induction h with
  | done => exact follow_nil _ _
  | move hmove _ ih => rw [follow_of_move hmove (Or.inr (Or.inr rfl)), ih]

/-- Where names lead to something, something is found there without following the last link. -/
theorem Leads.follow_false (h : Leads fs links place names links' goal)
    (hgoal : (fs.get? goal).isSome = true) :
    ∃ x, fs.follow false links place names = .ok x ∧ (fs.get? x).isSome = true := by
  induction h with
  | done => exact ⟨_, follow_nil _ _, hgoal⟩
  | @move links mid links' place next goal name more rest hmove _ ih =>
    by_cases hlast : more = [] ∨ rest ≠ []
    · rw [follow_of_move hmove (hlast.imp_right Or.inl)]
      exact ih hgoal
    · obtain ⟨hmore, hrest⟩ := not_or.mp hlast
      rw [not_not] at hrest
      subst hrest
      cases hmove with
      | through hplace hname habove hlength hentry =>
        refine ⟨place ++ [name], follow_of_ended ?_, by rw [hentry]; rfl⟩
        rw [stretch_link hplace hname habove hlength hentry, if_pos ⟨rfl, by simp⟩]
      | _ => contradiction

/-- A move follows a link, or goes to one place. -/
theorem Move.links_lt (h : Move fs links place name mid next more) :
    mid < links ∨ mid = links ∧ more = [] := by
  cases h with
  | through => exact Or.inl (Nat.lt_succ_self _)
  | _ => exact Or.inr ⟨rfl, rfl⟩

/-- What is found by following every link is where the names lead. -/
theorem leads_of_follow (h : fs.follow true links place names = .ok goal)
    (hgoal : (fs.get? goal).isSome = true) : ∃ links', Leads fs links place names links' goal := by
  induction links using Nat.strongRecOn generalizing place names with
  | ind links ihlinks =>
    induction names generalizing place with
    | nil =>
      cases (follow_nil links place).symm.trans h
      exact ⟨links, .done⟩
    | cons name rest ihnames =>
      rcases follow_cons_eq_ok h with ⟨mid, next, more, hmove, hfollow⟩ | ⟨-, hends⟩
      · have hlater : ∃ links', Leads fs mid next (more ++ rest) links' goal := by
          rcases hmove.links_lt with hlt | ⟨rfl, rfl⟩
          · exact ihlinks mid hlt hfollow
          · exact ihnames hfollow
        obtain ⟨links', hlater⟩ := hlater
        exact ⟨links', .move hmove hlater⟩
      · rcases hends.last with hnone | ⟨hfollow, -⟩
        · simp [hnone] at hgoal
        · cases hfollow

/-- All names but the last lead somewhere. -/
theorem exists_leads_of_follow (h : fs.follow followLast links place (names ++ [name]) = .ok goal) :
    ∃ mid next, Leads fs links place names mid next ∧
      fs.follow followLast mid next [name] = .ok goal := by
  induction links using Nat.strongRecOn generalizing place names with
  | ind links ihlinks =>
    induction names generalizing place with
    | nil => exact ⟨links, place, .done, h⟩
    | cons first rest ihnames =>
      rcases follow_cons_eq_ok h with ⟨mid, next, more, hmove, hfollow⟩ | ⟨hnil, -⟩
      · have hlater : ∃ mid' next', Leads fs mid next (more ++ rest) mid' next' ∧
            fs.follow followLast mid' next' [name] = .ok goal := by
          rcases hmove.links_lt with hlt | ⟨rfl, rfl⟩
          · exact ihlinks mid hlt (by rwa [List.append_assoc])
          · exact ihnames hfollow
        obtain ⟨mid', next', hlater, hlast⟩ := hlater
        exact ⟨mid', next', .move hmove hlater, hlast⟩
      · simp at hnil

end Provision.FileSystem
