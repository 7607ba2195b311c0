import Provision.Proofs.Files.Walk
import Provision.Proofs.Refusal

/-!
# Where paths lead

A path leads into a directory (`Enters`), and what stands at a name in it is found there
(`locate_child_iff`).  A path that leads into a directory without looking below it leads there
whatever is changed below (`Anchored`): this is what keeps work below a directory from losing
its way.
-/
namespace Provision.FileSystem

open Provision.Path (isBlank plain Ordinary Fits)

variable {fs fs' : FileSystem} {p q : Path} {place goal : Location} {name : FileName}
  {entry : FileEntry} {followLast : Bool}

/-- **A path leads into a directory.** -/
structure Enters (fs : FileSystem) (p : Path) (place : Location) : Prop where
  directory : fs.get? place = some .directory
  leads : ∃ links, Leads fs mostLinks (startOf fs.working p) p.localNames links place

/-- The same told of the pieces of the path. -/
theorem Enters.exists_leads_pieces (h : Enters fs p place) :
    ∃ links, Leads fs mostLinks (startOf fs.working p) p.pieces links place := by
  obtain ⟨links, hleads⟩ := h.leads
  rw [Path.localNames_eq, leads_plain_iff h.directory] at hleads
  exact ⟨links, hleads⟩

theorem enters_of_leads_pieces {links : Nat} (hplace : fs.get? place = some .directory)
    (h : Leads fs mostLinks (startOf fs.working p) p.pieces links place) : Enters fs p place :=
  ⟨hplace, links, by rwa [Path.localNames_eq, leads_plain_iff hplace]⟩

theorem Enters.unique (h : Enters fs p place) (h' : Enters fs p goal) : place = goal := by
  obtain ⟨links, hleads⟩ := h.leads
  obtain ⟨links', hleads'⟩ := h'.leads
  exact (hleads.unique hleads').2

/-- A path leads into the same directory while everything stays that stands somewhere. -/
theorem Enters.mono (h : Enters fs p place) (hworking : fs'.working = fs.working)
    (hfs : ∀ x e, fs.get? x = some e → fs'.get? x = some e) : Enters fs' p place := by
  obtain ⟨hplace, links, hleads⟩ := h
  exact ⟨hfs _ _ hplace, links, hworking.symm ▸ hleads.mono hfs⟩

theorem enters_congr (habsolute : p.isAbsolute = q.isAbsolute)
    (hnames : p.localNames = q.localNames) : Enters fs p place ↔ Enters fs q place := by
  have hstart : startOf fs.working p = startOf fs.working q := by
    rw [startOf, startOf, habsolute]
  constructor
  · rintro ⟨hplace, links, hleads⟩
    exact ⟨hplace, links, hstart ▸ hnames ▸ hleads⟩
  · rintro ⟨hplace, links, hleads⟩
    exact ⟨hplace, links, hstart.symm ▸ hnames.symm ▸ hleads⟩

theorem enters_normal_iff : Enters fs p.normal place ↔ Enters fs p place :=
  enters_congr (Path.isAbsolute_normal p) (Path.localNames_normal p)

theorem enters_trimmed_iff : Enters fs p.trimmed place ↔ Enters fs p place :=
  enters_congr (Path.isAbsolute_trimmed p) (Path.localNames_trimmed p)

/-! ## Finding -/

theorem locate_eq_ok_iff : fs.locate p followLast = .ok place ↔ Fits p ∧
    fs.follow followLast mostLinks (startOf fs.working p) p.pieces = .ok place := by
  rw [locate]
  constructor
  · intro h
    split at h
    · cases h
    · rename_i hnul
      split at h
      · cases h
      · rename_i hnil
        split at h
        · cases h
        · rename_i hlength
          exact ⟨⟨by simpa using hnul, hnil, Nat.not_lt.mp hlength⟩, h⟩
  · rintro ⟨⟨hnul, hnil, hlength⟩, h⟩
    rw [if_neg (by simpa using hnul), if_neg hnil, if_neg (Nat.not_lt.mpr hlength)]
    exact h

theorem find?_eq_ok_iff : fs.find? p followLast = .ok (place, entry) ↔
    fs.locate p followLast = .ok place ∧ fs.get? place = some entry := by
  rw [find?, bind_eq_ok]
  constructor
  · rintro ⟨x, hx, h⟩
    split at h
    · rename_i e he
      cases h
      exact ⟨hx, he⟩
    · cases h
  · rintro ⟨hplace, hentry⟩
    refine ⟨place, hplace, ?_⟩
    rw [hentry]
    rfl

/-- What a path names is where its pieces lead. -/
theorem leads_of_find? (h : fs.find? p = .ok (place, entry)) :
    ∃ links, Leads fs mostLinks (startOf fs.working p) p.pieces links place := by
  obtain ⟨hlocate, hentry⟩ := find?_eq_ok_iff.mp h
  exact leads_of_follow (locate_eq_ok_iff.mp hlocate).2 (by rw [hentry]; rfl)

/-- A path names the same place where files have other contents and more exists. -/
theorem find?_of_alike {entry' : FileEntry} (hworking : fs'.working = fs.working)
    (hfs : ∀ x e, fs.get? x = some e → ∃ e', fs'.get? x = some e' ∧ Alike e e')
    (h : fs.find? p = .ok (place, entry)) (hentry : fs'.get? place = some entry') :
    fs'.find? p = .ok (place, entry') := by
  obtain ⟨links, hleads⟩ := leads_of_find? h
  have hfollow := (hleads.of_alike hfs).follow_true
  rw [← hworking] at hfollow
  exact find?_eq_ok_iff.mpr
    ⟨locate_eq_ok_iff.mpr ⟨(locate_eq_ok_iff.mp (find?_eq_ok_iff.mp h).1).1, hfollow⟩, hentry⟩

/-- What a path names is still what it names where more exists. -/
theorem find?_mono {found : Location × FileEntry} (hworking : fs'.working = fs.working)
    (hfs : ∀ x e, fs.get? x = some e → fs'.get? x = some e) (h : fs.find? p = .ok found) :
    fs'.find? p = .ok found :=
  find?_of_alike hworking (fun x e hx => ⟨e, hfs x e hx, .refl e⟩) h
    (hfs _ _ (find?_eq_ok_iff.mp h).2)

theorem enters_of_find? (h : fs.find? p = .ok (place, .directory)) : Enters fs p place := by
  obtain ⟨links, hleads⟩ := leads_of_find? h
  exact enters_of_leads_pieces (find?_eq_ok_iff.mp h).2 hleads

theorem Enters.find? (h : Enters fs p place) (hp : Fits p) :
    fs.find? p = .ok (place, .directory) := by
  obtain ⟨links, hleads⟩ := h.exists_leads_pieces
  exact find?_eq_ok_iff.mpr ⟨locate_eq_ok_iff.mpr ⟨hp, hleads.follow_true⟩, h.directory⟩

theorem Enters.eq_of_find? (h : Enters fs p place) (hfind : fs.find? p = .ok (goal, entry)) :
    goal = place := by
  have hfits := (locate_eq_ok_iff.mp (find?_eq_ok_iff.mp hfind).1).1
  exact congrArg Prod.fst (Except.ok.inj (hfind.symm.trans (h.find? hfits)))

/-- Something stands at a path, if only a link. -/
def Present (fs : FileSystem) (p : Path) : Prop :=
  (fs.find? p false).isOk = true

theorem present_iff : Present fs p ↔ ∃ place, fs.locate p false = .ok place ∧
    (fs.get? place).isSome = true := by
  constructor
  · intro h
    rw [Present] at h
    cases hfind : fs.find? p false with
    | error cause =>
      rw [hfind] at h
      cases h
    | ok found =>
      obtain ⟨hlocate, hentry⟩ := find?_eq_ok_iff.mp hfind
      exact ⟨found.1, hlocate, by rw [hentry]; rfl⟩
  · rintro ⟨place, hlocate, hsome⟩
    obtain ⟨entry, hentry⟩ := Option.isSome_iff_exists.mp hsome
    rw [Present, find?_eq_ok_iff.mpr ⟨hlocate, hentry⟩]
    rfl

/-- What a path leads to is present. -/
theorem present_of_leads {links : Nat} (hp : Fits p)
    (h : Leads fs mostLinks (startOf fs.working p) p.pieces links place)
    (hplace : (fs.get? place).isSome = true) : Present fs p := by
  obtain ⟨x, hx, hsome⟩ := h.follow_false hplace
  exact present_iff.mpr ⟨x, locate_eq_ok_iff.mpr ⟨hp, hx⟩, hsome⟩

theorem Enters.present (h : Enters fs p place) (hp : Fits p) : Present fs p := by
  obtain ⟨links, hleads⟩ := h.exists_leads_pieces
  exact present_of_leads hp hleads (by rw [h.directory]; rfl)

theorem isDirectory_iff : fs.isDirectory p = true ↔ Fits p ∧ ∃ place, Enters fs p place := by
  rw [isDirectory]
  constructor
  · intro h
    split at h
    · rename_i place hfind
      exact ⟨(locate_eq_ok_iff.mp (find?_eq_ok_iff.mp hfind).1).1, place, enters_of_find? hfind⟩
    · cases h
  · rintro ⟨hp, place, hplace⟩
    rw [hplace.find? hp]

/-! ## A name in a directory -/

/-- **A path names something in a directory**, whether or not it stands there. -/
structure Names (fs : FileSystem) (p : Path) (name : FileName) (place : Location) : Prop where
  fits : Fits (p.join ⟨name⟩)
  length_le : name.length ≤ longestName
  enters : Enters fs p place

section Child

variable (hname : Ordinary name)
include hname

theorem leads_child {links : Nat} (hplace : fs.get? place = some .directory)
    (hlength : name.length ≤ longestName) (hentry : fs.get? (place ++ [name]) = some entry)
    (hlink : ∀ path, entry ≠ .link path) :
    Leads fs links place [name] links (place ++ [name]) :=
  .move (.down hplace hname.isBlank hname.ne_above hlength hentry hlink) .done

theorem Enters.child (h : Enters fs p place) (hlength : name.length ≤ longestName)
    (hentry : fs.get? (place ++ [name]) = some .directory) :
    Enters fs (p.join ⟨name⟩) (place ++ [name]) := by
  obtain ⟨links, hleads⟩ := h.leads
  refine ⟨hentry, links, ?_⟩
  rw [startOf, Path.isAbsolute_child hname, Path.localNames_child hname]
  exact hleads.append (leads_child hname h.directory hlength hentry nofun)

/-- A path that leads into a directory does so by its last name, in a directory that the others
lead into. -/
theorem exists_enters_of_enters_child (h : Enters fs (p.join ⟨name⟩) goal) :
    ∃ place, Enters fs p place ∧
      (goal = place ++ [name] ∨ ∃ path, fs.get? (place ++ [name]) = some (.link path)) := by
  obtain ⟨links, hleads⟩ := h.leads
  rw [startOf, Path.isAbsolute_child hname, Path.localNames_child hname] at hleads
  obtain ⟨mid, place, hfront, hlast⟩ := hleads.split
  refine ⟨place, ⟨hlast.directory h.directory, mid, hfront⟩, ?_⟩
  cases hlast with
  | move hmove hrest =>
    cases hmove with
    | stay _ hblank => exact nomatch hname.isBlank.symm.trans hblank
    | up => exact absurd rfl hname.ne_above
    | down =>
      cases hrest
      exact Or.inl rfl
    | through _ _ _ _ hentry => exact Or.inr ⟨_, hentry⟩

theorem length_le_of_enters_child (h : Enters fs (p.join ⟨name⟩) goal) :
    name.length ≤ longestName := by
  obtain ⟨links, hleads⟩ := h.leads
  rw [startOf, Path.isAbsolute_child hname, Path.localNames_child hname] at hleads
  obtain ⟨mid, place, -, hlast⟩ := hleads.split
  cases hlast with
  | move hmove hrest =>
    cases hmove with
    | stay _ hblank => exact nomatch hname.isBlank.symm.trans hblank
    | up => exact absurd rfl hname.ne_above
    | down _ _ _ hlength => exact hlength
    | through _ _ _ hlength => exact hlength

/-- The last name of a path is looked up in the directory that the others lead into. -/
theorem follow_child {links : Nat} (h : fs.get? place = some .directory)
    (hlength : name.length ≤ longestName)
    (hlink : followLast = true → ∀ path, fs.get? (place ++ [name]) ≠ some (.link path)) :
    fs.follow followLast links place [name] = .ok (place ++ [name]) := by
  cases hentry : fs.get? (place ++ [name]) with
  | none =>
    refine follow_of_ended ?_
    rw [stretch_absent h hname.isBlank hname.ne_above hlength hentry, if_pos rfl]
  | some entry =>
    by_cases hpath : ∃ path, entry = .link path
    · obtain ⟨path, rfl⟩ := hpath
      refine follow_of_ended ?_
      rw [stretch_link h hname.isBlank hname.ne_above hlength hentry,
        if_pos ⟨rfl, fun hfollow => hlink hfollow path hentry⟩]
    · have hmove : Move fs links place name links (place ++ [name]) [] :=
        .down h hname.isBlank hname.ne_above hlength hentry fun path heq => hpath ⟨path, heq⟩
      rw [follow_of_move hmove (Or.inl rfl)]
      exact follow_nil _ _

theorem follow_child_eq_ok {links : Nat}
    (h : fs.follow followLast links place [name] = .ok goal) :
    fs.get? place = some .directory ∧ name.length ≤ longestName ∧ (goal = place ++ [name] ∨
      followLast = true ∧ ∃ path, fs.get? (place ++ [name]) = some (.link path)) := by
  have hplace := directory_of_follow h
  have hlength := length_le_of_follow hplace hname.isBlank hname.ne_above h
  refine ⟨hplace, hlength, ?_⟩
  by_cases hlink : followLast = true ∧ ∃ path, fs.get? (place ++ [name]) = some (.link path)
  · exact Or.inr hlink
  · have hfollow : fs.follow followLast links place [name] = .ok (place ++ [name]) :=
      follow_child hname hplace hlength fun hfollow path heq => hlink ⟨hfollow, path, heq⟩
    exact Or.inl (Except.ok.inj (h.symm.trans hfollow))

/-- The directory that the last name of a path is looked up in. -/
theorem exists_enters_of_locate (h : fs.locate (p.join ⟨name⟩) followLast = .ok goal) :
    Fits (p.join ⟨name⟩) ∧ name.length ≤ longestName ∧ ∃ place, Enters fs p place ∧
      (goal = place ++ [name] ∨
        followLast = true ∧ ∃ path, fs.get? (place ++ [name]) = some (.link path)) := by
  obtain ⟨hfits, hfollow⟩ := locate_eq_ok_iff.mp h
  obtain ⟨front, hpieces, hfront⟩ := Path.pieces_child (p := p) hname
  rw [hpieces] at hfollow
  obtain ⟨mid, place, hleads, hlast⟩ := exists_leads_of_follow hfollow
  obtain ⟨hplace, hlength, hgoal⟩ := follow_child_eq_ok hname hlast
  refine ⟨hfits, hlength, place, ⟨hplace, mid, ?_⟩, hgoal⟩
  rwa [← hfront, leads_plain_iff hplace, startOf, ← Path.isAbsolute_child hname]

theorem Enters.locate_child (h : Enters fs p place) (hfits : Fits (p.join ⟨name⟩))
    (hlength : name.length ≤ longestName)
    (hlink : followLast = true → ∀ path, fs.get? (place ++ [name]) ≠ some (.link path)) :
    fs.locate (p.join ⟨name⟩) followLast = .ok (place ++ [name]) := by
  obtain ⟨links, hleads⟩ := h.leads
  obtain ⟨front, hpieces, hfront⟩ := Path.pieces_child (p := p) hname
  rw [← hfront, leads_plain_iff h.directory] at hleads
  refine locate_eq_ok_iff.mpr ⟨hfits, ?_⟩
  rw [hpieces, startOf, Path.isAbsolute_child hname, ← startOf, hleads.follow_append (by simp)]
  exact follow_child hname h.directory hlength hlink

/-- **Where a name stands that is not followed.** -/
theorem locate_child_iff : fs.locate (p.join ⟨name⟩) false = .ok goal ↔
    ∃ place, Names fs p name place ∧ goal = place ++ [name] := by
  constructor
  · intro h
    obtain ⟨hfits, hlength, place, hplace, hgoal | ⟨hfalse, -⟩⟩ := exists_enters_of_locate hname h
    · exact ⟨place, ⟨hfits, hlength, hplace⟩, hgoal⟩
    · cases hfalse
  · rintro ⟨place, ⟨hfits, hlength, hplace⟩, rfl⟩
    exact hplace.locate_child hname hfits hlength nofun

theorem find?_child_iff : fs.find? (p.join ⟨name⟩) false = .ok (goal, entry) ↔
    ∃ place, Names fs p name place ∧ goal = place ++ [name] ∧ fs.get? goal = some entry := by
  rw [find?_eq_ok_iff, locate_child_iff hname]
  constructor
  · rintro ⟨⟨place, hnames, hgoal⟩, hentry⟩
    exact ⟨place, hnames, hgoal, hentry⟩
  · rintro ⟨place, hnames, hgoal, hentry⟩
    exact ⟨⟨place, hnames, hgoal⟩, hentry⟩

end Child

/-! ## Names below a directory -/

theorem not_concat_isPrefix (names : List FileName) (name : FileName) :
    ¬ names ++ [name] <+: names := by
  intro h
  have hlength := h.length_le
  simp only [List.length_append, List.length_cons, List.length_nil] at hlength
  omega

/-- **The way along names is open**: each of them but the last is the name of a directory. -/
def Open (fs : FileSystem) (place : Location) (names : List FileName) : Prop :=
  ∀ front, front <+: names → front ≠ names → fs.get? (place ++ front) = some .directory

theorem Open.directory {front : List FileName} (h : Open fs place (names ++ [name]))
    (hstarts : front <+: names) : fs.get? (place ++ front) = some .directory := by
  refine h front (hstarts.trans (List.prefix_append _ _)) ?_
  rintro rfl
  exact not_concat_isPrefix _ _ hstarts

section Last

variable {d : Path} (habsolute : q.isAbsolute = d.isAbsolute)
  (hnames : q.localNames = d.localNames ++ [name]) (hname : Ordinary name) (hfits : Fits q)
include habsolute hnames hname hfits

/-- A path that ends in a name is found by it in the directory that the other names lead into. -/
theorem Enters.find?_of_endsInName (h : Enters fs d place) (hends : q.EndsInName)
    (hlength : name.length ≤ longestName) (hentry : fs.get? (place ++ [name]) = some entry) :
    fs.find? q false = .ok (place ++ [name], entry) := by
  obtain ⟨pieces, last, hpieces, ⟨-, rfl, hfront⟩ | ⟨hnot, -⟩⟩ :=
    Path.exists_pieces_of_localNames hnames hname
  · obtain ⟨links, hleads⟩ := h.leads
    rw [← hfront, leads_plain_iff h.directory] at hleads
    refine find?_eq_ok_iff.mpr ⟨locate_eq_ok_iff.mpr ⟨hfits, ?_⟩, hentry⟩
    rw [startOf, habsolute, ← startOf, hpieces, hleads.follow_append (by simp)]
    exact follow_child hname h.directory hlength nofun
  · exact absurd hends hnot

omit habsolute in
/-- A path that does not end in a name only names a directory, the one that it leads into. -/
theorem find?_of_not_endsInName (hends : ¬ q.EndsInName) :
    fs.find? q false = .ok (goal, entry) ↔ Enters fs q goal ∧ entry = .directory := by
  obtain ⟨pieces, last, hpieces, ⟨h, -⟩ | ⟨-, hblank, -⟩⟩ :=
    Path.exists_pieces_of_localNames hnames hname
  · exact absurd h hends
  rw [find?_eq_ok_iff, locate_eq_ok_iff, hpieces]
  constructor
  · rintro ⟨⟨-, hfollow⟩, hentry⟩
    obtain ⟨mid, next, hleads, hlast⟩ := exists_leads_of_follow hfollow
    have hnext := directory_of_follow hlast
    rw [follow_of_move (.stay hnext hblank) (Or.inl rfl), List.nil_append, follow_nil] at hlast
    cases hlast
    have hway := hleads.append (.move (.stay hnext hblank) .done)
    rw [← hpieces] at hway
    exact ⟨enters_of_leads_pieces hnext hway, Option.some.inj (hentry.symm.trans hnext)⟩
  · rintro ⟨h, rfl⟩
    obtain ⟨links, hleads⟩ := h.exists_leads_pieces
    rw [hpieces] at hleads
    obtain ⟨mid, next, hfront, hlast⟩ := hleads.split
    have hnext := hlast.directory h.directory
    obtain ⟨-, rfl⟩ := hlast.unique (.move (.stay hnext hblank) .done)
    refine ⟨⟨hfits, ?_⟩, hnext⟩
    rw [hfront.follow_append (by simp), follow_of_move (.stay hnext hblank) (Or.inl rfl)]
    exact follow_nil _ _

/-- **When a path names what stands at its last name**, in the directory that the other names lead
into: if it ends in that name, or if a directory stands there. -/
theorem Enters.exists_find?_iff (h : Enters fs d place) (hlength : name.length ≤ longestName)
    (hthere : fs.get? (place ++ [name]) ≠ none) :
    (∃ entry, fs.find? q false = .ok (place ++ [name], entry)) ↔
      q.EndsInName ∨ fs.get? (place ++ [name]) = some .directory := by
  obtain ⟨entry, hentry⟩ := Option.ne_none_iff_exists'.mp hthere
  by_cases hends : q.EndsInName
  · exact iff_of_true
      ⟨entry, h.find?_of_endsInName habsolute hnames hname hfits hends hlength hentry⟩
      (Or.inl hends)
  · rw [or_iff_right hends]
    constructor
    · rintro ⟨entry', hfound⟩
      obtain ⟨hq, -⟩ := (find?_of_not_endsInName hnames hname hfits hends).mp hfound
      exact hq.directory
    · intro hdirectory
      have hchild := h.child hname hlength hdirectory
      refine ⟨.directory, (find?_of_not_endsInName hnames hname hfits hends).mpr ⟨?_, rfl⟩⟩
      refine (enters_congr ?_ ?_).mp hchild
      · rw [Path.isAbsolute_child hname, habsolute]
      · rw [Path.localNames_child hname, hnames]

end Last

/-! ## Directories that stay where they are -/

/-- **Two file systems differ at most in a zone.** -/
structure SameExcept (zone : Location → Prop) (fs fs' : FileSystem) : Prop where
  working : fs'.working = fs.working
  get? : ∀ x, ¬ zone x → fs'.get? x = fs.get? x

namespace SameExcept

variable {zone zone' : Location → Prop} {fs'' : FileSystem}

theorem refl (zone : Location → Prop) (fs : FileSystem) : SameExcept zone fs fs :=
  ⟨rfl, fun _ _ => rfl⟩

theorem trans (h : SameExcept zone fs fs') (h' : SameExcept zone fs' fs'') :
    SameExcept zone fs fs'' :=
  ⟨h'.working.trans h.working, fun x hx => (h'.get? x hx).trans (h.get? x hx)⟩

theorem mono (h : SameExcept zone fs fs') (hzone : ∀ x, zone x → zone' x) :
    SameExcept zone' fs fs' :=
  ⟨h.working, fun x hx => h.get? x fun hx' => hx (hzone x hx')⟩

end SameExcept

/-- A place lies below another one. -/
def Below (place x : Location) : Prop :=
  ∃ name rest, x = place ++ name :: rest

theorem Below.of_append {rest x : Location} (h : Below (place ++ rest) x) : Below place x := by
  obtain ⟨name, more, rfl⟩ := h
  cases rest with
  | nil => exact ⟨name, more, by simp⟩
  | cons first rest => exact ⟨first, rest ++ name :: more, by simp⟩

theorem Below.isPrefix {x : Location} (h : Below place x) : place <+: x := by
  obtain ⟨name, rest, rfl⟩ := h
  exact List.prefix_append _ _

theorem below_of_isPrefix {x : Location} (h : place <+: x) (hne : x ≠ place) : Below place x := by
  obtain ⟨rest, rfl⟩ := h
  obtain ⟨first, rest, rfl⟩ := List.exists_cons_of_ne_nil
    (show rest ≠ [] from fun hnil => hne (by rw [hnil, List.append_nil]))
  exact ⟨first, rest, rfl⟩

theorem not_below_self (place : Location) : ¬ Below place place := by
  rintro ⟨name, rest, h⟩
  have := congrArg List.length h
  simp at this

theorem below_of_isPrefix_child {x : Location} (h : place ++ [name] <+: x) : Below place x := by
  obtain ⟨rest, rfl⟩ := h
  exact ⟨name, rest, by simp⟩

/-- **A path leads into a directory, whatever stands below it.** -/
def Anchored (fs : FileSystem) (p : Path) (place : Location) : Prop :=
  ∀ fs', SameExcept (Below place) fs fs' → Enters fs' p place

theorem Anchored.enters (h : Anchored fs p place) : Enters fs p place :=
  h fs (.refl _ fs)

theorem Anchored.of_sameExcept (h : Anchored fs p place) (hfs : SameExcept (Below place) fs fs') :
    Anchored fs' p place :=
  fun _ hfs' => h _ (hfs.trans hfs')

/-- A path into an empty directory does not come from below it. -/
theorem Enters.anchored (h : Enters fs p place) (hempty : ∀ x, Below place x → fs.get? x = none) :
    Anchored fs p place := by
  intro fs' hfs
  refine h.mono hfs.working fun x e hx => ?_
  rw [hfs.get? x (fun hbelow => nomatch (hempty x hbelow).symm.trans hx), hx]

theorem Anchored.child (h : Anchored fs p place) (hname : Ordinary name)
    (hlength : name.length ≤ longestName)
    (hentry : fs.get? (place ++ [name]) = some .directory) :
    Anchored fs (p.join ⟨name⟩) (place ++ [name]) := by
  intro fs' hfs
  refine (h fs' (hfs.mono fun _ => Below.of_append)).child hname hlength ?_
  rw [hfs.get? _ (not_below_self _), hentry]

end Provision.FileSystem
