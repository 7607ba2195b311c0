import Mathlib.Data.List.DropRight
import Mathlib.Data.List.Flatten
import Provision.Archive.Extract
import Provision.Proofs.Bytes

/-!
# What paths are made of

A path is joined byte by byte and read name by name.  Joined with an ordinary name it has the
names of before and that name at its end (`names_child`, `localNames_child`), and the
directories that it lies in are those of its plainest form (`ancestors_child`), which is
written with its names alone (`normal`).
-/
namespace Provision.Path

variable {name : FileName} {p q : Path}

/-- **A name that stands for an entry of its directory.** -/
structure Ordinary (name : FileName) : Prop where
  ne_nil : name ≠ []
  ne_here : name ≠ here
  ne_above : name ≠ above
  slash_notMem : slash ∉ name

/-- Whether a name stands for the directory it is in. -/
def isBlank (name : FileName) : Bool :=
  name = [] ∨ name = here

/-- Names without those that stand for the directory they are in. -/
def plain (names : List FileName) : List FileName :=
  names.filter fun name => !isBlank name

theorem Ordinary.isBlank (h : Ordinary name) : isBlank name = false := by
  simp [Path.isBlank, h.ne_nil, h.ne_here]

theorem plain_append (front rest : List FileName) :
    plain (front ++ rest) = plain front ++ plain rest :=
  List.filter_append ..

theorem plain_plain (names : List FileName) : plain (plain names) = plain names := by
  simp [plain]

theorem plain_of_forall_ordinary {names : List FileName} (h : ∀ name ∈ names, Ordinary name) :
    plain names = names :=
  List.filter_eq_self.mpr fun name hname => by simp [(h name hname).isBlank]

theorem names_eq (p : Path) :
    p.names = if p.pieces.head? = some here then here :: plain p.pieces else plain p.pieces := by
  have hplain : (p.pieces.filter fun name => name ≠ [] ∧ name ≠ here) = plain p.pieces := by
    refine List.filter_congr fun name _ => ?_
    by_cases hnil : name = [] <;> by_cases hhere : name = here <;> simp [isBlank, hnil, hhere]
  rw [names, hplain]

theorem localNames_eq (p : Path) : p.localNames = plain p.pieces := by
  have hnames (names : List FileName) : (plain names).filter (· ≠ here) = plain names := by
    refine List.filter_eq_self.mpr fun name hname => ?_
    have := (List.mem_filter.mp hname).2
    simp only [isBlank] at this
    simp_all
  rw [localNames, names_eq]
  split
  · rw [List.filter_cons_of_neg (by simp), hnames]
  · exact hnames p.pieces

/-! ## Joining -/

/-- The names before what is joined are those of the path. -/
theorem pieces_join (hq : q.isAbsolute = false) : ∃ front, (p.join q).pieces = front ++ q.pieces ∧
    plain front = p.localNames ∧ (front.head? = p.pieces.head? ∨ front = [] ∧ p.pieces = [[]]) := by
  rw [join, if_neg (by simp [hq]), localNames_eq]
  by_cases hnil : p.bytes = []
  · refine ⟨[], ?_, ?_, Or.inr ⟨rfl, ?_⟩⟩
    · rw [if_pos (Or.inl hnil), hnil]
      rfl
    · rw [pieces, hnil]
      rfl
    · rw [pieces, hnil]
      rfl
  · by_cases hlast : p.bytes.getLast? = some slash
    · obtain ⟨front, hfront⟩ := List.getLast?_eq_some_iff.mp hlast
      have hpieces : p.pieces = front.splitOn slash ++ [[]] := by
        rw [pieces, hfront]
        exact List.splitOn_append_cons_self front []
      refine ⟨front.splitOn slash, ?_, ?_, Or.inl ?_⟩
      · rw [if_pos (Or.inr hlast), pieces, hfront, List.append_assoc]
        exact List.splitOn_append_cons_self front q.bytes
      · rw [hpieces, plain_append]
        simp [plain, isBlank]
      · rw [hpieces, List.head?_append_of_ne_nil _ (List.splitOn_ne_nil _ _)]
    · refine ⟨p.pieces, ?_, rfl, Or.inl rfl⟩
      rw [if_neg (not_or.mpr ⟨hnil, hlast⟩)]
      exact List.splitOn_append_cons_self p.bytes q.bytes

theorem localNames_join (hq : q.isAbsolute = false) :
    (p.join q).localNames = p.localNames ++ q.localNames := by
  obtain ⟨front, hpieces, hfront, -⟩ := pieces_join (p := p) hq
  rw [localNames_eq, hpieces, plain_append, hfront, ← localNames_eq]

/-- **The path ends in a name**, and not in a slash or in the name that a directory has within
itself. -/
def EndsInName (p : Path) : Prop :=
  ∃ name, p.pieces.getLast? = some name ∧ Ordinary name

theorem endsInName_join_iff (hq : q.isAbsolute = false) :
    (p.join q).EndsInName ↔ q.EndsInName := by
  obtain ⟨front, hpieces, -⟩ := pieces_join (p := p) hq
  have hne : q.pieces ≠ [] := List.splitOn_ne_nil _ _
  rw [EndsInName, hpieces, List.getLast?_append_of_ne_nil _ hne, EndsInName]

/-- The pieces of a path whose last name is known: the last piece is that name, or it is blank. -/
theorem exists_pieces_of_localNames {front : List FileName}
    (hnames : q.localNames = front ++ [name]) (hname : Ordinary name) :
    ∃ pieces last, q.pieces = pieces ++ [last] ∧
      (q.EndsInName ∧ last = name ∧ plain pieces = front ∨
        ¬ q.EndsInName ∧ isBlank last = true ∧ plain pieces = front ++ [name]) := by
  rcases List.eq_nil_or_concat q.pieces with hnil | ⟨pieces, last, hpieces⟩
  · exact absurd hnil (List.splitOn_ne_nil _ _)
  rw [List.concat_eq_append] at hpieces
  have hends : q.EndsInName ↔ Ordinary last := by
    rw [EndsInName, hpieces, List.getLast?_concat]
    simp
  rw [localNames_eq, hpieces, plain_append] at hnames
  refine ⟨pieces, last, hpieces, ?_⟩
  cases hblank : isBlank last with
  | true =>
    have hplain : plain [last] = [] := by simp [plain, hblank]
    rw [hplain, List.append_nil] at hnames
    refine Or.inr ⟨fun h => ?_, rfl, hnames⟩
    exact nomatch (hends.mp h).isBlank.symm.trans hblank
  | false =>
    have hplain : plain [last] = [last] := by simp [plain, hblank]
    rw [hplain] at hnames
    obtain ⟨hfront, hlast⟩ := List.append_inj' hnames rfl
    obtain rfl : last = name := List.singleton_inj.mp hlast
    exact Or.inl ⟨hends.mpr hname, rfl, hfront⟩

theorem isAbsolute_join (hq : q.isAbsolute = false) : (p.join q).isAbsolute = p.isAbsolute := by
  rw [join, if_neg (by simp [hq])]
  cases hp : p.bytes with
  | nil => simpa [isAbsolute, hp] using hq
  | cons b bytes =>
    split <;> simp [isAbsolute, hp]

/-- A path that does not end in a slash has none to lose. -/
theorem trimmed_of_getLast? (h : p.bytes.getLast? ≠ some slash) : p.trimmed = p := by
  have hkept : (p.bytes.reverse.dropWhile (· == slash)).reverse = p.bytes := by
    rw [← List.head?_reverse] at h
    cases hreverse : p.bytes.reverse with
    | nil => rw [List.dropWhile_nil, ← hreverse, List.reverse_reverse]
    | cons b bytes =>
      rw [hreverse, List.head?_cons] at h
      rw [List.dropWhile_cons_of_neg (by simpa using h), ← hreverse, List.reverse_reverse]
  rw [trimmed, hkept]
  split <;> rfl

/-- Slashes at the end of a path name nothing. -/
theorem plain_splitOn_rdropWhile (bytes : Bytes) :
    plain ((bytes.rdropWhile (· == slash)).splitOn slash) = plain (bytes.splitOn slash) := by
  induction bytes using List.reverseRecOn with
  | nil => rfl
  | append_singleton bytes b ih =>
    by_cases hb : b = slash
    · subst hb
      rw [List.rdropWhile_concat_pos _ _ _ (by simp), ih,
        List.splitOn_append_cons_self bytes [], plain_append]
      simp [plain, isBlank]
    · rw [List.rdropWhile_concat_neg _ _ _ (by simpa using hb)]

theorem trimmed_eq_or (p : Path) : p.trimmed = p ∨
    p.bytes.rdropWhile (· == slash) ≠ [] ∧
      p.trimmed = ⟨p.bytes.rdropWhile (· == slash)⟩ := by
  rw [trimmed]
  split
  · exact Or.inl rfl
  · exact Or.inr ⟨‹_›, rfl⟩

theorem localNames_trimmed (p : Path) : p.trimmed.localNames = p.localNames := by
  rcases trimmed_eq_or p with heq | ⟨-, heq⟩
  · rw [heq]
  · rw [heq, localNames_eq, localNames_eq]
    exact plain_splitOn_rdropWhile p.bytes

theorem isAbsolute_trimmed (p : Path) : p.trimmed.isAbsolute = p.isAbsolute := by
  rcases trimmed_eq_or p with heq | ⟨hne, heq⟩
  · rw [heq]
  · obtain ⟨rest, hrest⟩ := List.rdropWhile_prefix (· == slash) p.bytes
    rw [heq, isAbsolute, isAbsolute, ← List.head?_append_of_ne_nil _ hne, hrest]

theorem bytes_trimmed_ne_nil (hp : p.bytes ≠ []) : p.trimmed.bytes ≠ [] := by
  rcases trimmed_eq_or p with heq | ⟨hne, heq⟩
  · rwa [heq]
  · rwa [heq]

section Child

variable (h : Ordinary name)
include h

theorem pieces_ofName : (⟨name⟩ : Path).pieces = [name] :=
  List.splitOn_eq_singleton h.slash_notMem

theorem isAbsolute_ofName : (⟨name⟩ : Path).isAbsolute = false := by
  cases hname : name with
  | nil => rfl
  | cons b bytes =>
    have hb : b ≠ slash := fun hb => h.slash_notMem (by simp [hname, hb])
    simpa [isAbsolute] using hb

theorem isAbsolute_child : (p.join ⟨name⟩).isAbsolute = p.isAbsolute :=
  isAbsolute_join (isAbsolute_ofName h)

theorem pieces_child : ∃ front, (p.join ⟨name⟩).pieces = front ++ [name] ∧
    plain front = p.localNames := by
  obtain ⟨front, hpieces, hfront, -⟩ := pieces_join (p := p) (isAbsolute_ofName h)
  exact ⟨front, pieces_ofName h ▸ hpieces, hfront⟩

theorem localNames_child : (p.join ⟨name⟩).localNames = p.localNames ++ [name] := by
  obtain ⟨front, hpieces, hfront⟩ := pieces_child (p := p) h
  rw [localNames_eq, hpieces, plain_append, hfront, plain_of_forall_ordinary (by simpa using h)]

theorem names_child : (p.join ⟨name⟩).names = p.names ++ [name] := by
  obtain ⟨front, hpieces, hfront, hhead⟩ := pieces_join (p := p) (isAbsolute_ofName h)
  have hplain : plain [name] = [name] := plain_of_forall_ordinary (by simpa using h)
  rw [names_eq, names_eq, hpieces, pieces_ofName h, plain_append, hfront, hplain, localNames_eq]
  rcases hhead with hhead | ⟨rfl, hp⟩
  · have hne : front ≠ [] := fun hnil => by
      have hp : p.pieces = [] := List.head?_eq_none_iff.mp (by rw [← hhead, hnil]; rfl)
      exact List.splitOn_ne_nil _ _ hp
    rw [List.head?_append_of_ne_nil _ hne, hhead]
    split <;> rfl
  · have hhere : ¬ some name = some here := fun hsome => h.ne_here (Option.some.inj hsome)
    have hhere' : ¬ some ([] : FileName) = some here := by decide
    rw [hp, List.nil_append, List.head?_cons, List.head?_cons, if_neg hhere, if_neg hhere']

theorem exists_bytes_child : ∃ start, (p.join ⟨name⟩).bytes = start ++ name := by
  rw [join, if_neg (by simp [isAbsolute_ofName h])]
  split
  · exact ⟨p.bytes, rfl⟩
  · exact ⟨p.bytes ++ [slash], by simp⟩

theorem bytes_child_ne_nil : (p.join ⟨name⟩).bytes ≠ [] := by
  obtain ⟨start, hstart⟩ := exists_bytes_child (p := p) h
  simp [hstart, h.ne_nil]

/-- A path that ends in a name does not end in a slash. -/
theorem getLast?_child : (p.join ⟨name⟩).bytes.getLast? ≠ some slash := by
  obtain ⟨start, hstart⟩ := exists_bytes_child (p := p) h
  rw [hstart, List.getLast?_append_of_ne_nil _ h.ne_nil]
  exact fun hsome => h.slash_notMem (List.mem_of_getLast? hsome)

theorem endsInSlash_child : (p.join ⟨name⟩).endsInSlash = false := by
  simp [endsInSlash, getLast?_child h]

theorem trimmed_child : (p.join ⟨name⟩).trimmed = p.join ⟨name⟩ :=
  trimmed_of_getLast? (getLast?_child h)

end Child

/-! ## Writing a path in its plainest form -/

/-- The path that is written with its names alone. -/
def normal (p : Path) : Path :=
  ofNames p.isAbsolute p.names

/-- A name that can stand between slashes. -/
def Proper (name : FileName) : Prop :=
  name ≠ [] ∧ slash ∉ name

theorem slash_notMem_of_mem_pieces (hname : name ∈ p.pieces) : slash ∉ name := by
  obtain ⟨bytes⟩ := p
  replace hname : name ∈ bytes.splitOn slash := hname
  induction bytes generalizing name with
  | nil =>
    rw [List.splitOn_nil, List.mem_singleton] at hname
    simp [hname]
  | cons b bytes ih =>
    rw [List.splitOn_cons_eq_if_modifyHead] at hname
    split at hname
    · rcases List.mem_cons.mp hname with rfl | hname
      · simp
      · exact ih hname
    · rename_i hb
      obtain ⟨first, rest, hsplit⟩ := List.exists_cons_of_ne_nil (List.splitOn_ne_nil slash bytes)
      rw [hsplit, List.modifyHead_cons] at hname
      rcases List.mem_cons.mp hname with rfl | hname
      · rw [List.mem_cons, not_or]
        exact ⟨fun heq => hb (by simp [heq]), ih (by rw [hsplit]; exact List.mem_cons_self)⟩
      · exact ih (by rw [hsplit]; exact List.mem_cons_of_mem _ hname)

theorem mem_pieces_of_mem_names (hname : name ∈ p.names) : name ∈ p.pieces ∧ name ≠ [] := by
  have hmem {name : FileName} (h : name ∈ plain p.pieces) : name ∈ p.pieces ∧ name ≠ [] := by
    obtain ⟨hmem, hblank⟩ := List.mem_filter.mp h
    exact ⟨hmem, fun hnil => by simp [isBlank, hnil] at hblank⟩
  rw [names_eq] at hname
  split at hname
  · rename_i hhead
    rcases List.mem_cons.mp hname with rfl | hname
    · exact ⟨List.mem_of_mem_head? hhead, by decide⟩
    · exact hmem hname
  · exact hmem hname

theorem proper_of_mem_names (hname : name ∈ p.names) : Proper name :=
  ⟨(mem_pieces_of_mem_names hname).2, slash_notMem_of_mem_pieces (mem_pieces_of_mem_names hname).1⟩

theorem intercalate_concat {names : List FileName} (hne : names ≠ []) (name : FileName) :
    [slash].intercalate (names ++ [name]) = [slash].intercalate names ++ slash :: name := by
  induction names with
  | nil => contradiction
  | cons first rest ih =>
    rw [List.cons_append, List.intercalate_cons_of_ne_nil (by simp)]
    cases rest with
    | nil => simp
    | cons second rest =>
      rw [ih (List.cons_ne_nil _ _), List.intercalate_cons_cons, List.append_assoc,
        List.append_assoc, List.append_assoc]

theorem pieces_ofNames {absolute : Bool} {names : List FileName} (hne : names ≠ [])
    (h : ∀ name ∈ names, Proper name) :
    (ofNames absolute names).pieces = (if absolute then [[]] else []) ++ names := by
  have hsplit : ([slash].intercalate names).splitOn slash = names :=
    List.splitOn_intercalate slash (fun name hname => (h name hname).2) hne
  cases absolute with
  | false => exact hsplit
  | true =>
    have happend := List.splitOn_append_cons_self (a := slash) [] ([slash].intercalate names)
    rw [hsplit] at happend
    exact happend

theorem pieces_ofNames_nil (absolute : Bool) :
    (ofNames absolute []).pieces = (if absolute then [[]] else []) ++ [[]] := by
  cases absolute <;> rfl

theorem isAbsolute_ofNames {absolute : Bool} {names : List FileName}
    (h : ∀ name ∈ names, Proper name) : (ofNames absolute names).isAbsolute = absolute := by
  cases absolute with
  | true => rfl
  | false =>
    cases names with
    | nil => rfl
    | cons first rest =>
      obtain ⟨hne, hslash⟩ := h first List.mem_cons_self
      obtain ⟨b, bytes, rfl⟩ := List.exists_cons_of_ne_nil hne
      have hb : b ≠ slash := fun hb => hslash (by simp [hb])
      cases rest <;> simpa [ofNames, isAbsolute] using hb

theorem isAbsolute_normal (p : Path) : p.normal.isAbsolute = p.isAbsolute :=
  isAbsolute_ofNames fun _ => proper_of_mem_names

/-- An absolute path starts with nothing. -/
theorem head?_pieces_of_isAbsolute (hp : p.isAbsolute = true) : p.pieces.head? = some [] := by
  rw [isAbsolute, decide_eq_true_eq] at hp
  cases hbytes : p.bytes with
  | nil => simp [hbytes] at hp
  | cons b bytes =>
    rw [hbytes, List.head?_cons, Option.some.injEq] at hp
    rw [pieces, hbytes, hp, List.splitOn_cons_eq_if_modifyHead]
    simp

theorem names_eq_of_isAbsolute (hp : p.isAbsolute = true) : p.names = plain p.pieces := by
  rw [names_eq, head?_pieces_of_isAbsolute hp, if_neg (by decide)]

theorem plain_names (p : Path) : plain p.names = p.localNames := by
  rw [names_eq, localNames_eq]
  split
  · have hhere : plain (here :: plain p.pieces) = plain (plain p.pieces) := rfl
    rw [hhere, plain_plain]
  · exact plain_plain _

theorem names_normal (p : Path) : p.normal.names = p.names := by
  have hproper : ∀ name ∈ p.names, Proper name := fun _ => proper_of_mem_names
  rw [names_eq p.normal, normal]
  by_cases hnil : p.names = []
  · rw [hnil, pieces_ofNames_nil]
    cases p.isAbsolute <;> rfl
  · rw [pieces_ofNames hnil hproper]
    cases habsolute : p.isAbsolute with
    | true =>
      have hplain : plain ([[]] ++ p.names) = plain p.names := rfl
      have hhead : ([[]] ++ p.names).head? ≠ some here := by simp [here]
      rw [if_pos rfl, if_neg hhead, hplain, names_eq_of_isAbsolute habsolute, plain_plain]
    | false =>
      have hnothing : (if false = true then [[]] else []) ++ p.names = p.names := rfl
      rw [hnothing, plain_names, localNames_eq, names_eq p]
      by_cases hhead : p.pieces.head? = some here
      · rw [if_pos hhead, List.head?_cons, if_pos rfl]
      · rw [if_neg hhead, if_neg]
        intro hplain
        have hmem := (List.mem_filter.mp (List.mem_of_mem_head? hplain)).2
        exact absurd hmem (by decide)

theorem localNames_normal (p : Path) : p.normal.localNames = p.localNames := by
  rw [← plain_names, ← plain_names, names_normal]

theorem exists_intercalate_concat (names : List FileName) (name : FileName) :
    ∃ start, [slash].intercalate (names ++ [name]) = start ++ name := by
  by_cases hne : names = []
  · exact ⟨[], by simp [hne]⟩
  · exact ⟨[slash].intercalate names ++ [slash], by simp [intercalate_concat hne]⟩

theorem bytes_ofNames_concat (absolute : Bool) (front : List FileName) {last : FileName}
    (h : Proper last) : (ofNames absolute (front ++ [last])).bytes ≠ [] ∧
      (ofNames absolute (front ++ [last])).bytes.getLast? ≠ some slash := by
  obtain ⟨start, hstart⟩ := exists_intercalate_concat front last
  have hbytes : (ofNames absolute (front ++ [last])).bytes =
      (if absolute then [slash] else []) ++ start ++ last := by
    rw [ofNames, hstart, List.append_assoc]
  rw [hbytes, List.getLast?_append_of_ne_nil _ h.1]
  exact ⟨by simp [h.1], fun hsome => h.2 (List.mem_of_getLast? hsome)⟩

theorem ofNames_concat {absolute : Bool} {names : List FileName}
    (h : ∀ name ∈ names, Proper name) (hname : Ordinary name) :
    ofNames absolute (names ++ [name]) = (ofNames absolute names).join ⟨name⟩ := by
  rw [join, if_neg (by simp [isAbsolute_ofName hname])]
  rcases List.eq_nil_or_concat names with rfl | ⟨front, last, rfl⟩
  · cases absolute <;> simp [ofNames]
  · rw [List.concat_eq_append] at h ⊢
    rw [if_neg (not_or.mpr (bytes_ofNames_concat absolute front (h last (by simp)))), ofNames,
      intercalate_concat (by simp), ofNames, List.append_assoc]

theorem trimmed_normal (p : Path) : p.normal.trimmed = p.normal := by
  rcases List.eq_nil_or_concat p.names with hnil | ⟨front, last, hnames⟩
  · rw [normal, hnil]
    cases p.isAbsolute <;> rfl
  · rw [List.concat_eq_append] at hnames
    have hlast : Proper last := proper_of_mem_names (p := p) (by simp [hnames])
    rw [normal, hnames]
    exact trimmed_of_getLast? (bytes_ofNames_concat _ front hlast).2

/-- What is joined stays at the end. -/
theorem normal_child (hname : Ordinary name) : (p.join ⟨name⟩).normal = p.normal.join ⟨name⟩ := by
  rw [normal, isAbsolute_child hname, names_child hname,
    ofNames_concat (fun _ => proper_of_mem_names) hname, normal]

theorem ancestors_child (hname : Ordinary name) :
    (p.join ⟨name⟩).ancestors = p.join ⟨name⟩ :: p.normal.ancestors := by
  rw [ancestors, ancestors, isAbsolute_child hname, names_child hname, List.reverse_append,
    List.reverse_singleton, List.singleton_append, directoriesAbove, List.reverse_reverse,
    isAbsolute_normal, names_normal, normal]

/-! ## Paths that are looked at -/

/-- A path that a file system looks at: it is there, not too long, and has no zeros. -/
structure Fits (p : Path) : Prop where
  nul : 0 ∉ p.bytes
  ne_nil : p.bytes ≠ []
  length : p.bytes.length ≤ FileSystem.longestPath

theorem length_intercalate {names : List FileName} (hne : names ≠ []) :
    ([slash].intercalate names).length + 1 = names.flatten.length + names.length := by
  induction names with
  | nil => contradiction
  | cons first rest ih =>
    cases rest with
    | nil => simp
    | cons second rest =>
      have hrest := ih (List.cons_ne_nil _ _)
      rw [List.intercalate_cons_cons, List.flatten_cons]
      simp only [List.length_append, List.length_cons, List.length_nil] at hrest ⊢
      omega

theorem mem_intercalate {names : List FileName} {b : UInt8} (hb : b ∈ [slash].intercalate names) :
    b = slash ∨ ∃ name ∈ names, b ∈ name := by
  induction names with
  | nil => cases hb
  | cons first rest ih =>
    cases rest with
    | nil => exact Or.inr ⟨first, List.mem_cons_self, by simpa using hb⟩
    | cons second rest =>
      rw [List.intercalate_cons_cons, List.mem_append, List.mem_append] at hb
      rcases hb with (hb | hb) | hb
      · exact Or.inr ⟨first, List.mem_cons_self, hb⟩
      · exact Or.inl (List.mem_singleton.mp hb)
      · refine (ih hb).imp_right ?_
        rintro ⟨name, hname, hb⟩
        exact ⟨name, List.mem_cons_of_mem _ hname, hb⟩

theorem bytes_eq (p : Path) : p.bytes = [slash].intercalate p.pieces :=
  (List.intercalate_splitOn slash).symm

theorem names_sublist (p : Path) : p.names.Sublist p.pieces := by
  rw [names_eq]
  split
  · rename_i hhead
    obtain ⟨rest, hrest⟩ := List.head?_eq_some_iff.mp hhead
    have hplain : plain (here :: rest) = plain rest := rfl
    rw [hrest, hplain]
    exact List.filter_sublist.cons_cons here
  · exact List.filter_sublist

/-- The plainest form is not longer. -/
theorem length_normal_le (p : Path) : p.normal.bytes.length ≤ p.bytes.length := by
  have hpieces : p.pieces ≠ [] := List.splitOn_ne_nil _ _
  have hlength : p.bytes.length + 1 = p.pieces.flatten.length + p.pieces.length := by
    rw [bytes_eq, length_intercalate hpieces]
  by_cases hnames : p.names = []
  · rw [normal, hnames, ofNames]
    cases habsolute : p.isAbsolute with
    | false => simp
    | true =>
      cases hbytes : p.bytes with
      | nil => simp [isAbsolute, hbytes] at habsolute
      | cons b bytes => simp
  · have hnormal := length_intercalate hnames
    rw [normal, ofNames]
    cases habsolute : p.isAbsolute with
    | false =>
      have hflatten := p.names_sublist.flatten.length_le
      have hcount := p.names_sublist.length_le
      simp only [Bool.false_eq_true, if_false, List.nil_append]
      omega
    | true =>
      -- What stands before the first slash is not among the names.
      obtain ⟨rest, hrest⟩ := List.head?_eq_some_iff.mp (head?_pieces_of_isAbsolute habsolute)
      have hsublist : p.names.Sublist rest := by
        have hplain : plain ([] :: rest) = plain rest := rfl
        rw [names_eq_of_isAbsolute habsolute, hrest, hplain]
        exact List.filter_sublist
      have hflatten := hsublist.flatten.length_le
      have hcount := hsublist.length_le
      rw [hrest, List.flatten_cons] at hlength
      simp only [if_true, List.length_append, List.length_cons, List.length_nil] at *
      omega

theorem mem_intercalate_of_mem {names : List FileName} {b : UInt8} (hname : name ∈ names)
    (hb : b ∈ name) : b ∈ [slash].intercalate names := by
  induction names with
  | nil => cases hname
  | cons first rest ih =>
    cases rest with
    | nil =>
      obtain rfl := List.mem_singleton.mp hname
      simpa using hb
    | cons second rest =>
      rw [List.intercalate_cons_cons, List.mem_append, List.mem_append]
      rcases List.mem_cons.mp hname with rfl | hname
      · exact Or.inl (Or.inl hb)
      · exact Or.inr (ih hname)

theorem mem_of_mem_normal {b : UInt8} (hb : b ∈ p.normal.bytes) : b = slash ∨ b ∈ p.bytes := by
  rw [normal, ofNames, List.mem_append] at hb
  rcases hb with hb | hb
  · cases habsolute : p.isAbsolute <;> simp_all
  · refine (mem_intercalate hb).imp_right ?_
    rintro ⟨name, hname, hb⟩
    rw [bytes_eq]
    exact mem_intercalate_of_mem (mem_pieces_of_mem_names hname).1 hb

theorem prefix_join (hq : q.isAbsolute = false) : p.bytes <+: (p.join q).bytes := by
  rw [join, if_neg (by simp [hq])]
  split
  · exact List.prefix_append ..
  · exact List.prefix_append ..

/-- With a path, the directory that it lies in is looked at. -/
theorem bytes_normal_of_nil (h : p.bytes = []) : p.normal.bytes = [] := by
  have hlength := p.length_normal_le
  rw [h] at hlength
  exact List.eq_nil_of_length_eq_zero (Nat.le_zero.mp hlength)

theorem Fits.normal (h : Fits p) (hne : p.normal.bytes ≠ []) : Fits p.normal := by
  refine ⟨fun hmem => ?_, hne, Nat.le_trans p.length_normal_le h.length⟩
  rcases mem_of_mem_normal hmem with hslash | hmem
  · exact absurd hslash (by decide)
  · exact h.nul hmem

theorem Fits.of_child (h : Fits (p.join ⟨name⟩)) (hname : Ordinary name) (hne : p.bytes ≠ []) :
    Fits p := by
  have hstarts := prefix_join (p := p) (isAbsolute_ofName hname)
  exact ⟨fun hmem => h.nul (hstarts.subset hmem), hne, Nat.le_trans hstarts.length_le h.length⟩

theorem Fits.normal_of_child (h : Fits (p.join ⟨name⟩)) (hname : Ordinary name)
    (hne : p.normal.bytes ≠ []) : Fits p.normal :=
  (h.of_child hname fun hnil => hne (bytes_normal_of_nil hnil)).normal hne

/-! ## Cutting a path before its last name -/

theorem suffix_join (p q : Path) : q.bytes <:+ (p.join q).bytes := by
  rw [join]
  split
  · exact List.suffix_rfl
  · split
    · exact List.suffix_append ..
    · exact (List.suffix_cons _ _).trans (List.suffix_append ..)

/-- What stands after the last slash. -/
theorem exists_last (bytes : Bytes) : ∃ front last, bytes = front ++ last ∧ slash ∉ last ∧
    (front = [] ∨ front.getLast? = some slash) := by
  induction bytes using List.reverseRecOn with
  | nil => exact ⟨[], [], rfl, List.not_mem_nil, Or.inl rfl⟩
  | append_singleton bytes b ih =>
    by_cases hb : b = slash
    · exact ⟨bytes ++ [b], [], by simp, List.not_mem_nil, Or.inr (by simp [hb])⟩
    · obtain ⟨front, last, rfl, hlast, hfront⟩ := ih
      exact ⟨front, last ++ [b], by simp, by simp [hlast, Ne.symm hb], hfront⟩

/-- **A path that ends like a name ends in one**, in some directory: whatever slashes stand before
the ending, it belongs to the last name. -/
theorem exists_child_of_suffix {ending : Bytes} (hending : ending <:+ p.bytes)
    (hslash : slash ∉ ending) {b : UInt8} (hb : b ∈ ending) (hdot : b ≠ 0x2E) :
    ∃ (front : Path) (name : FileName), p = front.join ⟨name⟩ ∧ Ordinary name ∧
      ending <:+ name := by
  obtain ⟨front, name, hbytes, hname, hfront⟩ := exists_last p.bytes
  have hsuffix : ending <:+ name := by
    rcases List.suffix_or_suffix_of_suffix hending (hbytes ▸ List.suffix_append front name) with
      h | ⟨more, rfl⟩
    · exact h
    -- Otherwise the ending would reach over the last slash.
    · obtain ⟨start, hstart⟩ := hending
      have hmore : start ++ more = front :=
        List.append_cancel_right (by rw [List.append_assoc, hstart, hbytes])
      rcases List.eq_nil_or_concat more with rfl | ⟨init, last, rfl⟩
      · exact List.suffix_rfl
      · refine absurd ?_ hslash
        rw [List.concat_eq_append, ← List.append_assoc] at hmore
        have hlast : last = slash := by
          rcases hfront with hnil | hlast
          · simp [hnil] at hmore
          · simpa [← hmore] using hlast
        simp [hlast]
  have hne (other : FileName) (hother : b ∉ other) : name ≠ other := by
    rintro rfl
    exact hother (hsuffix.subset hb)
  have hordinary : Ordinary name :=
    ⟨hne [] List.not_mem_nil, hne here (by simp [here, hdot]), hne above (by simp [above, hdot]),
      hname⟩
  refine ⟨⟨front⟩, name, ?_, hordinary, hsuffix⟩
  rw [join, if_neg (by simp [isAbsolute_ofName hordinary]), if_pos hfront, ← hbytes]

/-! ## Names that are texts -/

/-- A text is an ordinary name, but for slashes and the names of directories. -/
theorem ordinary_ofString {s : String} (hne : s ≠ "") (hhere : s ≠ ".") (habove : s ≠ "..")
    (hslash : '/' ∉ s.toList) : Ordinary (Utf8.ofString s) := by
  refine ⟨fun heq => hne (Utf8.ofString_injective (heq.trans (show _ = Utf8.ofString "" from rfl))),
    fun heq => hhere (Utf8.ofString_injective (heq.trans (show _ = Utf8.ofString "." from rfl))),
    fun heq => habove (Utf8.ofString_injective (heq.trans (show _ = Utf8.ofString ".." from rfl))),
    fun hmem => ?_⟩
  obtain ⟨c, hc, hb⟩ := List.mem_flatMap.mp hmem
  have hnat : c.toNat = slash.toNat := Utf8.toNat_of_mem_utf8EncodeChar hb (by decide)
  have hchar : c = '/' := by
    rw [← Char.ofNat_toNat c, hnat]
    rfl
  exact hslash (hchar ▸ hc)

end Provision.Path
