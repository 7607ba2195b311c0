import Provision.Proofs.Files.Lookup
import Provision.Proofs.Text
import Provision.Store.Fetch

/-!
# What a local fetch delivers

A url leads to a path of its own if it names no scheme, or to what follows `file://`
(`sourcePath_eq_ok_iff`); any other is refused.  Whatever the pieces that a file arrives in, put
together they are the file, and what is reported on the way counts up from nothing to its length
(`fetchLocal_eq_ok`).
-/
namespace Provision

variable {url : String} {path : Path} {arrival : Arrival} {fs : FileSystem} {content : Bytes}
  {total current : Nat} {pieces : List Bytes}

/-! ## Where urls lead -/

/-- **A url leads to a path**: it is a path, or a `file://` url. -/
inductive LeadsTo : String → Path → Prop
  | plain {url : String} (hscheme : ¬ "://".toList <:+: url.toList) : LeadsTo url (.ofString url)
  | file (path : String) : LeadsTo ("file://" ++ path) (.ofString path)

theorem sourcePath_eq_ok_iff : sourcePath url = .ok path ↔ LeadsTo url path := by
  rw [sourcePath]
  constructor
  · intro h
    split at h
    · rename_i rest hrest
      cases h
      have hurl : url = "file://" ++ String.ofList rest := by
        refine String.toList_inj.mp ((Text.isPrefixOf?_eq_some_iff.mp hrest).trans ?_)
        simp
      rw [hurl]
      exact .file _
    · split at h
      · cases h
      · rename_i hholds
        cases h
        exact .plain fun hscheme => hholds (Text.holds_iff.mpr hscheme)
  · rintro (hscheme | rest)
    · have hfront : "file://".toList.isPrefixOf? url.toList = none := by
        refine Option.eq_none_iff_forall_ne_some.mpr fun rest hrest => hscheme ?_
        rw [Text.isPrefixOf?_eq_some_iff.mp hrest]
        exact ⟨"file".toList, rest, by simp⟩
      simp only [hfront]
      rw [if_neg fun hholds => hscheme (Text.holds_iff.mp hholds)]
    · have hfront : "file://".toList.isPrefixOf? ("file://" ++ rest).toList = some rest.toList :=
        Text.isPrefixOf?_eq_some_iff.mpr String.toList_append
      simp only [hfront, String.ofList_toList]

/-! ## What is reported -/

/-- **Reports that count up to a total**: they begin with nothing, each tells of more than the ones
before it, and the last tells of everything. -/
structure CountsUp (total : Nat) (progress : List Progress) : Prop where
  starts : progress.head? = some ⟨0, total⟩
  ascending : progress.Pairwise fun earlier later => earlier.current < later.current
  expected : ∀ report ∈ progress, report.total = total
  ends : progress.getLast? = some ⟨total, total⟩

theorem total_of_mem_progressAfter {report : Progress}
    (h : report ∈ progressAfter total current pieces) : report.total = total := by
  induction pieces generalizing current with
  | nil => cases h
  | cons piece rest ih =>
    rcases List.mem_cons.mp h with rfl | h
    · rfl
    · exact ih h

theorem lt_of_mem_progressAfter (hpieces : ∀ piece ∈ pieces, piece ≠ []) {report : Progress}
    (h : report ∈ progressAfter total current pieces) : current < report.current := by
  induction pieces generalizing current with
  | nil => cases h
  | cons piece rest ih =>
    have hpiece : 0 < piece.length := List.length_pos_of_ne_nil (hpieces piece (by simp))
    rcases List.mem_cons.mp h with rfl | h
    · exact Nat.lt_add_of_pos_right hpiece
    · exact Nat.lt_of_le_of_lt (Nat.le_add_right _ _)
        (ih (fun piece hmem => hpieces piece (List.mem_cons_of_mem _ hmem)) h)

theorem pairwise_progressAfter (hpieces : ∀ piece ∈ pieces, piece ≠ []) :
    (progressAfter total current pieces).Pairwise fun earlier later =>
      earlier.current < later.current := by
  induction pieces generalizing current with
  | nil => exact .nil
  | cons piece rest ih =>
    have hrest : ∀ piece ∈ rest, piece ≠ [] := fun piece hmem =>
      hpieces piece (List.mem_cons_of_mem _ hmem)
    exact .cons (fun report hmem => lt_of_mem_progressAfter hrest hmem) (ih hrest)

theorem getLast?_progressAfter (total current : Nat) (pieces : List Bytes) :
    (⟨current, total⟩ :: progressAfter total current pieces).getLast? =
      some ⟨current + pieces.flatten.length, total⟩ := by
  induction pieces generalizing current with
  | nil => rfl
  | cons piece rest ih =>
    rw [progressAfter, List.getLast?_cons_cons, ih, List.flatten_cons, List.length_append,
      Nat.add_assoc]

/-- **What is reported of a file counts up to its length**, whatever pieces it arrives in. -/
theorem countsUp_progressAfter (arrival : Arrival) (content : Bytes) :
    CountsUp content.length
      (⟨0, content.length⟩ :: progressAfter content.length 0 (arrival.pieces content)) where
  starts := rfl
  ascending := by
    have hpieces := arrival.ne_nil_of_mem_pieces content
    exact .cons (fun report hmem => lt_of_mem_progressAfter hpieces hmem)
      (pairwise_progressAfter hpieces)
  expected report hmem := by
    rcases List.mem_cons.mp hmem with rfl | hmem
    · rfl
    · exact total_of_mem_progressAfter hmem
  ends := by rw [getLast?_progressAfter, arrival.flatten_pieces, Nat.zero_add]

/-! ## What is fetched -/

/-- **A file that was fetched** is the one that the url leads to, and what is reported of it counts
up to its length. -/
theorem fetchLocal_eq_ok (h : (fetchLocal arrival url fs).content = .ok content) :
    ∃ source place, LeadsTo url source ∧ fs.find? source = .ok (place, .file content) ∧
      CountsUp content.length (fetchLocal arrival url fs).progress := by
  rw [fetchLocal] at h ⊢
  cases hsource : sourcePath url with
  | error cause => simp [hsource] at h
  | ok source =>
    rw [hsource] at h
    dsimp only at h ⊢
    cases hfound : fs.find? source with
    | error cause => simp [hfound] at h
    | ok found =>
      obtain ⟨place, entry⟩ := found
      rw [hfound] at h
      cases entry with
      | file content' =>
        have heq : content' = content :=
          (arrival.flatten_pieces content').symm.trans (Except.ok.inj h)
        subst heq
        exact ⟨source, place, sourcePath_eq_ok_iff.mp hsource, hfound,
          countsUp_progressAfter arrival content'⟩
      | directory => cases h
      | link => cases h

end Provision
