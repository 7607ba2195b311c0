import Mathlib.Data.List.Induction
import Mathlib.Data.List.Nodup
import Provision.Proofs.Execution.Progress

/-!
# Waves and chunks

Steps that run side by side are cut into chunks.  `placedChunks` does the same to the steps
together with their places, since only a place tells a step from another one of the same
content.  Every step is in one chunk (`perm_flatten_placedChunks`), and the earlier steps that
it requires are in earlier ones (`mem_earlier_chunk`): their waves are lower, and the chunks
come in the order of their waves.
-/
namespace Provision.Execution

/-! ## Waves -/

variable {steps : List Step} {step : Step} {i j : Nat}

theorem waves_concat (steps : List Step) (step : Step) :
    waves (steps ++ [step]) = waves steps ++ [nextWave (waves steps) step] := by
  rw [waves, List.foldl_append]
  rfl

theorem length_waves (steps : List Step) : (waves steps).length = steps.length := by
  induction steps using List.reverseRecOn with
  | nil => rfl
  | append_singleton steps step ih =>
    rw [waves_concat, List.length_append, List.length_append, ih]
    rfl

/-- The wave of a step lies above those of the steps it requires. -/
theorem lt_nextWave {ws : List Nat} {w : Nat} (hj : j ∈ step.requires) (hw : ws[j]? = some w) :
    w < nextWave ws step := by
  have hmem : w + 1 ∈ (step.requires.filterMap (ws[·]?)).map (· + 1) :=
    List.mem_map_of_mem (List.mem_filterMap.mpr ⟨j, hj, hw⟩)
  rw [nextWave]
  cases hmax : ((step.requires.filterMap (ws[·]?)).map (· + 1)).max? with
  | none =>
    rw [List.max?_eq_none_iff.mp hmax] at hmem
    exact absurd hmem List.not_mem_nil
  | some top => exact (List.max?_eq_some_iff.mp hmax).2 _ hmem

/-- **Waves ascend along requirements.** -/
theorem wave_lt {w w' : Nat} (hi : steps[i]? = some step) (hj : j ∈ step.requires) (hlt : j < i)
    (hw : (waves steps)[i]? = some w) (hw' : (waves steps)[j]? = some w') : w' < w := by
  induction steps using List.reverseRecOn with
  | nil => cases hi
  | append_singleton steps last ih =>
    rw [waves_concat] at hw hw'
    have hlength := length_waves steps
    obtain ⟨hi', -⟩ := List.getElem?_eq_some_iff.mp hi
    rw [List.length_append, List.length_singleton] at hi'
    rw [List.getElem?_append_left (by omega)] at hw'
    rcases Nat.lt_or_ge i steps.length with hbefore | hlast
    · rw [List.getElem?_append_left hbefore] at hi
      rw [List.getElem?_append_left (by omega)] at hw
      exact ih hi hw hw'
    · obtain rfl : i = steps.length := by omega
      rw [List.getElem?_concat_length] at hi
      rw [← hlength, List.getElem?_concat_length] at hw
      cases hi
      cases hw
      exact lt_nextWave hj hw'

/-! ## Cutting a list by waves -/

variable {α β : Type}

theorem flatten_pieces (size : Nat) (l : List α) : (pieces size l).flatten = l := by
  fun_induction pieces size l with
  | case1 => rfl
  | case2 x rest ih => rw [List.flatten_cons, ih, List.cons_append, List.take_append_drop]

theorem ne_nil_of_mem_pieces {size : Nat} {l piece : List α} (h : piece ∈ pieces size l) :
    piece ≠ [] := by
  fun_induction pieces size l with
  | case1 => exact absurd h List.not_mem_nil
  | case2 x rest ih =>
    rcases List.mem_cons.mp h with rfl | h
    · exact List.cons_ne_nil _ _
    · exact ih h

theorem map_pieces (f : α → β) (size : Nat) (l : List α) :
    pieces size (l.map f) = (pieces size l).map (List.map f) := by
  fun_induction pieces size l with
  | case1 => simp [pieces]
  | case2 x rest ih =>
    rw [List.map_cons, pieces, List.map_cons, ← ih, List.map_cons, List.map_take, List.map_drop]

/-- The entries of a wave. -/
def inWave (waves : List Nat) (l : List α) (wave : Nat) : List α :=
  (l.zip waves).filterMap fun (x, w) => if w = wave then some x else none

/-- The number of waves. -/
def height (waves : List Nat) : Nat :=
  (waves.max?.map (· + 1)).getD 0

/-- Cuts a list into chunks of at most `limit`, wave by wave. -/
def cut (limit : Nat) (waves : List Nat) (l : List α) : List (List α) :=
  (List.range (height waves)).flatMap fun wave => pieces (limit - 1) (inWave waves l wave)

theorem chunks_eq_cut (limit : Nat) (steps : List Step) :
    chunks limit steps = cut limit (waves steps) steps := rfl

theorem inWave_map (f : α → β) (waves : List Nat) (l : List α) (wave : Nat) :
    inWave waves (l.map f) wave = (inWave waves l wave).map f := by
  rw [inWave, inWave, List.zip_map_left, List.filterMap_map, List.map_filterMap]
  refine congrArg (List.filterMap · (l.zip waves)) (funext fun (x, w) => ?_)
  by_cases hw : w = wave <;> simp [hw]

theorem cut_map (f : α → β) (limit : Nat) (waves : List Nat) (l : List α) :
    cut limit waves (l.map f) = (cut limit waves l).map (List.map f) := by
  simp only [cut, inWave_map, map_pieces, List.map_flatMap]

theorem mem_inWave {waves : List Nat} {l : List α} {wave : Nat} {x : α} :
    x ∈ inWave waves l wave ↔ (x, wave) ∈ l.zip waves := by
  simp only [inWave, List.mem_filterMap, Option.ite_none_right_eq_some, Option.some.injEq]
  constructor
  · rintro ⟨⟨y, w⟩, hmem, rfl, rfl⟩
    exact hmem
  · exact fun hmem => ⟨(x, wave), hmem, rfl, rfl⟩

theorem lt_height {waves : List Nat} {w : Nat} (hw : w ∈ waves) : w < height waves := by
  rw [height]
  cases hmax : waves.max? with
  | none =>
    rw [List.max?_eq_none_iff.mp hmax] at hw
    exact absurd hw List.not_mem_nil
  | some top => exact Nat.lt_succ_of_le ((List.max?_eq_some_iff.mp hmax).2 w hw)

theorem inWave_eq (waves : List Nat) (l : List α) (wave : Nat) :
    inWave waves l wave = ((l.zip waves).filter fun e => e.2 = wave).map Prod.fst := by
  rw [inWave, ← List.filterMap_eq_map, ← List.filterMap_eq_filter, List.filterMap_filterMap]
  refine congrArg (List.filterMap · (l.zip waves)) (funext fun (x, w) => ?_)
  by_cases hw : w = wave <;> simp [Option.guard, hw]

/-- The waves below `n` hold the entries that are in one of them. -/
theorem perm_flatMap_inWave (waves : List Nat) (l : List α) (n : Nat) :
    ((List.range n).flatMap (inWave waves l)).Perm
      (((l.zip waves).filter fun e => e.2 < n).map Prod.fst) := by
  induction n with
  | zero => simp
  | succ n ih =>
    have hlower : ((l.zip waves).filter fun e => e.2 < n + 1).filter (fun e => e.2 < n) =
        (l.zip waves).filter fun e => e.2 < n := by
      rw [List.filter_filter]
      refine List.filter_congr fun e _ => ?_
      rw [← Bool.decide_and]
      exact decide_eq_decide.mpr (by omega)
    have hlast : ((l.zip waves).filter fun e => e.2 < n + 1).filter (fun e => !decide (e.2 < n)) =
        (l.zip waves).filter fun e => e.2 = n := by
      rw [List.filter_filter]
      refine List.filter_congr fun e _ => ?_
      rw [← decide_not, ← Bool.decide_and]
      exact decide_eq_decide.mpr (by omega)
    have hsplit := List.filter_append_perm (fun e => decide (e.2 < n))
      ((l.zip waves).filter fun e => e.2 < n + 1)
    rw [hlower, hlast] at hsplit
    rw [List.range_succ, List.flatMap_append, List.flatMap_singleton, inWave_eq]
    refine (ih.append_right _).trans ?_
    rw [← List.map_append]
    exact hsplit.map Prod.fst

/-- Cutting loses nothing and doubles nothing. -/
theorem perm_flatten_cut (limit : Nat) {waves : List Nat} {l : List α}
    (hlength : waves.length = l.length) : (cut limit waves l).flatten.Perm l := by
  have hflatten : (cut limit waves l).flatten =
      (List.range (height waves)).flatMap (inWave waves l) := by
    simp only [cut, List.flatMap, List.flatten_flatten, List.map_map, Function.comp_def,
      flatten_pieces]
  have hall : (l.zip waves).filter (fun e => e.2 < height waves) = l.zip waves := by
    refine List.filter_eq_self.mpr fun e he => ?_
    exact decide_eq_true (lt_height (List.of_mem_zip he).2)
  rw [hflatten]
  refine (perm_flatMap_inWave waves l (height waves)).trans ?_
  rw [hall, List.map_fst_zip (Nat.le_of_eq hlength.symm)]

/-- A chunk is cut from one wave. -/
theorem mem_zip_of_mem_pieces {waves : List Nat} {l : List α} {size wave : Nat} {chunk : List α}
    (hchunk : chunk ∈ pieces size (inWave waves l wave)) :
    ∀ x ∈ chunk, (x, wave) ∈ l.zip waves := by
  intro x hx
  refine mem_inWave.mp ?_
  rw [← flatten_pieces size (inWave waves l wave)]
  exact List.mem_flatten_of_mem hchunk hx

theorem exists_wave_of_mem_cut {limit : Nat} {waves : List Nat} {l chunk : List α}
    (h : chunk ∈ cut limit waves l) : ∃ w, ∀ x ∈ chunk, (x, w) ∈ l.zip waves := by
  obtain ⟨wave, -, hchunk⟩ := List.mem_flatMap.mp h
  exact ⟨wave, mem_zip_of_mem_pieces hchunk⟩

/-- The chunks come in the order of their waves. -/
theorem pairwise_cut (limit : Nat) (waves : List Nat) (l : List α) :
    (cut limit waves l).Pairwise fun chunk chunk' => ∃ w w', w ≤ w' ∧
      (∀ x ∈ chunk, (x, w) ∈ l.zip waves) ∧ ∀ x ∈ chunk', (x, w') ∈ l.zip waves := by
  rw [cut, List.pairwise_flatMap]
  constructor
  · intro wave _
    refine List.pairwise_of_forall_mem_list fun chunk hchunk chunk' hchunk' => ?_
    exact ⟨wave, wave, Nat.le_refl _, mem_zip_of_mem_pieces hchunk, mem_zip_of_mem_pieces hchunk'⟩
  · refine List.pairwise_lt_range.imp fun {wave wave'} hlt chunk hchunk chunk' hchunk' => ?_
    exact ⟨wave, wave', Nat.le_of_lt hlt, mem_zip_of_mem_pieces hchunk,
      mem_zip_of_mem_pieces hchunk'⟩

/-! ## Chunks of steps with their places -/

/-- A step and its place. -/
abbrev Placed := Step × Nat

/-- The chunks that steps are run in, each step with its place. -/
def placedChunks (limit : Nat) (steps : List Step) : List (List Placed) :=
  cut limit (waves steps) steps.zipIdx

theorem chunks_eq_map (limit : Nat) (steps : List Step) :
    chunks limit steps = (placedChunks limit steps).map (List.map Prod.fst) := by
  rw [placedChunks, ← cut_map, List.zipIdx_map_fst, chunks_eq_cut]

/-- **Every step is in one chunk.** -/
theorem perm_flatten_placedChunks (limit : Nat) (steps : List Step) :
    (placedChunks limit steps).flatten.Perm steps.zipIdx :=
  perm_flatten_cut limit (by rw [length_waves, List.length_zipIdx])

/-- The places of a list of placed steps. -/
def places (placed : List Placed) : List Nat := placed.map Prod.snd

theorem nodup_places_placedChunks (limit : Nat) (steps : List Step) :
    (places (placedChunks limit steps).flatten).Nodup := by
  refine ((perm_flatten_placedChunks limit steps).map Prod.snd).nodup_iff.mpr ?_
  rw [List.zipIdx_map_snd]
  exact List.nodup_range'

theorem mem_placedChunks {limit : Nat} {p : Placed} :
    p ∈ (placedChunks limit steps).flatten ↔ steps[p.2]? = some p.1 := by
  rw [(perm_flatten_placedChunks limit steps).mem_iff]
  exact List.mk_mem_zipIdx_iff_getElem?

theorem wave_of_mem_zip {w : Nat} (h : ((step, i), w) ∈ steps.zipIdx.zip (waves steps)) :
    (waves steps)[i]? = some w := by
  obtain ⟨k, hk⟩ := List.mem_iff_getElem?.mp h
  obtain ⟨hp, hw⟩ := List.getElem?_zip_eq_some.mp hk
  rw [List.getElem?_zipIdx, Option.map_eq_some_iff] at hp
  obtain ⟨_, -, heq⟩ := hp
  obtain ⟨-, rfl⟩ := Prod.mk.inj heq
  rwa [Nat.zero_add]

theorem ne_nil_of_mem_placedChunks {limit : Nat} {chunk : List Placed}
    (h : chunk ∈ placedChunks limit steps) : chunk ≠ [] := by
  obtain ⟨wave, -, hchunk⟩ := List.mem_flatMap.mp h
  exact ne_nil_of_mem_pieces hchunk

/-- **What a step requires is in an earlier chunk**, as far as it comes earlier at all. -/
theorem mem_earlier_chunk {limit : Nat} {front rest : List (List Placed)} {chunk : List Placed}
    (h : placedChunks limit steps = front ++ chunk :: rest) (hmem : (step, i) ∈ chunk)
    (hj : j ∈ step.requires) (hlt : j < i) : j ∈ places front.flatten := by
  have hchunk : chunk ∈ placedChunks limit steps := by simp [h]
  have hi : steps[i]? = some step :=
    mem_placedChunks.mp (List.mem_flatten_of_mem hchunk hmem)
  obtain ⟨other, hother⟩ : ∃ other, steps[j]? = some other :=
    ⟨_, List.getElem?_eq_getElem (Nat.lt_trans hlt (List.getElem?_eq_some_iff.mp hi).1)⟩
  have hcovered : (other, j) ∈ (placedChunks limit steps).flatten := mem_placedChunks.mpr hother
  rw [h, List.flatten_append, List.flatten_cons, List.mem_append, List.mem_append] at hcovered
  rcases hcovered with hfront | hsame | hrest
  · exact List.mem_map_of_mem hfront
  · obtain ⟨w, hw⟩ := exists_wave_of_mem_cut hchunk
    exact absurd (wave_lt hi hj hlt (wave_of_mem_zip (hw _ hmem)) (wave_of_mem_zip (hw _ hsame)))
      (Nat.lt_irrefl w)
  · obtain ⟨chunk', hchunk', hother'⟩ := List.mem_flatten.mp hrest
    have hpairwise := pairwise_cut limit (waves steps) steps.zipIdx
    rw [← placedChunks, h, List.pairwise_append] at hpairwise
    obtain ⟨w, w', hle, hw, hw'⟩ := (List.pairwise_cons.mp hpairwise.2.1).1 chunk' hchunk'
    exact absurd (wave_lt hi hj hlt (wave_of_mem_zip (hw _ hmem))
      (wave_of_mem_zip (hw' _ hother'))) (Nat.not_lt.mpr hle)

end Provision.Execution
