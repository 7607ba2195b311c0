import Provision.Proofs.Execution.Waves

/-!
# Schedules

The chunks of a plan make a schedule (`Schedules`), and they do so for every list of steps,
whatever numbers the steps require: those of earlier steps count, all others are passed over.
So two plans of which each step requires the same earlier ones are scheduled alike
(`placedChunks_congr`).
-/
namespace Provision.Execution

variable {α : Type} {limit : Nat} {steps steps' : List Step} {step step' : Step}

/-! ## The size and order of chunks -/

theorem length_le_of_mem_pieces {size : Nat} {l piece : List α} (h : piece ∈ pieces size l) :
    piece.length ≤ size + 1 := by
  fun_induction pieces size l with
  | case1 => exact absurd h List.not_mem_nil
  | case2 x rest ih =>
    rcases List.mem_cons.mp h with rfl | h
    · exact Nat.succ_le_succ (List.length_take_le ..)
    · exact ih h

theorem length_le_of_mem_cut {waves : List Nat} {l chunk : List α} (hlimit : 0 < limit)
    (h : chunk ∈ cut limit waves l) : chunk.length ≤ limit := by
  obtain ⟨wave, -, hchunk⟩ := List.mem_flatMap.mp h
  rw [← Nat.sub_add_cancel hlimit]
  exact length_le_of_mem_pieces hchunk

/-- A chunk keeps the order that its entries had. -/
theorem sublist_of_mem_cut {waves : List Nat} {l chunk : List α}
    (hlength : waves.length = l.length) (h : chunk ∈ cut limit waves l) : chunk.Sublist l := by
  obtain ⟨wave, -, hchunk⟩ := List.mem_flatMap.mp h
  have hpiece := List.sublist_flatten_of_mem hchunk
  rw [flatten_pieces, inWave_eq] at hpiece
  have hzip : (((l.zip waves).filter fun e => e.2 = wave).map Prod.fst).Sublist
      ((l.zip waves).map Prod.fst) := List.filter_sublist.map Prod.fst
  rw [List.map_fst_zip (Nat.le_of_eq hlength.symm)] at hzip
  exact hpiece.trans hzip

theorem pairwise_places_of_mem_placedChunks {chunk : List Placed}
    (h : chunk ∈ placedChunks limit steps) : (places chunk).Pairwise (· < ·) := by
  have hsublist := (sublist_of_mem_cut (by rw [length_waves, List.length_zipIdx]) h).map Prod.snd
  rw [List.zipIdx_map_snd] at hsublist
  exact List.Pairwise.sublist hsublist (List.pairwise_lt_range' 1)

/-! ## What a schedule depends on -/

/-- Two plans of which each step requires the same earlier ones. -/
structure Alike (steps steps' : List Step) : Prop where
  length_eq : steps.length = steps'.length
  requires_iff : ∀ (i : Nat) (step step' : Step), steps[i]? = some step →
    steps'[i]? = some step' → ∀ r < i, r ∈ step.requires ↔ r ∈ step'.requires

theorem max?_congr {l l' : List Nat} (h : ∀ n, n ∈ l ↔ n ∈ l') : l.max? = l'.max? := by
  cases hmax : l'.max? with
  | none =>
    rw [List.max?_eq_none_iff] at hmax ⊢
    subst hmax
    exact List.eq_nil_iff_forall_not_mem.mpr fun n hn => List.not_mem_nil ((h n).mp hn)
  | some top =>
    rw [List.max?_eq_some_iff] at hmax ⊢
    exact ⟨(h top).mpr hmax.1, fun n hn => hmax.2 n ((h n).mp hn)⟩

/-- Only the numbers of earlier steps count for a wave. -/
theorem nextWave_congr {ws : List Nat}
    (h : ∀ r < ws.length, r ∈ step.requires ↔ r ∈ step'.requires) :
    nextWave ws step = nextWave ws step' := by
  have hmem : ∀ n,
      n ∈ step.requires.filterMap (ws[·]?) ↔ n ∈ step'.requires.filterMap (ws[·]?) := by
    intro n
    rw [List.mem_filterMap, List.mem_filterMap]
    refine exists_congr fun r => and_congr_left fun hr => ?_
    exact h r (List.getElem?_eq_some_iff.mp hr).1
  rw [nextWave, nextWave, max?_congr]
  intro n
  simp only [List.mem_map, hmem]

theorem waves_congr (h : Alike steps steps') : waves steps = waves steps' := by
  induction steps using List.reverseRecOn generalizing steps' with
  | nil =>
    rw [List.length_eq_zero_iff.mp h.length_eq.symm]
  | append_singleton steps step ih =>
    obtain ⟨steps', step', rfl⟩ : ∃ front last, steps' = front ++ [last] := by
      refine (List.eq_nil_or_concat' steps').resolve_left ?_
      rintro rfl
      exact absurd h.length_eq (by simp)
    have hlength : steps.length = steps'.length := by simpa using h.length_eq
    have hfront : Alike steps steps' := by
      refine ⟨hlength, fun i step step' hi hi' => h.requires_iff i step step' ?_ ?_⟩
      · rwa [List.getElem?_append_left (List.getElem?_eq_some_iff.mp hi).1]
      · rwa [List.getElem?_append_left (List.getElem?_eq_some_iff.mp hi').1]
    rw [waves_concat, waves_concat, ih hfront]
    refine congrArg (fun wave => waves steps' ++ [wave]) (nextWave_congr fun r hr => ?_)
    rw [length_waves] at hr
    refine h.requires_iff steps'.length step step' ?_ (List.getElem?_concat_length ..) r hr
    rw [← hlength, List.getElem?_concat_length]

/-- **Plans that require the same earlier steps are scheduled alike.** -/
theorem placedChunks_congr (h : Alike steps steps') :
    (placedChunks limit steps').map places = (placedChunks limit steps).map places := by
  have hplaces : ∀ steps : List Step, (placedChunks limit steps).map places =
      cut limit (waves steps) (List.range steps.length) := by
    intro steps
    rw [placedChunks, List.range_eq_range', ← List.zipIdx_map_snd, cut_map]
    rfl
  rw [hplaces, hplaces, waves_congr h, h.length_eq]

/-! ## Schedules of a plan -/

/-- **A schedule of a plan** for at most `limit` steps at once.  Steps are told apart by their
places. -/
structure Schedules (limit : Nat) (steps : List Step) (schedule : List (List Placed)) : Prop where
  chunks_eq : chunks limit steps = schedule.map (List.map Prod.fst)
  /-- Every step is in one chunk. -/
  perm : schedule.flatten.Perm steps.zipIdx
  size : ∀ chunk ∈ schedule, chunk ≠ [] ∧ chunk.length ≤ limit
  ascending : ∀ chunk ∈ schedule, (places chunk).Pairwise (· < ·)
  /-- What a step requires of earlier steps is in earlier chunks. -/
  earlier : ∀ front chunk rest, schedule = front ++ chunk :: rest →
    ∀ p ∈ chunk, ∀ r ∈ p.1.requires, r < p.2 → r ∈ places front.flatten
  /-- Whatever else a step requires is ignored. -/
  ignored : ∀ steps', Alike steps steps' →
    (placedChunks limit steps').map places = schedule.map places

/-- **The chunks of any list of steps make a schedule.** -/
theorem schedules_placedChunks (hlimit : 0 < limit) (steps : List Step) :
    Schedules limit steps (placedChunks limit steps) where
  chunks_eq := chunks_eq_map limit steps
  perm := perm_flatten_placedChunks limit steps
  size _ h := ⟨ne_nil_of_mem_placedChunks h, length_le_of_mem_cut hlimit h⟩
  ascending _ h := pairwise_places_of_mem_placedChunks h
  earlier _ _ _ h _ hp _ hr hlt := mem_earlier_chunk h hp hr hlt
  ignored _ h := placedChunks_congr h

end Provision.Execution
