import Provision.Proofs.Files.Change

/-!
# Reasoning about work on a file system

Work on a file system ends with a value or fails, and what it changed stays changed in either
case.  `Meets` tells both ends, and has one rule for each way to put work together, so what a
piece of work achieves is proved along its text.
-/
namespace Provision.Disk

open FileSystem
open Provision.Path (Ordinary Fits)

variable {ε δ α β : Type} {fs : FileSystem} {work : Disk ε α}

/-! ## How work runs -/

theorem run_bind (work : Disk ε α) (next : α → Disk ε β) (fs : FileSystem) :
    (work >>= next) fs = match work fs with
      | (.ok value, fs') => next value fs'
      | (.error cause, fs') => (.error cause, fs') := by
  change (ExceptT.bindCont next (work fs).1) (work fs).2 = _
  rcases work fs with ⟨_ | value, fs'⟩ <;> rfl

/-- Work that failed has failed in one of its parts, after which nothing was done. -/
theorem run_bind_eq_error {next : α → Disk ε β} {cause : ε} {fs' : FileSystem} :
    (work >>= next) fs = (.error cause, fs') ↔ work fs = (.error cause, fs') ∨
      ∃ first mid, work fs = (.ok first, mid) ∧ next first mid = (.error cause, fs') := by
  rw [run_bind]
  rcases work fs with ⟨cause' | first, mid⟩
  · refine ⟨fun h => ?_, ?_⟩
    · cases h
      exact Or.inl rfl
    · rintro (h | ⟨first, mid', hfirst, -⟩)
      · cases h
        rfl
      · cases hfirst
  · refine ⟨fun h => Or.inr ⟨first, mid, rfl, h⟩, ?_⟩
    rintro (h | ⟨first', mid', hfirst, h⟩)
    · cases h
    · cases hfirst
      exact h

theorem run_bind_eq_ok {next : α → Disk ε β} {value : β} {fs' : FileSystem} :
    (work >>= next) fs = (.ok value, fs') ↔
      ∃ first mid, work fs = (.ok first, mid) ∧ next first mid = (.ok value, fs') := by
  rw [run_bind]
  rcases work fs with ⟨cause | first, mid⟩
  · refine iff_of_false (fun h => by cases h) ?_
    rintro ⟨first, mid', hfirst, -⟩
    cases hfirst
  · refine ⟨fun h => ⟨first, mid, rfl, h⟩, ?_⟩
    rintro ⟨first', mid', hfirst, h⟩
    cases hfirst
    exact h

/-- Work on the entries of a list is done on those of its first part, then on the others. -/
theorem run_forM_append_eq_ok {each : α → Disk ε PUnit} {xs ys : List α} {fs' : FileSystem} :
    (xs ++ ys).forM each fs = (.ok (), fs') ↔
      ∃ mid, xs.forM each fs = (.ok (), mid) ∧ ys.forM each mid = (.ok (), fs') := by
  induction xs generalizing fs with
  | nil =>
    refine ⟨fun h => ⟨fs, rfl, h⟩, ?_⟩
    rintro ⟨mid, hmid, h⟩
    cases hmid
    exact h
  | cons x xs ih =>
    have hcons (zs : List α) (fs'' : FileSystem) : (x :: zs).forM each fs = (.ok (), fs'') ↔
        ∃ first mid, each x fs = (.ok first, mid) ∧ zs.forM each mid = (.ok (), fs'') :=
      run_bind_eq_ok
    rw [List.cons_append, hcons]
    constructor
    · rintro ⟨first, mid, hfirst, h⟩
      obtain ⟨mid', hxs, hys⟩ := ih.mp h
      exact ⟨mid', (hcons _ _).mpr ⟨first, mid, hfirst, hxs⟩, hys⟩
    · rintro ⟨mid, hxs, hys⟩
      obtain ⟨first, mid', hfirst, hxs⟩ := (hcons _ _).mp hxs
      exact ⟨first, mid', hfirst, ih.mpr ⟨mid, hxs, hys⟩⟩

theorem run_tryCatch (work : Disk ε α) (handler : ε → Disk ε α) (fs : FileSystem) :
    (MonadExcept.tryCatch work handler) fs = match work fs with
      | (.ok value, fs') => (.ok value, fs')
      | (.error cause, fs') => handler cause fs' := by
  have hrun : (MonadExcept.tryCatch work handler) fs =
      (MonadExcept.tryCatch (fun _ => work fs : Disk ε α) handler) fs := rfl
  rw [hrun]
  rcases work fs with ⟨_ | value, fs'⟩ <;> rfl

theorem run_adapt (f : ε → δ) (work : Disk ε α) (fs : FileSystem) :
    (ExceptT.adapt f work : Disk δ α) fs = ((work fs).1.mapError f, (work fs).2) :=
  rfl

theorem run_adapt_eq_error {f : ε → δ} {cause : δ} {fs' : FileSystem} :
    (ExceptT.adapt f work : Disk δ α) fs = (.error cause, fs') ↔
      ∃ cause', work fs = (.error cause', fs') ∧ f cause' = cause := by
  rw [run_adapt]
  rcases work fs with ⟨cause' | value, mid⟩
  · refine ⟨fun h => ?_, ?_⟩
    · cases h
      exact ⟨cause', rfl, rfl⟩
    · rintro ⟨cause'', h, rfl⟩
      cases h
      rfl
  · refine ⟨fun h => ?_, ?_⟩
    · cases h
    · rintro ⟨cause'', h, -⟩
      cases h

theorem run_lift (answer : Except ε α) (fs : FileSystem) :
    (liftM answer : Disk ε α) fs = (answer, fs) := by
  cases answer <;> rfl

theorem run_look (question : FileSystem → α) (fs : FileSystem) :
    (look question : Disk ε α) fs = (.ok (question fs), fs) :=
  rfl

theorem run_inspect (question : FileSystem → Except ε α) (fs : FileSystem) :
    (inspect question : Disk ε α) fs = (question fs, fs) := by
  have hrun : (inspect question : Disk ε α) fs = (inspect fun _ => question fs : Disk ε α) fs := rfl
  rw [hrun]
  cases question fs <;> rfl

theorem run_change (call : FileSystem → Except ε FileSystem) (fs : FileSystem) :
    (change call : Disk ε Unit) fs = match call fs with
      | .ok fs' => (.ok (), fs')
      | .error cause => (.error cause, fs) := by
  have hrun : (change call : Disk ε Unit) fs = (change fun _ => call fs : Disk ε Unit) fs := rfl
  rw [hrun]
  cases call fs <;> rfl

theorem run_adapt_change_eq_ok {f : δ → ε} {call : FileSystem → Except δ FileSystem}
    {fs' : FileSystem} :
    (ExceptT.adapt f (change call) : Disk ε Unit) fs = (.ok (), fs') ↔ call fs = .ok fs' := by
  rw [run_adapt, run_change]
  cases call fs with
  | error cause => exact iff_of_false nofun nofun
  | ok written =>
    refine ⟨fun h => ?_, fun h => ?_⟩
    · cases h
      rfl
    · cases h
      rfl

theorem run_attempt (call : FileSystem → Except δ FileSystem) (fs : FileSystem) :
    (attempt call : Disk ε Unit) fs = (Except.ok (), (call fs).toOption.getD fs) := by
  have hrun : (attempt call : Disk ε Unit) fs = (attempt fun _ => call fs : Disk ε Unit) fs := rfl
  rw [hrun]
  cases call fs <;> rfl

/-- Whatever comes of the work, what is taken away afterwards is. -/
theorem run_cleaning (path : Path) (remove : FileSystem → Path → Except FileError FileSystem)
    (work : Disk ε α) (fs : FileSystem) : cleaning path remove work fs =
      ((work fs).1, (remove (work fs).2 path).toOption.getD (work fs).2) := by
  rw [cleaning, run_bind, run_tryCatch, run_bind]
  rcases work fs with ⟨_ | value, fs'⟩
  · simp only [run_bind, run_attempt]
    rfl
  · simp only [run_bind, run_attempt]
    rfl

theorem run_ensureDirectory (path : Path) (fs : FileSystem) :
    ensureDirectory path fs = match fs.makeDirectory path with
      | .ok fs' => (.ok (), fs')
      | .error cause => if fs.isDirectory path then (.ok (), fs) else (.error cause, fs) := by
  rw [ensureDirectory, run_bind, run_tryCatch, run_bind, run_change]
  cases fs.makeDirectory path with
  | ok fs' => rfl
  | error cause =>
    simp only [run_bind, run_look]
    by_cases hdirectory : fs.isDirectory path = true
    · rw [if_pos hdirectory, if_pos hdirectory]
      rfl
    · rw [if_neg hdirectory, if_neg hdirectory]
      rfl

/-! ## What work achieves -/

/-- **What a piece of work achieves.**  Started where `before` holds, it ends with a value and
`done`, or fails with `failed`. -/
structure Meets (before : FileSystem → Prop) (work : Disk ε α) (done : α → FileSystem → Prop)
    (failed : FileSystem → Prop) : Prop where
  run : ∀ fs, before fs →
    match work fs with
    | (.ok value, fs') => done value fs'
    | (.error _, fs') => failed fs'

namespace Meets

variable {before before' failed failed' : FileSystem → Prop} {done done' : α → FileSystem → Prop}
  {remains : Unit → FileSystem → Prop}

theorem of_run_eq_ok (h : Meets before work done failed) {value : α} (hfs : before fs)
    {fs' : FileSystem} (hrun : work fs = (.ok value, fs')) : done value fs' := by
  have hwork := h.run fs hfs
  rwa [hrun] at hwork

theorem of_run_eq_error (h : Meets before work done failed) {cause : ε} (hfs : before fs)
    {fs' : FileSystem} (hrun : work fs = (.error cause, fs')) : failed fs' := by
  have hwork := h.run fs hfs
  rwa [hrun] at hwork

theorem weaken (h : Meets before work done failed) (hbefore : ∀ fs, before' fs → before fs)
    (hdone : ∀ value fs, done value fs → done' value fs) (hfailed : ∀ fs, failed fs → failed' fs) :
    Meets before' work done' failed' := by
  refine ⟨fun fs hfs => ?_⟩
  have hwork := h.run fs (hbefore fs hfs)
  revert hwork
  rcases work fs with ⟨_ | value, fs'⟩
  · exact hfailed fs'
  · exact hdone value fs'

theorem strengthen (h : Meets before work done failed) (hbefore : ∀ fs, before' fs → before fs) :
    Meets before' work done failed :=
  h.weaken hbefore (fun _ _ => id) fun _ => id

/-- Work is told from each file system it may be started on. -/
theorem of_forall (h : ∀ fs, before fs → Meets (· = fs) work done failed) :
    Meets before work done failed :=
  ⟨fun fs hfs => (h fs hfs).run fs rfl⟩

theorem ite {condition : Prop} [Decidable condition] {work' : Disk ε α}
    (h : condition → Meets before work done failed)
    (h' : ¬ condition → Meets before work' done failed) :
    Meets before (if condition then work else work') done failed := by
  split
  · exact h ‹_›
  · exact h' ‹_›

theorem pure {value : α} (h : ∀ fs, before fs → done value fs) :
    Meets before (Pure.pure value : Disk ε α) done failed :=
  ⟨fun fs hfs => h fs hfs⟩

theorem throw {cause : ε} (h : ∀ fs, before fs → failed fs) :
    Meets before (MonadExcept.throw cause : Disk ε α) done failed :=
  ⟨fun fs hfs => h fs hfs⟩

theorem bind {next : α → Disk ε β} {after : β → FileSystem → Prop}
    (h : Meets before work done failed)
    (hnext : ∀ value, Meets (done value) (next value) after failed) :
    Meets before (work >>= next) after failed := by
  refine ⟨fun fs hfs => ?_⟩
  have hwork := h.run fs hfs
  rw [run_bind]
  revert hwork
  rcases work fs with ⟨_ | value, fs'⟩
  · exact id
  · exact (hnext value).run fs'

theorem adapt {f : ε → δ} (h : Meets before work done failed) :
    Meets before (ExceptT.adapt f work : Disk δ α) done failed := by
  refine ⟨fun fs hfs => ?_⟩
  have hwork := h.run fs hfs
  rw [run_adapt]
  revert hwork
  rcases work fs with ⟨_ | value, fs'⟩ <;> exact id

/-- An answer that is not asked of the file system. -/
theorem lift {answer : Except ε α} (h : ∀ value fs, before fs → answer = .ok value → done value fs)
    (hfailed : ∀ fs, before fs → failed fs) :
    Meets before (liftM answer : Disk ε α) done failed := by
  refine ⟨fun fs hfs => ?_⟩
  cases answer with
  | error cause => exact hfailed fs hfs
  | ok value => exact h value fs hfs rfl

/-- Work goes on with what it saw. -/
theorem look_bind {question : FileSystem → α} {next : α → Disk ε β} {after : β → FileSystem → Prop}
    (h : ∀ value, Meets (fun fs => before fs ∧ question fs = value) (next value) after failed) :
    Meets before (look question >>= next) after failed := by
  refine ⟨fun fs hfs => ?_⟩
  rw [run_bind, run_look]
  exact (h (question fs)).run fs ⟨hfs, rfl⟩

/-- Work does not go on after a failure. -/
theorem throw_bind {cause : ε} {next : α → Disk ε β} {after : β → FileSystem → Prop}
    (h : ∀ fs, before fs → failed fs) :
    Meets before ((MonadExcept.throw cause : Disk ε α) >>= next) after failed :=
  ⟨fun fs hfs => h fs hfs⟩

/-- Work goes on with an answer, if it is not refused. -/
theorem lift_bind {answer : Except ε α} {next : α → Disk ε β} {after : β → FileSystem → Prop}
    (h : ∀ value, answer = .ok value → Meets before (next value) after failed)
    (hfailed : ∀ fs, before fs → failed fs) :
    Meets before ((liftM answer : Disk ε α) >>= next) after failed := by
  refine ⟨fun fs hfs => ?_⟩
  cases answer with
  | error cause => exact hfailed fs hfs
  | ok value => exact (h value rfl).run fs hfs

theorem inspect {question : FileSystem → Except ε α}
    (h : ∀ fs value, before fs → question fs = .ok value → done value fs)
    (hfailed : ∀ fs, before fs → failed fs) : Meets before (inspect question) done failed := by
  refine ⟨fun fs hfs => ?_⟩
  rw [run_inspect]
  cases hquestion : question fs with
  | error cause => exact hfailed fs hfs
  | ok value => exact h fs value hfs hquestion

theorem change {call : FileSystem → Except ε FileSystem}
    (h : ∀ fs fs', before fs → call fs = .ok fs' → remains () fs')
    (hfailed : ∀ fs, before fs → failed fs) : Meets before (change call) remains failed := by
  refine ⟨fun fs hfs => ?_⟩
  rw [run_change]
  cases hcall : call fs with
  | error cause => exact hfailed fs hfs
  | ok fs' => exact h fs fs' hfs hcall

/-- A list is worked off with an invariant. -/
theorem forM {invariant : FileSystem → Prop} {each : α → Disk ε PUnit} {xs : List α}
    (h : ∀ x ∈ xs, Meets invariant (each x) (fun _ => invariant) invariant) :
    Meets invariant (xs.forM each) (fun _ => invariant) invariant := by
  induction xs with
  | nil => exact .pure fun _ => id
  | cons x xs ih =>
    exact (h x List.mem_cons_self).bind fun _ => ih fun y hy => h y (List.mem_cons_of_mem _ hy)

/-- Something is taken away after the work, however it ended. -/
theorem cleaning {path : Path} {remove : FileSystem → Path → Except FileError FileSystem}
    (h : Meets before work done failed)
    (hdone : ∀ value fs, done value fs → done' value ((remove fs path).toOption.getD fs))
    (hfailed : ∀ fs, failed fs → failed' ((remove fs path).toOption.getD fs)) :
    Meets before (cleaning path remove work) done' failed' := by
  refine ⟨fun fs hfs => ?_⟩
  have hwork := h.run fs hfs
  rw [run_cleaning]
  revert hwork
  rcases work fs with ⟨cause | value, fs'⟩
  · exact hfailed fs'
  · exact hdone value fs'

end Meets

end Provision.Disk
