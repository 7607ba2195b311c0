import Provision.Proofs.Store.Directory.Saving

/-!
# The directories of packages

An id without slashes is a name in the directory of the packages (`ordinary_packageName`).  What
is removed there changes nothing outside of it (`Layout.of_removeTree`), so the layout of the store
stays, and so do the records (`Layout.of_packages`).
-/
namespace Provision.DirectoryStore

open FileSystem
open Provision.Path (Ordinary)

variable {s : DirectoryStore} {base : Location} {target : Target} {fs fs' : FileSystem}
  {name : FileName} {key : PackageKey}

/-! ## The directory of a package -/

/-- The name of a package's directory. -/
def packageName (key : PackageKey) : FileName :=
  Utf8.ofString s!"{key.id}-{keyHash key}"

theorem slash_ne_hexDigit (n : Nat) (h : n < 16) : Text.hexDigit n ≠ '/' := by
  have hall : ∀ m : Fin 16, Text.hexDigit m ≠ '/' := by decide
  exact hall ⟨n, h⟩

theorem slash_notMem_keyHash (key : PackageKey) : '/' ∉ (keyHash key).toList := by
  intro hmem
  rw [keyHash, String.toList_ofList] at hmem
  have hdigit := List.mem_of_mem_take hmem
  rw [Sha256.hexDigest, String.toList_ofList] at hdigit
  obtain ⟨b, -, hb⟩ := List.mem_flatMap.mp hdigit
  have hlt := b.toNat_lt
  rcases List.mem_cons.mp hb with heq | hb
  · exact slash_ne_hexDigit _ (by omega) heq.symm
  · exact slash_ne_hexDigit _ (by omega) (List.mem_singleton.mp hb).symm

/-- **An id without slashes makes an ordinary name.** -/
theorem ordinary_packageName (hid : '/' ∉ key.id.toList) : Ordinary (packageName key) := by
  have hname : packageName key = Utf8.ofString (key.id ++ "-" ++ keyHash key) := rfl
  rw [hname]
  refine Path.ordinary_of_mem (c := '-') (by simp) (by decide) ?_
  simpa [hid] using slash_notMem_keyHash key

/-! ## What stays while packages are changed -/

/-- The places that work on the packages of a target may change. -/
def Zone (base : Location) (target : Target) (fs : FileSystem) (x : Location) : Prop :=
  Layout.Absent base target fs x ∨ Below (packagesPlace base target) x

theorem not_below_packagesPlace {x : Location} (hx : x.length ≤ base.length + 2) :
    ¬ Below (packagesPlace base target) x := by
  rintro ⟨first, rest, rfl⟩
  simp [packagesPlace, targetPlace] at hx

theorem ne_recordsPlace_of_below {x : Location} (hx : Below (packagesPlace base target) x)
    (target' : Target) : x ≠ recordsPlace base target' := by
  rintro rfl
  exact not_below_packagesPlace (by simp [recordsPlace, targetPlace]) hx

theorem Layout.of_packages (h : Layout s base fs)
    (hsame : SameExcept (Below (packagesPlace base target)) fs fs')
    (hgrounded : Grounded base fs') : Layout s base fs' where
  root := by
    refine h.root.of_sameExcept (hsame.mono fun x hx => ?_)
    rw [packagesPlace, targetPlace, List.append_assoc] at hx
    exact hx.of_append
  grounded := hgrounded
  target target' := by
    rw [hsame.get? _ (not_below_packagesPlace (by simp [targetPlace]))]
    exact h.target target'
  packages target' := by
    rw [hsame.get? _ (not_below_packagesPlace (by simp [packagesPlace, targetPlace]))]
    exact h.packages target'
  records target' := by
    rw [hsame.get? _ (not_below_packagesPlace (by simp [recordsPlace, targetPlace]))]
    exact h.records target'

/-- **Nothing but the packages of a target has changed.** -/
structure Kept (s : DirectoryStore) (base : Location) (target : Target)
    (fs fs' : FileSystem) : Prop where
  layout : Layout s base fs'
  same : SameExcept (Zone base target fs) fs fs'

section Changes

variable (h : Layout s base fs) (hname : Ordinary name)
include h hname

theorem Layout.of_removeTree
    (hcall : fs.removeTree ((s.packagesDir target).join ⟨name⟩) = .ok fs') :
    SameExcept (Below (packagesPlace base target)) fs fs' ∧ Grounded base fs' := by
  obtain ⟨place, entry, hnames, -, -, rfl⟩ := (removeTree_child_iff hname).mp hcall
  obtain rfl := h.eq_of_enters_packagesDir hnames.enters
  exact ⟨(sameExcept_prune (by simp)).mono fun _ => below_of_isPrefix_child,
    h.grounded.prune (by simp)⟩

theorem Layout.of_getD_removeTree : SameExcept (Below (packagesPlace base target)) fs
      ((fs.removeTree ((s.packagesDir target).join ⟨name⟩)).toOption.getD fs) ∧
    Grounded base ((fs.removeTree ((s.packagesDir target).join ⟨name⟩)).toOption.getD fs) := by
  cases hcall : fs.removeTree ((s.packagesDir target).join ⟨name⟩) with
  | error cause => exact ⟨.refl _ _, h.grounded⟩
  | ok fs' => exact h.of_removeTree hname hcall

end Changes

end Provision.DirectoryStore
