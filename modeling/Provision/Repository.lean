import Provision.Package

/-!
# Repositories

A repository holds packages under its url and channel.  Its packages are kept in
the order of their keys, one package a key; `insert` keeps that order, so it is part
of the type.
-/

namespace Provision

namespace PackageList

/-- Packages in strictly ascending order of their keys. -/
def Sorted (packages : List Package) : Prop :=
  packages.Pairwise fun p q => compare p.key q.key = .lt

/-- Adds a package at its place, in place of one with the same key. -/
def insert (package : Package) : List Package → List Package
  | [] => [package]
  | p :: rest =>
    match compare package.key p.key with
    | .lt => package :: p :: rest
    | .eq => package :: rest
    | .gt => p :: insert package rest

theorem mem_insert {package p : Package} {packages : List Package}
    (h : p ∈ insert package packages) : p = package ∨ p ∈ packages := by
  induction packages with
  | nil => simp_all [insert]
  | cons q rest ih =>
    unfold insert at h
    split at h
    · simp_all
    · simp_all only [List.mem_cons]
      cases h with
      | inl h => exact .inl h
      | inr h => exact .inr (.inr h)
    · simp only [List.mem_cons] at h ⊢
      cases h with
      | inl h => exact .inr (.inl h)
      | inr h => cases ih h with
        | inl h => exact .inl h
        | inr h => exact .inr (.inr h)

theorem Sorted.insert {packages : List Package} (h : Sorted packages) (package : Package) :
    Sorted (insert package packages) := by
  induction packages with
  | nil => simp [PackageList.insert, Sorted]
  | cons q rest ih =>
    obtain ⟨hq, hrest⟩ := List.pairwise_cons.1 h
    unfold PackageList.insert
    split
    · next hlt =>
      refine List.pairwise_cons.2 ⟨fun p hp => ?_, h⟩
      cases List.mem_cons.1 hp with
      | inl hp => exact hp ▸ hlt
      | inr hp => exact Std.TransCmp.lt_trans hlt (hq p hp)
    · next heq =>
      refine List.pairwise_cons.2 ⟨fun p hp => ?_, hrest⟩
      rw [Std.LawfulEqCmp.eq_of_compare heq]
      exact hq p hp
    · next hgt =>
      refine List.pairwise_cons.2 ⟨fun p hp => ?_, ih hrest⟩
      cases mem_insert hp with
      | inl hp => exact hp ▸ Std.OrientedCmp.lt_of_gt hgt
      | inr hp => exact hq p hp

end PackageList

/-- One repository at one channel. -/
structure Repository where
  url : String
  channel : Option String
  /-- The packages in the order of their keys. -/
  packages : List Package
  sorted : PackageList.Sorted packages

namespace Repository

/-- A repository without packages. -/
def empty (url : String) (channel : Option String) : Repository where
  url := PackageKey.normalizeUrl url
  channel := PackageKey.normalizeChannel channel
  packages := []
  sorted := List.Pairwise.nil

/-- The key that a package of a given id has in the repository. -/
def keyFor (r : Repository) (id : String) : PackageKey :=
  PackageKey.make r.url id r.channel

/-- Adds a package, or replaces the one with the same key. -/
def insert (r : Repository) (package : Package) : Repository :=
  { r with
    packages := PackageList.insert package r.packages
    sorted := r.sorted.insert package }

/-- The package of a key. -/
def get? (r : Repository) (key : PackageKey) : Option Package :=
  r.packages.find? fun p => p.key = key

/-- The number of packages. -/
def size (r : Repository) : Nat :=
  r.packages.length

def isEmpty (r : Repository) : Bool :=
  r.packages.isEmpty

end Repository

end Provision
