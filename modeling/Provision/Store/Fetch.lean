import Provision.Files.Lookup
import Provision.Store.Basic
import Provision.Text

/-!
# Fetching payloads

A payload lies wherever its url points to; a `Fetch` gets it from there.  On the local file
system it is named by a plain path or by a `file://` url.  Its bytes arrive in pieces, and
after each piece it is told how many have arrived.
-/

namespace Provision

/-- What was fetched, and what was reported on the way. -/
structure Fetched where
  progress : List Progress
  content : Except DownloadError Bytes

/-- Fetches what a url points to. -/
abbrev Fetch := (url : String) → FileSystem → Fetched

/-- How the bytes of a file arrive: in pieces, none of which is empty. -/
structure Arrival where
  pieces : Bytes → List Bytes
  flatten_pieces : ∀ content, (pieces content).flatten = content
  ne_nil_of_mem_pieces : ∀ content, ∀ piece ∈ pieces content, piece ≠ []

namespace Arrival

/-- Cuts bytes into at most `most` pieces of the given size. -/
def cut (size : Nat) : (most : Nat) → Bytes → List Bytes
  | 0, _ => []
  | most + 1, bytes =>
    if bytes = [] then [] else bytes.take size :: cut size most (bytes.drop size)

theorem flatten_cut {size : Nat} (hsize : 0 < size) (most : Nat) (bytes : Bytes)
    (h : bytes.length ≤ most) : (cut size most bytes).flatten = bytes := by
  induction most generalizing bytes with
  | zero => simp_all [cut]
  | succ most ih =>
    unfold cut
    split
    · simp_all
    · rw [List.flatten_cons, ih]
      · exact List.take_append_drop ..
      · rw [List.length_drop]
        omega

theorem ne_nil_of_mem_cut {size : Nat} (hsize : 0 < size) (most : Nat) (bytes : Bytes) :
    ∀ piece ∈ cut size most bytes, piece ≠ [] := by
  induction most generalizing bytes with
  | zero => simp [cut]
  | succ most ih =>
    unfold cut
    split
    · simp
    · intro piece h
      cases List.mem_cons.1 h with
      | inl h =>
        subst h
        simp only [ne_eq, List.take_eq_nil_iff, not_or]
        exact ⟨by omega, by assumption⟩
      | inr h => exact ih _ piece h

/-- Every piece but the last has the given size. -/
def blocks (size : Nat) (hsize : 0 < size) : Arrival where
  pieces content := cut size content.length content
  flatten_pieces content := flatten_cut hsize _ content (Nat.le_refl _)
  ne_nil_of_mem_pieces content := ne_nil_of_mem_cut hsize _ content

/-- The pieces that local files arrive in. -/
def usual : Arrival :=
  blocks 65536 (by decide)

end Arrival

/-- The local path of a url. -/
def sourcePath (url : String) : Except DownloadError Path :=
  match "file://".toList.isPrefixOf? url.toList with
  | some path => .ok (.ofString (String.ofList path))
  | none =>
    if Text.holds "://".toList url.toList then .error (.unsupportedUrl url)
    else .ok (.ofString url)

/-- What is reported while pieces arrive, after `current` bytes of `total`. -/
def progressAfter (total : Nat) : (current : Nat) → (pieces : List Bytes) → List Progress
  | _, [] => []
  | current, piece :: rest =>
    ⟨current + piece.length, total⟩ :: progressAfter total (current + piece.length) rest

/-- Fetches what a url points to on the local file system. -/
def fetchLocal (arrival : Arrival) : Fetch := fun url fs =>
  match sourcePath url with
  | .error cause => ⟨[], .error cause⟩
  | .ok path =>
    match fs.find? path with
    | .error cause => ⟨[], .error (.io cause.message)⟩
    | .ok (_, .file content) =>
      let pieces := arrival.pieces content
      ⟨⟨0, content.length⟩ :: progressAfter content.length 0 pieces, .ok pieces.flatten⟩
    | .ok (_, entry) => ⟨[⟨0, entry.size⟩], .error (.io FileError.isDirectory.message)⟩

end Provision
