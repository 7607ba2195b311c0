/-!
# Loops

A loop is given by what one turn of it does with its state: it goes on with another one, or ends
with an answer.  `Ends` says that a loop comes to an end after so many turns; a loop ends in one way
only (`Ends.unique`), and it does end if every turn takes something away of which there is only so
much (`exists_ends_of_decreasing`).
-/
namespace Provision

variable {σ ρ : Type} {turn : σ → σ ⊕ ρ} {s s' s'' : σ} {n m : Nat} {answer answer' : ρ}

/-- **Turns of a loop** that lead from one state to another. -/
inductive Turns (turn : σ → σ ⊕ ρ) : Nat → σ → σ → Prop
  | none {s : σ} : Turns turn 0 s s
  | more {n : Nat} {s s' s'' : σ} (hturn : turn s = .inl s') (hrest : Turns turn n s' s'') :
    Turns turn (n + 1) s s''

theorem Turns.one (h : turn s = .inl s') : Turns turn 1 s s' :=
  .more h .none

theorem Turns.trans (h : Turns turn n s s') (h' : Turns turn m s' s'') :
    Turns turn (n + m) s s'' := by
  induction h with
  | none => rwa [Nat.zero_add]
  | more hturn _ ih =>
    rw [Nat.add_right_comm]
    exact .more hturn (ih h')

/-- **A loop ends** with an answer, after it has gone on for so many turns. -/
inductive Ends (turn : σ → σ ⊕ ρ) : Nat → σ → ρ → Prop
  | now {s : σ} {answer : ρ} (hturn : turn s = .inr answer) : Ends turn 0 s answer
  | more {n : Nat} {s s' : σ} {answer : ρ} (hturn : turn s = .inl s')
    (hrest : Ends turn n s' answer) : Ends turn (n + 1) s answer

theorem Turns.ends (h : Turns turn n s s') (hends : Ends turn m s' answer) :
    Ends turn (n + m) s answer := by
  induction h with
  | none => rwa [Nat.zero_add]
  | more hturn _ ih =>
    rw [Nat.add_right_comm]
    exact .more hturn (ih hends)

/-- **A loop ends in one way only.** -/
theorem Ends.unique (h : Ends turn n s answer) (h' : Ends turn m s answer') :
    n = m ∧ answer = answer' := by
  induction h generalizing m with
  | now hturn =>
    cases h' with
    | now hturn' => exact ⟨rfl, Sum.inr.inj (hturn.symm.trans hturn')⟩
    | more hturn' => cases hturn.symm.trans hturn'
  | more hturn _ ih =>
    cases h' with
    | now hturn' => cases hturn.symm.trans hturn'
    | more hturn' hrest =>
      obtain rfl := Sum.inl.inj (hturn.symm.trans hturn')
      obtain ⟨rfl, heq⟩ := ih hrest
      exact ⟨rfl, heq⟩

/-- **A loop ends if every turn takes something away**; what it keeps in order all the while holds
of the state in which it ends. -/
theorem exists_ends_of_decreasing {invariant : σ → Prop} (remaining : σ → Nat)
    (hturn : ∀ s s', invariant s → turn s = .inl s' → invariant s' ∧ remaining s' < remaining s)
    (hs : invariant s) : ∃ n ≤ remaining s, ∃ last answer, Ends turn n s answer ∧
      invariant last ∧ turn last = .inr answer := by
  induction hn : remaining s using Nat.strongRecOn generalizing s with
  | ind n ih =>
    cases hnext : turn s with
    | inr answer => exact ⟨0, Nat.zero_le n, s, answer, .now hnext, hs, hnext⟩
    | inl s' =>
      obtain ⟨hs', hlt⟩ := hturn s s' hs hnext
      obtain ⟨m, hm, last, answer, hends, hlast⟩ := ih _ (hn ▸ hlt) hs' rfl
      exact ⟨m + 1, by omega, last, answer, .more hnext hends, hlast⟩

end Provision
