import Mathlib.Data.List.Basic
import Mathlib.Tactic.SplitIfs
import Provision.Json.Token
import Provision.Json.Value

/-!
# The tokens of a written value

What is written is cut into the tokens that the value is made of: a text is found whole between
its quotes (`tokens_quote`), a number ends with its digits (`tokens_toDigits`), and the layout
leaves no trace (`tokens_pretty`, `tokens_compact`).
-/
namespace Provision.Json

variable {read rest cs : List Char} {c : Char}

/-! ## Quoted texts -/

theorem scanQuoted_plain (hquote : c ≠ '"') (hbackslash : c ≠ '\\') (hcontrol : ¬ c.toNat < 0x20) :
    scanQuoted ⟨.ok read, none⟩ (c :: rest) = scanQuoted ⟨.ok (c :: read), none⟩ rest := by
  rw [scanQuoted]
  · rw [if_neg hcontrol]
    rfl
  all_goals simp_all

theorem scanQuoted_unescape {e : Char} (hu : e ≠ 'u') (h : unescape? e = some c) :
    scanQuoted ⟨.ok read, none⟩ ('\\' :: e :: rest) = scanQuoted ⟨.ok (c :: read), none⟩ rest := by
  rw [scanQuoted]
  · rw [h]
    rfl
  all_goals simp_all

theorem unit?_control {n : Nat} (hn : n < 0x20) :
    unit? '0' '0' (Text.hexDigit (n / 16)) (Text.hexDigit (n % 16)) = some n := by
  have hzero : Text.hexValue? '0' = some 0 := rfl
  rw [unit?, hzero, Text.hexValue?_hexDigit (by omega), Text.hexValue?_hexDigit (by omega)]
  exact congrArg some (by omega)

theorem scanQuoted_unit (hc : c.toNat < 0x20) : scanQuoted ⟨.ok read, none⟩ ('\\' :: 'u' :: '0' ::
    '0' :: Text.hexDigit (c.toNat / 16) :: Text.hexDigit (c.toNat % 16) :: rest) =
      scanQuoted ⟨.ok (c :: read), none⟩ rest := by
  rw [scanQuoted, unit?_control hc]
  have hpush : Content.pushUnit ⟨.ok read, none⟩ c.toNat = ⟨.ok (c :: read), none⟩ := by
    simp only [Content.pushUnit]
    rw [if_neg (by omega), if_neg (by omega), Char.ofNat_toNat]
    rfl
  simp only [hpush]

theorem eq_ofNat_of_toNat {n : Nat} (h : c.toNat = n) : c = Char.ofNat n := by
  rw [← h, Char.ofNat_toNat]

/-- A character is read back from its escape. -/
theorem scanQuoted_escape (c : Char) : scanQuoted ⟨.ok read, none⟩ (escape c ++ rest) =
    scanQuoted ⟨.ok (c :: read), none⟩ rest := by
  unfold escape
  split_ifs with h1 h2 h3 h4 h5 h6 h7 h8
  · exact scanQuoted_unescape (by decide) (by rw [h1]; rfl)
  · exact scanQuoted_unescape (by decide) (by rw [h2]; rfl)
  · exact scanQuoted_unescape (by decide) (h3 ▸ rfl)
  · exact scanQuoted_unescape (by decide) (h4 ▸ rfl)
  · exact scanQuoted_unescape (by decide) (h5 ▸ rfl)
  · exact scanQuoted_unescape (by decide) (eq_ofNat_of_toNat h6 ▸ rfl)
  · exact scanQuoted_unescape (by decide) (eq_ofNat_of_toNat h7 ▸ rfl)
  · exact scanQuoted_unit h8
  · exact scanQuoted_plain h1 h2 h8

theorem scanQuoted_flatMap_escape (cs : List Char) :
    scanQuoted ⟨.ok read, none⟩ (cs.flatMap escape ++ rest) =
      scanQuoted ⟨.ok (cs.reverse ++ read), none⟩ rest := by
  induction cs generalizing read with
  | nil => rfl
  | cons c cs ih =>
    rw [List.flatMap_cons, List.append_assoc, scanQuoted_escape, ih, List.reverse_cons,
      List.append_assoc]
    rfl

/-! ## One token -/

theorem tokens_blank (hc : isBlank c = true) : tokens (c :: rest) = tokens rest := by
  rw [tokens, if_pos hc]

theorem tokens_mark {token : Token} (hblank : isBlank c = false) (h : mark? c = some token) :
    tokens (c :: rest) = token :: tokens rest := by
  rw [tokens, if_neg (by simp [hblank])]
  simp only [h]

theorem tokens_word {token : Token} {word : List Char} (hblank : isBlank c = false)
    (hmark : mark? c = none) (h : word? c = some (word, token)) :
    tokens (c :: (word ++ rest)) = token :: tokens rest := by
  have hscan : ∀ word, scanWord word (word ++ rest) = .ok rest := by
    intro word
    induction word with
    | nil => rfl
    | cons c word ih => rw [List.cons_append, scanWord, if_pos rfl, ih]
  rw [tokens, if_neg (by simp [hblank])]
  simp only [hmark, h]
  split
  · rename_i after hafter
    rw [hscan] at hafter
    cases hafter
    rfl
  · rename_i hafter
    rw [hscan] at hafter
    cases hafter

theorem tokens_quoted {content : Quoted} (h : scanQuoted .start cs = .closed content rest) :
    tokens ('"' :: cs) = .text content :: tokens rest := by
  have hmark : mark? '"' = none := rfl
  have hword : word? '"' = none := rfl
  rw [tokens, if_neg (by decide)]
  simp only [hmark, hword, if_true]
  split
  · rename_i hscan
    cases h.symm.trans hscan
    rfl
  · rename_i hscan
    cases h.symm.trans hscan

/-- **A text is read back from its quotes.** -/
theorem tokens_quote (s : String) (rest : List Char) :
    tokens (quote s ++ rest) = .text (.ok s) :: tokens rest := by
  have hclose : Content.close ⟨.ok (s.toList.reverse ++ []), none⟩ = .ok s := by
    simp [Content.close, Content.endLead, Except.map]
  rw [quote, List.cons_append, List.append_assoc, List.singleton_append]
  refine tokens_quoted ?_
  rw [Content.start, scanQuoted_flatMap_escape, scanQuoted, hclose]

/-! ## Numbers -/

/-- A text before which a number ends. -/
def EndsNumber (rest : List Char) : Prop :=
  ∀ c ∈ rest.head?, c.isDigit = false ∧ c ≠ '.' ∧ c ≠ 'e' ∧ c ≠ 'E'

/-- Only zero is written with a zero at its start. -/
theorem head?_toDigits {n : Nat} (hn : 0 < n) : (Nat.toDigits 10 n).head? ≠ some '0' := by
  induction n using Nat.strongRecOn with
  | ind n ih =>
    rw [Nat.toDigits_eq_if (by decide)]
    split
    · rename_i hlt
      have hdigit : ∀ d : Fin 10, 0 < d.val → Nat.digitChar d.val ≠ '0' := by decide
      exact fun h => hdigit ⟨n, hlt⟩ hn (Option.some.inj h)
    · rw [List.head?_append_of_ne_nil _ Nat.toDigits_ne_nil]
      exact ih (n / 10) (by omega) (by omega)

theorem isDigit_of_mem_toDigits {n : Nat} (h : c ∈ Nat.toDigits 10 n) : c.isDigit = true :=
  Nat.isDigit_of_mem_toDigits (by decide) (by decide) h

theorem digits_append {n : Nat} (hrest : EndsNumber rest) :
    leadingDigits (Nat.toDigits 10 n ++ rest) = Nat.toDigits 10 n ∧
      afterDigits (Nat.toDigits 10 n ++ rest) = rest := by
  have hall : ∀ c ∈ Nat.toDigits 10 n, c.isDigit = true := fun c => isDigit_of_mem_toDigits
  have hend : rest.takeWhile Char.isDigit = [] ∧ rest.dropWhile Char.isDigit = rest := by
    cases rest with
    | nil => exact ⟨rfl, rfl⟩
    | cons c rest =>
      obtain ⟨hc, -⟩ := hrest c rfl
      exact ⟨List.takeWhile_cons_of_neg (by simp [hc]), List.dropWhile_cons_of_neg (by simp [hc])⟩
  rw [leadingDigits, afterDigits, List.takeWhile_append_of_pos hall,
    List.dropWhile_append_of_pos hall, hend.1, hend.2, List.append_nil]
  exact ⟨rfl, rfl⟩

theorem scanNumber_toDigits (n : Nat) (hrest : EndsNumber rest) :
    scanNumber false (Nat.toDigits 10 n ++ rest) =
      .read ⟨false, Nat.toDigits 10 n, none, none⟩ rest := by
  obtain ⟨hleading, hafter⟩ := digits_append (n := n) hrest
  have hfraction : scanFraction false (Nat.toDigits 10 n) rest =
      .read ⟨false, Nat.toDigits 10 n, none, none⟩ rest := by
    cases rest with
    | nil => rfl
    | cons c rest =>
      obtain ⟨-, hpoint, he, hE⟩ := hrest c rfl
      rw [scanFraction, scanExponent, if_neg (by simp [he, hE])]
      intro rest' h
      cases h
      exact hpoint rfl
  rw [scanNumber, hleading, hafter]
  split
  · rename_i h
    exact absurd h Nat.toDigits_ne_nil
  · rename_i d ds h
    have hn : n = 0 := by
      by_contra hn
      exact head?_toDigits (Nat.pos_of_ne_zero hn) (by rw [h]; rfl)
    rw [hn, Nat.toDigits_zero] at h
    cases h
  · exact hfraction

theorem ne_of_isDigit {d : Char} (hc : c.isDigit = true) (hd : d.isDigit = false) : c ≠ d :=
  fun h => absurd (h ▸ hc) (by simp [hd])

/-- A number is read from its first digit on. -/
theorem tokens_numeral {numeral : Numeral} (hc : c.isDigit = true)
    (h : scanNumber false (c :: cs) = .read numeral rest) :
    tokens (c :: cs) = .number numeral :: tokens rest := by
  have hne {d : Char} (hd : d.isDigit = false) : c ≠ d := ne_of_isDigit hc hd
  have hblank : isBlank c = false := by
    simp [isBlank, hne (d := ' ') rfl, hne (d := '\n') rfl, hne (d := '\t') rfl,
      hne (d := '\r') rfl]
  have hmark : mark? c = none := by
    simp [mark?, hne (d := '[') rfl, hne (d := ']') rfl, hne (d := '\x7b') rfl,
      hne (d := '\x7d') rfl, hne (d := ',') rfl, hne (d := ':') rfl]
  have hword : word? c = none := by
    simp [word?, hne (d := 'n') rfl, hne (d := 't') rfl, hne (d := 'f') rfl]
  rw [tokens, if_neg (by simp [hblank])]
  simp only [hmark, hword]
  rw [if_neg (hne rfl), if_neg (hne rfl), dif_pos hc]
  split
  · rename_i hscan
    cases h.symm.trans hscan
    rfl
  · rename_i hscan
    cases h.symm.trans hscan

/-- **A number is read back from its digits**, where it ends with them. -/
theorem tokens_toDigits (n : Nat) (hrest : EndsNumber rest) :
    tokens (Nat.toDigits 10 n ++ rest) =
      .number ⟨false, Nat.toDigits 10 n, none, none⟩ :: tokens rest := by
  have hscan := scanNumber_toDigits n hrest
  obtain ⟨c, cs, hdigits⟩ := List.exists_cons_of_ne_nil (@Nat.toDigits_ne_nil n 10)
  have hc : c.isDigit = true := by
    refine isDigit_of_mem_toDigits (n := n) ?_
    rw [hdigits]
    exact List.mem_cons_self
  rw [hdigits] at hscan ⊢
  exact tokens_numeral hc hscan

/-! ## The tokens of a value -/

mutual

/-- The tokens of a value. -/
def marks : Json → List Token
  | null => [.null]
  | bool b => [.bool b]
  | number n => [.number ⟨false, Nat.toDigits 10 n, none, none⟩]
  | string s => [.text (.ok s)]
  | array items => .openArray :: marksOfItems items
  | object members => .openObject :: marksOfMembers members

/-- The tokens of the items of an array with the bracket that ends it. -/
def marksOfItems : List Json → List Token
  | [] => [.closeArray]
  | [item] => marks item ++ [.closeArray]
  | item :: rest => marks item ++ .comma :: marksOfItems rest

/-- The tokens of the members of an object with the brace that ends it. -/
def marksOfMembers : List (String × Json) → List Token
  | [] => [.closeObject]
  | [member] => marksOfMember member ++ [.closeObject]
  | member :: rest => marksOfMember member ++ .comma :: marksOfMembers rest

/-- The tokens of a member of an object. -/
def marksOfMember : String × Json → List Token
  | (name, value) => .text (.ok name) :: .colon :: marks value

end

theorem tokens_newline (level : Nat) (rest : List Char) :
    tokens (newline level ++ rest) = tokens rest := by
  rw [newline, List.cons_append, tokens_blank rfl]
  induction 2 * level with
  | zero => rfl
  | succ n ih => rw [List.replicate_succ, List.cons_append, tokens_blank rfl, ih]

theorem endsNumber_cons (hdigit : c.isDigit = false) (hpoint : c ≠ '.') (he : c ≠ 'e')
    (hE : c ≠ 'E') : EndsNumber (c :: rest) := by
  intro d hd
  cases hd
  exact ⟨hdigit, hpoint, he, hE⟩

theorem endsNumber_comma : EndsNumber (',' :: rest) :=
  endsNumber_cons (by decide) (by decide) (by decide) (by decide)

theorem endsNumber_newline (level : Nat) : EndsNumber (newline level ++ rest) :=
  endsNumber_cons (by decide) (by decide) (by decide) (by decide)

mutual

/-- **A value is written with its tokens**, wherever it stands. -/
theorem tokens_pretty (level : Nat) (v : Json) {rest : List Char} (hrest : EndsNumber rest) :
    tokens (v.pretty level ++ rest) = v.marks ++ tokens rest := by
  match v with
  | null => exact tokens_word rfl rfl rfl
  | bool true => exact tokens_word rfl rfl rfl
  | bool false => exact tokens_word rfl rfl rfl
  | number n =>
    rw [pretty, compact, marks, Nat.toString_eq_ofList_toDigits, String.toList_ofList,
      tokens_toDigits n hrest]
    rfl
  | string s => exact tokens_quote s rest
  | array [] =>
    rw [pretty, marks, marksOfItems, List.cons_append, tokens_mark rfl rfl, List.cons_append,
      tokens_mark rfl rfl]
    rfl
  | array (item :: items) =>
    rw [pretty, marks, List.cons_append, List.cons_append, tokens_mark rfl rfl, List.append_assoc,
      tokens_newline, tokens_prettyItems]
    rfl
  | object [] =>
    rw [pretty, marks, marksOfMembers, List.cons_append, tokens_mark rfl rfl, List.cons_append,
      tokens_mark rfl rfl]
    rfl
  | object (member :: members) =>
    rw [pretty, marks, List.cons_append, List.cons_append, tokens_mark rfl rfl, List.append_assoc,
      tokens_newline, tokens_prettyMembers]
    rfl

theorem tokens_prettyItems (level : Nat) (items : List Json) (rest : List Char) :
    tokens (prettyItems level items ++ rest) = marksOfItems items ++ tokens rest := by
  match items with
  | [] => exact tokens_mark rfl rfl
  | [item] =>
    rw [prettyItems, marksOfItems, List.append_assoc, List.append_assoc,
      tokens_pretty (level + 1) item (endsNumber_newline level), tokens_newline,
      List.singleton_append, tokens_mark rfl rfl, List.append_assoc]
    rfl
  | item :: next :: items =>
    rw [prettyItems, marksOfItems, List.append_assoc, List.append_assoc, List.cons_append,
      tokens_pretty (level + 1) item endsNumber_comma, tokens_mark rfl rfl, tokens_newline,
      tokens_prettyItems level (next :: items) rest, List.append_assoc]
    · rfl
    all_goals simp

theorem tokens_prettyMembers (level : Nat) (members : List (String × Json)) (rest : List Char) :
    tokens (prettyMembers level members ++ rest) = marksOfMembers members ++ tokens rest := by
  match members with
  | [] => exact tokens_mark rfl rfl
  | [member] =>
    rw [prettyMembers, marksOfMembers, List.append_assoc, List.append_assoc,
      tokens_prettyMember level member (endsNumber_newline level), tokens_newline,
      List.singleton_append, tokens_mark rfl rfl, List.append_assoc]
    rfl
  | member :: next :: members =>
    rw [prettyMembers, marksOfMembers, List.append_assoc, List.append_assoc, List.cons_append,
      tokens_prettyMember level member endsNumber_comma, tokens_mark rfl rfl, tokens_newline,
      tokens_prettyMembers level (next :: members) rest, List.append_assoc]
    · rfl
    all_goals simp

theorem tokens_prettyMember (level : Nat) (member : String × Json) {rest : List Char}
    (hrest : EndsNumber rest) :
    tokens (prettyMember level member ++ rest) = marksOfMember member ++ tokens rest := by
  match member with
  | (name, value) =>
    rw [prettyMember, marksOfMember, List.append_assoc, List.cons_append, List.cons_append,
      tokens_quote, tokens_mark rfl rfl, tokens_blank rfl, tokens_pretty (level + 1) value hrest]
    rfl

end

/-! The compact text is cut into the same tokens. -/

theorem endsNumber_closeArray : EndsNumber (']' :: rest) :=
  endsNumber_cons (by decide) (by decide) (by decide) (by decide)

theorem endsNumber_closeObject : EndsNumber ('\x7d' :: rest) :=
  endsNumber_cons (by decide) (by decide) (by decide) (by decide)

mutual

/-- **A value is written with its tokens** in its compact text, too. -/
theorem tokens_compact (v : Json) {rest : List Char} (hrest : EndsNumber rest) :
    tokens (v.compact ++ rest) = v.marks ++ tokens rest := by
  match v with
  | null => exact tokens_pretty 0 null hrest
  | bool b => exact tokens_pretty 0 (bool b) hrest
  | number n => exact tokens_pretty 0 (number n) hrest
  | string s => exact tokens_quote s rest
  | array items =>
    rw [compact, marks, List.cons_append, List.cons_append, tokens_mark rfl rfl,
      tokens_compactItems]
  | object members =>
    rw [compact, marks, List.cons_append, List.cons_append, tokens_mark rfl rfl,
      tokens_compactMembers]

theorem tokens_compactItems (items : List Json) (rest : List Char) :
    tokens (compactItems items ++ rest) = marksOfItems items ++ tokens rest := by
  match items with
  | [] => exact tokens_mark rfl rfl
  | [item] =>
    rw [compactItems, marksOfItems, List.append_assoc, List.singleton_append,
      tokens_compact item endsNumber_closeArray, tokens_mark rfl rfl, List.append_assoc]
    rfl
  | item :: next :: items =>
    rw [compactItems, marksOfItems, List.append_assoc, List.cons_append,
      tokens_compact item endsNumber_comma, tokens_mark rfl rfl,
      tokens_compactItems (next :: items) rest, List.append_assoc]
    · rfl
    all_goals simp

theorem tokens_compactMembers (members : List (String × Json)) (rest : List Char) :
    tokens (compactMembers members ++ rest) = marksOfMembers members ++ tokens rest := by
  match members with
  | [] => exact tokens_mark rfl rfl
  | [member] =>
    rw [compactMembers, marksOfMembers, List.append_assoc, List.singleton_append,
      tokens_compactMember member endsNumber_closeObject, tokens_mark rfl rfl, List.append_assoc]
    rfl
  | member :: next :: members =>
    rw [compactMembers, marksOfMembers, List.append_assoc, List.cons_append,
      tokens_compactMember member endsNumber_comma, tokens_mark rfl rfl,
      tokens_compactMembers (next :: members) rest, List.append_assoc]
    · rfl
    all_goals simp

theorem tokens_compactMember (member : String × Json) {rest : List Char}
    (hrest : EndsNumber rest) :
    tokens (compactMember member ++ rest) = marksOfMember member ++ tokens rest := by
  match member with
  | (name, value) =>
    rw [compactMember, marksOfMember, List.append_assoc, List.cons_append, tokens_quote,
      tokens_mark rfl rfl, tokens_compact value hrest]
    rfl

end

end Provision.Json
