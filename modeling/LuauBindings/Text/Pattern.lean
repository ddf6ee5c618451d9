/-!
# Occurrences of a fixed text

`pieces p s` cuts `s` at the occurrences of `p`, found from left to right without overlap, and
`replaceAll p r s` writes `r` between the pieces. Every fixed text the program looks for is
non-empty; the empty pattern cuts before every character.
-/

namespace LuauBindings.Text

/-- Whether `p` stands somewhere in `s`. -/
def occursIn (p : List Char) : List Char → Bool
  | [] => p.isEmpty
  | c :: s => p.isPrefixOf (c :: s) || occursIn p s

/-- The pieces of a text after its first `skip` characters, which belong to an occurrence of `p`
already found. -/
def piecesFrom (p : List Char) : (skip : Nat) → List Char → List (List Char)
  | _, [] => [[]]
  | skip + 1, _ :: s => piecesFrom p skip s
  | 0, c :: s =>
    if p.isPrefixOf (c :: s) then [] :: piecesFrom p (p.length - 1) s
    else (piecesFrom p 0 s).modifyHead (c :: ·)

/-- The parts of `s` between the occurrences of `p`; one part more than there are occurrences. -/
def pieces (p s : List Char) : List (List Char) :=
  piecesFrom p 0 s

/-- `s` with `r` in place of every occurrence of `p`. -/
def replaceAll (p r s : List Char) : List Char :=
  r.intercalate (pieces p s)

/-- Whether `p` stands somewhere in `s`. -/
def contains (s p : String) : Bool :=
  occursIn p.toList s.toList

/-- `s` with `r` in place of every occurrence of `p`. -/
def replace (s p r : String) : String :=
  String.ofList (replaceAll p.toList r.toList s.toList)

@[simp] theorem toList_replace (s p r : String) :
    (replace s p r).toList = replaceAll p.toList r.toList s.toList := by
  simp [replace]

theorem occursIn_iff {p s : List Char} : occursIn p s = true ↔ p <:+: s := by
  induction s with
  | nil => simp [occursIn]
  | cons c s ih =>
    rw [occursIn, Bool.or_eq_true, ih, List.isPrefixOf_iff_prefix, List.infix_cons_iff]

theorem contains_iff {s p : String} : contains s p = true ↔ p.toList <:+: s.toList :=
  occursIn_iff

@[simp] theorem pieces_nil (p : List Char) : pieces p [] = [[]] := rfl

theorem piecesFrom_ne_nil (p : List Char) (skip : Nat) (s : List Char) :
    piecesFrom p skip s ≠ [] := by
  induction s generalizing skip with
  | nil => simp [piecesFrom]
  | cons c s ih =>
    cases skip with
    | succ skip => simpa [piecesFrom] using ih skip
    | zero =>
      rw [piecesFrom]
      split
      · simp
      · intro h
        have := congrArg List.length h
        simp only [List.length_modifyHead, List.length_nil, List.length_eq_zero_iff] at this
        exact ih 0 this

end LuauBindings.Text
