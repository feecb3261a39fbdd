namespace LineAtlas.Similarity

/-!
# How alike two words are

The Jaro similarity counts the characters that two words share at nearly the
same place, and how many of those stand in another order. It is the mean of three
fractions: what is shared of either word, and what of that stands in order.
-/

/-- A word whose characters can be used up one by one. -/
abbrev Marked :=
  List (Char × Bool)

/--
Uses up the first free `character` among those that stand at most `reach` from
place `target`; `index` is the place of the first character of the list.
-/
def claim?
    (character : Char)
    (reach target index : Nat) :
    Marked → Option Marked
  | [] => none
  | (candidate, used) :: rest =>
      if candidate = character ∧ used = false ∧ target ≤ index + reach ∧ index ≤ target + reach then
        some ((candidate, true) :: rest)
      else
        (claim? character reach target (index + 1) rest).map ((candidate, used) :: ·)

/-- The characters of the first word that find a partner, and the second word after that. -/
def partners
    (reach index : Nat)
    (second : Marked) :
    List Char → List Char × Marked
  | [] => ([], second)
  | character :: rest =>
      match claim? character reach index 0 second with
      | some claimed =>
          let later := partners reach (index + 1) claimed rest
          (character :: later.1, later.2)
      | none => partners reach (index + 1) second rest

/-- How far apart partners may stand in words of these lengths. -/
def reach (firstLength secondLength : Nat) : Nat :=
  max firstLength secondLength / 2 - 1

/-- A fraction in double precision. -/
def fraction (part whole : Nat) : Float :=
  Float.ofNat part / Float.ofNat whole

/--
The similarity of two words, from 0 to 1.

Words without shared characters have none, unless both are empty. The fractions
are added from left to right in double precision, so a mean that would be a
round number may come out next to it.
-/
def between (first second : List Char) : Float :=
  let found :=
    partners (reach first.length second.length) 0 (second.map (·, false)) first
  let shared := found.1.length
  let partnersInOrder := (found.2.filter (·.2)).map (·.1)
  let moved := ((found.1.zip partnersInOrder).filter fun pair => pair.1 ≠ pair.2).length / 2
  if first.isEmpty ∧ second.isEmpty then
    1
  else if shared = 0 then
    0
  else
    (fraction shared first.length + fraction shared second.length
      + fraction (shared - moved) shared) / 3

end LineAtlas.Similarity
