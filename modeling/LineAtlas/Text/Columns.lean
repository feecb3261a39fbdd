namespace LineAtlas.Columns

/-!
# Text in columns

Columns are filled with spaces on the right. Widths count characters, and a
longer text is never cut.
-/

/-- A text filled to `width` characters. -/
def padded
    (width : Nat)
    (text : String) :
    String :=
  text ++ String.ofList (List.replicate (width - text.length) ' ')

/-- A line of `width` hyphens. -/
def rule (width : Nat) : String :=
  String.ofList (List.replicate width '-')

/-- The lines of a text, each with its line end. -/
def paragraph (lines : List String) : String :=
  String.join (lines.map (· ++ "\n"))

end LineAtlas.Columns
