namespace LineAtlas

/-!
# Options

Two choices are left to the reader of line information: what the instruction
`const_add_pc` does, and which file a row is attributed to.
-/

/-- What `const_add_pc` does to the address. -/
inductive ConstAddPc where
  /-- Nothing. -/
  | ignore
  /-- The advance of special opcode 255. -/
  | standard
  deriving Repr, DecidableEq, Inhabited

/-- The file that a row is attributed to. -/
inductive Attribution where
  /-- The first file of the row's table. -/
  | firstFile
  /-- The file that the row names, or the first one if there is no such file. -/
  | perRow
  deriving Repr, DecidableEq, Inhabited

/-- How line information is decoded and looked up. -/
structure Options where
  constAddPc : ConstAddPc
  attribution : Attribution
  deriving Repr, DecidableEq, Inhabited

end LineAtlas
