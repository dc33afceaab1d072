/-!
# Shown records

The diagnostic text of a value: a name with named fields, in one line or spread over several.
Both layouts are read off the same tree, so they never disagree about the contents.
-/

namespace ReaderWriter.Text

mutual

/-- A value as diagnostics show it. -/
inductive Shown where
  /-- A text that stands for itself. -/
  | atom (text : String)
  /-- A name around a single value. -/
  | wrapped (name : String) (inner : Shown)
  /-- A name with fields; `partially` says that there are fields that are not shown. -/
  | record (name : String) (fields : ShownFields) (partially : Bool)

/-- The fields of a shown record, in order. -/
inductive ShownFields where
  | nil
  | cons (name : String) (value : Shown) (rest : ShownFields)

end

/-- The fields of a list of name and value. -/
def ShownFields.ofList : List (String × Shown) → ShownFields
  | [] => .nil
  | (name, value) :: rest => .cons name value (ofList rest)

namespace Shown

/-- A record all of whose fields are shown. -/
def whole (name : String) (fields : List (String × Shown)) : Shown :=
  .record name (.ofList fields) false

/-- A record that has further fields. -/
def part (name : String) (fields : List (String × Shown)) : Shown :=
  .record name (.ofList fields) true

/-- A truth value. -/
def truth (b : Bool) : Shown := .atom (if b then "true" else "false")

/-- A number in decimal. -/
def number (n : Nat) : Shown := .atom (Nat.repr n)

end Shown

/-- The white space before a line at the given depth of nesting. -/
def margin (depth : Nat) : String := String.ofList (List.replicate (4 * depth) ' ')

mutual

/-- The one-line layout. -/
def Shown.line : Shown → String
  | .atom text => text
  | .wrapped name inner => name ++ "(" ++ inner.line ++ ")"
  | .record name .nil partially => if partially then name ++ " \x7b .. \x7d" else name
  | .record name (.cons field value rest) partially =>
      name ++ " \x7b " ++ field ++ ": " ++ value.line ++ rest.line ++
        (if partially then ", .. \x7d" else " \x7d")

/-- The fields after the first one, each led by a comma. -/
def ShownFields.line : ShownFields → String
  | .nil => ""
  | .cons field value rest => ", " ++ field ++ ": " ++ value.line ++ rest.line

end

mutual

/-- The layout with one field to a line, for a value that stands at the given depth. -/
def Shown.spread (depth : Nat) : Shown → String
  | .atom text => text
  | .wrapped name inner =>
      name ++ "(\n" ++ margin (depth + 1) ++ inner.spread (depth + 1) ++ ",\n" ++
        margin depth ++ ")"
  | .record name .nil partially => if partially then name ++ " \x7b .. \x7d" else name
  | .record name (.cons field value rest) partially =>
      name ++ " \x7b\n" ++
        margin (depth + 1) ++ field ++ ": " ++ value.spread (depth + 1) ++ ",\n" ++
        rest.spread (depth + 1) ++
        (if partially then margin (depth + 1) ++ "..\n" else "") ++ margin depth ++ "\x7d"

/-- The fields of a spread record, one to a line at the given depth. -/
def ShownFields.spread (depth : Nat) : ShownFields → String
  | .nil => ""
  | .cons field value rest =>
      margin depth ++ field ++ ": " ++ value.spread depth ++ ",\n" ++ rest.spread depth

end

end ReaderWriter.Text
