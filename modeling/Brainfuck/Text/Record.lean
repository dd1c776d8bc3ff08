/-!
# Brainfuck.Text.Record

The inspection form of structured values: a name, then the fields between
braces.

```
Name { first: 1, second: 2 }      Name { first: 1, .. }      [1, 2]
```
-/

namespace Brainfuck.Text

/-- A field with its value. -/
def field (entry : String × String) : String := entry.1 ++ ": " ++ entry.2

/-- A value with all its fields. -/
def record (name : String) (fields : List (String × String)) : String :=
  name ++ " \x7b " ++ ", ".intercalate (fields.map field) ++ " \x7d"

/-- A value of which some fields are kept back. -/
def openRecord (name : String) (fields : List (String × String)) : String :=
  name ++ " \x7b " ++ ", ".intercalate (fields.map field ++ [".."]) ++ " \x7d"

/-- A sequence of values. -/
def listing (items : List String) : String := "[" ++ ", ".intercalate items ++ "]"

end Brainfuck.Text
