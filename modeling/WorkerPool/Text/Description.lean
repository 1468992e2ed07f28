import WorkerPool.Text.Quoted

/-!
# Descriptions of values

What a value shows of itself to somebody who inspects it: a word, a named record of described
fields, or a name around one described value. A description is laid out on one line or over many.

* `Description.inline` -- one line, `Name { field: value, … }`;
* `Description.indented` -- one field a line, four spaces deeper than its record.
-/

namespace WorkerPool.Text

mutual

/-- What a value shows of itself. -/
inductive Description where
  /-- A number, a flag, a quoted text, a bare name. -/
  | word (text : String)
  /-- A name with described fields. -/
  | record (name : String) (fields : Fields)
  /-- A name around one value. -/
  | wrapped (name : String) (inner : Description)

/-- The fields of a record, in order. -/
inductive Fields where
  | none
  | field (name : String) (value : Description) (rest : Fields)

end

namespace Description

/-- A number. -/
def number (n : Nat) : Description := .word (toString n)

/-- A flag. -/
def flag (b : Bool) : Description := .word (if b then "true" else "false")

/-- A text, quoted. -/
def text (s : String) : Description := .word (quote s)

/-- A value that may be absent. -/
def optional (describe : α → Description) : Option α → Description
  | none => .word "None"
  | some a => .wrapped "Some" (describe a)

/-- A record from its fields in order. -/
def ofFields (name : String) (fields : List (String × Description)) : Description :=
  .record name (fields.foldr (fun f rest => .field f.1 f.2 rest) .none)

end Description

/-! ## 1. On one line -/

mutual

/-- The description on one line. -/
def Description.inline : Description → String
  | .word text => text
  | .record name .none => name
  | .record name (.field f v rest) =>
    name ++ " \x7b " ++ f ++ ": " ++ v.inline ++ rest.inline ++ " \x7d"
  | .wrapped name inner => name ++ "(" ++ inner.inline ++ ")"

/-- Further fields on one line, each after a comma. -/
def Fields.inline : Fields → String
  | .none => ""
  | .field f v rest => ", " ++ f ++ ": " ++ v.inline ++ rest.inline

end

/-! ## 2. Over many lines -/

/-- The lines moved four spaces in. -/
def deeper (lines : List String) : List String := lines.map ("    " ++ ·)

/-- The lines with `head` before the first and a comma after the last. -/
def entry (head : String) : List String → List String
  | [] => [head ++ ","]
  | [line] => [head ++ line ++ ","]
  | line :: rest => (head ++ line) :: (rest.dropLast ++ [rest.getLastD "" ++ ","])

mutual

/-- The lines of a description. -/
def Description.lines : Description → List String
  | .word text => [text]
  | .record name .none => [name]
  | .record name (.field f v rest) =>
    (name ++ " \x7b") :: (deeper (entry (f ++ ": ") v.lines) ++ rest.lines) ++ ["\x7d"]
  | .wrapped name inner => (name ++ "(") :: deeper (entry "" inner.lines) ++ [")"]

/-- The lines of further fields. -/
def Fields.lines : Fields → List String
  | .none => []
  | .field f v rest => deeper (entry (f ++ ": ") v.lines) ++ rest.lines

end

/-- The description with one field a line. -/
def Description.indented (d : Description) : String := "\n".intercalate d.lines

end WorkerPool.Text
