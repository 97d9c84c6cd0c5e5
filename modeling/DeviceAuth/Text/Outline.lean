/-! One-line outlines of values for diagnostics: named fields in braces, tuples in parentheses,
lists in brackets. Secrets never reach an outline; their place says `<redacted>`. -/
namespace DeviceAuth.Text.Outline

def redacted : String := "\"<redacted>\""

def optional : Option String → String
  | none => "None"
  | some s => "Some(" ++ s ++ ")"

def list (items : List String) : String :=
  "[" ++ ", ".intercalate items ++ "]"

def tuple (name : String) (items : List String) : String :=
  name ++ "(" ++ ", ".intercalate items ++ ")"

def fieldTexts (fields : List (String × String)) : List String :=
  fields.map fun (name, value) => name ++ ": " ++ value

def closed (name : String) (fields : List (String × String)) : String :=
  name ++ " \x7b " ++ ", ".intercalate (fieldTexts fields) ++ " \x7d"

/-- An outline that leaves some fields out says so with two dots. -/
def opened (name : String) (fields : List (String × String)) : String :=
  name ++ " \x7b " ++ ", ".intercalate (fieldTexts fields ++ [".."]) ++ " \x7d"

end DeviceAuth.Text.Outline
