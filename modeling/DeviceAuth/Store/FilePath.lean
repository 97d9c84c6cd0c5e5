import DeviceAuth.Text.Ascii

/-! Paths of files, with slashes between their components. -/
namespace DeviceAuth.Store.FilePath

def components (path : String) : List String :=
  ((path.toList.splitOnP (· = '/')).map String.ofList).filter fun c => c ≠ "" ∧ c ≠ "."

def isAbsolute (path : String) : Bool := path.toList.head? == some '/'

/-- A name below a directory; an absolute name stands for itself. -/
def join (directory name : String) : String :=
  if isAbsolute name ∨ directory = "" then name
  else if directory.toList.getLast? = some '/' then directory ++ name
  else directory ++ "/" ++ name

/-- What stands behind the last slash: a name, or nothing or dots if only a directory is meant. -/
def ending (path : String) : String :=
  String.ofList (path.toList.reverse.takeWhile (· ≠ '/')).reverse

def namesDirectory (path : String) : Bool := ["", ".", ".."].contains (ending path)

/-- Cuts slashes and single dots off the end; `cs` is in reverse. -/
def trimEnd : List Char → List Char
  | ['/'] => ['/']
  | '/' :: rest => trimEnd rest
  | '.' :: '/' :: rest => trimEnd ('/' :: rest)
  | cs => cs
termination_by cs => cs.length

def parent? (path : String) : Option String :=
  match trimEnd path.toList.reverse with
  | [] | ['/'] => none
  | cs => some (String.ofList (trimEnd (cs.dropWhile (· ≠ '/'))).reverse)

/-- The name before the last point; a point at the start belongs to the name. -/
def stem (name : List Char) : List Char :=
  if name = ['.', '.'] then name
  else match Text.splitFirst '.' name.reverse with
    | none => name
    | some (_, before) => if before.isEmpty then name else before.reverse

def withExtension (path extension : String) : String :=
  let cs := trimEnd path.toList.reverse
  let name := (cs.takeWhile (· ≠ '/')).reverse
  if name.isEmpty ∨ name = ['.', '.'] then path
  else String.ofList ((cs.dropWhile (· ≠ '/')).reverse ++ stem name) ++ "." ++ extension

end DeviceAuth.Store.FilePath
