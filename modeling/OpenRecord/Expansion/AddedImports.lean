import OpenRecord.Expansion.Bindings

namespace OpenRecord

/-!
# Added imports

Emitted code refers to modules by their plain names.  Those that no plain import at the top level
binds are imported by statements of their own, behind the documentation literal and the imports
from `__future__` at the start of the file.
-/

open Source

/-- The names that plain import statements of a list bind. -/
def importedNames (statements : List Statement) : List Text :=
  statements.flatMap fun statement =>
    match statement with
    | .simple _ items _ =>
      items.flatMap fun item =>
        match item.form with
        | .imports aliases => aliases.map (·.boundName)
        | _ => []
    | _ => []

/-- Whether a statement is a line with nothing but a plain literal. -/
def isDocumentation : Statement → Bool
  | .simple _ [⟨_, .value .literal, _⟩] _ => true
  | _ => false

/-- Whether a statement is a line with nothing but an import from `__future__`. -/
def isFutureImport : Statement → Bool
  | .simple _ [⟨_, .importsFrom (some origin) _, _⟩] _ => origin == "__future__"
  | _ => false

/-- The statements that stay in front of added imports, and the others. -/
def splitPrologue (statements : List Statement) : List Statement × List Statement :=
  match statements with
  | [] => ([], [])
  | first :: later =>
    if isDocumentation first || isFutureImport first then
      (first :: later.takeWhile isFutureImport, later.dropWhile isFutureImport)
    else ([], first :: later)

/-- The required modules that are not imported yet. -/
def missingImports (required : List Text) (statements : List Statement) : List Text :=
  required.filter (!(importedNames statements).contains ·)

def importStatement? (name : Text) : Option Statement :=
  Statement.parse? ("import " ++ name)

/-- A file with the missing imports added, and the modules they import; nothing if one of them
cannot be written as an import. -/
def addImports (required : List Text) (file : SourceFile) : Option (SourceFile × List Text) := do
  let missing := missingImports required file.body
  let added ← missing.mapM importStatement?
  if missing.isEmpty then some (file, [])
  else
    let (prologue, others) := splitPrologue file.body
    some ({ file with body := prologue ++ added ++ others }, missing)

theorem splitPrologue_append (statements : List Statement) :
    (splitPrologue statements).1 ++ (splitPrologue statements).2 = statements := by
  cases statements with
  | nil => rfl
  | cons first later =>
    simp only [splitPrologue]
    split <;> simp [List.takeWhile_append_dropWhile]

end OpenRecord
