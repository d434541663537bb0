import OpenRecord.Source.Tree

namespace OpenRecord

/-!
# Names bound by statements

The names that the statements of one list bind directly: definitions, assigned and declared simple
names, and imports.  Statements inside other statements are not looked into.
-/

open Source

def Source.Alias.boundName (imported : Alias) : Text :=
  imported.renamed.getD (Text.before '.' imported.dotted)

/-- The names that a small statement binds. -/
def Source.Item.boundNames (item : Item) : List Text :=
  match item.form with
  | .assignment targets =>
    targets.filterMap fun target =>
      match target with
      | .name name => some name
      | _ => none
  | .declaration (.name name) _ _ => [name]
  | .imports aliases => aliases.map (·.boundName)
  | .importsFrom _ (some aliases) => aliases.map (·.boundName)
  | _ => []

def Source.Statement.boundNames : Statement → List Text
  | .simple _ items _ => items.flatMap (·.boundNames)
  | .definition head _ => [head.role.name]
  | .compound _ => []

def boundNames (statements : List Statement) : List Text :=
  statements.flatMap (·.boundNames)

end OpenRecord
