import OpenRecord.Source.Tree
import OpenRecord.Text.Blank
import OpenRecord.Text.Encoding
import OpenRecord.Text.Margin

namespace OpenRecord
namespace Source

/-!
# Reading a class back

A class is found in a file by its *qualified name*: the names of the definitions around it and its
own, joined by dots, with a mark behind the name of a function.  What is read back are the lines of
the definition from its first decorator on, without their margin.
-/

/-- The mark of names that are local to a function. -/
def localMark : Text := "<locals>"

/-- A class as it stands in a file: the layout at its place, its header and its body. -/
structure FoundClass where
  layout : Layout
  head : Definition
  body : Suite

def namesInside (front : Text) (role : Role) : Text :=
  match role with
  | .classDefinition shape => front ++ shape.name ++ ['.']
  | .functionDefinition function => front ++ function.name ++ '.' :: localMark ++ ['.']

/-- Whether a definition is the class of a qualified name. -/
def isWanted (front wanted : Text) : Role → Bool
  | .classDefinition shape => front ++ shape.name == wanted
  | .functionDefinition _ => false

mutual

/-- The first class of a qualified name in a statement. -/
def Statement.findClass (wanted front : Text) (layout : Layout) :
    Statement → Option FoundClass
  | .simple _ _ _ => none
  | .definition head body =>
    if isWanted front wanted head.role then some ⟨layout, head, body⟩
    else body.findClass wanted (namesInside front head.role) layout
  | .compound clauses => findClassInClauses wanted front layout clauses

/-- The first class of a qualified name behind a colon. -/
def Suite.findClass (wanted front : Text) (layout : Layout) : Suite → Option FoundClass
  | .inline _ _ => none
  | .block _ indent body _ => findClassInStatements wanted front (layout.deeper indent) body
  | .cases _ indent clauses _ => findClassInClauses wanted front (layout.deeper indent) clauses

/-- The first class of a qualified name in a clause. -/
def Clause.findClass (wanted front : Text) (layout : Layout) : Clause → Option FoundClass
  | .clause _ _ _ suite => suite.findClass wanted front layout

/-- The first class of a qualified name in consecutive statements. -/
def findClassInStatements (wanted front : Text) (layout : Layout) :
    List Statement → Option FoundClass
  | [] => none
  | first :: later =>
    (first.findClass wanted front layout).or (findClassInStatements wanted front layout later)

/-- The first class of a qualified name in consecutive clauses. -/
def findClassInClauses (wanted front : Text) (layout : Layout) :
    List Clause → Option FoundClass
  | [] => none
  | first :: later =>
    (first.findClass wanted front layout).or (findClassInClauses wanted front layout later)

end

/-- The first class of a qualified name in a file. -/
def SourceFile.findClass (file : SourceFile) (wanted : Text) : Option FoundClass :=
  findClassInStatements wanted [] ⟨[], file.newline⟩ file.body

/-! ## The lines of a class -/

/-- A text up to the end of its last line that is not blank. -/
def withoutBlankEnd (text : Text) : Text :=
  let lines := (Text.split '\n' text).reverse.dropWhile fun line => line.all Text.isSpace
  lines.reverse.flatMap (· ++ ['\n'])

namespace FoundClass

/-- The lines of a class from its first decorator on. -/
def lines (found : FoundClass) : Text :=
  let printed :=
    { found.head with above := [] }.print found.layout ++ found.body.print found.layout
  withoutBlankEnd (Text.normalizeBreaks printed)

/-- The definition of a class, moved to the margin. -/
def definition (found : FoundClass) : Text :=
  Text.dedent found.lines

/-- The number of the line of the first decorator, or of the header if there is none. -/
def firstLine (found : FoundClass) : Nat :=
  let between :=
    found.head.decorators.flatMap (·.print found.layout) ++
      printLines found.layout found.head.belowDecorators
  found.head.position.line - Text.breakCount between

end FoundClass
end Source
end OpenRecord
