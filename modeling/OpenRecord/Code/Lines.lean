import OpenRecord.Text.Blank
import OpenRecord.Text.Lines
import OpenRecord.Text.Quoted

namespace OpenRecord
namespace Code

/-!
# Lines of emitted code

Code is emitted as a list of lines with four spaces for each level.  Before it is put into a source
file its levels are written anew with the indentation of that file.
-/

/-- The indentation of one level of emitted code. -/
def indentUnit : Text := [' ', ' ', ' ', ' ']

/-- Several levels of a unit. -/
def repeated (unit : Text) (count : Nat) : Text :=
  (List.replicate count unit).flatten

/-- Lines as text, each with a line feed behind it, of which an empty list still has one. -/
def emit (lines : List Text) : Text :=
  Text.join ['\n'] lines ++ ['\n']

/-- Indent the lines that are not empty by a number of levels. -/
def indent (lines : List Text) (depth : Nat) : List Text :=
  lines.map fun line => if line = [] then [] else repeated indentUnit depth ++ line

/-- Three double quotation marks. -/
def docMarks : Text := [Text.doubleMark, Text.doubleMark, Text.doubleMark]

/-- A text as a documentation literal: on one line if it has one line, else with the marks on lines
of their own. -/
def docstring (text : Text) (depth : Nat) : List Text :=
  match Text.lines text.trim with
  | [only] => indent [docMarks ++ only ++ docMarks] depth
  | body => indent (docMarks :: body ++ [docMarks]) depth

/-- A type expression as a string literal; one that starts with a quotation mark is left as it is. -/
def quote (type : Text) : Text :=
  match type with
  | [] => Text.quoted []
  | first :: _ =>
    if first = Text.singleMark || first = Text.doubleMark then type else Text.quoted type

/-- A line with its levels written in another unit behind a margin.  Spaces that make up no whole
level are dropped, and so is a line of spaces. -/
def reindentLine (unit margin line : Text) : Text :=
  match line.dropWhile (· == ' ') with
  | [] => []
  | first :: later =>
    let width := line.length - (first :: later).length
    margin ++ repeated unit (width / indentUnit.length) ++ first :: later

/-- Emitted code in another unit of indentation and behind a margin. -/
def reindent (code unit margin : Text) : Text :=
  emit ((Text.lines code).map (reindentLine unit margin))

end Code
end OpenRecord
