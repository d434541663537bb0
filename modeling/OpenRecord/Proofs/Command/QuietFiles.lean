import OpenRecord.Proofs.Command.DirectoryExpansion
import OpenRecord.Proofs.Expansion.Leftovers
import OpenRecord.Proofs.Source.PrintedText
import OpenRecord.Proofs.Text.Encoding

namespace OpenRecord
namespace Command

/-!
# Files with nothing to expand

A source file in which no class and no function is decorated with a capability is read, printed and
written.  What is written are its own bytes if its text has no carriage return and no byte order mark,
and does not end with a backslash and a line feed, and other bytes otherwise: every line break is
written as a line feed, a byte order mark is not written, and a last line feed behind a backslash is
dropped.

This is shown of files in which each logical line starts with the blanks its block was opened with, and
these go on with those of the block around it.  The lines within a literal or within brackets may start
with anything.  Other files may change in one more way, as the lines of a block are written with the
indentation of the first.
-/

open Files Files.Tree Source

/-- Bytes that store the text of an evenly indented module in which nothing is decorated with a
capability. -/
structure IsQuiet (content : List UInt8) (raw : Text) : Prop where
  decoded : Text.decode content = .ok raw
  quiet : ∃ file, SourceFile.parse? raw.normalizeBreaks = some file ∧
    StatementsObey quietLaw file.body
  even : EvenlyIndented (withoutByteOrderMark raw.normalizeBreaks)

/-- A module without requests is expanded to its own tree. -/
theorem expand_of_quiet {code : Text} {file : SourceFile}
    (parsed : SourceFile.parse? code = some file) (quiet : StatementsObey quietLaw file.body)
    (settings : Settings) (filename : Option Text) :
    expand settings code filename = .ok ⟨file.print, [], [], []⟩ := by
  have visit := SourceFile.visit_of_no_request (file.requests_of_quiet quiet settings filename)
  simp only [expand, expandWithOutcomes, parsed, visit]
  rfl

section

variable {settings : Settings} {tree : Tree} {input output : Path} {content : List UInt8}
  {raw : Text}

/-- A file with nothing to expand comes to what it is printed as. -/
theorem IsQuiet.expandsTo (quiet : IsQuiet content raw) (found : tree.read input = .ok content)
    (settings : Settings) : ExpandsTo settings tree input (passedText raw) := by
  rcases quiet.quiet with ⟨file, parsed, silent⟩
  refine ⟨raw.normalizeBreaks, _, ?_, expand_of_quiet parsed silent settings _, rfl, ?_⟩
  · simp only [readSource, found, quiet.decoded]
  · exact SourceFile.print_of_parse? parsed (Text.not_mem_normalizeBreaks raw) quiet.even

/-- What a file with nothing to expand comes to has the bytes of the file exactly if its text is printed
again. -/
theorem IsQuiet.encode_eq_iff (quiet : IsQuiet content raw) :
    Text.encode (passedText raw) = content ↔
      '\r' ∉ raw ∧ raw.head? ≠ some '\ufeff' ∧ ¬ ['\x5c', '\n'] <:+ raw := by
  rw [← passedText_eq_self_iff, ← Text.encode_of_decode quiet.decoded]
  exact ⟨Text.encode_injective, congrArg Text.encode⟩

theorem runExpand_of_expandsTo {companionPrefix : Option Text} {withoutImports : Bool}
    {found : Option (List Text)} {result : Text}
    (loaded : Configuration.load tree (configurationStart tree input)
      (givenValues companionPrefix withoutImports) = .ok (settings, found))
    (comes : ExpandsTo settings tree input result) (writable : tree.CanWrite output) :
    (runExpand tree input (some output) companionPrefix withoutImports).ending = .exit 0 ∧
      (runExpand tree input (some output) companionPrefix withoutImports).tree.entryAt
        (tree.placeOf output) = some (.file (Text.encode result)) := by
  have file := hasFile_of_isExpanded (isExpanded_eq_true_iff.2 ⟨result, comes⟩)
  have present : tree.holds input = true := by
    rw [hasFile, Bool.and_eq_true] at file
    exact file.1
  rcases writable.exists_write (Text.encode result) with ⟨made, written, above, done⟩
  rcases expandFile_of_write input.name (expandedText_eq_some_iff.2 comes) above done with
    ⟨after, report, reported, succeeded⟩
  have run : runExpand tree input (some output) companionPrefix withoutImports =
      runExpandFile settings tree input (some output) := by
    simp [runExpand, withSettings, present, loaded, file]
  have ended : runExpandFile settings tree input (some output) =
      .ended written (expandFile settings tree input (some output) input.name).events 0 := by
    simp only [runExpandFile, reported, succeeded, if_true, after]
  rw [run, ended]
  exact ⟨rfl, (extends_write_below above done).2⟩

/-- **A file with nothing to expand** is printed again, alone or with the directory it lies in, and what
is written are its own bytes exactly if its text has no carriage return and no byte order mark, and does
not end with a backslash and a line feed. -/
theorem runExpand_quietFile {companionPrefix : Option Text} {withoutImports : Bool}
    {found : Option (List Text)} (quiet : IsQuiet content raw)
    (loaded : Configuration.load tree (configurationStart tree input)
      (givenValues companionPrefix withoutImports) = .ok (settings, found)) :
    (tree.read input = .ok content → tree.CanWrite output →
      (runExpand tree input (some output) companionPrefix withoutImports).ending = .exit 0 ∧
        (runExpand tree input (some output) companionPrefix withoutImports).tree.entryAt
          (tree.placeOf output) = some (.file (Text.encode (passedText raw)))) ∧
      (tree.IsProper → tree.hasDirectory input = true → KeepsSources settings input output tree →
        (∃ code, (runExpand tree input (some output) companionPrefix withoutImports).ending =
          .exit code) →
        ∀ names ∈ tree.search input sourceEnding, tree.read (input.descend names) = .ok content →
          (runExpand tree input (some output) companionPrefix withoutImports).tree.entryAt
            (tree.placeOf (output.descend names)) =
              some (.file (Text.encode (passedText raw)))) ∧
      (Text.encode (passedText raw) = content ↔
        '\r' ∉ raw ∧ raw.head? ≠ some '\ufeff' ∧ ¬ ['\x5c', '\n'] <:+ raw) := by
  refine ⟨fun read writable => ?_, fun proper directory keeps ended names listed read => ?_,
    quiet.encode_eq_iff⟩
  · exact runExpand_of_expandsTo loaded (quiet.expandsTo read settings) writable
  · rcases ended with ⟨code, ended⟩
    rw [runExpand_of_hasDirectory directory loaded] at ended ⊢
    rcases writes_runExpandDirectory proper keeps ended with ⟨writes, -⟩
    exact (writes.reflects proper).expanded names listed _ (quiet.expandsTo read settings)

end

/-- Whether a run came to an exit code. -/
def Ending.isExit : Ending → Bool
  | .exit _ => true
  | .usage _ => false
  | .broken _ => false

theorem Ending.exists_exit {ending : Ending} (exits : ending.isExit = true) :
    ∃ code, ending = .exit code := by
  cases ending with
  | exit code => exact ⟨code, rfl⟩
  | usage fault => cases exits
  | broken breakage => cases exits

/-- A module that ends its lines with carriage return and line feed. -/
def carriageReturns : Text := "x = 1\r\n"

def quietDirectory : Tree where
  workingDirectory := []
  entries := [
    (["in"], .directory),
    (["in", "a.py"], .file (Text.encode carriageReturns))]

/-- The module is written with line feeds, on its own and with its directory. -/
theorem runExpand_carriageReturns :
    IsQuiet (Text.encode carriageReturns) carriageReturns ∧
      ((runExpand quietDirectory ⟨[], ["in", "a.py"]⟩ (some ⟨[], ["o.py"]⟩) none
          false).ending = .exit 0 ∧
        (runExpand quietDirectory ⟨[], ["in", "a.py"]⟩ (some ⟨[], ["o.py"]⟩) none
          false).tree.entryAt ["o.py"] = some (.file (Text.encode "x = 1\n"))) ∧
      (runExpand quietDirectory ⟨[], ["in"]⟩ (some ⟨[], ["out"]⟩) none false).tree.entryAt
        ["out", "a.py"] = some (.file (Text.encode "x = 1\n")) ∧
      Text.encode "x = 1\n" ≠ Text.encode carriageReturns := by
  have blanks : (withoutByteOrderMark carriageReturns.normalizeBreaks).all
      (fun c => !Text.isIndent c || c == ' ') = true := by decide +kernel
  have even : EvenlyIndented (withoutByteOrderMark carriageReturns.normalizeBreaks) := by
    refine evenlyIndented_of_blanks (show ' ' ≠ '\x0c' by decide) fun c member blank => ?_
    simpa [blank] using List.all_eq_true.1 blanks c member
  have silent : (SourceFile.parse? carriageReturns.normalizeBreaks).any
      (fun file => (file.requests .default none).isEmpty) = true := by decide +kernel
  have quiet : IsQuiet (Text.encode carriageReturns) carriageReturns := by
    rcases (Option.any_eq_true _ _).1 silent with ⟨file, parsed, none⟩
    exact ⟨rfl, ⟨file, parsed, (quiet_iff_statements _ _).2 (List.isEmpty_iff.1 none)⟩, even⟩
  have loaded : ∀ input ∈ [(⟨[], ["in", "a.py"]⟩ : Path), ⟨[], ["in"]⟩],
      Configuration.load quietDirectory (configurationStart quietDirectory input)
        (givenValues none false) = .ok (.default, none) :=
    List.forall_mem_cons.2 ⟨rfl, List.forall_mem_singleton.2 rfl⟩
  have apart : (quietDirectory.search ⟨[], ["in"]⟩ sourceEnding).Pairwise fun earlier later =>
      quietDirectory.placeOf (Path.descend ⟨[], ["out"]⟩ earlier) ≠
        quietDirectory.placeOf (Path.descend ⟨[], ["in"]⟩ later) := by decide +kernel
  have ended : ∃ code, (runExpand quietDirectory ⟨[], ["in"]⟩ (some ⟨[], ["out"]⟩) none
      false).ending = .exit code := Ending.exists_exit (by decide +kernel)
  have keeps : KeepsSources .default ⟨[], ["in"]⟩ ⟨[], ["out"]⟩ quietDirectory := by
    refine List.Pairwise.imp ?_ apart
    exact fun unlike _ => unlike
  have alone := @runExpand_quietFile .default quietDirectory ⟨[], ["in", "a.py"]⟩
    ⟨[], ["o.py"]⟩ _ _ _ _ _ quiet (loaded _ (by decide))
  have inside := @runExpand_quietFile .default quietDirectory ⟨[], ["in"]⟩
    ⟨[], ["out"]⟩ _ _ _ _ _ quiet (loaded _ (by decide))
  refine ⟨quiet, alone.1 rfl (by decide +kernel), ?_, fun same => ?_⟩
  · exact inside.2.1 (by decide +kernel) (by decide +kernel) keeps ended ["a.py"]
      (by decide +kernel) rfl
  · exact (alone.2.2.1 same).1 (by decide)

end Command
end OpenRecord
