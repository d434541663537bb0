import OpenRecord.Proofs.Expansion.Requests
import OpenRecord.Proofs.Source.TreeLaw

namespace OpenRecord

/-!
# The statement lists of a file

A statement list is the top level of a file or the block behind some colon, at any depth, together
with what the walk knows about the place.  What holds of the whole file holds of each of its lists:
their requests are requests of the file, and they obey the laws that the file obeys.
-/

open Source

/-- Consecutive statements at one place. -/
structure StatementList where
  around : Surroundings
  body : List Statement

mutual

def Source.Statement.lists (around : Surroundings) : Statement → List StatementList
  | .simple _ _ _ => []
  | .definition head body => body.lists (around.enter head.role)
  | .compound clauses => listsInClauses around clauses

def Source.Suite.lists (around : Surroundings) : Suite → List StatementList
  | .inline _ _ => []
  | .block _ _ body _ =>
    ⟨around.enterBlock body, body⟩ :: listsInStatements (around.enterBlock body) body
  | .cases _ _ clauses _ => listsInClauses around clauses

def Source.Clause.lists (around : Surroundings) : Clause → List StatementList
  | .clause _ _ _ suite => suite.lists around

/-- The lists inside consecutive statements. -/
def listsInStatements (around : Surroundings) : List Statement → List StatementList
  | [] => []
  | first :: later => first.lists around ++ listsInStatements around later

def listsInClauses (around : Surroundings) : List Clause → List StatementList
  | [] => []
  | first :: later => first.lists around ++ listsInClauses around later

end

/-- All statement lists of a file: the top level, and the blocks in it. -/
def Source.SourceFile.lists (file : SourceFile) (settings : Settings) (filename : Option Text) :
    List StatementList :=
  ⟨topOfFile settings filename file, file.body⟩ ::
    listsInStatements (topOfFile settings filename file) file.body

structure StatementList.Within (list : StatementList) (around : Surroundings)
    (requests : List Request) (obeys : TreeLaw → Prop) : Prop where
  sameFile : list.around.SameFile around
  requests : requestsInStatements list.around list.body ⊆ requests
  obeys : ∀ law, obeys law → StatementsObey law list.body

/-- A list inside a part of a tree is inside the whole tree. -/
theorem StatementList.Within.mono {list : StatementList} {around wider : Surroundings}
    {requests others : List Request} {obeys holds : TreeLaw → Prop}
    (within : list.Within around requests obeys) (file : around.SameFile wider)
    (more : requests ⊆ others) (weaker : ∀ law, holds law → obeys law) :
    list.Within wider others holds :=
  ⟨within.sameFile.trans file, List.Subset.trans within.requests more,
    fun law holds => within.obeys law (weaker law holds)⟩

mutual

theorem Source.Statement.within_of_mem {list : StatementList} (around : Surroundings) :
    ∀ statement : Statement, list ∈ statement.lists around →
      list.Within around (statement.requests around) statement.Obeys
  | .simple _ _ _, member => by simp [Statement.lists] at member
  | .definition head body, member =>
    (body.within_of_mem _ member).mono (around.sameFile_enter head.role)
      (List.subset_append_left _ _) fun _ obeys => obeys.2.2
  | .compound clauses, member => within_of_mem_clauses around clauses member

theorem Source.Suite.within_of_mem {list : StatementList} (around : Surroundings) :
    ∀ suite : Suite, list ∈ suite.lists around →
      list.Within around (suite.requests around) suite.Obeys
  | .inline _ _, member => by simp [Suite.lists] at member
  | .block _ _ body _, member => by
    rcases List.mem_cons.1 member with rfl | inner
    · exact ⟨around.sameFile_enterBlock body, List.Subset.refl _, fun _ obeys => obeys⟩
    · exact (within_of_mem_statements _ body inner).mono (around.sameFile_enterBlock body)
        (List.Subset.refl _) fun _ obeys => obeys
  | .cases _ _ clauses _, member => within_of_mem_clauses around clauses member

theorem Source.Clause.within_of_mem {list : StatementList} (around : Surroundings) :
    ∀ clause : Clause, list ∈ clause.lists around →
      list.Within around (clause.requests around) clause.Obeys
  | .clause _ _ _ suite, member => suite.within_of_mem around member

/-- The lists inside consecutive statements are within these. -/
theorem within_of_mem_statements {list : StatementList} (around : Surroundings) :
    ∀ statements : List Statement, list ∈ listsInStatements around statements →
      list.Within around (requestsInStatements around statements)
        fun law => StatementsObey law statements
  | [], member => by simp [listsInStatements] at member
  | first :: later, member => by
    rcases List.mem_append.1 member with front | back
    · exact (first.within_of_mem around front).mono ⟨rfl, rfl, rfl, rfl⟩
        (List.subset_append_left _ _) fun _ obeys => obeys.1
    · exact (within_of_mem_statements around later back).mono ⟨rfl, rfl, rfl, rfl⟩
        (List.subset_append_right _ _) fun _ obeys => obeys.2

theorem within_of_mem_clauses {list : StatementList} (around : Surroundings) :
    ∀ clauses : List Clause, list ∈ listsInClauses around clauses →
      list.Within around (requestsInClauses around clauses) fun law => ClausesObey law clauses
  | [], member => by simp [listsInClauses] at member
  | first :: later, member => by
    rcases List.mem_append.1 member with front | back
    · exact (first.within_of_mem around front).mono ⟨rfl, rfl, rfl, rfl⟩
        (List.subset_append_left _ _) fun _ obeys => obeys.1
    · exact (within_of_mem_clauses around later back).mono ⟨rfl, rfl, rfl, rfl⟩
        (List.subset_append_right _ _) fun _ obeys => obeys.2

end

theorem Source.SourceFile.within_of_mem {file : SourceFile} {settings : Settings}
    {filename : Option Text} {list : StatementList} (member : list ∈ file.lists settings filename) :
    list.Within (topOfFile settings filename file) (file.requests settings filename)
      fun law => StatementsObey law file.body := by
  rcases List.mem_cons.1 member with rfl | inner
  · exact ⟨⟨rfl, rfl, rfl, rfl⟩, List.Subset.refl _, fun _ obeys => obeys⟩
  · exact within_of_mem_statements _ file.body inner

end OpenRecord
