import Mathlib.Logic.Relation
import OpenRecord.Live.Step
import OpenRecord.Proofs.Live.Conversions
import OpenRecord.Proofs.Live.WritableView

namespace OpenRecord
namespace Live

/-!
# Substituting the fields of a record

`substitute` hands a view of the record to its callback and empties the view when the callback has
ended, in whichever way.  A callback is given here by the accesses that it makes: a tree of reads
and writes, in which every access may depend on what came of those before.  Its run on the view is
the run of the same accesses on the record's own attributes, and a view that has been emptied stays
empty whatever happens afterwards, unless someone fills its place by hand.
-/

open Code

/-! ## Callbacks -/

/-- What a callback does with a view, until it returns or fails. -/
inductive ViewUse
  | finish (result : Except Fault Value)
  | read (name : Text) (next : Except Fault Value → ViewUse)
  | write (name : Text) (value : Value) (next : Except Fault Unit → ViewUse)

namespace ViewUse

/-- No access goes to some names. -/
def Avoids (names : List Text) : ViewUse → Prop
  | finish _ => True
  | read name next => name ∉ names ∧ ∀ outcome, (next outcome).Avoids names
  | write name _ next => name ∉ names ∧ ∀ outcome, (next outcome).Avoids names

/-- The accesses to a view in a session. -/
def run (call : Caller) (view : Value) : ViewUse → Action Value
  | finish (.ok value) => return value
  | finish (.error fault) => throw fault
  | read name next => do
    let outcome ← outcomeOf (readAttribute call view name)
    (next outcome).run call view
  | write name value next => do
    let outcome ← outcomeOf (writeAttribute call view name value)
    (next outcome).run call view

/-- The same accesses to the attributes of a record.  Fields that are not set and names that are no
exposed fields have outcomes of their own. -/
def onRecord (exposed : List Text) (unset : Text → Except Fault Value) (refusal : Text → Fault) :
    ViewUse → List (Text × Value) → Except Fault Value × List (Text × Value)
  | finish result, attributes => (result, attributes)
  | read name next, attributes =>
    if name ∈ exposed then
      match lookupName name attributes with
      | some value => (next (.ok value)).onRecord exposed unset refusal attributes
      | none => (next (unset name)).onRecord exposed unset refusal attributes
    else (next (.error (refusal name))).onRecord exposed unset refusal attributes
  | write name value next, attributes =>
    if name ∈ exposed then
      (next (.ok ())).onRecord exposed unset refusal (putName name value attributes)
    else (next (.error (refusal name))).onRecord exposed unset refusal attributes

theorem lookupName_onRecord {exposed : List Text} {unset : Text → Except Fault Value}
    {refusal : Text → Fault} {use : ViewUse} {attributes : List (Text × Value)} {name : Text}
    (unexposed : name ∉ exposed) :
    lookupName name (use.onRecord exposed unset refusal attributes).2 =
      lookupName name attributes := by
  induction use generalizing attributes with
  | finish result => rfl
  | read key next ih =>
    rw [onRecord]
    split
    · split
      · exact ih _
      · exact ih _
    · exact ih _
  | write key value next ih =>
    rw [onRecord]
    split
    case isTrue member =>
      have different : name ≠ key := fun same => unexposed (same ▸ member)
      rw [ih _, lookupName_putName_other different]
    case isFalse => exact ih _

end ViewUse

/-! ## The record behind a view -/

/-- What the class of a record answers for a field that the record does not have. -/
def Session.classField (session : Session) (record type : Nat) (name : Text) :
    Except Fault Value :=
  match session.attribute? type name with
  | some (.value value) => .ok (boundTo (.cell record) type value)
  | _ => .error (.failed (.noAttribute (session.nameOf type) name))

theorem run_readAttribute_field {call : Caller} {session : Session} {record type : Nat}
    {attributes : List (Text × Value)} {name : Text}
    (cell : session.cells[record]? = some (.object type attributes))
    (stores : session.Stores type name) :
    (readAttribute call (.cell record) name).run session =
      (match lookupName name attributes with
        | some value => .ok value
        | none => session.classField record type name, session) := by
  cases own : lookupName name attributes with
  | some value => exact run_readAttribute_own cell stores.no_property own
  | none =>
    have lacking : session.own? record name = none := by
      simp only [Session.own?, Session.ownAttributes, cell, own]
    simp only [readAttribute, run_bind, run_get, cell, readObject, lacking, Session.classField]
    cases found : session.attribute? type name with
    | none => rfl
    | some entry =>
      cases entry with
      | property getter setter => exact absurd found (stores.no_property getter setter)
      | _ => rfl

section Accesses

variable {session : Session} {scopes : List Nat} {model : RecordModel} {settings : Settings}
  {record type view : Nat} {attributes : List (Text × Value)}

/-- The cells while a callback works: the record with some attributes, and a view of it. -/
def viewedCells (cells : List Cell) (record type view : Nat) (attributes : List (Text × Value)) :
    List Cell :=
  cells.set record (.object type attributes) ++ [.object view [(viewTarget, .cell record)]]

/-- The fault that a view meets under a name that is no property. -/
def viewFault (session : Session) (view : Nat) (name : Text) : Fault :=
  .failed (.noAttribute (session.nameOf view) name)

theorem run_outcomeOf {α : Type} (action : Action α) :
    (outcomeOf action).run session = (.ok (action.run session).1, (action.run session).2) := by
  rw [outcomeOf, run_tryCatch, run_map]
  rcases action.run session with ⟨_ | _, after⟩ <;> rfl

theorem getElem?_viewedCells_view (cells : List Cell) :
    (viewedCells cells record type view attributes)[cells.length]? =
      some (.object view [(viewTarget, .cell record)]) := by
  simp [viewedCells]

theorem getElem?_viewedCells_record {cells : List Cell} (inside : record < cells.length) :
    (viewedCells cells record type view attributes)[record]? =
      some (.object type attributes) := by
  simp [viewedCells, List.getElem?_append_left, inside]

/-- Writing to the record leaves the cells of the same form. -/
theorem set_viewedCells {cells : List Cell} (inside : record < cells.length)
    (changed : List (Text × Value)) :
    (viewedCells cells record type view attributes).set record (.object type changed) =
      viewedCells cells record type view changed := by
  simp [viewedCells, List.set_append_left, inside]

theorem run_readView (shows : session.Shows model settings view scopes)
    (stores : ∀ name ∈ exposedNames model.fields, session.Stores type name)
    (inside : record < session.cells.length) {name : Text}
    (allowed : name ∉ [viewTarget, initializerName]) :
    (readAttribute callAlone (.cell session.cells.length) name).run
        (session.withCells (viewedCells session.cells record type view attributes)) =
      (if name ∈ exposedNames model.fields then
          match lookupName name attributes with
          | some value => .ok value
          | none => session.classField record type name
        else .error (viewFault session view name),
        session.withCells (viewedCells session.cells record type view attributes)) := by
  let state := session.withCells (viewedCells session.cells record type view attributes)
  have now : state.Shows model settings view scopes :=
    shows.of_sameCode (session.sameCode_withCells _)
  by_cases exposed : name ∈ exposedNames model.fields
  · rw [if_pos exposed]
    obtain ⟨field, member, rfl⟩ := List.mem_map.1 exposed
    have through : (readAttribute callAlone (.cell session.cells.length) field.name).run state =
        (readAttribute _ (.cell record) field.name).run state :=
      run_readAttribute_full now member (getElem?_viewedCells_view session.cells)
    exact through.trans (run_readAttribute_field (getElem?_viewedCells_record inside)
      ((stores _ exposed).withCells _))
  · rw [if_neg exposed]
    rw [List.mem_pair, not_or] at allowed
    exact run_readAttribute_other now exposed allowed.1 allowed.2
      (getElem?_viewedCells_view session.cells)

theorem run_writeView (shows : session.Shows model settings view scopes)
    (unguarded : session.Unguarded view)
    (stores : ∀ name ∈ exposedNames model.fields, session.Stores type name)
    (inside : record < session.cells.length) {name : Text} (value : Value)
    (allowed : name ∉ [viewTarget, initializerName]) :
    (writeAttribute callAlone (.cell session.cells.length) name value).run
        (session.withCells (viewedCells session.cells record type view attributes)) =
      if name ∈ exposedNames model.fields then
        (.ok (), session.withCells
          (viewedCells session.cells record type view (putName name value attributes)))
      else
        (.error (viewFault session view name),
          session.withCells (viewedCells session.cells record type view attributes)) := by
  let state := session.withCells (viewedCells session.cells record type view attributes)
  have now : state.Shows model settings view scopes :=
    shows.of_sameCode (session.sameCode_withCells _)
  have nowUnguarded : state.Unguarded view := unguarded
  by_cases exposed : name ∈ exposedNames model.fields
  · rw [if_pos exposed, ← set_viewedCells inside (putName name value attributes)]
    obtain ⟨field, member, rfl⟩ := List.mem_map.1 exposed
    exact run_writeAttribute_full now nowUnguarded member
      (getElem?_viewedCells_view session.cells) (getElem?_viewedCells_record inside)
      ((stores _ exposed).withCells _)
  · rw [if_neg exposed]
    rw [List.mem_pair, not_or] at allowed
    exact run_writeAttribute_other now nowUnguarded exposed allowed.1 allowed.2
      (getElem?_viewedCells_view session.cells)

/-- The accesses of a callback reach the record, in order, and nothing else. -/
theorem run_use (shows : session.Shows model settings view scopes)
    (unguarded : session.Unguarded view)
    (stores : ∀ name ∈ exposedNames model.fields, session.Stores type name)
    (inside : record < session.cells.length) {use : ViewUse}
    (avoids : use.Avoids [viewTarget, initializerName]) :
    (use.run callAlone (.cell session.cells.length)).run
        (session.withCells (viewedCells session.cells record type view attributes)) =
      ((use.onRecord (exposedNames model.fields) (session.classField record type)
          (viewFault session view) attributes).1,
        session.withCells (viewedCells session.cells record type view
          (use.onRecord (exposedNames model.fields) (session.classField record type)
            (viewFault session view) attributes).2)) := by
  induction use generalizing attributes with
  | finish result => cases result <;> rfl
  | read name next ih =>
    rw [ViewUse.run, run_bind_of_ok (run_outcomeOf _), run_readView shows stores inside avoids.1,
      ViewUse.onRecord]
    split
    · split
      · exact ih _ (avoids.2 _)
      · exact ih _ (avoids.2 _)
    · exact ih _ (avoids.2 _)
  | write name value next ih =>
    rw [ViewUse.run, run_bind_of_ok (run_outcomeOf _),
      run_writeView shows unguarded stores inside value avoids.1, ViewUse.onRecord]
    split
    · exact ih _ (avoids.2 _)
    · exact ih _ (avoids.2 _)

end Accesses

/-! ## The operation -/

/-- A class whose objects can be substituted. -/
structure Session.Substitutes (session : Session) (model : RecordModel) (settings : Settings)
    (type view : Nat) (scopes : List Nat) : Prop
    extends session.Shows model settings view scopes where
  named : session.Means scopes (mutationViewName model.typeName settings) (.type view)
  substitute : ∃ index, session.attribute? type "substitute" = some (.value (.function index)) ∧
    session.Carries index scopes (substituteArtifact model settings)
  stores : ∀ name ∈ exposedNames model.fields, session.Stores type name

def substituteBody (viewName : Text) : List Command :=
  [.assign (.name "view") (.call (.name viewName) [.name "self"]),
    .finally [.evaluate (.call (.name "f") [.name "view"])]
      [.assign (localAttribute "view" viewTarget) .absent]]

section Operation

variable {callback : Value → Action Value} {depth : Nat} {session : Session} {scopes : List Nat}
  {model : RecordModel} {settings : Settings} {record type view : Nat}
  {attributes : List (Text × Value)}

theorem substituteMethod_of_defined {method : Method}
    (defined : (substituteArtifact model settings).definition = .method method) :
    method.parameters.map (·.name) = (["self", "f"] : List Text) ∧
      method.body = substituteBody (mutationViewName model.typeName settings) := by
  cases defined
  exact ⟨rfl, rfl⟩

/-- The view is emptied behind the callback, whatever comes of it. -/
theorem run_substitute {after : Session} {result : Except Fault Value}
    {left : List (Text × Value)}
    (substitutes : session.Substitutes model settings type view scopes)
    (unguarded : session.Unguarded view)
    (free : mutationViewName model.typeName settings ∉ (["self", "f", "view"] : List Text))
    (cell : session.cells[record]? = some (.object type attributes))
    (unshadowed : lookupName "substitute" attributes = none)
    (called : (callback (.cell session.cells.length)).run (session.withCells
      (session.cells ++ [.object view [(viewTarget, .cell record)]])) = (result, after))
    (same : session.SameCode after)
    (viewCell : after.cells[session.cells.length]? = some (.object view left)) :
    (callOn (invoke callback (depth + 3)) (.cell record) "substitute"
        [callbackValue]).run session =
      (result.map fun _ => .absent, after.withCells (after.cells.set session.cells.length
        (.object view (putName viewTarget .absent left)))) := by
  obtain ⟨index, inherited, method, defined, runs⟩ := substitutes.substitute
  obtain ⟨parameters, body⟩ := substituteMethod_of_defined defined
  have single : (method.parameters.map (·.name)).Nodup := by
    rw [parameters]
    decide
  have together : (method.parameters.map (·.name)).length = [callbackValue].length + 1 := by
    rw [parameters]
    rfl
  let start : Frame := ⟨scopes, (["self", "f", "view"] : List Text),
    ⟨[("self", .cell record), ("f", callbackValue)]⟩⟩
  have frame : methodFrame method scopes [.cell record, callbackValue] = start := by
    rw [methodFrame, parameters, body]
    rfl
  let made := session.withCells (session.cells ++ [.object view [(viewTarget, .cell record)]])
  let viewing : Frame :=
    { start with locals := start.locals.put "view" (.cell session.cells.length) }
  have constructed : (evaluate (invoke callback (depth + 2)) start
      (.call (.name (mutationViewName model.typeName settings)) [.name "self"])).run session =
        (.ok (.cell session.cells.length), made) := by
    have unbound : start.locals.get? (mutationViewName model.typeName settings) = none := by
      refine lookupName_eq_none_iff.2 fun member => free ?_
      exact List.mem_append_left [("view" : Text)] member
    have function : (evaluate (invoke callback (depth + 2)) start
        (.name (mutationViewName model.typeName settings))).run session =
          (.ok (.type view), session) :=
      run_resolve_outside unbound free substitutes.named
    have arguments : (evaluateAll (invoke callback (depth + 2)) start [.name "self"]).run session =
        (.ok [.cell record], session) := by
      have self : start.locals.get? "self" = some (.cell record) := rfl
      simp only [evaluateAll, evaluate, run_bind, run_resolve_local self, run_pure]
    exact (run_evaluate_call function arguments).trans
      (run_construct_view substitutes.toShows unguarded)
  have used : (evaluate (invoke callback (depth + 2)) viewing
      (.call (.name "f") [.name "view"])).run made = (result, after) :=
    (run_evaluate_callback rfl rfl).trans called
  have emptied : (runAll (invoke callback (depth + 2)) viewing
      [.assign (localAttribute "view" viewTarget) .absent]).run after =
        (.ok (.goesOn viewing.locals), after.withCells (after.cells.set session.cells.length
          (.object view (putName viewTarget .absent left)))) := by
    have absent : (evaluate (invoke callback (depth + 2)) viewing .absent).run after =
        (.ok .absent, after) := rfl
    have still : after.Unguarded view := by
      rw [same.eq]
      exact unguarded
    exact runAll_assignAttribute [] absent rfl viewCell still
      (substitutes.toShows.of_sameCode same).stores_place
  have finished : (runAll (invoke callback (depth + 2)) viewing
      [.finally [.evaluate (.call (.name "f") [.name "view"])]
        [.assign (localAttribute "view" viewTarget) .absent]]).run made =
      (result.map fun _ => .goesOn viewing.locals, after.withCells
        (after.cells.set session.cells.length
          (.object view (putName viewTarget .absent left)))) := by
    rw [runAll, run_bind, run, run_ending]
    -- the same clean-up runs on both ways out, and only the first goes on behind it
    cases result with
    | ok value =>
      have gone : (runAll (invoke callback (depth + 2)) viewing
          [.evaluate (.call (.name "f") [.name "view"])]).run made =
            (.ok (.goesOn viewing.locals), after) :=
        runAll_evaluate _ used
      simp only [gone, run_bind, emptied, run_pure]
      rfl
    | error fault =>
      simp only [runAll_evaluate_fault _ used, run_bind, emptied, run_pure, run_throw]
      rfl
  rw [run_callOn cell inherited unshadowed runs single together, frame, body, substituteBody,
    run_map, runAll_assign _ _ constructed, finished]
  cases result <;> rfl

end Operation

/-! ## Views that outlive their operation -/

structure Session.Emptied (session : Session) (model : RecordModel) (settings : Settings)
    (view retained : Nat) (scopes : List Nat) : Prop
    extends session.Shows model settings view scopes where
  cell : session.cells[retained]? = some (.object view [(viewTarget, .absent)])

/-- What may happen to a session with a retained view: someone reads or writes the view, under any
name but that of its place and that of its initialiser, or something else happens that leaves the
place and the code of the view alone. -/
inductive Session.Proceeds (model : RecordModel) (settings : Settings) (view retained : Nat)
    (scopes : List Nat) : Session → Session → Prop
  | read {session : Session} {name : Text} (allowed : name ∉ [viewTarget, initializerName]) :
    Proceeds model settings view retained scopes session
      ((readAttribute callAlone (.cell retained) name).run session).2
  | write {session : Session} {name : Text} {value : Value}
    (allowed : name ∉ [viewTarget, initializerName]) :
    Proceeds model settings view retained scopes session
      ((writeAttribute callAlone (.cell retained) name value).run session).2
  | elsewhere {before after : Session} (shows : after.Shows model settings view scopes)
    (kept : after.cells[retained]? = before.cells[retained]?) :
    Proceeds model settings view retained scopes before after

section Retained

variable {session : Session} {scopes : List Nat} {model : RecordModel} {settings : Settings}
  {view retained : Nat}

theorem Session.Emptied.refuses (emptied : session.Emptied model settings view retained scopes)
    (unguarded : session.Unguarded view) {field : Field} (member : field ∈ model.exposedFields) :
    (readAttribute callAlone (.cell retained) field.name).run session =
        (.error (.failed (.raised .reference (viewRefusal model settings))), session) ∧
      ∀ value, (writeAttribute callAlone (.cell retained) field.name value).run session =
        (.error (.failed (.raised .reference (viewRefusal model settings))), session) :=
  ⟨run_readAttribute_empty emptied.toShows member emptied.cell, fun _ =>
    run_writeAttribute_empty emptied.toShows unguarded member emptied.cell⟩

theorem Session.Emptied.access_unchanged
    (emptied : session.Emptied model settings view retained scopes)
    (unguarded : session.Unguarded view) {name : Text}
    (allowed : name ∉ [viewTarget, initializerName]) :
    ((readAttribute callAlone (.cell retained) name).run session).2 = session ∧
      ∀ value, ((writeAttribute callAlone (.cell retained) name value).run session).2 =
        session := by
  by_cases exposed : name ∈ exposedNames model.fields
  · obtain ⟨field, member, rfl⟩ := List.mem_map.1 exposed
    obtain ⟨reads, writes⟩ := emptied.refuses unguarded member
    exact ⟨congrArg Prod.snd reads, fun value => congrArg Prod.snd (writes value)⟩
  · rw [List.mem_pair, not_or] at allowed
    constructor
    · rw [run_readAttribute_other emptied.toShows exposed allowed.1 allowed.2 emptied.cell]
    · intro value
      rw [run_writeAttribute_other emptied.toShows unguarded exposed allowed.1 allowed.2
        emptied.cell]

theorem Session.Proceeds.emptied {before after : Session}
    (step : Session.Proceeds model settings view retained scopes before after)
    (free : guardName ∉ exposedNames model.fields)
    (emptied : before.Emptied model settings view retained scopes) :
    after.Emptied model settings view retained scopes := by
  have unguarded := emptied.toShows.unguarded free
  cases step with
  | read allowed =>
    rw [(emptied.access_unchanged unguarded allowed).1]
    exact emptied
  | write allowed =>
    rw [(emptied.access_unchanged unguarded allowed).2]
    exact emptied
  | elsewhere shows kept => exact ⟨shows, kept.trans emptied.cell⟩

/-- A view stays empty whatever happens to it. -/
theorem Session.Emptied.of_reachable {later : Session}
    (emptied : session.Emptied model settings view retained scopes)
    (free : guardName ∉ exposedNames model.fields)
    (reached : Relation.ReflTransGen
      (Session.Proceeds model settings view retained scopes) session later) :
    later.Emptied model settings view retained scopes := by
  induction reached with
  | refl => exact emptied
  | tail _ step ih => exact step.emptied free ih

end Retained

/-! ## Substitution -/

/-- The class of a record with an exposed field and a skipped one, its view, and one record. -/
def viewSession : Session where
  cells := [.object 0 [("x", .whole 1), ("y", .whole 2)]]
  types :=
    [plainType "P" "P" [] none ⟨⟨[("substitute", .value (.function 0))]⟩, [], none⟩,
      plainType "DestructPRef" "DestructPRef" [] none
        ⟨⟨[(viewTarget, .slot), (initializerName, .value (.function 1)),
          ("x", .property 2 (some 3))]⟩, [], some [viewTarget]⟩]
  functions :=
    ((match (substituteArtifact pairModel .default).definition with
      | .method method => [method]
      | .type _ => []) ++ viewInitializer pairModel ::
        pairModel.exposedFields.flatMap fun field =>
          [fieldGetter pairModel .default field, fieldSetter pairModel .default field]).map
            fun method => functionOf [moduleScope] method.name method
  scopes := [⟨[("DestructPRef", .type 1)]⟩]
  held := .empty
  notes := []
  source := none

theorem viewSession_substitutes :
    viewSession.Substitutes pairModel .default 0 1 [moduleScope] where
  isView := by
    refine ⟨_, rfl, rfl, rfl, rfl, ⟨1, rfl, _, none, rfl⟩, fun field member => ?_,
      fun name unexposed noPlace noInitializer => ?_⟩
    · obtain rfl := List.mem_singleton.1 member
      exact ⟨2, 3, rfl, ⟨_, none, rfl⟩, ⟨_, none, rfl⟩⟩
    · refine lookupName_eq_none_iff.2 fun known => ?_
      rcases List.mem_cons.1 known with same | known
      · exact noPlace same
      · rcases List.mem_pair.1 known with same | same
        · exact noInitializer same
        · exact unexposed (List.mem_singleton.2 same)
  root := rfl
  refusal := rfl
  named := rfl
  substitute := ⟨0, rfl, _, rfl, _, none, rfl⟩
  stores := by
    intro name member
    obtain rfl := List.mem_singleton.1 member
    exact ⟨fun getter setter => nofun, .inr rfl⟩

end Live
end OpenRecord
