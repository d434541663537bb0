import OpenRecord.Generation.Companion
import OpenRecord.Live.Definition
import OpenRecord.Proofs.Live.Running

namespace OpenRecord
namespace Live

/-!
# Running emitted code

One rule for each form of emitted command says what is left to do behind it.  Two runs that emitted
code consists of are followed to their end here: the call of an emitted method, and the raw writes
that put the fields of one object into another.
-/

open Code

/-! ## Names -/

section Names

-- The equations of the interpreter are made here once, ahead of all the rules that rewrite with them.
attribute [local simp] evaluate evaluateAll evaluateNamed run runAll

variable {call : Caller} {session : Session} {frame : Frame} {name : Text} {value : Value}

theorem run_resolve_local (known : frame.locals.get? name = some value) :
    (resolve frame name).run session = (.ok value, session) := by
  simp only [resolve, known, run_pure]

theorem run_resolveOutside {scopes : List Nat} (means : session.Means scopes name value) :
    (resolveOutside scopes name).run session = (.ok value, session) := by
  rw [Session.Means] at means
  simp only [resolveOutside, run_bind, run_get, means, run_pure]

theorem run_resolve_outside (unbound : frame.locals.get? name = none)
    (free : name ∉ frame.owned) (means : session.Means frame.scopes name value) :
    (resolve frame name).run session = (.ok value, session) := by
  have notOwned : frame.owned.contains name = false := by simpa using free
  simp only [resolve, unbound, notOwned, Bool.false_eq_true, if_false, run_resolveOutside means]

theorem run_localAttribute {place : Text} {address type : Nat} {attributes : List (Text × Value)}
    (known : frame.locals.get? place = some (.cell address))
    (cell : session.cells[address]? = some (.object type attributes))
    (visible : ∀ getter setter, session.attribute? type name ≠ some (.property getter setter))
    (own : lookupName name attributes = some value) :
    (evaluate call frame (localAttribute place name)).run session = (.ok value, session) := by
  simp only [localAttribute, evaluate, run_bind, run_resolve_local known,
    run_readAttribute_own cell visible own]

/-- A part of a facility, if no scope gives its name another meaning. -/
theorem run_facilityAttribute {place : Text} {facility found : Facility}
    (unbound : frame.locals.get? place = none) (free : place ∉ frame.owned)
    (means : session.Means frame.scopes place (.facility facility))
    (known : facilityAttribute? facility name = some found) :
    (evaluate call frame (localAttribute place name)).run session =
      (.ok (.facility found), session) := by
  simp only [localAttribute, evaluate, run_bind, run_resolve_outside unbound free means,
    run_readAttribute_facility known]

end Names

/-! ## Calls -/

section Calls

variable {call : Caller} {session : Session} {frame : Frame} {function : Term}
  {callee : Value}

theorem run_evaluate_call {arguments : List Term} {given : List Value}
    (found : (evaluate call frame function).run session = (.ok callee, session))
    (evaluated : (evaluateAll call frame arguments).run session = (.ok given, session)) :
    (evaluate call frame (.call function arguments)).run session =
      (call callee given []).run session := by
  simp only [evaluate, run_bind, found, evaluated]

theorem run_evaluate_method {place name : Text}
    (known : frame.locals.get? place = some callee) :
    (evaluate call frame (.call (localAttribute place name) [])).run session =
      (callOn call callee name []).run session := by
  simp only [localAttribute, evaluate, evaluateAll, callOn, run_bind, run_resolve_local known,
    run_pure]

theorem run_evaluate_construct {arguments : List (Text × Term)} {given : List (Text × Value)}
    (found : (evaluate call frame function).run session = (.ok callee, session))
    (evaluated : (evaluateNamed call frame arguments).run session = (.ok given, session)) :
    (evaluate call frame (.construct function arguments)).run session =
      (call callee [] given).run session := by
  simp only [evaluate, run_bind, found, evaluated]

theorem run_invoke_facility (callback : Value → Action Value) (depth : Nat) (session : Session)
    (facility : Facility) (positional : List Value) (named : List (Text × Value)) :
    (invoke callback (depth + 1) (.facility facility) positional named).run session =
      (callFacility callback (invoke callback depth) facility positional named).run session :=
  rfl

theorem run_evaluate_callback {callback : Value → Action Value} {depth : Nat} {place name : Text}
    {argument : Value} (known : frame.locals.get? place = some (.facility .callback))
    (given : frame.locals.get? name = some argument) :
    (evaluate (invoke callback (depth + 1)) frame (.call (.name place) [.name name])).run session =
      (callback argument).run session := by
  have found : (evaluate (invoke callback (depth + 1)) frame (.name place)).run session =
      (.ok (.facility .callback), session) :=
    run_resolve_local known
  have evaluated : (evaluateAll (invoke callback (depth + 1)) frame [.name name]).run session =
      (.ok [argument], session) := by
    simp only [evaluateAll, evaluate, run_bind, run_resolve_local given, run_pure]
  exact (run_evaluate_call found evaluated).trans (run_invoke_facility ..)

theorem run_invoke_type (callback : Value → Action Value) (depth : Nat) (session : Session)
    (type : Nat) (positional : List Value) (named : List (Text × Value)) :
    (invoke callback (depth + 1) (.type type) positional named).run session =
      (construct (invoke callback depth) type positional named).run session :=
  rfl

end Calls

/-! ## Commands -/

section Commands

variable {call : Caller} {frame : Frame} {before between : Session} {term : Term} {value : Value}
  (later : List Command)

theorem runAll_assign (name : Text)
    (evaluated : (evaluate call frame term).run before = (.ok value, between)) :
    (runAll call frame (.assign (.name name) term :: later)).run before =
      (runAll call { frame with locals := frame.locals.put name value } later).run between := by
  simp only [runAll, run, run_bind, evaluated, run_pure]

theorem runAll_evaluate
    (evaluated : (evaluate call frame term).run before = (.ok value, between)) :
    (runAll call frame (.evaluate term :: later)).run before =
      (runAll call frame later).run between := by
  simp only [runAll, run, run_bind, evaluated, run_pure]

theorem runAll_evaluate_fault {fault : Fault}
    (evaluated : (evaluate call frame term).run before = (.error fault, between)) :
    (runAll call frame (.evaluate term :: later)).run before = (.error fault, between) := by
  simp only [runAll, run, run_bind, evaluated]

theorem runAll_return
    (evaluated : (evaluate call frame term).run before = (.ok value, between)) :
    (runAll call frame (.return term :: later)).run before = (.ok (.returns value), between) := by
  simp only [runAll, run, run_bind, evaluated, run_pure]

theorem runAll_assignAttribute {session : Session} {place name : Text} {address type : Nat}
    {attributes : List (Text × Value)}
    (evaluated : (evaluate call frame term).run session = (.ok value, session))
    (known : frame.locals.get? place = some (.cell address))
    (cell : session.cells[address]? = some (.object type attributes))
    (unguarded : session.Unguarded type) (stores : session.Stores type name) :
    (runAll call frame (.assign (localAttribute place name) term :: later)).run session =
      (runAll call frame later).run (session.withCells
        (session.cells.set address (.object type (putName name value attributes)))) := by
  have target : (evaluate call frame (.name place)).run session = (.ok (.cell address), session) :=
    run_resolve_local known
  have written : (writeAttribute call (.cell address) name value).run session =
      (.ok (), session.withCells
        (session.cells.set address (.object type (putName name value attributes)))) :=
    (run_writeAttribute cell unguarded).trans (run_rawWrite cell stores)
  rw [localAttribute, runAll, run_bind, run, run_bind_of_ok evaluated, run_bind_of_ok target,
    run_bind_of_ok written]
  rfl

end Commands

theorem boundInCommands_eq_flatMap (commands : List Command) :
    boundInCommands commands = commands.flatMap Command.boundNames := by
  induction commands with
  | nil => rfl
  | cons first later ih => rw [boundInCommands, ih, List.flatMap_cons]

/-! ## Methods -/

/-- What a call gives for the end of a body. -/
def Completion.answer : Completion → Value
  | .returns value => value
  | .goesOn _ => .absent

/-- A function is an emitted method in some scopes, whatever it is called and whoever owns it. -/
def Session.Runs (session : Session) (index : Nat) (scopes : List Nat) (method : Method) : Prop :=
  ∃ qualifiedName owner,
    session.functions[index]? = some { functionOf scopes qualifiedName method with owner }

/-- A function runs the method of an artifact in some scopes. -/
def Session.Carries (session : Session) (index : Nat) (scopes : List Nat) (artifact : Artifact) :
    Prop :=
  ∃ method, artifact.definition = .method method ∧ session.Runs index scopes method

/-- A body that returns at once answers what it returns. -/
theorem run_answer_return {call : Caller} {frame : Frame} {session : Session} (term : Term) :
    (Completion.answer <$> runAll call frame [.return term]).run session =
      (evaluate call frame term).run session := by
  simp only [run_map, runAll, run, run_bind]
  rcases (evaluate call frame term).run session with ⟨_ | _, after⟩ <;> rfl

section Methods

variable {callback : Value → Action Value} {depth index : Nat} {session : Session}
  {scopes : List Nat} {method : Method}

def methodFrame (method : Method) (scopes : List Nat) (arguments : List Value) : Frame :=
  ⟨scopes, method.parameters.map (·.name) ++ boundInCommands method.body,
    ⟨(method.parameters.map (·.name)).zip arguments⟩⟩

theorem run_invoke_method {arguments : List Value} (runs : session.Runs index scopes method)
    (distinct : (method.parameters.map (·.name)).Nodup)
    (together : (method.parameters.map (·.name)).length = arguments.length) :
    (invoke callback (depth + 1) (.function index) arguments []).run session =
      (Completion.answer <$>
        runAll (invoke callback depth) (methodFrame method scopes arguments) method.body).run
          session := by
  obtain ⟨qualifiedName, owner, known⟩ := runs
  have formals : ((method.parameters.map (·.name)).map Formal.required).map (·.name) =
      method.parameters.map (·.name) := by
    rw [List.map_map]
    exact List.map_id _
  have free : ∀ formal ∈ (method.parameters.map (·.name)).map Formal.required,
      formal.byNameOnly = false := by
    intro formal member
    obtain ⟨name, -, rfl⟩ := List.mem_map.1 member
    rfl
  have taken : bindArguments ((method.parameters.map (·.name)).map Formal.required) arguments [] =
      .ok ⟨(method.parameters.map (·.name)).zip arguments ++ []⟩ :=
    bindArguments_exact free (formals.trans (List.append_nil _).symm) (formals.symm ▸ distinct)
      together
  rw [List.append_nil] at taken
  simp only [invoke, callValue, run_bind, run_get, known, runFunction, takeParameters, functionOf,
    Bool.false_eq_true, if_false, takeArguments, taken, run_pure, run_map, methodFrame]
  split
  · split <;> rfl
  · rfl

theorem run_invoke_bound {receiver : Value} {arguments : List Value}
    (runs : session.Runs index scopes method) :
    (invoke callback (depth + 1) (.bound index receiver) arguments []).run session =
      (invoke callback (depth + 1) (.function index) (receiver :: arguments) []).run session := by
  obtain ⟨qualifiedName, owner, known⟩ := runs
  simp only [invoke, callValue, run_bind, run_get, known]

theorem run_callOn {name : Text} {address type : Nat} {attributes : List (Text × Value)}
    {arguments : List Value} (cell : session.cells[address]? = some (.object type attributes))
    (inherited : session.attribute? type name = some (.value (.function index)))
    (unshadowed : lookupName name attributes = none) (runs : session.Runs index scopes method)
    (distinct : (method.parameters.map (·.name)).Nodup)
    (together : (method.parameters.map (·.name)).length = arguments.length + 1) :
    (callOn (invoke callback (depth + 1)) (.cell address) name arguments).run session =
      (Completion.answer <$>
        runAll (invoke callback depth) (methodFrame method scopes (.cell address :: arguments))
          method.body).run session := by
  rw [callOn, run_bind, run_readAttribute_function cell inherited unshadowed]
  exact (run_invoke_bound runs).trans (run_invoke_method runs distinct together)

theorem run_callOn_class {name : Text} {type : Nat} {arguments : List Value}
    (inherited : session.attribute? type name = some (.value (.classMethod index)))
    (runs : session.Runs index scopes method) (distinct : (method.parameters.map (·.name)).Nodup)
    (together : (method.parameters.map (·.name)).length = arguments.length + 1) :
    (callOn (invoke callback (depth + 1)) (.type type) name arguments).run session =
      (Completion.answer <$>
        runAll (invoke callback depth) (methodFrame method scopes (.type type :: arguments))
          method.body).run session := by
  have found : (readAttribute (invoke callback (depth + 1)) (.type type) name).run session =
      (.ok (.bound index (.type type)), session) := by
    simp only [readAttribute, readType, run_bind, run_get, inherited, run_pure]
  rw [callOn, run_bind_of_ok found]
  exact (run_invoke_bound runs).trans (run_invoke_method runs distinct together)

end Methods

/-! ## Raw writes -/

/-- Attributes with the values of some names written one after the other. -/
def overwritten (values : Text → Value) : List Text → List (Text × Value) → List (Text × Value)
  | [], attributes => attributes
  | name :: later, attributes =>
    overwritten values later (putName name (values name) attributes)

section Overwriting

variable {values : Text → Value} {name : Text}

theorem lookupName_overwritten_of_notMem {names : List Text} {attributes : List (Text × Value)}
    (other : name ∉ names) :
    lookupName name (overwritten values names attributes) = lookupName name attributes := by
  induction names generalizing attributes with
  | nil => rfl
  | cons first later ih =>
    rw [List.mem_cons, not_or] at other
    rw [overwritten, ih other.2, lookupName_putName_other other.1]

theorem lookupName_overwritten_of_mem {names : List Text} {attributes : List (Text × Value)}
    (member : name ∈ names) :
    lookupName name (overwritten values names attributes) = some (values name) := by
  induction names generalizing attributes with
  | nil => cases member
  | cons first later ih =>
    rw [overwritten]
    by_cases again : name ∈ later
    · exact ih again
    · obtain rfl := (List.mem_cons.1 member).resolve_right again
      rw [lookupName_overwritten_of_notMem again, lookupName_putName_same]

/-- Names that are new come in at the end. -/
theorem overwritten_of_fresh {names : List Text} {attributes : List (Text × Value)}
    (distinct : names.Nodup) (fresh : ∀ name ∈ names, name ∉ attributes.map (·.1)) :
    overwritten values names attributes =
      attributes ++ names.map fun name => (name, values name) := by
  induction names generalizing attributes with
  | nil => simp [overwritten]
  | cons first later ih =>
    rw [List.nodup_cons] at distinct
    rw [List.forall_mem_cons] at fresh
    rw [overwritten, putName_of_notMem fresh.1, ih distinct.2]
    · simp
    · intro name member known
      rw [List.map_append, List.mem_append] at known
      rcases known with known | known
      · exact fresh.2 name member known
      · obtain rfl := List.mem_singleton.1 known
        exact distinct.1 member

end Overwriting

/-- The fields of one object are put into another, past the guards of its class. -/
theorem runAll_rawWrites {callback : Value → Action Value} {depth : Nat} {session : Session}
    {frame : Frame} {target source : Text} {address origin type sourceType : Nat}
    {cells : List Cell} {attributes sourceAttributes : List (Text × Value)}
    {values : Text → Value} {names : List Text} (later : List Command)
    (unbound : frame.locals.get? "object" = none) (free : ("object" : Text) ∉ frame.owned)
    (means : session.Means frame.scopes "object" (.facility .rootType))
    (targetKnown : frame.locals.get? target = some (.cell address))
    (sourceKnown : frame.locals.get? source = some (.cell origin))
    (different : address ≠ origin)
    (cell : cells[address]? = some (.object type attributes))
    (sourceCell : cells[origin]? = some (.object sourceType sourceAttributes))
    (stores : ∀ name ∈ names, session.Stores type name)
    (visible : ∀ name ∈ names, ∀ getter setter,
      session.attribute? sourceType name ≠ some (.property getter setter))
    (own : ∀ name ∈ names, lookupName name sourceAttributes = some (values name)) :
    (runAll (invoke callback (depth + 1)) frame
        (names.map (fun name => OpenRecord.rawWrite target name source) ++ later)).run
          (session.withCells cells) =
      (runAll (invoke callback (depth + 1)) frame later).run
        (session.withCells
          (cells.set address (.object type (overwritten values names attributes)))) := by
  -- the target changes with each write, and the source stays what it was
  induction names generalizing cells attributes with
  | nil =>
    have same : cells.set address (.object type attributes) = cells := set_cell_self cell
    rw [overwritten, same]
    rfl
  | cons name rest ih =>
    rw [List.forall_mem_cons] at stores visible own
    have function : (evaluate (invoke callback (depth + 1)) frame
        (localAttribute "object" "__setattr__")).run (session.withCells cells) =
          (.ok (.facility .rawWrite), session.withCells cells) :=
      run_facilityAttribute unbound free means rfl
    have value : (evaluate (invoke callback (depth + 1)) frame
        (localAttribute source name)).run (session.withCells cells) =
          (.ok (values name), session.withCells cells) :=
      run_localAttribute sourceKnown sourceCell visible.1 own.1
    have written : (rawWrite (invoke callback depth) (.cell address) name (values name)).run
        (session.withCells cells) = (.ok (), session.withCells
          (cells.set address (.object type (putName name (values name) attributes)))) :=
      run_rawWrite cell (stores.1.withCells cells)
    have arguments : (evaluateAll (invoke callback (depth + 1)) frame
        [.name target, .string name, localAttribute source name]).run (session.withCells cells) =
          (.ok [.cell address, .text name, values name], session.withCells cells) := by
      simp only [evaluateAll, evaluate, run_bind, run_resolve_local targetKnown, value, run_pure]
    have first : (evaluate (invoke callback (depth + 1)) frame
        (.call (localAttribute "object" "__setattr__")
          [.name target, .string name, localAttribute source name])).run (session.withCells cells) =
        (.ok .absent, session.withCells
          (cells.set address (.object type (putName name (values name) attributes)))) := by
      rw [run_evaluate_call function arguments, run_invoke_facility]
      simp only [callFacility, run_bind, written, run_pure]
    have inside : address < cells.length := (List.getElem?_eq_some_iff.1 cell).1
    have writtenCell : (cells.set address
        (.object type (putName name (values name) attributes)))[address]? =
          some (.object type (putName name (values name) attributes)) :=
      List.getElem?_set_self inside
    have otherCell : (cells.set address
        (.object type (putName name (values name) attributes)))[origin]? =
          some (.object sourceType sourceAttributes) :=
      (List.getElem?_set_ne different).trans sourceCell
    rw [List.map_cons, List.cons_append, OpenRecord.rawWrite, runAll_evaluate _ first,
      ih writtenCell otherCell stores.2 visible.2 own.2, List.set_set, overwritten]

/-- A new object gets the fields of another one and is returned. -/
theorem runAll_fillInstance {callback : Value → Action Value} {depth : Nat} {session : Session}
    {frame : Frame} {term : Term} {origin type sourceType : Nat}
    {attributes sourceAttributes : List (Text × Value)} {values : Text → Value}
    {names : List Text}
    (unbound : frame.locals.get? "object" = none) (free : ("object" : Text) ∉ frame.owned)
    (root : session.Means frame.scopes "object" (.facility .rootType))
    (destruct : frame.locals.get? "destruct" = some (.cell origin))
    (sourceCell : session.cells[origin]? = some (.object sourceType sourceAttributes))
    (stores : ∀ name ∈ names, session.Stores type name)
    (visible : ∀ name ∈ names, ∀ getter setter,
      session.attribute? sourceType name ≠ some (.property getter setter))
    (own : ∀ name ∈ names, lookupName name sourceAttributes = some (values name))
    (built : (evaluate (invoke callback (depth + 1)) frame term).run session =
      (.ok (.cell session.cells.length),
        session.withCells (session.cells ++ [.object type attributes]))) :
    (runAll (invoke callback (depth + 1)) frame (.assign (.name "instance") term ::
        (names.map (fun name => OpenRecord.rawWrite "instance" name "destruct") ++
          [.return (.name "instance")]))).run session =
      (.ok (.returns (.cell session.cells.length)), session.withCells (session.cells ++
        [.object type (overwritten values names attributes)])) := by
  let locals := frame.locals.put "instance" (.cell session.cells.length)
  let cells := session.cells ++ [.object type attributes]
  have inside : origin < session.cells.length := (List.getElem?_eq_some_iff.1 sourceCell).1
  have isNew : locals.get? "instance" = some (.cell session.cells.length) :=
    NameTable.get?_put_same ..
  have isSource : locals.get? "destruct" = some (.cell origin) :=
    (NameTable.get?_put_other _ _ (by decide)).trans destruct
  have stillUnbound : locals.get? "object" = none :=
    (NameTable.get?_put_other _ _ (by decide)).trans unbound
  have newCell : cells[session.cells.length]? = some (.object type attributes) :=
    List.getElem?_concat_length
  have oldCell : cells[origin]? = some (.object sourceType sourceAttributes) :=
    (List.getElem?_append_left inside).trans sourceCell
  have written : (runAll (invoke callback (depth + 1)) { frame with locals }
      (names.map (fun name => OpenRecord.rawWrite "instance" name "destruct") ++
        [.return (.name "instance")])).run (session.withCells cells) =
      (runAll (invoke callback (depth + 1)) { frame with locals }
        [.return (.name "instance")]).run (session.withCells (cells.set session.cells.length
          (.object type (overwritten values names attributes)))) :=
    runAll_rawWrites _ stillUnbound free root isNew isSource (Nat.ne_of_gt inside) newCell oldCell
      stores visible own
  have finished : cells.set session.cells.length
      (.object type (overwritten values names attributes)) =
        session.cells ++ [.object type (overwritten values names attributes)] := by
    simp [cells]
  rw [runAll_assign _ _ built, written, finished]
  exact runAll_return [] (run_resolve_local isNew)

end Live
end OpenRecord
