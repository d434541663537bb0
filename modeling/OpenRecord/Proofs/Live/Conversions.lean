import OpenRecord.Proofs.Live.CompanionObjects

namespace OpenRecord
namespace Live

/-!
# Converting records to companions and back

The two conversions are run as they are emitted.  `into_destruct` makes a companion from the
exposed fields and writes the skipped ones into it afterwards; `from_destruct` makes an object
without initialising it and writes every field.  Whatever the fields are and in whatever order
exposed and skipped ones stand, every value arrives under its own name, and nothing else changes.

That the record's class lets its objects keep the fields, and that they can be made without
initialising them, is a condition on that class.  Whether there is a companion class at all depends
on the names of the fields, and exactly on `RecordModel.Declarable`.
-/

open Code

/-- A class whose objects can be turned into companions and back: it has both conversions, the names
in them mean the companion and the root type, and its objects keep the fields of the model. -/
structure Session.Converts (session : Session) (model : RecordModel) (settings : Settings)
    (type companion : Nat) (scopes : List Nat) : Prop where
  isCompanion : session.IsCompanion companion model settings
  named : session.Means scopes (companionName model.typeName settings) (.type companion)
  root : session.Means scopes "object" (.facility .rootType)
  into : ∃ index, session.attribute? type "into_destruct" = some (.value (.function index)) ∧
    session.Carries index scopes (intoArtifact model (model.companion settings))
  restore : ∃ index,
    session.attribute? type "from_destruct" = some (.value (.classMethod index)) ∧
      session.Carries index scopes (fromArtifact model (model.companion settings))
  stores : ∀ name ∈ model.fieldNames, session.Stores type name
  allocates : session.Allocates type

theorem Session.Converts.of_sameCode {before after : Session} {model : RecordModel}
    {settings : Settings} {type companion : Nat} {scopes : List Nat}
    (converts : before.Converts model settings type companion scopes)
    (same : before.SameCode after) : after.Converts model settings type companion scopes := by
  rw [same.eq]
  obtain ⟨isCompanion, named, root, into, restore, stores, allocates⟩ := converts
  exact ⟨isCompanion, named, root, into, restore,
    fun name member => ⟨(stores name member).no_property, (stores name member).has_place⟩,
    allocates⟩

/-! ## Reading and writing fields -/

section Fields

variable {call : Caller} {session : Session} {frame : Frame} {place : Text}
  {address type : Nat} {attributes : List (Text × Value)} {values : Text → Value}

theorem run_evaluateNamed_fields {names : List Text}
    (known : frame.locals.get? place = some (.cell address))
    (cell : session.cells[address]? = some (.object type attributes))
    (visible : ∀ name ∈ names, ∀ getter setter,
      session.attribute? type name ≠ some (.property getter setter))
    (own : ∀ name ∈ names, lookupName name attributes = some (values name)) :
    (evaluateNamed call frame (names.map fun name => (name, localAttribute place name))).run
        session = (.ok (names.map fun name => (name, values name)), session) := by
  induction names with
  | nil => rfl
  | cons name later ih =>
    rw [List.forall_mem_cons] at visible own
    have value : (evaluate call frame (localAttribute place name)).run session =
        (.ok (values name), session) :=
      run_localAttribute known cell visible.1 own.1
    simp only [List.map_cons, evaluateNamed, run_bind, value, ih visible.2 own.2, run_pure]

/-- The fields of one object are assigned to another, through the guards that it has not. -/
theorem runAll_fieldAssignments {target : Text} {cells : List Cell} {destination newType : Nat}
    {written : List (Text × Value)} {names : List Text} (later : List Command)
    (known : frame.locals.get? place = some (.cell address))
    (targetKnown : frame.locals.get? target = some (.cell destination))
    (different : destination ≠ address)
    (cell : cells[address]? = some (.object type attributes))
    (targetCell : cells[destination]? = some (.object newType written))
    (unguarded : session.Unguarded newType)
    (stores : ∀ name ∈ names, session.Stores newType name)
    (visible : ∀ name ∈ names, ∀ getter setter,
      session.attribute? type name ≠ some (.property getter setter))
    (own : ∀ name ∈ names, lookupName name attributes = some (values name)) :
    (runAll call frame (names.map (fun name =>
        .assign (localAttribute target name) (localAttribute place name)) ++ later)).run
          (session.withCells cells) =
      (runAll call frame later).run (session.withCells
        (cells.set destination (.object newType (overwritten values names written)))) := by
  induction names generalizing cells written with
  | nil =>
    have same : cells.set destination (.object newType written) = cells := set_cell_self targetCell
    rw [overwritten, same]
    rfl
  | cons name rest ih =>
    rw [List.forall_mem_cons] at stores visible own
    have value : (evaluate call frame (localAttribute place name)).run
        (session.withCells cells) = (.ok (values name), session.withCells cells) :=
      run_localAttribute known cell visible.1 own.1
    have inside : destination < cells.length := (List.getElem?_eq_some_iff.1 targetCell).1
    have otherCell : (cells.set destination
        (.object newType (putName name (values name) written)))[address]? =
          some (.object type attributes) :=
      (List.getElem?_set_ne different).trans cell
    have first : (runAll call frame (.assign (localAttribute target name)
        (localAttribute place name) :: (rest.map (fun name =>
          .assign (localAttribute target name) (localAttribute place name)) ++ later))).run
            (session.withCells cells) =
        (runAll call frame (rest.map (fun name =>
          .assign (localAttribute target name) (localAttribute place name)) ++ later)).run
            (session.withCells (cells.set destination
              (.object newType (putName name (values name) written)))) :=
      runAll_assignAttribute _ value targetKnown targetCell unguarded (stores.1.withCells cells)
    rw [List.map_cons, List.cons_append, first,
      ih otherCell (List.getElem?_set_self inside) stores.2 visible.2 own.2, List.set_set,
      overwritten]

end Fields

/-! ## The bodies -/

/-- The companion as `into_destruct` asks for it. -/
def newCompanion (model : RecordModel) (settings : Settings) : Term :=
  .construct (.name (companionName model.typeName settings))
    ((exposedNames model.fields).map fun name => (name, localAttribute "self" name))

theorem intoBody_of_exposed {model : RecordModel} {settings : Settings}
    (exposed : skippedNames model.fields = []) :
    intoBody (model.companion settings) = [.return (newCompanion model settings)] := by
  rw [skippedNames, List.map_eq_nil_iff] at exposed
  unfold intoBody RecordModel.companion newCompanion exposedNames
  simp only [List.filter_map, List.map_map, Function.comp_def, exposed]
  rfl

theorem intoBody_of_skipped {model : RecordModel} {settings : Settings}
    (skipped : skippedNames model.fields ≠ []) :
    intoBody (model.companion settings) =
      .assign (.name "destruct") (newCompanion model settings) ::
        ((skippedNames model.fields).map (fun name =>
          .assign (localAttribute "destruct" name) (localAttribute "self" name)) ++
          [.return (.name "destruct")]) := by
  unfold intoBody RecordModel.companion newCompanion exposedNames skippedNames at *
  simp only [List.filter_map, List.map_map, Function.comp_def]
  cases hidden : model.fields.filter (·.skip) with
  | nil => simp [hidden] at skipped
  | cons first later => simp [Function.comp_def]

theorem boundInCommands_intoBody (model : RecordModel) (settings : Settings) :
    boundInCommands (intoBody (model.companion settings)) ⊆ [("destruct" : Text)] := by
  rw [boundInCommands_eq_flatMap]
  by_cases skipped : skippedNames model.fields = []
  · rw [intoBody_of_exposed skipped]
    exact nofun
  · rw [intoBody_of_skipped skipped]
    intro name member
    simpa [List.mem_flatMap, Command.boundNames, localAttribute] using member

section Bodies

variable {callback : Value → Action Value} {depth : Nat} {session : Session} {scopes : List Nat}
  {model : RecordModel} {settings : Settings} {address type companion : Nat}
  {attributes : List (Text × Value)} {values : Text → Value}

theorem mem_fieldNames_of_exposed {name : Text} (member : name ∈ exposedNames model.fields) :
    name ∈ model.fieldNames :=
  (exposedNames_sublist model.fields).subset member

theorem mem_fieldNames_of_skipped {name : Text} (member : name ∈ skippedNames model.fields) :
    name ∈ model.fieldNames :=
  (List.filter_sublist.map _).subset member

theorem overwritten_exposed (distinct : model.fieldNames.Nodup) :
    overwritten values (skippedNames model.fields)
        ((exposedNames model.fields).map fun name => (name, values name)) =
      companionAttributes model.fields values := by
  rw [companionAttributes, List.map_append]
  refine overwritten_of_fresh (distinct.sublist (List.filter_sublist.map _)) ?_
  intro name member known
  rw [List.map_map] at known
  obtain ⟨hidden, inHidden, rfl⟩ := List.mem_map.1 member
  have shown : hidden.name ∈ exposedNames model.fields := by simpa [Function.comp_def] using known
  obtain ⟨exposed, inExposed, same⟩ := List.mem_map.1 shown
  rw [List.mem_filter] at inHidden inExposed
  have equal := List.inj_on_of_nodup_map distinct inExposed.1 inHidden.1 same
  simp [equal, inHidden.2] at inExposed

/-- The body of `into_destruct` leaves a new companion with the values of the fields. -/
theorem run_intoBody {frame : Frame} (isCompanion : session.IsCompanion companion model settings)
    (distinct : model.fieldNames.Nodup)
    (plain : ∀ name ∈ model.fieldNames, ¬ dunder <+: name)
    (self : frame.locals.get? "self" = some (.cell address))
    (unbound : frame.locals.get? (companionName model.typeName settings) = none)
    (free : companionName model.typeName settings ∉ frame.owned)
    (named : session.Means frame.scopes (companionName model.typeName settings) (.type companion))
    (cell : session.cells[address]? = some (.object type attributes))
    (visible : ∀ name ∈ model.fieldNames, ∀ getter setter,
      session.attribute? type name ≠ some (.property getter setter))
    (own : ∀ name ∈ model.fieldNames, lookupName name attributes = some (values name)) :
    (runAll (invoke callback (depth + 1)) frame (intoBody (model.companion settings))).run session =
      (.ok (.returns (.cell session.cells.length)), session.withCells (session.cells ++
        [.object companion (companionAttributes model.fields values)])) := by
  have built : (evaluate (invoke callback (depth + 1)) frame
      (newCompanion model settings)).run session =
        (.ok (.cell session.cells.length), session.withCells (session.cells ++
          [.object companion
            ((exposedNames model.fields).map fun name => (name, values name))])) := by
    have function : (evaluate (invoke callback (depth + 1)) frame
        (.name (companionName model.typeName settings))).run session =
          (.ok (.type companion), session) := by
      rw [evaluate]
      exact run_resolve_outside unbound free named
    have arguments : (evaluateNamed (invoke callback (depth + 1)) frame
        ((exposedNames model.fields).map fun name => (name, localAttribute "self" name))).run
          session = (.ok ((exposedNames model.fields).map fun name => (name, values name)),
            session) :=
      run_evaluateNamed_fields self cell
        (fun name member => visible name (mem_fieldNames_of_exposed member))
        (fun name member => own name (mem_fieldNames_of_exposed member))
    exact (run_evaluate_construct function arguments).trans
      (run_construct_companion isCompanion distinct plain)
  -- without skipped fields the new companion is returned at once
  by_cases skipped : skippedNames model.fields = []
  · have all : companionAttributes model.fields values =
        (exposedNames model.fields).map fun name => (name, values name) := by
      rw [companionAttributes, skipped, List.append_nil]
    rw [intoBody_of_exposed skipped, all]
    exact runAll_return [] built
  · let locals := frame.locals.put "destruct" (.cell session.cells.length)
    let exposed := (exposedNames model.fields).map fun name => (name, values name)
    let cells := session.cells ++ [.object companion exposed]
    have isSelf : locals.get? "self" = some (.cell address) :=
      (NameTable.get?_put_other _ _ (by decide)).trans self
    have isNew : locals.get? "destruct" = some (.cell session.cells.length) :=
      NameTable.get?_put_same ..
    have inside : address < session.cells.length := (List.getElem?_eq_some_iff.1 cell).1
    have oldCell : cells[address]? = some (.object type attributes) :=
      (List.getElem?_append_left inside).trans cell
    have newCell : cells[session.cells.length]? = some (.object companion exposed) := by
      simp [cells]
    have assigned : (runAll (invoke callback (depth + 1)) { frame with locals }
        ((skippedNames model.fields).map (fun name =>
          .assign (localAttribute "destruct" name) (localAttribute "self" name)) ++
          [.return (.name "destruct")])).run (session.withCells cells) =
        (runAll (invoke callback (depth + 1)) { frame with locals }
          [.return (.name "destruct")]).run (session.withCells (cells.set session.cells.length
            (.object companion (overwritten values (skippedNames model.fields) exposed)))) :=
      runAll_fieldAssignments _ isSelf isNew (Nat.ne_of_gt inside) oldCell newCell
        isCompanion.unguarded
        (fun name member => isCompanion.stores (plain name (mem_fieldNames_of_skipped member)))
        (fun name member => visible name (mem_fieldNames_of_skipped member))
        (fun name member => own name (mem_fieldNames_of_skipped member))
    have finished : cells.set session.cells.length
        (.object companion (companionAttributes model.fields values)) =
          session.cells ++ [.object companion (companionAttributes model.fields values)] := by
      simp [cells]
    rw [intoBody_of_skipped skipped, runAll_assign _ _ built, assigned,
      overwritten_exposed distinct, finished]
    exact runAll_return [] (run_resolve_local isNew)

theorem run_into (converts : session.Converts model settings type companion scopes)
    (distinct : model.fieldNames.Nodup)
    (plain : ∀ name ∈ model.fieldNames, ¬ dunder <+: name)
    (free : companionName model.typeName settings ∉ (["self", "destruct"] : List Text))
    (cell : session.cells[address]? = some (.object type attributes))
    (unshadowed : lookupName "into_destruct" attributes = none)
    (own : ∀ name ∈ model.fieldNames, lookupName name attributes = some (values name)) :
    (callOn (invoke callback (depth + 2)) (.cell address) "into_destruct" []).run session =
      (.ok (.cell session.cells.length), session.withCells (session.cells ++
        [.object companion (companionAttributes model.fields values)])) := by
  obtain ⟨index, inherited, method, defined, runs⟩ := converts.into
  cases defined
  rw [List.mem_pair, not_or] at free
  have unowned : companionName model.typeName settings ∉
      ("self" : Text) :: boundInCommands (intoBody (model.companion settings)) := by
    intro member
    rcases List.mem_cons.1 member with same | bound
    · exact free.1 same
    · exact free.2 (List.mem_singleton.1 (boundInCommands_intoBody model settings bound))
  have unbound : lookupName (companionName model.typeName settings)
      [("self", Value.cell address)] = none := by
    rw [lookupName, if_neg (Ne.symm free.1), lookupName]
  have body : (runAll (invoke callback (depth + 1))
      ⟨scopes, ("self" : Text) :: boundInCommands (intoBody (model.companion settings)),
        ⟨[("self", .cell address)]⟩⟩ (intoBody (model.companion settings))).run session =
      (.ok (.returns (.cell session.cells.length)), session.withCells (session.cells ++
        [.object companion (companionAttributes model.fields values)])) :=
    run_intoBody converts.isCompanion distinct plain rfl unbound unowned converts.named cell
      (fun name member => (converts.stores name member).no_property) own
  exact (run_callOn cell inherited unshadowed runs (List.nodup_singleton _) rfl).trans
    (run_map_of_ok body _)

/-- The body of `from_destruct`, which depends on the names of the fields alone. -/
def fromBody (names : List Text) : List Command :=
  .assign (.name "instance") (.call (localAttribute "object" "__new__") [.name "cls"]) ::
    (names.map (fun name => OpenRecord.rawWrite "instance" name "destruct") ++
      [.return (.name "instance")])

theorem boundInCommands_fromBody (names : List Text) :
    boundInCommands (fromBody names) = [("instance" : Text)] := by
  rw [boundInCommands_eq_flatMap, fromBody]
  simp [Command.boundNames, OpenRecord.rawWrite]

theorem fromMethod_of_defined {method : Method}
    (defined : (fromArtifact model (model.companion settings)).definition = .method method) :
    method.parameters.map (·.name) = (["cls", "destruct"] : List Text) ∧
      method.body = fromBody model.fieldNames := by
  cases defined
  simp [fromBody, RecordModel.companion, RecordModel.fieldNames, Function.comp_def]

/-- The body of `from_destruct` leaves a new object with the values of the fields. -/
theorem run_fromBody {frame : Frame} {names : List Text} {source : Nat} (distinct : names.Nodup)
    (cls : frame.locals.get? "cls" = some (.type type))
    (destruct : frame.locals.get? "destruct" = some (.cell address))
    (unbound : frame.locals.get? "object" = none) (free : ("object" : Text) ∉ frame.owned)
    (root : session.Means frame.scopes "object" (.facility .rootType))
    (allocates : session.Allocates type) (stores : ∀ name ∈ names, session.Stores type name)
    (cell : session.cells[address]? = some (.object source attributes))
    (visible : ∀ name ∈ names, ∀ getter setter,
      session.attribute? source name ≠ some (.property getter setter))
    (own : ∀ name ∈ names, lookupName name attributes = some (values name)) :
    (runAll (invoke callback (depth + 1)) frame (fromBody names)).run session =
      (.ok (.returns (.cell session.cells.length)), session.withCells (session.cells ++
        [.object type (names.map fun name => (name, values name))])) := by
  have function : (evaluate (invoke callback (depth + 1)) frame
      (localAttribute "object" "__new__")).run session = (.ok (.facility .allocate), session) :=
    run_facilityAttribute unbound free root rfl
  have arguments : (evaluateAll (invoke callback (depth + 1)) frame [.name "cls"]).run session =
      (.ok [.type type], session) := by
    simp only [evaluateAll, evaluate, run_bind, run_resolve_local cls, run_pure]
  have made : (evaluate (invoke callback (depth + 1)) frame
      (.call (localAttribute "object" "__new__") [.name "cls"])).run session =
        (.ok (.cell session.cells.length),
          session.withCells (session.cells ++ [.object type []])) :=
    (run_evaluate_call function arguments).trans (run_allocateObject allocates)
  have all : overwritten values names [] = names.map fun name => (name, values name) :=
    overwritten_of_fresh distinct fun _ _ => List.not_mem_nil
  rw [← all]
  exact runAll_fillInstance unbound free root destruct cell stores visible own made

theorem run_from (converts : session.Converts model settings type companion scopes)
    (distinct : model.fieldNames.Nodup)
    (plain : ∀ name ∈ model.fieldNames, ¬ dunder <+: name)
    (cell : session.cells[address]? = some (.object companion attributes))
    (own : ∀ name ∈ model.fieldNames, lookupName name attributes = some (values name)) :
    (callOn (invoke callback (depth + 2)) (.type type) "from_destruct" [.cell address]).run
        session =
      (.ok (.cell session.cells.length), session.withCells (session.cells ++
        [.object type (model.fieldNames.map fun name => (name, values name))])) := by
  obtain ⟨index, inherited, method, defined, runs⟩ := converts.restore
  obtain ⟨parameters, body⟩ := fromMethod_of_defined defined
  have unowned : ("object" : Text) ∉ (["cls", "destruct", "instance"] : List Text) := by decide
  have frame : methodFrame method scopes [.type type, .cell address] =
      ⟨scopes, (["cls", "destruct", "instance"] : List Text),
        ⟨[("cls", .type type), ("destruct", .cell address)]⟩⟩ := by
    rw [methodFrame, parameters, body, boundInCommands_fromBody]
    rfl
  have ran : (runAll (invoke callback (depth + 1))
      (methodFrame method scopes [.type type, .cell address]) method.body).run session =
        (.ok (.returns (.cell session.cells.length)), session.withCells (session.cells ++
          [.object type (model.fieldNames.map fun name => (name, values name))])) := by
    rw [frame, body]
    exact run_fromBody distinct rfl rfl rfl unowned converts.root converts.allocates
      converts.stores cell
      (fun name member => (converts.isCompanion.stores (plain name member)).no_property) own
  have single : (method.parameters.map (·.name)).Nodup := by
    rw [parameters]
    decide
  have together : (method.parameters.map (·.name)).length = [Value.cell address].length + 1 := by
    rw [parameters]
    rfl
  exact (run_callOn_class inherited runs single together).trans (run_map_of_ok ran _)

end Bodies

/-! ## Round trips -/

/-- An object of a class has values of its own under some names. -/
def Session.Holds (session : Session) (address type : Nat) (names : List Text)
    (values : Text → Value) : Prop :=
  ∃ attributes, session.cells[address]? = some (.object type attributes) ∧
    ∀ name ∈ names, lookupName name attributes = some (values name)

theorem Session.holds_new (session : Session) (type : Nat) {names all : List Text}
    (values : Text → Value) (among : names ⊆ all) :
    (session.withCells (session.cells ++
      [.object type (all.map fun name => (name, values name))])).Holds
        session.cells.length type names values :=
  ⟨all.map fun name => (name, values name), by simp, fun _ member =>
    lookupName_map values (among member)⟩

theorem fieldNames_subset (fields : List Field) :
    fields.map (·.name) ⊆ exposedNames fields ++ skippedNames fields := by
  intro name member
  obtain ⟨field, among, rfl⟩ := List.mem_map.1 member
  rw [List.mem_append]
  cases skipped : field.skip with
  | false => exact .inl (List.mem_map.2 ⟨field, List.mem_filter.2 ⟨among, by simp [skipped]⟩, rfl⟩)
  | true => exact .inr (List.mem_map.2 ⟨field, List.mem_filter.2 ⟨among, skipped⟩, rfl⟩)

/-- The emitted companion becomes a class exactly if its declarations do not get into each other's
way. -/
theorem run_define_companion_iff {model : RecordModel} {settings : Settings} {session : Session}
    {scopes : List Nat} {front : Text} (distinct : model.fieldNames.Nodup)
    (means : session.Means scopes "dataclasses" (.facility .dataclassesModule)) :
    (∃ index after, (define callAlone scopes front
        (companionArtifact model settings).definition).run session = (.ok (.type index), after) ∧
      after.IsCompanion index model settings) ↔ model.Declarable := by
  obtain ⟨code, defined, derives, name, members⟩ := companion_definition model settings
  rw [defined]
  constructor
  · rintro ⟨index, after, succeeded, -⟩
    by_contra clash
    have refused : ∃ failure, (define callAlone scopes front (.type code)).run session =
        (.error (.failed failure), session) :=
      run_defineType_undeclarable means derives members distinct clash
    obtain ⟨failure, failed⟩ := refused
    rw [failed] at succeeded
    cases succeeded
  · intro declarable
    have made : (define callAlone scopes front (.type code)).run session =
        (.ok (.type session.types.length), { session with
          types := session.types ++
            [companionType code.name (front ++ code.name) model.fields] }) :=
      run_defineType_companion means derives members distinct declarable
    refine ⟨_, _, made, front ++ code.name, none, ?_⟩
    rw [List.getElem?_concat_length, name]
    rfl

/-- A record with an exposed field and a skipped one. -/
def pairModel : RecordModel where
  typeName := "P"
  genericStyle := .none
  genericParameters := []
  genericBase := none
  fields := [⟨"x", "int", 0, .isPublic, false⟩, ⟨"y", "int", 1, .isPublic, true⟩]
  capabilities := ⟨true, true, false⟩
  memberNames := []
  location := none

theorem pairModel_accepted : ∃ artifacts, generate pairModel .default none = .ok artifacts := by
  have accepted : (match generate pairModel .default none with
      | .ok _ => true
      | .error _ => false) = true := by decide +kernel
  cases generated : generate pairModel .default none with
  | error diagnostic =>
    rw [generated] at accepted
    cases accepted
  | ok artifacts => exact ⟨artifacts, rfl⟩

/-- The class of that record with methods of its companion, and one record that has an attribute
besides the fields. -/
def pairSession : Session where
  cells := [.object 0 [("x", .whole 1), ("y", .whole 2), ("z", .whole 3)]]
  types :=
    [plainType "P" "P" [] none
      ⟨⟨[("into_destruct", .value (.function 0)), ("from_destruct", .value (.classMethod 1)),
        ("reconstruct", .value (.function 2))]⟩, [], none⟩,
      companionType "DestructP" "DestructP" pairModel.fields]
  functions :=
    (conversionArtifacts pairModel (pairModel.companion .default) ++
      [reconstructArtifact pairModel (pairModel.companion .default)]).filterMap fun artifact =>
        match artifact.definition with
        | .method method => some (functionOf [moduleScope] method.name method)
        | .type _ => none
  scopes := [⟨[("DestructP", .type 1), ("copy", .facility .copyModule)]⟩]
  held := .empty
  notes := []
  source := none

theorem pairSession_converts : pairSession.Converts pairModel .default 0 1 [moduleScope] where
  isCompanion := ⟨"DestructP", none, rfl⟩
  named := rfl
  root := rfl
  into := ⟨0, rfl, _, rfl, _, none, rfl⟩
  restore := ⟨1, rfl, _, rfl, _, none, rfl⟩
  stores := by
    intro name member
    have absent : pairSession.attribute? 0 name = none := by
      rcases List.mem_pair.1 member with rfl | rfl <;> rfl
    exact ⟨by simp [absent], .inr rfl⟩
  allocates := by
    intro index member live known
    obtain rfl := List.mem_singleton.1 member
    cases known
    rfl

/-- A skipped field that takes the name of the module keeps the next one from being declared. -/
example : ¬ RecordModel.Declarable { pairModel with
    fields := [⟨"dataclasses", "int", 0, .isPublic, true⟩, ⟨"y", "int", 1, .isPublic, true⟩] } := by
  decide +kernel

end Live
end OpenRecord
