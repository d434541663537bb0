import OpenRecord.Generation.Editing
import OpenRecord.Proofs.Live.Companion

namespace OpenRecord
namespace Live

/-!
# The writable view as a live class

The emitted view is a class with one place, for the viewed record, and a property for each exposed
field and for nothing else.  Every property looks at that place first: while a record is there it
reads and writes the record's own attribute, and when it is empty it refuses to work.
-/

open Code

/-! ## The class -/

/-- The name of the operation that a writable view belongs to. -/
def viewScope (model : RecordModel) : Text :=
  model.typeName ++ ".substitute()"

/-- The refusal of an emptied view in words. -/
def viewRefusal (model : RecordModel) (settings : Settings) : Text :=
  mutationViewName model.typeName settings ++ " used outside of " ++ viewScope model

def viewInitializer (model : RecordModel) : Method :=
  { role := .plain
    name := "__init__"
    parameters :=
      [⟨"self", none⟩, ⟨"target", some (quote (model.applyGenerics model.typeName))⟩]
    result := "None"
    documentation := none
    body := [.assign viewed (.name "target")] }

def fieldGetter (model : RecordModel) (settings : Settings) (field : Field) : Method :=
  viewGetter (mutationViewName model.typeName settings) (viewScope model) true field

def fieldSetter (model : RecordModel) (settings : Settings) (field : Field) : Method :=
  viewSetter (mutationViewName model.typeName settings) (viewScope model) field

/-- A live class is the writable view of a model. -/
structure Session.IsView (session : Session) (live : LiveType) (model : RecordModel)
    (settings : Settings) (scopes : List Nat) : Prop where
  alone : live.ancestors = []
  closed : live.slots = some [viewTarget]
  place : live.attributes.get? viewTarget = some .slot
  initializer : ∃ index, live.attributes.get? initializerName = some (.value (.function index)) ∧
    session.Runs index scopes (viewInitializer model)
  properties : ∀ field ∈ model.exposedFields, ∃ getter setter,
    live.attributes.get? field.name = some (.property getter (some setter)) ∧
      session.Runs getter scopes (fieldGetter model settings field) ∧
      session.Runs setter scopes (fieldSetter model settings field)
  others : ∀ name, name ∉ exposedNames model.fields → name ≠ viewTarget →
    name ≠ initializerName → live.attributes.get? name = none

/-! ## The definition -/

def propertyMembers (model : RecordModel) (settings : Settings) (field : Field) : List Member :=
  [.method (fieldGetter model settings field), .method (fieldSetter model settings field)]

theorem view_definition (model : RecordModel) (settings : Settings) :
    ∃ code, (mutationViewArtifact model settings).definition = .type code ∧
      code.derived = false ∧ code.name = mutationViewName model.typeName settings ∧
      code.members = .slots [viewTarget] :: .method (viewInitializer model) ::
        model.exposedFields.flatMap (propertyMembers model settings) :=
  ⟨_, rfl, rfl, rfl, rfl⟩

def Session.withFunctions (session : Session) (added : List LiveFunction) : Session :=
  { session with functions := session.functions ++ added }

/-- The functions of a property. -/
def accessors (scopes : List Nat) (qualifiedName : Text) (model : RecordModel)
    (settings : Settings) (field : Field) : List LiveFunction :=
  [functionOf scopes (qualifiedName ++ '.' :: field.name) (fieldGetter model settings field),
    functionOf scopes (qualifiedName ++ '.' :: field.name) (fieldSetter model settings field)]

/-- The properties of fields whose functions are numbered in order. -/
def propertyEntries (first : Nat) : List Field → List (Text × Attribute)
  | [] => []
  | field :: later =>
    (field.name, .property first (some (first + 1))) :: propertyEntries (first + 2) later

section Definition

variable {call : Caller} {session : Session} {scopes : List Nat} {qualifiedName : Text}
  {model : RecordModel} {settings : Settings}

theorem run_methodAttribute_plain {attributes : NameTable Attribute} {method : Method}
    (role : method.role = .plain) :
    (methodAttribute call attributes scopes qualifiedName method).run session =
      (.ok (.value (.function session.functions.length)),
        session.withFunctions [functionOf scopes qualifiedName method]) := by
  simp only [methodAttribute, role]
  rfl

theorem run_methodAttribute_getter {attributes : NameTable Attribute} {method : Method}
    (role : method.role = .getter) (free : attributes.get? "property" = none)
    (means : session.Means scopes "property" (.facility .propertyMaker)) :
    (methodAttribute call attributes scopes qualifiedName method).run session =
      (.ok (.property session.functions.length none),
        session.withFunctions [functionOf scopes qualifiedName method]) := by
  simp only [methodAttribute, role, resolveInBody, free, run_bind, run_resolveOutside means]
  rfl

theorem run_methodAttribute_setter {attributes : NameTable Attribute} {method : Method}
    {getter : Nat} {setter : Option Nat} (role : method.role = .setter)
    (known : attributes.get? method.name = some (.property getter setter)) :
    (methodAttribute call attributes scopes qualifiedName method).run session =
      (.ok (.property getter (some session.functions.length)),
        session.withFunctions [functionOf scopes qualifiedName method]) := by
  simp only [methodAttribute, role, known]
  rfl

theorem run_runMembers_method {body : Body} {method : Method} {found : Attribute}
    {after : Session} (later : List Member)
    (defined : (methodAttribute call body.attributes scopes
      (qualifiedName ++ '.' :: method.name) method).run session = (.ok found, after)) :
    (runMembers call scopes qualifiedName body (.method method :: later)).run session =
      (runMembers call scopes qualifiedName
        { body with attributes := body.attributes.put method.name found } later).run after := by
  rw [runMembers, run_bind_of_ok defined]

theorem run_propertyMember {field : Field} {attributes : NameTable Attribute}
    {declared : List RecordField} {slots : Option (List Text)} (later : List Member)
    (fresh : field.name ∉ attributes.entries.map (·.1))
    (unbound : attributes.get? "property" = none)
    (means : session.Means scopes "property" (.facility .propertyMaker)) :
    (runMembers call scopes qualifiedName ⟨attributes, declared, slots⟩
        (propertyMembers model settings field ++ later)).run session =
      (runMembers call scopes qualifiedName
        ⟨⟨attributes.entries ++ [(field.name, .property session.functions.length
          (some (session.functions.length + 1)))]⟩, declared, slots⟩ later).run
        (session.withFunctions (accessors scopes qualifiedName model settings field)) := by
  let reading := attributes.put field.name (.property session.functions.length none)
  let between := session.withFunctions
    [functionOf scopes (qualifiedName ++ '.' :: field.name) (fieldGetter model settings field)]
  have getter : (methodAttribute call attributes scopes (qualifiedName ++ '.' :: field.name)
      (fieldGetter model settings field)).run session =
        (.ok (.property session.functions.length none), between) :=
    run_methodAttribute_getter rfl unbound means
  have counted : between.functions.length = session.functions.length + 1 := by
    simp [between, Session.withFunctions]
  have setter : (methodAttribute call reading scopes (qualifiedName ++ '.' :: field.name)
      (fieldSetter model settings field)).run between =
        (.ok (.property session.functions.length (some (session.functions.length + 1))),
          between.withFunctions [functionOf scopes (qualifiedName ++ '.' :: field.name)
            (fieldSetter model settings field)]) :=
    counted ▸ run_methodAttribute_setter rfl (NameTable.get?_put_same ..)
  have whole : reading.put field.name (.property session.functions.length
      (some (session.functions.length + 1))) =
        ⟨attributes.entries ++ [(field.name, .property session.functions.length
          (some (session.functions.length + 1)))]⟩ := by
    have half : reading =
        ⟨attributes.entries ++ [(field.name, .property session.functions.length none)]⟩ := by
      simp only [reading, NameTable.put, putName_of_notMem fresh]
    rw [half, NameTable.put, putName_concat fresh]
  have both : between.withFunctions [functionOf scopes (qualifiedName ++ '.' :: field.name)
      (fieldSetter model settings field)] =
        session.withFunctions (accessors scopes qualifiedName model settings field) := by
    simp [between, Session.withFunctions, accessors]
  rw [propertyMembers, List.cons_append, List.cons_append, List.nil_append,
    run_runMembers_method _ getter, run_runMembers_method _ setter, ← whole, ← both]
  rfl

theorem run_propertyMembers {fields : List Field} {attributes : NameTable Attribute}
    {declared : List RecordField} {slots : Option (List Text)}
    (fresh : ∀ field ∈ fields, field.name ∉ attributes.entries.map (·.1))
    (distinct : (fields.map (·.name)).Nodup)
    (free : ("property" : Text) ∉ attributes.entries.map (·.1))
    (unlike : ∀ field ∈ fields, field.name ≠ "property")
    (means : session.Means scopes "property" (.facility .propertyMaker)) :
    (runMembers call scopes qualifiedName ⟨attributes, declared, slots⟩
        (fields.flatMap (propertyMembers model settings))).run session =
      (.ok ⟨⟨attributes.entries ++ propertyEntries session.functions.length fields⟩, declared,
          slots⟩,
        session.withFunctions
          (fields.flatMap (accessors scopes qualifiedName model settings))) := by
  -- the functions of a field are numbered from the count at its turn, hence the changing session
  induction fields generalizing session attributes with
  | nil => simp [runMembers, run_pure, propertyEntries, Session.withFunctions]
  | cons field later ih =>
    rw [List.forall_mem_cons] at fresh unlike
    rw [List.map_cons, List.nodup_cons] at distinct
    have still : (session.withFunctions
        (accessors scopes qualifiedName model settings field)).Means scopes "property"
          (.facility .propertyMaker) := means
    rw [List.flatMap_cons, run_propertyMember _ fresh.1 (lookupName_eq_none_iff.2 free) means,
      ih ?_ distinct.2 ?_ unlike.2 still]
    · simp [Session.withFunctions, propertyEntries, accessors]
    · intro other member known
      rw [List.map_append, List.mem_append, List.map_singleton, List.mem_singleton] at known
      rcases known with known | same
      · exact fresh.2 other member known
      · exact distinct.1 (List.mem_map.2 ⟨other, member, same⟩)
    · intro known
      rw [List.map_append, List.mem_append, List.map_singleton, List.mem_singleton] at known
      exact known.elim free (fun same => unlike.1 same.symm)

/-! What the numbered properties say of one field. -/

theorem names_propertyEntries (first : Nat) (fields : List Field) :
    (propertyEntries first fields).map (·.1) = fields.map (·.name) := by
  induction fields generalizing first with
  | nil => rfl
  | cons field later ih => rw [propertyEntries, List.map_cons, ih, List.map_cons]

theorem exists_property (scopes : List Nat) (qualifiedName : Text) (model : RecordModel)
    (settings : Settings) (before : List LiveFunction) {fields : List Field} {field : Field}
    (member : field ∈ fields) : ∃ getter,
      (field.name, Attribute.property getter (some (getter + 1))) ∈
        propertyEntries before.length fields ∧
      (before ++ fields.flatMap (accessors scopes qualifiedName model settings))[getter]? =
        some (functionOf scopes (qualifiedName ++ '.' :: field.name)
          (fieldGetter model settings field)) ∧
      (before ++ fields.flatMap (accessors scopes qualifiedName model settings))[getter + 1]? =
        some (functionOf scopes (qualifiedName ++ '.' :: field.name)
          (fieldSetter model settings field)) := by
  induction fields generalizing before with
  | nil => cases member
  | cons other later ih =>
    rcases List.mem_cons.1 member with rfl | member
    · refine ⟨before.length, List.mem_cons_self .., ?_, ?_⟩ <;> simp [accessors]
    · have counted : (before ++ accessors scopes qualifiedName model settings other).length =
          before.length + 2 := by
        simp [accessors]
      obtain ⟨getter, entry, reads, writes⟩ :=
        ih (before ++ accessors scopes qualifiedName model settings other) member
      rw [counted] at entry
      rw [List.flatMap_cons, ← List.append_assoc]
      exact ⟨getter, List.mem_cons_of_mem _ entry, reads, writes⟩

/-- The emitted view becomes a class with a property for each exposed field. -/
theorem run_define_view {scope : Option (List Text)} {front : Text}
    (apart : model.NamesApart settings scope) (requested : model.requests .mutation = true)
    (means : session.Means scopes "property" (.facility .propertyMaker)) :
    ∃ after live, (define call scopes front (mutationViewArtifact model settings).definition).run
        session = (.ok (.type session.types.length), after) ∧
      after.types[session.types.length]? = some live ∧
      after.IsView live model settings scopes := by
  obtain ⟨code, defined, plain, name, members⟩ := view_definition model settings
  let owner := front ++ code.name
  let first := session.withFunctions
    [functionOf scopes (owner ++ '.' :: initializerName) (viewInitializer model)]
  let start : NameTable Attribute := ⟨[(viewTarget, .slot),
    (initializerName, .value (.function session.functions.length))]⟩
  have keys : start.entries.map (·.1) = [viewTarget, initializerName] := rfl
  have hasView : model.hasView = true := by simp [RecordModel.hasView, requested]
  have among : ∀ field ∈ model.exposedFields, field.name ∈ model.fieldNames :=
    fun field member => List.mem_map.2 ⟨field, (List.mem_filter.1 member).1, rfl⟩
  have fresh : ∀ field ∈ model.exposedFields, field.name ∉ start.entries.map (·.1) := by
    intro field member known
    rw [keys] at known
    rcases List.mem_pair.1 known with same | same
    · exact apart.not_reserved _ (among field member) hasView (same ▸ List.mem_cons_self ..)
    · have special : dunder <+: initializerName := by decide
      exact apart.plain _ (among field member) (same ▸ special)
  have free : ("property" : Text) ∉ start.entries.map (·.1) := by
    rw [keys]
    decide
  have unlike : ∀ field ∈ model.exposedFields, field.name ≠ "property" := by
    intro field member same
    exact apart.not_reserved _ (among field member) hasView
      (same ▸ List.mem_cons_of_mem _ (List.mem_cons_self ..))
  have distinct : (model.exposedFields.map (·.name)).Nodup :=
    apart.fields_nodup.sublist (List.filter_sublist.map _)
  have initializer : (methodAttribute call ⟨[(viewTarget, .slot)]⟩ scopes
      (owner ++ '.' :: initializerName) (viewInitializer model)).run session =
        (.ok (.value (.function session.functions.length)), first) :=
    run_methodAttribute_plain rfl
  have properties : (runMembers call scopes owner ⟨start, [], some [viewTarget]⟩
      (model.exposedFields.flatMap (propertyMembers model settings))).run first =
        (.ok ⟨⟨start.entries ++ propertyEntries first.functions.length model.exposedFields⟩, [],
            some [viewTarget]⟩,
          first.withFunctions
            (model.exposedFields.flatMap (accessors scopes owner model settings))) :=
    run_propertyMembers fresh distinct free unlike means
  have body : (runMembers call scopes owner ⟨.empty, [], none⟩ code.members).run session =
      (.ok ⟨⟨start.entries ++ propertyEntries first.functions.length model.exposedFields⟩, [],
          some [viewTarget]⟩,
        first.withFunctions
          (model.exposedFields.flatMap (accessors scopes owner model settings))) := by
    rw [members, runMembers]
    exact (run_runMembers_method _ initializer).trans properties
  have names : (start.entries ++
      propertyEntries first.functions.length model.exposedFields).map (·.1) =
        [viewTarget, initializerName] ++ model.exposedFields.map (·.name) := by
    rw [List.map_append, keys, names_propertyEntries]
  have single : ((start.entries ++
      propertyEntries first.functions.length model.exposedFields).map (·.1)).Nodup := by
    rw [names, List.nodup_append]
    refine ⟨by decide, distinct, ?_⟩
    rintro _ known _ field rfl
    obtain ⟨exposed, member, same⟩ := List.mem_map.1 field
    exact fresh exposed member (keys ▸ same ▸ known)
  let live := plainType code.name owner [] none ⟨⟨start.entries ++
    propertyEntries first.functions.length model.exposedFields⟩, [], some [viewTarget]⟩
  let functions := first.functions ++
    model.exposedFields.flatMap (accessors scopes owner model settings)
  refine ⟨{ session with functions, types := session.types ++ [live] }, live, ?_,
    List.getElem?_concat_length, rfl, rfl, rfl,
    ⟨session.functions.length, rfl, owner ++ '.' :: initializerName, none, ?_⟩, ?_, ?_⟩
  · rw [defined]
    simp only [define, defineType, plain, Bool.false_eq_true, if_false, run_bind, run_pure]
    rw [body]
    rfl
  · have inside : session.functions.length < first.functions.length := by
      simp [first, Session.withFunctions]
    rw [List.getElem?_append_left inside]
    exact List.getElem?_concat_length
  · intro field member
    obtain ⟨getter, entry, reads, writes⟩ :=
      exists_property scopes owner model settings first.functions member
    exact ⟨getter, getter + 1, lookupName_of_mem single (List.mem_append_right _ entry),
      ⟨_, none, reads⟩, ⟨_, none, writes⟩⟩
  · intro name unexposed noPlace noInitializer
    refine lookupName_eq_none_iff.2 fun known => ?_
    have among : name ∈ [viewTarget, initializerName] ++ model.exposedFields.map (·.name) :=
      names ▸ known
    rcases List.mem_append.1 among with own | member
    · exact (List.mem_pair.1 own).elim noPlace noInitializer
    · exact unexposed member

end Definition

/-! ## The properties at work -/

/-- A view class in place, with the names that its properties use. -/
structure Session.Shows (session : Session) (model : RecordModel) (settings : Settings)
    (view : Nat) (scopes : List Nat) : Prop where
  isView : ∃ live, session.types[view]? = some live ∧ session.IsView live model settings scopes
  root : session.Means scopes "object" (.facility .rootType)
  refusal : session.Means scopes "ReferenceError" (.facility (.errorType .reference))

theorem Session.IsView.mono {before after : Session} {live : LiveType} {model : RecordModel}
    {settings : Settings} {scopes : List Nat}
    (isView : before.IsView live model settings scopes)
    (kept : ∀ index method, before.Runs index scopes method → after.Runs index scopes method) :
    after.IsView live model settings scopes := by
  obtain ⟨alone, closed, place, ⟨index, found, runs⟩, properties, others⟩ := isView
  refine ⟨alone, closed, place, ⟨index, found, kept _ _ runs⟩, fun field member => ?_, others⟩
  obtain ⟨getter, setter, property, reads, writes⟩ := properties field member
  exact ⟨getter, setter, property, kept _ _ reads, kept _ _ writes⟩

theorem Session.Shows.of_sameCode {before after : Session} {model : RecordModel}
    {settings : Settings} {view : Nat} {scopes : List Nat}
    (shows : before.Shows model settings view scopes) (same : before.SameCode after) :
    after.Shows model settings view scopes := by
  rw [same.eq]
  obtain ⟨live, known, isView⟩ := shows.isView
  exact ⟨⟨live, known, isView.mono fun _ _ runs => runs⟩, shows.root, shows.refusal⟩

section Properties

variable {callback : Value → Action Value} {depth : Nat} {session : Session} {scopes : List Nat}
  {model : RecordModel} {settings : Settings} {address view : Nat} {target : Value}

theorem Session.Shows.attribute?_place (shows : session.Shows model settings view scopes) :
    session.attribute? view viewTarget = some .slot := by
  obtain ⟨live, known, isView⟩ := shows.isView
  exact (attribute?_alone known isView.alone _).trans isView.place

theorem Session.Shows.property (shows : session.Shows model settings view scopes) {field : Field}
    (member : field ∈ model.exposedFields) : ∃ getter setter,
      session.attribute? view field.name = some (.property getter (some setter)) ∧
        session.Runs getter scopes (fieldGetter model settings field) ∧
        session.Runs setter scopes (fieldSetter model settings field) := by
  obtain ⟨live, known, isView⟩ := shows.isView
  obtain ⟨getter, setter, found, runs⟩ := isView.properties field member
  exact ⟨getter, setter, (attribute?_alone known isView.alone _).trans found, runs⟩

theorem Session.Shows.unguarded (shows : session.Shows model settings view scopes)
    (free : guardName ∉ exposedNames model.fields) : session.Unguarded view := by
  obtain ⟨live, known, isView⟩ := shows.isView
  exact unguarded_alone known isView.alone (isView.others _ free (by decide) (by decide))

theorem Session.Shows.attribute?_other (shows : session.Shows model settings view scopes)
    {name : Text} (unexposed : name ∉ exposedNames model.fields) (noPlace : name ≠ viewTarget)
    (noInitializer : name ≠ initializerName) : session.attribute? view name = none := by
  obtain ⟨live, known, isView⟩ := shows.isView
  exact (attribute?_alone known isView.alone _).trans
    (isView.others name unexposed noPlace noInitializer)

theorem Session.Shows.isOpen (shows : session.Shows model settings view scopes) :
    session.isOpen view = false := by
  obtain ⟨live, known, isView⟩ := shows.isView
  rw [isOpen_alone known isView.alone, isView.closed]
  rfl

/-- The place of a view is read like any attribute. -/
theorem run_viewed {call : Caller} {frame : Frame}
    (shows : session.Shows model settings view scopes)
    (self : frame.locals.get? "self" = some (.cell address))
    (cell : session.cells[address]? = some (.object view [(viewTarget, target)])) :
    (evaluate call frame viewed).run session = (.ok target, session) := by
  refine run_localAttribute self cell ?_ rfl
  rw [shows.attribute?_place]
  exact nofun

/-- A property goes on while there is a record in the place. -/
theorem runAll_expired_full {call : Caller} {frame : Frame} {name scope : Text}
    (later : List Command) (shows : session.Shows model settings view scopes)
    (self : frame.locals.get? "self" = some (.cell address))
    (cell : session.cells[address]? = some (.object view [(viewTarget, target)]))
    (full : target ≠ .absent) :
    (runAll call frame (expired name scope :: later)).run session =
      (runAll call frame later).run session := by
  rw [expired, runAll, run_bind, run, run_bind_of_ok (run_viewed shows self cell), if_neg full]
  rfl

theorem runAll_expired_empty {frame : Frame} {name scope : Text} (later : List Command)
    (shows : session.Shows model settings view scopes)
    (self : frame.locals.get? "self" = some (.cell address))
    (cell : session.cells[address]? = some (.object view [(viewTarget, .absent)]))
    (unbound : frame.locals.get? "ReferenceError" = none)
    (free : ("ReferenceError" : Text) ∉ frame.owned) (within : frame.scopes = scopes) :
    (runAll (invoke callback (depth + 1)) frame (expired name scope :: later)).run session =
      (.error (.failed (.raised .reference (name ++ " used outside of " ++ scope))), session) := by
  have function : (evaluate (invoke callback (depth + 1)) frame
      (.name "ReferenceError")).run session =
        (.ok (.facility (.errorType .reference)), session) :=
    run_resolve_outside unbound free (within ▸ shows.refusal)
  have arguments : (evaluateAll (invoke callback (depth + 1)) frame
      [.string (name ++ " used outside of " ++ scope)]).run session =
        (.ok [.text (name ++ " used outside of " ++ scope)], session) := rfl
  have error : (evaluate (invoke callback (depth + 1)) frame
      (.call (.name "ReferenceError") [.string (name ++ " used outside of " ++ scope)])).run
        session = (.ok (.error .reference (name ++ " used outside of " ++ scope)), session) :=
    run_evaluate_call function arguments
  have raised : (run (invoke callback (depth + 1)) frame (expired name scope)).run session =
      (.error (.failed (.raised .reference (name ++ " used outside of " ++ scope))), session) := by
    rw [expired, run, run_bind_of_ok (run_viewed shows self cell), if_pos rfl, runAll, run_bind,
      run, run_bind_of_ok error]
    rfl
  rw [runAll, run_bind, raised]

theorem run_readAttribute_getter {field : Field} {attributes : List (Text × Value)}
    (shows : session.Shows model settings view scopes) (member : field ∈ model.exposedFields)
    (cell : session.cells[address]? = some (.object view attributes)) :
    (readAttribute (invoke callback (depth + 1)) (.cell address) field.name).run session =
      (Completion.answer <$> runAll (invoke callback depth)
        (methodFrame (fieldGetter model settings field) scopes [.cell address])
        (fieldGetter model settings field).body).run session := by
  obtain ⟨getter, setter, inherited, reads, -⟩ := shows.property member
  rw [run_readAttribute_property cell inherited]
  exact run_invoke_method reads (List.nodup_singleton _) rfl

theorem run_writeAttribute_setter {field : Field} {attributes : List (Text × Value)}
    {value : Value} (shows : session.Shows model settings view scopes)
    (unguarded : session.Unguarded view) (member : field ∈ model.exposedFields)
    (cell : session.cells[address]? = some (.object view attributes)) :
    (writeAttribute (invoke callback (depth + 1)) (.cell address) field.name value).run session =
      ((fun _ => ()) <$> Completion.answer <$> runAll (invoke callback depth)
        (methodFrame (fieldSetter model settings field) scopes [.cell address, value])
        (fieldSetter model settings field).body).run session := by
  obtain ⟨getter, setter, inherited, -, writes⟩ := shows.property member
  have single : ((fieldSetter model settings field).parameters.map (·.name)).Nodup := by
    change (["self", "value"] : List Text).Nodup
    decide
  rw [run_writeAttribute cell unguarded, run_rawWrite_property cell inherited, run_map,
    run_invoke_method writes single rfl, ← run_map]

theorem run_readAttribute_full {record : Nat} {field : Field}
    (shows : session.Shows model settings view scopes) (member : field ∈ model.exposedFields)
    (cell : session.cells[address]? = some (.object view [(viewTarget, .cell record)])) :
    (readAttribute (invoke callback (depth + 1)) (.cell address) field.name).run session =
      (readAttribute (invoke callback depth) (.cell record) field.name).run session := by
  let frame := methodFrame (fieldGetter model settings field) scopes [.cell address]
  have self : frame.locals.get? "self" = some (.cell address) := rfl
  have body : (runAll (invoke callback depth) frame (fieldGetter model settings field).body).run
      session = (runAll (invoke callback depth) frame
        [.return (.attribute viewed field.name)]).run session :=
    runAll_expired_full _ shows self cell fun same => by cases same
  rw [run_readAttribute_getter shows member cell, run_map, body, ← run_map, run_answer_return,
    evaluate, run_bind_of_ok (run_viewed shows self cell)]

theorem run_readAttribute_empty {field : Field}
    (shows : session.Shows model settings view scopes) (member : field ∈ model.exposedFields)
    (cell : session.cells[address]? = some (.object view [(viewTarget, .absent)])) :
    (readAttribute (invoke callback (depth + 2)) (.cell address) field.name).run session =
      (.error (.failed (.raised .reference (viewRefusal model settings))), session) := by
  let frame := methodFrame (fieldGetter model settings field) scopes [.cell address]
  have free : ("ReferenceError" : Text) ∉ frame.owned := by
    change ("ReferenceError" : Text) ∉ (["self"] : List Text)
    decide
  have body : (runAll (invoke callback (depth + 1)) frame
      (fieldGetter model settings field).body).run session =
        (.error (.failed (.raised .reference (viewRefusal model settings))), session) :=
    runAll_expired_empty _ shows rfl cell rfl free rfl
  rw [run_readAttribute_getter shows member cell, run_map, body]

theorem run_readAttribute_other {call : Caller} {name : Text}
    (shows : session.Shows model settings view scopes)
    (unexposed : name ∉ exposedNames model.fields) (noPlace : name ≠ viewTarget)
    (noInitializer : name ≠ initializerName)
    (cell : session.cells[address]? = some (.object view [(viewTarget, target)])) :
    (readAttribute call (.cell address) name).run session =
      (.error (.failed (.noAttribute (session.nameOf view) name)), session) := by
  have lacking : session.own? address name = none := by
    simp only [Session.own?, Session.ownAttributes, cell, lookupName, if_neg (Ne.symm noPlace)]
  simp only [readAttribute, run_bind, run_get, cell, readObject, lacking,
    shows.attribute?_other unexposed noPlace noInitializer, run_fail]

theorem run_writeAttribute_other {call : Caller} {name : Text} {value : Value}
    (shows : session.Shows model settings view scopes) (unguarded : session.Unguarded view)
    (unexposed : name ∉ exposedNames model.fields) (noPlace : name ≠ viewTarget)
    (noInitializer : name ≠ initializerName)
    (cell : session.cells[address]? = some (.object view [(viewTarget, target)])) :
    (writeAttribute call (.cell address) name value).run session =
      (.error (.failed (.noAttribute (session.nameOf view) name)), session) := by
  rw [run_writeAttribute cell unguarded]
  simp only [rawWrite, run_bind, run_get, cell, rawWriteObject, shows.isOpen,
    shows.attribute?_other unexposed noPlace noInitializer, Bool.false_eq_true, if_false,
    Option.isSome_none, run_fail]

def settingBody (name : Text) : List Command :=
  [.evaluate (.call (localAttribute "object" "__setattr__")
    [viewed, .string name, .name "value"])]

/-- A property of a full view writes the record's own attribute, past the guards of its class. -/
theorem run_writeAttribute_full {record type : Nat} {attributes : List (Text × Value)}
    {field : Field} {value : Value} (shows : session.Shows model settings view scopes)
    (unguarded : session.Unguarded view) (member : field ∈ model.exposedFields)
    (cell : session.cells[address]? = some (.object view [(viewTarget, .cell record)]))
    (recordCell : session.cells[record]? = some (.object type attributes))
    (stores : session.Stores type field.name) :
    (writeAttribute (invoke callback (depth + 2)) (.cell address) field.name value).run session =
      (.ok (), session.withCells (session.cells.set record
        (.object type (putName field.name value attributes)))) := by
  let frame := methodFrame (fieldSetter model settings field) scopes [.cell address, value]
  have self : frame.locals.get? "self" = some (.cell address) := rfl
  have given : frame.locals.get? "value" = some value := rfl
  have free : ("object" : Text) ∉ frame.owned := by
    change ("object" : Text) ∉ (["self", "value"] : List Text)
    decide
  have function : (evaluate (invoke callback (depth + 1)) frame
      (localAttribute "object" "__setattr__")).run session = (.ok (.facility .rawWrite), session) :=
    run_facilityAttribute rfl free shows.root rfl
  have arguments : (evaluateAll (invoke callback (depth + 1)) frame
      [viewed, .string field.name, .name "value"]).run session =
        (.ok [.cell record, .text field.name, value], session) := by
    simp only [evaluateAll, evaluate, run_bind, run_viewed shows self cell,
      run_resolve_local given, run_pure]
  have written : (evaluate (invoke callback (depth + 1)) frame
      (.call (localAttribute "object" "__setattr__")
        [viewed, .string field.name, .name "value"])).run session =
        (.ok .absent, session.withCells (session.cells.set record
          (.object type (putName field.name value attributes)))) := by
    rw [run_evaluate_call function arguments, run_invoke_facility]
    simp only [callFacility, run_bind, run_rawWrite recordCell stores, run_pure]
  have body : (runAll (invoke callback (depth + 1)) frame
      (fieldSetter model settings field).body).run session =
        (.ok (.goesOn frame.locals), session.withCells (session.cells.set record
          (.object type (putName field.name value attributes)))) := by
    have past : (runAll (invoke callback (depth + 1)) frame
        (fieldSetter model settings field).body).run session =
          (runAll (invoke callback (depth + 1)) frame (settingBody field.name)).run session :=
      runAll_expired_full _ shows self cell fun same => by cases same
    rw [past, settingBody, runAll_evaluate _ written]
    rfl
  rw [run_writeAttribute_setter shows unguarded member cell, run_map, run_map, body]

/-- A property of an empty view refuses to be written. -/
theorem run_writeAttribute_empty {field : Field} {value : Value}
    (shows : session.Shows model settings view scopes) (unguarded : session.Unguarded view)
    (member : field ∈ model.exposedFields)
    (cell : session.cells[address]? = some (.object view [(viewTarget, .absent)])) :
    (writeAttribute (invoke callback (depth + 2)) (.cell address) field.name value).run session =
      (.error (.failed (.raised .reference (viewRefusal model settings))), session) := by
  let frame := methodFrame (fieldSetter model settings field) scopes [.cell address, value]
  have free : ("ReferenceError" : Text) ∉ frame.owned := by
    change ("ReferenceError" : Text) ∉ (["self", "value"] : List Text)
    decide
  have body : (runAll (invoke callback (depth + 1)) frame
      (fieldSetter model settings field).body).run session =
        (.error (.failed (.raised .reference (viewRefusal model settings))), session) :=
    runAll_expired_empty _ shows rfl cell rfl free rfl
  rw [run_writeAttribute_setter shows unguarded member cell, run_map, run_map, body]

/-! ## Making and emptying a view -/

theorem Session.Shows.stores_place (shows : session.Shows model settings view scopes) :
    session.Stores view viewTarget :=
  ⟨by simp [shows.attribute?_place], .inl shows.attribute?_place⟩

theorem run_construct_view (shows : session.Shows model settings view scopes)
    (unguarded : session.Unguarded view) :
    (invoke callback (depth + 2) (.type view) [target] []).run session =
      (.ok (.cell session.cells.length),
        session.withCells (session.cells ++ [.object view [(viewTarget, target)]])) := by
  obtain ⟨live, known, isView⟩ := shows.isView
  obtain ⟨index, found, runs⟩ := isView.initializer
  let cells := session.cells ++ [.object view []]
  let made := session.withCells cells
  have inherited : made.attribute? view initializerName = some (.value (.function index)) :=
    (Session.attribute?_alone known isView.alone _).trans found
  have allocated : (allocate (.object view [])).run session =
      (.ok (.cell session.cells.length), made) := rfl
  have newCell : made.cells[session.cells.length]? = some (.object view []) :=
    List.getElem?_concat_length
  have single : ((viewInitializer model).parameters.map (·.name)).Nodup := by
    change (["self", "target"] : List Text).Nodup
    decide
  let frame := methodFrame (viewInitializer model) scopes [.cell session.cells.length, target]
  have given : (evaluate (invoke callback depth) frame (.name "target")).run made =
      (.ok target, made) :=
    run_resolve_local rfl
  have isSelf : frame.locals.get? "self" = some (.cell session.cells.length) := rfl
  have filled : (runAll (invoke callback depth) frame (viewInitializer model).body).run made =
      (.ok (.goesOn frame.locals), session.withCells
        (cells.set session.cells.length (.object view [(viewTarget, target)]))) :=
    runAll_assignAttribute [] given isSelf newCell unguarded
      (shows.stores_place.withCells cells)
  have ran : made.Runs index scopes (viewInitializer model) := runs
  have initialised : (invoke callback (depth + 1)
      (.bound index (.cell session.cells.length)) [target] []).run made =
        (.ok .absent, session.withCells
          (cells.set session.cells.length (.object view [(viewTarget, target)]))) := by
    rw [run_invoke_bound ran, run_invoke_method ran single rfl, run_map, filled]
    rfl
  have finished : cells.set session.cells.length (.object view [(viewTarget, target)]) =
      session.cells ++ [.object view [(viewTarget, target)]] := by
    simp [cells]
  simp only [run_invoke_type, construct, run_bind, allocated, initializeObject, run_get, inherited,
    boundTo, initialised, run_pure, finished]

end Properties

end Live
end OpenRecord
