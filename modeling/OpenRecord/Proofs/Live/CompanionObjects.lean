import OpenRecord.Proofs.Live.Companion

namespace OpenRecord
namespace Live

/-!
# Objects of a companion

The class that a companion's definition leaves has no ancestors, no guard and no attribute under
the name of a field.  Its constructor therefore stores what it is given, and every field can be
read and written afterwards.  A class stays a companion when it is given an owner.
-/

open Code

/-- A class is the companion of a model, whatever its qualified name and whoever owns it. -/
def Session.IsCompanion (session : Session) (index : Nat) (model : RecordModel)
    (settings : Settings) : Prop :=
  ∃ qualifiedName owner, session.types[index]? =
    some { companionType (companionName model.typeName settings) qualifiedName model.fields with
      owner }

/-- The attributes of a companion that was made from some values: the constructor writes those of
the exposed fields, and the others are written behind it. -/
def companionAttributes (fields : List Field) (values : Text → Value) : List (Text × Value) :=
  (exposedNames fields ++ skippedNames fields).map fun name => (name, values name)

/-! ## The class -/

theorem get?_derivedAttributes_plain {fields : List RecordField} {name : Text}
    (plain : ¬ dunder <+: name) :
    (derivedAttributes ⟨false, false⟩ fields .empty).get? name = none := by
  have special : ∀ key ∈ (derivedAttributes ⟨false, false⟩ fields .empty).entries.map (·.1),
      dunder <+: key := by
    change ∀ key ∈ ([("__init__" : Text), "__repr__", "__eq__"] : List Text), dunder <+: key
    decide
  exact lookupName_eq_none_iff.2 fun member => plain (special name member)

section Class

variable {session : Session} {index : Nat} {model : RecordModel} {settings : Settings}
  {name : Text}

theorem Session.IsCompanion.attribute? (companion : session.IsCompanion index model settings) :
    session.attribute? index name =
      (derivedAttributes ⟨false, false⟩ (model.fields.map companionField) .empty).get? name := by
  obtain ⟨qualifiedName, owner, known⟩ := companion
  exact Session.attribute?_alone known rfl name

theorem Session.IsCompanion.attribute?_plain (companion : session.IsCompanion index model settings)
    (plain : ¬ dunder <+: name) : session.attribute? index name = none :=
  companion.attribute?.trans (get?_derivedAttributes_plain plain)

theorem Session.IsCompanion.attribute?_initializer
    (companion : session.IsCompanion index model settings) :
    session.attribute? index initializerName =
      some (.initializer (model.fields.map companionField) false) :=
  companion.attribute?.trans rfl

theorem Session.IsCompanion.stores (companion : session.IsCompanion index model settings)
    (plain : ¬ dunder <+: name) : session.Stores index name where
  no_property getter setter := by
    rw [companion.attribute?_plain plain]
    exact nofun
  has_place := by
    obtain ⟨qualifiedName, owner, known⟩ := companion
    exact .inr (Session.isOpen_alone known rfl)

theorem Session.IsCompanion.unguarded (companion : session.IsCompanion index model settings) :
    session.Unguarded index := by
  obtain ⟨qualifiedName, owner, known⟩ := companion
  exact Session.unguarded_alone known rfl rfl

end Class

/-! ## The constructor -/

section Constructor

variable {callback : Value → Action Value} {depth : Nat} {session : Session} {index : Nat}
  {model : RecordModel} {settings : Settings} {values : Text → Value}

/-- The parameter for the new object is called like no field. -/
theorem ownParameter_notMem {fields : List RecordField}
    (plain : ∀ field ∈ fields, ¬ dunder <+: field.name) :
    ownParameter fields ∉ fields.map (·.name) := by
  intro member
  obtain ⟨field, among, same⟩ := List.mem_map.1 member
  unfold ownParameter at same
  split at same
  case isTrue =>
    have special : dunder <+: ("__dataclass_self__" : Text) := by decide
    exact plain field among (same ▸ special)
  case isFalse free =>
    refine free (List.any_eq_true.2 ⟨field, among, ?_⟩)
    simpa using same

theorem run_writeFields (call : Caller) {fields : List Field} {table : NameTable Value}
    {address : Nat} {cells : List Cell} {attributes : List (Text × Value)}
    (unguarded : session.Unguarded index)
    (stores : ∀ field ∈ fields, session.Stores index field.name)
    (given : ∀ field ∈ fields, field.skip = false →
      table.get? field.name = some (values field.name))
    (cell : cells[address]? = some (.object index attributes)) :
    (writeFields call (.cell address) false table (fields.map companionField)).run
        (session.withCells cells) =
      (.ok (), session.withCells (cells.set address
        (.object index (overwritten values (exposedNames fields) attributes)))) := by
  induction fields generalizing cells attributes with
  | nil =>
    have same : cells.set address (.object index attributes) = cells := set_cell_self cell
    simp only [List.map_nil, writeFields, run_pure, exposedNames, List.filter_nil, overwritten,
      same]
  | cons field later ih =>
    rw [List.forall_mem_cons] at stores given
    have name : (companionField field).name = field.name := rfl
    have kept : (companionField field).initOnly = false := rfl
    cases skipped : field.skip with
    | true =>
      have hidden : (companionField field).hidden = true := skipped
      have exposed : exposedNames (field :: later) = exposedNames later := by
        simp [exposedNames, skipped]
      rw [exposed, ← ih stores.2 given.2 cell, List.map_cons, writeFields]
      cases table.get? (companionField field).name with
      | none => rfl
      | some value => simp only [hidden, Bool.or_true, if_true]
    | false =>
      have hidden : (companionField field).hidden = false := skipped
      have exposed : exposedNames (field :: later) = field.name :: exposedNames later := by
        simp [exposedNames, skipped]
      have through : (writeAttribute call (.cell address) field.name (values field.name)).run
          (session.withCells cells) =
            (Live.rawWrite call (.cell address) field.name (values field.name)).run
              (session.withCells cells) :=
        run_writeAttribute cell unguarded
      have written : (Live.rawWrite call (.cell address) field.name (values field.name)).run
          (session.withCells cells) = (.ok (), session.withCells (cells.set address
            (.object index (putName field.name (values field.name) attributes)))) :=
        run_rawWrite cell (stores.1.withCells cells)
      have inside : address < cells.length := (List.getElem?_eq_some_iff.1 cell).1
      rw [List.map_cons, writeFields]
      simp only [name, given.1 skipped, kept, hidden, Bool.or_false, Bool.false_eq_true, if_false,
        run_bind, through, written]
      rw [ih stores.2 given.2 (List.getElem?_set_self inside), List.set_set, exposed, overwritten]

theorem run_construct_companion (companion : session.IsCompanion index model settings)
    (distinct : model.fieldNames.Nodup)
    (plain : ∀ name ∈ model.fieldNames, ¬ dunder <+: name) :
    (invoke callback (depth + 1) (.type index) []
        ((exposedNames model.fields).map fun name => (name, values name))).run session =
      (.ok (.cell session.cells.length), session.withCells (session.cells ++
        [.object index ((exposedNames model.fields).map fun name => (name, values name))])) := by
  have fieldsPlain : ∀ field ∈ model.fields.map companionField, ¬ dunder <+: field.name := by
    intro field member
    obtain ⟨declared, among, rfl⟩ := List.mem_map.1 member
    exact plain _ (List.mem_map.2 ⟨declared, among, rfl⟩)
  have own := ownParameter_notMem fieldsPlain
  rw [names_companionFields] at own
  have formals : (initializerFormals (model.fields.map companionField)).map (·.name) =
      [ownParameter (model.fields.map companionField)] ++
        ((exposedNames model.fields).map fun name => (name, values name)).map (·.1) := by
    simp only [initializerFormals, exposedNames, List.map_cons, List.map_map, List.filter_map]
    rfl
  have exposed := exposedNames_sublist model.fields
  have free : ∀ formal ∈ initializerFormals (model.fields.map companionField),
      formal.byNameOnly = false := by
    intro formal member
    rcases List.mem_cons.1 member with rfl | member
    · rfl
    · obtain ⟨field, within, rfl⟩ := List.mem_map.1 member
      obtain ⟨declared, -, rfl⟩ := List.mem_map.1 (List.mem_filter.1 within).1
      rfl
  have keys : ((exposedNames model.fields).map fun name => (name, values name)).map (·.1) =
      exposedNames model.fields := by
    simp [Function.comp_def]
  have single : ((initializerFormals (model.fields.map companionField)).map (·.name)).Nodup := by
    rw [formals, keys, List.singleton_append, List.nodup_cons]
    exact ⟨fun member => own (exposed.subset member), distinct.sublist exposed⟩
  have taken : bindArguments (initializerFormals (model.fields.map companionField))
      [.cell session.cells.length] ((exposedNames model.fields).map fun name =>
        (name, values name)) =
      .ok ⟨[ownParameter (model.fields.map companionField)].zip [.cell session.cells.length] ++
        (exposedNames model.fields).map fun name => (name, values name)⟩ :=
    bindArguments_exact free formals single rfl
  have given : ∀ field ∈ model.fields, field.skip = false →
      (⟨[ownParameter (model.fields.map companionField)].zip [.cell session.cells.length] ++
        (exposedNames model.fields).map fun name => (name, values name)⟩ :
          NameTable Value).get? field.name = some (values field.name) := by
    intro field member shown
    have named : field.name ∈ exposedNames model.fields :=
      List.mem_map.2 ⟨field, List.mem_filter.2 ⟨member, by simp [shown]⟩, rfl⟩
    have different : ownParameter (model.fields.map companionField) ≠ field.name := by
      intro same
      exact own (same ▸ exposed.subset named)
    change lookupName field.name (_ :: _) = _
    rw [lookupName, if_neg different]
    exact lookupName_map values named
  have stores : ∀ field ∈ model.fields, session.Stores index field.name := fun field member =>
    companion.stores (plain _ (List.mem_map.2 ⟨field, member, rfl⟩))
  have new : (session.cells ++ [.object index []])[session.cells.length]? =
      some (.object index []) := by
    simp
  have written := run_writeFields (invoke callback depth) companion.unguarded stores given new
  have fresh : overwritten values (exposedNames model.fields) [] =
      (exposedNames model.fields).map fun name => (name, values name) :=
    overwritten_of_fresh (distinct.sublist exposed) fun _ _ => List.not_mem_nil
  have allocated : (allocate (.object index [])).run session =
      (.ok (.cell session.cells.length),
        session.withCells (session.cells ++ [.object index []])) := rfl
  have initialises : (session.withCells (session.cells ++ [.object index []])).attribute? index
      initializerName = some (.initializer (model.fields.map companionField) false) :=
    companion.attribute?_initializer
  simp only [run_invoke_type, construct, run_bind, allocated, initializeObject, run_get,
    initialises, takeArguments, taken, run_pure, written, fresh]
  simp

end Constructor

end Live
end OpenRecord
