import OpenRecord.Live.Call
import OpenRecord.Proofs.NameTable

namespace OpenRecord
namespace Live

/-!
# Running actions

What an action does is read off from its parts: an action in front of another hands on its value and
the session that it leaves, and a fault ends both.  Code that reads and writes attributes changes
nothing but cells, so that a session is followed through it as one session with other and other
cells.
-/

section Parts

variable {α β : Type} (session : Session)

theorem run_pure (value : α) : (pure value : Action α).run session = (.ok value, session) :=
  rfl

theorem run_bind (action : Action α) (next : α → Action β) :
    (action >>= next).run session =
      match action.run session with
      | (.ok value, after) => (next value).run after
      | (.error fault, after) => (.error fault, after) := by
  change (match action.run session with
    | (result, after) => (ExceptT.bindCont next result : StateM Session (Except Fault β)) after) = _
  rcases action.run session with ⟨_ | _, after⟩ <;> rfl

theorem run_map (change : α → β) (action : Action α) :
    (change <$> action).run session =
      match action.run session with
      | (.ok value, after) => (.ok (change value), after)
      | (.error fault, after) => (.error fault, after) := by
  rw [map_eq_pure_bind, run_bind]
  rfl

theorem run_get : (get : Action Session).run session = (.ok session, session) :=
  rfl

theorem run_set (new : Session) : (set new : Action Unit).run session = (.ok (), new) :=
  rfl

theorem run_throw (fault : Fault) :
    (throw fault : Action α).run session = (.error fault, session) :=
  rfl

theorem run_fail (failure : Failure) :
    (fail failure : Action α).run session = (.error (.failed failure), session) :=
  rfl

theorem run_tryCatch (action : Action α) (handle : Fault → Action α) :
    (tryCatch action handle).run session =
      match action.run session with
      | (.ok value, after) => (.ok value, after)
      | (.error fault, after) => (handle fault).run after := by
  unfold ExceptT.run
  simp only [tryCatch, tryCatchThe, MonadExceptOf.tryCatch, ExceptT.tryCatch, ExceptT.mk, bind,
    StateT.bind]
  rcases action session with ⟨_ | _, after⟩ <;> rfl

/-- A clean-up runs behind its body in either case, and what the body came to is what remains. -/
theorem run_ending (body : Action α) (cleanup : Action Unit) :
    (ending body cleanup).run session =
      match body.run session with
      | (.ok value, after) => (cleanup >>= fun _ => pure value : Action α).run after
      | (.error fault, after) => (cleanup >>= fun _ => throw fault : Action α).run after := by
  unfold ending
  rw [run_bind, run_tryCatch, run_map]
  rcases body.run session with ⟨_ | _, after⟩ <;> rfl

end Parts

section Succeeding

variable {α β : Type} {action : Action α} {value : α} {session after : Session}
  (ran : action.run session = (.ok value, after))
include ran

theorem run_bind_of_ok (next : α → Action β) :
    (action >>= next).run session = (next value).run after := by
  rw [run_bind, ran]

theorem run_map_of_ok (change : α → β) :
    (change <$> action).run session = (.ok (change value), after) := by
  rw [run_map, ran]

end Succeeding

/-! ## Sessions with other cells -/

theorem set_cell_self {cells : List Cell} {address : Nat} {cell : Cell}
    (known : cells[address]? = some cell) : cells.set address cell = cells := by
  obtain ⟨inside, rfl⟩ := List.getElem?_eq_some_iff.1 known
  exact List.set_getElem_self inside

namespace Session

def withCells (session : Session) (cells : List Cell) : Session :=
  { session with cells }

@[simp] theorem cells_withCells (session : Session) (cells : List Cell) :
    (session.withCells cells).cells = cells :=
  rfl

theorem withAttribute_eq {session : Session} {address type : Nat}
    {attributes : List (Text × Value)} (name : Text) (value : Value)
    (cell : session.cells[address]? = some (.object type attributes)) :
    session.withAttribute address name value =
      session.withCells
        (session.cells.set address (.object type (putName name value attributes))) := by
  simp only [withAttribute, cell]
  rfl

/-! ## Attributes of objects -/

/-- The objects of a class keep what is written under a name as an attribute of their own: no
property stands in its way, and there is a place for it. -/
structure Stores (session : Session) (type : Nat) (name : Text) : Prop where
  no_property : ∀ getter setter,
    session.attribute? type name ≠ some (.property getter setter)
  has_place : session.attribute? type name = some .slot ∨ session.isOpen type = true

theorem Stores.withCells {session : Session} {type : Nat} {name : Text}
    (stores : session.Stores type name) (cells : List Cell) :
    (session.withCells cells).Stores type name :=
  ⟨stores.no_property, stores.has_place⟩

/-- No class in the line of a class guards the writes to its objects. -/
def Unguarded (session : Session) (type : Nat) : Prop :=
  ∀ index ∈ session.lineage type,
    (session.types[index]?).bind (·.attributes.get? guardName) = none

/-- The objects of a class can be made without initialising them. -/
def Allocates (session : Session) (type : Nat) : Prop :=
  ∀ index ∈ session.lineage type, ∀ live,
    session.types[index]? = some live → live.foreignBase = none

/-- Two states of a session with the same classes, functions and scopes. -/
structure SameCode (before after : Session) : Prop where
  types : after.types = before.types
  functions : after.functions = before.functions
  scopes : after.scopes = before.scopes

theorem sameCode_withCells (session : Session) (cells : List Cell) :
    session.SameCode (session.withCells cells) :=
  ⟨rfl, rfl, rfl⟩

/-- Whatever is said of classes, functions and scopes alone carries over. -/
theorem SameCode.eq {before after : Session} (same : before.SameCode after) :
    after = { before with
      cells := after.cells
      held := after.held
      notes := after.notes
      source := after.source } := by
  cases before
  cases after
  cases same
  simp_all

section Alone

variable {session : Session} {index : Nat} {live : LiveType}
  (known : session.types[index]? = some live) (alone : live.ancestors = [])
include known alone

theorem lineage_alone : session.lineage index = [index] := by
  simp only [lineage, known, alone]

theorem attribute?_alone (name : Text) :
    session.attribute? index name = live.attributes.get? name := by
  simp only [attribute?, lineage_alone known alone, List.findSome?_cons, known, Option.bind_some,
    List.findSome?_nil]
  cases live.attributes.get? name <;> rfl

theorem isOpen_alone : session.isOpen index = live.slots.isNone := by
  simp only [isOpen, lineage_alone known alone, List.any_cons, known, List.any_nil, Bool.or_false]

theorem unguarded_alone (free : live.attributes.get? guardName = none) :
    session.Unguarded index := by
  intro other member
  rw [lineage_alone known alone, List.mem_singleton] at member
  rw [member, known, Option.bind_some, free]

end Alone

def Means (session : Session) (scopes : List Nat) (name : Text) (value : Value) : Prop :=
  (session.nameIn? scopes name).or (builtin? name) = some value

end Session

section Attributes

variable {session : Session} {call : Caller} {address type : Nat}
  {attributes : List (Text × Value)} {name : Text} {value : Value}

theorem run_readAttribute_own (cell : session.cells[address]? = some (.object type attributes))
    (visible : ∀ getter setter, session.attribute? type name ≠ some (.property getter setter))
    (own : lookupName name attributes = some value) :
    (readAttribute call (.cell address) name).run session = (.ok value, session) := by
  have found : session.own? address name = some value := by
    simp only [Session.own?, Session.ownAttributes, cell, own]
  simp only [readAttribute, run_bind, run_get, cell, readObject, found]
  cases inherited : session.attribute? type name with
  | none => rfl
  | some found =>
    cases found with
    | property getter setter => exact absurd inherited (visible getter setter)
    | _ => rfl

/-- An attribute that an object lacks is a function of its class with the object as the first
argument. -/
theorem run_readAttribute_function {index : Nat}
    (cell : session.cells[address]? = some (.object type attributes))
    (inherited : session.attribute? type name = some (.value (.function index)))
    (own : lookupName name attributes = none) :
    (readAttribute call (.cell address) name).run session =
      (.ok (.bound index (.cell address)), session) := by
  have lacking : session.own? address name = none := by
    simp only [Session.own?, Session.ownAttributes, cell, own]
  simp only [readAttribute, run_bind, run_get, cell, readObject, inherited, lacking]
  rfl

theorem run_readAttribute_property {getter : Nat} {setter : Option Nat}
    (cell : session.cells[address]? = some (.object type attributes))
    (inherited : session.attribute? type name = some (.property getter setter)) :
    (readAttribute call (.cell address) name).run session =
      (call (.function getter) [.cell address] []).run session := by
  simp only [readAttribute, run_bind, run_get, cell, readObject, inherited]

theorem run_rawWrite_property {getter setter : Nat}
    (cell : session.cells[address]? = some (.object type attributes))
    (inherited : session.attribute? type name = some (.property getter (some setter))) :
    (rawWrite call (.cell address) name value).run session =
      ((fun _ => ()) <$> call (.function setter) [.cell address, value] []).run session := by
  simp only [rawWrite, run_bind, run_get, cell, rawWriteObject, inherited, run_map, run_pure]

theorem run_readAttribute_facility {facility found : Facility}
    (known : facilityAttribute? facility name = some found) :
    (readAttribute call (.facility facility) name).run session =
      (.ok (.facility found), session) := by
  simp only [readAttribute, run_bind, run_get, readFacility, known, run_pure]

theorem run_rawWrite (cell : session.cells[address]? = some (.object type attributes))
    (stores : session.Stores type name) :
    (rawWrite call (.cell address) name value).run session =
      (.ok (), session.withCells
        (session.cells.set address (.object type (putName name value attributes)))) := by
  rw [← Session.withAttribute_eq name value cell]
  simp only [rawWrite, run_bind, run_get, cell, rawWriteObject]
  rcases stores with ⟨visible, place⟩
  cases inherited : session.attribute? type name with
  | none =>
    rw [inherited] at place
    have isOpen := place.resolve_left nofun
    simp only [isOpen, if_true, run_set]
  | some found =>
    cases found with
    | property getter setter => exact absurd inherited (visible getter setter)
    | slot => rfl
    | _ =>
      rw [inherited] at place
      have isOpen := place.resolve_left nofun
      simp only [isOpen, if_true, run_set]

/-- Without guards on its way a write goes through to the object. -/
theorem run_guardedWrite {line : List Nat}
    (unguarded : ∀ index ∈ line,
      (session.types[index]?).bind (·.attributes.get? guardName) = none) :
    (guardedWrite call address type name value line).run session =
      (rawWriteObject call address type name value).run session := by
  induction line with
  | nil => rfl
  | cons index later ih =>
    rw [List.forall_mem_cons] at unguarded
    simp only [guardedWrite, run_bind, run_get, unguarded.1]
    exact ih unguarded.2

theorem run_writeAttribute (cell : session.cells[address]? = some (.object type attributes))
    (unguarded : session.Unguarded type) :
    (writeAttribute call (.cell address) name value).run session =
      (rawWrite call (.cell address) name value).run session := by
  simp only [writeAttribute, rawWrite, run_bind, run_get, cell, run_guardedWrite unguarded]

/-- An object that can be made without initialising it has the attributes that are given. -/
theorem run_allocateObject (allocates : session.Allocates type) :
    (allocateObject type attributes).run session =
      (.ok (.cell session.cells.length),
        session.withCells (session.cells ++ [.object type attributes])) := by
  simp only [allocateObject, run_bind, run_get]
  rw [if_neg]
  · rfl
  · rw [Bool.not_eq_true, List.any_eq_false]
    intro index member
    cases known : session.types[index]? with
    | none => simp
    | some live => simp [allocates index member live known]

end Attributes

/-! ## Arguments -/

/-- Arguments that name each parameter exactly once, the first ones by position, are taken as they
are given. -/
theorem bindArguments_exact {formals : List Formal} {placed : List Text} {positional : List Value}
    {named : List (Text × Value)} (free : ∀ formal ∈ formals, formal.byNameOnly = false)
    (names : formals.map (·.name) = placed ++ named.map (·.1))
    (distinct : (formals.map (·.name)).Nodup) (together : placed.length = positional.length) :
    bindArguments formals positional named = .ok ⟨placed.zip positional ++ named⟩ := by
  have placeable : formals.filter (!·.byNameOnly) = formals := by
    rw [List.filter_eq_self]
    intro formal member
    simp [free formal member]
  have byName : formals.filter (·.byNameOnly) = [] := by
    rw [List.filter_eq_nil_iff]
    intro formal member
    simp [free formal member]
  have zipped : (formals.map (·.name)).zip positional = placed.zip positional := by
    rw [names, ← List.append_nil positional, List.zip_append together]
    simp
  have keys : (placed.zip positional ++ named).map (·.1) = formals.map (·.name) := by
    rw [List.map_append, List.map_fst_zip (Nat.le_of_eq together), names]
  have given : ∀ formal ∈ formals,
      (lookupName formal.name (placed.zip positional ++ named)).isSome = true := by
    intro formal member
    rw [isSome_lookupName_iff, keys]
    exact List.mem_map.2 ⟨formal, member, rfl⟩
  have expected : namedProblem formals placed named = none := by
    unfold namedProblem
    rw [List.findSome?_eq_none_iff]
    intro entry member
    have known : entry.1 ∈ formals.map (·.name) := by
      rw [names]
      exact List.mem_append_right _ (List.mem_map.2 ⟨entry, member, rfl⟩)
    rcases List.mem_map.1 known with ⟨formal, among, same⟩
    have single : entry.1 ∉ placed := by
      intro again
      rw [names, List.nodup_append] at distinct
      exact distinct.2.2 _ again _ (List.mem_map.2 ⟨entry, member, rfl⟩) rfl
    have some_formal : formals.any (·.name == entry.1) = true :=
      List.any_eq_true.2 ⟨formal, among, by simpa using same⟩
    simp [some_formal, single]
  have complete : missingFormals formals (placed.zip positional ++ named) = [] := by
    unfold missingFormals
    rw [List.map_eq_nil_iff, List.filter_eq_nil_iff]
    intro formal member
    have present := given formal member
    cases found : lookupName formal.name (placed.zip positional ++ named) with
    | none => simp [found] at present
    | some value => simp
  have enough : ¬ formals.length < positional.length := by
    have counted := congrArg List.length names
    simp only [List.length_map, List.length_append] at counted
    omega
  have nodup : ((placed.zip positional ++ named).map (·.1)).Nodup := keys ▸ distinct
  have taken := filterMap_lookupName (fun formal : Formal => formal.default) nodup
    (fun _ member => member) keys.symm
  unfold bindArguments
  simp only [placeable, byName, zipped, List.map_fst_zip (Nat.le_of_eq together), expected, enough,
    if_false, complete, taken, NameTable.ofList_of_nodup nodup]
  rfl

end Live
end OpenRecord
