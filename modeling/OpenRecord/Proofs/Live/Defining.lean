import Mathlib.Data.List.Infix
import OpenRecord.Proofs.Generation.Headlines
import OpenRecord.Proofs.Live.Companion
import OpenRecord.Proofs.Live.Installing

namespace OpenRecord
namespace Live

/-!
# What definitions add

Defining emitted code looks up the names of decorators, and calls what stands there.  Where none of
these names stands for anything that has code of its own, a definition adds classes and functions
to a session and changes nothing else, whether it succeeds or fails halfway.
-/

open Code

/-! ## Values without code -/

/-- Whether a value has nothing to run: calling it with a function fails, and its attributes are
there without any code. -/
def Value.isInert : Value → Bool
  | .cell _ => false
  | .type _ => false
  | .function _ => false
  | .classMethod _ => false
  | .bound _ _ => false
  | .facility .shallowCopy => false
  | .facility .fieldMaker => false
  | _ => true

/-- The names by which emitted code asks for decorators. -/
def decoratorNames : List Text :=
  ["classmethod", "property", "dataclasses"]

/-- No name of a decorator has a value with code in a table. -/
def NameTable.IsInert (table : NameTable Value) : Prop :=
  ∀ name ∈ decoratorNames, ∀ value, table.get? name = some value → value.isInert = true

/-- No name of a decorator stands for a value with code among the attributes of a class. -/
def AttributesInert (attributes : NameTable Attribute) : Prop :=
  ∀ name ∈ decoratorNames, ∀ value, attributes.get? name = some (.value value) →
    value.isInert = true

/-- No name of a decorator means a value with code in some scopes. -/
def Session.MeansInert (session : Session) (scopes : List Nat) : Prop :=
  ∀ name ∈ decoratorNames, ∀ value, session.nameIn? scopes name = some value →
    value.isInert = true

theorem isInert_of_builtin {name : Text} {value : Value} (bound : builtin? name = some value) :
    value.isInert = true := by
  unfold builtin? at bound
  split at bound
  · cases bound
    rfl
  · split at bound
    · cases bound
      rfl
    · split at bound
      · cases bound
        rfl
      · obtain ⟨kind, -, rfl⟩ := Option.map_eq_some_iff.1 bound
        rfl

theorem run_callAlone_inert {value : Value} (inert : value.isInert = true) (function : Nat)
    (session : Session) :
    ∃ failure, (callAlone value [.function function] []).run session =
      (.error (.failed failure), session) := by
  cases value with
  | facility facility =>
    cases facility with
    | shallowCopy => cases inert
    | fieldMaker => cases inert
    | _ => exact ⟨_, rfl⟩
  | cell address => cases inert
  | type index => cases inert
  | function index => cases inert
  | classMethod index => cases inert
  | bound index receiver => cases inert
  | _ => exact ⟨_, rfl⟩

/-! ## Growth -/

/-- A session to which classes and functions have been added, and nothing else has changed. -/
structure Session.Grows (before after : Session) : Prop where
  types : before.types <+: after.types
  functions : before.functions <+: after.functions
  rest : after = { before with types := after.types, functions := after.functions }

namespace Session.Grows

variable {before between after : Session}

theorem refl (session : Session) : session.Grows session :=
  ⟨List.prefix_refl _, List.prefix_refl _, rfl⟩

theorem trans (first : before.Grows between) (second : between.Grows after) :
    before.Grows after := by
  refine ⟨first.types.trans second.types, first.functions.trans second.functions, ?_⟩
  rw [second.rest, first.rest]

theorem scopes (grows : before.Grows after) : after.scopes = before.scopes := by
  rw [grows.rest]

theorem meansInert (grows : before.Grows after) {scopes : List Nat}
    (inert : before.MeansInert scopes) : after.MeansInert scopes := by
  intro name member value found
  apply inert name member value
  rwa [nameIn?, grows.scopes] at found

end Session.Grows

/-- In scopes where the names of decorators mean nothing with code, an action lets a session grow
and comes to nothing but good values. -/
def Growing {α : Type} (scopes : List Nat) (good : α → Prop) (action : Action α) : Prop :=
  ∀ session : Session, session.MeansInert scopes →
    session.Grows (action.run session).2 ∧
      ∀ value, (action.run session).1 = .ok value → good value

section Parts

variable {α β : Type} {scopes : List Nat} {good : α → Prop} {better : β → Prop}

theorem growing_pure {value : α} (holds : good value) : Growing scopes good (pure value) := by
  intro session _
  refine ⟨.refl session, fun other same => ?_⟩
  cases same
  exact holds

theorem Growing.bind {action : Action α} {next : α → Action β}
    (first : Growing scopes good action)
    (second : ∀ value, good value → Growing scopes better (next value)) :
    Growing scopes better (action >>= next) := by
  intro session inert
  obtain ⟨grows, holds⟩ := first session inert
  rw [run_bind]
  rcases ran : action.run session with ⟨fault | value, between⟩
  · rw [ran] at grows
    exact ⟨grows, nofun⟩
  · rw [ran] at grows holds
    obtain ⟨growsAgain, holdsAgain⟩ := second value (holds value rfl) between (grows.meansInert inert)
    exact ⟨grows.trans growsAgain, holdsAgain⟩

theorem growing_get {next : Session → Action β}
    (each : ∀ session : Session, session.MeansInert scopes →
      session.Grows ((next session).run session).2 ∧
        ∀ value, ((next session).run session).1 = .ok value → better value) :
    Growing scopes better (get >>= next) := by
  intro session inert
  rw [run_bind, run_get]
  exact each session inert

theorem Growing.mono {action : Action α} (growing : Growing scopes good action) {weaker : α → Prop}
    (weakens : ∀ value, good value → weaker value) : Growing scopes weaker action := by
  intro session inert
  obtain ⟨grows, holds⟩ := growing session inert
  exact ⟨grows, fun value came => weakens value (holds value came)⟩

theorem growing_addType (live : LiveType) : Growing scopes (fun _ => True) (addType live) :=
  fun _ _ => ⟨⟨List.prefix_append .., List.prefix_refl _, rfl⟩, fun _ _ => trivial⟩

theorem growing_addFunction (function : LiveFunction) :
    Growing scopes (fun _ => True) (addFunction function) :=
  fun _ _ => ⟨⟨List.prefix_refl _, List.prefix_append .., rfl⟩, fun _ _ => trivial⟩

theorem growing_decorate {good : Value → Prop} {value : Value} (inert : value.isInert = true)
    (function : Nat) : Growing scopes good (callAlone value [.function function] []) := by
  intro session _
  obtain ⟨failure, failed⟩ := run_callAlone_inert inert function session
  rw [failed]
  exact ⟨.refl session, nofun⟩

theorem growing_resolveOutside {name : Text} (member : name ∈ decoratorNames) :
    Growing scopes (·.isInert = true) (resolveOutside scopes name) := by
  apply growing_get
  intro session inert
  split
  case h_1 value found =>
    refine ⟨.refl session, fun other same => ?_⟩
    cases same
    rcases Option.or_eq_some_iff.1 found with named | ⟨-, bound⟩
    · exact inert name member value named
    · exact isInert_of_builtin bound
  case h_2 => exact ⟨.refl session, nofun⟩

theorem growing_resolveInBody {attributes : NameTable Attribute} {name : Text}
    (inert : AttributesInert attributes) (member : name ∈ decoratorNames) :
    Growing scopes (·.isInert = true) (resolveInBody attributes scopes name) := by
  unfold resolveInBody
  split
  case h_1 value found => exact growing_pure (inert name member value found)
  case h_2 => exact growing_pure rfl
  case h_3 => exact growing_pure rfl
  case h_4 => exact growing_resolveOutside member

theorem growing_readAttribute {value : Value} (inert : value.isInert = true) (name : Text) :
    Growing scopes (fun read => ∃ facility found,
      facilityAttribute? facility name = some found ∧ read = .facility found)
      (readAttribute callAlone value name) := by
  apply growing_get
  intro session _
  cases value with
  | facility facility =>
    unfold readFacility
    dsimp only
    split
    case h_1 found known =>
      refine ⟨.refl session, fun other same => ?_⟩
      cases same
      exact ⟨facility, found, known, rfl⟩
    all_goals exact ⟨.refl session, nofun⟩
  | cell address => cases inert
  | type index => cases inert
  | _ => exact ⟨.refl session, nofun⟩

end Parts

/-! ## Methods -/

theorem attributesInert_empty : AttributesInert .empty := by
  intro name _ value found
  rw [NameTable.get?_empty] at found
  cases found

theorem AttributesInert.put {attributes : NameTable Attribute} (inert : AttributesInert attributes)
    {name : Text} {added : Attribute}
    (harmless : name ∈ decoratorNames → ∀ value, added = .value value → value.isInert = true) :
    AttributesInert (attributes.put name added) := by
  intro other member value found
  by_cases same : other = name
  · subst same
    rw [NameTable.get?_put_same] at found
    exact harmless member value (Option.some.inj found)
  · rw [NameTable.get?_put_other _ _ same] at found
    exact inert other member value found

theorem AttributesInert.putSlots {attributes : NameTable Attribute}
    (inert : AttributesInert attributes) (names : List Text) :
    AttributesInert (attributes.putAll (names.map fun name => (name, .slot))) := by
  induction names generalizing attributes with
  | nil => exact inert
  | cons name later ih => exact ih (inert.put fun _ _ => nofun)

section Methods

variable {scopes : List Nat} {attributes : NameTable Attribute} {method : Method}
  {qualifiedName : Text}

/-- A method adds a function.  A getter becomes a property, and so does a setter behind it. -/
theorem growing_methodAttribute (inert : AttributesInert attributes)
    (behind : method.role = .setter →
      ∃ getter setter, attributes.get? method.name = some (.property getter setter)) :
    Growing scopes (fun found => method.role = .getter ∨ method.role = .setter →
        ∃ getter setter, found = .property getter setter)
      (methodAttribute callAlone attributes scopes qualifiedName method) := by
  unfold methodAttribute
  dsimp only
  cases role : method.role with
  | plain =>
    apply (growing_addFunction _).bind
    intro function _
    exact growing_pure (by simp)
  | ofClass =>
    apply (growing_resolveInBody inert (by decide)).bind
    intro decorator harmless
    apply (growing_addFunction _).bind
    intro function _
    split
    · exact growing_pure (by simp)
    · apply (growing_decorate harmless function).bind
      intro value none_
      exact absurd none_ id
  | getter =>
    apply (growing_resolveInBody inert (by decide)).bind
    intro decorator harmless
    apply (growing_addFunction _).bind
    intro function _
    split
    · exact growing_pure fun _ => ⟨function, none, rfl⟩
    · apply (growing_decorate harmless function).bind
      intro value none_
      exact absurd none_ id
  | setter =>
    obtain ⟨getter, setter, known⟩ := behind role
    rw [known]
    apply (growing_addFunction _).bind
    intro function _
    exact growing_pure fun _ => ⟨getter, some function, rfl⟩

end Methods

/-! ## Classes -/

/-- The members of a class where every setter stands right behind its getter and no other method
has the name of a decorator. -/
inductive Orderly : List Member → Prop
  | nil : Orderly []
  | slots (names : List Text) {later : List Member} (rest : Orderly later) :
    Orderly (.slots names :: later)
  | field (name type : Text) (hidden : Bool) {later : List Member} (rest : Orderly later) :
    Orderly (.field name type hidden :: later)
  | plain {method : Method} {later : List Member} (role : method.role = .plain)
    (name : method.name ∉ decoratorNames) (rest : Orderly later) :
    Orderly (.method method :: later)
  | getter {method : Method} {later : List Member} (role : method.role = .getter)
    (rest : Orderly later) : Orderly (.method method :: later)
  | property {getter setter : Method} {later : List Member} (reads : getter.role = .getter)
    (writes : setter.role = .setter) (same : setter.name = getter.name) (rest : Orderly later) :
    Orderly (.method getter :: .method setter :: later)

theorem dataclassesModule_of_attribute {facility found : Facility} {name : Text}
    (notRoot : facilityAttribute? .rootType name = none)
    (notCopy : facilityAttribute? .copyModule name = none)
    (known : facilityAttribute? facility name = some found) :
    facilityAttribute? .dataclassesModule name = some found := by
  cases facility with
  | dataclassesModule => exact known
  | rootType =>
    rw [notRoot] at known
    cases known
  | copyModule =>
    rw [notCopy] at known
    cases known
  | _ => cases known

section Classes

variable {scopes : List Nat} {qualifiedName : Text}

theorem growing_mark : Growing scopes (· = .facility .fieldMark)
    (callAlone (.facility .fieldMaker) [] []) := by
  intro session _
  refine ⟨.refl session, fun value same => ?_⟩
  cases same
  rfl

theorem growing_runMembers {members : List Member} (orderly : Orderly members) {body : Body}
    (inert : AttributesInert body.attributes) :
    Growing scopes (fun _ => True) (runMembers callAlone scopes qualifiedName body members) := by
  induction orderly generalizing body with
  | nil => exact growing_pure trivial
  | slots names rest ih => exact ih (inert.putSlots names)
  | field name type hidden rest ih =>
    rw [runMembers]
    split
    case isTrue =>
      apply (growing_resolveInBody inert (by decide)).bind
      intro module harmless
      apply (growing_readAttribute harmless "field").bind
      rintro maker ⟨facility, found, known, rfl⟩
      have isMaker := dataclassesModule_of_attribute (by decide +kernel) (by decide +kernel) known
      rw [facilityAttribute?_field] at isMaker
      cases isMaker
      apply growing_mark.bind
      rintro mark rfl
      apply ih
      apply inert.put
      rintro _ value same
      cases same
      rfl
    case isFalse => exact ih inert
  | plain role name rest ih =>
    apply (growing_methodAttribute inert fun setter => by simp [role] at setter).bind
    intro found _
    exact ih (inert.put fun member => absurd member name)
  | getter role rest ih =>
    apply (growing_methodAttribute inert fun setter => by simp [role] at setter).bind
    intro found becomes
    obtain ⟨getter, setter, rfl⟩ := becomes (.inl role)
    exact ih (inert.put fun _ _ same => by cases same)
  | @property reader writer later reads writes same rest ih =>
    apply (growing_methodAttribute inert fun setter => by simp [reads] at setter).bind
    intro found becomes
    obtain ⟨getter, setter, rfl⟩ := becomes (.inl reads)
    have nowInert : AttributesInert
        (body.attributes.put reader.name (.property getter setter)) := inert.put fun _ _ same => by cases same
    have behind : (body.attributes.put reader.name (.property getter setter)).get? writer.name =
        some (.property getter setter) := by
      rw [same, NameTable.get?_put_same]
    apply (growing_methodAttribute nowInert fun _ => ⟨getter, setter, behind⟩).bind
    intro found becomes
    obtain ⟨getter, setter, rfl⟩ := becomes (.inr writes)
    exact ih (nowInert.put fun _ _ same => by cases same)

theorem growing_derivationTerm :
    Growing scopes (· = .facility .derive)
      (evaluate callAlone ⟨scopes, [], .empty⟩ derivationTerm) := by
  have stages : evaluate callAlone ⟨scopes, [], .empty⟩ derivationTerm = (do
      let value ← resolveOutside scopes "dataclasses"
      readAttribute callAlone value "dataclass") := by
    simp only [derivationTerm, evaluate, resolve, NameTable.get?_empty]
    rfl
  have module : Growing scopes (·.isInert = true) (resolveOutside scopes "dataclasses") :=
    growing_resolveOutside (by decide)
  rw [stages]
  apply module.bind
  intro value harmless
  apply (growing_readAttribute harmless "dataclass").mono
  rintro read ⟨facility, found, known, rfl⟩
  have derives := dataclassesModule_of_attribute (by decide +kernel) (by decide +kernel) known
  rw [facilityAttribute?_dataclass] at derives
  cases derives
  rfl

theorem growing_derived (style : DerivationStyle) (fields : List RecordField) (live : LiveType) :
    Growing scopes (fun _ => True) (derived style fields live) := by
  apply growing_get
  intro session _
  refine ⟨?_, fun _ _ => trivial⟩
  split
  · exact .refl session
  · exact .refl session

theorem growing_decorated {code : ClassCode} (orderly : Orderly code.members)
    {decorator : Option Value} (either : decorator = none ∨ decorator = some (.facility .derive)) :
    Growing scopes (fun _ => True) (do
      let body ← runMembers callAlone scopes qualifiedName ⟨.empty, [], none⟩ code.members
      let live := plainType code.name qualifiedName [] none body
      match decorator with
      | none => Value.type <$> addType live
      | some (.facility .derive) => do
        let live ← derived ⟨false, false⟩ body.fields live
        .type <$> addType live
      | some decorator => do
        let type ← addType live
        callAlone decorator [.type type] []) := by
  have adds : ∀ live : LiveType, Growing scopes (fun _ => True) (Value.type <$> addType live) := by
    intro live
    rw [map_eq_pure_bind]
    exact (growing_addType live).bind fun _ _ => growing_pure trivial
  apply (growing_runMembers orderly attributesInert_empty).bind
  intro body _
  rcases either with rfl | rfl
  · exact adds _
  · apply (growing_derived _ _ _).bind
    intro live _
    exact adds live

theorem growing_defineType {code : ClassCode} (orderly : Orderly code.members) :
    Growing scopes (fun _ => True) (defineType callAlone scopes qualifiedName code) := by
  unfold defineType
  split
  · rw [map_eq_pure_bind, bind_assoc]
    apply growing_derivationTerm.bind
    rintro value rfl
    exact growing_decorated orderly (.inr rfl)
  · exact growing_decorated orderly (.inl rfl)

/-- A definition of a class with orderly members, or of a method that is no property. -/
def OrderlyDefinition : Definition → Prop
  | .type code => Orderly code.members
  | .method method => method.role ≠ .setter

theorem growing_define {definition : Definition} (orderly : OrderlyDefinition definition)
    (front : Text) : Growing scopes (fun _ => True) (define callAlone scopes front definition) := by
  cases definition with
  | type code => exact growing_defineType orderly
  | method method =>
    apply (growing_methodAttribute attributesInert_empty fun setter => absurd setter orderly).bind
    intro found _
    split
    · exact growing_pure trivial
    · exact growing_pure trivial

end Classes

/-! ## Artifacts -/

theorem orderly_fields (fields : List Field) :
    Orderly (fields.map fun field => .field field.name field.declaredType field.skip) := by
  induction fields with
  | nil => exact .nil
  | cons field later ih => exact .field _ _ _ ih

theorem orderly_properties (name scope : Text) (writable : Bool) (fields : List Field) :
    Orderly (fields.flatMap fun field =>
      .method (viewGetter name scope writable field) ::
        (if writable then [.method (viewSetter name scope field)] else [])) := by
  induction fields with
  | nil => exact .nil
  | cons field later ih =>
    rw [List.flatMap_cons]
    cases writable with
    | true => exact .property rfl rfl rfl ih
    | false => exact .getter rfl ih

theorem orderly_view (model : RecordModel) (name : Text) (writable : Bool) (scope : Text) :
    Orderly (viewClass model name writable scope).members := by
  have plain : "__init__".toList ∉ decoratorNames := by decide
  exact .slots _ (.plain rfl plain (orderly_properties name scope writable model.exposedFields))

theorem orderly_capabilityArtifacts (model : RecordModel) (settings : Settings)
    (capability : Capability) :
    ∀ artifact ∈ capabilityArtifacts model settings capability,
      OrderlyDefinition artifact.definition := by
  have plain : MethodRole.plain ≠ .setter := by decide
  have ofClass : MethodRole.ofClass ≠ .setter := by decide
  cases capability with
  | destructure =>
    simp only [capabilityArtifacts, conversionArtifacts, List.forall_mem_cons]
    exact ⟨orderly_fields _, plain, ofClass, List.forall_mem_nil _⟩
  | mutation =>
    simp only [capabilityArtifacts, List.forall_mem_cons]
    exact ⟨orderly_view .., plain, plain, List.forall_mem_nil _⟩
  | destructureRef =>
    simp only [capabilityArtifacts, referenceArtifacts, List.forall_mem_cons]
    exact ⟨orderly_view .., plain, List.forall_mem_nil _⟩

theorem methodNames_notMem (capability : Capability) :
    ∀ name ∈ capability.methodNames, name ∉ decoratorNames := by
  cases capability <;> decide

/-- Orderly artifacts, none of which has the name of a decorator. -/
def Defines (artifacts : List Artifact) : Prop :=
  ∀ artifact ∈ artifacts, OrderlyDefinition artifact.definition ∧ artifact.name ∉ decoratorNames

theorem defines_synthesize {model : RecordModel} {settings : Settings}
    (names : ∀ capability : Capability,
      capability.typeName settings model.typeName ∉ decoratorNames) :
    Defines (synthesize model settings) := by
  intro artifact member
  constructor
  · obtain ⟨capability, -, among⟩ := List.mem_flatMap.1 member
    exact orderly_capabilityArtifacts model settings capability artifact among
  · obtain ⟨capability, -, ⟨named, -⟩ | ⟨named, -⟩⟩ := mem_synthesize member
    · exact named ▸ names capability
    · exact methodNames_notMem capability _ named

theorem NameTable.IsInert.put {table : NameTable Value} (inert : NameTable.IsInert table)
    {name : Text} {value : Value} (harmless : name ∈ decoratorNames → value.isInert = true) :
    NameTable.IsInert (table.put name value) := by
  intro key member found known
  by_cases same : key = name
  · subst same
    rw [NameTable.get?_put_same] at known
    exact Option.some.inj known ▸ harmless member
  · rw [NameTable.get?_put_other _ _ same] at known
    exact inert key member found known

theorem meansInert_of_table {session : Session} {scope : Nat} {table : NameTable Value}
    (known : session.scopes[scope]? = some table) (inert : NameTable.IsInert table) :
    session.MeansInert [scope] := by
  intro name member value found
  apply inert name member value
  simpa [Session.nameIn?, known] using found

/-- A session in which classes and functions have been added, and entries in one scope. -/
structure Session.GrowsIn (scope : Nat) (table : NameTable Value) (before after : Session) :
    Prop where
  types : before.types <+: after.types
  functions : before.functions <+: after.functions
  rest : after = { before with
    types := after.types
    functions := after.functions
    scopes := before.scopes.set scope table }

theorem Session.Grows.growsIn {before after : Session} (grows : before.Grows after) {scope : Nat}
    {table : NameTable Value} (known : before.scopes[scope]? = some table) :
    before.GrowsIn scope table after := by
  have same : before.scopes.set scope table = before.scopes := by
    obtain ⟨inside, rfl⟩ := List.getElem?_eq_some_iff.1 known
    exact List.set_getElem_self inside
  refine ⟨grows.types, grows.functions, ?_⟩
  rw [same]
  exact grows.rest

theorem Session.Grows.bound {before between after : Session} (grows : before.Grows between)
    {scope : Nat} {table last : NameTable Value} {name : Text} {value : Value}
    (known : between.scopes[scope]? = some table)
    (growsIn : (between.withName scope name value).GrowsIn scope last after) :
    before.GrowsIn scope last after := by
  have named : between.withName scope name value =
      { between with scopes := between.scopes.set scope (table.put name value) } := by
    rw [withName, known]
  rw [named] at growsIn
  refine ⟨grows.types.trans growsIn.types, grows.functions.trans growsIn.functions, ?_⟩
  rw [growsIn.rest, List.set_set, grows.rest]

/-- Artifacts are defined in order, up to the first one that fails: those in front of it have their
names bound in the scope then, and besides there are only more classes and functions. -/
theorem growsIn_defineArtifacts {scope : Nat} {artifacts : List Artifact}
    (defines : Defines artifacts) {session : Session} {table : NameTable Value}
    (known : session.scopes[scope]? = some table) (inert : NameTable.IsInert table) :
    ∃ entries : List (Text × Value), entries.map (·.1) <+: artifacts.map (·.name) ∧
      NameTable.IsInert (table.putAll entries) ∧
      session.GrowsIn scope (table.putAll entries)
        ((defineArtifacts scope artifacts).run session).2 := by
  induction artifacts generalizing session table with
  | nil => exact ⟨[], List.prefix_refl _, inert, (Session.Grows.refl session).growsIn known⟩
  | cons artifact later ih =>
    obtain ⟨⟨orderly, other⟩, rest⟩ := List.forall_mem_cons.1 defines
    obtain ⟨grows, -⟩ := growing_define orderly [] session (meansInert_of_table known inert)
    rw [defineArtifacts, run_bind]
    rcases ran : (define callAlone [scope] [] artifact.definition).run session with
      ⟨fault | value, between⟩
    · rw [ran] at grows
      exact ⟨[], List.nil_prefix, inert, grows.growsIn known⟩
    · rw [ran] at grows
      have knownThere : between.scopes[scope]? = some table := by
        rw [grows.scopes, known]
      have bound : (between.withName scope artifact.name value).scopes[scope]? =
          some (table.put artifact.name value) := by
        rw [Session.withName, knownThere]
        exact List.getElem?_set_self (List.getElem?_eq_some_iff.1 knownThere).1
      -- the table that the later definitions start from has one more entry
      obtain ⟨entries, names, stillInert, growsIn⟩ := ih rest bound
        (inert.put fun member => absurd member other)
      exact ⟨(artifact.name, value) :: entries, List.cons_prefix_cons.2 ⟨rfl, names⟩, stillInert,
        grows.bound knownThere growsIn⟩

end Live
end OpenRecord
