import OpenRecord.Live.Definition
import OpenRecord.Proofs.Live.Running

namespace OpenRecord
namespace Live

/-!
# What running code leaves standing

Code may add classes and functions and write attributes of the classes that are there, and nothing
else about a class changes while it runs: a class keeps its name, its owner and what is installed on
it, it has a value under every name where it had one, and the names of the scopes mean what they
meant.  What is added has no owner yet.  A fault that code ends with is a failure, never a refusal.  This holds of all code that can be run, whatever the
names in it mean.
-/

open Code

/-! ## Extended sessions -/

/-- A class at a later time. -/
structure LiveType.Keeps (before after : LiveType) : Prop where
  name : after.name = before.name
  owner : after.owner = before.owner
  installed : after.installed = before.installed
  values : ∀ name value, before.attributes.get? name = some (.value value) →
    ∃ other, after.attributes.get? name = some (.value other)

structure Session.Extends (before after : Session) : Prop where
  types : ∀ (index : Nat) (live : LiveType), before.types[index]? = some live →
    ∃ later, after.types[index]? = some later ∧ live.Keeps later
  added : ∀ (index : Nat) (live : LiveType), before.types.length ≤ index →
    after.types[index]? = some live → live.owner = none ∧ live.installed = none
  functions : ∀ (index : Nat) (function : LiveFunction), after.functions[index]? = some function →
    before.functions[index]? = some function ∨ function.owner = none
  scopes : after.scopes = before.scopes

theorem LiveType.keeps_refl (live : LiveType) : live.Keeps live :=
  ⟨rfl, rfl, rfl, fun _ value found => ⟨value, found⟩⟩

theorem LiveType.Keeps.trans {first second third : LiveType} (one : first.Keeps second)
    (other : second.Keeps third) : first.Keeps third := by
  refine ⟨other.name.trans one.name, other.owner.trans one.owner,
    other.installed.trans one.installed, fun name value found => ?_⟩
  obtain ⟨between, stillFound⟩ := one.values name value found
  exact other.values name between stillFound

namespace Session

variable {before between after : Session}

theorem extends_of_types (types : after.types = before.types)
    (functions : after.functions = before.functions) (scopes : after.scopes = before.scopes) :
    before.Extends after := by
  refine ⟨fun index live known => ⟨live, types ▸ known, live.keeps_refl⟩, ?_, ?_, scopes⟩
  · intro index live outside known
    rw [types, List.getElem?_eq_none outside] at known
    cases known
  · intro index function known
    exact .inl (functions ▸ known)

theorem extends_refl (session : Session) : session.Extends session :=
  extends_of_types rfl rfl rfl

theorem Extends.trans (first : before.Extends between) (second : between.Extends after) :
    before.Extends after := by
  refine ⟨fun index live known => ?_, fun index live outside known => ?_,
    fun index function known => ?_, second.scopes.trans first.scopes⟩
  · obtain ⟨middle, atMiddle, kept⟩ := first.types index live known
    obtain ⟨last, atLast, later⟩ := second.types index middle atMiddle
    exact ⟨last, atLast, kept.trans later⟩
  · cases atMiddle : between.types[index]? with
    | none => exact second.added index live (List.getElem?_eq_none_iff.1 atMiddle) known
    | some middle =>
      obtain ⟨last, atLast, kept⟩ := second.types index middle atMiddle
      obtain rfl := Option.some.inj (known.symm.trans atLast)
      rw [kept.owner, kept.installed]
      exact first.added index middle outside atMiddle
  · rcases second.functions index function known with old | unmarked
    · exact first.functions index function old
    · exact .inr unmarked

theorem extends_addType (session : Session) (live : LiveType) (unmarked : live.owner = none)
    (fresh : live.installed = none) :
    session.Extends { session with types := session.types ++ [live] } := by
  refine ⟨fun index old known => ⟨old, ?_, old.keeps_refl⟩, fun index last outside known => ?_,
    fun _ _ known => .inl known, rfl⟩
  · exact (List.getElem?_append_left (List.getElem?_eq_some_iff.1 known).1).trans known
  · rw [List.getElem?_append_right outside] at known
    obtain rfl := List.mem_singleton.1 (List.mem_of_getElem? known)
    exact ⟨unmarked, fresh⟩

theorem extends_addFunction (session : Session) (function : LiveFunction)
    (unmarked : function.owner = none) :
    session.Extends { session with functions := session.functions ++ [function] } := by
  refine ⟨fun _ live known => ⟨live, known, live.keeps_refl⟩, fun index live outside known => ?_,
    fun index other known => ?_, rfl⟩
  · rw [List.getElem?_eq_none outside] at known
    cases known
  · rcases Nat.lt_or_ge index session.functions.length with inside | outside
    · exact .inl ((List.getElem?_append_left inside).symm.trans known)
    · rw [List.getElem?_append_right outside] at known
      obtain rfl := List.mem_singleton.1 (List.mem_of_getElem? known)
      exact .inr unmarked

theorem extends_putAttribute (session : Session) (type : Nat) (name : Text) (value : Value) :
    session.Extends { session with
      types := session.types.modify type fun live =>
        { live with attributes := live.attributes.put name (.value value) } } := by
  refine ⟨fun index live known => ?_, fun index live outside known => ?_,
    fun _ _ known => .inl known, rfl⟩
  · by_cases same : type = index
    · subst same
      refine ⟨{ live with attributes := live.attributes.put name (.value value) }, ?_, rfl, rfl,
        rfl, ?_⟩
      · rw [List.getElem?_modify_eq, known]
        rfl
      · intro other old found
        by_cases written : other = name
        · exact ⟨value, written ▸ NameTable.get?_put_same ..⟩
        · exact ⟨old, (NameTable.get?_put_other _ _ written).trans found⟩
    · refine ⟨live, ?_, live.keeps_refl⟩
      rw [List.getElem?_modify_ne _ _ same, known]
  · rw [List.getElem?_eq_none (by rwa [List.length_modify])] at known
    cases known

end Session

/-! ## Extending actions -/

/-- From a session an action leads to an extension of it, and fails if it does not succeed. -/
structure ExtendsFrom {α : Type} (session : Session) (action : Action α) : Prop where
  extends_ : session.Extends (action.run session).2
  fails : ∀ fault, (action.run session).1 = .error fault → ∃ failure, fault = .failed failure

/-- From every session an action leads to an extension of it. -/
def Extending {α : Type} (action : Action α) : Prop :=
  ∀ session, ExtendsFrom session action

section Parts

variable {α β : Type} {session : Session}

theorem ExtendsFrom.bind {action : Action α} {next : α → Action β}
    (first : ExtendsFrom session action) (second : ∀ value, Extending (next value)) :
    ExtendsFrom session (action >>= next) := by
  obtain ⟨extended, fails⟩ := first
  constructor
  · rw [run_bind]
    rcases ran : action.run session with ⟨result, after⟩
    rw [ran] at extended
    cases result with
    | ok value => exact extended.trans (second value after).extends_
    | error fault => exact extended
  · intro fault failed
    rw [run_bind] at failed
    rcases ran : action.run session with ⟨result, after⟩
    rw [ran] at failed fails
    cases result with
    | ok value => exact (second value after).fails fault failed
    | error other =>
      cases failed
      exact fails _ rfl

theorem Extending.bind {action : Action α} {next : α → Action β} (first : Extending action)
    (second : ∀ value, Extending (next value)) : Extending (action >>= next) :=
  fun session => (first session).bind second

theorem extending_get {next : Session → Action β}
    (each : ∀ session, ExtendsFrom session (next session)) : Extending (get >>= next) := by
  intro session
  obtain ⟨extended, fails⟩ := each session
  constructor <;> rw [run_bind, run_get]
  · exact extended
  · exact fails

theorem extending_pure (value : α) : Extending (pure value : Action α) :=
  fun session => ⟨session.extends_refl, nofun⟩

theorem extending_fail (failure : Failure) : Extending (fail failure : Action α) :=
  fun session => ⟨session.extends_refl, fun _ failed => by
    cases failed
    exact ⟨failure, rfl⟩⟩

theorem extendsFrom_set {after : Session} (extended : session.Extends after) :
    ExtendsFrom session (set after : Action Unit) :=
  ⟨extended, nofun⟩

theorem extending_modify {change : Session → Session}
    (extended : ∀ session : Session, session.Extends (change session)) :
    Extending (modify change : Action Unit) :=
  fun session => ⟨extended session, nofun⟩

theorem Extending.map {action : Action α} (extending : Extending action) (change : α → β) :
    Extending (change <$> action) := by
  rw [map_eq_pure_bind]
  exact extending.bind fun value => extending_pure (change value)

theorem Extending.ending {action : Action α} {cleanup : Action Unit} (body : Extending action)
    (after : Extending cleanup) : Extending (ending action cleanup) := by
  intro session
  obtain ⟨extended, fails⟩ := body session
  rcases ran : action.run session with ⟨result, between⟩
  rw [ran] at extended fails
  cases result with
  | ok value =>
    have rest := (after.bind fun _ => extending_pure value) between
    constructor <;> rw [run_ending, ran]
    · exact extended.trans rest.extends_
    · exact rest.fails
  | error fault =>
    -- the fault that is thrown again is a failure, as the body ended with it
    obtain ⟨failure, rfl⟩ := fails _ rfl
    have failing : Extending (fail failure : Action α) := extending_fail failure
    have rest := (after.bind fun _ => failing) between
    constructor <;> rw [run_ending, ran]
    · exact extended.trans rest.extends_
    · exact rest.fails

end Parts

theorem extending_allocate (cell : Cell) : Extending (allocate cell) := by
  refine extending_get fun session => ?_
  have extended : session.Extends (session.withCell cell) := Session.extends_of_types rfl rfl rfl
  exact (extendsFrom_set extended).bind fun _ => extending_pure _

theorem extending_addType {live : LiveType} (unmarked : live.owner = none)
    (fresh : live.installed = none) : Extending (addType live) :=
  extending_get fun session =>
    (extendsFrom_set (session.extends_addType live unmarked fresh)).bind fun _ => extending_pure _

theorem extending_addFunction {function : LiveFunction} (unmarked : function.owner = none) :
    Extending (addFunction function) :=
  extending_get fun session =>
    (extendsFrom_set (session.extends_addFunction function unmarked)).bind fun _ =>
      extending_pure _

/-! ## Access to attributes -/

/-- All calls lead to extensions. -/
def Caller.Extends (call : Caller) : Prop :=
  ∀ target positional named, Extending (call target positional named)

section Access

variable {call : Caller} (calls : call.Extends)
include calls

theorem extending_readObject (address type : Nat) (name : Text) :
    Extending (readObject call address type name) := by
  refine extending_get fun session => ?_
  split
  · exact calls _ _ _ _
  · exact extending_pure _ _
  · exact extending_pure _ _
  · exact extending_fail _ _

omit calls in
theorem extending_readType (type : Nat) (name : Text) : Extending (readType type name) := by
  refine extending_get fun session => ?_
  split
  case h_6 => exact extending_fail _ _
  all_goals exact extending_pure _ _

omit calls in
theorem extending_readFacility (facility : Facility) (name : Text) :
    Extending (readFacility facility name) := by
  unfold readFacility
  split
  · exact extending_pure _
  · exact extending_fail _
  · exact extending_fail _

theorem extending_readAttribute (target : Value) (name : Text) :
    Extending (readAttribute call target name) := by
  refine extending_get fun session => ?_
  split
  · split
    · exact extending_readObject calls _ _ _ _
    · exact extending_fail _ _
  · exact extending_readType _ _ _
  · exact extending_readFacility _ _ _
  · exact extending_fail _ _

omit calls in
theorem Session.extends_withAttribute (session : Session) (address : Nat) (name : Text)
    (value : Value) : session.Extends (session.withAttribute address name value) := by
  unfold Session.withAttribute
  split
  · exact Session.extends_of_types rfl rfl rfl
  · exact session.extends_refl

theorem extending_rawWriteObject (address type : Nat) (name : Text) (value : Value) :
    Extending (rawWriteObject call address type name value) := by
  refine extending_get fun session => ?_
  split
  · exact (calls _ _ _ session).bind fun _ => extending_pure _
  · exact extending_fail _ _
  · exact extendsFrom_set (session.extends_withAttribute address name value)
  · split
    · exact extendsFrom_set (session.extends_withAttribute address name value)
    · split
      · exact extending_fail _ _
      · exact extending_fail _ _

theorem extending_rawWrite (target : Value) (name : Text) (value : Value) :
    Extending (rawWrite call target name value) := by
  refine extending_get fun session => ?_
  split
  · split
    · exact extending_rawWriteObject calls _ _ _ _ _
    · exact extending_fail _ _
  · exact extending_fail _ _
  · exact extending_fail _ _

theorem extending_guardedWrite (address type : Nat) (name : Text) (value : Value)
    (line : List Nat) : Extending (guardedWrite call address type name value line) := by
  induction line with
  | nil => exact extending_rawWriteObject calls _ _ _ _
  | cons index later ih =>
    refine extending_get fun session => ?_
    split
    · split
      · exact extending_fail _ _
      · split
        · exact extending_fail _ _
        · exact ih _
    · exact (calls _ _ _ session).bind fun _ => extending_pure _
    · exact ih _

theorem extending_writeAttribute (target : Value) (name : Text) (value : Value) :
    Extending (writeAttribute call target name value) := by
  refine extending_get fun session => ?_
  split
  · split
    · exact extending_guardedWrite calls _ _ _ _ _ _
    · exact extending_fail _ _
  case h_2 type =>
    exact extending_modify (fun session => session.extends_putAttribute type name value) _
  · exact extending_fail _ _

end Access

/-! ## Terms and commands -/

theorem extending_resolveOutside (scopes : List Nat) (name : Text) :
    Extending (resolveOutside scopes name) := by
  refine extending_get fun session => ?_
  split
  · exact extending_pure _ _
  · exact extending_fail _ _

theorem extending_resolve (frame : Frame) (name : Text) : Extending (resolve frame name) := by
  unfold resolve
  split
  · exact extending_pure _
  · split
    · exact extending_fail _
    · exact extending_resolveOutside _ _

section Code

variable {call : Caller}

mutual

theorem extending_evaluate (calls : call.Extends) (frame : Frame) :
    (term : Term) → Extending (evaluate call frame term)
  | .name identifier => extending_resolve frame identifier
  | .absent => extending_pure _
  | .boolean _ => extending_pure _
  | .string _ => extending_pure _
  | .attribute target identifier =>
    (extending_evaluate calls frame target).bind fun value =>
      extending_readAttribute calls value identifier
  | .call function arguments =>
    (extending_evaluate calls frame function).bind fun _ =>
      (extending_evaluateAll calls frame arguments).bind fun _ => calls _ _ _
  | .construct function arguments =>
    (extending_evaluate calls frame function).bind fun _ =>
      (extending_evaluateNamed calls frame arguments).bind fun _ => calls _ _ _

theorem extending_evaluateAll (calls : call.Extends) (frame : Frame) :
    (terms : List Term) → Extending (evaluateAll call frame terms)
  | [] => extending_pure _
  | first :: later =>
    (extending_evaluate calls frame first).bind fun _ =>
      (extending_evaluateAll calls frame later).bind fun _ => extending_pure _

theorem extending_evaluateNamed (calls : call.Extends) (frame : Frame) :
    (terms : List (Text × Term)) → Extending (evaluateNamed call frame terms)
  | [] => extending_pure _
  | (_, first) :: later =>
    (extending_evaluate calls frame first).bind fun _ =>
      (extending_evaluateNamed calls frame later).bind fun _ => extending_pure _

end

mutual

theorem extending_run (calls : call.Extends) (frame : Frame) :
    (command : Command) → Extending (run call frame command)
  | .assign target value => by
    cases target with
    | name identifier =>
      exact (extending_evaluate calls frame value).bind fun _ => extending_pure _
    | «attribute» target identifier =>
      exact (extending_evaluate calls frame value).bind fun _ =>
        (extending_evaluate calls frame target).bind fun _ =>
          (extending_writeAttribute calls _ identifier _).bind fun _ => extending_pure _
    | _ => exact extending_pure _
  | .evaluate value =>
    (extending_evaluate calls frame value).bind fun _ => extending_pure _
  | .return value =>
    (extending_evaluate calls frame value).bind fun _ => extending_pure _
  | .whenAbsent value body => by
    refine (extending_evaluate calls frame value).bind fun value => ?_
    split
    · exact extending_runAll calls frame body
    · exact extending_pure _
  | .raise value => by
    refine (extending_evaluate calls frame value).bind fun value => ?_
    split
    · exact extending_fail _
    · exact extending_fail _
  | .finally body cleanup =>
    (extending_runAll calls frame body).ending
      ((extending_runAll calls frame cleanup).bind fun _ => extending_pure _)

theorem extending_runAll (calls : call.Extends) (frame : Frame) :
    (commands : List Command) → Extending (runAll call frame commands)
  | [] => extending_pure _
  | first :: later => by
    refine (extending_run calls frame first).bind fun completion => ?_
    split
    · exact extending_runAll calls _ later
    · exact extending_pure _

end

end Code

/-! ## Calls -/

theorem extending_takeArguments (function : Text) (formals : List Formal)
    (positional : List Value) (named : List (Text × Value)) :
    Extending (takeArguments function formals positional named) := by
  unfold takeArguments
  split
  · exact extending_pure _
  · exact extending_fail _

theorem extending_takeParameters (function : LiveFunction) (positional : List Value)
    (named : List (Text × Value)) : Extending (takeParameters function positional named) := by
  unfold takeParameters
  split
  · exact extending_takeArguments _ _ _ _
  · exact extending_takeArguments _ _ _ _

theorem extending_allocateObject (type : Nat) (attributes : List (Text × Value)) :
    Extending (allocateObject type attributes) := by
  refine extending_get fun session => ?_
  dsimp only
  split
  · exact extending_fail _ _
  · exact extending_allocate _ _

section Calls

variable {call : Caller} (calls : call.Extends)
include calls

theorem extending_runFunction (function : LiveFunction) (positional : List Value)
    (named : List (Text × Value)) :
    Extending (runFunction call function positional named) := by
  refine (extending_takeParameters function positional named).bind fun locals => ?_
  refine (extending_runAll calls _ function.body).bind fun completion => ?_
  split
  · exact extending_pure _
  · exact extending_pure _

theorem extending_writeFields (target : Value) (raw : Bool) (values : NameTable Value)
    (fields : List RecordField) : Extending (writeFields call target raw values fields) := by
  induction fields with
  | nil => exact extending_pure _
  | cons field later ih =>
    rw [writeFields]
    split
    · split
      · exact ih
      · split
        · exact (extending_rawWrite calls _ _ _).bind fun _ => ih
        · exact (extending_writeAttribute calls _ _ _).bind fun _ => ih
    · exact ih

theorem extending_initializeObject (type : Nat) (target : Value) (positional : List Value)
    (named : List (Text × Value)) :
    Extending (initializeObject call type target positional named) := by
  refine extending_get fun session => ?_
  split
  · exact (extending_takeArguments _ _ _ _ session).bind fun values =>
      extending_writeFields calls _ _ _ _
  · exact (calls _ _ _ session).bind fun _ => extending_pure _
  · split
    · exact extending_pure _ _
    · exact extending_fail _ _

theorem extending_construct (type : Nat) (positional : List Value)
    (named : List (Text × Value)) : Extending (construct call type positional named) :=
  (extending_allocate _).bind fun _ =>
    (extending_initializeObject calls _ _ _ _).bind fun _ => extending_pure _

theorem extending_transferFields (source target : Value) (names : List Text) :
    Extending (transferFields call source target names) := by
  induction names with
  | nil => exact extending_pure _
  | cons name later ih =>
    exact (extending_readAttribute calls _ _).bind fun _ =>
      (extending_rawWrite calls _ _ _).bind fun _ => ih

theorem extending_writeAll (target : Value) (attributes : List (Text × Value)) :
    Extending (writeAll call target attributes) := by
  induction attributes with
  | nil => exact extending_pure _
  | cons entry later ih => exact (extending_writeAttribute calls _ _ _).bind fun _ => ih

theorem extending_copyObject (source : Value) (type : Nat) (attributes : List (Text × Value)) :
    Extending (copyObject call source type attributes) := by
  refine extending_get fun session => ?_
  split
  · exact (extending_allocateObject _ _ session).bind fun _ =>
      (extending_transferFields calls _ _ _).bind fun _ => extending_pure _
  · exact (extending_allocateObject _ _ session).bind fun _ =>
      (extending_writeAll calls _ _).bind fun _ => extending_pure _

theorem extending_shallowCopy (source : Value) : Extending (shallowCopy call source) := by
  refine extending_get fun session => ?_
  split
  · split
    · exact extending_copyObject calls _ _ _ _
    · exact extending_allocate _ _
    · exact extending_pure _ _
  · exact extending_pure _ _

variable {callback : Value → Action Value} (callbacks : ∀ value, Extending (callback value))
include callbacks

theorem extending_callFacility (facility : Facility) (positional : List Value)
    (named : List (Text × Value)) :
    Extending (callFacility callback call facility positional named) := by
  unfold callFacility
  split
  · exact callbacks _
  · exact extending_allocateObject _ _
  · exact (extending_rawWrite calls _ _ _).bind fun _ => extending_pure _
  · exact extending_shallowCopy calls _
  · exact extending_pure _
  · exact extending_pure _
  · exact extending_fail _

theorem extending_callValue : (callValue callback call).Extends := by
  intro target positional named
  refine extending_get fun session => ?_
  split
  · split
    · exact extending_runFunction calls _ _ _ _
    · exact extending_fail _ _
  · split
    · exact extending_runFunction calls _ _ _ _
    · exact extending_fail _ _
  · exact extending_construct calls _ _ _ _
  · exact extending_callFacility calls callbacks _ _ _ _
  · exact extending_fail _ _

end Calls

/-- Calls lead to extensions if the callback does, to whatever depth. -/
theorem extending_invoke {callback : Value → Action Value}
    (callbacks : ∀ value, Extending (callback value)) (depth : Nat) :
    (invoke callback depth).Extends := by
  induction depth with
  | zero => exact fun _ _ _ => extending_fail _
  | succ depth ih => exact extending_callValue ih callbacks

theorem extending_callAlone : callAlone.Extends :=
  extending_invoke (fun _ => extending_fail _) maximalDepth

/-! ## Definitions -/

theorem extending_resolveInBody (attributes : NameTable Attribute) (scopes : List Nat)
    (name : Text) : Extending (resolveInBody attributes scopes name) := by
  unfold resolveInBody
  split
  · exact extending_pure _
  · exact extending_pure _
  · exact extending_pure _
  · exact extending_resolveOutside _ _

theorem checkSlots_eq_ok {session : Session} {live checked : LiveType}
    (succeeded : checkSlots session live = .ok checked) : checked = live := by
  unfold checkSlots at succeeded
  split at succeeded
  · cases succeeded
  · exact (Except.ok.inj succeeded).symm

/-- Derived methods are attributes, and owners and installations are none. -/
theorem deriveMethods_keeps {session : Session} {style : DerivationStyle}
    {declared : List RecordField} {live built : LiveType}
    (succeeded : deriveMethods session style declared live = .ok built) :
    built.owner = live.owner ∧ built.installed = live.installed := by
  unfold deriveMethods at succeeded
  simp only [bind, Except.bind, pure, Except.pure, throw, throwThe, MonadExceptOf.throw] at succeeded
  -- besides the refusals there are two ends, for a class with slots and for one without
  repeat' split at succeeded
  case h_2.isFalse.isTrue.isFalse =>
    rw [checkSlots_eq_ok succeeded]
    exact ⟨rfl, rfl⟩
  case h_2.isFalse.isFalse =>
    cases succeeded
    exact ⟨rfl, rfl⟩
  all_goals cases succeeded

theorem extending_addDerived (style : DerivationStyle) (fields : List RecordField)
    {live : LiveType} (unmarked : live.owner = none) (fresh : live.installed = none) :
    Extending (do
      let built ← derived style fields live
      Value.type <$> addType built) := by
  unfold derived
  rw [bind_assoc]
  refine extending_get fun session => ?_
  cases methods : deriveMethods session style fields live with
  | error failure =>
    have failing : Extending (fail failure : Action Value) := extending_fail failure
    exact failing session
  | ok built =>
    obtain ⟨owner, installed⟩ := deriveMethods_keeps methods
    have added : Extending (Value.type <$> addType built) :=
      (extending_addType (owner.trans unmarked) (installed.trans fresh)).map _
    exact added session

section Definitions

variable {call : Caller} (calls : call.Extends)
include calls

theorem extending_methodAttribute (attributes : NameTable Attribute) (scopes : List Nat)
    (qualifiedName : Text) (method : Method) :
    Extending (methodAttribute call attributes scopes qualifiedName method) := by
  unfold methodAttribute
  split
  · exact (extending_addFunction rfl).bind fun _ => extending_pure _
  · refine (extending_resolveInBody _ _ _).bind fun decorator => ?_
    refine (extending_addFunction rfl).bind fun function => ?_
    split
    · exact extending_pure _
    · exact (calls _ _ _).bind fun _ => extending_pure _
  · refine (extending_resolveInBody _ _ _).bind fun decorator => ?_
    refine (extending_addFunction rfl).bind fun function => ?_
    split
    · exact extending_pure _
    · exact (calls _ _ _).bind fun _ => extending_pure _
  · split
    · exact (extending_addFunction rfl).bind fun _ => extending_pure _
    · exact (extending_resolveInBody _ _ _).bind fun _ =>
        (extending_readAttribute calls _ _).bind fun _ =>
          (extending_addFunction rfl).bind fun _ =>
            (calls _ _ _).bind fun _ => extending_pure _

theorem extending_runMembers (scopes : List Nat) (qualifiedName : Text) (body : Body)
    (members : List Member) :
    Extending (runMembers call scopes qualifiedName body members) := by
  induction members generalizing body with
  | nil => exact extending_pure _
  | cons member later ih =>
    cases member with
    | slots names => exact ih _
    | field name declaredType hidden =>
      rw [runMembers]
      split
      · exact (extending_resolveInBody _ _ _).bind fun _ =>
          (extending_readAttribute calls _ _).bind fun _ =>
            (calls _ _ _).bind fun _ => (extending_pure _).bind fun _ => ih _
      · exact (extending_pure _).bind fun _ => ih _
    | method method =>
      exact (extending_methodAttribute calls _ _ _ _).bind fun _ => ih _

/-- What follows the decorator of a type, however that was found. -/
theorem extending_decorated (scopes : List Nat) (qualifiedName : Text) (code : ClassCode)
    (decorator : Option Value) : Extending (do
      let body ← runMembers call scopes qualifiedName ⟨.empty, [], none⟩ code.members
      let live := plainType code.name qualifiedName [] none body
      match decorator with
      | none => Value.type <$> addType live
      | some (.facility .derive) => do
        let live ← derived ⟨false, false⟩ body.fields live
        .type <$> addType live
      | some decorator => do
        let type ← addType live
        call decorator [.type type] []) := by
  refine (extending_runMembers calls _ _ _ _).bind fun body => ?_
  split
  · exact (extending_addType rfl rfl).map _
  · exact extending_addDerived _ _ rfl rfl
  · exact (extending_addType rfl rfl).bind fun _ => calls _ _ _

theorem extending_defineType (scopes : List Nat) (qualifiedName : Text) (code : ClassCode) :
    Extending (defineType call scopes qualifiedName code) := by
  have defined := extending_decorated calls scopes qualifiedName code
  unfold defineType
  split
  · exact ((extending_evaluate calls _ _).map _).bind defined
  · exact (extending_pure _).bind defined

theorem extending_define (scopes : List Nat) (front : Text) (definition : Definition) :
    Extending (define call scopes front definition) := by
  cases definition with
  | type code => exact extending_defineType calls _ _ _
  | method method =>
    refine (extending_methodAttribute calls _ _ _ _).bind fun found => ?_
    split
    · exact extending_pure _
    · exact extending_pure _

end Definitions

end Live
end OpenRecord
