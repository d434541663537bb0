import OpenRecord.Live.Step
import OpenRecord.Proofs.Live.Conversions

namespace OpenRecord
namespace Live

/-!
# Reconstructing a record

`reconstruct` hands a companion of the record to its callback, once, and puts what the companion
holds afterwards into a shallow copy of the record.  The copy is made after the callback has
returned, so that a callback which fails leaves no new record, and the record itself is only read.

What a class makes of a shallow copy is a condition on the class.  It holds where copies take over
all attributes; a class of which the objects hand over some of their attributes only is not covered.
-/

open Code

/-! ## Shallow copies -/

/-- A shallow copy of an object of the class has the same attributes, whatever the state of the
objects. -/
def Session.CopiesShallowly (session : Session) (type : Nat) : Prop :=
  ∀ (call : Caller) (now : Session) (address : Nat) (attributes : List (Text × Value)),
    session.SameCode now → now.cells[address]? = some (.object type attributes) →
    (attributes.map (·.1)).Nodup →
    ∃ copied, (shallowCopy call (.cell address)).run now =
      (.ok (.cell now.cells.length), now.withCells (now.cells ++ [.object type copied])) ∧
      ∀ name, lookupName name copied = lookupName name attributes

section Copying

variable {call : Caller} {session : Session} {type : Nat}

theorem run_writeAll {address : Nat} {cells : List Cell} {written added : List (Text × Value)}
    (unguarded : session.Unguarded type)
    (stores : ∀ entry ∈ added, session.Stores type entry.1)
    (distinct : ((written ++ added).map (·.1)).Nodup)
    (cell : cells[address]? = some (.object type written)) :
    (writeAll call (.cell address) added).run (session.withCells cells) =
      (.ok (), session.withCells (cells.set address (.object type (written ++ added)))) := by
  induction added generalizing cells written with
  | nil =>
    have same : cells.set address (.object type written) = cells := set_cell_self cell
    rw [List.append_nil, same]
    rfl
  | cons entry later ih =>
    obtain ⟨name, value⟩ := entry
    rw [List.forall_mem_cons] at stores
    have fresh : name ∉ written.map (·.1) := by
      intro known
      rw [List.map_append, List.nodup_append] at distinct
      exact distinct.2.2 _ known _ (List.mem_cons_self ..) rfl
    have through : (writeAttribute call (.cell address) name value).run
        (session.withCells cells) =
          (Live.rawWrite call (.cell address) name value).run (session.withCells cells) :=
      run_writeAttribute cell unguarded
    have stored : (Live.rawWrite call (.cell address) name value).run (session.withCells cells) =
        (.ok (), session.withCells
          (cells.set address (.object type (written ++ [(name, value)])))) := by
      rw [← putName_of_notMem fresh]
      exact run_rawWrite cell (stores.1.withCells cells)
    have inside : address < cells.length := (List.getElem?_eq_some_iff.1 cell).1
    have next : ((written ++ [(name, value)] ++ later).map (·.1)).Nodup := by
      rw [List.append_assoc]
      exact distinct
    rw [writeAll, run_bind_of_ok (through.trans stored),
      ih stores.2 next (List.getElem?_set_self inside), List.set_set, List.append_assoc]
    rfl

theorem lookupName_partition (apart : Text → Bool) (name : Text) (entries : List (Text × Value)) :
    lookupName name (entries.filter (fun entry => !apart entry.1) ++
      entries.filter (fun entry => apart entry.1)) = lookupName name entries := by
  rw [lookupName_append, lookupName_filter fun key => !apart key, lookupName_filter]
  cases apart name with
  | true => rfl
  | false => simp

theorem nodup_partition (apart : Text → Bool) {entries : List (Text × Value)}
    (distinct : (entries.map (·.1)).Nodup) :
    ((entries.filter (fun entry => !apart entry.1) ++
      entries.filter (fun entry => apart entry.1)).map (·.1)).Nodup := by
  rw [List.map_append, List.nodup_append]
  refine ⟨distinct.sublist (List.filter_sublist.map _), distinct.sublist
    (List.filter_sublist.map _), ?_⟩
  rintro _ inRest _ inApart rfl
  obtain ⟨entry, kept, rfl⟩ := List.mem_map.1 inRest
  obtain ⟨other, moved, same⟩ := List.mem_map.1 inApart
  rw [List.mem_filter] at kept moved
  have here : (!apart entry.1) = true := kept.2
  have there : apart entry.1 = true := same ▸ moved.2
  rw [there] at here
  cases here

/-- Copies are shallow unless the class hands over fields one by one, or guards the writes to
attributes that have places of their own. -/
theorem copiesShallowly (allocates : session.Allocates type)
    (direct : ∀ names, session.attribute? type transferName ≠ some (.transfer names))
    (writable : session.Unguarded type ∨ ∀ name, session.attribute? type name ≠ some .slot) :
    session.CopiesShallowly type := by
  intro call now address attributes same cell distinct
  have found : ∀ name, now.attribute? type name = session.attribute? type name := by
    intro name
    rw [same.eq]
    rfl
  let slotted := fun name => session.attribute? type name == some .slot
  let kept := attributes.filter fun entry => !slotted entry.1
  let moved := attributes.filter fun entry => slotted entry.1
  refine ⟨kept ++ moved, ?_, fun name => lookupName_partition slotted name attributes⟩
  have allocated : (allocateObject type kept).run now =
      (.ok (.cell now.cells.length), now.withCells (now.cells ++ [.object type kept])) :=
    run_allocateObject (by rw [same.eq]; exact allocates)
  have written : (writeAll call (.cell now.cells.length) moved).run
      (now.withCells (now.cells ++ [.object type kept])) =
        (.ok (), now.withCells (now.cells ++ [.object type (kept ++ moved)])) := by
    have new : (now.cells ++ [.object type kept])[now.cells.length]? = some (.object type kept) :=
      List.getElem?_concat_length
    rcases writable with unguarded | unslotted
    · have stores : ∀ entry ∈ moved, now.Stores type entry.1 := by
        intro entry member
        have place : session.attribute? type entry.1 = some .slot := by
          simpa [slotted] using (List.mem_filter.1 member).2
        exact ⟨by simp [found, place], .inl ((found _).trans place)⟩
      rw [run_writeAll (by rw [same.eq]; exact unguarded) stores
        (nodup_partition slotted distinct) new]
      simp [kept]
    · have none_moved : moved = [] := by
        simp [moved, slotted, unslotted]
      rw [none_moved, List.append_nil]
      rfl
  have copied : (copyObject call (.cell address) type attributes).run now =
      (.ok (.cell now.cells.length),
        now.withCells (now.cells ++ [.object type (kept ++ moved)])) := by
    unfold copyObject
    rw [run_bind_of_ok (run_get now)]
    split
    case h_1 names transfers => exact absurd transfers (found _ ▸ direct names)
    case h_2 =>
      simp only [found]
      rw [run_bind_of_ok allocated, run_bind_of_ok written]
      rfl
  simp only [shallowCopy, run_bind, run_get, cell, copied]

end Copying

/-! ## The body -/

/-- A class whose objects can be converted and reconstructed. -/
structure Session.Reconstructs (session : Session) (model : RecordModel) (settings : Settings)
    (type companion : Nat) (scopes : List Nat) : Prop
    extends session.Converts model settings type companion scopes where
  copyModule : session.Means scopes "copy" (.facility .copyModule)
  reconstruct : ∃ index, session.attribute? type "reconstruct" = some (.value (.function index)) ∧
    session.Carries index scopes (reconstructArtifact model (model.companion settings))
  copies : session.CopiesShallowly type

theorem Session.Reconstructs.of_sameCode {before after : Session} {model : RecordModel}
    {settings : Settings} {type companion : Nat} {scopes : List Nat}
    (reconstructs : before.Reconstructs model settings type companion scopes)
    (same : before.SameCode after) : after.Reconstructs model settings type companion scopes where
  toConverts := reconstructs.toConverts.of_sameCode same
  copyModule := by
    rw [same.eq]
    exact reconstructs.copyModule
  reconstruct := by
    rw [same.eq]
    exact reconstructs.reconstruct
  copies call now address attributes further :=
    reconstructs.copies call now address attributes
      ⟨further.types.trans same.types, further.functions.trans same.functions,
        further.scopes.trans same.scopes⟩

/-- What `reconstruct` does behind the callback. -/
def writingBack (names : List Text) : List Command :=
  .assign (.name "instance") (.call (localAttribute "copy" "copy") [.name "self"]) ::
    (names.map (fun name => OpenRecord.rawWrite "instance" name "destruct") ++
      [.return (.name "instance")])

/-- The body of `reconstruct`, which depends on the names of the fields alone. -/
def reconstructBody (names : List Text) : List Command :=
  .assign (.name "destruct") (.call (localAttribute "self" "into_destruct") []) ::
    .evaluate (.call (.name "f") [.name "destruct"]) :: writingBack names

theorem boundInCommands_reconstructBody (names : List Text) :
    boundInCommands (reconstructBody names) = ([("destruct" : Text), "instance"]) := by
  rw [boundInCommands_eq_flatMap, reconstructBody, writingBack]
  simp [Command.boundNames, OpenRecord.rawWrite]

def editedFrame (scopes : List Nat) (record made : Nat) : Frame :=
  ⟨scopes, (["self", "f", "destruct", "instance"] : List Text),
    ⟨[("self", .cell record), ("f", callbackValue), ("destruct", .cell made)]⟩⟩

section Body

variable {callback : Value → Action Value} {depth : Nat} {session : Session} {scopes : List Nat}
  {model : RecordModel} {settings : Settings} {record made type companion : Nat}
  {attributes : List (Text × Value)} {values : Text → Value} {frame : Frame}

theorem reconstructMethod_of_defined {method : Method}
    (defined :
      (reconstructArtifact model (model.companion settings)).definition = .method method) :
    method.parameters.map (·.name) = (["self", "f"] : List Text) ∧
      method.body = reconstructBody model.fieldNames := by
  cases defined
  simp [reconstructBody, writingBack, RecordModel.companion, RecordModel.fieldNames,
    Function.comp_def]

theorem run_writingBack {names : List Text} {edited : List (Text × Value)}
    (self : frame.locals.get? "self" = some (.cell record))
    (destruct : frame.locals.get? "destruct" = some (.cell made))
    (noCopy : frame.locals.get? "copy" = none) (freeCopy : ("copy" : Text) ∉ frame.owned)
    (copyModule : session.Means frame.scopes "copy" (.facility .copyModule))
    (noObject : frame.locals.get? "object" = none) (freeObject : ("object" : Text) ∉ frame.owned)
    (root : session.Means frame.scopes "object" (.facility .rootType))
    (copies : session.CopiesShallowly type) (stores : ∀ name ∈ names, session.Stores type name)
    (cell : session.cells[record]? = some (.object type attributes))
    (distinct : (attributes.map (·.1)).Nodup)
    (madeCell : session.cells[made]? = some (.object companion edited))
    (visible : ∀ name ∈ names, ∀ getter setter,
      session.attribute? companion name ≠ some (.property getter setter))
    (own : ∀ name ∈ names, lookupName name edited = some (values name)) :
    ∃ copied, (runAll (invoke callback (depth + 1)) frame (writingBack names)).run session =
      (.ok (.returns (.cell session.cells.length)), session.withCells (session.cells ++
        [.object type (overwritten values names copied)])) ∧
      ∀ name, lookupName name copied = lookupName name attributes := by
  obtain ⟨copied, ran, same⟩ := copies (invoke callback depth) session record attributes
    ⟨rfl, rfl, rfl⟩ cell distinct
  refine ⟨copied, ?_, same⟩
  have function : (evaluate (invoke callback (depth + 1)) frame
      (localAttribute "copy" "copy")).run session = (.ok (.facility .shallowCopy), session) :=
    run_facilityAttribute noCopy freeCopy copyModule rfl
  have arguments : (evaluateAll (invoke callback (depth + 1)) frame [.name "self"]).run session =
      (.ok [.cell record], session) := by
    simp only [evaluateAll, evaluate, run_bind, run_resolve_local self, run_pure]
  have copy : (evaluate (invoke callback (depth + 1)) frame
      (.call (localAttribute "copy" "copy") [.name "self"])).run session =
        (.ok (.cell session.cells.length),
          session.withCells (session.cells ++ [.object type copied])) :=
    (run_evaluate_call function arguments).trans ran
  exact runAll_fillInstance noObject freeObject root destruct madeCell stores visible own copy

/-- A call of `reconstruct` runs the callback on a new companion and writes back what it leaves. -/
theorem run_reconstruct (reconstructs : session.Reconstructs model settings type companion scopes)
    (distinct : model.fieldNames.Nodup)
    (plain : ∀ name ∈ model.fieldNames, ¬ dunder <+: name)
    (free : companionName model.typeName settings ∉ (["self", "destruct"] : List Text))
    (cell : session.cells[record]? = some (.object type attributes))
    (unshadowed : lookupName "reconstruct" attributes = none)
    (convertible : lookupName "into_destruct" attributes = none)
    (own : ∀ name ∈ model.fieldNames, lookupName name attributes = some (values name)) :
    (callOn (invoke callback (depth + 3)) (.cell record) "reconstruct" [callbackValue]).run
        session =
      match (callback (.cell session.cells.length)).run (session.withCells (session.cells ++
          [.object companion (companionAttributes model.fields values)])) with
      | (.error fault, after) => (.error fault, after)
      | (.ok _, after) =>
        (Completion.answer <$> runAll (invoke callback (depth + 2))
          (editedFrame scopes record session.cells.length)
          (writingBack model.fieldNames)).run after := by
  obtain ⟨index, inherited, method, defined, runs⟩ := reconstructs.reconstruct
  obtain ⟨parameters, body⟩ := reconstructMethod_of_defined defined
  have single : (method.parameters.map (·.name)).Nodup := by
    rw [parameters]
    decide
  have together : (method.parameters.map (·.name)).length = [callbackValue].length + 1 := by
    rw [parameters]
    rfl
  have frame : methodFrame method scopes [.cell record, callbackValue] =
      ⟨scopes, (["self", "f", "destruct", "instance"] : List Text),
        ⟨[("self", .cell record), ("f", callbackValue)]⟩⟩ := by
    rw [methodFrame, parameters, body, boundInCommands_reconstructBody]
    rfl
  let made := session.withCells (session.cells ++
    [.object companion (companionAttributes model.fields values)])
  let start : Frame := ⟨scopes, (["self", "f", "destruct", "instance"] : List Text),
    ⟨[("self", .cell record), ("f", callbackValue)]⟩⟩
  have into : (evaluate (invoke callback (depth + 2)) start
      (.call (localAttribute "self" "into_destruct") [])).run session =
        (.ok (.cell session.cells.length), made) :=
    (run_evaluate_method rfl).trans
      (run_into reconstructs.toConverts distinct plain free cell convertible own)
  have called : (evaluate (invoke callback (depth + 2))
      { start with locals := start.locals.put "destruct" (.cell session.cells.length) }
      (.call (.name "f") [.name "destruct"])).run made =
        (callback (.cell session.cells.length)).run made :=
    run_evaluate_callback rfl rfl
  rw [run_callOn cell inherited unshadowed runs single together, frame, body, reconstructBody,
    run_map, runAll_assign _ _ into]
  cases returned : (callback (.cell session.cells.length)).run made with
  | mk result after =>
    rw [returned] at called
    cases result with
    | error fault => rw [runAll_evaluate_fault _ called]
    | ok value =>
      rw [runAll_evaluate _ called]
      exact (run_map after Completion.answer _).symm

end Body

/-! ## Pure updates -/

/-- What a callback leaves alone that only works on one object: the code, and all other objects. -/
structure Session.KeepsBut (before after : Session) (address : Nat) : Prop where
  code : before.SameCode after
  others : ∀ other < before.cells.length, other ≠ address →
    after.cells[other]? = before.cells[other]?

theorem pairSession_reconstructs :
    pairSession.Reconstructs pairModel .default 0 1 [moduleScope] where
  toConverts := pairSession_converts
  copyModule := rfl
  reconstruct := ⟨2, rfl, _, rfl, _, none, rfl⟩
  copies := by
    have direct : pairSession.attribute? 0 transferName = none := rfl
    exact copiesShallowly pairSession_converts.allocates (by simp [direct])
      (.inl (Session.unguarded_alone rfl rfl rfl))

/-- A callback that changes the exposed field. -/
def editExposed (companion : Value) : Action Value := do
  writeAttribute callAlone companion "x" (.whole 5)
  return .absent

end Live
end OpenRecord
