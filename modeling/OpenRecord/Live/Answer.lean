import OpenRecord.Live.Value
import OpenRecord.Record.Basic

namespace OpenRecord
namespace Live

/-!
# Answers of a session

What a step answers is a value of its own, without references into the session, so that it stays as
it is while the session goes on.
-/

/-- A value as it is shown: data as they are, and of anything else the name of its type. -/
inductive Shown
  | absent
  | boolean (value : Bool)
  | whole (value : Int)
  | decimal (value : Decimal)
  | text (chars : Text)
  | list (items : List Shown)
  | mapping (members : List (Text × Shown))
  | other (type : Text)

/-- An object in full: its attributes, or, of a view, what each of its properties yields. -/
inductive Dump
  | attributes (type : Text) (attributes : List (Text × Shown))
  | view (type : Text) (properties : List (Text × Except Fault Shown))

/-- A generated type: the class it belongs to and its fields, if it is a companion. -/
structure TypeSummary where
  name : Text
  owner : Option Text
  fields : List Text

/-- What a step answers. -/
inductive Answer
  | shown (value : Shown)
  | flag (value : Bool)
  | words (text : Text)
  | dump (dump : Dump)
  /-- A new record, and whether it is the old one. -/
  | reconstructed (dump : Dump) (same : Bool)
  /-- A record that was changed in place, and what the operation returned. -/
  | substituted (dump : Dump) (returned : Shown)
  /-- A class that a capability was applied to, and the names of its generated types. -/
  | applied (same : Bool) (types : List Text)
  /-- A capability that waits for a class. -/
  | waiting
  | types (summaries : List TypeSummary)
  | model (model : RecordModel)
  | source (code : Text) (location : Location)
  /-- Methods with their qualified names. -/
  | methods (names : List (Text × Text))
  | names (names : List Text)

mutual

/-- The end of a step, with what its callbacks noted meanwhile. -/
inductive Reply
  | reply (result : Except Fault Answer) (notes : List Note)

/-- What a callback notes: a value, or the end of a step that it took. -/
inductive Note
  | value (shown : Shown)
  | step (reply : Reply)

end

end Live
end OpenRecord
