import OpenRecord.Text.Basic

namespace OpenRecord

/-!
# Capabilities

A record class requests a capability by a decorator.  Three are known: the companion type with the
conversions to and from it, the two ways of changing a record through its companion, and the
read-only view.
-/

/-- What a record class can request. -/
inductive Capability
  | destructure
  | mutation
  | destructureRef
deriving DecidableEq

namespace Capability

/-- The name of the decorator that requests the capability. -/
def label : Capability → Text
  | .destructure => "destructure"
  | .mutation => "mutation"
  | .destructureRef => "destructure_ref"

/-- The capabilities in the order in which their code is emitted. -/
def all : List Capability :=
  [.destructure, .mutation, .destructureRef]

/-- The capability that a decorator of a given name requests. -/
def ofLabel? (label : Text) : Option Capability :=
  all.find? (·.label == label)

end Capability

structure Capabilities where
  destructure : Bool
  mutation : Bool
  destructureRef : Bool
deriving DecidableEq

namespace Capabilities

def empty : Capabilities :=
  ⟨false, false, false⟩

def contains (set : Capabilities) : Capability → Bool
  | .destructure => set.destructure
  | .mutation => set.mutation
  | .destructureRef => set.destructureRef

def insert (set : Capabilities) : Capability → Capabilities
  | .destructure => { set with destructure := true }
  | .mutation => { set with mutation := true }
  | .destructureRef => { set with destructureRef := true }

def union (left right : Capabilities) : Capabilities :=
  ⟨left.destructure || right.destructure, left.mutation || right.mutation,
    left.destructureRef || right.destructureRef⟩

def ofList (members : List Capability) : Capabilities :=
  members.foldl insert empty

/-- The members in the order of their labels. -/
def sorted (set : Capabilities) : List Capability :=
  [.destructure, .destructureRef, .mutation].filter set.contains

theorem contains_insert (set : Capabilities) (new other : Capability) :
    (set.insert new).contains other = (decide (other = new) || set.contains other) := by
  cases new <;> cases other <;> simp [insert, contains]

theorem contains_union (left right : Capabilities) (capability : Capability) :
    (left.union right).contains capability =
      (left.contains capability || right.contains capability) := by
  cases capability <;> rfl

/-- The listed members are the members. -/
theorem mem_sorted {set : Capabilities} {capability : Capability} :
    capability ∈ set.sorted ↔ set.contains capability = true := by
  cases capability <;> simp [sorted]

end Capabilities
end OpenRecord
