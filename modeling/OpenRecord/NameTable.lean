import OpenRecord.Text.Basic

namespace OpenRecord

/-!
# Tables of names

A table gives values to names and keeps the names in the order in which they came in.  Giving a
value to a name that is there already replaces the old value at its place.
-/

/-- Values of names, in the order in which the names came in. -/
structure NameTable (α : Type) where
  entries : List (Text × α)

/-- The value of the first entry of a name. -/
def lookupName {α : Type} (name : Text) : List (Text × α) → Option α
  | [] => none
  | (key, value) :: later => if key = name then some value else lookupName name later

/-- Entries with a value for a name, at the place of an old one or at the end. -/
def putName {α : Type} (name : Text) (value : α) : List (Text × α) → List (Text × α)
  | [] => [(name, value)]
  | (key, old) :: later =>
    if key = name then (name, value) :: later else (key, old) :: putName name value later

namespace NameTable

def empty {α : Type} : NameTable α :=
  ⟨[]⟩

def get? {α : Type} (table : NameTable α) (name : Text) : Option α :=
  lookupName name table.entries

def put {α : Type} (table : NameTable α) (name : Text) (value : α) : NameTable α :=
  ⟨putName name value table.entries⟩

/-- The table with values for several names, one after the other. -/
def putAll {α : Type} (table : NameTable α) (entries : List (Text × α)) : NameTable α :=
  entries.foldl (fun table (name, value) => table.put name value) table

def ofList {α : Type} (entries : List (Text × α)) : NameTable α :=
  empty.putAll entries

def without {α : Type} (table : NameTable α) (names : List Text) : NameTable α :=
  ⟨table.entries.filter fun entry => !names.contains entry.1⟩

def names {α : Type} (table : NameTable α) : List Text :=
  table.entries.map (·.1)

def contains {α : Type} (table : NameTable α) (name : Text) : Bool :=
  (table.get? name).isSome

@[simp] theorem get?_empty {α : Type} (name : Text) : (empty : NameTable α).get? name = none :=
  rfl

@[simp] theorem get?_put_same {α : Type} (table : NameTable α) (name : Text) (value : α) :
    (table.put name value).get? name = some value := by
  cases table with | mk entries
  simp only [get?, put]
  induction entries with
  | nil => simp [putName, lookupName]
  | cons entry later ih =>
    obtain ⟨key, old⟩ := entry
    by_cases h : key = name <;> simp [putName, lookupName, h, ih]

theorem get?_put_other {α : Type} (table : NameTable α) {name other : Text} (value : α)
    (h : other ≠ name) : (table.put name value).get? other = table.get? other := by
  cases table with | mk entries
  simp only [get?, put]
  induction entries with
  | nil => simp [putName, lookupName, h.symm]
  | cons entry later ih =>
    obtain ⟨key, old⟩ := entry
    by_cases hk : key = name
    · subst hk
      simp [putName, lookupName, h.symm]
    · by_cases ho : key = other
      · subst ho
        simp [putName, lookupName, hk]
      · simp [putName, lookupName, hk, ho, ih]

end NameTable
end OpenRecord
