import Mathlib.Data.List.Nodup
import OpenRecord.NameTable

namespace OpenRecord

/-!
# Entries of tables

A name that stands in the entries of a table at most once has the value beside it.  Writing a new
name puts it at the end, and writing any name keeps the names that were there, in their order.
-/

section Entries

variable {α : Type} {name other : Text} {value : α} {entries : List (Text × α)}

theorem lookupName_eq_none_iff : lookupName name entries = none ↔ name ∉ entries.map (·.1) := by
  induction entries with
  | nil => simp [lookupName]
  | cons entry later ih =>
    by_cases same : entry.1 = name
    · simp [lookupName, same]
    · simp [lookupName, same, ih, Ne.symm same]

theorem isSome_lookupName_iff : (lookupName name entries).isSome = true ↔
    name ∈ entries.map (·.1) := by
  rw [← not_iff_not, Bool.not_eq_true, Option.isSome_eq_false_iff, Option.isNone_iff_eq_none]
  exact lookupName_eq_none_iff

theorem lookupName_append (front back : List (Text × α)) :
    lookupName name (front ++ back) = (lookupName name front).or (lookupName name back) := by
  induction front with
  | nil => rfl
  | cons entry later ih =>
    by_cases same : entry.1 = name
    · simp [lookupName, same]
    · simpa [lookupName, same] using ih

theorem lookupName_filter (keep : Text → Bool) :
    lookupName name (entries.filter fun entry => keep entry.1) =
      if keep name then lookupName name entries else none := by
  induction entries with
  | nil => simp [lookupName]
  | cons entry later ih =>
    by_cases same : entry.1 = name
    · cases kept : keep name with
      | true => simp [lookupName, same, kept]
      | false => simp [same, kept, ih]
    · cases kept : keep entry.1 with
      | true => simp [lookupName, same, kept, ih]
      | false => simp [lookupName, same, kept, ih]

/-- The value of a name that stands only once is the one beside it. -/
theorem lookupName_of_mem (distinct : (entries.map (·.1)).Nodup)
    (member : (name, value) ∈ entries) : lookupName name entries = some value := by
  induction entries with
  | nil => cases member
  | cons entry later ih =>
    rw [List.map_cons, List.nodup_cons] at distinct
    rcases List.mem_cons.1 member with rfl | member
    · simp [lookupName]
    · have different : entry.1 ≠ name := by
        rintro rfl
        exact distinct.1 (List.mem_map.2 ⟨_, member, rfl⟩)
      rw [lookupName, if_neg different]
      exact ih distinct.2 member

theorem lookupName_map {names : List Text} (values : Text → α) (member : name ∈ names) :
    lookupName name (names.map fun name => (name, values name)) = some (values name) := by
  induction names with
  | nil => cases member
  | cons first later ih =>
    by_cases same : first = name
    · simp [lookupName, same]
    · rw [List.map_cons, lookupName, if_neg same]
      exact ih ((List.mem_cons.1 member).resolve_left (Ne.symm same))

/-- Looking up the names of some entries one after the other gives the entries back. -/
theorem filterMap_lookupName {β : Type} {items : List β} {key : β → Text} {part : List (Text × α)}
    (fallback : β → Option α) (distinct : (entries.map (·.1)).Nodup)
    (among : ∀ entry ∈ part, entry ∈ entries) (keys : items.map key = part.map (·.1)) :
    items.filterMap (fun item =>
      ((lookupName (key item) entries).or (fallback item)).map (key item, ·)) = part := by
  induction items generalizing part with
  | nil => rw [List.map_nil, List.nil_eq, List.map_eq_nil_iff] at keys; rw [keys]; rfl
  | cons item later ih =>
    cases part with
    | nil => cases keys
    | cons entry rest =>
      rw [List.map_cons, List.map_cons, List.cons.injEq] at keys
      rw [List.forall_mem_cons] at among
      have found : lookupName (key item) entries = some entry.2 :=
        lookupName_of_mem distinct (keys.1 ▸ among.1)
      rw [List.filterMap_cons, found, ih among.2 keys.2, keys.1]
      rfl

theorem putName_of_notMem (fresh : name ∉ entries.map (·.1)) :
    putName name value entries = entries ++ [(name, value)] := by
  induction entries with
  | nil => rfl
  | cons entry later ih =>
    rw [List.map_cons, List.mem_cons, not_or] at fresh
    rw [putName, if_neg (Ne.symm fresh.1), ih fresh.2, List.cons_append]

theorem putName_concat {old : α} (fresh : name ∉ entries.map (·.1)) :
    putName name value (entries ++ [(name, old)]) = entries ++ [(name, value)] := by
  induction entries with
  | nil => simp [putName]
  | cons entry later ih =>
    rw [List.map_cons, List.mem_cons, not_or] at fresh
    rw [List.cons_append, putName, if_neg (Ne.symm fresh.1), ih fresh.2, List.cons_append]

theorem map_fst_putName : (putName name value entries).map (·.1) =
    if name ∈ entries.map (·.1) then entries.map (·.1) else entries.map (·.1) ++ [name] := by
  induction entries with
  | nil => rfl
  | cons entry later ih =>
    by_cases same : entry.1 = name
    · simp [putName, same]
    · rw [putName, if_neg same, List.map_cons, ih]
      by_cases member : name ∈ later.map (·.1) <;> simp_all [Ne.symm same]

theorem mem_map_fst_putName : other ∈ (putName name value entries).map (·.1) ↔
    other = name ∨ other ∈ entries.map (·.1) := by
  rw [map_fst_putName]
  split
  case isTrue member =>
    refine ⟨.inr, fun either => ?_⟩
    rcases either with rfl | known
    · exact member
    · exact known
  case isFalse => rw [List.mem_append, List.mem_singleton, or_comm]

theorem mem_putName {entry : Text × α} (member : entry ∈ entries) (different : entry.1 ≠ name) :
    entry ∈ putName name value entries := by
  induction entries with
  | nil => cases member
  | cons first later ih =>
    rw [putName]
    split
    case isTrue same =>
      rcases List.mem_cons.1 member with rfl | later
      · exact absurd same different
      · exact List.mem_cons_of_mem _ later
    case isFalse =>
      rcases List.mem_cons.1 member with rfl | later
      · exact List.mem_cons_self
      · exact List.mem_cons_of_mem _ (ih later)

theorem lookupName_putName_same : lookupName name (putName name value entries) = some value :=
  NameTable.get?_put_same ⟨entries⟩ name value

theorem lookupName_putName_other (different : other ≠ name) :
    lookupName other (putName name value entries) = lookupName other entries :=
  NameTable.get?_put_other ⟨entries⟩ value different

end Entries

namespace NameTable

variable {α : Type}

/-- New names come in at the end, in order. -/
theorem putAll_of_disjoint (table : NameTable α) {added : List (Text × α)}
    (distinct : (added.map (·.1)).Nodup)
    (fresh : ∀ name ∈ added.map (·.1), name ∉ table.entries.map (·.1)) :
    table.putAll added = ⟨table.entries ++ added⟩ := by
  induction added generalizing table with
  | nil => simp [putAll]
  | cons entry later ih =>
    rw [List.map_cons, List.nodup_cons] at distinct
    rw [List.map_cons, List.forall_mem_cons] at fresh
    have put : table.put entry.1 entry.2 = ⟨table.entries ++ [entry]⟩ := by
      rw [NameTable.put, putName_of_notMem fresh.1]
    change (table.put entry.1 entry.2).putAll later = _
    rw [put, ih _ distinct.2]
    · simp
    · intro name member known
      rw [List.map_append, List.mem_append] at known
      rcases known with known | known
      · exact fresh.2 name member known
      · rw [List.map_singleton, List.mem_singleton] at known
        exact distinct.1 (known ▸ member)

theorem ofList_of_nodup {entries : List (Text × α)} (distinct : (entries.map (·.1)).Nodup) :
    ofList entries = ⟨entries⟩ := by
  rw [ofList, putAll_of_disjoint _ distinct fun _ _ => List.not_mem_nil]
  rfl

end NameTable
end OpenRecord
