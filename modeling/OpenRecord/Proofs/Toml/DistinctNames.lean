import Mathlib.Data.List.Nodup
import OpenRecord.Toml.Document

namespace OpenRecord
namespace Toml

/-!
# Names in the tables of a configuration file

A table is a list of members.  That no two of them have one name, in the table of a file and in every
table within it, is kept by everything that a statement of the file does.  So it makes no difference
whether the first or the last member of a name is taken.
-/

/-- No table within a value has two members of one name. -/
inductive Value.Distinct : Value → Prop
  | plain {value : Value} : value.closed = false → Value.Distinct value
  | array {items : List Value} :
    (∀ item ∈ items, Value.Distinct item) → Value.Distinct (.array items)
  | table {members : List (Text × Value)} :
    (members.map (·.1)).Nodup → (∀ member ∈ members, Value.Distinct member.2) →
      Value.Distinct (.table members)

/-- No two members of a table have one name, and neither have those of a table within it. -/
structure Table.Distinct (table : Table) : Prop where
  names : (table.map (·.1)).Nodup
  values : ∀ member ∈ table, member.2.Distinct

namespace Value.Distinct

theorem items {items : List Value} (distinct : (Value.array items).Distinct) :
    ∀ item ∈ items, item.Distinct := by
  cases distinct with
  | plain plain => cases plain
  | array items => exact items

theorem members {members : Table} (distinct : (Value.table members).Distinct) :
    members.Distinct := by
  cases distinct with
  | plain plain => cases plain
  | table names values => exact ⟨names, values⟩

end Value.Distinct

namespace Table

variable {table : Table} {name : Text} {value : Value}

theorem Distinct.asValue (distinct : table.Distinct) : (Value.table table).Distinct :=
  .table distinct.names distinct.values

theorem distinct_nil : Table.Distinct [] :=
  ⟨List.nodup_nil, fun _ member => absurd member List.not_mem_nil⟩

theorem mem_of_get? (found : get? table name = some value) : (name, value) ∈ table := by
  rcases Option.map_eq_some_iff.1 found with ⟨member, first, rfl⟩
  have same : member.1 = name := by simpa using List.find?_some first
  rw [← same]
  exact List.mem_of_find?_eq_some first

theorem get?_eq_none_iff : get? table name = none ↔ name ∉ table.map (·.1) := by
  unfold get?
  rw [Option.map_eq_none_iff, List.find?_eq_none, List.mem_map, not_exists]
  simp

theorem Distinct.get? (distinct : table.Distinct) (found : get? table name = some value) :
    value.Distinct :=
  distinct.values _ (mem_of_get? found)

theorem Distinct.append (distinct : table.Distinct) (absent : Table.get? table name = none)
    (fits : value.Distinct) : Table.Distinct (table ++ [(name, value)]) where
  names := by
    rw [List.map_append, List.nodup_append]
    refine ⟨distinct.names, List.nodup_singleton _, ?_⟩
    rintro known among _ new rfl
    rw [List.mem_singleton.1 new] at among
    exact get?_eq_none_iff.1 absent among
  values := by
    intro member among
    rcases List.mem_append.1 among with among | new
    · exact distinct.values member among
    · rw [List.mem_singleton.1 new]
      exact fits

theorem Distinct.put (distinct : table.Distinct) (name : Text) (fits : value.Distinct) :
    Table.Distinct (table.put name value) := by
  unfold Table.put
  split
  case isTrue =>
    have names : (table.map fun member => if member.1 = name then (name, value) else member).map
        (·.1) = table.map (·.1) := by
      rw [List.map_map]
      apply List.map_congr_left
      intro member _
      change (if member.1 = name then (name, value) else member).1 = member.1
      split
      case isTrue same => exact same.symm
      case isFalse => rfl
    refine ⟨names ▸ distinct.names, fun member among => ?_⟩
    rcases List.mem_map.1 among with ⟨known, old, rfl⟩
    split
    case isTrue => exact fits
    case isFalse => exact distinct.values known old
  case isFalse missing =>
    refine distinct.append (get?_eq_none_iff.2 fun among => missing ?_) fits
    rcases List.mem_map.1 among with ⟨member, among, same⟩
    exact List.any_eq_true.2 ⟨member, among, beq_iff_eq.2 same⟩

/-! ## Changes behind a path -/

/-- A change leaves the names in tables distinct. -/
def KeepsDistinct (change : Table → Option Table) : Prop :=
  ∀ table result, change table = some result → table.Distinct → result.Distinct

theorem keepsDistinct_insertNew (name : Text) (fits : value.Distinct) :
    KeepsDistinct (insertNew name value) := by
  intro table result done distinct
  unfold insertNew at done
  split at done
  case h_1 absent =>
    cases done
    exact distinct.append absent fits
  case h_2 => cases done

theorem keepsDistinct_appendTable (name : Text) : KeepsDistinct (appendTable name) := by
  have empty : Value.Distinct (.table []) := distinct_nil.asValue
  intro table result done distinct
  unfold appendTable at done
  split at done
  case h_1 absent =>
    cases done
    refine distinct.append absent (.array ?_)
    intro item only
    rw [List.mem_singleton.1 only]
    exact empty
  case h_2 items found =>
    cases done
    refine distinct.put name (.array ?_)
    intro item among
    rcases List.mem_append.1 among with among | new
    · exact (distinct.get? found).items item among
    · rw [List.mem_singleton.1 new]
      exact empty
  case h_3 => cases done

theorem keepsDistinct_modify {change : Table → Option Table} (throughArrays : Bool)
    (keeps : KeepsDistinct change) (path : List Text) :
    KeepsDistinct (modify throughArrays change path) := by
  induction path with
  | nil => exact keeps
  | cons name path ih =>
    intro table result done distinct
    unfold modify at done
    split at done
    case h_1 =>
      split at done
      case h_1 => cases done
      case h_2 inner changed =>
        cases done
        exact distinct.put name (ih _ _ changed distinct_nil).asValue
    case h_2 members found =>
      split at done
      case h_1 => cases done
      case h_2 inner changed =>
        cases done
        exact distinct.put name (ih _ _ changed (distinct.get? found).members).asValue
    case h_3 items found =>
      have known := (distinct.get? found).items
      split at done
      case h_1 members earlier last =>
        have parts : items = earlier.reverse ++ [.table members] := by
          rw [← List.reverse_reverse items, last, List.reverse_cons]
        rw [parts] at known
        split at done
        case h_1 => cases done
        case h_2 inner changed =>
          cases done
          refine distinct.put name (.array ?_)
          intro item among
          rcases List.mem_append.1 among with among | new
          · exact known item (List.mem_append_left _ among)
          · rw [List.mem_singleton.1 new]
            have before := known _ (List.mem_append_right _ (List.mem_singleton_self _))
            exact (ih _ _ changed before.members).asValue
      case h_2 => cases done
    case h_4 => cases done

end Table

/-! ## Values as they are read -/

theorem closed_basedNumber {t : Text} {value : Value} {rest : Text}
    (read : basedNumber t = some (value, rest)) : value.closed = false := by
  unfold basedNumber at read
  split at read
  case h_1 mark written =>
    have whole : ∀ base isDigit, (digits isDigit written).map (fun parts =>
        (Value.integer (numeral base parts.1), parts.2)) = some (value, rest) →
          value.closed = false := by
      intro base isDigit read
      rcases Option.map_eq_some_iff.1 read with ⟨_, _, same⟩
      cases same
      rfl
    dsimp only at read
    split at read
    case isTrue => exact whole 16 _ read
    case isFalse =>
      split at read
      case isTrue => exact whole 8 _ read
      case isFalse =>
        split at read
        case isTrue => exact whole 2 _ read
        case isFalse => cases read
  case h_2 => cases read

/-- A value that is written without parts has none. -/
theorem closed_scalar {t : Text} {value : Value} {rest : Text}
    (read : scalar t = some (value, rest)) : value.closed = false := by
  unfold scalar at read
  split at read
  case h_1 =>
    cases read
    rfl
  case h_2 =>
    simp only [Option.or_eq_some_iff] at read
    rcases read with truth | ⟨-, date | ⟨-, based | ⟨-, number | ⟨-, extreme⟩⟩⟩⟩
    · unfold truthValue at truth
      split at truth <;> cases truth <;> rfl
    · unfold moment at date
      grind [Value.closed, Option.map_eq_some_iff]
    · exact closed_basedNumber based
    · unfold decimalNumber at number
      grind [Value.closed, Option.map_eq_some_iff]
    · unfold extremeNumber at extreme
      split at extreme <;> cases extreme <;> rfl

/-- What is read with some fuel has distinct names: a value, the items of an array, and the members
of a table on one line behind those before. -/
theorem distinct_of_fuel (fuel : Nat) :
    (∀ t value rest, valueWithFuel fuel t = some (value, rest) → value.Distinct) ∧
      (∀ t items rest, itemsWithFuel fuel t = some (items, rest) →
        ∀ item ∈ items, item.Distinct) ∧
      ∀ frozen before t members rest, membersWithFuel fuel frozen before t = some (members, rest) →
        Table.Distinct before → Table.Distinct members := by
  induction fuel with
  | zero =>
    refine ⟨fun t _ _ read => ?_, fun t _ _ read => ?_, fun _ _ t _ _ read => ?_⟩
    · simp [valueWithFuel] at read
    · simp [itemsWithFuel] at read
    · simp [membersWithFuel] at read
  | succ fuel ih =>
    rcases ih with ⟨ofValue, ofItems, ofMembers⟩
    refine ⟨?_, ?_, ?_⟩
    · intro t value rest read
      rcases t with _ | ⟨c, later⟩
      · simp [valueWithFuel] at read
      unfold valueWithFuel at read
      split at read
      case isTrue =>
        split at read
        case h_1 =>
          cases read
          exact .array fun item member => absurd member List.not_mem_nil
        case h_2 =>
          split at read
          case h_1 => cases read
          case h_2 items rest listed =>
            cases read
            exact .array (ofItems _ _ _ listed)
        case h_3 => cases read
      case isFalse =>
        split at read
        case isTrue =>
          split at read
          case h_1 =>
            cases read
            exact Table.distinct_nil.asValue
          case h_2 =>
            split at read
            case h_1 => cases read
            case h_2 members rest listed =>
              cases read
              exact (ofMembers _ _ _ _ _ listed Table.distinct_nil).asValue
        case isFalse => exact .plain (closed_scalar read)
    · intro t items rest read
      unfold itemsWithFuel at read
      split at read
      case h_1 => cases read
      case h_2 first behind head =>
        have fits := ofValue _ _ _ head
        split at read
        case h_1 =>
          cases read
          simpa using fits
        case h_2 =>
          split at read
          case h_1 =>
            cases read
            simpa using fits
          case h_2 =>
            split at read
            case h_1 => cases read
            case h_2 later rest listed =>
              cases read
              exact List.forall_mem_cons.2 ⟨fits, ofItems _ _ _ listed⟩
          case h_3 => cases read
        case h_3 => cases read
    · intro frozen before t members rest read distinct
      unfold membersWithFuel at read
      split at read
      case h_1 => cases read
      case h_2 path behind named =>
        split at read
        case h_1 => cases read
        case h_2 value behind given =>
          split at read
          case isTrue => cases read
          case isFalse =>
            split at read
            case h_1 => cases read
            case h_2 members added =>
              have grown := Table.keepsDistinct_modify false
                (Table.keepsDistinct_insertNew _ (ofValue _ _ _ given)) _ _ _ added distinct
              split at read
              case h_1 =>
                cases read
                exact grown
              case h_2 => exact ofMembers _ _ _ _ _ read grown
              case h_3 => cases read
      case h_3 => cases read

/-! ## Files as they are read -/

namespace Draft

variable {draft result : Draft} {path : List Text}

theorem distinct_openTable (opened : draft.openTable path = some result)
    (distinct : draft.table.Distinct) : result.table.Distinct := by
  unfold openTable at opened
  split at opened
  case isTrue => cases opened
  case isFalse =>
    split at opened
    case h_1 => cases opened
    case h_2 table changed =>
      cases opened
      have keeps : Table.KeepsDistinct some := fun table result same distinct => by
        cases same
        exact distinct
      exact Table.keepsDistinct_modify true keeps path _ _ changed distinct

theorem distinct_openItem (opened : draft.openItem path = some result)
    (distinct : draft.table.Distinct) : result.table.Distinct := by
  unfold openItem at opened
  split at opened
  case isTrue => cases opened
  case isFalse =>
    split at opened
    case h_1 => cases opened
    case h_2 table changed =>
      cases opened
      exact Table.keepsDistinct_modify true (Table.keepsDistinct_appendTable _) _ _ _ changed
        distinct

theorem distinct_addMember {value : Value} (added : draft.addMember path value = some result)
    (fits : value.Distinct) (distinct : draft.table.Distinct) : result.table.Distinct := by
  unfold addMember at added
  dsimp only at added
  split at added
  case isTrue => cases added
  case isFalse =>
    split at added
    case h_1 => cases added
    case h_2 table changed =>
      cases added
      exact Table.keepsDistinct_modify true (Table.keepsDistinct_insertNew _ fits) _ _ _ changed
        distinct

end Draft

theorem distinct_statement {draft result : Draft} {t rest : Text}
    (read : statement draft t = some (result, rest)) (distinct : draft.table.Distinct) :
    result.table.Distinct := by
  unfold statement at read
  split at read
  case h_1 =>
    cases read
    exact distinct
  case h_2 =>
    split at read
    case h_1 path _ _ =>
      rcases Option.map_eq_some_iff.1 read with ⟨opened, done, same⟩
      cases same
      exact Draft.distinct_openItem done distinct
    case h_2 => cases read
  case h_3 =>
    split at read
    case h_1 =>
      rcases Option.map_eq_some_iff.1 read with ⟨opened, done, same⟩
      cases same
      exact Draft.distinct_openTable done distinct
    case h_2 => cases read
  case h_4 =>
    split at read
    case isTrue =>
      cases read
      exact distinct
    case isFalse =>
      split at read
      case h_1 =>
        split at read
        case h_1 => cases read
        case h_2 value behind given =>
          rcases Option.map_eq_some_iff.1 read with ⟨grown, done, same⟩
          cases same
          exact Draft.distinct_addMember done ((distinct_of_fuel _).1 _ _ _ given) distinct
      case h_2 => cases read

/-- The statements of a file keep the names in tables distinct. -/
theorem distinct_statements {fuel : Nat} {draft result : Draft} {t : Text}
    (read : statements fuel draft t = some result) (distinct : draft.table.Distinct) :
    result.table.Distinct := by
  induction fuel generalizing draft t with
  | zero => cases read
  | succ fuel ih =>
    unfold statements at read
    split at read
    case h_1 => cases read
    case h_2 next rest first =>
      have kept := distinct_statement first distinct
      split at read
      case h_1 =>
        cases read
        exact kept
      case h_2 => exact ih read kept
      case h_3 => cases read

/-- In a file that is well formed no table has two members of one name. -/
theorem distinct_of_parse? {t : Text} {document : Table} (parsed : parse? t = some document) :
    document.Distinct := by
  rcases Option.map_eq_some_iff.1 parsed with ⟨draft, read, rfl⟩
  exact distinct_statements read Table.distinct_nil

end Toml
end OpenRecord
