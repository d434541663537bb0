import OpenRecord.Configuration
import OpenRecord.Proofs.Configuration.CheckedSettings
import OpenRecord.Proofs.Files.Places
import OpenRecord.Proofs.Toml.DistinctNames

namespace OpenRecord

/-!
# Precedence of settings

The value of a setting is the one that is given, else the one in the nearest configuration file, else
the default.  The main statement says that settings are what checking these four values gives, faults
included.  So nothing else has an effect: no file further up, no other member of the table of
settings, and no value in the file for which another one is given, be it valid or not.

Files count that can be read and are tables of the expected shape.  What becomes of others is not said
here.
-/

open Files

/-! ## The nearest file -/

namespace Files.Tree

variable {tree : Tree} {path : Path} {name : Text} {place : List Text} {content : List UInt8}

/-- A directory holds a file of some name, be it one that can be read or not. -/
def HoldsFile (tree : Tree) (name : Text) (place : List Text) : Prop :=
  tree.hasFileAt (place ++ [name]) = true

/-- The nearest file of some name: it stands in the directory that a path leads to or in one above
it, and none stands below it on the way. -/
structure IsNearest (tree : Tree) (path : Path) (name : Text) (place : List Text)
    (content : List UInt8) : Prop where
  above : place <+: tree.placeOf path
  found : tree.entryAt (place ++ [name]) = some (.file content)
  nearest : ∀ other, other <+: tree.placeOf path → place.length < other.length →
    ¬ tree.HoldsFile name other

/-- A search upward looks in the directory that a path leads to and in those above it. -/
theorem mem_upward : place ∈ tree.upward path ↔ place <+: tree.placeOf path := by
  unfold upward
  rw [List.mem_map]
  constructor
  · rintro ⟨count, _, rfl⟩
    exact List.take_prefix _ _
  · rintro ⟨rest, whole⟩
    refine ⟨rest.length, ?_, ?_⟩
    · have length := congrArg List.length whole
      rw [List.length_append] at length
      rw [List.mem_range]
      change rest.length < (tree.placeOf path).length + 1
      omega
    · change (tree.placeOf path).take ((tree.placeOf path).length - rest.length) = place
      rw [← whole, List.length_append, Nat.add_sub_cancel, List.take_left]

/-- A search upward looks in the deeper directories first. -/
theorem pairwise_upward : (tree.upward path).Pairwise fun first later =>
    later.length < first.length := by
  unfold upward
  rw [List.pairwise_map]
  refine List.Pairwise.imp_of_mem ?_ List.pairwise_lt_range
  intro first later _ member order
  rw [List.mem_range] at member
  simp only [List.length_take]
  omega

/-- Nothing is found if no directory on the way up holds a file of the name. -/
theorem nearest_eq_none
    (missing : ∀ place, place <+: tree.placeOf path → ¬ tree.HoldsFile name place) :
    tree.nearest path name = none := by
  unfold nearest
  rw [List.find?_eq_none]
  exact fun place member => missing place (mem_upward.1 member)

theorem nearest_eq_some (isNearest : tree.IsNearest path name place content) :
    tree.nearest path name = some place := by
  rcases List.append_of_mem (mem_upward.2 isNearest.above) with ⟨deeper, higher, parts⟩
  have order : (tree.upward path).Pairwise fun first later => later.length < first.length :=
    pairwise_upward
  rw [parts, List.pairwise_append] at order
  unfold nearest
  rw [List.find?_eq_some_iff_append]
  refine ⟨by simp [hasFileAt, isNearest.found], deeper, higher, parts, fun other member => ?_⟩
  have above : other <+: tree.placeOf path := mem_upward.1 (parts ▸ List.mem_append_left _ member)
  simpa [HoldsFile] using
    isNearest.nearest other above (order.2.2 other member place List.mem_cons_self)

end Files.Tree

/-! ## Values by name -/

theorem SettingName.ofLabel?_eq_some_iff {label : Text} {name : SettingName} :
    ofLabel? label = some name ↔ label = name.label := by
  constructor
  · intro found
    have same := List.find?_some found
    exact (beq_iff_eq.1 same).symm
  · rintro rfl
    cases name <;> decide

namespace SettingValues

theorem get_set (values : SettingValues) (value : SettingValue) (name other : SettingName) :
    (values.set value name).get other = if other = name then some value else values.get other := by
  cases name <;> cases other <;> rfl

/-- Labelled values that are set one after another, unless their label is unknown: the values that were
there before count for the labels that do not come. -/
theorem get_foldl {step : SettingValues → Text × SettingValue → SettingValues}
    (sets : ∀ values label value name, SettingName.ofLabel? label = some name →
      step values (label, value) = values.set value name)
    (keeps : ∀ values label value, SettingName.ofLabel? label = none →
      step values (label, value) = values)
    {labelled : List (Text × SettingValue)} (distinct : (labelled.map (·.1)).Nodup)
    (name : SettingName) (values : SettingValues) :
    (labelled.foldl step values).get name =
      ((labelled.find? (·.1 == name.label)).map (·.2)).or (values.get name) := by
  induction labelled generalizing values with
  | nil => rfl
  | cons first later ih =>
    rcases first with ⟨label, value⟩
    rw [List.map_cons, List.nodup_cons] at distinct
    rw [List.foldl_cons, ih distinct.2, List.find?_cons]
    by_cases here : label = name.label
    · have known : SettingName.ofLabel? label = some name :=
        SettingName.ofLabel?_eq_some_iff.2 here
      have others : later.find? (·.1 == name.label) = none := by
        rw [List.find?_eq_none]
        intro member among same
        rw [beq_iff_eq, ← here] at same
        exact distinct.1 (List.mem_map.2 ⟨member, among, same⟩)
      rw [others, beq_iff_eq.2 here, sets values label value name known, get_set, if_pos rfl]
      rfl
    · have missed : (label == name.label) = false := beq_eq_false_iff_ne.2 here
      rw [missed]
      congr 1
      cases known : SettingName.ofLabel? label with
      | none => rw [keeps values label value known]
      | some other =>
        rw [sets values label value other known, get_set, if_neg]
        rintro rfl
        exact here (SettingName.ofLabel?_eq_some_iff.1 known)

theorem get_ofList {labelled : List (Text × SettingValue)}
    (distinct : (labelled.map (·.1)).Nodup) (name : SettingName) :
    (ofList labelled).get name = (labelled.find? (·.1 == name.label)).map (·.2) := by
  have nothing : SettingValues.empty.get name = none := by cases name <;> rfl
  unfold ofList
  rw [get_foldl ?_ ?_ distinct name .empty, nothing, Option.or_none]
  · intro values label value other known
    simp only [known]
  · intro values label value missed
    simp only [missed]

end SettingValues

/-- The value that counts for a setting: the one given, else the one written in a file, else the
default. -/
def chosen (given : SettingValues) (written : SettingName → Option SettingValue)
    (name : SettingName) : SettingValue :=
  ((given.get name).or (written name)).getD (Settings.default.value name)

/-! ## Settings for a directory -/

namespace Configuration

/-- The table of settings in a file has some members.  It stands in the table of tools, and is empty
if it, or that table, is absent. -/
inductive HasMembers (document : Toml.Table) : Toml.Table → Prop
  | noTools : document.get? "tool" = none → HasMembers document []
  | noSettings {tools : Toml.Table} :
    document.get? "tool" = some (.table tools) → tools.get? "destructure" = none →
      HasMembers document []
  | settings {tools members : Toml.Table} :
    document.get? "tool" = some (.table tools) →
      tools.get? "destructure" = some (.table members) → HasMembers document members

/-- The value of a setting among the members of a table. -/
def written (members : Toml.Table) (name : SettingName) : Option SettingValue :=
  (members.get? name.label).map settingValue

theorem settingsTable_eq_ok_iff {document members : Toml.Table} :
    settingsTable document = .ok members ↔ HasMembers document members := by
  constructor
  · intro found
    unfold settingsTable at found
    split at found
    case h_1 absent =>
      cases found
      exact .noTools absent
    case h_2 tools known =>
      split at found
      case h_1 absent =>
        cases found
        exact .noSettings known absent
      case h_2 members inner =>
        cases found
        exact .settings known inner
      case h_3 => cases found
    case h_3 => cases found
  · intro has
    unfold settingsTable tableNames
    cases has with
    | noTools absent => simp only [absent]
    | noSettings tools absent => simp only [tools, absent]
    | settings tools members => simp only [tools, members]

/-- No two members of the table of settings in a file have one name. -/
theorem HasMembers.distinct {document members : Toml.Table} (has : HasMembers document members)
    (distinct : document.Distinct) : members.Distinct := by
  cases has with
  | noTools => exact Toml.Table.distinct_nil
  | noSettings => exact Toml.Table.distinct_nil
  | settings tools members => exact ((distinct.get? tools).members.get? members).members

/-- What a file that is a text and well formed gives for each setting is the member with the label of
the setting. -/
theorem exists_readValues {content : List UInt8} {text : Text} {document members : Toml.Table}
    (decoded : Text.decode content = .ok text) (parsed : Toml.parse? text = some document)
    (has : HasMembers document members) :
    ∃ values, readValues content = .ok values ∧
      ∀ name, values.get name = written members name := by
  have distinct := has.distinct (Toml.distinct_of_parse? parsed)
  unfold readValues
  simp only [decoded, parsed, settingsTable_eq_ok_iff.2 has]
  refine ⟨_, rfl, fun name => ?_⟩
  rw [SettingValues.get_ofList (by rw [List.map_map]; exact distinct.names), List.find?_map,
    written, Toml.Table.get?, Option.map_map, Option.map_map]
  rfl

/-- The outcome of a check, with the directory in which a file was found. -/
def outcome (place : Option (List Text)) :
    Except (List SettingFault) Settings → Except ConfigurationFault (Settings × Option (List Text))
  | .error faults => .error (.invalid faults)
  | .ok settings => .ok (settings, place)

/-- Settings are what a check of given values over those of the file gives. -/
theorem outcome_check (place : Option (List Text)) {given values : SettingValues}
    {written : SettingName → Option SettingValue} (known : ∀ name, values.get name = written name) :
    outcome place (Settings.check (given.orElse values)) =
      outcome place (Settings.check (.ofAll (chosen given written))) := by
  rw [check_eq_check_ofAll]
  congr 3
  funext name
  rw [SettingValues.get_orElse, known, chosen]

/-- The settings for a directory are what a check gives of the values that count: those given, else
those of the nearest configuration file, else the defaults.  The file has to be a text and well
formed, and the table of settings in it a table or absent.  If no directory on the way up holds a
file, the values given count, else the defaults.  Settings that are accepted are in order, be it by a
check of any values or for a directory of any tree. -/
theorem load_precedence (tree : Tree) (start : Path) (given : SettingValues) :
    ((∀ place, place <+: tree.placeOf start → ¬ tree.HoldsFile fileName place) →
      load tree start given =
        outcome none (Settings.check (.ofAll (chosen given fun _ => none)))) ∧
    (∀ place content text document members,
      tree.IsNearest start fileName place content → Text.decode content = .ok text →
      Toml.parse? text = some document → HasMembers document members →
      load tree start given =
        outcome (some place) (Settings.check (.ofAll (chosen given (written members))))) ∧
    (∀ values settings, Settings.check values = .ok settings → settings.IsChecked) ∧
    ∀ settings place, load tree start given = .ok (settings, place) → settings.IsChecked := by
  refine ⟨fun missing => ?_, ?_, fun values settings => Settings.isChecked_of_check, ?_⟩
  · have nothing : ∀ name, SettingValues.empty.get name = none := fun name => by cases name <;> rfl
    rw [← outcome_check none nothing]
    unfold load find
    rw [Tree.nearest_eq_none missing]
    dsimp only
    cases Settings.check (given.orElse .empty) <;> rfl
  · intro place content text document members isNearest decoded parsed has
    rcases exists_readValues decoded parsed has with ⟨values, read, known⟩
    rw [← outcome_check (some place) known]
    unfold load find
    rw [Tree.nearest_eq_some isNearest]
    simp only [valuesIn, (tree.contentAt_eq_ok_iff).2 isNearest.found, read, Except.map]
    cases Settings.check (given.orElse values) <;> rfl
  · intro settings place loaded
    unfold load at loaded
    split at loaded
    case h_1 => cases loaded
    case h_2 values place found =>
      split at loaded
      case h_1 => cases loaded
      case h_2 settings checked =>
        cases loaded
        exact Settings.isChecked_of_check checked

/-- A file that gives a setting of a wrong type and one that there is not. -/
def partlyWrong : Text :=
  "[tool.destructure]\ncompanion_prefix = 1\nview_suffix = \" V \"\nother = 2\n"

/-- A tree with that file in a directory, and with another file at the top. -/
def nestedFiles : Tree :=
  ⟨[], [([fileName], .file (Text.encode "[tool]\n")), (["a"], .directory),
    (["a", fileName], .file (Text.encode partlyWrong)), (["a", "b"], .directory)]⟩

/-- The prefix is given, and one suffix is in the nearer file. -/
theorem load_nestedFiles : ∃ place content text document members,
    nestedFiles.IsNearest (Path.ofText "a/b") fileName place content ∧
      Text.decode content = .ok text ∧ Toml.parse? text = some document ∧
      HasMembers document members ∧
      load nestedFiles (Path.ofText "a/b") ⟨some (.string "C"), none, none, none⟩ =
        .ok (⟨"C", "Ref", "V", true⟩, some (["a"] : List Text)) := by
  have leads : nestedFiles.placeOf (Path.ofText "a/b") = (["a", "b"] : List Text) := by decide
  have isNearest : nestedFiles.IsNearest (Path.ofText "a/b") fileName (["a"] : List Text)
      (Text.encode partlyWrong) := by
    refine ⟨by rw [leads]; decide, by decide +kernel, ?_⟩
    rw [leads]
    intro other above longer
    have same := above.eq_of_length_le longer
    subst same
    change ¬ nestedFiles.hasFileAt ((["a", "b"] : List Text) ++ [fileName]) = true
    decide +kernel
  have decoded : Text.decode (Text.encode partlyWrong) = .ok partlyWrong := by decide +kernel
  have values : (Toml.parse? partlyWrong).map (fun document =>
      (settingsTable document).toOption.map fun members =>
        SettingName.all.map (written members)) =
      some (some [some (.whole 1), none, some (.string " V "), none]) := by decide +kernel
  rcases Option.map_eq_some_iff.1 values with ⟨document, parsed, values⟩
  cases table : settingsTable document with
  | error fault =>
    rw [table] at values
    cases values
  | ok members =>
    rw [table] at values
    have has := settingsTable_eq_ok_iff.1 table
    refine ⟨_, _, _, _, _, isNearest, decoded, parsed, has, ?_⟩
    have loaded := (load_precedence nestedFiles (Path.ofText "a/b")
      ⟨some (.string "C"), none, none, none⟩).2.1 _ _ _ _ _ isNearest decoded parsed has
    simp only [Except.toOption, Option.map_some, SettingName.all, List.map_cons, List.map_nil,
      Option.some.injEq, List.cons.injEq, and_true] at values
    rcases values with ⟨companionPrefix, mutationSuffix, viewSuffix, injectImports⟩
    simp only [loaded, SettingValues.ofAll, chosen, companionPrefix, mutationSuffix, viewSuffix,
      injectImports]
    have checked : Settings.check ⟨some (.string "C"), some (.string "Ref"), some (.string " V "),
      some (.boolean true)⟩ = .ok ⟨"C", "Ref", "V", true⟩ := by decide +kernel
    exact congrArg (outcome _) checked

end Configuration
end OpenRecord
