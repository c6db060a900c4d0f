import VirtueSensing.Api.Components

set_option autoImplicit false

/-!
# The keys of components and configurations

Nothing but a lookup keeps two rows from having one key, and the lookup compares the values as they
were sent. The tables hold them as they were cast and stored.
-/

namespace VirtueSensing.Api

def Settled (text : String) : Prop :=
  text ≠ "" ∧ varchar text = some text

instance (text : String) : Decidable (Settled text) :=
  inferInstanceAs (Decidable (text ≠ "" ∧ varchar text = some text))

theorem settled_of_varchar {text stored : String} (given : text ≠ "")
    (kept : varchar text = some stored) : Settled stored := by
  unfold varchar at kept
  split_ifs at kept with zero short spaces
  · obtain rfl := Option.some.inj kept
    exact ⟨given, by rw [varchar, if_neg zero, if_pos short]⟩
  · obtain rfl := Option.some.inj kept
    have long : 255 ≤ text.toList.length := Nat.le_of_lt (Nat.not_le.mp short)
    have length : (String.ofList (text.toList.take 255)).length = 255 := by
      rw [String.length_ofList, List.length_take, Nat.min_eq_left long]
    have clean : '\x00' ∉ (String.ofList (text.toList.take 255)).toList := by
      rw [String.toList_ofList]
      exact fun member => zero (List.mem_of_mem_take member)
    constructor
    · intro empty
      rw [empty] at length
      exact absurd length (by decide)
    · rw [varchar, if_neg clean, if_pos (Nat.le_of_eq length)]

theorem settled_cast {fallback current stored : String} {value : Option String}
    (fallbackSet : fallback ≠ "") (currentSet : current ≠ "")
    (kept : varchar (castText fallback current value) = some stored) : Settled stored := by
  apply settled_of_varchar _ kept
  cases value with
  | none => exact currentSet
  | some text =>
    rw [castText]
    split_ifs with empty
    · exact fallbackSet
    · exact empty

theorem cast_settled {fallback current text : String} (settled : Settled text) :
    varchar (castText fallback current (some text)) = some text := by
  rw [castText, if_neg settled.1, settled.2]

theorem varchar_cast_agrees {fallback current : String} {value : Option String}
    (settled : Settled current) (agreed : agrees value current) :
    varchar (castText fallback current value) = some current := by
  cases value with
  | none => exact settled.2
  | some text =>
    obtain rfl : text = current := by simpa [agrees] using agreed
    exact cast_settled settled

def Component.key (c : Component) : Option (String × String × String) :=
  some (c.name, c.context, c.os)

def Configuration.key (c : Configuration) : Option (Nat × String × String) :=
  some (c.componentId, c.level, c.version)

structure Component.Settled (c : Component) : Prop where
  name : Api.Settled c.name
  context : Api.Settled c.context
  os : Api.Settled c.os

structure Configuration.Settled (c : Configuration) : Prop where
  level : Api.Settled c.level
  version : Api.Settled c.version

structure Keyed (s : Store) : Prop where
  components : s.components.Unique Component.key
  configurations : s.configurations.Unique Configuration.key
  settledComponents : ∀ entry ∈ s.components.rows, entry.2.Settled
  settledConfigurations : ∀ entry ∈ s.configurations.rows, entry.2.Settled

/-- No two components share name, context and system, no two configurations of a component share level
and version, and no lookup by these finds two rows. -/
structure SingleRows (s : Store) : Prop where
  components : s.components.Unique Component.key
  configurations : s.configurations.Unique Configuration.key
  component : ∀ name context os description,
    getComponent s ⟨some name, some context, some os, description⟩ ≠ .multipleMatches
  configuration : ∀ componentId params, getConfiguration s componentId params ≠ .multipleMatches

theorem Keyed.singleRows {s : Store} (keyed : Keyed s) : SingleRows s where
  components := keyed.components
  configurations := keyed.configurations
  component name context os description := by
    apply Table.lookup_single
    apply keyed.components.length_select (name, context, os)
    intro c selected
    simp only [ComponentParams.selects, agrees, Option.all_some, Bool.and_eq_true,
      decide_eq_true_eq] at selected
    obtain ⟨⟨rfl, rfl⟩, rfl⟩ := selected
    rfl
  configuration componentId params := by
    apply Table.lookup_single
    apply keyed.configurations.length_select
      (componentId, params.level.getD "default", params.version.getD "latest")
    intro c selected
    simp only [ConfigurationParams.selects, Bool.and_eq_true, decide_eq_true_eq] at selected
    obtain ⟨⟨rfl, version⟩, level⟩ := selected
    rw [Configuration.key, version, level]

def ComponentParams.Plain (params : ComponentParams) : Prop :=
  (∀ text, params.name = some text → Settled text) ∧
    (∀ text, params.context = some text → Settled text) ∧
    (∀ text, params.os = some text → Settled text)

def ConfigurationParams.Plain (params : ConfigurationParams) : Prop :=
  (∀ text, params.level = some text → Settled text) ∧
    (∀ text, params.version = some text → Settled text)

def ComponentParams.row (params : ComponentParams) : Option Component :=
  (Component.new.changeset params).bind Component.store

def ConfigurationParams.row (params : ConfigurationParams) (componentId : Nat) :
    Option Configuration :=
  ((Configuration.new componentId).changeset params).bind Configuration.store

def KeyFree (s : Store) : ConfigurationsRequest → Prop
  | .createComponent params =>
    ∀ row, params.row = some row → params.Plain ∨ s.components.taken Component.key row = false
  | .createConfiguration component params =>
    ∀ componentId c row, getComponent s component = .found componentId c →
      params.row componentId = some row →
      params.Plain ∨ s.configurations.taken Configuration.key row = false
  | _ => True

section Rows

theorem component_changeset {c changed : Component} {params : ComponentParams}
    (valid : c.changeset params = some changed) :
    changed = ⟨castText "" c.name params.name, castText "virtue" c.context params.context,
      castText "linux" c.os params.os, castText "" c.description params.description⟩ ∧
      blank changed.name = false := by
  unfold Component.changeset at valid
  dsimp only at valid
  split_ifs at valid with checks
  obtain rfl := Option.some.inj valid
  exact ⟨rfl, by simpa using checks.2.2.1⟩

theorem component_store {c row : Component} (stored : c.store = some row) :
    varchar c.name = some row.name ∧ varchar c.context = some row.context ∧
      varchar c.os = some row.os := by
  simp only [Component.store, Option.bind_eq_bind, Option.bind_eq_some_iff] at stored
  obtain ⟨name, keptName, context, keptContext, os, keptOs, description, -, made⟩ := stored
  obtain rfl := Option.some.inj made
  exact ⟨keptName, keptContext, keptOs⟩

theorem configuration_changeset {c changed : Configuration} {params : ConfigurationParams}
    (valid : c.changeset params = some changed) :
    changed.componentId = c.componentId ∧ changed.level = castText "default" c.level params.level ∧
      changed.version = castText "latest" c.version params.version := by
  unfold Configuration.changeset at valid
  dsimp only at valid
  split_ifs at valid
  obtain rfl := Option.some.inj valid
  exact ⟨rfl, rfl, rfl⟩

theorem configuration_store {c row : Configuration} (stored : c.store = some row) :
    row.componentId = c.componentId ∧ varchar c.level = some row.level ∧
      varchar c.version = some row.version := by
  simp only [Configuration.store, Option.bind_eq_bind, Option.bind_eq_some_iff] at stored
  obtain ⟨level, keptLevel, version, keptVersion, configuration, -, format, -, description, -,
    made⟩ := stored
  obtain rfl := Option.some.inj made
  exact ⟨rfl, keptLevel, keptVersion⟩

theorem ComponentParams.row_eq_some {params : ComponentParams} {row : Component}
    (made : params.row = some row) :
    (varchar (castText "" "" params.name) = some row.name ∧
      varchar (castText "virtue" "virtue" params.context) = some row.context ∧
      varchar (castText "linux" "linux" params.os) = some row.os) ∧ row.Settled := by
  obtain ⟨changed, valid, stored⟩ := Option.bind_eq_some_iff.mp made
  obtain ⟨name, context, os⟩ := component_store stored
  obtain ⟨rfl, named⟩ := component_changeset valid
  refine ⟨⟨name, context, os⟩, settled_of_varchar ?_ name, ?_, ?_⟩
  · intro empty
    rw [empty] at named
    exact absurd named (by decide)
  · exact settled_cast (by decide) (by decide) context
  · exact settled_cast (by decide) (by decide) os

theorem ConfigurationParams.row_eq_some {params : ConfigurationParams} {componentId : Nat}
    {row : Configuration} (made : params.row componentId = some row) :
    (row.componentId = componentId ∧
      varchar (castText "default" "default" params.level) = some row.level ∧
      varchar (castText "latest" "latest" params.version) = some row.version) ∧ row.Settled := by
  obtain ⟨changed, valid, stored⟩ := Option.bind_eq_some_iff.mp made
  obtain ⟨componentSame, level, version⟩ := configuration_changeset valid
  obtain ⟨same, keptLevel, keptVersion⟩ := configuration_store stored
  replace keptLevel : varchar (castText "default" "default" params.level) = some row.level :=
    level ▸ keptLevel
  replace keptVersion : varchar (castText "latest" "latest" params.version) = some row.version :=
    version ▸ keptVersion
  refine ⟨⟨same.trans componentSame, keptLevel, keptVersion⟩, ?_, ?_⟩
  · exact settled_cast (by decide) (by decide) keptLevel
  · exact settled_cast (by decide) (by decide) keptVersion

end Rows

namespace Keyed

variable {s : Store}

-- Only values that are stored as they are can be found.
theorem plain_of_selects (keyed : Keyed s) {params : ComponentParams} {entry : Nat × Component}
    (stored : entry ∈ s.components.rows) (selected : params.selects entry.2) : params.Plain := by
  have settled := keyed.settledComponents entry stored
  simp only [ComponentParams.selects, agrees, Bool.and_eq_true, Option.all_eq_true,
    decide_eq_true_eq] at selected
  obtain ⟨⟨name, context⟩, os⟩ := selected
  refine ⟨fun text given => ?_, fun text given => ?_, fun text given => ?_⟩
  · exact name text given ▸ settled.name
  · exact context text given ▸ settled.context
  · exact os text given ▸ settled.os

theorem plain_of_configuration (keyed : Keyed s) {params : ConfigurationParams} {componentId : Nat}
    {entry : Nat × Configuration} (stored : entry ∈ s.configurations.rows)
    (selected : params.selects componentId entry.2) : params.Plain := by
  have settled := keyed.settledConfigurations entry stored
  simp only [ConfigurationParams.selects, Bool.and_eq_true, decide_eq_true_eq] at selected
  obtain ⟨⟨-, version⟩, level⟩ := selected
  refine ⟨fun text given => ?_, fun text given => ?_⟩
  · rw [given, Option.getD_some] at level
    exact level ▸ settled.level
  · rw [given, Option.getD_some] at version
    exact version ▸ settled.version

theorem component_free {params : ComponentParams} {row : Component}
    (nothing : getComponent s params = .noMatches) (plain : params.Plain)
    (made : params.row = some row) : s.components.taken Component.key row = false := by
  obtain ⟨⟨name, context, os⟩, -⟩ := ComponentParams.row_eq_some made
  rw [Table.taken_eq_false]
  intro entry stored _ same
  obtain ⟨sameName, sameContext, sameOs⟩ : entry.2.name = row.name ∧ entry.2.context = row.context ∧
      entry.2.os = row.os := by simpa [Component.key] using same
  have agreed : ∀ {value : Option String} {fallback column : String},
      (∀ text, value = some text → Settled text) →
      varchar (castText fallback fallback value) = some column → agrees value column := by
    intro value fallback column settled kept
    cases value with
    | none => rfl
    | some text =>
      rw [cast_settled (settled text rfl)] at kept
      obtain rfl := Option.some.inj kept
      simp [agrees]
  have missed := Table.lookup_noMatches.mp nothing entry stored
  rw [ComponentParams.selects, sameName, sameContext, sameOs, agreed plain.1 name,
    agreed plain.2.1 context, agreed plain.2.2 os] at missed
  exact absurd missed (by decide)

theorem configuration_free {params : ConfigurationParams} {componentId : Nat} {row : Configuration}
    (nothing : getConfiguration s componentId params = .noMatches) (plain : params.Plain)
    (made : params.row componentId = some row) :
    s.configurations.taken Configuration.key row = false := by
  obtain ⟨⟨rfl, level, version⟩, -⟩ := ConfigurationParams.row_eq_some made
  rw [Table.taken_eq_false]
  intro entry stored _ same
  obtain ⟨sameId, sameLevel, sameVersion⟩ : entry.2.componentId = row.componentId ∧
      entry.2.level = row.level ∧ entry.2.version = row.version := by
    simpa [Configuration.key] using same
  have given : ∀ {value : Option String} {fallback column : String},
      (∀ text, value = some text → Settled text) → Settled fallback →
      varchar (castText fallback fallback value) = some column → column = value.getD fallback := by
    intro value fallback column settled default kept
    cases value with
    | none =>
      rw [castText, default.2] at kept
      exact (Option.some.inj kept).symm
    | some text =>
      rw [cast_settled (settled text rfl)] at kept
      exact (Option.some.inj kept).symm
  have missed := Table.lookup_noMatches.mp nothing entry stored
  rw [ConfigurationParams.selects, sameId, sameLevel, sameVersion,
    given plain.1 (by decide) level, given plain.2 (by decide) version] at missed
  simp at missed

theorem createComponent (keyed : Keyed s) {params : ComponentParams}
    (free : KeyFree s (.createComponent params)) : Keyed (Api.createComponent s params).1 := by
  unfold Api.createComponent
  split
  · next nothing =>
    split
    · next component valid =>
      split
      · next row stored =>
        have made : params.row = some row := by rw [ComponentParams.row, valid]; exact stored
        have fresh : s.components.taken Component.key row = false := by
          rcases free row made with plain | fresh
          · exact component_free nothing plain made
          · exact fresh
        refine ⟨Table.unique_insert.mpr ⟨keyed.components, fresh⟩, keyed.configurations, ?_,
          keyed.settledConfigurations⟩
        intro entry member
        rcases Table.mem_insert.mp member with member | rfl
        · exact keyed.settledComponents entry member
        · exact (ComponentParams.row_eq_some made).2
      · exact keyed
    · exact keyed
  · exact keyed

theorem createConfiguration (keyed : Keyed s) {component : ComponentParams}
    {params : ConfigurationParams} (free : KeyFree s (.createConfiguration component params)) :
    Keyed (Api.createConfiguration s component params).1 := by
  unfold Api.createConfiguration
  split
  · next componentId c found =>
    split
    · next nothing =>
      split
      · next configuration valid =>
        split
        · next row stored =>
          have made : params.row componentId = some row := by
            rw [ConfigurationParams.row, valid]
            exact stored
          have fresh : s.configurations.taken Configuration.key row = false := by
            rcases free componentId c row found made with plain | fresh
            · exact configuration_free nothing plain made
            · exact fresh
          refine ⟨keyed.components, Table.unique_insert.mpr ⟨keyed.configurations, fresh⟩,
            keyed.settledComponents, ?_⟩
          intro entry member
          rcases Table.mem_insert.mp member with member | rfl
          · exact keyed.settledConfigurations entry member
          · exact (ConfigurationParams.row_eq_some made).2
        · exact keyed
      · exact keyed
    · exact keyed
    · exact keyed
  · exact keyed

theorem updateComponent (keyed : Keyed s) (params : ComponentParams) :
    Keyed (Api.updateComponent s params).1 := by
  unfold Api.updateComponent
  split
  · next id component found =>
    split
    · next changed valid =>
      split
      · next row stored =>
        obtain ⟨member, selected⟩ := Table.mem_of_lookup found
        have settled := keyed.settledComponents _ member
        have same : row.name = component.name ∧ row.context = component.context ∧
            row.os = component.os := by
          obtain ⟨name, context, os⟩ := component_store stored
          obtain ⟨rfl, -⟩ := component_changeset valid
          simp only [ComponentParams.selects, Bool.and_eq_true] at selected
          rw [varchar_cast_agrees settled.name selected.1.1] at name
          rw [varchar_cast_agrees settled.context selected.1.2] at context
          rw [varchar_cast_agrees settled.os selected.2] at os
          exact ⟨(Option.some.inj name).symm, (Option.some.inj context).symm,
            (Option.some.inj os).symm⟩
        refine ⟨keyed.components.update ?_, keyed.configurations, ?_, keyed.settledConfigurations⟩
        · intro before there
          obtain rfl := (Prod.mk.inj (Table.eq_of_id there member rfl)).2
          rw [Component.key, Component.key, same.1, same.2.1, same.2.2]
        · intro entry there
          obtain ⟨before, earlier, changed⟩ := Table.mem_update.mp there
          rw [changed]
          split
          · exact ⟨same.1 ▸ settled.name, same.2.1 ▸ settled.context, same.2.2 ▸ settled.os⟩
          · exact keyed.settledComponents _ earlier
      · exact keyed
    · exact keyed
  · exact keyed

theorem updateConfiguration (keyed : Keyed s) (component : ComponentParams)
    (params : ConfigurationParams) : Keyed (Api.updateConfiguration s component params).1 := by
  unfold Api.updateConfiguration
  split
  · next componentId c known =>
    split
    · next id configuration found =>
      split
      · next changed valid =>
        split
        · next row stored =>
          obtain ⟨member, selected⟩ := Table.mem_of_lookup found
          have settled := keyed.settledConfigurations _ member
          have same : row.componentId = configuration.componentId ∧
              row.level = configuration.level ∧ row.version = configuration.version := by
            obtain ⟨owner, level, version⟩ := configuration_store stored
            obtain ⟨sameOwner, sameLevel, sameVersion⟩ := configuration_changeset valid
            simp only [ConfigurationParams.selects, Bool.and_eq_true, decide_eq_true_eq] at selected
            have agreed : ∀ {value : Option String} {fallback column : String},
                column = value.getD fallback → agrees value column := by
              intro value fallback column default
              cases value with
              | none => rfl
              | some text => simpa [agrees] using default.symm
            rw [sameLevel, varchar_cast_agrees settled.level (agreed selected.2)] at level
            rw [sameVersion, varchar_cast_agrees settled.version (agreed selected.1.2)] at version
            exact ⟨owner.trans sameOwner, (Option.some.inj level).symm,
              (Option.some.inj version).symm⟩
          refine ⟨keyed.components, keyed.configurations.update ?_, keyed.settledComponents, ?_⟩
          · intro before there
            obtain rfl := (Prod.mk.inj (Table.eq_of_id there member rfl)).2
            rw [Configuration.key, Configuration.key, same.1, same.2.1, same.2.2]
          · intro entry there
            obtain ⟨before, earlier, changed⟩ := Table.mem_update.mp there
            rw [changed]
            split
            · exact ⟨same.2.1 ▸ settled.level, same.2.2 ▸ settled.version⟩
            · exact keyed.settledConfigurations _ earlier
        · exact keyed
      · exact keyed
    · exact keyed
    · exact keyed
  · exact keyed

theorem deleteComponent (keyed : Keyed s) (params : ComponentParams) (refused : Bool) :
    Keyed (Api.deleteComponent s params refused).1 := by
  unfold Api.deleteComponent
  split
  · split_ifs
    · exact keyed
    · exact ⟨keyed.components.keep _, keyed.configurations.keep _,
        fun entry member => keyed.settledComponents entry (List.mem_of_mem_filter member),
        fun entry member => keyed.settledConfigurations entry (List.mem_of_mem_filter member)⟩
  · exact keyed

theorem deleteConfiguration (keyed : Keyed s) (component : ComponentParams)
    (params : ConfigurationParams) (refused : Bool) :
    Keyed (Api.deleteConfiguration s component params refused).1 := by
  unfold Api.deleteConfiguration
  split
  · split
    · split_ifs
      · exact keyed
      · exact ⟨keyed.components, keyed.configurations.keep _, keyed.settledComponents,
          fun entry member => keyed.settledConfigurations entry (List.mem_of_mem_filter member)⟩
    · exact keyed
    · exact keyed
  · exact keyed

theorem serve (keyed : Keyed s) {request : ConfigurationsRequest} (free : KeyFree s request) :
    Keyed (request.serve s).1 := by
  cases request with
  | createComponent params => exact keyed.createComponent free
  | updateComponent params => exact keyed.updateComponent params
  | deleteComponent params refused => exact keyed.deleteComponent params refused
  | createConfiguration component params => exact keyed.createConfiguration free
  | updateConfiguration component params => exact keyed.updateConfiguration component params
  | deleteConfiguration component params refused =>
    exact keyed.deleteConfiguration component params refused

theorem keyFree (keyed : Keyed s) {request : ConfigurationsRequest}
    (single : SingleRows (request.serve s).1) : KeyFree s request := by
  cases request with
  | createComponent params =>
    intro row made
    cases found : getComponent s params with
    | noMatches =>
      right
      obtain ⟨component, valid, stored⟩ := Option.bind_eq_some_iff.mp made
      have unique := single.components
      simp only [ConfigurationsRequest.serve, Api.createComponent, found, valid, stored] at unique
      exact (Table.unique_insert.mp unique).2
    | found id c =>
      have there := Table.mem_of_lookup found
      exact .inl (keyed.plain_of_selects there.1 there.2)
    | multipleMatches =>
      obtain ⟨entry, there⟩ := Table.lookup_multiple found
      exact .inl (keyed.plain_of_selects there.1 there.2)
  | createConfiguration component params =>
    intro componentId c row known made
    cases found : getConfiguration s componentId params with
    | noMatches =>
      right
      obtain ⟨configuration, valid, stored⟩ := Option.bind_eq_some_iff.mp made
      have unique := single.configurations
      simp only [ConfigurationsRequest.serve, Api.createConfiguration, known, found, valid,
        stored] at unique
      exact (Table.unique_insert.mp unique).2
    | found id c =>
      have there := Table.mem_of_lookup found
      exact .inl (keyed.plain_of_configuration there.1 there.2)
    | multipleMatches =>
      obtain ⟨entry, there⟩ := Table.lookup_multiple found
      exact .inl (keyed.plain_of_configuration there.1 there.2)
  | _ => trivial

end Keyed

/-- The keys are single after every request of a run exactly when each request that creates a row sends
its key as it is stored, or under a key that is free. -/
theorem single_rows_iff {requests : List ConfigurationsRequest} {s : Store}
    (served : configurationsMachine.run requests = some s) :
    (∀ first t, first <+: requests → configurationsMachine.run first = some t → SingleRows t) ↔
      configurationsMachine.Throughout KeyFree requests := by
  have empty : Keyed configurationsMachine.initial :=
    ⟨Table.unique_empty, Table.unique_empty, nofun, nofun⟩
  apply configurationsMachine.along_iff_of_invariant Keyed empty (fun _ keyed => keyed.singleRows)
    _ _ served
  · intro s request t keyed moved free
    obtain rfl := Option.some.inj moved
    exact keyed.serve free
  · intro s request t keyed moved single
    obtain rfl := Option.some.inj moved
    exact keyed.keyFree single

section Sample

def psParams : ComponentParams := ⟨some "ps", some "virtue", some "linux", none⟩

def blankLevel : ConfigurationParams := ⟨some "", none, some "{}", none, none⟩

def blankTwice : List ConfigurationsRequest :=
  [.createComponent psParams, .createConfiguration psParams blankLevel,
    .createConfiguration psParams blankLevel]

theorem single_rows_iff_blank :
    (∀ first t, first <+: blankTwice → configurationsMachine.run first = some t → SingleRows t) ↔
      configurationsMachine.Throughout KeyFree blankTwice :=
  single_rows_iff rfl

def defaultRow : Configuration := ⟨0, "default", "latest", "{}", "json", ""⟩

-- Both requests look for a configuration without a level, and both create the default one.
theorem blank_level_twice :
    ¬ ∀ requests s, configurationsMachine.run requests = some s → SingleRows s := by
  intro always
  obtain ⟨s, served, rows⟩ : ∃ s, configurationsMachine.run blankTwice = some s ∧
      s.configurations.rows = [(0, defaultRow), (1, defaultRow)] := ⟨_, rfl, by decide⟩
  have single := (always blankTwice s served).configurations (0, defaultRow) (by simp [rows])
    (1, defaultRow) (by simp [rows]) nofun rfl
  simp at single

end Sample

end VirtueSensing.Api
