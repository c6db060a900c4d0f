import VirtueSensing.Api.ConfigurationLoader

set_option autoImplicit false

/-!
# What a load leaves

What the store holds after a load without errors, and what a second load does to it.
-/

namespace VirtueSensing.Api

open ValidationPlug (Plug pipe validComponentOs validComponentContext validConfigurationLevel)

section Systems

variable {s : Store} {c changed row : Component} {params : ComponentParams}

def SystemsKnown (s : Store) : Prop := ∀ entry ∈ s.components.rows, entry.2.os ∈ sensorOs

theorem changeset_system (valid : c.changeset params = some changed) (known : c.os ∈ sensorOs) :
    changed.os ∈ sensorOs := by
  unfold Component.changeset at valid
  dsimp only at valid
  split_ifs at valid with checks
  obtain rfl := Option.some.inj valid
  have inside := checks.2.1
  simp only [included, Bool.or_eq_true, decide_eq_true_eq, List.contains_iff_mem] at inside
  rcases inside with same | listed
  · rw [same]
    exact known
  · exact listed

theorem store_system (stored : c.store = some row) (known : c.os ∈ sensorOs) : row.os ∈ sensorOs := by
  have plain : ∀ os ∈ sensorOs, varchar os = some os := by decide
  obtain ⟨-, -, os⟩ := component_store stored
  rw [plain _ known] at os
  exact Option.some.inj os ▸ known

theorem SystemsKnown.serve (known : SystemsKnown s) (request : ConfigurationsRequest) :
    SystemsKnown (request.serve s).1 := by
  cases request with
  | createComponent params =>
    show SystemsKnown (createComponent s params).1
    unfold createComponent
    split
    · split
      · next component valid =>
        split
        · next row stored =>
          intro entry member
          rcases Table.mem_insert.mp member with member | rfl
          · exact known entry member
          · exact store_system stored (changeset_system valid (by decide))
        · exact known
      · exact known
    · exact known
  | updateComponent params =>
    show SystemsKnown (updateComponent s params).1
    unfold updateComponent
    split
    · next id component found =>
      split
      · next changed valid =>
        split
        · next row stored =>
          intro entry there
          obtain ⟨before, earlier, changed⟩ := Table.mem_update.mp there
          rw [changed]
          split
          · exact store_system stored (changeset_system valid (known _ (Table.mem_of_lookup found).1))
          · exact known _ earlier
        · exact known
      · exact known
    · exact known
  | deleteComponent params refused =>
    show SystemsKnown (deleteComponent s params refused).1
    unfold deleteComponent
    split
    · split_ifs
      · exact known
      · exact fun entry member => known entry (List.mem_of_mem_filter member)
    · exact known
  | createConfiguration component params =>
    have same : (createConfiguration s component params).1.components = s.components := by
      unfold createConfiguration
      repeat' split
      all_goals rfl
    exact fun entry member => known entry (same ▸ member)
  | updateConfiguration component params =>
    have same : (updateConfiguration s component params).1.components = s.components := by
      unfold updateConfiguration
      repeat' split
      all_goals rfl
    exact fun entry member => known entry (same ▸ member)
  | deleteConfiguration component params refused =>
    have same : (deleteConfiguration s component params refused).1.components = s.components := by
      unfold deleteConfiguration
      repeat' split
      all_goals rfl
    exact fun entry member => known entry (same ▸ member)

end Systems

section Served

variable {s : Store} {component : ComponentParams} {params : ConfigurationParams}

theorem createComponent_ok (served : (createComponent s component).2 = .ok) :
    ∃ row, getComponent s component = .noMatches ∧ component.row = some row ∧
      (createComponent s component).1 = { s with components := s.components.insert row } := by
  unfold createComponent at served ⊢
  split at served
  · next nothing =>
    split at served
    · next changed valid =>
      split at served
      · next row stored =>
        refine ⟨row, nothing, ?_, rfl⟩
        rw [ComponentParams.row, valid]
        exact stored
      · cases served
    · cases served
  · cases served

theorem createConfiguration_ok (served : (createConfiguration s component params).2 = .ok) :
    ∃ id c row, getComponent s component = .found id c ∧ getConfiguration s id params = .noMatches ∧
      params.row id = some row ∧
      (createConfiguration s component params).1 = { s with configurations := s.configurations.insert row } := by
  unfold createConfiguration at served ⊢
  split at served
  · next id c known =>
    split at served
    · next nothing =>
      split at served
      · next changed valid =>
        split at served
        · next row stored =>
          refine ⟨id, c, row, known, nothing, ?_, rfl⟩
          rw [ConfigurationParams.row, valid]
          exact stored
        · cases served
      · cases served
    · cases served
    · cases served
  · cases served

theorem updateComponent_ok (served : (updateComponent s component).2 = .ok) :
    ∃ id before changed row, getComponent s component = .found id before ∧
      before.changeset component = some changed ∧ changed.store = some row ∧
      (updateComponent s component).1 = { s with components := s.components.update id fun _ => row } := by
  unfold updateComponent at served ⊢
  split at served
  · next id before found =>
    split at served
    · next changed valid =>
      split at served
      · next row stored => exact ⟨id, before, changed, row, found, valid, stored, rfl⟩
      · cases served
    · cases served
  · cases served

theorem updateConfiguration_ok (served : (updateConfiguration s component params).2 = .ok) :
    ∃ id c own before changed row, getComponent s component = .found id c ∧
      getConfiguration s id params = .found own before ∧ before.changeset params = some changed ∧
      changed.store = some row ∧ (updateConfiguration s component params).1 =
        { s with configurations := s.configurations.update own fun _ => row } := by
  unfold updateConfiguration at served ⊢
  split at served
  · next id c known =>
    split at served
    · next own before found =>
      split at served
      · next changed valid =>
        split at served
        · next row stored => exact ⟨id, c, own, before, changed, row, known, found, valid, stored, rfl⟩
        · cases served
      · cases served
    · cases served
    · cases served
  · cases served

end Served

namespace ConfigurationLoader

variable {DateTime : Type} {lib : ValidationPlug.Elixir DateTime} {s t : Store}

theorem pipe_assigns {plugs : List (Plug DateTime)} {conn : ValidationPlug.Conn DateTime}
    (assign : ∀ plug ∈ plugs, ∀ conn, ∃ name value, plug conn = some (conn.assign name value))
    (going : conn.halted = false) : ∃ after, pipe plugs conn = some after ∧ after.halted = false := by
  induction plugs generalizing conn with
  | nil => exact ⟨conn, rfl, going⟩
  | cons plug rest ih =>
    obtain ⟨first, others⟩ := List.forall_mem_cons.mp assign
    obtain ⟨name, value, ran⟩ := first conn
    have still : (conn.assign name value).halted = false := going
    obtain ⟨after, piped, end'⟩ := ih others still
    refine ⟨after, ?_, end'⟩
    rw [ValidationPlug.pipe, ran]
    simp only [still, Bool.false_eq_true, if_false]
    exact piped

-- The plugs look at nothing but the system: the others ask for a key that no request has.
theorem guarded_eq {os : String} {given : List (String × String)} (has : given.lookup "os" = some os)
    {rest : List (Plug DateTime)}
    (assign : ∀ plug ∈ rest, ∀ conn, ∃ name value, plug conn = some (conn.assign name value))
    (handled : Outcome) :
    guarded (validComponentOs lib :: rest) (query given) handled =
      if lib.downcase os ∈ sensorOs then handled else .badRequest := by
  have param : (query given : ValidationPlug.Conn DateTime).params.value (.string "os") =
      some (.string os) := by
    show (given.lookup "os").map Json.string = _
    rw [has]
    rfl
  have ran : validComponentOs lib (query given) =
      if lib.downcase os ∈ sensorOs then
        some ((query given).assign "component_os" (.string (lib.downcase os)))
      else ValidationPlug.rejectValue lib "Invalid component os" (.string (lib.downcase os)) (query given) := by
    unfold validComponentOs ValidationPlug.normalised
    simp only [param]
    rfl
  unfold guarded
  rw [pipe, ran]
  split_ifs with allowed
  · have unhalted : ((query given).assign "component_os" (.string (lib.downcase os)) :
        ValidationPlug.Conn DateTime).halted = false := rfl
    obtain ⟨after, piped, going⟩ := pipe_assigns assign unhalted
    simp only [unhalted, Bool.false_eq_true, if_false, piped, going]
  · rw [ValidationPlug.rejectValue_unsent rfl rfl]
    rfl

section Keys

def Collection.key (c : Collection) : String × String × String := (c.name, c.context, c.os)

structure Collection.KeySettled (c : Collection) : Prop where
  name : Settled c.name
  context : Settled c.context
  os : Settled c.os

structure Variant.KeySettled (v : Variant) : Prop where
  level : Settled v.level
  version : Settled v.version

structure Collection.Settled (c : Collection) : Prop where
  component : c.KeySettled
  variants : ∀ v ∈ c.configurations, v.KeySettled

def Item.KeySettled : Item → Prop
  | .component c => c.KeySettled
  | .configuration c v => c.KeySettled ∧ v.KeySettled

variable {c : Collection} {v : Variant} {id : Nat}

theorem component_selects {row : Component} : c.filter.selects row ↔ row.key = some c.key := by
  simp only [ComponentParams.selects, Collection.filter, agrees, Option.all_some, Bool.and_eq_true,
    decide_eq_true_eq, Component.key, Collection.key, Option.some.injEq, Prod.mk.injEq, and_assoc]
  constructor
  · rintro ⟨name, context, os⟩
    exact ⟨name.symm, context.symm, os.symm⟩
  · rintro ⟨name, context, os⟩
    exact ⟨name.symm, context.symm, os.symm⟩

theorem configuration_selects {row : Configuration} :
    v.filter.selects id row ↔ row.key = some (id, v.level, v.version) := by
  simp only [ConfigurationParams.selects, Variant.filter, Option.getD_some, Bool.and_eq_true,
    decide_eq_true_eq, Configuration.key, Option.some.injEq, Prod.mk.injEq]
  constructor
  · rintro ⟨⟨owner, version⟩, level⟩
    exact ⟨owner, of_decide_eq_true level, of_decide_eq_true version⟩
  · rintro ⟨owner, level, version⟩
    exact ⟨⟨owner, decide_eq_true version⟩, decide_eq_true level⟩

theorem component_found (keyed : Keyed s) {row : Component} (stored : (id, row) ∈ s.components.rows)
    (key : row.key = some c.key) : getComponent s c.filter = .found id row :=
  keyed.components.lookup c.key (fun _ selected => component_selects.mp selected) stored
    (component_selects.mpr key)

theorem configuration_found (keyed : Keyed s) {own : Nat} {row : Configuration}
    (stored : (own, row) ∈ s.configurations.rows) (key : row.key = some (id, v.level, v.version)) :
    getConfiguration s id v.filter = .found own row :=
  keyed.configurations.lookup (id, v.level, v.version)
    (fun _ selected => configuration_selects.mp selected) stored (configuration_selects.mpr key)

theorem of_component_found {row : Component} (found : getComponent s c.filter = .found id row) :
    (id, row) ∈ s.components.rows ∧ row.key = some c.key := by
  obtain ⟨stored, selected⟩ := Table.mem_of_lookup found
  exact ⟨stored, component_selects.mp selected⟩

theorem of_configuration_found {own : Nat} {row : Configuration}
    (found : getConfiguration s id v.filter = .found own row) :
    (own, row) ∈ s.configurations.rows ∧ row.key = some (id, v.level, v.version) := by
  obtain ⟨stored, selected⟩ := Table.mem_of_lookup found
  exact ⟨stored, configuration_selects.mp selected⟩

theorem settled_stored {fallback current text stored : String} (settled : Api.Settled text)
    (kept : varchar (castText fallback current (some text)) = some stored) : stored = text :=
  Option.some.inj (kept.symm.trans (cast_settled settled))

theorem component_stored (settled : c.KeySettled) {before changed row : Component}
    (valid : before.changeset c.params = some changed) (stored : changed.store = some row) :
    row.key = some c.key := by
  obtain ⟨name, context, os⟩ := component_store stored
  obtain ⟨rfl, -⟩ := component_changeset valid
  dsimp only [Collection.params] at name context os
  rw [Component.key, Collection.key, settled_stored settled.name name, settled_stored settled.context context,
    settled_stored settled.os os]

theorem configuration_stored (settled : v.KeySettled) {before changed row : Configuration}
    (valid : before.changeset v.params = some changed) (stored : changed.store = some row) :
    row.key = some (before.componentId, v.level, v.version) := by
  obtain ⟨owner, level, version⟩ := configuration_store stored
  obtain ⟨sameOwner, castLevel, castVersion⟩ := configuration_changeset valid
  rw [castLevel] at level
  rw [castVersion] at version
  rw [Configuration.key, owner, sameOwner, settled_stored settled.level level,
    settled_stored settled.version version]

/-- The columns of a variant that are not part of its key, as the database keeps them. -/
structure Variant.Holds (v : Variant) (row : Configuration) : Prop where
  configuration : varchar (castText "\x7b\x7d" "" (some v.configurationContent)) = some row.configuration
  format : varchar (castText "json" "" (some v.format)) = some row.format
  description : varchar (castText "" "" (some v.description)) = some row.description

theorem configuration_holds {before changed row : Configuration}
    (valid : before.changeset v.params = some changed) (stored : changed.store = some row) : v.Holds row := by
  unfold Configuration.changeset at valid
  dsimp only at valid
  split_ifs at valid
  obtain rfl := Option.some.inj valid
  simp only [Configuration.store, Option.bind_eq_bind, Option.bind_eq_some_iff] at stored
  obtain ⟨level, -, version, -, configuration, keptConfiguration, format, keptFormat, description,
    keptDescription, made⟩ := stored
  obtain rfl := Option.some.inj made
  exact ⟨keptConfiguration, keptFormat, keptDescription⟩

end Keys

section Steps

/-- What is left of the rows: their keys, and of the configurations that are not touched the whole row. -/
structure Keeps (touched : Configuration → Prop) (s t : Store) : Prop where
  components : ∀ id row, (id, row) ∈ s.components.rows →
    ∃ after, (id, after) ∈ t.components.rows ∧ after.key = row.key
  configurations : ∀ own row, (own, row) ∈ s.configurations.rows →
    ∃ after, (own, after) ∈ t.configurations.rows ∧ after.key = row.key ∧ (¬ touched row → after = row)

variable {touched : Configuration → Prop} {c : Collection} {v : Variant} {id own : Nat}

theorem Keeps.refl (touched : Configuration → Prop) (s : Store) : Keeps touched s s where
  components _ row stored := ⟨row, stored, rfl⟩
  configurations _ row stored := ⟨row, stored, rfl, fun _ => rfl⟩

theorem Keeps.component_found (keeps : Keeps touched s t) (keyed : Keyed t) {row : Component}
    (found : getComponent s c.filter = .found id row) : ∃ after, getComponent t c.filter = .found id after := by
  obtain ⟨stored, key⟩ := of_component_found found
  obtain ⟨after, there, same⟩ := keeps.components id row stored
  exact ⟨after, ConfigurationLoader.component_found keyed there (same.trans key)⟩

theorem Keeps.configuration_found (keeps : Keeps touched s t) (keyed : Keyed t) {row : Configuration}
    (found : getConfiguration s id v.filter = .found own row) :
    ∃ after, getConfiguration t id v.filter = .found own after ∧ (¬ touched row → after = row) := by
  obtain ⟨stored, key⟩ := of_configuration_found found
  obtain ⟨after, there, same, untouched⟩ := keeps.configurations own row stored
  exact ⟨after, ConfigurationLoader.configuration_found keyed there (same.trans key), untouched⟩

theorem keeps_insertComponent (touched : Configuration → Prop) (row : Component) :
    Keeps touched s { s with components := s.components.insert row } where
  components _ before stored := ⟨before, Table.mem_insert.mpr (.inl stored), rfl⟩
  configurations _ before stored := ⟨before, stored, rfl, fun _ => rfl⟩

theorem keeps_insertConfiguration (touched : Configuration → Prop) (row : Configuration) :
    Keeps touched s { s with configurations := s.configurations.insert row } where
  components _ before stored := ⟨before, stored, rfl⟩
  configurations _ before stored := ⟨before, Table.mem_insert.mpr (.inl stored), rfl, fun _ => rfl⟩

theorem keeps_updateComponent (touched : Configuration → Prop) {before row : Component}
    (stored : (id, before) ∈ s.components.rows) (same : row.key = before.key) :
    Keeps touched s { s with components := s.components.update id fun _ => row } where
  components other entry there := by
    refine ⟨if other = id then row else entry, Table.mem_update.mpr ⟨entry, there, rfl⟩, ?_⟩
    split_ifs with named
    · obtain ⟨-, rfl⟩ := Prod.mk.inj (Table.eq_of_id there stored named)
      exact same
    · rfl
  configurations _ entry there := ⟨entry, there, rfl, fun _ => rfl⟩

theorem keeps_updateConfiguration {before row : Configuration}
    (stored : (own, before) ∈ s.configurations.rows) (same : row.key = before.key) (hit : touched before) :
    Keeps touched s { s with configurations := s.configurations.update own fun _ => row } where
  components _ entry there := ⟨entry, there, rfl⟩
  configurations other entry there := by
    refine ⟨if other = own then row else entry, Table.mem_update.mpr ⟨entry, there, rfl⟩, ?_⟩
    split_ifs with named
    · obtain ⟨-, rfl⟩ := Prod.mk.inj (Table.eq_of_id there stored named)
      exact ⟨same, fun untouched => absurd hit untouched⟩
    · exact ⟨rfl, fun _ => rfl⟩

def Item.get (lib : ValidationPlug.Elixir DateTime) (s : Store) : Item → Outcome
  | .component c => getComponentRequest lib s c
  | .configuration c v => getConfigurationRequest lib s c v

def Item.creates : Item → ConfigurationsRequest
  | .component c => .createComponent c.params
  | .configuration c v => .createConfiguration c.filter v.params

def Item.updates : Item → ConfigurationsRequest
  | .component c => .updateComponent c.params
  | .configuration c v => .updateConfiguration c.filter v.params

theorem install_eq (update : Bool) (item : Item) : item.install lib update s =
    match item.get lib s with
    | .raised => (s, .error)
    | .ok => if update then finish .updated (item.updates.serve s) else (s, .alreadyExists)
    | .badRequest => finish .created (item.creates.serve s) := by
  cases item <;> rfl

theorem finish_clean {mode answer : Answer} {served : Store × Outcome} (ran : finish mode served = (t, answer))
    (clean : answer ≠ .error) : served = (t, .ok) ∧ answer = mode := by
  obtain ⟨rfl, rfl⟩ := Prod.mk.inj ran
  split_ifs at clean with ok
  · exact ⟨Prod.ext rfl ok, by rw [if_pos ok]⟩
  · exact absurd rfl clean

theorem install_cases {update : Bool} {item : Item} {answer : Answer}
    (ran : item.install lib update s = (t, answer)) (clean : answer ≠ .error) :
    (answer = .alreadyExists ∧ item.get lib s = .ok ∧ update = false ∧ t = s) ∨
      (answer = .updated ∧ item.get lib s = .ok ∧ update = true ∧ item.updates.serve s = (t, .ok)) ∨
      (answer = .created ∧ item.creates.serve s = (t, .ok)) := by
  rw [install_eq] at ran
  split at ran
  · obtain ⟨-, rfl⟩ := Prod.mk.inj ran
    exact absurd rfl clean
  · next present =>
    cases update with
    | true =>
      obtain ⟨served, mode⟩ := finish_clean ran clean
      exact .inr (.inl ⟨mode, present, rfl, served⟩)
    | false =>
      obtain ⟨rfl, rfl⟩ := Prod.mk.inj ran
      exact .inl ⟨rfl, present, rfl, rfl⟩
  · obtain ⟨served, mode⟩ := finish_clean ran clean
    exact .inr (.inr ⟨mode, served⟩)

theorem assigns_context (conn : ValidationPlug.Conn DateTime) :
    ∃ name value, validComponentContext lib conn = some (conn.assign name value) :=
  ⟨_, _, ValidationPlug.validComponentContext_eq lib conn⟩

theorem assigns_level (conn : ValidationPlug.Conn DateTime) :
    ∃ name value, validConfigurationLevel lib conn = some (conn.assign name value) :=
  ⟨_, _, ValidationPlug.validConfigurationLevel_eq lib conn⟩

theorem component_present_iff : getComponentRequest lib s c = .ok ↔
    lib.downcase c.os ∈ sensorOs ∧ ∃ id row, getComponent s c.filter = .found id row := by
  have plugs : ∀ plug ∈ [validComponentContext lib], ∀ conn, ∃ name value,
      plug conn = some (conn.assign name value) :=
    List.forall_mem_singleton.mpr assigns_context
  rw [getComponentRequest, guarded_eq rfl plugs]
  constructor
  · intro present
    split_ifs at present with allowed
    refine ⟨allowed, ?_⟩
    split at present
    · next id row found => exact ⟨id, row, found⟩
    · cases present
  · rintro ⟨allowed, id, row, found⟩
    rw [if_pos allowed, found]

theorem configuration_present_iff : getConfigurationRequest lib s c v = .ok ↔
    lib.downcase c.os ∈ sensorOs ∧ ∃ id row own configuration, getComponent s c.filter = .found id row ∧
      getConfiguration s id v.filter = .found own configuration := by
  have plugs : ∀ plug ∈ [validComponentContext lib, validConfigurationLevel lib], ∀ conn, ∃ name value,
      plug conn = some (conn.assign name value) :=
    List.forall_mem_cons.mpr ⟨assigns_context, List.forall_mem_singleton.mpr assigns_level⟩
  rw [getConfigurationRequest, guarded_eq rfl plugs]
  constructor
  · intro present
    split_ifs at present with allowed
    refine ⟨allowed, ?_⟩
    split at present
    · next id row found =>
      split at present
      · next own configuration known => exact ⟨id, row, own, configuration, found, known⟩
      · cases present
      · cases present
    · cases present
  · rintro ⟨allowed, id, row, own, configuration, found, known⟩
    simp only [if_pos allowed, found, known]

def Item.Stored (s : Store) : Item → Prop
  | .component c => ∃ id row, getComponent s c.filter = .found id row
  | .configuration c v => ∃ id row own configuration, getComponent s c.filter = .found id row ∧
      getConfiguration s id v.filter = .found own configuration ∧ v.Holds configuration

def Item.Touches (s : Store) : Item → Configuration → Prop
  | .component _, _ => False
  | .configuration c v, row =>
    ∃ id component, getComponent s c.filter = .found id component ∧ row.key = some (id, v.level, v.version)

structure Loadable (s : Store) : Prop where
  keyed : Keyed s
  systems : SystemsKnown s

variable {item : Item}

theorem Loadable.allowed (loadable : Loadable s) {row : Component}
    (found : getComponent s c.filter = .found id row) : lib.downcase c.os ∈ sensorOs := by
  obtain ⟨stored, key⟩ := of_component_found found
  have known := loadable.systems _ stored
  obtain ⟨-, -, same⟩ : row.name = c.name ∧ row.context = c.context ∧ row.os = c.os := by
    simpa [Component.key, Collection.key] using key
  dsimp only at known
  rw [same] at known
  have lower : lib.downcase c.os = c.os := ValidationPlug.downcase_sensorOs lib c.os known
  rw [lower]
  exact known

theorem Loadable.serve (loadable : Loadable s) {request : ConfigurationsRequest} (free : KeyFree s request) :
    Loadable (request.serve s).1 :=
  ⟨loadable.keyed.serve free, loadable.systems.serve request⟩

theorem keyFree_creates (settled : item.KeySettled) : KeyFree s item.creates := by
  have given {sent : String} (kept : Settled sent) : ∀ text, some sent = some text → Settled text :=
    fun _ same => Option.some.inj same ▸ kept
  cases item with
  | component c => exact fun _ _ => .inl ⟨given settled.name, given settled.context, given settled.os⟩
  | configuration c v => exact fun _ _ _ _ _ => .inl ⟨given settled.2.level, given settled.2.version⟩

theorem keyFree_updates (item : Item) : KeyFree s item.updates := by
  cases item <;> trivial

theorem present_keeps (keeps : Keeps touched s t) (keyed : Keyed t) (present : item.get lib s = .ok) :
    item.get lib t = .ok := by
  cases item with
  | component c =>
    obtain ⟨allowed, id, row, found⟩ := component_present_iff.mp present
    exact component_present_iff.mpr ⟨allowed, id, keeps.component_found keyed found⟩
  | configuration c v =>
    obtain ⟨allowed, id, row, own, configuration, found, known⟩ := configuration_present_iff.mp present
    obtain ⟨after, there⟩ := keeps.component_found keyed found
    obtain ⟨later, here, -⟩ := keeps.configuration_found keyed known
    exact configuration_present_iff.mpr ⟨allowed, id, after, own, later, there, here⟩

theorem Loadable.update (loadable : Loadable s) (settled : item.KeySettled) (present : item.get lib s = .ok)
    (served : item.updates.serve s = (t, .ok)) :
    Loadable t ∧ Keeps (item.Touches s) s t ∧ item.get lib t = .ok ∧ item.Stored t := by
  have after : Loadable t := by
    have kept := loadable.serve (keyFree_updates item)
    rwa [served] at kept
  suffices kept : Keeps (item.Touches s) s t ∧ item.Stored t from
    ⟨after, kept.1, present_keeps kept.1 after.keyed present, kept.2⟩
  cases item with
  | component c =>
    obtain ⟨id, before, changed, row, found, valid, stored, rest⟩ := updateComponent_ok (congrArg Prod.snd served)
    obtain rfl := rest.symm.trans (congrArg Prod.fst served)
    obtain ⟨there, key⟩ := of_component_found (c := c) found
    have keeps : Keeps (Item.Touches s (.component c)) s _ :=
      keeps_updateComponent _ there ((component_stored settled valid stored).trans key.symm)
    exact ⟨keeps, id, keeps.component_found after.keyed found⟩
  | configuration c v =>
    obtain ⟨id, component, own, before, changed, row, found, known, valid, stored, rest⟩ :=
      updateConfiguration_ok (congrArg Prod.snd served)
    obtain rfl := rest.symm.trans (congrArg Prod.fst served)
    obtain ⟨there, key⟩ := of_configuration_found (v := v) known
    have owner : before.componentId = id := by
      have keys := key
      simp only [Configuration.key, Option.some.injEq, Prod.mk.injEq] at keys
      exact keys.1
    have same : row.key = some (id, v.level, v.version) := owner ▸ configuration_stored settled.2 valid stored
    have keeps : Keeps (Item.Touches s (.configuration c v)) s _ :=
      keeps_updateConfiguration there (same.trans key.symm) ⟨id, component, found, key⟩
    obtain ⟨again, still⟩ := keeps.component_found after.keyed found
    have stands : (own, row) ∈ (s.configurations.update own fun _ => row).rows :=
      Table.mem_update.mpr ⟨before, there, (if_pos rfl).symm⟩
    exact ⟨keeps, id, again, own, row, still, configuration_found after.keyed stands same,
      configuration_holds valid stored⟩

theorem Loadable.create (loadable : Loadable s) (settled : item.KeySettled)
    (served : item.creates.serve s = (t, .ok)) :
    Loadable t ∧ Keeps (item.Touches s) s t ∧ item.get lib t = .ok ∧ item.Stored t := by
  have after : Loadable t := by
    have kept := loadable.serve (keyFree_creates settled)
    rwa [served] at kept
  cases item with
  | component c =>
    obtain ⟨row, nothing, made, rest⟩ := createComponent_ok (congrArg Prod.snd served)
    obtain rfl := rest.symm.trans (congrArg Prod.fst served)
    obtain ⟨changed, valid, stored⟩ := Option.bind_eq_some_iff.mp made
    have there : (s.components.next, row) ∈ (s.components.insert row).rows := Table.mem_insert.mpr (.inr rfl)
    have found := component_found after.keyed there (component_stored settled valid stored)
    exact ⟨after, keeps_insertComponent _ row, component_present_iff.mpr ⟨after.allowed found, _, row, found⟩,
      _, row, found⟩
  | configuration c v =>
    obtain ⟨id, component, row, found, nothing, made, rest⟩ :=
      createConfiguration_ok (congrArg Prod.snd served)
    obtain rfl := rest.symm.trans (congrArg Prod.fst served)
    obtain ⟨changed, valid, stored⟩ := Option.bind_eq_some_iff.mp made
    have keeps : Keeps (Item.Touches s (.configuration c v)) s _ := keeps_insertConfiguration _ row
    obtain ⟨again, still⟩ := keeps.component_found after.keyed (c := c) found
    have there : (s.configurations.next, row) ∈ (s.configurations.insert row).rows :=
      Table.mem_insert.mpr (.inr rfl)
    have known := configuration_found after.keyed there (configuration_stored settled.2 valid stored)
    exact ⟨after, keeps, configuration_present_iff.mpr ⟨after.allowed still, id, again, _, row, still, known⟩,
      id, again, _, row, still, known, configuration_holds valid stored⟩

theorem Loadable.install (loadable : Loadable s) (settled : item.KeySettled) {update : Bool} {answer : Answer}
    (ran : item.install lib update s = (t, answer)) (clean : answer ≠ .error) :
    Loadable t ∧ Keeps (item.Touches s) s t ∧ item.get lib t = .ok ∧ (update = true → item.Stored t) := by
  rcases install_cases ran clean with ⟨-, present, same, rfl⟩ | ⟨-, present, -, served⟩ | ⟨-, served⟩
  · refine ⟨loadable, .refl _ _, present, fun updated => ?_⟩
    rw [updated] at same
    cases same
  · obtain ⟨after, keeps, there, stored⟩ := loadable.update settled present served
    exact ⟨after, keeps, there, fun _ => stored⟩
  · obtain ⟨after, keeps, there, stored⟩ := loadable.create settled served
    exact ⟨after, keeps, there, fun _ => stored⟩

end Steps

section Loads

variable {update : Bool} {answers : List Answer}

theorem installAll_cons {item : Item} {rest : List Item}
    (ran : installAll lib update s (item :: rest) = (t, answers)) :
    ∃ between answer others, item.install lib update s = (between, answer) ∧
      installAll lib update between rest = (t, others) ∧ answers = answer :: others := by
  obtain ⟨rfl, rfl⟩ := Prod.mk.inj ran
  exact ⟨_, _, _, rfl, rfl, rfl⟩

theorem installAll_append (first rest : List Item) :
    installAll lib update s (first ++ rest) =
      ((installAll lib update (installAll lib update s first).1 rest).1,
        (installAll lib update s first).2 ++ (installAll lib update (installAll lib update s first).1 rest).2) := by
  induction first generalizing s with
  | nil => rfl
  | cons item first ih => simp only [List.cons_append, installAll, ih]

theorem of_installAll_append {first rest : List Item}
    (ran : installAll lib update s (first ++ rest) = (t, answers)) :
    ∃ between early late, installAll lib update s first = (between, early) ∧
      installAll lib update between rest = (t, late) ∧ answers = early ++ late := by
  rw [installAll_append] at ran
  obtain ⟨rfl, rfl⟩ := Prod.mk.inj ran
  exact ⟨_, _, _, rfl, rfl, rfl⟩

theorem load_eq (collections : List Collection) :
    load lib update s collections = installAll lib update s (collections.flatMap Collection.items) := by
  induction collections generalizing s with
  | nil => rfl
  | cons c rest ih =>
    rw [List.flatMap_cons, installAll_append, ← ih]
    rfl

theorem settled_items {collections : List Collection} :
    (∀ item ∈ collections.flatMap Collection.items, item.KeySettled) ↔ ∀ c ∈ collections, c.Settled := by
  simp only [List.mem_flatMap, Collection.items]
  constructor
  · intro settled c member
    have component : c.KeySettled := settled (.component c) ⟨c, member, List.mem_cons_self⟩
    refine ⟨component, fun v listed => ?_⟩
    exact (settled (.configuration c v) ⟨c, member, List.mem_cons_of_mem _ (List.mem_map.mpr ⟨v, listed, rfl⟩)⟩).2
  · rintro settled item ⟨c, member, listed⟩
    rcases List.mem_cons.mp listed with rfl | listed
    · exact (settled c member).component
    · obtain ⟨v, variant, rfl⟩ := List.mem_map.mp listed
      exact ⟨(settled c member).component, (settled c member).variants v variant⟩

theorem Keeps.everything {touched : Configuration → Prop} (keeps : Keeps touched s t) :
    Keeps (fun _ => True) s t where
  components := keeps.components
  configurations own row stored := by
    obtain ⟨after, there, key, -⟩ := keeps.configurations own row stored
    exact ⟨after, there, key, fun untouched => absurd trivial untouched⟩

theorem Keeps.trans {u : Store} (first : Keeps (fun _ => True) s t) (second : Keeps (fun _ => True) t u) :
    Keeps (fun _ => True) s u where
  components id row stored := by
    obtain ⟨between, there, key⟩ := first.components id row stored
    obtain ⟨after, last, same⟩ := second.components id between there
    exact ⟨after, last, same.trans key⟩
  configurations own row stored := by
    obtain ⟨between, there, key, -⟩ := first.configurations own row stored
    obtain ⟨after, last, same, -⟩ := second.configurations own between there
    exact ⟨after, last, same.trans key, fun untouched => absurd trivial untouched⟩

theorem Loadable.installAll (loadable : Loadable s) {items : List Item}
    (settled : ∀ item ∈ items, item.KeySettled) (ran : installAll lib update s items = (t, answers))
    (clean : .error ∉ answers) :
    Loadable t ∧ Keeps (fun _ => True) s t ∧ ∀ item ∈ items, item.get lib t = .ok := by
  induction items generalizing s answers with
  | nil =>
    obtain ⟨rfl, -⟩ := Prod.mk.inj ran
    exact ⟨loadable, .refl _ _, nofun⟩
  | cons item rest ih =>
    obtain ⟨between, answer, others, installed, ranRest, rfl⟩ := installAll_cons ran
    obtain ⟨first, cleanRest⟩ := not_or.mp (mt List.mem_cons.mpr clean)
    obtain ⟨own, settledRest⟩ := List.forall_mem_cons.mp settled
    obtain ⟨next, keeps, present, -⟩ := loadable.install own installed (Ne.symm first)
    obtain ⟨last, keepsRest, presents⟩ := ih next settledRest ranRest cleanRest
    refine ⟨last, keeps.everything.trans keepsRest, ?_⟩
    exact List.forall_mem_cons.mpr ⟨present_keeps keepsRest last.keyed present, presents⟩

theorem installAll_finds_iff {items : List Item} :
    installAll lib false s items = (s, items.map fun _ => .alreadyExists) ↔ ∀ item ∈ items, item.get lib s = .ok := by
  induction items with
  | nil => exact iff_of_true rfl nofun
  | cons item rest ih =>
    rw [List.forall_mem_cons]
    constructor
    · intro ran
      obtain ⟨between, answer, others, installed, ranRest, same⟩ := installAll_cons ran
      obtain ⟨rfl, rfl⟩ := List.cons.inj same
      rcases install_cases installed nofun with ⟨-, present, -, rfl⟩ | ⟨other, -⟩ | ⟨other, -⟩
      · exact ⟨present, ih.mp ranRest⟩
      · cases other
      · cases other
    · rintro ⟨present, presents⟩
      have installed : item.install lib false s = (s, .alreadyExists) := by
        rw [install_eq, present]
        rfl
      simp only [ConfigurationLoader.installAll, installed, ih.mpr presents, List.map_cons]

structure RowsSettled (s : Store) : Prop where
  components : ∀ entry ∈ s.components.rows, entry.2.Settled
  configurations : ∀ entry ∈ s.configurations.rows, entry.2.Settled

theorem RowsSettled.install (rows : RowsSettled s) {item : Item} {answer : Answer}
    (ran : item.install lib false s = (t, answer)) (clean : answer ≠ .error) : RowsSettled t := by
  rcases install_cases ran clean with ⟨-, -, -, rfl⟩ | ⟨-, -, update, -⟩ | ⟨-, served⟩
  · exact rows
  · cases update
  · cases item with
    | component c =>
      obtain ⟨row, -, made, rest⟩ := createComponent_ok (congrArg Prod.snd served)
      obtain rfl := rest.symm.trans (congrArg Prod.fst served)
      refine ⟨fun entry member => ?_, rows.configurations⟩
      rcases Table.mem_insert.mp member with member | rfl
      · exact rows.components entry member
      · exact (ComponentParams.row_eq_some made).2
    | configuration c v =>
      obtain ⟨id, component, row, -, -, made, rest⟩ := createConfiguration_ok (congrArg Prod.snd served)
      obtain rfl := rest.symm.trans (congrArg Prod.fst served)
      refine ⟨rows.components, fun entry member => ?_⟩
      rcases Table.mem_insert.mp member with member | rfl
      · exact rows.configurations entry member
      · exact (ConfigurationParams.row_eq_some made).2

theorem RowsSettled.installAll (rows : RowsSettled s) {items : List Item}
    (ran : ConfigurationLoader.installAll lib false s items = (t, answers)) (clean : .error ∉ answers) :
    RowsSettled t := by
  induction items generalizing s answers with
  | nil =>
    obtain ⟨rfl, -⟩ := Prod.mk.inj ran
    exact rows
  | cons item rest ih =>
    obtain ⟨between, answer, others, installed, ranRest, rfl⟩ := installAll_cons ran
    obtain ⟨first, cleanRest⟩ := not_or.mp (mt List.mem_cons.mpr clean)
    exact ih (rows.install installed (Ne.symm first)) ranRest cleanRest

theorem RowsSettled.settled (rows : RowsSettled s) {item : Item} (present : item.get lib s = .ok) :
    item.KeySettled := by
  have component {c : Collection} {id : Nat} {row : Component} (found : getComponent s c.filter = .found id row) :
      c.KeySettled := by
    obtain ⟨stored, key⟩ := of_component_found found
    obtain ⟨name, context, os⟩ := rows.components _ stored
    simp only [Component.key, Collection.key, Option.some.injEq, Prod.mk.injEq] at key
    exact ⟨key.1 ▸ name, key.2.1 ▸ context, key.2.2 ▸ os⟩
  cases item with
  | component c =>
    obtain ⟨-, id, row, found⟩ := component_present_iff.mp present
    exact component found
  | configuration c v =>
    obtain ⟨-, id, row, own, configuration, found, known⟩ := configuration_present_iff.mp present
    obtain ⟨stored, key⟩ := of_configuration_found known
    obtain ⟨level, version⟩ := rows.configurations _ stored
    simp only [Configuration.key, Option.some.injEq, Prod.mk.injEq] at key
    exact ⟨component found, key.2.1 ▸ level, key.2.2 ▸ version⟩

theorem loadable_of_served {requests : List ConfigurationsRequest} (served : configurationsMachine.run requests = some s)
    (free : configurationsMachine.Throughout KeyFree requests) : Loadable s := by
  have empty : Loadable configurationsMachine.initial := ⟨⟨Table.unique_empty, Table.unique_empty, nofun, nofun⟩, nofun⟩
  refine configurationsMachine.invariant_of_throughout empty ?_ served free
  intro s request t loadable moved free
  obtain rfl := Option.some.inj moved
  exact loadable.serve free

/-- A load without errors can be repeated: the second one finds everything and changes nothing, exactly
when each name, context, system, level and version in the collections is stored as it is sent. -/
theorem reload_finds_all_iff {requests : List ConfigurationsRequest} {collections : List Collection}
    (served : configurationsMachine.run requests = some s)
    (free : configurationsMachine.Throughout KeyFree requests)
    (loaded : load lib false s collections = (t, answers)) (clean : .error ∉ answers) :
    load lib false t collections = (t, (collections.flatMap Collection.items).map fun _ => .alreadyExists) ↔
      ∀ c ∈ collections, c.Settled := by
  have loadable := loadable_of_served served free
  rw [load_eq] at loaded ⊢
  rw [installAll_finds_iff, ← settled_items]
  constructor
  · intro present item member
    have rows : RowsSettled s := ⟨loadable.keyed.settledComponents, loadable.keyed.settledConfigurations⟩
    exact (rows.installAll loaded clean).settled (present item member)
  · intro settled
    exact (loadable.installAll settled loaded clean).2.2

/-- A listing that is not followed by another one of the same configuration. -/
structure LastListing (items : List Item) (c : Collection) (v : Variant) (before after : List Item) : Prop where
  split : items = before ++ .configuration c v :: after
  last : ∀ other w, .configuration other w ∈ after → (other.key, w.level, w.version) ≠ (c.key, v.level, v.version)

theorem stored_keeps {item : Item} {c : Collection} {v : Variant} (loadable : Loadable t)
    (keeps : Keeps (item.Touches s) s t)
    (differs : ∀ other w, item = .configuration other w →
      (other.key, w.level, w.version) ≠ (c.key, v.level, v.version))
    (stored : Item.Stored s (.configuration c v)) : Item.Stored t (.configuration c v) := by
  obtain ⟨id, row, own, configuration, found, known, holds⟩ := stored
  obtain ⟨again, there⟩ := keeps.component_found loadable.keyed found
  obtain ⟨after, here, untouched⟩ := keeps.configuration_found loadable.keyed known
  have spared : ¬ item.Touches s configuration := by
    cases item with
    | component other => exact not_false
    | configuration other w =>
      rintro ⟨otherId, component, foundOther, key⟩
      obtain ⟨storedOther, keyOther⟩ := of_component_found foundOther
      obtain ⟨storedOwn, keyOwn⟩ := of_component_found found
      obtain ⟨rfl, level, version⟩ : id = otherId ∧ v.level = w.level ∧ v.version = w.version := by
        simpa using (of_configuration_found known).2.symm.trans key
      obtain ⟨-, rfl⟩ := Prod.mk.inj (Table.eq_of_id storedOther storedOwn rfl)
      have same := Option.some.inj (keyOther.symm.trans keyOwn)
      exact differs other w rfl (by rw [same, level, version])
  obtain rfl := untouched spared
  exact ⟨id, again, own, after, there, here, holds⟩

theorem Loadable.stored_after (loadable : Loadable s) {c : Collection} {v : Variant} {items : List Item}
    (settled : ∀ item ∈ items, item.KeySettled)
    (last : ∀ other w, .configuration other w ∈ items →
      (other.key, w.level, w.version) ≠ (c.key, v.level, v.version))
    (ran : ConfigurationLoader.installAll lib update s items = (t, answers)) (clean : .error ∉ answers)
    (stored : Item.Stored s (.configuration c v)) : Item.Stored t (.configuration c v) := by
  induction items generalizing s answers with
  | nil =>
    obtain ⟨rfl, -⟩ := Prod.mk.inj ran
    exact stored
  | cons item rest ih =>
    obtain ⟨between, answer, others, installed, ranRest, rfl⟩ := installAll_cons ran
    obtain ⟨first, cleanRest⟩ := not_or.mp (mt List.mem_cons.mpr clean)
    obtain ⟨own, settledRest⟩ := List.forall_mem_cons.mp settled
    obtain ⟨next, keeps, -, -⟩ := loadable.install own installed (Ne.symm first)
    have still : Item.Stored between (.configuration c v) :=
      stored_keeps next keeps (fun other w same => last other w (same ▸ List.mem_cons_self)) stored
    exact ih next settledRest (fun other w member => last other w (List.mem_cons_of_mem _ member)) ranRest
      cleanRest still

/-- After a load without errors that updates, each configuration holds what the last of its listings
has: the text of its source, its format and its description. -/
theorem update_stores_last {requests : List ConfigurationsRequest} {collections : List Collection}
    (served : configurationsMachine.run requests = some s)
    (free : configurationsMachine.Throughout KeyFree requests) (settled : ∀ c ∈ collections, c.Settled)
    (loaded : load lib true s collections = (t, answers)) (clean : .error ∉ answers)
    {c : Collection} {v : Variant} {before after : List Item}
    (listing : LastListing (collections.flatMap Collection.items) c v before after) :
    Item.Stored t (.configuration c v) := by
  have loadable := loadable_of_served served free
  rw [← settled_items] at settled
  obtain ⟨split, last⟩ := listing
  rw [load_eq, split] at loaded
  rw [split] at settled
  obtain ⟨between, early, late, ranFirst, ranRest, rfl⟩ := of_installAll_append loaded
  obtain ⟨cleanFirst, cleanRest⟩ := not_or.mp (mt List.mem_append.mpr clean)
  obtain ⟨settledFirst, settledRest⟩ := List.forall_mem_append.mp settled
  obtain ⟨own, settledAfter⟩ := List.forall_mem_cons.mp settledRest
  obtain ⟨there, -, -⟩ := loadable.installAll settledFirst ranFirst cleanFirst
  obtain ⟨next, answer, others, installed, ranAfter, rfl⟩ := installAll_cons ranRest
  obtain ⟨first, cleanAfter⟩ := not_or.mp (mt List.mem_cons.mpr cleanRest)
  obtain ⟨kept, -, -, stored⟩ := there.install own installed (Ne.symm first)
  exact kept.stored_after settledAfter last ranAfter cleanAfter (stored rfl)

end Loads

section Sample

def sampleElixir : ValidationPlug.Elixir Unit := ⟨fun _ => none, (), fun _ => "", fun c => [c]⟩

def lsofVariant : Variant := ⟨"default", "latest", "json", "", "\x7b\"repeat-interval\":15\x7d"⟩

def lsofCollection : Collection := ⟨"lsof", "linux", "virtue", "", [⟨"off", "latest", "json", "", ""⟩, lsofVariant]⟩

theorem lsof_settled : ∀ c ∈ [lsofCollection], c.Settled := by
  refine List.forall_mem_singleton.mpr ⟨⟨by decide, by decide, by decide⟩, ?_⟩
  exact List.forall_mem_cons.mpr ⟨⟨by decide, by decide⟩, List.forall_mem_singleton.mpr ⟨by decide, by decide⟩⟩

theorem lsof_reload : ∃ t, load sampleElixir false configurationsMachine.initial [lsofCollection] =
      (t, [.created, .created, .created]) ∧
    (load sampleElixir false t [lsofCollection] =
        (t, ([lsofCollection].flatMap Collection.items).map fun _ => .alreadyExists) ↔
      ∀ c ∈ [lsofCollection], c.Settled) := by
  obtain ⟨t, loaded⟩ : ∃ t, load sampleElixir false configurationsMachine.initial [lsofCollection] =
      (t, [.created, .created, .created]) := ⟨_, rfl⟩
  have served : configurationsMachine.run [] = some configurationsMachine.initial := rfl
  exact ⟨t, loaded, reload_finds_all_iff served (Machine.throughout_nil _ _) loaded (by decide)⟩

def slowVariant : Variant := { lsofVariant with configurationContent := "\x7b\"repeat-interval\":60\x7d" }

def slowCollection : Collection := ⟨"lsof", "linux", "virtue", "", [slowVariant]⟩

def lsofTwice : List Collection := [lsofCollection, slowCollection]

theorem lsofTwice_settled : ∀ c ∈ lsofTwice, c.Settled := by
  have first := List.forall_mem_singleton.mp lsof_settled
  have again : slowCollection.KeySettled := ⟨first.component.name, first.component.context, first.component.os⟩
  refine List.forall_mem_cons.mpr ⟨first, List.forall_mem_singleton.mpr ⟨again, ?_⟩⟩
  exact List.forall_mem_singleton.mpr ⟨by decide, by decide⟩

theorem lsof_stores_last : ∃ t, load sampleElixir true configurationsMachine.initial lsofTwice =
      (t, [.created, .created, .created, .updated, .updated]) ∧
    Item.Stored t (.configuration slowCollection slowVariant) := by
  obtain ⟨t, loaded⟩ : ∃ t, load sampleElixir true configurationsMachine.initial lsofTwice =
      (t, [.created, .created, .created, .updated, .updated]) := ⟨_, rfl⟩
  have served : configurationsMachine.run [] = some configurationsMachine.initial := rfl
  have listing : LastListing (lsofTwice.flatMap Collection.items) slowCollection slowVariant
      (lsofCollection.items ++ [.component slowCollection]) [] := ⟨rfl, nofun⟩
  exact ⟨t, loaded, update_stores_last served (Machine.throughout_nil _ _) lsofTwice_settled loaded (by decide)
    listing⟩

end Sample

end ConfigurationLoader

end VirtueSensing.Api
