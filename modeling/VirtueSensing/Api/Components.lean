import VirtueSensing.Shared.Machine
import VirtueSensing.Shared.Table

set_option autoImplicit false

/-!
# Components and their configurations

`ApiServer.Component`, `ApiServer.Configuration` and the requests of
`ApiServer.ConfigurationsController` that write to their tables.
-/

namespace VirtueSensing.Api

-- The white space that `String.trim_leading` takes off.
def isWhiteSpace (c : Char) : Bool :=
  [0x20, 0x85, 0xa0, 0x1680, 0x2028, 0x2029, 0x202f, 0x205f, 0x3000].contains c.toNat ||
    (9 ≤ c.toNat && c.toNat ≤ 13) || (0x2000 ≤ c.toNat && c.toNat ≤ 0x200a)

def blank (text : String) : Bool :=
  text.toList.all isWhiteSpace

/-- What a `varchar(255)` column stores. Spaces beyond its length are dropped without an error, any
other text that is too long is refused, and so is a zero byte. -/
def varchar (text : String) : Option String :=
  if '\x00' ∈ text.toList then none
  else if text.length ≤ 255 then some text
  else if (text.toList.drop 255).all (· = ' ') then some (String.ofList (text.toList.take 255))
  else none

-- A cast parameter. An empty string stands for the default of the field.
def castText (fallback current : String) : Option String → String
  | none => current
  | some text => if text = "" then fallback else text

structure Component where
  name : String
  context : String
  os : String
  description : String
  deriving DecidableEq, Repr

structure Configuration where
  componentId : Nat
  level : String
  version : String
  configuration : String
  format : String
  description : String
  deriving DecidableEq, Repr

structure ComponentParams where
  name : Option String
  context : Option String
  os : Option String
  description : Option String
  deriving DecidableEq, Repr

structure ConfigurationParams where
  level : Option String
  version : Option String
  configuration : Option String
  format : Option String
  description : Option String
  deriving DecidableEq, Repr

def contexts : List String := ["virtue", "unikernel", "hypervisor"]
def sensorOs : List String := ["linux", "windows", "nt", "rump"]
def levels : List String := ["off", "default", "low", "high", "adversarial"]

-- `validate_inclusion` looks at a field only where the cast changed it.
def included (allowed : List String) (before after : String) : Bool :=
  after = before || allowed.contains after

-- `%ApiServer.Component{}`; its missing name is the empty string here.
def Component.new : Component := ⟨"", "virtue", "linux", ""⟩

def Configuration.new (componentId : Nat) : Configuration :=
  ⟨componentId, "default", "latest", "\x7b\x7d", "json", ""⟩

def Component.changeset (component : Component) (params : ComponentParams) : Option Component :=
  let changed : Component :=
    { name := castText Component.new.name component.name params.name
      context := castText Component.new.context component.context params.context
      os := castText Component.new.os component.os params.os
      description := castText Component.new.description component.description params.description }
  if included contexts component.context changed.context ∧ included sensorOs component.os changed.os ∧
      !blank changed.name ∧ !blank changed.context ∧ !blank changed.os
  then some changed
  else none

def Configuration.changeset (configuration : Configuration) (params : ConfigurationParams) :
    Option Configuration :=
  let new := Configuration.new configuration.componentId
  let changed : Configuration :=
    { configuration with
      level := castText new.level configuration.level params.level
      version := castText new.version configuration.version params.version
      configuration := castText new.configuration configuration.configuration params.configuration
      format := castText new.format configuration.format params.format
      description := castText new.description configuration.description params.description }
  if included levels configuration.level changed.level ∧ !blank changed.level then some changed
  else none

-- The columns as the database keeps them; `none` where it raises.
def Component.store (component : Component) : Option Component := do
  return ⟨← varchar component.name, ← varchar component.context, ← varchar component.os,
    ← varchar component.description⟩

def Configuration.store (c : Configuration) : Option Configuration := do
  return ⟨c.componentId, ← varchar c.level, ← varchar c.version, ← varchar c.configuration,
    ← varchar c.format, ← varchar c.description⟩

structure Store where
  components : Table Component
  configurations : Table Configuration

def agrees (value : Option String) (column : String) : Bool :=
  value.all fun given => given = column

-- The `where` of `get_component`, over the parameters that a request has.
def ComponentParams.selects (params : ComponentParams) (component : Component) : Bool :=
  agrees params.name component.name && agrees params.context component.context &&
    agrees params.os component.os

def getComponent (s : Store) (params : ComponentParams) : Lookup Component :=
  s.components.lookup params.selects

def ConfigurationParams.selects (params : ConfigurationParams) (componentId : Nat)
    (configuration : Configuration) : Bool :=
  configuration.componentId = componentId &&
    configuration.version = params.version.getD "latest" &&
    configuration.level = params.level.getD "default"

-- `Repo.one` raises on several rows.
def getConfiguration (s : Store) (componentId : Nat) (params : ConfigurationParams) :
    Lookup Configuration :=
  s.configurations.lookup (params.selects componentId)

inductive Outcome where
  | ok
  | badRequest
  | raised
  deriving DecidableEq, Repr

def createComponent (s : Store) (params : ComponentParams) : Store × Outcome :=
  match getComponent s params with
  | .noMatches =>
    match Component.new.changeset params with
    | some component =>
      match component.store with
      | some row => ({ s with components := s.components.insert row }, .ok)
      | none => (s, .raised)
    | none => (s, .badRequest)
  | _ => (s, .badRequest)

def updateComponent (s : Store) (params : ComponentParams) : Store × Outcome :=
  match getComponent s params with
  | .found id component =>
    match component.changeset params with
    | some changed =>
      match changed.store with
      | some row => ({ s with components := s.components.update id fun _ => row }, .ok)
      | none => (s, .raised)
    | none => (s, .badRequest)
  | _ => (s, .badRequest)

/-- The configurations of a component go with it. The database refuses where a sensor refers to one of
the rows. -/
def deleteComponent (s : Store) (params : ComponentParams) (refused : Bool) : Store × Outcome :=
  match getComponent s params with
  | .found id _ =>
    if refused then (s, .raised)
    else
      ({ components := s.components.delete id
         configurations := s.configurations.deleteWhere fun row => row.componentId = id }, .ok)
  | _ => (s, .badRequest)

def createConfiguration (s : Store) (component : ComponentParams) (params : ConfigurationParams) :
    Store × Outcome :=
  match getComponent s component with
  | .found componentId _ =>
    match getConfiguration s componentId params with
    | .noMatches =>
      match (Configuration.new componentId).changeset params with
      | some configuration =>
        match configuration.store with
        | some row => ({ s with configurations := s.configurations.insert row }, .ok)
        | none => (s, .raised)
      | none => (s, .badRequest)
    | .found _ _ => (s, .badRequest)
    | .multipleMatches => (s, .raised)
  | _ => (s, .badRequest)

def updateConfiguration (s : Store) (component : ComponentParams) (params : ConfigurationParams) :
    Store × Outcome :=
  match getComponent s component with
  | .found componentId _ =>
    match getConfiguration s componentId params with
    | .found id configuration =>
      match configuration.changeset params with
      | some changed =>
        match changed.store with
        | some row => ({ s with configurations := s.configurations.update id fun _ => row }, .ok)
        | none => (s, .raised)
      | none => (s, .badRequest)
    | .noMatches => (s, .badRequest)
    | .multipleMatches => (s, .raised)
  | _ => (s, .badRequest)

def deleteConfiguration (s : Store) (component : ComponentParams) (params : ConfigurationParams)
    (refused : Bool) : Store × Outcome :=
  match getComponent s component with
  | .found componentId _ =>
    match getConfiguration s componentId params with
    | .found id _ =>
      if refused then (s, .raised)
      else ({ s with configurations := s.configurations.delete id }, .ok)
    | .noMatches => (s, .badRequest)
    | .multipleMatches => (s, .raised)
  | _ => (s, .badRequest)

inductive ConfigurationsRequest where
  | createComponent (params : ComponentParams)
  | updateComponent (params : ComponentParams)
  | deleteComponent (params : ComponentParams) (refused : Bool)
  | createConfiguration (component : ComponentParams) (params : ConfigurationParams)
  | updateConfiguration (component : ComponentParams) (params : ConfigurationParams)
  | deleteConfiguration (component : ComponentParams) (params : ConfigurationParams) (refused : Bool)

def ConfigurationsRequest.serve (s : Store) : ConfigurationsRequest → Store × Outcome
  | .createComponent params => Api.createComponent s params
  | .updateComponent params => Api.updateComponent s params
  | .deleteComponent params refused => Api.deleteComponent s params refused
  | .createConfiguration component params => Api.createConfiguration s component params
  | .updateConfiguration component params => Api.updateConfiguration s component params
  | .deleteConfiguration component params refused =>
    Api.deleteConfiguration s component params refused

def configurationsMachine : Machine Store ConfigurationsRequest where
  initial := ⟨.empty, .empty⟩
  step s request := some (request.serve s).1

end VirtueSensing.Api
