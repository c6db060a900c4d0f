import VirtueSensing.Api.ComponentKeys
import VirtueSensing.Api.ValidationPlug

set_option autoImplicit false

/-!
# Loading configurations

`load_sensor_configurations.py`, which installs collections of configurations through the requests of
`ApiServer.ConfigurationsController`.
-/

namespace VirtueSensing.Api.ConfigurationLoader

open ValidationPlug (Elixir Plug RequestParams pipe)

/-- An entry of a collection with the text of its source. -/
structure Variant where
  level : String
  version : String
  format : String
  description : String
  configurationContent : String
  deriving DecidableEq, Repr

/-- A `sensor_configurations.json`. -/
structure Collection where
  name : String
  os : String
  context : String
  description : String
  configurations : List Variant
  deriving DecidableEq, Repr

def Collection.filter (c : Collection) : ComponentParams := ⟨some c.name, some c.context, some c.os, none⟩

def Collection.params (c : Collection) : ComponentParams :=
  ⟨some c.name, some c.context, some c.os, some c.description⟩

def Variant.filter (v : Variant) : ConfigurationParams := ⟨some v.level, some v.version, none, none, none⟩

def Variant.params (v : Variant) : ConfigurationParams :=
  ⟨some v.level, some v.version, some v.configurationContent, some v.format, some v.description⟩

inductive Answer where
  | alreadyExists
  | created
  | updated
  | error
  deriving DecidableEq, Repr

section Requests

variable {DateTime : Type} (lib : Elixir DateTime)

def query (given : List (String × String)) : ValidationPlug.Conn DateTime where
  params := .ofStrings fun name => (given.lookup name).map .string
  assigns _ := none
  status := none
  sent := none
  halted := false

-- A plug that halts the connection has answered it with status 400.
def guarded (plugs : List (Plug DateTime)) (conn : ValidationPlug.Conn DateTime) (handled : Outcome) :
    Outcome :=
  match pipe plugs conn with
  | none => .raised
  | some after => if after.halted then .badRequest else handled

def Collection.query (c : Collection) : List (String × String) :=
  [("name", c.name), ("os", c.os), ("context", c.context)]

def getComponentRequest (s : Store) (c : Collection) : Outcome :=
  guarded [ValidationPlug.validComponentOs lib, ValidationPlug.validComponentContext lib] (query c.query)
    (match getComponent s c.filter with
    | .found _ _ => .ok
    | _ => .badRequest)

def getConfigurationRequest (s : Store) (c : Collection) (v : Variant) : Outcome :=
  guarded [ValidationPlug.validComponentOs lib, ValidationPlug.validComponentContext lib,
      ValidationPlug.validConfigurationLevel lib]
    (query (c.query ++ [("level", v.level), ("version", v.version)]))
    (match getComponent s c.filter with
    | .found componentId _ =>
      match getConfiguration s componentId v.filter with
      | .found _ _ => .ok
      | .noMatches => .badRequest
      | .multipleMatches => .raised
    | _ => .badRequest)

-- Any status but 200 for the second request is an error, and the loader goes on after it.
def finish (mode : Answer) (served : Store × Outcome) : Store × Answer :=
  (served.1, if served.2 = .ok then mode else .error)

def installComponent (update : Bool) (s : Store) (c : Collection) : Store × Answer :=
  match getComponentRequest lib s c with
  | .raised => (s, .error)
  | .ok => if update then finish .updated (updateComponent s c.params) else (s, .alreadyExists)
  | .badRequest => finish .created (createComponent s c.params)

def installConfiguration (update : Bool) (s : Store) (c : Collection) (v : Variant) : Store × Answer :=
  match getConfigurationRequest lib s c v with
  | .raised => (s, .error)
  | .ok => if update then finish .updated (updateConfiguration s c.filter v.params) else (s, .alreadyExists)
  | .badRequest => finish .created (createConfiguration s c.filter v.params)

inductive Item where
  | component (c : Collection)
  | configuration (c : Collection) (v : Variant)

def Item.install (update : Bool) (s : Store) : Item → Store × Answer
  | .component c => installComponent lib update s c
  | .configuration c v => installConfiguration lib update s c v

def installAll (update : Bool) : Store → List Item → Store × List Answer
  | s, [] => (s, [])
  | s, item :: rest =>
    let (t, answer) := item.install lib update s
    let (last, answers) := installAll update t rest
    (last, answer :: answers)

def Collection.items (c : Collection) : List Item :=
  .component c :: c.configurations.map (.configuration c)

def install (update : Bool) (s : Store) (c : Collection) : Store × List Answer :=
  installAll lib update s c.items

/-- The mode `install` of the loader. -/
def load (update : Bool) : Store → List Collection → Store × List Answer
  | s, [] => (s, [])
  | s, c :: rest =>
    let (t, first) := install lib update s c
    let (last, others) := load update t rest
    (last, first ++ others)

end Requests

end VirtueSensing.Api.ConfigurationLoader
