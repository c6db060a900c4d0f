import Mathlib.Data.List.Basic
import VirtueSensing.Api.Params

set_option autoImplicit false

/-!
# Targeting of API requests

`ApiServer.ExtractionPlug.extract_targeting`: the first of eleven clauses whose parameters are all
present decides which selectors a request has.
-/

namespace VirtueSensing.Api

inductive Selector where
  | virtue
  | user
  | application
  | cidr
  | address
  | resource
  | sensor
  deriving DecidableEq, Repr

inductive Key where
  | virtue
  | username
  | application
  | cidr
  | address
  | resource
  | sensor
  | virtueId
  | sensorId
  | publicKey
  | port
  deriving DecidableEq, Repr

def Selector.key : Selector → Key
  | .virtue => .virtue
  | .user => .username
  | .application => .application
  | .cidr => .cidr
  | .address => .address
  | .resource => .resource
  | .sensor => .sensor

abbrev Params := Selector → Option Json

abbrev Targeting := List (Key × Json)

/-- The CIDR package, `:inet.parse_address` and the interpolation of values into strings; `none`
where these raise. -/
structure Libraries where
  cidrParse : Json → Option Bool
  parseAddress : String → Bool
  interpolate : Json → Option String
  interpolate_string : ∀ st, interpolate (.string st) = some st

inductive Extraction where
  | targeting (selectors : Targeting)
  | halted (msg : String)
  | raised

-- A check of strings raises on any other value.
def stringCheck (check : String → Bool) : Json → Option Bool
  | .string st => some (check st)
  | _ => none

structure Part where
  selector : Selector
  name : String
  value : Json
  check : String → Bool

def virtuePart (virtue : Json) : Part := ⟨.virtue, "virtue", virtue, isVirtueId⟩
def usernamePart (username : Json) : Part := ⟨.user, "username", username, isUsername⟩
def applicationPart (application : Json) : Part :=
  ⟨.application, "application", application, isApplicationId⟩

-- The checks of a `with`, up to the first that fails.
def checkParts : List Part → Option Bool
  | [] => some true
  | part :: rest =>
    match stringCheck part.check part.value with
    | some true => checkParts rest
    | other => other

def partsMessage (lib : Libraries) (parts : List Part) (ending : String) : Option String := do
  let shown ← parts.mapM fun part => (lib.interpolate part.value).map fun text => part.name ++ " = " ++ text
  return "One or more invalid targeting selectors in [ " ++ ", ".intercalate shown ++ ending

def extractNested (lib : Libraries) (parts : List Part) (ending : String) : Extraction :=
  match checkParts parts with
  | some true => .targeting (parts.map fun part => (part.selector.key, part.value))
  | some false =>
    match partsMessage lib parts ending with
    | some msg => .halted msg
    | none => .raised
  | none => .raised

def extractSingle (selector : Selector) (check : Json → Option Bool) (msg : String) (value : Json) :
    Extraction :=
  match check value with
  | some true => .targeting [(selector.key, value)]
  | some false => .halted msg
  | none => .raised

def looksLikeIpv4 (st : String) : Bool :=
  let parts := (dropNewline st.toList).splitOn '.'
  parts.length = 4 ∧ parts.all fun part => 1 ≤ part.length ∧ part.length ≤ 3 ∧ part.all Char.isDigit

def extractAddress (lib : Libraries) : Json → Extraction
  | .string address =>
    if looksLikeIpv4 address then
      if lib.parseAddress address then .targeting [(.address, .string address)]
      else .halted "Invalid IP address supplied for targeting"
    else if isHostname address then .targeting [(.address, .string address)]
    else .halted "Invalid IP address or Hostname specified for address based targeting"
  | _ => .raised

-- The clauses in the order of the source; a request that none of them matches raises.
def extractTargeting (lib : Libraries) (params : Params) : Extraction :=
  match params .virtue, params .user, params .application, params .cidr, params .address,
    params .resource, params .sensor with
  | some virtue, some username, some application, _, _, _, _ =>
    extractNested lib [virtuePart virtue, usernamePart username, applicationPart application] " ]"
  | some virtue, some username, _, _, _, _, _ =>
    extractNested lib [virtuePart virtue, usernamePart username] "]"
  | some virtue, _, some application, _, _, _, _ =>
    extractNested lib [virtuePart virtue, applicationPart application] " ]"
  | _, some username, some application, _, _, _, _ =>
    extractNested lib [usernamePart username, applicationPart application] " ]"
  | _, _, _, some cidr, _, _, _ =>
    extractSingle .cidr lib.cidrParse "Invalid CIDR address specified" cidr
  | some virtue, _, _, _, _, _, _ =>
    extractSingle .virtue (stringCheck isVirtueId) "Invalid Virute ID (UUID) used for targeting" virtue
  | _, some username, _, _, _, _, _ => .targeting [(.username, username)]
  | _, _, _, _, some address, _, _ => extractAddress lib address
  | _, _, some application, _, _, _, _ =>
    extractSingle .application (stringCheck isApplicationId)
      "Invalid Application ID (UUID) used for targeting" application
  | _, _, _, _, _, some resource, _ =>
    extractSingle .resource (stringCheck isResourceId) "Invalid Resource ID (UUID) used for targeting"
      resource
  | _, _, _, _, _, _, some sensor =>
    extractSingle .sensor (stringCheck isSensorId) "Invalid sensor ID (UUID) used for targeting" sensor
  | _, _, _, _, _, _, _ => .raised

-- The precedence groups that the documentation lists.
def precedence : List (List Selector) :=
  [[.virtue, .user, .application], [.virtue, .user], [.virtue, .application], [.user, .application],
    [.cidr], [.virtue], [.user], [.address], [.application], [.resource], [.sensor]]

def winningGroup (params : Params) : Option (List Selector) :=
  precedence.find? fun group => group.all fun selector => (params selector).isSome

def groupTargeting (params : Params) (group : List Selector) : Targeting :=
  group.filterMap fun selector => (params selector).map fun value => (selector.key, value)

/-- The targeting is the winning group of a request with its values. Only the clauses for a user and
for a CIDR range let a value through that is no string. -/
structure Accepted (params : Params) (targeting : Targeting) (group : List Selector) : Prop where
  wins : winningGroup params = some group
  taken : targeting = groupTargeting params group
  strings : (∀ selector ∈ group, ∃ st, params selector = some (.string st)) ∨ group = [.user] ∨
    group = [.cidr]

theorem winningGroup_mem {params : Params} {group : List Selector}
    (wins : winningGroup params = some group) : group ∈ precedence :=
  List.mem_of_find?_eq_some wins

theorem winningGroup_present {params : Params} {group : List Selector}
    (wins : winningGroup params = some group) {selector : Selector} (mem : selector ∈ group) :
    ∃ value, params selector = some value := by
  have present := List.find?_some wins
  rw [List.all_eq_true] at present
  exact Option.isSome_iff_exists.mp (present selector mem)

theorem stringCheck_true {check : String → Bool} {value : Json}
    (passed : stringCheck check value = some true) : ∃ st, value = .string st := by
  unfold stringCheck at passed
  split at passed
  · next st => exact ⟨st, rfl⟩
  · simp at passed

theorem checkParts_true {parts : List Part} (passed : checkParts parts = some true) {part : Part}
    (mem : part ∈ parts) : ∃ st, part.value = .string st := by
  induction parts with
  | nil => simp at mem
  | cons first rest ih =>
    unfold checkParts at passed
    split at passed
    · next here =>
      rcases List.mem_cons.mp mem with rfl | mem
      · exact stringCheck_true here
      · exact ih passed mem
    · next other fails => exact absurd passed fails

section Clauses

variable {lib : Libraries} {params : Params} {targeting : Targeting}

theorem accepted_nested {parts : List Part} {ending : String}
    (wins : winningGroup params = some (parts.map Part.selector))
    (given : ∀ part ∈ parts, params part.selector = some part.value)
    (accepted : extractNested lib parts ending = .targeting targeting) :
    Accepted params targeting (parts.map Part.selector) := by
  unfold extractNested at accepted
  split at accepted
  · next passed =>
    injection accepted with taken
    refine ⟨wins, ?_, .inl fun selector mem => ?_⟩
    · rw [← taken, groupTargeting, List.filterMap_map, ← List.filterMap_eq_map]
      refine List.filterMap_congr fun part mem => ?_
      simp [given part mem]
    · obtain ⟨part, partMem, rfl⟩ := List.mem_map.mp mem
      obtain ⟨st, value⟩ := checkParts_true passed partMem
      exact ⟨st, (given part partMem).trans (congrArg some value)⟩
  · split at accepted <;> simp at accepted
  · simp at accepted

theorem extractSingle_targeting {selector : Selector} {check : Json → Option Bool} {msg : String}
    {value : Json} (accepted : extractSingle selector check msg value = .targeting targeting) :
    targeting = [(selector.key, value)] ∧ check value = some true := by
  unfold extractSingle at accepted
  split at accepted
  · next passed =>
    injection accepted with taken
    exact ⟨taken.symm, passed⟩
  · simp at accepted
  · simp at accepted

theorem accepted_single {selector : Selector} {check : String → Bool} {msg : String} {value : Json}
    (wins : winningGroup params = some [selector]) (given : params selector = some value)
    (accepted : extractSingle selector (stringCheck check) msg value = .targeting targeting) :
    Accepted params targeting [selector] := by
  obtain ⟨taken, passed⟩ := extractSingle_targeting accepted
  obtain ⟨st, rfl⟩ := stringCheck_true passed
  refine ⟨wins, by simp [taken, groupTargeting, given], .inl fun other mem => ?_⟩
  obtain rfl := List.mem_singleton.mp mem
  exact ⟨st, given⟩

theorem accepted_address {value : Json} (wins : winningGroup params = some [.address])
    (given : params .address = some value)
    (accepted : extractAddress lib value = .targeting targeting) :
    Accepted params targeting [.address] := by
  unfold extractAddress at accepted
  split at accepted
  · next address =>
    have taken : targeting = [(.address, .string address)] := by
      split_ifs at accepted
      all_goals
        injection accepted with taken
        exact taken.symm
    refine ⟨wins, by simp [taken, groupTargeting, given, Selector.key], .inl fun other mem => ?_⟩
    obtain rfl := List.mem_singleton.mp mem
    exact ⟨address, given⟩
  · simp at accepted

end Clauses

theorem accepted_unchecked {params : Params} {targeting : Targeting} {selector : Selector}
    {value : Json} (wins : winningGroup params = some [selector])
    (given : params selector = some value) (taken : targeting = [(selector.key, value)])
    (loose : selector = .user ∨ selector = .cidr) : Accepted params targeting [selector] := by
  refine ⟨wins, by simp [taken, groupTargeting, given], .inr ?_⟩
  simpa using loose

-- The clauses come in the documented order of precedence.
theorem extractTargeting_accepted {lib : Libraries} {params : Params} {targeting : Targeting}
    (accepted : extractTargeting lib params = .targeting targeting) :
    ∃ group, Accepted params targeting group := by
  unfold extractTargeting at accepted
  cases virtue : params .virtue with
  | some v =>
    cases user : params .user with
    | some u =>
      cases application : params .application with
      | some a =>
        simp only [virtue, user, application] at accepted
        refine ⟨_, accepted_nested ?_ ?_ accepted⟩
        · simp [winningGroup, precedence, virtuePart, usernamePart, applicationPart, virtue, user,
            application]
        · simp [virtuePart, usernamePart, applicationPart, virtue, user, application]
      | none =>
        simp only [virtue, user, application] at accepted
        refine ⟨_, accepted_nested ?_ ?_ accepted⟩
        · simp [winningGroup, precedence, virtuePart, usernamePart, virtue, user, application]
        · simp [virtuePart, usernamePart, virtue, user]
    | none =>
      cases application : params .application with
      | some a =>
        simp only [virtue, user, application] at accepted
        refine ⟨_, accepted_nested ?_ ?_ accepted⟩
        · simp [winningGroup, precedence, virtuePart, applicationPart, virtue, user, application]
        · simp [virtuePart, applicationPart, virtue, application]
      | none =>
        cases cidr : params .cidr with
        | some c =>
          simp only [virtue, user, application, cidr] at accepted
          exact ⟨_, accepted_unchecked (by simp [winningGroup, precedence, user, application, cidr])
            cidr (extractSingle_targeting accepted).1 (.inr rfl)⟩
        | none =>
          simp only [virtue, user, application, cidr] at accepted
          exact ⟨_, accepted_single
            (by simp [winningGroup, precedence, virtue, user, application, cidr]) virtue accepted⟩
  | none =>
    cases user : params .user with
    | some u =>
      cases application : params .application with
      | some a =>
        simp only [virtue, user, application] at accepted
        refine ⟨_, accepted_nested ?_ ?_ accepted⟩
        · simp [winningGroup, precedence, usernamePart, applicationPart, virtue, user, application]
        · simp [usernamePart, applicationPart, user, application]
      | none =>
        cases cidr : params .cidr with
        | some c =>
          simp only [virtue, user, application, cidr] at accepted
          exact ⟨_, accepted_unchecked (by simp [winningGroup, precedence, virtue, application, cidr])
            cidr (extractSingle_targeting accepted).1 (.inr rfl)⟩
        | none =>
          simp only [virtue, user, application, cidr] at accepted
          injection accepted with taken
          exact ⟨_, accepted_unchecked
            (by simp [winningGroup, precedence, virtue, user, application, cidr]) user taken.symm
            (.inl rfl)⟩
    | none =>
      cases cidr : params .cidr with
      | some c =>
        simp only [virtue, user, cidr] at accepted
        exact ⟨_, accepted_unchecked (by simp [winningGroup, precedence, virtue, user, cidr]) cidr
          (extractSingle_targeting accepted).1 (.inr rfl)⟩
      | none =>
        cases address : params .address with
        | some d =>
          simp only [virtue, user, cidr, address] at accepted
          exact ⟨_, accepted_address
            (by simp [winningGroup, precedence, virtue, user, cidr, address]) address accepted⟩
        | none =>
          cases application : params .application with
          | some a =>
            simp only [virtue, user, cidr, address, application] at accepted
            exact ⟨_, accepted_single (by simp [winningGroup, precedence, virtue, user, cidr, address,
              application]) application accepted⟩
          | none =>
            cases resource : params .resource with
            | some r =>
              simp only [virtue, user, cidr, address, application, resource] at accepted
              exact ⟨_, accepted_single (by simp [winningGroup, precedence, virtue, user, cidr,
                address, application, resource]) resource accepted⟩
            | none =>
              cases sensor : params .sensor with
              | some s =>
                simp only [virtue, user, cidr, address, application, resource, sensor] at accepted
                exact ⟨_, accepted_single (by simp [winningGroup, precedence, virtue, user, cidr,
                  address, application, resource, sensor]) sensor accepted⟩
              | none => simp [virtue, user, cidr, address, application, resource, sensor] at accepted

end VirtueSensing.Api
