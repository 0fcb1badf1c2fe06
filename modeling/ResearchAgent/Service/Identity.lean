import Mathlib.Data.List.Dedup
import Mathlib.Data.List.Forall2
import ResearchAgent.Research.RoundTrips
import ResearchAgent.Service.Server

namespace ResearchAgent.Service

open Library JobQueue Research

-- The settings that authentication reads.
structure IdentitySettings where
  api_auth_required : Bool := false
  api_key : String := ""
  api_principals_json : String := ""

inductive StartupError where
  | JSONDecodeError
  | TypeError (message : String)
  | ValidationError (field message : String)
  | ValueError (message : String)
  | RecursionError
deriving DecidableEq, Repr

namespace Role

def literal : Role → String
  | reader => "reader"
  | researcher => "researcher"
  | approver => "approver"
  | admin => "admin"

def all : List Role := [reader, researcher, approver, admin]

def of_literal (text : String) : Option Role := all.find? fun role => role.literal = text

@[simp] theorem of_literal_literal (role : Role) : of_literal role.literal = some role := by
  cases role <;> decide

theorem literal_of_literal {text : String} {role : Role} (h : of_literal text = some role) :
    role.literal = text := by
  simpa using List.find?_some h

end Role

structure PrincipalConfig where
  principal_id : String
  tenant_id : String
  roles : List Role
  api_key : String
  api_key_valid : 16 ≤ api_key.length ∧ api_key.length ≤ 512

namespace PrincipalConfig

def FIELDS : List String := ["principal_id", "tenant_id", "roles", "api_key"]

def read_str (raw : JSONObject) (field : String) : Except StartupError String :=
  match raw.lookup field with
  | some (.str text) => .ok text
  | some _ => .error (.ValidationError field "Input should be a valid string")
  | none => .error (.ValidationError field "Field required")

def read_role : JSONValue → Except StartupError Role
  | .str text =>
      match Role.of_literal text with
      | some role => .ok role
      | none => .error (.ValidationError "roles"
          "Input should be 'reader', 'researcher', 'approver' or 'admin'")
  | _ => .error (.ValidationError "roles"
      "Input should be 'reader', 'researcher', 'approver' or 'admin'")

def read_role_list : List JSONValue → Except StartupError (List Role)
  | [] => .ok []
  | item :: rest => do
      let role ← read_role item
      let roles ← read_role_list rest
      return role :: roles

def read_roles (raw : JSONObject) : Except StartupError (List Role) :=
  match raw.lookup "roles" with
  | some (.list items) => read_role_list items
  | some _ => .error (.ValidationError "roles" "Input should be a valid list")
  | none => .error (.ValidationError "roles" "Field required")

def read_api_key (raw : JSONObject) :
    Except StartupError { key : String // 16 ≤ key.length ∧ key.length ≤ 512 } := do
  let key ← read_str raw "api_key"
  if h : 16 ≤ key.length ∧ key.length ≤ 512 then return ⟨key, h⟩
  else if key.length < 16 then
    .error (.ValidationError "api_key" "String should have at least 16 characters")
  else .error (.ValidationError "api_key" "String should have at most 512 characters")

def forbid_extra (raw : JSONObject) : Except StartupError Unit :=
  match (raw.map Prod.fst).find? fun field => field ∉ FIELDS with
  | some field => .error (.ValidationError field "Extra inputs are not permitted")
  | none => .ok ()

def model_validate : JSONValue → Except StartupError PrincipalConfig
  | .dict raw => do
      let principal_id ← read_str raw "principal_id"
      let tenant_id ← read_str raw "tenant_id"
      let roles ← read_roles raw
      let ⟨api_key, api_key_valid⟩ ← read_api_key raw
      forbid_extra raw
      return { principal_id, tenant_id, roles, api_key, api_key_valid }
  | _ => .error (.ValidationError ""
      "Input should be a valid dictionary or instance of _PrincipalConfig")

-- `Principal(...)`, whose roles are a set.
def principal (config : PrincipalConfig) : Except StartupError Principal :=
  match Principal.model_validate config.principal_id config.tenant_id config.roles.dedup with
  | .ok principal => .ok principal
  | .error (.ValidationError field message) => .error (.ValidationError field message)
  | .error error => .error (.ValueError error.text)

end PrincipalConfig

-- What `for item in value` goes through.
def iterate : JSONValue → Except StartupError (List JSONValue)
  | .list items => .ok items
  | .dict entries => .ok (entries.map fun entry => .str entry.1)
  | .str text => .ok (text.toList.map fun char => .str (String.ofList [char]))
  | value => .error (.TypeError s!"'{type_name value}' object is not iterable")

def LEGACY_PRINCIPAL : Principal :=
  ⟨"legacy-service", "default", Role.all, by decide, by decide⟩

def LOCAL_DEVELOPMENT : Principal :=
  ⟨"local-development", "default", Role.all, by decide, by decide⟩

structure PrincipalEntry where
  salt : List UInt8
  digest : List UInt8
  principal : Principal

structure PrincipalRegistry where
  entries : List PrincipalEntry

namespace PrincipalRegistry

-- `pbkdf2_hmac` is `hashlib.pbkdf2_hmac("sha256", password, salt, iterations)`, and `salts`
-- what `secrets.token_bytes(16)` comes to each time.
variable (interpreter : Interpreter) (pbkdf2_hmac : List UInt8 → List UInt8 → ℕ → List UInt8)
  (salts : ℕ → List UInt8)

def digest (api_key : String) (salt : List UInt8) : List UInt8 :=
  pbkdf2_hmac api_key.toUTF8.data.toList salt 210000

def entry (api_key : String) (salt : List UInt8) (principal : Principal) : PrincipalEntry :=
  ⟨salt, digest pbkdf2_hmac api_key salt, principal⟩

def load_items (raw : String) : Except StartupError (List JSONValue) :=
  match interpreter.loads raw with
  | .value value => iterate value
  | .JSONDecodeError => .error .JSONDecodeError
  | .int_limit digits => .error (.ValueError (
      "Exceeds the limit (4300 digits) for integer string conversion: " ++
      s!"value has {digits} digits; use sys.set_int_max_str_digits() to increase the limit"))
  | .RecursionError => .error .RecursionError

def validate_items : List JSONValue → Except StartupError (List PrincipalConfig)
  | [] => .ok []
  | item :: rest => do
      let config ← PrincipalConfig.model_validate item
      let configs ← validate_items rest
      return config :: configs

-- The `except` clause around reading the configuration.
def invalid_json : StartupError → StartupError
  | .JSONDecodeError | .ValidationError _ _ | .TypeError _ =>
      .ValueError "API_PRINCIPALS_JSON is invalid"
  | error => error

def load_configs (raw : String) : Except StartupError (List PrincipalConfig) :=
  match load_items interpreter raw >>= validate_items with
  | .ok configs => .ok configs
  | .error error => .error (invalid_json error)

-- `drawn` salts have been drawn before.
def config_entries : (drawn : ℕ) → List PrincipalConfig → Except StartupError (List PrincipalEntry)
  | _, [] => .ok []
  | drawn, config :: rest => do
      let principal ← config.principal
      let entries ← config_entries (drawn + 1) rest
      return entry pbkdf2_hmac config.api_key (salts drawn) principal :: entries

def init_entries (settings : IdentitySettings) : Except StartupError (List PrincipalEntry) :=
  if settings.api_principals_json ≠ "" then do
    let configs ← load_configs interpreter settings.api_principals_json
    config_entries pbkdf2_hmac salts 0 configs
  else if settings.api_key ≠ "" then
    .ok [entry pbkdf2_hmac settings.api_key (salts 0) LEGACY_PRINCIPAL]
  else .ok []

def init (settings : IdentitySettings) : Except StartupError PrincipalRegistry := do
  let entries ← init_entries interpreter pbkdf2_hmac salts settings
  if settings.api_auth_required && entries.isEmpty then
    .error (.ValueError
      "API_PRINCIPALS_JSON or API_KEY must be configured when API auth is required")
  else return ⟨entries⟩

def authenticate (registry : PrincipalRegistry) : Option String → Option Principal
  | none => none
  | some api_key =>
      if api_key = "" then none
      else registry.entries.foldl
        (fun matched entry =>
          if digest pbkdf2_hmac api_key entry.salt = entry.digest then some entry.principal
          else matched) none

def require_principal (settings : IdentitySettings) (registry : PrincipalRegistry)
    (provided_key : Option String) : Except ServiceError Principal :=
  if !settings.api_auth_required then .ok LOCAL_DEVELOPMENT
  else
    match registry.authenticate pbkdf2_hmac provided_key with
    | some principal => .ok principal
    | none => .error (.HTTPException 401 "Invalid or missing API key")

end PrincipalRegistry

theorem bind_eq_ok {α β : Type} {first : Except StartupError α}
    {next : α → Except StartupError β} {value : β} :
    first >>= next = .ok value ↔ ∃ mid, first = .ok mid ∧ next mid = .ok value := by
  constructor
  · intro h
    cases first with
    | error error => cases h
    | ok mid => exact ⟨mid, rfl, h⟩
  · rintro ⟨mid, rfl, h⟩
    exact h

namespace PrincipalConfig

variable {raw : JSONObject} {field : String} {config : PrincipalConfig}

-- What an object of the configuration says.
structure Describes (raw : JSONObject) (config : PrincipalConfig) : Prop where
  fields : ∀ field ∈ raw.map Prod.fst, field ∈ FIELDS
  principal_id : raw.lookup "principal_id" = some (.str config.principal_id)
  tenant_id : raw.lookup "tenant_id" = some (.str config.tenant_id)
  roles : raw.lookup "roles" = some (.list (config.roles.map fun role => .str role.literal))
  api_key : raw.lookup "api_key" = some (.str config.api_key)

theorem read_str_eq_ok {text : String} :
    read_str raw field = .ok text ↔ raw.lookup field = some (.str text) := by
  unfold read_str
  cases raw.lookup field with
  | none => simp
  | some value => cases value <;> simp

theorem read_role_eq_ok {item : JSONValue} {role : Role} :
    read_role item = .ok role ↔ item = .str role.literal := by
  constructor
  · intro h
    cases item with
    | str text =>
        rw [read_role] at h
        cases hrole : Role.of_literal text with
        | none =>
            rw [hrole] at h
            cases h
        | some other =>
            rw [hrole] at h
            cases h
            rw [Role.literal_of_literal hrole]
    | null | bool | int | float | nonfinite | list | dict => cases h
  · rintro rfl
    rw [read_role, Role.of_literal_literal]

theorem read_role_list_eq_ok {items : List JSONValue} : ∀ {roles : List Role},
    read_role_list items = .ok roles ↔ items = roles.map fun role => .str role.literal := by
  induction items with
  | nil =>
      intro roles
      rw [read_role_list, Except.ok.injEq, eq_comm, List.nil_eq, List.map_eq_nil_iff]
  | cons item rest ih =>
      intro roles
      rw [read_role_list, bind_eq_ok]
      constructor
      · rintro ⟨role, hrole, h⟩
        obtain ⟨others, hothers, h⟩ := bind_eq_ok.mp h
        cases h
        rw [read_role_eq_ok.mp hrole, ih.mp hothers, List.map_cons]
      · intro h
        cases roles with
        | nil => cases h
        | cons role others =>
            obtain ⟨hitem, hrest⟩ := List.cons.inj h
            exact ⟨role, read_role_eq_ok.mpr hitem, bind_eq_ok.mpr ⟨others, ih.mpr hrest, rfl⟩⟩

theorem read_roles_eq_ok {roles : List Role} : read_roles raw = .ok roles ↔
    raw.lookup "roles" = some (.list (roles.map fun role => .str role.literal)) := by
  unfold read_roles
  cases raw.lookup "roles" with
  | none => simp
  | some value => cases value <;> simp [read_role_list_eq_ok]

theorem read_api_key_eq_ok {key : { key : String // 16 ≤ key.length ∧ key.length ≤ 512 }} :
    read_api_key raw = .ok key ↔ raw.lookup "api_key" = some (.str key.val) := by
  rw [read_api_key, bind_eq_ok]
  constructor
  · rintro ⟨text, htext, h⟩
    by_cases hlength : 16 ≤ text.length ∧ text.length ≤ 512
    · rw [dif_pos hlength] at h
      cases h
      exact read_str_eq_ok.mp htext
    · rw [dif_neg hlength] at h
      split at h <;> cases h
  · intro h
    refine ⟨key.val, read_str_eq_ok.mpr h, ?_⟩
    rw [dif_pos key.property]
    rfl

theorem forbid_extra_eq_ok :
    forbid_extra raw = .ok () ↔ ∀ field ∈ raw.map Prod.fst, field ∈ FIELDS := by
  unfold forbid_extra
  cases hfind : (raw.map Prod.fst).find? fun field => field ∉ FIELDS with
  | none => simpa using hfind
  | some field =>
      have hextra := List.find?_some hfind
      have hmem := List.mem_of_find?_eq_some hfind
      refine iff_of_false (fun h => by cases h) fun h => ?_
      exact absurd (h field hmem) (of_decide_eq_true hextra)

-- An item is accepted exactly when it describes a configuration, which is then read off it.
theorem model_validate_eq_ok {item : JSONValue} :
    model_validate item = .ok config ↔ ∃ raw, item = .dict raw ∧ Describes raw config := by
  cases item with
  | dict raw =>
      rw [model_validate]
      constructor
      · intro h
        obtain ⟨principal_id, hprincipal, h⟩ := bind_eq_ok.mp h
        obtain ⟨tenant_id, htenant, h⟩ := bind_eq_ok.mp h
        obtain ⟨roles, hroles, h⟩ := bind_eq_ok.mp h
        obtain ⟨key, hkey, h⟩ := bind_eq_ok.mp h
        obtain ⟨_, hextra, h⟩ := bind_eq_ok.mp h
        cases h
        exact ⟨raw, rfl, forbid_extra_eq_ok.mp hextra, read_str_eq_ok.mp hprincipal,
          read_str_eq_ok.mp htenant, read_roles_eq_ok.mp hroles, read_api_key_eq_ok.mp hkey⟩
      · rintro ⟨_, ⟨⟩, h⟩
        refine bind_eq_ok.mpr ⟨_, read_str_eq_ok.mpr h.principal_id, ?_⟩
        refine bind_eq_ok.mpr ⟨_, read_str_eq_ok.mpr h.tenant_id, ?_⟩
        refine bind_eq_ok.mpr ⟨_, read_roles_eq_ok.mpr h.roles, ?_⟩
        refine bind_eq_ok.mpr
          ⟨⟨config.api_key, config.api_key_valid⟩, read_api_key_eq_ok.mpr h.api_key, ?_⟩
        exact bind_eq_ok.mpr ⟨(), forbid_extra_eq_ok.mpr h.fields, rfl⟩
  | null | bool | int | float | nonfinite | str | list =>
      exact iff_of_false (fun h => by cases h) fun ⟨_, h, _⟩ => by cases h

end PrincipalConfig

namespace PrincipalRegistry

variable {interpreter : Interpreter} {pbkdf2_hmac : List UInt8 → List UInt8 → ℕ → List UInt8}
  {salts : ℕ → List UInt8} {settings : IdentitySettings} {registry : PrincipalRegistry}
  {credentials : List (String × Principal)}

-- A configuration lets its key act as the principal.
structure Grants (config : PrincipalConfig) (credential : String × Principal) : Prop where
  api_key : credential.1 = config.api_key
  principal_id : credential.2.principal_id = config.principal_id
  tenant_id : credential.2.tenant_id = config.tenant_id
  roles : credential.2.roles = config.roles.dedup

def Names (item : JSONValue) (credential : String × Principal) : Prop :=
  ∃ raw config, item = .dict raw ∧ PrincipalConfig.Describes raw config ∧ Grants config credential

-- The keys that the settings hand out, with their principals.
inductive Configured (interpreter : Interpreter) (settings : IdentitySettings) :
    List (String × Principal) → Prop
  | principals {items : List JSONValue} {credentials : List (String × Principal)}
      (hraw : settings.api_principals_json ≠ "")
      (hloads : interpreter.loads settings.api_principals_json = .value (.list items))
      (hnames : List.Forall₂ Names items credentials) : Configured interpreter settings credentials
  | empty {value : JSONValue} (hraw : settings.api_principals_json ≠ "")
      (hloads : interpreter.loads settings.api_principals_json = .value value)
      (hempty : value = .dict [] ∨ value = .str "") : Configured interpreter settings []
  | legacy (hraw : settings.api_principals_json = "") (hkey : settings.api_key ≠ "") :
      Configured interpreter settings [(settings.api_key, LEGACY_PRINCIPAL)]
  | nothing (hraw : settings.api_principals_json = "") (hkey : settings.api_key = "") :
      Configured interpreter settings []

variable (pbkdf2_hmac salts) in
-- What is kept of the credentials.
def stored : (drawn : ℕ) → List (String × Principal) → List PrincipalEntry
  | _, [] => []
  | drawn, (api_key, principal) :: rest =>
      entry pbkdf2_hmac api_key (salts drawn) principal :: stored (drawn + 1) rest

theorem principal_eq_ok {config : PrincipalConfig} {principal : Principal} :
    config.principal = .ok principal ↔ Grants config (config.api_key, principal) := by
  unfold PrincipalConfig.principal Principal.model_validate
  constructor
  · intro h
    split at h
    · next hvalid =>
        cases h
        split at hvalid
        · split at hvalid
          · cases hvalid
            exact ⟨rfl, rfl, rfl, rfl⟩
          · cases hvalid
        · cases hvalid
    · cases h
    · cases h
  · rintro ⟨-, hprincipal, htenant, hroles⟩
    obtain ⟨principal_id, tenant_id, roles, hp, ht⟩ := principal
    subst hprincipal htenant hroles
    rw [dif_pos hp, dif_pos ht]

theorem validate_items_eq_ok {items : List JSONValue} : ∀ {configs : List PrincipalConfig},
    validate_items items = .ok configs ↔ List.Forall₂
      (fun item config => ∃ raw, item = .dict raw ∧ PrincipalConfig.Describes raw config)
      items configs := by
  induction items with
  | nil =>
      intro configs
      rw [validate_items, Except.ok.injEq, eq_comm, List.forall₂_nil_left_iff]
  | cons item rest ih =>
      intro configs
      rw [validate_items, bind_eq_ok]
      constructor
      · rintro ⟨config, hconfig, h⟩
        obtain ⟨others, hothers, h⟩ := bind_eq_ok.mp h
        cases h
        exact .cons (PrincipalConfig.model_validate_eq_ok.mp hconfig) (ih.mp hothers)
      · rintro (_ | ⟨hconfig, hothers⟩)
        exact ⟨_, PrincipalConfig.model_validate_eq_ok.mpr hconfig,
          bind_eq_ok.mpr ⟨_, ih.mpr hothers, rfl⟩⟩

theorem config_entries_eq_ok {configs : List PrincipalConfig} : ∀ {drawn : ℕ}
    {entries : List PrincipalEntry},
    config_entries pbkdf2_hmac salts drawn configs = .ok entries ↔
      ∃ credentials, List.Forall₂ Grants configs credentials ∧
        entries = stored pbkdf2_hmac salts drawn credentials := by
  induction configs with
  | nil =>
      intro drawn entries
      rw [config_entries, Except.ok.injEq]
      constructor
      · rintro rfl
        exact ⟨[], .nil, rfl⟩
      · rintro ⟨credentials, hnil, rfl⟩
        cases hnil
        rfl
  | cons config rest ih =>
      intro drawn entries
      rw [config_entries, bind_eq_ok]
      constructor
      · rintro ⟨principal, hprincipal, h⟩
        obtain ⟨others, hothers, h⟩ := bind_eq_ok.mp h
        cases h
        obtain ⟨credentials, hgrants, rfl⟩ := ih.mp hothers
        exact ⟨(config.api_key, principal) :: credentials,
          .cons (principal_eq_ok.mp hprincipal) hgrants, rfl⟩
      · rintro ⟨_, _ | @⟨_, ⟨api_key, principal⟩, _, credentials, hgrant, hgrants⟩, rfl⟩
        obtain rfl : api_key = config.api_key := hgrant.api_key
        exact ⟨principal, principal_eq_ok.mpr hgrant,
          bind_eq_ok.mpr ⟨_, ih.mpr ⟨credentials, hgrants, rfl⟩, rfl⟩⟩

theorem names_iff {items : List JSONValue} : ∀ {credentials : List (String × Principal)},
    List.Forall₂ Names items credentials ↔ ∃ configs, List.Forall₂
      (fun item config => ∃ raw, item = .dict raw ∧ PrincipalConfig.Describes raw config)
      items configs ∧ List.Forall₂ Grants configs credentials := by
  induction items with
  | nil =>
      intro credentials
      constructor
      · rintro ⟨⟩
        exact ⟨[], .nil, .nil⟩
      · rintro ⟨configs, ⟨⟩, ⟨⟩⟩
        exact .nil
  | cons item rest ih =>
      intro credentials
      constructor
      · rintro (_ | ⟨⟨raw, config, hitem, hdescribes, hgrant⟩, hrest⟩)
        obtain ⟨configs, hconfigs, hgrants⟩ := ih.mp hrest
        exact ⟨config :: configs, .cons ⟨raw, hitem, hdescribes⟩ hconfigs, .cons hgrant hgrants⟩
      · rintro ⟨_, _ | ⟨⟨raw, hitem, hdescribes⟩, hconfigs⟩, _ | ⟨hgrant, hgrants⟩⟩
        exact .cons ⟨raw, _, hitem, hdescribes, hgrant⟩ (ih.mpr ⟨_, hconfigs, hgrants⟩)

theorem load_configs_eq_ok {raw : String} {configs : List PrincipalConfig} :
    load_configs interpreter raw = .ok configs ↔ ∃ value items,
      interpreter.loads raw = .value value ∧ iterate value = .ok items ∧
        validate_items items = .ok configs := by
  unfold load_configs
  constructor
  · intro h
    split at h
    · next hvalid =>
        cases h
        obtain ⟨items, hitems, hconfigs⟩ := bind_eq_ok.mp hvalid
        unfold load_items at hitems
        split at hitems
        · next value hloads => exact ⟨value, items, hloads, hitems, hconfigs⟩
        all_goals cases hitems
    · cases h
  · rintro ⟨value, items, hloads, hitems, hconfigs⟩
    have hload : load_items interpreter raw = .ok items := by
      rw [load_items, hloads]
      exact hitems
    rw [bind_eq_ok.mpr ⟨items, hload, hconfigs⟩]

-- Only a list can hold configurations: the keys of a dictionary and the characters of a text
-- are texts.
theorem nil_of_texts {α : Type} {text : α → String} {texts : List α}
    {configs : List PrincipalConfig}
    (h : validate_items (texts.map fun item => .str (text item)) = .ok configs) :
    texts = [] ∧ configs = [] := by
  cases texts with
  | nil =>
      cases h
      exact ⟨rfl, rfl⟩
  | cons first rest =>
      rcases validate_items_eq_ok.mp h with _ | ⟨⟨raw, hitem, -⟩, -⟩
      cases hitem

theorem configured_iff (hraw : settings.api_principals_json ≠ "") :
    Configured interpreter settings credentials ↔ ∃ configs,
      load_configs interpreter settings.api_principals_json = .ok configs ∧
        List.Forall₂ Grants configs credentials := by
  constructor
  · rintro (⟨-, hloads, hnames⟩ | ⟨-, hloads, rfl | rfl⟩ | ⟨hnone, -⟩ | ⟨hnone, -⟩)
    · obtain ⟨configs, hconfigs, hgrants⟩ := names_iff.mp hnames
      exact ⟨configs, load_configs_eq_ok.mpr
        ⟨_, _, hloads, rfl, validate_items_eq_ok.mpr hconfigs⟩, hgrants⟩
    · exact ⟨[], load_configs_eq_ok.mpr ⟨_, _, hloads, rfl, rfl⟩, .nil⟩
    · exact ⟨[], load_configs_eq_ok.mpr ⟨_, _, hloads, rfl, rfl⟩, .nil⟩
    · exact absurd hnone hraw
    · exact absurd hnone hraw
  · rintro ⟨configs, hconfigs, hgrants⟩
    obtain ⟨value, items, hloads, hitems, hconfigs⟩ := load_configs_eq_ok.mp hconfigs
    cases value with
    | list items =>
        cases hitems
        exact .principals hraw hloads
          (names_iff.mpr ⟨configs, validate_items_eq_ok.mp hconfigs, hgrants⟩)
    | dict entries =>
        cases hitems
        obtain ⟨rfl, rfl⟩ := nil_of_texts hconfigs
        cases hgrants
        exact .empty hraw hloads (.inl rfl)
    | str text =>
        cases hitems
        obtain ⟨htext, rfl⟩ := nil_of_texts hconfigs
        cases hgrants
        exact .empty hraw hloads (.inr (by rw [String.toList_eq_nil_iff.mp htext]))
    | null | bool | int | float | nonfinite => cases hitems

theorem init_entries_eq_ok {entries : List PrincipalEntry} :
    init_entries interpreter pbkdf2_hmac salts settings = .ok entries ↔
      ∃ credentials, Configured interpreter settings credentials ∧
        entries = stored pbkdf2_hmac salts 0 credentials := by
  unfold init_entries
  by_cases hraw : settings.api_principals_json = ""
  · rw [if_neg (not_not.mpr hraw)]
    by_cases hkey : settings.api_key = ""
    · rw [if_neg (not_not.mpr hkey), Except.ok.injEq]
      constructor
      · rintro rfl
        exact ⟨[], .nothing hraw hkey, rfl⟩
      · rintro ⟨_, ⟨hother, -⟩ | ⟨hother, -⟩ | ⟨-, hother⟩ | -, rfl⟩
        · exact absurd hraw hother
        · exact absurd hraw hother
        · exact absurd hkey hother
        · rfl
    · rw [if_pos hkey, Except.ok.injEq]
      constructor
      · rintro rfl
        exact ⟨_, .legacy hraw hkey, rfl⟩
      · rintro ⟨_, ⟨hother, -⟩ | ⟨hother, -⟩ | - | ⟨-, hother⟩, rfl⟩
        · exact absurd hraw hother
        · exact absurd hraw hother
        · rfl
        · exact absurd hother hkey
  · rw [if_pos hraw, bind_eq_ok]
    constructor
    · rintro ⟨configs, hconfigs, hentries⟩
      obtain ⟨credentials, hgrants, rfl⟩ := config_entries_eq_ok.mp hentries
      exact ⟨credentials, (configured_iff hraw).mpr ⟨configs, hconfigs, hgrants⟩, rfl⟩
    · rintro ⟨credentials, hconfigured, rfl⟩
      obtain ⟨configs, hconfigs, hgrants⟩ := (configured_iff hraw).mp hconfigured
      exact ⟨configs, hconfigs, config_entries_eq_ok.mpr ⟨credentials, hgrants, rfl⟩⟩

theorem stored_isEmpty :
    (stored pbkdf2_hmac salts 0 credentials).isEmpty = credentials.isEmpty := by
  cases credentials <;> rfl

theorem init_eq_ok : init interpreter pbkdf2_hmac salts settings = .ok registry ↔
    ∃ credentials, Configured interpreter settings credentials ∧
      (settings.api_auth_required = true → credentials ≠ []) ∧
        registry = ⟨stored pbkdf2_hmac salts 0 credentials⟩ := by
  rw [init, bind_eq_ok]
  constructor
  · rintro ⟨entries, hentries, h⟩
    obtain ⟨credentials, hconfigured, rfl⟩ := init_entries_eq_ok.mp hentries
    split at h
    · cases h
    · next hrequired =>
        cases h
        refine ⟨credentials, hconfigured, fun hauth hnil => hrequired ?_, rfl⟩
        rw [stored_isEmpty, hauth, hnil]
        rfl
  · rintro ⟨credentials, hconfigured, hrequired, rfl⟩
    refine ⟨_, init_entries_eq_ok.mpr ⟨credentials, hconfigured, rfl⟩, if_neg fun h => ?_⟩
    rw [stored_isEmpty, Bool.and_eq_true, List.isEmpty_iff] at h
    exact hrequired h.1 h.2

-- Some other key has the digest of a configured one, under the salt that was drawn for it.
def Collides (pbkdf2_hmac : List UInt8 → List UInt8 → ℕ → List UInt8) (salts : ℕ → List UInt8)
    (credentials : List (String × Principal)) (api_key : String) : Prop :=
  ∃ drawn credential, credentials[drawn]? = some credential ∧ credential.1 ≠ api_key ∧
    digest pbkdf2_hmac api_key (salts drawn) = digest pbkdf2_hmac credential.1 (salts drawn)

-- The last entry with the digest of the key decides.
theorem matched_stored {api_key : String} (credentials : List (String × Principal)) :
    ∀ (drawn : ℕ) (matched : Option Principal),
      (∀ position credential, credentials[position]? = some credential →
        digest pbkdf2_hmac api_key (salts (drawn + position)) =
          digest pbkdf2_hmac credential.1 (salts (drawn + position)) → credential.1 = api_key) →
      (stored pbkdf2_hmac salts drawn credentials).foldl
        (fun matched entry =>
          if digest pbkdf2_hmac api_key entry.salt = entry.digest then some entry.principal
          else matched) matched = (credentials.reverse.lookup api_key).or matched := by
  induction credentials with
  | nil => exact fun _ _ _ => rfl
  | cons credential rest ih =>
      intro drawn matched h
      obtain ⟨key, principal⟩ := credential
      rw [stored, List.foldl_cons, ih, List.reverse_cons, List.lookup_append, Option.or_assoc]
      · congr 1
        rw [lookup_cons_eq_ite]
        by_cases hkey : key = api_key
        · rw [hkey, entry, if_pos rfl, if_pos rfl]
          rfl
        · have hother : ¬digest pbkdf2_hmac api_key (salts drawn) =
              digest pbkdf2_hmac key (salts drawn) := fun hsame => hkey (h 0 _ rfl hsame)
          rw [entry, if_neg hother, if_neg hkey]
          rfl
      · intro position credential hcredential hsame
        refine h (position + 1) credential hcredential ?_
        rwa [Nat.add_comm position 1, ← Nat.add_assoc]

theorem length_of_granted {configs : List PrincipalConfig}
    (h : List.Forall₂ Grants configs credentials) :
    ∀ credential ∈ credentials, 16 ≤ credential.1.length := by
  induction h with
  | nil =>
      intro credential hmem
      cases hmem
  | @cons config credential _ _ hgrant _ ih =>
      intro other hmem
      rcases List.mem_cons.mp hmem with rfl | hmem
      · rw [hgrant.api_key]
        exact config.api_key_valid.1
      · exact ih other hmem

theorem key_ne_empty (h : Configured interpreter settings credentials) :
    ∀ credential ∈ credentials, credential.1 ≠ "" := by
  intro credential hmem
  cases h with
  | principals hraw hloads hnames =>
      obtain ⟨configs, -, hgrants⟩ := names_iff.mp hnames
      intro hempty
      have hlength := length_of_granted hgrants credential hmem
      rw [hempty] at hlength
      exact absurd hlength (by decide)
  | empty => cases hmem
  | legacy hraw hkey =>
      cases List.mem_singleton.mp hmem
      exact hkey
  | nothing => cases hmem

theorem authenticate_stored (h : Configured interpreter settings credentials) {api_key : String}
    (hcollides : ¬Collides pbkdf2_hmac salts credentials api_key) :
    authenticate pbkdf2_hmac ⟨stored pbkdf2_hmac salts 0 credentials⟩ (some api_key) =
      credentials.reverse.lookup api_key := by
  rw [authenticate]
  by_cases hempty : api_key = ""
  · rw [if_pos hempty, eq_comm, List.lookup_eq_none_iff]
    intro credential hmem
    have hkey := key_ne_empty h credential (List.mem_reverse.mp hmem)
    rw [hempty]
    simpa using Ne.symm hkey
  · rw [if_neg hempty]
    refine (matched_stored credentials 0 none fun position credential hcredential hsame => ?_).trans
      (Option.or_none ..)
    rw [Nat.zero_add] at hsame
    by_contra hkey
    exact hcollides ⟨position, credential, hcredential, hkey, hsame⟩

-- Whoever is let in is one of those configured, whatever the digests do.
theorem authenticated_mem {provided_key : Option String} {principal : Principal}
    (h : authenticate pbkdf2_hmac ⟨stored pbkdf2_hmac salts 0 credentials⟩ provided_key =
      some principal) : principal ∈ credentials.map Prod.snd := by
  have hmatched (credentials : List (String × Principal)) : ∀ (api_key : String) (drawn : ℕ)
      (matched : Option Principal), (stored pbkdf2_hmac salts drawn credentials).foldl
        (fun matched entry =>
          if digest pbkdf2_hmac api_key entry.salt = entry.digest then some entry.principal
          else matched) matched = some principal →
      matched = some principal ∨ principal ∈ credentials.map Prod.snd := by
    induction credentials with
    | nil => exact fun _ _ _ h => .inl h
    | cons credential rest ih =>
        intro api_key drawn matched h
        rw [stored, List.foldl_cons] at h
        rcases ih api_key _ _ h with h | h
        · split at h
          · cases h
            exact .inr List.mem_cons_self
          · exact .inl h
        · exact .inr (List.mem_cons_of_mem _ h)
  cases provided_key with
  | none => cases h
  | some api_key =>
      rw [authenticate] at h
      split at h
      · cases h
      · rcases hmatched credentials api_key 0 none h with h | h
        · cases h
        · exact h

-- A credential as the settings hold it.
def written (credential : String × Principal) : JSONValue :=
  .dict [("principal_id", .str credential.2.principal_id),
    ("tenant_id", .str credential.2.tenant_id),
    ("roles", .list (credential.2.roles.map fun role => .str role.literal)),
    ("api_key", .str credential.1)]

theorem names_written {credential : String × Principal}
    (hkey : 16 ≤ credential.1.length ∧ credential.1.length ≤ 512)
    (hroles : credential.2.roles.Nodup) : Names (written credential) credential := by
  obtain ⟨api_key, principal⟩ := credential
  refine ⟨_, ⟨principal.principal_id, principal.tenant_id, principal.roles, api_key, hkey⟩, rfl,
    ⟨?_, rfl, rfl, rfl, rfl⟩, rfl, rfl, rfl, ?_⟩
  · intro field hmem
    simpa [PrincipalConfig.FIELDS] using hmem
  · exact hroles.dedup.symm

theorem legible_written {float_repr : ℚ → String} {depth : ℕ} (hdepth : 2 ≤ depth)
    (credential : String × Principal) :
    Legible interpreter float_repr depth (written credential) := by
  obtain ⟨depth, rfl⟩ := Nat.exists_eq_add_of_le' hdepth
  refine .dict (by simp) fun entry hmem => ?_
  simp only [List.mem_cons, List.not_mem_nil, or_false] at hmem
  rcases hmem with rfl | rfl | rfl | rfl
  · exact .str _
  · exact .str _
  · refine .list fun item hitem => ?_
    obtain ⟨role, -, rfl⟩ := List.mem_map.mp hitem
    exact .str _
  · exact .str _

-- Credentials that are written out as JSON are the ones configured.
theorem configured_written (hdepth : 3 ≤ interpreter.depth) {float_repr : ℚ → String}
    (hkeys : ∀ credential ∈ credentials,
      16 ≤ credential.1.length ∧ credential.1.length ≤ 512)
    (hroles : ∀ credential ∈ credentials, credential.2.roles.Nodup)
    (hraw : settings.api_principals_json =
      dumps {} float_repr (.list (credentials.map written))) :
    Configured interpreter settings credentials := by
  have hlegible : Legible interpreter float_repr interpreter.depth
      (.list (credentials.map written)) := by
    obtain ⟨depth, hdepth⟩ := Nat.exists_eq_add_of_le' hdepth
    rw [hdepth]
    refine .list fun item hmem => ?_
    obtain ⟨credential, -, rfl⟩ := List.mem_map.mp hmem
    exact legible_written (Nat.le_add_left 2 depth) credential
  have hloads := loads_dumps default_spaced hlegible
  rw [arranged_unsorted rfl, ← hraw] at hloads
  refine .principals ?_ hloads ?_
  · rw [hraw, dumps]
    intro hempty
    have hlist := congrArg String.toList hempty
    rw [String.toList_append, String.toList_append] at hlist
    cases hlist
  · exact List.forall₂_map_left_iff.mpr (List.forall₂_same.mpr fun credential hmem =>
      names_written (hkeys credential hmem) (hroles credential hmem))

-- Requests go ahead under the registry as the credentials say.
structure Serves (pbkdf2_hmac : List UInt8 → List UInt8 → ℕ → List UInt8)
    (salts : ℕ → List UInt8) (settings : IdentitySettings) (registry : PrincipalRegistry)
    (credentials : List (String × Principal)) : Prop where
  keys : settings.api_auth_required = true → ∀ api_key,
    ¬Collides pbkdf2_hmac salts credentials api_key →
      require_principal pbkdf2_hmac settings registry (some api_key) =
        match credentials.reverse.lookup api_key with
        | some principal => .ok principal
        | none => .error (.HTTPException 401 "Invalid or missing API key")
  keyless : settings.api_auth_required = true →
    require_principal pbkdf2_hmac settings registry none =
      .error (.HTTPException 401 "Invalid or missing API key")
  principals : settings.api_auth_required = true → ∀ provided_key principal,
    require_principal pbkdf2_hmac settings registry provided_key = .ok principal →
      principal ∈ credentials.map Prod.snd

theorem serves_stored (h : Configured interpreter settings credentials) :
    Serves pbkdf2_hmac salts settings ⟨stored pbkdf2_hmac salts 0 credentials⟩ credentials where
  keys hauth api_key hcollides := by
    rw [require_principal, hauth, authenticate_stored h hcollides]
    cases credentials.reverse.lookup api_key <;> rfl
  keyless hauth := by
    rw [require_principal, hauth]
    rfl
  principals hauth provided_key principal hprincipal := by
    rw [require_principal, hauth] at hprincipal
    cases hmatched : authenticate pbkdf2_hmac ⟨stored pbkdf2_hmac salts 0 credentials⟩
        provided_key with
    | none =>
        rw [hmatched] at hprincipal
        cases hprincipal
    | some other =>
        rw [hmatched] at hprincipal
        cases hprincipal
        exact authenticated_mem hmatched

end PrincipalRegistry

open PrincipalRegistry

-- A registry is built just when the settings configure credentials, of which there must be
-- some where keys are asked for; a key then acts as its last principal, and no other key as
-- anyone, unless digests collide.
theorem keys_serve_as_configured (interpreter : Interpreter)
    (pbkdf2_hmac : List UInt8 → List UInt8 → ℕ → List UInt8) (salts : ℕ → List UInt8)
    (settings : IdentitySettings) :
    (∀ registry, init interpreter pbkdf2_hmac salts settings = .ok registry →
      ∃ credentials, Configured interpreter settings credentials ∧
        (settings.api_auth_required = true → credentials ≠ []) ∧
        PrincipalRegistry.Serves pbkdf2_hmac salts settings registry credentials) ∧
    (∀ credentials, Configured interpreter settings credentials →
      (settings.api_auth_required = true → credentials ≠ []) →
        ∃ registry, init interpreter pbkdf2_hmac salts settings = .ok registry ∧
          PrincipalRegistry.Serves pbkdf2_hmac salts settings registry credentials) ∧
    (3 ≤ interpreter.depth → ∀ float_repr credentials,
      (∀ credential ∈ credentials, 16 ≤ credential.1.length ∧ credential.1.length ≤ 512) →
      (∀ credential ∈ credentials, credential.2.roles.Nodup) →
      settings.api_principals_json = dumps {} float_repr (.list (credentials.map written)) →
        Configured interpreter settings credentials) := by
  refine ⟨fun registry hinit => ?_, fun credentials hconfigured hrequired => ?_,
    fun hdepth float_repr credentials hkeys hroles hraw =>
      configured_written hdepth hkeys hroles hraw⟩
  · obtain ⟨credentials, hconfigured, hrequired, rfl⟩ := init_eq_ok.mp hinit
    exact ⟨credentials, hconfigured, hrequired, serves_stored hconfigured⟩
  · exact ⟨_, init_eq_ok.mpr ⟨credentials, hconfigured, hrequired, rfl⟩,
      serves_stored hconfigured⟩

def teller : Principal := ⟨"teller", "branch", [.researcher], by decide, by decide⟩

def auditor : Principal := ⟨"auditor", "firm", [.reader, .approver], by decide, by decide⟩

-- The first key is handed out a second time, to somebody else.
def handed_out_twice : List (String × Principal) :=
  [("0123456789abcdef", teller), ("fedcba9876543210", teller), ("0123456789abcdef", auditor)]

def twice_settings : IdentitySettings where
  api_auth_required := true
  api_principals_json := dumps {} tenths (.list (handed_out_twice.map written))

theorem keys_serve_as_configured_twice : ∃ registry,
    init .tenths (fun password salt _ => salt ++ password) (fun drawn => [.ofNat drawn])
        twice_settings = .ok registry ∧
      require_principal (fun password salt _ => salt ++ password) twice_settings registry
        (some "0123456789abcdef") = .ok auditor := by
  obtain ⟨-, hbuilds, hwritten⟩ := keys_serve_as_configured .tenths
    (fun password salt _ => salt ++ password) (fun drawn => [.ofNat drawn]) twice_settings
  have hconfigured := hwritten (by decide) tenths handed_out_twice (by decide) (by decide) rfl
  obtain ⟨registry, hinit, hserves⟩ :=
    hbuilds handed_out_twice hconfigured fun _ => List.cons_ne_nil _ _
  refine ⟨registry, hinit, hserves.keys rfl _ ?_⟩
  rintro ⟨drawn, credential, hcredential, hother, hsame⟩
  match drawn with
  | 0 | 2 =>
      cases hcredential
      exact hother rfl
  | 1 =>
      cases hcredential
      exact absurd hsame (by decide)
  | drawn + 3 => cases hcredential

end ResearchAgent.Service
