import Mathlib.Data.Finset.Order
import QuDAG.Lib.Bytes
import QuDAG.Lib.Collections
import QuDAG.Lib.Expiry
import QuDAG.Lib.Runs

/-!
# Sessions of the MCP server (`auth.rs`)

An operator registers API keys, each with a user and permissions. A client that presents a key gets
a session, whose token it presents afterwards. A session lives for a number of seconds. Whether it
still does is decided in three places, by whole seconds in two of them and by exact durations in the
third.

## Main definitions

* `AuthManager`, with `authenticate`, `validateSession`, `hasPermission`, `registerApiKey` and
  `cleanupExpiredSessions`.
* `AuthManager.Issued` — an earlier call has issued a session.
* `AuthManager.Sound` — what is promised of the sessions after a sequence of calls.

## Main results

* `AuthManager.sound_after` — every sequence of calls keeps the promise.

## Implementation notes

Times are nanoseconds since the epoch. A call takes the readings of the clock that it makes, and the
identifier that it draws for a new session. `blake3` is a parameter.
-/

namespace QuDAG.Mcp

open RustStd

/-! ## Requests and sessions -/

/-- Authentication method. -/
inductive AuthMethod
  | apiKey
  | oAuth2
  | vaultToken
  | none
  deriving DecidableEq

/-- Permission type. -/
inductive Permission
  | dagRead
  | dagWrite
  | vaultRead
  | vaultWrite
  | networkAccess
  | cryptoAccess
  | admin
  deriving DecidableEq

/-- The text of a permission. -/
def Permission.toString : Permission → String
  | .dagRead => "dag_read"
  | .dagWrite => "dag_write"
  | .vaultRead => "vault_read"
  | .vaultWrite => "vault_write"
  | .networkAccess => "network_access"
  | .cryptoAccess => "crypto_access"
  | .admin => "admin"

/-- Authentication configuration. -/
structure AuthConfig where
  required : Bool
  methods : List AuthMethod
  /-- Session timeout in seconds. -/
  sessionTimeout : ℕ
  maxSessions : ℕ

/-- Authentication session. -/
structure AuthSession where
  id : String
  userId : String
  method : AuthMethod
  createdAt : ℤ
  lastActivity : ℤ
  permissions : List Permission

/-- What a client is granted by a session. -/
structure Grant where
  userId : String
  permissions : List Permission
  createdAt : ℤ

/-- What a session grants. -/
def AuthSession.grant (session : AuthSession) : Grant :=
  ⟨session.userId, session.permissions, session.createdAt⟩

/-- Authentication request. -/
structure AuthRequest where
  method : AuthMethod
  credentials : HashMap String String

/-- Authentication response. -/
structure AuthResponse where
  success : Bool
  sessionToken : Option String
  error : Option String
  permissions : Option (List String)

/-- The errors of authentication. -/
inductive Error
  | auth (message : String)
  | internal (message : String)

/-- The time from an earlier reading of the clock, if it is one. -/
def durationSince (now earlier : ℤ) : Option ℕ :=
  if earlier ≤ now then some (now - earlier).toNat else none

/-- The whole seconds of a duration. -/
def asSecs (duration : ℕ) : ℕ := duration / 1000000000

/-- The duration of a number of seconds. -/
def fromSecs (seconds : ℕ) : ℕ := 1000000000 * seconds

/-! ## The manager -/

/-- An API key by its hash, with its user and permissions. -/
structure ApiKey where
  digest : List UInt8
  userId : String
  permissions : List Permission

/-- Authentication manager. -/
structure AuthManager where
  config : AuthConfig
  /-- Active sessions. -/
  sessions : HashMap String AuthSession
  apiKeys : List ApiKey

namespace AuthManager

variable (blake3 : List UInt8 → List UInt8)

/-- Create new authentication manager. -/
def new (config : AuthConfig) : AuthManager := ⟨config, ∅, []⟩

/-- Clean up expired sessions. -/
def cleanupExpiredSessions (now : ℤ) (manager : AuthManager) : AuthManager :=
  { manager with
    sessions := manager.sessions.retain fun _ session =>
      ((durationSince now session.createdAt).map
        fun age => decide (age < fromSecs manager.config.sessionTimeout)).getD false }

/-- Create a new session. The clock is read twice. -/
def createSession (userId : String) (method : AuthMethod) (permissions : List Permission)
    (sessionId : String) (now now' : ℤ) (manager : AuthManager) :
    Except Error String × AuthManager :=
  let manager := manager.cleanupExpiredSessions now
  if manager.sessions.keys.card ≥ manager.config.maxSessions then
    (.error (.auth "Maximum concurrent sessions reached"), manager)
  else
    (.ok sessionId,
      { manager with
        sessions := manager.sessions.insert sessionId
          ⟨sessionId, userId, method, now', now', permissions⟩ })

/-- Register an API credential and its explicit permissions. -/
def registerApiKey (key userId : String) (permissions : List Permission) (manager : AuthManager) :
    Except Error Unit × AuthManager :=
  if (Bytes.ofString key).length < 32 ∨ userId = "" ∨ permissions = [] then
    (.error (.auth "Invalid API credential configuration"), manager)
  else
    (.ok (),
      { manager with
        apiKeys := manager.apiKeys ++ [⟨blake3 (Bytes.ofString key), userId, permissions⟩] })

/-- Authenticate by the first entry with the hash of the key. -/
def authenticateApiKey (credentials : HashMap String String) (sessionId : String) (now now' : ℤ)
    (manager : AuthManager) : Except Error AuthResponse × AuthManager :=
  match credentials.lookup "api_key" with
  | none => (.error (.auth "API key not provided"), manager)
  | some key =>
    match manager.apiKeys.find? fun entry => entry.digest == blake3 (Bytes.ofString key) with
    | none => (.error (.auth "Invalid API key"), manager)
    | some entry =>
      match manager.createSession entry.userId .apiKey entry.permissions sessionId now now' with
      | (.error error, manager) => (.error error, manager)
      | (.ok token, manager) =>
        (.ok ⟨true, some token, none, some (entry.permissions.map Permission.toString)⟩, manager)

/-- Authenticate a request. -/
def authenticate (request : AuthRequest) (sessionId : String) (now now' : ℤ)
    (manager : AuthManager) : Except Error AuthResponse × AuthManager :=
  if manager.config.required = false then
    (.ok ⟨true, none, none, some ["read", "write"]⟩, manager)
  else if request.method = .none ∨ request.method ∉ manager.config.methods then
    (.error (.auth "Authentication method is not permitted"), manager)
  else
    match request.method with
    | .apiKey => manager.authenticateApiKey blake3 request.credentials sessionId now now'
    | .oAuth2 =>
      (.error (.auth "OAuth2 requires a configured token verifier; unavailable"), manager)
    | .vaultToken =>
      (.error (.auth "Vault authentication requires a configured token verifier; unavailable"),
        manager)
    | .none => (.ok ⟨true, none, none, some ["read"]⟩, manager)

/-- Validate a session token. -/
def validateSession (token : String) (now : ℤ) (manager : AuthManager) :
    Except Error (Option AuthSession) × AuthManager :=
  match manager.sessions.lookup token with
  | none => (.ok none, manager)
  | some session =>
    match durationSince now session.createdAt with
    | none =>
      (.error (.internal
        "System time error: second time provided was later than self"), manager)
    | some age =>
      if asSecs age ≥ manager.config.sessionTimeout then
        (.ok none, { manager with sessions := manager.sessions.erase token })
      else
        let session := { session with lastActivity := now }
        (.ok (some session), { manager with sessions := manager.sessions.insert token session })

/-- Check if user has permission. -/
def hasPermission (sessionToken : String) (permission : Permission) (now : ℤ)
    (manager : AuthManager) : Bool :=
  match manager.sessions.lookup sessionToken with
  | none => false
  | some session =>
    ((durationSince now session.createdAt).map
        fun age => decide (asSecs age < manager.config.sessionTimeout)).getD false &&
      decide (permission ∈ session.permissions)

/-! ## Sequences of calls -/

/-- A call, with the readings of the clock that it makes. -/
inductive Call
  | registerApiKey (key userId : String) (permissions : List Permission)
  | authenticate (request : AuthRequest) (sessionId : String) (now now' : ℤ)
  | validateSession (token : String) (now : ℤ)
  | hasPermission (token : String) (permission : Permission) (now : ℤ)
  | cleanupExpiredSessions (now : ℤ)

/-- What a call does to the manager. -/
def apply (manager : AuthManager) : Call → AuthManager
  | .registerApiKey key userId permissions =>
    (manager.registerApiKey blake3 key userId permissions).2
  | .authenticate request sessionId now now' =>
    (manager.authenticate blake3 request sessionId now now').2
  | .validateSession token now => (manager.validateSession token now).2
  | .hasPermission _ _ _ => manager
  | .cleanupExpiredSessions now => manager.cleanupExpiredSessions now

/-- The readings of the clock. -/
def Call.readings : Call → List ℤ
  | .registerApiKey _ _ _ => []
  | .authenticate _ _ now now' => [now, now']
  | .validateSession _ now => [now]
  | .hasPermission _ _ now => [now]
  | .cleanupExpiredSessions now => [now]

/-- The identifier that is drawn. -/
def Call.sessionId : Call → Option String
  | .authenticate _ sessionId _ _ => some sessionId
  | _ => none

/-- The key that is registered or presented. -/
def Call.key : Call → Option String
  | .registerApiKey key _ _ => some key
  | .authenticate request _ _ _ => request.credentials.lookup "api_key"
  | _ => none

/-- The clock does not go back, no identifier is drawn twice, and different keys have different
hashes. -/
structure Regular (calls : List Call) : Prop where
  ordered : (calls.flatMap Call.readings).Pairwise (· ≤ ·)
  fresh : (calls.filterMap Call.sessionId).Nodup
  injective : Set.InjOn (fun key => blake3 (Bytes.ofString key))
    {key | key ∈ calls.filterMap Call.key}

/-- The manager after the calls. -/
def after (config : AuthConfig) (calls : List Call) : AuthManager :=
  Runs.run (apply blake3) (new config) calls

/-- The user and the permissions that a call registers a key with, if it succeeds. -/
def Call.registers (key : String) : Call → Option (String × List Permission)
  | .registerApiKey key' userId permissions =>
    if key' = key ∧ ¬ ((Bytes.ofString key').length < 32 ∨ userId = "" ∨ permissions = []) then
      some (userId, permissions)
    else none
  | _ => none

/-- The first registration of a key. -/
def firstRegistration (key : String) (past : List Call) : Option (String × List Permission) :=
  past.findSome? (Call.registers key)

/-- A call after the others returns the token of a new session with what its key was first
registered with. -/
def Issues (config : AuthConfig) (token : String) (grant : Grant) (past : List Call)
    (call : Call) : Prop :=
  ∃ request now key response,
    call = .authenticate request token now grant.createdAt ∧
    request.credentials.lookup "api_key" = some key ∧
    firstRegistration key past = some (grant.userId, grant.permissions) ∧
    ((after blake3 config past).authenticate blake3 request token now grant.createdAt).1 =
      .ok response ∧
    response.sessionToken = some token

/-- One of the calls has issued a session. -/
def Issued (config : AuthConfig) (calls : List Call) (token : String) (grant : Grant) : Prop :=
  Runs.Happened (Issues blake3 config token grant) calls

/-- A time that is not before any reading of the clock. -/
def Current (calls : List Call) (now : ℤ) : Prop :=
  ∀ reading ∈ calls.flatMap Call.readings, reading ≤ now

/-- What is promised of the sessions after the calls. -/
structure Sound (config : AuthConfig) (calls : List Call) : Prop where
  card_le : (after blake3 config calls).sessions.keys.card ≤ config.maxSessions
  issued : ∀ token session, (after blake3 config calls).sessions.lookup token = some session →
    Issued blake3 config calls token session.grant
  hasPermission_iff : ∀ token permission now,
    (after blake3 config calls).hasPermission token permission now = true ↔
      ∃ session, ((after blake3 config calls).validateSession token now).1 = .ok (some session) ∧
        permission ∈ session.permissions
  hasPermission_iff_issued : ∀ token permission now, Current calls now →
    ((after blake3 config calls).hasPermission token permission now = true ↔
      ∃ grant, Issued blake3 config calls token grant ∧ permission ∈ grant.permissions ∧
        now - grant.createdAt < config.sessionTimeout * 1000000000)
  creates_none : ∀ request sessionId now now' error,
    ((after blake3 config calls).authenticate blake3 request sessionId now now').1 =
      .error error →
    ∀ token session,
      ((after blake3 config calls).authenticate blake3 request sessionId now now').2.sessions.lookup
        token = some session →
      (after blake3 config calls).sessions.lookup token = some session
  removes_expired : ∀ request sessionId now now' error, Current calls now →
    ((after blake3 config calls).authenticate blake3 request sessionId now now').1 =
      .error error →
    ∀ token session, (after blake3 config calls).sessions.lookup token = some session →
      ((after blake3 config calls).authenticate blake3 request sessionId now now').2.sessions.lookup
        token = some session ∨ now - session.createdAt ≥ config.sessionTimeout * 1000000000

/-! ## Lifetimes -/

/-- Instants are compared as numbers. -/
local instance instPreorderInstant : Preorder ℤ := Int.instLinearOrder.toPreorder

/-- A session lives for the number of seconds. -/
def lifetime (config : AuthConfig) : Expiry.Lifetime Grant ℤ where
  Expired grant now := grant.createdAt + config.sessionTimeout * 1000000000 ≤ now
  mono htime hexpired := le_trans hexpired htime

/-- The session has begun, and has not expired. -/
def Alive (config : AuthConfig) (grant : Grant) (now : ℤ) : Prop :=
  grant.createdAt ≤ now ∧ ¬ (lifetime config).Expired grant now

/-- The decision by whole seconds. -/
lemma asSecs_lt_iff (config : AuthConfig) (grant : Grant) (now : ℤ) :
    ((durationSince now grant.createdAt).map
      fun age => decide (asSecs age < config.sessionTimeout)).getD false = true ↔
      Alive config grant now := by
  rw [durationSince, Alive, lifetime, not_le]
  split_ifs with hle
  · simp only [Option.map_some, Option.getD_some, decide_eq_true_eq, hle, true_and]
    rw [asSecs]
    omega
  · simp [hle]

/-- The decision by exact durations. -/
lemma lt_fromSecs_iff (config : AuthConfig) (grant : Grant) (now : ℤ) :
    ((durationSince now grant.createdAt).map
      fun age => decide (age < fromSecs config.sessionTimeout)).getD false = true ↔
      Alive config grant now := by
  rw [durationSince, Alive, lifetime, not_le]
  split_ifs with hle
  · simp only [Option.map_some, Option.getD_some, decide_eq_true_eq, hle, true_and]
    rw [fromSecs]
    omega
  · simp [hle]

variable {blake3} {manager : AuthManager}

/-- What is granted under a token. -/
def Stored (manager : AuthManager) (token : String) (grant : Grant) : Prop :=
  ∃ session, manager.sessions.lookup token = some session ∧ session.grant = grant

/-! ## What the calls do -/

lemma lookup_cleanupExpiredSessions (now : ℤ) {token : String} {session : AuthSession} :
    (manager.cleanupExpiredSessions now).sessions.lookup token = some session ↔
      manager.sessions.lookup token = some session ∧ Alive manager.config session.grant now := by
  have halive := lt_fromSecs_iff manager.config session.grant now
  rw [cleanupExpiredSessions, HashMap.lookup_retain]
  exact and_congr_right fun _ => halive

/-- What a session has to be for its permissions to count. -/
lemma hasPermission_eq_true_iff {token : String} {permission : Permission} {now : ℤ} :
    manager.hasPermission token permission now = true ↔
      ∃ session, manager.sessions.lookup token = some session ∧
        Alive manager.config session.grant now ∧ permission ∈ session.permissions := by
  rw [hasPermission]
  cases hlookup : manager.sessions.lookup token with
  | none => simp
  | some session =>
    have halive := asSecs_lt_iff manager.config session.grant now
    simp only [AuthSession.grant] at halive
    simp [halive, AuthSession.grant]

/-- Validation leaves the sessions, removes one that is not alive, or notes the activity of one. -/
lemma validateSession_cases (token : String) (now : ℤ) (manager : AuthManager) :
    (manager.sessions.lookup token = none ∧
      manager.validateSession token now = (.ok none, manager)) ∨
    (∃ session error, manager.sessions.lookup token = some session ∧
      now < session.createdAt ∧ manager.validateSession token now = (.error error, manager)) ∨
    (∃ session, manager.sessions.lookup token = some session ∧
      (lifetime manager.config).Expired session.grant now ∧ session.createdAt ≤ now ∧
      manager.validateSession token now =
        (.ok none, { manager with sessions := manager.sessions.erase token })) ∨
    (∃ session, manager.sessions.lookup token = some session ∧
      Alive manager.config session.grant now ∧
      manager.validateSession token now =
        (.ok (some { session with lastActivity := now }),
          { manager with
            sessions := manager.sessions.insert token { session with lastActivity := now } })) := by
  rw [validateSession]
  cases hlookup : manager.sessions.lookup token with
  | none => exact Or.inl ⟨rfl, rfl⟩
  | some session =>
    refine Or.inr ?_
    by_cases hle : session.createdAt ≤ now
    · have hage : durationSince now session.createdAt = some (now - session.createdAt).toNat :=
        if_pos hle
      simp only [hage]
      split_ifs with hsecs
      · refine Or.inr (Or.inl ⟨session, rfl, ?_, hle, rfl⟩)
        simp only [asSecs] at hsecs
        simp only [lifetime, AuthSession.grant]
        omega
      · refine Or.inr (Or.inr ⟨session, rfl, ⟨hle, ?_⟩, rfl⟩)
        simp only [asSecs] at hsecs
        simp only [lifetime, AuthSession.grant]
        omega
    · have hage : durationSince now session.createdAt = none := if_neg hle
      simp only [hage]
      exact Or.inl ⟨session, _, rfl, not_le.mp hle, rfl⟩

/-- Validation changes the sessions only. -/
lemma validateSession_frame (token : String) (now : ℤ) (manager : AuthManager) :
    (manager.validateSession token now).2.config = manager.config ∧
      (manager.validateSession token now).2.apiKeys = manager.apiKeys := by
  rcases validateSession_cases token now manager with ⟨-, hcall⟩ | ⟨_, _, -, -, hcall⟩ |
    ⟨_, -, -, -, hcall⟩ | ⟨_, -, -, hcall⟩
  all_goals
    rw [hcall]
    exact ⟨rfl, rfl⟩

/-- Validation returns a session iff it is alive. -/
lemma exists_validateSession_iff {token : String} {permission : Permission} {now : ℤ} :
    (∃ session, (manager.validateSession token now).1 = .ok (some session) ∧
      permission ∈ session.permissions) ↔
      ∃ session, manager.sessions.lookup token = some session ∧
        Alive manager.config session.grant now ∧ permission ∈ session.permissions := by
  rcases validateSession_cases token now manager with ⟨hnone, hcall⟩ |
    ⟨session, error, hlookup, hearly, hcall⟩ | ⟨session, hlookup, hexpired, -, hcall⟩ |
    ⟨session, hlookup, halive, hcall⟩
  · simp [hcall, hnone]
  · have hdead : ¬ Alive manager.config session.grant now := fun halive =>
      absurd halive.1 (not_le.mpr hearly)
    simp [hcall, hlookup, hdead]
  · have hdead : ¬ Alive manager.config session.grant now := fun halive => halive.2 hexpired
    simp [hcall, hlookup, hdead]
  · simp [hcall, hlookup, halive]

/-- Authentication fails without a session, fails after the expired ones were removed, or issues a
session for the first entry with the hash of the key. -/
lemma authenticate_cases (hrequired : manager.config.required = true) (request : AuthRequest)
    (sessionId : String) (now now' : ℤ) :
    (∃ error, manager.authenticate blake3 request sessionId now now' = (.error error, manager)) ∨
    (∃ error, manager.authenticate blake3 request sessionId now now' =
      (.error error, manager.cleanupExpiredSessions now)) ∨
    ∃ key entry, request.credentials.lookup "api_key" = some key ∧
      manager.apiKeys.find? (fun entry => entry.digest == blake3 (Bytes.ofString key)) =
        some entry ∧
      (manager.cleanupExpiredSessions now).sessions.keys.card < manager.config.maxSessions ∧
      manager.authenticate blake3 request sessionId now now' =
        (.ok ⟨true, some sessionId, none, some (entry.permissions.map Permission.toString)⟩,
          { manager with
            sessions := (manager.cleanupExpiredSessions now).sessions.insert sessionId
              ⟨sessionId, entry.userId, .apiKey, now', now', entry.permissions⟩ }) := by
  rw [authenticate, if_neg (by simp [hrequired])]
  split_ifs with hmethod
  · exact Or.inl ⟨_, rfl⟩
  · cases hkind : request.method with
    | none => exact absurd (Or.inl hkind) hmethod
    | oAuth2 => exact Or.inl ⟨_, rfl⟩
    | vaultToken => exact Or.inl ⟨_, rfl⟩
    | apiKey =>
      simp only [authenticateApiKey]
      cases hkey : request.credentials.lookup "api_key" with
      | none => exact Or.inl ⟨_, rfl⟩
      | some key =>
        cases hentry : manager.apiKeys.find?
            (fun entry => entry.digest == blake3 (Bytes.ofString key)) with
        | none => exact Or.inl ⟨.auth "Invalid API key", by simp only [hentry]⟩
        | some entry =>
          simp only [hentry, createSession]
          split_ifs with hfull
          · exact Or.inr (Or.inl ⟨_, rfl⟩)
          · exact Or.inr (Or.inr ⟨key, entry, rfl, hentry, not_le.mp hfull, rfl⟩)

/-- An authentication that fails leaves the sessions, or cleans them up. -/
lemma authenticate_of_error (hrequired : manager.config.required = true) {request : AuthRequest}
    {sessionId : String} {now now' : ℤ} {error : Error}
    (h : (manager.authenticate blake3 request sessionId now now').1 = .error error) :
    (manager.authenticate blake3 request sessionId now now').2 = manager ∨
      (manager.authenticate blake3 request sessionId now now').2 =
        manager.cleanupExpiredSessions now := by
  rcases authenticate_cases hrequired request sessionId now now' with ⟨_, hcall⟩ |
    ⟨_, hcall⟩ | ⟨key, entry, -, -, -, hcall⟩
  · exact Or.inl (by rw [hcall])
  · exact Or.inr (by rw [hcall])
  · rw [hcall] at h
    cases h

/-! ## Keys -/

/-- The entry that a call adds, if it succeeds. -/
def Call.entry (blake3 : List UInt8 → List UInt8) : Call → Option ApiKey
  | .registerApiKey key userId permissions =>
    if (Bytes.ofString key).length < 32 ∨ userId = "" ∨ permissions = [] then none
    else some ⟨blake3 (Bytes.ofString key), userId, permissions⟩
  | _ => none

/-- The first entry with the hash of a key is that of its first registration. -/
lemma find?_entries {key : String} : ∀ {calls : List Call},
    Set.InjOn (fun key => blake3 (Bytes.ofString key)) {k | k ∈ key :: calls.filterMap Call.key} →
    ((calls.filterMap (Call.entry blake3)).find?
        fun entry => entry.digest == blake3 (Bytes.ofString key)).map
          (fun entry => (entry.userId, entry.permissions)) = firstRegistration key calls := by
  intro calls
  induction calls with
  | nil => exact fun _ => rfl
  | cons call calls ih =>
    intro hinj
    have hrest := ih (hinj.mono fun k hk => by
      rcases List.mem_cons.mp hk with rfl | hk
      · exact List.mem_cons_self
      · obtain ⟨call', hmem, hkey⟩ := List.mem_filterMap.mp hk
        have hmem' := List.mem_filterMap.mpr ⟨call', List.mem_cons_of_mem call hmem, hkey⟩
        exact List.mem_cons_of_mem _ hmem')
    cases call with
    | registerApiKey key' userId permissions =>
      by_cases hbad : (Bytes.ofString key').length < 32 ∨ userId = "" ∨ permissions = []
      · have hentry : Call.entry blake3 (.registerApiKey key' userId permissions) = none :=
          if_pos hbad
        have hregisters : Call.registers key (.registerApiKey key' userId permissions) = none :=
          if_neg fun h => h.2 hbad
        rw [List.filterMap_cons_none hentry, hrest, firstRegistration, firstRegistration,
          List.findSome?_cons, hregisters]
      · have hentry : Call.entry blake3 (.registerApiKey key' userId permissions) =
            some ⟨blake3 (Bytes.ofString key'), userId, permissions⟩ := if_neg hbad
        rw [List.filterMap_cons_some hentry, firstRegistration, List.findSome?_cons]
        rcases eq_or_ne key' key with rfl | hne
        · have hregisters : Call.registers key' (.registerApiKey key' userId permissions) =
              some (userId, permissions) := if_pos ⟨rfl, hbad⟩
          simp [hregisters]
        · have hregisters : Call.registers key (.registerApiKey key' userId permissions) = none :=
            if_neg fun h => hne h.1
          have hdigest : blake3 (Bytes.ofString key') ≠ blake3 (Bytes.ofString key) := fun heq =>
            hne (hinj (by simp [Call.key]) List.mem_cons_self heq)
          rw [hregisters, List.find?_cons, beq_eq_false_iff_ne.mpr hdigest, hrest,
            firstRegistration]
    | authenticate request sessionId now now' => exact hrest
    | validateSession token now => exact hrest
    | hasPermission token permission now => exact hrest
    | cleanupExpiredSessions now => exact hrest

/-! ## Shrinking -/

/-- Sessions go, but only expired ones. -/
structure Shrinks (config : AuthConfig) (manager manager' : AuthManager) (now : ℤ) : Prop where
  stored_of : ∀ {token grant}, manager'.Stored token grant → manager.Stored token grant
  or_expired : ∀ {token grant}, manager.Stored token grant →
    manager'.Stored token grant ∨ (lifetime config).Expired grant now
  card_le : manager'.sessions.keys.card ≤ manager.sessions.keys.card

lemma Shrinks.mono {config : AuthConfig} {manager manager' : AuthManager} {now now' : ℤ}
    (h : Shrinks config manager manager' now) (hle : now ≤ now') :
    Shrinks config manager manager' now' where
  stored_of := h.stored_of
  or_expired hstored := (h.or_expired hstored).imp_right ((lifetime config).mono hle)
  card_le := h.card_le

lemma Shrinks.of_sessions_eq {config : AuthConfig} {manager manager' : AuthManager} {now : ℤ}
    (h : manager'.sessions = manager.sessions) : Shrinks config manager manager' now where
  stored_of hstored := by rwa [Stored, ← h]
  or_expired hstored := Or.inl (by rwa [Stored, h])
  card_le := by rw [h]

/-- Cleaning up removes sessions that have expired, if all began before. -/
lemma shrinks_cleanupExpiredSessions {now : ℤ}
    (hbegun : ∀ {token grant}, manager.Stored token grant → grant.createdAt ≤ now) :
    Shrinks manager.config manager (manager.cleanupExpiredSessions now) now where
  stored_of := by
    rintro token grant ⟨session, hlookup, rfl⟩
    exact ⟨session, (lookup_cleanupExpiredSessions now).mp hlookup |>.1, rfl⟩
  or_expired := by
    rintro token grant ⟨session, hlookup, rfl⟩
    rcases Classical.em ((lifetime manager.config).Expired session.grant now) with hexp | hlive
    · exact Or.inr hexp
    · have halive : Alive manager.config session.grant now :=
        ⟨hbegun ⟨session, hlookup, rfl⟩, hlive⟩
      exact Or.inl ⟨session, (lookup_cleanupExpiredSessions now).mpr ⟨hlookup, halive⟩, rfl⟩
  card_le := HashMap.card_keys_retain_le _ _

/-- Validating a session removes it if it has expired, and keeps what it grants otherwise. -/
lemma shrinks_validateSession (token : String) (now : ℤ) (manager : AuthManager) :
    Shrinks manager.config manager (manager.validateSession token now).2 now := by
  rcases validateSession_cases token now manager with ⟨hnone, hcall⟩ |
    ⟨session, error, hlookup, hearly, hcall⟩ | ⟨session, hlookup, hexpired, -, hcall⟩ |
    ⟨session, hlookup, halive, hcall⟩
  · rw [hcall]
    exact Shrinks.of_sessions_eq rfl
  · rw [hcall]
    exact Shrinks.of_sessions_eq rfl
  · rw [hcall]
    refine ⟨?_, ?_, ?_⟩
    · rintro token' grant ⟨session', hlookup', rfl⟩
      have hne : token' ≠ token := by
        rintro rfl
        rw [Finmap.lookup_erase] at hlookup'
        exact Option.some_ne_none _ hlookup'.symm
      exact ⟨session', by rwa [Finmap.lookup_erase_ne hne] at hlookup', rfl⟩
    · rintro token' grant ⟨session', hlookup', rfl⟩
      rcases eq_or_ne token' token with rfl | hne
      · rw [hlookup] at hlookup'
        cases hlookup'
        exact Or.inr hexpired
      · exact Or.inl ⟨session', by rwa [Finmap.lookup_erase_ne hne], rfl⟩
    · show (manager.sessions.erase token).keys.card ≤ _
      rw [Finmap.keys_erase]
      exact Finset.card_erase_le
  · rw [hcall]
    have hstored {token' : String} {grant : Grant} :
        Stored { manager with
          sessions := manager.sessions.insert token { session with lastActivity := now } }
          token' grant ↔ manager.Stored token' grant := by
      simp only [Stored, HashMap.lookup_insert_ite]
      split_ifs with heq
      · subst heq
        simp [hlookup, AuthSession.grant]
      · rfl
    refine ⟨hstored.mp, fun h => Or.inl (hstored.mpr h), ?_⟩
    show (manager.sessions.insert token _).keys.card ≤ _
    rw [HashMap.card_keys_insert_of_mem (HashMap.mem_of_lookup hlookup)]

/-! ## What is issued -/

variable (blake3) in
/-- What holds after the calls. -/
structure Inv (config : AuthConfig) (calls : List Call) (manager : AuthManager) : Prop where
  config_eq : manager.config = config
  apiKeys_eq : manager.apiKeys = calls.filterMap (Call.entry blake3)
  card_le : manager.sessions.keys.card ≤ config.maxSessions
  tracks : ∀ now, Current calls now →
    Expiry.Tracks (lifetime config) (Issued blake3 config calls) manager.Stored now

variable {config : AuthConfig} {calls : List Call} {call : Call} {token : String} {grant : Grant}

/-- A session that was issued has a token that was drawn, and began when the clock was read. -/
lemma mem_of_issued (h : Issued blake3 config calls token grant) :
    token ∈ calls.filterMap Call.sessionId ∧ grant.createdAt ∈ calls.flatMap Call.readings := by
  obtain ⟨past, call, future, rfl, request, now, key, response, rfl, -⟩ := h
  simp [Call.sessionId, Call.readings]

lemma Regular.of_concat (h : Regular blake3 (calls ++ [call])) : Regular blake3 calls where
  ordered := by
    have hordered := h.ordered
    rw [List.flatMap_append] at hordered
    exact (List.pairwise_append.mp hordered).1
  fresh := by
    have hfresh := h.fresh
    rw [List.filterMap_append] at hfresh
    exact hfresh.of_append_left
  injective := h.injective.mono fun key hkey => by
    have hkey : key ∈ calls.filterMap Call.key := hkey
    show key ∈ (calls ++ [call]).filterMap Call.key
    rw [List.filterMap_append]
    exact List.mem_append_left _ hkey

/-- The readings of the last call are not before those of the others. -/
lemma Regular.current (h : Regular blake3 (calls ++ [call])) {now : ℤ}
    (hnow : now ∈ call.readings) : Current calls now := by
  have hordered := h.ordered
  rw [List.flatMap_append] at hordered
  exact fun reading hreading =>
    (List.pairwise_append.mp hordered).2.2 reading hreading now (by simpa using hnow)

lemma current_concat {now : ℤ} :
    Current (calls ++ [call]) now ↔
      Current calls now ∧ ∀ reading ∈ call.readings, reading ≤ now := by
  simp only [Current, List.flatMap_append, List.mem_append, List.flatMap_singleton]
  exact forall₂_or_left

/-- What a call that succeeds in authenticating issues. -/
lemma issues_authenticate_iff {request : AuthRequest} {sessionId key : String} {now now' : ℤ}
    {entry : ApiKey} {response : AuthResponse} {manager' : AuthManager}
    (hkey : request.credentials.lookup "api_key" = some key)
    (hentry : firstRegistration key calls = some (entry.userId, entry.permissions))
    (hcall : (after blake3 config calls).authenticate blake3 request sessionId now now' =
      (.ok response, manager'))
    (htoken : response.sessionToken = some sessionId) :
    Issues blake3 config token grant calls (.authenticate request sessionId now now') ↔
      token = sessionId ∧ grant = ⟨entry.userId, entry.permissions, now'⟩ := by
  constructor
  · rintro ⟨request', now'', key', response', heq, hkey', hfirst, -, -⟩
    obtain ⟨rfl, rfl, rfl, rfl⟩ := Call.authenticate.inj heq
    rw [hkey] at hkey'
    cases hkey'
    rw [hentry] at hfirst
    obtain ⟨huser, hpermissions⟩ := Prod.mk.inj (Option.some.inj hfirst)
    exact ⟨rfl, by rw [huser, hpermissions]⟩
  · rintro ⟨rfl, rfl⟩
    exact ⟨request, now, key, response, rfl, hkey, hentry, by rw [hcall], htoken⟩

/-- A call that fails to authenticate issues nothing. -/
lemma not_issues_of_error {request : AuthRequest} {sessionId : String} {now now' : ℤ}
    {error : Error} (h : ((after blake3 config calls).authenticate blake3 request sessionId now
      now').1 = .error error) :
    ¬ Issues blake3 config token grant calls (.authenticate request sessionId now now') := by
  rintro ⟨request', now'', key', response, heq, -, -, hok, -⟩
  obtain ⟨rfl, rfl, rfl, rfl⟩ := Call.authenticate.inj heq
  rw [h] at hok
  cases hok

namespace Inv

/-- The step for the sessions: some go, and those that the call issues come. -/
lemma tracks_concat {mid manager' : AuthManager} (hinv : Inv blake3 config calls manager)
    (hshrinks : ∀ now, Current (calls ++ [call]) now → Shrinks config manager mid now)
    (hstored : ∀ {token grant}, manager'.Stored token grant ↔
      mid.Stored token grant ∨ Issues blake3 config token grant calls call) (now : ℤ)
    (hnow : Current (calls ++ [call]) now) :
    Expiry.Tracks (lifetime config) (Issued blake3 config (calls ++ [call])) manager'.Stored now :=
  have hmid := (hinv.tracks now (current_concat.mp hnow).1).forget (le_refl now)
    (hshrinks now hnow).stored_of (hshrinks now hnow).or_expired
  hmid.give Runs.happened_concat hstored

/-- All sessions began when the clock was read. -/
lemma begun (hinv : Inv blake3 config calls manager) {now : ℤ} (hnow : Current calls now)
    {token : String} {grant : Grant} (hstored : manager.Stored token grant) :
    grant.createdAt ≤ now := by
  have hissued := (hinv.tracks now hnow).given_of_stored hstored
  exact hnow _ (mem_of_issued hissued).2

/-- A call that issues nothing, and leaves the keys. -/
lemma concat_of_shrinks {manager' : AuthManager} (hinv : Inv blake3 config calls manager)
    (hconfig : manager'.config = manager.config) (hkeys : manager'.apiKeys = manager.apiKeys)
    (hentry : call.entry blake3 = none)
    (hshrinks : ∀ now, Current (calls ++ [call]) now → Shrinks config manager manager' now)
    (hcard : manager'.sessions.keys.card ≤ manager.sessions.keys.card)
    (hissues : ∀ {token grant}, ¬ Issues blake3 config token grant calls call) :
    Inv blake3 config (calls ++ [call]) manager' where
  config_eq := hconfig.trans hinv.config_eq
  apiKeys_eq := by
    rw [hkeys, hinv.apiKeys_eq, List.filterMap_append, List.filterMap_cons_none hentry,
      List.filterMap_nil, List.append_nil]
  card_le := hcard.trans hinv.card_le
  tracks := hinv.tracks_concat hshrinks fun {token grant} => by simp [hissues]

/-- A registration adds an entry, if it succeeds. -/
lemma registerApiKey (hinv : Inv blake3 config calls manager) (key userId : String)
    (permissions : List Permission) :
    Inv blake3 config (calls ++ [.registerApiKey key userId permissions])
      (manager.registerApiKey blake3 key userId permissions).2 := by
  have hsessions : (manager.registerApiKey blake3 key userId permissions).2.sessions =
      manager.sessions := by
    rw [AuthManager.registerApiKey]
    split_ifs <;> rfl
  refine ⟨?_, ?_, ?_, ?_⟩
  · rw [AuthManager.registerApiKey]
    split_ifs
    · exact hinv.config_eq
    · exact hinv.config_eq
  · rw [AuthManager.registerApiKey, List.filterMap_append, ← hinv.apiKeys_eq]
    split_ifs with hbad
    · have hentry : Call.entry blake3 (.registerApiKey key userId permissions) = none :=
        if_pos hbad
      rw [List.filterMap_cons_none hentry, List.filterMap_nil, List.append_nil]
    · have hentry : Call.entry blake3 (.registerApiKey key userId permissions) =
          some ⟨blake3 (Bytes.ofString key), userId, permissions⟩ := if_neg hbad
      rw [List.filterMap_cons_some hentry, List.filterMap_nil]
  · rw [hsessions]
    exact hinv.card_le
  · refine hinv.tracks_concat (fun now _ => Shrinks.of_sessions_eq hsessions)
      fun {token grant} => ?_
    have hissues : ¬ Issues blake3 config token grant calls
        (.registerApiKey key userId permissions) := by
      rintro ⟨request, now, key', response, heq, -⟩
      cases heq
    simp [hissues]

/-- An authentication issues a session for a registered key, or only removes expired ones. -/
lemma authenticate (hinv : Inv blake3 config calls (after blake3 config calls))
    (hrequired : config.required = true) (request : AuthRequest) (sessionId : String)
    (now now' : ℤ)
    (hregular : Regular blake3 (calls ++ [.authenticate request sessionId now now'])) :
    Inv blake3 config (calls ++ [.authenticate request sessionId now now'])
      ((after blake3 config calls).authenticate blake3 request sessionId now now').2 := by
  have hrequired' : (after blake3 config calls).config.required = true := by
    rwa [hinv.config_eq]
  have hcurrent : Current calls now := hregular.current List.mem_cons_self
  have hcleanup := shrinks_cleanupExpiredSessions (hinv.begun hcurrent)
  rw [hinv.config_eq] at hcleanup
  have hshrinks : ∀ t, Current (calls ++ [.authenticate request sessionId now now']) t →
      Shrinks config (after blake3 config calls)
        ((after blake3 config calls).cleanupExpiredSessions now) t := fun t ht =>
    hcleanup.mono ((current_concat.mp ht).2 now List.mem_cons_self)
  rcases authenticate_cases hrequired' request sessionId now now' with ⟨error, hcall⟩ |
    ⟨error, hcall⟩ | ⟨key, entry, hkey, hentry, hcard, hcall⟩
  · rw [hcall]
    exact hinv.concat_of_shrinks rfl rfl rfl (fun t _ => Shrinks.of_sessions_eq rfl) (le_refl _)
      (not_issues_of_error (by rw [hcall]))
  · rw [hcall]
    exact hinv.concat_of_shrinks rfl rfl rfl hshrinks hcleanup.card_le
      (not_issues_of_error (by rw [hcall]))
  · have hfirst : firstRegistration key calls = some (entry.userId, entry.permissions) := by
      have hinjective := hregular.injective
      rw [hinv.apiKeys_eq] at hentry
      rw [← find?_entries (hinjective.mono fun k hk => ?_), hentry, Option.map_some]
      rcases List.mem_cons.mp hk with rfl | hk
      · simp [Call.key, hkey]
      · obtain ⟨call', hmem, hkey'⟩ := List.mem_filterMap.mp hk
        exact List.mem_filterMap.mpr ⟨call', List.mem_append_left _ hmem, hkey'⟩
    -- The identifier is new, so that no other session is overwritten.
    have hnew : ∀ {grant}, ¬ ((after blake3 config calls).cleanupExpiredSessions now).Stored
        sessionId grant := fun {grant} hstored => by
      have hissued := (hinv.tracks now hcurrent).given_of_stored (hcleanup.stored_of hstored)
      have hfresh := hregular.fresh
      rw [List.filterMap_append] at hfresh
      exact (List.disjoint_of_nodup_append hfresh) (mem_of_issued hissued).1
        (by simp [Call.sessionId])
    rw [hcall]
    refine ⟨hinv.config_eq, ?_, ?_, hinv.tracks_concat hshrinks fun {token grant} => ?_⟩
    · rw [List.filterMap_append, ← hinv.apiKeys_eq]
      exact (List.append_nil _).symm
    · rw [hinv.config_eq] at hcard
      exact (HashMap.card_keys_insert_le _ _ _).trans hcard
    · rw [issues_authenticate_iff hkey hfirst hcall rfl]
      rcases eq_or_ne token sessionId with rfl | hne
      · constructor
        · rintro ⟨session, hlookup, rfl⟩
          rw [Finmap.lookup_insert] at hlookup
          cases hlookup
          exact Or.inr ⟨rfl, rfl⟩
        · rintro (hold | ⟨-, rfl⟩)
          · exact absurd hold hnew
          · exact ⟨_, Finmap.lookup_insert _, rfl⟩
      · simp [Stored, Finmap.lookup_insert_of_ne _ hne, hne]

/-- Every call keeps the invariant. -/
lemma step (hinv : Inv blake3 config calls (after blake3 config calls))
    (hrequired : config.required = true) (hregular : Regular blake3 (calls ++ [call])) :
    Inv blake3 config (calls ++ [call]) (apply blake3 (after blake3 config calls) call) := by
  cases call with
  | registerApiKey key userId permissions => exact hinv.registerApiKey key userId permissions
  | authenticate request sessionId now now' =>
    exact hinv.authenticate hrequired request sessionId now now' hregular
  | validateSession token now =>
    have hshrinks := shrinks_validateSession token now (after blake3 config calls)
    obtain ⟨hconfig, hkeys⟩ := validateSession_frame token now (after blake3 config calls)
    rw [hinv.config_eq] at hshrinks
    refine hinv.concat_of_shrinks hconfig hkeys rfl (fun t ht => ?_) hshrinks.card_le ?_
    · exact hshrinks.mono ((current_concat.mp ht).2 now List.mem_cons_self)
    · rintro token' grant ⟨request, now', key, response, heq, -⟩
      cases heq
  | hasPermission token permission now =>
    refine hinv.concat_of_shrinks rfl rfl rfl (fun t _ => Shrinks.of_sessions_eq rfl) (le_refl _) ?_
    rintro token' grant ⟨request, now', key, response, heq, -⟩
    cases heq
  | cleanupExpiredSessions now =>
    have hcleanup := shrinks_cleanupExpiredSessions
      (hinv.begun (hregular.current List.mem_cons_self))
    rw [hinv.config_eq] at hcleanup
    refine hinv.concat_of_shrinks rfl rfl rfl (fun t ht => ?_) hcleanup.card_le ?_
    · exact hcleanup.mono ((current_concat.mp ht).2 now List.mem_cons_self)
    · rintro token' grant ⟨request, now', key, response, heq, -⟩
      cases heq

end Inv

/-! ## The promise -/

/-- Every regular sequence of calls keeps the invariant. -/
theorem inv_after (hrequired : config.required = true) (hregular : Regular blake3 calls) :
    Inv blake3 config calls (after blake3 config calls) := by
  refine Runs.history_rule (fun calls manager => Inv blake3 config calls manager)
    (fun _ _ h => h.of_concat) ?_ (fun past call h hinv => hinv.step hrequired h) hregular
  refine ⟨rfl, rfl, Nat.zero_le _, fun now _ => ⟨?_, ?_⟩⟩
  · rintro token grant ⟨session, hlookup, -⟩
    exact absurd hlookup (by simp [new])
  · intro token grant hissued
    exact absurd hissued Runs.not_happened_nil

/-- A session counts iff it was issued less than the timeout ago. -/
lemma Inv.hasPermission_iff_issued (hinv : Inv blake3 config calls manager) {now : ℤ}
    (hnow : Current calls now) (token : String) (permission : Permission) :
    manager.hasPermission token permission now = true ↔
      ∃ grant, Issued blake3 config calls token grant ∧ permission ∈ grant.permissions ∧
        now - grant.createdAt < config.sessionTimeout * 1000000000 := by
  have hlive (grant : Grant) : ¬ (lifetime config).Expired grant now ↔
      now - grant.createdAt < config.sessionTimeout * 1000000000 := by
    rw [lifetime]
    omega
  rw [hasPermission_eq_true_iff, hinv.config_eq]
  constructor
  · rintro ⟨session, hlookup, halive, hpermission⟩
    have hstored : manager.Stored token session.grant := ⟨session, hlookup, rfl⟩
    obtain ⟨hissued, hunexpired⟩ :=
      ((hinv.tracks now hnow).live_iff (le_refl now)).mp ⟨hstored, halive.2⟩
    exact ⟨session.grant, hissued, hpermission, (hlive _).mp hunexpired⟩
  · rintro ⟨grant, hissued, hpermission, hrecent⟩
    obtain ⟨hstored, hunexpired⟩ :=
      ((hinv.tracks now hnow).live_iff (le_refl now)).mpr ⟨hissued, (hlive _).mpr hrecent⟩
    have hbegun := hinv.begun hnow hstored
    obtain ⟨session, hlookup, rfl⟩ := hstored
    exact ⟨session, hlookup, ⟨hbegun, hunexpired⟩, hpermission⟩

/-- **Sessions are sound**: in every sequence of calls, there are at most the maximal number of
sessions, each issued for a registered key. The three decisions about expiry agree with when a
session was issued. An authentication that fails creates no session, and removes only expired
ones. -/
theorem sound_after (config : AuthConfig) (calls : List Call) (hrequired : config.required = true)
    (hregular : Regular blake3 calls) : Sound blake3 config calls := by
  have hinv := inv_after hrequired hregular
  have hrequired' : (after blake3 config calls).config.required = true := by rwa [hinv.config_eq]
  refine ⟨hinv.card_le, ?_, ?_, ?_, ?_, ?_⟩
  · intro token session hlookup
    obtain ⟨now, hnow⟩ := (calls.flatMap Call.readings).toFinset.exists_le
    have hcurrent : Current calls now := fun reading hreading =>
      hnow reading (List.mem_toFinset.mpr hreading)
    exact (hinv.tracks now hcurrent).given_of_stored ⟨session, hlookup, rfl⟩
  · intro token permission now
    rw [hasPermission_eq_true_iff, exists_validateSession_iff]
  · intro token permission now hnow
    exact hinv.hasPermission_iff_issued hnow token permission
  · intro request sessionId now now' error herror token session hlookup
    rcases authenticate_of_error hrequired' herror with hcall | hcall
    · rwa [hcall] at hlookup
    · rw [hcall] at hlookup
      exact ((lookup_cleanupExpiredSessions now).mp hlookup).1
  · intro request sessionId now now' error hnow herror token session hlookup
    rcases authenticate_of_error hrequired' herror with hcall | hcall
    · rw [hcall]
      exact Or.inl hlookup
    · rw [hcall, ge_iff_le]
      by_cases hexpired : config.sessionTimeout * 1000000000 ≤ now - session.createdAt
      · exact Or.inr hexpired
      · have hbegun := hinv.begun hnow ⟨session, hlookup, rfl⟩
        refine Or.inl ((lookup_cleanupExpiredSessions now).mpr ⟨hlookup, hbegun, ?_⟩)
        rw [hinv.config_eq]
        simp only [lifetime, AuthSession.grant]
        omega

/-! ## A key and a session -/

/-- Calls that register a key, present it and ask for a permission. -/
def sampleCalls : List Call :=
  [.registerApiKey "test_key_123_012345678901234567890123" "test-user" [.dagRead],
    .authenticate ⟨.apiKey, Finmap.singleton "api_key" "test_key_123_012345678901234567890123"⟩
      "b2f3" 5 6,
    .hasPermission "b2f3" .dagRead 7]

/-- The theorem at the calls, for a hash that is the first 32 bytes. -/
theorem sound_after_sampleCalls :
    Sound (List.take 32) ⟨true, [.apiKey], 3600, 100⟩ sampleCalls := by
  refine sound_after _ sampleCalls rfl ⟨by decide, by decide, ?_⟩
  have hkeys : sampleCalls.filterMap Call.key = List.replicate 2
      "test_key_123_012345678901234567890123" := by
    simp [sampleCalls, Call.key, List.filterMap_cons]
  intro key hkey key' hkey' _
  rw [hkeys] at hkey hkey'
  rw [List.eq_of_mem_replicate hkey, List.eq_of_mem_replicate hkey']

end AuthManager

end QuDAG.Mcp
