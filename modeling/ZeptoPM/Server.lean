import ZeptoPM.Reload

/- The HTTP side of the daemon: its own copy of the managed agents, which the main
   loop writes whenever it starts or removes an agent or takes an update from one,
   and the gateway, which checks a key and a rate limit before it passes a message
   on. The key is resolved once, when the agent is spawned, and from then on nothing
   tells a key that did not resolve from one that was never asked for:
   `protects_iff`. -/
namespace ZeptoPM

/-! ## Gateway configuration -/

/-- The environment variables that are set and hold text. -/
abbrev Environment := String → Option String

structure GatewayConfig where
  enabled : Bool
  apiKey : Option String
  rateLimit : Option Nat
  deriving DecidableEq, Repr

/-- Resolve the API key, expanding `$ENV_VAR` references. -/
def GatewayConfig.resolveApiKey (env : Environment) (gw : GatewayConfig) : Option String :=
  gw.apiKey.bind fun key =>
    match key.toList with
    | '$' :: envName => (env (String.ofList envName)).filter (fun v => !v.isEmpty)
    | _ => some key

/-- Resolved gateway config (env vars already expanded). -/
structure ResolvedGatewayConfig where
  enabled : Bool
  apiKey : Option String
  rateLimit : Option Nat
  deriving DecidableEq, Repr

/-- What `spawn_managed_agent` makes of an agent's gateway config. -/
def GatewayConfig.resolve (env : Environment) (gw : GatewayConfig) : ResolvedGatewayConfig where
  enabled := gw.enabled
  apiKey := gw.resolveApiKey env
  rateLimit := gw.rateLimit

/-! ## Shared state -/

/-- Requests of the last minute, no more than `limit` of them. -/
structure RateLimitBucket where
  window : List Instant
  limit : Nat

def RateLimitBucket.checkAndRecord (now : Instant) (bucket : RateLimitBucket) :
    Bool × RateLimitBucket :=
  let window := bucket.window.dropWhile (fun t => t + 60000 < now)
  if window.length % 2 ^ 32 ≥ bucket.limit then (false, { bucket with window := window })
  else (true, { bucket with window := window ++ [now] })

/-- Lightweight reference to a managed agent for HTTP handlers. -/
structure ManagedAgentRef where
  /-- The bridge at the other end of the agent's command queue. -/
  handle : Nat
  status : AgentStatus
  gateway : Option ResolvedGatewayConfig

structure DaemonState where
  agents : HashMap String ManagedAgentRef
  rateLimits : HashMap String RateLimitBucket

namespace DaemonState

def new : DaemonState := ⟨.empty, .empty⟩

/-- `sync_agent_to_shared`. -/
def syncAgent (s : DaemonState) (name : String) (m : ManagedAgentRef) : DaemonState :=
  { s with agents := s.agents.insert name m }

def removeAgent (s : DaemonState) (name : String) : DaemonState :=
  { s with agents := s.agents.remove name }

/-- Copies the status the daemon holds to the agent's entry, if there is one. -/
def syncStatus (s : DaemonState) (name : String) (status : AgentStatus) : DaemonState :=
  match s.agents.get name with
  | none => s
  | some m => s.syncAgent name { m with status := status }

/-! ## Handlers -/

/-- Sends the agent's bridge a stop, and notes only here that it was asked for. -/
def postStop (s : DaemonState) (name : String) : Option Nat × Except (Nat × String) String × DaemonState :=
  match s.agents.get name with
  | none => (none, .error (404, "agent '" ++ name ++ "' not found"), s)
  | some m => (some m.handle, .ok ("agent '" ++ name ++ "' stop signal sent"),
      s.syncStatus name .stopped)

end DaemonState

/-- Header names in lower case with the bytes of their values, in the order received. -/
abbrev HeaderMap := List (String × List UInt8)

def HeaderMap.get (headers : HeaderMap) (name : String) : Option (List UInt8) :=
  headers.lookup name

/-- The text of a header value, if all of it is visible ASCII. -/
def headerText (value : List UInt8) : Option (List Char) :=
  if value.all (fun b => (32 ≤ b && b < 127) || b == 9) then
    some (value.map (fun b => Char.ofNat b.toNat))
  else none

def extractBearerToken (headers : HeaderMap) : Option String :=
  (((headers.get "authorization").bind headerText).bind
    ("Bearer ".toList.isPrefixOf? ·)).map String.ofList

structure ChatRequest where
  name : String
  headers : HeaderMap
  message : String

inductive GatewayReply where
  | response (agent response : String)
  | error (status : Nat) (error : String) (retryAfterSecs : Option Nat)

/-- Why a request is turned away before it is counted. -/
def ResolvedGatewayConfig.refusal (gw : ResolvedGatewayConfig) (headers : HeaderMap) :
    Option String :=
  match gw.apiKey, extractBearerToken headers with
  | none, _ => none
  | some expectedKey, some token => if token = expectedKey then none else some "invalid API key"
  | some _, none => some "missing Authorization: Bearer <key> header"

/-- The state after a request is handled, what it sent to which bridge, and its reply. -/
structure GatewayOutcome where
  state : DaemonState
  forwarded : Option (Nat × String)
  reply : GatewayReply

namespace DaemonState

/-- Counts the request in the agent's bucket, which keeps the limit it began with. -/
def checkRate (s : DaemonState) (now : Instant) (name : String) (limit : Nat) :
    Bool × DaemonState :=
  let (ok, bucket) := ((s.rateLimits.get name).getD ⟨[], limit⟩).checkAndRecord now
  (ok, { s with rateLimits := s.rateLimits.insert name bucket })

/-- `handle.chat`, the agent's answer being `answer`. -/
def proxy (s : DaemonState) (m : ManagedAgentRef) (req : ChatRequest)
    (answer : Except String String) : GatewayOutcome where
  state := s
  forwarded := some (m.handle, req.message)
  reply := match answer with
    | .ok content => .response req.name content
    | .error e => .error 500 e none

/-- API key, then rate limit, then the agent. -/
def admitted (s : DaemonState) (m : ManagedAgentRef) (gw : ResolvedGatewayConfig) (now : Instant)
    (req : ChatRequest) (answer : Except String String) : GatewayOutcome :=
  match gw.refusal req.headers with
  | some message => ⟨s, none, .error 401 message none⟩
  | none =>
    match gw.rateLimit with
    | none => s.proxy m req answer
    | some limit =>
      match s.checkRate now req.name limit with
      | (false, s) =>
        ⟨s, none, .error 429 ("rate limit exceeded (" ++ toString limit ++ "/min)") (some 60)⟩
      | (true, s) => s.proxy m req answer

def gatewayChat (s : DaemonState) (now : Instant) (req : ChatRequest)
    (answer : Except String String) : GatewayOutcome :=
  match s.agents.get req.name with
  | none => ⟨s, none, .error 404 ("agent '" ++ req.name ++ "' not found") none⟩
  | some m =>
    match m.gateway.filter (·.enabled) with
    | none => ⟨s, none, .error 403 ("gateway not enabled for agent '" ++ req.name ++ "'") none⟩
    | some gw => s.admitted m gw now req answer

end DaemonState

/-! ## Runs of the shared state -/

/-- What happens to the shared state. -/
inductive ServerInput where
  /-- An agent is spawned, by whatever command or timer. -/
  | spawned (name : String) (handle : Nat) (gateway : Option GatewayConfig)
  | removed (name : String)
  | synced (name : String) (status : AgentStatus)
  | stop (name : String)
  | chat (now : Instant) (req : ChatRequest) (answer : Except String String)

def serverStep (env : Environment) (s : DaemonState) : ServerInput → DaemonState
  | .spawned name handle gateway =>
    s.syncAgent name ⟨handle, .starting, gateway.map (·.resolve env)⟩
  | .removed name => s.removeAgent name
  | .synced name status => s.syncStatus name status
  | .stop name => (s.postStop name).2.2
  | .chat now req answer => (s.gatewayChat now req answer).state

/-- The gateway config with which the agent was spawned last, if it is still there. -/
def spawnedWith (name : String) (current : Option (Option GatewayConfig)) :
    ServerInput → Option (Option GatewayConfig)
  | .spawned n _ gateway => if n = name then some gateway else current
  | .removed n => if n = name then none else current
  | _ => current

section
variable {env : Environment} {s : DaemonState} {name : String}

theorem syncStatus_gateway (s : DaemonState) (n name : String) (status : AgentStatus) :
    ((s.syncStatus n status).agents.get name).map (·.gateway) =
      (s.agents.get name).map (·.gateway) := by
  unfold DaemonState.syncStatus
  cases h : s.agents.get n with
  | none => rfl
  | some m =>
    show ((s.agents.insert n { m with status := status }).get name).map (·.gateway) = _
    rw [HashMap.get_insert]
    split
    · rename_i hname
      rw [hname, h]
      rfl
    · rfl

/-- A request leaves the agents alone. -/
theorem gatewayChat_agents (s : DaemonState) (now : Instant) (req : ChatRequest)
    (answer : Except String String) : (s.gatewayChat now req answer).state.agents = s.agents := by
  have hadmit : ∀ m gw, (s.admitted m gw now req answer).state.agents = s.agents := by
    intro m gw
    unfold DaemonState.admitted
    split
    · rfl
    · split
      · rfl
      · rename_i limit _
        have hrate : ∀ ok s', s.checkRate now req.name limit = (ok, s') → s'.agents = s.agents := by
          intro ok s' h
          cases h
          rfl
        split <;> exact hrate _ _ (by assumption)
  unfold DaemonState.gatewayChat
  split
  · rfl
  · split
    · rfl
    · exact hadmit ..

/-- The shared state keeps what the last spawn resolved. -/
theorem serverStep_gateway {current : Option (Option GatewayConfig)}
    (h : (s.agents.get name).map (·.gateway) = current.map (·.map (·.resolve env)))
    (i : ServerInput) :
    ((serverStep env s i).agents.get name).map (·.gateway) =
      (spawnedWith name current i).map (·.map (·.resolve env)) := by
  cases i with
  | spawned n handle gateway =>
    show ((s.agents.insert n _).get name).map _ = Option.map _ (if n = name then _ else _)
    rw [HashMap.get_insert]
    by_cases hn : n = name
    · rw [if_pos hn, if_pos hn.symm]
      rfl
    · rw [if_neg hn, if_neg (Ne.symm hn), h]
  | removed n =>
    show ((s.agents.remove n).get name).map _ = Option.map _ (if n = name then _ else _)
    rw [HashMap.get_remove]
    by_cases hn : n = name
    · rw [if_pos hn, if_pos hn.symm]
      rfl
    · rw [if_neg hn, if_neg (Ne.symm hn), h]
  | synced n status => exact (syncStatus_gateway ..).trans h
  | stop n =>
    refine Eq.trans ?_ h
    show (((s.postStop n).2.2).agents.get name).map _ = _
    unfold DaemonState.postStop
    split
    · rfl
    · exact syncStatus_gateway ..
  | chat now req answer =>
    show (((s.gatewayChat now req answer).state).agents.get name).map _ = _
    rw [gatewayChat_agents]
    exact h

/-- In every run the entry of an agent has what its last spawn resolved. -/
theorem gateway_run (env : Environment) (name : String) (is : List ServerInput) :
    ((run (serverStep env) DaemonState.new is).agents.get name).map (·.gateway) =
      (is.foldl (spawnedWith name) none).map (·.map (·.resolve env)) := by
  suffices h : ∀ s current, (s.agents.get name).map (·.gateway) =
      current.map (·.map (·.resolve env)) →
      ((run (serverStep env) s is).agents.get name).map (·.gateway) =
        (is.foldl (spawnedWith name) current).map (·.map (·.resolve env)) from h _ none rfl
  induction is with
  | nil => exact fun _ _ h => h
  | cons i is ih => exact fun s current h => ih _ _ (serverStep_gateway h i)

end

/-! ## Keys -/

/-- The configured key stands for `v`: it is `v`, or it names a variable that is set to `v`. -/
def Expands (env : Environment) (key v : String) : Prop :=
  (key.toList.head? ≠ some '$' ∧ v = key) ∨
    ∃ envName, key = "$" ++ envName ∧ env envName = some v ∧ v ≠ ""

theorem resolveApiKey_eq_some {env : Environment} {gw : GatewayConfig} {key v : String}
    (h : gw.apiKey = some key) : gw.resolveApiKey env = some v ↔ Expands env key v := by
  unfold GatewayConfig.resolveApiKey Expands
  rw [h, Option.bind_some]
  split
  · rename_i envName hkey
    have hname : ∀ n, key = "$" ++ n ↔ n = String.ofList envName := by
      intro n
      rw [← String.toList_inj, String.toList_append, hkey, ← String.toList_inj]
      simp [eq_comm]
    simp [hkey, hname, Option.filter_eq_some_iff]
  · rename_i hno
    have hhead : key.toList.head? ≠ some '$' := by
      intro hd
      obtain ⟨l, hl⟩ := List.head?_eq_some_iff.mp hd
      exact hno _ hl
    have hvar : ∀ n, key ≠ "$" ++ n := by
      intro n hn
      exact hhead (by simp [hn])
    simp [hhead, hvar, eq_comm]

/-- The request's `Authorization` header reads `Bearer` and the token. -/
def Carries (headers : HeaderMap) (token : String) : Prop :=
  ∃ value, headers.get "authorization" = some value ∧
    value.map (fun b => Char.ofNat b.toNat) = "Bearer ".toList ++ token.toList

theorem carries_of_extractBearerToken {headers : HeaderMap} {token : String}
    (h : extractBearerToken headers = some token) : Carries headers token := by
  unfold extractBearerToken at h
  rw [Option.map_eq_some_iff] at h
  obtain ⟨rest, hrest, rfl⟩ := h
  rw [Option.bind_eq_some_iff] at hrest
  obtain ⟨text, htext, hpre⟩ := hrest
  rw [Option.bind_eq_some_iff] at htext
  obtain ⟨value, hvalue, hascii⟩ := htext
  refine ⟨value, hvalue, ?_⟩
  unfold headerText at hascii
  split at hascii
  · cases hascii
    rw [List.isPrefixOf?_eq_some_iff_append_eq] at hpre
    exact hpre.symm.trans (congrArg ("Bearer ".toList ++ ·) String.toList_ofList.symm)
  · cases hascii

/-! ## Authentication -/

/-- The request is passed on to the agent. -/
def Forwarded (s : DaemonState) (req : ChatRequest) : Prop :=
  ∃ now answer, (s.gatewayChat now req answer).forwarded.isSome = true

/-- An agent whose gateway is enabled with this key is sent no message, after any run
of the shared state in which it was spawned so last, unless the request carries what
the key stands for. -/
def Protects (env : Environment) (key : String) (rateLimit : Option Nat) : Prop :=
  ∀ (is : List ServerInput) (req : ChatRequest),
    is.foldl (spawnedWith req.name) none = some (some ⟨true, some key, rateLimit⟩) →
    Forwarded (run (serverStep env) DaemonState.new is) req →
    ∃ v, Expands env key v ∧ Carries req.headers v

section
variable {env : Environment} {s : DaemonState}

theorem gatewayChat_of_enabled {m : ManagedAgentRef} {gw : ResolvedGatewayConfig}
    {now : Instant} {req : ChatRequest} {answer : Except String String}
    (hm : s.agents.get req.name = some m) (hgw : m.gateway = some gw) (hen : gw.enabled = true) :
    s.gatewayChat now req answer = s.admitted m gw now req answer := by
  unfold DaemonState.gatewayChat
  simp only [hm, hgw, Option.filter_some_pos hen]

/-- What has been passed on has met the agent's key. -/
theorem refusal_of_forwarded {req : ChatRequest} {m : ManagedAgentRef}
    {gw : ResolvedGatewayConfig} (hm : s.agents.get req.name = some m)
    (hgw : m.gateway = some gw) (hen : gw.enabled = true) (h : Forwarded s req) :
    gw.refusal req.headers = none := by
  obtain ⟨now, answer, h⟩ := h
  rw [gatewayChat_of_enabled hm hgw hen] at h
  unfold DaemonState.admitted at h
  cases hr : gw.refusal req.headers with
  | none => rfl
  | some message =>
    rw [hr] at h
    cases h

theorem token_of_refusal {gw : ResolvedGatewayConfig} {headers : HeaderMap} {v : String}
    (hkey : gw.apiKey = some v) (h : gw.refusal headers = none) :
    extractBearerToken headers = some v := by
  unfold ResolvedGatewayConfig.refusal at h
  rw [hkey] at h
  cases ht : extractBearerToken headers with
  | none =>
    rw [ht] at h
    cases h
  | some token =>
    rw [ht] at h
    by_cases hv : token = v
    · rw [hv]
    · simp [hv] at h

/-- Agents spawned without a key, then with one; there is still room in the rate limit. -/
def respawned (gateway : GatewayConfig) : List ServerInput :=
  [.spawned "coder" 0 (some ⟨true, none, some 2⟩), .chat 0 ⟨"coder", [], "hello"⟩ (.ok "hello"),
    .removed "coder", .spawned "coder" 1 (some gateway)]

/-- A key that does not resolve lets every request pass. -/
theorem forwarded_of_unresolved {gw : GatewayConfig} (hen : gw.enabled = true)
    (hkey : gw.resolveApiKey env = none) :
    Forwarded (run (serverStep env) DaemonState.new (respawned gw)) ⟨"coder", [], "hello"⟩ := by
  refine ⟨0, .ok "hello", ?_⟩
  have hagent : (run (serverStep env) DaemonState.new (respawned gw)).agents.get "coder" =
      some ⟨1, .starting, some (gw.resolve env)⟩ := HashMap.get_insert .. |>.trans (if_pos rfl)
  have hbucket : (run (serverStep env) DaemonState.new (respawned gw)).rateLimits.get "coder" =
      some ⟨[0], 2⟩ := by rfl
  have hrefusal : (gw.resolve env).refusal [] = none := by
    unfold ResolvedGatewayConfig.refusal GatewayConfig.resolve
    rw [hkey]
  rw [gatewayChat_of_enabled hagent rfl (show (gw.resolve env).enabled = true from hen)]
  unfold DaemonState.admitted
  rw [hrefusal]
  cases hlimit : (gw.resolve env).rateLimit with
  | none => rfl
  | some limit =>
    -- the bucket is still the one of the first spawn
    have hrate : (DaemonState.checkRate (run (serverStep env) DaemonState.new (respawned gw)) 0
        "coder" limit).1 = true := by
      unfold DaemonState.checkRate
      rw [hbucket]
      rfl
    generalize DaemonState.checkRate _ 0 "coder" limit = rate at hrate
    obtain ⟨ok, s'⟩ := rate
    cases hrate
    rfl

end

/-- The gateway protects an agent exactly if its key resolves: the key is a literal, or
names an environment variable that is set and not empty. -/
theorem protects_iff (env : Environment) (key : String) (rateLimit : Option Nat) :
    Protects env key rateLimit ↔ ∃ v, Expands env key v := by
  have hres : ∀ v, (GatewayConfig.mk true (some key) rateLimit).resolveApiKey env = some v ↔
      Expands env key v := fun v => resolveApiKey_eq_some rfl
  refine ⟨?_, ?_⟩
  · intro h
    by_contra hno
    have hnone : (GatewayConfig.mk true (some key) rateLimit).resolveApiKey env = none := by
      rw [Option.eq_none_iff_forall_ne_some]
      intro v hv
      exact hno ⟨v, (hres v).mp hv⟩
    obtain ⟨v, hv, _⟩ := h (respawned ⟨true, some key, rateLimit⟩) ⟨"coder", [], "hello"⟩ rfl
      (forwarded_of_unresolved rfl hnone)
    exact hno ⟨v, hv⟩
  · intro h is req hlast hforwarded
    obtain ⟨v, hv⟩ := h
    have hgateway := gateway_run env req.name is
    rw [hlast] at hgateway
    obtain ⟨m, hm, hgw⟩ := Option.map_eq_some_iff.mp hgateway
    have hrefusal := refusal_of_forwarded hm hgw rfl hforwarded
    exact ⟨v, hv, carries_of_extractBearerToken (token_of_refusal ((hres v).mpr hv) hrefusal)⟩

/-- A variable that is not set opens the gateway to everyone. -/
theorem not_protects_unset : ¬ Protects (fun _ => none) "$CODER_KEY" none := by
  intro h
  obtain ⟨v, hv, hcarries⟩ := h [.spawned "coder" 0 (some ⟨true, some "$CODER_KEY", none⟩)]
    ⟨"coder", [], "hello"⟩ rfl ⟨0, .ok "hello", by decide⟩
  obtain ⟨value, hvalue, _⟩ := hcarries
  cases hvalue

end ZeptoPM
