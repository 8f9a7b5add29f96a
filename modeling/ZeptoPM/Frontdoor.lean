import ZeptoPM.RateLimit
import ZeptoPM.Supervising

/- The HTTP server in front of the fleet. A chat request looks its agent up in the server's
   copy of the agents and lets go of the lock. From then on it goes by what it found, while
   the daemon may restart or remove the agent and other requests may overtake it, until it is
   counted and its message is passed on. In every interleaving (`frontdoor_holds`) what it
   found was the current incarnation of the agent, its message reaches a worker of that agent
   and no other, with the key that was asked for, and no minute sees more messages than the
   agent's bucket began with. -/
namespace ZeptoPM
open Daemon

/-! ## Requests under way -/

/-- A request that has found its agent and has not yet been counted. -/
structure PendingRequest where
  req : ChatRequest
  handle : Nat
  /-- The config that a gateway request has met; `post_chat` looks at none. -/
  gateway : Option ResolvedGatewayConfig

/-- The limit against which the request is counted. -/
def PendingRequest.limit (p : PendingRequest) : Option Nat := p.gateway.bind (·.rateLimit)

namespace DaemonState

/-- The first half of `post_chat`, under the read lock. -/
def lookUpChat (s : DaemonState) (req : ChatRequest) : Except GatewayReply PendingRequest :=
  match s.agents.get req.name with
  | none => .error (.error 404 ("agent '" ++ req.name ++ "' not found") none)
  | some m => .ok ⟨req, m.handle, none⟩

/-- The first half of `gateway_chat`, up to the rate limit. -/
def lookUpGateway (s : DaemonState) (req : ChatRequest) : Except GatewayReply PendingRequest :=
  match s.agents.get req.name with
  | none => .error (.error 404 ("agent '" ++ req.name ++ "' not found") none)
  | some m =>
    match m.gateway.filter (·.enabled) with
    | none => .error (.error 403 ("gateway not enabled for agent '" ++ req.name ++ "'") none)
    | some gw =>
      match gw.refusal req.headers with
      | some message => .error (.error 401 message none)
      | none => .ok ⟨req, m.handle, some gw⟩

/-- The second half, under the write lock where there is a limit: whether the message is
passed on, and the state after. -/
def count (s : DaemonState) (now : Instant) (p : PendingRequest) : Bool × DaemonState :=
  match p.limit with
  | none => (true, s)
  | some limit => s.checkRate now p.req.name limit

theorem count_some (s : DaemonState) (now : Instant) {p : PendingRequest} {limit : Nat}
    (h : p.limit = some limit) : s.count now p = s.checkRate now p.req.name limit := by
  unfold count
  rw [h]

theorem count_none (s : DaemonState) (now : Instant) {p : PendingRequest}
    (h : p.limit = none) : s.count now p = (true, s) := by
  unfold count
  rw [h]

/-- The buckets alone decide a count. -/
theorem checkRate_congr {s s' : DaemonState} (h : s.rateLimits = s'.rateLimits) (now : Instant)
    (name : String) (limit : Nat) :
    (s.checkRate now name limit).1 = (s'.checkRate now name limit).1 ∧
      (s.checkRate now name limit).2.rateLimits = (s'.checkRate now name limit).2.rateLimits := by
  unfold checkRate
  rw [h]
  exact ⟨rfl, rfl⟩

/-- With nothing in between, the two halves are the whole of `gateway_chat`. -/
theorem gatewayChat_halves (s : DaemonState) (now : Instant) (req : ChatRequest)
    (answer : Except String String) :
    (∀ reply, s.lookUpGateway req = .error reply →
      s.gatewayChat now req answer = ⟨s, none, reply⟩) ∧
    ∀ p, s.lookUpGateway req = .ok p →
      (s.gatewayChat now req answer).state = (s.count now p).2 ∧
      (s.gatewayChat now req answer).forwarded =
        if (s.count now p).1 then some (p.handle, req.message) else none := by
  unfold lookUpGateway gatewayChat
  cases s.agents.get req.name with
  | none =>
    refine ⟨fun reply h => ?_, fun p h => ?_⟩
    · cases h
      rfl
    · cases h
  | some m =>
    dsimp only
    cases m.gateway.filter (·.enabled) with
    | none =>
      refine ⟨fun reply h => ?_, fun p h => ?_⟩
      · cases h
        rfl
      · cases h
    | some gw =>
      unfold admitted
      dsimp only
      cases gw.refusal req.headers with
      | some message =>
        refine ⟨fun reply h => ?_, fun p h => ?_⟩
        · cases h
          rfl
        · cases h
      | none =>
        refine ⟨fun reply h => ?_, fun p h => ?_⟩
        · cases h
        · cases h
          cases hlimit : gw.rateLimit with
          | none =>
            rw [count_none s now (p := ⟨req, m.handle, some gw⟩) hlimit]
            exact ⟨rfl, rfl⟩
          | some limit =>
            rw [count_some s now (p := ⟨req, m.handle, some gw⟩) hlimit]
            dsimp only
            cases hrate : s.checkRate now req.name limit with
            | mk ok s' =>
              cases ok with
              | false => exact ⟨rfl, rfl⟩
              | true => exact ⟨rfl, rfl⟩

end DaemonState

/-! ## The server and the fleet -/

/-- The server and the fleet; a command that the daemon handles is one step. -/
structure Frontdoor where
  fleet : Fleet
  pending : List PendingRequest
  /-- The requests that were counted, in their order. -/
  counted : List CountedRequest
  /-- The requests whose message was passed on, each with the instant. -/
  passed : List (PendingRequest × Instant)

inductive FrontdoorInput where
  | fleet (i : FleetInput)
  | chat (req : ChatRequest)
  | gateway (req : ChatRequest)
  /-- One of the requests under way goes on. -/
  | proceed (n : Nat) (now : Instant)

namespace Frontdoor

def receive (d : Frontdoor) (found : Except GatewayReply PendingRequest) : Frontdoor :=
  match found with
  | .error _ => d
  | .ok p => { d with pending := d.pending ++ [p] }

def proceed (d : Frontdoor) (n : Nat) (now : Instant) (p : PendingRequest) : Frontdoor :=
  let (ok, shared) := d.fleet.shared.count now p
  { fleet := { d.fleet with shared := shared }
    pending := d.pending.eraseIdx n
    counted := d.counted ++ (p.limit.map (⟨p.req.name, ·, now⟩)).toList
    passed := if ok then d.passed ++ [(p, now)] else d.passed }

def step (d : Frontdoor) : FrontdoorInput → Frontdoor
  | .fleet i => { d with fleet := d.fleet.step i }
  | .chat req => d.receive (d.fleet.shared.lookUpChat req)
  | .gateway req => d.receive (d.fleet.shared.lookUpGateway req)
  | .proceed n now =>
    match d.pending[n]? with
    | none => d
    | some p => d.proceed n now p

def boot (s : Site) (d : Daemon) (config : Config) : Frontdoor where
  fleet := Fleet.boot s d config
  pending := []
  counted := []
  passed := []

end Frontdoor

/-! ## The server's copy of the agents -/

namespace Fleet

/-- Of every agent whose name is not that of a job's worker the server has a copy as long as it
is managed, with the handle of its current incarnation. -/
def Mirrored (f : Fleet) : Prop :=
  ∀ name, ¬ JobWorker name →
    (f.shared.agents.get name).map (·.handle) =
      (f.daemon.managed.get name).map (fun _ => f.handle name)

/-- The copies are kept up, and a new one is of a new incarnation, with a gateway config that
satisfies `G`. -/
structure Tends (G : Option ResolvedGatewayConfig → Prop) (f f' : Fleet) : Prop where
  launched : f.launched <+: f'.launched
  mirrored : f.Mirrored → f'.Mirrored
  entry : ∀ name m', f'.shared.agents.get name = some m' →
    (∃ m, f.shared.agents.get name = some m ∧ m'.handle = m.handle ∧ m'.gateway = m.gateway) ∨
      (f'.launched[m'.handle]? = some (.agent name) ∧ G m'.gateway)
  rateLimits : f'.shared.rateLimits = f.shared.rateLimits

theorem getElem?_of_grown {α : Type} {l l' : List α} (h : l <+: l') {n : Nat} {a : α}
    (hn : l[n]? = some a) : l'[n]? = some a := by
  obtain ⟨t, rfl⟩ := h
  rw [List.getElem?_append_left (List.getElem?_eq_some_iff.mp hn).1, hn]

section
variable {G : Option ResolvedGatewayConfig → Prop} {s : Site} {f f' f'' : Fleet} {name : String}

/-- Whether an agent is managed is all that its copy depends on. -/
theorem map_handle_congr {m m' : Option InternalAgent} (h : m'.isSome = m.isSome) (n : Nat) :
    m'.map (fun _ => n) = m.map (fun _ => n) := by
  cases m with
  | none =>
    have hnone : m' = none := Option.isNone_iff_eq_none.mp (by rw [← Option.not_isSome, h]; rfl)
    rw [hnone]
  | some agent =>
    obtain ⟨agent', rfl⟩ := Option.isSome_iff_exists.mp h
    rfl

/-- What leaves the copies and the launches alone, and every entry with its handle. -/
theorem Tends.still (hl : f'.launched = f.launched) (hs : f'.shared = f.shared)
    (hm : ∀ name, ¬ JobWorker name → f'.handle name = f.handle name ∧
      (f'.daemon.managed.get name).isSome = (f.daemon.managed.get name).isSome) :
    Tends G f f' := by
  refine ⟨by rw [hl], fun h name hname => ?_, fun name m' hm' => ?_, by rw [hs]⟩
  · obtain ⟨hh, hsome⟩ := hm name hname
    rw [hs, h name hname, hh, map_handle_congr hsome]
  · rw [hs] at hm'
    exact Or.inl ⟨m', hm', rfl, rfl⟩

theorem Tends.refl (f : Fleet) : Tends G f f := .still rfl rfl (fun _ _ => ⟨rfl, rfl⟩)

theorem Tends.trans (h : Tends G f f') (h' : Tends G f' f'') : Tends G f f'' := by
  refine ⟨h.launched.trans h'.launched, fun hf => h'.mirrored (h.mirrored hf), ?_,
    h'.rateLimits.trans h.rateLimits⟩
  intro name m'' hm''
  rcases h'.entry name m'' hm'' with ⟨m', hm', hhandle, hgateway⟩ | hnew
  · rcases h.entry name m' hm' with ⟨m, hm, hhandle', hgateway'⟩ | ⟨hlaunch, hG⟩
    · exact Or.inl ⟨m, hm, hhandle.trans hhandle', hgateway.trans hgateway'⟩
    · rw [hhandle, hgateway]
      exact Or.inr ⟨getElem?_of_grown h'.launched hlaunch, hG⟩
  · exact Or.inr hnew

theorem tends_enlist (hG : ∀ name, G (s.gateways name)) {d : Daemon} {agent : InternalAgent}
    (hd : ∀ k, d.managed.get k = if k = name then some agent else f.daemon.managed.get k) :
    Tends G f (f.enlist s name d) := by
  have hshared : ∀ k, (f.enlist s name d).shared.agents.get k =
      if k = name then some ⟨f.launched.length, .starting, s.gateways name⟩
      else f.shared.agents.get k := fun _ => HashMap.get_insert ..
  refine ⟨⟨[.agent name], rfl⟩, fun h k hk => ?_, fun k m' hm' => ?_, rfl⟩
  · show _ = (d.managed.get k).map (fun _ => if k = name then _ else f.handle k)
    rw [hshared, hd]
    by_cases hkn : k = name
    · simp only [if_pos hkn, Option.map_some]
    · simp only [if_neg hkn]
      exact h k hk
  · rw [hshared] at hm'
    split at hm'
    · rename_i hkn
      cases hm'
      refine Or.inr ⟨?_, hG name⟩
      rw [hkn]
      exact List.getElem?_concat_length
    · exact Or.inl ⟨m', hm', rfl, rfl⟩

/-- An agent goes from the managed ones and from the copies alike. -/
theorem tends_drop (hl : f'.launched = f.launched) (hh : f'.handle = f.handle)
    (hs : f'.shared = f.shared.removeAgent name)
    (hm : ∀ k, f'.daemon.managed.get k = if k = name then none else f.daemon.managed.get k) :
    Tends G f f' := by
  have hshared : ∀ k, f'.shared.agents.get k =
      if k = name then none else f.shared.agents.get k := by
    intro k
    rw [hs]
    exact HashMap.get_remove ..
  refine ⟨by rw [hl], fun h k hk => ?_, fun k m' hm' => ?_, by rw [hs]; rfl⟩
  · rw [hshared, hm, hh]
    by_cases hkn : k = name
    · simp only [if_pos hkn, Option.map_none]
    · simp only [if_neg hkn]
      exact h k hk
  · rw [hshared] at hm'
    split at hm'
    · cases hm'
    · exact Or.inl ⟨m', hm', rfl, rfl⟩

/-- Workers of jobs have no copy. -/
theorem tends_worker {d : Daemon} {jobId : JobId} (launch : Launch)
    (hd : ∀ k, ¬ JobWorker k → d.managed.get k = f.daemon.managed.get k) :
    Tends G f (f.register (workerName jobId) launch d) := by
  refine ⟨⟨[launch], rfl⟩, fun h k hk => ?_, fun k m hm => Or.inl ⟨m, hm, rfl, rfl⟩, rfl⟩
  show (f.shared.agents.get k).map _ = _
  rw [h k hk]
  show _ = (d.managed.get k).map (fun _ => if k = workerName jobId then _ else f.handle k)
  rw [hd k hk, if_neg (fun h => hk ⟨jobId, h⟩)]

theorem composed_tends (hG : ∀ name, G (s.gateways name)) : Composed s (Tends G) where
  refl := .refl
  trans := .trans
  enlist := fun _ _ _ _ _ hd => tends_enlist hG hd
  drop := fun _ _ _ hd => tends_drop rfl rfl rfl hd
  worker := fun _ _ launch _ hd => tends_worker launch hd
  aside := fun _ _ hd => .still rfl rfl (fun k hk => ⟨rfl, congrArg Option.isSome (hd k hk)⟩)

/-- A new status changes no more of a copy. -/
theorem syncStatus_get (s : DaemonState) (n : String) (status : AgentStatus) (k : String) :
    (s.syncStatus n status).agents.get k = s.agents.get k ∨
      ∃ m, s.agents.get k = some m ∧
        (s.syncStatus n status).agents.get k = some { m with status := status } := by
  unfold DaemonState.syncStatus
  cases hn : s.agents.get n with
  | none => exact Or.inl rfl
  | some m =>
    have hget : (s.syncAgent n { m with status := status }).agents.get k =
      if k = n then some { m with status := status } else s.agents.get k := HashMap.get_insert ..
    by_cases hk : k = n
    · rw [if_pos hk] at hget
      exact Or.inr ⟨m, hk ▸ hn, hget⟩
    · rw [if_neg hk] at hget
      exact Or.inl hget

/-- A copy's status is none of the handle's business. -/
theorem tends_syncStatus (f : Fleet) (n : String) (status : AgentStatus) {queue : List QueuedUpdate}
    {d : Daemon} (hd : ∀ k, (d.managed.get k).isSome = (f.daemon.managed.get k).isSome) :
    Tends G f { f with daemon := d, shared := f.shared.syncStatus n status, queue := queue } := by
  refine ⟨List.prefix_rfl, fun h k hk => ?_, fun k m' hm' => ?_, ?_⟩
  · have hold := h k hk
    have hsome := hd k
    have hnew : ((f.shared.syncStatus n status).agents.get k).map (·.handle) =
        (f.shared.agents.get k).map (·.handle) := by
      rcases syncStatus_get f.shared n status k with hsame | ⟨m, hm, hm'⟩
      · rw [hsame]
      · rw [hm, hm']
        rfl
    exact hnew.trans (hold.trans (map_handle_congr hsome _).symm)
  · rcases syncStatus_get f.shared n status k with hsame | ⟨m, hm, hnew⟩
    · exact Or.inl ⟨m', hsame ▸ hm', rfl, rfl⟩
    · cases hnew.symm.trans hm'
      exact Or.inl ⟨m, hm, rfl, rfl⟩
  · show (f.shared.syncStatus n status).rateLimits = f.shared.rateLimits
    unfold DaemonState.syncStatus
    split <;> rfl

theorem tends_deliver (s : Site) (f : Fleet) : Tends G f (f.deliver s) := by
  have hsome : ∀ u k, ((f.daemon.agentUpdate s.world u).managed.get k).isSome =
      (f.daemon.managed.get k).isSome := by
    intro u k
    cases hget : f.daemon.managed.get u.name with
    | none => rw [agentUpdate_of_missing hget]
    | some agent =>
      obtain ⟨agent', _, hnew⟩ := agentUpdate_get (w := s.world) hget
      rw [hnew]
      split
      · rename_i hk
        rw [hk, hget]
        rfl
      · rfl
  unfold deliver
  split
  · exact .refl f
  · rename_i report queue hq
    split
    · exact tends_syncStatus f report.update.name report.update.status (hsome report.update)
    · exact .still rfl rfl (fun k _ => ⟨rfl, hsome report.update k⟩)

theorem tends_postStop (f : Fleet) (name : String) :
    Tends G f { f with shared := (f.shared.postStop name).2.2 } := by
  unfold DaemonState.postStop
  split
  · exact .refl f
  · exact tends_syncStatus f name .stopped (fun _ => rfl)

/-- Whatever the daemon meets in the step is a site with the property. -/
def Meeting (P : Site → Prop) : FleetInput → Prop
  | .deliver s | .start s _ | .restart s _ | .reload s | .restartAgents s | .spawnJob s _ => P s
  | _ => True

theorem tends_step (f : Fleet) (i : FleetInput)
    (hi : Meeting (fun s => ∀ name, G (s.gateways name)) i) : Tends G f (f.step i) := by
  cases i with
  | begins handle start =>
    show Tends G f (f.begins handle start)
    unfold begins
    split
    · exact .still rfl rfl (fun _ _ => ⟨rfl, rfl⟩)
    · exact .refl f
  | bridge handle input =>
    show Tends G f (f.bridgeStep handle input)
    unfold bridgeStep
    split
    · exact .refl f
    · exact .still rfl rfl (fun _ _ => ⟨rfl, rfl⟩)
  | postStop name => exact tends_postStop f name
  | deliver s => exact tends_deliver s f
  | start s name => exact (composed_tends hi).handles f rfl
  | restart s name => exact (composed_tends hi).handles f rfl
  | reload s => exact (composed_tends hi).handles f rfl
  | restartAgents s => exact (composed_tends hi).handles f rfl
  | spawnJob s job => exact (composed_tends hi).handles f rfl
  | dropJob jobId =>
    refine .still rfl rfl (fun k hk => ⟨rfl, congrArg Option.isSome ?_⟩)
    exact removeManaged_get_ne (fun h => hk ⟨jobId, h⟩)
  | elsewhere d => exact .still rfl rfl (fun _ _ => ⟨rfl, rfl⟩)

end

end Fleet

/-! ## What was accepted -/

/-- The instants at which requests for the agent were accepted, among those counted for it. -/
def acceptedFor (cs : List CountedRequest) (name : String) : List Instant :=
  match cs.filter (fun c => c.name == name) with
  | [] => []
  | c :: mine => (RateLimitBucket.new c.limit).accepted ((c :: mine).map (·.now))

theorem acceptedFor_append (cs : List CountedRequest) (c : CountedRequest) (name : String) :
    acceptedFor (cs ++ [c]) name = acceptedFor cs name ++
      if c.name = name ∧
        ((run countStep DaemonState.new cs).checkRate c.now c.name c.limit).1 = true
      then [c.now] else [] := by
  have hone : ∀ bucket : RateLimitBucket, bucket.accepted [c.now] =
      if (bucket.checkAndRecord c.now).1 = true then [c.now] else [] := fun _ => rfl
  unfold acceptedFor
  rw [List.filter_append]
  by_cases hname : c.name = name
  · have hbucket := bucket_run DaemonState.new name cs
    have hrate : ((run countStep DaemonState.new cs).checkRate c.now c.name c.limit).1 =
        ((((run countStep DaemonState.new cs).rateLimits.get name).getD
          (RateLimitBucket.new c.limit)).checkAndRecord c.now).1 := by
      rw [← hname]
      rfl
    rw [hrate, hbucket, List.filter_cons_of_pos (by simpa using hname), List.filter_nil]
    cases cs.filter (fun c => c.name == name) with
    | nil =>
      refine (hone (RateLimitBucket.new c.limit)).trans ?_
      simp only [hname, true_and, List.nil_append]
      rfl
    | cons c₀ mine =>
      have hmap : ((c₀ :: mine) ++ [c]).map (·.now) = (c₀ :: mine).map (·.now) ++ [c.now] :=
        List.map_append
      show (RateLimitBucket.new c₀.limit).accepted (((c₀ :: mine) ++ [c]).map (·.now)) = _
      rw [hmap, RateLimitBucket.accepted_append, hone]
      simp only [hname, true_and]
      rfl
  · rw [List.filter_cons_of_neg (by simpa using hname), List.filter_nil, List.append_nil,
      if_neg (fun h => hname h.1), List.append_nil]

/-- Within 60 seconds no more are accepted than the agent's bucket began with. -/
theorem acceptedFor_bounded {cs : List CountedRequest} (h32 : ∀ c ∈ cs, c.limit < 2 ^ 32)
    (hs : cs.Pairwise (fun c c' => c.now ≤ c'.now)) {name : String} {c : CountedRequest}
    {mine : List CountedRequest} (hmine : cs.filter (fun c => c.name == name) = c :: mine)
    (t : Instant) :
    ((acceptedFor cs name).filter (fun t' => t ≤ t' ∧ t' ≤ t + 60000)).length ≤ c.limit := by
  have hsorted : ((c :: mine).map (·.now)).Pairwise (· ≤ ·) := by
    rw [← hmine]
    exact List.pairwise_map.mpr (hs.sublist List.filter_sublist)
  have hc : c ∈ cs := by
    have hmem : c ∈ cs.filter (fun c => c.name == name) := by
      rw [hmine]
      exact List.mem_cons_self
    exact (List.mem_filter.mp hmem).1
  have hacc := (RateLimitBucket.after_accounted (h32 c hc) _ hsorted).2
  unfold acceptedFor
  rw [hmine]
  refine hacc.bounded t (t + 60000) ?_
  unfold expired
  rw [decide_eq_false_iff_not]
  exact Nat.lt_irrefl _

/-! ## Every interleaving -/

/-- A limit is a 32-bit number. -/
def Fits (gw : Option ResolvedGatewayConfig) : Prop :=
  ∀ g, gw = some g → ∀ limit, g.rateLimit = some limit → limit < 2 ^ 32

def Site.Typed (s : Site) : Prop := ∀ name, Fits (s.gateways name)

namespace Frontdoor

/-- Sites are as typed as the config, and a request is counted no earlier than those before it. -/
def Allowed (d : Frontdoor) : FrontdoorInput → Prop
  | .fleet i => Fleet.Meeting Site.Typed i
  | .proceed _ now => ∀ c ∈ d.counted, c.now ≤ now
  | _ => True

/-- The request holds a handle of its agent, and has been let through by the gateway if it is a
gateway request. -/
structure Proper (launched : List Launch) (p : PendingRequest) : Prop where
  addressed : launched[p.handle]? = some (.agent p.req.name)
  cleared : ∀ gw, p.gateway = some gw → gw.enabled = true ∧ gw.refusal p.req.headers = none
  fits : Fits p.gateway

/-- When messages of gateway requests with a limit were passed on to the agent. -/
def limitedTimes (d : Frontdoor) (name : String) : List Instant :=
  (d.passed.filter (fun e => e.1.req.name == name && e.1.limit.isSome)).map (·.2)

structure Sound (d : Frontdoor) : Prop where
  mirrored : d.fleet.Mirrored
  copies : ∀ name m, d.fleet.shared.agents.get name = some m →
    d.fleet.launched[m.handle]? = some (.agent name) ∧ Fits m.gateway
  pending : ∀ p ∈ d.pending, Proper d.fleet.launched p
  passed : ∀ e ∈ d.passed, Proper d.fleet.launched e.1
  buckets : d.fleet.shared.rateLimits = (run countStep DaemonState.new d.counted).rateLimits
  sorted : d.counted.Pairwise (fun c c' => c.now ≤ c'.now)
  fits : ∀ c ∈ d.counted, c.limit < 2 ^ 32
  limited : ∀ name, d.limitedTimes name = acceptedFor d.counted name

section
variable {d : Frontdoor}

theorem Proper.mono {l l' : List Launch} {p : PendingRequest} (h : Proper l p)
    (hl : l <+: l') : Proper l' p :=
  ⟨Fleet.getElem?_of_grown hl h.addressed, h.cleared, h.fits⟩

theorem sound_fleet (h : d.Sound) {i : FleetInput} (hi : Fleet.Meeting Site.Typed i) :
    (d.step (.fleet i)).Sound := by
  have htends : Fleet.Tends Fits d.fleet (d.fleet.step i) := Fleet.tends_step d.fleet i hi
  refine ⟨htends.mirrored h.mirrored, ?_, fun p hp => (h.pending p hp).mono htends.launched,
    fun e he => (h.passed e he).mono htends.launched, htends.rateLimits.trans h.buckets,
    h.sorted, h.fits, h.limited⟩
  intro name m' hm'
  rcases htends.entry name m' hm' with ⟨m, hm, hhandle, hgateway⟩ | hnew
  · rw [hhandle, hgateway]
    have hold := h.copies name m hm
    exact ⟨Fleet.getElem?_of_grown htends.launched hold.1, hold.2⟩
  · exact hnew

theorem sound_receive (h : d.Sound) {found : Except GatewayReply PendingRequest}
    (hfound : ∀ p, found = .ok p → Proper d.fleet.launched p) : (d.receive found).Sound := by
  unfold receive
  cases found with
  | error reply => exact h
  | ok p =>
    refine ⟨h.mirrored, h.copies, fun p' hp' => ?_, h.passed, h.buckets, h.sorted, h.fits,
      h.limited⟩
    rcases List.mem_append.mp hp' with hp' | hp'
    · exact h.pending p' hp'
    · rw [List.mem_singleton.mp hp']
      exact hfound p rfl

theorem proper_lookUpChat (h : d.Sound) {req : ChatRequest} {p : PendingRequest}
    (hp : d.fleet.shared.lookUpChat req = .ok p) : Proper d.fleet.launched p := by
  unfold DaemonState.lookUpChat at hp
  cases hm : d.fleet.shared.agents.get req.name with
  | none =>
    rw [hm] at hp
    cases hp
  | some m =>
    rw [hm] at hp
    cases hp
    exact ⟨(h.copies req.name m hm).1, fun gw hgw => (by cases hgw), fun gw hgw => (by cases hgw)⟩

theorem proper_lookUpGateway (h : d.Sound) {req : ChatRequest} {p : PendingRequest}
    (hp : d.fleet.shared.lookUpGateway req = .ok p) : Proper d.fleet.launched p := by
  unfold DaemonState.lookUpGateway at hp
  cases hm : d.fleet.shared.agents.get req.name with
  | none =>
    rw [hm] at hp
    cases hp
  | some m =>
    rw [hm] at hp
    dsimp only at hp
    obtain ⟨hhandle, hfits⟩ := h.copies req.name m hm
    cases hgw : m.gateway.filter (·.enabled) with
    | none =>
      rw [hgw] at hp
      cases hp
    | some gw =>
      rw [hgw] at hp
      dsimp only at hp
      obtain ⟨hgateway, henabled⟩ := Option.filter_eq_some_iff.mp hgw
      cases hrefusal : gw.refusal req.headers with
      | some message =>
        rw [hrefusal] at hp
        cases hp
      | none =>
        rw [hrefusal] at hp
        cases hp
        refine ⟨hhandle, fun gw' hgw' => ?_, fun gw' hgw' => ?_⟩
        · cases hgw'
          exact ⟨henabled, hrefusal⟩
        · cases hgw'
          exact hfits gw hgateway

theorem count_agents (s : DaemonState) (now : Instant) (p : PendingRequest) :
    (s.count now p).2.agents = s.agents := by
  unfold DaemonState.count
  split <;> rfl

theorem limitedTimes_append {d d' : Frontdoor} {p : PendingRequest} {now : Instant} {ok : Bool}
    (h : d'.passed = if ok then d.passed ++ [(p, now)] else d.passed) (name : String) :
    d'.limitedTimes name = d.limitedTimes name ++
      if p.req.name = name ∧ p.limit.isSome = true ∧ ok = true then [now] else [] := by
  unfold limitedTimes
  rw [h]
  cases ok with
  | false => simp
  | true =>
    rw [if_pos rfl, List.filter_append, List.map_append]
    by_cases hp : p.req.name = name ∧ p.limit.isSome = true
    · rw [List.filter_cons_of_pos (by simpa using hp), if_pos ⟨hp.1, hp.2, rfl⟩]
      rfl
    · rw [List.filter_cons_of_neg (by simpa using hp), if_neg (fun h => hp ⟨h.1, h.2.1⟩)]
      rfl

theorem sound_proceed (h : d.Sound) {n : Nat} {now : Instant} {p : PendingRequest}
    (hp : d.pending[n]? = some p) (hnow : ∀ c ∈ d.counted, c.now ≤ now) :
    (d.proceed n now p).Sound := by
  have hproper := h.pending p (List.mem_of_getElem? hp)
  have hagents : (d.proceed n now p).fleet.shared.agents = d.fleet.shared.agents :=
    count_agents ..
  refine ⟨?_, ?_, ?_, ?_, ?_, ?_, ?_, ?_⟩
  · intro name hname
    rw [hagents]
    exact h.mirrored name hname
  · intro name m hm
    rw [hagents] at hm
    exact h.copies name m hm
  · intro p' hp'
    exact h.pending p' ((List.eraseIdx_sublist d.pending n).subset hp')
  · intro e he
    have he : e ∈ if (d.fleet.shared.count now p).1 = true then d.passed ++ [(p, now)]
      else d.passed := he
    split at he
    · rcases List.mem_append.mp he with he | he
      · exact h.passed e he
      · rw [List.mem_singleton.mp he]
        exact hproper
    · exact h.passed e he
  · show (d.fleet.shared.count now p).2.rateLimits =
      (run countStep .new (d.counted ++ (p.limit.map (⟨p.req.name, ·, now⟩)).toList)).rateLimits
    cases hlimit : p.limit with
    | none =>
      rw [DaemonState.count_none _ _ hlimit, Option.map_none, Option.toList_none,
        List.append_nil]
      exact h.buckets
    | some limit =>
      rw [DaemonState.count_some _ _ hlimit, Option.map_some, Option.toList_some, run_append]
      exact (DaemonState.checkRate_congr h.buckets now p.req.name limit).2
  · refine List.pairwise_append.mpr ⟨h.sorted, ?_, ?_⟩
    · cases p.limit with
      | none => exact List.Pairwise.nil
      | some limit => exact List.pairwise_singleton ..
    · intro c hc c' hc'
      obtain ⟨limit, _, rfl⟩ := Option.map_eq_some_iff.mp (Option.mem_toList.mp hc')
      exact hnow c hc
  · intro c hc
    rcases List.mem_append.mp hc with hc | hc
    · exact h.fits c hc
    · obtain ⟨limit, hlimit, rfl⟩ := Option.map_eq_some_iff.mp (Option.mem_toList.mp hc)
      obtain ⟨gw, hgw, hlimit⟩ := Option.bind_eq_some_iff.mp hlimit
      exact hproper.fits gw hgw limit hlimit
  · intro name
    have happend : (d.proceed n now p).passed =
        if (d.fleet.shared.count now p).1 then d.passed ++ [(p, now)] else d.passed := rfl
    rw [limitedTimes_append happend, h.limited]
    show _ = acceptedFor (d.counted ++ (p.limit.map (⟨p.req.name, ·, now⟩)).toList) name
    cases hlimit : p.limit with
    | none => simp
    | some limit =>
      have hok : (d.fleet.shared.count now p).1 =
          ((run countStep DaemonState.new d.counted).checkRate now p.req.name limit).1 := by
        rw [DaemonState.count_some _ _ hlimit]
        exact (DaemonState.checkRate_congr h.buckets now p.req.name limit).1
      rw [Option.map_some, Option.toList_some, acceptedFor_append, hok]
      simp only [Option.isSome_some, true_and]

theorem sound_step (d : Frontdoor) (i : FrontdoorInput) (h : d.Sound) (hi : d.Allowed i) :
    (d.step i).Sound := by
  cases i with
  | fleet i => exact sound_fleet h hi
  | chat req => exact sound_receive h (fun _ hp => proper_lookUpChat h hp)
  | gateway req => exact sound_receive h (fun _ hp => proper_lookUpGateway h hp)
  | proceed n now =>
    show Sound (match d.pending[n]? with | none => d | some p => d.proceed n now p)
    cases hp : d.pending[n]? with
    | none => exact h
    | some p => exact sound_proceed h hp hi

theorem sound_boot {s : Site} (hs : s.Typed) (d : Daemon) (config : Config) :
    (boot s d config).Sound := by
  have htends := (Fleet.composed_tends (G := Fits) hs).foldl
    (Fleet.composed_tends (G := Fits) hs).spawnManagedAgent (config.agents.filter (·.autoStart))
    { daemon := { d with
        alive := true
        managed := .empty
        currentConfig := config
        lastConfigHash := s.world.configHash config.hashed
        lastCleanup := s.world.instant }.act s.world .hydrate
      shared := .new
      handle := fun _ => 0
      launched := []
      bridges := .empty
      queue := [] }
  refine ⟨htends.mirrored (fun _ _ => rfl), ?_, ?_, ?_, htends.rateLimits, List.Pairwise.nil, ?_,
    fun _ => rfl⟩
  · intro name m hm
    rcases htends.entry name m hm with ⟨_, hnone, _⟩ | hnew
    · cases hnone
    · exact hnew
  all_goals
    intro x hx
    cases hx

end

/-- What is known of the requests that have come so far. -/
structure Holds (d : Frontdoor) : Prop where
  /-- A request finds its agent as long as the daemon manages it, and no longer. -/
  found : ∀ req, ¬ JobWorker req.name →
    ((∃ p, d.fleet.shared.lookUpChat req = .ok p) ↔
      d.fleet.daemon.managed.contains req.name = true)
  /-- It then goes to the incarnation that there is, by whichever way it came. -/
  current : ∀ req p, ¬ JobWorker req.name →
    d.fleet.shared.lookUpChat req = .ok p ∨ d.fleet.shared.lookUpGateway req = .ok p →
    p.handle = d.fleet.handle req.name
  /-- What is passed on goes to a worker of the agent that was asked for. -/
  addressed : ∀ e ∈ d.passed, d.fleet.launched[e.1.handle]? = some (.agent e.1.req.name)
  /-- It has come with the key of the gateway config that it has met. -/
  cleared : ∀ e ∈ d.passed, ∀ gw, e.1.gateway = some gw →
    gw.enabled = true ∧ gw.refusal e.1.req.headers = none
  /-- No 60 seconds have more of it than the limit of the first request counted. -/
  limited : ∀ name c mine, d.counted.filter (fun c => c.name == name) = c :: mine →
    ∀ t, ((d.limitedTimes name).filter (fun t' => t ≤ t' ∧ t' ≤ t + 60000)).length ≤ c.limit

theorem lookUp_agent {s : DaemonState} {req : ChatRequest} {p : PendingRequest}
    (h : s.lookUpChat req = .ok p ∨ s.lookUpGateway req = .ok p) :
    (s.agents.get req.name).map (·.handle) = some p.handle := by
  unfold DaemonState.lookUpChat DaemonState.lookUpGateway at h
  cases hm : s.agents.get req.name with
  | none =>
    rw [hm] at h
    rcases h with h | h
    · cases h
    · cases h
  | some m =>
    rw [hm] at h
    dsimp only at h
    rcases h with h | h
    · cases h
      rfl
    · split at h
      · cases h
      · split at h
        · cases h
        · cases h
          rfl

theorem Sound.holds {d : Frontdoor} (h : d.Sound) : d.Holds where
  found := by
    intro req hreq
    have hname := h.mirrored req.name hreq
    unfold DaemonState.lookUpChat HashMap.contains
    cases hm : d.fleet.shared.agents.get req.name with
    | none =>
      rw [hm] at hname
      rw [Option.map_eq_none_iff.mp hname.symm]
      exact iff_of_false (fun ⟨_, hp⟩ => by cases hp) Bool.false_ne_true
    | some m =>
      rw [hm] at hname
      obtain ⟨agent, hagent, _⟩ := Option.map_eq_some_iff.mp hname.symm
      rw [hagent]
      exact iff_of_true ⟨_, rfl⟩ rfl
  current := by
    intro req p hreq hp
    have hname := h.mirrored req.name hreq
    rw [lookUp_agent hp] at hname
    obtain ⟨_, _, hhandle⟩ := Option.map_eq_some_iff.mp hname.symm
    exact hhandle.symm
  addressed := fun e he => (h.passed e he).addressed
  cleared := fun e he => (h.passed e he).cleared
  limited := by
    intro name c mine hmine t
    rw [h.limited name]
    exact acceptedFor_bounded h.fits h.sorted hmine t

/-- From the start of the process on, in every order of the steps of the requests, the bridges
and the daemon, as long as the clock does not go back between two counts. -/
theorem frontdoor_holds (s : Site) (hs : s.Typed) (d : Daemon) (config : Config)
    (is : List FrontdoorInput) (his : Meets step Allowed (boot s d config) is) :
    (run step (boot s d config) is).Holds :=
  (run_invariant sound_step (sound_boot hs d config) his).holds

/-- The agent has a gateway for one message a minute and no key. -/
def openSite : Site := { Fleet.codingSite with gateways := fun _ => some ⟨true, none, some 1⟩ }

/-- Two requests have found the agent when it is restarted, and a third comes after that. -/
def overtaken : List FrontdoorInput :=
  let req := ⟨"coder", [], "hello"⟩
  [.gateway req, .gateway req, .fleet (.restart openSite "coder"), .gateway req,
    .proceed 0 0, .proceed 0 60000, .proceed 0 60001]

/-- The first message still goes to the worker that was replaced. -/
theorem frontdoor_holds_overtaken :
    (run step (boot openSite (Daemon.off true none false) Fleet.codingConfig) overtaken).Holds ∧
      ((run step (boot openSite (Daemon.off true none false) Fleet.codingConfig)
        overtaken).passed.map (fun e => (e.1.handle, e.2))) = [(0, 0), (1, 60001)] := by
  have hs : openSite.Typed := by
    intro name gw hgw limit hlimit
    cases hgw
    cases hlimit
    decide
  refine ⟨frontdoor_holds openSite hs _ _ overtaken ?_, by decide +kernel⟩
  refine ⟨True.intro, True.intro, hs, True.intro, ?_, ?_, ?_, True.intro⟩
  · intro c hc
    cases hc
  all_goals
    intro c hc
    revert c
    decide +kernel

end Frontdoor

end ZeptoPM
