import ZeptoPM.Outstanding
import ZeptoPM.Server
import ZeptoPM.Traversal

/- The daemon together with the bridges it spawns. Every managed entry has a handle,
   the number of the bridge it was spawned with, but what the bridges send to the
   daemon carries a name only, and waits in one queue for the daemon to take it. The
   handlers are those of `Daemon` with the handles noted; a run is any order of
   their steps and of the bridges'. Whatever the daemon does with an input the fleet does
   too, in steps (`handle_reach`) or, with an update, when it takes it (`handle_deliver`). -/
namespace ZeptoPM
open Daemon

/-- What the daemon spawns for a managed entry. -/
inductive Launch where
  | agent (name : String)
  /-- The worker of a job, under the name of its profile. -/
  | job (profile : String) (jobId : JobId)
  | capsule (jobId : JobId)
  deriving DecidableEq, Repr

/-- The status of an entry that has just been spawned. -/
def Launch.status : Launch → AgentStatus
  | .agent _ => .starting
  | .job .. | .capsule _ => .running

/-- The bridge behind the handle; a capsule's has no channel to the supervisor. -/
def Launch.bridge (start : BridgeStart) : Launch → Option Bridge
  | .agent name => some (Bridge.workerBridge name false none start)
  | .job profile jobId => some (Bridge.workerBridge profile true (some jobId) start)
  | .capsule _ => none

/-- An update on its way to the daemon. -/
structure QueuedUpdate where
  handle : Nat
  /-- Whether it is about the worker: a status message of it, or the start or the end of
  its process. -/
  ofWorker : Bool
  update : AgentStateUpdate

/-- What the daemon meets while it handles an input, with what the gateway configs of
the agents resolve to. -/
structure Site where
  world : World
  gateways : String → Option ResolvedGatewayConfig

structure Fleet where
  daemon : Daemon
  shared : DaemonState
  /-- The handle of each managed entry. -/
  handle : String → Nat
  /-- What was spawned, by handle. -/
  launched : List Launch
  /-- The bridges that have begun. -/
  bridges : HashMap Nat Bridge
  queue : List QueuedUpdate

inductive FleetInput where
  /-- A spawned bridge begins. -/
  | begins (handle : Nat) (start : BridgeStart)
  | bridge (handle : Nat) (input : BridgeInput)
  /-- A request to stop the agent; what it sends is an input of the agent's bridge later. -/
  | postStop (name : String)
  /-- The daemon takes the next update. -/
  | deliver (s : Site)
  | start (s : Site) (name : String)
  | restart (s : Site) (name : String)
  | reload (s : Site)
  | restartAgents (s : Site)
  | spawnJob (s : Site) (job : Job)
  | dropJob (jobId : JobId)
  /-- Anything that leaves the managed entries and the config alone. -/
  | elsewhere (d : Daemon)

namespace Fleet

/-- The next handle, for the entry that the daemon now has. -/
def register (f : Fleet) (entry : String) (launch : Launch) (d : Daemon) : Fleet :=
  { f with
    daemon := d
    handle := fun k => if k = entry then f.launched.length else f.handle k
    launched := f.launched ++ [launch] }

/-- `register` for an agent, with `sync_agent_to_shared`. -/
def enlist (s : Site) (f : Fleet) (name : String) (d : Daemon) : Fleet :=
  { f.register name (.agent name) d with
    shared := f.shared.syncAgent name ⟨f.launched.length, .starting, s.gateways name⟩ }

def spawnManagedAgent (s : Site) (f : Fleet) (agent : AgentConfig) : Fleet :=
  f.enlist s agent.name (f.daemon.spawnManagedAgent agent)

/-- Removes an agent here and in the shared state. -/
def removeManaged (f : Fleet) (name : String) : Fleet :=
  { f with
    daemon := f.daemon.removeManaged name
    shared := f.shared.removeAgent name }

/-- Stops and removes an agent if it is there. -/
def dropManaged (f : Fleet) (name : String) : Fleet :=
  if f.daemon.managed.contains name then
    { f with
      daemon := f.daemon.dropManaged name
      shared := f.shared.removeAgent name }
  else f

def reply (f : Fleet) (result : Except String String) : Fleet :=
  { f with daemon := f.daemon.send (.reply result) }

def startConfigured (s : Site) (f : Fleet) (name done : String) : Fleet :=
  match firstNamed f.daemon.currentConfig.agents name with
  | some agent => (f.spawnManagedAgent s agent).reply (.ok ("agent '" ++ name ++ "' " ++ done))
  | none => f.reply (.error ("agent '" ++ name ++ "' not found in config"))

def startAgent (s : Site) (f : Fleet) (name : String) : Fleet :=
  match f.daemon.managed.get name with
  | some agent =>
    if agent.status ≠ .stopped ∧ agent.status ≠ .error then
      f.reply (.error ("agent '" ++ name ++ "' is already " ++ agent.status.text))
    else (f.removeManaged name).startConfigured s name "started"
  | none => f.startConfigured s name "started"

def restartAgent (s : Site) (f : Fleet) (name : String) : Fleet :=
  (f.dropManaged name).startConfigured s name "restarted"

def addManaged (s : Site) (f : Fleet) (agent : AgentConfig) : Fleet :=
  if f.daemon.managed.contains agent.name then f else f.spawnManagedAgent s agent

def applyConfigChanges (s : Site) (f : Fleet) (config : Config) : Fleet :=
  (config.agents.filter (·.autoStart)).foldl (addManaged s)
    ((f.daemon.toRemove s.world config).foldl dropManaged f)

def reloadConfig (s : Site) (f : Fleet) : Fleet :=
  match s.world.loadConfig with
  | none => f
  | some config =>
    if s.world.configHash config.hashed = f.daemon.lastConfigHash then f
    else
      let f := f.applyConfigChanges s config
      { f with
        daemon := { f.daemon with
          currentConfig := config
          lastConfigHash := s.world.configHash config.hashed } }

def restartDue (s : Site) (f : Fleet) (name : String) : Fleet :=
  match firstNamed f.daemon.currentConfig.agents name with
  | none => f
  | some _ => f.enlist s name (f.daemon.restartDue name)

/-- Whether the entry's time to be restarted has come. -/
def due (w : World) (d : Daemon) (name : String) : Bool :=
  match d.managed.get name with
  | none => false
  | some agent =>
    agent.status == .restartPending &&
      (agent.restartAt.map (fun t => decide (t ≤ w.instant))).getD false

def restartAgents (s : Site) (f : Fleet) : Fleet :=
  ((f.daemon.managed.keysIn (s.world.order .managed)).filter (due s.world f.daemon)).foldl
    (restartDue s) f

def spawnJobWorker (s : Site) (f : Fleet) (job : Job) : Fleet :=
  let d := f.daemon.spawnJobWorker s.world job
  if f.daemon.capsule && f.daemon.sandboxRequested then
    f.register (workerName job.jobId) (.capsule job.jobId) d
  else
    match firstNamed f.daemon.currentConfig.agents job.profileId with
    | none => { f with daemon := d }
    | some agent => f.register (workerName job.jobId) (.job agent.name job.jobId) d

/-- Takes the next update. The shared state gets the status that it carries. -/
def deliver (s : Site) (f : Fleet) : Fleet :=
  match f.queue with
  | [] => f
  | report :: queue =>
    { f with
      daemon := f.daemon.agentUpdate s.world report.update
      shared :=
        if f.daemon.managed.contains report.update.name then
          f.shared.syncStatus report.update.name report.update.status
        else f.shared
      queue := queue }

def begins (f : Fleet) (handle : Nat) (start : BridgeStart) : Fleet :=
  match f.launched[handle]?.bind (·.bridge start), f.bridges.get handle with
  | some b, none =>
    { f with
      bridges := f.bridges.insert handle b
      queue := f.queue ++ b.updates.map (⟨handle, true, ·⟩) }
  | _, _ => f

/-- Whether the updates sent for the input are about the worker. Those for its logs and
jobs carry a status too, always the same one. -/
def aboutWorker : BridgeInput → Bool
  | .output msg => msg.strOr "type" "" == "status"
  | _ => true

def bridgeStep (f : Fleet) (handle : Nat) (input : BridgeInput) : Fleet :=
  match f.bridges.get handle with
  | none => f
  | some b =>
    { f with
      bridges := f.bridges.insert handle (b.step input)
      queue := f.queue ++
        ((b.step input).updates.drop b.updates.length).map (⟨handle, aboutWorker input, ·⟩) }

/-- The daemon with what `d` has apart from managed entries and config. -/
def elsewhere (f : Fleet) (d : Daemon) : Fleet :=
  { f with
    daemon := { d with
      managed := f.daemon.managed
      currentConfig := f.daemon.currentConfig
      lastConfigHash := f.daemon.lastConfigHash
      sandboxOverride := f.daemon.sandboxOverride
      capsule := f.daemon.capsule } }

def step (f : Fleet) : FleetInput → Fleet
  | .begins handle start => f.begins handle start
  | .bridge handle input => f.bridgeStep handle input
  | .postStop name => { f with shared := (f.shared.postStop name).2.2 }
  | .deliver s => f.deliver s
  | .start s name => f.startAgent s name
  | .restart s name => f.restartAgent s name
  | .reload s => f.reloadConfig s
  | .restartAgents s => f.restartAgents s
  | .spawnJob s job => f.spawnJobWorker s job
  | .dropJob jobId => { f with daemon := f.daemon.removeManaged (workerName jobId) }
  | .elsewhere d => f.elsewhere d

/-- The start of the process with the config. -/
def boot (s : Site) (d : Daemon) (config : Config) : Fleet :=
  (config.agents.filter (·.autoStart)).foldl (spawnManagedAgent s)
    { daemon := { d with
        alive := true
        managed := .empty
        currentConfig := config
        lastConfigHash := s.world.configHash config.hashed
        lastCleanup := s.world.instant }.act s.world .hydrate
      shared := .new
      handle := fun _ => 0
      launched := []
      bridges := .empty
      queue := [] }

/-! ## The daemon in the fleet -/

section
variable {s : Site} {f f' f'' : Fleet} {name : String}

theorem daemon_foldl {α : Type} {g : Fleet → α → Fleet} {g' : Daemon → α → Daemon}
    (h : ∀ f a, (g f a).daemon = g' f.daemon a) (l : List α) (f : Fleet) :
    (l.foldl g f).daemon = l.foldl g' f.daemon :=
  (List.foldl_hom daemon (fun f a => (h f a).symm)).symm

theorem daemon_dropManaged (f : Fleet) (name : String) :
    (f.dropManaged name).daemon = f.daemon.dropManaged name := by
  unfold Fleet.dropManaged
  split
  · rfl
  · rename_i hno
    have hnone : f.daemon.managed.get name = none := by
      simpa [HashMap.contains] using hno
    have hsame : f.daemon.removeManaged name = f.daemon := by
      unfold Daemon.removeManaged
      rw [HashMap.remove_of_get_none hnone]
    unfold Daemon.dropManaged Daemon.stopWorker
    rw [if_neg hno, hsame]

theorem daemon_startConfigured (s : Site) (f : Fleet) (name done : String) :
    (f.startConfigured s name done).daemon = f.daemon.startConfigured name done := by
  unfold Fleet.startConfigured Daemon.startConfigured firstNamed
  cases f.daemon.currentConfig.agents.find? (fun a => a.name == name) with
  | none => rfl
  | some agent => rfl

theorem daemon_startAgent (s : Site) (f : Fleet) (name : String) :
    (f.startAgent s name).daemon = f.daemon.startAgent name := by
  unfold startAgent Daemon.startAgent
  cases f.daemon.managed.get name with
  | none => exact daemon_startConfigured ..
  | some agent =>
    dsimp only
    split
    · rfl
    · exact daemon_startConfigured ..

theorem daemon_restartAgent (s : Site) (f : Fleet) (name : String) :
    (f.restartAgent s name).daemon = f.daemon.restartAgent name := by
  unfold restartAgent
  rw [daemon_startConfigured, daemon_dropManaged]
  rfl

theorem daemon_addManaged (s : Site) (f : Fleet) (agent : AgentConfig) :
    (f.addManaged s agent).daemon = f.daemon.addManaged agent := by
  unfold addManaged Daemon.addManaged
  split <;> rfl

theorem daemon_applyConfigChanges (s : Site) (f : Fleet) (config : Config) :
    (f.applyConfigChanges s config).daemon = f.daemon.applyConfigChanges s.world config := by
  unfold applyConfigChanges
  rw [applyConfigChanges_eq, daemon_foldl (daemon_addManaged s), daemon_foldl daemon_dropManaged]

theorem daemon_reloadConfig (s : Site) (f : Fleet) :
    (f.reloadConfig s).daemon = f.daemon.reloadConfig s.world := by
  unfold reloadConfig Daemon.reloadConfig
  cases s.world.loadConfig with
  | none => rfl
  | some config =>
    dsimp only
    split
    · rfl
    · rw [← daemon_applyConfigChanges]

theorem daemon_restartDue (s : Site) (f : Fleet) (name : String) :
    (f.restartDue s name).daemon = f.daemon.restartDue name := by
  unfold restartDue
  split
  · rename_i h
    unfold Daemon.restartDue
    unfold firstNamed at h
    simp only [h]
  · rfl

theorem daemon_restartAgents (s : Site) (f : Fleet) :
    (f.restartAgents s).daemon = Daemon.restartAgents s.world f.daemon := by
  unfold restartAgents Daemon.restartAgents
  rw [daemon_foldl (daemon_restartDue s)]
  rfl

theorem daemon_spawnJobWorker (s : Site) (f : Fleet) (job : Job) :
    (f.spawnJobWorker s job).daemon = f.daemon.spawnJobWorker s.world job := by
  unfold spawnJobWorker
  dsimp only
  split
  · rfl
  · split <;> rfl

theorem daemon_boot (s : Site) (d : Daemon) {config : Config}
    (h : s.world.startConfig = some config) : (boot s d config).daemon = d.boot s.world := by
  unfold boot Daemon.boot
  have hspawn : ∀ (f : Fleet) (agent : AgentConfig),
      (f.spawnManagedAgent s agent).daemon = f.daemon.spawnManagedAgent agent := fun _ _ => rfl
  rw [daemon_foldl hspawn, h]

end

/-! ## What a step does to an entry -/

/-- What was spawned last for the entry. -/
def launchOf (f : Fleet) (name : String) : Option Launch := f.launched[f.handle name]?

/-- How often the agent has been spawned. -/
def spawns (f : Fleet) (name : String) : Nat := f.launched.count (.agent name)

/-- The agents among `A` and any workers of jobs may have been spawned. An entry keeps
its handle and either stays as it is or goes, or it has just been spawned. -/
structure Moves (A : String → Prop) (f f' : Fleet) : Prop where
  launched : ∃ ls, f'.launched = f.launched ++ ls ∧ ∀ name, .agent name ∈ ls → A name
  entry : ∀ name,
    (f'.handle name = f.handle name ∧
      (f'.daemon.managed.get name = f.daemon.managed.get name ∨
        f'.daemon.managed.get name = none)) ∨
    (f.launched.length ≤ f'.handle name ∧ ∃ l, f'.launchOf name = some l ∧
      (∀ agent, f'.daemon.managed.get name = some agent → agent.status = l.status) ∧
      (l = .agent name ∨ l.status = .running))

section
variable {s : Site} {f f' f'' : Fleet} {A B : String → Prop} {name : String}

theorem Moves.mono (h : Moves A f f') (hAB : ∀ name, A name → B name) : Moves B f f' := by
  obtain ⟨ls, hls, hA⟩ := h.launched
  exact ⟨⟨ls, hls, fun name hmem => hAB name (hA name hmem)⟩, h.entry⟩

/-- Neither handles nor launches differ, and every entry is the same or gone. -/
theorem Moves.gone (hl : f'.launched = f.launched) (hh : f'.handle = f.handle)
    (hm : ∀ name, f'.daemon.managed.get name = f.daemon.managed.get name ∨
      f'.daemon.managed.get name = none) : Moves A f f' := by
  refine ⟨⟨[], by simp [hl], by simp⟩, ?_⟩
  intro name
  exact Or.inl ⟨by rw [hh], hm name⟩

theorem Moves.same (hl : f'.launched = f.launched) (hh : f'.handle = f.handle)
    (hm : f'.daemon.managed = f.daemon.managed) : Moves A f f' :=
  .gone hl hh (fun name => Or.inl (by rw [hm]))

theorem Moves.refl (f : Fleet) : Moves A f f := .same rfl rfl rfl

theorem Moves.length_le (h : Moves A f f') : f.launched.length ≤ f'.launched.length := by
  obtain ⟨ls, hls, _⟩ := h.launched
  simp [hls]

theorem Moves.launched_some (h : Moves A f f') {n : Nat} {l : Launch}
    (hl : f.launched[n]? = some l) : f'.launched[n]? = some l := by
  obtain ⟨ls, hls, _⟩ := h.launched
  rw [hls, List.getElem?_append_left (List.getElem?_eq_some_iff.mp hl).1, hl]

theorem Moves.trans (h : Moves A f f') (h' : Moves A f' f'') : Moves A f f'' := by
  refine ⟨?_, ?_⟩
  · obtain ⟨ls, hls, hA⟩ := h.launched
    obtain ⟨ls', hls', hA'⟩ := h'.launched
    refine ⟨ls ++ ls', by rw [hls', hls, List.append_assoc], ?_⟩
    intro name hmem
    rcases List.mem_append.mp hmem with hmem | hmem
    · exact hA name hmem
    · exact hA' name hmem
  · intro name
    rcases h'.entry name with ⟨hh', hm'⟩ | ⟨hle, hfresh⟩
    · rcases h.entry name with ⟨hh, hm⟩ | ⟨hle, l, hl, hst, hkind⟩
      · left
        refine ⟨hh'.trans hh, ?_⟩
        rcases hm' with hm' | hm'
        · rw [hm']
          exact hm
        · exact Or.inr hm'
      · -- spawned first, then left alone or removed
        right
        refine ⟨hh' ▸ hle, l, ?_, ?_, hkind⟩
        · unfold launchOf
          rw [hh']
          exact h'.launched_some hl
        · intro agent hagent
          rcases hm' with hm' | hm'
          · exact hst agent (hm' ▸ hagent)
          · rw [hm'] at hagent
            cases hagent
    · exact Or.inr ⟨Nat.le_trans h.length_le hle, hfresh⟩

theorem Moves.foldl {α : Type} {g : Fleet → α → Fleet} (l : List α)
    (hg : ∀ a ∈ l, ∀ f, Moves A f (g f a)) (f : Fleet) : Moves A f (l.foldl g f) :=
  foldl_relates .refl .trans l hg f

/-- A new entry with its handle. -/
theorem moves_register {entry : String} {l : Launch} {d : Daemon} (agent : InternalAgent)
    (hd : ∀ k, d.managed.get k = if k = entry then some agent else f.daemon.managed.get k)
    (hst : agent.status = l.status) (hA : ∀ name, l = .agent name → A name)
    (hkind : l = .agent entry ∨ l.status = .running) : Moves A f (f.register entry l d) := by
  refine ⟨?_, ?_⟩
  · refine ⟨[l], rfl, ?_⟩
    intro name hmem
    exact hA name (List.mem_singleton.mp hmem).symm
  · intro name
    by_cases hname : name = entry
    · subst hname
      right
      have hh : (f.register name l d).handle name = f.launched.length := if_pos rfl
      refine ⟨Nat.le_of_eq hh.symm, l, ?_, ?_, hkind⟩
      · unfold launchOf
        rw [hh]
        exact List.getElem?_concat_length
      · intro agent' hget
        have hget : d.managed.get name = some agent' := hget
        rw [hd, if_pos rfl] at hget
        cases hget
        exact hst
    · left
      exact ⟨if_neg hname, Or.inl ((hd name).trans (if_neg hname))⟩

theorem moves_enlist {d : Daemon} (agent : InternalAgent)
    (hd : ∀ k, d.managed.get k = if k = name then some agent else f.daemon.managed.get k)
    (hst : agent.status = .starting) : Moves (· = name) f (f.enlist s name d) := by
  have h : Moves (· = name) f (f.register name (.agent name) d) := by
    refine moves_register agent hd hst ?_ (Or.inl rfl)
    intro n hn
    cases hn
    rfl
  exact h.trans (.same rfl rfl rfl)

theorem moves_spawnManagedAgent (s : Site) (f : Fleet) (agent : AgentConfig) :
    Moves (· = agent.name) f (f.spawnManagedAgent s agent) :=
  moves_enlist (managedAgent agent) (spawnManagedAgent_get f.daemon agent) rfl

theorem moves_removeManaged (f : Fleet) (name : String) : Moves A f (f.removeManaged name) := by
  refine Moves.gone rfl rfl ?_
  intro k
  show (f.daemon.managed.remove name).get k = _ ∨ (f.daemon.managed.remove name).get k = _
  rw [HashMap.get_remove]
  split
  · exact Or.inr rfl
  · exact Or.inl rfl

theorem moves_dropManaged (f : Fleet) (name : String) : Moves A f (f.dropManaged name) := by
  unfold Fleet.dropManaged
  split
  · refine Moves.gone rfl rfl ?_
    intro k
    show (f.daemon.dropManaged name).managed.get k = _ ∨ (f.daemon.dropManaged name).managed.get k = _
    rw [dropManaged_get]
    split
    · exact Or.inr rfl
    · exact Or.inl rfl
  · exact .refl f

theorem moves_startConfigured (s : Site) (f : Fleet) (name done : String) :
    Moves (· = name) f (f.startConfigured s name done) := by
  unfold startConfigured
  split
  · rename_i agent hagent
    have hname : agent.name = name := by simpa using List.find?_some hagent
    exact (hname ▸ moves_spawnManagedAgent s f agent).trans (.same rfl rfl rfl)
  · exact .same rfl rfl rfl

theorem moves_startAgent (s : Site) (f : Fleet) (name : String) :
    Moves (· = name) f (f.startAgent s name) := by
  unfold startAgent
  split
  · split
    · exact .same rfl rfl rfl
    · exact (moves_removeManaged f name).trans (moves_startConfigured s _ name "started")
  · exact moves_startConfigured s f name "started"

theorem moves_restartAgent (s : Site) (f : Fleet) (name : String) :
    Moves (· = name) f (f.restartAgent s name) :=
  (moves_dropManaged f name).trans (moves_startConfigured s _ name "restarted")

/-- Only agents that are not managed are added. -/
theorem moves_addAll (s : Site) (agents : List AgentConfig) (f : Fleet) :
    Moves (fun n => n ∈ agents.map (·.name) ∧ f.daemon.managed.contains n = false) f
      (agents.foldl (addManaged s) f) := by
  induction agents generalizing f with
  | nil => exact .refl f
  | cons agent agents ih =>
    have hrest := ih (f.addManaged s agent)
    rw [List.foldl_cons]
    cases hc : f.daemon.managed.contains agent.name with
    | true =>
      have hsame : f.addManaged s agent = f := if_pos hc
      rw [hsame] at hrest ⊢
      exact hrest.mono (fun n hn => ⟨List.mem_cons_of_mem _ hn.1, hn.2⟩)
    | false =>
      have hadd : f.addManaged s agent = f.spawnManagedAgent s agent := by
        unfold addManaged
        simp [hc]
      rw [hadd] at hrest ⊢
      refine ((moves_spawnManagedAgent s f agent).mono ?_).trans (hrest.mono ?_)
      · intro n hn
        exact ⟨by simp [hn], hn ▸ hc⟩
      · intro n hn
        refine ⟨List.mem_cons_of_mem _ hn.1, ?_⟩
        -- what is missing afterwards was missing before
        have hno := hn.2
        have hget : (f.spawnManagedAgent s agent).daemon.managed.get n =
            if n = agent.name then some (managedAgent agent) else f.daemon.managed.get n :=
          spawnManagedAgent_get f.daemon agent n
        rw [HashMap.contains, hget] at hno
        split at hno
        · cases hno
        · exact hno

theorem moves_applyConfigChanges (s : Site) (f : Fleet) (config : Config) :
    Moves (f.daemon.Added config) f (f.applyConfigChanges s config) := by
  unfold applyConfigChanges
  refine Moves.trans (.foldl _ (fun name _ f => moves_dropManaged f name) f)
    ((moves_addAll s _ _).mono ?_)
  intro n hn
  refine ⟨?_, hn.1⟩
  -- an agent that starts by itself has not been dropped
  have hno := hn.2
  rw [daemon_foldl daemon_dropManaged, HashMap.contains,
    (drop_all _ nodup_toRemove (fun name h => (mem_toRemove.mp h).1)).2.2,
    if_neg (fun h => (mem_toRemove.mp h).2 hn.1)] at hno
  exact hno

/-- A config that differs from the current one is found. -/
def Reloads (s : Site) (f : Fleet) (config : Config) : Prop :=
  s.world.loadConfig = some config ∧ s.world.configHash config.hashed ≠ f.daemon.lastConfigHash

theorem moves_reloadConfig (s : Site) (f : Fleet) :
    Moves (fun n => ∃ config, f.Reloads s config ∧ f.daemon.Added config n) f
      (f.reloadConfig s) := by
  unfold reloadConfig
  split
  · exact .refl f
  · rename_i config hload
    split
    · exact .refl f
    · rename_i hhash
      refine Moves.trans ((moves_applyConfigChanges s f config).mono ?_) (.same rfl rfl rfl)
      intro n hn
      exact ⟨config, ⟨hload, hhash⟩, hn⟩

theorem moves_restartDue (s : Site) (f : Fleet) (name : String) :
    Moves (· = name) f (f.restartDue s name) := by
  unfold restartDue
  split
  · exact .refl f
  · rename_i agent hagent
    apply moves_enlist { managedAgent agent with
      restartCount := ((f.daemon.managed.get name).map (·.restartCount)).getD 0 + 1 }
    · intro k
      unfold Daemon.restartDue
      unfold firstNamed at hagent
      simp only [hagent, insertManaged_managed, send_managed, removeManaged_managed,
        HashMap.get_insert, HashMap.get_remove]
      split <;> rfl
    · rfl

theorem moves_restartAgents (s : Site) (f : Fleet) :
    Moves (fun n => due s.world f.daemon n = true) f (f.restartAgents s) := by
  apply Moves.foldl
  intro name hname f'
  apply (moves_restartDue s f' name).mono
  intro n hn
  rw [hn]
  exact (List.mem_filter.mp hname).2

theorem moves_spawnJobWorker (s : Site) (f : Fleet) (job : Job) :
    Moves (fun _ => False) f (f.spawnJobWorker s job) := by
  unfold spawnJobWorker
  dsimp only
  split
  · rename_i hcapsule
    apply moves_register (jobWorker false)
    · intro k
      unfold Daemon.spawnJobWorker
      simp [hcapsule, HashMap.get_insert]
    · rfl
    · intro name h
      cases h
    · exact Or.inr rfl
  · rename_i hcapsule
    split
    · rename_i hnone
      refine Moves.same rfl rfl ?_
      unfold Daemon.spawnJobWorker
      unfold firstNamed at hnone
      simp [hcapsule, hnone]
    · rename_i agent hagent
      apply moves_register (jobWorker true)
      · intro k
        unfold Daemon.spawnJobWorker
        unfold firstNamed at hagent
        simp only [hcapsule, hagent, Bool.false_eq_true, if_false, insertManaged_managed,
          HashMap.get_insert]
        split
        · rfl
        · split <;> rfl
      · rfl
      · intro name h
        cases h
      · exact Or.inr rfl

end

/-- The agents that a step may spawn. -/
def Spawning (f : Fleet) : FleetInput → String → Prop
  | .start _ name, n => n = name
  | .restart _ name, n => n = name
  | .reload s, n => ∃ config, f.Reloads s config ∧ f.daemon.Added config n
  | .restartAgents s, n => due s.world f.daemon n = true
  | _, _ => False

/-- Every step but the taking of an update moves the entries. -/
theorem moves_step (f : Fleet) (i : FleetInput) (hi : ∀ s, i ≠ .deliver s) :
    Moves (f.Spawning i) f (f.step i) := by
  cases i with
  | begins handle start =>
    show Moves _ f (f.begins handle start)
    unfold begins
    split <;> exact .same rfl rfl rfl
  | bridge handle input =>
    show Moves _ f (f.bridgeStep handle input)
    unfold bridgeStep
    split <;> exact .same rfl rfl rfl
  | postStop name => exact .same rfl rfl rfl
  | deliver s => exact absurd rfl (hi s)
  | start s name => exact moves_startAgent s f name
  | restart s name => exact moves_restartAgent s f name
  | reload s => exact moves_reloadConfig s f
  | restartAgents s => exact moves_restartAgents s f
  | spawnJob s job => exact moves_spawnJobWorker s f job
  | dropJob jobId => exact (moves_removeManaged f (workerName jobId)).trans (.same rfl rfl rfl)
  | elsewhere d => exact .same rfl rfl rfl

/-! ## Taking an update -/

end Fleet

/-- The status to which an update with the status brings the entry. -/
def InternalAgent.statusAfter (agent : InternalAgent) (status : AgentStatus) : AgentStatus :=
  if (status = .stopped ∨ status = .error) ∧ agent.restartCount < agent.maxRestarts then
    .restartPending
  else status

namespace Fleet

theorem agentUpdate_get {w : World} {d : Daemon} {u : AgentStateUpdate} {agent : InternalAgent}
    (h : d.managed.get u.name = some agent) :
    ∃ agent', agent'.status = agent.statusAfter u.status ∧
      ∀ k, (d.agentUpdate w u).managed.get k =
        if k = u.name then some agent' else d.managed.get k := by
  unfold agentUpdate
  rw [h]
  refine ⟨_, ?_, fun k => HashMap.get_insert ..⟩
  unfold InternalAgent.scheduleRestart InternalAgent.statusAfter
  split <;> rfl

theorem agentUpdate_of_missing {w : World} {d : Daemon} {u : AgentStateUpdate}
    (h : d.managed.get u.name = none) : d.agentUpdate w u = d := by
  unfold agentUpdate
  rw [h]

/-! ## The handlers of the daemon -/

/-- The step is one of the daemon at the site, other than the taking of an update. -/
def Handles (s : Site) : FleetInput → Prop
  | .start s' _ | .restart s' _ | .reload s' | .restartAgents s' | .spawnJob s' _ => s' = s
  | .dropJob _ | .elsewhere _ => True
  | _ => False

/-- The fleet's steps lead from one daemon to the other. -/
def Reach (s : Site) (d d' : Daemon) : Prop :=
  ∀ f : Fleet, f.daemon = d →
    ∃ is, (∀ i ∈ is, Handles s i) ∧ (run step f is).daemon = d'

theorem reach_step {s : Site} {d d' : Daemon} (i : FleetInput) (hi : Handles s i)
    (h : ∀ f : Fleet, f.daemon = d → (f.step i).daemon = d') : Reach s d d' := by
  intro f hf
  refine ⟨[i], ?_, h f hf⟩
  intro j hj
  rw [List.mem_singleton.mp hj]
  exact hi

/-- Whatever leaves managed entries and config alone is a step. -/
theorem reach_elsewhere (s : Site) {d d' : Daemon} (hm : d'.managed = d.managed)
    (hc : d'.currentConfig = d.currentConfig) (hh : d'.lastConfigHash = d.lastConfigHash)
    (ho : d'.sandboxOverride = d.sandboxOverride) (hf : d'.capsule = d.capsule) : Reach s d d' := by
  refine reach_step (.elsewhere d') True.intro ?_
  intro f hd
  subst hd
  show ({ d' with
    managed := f.daemon.managed
    currentConfig := f.daemon.currentConfig
    lastConfigHash := f.daemon.lastConfigHash
    sandboxOverride := f.daemon.sandboxOverride
    capsule := f.daemon.capsule } : Daemon) = d'
  rw [← hm, ← hc, ← hh, ← ho, ← hf]

theorem elementary_reach (s : Site) : Elementary s.world (Reach s) where
  refl := by
    intro d f hf
    exact ⟨[], by simp, hf⟩
  trans := by
    intro d₁ d₂ d₃ h h' f hf
    obtain ⟨is, his, hd⟩ := h f hf
    obtain ⟨js, hjs, hd'⟩ := h' _ hd
    refine ⟨is ++ js, ?_, by rw [run_append, hd']⟩
    intro i hi
    rcases List.mem_append.mp hi with hi | hi
    · exact his i hi
    · exact hjs i hi
  act := fun _ _ _ => reach_elsewhere s rfl rfl rfl rfl rfl
  send := fun _ _ => reach_elsewhere s rfl rfl rfl rfl rfl
  removeWorker := by
    intro d jobId
    refine reach_step (.dropJob jobId) True.intro ?_
    intro f hf
    subst hf
    rfl
  spawnJobWorker := by
    intro d job
    refine reach_step (.spawnJob s job) rfl ?_
    intro f hf
    exact hf ▸ daemon_spawnJobWorker s f job
  startAgent := by
    intro d name
    refine reach_step (.start s name) rfl ?_
    intro f hf
    exact hf ▸ daemon_startAgent s f name
  restartAgent := by
    intro d name
    refine reach_step (.restart s name) rfl ?_
    intro f hf
    exact hf ▸ daemon_restartAgent s f name
  reloadConfig := by
    intro d
    refine reach_step (.reload s) rfl ?_
    intro f hf
    exact hf ▸ daemon_reloadConfig s f
  cleaned := fun _ _ => reach_elsewhere s rfl rfl rfl rfl rfl
  restartAgents := by
    intro d
    refine reach_step (.restartAgents s) rfl ?_
    intro f hf
    exact hf ▸ daemon_restartAgents s f

/-- What the daemon makes of a command, an event or a tick is what steps of the fleet make
of it. -/
theorem handle_reach (s : Site) (f : Fleet) {i : Input}
    (hi : (∃ c, i = .command c) ∨ (∃ v, i = .event v) ∨ i = .tick) {d' : Daemon}
    (hd : f.daemon.handle s.world i = .ok d' ∨ f.daemon.handle s.world i = .error d') :
    ∃ is, (∀ i ∈ is, Handles s i) ∧ (run step f is).daemon = d' :=
  (elementary_reach s).handle (fun _ _ => reach_elsewhere s rfl rfl rfl rfl rfl) hi f.daemon hd f rfl

/-- What it makes of an update is what the taking of the update makes of it. -/
theorem handle_deliver (s : Site) (f : Fleet) {report : QueuedUpdate} {rest : List QueuedUpdate}
    (hq : f.queue = report :: rest) :
    f.daemon.handle s.world (.update report.update) = .ok (f.step (.deliver s)).daemon := by
  show _ = Except.ok (f.deliver s).daemon
  unfold deliver
  rw [hq]
  rfl

end Fleet
end ZeptoPM
