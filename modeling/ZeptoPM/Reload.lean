import ZeptoPM.Runs

/- Hot reload. The map of managed entries holds the configured agents, the agents
   started by hand and the workers of jobs; a reload keeps those entries whose
   names are among the agents that start by themselves and drops the others.
   `HotReload` says what a reload is for, and `hotReload_iff` for which entries
   the code does that. -/
namespace ZeptoPM
open Daemon

/-- The names of the agents that start by themselves. -/
def Config.autoStarted (config : Config) : List String :=
  (config.agents.filter (·.autoStart)).map (·.name)

def Config.agentNames (config : Config) : List String := config.agents.map (·.name)

theorem Config.agentNames_of_autoStarted {config : Config} {name : String}
    (h : name ∈ config.autoStarted) : name ∈ config.agentNames := by
  obtain ⟨a, ha, rfl⟩ := List.mem_map.mp h
  exact List.mem_map_of_mem (List.mem_filter.mp ha).1

/-- The entry belongs to the worker of a job. -/
def JobWorker (name : String) : Prop := ∃ jobId, name = workerName jobId

/-! ## What a reload is for -/

/-- A managed agent that the config no longer contains. -/
def Daemon.Dropped (d : Daemon) (config : Config) (name : String) : Prop :=
  d.managed.contains name = true ∧ ¬ JobWorker name ∧ name ∉ config.agentNames

/-- An agent that starts by itself and is not managed yet. -/
def Daemon.Added (d : Daemon) (config : Config) (name : String) : Prop :=
  d.managed.contains name = false ∧ name ∈ config.autoStarted

/-- The dropped agents are stopped and forgotten, the added ones spawned, each of
them once; every other entry stays as it is. -/
structure HotReload (config : Config) (d d' : Daemon) : Prop where
  sent : ∃ stops starts : List String,
    d'.sent = d.sent ++ (stops.map .stop ++ starts.map .spawn) ∧
      stops.Nodup ∧ (∀ name, name ∈ stops ↔ d.Dropped config name) ∧
      starts.Nodup ∧ (∀ name, name ∈ starts ↔ d.Added config name)
  dropped : ∀ name, d.Dropped config name → d'.managed.get name = none
  added : ∀ name, d.Added config name → ∃ agent ∈ config.agents,
    agent.autoStart = true ∧ agent.name = name ∧
      d'.managed.get name = some (managedAgent agent)
  kept : ∀ name, ¬ d.Dropped config name → ¬ d.Added config name →
    d'.managed.get name = d.managed.get name
  core : d'.core = d.core

/-! ## What the code does -/

section
variable {w : World} {d : Daemon} {config : Config} {name : String}

@[simp] theorem removeManaged_managed (d : Daemon) (name : String) :
    (d.removeManaged name).managed = d.managed.remove name := rfl
@[simp] theorem insertManaged_managed (d : Daemon) (name : String) (agent : InternalAgent) :
    (d.insertManaged name agent).managed = d.managed.insert name agent := rfl
@[simp] theorem send_managed (d : Daemon) (effect : Effect) :
    (d.send effect).managed = d.managed := rfl
@[simp] theorem send_sent (d : Daemon) (effect : Effect) :
    (d.send effect).sent = d.sent ++ [effect] := rfl
@[simp] theorem act_managed (w : World) (d : Daemon) (a : Action) :
    (d.act w a).managed = d.managed := rfl

@[simp] theorem stopWorker_managed (d : Daemon) (worker : String) :
    (d.stopWorker worker).managed = d.managed := by
  unfold stopWorker
  split <;> rfl

/-- Stops and forgets one entry. -/
def Daemon.dropManaged (d : Daemon) (name : String) : Daemon :=
  (d.stopWorker name).removeManaged name

/-- Spawns the agent if it is not managed. -/
def Daemon.addManaged (d : Daemon) (agent : AgentConfig) : Daemon :=
  if d.managed.contains agent.name then d else d.spawnManagedAgent agent

/-- The managed entries that are not among the agents that start by themselves. -/
def Daemon.toRemove (w : World) (d : Daemon) (config : Config) : List String :=
  (d.managed.keysIn (w.order .managed)).filter (fun name => !config.autoStarted.contains name)

theorem applyConfigChanges_eq (w : World) (d : Daemon) (config : Config) :
    d.applyConfigChanges w config =
      (config.agents.filter (·.autoStart)).foldl addManaged
        ((d.toRemove w config).foldl dropManaged d) := rfl

theorem mem_toRemove :
    name ∈ d.toRemove w config ↔ d.managed.contains name = true ∧ name ∉ config.autoStarted := by
  unfold toRemove
  rw [List.mem_filter, HashMap.mem_keysIn, HashMap.contains_iff]
  simp

theorem nodup_toRemove : (d.toRemove w config).Nodup := (HashMap.keysIn_nodup ..).filter _

theorem dropManaged_get (d : Daemon) (name k : String) :
    (d.dropManaged name).managed.get k = if k = name then none else d.managed.get k := by
  simp [dropManaged, HashMap.get_remove]

/-- Dropping distinct managed entries stops each of them. -/
theorem drop_all (names : List String) (hd : names.Nodup)
    (hm : ∀ name ∈ names, d.managed.contains name = true) :
    (names.foldl dropManaged d).sent = d.sent ++ names.map .stop ∧
    (names.foldl dropManaged d).core = d.core ∧
    ∀ k, (names.foldl dropManaged d).managed.get k = if k ∈ names then none else d.managed.get k := by
  induction names generalizing d with
  | nil => simp
  | cons name names ih =>
    rw [List.nodup_cons] at hd
    have hname := hm name List.mem_cons_self
    have hrest : ∀ k ∈ names, (d.dropManaged name).managed.contains k = true := by
      intro k hk
      have hne : k ≠ name := by
        intro h
        exact hd.1 (h ▸ hk)
      rw [HashMap.contains, dropManaged_get, if_neg hne]
      exact hm k (List.mem_cons_of_mem name hk)
    obtain ⟨hsent, hcore, hget⟩ := ih hd.2 hrest
    have hstep : (d.dropManaged name).sent = d.sent ++ [.stop name] := by
      simp [dropManaged, stopWorker, hname, removeManaged]
    have hsame : (d.dropManaged name).core = d.core := by
      simp [dropManaged, stopWorker, hname, removeManaged, send]
    rw [List.foldl_cons]
    refine ⟨by simp [hsent, hstep], hcore.trans hsame, ?_⟩
    intro k
    rw [hget, dropManaged_get]
    by_cases hk : k = name <;> simp [hk]

/-- The first of the agents with the name. -/
def firstNamed (agents : List AgentConfig) (name : String) : Option AgentConfig :=
  agents.find? (fun a => a.name == name)

theorem firstNamed_isSome {agents : List AgentConfig} :
    (firstNamed agents name).isSome = true ↔ name ∈ agents.map (·.name) := by
  simp [firstNamed, List.find?_isSome]

theorem addManaged_of_managed {agent : AgentConfig} (h : d.managed.contains agent.name = true) :
    d.addManaged agent = d := if_pos h

theorem addManaged_of_missing {agent : AgentConfig} (h : d.managed.contains agent.name = false) :
    d.addManaged agent = d.spawnManagedAgent agent := by
  unfold addManaged
  simp [h]

theorem spawnManagedAgent_get (d : Daemon) (agent : AgentConfig) (k : String) :
    (d.spawnManagedAgent agent).managed.get k =
      if k = agent.name then some (managedAgent agent) else d.managed.get k := by
  simp [spawnManagedAgent, HashMap.get_insert]

/-- Adding agents spawns those that are missing, each of them once. -/
theorem add_all (agents : List AgentConfig) (d : Daemon) :
    (agents.foldl addManaged d).core = d.core ∧
    (∃ starts : List String, (agents.foldl addManaged d).sent = d.sent ++ starts.map .spawn ∧
      starts.Nodup ∧
      ∀ name, name ∈ starts ↔
        d.managed.contains name = false ∧ name ∈ agents.map (·.name)) ∧
    ∀ k, (agents.foldl addManaged d).managed.get k =
      (d.managed.get k).or ((firstNamed agents k).map managedAgent) := by
  induction agents generalizing d with
  | nil => exact ⟨rfl, ⟨[], by simp⟩, fun k => by simp [firstNamed]⟩
  | cons agent agents ih =>
    rw [List.foldl_cons]
    obtain ⟨hcore, ⟨starts, hsent, hnd, hmem⟩, hget⟩ := ih (d.addManaged agent)
    cases hc : d.managed.contains agent.name with
    | true =>
      rw [addManaged_of_managed hc] at hcore hsent hget hmem ⊢
      refine ⟨hcore, ⟨starts, hsent, hnd, ?_⟩, ?_⟩
      · intro name
        rw [hmem, List.map_cons, List.mem_cons]
        refine ⟨?_, ?_⟩
        · intro h
          exact ⟨h.1, Or.inr h.2⟩
        · intro h
          refine ⟨h.1, h.2.resolve_left ?_⟩
          intro hname
          rw [hname, hc] at h
          exact absurd h.1 (by simp)
      · intro k
        rw [hget]
        by_cases hk : agent.name = k
        · obtain ⟨v, hv⟩ := HashMap.contains_iff.mp hc
          rw [← hk, hv]
          rfl
        · simp [firstNamed, hk]
    | false =>
      rw [addManaged_of_missing hc] at hcore hsent hget hmem ⊢
      refine ⟨hcore, ⟨agent.name :: starts, ?_, ?_, ?_⟩, ?_⟩
      · rw [hsent]
        simp [spawnManagedAgent, insertManaged]
      · refine List.nodup_cons.mpr ⟨?_, hnd⟩
        intro h
        have hm := ((hmem agent.name).mp h).1
        rw [HashMap.contains, spawnManagedAgent_get, if_pos rfl] at hm
        cases hm
      · intro name
        rw [List.mem_cons, hmem, List.map_cons, List.mem_cons, HashMap.contains,
          spawnManagedAgent_get]
        by_cases hname : name = agent.name
        · simp [hname, hc]
        · simp [hname, HashMap.contains]
      · intro k
        rw [hget, spawnManagedAgent_get]
        by_cases hk : k = agent.name
        · have hnone : d.managed.get agent.name = none := by
            simpa [HashMap.contains] using hc
          simp [hk, hnone, firstNamed]
        · have hk' : agent.name ≠ k := Ne.symm hk
          simp [hk, hk', firstNamed]

theorem firstNamed_of_not_autoStarted (h : name ∉ config.autoStarted) :
    firstNamed (config.agents.filter (·.autoStart)) name = none := by
  rw [← Option.not_isSome_iff_eq_none, firstNamed_isSome]
  exact h

/-- What the code leaves: the entries of the agents that start by themselves. -/
theorem applyConfigChanges_get (w : World) (d : Daemon) (config : Config) (k : String) :
    (d.applyConfigChanges w config).managed.get k =
      (if k ∈ config.autoStarted then d.managed.get k else none).or
        ((firstNamed (config.agents.filter (·.autoStart)) k).map managedAgent) := by
  obtain ⟨_, _, hdrop⟩ := drop_all (d := d) (d.toRemove w config) nodup_toRemove
    (fun name h => (mem_toRemove.mp h).1)
  rw [applyConfigChanges_eq, (add_all _ _).2.2, hdrop]
  congr 1
  by_cases hk : k ∈ config.autoStarted
  · rw [if_neg (fun h => (mem_toRemove.mp h).2 hk), if_pos hk]
  · rw [if_neg hk]
    split
    · rfl
    · rename_i hno
      cases hget : d.managed.get k with
      | none => rfl
      | some v => exact absurd (mem_toRemove.mpr ⟨HashMap.contains_iff.mpr ⟨v, hget⟩, hk⟩) hno

theorem applyConfigChanges_get_none (h : name ∉ config.autoStarted) :
    (d.applyConfigChanges w config).managed.get name = none := by
  rw [applyConfigChanges_get, if_neg h, firstNamed_of_not_autoStarted h]
  rfl

theorem applyConfigChanges_sent (w : World) (d : Daemon) (config : Config) :
    ∃ starts : List String,
      (d.applyConfigChanges w config).sent =
        d.sent ++ ((d.toRemove w config).map .stop ++ starts.map .spawn) ∧
      starts.Nodup ∧ ∀ name, name ∈ starts ↔ d.Added config name := by
  obtain ⟨hsent, _, hdrop⟩ := drop_all (d := d) (d.toRemove w config) nodup_toRemove
    (fun name h => (mem_toRemove.mp h).1)
  obtain ⟨_, ⟨starts, hstarts, hnd, hmem⟩, _⟩ := add_all (config.agents.filter (·.autoStart))
    ((d.toRemove w config).foldl dropManaged d)
  refine ⟨starts, ?_, hnd, ?_⟩
  · rw [applyConfigChanges_eq, hstarts, hsent, List.append_assoc]
  · intro name
    rw [hmem]
    apply and_congr_left
    intro hname
    -- what starts by itself has not been dropped
    rw [HashMap.contains, hdrop, if_neg (fun h => (mem_toRemove.mp h).2 hname)]
    rfl

theorem applyConfigChanges_core (w : World) (d : Daemon) (config : Config) :
    (d.applyConfigChanges w config).core = d.core := by
  obtain ⟨_, hcore, _⟩ := drop_all (d := d) (d.toRemove w config) nodup_toRemove
    (fun name h => (mem_toRemove.mp h).1)
  rw [applyConfigChanges_eq, (add_all _ _).1, hcore]

/-! ## When the two agree -/

/-- A reload does what it is for exactly if every managed entry is among the agents
that start by themselves, or is an agent that the config does not contain at all: no
job has a worker, and no managed agent that the config keeps waits for a start by hand. -/
theorem hotReload_iff (w : World) (d : Daemon) (config : Config) :
    HotReload config d (d.applyConfigChanges w config) ↔
      ∀ name, d.managed.contains name = true →
        name ∈ config.autoStarted ∨ ¬ JobWorker name ∧ name ∉ config.agentNames := by
  refine ⟨?_, ?_⟩
  · intro h name hm
    by_contra hno
    rw [not_or] at hno
    have hgone := applyConfigChanges_get_none (w := w) (d := d) hno.1
    have hsame := h.kept name (fun hd => hno.2 hd.2) (fun ha => by simp [ha.1] at hm)
    obtain ⟨v, hv⟩ := HashMap.contains_iff.mp hm
    rw [hgone, hv] at hsame
    cases hsame
  · intro h
    have hdropped : ∀ name, name ∈ d.toRemove w config ↔ d.Dropped config name := by
      intro name
      rw [mem_toRemove]
      refine ⟨?_, ?_⟩
      · intro hr
        exact ⟨hr.1, (h name hr.1).resolve_left hr.2⟩
      · intro hd
        exact ⟨hd.1, fun hs => hd.2.2 (Config.agentNames_of_autoStarted hs)⟩
    obtain ⟨starts, hsent, hnd, hmem⟩ := applyConfigChanges_sent w d config
    refine ⟨⟨_, starts, hsent, nodup_toRemove, hdropped, hnd, hmem⟩, ?_, ?_, ?_, ?_⟩
    · intro name hd
      exact applyConfigChanges_get_none (mem_toRemove.mp ((hdropped name).mpr hd)).2
    · intro name ha
      have hnone : d.managed.get name = none := by simpa [HashMap.contains] using ha.1
      obtain ⟨agent, hagent⟩ := Option.isSome_iff_exists.mp (firstNamed_isSome.mpr ha.2)
      have hin := List.mem_filter.mp (List.mem_of_find?_eq_some hagent)
      refine ⟨agent, hin.1, hin.2, by simpa using List.find?_some hagent, ?_⟩
      rw [applyConfigChanges_get, if_pos ha.2, hnone, hagent]
      rfl
    · intro name hd ha
      rw [applyConfigChanges_get]
      cases hget : d.managed.get name with
      | none =>
        -- neither managed nor added
        have hauto : name ∉ config.autoStarted :=
          fun hs => ha ⟨by simp [HashMap.contains, hget], hs⟩
        rw [firstNamed_of_not_autoStarted hauto]
        simp
      | some v =>
        have hauto : name ∈ config.autoStarted := by
          by_contra hs
          exact hd ((hdropped name).mp
            (mem_toRemove.mpr ⟨HashMap.contains_iff.mpr ⟨v, hget⟩, hs⟩))
        rw [if_pos hauto]
        rfl
    · exact applyConfigChanges_core w d config

/-! ## An edit during a run -/

/-- An agent of that name that starts by itself. -/
def autoAgent (name : String) : AgentConfig where
  name := name
  provider := "mock"
  model := none
  systemPrompt := none
  tools := []
  autoStart := true
  maxRestarts := 3
  restartBackoffMs := 1000
  maxIterations := none
  timeoutMs := none

/-- The config of a daemon with a planner. -/
def plannerConfig : Config := { plainConfig with agents := [autoAgent "planner"] }

/-- The planner's job has a worker. -/
def planning : List (World × Input) :=
  [({ plannerWorld soloPlan with startConfig := some plannerConfig }, .start),
    (plannerWorld soloPlan, .command (.submitRun "task"))]

/-- Any edit of the config kills the worker of a running job, such as the addition of
an agent. -/
theorem not_hotReload_planning :
    let d := run Daemon.step (Daemon.off true none false) planning
    let edited : Config := { plannerConfig with agents := [autoAgent "planner", autoAgent "coder"] }
    ¬ HotReload edited d (d.applyConfigChanges World.bare edited) := by
  intro d edited h
  have hworker : JobWorker "__job_job_1_1" := ⟨"job_1_1", by decide⟩
  have hmanaged : d.managed.contains "__job_job_1_1" = true := by decide
  have hgone : (d.applyConfigChanges World.bare edited).managed.contains "__job_job_1_1" = false := by
    decide
  have hsame := h.kept "__job_job_1_1" (fun hd => hd.2.1 hworker) (fun ha => by
    rw [ha.1] at hmanaged
    cases hmanaged)
  rw [HashMap.contains, hsame] at hgone
  exact absurd (hgone.symm.trans hmanaged) (by decide)

end
end ZeptoPM
