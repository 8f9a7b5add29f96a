import ZeptoPM.InForce

/- The delays of restarts. An entry counts its restarts and carries the limit and the
   base delay of the agent it was spawned from, so along a run on one config the delay
   of a restart is the agent's base times a power of two below its limit
   (`held_step`), and the count only goes back where the agent is started anew
   (`counted_step`). `validate_config` looks at neither number, and the power and the
   product are taken in 64 bits: an agent that keeps crashing reaches every count below
   its limit (`crashing_rounds`), so the delays are right for every run exactly when the
   last of them fits. -/
namespace ZeptoPM
open Daemon

/-! ## Scheduling a restart -/

/-- The delay in milliseconds, in 64 bits. -/
def InternalAgent.backoffMs (agent : InternalAgent) : Nat :=
  agent.restartBackoffMs * (2 ^ agent.restartCount % 2 ^ 64) % 2 ^ 64

/-- Neither the power nor the product overflows. -/
def InternalAgent.BackoffFits (agent : InternalAgent) : Prop :=
  2 ^ agent.restartCount < 2 ^ 64 ∧ agent.restartBackoffMs * 2 ^ agent.restartCount < 2 ^ 64

/-- The entry for which the input schedules a restart, as it is before. -/
def Daemon.scheduling (d : Daemon) : Input → Option (String × InternalAgent)
  | .update u =>
    if d.alive && (u.status == .stopped || u.status == .error) then
      ((d.managed.get u.name).filter (fun agent => agent.restartCount < agent.maxRestarts)).map
        (fun agent => (u.name, agent))
    else none
  | _ => none

/-- A restart that is scheduled is one of an agent of the config, and due after its base delay
times two to the number of restarts. -/
def ExactBackoff (c : Config) (d : Daemon) (x : World × Input) : Prop :=
  ∀ name agent, d.scheduling x.2 = some (name, agent) →
    ∃ a ∈ c.agents, a.name = name ∧ agent.BackoffFits ∧
      ∃ agent', (d.step x).managed.get name = some agent' ∧ agent'.status = .restartPending ∧
        agent'.restartAt = some (x.1.instant + a.restartBackoffMs * 2 ^ agent.restartCount)

/-- There is no entry with the name, or one that has not been restarted. -/
def Daemon.Anew (d : Daemon) (name : String) : Prop :=
  ∀ agent, d.managed.get name = some agent → agent.restartCount = 0

/-- The delays of an agent do not decrease until it is started anew. -/
def NeverShorter (d : Daemon) (is : List (World × Input)) : Prop :=
  ∀ before x between y after, is = before ++ x :: between ++ y :: after →
    ∀ name agent agent', (run Daemon.step d before).scheduling x.2 = some (name, agent) →
      (run Daemon.step d (before ++ x :: between)).scheduling y.2 = some (name, agent') →
      agent.backoffMs ≤ agent'.backoffMs ∨
        ∃ p, p <+: between ∧ (run Daemon.step d (before ++ x :: p)).Anew name

/-- What the process reads is the config `c`, if it reads one. -/
def Config.Only (c : Config) (x : World × Input) : Prop :=
  (∀ c', x.1.startConfig = some c' → c' = c) ∧ ∀ c', x.1.loadConfig = some c' → c' = c

/-- In every run on the config every delay is the intended one, and none is shorter than the
one before. -/
def RestartsExact (c : Config) : Prop :=
  ∀ persistent sandboxOverride capsule is, (∀ x ∈ is, c.Only x) →
    Meets Daemon.step (ExactBackoff c) (off persistent sandboxOverride capsule) is ∧
      NeverShorter (off persistent sandboxOverride capsule) is

/-- The last of the agent's delays fits 64 bits. -/
def AgentConfig.BackoffFits (agent : AgentConfig) : Prop :=
  agent.maxRestarts = 0 ∨
    agent.maxRestarts ≤ 64 ∧ agent.restartBackoffMs * 2 ^ (agent.maxRestarts - 1) < 2 ^ 64

instance (agent : AgentConfig) : Decidable agent.BackoffFits :=
  inferInstanceAs (Decidable (_ ∨ _))

section
variable {agent : InternalAgent} {a : AgentConfig}

theorem backoffMs_eq (h : agent.BackoffFits) :
    agent.backoffMs = agent.restartBackoffMs * 2 ^ agent.restartCount := by
  unfold InternalAgent.backoffMs
  rw [Nat.mod_eq_of_lt h.1, Nat.mod_eq_of_lt h.2]

/-- Below the limit every delay fits if the last one does. -/
theorem backoffFits_of_config (h : a.BackoffFits) (hmax : agent.maxRestarts = a.maxRestarts)
    (hbase : agent.restartBackoffMs = a.restartBackoffMs)
    (hcount : agent.restartCount < agent.maxRestarts) : agent.BackoffFits := by
  rw [hmax] at hcount
  rcases h with h | h
  · rw [h] at hcount
    exact absurd hcount (Nat.not_lt_zero _)
  · refine ⟨Nat.pow_lt_pow_right (by omega) (by omega), ?_⟩
    rw [hbase]
    refine Nat.lt_of_le_of_lt (Nat.mul_le_mul_left _ ?_) h.2
    exact Nat.pow_le_pow_right (by omega) (by omega)

theorem scheduling_eq_some {d : Daemon} {i : Input} {name : String}
    (h : d.scheduling i = some (name, agent)) : d.alive = true ∧
      d.managed.get name = some agent ∧ agent.restartCount < agent.maxRestarts ∧
      ∃ u, i = .update u ∧ u.name = name ∧ (u.status = .stopped ∨ u.status = .error) := by
  unfold scheduling at h
  split at h
  · rename_i u
    split at h
    · rename_i hcond
      rw [Bool.and_eq_true, Bool.or_eq_true, beq_iff_eq, beq_iff_eq] at hcond
      obtain ⟨agent', hfilter, heq⟩ := Option.map_eq_some_iff.mp h
      obtain ⟨hget, hlt⟩ := Option.filter_eq_some_iff.mp hfilter
      cases heq
      exact ⟨hcond.1, hget, by simpa using hlt, u, rfl, rfl, hcond.2⟩
    · cases h
  · cases h

/-- A scheduled restart is due after the delay that was computed; only the entry changes, and
it keeps its count and its limits. -/
theorem step_scheduling {d : Daemon} {x : World × Input} {name : String}
    (h : d.scheduling x.2 = some (name, agent)) :
    ∃ agent', d.step x = insertManaged { d with sent := [], calls := [] } name agent' ∧
      agent'.status = .restartPending ∧
      agent'.restartAt = some (x.1.instant + agent.backoffMs) ∧
      agent'.restartCount = agent.restartCount ∧ agent'.maxRestarts = agent.maxRestarts ∧
      agent'.restartBackoffMs = agent.restartBackoffMs := by
  obtain ⟨halive, hget, hcount, u, hi, hname, hstatus⟩ := scheduling_eq_some h
  obtain ⟨w, i⟩ := x
  dsimp only at hi
  subst hi
  subst hname
  rw [step_of_alive rfl halive]
  show ∃ agent', agentUpdate w { d with sent := [], calls := [] } u = _ ∧ _
  unfold agentUpdate
  rw [show ({ d with sent := [], calls := [] } : Daemon).managed.get u.name = some agent from hget]
  refine ⟨_, rfl, ?_⟩
  unfold InternalAgent.scheduleRestart
  rw [if_pos ⟨hstatus, hcount⟩]
  exact ⟨rfl, rfl, rfl, rfl, rfl⟩

theorem insertManaged_get (d : Daemon) (name : String) (agent : InternalAgent) :
    (d.insertManaged name agent).managed.get name = some agent := by
  rw [insertManaged_managed, HashMap.get_insert, if_pos rfl]

end

/-! ## Entries carry the limits of their agents -/

/-- The limits of an entry are those of the agent it is named after, or it is never restarted. -/
def Config.Limits (c : Config) (name : String) (agent : InternalAgent) : Prop :=
  agent.maxRestarts = 0 ∨ ∃ a ∈ c.agents, a.name = name ∧
    agent.maxRestarts = a.maxRestarts ∧ agent.restartBackoffMs = a.restartBackoffMs

/-- The config is in force, and every entry has its limits from it. -/
structure Daemon.Held (c : Config) (d : Daemon) : Prop where
  config : d.currentConfig = c
  limits : ∀ name agent, d.managed.get name = some agent → c.Limits name agent

section
variable {c : Config} {d d' : Daemon} {w : World} {name : String}

theorem Daemon.Held.mono (h : d.Held c) (hc : d'.currentConfig = d.currentConfig)
    (hm : ∀ name agent, d'.managed.get name = some agent → d.managed.get name = some agent) :
    d'.Held c :=
  ⟨hc.trans h.config, fun name agent hget => h.limits name agent (hm name agent hget)⟩

theorem Daemon.Held.insert (h : d.Held c) {agent : InternalAgent} (ha : c.Limits name agent) :
    (d.insertManaged name agent).Held c := by
  refine ⟨h.config, ?_⟩
  intro k agent' hget
  rw [insertManaged_managed, HashMap.get_insert] at hget
  split at hget
  · rename_i hk
    cases hget
    rw [hk]
    exact ha
  · exact h.limits k agent' hget

theorem Daemon.Held.remove (h : d.Held c) (k : String) : (d.removeManaged k).Held c :=
  h.mono rfl (fun _ _ hget => (HashMap.get_of_get_remove hget).2)

theorem Daemon.Held.send (h : d.Held c) (effect : Effect) : (d.send effect).Held c :=
  h.mono rfl (fun _ _ hget => hget)

theorem find_name {agents : List AgentConfig} {a : AgentConfig}
    (h : agents.find? (fun a => a.name == name) = some a) : a ∈ agents ∧ a.name = name := by
  refine ⟨List.mem_of_find?_eq_some h, ?_⟩
  have hname := List.find?_some h
  rwa [beq_iff_eq] at hname

theorem held_startConfigured (h : d.Held c) (name done : String) :
    (d.startConfigured name done).Held c := by
  unfold startConfigured
  split
  · rename_i a hfind
    rw [h.config] at hfind
    obtain ⟨ha, _⟩ := find_name hfind
    have hspawned : c.Limits a.name (managedAgent a) := Or.inr ⟨a, ha, rfl, rfl, rfl⟩
    exact ((h.send (.spawn a.name)).insert hspawned).send _
  · exact h.send _

theorem held_restartDue (h : d.Held c) (name : String) : (d.restartDue name).Held c := by
  unfold restartDue
  split
  · exact h
  · rename_i a hfind
    rw [h.config] at hfind
    obtain ⟨ha, hname⟩ := find_name hfind
    exact ((h.remove name).send (.spawn a.name)).insert (Or.inr ⟨a, ha, hname, rfl, rfl⟩)

theorem limits_spawned {agents : List AgentConfig} (hsub : ∀ a ∈ agents, a ∈ c.agents)
    {agent : InternalAgent} (h : (firstNamed agents name).map managedAgent = some agent) :
    c.Limits name agent := by
  obtain ⟨a, hfind, rfl⟩ := Option.map_eq_some_iff.mp h
  obtain ⟨ha, hname⟩ := find_name hfind
  exact Or.inr ⟨a, hsub a ha, hname, rfl, rfl⟩

theorem held_reloadConfig (hload : ∀ c', w.loadConfig = some c' → c' = c) (h : d.Held c) :
    (d.reloadConfig w).Held c := by
  unfold reloadConfig
  split
  · exact h
  · rename_i c' hc'
    split
    · exact h
    · have hc := hload c' hc'
      subst hc
      refine ⟨rfl, ?_⟩
      intro name agent hget
      change (d.applyConfigChanges w c').managed.get name = some agent at hget
      rw [applyConfigChanges_get, Option.or_eq_some_iff] at hget
      rcases hget with hget | hget
      · split at hget
        · exact h.limits name agent hget
        · cases hget
      · exact limits_spawned (fun a ha => (List.mem_filter.mp ha).1) hget.2

theorem elementary_held (hload : ∀ c', w.loadConfig = some c' → c' = c) :
    Elementary w (fun d d' => d.Held c → d'.Held c) where
  refl := fun _ h => h
  trans := fun h h' hd => h' (h hd)
  act := fun _ _ _ h => h.mono rfl (fun _ _ hget => hget)
  send := fun _ effect h => h.send effect
  removeWorker := fun _ _ h => h.remove _
  spawnJobWorker := by
    intro d job h
    have hworker : ∀ (d₁ : Daemon) chat, d₁.Held c →
        (d₁.insertManaged (workerName job.jobId) (jobWorker chat)).Held c :=
      fun _ _ h₁ => h₁.insert (Or.inl rfl)
    unfold spawnJobWorker
    dsimp only
    split
    · exact hworker _ _ (h.send _)
    · split
      · exact h.send _
      · refine hworker _ _ ?_
        split <;> exact (h.send _).send _
  startAgent := by
    intro d name h
    unfold startAgent
    split
    · split
      · exact h.send _
      · exact held_startConfigured (h.remove name) name _
    · exact held_startConfigured h name _
  restartAgent := by
    intro d name h
    refine held_startConfigured (Held.remove ?_ name) name _
    exact h.mono (sameConfig_stopWorker d name).currentConfig
      (fun _ _ hget => by rwa [stopWorker_managed] at hget)
  cleaned := fun _ _ h => h.mono rfl (fun _ _ hget => hget)
  restartAgents := by
    intro d h
    unfold restartAgents
    generalize (d.managed.keysIn (w.order .managed)).filter _ = names
    induction names generalizing d with
    | nil => exact h
    | cons name names ih => exact ih _ (held_restartDue h name)
  reloadConfig := fun _ h => held_reloadConfig hload h

theorem held_agentUpdate (h : d.Held c) (u : AgentStateUpdate) : (d.agentUpdate w u).Held c := by
  unfold agentUpdate
  split
  · exact h
  · rename_i agent hget
    refine h.insert ?_
    have hlimits := h.limits u.name agent hget
    unfold InternalAgent.scheduleRestart
    split <;> exact hlimits

theorem held_boot (hstart : ∀ c', w.startConfig = some c' → c' = c) (d : Daemon)
    (halive : (d.boot w).alive = true) : (d.boot w).Held c := by
  unfold boot at halive ⊢
  cases hc : w.startConfig with
  | none =>
    rw [hc] at halive
    cases halive
  | some c' =>
    have heq := hstart c' hc
    subst heq
    dsimp only
    have hspawn : ∀ (agents : List AgentConfig) (d : Daemon), (∀ a ∈ agents, a ∈ c'.agents) →
        d.Held c' → (agents.foldl spawnManagedAgent d).Held c' := by
      intro agents
      induction agents with
      | nil => exact fun _ _ h => h
      | cons a agents ih =>
        intro d hsub h
        refine ih _ (fun b hb => hsub b (List.mem_cons_of_mem _ hb)) ?_
        exact (h.send _).insert (Or.inr ⟨a, hsub a List.mem_cons_self, rfl, rfl, rfl⟩)
    refine hspawn _ _ (fun a ha => (List.mem_filter.mp ha).1) ⟨rfl, ?_⟩
    intro name agent hget
    rw [act_managed] at hget
    cases hget

/-- While the process runs, the config is in force and every entry has its limits from it. -/
theorem held_step {x : World × Input} (hx : c.Only x) (h : d.alive = true → d.Held c)
    (halive : (d.step x).alive = true) : (d.step x).Held c := by
  obtain ⟨w, i⟩ := x
  by_cases hstart : i = .start
  · subst hstart
    rw [step_start] at halive ⊢
    exact held_boot hx.1 _ halive
  · have hd : d.alive = true := by
      by_contra hdead
      rw [dead_step (Bool.eq_false_iff.mpr hdead) w hstart] at halive
      cases halive
    have hel := elementary_held (c := c) (w := w) hx.2
    obtain ⟨d', alive, hkeep, hstep⟩ := hel.skeleton.step
      (fun _ _ h => h.mono rfl (fun _ _ hget => hget)) hstart
      (fun u _ _ h => held_agentUpdate h u) (fun _ => hel.reloadConfig) d
    rw [hstep]
    exact (hkeep ((h hd).mono rfl (fun _ _ hget => hget))).mono rfl (fun _ _ hget => hget)

end

/-! ## Counts only go back to zero -/

/-- What `restartDue` puts in the place of an entry. -/
def Daemon.redone (d : Daemon) (name : String) : Option InternalAgent :=
  match d.currentConfig.agents.find? (fun a => a.name == name) with
  | none => d.managed.get name
  | some a => some { managedAgent a with
      restartCount := ((d.managed.get name).map (·.restartCount)).getD 0 + 1 }

section
variable {d d' : Daemon} {w : World} {name : String}

theorem restartDue_get (d : Daemon) (name k : String) : (d.restartDue name).managed.get k =
    if k = name then d.redone name else d.managed.get k := by
  unfold restartDue redone
  cases d.currentConfig.agents.find? (fun a => a.name == name) with
  | none =>
    dsimp only
    split
    · rename_i hk
      rw [hk]
    · rfl
  | some a =>
    dsimp only
    simp only [insertManaged_managed, send_managed, removeManaged_managed, HashMap.get_insert,
      HashMap.get_remove]
    split <;> rfl

/-- Every name is redone once, from its entry before. -/
theorem restartAll_get (names : List String) (hd : names.Nodup) (d : Daemon) (k : String) :
    (names.foldl restartDue d).managed.get k =
      if k ∈ names then d.redone k else d.managed.get k := by
  induction names generalizing d with
  | nil => simp
  | cons name names ih =>
    rw [List.nodup_cons] at hd
    have hredone : k ≠ name → (d.restartDue name).redone k = d.redone k := by
      intro hk
      unfold redone
      rw [(sameConfig_restartDue d name).currentConfig, restartDue_get, if_neg hk]
    rw [List.foldl_cons, ih hd.2, restartDue_get]
    by_cases hk : k = name
    · subst hk
      rw [if_neg hd.1, if_pos rfl, if_pos List.mem_cons_self]
    · rw [if_neg hk, hredone hk]
      simp [hk]

/-- Its entries are those of the other daemon, new ones, or ones restarted that waited for it. -/
def Daemon.Renewed (d d' : Daemon) : Prop :=
  ∀ name agent', d'.managed.get name = some agent' → d.managed.get name = some agent' ∨
    (agent'.status ≠ .restartPending ∧ (agent'.restartCount = 0 ∨
      ∃ agent, d.managed.get name = some agent ∧ agent.status = .restartPending ∧
        agent.restartCount ≤ agent'.restartCount))

theorem renewed_same (h : d'.managed = d.managed) : d.Renewed d' :=
  fun _ _ hget => Or.inl (h ▸ hget)

theorem renewed_remove (d : Daemon) (name : String) : d.Renewed (d.removeManaged name) :=
  fun _ _ hget => Or.inl (HashMap.get_of_get_remove hget).2

theorem Daemon.Renewed.trans {d₁ d₂ d₃ : Daemon} (h : d₁.Renewed d₂) (h' : d₂.Renewed d₃) :
    d₁.Renewed d₃ := by
  intro name agent₃ hget
  rcases h' name agent₃ hget with hkept | ⟨hstatus, hzero | ⟨agent₂, hget₂, hpending, hle⟩⟩
  · exact h name agent₃ hkept
  · exact Or.inr ⟨hstatus, Or.inl hzero⟩
  · -- an entry that waits for its restart is an old one
    rcases h name agent₂ hget₂ with hkept | hnot
    · exact Or.inr ⟨hstatus, Or.inr ⟨agent₂, hkept, hpending, hle⟩⟩
    · exact absurd hpending hnot.1

theorem renewed_insert (d : Daemon) (name : String) {agent : InternalAgent}
    (hzero : agent.restartCount = 0) (hstatus : agent.status ≠ .restartPending) :
    d.Renewed (d.insertManaged name agent) := by
  intro k agent' hget
  rw [insertManaged_managed, HashMap.get_insert] at hget
  split at hget
  · cases hget
    exact Or.inr ⟨hstatus, Or.inl hzero⟩
  · exact Or.inl hget

theorem renewed_spawn (d : Daemon) (a : AgentConfig) : d.Renewed (d.spawnManagedAgent a) :=
  renewed_insert (d.send (.spawn a.name)) a.name rfl (by simp [managedAgent])

theorem renewed_startConfigured (d : Daemon) (name done : String) :
    d.Renewed (d.startConfigured name done) := by
  unfold startConfigured
  split
  · exact renewed_spawn d _
  · exact renewed_same rfl

theorem renewed_spawnJobWorker (w : World) (d : Daemon) (job : Job) :
    d.Renewed (d.spawnJobWorker w job) := by
  have hworker : ∀ (d₁ : Daemon) chat, d₁.managed = d.managed →
      d.Renewed (d₁.insertManaged (workerName job.jobId) (jobWorker chat)) :=
    fun d₁ _ h => (renewed_same h).trans (renewed_insert d₁ _ rfl (by simp [jobWorker]))
  unfold spawnJobWorker
  dsimp only
  split
  · exact hworker _ _ rfl
  · split
    · exact renewed_same rfl
    · refine hworker _ _ ?_
      split <;> rfl

theorem renewed_reloadConfig (w : World) (d : Daemon) : d.Renewed (d.reloadConfig w) := by
  unfold reloadConfig
  split
  · exact renewed_same rfl
  · rename_i config _
    split
    · exact renewed_same rfl
    · intro name agent hget
      change (d.applyConfigChanges w config).managed.get name = some agent at hget
      rw [applyConfigChanges_get, Option.or_eq_some_iff] at hget
      rcases hget with hget | hget
      · split at hget
        · exact Or.inl hget
        · cases hget
      · obtain ⟨a, _, rfl⟩ := Option.map_eq_some_iff.mp hget.2
        exact Or.inr ⟨by simp [managedAgent], Or.inl rfl⟩

theorem renewed_restartAgents (w : World) (d : Daemon) : d.Renewed (d.restartAgents w) := by
  intro name agent hget
  unfold restartAgents at hget
  rw [restartAll_get _ ((HashMap.keysIn_nodup ..).filter _)] at hget
  split at hget
  · rename_i hmem
    rw [List.mem_filter] at hmem
    unfold redone at hget
    cases hentry : d.managed.get name with
    | none =>
      rw [hentry] at hmem
      exact absurd hmem.2 (by simp)
    | some agent' =>
      rw [hentry] at hmem hget
      simp only [Bool.and_eq_true, beq_iff_eq] at hmem
      split at hget
      · exact Or.inl hget
      · cases hget
        exact Or.inr ⟨by simp [managedAgent], Or.inr ⟨agent', rfl, hmem.2.1, Nat.le_succ _⟩⟩
  · exact Or.inl hget

theorem elementary_renewed (w : World) : Elementary w Renewed where
  refl := fun _ => renewed_same rfl
  trans := .trans
  act := fun _ _ _ => renewed_same rfl
  send := fun _ _ => renewed_same rfl
  removeWorker := fun d jobId => renewed_remove d (workerName jobId)
  spawnJobWorker := renewed_spawnJobWorker w
  startAgent := by
    intro d name
    unfold startAgent
    split
    · split
      · exact renewed_same rfl
      · exact (renewed_remove d name).trans (renewed_startConfigured _ name _)
    · exact renewed_startConfigured d name _
  restartAgent := fun d name =>
    ((renewed_same (stopWorker_managed d name)).trans (renewed_remove _ name)).trans
      (renewed_startConfigured _ name _)
  cleaned := fun _ _ => renewed_same rfl
  restartAgents := renewed_restartAgents w
  reloadConfig := renewed_reloadConfig w

/-- The entries of the one daemon are new, or those of the other with no fewer restarts. -/
def Daemon.Counted (d d' : Daemon) : Prop :=
  ∀ name agent', d'.managed.get name = some agent' → agent'.restartCount = 0 ∨
    ∃ agent, d.managed.get name = some agent ∧ agent.restartCount ≤ agent'.restartCount

theorem Daemon.Renewed.counted (h : d.Renewed d') : d.Counted d' := by
  intro name agent hget
  rcases h name agent hget with hkept | ⟨_, hzero | ⟨agent', hget', _, hle⟩⟩
  · exact Or.inr ⟨agent, hkept, Nat.le_refl _⟩
  · exact Or.inl hzero
  · exact Or.inr ⟨agent', hget', hle⟩

theorem counted_agentUpdate (w : World) (d : Daemon) (u : AgentStateUpdate) :
    d.Counted (d.agentUpdate w u) := by
  intro name agent hget
  unfold agentUpdate at hget
  split at hget
  · exact Or.inr ⟨agent, hget, Nat.le_refl _⟩
  · rename_i old hold
    rw [insertManaged_managed, HashMap.get_insert] at hget
    split at hget
    · rename_i hname
      cases hget
      refine Or.inr ⟨old, hname ▸ hold, ?_⟩
      unfold InternalAgent.scheduleRestart
      split <;> exact Nat.le_refl _
    · exact Or.inr ⟨agent, hget, Nat.le_refl _⟩

theorem counted_boot (w : World) (d d₀ : Daemon) (h : d.managed = d₀.managed) :
    d₀.Counted (d.boot w) := by
  unfold boot
  split
  · exact (renewed_same h).counted
  · rename_i config _
    have hspawn : ∀ (agents : List AgentConfig) (d : Daemon),
        d.Renewed (agents.foldl spawnManagedAgent d) := by
      intro agents
      induction agents with
      | nil => exact fun _ => renewed_same rfl
      | cons a agents ih => exact fun d => (renewed_spawn d a).trans (ih _)
    intro name agent hget
    rcases hspawn _ _ name agent hget with hkept | ⟨_, hzero | ⟨_, hget', _, _⟩⟩
    · cases hkept
    · exact Or.inl hzero
    · cases hget'

/-- No step takes a count back, except to zero. -/
theorem step_counted (d : Daemon) (x : World × Input) : d.Counted (d.step x) := by
  obtain ⟨w, i⟩ := x
  by_cases hstart : i = .start
  · subst hstart
    rw [step_start]
    exact counted_boot w _ d rfl
  · by_cases hu : ∃ u, i = .update u
    · obtain ⟨u, rfl⟩ := hu
      cases hd : d.alive with
      | false =>
        rw [step_of_dead rfl hd]
        exact (renewed_same rfl).counted
      | true =>
        rw [step_of_alive rfl hd]
        exact counted_agentUpdate w { d with sent := [], calls := [] } u
    · have hel := elementary_renewed w
      obtain ⟨d', alive, hrenewed, hstep⟩ := hel.skeleton.step (fun _ _ => renewed_same rfl) hstart
        (fun u hi => absurd ⟨u, hi⟩ hu) (fun _ => hel.reloadConfig) d
      rw [hstep]
      exact ((renewed_same rfl).trans hrenewed).counted

end

/-! ## Runs on one config -/

section
variable {c : Config} {d : Daemon} {name : String}

/-- A count that a run does not take back stays at least what it was. -/
theorem count_run (n : Nat) (is : List (World × Input)) : ∀ d : Daemon,
    (∃ agent, d.managed.get name = some agent ∧ n ≤ agent.restartCount) →
    (∃ agent, (run Daemon.step d is).managed.get name = some agent ∧ n ≤ agent.restartCount) ∨
      ∃ p, p <+: is ∧ (run Daemon.step d p).Anew name := by
  induction is with
  | nil => exact fun _ h => Or.inl h
  | cons x is ih =>
    intro d h
    obtain ⟨agent, hget, hle⟩ := h
    by_cases hnew : (d.step x).Anew name
    · exact Or.inr ⟨[x], List.prefix_append [x] is, hnew⟩
    · unfold Anew at hnew
      push Not at hnew
      obtain ⟨agent', hget', hne⟩ := hnew
      rcases step_counted d x name agent' hget' with hzero | ⟨agent₀, hget₀, hle₀⟩
      · exact absurd hzero hne
      · rw [hget, Option.some.injEq] at hget₀
        subst hget₀
        rcases ih (d.step x) ⟨agent', hget', Nat.le_trans hle hle₀⟩ with hrun | ⟨p, hp, hanew⟩
        · exact Or.inl hrun
        · exact Or.inr ⟨x :: p, (List.prefix_cons_inj x).mpr hp, hanew⟩

/-- In every run on the config, the entries of a process that runs have their limits from it. -/
theorem held_run (is : List (World × Input)) : ∀ d : Daemon, (d.alive = true → d.Held c) →
    (∀ x ∈ is, c.Only x) → (run Daemon.step d is).alive = true →
    (run Daemon.step d is).Held c := by
  induction is with
  | nil => exact fun _ h _ => h
  | cons x is ih =>
    intro d h hx
    exact ih (d.step x) (held_step (hx x List.mem_cons_self) h)
      (fun y hy => hx y (List.mem_cons_of_mem x hy))

/-- The agent that an entry with restarts left was spawned from. -/
theorem held_agent (h : d.Held c) {agent : InternalAgent}
    (hget : d.managed.get name = some agent) (hcount : agent.restartCount < agent.maxRestarts) :
    ∃ a ∈ c.agents, a.name = name ∧ agent.maxRestarts = a.maxRestarts ∧
      agent.restartBackoffMs = a.restartBackoffMs := by
  rcases h.limits name agent hget with hzero | ha
  · rw [hzero] at hcount
    exact absurd hcount (Nat.not_lt_zero _)
  · exact ha

theorem scheduling_fits (hfits : ∀ a ∈ c.agents, a.BackoffFits) (h : d.alive = true → d.Held c)
    {i : Input} {agent : InternalAgent} (hs : d.scheduling i = some (name, agent)) :
    agent.BackoffFits := by
  obtain ⟨halive, hget, hcount, _⟩ := scheduling_eq_some hs
  obtain ⟨a, ha, _, hmax, hbase⟩ := held_agent (h halive) hget hcount
  exact backoffFits_of_config (hfits a ha) hmax hbase hcount

/-- Where all delays fit, each is the intended one. -/
theorem exactBackoff_of_fits (hfits : ∀ a ∈ c.agents, a.BackoffFits)
    (hheld : d.alive = true → d.Held c) {is : List (World × Input)} (hx : ∀ x ∈ is, c.Only x) :
    Meets Daemon.step (ExactBackoff c) d is := by
  induction is generalizing d with
  | nil => exact True.intro
  | cons x is ih =>
    refine ⟨?_, ih (held_step (hx x List.mem_cons_self) hheld)
      (fun y hy => hx y (List.mem_cons_of_mem x hy))⟩
    intro name agent hs
    have hfit := scheduling_fits hfits hheld hs
    obtain ⟨halive, hget, hcount, _⟩ := scheduling_eq_some hs
    obtain ⟨a, ha, hname, _, hbase⟩ := held_agent (hheld halive) hget hcount
    obtain ⟨agent', hstep, hstatus, hat, _⟩ := step_scheduling hs
    rw [backoffMs_eq hfit, hbase] at hat
    rw [hstep]
    exact ⟨a, ha, hname, hfit, agent', insertManaged_get _ name agent', hstatus, hat⟩

/-- From one scheduled restart of an agent to the next its count does not go back, unless it is
started anew in between. -/
theorem count_between {x : World × Input} (between : List (World × Input))
    {agent agent' : InternalAgent} (hget : d.managed.get name = some agent)
    (hget' : (run Daemon.step (d.step x) between).managed.get name = some agent') :
    agent.restartCount ≤ agent'.restartCount ∨
      ∃ p, p <+: between ∧ (run Daemon.step (d.step x) p).Anew name := by
  by_cases hanew : (d.step x).Anew name
  · exact Or.inr ⟨[], List.nil_prefix, hanew⟩
  · unfold Anew at hanew
    push Not at hanew
    obtain ⟨agent₁, hget₁, hne⟩ := hanew
    rcases step_counted d x name agent₁ hget₁ with hzero | ⟨agent₀, hget₀, hle₀⟩
    · exact absurd hzero hne
    · rw [hget, Option.some.injEq] at hget₀
      subst hget₀
      rcases count_run _ between _ ⟨agent₁, hget₁, hle₀⟩ with ⟨agent₂, hget₂, hle⟩ | hnew
      · rw [hget', Option.some.injEq] at hget₂
        subst hget₂
        exact Or.inl hle
      · exact Or.inr hnew

/-- Where all delays fit and names are unique, no delay is shorter than the one before. -/
theorem neverShorter_of_fits (hnames : c.agentNames.Nodup)
    (hfits : ∀ a ∈ c.agents, a.BackoffFits) (hoff : d.alive = true → d.Held c)
    {is : List (World × Input)} (hx : ∀ x ∈ is, c.Only x) : NeverShorter d is := by
  intro before x between y after his name agent agent' hs hs'
  have hheld : ∀ pre, pre <+: is → (run Daemon.step d pre).alive = true →
      (run Daemon.step d pre).Held c :=
    fun pre hpre => held_run pre d hoff (fun z hz => hx z (hpre.subset hz))
  have hbefore := hheld before (by rw [his]; exact ⟨x :: between ++ y :: after, by simp⟩)
  have hbetween := hheld (before ++ x :: between) (by rw [his]; exact ⟨y :: after, rfl⟩)
  rw [backoffMs_eq (scheduling_fits hfits hbefore hs),
    backoffMs_eq (scheduling_fits hfits hbetween hs')]
  obtain ⟨halive, hget, hcount, _⟩ := scheduling_eq_some hs
  obtain ⟨halive', hget', hcount', _⟩ := scheduling_eq_some hs'
  -- both entries were spawned from the one agent with the name
  obtain ⟨a, ha, hname, _, hbase⟩ := held_agent (hbefore halive) hget hcount
  obtain ⟨a', ha', hname', _, hbase'⟩ := held_agent (hbetween halive') hget' hcount'
  have hsame : a = a' := List.inj_on_of_nodup_map hnames ha ha' (hname.trans hname'.symm)
  subst hsame
  have hrun : ∀ p, run Daemon.step d (before ++ x :: p) =
      run Daemon.step ((run Daemon.step d before).step x) p :=
    fun p => run_append d before (x :: p)
  rw [hrun] at hget'
  rcases count_between between hget hget' with hle | ⟨p, hp, hanew⟩
  · rw [hbase, hbase']
    exact Or.inl (Nat.mul_le_mul_left _ (Nat.pow_le_pow_right (by omega) hle))
  · refine Or.inr ⟨p, hp, ?_⟩
    rw [hrun]
    exact hanew

/-- If the last delay of every agent fits, all delays are right and none gets shorter. -/
theorem restartsExact_of_fits (hnames : c.agentNames.Nodup)
    (hfits : ∀ a ∈ c.agents, a.BackoffFits) : RestartsExact c := by
  intro persistent sandboxOverride capsule is hx
  have hoff : (off persistent sandboxOverride capsule).alive = true →
      (off persistent sandboxOverride capsule).Held c := nofun
  exact ⟨exactBackoff_of_fits hfits hoff hx, neverShorter_of_fits hnames hfits hoff hx⟩

end

/-! ## An agent that keeps crashing -/

/-- The process starts on the config, and the agent is started by a command. -/
def crashStart (c : Config) (name : String) : List (World × Input) :=
  [({ World.bare with startConfig := some c }, .start), (World.bare, .command (.restart name))]

/-- Instants that are further apart than any delay of 64 bits. -/
@[irreducible] def eon (k : Nat) : Instant := k * 2 ^ 64

theorem eon_succ (k : Nat) : eon (k + 1) = eon k + 2 ^ 64 := by
  unfold eon
  exact Nat.succ_mul k _

/-- The agent reports an error. -/
def crash (name : String) (k : Nat) : World × Input :=
  ({ World.bare with instant := eon k },
    .update { name := name, status := .error, error := none, tokensDelta := 0, pid := none })

/-- The agent crashes and, longer after than any delay of 64 bits, there is a tick. -/
def crashRound (name : String) (k : Nat) : List (World × Input) :=
  [crash name k, ({ World.bare with instant := eon (k + 1) }, .tick)]

def crashRounds (name : String) : Nat → List (World × Input)
  | 0 => []
  | n + 1 => crashRounds name n ++ crashRound name n

/-- The config is in force, there are no runs, and the agent has been restarted `n` times. -/
structure Crashing (c : Config) (a : AgentConfig) (n : Nat) (d : Daemon) : Prop where
  alive : d.alive = true
  config : d.currentConfig = c
  idle : d.engine.activeJobs = .empty
  empty : d.engine.store.runs = .empty
  entry : ∃ agent, d.managed.get a.name = some agent ∧ agent.restartCount = n ∧
    agent.maxRestarts = a.maxRestarts ∧ agent.restartBackoffMs = a.restartBackoffMs

section
variable {c : Config} {a : AgentConfig} {d : Daemon} {n : Nat}

theorem keysIn_empty {V : Type} (e : Enumeration String) :
    (HashMap.empty : HashMap String V).keysIn e = [] := List.Perm.eq_nil (e.perm _)

/-- Without runs a tick that reads no config only restarts what is due. -/
theorem tick_idle {w : World} (hload : w.loadConfig = none)
    (hidle : d.engine.activeJobs = .empty) (hempty : d.engine.store.runs = .empty) :
    ∃ t, tick w d = restartAgents w { d with lastCleanup := t } := by
  have hreload : d.reloadConfig w = d := by
    unfold reloadConfig
    rw [hload]
  have hrefresh : d.refreshHeartbeats w = d := by
    unfold refreshHeartbeats
    rw [hidle, keysIn_empty]
    rfl
  have hstale : d.handleStaleJobs w = d := by
    unfold handleStaleJobs OrchestratorEngine.staleJobs
    rw [hidle, keysIn_empty]
    rfl
  have hruns : ∀ t, expiredRuns w { d with lastCleanup := t } = [] := by
    intro t
    show ((d.engine.store.listRuns w).filter _).map _ = []
    unfold RunStore.listRuns
    rw [hempty]
    show ((((HashMap.empty : HashMap RunId Run).keysIn (w.order .runs)).filterMap _).filter
      _).map _ = []
    rw [keysIn_empty]
    rfl
  unfold tick
  rw [hreload, hrefresh, hstale]
  unfold cleanup
  split
  · refine ⟨w.instant, ?_⟩
    rw [show d.expiredRuns w = [] from hruns d.lastCleanup]
    rfl
  · exact ⟨d.lastCleanup, rfl⟩

theorem restartAll_core (names : List String) (d : Daemon) :
    (names.foldl restartDue d).core = d.core := by
  induction names generalizing d with
  | nil => rfl
  | cons name names ih =>
    rw [List.foldl_cons, ih]
    unfold restartDue
    split <;> rfl

/-- A tick restarts the agent if its time has come. -/
theorem crashing_tick {w : World} (hload : w.loadConfig = none)
    (hfind : c.agents.find? (fun b => b.name == a.name) = some a) (halive : d.alive = true)
    (hconfig : d.currentConfig = c) (hidle : d.engine.activeJobs = .empty)
    (hempty : d.engine.store.runs = .empty) {agent : InternalAgent}
    (hget : d.managed.get a.name = some agent) (hstatus : agent.status = .restartPending)
    {t : Instant} (hat : agent.restartAt = some t) (ht : t ≤ w.instant) :
    Crashing c a (agent.restartCount + 1) (d.step (w, .tick)) := by
  rw [step_of_alive rfl halive]
  obtain ⟨t', htick⟩ := tick_idle (d := { d with sent := [], calls := [] }) hload hidle hempty
  show Crashing c a _ (tick w { d with sent := [], calls := [] })
  rw [htick]
  generalize hd : ({ d with sent := [], calls := [], lastCleanup := t' } : Daemon) = d₁
  have hconfig₁ : d₁.currentConfig = c := by rw [← hd]; exact hconfig
  have hget₁ : d₁.managed.get a.name = some agent := by rw [← hd]; exact hget
  have hcore₁ : d₁.core = d.core := by rw [← hd]
  have halive₁ : d₁.alive = true := by rw [← hd]; exact halive
  have hsame : SameConfig d₁ (restartAgents w d₁) := (constituent_sameConfig w).restartAgents d₁
  have hcore : (restartAgents w d₁).core = d.core := (restartAll_core _ d₁).trans hcore₁
  refine ⟨hsame.alive.trans halive₁, hsame.currentConfig.trans hconfig₁, ?_, ?_, ?_⟩
  · unfold engine
    rw [hcore]
    exact hidle
  · unfold engine
    rw [hcore]
    exact hempty
  · refine ⟨{ managedAgent a with restartCount := agent.restartCount + 1 }, ?_, rfl, rfl, rfl⟩
    unfold restartAgents
    rw [restartAll_get _ ((HashMap.keysIn_nodup ..).filter _), if_pos]
    · unfold redone
      rw [hconfig₁, hfind, hget₁]
      rfl
    · -- the agent is due
      rw [List.mem_filter, HashMap.mem_keysIn]
      refine ⟨⟨agent, hget₁⟩, ?_⟩
      rw [hget₁]
      simp [hstatus, hat, ht]

theorem scheduling_crash (h : Crashing c a n d) (hn : n < a.maxRestarts) (k : Nat) :
    ∃ agent, d.scheduling (crash a.name k).2 = some (a.name, agent) ∧ agent.restartCount = n ∧
      agent.restartBackoffMs = a.restartBackoffMs := by
  obtain ⟨agent, hget, hcount, hmax, hbase⟩ := h.entry
  refine ⟨agent, ?_, hcount, hbase⟩
  show d.scheduling (.update ⟨a.name, .error, none, 0, none⟩) = _
  unfold scheduling
  simp [h.alive, hget, hcount, hmax, hn]

/-- One round counts one more restart. -/
theorem crashing_round (hfind : c.agents.find? (fun b => b.name == a.name) = some a)
    (h : Crashing c a n d) (hn : n < a.maxRestarts) :
    Crashing c a (n + 1) (run Daemon.step d (crashRound a.name n)) := by
  obtain ⟨agent, hs, hcount, _⟩ := scheduling_crash h hn n
  obtain ⟨agent', hstep, hstatus, hat, hcount', _⟩ := step_scheduling hs
  have hlate : eon n + agent.backoffMs ≤ eon (n + 1) := by
    have hlt : agent.backoffMs < 2 ^ 64 := Nat.mod_lt _ (by decide)
    rw [eon_succ]
    exact Nat.add_le_add_left (Nat.le_of_lt hlt) _
  have hget' : (d.step (crash a.name n)).managed.get a.name = some agent' := by
    rw [hstep]
    exact insertManaged_get _ a.name agent'
  have hkept : (d.step (crash a.name n)).core = d.core := by rw [hstep]; rfl
  have htick := crashing_tick (d := d.step (crash a.name n))
    (w := { World.bare with instant := eon (n + 1) }) rfl hfind
    (by rw [hstep]; exact h.alive) (by rw [hstep]; exact h.config)
    (by unfold engine; rw [hkept]; exact h.idle) (by unfold engine; rw [hkept]; exact h.empty)
    hget' hstatus hat hlate
  rw [hcount', hcount] at htick
  exact htick

theorem crashing_rounds (hfind : c.agents.find? (fun b => b.name == a.name) = some a)
    (h : Crashing c a 0 d) : ∀ n, n ≤ a.maxRestarts →
      Crashing c a n (run Daemon.step d (crashRounds a.name n)) := by
  intro n
  induction n with
  | zero => exact fun _ => h
  | succ n ih =>
    intro hn
    unfold crashRounds
    rw [run_append]
    exact crashing_round hfind (ih (Nat.le_of_succ_le hn)) hn

/-- A restart by command makes the entry anew. -/
theorem crashing_restart (hfind : c.agents.find? (fun b => b.name == a.name) = some a)
    (halive : d.alive = true) (hconfig : d.currentConfig = c)
    (hidle : d.engine.activeJobs = .empty) (hempty : d.engine.store.runs = .empty) (w : World) :
    Crashing c a 0 (d.step (w, .command (.restart a.name))) := by
  rw [step_of_alive rfl halive]
  show Crashing c a 0 (restartAgent { d with sent := [], calls := [] } a.name)
  unfold restartAgent
  have hstop := sameConfig_stopWorker { d with sent := [], calls := [] } a.name
  have hcore : (stopWorker { d with sent := [], calls := [] } a.name).core = d.core := by
    unfold stopWorker
    split <;> rfl
  generalize stopWorker { d with sent := [], calls := [] } a.name = d₁ at hstop hcore
  have hconfig₁ : d₁.currentConfig = c := hstop.currentConfig.trans hconfig
  unfold startConfigured
  rw [show (d₁.removeManaged a.name).currentConfig = c from hconfig₁, hfind]
  refine ⟨hstop.alive.trans halive, hconfig₁, ?_, ?_, managedAgent a, ?_, rfl, rfl, rfl⟩
  · show d₁.core.engine.activeJobs = .empty
    rw [hcore]
    exact hidle
  · show d₁.core.engine.store.runs = .empty
    rw [hcore]
    exact hempty
  · exact insertManaged_get _ a.name (managedAgent a)

/-- After the start the agent has not been restarted. -/
theorem crashing_start (hfind : c.agents.find? (fun b => b.name == a.name) = some a) :
    Crashing c a 0 (run Daemon.step (off false none false) (crashStart c a.name)) := by
  have hspawn : ∀ (agents : List AgentConfig) (d : Daemon),
      (agents.foldl spawnManagedAgent d).core = d.core := by
    intro agents
    induction agents with
    | nil => exact fun _ => rfl
    | cons b agents ih => exact fun d => ih _
  have hsame := sameConfig_boot (w := { World.bare with startConfig := some c }) rfl
    { off false none false with sent := [], calls := [] }
  have hcore : (boot { World.bare with startConfig := some c } (off false none false)).core =
      ((off false none false).act { World.bare with startConfig := some c } .hydrate).core :=
    hspawn _ _
  refine crashing_restart (d := (off false none false).step
    ({ World.bare with startConfig := some c }, .start)) hfind hsame.alive hsame.currentConfig
    ?_ ?_ World.bare
  · show (boot { World.bare with startConfig := some c } (off false none false)).core.engine.activeJobs =
      .empty
    rw [hcore]
    rfl
  · show (boot { World.bare with startConfig := some c } (off false none false)).core.engine.store.runs =
      .empty
    rw [hcore]
    rfl

/-- The agent crashes as often as it is restarted, and once more. -/
def crashLoop (c : Config) (a : AgentConfig) : List (World × Input) :=
  crashStart c a.name ++ crashRounds a.name (a.maxRestarts - 1) ++
    [crash a.name (a.maxRestarts - 1)]

theorem only_of_silent {x : World × Input} (hstart : x.1.startConfig = none)
    (hload : x.1.loadConfig = none) : c.Only x := by
  refine ⟨?_, ?_⟩
  · intro c' hc'
    rw [hstart] at hc'
    cases hc'
  · intro c' hc'
    rw [hload] at hc'
    cases hc'

theorem only_crashRounds (c : Config) (name : String) (n : Nat) :
    ∀ x ∈ crashRounds name n, c.Only x := by
  induction n with
  | zero => exact fun x hx => absurd hx List.not_mem_nil
  | succ n ih =>
    intro x hx
    unfold crashRounds crashRound at hx
    rw [List.mem_append, List.mem_cons, List.mem_singleton] at hx
    rcases hx with hx | hx | hx
    · exact ih x hx
    · exact only_of_silent (by rw [hx]; rfl) (by rw [hx]; rfl)
    · exact only_of_silent (by rw [hx]; exact rfl) (by rw [hx]; exact rfl)

theorem only_crashLoop (c : Config) (a : AgentConfig) : ∀ x ∈ crashLoop c a, c.Only x := by
  intro x hx
  rcases List.mem_append.mp hx with hx | hx
  · rcases List.mem_append.mp hx with hx | hx
    · rcases List.mem_cons.mp hx with hx | hx
      · refine ⟨?_, ?_⟩
        · intro c' hc'
          rw [hx] at hc'
          cases hc'
          rfl
        · intro c' hc'
          rw [hx] at hc'
          cases hc'
      · rw [List.mem_singleton] at hx
        exact only_of_silent (by rw [hx]; rfl) (by rw [hx]; rfl)
    · exact only_crashRounds c a.name _ x hx
  · rw [List.mem_singleton] at hx
    exact only_of_silent (by rw [hx]; rfl) (by rw [hx]; rfl)

/-- An agent whose last delay does not fit reaches it by crashing. -/
theorem crashLoop_overflows (hfind : c.agents.find? (fun b => b.name == a.name) = some a)
    (h : ¬ a.BackoffFits) :
    ¬ Meets Daemon.step (ExactBackoff c) (off false none false) (crashLoop c a) := by
  intro hmeets
  have hpos : a.maxRestarts ≠ 0 := fun hzero => h (Or.inl hzero)
  unfold crashLoop at hmeets
  rw [Meets.append] at hmeets
  have hlast := hmeets.2
  rw [run_append] at hlast
  have hcrashing := crashing_rounds hfind (crashing_start hfind) (a.maxRestarts - 1)
    (Nat.sub_le _ _)
  obtain ⟨agent, hs, hcount, hbase⟩ := scheduling_crash hcrashing (by omega) (a.maxRestarts - 1)
  obtain ⟨_, _, _, ⟨hpow, hprod⟩, _⟩ := hlast.1 a.name agent hs
  rw [hcount] at hpow hprod
  rw [hbase] at hprod
  refine h (Or.inr ⟨?_, hprod⟩)
  have hlt := (Nat.pow_lt_pow_iff_right (by decide)).mp hpow
  omega

end

/-- A config that validates gives every restart its intended delay, in every run on it, exactly
when for each agent the last delay before its restarts are used up fits 64 bits. -/
theorem restartsExact_iff {c : Config} (hvalid : validateConfig c = []) :
    RestartsExact c ↔ ∀ a ∈ c.agents, a.maxRestarts = 0 ∨
      a.maxRestarts ≤ 64 ∧ a.restartBackoffMs * 2 ^ (a.maxRestarts - 1) < 2 ^ 64 := by
  have hnames := (validateConfig_eq_nil.mp hvalid).names
  refine ⟨?_, restartsExact_of_fits hnames⟩
  intro h a ha
  by_contra hno
  have hfind : c.agents.find? (fun b => b.name == a.name) = some a := by
    cases hfound : c.agents.find? (fun b => b.name == a.name) with
    | none => exact absurd (List.find?_eq_none.mp hfound a ha) (by simp)
    | some b =>
      obtain ⟨hb, hname⟩ := find_name hfound
      rw [List.inj_on_of_nodup_map hnames hb ha hname]
  exact crashLoop_overflows hfind hno (h false none false _ (only_crashLoop c a)).1

/-- An agent with three restarts, the first after a second. -/
theorem restartsExact_planner : validateConfig plannerConfig = [] ∧ RestartsExact plannerConfig :=
  ⟨by decide, (restartsExact_iff (by decide)).mpr (by decide)⟩

/-- An agent that is restarted at once, up to 65 times. -/
def eagerAgent : AgentConfig := { autoAgent "coder" with maxRestarts := 65, restartBackoffMs := 0 }

/-- Its last restart has the power overflow. -/
theorem not_restartsExact_eager :
    validateConfig { plainConfig with agents := [eagerAgent] } = [] ∧
    (∀ x ∈ crashLoop { plainConfig with agents := [eagerAgent] } eagerAgent,
      Config.Only { plainConfig with agents := [eagerAgent] } x) ∧
    ¬ Meets Daemon.step (ExactBackoff { plainConfig with agents := [eagerAgent] })
      (off false none false) (crashLoop { plainConfig with agents := [eagerAgent] } eagerAgent) :=
  ⟨by decide, only_crashLoop _ eagerAgent, crashLoop_overflows rfl (by decide)⟩

end ZeptoPM
