import ZeptoPM.Backoff
import ZeptoPM.Crew

/- What a crashing agent costs. The count of restarts goes with the entry: a restart takes it
   over and adds one, and an entry is due only while it has any left. So whatever its workers
   do, and whatever is asked of other agents, every restart uses one up until the agent is
   started or restarted by a command or added by a reload (`restarts_bounded`). -/
namespace ZeptoPM
open Daemon

/-! ## Entries of other names -/

section
variable {d : Daemon} {name n : String}

theorem startConfigured_get_ne (h : name ≠ n) (done : String) :
    (d.startConfigured n done).managed.get name = d.managed.get name := by
  unfold startConfigured
  split
  · rename_i agent hagent
    have hname : agent.name = n := by simpa using List.find?_some hagent
    rw [send_managed, spawnManagedAgent_get, if_neg (fun hk => h (hk.trans hname))]
  · rfl

theorem removeManaged_get_ne (h : name ≠ n) :
    (d.removeManaged n).managed.get name = d.managed.get name := by
  rw [removeManaged_managed, HashMap.get_remove, if_neg h]

theorem startAgent_get_ne (h : name ≠ n) :
    (d.startAgent n).managed.get name = d.managed.get name := by
  unfold startAgent
  split
  · split
    · rfl
    · rw [startConfigured_get_ne h, removeManaged_get_ne h]
  · exact startConfigured_get_ne h _

theorem restartAgent_get_ne (h : name ≠ n) :
    (d.restartAgent n).managed.get name = d.managed.get name := by
  unfold restartAgent
  rw [startConfigured_get_ne h, removeManaged_get_ne h, stopWorker_managed]

theorem spawnJobWorker_get_ne (h : ¬ JobWorker name) (w : World) (job : Job) :
    (d.spawnJobWorker w job).managed.get name = d.managed.get name := by
  rw [spawnJobWorker_managed]
  split
  · rfl
  · exact (HashMap.get_insert ..).trans (if_neg (fun hk => h ⟨job.jobId, hk⟩))

end

/-! ## The restarts that are left -/

/-- The config gives the agent at most `m` restarts. -/
def Config.Grants (m : Nat) (name : String) (c : Config) : Prop :=
  ∀ a ∈ c.agents, a.name = name → a.maxRestarts ≤ m

namespace Fleet

/-- A config that a reload finds gives the agent at most `m` restarts. -/
def Granting (m : Nat) (name : String) : FleetInput → Prop
  | .reload s => ∀ config, s.world.loadConfig = some config → config.Grants m name
  | _ => True

/-- No command starts or restarts the agent, and no reload adds it. -/
def Unprompted (name : String) (f : Fleet) : FleetInput → Prop
  | .start _ n | .restart _ n => n ≠ name
  | .reload s => ∀ config, f.Reloads s config → ¬ f.daemon.Added config name
  | _ => True

/-- What is left of `m` restarts to an agent, which is nothing if it is not managed. -/
def restartsLeft (m : Nat) (f : Fleet) (name : String) : Nat :=
  ((f.daemon.managed.get name).map (fun agent => m - agent.restartCount)).getD 0

/-- An entry has at most `m` restarts, and any left if it has been given a time for one. -/
structure Budget (m : Nat) (agent : InternalAgent) : Prop where
  most : agent.maxRestarts ≤ m
  left : agent.restartAt.isSome = true → agent.restartCount < agent.maxRestarts

structure Budgeted (m : Nat) (name : String) (f : Fleet) : Prop where
  entry : ∀ agent, f.daemon.managed.get name = some agent → Budget m agent
  config : f.daemon.currentConfig.Grants m name

/-- A step keeps to the budget and takes from it what it spawns. -/
structure Spends (m : Nat) (name : String) (f f' : Fleet) : Prop where
  budgeted : f'.Budgeted m name
  spent : f'.spawns name + f'.restartsLeft m name ≤ f.spawns name + f.restartsLeft m name

section
variable {m : Nat} {name : String} {s : Site} {f f' : Fleet}

/-- The agent is not spawned, and its entry stays or goes. -/
theorem Spends.of_kept (h : f.Budgeted m name) (hspawns : f'.spawns name = f.spawns name)
    (hentry : f'.daemon.managed.get name = f.daemon.managed.get name ∨
      f'.daemon.managed.get name = none)
    (hconfig : f'.daemon.currentConfig.Grants m name) : Spends m name f f' := by
  refine ⟨⟨fun agent hget => ?_, hconfig⟩, ?_⟩
  · rcases hentry with hsame | hnone
    · exact h.entry agent (hsame ▸ hget)
    · rw [hnone] at hget
      cases hget
  · unfold restartsLeft
    rcases hentry with hsame | hnone
    · rw [hspawns, hsame]
    · rw [hspawns, hnone]
      exact Nat.le_add_right _ _

theorem Spends.trans {f'' : Fleet} (h : Spends m name f f') (h' : Spends m name f' f'') :
    Spends m name f f'' := ⟨h'.budgeted, Nat.le_trans h'.spent h.spent⟩

theorem Spends.refl (h : f.Budgeted m name) : Spends m name f f :=
  .of_kept h rfl (Or.inl rfl) h.config

theorem budget_managedAgent {c : Config} (h : c.Grants m name) {agents : List AgentConfig}
    (hsub : ∀ a ∈ agents, a ∈ c.agents) {a : AgentConfig} (ha : firstNamed agents name = some a) :
    Budget m (managedAgent a) := by
  refine ⟨?_, ?_⟩
  · exact h a (hsub a (List.mem_of_find?_eq_some ha)) (by simpa using List.find?_some ha)
  · intro hsome
    cases hsome

/-! ## One step -/

/-- The taking of an update may give the entry a time to be restarted. -/
theorem spends_deliver (h : f.Budgeted m name) (s : Site) : Spends m name f (f.deliver s) := by
  cases hq : f.queue with
  | nil =>
    rw [deliver_nil s hq]
    exact .refl h
  | cons report rest =>
    have hd : (f.deliver s).daemon = f.daemon.agentUpdate s.world report.update := by
      unfold deliver
      rw [hq]
    have hspawns : (f.deliver s).spawns name = f.spawns name := by
      unfold spawns
      rw [(deliver_handle s f).2]
    have hconfig : (f.deliver s).daemon.currentConfig.Grants m name := by
      rw [hd, (sameConfig_agentUpdate s.world f.daemon report.update).currentConfig]
      exact h.config
    by_cases hname : report.update.name = name
    · cases hget : f.daemon.managed.get report.update.name with
      | none =>
        refine .of_kept h hspawns (Or.inl ?_) hconfig
        rw [hd, agentUpdate_of_missing hget]
      | some agent =>
        have hold := h.entry agent (hname ▸ hget)
        -- what is put in place of the entry has its count and its limit
        obtain ⟨agent', hnew, hcount, hmax, htime⟩ : ∃ agent',
            (f.deliver s).daemon.managed.get name = some agent' ∧
            agent'.restartCount = agent.restartCount ∧ agent'.maxRestarts = agent.maxRestarts ∧
            (agent'.restartAt.isSome = true → agent.restartCount < agent.maxRestarts) := by
          rw [hd]
          unfold Daemon.agentUpdate
          rw [hget, ← hname]
          dsimp only
          refine ⟨_, insertManaged_get _ _ _, ?_⟩
          unfold InternalAgent.scheduleRestart
          split
          · rename_i hleft
            exact ⟨rfl, rfl, fun _ => hleft.2⟩
          · exact ⟨rfl, rfl, hold.left⟩
        refine ⟨⟨fun a ha => ?_, hconfig⟩, ?_⟩
        · rw [hnew] at ha
          cases ha
          exact ⟨hmax ▸ hold.most, fun ht => by rw [hcount, hmax]; exact htime ht⟩
        · have hget : f.daemon.managed.get name = some agent := hname ▸ hget
          unfold restartsLeft
          rw [hspawns, hnew, hget, Option.map_some, Option.map_some, hcount]
    · refine .of_kept h hspawns (Or.inl ?_) hconfig
      rw [hd]
      cases hget : f.daemon.managed.get report.update.name with
      | none => rw [agentUpdate_of_missing hget]
      | some agent =>
        obtain ⟨agent', _, hnew⟩ := agentUpdate_get (w := s.world) hget
        rw [hnew, if_neg (fun hk => hname hk.symm)]

theorem spends_reloadConfig (h : f.Budgeted m name)
    (hgrants : ∀ config, s.world.loadConfig = some config → config.Grants m name)
    (hadded : ∀ config, f.Reloads s config → ¬ f.daemon.Added config name) :
    Spends m name f (f.reloadConfig s) := by
  have hspawns : (f.reloadConfig s).spawns name = f.spawns name :=
    spawns_of_moves (moves_reloadConfig s f) (fun ⟨config, hr, ha⟩ => hadded config hr ha)
  refine .of_kept h hspawns ?_ ?_
  · rw [daemon_reloadConfig]
    unfold Daemon.reloadConfig
    split
    · exact Or.inl rfl
    · rename_i config hload
      split
      · exact Or.inl rfl
      · rename_i hhash
        show (f.daemon.applyConfigChanges s.world config).managed.get name = _ ∨
          (f.daemon.applyConfigChanges s.world config).managed.get name = _
        by_cases hauto : name ∈ config.autoStarted
        · have hthere : f.daemon.managed.contains name = true := by
            rw [← Bool.not_eq_false]
            exact fun hno => hadded config ⟨hload, hhash⟩ ⟨hno, hauto⟩
          obtain ⟨agent, hagent⟩ := Option.isSome_iff_exists.mp hthere
          rw [applyConfigChanges_get, if_pos hauto, hagent]
          exact Or.inl rfl
        · exact Or.inr (applyConfigChanges_get_none hauto)
  · rw [daemon_reloadConfig]
    unfold Daemon.reloadConfig
    split
    · exact h.config
    · rename_i config hload
      split
      · exact h.config
      · exact hgrants config hload

/-- A restart uses one up. -/
theorem spends_restartDue (h : f.Budgeted m name)
    (hleft : ∃ agent, f.daemon.managed.get name = some agent ∧ agent.restartCount < m) :
    Spends m name f (f.restartDue s name) := by
  obtain ⟨agent, hget, hlt⟩ := hleft
  unfold restartDue
  split
  · exact .refl h
  · rename_i a ha
    have hnew : (f.enlist s name (f.daemon.restartDue name)).daemon.managed.get name =
        some { managedAgent a with restartCount := agent.restartCount + 1 } := by
      show (f.daemon.restartDue name).managed.get name = _
      rw [restartDue_get, if_pos rfl]
      unfold redone
      unfold firstNamed at ha
      rw [ha, hget]
      rfl
    have hbudget := budget_managedAgent h.config (fun _ h => h) ha
    refine ⟨⟨fun agent' hget' => ?_, ?_⟩, ?_⟩
    · rw [hnew] at hget'
      cases hget'
      exact ⟨hbudget.most, fun ht => by cases ht⟩
    · show (f.daemon.restartDue name).currentConfig.Grants m name
      rw [(sameConfig_restartDue f.daemon name).currentConfig]
      exact h.config
    · have hspawns : (f.enlist s name (f.daemon.restartDue name)).spawns name =
          f.spawns name + 1 := by
        unfold spawns
        show (f.launched ++ [Launch.agent name]).count (.agent name) = _
        rw [List.count_append, List.count_singleton_self]
      unfold restartsLeft
      rw [hspawns, hnew, hget]
      show f.spawns name + 1 + (m - (agent.restartCount + 1)) ≤
        f.spawns name + (m - agent.restartCount)
      omega

theorem spends_restartDue_ne (h : f.Budgeted m name) {n : String} (hn : n ≠ name) :
    Spends m name f (f.restartDue s n) ∧
      (f.restartDue s n).daemon.managed.get name = f.daemon.managed.get name := by
  have hget : (f.restartDue s n).daemon.managed.get name = f.daemon.managed.get name := by
    rw [daemon_restartDue, restartDue_get, if_neg (Ne.symm hn)]
  refine ⟨.of_kept h (spawns_of_moves (moves_restartDue s f n) (Ne.symm hn)) (Or.inl hget) ?_, hget⟩
  rw [daemon_restartDue, (sameConfig_restartDue f.daemon n).currentConfig]
  exact h.config

/-- Each of the entries is restarted once. -/
theorem spends_restartAll (names : List String) (hnd : names.Nodup) (f : Fleet)
    (h : f.Budgeted m name)
    (hleft : name ∈ names →
      ∃ agent, f.daemon.managed.get name = some agent ∧ agent.restartCount < m) :
    Spends m name f (names.foldl (restartDue s) f) := by
  induction names generalizing f with
  | nil => exact .refl h
  | cons n names ih =>
    rw [List.nodup_cons] at hnd
    by_cases hn : n = name
    · subst hn
      have hfirst := spends_restartDue (s := s) h (hleft List.mem_cons_self)
      exact hfirst.trans (ih hnd.2 _ hfirst.budgeted (fun hmem => absurd hmem hnd.1))
    · obtain ⟨hfirst, hget⟩ := spends_restartDue_ne (s := s) h hn
      refine hfirst.trans (ih hnd.2 _ hfirst.budgeted (fun hmem => ?_))
      rw [hget]
      exact hleft (List.mem_cons_of_mem n hmem)

theorem spends_restartAgents (h : f.Budgeted m name) : Spends m name f (f.restartAgents s) := by
  refine spends_restartAll _ ((HashMap.keysIn_nodup ..).filter _) f h (fun hmem => ?_)
  have hdue := (List.mem_filter.mp hmem).2
  unfold due at hdue
  cases hget : f.daemon.managed.get name with
  | none =>
    rw [hget] at hdue
    cases hdue
  | some agent =>
    rw [hget, Bool.and_eq_true] at hdue
    have hbudget := h.entry agent hget
    have htime : agent.restartAt.isSome = true := by
      cases hat : agent.restartAt with
      | none =>
        rw [hat] at hdue
        exact absurd hdue.2 Bool.false_ne_true
      | some t => rfl
    exact ⟨agent, rfl, Nat.lt_of_lt_of_le (hbudget.left htime) hbudget.most⟩

theorem spends_step (hname : ¬ JobWorker name) (h : f.Budgeted m name) {i : FleetInput}
    (hgrants : Granting m name i) (hi : f.Unprompted name i) : Spends m name f (f.step i) := by
  cases i with
  | begins handle start =>
    show Spends m name f (f.begins handle start)
    unfold begins
    split
    · exact .of_kept h rfl (Or.inl rfl) h.config
    · exact .refl h
  | bridge handle input =>
    show Spends m name f (f.bridgeStep handle input)
    unfold bridgeStep
    split
    · exact .refl h
    · exact .of_kept h rfl (Or.inl rfl) h.config
  | postStop n => exact .of_kept h rfl (Or.inl rfl) h.config
  | deliver s => exact spends_deliver h s
  | start s n =>
    refine .of_kept h (spawns_of_moves (moves_startAgent s f n) (Ne.symm hi)) (Or.inl ?_) ?_
    · exact (congrArg (·.managed.get name) (daemon_startAgent s f n)).trans
        (startAgent_get_ne (Ne.symm hi))
    · show (f.startAgent s n).daemon.currentConfig.Grants m name
      rw [daemon_startAgent, ((constituent_sameConfig s.world).startAgent f.daemon n).currentConfig]
      exact h.config
  | restart s n =>
    refine .of_kept h (spawns_of_moves (moves_restartAgent s f n) (Ne.symm hi)) (Or.inl ?_) ?_
    · exact (congrArg (·.managed.get name) (daemon_restartAgent s f n)).trans
        (restartAgent_get_ne (Ne.symm hi))
    · show (f.restartAgent s n).daemon.currentConfig.Grants m name
      rw [daemon_restartAgent,
        ((constituent_sameConfig s.world).restartAgent f.daemon n).currentConfig]
      exact h.config
  | reload s => exact spends_reloadConfig h hgrants hi
  | restartAgents s => exact spends_restartAgents h
  | spawnJob s job =>
    refine .of_kept h (spawns_of_moves (moves_spawnJobWorker s f job) (fun h => h)) (Or.inl ?_) ?_
    · exact (congrArg (·.managed.get name) (daemon_spawnJobWorker s f job)).trans
        (spawnJobWorker_get_ne hname s.world job)
    · show (f.spawnJobWorker s job).daemon.currentConfig.Grants m name
      rw [daemon_spawnJobWorker,
        ((constituent_sameConfig s.world).spawnJobWorker f.daemon job).currentConfig]
      exact h.config
  | dropJob jobId =>
    refine .of_kept h rfl (Or.inl ?_) h.config
    exact removeManaged_get_ne (fun hk => hname ⟨jobId, hk⟩)
  | elsewhere d => exact .of_kept h rfl (Or.inl rfl) h.config

/-! ## Runs -/

theorem budget_startConfigured {d : Daemon}
    (h : ∀ agent, d.managed.get name = some agent → Budget m agent)
    (hc : d.currentConfig.Grants m name) (done : String) :
    ∀ agent, (d.startConfigured name done).managed.get name = some agent → Budget m agent := by
  intro agent hget
  unfold Daemon.startConfigured at hget
  split at hget
  · rename_i a ha
    rw [send_managed, spawnManagedAgent_get] at hget
    split at hget
    · cases hget
      exact budget_managedAgent hc (fun _ h => h) ha
    · exact h agent hget
  · exact h agent hget

theorem budget_removeManaged {d : Daemon}
    (h : ∀ agent, d.managed.get name = some agent → Budget m agent) (n : String) :
    ∀ agent, (d.removeManaged n).managed.get name = some agent → Budget m agent :=
  fun agent hget => h agent (HashMap.get_of_get_remove hget).2

/-- A command or a reload may give the agent a new count, but no more restarts than a config. -/
theorem budgeted_step (hname : ¬ JobWorker name) (h : f.Budgeted m name) {i : FleetInput}
    (hgrants : Granting m name i) : (f.step i).Budgeted m name := by
  by_cases hi : f.Unprompted name i
  · exact (spends_step hname h hgrants hi).budgeted
  cases i with
  | start s n =>
    have hn : n = name := not_not.mp hi
    subst hn
    refine ⟨?_, ?_⟩
    · show ∀ agent, (f.startAgent s n).daemon.managed.get n = some agent → Budget m agent
      rw [daemon_startAgent]
      unfold Daemon.startAgent
      split
      · split
        · exact h.entry
        · exact budget_startConfigured (budget_removeManaged h.entry n) h.config _
      · exact budget_startConfigured h.entry h.config _
    · show (f.startAgent s n).daemon.currentConfig.Grants m n
      rw [daemon_startAgent, ((constituent_sameConfig s.world).startAgent f.daemon n).currentConfig]
      exact h.config
  | restart s n =>
    have hn : n = name := not_not.mp hi
    subst hn
    have hstop : ((f.daemon.stopWorker n).removeManaged n).currentConfig.Grants m n := by
      rw [((sameConfig_stopWorker f.daemon n).trans (sameConfig_removeManaged _ n)).currentConfig]
      exact h.config
    refine ⟨?_, ?_⟩
    · show ∀ agent, (f.restartAgent s n).daemon.managed.get n = some agent → Budget m agent
      rw [daemon_restartAgent]
      unfold Daemon.restartAgent
      refine budget_startConfigured (budget_removeManaged ?_ n) hstop _
      rw [stopWorker_managed]
      exact h.entry
    · show (f.restartAgent s n).daemon.currentConfig.Grants m n
      rw [daemon_restartAgent,
        ((constituent_sameConfig s.world).restartAgent f.daemon n).currentConfig]
      exact h.config
  | reload s =>
    show (f.reloadConfig s).Budgeted m name
    refine ⟨?_, ?_⟩
    · rw [daemon_reloadConfig]
      unfold Daemon.reloadConfig
      split
      · exact h.entry
      · rename_i config hload
        split
        · exact h.entry
        · intro agent hget
          change (f.daemon.applyConfigChanges s.world config).managed.get name = some agent at hget
          rw [applyConfigChanges_get, Option.or_eq_some_iff] at hget
          rcases hget with hget | ⟨_, hget⟩
          · split at hget
            · exact h.entry agent hget
            · cases hget
          · obtain ⟨a, ha, rfl⟩ := Option.map_eq_some_iff.mp hget
            exact budget_managedAgent (hgrants config hload)
              (fun _ hmem => (List.mem_filter.mp hmem).1) ha
    · rw [daemon_reloadConfig]
      unfold Daemon.reloadConfig
      split
      · exact h.config
      · rename_i config hload
        split
        · exact h.config
        · exact hgrants config hload
  | _ => exact absurd True.intro hi

theorem budgeted_spawnAll (agents : List AgentConfig) (h : f.Budgeted m name)
    (hsub : ∀ a ∈ agents, a ∈ f.daemon.currentConfig.agents) :
    (agents.foldl (spawnManagedAgent s) f).Budgeted m name := by
  induction agents generalizing f with
  | nil => exact h
  | cons a agents ih =>
    refine ih ⟨fun agent hget => ?_, h.config⟩ (fun b hb => hsub b (List.mem_cons_of_mem a hb))
    have hget : (f.daemon.spawnManagedAgent a).managed.get name = some agent := hget
    rw [spawnManagedAgent_get] at hget
    split at hget
    · rename_i hname
      cases hget
      refine ⟨h.config a (hsub a List.mem_cons_self) hname.symm, fun ht => ?_⟩
      cases ht
    · exact h.entry agent hget

theorem budgeted_boot {config : Config} (h : config.Grants m name) (s : Site) (d : Daemon) :
    (boot s d config).Budgeted m name := by
  refine budgeted_spawnAll _ ⟨fun agent hget => ?_, h⟩
    (fun a ha => (List.mem_filter.mp ha).1)
  cases hget

end

/-- From the start of the process on: while no command starts or restarts the agent and no
reload adds it, it is spawned no more often than it has restarts left, whatever its workers
do, and each time it has one less. -/
theorem restarts_bounded (s : Site) (d : Daemon) (config : Config)
    (before is : List FleetInput) (name : String) (hname : ¬ JobWorker name) (m : Nat)
    (hconfig : config.Grants m name) (hloads : ∀ i ∈ before ++ is, Granting m name i)
    (his : Meets step (Unprompted name) (run step (boot s d config) before) is) :
    let f := run step (boot s d config) before
    (run step f is).spawns name + (run step f is).restartsLeft m name ≤
      f.spawns name + f.restartsLeft m name := by
  have hbefore : (run step (boot s d config) before).Budgeted m name :=
    run_invariant (P := Budgeted m name) (fun f i h hi => budgeted_step hname h hi)
      (budgeted_boot hconfig s d)
      (Meets.of_forall (fun i hi _ => hloads i (List.mem_append_left is hi)) _)
  have hgrants : Meets step (fun _ i => Granting m name i) (run step (boot s d config) before) is :=
    Meets.of_forall (fun i hi _ => hloads i (List.mem_append_right before hi)) _
  generalize run step (boot s d config) before = f at hbefore his hgrants
  refine (run_invariant (P := Spends m name f) (fun f' i h hi => ?_) (.refl hbefore)
    (Meets.and.mpr ⟨hgrants, his⟩)).spent
  exact h.trans (spends_step hname h.budgeted hi.1 hi.2)

/-- An agent that starts by itself and is restarted once. -/
def onceConfig : Config :=
  { plainConfig with agents := [{ autoAgent "coder" with maxRestarts := 1 }] }

/-- The second worker stops too, and a minute later the daemon looks for agents to restart. -/
def crashing : List FleetInput :=
  [.begins 1 (.spawned (some 2)), .deliver codingSite, .bridge 1 (.output stoppedLine),
    .deliver codingSite,
    .restartAgents { codingSite with world := { World.bare with instant := 60000 } }]

/-- Its first worker has begun. -/
def codingOnce : Fleet :=
  run step (boot codingSite (Daemon.off true none false) onceConfig) coded

/-- Of two workers that stop the first one is replaced. -/
theorem restarts_bounded_crashing :
    (run step codingOnce (stopping ++ crashing)).spawns "coder" +
        (run step codingOnce (stopping ++ crashing)).restartsLeft 1 "coder" ≤
      codingOnce.spawns "coder" + codingOnce.restartsLeft 1 "coder" ∧
    (run step codingOnce (stopping ++ crashing)).spawns "coder" = 2 := by
  refine ⟨restarts_bounded codingSite (Daemon.off true none false) onceConfig coded
    (stopping ++ crashing) "coder" (by decide) 1 ?_ ?_ ?_, by decide +kernel⟩
  · intro a ha _
    cases List.mem_singleton.mp ha
    exact Nat.le_refl 1
  · intro i hi
    simp only [coded, stopping, crashing, List.cons_append, List.nil_append, List.mem_cons,
      List.not_mem_nil, or_false] at hi
    rcases hi with rfl | rfl | rfl | rfl | rfl | rfl | rfl | rfl | rfl | rfl | rfl <;>
      exact True.intro
  · exact ⟨True.intro, True.intro, True.intro, True.intro, True.intro, True.intro, True.intro,
      True.intro, True.intro, True.intro⟩

end Fleet

end ZeptoPM
