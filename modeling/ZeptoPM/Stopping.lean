import ZeptoPM.Incarnations

/- An agent that is asked to stop over HTTP. The request is noted in the shared state
   only, and the daemon learns of it from the updates of the worker that stops, which
   are those of a worker that has failed. So the agent stays stopped exactly if it has
   no restarts left whenever such an update is taken: `stays_stopped_iff`. -/
namespace ZeptoPM
open Daemon

/-! ## What bridges send -/

namespace Bridge

section
variable (b : Bridge)

@[simp] theorem updates_nextId : b.nextId.updates = b.updates := rfl

@[simp] theorem updates_leave : b.leave.updates = b.updates := rfl

@[simp] theorem updates_write (line : Json) (written : Bool) :
    (b.write line written).updates = b.updates := by
  unfold write
  split <;> rfl

@[simp] theorem updates_hold (id : String) : (b.hold id).updates = b.updates := by
  unfold hold
  dsimp only
  split <;> rfl

@[simp] theorem agentName_nextId : b.nextId.agentName = b.agentName := rfl

@[simp] theorem agentName_write (line : Json) (written : Bool) :
    (b.write line written).agentName = b.agentName := by
  unfold write
  split <;> rfl

@[simp] theorem agentName_hold (id : String) : (b.hold id).agentName = b.agentName := by
  unfold hold
  dsimp only
  split <;> rfl

/-- A message for the worker leads to no update. -/
theorem step_of_takesId {b : Bridge} {i : BridgeInput}
    (h : b.phase = .looping ∧ takesId i = true) :
    (b.step i).updates = b.updates ∧ (b.step i).agentName = b.agentName := by
  obtain ⟨hl, hid⟩ := h
  rw [step_looping hl]
  cases i with
  | userMessage message reply written =>
    cases reply with
    | false => simp [loopStep, userMessage]
    | true => simp [loopStep, userMessage]
  | channelMessage channelId message written => simp [loopStep, channelMessage]
  | _ => cases hid

end

/-- None of the updates asks for a restart in so many words. -/
def Plain (updates : List AgentStateUpdate) : Prop := ∀ u ∈ updates, u.status ≠ .restartPending

theorem Plain.append {us vs : List AgentStateUpdate} (h : Plain us) (h' : Plain vs) :
    Plain (us ++ vs) := by
  intro u hu
  rcases List.mem_append.mp hu with hu | hu
  · exact h u hu
  · exact h' u hu

theorem piecewise_plain : Piecewise (fun b b' => Plain b.updates → Plain b'.updates) where
  refl := fun _ h => h
  trans := fun h h' hb => h' (h hb)
  update := by
    intro b status error hst h
    refine h.append ?_
    intro u hu
    rw [List.mem_singleton.mp hu]
    exact hst
  emit := fun _ _ h => h
  leave := fun _ h => h
  tell := fun _ _ h => h
  answer := fun _ _ _ _ _ h => h
  forget := fun _ _ h => h
  drop := fun _ _ h => h
  finish := fun _ _ h => h

theorem plain_step {b : Bridge} (h : Plain b.updates) (i : BridgeInput) :
    Plain (b.step i).updates := by
  by_cases htakes : b.phase = .looping ∧ takesId i = true
  · rw [(step_of_takesId htakes).1]
    exact h
  · exact piecewise_plain.step htakes h

theorem plain_workerBridge (agentName : String) (orchTx : Bool) (orchJobId : Option JobId)
    (start : BridgeStart) : Plain (workerBridge agentName orchTx orchJobId start).updates := by
  unfold workerBridge
  cases start <;> simp [Plain, update]

end Bridge
namespace Fleet

/-! ## What is on its way -/

/-- The bridges and the queue. -/
def traffic (f : Fleet) : HashMap Nat Bridge × List QueuedUpdate := (f.bridges, f.queue)

theorem traffic_foldl {α : Type} {g : Fleet → α → Fleet} (h : ∀ f a, (g f a).traffic = f.traffic)
    (l : List α) (f : Fleet) : (l.foldl g f).traffic = f.traffic :=
  (foldl_relates (R := fun f f' => f.traffic = f'.traffic) (fun _ => rfl) Eq.trans l
    (fun a _ f => (h f a).symm) f).symm

section
variable (s : Site) (f : Fleet)

theorem traffic_dropManaged (name : String) : (f.dropManaged name).traffic = f.traffic := by
  unfold Fleet.dropManaged
  split <;> rfl

theorem traffic_startConfigured (name done : String) :
    (f.startConfigured s name done).traffic = f.traffic := by
  unfold startConfigured
  split <;> rfl

theorem traffic_startAgent (name : String) : (f.startAgent s name).traffic = f.traffic := by
  unfold startAgent
  split
  · split
    · rfl
    · exact traffic_startConfigured s (f.removeManaged name) name "started"
  · exact traffic_startConfigured s f name "started"

theorem traffic_restartAgent (name : String) : (f.restartAgent s name).traffic = f.traffic :=
  (traffic_startConfigured s _ name "restarted").trans (traffic_dropManaged f name)

theorem traffic_addManaged (agent : AgentConfig) : (f.addManaged s agent).traffic = f.traffic := by
  unfold addManaged
  split <;> rfl

theorem traffic_reloadConfig : (f.reloadConfig s).traffic = f.traffic := by
  unfold reloadConfig
  split
  · rfl
  · split
    · rfl
    · exact (traffic_foldl (traffic_addManaged s) _ _).trans (traffic_foldl traffic_dropManaged _ f)

theorem traffic_restartAgents : (f.restartAgents s).traffic = f.traffic := by
  apply traffic_foldl
  intro f name
  unfold restartDue
  split <;> rfl

theorem traffic_spawnJobWorker (job : Job) : (f.spawnJobWorker s job).traffic = f.traffic := by
  unfold spawnJobWorker
  dsimp only
  split
  · rfl
  · split <;> rfl

end

/-- No update asks for a restart in so many words. -/
structure Honest (f : Fleet) : Prop where
  bridges : ∀ handle b, f.bridges.get handle = some b → Bridge.Plain b.updates
  queue : Bridge.Plain (f.queue.map (·.update))

section
variable {s : Site} {f f' : Fleet} {A : String → Prop} {name : String} {i : FleetInput}

theorem Honest.of_traffic (h : f.Honest) (ht : f'.traffic = f.traffic) : f'.Honest := by
  obtain ⟨hb, hq⟩ := Prod.mk.inj ht
  exact ⟨hb ▸ h.bridges, hq ▸ h.queue⟩

/-- A bridge goes on, and its new updates are queued. -/
theorem Honest.goes (h : f.Honest) {handle : Nat} {b : Bridge} {ofWorker : Bool}
    {us : List AgentStateUpdate} (hb : Bridge.Plain b.updates) (hus : ∀ u ∈ us, u ∈ b.updates) :
    ({ f with
        bridges := f.bridges.insert handle b
        queue := f.queue ++ us.map (⟨handle, ofWorker, ·⟩) } : Fleet).Honest := by
  refine ⟨?_, ?_⟩
  · intro k b' hk
    have hk : (f.bridges.insert handle b).get k = some b' := hk
    rw [HashMap.get_insert] at hk
    split at hk
    · cases hk
      exact hb
    · exact h.bridges k b' hk
  · show Bridge.Plain ((f.queue ++ us.map (QueuedUpdate.mk handle ofWorker)).map (·.update))
    rw [List.map_append, List.map_map]
    apply h.queue.append
    intro u hu
    obtain ⟨v, hv, rfl⟩ := List.mem_map.mp hu
    exact hb v (hus v hv)

theorem honest_step (h : f.Honest) (i : FleetInput) : (f.step i).Honest := by
  cases i with
  | begins handle start =>
    show (f.begins handle start).Honest
    unfold begins
    split
    · rename_i b hb _
      refine h.goes ?_ (fun u hu => hu)
      obtain ⟨launch, _, hlaunch⟩ := Option.bind_eq_some_iff.mp hb
      cases launch with
      | agent name =>
        cases hlaunch
        exact Bridge.plain_workerBridge _ _ _ _
      | job profile jobId =>
        cases hlaunch
        exact Bridge.plain_workerBridge _ _ _ _
      | capsule jobId => cases hlaunch
    · exact h
  | bridge handle input =>
    show (f.bridgeStep handle input).Honest
    unfold bridgeStep
    split
    · exact h
    · rename_i b hb
      exact h.goes (Bridge.plain_step (h.bridges handle b hb) input)
        (fun u hu => List.mem_of_mem_drop hu)
  | postStop name => exact h.of_traffic rfl
  | deliver s =>
    show (f.deliver s).Honest
    cases hq : f.queue with
    | nil =>
      rw [deliver_nil s hq]
      exact h
    | cons report rest =>
      unfold deliver
      rw [hq]
      have hqueue := h.queue
      rw [hq] at hqueue
      exact ⟨h.bridges, fun u hu => hqueue u (List.mem_cons_of_mem _ hu)⟩
  | start s name => exact h.of_traffic (traffic_startAgent s f name)
  | restart s name => exact h.of_traffic (traffic_restartAgent s f name)
  | reload s => exact h.of_traffic (traffic_reloadConfig s f)
  | restartAgents s => exact h.of_traffic (traffic_restartAgents s f)
  | spawnJob s job => exact h.of_traffic (traffic_spawnJobWorker s f job)
  | dropJob jobId => exact h.of_traffic rfl
  | elsewhere d => exact h.of_traffic rfl

theorem honest_boot (s : Site) (d : Daemon) (config : Config) : (boot s d config).Honest := by
  unfold boot
  refine Honest.of_traffic ?_ (traffic_foldl (g := spawnManagedAgent s) (fun f agent => rfl) _ _)
  refine ⟨?_, ?_⟩
  · intro handle b hb
    cases hb
  · intro u hu
    cases hu

/-! ## What a stop is for -/

/-- The agent waits to be restarted. -/
def Pending (f : Fleet) (name : String) : Prop :=
  ∃ agent, f.daemon.managed.get name = some agent ∧ agent.status = .restartPending

/-- The agent is not spawned any more, nor waits for that: it has been spawned `n` times. -/
def Stays (n : Nat) (name : String) (f : Fleet) : Prop := ¬ f.Pending name ∧ f.spawns name = n

/-- No command starts or restarts the agent. -/
def Unasked (name : String) : FleetInput → Prop
  | .start _ n | .restart _ n => n ≠ name
  | _ => True

/-- An update is taken by which the agent has stopped or failed while it has restarts left;
or a reload adds the agent, which is not managed any more. -/
def Provokes (name : String) (f : Fleet) : FleetInput → Prop
  | .deliver _ => ∃ report rest agent, f.queue = report :: rest ∧ report.update.name = name ∧
      (report.update.status = .stopped ∨ report.update.status = .error) ∧
      f.daemon.managed.get name = some agent ∧ agent.restartCount < agent.maxRestarts
  | .reload s => ∃ config, f.Reloads s config ∧ f.daemon.Added config name
  | _ => False

/-! ## One step -/

theorem spawns_of_moves (h : Moves A f f') (hA : ¬ A name) : f'.spawns name = f.spawns name := by
  obtain ⟨ls, hls, hmem⟩ := h.launched
  unfold spawns
  rw [hls, List.count_append, List.count_eq_zero.mpr (fun hin => hA (hmem name hin))]
  rfl

theorem spawns_lt (h : Moves A f f') (hle : f.launched.length ≤ f'.handle name)
    (hl : f'.launchOf name = some (.agent name)) : f.spawns name < f'.spawns name := by
  obtain ⟨ls, hls, _⟩ := h.launched
  unfold launchOf at hl
  rw [hls, List.getElem?_append_right hle] at hl
  have hpos : 0 < ls.count (.agent name) := List.count_pos_iff.mpr (List.mem_of_getElem? hl)
  unfold spawns
  rw [hls, List.count_append]
  omega

theorem Launch.status_ne (l : Launch) : l.status ≠ .restartPending := by
  cases l <;> simp [Launch.status]

theorem pending_of_moves (h : Moves A f f') (hp : f'.Pending name) : f.Pending name := by
  obtain ⟨agent, hget, hst⟩ := hp
  rcases h.entry name with ⟨_, hm | hm⟩ | ⟨_, l, _, hl, _⟩
  · exact ⟨agent, hm ▸ hget, hst⟩
  · rw [hm] at hget
    cases hget
  · exact absurd ((hl agent hget).symm.trans hst) (Launch.status_ne l)

theorem due_pending {w : World} (h : due w f.daemon name = true) : f.Pending name := by
  unfold due at h
  split at h
  · cases h
  · rename_i agent hget
    rw [Bool.and_eq_true, beq_iff_eq] at h
    exact ⟨agent, hget, h.1⟩

/-- A step that adds the agent spawns it. -/
theorem spawns_reload {config : Config} (hr : f.Reloads s config)
    (ha : f.daemon.Added config name) : f.spawns name < (f.reloadConfig s).spawns name := by
  have h := moves_reloadConfig s f
  have hnone : f.daemon.managed.get name = none := by simpa [HashMap.contains] using ha.1
  obtain ⟨agent, hagent⟩ := Option.isSome_iff_exists.mp (firstNamed_isSome.mpr ha.2)
  have hget : (f.reloadConfig s).daemon.managed.get name = some (managedAgent agent) := by
    have hmanaged : (f.reloadConfig s).daemon.managed =
        (f.daemon.applyConfigChanges s.world config).managed := by
      rw [daemon_reloadConfig]
      unfold Daemon.reloadConfig
      simp only [hr.1, hr.2, if_false]
    rw [hmanaged, applyConfigChanges_get, if_pos ha.2, hnone, hagent]
    rfl
  rcases h.entry name with ⟨_, hm | hm⟩ | ⟨hle, l, hl, hst, hkind⟩
  · rw [hm, hnone] at hget
    cases hget
  · rw [hm] at hget
    cases hget
  · refine spawns_lt h hle (hl.trans (congrArg some (hkind.resolve_right ?_)))
    intro hrun
    exact absurd ((hst _ hget).trans hrun) (by simp [managedAgent])

theorem stays_deliver {n : Nat} (hh : f.Honest) (h : Stays n name f) (s : Site) :
    Stays n name (f.deliver s) ↔ ¬ Provokes name f (.deliver s) := by
  have hspawns : (f.deliver s).spawns name = f.spawns name :=
    congrArg (List.count _) (deliver_handle s f).2
  have hiff : Stays n name (f.deliver s) ↔ ¬ (f.deliver s).Pending name :=
    and_iff_left (hspawns.trans h.2)
  rw [hiff, not_iff_not]
  cases hq : f.queue with
  | nil =>
    rw [deliver_nil s hq]
    refine iff_of_false h.1 ?_
    intro hp
    obtain ⟨report, rest, _, hcons, _⟩ := hp
    rw [hq] at hcons
    cases hcons
  | cons report rest =>
    rcases deliver_cases s hq with ⟨hnone, hd⟩ | ⟨old, agent', hold, hst, hnew⟩
    · refine iff_of_false ?_ ?_
      · unfold Pending
        rw [hd]
        exact h.1
      · intro hp
        obtain ⟨report', rest', agent, hcons, hname, _, hget, _⟩ := hp
        rw [hq] at hcons
        cases hcons
        rw [hname, hget] at hnone
        cases hnone
    · refine ⟨?_, ?_⟩
      · intro hp
        obtain ⟨agent, hget, hpend⟩ := hp
        rw [hnew] at hget
        split at hget
        · rename_i hname
          cases hget
          rw [hst] at hpend
          unfold InternalAgent.statusAfter at hpend
          split at hpend
          · rename_i hleft
            exact ⟨report, rest, old, hq, hname.symm, hleft.1, hname ▸ hold, hleft.2⟩
          · have hplain := hh.queue
            rw [hq] at hplain
            exact absurd hpend (hplain _ List.mem_cons_self)
        · exact absurd ⟨agent, hget, hpend⟩ h.1
      · intro hp
        obtain ⟨report', rest', agent, hcons, hname, hends, hget, hleft⟩ := hp
        rw [hq] at hcons
        cases hcons
        rw [← hname, hold] at hget
        cases hget
        refine ⟨agent', (hnew name).trans (if_pos hname.symm), ?_⟩
        rw [hst]
        exact if_pos ⟨hends, hleft⟩

/-- A step from where the agent stays stopped leads out of there exactly if it provokes a
start. -/
theorem stays_step {n : Nat} (hh : f.Honest) (hu : Unasked name i) (h : Stays n name f) :
    Stays n name (f.step i) ↔ ¬ Provokes name f i := by
  have hmoves : (∀ s, i ≠ .deliver s) → ¬ f.Spawning i name → Stays n name (f.step i) := by
    intro hi hno
    have hm := moves_step f i hi
    exact ⟨fun hp => h.1 (pending_of_moves hm hp), (spawns_of_moves hm hno).trans h.2⟩
  have hother : (∀ s, i ≠ .deliver s) → ¬ f.Spawning i name → ¬ Provokes name f i →
      (Stays n name (f.step i) ↔ ¬ Provokes name f i) :=
    fun hi hno hp => iff_of_true (hmoves hi hno) hp
  cases i with
  | deliver s => exact stays_deliver hh h s
  | reload s =>
    refine ⟨?_, ?_⟩
    · intro hstays hp
      obtain ⟨config, hr, ha⟩ := hp
      have hlt := spawns_reload hr ha
      exact absurd hlt (by rw [h.2, show (f.reloadConfig s).spawns name = n from hstays.2]; omega)
    · exact fun hp => hmoves (by simp) hp
  | start s m => exact hother (by simp) (fun hm => hu hm.symm) (fun hp => hp)
  | restart s m => exact hother (by simp) (fun hm => hu hm.symm) (fun hp => hp)
  | restartAgents s => exact hother (by simp) (fun hd => h.1 (due_pending hd)) (fun hp => hp)
  | begins handle start => exact hother (by simp) (fun hp => hp) (fun hp => hp)
  | bridge handle input => exact hother (by simp) (fun hp => hp) (fun hp => hp)
  | postStop m => exact hother (by simp) (fun hp => hp) (fun hp => hp)
  | spawnJob s job => exact hother (by simp) (fun hp => hp) (fun hp => hp)
  | dropJob jobId => exact hother (by simp) (fun hp => hp) (fun hp => hp)
  | elsewhere d => exact hother (by simp) (fun hp => hp) (fun hp => hp)

end

/-! ## Runs -/

/-- The fleet after the inputs and a request to stop the agent. -/
def stoppedAfter (s : Site) (d : Daemon) (config : Config) (is : List FleetInput)
    (name : String) : Fleet :=
  (run step (boot s d config) is).step (.postStop name)

/-- After a request to stop it, an agent that no command starts stays stopped as long as,
and only as long as, it does not already wait for a restart and nothing provokes one. -/
theorem stays_stopped_iff (s : Site) (d : Daemon) (config : Config) (before is : List FleetInput)
    (name : String)
    (h : Meets step (fun _ i => Unasked name i) (stoppedAfter s d config before name) is) :
    (∀ pre, pre <+: is →
      Stays ((stoppedAfter s d config before name).spawns name) name
        (run step (stoppedAfter s d config before name) pre)) ↔
      ¬ (stoppedAfter s d config before name).Pending name ∧
        Meets step (fun f i => ¬ Provokes name f i) (stoppedAfter s d config before name) is := by
  have hbefore : (run step (boot s d config) before).Honest :=
    run_invariant (P := Honest) (G := fun _ _ => True) (fun _ i h _ => honest_step h i)
      (honest_boot s d config) (.trivial _ before)
  have hh : (stoppedAfter s d config before name).Honest := honest_step hbefore _
  refine ⟨?_, ?_⟩
  · intro hall
    have hfirst := hall [] List.nil_prefix
    exact ⟨hfirst.1, (reached_iff (fun _ i h => honest_step h i)
      (fun _ i hh hu h => stays_step hh hu h) hh hfirst h).mp hall⟩
  · intro hcond
    exact (reached_iff (fun _ i h => honest_step h i) (fun _ i hh hu h => stays_step hh hu h) hh
      ⟨hcond.1, rfl⟩ h).mpr hcond.2

/-! ## A stop -/

/-- The agent's worker has begun. -/
def coded : List FleetInput := [.begins 0 (.spawned (some 1)), .deliver codingSite]

/-- The worker stops, as it is asked to, and the daemon takes its word for it. Ten seconds
later it checks for agents to restart. -/
def stopping : List FleetInput :=
  [.bridge 0 (.stop true), .bridge 0 (.output stoppedLine), .deliver codingSite,
    .restartAgents { codingSite with world := { World.bare with instant := 10000 } }]

theorem unasked_stopping (f : Fleet) :
    Meets step (fun _ i => Unasked "coder" i) f stopping :=
  ⟨True.intro, True.intro, True.intro, True.intro, True.intro⟩

/-- An agent that starts by itself and is never restarted. -/
def brittleConfig : Config :=
  { plainConfig with agents := [{ autoAgent "coder" with maxRestarts := 0 }] }

/-- Without any restarts left, the agent stays stopped. -/
theorem stays_stopped_brittle :
    Meets step (fun _ i => Unasked "coder" i)
      (stoppedAfter codingSite (Daemon.off true none false) brittleConfig coded "coder") stopping ∧
    ∀ pre, pre <+: stopping →
      Stays 1 "coder" (run step
        (stoppedAfter codingSite (Daemon.off true none false) brittleConfig coded "coder") pre) := by
  refine ⟨unasked_stopping _, ?_⟩
  refine (stays_stopped_iff codingSite (Daemon.off true none false) brittleConfig coded stopping
    "coder" (unasked_stopping _)).mpr ⟨?_, ?_, ?_, ?_, ?_, True.intro⟩
  · intro h
    obtain ⟨agent, hagent, hst⟩ := h
    exact absurd (congrArg (Option.map (·.status)) hagent) (by rw [Option.map_some, hst]; decide)
  · exact fun h => h
  · exact fun h => h
  · intro h
    obtain ⟨_, _, agent, _, _, _, hagent, hleft⟩ := h
    have hnone : (((run step (stoppedAfter codingSite (Daemon.off true none false) brittleConfig coded
        "coder") (stopping.take 2)).daemon.managed.get "coder").map (·.maxRestarts)) = some 0 := by
      decide
    have hzero : agent.maxRestarts = 0 := by
      have hmap := congrArg (Option.map (·.maxRestarts)) hagent
      exact Option.some.inj (hmap.symm.trans hnone)
    omega
  · exact fun h => h

/-- An agent with restarts left is spawned again after it has stopped on request. -/
theorem not_stays_stopping :
    Meets step (fun _ i => Unasked "coder" i)
      (stoppedAfter codingSite (Daemon.off true none false) codingConfig coded "coder") stopping ∧
    ¬ ∀ pre, pre <+: stopping →
      Stays ((stoppedAfter codingSite (Daemon.off true none false) codingConfig coded
          "coder").spawns "coder") "coder"
        (run step (stoppedAfter codingSite (Daemon.off true none false) codingConfig coded "coder")
          pre) := by
  refine ⟨unasked_stopping _, ?_⟩
  intro h
  exact absurd (h stopping List.prefix_rfl).2 (by decide)

end Fleet
end ZeptoPM
