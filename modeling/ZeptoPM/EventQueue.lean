import ZeptoPM.SelfQueue
import ZeptoPM.InForce

/- The queue of orchestrator events. Workers put their events on it, and so does the
   main loop itself, which is its only receiver: where a job is started whose profile is
   in no agent of the config, the handler reports the failure by an event
   (`emitted_step`). It does so before it returns to the loop, so once the workers have
   filled the queue that handler never returns. `loop_never_blocked_iff` says in which
   runs this cannot happen. -/
namespace ZeptoPM
open Daemon

/-! ## The loop and its queue -/

def Effect.event? : Effect → Option Json
  | .event v => some v
  | _ => none

/-- The events that the last handler has sent, in order. -/
def Daemon.emitted (d : Daemon) : List Json := d.sent.filterMap Effect.event?

/-- The main loop: its handlers of events, which come off the queue, and of everything else. -/
def Daemon.mainLoop : Handlers Daemon Json World (World × Input) where
  running := Daemon.alive
  onItem d w event := (d.step (w, .event event), (d.step (w, .event event)).emitted)
  onInput d x :=
    match x.2 with
    -- events come off the queue only, and a process starts once
    | .event _ | .start => (d, [])
    | _ => (d.step x, (d.step x).emitted)

/-- The main loop with `mpsc::channel(256)`. -/
abbrev EventLoop := SelfQueue Daemon Json 256

/-! ## Jobs without a profile -/

/-- The job that the action starts, as it is stored then. -/
def startedJob (c : Core) : World × Action → Option Job
  | (w, .call _ .startNext) => (c.engine.startNext w).1
  | _ => none

/-- The jobs that the actions start, in order. -/
def startedJobs : Core → List (World × Action) → List Job
  | _, [] => []
  | c, x :: l => (startedJob c x).toList ++ startedJobs (coreStep c x) l

/-- Whether a worker for the job is to be a plain process and no agent has its profile. -/
def Daemon.lacksProfile (d : Daemon) (job : Job) : Bool :=
  !(d.capsule && d.sandboxRequested) && !d.currentConfig.agents.any (fun a => a.name == job.profileId)

/-- The daemon with the config that the handler of the input works with. -/
def Daemon.inForce (d : Daemon) : World × Input → Daemon
  | (w, .tick) => d.reloadConfig w
  | _ => d

/-- The handler of the input starts no job that lacks a profile. -/
def Daemon.Profiled (d : Daemon) (x : World × Input) : Prop :=
  ∀ job ∈ startedJobs d.core (d.step x).calls, (d.inForce x).lacksProfile job = false

/-- The handler that the loop begins starts no job that lacks a profile. -/
def EventLoop.Profiled (l : EventLoop) : QueueInput Json World (World × Input) → Prop
  | .take w => l.ready mainLoop = true → ∀ event rest, l.queue = event :: rest →
      l.state.Profiled (w, .event event)
  | .serve (_, .event _) | .serve (_, .start) => True
  | .serve x => l.ready mainLoop = true → l.state.Profiled x
  | _ => True

theorem startedJobs_append (l l' : List (World × Action)) : ∀ c,
    startedJobs c (l ++ l') = startedJobs c l ++ startedJobs (run coreStep c l) l' := by
  induction l with
  | nil => exact fun _ => rfl
  | cons x l ih =>
    intro c
    rw [List.cons_append, startedJobs, startedJobs, ih, List.append_assoc]
    rfl

/-- From the one daemon to the other, an event is sent for each started job without a profile. -/
structure Matched (d d' : Daemon) : Prop where
  config : d'.currentConfig = d.currentConfig
  capsule : d'.capsule = d.capsule
  sandboxOverride : d'.sandboxOverride = d.sandboxOverride
  calls : ∃ l, d'.calls = d.calls ++ l ∧ d'.core = run coreStep d.core l ∧
    d'.emitted = d.emitted ++
      ((startedJobs d.core l).filter d.lacksProfile).map missingProfile

section
variable {d d' : Daemon} {w : World}

theorem Matched.lacksProfile (h : Matched d d') : d'.lacksProfile = d.lacksProfile := by
  funext job
  unfold Daemon.lacksProfile sandboxRequested
  rw [h.config, h.capsule, h.sandboxOverride]

/-- Where nothing is done to the engine and no event is sent, there is nothing to match. -/
theorem matched_of_untouched (hconfig : SameConfig d d') (hcapsule : d'.capsule = d.capsule)
    (hsandbox : d'.sandboxOverride = d.sandboxOverride) (hu : Untouched d d')
    (hsent : d'.emitted = d.emitted) : Matched d d' := by
  refine ⟨hconfig.currentConfig, hcapsule, hsandbox, [], ?_, hu.1, ?_⟩
  · rw [hu.2, List.append_nil]
  · rw [hsent]
    simp [startedJobs]

theorem Matched.trans {d₁ d₂ d₃ : Daemon} (h : Matched d₁ d₂) (h' : Matched d₂ d₃) :
    Matched d₁ d₃ := by
  obtain ⟨l, hcalls, hcore, hemit⟩ := h.calls
  obtain ⟨l', hcalls', hcore', hemit'⟩ := h'.calls
  refine ⟨h'.config.trans h.config, h'.capsule.trans h.capsule,
    h'.sandboxOverride.trans h.sandboxOverride, l ++ l', ?_, ?_, ?_⟩
  · rw [hcalls', hcalls, List.append_assoc]
  · rw [hcore', hcore, run_append]
  · rw [hemit', hemit, h.lacksProfile, hcore, startedJobs_append, List.filter_append,
      List.map_append, List.append_assoc]

theorem emitted_send (d : Daemon) {effect : Effect} (h : effect.isEvent = false) :
    (d.send effect).emitted = d.emitted := by
  unfold Daemon.emitted Daemon.send
  rw [List.filterMap_append]
  cases effect with
  | event v => cases h
  | _ => exact List.append_nil _

theorem emitted_event (d : Daemon) (v : Json) : (d.send (.event v)).emitted = d.emitted ++ [v] := by
  unfold Daemon.emitted Daemon.send
  rw [List.filterMap_append]
  rfl

theorem matched_send (d : Daemon) {effect : Effect} (h : effect.isEvent = false) :
    Matched d (d.send effect) :=
  matched_of_untouched ⟨rfl, rfl, rfl⟩ rfl rfl ⟨rfl, rfl⟩ (emitted_send d h)

/-- An action that starts no job. -/
theorem matched_act (w : World) (d : Daemon) {a : Action} (h : a.starts = false) :
    Matched d (d.act w a) := by
  refine ⟨rfl, rfl, rfl, [(w, a)], rfl, rfl, ?_⟩
  have hnone : startedJob d.core (w, a) = none := by
    unfold startedJob
    split
    · rename_i heq
      cases heq
      cases h
    · rfl
  unfold startedJobs
  rw [hnone]
  exact (List.append_nil _).symm

theorem sameBuild_spawnJobWorker (w : World) (d : Daemon) (job : Job) :
    (d.spawnJobWorker w job).capsule = d.capsule ∧
      (d.spawnJobWorker w job).sandboxOverride = d.sandboxOverride := by
  unfold spawnJobWorker
  dsimp only
  split
  · exact ⟨rfl, rfl⟩
  · split
    · exact ⟨rfl, rfl⟩
    · split <;> exact ⟨rfl, rfl⟩

/-- A worker that can be spawned sends no event; for another job one is sent. -/
theorem emitted_spawnJobWorker (w : World) (d : Daemon) (job : Job) :
    (d.spawnJobWorker w job).emitted =
      d.emitted ++ ([job].filter d.lacksProfile).map missingProfile := by
  unfold spawnJobWorker Daemon.lacksProfile
  dsimp only
  cases hcapsule : d.capsule && d.sandboxRequested with
  | true =>
    rw [if_pos rfl]
    simp only [Bool.not_true, Bool.false_and, List.filter_cons, Bool.false_eq_true, if_false,
      List.filter_nil, List.map_nil, List.append_nil]
    exact emitted_send d rfl
  | false =>
    rw [if_neg Bool.false_ne_true]
    cases hfind : d.currentConfig.agents.find? (fun a => a.name == job.profileId) with
    | none =>
      have hany : d.currentConfig.agents.any (fun a => a.name == job.profileId) = false := by
        rw [List.any_eq_false]
        exact fun a ha => List.find?_eq_none.mp hfind a ha
      rw [List.filter_cons_of_pos (by rw [hany]; rfl)]
      exact emitted_event d _
    | some a =>
      have hany : d.currentConfig.agents.any (fun a => a.name == job.profileId) = true :=
        List.any_eq_true.mpr ⟨a, List.mem_of_find?_eq_some hfind,
          List.find?_some (p := fun a : AgentConfig => a.name == job.profileId) hfind⟩
      rw [List.filter_cons_of_neg (by rw [hany]; simp)]
      simp only [List.filter_nil, List.map_nil, List.append_nil]
      split
      · exact (emitted_send _ rfl).trans (emitted_send d rfl)
      · exact (emitted_send _ rfl).trans (emitted_send d rfl)

/-- The spawn loop sends an event for each job it starts without a profile. -/
theorem matched_spawnReady (w : World) (r : RunId) (fuel : Nat) : ∀ d,
    Matched d (spawnReady w r fuel d) := by
  induction fuel with
  | zero => exact fun d => matched_of_untouched ⟨rfl, rfl, rfl⟩ rfl rfl ⟨rfl, rfl⟩ rfl
  | succ fuel ih =>
    intro d
    unfold spawnReady
    cases hnext : (d.engine.startNext w).1 with
    | none =>
      have hnone : startedJob d.core (w, .call r .startNext) = none := hnext
      refine ⟨rfl, rfl, rfl, [(w, .call r .startNext)], rfl, rfl, ?_⟩
      unfold startedJobs
      rw [hnone]
      exact (List.append_nil _).symm
    | some job =>
      refine Matched.trans ?_ (ih _)
      have hsome : startedJob d.core (w, .call r .startNext) = some job := hnext
      obtain ⟨hcapsule, hsandbox⟩ := sameBuild_spawnJobWorker w (d.act w (.call r .startNext)) job
      have hu := untouched_spawnJobWorker w (d.act w (.call r .startNext)) job
      have hsame := (constituent_sameConfig w).spawnJobWorker (d.act w (.call r .startNext)) job
      refine ⟨hsame.currentConfig, hcapsule, hsandbox, [(w, .call r .startNext)], hu.2, hu.1, ?_⟩
      rw [emitted_spawnJobWorker]
      unfold startedJobs
      rw [hsome]
      rfl

theorem matched_startConfigured (d : Daemon) (name done : String) :
    Matched d (d.startConfigured name done) := by
  unfold startConfigured
  split
  · refine matched_of_untouched ⟨rfl, rfl, rfl⟩ rfl rfl ⟨rfl, rfl⟩ ?_
    exact (emitted_send _ rfl).trans (emitted_send d rfl)
  · exact matched_send d rfl

theorem matched_stopWorker (d : Daemon) (worker : String) : Matched d (d.stopWorker worker) := by
  unfold stopWorker
  split
  · exact matched_send d rfl
  · exact matched_of_untouched ⟨rfl, rfl, rfl⟩ rfl rfl ⟨rfl, rfl⟩ rfl

theorem matched_removeManaged (d : Daemon) (name : String) : Matched d (d.removeManaged name) :=
  matched_of_untouched ⟨rfl, rfl, rfl⟩ rfl rfl ⟨rfl, rfl⟩ rfl

theorem matched_restartDue (d : Daemon) (name : String) : Matched d (d.restartDue name) := by
  unfold restartDue
  split
  · exact matched_of_untouched ⟨rfl, rfl, rfl⟩ rfl rfl ⟨rfl, rfl⟩ rfl
  · refine matched_of_untouched ⟨rfl, rfl, rfl⟩ rfl rfl ⟨rfl, rfl⟩ ?_
    exact emitted_send (d.removeManaged name) rfl

theorem skeleton_matched (w : World) : Skeleton w Matched true true where
  refl := fun _ => matched_of_untouched ⟨rfl, rfl, rfl⟩ rfl rfl ⟨rfl, rfl⟩ rfl
  trans := .trans
  act := fun d _ hplain => matched_act w d (Action.starts_of_isPlain hplain)
  send := fun d _ hevent => matched_send d hevent
  removeWorker := fun d jobId => matched_removeManaged d (workerName jobId)
  spawnLoop := fun d r => matched_spawnReady w r _ d
  startAgent := by
    intro d name
    unfold startAgent
    split
    · split
      · exact matched_send d rfl
      · exact (matched_removeManaged d name).trans (matched_startConfigured _ name _)
    · exact matched_startConfigured d name _
  restartAgent := fun d name =>
    ((matched_stopWorker d name).trans (matched_removeManaged _ name)).trans
      (matched_startConfigured _ name _)
  cleaned := fun _ _ => matched_of_untouched ⟨rfl, rfl, rfl⟩ rfl rfl ⟨rfl, rfl⟩ rfl
  restartAgents := by
    intro d
    unfold restartAgents
    generalize (d.managed.keysIn (w.order .managed)).filter _ = names
    induction names generalizing d with
    | nil => exact matched_of_untouched ⟨rfl, rfl, rfl⟩ rfl rfl ⟨rfl, rfl⟩ rfl
    | cons name names ih => exact (matched_restartDue d name).trans (ih _)

/-- What a reload puts in force. -/
theorem reloadConfig_inForce (w : World) (d : Daemon) :
    (d.reloadConfig w).currentConfig = (match w.loadConfig with
      | none => d.currentConfig
      | some config =>
        if w.configHash config.hashed = d.lastConfigHash then d.currentConfig else config) ∧
    (d.reloadConfig w).capsule = d.capsule ∧
    (d.reloadConfig w).sandboxOverride = d.sandboxOverride := by
  have hdrop : ∀ (names : List String) (d : Daemon),
      (names.foldl dropManaged d).capsule = d.capsule ∧
        (names.foldl dropManaged d).sandboxOverride = d.sandboxOverride := by
    intro names
    induction names with
    | nil => exact fun _ => ⟨rfl, rfl⟩
    | cons name names ih =>
      intro d
      have h := matched_stopWorker d name
      exact ⟨(ih _).1.trans h.capsule, (ih _).2.trans h.sandboxOverride⟩
  have hadd : ∀ (agents : List AgentConfig) (d : Daemon),
      (agents.foldl addManaged d).capsule = d.capsule ∧
        (agents.foldl addManaged d).sandboxOverride = d.sandboxOverride := by
    intro agents
    induction agents with
    | nil => exact fun _ => ⟨rfl, rfl⟩
    | cons a agents ih =>
      intro d
      rw [List.foldl_cons, (ih _).1, (ih _).2]
      unfold addManaged
      split <;> exact ⟨rfl, rfl⟩
  unfold reloadConfig
  cases w.loadConfig with
  | none => exact ⟨rfl, rfl, rfl⟩
  | some config =>
    dsimp only
    split
    · exact ⟨rfl, rfl, rfl⟩
    · rw [applyConfigChanges_eq]
      exact ⟨rfl, (hadd _ _).1.trans (hdrop _ d).1, (hadd _ _).2.trans (hdrop _ d).2⟩

/-- A reload sends no event. -/
theorem emitted_reloadConfig (w : World) (d : Daemon) :
    (d.reloadConfig w).emitted = d.emitted := by
  unfold reloadConfig
  split
  · rfl
  · rename_i config _
    split
    · rfl
    · obtain ⟨starts, hsent, _⟩ := applyConfigChanges_sent w d config
      have hnone : ∀ (names : List String) (effect : String → Effect),
          (∀ name, (effect name).event? = none) →
          (names.map effect).filterMap Effect.event? = [] := by
        intro names effect h
        rw [List.filterMap_eq_nil_iff]
        intro e he
        obtain ⟨name, _, rfl⟩ := List.mem_map.mp he
        exact h name
      show (d.applyConfigChanges w config).sent.filterMap Effect.event? = _
      rw [hsent, List.filterMap_append, List.filterMap_append, hnone _ _ (fun _ => rfl),
        hnone _ _ (fun _ => rfl)]
      exact List.append_nil _

theorem matched_agentUpdate (w : World) (d : Daemon) (u : AgentStateUpdate) :
    Matched d (d.agentUpdate w u) := by
  unfold agentUpdate
  split <;> exact matched_of_untouched ⟨rfl, rfl, rfl⟩ rfl rfl ⟨rfl, rfl⟩ rfl

/-- A handler sends an event for each job that it starts without a profile, and no other. -/
theorem emitted_step {x : World × Input} (halive : d.alive = true) (hx : x.2 ≠ .start) :
    (d.step x).emitted = ((startedJobs d.core (d.step x).calls).filter
      (d.inForce x).lacksProfile).map missingProfile := by
  obtain ⟨w, i⟩ := x
  have hsk := skeleton_matched w
  -- what a handler does from `d₁` on, if nothing but the config has changed before
  have hfrom : ∀ d₁ d₂ : Daemon, Matched d₁ d₂ → d₁.calls = [] → d₁.core = d.core →
      d₁.emitted = [] → ∀ alive, ({ d₂ with alive := alive } : Daemon).emitted =
        ((startedJobs d.core ({ d₂ with alive := alive } : Daemon).calls).filter
          d₁.lacksProfile).map missingProfile := by
    intro d₁ d₂ h hcalls hcore hemit alive
    obtain ⟨l, hl, _, he⟩ := h.calls
    show d₂.emitted = ((startedJobs d.core d₂.calls).filter d₁.lacksProfile).map missingProfile
    rw [he, hemit, hl, hcalls, hcore]
    rfl
  have hhere : ∀ d₂ alive, Matched { d with sent := [], calls := [] } d₂ →
      ({ d₂ with alive := alive } : Daemon).emitted =
        ((startedJobs d.core ({ d₂ with alive := alive } : Daemon).calls).filter
          d.lacksProfile).map missingProfile :=
    fun d₂ alive h => hfrom _ d₂ h rfl rfl rfl alive
  rw [step_of_alive rfl halive]
  cases i with
  | update u => exact hhere _ d.alive (matched_agentUpdate w _ u)
  | command command => exact hhere _ _ (hsk.handleCommand _ command)
  | event v =>
    split
    · rename_i d' h
      exact hhere d' d'.alive (hsk.handleEvent _ v (Or.inl h))
    · rename_i d' h
      exact hhere d' false (hsk.handleEvent _ v (Or.inr h))
  | tick =>
    have hreload : (d.inForce (w, .tick)).lacksProfile =
        (reloadConfig w { d with sent := [], calls := [] }).lacksProfile := by
      obtain ⟨hc, hb, hs⟩ := reloadConfig_inForce w d
      obtain ⟨hc', hb', hs'⟩ := reloadConfig_inForce w { d with sent := [], calls := [] }
      funext job
      show (d.reloadConfig w).lacksProfile job = _
      unfold Daemon.lacksProfile sandboxRequested
      rw [hc, hb, hs, hc', hb', hs']
    have hu := untouched_reloadConfig w { d with sent := [], calls := [] }
    rw [hreload]
    exact hfrom _ (tick w { d with sent := [], calls := [] })
      (hsk.tick (fun d r => matched_act w d rfl) _) hu.2 hu.1 (emitted_reloadConfig w _) _
  | shutdown =>
    obtain ⟨d', hd', heq⟩ := hsk.shutdown { d with sent := [], calls := [] }
    show (shutdown w _).emitted = ((startedJobs d.core (shutdown w _).calls).filter _).map _
    rw [heq]
    exact hhere d' false hd'
  | start => exact absurd rfl hx

theorem emitted_nil_iff {x : World × Input} (halive : d.alive = true) (hx : x.2 ≠ .start) :
    (d.step x).emitted = [] ↔ d.Profiled x := by
  rw [emitted_step halive hx, List.map_eq_nil_iff, List.filter_eq_nil_iff]
  unfold Daemon.Profiled
  simp only [Bool.not_eq_true]

/-- A handler of the loop sends nothing exactly when it starts no job without a profile. -/
theorem silent_iff_profiled (l : EventLoop) (i : QueueInput Json World (World × Input)) :
    l.Silent mainLoop i ↔ l.Profiled i := by
  have halive : l.ready mainLoop = true → l.state.alive = true :=
    fun hready => (Bool.and_eq_true .. ▸ hready).2
  cases i with
  | take w =>
    refine forall_congr' fun hready => forall_congr' fun event => forall_congr' fun rest =>
      forall_congr' fun _ => ?_
    exact emitted_nil_iff (halive hready) (by simp)
  | serve x =>
    obtain ⟨w, i⟩ := x
    cases i with
    | event v => exact iff_of_true (fun _ => rfl) True.intro
    | start => exact iff_of_true (fun _ => rfl) True.intro
    | _ => exact forall_congr' fun hready => emitted_nil_iff (halive hready) (by simp)
  | _ => exact Iff.rfl

end

instance : Inhabited Json := ⟨.null⟩

/-- In a run of the main loop no handler ever waits on the loop's own queue, whatever workers put
on it at any time, exactly when every handler starts only jobs with a profile. -/
theorem eventLoop_never_blocked_iff (d : Daemon)
    (is : List (QueueInput Json World (World × Input))) :
    Meets (SelfQueue.step mainLoop) EventLoop.Profiled (SelfQueue.idle d : EventLoop) is ↔
      ∀ pre, pre <+: is → ∀ events : List Json,
        ¬ (run (SelfQueue.step mainLoop) (SelfQueue.idle d : EventLoop)
          (pre ++ events.map .produce)).Blocked := by
  rw [← SelfQueue.never_blocked_iff is rfl]
  refine ⟨Meets.mono ?_, Meets.mono ?_⟩
  · exact fun l i => (silent_iff_profiled l i).mpr
  · exact fun l i => (silent_iff_profiled l i).mp

/-- A daemon with an agent for coding and none for planning. -/
def coderOnly : Daemon :=
  (off false none false).step ({ World.bare with
    startConfig := some { plainConfig with agents := [autoAgent "coder"] } }, .start)

/-- A task is submitted while the queue is full of heartbeats: the loop waits on itself, and
whatever comes it does so for ever. -/
theorem blocked_coderOnly :
    let l := run (SelfQueue.step mainLoop) (SelfQueue.idle coderOnly : EventLoop)
      ((List.replicate 256 (heartbeat "job_0_0")).map .produce ++
        [.serve (World.bare, .command (.submitRun "task"))])
    l.Blocked ∧ ∀ is, run (SelfQueue.step mainLoop) l is = l := by
  intro l
  have hblocked : l.Blocked := by
    have hfill := SelfQueue.produce_fills (H := mainLoop) (List.replicate 256 (heartbeat "job_0_0"))
      (SelfQueue.idle coderOnly : EventLoop) (by rw [List.length_replicate]; exact Nat.le_add_left ..)
    have hout := SelfQueue.produce_outbox (H := mainLoop) (List.replicate 256 (heartbeat "job_0_0"))
      (SelfQueue.idle coderOnly : EventLoop)
    have hstate := SelfQueue.produce_state (H := mainLoop)
      (List.replicate 256 (heartbeat "job_0_0")) (SelfQueue.idle coderOnly : EventLoop)
    have hl : l = run (SelfQueue.step mainLoop) _ [.serve (World.bare, .command (.submitRun "task"))] :=
      run_append ..
    rw [hl]
    clear_value l
    generalize run (SelfQueue.step mainLoop) (SelfQueue.idle coderOnly : EventLoop) _ = full
      at hfill hout hstate ⊢
    refine SelfQueue.serve_blocks ?_ hfill ?_
    · unfold SelfQueue.ready
      rw [hout, hstate]
      rfl
    · rw [hstate]
      exact List.cons_ne_nil (missingProfile (plannerJob World.bare "run_0_0" "job_0_1" "task")) []
  exact ⟨hblocked, SelfQueue.blocked_run hblocked⟩

end ZeptoPM
