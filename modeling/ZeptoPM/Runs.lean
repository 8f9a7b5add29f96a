import ZeptoPM.Handlers

/- Runs of the daemon. A guard says which actions a step may take, a property of
   engine and database that the allowed actions keep holds in every state of a
   run whose steps meet the guard. What holds only where the process is alive
   may rely on what a step does later: it is proved with `MeetsRest`. -/
namespace ZeptoPM
open OrchestratorEngine Daemon

/-- The clock has not fallen behind the start of the process. -/
def Clocked (d : Daemon) (x : World × Input) : Prop := x.1.After d.engine.ids

instance (d : Daemon) (x : World × Input) : Decidable (Clocked d x) :=
  inferInstanceAs (Decidable (x.1.After _))

/-- The clock has not fallen behind, and `G` allows every action that the daemon
takes. -/
def Guarded (G : Core → World × Action → Prop) (d : Daemon) (x : World × Input) : Prop :=
  Clocked d x ∧ Meets coreStep G d.core (d.step x).calls

instance {G : Core → World × Action → Prop} [∀ c x, Decidable (G c x)] (d : Daemon)
    (x : World × Input) : Decidable (Guarded G d x) :=
  inferInstanceAs (Decidable (_ ∧ _))

/-- Like `Guarded`, for a guard that sees which actions follow in the step. -/
def GuardedRest (G : Core → World × Action → List (World × Action) → Prop) (d : Daemon)
    (x : World × Input) : Prop :=
  Clocked d x ∧ MeetsRest coreStep G d.core (d.step x).calls

instance {G : Core → World × Action → List (World × Action) → Prop}
    [∀ c x l, Decidable (G c x l)] (d : Daemon) (x : World × Input) :
    Decidable (GuardedRest G d x) :=
  inferInstanceAs (Decidable (_ ∧ _))

theorem sound_off (persistent : Bool) (sandboxOverride : Option Bool) (capsule : Bool) :
    Sound (off persistent sandboxOverride capsule).core := by
  refine ⟨grounded_empty 4 IdSupply.new, ?_⟩
  intro db hdb
  have hnew : db = .new := by
    cases persistent <;> cases hdb
    rfl
  subst hnew
  exact ⟨fun _ _ h => (by cases h), fun _ _ h => (by cases h), fun _ _ h => (by cases h)⟩

/-- A process that is not running comes alive by hydrating, and by nothing else. -/
theorem calls_of_dead {d : Daemon} {w : World} {i : Input} (hdead : d.alive = false)
    (halive : (d.step (w, i)).alive = true) : (d.step (w, i)).calls = [(w, .hydrate)] := by
  rw [step_of_dead rfl hdead] at halive ⊢
  cases i with
  | start =>
    obtain ⟨l, hcalls, _, hl⟩ := boot_calls w { d with sent := [], calls := [] }
    rcases hl with ⟨_, hno⟩ | rfl
    · exact absurd halive (by simp [hno])
    · exact hcalls
  | _ =>
    rw [show ({ d with sent := [], calls := [] } : Daemon).alive = d.alive from rfl, hdead] at halive
    cases halive

section
variable {G H : Core → World × Action → Prop} {P : Core → Prop}

/-- One step, for a property kept by every allowed action. -/
theorem core_step (hP : ∀ c x, Sound c → Legal c x → P c → G c x → P (coreStep c x))
    (d : Daemon) (x : World × Input) (h : Sound d.core ∧ P d.core) (hg : Guarded G d x) :
    Sound (d.step x).core ∧ P (d.step x).core := by
  obtain ⟨hcore, hlegal, hsound, _⟩ := step_takes x.2 ⟨h.1, hg.1⟩
  refine ⟨hsound, ?_⟩
  rw [hcore]
  have hkeep : ∀ c y, (Sound c ∧ P c) → (Legal c y ∧ G c y) →
      Sound (coreStep c y) ∧ P (coreStep c y) :=
    fun c y hc hy => ⟨sound_act hc.1 hy.1, hP c y hc.1 hy.1 hc.2 hy.2⟩
  exact (run_invariant hkeep h (Meets.and.mpr ⟨hlegal, hg.2⟩)).2

/-- A run, for a property kept by every allowed action. -/
theorem core_run (hP : ∀ c x, Sound c → Legal c x → P c → G c x → P (coreStep c x))
    {d : Daemon} {is : List (World × Input)} (hs : Sound d.core) (hp : P d.core)
    (h : Meets Daemon.step (Guarded G) d is) :
    Sound (run Daemon.step d is).core ∧ P (run Daemon.step d is).core :=
  run_invariant (P := fun d => Sound d.core ∧ P d.core) (fun d x hd hg => core_step hP d x hd hg)
    ⟨hs, hp⟩ h

/-- What the property implies of an allowed action holds of every action taken. -/
theorem core_run_meets (hP : ∀ c x, Sound c → Legal c x → P c → G c x → P (coreStep c x))
    (hH : ∀ c x, Sound c → Legal c x → P c → G c x → H c x)
    {d : Daemon} {is : List (World × Input)} (hs : Sound d.core) (hp : P d.core)
    (h : Meets Daemon.step (Guarded G) d is) : Meets Daemon.step (Guarded H) d is := by
  refine Meets.imp (P := fun d => Sound d.core ∧ P d.core)
    (fun d x hd hg => core_step hP d x hd hg) ?_ ⟨hs, hp⟩ h
  intro d x hd hg
  obtain ⟨_, hlegal, _, _⟩ := step_takes x.2 ⟨hd.1, hg.1⟩
  refine ⟨hg.1, ?_⟩
  exact Meets.imp (P := fun c => Sound c ∧ P c)
    (fun c y hc hy => ⟨sound_act hc.1 hy.1, hP c y hc.1 hy.1 hc.2 hy.2⟩)
    (fun c y hc hy => hH c y hc.1 hy.1 hc.2 hy.2) hd (Meets.and.mpr ⟨hlegal, hg.2⟩)

/-- Without a guard, the daemon may take every action. -/
theorem guarded_of_clocked {d : Daemon} {x : World × Input} (h : Clocked d x) :
    Guarded (fun _ _ => True) d x :=
  ⟨h, Meets.trivial ..⟩

/-- A run without a guard, for a property that every action keeps. -/
theorem core_clocked (hP : ∀ c x, Sound c → Legal c x → P c → P (coreStep c x))
    {d : Daemon} {is : List (World × Input)} (hs : Sound d.core) (hp : P d.core)
    (h : Meets Daemon.step Clocked d is) :
    Sound (run Daemon.step d is).core ∧ P (run Daemon.step d is).core :=
  core_run (fun c x hs hl hp _ => hP c x hs hl hp) hs hp (h.mono fun _ _ => guarded_of_clocked)

theorem sound_run {d : Daemon} {is : List (World × Input)} (hs : Sound d.core)
    (h : Meets Daemon.step Clocked d is) : Sound (run Daemon.step d is).core :=
  (core_clocked (P := fun _ => True) (fun _ _ _ _ _ => True.intro) hs True.intro h).1

variable {K : Core → World × Action → List (World × Action) → Prop} {Q : Core → Prop}

/-- A run, for a property `P` of the states in which the process is alive, beside a
property `Q` that every action keeps. -/
theorem alive_run (hQ : ∀ c x, Sound c → Legal c x → Q c → Q (coreStep c x))
    (hboot : ∀ c w, Sound c → Q c → K c (w, .hydrate) [] → P (c.act w .hydrate))
    (hP : ∀ c l, Sound c → Q c → Meets coreStep Legal c l → Settled l → P c →
      MeetsRest coreStep K c l → P (run coreStep c l))
    {d : Daemon} {is : List (World × Input)} (hs : Sound d.core) (hq : Q d.core)
    (hp : d.alive = true → P d.core) (h : Meets Daemon.step (GuardedRest K) d is) :
    (run Daemon.step d is).alive = true → P (run Daemon.step d is).core := by
  refine (run_invariant (P := fun d => (Sound d.core ∧ Q d.core) ∧ (d.alive = true → P d.core)) ?_
    ⟨⟨hs, hq⟩, hp⟩ h).2
  intro d x hinv hg
  obtain ⟨w, i⟩ := x
  obtain ⟨⟨hs, hq⟩, hp⟩ := hinv
  obtain ⟨hcore, hlegal, _, hsettled⟩ := step_takes i ⟨hs, hg.1⟩
  refine ⟨core_step (G := fun _ _ => True) (fun c x hs hl hq _ => hQ c x hs hl hq) d (w, i)
    ⟨hs, hq⟩ (guarded_of_clocked hg.1), fun halive => ?_⟩
  rw [hcore]
  cases hd : d.alive with
  | true => exact hP d.core _ hs hq hlegal (hsettled halive) (hp hd) hg.2
  | false =>
    have hcalls := calls_of_dead hd halive
    have hguard := hg.2
    rw [hcalls] at hguard ⊢
    exact hboot d.core w hs hq hguard.1

end

/-! ## Inputs to try -/

/-- A config without agents; nothing expires. -/
def plainConfig : Config where
  daemon :=
    { isolation := "none"
      workerBinary := none
      zeptoclawBinary := none
      runTtlDays := 0
      security := none
      cgroupRequired := none
      maxRevisions := 2 }
  agents := []

/-- A world whose files all hold a plan. -/
def plannerWorld (plan : ExecutionPlan) : World :=
  { World.bare with
    now := 1
    startConfig := some plainConfig
    readToString := fun _ => some "\x7b\x7d"
    serde := { World.bare.serde with planFromStr := fun _ => .ok plan, isValue := fun _ => true } }

/-- A plan of one job. -/
def soloPlan : ExecutionPlan where
  jobs :=
    [{ localId := "a", role := "coder", profileId := "coder", instruction := "write",
       dependsOn := [] }]
  channels := []

/-- A config under which a run that is over expires after a day. -/
def dailyConfig : Config :=
  { plainConfig with daemon := { plainConfig.daemon with runTtlDays := 1 } }

/-- A world in which a day passes. -/
def dailyWorld (now : SystemTime) (instant : Instant) : World :=
  { plannerWorld soloPlan with now := now, instant := instant, startConfig := some dailyConfig }

/-- A heartbeat that names the given job. -/
def heartbeat (jobId : String) : Json := .obj [("type", .str "heartbeat"), ("job_id", .str jobId)]

def artifactEvent (jobId artifactId : String) : Input :=
  .event (.obj [("type", .str "artifact_produced"), ("job_id", .str jobId),
    ("artifact_id", .str artifactId), ("kind", .str "json"), ("path", .str "/plan.json"),
    ("summary", .str "")])

def completedEvent (jobId : String) (artifacts : List String) : Input :=
  .event (.obj [("type", .str "job_completed"), ("job_id", .str jobId),
    ("output_artifact_ids", .arr (artifacts.map .str))])

def failedEvent (jobId : String) : Input :=
  .event (.obj [("type", .str "job_failed"), ("job_id", .str jobId), ("error", .str "crashed")])

end ZeptoPM
