import ZeptoPM.EventQueue
import ZeptoPM.Stopping

/- The daemon together with the workers of its jobs. What a worker reports goes through a
   bridge of its own onto the queue of agent state updates, and from there to the entry
   whose name the update carries. The entry of a job's worker is `__job_<id>`, but the
   bridge is given the name of the job's profile: unless an agent has the name of such an
   entry, no report of a worker reaches the entry of its job, which goes on showing the
   status it was spawned with or one of an entry put in its place (`noneIdle_run`). -/
namespace ZeptoPM
open Daemon

/-! ## What is spawned for jobs -/

/-- The job that the launch is for. -/
def Launch.jobId? : Launch → Option JobId
  | .agent _ => none
  | .job _ jobId => some jobId
  | .capsule jobId => some jobId

/-- What `spawn_job_worker` spawns for the job, if an agent has its profile. -/
def Daemon.launchFor (d : Daemon) (job : Job) : Option Launch :=
  if d.capsule && d.sandboxRequested then some (.capsule job.jobId)
  else (firstNamed d.currentConfig.agents job.profileId).map (fun a => .job a.name job.jobId)

/-- What the handler of the input spawns for jobs, in order. -/
def Daemon.launches (d : Daemon) (x : World × Input) : List Launch :=
  (startedJobs d.core (d.step x).calls).filterMap (d.inForce x).launchFor

/-- The entry of a job is put in with what is spawned for it, and not without. -/
theorem spawnJobWorker_managed (w : World) (d : Daemon) (job : Job) :
    (d.spawnJobWorker w job).managed = match d.launchFor job with
      | none => d.managed
      | some launch =>
        d.managed.insert (workerName job.jobId) (jobWorker (launch != .capsule job.jobId)) := by
  unfold spawnJobWorker Daemon.launchFor firstNamed
  dsimp only
  cases d.capsule && d.sandboxRequested with
  | true =>
    rw [if_pos rfl, if_pos rfl]
    simp
  | false =>
    rw [if_neg Bool.false_ne_true, if_neg Bool.false_ne_true]
    cases d.currentConfig.agents.find? (fun a => a.name == job.profileId) with
    | none => rfl
    | some a =>
      dsimp only [Option.map_some]
      split <;> rfl

/-! ## The machine -/

/-- An update on its way to the daemon, with the number of the launch if it is about the
worker of a job. -/
structure WorkerReport where
  worker : Option Nat
  update : AgentStateUpdate

structure Crew where
  daemon : Daemon
  /-- What was spawned for jobs since the process started. -/
  launched : List Launch
  /-- The last launch for each job. -/
  worker : JobId → Option Nat
  /-- The bridges that have begun. -/
  bridges : HashMap Nat Bridge
  queue : List WorkerReport
  /-- The status that the daemon took last from each worker. -/
  said : HashMap Nat AgentStatus

inductive CrewInput where
  /-- The daemon handles an input other than an update. -/
  | daemon (w : World) (i : Input)
  /-- The bridge of a worker begins. -/
  | begins (n : Nat) (start : BridgeStart)
  | bridge (n : Nat) (input : BridgeInput)
  /-- The bridge of an agent sends an update. -/
  | agent (u : AgentStateUpdate)
  /-- The daemon takes the next update. -/
  | deliver (w : World)

namespace Crew

/-- A daemon that nobody works for. -/
def alone (d : Daemon) : Crew where
  daemon := d
  launched := []
  worker := fun _ => none
  bridges := .empty
  queue := []
  said := .empty

def enlist (c : Crew) (launch : Launch) : Crew :=
  { c with
    launched := c.launched ++ [launch]
    worker := fun j => if launch.jobId? = some j then some c.launched.length else c.worker j }

def handled (c : Crew) (x : World × Input) : Crew :=
  (c.daemon.launches x).foldl enlist { c with daemon := c.daemon.step x }

def begins (c : Crew) (n : Nat) (start : BridgeStart) : Crew :=
  match c.launched[n]?.bind (·.bridge start), c.bridges.get n with
  | some b, none =>
    { c with
      bridges := c.bridges.insert n b
      queue := c.queue ++ b.updates.map (⟨some n, ·⟩) }
  | _, _ => c

def bridgeStep (c : Crew) (n : Nat) (input : BridgeInput) : Crew :=
  match c.bridges.get n with
  | none => c
  | some b =>
    -- the status that comes with logs and job messages is a filler
    let about := if Fleet.aboutWorker input then some n else none
    { c with
      bridges := c.bridges.insert n (b.step input)
      queue := c.queue ++ ((b.step input).updates.drop b.updates.length).map (⟨about, ·⟩) }

def deliver (c : Crew) (w : World) : Crew :=
  match c.queue with
  | [] => c
  | report :: queue =>
    { c with
      daemon := c.daemon.step (w, .update report.update)
      queue := queue
      said := match report.worker with
        | none => c.said
        | some n => c.said.insert n report.update.status }

def step (c : Crew) : CrewInput → Crew
  -- updates come off the queue only
  | .daemon _ (.update _) => c
  -- neither the queue nor a bridge outlives the process
  | .daemon w .start => alone (c.daemon.step (w, .start))
  | .daemon w i => c.handled (w, i)
  | .begins n start => c.begins n start
  | .bridge n input => c.bridgeStep n input
  | .agent u => { c with queue := c.queue ++ [⟨none, u⟩] }
  | .deliver w => c.deliver w

/-- The inputs that the daemon handles in the step. -/
def served (c : Crew) : CrewInput → List (World × Input)
  | .daemon _ (.update _) => []
  | .daemon w i => [(w, i)]
  | .deliver w => (c.queue.head?.map (fun report => (w, Input.update report.update))).toList
  | _ => []

/-- The clock has not fallen behind the start of the process. -/
def Clocked (c : Crew) (i : CrewInput) : Prop :=
  Meets Daemon.step ZeptoPM.Clocked c.daemon (c.served i)

instance (c : Crew) (i : CrewInput) : Decidable (c.Clocked i) :=
  inferInstanceAs (Decidable (Meets Daemon.step ZeptoPM.Clocked _ _))

/-! ## The daemon in the crew -/

section
variable {c : Crew}

theorem enlistAll_eq (ls : List Launch) : ∀ c : Crew, ∃ worker,
    ls.foldl enlist c = { c with launched := c.launched ++ ls, worker := worker } := by
  induction ls with
  | nil =>
    intro c
    exact ⟨c.worker, by rw [List.append_nil]; rfl⟩
  | cons l ls ih =>
    intro c
    obtain ⟨worker, h⟩ := ih (c.enlist l)
    refine ⟨worker, ?_⟩
    rw [List.foldl_cons, h]
    show ({ c with launched := c.launched ++ [l] ++ ls, worker := worker } : Crew) = _
    rw [List.append_assoc]
    rfl

theorem handled_eq (c : Crew) (x : World × Input) : ∃ worker, c.handled x =
    { c with
      daemon := c.daemon.step x
      launched := c.launched ++ c.daemon.launches x
      worker := worker } := enlistAll_eq _ _

theorem daemon_begins (c : Crew) (n : Nat) (start : BridgeStart) :
    (c.begins n start).daemon = c.daemon := by
  unfold begins
  split <;> rfl

theorem daemon_bridgeStep (c : Crew) (n : Nat) (input : BridgeInput) :
    (c.bridgeStep n input).daemon = c.daemon := by
  unfold bridgeStep
  split <;> rfl

/-- The daemon of a crew makes steps of its own. -/
theorem daemon_step (c : Crew) (i : CrewInput) :
    (c.step i).daemon = run Daemon.step c.daemon (c.served i) := by
  cases i with
  | daemon w i =>
    have hhandled : (c.handled (w, i)).daemon = c.daemon.step (w, i) := by
      obtain ⟨worker, h⟩ := c.handled_eq (w, i)
      rw [h]
    cases i with
    | update u => rfl
    | start => rfl
    | _ => exact hhandled
  | begins n start => exact c.daemon_begins n start
  | bridge n input => exact c.daemon_bridgeStep n input
  | agent u => rfl
  | deliver w =>
    show (c.deliver w).daemon = _
    unfold deliver served
    cases c.queue <;> rfl

theorem sound_step (h : Sound c.daemon.core) {i : CrewInput} (hi : c.Clocked i) :
    Sound (c.step i).daemon.core := by
  rw [c.daemon_step i]
  exact sound_run h hi

end

end Crew

/-! ## Names -/

theorem jobWorker_iff (name : String) :
    workerName (.ofList (name.toList.drop 6)) = name ↔ JobWorker name := by
  refine ⟨fun h => ⟨_, h.symm⟩, ?_⟩
  rintro ⟨jobId, rfl⟩
  unfold workerName
  rw [String.toList_append]
  exact congrArg ("__job_" ++ ·) (String.ofList_toList)

instance (name : String) : Decidable (JobWorker name) := decidable_of_iff _ (jobWorker_iff name)

/-- No agent has the name of the entry of a job. -/
def Config.PlainlyNamed (config : Config) : Prop := ∀ name ∈ config.agentNames, ¬ JobWorker name

/-- The names of agents that the input brings up: those of a config that it loads, or that of
an agent that reports. -/
def CrewInput.agentNames : CrewInput → List String
  | .daemon w .start => (w.startConfig.map (·.agentNames)).getD []
  | .daemon w .tick => (w.loadConfig.map (·.agentNames)).getD []
  | .agent u => [u.name]
  | _ => []

/-- None of them is the name of the entry of a job. -/
def CrewInput.PlainlyNamed (i : CrewInput) : Prop := ∀ name ∈ i.agentNames, ¬ JobWorker name

instance (i : CrewInput) : Decidable i.PlainlyNamed :=
  inferInstanceAs (Decidable (∀ name ∈ i.agentNames, ¬ JobWorker name))

namespace Bridge

/-- The updates of the bridge carry its name, and it is not that of the entry of a job. -/
structure Signs (b : Bridge) : Prop where
  plain : ¬ JobWorker b.agentName
  signed : ∀ u ∈ b.updates, u.name = b.agentName

theorem Signs.update {b : Bridge} (h : b.Signs) (status : AgentStatus) (error : Option String) :
    (b.update status error).Signs := by
  refine ⟨h.plain, fun u hu => ?_⟩
  rcases List.mem_append.mp hu with hu | hu
  · exact h.signed u hu
  · rw [List.mem_singleton.mp hu]
    rfl

theorem piecewise_signs : Piecewise (fun b b' => b.Signs → b'.Signs) where
  refl := fun _ h => h
  trans := fun h h' hb => h' (h hb)
  update := fun _ _ error _ h => h.update _ error
  emit := fun _ _ h => ⟨h.plain, h.signed⟩
  leave := fun _ h => ⟨h.plain, h.signed⟩
  tell := fun _ _ h => ⟨h.plain, h.signed⟩
  answer := fun _ _ _ _ _ h => ⟨h.plain, h.signed⟩
  forget := fun _ _ h => ⟨h.plain, h.signed⟩
  drop := fun _ _ h => ⟨h.plain, h.signed⟩
  finish := fun _ _ h => ⟨h.plain, h.signed⟩

theorem signs_step {b : Bridge} (h : b.Signs) (i : BridgeInput) : (b.step i).Signs := by
  by_cases htakes : b.phase = .looping ∧ takesId i = true
  · obtain ⟨hupdates, hname⟩ := step_of_takesId htakes
    refine ⟨hname ▸ h.plain, fun u hu => ?_⟩
    rw [hname]
    exact h.signed u (hupdates ▸ hu)
  · exact piecewise_signs.step htakes h

theorem signs_workerBridge {agentName : String} (h : ¬ JobWorker agentName) (orchTx : Bool)
    (orchJobId : Option JobId) (start : BridgeStart) :
    (workerBridge agentName orchTx orchJobId start).Signs := by
  have hnew : ∀ b : Bridge, b.agentName = agentName → b.updates = [] → b.Signs := by
    intro b hname hnone
    refine ⟨hname ▸ h, fun u hu => ?_⟩
    rw [hnone] at hu
    cases hu
  unfold workerBridge
  cases start with
  | noExecutable e => exact (hnew _ rfl rfl).update ..
  | spawnFailed e => exact (hnew _ rfl rfl).update ..
  | spawned pid => exact (hnew _ rfl rfl).update ..

end Bridge

/-! ## The entries of jobs -/

namespace Daemon

/-- No entry of a job shows the status idle. -/
def NoneIdle (d : Daemon) : Prop :=
  ∀ jobId a, d.managed.get (workerName jobId) = some a → a.status ≠ .idle

section
variable {w : World} {d d' : Daemon} {A : String → Prop}

theorem NoneIdle.moves {f f' : Fleet} (h : f.daemon.NoneIdle) (hm : Fleet.Moves A f f') :
    f'.daemon.NoneIdle := by
  intro jobId a hget
  rcases hm.entry (workerName jobId) with ⟨_, hsame | hgone⟩ | ⟨_, l, _, hstatus, _⟩
  · exact h jobId a (hsame ▸ hget)
  · rw [hgone] at hget
    cases hget
  · -- it has the status that it was spawned with
    rw [hstatus a hget]
    cases l <;> simp [Launch.status]

/-- The handlers of commands, events and ticks put no other entries in the place of old ones
than entries that have just been spawned. -/
theorem NoneIdle.reach {s : Site} (hr : Fleet.Reach s d d') (h : d.NoneIdle) : d'.NoneIdle := by
  obtain ⟨is, his, hrun⟩ := hr
    { daemon := d
      shared := .new
      handle := fun _ => 0
      launched := []
      bridges := .empty
      queue := [] } rfl
  rw [← hrun]
  refine run_invariant (P := fun f : Fleet => f.daemon.NoneIdle) (G := fun _ => Fleet.Handles s)
    (fun f i hf hi => ?_) h (Meets.of_forall (fun i hi _ => his i hi) _)
  exact hf.moves (Fleet.moves_step f i fun s' hs' => by subst hs'; exact hi)

theorem noneIdle_boot (h : d.NoneIdle) : (d.boot w).NoneIdle := by
  cases hw : w.startConfig with
  | none =>
    unfold boot
    rw [hw]
    exact h
  | some config =>
    have hboot := Fleet.daemon_boot ⟨w, fun _ => none⟩ d hw
    rw [← hboot]
    refine NoneIdle.moves ?_ (Fleet.Moves.foldl (A := fun _ => True) _ (fun a _ f =>
      (Fleet.moves_spawnManagedAgent ⟨w, fun _ => none⟩ f a).mono fun _ _ => True.intro) _)
    intro jobId a hget
    cases hget

/-- An update with another name leaves the entries of jobs as they are. -/
theorem noneIdle_agentUpdate {u : AgentStateUpdate} (hu : ¬ JobWorker u.name) (h : d.NoneIdle) :
    (d.agentUpdate w u).NoneIdle := by
  intro jobId a hget
  cases hentry : d.managed.get u.name with
  | none => exact h jobId a (Fleet.agentUpdate_of_missing hentry ▸ hget)
  | some agent =>
    obtain ⟨agent', _, hget'⟩ := Fleet.agentUpdate_get (w := w) hentry
    rw [hget', if_neg fun hname => hu ⟨jobId, hname.symm⟩] at hget
    exact h jobId a hget

/-- No step but the taking of an update brings the entry of a job to idle. -/
theorem noneIdle_step (h : d.NoneIdle) {i : Input} (hi : ∀ u, i = .update u → ¬ JobWorker u.name) :
    (d.step (w, i)).NoneIdle := by
  by_cases hstart : i = .start
  · subst hstart
    rw [step_start]
    exact noneIdle_boot h
  · have hreach := Fleet.elementary_reach ⟨w, fun _ => none⟩
    obtain ⟨d', alive, hkeep, hstep⟩ := (hreach.keeps NoneIdle.reach).skeleton.step
      (fun _ _ h => h) hstart      (fun u hu _ => noneIdle_agentUpdate (hi u hu))
      (fun _ d => NoneIdle.reach (hreach.reloadConfig d)) d
    rw [hstep]
    exact hkeep h

theorem plainlyNamed_reloadConfig (hw : (CrewInput.daemon w .tick).PlainlyNamed)
    (h : d.currentConfig.PlainlyNamed) : (d.reloadConfig w).currentConfig.PlainlyNamed := by
  unfold reloadConfig
  split
  · exact h
  · rename_i config hload
    split
    · exact h
    · intro name hname
      refine hw name ?_
      show name ∈ (w.loadConfig.map (·.agentNames)).getD []
      rw [hload]
      exact hname

/-- The config in force is one that a start or a tick has loaded. -/
theorem plainlyNamed_step (h : d.currentConfig.PlainlyNamed) {i : Input}
    (hi : (CrewInput.daemon w i).PlainlyNamed) : (d.step (w, i)).currentConfig.PlainlyNamed := by
  by_cases hstart : i = .start
  · subst hstart
    rw [step_start]
    cases hw : w.startConfig with
    | none =>
      unfold boot
      rw [hw]
      exact h
    | some config =>
      rw [(sameConfig_boot hw d.fresh).currentConfig]
      intro name hname
      refine hi name ?_
      show name ∈ (w.startConfig.map (·.agentNames)).getD []
      rw [hw]
      exact hname
  · have hsame : ∀ {d d' : Daemon}, SameConfig d d' → d.currentConfig.PlainlyNamed →
        d'.currentConfig.PlainlyNamed := fun hs h => hs.currentConfig ▸ h
    obtain ⟨d', alive, hkeep, hstep⟩ := ((constituent_sameConfig w).keeps hsame).skeleton.step
      (fun _ _ h => h) hstart (fun u _ d => hsame (sameConfig_agentUpdate w d u))
      (fun htick d => plainlyNamed_reloadConfig (by subst htick; exact hi)) d
    rw [hstep]
    exact hkeep h

end

end Daemon

/-! ## Runs of the crew -/

/-- What was launched is for a job, and a bridge for it has no name of an entry of a job. -/
def Launch.Misnamed : Launch → Prop
  | .agent _ => False
  | .job profile _ => ¬ JobWorker profile
  | .capsule _ => True

namespace Crew

/-- No report on its way is for the entry of a job, and no such entry shows the status idle. -/
structure Misnamed (c : Crew) : Prop where
  config : c.daemon.currentConfig.PlainlyNamed
  launched : ∀ l ∈ c.launched, l.Misnamed
  bridges : ∀ n b, c.bridges.get n = some b → b.Signs
  queue : ∀ report ∈ c.queue, ¬ JobWorker report.update.name
  entries : c.daemon.NoneIdle

section
variable {c : Crew}

/-- The worker of a job has the name of an agent of the config. -/
theorem misnamed_launchFor {d : Daemon} (h : d.currentConfig.PlainlyNamed) {job : Job} {l : Launch}
    (hl : d.launchFor job = some l) : l.Misnamed := by
  unfold Daemon.launchFor at hl
  split at hl
  · cases hl
    exact True.intro
  · obtain ⟨a, hfind, rfl⟩ := Option.map_eq_some_iff.mp hl
    exact h a.name (List.mem_map.mpr ⟨a, List.mem_of_find?_eq_some hfind, rfl⟩)

theorem misnamed_handled (h : c.Misnamed) {w : World} {i : Input}
    (hi : (CrewInput.daemon w i).PlainlyNamed) (hu : ∀ u, i ≠ .update u) :
    (c.handled (w, i)).Misnamed := by
  obtain ⟨worker, heq⟩ := c.handled_eq (w, i)
  rw [heq]
  have hforce : (c.daemon.inForce (w, i)).currentConfig.PlainlyNamed := by
    unfold Daemon.inForce
    split
    · rename_i heq
      cases heq
      exact plainlyNamed_reloadConfig hi h.config
    · exact h.config
  refine ⟨plainlyNamed_step h.config hi, ?_, h.bridges, h.queue,
    noneIdle_step h.entries fun u hi => absurd hi (hu u)⟩
  intro l hl
  rcases List.mem_append.mp hl with hl | hl
  · exact h.launched l hl
  · obtain ⟨job, _, hjob⟩ := List.mem_filterMap.mp hl
    exact misnamed_launchFor hforce hjob

theorem misnamed_alone {d : Daemon} (hconfig : d.currentConfig.PlainlyNamed) (hd : d.NoneIdle) :
    (alone d).Misnamed where
  config := hconfig
  launched := fun _ hl => absurd hl List.not_mem_nil
  bridges := fun _ _ hget => by cases hget
  queue := fun _ hr => absurd hr List.not_mem_nil
  entries := hd

/-- What a bridge sends is signed, so it is for no entry of a job. -/
theorem Misnamed.sends (h : c.Misnamed) {n : Nat} {b : Bridge} (hb : b.Signs)
    {updates : List AgentStateUpdate} (hsub : ∀ u ∈ updates, u ∈ b.updates) (about : Option Nat) :
    ({ c with
      bridges := c.bridges.insert n b
      queue := c.queue ++ updates.map (⟨about, ·⟩) } : Crew).Misnamed where
  config := h.config
  launched := h.launched
  bridges := by
    intro k b' hget
    rw [HashMap.get_insert] at hget
    split at hget
    · cases hget
      exact hb
    · exact h.bridges k b' hget
  queue := by
    intro report hmem
    rcases List.mem_append.mp hmem with hmem | hmem
    · exact h.queue report hmem
    · obtain ⟨u, hu, rfl⟩ := List.mem_map.mp hmem
      rw [hb.signed u (hsub u hu)]
      exact hb.plain
  entries := h.entries

theorem misnamed_begins (h : c.Misnamed) (n : Nat) (start : BridgeStart) :
    (c.begins n start).Misnamed := by
  unfold begins
  split
  · rename_i b hb _
    obtain ⟨l, hl, hbridge⟩ := Option.bind_eq_some_iff.mp hb
    refine h.sends ?_ (fun u hu => hu) _
    have hmisnamed := h.launched l (List.mem_of_getElem? hl)
    cases l with
    | agent name => exact absurd hmisnamed id
    | job profile jobId =>
      cases hbridge
      exact Bridge.signs_workerBridge hmisnamed true _ start
    | capsule jobId => cases hbridge
  · exact h

theorem misnamed_step (h : c.Misnamed) {i : CrewInput} (hi : i.PlainlyNamed) :
    (c.step i).Misnamed := by
  cases i with
  | daemon w i =>
    cases i with
    | update u => exact h
    | start =>
      exact misnamed_alone (plainlyNamed_step h.config hi)
        (noneIdle_step h.entries (fun _ => nofun))
    | _ => exact misnamed_handled h hi (fun _ => nofun)
  | begins n start => exact misnamed_begins h n start
  | bridge n input =>
    show (c.bridgeStep n input).Misnamed
    unfold bridgeStep
    split
    · exact h
    · rename_i b hget
      exact h.sends (Bridge.signs_step (h.bridges n b hget) input)
        (fun u hu => List.mem_of_mem_drop hu) _
  | agent u =>
    refine { h with queue := fun report hmem => ?_ }
    rcases List.mem_append.mp hmem with hmem | hmem
    · exact h.queue report hmem
    · rw [List.mem_singleton.mp hmem]
      exact hi u.name (List.mem_singleton.mpr rfl)
  | deliver w =>
    show (c.deliver w).Misnamed
    unfold deliver
    cases hq : c.queue with
    | nil => exact h
    | cons report queue =>
      have hname : ¬ JobWorker report.update.name :=
        h.queue report (hq ▸ List.mem_cons_self)
      refine ⟨plainlyNamed_step h.config nofun, h.launched, h.bridges,
        fun r hr => h.queue r (hq ▸ List.mem_cons_of_mem _ hr), noneIdle_step h.entries ?_⟩
      intro u hu
      cases hu
      exact hname

/-- In a run with plain names no entry of a job ever shows the status idle. -/
theorem noneIdle_run {c : Crew} (h : c.Misnamed) {is : List CrewInput}
    (hplain : ∀ i ∈ is, i.PlainlyNamed) : (run step c is).daemon.NoneIdle :=
  (run_invariant (P := Misnamed) (G := fun _ => CrewInput.PlainlyNamed)
    (fun _ _ h hi => misnamed_step h hi) h (Meets.of_forall (fun i hi _ => hplain i hi) _)).entries

end

end Crew

end ZeptoPM
