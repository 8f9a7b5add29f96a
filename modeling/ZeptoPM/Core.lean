import ZeptoPM.Calls
import ZeptoPM.Sqlite

/- The part of the daemon that outlives its workers: the orchestrator engine and
   the database behind it. An `Action` is one thing a handler does to the two: a
   call on the engine, a write to the database, the removal of an expired run, or
   the start of the process from what the database holds. A call carries the id of
   the run that its handler writes to the database when it is done. -/
namespace ZeptoPM
open OrchestratorEngine

/-! ## The start of the process -/

/-- A job as it is loaded: one that was running has lost its process, which
counts as a failure. -/
def Job.recover (w : World) (job : Job) : Job :=
  if job.status = .running then job.fail w "daemon restarted — process lost" else job

/-- A channel as it is loaded: an open one has to be activated again. -/
def Channel.recover (c : Channel) : Channel := if c.closed then c else { c with active := false }

/-- The ids of a new process. Its clock reads later than every stamp drawn before. -/
def IdSupply.restart (ids : IdSupply) : IdSupply :=
  { startedAt := ids.lastStamp + 1, lastStamp := ids.lastStamp, counter := 0 }

/-- A new engine, filled from the database if there is one. -/
def hydrate (w : World) (db : Option SqlitePersistence) (ids : IdSupply) : OrchestratorEngine :=
  match db with
  | none => { new 4 with ids := ids.restart }
  | some db =>
    let jobs := (db.loadJobs w).map (Job.recover w)
    { store :=
        { runs := Table.empty.putAll (db.loadRuns w)
          jobs := Table.empty.putAll jobs
          artifacts := Table.empty.putAll (db.loadArtifacts w)
          channels := Table.empty.putAll ((db.loadChannels w).map Channel.recover) }
      readyQueue := (jobs.filter (fun j => j.status == .ready)).map (·.jobId)
      maxConcurrency := 4
      activeJobs := .empty
      lastHeartbeat := .empty
      ids := ids.restart }

/-! ## Engine and database -/

structure Core where
  engine : OrchestratorEngine
  db : Option SqlitePersistence

inductive Action where
  /-- A call on the engine by a handler that will persist the run `r`. -/
  | call (r : RunId) (c : Call)
  | persistRunState (r : RunId)
  | persistArtifact (a : Artifact)
  /-- An id is drawn for an artifact. -/
  | genId (pre : String)
  /-- `remove_run`, and `delete_run` on the database. -/
  | expire (r : RunId)
  /-- The process starts, and hydrates from the database. -/
  | hydrate

def Core.act (w : World) (c : Core) : Action → Core
  | .call _ f => { c with engine := f.apply w c.engine }
  | .persistRunState r => { c with db := c.db.map (·.persistRunState w c.engine.store r) }
  | .persistArtifact a => { c with db := c.db.map (·.persistArtifact a) }
  | .genId pre => { c with engine := { c.engine with ids := (ZeptoPM.genId w c.engine.ids pre).2 } }
  | .expire r =>
    { engine := c.engine.removeRun w r
      db := c.db.map (·.deleteRun w r) }
  | .hydrate => { c with engine := ZeptoPM.hydrate w c.db c.engine.ids }

def coreStep (c : Core) (x : World × Action) : Core := c.act x.1 x.2

/-! ## What a new engine holds -/

section
variable {w : World} {db : SqlitePersistence} {ids : IdSupply}

theorem Job.recover_jobId (w : World) (job : Job) : (job.recover w).jobId = job.jobId := by
  unfold Job.recover
  split
  · exact Job.fail_jobId ..
  · rfl

@[simp] theorem Job.recover_runId (w : World) (job : Job) : (job.recover w).runId = job.runId := by
  unfold Job.recover
  split
  · exact Job.fail_runId ..
  · rfl

theorem Job.recover_status (w : World) (job : Job) : (job.recover w).status =
    if job.status = .running then (if job.retries then .ready else .failed) else job.status := by
  unfold Job.recover
  split
  · exact Job.fail_status ..
  · rfl

theorem Job.recover_ne_running (w : World) (job : Job) : (job.recover w).status ≠ .running := by
  rw [Job.recover_status]
  split
  · split <;> simp
  · assumption

theorem Channel.recover_channelId (c : Channel) : c.recover.channelId = c.channelId := by
  unfold Channel.recover
  split <;> rfl

theorem Channel.recover_same (c : Channel) :
    c.recover.runId = c.runId ∧ c.recover.participants = c.participants := by
  unfold Channel.recover
  split <;> exact ⟨rfl, rfl⟩

theorem getRun_hydrate (k : RunId) : (hydrate w (some db) ids).store.getRun k = db.getRun k :=
  Table.get_putAll_values Run.runId db.runs (w.order .runRows) Run.ofRow (fun _ => rfl) k

theorem getJob_hydrate (k : JobId) :
    (hydrate w (some db) ids).store.getJob k = (db.getJob k).map (Job.recover w) := by
  have h := Table.get_putAll_values Job.jobId db.jobs (w.order .jobRows)
    (fun row => (Job.ofRow row).recover w) (fun row => Job.recover_jobId w (Job.ofRow row)) k
  have hjobs : (db.loadJobs w).map (Job.recover w) =
      (db.jobs.valuesIn (w.order .jobRows)).map (fun row => (Job.ofRow row).recover w) := by
    rw [SqlitePersistence.loadJobs, List.map_map]
    rfl
  show (Table.empty.putAll ((db.loadJobs w).map (Job.recover w))).get k = _
  rw [hjobs, h, SqlitePersistence.getJob, Option.map_map]
  rfl

theorem getChannel_hydrate (k : ChannelId) :
    (hydrate w (some db) ids).store.getChannel k = (db.getChannel k).map Channel.recover := by
  have h := Table.get_putAll_values Channel.channelId db.channels (w.order .channelRows)
    (fun row => (Channel.ofRow row).recover)
    (fun row => Channel.recover_channelId (Channel.ofRow row)) k
  have hchannels : (db.loadChannels w).map Channel.recover =
      (db.channels.valuesIn (w.order .channelRows)).map
        (fun row => (Channel.ofRow row).recover) := by
    rw [SqlitePersistence.loadChannels, List.map_map]
    rfl
  show (Table.empty.putAll ((db.loadChannels w).map Channel.recover)).get k = _
  rw [hchannels, h, SqlitePersistence.getChannel, Option.map_map]
  rfl

theorem mem_loadJobs_iff {job : Job} : job ∈ db.loadJobs w ↔ db.getJob job.jobId = some job := by
  rw [SqlitePersistence.mem_loadJobs, SqlitePersistence.getJob]
  refine ⟨?_, ?_⟩
  · intro h
    obtain ⟨row, hrow, rfl⟩ := h
    have hrow' : db.jobs.get (Job.ofRow row).jobId = some row := hrow
    rw [hrow']
    rfl
  · intro h
    obtain ⟨row, hrow, hjob⟩ := Option.map_eq_some_iff.mp h
    have hkey : row.jobId = job.jobId := Table.key_of_get hrow
    exact ⟨row, hkey ▸ hrow, hjob⟩

/-- Exactly the ready jobs are queued, each once. -/
theorem mem_readyQueue_hydrate {k : JobId} : k ∈ (hydrate w (some db) ids).readyQueue ↔
    ∃ job, (hydrate w (some db) ids).store.getJob k = some job ∧ job.status = .ready := by
  show k ∈ (((db.loadJobs w).map (Job.recover w)).filter (fun j => j.status == .ready)).map
    (·.jobId) ↔ _
  rw [List.mem_map, getJob_hydrate]
  refine ⟨?_, ?_⟩
  · intro h
    obtain ⟨job', hjob', rfl⟩ := h
    obtain ⟨hmem, hst⟩ := List.mem_filter.mp hjob'
    obtain ⟨job, hjob, rfl⟩ := List.mem_map.mp hmem
    refine ⟨job.recover w, ?_, by simpa using hst⟩
    rw [Job.recover_jobId, mem_loadJobs_iff.mp hjob]
    rfl
  · intro h
    obtain ⟨job', hjob', hst⟩ := h
    obtain ⟨job, hjob, rfl⟩ := Option.map_eq_some_iff.mp hjob'
    have hid := SqlitePersistence.jobId_of_getJob hjob
    refine ⟨job.recover w, List.mem_filter.mpr ⟨List.mem_map_of_mem ?_, by simp [hst]⟩,
      (Job.recover_jobId w job).trans hid⟩
    rw [mem_loadJobs_iff, hid]
    exact hjob

theorem readyQueue_hydrate_nodup : (hydrate w (some db) ids).readyQueue.Nodup := by
  show ((((db.loadJobs w).map (Job.recover w)).filter (fun j => j.status == .ready)).map
    (·.jobId)).Nodup
  have hnd : (((db.loadJobs w).map (Job.recover w)).map (·.jobId)).Nodup := by
    have hkeys : ((db.loadJobs w).map (Job.recover w)).map (·.jobId) =
        (db.loadJobs w).map (·.jobId) := by
      rw [List.map_map]
      exact List.map_congr_left (fun job _ => Job.recover_jobId w job)
    rw [hkeys]
    exact SqlitePersistence.loadJobs_nodup
  exact (List.filter_sublist.map _).nodup hnd

end

end ZeptoPM
