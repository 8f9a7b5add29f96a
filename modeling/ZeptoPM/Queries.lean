import ZeptoPM.Results

/- What the daemon tells of itself over HTTP: the list of runs, the status of one run, and
   the metrics. They are three walks over the same tables, each in the order the maps
   happen to be in, and in every reachable state they agree: `queries_agree`. -/
namespace ZeptoPM
open OrchestratorEngine

theorem RunStatus.text_injective {s s' : RunStatus} (h : s.text = s'.text) : s = s' := by
  cases s <;> cases s' <;> first | rfl | exact absurd h (by decide)

/-! ## Replies -/

structure RunEntry where
  runId : RunId
  task : String
  status : String
  deriving DecidableEq, Repr

structure JobInfo where
  jobId : JobId
  role : String
  status : String
  instruction : String
  attempt : Nat
  revisionRound : Nat
  error : Option String
  lastHeartbeatSecsAgo : Option Nat
  deriving DecidableEq, Repr

structure RunStatusData where
  runId : RunId
  task : String
  status : String
  jobs : List JobInfo
  deriving DecidableEq, Repr

structure Metrics where
  uptimeSecs : Nat
  agents : Nat
  activeWorkers : Nat
  total : Nat
  running : Nat
  completed : Nat
  failed : Nat
  pendingJobs : Nat
  deriving DecidableEq, Repr

def Run.entry (run : Run) : RunEntry where
  runId := run.runId
  task := run.task
  status := run.status.text

def jobInfo (w : World) (e : OrchestratorEngine) (j : Job) : JobInfo where
  jobId := j.jobId
  role := j.role
  status := j.status.text
  instruction := .ofList (j.instruction.toList.take 100)
  attempt := j.attempt
  revisionRound := j.revisionRound
  error := j.error
  lastHeartbeatSecsAgo := (e.lastHeartbeat.get j.jobId).map (fun t => (w.instant - t) / 1000)

namespace OrchestratorEngine

def getRunsListData (w : World) (e : OrchestratorEngine) : List RunEntry :=
  (e.store.listRuns w).map Run.entry

def getRunStatusData (w : World) (e : OrchestratorEngine) (runId : RunId) :
    Except String RunStatusData :=
  match e.store.getRun runId with
  | none => .error ("run '" ++ runId ++ "' not found")
  | some run =>
    .ok
      { runId := run.runId
        task := run.task
        status := run.status.text
        jobs := (e.store.listRunJobs w runId).map (jobInfo w e) }

end OrchestratorEngine

/-- Whether the name is one of a job's worker. -/
def isWorkerName (name : String) : Bool := "__job_".toList.isPrefixOf name.toList

namespace Daemon

def getMetricsData (w : World) (d : Daemon) (daemonStart : Instant) : Metrics :=
  let runs := d.engine.store.listRuns w
  { uptimeSecs := (w.instant - daemonStart) / 1000
    agents := d.managed.keys.countP (fun k => !isWorkerName k)
    activeWorkers := d.managed.keys.countP isWorkerName
    total := runs.length
    running := runs.countP (·.status == .running)
    completed := runs.countP (·.status == .completed)
    failed := runs.countP (·.status == .failed)
    pendingJobs := d.engine.readyQueue.length }

end Daemon

/-! ## Agreement -/

/-- The runs that the list gives a status. -/
def listedAs (status : RunStatus) (entries : List RunEntry) : Nat :=
  entries.countP (·.status == status.text)

/-- The endpoints tell the same story, in whatever order each walks its tables: every run
is listed once and has a status of its own that agrees, its jobs are those of the store
and no job is left out, only a running one has a heartbeat, and the counts are those of the
list. -/
structure QueriesAgree (wList wStatus wMetrics : World) (d : Daemon) (daemonStart : Instant) :
    Prop where
  listedOnce : ((d.engine.getRunsListData wList).map (·.runId)).Nodup
  listed : ∀ r data, d.engine.getRunStatusData wStatus r = .ok data →
    ⟨r, data.task, data.status⟩ ∈ d.engine.getRunsListData wList
  found : ∀ entry ∈ d.engine.getRunsListData wList, ∃ data,
    d.engine.getRunStatusData wStatus entry.runId = .ok data ∧
      entry = ⟨data.runId, data.task, data.status⟩
  jobsOnce : ∀ r data, d.engine.getRunStatusData wStatus r = .ok data →
    (data.jobs.map (·.jobId)).Nodup
  everyJob : ∀ k job, d.engine.store.getJob k = some job →
    ∃ data, d.engine.getRunStatusData wStatus job.runId = .ok data ∧
      jobInfo wStatus d.engine job ∈ data.jobs
  heartbeats : ∀ r data, d.engine.getRunStatusData wStatus r = .ok data →
    ∀ info ∈ data.jobs, info.lastHeartbeatSecsAgo ≠ none → info.status = JobStatus.running.text
  total : (d.getMetricsData wMetrics daemonStart).total =
    (d.engine.getRunsListData wList).length
  running : (d.getMetricsData wMetrics daemonStart).running =
    listedAs .running (d.engine.getRunsListData wList)
  completed : (d.getMetricsData wMetrics daemonStart).completed =
    listedAs .completed (d.engine.getRunsListData wList)
  failed : (d.getMetricsData wMetrics daemonStart).failed =
    listedAs .failed (d.engine.getRunsListData wList)
  agents : (d.getMetricsData wMetrics daemonStart).agents +
    (d.getMetricsData wMetrics daemonStart).activeWorkers = d.managed.len

section
variable {w w' : World} {e : OrchestratorEngine} {r : RunId}

theorem mem_listRuns {s : RunStore} {run : Run} :
    run ∈ s.listRuns w ↔ s.getRun run.runId = some run := Table.mem_valuesIn

theorem listRuns_nodup (w : World) (s : RunStore) : ((s.listRuns w).map (·.runId)).Nodup :=
  s.runs.valuesIn_nodup_keys _

/-- The order in which the runs are listed is all that depends on the walk. -/
theorem listRuns_perm (w w' : World) (s : RunStore) : (s.listRuns w).Perm (s.listRuns w') :=
  (List.perm_ext_iff_of_nodup (.of_map _ (listRuns_nodup w s))
    (.of_map _ (listRuns_nodup w' s))).mpr (fun _ => mem_listRuns.trans mem_listRuns.symm)

theorem listedAs_listRuns (status : RunStatus) :
    (e.store.listRuns w').countP (·.status == status) = listedAs status (e.getRunsListData w) := by
  unfold listedAs getRunsListData
  rw [List.countP_map, (listRuns_perm w' w e.store).countP_eq]
  refine List.countP_congr fun run _ => ?_
  show (run.status == status) = true ↔ (run.status.text == status.text) = true
  rw [beq_iff_eq, beq_iff_eq]
  exact ⟨congrArg RunStatus.text, RunStatus.text_injective⟩

theorem getRunStatusData_ok {data : RunStatusData} (h : e.getRunStatusData w r = .ok data) :
    ∃ run, e.store.getRun r = some run ∧ data.runId = r ∧ data.task = run.task ∧
      data.status = run.status.text ∧ data.jobs = (e.store.listRunJobs w r).map (jobInfo w e) := by
  unfold getRunStatusData at h
  cases hrun : e.store.getRun r with
  | none =>
    rw [hrun] at h
    cases h
  | some run =>
    rw [hrun] at h
    cases h
    exact ⟨run, rfl, RunStore.runId_of_getRun hrun, rfl, rfl, rfl⟩

theorem getRunStatusData_of_run {run : Run} (hrun : e.store.getRun r = some run) :
    e.getRunStatusData w r =
      .ok ⟨run.runId, run.task, run.status.text, (e.store.listRunJobs w r).map (jobInfo w e)⟩ := by
  unfold getRunStatusData
  rw [hrun]

/-- Only an active job has a heartbeat, and active jobs are running. -/
theorem running_of_heartbeat (hg : Grounded e) {job : Job}
    (hjob : e.store.getJob job.jobId = some job)
    (h : (jobInfo w e job).lastHeartbeatSecsAgo ≠ none) : job.status = .running := by
  obtain ⟨t, ht⟩ : ∃ t, e.lastHeartbeat.get job.jobId = some t := by
    refine Option.ne_none_iff_exists'.mp fun hnone => h ?_
    show Option.map _ (e.lastHeartbeat.get job.jobId) = none
    rw [hnone]
    rfl
  obtain ⟨r, hactive⟩ := hg.supervised.heartbeat _ t ht
  exact hg.activeRunning _ r job hactive hjob

end

/-- In every state that the daemon reaches the three endpoints agree. -/
theorem queries_agree (persistent : Bool) (sandboxOverride : Option Bool) (capsule : Bool)
    (is : List (World × Input))
    (h : Meets Daemon.step Clocked (Daemon.off persistent sandboxOverride capsule) is)
    (wList wStatus wMetrics : World) (daemonStart : Instant) :
    QueriesAgree wList wStatus wMetrics
      (run Daemon.step (Daemon.off persistent sandboxOverride capsule) is) daemonStart := by
  have hg := (sound_run (sound_off persistent sandboxOverride capsule) h).grounded
  generalize run Daemon.step (Daemon.off persistent sandboxOverride capsule) is = d at hg
  refine ⟨?_, ?_, ?_, ?_, ?_, ?_, ?_, ?_, ?_, ?_, ?_⟩
  · unfold getRunsListData
    rw [List.map_map]
    exact listRuns_nodup wList _
  · intro r data hdata
    obtain ⟨run, hrun, _, htask, hstatus, _⟩ := getRunStatusData_ok hdata
    have hid := RunStore.runId_of_getRun hrun
    rw [htask, hstatus, ← hid]
    exact List.mem_map_of_mem (f := Run.entry) (mem_listRuns.mpr (hid ▸ hrun))
  · intro entry hentry
    obtain ⟨run, hmem, rfl⟩ := List.mem_map.mp hentry
    exact ⟨_, getRunStatusData_of_run (mem_listRuns.mp hmem), rfl⟩
  · intro r data hdata
    obtain ⟨_, _, _, _, _, hjobs⟩ := getRunStatusData_ok hdata
    rw [hjobs, List.map_map]
    exact RunStore.listRunJobs_nodup_ids wStatus _ r
  · intro k job hjob
    obtain ⟨run, hrun⟩ := hg.runOf k job hjob
    refine ⟨_, getRunStatusData_of_run hrun, List.mem_map_of_mem (RunStore.mem_listRunJobs.mpr ?_)⟩
    exact ⟨(RunStore.jobId_of_getJob hjob).symm ▸ hjob, rfl⟩
  · intro r data hdata info hinfo hbeat
    obtain ⟨_, _, _, _, _, hjobs⟩ := getRunStatusData_ok hdata
    rw [hjobs] at hinfo
    obtain ⟨job, hmem, rfl⟩ := List.mem_map.mp hinfo
    exact congrArg JobStatus.text
      (running_of_heartbeat hg (RunStore.mem_listRunJobs.mp hmem).1 hbeat)
  · exact (listRuns_perm wMetrics wList _).length_eq.trans (List.length_map ..).symm
  · exact listedAs_listRuns .running
  · exact listedAs_listRuns .completed
  · exact listedAs_listRuns .failed
  · show d.managed.keys.countP (fun k => !isWorkerName k) + d.managed.keys.countP isWorkerName =
      d.managed.keys.length
    rw [List.length_eq_countP_add_countP isWorkerName, Nat.add_comm]
    congr 2
    funext k
    cases isWorkerName k <;> rfl

/-- A run has just been submitted. -/
theorem queries_agree_submitted : QueriesAgree World.bare World.bare World.bare
    (run Daemon.step (Daemon.off true none false)
      [(plannerWorld soloPlan, .start), (plannerWorld soloPlan, .command (.submitRun "task"))]) 0 :=
  queries_agree true none false _ (by decide +kernel) World.bare World.bare World.bare 0

end ZeptoPM
