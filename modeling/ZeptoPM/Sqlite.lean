import ZeptoPM.Json
import ZeptoPM.Store

/- The SQLite image of the store: one table per kind of record, a row per
   record, statuses as text and lists as JSON columns. Every statement is taken
   to succeed. `persistRunState` writes the rows of one run, `deleteRun` drops
   them, and the `load` functions read a table back in the order the database
   returns it. A time column holds the time itself: the rounding of the `f64` it
   is stored as is left out. -/
namespace ZeptoPM

/-- `parse_run_status`. -/
def RunStatus.parse (s : String) : RunStatus :=
  match s with
  | "Pending" => .pending
  | "Running" => .running
  | "Completed" => .completed
  | "Failed" => .failed
  | "Cancelled" => .cancelled
  | _ => .pending

/-- `{:?}` of a job status. -/
def JobStatus.text : JobStatus → String
  | .pending => "Pending"
  | .ready => "Ready"
  | .running => "Running"
  | .completed => "Completed"
  | .failed => "Failed"
  | .cancelled => "Cancelled"

/-- `parse_job_status`. -/
def JobStatus.parse (s : String) : JobStatus :=
  match s with
  | "Pending" => .pending
  | "Ready" => .ready
  | "Running" => .running
  | "Completed" => .completed
  | "Failed" => .failed
  | "Cancelled" => .cancelled
  | _ => .pending

/-- `{:?}` of a channel mode. -/
def ChannelMode.text : ChannelMode → String
  | .turnBased => "TurnBased"
  | .stream => "Stream"

/-- `parse_channel_mode`. -/
def ChannelMode.parse (s : String) : ChannelMode :=
  match s with
  | "TurnBased" => .turnBased
  | "Stream" => .stream
  | _ => .turnBased

/-- `{:?}` of a failure policy. -/
def PeerFailure.text : PeerFailure → String
  | .killAll => "KillAll"
  | .continue => "Continue"

/-- `parse_peer_failure`. -/
def PeerFailure.parse (s : String) : PeerFailure :=
  match s with
  | "Continue" => .continue
  | "KillAll" => .killAll
  | _ => .killAll

structure RunRow where
  runId : String
  task : String
  status : String
  createdAt : SystemTime
  updatedAt : SystemTime
  rootJobId : String
  finalArtifactIds : Json
  metadata : Json

structure JobRow where
  jobId : String
  runId : String
  parentJobId : Option String
  role : String
  status : String
  instruction : String
  inputArtifactIds : Json
  dependsOn : Json
  children : Json
  profileId : String
  workspaceDir : String
  attempt : Nat
  maxAttempts : Nat
  revisionRound : Nat
  createdAt : SystemTime
  startedAt : Option SystemTime
  finishedAt : Option SystemTime
  outputArtifactIds : Json
  error : Option String

structure ArtifactRow where
  artifactId : String
  runId : String
  jobId : String
  kind : String
  path : String
  summary : String
  createdAt : SystemTime

structure ChannelRow where
  channelId : String
  runId : String
  participants : Json
  mode : String
  maxRounds : Option Nat
  onPeerFailure : String
  currentRound : Nat
  currentSpeakerIdx : Nat
  active : Int
  closed : Int
  history : Json
  initialMessage : Option String

/-- The values bound by `persist_run`. -/
def Run.toRow (run : Run) : RunRow where
  runId := run.runId
  task := run.task
  status := run.status.text
  createdAt := run.createdAt
  updatedAt := run.updatedAt
  rootJobId := run.rootJobId
  finalArtifactIds := .ofVec run.finalArtifactIds
  metadata := .ofMap run.metadata

/-- One row of `load_runs`. -/
def Run.ofRow (row : RunRow) : Run where
  runId := row.runId
  task := row.task
  status := .parse row.status
  createdAt := row.createdAt
  updatedAt := row.updatedAt
  rootJobId := row.rootJobId
  finalArtifactIds := row.finalArtifactIds.parseVec
  metadata := row.metadata.parseMap

/-- The values bound by `persist_job`. -/
def Job.toRow (job : Job) : JobRow where
  jobId := job.jobId
  runId := job.runId
  parentJobId := job.parentJobId
  role := job.role
  status := job.status.text
  instruction := job.instruction
  inputArtifactIds := .ofVec job.inputArtifactIds
  dependsOn := .ofVec job.dependsOn
  children := .ofVec job.children
  profileId := job.profileId
  workspaceDir := job.workspaceDir
  attempt := job.attempt
  maxAttempts := job.maxAttempts
  revisionRound := job.revisionRound
  createdAt := job.createdAt
  startedAt := job.startedAt
  finishedAt := job.finishedAt
  outputArtifactIds := .ofVec job.outputArtifactIds
  error := job.error

/-- One row of `load_jobs`. -/
def Job.ofRow (row : JobRow) : Job where
  jobId := row.jobId
  runId := row.runId
  parentJobId := row.parentJobId
  role := row.role
  status := .parse row.status
  instruction := row.instruction
  inputArtifactIds := row.inputArtifactIds.parseVec
  dependsOn := row.dependsOn.parseVec
  children := row.children.parseVec
  profileId := row.profileId
  workspaceDir := row.workspaceDir
  attempt := row.attempt
  maxAttempts := row.maxAttempts
  createdAt := row.createdAt
  startedAt := row.startedAt
  finishedAt := row.finishedAt
  outputArtifactIds := row.outputArtifactIds.parseVec
  error := row.error
  revisionRound := row.revisionRound

/-- The values bound by `persist_artifact`. -/
def Artifact.toRow (a : Artifact) : ArtifactRow where
  artifactId := a.artifactId
  runId := a.runId
  jobId := a.jobId
  kind := a.kind
  path := a.path
  summary := a.summary
  createdAt := a.createdAt

/-- One row of `load_artifacts`. -/
def Artifact.ofRow (row : ArtifactRow) : Artifact where
  artifactId := row.artifactId
  runId := row.runId
  jobId := row.jobId
  kind := row.kind
  path := row.path
  summary := row.summary
  createdAt := row.createdAt

/-- The values bound by `persist_channel`. -/
def Channel.toRow (c : Channel) : ChannelRow where
  channelId := c.channelId
  runId := c.runId
  participants := .ofVec c.participants
  mode := c.mode.text
  maxRounds := c.maxRounds
  onPeerFailure := c.onPeerFailure.text
  currentRound := c.currentRound
  currentSpeakerIdx := c.currentSpeakerIdx
  active := if c.active then 1 else 0
  closed := if c.closed then 1 else 0
  history := .ofHistory c.history
  initialMessage := c.initialMessage

/-- One row of `load_channels`. -/
def Channel.ofRow (row : ChannelRow) : Channel where
  channelId := row.channelId
  runId := row.runId
  participants := row.participants.parseVec
  mode := .parse row.mode
  maxRounds := row.maxRounds
  onPeerFailure := .parse row.onPeerFailure
  currentRound := row.currentRound
  currentSpeakerIdx := row.currentSpeakerIdx
  active := row.active != 0
  closed := row.closed != 0
  history := row.history.parseHistory
  initialMessage := row.initialMessage

@[simp] theorem RunStatus.parse_text (s : RunStatus) : RunStatus.parse s.text = s := by
  cases s <;> rfl

@[simp] theorem JobStatus.parse_text (s : JobStatus) : JobStatus.parse s.text = s := by
  cases s <;> rfl

@[simp] theorem ChannelMode.parse_text (m : ChannelMode) : ChannelMode.parse m.text = m := by
  cases m <;> rfl

@[simp] theorem PeerFailure.parse_text (p : PeerFailure) : PeerFailure.parse p.text = p := by
  cases p <;> rfl

/-- A record survives its row. -/
@[simp] theorem Run.ofRow_toRow (run : Run) : Run.ofRow run.toRow = run := by
  simp [Run.ofRow, Run.toRow]

@[simp] theorem Job.ofRow_toRow (job : Job) : Job.ofRow job.toRow = job := by
  simp [Job.ofRow, Job.toRow]

@[simp] theorem Artifact.ofRow_toRow (a : Artifact) : Artifact.ofRow a.toRow = a := rfl

@[simp] theorem Channel.ofRow_toRow (c : Channel) : Channel.ofRow c.toRow = c := by
  have hflag : ∀ b : Bool, ((if b then (1 : Int) else 0) != 0) = b := by decide
  simp [Channel.ofRow, Channel.toRow, hflag]

structure SqlitePersistence where
  runs : Table RunRow.runId
  jobs : Table JobRow.jobId
  artifacts : Table ArtifactRow.artifactId
  channels : Table ChannelRow.channelId

namespace SqlitePersistence

def new : SqlitePersistence := ⟨.empty, .empty, .empty, .empty⟩

def persistRun (db : SqlitePersistence) (run : Run) : SqlitePersistence :=
  { db with runs := db.runs.put run.toRow }

def persistJob (db : SqlitePersistence) (job : Job) : SqlitePersistence :=
  { db with jobs := db.jobs.put job.toRow }

def persistChannel (db : SqlitePersistence) (channel : Channel) : SqlitePersistence :=
  { db with channels := db.channels.put channel.toRow }

def persistArtifact (db : SqlitePersistence) (artifact : Artifact) : SqlitePersistence :=
  { db with artifacts := db.artifacts.put artifact.toRow }

def loadRuns (w : World) (db : SqlitePersistence) : List Run :=
  (db.runs.valuesIn (w.order .runRows)).map Run.ofRow

def loadJobs (w : World) (db : SqlitePersistence) : List Job :=
  (db.jobs.valuesIn (w.order .jobRows)).map Job.ofRow

def loadArtifacts (w : World) (db : SqlitePersistence) : List Artifact :=
  (db.artifacts.valuesIn (w.order .artifactRows)).map Artifact.ofRow

def loadChannels (w : World) (db : SqlitePersistence) : List Channel :=
  (db.channels.valuesIn (w.order .channelRows)).map Channel.ofRow

/-- Persist all jobs and the run for a given run id. -/
def persistRunState (w : World) (db : SqlitePersistence) (s : RunStore) (runId : RunId) :
    SqlitePersistence :=
  { db with
    runs := match s.getRun runId with
      | some run => db.runs.put run.toRow
      | none => db.runs
    jobs := db.jobs.putAll ((s.listRunJobs w runId).map Job.toRow)
    channels := db.channels.putAll ((s.listRunChannels w runId).map Channel.toRow) }

/-- One statement of `persist_run_state`. -/
inductive Write where
  | run (run : Run)
  | job (job : Job)
  | channel (channel : Channel)

def execute (db : SqlitePersistence) : Write → SqlitePersistence
  | .run run => db.persistRun run
  | .job job => db.persistJob job
  | .channel channel => db.persistChannel channel

/-- The statements of `persist_run_state`, in the order it issues them. -/
def writes (w : World) (s : RunStore) (runId : RunId) : List Write :=
  ((s.getRun runId).toList.map .run ++ (s.listRunJobs w runId).map .job) ++
    (s.listRunChannels w runId).map .channel

/-- Delete a run and all its jobs, artifacts and channels. -/
def deleteRun (w : World) (db : SqlitePersistence) (runId : RunId) : SqlitePersistence where
  runs := db.runs.remove runId
  jobs := db.jobs.removeAll (((db.jobs.valuesIn (w.order .jobRows)).filter
    (fun row => row.runId == runId)).map (·.jobId))
  artifacts := db.artifacts.removeAll (((db.artifacts.valuesIn (w.order .artifactRows)).filter
    (fun row => row.runId == runId)).map (·.artifactId))
  channels := db.channels.removeAll (((db.channels.valuesIn (w.order .channelRows)).filter
    (fun row => row.runId == runId)).map (·.channelId))

/-! ## Reading rows back -/

variable {w : World} {db : SqlitePersistence} {s : RunStore} {r : RunId}

@[simp] theorem Job.toRow_jobId (job : Job) : job.toRow.jobId = job.jobId := rfl
@[simp] theorem Channel.toRow_channelId (c : Channel) : c.toRow.channelId = c.channelId := rfl

theorem mem_loadRuns {run : Run} :
    run ∈ db.loadRuns w ↔ ∃ row, db.runs.get row.runId = some row ∧ Run.ofRow row = run := by
  simp only [loadRuns, List.mem_map, Table.mem_valuesIn]

theorem mem_loadJobs {job : Job} :
    job ∈ db.loadJobs w ↔ ∃ row, db.jobs.get row.jobId = some row ∧ Job.ofRow row = job := by
  simp only [loadJobs, List.mem_map, Table.mem_valuesIn]

theorem mem_loadChannels {c : Channel} : c ∈ db.loadChannels w ↔
    ∃ row, db.channels.get row.channelId = some row ∧ Channel.ofRow row = c := by
  simp only [loadChannels, List.mem_map, Table.mem_valuesIn]

theorem loadJobs_nodup : ((db.loadJobs w).map (·.jobId)).Nodup := by
  rw [loadJobs, List.map_map]
  exact db.jobs.valuesIn_nodup_keys _

/-- `persist_run_state` replaces the run's row by its record's. -/
theorem runs_persistRunState (k : RunId) : (db.persistRunState w s r).runs.get k =
    if k = r ∧ (s.getRun k).isSome then (s.getRun k).map Run.toRow else db.runs.get k := by
  unfold persistRunState
  cases h : s.getRun r with
  | none =>
    by_cases hk : k = r
    · subst hk
      simp [h]
    · simp [hk]
  | some run =>
    have hid := RunStore.runId_of_getRun h
    subst hid
    show (db.runs.put run.toRow).get k = _
    rw [Table.get_put]
    by_cases hk : k = run.runId
    · subst hk
      simp [h, Run.toRow]
    · have hk' : ¬ k = run.toRow.runId := hk
      simp [hk, hk']

/-- `persist_run_state` replaces the rows of the run's jobs, and no other row of a job. -/
theorem jobs_persistRunState (k : JobId) : (db.persistRunState w s r).jobs.get k =
    if (s.getJob k).map (·.runId) = some r then (s.getJob k).map Job.toRow
    else db.jobs.get k := by
  have h := Table.get_putAll_filter db.jobs s.jobs (w.order .jobs) (fun j => j.runId == r)
    Job.toRow Job.toRow_jobId k
  refine Eq.trans h ?_
  show (if (s.getJob k).any (fun j => j.runId == r) then (s.getJob k).map Job.toRow else _) = _
  cases s.getJob k <;> simp

theorem channels_persistRunState (k : ChannelId) :
    (db.persistRunState w s r).channels.get k =
      if (s.getChannel k).map (·.runId) = some r then (s.getChannel k).map Channel.toRow
      else db.channels.get k := by
  have h := Table.get_putAll_filter db.channels s.channels (w.order .channels)
    (fun c => c.runId == r) Channel.toRow Channel.toRow_channelId k
  refine Eq.trans h ?_
  show (if (s.getChannel k).any (fun c => c.runId == r) then (s.getChannel k).map Channel.toRow
    else _) = _
  cases s.getChannel k <;> simp

theorem execute_jobs (jobs : List Job) (db : SqlitePersistence) :
    (jobs.map Write.job).foldl execute db =
      { db with jobs := db.jobs.putAll (jobs.map Job.toRow) } := by
  induction jobs generalizing db with
  | nil => rfl
  | cons job jobs ih =>
    rw [List.map_cons, List.foldl_cons, ih]
    rfl

theorem execute_channels (channels : List Channel) (db : SqlitePersistence) :
    (channels.map Write.channel).foldl execute db =
      { db with channels := db.channels.putAll (channels.map Channel.toRow) } := by
  induction channels generalizing db with
  | nil => rfl
  | cons c channels ih =>
    rw [List.map_cons, List.foldl_cons, ih]
    rfl

/-- Persisting a run is issuing its statements one after the other. -/
theorem persistRunState_eq (w : World) (db : SqlitePersistence) (s : RunStore) (r : RunId) :
    db.persistRunState w s r = (writes w s r).foldl execute db := by
  rw [writes, List.foldl_append, List.foldl_append, execute_jobs, execute_channels,
    persistRunState]
  cases s.getRun r <;> rfl

/-! ## The records the rows stand for -/

def getRun (db : SqlitePersistence) (k : RunId) : Option Run := (db.runs.get k).map Run.ofRow

def getJob (db : SqlitePersistence) (k : JobId) : Option Job := (db.jobs.get k).map Job.ofRow

def getChannel (db : SqlitePersistence) (k : ChannelId) : Option Channel :=
  (db.channels.get k).map Channel.ofRow

theorem getRun_persistRunState (k : RunId) : (db.persistRunState w s r).getRun k =
    if k = r ∧ (s.getRun k).isSome then s.getRun k else db.getRun k := by
  unfold getRun
  rw [runs_persistRunState]
  split
  · rw [Option.map_map]
    cases s.getRun k <;> simp
  · rfl

theorem getJob_persistRunState (k : JobId) : (db.persistRunState w s r).getJob k =
    if (s.getJob k).map (·.runId) = some r then s.getJob k else db.getJob k := by
  unfold getJob
  rw [jobs_persistRunState]
  split
  · rw [Option.map_map]
    cases s.getJob k <;> simp
  · rfl

theorem getChannel_persistRunState (k : ChannelId) : (db.persistRunState w s r).getChannel k =
    if (s.getChannel k).map (·.runId) = some r then s.getChannel k else db.getChannel k := by
  unfold getChannel
  rw [channels_persistRunState]
  split
  · rw [Option.map_map]
    cases s.getChannel k <;> simp
  · rfl

theorem jobId_of_getJob {k : JobId} {job : Job} (h : db.getJob k = some job) : job.jobId = k := by
  obtain ⟨row, hrow, rfl⟩ := Option.map_eq_some_iff.mp h
  have hkey : row.jobId = k := Table.key_of_get hrow
  exact hkey

theorem runs_deleteRun (k : RunId) :
    (db.deleteRun w r).runs.get k = if k = r then none else db.runs.get k := Table.get_remove ..

theorem jobs_deleteRun (k : JobId) : (db.deleteRun w r).jobs.get k =
    (db.jobs.get k).filter (fun row => !(row.runId == r)) := Table.get_removeAll_filter ..

theorem channels_deleteRun (k : ChannelId) : (db.deleteRun w r).channels.get k =
    (db.channels.get k).filter (fun row => !(row.runId == r)) := Table.get_removeAll_filter ..

theorem getRun_deleteRun (k : RunId) :
    (db.deleteRun w r).getRun k = if k = r then none else db.getRun k := by
  unfold getRun
  rw [runs_deleteRun]
  split <;> rfl

/-- What is read from the rows that are left, where the filter tests what is read. -/
theorem map_filter_eq_some_iff {α β : Type} {row : Option α} {f : α → β} {p : α → Bool}
    {q : β → Prop} {b : β} (hp : ∀ a, p a = true ↔ q (f a)) :
    (row.filter p).map f = some b ↔ row.map f = some b ∧ q b := by
  simp only [Option.map_eq_some_iff, Option.filter_eq_some_iff, hp]
  refine ⟨?_, ?_⟩
  · intro h
    obtain ⟨a, ⟨hrow, hq⟩, rfl⟩ := h
    exact ⟨⟨a, hrow, rfl⟩, hq⟩
  · intro h
    obtain ⟨⟨a, hrow, rfl⟩, hq⟩ := h
    exact ⟨a, ⟨hrow, hq⟩, rfl⟩

/-- A job that is left after `delete_run` is of another run. -/
theorem getJob_deleteRun {k : JobId} {job : Job} : (db.deleteRun w r).getJob k = some job ↔
    db.getJob k = some job ∧ job.runId ≠ r := by
  unfold getJob
  rw [jobs_deleteRun]
  refine map_filter_eq_some_iff (q := fun job : Job => job.runId ≠ r) fun row => ?_
  rw [Bool.not_eq_true', beq_eq_false_iff_ne]
  rfl

theorem getChannel_deleteRun {k : ChannelId} {c : Channel} :
    (db.deleteRun w r).getChannel k = some c ↔ db.getChannel k = some c ∧ c.runId ≠ r := by
  unfold getChannel
  rw [channels_deleteRun]
  refine map_filter_eq_some_iff (q := fun c : Channel => c.runId ≠ r) fun row => ?_
  rw [Bool.not_eq_true', beq_eq_false_iff_ne]
  rfl

end SqlitePersistence

end ZeptoPM
