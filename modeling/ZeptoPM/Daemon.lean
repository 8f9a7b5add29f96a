import ZeptoPM.Core
import ZeptoPM.Prompts
import ZeptoPM.Review

/- The daemon's main loop: one `Daemon.step` handles one input, that is an update
   from an agent, a command, an orchestrator event, a poll tick, a shutdown or a
   start of the process. Everything a handler does to engine and database goes
   through `act`, which also notes it in `calls`; what it sends to workers and
   clients is listed in `sent`. Both lists are those of the last input handled. -/
namespace ZeptoPM
open OrchestratorEngine

inductive AgentStatus where
  | starting | running | idle | error | stopped | restartPending
  deriving DecidableEq, Repr

def AgentStatus.text : AgentStatus → String
  | .starting => "starting"
  | .running => "running"
  | .idle => "idle"
  | .error => "error"
  | .stopped => "stopped"
  | .restartPending => "restart-pending"

structure InternalAgent where
  status : AgentStatus
  restartCount : Nat
  lastError : Option String
  tokensUsed : Nat
  pid : Option Nat
  maxRestarts : Nat
  restartBackoffMs : Nat
  restartAt : Option Instant
  supportsDirectChat : Bool

structure AgentStateUpdate where
  name : String
  status : AgentStatus
  error : Option String
  tokensDelta : Nat
  pid : Option Nat

inductive DaemonCommand where
  | start (name : String)
  | restart (name : String)
  | submitRun (task : String)
  | getRunStatus (runId : RunId)
  | listRuns
  | getRunResult (runId : RunId)
  | cancelRun (runId : RunId)
  | getMetrics

inductive Input where
  | update (update : AgentStateUpdate)
  | command (command : DaemonCommand)
  | event (event : Json)
  | tick
  | shutdown
  /-- The process starts, whatever became of the one before it. -/
  | start

/-- What leaves the daemon while it handles an input. -/
inductive Effect where
  | spawn (agent : String)
  | spawnCapsule (jobId : JobId)
  | stop (worker : String)
  | sendMessage (worker message : String)
  | sendChannelMessage (worker channelId message : String)
  | sendJob (worker jobId instruction workspace : String) (inputArtifacts : List String)
  | chat (worker prompt : String)
  | event (event : Json)
  | removeFile (path : PathBuf)
  | reply (result : Except String String)

structure Daemon where
  alive : Bool
  core : Core
  managed : HashMap String InternalAgent
  currentConfig : Config
  lastConfigHash : Nat
  lastCleanup : Instant
  /-- The `--sandbox` flag. -/
  sandboxOverride : Option Bool
  /-- Whether the daemon is built with the `capsule` feature. -/
  capsule : Bool
  sent : List Effect
  calls : List (World × Action)

namespace Daemon

def engine (d : Daemon) : OrchestratorEngine := d.core.engine

/-- The step of engine and database, noted. -/
def act (w : World) (d : Daemon) (a : Action) : Daemon :=
  { d with core := d.core.act w a, calls := d.calls ++ [(w, a)] }

def send (d : Daemon) (effect : Effect) : Daemon := { d with sent := d.sent ++ [effect] }

def removeManaged (d : Daemon) (name : String) : Daemon :=
  { d with managed := d.managed.remove name }

def insertManaged (d : Daemon) (name : String) (agent : InternalAgent) : Daemon :=
  { d with managed := d.managed.insert name agent }

def workerName (jobId : JobId) : String := "__job_" ++ jobId

/-- `run_id` of the job, empty if there is no such job. -/
def jobRunId (d : Daemon) (jobId : JobId) : RunId :=
  ((d.engine.store.getJob jobId).map (·.runId)).getD ""

/-- Stops the worker if it is there. -/
def stopWorker (d : Daemon) (worker : String) : Daemon :=
  if d.managed.contains worker then d.send (.stop worker) else d

/-! ## Workers -/

def managedAgent (agent : AgentConfig) : InternalAgent where
  status := .starting
  restartCount := 0
  lastError := none
  tokensUsed := 0
  pid := none
  maxRestarts := agent.maxRestarts
  restartBackoffMs := agent.restartBackoffMs
  restartAt := none
  supportsDirectChat := true

def jobWorker (supportsDirectChat : Bool) : InternalAgent where
  status := .running
  restartCount := 0
  lastError := none
  tokensUsed := 0
  pid := none
  maxRestarts := 0
  restartBackoffMs := 1000
  restartAt := none
  supportsDirectChat := supportsDirectChat

def spawnManagedAgent (d : Daemon) (agent : AgentConfig) : Daemon :=
  (d.send (.spawn agent.name)).insertManaged agent.name (managedAgent agent)

def sandboxRequested (d : Daemon) : Bool :=
  d.sandboxOverride.getD (d.currentConfig.daemon.isolation != "none")

/-- The event sent for a job whose profile is in no agent's config. -/
def missingProfile (job : Job) : Json :=
  .obj [("type", .str "job_failed"), ("job_id", .str job.jobId),
    ("error", .str ("no agent profile '" ++ job.profileId ++ "' found in config")),
    ("retryable", .bool false)]

/-- Spawn a temporary worker process for an orchestration job. -/
def spawnJobWorker (w : World) (d : Daemon) (job : Job) : Daemon :=
  let worker := workerName job.jobId
  if d.capsule && d.sandboxRequested then
    (d.send (.spawnCapsule job.jobId)).insertManaged worker (jobWorker false)
  else
    match d.currentConfig.agents.find? (fun a => a.name == job.profileId) with
    -- the job keeps its slot until the event is taken from the queue
    | none => d.send (.event (missingProfile job))
    | some agent =>
      let inputArtifacts := (job.inputArtifactIds.filterMap d.engine.store.getArtifact).map (·.path)
      let d := d.send (.spawn agent.name)
      let d :=
        -- a participant gets its first instructions as a chat message
        if (d.engine.store.allChannelsForJob w job.jobId).isEmpty then
          d.send (.sendJob worker job.jobId job.instruction job.workspaceDir inputArtifacts)
        else d.send (.sendMessage worker (buildChannelJobSetupPrompt job inputArtifacts))
      d.insertManaged worker (jobWorker true)

/-- Starts and spawns the next ready job while there is one, at most `fuel` times. -/
def spawnReady (w : World) (r : RunId) : Nat → Daemon → Daemon
  | 0, d => d
  | fuel + 1, d =>
    match (d.engine.startNext w).1 with
    | none => d.act w (.call r .startNext)
    | some job => spawnReady w r fuel ((d.act w (.call r .startNext)).spawnJobWorker w job)

/-- The spawn loop. Every round takes an id off the queue. -/
def spawnLoop (w : World) (r : RunId) (d : Daemon) : Daemon :=
  spawnReady w r (d.engine.readyQueue.length + 1) d

/-- Sends an activated channel's initial message to its first participant. -/
def sendInitial (d : Daemon) (channelId : ChannelId) : Daemon :=
  match d.engine.store.getChannel channelId with
  | none => d
  | some ch =>
    match ch.history, ch.initialMessage, ch.participants with
    | [], some message, jobId :: _ =>
      if d.managed.contains (workerName jobId) then
        d.send (.sendChannelMessage (workerName jobId) channelId message)
      else d
    | _, _, _ => d

def activateChannels (w : World) (r : RunId) (d : Daemon) : Daemon :=
  (d.engine.activateReadyChannels w).1.foldl sendInitial (d.act w (.call r .activateReadyChannels))

/-- How the handlers of orchestrator events end. -/
def finish (w : World) (r : RunId) (d : Daemon) : Daemon :=
  (activateChannels w r (spawnLoop w r d)).act w (.persistRunState r)

/-! ## Peers of a failed job -/

/-- Kills one peer of a failed job. -/
def killPeer (w : World) (r : RunId) (jobId : JobId) (d : Daemon) (killId : JobId) : Daemon :=
  ((d.stopWorker (workerName killId)).removeManaged (workerName killId)).act w
    (.call r (.markFailed killId ("channel peer '" ++ jobId ++ "' failed (KillAll)")))

def notifyPeer (message : String) (d : Daemon) (peerId : JobId) : Daemon :=
  if d.managed.contains (workerName peerId) then d.send (.sendMessage (workerName peerId) message)
  else d

/-- One channel of a failed job: its peers are killed or notified. -/
def failChannel (w : World) (r : RunId) (jobId : JobId) (d : Daemon) (chId : ChannelId) : Daemon :=
  let action := (d.engine.handleChannelPeerFailure chId jobId).1
  let d := d.act w (.call r (.handleChannelPeerFailure chId jobId))
  match action with
  | .killParticipants jobIds => jobIds.foldl (killPeer w r jobId) d
  | .notifyPeers jobIds message => jobIds.foldl (notifyPeer message) d
  | _ => d

def handleChannelPeerFailures (w : World) (r : RunId) (jobId : JobId) (d : Daemon) : Daemon :=
  ((d.engine.store.channelsForJob w jobId).map (·.channelId)).foldl (failChannel w r jobId) d

/-! ## Participants of a closed channel -/

/-- The job and its channels, if it has any. -/
def collectJobChannels (w : World) (d : Daemon) (jobId : JobId) : Option (Job × List Channel) :=
  match d.engine.store.getJob jobId with
  | none => none
  | some job =>
    match d.engine.store.allChannelsForJob w jobId with
    | [] => none
    | channels => some (job, channels)

/-- Writes the artifact's file and, where that succeeds, its record. -/
def persistChannelArtifact (w : World) (r : RunId) (d : Daemon) (job : Job) (content : String) :
    List ArtifactId × Daemon :=
  let artifactId := (genId w d.engine.ids "art").1
  -- the id is used up whether or not the file can be written
  let d := d.act w (.genId "art")
  let path := job.workspaceDir.join "channel-output.md"
  if w.writeOk path then
    let artifact : Artifact :=
      { artifactId := artifactId
        runId := job.runId
        jobId := job.jobId
        kind := "markdown"
        path := path
        summary := .ofList (content.toList.take 200)
        createdAt := w.now }
    ([artifactId], (d.act w (.call r (.createArtifact artifact))).act w (.persistArtifact artifact))
  else ([], d)

def synthesizeChannelArtifact (w : World) (r : RunId) (d : Daemon) (jobId : JobId)
    (finalResponse : Option String) : List ArtifactId × Daemon :=
  match d.collectJobChannels w jobId with
  | none => ([], d)
  | some (job, channels) =>
    d.persistChannelArtifact w r job (buildChannelArtifactContent job channels finalResponse)

/-- Asks a job's worker for its final answer; an empty one does not count. -/
def finalResponse (w : World) (d : Daemon) (jobId : JobId) : Option String × Daemon :=
  match d.managed.get (workerName jobId), d.collectJobChannels w jobId with
  | some internal, some (job, channels) =>
    if internal.supportsDirectChat then
      let prompt := buildChannelCompletionPrompt job channels
      ((w.chat (workerName jobId) prompt).filter (fun t => !(Text.trim t.toList).isEmpty),
        d.send (.chat (workerName jobId) prompt))
    else (none, d)
  | _, _ => (none, d)

/-- Completes a running participant of a closed channel unless it is in another open one. -/
def completeParticipant (w : World) (r : RunId) (channelId : ChannelId) (d : Daemon)
    (jobId : JobId) : Daemon :=
  let stillHasOpenChannels := (d.engine.store.allChannelsForJob w jobId).any
    (fun ch => ch.channelId != channelId && !ch.closed)
  let isRunning := ((d.engine.store.getJob jobId).map (fun j => j.status == .running)).getD false
  if isRunning && !stillHasOpenChannels then
    let (response, d) := d.finalResponse w jobId
    let d := (d.stopWorker (workerName jobId)).removeManaged (workerName jobId)
    let (artifactIds, d) := d.synthesizeChannelArtifact w r jobId response
    d.act w (.call r (.markCompleted jobId artifactIds))
  else d

def completeClosedChannelParticipants (w : World) (r : RunId) (d : Daemon)
    (channelId : ChannelId) : Daemon :=
  match d.engine.store.getChannel channelId with
  | none => d
  | some channel => channel.participants.foldl (completeParticipant w r channelId) d

/-! ## Orchestrator events -/

/-- The result of a handler: the daemon afterwards, or as it was when a slice aborted it. -/
abbrev Handled := Except Daemon Daemon

/-- What becomes of a planner's first output artifact: its text is a plan that is
accepted, or the planner's job is failed. -/
def plannerOutput (w : World) (r : RunId) (jobId : JobId) (artifacts : List ArtifactId)
    (d : Daemon) : Handled :=
  match artifacts.head?.bind d.engine.store.getArtifact with
  | none => .ok d
  | some artifact =>
    match extractJson ((w.readToString artifact.path).getD "") with
    -- slicing the text from `{` to a `}` before it panics
    | none => .error d
    | some json =>
      match w.serde.planFromStr json with
      | .error e => .ok (d.act w (.call r (.markFailed jobId ("malformed plan output: " ++ e))))
      | .ok plan =>
        if (validatePlan plan).isEmpty then .ok (d.act w (.call r (.acceptPlan r jobId plan)))
        else
          .ok (d.act w (.call r (.markFailed jobId
            ("invalid plan: " ++ String.intercalate "; " (validatePlan plan)))))

/-- What becomes of a reviewer's first output artifact: its decision is carried out. -/
def reviewerOutput (w : World) (r : RunId) (jobId : JobId) (d : Daemon) : Handled :=
  match (d.engine.store.getJob jobId).bind (fun j => j.outputArtifactIds.head?) with
  | none => .ok d
  | some artifactId =>
    match d.engine.store.getArtifact artifactId with
    | none => .ok d
    | some artifact =>
      match parseReviewDecision w ((w.readToString artifact.path).getD "") with
      | none => .error d
      | some (.revise feedback) =>
        .ok (d.act w (.call r (.handleReviewCompletion jobId (.revise feedback)
          d.currentConfig.daemon.maxRevisions)))
      | some _ => .ok d

/-- Whether the job has the role. -/
def hasRole (d : Daemon) (jobId : JobId) (role : String) : Bool :=
  ((d.engine.store.getJob jobId).map (fun j => j.role == role)).getD false

def jobCompleted (w : World) (d : Daemon) (jobId : JobId) (artifacts : List ArtifactId) : Handled :=
  let isPlanner := d.hasRole jobId "planner"
  let r := d.jobRunId jobId
  let d := (d.removeManaged (workerName jobId)).act w (.call r (.markCompleted jobId artifacts))
  let planned := if isPlanner then d.plannerOutput w r jobId artifacts else .ok d
  match planned with
  -- the job stays completed, and nothing is spawned or persisted
  | .error d => .error d
  | .ok d =>
    let reviewed := if d.hasRole jobId "reviewer" then d.reviewerOutput w r jobId else .ok d
    match reviewed with
    | .error d => .error d
    | .ok d => .ok (finish w r d)

def jobFailed (w : World) (d : Daemon) (jobId : JobId) (error : String) : Daemon :=
  let r := d.jobRunId jobId
  let d := handleChannelPeerFailures w r jobId (d.removeManaged (workerName jobId))
  finish w r (d.act w (.call r (.markFailed jobId error)))

/-- `run_id` of the channel, empty if there is no such channel. -/
def channelRunId (d : Daemon) (channelId : ChannelId) : RunId :=
  ((d.engine.store.getChannel channelId).map (·.runId)).getD ""

def routeTo (channelId message : String) (d : Daemon) (jobId : JobId) : Daemon :=
  if d.managed.contains (workerName jobId) then
    d.send (.sendChannelMessage (workerName jobId) channelId message)
  else d

def channelMessage (w : World) (d : Daemon) (channelId fromJob content : String) : Daemon :=
  let r := d.channelRunId channelId
  let action := (d.engine.routeChannelMessage w channelId fromJob content).1
  let d := d.act w (.call r (.routeChannelMessage channelId fromJob content))
  let d := match action with
    | .sendTo jobId message => routeTo channelId message d jobId
    | .broadcast jobIds message => jobIds.foldl (routeTo channelId message) d
    | .close chId => d.completeClosedChannelParticipants w r chId
    | _ => d
  finish w r d

def channelDone (w : World) (d : Daemon) (channelId fromJob : String) : Daemon :=
  let r := d.channelRunId channelId
  let action := (d.engine.handleChannelDone channelId fromJob).1
  let d := d.act w (.call r (.handleChannelDone channelId fromJob))
  let d := match action with
    | .close _ => d.completeClosedChannelParticipants w r channelId
    | _ => d
  finish w r d

/-- The artifact an event announces. -/
def announcedArtifact (w : World) (d : Daemon) (event : Json) : Artifact where
  artifactId := event.strOr "artifact_id" ""
  runId := d.jobRunId (event.strOr "job_id" "")
  jobId := event.strOr "job_id" ""
  kind := event.strOr "kind" ""
  path := event.strOr "path" ""
  summary := event.strOr "summary" ""
  createdAt := w.now

def artifactProduced (w : World) (d : Daemon) (event : Json) : Daemon :=
  let artifact := d.announcedArtifact w event
  -- the row is written first, also for a job that the engine does not know
  (d.act w (.persistArtifact artifact)).act w (.call artifact.runId (.createArtifact artifact))

/-- An event from a worker, told apart by its `type`. -/
def handleEvent (w : World) (d : Daemon) (event : Json) : Handled :=
  let jobId := event.strOr "job_id" ""
  match event.strOr "type" "" with
  | "heartbeat" => .ok (d.act w (.call "" (.recordHeartbeat jobId)))
  | "progress" => .ok (d.act w (.call "" (.recordHeartbeat jobId)))
  | "job_completed" => d.jobCompleted w jobId (event.strings "output_artifact_ids")
  | "job_failed" => .ok (d.jobFailed w jobId (event.strOr "error" "unknown"))
  | "channel_message" =>
    .ok (d.channelMessage w (event.strOr "channel_id" "") (event.strOr "from_job" "")
      (event.strOr "content" ""))
  | "channel_done" =>
    .ok (d.channelDone w (event.strOr "channel_id" "") (event.strOr "from_job" ""))
  | "artifact_produced" => .ok (d.artifactProduced w event)
  | _ => .ok d

/-! ## Agents and commands -/

/-- A stopped or failed agent is scheduled for a restart while it has any left. -/
def InternalAgent.scheduleRestart (w : World) (agent : InternalAgent) : InternalAgent :=
  if (agent.status = .stopped ∨ agent.status = .error) ∧ agent.restartCount < agent.maxRestarts then
    { agent with
      status := .restartPending
      restartAt := some
        (w.instant + agent.restartBackoffMs * (2 ^ agent.restartCount % 2 ^ 64) % 2 ^ 64) }
  else agent

def agentUpdate (w : World) (d : Daemon) (update : AgentStateUpdate) : Daemon :=
  match d.managed.get update.name with
  | none => d
  | some agent =>
    let agent := { agent with
      tokensUsed := agent.tokensUsed + update.tokensDelta
      status := update.status
      lastError := update.error.or agent.lastError
      pid := update.pid.or agent.pid }
    d.insertManaged update.name (InternalAgent.scheduleRestart w agent)

/-- Starts the named agent if the config has it. -/
def startConfigured (d : Daemon) (name done : String) : Daemon :=
  match d.currentConfig.agents.find? (fun a => a.name == name) with
  | some agent =>
    (d.spawnManagedAgent agent).send (.reply (.ok ("agent '" ++ name ++ "' " ++ done)))
  | none => d.send (.reply (.error ("agent '" ++ name ++ "' not found in config")))

def startAgent (d : Daemon) (name : String) : Daemon :=
  match d.managed.get name with
  | some agent =>
    if agent.status ≠ .stopped ∧ agent.status ≠ .error then
      d.send (.reply (.error ("agent '" ++ name ++ "' is already " ++ agent.status.text)))
    else (d.removeManaged name).startConfigured name "started"
  | none => d.startConfigured name "started"

def restartAgent (d : Daemon) (name : String) : Daemon :=
  ((d.stopWorker name).removeManaged name).startConfigured name "restarted"

def submitRun (w : World) (d : Daemon) (task : String) : Daemon :=
  let r := (d.engine.submitRun w task).1
  (finish w r (d.act w (.call r (.submitRun task)))).send (.reply (.ok r))

/-- The workers of the running jobs of a run are stopped and forgotten. -/
def stopWorkersOf (w : World) (d : Daemon) (r : RunId) : Daemon :=
  ((d.engine.jobsToCancel w r).filter (fun entry => entry.2 == .running)).foldl
    (fun d entry => (d.stopWorker (workerName entry.1)).removeManaged (workerName entry.1)) d

/-- Cancel a running run: its workers are stopped, its jobs failed. -/
def cancelRun (w : World) (d : Daemon) (r : RunId) : Except String String × Daemon :=
  match (d.engine.cancelRun w r).1 with
  -- the workers to stop are those of the jobs that run before the cancellation
  | .error e => (.error e, d)
  | .ok message => (.ok message, (d.stopWorkersOf w r).act w (.call r (.cancelRun r)))

def handleCommand (w : World) (d : Daemon) : DaemonCommand → Daemon
  | .start name => d.startAgent name
  | .restart name => d.restartAgent name
  | .submitRun task => d.submitRun w task
  | .cancelRun r =>
    match d.cancelRun w r with
    | (.ok message, d) => (d.act w (.persistRunState r)).send (.reply (.ok message))
    | (.error e, d) => d.send (.reply (.error e))
  -- queries leave the daemon as it is; their replies are not modelled
  | .getRunStatus _ | .listRuns | .getRunResult _ | .getMetrics => d

/-! ## Poll ticks -/

/-- Adds the agents of a new config that are to start, and drops everything else
that is managed and not among them. -/
def applyConfigChanges (w : World) (d : Daemon) (config : Config) : Daemon :=
  let started := config.agents.filter (·.autoStart)
  -- the workers of jobs are managed too, under names of their own
  let toRemove := (d.managed.keysIn (w.order .managed)).filter
    (fun name => !(started.map (·.name)).contains name)
  let d := toRemove.foldl (fun d name => (d.stopWorker name).removeManaged name) d
  started.foldl
    (fun d agent => if d.managed.contains agent.name then d else d.spawnManagedAgent agent) d

def reloadConfig (w : World) (d : Daemon) : Daemon :=
  match w.loadConfig with
  | none => d
  | some config =>
    if w.configHash config.hashed = d.lastConfigHash then d
    else
      { d.applyConfigChanges w config with
        currentConfig := config
        lastConfigHash := w.configHash config.hashed }

/-- Whether an active job is waiting for its turn in an open channel. -/
def shouldRefresh (w : World) (d : Daemon) (jobId : JobId) : Bool :=
  match d.managed.get (workerName jobId) with
  | none => false
  | some internal =>
    internal.supportsDirectChat && internal.status == .idle &&
      ((d.engine.store.getJob jobId).map (fun j => j.status == .running)).getD false &&
      (d.engine.store.allChannelsForJob w jobId).any (fun ch => !ch.closed)

def refreshHeartbeats (w : World) (d : Daemon) : Daemon :=
  (d.engine.activeJobs.keysIn (w.order .activeJobs)).foldl
    (fun d jobId => if d.shouldRefresh w jobId then d.act w (.call "" (.recordHeartbeat jobId))
      else d) d

/-- A job without a heartbeat for too long is failed, like one that reports it. -/
def failStaleJob (w : World) (d : Daemon) (jobId : JobId) : Daemon :=
  let r := d.jobRunId jobId
  let d := (d.stopWorker (workerName jobId)).removeManaged (workerName jobId)
  -- its peers learn of it before it is failed, as for a reported failure
  let d := handleChannelPeerFailures w r jobId d
  finish w r (d.act w (.call r (.markFailed jobId "heartbeat timeout")))

def handleStaleJobs (w : World) (d : Daemon) : Daemon :=
  (d.engine.staleJobs w 120000).foldl (failStaleJob w) d

/-- The runs that are over and were last written before the cutoff. -/
def expiredRuns (w : World) (d : Daemon) : List RunId :=
  ((d.engine.store.listRuns w).filter (fun run =>
    (run.status == .completed || run.status == .failed || run.status == .cancelled) &&
      decide (run.updatedAt + d.currentConfig.daemon.runTtlDays * 86400000 < w.now))).map (·.runId)

/-- Removes a run with the files of its artifacts. -/
def expireRun (w : World) (d : Daemon) (r : RunId) : Daemon :=
  ((d.engine.store.removeRun w r).1.foldl (fun d path => d.send (.removeFile path)) d).act w
    (.expire r)

def cleanup (w : World) (d : Daemon) : Daemon :=
  if 0 < d.currentConfig.daemon.runTtlDays ∧ 3600000 < w.instant - d.lastCleanup then
    (d.expiredRuns w).foldl (expireRun w) { d with lastCleanup := w.instant }
  else d

/-- Restarts an agent whose time has come, with one more restart counted. -/
def restartDue (d : Daemon) (name : String) : Daemon :=
  match d.currentConfig.agents.find? (fun a => a.name == name) with
  | none => d
  | some agent =>
    let restartCount := ((d.managed.get name).map (·.restartCount)).getD 0
    ((d.removeManaged name).send (.spawn agent.name)).insertManaged name
      { managedAgent agent with restartCount := restartCount + 1 }

def restartAgents (w : World) (d : Daemon) : Daemon :=
  ((d.managed.keysIn (w.order .managed)).filter (fun name =>
    match d.managed.get name with
    | none => false
    | some agent =>
      agent.status == .restartPending &&
        (agent.restartAt.map (fun t => decide (t ≤ w.instant))).getD false)).foldl restartDue d

def tick (w : World) (d : Daemon) : Daemon :=
  restartAgents w (cleanup w (handleStaleJobs w (refreshHeartbeats w (reloadConfig w d))))

/-! ## Start and shutdown -/

/-- Cancels the runs that are under way, and exits. -/
def shutdown (w : World) (d : Daemon) : Daemon :=
  let running := ((d.engine.store.listRuns w).filter
    (fun run => run.status == .running || run.status == .pending)).map (·.runId)
  let d := running.foldl (fun d r => (d.cancelRun w r).2.act w (.persistRunState r)) d
  { (d.managed.keysIn (w.order .managed)).foldl (fun d name => d.send (.stop name)) d with
    alive := false }

def boot (w : World) (d : Daemon) : Daemon :=
  match w.startConfig with
  | none => { d with alive := false }
  | some config =>
    let d := { d with
      alive := true
      managed := .empty
      currentConfig := config
      lastConfigHash := w.configHash config.hashed
      lastCleanup := w.instant }
    (config.agents.filter (·.autoStart)).foldl spawnManagedAgent (d.act w .hydrate)

/-! ## The main loop -/

def handle (w : World) (d : Daemon) : Input → Handled
  | .update u => .ok (d.agentUpdate w u)
  | .command c => .ok (d.handleCommand w c)
  | .event v => d.handleEvent w v
  | .tick => .ok (tick w d)
  | .shutdown => .ok (d.shutdown w)
  | .start => .ok (d.boot w)

/-- Handles one input. A process that is not running only ever starts; one that a
slice aborts stays down until it does. -/
def step (d : Daemon) (x : World × Input) : Daemon :=
  let d := { d with sent := [], calls := [] }
  match d.alive, x.2 with
  -- without a process nothing but a start has an effect
  | false, .start => d.boot x.1
  | false, _ => d
  | true, i =>
    match d.handle x.1 i with
    | .ok d' => d'
    | .error d' => { d' with alive := false }

/-- Before the first start: no process, and a new database if there is to be one. -/
def off (persistent : Bool) (sandboxOverride : Option Bool) (capsule : Bool) : Daemon where
  alive := false
  core :=
    { engine := new 4
      db := if persistent then some .new else none }
  managed := .empty
  currentConfig :=
    { daemon :=
        { isolation := "none"
          workerBinary := none
          zeptoclawBinary := none
          runTtlDays := 0
          security := none
          cgroupRequired := none
          maxRevisions := 0 }
      agents := [] }
  lastConfigHash := 0
  lastCleanup := 0
  sandboxOverride := sandboxOverride
  capsule := capsule
  sent := []
  calls := []

end Daemon

end ZeptoPM
