import Mathlib.Data.List.Dedup
import ZeptoPM.Planner
import ZeptoPM.Scheduler

/- The orchestrator engine: the store, the queue of ready jobs, the jobs that
   hold a concurrency slot and their last heartbeats. The process-wide counter
   behind `gen_id` rides along as `ids`. -/
namespace ZeptoPM

structure OrchestratorEngine where
  store : RunStore
  readyQueue : List JobId
  maxConcurrency : Nat
  activeJobs : HashMap JobId RunId
  lastHeartbeat : HashMap JobId Instant
  ids : IdSupply

/-! ## The writes made to a job -/

/-- The planner job a submitted run starts with. -/
def plannerJob (w : World) (runId : RunId) (rootJobId : JobId) (task : String) : Job where
  jobId := rootJobId
  runId := runId
  parentJobId := none
  role := "planner"
  status := .ready
  instruction := task
  inputArtifactIds := []
  dependsOn := []
  children := []
  profileId := "planner"
  workspaceDir := resolveWorkspace w runId rootJobId
  attempt := 0
  maxAttempts := 3
  createdAt := w.now
  startedAt := none
  finishedAt := none
  outputArtifactIds := []
  error := none
  revisionRound := 0

def submittedRun (w : World) (runId : RunId) (rootJobId : JobId) (task : String) : Run where
  runId := runId
  task := task
  status := .pending
  createdAt := w.now
  updatedAt := w.now
  rootJobId := rootJobId
  finalArtifactIds := []
  metadata := []

def Job.start (w : World) (j : Job) : Job :=
  { j with status := .running, startedAt := some w.now, attempt := u32Succ j.attempt }

def Run.start (w : World) (r : Run) : Run :=
  if r.status = .pending then { r with status := .running, updatedAt := w.now } else r

def Job.complete (w : World) (outputs : List ArtifactId) (j : Job) : Job :=
  { j with status := .completed, finishedAt := some w.now, outputArtifactIds := outputs }

/-- Whether a failure of the job puts it back in the queue. -/
def Job.retries (j : Job) : Bool := j.attempt < j.maxAttempts

def Job.fail (w : World) (error : String) (j : Job) : Job :=
  if j.retries then { j with error := some error, status := .ready, finishedAt := none }
  else { j with error := some error, status := .failed, finishedAt := some w.now }

def Run.cancel (w : World) (r : Run) : Run := { r with status := .cancelled, updatedAt := w.now }

/-- The coder job of a new revision round. -/
def revisedCoder (w : World) (reviewer coder : Job) (newCoderId : JobId) (newRound : Nat)
    (maxRevisions : Nat) (feedback : String) : Job where
  jobId := newCoderId
  runId := reviewer.runId
  parentJobId := reviewer.parentJobId
  role := coder.role
  status := .ready
  instruction := coder.instruction ++ "\n\n--- Reviewer feedback (revision " ++ toString newRound ++
    "/" ++ toString maxRevisions ++ ") ---\n" ++ feedback
  inputArtifactIds := coder.outputArtifactIds
  dependsOn := []
  children := []
  profileId := coder.profileId
  workspaceDir := resolveWorkspace w reviewer.runId newCoderId
  attempt := 0
  maxAttempts := 3
  createdAt := w.now
  startedAt := none
  finishedAt := none
  outputArtifactIds := []
  error := none
  revisionRound := newRound

/-- The reviewer job of a new revision round, waiting for its coder. -/
def revisedReviewer (w : World) (reviewer : Job) (newCoderId newReviewerId : JobId)
    (newRound : Nat) : Job where
  jobId := newReviewerId
  runId := reviewer.runId
  parentJobId := reviewer.parentJobId
  role := reviewer.role
  status := .pending
  instruction := reviewer.instruction
  inputArtifactIds := []
  dependsOn := [newCoderId]
  children := []
  profileId := reviewer.profileId
  workspaceDir := resolveWorkspace w reviewer.runId newReviewerId
  attempt := 0
  maxAttempts := 3
  createdAt := w.now
  startedAt := none
  finishedAt := none
  outputArtifactIds := []
  error := none
  revisionRound := newRound

theorem Job.start_jobId (w : World) (j : Job) : (j.start w).jobId = j.jobId := rfl
theorem Job.complete_jobId (w : World) (o : List ArtifactId) (j : Job) :
    (j.complete w o).jobId = j.jobId := rfl
theorem Job.fail_jobId (w : World) (e : String) (j : Job) : (j.fail w e).jobId = j.jobId := by
  unfold Job.fail
  split <;> rfl
theorem Run.start_runId (w : World) (r : Run) : (r.start w).runId = r.runId := by
  unfold Run.start
  split <;> rfl
theorem Run.cancel_runId (w : World) (r : Run) : (r.cancel w).runId = r.runId := rfl

section
variable (w : World) (j : Job) (o : List ArtifactId) (err : String)

@[simp] theorem Job.start_runId : (j.start w).runId = j.runId := rfl
@[simp] theorem Job.start_status : (j.start w).status = .running := rfl
@[simp] theorem Job.start_dependsOn : (j.start w).dependsOn = j.dependsOn := rfl
@[simp] theorem Job.complete_runId : (j.complete w o).runId = j.runId := rfl
@[simp] theorem Job.complete_status : (j.complete w o).status = .completed := rfl
@[simp] theorem Job.complete_dependsOn : (j.complete w o).dependsOn = j.dependsOn := rfl

@[simp] theorem Job.fail_runId : (j.fail w err).runId = j.runId := by
  unfold Job.fail
  split <;> rfl

@[simp] theorem Job.fail_dependsOn : (j.fail w err).dependsOn = j.dependsOn := by
  unfold Job.fail
  split <;> rfl

@[simp] theorem Job.fail_attempt : (j.fail w err).attempt = j.attempt := by
  unfold Job.fail
  split <;> rfl

@[simp] theorem Job.fail_maxAttempts : (j.fail w err).maxAttempts = j.maxAttempts := by
  unfold Job.fail
  split <;> rfl

theorem Job.fail_status : (j.fail w err).status = if j.retries then .ready else .failed := by
  unfold Job.fail
  split <;> rfl

theorem Job.fail_status_cases :
    (j.fail w err).status = .ready ∨ (j.fail w err).status = .failed := by
  rw [Job.fail_status]
  split
  · exact Or.inl rfl
  · exact Or.inr rfl

theorem Run.start_status_of_ne {r : Run} (h : r.status ≠ .pending) : r.start w = r := by
  unfold Run.start
  rw [if_neg h]

end

/-! ## The writes made to a channel -/

def Channel.activate (c : Channel) : Channel := { c with active := true }

def Channel.close (c : Channel) : Channel := { c with active := false, closed := true }

/-- Records a message and hands the turn on. -/
def Channel.record (w : World) (fromJob : JobId) (content : String) (nextSpeaker newRound : Nat)
    (c : Channel) : Channel :=
  { c with
    history := c.history ++ [{ fromJob, content, timestamp := w.now, round := c.currentRound }]
    currentSpeakerIdx := nextSpeaker
    currentRound := newRound }

theorem Channel.activate_channelId (c : Channel) : c.activate.channelId = c.channelId := rfl
theorem Channel.close_channelId (c : Channel) : c.close.channelId = c.channelId := rfl
theorem Channel.record_channelId (w : World) (f : JobId) (m : String) (i n : Nat) (c : Channel) :
    (c.record w f m i n).channelId = c.channelId := rfl

namespace OrchestratorEngine

def new (maxConcurrency : Nat) : OrchestratorEngine where
  store := RunStore.new
  readyQueue := []
  maxConcurrency := maxConcurrency
  activeJobs := .empty
  lastHeartbeat := .empty
  ids := IdSupply.new

/-- Submit a new run. Creates the run and a planner root job. -/
def submitRun (w : World) (e : OrchestratorEngine) (task : String) : RunId × OrchestratorEngine :=
  let (runId, ids) := genId w e.ids "run"
  let (rootJobId, ids) := genId w ids "job"
  (runId,
    { e with
      store := (e.store.createRun (submittedRun w runId rootJobId task)).createJob
        (plannerJob w runId rootJobId task)
      readyQueue := e.readyQueue ++ [rootJobId]
      ids := ids })

/-- Take the next ready job if under the concurrency limit. -/
def nextJob (e : OrchestratorEngine) : Option Job × OrchestratorEngine :=
  if e.activeJobs.len ≥ e.maxConcurrency then (none, e)
  else
    match e.readyQueue with
    | [] => (none, e)
    | jobId :: rest =>
      match e.store.getJob jobId with
      -- the id is gone from the queue even though there is no such job
      | none => (none, { e with readyQueue := rest })
      | some job =>
        (some job,
          { e with readyQueue := rest, activeJobs := e.activeJobs.insert jobId job.runId })

/-- Mark a job as running. Also transitions the parent run to running if still pending. -/
def markRunning (w : World) (e : OrchestratorEngine) (jobId : JobId) : OrchestratorEngine :=
  match e.activeJobs.get jobId with
  | none => e
  | some runId =>
    { e with
      store := (e.store.alterJob jobId (Job.start w) (Job.start_jobId w)).alterRun runId
        (Run.start w) (Run.start_runId w)
      lastHeartbeat := e.lastHeartbeat.insert jobId w.instant }

/-- Record a heartbeat for an active job. -/
def recordHeartbeat (w : World) (e : OrchestratorEngine) (jobId : JobId) : OrchestratorEngine :=
  if e.activeJobs.contains jobId then
    { e with lastHeartbeat := e.lastHeartbeat.insert jobId w.instant }
  else e

/-- The ids of the active jobs without a heartbeat within the given timeout. -/
def staleJobs (w : World) (e : OrchestratorEngine) (timeout : Nat) : List JobId :=
  (e.activeJobs.keysIn (w.order .activeJobs)).filter (fun jobId =>
    match e.lastHeartbeat.get jobId with
    | some t => w.instant - t > timeout
    | none => true)

/-- Mark a job as completed. Promotes unblocked dependents. Checks run completion. -/
def markCompleted (w : World) (e : OrchestratorEngine) (jobId : JobId)
    (outputArtifactIds : List ArtifactId) : OrchestratorEngine :=
  let e' := { e with
    lastHeartbeat := e.lastHeartbeat.remove jobId
    activeJobs := e.activeJobs.remove jobId
    store := e.store.alterJob jobId (Job.complete w outputArtifactIds)
      (Job.complete_jobId w outputArtifactIds) }
  match e.activeJobs.get jobId with
  -- a report on a job without a slot rewrites the job all the same
  | none => e'
  | some runId =>
    let (promoted, store) := promoteUnblockedJobs w e'.store runId
    { e' with
      readyQueue := e'.readyQueue ++ promoted
      store := (checkRunCompletion w store runId).2 }

/-- Mark a job as failed. Retries if attempts remain. -/
def markFailed (w : World) (e : OrchestratorEngine) (jobId : JobId) (error : String) :
    OrchestratorEngine :=
  let e' := { e with
    lastHeartbeat := e.lastHeartbeat.remove jobId
    activeJobs := e.activeJobs.remove jobId
    store := e.store.alterJob jobId (Job.fail w error) (Job.fail_jobId w error)
    -- the retry is decided on the job as it was before the failure
    readyQueue := match e.store.getJob jobId with
      | some job => if job.retries then e.readyQueue ++ [jobId] else e.readyQueue
      | none => e.readyQueue }
  match e.activeJobs.get jobId with
  | none => e'
  | some runId => { e' with store := (checkRunCompletion w e'.store runId).2 }

/-- Handle completion of a reviewer job. If the decision is "revise" and the
revision limit is not exceeded, creates a new coder and a new reviewer job and
returns their ids. -/
def handleReviewCompletion (w : World) (e : OrchestratorEngine) (reviewerJobId : JobId)
    (decision : ReviewDecision) (maxRevisions : Nat) :
    Option (JobId × JobId) × OrchestratorEngine :=
  match decision with
  | .revise feedback =>
    match e.store.getJob reviewerJobId with
    | none => (none, e)
    | some reviewer =>
      match reviewer.dependsOn with
      | [] => (none, e)
      -- of the reviewer's dependencies the first is taken for its coder
      | coderJobId :: _ =>
        match e.store.getJob coderJobId with
        | none => (none, e)
        | some coder =>
          let newRound := u32Succ reviewer.revisionRound
          if newRound > maxRevisions then (none, e)
          else
            let (newCoderId, ids) := genId w e.ids "job"
            let (newReviewerId, ids) := genId w ids "job"
            (some (newCoderId, newReviewerId),
              { e with
                store := (e.store.createJob
                  (revisedCoder w reviewer coder newCoderId newRound maxRevisions
                    feedback)).createJob
                  (revisedReviewer w reviewer newCoderId newReviewerId newRound)
                readyQueue := e.readyQueue ++ [newCoderId]
                ids := ids })
  | _ => (none, e)

/-- Whether every participant of the channel is a running job. -/
def allRunning (s : RunStore) (c : Channel) : Bool :=
  c.participants.all (fun p => ((s.getJob p).map (fun j => j.status == .running)).getD false)

/-- One channel of the activation scan. -/
def activateChannel (acc : List ChannelId × RunStore) (chId : ChannelId) :
    List ChannelId × RunStore :=
  match acc.2.getChannel chId with
  | none => acc
  | some ch =>
    if allRunning acc.2 ch then
      (acc.1 ++ [chId], acc.2.alterChannel chId Channel.activate Channel.activate_channelId)
    else acc

/-- The inactive, open channels of one run. -/
def activateRunChannels (w : World) (acc : List ChannelId × RunStore) (runId : RunId) :
    List ChannelId × RunStore :=
  (((acc.2.listRunChannels w runId).filter (fun c => !c.active && !c.closed)).map
    (·.channelId)).foldl activateChannel acc

/-- The runs that have an active job, each once. -/
def activeRunIds (w : World) (e : OrchestratorEngine) : List RunId :=
  (w.order .runIds).order (e.activeJobs.valuesIn (w.order .activeJobs)).dedup

/-- Activate channels whose participants are all running. Returns the ids of
the activated channels. -/
def activateReadyChannels (w : World) (e : OrchestratorEngine) :
    List ChannelId × OrchestratorEngine :=
  let (activated, store) := (e.activeRunIds w).foldl (activateRunChannels w) ([], e.store)
  (activated, { e with store := store })

/-- Route a message from a channel participant to the next. Returns the action
the daemon should take. -/
def routeChannelMessage (w : World) (e : OrchestratorEngine) (channelId : ChannelId)
    (fromJob : JobId) (content : String) : ChannelAction × OrchestratorEngine :=
  match e.store.getChannel channelId with
  | none => (.noOp, e)
  | some ch =>
    if !ch.active then (.noOp, e)
    else if ch.participants.isEmpty || !ch.participants.contains fromJob then (.noOp, e)
    else if ch.mode == .turnBased && ch.participants[ch.currentSpeakerIdx]? != some fromJob then
      (.noOp, e)
    else
      let nextIdx := (ch.currentSpeakerIdx + 1) % ch.participants.length
      let newRound := if nextIdx == 0 then u32Succ ch.currentRound else ch.currentRound
      let store := e.store.alterChannel channelId (Channel.record w fromJob content nextIdx newRound)
        (Channel.record_channelId w fromJob content nextIdx newRound)
      -- the message that ends the last round is recorded and passed to nobody
      if ch.maxRounds.any (fun m => newRound ≥ m) then
        (.close channelId,
          { e with store := store.alterChannel channelId Channel.close Channel.close_channelId })
      else
        let action := match ch.mode with
          | .turnBased => .sendTo ((ch.participants[nextIdx]?).getD "") content
          | .stream =>
            match ch.participants.filter (fun p => p != fromJob) with
            | [] => .noOp
            | [target] => .sendTo target content
            | targets => .broadcast targets content
        (action, { e with store := store })

/-- Handle a `channel_done` signal from a participant. -/
def handleChannelDone (e : OrchestratorEngine) (channelId : ChannelId) (fromJob : JobId) :
    ChannelAction × OrchestratorEngine :=
  match e.store.getChannel channelId with
  | none => (.noOp, e)
  | some ch =>
    if !ch.active then (.noOp, e)
    else if !ch.participants.contains fromJob then (.noOp, e)
    else
      (.close channelId,
        { e with store := e.store.alterChannel channelId Channel.close Channel.close_channelId })

/-- Handle peer failure: a participant died or was killed. -/
def handleChannelPeerFailure (e : OrchestratorEngine) (channelId : ChannelId)
    (failedJob : JobId) : ChannelAction × OrchestratorEngine :=
  match e.store.getChannel channelId with
  | none => (.noOp, e)
  | some ch =>
    -- unlike `channel_done`, this closes channels that are not active too
    let surviving := ch.participants.filter (fun p => p != failedJob)
    let e' := { e with
      store := e.store.alterChannel channelId Channel.close Channel.close_channelId }
    match ch.onPeerFailure with
    | .killAll => (.killParticipants surviving, e')
    | .continue =>
      (.notifyPeers surviving ("peer '" ++ failedJob ++ "' disconnected"), e')

/-! ## What the daemon composes -/

/-- `next_job`, and `mark_running` on the job it hands out. -/
def startNext (w : World) (e : OrchestratorEngine) : Option Job × OrchestratorEngine :=
  match e.nextJob with
  | (none, e') => (none, e')
  | (some job, e') => (some job, e'.markRunning w job.jobId)

/-- The ids of the list that name a ready job. -/
def readyAmong (s : RunStore) (ids : List JobId) : List JobId :=
  ids.filter (fun jid => ((s.getJob jid).map (fun j => j.status == .ready)).getD false)

/-- Materialises a plan and queues the jobs that are ready at once. -/
def acceptPlan (w : World) (e : OrchestratorEngine) (runId : RunId) (parentJobId : JobId)
    (plan : ExecutionPlan) : OrchestratorEngine :=
  let (newJobIds, store, ids) := materializePlan w e.store e.ids runId parentJobId plan
  { e with
    store := store
    ids := ids
    readyQueue := e.readyQueue ++ readyAmong store newJobIds }

/-- One job of `cancel_run`: unfinished jobs are failed and counted. -/
def cancelJob (w : World) (acc : OrchestratorEngine × Nat) (entry : JobId × JobStatus) :
    OrchestratorEngine × Nat :=
  if entry.2.unfinished then (acc.1.markFailed w entry.1 "cancelled by user", acc.2 + 1)
  else acc

/-- The jobs of a run with the statuses they have when its cancellation begins. -/
def jobsToCancel (w : World) (e : OrchestratorEngine) (runId : RunId) :
    List (JobId × JobStatus) :=
  (e.store.listRunJobs w runId).map (fun j => (j.jobId, j.status))

/-- Drains the queue of a run and marks it cancelled. -/
def finishCancel (w : World) (e : OrchestratorEngine) (runId : RunId) : OrchestratorEngine :=
  { e with
    readyQueue := e.readyQueue.filter (fun jid =>
      ((e.store.getJob jid).map (fun j => j.runId != runId)).getD true)
    store := e.store.alterRun runId (Run.cancel w) (Run.cancel_runId w) }

/-- Cancel a running run: its jobs are failed, its queued jobs dropped. -/
def cancelRun (w : World) (e : OrchestratorEngine) (runId : RunId) :
    Except String String × OrchestratorEngine :=
  match e.store.getRun runId with
  | none => (.error ("run '" ++ runId ++ "' not found"), e)
  | some run =>
    -- a run that is over stays as it ended
    if run.status != .running && run.status != .pending then
      (.error ("run '" ++ runId ++ "' is already " ++ run.status.text), e)
    else
      let (e', cancelled) := (e.jobsToCancel w runId).foldl (cancelJob w) (e, 0)
      (.ok ("run '" ++ runId ++ "' cancelled (" ++ toString cancelled ++ " jobs cancelled)"),
        e'.finishCancel w runId)

end OrchestratorEngine

end ZeptoPM
