import ZeptoPM.World

/- The in-memory store of runs, jobs, artifacts and channels: four tables keyed
   by the id each record carries. The `list` functions walk a table in the order
   the world gives it. -/
namespace ZeptoPM

structure RunStore where
  runs : Table Run.runId
  jobs : Table Job.jobId
  artifacts : Table Artifact.artifactId
  channels : Table Channel.channelId

namespace RunStore

def new : RunStore := ⟨.empty, .empty, .empty, .empty⟩

def createRun (s : RunStore) (run : Run) : RunStore := { s with runs := s.runs.put run }

def updateRun (s : RunStore) (run : Run) : RunStore := { s with runs := s.runs.put run }

def getRun (s : RunStore) (runId : RunId) : Option Run := s.runs.get runId

/-- A write through `get_run_mut`. -/
def alterRun (s : RunStore) (runId : RunId) (f : Run → Run)
    (hf : ∀ run, (f run).runId = run.runId) : RunStore :=
  { s with runs := s.runs.alter runId f hf }

def listRuns (w : World) (s : RunStore) : List Run := s.runs.valuesIn (w.order .runs)

def createJob (s : RunStore) (job : Job) : RunStore := { s with jobs := s.jobs.put job }

def updateJob (s : RunStore) (job : Job) : RunStore := { s with jobs := s.jobs.put job }

def getJob (s : RunStore) (jobId : JobId) : Option Job := s.jobs.get jobId

/-- A write through `get_job_mut`. -/
def alterJob (s : RunStore) (jobId : JobId) (f : Job → Job)
    (hf : ∀ j, (f j).jobId = j.jobId) : RunStore :=
  { s with jobs := s.jobs.alter jobId f hf }

def listRunJobs (w : World) (s : RunStore) (runId : RunId) : List Job :=
  (s.jobs.valuesIn (w.order .jobs)).filter (fun j => j.runId == runId)

def createArtifact (s : RunStore) (artifact : Artifact) : RunStore :=
  { s with artifacts := s.artifacts.put artifact }

def getArtifact (s : RunStore) (artifactId : ArtifactId) : Option Artifact :=
  s.artifacts.get artifactId

def createChannel (s : RunStore) (channel : Channel) : RunStore :=
  { s with channels := s.channels.put channel }

def getChannel (s : RunStore) (channelId : ChannelId) : Option Channel :=
  s.channels.get channelId

/-- A write through `get_channel_mut`. -/
def alterChannel (s : RunStore) (channelId : ChannelId) (f : Channel → Channel)
    (hf : ∀ c, (f c).channelId = c.channelId) : RunStore :=
  { s with channels := s.channels.alter channelId f hf }

def listRunChannels (w : World) (s : RunStore) (runId : RunId) : List Channel :=
  (s.channels.valuesIn (w.order .channels)).filter (fun c => c.runId == runId)

/-- The active channels the job takes part in. -/
def channelsForJob (w : World) (s : RunStore) (jobId : JobId) : List Channel :=
  (s.channels.valuesIn (w.order .channels)).filter
    (fun c => c.active && c.participants.contains jobId)

/-- Every channel the job takes part in, active or not. -/
def allChannelsForJob (w : World) (s : RunStore) (jobId : JobId) : List Channel :=
  (s.channels.valuesIn (w.order .channels)).filter (fun c => c.participants.contains jobId)

/-- Removes a run with its jobs, artifacts and channels; returns the paths of
the artifacts removed. -/
def removeRun (w : World) (s : RunStore) (runId : RunId) : List PathBuf × RunStore :=
  let jobIds := (s.listRunJobs w runId).map (·.jobId)
  let removed := (s.artifacts.valuesIn (w.order .artifacts)).filter (fun a => a.runId == runId)
  let channelIds := (s.listRunChannels w runId).map (·.channelId)
  (removed.map (·.path),
    { runs := s.runs.remove runId
      jobs := s.jobs.removeAll jobIds
      artifacts := s.artifacts.removeAll (removed.map (·.artifactId))
      channels := s.channels.removeAll channelIds })

/-! ## Reading back -/

variable {w : World} {s : RunStore}

theorem jobId_of_getJob {k : JobId} {job : Job} (h : s.getJob k = some job) : job.jobId = k :=
  s.jobs.key_of_get h

theorem runId_of_getRun {k : RunId} {run : Run} (h : s.getRun k = some run) : run.runId = k :=
  s.runs.key_of_get h

theorem channelId_of_getChannel {k : ChannelId} {c : Channel} (h : s.getChannel k = some c) :
    c.channelId = k := s.channels.key_of_get h

@[simp] theorem getJob_new (k : JobId) : new.getJob k = none := rfl
@[simp] theorem getRun_new (k : RunId) : new.getRun k = none := rfl
@[simp] theorem getChannel_new (k : ChannelId) : new.getChannel k = none := rfl

theorem getRun_createRun (s : RunStore) (run : Run) (k : RunId) :
    (s.createRun run).getRun k = if k = run.runId then some run else s.getRun k :=
  Table.get_put ..

theorem getRun_updateRun (s : RunStore) (run : Run) (k : RunId) :
    (s.updateRun run).getRun k = if k = run.runId then some run else s.getRun k :=
  Table.get_put ..

theorem getRun_alterRun (s : RunStore) (r k : RunId) (f : Run → Run)
    (hf : ∀ run, (f run).runId = run.runId) :
    (s.alterRun r f hf).getRun k = if k = r then (s.getRun r).map f else s.getRun k :=
  Table.get_alter _ _ _ _ hf

theorem getJob_createJob (s : RunStore) (job : Job) (k : JobId) :
    (s.createJob job).getJob k = if k = job.jobId then some job else s.getJob k :=
  Table.get_put ..

theorem getJob_alterJob (s : RunStore) (j k : JobId) (f : Job → Job)
    (hf : ∀ j, (f j).jobId = j.jobId) :
    (s.alterJob j f hf).getJob k = if k = j then (s.getJob j).map f else s.getJob k :=
  Table.get_alter _ _ _ _ hf

theorem getChannel_alterChannel (s : RunStore) (c k : ChannelId) (f : Channel → Channel)
    (hf : ∀ c, (f c).channelId = c.channelId) :
    (s.alterChannel c f hf).getChannel k =
      if k = c then (s.getChannel c).map f else s.getChannel k :=
  Table.get_alter _ _ _ _ hf

@[simp] theorem getJob_createRun (s : RunStore) (run : Run) (k : JobId) :
    (s.createRun run).getJob k = s.getJob k := rfl
@[simp] theorem getChannel_createRun (s : RunStore) (run : Run) (k : ChannelId) :
    (s.createRun run).getChannel k = s.getChannel k := rfl
@[simp] theorem getJob_updateRun (s : RunStore) (run : Run) (k : JobId) :
    (s.updateRun run).getJob k = s.getJob k := rfl
@[simp] theorem getChannel_updateRun (s : RunStore) (run : Run) (k : ChannelId) :
    (s.updateRun run).getChannel k = s.getChannel k := rfl
@[simp] theorem getJob_alterRun (s : RunStore) (r : RunId) (f : Run → Run)
    (hf : ∀ run, (f run).runId = run.runId) (k : JobId) :
    (s.alterRun r f hf).getJob k = s.getJob k := rfl
@[simp] theorem getChannel_alterRun (s : RunStore) (r : RunId) (f : Run → Run)
    (hf : ∀ run, (f run).runId = run.runId) (k : ChannelId) :
    (s.alterRun r f hf).getChannel k = s.getChannel k := rfl
@[simp] theorem getRun_createJob (s : RunStore) (job : Job) (k : RunId) :
    (s.createJob job).getRun k = s.getRun k := rfl
@[simp] theorem getChannel_createJob (s : RunStore) (job : Job) (k : ChannelId) :
    (s.createJob job).getChannel k = s.getChannel k := rfl
@[simp] theorem getRun_alterJob (s : RunStore) (j : JobId) (f : Job → Job)
    (hf : ∀ j, (f j).jobId = j.jobId) (k : RunId) :
    (s.alterJob j f hf).getRun k = s.getRun k := rfl
@[simp] theorem getChannel_alterJob (s : RunStore) (j : JobId) (f : Job → Job)
    (hf : ∀ j, (f j).jobId = j.jobId) (k : ChannelId) :
    (s.alterJob j f hf).getChannel k = s.getChannel k := rfl
@[simp] theorem getRun_alterChannel (s : RunStore) (c : ChannelId) (f : Channel → Channel)
    (hf : ∀ c, (f c).channelId = c.channelId) (k : RunId) :
    (s.alterChannel c f hf).getRun k = s.getRun k := rfl
@[simp] theorem getJob_alterChannel (s : RunStore) (c : ChannelId) (f : Channel → Channel)
    (hf : ∀ c, (f c).channelId = c.channelId) (k : JobId) :
    (s.alterChannel c f hf).getJob k = s.getJob k := rfl
@[simp] theorem getRun_createArtifact (s : RunStore) (a : Artifact) (k : RunId) :
    (s.createArtifact a).getRun k = s.getRun k := rfl
@[simp] theorem getJob_createArtifact (s : RunStore) (a : Artifact) (k : JobId) :
    (s.createArtifact a).getJob k = s.getJob k := rfl
@[simp] theorem getChannel_createArtifact (s : RunStore) (a : Artifact) (k : ChannelId) :
    (s.createArtifact a).getChannel k = s.getChannel k := rfl

theorem mem_listRunJobs {r : RunId} {job : Job} :
    job ∈ s.listRunJobs w r ↔ s.getJob job.jobId = some job ∧ job.runId = r := by
  unfold listRunJobs
  rw [List.mem_filter, Table.mem_valuesIn, beq_iff_eq]
  rfl

theorem listRunJobs_nodup_ids (w : World) (s : RunStore) (r : RunId) :
    ((s.listRunJobs w r).map (·.jobId)).Nodup :=
  ((List.filter_sublist).map _).nodup (s.jobs.valuesIn_nodup_keys _)

theorem mem_listRunChannels {r : RunId} {c : Channel} :
    c ∈ s.listRunChannels w r ↔ s.getChannel c.channelId = some c ∧ c.runId = r := by
  unfold listRunChannels
  rw [List.mem_filter, Table.mem_valuesIn, beq_iff_eq]
  rfl

theorem mem_channelsForJob {j : JobId} {c : Channel} :
    c ∈ s.channelsForJob w j ↔
      s.getChannel c.channelId = some c ∧ c.active = true ∧ j ∈ c.participants := by
  unfold channelsForJob
  rw [List.mem_filter, Table.mem_valuesIn, Bool.and_eq_true, List.contains_iff_mem]
  rfl

theorem mem_allChannelsForJob {j : JobId} {c : Channel} :
    c ∈ s.allChannelsForJob w j ↔ s.getChannel c.channelId = some c ∧ j ∈ c.participants := by
  unfold allChannelsForJob
  rw [List.mem_filter, Table.mem_valuesIn, List.contains_iff_mem]
  rfl

theorem getRun_removeRun (w : World) (s : RunStore) (r k : RunId) :
    (s.removeRun w r).2.getRun k = if k = r then none else s.getRun k := Table.get_remove ..

theorem getJob_removeRun (w : World) (s : RunStore) (r : RunId) (k : JobId) :
    (s.removeRun w r).2.getJob k = (s.getJob k).filter (fun job => !(job.runId == r)) :=
  Table.get_removeAll_filter ..

theorem getChannel_removeRun (w : World) (s : RunStore) (r : RunId) (k : ChannelId) :
    (s.removeRun w r).2.getChannel k = (s.getChannel k).filter (fun c => !(c.runId == r)) :=
  Table.get_removeAll_filter ..

end RunStore

end ZeptoPM
