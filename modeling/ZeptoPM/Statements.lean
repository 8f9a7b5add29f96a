import ZeptoPM.Runs
import ZeptoPM.SqlTable

/- The SQL statements of the persistence layer, column by column: what each
   `persist` function binds, which column the parameters go to, and from which
   position each `load` function reads a field. Numbers are bound and read with
   the casts of the source, so a record has to fit its machine types. `StoreOp` is
   an operation on the in-memory store, `mirror` the statement that goes with it;
   `hydrated_mirrors_store` shows that after any sequence of them the tables hold
   the store. The rows are those of `Sqlite.lean`, where a row is a record with
   the same columns: whatever the daemon does, its database is what statements
   make of the empty tables (`stored_run`). -/
namespace ZeptoPM

/-! ## Casts -/

/-- `n as i64`, for a `usize`. -/
def asI64 (n : Nat) : Int := Int.bmod n (2 ^ 64)

/-- `n as usize`, for an `i64`. -/
def asUsize (n : Int) : Nat := (n % ((2 ^ 64 : Nat) : Int)).toNat

theorem bmod_wraps {n m : Nat} (h : n < m) : (Int.bmod n m % (m : Int)).toNat = n := by
  rw [Int.bmod_emod, Int.emod_eq_of_lt (Int.natCast_nonneg n) (Int.ofNat_lt.mpr h),
    Int.toNat_natCast]

theorem asUsize_asI64 {n : Nat} (h : n < 2 ^ 64) : asUsize (asI64 n) = n := bmod_wraps h

/-- The job's counters are `u32`. -/
def Job.Sized (job : Job) : Prop :=
  job.attempt < 2 ^ 32 ∧ job.maxAttempts < 2 ^ 32 ∧ job.revisionRound < 2 ^ 32

/-- The channel's counters are `u32` and `usize`. -/
def Channel.Sized (c : Channel) : Prop :=
  (∀ m ∈ c.maxRounds, m < 2 ^ 32) ∧ c.currentRound < 2 ^ 32 ∧ c.currentSpeakerIdx < 2 ^ 64

instance (job : Job) : Decidable job.Sized := inferInstanceAs (Decidable (_ ∧ _ ∧ _))

abbrev Value := SqlValue SystemTime Json

/-- `row.get(i)` at the type `f` reads. -/
def getColumn {α : Type} (row : List Value) (i : Nat) (f : Value → Option α) : Option α :=
  row[i]?.bind f

/-! ## The statements -/

structure SqlTables where
  runs : SqlTable SystemTime Json
  jobs : SqlTable SystemTime Json
  artifacts : SqlTable SystemTime Json
  channels : SqlTable SystemTime Json

namespace SqlTables

/-- `init_schema` on a new database. -/
def initSchema : SqlTables := ⟨.empty, .empty, .empty, .empty⟩

def runColumns : List String :=
  ["run_id", "task", "status", "created_at", "updated_at", "root_job_id", "final_artifact_ids",
    "metadata"]

def jobColumns : List String :=
  ["job_id", "run_id", "parent_job_id", "role", "status", "instruction", "input_artifact_ids",
    "depends_on", "children", "profile_id", "workspace_dir", "attempt", "max_attempts",
    "revision_round", "created_at", "started_at", "finished_at", "output_artifact_ids", "error"]

def artifactColumns : List String :=
  ["artifact_id", "run_id", "job_id", "kind", "path", "summary", "created_at"]

def channelColumns : List String :=
  ["channel_id", "run_id", "participants", "mode", "max_rounds", "on_peer_failure",
    "current_round", "current_speaker_idx", "active", "closed", "history", "initial_message"]

def runParams (run : Run) : List Value :=
  [.text run.runId, .text run.task, .text run.status.text, .real run.createdAt,
    .real run.updatedAt, .text run.rootJobId, .json (.ofVec run.finalArtifactIds),
    .json (.ofMap run.metadata)]

def jobParams (job : Job) : List Value :=
  [.text job.jobId, .text job.runId, .ofOption .text job.parentJobId, .text job.role,
    .text job.status.text, .text job.instruction, .json (.ofVec job.inputArtifactIds),
    .json (.ofVec job.dependsOn), .json (.ofVec job.children), .text job.profileId,
    .text job.workspaceDir, .integer job.attempt, .integer job.maxAttempts,
    .integer job.revisionRound, .real job.createdAt, .ofOption .real job.startedAt,
    .ofOption .real job.finishedAt, .json (.ofVec job.outputArtifactIds),
    .ofOption .text job.error]

def artifactParams (a : Artifact) : List Value :=
  [.text a.artifactId, .text a.runId, .text a.jobId, .text a.kind, .text a.path, .text a.summary,
    .real a.createdAt]

def channelParams (c : Channel) : List Value :=
  [.text c.channelId, .text c.runId, .json (.ofVec c.participants), .text c.mode.text,
    .ofOption (fun m : Nat => .integer m) c.maxRounds, .text c.onPeerFailure.text,
    .integer c.currentRound, .integer (asI64 c.currentSpeakerIdx),
    .integer (if c.active then 1 else 0), .integer (if c.closed then 1 else 0),
    .json (.ofHistory c.history), .ofOption .text c.initialMessage]

def persistRun (t : SqlTables) (run : Run) : SqlTables :=
  { t with runs := t.runs.insertOrReplace runColumns (runParams run) }

def persistJob (t : SqlTables) (job : Job) : SqlTables :=
  { t with jobs := t.jobs.insertOrReplace jobColumns (jobParams job) }

def persistArtifact (t : SqlTables) (artifact : Artifact) : SqlTables :=
  { t with artifacts := t.artifacts.insertOrReplace artifactColumns (artifactParams artifact) }

def persistChannel (t : SqlTables) (channel : Channel) : SqlTables :=
  { t with channels := t.channels.insertOrReplace channelColumns (channelParams channel) }

def readRun (row : List Value) : Option Run := do
  pure
    { runId := ← getColumn row 0 SqlValue.asString
      task := ← getColumn row 1 SqlValue.asString
      status := .parse (← getColumn row 2 SqlValue.asString)
      createdAt := ← getColumn row 3 SqlValue.asReal
      updatedAt := ← getColumn row 4 SqlValue.asReal
      rootJobId := ← getColumn row 5 SqlValue.asString
      finalArtifactIds := (← getColumn row 6 SqlValue.asJson).parseVec
      metadata := (← getColumn row 7 SqlValue.asJson).parseMap }

def readJob (row : List Value) : Option Job := do
  pure
    { jobId := ← getColumn row 0 SqlValue.asString
      runId := ← getColumn row 1 SqlValue.asString
      parentJobId := ← getColumn row 2 (SqlValue.asOption SqlValue.asString)
      role := ← getColumn row 3 SqlValue.asString
      status := .parse (← getColumn row 4 SqlValue.asString)
      instruction := ← getColumn row 5 SqlValue.asString
      inputArtifactIds := (← getColumn row 6 SqlValue.asJson).parseVec
      dependsOn := (← getColumn row 7 SqlValue.asJson).parseVec
      children := (← getColumn row 8 SqlValue.asJson).parseVec
      profileId := ← getColumn row 9 SqlValue.asString
      workspaceDir := ← getColumn row 10 SqlValue.asString
      attempt := ← getColumn row 11 SqlValue.asU32
      maxAttempts := ← getColumn row 12 SqlValue.asU32
      revisionRound := ← getColumn row 13 SqlValue.asU32
      createdAt := ← getColumn row 14 SqlValue.asReal
      startedAt := ← getColumn row 15 (SqlValue.asOption SqlValue.asReal)
      finishedAt := ← getColumn row 16 (SqlValue.asOption SqlValue.asReal)
      outputArtifactIds := (← getColumn row 17 SqlValue.asJson).parseVec
      error := ← getColumn row 18 (SqlValue.asOption SqlValue.asString) }

def readArtifact (row : List Value) : Option Artifact := do
  pure
    { artifactId := ← getColumn row 0 SqlValue.asString
      runId := ← getColumn row 1 SqlValue.asString
      jobId := ← getColumn row 2 SqlValue.asString
      kind := ← getColumn row 3 SqlValue.asString
      path := ← getColumn row 4 SqlValue.asString
      summary := ← getColumn row 5 SqlValue.asString
      createdAt := ← getColumn row 6 SqlValue.asReal }

def readChannel (row : List Value) : Option Channel := do
  pure
    { channelId := ← getColumn row 0 SqlValue.asString
      runId := ← getColumn row 1 SqlValue.asString
      participants := (← getColumn row 2 SqlValue.asJson).parseVec
      mode := .parse (← getColumn row 3 SqlValue.asString)
      maxRounds := ← getColumn row 4 (SqlValue.asOption SqlValue.asU32)
      onPeerFailure := .parse (← getColumn row 5 SqlValue.asString)
      currentRound := ← getColumn row 6 SqlValue.asU32
      currentSpeakerIdx := asUsize (← getColumn row 7 SqlValue.asInteger)
      active := (← getColumn row 8 SqlValue.asInteger) != 0
      closed := (← getColumn row 9 SqlValue.asInteger) != 0
      history := (← getColumn row 10 SqlValue.asJson).parseHistory
      initialMessage := ← getColumn row 11 (SqlValue.asOption SqlValue.asString) }

/-- A row that is not of the expected types makes the whole load fail. -/
def loadRuns (w : World) (t : SqlTables) : Option (List Run) :=
  (t.runs.select (w.order .runRows)
    ["run_id", "task", "status", "created_at", "updated_at", "root_job_id", "final_artifact_ids",
      "metadata"]).mapM readRun

def loadJobs (w : World) (t : SqlTables) : Option (List Job) :=
  (t.jobs.select (w.order .jobRows)
    ["job_id", "run_id", "parent_job_id", "role", "status", "instruction", "input_artifact_ids",
      "depends_on", "children", "profile_id", "workspace_dir", "attempt", "max_attempts",
      "revision_round", "created_at", "started_at", "finished_at", "output_artifact_ids",
      "error"]).mapM readJob

def loadArtifacts (w : World) (t : SqlTables) : Option (List Artifact) :=
  (t.artifacts.select (w.order .artifactRows)
    ["artifact_id", "run_id", "job_id", "kind", "path", "summary", "created_at"]).mapM readArtifact

def loadChannels (w : World) (t : SqlTables) : Option (List Channel) :=
  (t.channels.select (w.order .channelRows)
    ["channel_id", "run_id", "participants", "mode", "max_rounds", "on_peer_failure",
      "current_round", "current_speaker_idx", "active", "closed", "history",
      "initial_message"]).mapM readChannel

def deleteRun (w : World) (t : SqlTables) (runId : RunId) : SqlTables where
  artifacts := t.artifacts.deleteWhere (w.order .artifactRows) "run_id" runId
  jobs := t.jobs.deleteWhere (w.order .jobRows) "run_id" runId
  channels := t.channels.deleteWhere (w.order .channelRows) "run_id" runId
  runs := t.runs.deleteWhere (w.order .runRows) "run_id" runId

/-- A new store, filled with what the loads return; a load that fails fills nothing. -/
def hydrateStore (w : World) (t : SqlTables) : RunStore where
  runs := Table.empty.putAll ((t.loadRuns w).getD [])
  jobs := Table.empty.putAll ((t.loadJobs w).getD [])
  artifacts := Table.empty.putAll ((t.loadArtifacts w).getD [])
  channels := Table.empty.putAll ((t.loadChannels w).getD [])

end SqlTables

/-! ## Reading what was bound -/

section
open SqlTables

theorem readRun_runParams (run : Run) : readRun (runParams run) = some run := by
  simp [readRun, runParams, getColumn, SqlValue.asString, SqlValue.asReal, SqlValue.asJson]

theorem asOption_text (o : Option String) :
    SqlValue.asOption SqlValue.asString (.ofOption .text o : Value) = some o :=
  SqlValue.asOption_ofOption (fun _ _ => ⟨rfl, by simp⟩)

theorem asOption_real (o : Option SystemTime) :
    SqlValue.asOption SqlValue.asReal (.ofOption .real o : Value) = some o :=
  SqlValue.asOption_ofOption (fun _ _ => ⟨rfl, by simp⟩)

theorem asOption_u32 {o : Option Nat} (h : ∀ m ∈ o, m < 2 ^ 32) :
    SqlValue.asOption SqlValue.asU32 (.ofOption (fun m : Nat => .integer m) o : Value) = some o :=
  SqlValue.asOption_ofOption (fun m hm => ⟨SqlValue.asU32_integer (h m hm), by simp⟩)

theorem readJob_jobParams {job : Job} (h : job.Sized) : readJob (jobParams job) = some job := by
  obtain ⟨hattempt, hmax, hround⟩ := h
  simp [readJob, jobParams, getColumn, SqlValue.asString, SqlValue.asReal, SqlValue.asJson,
    asOption_text, asOption_real, SqlValue.asU32_integer hattempt, SqlValue.asU32_integer hmax,
    SqlValue.asU32_integer hround]

theorem readArtifact_artifactParams (a : Artifact) : readArtifact (artifactParams a) = some a := by
  simp [readArtifact, artifactParams, getColumn, SqlValue.asString, SqlValue.asReal]

theorem readChannel_channelParams {c : Channel} (h : c.Sized) :
    readChannel (channelParams c) = some c := by
  obtain ⟨hmax, hround, hidx⟩ := h
  have hflag : ∀ b : Bool, ((if b then (1 : Int) else 0) != 0) = b := by decide
  simp [readChannel, channelParams, getColumn, SqlValue.asString, SqlValue.asJson,
    SqlValue.asInteger, asOption_text, asOption_u32 hmax, SqlValue.asU32_integer hround,
    asUsize_asI64 hidx, hflag]

end

/-! ## The store and its statements -/

/-- An operation on the store: a record is created or updated, changed in place, or
removed with its run. -/
inductive StoreOp where
  | createRun (run : Run)
  | updateRun (run : Run)
  | alterRun (runId : RunId) (f : Run → Run) (hf : ∀ run, (f run).runId = run.runId)
  | createJob (job : Job) (hs : job.Sized)
  | updateJob (job : Job) (hs : job.Sized)
  | alterJob (jobId : JobId) (f : Job → Job) (hf : ∀ job, (f job).jobId = job.jobId)
      (hs : ∀ job, job.Sized → (f job).Sized)
  | createArtifact (artifact : Artifact)
  | createChannel (channel : Channel) (hs : channel.Sized)
  | alterChannel (channelId : ChannelId) (f : Channel → Channel)
      (hf : ∀ c, (f c).channelId = c.channelId) (hs : ∀ c, c.Sized → (f c).Sized)
  | removeRun (runId : RunId)

/-- The operation on the store. -/
def StoreOp.apply (w : World) (s : RunStore) : StoreOp → RunStore
  | .createRun run => s.createRun run
  | .updateRun run => s.updateRun run
  | .alterRun runId f hf => s.alterRun runId f hf
  | .createJob job _ => s.createJob job
  | .updateJob job _ => s.updateJob job
  | .alterJob jobId f hf _ => s.alterJob jobId f hf
  | .createArtifact artifact => s.createArtifact artifact
  | .createChannel channel _ => s.createChannel channel
  | .alterChannel channelId f hf _ => s.alterChannel channelId f hf
  | .removeRun runId => (s.removeRun w runId).2

/-- The statement that writes the record as the operation leaves it; `s` is the store
before. -/
def StoreOp.mirror (w : World) (s : RunStore) (t : SqlTables) : StoreOp → SqlTables
  | .createRun run | .updateRun run => t.persistRun run
  | .alterRun runId f _ =>
    match s.getRun runId with
    | some run => t.persistRun (f run)
    | none => t
  | .createJob job _ | .updateJob job _ => t.persistJob job
  | .alterJob jobId f _ _ =>
    match s.getJob jobId with
    | some job => t.persistJob (f job)
    | none => t
  | .createArtifact artifact => t.persistArtifact artifact
  | .createChannel channel _ => t.persistChannel channel
  | .alterChannel channelId f _ _ =>
    match s.getChannel channelId with
    | some c => t.persistChannel (f c)
    | none => t
  | .removeRun runId => t.deleteRun w runId

/-- One mirrored operation, in the world it is made in. -/
def mirrorStep (x : RunStore × SqlTables) (op : World × StoreOp) : RunStore × SqlTables :=
  (op.2.apply op.1 x.1, op.2.mirror op.1 x.1 x.2)

section
open SqlTables Table

def Run.sqlRow (run : Run) : SqlRow SystemTime Json := runColumns.zip (runParams run)
def Job.sqlRow (job : Job) : SqlRow SystemTime Json := jobColumns.zip (jobParams job)
def Artifact.sqlRow (a : Artifact) : SqlRow SystemTime Json :=
  artifactColumns.zip (artifactParams a)
def Channel.sqlRow (c : Channel) : SqlRow SystemTime Json := channelColumns.zip (channelParams c)

/-- The tables hold the rows of the store's records, and these fit their columns. -/
structure Mirrors (s : RunStore) (t : SqlTables) : Prop where
  runs : Images Run.sqlRow s.runs t.runs
  jobs : Images Job.sqlRow s.jobs t.jobs
  artifacts : Images Artifact.sqlRow s.artifacts t.artifacts
  channels : Images Channel.sqlRow s.channels t.channels
  jobSized : ∀ k job, s.jobs.get k = some job → job.Sized
  channelSized : ∀ k c, s.channels.get k = some c → c.Sized

theorem mirrors_new : Mirrors .new .initSchema where
  runs := images_empty _
  jobs := images_empty _
  artifacts := images_empty _
  channels := images_empty _
  jobSized := by
    intro _ _ h
    cases h
  channelSized := by
    intro _ _ h
    cases h

variable {s : RunStore} {t : SqlTables}

theorem Mirrors.persistRun (h : Mirrors s t) (run : Run) :
    Mirrors (s.createRun run) (t.persistRun run) :=
  { h with runs := h.runs.put (fun _ => rfl) run }

theorem Mirrors.persistJob (h : Mirrors s t) {job : Job} (hs : job.Sized) :
    Mirrors (s.createJob job) (t.persistJob job) := by
  refine { h with jobs := h.jobs.put (fun _ => rfl) job, jobSized := ?_ }
  intro k job' hk
  have hget : (s.jobs.put job).get k = some job' := hk
  rw [get_put] at hget
  split at hget
  · cases hget
    exact hs
  · exact h.jobSized k job' hget

theorem Mirrors.persistChannel (h : Mirrors s t) {c : Channel} (hs : c.Sized) :
    Mirrors (s.createChannel c) (t.persistChannel c) := by
  refine { h with channels := h.channels.put (fun _ => rfl) c, channelSized := ?_ }
  intro k c' hk
  have hget : (s.channels.put c).get k = some c' := hk
  rw [get_put] at hget
  split at hget
  · cases hget
    exact hs
  · exact h.channelSized k c' hget

theorem Mirrors.alterJob (h : Mirrors s t) {k : JobId} {f : Job → Job}
    (hf : ∀ job, (f job).jobId = job.jobId) (hs : ∀ job, job.Sized → (f job).Sized) {job : Job}
    (hk : s.getJob k = some job) : Mirrors (s.alterJob k f hf) (t.persistJob (f job)) := by
  refine { h with jobs := h.jobs.alter (fun _ => rfl) k f hf hk, jobSized := ?_ }
  intro k' job' hk'
  have hget : (s.jobs.alter k f hf).get k' = some job' := hk'
  rw [get_alter] at hget
  split at hget
  · obtain ⟨job₀, hjob₀, rfl⟩ := Option.map_eq_some_iff.mp hget
    exact hs job₀ (h.jobSized k job₀ hjob₀)
  · exact h.jobSized k' job' hget

theorem Mirrors.alterChannel (h : Mirrors s t) {k : ChannelId} {f : Channel → Channel}
    (hf : ∀ c, (f c).channelId = c.channelId) (hs : ∀ c, c.Sized → (f c).Sized) {c : Channel}
    (hk : s.getChannel k = some c) :
    Mirrors (s.alterChannel k f hf) (t.persistChannel (f c)) := by
  refine { h with channels := h.channels.alter (fun _ => rfl) k f hf hk, channelSized := ?_ }
  intro k' c' hk'
  have hget : (s.channels.alter k f hf).get k' = some c' := hk'
  rw [get_alter] at hget
  split at hget
  · obtain ⟨c₀, hc₀, rfl⟩ := Option.map_eq_some_iff.mp hget
    exact hs c₀ (h.channelSized k c₀ hc₀)
  · exact h.channelSized k' c' hget

/-- `DELETE … WHERE run_id = r` on the rows of records of which `r` is the run. -/
theorem images_deleteWhere {V : Type} {key : V → String} {row : V → SqlRow SystemTime Json}
    {m : Table key} {t : SqlTable SystemTime Json} (h : Images row m t) (runOf : V → RunId)
    (hrun : ∀ v, (row v).column "run_id" = .text (runOf v)) (e e' : Enumeration String)
    (r : RunId) : Images row
      (m.removeAll (((m.valuesIn e).filter (fun v => runOf v == r)).map key))
      (t.deleteWhere e' "run_id" r) := by
  refine h.removeAll (fun v => ?_) e e'
  rw [hrun]
  rfl

theorem column_run (run : Run) : run.sqlRow.column "run_id" = .text run.runId := by
  simp [Run.sqlRow, runColumns, runParams, SqlRow.column]

theorem column_job (job : Job) : job.sqlRow.column "run_id" = .text job.runId := by
  simp [Job.sqlRow, jobColumns, jobParams, SqlRow.column, List.lookup_cons]

theorem column_artifact (a : Artifact) : a.sqlRow.column "run_id" = .text a.runId := by
  simp [Artifact.sqlRow, artifactColumns, artifactParams, SqlRow.column, List.lookup_cons]

theorem column_channel (c : Channel) : c.sqlRow.column "run_id" = .text c.runId := by
  simp [Channel.sqlRow, channelColumns, channelParams, SqlRow.column, List.lookup_cons]

/-- Removing a run by its id, and the row that has the id in its first column. -/
theorem images_deleteRow {V : Type} {key : V → String} {row : V → SqlRow SystemTime Json}
    {m : Table key} {t : SqlTable SystemTime Json} (h : Images row m t)
    (hrun : ∀ v, (row v).column "run_id" = .text (key v)) (e : Enumeration String) (r : String) :
    Images row (m.remove r) (t.deleteWhere e "run_id" r) := by
  intro k
  have hdel := images_deleteWhere h key hrun e e r k
  rw [hdel, get_removeAll_filter, get_remove]
  cases hk : m.get k with
  | none =>
    split <;> rfl
  | some v =>
    have hid : key v = k := key_of_get hk
    by_cases hr : k = r <;> simp [hr, hid, Option.filter]

theorem Mirrors.removeRun (h : Mirrors s t) (w : World) (r : RunId) :
    Mirrors (s.removeRun w r).2 (t.deleteRun w r) := by
  refine ⟨?_, ?_, ?_, ?_, ?_, ?_⟩
  · exact images_deleteRow h.runs column_run _ r
  · exact images_deleteWhere h.jobs Job.runId column_job _ _ r
  · exact images_deleteWhere h.artifacts Artifact.runId column_artifact _ _ r
  · exact images_deleteWhere h.channels Channel.runId column_channel _ _ r
  · intro k job hk
    have hget : (s.removeRun w r).2.getJob k = some job := hk
    rw [RunStore.getJob_removeRun, Option.filter_eq_some_iff] at hget
    exact h.jobSized k job hget.1
  · intro k c hk
    have hget : (s.removeRun w r).2.getChannel k = some c := hk
    rw [RunStore.getChannel_removeRun, Option.filter_eq_some_iff] at hget
    exact h.channelSized k c hget.1

/-- Every mirrored operation keeps the tables those of the store. -/
theorem mirrors_step (x : RunStore × SqlTables) (op : World × StoreOp) (h : Mirrors x.1 x.2) :
    Mirrors (mirrorStep x op).1 (mirrorStep x op).2 := by
  obtain ⟨s, t⟩ := x
  obtain ⟨w, op⟩ := op
  cases op with
  | createRun run => exact h.persistRun run
  | updateRun run => exact h.persistRun run
  | alterRun r f hf =>
    show Mirrors (s.alterRun r f hf) _
    simp only [mirrorStep, StoreOp.mirror]
    cases hr : s.getRun r with
    | none =>
      have hsame : s.runs.alter r f hf = s.runs := alter_of_none hr
      rw [RunStore.alterRun, hsame]
      exact h
    | some run => exact { h with runs := h.runs.alter (fun _ => rfl) r f hf hr }
  | createJob job hs => exact h.persistJob hs
  | updateJob job hs => exact h.persistJob hs
  | alterJob k f hf hs =>
    show Mirrors (s.alterJob k f hf) _
    simp only [mirrorStep, StoreOp.mirror]
    cases hk : s.getJob k with
    | none =>
      have hsame : s.jobs.alter k f hf = s.jobs := alter_of_none hk
      rw [RunStore.alterJob, hsame]
      exact h
    | some job => exact h.alterJob hf hs hk
  | createArtifact a => exact { h with artifacts := h.artifacts.put (fun _ => rfl) a }
  | createChannel c hs => exact h.persistChannel hs
  | alterChannel k f hf hs =>
    show Mirrors (s.alterChannel k f hf) _
    simp only [mirrorStep, StoreOp.mirror]
    cases hk : s.getChannel k with
    | none =>
      have hsame : s.channels.alter k f hf = s.channels := alter_of_none hk
      rw [RunStore.alterChannel, hsame]
      exact h
    | some c => exact h.alterChannel hf hs hk
  | removeRun r => exact h.removeRun w r

/-- Reading a table of rows, and storing what is read, gives the records they are of. -/
theorem images_loaded {V : Type} {key : V → String} (columns : List String)
    {params : V → List Value} (read : List Value → Option V) {m : Table key}
    {t : SqlTable SystemTime Json} (hnd : columns.Nodup)
    (hlen : ∀ v, (params v).length = columns.length)
    (hkey : ∀ v, SqlRow.primaryKey (columns.zip (params v)) = key v)
    (h : Images (fun v => columns.zip (params v)) m t)
    (hread : ∀ k v, m.get k = some v → read (params v) = some v) (e : Enumeration String)
    (k : String) : ((Table.empty : Table key).putAll
      (((t.select e columns).mapM read).getD [])).get k = m.get k := by
  have hdec : ∀ k v, m.get k = some v →
      read (columns.map (SqlRow.column (columns.zip (params v)))) = some v := by
    intro k v hk
    rw [columns_zip hnd (hlen v)]
    exact hread k v hk
  obtain ⟨vs, hvs, hget⟩ := h.decoded hkey
    (fun row => read (columns.map (SqlRow.column row))) hdec e
  have hload : (t.select e columns).mapM read = some vs := by
    rw [SqlTable.select, List.mapM_map]
    exact hvs
  rw [hload]
  exact hget k

/-- A store hydrated from tables that mirror a store holds its records. -/
theorem Mirrors.hydrateStore (h : Mirrors s t) (w : World) :
    (∀ k, (t.hydrateStore w).getRun k = s.getRun k) ∧
      (∀ k, (t.hydrateStore w).getJob k = s.getJob k) ∧
      (∀ k, (t.hydrateStore w).getArtifact k = s.getArtifact k) ∧
      ∀ k, (t.hydrateStore w).getChannel k = s.getChannel k := by
  refine ⟨?_, ?_, ?_, ?_⟩
  · exact images_loaded runColumns readRun (by decide) (fun _ => rfl)
      (fun _ => rfl) h.runs (fun _ run _ => readRun_runParams run) (w.order .runRows)
  · exact images_loaded jobColumns readJob (by decide) (fun _ => rfl)
      (fun _ => rfl) h.jobs (fun k job hk => readJob_jobParams (h.jobSized k job hk))
      (w.order .jobRows)
  · exact images_loaded artifactColumns readArtifact (by decide)
      (fun _ => rfl) (fun _ => rfl) h.artifacts (fun _ a _ => readArtifact_artifactParams a)
      (w.order .artifactRows)
  · exact images_loaded channelColumns readChannel (by decide)
      (fun _ => rfl) (fun _ => rfl) h.channels
      (fun k c hk => readChannel_channelParams (h.channelSized k c hk)) (w.order .channelRows)

/-- After any sequence of operations on the store, each mirrored by its statement, a
store hydrated from the tables holds the same runs, jobs, artifacts and channels, field
by field. -/
theorem hydrated_mirrors_store (ops : List (World × StoreOp)) (w : World) :
    let x := run mirrorStep (.new, .initSchema) ops
    (∀ k, (x.2.hydrateStore w).getRun k = x.1.getRun k) ∧
      (∀ k, (x.2.hydrateStore w).getJob k = x.1.getJob k) ∧
      (∀ k, (x.2.hydrateStore w).getArtifact k = x.1.getArtifact k) ∧
      ∀ k, (x.2.hydrateStore w).getChannel k = x.1.getChannel k := by
  have h : Mirrors (run mirrorStep (.new, .initSchema) ops).1
      (run mirrorStep (.new, .initSchema) ops).2 :=
    run_invariant (G := fun _ _ => True) (P := fun x => Mirrors x.1 x.2)
      (fun x op h _ => mirrors_step x op h) mirrors_new (Meets.trivial ..)
  exact h.hydrateStore w

/-! ## Rows as records -/

def RunRow.sqlRow (row : RunRow) : SqlRow SystemTime Json :=
  runColumns.zip
    [.text row.runId, .text row.task, .text row.status, .real row.createdAt, .real row.updatedAt,
      .text row.rootJobId, .json row.finalArtifactIds, .json row.metadata]

def JobRow.sqlRow (row : JobRow) : SqlRow SystemTime Json :=
  jobColumns.zip
    [.text row.jobId, .text row.runId, .ofOption .text row.parentJobId, .text row.role,
      .text row.status, .text row.instruction, .json row.inputArtifactIds, .json row.dependsOn,
      .json row.children, .text row.profileId, .text row.workspaceDir, .integer row.attempt,
      .integer row.maxAttempts, .integer row.revisionRound, .real row.createdAt,
      .ofOption .real row.startedAt, .ofOption .real row.finishedAt, .json row.outputArtifactIds,
      .ofOption .text row.error]

def ArtifactRow.sqlRow (row : ArtifactRow) : SqlRow SystemTime Json :=
  artifactColumns.zip
    [.text row.artifactId, .text row.runId, .text row.jobId, .text row.kind, .text row.path,
      .text row.summary, .real row.createdAt]

def ChannelRow.sqlRow (row : ChannelRow) : SqlRow SystemTime Json :=
  channelColumns.zip
    [.text row.channelId, .text row.runId, .json row.participants, .text row.mode,
      .ofOption (fun m : Nat => .integer m) row.maxRounds, .text row.onPeerFailure,
      .integer row.currentRound, .integer (asI64 row.currentSpeakerIdx), .integer row.active,
      .integer row.closed, .json row.history, .ofOption .text row.initialMessage]

/-- The tables have a row for every row of the database. -/
structure Represents (db : SqlitePersistence) (t : SqlTables) : Prop where
  runs : Images RunRow.sqlRow db.runs t.runs
  jobs : Images JobRow.sqlRow db.jobs t.jobs
  artifacts : Images ArtifactRow.sqlRow db.artifacts t.artifacts
  channels : Images ChannelRow.sqlRow db.channels t.channels

variable {db : SqlitePersistence}

theorem represents_new : Represents .new .initSchema :=
  ⟨images_empty _, images_empty _, images_empty _, images_empty _⟩

theorem Represents.persistRun (h : Represents db t) (run : Run) :
    Represents (db.persistRun run) (t.persistRun run) :=
  { h with runs := h.runs.put (fun _ => rfl) run.toRow }

theorem Represents.persistJob (h : Represents db t) (job : Job) :
    Represents (db.persistJob job) (t.persistJob job) :=
  { h with jobs := h.jobs.put (fun _ => rfl) job.toRow }

theorem Represents.persistArtifact (h : Represents db t) (a : Artifact) :
    Represents (db.persistArtifact a) (t.persistArtifact a) :=
  { h with artifacts := h.artifacts.put (fun _ => rfl) a.toRow }

theorem Represents.persistChannel (h : Represents db t) (c : Channel) :
    Represents (db.persistChannel c) (t.persistChannel c) :=
  { h with channels := h.channels.put (fun _ => rfl) c.toRow }

/-- The statement, on the tables. -/
def SqlTables.execute (t : SqlTables) : SqlitePersistence.Write → SqlTables
  | .run run => t.persistRun run
  | .job job => t.persistJob job
  | .channel channel => t.persistChannel channel

theorem Represents.execute (h : Represents db t) (stmt : SqlitePersistence.Write) :
    Represents (db.execute stmt) (t.execute stmt) := by
  cases stmt with
  | run run => exact h.persistRun run
  | job job => exact h.persistJob job
  | channel c => exact h.persistChannel c

/-- `persist_run_state` on the database is its statements on the tables, and so is every
part of it that a crash leaves done. -/
theorem Represents.writes (h : Represents db t) (stmts : List SqlitePersistence.Write) :
    Represents (stmts.foldl SqlitePersistence.execute db) (stmts.foldl SqlTables.execute t) := by
  induction stmts generalizing db t with
  | nil => exact h
  | cons stmt stmts ih => exact ih (h.execute stmt)

theorem Represents.persistRunState (h : Represents db t) (w : World) (s : RunStore) (r : RunId) :
    Represents (db.persistRunState w s r)
      ((SqlitePersistence.writes w s r).foldl SqlTables.execute t) := by
  rw [SqlitePersistence.persistRunState_eq]
  exact h.writes _

theorem Represents.deleteRun (h : Represents db t) (w : World) (r : RunId) :
    Represents (db.deleteRun w r) (t.deleteRun w r) := by
  refine ⟨?_, ?_, ?_, ?_⟩
  · refine images_deleteRow h.runs (fun row => ?_) _ r
    simp [RunRow.sqlRow, runColumns, SqlRow.column]
  · refine images_deleteWhere h.jobs JobRow.runId (fun row => ?_) _ _ r
    simp [JobRow.sqlRow, jobColumns, SqlRow.column, List.lookup_cons]
  · refine images_deleteWhere h.artifacts ArtifactRow.runId (fun row => ?_) _ _ r
    simp [ArtifactRow.sqlRow, artifactColumns, SqlRow.column, List.lookup_cons]
  · refine images_deleteWhere h.channels ChannelRow.runId (fun row => ?_) _ _ r
    simp [ChannelRow.sqlRow, channelColumns, SqlRow.column, List.lookup_cons]

/-! ## The tables of the daemon -/

/-- A statement that the daemon executes. -/
inductive SqlStatement where
  | write (stmt : SqlitePersistence.Write)
  | persistArtifact (a : Artifact)
  | deleteRun (w : World) (r : RunId)

def SqlTables.issue (t : SqlTables) : SqlStatement → SqlTables
  | .write stmt => t.execute stmt
  | .persistArtifact a => t.persistArtifact a
  | .deleteRun w r => t.deleteRun w r

/-- The database, if there is one, is what statements have made of the empty tables. -/
def Core.Stored (c : Core) : Prop :=
  ∀ db ∈ c.db, ∃ stmts : List SqlStatement,
    Represents db (stmts.foldl SqlTables.issue .initSchema)

theorem stored_act {c : Core} (h : c.Stored) (w : World) (a : Action) : (c.act w a).Stored := by
  -- what an action does to the database is a list of statements more
  have hmore : ∀ (more : List SqlStatement) {f : SqlitePersistence → SqlitePersistence},
      (∀ db t, Represents db t → Represents (f db) (more.foldl SqlTables.issue t)) →
      ∀ db ∈ c.db.map f, ∃ stmts : List SqlStatement,
        Represents db (stmts.foldl SqlTables.issue .initSchema) := by
    intro more f hf db hdb
    obtain ⟨old, hold, rfl⟩ := Option.map_eq_some_iff.mp hdb
    obtain ⟨stmts, hstmts⟩ := h old hold
    refine ⟨stmts ++ more, ?_⟩
    rw [List.foldl_append]
    exact hf old _ hstmts
  cases a with
  | persistRunState r =>
    have hfold : ∀ (writes : List SqlitePersistence.Write) (t : SqlTables),
        (writes.map SqlStatement.write).foldl SqlTables.issue t =
          writes.foldl SqlTables.execute t := by
      intro writes t
      rw [List.foldl_map]
      rfl
    refine hmore ((SqlitePersistence.writes w c.engine.store r).map .write) fun db t ht => ?_
    rw [hfold]
    exact ht.persistRunState w c.engine.store r
  | persistArtifact a => exact hmore [.persistArtifact a] fun _ _ ht => ht.persistArtifact a
  | expire r => exact hmore [.deleteRun w r] fun _ _ ht => ht.deleteRun w r
  | call r f => exact h
  | genId pre => exact h
  | hydrate => exact h

/-- So it is in every run of the daemon, crashes and restarts included. -/
theorem stored_run (persistent : Bool) (sandboxOverride : Option Bool) (capsule : Bool)
    {is : List (World × Input)}
    (h : Meets Daemon.step Clocked (Daemon.off persistent sandboxOverride capsule) is) :
    (run Daemon.step (Daemon.off persistent sandboxOverride capsule) is).core.Stored := by
  refine (core_clocked (P := Core.Stored) (fun c x _ _ hc => stored_act hc x.1 x.2)
    (sound_off persistent sandboxOverride capsule) ?_ h).2
  intro db hdb
  cases persistent with
  | false => cases hdb
  | true =>
    cases hdb
    exact ⟨[], represents_new⟩

end

end ZeptoPM
