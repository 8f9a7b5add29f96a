import ZeptoPM.ChannelMoves
import ZeptoPM.Outcomes

/- Terminal events of jobs that are not active any more. The handlers never ask
   whether the job is active: they write the outcome to its record all the same,
   put it back in the queue, accept its plan or its revision, close its channels,
   and end with the spawn loop. `Unaffected` says in terms of the state before
   the event when none of this leaves a trace, and `lateEvent_iff` that it is
   exactly then that the event is harmless. -/
namespace ZeptoPM
open OrchestratorEngine Daemon

/-! ## Harmless events -/

/-- The records of runs, jobs and channels are the same, and so is the queue. -/
structure OrchestratorEngine.Unchanged (e e' : OrchestratorEngine) : Prop where
  getRun : ∀ k, e'.store.getRun k = e.store.getRun k
  getJob : ∀ k, e'.store.getJob k = e.store.getJob k
  getChannel : ∀ k, e'.store.getChannel k = e.store.getChannel k
  readyQueue : e'.readyQueue = e.readyQueue

/-- The process lives on, and nothing has changed. -/
def Harmless (d d' : Daemon) : Prop := d'.alive = true ∧ Unchanged d.engine d'.engine

/-- The outcome of a job. -/
def Terminal (event : Json) : Prop :=
  event.strOr "type" "" = "job_completed" ∨ event.strOr "type" "" = "job_failed"

instance (event : Json) : Decidable (Terminal event) := inferInstanceAs (Decidable (_ ∨ _))

/-- The job of the event is not active. -/
def Late (d : Daemon) (event : Json) : Prop :=
  d.engine.activeJobs.get (event.strOr "job_id" "") = none

instance (d : Daemon) (event : Json) : Decidable (Late d event) :=
  inferInstanceAs (Decidable (_ = none))

/-! ## The condition -/

/-- No slot is free or no job is queued. -/
def OrchestratorEngine.Idle (e : OrchestratorEngine) : Prop :=
  e.maxConcurrency ≤ e.activeJobs.len ∨ e.readyQueue = []

/-- There is nothing to start and no channel to activate. -/
structure OrchestratorEngine.AtRest (e : OrchestratorEngine) : Prop where
  idle : e.Idle
  channels : ∀ k ch, e.store.getChannel k = some ch → ¬ e.Activates ch

/-- The record is that of a job that has failed just now, for good and with this error. -/
def Job.RecordsFailure (w : World) (error : String) (job : Job) : Prop :=
  job.retries = false ∧ job.status = .failed ∧ job.error = some error ∧
    job.finishedAt = some w.now

instance (w : World) (error : String) (job : Job) : Decidable (job.RecordsFailure w error) :=
  inferInstanceAs (Decidable (_ ∧ _ ∧ _ ∧ _))

/-- The record is that of a job that has completed just now, with these outputs. -/
def Job.RecordsCompletion (w : World) (outputs : List ArtifactId) (job : Job) : Prop :=
  job.status = .completed ∧ job.finishedAt = some w.now ∧ job.outputArtifactIds = outputs

/-- The job talks on no active channel, and its failure is on record. -/
def FailureNoted (w : World) (d : Daemon) (jobId : JobId) (error : String) : Prop :=
  d.engine.store.channelsForJob w jobId = [] ∧
    ∀ job, d.engine.store.getJob jobId = some job → job.RecordsFailure w error

/-- A planner's output is no plan to accept, and what becomes of its job is on record. -/
def PlanNoted (w : World) (d : Daemon) (artifacts : List ArtifactId) (job : Job) : Prop :=
  match artifacts.head?.bind d.engine.store.getArtifact with
  | none => job.RecordsCompletion w artifacts
  | some artifact =>
    match extractJson ((w.readToString artifact.path).getD "") with
    | none => False
    | some json =>
      job.outputArtifactIds = artifacts ∧
        match w.serde.planFromStr json with
        | .error e => job.RecordsFailure w ("malformed plan output: " ++ e)
        | .ok plan => validatePlan plan ≠ [] ∧
          job.RecordsFailure w ("invalid plan: " ++ String.intercalate "; " (validatePlan plan))

/-- A reviewer's output asks for no revision that would be made. -/
def ReviewNoted (w : World) (d : Daemon) (artifacts : List ArtifactId) (job : Job) : Prop :=
  ∀ artifact, artifacts.head?.bind d.engine.store.getArtifact = some artifact →
    ∃ decision, parseReviewDecision w ((w.readToString artifact.path).getD "") = some decision ∧
      ¬ d.engine.Revises job.jobId decision d.currentConfig.daemon.maxRevisions job

/-- What the completion of the job leads to is on record. -/
def CompletionNoted (w : World) (d : Daemon) (jobId : JobId) (artifacts : List ArtifactId) :
    Prop :=
  ∀ job, d.engine.store.getJob jobId = some job →
    if job.role = "planner" then PlanNoted w d artifacts job
    else job.RecordsCompletion w artifacts ∧ (job.role = "reviewer" → ReviewNoted w d artifacts job)

/-- The daemon is at rest, and has noted the outcome before. -/
def Unaffected (w : World) (d : Daemon) (event : Json) : Prop :=
  d.engine.AtRest ∧
    if event.strOr "type" "" = "job_completed" then
      CompletionNoted w d (event.strOr "job_id" "") (event.strings "output_artifact_ids")
    else FailureNoted w d (event.strOr "job_id" "") (event.strOr "error" "unknown")

/-! ## The spawn loop -/

section
variable {w : World} {e e' : OrchestratorEngine} {r : RunId} {d : Daemon}

theorem startNext_of_idle (h : e.Idle) : e.startNext w = (none, e) := by
  by_cases hlen : e.activeJobs.len ≥ e.maxConcurrency
  · simp [startNext, nextJob, hlen]
  · have hq : e.readyQueue = [] := h.resolve_left hlen
    simp [startNext, nextJob, hq]

/-- What the head of the queue leads to. -/
theorem startNext_idle_cases (w : World) (e : OrchestratorEngine) :
    (e.Idle ∧ e.startNext w = (none, e)) ∨
    (∃ k q, e.readyQueue = k :: q ∧ e.store.getJob k = none ∧
      e.startNext w = (none, { e with readyQueue := q })) ∨
    ∃ job q, e.readyQueue = job.jobId :: q ∧ e.store.getJob job.jobId = some job ∧
      e.startNext w = (some job, e.started w job q) := by
  by_cases hlen : e.activeJobs.len < e.maxConcurrency
  · cases hq : e.readyQueue with
    | nil => exact Or.inl ⟨Or.inr hq, startNext_of_idle (Or.inr hq)⟩
    | cons k q =>
      refine Or.inr ?_
      cases hjob : e.store.getJob k with
      | none =>
        refine Or.inl ⟨k, q, rfl, hjob, ?_⟩
        simp [startNext, nextJob, hq, hjob, Nat.not_le.mpr hlen]
      | some job =>
        obtain rfl := RunStore.jobId_of_getJob hjob
        exact Or.inr ⟨job, q, rfl, hjob, startNext_head w e hlen hq hjob⟩
  · have hidle : e.Idle := Or.inl (Nat.not_lt.mp hlen)
    exact Or.inl ⟨hidle, startNext_of_idle hidle⟩

theorem spawnReady_none {e' : OrchestratorEngine} (h : d.engine.startNext w = (none, e'))
    (fuel : Nat) : spawnReady w r (fuel + 1) d = d.act w (.call r .startNext) := by
  rw [spawnReady, h]

theorem spawnReady_some {e' : OrchestratorEngine} {job : Job}
    (h : d.engine.startNext w = (some job, e')) :
    ∃ d', d'.engine = e' ∧ ∀ fuel, spawnReady w r (fuel + 1) d = spawnReady w r fuel d' := by
  refine ⟨(d.act w (.call r .startNext)).spawnJobWorker w job, ?_, fun fuel => ?_⟩
  · rw [(untouched_spawnJobWorker w _ job).engine]
    exact congrArg Prod.snd h
  · rw [spawnReady, h]

theorem engine_act_startNext {e' : OrchestratorEngine} {o : Option Job}
    (h : d.engine.startNext w = (o, e')) : (d.act w (.call r .startNext)).engine = e' :=
  congrArg Prod.snd h

/-- More rounds than there are ids in the queue make no difference. -/
theorem spawnReady_enough (fuel n : Nat) : ∀ d, d.engine.readyQueue.length < fuel →
    spawnReady w r (fuel + n) d = spawnReady w r fuel d := by
  induction fuel with
  | zero => exact fun d h => absurd h (Nat.not_lt_zero _)
  | succ fuel ih =>
    intro d h
    rw [Nat.succ_add]
    rcases startNext_idle_cases w d.engine with
      ⟨_, heq⟩ | ⟨k, q, _, _, heq⟩ | ⟨job, q, hq, _, heq⟩
    · rw [spawnReady_none heq, spawnReady_none heq]
    · rw [spawnReady_none heq, spawnReady_none heq]
    · obtain ⟨d', hd', hloop⟩ := spawnReady_some (r := r) heq
      rw [hloop, hloop]
      refine ih d' ?_
      rw [hd', readyQueue_started]
      rw [hq, List.length_cons] at h
      omega

/-- The loop takes jobs from the front of the queue. -/
theorem spawnReady_suffix (fuel : Nat) :
    ∀ d, (spawnReady w r fuel d).engine.readyQueue <:+ d.engine.readyQueue := by
  induction fuel with
  | zero => exact fun d => List.suffix_refl _
  | succ fuel ih =>
    intro d
    rcases startNext_idle_cases w d.engine with
      ⟨_, heq⟩ | ⟨k, q, hq, _, heq⟩ | ⟨job, q, hq, _, heq⟩
    · rw [spawnReady_none heq, engine_act_startNext heq]
    · rw [spawnReady_none heq, engine_act_startNext heq, hq]
      exact List.suffix_cons k q
    · obtain ⟨d', hd', hloop⟩ := spawnReady_some (r := r) heq
      have htail := ih d'
      rw [hd', readyQueue_started] at htail
      rw [hloop, hq]
      exact htail.trans (List.suffix_cons _ q)

/-- If the queue is as long as before, the loop has done nothing. -/
theorem spawnReady_still {fuel : Nat}
    (h : d.engine.readyQueue.length ≤ (spawnReady w r fuel d).engine.readyQueue.length) :
    (spawnReady w r fuel d).engine = d.engine ∧ (0 < fuel → d.engine.Idle) := by
  cases fuel with
  | zero => exact ⟨rfl, fun h => absurd h (Nat.lt_irrefl 0)⟩
  | succ fuel =>
    rcases startNext_idle_cases w d.engine with
      ⟨hidle, heq⟩ | ⟨k, q, hq, _, heq⟩ | ⟨job, q, hq, _, heq⟩
    · exact ⟨by rw [spawnReady_none heq, engine_act_startNext heq], fun _ => hidle⟩
    · rw [spawnReady_none heq, engine_act_startNext heq, hq, List.length_cons] at h
      exact absurd h (Nat.not_succ_le_self _)
    · obtain ⟨d', hd', hloop⟩ := spawnReady_some (r := r) heq
      have hlen := (spawnReady_suffix (w := w) (r := r) fuel d').length_le
      rw [hd', readyQueue_started] at hlen
      rw [hloop, hq, List.length_cons] at h
      omega

theorem getChannel_spawnReady (fuel : Nat) (k : ChannelId) :
    ∀ d, (spawnReady w r fuel d).engine.store.getChannel k = d.engine.store.getChannel k := by
  induction fuel with
  | zero => exact fun d => rfl
  | succ fuel ih =>
    intro d
    rcases startNext_idle_cases w d.engine with
      ⟨_, heq⟩ | ⟨_, _, _, _, heq⟩ | ⟨job, q, _, _, heq⟩
    · rw [spawnReady_none heq, engine_act_startNext heq]
    · rw [spawnReady_none heq, engine_act_startNext heq]
    · obtain ⟨d', hd', hloop⟩ := spawnReady_some (r := r) heq
      rw [hloop, ih d', hd', getChannel_started]

theorem isSome_getJob_spawnReady (fuel : Nat) (k : JobId) :
    ∀ d, ((spawnReady w r fuel d).engine.store.getJob k).isSome =
      (d.engine.store.getJob k).isSome := by
  induction fuel with
  | zero => exact fun d => rfl
  | succ fuel ih =>
    intro d
    rcases startNext_idle_cases w d.engine with
      ⟨_, heq⟩ | ⟨_, _, _, _, heq⟩ | ⟨job, q, _, _, heq⟩
    · rw [spawnReady_none heq, engine_act_startNext heq]
    · rw [spawnReady_none heq, engine_act_startNext heq]
    · obtain ⟨d', hd', hloop⟩ := spawnReady_some (r := r) heq
      rw [hloop, ih d', hd', getJob_started]
      split
      · rename_i hk
        rw [hk, Option.isSome_map]
      · rfl

/-! ## The end of a handler -/

theorem engine_finish :
    (finish w r d).engine = ((spawnLoop w r d).engine.activateReadyChannels w).2 := by
  have hsend := untouched_foldl untouched_sendInitial
    ((spawnLoop w r d).engine.activateReadyChannels w).1
    ((spawnLoop w r d).act w (.call r .activateReadyChannels))
  exact hsend.engine

theorem getJob_finish (k : JobId) :
    (finish w r d).engine.store.getJob k = (spawnLoop w r d).engine.store.getJob k := by
  rw [engine_finish]
  exact channelStep_activate.frame.getJob k

theorem readyQueue_finish :
    (finish w r d).engine.readyQueue = (spawnLoop w r d).engine.readyQueue := by
  rw [engine_finish]
  exact channelStep_activate.frame.readyQueue

/-- Nothing is activated where no channel asks for it. -/
theorem activate_of_none (h : ∀ k ch, e.store.getChannel k = some ch → ¬ e.Activates ch) :
    (e.activateReadyChannels w).1 = [] ∧
      ∀ k, (e.activateReadyChannels w).2.store.getChannel k = e.store.getChannel k := by
  refine ⟨?_, ?_⟩
  · refine List.eq_nil_iff_forall_not_mem.mpr (fun k hk => ?_)
    obtain ⟨ch, hch, hact⟩ := mem_activateReadyChannels.mp hk
    exact h k ch hch hact
  · intro k
    rcases channelStep_activate (w := w).channel k with heq | ⟨ch, _, hch, _, hact, _⟩
    · exact heq
    · exact absurd hact (h k ch hch)

/-- An activated channel has changed. -/
theorem activate_changes {k : ChannelId} {ch : Channel} (hch : e.store.getChannel k = some ch)
    (hact : e.Activates ch) :
    (e.activateReadyChannels w).2.store.getChannel k ≠ e.store.getChannel k := by
  have hinactive : ch.active = false := by
    have hflags := hact.2
    simp only [activatable, Bool.and_eq_true, Bool.not_eq_true'] at hflags
    exact hflags.1.1
  rw [activated_activateReadyChannels.getChannel, hch, Option.map_some,
    if_pos (activates_iff.mpr hact)]
  intro heq
  have hflag := congrArg Channel.active (Option.some.inj heq)
  rw [hinactive] at hflag
  cases hflag

theorem activates_congr (hjob : ∀ k, e'.store.getJob k = e.store.getJob k)
    (hact : e'.activeJobs = e.activeJobs) (ch : Channel) : e'.Activates ch ↔ e.Activates ch := by
  unfold Activates activatable
  rw [hact, allRunning_congr hjob]

/-- A daemon at rest only persists the run. -/
theorem finish_of_atRest (h : d.engine.AtRest) :
    (finish w r d).alive = d.alive ∧ d.engine.Unchanged (finish w r d).engine := by
  have hstart := startNext_of_idle (w := w) h.idle
  have hspawn : spawnLoop w r d = d.act w (.call r .startNext) := spawnReady_none hstart _
  have hengine : (spawnLoop w r d).engine = d.engine := by
    rw [hspawn, engine_act_startNext hstart]
  obtain ⟨hnone, hchannels⟩ := activate_of_none (w := w) h.channels
  have hframe : Frame d.engine (d.engine.activateReadyChannels w).2 := channelStep_activate.frame
  refine ⟨?_, ?_⟩
  · unfold finish activateChannels
    rw [hengine, hnone, hspawn]
    rfl
  · rw [engine_finish, hengine]
    exact ⟨hframe.getRun, hframe.getJob, hchannels, hframe.readyQueue⟩

/-- The engines differ at most in one job's record, which is rewritten, and in the queue. -/
structure Rewritten (f : Job → Job) (j : JobId) (e e' : OrchestratorEngine) : Prop where
  getJob : ∀ k, e'.store.getJob k = if k = j then (e.store.getJob j).map f else e.store.getJob k
  getRun : ∀ k, e'.store.getRun k = e.store.getRun k
  getChannel : ∀ k, e'.store.getChannel k = e.store.getChannel k
  activeJobs : e'.activeJobs = e.activeJobs
  maxConcurrency : e'.maxConcurrency = e.maxConcurrency

variable {f : Job → Job} {j : JobId}

theorem Rewritten.refl (j : JobId) (e : OrchestratorEngine) : Rewritten id j e e := by
  refine ⟨fun k => ?_, fun _ => rfl, fun _ => rfl, rfl, rfl⟩
  split
  · rename_i hk
    rw [hk, Option.map_id]
    rfl
  · rfl

theorem Rewritten.trans {g : Job → Job} {e'' : OrchestratorEngine} (h : Rewritten f j e e')
    (h' : Rewritten g j e' e'') : Rewritten (fun job => g (f job)) j e e'' := by
  refine ⟨fun k => ?_, fun k => (h'.getRun k).trans (h.getRun k),
    fun k => (h'.getChannel k).trans (h.getChannel k), h'.activeJobs.trans h.activeJobs,
    h'.maxConcurrency.trans h.maxConcurrency⟩
  rw [h'.getJob, h.getJob, h.getJob, if_pos rfl]
  split
  · exact Option.map_map ..
  · rfl

theorem Rewritten.same_jobs (h : Rewritten f j e e')
    (hf : ∀ job, e.store.getJob j = some job → f job = job) (k : JobId) :
    e'.store.getJob k = e.store.getJob k := by
  rw [h.getJob]
  split
  · rename_i hk
    rw [hk]
    cases hjob : e.store.getJob j with
    | none => rfl
    | some job => rw [Option.map_some, hf job hjob]
  · rfl

theorem Rewritten.atRest_iff (h : Rewritten f j e e')
    (hf : ∀ job, e.store.getJob j = some job → f job = job)
    (hq : e'.readyQueue = e.readyQueue) : e'.AtRest ↔ e.AtRest := by
  have hidle : e'.Idle ↔ e.Idle := by
    unfold Idle
    rw [h.activeJobs, h.maxConcurrency, hq]
  have hchannels : (∀ k ch, e'.store.getChannel k = some ch → ¬ e'.Activates ch) ↔
      ∀ k ch, e.store.getChannel k = some ch → ¬ e.Activates ch := by
    simp only [h.getChannel, activates_congr (h.same_jobs hf) h.activeJobs]
  exact ⟨fun hr => ⟨hidle.mp hr.idle, hchannels.mp hr.channels⟩,
    fun hr => ⟨hidle.mpr hr.idle, hchannels.mpr hr.channels⟩⟩

/-- With the queue as it was, the end of the handler is harmless just if there is
nothing to start or activate and the job's record was so before. -/
theorem harmless_finish_iff {d₀ : Daemon} (h : Rewritten f j d₀.engine d.engine)
    (hq : d.engine.readyQueue = d₀.engine.readyQueue) (halive : d.alive = true) :
    Harmless d₀ (finish w r d) ↔
      d₀.engine.AtRest ∧ ∀ job, d₀.engine.store.getJob j = some job → f job = job := by
  refine ⟨?_, ?_⟩
  · intro h
    obtain ⟨_, hu⟩ := h
    -- the loop has taken nothing from the queue, so it has done nothing
    have hlen : d.engine.readyQueue.length ≤ (spawnLoop w r d).engine.readyQueue.length := by
      rw [← readyQueue_finish, hu.readyQueue, hq]
    obtain ⟨hengine, hidle⟩ : (spawnLoop w r d).engine = d.engine ∧
        (0 < d.engine.readyQueue.length + 1 → d.engine.Idle) := spawnReady_still hlen
    have hjobs : ∀ k, d.engine.store.getJob k = d₀.engine.store.getJob k := by
      intro k
      rw [← hu.getJob, getJob_finish, hengine]
    have hf : ∀ job, d₀.engine.store.getJob j = some job → f job = job := by
      intro job hjob
      have heq := (h.getJob j).symm.trans (hjobs j)
      rw [if_pos rfl, hjob] at heq
      exact Option.some.inj heq
    refine ⟨(h.atRest_iff hf hq).mp ⟨hidle (Nat.succ_pos _), fun k ch hch hact => ?_⟩, hf⟩
    apply activate_changes (w := w) hch hact
    have hget := hu.getChannel k
    rw [engine_finish, hengine] at hget
    rw [hget, h.getChannel]
  · intro h
    obtain ⟨hrest, hf⟩ := h
    obtain ⟨hsame, hu⟩ := finish_of_atRest (w := w) (r := r) ((h.atRest_iff hf hq).mpr hrest)
    exact ⟨hsame.trans halive, fun k => (hu.getRun k).trans (h.getRun k),
      fun k => (hu.getJob k).trans (h.same_jobs hf k),
      fun k => (hu.getChannel k).trans (h.getChannel k), hu.readyQueue.trans hq⟩

theorem eq_of_append_singleton {α : Type} {x y : α} :
    ∀ {l : List α}, l ++ [y] = x :: l → x = y
  | [], h => (List.cons.inj h).1.symm
  | z :: l, h => by
    obtain ⟨hz, hl⟩ := List.cons.inj h
    exact hz.symm.trans (eq_of_append_singleton (hl.trans (by rw [hz])))

/-- A job that is put in the queue stays there or is started, in a further attempt. -/
theorem not_unchanged_finish_of_pushed (hq : d.engine.readyQueue = e.readyQueue ++ [j])
    {job job' : Job} (hjob : e.store.getJob j = some job)
    (hjob' : d.engine.store.getJob j = some job') (hattempt : job'.attempt = job.attempt) :
    ¬ e.Unchanged (finish w r d).engine := by
  intro hu
  have hqueue : (spawnLoop w r d).engine.readyQueue = e.readyQueue :=
    readyQueue_finish.symm.trans hu.readyQueue
  have hget : (spawnLoop w r d).engine.store.getJob j = some job :=
    calc (spawnLoop w r d).engine.store.getJob j = (finish w r d).engine.store.getJob j :=
          (getJob_finish j).symm
      _ = e.store.getJob j := hu.getJob j
      _ = some job := hjob
  unfold spawnLoop at hqueue hget
  rcases startNext_idle_cases w d.engine with
    ⟨_, heq⟩ | ⟨k, q, hk, hnone, heq⟩ | ⟨job₁, q, hk, hjob₁, heq⟩
  · rw [spawnReady_none heq, engine_act_startNext heq, hq] at hqueue
    simp at hqueue
  · rw [spawnReady_none heq, engine_act_startNext heq] at hqueue
    have hshift := hq.symm.trans hk
    rw [← show q = e.readyQueue from hqueue] at hshift
    rw [eq_of_append_singleton hshift, hjob'] at hnone
    cases hnone
  · obtain ⟨d', hd', hloop⟩ := spawnReady_some (r := r) heq
    rw [hloop] at hqueue hget
    have hshift := hq.symm.trans hk
    have hlen : q.length = e.readyQueue.length := by
      have hlens := congrArg List.length hshift
      simp only [List.length_append, List.length_cons, List.length_nil] at hlens
      omega
    -- the rest of the loop has taken nothing more
    have hkept : d'.engine.readyQueue.length ≤
        (spawnReady w r d.engine.readyQueue.length d').engine.readyQueue.length := by
      rw [hqueue, hd', readyQueue_started, hlen]
    obtain ⟨hstill, _⟩ := spawnReady_still hkept
    rw [hstill, hd', readyQueue_started] at hqueue
    rw [hqueue] at hshift
    have hj := eq_of_append_singleton hshift
    rw [hstill, hd', getJob_started, if_pos hj.symm, hj, hjob', Option.map_some] at hget
    have hattempts := congrArg Job.attempt (Option.some.inj hget)
    rw [← hattempt] at hattempts
    exact u32Succ_ne hattempts

/-- A job that did not exist before exists after. -/
theorem not_unchanged_finish_of_created {k : JobId} (hnone : e.store.getJob k = none)
    (hsome : (d.engine.store.getJob k).isSome = true) : ¬ e.Unchanged (finish w r d).engine := by
  intro hu
  have hget := hu.getJob k
  rw [getJob_finish, hnone] at hget
  rw [← isSome_getJob_spawnReady (w := w) (r := r) (d.engine.readyQueue.length + 1) k d] at hsome
  rw [show spawnReady w r (d.engine.readyQueue.length + 1) d = spawnLoop w r d from rfl, hget]
    at hsome
  cases hsome

/-- A channel that is closed stays so. -/
theorem not_unchanged_finish_of_closed {k : ChannelId} {ch : Channel}
    (hch : e.store.getChannel k = some ch) (hactive : ch.active = true)
    (hclosed : d.engine.store.getChannel k = some ch.close) :
    ¬ e.Unchanged (finish w r d).engine := by
  intro hu
  have hspawned : (spawnLoop w r d).engine.store.getChannel k = some ch.close :=
    (getChannel_spawnReady _ k d).trans hclosed
  have hget := hu.getChannel k
  rw [engine_finish] at hget
  rcases channelStep_activate (w := w) (e := (spawnLoop w r d).engine).channel k with
    heq | ⟨c, _, hc, _, hact, _⟩
  · rw [heq, hspawned, hch] at hget
    rw [← Option.some.inj hget] at hactive
    cases hactive
  · rw [hspawned] at hc
    cases hc
    have hflags := hact.2
    simp [activatable, Channel.close] at hflags

/-! ## Failures -/

theorem getChannel_killPeers (jobId : JobId) (k : ChannelId) (jobIds : List JobId) :
    ∀ d, (jobIds.foldl (killPeer w r jobId) d).engine.store.getChannel k =
      d.engine.store.getChannel k := by
  induction jobIds with
  | nil => exact fun d => rfl
  | cons killId jobIds ih =>
    intro d
    rw [List.foldl_cons, ih]
    have hdrop := (untouched_dropWorker d (workerName killId)).engine
    rw [← hdrop]
    exact getChannel_markFailed ..

/-- A failed job's channel is closed, whatever becomes of its peers. -/
theorem getChannel_failChannel (jobId : JobId) (chId k : ChannelId) :
    (failChannel w r jobId d chId).engine.store.getChannel k =
      if k = chId then (d.engine.store.getChannel k).map Channel.close
      else d.engine.store.getChannel k := by
  have hclosed := getChannel_peerFailure d.engine chId jobId k
  have hswap : (if k = chId then (d.engine.store.getChannel chId).map Channel.close
      else d.engine.store.getChannel k) =
      if k = chId then (d.engine.store.getChannel k).map Channel.close
      else d.engine.store.getChannel k := by
    split
    · rename_i hk
      rw [hk]
    · rfl
  rw [← hswap, ← hclosed]
  unfold failChannel
  dsimp only
  split
  · exact getChannel_killPeers ..
  · rw [(untouched_foldl (untouched_notifyPeer _) _ _).engine]
    rfl
  · rfl

theorem getChannel_failChannels (jobId : JobId) (k : ChannelId) (chIds : List ChannelId) :
    ∀ d, (chIds.foldl (failChannel w r jobId) d).engine.store.getChannel k =
      if k ∈ chIds then (d.engine.store.getChannel k).map Channel.close
      else d.engine.store.getChannel k := by
  induction chIds with
  | nil => exact fun d => rfl
  | cons chId chIds ih =>
    intro d
    rw [List.foldl_cons, ih, getChannel_failChannel]
    by_cases hk : k = chId <;> by_cases hmem : k ∈ chIds
    · -- closing twice is closing once
      have htwice : Channel.close ∘ Channel.close = Channel.close := rfl
      rw [if_pos hmem, if_pos hk, Option.map_map, htwice, if_pos (by simp [hmem])]
    · rw [if_neg hmem, if_pos hk, if_pos (by simp [hk])]
    · rw [if_pos hmem, if_neg hk, if_pos (by simp [hmem])]
    · rw [if_neg hmem, if_neg hk, if_neg (by simp [hk, hmem])]

/-- A late failure writes the job's record and looks at nothing else. -/
theorem rewritten_markFailed (err : String) (hlate : e.activeJobs.get j = none) :
    Rewritten (Job.fail w err) j e (e.markFailed w j err) := by
  refine ⟨getJob_markFailed w e j err, getRun_markFailed_of_notActive w e j err hlate,
    getChannel_markFailed w e j err, ?_, maxConcurrency_markFailed w e j err⟩
  rw [activeJobs_markFailed, HashMap.remove_of_get_none hlate]

/-- Failing a job that is not active, after its record has been rewritten, is harmless
just if the job has no attempts left and its record was so before. -/
theorem harmless_fail_iff {d₀ : Daemon} (h : Rewritten f j d₀.engine d.engine)
    (hq : d.engine.readyQueue = d₀.engine.readyQueue) (halive : d.alive = true)
    (hf : ∀ job, (f job).attempt = job.attempt ∧ (f job).maxAttempts = job.maxAttempts)
    (hlate : d₀.engine.activeJobs.get j = none) (err : String) :
    Harmless d₀ (finish w r (d.act w (.call r (.markFailed j err)))) ↔
      d₀.engine.AtRest ∧ ∀ job, d₀.engine.store.getJob j = some job →
        job.retries = false ∧ (f job).fail w err = job := by
  have hretries : ∀ job, (f job).retries = job.retries := by
    intro job
    unfold Job.retries
    rw [(hf job).1, (hf job).2]
  have hlate' : d.engine.activeJobs.get j = none := by rw [h.activeJobs, hlate]
  have hw : Rewritten (fun job => (f job).fail w err) j d₀.engine
      (d.act w (.call r (.markFailed j err))).engine := h.trans (rewritten_markFailed err hlate')
  have hqueue : (d.act w (.call r (.markFailed j err))).engine.readyQueue =
      if d.engine.requeues j then d₀.engine.readyQueue ++ [j] else d₀.engine.readyQueue := by
    rw [← hq]
    exact readyQueue_markFailed ..
  have hget := h.getJob j
  rw [if_pos rfl] at hget
  cases hjob : d₀.engine.store.getJob j with
  | none =>
    have hre : d.engine.requeues j = false := by
      unfold requeues
      rw [hget, hjob]
      rfl
    rw [hre] at hqueue
    rw [harmless_finish_iff hw hqueue halive, hjob]
    simp
  | some job =>
    have hre : d.engine.requeues j = job.retries := by
      unfold requeues
      rw [hget, hjob]
      exact hretries job
    rw [hre] at hqueue
    cases hr : job.retries with
    | true =>
      rw [hr] at hqueue
      have hget' := hw.getJob j
      rw [if_pos rfl, hjob] at hget'
      -- a retry is queued, and the end of the handler hands it out or leaves it there
      refine iff_of_false (fun hh => ?_) (fun hn => ?_)
      · exact not_unchanged_finish_of_pushed hqueue hjob hget'
          ((Job.fail_attempt w (f job) err).trans (hf job).1) hh.2
      · have hnone := (hn.2 job rfl).1
        rw [hr] at hnone
        cases hnone
    | false =>
      rw [hr] at hqueue
      rw [harmless_finish_iff hw hqueue halive, hjob]
      refine ⟨?_, ?_⟩
      · intro h
        obtain ⟨hrest, hsame⟩ := h
        refine ⟨hrest, fun job' hjob' => ?_⟩
        cases hjob'
        exact ⟨hr, hsame job rfl⟩
      · exact fun hn => ⟨hn.1, fun job' hjob' => (hn.2 job' hjob').2⟩

theorem Job.fail_eq_self_iff {job : Job} {err : String} :
    (job.retries = false ∧ job.fail w err = job) ↔ job.RecordsFailure w err := by
  unfold Job.RecordsFailure
  refine and_congr_right (fun h => ?_)
  unfold Job.fail
  rw [h]
  cases job
  simp only [Bool.false_eq_true, if_false, Job.mk.injEq, true_and, and_true]
  tauto

/-- A late failure is harmless just if it has been noted before. -/
theorem harmless_jobFailed_iff {jobId : JobId} {error : String} (halive : d.alive = true)
    (hlate : d.engine.activeJobs.get jobId = none) :
    Harmless d (d.jobFailed w jobId error) ↔
      d.engine.AtRest ∧ FailureNoted w d jobId error := by
  unfold jobFailed
  dsimp only
  by_cases hch : d.engine.store.channelsForJob w jobId = []
  · -- no channel is closed and no peer killed
    have hpeers : handleChannelPeerFailures w (d.jobRunId jobId) jobId
        (d.removeManaged (workerName jobId)) = d.removeManaged (workerName jobId) := by
      unfold handleChannelPeerFailures
      have hsame : (d.removeManaged (workerName jobId)).engine = d.engine := rfl
      rw [hsame, hch]
      rfl
    have hsame : Rewritten id jobId d.engine (d.removeManaged (workerName jobId)).engine :=
      .refl jobId d.engine
    rw [hpeers, harmless_fail_iff hsame rfl halive (fun _ => ⟨rfl, rfl⟩) hlate error]
    simp only [id_eq, Job.fail_eq_self_iff]
    exact and_congr_right (fun _ => ⟨fun h => ⟨hch, h⟩, fun h => h.2⟩)
  · refine iff_of_false (fun hh => ?_) (fun h => hch h.2.1)
    obtain ⟨ch, hmem⟩ := List.exists_mem_of_ne_nil _ hch
    obtain ⟨hget, hactive, _⟩ := RunStore.mem_channelsForJob.mp hmem
    refine not_unchanged_finish_of_closed hget hactive ?_ hh.2
    have hclosed := getChannel_failChannels (w := w) (r := d.jobRunId jobId) jobId ch.channelId
      ((d.engine.store.channelsForJob w jobId).map (·.channelId))
      (d.removeManaged (workerName jobId))
    rw [if_pos (List.mem_map_of_mem hmem)] at hclosed
    have hbefore : (d.removeManaged (workerName jobId)).engine.store.getChannel ch.channelId =
        some ch := hget
    rw [hbefore] at hclosed
    exact (getChannel_markFailed ..).trans hclosed

/-! ## Completions -/

/-- The engine after a late completion has only rewritten the job's record. -/
theorem markCompleted_of_late {o : List ArtifactId} (hlate : e.activeJobs.get j = none) :
    Rewritten (Job.complete w o) j e (e.markCompleted w j o) ∧
      (e.markCompleted w j o).readyQueue = e.readyQueue ∧
      (e.markCompleted w j o).store.getArtifact = e.store.getArtifact := by
  have hact := activeJobs_markCompleted w e j o
  rw [HashMap.remove_of_get_none hlate] at hact
  refine ⟨⟨fun k => ?_, getRun_markCompleted_of_notActive w e j o hlate,
    getChannel_markCompleted w e j o, hact, maxConcurrency_markCompleted w e j o⟩, ?_, ?_⟩
  · unfold markCompleted
    rw [hlate]
    exact RunStore.getJob_alterJob ..
  · unfold markCompleted
    rw [hlate]
  · unfold markCompleted
    rw [hlate]
    rfl

theorem Job.complete_eq_self_iff {job : Job} {o : List ArtifactId} :
    job.complete w o = job ↔ job.RecordsCompletion w o := by
  unfold Job.complete Job.RecordsCompletion
  cases job
  simp only [Job.mk.injEq, true_and, and_true]
  tauto

theorem Job.complete_fail_eq_self_iff {job : Job} {o : List ArtifactId} {err : String} :
    (job.retries = false ∧ (job.complete w o).fail w err = job) ↔
      job.outputArtifactIds = o ∧ job.RecordsFailure w err := by
  unfold Job.RecordsFailure
  have hretries : (job.complete w o).retries = job.retries := rfl
  refine ⟨?_, ?_⟩
  · intro h
    obtain ⟨hr, heq⟩ := h
    unfold Job.fail at heq
    rw [hretries, hr] at heq
    rw [← heq]
    exact ⟨rfl, hr, rfl, rfl, rfl⟩
  · intro h
    obtain ⟨ho, hr, hst, herr, hfin⟩ := h
    refine ⟨hr, ?_⟩
    unfold Job.fail
    rw [hretries, hr]
    cases job
    cases ho
    cases hst
    cases herr
    cases hfin
    rfl

/-- What the handler of a completion starts its second half from. -/
structure AfterCompletion (w : World) (d : Daemon) (j : JobId) (o : List ArtifactId)
    (d₁ : Daemon) : Prop where
  rewritten : Rewritten (Job.complete w o) j d.engine d₁.engine
  readyQueue : d₁.engine.readyQueue = d.engine.readyQueue
  getArtifact : d₁.engine.store.getArtifact = d.engine.store.getArtifact
  ids : d₁.engine.ids = d.engine.ids
  alive : d₁.alive = true
  maxRevisions : d₁.currentConfig.daemon.maxRevisions = d.currentConfig.daemon.maxRevisions
  late : d.engine.activeJobs.get j = none

variable {o : List ArtifactId} {d₁ : Daemon}

theorem AfterCompletion.getJob (h : AfterCompletion w d j o d₁) {job : Job}
    (hjob : d.engine.store.getJob j = some job) :
    d₁.engine.store.getJob j = some (job.complete w o) := by
  rw [h.rewritten.getJob, if_pos rfl, hjob]
  rfl

theorem AfterCompletion.harmless_iff (h : AfterCompletion w d j o d₁) {job : Job}
    (hjob : d.engine.store.getJob j = some job) :
    Harmless d (finish w r d₁) ↔ d.engine.AtRest ∧ job.RecordsCompletion w o := by
  rw [harmless_finish_iff h.rewritten h.readyQueue h.alive, hjob]
  simp [Job.complete_eq_self_iff]

theorem AfterCompletion.harmless_fail_iff (h : AfterCompletion w d j o d₁) {job : Job}
    (hjob : d.engine.store.getJob j = some job) (err : String) :
    Harmless d (finish w r (d₁.act w (.call r (.markFailed j err)))) ↔
      d.engine.AtRest ∧ job.outputArtifactIds = o ∧ job.RecordsFailure w err := by
  rw [ZeptoPM.harmless_fail_iff h.rewritten h.readyQueue h.alive (fun _ => ⟨rfl, rfl⟩) h.late err,
    hjob]
  simp [Job.complete_fail_eq_self_iff]

/-- Jobs that are created show, since no job had their ids. -/
theorem AfterCompletion.not_harmless_of_created (h : AfterCompletion w d j o d₁)
    (hs : Grounded d.engine) {d₂ : Daemon} {r' : RunId} {new : List Job}
    (hn : Created d₁.engine d₂.engine r' new) (hne : new ≠ []) :
    ¬ Harmless d (finish w r d₂) := by
  obtain ⟨job, hmem⟩ := List.exists_mem_of_ne_nil new hne
  have hfresh := hn.fresh job hmem
  rw [h.ids] at hfresh
  have hnone : d.engine.store.getJob job.jobId = none := by
    cases hget : d.engine.store.getJob job.jobId with
    | none => rfl
    | some old => exact absurd (hs.supervised.jobIssued _ old hget) hfresh
  refine fun hh => not_unchanged_finish_of_created hnone ?_ hh.2
  rw [hn.getJob_new job hmem]
  rfl

theorem AfterCompletion.revises_iff (h : AfterCompletion w d j o d₁) {job : Job}
    (hjob : d.engine.store.getJob j = some job) (decision : ReviewDecision) (m : Nat) :
    d₁.engine.Revises j decision m (job.complete w o) ↔ d.engine.Revises j decision m job := by
  have hcoder : ((job.complete w o).dependsOn.head?.bind d₁.engine.store.getJob).isSome =
      (job.dependsOn.head?.bind d.engine.store.getJob).isSome := by
    rw [Job.complete_dependsOn]
    cases job.dependsOn.head? with
    | none => rfl
    | some coderId =>
      rw [Option.bind_some, Option.bind_some, h.rewritten.getJob]
      split
      · rename_i hk
        rw [hk, Option.isSome_map]
      · rfl
  unfold Revises
  rw [h.getJob hjob, hjob, hcoder]
  simp only [true_and]
  rfl

/-- A planner's outcome is harmless just if it has been noted before; a plan that is
accepted never is. -/
theorem AfterCompletion.harmless_planner_iff (h : AfterCompletion w d j o d₁)
    (hs : Grounded d.engine) (hw : w.After d.engine.ids) {job : Job}
    (hjob : d.engine.store.getJob j = some job) :
    (∃ d₂, d₁.plannerOutput w r j o = .ok d₂ ∧ Harmless d (finish w r d₂)) ↔
      d.engine.AtRest ∧ PlanNoted w d o job := by
  unfold plannerOutput PlanNoted
  rw [h.getArtifact]
  cases o.head?.bind d.engine.store.getArtifact with
  | none =>
    simp only [Except.ok.injEq, exists_eq_left']
    exact h.harmless_iff hjob
  | some artifact =>
    dsimp only
    cases extractJson ((w.readToString artifact.path).getD "") with
    | none => simp
    | some json =>
      dsimp only
      cases w.serde.planFromStr json with
      | error e =>
        simp only [Except.ok.injEq, exists_eq_left']
        exact h.harmless_fail_iff hjob _
      | ok plan =>
        dsimp only
        by_cases hval : validatePlan plan = []
        · have hok := validatePlan_eq_nil.mp hval
          have hw₁ : w.After d₁.engine.ids := by rw [h.ids]; exact hw
          have hn : Created d₁.engine (d₁.act w (.call r (.acceptPlan r j plan))).engine r
              (planJobs w d₁.engine.ids r j plan) := created_acceptPlan hw₁ hok
          have hne : planJobs w d₁.engine.ids r j plan ≠ [] := by
            unfold planJobs
            simp [hok.jobs]
          rw [if_pos (List.isEmpty_iff.mpr hval)]
          simp only [Except.ok.injEq, exists_eq_left']
          exact iff_of_false (h.not_harmless_of_created hs hn hne) (fun hr => hr.2.2.1 hval)
        · rw [if_neg (fun hempty => hval (List.isEmpty_iff.mp hempty))]
          simp only [Except.ok.injEq, exists_eq_left']
          rw [h.harmless_fail_iff hjob]
          simp only [ne_eq, hval, not_false_eq_true, true_and]

/-- A review is harmless just if it makes no revision. -/
theorem AfterCompletion.harmless_review_iff (h : AfterCompletion w d j o d₁)
    (hs : Grounded d.engine) (hw : w.After d.engine.ids) {job : Job}
    (hjob : d.engine.store.getJob j = some job) (decision : ReviewDecision) (m : Nat) :
    Harmless d (finish w r (d₁.act w (.call r (.handleReviewCompletion j decision m)))) ↔
      d.engine.AtRest ∧ job.RecordsCompletion w o ∧ ¬ d.engine.Revises j decision m job := by
  have hrev := h.revises_iff hjob decision m
  by_cases hr : d.engine.Revises j decision m job
  · obtain ⟨coder, fb, heq⟩ := review_of_revises (w := w) (hrev.mpr hr)
    have hw₁ : w.After d₁.engine.ids := by rw [h.ids]; exact hw
    have hengine : (d₁.act w (.call r (.handleReviewCompletion j decision m))).engine =
        d₁.engine.revised w (job.complete w o) coder m fb := heq
    have hn := created_revised hw₁ (job.complete w o) coder m fb
    rw [← hengine] at hn
    exact iff_of_false (h.not_harmless_of_created hs hn (List.cons_ne_nil _ _))
      (fun hnoted => hnoted.2.2 hr)
  · have hnone : ∀ rev, ¬ d₁.engine.Revises j decision m rev := by
      intro rev hrevises
      have hget := hrevises.1
      rw [h.getJob hjob] at hget
      cases hget
      exact hr (hrev.mp hrevises)
    have hengine : (d₁.act w (.call r (.handleReviewCompletion j decision m))).engine =
        d₁.engine := congrArg Prod.snd (review_of_not_revises (w := w) hnone)
    have hw₂ : Rewritten (Job.complete w o) j d.engine
        (d₁.act w (.call r (.handleReviewCompletion j decision m))).engine := by
      rw [hengine]
      exact h.rewritten
    rw [harmless_finish_iff hw₂ (by rw [hengine, h.readyQueue]) h.alive, hjob]
    simp [Job.complete_eq_self_iff, hr]

/-- A reviewer's outcome is harmless just if it has been noted before and asks for
no revision. -/
theorem AfterCompletion.harmless_reviewer_iff (h : AfterCompletion w d j o d₁)
    (hs : Grounded d.engine) (hw : w.After d.engine.ids) {job : Job}
    (hjob : d.engine.store.getJob j = some job) :
    (∃ d₂, d₁.reviewerOutput w r j = .ok d₂ ∧ Harmless d (finish w r d₂)) ↔
      d.engine.AtRest ∧ job.RecordsCompletion w o ∧ ReviewNoted w d o job := by
  have hid := RunStore.jobId_of_getJob hjob
  have hhead : (d₁.engine.store.getJob j).bind (fun j => j.outputArtifactIds.head?) =
      o.head? := by
    rw [h.getJob hjob]
    rfl
  have hquiet : (∃ d₂, (.ok d₁ : Handled) = .ok d₂ ∧ Harmless d (finish w r d₂)) ↔
      d.engine.AtRest ∧ job.RecordsCompletion w o := by
    simp only [Except.ok.injEq, exists_eq_left']
    exact h.harmless_iff hjob
  unfold reviewerOutput ReviewNoted
  rw [hhead, h.getArtifact, h.maxRevisions, hid]
  cases o.head? with
  | none =>
    dsimp only
    rw [hquiet]
    simp
  | some artifactId =>
    dsimp only [Option.bind_some]
    cases d.engine.store.getArtifact artifactId with
    | none =>
      dsimp only
      rw [hquiet]
      simp
    | some artifact =>
      simp only [Option.some.injEq, forall_eq']
      cases parseReviewDecision w ((w.readToString artifact.path).getD "") with
      | none => simp
      | some decision =>
        simp only [Option.some.injEq, exists_eq_left']
        cases decision with
        | approved =>
          dsimp only
          rw [hquiet]
          simp [Revises, ReviewDecision.isRevise]
        | rejected reason =>
          dsimp only
          rw [hquiet]
          simp [Revises, ReviewDecision.isRevise]
        | revise feedback =>
          simp only [Except.ok.injEq, exists_eq_left']
          exact h.harmless_review_iff hs hw hjob _ _

/-- The planner's part of the handler leaves the job's role alone. -/
theorem AfterCompletion.role_plannerOutput (h : AfterCompletion w d j o d₁)
    (hs : Grounded d.engine) (hw : w.After d.engine.ids) {job : Job}
    (hjob : d.engine.store.getJob j = some job) {d₂ : Daemon}
    (hd₂ : d₁.plannerOutput w r j o = .ok d₂) :
    (d₂.engine.store.getJob j).map (·.role) = some job.role := by
  have hsame : (d₁.engine.store.getJob j).map (·.role) = some job.role := by
    rw [h.getJob hjob]
    rfl
  have hfail : ∀ err, ((d₁.act w (.call r (.markFailed j err))).engine.store.getJob j).map
      (·.role) = some job.role := by
    intro err
    have hget : (d₁.act w (.call r (.markFailed j err))).engine.store.getJob j =
        (d₁.engine.store.getJob j).map (Job.fail w err) :=
      (getJob_markFailed w d₁.engine j err j).trans (if_pos rfl)
    rw [hget, h.getJob hjob]
    simp only [Option.map_some, Option.some.injEq]
    unfold Job.fail
    split <;> rfl
  unfold plannerOutput at hd₂
  split at hd₂
  · cases hd₂
    exact hsame
  · split at hd₂
    · cases hd₂
    · split at hd₂
      · cases hd₂
        exact hfail _
      · split at hd₂
        · rename_i plan _ hval
          cases hd₂
          have hw₁ : w.After d₁.engine.ids := by rw [h.ids]; exact hw
          have hn : Created d₁.engine (d₁.act w (.call r (.acceptPlan r j plan))).engine r
              (planJobs w d₁.engine.ids r j plan) :=
            created_acceptPlan hw₁ (validatePlan_eq_nil.mp (List.isEmpty_iff.mp hval))
          have hissued : Issued d₁.engine.ids j := by
            rw [h.ids]
            exact hs.supervised.jobIssued j job hjob
          rw [hn.getJob_old j (hn.notMem hissued)]
          exact hsame
        · cases hd₂
          exact hfail _

/-- A late completion is harmless just if it has been noted before. -/
theorem harmless_jobCompleted_iff (hs : Grounded d.engine) (hw : w.After d.engine.ids)
    (halive : d.alive = true) (hlate : d.engine.activeJobs.get j = none) :
    (∃ d', d.jobCompleted w j o = .ok d' ∧ Harmless d d') ↔
      d.engine.AtRest ∧ CompletionNoted w d j o := by
  obtain ⟨hrewritten, hqueue, hartifacts⟩ := markCompleted_of_late (w := w) (o := o) hlate
  have h : AfterCompletion w d j o
      ((d.removeManaged (workerName j)).act w (.call (d.jobRunId j) (.markCompleted j o))) :=
    { rewritten := hrewritten
      readyQueue := hqueue
      getArtifact := hartifacts
      ids := ids_markCompleted w d.engine j o
      alive := halive
      maxRevisions := rfl
      late := hlate }
  rw [jobCompleted_eq]
  generalize (d.removeManaged (workerName j)).act w
    (.call (d.jobRunId j) (.markCompleted j o)) = d₁ at h
  generalize d.jobRunId j = r
  have hget₁ := h.rewritten.getJob j
  rw [if_pos rfl] at hget₁
  cases hjob : d.engine.store.getJob j with
  | none =>
    rw [hjob] at hget₁
    -- of an unknown job nothing is noted, so the end of the handler decides
    have hplanner : d.hasRole j "planner" = false := by
      unfold hasRole
      rw [hjob]
      rfl
    have hreviewer : d₁.hasRole j "reviewer" = false := by
      unfold hasRole
      rw [hget₁]
      rfl
    simp only [hplanner, hreviewer, Bool.false_eq_true, if_false, Except.ok.injEq,
      exists_eq_left']
    rw [harmless_finish_iff h.rewritten h.readyQueue h.alive]
    unfold CompletionNoted
    rw [hjob]
    simp
  | some job =>
    rw [hjob] at hget₁
    have hnoted : CompletionNoted w d j o ↔ (if job.role = "planner" then PlanNoted w d o job
        else job.RecordsCompletion w o ∧ (job.role = "reviewer" → ReviewNoted w d o job)) := by
      unfold CompletionNoted
      rw [hjob]
      simp
    rw [hnoted]
    -- a planner is no reviewer, so the two parts of the handler exclude each other
    by_cases hp : job.role = "planner"
    · have hplanner : d.hasRole j "planner" = true := by
        unfold hasRole
        rw [hjob]
        simp [hp]
      rw [if_pos hp, ← h.harmless_planner_iff (r := r) hs hw hjob]
      simp only [hplanner, if_true]
      cases hd₂ : d₁.plannerOutput w r j o with
      | error d₂ => simp
      | ok d₂ =>
        have hrole := h.role_plannerOutput hs hw hjob hd₂
        have hreviewer : d₂.hasRole j "reviewer" = false := by
          unfold hasRole
          obtain ⟨job₂, hjob₂, hr₂⟩ := Option.map_eq_some_iff.mp hrole
          rw [hjob₂]
          simp [hr₂, hp]
        simp only [hreviewer, Bool.false_eq_true, if_false, Except.ok.injEq, exists_eq_left']
    · have hplanner : d.hasRole j "planner" = false := by
        unfold hasRole
        rw [hjob]
        simp [hp]
      have hreviewer : d₁.hasRole j "reviewer" = (job.role == "reviewer") := by
        unfold hasRole
        rw [hget₁]
        rfl
      simp only [hplanner, hreviewer, Bool.false_eq_true, if_false, if_neg hp, beq_iff_eq]
      by_cases hr : job.role = "reviewer"
      · simp only [hr, if_true, true_implies]
        rw [← h.harmless_reviewer_iff (r := r) hs hw hjob]
        cases d₁.reviewerOutput w r j with
        | error d₃ => simp
        | ok d₃ => simp
      · simp only [hr, if_false, false_implies, and_true, Except.ok.injEq, exists_eq_left']
        exact h.harmless_iff hjob

/-! ## Events -/

/-- A late event is harmless just if it leaves the daemon unaffected. -/
theorem harmless_event_iff {event : Json} (hs : Sound d.core) (hw : w.After d.engine.ids)
    (halive : d.alive = true) (hterm : Terminal event) (hlate : Late d event) :
    Harmless d (d.step (w, .event event)) ↔ Unaffected w d event := by
  obtain ⟨d₀, hd₀⟩ : ∃ d₀, d₀ = { d with sent := [], calls := [] } := ⟨_, rfl⟩
  -- what was sent and called before does not matter
  have hharmless : ∀ d', Harmless d d' ↔ Harmless d₀ d' := by
    rw [hd₀]
    exact fun d' => Iff.rfl
  have haffected : Unaffected w d event ↔ Unaffected w d₀ event := by
    rw [hd₀]
    exact Iff.rfl
  have hs₀ : Grounded d₀.engine := by rw [hd₀]; exact hs.grounded
  have hw₀ : w.After d₀.engine.ids := by rw [hd₀]; exact hw
  have halive₀ : d₀.alive = true := by rw [hd₀]; exact halive
  have hlate₀ : d₀.engine.activeJobs.get (event.strOr "job_id" "") = none := by
    rw [hd₀]
    exact hlate
  rw [step_of_alive hd₀ halive, hharmless, haffected]
  dsimp only [handle]
  unfold Unaffected
  rcases hterm with htype | htype
  · have hhandle : d₀.handleEvent w event =
        d₀.jobCompleted w (event.strOr "job_id" "") (event.strings "output_artifact_ids") := by
      unfold handleEvent
      rw [htype]
      rfl
    rw [hhandle, if_pos htype, ← harmless_jobCompleted_iff hs₀ hw₀ halive₀ hlate₀]
    cases d₀.jobCompleted w (event.strOr "job_id" "") (event.strings "output_artifact_ids") with
    | ok d' => simp
    | error d' => simp [Harmless]
  · have hhandle : d₀.handleEvent w event =
        .ok (d₀.jobFailed w (event.strOr "job_id" "") (event.strOr "error" "unknown")) := by
      unfold handleEvent
      rw [htype]
      rfl
    rw [hhandle, if_neg (by rw [htype]; decide)]
    exact harmless_jobFailed_iff halive₀ hlate₀

end

/-! ## Runs of the daemon -/

/-- In every state the daemon can reach, a terminal event of a job that is not active
is harmless just if it leaves the daemon unaffected; the same holds of the event when
it is handled once more. -/
theorem lateEvent_iff (persistent : Bool) (sandboxOverride : Option Bool) (capsule : Bool)
    (is : List (World × Input)) (w : World) (event : Json)
    (his : Meets Daemon.step Clocked (Daemon.off persistent sandboxOverride capsule) is)
    (halive : (run Daemon.step (Daemon.off persistent sandboxOverride capsule) is).alive = true)
    (hw : Clocked (run Daemon.step (Daemon.off persistent sandboxOverride capsule) is)
      (w, .event event))
    (hterm : Terminal event) :
    let d := run Daemon.step (Daemon.off persistent sandboxOverride capsule) is
    let d' := d.step (w, .event event)
    (Late d event → (Harmless d d' ↔ Unaffected w d event)) ∧
      ∀ w', d'.alive = true → Clocked d' (w', .event event) → Late d' event →
        (Harmless d' (d'.step (w', .event event)) ↔ Unaffected w' d' event) := by
  intro d d'
  have hs : Sound d.core := sound_run (sound_off ..) his
  have hs' : Sound d'.core := (step_takes (.event event) ⟨hs, hw⟩).2.2.1
  exact ⟨fun hlate => harmless_event_iff hs hw halive hterm hlate,
    fun w' halive' hw' hlate' => harmless_event_iff hs' hw' halive' hterm hlate'⟩

/-! ## A job that comes back -/

/-- A planner completes. -/
def plannerDone : List (World × Input) :=
  [(plannerWorld soloPlan, .start), (plannerWorld soloPlan, .command (.submitRun "task")),
    (plannerWorld soloPlan, completedEvent "job_1_1" [])]

/-- The planner reports a failure. -/
def plannerFailure : Json :=
  .obj [("type", .str "job_failed"), ("job_id", .str "job_1_1"), ("error", .str "crashed")]

/-- A failure of the planner that arrives after its completion starts it again. -/
theorem not_harmless_plannerDone :
    let d := run Daemon.step (Daemon.off true none false) plannerDone
    Meets Daemon.step Clocked (Daemon.off true none false) plannerDone ∧ d.alive = true ∧
      Terminal plannerFailure ∧ Late d plannerFailure ∧
      ¬ Harmless d (d.step (plannerWorld soloPlan, .event plannerFailure)) := by
  refine ⟨by decide, by decide, by decide, by decide, fun h => ?_⟩
  have hstatus := congrArg (Option.map Job.status) (h.2.getJob "job_1_1")
  exact absurd hstatus (by decide)

/-- A planner fails three times, the last time for good, and its run expires. -/
def plannerGone : List (World × Input) :=
  [(dailyWorld 1 0, .start), (dailyWorld 1 0, .command (.submitRun "task")),
    (dailyWorld 2 0, .event plannerFailure), (dailyWorld 3 0, .event plannerFailure),
    (dailyWorld 4 0, .event plannerFailure), (dailyWorld 100000000 100000000, .tick)]

/-- A failure of the job that is gone is harmless. -/
theorem lateEvent_iff_plannerGone :
    let d := run Daemon.step (Daemon.off true none false) plannerGone
    Harmless d (d.step (dailyWorld 100000001 100000001, .event plannerFailure)) := by
  intro d
  have hchannels : d.engine.store.channels.map.len = 0 := by decide +kernel
  have hgone : d.engine.store.getJob "job_1_1" = none := by decide +kernel
  have hiff := (lateEvent_iff true none false plannerGone (dailyWorld 100000001 100000001)
    plannerFailure (by decide +kernel) (by decide +kernel) (by decide +kernel) (by decide)).1
    (by decide +kernel)
  refine hiff.mpr ⟨⟨Or.inr (by decide +kernel), fun k ch hch => ?_⟩, by decide, ?_⟩
  · have hsome : d.engine.store.channels.map.get k = some ch := hch
    rw [HashMap.get_eq_none_of_len hchannels k] at hsome
    cases hsome
  · intro job hjob
    cases hgone.symm.trans hjob

end ZeptoPM
