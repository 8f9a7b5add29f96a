import ZeptoPM.Attempts
import ZeptoPM.InForce
import ZeptoPM.LateEvents

/- Retries. A failure says whether it may be retried, and the handler of failures does
   not look at it: the job is queued again as long as it has attempts left.
   `failure_retried` tells for which failures that is right, and that a job that is not
   queued again is never started again unless it is in the queue already. -/
namespace ZeptoPM
open OrchestratorEngine Daemon

/-! ## Failures -/

/-- The event says that the job must not be retried. -/
def forbidsRetry (event : Json) : Bool := !event.boolOr "retryable" true

/-- The peers of the failed job are dealt with. -/
def Daemon.failPeers (w : World) (d : Daemon) (jobId : JobId) : Daemon :=
  handleChannelPeerFailures w (d.jobRunId jobId) jobId (d.removeManaged (workerName jobId))

/-- What the handler of a failure does before it starts jobs. -/
def Daemon.noteFailure (w : World) (d : Daemon) (jobId : JobId) (error : String) : Daemon :=
  (d.failPeers w jobId).act w (.call (d.jobRunId jobId) (.markFailed jobId error))

/-- The job has had all its attempts, and is not waiting for one. -/
def Job.Over (job : Job) : Prop := job.retries = false ∧ job.status.unfinished = false

/-- The job is ready and in the queue. -/
def OrchestratorEngine.Queued (e : OrchestratorEngine) (j : JobId) : Prop :=
  j ∈ e.readyQueue ∧ ∃ job, e.store.getJob j = some job ∧ job.status = .ready

/-- The job may be given another attempt after the failure: its record counts the starts
that have been made. -/
def MayRetry (event : Json) (job : Job) : Prop :=
  forbidsRetry event = false ∧ job.attempt < job.maxAttempts

/-- The job is queued again just if it may be given another attempt; otherwise it ends
failed, and is not started by this step or any later one. -/
structure Heeds (w : World) (d : Daemon) (event : Json) (job : Job) : Prop where
  queued : (d.fresh.noteFailure w job.jobId (event.strOr "error" "unknown")).engine.Queued
    job.jobId ↔ MayRetry event job
  failed : ¬ MayRetry event job →
    ((d.step (w, .event event)).engine.store.getJob job.jobId).map (·.status) = some .failed
  final : ¬ MayRetry event job → ∀ is, Meets Daemon.step Clocked d ((w, .event event) :: is) →
    Meets Daemon.step (Guarded (NotStarted job.jobId)) d ((w, .event event) :: is)

/-! ## A job that is over -/

/-- The job is over and not in the queue. -/
structure Spent (j : JobId) (e : OrchestratorEngine) : Prop where
  issued : Issued e.ids j
  unqueued : j ∉ e.readyQueue
  settled : ∀ job, e.store.getJob j = some job → job.Over

/-- The row of the job, if it has one, is that of a job that is over. -/
def SpentRow (j : JobId) (c : Core) : Prop :=
  ∀ db, c.db = some db → ∀ job, db.getJob j = some job → job.Over

section
variable {w : World} {e e' : OrchestratorEngine} {j : JobId} {job : Job}

theorem Job.Over.complete (h : job.Over) (o : List ArtifactId) : (job.complete w o).Over :=
  ⟨h.1, rfl⟩

theorem Job.Over.fail (h : job.Over) (err : String) : (job.fail w err).Over := by
  unfold Job.fail
  rw [h.1]
  exact ⟨h.1, rfl⟩

theorem Job.Over.recover (h : job.Over) : job.recover w = job := by
  unfold Job.recover
  rw [if_neg]
  intro hst
  have hun := h.2
  rw [hst] at hun
  cases hun

theorem Spent.frame (h : Spent j e) (hf : Frame e e') : Spent j e' :=
  ⟨hf.ids ▸ h.issued, hf.readyQueue ▸ h.unqueued,
    fun job hjob => h.settled job (hf.getJob j ▸ hjob)⟩

theorem Spent.created (h : Spent j e) {r : RunId} {new : List Job} (hn : Created e e' r new) :
    Spent j e' := by
  have hnew := hn.notMem h.issued
  refine ⟨h.issued.mono hn.le, ?_, ?_⟩
  · rw [hn.readyQueue, List.mem_append, not_or]
    exact ⟨h.unqueued, fun hmem => hnew ((List.filter_sublist.map _).mem hmem)⟩
  · intro job hjob
    rw [hn.getJob_old j hnew] at hjob
    exact h.settled job hjob

theorem Spent.ne_head (h : Spent j e) {k : JobId} {q : List JobId} (hq : e.readyQueue = k :: q) :
    j ≠ k ∧ j ∉ q := by
  have hun := h.unqueued
  rw [hq, List.mem_cons, not_or] at hun
  exact hun

theorem Spent.started (h : Spent j e) {job : Job} {q : List JobId}
    (hq : e.readyQueue = job.jobId :: q) : Spent j (e.started w job q) := by
  obtain ⟨hne, hrest⟩ := h.ne_head hq
  refine ⟨h.issued, hrest, ?_⟩
  intro job' hjob'
  rw [getJob_started, if_neg hne] at hjob'
  exact h.settled job' hjob'

theorem Spent.completed (h : Spent j e) (k : JobId) (o : List ArtifactId) :
    Spent j (e.markCompleted w k o) := by
  have hpending : ∀ {s : RunStore} {r : RunId} {job : Job}, e.store.getJob j = some job →
      ¬ Promotable s r job := by
    intro s r job hjob hp
    have hun := (h.settled job hjob).2
    rw [hp.2.1] at hun
    cases hun
  refine ⟨?_, ?_, ?_⟩
  · rw [(same_markCompleted k o).ids]
    exact h.issued
  · rw [readyQueue_markCompleted, List.mem_append, not_or]
    refine ⟨h.unqueued, ?_⟩
    intro hmem
    obtain ⟨r, job, _, _, hjob, hp⟩ := (mem_promotedIds w e k o).mp hmem
    exact hpending hjob hp
  · intro job' hjob'
    rw [getJob_markCompleted] at hjob'
    obtain ⟨job, hjob, rfl⟩ := Option.map_eq_some_iff.mp hjob'
    unfold afterCompletion
    split
    · exact (h.settled job hjob).complete o
    · split
      · exact h.settled job hjob
      · unfold promoted
        rw [if_neg (hpending hjob)]
        exact h.settled job hjob

theorem Spent.failed (h : Spent j e) (k : JobId) (err : String) :
    Spent j (e.markFailed w k err) := by
  refine ⟨?_, ?_, ?_⟩
  · rw [(same_markFailed k err).ids]
    exact h.issued
  · rw [readyQueue_markFailed]
    split
    · rename_i hreq
      rw [List.mem_append, not_or, List.mem_singleton]
      refine ⟨h.unqueued, ?_⟩
      intro hjk
      subst hjk
      obtain ⟨job, hjob, hretries⟩ := (requeues_iff e j).mp hreq
      rw [(h.settled job hjob).1] at hretries
      cases hretries
    · exact h.unqueued
  · intro job' hjob'
    rw [getJob_markFailed] at hjob'
    split at hjob'
    · rename_i hjk
      subst hjk
      obtain ⟨job, hjob, rfl⟩ := Option.map_eq_some_iff.mp hjob'
      exact (h.settled job hjob).fail err
    · exact h.settled job' hjob'

theorem Spent.cancelled (h : Spent j e) {r : RunId} (hc : CancelledRun w e e' r) :
    Spent j e' := by
  have hother : ¬ e.Cancels r j := by
    intro hcan
    obtain ⟨job, hjob, _, hun⟩ := hcan
    rw [(h.settled job hjob).2] at hun
    cases hun
  refine ⟨hc.ids ▸ h.issued, ?_, ?_⟩
  · rw [hc.queue]
    exact fun hmem => h.unqueued (List.mem_filter.mp hmem).1
  · intro job hjob
    rw [hc.getJob_other j hother] at hjob
    exact h.settled job hjob

theorem spent_call {db : Option SqlitePersistence} {r : RunId} {f : Call} (hg : Grounded e)
    (hl : Legal ⟨e, db⟩ (w, .call r f)) (h : Spent j e) : Spent j (f.apply w e) := by
  cases outcome_call hg hl with
  | frame hf => exact h.frame hf
  | submitted task hn _ => exact h.created hn
  | dropped q heq hq =>
    show Spent j (e.startNext w).2
    rw [heq]
    refine ⟨h.issued, ?_, h.settled⟩
    rcases hq with rfl | ⟨k, hq, _⟩
    · exact h.unqueued
    · exact (h.ne_head hq).2
  | started job q hq _ heq =>
    show Spent j (e.startNext w).2
    rw [heq]
    exact h.started hq
  | completed k o => exact h.completed k o
  | failed k err => exact h.failed k err
  | planned r' p plan hn => exact h.created hn.created
  | revised k d m rev new _ hn => exact h.created hn.created
  | cancelled r' hc => exact h.cancelled hc

theorem Spent.expire (h : Spent j e) (r : RunId) : Spent j (e.removeRun w r) :=
  ⟨h.issued, h.unqueued, fun job hjob => h.settled job (getJob_expire.mp hjob).1⟩

/-- What a restart loads of a job that is over stays over. -/
theorem spent_hydrate {db : Option SqlitePersistence} {ids : IdSupply} (hi : Issued ids j)
    (hrow : SpentRow j ⟨e, db⟩) : Spent j (hydrate w db ids) := by
  cases db with
  | none => exact ⟨hi.restart, List.not_mem_nil, nofun⟩
  | some db =>
    have hover : ∀ job', (hydrate w (some db) ids).store.getJob j = some job' → job'.Over := by
      intro job' hjob'
      rw [getJob_hydrate] at hjob'
      obtain ⟨job, hjob, rfl⟩ := Option.map_eq_some_iff.mp hjob'
      have h := hrow db rfl job hjob
      rwa [h.recover]
    refine ⟨hi.restart, ?_, hover⟩
    intro hmem
    obtain ⟨job, hjob, hst⟩ := mem_readyQueue_hydrate.mp hmem
    have hun := (hover job hjob).2
    rw [hst] at hun
    cases hun

/-- No action brings a job back that is over; a restart does not if its row says so. -/
theorem spent_act {c : Core} {x : World × Action} (hs : Sound c) (hl : Legal c x)
    (h : Spent j c.engine) (hrow : x.2 = .hydrate → SpentRow j c) :
    Spent j (coreStep c x).engine := by
  obtain ⟨e, db⟩ := c
  obtain ⟨w, a⟩ := x
  cases a with
  | call r f => exact spent_call hs.grounded hl h
  | persistRunState r => exact h
  | persistArtifact artifact => exact h
  | genId pre => exact ⟨h.issued.mono (IdSupply.le_genId w e.ids pre), h.unqueued, h.settled⟩
  | expire r => exact h.expire r
  | hydrate => exact spent_hydrate h.issued (hrow rfl)

/-- Rows are written of jobs that are over. -/
theorem spentRow_act {c : Core} (x : World × Action) (h : Spent j c.engine) (hrow : SpentRow j c) :
    SpentRow j (coreStep c x) := by
  obtain ⟨e, db⟩ := c
  obtain ⟨w, a⟩ := x
  intro db' hdb' job hjob
  cases a with
  | call r f => exact hrow db' hdb' job hjob
  | persistRunState r =>
    obtain ⟨db₀, hdb₀, rfl⟩ := Option.map_eq_some_iff.mp hdb'
    rw [SqlitePersistence.getJob_persistRunState] at hjob
    split at hjob
    · exact h.settled job hjob
    · exact hrow db₀ hdb₀ job hjob
  | persistArtifact artifact =>
    obtain ⟨db₀, hdb₀, rfl⟩ := Option.map_eq_some_iff.mp hdb'
    exact hrow db₀ hdb₀ job hjob
  | genId pre => exact hrow db' hdb' job hjob
  | expire r =>
    obtain ⟨db₀, hdb₀, rfl⟩ := Option.map_eq_some_iff.mp hdb'
    exact hrow db₀ hdb₀ job (SqlitePersistence.getJob_deleteRun.mp hjob).1
  | hydrate => exact hrow db' hdb' job hjob

theorem notStarted_of_spent {c : Core} (h : Spent j c.engine) (x : World × Action) :
    NotStarted j c x := by
  intro hstarts
  obtain ⟨_, _, _, _, q, hq, _⟩ := startedBy_eq_some hstarts
  exact (h.ne_head hq).1 rfl

/-- A run from where the job is over never starts it. -/
theorem spent_run {d : Daemon} {is : List (World × Input)} (hs : Sound d.core)
    (h : Spent j d.engine) (hrow : SpentRow j d.core) (his : Meets Daemon.step Clocked d is) :
    Meets Daemon.step (Guarded (NotStarted j)) d is := by
  have htrue : Meets Daemon.step (Guarded (fun _ _ => True)) d is :=
    his.mono fun _ _ => guarded_of_clocked
  refine core_run_meets (P := fun c => Spent j c.engine ∧ SpentRow j c) ?_ ?_ hs ⟨h, hrow⟩ htrue
  · intro c x hs hl hp _
    exact ⟨spent_act hs hl hp.1 (fun _ => hp.2), spentRow_act x hp.1 hp.2⟩
  · intro c x _ _ hp _
    exact notStarted_of_spent hp.1 x

/-! ## Peers -/

/-- Nothing is started and nothing taken from the queue, and slots are only freed. -/
structure Yields (d d' : Daemon) : Prop where
  queue : d.engine.readyQueue <+: d'.engine.readyQueue
  slots : d'.engine.activeJobs.len ≤ d.engine.activeJobs.len
  maxConcurrency : d'.engine.maxConcurrency = d.engine.maxConcurrency
  calls : ∃ l, d'.calls = d.calls ++ l ∧ ∀ k c, Meets coreStep (NotStarted k) c l

/-- Besides, the job's record, its slot and its places in the queue are the same. -/
structure Aside (j : JobId) (d d' : Daemon) : Prop extends Yields d d' where
  getJob : d'.engine.store.getJob j = d.engine.store.getJob j
  active : d'.engine.activeJobs.get j = d.engine.activeJobs.get j
  count : d'.engine.readyQueue.count j = d.engine.readyQueue.count j

variable {d d' d'' : Daemon} {r : RunId} {err : String}

theorem Yields.trans (h : Yields d d') (h' : Yields d' d'') : Yields d d'' := by
  obtain ⟨l, hcalls, hl⟩ := h.calls
  obtain ⟨l', hcalls', hl'⟩ := h'.calls
  refine ⟨h.queue.trans h'.queue, h'.slots.trans h.slots,
    h'.maxConcurrency.trans h.maxConcurrency, l ++ l', ?_,
    fun k c => Meets.append.mpr ⟨hl k c, hl' k _⟩⟩
  rw [hcalls', hcalls, List.append_assoc]

theorem yields_markFailed (d : Daemon) (k : JobId) :
    Yields d (d.act w (.call r (.markFailed k err))) := by
  refine ⟨?_, ?_, maxConcurrency_markFailed .., [(w, .call r (.markFailed k err))], rfl,
    fun _ _ => ⟨nofun, True.intro⟩⟩
  · show d.engine.readyQueue <+: (d.engine.markFailed w k err).readyQueue
    rw [readyQueue_markFailed]
    split
    · exact List.prefix_append ..
    · exact List.prefix_refl _
  · show (d.engine.markFailed w k err).activeJobs.len ≤ _
    rw [activeJobs_markFailed]
    exact HashMap.len_remove_le ..

theorem Aside.trans (h : Aside j d d') (h' : Aside j d' d'') : Aside j d d'' :=
  ⟨h.toYields.trans h'.toYields, h'.getJob.trans h.getJob, h'.active.trans h.active,
    h'.count.trans h.count⟩

theorem aside_untouched (h : Untouched d d') : Aside j d d' := by
  have heng := h.engine
  refine ⟨⟨?_, ?_, ?_, [], ?_, fun _ _ => True.intro⟩, ?_, ?_, ?_⟩
  · rw [heng]
  · rw [heng]
  · rw [heng]
  · rw [h.2, List.append_nil]
  · rw [heng]
  · rw [heng]
  · rw [heng]

theorem aside_foldl {α : Type} {f : Daemon → α → Daemon} (l : List α)
    (hf : ∀ a ∈ l, ∀ d, Aside j d (f d a)) (d : Daemon) : Aside j d (l.foldl f d) :=
  foldl_relates (fun d => aside_untouched (.refl d)) .trans l hf d

theorem aside_markFailed {k : JobId} (hk : k ≠ j) (d : Daemon) :
    Aside j d (d.act w (.call r (.markFailed k err))) := by
  refine ⟨yields_markFailed d k, ?_, ?_, ?_⟩
  · show (d.engine.markFailed w k err).store.getJob j = _
    rw [getJob_markFailed, if_neg (Ne.symm hk)]
  · show (d.engine.markFailed w k err).activeJobs.get j = _
    rw [activeJobs_markFailed, HashMap.get_remove, if_neg (Ne.symm hk)]
  · show (d.engine.markFailed w k err).readyQueue.count j = _
    rw [readyQueue_markFailed]
    split
    · rw [List.count_append, List.count_singleton]
      simp [hk]
    · rfl

theorem aside_killPeer {k : JobId} (hk : k ≠ j) (d : Daemon) : Aside j d (killPeer w r j d k) :=
  (aside_untouched (untouched_dropWorker d (workerName k))).trans (aside_markFailed hk _)

theorem aside_failChannel (d : Daemon) (chId : ChannelId) :
    Aside j d (failChannel w r j d chId) := by
  have hframe := (channelStep_peerFailure (e := d.engine) chId j).frame
  have hcall : Aside j d (d.act w (.call r (.handleChannelPeerFailure chId j))) := by
    refine ⟨⟨?_, ?_, hframe.maxConcurrency, [(w, .call r (.handleChannelPeerFailure chId j))], rfl,
      fun _ _ => ⟨nofun, True.intro⟩⟩, hframe.getJob j, congrArg (·.get j) hframe.activeJobs,
      congrArg (·.count j) hframe.readyQueue⟩
    · exact hframe.readyQueue ▸ List.prefix_refl _
    · exact (congrArg HashMap.len hframe.activeJobs).le
  unfold failChannel
  dsimp only
  split
  · rename_i jobIds haction
    obtain ⟨_, _, hpeers⟩ := killParticipants_mem haction
    exact hcall.trans (aside_foldl jobIds (fun k hk d => aside_killPeer (hpeers k hk).2 d) _)
  · rename_i jobIds message _
    exact hcall.trans (aside_untouched (untouched_foldl (untouched_notifyPeer message) jobIds _))
  · exact hcall

theorem aside_handleChannelPeerFailures (d : Daemon) :
    Aside j d (handleChannelPeerFailures w r j d) :=
  aside_foldl _ (fun chId _ d => aside_failChannel d chId) d

/-! ## The handler -/

theorem aside_failPeers (d : Daemon) : Aside j d (d.failPeers w j) := by
  have hworker : Untouched d (d.removeManaged (workerName j)) := ⟨rfl, rfl⟩
  exact (aside_untouched hworker).trans (aside_handleChannelPeerFailures _)

theorem engine_noteFailure (d : Daemon) : (d.noteFailure w j err).engine =
    (d.failPeers w j).engine.markFailed w j err := rfl

theorem yields_noteFailure (d : Daemon) : Yields d (d.noteFailure w j err) :=
  (aside_failPeers d).toYields.trans (yields_markFailed _ j)

/-- The job is failed as it was, whatever has become of its peers. -/
theorem getJob_noteFailure (d : Daemon) : (d.noteFailure w j err).engine.store.getJob j =
    (d.engine.store.getJob j).map (Job.fail w err) := by
  rw [engine_noteFailure, getJob_markFailed, if_pos rfl, (aside_failPeers d).getJob]

theorem count_noteFailure (hjob : d.engine.store.getJob j = some job) :
    (d.noteFailure w j err).engine.readyQueue.count j =
      d.engine.readyQueue.count j + if job.retries then 1 else 0 := by
  have hpeers := aside_failPeers (w := w) (j := j) d
  have hreq : (d.failPeers w j).engine.requeues j = job.retries := by
    unfold requeues
    rw [hpeers.getJob, hjob]
    rfl
  rw [engine_noteFailure, readyQueue_markFailed, hreq]
  cases job.retries with
  | true =>
    rw [if_pos rfl, List.count_append, hpeers.count]
    simp
  | false =>
    rw [if_neg Bool.false_ne_true, hpeers.count]
    rfl

/-- The handler queues the job just if it has attempts left. -/
theorem queued_noteFailure (hjob : d.engine.store.getJob j = some job) :
    (d.noteFailure w j err).engine.Queued j ↔ job.retries = true := by
  unfold Queued
  rw [getJob_noteFailure, hjob, ← List.count_pos_iff, count_noteFailure hjob]
  have hst := Job.fail_status w job err
  cases hr : job.retries with
  | true =>
    rw [hr] at hst
    exact iff_of_true ⟨by simp, _, rfl, hst⟩ rfl
  | false =>
    rw [hr] at hst
    refine iff_of_false ?_ Bool.false_ne_true
    intro h
    obtain ⟨_, job', hjob', hready⟩ := h
    cases hjob'
    rw [hst] at hready
    cases hready

theorem takes_noteFailure (d : Daemon) :
    Takes w (Owing (d.jobRunId j)) d (d.noteFailure w j err) := takes_failed w d j err ⟨rfl, rfl⟩

theorem same_noteFailure (d : Daemon) : Same d.engine (d.noteFailure w j err).engine :=
  (same_handleChannelPeerFailures w (d.jobRunId j) j (d.removeManaged (workerName j))).trans
    (same_markFailed j err)

theorem spent_noteFailure (hi : Issued d.engine.ids j)
    (hjob : d.engine.store.getJob j = some job) (hout : job.retries = false)
    (hq : j ∉ d.engine.readyQueue) : Spent j (d.noteFailure w j err).engine := by
  refine ⟨(same_noteFailure d).ids ▸ hi, ?_, ?_⟩
  · rw [← List.count_eq_zero, count_noteFailure hjob, hout, List.count_eq_zero.mpr hq]
    rfl
  · intro job' hjob'
    rw [getJob_noteFailure, hjob] at hjob'
    cases hjob'
    unfold Job.fail
    rw [hout]
    exact ⟨hout, rfl⟩

/-- What leads to the end of a handler does not start a job that is over. -/
theorem spent_takes (h : Takes w (Owing r) d d') (ht : Timely w d.core)
    (hspent : Spent j d.engine) : ∃ l, d'.calls = d.calls ++ l ∧
      Meets coreStep (NotStarted j) d.core l ∧ Spent j d'.engine := by
  obtain ⟨l, hcalls, hcore, hlegal, howing, _⟩ := h ht
  have hstays : ∀ x ∈ l, ∀ _ : Core, x.2 ≠ .hydrate := by
    intro x hx _ heq
    have hrem := (howing x hx).1
    rw [heq] at hrem
    cases hrem
  have hguard : Meets coreStep (fun c x => Legal c x ∧ x.2 ≠ .hydrate) d.core l :=
    Meets.and.mpr ⟨hlegal, Meets.of_forall hstays d.core⟩
  have hkeep : ∀ c x, (Sound c ∧ Spent j c.engine) → (Legal c x ∧ x.2 ≠ .hydrate) →
      Sound (coreStep c x) ∧ Spent j (coreStep c x).engine :=
    fun c x hc hx => ⟨sound_act hc.1 hx.1, spent_act hc.1 hx.1 hc.2 (fun h => absurd h hx.2)⟩
  have hlast := run_invariant hkeep ⟨ht.1, hspent⟩ hguard
  refine ⟨l, hcalls, Meets.imp hkeep (fun c x hc _ => notStarted_of_spent hc.2 x)
    ⟨ht.1, hspent⟩ hguard, ?_⟩
  show Spent j d'.core.engine
  rw [hcore]
  exact hlast.2

/-- A job that is not in the queue is left alone. -/
theorem getJob_spawnReady_unqueued (fuel : Nat) : ∀ d, j ∉ d.engine.readyQueue →
    (spawnReady w r fuel d).engine.store.getJob j = d.engine.store.getJob j := by
  induction fuel with
  | zero => exact fun d _ => rfl
  | succ fuel ih =>
    intro d hq
    rcases startNext_idle_cases w d.engine with
      ⟨_, heq⟩ | ⟨_, _, _, _, heq⟩ | ⟨job, q, hhead, _, heq⟩
    · rw [spawnReady_none heq, engine_act_startNext heq]
    · rw [spawnReady_none heq, engine_act_startNext heq]
    · obtain ⟨d', hd', hloop⟩ := spawnReady_some (r := r) heq
      rw [hhead, List.mem_cons, not_or] at hq
      rw [hloop, ih d' (by rw [hd', readyQueue_started]; exact hq.2), hd', getJob_started,
        if_neg hq.1]

/-- A handler that leaves a job over ends so, and writes it to the job's row. -/
theorem finish_of_spent (ht : Timely w d.core) (hspent : Spent j d.engine)
    (hjob : d.engine.store.getJob j = some job) (hr : job.runId = r) :
    ∃ l, (finish w r d).calls = d.calls ++ l ∧ Meets coreStep (NotStarted j) d.core l ∧
      Spent j (finish w r d).engine ∧ SpentRow j (finish w r d).core := by
  obtain ⟨l, hcalls, hmeets, hspent'⟩ := spent_takes
    (takes_spawnLoop.then takes_activateChannels : Takes w (Owing r) d _) ht hspent
  have hget : (finish w r d).engine.store.getJob j = some job := by
    rw [getJob_finish, spawnLoop, getJob_spawnReady_unqueued _ d hspent.unqueued, hjob]
  have hlast : ∀ c, NotStarted j c (w, .persistRunState r) := fun _ => nofun
  refine ⟨l ++ [(w, .persistRunState r)], ?_, Meets.append.mpr ⟨hmeets, hlast _, True.intro⟩,
    hspent', ?_⟩
  · show (activateChannels w r (spawnLoop w r d)).calls ++ _ = _
    rw [hcalls, List.append_assoc]
  · intro db hdb job' hjob'
    obtain ⟨db₀, _, rfl⟩ := Option.map_eq_some_iff.mp hdb
    have hstore : (activateChannels w r (spawnLoop w r d)).core.engine.store.getJob j =
        some job := hget
    rw [SqlitePersistence.getJob_persistRunState, hstore, Option.map_some, hr, if_pos rfl] at hjob'
    cases hjob'
    exact hspent.settled job hjob

/-! ## The queue is worked off -/

theorem isSome_getJob_started (q : List JobId) (k : JobId) :
    ((e.started w job q).store.getJob k).isSome = (e.store.getJob k).isSome := by
  rw [getJob_started]
  split
  · rename_i hk
    rw [hk, Option.isSome_map]
  · rfl

/-- A round of the loop that starts a job makes one call. -/
theorem spawnReady_starts (h : d.engine.startNext w = (some job, e')) :
    ∃ d', d'.engine = e' ∧ d'.core = coreStep d.core (w, .call r .startNext) ∧
      (∀ l, d'.calls ++ l = d.calls ++ ((w, .call r .startNext) :: l)) ∧
      ∀ fuel, spawnReady w r (fuel + 1) d = spawnReady w r fuel d' := by
  have hunt := untouched_spawnJobWorker w (d.act w (.call r .startNext)) job
  refine ⟨(d.act w (.call r .startNext)).spawnJobWorker w job, ?_, hunt.1, ?_, ?_⟩
  · rw [hunt.engine, engine_act_startNext h]
  · intro l
    rw [hunt.2]
    exact List.append_assoc ..
  · intro fuel
    rw [spawnReady, h]

/-- A queued job is started, or nothing is put before it; with a free slot it moves up. -/
theorem spawnReady_advances (fuel : Nat) : ∀ (d : Daemon) (pre post : List JobId),
    d.engine.readyQueue = pre ++ j :: post → (d.engine.store.getJob j).isSome = true →
    ∃ l, (spawnReady w r fuel d).calls = d.calls ++ l ∧
      (¬ Meets coreStep (NotStarted j) d.core l ∨
        ∃ pre' post', (spawnReady w r fuel d).engine.readyQueue = pre' ++ j :: post' ∧
          pre'.length ≤ pre.length ∧ (0 < fuel →
            d.engine.activeJobs.len < d.engine.maxConcurrency → pre'.length < pre.length)) := by
  induction fuel with
  | zero =>
    exact fun d pre post hq _ => ⟨[], (List.append_nil _).symm,
      Or.inr ⟨pre, post, hq, Nat.le_refl _, fun h => absurd h (Nat.lt_irrefl 0)⟩⟩
  | succ fuel ih =>
    intro d pre post hq hsome
    rcases startNext_idle_cases w d.engine with
      ⟨hidle, heq⟩ | ⟨k, q, hhead, hnone, heq⟩ | ⟨job, q, hhead, _, heq⟩
    · rw [spawnReady_none heq]
      refine ⟨[(w, .call r .startNext)], rfl, Or.inr ⟨pre, post, ?_, Nat.le_refl _, ?_⟩⟩
      · rw [engine_act_startNext heq]
        exact hq
      · intro _ hfree
        rcases hidle with hfull | hempty
        · exact absurd hfree (Nat.not_lt.mpr hfull)
        · rw [hempty] at hq
          cases pre <;> cases hq
    · rw [spawnReady_none heq]
      refine ⟨[(w, .call r .startNext)], rfl, Or.inr ?_⟩
      cases pre with
      | nil =>
        -- the id at the head has no job, but `j` has
        rw [hhead, List.nil_append, List.cons.injEq] at hq
        rw [← hq.1, hnone] at hsome
        cases hsome
      | cons i pre =>
        rw [hhead, List.cons_append, List.cons.injEq] at hq
        refine ⟨pre, post, ?_, Nat.le_succ _, fun _ _ => Nat.lt_succ_self _⟩
        rw [engine_act_startNext heq]
        exact hq.2
    · obtain ⟨d₁, hd₁, hcore₁, hcalls₁, hloop⟩ := spawnReady_starts (r := r) heq
      rw [hloop]
      cases pre with
      | nil =>
        rw [hhead, List.nil_append, List.cons.injEq] at hq
        have hstarts : startedBy d.core (w, .call r .startNext) = some j := by
          show (d.engine.startNext w).1.map (·.jobId) = some j
          rw [heq, ← hq.1]
          rfl
        have htail : Quiet "" d₁ (spawnReady w r fuel d₁) := quiet_spawnReady fuel d₁
        obtain ⟨l, hcalls, _⟩ := htail.traced
        exact ⟨_, hcalls.trans (hcalls₁ l), Or.inl (fun h => h.1 hstarts)⟩
      | cons i pre =>
        rw [hhead, List.cons_append, List.cons.injEq] at hq
        obtain ⟨l, hcalls, hl⟩ := ih d₁ pre post (by rw [hd₁, readyQueue_started]; exact hq.2)
          (by rw [hd₁, isSome_getJob_started]; exact hsome)
        refine ⟨_, hcalls.trans (hcalls₁ l), ?_⟩
        rcases hl with hstarts | ⟨pre', post', hqueue, hle, _⟩
        · refine Or.inl (fun h => hstarts ?_)
          rw [hcore₁]
          exact h.2
        -- the id that was before `pre` is gone, whatever the later rounds do
        · exact Or.inr ⟨pre', post', hqueue, Nat.le_succ_of_le hle,
            fun _ _ => Nat.lt_succ_of_le hle⟩

/-- A failure of a job that holds a slot frees it, so that there is one. -/
theorem slots_noteFailure (hbound : d.engine.activeJobs.len ≤ d.engine.maxConcurrency)
    (hfree : d.engine.activeJobs.len < d.engine.maxConcurrency ∨
      d.engine.activeJobs.contains j = true) :
    (d.noteFailure w j err).engine.activeJobs.len <
      (d.noteFailure w j err).engine.maxConcurrency := by
  have hyields : Yields d (d.noteFailure w j err) := yields_noteFailure d
  have hpeers := aside_failPeers (w := w) (j := j) d
  rw [hyields.maxConcurrency]
  rcases hfree with hlt | hactive
  · exact Nat.lt_of_le_of_lt hyields.slots hlt
  · obtain ⟨r, hget⟩ := HashMap.contains_iff.mp hactive
    refine Nat.lt_of_lt_of_le ?_ (hpeers.slots.trans hbound)
    rw [engine_noteFailure, activeJobs_markFailed]
    refine HashMap.len_lt_len (k := j) ?_ (hpeers.active.trans hget) ?_
    · exact fun k v hk => ⟨v, (HashMap.get_of_get_remove hk).2⟩
    · rw [HashMap.get_remove, if_pos rfl]

variable {event : Json}

theorem step_failed (halive : d.alive = true) (htype : event.strOr "type" "" = "job_failed")
    (hj : event.strOr "job_id" "" = j) : d.step (w, .event event) =
      finish w (d.jobRunId j) (d.fresh.noteFailure w j (event.strOr "error" "unknown")) := by
  rw [step_of_alive d.fresh_eq halive]
  dsimp only [handle, handleEvent]
  rw [htype, hj]
  rfl

theorem alive_step_failed (halive : d.alive = true)
    (htype : event.strOr "type" "" = "job_failed") : (d.step (w, .event event)).alive = true := by
  rw [step_failed halive htype rfl]
  have hsame := (constituent_sameConfig w).skeleton
  exact (hsame.finishes (hsame.jobFailed d.fresh _ _)).alive.trans halive

theorem timely_step_failed (halive : d.alive = true)
    (htype : event.strOr "type" "" = "job_failed") (ht : Timely w d.core) :
    Timely w (d.step (w, .event event)).core := by
  obtain ⟨_, _, _, _, _, ht'⟩ := takes_jobFailed w d.fresh _ (event.strOr "error" "unknown") ht
  rw [step_failed halive htype rfl]
  exact ht'

theorem slots_act {c : Core} (hs : Sound c) (x : World × Action)
    (h : 0 < c.engine.maxConcurrency) : 0 < (coreStep c x).engine.maxConcurrency := by
  obtain ⟨e, db⟩ := c
  obtain ⟨w, a⟩ := x
  cases a with
  | call r f =>
    show 0 < (f.apply w e).maxConcurrency
    rw [maxConcurrency_apply hs.grounded.supervised.home]
    exact h
  | hydrate => cases db <;> exact Nat.zero_lt_succ 3
  | persistRunState r => exact h
  | persistArtifact artifact => exact h
  | genId pre => exact h
  | expire r => exact h

/-- The process runs, and there is a job in the queue with so many ids before it. -/
structure Draining (w : World) (j : JobId) (d : Daemon) (n : Nat) : Prop where
  alive : d.alive = true
  timely : Timely w d.core
  slots : 0 < d.engine.maxConcurrency
  known : (d.engine.store.getJob j).isSome = true
  queued : ∃ pre post, d.engine.readyQueue = pre ++ j :: post ∧ pre.length = n

/-- A failure that leaves a slot free brings the job forward, if it does not start it. -/
theorem Draining.step {n : Nat} (h : Draining w j d n)
    (htype : event.strOr "type" "" = "job_failed")
    (hfree : d.engine.activeJobs.len < d.engine.maxConcurrency ∨
      d.engine.activeJobs.contains (event.strOr "job_id" "") = true) :
    ¬ Guarded (NotStarted j) d (w, .event event) ∨
      ∃ m, m < n ∧ Draining w j (d.step (w, .event event)) m := by
  obtain ⟨pre, post, hq, hn⟩ := h.queued
  obtain ⟨k, hk⟩ : ∃ k, event.strOr "job_id" "" = k := ⟨_, rfl⟩
  obtain ⟨err, herr⟩ : ∃ err, event.strOr "error" "unknown" = err := ⟨_, rfl⟩
  have hstep := step_failed (w := w) h.alive htype hk
  rw [hk] at hfree
  rw [herr] at hstep
  have hbound : d.engine.activeJobs.len ≤ d.engine.maxConcurrency :=
    h.timely.1.grounded.supervised.bound
  obtain ⟨d₁, hd₁⟩ : ∃ d₁, d₁ = d.fresh.noteFailure w k err := ⟨_, rfl⟩
  have hyields : Yields d.fresh d₁ := hd₁ ▸ yields_noteFailure d.fresh
  have hslot : d₁.engine.activeJobs.len < d₁.engine.maxConcurrency :=
    hd₁ ▸ slots_noteFailure (d := d.fresh) hbound hfree
  have hknown : (d₁.engine.store.getJob j).isSome = true := by
    have hsame : Same d.fresh.engine d₁.engine := hd₁ ▸ same_noteFailure d.fresh
    have hjob := congrArg Option.isSome (hsame.job j)
    rw [Option.isSome_map, Option.isSome_map] at hjob
    exact hjob.trans h.known
  obtain ⟨l₁, hcalls₁, hcore₁, _⟩ := (hd₁ ▸ takes_noteFailure d.fresh :
    Takes w (Owing (d.fresh.jobRunId k)) d.fresh d₁) h.timely
  obtain ⟨ext, hext⟩ := hyields.queue
  have hq₁ : d₁.engine.readyQueue = pre ++ j :: (post ++ ext) := by
    rw [← hext]
    show d.engine.readyQueue ++ ext = _
    rw [hq, List.append_assoc]
    rfl
  rw [← hd₁] at hstep
  obtain ⟨l, hcalls, hl⟩ := spawnReady_advances (w := w) (r := d.jobRunId k)
    (d₁.engine.readyQueue.length + 1) d₁ pre _ hq₁ hknown
  rcases hl with hstarts | ⟨pre', post', hqueue, _, hless⟩
  · -- the loop of this very step starts the job
    refine Or.inl (fun hg => hstarts ?_)
    have hall := hg.2
    rw [hstep, calls_finish, spawnLoop, hcalls, hcalls₁] at hall
    rw [hcore₁]
    exact (Meets.append.mp (Meets.append.mp hall).1).2
  · refine Or.inr ⟨pre'.length, hn ▸ hless (Nat.succ_pos _) hslot, ?_⟩
    have hqueue' : (d.step (w, .event event)).engine.readyQueue = pre' ++ j :: post' := by
      rw [hstep, readyQueue_finish]
      exact hqueue
    have hknown' : ((d.step (w, .event event)).engine.store.getJob j).isSome = true := by
      rw [hstep, getJob_finish, spawnLoop, isSome_getJob_spawnReady]
      exact hknown
    have hslots := core_step (G := fun _ _ => True) (fun c x hs _ hp _ => slots_act hs x hp) d
      (w, .event event) ⟨h.timely.1, h.slots⟩ (guarded_of_clocked h.timely.2)
    exact ⟨alive_step_failed h.alive htype, timely_step_failed h.alive htype h.timely, hslots.2,
      hknown', pre', post', hqueue', rfl⟩

/-- In some continuation of the run the queued job is started. -/
theorem Draining.starts : ∀ {n : Nat} {d : Daemon}, Draining w j d n →
    ∃ is, Meets Daemon.step Clocked d is ∧ ¬ Meets Daemon.step (Guarded (NotStarted j)) d is := by
  intro n
  induction n using Nat.strong_induction_on with
  | _ n ih =>
    intro d h
    obtain ⟨k, hfree⟩ : ∃ k, d.engine.activeJobs.len < d.engine.maxConcurrency ∨
        d.engine.activeJobs.contains k = true := by
      by_cases hlt : d.engine.activeJobs.len < d.engine.maxConcurrency
      · exact ⟨"", Or.inl hlt⟩
      · have hpos := Nat.lt_of_lt_of_le h.slots (Nat.not_lt.mp hlt)
        obtain ⟨k, hk⟩ := List.exists_mem_of_length_pos hpos
        exact ⟨k, Or.inr (HashMap.contains_iff.mpr (HashMap.mem_keys.mp hk))⟩
    have hstep : ¬ Guarded (NotStarted j) d (w, failedEvent k) ∨
        ∃ m, m < n ∧ Draining w j (d.step (w, failedEvent k)) m := h.step rfl hfree
    rcases hstep with hstarts | ⟨m, hm, hdrain⟩
    · exact ⟨[(w, failedEvent k)], ⟨h.timely.2, True.intro⟩, fun hg => hstarts hg.1⟩
    · obtain ⟨is, hclocked, hstarts⟩ := ih m hm hdrain
      exact ⟨(w, failedEvent k) :: is, ⟨h.timely.2, hclocked⟩, fun hg => hstarts hg.2⟩

/-! ## Failures are retried -/

theorem mayRetry_iff (h : forbidsRetry event = true → job.retries = false) :
    MayRetry event job ↔ job.retries = true := by
  unfold MayRetry
  rw [← decide_eq_true_iff (p := job.attempt < job.maxAttempts)]
  show forbidsRetry event = false ∧ job.retries = true ↔ _
  refine ⟨fun hm => hm.2, fun hr => ⟨?_, hr⟩⟩
  cases hf : forbidsRetry event with
  | false => rfl
  | true => rw [h hf] at hr; cases hr

/-- A job without attempts left that is not in the queue ends failed. -/
theorem failed_for_good (halive : d.alive = true) (ht : Timely w d.core)
    (htype : event.strOr "type" "" = "job_failed") (hj : event.strOr "job_id" "" = j)
    (hjob : d.engine.store.getJob j = some job) (hout : job.retries = false)
    (hq : j ∉ d.engine.readyQueue) :
    ((d.step (w, .event event)).engine.store.getJob j).map (·.status) = some .failed ∧
      Guarded (NotStarted j) d (w, .event event) ∧ Spent j (d.step (w, .event event)).engine ∧
      SpentRow j (d.step (w, .event event)).core := by
  have hstep := step_failed (w := w) halive htype hj
  obtain ⟨err, herr⟩ : ∃ err, event.strOr "error" "unknown" = err := ⟨_, rfl⟩
  rw [herr] at hstep
  have hget : (d.fresh.noteFailure w j err).engine.store.getJob j = some (job.fail w err) := by
    rw [getJob_noteFailure, show d.fresh.engine = d.engine from rfl, hjob]
    rfl
  have hspent : Spent j (d.fresh.noteFailure w j err).engine :=
    spent_noteFailure (d := d.fresh) (ht.1.grounded.supervised.jobIssued j job hjob) hjob hout hq
  have hrun : (job.fail w err).runId = d.jobRunId j := by
    rw [Job.fail_runId, jobRunId, hjob]
    rfl
  have hyields : Yields d.fresh (d.fresh.noteFailure w j err) := yields_noteFailure d.fresh
  obtain ⟨l₁, hcalls₁, hquiet⟩ := hyields.calls
  obtain ⟨l₁', hcalls₁', hcore₁, _, _, ht₁⟩ :=
    (takes_noteFailure d.fresh : Takes w _ d.fresh (d.fresh.noteFailure w j err)) ht
  obtain rfl : l₁' = l₁ := List.append_cancel_left (hcalls₁'.symm.trans hcalls₁)
  obtain ⟨l, hcalls, hmeets, hspent', hrow⟩ := finish_of_spent ht₁ hspent hget hrun
  rw [hcore₁] at hmeets
  rw [hstep]
  refine ⟨?_, ⟨ht.2, ?_⟩, hspent', hrow⟩
  · rw [getJob_finish, spawnLoop, getJob_spawnReady_unqueued _ _ hspent.unqueued, hget,
      Option.map_some, Job.fail_status, hout]
    rfl
  · rw [hstep, hcalls, hcalls₁]
    exact Meets.append.mpr ⟨hquiet j _, hmeets⟩

/-- For every run, failure and active job: the failure is heeded just if the event does
not forbid an attempt that the job has left, and a job that has none left is not in
the queue of ready jobs. -/
theorem failure_retried (persistent : Bool) (sandboxOverride : Option Bool) (capsule : Bool)
    (is : List (World × Input)) (w : World) (event : Json) (job : Job)
    (hclocked : Meets Daemon.step Clocked (Daemon.off persistent sandboxOverride capsule)
      (is ++ [(w, .event event)]))
    (htype : event.strOr "type" "" = "job_failed") :
    let d := run Daemon.step (Daemon.off persistent sandboxOverride capsule) is
    d.alive = true → d.engine.store.getJob (event.strOr "job_id" "") = some job →
    d.engine.activeJobs.contains job.jobId = true →
      (Heeds w d event job ↔ (forbidsRetry event = true → job.retries = false) ∧
        (job.retries = false → job.jobId ∉ d.engine.readyQueue)) := by
  intro d halive hjob hactive
  obtain ⟨hrun, hclock, _⟩ := Meets.append.mp hclocked
  obtain ⟨hsound, hslots⟩ : Sound d.core ∧ 0 < d.core.engine.maxConcurrency :=
    core_clocked (fun c x hs _ hp => slots_act hs x hp) (sound_off ..) (Nat.zero_lt_succ 3) hrun
  have hid := RunStore.jobId_of_getJob hjob
  rw [← hid] at hjob
  have ht : Timely w d.core := ⟨hsound, hclock⟩
  have hqueued : (d.fresh.noteFailure w job.jobId (event.strOr "error" "unknown")).engine.Queued
      job.jobId ↔ job.retries = true := queued_noteFailure (d := d.fresh) hjob
  refine ⟨fun hh => ⟨?_, ?_⟩, fun h => ?_⟩
  · -- a retry is forbidden, but the job has attempts left and is queued again
    intro hforbids
    by_contra hr
    have hmay := hh.queued.mp (hqueued.mpr (Bool.not_eq_false _ ▸ hr))
    exact absurd (hforbids.symm.trans hmay.1) Bool.true_eq_false.mp
  · -- the job has none left, but stands in the queue: some continuation starts it
    intro hout hmem
    have hno : ¬ MayRetry event job := by
      intro hmay
      rw [hqueued.mp (hh.queued.mpr hmay)] at hout
      cases hout
    obtain ⟨pre, post, hq⟩ := List.append_of_mem hmem
    have hdrain : Draining w job.jobId d pre.length :=
      ⟨halive, ht, hslots, by rw [hjob]; rfl, pre, post, hq, rfl⟩
    rcases hdrain.step htype (Or.inr (hid ▸ hactive)) with hstarts | ⟨m, _, hnext⟩
    · exact hstarts (hh.final hno [] ⟨hclock, True.intro⟩).1
    · obtain ⟨is', hclocked', hstarts⟩ := hnext.starts
      exact hstarts (hh.final hno is' ⟨hclock, hclocked'⟩).2
  · have hmay := mayRetry_iff h.1
    refine ⟨hqueued.trans hmay.symm, fun hno => ?_, fun hno is' his' => ?_⟩
    · have hout : job.retries = false := by simpa using mt hmay.mpr hno
      exact (failed_for_good halive ht htype hid.symm hjob hout (h.2 hout)).1
    · have hout : job.retries = false := by simpa using mt hmay.mpr hno
      obtain ⟨_, hguard, hspent, hrow⟩ :=
        failed_for_good halive ht htype hid.symm hjob hout (h.2 hout)
      refine ⟨hguard, spent_run ?_ hspent hrow his'.2⟩
      exact (timely_step_failed halive htype ht).1

end

/-! ## A planner fails -/

/-- A run is submitted, and its planner started. -/
def plannerStarted (w : World) : List (World × Input) :=
  [(w, .start), (w, .command (.submitRun "task"))]

/-- The planner job of the run in its first attempt. -/
def startedPlanner (w : World) : Job := (plannerJob w "run_1_0" "job_1_1" "task").start w

/-- The first failure of a planner is heeded. -/
theorem failure_retried_planner :
    Heeds (plannerWorld soloPlan)
      (run Daemon.step (Daemon.off true none false) (plannerStarted (plannerWorld soloPlan)))
      plannerFailure (startedPlanner (plannerWorld soloPlan)) :=
  (failure_retried true none false (plannerStarted (plannerWorld soloPlan))
    (plannerWorld soloPlan) plannerFailure (startedPlanner (plannerWorld soloPlan)) (by decide)
    (by decide) (by decide) rfl (by decide)).mpr ⟨by decide, by decide⟩

theorem forbidsRetry_missingProfile (job : Job) : forbidsRetry (missingProfile job) = true := rfl

/-- The daemon reports that no agent has the planner's profile, and that trying again is
of no use; the planner is queued for its second attempt all the same. -/
theorem not_failure_retried_missingProfile :
    let w := plannerWorld soloPlan
    let d := run Daemon.step (Daemon.off true none false) (plannerStarted w)
    let event := missingProfile (startedPlanner w)
    Meets Daemon.step Clocked (Daemon.off true none false)
        (plannerStarted w ++ [(w, .event event)]) ∧
      d.alive = true ∧ Effect.event event ∈ d.sent ∧
      event.strOr "type" "" = "job_failed" ∧
      d.engine.store.getJob "job_1_1" = some (startedPlanner w) ∧
      d.engine.activeJobs.contains "job_1_1" = true ∧
      ¬ Heeds w d event (startedPlanner w) := by
  have hsent : (run Daemon.step (Daemon.off true none false)
      (plannerStarted (plannerWorld soloPlan))).sent.head? =
        some (.event (missingProfile (startedPlanner (plannerWorld soloPlan)))) := by rfl
  have hjob : (run Daemon.step (Daemon.off true none false)
      (plannerStarted (plannerWorld soloPlan))).fresh.engine.store.getJob
        (startedPlanner (plannerWorld soloPlan)).jobId =
          some (startedPlanner (plannerWorld soloPlan)) := by decide
  refine ⟨by decide, by decide, List.mem_of_head? hsent, by decide, hjob, by decide, fun h => ?_⟩
  have hmay := h.queued.mp ((queued_noteFailure hjob).mpr (by decide))
  exact absurd ((forbidsRetry_missingProfile _).symm.trans hmay.1) Bool.true_eq_false.mp

end ZeptoPM
