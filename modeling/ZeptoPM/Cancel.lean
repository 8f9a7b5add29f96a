import ZeptoPM.Outcomes

/- Cancelled runs. Cancelling fails the unfinished jobs of a run, which leaves
   those with attempts left ready, drains the queue and writes the run's record.
   `Final` is what holds of the run from then on. It is broken by what looks at a
   job without looking at its run: a late failure queues a job that has attempts
   left, a plan or a revision adds jobs, and a restart queues the rows that are
   ready. `Respects` excludes these, and `cancelled_run` shows that nothing else
   brings a cancelled run back. -/
namespace ZeptoPM
open OrchestratorEngine

/-! ## The condition -/

/-- Nothing queues a job of the run or adds one to it. -/
def Respects (r : RunId) (c : Core) (x : World × Action) : Prop :=
  match x.2 with
  | .call _ (.markFailed j _) =>
    ∀ job ∈ c.engine.store.getJob j, job.runId = r → job.retries = false
  | .call _ (.acceptPlan r' _ _) => r' ≠ r
  | .call _ (.handleReviewCompletion j d m) =>
    ∀ rev ∈ c.engine.store.getJob j, c.engine.Revises j d m rev → rev.runId ≠ r
  | .hydrate => ∀ db ∈ c.db, ∀ job ∈ db.loadJobs x.1, job.runId = r →
      job.status ≠ .ready ∧ (job.status = .running → job.retries = false)
  | _ => True

instance (r : RunId) (c : Core) (x : World × Action) : Decidable (Respects r c x) := by
  obtain ⟨w, ⟨r₀, f⟩ | _⟩ := x
  · rcases f with _ | _ <;> dsimp only [Respects] <;> infer_instance
  all_goals
    dsimp only [Respects]
    infer_instance

/-- The job handed out, if any, is of another run. -/
def NotHandedOut (r : RunId) (c : Core) (x : World × Action) : Prop :=
  match x.2 with
  | .call _ .startNext => ∀ job ∈ c.engine.nextJob.1, job.runId ≠ r
  | _ => True

instance (r : RunId) (c : Core) (x : World × Action) : Decidable (NotHandedOut r c x) := by
  obtain ⟨w, ⟨r₀, f⟩ | _⟩ := x
  · rcases f with _ | _ <;> dsimp only [NotHandedOut] <;> infer_instance
  all_goals
    dsimp only [NotHandedOut]
    infer_instance

/-- The run is not removed. -/
def NotExpired (r : RunId) (_ : Core) (x : World × Action) : Prop :=
  match x.2 with
  | .expire r' => r' ≠ r
  | _ => True

instance (r : RunId) (c : Core) (x : World × Action) : Decidable (NotExpired r c x) := by
  obtain ⟨w, _ | _⟩ := x <;> dsimp only [NotExpired] <;> infer_instance

/-! ## The invariant -/

/-- The run is cancelled, none of its jobs is queued or active, and all of them
satisfy `S`. -/
structure Final (S : JobId → Prop) (r : RunId) (e : OrchestratorEngine) : Prop where
  status : ∀ run, e.store.getRun r = some run → run.status = .cancelled
  idle : ∀ k, e.activeJobs.get k ≠ some r
  unqueued : e.NoneQueued r
  jobs : ∀ k job, e.store.getJob k = some job → job.runId = r → S k
  known : Issued e.ids r

/-- The database agrees that the run is cancelled. -/
def FinalCore (S : JobId → Prop) (r : RunId) (c : Core) : Prop :=
  Final S r c.engine ∧ ∀ db, c.db = some db → ∀ run, db.getRun r = some run →
    run.status = .cancelled

section
variable {S : JobId → Prop} {w : World} {e e' : OrchestratorEngine} {r : RunId}

theorem Final.frame (h : Final S r e) (hf : Frame e e') : Final S r e' := by
  refine ⟨?_, ?_, ?_, ?_, ?_⟩
  · intro run hrun
    exact h.status run ((hf.getRun r).symm.trans hrun)
  · intro k
    rw [hf.activeJobs]
    exact h.idle k
  · intro k hk job hjob
    rw [hf.readyQueue] at hk
    exact h.unqueued k hk job ((hf.getJob k).symm.trans hjob)
  · intro k job hjob
    exact h.jobs k job ((hf.getJob k).symm.trans hjob)
  · rw [hf.ids]
    exact h.known

/-- New jobs of another run do not matter. -/
theorem Final.created (h : Final S r e) {r' : RunId} {new : List Job} (hn : Created e e' r' new)
    (hr : r' ≠ r) (hrun : e'.store.getRun r = e.store.getRun r) : Final S r e' := by
  have hold : ∀ k job, e'.store.getJob k = some job → job.runId = r →
      k ∉ new.map (·.jobId) ∧ e.store.getJob k = some job := by
    intro k job hjob hjr
    rcases hn.cases hjob with ⟨hmem, _⟩ | hold
    · exact absurd ((hn.runId job hmem).symm.trans hjr) hr
    · exact hold
  refine ⟨?_, ?_, ?_, ?_, ?_⟩
  · intro run hget
    exact h.status run (hrun.symm.trans hget)
  · intro k
    rw [hn.activeJobs]
    exact h.idle k
  · intro k hk job hjob hjr
    obtain ⟨hnot, hjob'⟩ := hold k job hjob hjr
    rw [hn.readyQueue, List.mem_append] at hk
    refine h.unqueued k (hk.resolve_right (fun hk => ?_)) job hjob' hjr
    exact hnot ((List.filter_sublist.map _).mem hk)
  · intro k job hjob hjr
    exact h.jobs k job (hold k job hjob hjr).2 hjr
  · exact h.known.mono hn.le

theorem final_started (h : Final S r e) {job : Job} {q : List JobId}
    (hq : e.readyQueue = job.jobId :: q) (hjob : e.store.getJob job.jobId = some job) :
    Final S r (e.started w job q) := by
  have hr : job.runId ≠ r := h.unqueued job.jobId (hq ▸ List.mem_cons_self) job hjob
  have hbefore : ∀ k job', (e.started w job q).store.getJob k = some job' → ∃ job₀,
      e.store.getJob k = some job₀ ∧ job'.runId = job₀.runId := by
    intro k job' hk
    rw [getJob_started] at hk
    split at hk
    · rename_i hkj
      obtain ⟨job₀, hjob₀, rfl⟩ := Option.map_eq_some_iff.mp hk
      exact ⟨job₀, hkj ▸ hjob₀, rfl⟩
    · exact ⟨job', hk, rfl⟩
  refine ⟨?_, ?_, ?_, ?_, ?_⟩
  · intro run hrun
    rw [getRun_started, if_neg (Ne.symm hr)] at hrun
    exact h.status run hrun
  · intro k hk
    rw [getActive_started] at hk
    split at hk
    · exact hr (Option.some.inj hk)
    · exact h.idle k hk
  · intro k hk job' hjob' hjr
    obtain ⟨job₀, hjob₀, hr₀⟩ := hbefore k job' hjob'
    exact h.unqueued k (hq ▸ List.mem_cons_of_mem _ hk) job₀ hjob₀ (hr₀.symm.trans hjr)
  · intro k job' hjob' hjr
    obtain ⟨job₀, hjob₀, hr₀⟩ := hbefore k job' hjob'
    exact h.jobs k job₀ hjob₀ (hr₀.symm.trans hjr)
  · exact h.known

/-- An outcome of a job that does not queue a job of the run. -/
theorem Final.outcome (h : Final S r e) (hsame : Same e e') {j : JobId}
    (hrun : e'.store.getRun r = e.store.getRun r)
    (hact : e'.activeJobs = e.activeJobs.remove j)
    (hq : ∀ k ∈ e'.readyQueue, k ∈ e.readyQueue ∨
      ∀ job, e.store.getJob k = some job → job.runId ≠ r) : Final S r e' := by
  refine ⟨?_, ?_, ?_, ?_, ?_⟩
  · intro run hget
    exact h.status run (hrun.symm.trans hget)
  · intro k hk
    rw [hact] at hk
    exact h.idle k (HashMap.get_of_get_remove hk).2
  · intro k hk job' hjob' hjr
    obtain ⟨job, hjob, hr⟩ := hsame.job_before hjob'
    rcases hq k hk with hk | hother
    · exact h.unqueued k hk job hjob (hr.symm.trans hjr)
    · exact hother job hjob (hr.symm.trans hjr)
  · intro k job' hjob' hjr
    obtain ⟨job, hjob, hr⟩ := hsame.job_before hjob'
    exact h.jobs k job hjob (hr.symm.trans hjr)
  · rw [hsame.ids]
    exact h.known

theorem final_markCompleted (h : Final S r e) (j : JobId) (o : List ArtifactId) :
    Final S r (e.markCompleted w j o) := by
  refine h.outcome (same_markCompleted j o) (getRun_markCompleted_ne w e j o (h.idle j))
    (activeJobs_markCompleted w e j o) ?_
  intro k hk
  rw [readyQueue_markCompleted, List.mem_append] at hk
  refine hk.imp id (fun hk => ?_)
  -- promoted jobs are of a run that has an active job
  obtain ⟨r', job, hact, _, hjob, hp⟩ := (mem_promotedIds w e j o).mp hk
  intro job' hjob' hjr
  rw [hjob] at hjob'
  cases hjob'
  exact h.idle j (hact.trans (congrArg some (hp.1.symm.trans hjr)))

theorem final_markFailed (h : Final S r e) (j : JobId) (err : String)
    (hok : ∀ job ∈ e.store.getJob j, job.runId = r → job.retries = false) :
    Final S r (e.markFailed w j err) := by
  refine h.outcome (same_markFailed j err) (getRun_markFailed_ne w e j err (h.idle j))
    (activeJobs_markFailed w e j err) ?_
  intro k hk
  rw [readyQueue_markFailed] at hk
  split at hk
  · rename_i hreq
    refine (List.mem_append.mp hk).imp id (fun hk => ?_)
    obtain rfl := List.mem_singleton.mp hk
    intro job hjob hjr
    obtain ⟨job', hjob', hretries⟩ := (requeues_iff e k).mp hreq
    rw [hjob] at hjob'
    cases hjob'
    rw [hok job hjob hjr] at hretries
    cases hretries
  · exact Or.inl hk

theorem Final.cancelled (h : Final S r e) {r' : RunId} (hc : CancelledRun w e e' r') :
    Final S r e' := by
  refine ⟨?_, ?_, ?_, ?_, ?_⟩
  · intro run hrun
    by_cases hr : r = r'
    · subst hr
      obtain ⟨run', hrun', hst⟩ := hc.getRun_self
      rw [hrun'] at hrun
      cases hrun
      exact hst
    · exact h.status run ((hc.getRun_ne r hr).symm.trans hrun)
  · intro k hk
    by_cases hcan : e.Cancels r' k
    · rw [hc.active_cancelled k hcan] at hk
      cases hk
    · exact h.idle k ((hc.active_other k hcan).symm.trans hk)
  · intro k hk job' hjob' hjr
    obtain ⟨job, hjob, hr⟩ := hc.job_before hjob'
    rw [hc.queue, List.mem_filter] at hk
    exact h.unqueued k hk.1 job hjob (hr.symm.trans hjr)
  · intro k job' hjob' hjr
    obtain ⟨job, hjob, hr⟩ := hc.job_before hjob'
    exact h.jobs k job hjob (hr.symm.trans hjr)
  · rw [hc.ids]
    exact h.known

/-- A successful cancellation is final. -/
theorem final_of_cancelled (hg : Grounded e) (hrun : ∃ run, e.store.getRun r = some run)
    (hc : CancelledRun w e e' r)
    (hS : ∀ k job, e.store.getJob k = some job → job.runId = r → S k) : Final S r e' := by
  obtain ⟨run, hrun⟩ := hrun
  refine ⟨?_, ?_, ?_, ?_, ?_⟩
  · intro run' hrun'
    obtain ⟨run'', hrun'', hst⟩ := hc.getRun_self
    rw [hrun''] at hrun'
    cases hrun'
    exact hst
  · intro k hk
    by_cases hcan : e.Cancels r k
    · rw [hc.active_cancelled k hcan] at hk
      cases hk
    · have hact : e.activeJobs.get k = some r := (hc.active_other k hcan).symm.trans hk
      cases hjob : e.store.getJob k with
      | none =>
        rw [hg.activeGone k r hact hjob] at hrun
        cases hrun
      | some job =>
        refine hcan ⟨job, hjob, hg.supervised.home k r job hact hjob, ?_⟩
        rw [hg.activeRunning k r job hact hjob]
        rfl
  · intro k hk job' hjob' hjr
    obtain ⟨job, hjob, hr⟩ := hc.job_before hjob'
    have hdrained := hk
    rw [hc.queue, List.mem_filter, hjob] at hdrained
    simp [hr.symm.trans hjr] at hdrained
  · intro k job' hjob' hjr
    obtain ⟨job, hjob, hr⟩ := hc.job_before hjob'
    exact hS k job hjob (hr.symm.trans hjr)
  · rw [hc.ids]
    exact hg.runIssued r run hrun

/-! ## One action -/

theorem final_call {db : Option SqlitePersistence} {r₀ : RunId} {f : Call} (hg : Grounded e)
    (hl : Legal ⟨e, db⟩ (w, .call r₀ f)) (h : Final S r e)
    (hok : Respects r ⟨e, db⟩ (w, .call r₀ f)) : Final S r (f.apply w e) := by
  cases outcome_call hg hl with
  | frame hf => exact h.frame hf
  | submitted task hn hfresh =>
    have hr : (e.submitIds w).1 ≠ r := fun heq => hfresh (heq ▸ h.known)
    refine h.created hn hr ?_
    show (e.submitRun w task).2.store.getRun r = _
    rw [getRun_submitRun, if_neg (Ne.symm hr)]
  | dropped q heq hq =>
    show Final S r (e.startNext w).2
    rw [heq]
    refine ⟨h.status, h.idle, fun k hk => h.unqueued k ?_, h.jobs, h.known⟩
    rcases hq with rfl | ⟨j, hq, _⟩
    · exact hk
    · exact hq ▸ List.mem_cons_of_mem _ hk
  | started job q hq hjob heq =>
    show Final S r (e.startNext w).2
    rw [heq]
    exact final_started h hq hjob
  | completed j o => exact final_markCompleted h j o
  | failed j err => exact final_markFailed h j err hok
  | planned r' p plan hn => exact h.created hn.created hok (hn.getRun r)
  | revised j d m rev new hrev hn =>
    exact h.created hn.created (hok rev hrev.1 hrev) (hn.getRun r)
  | cancelled r' hc => exact h.cancelled hc

theorem Final.expire (h : Final S r e) (r' : RunId) : Final S r (e.removeRun w r') := by
  refine ⟨?_, ?_, ?_, ?_, ?_⟩
  · intro run hrun
    have hget := (getRun_expire (w := w) r).symm.trans hrun
    split at hget
    · cases hget
    · exact h.status run hget
  · exact h.idle
  · intro k hk job hjob
    exact h.unqueued k hk job (getJob_expire.mp hjob).1
  · intro k job hjob
    exact h.jobs k job (getJob_expire.mp hjob).1
  · exact h.known

/-- A restart from rows that leave nothing of the run to be queued. -/
theorem Final.hydrate {db : SqlitePersistence} (h : Final S r e) (hi : Image db e)
    (hdb : ∀ run, db.getRun r = some run → run.status = .cancelled)
    (hrows : ∀ job ∈ db.loadJobs w, job.runId = r →
      job.status ≠ .ready ∧ (job.status = .running → job.retries = false)) :
    Final S r (ZeptoPM.hydrate w (some db) e.ids) := by
  refine ⟨?_, ?_, ?_, ?_, h.known.restart⟩
  · intro run hrun
    exact hdb run ((getRun_hydrate r).symm.trans hrun)
  · intro k hk
    cases hk
  · -- a job is queued that is ready on disk, or that was running and has attempts left
    intro k hk job' hjob' hjr
    obtain ⟨job'', hjob'', hst⟩ := mem_readyQueue_hydrate.mp hk
    have heq := hjob''.symm.trans hjob'
    cases heq
    rw [getJob_hydrate] at hjob''
    obtain ⟨job, hjob, rfl⟩ := Option.map_eq_some_iff.mp hjob''
    have hid := SqlitePersistence.jobId_of_getJob hjob
    subst hid
    rw [Job.recover_runId] at hjr
    obtain ⟨hready, hrunning⟩ := hrows job (mem_loadJobs_iff.mpr hjob) hjr
    rw [Job.recover_status] at hst
    split at hst
    · rename_i hrun
      rw [hrunning hrun] at hst
      cases hst
    · exact hready hst
  · intro k job' hjob' hjr
    have hget := (getJob_hydrate k).symm.trans hjob'
    obtain ⟨job, hjob, rfl⟩ := Option.map_eq_some_iff.mp hget
    obtain ⟨⟨job₀, hjob₀, hr₀⟩, _⟩ := hi.job k job hjob
    rw [Job.recover_runId] at hjr
    exact h.jobs k job₀ hjob₀ (hr₀.trans hjr)

theorem final_act (c : Core) (x : World × Action) (hs : Sound c) (hl : Legal c x)
    (h : FinalCore S r c) (hok : Respects r c x) : FinalCore S r (coreStep c x) := by
  obtain ⟨e, db⟩ := c
  obtain ⟨w, a⟩ := x
  obtain ⟨he, hdb⟩ := h
  change Final S r e at he
  cases a with
  | call r₀ f => exact ⟨final_call hs.grounded hl he hok, hdb⟩
  | persistRunState r' =>
    refine ⟨he, fun db' hdb' run hrun => ?_⟩
    obtain ⟨db₀, rfl, rfl⟩ := Option.map_eq_some_iff.mp hdb'
    rcases persisted_run (hs.image db₀ rfl) hrun with ⟨_, hrun'⟩ | ⟨_, hrun'⟩
    · exact he.status run hrun'
    · exact hdb db₀ rfl run hrun'
  | persistArtifact artifact =>
    refine ⟨he, fun db' hdb' => ?_⟩
    obtain ⟨db₀, rfl, rfl⟩ := Option.map_eq_some_iff.mp hdb'
    exact hdb db₀ rfl
  | genId pre =>
    exact ⟨⟨he.status, he.idle, he.unqueued, he.jobs,
      he.known.mono (IdSupply.le_genId w e.ids pre)⟩, hdb⟩
  | expire r' =>
    refine ⟨he.expire r', fun db' hdb' run hrun => ?_⟩
    obtain ⟨db₀, rfl, rfl⟩ := Option.map_eq_some_iff.mp hdb'
    rw [SqlitePersistence.getRun_deleteRun] at hrun
    split at hrun
    · cases hrun
    · exact hdb db₀ rfl run hrun
  | hydrate =>
    refine ⟨?_, hdb⟩
    cases db with
    | none =>
      refine ⟨?_, ?_, ?_, ?_, he.known.restart⟩
      · intro run hrun
        cases hrun
      · intro k hk
        cases hk
      · intro k hk
        cases hk
      · intro k job hjob
        cases hjob
    | some db => exact he.hydrate (hs.image db rfl) (hdb db rfl) (hok db rfl)

theorem notHandedOut_of_final {c : Core} (h : Final S r c.engine) (x : World × Action) :
    NotHandedOut r c x := by
  unfold NotHandedOut
  split
  · intro job hjob
    rcases nextJob_cases c.engine with ⟨_, heq, _⟩ | ⟨job', q, _, hq, hget, heq⟩
    · rw [heq] at hjob
      cases hjob
    · rw [heq] at hjob
      cases hjob
      exact h.unqueued job.jobId (hq ▸ List.mem_cons_self) job hget
  · exact True.intro

/-- The run is in the store and in the database. -/
def Present (r : RunId) (c : Core) : Prop :=
  (∃ run, c.engine.store.getRun r = some run) ∧
    ∃ db, c.db = some db ∧ ∃ run, db.getRun r = some run

theorem present_act (c : Core) (x : World × Action) (hs : Sound c) (hl : Legal c x)
    (h : Present r c) (hok : NotExpired r c x) : Present r (coreStep c x) := by
  obtain ⟨e, db⟩ := c
  obtain ⟨w, a⟩ := x
  obtain ⟨⟨run, hrun⟩, db₀, hdb, row, hrow⟩ := h
  change db = some db₀ at hdb
  subst hdb
  cases a with
  | call r₀ f =>
    exact ⟨(grounded_call hs.grounded hl).2.run r run hrun, db₀, rfl, row, hrow⟩
  | persistRunState r' =>
    refine ⟨⟨run, hrun⟩, _, rfl, ?_⟩
    rw [SqlitePersistence.getRun_persistRunState]
    split
    · exact ⟨run, hrun⟩
    · exact ⟨row, hrow⟩
  | persistArtifact artifact => exact ⟨⟨run, hrun⟩, _, rfl, row, hrow⟩
  | genId pre => exact ⟨⟨run, hrun⟩, db₀, rfl, row, hrow⟩
  | expire r' =>
    have hr : r ≠ r' := Ne.symm hok
    refine ⟨⟨run, ?_⟩, _, rfl, row, ?_⟩
    · exact (getRun_expire r).trans ((if_neg hr).trans hrun)
    · rw [SqlitePersistence.getRun_deleteRun, if_neg hr]
      exact hrow
  | hydrate => exact ⟨⟨row, (getRun_hydrate r).trans hrow⟩, db₀, rfl, row, hrow⟩

end

theorem db_isSome_act (c : Core) (x : World × Action) :
    (coreStep c x).db.isSome = c.db.isSome := by
  obtain ⟨w, a⟩ := x
  cases a with
  | call r f => rfl
  | persistRunState r => exact Option.isSome_map ..
  | persistArtifact artifact => exact Option.isSome_map ..
  | genId pre => rfl
  | expire r => exact Option.isSome_map ..
  | hydrate => rfl

/-! ## The step that cancels -/

section
variable {S : JobId → Prop} {w : World} {d : Daemon} {r : RunId}
open Daemon

/-- What the command and the shutdown do for a run. -/
def cancelAndPersist (w : World) (d : Daemon) (r : RunId) : Daemon :=
  (d.cancelRun w r).2.act w (.persistRunState r)

theorem core_stopAndCancel (w : World) (d : Daemon) (r : RunId) :
    ((d.stopWorkersOf w r).act w (.call r (.cancelRun r))).core =
      d.core.act w (.call r (.cancelRun r)) :=
  congrArg (fun c : Core => c.act w (.call r (.cancelRun r))) (untouched_stopWorkersOf w d r).1

theorem core_cancelAndPersist (w : World) (d : Daemon) (r : RunId) :
    (cancelAndPersist w d r).core = d.core.act w (.persistRunState r) ∨
      (cancelAndPersist w d r).core =
        (d.core.act w (.call r (.cancelRun r))).act w (.persistRunState r) := by
  unfold cancelAndPersist Daemon.cancelRun
  split
  · exact Or.inl rfl
  · exact Or.inr
      (congrArg (fun c : Core => c.act w (.persistRunState r)) (core_stopAndCancel w d r))

/-- The run is cancelled for good, and in the database if there is one. -/
def Settles (S : JobId → Prop) (r : RunId) (c : Core) : Prop :=
  FinalCore S r c ∧ (c.db.isSome = true → Present r c)

/-- A run that can be cancelled is, and the database says so too. -/
theorem settles_cancelAndPersist (ht : Timely w d.core) {msg : String}
    (hok : (d.engine.cancelRun w r).1 = .ok msg)
    (hS : ∀ k job, d.engine.store.getJob k = some job → job.runId = r → S k) :
    Settles S r (cancelAndPersist w d r).core := by
  have hcore : (cancelAndPersist w d r).core =
      (d.core.act w (.call r (.cancelRun r))).act w (.persistRunState r) := by
    unfold cancelAndPersist Daemon.cancelRun
    rw [hok]
    exact congrArg (fun c : Core => c.act w (.persistRunState r)) (core_stopAndCancel w d r)
  have hl : Legal d.core (w, .call r (.cancelRun r)) := ⟨ht.2, rfl⟩
  have hs := sound_act ht.1 hl
  rcases cancelRun_cases w ht.1.grounded.supervised.home r with
    ⟨err, heq⟩ | ⟨_, run, _, hrun, _, hc⟩
  · rw [engine, heq] at hok
    cases hok
  · have hfinal : Final S r (d.core.act w (.call r (.cancelRun r))).engine :=
      final_of_cancelled ht.1.grounded ⟨run, hrun⟩ hc hS
    obtain ⟨run', hrun', _⟩ := hc.getRun_self
    rw [hcore]
    refine ⟨⟨hfinal, fun db hdb row hrow => ?_⟩, fun hdb => ⟨⟨run', hrun'⟩, ?_⟩⟩
    · obtain ⟨db₀, hdb₀, rfl⟩ := Option.map_eq_some_iff.mp hdb
      rcases persisted_run (hs.image db₀ hdb₀) hrow with ⟨_, hrow'⟩ | ⟨hne, _⟩
      · exact hfinal.status row hrow'
      · exact absurd rfl hne
    · obtain ⟨db, hdb⟩ := Option.isSome_iff_exists.mp hdb
      obtain ⟨db₀, _, rfl⟩ := Option.map_eq_some_iff.mp hdb
      refine ⟨_, hdb, run', ?_⟩
      have hsome : r = r ∧ ((d.core.act w (.call r (.cancelRun r))).engine.store.getRun r).isSome =
          true := ⟨rfl, by rw [show (d.core.act w (.call r (.cancelRun r))).engine.store.getRun r =
            some run' from hrun']; rfl⟩
      rw [SqlitePersistence.getRun_persistRunState, if_pos hsome]
      exact hrun'

theorem settles_act (c : Core) (x : World × Action) (hs : Sound c) (hl : Legal c x)
    (h : Settles S r c) (hok : Respects r c x) (hkeep : NotExpired r c x) :
    Settles S r (coreStep c x) := by
  refine ⟨final_act c x hs hl h.1 hok, fun hdb => present_act c x hs hl (h.2 ?_) hkeep⟩
  rw [← db_isSome_act c x]
  exact hdb

theorem settles_cancelOther (ht : Timely w d.core) (h : Settles S r d.core) (r' : RunId) :
    Settles S r (cancelAndPersist w d r').core := by
  have hl : Legal d.core (w, .call r' (.cancelRun r')) := ⟨ht.2, rfl⟩
  have hpersist : ∀ c, Timely w c → Settles S r c →
      Settles S r (c.act w (.persistRunState r')) := fun c hc hf =>
    settles_act c (w, .persistRunState r') hc.1 ⟨hc.2, True.intro⟩ hf True.intro True.intro
  rcases core_cancelAndPersist w d r' with hcore | hcore <;> rw [hcore]
  · exact hpersist _ ht h
  · exact hpersist _ (ht.act (fun h => by cases h) hl)
      (settles_act d.core (w, .call r' (.cancelRun r')) ht.1 hl h True.intro True.intro)

/-- The cancellation of another run leaves the run as it is. -/
theorem cancelOther (ht : Timely w d.core) {r' : RunId} (hr : r ≠ r') :
    (cancelAndPersist w d r').engine.store.getRun r = d.engine.store.getRun r ∧
      ∀ k job', (cancelAndPersist w d r').engine.store.getJob k = some job' →
        ∃ job, d.engine.store.getJob k = some job ∧ job'.runId = job.runId := by
  rcases core_cancelAndPersist w d r' with hcore | hcore <;> rw [engine, hcore]
  · exact ⟨rfl, fun k job hk => ⟨job, hk, rfl⟩⟩
  · show (d.engine.cancelRun w r').2.store.getRun r = _ ∧ ∀ k job',
      (d.engine.cancelRun w r').2.store.getJob k = some job' → _
    rcases cancelRun_cases w ht.1.grounded.supervised.home r' with
      ⟨err, heq⟩ | ⟨_, _, _, _, _, hc⟩
    · rw [engine, heq]
      exact ⟨rfl, fun k job hk => ⟨job, hk, rfl⟩⟩
    · exact ⟨hc.getRun_ne r hr, fun k job' hk => hc.job_before hk⟩

theorem timely_cancelAndPersist (ht : Timely w d.core) (r' : RunId) :
    Timely w (cancelAndPersist w d r').core := by
  obtain ⟨_, _, _, _, _, ht'⟩ := takes_cancelled w d r' ht
  exact ht'

/-- Whether a run can be cancelled is a matter of its record. -/
theorem cancelRun_ok_congr {e e' : OrchestratorEngine}
    (h : e'.store.getRun r = e.store.getRun r) (hok : ∃ msg, (e.cancelRun w r).1 = .ok msg) :
    ∃ msg, (e'.cancelRun w r).1 = .ok msg := by
  obtain ⟨msg, hok⟩ := hok
  unfold OrchestratorEngine.cancelRun at hok ⊢
  rw [h]
  split at hok
  · cases hok
  · split at hok
    · cases hok
    · rename_i hst
      dsimp only
      rw [if_neg hst]
      exact ⟨_, rfl⟩

/-- The shutdown cancels each of the runs it has listed. -/
theorem settles_shutdown (runs : List RunId) : ∀ {d : Daemon}, Timely w d.core →
    (Settles S r d.core ∨ (r ∈ runs ∧ (∃ msg, (d.engine.cancelRun w r).1 = .ok msg) ∧
      ∀ k job, d.engine.store.getJob k = some job → job.runId = r → S k)) →
    Settles S r (runs.foldl (cancelAndPersist w) d).core := by
  induction runs with
  | nil =>
    intro d _ h
    rcases h with h | ⟨hmem, _⟩
    · exact h
    · cases hmem
  | cons r' runs ih =>
    intro d ht h
    refine ih (timely_cancelAndPersist ht r') ?_
    rcases h with h | ⟨hmem, ⟨msg, hok⟩, hS⟩
    · exact Or.inl (settles_cancelOther ht h r')
    · by_cases hr : r = r'
      · subst hr
        exact Or.inl (settles_cancelAndPersist ht hok hS)
      · obtain ⟨hrun, hjobs⟩ := cancelOther ht hr
        refine Or.inr ⟨(List.mem_cons.mp hmem).resolve_left hr,
          cancelRun_ok_congr hrun ⟨msg, hok⟩, ?_⟩
        intro k job' hjob' hjr
        obtain ⟨job, hjob, hjr'⟩ := hjobs k job' hjob'
        exact hS k job hjob (hjr'.symm.trans hjr)

/-- The step that handles the command, or the shutdown, cancels the run. -/
theorem settles_step {i : Input} (hi : i = .command (.cancelRun r) ∨ i = .shutdown)
    (halive : d.alive = true) (ht : Timely w d.core) {msg : String}
    (hok : (d.engine.cancelRun w r).1 = .ok msg) :
    Settles (fun k => ∃ job, d.engine.store.getJob k = some job ∧ job.runId = r) r
      (d.step (w, i)).core := by
  obtain ⟨d₀, hd₀⟩ : ∃ d₀, d₀ = { d with sent := [], calls := [] } := ⟨_, rfl⟩
  have hcore₀ : d₀.core = d.core := by rw [hd₀]
  have ht₀ : Timely w d₀.core := hcore₀ ▸ ht
  have hok₀ : (d₀.engine.cancelRun w r).1 = .ok msg := by rw [engine, hcore₀]; exact hok
  have hS : ∀ k job, d₀.engine.store.getJob k = some job → job.runId = r →
      ∃ job, d.engine.store.getJob k = some job ∧ job.runId = r := by
    intro k job hjob hr
    rw [engine, hcore₀] at hjob
    exact ⟨job, hjob, hr⟩
  rw [step_of_alive hd₀ halive]
  rcases hi with rfl | rfl
  · have hfinal := settles_cancelAndPersist ht₀ hok₀ hS
    show Settles _ r (d₀.handleCommand w (.cancelRun r)).core
    have hres : ∃ d₁, d₀.cancelRun w r = (.ok msg, d₁) := by
      unfold Daemon.cancelRun
      rw [hok₀]
      exact ⟨_, rfl⟩
    obtain ⟨d₁, hres⟩ := hres
    rw [cancelAndPersist, hres] at hfinal
    rw [handleCommand_cancelRun, hres]
    exact hfinal
  · have hopen : ∃ run, d₀.engine.store.getRun r = some run ∧
        (run.status = .running ∨ run.status = .pending) := by
      rcases cancelRun_cases w ht₀.1.grounded.supervised.home r with
        ⟨err, heq⟩ | ⟨_, run, _, hrun, hst, _⟩
      · rw [engine, heq] at hok₀
        cases hok₀
      · exact ⟨run, hrun, hst⟩
    have hlisted : r ∈ ((d₀.engine.store.listRuns w).filter
        (fun run => run.status == .running || run.status == .pending)).map (·.runId) := by
      obtain ⟨run, hrun, hst⟩ := hopen
      have hid := RunStore.runId_of_getRun hrun
      refine List.mem_map.mpr ⟨run, List.mem_filter.mpr ⟨?_, by simpa using hst⟩, hid⟩
      exact Table.mem_valuesIn.mpr (hid ▸ hrun)
    have hfinal := settles_shutdown _ ht₀ (Or.inr ⟨hlisted, ⟨msg, hok₀⟩, hS⟩)
    have hstop : ∀ (names : List String) (d : Daemon),
        (names.foldl (fun d name => d.send (.stop name)) d).core = d.core :=
      fun names d => (untouched_foldl (fun d name => untouched_send d (.stop name)) names d).1
    show Settles _ r (List.foldl (fun (d : Daemon) name => d.send (.stop name)) _ _).core
    rw [hstop]
    exact hfinal

end

/-! ## Runs of the daemon -/

/-- Once a run has been cancelled, and as long as nothing queues a job of it or adds
one, it stays cancelled, gets no job it did not have, and has none handed out. In a
database it stays until it is removed. -/
theorem cancelled_run (persistent : Bool) (sandboxOverride : Option Bool) (capsule : Bool)
    (is js : List (World × Input)) (w : World) (i : Input) (r : RunId) (msg : String)
    (his : Meets Daemon.step Clocked (Daemon.off persistent sandboxOverride capsule) is)
    (halive : (run Daemon.step (Daemon.off persistent sandboxOverride capsule) is).alive = true)
    (hw : Clocked (run Daemon.step (Daemon.off persistent sandboxOverride capsule) is) (w, i))
    (hi : i = .command (.cancelRun r) ∨ i = .shutdown)
    (hok : ((run Daemon.step (Daemon.off persistent sandboxOverride capsule) is).engine.cancelRun
      w r).1 = .ok msg)
    (hjs : Meets Daemon.step (Guarded (Respects r))
      ((run Daemon.step (Daemon.off persistent sandboxOverride capsule) is).step (w, i)) js) :
    let d := run Daemon.step (Daemon.off persistent sandboxOverride capsule) is
    let d' := run Daemon.step (d.step (w, i)) js
    (∀ run, d'.engine.store.getRun r = some run → run.status = .cancelled) ∧
      (∀ k job, d'.engine.store.getJob k = some job → job.runId = r →
        ∃ job, d.engine.store.getJob k = some job ∧ job.runId = r) ∧
      Meets Daemon.step (Guarded (NotHandedOut r)) (d.step (w, i)) js ∧
      (persistent = true → Meets Daemon.step (Guarded (NotExpired r)) (d.step (w, i)) js →
        ∃ run, d'.engine.store.getRun r = some run) := by
  intro d d'
  -- the state that cancels is sound, and has a database if there is to be one
  obtain ⟨hs, hdb⟩ := core_clocked (P := fun c => c.db.isSome = persistent)
    (fun c x _ _ h => (db_isSome_act c x).trans h) (sound_off ..)
    (by cases persistent <;> rfl) his
  have hsettled := settles_step hi halive ⟨hs, hw⟩ hok
  have hs' : Sound (d.step (w, i)).core := (step_takes i ⟨hs, hw⟩).2.2.1
  obtain ⟨_, hfinal⟩ := core_run final_act hs' hsettled.1 hjs
  refine ⟨hfinal.1.status, hfinal.1.jobs, core_run_meets final_act
    (fun _ x _ _ h _ => notHandedOut_of_final h.1 x) hs' hsettled.1 hjs, ?_⟩
  intro hpersistent hkeep
  have hsome : (d.step (w, i)).core.db.isSome = true := by
    have hstep := core_step (G := fun _ _ => True) (P := fun c => c.db.isSome = persistent)
      (fun c x _ _ h _ => (db_isSome_act c x).trans h) d (w, i) ⟨hs, hdb⟩ (guarded_of_clocked hw)
    exact hstep.2.trans hpersistent
  exact (core_run present_act hs' (hsettled.2 hsome) hkeep).2.1

/-! ## A run that comes back -/

/-- A run is submitted, and its planner started. -/
def submitted : List (World × Input) :=
  [(plannerWorld soloPlan, .start), (plannerWorld soloPlan, .command (.submitRun "task"))]

/-- The planner's failure, already on its way when the run is cancelled, starts the
planner again. -/
theorem not_final_lateFailure :
    let d := run Daemon.step (Daemon.off true none false) submitted
    let d' := d.step (plannerWorld soloPlan, .command (.cancelRun "run_1_0"))
    (Meets Daemon.step Clocked (Daemon.off true none false) submitted ∧ d.alive = true ∧
      (d.engine.cancelRun (plannerWorld soloPlan) "run_1_0").1 =
        .ok "run 'run_1_0' cancelled (1 jobs cancelled)") ∧
    ¬ Meets Daemon.step (Guarded (NotHandedOut "run_1_0")) d'
      [(plannerWorld soloPlan, failedEvent "job_1_1")] := by
  refine ⟨⟨by decide, by decide, by decide⟩, by decide⟩

/-- Another run's planner may fail, and the cancelled run's complete. -/
theorem cancelled_run_submitted :
    let d := run Daemon.step (Daemon.off true none false) submitted
    let d' := run Daemon.step (d.step (plannerWorld soloPlan, .command (.cancelRun "run_1_0")))
      [(plannerWorld soloPlan, .command (.submitRun "other")),
        (plannerWorld soloPlan, completedEvent "job_1_1" []),
        (plannerWorld soloPlan, failedEvent "job_1_3")]
    (∀ run, d'.engine.store.getRun "run_1_0" = some run → run.status = .cancelled) ∧
      (∀ k job, d'.engine.store.getJob k = some job → job.runId = "run_1_0" →
        ∃ job, d.engine.store.getJob k = some job ∧ job.runId = "run_1_0") ∧
      Meets Daemon.step (Guarded (NotHandedOut "run_1_0"))
        (d.step (plannerWorld soloPlan, .command (.cancelRun "run_1_0")))
        [(plannerWorld soloPlan, .command (.submitRun "other")),
          (plannerWorld soloPlan, completedEvent "job_1_1" []),
          (plannerWorld soloPlan, failedEvent "job_1_3")] ∧
      (true = true → Meets Daemon.step (Guarded (NotExpired "run_1_0"))
        (d.step (plannerWorld soloPlan, .command (.cancelRun "run_1_0")))
        [(plannerWorld soloPlan, .command (.submitRun "other")),
          (plannerWorld soloPlan, completedEvent "job_1_1" []),
          (plannerWorld soloPlan, failedEvent "job_1_3")] →
        ∃ run, d'.engine.store.getRun "run_1_0" = some run) :=
  cancelled_run true none false submitted _ (plannerWorld soloPlan) _ "run_1_0"
    "run 'run_1_0' cancelled (1 jobs cancelled)" (by decide) (by decide) (by decide) (Or.inl rfl)
    (by decide) (by decide)

end ZeptoPM
