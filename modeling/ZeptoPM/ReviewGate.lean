import ZeptoPM.Outcomes

/- Reviews and the jobs behind them. A review is open from the moment its reviewer asks
   for a revision until the last reviewer of the chain has decided otherwise. While it is
   open, the jobs that depend on the reviewer are to be held back. The engine promotes
   them when the reviewer completes, before the decision is read, unless they depend on
   something else that is not completed. `handleEvent_review` has what the handler makes of
   the reviews that are meant here. -/
namespace ZeptoPM
open OrchestratorEngine Daemon

/-! ## Jobs behind a review -/

/-- The job depends on one of the reviewers. -/
def Job.WaitsOn (job : Job) (reviewers : List JobId) : Prop :=
  ∃ r ∈ reviewers, r ∈ job.dependsOn

instance (job : Job) (reviewers : List JobId) : Decidable (job.WaitsOn reviewers) :=
  inferInstanceAs (Decidable (∃ _ ∈ _, _))

/-- The job is not promoted, queued or started, and has not been. -/
structure OrchestratorEngine.Held (e : OrchestratorEngine) (k : JobId) (job : Job) : Prop where
  notReady : job.status ≠ .ready
  notRunning : job.status ≠ .running
  notStarted : job.startedAt = none
  notQueued : k ∉ e.readyQueue
  notActive : e.activeJobs.get k = none

instance (e : OrchestratorEngine) (k : JobId) (job : Job) : Decidable (e.Held k job) :=
  decidable_of_iff (job.status ≠ .ready ∧ job.status ≠ .running ∧ job.startedAt = none ∧
      k ∉ e.readyQueue ∧ e.activeJobs.get k = none)
    ⟨fun ⟨h₁, h₂, h₃, h₄, h₅⟩ => ⟨h₁, h₂, h₃, h₄, h₅⟩,
      fun ⟨h₁, h₂, h₃, h₄, h₅⟩ => ⟨h₁, h₂, h₃, h₄, h₅⟩⟩

/-- The job has a dependency besides `j` that is not completed. -/
def OrchestratorEngine.BlockedBeside (e : OrchestratorEngine) (j : JobId) (job : Job) : Prop :=
  ∃ d ∈ job.dependsOn, d ≠ j ∧ e.store.isCompleted d = false

instance (e : OrchestratorEngine) (j : JobId) (job : Job) : Decidable (e.BlockedBeside j job) :=
  inferInstanceAs (Decidable (∃ _ ∈ _, _))

/-- No job that waits for one of the reviewers has its last open dependency completed, is
failed with attempts left or is loaded as ready or started. -/
def SparesWaiting (reviewers : List JobId) (c : Core) (x : World × Action) : Prop :=
  match x.2 with
  | .call _ (.markCompleted j _) => ∀ k job, c.engine.store.getJob k = some job →
      job.WaitsOn reviewers → c.engine.activeJobs.get j = some job.runId →
        job.status = .pending → c.engine.BlockedBeside j job
  | .call _ (.markFailed j _) => ∀ job ∈ c.engine.store.getJob j,
      job.WaitsOn reviewers → job.retries = false
  | .call _ (.cancelRun r) => ∀ k job, c.engine.store.getJob k = some job →
      job.WaitsOn reviewers → job.runId = r → job.status.unfinished = true → job.retries = false
  | .hydrate => ∀ db ∈ c.db, ∀ k job, db.getJob k = some job →
      job.WaitsOn reviewers → (job.recover x.1).status ≠ .ready ∧ job.startedAt = none
  | _ => True

instance (s : RunStore) (p : JobId → Job → Prop) [∀ k job, Decidable (p k job)] :
    Decidable (∀ k job, s.getJob k = some job → p k job) :=
  decidable_of_iff (∀ k ∈ s.jobs.map.keys, ∀ job ∈ s.getJob k, p k job)
    ⟨fun h k job hk => h k (HashMap.mem_keys.mpr ⟨job, hk⟩) job hk,
      fun h k _ job hk => h k job hk⟩

instance (db : SqlitePersistence) (p : JobId → Job → Prop) [∀ k job, Decidable (p k job)] :
    Decidable (∀ k job, db.getJob k = some job → p k job) :=
  decidable_of_iff (∀ k ∈ db.jobs.map.keys, ∀ job ∈ db.getJob k, p k job)
    ⟨by
      intro h k job hk
      obtain ⟨row, hrow, _⟩ := Option.map_eq_some_iff.mp hk
      exact h k (HashMap.mem_keys.mpr ⟨row, hrow⟩) job hk,
      fun h k _ job hk => h k job hk⟩

instance (reviewers : List JobId) (c : Core) (x : World × Action) :
    Decidable (SparesWaiting reviewers c x) := by
  obtain ⟨w, ⟨r₀, f⟩ | _⟩ := x
  · rcases f with _ | _ <;> dsimp only [SparesWaiting] <;> infer_instance
  all_goals
    dsimp only [SparesWaiting]
    infer_instance

/-- The reviewers are jobs of old, and what waits for them is held. -/
structure OrchestratorEngine.Gated (e : OrchestratorEngine) (reviewers : List JobId) : Prop where
  issued : ∀ r ∈ reviewers, Issued e.ids r
  held : ∀ k job, e.store.getJob k = some job → job.WaitsOn reviewers → e.Held k job

section
variable {w : World} {e e' : OrchestratorEngine} {reviewers : List JobId}

/-- Each waiting job was there before, and is held if it was. -/
theorem OrchestratorEngine.Gated.step (h : e.Gated reviewers)
    (hids : ∀ id, Issued e.ids id → Issued e'.ids id)
    (hjob : ∀ k job', e'.store.getJob k = some job' → job'.WaitsOn reviewers →
      ∃ job, e.store.getJob k = some job ∧ job.WaitsOn reviewers ∧
        (e.Held k job → e'.Held k job')) : e'.Gated reviewers := by
  refine ⟨?_, ?_⟩
  · intro r hr
    exact hids r (h.issued r hr)
  · intro k job' hjob' hwaits
    obtain ⟨job, hget, hwaits₀, hheld⟩ := hjob k job' hjob' hwaits
    exact hheld (h.held k job hget hwaits₀)

theorem OrchestratorEngine.Held.of_queue {k : JobId} {job : Job} (h : e.Held k job)
    (hq : k ∈ e'.readyQueue → k ∈ e.readyQueue) (ha : e.activeJobs.get k = none →
      e'.activeJobs.get k = none) : e'.Held k job :=
  ⟨h.notReady, h.notRunning, h.notStarted, fun hk => h.notQueued (hq hk), ha h.notActive⟩

theorem gated_frame (h : e.Gated reviewers) (hids : ∀ id, Issued e.ids id → Issued e'.ids id)
    (hf : Frame e e') : e'.Gated reviewers := by
  refine h.step hids ?_
  intro k job hk hwaits
  refine ⟨job, (hf.getJob k).symm.trans hk, hwaits, ?_⟩
  intro hheld
  refine hheld.of_queue ?_ ?_
  · rw [hf.readyQueue]
    exact id
  · rw [hf.activeJobs]
    exact id

/-- New jobs depend on new jobs only. -/
theorem gated_created (h : e.Gated reviewers) {r : RunId} {new : List Job}
    (hc : Created e e' r new) (hold : ∀ k job, e.store.getJob k = some job → Issued e.ids k) :
    e'.Gated reviewers := by
  refine h.step (fun id hid => hid.mono hc.le) ?_
  intro k job hk hwaits
  rcases hc.cases hk with ⟨hnew, rfl⟩ | ⟨hnot, hget⟩
  · obtain ⟨rev, hrev, hdep⟩ := hwaits
    rcases hc.shape job hnew with ⟨_, hnone⟩ | ⟨_, _, hdeps⟩
    · rw [hnone] at hdep
      cases hdep
    · obtain ⟨dj, hdj, rfl⟩ := hdeps rev hdep
      exact absurd (h.issued _ hrev) (hc.fresh dj hdj)
  · refine ⟨job, hget, hwaits, ?_⟩
    intro hheld
    refine hheld.of_queue ?_ ?_
    · rw [hc.readyQueue]
      intro hmem
      rcases List.mem_append.mp hmem with hmem | hmem
      · exact hmem
      · obtain ⟨j, hj, rfl⟩ := List.mem_map.mp hmem
        exact absurd (hold _ job hget) (hc.fresh j (List.mem_filter.mp hj).1)
    · rw [hc.activeJobs]
      exact id

theorem gated_started (h : e.Gated reviewers) {job : Job} {q : List JobId}
    (hq : e.readyQueue = job.jobId :: q) : (e.started w job q).Gated reviewers := by
  refine h.step (fun id hid => hid) ?_
  intro k job' hk hwaits
  rw [getJob_started] at hk
  split at hk
  · -- the job at the head of the queue is not held, so it does not wait
    rename_i hkj
    obtain ⟨job₀, hjob₀, rfl⟩ := Option.map_eq_some_iff.mp hk
    have hget : e.store.getJob k = some job₀ := by rw [hkj, hjob₀]
    refine absurd ?_ (h.held k job₀ hget hwaits).notQueued
    rw [hq, hkj]
    exact List.mem_cons_self
  · rename_i hkj
    refine ⟨job', hk, hwaits, ?_⟩
    intro hheld
    refine hheld.of_queue ?_ ?_
    · rw [hq]
      exact List.mem_cons_of_mem job.jobId
    · rw [getActive_started, if_neg hkj]
      exact id

/-- A completion that leaves each waiting job another open dependency. -/
theorem gated_markCompleted (h : e.Gated reviewers) (j : JobId) (o : List ArtifactId)
    (hj : ∀ k job, e.store.getJob k = some job → job.WaitsOn reviewers →
      e.activeJobs.get j = some job.runId → job.status = .pending → e.BlockedBeside j job) :
    (e.markCompleted w j o).Gated reviewers := by
  have hnot : ∀ k job, e.store.getJob k = some job → job.WaitsOn reviewers →
      k ∉ e.promotedIds w j o := by
    intro k job hget hwaits hmem
    obtain ⟨r, job', hact, _, hget', hrun, hpending, hdeps⟩ := (mem_promotedIds w e j o).mp hmem
    cases hget.symm.trans hget'
    obtain ⟨d, hd, hdj, hopen⟩ := hj k job hget hwaits (by rw [hact, hrun]) hpending
    have hdone := hdeps d hd
    unfold RunStore.isCompleted at hdone hopen
    rw [getJob_completedStore, if_neg hdj, hopen] at hdone
    cases hdone
  refine h.step (fun id hid => (ids_markCompleted ..).symm ▸ hid) ?_
  intro k job' hk hwaits
  obtain ⟨job, hget, hcase⟩ := markCompleted_job w e j o hk
  rcases hcase with ⟨rfl, rfl⟩ | ⟨_, hmem, _, rfl⟩ | ⟨_, _, rfl⟩
  · refine ⟨job, hget, hwaits, ?_⟩
    intro hheld
    refine ⟨by simp [Job.complete], by simp [Job.complete], hheld.notStarted, ?_, ?_⟩
    · rw [readyQueue_markCompleted, List.mem_append, not_or]
      exact ⟨hheld.notQueued, hnot k job hget hwaits⟩
    · rw [activeJobs_markCompleted, HashMap.get_remove, if_pos rfl]
  · exact absurd hmem (hnot k job hget hwaits)
  · refine ⟨job', hget, hwaits, ?_⟩
    intro hheld
    refine hheld.of_queue ?_ ?_
    · rw [readyQueue_markCompleted]
      intro hmem
      exact (List.mem_append.mp hmem).resolve_right (hnot k job' hget hwaits)
    · intro hnone
      rw [activeJobs_markCompleted, HashMap.get_remove, hnone, ite_self]

/-- A failed job that does not try again. -/
theorem OrchestratorEngine.Held.fail {k : JobId} {job : Job} (h : e.Held k job) (err : String)
    (hno : job.retries = false) (hq : k ∈ e'.readyQueue → k ∈ e.readyQueue)
    (ha : e'.activeJobs.get k = none) : e'.Held k (job.fail w err) := by
  have hfail : (job.fail w err).status = .failed := by rw [Job.fail_status, hno]; rfl
  have hstart : (job.fail w err).startedAt = job.startedAt := by
    unfold Job.fail
    split <;> rfl
  exact ⟨by simp [hfail], by simp [hfail], hstart.trans h.notStarted,
    fun hk => h.notQueued (hq hk), ha⟩

theorem gated_markFailed (h : e.Gated reviewers) (j : JobId) (err : String)
    (hj : ∀ job, e.store.getJob j = some job → job.WaitsOn reviewers → job.retries = false) :
    (e.markFailed w j err).Gated reviewers := by
  refine h.step (fun id hid => (ids_markFailed ..).symm ▸ hid) ?_
  intro k job' hk hwaits
  have hqueue : ∀ job, e.store.getJob k = some job → job.WaitsOn reviewers →
      k ∈ (e.markFailed w j err).readyQueue → k ∈ e.readyQueue := by
    intro job hget hwaits hmem
    rw [readyQueue_markFailed] at hmem
    split at hmem
    · rename_i hreq
      rcases List.mem_append.mp hmem with hmem | hmem
      · exact hmem
      · rw [List.mem_singleton] at hmem
        subst hmem
        obtain ⟨job₀, hget₀, hretries⟩ := (requeues_iff e k).mp hreq
        rw [hj job₀ hget₀ ((Option.some.inj (hget₀.symm.trans hget)) ▸ hwaits)] at hretries
        cases hretries
    · exact hmem
  rw [getJob_markFailed] at hk
  split at hk
  · rename_i hkj
    subst hkj
    obtain ⟨job, hget, rfl⟩ := Option.map_eq_some_iff.mp hk
    have hwaits₀ : job.WaitsOn reviewers := by
      unfold Job.WaitsOn at hwaits
      rwa [Job.fail_dependsOn] at hwaits
    refine ⟨job, hget, hwaits₀, ?_⟩
    intro hheld
    refine hheld.fail err (hj job hget hwaits₀) (hqueue job hget hwaits₀) ?_
    rw [activeJobs_markFailed, HashMap.get_remove, if_pos rfl]
  · refine ⟨job', hk, hwaits, ?_⟩
    intro hheld
    refine hheld.of_queue (hqueue job' hk hwaits) ?_
    intro hnone
    rw [activeJobs_markFailed, HashMap.get_remove, hnone, ite_self]

theorem gated_cancelled (h : e.Gated reviewers) {r : RunId} (hc : CancelledRun w e e' r)
    (hr : ∀ k job, e.store.getJob k = some job → job.WaitsOn reviewers → job.runId = r →
      job.status.unfinished = true → job.retries = false) : e'.Gated reviewers := by
  refine h.step (fun id hid => hc.ids.symm ▸ hid) ?_
  intro k job' hk hwaits
  have hqueue : k ∈ e'.readyQueue → k ∈ e.readyQueue := by
    rw [hc.queue]
    exact List.mem_of_mem_filter
  by_cases hcan : e.Cancels r k
  · rw [hc.getJob_cancelled k hcan] at hk
    obtain ⟨job, hget, rfl⟩ := Option.map_eq_some_iff.mp hk
    have hwaits₀ : job.WaitsOn reviewers := by
      unfold Job.WaitsOn at hwaits
      rwa [Job.fail_dependsOn] at hwaits
    obtain ⟨job₀, hget₀, hrun, hst⟩ := hcan
    cases hget.symm.trans hget₀
    refine ⟨job, hget, hwaits₀, ?_⟩
    intro hheld
    exact hheld.fail _ (hr k job hget hwaits₀ hrun hst) hqueue
      (hc.active_cancelled k ⟨job, hget, hrun, hst⟩)
  · refine ⟨job', (hc.getJob_other k hcan).symm.trans hk, hwaits, ?_⟩
    intro hheld
    refine hheld.of_queue hqueue ?_
    rw [hc.active_other k hcan]
    exact id

theorem gated_expire (h : e.Gated reviewers) (r : RunId) : (e.removeRun w r).Gated reviewers := by
  refine h.step (fun id hid => hid) ?_
  intro k job hk hwaits
  exact ⟨job, (getJob_expire.mp hk).1, hwaits, fun hheld => hheld.of_queue id id⟩

/-- What the database holds of the waiting jobs is neither ready nor started. -/
theorem gated_hydrate {c : Core} (hs : Sound c) (h : c.engine.Gated reviewers)
    (hdb : ∀ db ∈ c.db, ∀ k job, db.getJob k = some job → job.WaitsOn reviewers →
      (job.recover w).status ≠ .ready ∧ job.startedAt = none) :
    (c.act w .hydrate).engine.Gated reviewers := by
  obtain ⟨e, db⟩ := c
  cases db with
  | none => exact ⟨fun r hr => (h.issued r hr).restart, fun k job hk => (by cases hk)⟩
  | some db =>
    refine ⟨fun r hr => (h.issued r hr).restart, ?_⟩
    intro k job' hk hwaits
    have hget : (hydrate w (some db) e.ids).store.getJob k = some job' := hk
    rw [getJob_hydrate] at hget
    obtain ⟨job, hjob, rfl⟩ := Option.map_eq_some_iff.mp hget
    have hsame : (job.recover w).dependsOn = job.dependsOn ∧
        (job.recover w).startedAt = job.startedAt := by
      unfold Job.recover Job.fail
      split
      · split <;> exact ⟨rfl, rfl⟩
      · exact ⟨rfl, rfl⟩
    have hwaits₀ : job.WaitsOn reviewers := by
      unfold Job.WaitsOn at hwaits
      rwa [hsame.1] at hwaits
    obtain ⟨hready, hstart⟩ := hdb db rfl k job hjob hwaits₀
    refine ⟨hready, Job.recover_ne_running w job, hsame.2.trans hstart, ?_, rfl⟩
    intro hmem
    obtain ⟨job₁, hjob₁, hst⟩ := mem_readyQueue_hydrate.mp hmem
    cases hk.symm.trans hjob₁
    exact hready hst

/-- What every action does that spares the waiting jobs. -/
theorem gated_act {c : Core} {x : World × Action} (hs : Sound c) (hl : Legal c x)
    (h : c.engine.Gated reviewers) (hx : SparesWaiting reviewers c x) :
    (coreStep c x).engine.Gated reviewers := by
  obtain ⟨w, a⟩ := x
  have hold := hs.grounded.supervised.jobIssued
  cases a with
  | call r f =>
    have hids : ∀ id, Issued c.engine.ids id → Issued (f.apply w c.engine).ids id :=
      fun id hid => hid.mono (ids_apply w c.engine hs.grounded.supervised.home f).1
    show (f.apply w c.engine).Gated reviewers
    have houtcome : Outcome w c.engine f := outcome_call hs.grounded hl
    cases houtcome with
    | frame hf => exact gated_frame h hids hf
    | submitted task hc _ => exact gated_created h hc hold
    | dropped q heq hq =>
      show (c.engine.startNext w).2.Gated reviewers
      rw [heq]
      refine h.step (fun id hid => hid) ?_
      intro k job hk hwaits
      refine ⟨job, hk, hwaits, fun hheld => hheld.of_queue ?_ id⟩
      intro hmem
      rcases hq with rfl | ⟨j, hq, _⟩
      · exact hmem
      · exact hq ▸ List.mem_cons_of_mem j hmem
    | started job q hq hjob heq =>
      show (c.engine.startNext w).2.Gated reviewers
      rw [heq]
      exact gated_started h hq
    | completed j o => exact gated_markCompleted h j o hx
    | failed j err => exact gated_markFailed h j err (fun job hjob => hx job hjob)
    | planned r' p plan hc => exact gated_created h hc.created hold
    | revised j d m rev new _ hc => exact gated_created h hc.created hold
    | cancelled r' hc => exact gated_cancelled h hc hx
  | persistRunState r => exact h
  | persistArtifact a => exact h
  | genId pre =>
    refine h.step (fun id hid => hid.mono (IdSupply.le_genId w c.engine.ids pre)) ?_
    intro k job hk hwaits
    exact ⟨job, hk, hwaits, fun hheld => hheld.of_queue id id⟩
  | expire r => exact gated_expire h r
  | hydrate => exact gated_hydrate hs h hx

end

/-! ## Open reviews -/

/-- The engine once the job of a completion event is completed. -/
def Daemon.afterEvent (w : World) (d : Daemon) (event : Json) : OrchestratorEngine :=
  d.engine.markCompleted w (event.strOr "job_id" "") (event.strings "output_artifact_ids")

/-- What the first output artifact of a completed reviewer says. -/
def OrchestratorEngine.decisionOf (w : World) (e : OrchestratorEngine) (reviewer : Job) :
    Option ReviewDecision :=
  (reviewer.outputArtifactIds.head?.bind e.store.getArtifact).bind
    (fun artifact => parseReviewDecision w ((w.readToString artifact.path).getD ""))

/-- The reviewer whose completion the daemon handles, and its decision. -/
def Daemon.review (w : World) (d : Daemon) : Input → Option (Job × ReviewDecision)
  | .event event =>
    if d.alive = true ∧ event.strOr "type" "" = "job_completed" then
      ((d.afterEvent w event).store.getJob (event.strOr "job_id" "")).bind (fun reviewer =>
        if reviewer.role = "reviewer" then
          ((d.afterEvent w event).decisionOf w reviewer).map (fun decision => (reviewer, decision))
        else none)
    else none
  | _ => none

theorem Daemon.review_some {w : World} {d : Daemon} {i : Input} {reviewer : Job}
    {decision : ReviewDecision} (h : d.review w i = some (reviewer, decision)) :
    ∃ event, i = .event event ∧ d.alive = true ∧ event.strOr "type" "" = "job_completed" ∧
      (d.afterEvent w event).store.getJob (event.strOr "job_id" "") = some reviewer ∧
      reviewer.role = "reviewer" ∧ (d.afterEvent w event).decisionOf w reviewer = some decision := by
  cases i with
  | event event =>
    unfold Daemon.review at h
    dsimp only at h
    split at h
    · rename_i htype
      obtain ⟨job, hjob, hsome⟩ := Option.bind_eq_some_iff.mp h
      split at hsome
      · rename_i hrole
        obtain ⟨decision', hdec, heq⟩ := Option.map_eq_some_iff.mp hsome
        cases heq
        exact ⟨event, rfl, htype.1, htype.2, hjob, hrole, hdec⟩
      · cases hsome
    · cases h
  | _ => cases h

/-- A review is what the handler of the completion acts on: the job is completed first,
and the revision made of it then. -/
theorem handleEvent_review {w : World} {d : Daemon} {event : Json} {reviewer : Job}
    {decision : ReviewDecision} (h : d.review w (.event event) = some (reviewer, decision)) :
    d.handleEvent w event = .ok (finish w (d.jobRunId (event.strOr "job_id" ""))
      (match decision with
      | .revise feedback => ((d.removeManaged (workerName (event.strOr "job_id" ""))).act w
          (.call (d.jobRunId (event.strOr "job_id" "")) (.markCompleted (event.strOr "job_id" "")
            (event.strings "output_artifact_ids")))).act w
          (.call (d.jobRunId (event.strOr "job_id" "")) (.handleReviewCompletion
            (event.strOr "job_id" "") (.revise feedback) d.currentConfig.daemon.maxRevisions))
      | _ => (d.removeManaged (workerName (event.strOr "job_id" ""))).act w
          (.call (d.jobRunId (event.strOr "job_id" "")) (.markCompleted (event.strOr "job_id" "")
            (event.strings "output_artifact_ids"))))) := by
  obtain ⟨event', heq, _, htype, hget, hrole, hdec⟩ := Daemon.review_some h
  cases heq
  generalize hj : event.strOr "job_id" "" = j at hget ⊢
  generalize ho : event.strings "output_artifact_ids" = o
  generalize hd₁ : (d.removeManaged (workerName j)).act w
    (.call (d.jobRunId j) (.markCompleted j o)) = d₁
  have hengine : d.afterEvent w event = d₁.engine := by
    rw [← hd₁, ← ho, ← hj]
    rfl
  rw [hengine] at hget hdec
  have hconfig : d₁.currentConfig = d.currentConfig := by
    rw [← hd₁]
    rfl
  have hplanner : d.hasRole j "planner" = false := by
    have hget' : (d.engine.markCompleted w j o).store.getJob j = some reviewer := by
      rw [← hget, ← hd₁]
      rfl
    obtain ⟨job, hjob, hcase⟩ := markCompleted_job w d.engine j o hget'
    have hsame : job.role = reviewer.role := by
      rcases hcase with ⟨_, rfl⟩ | ⟨_, _, _, rfl⟩ | ⟨_, _, rfl⟩ <;> rfl
    unfold hasRole
    rw [hjob]
    simp [hsame, hrole]
  have hreviewer : d₁.hasRole j "reviewer" = true := by
    unfold hasRole
    rw [hget]
    simp [hrole]
  unfold handleEvent
  simp only [htype, hj, ho]
  rw [jobCompleted_eq, hd₁, hplanner]
  simp only [hreviewer, if_true, if_false, Bool.false_eq_true]
  unfold decisionOf at hdec
  obtain ⟨artifact, hartifact, hparse⟩ := Option.bind_eq_some_iff.mp hdec
  obtain ⟨artifactId, hid, hartifact⟩ := Option.bind_eq_some_iff.mp hartifact
  unfold reviewerOutput
  simp only [hget, Option.bind_some, hid, hartifact, hparse, hconfig]
  cases decision <;> rfl

/-- The reviewer asks for a revision and has revisions left. -/
def Daemon.Asks (d : Daemon) (reviewer : Job) (decision : ReviewDecision) : Prop :=
  decision.isRevise = true ∧ u32Succ reviewer.revisionRound ≤ d.currentConfig.daemon.maxRevisions

instance (d : Daemon) (reviewer : Job) (decision : ReviewDecision) :
    Decidable (d.Asks reviewer decision) := inferInstanceAs (Decidable (_ ∧ _))

/-- A reviewer that asked for a revision, and the last reviewer of its chain. -/
structure OpenReview where
  reviewer : JobId
  last : JobId

/-- The reviewer of the revision that is made, or the one that asks if none is made. -/
def Daemon.nextReviewer (d : Daemon) (x : World × Input) (reviewer : Job)
    (decision : ReviewDecision) : JobId :=
  let e := match x.2 with
    | .event event => d.afterEvent x.1 event
    | _ => d.engine
  ((e.handleReviewCompletion x.1 reviewer.jobId decision
    d.currentConfig.daemon.maxRevisions).1.map Prod.snd).getD reviewer.jobId

/-- A request for a revision opens a review, and puts off the end of those that waited for
the reviewer. Any other decision closes those. -/
def Daemon.reviewsAfter (d : Daemon) (x : World × Input) (pending : List OpenReview) :
    List OpenReview :=
  match d.review x.1 x.2 with
  | none => pending
  | some (reviewer, decision) =>
    if d.Asks reviewer decision then
      let last := d.nextReviewer x reviewer decision
      { reviewer := reviewer.jobId, last := last } ::
        pending.map (fun o => if o.last = reviewer.jobId then { o with last := last } else o)
    else pending.filter (fun o => o.last ≠ reviewer.jobId)

/-- The daemon, and the reviews that are open. -/
structure Reviewing where
  daemon : Daemon
  pending : List OpenReview

namespace Reviewing

def off (persistent : Bool) (sandboxOverride : Option Bool) (capsule : Bool) : Reviewing where
  daemon := Daemon.off persistent sandboxOverride capsule
  pending := []

def step (s : Reviewing) (x : World × Input) : Reviewing where
  daemon := s.daemon.step x
  pending := s.daemon.reviewsAfter x s.pending

/-- What depends on a reviewer whose review is open is held. -/
def Gates (s : Reviewing) : Prop :=
  ∀ o ∈ s.pending, ∀ k job, s.daemon.engine.store.getJob k = some job →
    o.reviewer ∈ job.dependsOn → s.daemon.engine.Held k job

def reviewers (s : Reviewing) : List JobId := s.pending.map (·.reviewer)

/-- The reviewer that asks for a revision in the step. -/
def asking (s : Reviewing) (x : World × Input) : List JobId :=
  match s.daemon.review x.1 x.2 with
  | none => []
  | some (reviewer, decision) =>
    if s.daemon.Asks reviewer decision then [reviewer.jobId] else []

/-- What depends on a reviewer that asks for a revision is still held, and no action hands
out a job that waits for it or for a reviewer whose review is open. -/
def HoldsBack (s : Reviewing) (x : World × Input) : Prop :=
  (∀ k job, s.daemon.engine.store.getJob k = some job → job.WaitsOn (s.asking x) →
    s.daemon.engine.Held k job) ∧
  Guarded (SparesWaiting (s.reviewers ++ s.asking x)) s.daemon x

instance (s : Reviewing) (x : World × Input) : Decidable (s.HoldsBack x) :=
  inferInstanceAs (Decidable (_ ∧ _))

/-! ## Runs -/

theorem reviewers_step (s : Reviewing) (x : World × Input) {r : JobId}
    (hr : r ∈ (s.step x).reviewers) : r ∈ s.reviewers ++ s.asking x := by
  obtain ⟨o, ho, rfl⟩ := List.mem_map.mp hr
  have ho' : o ∈ s.daemon.reviewsAfter x s.pending := ho
  unfold Daemon.reviewsAfter at ho'
  unfold asking
  cases hrev : s.daemon.review x.1 x.2 with
  | none =>
    rw [hrev] at ho'
    exact List.mem_append_left _ (List.mem_map_of_mem ho')
  | some found =>
    obtain ⟨reviewer, decision⟩ := found
    rw [hrev] at ho'
    dsimp only at ho' ⊢
    split at ho'
    · rename_i hasks
      rw [if_pos hasks]
      rcases List.mem_cons.mp ho' with rfl | hold
      · exact List.mem_append_right _ List.mem_cons_self
      · obtain ⟨o₀, ho₀, rfl⟩ := List.mem_map.mp hold
        refine List.mem_append_left _ (List.mem_map.mpr ⟨o₀, ho₀, ?_⟩)
        split <;> rfl
    · exact List.mem_append_left _ (List.mem_map_of_mem (List.mem_of_mem_filter ho'))

/-- A reviewer that asks is a job. -/
theorem getJob_of_asking {s : Reviewing} {x : World × Input} {r : JobId} (hr : r ∈ s.asking x) :
    ∃ job, s.daemon.engine.store.getJob r = some job := by
  unfold asking at hr
  cases hrev : s.daemon.review x.1 x.2 with
  | none =>
    rw [hrev] at hr
    cases hr
  | some found =>
    obtain ⟨reviewer, decision⟩ := found
    rw [hrev] at hr
    dsimp only at hr
    split at hr
    · rw [List.mem_singleton.mp hr]
      obtain ⟨event, _, _, _, hget, _⟩ := Daemon.review_some hrev
      rw [RunStore.jobId_of_getJob hget]
      obtain ⟨job, hjob, _⟩ := markCompleted_job x.1 s.daemon.engine _ _ hget
      exact ⟨job, hjob⟩
    · cases hr

theorem gated_step (s : Reviewing) (x : World × Input)
    (h : Sound s.daemon.core ∧ s.daemon.engine.Gated s.reviewers) (hx : s.HoldsBack x) :
    Sound (s.step x).daemon.core ∧ (s.step x).daemon.engine.Gated (s.step x).reviewers := by
  have hall : s.daemon.engine.Gated (s.reviewers ++ s.asking x) := by
    refine ⟨?_, ?_⟩
    · intro r hr
      rcases List.mem_append.mp hr with hr | hr
      · exact h.2.issued r hr
      · obtain ⟨job, hjob⟩ := getJob_of_asking hr
        exact h.1.grounded.supervised.jobIssued r job hjob
    · intro k job hget hwaits
      obtain ⟨r, hr, hdep⟩ := hwaits
      rcases List.mem_append.mp hr with hr | hr
      · exact h.2.held k job hget ⟨r, hr, hdep⟩
      · exact hx.1 k job hget ⟨r, hr, hdep⟩
  have hstep := core_step (P := fun c => c.engine.Gated (s.reviewers ++ s.asking x))
    (fun c y hs hl hc hy => gated_act hs hl hc hy) s.daemon x ⟨h.1, hall⟩ hx.2
  refine ⟨hstep.1, ?_, ?_⟩
  · intro r hr
    exact hstep.2.issued r (reviewers_step s x hr)
  · intro k job hget hwaits
    obtain ⟨r, hr, hdep⟩ := hwaits
    exact hstep.2.held k job hget ⟨r, reviewers_step s x hr, hdep⟩

/-- In every run in which what depends on a reviewer is still held when it asks for a
revision, and nothing hands it out while the review is open, reviews gate their dependents. -/
theorem gates_run (persistent : Bool) (sandboxOverride : Option Bool) (capsule : Bool)
    (is : List (World × Input))
    (h : Meets step HoldsBack (off persistent sandboxOverride capsule) is) :
    (run step (off persistent sandboxOverride capsule) is).Gates := by
  have hgated := run_invariant
    (P := fun s : Reviewing => Sound s.daemon.core ∧ s.daemon.engine.Gated s.reviewers) gated_step
    ⟨sound_off persistent sandboxOverride capsule,
      fun r hr => (by cases hr), fun k job hk => (by cases persistent <;> cases hk)⟩ h
  intro o ho k job hget hdep
  exact hgated.2.held k job hget ⟨o.reviewer, List.mem_map_of_mem ho, hdep⟩

/-! ## A writer behind a reviewer -/

/-- A writer that depends on the reviewer of a coder, and perhaps on another job. -/
def reviewedPlan (dependsOn : List String) : ExecutionPlan where
  jobs := [("a", "coder", []), ("b", "reviewer", ["a"]), ("c", "writer", dependsOn),
    ("x", "coder", [])].map (fun j =>
      { localId := j.1, role := j.2.1, profileId := j.2.1, instruction := "do",
        dependsOn := j.2.2 })
  channels := []

/-- The reviewer of the plan asks for a revision. -/
def revisionAsked (dependsOn : List String) : List (World × Input) :=
  let w := plannerWorld (reviewedPlan dependsOn)
  [(w, .start), (w, .command (.submitRun "task")), (w, artifactEvent "job_1_1" "plan"),
    (w, completedEvent "job_1_1" ["plan"]), (w, completedEvent "job_1_2" []),
    (w, artifactEvent "job_1_3" "review"),
    ({ w with readToString := fun _ => some "REVISE" }, completedEvent "job_1_3" ["review"])]

/-- The writer runs beside the coder of the revision. -/
theorem not_gates_revisionAsked :
    Meets Daemon.step Clocked (Daemon.off true none false) (revisionAsked ["b"]) ∧
      (run step (off true none false) (revisionAsked ["b"])).daemon.alive = true ∧
      ¬ (run step (off true none false) (revisionAsked ["b"])).Gates := by
  refine ⟨by decide, by decide, ?_⟩
  intro h
  have hopen : (run step (off true none false) (revisionAsked ["b"])).pending.map
      (fun o => (o.reviewer, o.last)) = [("job_1_3", "job_1_7")] := by decide
  obtain ⟨o, ho, heq⟩ := List.mem_map.mp (hopen ▸ List.mem_cons_self)
  have hjob : ((run step (off true none false)
      (revisionAsked ["b"])).daemon.engine.store.getJob "job_1_4").map
        (fun job => (job.status, job.dependsOn)) = some (.running, ["job_1_3"]) := by decide
  obtain ⟨job, hget, hfields⟩ := Option.map_eq_some_iff.mp hjob
  refine (h o ho "job_1_4" job hget ?_).notRunning (congrArg Prod.fst hfields)
  rw [show o.reviewer = "job_1_3" from congrArg Prod.fst heq,
    show job.dependsOn = ["job_1_3"] from congrArg Prod.snd hfields]
  exact List.mem_cons_self

/-- The writer that waits for another job as well is held while the review is open. -/
theorem gates_run_revisionAsked :
    (run step (off true none false) (revisionAsked ["b", "x"])).Gates ∧
      (run step (off true none false) (revisionAsked ["b", "x"])).reviewers = ["job_1_3"] :=
  ⟨gates_run true none false (revisionAsked ["b", "x"]) (by decide), by decide⟩

end Reviewing

end ZeptoPM
