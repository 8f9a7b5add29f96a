import ZeptoPM.Outcomes

/- The queue of ready jobs. `Orderly` says that it lists ready jobs, each once
   and none of them active, so that no job is ever handed to a second worker.
   Nothing looks an id up in the queue before it is pushed or before its job is
   written, so an outcome of a queued job breaks it: it is pushed again, or is
   left in the queue with another status. `OutcomesUnqueued` excludes these
   calls, and the removal of a run that has a job queued. -/
namespace ZeptoPM
open OrchestratorEngine

/-- The queue lists ready jobs that are not active, each of them once. -/
structure Orderly (e : OrchestratorEngine) : Prop where
  nodup : e.readyQueue.Nodup
  ready : ∀ k ∈ e.readyQueue, ∃ job, e.store.getJob k = some job ∧ job.status = .ready ∧
    e.activeJobs.get k = none

/-- The job handed out, if any, is ready and not active. -/
def HandsOutReady (c : Core) (x : World × Action) : Prop :=
  match x.2 with
  | .call _ .startNext => ∀ job ∈ c.engine.nextJob.1,
      job.status = .ready ∧ c.engine.activeJobs.get job.jobId = none
  | _ => True

/-- Outcomes are for jobs that are not queued, and so is the removal of a run. -/
def OutcomesUnqueued (c : Core) (x : World × Action) : Prop :=
  match x.2 with
  | .call _ (.markCompleted j _) | .call _ (.markFailed j _) => j ∉ c.engine.readyQueue
  | .expire r => c.engine.NoneQueued r
  | _ => True

instance (c : Core) (x : World × Action) : Decidable (OutcomesUnqueued c x) := by
  obtain ⟨w, ⟨r₀, f⟩ | _⟩ := x
  · rcases f with _ | _ <;> dsimp only [OutcomesUnqueued] <;> infer_instance
  all_goals
    dsimp only [OutcomesUnqueued]
    infer_instance

/-! ## One action -/

section
variable {w : World} {e e' : OrchestratorEngine}

theorem Orderly.frame (h : Orderly e) (hf : Frame e e') : Orderly e' := by
  refine ⟨?_, ?_⟩
  · rw [hf.readyQueue]
    exact h.nodup
  · intro k hk
    rw [hf.readyQueue] at hk
    rw [hf.getJob, hf.activeJobs]
    exact h.ready k hk

/-- New jobs have fresh ids, so none of them is queued or active. -/
theorem Orderly.created (hg : Grounded e) (h : Orderly e) {r : RunId} {new : List Job}
    (hn : Created e e' r new) : Orderly e' := by
  have hsub : ((new.filter (fun j => j.status == .ready)).map (·.jobId)).Sublist
      (new.map (·.jobId)) := List.filter_sublist.map _
  have hold : ∀ k ∈ e.readyQueue, k ∉ new.map (·.jobId) := by
    intro k hk
    obtain ⟨job, hjob, _⟩ := h.ready k hk
    exact hn.notMem (hg.supervised.jobIssued k job hjob)
  refine ⟨?_, ?_⟩
  · rw [hn.readyQueue]
    refine h.nodup.append (hsub.nodup hn.nodup) ?_
    intro k hk hmem
    exact hold k hk (hsub.mem hmem)
  · intro k hk
    rw [hn.activeJobs]
    rw [hn.readyQueue, List.mem_append] at hk
    rcases hk with hk | hk
    · obtain ⟨job, hjob, hst, hact⟩ := h.ready k hk
      exact ⟨job, (hn.getJob_old k (hold k hk)).trans hjob, hst, hact⟩
    · obtain ⟨job, hjob, rfl⟩ := List.mem_map.mp hk
      obtain ⟨hmem, hst⟩ := List.mem_filter.mp hjob
      refine ⟨job, hn.getJob_new job hmem, by simpa using hst, ?_⟩
      cases hact : e.activeJobs.get job.jobId with
      | none => rfl
      | some r' => exact absurd (hg.supervised.activeIssued _ r' hact) (hn.fresh job hmem)

theorem orderly_started (h : Orderly e) {job : Job} {q : List JobId}
    (hq : e.readyQueue = job.jobId :: q) : Orderly (e.started w job q) := by
  have hnd := hq ▸ h.nodup
  rw [List.nodup_cons] at hnd
  refine ⟨hnd.2, ?_⟩
  intro k hk
  have hne : k ≠ job.jobId := fun heq => hnd.1 (heq ▸ hk)
  rw [getJob_started, if_neg hne, getActive_started, if_neg hne]
  exact h.ready k (hq ▸ List.mem_cons_of_mem _ hk)

theorem get_remove_of_none {m : HashMap JobId RunId} {k j : JobId} (h : m.get k = none) :
    (m.remove j).get k = none := by
  rw [HashMap.get_remove]
  split
  · rfl
  · exact h

theorem orderly_markCompleted (hg : Grounded e) (h : Orderly e) {j : JobId} (o : List ArtifactId)
    (hj : j ∉ e.readyQueue) : Orderly (e.markCompleted w j o) := by
  -- promoted jobs were pending, so they were neither queued nor active
  have hpending : ∀ k ∈ e.promotedIds w j o, ∃ job, e.store.getJob k = some job ∧
      job.status = .pending := by
    intro k hk
    obtain ⟨_, job, _, _, hjob, hp⟩ := (mem_promotedIds w e j o).mp hk
    exact ⟨job, hjob, hp.2.1⟩
  have hdisj : ∀ k ∈ e.readyQueue, k ∉ e.promotedIds w j o := by
    intro k hk hmem
    obtain ⟨job, hjob, hst, _⟩ := h.ready k hk
    obtain ⟨job', hjob', hst'⟩ := hpending k hmem
    rw [hjob] at hjob'
    cases hjob'
    rw [hst] at hst'
    cases hst'
  have hafter : ∀ k job, e.store.getJob k = some job →
      (e.markCompleted w j o).store.getJob k = some (e.afterCompletion w j o k job) := by
    intro k job hjob
    rw [getJob_markCompleted, hjob]
    rfl
  refine ⟨?_, ?_⟩
  · rw [readyQueue_markCompleted]
    exact h.nodup.append (promotedIds_nodup w e j o) hdisj
  · intro k hk
    rw [readyQueue_markCompleted, List.mem_append] at hk
    rw [activeJobs_markCompleted]
    rcases hk with hk | hk
    · obtain ⟨job, hjob, hst, hact⟩ := h.ready k hk
      refine ⟨_, hafter k job hjob, ?_, get_remove_of_none hact⟩
      obtain ⟨job₀, hjob₀, hcases⟩ := markCompleted_job w e j o (hafter k job hjob)
      rw [hjob] at hjob₀
      cases hjob₀
      rcases hcases with ⟨rfl, _⟩ | ⟨_, hmem, _⟩ | ⟨_, _, heq⟩
      · exact absurd hk hj
      · exact absurd hmem (hdisj k hk)
      · rw [heq]
        exact hst
    · obtain ⟨job, hjob, hst⟩ := hpending k hk
      refine ⟨_, hafter k job hjob, ?_, get_remove_of_none ?_⟩
      · obtain ⟨job₀, hjob₀, hcases⟩ := markCompleted_job w e j o (hafter k job hjob)
        obtain ⟨_, _, _, hne, _, _⟩ := (mem_promotedIds w e j o).mp hk
        rcases hcases with ⟨hkj, _⟩ | ⟨_, _, _, heq⟩ | ⟨_, hnot, _⟩
        · exact absurd hkj hne
        · rw [heq]
          rfl
        · exact absurd hk hnot
      · cases hact : e.activeJobs.get k with
        | none => rfl
        | some r =>
          have hrunning := hg.activeRunning k r job hact hjob
          rw [hst] at hrunning
          cases hrunning

theorem orderly_markFailed (h : Orderly e) {j : JobId} (err : String) (hj : j ∉ e.readyQueue) :
    Orderly (e.markFailed w j err) := by
  have hold : ∀ k ∈ e.readyQueue, ∃ job, (e.markFailed w j err).store.getJob k = some job ∧
      job.status = .ready ∧ (e.activeJobs.remove j).get k = none := by
    intro k hk
    obtain ⟨job, hjob, hst, hact⟩ := h.ready k hk
    have hne : k ≠ j := fun heq => hj (heq ▸ hk)
    refine ⟨job, ?_, hst, get_remove_of_none hact⟩
    rw [getJob_markFailed, if_neg hne]
    exact hjob
  refine ⟨?_, ?_⟩
  · rw [readyQueue_markFailed]
    split
    · refine h.nodup.append (List.nodup_singleton j) ?_
      intro k hk hkj
      exact hj (List.mem_singleton.mp hkj ▸ hk)
    · exact h.nodup
  · intro k hk
    rw [activeJobs_markFailed]
    rw [readyQueue_markFailed] at hk
    split at hk
    · rename_i hreq
      rcases List.mem_append.mp hk with hk | hk
      · exact hold k hk
      · obtain rfl := List.mem_singleton.mp hk
        obtain ⟨job, hjob, hretries⟩ := (requeues_iff e k).mp hreq
        refine ⟨job.fail w err, ?_, ?_, ?_⟩
        · rw [getJob_markFailed, if_pos rfl, hjob]
          rfl
        · rw [Job.fail_status, hretries]
          rfl
        · rw [HashMap.get_remove, if_pos rfl]
    · exact hold k hk

theorem Orderly.cancelled (h : Orderly e) {r : RunId} (hc : CancelledRun w e e' r) :
    Orderly e' := by
  refine ⟨?_, ?_⟩
  · rw [hc.queue]
    exact h.nodup.filter _
  · intro k hk
    rw [hc.queue, List.mem_filter] at hk
    obtain ⟨job, hjob, hst, hact⟩ := h.ready k hk.1
    have hkeep : ¬ e.Cancels r k := by
      intro h
      obtain ⟨job', hjob', hr, _⟩ := h
      have hother := hk.2
      rw [hjob'] at hother
      simp [hr] at hother
    exact ⟨job, (hc.getJob_other k hkeep).trans hjob, hst, (hc.active_other k hkeep).trans hact⟩

theorem Orderly.expire (h : Orderly e) {r : RunId} (hr : e.NoneQueued r) :
    Orderly (e.removeRun w r) := by
  refine ⟨h.nodup, ?_⟩
  intro k hk
  obtain ⟨job, hjob, hst, hact⟩ := h.ready k hk
  exact ⟨job, getJob_expire.mpr ⟨hjob, hr k hk job hjob⟩, hst, hact⟩

theorem orderly_hydrate (db : SqlitePersistence) (ids : IdSupply) :
    Orderly (hydrate w (some db) ids) := by
  refine ⟨readyQueue_hydrate_nodup, ?_⟩
  intro k hk
  obtain ⟨job, hjob, hst⟩ := mem_readyQueue_hydrate.mp hk
  exact ⟨job, hjob, hst, rfl⟩

theorem orderly_empty (ids : IdSupply) : Orderly { new 4 with ids := ids } where
  nodup := List.nodup_nil
  ready := by
    intro _ hk
    cases hk

end

theorem orderly_act (c : Core) (x : World × Action) (hs : Sound c) (hl : Legal c x)
    (h : Orderly c.engine) (hok : OutcomesUnqueued c x) : Orderly (coreStep c x).engine := by
  obtain ⟨e, db⟩ := c
  obtain ⟨w, a⟩ := x
  have hg : Grounded e := hs.grounded
  cases a with
  | call r f =>
    show Orderly (f.apply w e)
    cases outcome_call hg hl with
    | frame hf => exact h.frame hf
    | submitted task hn _ => exact h.created hg hn
    | dropped q heq hq =>
      show Orderly (e.startNext w).2
      rw [heq]
      rcases hq with rfl | ⟨j, hq, _⟩
      · exact h
      · have hnd := hq ▸ h.nodup
        exact ⟨(List.nodup_cons.mp hnd).2, fun k hk => h.ready k (hq ▸ List.mem_cons_of_mem _ hk)⟩
    | started job q hq _ heq =>
      show Orderly (e.startNext w).2
      rw [heq]
      exact orderly_started h hq
    | completed j o => exact orderly_markCompleted hg h o hok
    | failed j err => exact orderly_markFailed h err hok
    | planned _ p plan hn => exact h.created hg hn.created
    | revised j d m rev new _ hn => exact h.created hg hn.created
    | cancelled r hc => exact h.cancelled hc
  | persistRunState r => exact h
  | persistArtifact artifact => exact h
  | genId pre => exact ⟨h.nodup, h.ready⟩
  | expire r => exact h.expire hok
  | hydrate =>
    cases db with
    | none => exact orderly_empty _
    | some db => exact orderly_hydrate db _

/-- An orderly queue hands out ready jobs only. -/
theorem handsOutReady_of_orderly {c : Core} (h : Orderly c.engine) (x : World × Action) :
    HandsOutReady c x := by
  unfold HandsOutReady
  split
  · intro job hjob
    rcases nextJob_cases c.engine with ⟨_, heq, _⟩ | ⟨job', q, _, hq, hget, heq⟩
    · rw [heq] at hjob
      cases hjob
    · rw [heq] at hjob
      cases hjob
      obtain ⟨job', hget', hst, hact⟩ := h.ready job.jobId (hq ▸ List.mem_cons_self)
      rw [hget] at hget'
      cases hget'
      exact ⟨hst, hact⟩
  · exact True.intro

/-- As long as outcomes are for jobs that are not queued, the queue is orderly and
no job is handed out to a second worker. -/
theorem orderly_run (persistent : Bool) (sandboxOverride : Option Bool) (capsule : Bool)
    (is : List (World × Input))
    (h : Meets Daemon.step (Guarded OutcomesUnqueued)
      (Daemon.off persistent sandboxOverride capsule) is) :
    Orderly (run Daemon.step (Daemon.off persistent sandboxOverride capsule) is).engine ∧
      Meets Daemon.step (Guarded HandsOutReady) (Daemon.off persistent sandboxOverride capsule)
        is :=
  ⟨(core_run orderly_act (sound_off ..) (orderly_empty _) h).2,
    core_run_meets orderly_act (fun _ x _ _ hc _ => handsOutReady_of_orderly hc x) (sound_off ..)
      (orderly_empty _) h⟩

/-! ## A job killed twice -/

/-- Five jobs, two of them talking over two channels. -/
def pairPlan : ExecutionPlan where
  jobs := ["a", "b", "c", "d", "e"].map (fun l =>
    { localId := l, role := "coder", profileId := "coder", instruction := "write",
      dependsOn := [] })
  channels := ["x", "y"].map (fun c =>
    { channelId := c, participants := ["a", "b"], mode := .turnBased, maxRounds := none,
      onPeerFailure := .killAll, initialMessage := none })

def peerKilledTwice : List (World × Input) :=
  [(plannerWorld pairPlan, .start), (plannerWorld pairPlan, .command (.submitRun "task")),
    (plannerWorld pairPlan, artifactEvent "job_1_1" "plan"),
    (plannerWorld pairPlan, completedEvent "job_1_1" ["plan"]),
    (plannerWorld pairPlan, failedEvent "job_1_2")]

/-- Job `a` fails, each of the channels kills `b`, and `b` is queued by both; it
runs while it is still in the queue. -/
theorem not_orderly_peerKilledTwice :
    Meets Daemon.step Clocked (Daemon.off true none false) peerKilledTwice ∧
      (run Daemon.step (Daemon.off true none false) peerKilledTwice).alive = true ∧
      ¬ Orderly (run Daemon.step (Daemon.off true none false) peerKilledTwice).engine := by
  refine ⟨by decide, by decide, fun h => ?_⟩
  obtain ⟨_, _, _, hact⟩ := h.ready "job_1_3" (by decide)
  exact absurd hact (by decide)

/-- The five jobs, and a failure of one that is in no channel. -/
def bystanderFailed : List (World × Input) :=
  [(plannerWorld pairPlan, .start), (plannerWorld pairPlan, .command (.submitRun "task")),
    (plannerWorld pairPlan, artifactEvent "job_1_1" "plan"),
    (plannerWorld pairPlan, completedEvent "job_1_1" ["plan"]),
    (plannerWorld pairPlan, failedEvent "job_1_4")]

theorem orderly_run_bystander :
    Orderly (run Daemon.step (Daemon.off true none false) bystanderFailed).engine ∧
      Meets Daemon.step (Guarded HandsOutReady) (Daemon.off true none false) bystanderFailed :=
  orderly_run true none false bystanderFailed (by decide)

end ZeptoPM
