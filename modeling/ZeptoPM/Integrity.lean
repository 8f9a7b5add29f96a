import ZeptoPM.Core
import ZeptoPM.Supervision

/- What holds of engine and database whatever the daemon handles. `Legal` says
   which actions handlers take, and `Sound` what every action of theirs keeps:
   active jobs are running, jobs and channels belong to runs that exist, and the
   database knows only records that the engine knows too. -/
namespace ZeptoPM
open OrchestratorEngine

/-- If there is such a job, it is one of the run. -/
def OrchestratorEngine.OfRun (e : OrchestratorEngine) (r : RunId) (j : JobId) : Prop :=
  ∀ job, e.store.getJob j = some job → job.runId = r

/-- What a handler may do: calls on behalf of the run it will persist, made at a
time when the clock has not fallen behind the start of the process. -/
def Legal (c : Core) (x : World × Action) : Prop :=
  x.1.After c.engine.ids ∧
    match x.2 with
    | .call r (.submitRun _) => r = (c.engine.submitIds x.1).1
    | .call _ .startNext | .call _ (.recordHeartbeat _) | .call _ .activateReadyChannels
    | .call _ (.createArtifact _) => True
    | .call r (.markCompleted j _) | .call r (.markFailed j _)
    | .call r (.handleReviewCompletion j _ _) => c.engine.OfRun r j
    | .call r (.acceptPlan r' p plan) =>
      r' = r ∧ validatePlan plan = [] ∧ ∃ job, c.engine.store.getJob p = some job ∧ job.runId = r
    | .call r (.routeChannelMessage ch _ _) | .call r (.handleChannelDone ch _)
    | .call r (.handleChannelPeerFailure ch _) =>
      ∀ chan, c.engine.store.getChannel ch = some chan → chan.runId = r
    | .call r (.cancelRun r') => r' = r
    | .call _ _ => False
    | .persistRunState _ | .persistArtifact _ | .genId _ | .expire _ | .hydrate => True

/-- Jobs, channels and slots refer to runs and jobs that are there. -/
structure Grounded (e : OrchestratorEngine) : Prop where
  supervised : Supervised e
  activeRunning : ∀ k r job, e.activeJobs.get k = some r → e.store.getJob k = some job →
    job.status = .running
  activeGone : ∀ k r, e.activeJobs.get k = some r → e.store.getJob k = none →
    e.store.getRun r = none
  activeRun : ∀ k r, e.activeJobs.get k = some r → Issued e.ids r
  runOf : ∀ k job, e.store.getJob k = some job → ∃ run, e.store.getRun job.runId = some run
  runIssued : ∀ r run, e.store.getRun r = some run → Issued e.ids r
  channelHome : ∀ k ch, e.store.getChannel k = some ch →
    (∃ run, e.store.getRun ch.runId = some run) ∧
      ∀ p ∈ ch.participants, ∃ job, e.store.getJob p = some job ∧ job.runId = ch.runId

/-- The database knows of no record the engine does not know, and none without
the records it refers to. -/
structure Image (db : SqlitePersistence) (e : OrchestratorEngine) : Prop where
  run : ∀ r run, db.getRun r = some run → ∃ run', e.store.getRun r = some run'
  job : ∀ k job, db.getJob k = some job →
    (∃ job', e.store.getJob k = some job' ∧ job'.runId = job.runId) ∧
      ∃ run, db.getRun job.runId = some run
  channel : ∀ k ch, db.getChannel k = some ch → (∃ run, db.getRun ch.runId = some run) ∧
    ∀ p ∈ ch.participants, ∃ job, db.getJob p = some job ∧ job.runId = ch.runId

structure Sound (c : Core) : Prop where
  grounded : Grounded c.engine
  image : ∀ db, c.db = some db → Image db c.engine

/-! ## Engine calls -/

section
variable {w : World} {e e' : OrchestratorEngine}

/-- No run and no job is lost, and jobs stay in their runs. -/
structure Extends (e e' : OrchestratorEngine) : Prop where
  job : ∀ k job, e.store.getJob k = some job →
    ∃ job', e'.store.getJob k = some job' ∧ job'.runId = job.runId
  run : ∀ r run, e.store.getRun r = some run → ∃ run', e'.store.getRun r = some run'

theorem Extends.refl (e : OrchestratorEngine) : Extends e e :=
  ⟨fun _ job h => ⟨job, h, rfl⟩, fun _ run h => ⟨run, h⟩⟩

/-- The records are the same up to what is written in them. -/
structure Same (e e' : OrchestratorEngine) : Prop where
  job : ∀ k, (e'.store.getJob k).map (·.runId) = (e.store.getJob k).map (·.runId)
  run : ∀ r, (e'.store.getRun r).isSome = (e.store.getRun r).isSome
  channel : ∀ k ch', e'.store.getChannel k = some ch' → ∃ ch, e.store.getChannel k = some ch ∧
    ch'.runId = ch.runId ∧ ch'.participants = ch.participants
  ids : e'.ids = e.ids

theorem Same.refl (e : OrchestratorEngine) : Same e e :=
  ⟨fun _ => rfl, fun _ => rfl, fun _ ch hk => ⟨ch, hk, rfl, rfl⟩, rfl⟩

theorem Same.trans {e'' : OrchestratorEngine} (h₁ : Same e e') (h₂ : Same e' e'') : Same e e'' := by
  refine ⟨fun k => (h₂.job k).trans (h₁.job k), fun r => (h₂.run r).trans (h₁.run r), ?_,
    h₂.ids.trans h₁.ids⟩
  intro k ch'' hk
  obtain ⟨ch', hch', hr', hp'⟩ := h₂.channel k ch'' hk
  obtain ⟨ch, hch, hr, hp⟩ := h₁.channel k ch' hch'
  exact ⟨ch, hch, hr'.trans hr, hp'.trans hp⟩

theorem Same.job_before (h : Same e e') {k : JobId} {job' : Job}
    (hk : e'.store.getJob k = some job') :
    ∃ job, e.store.getJob k = some job ∧ job'.runId = job.runId := by
  have heq := h.job k
  rw [hk] at heq
  obtain ⟨job, hjob, hr⟩ := Option.map_eq_some_iff.mp heq.symm
  exact ⟨job, hjob, hr.symm⟩

theorem Same.job_after (h : Same e e') {k : JobId} {job : Job} (hk : e.store.getJob k = some job) :
    ∃ job', e'.store.getJob k = some job' ∧ job'.runId = job.runId := by
  have heq := h.job k
  rw [hk] at heq
  exact Option.map_eq_some_iff.mp heq

theorem Same.run_iff (h : Same e e') (r : RunId) :
    (∃ run, e'.store.getRun r = some run) ↔ ∃ run, e.store.getRun r = some run := by
  rw [← Option.isSome_iff_exists, ← Option.isSome_iff_exists, h.run]

theorem Same.extends (h : Same e e') : Extends e e' :=
  ⟨fun _ _ hk => h.job_after hk, fun r run hr => (h.run_iff r).mpr ⟨run, hr⟩⟩

theorem OrchestratorEngine.Frame.same (h : Frame e e') (hc : ∀ k ch', e'.store.getChannel k = some ch' →
    ∃ ch, e.store.getChannel k = some ch ∧ ch'.runId = ch.runId ∧
      ch'.participants = ch.participants) : Same e e' :=
  ⟨fun k => by rw [h.getJob], fun r => by rw [h.getRun], hc, h.ids⟩

/-- What a step that creates no record has to keep of the slots. -/
theorem Grounded.same (h : Grounded e) (hs : Same e e') (hsup : Supervised e')
    (hrunning : ∀ k r job, e'.activeJobs.get k = some r → e'.store.getJob k = some job →
      job.status = .running)
    (hactive : ∀ k r, e'.activeJobs.get k = some r → e.activeJobs.get k = some r ∨
      ∃ job, e.store.getJob k = some job ∧ job.runId = r) : Grounded e' := by
  refine ⟨?_, ?_, ?_, ?_, ?_, ?_, ?_⟩
  · exact hsup
  · exact hrunning
  · intro k r hk hnone
    have hnone' : e.store.getJob k = none := by
      have heq := hs.job k
      rw [hnone] at heq
      exact Option.map_eq_none_iff.mp heq.symm
    rcases hactive k r hk with hold | ⟨job, hjob, _⟩
    · have hgone := h.activeGone k r hold hnone'
      have hsome := hs.run r
      rw [hgone] at hsome
      exact Option.isNone_iff_eq_none.mp (by simpa using hsome)
    · rw [hnone'] at hjob
      cases hjob
  · intro k r hk
    rw [hs.ids]
    rcases hactive k r hk with hold | ⟨job, hjob, rfl⟩
    · exact h.activeRun k r hold
    · obtain ⟨run, hrun⟩ := h.runOf k job hjob
      exact h.runIssued _ run hrun
  · intro k job' hk
    obtain ⟨job, hjob, hr⟩ := hs.job_before hk
    rw [hr]
    exact (hs.run_iff _).mpr (h.runOf k job hjob)
  · intro r run' hr
    obtain ⟨run, hrun⟩ := (hs.run_iff r).mp ⟨run', hr⟩
    rw [hs.ids]
    exact h.runIssued r run hrun
  · intro k ch' hk
    obtain ⟨ch, hch, hr, hp⟩ := hs.channel k ch' hk
    obtain ⟨hrun, hpart⟩ := h.channelHome k ch hch
    rw [hr, hp]
    refine ⟨(hs.run_iff _).mpr hrun, ?_⟩
    intro p hmem
    obtain ⟨job, hjob, hjr⟩ := hpart p hmem
    obtain ⟨job', hjob', hjr'⟩ := hs.job_after hjob
    exact ⟨job', hjob', hjr'.trans hjr⟩

theorem Grounded.frame (h : Grounded e) (hf : Frame e e') (hsup : Supervised e')
    (hc : ∀ k ch', e'.store.getChannel k = some ch' →
      ∃ ch, e.store.getChannel k = some ch ∧ ch'.runId = ch.runId ∧
        ch'.participants = ch.participants) : Grounded e' := by
  refine h.same (hf.same hc) hsup ?_ ?_
  · intro k r job hk hjob
    rw [hf.activeJobs] at hk
    rw [hf.getJob] at hjob
    exact h.activeRunning k r job hk hjob
  · intro k r hk
    rw [hf.activeJobs] at hk
    exact Or.inl hk

/-- What a step that creates jobs of the run `r` has to say of runs and channels. -/
theorem Grounded.created (h : Grounded e) {r : RunId} {new : List Job} (hn : Created e e' r new)
    (hr : ∃ run, e'.store.getRun r = some run)
    (hruns : ∀ k, k ≠ r → e'.store.getRun k = e.store.getRun k)
    (hfresh : (∃ run, e.store.getRun r = some run) ∨ ¬ Issued e.ids r)
    (hissued : Issued e'.ids r)
    (hc : ∀ k ch, e'.store.getChannel k = some ch → e.store.getChannel k = some ch ∨
      (ch.runId = r ∧ ∀ p ∈ ch.participants, ∃ job ∈ new, job.jobId = p)) : Grounded e' := by
  have hold : ∀ k job, e.store.getJob k = some job → e'.store.getJob k = some job :=
    fun k job hk => h.supervised.getJob_created hn hk
  have hkeep : ∀ k, (∃ run, e.store.getRun k = some run) → ∃ run, e'.store.getRun k = some run := by
    intro k h
    obtain ⟨run, hk⟩ := h
    by_cases hkr : k = r
    · exact hkr ▸ hr
    · exact ⟨run, (hruns k hkr).trans hk⟩
  refine ⟨?_, ?_, ?_, ?_, ?_, ?_, ?_⟩
  · exact h.supervised.created hn
  · intro k r' job hk hjob
    rw [hn.activeJobs] at hk
    rcases hn.cases hjob with ⟨hmem, rfl⟩ | ⟨_, hjob'⟩
    · exact absurd (h.supervised.activeIssued _ r' hk) (hn.fresh job hmem)
    · exact h.activeRunning k r' job hk hjob'
  · intro k r' hk hnone
    rw [hn.activeJobs] at hk
    have hnone' : e.store.getJob k = none := by
      cases hjob : e.store.getJob k with
      | none => rfl
      | some job =>
        rw [hold k job hjob] at hnone
        cases hnone
    -- a slot of a job that is gone does not get its run back: the run is not a fresh one
    have hgone := h.activeGone k r' hk hnone'
    by_cases hkr : r' = r
    · rcases hfresh with ⟨run, hrun⟩ | hnew
      · rw [hkr, hrun] at hgone
        cases hgone
      · exact absurd (hkr ▸ h.activeRun k r' hk) hnew
    · exact (hruns r' hkr).trans hgone
  · intro k r' hk
    rw [hn.activeJobs] at hk
    exact (h.activeRun k r' hk).mono hn.le
  · intro k job hk
    rcases hn.cases hk with ⟨hmem, _⟩ | ⟨_, hjob⟩
    · rw [hn.runId job hmem]
      exact hr
    · exact hkeep _ (h.runOf k job hjob)
  · intro k run hk
    by_cases hkr : k = r
    · exact hkr ▸ hissued
    · rw [hruns k hkr] at hk
      exact (h.runIssued k run hk).mono hn.le
  · intro k ch hk
    rcases hc k ch hk with hch | ⟨hchr, hp⟩
    · obtain ⟨hrun, hpart⟩ := h.channelHome k ch hch
      refine ⟨hkeep _ hrun, ?_⟩
      intro p hmem
      obtain ⟨job, hjob, hjr⟩ := hpart p hmem
      exact ⟨job, hold p job hjob, hjr⟩
    · rw [hchr]
      refine ⟨hr, ?_⟩
      intro p hmem
      obtain ⟨job, hjob, rfl⟩ := hp p hmem
      exact ⟨job, hn.getJob_new job hjob, hn.runId job hjob⟩

theorem extends_created {r : RunId} {new : List Job} (h : Grounded e) (hn : Created e e' r new)
    (hr : ∃ run, e'.store.getRun r = some run)
    (hruns : ∀ k, k ≠ r → e'.store.getRun k = e.store.getRun k) : Extends e e' := by
  refine ⟨?_, ?_⟩
  · intro k job hk
    exact ⟨job, h.supervised.getJob_created hn hk, rfl⟩
  · intro k run hk
    by_cases hkr : k = r
    · exact hkr ▸ hr
    · exact ⟨run, (hruns k hkr).trans hk⟩

/-! ## The calls of handlers, one by one -/

/-- A channel operation keeps the channels' runs and participants. -/
theorem grounded_channelStep {S : Channel → Prop} (h : Grounded e) (hs : ChannelStep e e' S) :
    Grounded e' ∧ Extends e e' := by
  have hbefore : ∀ k ch', e'.store.getChannel k = some ch' → ∃ ch,
      e.store.getChannel k = some ch ∧ ch'.runId = ch.runId ∧ ch'.participants = ch.participants :=
    fun _ _ hk => hs.before hk
  refine ⟨h.frame hs.frame ?_ hbefore, (hs.frame.same hbefore).extends⟩
  exact h.supervised.frame hs.frame
    (fun k t hk => h.supervised.heartbeat k t (hs.lastHeartbeat ▸ hk))

/-- Where the store stays, only the slots of the jobs in it matter. -/
theorem grounded_sameStore (h : Grounded e) (hs : e'.store = e.store) (hids : e'.ids = e.ids)
    (hsup : Supervised e') (hact : e'.activeJobs = e.activeJobs) :
    Grounded e' ∧ Extends e e' := by
  have hsame : Same e e' := by
    refine ⟨fun k => by rw [hs], fun r => by rw [hs], ?_, hids⟩
    intro k ch' hk
    rw [hs] at hk
    exact ⟨ch', hk, rfl, rfl⟩
  refine ⟨h.same hsame hsup ?_ ?_, hsame.extends⟩
  · intro k r job hk hjob
    rw [hact] at hk
    rw [hs] at hjob
    exact h.activeRunning k r job hk hjob
  · intro k r hk
    rw [hact] at hk
    exact Or.inl hk

theorem grounded_startNext (h : Grounded e) (hsup : Supervised (e.startNext w).2) :
    Grounded (e.startNext w).2 ∧ Extends e (e.startNext w).2 := by
  rcases startNext_cases w e with ⟨q, heq, _⟩ | ⟨head, q, _, _, hhead, heq⟩ <;> rw [heq] at hsup ⊢
  · exact grounded_sameStore h rfl rfl hsup rfl
  · have hsame : Same e (e.started w head q) := by
      refine ⟨?_, ?_, fun k ch hk => ⟨ch, hk, rfl, rfl⟩, rfl⟩
      · intro k
        rw [getJob_started]
        split
        · rename_i hk
          rw [hk, Option.map_map]
          rfl
        · rfl
      · intro r
        rw [getRun_started]
        split
        · rename_i hr
          rw [hr, Option.isSome_map]
        · rfl
    refine ⟨h.same hsame hsup ?_ ?_, hsame.extends⟩
    · intro k r job hk hjob
      rw [getActive_started] at hk
      rw [getJob_started] at hjob
      split at hk
      · rename_i hkh
        rw [if_pos hkh, hhead] at hjob
        cases hjob
        rfl
      · rename_i hkh
        rw [if_neg hkh] at hjob
        exact h.activeRunning k r job hk hjob
    · intro k r hk
      rw [getActive_started] at hk
      split at hk
      · rename_i hkh
        cases hk
        exact Or.inr ⟨head, hkh ▸ hhead, rfl⟩
      · exact Or.inl hk

theorem same_markCompleted (j : JobId) (o : List ArtifactId) : Same e (e.markCompleted w j o) := by
  refine ⟨?_, ?_, fun k ch hk => ⟨ch, by rwa [getChannel_markCompleted] at hk, rfl, rfl⟩, by simp⟩
  · intro k
    rw [getJob_markCompleted, Option.map_map]
    congr 1
    funext job
    exact afterCompletion_runId w e j o k job
  · intro r
    cases hact : e.activeJobs.get j with
    | none => rw [getRun_markCompleted_of_notActive w e j o hact]
    | some r' => exact (checked_markCompleted w e j o hact).isSome r

theorem same_markFailed (j : JobId) (err : String) : Same e (e.markFailed w j err) := by
  refine ⟨?_, ?_, fun k ch hk => ⟨ch, by rwa [getChannel_markFailed] at hk, rfl, rfl⟩, by simp⟩
  · intro k
    rw [getJob_markFailed]
    split
    · rename_i hk
      rw [hk, Option.map_map]
      congr 1
      funext job
      exact Job.fail_runId ..
    · rfl
  · intro r
    cases hact : e.activeJobs.get j with
    | none => rw [getRun_markFailed_of_notActive w e j err hact]
    | some r' => exact (checked_markFailed w e j err hact).isSome r

theorem grounded_markCompleted (h : Grounded e) (j : JobId) (o : List ArtifactId) :
    Grounded (e.markCompleted w j o) ∧ Extends e (e.markCompleted w j o) := by
  have hsame : Same e (e.markCompleted w j o) := same_markCompleted j o
  refine ⟨h.same hsame (supervised_markCompleted h.supervised j o) ?_ ?_, hsame.extends⟩
  · intro k r job' hk hjob'
    rw [activeJobs_markCompleted] at hk
    obtain ⟨hkj, hk⟩ := HashMap.get_of_get_remove hk
    obtain ⟨job, hjob, ⟨hkj', _⟩ | ⟨_, _, hst, _⟩ | ⟨_, _, rfl⟩⟩ := markCompleted_job w e j o hjob'
    · exact absurd hkj' hkj
    · have hrun := h.activeRunning k r job hk hjob
      rw [hst] at hrun
      cases hrun
    · exact h.activeRunning k r job' hk hjob
  · intro k r hk
    rw [activeJobs_markCompleted] at hk
    exact Or.inl (HashMap.get_of_get_remove hk).2

theorem grounded_markFailed (h : Grounded e) (j : JobId) (err : String) :
    Grounded (e.markFailed w j err) ∧ Extends e (e.markFailed w j err) := by
  have hsame : Same e (e.markFailed w j err) := same_markFailed j err
  refine ⟨h.same hsame (supervised_markFailed h.supervised j err) ?_ ?_, hsame.extends⟩
  · intro k r job' hk hjob'
    rw [activeJobs_markFailed] at hk
    obtain ⟨hkj, hk⟩ := HashMap.get_of_get_remove hk
    rw [getJob_markFailed, if_neg hkj] at hjob'
    exact h.activeRunning k r job' hk hjob'
  · intro k r hk
    rw [activeJobs_markFailed] at hk
    exact Or.inl (HashMap.get_of_get_remove hk).2

theorem grounded_cancelRun (h : Grounded e) (r : RunId) :
    Grounded (e.cancelRun w r).2 ∧ Extends e (e.cancelRun w r).2 := by
  have hsup := supervised_cancelRun (w := w) h.supervised r
  rcases cancelRun_cases w h.supervised.home r with ⟨err, heq⟩ | ⟨msg, run, _, hrun, _, hc⟩
  · rw [heq]
    exact ⟨h, .refl e⟩
  · generalize (e.cancelRun w r).2 = e' at hsup hc ⊢
    have hsame : Same e e' := by
      refine ⟨?_, ?_, ?_, hc.ids⟩
      · intro k
        by_cases hk : e.Cancels r k
        · rw [hc.getJob_cancelled k hk, Option.map_map]
          congr 1
          funext job
          exact Job.fail_runId ..
        · rw [hc.getJob_other k hk]
      · intro k
        by_cases hk : k = r
        · subst hk
          obtain ⟨run', hrun', _⟩ := hc.getRun_self
          rw [hrun', hrun]
          rfl
        · rw [hc.getRun_ne k hk]
      · intro k ch hk
        exact ⟨ch, (hc.getChannel k).symm.trans hk, rfl, rfl⟩
    refine ⟨h.same hsame hsup ?_ ?_, hsame.extends⟩
    · intro k r' job' hk hjob'
      obtain ⟨hcan, hk⟩ := hc.active_kept hk
      rw [hc.getJob_other k hcan] at hjob'
      exact h.activeRunning k r' job' hk hjob'
    · intro k r' hk
      exact Or.inl (hc.active_kept hk).2

/-- Every legal call keeps the engine grounded and loses no record. -/
theorem grounded_call {db : Option SqlitePersistence} {r : RunId} {c : Call} (h : Grounded e)
    (hl : Legal ⟨e, db⟩ (w, .call r c)) :
    Grounded (c.apply w e) ∧ Extends e (c.apply w e) := by
  obtain ⟨hw, hc⟩ := hl
  change w.After e.ids at hw
  have hsup := supervised_apply h.supervised hw c
  cases c with
  | submitRun task =>
    have hn := created_submitRun hw task
    have hget := getRun_submitRun w e task (e.submitIds w).1
    rw [if_pos rfl] at hget
    have hruns : ∀ k, k ≠ (e.submitIds w).1 →
        (e.submitRun w task).2.store.getRun k = e.store.getRun k := by
      intro k hk
      rw [getRun_submitRun, if_neg hk]
    exact ⟨h.created hn ⟨_, hget⟩ hruns (Or.inr (submitIds_fresh hw)) (submitIds_issued w e task)
      (fun k ch hk => Or.inl hk), extends_created h hn ⟨_, hget⟩ hruns⟩
  | startNext => exact grounded_startNext h hsup
  | recordHeartbeat j =>
    have hsame : (e.recordHeartbeat w j).store = e.store ∧ (e.recordHeartbeat w j).ids = e.ids ∧
        (e.recordHeartbeat w j).activeJobs = e.activeJobs := by
      unfold recordHeartbeat
      split <;> exact ⟨rfl, rfl, rfl⟩
    exact grounded_sameStore h hsame.1 hsame.2.1 hsup hsame.2.2
  | markCompleted j o => exact grounded_markCompleted h j o
  | markFailed j err => exact grounded_markFailed h j err
  | acceptPlan r' p plan =>
    obtain ⟨rfl, hval, job, hjob, rfl⟩ := hc
    have hok := validatePlan_eq_nil.mp hval
    have hn := created_acceptPlan (r := job.runId) (p := p) hw hok
    have hrun := h.runOf p job hjob
    obtain ⟨run, hget⟩ := hrun
    refine ⟨h.created hn ⟨run, hget⟩ (fun _ _ => rfl) (Or.inl ⟨run, hget⟩)
      ((h.runIssued _ run hget).mono hn.le) ?_, extends_created h hn ⟨run, hget⟩ (fun _ _ => rfl)⟩
    intro k ch hk
    rcases getChannel_acceptPlan_cases hk with hmem | ⟨_, hold⟩
    · obtain ⟨hr, _, _, hp⟩ := participants_planChannels hmem
      exact Or.inr ⟨hr, hp⟩
    · exact Or.inl hold
  | handleReviewCompletion j d m =>
    show Grounded (e.handleReviewCompletion w j d m).2 ∧
      Extends e (e.handleReviewCompletion w j d m).2
    rcases review_cases w e j d m with heq | ⟨rev, coder, fb, hrev, _, _, _, heq⟩ <;> rw [heq]
    · exact ⟨h, .refl e⟩
    · have hn := created_revised hw rev coder m fb
      obtain ⟨run, hget⟩ := h.runOf j rev hrev
      exact ⟨h.created hn ⟨run, hget⟩ (fun _ _ => rfl) (Or.inl ⟨run, hget⟩)
        ((h.runIssued _ run hget).mono hn.le) (fun k ch hk => Or.inl hk),
        extends_created h hn ⟨run, hget⟩ (fun _ _ => rfl)⟩
  | activateReadyChannels => exact grounded_channelStep h channelStep_activate
  | routeChannelMessage ch j m => exact grounded_channelStep h (channelStep_route ch j m)
  | handleChannelDone ch j => exact grounded_channelStep h (channelStep_done ch j)
  | handleChannelPeerFailure ch j => exact grounded_channelStep h (channelStep_peerFailure ch j)
  | createArtifact a =>
    exact grounded_channelStep (S := fun _ => False) h
      ⟨⟨fun _ => rfl, fun _ => rfl, rfl, rfl, rfl, rfl⟩, rfl, fun _ => Or.inl rfl⟩
  | cancelRun r' => exact grounded_cancelRun h r'
  | nextJob => exact absurd hc id
  | markRunning j => exact absurd hc id
  | materializePlan r' p plan => exact absurd hc id
  | removeRun r' => exact absurd hc id

end

/-! ## Writes to the database, expiry and restart -/

section
variable {w : World} {e e' : OrchestratorEngine} {db : SqlitePersistence} {r : RunId}

theorem Image.extends (h : Image db e) (hx : Extends e e') : Image db e' := by
  refine ⟨?_, ?_, ?_⟩
  · intro r run hr
    obtain ⟨run', hrun'⟩ := h.run r run hr
    exact hx.run r run' hrun'
  · intro k job hk
    obtain ⟨⟨job', hjob', hr⟩, hrun⟩ := h.job k job hk
    obtain ⟨job'', hjob'', hr'⟩ := hx.job k job' hjob'
    exact ⟨⟨job'', hjob'', hr'.trans hr⟩, hrun⟩
  · exact h.channel

theorem image_persistRunState (hg : Grounded e) (h : Image db e) (r : RunId) :
    Image (db.persistRunState w e.store r) e := by
  -- a run known before, or written now, is known
  have hrun : ∀ k, (∃ run, db.getRun k = some run) ∨ (k = r ∧ ∃ run, e.store.getRun k = some run) →
      ∃ run, (db.persistRunState w e.store r).getRun k = some run := by
    intro k hk
    rw [SqlitePersistence.getRun_persistRunState]
    split
    · rename_i hs
      exact Option.isSome_iff_exists.mp hs.2
    · rename_i hs
      rcases hk with hk | ⟨hkr, run, hk⟩
      · exact hk
      · exact absurd ⟨hkr, by rw [hk]; rfl⟩ hs
  refine ⟨?_, ?_, ?_⟩
  · intro k run hk
    rw [SqlitePersistence.getRun_persistRunState] at hk
    split at hk
    · exact ⟨run, hk⟩
    · exact h.run k run hk
  · intro k job hk
    rw [SqlitePersistence.getJob_persistRunState] at hk
    split at hk
    · rename_i hr
      rw [hk] at hr
      have hr' : job.runId = r := by simpa using hr
      exact ⟨⟨job, hk, rfl⟩, hrun _ (Or.inr ⟨hr', hg.runOf k job hk⟩)⟩
    · obtain ⟨hjob, hdbrun⟩ := h.job k job hk
      exact ⟨hjob, hrun _ (Or.inl hdbrun)⟩
  · intro k ch hk
    rw [SqlitePersistence.getChannel_persistRunState] at hk
    -- the same for a job, whose run does not change when its row is written
    have hjob : ∀ p job, (db.getJob p = some job ∨ (e.store.getJob p = some job ∧ job.runId = r)) →
        ∃ job', (db.persistRunState w e.store r).getJob p = some job' ∧ job'.runId = job.runId := by
      intro p job hp
      rw [SqlitePersistence.getJob_persistRunState]
      split
      · rename_i hr
        obtain ⟨job', hjob', hr'⟩ := Option.map_eq_some_iff.mp hr
        refine ⟨job', hjob', ?_⟩
        rcases hp with hp | ⟨hp, hpr⟩
        · obtain ⟨job'', hjob'', hr''⟩ := (h.job p job hp).1
          rw [hjob'] at hjob''
          cases hjob''
          exact hr''
        · exact hr'.trans hpr.symm
      · rename_i hr
        rcases hp with hp | ⟨hp, hpr⟩
        · exact ⟨job, hp, rfl⟩
        · rw [hp] at hr
          exact absurd (by simp [hpr]) hr
    split at hk
    · rename_i hr
      rw [hk] at hr
      have hr' : ch.runId = r := by simpa using hr
      obtain ⟨hrun', hp⟩ := hg.channelHome k ch hk
      refine ⟨hrun _ (Or.inr ⟨hr', hrun'⟩), ?_⟩
      intro p hmem
      obtain ⟨job, hjob', hjr⟩ := hp p hmem
      obtain ⟨job', hget, hr''⟩ := hjob p job (Or.inr ⟨hjob', hjr.trans hr'⟩)
      exact ⟨job', hget, hr''.trans hjr⟩
    · obtain ⟨hdbrun, hp⟩ := h.channel k ch hk
      refine ⟨hrun _ (Or.inl hdbrun), ?_⟩
      intro p hmem
      obtain ⟨job, hjob', hjr⟩ := hp p hmem
      obtain ⟨job', hget, hr''⟩ := hjob p job (Or.inl hjob')
      exact ⟨job', hget, hr''.trans hjr⟩

/-- A job row after a run has been persisted: the job of the run as it is in the
store, or the row of a job of another run. -/
theorem persisted_job (h : Image db e) {k : JobId} {job : Job}
    (hk : (db.persistRunState w e.store r).getJob k = some job) :
    (job.runId = r ∧ e.store.getJob k = some job) ∨
      (job.runId ≠ r ∧ db.getJob k = some job) := by
  rw [SqlitePersistence.getJob_persistRunState] at hk
  split at hk
  · rename_i hr
    rw [hk] at hr
    exact Or.inl ⟨by simpa using hr, hk⟩
  · rename_i hr
    refine Or.inr ⟨?_, hk⟩
    intro heq
    subst heq
    obtain ⟨job', hjob', hr'⟩ := (h.job k job hk).1
    rw [hjob'] at hr
    exact hr (congrArg some hr')

theorem persisted_run (h : Image db e) {k : RunId} {run : Run}
    (hk : (db.persistRunState w e.store r).getRun k = some run) :
    (k = r ∧ e.store.getRun k = some run) ∨ (k ≠ r ∧ db.getRun k = some run) := by
  rw [SqlitePersistence.getRun_persistRunState] at hk
  split at hk
  · rename_i hr
    exact Or.inl ⟨hr.1, hk⟩
  · rename_i hr
    refine Or.inr ⟨?_, hk⟩
    intro heq
    subst heq
    obtain ⟨run', hrun'⟩ := h.run k run hk
    exact hr ⟨rfl, by rw [hrun']; rfl⟩

theorem getRun_expire (k : RunId) : (e.removeRun w r).store.getRun k =
    if k = r then none else e.store.getRun k := RunStore.getRun_removeRun ..

theorem getJob_expire {k : JobId} {job : Job} : (e.removeRun w r).store.getJob k = some job ↔
    e.store.getJob k = some job ∧ job.runId ≠ r := by
  have hget : (e.removeRun w r).store.getJob k =
      (e.store.getJob k).filter (fun job => !(job.runId == r)) := RunStore.getJob_removeRun ..
  rw [hget, Option.filter_eq_some_iff]
  simp

theorem getChannel_expire {k : ChannelId} {ch : Channel} :
    (e.removeRun w r).store.getChannel k = some ch ↔
      e.store.getChannel k = some ch ∧ ch.runId ≠ r := by
  have hget : (e.removeRun w r).store.getChannel k =
      (e.store.getChannel k).filter (fun ch => !(ch.runId == r)) := RunStore.getChannel_removeRun ..
  rw [hget, Option.filter_eq_some_iff]
  simp

theorem grounded_expire (h : Grounded e) (r : RunId) : Grounded (e.removeRun w r) := by
  have hrun : ∀ k, k ≠ r → (∃ run, e.store.getRun k = some run) →
      ∃ run, (e.removeRun w r).store.getRun k = some run := by
    intro k hk hsome
    rw [getRun_expire, if_neg hk]
    exact hsome
  refine ⟨?_, ?_, ?_, ?_, ?_, ?_, ?_⟩
  · exact supervised_removeRun h.supervised r
  · intro k r' job hk hjob
    exact h.activeRunning k r' job hk (getJob_expire.mp hjob).1
  · intro k r' hk hnone
    cases hjob : e.store.getJob k with
    | none =>
      rw [getRun_expire]
      split
      · rfl
      · exact h.activeGone k r' hk hjob
    | some job =>
      -- the job went with its run
      have hr : job.runId = r := by
        by_contra hr
        rw [getJob_expire.mpr ⟨hjob, hr⟩] at hnone
        cases hnone
      rw [getRun_expire, if_pos ((h.supervised.home k r' job hk hjob).symm.trans hr)]
  · exact h.activeRun
  · intro k job hk
    obtain ⟨hjob, hr⟩ := getJob_expire.mp hk
    exact hrun _ hr (h.runOf k job hjob)
  · intro k run hk
    rw [getRun_expire] at hk
    split at hk
    · cases hk
    · exact h.runIssued k run hk
  · intro k ch hk
    obtain ⟨hch, hr⟩ := getChannel_expire.mp hk
    obtain ⟨hsome, hp⟩ := h.channelHome k ch hch
    refine ⟨hrun _ hr hsome, ?_⟩
    intro q hq
    obtain ⟨job, hjob, hjr⟩ := hp q hq
    exact ⟨job, getJob_expire.mpr ⟨hjob, by rwa [hjr]⟩, hjr⟩

theorem image_expire (h : Image db e) (r : RunId) : Image (db.deleteRun w r) (e.removeRun w r) := by
  have hrun : ∀ k, k ≠ r → (∃ run, db.getRun k = some run) →
      ∃ run, (db.deleteRun w r).getRun k = some run := by
    intro k hk hsome
    rw [SqlitePersistence.getRun_deleteRun, if_neg hk]
    exact hsome
  refine ⟨?_, ?_, ?_⟩
  · intro k run hk
    rw [SqlitePersistence.getRun_deleteRun] at hk
    rw [getRun_expire]
    split at hk
    · cases hk
    · rename_i hne
      rw [if_neg hne]
      exact h.run k run hk
  · intro k job hk
    obtain ⟨hjob, hr⟩ := SqlitePersistence.getJob_deleteRun.mp hk
    obtain ⟨⟨job', hjob', hr'⟩, hsome⟩ := h.job k job hjob
    exact ⟨⟨job', getJob_expire.mpr ⟨hjob', by rwa [hr']⟩, hr'⟩, hrun _ hr hsome⟩
  · intro k ch hk
    obtain ⟨hch, hr⟩ := SqlitePersistence.getChannel_deleteRun.mp hk
    obtain ⟨hsome, hp⟩ := h.channel k ch hch
    refine ⟨hrun _ hr hsome, ?_⟩
    intro q hq
    obtain ⟨job, hjob, hjr⟩ := hp q hq
    exact ⟨job, SqlitePersistence.getJob_deleteRun.mpr ⟨hjob, by rwa [hjr]⟩, hjr⟩

theorem Issued.restart {ids : IdSupply} {id : String} (h : Issued ids id) :
    Issued ids.restart id := by
  obtain ⟨p, ts, n, rfl, hts, _⟩ := h
  exact ⟨p, ts, n, rfl, hts, Or.inl (Nat.lt_succ_of_le hts)⟩

/-- A new process starts grounded, on an image of what was there before. -/
theorem grounded_hydrate (h : Grounded e) (hi : Image db e) :
    Grounded (hydrate w (some db) e.ids) := by
  have hjobBefore : ∀ k job', (hydrate w (some db) e.ids).store.getJob k = some job' →
      ∃ job, db.getJob k = some job ∧ job' = job.recover w := by
    intro k job' hk
    rw [getJob_hydrate] at hk
    obtain ⟨job, hjob, rfl⟩ := Option.map_eq_some_iff.mp hk
    exact ⟨job, hjob, rfl⟩
  have hnone : ∀ k r, (hydrate w (some db) e.ids).activeJobs.get k = some r → False := by
    intro k r hk
    cases hk
  refine ⟨?_, ?_, ?_, ?_, ?_, ?_, ?_⟩
  · refine ⟨?_, ?_, ?_, ?_, ?_, ?_⟩
    · exact Nat.zero_le _
    · intro k job' hk hst
      obtain ⟨job, _, rfl⟩ := hjobBefore k job' hk
      exact absurd hst (Job.recover_ne_running w job)
    · intro k t hk
      cases hk
    · intro k r job hk _
      exact absurd hk (hnone k r)
    · intro k job' hk
      obtain ⟨job, hjob, _⟩ := hjobBefore k job' hk
      obtain ⟨⟨job'', hjob'', _⟩, _⟩ := hi.job k job hjob
      exact (h.supervised.jobIssued k job'' hjob'').restart
    · intro k r hk
      exact absurd hk (hnone k r)
  · intro k r job hk _
    exact absurd hk (hnone k r)
  · intro k r hk _
    exact absurd hk (hnone k r)
  · intro k r hk
    exact absurd hk (hnone k r)
  · intro k job' hk
    obtain ⟨job, hjob, rfl⟩ := hjobBefore k job' hk
    rw [getRun_hydrate, Job.recover_runId]
    exact (hi.job k job hjob).2
  · intro r run hk
    rw [getRun_hydrate] at hk
    obtain ⟨run', hrun'⟩ := hi.run r run hk
    exact (h.runIssued r run' hrun').restart
  · intro k ch' hk
    rw [getChannel_hydrate] at hk
    obtain ⟨ch, hch, rfl⟩ := Option.map_eq_some_iff.mp hk
    obtain ⟨hsome, hp⟩ := hi.channel k ch hch
    rw [(Channel.recover_same ch).1, (Channel.recover_same ch).2, getRun_hydrate]
    refine ⟨hsome, ?_⟩
    intro q hq
    obtain ⟨job, hjob, hjr⟩ := hp q hq
    exact ⟨job.recover w, by rw [getJob_hydrate, hjob]; rfl, (Job.recover_runId w job).trans hjr⟩

theorem image_hydrate (hi : Image db e) : Image db (hydrate w (some db) e.ids) := by
  refine ⟨?_, ?_, ?_⟩
  · intro r run hr
    exact ⟨run, (getRun_hydrate r).trans hr⟩
  · intro k job hk
    refine ⟨⟨job.recover w, ?_, Job.recover_runId w job⟩, (hi.job k job hk).2⟩
    rw [getJob_hydrate, hk]
    rfl
  · exact hi.channel

theorem grounded_empty (n : Nat) (ids : IdSupply) : Grounded { new n with ids := ids } where
  supervised :=
    { bound := Nat.zero_le _
      running := fun _ _ h _ => by cases h
      heartbeat := fun _ _ h => by cases h
      home := fun _ _ _ h _ => by cases h
      jobIssued := fun _ _ h => by cases h
      activeIssued := fun _ _ h => by cases h }
  activeRunning := fun _ _ _ h _ => by cases h
  activeGone := fun _ _ h _ => by cases h
  activeRun := fun _ _ h => by cases h
  runOf := fun _ _ h => by cases h
  runIssued := fun _ _ h => by cases h
  channelHome := fun _ _ h => by cases h

theorem grounded_genId (h : Grounded e) (w : World) (pre : String) :
    Grounded { e with ids := (genId w e.ids pre).2 } := by
  have hle := IdSupply.le_genId w e.ids pre
  exact
    { supervised :=
        { bound := h.supervised.bound
          running := h.supervised.running
          heartbeat := h.supervised.heartbeat
          home := h.supervised.home
          jobIssued := fun k job hk => (h.supervised.jobIssued k job hk).mono hle
          activeIssued := fun k r hk => (h.supervised.activeIssued k r hk).mono hle }
      activeRunning := h.activeRunning
      activeGone := h.activeGone
      activeRun := fun k r hk => (h.activeRun k r hk).mono hle
      runOf := h.runOf
      runIssued := fun r run hr => (h.runIssued r run hr).mono hle
      channelHome := h.channelHome }

/-- Every legal action keeps engine and database sound. -/
theorem sound_act {c : Core} (h : Sound c) {a : Action} (hl : Legal c (w, a)) :
    Sound (c.act w a) := by
  obtain ⟨e, db⟩ := c
  cases a with
  | call r f =>
    obtain ⟨hg, hx⟩ := grounded_call h.grounded hl
    exact ⟨hg, fun db' hdb => (h.image db' hdb).extends hx⟩
  | persistRunState r =>
    refine ⟨h.grounded, ?_⟩
    intro db' hdb
    obtain ⟨db₀, hdb₀, rfl⟩ := Option.map_eq_some_iff.mp hdb
    exact image_persistRunState h.grounded (h.image db₀ hdb₀) r
  | persistArtifact a =>
    refine ⟨h.grounded, ?_⟩
    intro db' hdb
    obtain ⟨db₀, hdb₀, rfl⟩ := Option.map_eq_some_iff.mp hdb
    exact ⟨(h.image db₀ hdb₀).run, (h.image db₀ hdb₀).job, (h.image db₀ hdb₀).channel⟩
  | genId pre =>
    refine ⟨grounded_genId h.grounded w pre, ?_⟩
    intro db' hdb
    exact ⟨(h.image db' hdb).run, (h.image db' hdb).job, (h.image db' hdb).channel⟩
  | expire r =>
    refine ⟨grounded_expire h.grounded r, ?_⟩
    intro db' hdb
    obtain ⟨db₀, hdb₀, rfl⟩ := Option.map_eq_some_iff.mp hdb
    exact image_expire (h.image db₀ hdb₀) r
  | hydrate =>
    cases db with
    | none =>
      refine ⟨grounded_empty 4 _, ?_⟩
      intro db' hdb
      cases hdb
    | some db₀ =>
      have hi : Image db₀ e := h.image db₀ rfl
      refine ⟨grounded_hydrate h.grounded hi, ?_⟩
      intro db' hdb
      cases hdb
      exact image_hydrate hi

end

end ZeptoPM
