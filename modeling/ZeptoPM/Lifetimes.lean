import ZeptoPM.Outcomes
import ZeptoPM.JobMoves

/- The lives of runs and jobs across restarts. What a record is made with it keeps, in the
   engine and in the database, whatever process reads it (`records_keep`), and a record
   that both have lost comes back in none (`records_gone`): a new record is made under an
   id that was never drawn before, and any other is one that was known. -/
namespace ZeptoPM
open OrchestratorEngine

/-! ## What a record keeps -/

/-- The job as it was made, without what is written to it later and without its time of
creation, which the database rounds. -/
def Job.identity (job : Job) : Job :=
  { job with
    status := .pending
    attempt := 0
    createdAt := 0
    startedAt := none
    finishedAt := none
    outputArtifactIds := []
    error := none }

/-- The run as it was submitted, without the time. -/
def Run.identity (run : Run) : Run :=
  { run with
    status := .pending
    createdAt := 0
    updatedAt := 0
    finalArtifactIds := [] }

theorem Job.Moved.identity {job job' : Job} (h : job.Moved job') :
    job'.identity = job.identity := by
  induction h with
  | same => rfl
  | started w _ ih => exact ih
  | completed w o _ ih => exact ih
  | failed w err _ ih =>
    refine Eq.trans ?_ ih
    unfold Job.fail
    split <;> rfl
  | released _ ih => exact ih

theorem Job.recover_identity (w : World) (job : Job) :
    (job.recover w).identity = job.identity := (job.moved_recover w).identity

theorem Run.start_identity (w : World) (run : Run) : (run.start w).identity = run.identity := by
  unfold Run.start
  split <;> rfl

namespace Core

/-- The engine or the database has this record of the job. -/
def KnowsJob (c : Core) (k : JobId) (job : Job) : Prop :=
  c.engine.store.getJob k = some job ∨ ∃ db, c.db = some db ∧ db.getJob k = some job

def KnowsRun (c : Core) (k : RunId) (run : Run) : Prop :=
  c.engine.store.getRun k = some run ∨ ∃ db, c.db = some db ∧ db.getRun k = some run

end Core

/-! ## Calls -/

section
variable {w : World} {e : OrchestratorEngine} {k : String}

/-- A job that is there after a call was there before, or its id is new and its run is one
the handler persists. -/
theorem job_before {db : Option SqlitePersistence} {r : RunId} {f : Call} (hg : Grounded e)
    (hl : Legal ⟨e, db⟩ (w, .call r f)) {job' : Job}
    (hk : (f.apply w e).store.getJob k = some job') :
    (∃ job, e.store.getJob k = some job ∧ job'.identity = job.identity) ∨
      ¬ Issued e.ids k ∧ (Action.call r f).owes = some job'.runId := by
  have hsame : e.store.getJob k = some job' →
      (∃ job, e.store.getJob k = some job ∧ job'.identity = job.identity) ∨
        ¬ Issued e.ids k ∧ (Action.call r f).owes = some job'.runId :=
    fun h => Or.inl ⟨job', h, rfl⟩
  have hmoved : (∃ job, e.store.getJob k = some job ∧ job.Moved job') →
      (∃ job, e.store.getJob k = some job ∧ job'.identity = job.identity) ∨
        ¬ Issued e.ids k ∧ (Action.call r f).owes = some job'.runId :=
    fun ⟨job, hjob, h⟩ => Or.inl ⟨job, hjob, h.identity⟩
  have hcreated : ∀ {e' : OrchestratorEngine} {r' : RunId} {new : List Job}, Created e e' r' new →
      (Action.call r f).owes = some r' → e'.store.getJob k = some job' →
      (∃ job, e.store.getJob k = some job ∧ job'.identity = job.identity) ∨
        ¬ Issued e.ids k ∧ (Action.call r f).owes = some job'.runId := by
    intro e' r' new hn howes hk
    rcases hn.cases hk with ⟨hmem, rfl⟩ | ⟨_, hold⟩
    · exact Or.inr ⟨hn.fresh job' hmem, by rw [howes, hn.runId job' hmem]⟩
    · exact hsame hold
  cases outcome_call hg hl with
  | frame hf => exact hsame ((hf.getJob k).symm.trans hk)
  | submitted task hn _ =>
    have hr : r = (e.submitIds w).1 := hl.2
    exact hcreated hn (by rw [← hr]; rfl) hk
  | dropped q heq hq => exact hmoved (moved_startNext hk)
  | started job₀ q hq hjob₀ heq => exact hmoved (moved_startNext hk)
  | completed j o => exact hmoved (moved_markCompleted hk)
  | failed j err => exact hmoved (moved_markFailed hk)
  | planned r' p plan hn =>
    have hr : r' = r := hl.2.1
    exact hcreated hn.created (by rw [hr]; rfl) hk
  | revised j d m rev new hrev hn =>
    have hr : rev.runId = r := hl.2 rev hrev.1
    exact hcreated hn.created (by rw [hr]; rfl) hk
  | cancelled r' hc => exact hmoved (moved_cancelRun hk)

theorem run_checked {s s' : RunStore} {r : RunId} (h : Checked w s s' r) {run' : Run}
    (hk : s'.getRun k = some run') :
    ∃ run, s.getRun k = some run ∧ run'.identity = run.identity := by
  cases h with
  | unchanged hget => exact ⟨run', (hget k).symm.trans hk, rfl⟩
  | finished _ _ _ _ _ _ hget =>
    rw [hget] at hk
    split at hk
    · rename_i hkr
      obtain ⟨run, hrun, rfl⟩ := Option.map_eq_some_iff.mp hk
      exact ⟨run, hkr ▸ hrun, rfl⟩
    · exact ⟨run', hk, rfl⟩

theorem run_markCompleted {j : JobId} {o : List ArtifactId} {run' : Run}
    (hk : (e.markCompleted w j o).store.getRun k = some run') :
    ∃ run, e.store.getRun k = some run ∧ run'.identity = run.identity := by
  cases hact : e.activeJobs.get j with
  | none => exact ⟨run', (getRun_markCompleted_of_notActive w e j o hact k).symm.trans hk, rfl⟩
  | some r => exact run_checked (checked_markCompleted w e j o hact) hk

theorem run_markFailed {j : JobId} {err : String} {run' : Run}
    (hk : (e.markFailed w j err).store.getRun k = some run') :
    ∃ run, e.store.getRun k = some run ∧ run'.identity = run.identity := by
  cases hact : e.activeJobs.get j with
  | none => exact ⟨run', (getRun_markFailed_of_notActive w e j err hact k).symm.trans hk, rfl⟩
  | some r => exact run_checked (checked_markFailed w e j err hact) hk

theorem run_cancelLoop (l : List (JobId × JobStatus)) : ∀ {acc : OrchestratorEngine × Nat}
    {run' : Run}, (l.foldl (cancelJob w) acc).1.store.getRun k = some run' →
      ∃ run, acc.1.store.getRun k = some run ∧ run'.identity = run.identity := by
  induction l with
  | nil => exact fun {_ run'} hk => ⟨run', hk, rfl⟩
  | cons x l ih =>
    intro acc run' hk
    obtain ⟨run₁, hrun₁, h₁⟩ := ih hk
    unfold cancelJob at hrun₁
    split at hrun₁
    · obtain ⟨run, hrun, h⟩ := run_markFailed hrun₁
      exact ⟨run, hrun, h₁.trans h⟩
    · exact ⟨run₁, hrun₁, h₁⟩

theorem run_cancelRun {r : RunId} {run' : Run}
    (hk : (e.cancelRun w r).2.store.getRun k = some run') :
    ∃ run, e.store.getRun k = some run ∧ run'.identity = run.identity := by
  unfold cancelRun at hk
  split at hk
  · exact ⟨run', hk, rfl⟩
  · split at hk
    · exact ⟨run', hk, rfl⟩
    · have hget : (((e.jobsToCancel w r).foldl (cancelJob w) (e, 0)).1.store.alterRun r
          (Run.cancel w) (Run.cancel_runId w)).getRun k = some run' := hk
      rw [RunStore.getRun_alterRun] at hget
      split at hget
      · rename_i hkr
        obtain ⟨run₁, hrun₁, rfl⟩ := Option.map_eq_some_iff.mp hget
        rw [← hkr] at hrun₁
        exact run_cancelLoop _ hrun₁
      · exact run_cancelLoop _ hget

/-- So it is with runs. -/
theorem run_before {db : Option SqlitePersistence} {r : RunId} {f : Call} (hg : Grounded e)
    (hl : Legal ⟨e, db⟩ (w, .call r f)) {run' : Run}
    (hk : (f.apply w e).store.getRun k = some run') :
    (∃ run, e.store.getRun k = some run ∧ run'.identity = run.identity) ∨
      ¬ Issued e.ids k ∧ (Action.call r f).owes = some k := by
  have hsame : ∀ {run' : Run}, e.store.getRun k = some run' →
      (∃ run, e.store.getRun k = some run ∧ run'.identity = run.identity) ∨
        ¬ Issued e.ids k ∧ (Action.call r f).owes = some k :=
    fun h => Or.inl ⟨_, h, rfl⟩
  cases outcome_call hg hl with
  | frame hf => exact hsame ((hf.getRun k).symm.trans hk)
  | submitted task hn hfresh =>
    have hget := (getRun_submitRun w e task k).symm.trans hk
    split at hget
    · rename_i hkr
      have hr : r = (e.submitIds w).1 := hl.2
      exact Or.inr ⟨hkr ▸ hfresh, by rw [hkr, ← hr]; rfl⟩
    · exact hsame hget
  | dropped q heq hq =>
    change (e.startNext w).2.store.getRun k = some run' at hk
    rw [heq] at hk
    exact hsame hk
  | started job₀ q hq hjob₀ heq =>
    change (e.startNext w).2.store.getRun k = some run' at hk
    rw [heq, getRun_started] at hk
    split at hk
    · rename_i hkr
      obtain ⟨run, hrun, rfl⟩ := Option.map_eq_some_iff.mp hk
      exact Or.inl ⟨run, hkr ▸ hrun, run.start_identity w⟩
    · exact hsame hk
  | completed j o => exact Or.inl (run_markCompleted hk)
  | failed j err => exact Or.inl (run_markFailed hk)
  | planned r' p plan hn => exact hsame ((hn.getRun k).symm.trans hk)
  | revised j d m rev new _ hn => exact hsame ((hn.getRun k).symm.trans hk)
  | cancelled r' hc => exact Or.inl (run_cancelRun hk)

end

/-! ## Actions -/

section
variable {w : World} {c : Core} {x : World × Action} {k : String}

/-- A record known after an action was known before, or the engine has just made it under
a new id. -/
theorem knownJob_act (hs : Sound c) (hl : Legal c x) {job' : Job}
    (hk : (coreStep c x).KnowsJob k job') :
    (∃ job, c.KnowsJob k job ∧ job'.identity = job.identity) ∨
      ¬ Issued c.engine.ids k ∧ (coreStep c x).engine.store.getJob k = some job' := by
  obtain ⟨e, db⟩ := c
  obtain ⟨w, a⟩ := x
  rcases hk with hk | ⟨db', hdb', hk⟩
  · cases a with
    | call r f =>
      rcases job_before hs.grounded hl hk with ⟨job, hjob, hid⟩ | ⟨hnew, _⟩
      · exact Or.inl ⟨job, Or.inl hjob, hid⟩
      · exact Or.inr ⟨hnew, hk⟩
    | persistRunState r => exact Or.inl ⟨job', Or.inl hk, rfl⟩
    | persistArtifact a => exact Or.inl ⟨job', Or.inl hk, rfl⟩
    | genId pre => exact Or.inl ⟨job', Or.inl hk, rfl⟩
    | expire r => exact Or.inl ⟨job', Or.inl (getJob_expire.mp hk).1, rfl⟩
    | hydrate =>
      cases db with
      | none => cases hk
      | some db =>
        obtain ⟨job, hjob, rfl⟩ := Option.map_eq_some_iff.mp ((getJob_hydrate k).symm.trans hk)
        exact Or.inl ⟨job, Or.inr ⟨db, rfl, hjob⟩, job.recover_identity w⟩
  · refine Or.inl ?_
    cases a with
    | call r f => exact ⟨job', Or.inr ⟨db', hdb', hk⟩, rfl⟩
    | persistRunState r =>
      obtain ⟨db, rfl, rfl⟩ := Option.map_eq_some_iff.mp hdb'
      rw [SqlitePersistence.getJob_persistRunState] at hk
      split at hk
      · exact ⟨job', Or.inl hk, rfl⟩
      · exact ⟨job', Or.inr ⟨db, rfl, hk⟩, rfl⟩
    | persistArtifact a =>
      obtain ⟨db, rfl, rfl⟩ := Option.map_eq_some_iff.mp hdb'
      exact ⟨job', Or.inr ⟨db, rfl, hk⟩, rfl⟩
    | genId pre => exact ⟨job', Or.inr ⟨db', hdb', hk⟩, rfl⟩
    | expire r =>
      obtain ⟨db, rfl, rfl⟩ := Option.map_eq_some_iff.mp hdb'
      exact ⟨job', Or.inr ⟨db, rfl, (SqlitePersistence.getJob_deleteRun.mp hk).1⟩, rfl⟩
    | hydrate => exact ⟨job', Or.inr ⟨db', hdb', hk⟩, rfl⟩

theorem knownRun_act (hs : Sound c) (hl : Legal c x) {run' : Run}
    (hk : (coreStep c x).KnowsRun k run') :
    (∃ run, c.KnowsRun k run ∧ run'.identity = run.identity) ∨
      ¬ Issued c.engine.ids k ∧ (coreStep c x).engine.store.getRun k = some run' := by
  obtain ⟨e, db⟩ := c
  obtain ⟨w, a⟩ := x
  rcases hk with hk | ⟨db', hdb', hk⟩
  · cases a with
    | call r f =>
      rcases run_before hs.grounded hl hk with ⟨run, hrun, hid⟩ | ⟨hnew, _⟩
      · exact Or.inl ⟨run, Or.inl hrun, hid⟩
      · exact Or.inr ⟨hnew, hk⟩
    | persistRunState r => exact Or.inl ⟨run', Or.inl hk, rfl⟩
    | persistArtifact a => exact Or.inl ⟨run', Or.inl hk, rfl⟩
    | genId pre => exact Or.inl ⟨run', Or.inl hk, rfl⟩
    | expire r =>
      have hget := (getRun_expire k).symm.trans hk
      split at hget
      · cases hget
      · exact Or.inl ⟨run', Or.inl hget, rfl⟩
    | hydrate =>
      cases db with
      | none => cases hk
      | some db => exact Or.inl ⟨run', Or.inr ⟨db, rfl, (getRun_hydrate k).symm.trans hk⟩, rfl⟩
  · refine Or.inl ?_
    cases a with
    | call r f => exact ⟨run', Or.inr ⟨db', hdb', hk⟩, rfl⟩
    | persistRunState r =>
      obtain ⟨db, rfl, rfl⟩ := Option.map_eq_some_iff.mp hdb'
      rw [SqlitePersistence.getRun_persistRunState] at hk
      split at hk
      · exact ⟨run', Or.inl hk, rfl⟩
      · exact ⟨run', Or.inr ⟨db, rfl, hk⟩, rfl⟩
    | persistArtifact a =>
      obtain ⟨db, rfl, rfl⟩ := Option.map_eq_some_iff.mp hdb'
      exact ⟨run', Or.inr ⟨db, rfl, hk⟩, rfl⟩
    | genId pre => exact ⟨run', Or.inr ⟨db', hdb', hk⟩, rfl⟩
    | expire r =>
      obtain ⟨db, rfl, rfl⟩ := Option.map_eq_some_iff.mp hdb'
      rw [SqlitePersistence.getRun_deleteRun] at hk
      split at hk
      · cases hk
      · exact ⟨run', Or.inr ⟨db, rfl, hk⟩, rfl⟩
    | hydrate => exact ⟨run', Or.inr ⟨db', hdb', hk⟩, rfl⟩

/-- What is known has an id that was drawn. -/
theorem issued_of_knownJob (hs : Sound c) {job : Job} (hk : c.KnowsJob k job) :
    Issued c.engine.ids k := by
  rcases hk with hk | ⟨db, hdb, hk⟩
  · exact hs.grounded.supervised.jobIssued k job hk
  · obtain ⟨⟨job', hjob', _⟩, _⟩ := (hs.image db hdb).job k job hk
    exact hs.grounded.supervised.jobIssued k job' hjob'

theorem issued_of_knownRun (hs : Sound c) {run : Run} (hk : c.KnowsRun k run) :
    Issued c.engine.ids k := by
  rcases hk with hk | ⟨db, hdb, hk⟩
  · exact hs.grounded.runIssued k run hk
  · obtain ⟨run', hrun'⟩ := (hs.image db hdb).run k run hk
    exact hs.grounded.runIssued k run' hrun'

/-- An id that was drawn stays drawn, whatever process draws the next. -/
theorem issued_act (hs : Sound c) (h : Issued c.engine.ids k) (x : World × Action) :
    Issued (coreStep c x).engine.ids k := by
  obtain ⟨w, a⟩ := x
  cases a with
  | call r f => exact h.mono (ids_apply w c.engine hs.grounded.supervised.home f).1
  | persistRunState r => exact h
  | persistArtifact a => exact h
  | genId pre => exact h.mono (IdSupply.le_genId w c.engine.ids pre)
  | expire r => exact h
  | hydrate =>
    obtain ⟨e, db⟩ := c
    cases db <;> exact h.restart

/-! ## Runs of the daemon -/

/-- The records of one core have the same origin as those of another. -/
structure Remembers (c c' : Core) : Prop where
  job : ∀ k job job', c.KnowsJob k job → c'.KnowsJob k job' → job'.identity = job.identity
  run : ∀ k run run', c.KnowsRun k run → c'.KnowsRun k run' → run'.identity = run.identity

/-- The engine and the database agree on where a record comes from. -/
theorem remembers_act (hs : Sound c) (hl : Legal c x) (h : Remembers c c) :
    Remembers (coreStep c x) (coreStep c x) := by
  refine ⟨?_, ?_⟩
  · intro k job job' hjob hjob'
    rcases knownJob_act hs hl hjob with ⟨old, hold, hid⟩ | ⟨hnew, hget⟩
    · rcases knownJob_act hs hl hjob' with ⟨old', hold', hid'⟩ | ⟨hnew, _⟩
      · rw [hid, hid', h.job k old old' hold hold']
      · exact absurd (issued_of_knownJob hs hold) hnew
    · rcases knownJob_act hs hl hjob' with ⟨old', hold', _⟩ | ⟨_, hget'⟩
      · exact absurd (issued_of_knownJob hs hold') hnew
      · cases hget.symm.trans hget'
        rfl
  · intro k run run' hrun hrun'
    rcases knownRun_act hs hl hrun with ⟨old, hold, hid⟩ | ⟨hnew, hget⟩
    · rcases knownRun_act hs hl hrun' with ⟨old', hold', hid'⟩ | ⟨hnew, _⟩
      · rw [hid, hid', h.run k old old' hold hold']
      · exact absurd (issued_of_knownRun hs hold) hnew
    · rcases knownRun_act hs hl hrun' with ⟨old', hold', _⟩ | ⟨_, hget'⟩
      · exact absurd (issued_of_knownRun hs hold') hnew
      · cases hget.symm.trans hget'
        rfl

/-- All that will be known under an id that was drawn has the property. -/
structure Bound (k : String) (J : Job → Prop) (R : Run → Prop) (c : Core) : Prop where
  issued : Issued c.engine.ids k
  job : ∀ job, c.KnowsJob k job → J job
  run : ∀ run, c.KnowsRun k run → R run

theorem bound_act {J : Job → Prop} {R : Run → Prop}
    (hJ : ∀ job job' : Job, job'.identity = job.identity → J job → J job')
    (hR : ∀ run run' : Run, run'.identity = run.identity → R run → R run')
    (hs : Sound c) (hl : Legal c x) (h : Bound k J R c) : Bound k J R (coreStep c x) := by
  refine ⟨issued_act hs h.issued x, ?_, ?_⟩
  · intro job' hjob'
    rcases knownJob_act hs hl hjob' with ⟨job, hjob, hid⟩ | ⟨hnew, _⟩
    · exact hJ job job' hid (h.job job hjob)
    · exact absurd h.issued hnew
  · intro run' hrun'
    rcases knownRun_act hs hl hrun' with ⟨run, hrun, hid⟩ | ⟨hnew, _⟩
    · exact hR run run' hid (h.run run hrun)
    · exact absurd h.issued hnew

theorem bound_run {J : Job → Prop} {R : Run → Prop}
    (hJ : ∀ job job' : Job, job'.identity = job.identity → J job → J job')
    (hR : ∀ run run' : Run, run'.identity = run.identity → R run → R run')
    {d : Daemon} {is : List (World × Input)} (hs : Sound d.core)
    (h : Meets Daemon.step Clocked d is) (hd : Bound k J R d.core) :
    Bound k J R (run Daemon.step d is).core :=
  (core_clocked (P := Bound k J R) (fun _ _ hs hl => bound_act hJ hR hs hl) hs hd h).2

/-- The ids of jobs and those of runs that are drawn are bound to what is known of them. -/
theorem remembers_later {d : Daemon} {is : List (World × Input)} (hs : Sound d.core)
    (hagree : Remembers d.core d.core) (h : Meets Daemon.step Clocked d is) :
    Remembers d.core (run Daemon.step d is).core := by
  refine ⟨?_, ?_⟩
  · intro k job job' hjob hjob'
    have hb : Bound k (fun job' => job'.identity = job.identity) (fun _ => True) d.core :=
      ⟨issued_of_knownJob hs hjob, fun job' => hagree.job k job job' hjob, fun _ _ => True.intro⟩
    exact (bound_run (fun _ _ hid hold => hid.trans hold) (fun _ _ _ _ => True.intro) hs h hb).job
      job' hjob'
  · intro k r r' hr hr'
    have hb : Bound k (fun _ => True) (fun r' => r'.identity = r.identity) d.core :=
      ⟨issued_of_knownRun hs hr, fun _ _ => True.intro, fun r' => hagree.run k r r' hr⟩
    exact (bound_run (fun _ _ _ _ => True.intro) (fun _ _ hid hold => hid.trans hold) hs h hb).run
      r' hr'

end

theorem remembers_off (persistent : Bool) (sandboxOverride : Option Bool) (capsule : Bool) :
    Remembers (Daemon.off persistent sandboxOverride capsule).core
      (Daemon.off persistent sandboxOverride capsule).core := by
  have hdb : ∀ db, (Daemon.off persistent sandboxOverride capsule).core.db = some db →
      db = .new := by
    intro db hdb
    cases persistent <;> cases hdb
    rfl
  refine ⟨?_, ?_⟩
  · rintro k job job' (hjob | ⟨db, hsome, hjob⟩) -
    · cases hjob
    · rw [hdb db hsome] at hjob
      cases hjob
  · rintro k r r' (hr | ⟨db, hsome, hr⟩) -
    · cases hr
    · rw [hdb db hsome] at hr
      cases hr

/-- Whatever the daemon does, crashes and restarts included: a job and a run keep what they
were made with, but for the time, in every later state and in the engine as in the database. -/
theorem records_keep (persistent : Bool) (sandboxOverride : Option Bool) (capsule : Bool)
    (is js : List (World × Input))
    (h : Meets Daemon.step Clocked (Daemon.off persistent sandboxOverride capsule) (is ++ js)) :
    Remembers (run Daemon.step (Daemon.off persistent sandboxOverride capsule) is).core
      (run Daemon.step (Daemon.off persistent sandboxOverride capsule) (is ++ js)).core := by
  obtain ⟨his, hjs⟩ := Meets.append.mp h
  have hstart := remembers_off persistent sandboxOverride capsule
  obtain ⟨hs, hagree⟩ := core_clocked (P := fun c => Remembers c c)
    (fun _ _ hs hl => remembers_act hs hl) (sound_off persistent sandboxOverride capsule) hstart his
  rw [run_append]
  exact remembers_later hs hagree hjs

/-- A run is submitted, and the process starts again. -/
theorem records_keep_restarted : Remembers
    (run Daemon.step (Daemon.off true none false)
      [(plannerWorld soloPlan, .start), (plannerWorld soloPlan, .command (.submitRun "task"))]).core
    (run Daemon.step (Daemon.off true none false)
      ([(plannerWorld soloPlan, .start), (plannerWorld soloPlan, .command (.submitRun "task"))] ++
        [({ plannerWorld soloPlan with now := 5 }, .start)])).core :=
  records_keep true none false _ _ (by decide +kernel)

/-- A job or a run that neither the engine nor the database knows any more is never known
again, to no later process either. -/
theorem records_gone (persistent : Bool) (sandboxOverride : Option Bool) (capsule : Bool)
    (is js ks : List (World × Input))
    (h : Meets Daemon.step Clocked (Daemon.off persistent sandboxOverride capsule)
      (is ++ js ++ ks)) :
    let c := (run Daemon.step (Daemon.off persistent sandboxOverride capsule) is).core
    let c₁ := (run Daemon.step (Daemon.off persistent sandboxOverride capsule) (is ++ js)).core
    let c₂ :=
      (run Daemon.step (Daemon.off persistent sandboxOverride capsule) (is ++ js ++ ks)).core
    (∀ k, (∃ job, c.KnowsJob k job) → (∀ job, ¬ c₁.KnowsJob k job) → ∀ job, ¬ c₂.KnowsJob k job) ∧
    ∀ k, (∃ run, c.KnowsRun k run) → (∀ run, ¬ c₁.KnowsRun k run) → ∀ run, ¬ c₂.KnowsRun k run := by
  obtain ⟨hisjs, hks⟩ := Meets.append.mp h
  obtain ⟨his, hjs⟩ := Meets.append.mp hisjs
  have hs := sound_run (sound_off persistent sandboxOverride capsule) his
  have hs₁ := sound_run (sound_off persistent sandboxOverride capsule) hisjs
  have hlater : ∀ k, Issued (run Daemon.step (Daemon.off persistent sandboxOverride capsule)
      is).core.engine.ids k → Issued (run Daemon.step
        (Daemon.off persistent sandboxOverride capsule) (is ++ js)).core.engine.ids k := by
    intro k hk
    rw [run_append]
    exact (bound_run (J := fun _ => True) (R := fun _ => True) (fun _ _ _ _ => True.intro)
      (fun _ _ _ _ => True.intro) hs hjs
      ⟨hk, fun _ _ => True.intro, fun _ _ => True.intro⟩).issued
  intro c c₁ c₂
  refine ⟨?_, ?_⟩
  · rintro k ⟨job, hjob⟩ hgone job' hjob'
    have hb : Bound k (fun _ => False) (fun _ => True) c₁ :=
      ⟨hlater k (issued_of_knownJob hs hjob), hgone, fun _ _ => True.intro⟩
    have hafter := bound_run (fun _ _ _ hfalse => hfalse) (fun _ _ _ _ => True.intro) hs₁ hks hb
    rw [← run_append] at hafter
    exact hafter.job job' hjob'
  · rintro k ⟨r, hr⟩ hgone r' hr'
    have hb : Bound k (fun _ => True) (fun _ => False) c₁ :=
      ⟨hlater k (issued_of_knownRun hs hr), fun _ _ => True.intro, hgone⟩
    have hafter := bound_run (fun _ _ _ _ => True.intro) (fun _ _ _ hfalse => hfalse) hs₁ hks hb
    rw [← run_append] at hafter
    exact hafter.run r' hr'

/-- A run is submitted and cancelled. -/
def cancelledInputs : List (World × Input) :=
  [(dailyWorld 1 0, .start), (dailyWorld 1 0, .command (.submitRun "task")),
    (dailyWorld 2 0, .command (.cancelRun "run_1_0"))]

/-- It expires. -/
def expiredInputs : List (World × Input) := [(dailyWorld 100000000 100000000, .tick)]

/-- The next process does not know it. -/
theorem records_gone_expired : ¬ ∃ r, (run Daemon.step (Daemon.off true none false)
    (cancelledInputs ++ expiredInputs ++ [(dailyWorld 100000001 0, .start)])).core.KnowsRun
      "run_1_0" r := by
  rintro ⟨r, hr⟩
  have hknown : ((run Daemon.step (Daemon.off true none false)
      cancelledInputs).core.engine.store.getRun "run_1_0").isSome := by decide +kernel
  have hgone : (run Daemon.step (Daemon.off true none false)
      (cancelledInputs ++ expiredInputs)).core.engine.store.getRun "run_1_0" = none := by
    decide +kernel
  have hgone' : (run Daemon.step (Daemon.off true none false)
      (cancelledInputs ++ expiredInputs)).core.db.map (·.getRun "run_1_0") = some none := by
    decide +kernel
  obtain ⟨known, hknown⟩ := Option.isSome_iff_exists.mp hknown
  refine (records_gone true none false cancelledInputs expiredInputs _ (by decide +kernel)).2
    "run_1_0" ⟨known, Or.inl hknown⟩ ?_ r hr
  rintro run (hrun | ⟨db, hdb, hrun⟩)
  · cases hrun.symm.trans hgone
  · rw [hdb] at hgone'
    cases hrun.symm.trans (Option.some.inj hgone')

end ZeptoPM
