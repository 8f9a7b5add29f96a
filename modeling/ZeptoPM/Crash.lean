import ZeptoPM.Dependency
import ZeptoPM.Interrupt
import ZeptoPM.Outcomes

/- Jobs that wait for others, across crashes. Promotion happens when a dependency completes
   and at no other time, so a job that is loaded as pending is lost if everything it depends
   on is loaded as completed. `Patient` says that this is not so: a pending job waits for one
   that is completed neither in the engine nor on disk. A crash breaks it exactly where the
   row of a completed job is written and the row of the job it released is not. -/
namespace ZeptoPM
open OrchestratorEngine SqlitePersistence

def SqlitePersistence.isCompleted (db : SqlitePersistence) (k : JobId) : Bool :=
  (db.getJob k).any (fun job => job.status == .completed)

/-- Every pending job has a dependency that is not completed. -/
def NoneStranded (s : RunStore) : Prop :=
  ∀ k job, s.getJob k = some job → job.status = .pending →
    ∃ d ∈ job.dependsOn, s.isCompleted d = false

/-- The same of what is on disk. -/
def WaitingRows (db : SqlitePersistence) : Prop :=
  ∀ k row, db.getJob k = some row → row.status = .pending →
    ∃ d ∈ row.dependsOn, db.isCompleted d = false

/-- Every job that is pending, in the engine or on disk, waits for something. -/
structure Patient (e : OrchestratorEngine) (db : SqlitePersistence) : Prop where
  depIssued : ∀ k job, e.store.getJob k = some job → ∀ d ∈ job.dependsOn, Issued e.ids d
  depHome : ∀ k job, e.store.getJob k = some job → ∀ d ∈ job.dependsOn,
    ∀ dj, e.store.getJob d = some dj → dj.runId = job.runId
  sameDeps : ∀ k row job, db.getJob k = some row → e.store.getJob k = some job →
    row.dependsOn = job.dependsOn
  waiting : ∀ k job, e.store.getJob k = some job → job.status = .pending →
    ∃ d ∈ job.dependsOn, e.store.isCompleted d = false ∧ db.isCompleted d = false
  waitingRows : WaitingRows db

def PatientCore (c : Core) : Prop := ∀ db, c.db = some db → Patient c.engine db

/-- A completion that leaves a pending job without open dependencies releases it: the
completed job is active and the others are completed. -/
def Releases (c : Core) (x : World × Action) : Prop :=
  match x.2 with
  | .call r (.markCompleted j _) =>
    ∀ job ∈ c.engine.store.listRunJobs x.1 r, job.jobId ≠ j → job.status = .pending →
      j ∈ job.dependsOn →
      (c.engine.activeJobs.get j = some r ∧
        ∀ d ∈ job.dependsOn, d ≠ j → c.engine.store.isCompleted d = true) ∨
      ∃ d ∈ job.dependsOn, d ≠ j ∧ c.engine.store.isCompleted d = false ∧
        ∀ db ∈ c.db, db.isCompleted d = false
  | _ => True

instance (c : Core) (x : World × Action) : Decidable (Releases c x) := by
  obtain ⟨w, ⟨r₀, f⟩ | _⟩ := x
  · rcases f with _ | _ <;> dsimp only [Releases] <;> infer_instance
  all_goals
    dsimp only [Releases]
    infer_instance

section
variable {w : World} {e e' : OrchestratorEngine} {db db' : SqlitePersistence}

theorem completedRow_iff {k : JobId} :
    db.isCompleted k = true ↔ ∃ row, db.getJob k = some row ∧ row.status = .completed := by
  unfold SqlitePersistence.isCompleted
  rw [Option.any_eq_true]
  simp only [beq_iff_eq]

theorem completedRow_congr {k : JobId} (h : db'.getJob k = db.getJob k) :
    db'.isCompleted k = db.isCompleted k := by
  unfold SqlitePersistence.isCompleted
  rw [h]

/-! ## Calls -/

/-- Jobs that were there before keep what they depend on, and none becomes pending. -/
structure Carried (e e' : OrchestratorEngine) : Prop where
  ids : e.ids.Le e'.ids
  job : ∀ k job', e'.store.getJob k = some job' → ∃ job, e.store.getJob k = some job ∧
    job'.dependsOn = job.dependsOn ∧ job'.runId = job.runId ∧
    (job'.status = .pending → job.status = .pending)

theorem Patient.carried (h : Patient e db) (hc : Carried e e')
    (hw : ∀ k job', e'.store.getJob k = some job' → job'.status = .pending →
      ∃ d ∈ job'.dependsOn, e'.store.isCompleted d = false ∧ db.isCompleted d = false) :
    Patient e' db := by
  refine ⟨?_, ?_, ?_, hw, h.waitingRows⟩
  · intro k job' hk d hd
    obtain ⟨job, hjob, hdeps, _⟩ := hc.job k job' hk
    exact (h.depIssued k job hjob d (hdeps ▸ hd)).mono hc.ids
  · intro k job' hk d hd dj' hdj'
    obtain ⟨job, hjob, hdeps, hr, _⟩ := hc.job k job' hk
    obtain ⟨dj, hdj, _, hr', _⟩ := hc.job d dj' hdj'
    calc dj'.runId = dj.runId := hr'
      _ = job.runId := h.depHome k job hjob d (hdeps ▸ hd) dj hdj
      _ = job'.runId := hr.symm
  · intro k row job' hrow hk
    obtain ⟨job, hjob, hdeps, _⟩ := hc.job k job' hk
    exact (h.sameDeps k row job hrow hjob).trans hdeps.symm

/-- Where nothing is completed, what is waited for stays open. -/
theorem Patient.calm (h : Patient e db) (hc : Carried e e')
    (hcomplete : ∀ d, e'.store.isCompleted d = true → e.store.isCompleted d = true) :
    Patient e' db := by
  refine h.carried hc (fun k job' hk hst => ?_)
  obtain ⟨job, hjob, hdeps, _, hpending⟩ := hc.job k job' hk
  obtain ⟨d, hd, hopen, hrow⟩ := h.waiting k job hjob (hpending hst)
  refine ⟨d, hdeps ▸ hd, ?_, hrow⟩
  rw [← Bool.not_eq_true] at hopen ⊢
  exact fun hdone => hopen (hcomplete d hdone)

theorem Patient.frame (h : Patient e db) (hf : Frame e e') : Patient e' db := by
  refine h.calm ⟨hf.ids ▸ .refl _, fun k job' hk => ?_⟩ (fun d hd => ?_)
  · exact ⟨job', (hf.getJob k).symm.trans hk, rfl, rfl, fun h => h⟩
  · rw [← isCompleted_congr (hf.getJob d)]
    exact hd

/-- New jobs wait for new jobs only, and nothing is known of these on disk. -/
theorem Patient.created (hg : Grounded e) (hi : Image db e) (h : Patient e db) {r : RunId}
    {new : List Job} (hn : Created e e' r new) : Patient e' db := by
  have hold : ∀ d, Issued e.ids d → e'.store.getJob d = e.store.getJob d :=
    fun d hd => hn.getJob_old d (hn.notMem hd)
  have hdep : ∀ job ∈ new, ∀ d ∈ job.dependsOn, ∃ dj ∈ new, dj.jobId = d := by
    intro job hjob d hd
    rcases hn.shape job hjob with ⟨_, hnil⟩ | ⟨_, _, hdeps⟩
    · rw [hnil] at hd
      cases hd
    · exact hdeps d hd
  have hback : ∀ k job', e'.store.getJob k = some job' →
      job' ∈ new ∨ e.store.getJob k = some job' :=
    fun k job' hk => (hn.cases hk).imp And.left And.right
  refine ⟨fun k job' hk d hd => ?_, fun k job' hk d hd dj hdj => ?_, fun k row job' hrow hk => ?_,
    fun k job' hk hst => ?_, h.waitingRows⟩
  · rcases hback k job' hk with hmem | hjob
    · obtain ⟨dj, hdj, rfl⟩ := hdep job' hmem d hd
      exact hn.issued dj hdj
    · exact (h.depIssued k job' hjob d hd).mono hn.le
  · rcases hback k job' hk with hmem | hjob
    · obtain ⟨dj', hdj', rfl⟩ := hdep job' hmem d hd
      cases (hn.getJob_new dj' hdj').symm.trans hdj
      rw [hn.runId dj hdj', hn.runId job' hmem]
    · rw [hold d (h.depIssued k job' hjob d hd)] at hdj
      exact h.depHome k job' hjob d hd dj hdj
  · obtain ⟨⟨job, hjob, _⟩, _⟩ := hi.job k row hrow
    rw [hold k (hg.supervised.jobIssued k job hjob)] at hk
    exact h.sameDeps k row job' hrow hk
  · rcases hback k job' hk with hmem | hjob
    · rcases hn.shape job' hmem with ⟨hready, _⟩ | ⟨_, hne, hdeps⟩
      · rw [hst] at hready
        cases hready
      · obtain ⟨d, hd⟩ := List.exists_mem_of_ne_nil _ hne
        obtain ⟨dj, hdj, rfl⟩ := hdeps d hd
        refine ⟨dj.jobId, hd, isCompleted_eq_false (hn.getJob_new dj hdj) ?_, ?_⟩
        · rcases hn.shape dj hdj with ⟨hready, _⟩ | ⟨hpending, _⟩
          · rw [hready]
            simp
          · rw [hpending]
            simp
        · rw [← Bool.not_eq_true, completedRow_iff]
          intro ⟨row, hrow, _⟩
          obtain ⟨⟨job, hjob, _⟩, _⟩ := hi.job _ row hrow
          exact hn.fresh dj hdj (hg.supervised.jobIssued _ job hjob)
    · obtain ⟨d, hd, hopen, hrow⟩ := h.waiting k job' hjob hst
      refine ⟨d, hd, ?_, hrow⟩
      rw [isCompleted_congr (hold d (h.depIssued k job' hjob d hd))]
      exact hopen

theorem Patient.started (h : Patient e db) {job : Job} {q : List JobId}
    (hjob : e.store.getJob job.jobId = some job) : Patient (e.started w job q) db := by
  have hget := getJob_started w e job q
  refine h.calm ⟨.refl _, fun k job' hk => ?_⟩ (fun d hd => ?_)
  · rw [hget] at hk
    split at hk
    · rename_i hkj
      rw [hjob] at hk
      cases hk
      exact ⟨job, hkj ▸ hjob, rfl, rfl, fun hst => by cases hst⟩
    · exact ⟨job', hk, rfl, rfl, fun h => h⟩
  · obtain ⟨dj, hdj, hst⟩ := isCompleted_iff.mp hd
    rw [hget] at hdj
    split at hdj
    · rw [hjob] at hdj
      cases hdj
      cases hst
    · exact isCompleted_iff.mpr ⟨dj, hdj, hst⟩

/-- Some jobs fail. -/
theorem Patient.failed (h : Patient e db) (hids : e'.ids = e.ids)
    (hget : ∀ k, e'.store.getJob k = e.store.getJob k ∨
      ∃ err, e'.store.getJob k = (e.store.getJob k).map (Job.fail w err)) : Patient e' db := by
  refine h.calm ⟨hids ▸ .refl _, fun k job' hk => ?_⟩ (fun d hd => ?_)
  · rcases hget k with heq | ⟨err, heq⟩
    · exact ⟨job', heq.symm.trans hk, rfl, rfl, fun h => h⟩
    · obtain ⟨job, hjob, rfl⟩ := Option.map_eq_some_iff.mp (heq.symm.trans hk)
      refine ⟨job, hjob, Job.fail_dependsOn .., Job.fail_runId .., fun hst => ?_⟩
      rcases Job.fail_status_cases w job err with h | h
      · cases h.symm.trans hst
      · cases h.symm.trans hst
  · obtain ⟨dj, hdj, hst⟩ := isCompleted_iff.mp hd
    rcases hget d with heq | ⟨err, heq⟩
    · exact isCompleted_iff.mpr ⟨dj, heq.symm.trans hdj, hst⟩
    · obtain ⟨job, _, rfl⟩ := Option.map_eq_some_iff.mp (heq.symm.trans hdj)
      rcases Job.fail_status_cases w job err with h | h
      · cases h.symm.trans hst
      · cases h.symm.trans hst

theorem isCompleted_markCompleted_ne {j d : JobId} {o : List ArtifactId} (hd : d ≠ j)
    (h : e.store.isCompleted d = false) : (e.markCompleted w j o).store.isCompleted d = false := by
  rw [isCompleted_markCompleted, isCompleted_completedStore_ne hd, h]

/-- A completion releases the jobs that it leaves without anything to wait for. -/
theorem Patient.completed (h : Patient e db) {r : RunId} {j : JobId}
    {o : List ArtifactId} (hr : e.OfRun r j)
    (hok : Releases ⟨e, some db⟩ (w, .call r (.markCompleted j o))) :
    Patient (e.markCompleted w j o) db := by
  have hids : (e.markCompleted w j o).ids = e.ids := ids_markCompleted ..
  refine h.carried ⟨hids ▸ .refl _, fun k job' hk => ?_⟩ (fun k job' hk hst => ?_)
  · obtain ⟨job, hjob, hcases⟩ := markCompleted_job w e j o hk
    rcases hcases with ⟨_, rfl⟩ | ⟨_, _, hpending, rfl⟩ | ⟨_, _, rfl⟩
    · exact ⟨job, hjob, rfl, rfl, fun hst => by cases hst⟩
    · exact ⟨job, hjob, rfl, rfl, fun hst => by cases hst⟩
    · exact ⟨job', hjob, rfl, rfl, fun h => h⟩
  · obtain ⟨job, hjob, hcases⟩ := markCompleted_job w e j o hk
    rcases hcases with ⟨_, rfl⟩ | ⟨_, _, _, rfl⟩ | ⟨hkj, hnot, rfl⟩
    · cases hst
    · cases hst
    · obtain ⟨d, hd, hopen, hrow⟩ := h.waiting k job' hjob hst
      by_cases hdj : d = j
      · subst hdj
        have hid := RunStore.jobId_of_getJob hjob
        -- the job it waits for is there, or else nothing has been completed
        cases hj : e.store.getJob d with
        | none =>
          refine ⟨d, hd, ?_, hrow⟩
          have hnone : (e.markCompleted w d o).store.getJob d = none := by
            rw [getJob_markCompleted, hj]
            rfl
          unfold RunStore.isCompleted
          rw [hnone]
          rfl
        | some dj =>
          have hrun : job'.runId = r := (h.depHome k job' hjob d hd dj hj).symm.trans (hr dj hj)
          have hmem : job' ∈ e.store.listRunJobs w r :=
            RunStore.mem_listRunJobs.mpr ⟨hid.symm ▸ hjob, hrun⟩
          rcases hok job' hmem (hid.symm ▸ hkj) hst hd with
            ⟨hactive, hall⟩ | ⟨d', hd', hne, hopen', hrow'⟩
          · refine absurd ((mem_promotedIds w e d o).mpr
              ⟨r, job', hactive, hkj, hjob, hrun, hst, fun d' hd' => ?_⟩) hnot
            rw [isCompleted_iff, getJob_completedStore]
            by_cases hdd : d' = d
            · rw [if_pos hdd, hj]
              exact ⟨_, rfl, rfl⟩
            · rw [if_neg hdd]
              exact isCompleted_iff.mp (hall d' hd' hdd)
          · exact ⟨d', hd', isCompleted_markCompleted_ne hne hopen', hrow' db rfl⟩
      · exact ⟨d, hd, isCompleted_markCompleted_ne hdj hopen, hrow⟩

theorem Patient.call (hg : Grounded e) (hi : Image db e) (h : Patient e db) {r : RunId} {f : Call}
    (hl : Legal ⟨e, some db⟩ (w, .call r f)) (hok : Releases ⟨e, some db⟩ (w, .call r f)) :
    Patient (f.apply w e) db := by
  cases outcome_call hg hl with
  | frame hf => exact h.frame hf
  | submitted task hn _ => exact h.created hg hi hn
  | dropped q heq _ =>
    show Patient (e.startNext w).2 db
    rw [heq]
    exact ⟨h.depIssued, h.depHome, h.sameDeps, h.waiting, h.waitingRows⟩
  | started job q _ hjob heq =>
    show Patient (e.startNext w).2 db
    rw [heq]
    exact h.started hjob
  | completed j o => exact h.completed hl.2 hok
  | failed j err =>
    refine h.failed (w := w) (ids_markFailed ..) (fun k => ?_)
    have hget := getJob_markFailed w e j err k
    by_cases hk : k = j
    · subst hk
      rw [if_pos rfl] at hget
      exact Or.inr ⟨err, hget⟩
    · rw [if_neg hk] at hget
      exact Or.inl hget
  | planned r p plan hn => exact h.created hg hi hn.created
  | revised j d m rev new _ hn => exact h.created hg hi hn.created
  | cancelled r hc =>
    refine h.failed (w := w) hc.ids (fun k => ?_)
    by_cases hk : e.Cancels r k
    · exact Or.inr ⟨_, hc.getJob_cancelled k hk⟩
    · exact Or.inl (hc.getJob_other k hk)

/-! ## Part of the rows -/

/-- Whatever is pending on disk although its job is not has been written by now, or waits
for a job that is not completed in the rows that are on disk by now. -/
def RowsInOrder (w : World) (e : OrchestratorEngine) (db : SqlitePersistence) (r : RunId)
    (n : Nat) : Prop :=
  ∀ row ∈ db.loadJobs w, row.status = .pending →
    ∀ job ∈ e.store.getJob row.jobId, job.status ≠ .pending →
      row.jobId ∈ jobIds ((writes w e.store r).take n) ∨
      ∃ d ∈ row.dependsOn,
        (if d ∈ jobIds ((writes w e.store r).take n) then e.store.isCompleted d
          else db.isCompleted d) = false

instance (w : World) (e : OrchestratorEngine) (db : SqlitePersistence) (r : RunId) (n : Nat) :
    Decidable (RowsInOrder w e db r n) :=
  inferInstanceAs (Decidable (∀ _ ∈ _, _ → ∀ _ ∈ _, _ → _ ∨ ∃ _ ∈ _, _))

/-- Rows of the jobs in `l` are those of the engine, the others are as before. -/
def Overwritten (e : OrchestratorEngine) (db db' : SqlitePersistence) (l : List JobId) : Prop :=
  ∀ k, db'.getJob k = if k ∈ l then e.store.getJob k else db.getJob k

theorem overwritten_take (w : World) (e : OrchestratorEngine) (db : SqlitePersistence)
    (r : RunId) (n : Nat) : Overwritten e db (((writes w e.store r).take n).foldl execute db)
      (jobIds ((writes w e.store r).take n)) :=
  getJob_execute _ db (fun _ hjob => (job_mem_writes (List.mem_of_mem_take hjob)).1)

theorem Overwritten.completed {l : List JobId} (h : Overwritten e db db' l) (d : JobId) :
    db'.isCompleted d = if d ∈ l then e.store.isCompleted d else db.isCompleted d := by
  have hd := h d
  by_cases hmem : d ∈ l
  · rw [if_pos hmem] at hd ⊢
    rw [Bool.eq_iff_iff, completedRow_iff, isCompleted_iff, hd]
  · rw [if_neg hmem] at hd ⊢
    exact completedRow_congr hd

theorem Patient.overwritten (h : Patient e db) {l : List JobId} (ho : Overwritten e db db' l)
    (hw : WaitingRows db') : Patient e db' := by
  refine ⟨h.depIssued, h.depHome, fun k row job hrow hjob => ?_, fun k job hjob hst => ?_, hw⟩
  · rw [ho] at hrow
    split at hrow
    · cases hrow.symm.trans hjob
      rfl
    · exact h.sameDeps k row job hrow hjob
  · obtain ⟨d, hd, hopen, hrow⟩ := h.waiting k job hjob hst
    refine ⟨d, hd, hopen, ?_⟩
    rw [ho.completed]
    split
    · exact hopen
    · exact hrow

/-- The jobs that still wait in the engine wait on disk, whatever has been written. What is
left to ask is about the others. -/
theorem waitingRows_iff (hi : Image db e) (h : Patient e db) {l : List JobId}
    (ho : Overwritten e db db' l) (w : World) : WaitingRows db' ↔
      ∀ row ∈ db.loadJobs w, row.status = .pending →
        ∀ job ∈ e.store.getJob row.jobId, job.status ≠ .pending → row.jobId ∈ l ∨
          ∃ d ∈ row.dependsOn,
            (if d ∈ l then e.store.isCompleted d else db.isCompleted d) = false := by
  refine ⟨?_, ?_⟩
  · intro hw row hrow hst job _ _
    by_cases hmem : row.jobId ∈ l
    · exact Or.inl hmem
    · right
      have hget := ho row.jobId
      rw [if_neg hmem, mem_loadJobs_iff.mp hrow] at hget
      obtain ⟨d, hd, hopen⟩ := hw row.jobId row hget hst
      exact ⟨d, hd, (ho.completed d).symm.trans hopen⟩
  · intro hrows k row hrow hst
    -- a job that waits in the engine waits for one that is completed nowhere
    have hstill : ∀ job, e.store.getJob k = some job → job.status = .pending →
        job.dependsOn = row.dependsOn → ∃ d ∈ row.dependsOn, db'.isCompleted d = false := by
      intro job hjob hpending hdeps
      obtain ⟨d, hd, hopen, hopen'⟩ := h.waiting k job hjob hpending
      refine ⟨d, hdeps ▸ hd, ?_⟩
      rw [ho.completed]
      split
      · exact hopen
      · exact hopen'
    have hget := ho k
    rw [hrow] at hget
    by_cases hmem : k ∈ l
    · rw [if_pos hmem] at hget
      exact hstill row hget.symm hst rfl
    · rw [if_neg hmem] at hget
      have hid := SqlitePersistence.jobId_of_getJob hget.symm
      obtain ⟨⟨job, hjob, _⟩, _⟩ := hi.job k row hget.symm
      by_cases hpending : job.status = .pending
      · exact hstill job hjob hpending (h.sameDeps k row job hget.symm hjob).symm
      · rcases hrows row (mem_loadJobs_iff.mpr (hid.symm ▸ hget.symm)) hst job
          (show e.store.getJob row.jobId = some job from hid.symm ▸ hjob) hpending with
          hin | ⟨d, hd, hopen⟩
        · exact absurd (hid ▸ hin) hmem
        · exact ⟨d, hd, (ho.completed d).trans hopen⟩

/-! ## The other actions -/

theorem mem_jobIds_writes {w : World} {s : RunStore} {r : RunId} {k : JobId} :
    k ∈ jobIds (writes w s r) ↔ ∃ job, s.getJob k = some job ∧ job.runId = r := by
  rw [mem_jobIds]
  refine ⟨?_, ?_⟩
  · intro ⟨job, hmem, hid⟩
    obtain ⟨hjob, hr⟩ := job_mem_writes hmem
    exact ⟨job, hid ▸ hjob, hr⟩
  · intro ⟨job, hjob, hr⟩
    have hid := RunStore.jobId_of_getJob hjob
    refine ⟨job, ?_, hid⟩
    exact List.mem_append_left _ (List.mem_append_right _
      (List.mem_map_of_mem (RunStore.mem_listRunJobs.mpr ⟨hid.symm ▸ hjob, hr⟩)))

/-- A run that is written to the end is written in order: what its jobs depend on is of the
same run. -/
theorem Patient.persist (hi : Image db e) (h : Patient e db) (w : World) (r : RunId) :
    Patient e (db.persistRunState w e.store r) := by
  rw [persistRunState_eq]
  have ho : Overwritten e db ((writes w e.store r).foldl execute db)
      (jobIds (writes w e.store r)) :=
    getJob_execute _ db (fun _ hjob => (job_mem_writes hjob).1)
  refine h.overwritten ho ((waitingRows_iff hi h ho w).mpr ?_)
  intro row hrow hst job hjob _
  by_cases hmem : row.jobId ∈ jobIds (writes w e.store r)
  · exact Or.inl hmem
  · right
    have hget := mem_loadJobs_iff.mp hrow
    obtain ⟨d, hd, hopen⟩ := h.waitingRows _ row hget hst
    refine ⟨d, hd, ?_⟩
    rw [if_neg]
    · exact hopen
    · intro hdin
      obtain ⟨dj, hdj, hr⟩ := mem_jobIds_writes.mp hdin
      have hdeps := h.sameDeps _ row job hget hjob
      have hhome := h.depHome _ job hjob d (hdeps ▸ hd) dj hdj
      exact hmem (mem_jobIds_writes.mpr ⟨job, hjob, hhome.symm.trans hr⟩)

theorem Patient.expire (h : Patient e db) (r : RunId) :
    Patient (e.removeRun w r) (db.deleteRun w r) := by
  have hstore : ∀ d, e.store.isCompleted d = false →
      (e.removeRun w r).store.isCompleted d = false := by
    intro d hopen
    rw [← Bool.not_eq_true] at hopen ⊢
    intro hdone
    obtain ⟨dj, hdj, hst⟩ := isCompleted_iff.mp hdone
    exact hopen (isCompleted_iff.mpr ⟨dj, (getJob_expire.mp hdj).1, hst⟩)
  have hrows : ∀ d, db.isCompleted d = false → (db.deleteRun w r).isCompleted d = false := by
    intro d hopen
    rw [← Bool.not_eq_true] at hopen ⊢
    intro hdone
    obtain ⟨dj, hdj, hst⟩ := completedRow_iff.mp hdone
    exact hopen (completedRow_iff.mpr ⟨dj, (getJob_deleteRun.mp hdj).1, hst⟩)
  refine ⟨fun k job hk => ?_, fun k job hk d hd dj hdj => ?_, fun k row job hrow hk => ?_,
    fun k job hk hst => ?_, fun k row hrow hst => ?_⟩
  · exact h.depIssued k job (getJob_expire.mp hk).1
  · exact h.depHome k job (getJob_expire.mp hk).1 d hd dj (getJob_expire.mp hdj).1
  · exact h.sameDeps k row job (getJob_deleteRun.mp hrow).1 (getJob_expire.mp hk).1
  · obtain ⟨d, hd, hopen, hrow⟩ := h.waiting k job (getJob_expire.mp hk).1 hst
    exact ⟨d, hd, hstore d hopen, hrows d hrow⟩
  · obtain ⟨d, hd, hopen⟩ := h.waitingRows k row (getJob_deleteRun.mp hrow).1 hst
    exact ⟨d, hd, hrows d hopen⟩

/-! ## The start of the process -/

theorem Job.recover_pending (w : World) (job : Job) :
    (job.recover w).status = .pending ↔ job.status = .pending := by
  rw [Job.recover_status]
  split
  · rename_i hrun
    rw [hrun]
    split <;> simp
  · exact Iff.rfl

theorem Job.recover_completed (w : World) (job : Job) :
    (job.recover w).status = .completed ↔ job.status = .completed := by
  rw [Job.recover_status]
  split
  · rename_i hrun
    rw [hrun]
    split <;> simp
  · exact Iff.rfl

theorem Job.recover_dependsOn (w : World) (job : Job) :
    (job.recover w).dependsOn = job.dependsOn := by
  unfold Job.recover
  split
  · exact Job.fail_dependsOn ..
  · rfl

theorem isCompleted_hydrate (w : World) (db : SqlitePersistence) (ids : IdSupply) (d : JobId) :
    (hydrate w (some db) ids).store.isCompleted d = db.isCompleted d := by
  rw [Bool.eq_iff_iff, isCompleted_iff, completedRow_iff, getJob_hydrate]
  refine ⟨?_, ?_⟩
  · intro ⟨job', hjob', hst⟩
    obtain ⟨job, hjob, rfl⟩ := Option.map_eq_some_iff.mp hjob'
    exact ⟨job, hjob, (job.recover_completed w).mp hst⟩
  · intro ⟨job, hjob, hst⟩
    refine ⟨job.recover w, ?_, (job.recover_completed w).mpr hst⟩
    rw [hjob]
    rfl

/-- The engine takes over what is stranded on disk, and nothing else is. -/
theorem noneStranded_hydrate (w : World) (db : SqlitePersistence) (ids : IdSupply) :
    NoneStranded (hydrate w (some db) ids).store ↔ WaitingRows db := by
  refine ⟨?_, ?_⟩
  · intro h k row hrow hst
    have hget : (hydrate w (some db) ids).store.getJob k = some (row.recover w) := by
      rw [getJob_hydrate, hrow]
      rfl
    obtain ⟨d, hd, hopen⟩ := h k _ hget ((row.recover_pending w).mpr hst)
    rw [row.recover_dependsOn w] at hd
    exact ⟨d, hd, (isCompleted_hydrate w db ids d).symm.trans hopen⟩
  · intro h k job hjob hst
    obtain ⟨row, hrow, rfl⟩ := Option.map_eq_some_iff.mp ((getJob_hydrate k).symm.trans hjob)
    obtain ⟨d, hd, hopen⟩ := h k row hrow ((row.recover_pending w).mp hst)
    refine ⟨d, ?_, (isCompleted_hydrate w db ids d).trans hopen⟩
    rw [row.recover_dependsOn w]
    exact hd

theorem Patient.hydrate (hi : Image db e) (h : Patient e db) (w : World) :
    Patient (ZeptoPM.hydrate w (some db) e.ids) db := by
  have hback : ∀ k job', (ZeptoPM.hydrate w (some db) e.ids).store.getJob k = some job' →
      ∃ row job, db.getJob k = some row ∧ e.store.getJob k = some job ∧
        job'.dependsOn = row.dependsOn ∧ row.dependsOn = job.dependsOn ∧
        job'.runId = job.runId := by
    intro k job' hk
    obtain ⟨row, hrow, rfl⟩ := Option.map_eq_some_iff.mp ((getJob_hydrate k).symm.trans hk)
    obtain ⟨⟨job, hjob, hr⟩, _⟩ := hi.job k row hrow
    exact ⟨row, job, hrow, hjob, row.recover_dependsOn w, h.sameDeps k row job hrow hjob,
      (Job.recover_runId w row).trans hr.symm⟩
  refine ⟨fun k job' hk d hd => ?_, fun k job' hk d hd dj' hdj' => ?_,
    fun k row job' hrow hk => ?_, fun k job' hk hst => ?_, h.waitingRows⟩
  · obtain ⟨row, job, _, hjob, hdeps, hdeps', _⟩ := hback k job' hk
    rw [hdeps, hdeps'] at hd
    exact (h.depIssued k job hjob d hd).restart
  · obtain ⟨row, job, _, hjob, hdeps, hdeps', hr⟩ := hback k job' hk
    obtain ⟨_, dj, _, hdj, _, _, hr'⟩ := hback d dj' hdj'
    rw [hdeps, hdeps'] at hd
    calc dj'.runId = dj.runId := hr'
      _ = job.runId := h.depHome k job hjob d hd dj hdj
      _ = job'.runId := hr.symm
  · obtain ⟨row', _, hrow', _, hdeps, _⟩ := hback k job' hk
    cases hrow.symm.trans hrow'
    exact hdeps.symm
  · obtain ⟨d, hd, hopen⟩ :=
      (noneStranded_hydrate w db e.ids).mpr h.waitingRows k job' hk hst
    exact ⟨d, hd, hopen, (isCompleted_hydrate w db e.ids d).symm.trans hopen⟩

end

theorem patient_act (c : Core) (x : World × Action) (hs : Sound c) (hl : Legal c x)
    (h : PatientCore c) (hok : Releases c x) : PatientCore (coreStep c x) := by
  obtain ⟨e, db⟩ := c
  obtain ⟨w, a⟩ := x
  cases db with
  | none =>
    intro db hdb
    cases a <;> cases hdb
  | some db =>
    have hg : Grounded e := hs.grounded
    have hi : Image db e := hs.image db rfl
    have hp : Patient e db := h db rfl
    intro db' hdb'
    cases a with
    | call r f =>
      cases hdb'
      exact hp.call hg hi hl hok
    | persistRunState r =>
      cases hdb'
      exact hp.persist hi w r
    | persistArtifact artifact =>
      cases hdb'
      exact ⟨hp.depIssued, hp.depHome, hp.sameDeps, hp.waiting, hp.waitingRows⟩
    | genId pre =>
      cases hdb'
      exact ⟨fun k job hk d hd => (hp.depIssued k job hk d hd).mono (IdSupply.le_genId w e.ids pre),
        hp.depHome, hp.sameDeps, hp.waiting, hp.waitingRows⟩
    | expire r =>
      cases hdb'
      exact hp.expire r
    | hydrate =>
      cases hdb'
      exact hp.hydrate hi w

/-! ## Lives of the process -/

/-- Where the process is killed while it persists a run, the rows are on disk in order. -/
def CutInOrder (c : Core) (next : Option (World × Action)) (n : Nat) : Prop :=
  match next with
  | some (w, .persistRunState r) => ∀ db ∈ c.db, RowsInOrder w c.engine db r n
  | _ => True

instance (c : Core) (next : Option (World × Action)) (n : Nat) :
    Decidable (CutInOrder c next n) := by
  unfold CutInOrder
  split <;> infer_instance

/-- After `m` of the actions. -/
def KilledInOrder (c : Core) (l : List (World × Action)) (m n : Nat) : Prop :=
  CutInOrder (run coreStep c (l.take m)) l[m]? n

instance (c : Core) (l : List (World × Action)) (m n : Nat) :
    Decidable (KilledInOrder c l m n) :=
  inferInstanceAs (Decidable (CutInOrder ..))

/-- The clock has not fallen behind, completions release what waits for them, and the rows
are in order where the process is killed. -/
def Survivable (d : Daemon) : Life → Prop
  | .handled x => Guarded Releases d x
  | .killed x m n => Clocked d x ∧ Meets coreStep Releases d.core ((d.step x).calls.take m) ∧
      KilledInOrder d.core (d.step x).calls m n

instance (d : Daemon) (x : Life) : Decidable (Survivable d x) := by
  cases x <;> dsimp only [Survivable] <;> infer_instance

/-- Some actions of a step, for a property kept by every allowed one. -/
theorem patient_take {c : Core} {l : List (World × Action)} (hs : Sound c) (h : PatientCore c)
    (hl : Meets coreStep Legal c l) (m : Nat) (hok : Meets coreStep Releases c (l.take m)) :
    Sound (run coreStep c (l.take m)) ∧ PatientCore (run coreStep c (l.take m)) := by
  rw [← List.take_append_drop m l, Meets.append] at hl
  refine run_invariant (P := fun c => Sound c ∧ PatientCore c) ?_ ⟨hs, h⟩
    (Meets.and.mpr ⟨hl.1, hok⟩)
  exact fun c x hc hx => ⟨sound_act hc.1 hx.1, patient_act c x hc.1 hx.1 hc.2 hx.2⟩

/-- What is on disk after the process has been killed, in terms of what was written. -/
theorem waitingRows_cut_iff {c : Core} (hs : Sound c) (h : PatientCore c)
    (next : Option (World × Action)) (n : Nat) :
    (∀ db, (c.cut next n).db = some db → WaitingRows db) ↔ CutInOrder c next n := by
  obtain ⟨e, db⟩ := c
  cases next with
  | none => exact ⟨fun _ => True.intro, fun _ db hdb => (h db hdb).waitingRows⟩
  | some x =>
    obtain ⟨w, a⟩ := x
    cases a with
    | persistRunState r =>
      have hiff : ∀ db₀, db = some db₀ →
          (WaitingRows (((writes w e.store r).take n).foldl execute db₀) ↔
            RowsInOrder w e db₀ r n) :=
        fun db₀ hdb₀ => waitingRows_iff (hs.image db₀ hdb₀) (h db₀ hdb₀)
          (overwritten_take w e db₀ r n) w
      refine ⟨?_, ?_⟩
      · intro hw db₀ hdb₀
        exact (hiff db₀ hdb₀).mp (hw _ (Option.map_eq_some_iff.mpr ⟨db₀, hdb₀, rfl⟩))
      · intro hrows db' hdb'
        obtain ⟨db₀, hdb₀, rfl⟩ := Option.map_eq_some_iff.mp hdb'
        exact (hiff db₀ hdb₀).mpr (hrows db₀ hdb₀)
    | _ => exact ⟨fun _ => True.intro, fun _ db hdb => (h db hdb).waitingRows⟩

theorem patient_cut {c : Core} (hs : Sound c) (h : PatientCore c)
    {next : Option (World × Action)} {n : Nat} (hin : CutInOrder c next n) :
    PatientCore (c.cut next n) := by
  have hrows := (waitingRows_cut_iff hs h next n).mpr hin
  obtain ⟨e, db⟩ := c
  unfold Core.cut at hrows ⊢
  split at hrows
  · rename_i w r
    intro db' hdb'
    have hw := hrows db' hdb'
    obtain ⟨db₀, hdb₀, rfl⟩ := Option.map_eq_some_iff.mp hdb'
    exact (h db₀ hdb₀).overwritten (overwritten_take w e db₀ r n) hw
  · exact h

/-- One step of a life. -/
theorem patient_step (d : Daemon) (x : Life) (h : Sound d.core ∧ PatientCore d.core)
    (hx : Survivable d x) : Sound (Life.step d x).core ∧ PatientCore (Life.step d x).core := by
  cases x with
  | handled x => exact core_step patient_act d x h hx
  | killed x m n =>
    obtain ⟨hclock, hok, hin⟩ := hx
    obtain ⟨w, i⟩ := x
    obtain ⟨_, hlegal, _, _⟩ := step_takes i ⟨h.1, hclock⟩
    obtain ⟨hs', hp'⟩ := patient_take h.1 h.2 hlegal m hok
    exact ⟨sound_cut hs' _ n, patient_cut hs' hp' hin⟩

theorem patientCore_off (persistent : Bool) (sandboxOverride : Option Bool) (capsule : Bool) :
    PatientCore (Daemon.off persistent sandboxOverride capsule).core := by
  intro db hdb
  cases persistent <;> cases hdb
  exact
    { depIssued := fun _ _ hk => by cases hk
      depHome := fun _ _ hk => by cases hk
      sameDeps := fun _ _ _ hk => by cases hk
      waiting := fun _ _ hk => by cases hk
      waitingRows := fun _ _ hk => by cases hk }

/-- After a life that is survivable so far, the process is killed once more: no job is
stranded when it is started again exactly if the rows are on disk in order. -/
theorem noneStranded_iff (persistent : Bool) (sandboxOverride : Option Bool) (capsule : Bool)
    (ls : List Life) (x : World × Input) (m n : Nat) (w : World)
    (h : Meets Life.step Survivable (Daemon.off persistent sandboxOverride capsule) ls)
    (hclock : Clocked (run Life.step (Daemon.off persistent sandboxOverride capsule) ls) x)
    (hok : Meets coreStep Releases
      (run Life.step (Daemon.off persistent sandboxOverride capsule) ls).core
      (((run Life.step (Daemon.off persistent sandboxOverride capsule) ls).step x).calls.take m)) :
    NoneStranded ((Life.step (run Life.step (Daemon.off persistent sandboxOverride capsule) ls)
      (.killed x m n)).core.act w .hydrate).engine.store ↔
    KilledInOrder (run Life.step (Daemon.off persistent sandboxOverride capsule) ls).core
      ((run Life.step (Daemon.off persistent sandboxOverride capsule) ls).step x).calls m n := by
  obtain ⟨hs, hp⟩ := run_invariant (P := fun d => Sound d.core ∧ PatientCore d.core) patient_step
    ⟨sound_off persistent sandboxOverride capsule, patientCore_off persistent sandboxOverride capsule⟩ h
  generalize run Life.step (Daemon.off persistent sandboxOverride capsule) ls = d at *
  obtain ⟨w', i⟩ := x
  obtain ⟨_, hlegal, _, _⟩ := step_takes i ⟨hs, hclock⟩
  obtain ⟨hs', hp'⟩ := patient_take hs hp hlegal m hok
  rw [KilledInOrder, ← waitingRows_cut_iff hs' hp']
  show NoneStranded (ZeptoPM.hydrate w (d.core.interrupted (d.step (w', i)).calls m n).db _).store
    ↔ _
  unfold Core.interrupted
  cases hdb : ((run coreStep d.core ((d.step (w', i)).calls.take m)).cut
    (d.step (w', i)).calls[m]? n).db with
  | none =>
    refine ⟨?_, ?_⟩
    · intro _ db hdb'
      cases hdb'
    · intro _ k job hjob
      cases hjob
  | some db =>
    rw [noneStranded_hydrate]
    refine ⟨?_, ?_⟩
    · intro hw db' hdb'
      cases hdb'
      exact hw
    · exact fun hw => hw db rfl

/-! ## A chain of two jobs -/

/-- The first job of a chain of two runs, the second waits for it. -/
def chainUnderWay : List Life :=
  [(plannerWorld chainPlan, .start), (plannerWorld chainPlan, .command (.submitRun "task")),
    (plannerWorld chainPlan, artifactEvent "job_1_1" "plan"),
    (plannerWorld chainPlan, completedEvent "job_1_1" ["plan"])].map .handled

/-- The rows of both jobs are written before the process is killed, the second one's first. -/
theorem noneStranded_iff_bothRows :
    NoneStranded ((Life.step (run Life.step (Daemon.off true none false) chainUnderWay)
      (.killed (plannerWorld chainPlan, completedEvent "job_1_2" []) 4 3)).core.act World.bare
        .hydrate).engine.store :=
  (noneStranded_iff true none false chainUnderWay
    (plannerWorld chainPlan, completedEvent "job_1_2" []) 4 3 World.bare
    (by decide) (by decide) (by decide)).mpr (by decide)

/-- The same world with the records listed the other way round. -/
def reversedWorld (plan : ExecutionPlan) : World :=
  { plannerWorld plan with order := fun _ => ⟨List.reverse, List.reverse_perm⟩ }

/-- The run's row, the planner's and that of the completed job are written, the row of the
job it has released is not. -/
def rowMissing : List Life :=
  chainUnderWay ++ [.killed (reversedWorld chainPlan, completedEvent "job_1_2" []) 4 3]

/-- The clock has not fallen behind, and the process is killed while it persists a run, if it
is. -/
def KilledPersisting (d : Daemon) : Life → Prop
  | .handled x => Clocked d x
  | .killed x m _ => Clocked d x ∧ ∃ y ∈ (d.step x).calls[m]?, y.2.persists.isSome = true

instance (d : Daemon) (x : Life) : Decidable (KilledPersisting d x) := by
  cases x <;> dsimp only [KilledPersisting] <;> infer_instance

/-- The second job is loaded as it was and waits for the first, which is over. -/
theorem not_noneStranded_rowMissing :
    Meets Life.step KilledPersisting (Daemon.off true none false) rowMissing ∧
    ¬ NoneStranded ((run Life.step (Daemon.off true none false) rowMissing).core.act World.bare
      .hydrate).engine.store := by
  refine ⟨by decide, fun h => ?_⟩
  obtain ⟨job, hjob, heq⟩ := Option.map_eq_some_iff.mp (show
    (((run Life.step (Daemon.off true none false) rowMissing).core.act World.bare
      .hydrate).engine.store.getJob "job_1_3").map (fun job => (job.status, job.dependsOn)) =
        some (.pending, ["job_1_2"]) by decide)
  obtain ⟨d, hd, hopen⟩ := h "job_1_3" job hjob (congrArg Prod.fst heq)
  rw [show job.dependsOn = ["job_1_2"] from congrArg Prod.snd heq, List.mem_singleton] at hd
  subst hd
  revert hopen
  decide

end ZeptoPM
