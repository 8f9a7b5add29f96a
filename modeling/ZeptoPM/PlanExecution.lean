import ZeptoPM.PlanSchedule

/- Which accepted plans can be carried out. Starting jobs and completing them
   makes progress as long as there is anything queued or active, so an acyclic
   plan is brought to its end; a job on a cycle of dependencies waits for ever.
   The validator refuses the cycles of one job only. -/
namespace ZeptoPM
open OrchestratorEngine Relation

/-- Two different jobs of the plan depend on each other, directly or through
others. -/
def ExecutionPlan.Circular (plan : ExecutionPlan) : Prop :=
  ∃ a b, a ≠ b ∧ TransGen plan.DependsOn a b ∧ TransGen plan.DependsOn b a

/-- Starting the next job, and completing an active one. -/
def Advances (e : OrchestratorEngine) (c : World × Call) : Prop :=
  match c.2 with
  | .startNext => True
  | .markCompleted j _ => e.activeJobs.contains j = true
  | _ => False

/-- Some sequence of starts and successful completions completes the jobs. -/
def Executable (e : OrchestratorEngine) (ks : List JobId) : Prop :=
  ∃ sched, Meets engineStep Advances e sched ∧
    ∀ k ∈ ks, (run engineStep e sched).store.isCompleted k = true

section
variable {plan : ExecutionPlan} {e : OrchestratorEngine} {c : World × Call}

theorem Advances.schedule (h : Advances e c) : ScheduleStep e c := by
  obtain ⟨w, c⟩ := c
  cases c <;> first | exact h | exact absurd h id

/-- Among accepted plans, the circular ones are those with a cycle. -/
theorem acyclic_iff_not_circular (hok : plan.Ok) :
    Acyclic plan.DependsOn ↔ ¬ plan.Circular := by
  refine ⟨?_, ?_⟩
  · intro hac h
    obtain ⟨a, b, _, hab, hba⟩ := h
    exact hac a (hab.trans hba)
  · intro hnc a haa
    obtain ⟨b, hab, hba⟩ := TransGen.head'_iff.mp haa
    obtain ⟨spec, hspec, rfl, hb⟩ := hab
    have hne : b ≠ spec.localId := ((hok.job spec hspec).dependsOn b hb).2
    rcases reflTransGen_iff_eq_or_transGen.mp hba with heq | hba
    · exact hne heq.symm
    · exact hnc ⟨spec.localId, b, fun h => hne h.symm, .single ⟨spec, hspec, rfl, hb⟩, hba⟩

/-! ## Starts and completions get work done -/

/-- The starts and completions a job still needs. -/
def JobStatus.work : JobStatus → Nat
  | .pending | .ready => 2
  | .running => 1
  | .completed | .failed | .cancelled => 0

def workLeft (s : RunStore) (k : JobId) : Nat :=
  ((s.getJob k).map (fun j => j.status.work)).getD 0

/-- What a step that starts or completes a job makes of the jobs. -/
theorem advances_job (h : DependableFresh e) (hc : Advances e c) {k : JobId} {job : Job}
    (hk : e.store.getJob k = some job) : ∃ job', (engineStep e c).store.getJob k = some job' ∧
      job'.status.work ≤ job.status.work ∧ (job.status ≠ .failed → job'.status ≠ .failed) := by
  obtain ⟨w, c⟩ := c
  cases c with
  | startNext =>
    show ∃ job', (e.startNext w).2.store.getJob k = some job' ∧ _
    rcases startNext_cases w e with ⟨q, heq, _⟩ | ⟨head, q, _, hq, hhead, heq⟩ <;> rw [heq]
    · exact ⟨job, hk, Nat.le_refl _, fun hf => hf⟩
    · by_cases hkh : k = head.jobId
      · subst hkh
        have hready := (h.1.head hq hhead).1
        rw [hk] at hhead
        cases hhead
        refine ⟨job.start w, ?_, ?_, fun _ => by simp⟩
        · rw [getJob_started, if_pos rfl, hk]
          rfl
        · show JobStatus.work .running ≤ job.status.work
          rw [hready]
          decide
      · exact ⟨job, by rw [getJob_started, if_neg hkh]; exact hk, Nat.le_refl _, fun hf => hf⟩
  | markCompleted j o =>
    have hsome : ∃ job', (e.markCompleted w j o).store.getJob k = some job' := by
      rw [getJob_markCompleted, hk]
      exact ⟨_, rfl⟩
    obtain ⟨job', hk'⟩ := hsome
    refine ⟨job', hk', ?_⟩
    obtain ⟨job₀, hk₀, hcase⟩ := markCompleted_job w e j o hk'
    rw [hk] at hk₀
    cases hk₀
    rcases hcase with ⟨_, rfl⟩ | ⟨_, _, hst, rfl⟩ | ⟨_, _, rfl⟩
    · exact ⟨Nat.zero_le _, fun _ => by simp⟩
    · refine ⟨?_, fun _ hf => by cases hf⟩
      show JobStatus.work .ready ≤ job.status.work
      rw [hst]
      decide
    · exact ⟨Nat.le_refl _, fun hf => hf⟩
  | _ => exact absurd hc id

theorem workLeft_le (h : DependableFresh e) (hc : Advances e c) (k : JobId) :
    workLeft (engineStep e c).store k ≤ workLeft e.store k := by
  unfold workLeft
  cases hk : e.store.getJob k with
  | none =>
    rw [schedule_none hc.schedule hk]
  | some job =>
    obtain ⟨job', hk', hle, _⟩ := advances_job h hc hk
    rw [hk']
    exact hle

/-- Unless nothing is queued and nothing active, some step brings a job forward. -/
theorem exists_advance (h : DependableFresh e) (hn : 1 ≤ e.maxConcurrency) :
    (e.activeJobs.len = 0 ∧ e.readyQueue = []) ∨
      ∃ c k, Advances e c ∧ (∃ job, e.store.getJob k = some job) ∧
        workLeft (engineStep e c).store k < workLeft e.store k := by
  by_cases hact : ∃ j r, e.activeJobs.get j = some r
  · obtain ⟨j, r, hr⟩ := hact
    right
    obtain ⟨job, hjob, hst⟩ := h.1.activeRunning j r hr
    refine ⟨(World.bare, .markCompleted j []), j, HashMap.contains_iff.mpr ⟨r, hr⟩,
      ⟨job, hjob⟩, ?_⟩
    have hself : (engineStep e (World.bare, .markCompleted j [])).store.getJob j =
        some (job.complete World.bare []) := getJob_markCompleted_self World.bare e j [] hjob
    unfold workLeft
    rw [hself, hjob]
    show JobStatus.work .completed < job.status.work
    rw [hst]
    decide
  · have hlen : e.activeJobs.len = 0 := by
      rw [HashMap.len, List.length_eq_zero_iff, List.eq_nil_iff_forall_not_mem]
      intro j hj
      exact hact ⟨j, HashMap.mem_keys.mp hj⟩
    cases hq : e.readyQueue with
    | nil => exact Or.inl ⟨hlen, rfl⟩
    | cons k q =>
      right
      obtain ⟨job, hjob, hst⟩ := (h.1.queueReady k).mp (by rw [hq]; exact List.mem_cons_self)
      have hid := RunStore.jobId_of_getJob hjob
      subst hid
      refine ⟨(World.bare, .startNext), job.jobId, True.intro, ⟨job, hjob⟩, ?_⟩
      have hstart := startNext_head World.bare e (by omega) hq hjob
      have hself : (engineStep e (World.bare, .startNext)).store.getJob job.jobId =
          some (job.start World.bare) := by
        show (e.startNext World.bare).2.store.getJob job.jobId = _
        rw [hstart, getJob_started, if_pos rfl, hjob]
        rfl
      unfold workLeft
      rw [hself, hjob]
      show JobStatus.work .running < job.status.work
      rw [hst]
      decide

variable {r : RunId} {p : JobId} {m : HashMap String JobId}

/-- What starts and completions keep until a plan is carried out: the plan's
state, a free slot once the active jobs are done, no failed job of the plan, and
that the list knows every job there is. -/
structure Advancing (r : RunId) (p : JobId) (plan : ExecutionPlan) (m : HashMap String JobId)
    (l : List JobId) (e : OrchestratorEngine) : Prop where
  state : PlanState r p plan m e
  slots : 1 ≤ e.maxConcurrency
  notFailed : ∀ k ∈ planJobIds plan m, ∀ job, e.store.getJob k = some job → job.status ≠ .failed
  listed : ∀ k job, e.store.getJob k = some job → k ∈ l

theorem advancing_step {l : List JobId} (h : Advancing r p plan m l e) (hc : Advances e c) :
    Advancing r p plan m l (engineStep e c) := by
  have hback : ∀ k job', (engineStep e c).store.getJob k = some job' →
      ∃ job, e.store.getJob k = some job ∧ (job.status ≠ .failed → job'.status ≠ .failed) := by
    intro k job' hk'
    cases hk : e.store.getJob k with
    | none =>
      rw [schedule_none hc.schedule hk] at hk'
      cases hk'
    | some job =>
      obtain ⟨job'', hk'', _, hnf⟩ := advances_job h.state.dependable hc hk
      rw [hk'] at hk''
      cases hk''
      exact ⟨job, rfl, hnf⟩
  refine ⟨?_, ?_, ?_, ?_⟩
  · exact planState_step h.state hc.schedule
  · have hmax : (engineStep e c).maxConcurrency = e.maxConcurrency :=
      maxConcurrency_apply h.state.dependable.1.supervised.home c.2
    rw [hmax]
    exact h.slots
  · intro k hk job' hk'
    obtain ⟨job, hjob, hnf⟩ := hback k job' hk'
    exact hnf (h.notFailed k hk job hjob)
  · intro k job' hk'
    obtain ⟨job, hjob, _⟩ := hback k job' hk'
    exact h.listed k job hjob

/-- An acyclic plan can be carried out: by induction on the work left. -/
theorem executable_of_acyclic (hm : Named plan m) (hac : Acyclic plan.DependsOn)
    {l : List JobId} : ∀ (n : Nat) {e : OrchestratorEngine}, Advancing r p plan m l e →
      (l.map (workLeft e.store)).sum = n → Executable e (planJobIds plan m) := by
  intro n
  induction n using Nat.strong_induction_on with
  | _ n ih =>
    intro e h hn
    rcases exists_advance h.state.dependable h.slots with
      ⟨hact, hq⟩ | ⟨c, k, hc, ⟨job, hjob⟩, hlt⟩
    · have hcl := classified hm h.state hac hact hq
      exact ⟨[], True.intro, (all_completed hm h.state hcl h.notFailed).1⟩
    · have hsum : (l.map (workLeft (engineStep e c).store)).sum <
          (l.map (workLeft e.store)).sum :=
        List.sum_lt_sum _ _ (fun k _ => workLeft_le h.state.dependable hc k)
          ⟨k, h.listed k job hjob, hlt⟩
      obtain ⟨sched, hmeets, hdone⟩ := ih _ (hn ▸ hsum) (advancing_step h hc) rfl
      exact ⟨c :: sched, ⟨hc, hmeets⟩, hdone⟩

/-! ## A job on a cycle never starts -/

/-- The jobs on a cycle of the plan's dependencies are all pending. -/
def Blocked (plan : ExecutionPlan) (m : HashMap String JobId) (e : OrchestratorEngine) : Prop :=
  ∀ a, TransGen plan.DependsOn a a → ∀ k, m.get a = some k →
    ∃ job, e.store.getJob k = some job ∧ job.status = .pending

/-- On a cycle, every element has a successor that is on the cycle too. -/
theorem exists_next_on_cycle {α : Type} {R : α → α → Prop} {a : α} (h : TransGen R a a) :
    ∃ b, R a b ∧ TransGen R b b := by
  obtain ⟨b, hab, hba⟩ := TransGen.head'_iff.mp h
  exact ⟨b, hab, TransGen.tail' hba hab⟩

theorem blocked_step (hm : Named plan m) (h : PlanState r p plan m e)
    (hb : Blocked plan m e) (hc : ScheduleStep e c) : Blocked plan m (engineStep e c) := by
  have h' := planState_step h hc
  have hmove : ∀ a, TransGen plan.DependsOn a a → ∀ k, m.get a = some k →
      ∃ job', (engineStep e c).store.getJob k = some job' ∧
        (job'.status = .pending ∨ job'.status = .ready) := by
    intro a ha k hk
    obtain ⟨job, hjob, hst⟩ := hb a ha k hk
    obtain ⟨job', hjob', hcase⟩ := disciplined_job (w := c.1) (c := c.2) h.dependable.1
      (after_of_startedAt h.dependable.2) hc.disciplined hjob
    refine ⟨job', hjob', ?_⟩
    rcases hcase with ⟨_, hr, _⟩ | ⟨_, rfl | ⟨hs, _⟩⟩
    · rw [hst] at hr
      cases hr
    · exact Or.inl hst
    · cases hs with
      | start hr =>
        rw [hst] at hr
        cases hr
      | complete hr _ =>
        rw [hst] at hr
        cases hr
      | fail hr _ =>
        rw [hst] at hr
        cases hr
      | promote => exact Or.inr rfl
  intro a ha k hk
  obtain ⟨job', hjob', hst⟩ := hmove a ha k hk
  refine ⟨job', hjob', ?_⟩
  rcases hst with hst | hst
  · exact hst
  · -- a ready job has its dependencies completed, but the next job of the cycle is not
    obtain ⟨b, ⟨spec, hspec, rfl, hb⟩, hbb⟩ := exists_next_on_cycle ha
    obtain ⟨k', job'', hk', hjob'', _, hdeps⟩ := h'.job spec hspec
    rw [hk] at hk'
    cases hk'
    rw [hjob'] at hjob''
    cases hjob''
    obtain ⟨c', ⟨spec', hspec', hb', _⟩, _⟩ := exists_next_on_cycle hbb
    obtain ⟨d, hd⟩ := (hm.bound b).mpr (List.mem_map.mpr ⟨spec', hspec', hb'⟩)
    have hmem : d ∈ job'.dependsOn := by
      rw [hdeps, List.mem_filterMap]
      exact ⟨b, hb, hd⟩
    have hdone := h'.dependable.1.satisfied k job' hjob' (by simp [hst]) d hmem
    obtain ⟨dj, hdj, hdst⟩ := hmove b hbb d hd
    rw [isCompleted_eq_false hdj (by rcases hdst with hdst | hdst <;> simp [hdst])] at hdone
    cases hdone

theorem not_executable_of_cycle (hm : Named plan m) (h : PlanState r p plan m e)
    (hb : Blocked plan m e) {a : String} (ha : TransGen plan.DependsOn a a) :
    ¬ Executable e (planJobIds plan m) := by
  intro h
  obtain ⟨sched, hs, hdone⟩ := h
  have hrun := run_invariant (P := fun e => PlanState r p plan m e ∧ Blocked plan m e)
    (fun e c he hc => ⟨planState_step he.1 hc, blocked_step hm he.1 he.2 hc⟩) ⟨h, hb⟩
    (hs.mono (fun _ _ hc => hc.schedule))
  obtain ⟨b, ⟨spec, hspec, rfl, _⟩, _⟩ := exists_next_on_cycle ha
  obtain ⟨k, hk⟩ := (hm.bound spec.localId).mpr (List.mem_map_of_mem hspec)
  obtain ⟨job, hjob, hst⟩ := hrun.2 spec.localId ha k hk
  have hc := hdone k ((mem_planJobIds hm).mpr ⟨spec, hspec, hk⟩)
  rw [isCompleted_eq_false hjob (by simp [hst])] at hc
  cases hc

end

/-! ## Where the planner has just completed -/

section
variable {n : Nat} {e : OrchestratorEngine} {r : RunId} {p : JobId} {plan : ExecutionPlan}
  (h : PlannerActive n e r p) (w₁ w₂ : World) (o : List ArtifactId)
include h

theorem planStart_advancing (hok : plan.Ok) : ∃ l, Advancing r p plan (startIds e w₁ w₂ p o plan) l
    (planStart e w₁ w₂ r p o plan) := by
  obtain ⟨hm, hstate⟩ := planState_start h w₁ w₂ o hok
  refine ⟨((planStart e w₁ w₂ r p o plan).store.jobs.valuesIn .id).map (·.jobId), hstate, ?_, ?_, ?_⟩
  · have hsup := (plannerActive_dependable h).1.1.supervised
    have hmax : (planStart e w₁ w₂ r p o plan).maxConcurrency = e.maxConcurrency :=
      (planStart_created h w₁ w₂ o hok).maxConcurrency.trans (maxConcurrency_markCompleted ..)
    obtain ⟨r', hr'⟩ := HashMap.contains_iff.mp h.active
    have hpos : 1 ≤ e.activeJobs.len := by
      rw [Nat.one_le_iff_ne_zero]
      intro hzero
      rw [HashMap.get_eq_none_of_len hzero] at hr'
      cases hr'
    rw [hmax]
    exact Nat.le_trans hpos hsup.bound
  · intro k hk job hjob hf
    obtain ⟨spec, hspec, hid⟩ := (mem_planJobIds hm).mp hk
    obtain ⟨id, job', hid', hjob', _, _, hst⟩ := planStart_job h w₁ w₂ o hok hspec
    rw [hid] at hid'
    cases hid'
    rw [hjob] at hjob'
    cases hjob'
    rcases hst with ⟨hst, _⟩ | hst <;> simp [hst] at hf
  · intro k job hjob
    have hid := RunStore.jobId_of_getJob hjob
    subst hid
    exact List.mem_map_of_mem (Table.mem_valuesIn.mpr hjob)

theorem planStart_blocked (hok : plan.Ok) :
    Blocked plan (startIds e w₁ w₂ p o plan) (planStart e w₁ w₂ r p o plan) := by
  intro a ha k hk
  obtain ⟨hm, _⟩ := planState_start h w₁ w₂ o hok
  obtain ⟨b, ⟨spec, hspec, rfl, hb⟩, hbb⟩ := exists_next_on_cycle ha
  obtain ⟨id, job, hid, hjob, _, hdeps, hst⟩ := planStart_job h w₁ w₂ o hok hspec
  rw [hk] at hid
  cases hid
  refine ⟨job, hjob, ?_⟩
  rcases hst with ⟨_, hnil⟩ | hst
  · -- a job on a cycle has a dependency, so it was not created ready
    obtain ⟨c, ⟨spec', hspec', hb', _⟩, _⟩ := exists_next_on_cycle hbb
    obtain ⟨d, hd⟩ := (hm.bound b).mpr (List.mem_map.mpr ⟨spec', hspec', hb'⟩)
    have hmem : d ∈ job.dependsOn := by
      rw [hdeps, List.mem_filterMap]
      exact ⟨b, hb, hd⟩
    rw [hnil] at hmem
    cases hmem
  · exact hst

end

/-- Of the plans the validator accepts, those without two jobs that depend on
each other are acyclic and can be carried out from their materialised state, and
the others are neither. -/
theorem accepted_plan_executable_iff {n : Nat} {e : OrchestratorEngine} {r : RunId} {p : JobId}
    (h : PlannerActive n e r p) (w₁ w₂ : World) (o : List ArtifactId) {plan : ExecutionPlan}
    (hval : validatePlan plan = []) :
    (Acyclic plan.DependsOn ↔ ¬ plan.Circular) ∧
      (Executable (planStart e w₁ w₂ r p o plan)
        (planJobIds plan (startIds e w₁ w₂ p o plan)) ↔ ¬ plan.Circular) := by
  have hok := validatePlan_eq_nil.mp hval
  obtain ⟨hm, hstate⟩ := planState_start h w₁ w₂ o hok
  refine ⟨acyclic_iff_not_circular hok, ?_⟩
  refine ⟨?_, ?_⟩
  · intro hex h
    obtain ⟨a, b, _, hab, hba⟩ := h
    exact not_executable_of_cycle hm hstate (planStart_blocked h w₁ w₂ o hok) (hab.trans hba) hex
  · intro hnc
    obtain ⟨l, hadv⟩ := planStart_advancing h w₁ w₂ o hok
    exact executable_of_acyclic hm ((acyclic_iff_not_circular hok).mpr hnc) _ hadv rfl

theorem accepted_plan_executable_chain :
    Executable (planStart chainPlanner World.bare World.bare "run_0_0" "job_0_1" [] chainPlan)
      (planJobIds chainPlan (startIds chainPlanner World.bare World.bare "job_0_1" [] chainPlan)) :=
  ((accepted_plan_executable_iff
    (plannerActive_submitted (Nat.le_refl 1) World.bare World.bare "task") World.bare World.bare []
    (by decide)).2).mpr
    ((acyclic_iff_not_circular (validatePlan_eq_nil.mp (by decide))).mp chainPlan_acyclic)

/-- Two jobs that wait for each other. -/
def circularPlan : ExecutionPlan where
  jobs :=
    [{ localId := "a", role := "coder", profileId := "coder", instruction := "write",
       dependsOn := ["b"] },
     { localId := "b", role := "tester", profileId := "tester", instruction := "test",
       dependsOn := ["a"] }]
  channels := []

/-- The validator accepts a plan that has a cycle and cannot be carried out. -/
theorem validatePlan_accepts_circularPlan : validatePlan circularPlan = [] ∧
    ¬ Acyclic circularPlan.DependsOn ∧
    ¬ Executable (planStart chainPlanner World.bare World.bare "run_0_0" "job_0_1" [] circularPlan)
      (planJobIds circularPlan
        (startIds chainPlanner World.bare World.bare "job_0_1" [] circularPlan)) := by
  have hval : validatePlan circularPlan = [] := by decide
  have hok := validatePlan_eq_nil.mp hval
  have hactive := plannerActive_submitted (Nat.le_refl 1) World.bare World.bare "task"
  have hab : circularPlan.DependsOn "a" "b" :=
    ⟨_, List.mem_cons_self, rfl, List.mem_cons_self⟩
  have hba : circularPlan.DependsOn "b" "a" :=
    ⟨_, List.mem_cons_of_mem _ List.mem_cons_self, rfl, List.mem_cons_self⟩
  have hcycle : TransGen circularPlan.DependsOn "a" "a" := .tail (.single hab) hba
  obtain ⟨hm, hstate⟩ := planState_start hactive World.bare World.bare [] hok
  exact ⟨hval, fun hac => hac "a" hcycle, not_executable_of_cycle hm hstate
    (planStart_blocked hactive World.bare World.bare [] hok) hcycle⟩

end ZeptoPM
