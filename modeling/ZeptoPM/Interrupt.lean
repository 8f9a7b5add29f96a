import ZeptoPM.Runs

/- A process that is killed. `persist_run_state` issues its statements one by one and in
   no transaction, so what is on disk afterwards is a prefix of them: the run's row, some
   of its jobs', some of its channels'. `Life` lets the daemon handle inputs and be killed
   in the middle of handling one; whatever the prefix, engine and database stay sound. -/
namespace ZeptoPM
open OrchestratorEngine

/-! ## The statements one by one -/

namespace SqlitePersistence

section
variable {db : SqlitePersistence}

theorem getRun_persistRun (run : Run) (k : RunId) :
    (db.persistRun run).getRun k = if k = run.runId then some run else db.getRun k := by
  have hget : (db.persistRun run).runs.get k =
      if k = run.runId then some run.toRow else db.runs.get k := Table.get_put ..
  rw [getRun, hget]
  split
  · exact congrArg some (Run.ofRow_toRow run)
  · rfl

theorem getJob_persistJob (job : Job) (k : JobId) :
    (db.persistJob job).getJob k = if k = job.jobId then some job else db.getJob k := by
  have hget : (db.persistJob job).jobs.get k =
      if k = job.jobId then some job.toRow else db.jobs.get k := Table.get_put ..
  rw [getJob, hget]
  split
  · exact congrArg some (Job.ofRow_toRow job)
  · rfl

theorem getChannel_persistChannel (ch : Channel) (k : ChannelId) :
    (db.persistChannel ch).getChannel k =
      if k = ch.channelId then some ch else db.getChannel k := by
  have hget : (db.persistChannel ch).channels.get k =
      if k = ch.channelId then some ch.toRow else db.channels.get k := Table.get_put ..
  rw [getChannel, hget]
  split
  · exact congrArg some (Channel.ofRow_toRow ch)
  · rfl

/-- The ids of the jobs whose rows are written. -/
def jobIds (l : List Write) : List JobId :=
  l.filterMap (fun x => match x with
    | .job job => some job.jobId
    | _ => none)

theorem mem_jobIds {l : List Write} {k : JobId} :
    k ∈ jobIds l ↔ ∃ job, .job job ∈ l ∧ job.jobId = k := by
  unfold jobIds
  rw [List.mem_filterMap]
  refine ⟨?_, ?_⟩
  · intro ⟨x, hx, hk⟩
    cases x with
    | job job => exact ⟨job, hx, Option.some.inj hk⟩
    | run run => cases hk
    | channel ch => cases hk
  · intro ⟨job, hx, hk⟩
    exact ⟨.job job, hx, congrArg some hk⟩

/-- After some of a store's statements, the rows written are as in the store and the
others as before. -/
theorem getJob_execute {s : RunStore} (l : List Write) :
    ∀ db : SqlitePersistence, (∀ job, .job job ∈ l → s.getJob job.jobId = some job) →
      ∀ k, (l.foldl execute db).getJob k = if k ∈ jobIds l then s.getJob k else db.getJob k := by
  induction l with
  | nil => exact fun _ _ _ => rfl
  | cons x l ih =>
    intro db h k
    have hrest := ih (db.execute x) (fun job hjob => h job (List.mem_cons_of_mem _ hjob)) k
    rw [List.foldl_cons, hrest]
    by_cases hk : k ∈ jobIds l
    · rw [if_pos hk, if_pos]
      obtain ⟨job, hjob, hid⟩ := mem_jobIds.mp hk
      exact mem_jobIds.mpr ⟨job, List.mem_cons_of_mem _ hjob, hid⟩
    · rw [if_neg hk]
      cases x with
      | job job =>
        have hget : (db.execute (.job job)).getJob k =
            if k = job.jobId then some job else db.getJob k := getJob_persistJob job k
        rw [hget]
        by_cases hkj : k = job.jobId
        · rw [if_pos hkj, if_pos, hkj]
          · exact (h job List.mem_cons_self).symm
          · exact mem_jobIds.mpr ⟨job, List.mem_cons_self, hkj.symm⟩
        · rw [if_neg hkj, if_neg]
          intro hmem
          obtain ⟨job', hjob', hid⟩ := mem_jobIds.mp hmem
          cases hjob' with
          | head => exact hkj hid.symm
          | tail _ hjob' => exact hk (mem_jobIds.mpr ⟨job', hjob', hid⟩)
      | run run => exact (if_neg hk).symm
      | channel ch => exact (if_neg hk).symm

theorem job_mem_writes {w : World} {s : RunStore} {r : RunId} {job : Job}
    (h : .job job ∈ writes w s r) : s.getJob job.jobId = some job ∧ job.runId = r := by
  unfold writes at h
  simp only [List.mem_append, List.mem_map, reduceCtorEq, and_false, exists_false, or_false,
    false_or, Write.job.injEq] at h
  obtain ⟨_, hmem, rfl⟩ := h
  exact RunStore.mem_listRunJobs.mp hmem

end

end SqlitePersistence

open SqlitePersistence

/-! ## Part of a run on disk -/

/-- The statement refers to what is in the store and, where it is to hold, on disk. -/
def Anchored (e : OrchestratorEngine) (db : SqlitePersistence) : Write → Prop
  | .run run => e.store.getRun run.runId = some run
  | .job job => e.store.getJob job.jobId = some job ∧ ∃ run, db.getRun job.runId = some run
  | .channel ch => (∃ run, db.getRun ch.runId = some run) ∧
      ∀ p ∈ ch.participants, ∃ job, db.getJob p = some job ∧ job.runId = ch.runId

section
variable {w : World} {e : OrchestratorEngine} {db : SqlitePersistence} {r : RunId}

theorem image_execute {x : Write} (h : Image db e) (hx : Anchored e db x) :
    Image (db.execute x) e := by
  cases x with
  | run r₀ =>
    have hget : ∀ k, (db.execute (.run r₀)).getRun k =
        if k = r₀.runId then some r₀ else db.getRun k := getRun_persistRun r₀
    have hrun : ∀ k, (∃ run, db.getRun k = some run) →
        ∃ run, (db.execute (.run r₀)).getRun k = some run := by
      intro k hk
      rw [hget]
      split
      · exact ⟨r₀, rfl⟩
      · exact hk
    refine ⟨fun k run hk => ?_, fun k job hk => ?_, fun k ch hk => ?_⟩
    · rw [hget] at hk
      split at hk
      · rename_i hkr
        exact ⟨r₀, hkr ▸ hx⟩
      · exact h.run k run hk
    · exact ⟨(h.job k job hk).1, hrun _ (h.job k job hk).2⟩
    · exact ⟨hrun _ (h.channel k ch hk).1, (h.channel k ch hk).2⟩
  | job job =>
    have hget : ∀ k, (db.execute (.job job)).getJob k =
        if k = job.jobId then some job else db.getJob k := getJob_persistJob job
    refine ⟨h.run, fun k job' hk => ?_, fun k ch hk => ⟨(h.channel k ch hk).1, fun p hp => ?_⟩⟩
    · rw [hget] at hk
      split at hk
      · rename_i hkj
        cases hk
        exact ⟨⟨job, hkj ▸ hx.1, rfl⟩, hx.2⟩
      · exact h.job k job' hk
    · obtain ⟨jobp, hjobp, hr⟩ := (h.channel k ch hk).2 p hp
      rw [hget]
      split
      · rename_i hpj
        obtain ⟨⟨job', hjob', hr'⟩, _⟩ := h.job p jobp hjobp
        rw [hpj, hx.1] at hjob'
        cases hjob'
        exact ⟨job, rfl, hr'.trans hr⟩
      · exact ⟨jobp, hjobp, hr⟩
  | channel ch =>
    have hget : ∀ k, (db.execute (.channel ch)).getChannel k =
        if k = ch.channelId then some ch else db.getChannel k := getChannel_persistChannel ch
    refine ⟨h.run, h.job, fun k ch' hk => ?_⟩
    rw [hget] at hk
    split at hk
    · cases hk
      exact hx
    · exact h.channel k ch' hk

/-- Statements for jobs whose run is on disk. -/
theorem anchored_jobs (l : List Job) : ∀ db : SqlitePersistence,
    (∃ run, db.getRun r = some run) →
    (∀ job ∈ l, e.store.getJob job.jobId = some job ∧ job.runId = r) →
      Meets execute (Anchored e) db (l.map .job) := by
  induction l with
  | nil => exact fun _ _ _ => True.intro
  | cons job l ih =>
    intro db hrun hl
    obtain ⟨hjob, hr⟩ := hl job List.mem_cons_self
    exact ⟨⟨hjob, hr ▸ hrun⟩, ih (db.persistJob job) hrun
      (fun job' hmem => hl job' (List.mem_cons_of_mem _ hmem))⟩

/-- Statements for channels whose run and participants are on disk. -/
theorem anchored_channels (l : List Channel) : ∀ db : SqlitePersistence,
    (∀ ch ∈ l, Anchored e db (.channel ch)) → Meets execute (Anchored e) db (l.map .channel) := by
  induction l with
  | nil => exact fun _ _ => True.intro
  | cons ch l ih =>
    intro db hl
    exact ⟨hl ch List.mem_cons_self, ih (db.persistChannel ch)
      (fun ch' hmem => hl ch' (List.mem_cons_of_mem _ hmem))⟩

/-- Each statement of `persist_run_state` finds on disk what it refers to. -/
theorem anchored_writes (hg : Grounded e) (w : World) (db : SqlitePersistence) (r : RunId) :
    Meets execute (Anchored e) db (writes w e.store r) := by
  unfold writes
  rw [Meets.append, Meets.append, run_append]
  generalize hdb₁ : run execute db ((e.store.getRun r).toList.map .run) = db₁
  -- a run with jobs or channels has been written
  have hrun : (∃ run, e.store.getRun r = some run) → ∃ run, db₁.getRun r = some run := by
    intro ⟨run, hrun⟩
    have hid := RunStore.runId_of_getRun hrun
    refine ⟨run, ?_⟩
    rw [← hdb₁, hrun]
    exact (getRun_persistRun run r).trans (if_pos hid.symm)
  have hjobs : ∀ job ∈ e.store.listRunJobs w r,
      e.store.getJob job.jobId = some job ∧ job.runId = r :=
    fun job hjob => RunStore.mem_listRunJobs.mp hjob
  refine ⟨⟨?_, ?_⟩, ?_⟩
  · cases hrun : e.store.getRun r with
    | none => exact True.intro
    | some run =>
      have hid := RunStore.runId_of_getRun hrun
      exact ⟨show e.store.getRun run.runId = some run from hid ▸ hrun, True.intro⟩
  · cases hl : e.store.listRunJobs w r with
    | nil => exact True.intro
    | cons job l =>
      rw [← hl]
      obtain ⟨hjob, hr⟩ := hjobs job (hl ▸ List.mem_cons_self)
      exact anchored_jobs _ _ (hrun (hr ▸ hg.runOf _ job hjob)) hjobs
  · refine anchored_channels _ _ (fun ch hch => ?_)
    obtain ⟨hget, hr⟩ := RunStore.mem_listRunChannels.mp hch
    obtain ⟨hsome, hparts⟩ := hg.channelHome _ ch hget
    have hdb₂ : run execute db₁ ((e.store.listRunJobs w r).map .job) =
        { db₁ with jobs := db₁.jobs.putAll ((e.store.listRunJobs w r).map Job.toRow) } :=
      execute_jobs _ db₁
    refine ⟨?_, fun p hp => ?_⟩
    · rw [hdb₂, hr]
      exact hrun (hr ▸ hsome)
    · obtain ⟨job, hjob, hjr⟩ := hparts p hp
      have hid := RunStore.jobId_of_getJob hjob
      refine ⟨job, ?_, hjr⟩
      have hmem : p ∈ jobIds ((e.store.listRunJobs w r).map .job) := by
        refine mem_jobIds.mpr ⟨job, List.mem_map_of_mem ?_, hid⟩
        exact RunStore.mem_listRunJobs.mpr ⟨hid.symm ▸ hjob, hjr.trans hr⟩
      refine (getJob_execute (s := e.store) _ db₁ ?_ p).trans ?_
      · intro job' hjob'
        obtain ⟨job'', hmem', heq⟩ := List.mem_map.mp hjob'
        cases heq
        exact (hjobs job' hmem').1
      · rw [if_pos hmem, hjob]

/-- What is on disk after some of the statements is still an image of the engine. -/
theorem image_take (hg : Grounded e) (h : Image db e) (w : World) (r : RunId) (n : Nat) :
    Image (((writes w e.store r).take n).foldl execute db) e := by
  have hall := anchored_writes hg w db r
  rw [← List.take_append_drop n (writes w e.store r), Meets.append] at hall
  exact run_invariant (P := fun db => Image db e) (fun _ _ => image_execute) h hall.1

end

/-! ## Lives of the process -/

/-- An input is handled, or the process is killed while it handles it: after `m` actions
and, if it was about to persist a run, after `n` statements of that. -/
inductive Life where
  | handled (x : World × Input)
  | killed (x : World × Input) (m n : Nat)

/-- Engine and database at the moment the process is killed, `next` being the action that
is not taken any more, or of which `n` statements are. -/
def Core.cut (c : Core) (next : Option (World × Action)) (n : Nat) : Core :=
  match next with
  | some (w, .persistRunState r) =>
    { c with db := c.db.map (((writes w c.engine.store r).take n).foldl execute) }
  | _ => c

/-- After `m` of the actions. -/
def Core.interrupted (c : Core) (l : List (World × Action)) (m n : Nat) : Core :=
  (run coreStep c (l.take m)).cut l[m]? n

def Life.step (d : Daemon) : Life → Daemon
  | .handled x => d.step x
  | .killed x m n =>
    { d.step x with
      alive := false
      core := d.core.interrupted (d.step x).calls m n
      sent := []
      calls := [] }

theorem sound_cut {c : Core} (hs : Sound c) (next : Option (World × Action)) (n : Nat) :
    Sound (c.cut next n) := by
  unfold Core.cut
  split
  · rename_i w r
    refine ⟨hs.grounded, fun db hdb => ?_⟩
    obtain ⟨db₀, hdb₀, rfl⟩ := Option.map_eq_some_iff.mp hdb
    exact image_take hs.grounded (hs.image db₀ hdb₀) w r n
  · exact hs

end ZeptoPM
