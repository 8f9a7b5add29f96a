import ZeptoPM.LateEvents
import ZeptoPM.Quiet
import ZeptoPM.Traversal

/- Queued jobs and free slots. The spawn loop at the end of a handler leaves no job
   queued while a slot is free, provided that it knows every id in the queue
   (`idle_finish`). What adds to the queue or frees a slot without that loop is the
   start of the process and a cancellation. -/
namespace ZeptoPM
open OrchestratorEngine Daemon

/-! ## Work conservation -/

/-- No queued job waits while a slot is free. -/
def Conserving (e : OrchestratorEngine) : Prop :=
  e.readyQueue = [] ∨ e.activeJobs.len = e.maxConcurrency

/-- Whether the job is queued when it is loaded. -/
def Job.resumes (job : Job) : Bool :=
  job.status == .ready || (job.status == .running && job.retries)

/-- A cancellation of the run is refused, or frees no slot, or leaves no job queued. -/
def OrchestratorEngine.CancelsQuietly (e : OrchestratorEngine) (r : RunId) : Prop :=
  (∀ run, e.store.getRun r = some run → run.status ≠ .running ∧ run.status ≠ .pending) ∨
    (∀ k, e.Cancels r k → e.activeJobs.get k = none) ∨
    ∀ k ∈ e.readyQueue, ∃ job, e.store.getJob k = some job ∧ job.runId = r

/-- No run is removed while a job of it is queued. -/
def KeepsQueued (c : Core) (x : World × Action) : Prop :=
  match x.2 with
  | .expire r => c.engine.NoneQueued r
  | _ => True

/-- A start finds no job to queue in the database, a cancellation frees no slot for a job
that is queued, and a poll tick removes no run that has a job queued. -/
def LeavesNoneWaiting (d : Daemon) (x : World × Input) : Prop :=
  match x.2 with
  | .start => ∀ config db, x.1.startConfig = some config → d.core.db = some db →
      ∀ k job, db.getJob k = some job → job.resumes = false
  | .command (.cancelRun r) => d.alive = true → d.engine.CancelsQuietly r
  | .tick => d.alive = true → Meets coreStep KeepsQueued d.core (d.step x).calls
  | _ => True

/-! ## Slots and known jobs -/

/-- No more slots are taken than there are, and each id in the queue is that of a job. -/
structure Steady (e : OrchestratorEngine) : Prop where
  bound : e.activeJobs.len ≤ e.maxConcurrency
  known : ∀ k ∈ e.readyQueue, ∃ job, e.store.getJob k = some job

section
variable {w : World} {e e' : OrchestratorEngine} {r : RunId} {d d' : Daemon}

/-- No slot is taken, no job lost, and nothing queued but jobs. -/
theorem Steady.step (h : Steady e) (hlen : e'.activeJobs.len ≤ e.activeJobs.len)
    (hmax : e'.maxConcurrency = e.maxConcurrency)
    (hjob : ∀ k job, e.store.getJob k = some job → ∃ job', e'.store.getJob k = some job')
    (hq : ∀ k ∈ e'.readyQueue, k ∈ e.readyQueue ∨ ∃ job, e'.store.getJob k = some job) :
    Steady e' := by
  refine ⟨?_, ?_⟩
  · rw [hmax]
    exact Nat.le_trans hlen h.bound
  · intro k hk
    rcases hq k hk with hold | hnew
    · obtain ⟨job, hjob₀⟩ := h.known k hold
      exact hjob k job hjob₀
    · exact hnew

theorem Steady.frame (h : Steady e) (hf : Frame e e') : Steady e' :=
  h.step (by rw [hf.activeJobs]) hf.maxConcurrency (fun k job hk => ⟨job, (hf.getJob k).trans hk⟩)
    (fun k hk => Or.inl (hf.readyQueue ▸ hk))

theorem getJob_createJob_some {s : RunStore} {job : Job} {k : JobId}
    (h : ∃ job', s.getJob k = some job') : ∃ job', (s.createJob job).getJob k = some job' := by
  rw [RunStore.getJob_createJob]
  split
  · exact ⟨job, rfl⟩
  · exact h

theorem steady_nextJob (h : Steady e) : Steady e.nextJob.2 := by
  rcases nextJob_cases e with ⟨q, heq, hq⟩ | ⟨job, q, hlen, hq, _, heq⟩
  · rw [heq]
    refine h.step (Nat.le_refl _) rfl (fun k job hk => ⟨job, hk⟩) ?_
    intro k hk
    rcases hq with rfl | ⟨j, hq, _⟩
    · exact Or.inl hk
    · exact Or.inl (hq ▸ List.mem_cons_of_mem j hk)
  · rw [heq]
    refine ⟨Nat.le_trans (HashMap.len_insert_le ..) hlen, ?_⟩
    intro k hk
    exact h.known k (hq ▸ List.mem_cons_of_mem job.jobId hk)

theorem steady_markRunning (h : Steady e) (j : JobId) : Steady (e.markRunning w j) := by
  unfold markRunning
  split
  · exact h
  · rename_i r _
    refine h.step (Nat.le_refl _) rfl ?_ (fun k hk => Or.inl hk)
    intro k job hk
    have hget := RunStore.getJob_alterJob e.store j k (Job.start w) (Job.start_jobId w)
    show ∃ job', (e.store.alterJob j (Job.start w) (Job.start_jobId w)).getJob k = some job'
    rw [hget]
    split
    · rename_i hkj
      exact ⟨job.start w, by rw [← hkj, hk]; rfl⟩
    · exact ⟨job, hk⟩

theorem steady_markCompleted (h : Steady e) (j : JobId) (o : List ArtifactId) :
    Steady (e.markCompleted w j o) := by
  have hkeep : ∀ k job, e.store.getJob k = some job →
      ∃ job', (e.markCompleted w j o).store.getJob k = some job' := by
    intro k job hk
    exact ⟨_, by rw [getJob_markCompleted, hk]; rfl⟩
  refine h.step ?_ (by simp) hkeep ?_
  · rw [activeJobs_markCompleted]
    exact HashMap.len_remove_le ..
  · intro k hk
    rw [readyQueue_markCompleted] at hk
    rcases List.mem_append.mp hk with hk | hk
    · exact Or.inl hk
    · obtain ⟨_, job, _, _, hjob, _⟩ := (mem_promotedIds w e j o).mp hk
      exact Or.inr (hkeep k job hjob)

theorem getJob_markFailed_some (j : JobId) (err : String) {k : JobId} {job : Job}
    (hk : e.store.getJob k = some job) :
    ∃ job', (e.markFailed w j err).store.getJob k = some job' ∧ job'.runId = job.runId := by
  rw [getJob_markFailed]
  split
  · rename_i hkj
    exact ⟨job.fail w err, by rw [← hkj, hk]; rfl, Job.fail_runId ..⟩
  · exact ⟨job, hk, rfl⟩

theorem steady_markFailed (h : Steady e) (j : JobId) (err : String) :
    Steady (e.markFailed w j err) := by
  have hkeep : ∀ k job, e.store.getJob k = some job →
      ∃ job', (e.markFailed w j err).store.getJob k = some job' := by
    intro k job hk
    obtain ⟨job', hjob', _⟩ := getJob_markFailed_some (w := w) j err hk
    exact ⟨job', hjob'⟩
  refine h.step ?_ (by simp) hkeep ?_
  · rw [activeJobs_markFailed]
    exact HashMap.len_remove_le ..
  · intro k hk
    rw [readyQueue_markFailed] at hk
    split at hk
    · rename_i hreq
      rcases List.mem_append.mp hk with hk | hk
      · exact Or.inl hk
      · rw [List.mem_singleton.mp hk]
        obtain ⟨job, hjob, _⟩ := (requeues_iff e j).mp hreq
        exact Or.inr (hkeep j job hjob)
    · exact Or.inl hk

/-- What a cancellation that is not refused leaves. -/
theorem cancelRun_open (w : World) (e : OrchestratorEngine) (r : RunId) :
    (e.cancelRun w r).2 = e ∨
      (∃ run, e.store.getRun r = some run ∧ (run.status = .running ∨ run.status = .pending)) ∧
        (e.cancelRun w r).2 =
          (((e.jobsToCancel w r).foldl (cancelJob w) (e, 0)).1).finishCancel w r := by
  unfold OrchestratorEngine.cancelRun
  cases hrun : e.store.getRun r with
  | none => exact Or.inl rfl
  | some run =>
    dsimp only
    split
    · exact Or.inl rfl
    · rename_i hopen
      refine Or.inr ⟨⟨run, rfl, ?_⟩, rfl⟩
      by_contra hno
      rw [not_or] at hno
      exact hopen (by simp [hno])

/-- What every failure of a job of the list keeps, the loop of a cancellation keeps. -/
theorem cancelJobs_keep {P : OrchestratorEngine → Prop} (l : List (JobId × JobStatus))
    (hP : ∀ e, ∀ entry ∈ l, entry.2.unfinished = true → P e →
      P (e.markFailed w entry.1 "cancelled by user")) :
    ∀ (e : OrchestratorEngine) (n : Nat), P e → P (l.foldl (cancelJob w) (e, n)).1 := by
  induction l with
  | nil => exact fun _ _ h => h
  | cons entry l ih =>
    intro e n h
    rw [List.foldl_cons]
    have hrest := ih (fun e entry' hmem => hP e entry' (List.mem_cons_of_mem _ hmem))
    unfold cancelJob
    split
    · rename_i hst
      exact hrest _ _ (hP e entry List.mem_cons_self hst h)
    · exact hrest _ _ h

theorem steady_finishCancel (h : Steady e) (r : RunId) : Steady (e.finishCancel w r) :=
  h.step (Nat.le_refl _) rfl (fun _ job hk => ⟨job, hk⟩)
    (fun _ hk => Or.inl (List.mem_of_mem_filter hk))

theorem steady_cancelRun (h : Steady e) (r : RunId) : Steady (e.cancelRun w r).2 := by
  rcases cancelRun_open w e r with heq | ⟨_, heq⟩ <;> rw [heq]
  · exact h
  · exact steady_finishCancel (cancelJobs_keep (P := Steady) _
      (fun e entry _ _ h => steady_markFailed h entry.1 _) e 0 h) r

theorem steady_materialize (h : Steady e) (r : RunId) (p : JobId) (plan : ExecutionPlan) :
    Steady (e.materialize w r p plan) := by
  refine h.step (Nat.le_refl _) rfl ?_ (fun _ hk => Or.inl hk)
  intro k job hk
  by_cases hmem : k ∈ (ZeptoPM.materializePlan w e.store e.ids r p plan).1
  · exact Option.isSome_iff_exists.mp (Table.get_putAll_isSome hmem)
  · exact ⟨job, (getJob_materializePlan_of_notMem hmem).trans hk⟩

/-- Every call but the removal of a run keeps an engine steady. -/
theorem steady_apply (h : Steady e) (c : Call) (hc : ∀ r, c ≠ .removeRun r) :
    Steady (c.apply w e) := by
  cases c with
  | submitRun task =>
    refine h.step (Nat.le_refl _) rfl (fun k job hk => getJob_createJob_some ⟨job, hk⟩) ?_
    intro k hk
    rcases List.mem_append.mp hk with hk | hk
    · exact Or.inl hk
    · rw [List.mem_singleton.mp hk]
      exact Or.inr ⟨_, (RunStore.getJob_createJob ..).trans (if_pos rfl)⟩
  | nextJob => exact steady_nextJob h
  | markRunning j => exact steady_markRunning h j
  | startNext =>
    have hnext := steady_nextJob h
    show Steady (e.startNext w).2
    unfold startNext
    rcases hjob : e.nextJob with ⟨_ | job, e'⟩ <;> rw [hjob] at hnext
    · exact hnext
    · exact steady_markRunning hnext job.jobId
  | recordHeartbeat j =>
    show Steady (e.recordHeartbeat w j)
    unfold recordHeartbeat
    split
    · exact h.frame ⟨fun _ => rfl, fun _ => rfl, rfl, rfl, rfl, rfl⟩
    · exact h
  | markCompleted j o => exact steady_markCompleted h j o
  | markFailed j err => exact steady_markFailed h j err
  | materializePlan r p plan => exact steady_materialize h r p plan
  | acceptPlan r p plan =>
    have hm := steady_materialize (w := w) h r p plan
    refine ⟨hm.bound, ?_⟩
    intro k hk
    rcases List.mem_append.mp hk with hk | hk
    · exact hm.known k hk
    · have hready : (((e.acceptPlan w r p plan).store.getJob k).map
          (fun j => j.status == .ready)).getD false = true := (List.mem_filter.mp hk).2
      cases hget : (e.acceptPlan w r p plan).store.getJob k with
      | none =>
        rw [hget] at hready
        cases hready
      | some job => exact ⟨job, hget⟩
  | handleReviewCompletion j dec m =>
    show Steady (e.handleReviewCompletion w j dec m).2
    rcases review_cases w e j dec m with heq | ⟨rev, coder, fb, _, _, _, _, heq⟩ <;> rw [heq]
    · exact h
    · refine h.step (Nat.le_refl _) rfl
        (fun k job hk => getJob_createJob_some (getJob_createJob_some ⟨job, hk⟩)) ?_
      intro k hk
      rcases List.mem_append.mp hk with hk | hk
      · exact Or.inl hk
      · rw [List.mem_singleton.mp hk]
        exact Or.inr (getJob_createJob_some ⟨_, (RunStore.getJob_createJob ..).trans (if_pos rfl)⟩)
  | activateReadyChannels => exact h.frame channelStep_activate.frame
  | routeChannelMessage ch j m => exact h.frame (channelStep_route ch j m).frame
  | handleChannelDone ch j => exact h.frame (channelStep_done ch j).frame
  | handleChannelPeerFailure ch j => exact h.frame (channelStep_peerFailure ch j).frame
  | createArtifact a => exact h.frame ⟨fun _ => rfl, fun _ => rfl, rfl, rfl, rfl, rfl⟩
  | cancelRun r => exact steady_cancelRun h r
  | removeRun r => exact absurd rfl (hc r)

theorem steady_expire (h : Steady e) {r : RunId} (hr : e.NoneQueued r) :
    Steady (e.removeRun w r) := by
  refine ⟨h.bound, ?_⟩
  intro k hk
  obtain ⟨job, hjob⟩ := h.known k hk
  exact ⟨job, getJob_expire.mpr ⟨hjob, hr k hk job hjob⟩⟩

theorem steady_act {c : Core} (h : Steady c.engine) {a : Action} (ha : a.keeps = true) :
    Steady (c.act w a).engine := by
  cases a with
  | call r f =>
    refine steady_apply h f ?_
    intro r' hf
    subst hf
    cases ha
  | persistRunState r => exact h
  | persistArtifact artifact => exact h
  | genId pre => exact ⟨h.bound, h.known⟩
  | expire r => cases ha
  | hydrate => cases ha

theorem steady_hydrate (c : Core) : Steady (c.act w .hydrate).engine := by
  obtain ⟨e, db⟩ := c
  cases db with
  | none =>
    refine ⟨Nat.zero_le _, ?_⟩
    intro k hk
    cases hk
  | some db =>
    refine ⟨Nat.zero_le _, ?_⟩
    intro k hk
    obtain ⟨job, hjob, _⟩ := mem_readyQueue_hydrate.mp hk
    exact ⟨job, hjob⟩

theorem elementary_steady (w : World) :
    Elementary w (fun d d' => Steady d.engine → Steady d'.engine) where
  refl := fun _ h => h
  trans := fun h h' hd => h' (h hd)
  act := fun _ _ ha h => steady_act h ha
  send := fun _ _ h => h
  removeWorker := fun _ _ h => h
  spawnJobWorker := fun d job h => (untouched_spawnJobWorker w d job).engine.symm ▸ h
  startAgent := fun d name h => (untouched_startAgent d name).engine.symm ▸ h
  restartAgent := fun d name h => (untouched_restartAgent d name).engine.symm ▸ h
  reloadConfig := fun d h => (untouched_reloadConfig w d).engine.symm ▸ h
  cleaned := fun _ _ h => h
  restartAgents := fun d h => (untouched_restartAgents w d).engine.symm ▸ h

/-! ## The spawn loop -/

/-- The loop ends where no slot is free or no job queued. -/
theorem idle_spawnReady (fuel : Nat) : ∀ d : Daemon, Steady d.engine →
    d.engine.readyQueue.length < fuel → (spawnReady w r fuel d).engine.Idle := by
  induction fuel with
  | zero => exact fun d _ hlen => absurd hlen (Nat.not_lt_zero _)
  | succ fuel ih =>
    intro d h hlen
    rcases startNext_idle_cases w d.engine with
      ⟨hidle, heq⟩ | ⟨k, q, hq, hnone, heq⟩ | ⟨job, q, hq, _, heq⟩
    · rw [spawnReady_none heq, engine_act_startNext heq]
      exact hidle
    · -- the id would not be that of a job
      obtain ⟨job, hjob⟩ := h.known k (hq ▸ List.mem_cons_self)
      rw [hnone] at hjob
      cases hjob
    · obtain ⟨d', hd', hloop⟩ := spawnReady_some (r := r) heq
      have hsteady : Steady (d.engine.startNext w).2 :=
        steady_apply h .startNext (fun r h => (by cases h))
      rw [heq] at hsteady
      rw [hloop]
      apply ih d'
      · rw [hd']
        exact hsteady
      · rw [hd', readyQueue_started]
        rw [hq, List.length_cons] at hlen
        omega

/-- No slot or queue differs. -/
structure SameSlots (e e' : OrchestratorEngine) : Prop where
  queue : e'.readyQueue = e.readyQueue
  active : e'.activeJobs = e.activeJobs
  max : e'.maxConcurrency = e.maxConcurrency

theorem SameSlots.idle (h : SameSlots e e') (hi : e.Idle) : e'.Idle := by
  unfold Idle
  rw [h.queue, h.active, h.max]
  exact hi

theorem SameSlots.refl (e : OrchestratorEngine) : SameSlots e e := ⟨rfl, rfl, rfl⟩

theorem sameSlots_of_frame (h : Frame e e') : SameSlots e e' :=
  ⟨h.readyQueue, h.activeJobs, h.maxConcurrency⟩

theorem idle_finish (h : Steady d.engine) : (finish w r d).engine.Idle := by
  rw [engine_finish]
  exact (sameSlots_of_frame channelStep_activate.frame).idle
    (idle_spawnReady _ d h (Nat.lt_succ_self _))

/-- A steady engine where nothing waits for a free slot. -/
def Filled (e : OrchestratorEngine) : Prop := Steady e ∧ e.Idle

theorem Filled.conserving (h : Filled e) : Conserving e := by
  rcases h.2 with hfull | hempty
  · exact Or.inr (Nat.le_antisymm h.1.bound hfull)
  · exact Or.inl hempty

theorem filled_finishes (h : Steady d.engine)
    (hf : Finishes w (fun d d' => Steady d.engine → Steady d'.engine) d d') :
    Filled d'.engine := by
  have hsteady := (elementary_steady w).skeleton.finishes hf h
  obtain ⟨r, d₁, hd₁, rfl⟩ := hf
  exact ⟨hsteady, idle_finish (hd₁ h)⟩

theorem Filled.untouched (h : Filled d.engine) (hu : Untouched d d') : Filled d'.engine := by
  rw [hu.engine]
  exact h

theorem filled_foldl {α : Type} {g : Daemon → α → Daemon} (l : List α)
    (hg : ∀ d a, Filled d.engine → Filled (g d a).engine) (d : Daemon) (h : Filled d.engine) :
    Filled (l.foldl g d).engine :=
  List.foldlRecOn (motive := fun d => Filled d.engine) l g h (fun d hd a _ => hg d a hd)

/-! ## The handlers -/

/-- An action that takes no slot and queues nothing. -/
theorem Filled.act (h : Filled d.engine) {a : Action} (ha : a.keeps = true)
    (hs : SameSlots d.engine (d.act w a).engine) : Filled (d.act w a).engine :=
  ⟨steady_act h.1 ha, hs.idle h.2⟩

theorem filled_heartbeat (h : Filled d.engine) (jobId : JobId) :
    Filled (d.act w (.call r (.recordHeartbeat jobId))).engine := by
  refine h.act rfl ?_
  show SameSlots d.engine (d.engine.recordHeartbeat w jobId)
  unfold recordHeartbeat
  split
  · exact ⟨rfl, rfl, rfl⟩
  · exact .refl _

theorem filled_handleEvent (h : Filled d.engine) {event : Json}
    (hd : d.handleEvent w event = .ok d') : Filled d'.engine := by
  unfold handleEvent at hd
  dsimp only at hd
  split at hd
  · cases hd
    exact filled_heartbeat h _
  · cases hd
    exact filled_heartbeat h _
  · exact filled_finishes h.1 (((elementary_steady w).skeleton.jobCompleted d _ _).1 hd)
  · cases hd
    exact filled_finishes h.1 ((elementary_steady w).skeleton.jobFailed ..)
  · cases hd
    exact filled_finishes h.1 ((elementary_steady w).skeleton.channelMessage ..)
  · cases hd
    exact filled_finishes h.1 ((elementary_steady w).skeleton.channelDone ..)
  · cases hd
    have hrow : Filled (d.act w (.persistArtifact (d.announcedArtifact w event))).engine :=
      h.act rfl (.refl _)
    exact hrow.act rfl ⟨rfl, rfl, rfl⟩
  · cases hd
    exact h

/-- What the loop of a cancellation leaves active if no job that it fails is. -/
theorem activeJobs_cancelJobs (l : List (JobId × JobStatus))
    (h : ∀ entry ∈ l, entry.2.unfinished = true → e.activeJobs.get entry.1 = none) :
    ((l.foldl (cancelJob w) (e, 0)).1).activeJobs = e.activeJobs := by
  refine cancelJobs_keep (P := fun e' => e'.activeJobs = e.activeJobs) l ?_ e 0 rfl
  intro e' entry hmem hst hsame
  rw [activeJobs_markFailed, hsame, HashMap.remove_of_get_none (h entry hmem hst)]

/-- Every queued job is of the run. -/
def QueuedIn (r : RunId) (e : OrchestratorEngine) : Prop :=
  ∀ k ∈ e.readyQueue, ∃ job, e.store.getJob k = some job ∧ job.runId = r

/-- A job of the run that is failed in a cancellation. -/
theorem queuedIn_markFailed (h : QueuedIn r e) {j : JobId} (err : String)
    (hj : ∃ job, e.store.getJob j = some job ∧ job.runId = r) :
    QueuedIn r (e.markFailed w j err) := by
  have hkeep : ∀ k, (∃ job, e.store.getJob k = some job ∧ job.runId = r) →
      ∃ job, (e.markFailed w j err).store.getJob k = some job ∧ job.runId = r := by
    intro k hk
    obtain ⟨job, hjob, hr⟩ := hk
    obtain ⟨job', hjob', hr'⟩ := getJob_markFailed_some (w := w) j err hjob
    exact ⟨job', hjob', hr'.trans hr⟩
  intro k hk
  rw [readyQueue_markFailed] at hk
  split at hk
  · rcases List.mem_append.mp hk with hk | hk
    · exact hkeep k (h k hk)
    · rw [List.mem_singleton.mp hk]
      exact hkeep j hj
  · exact hkeep k (h k hk)

theorem readyQueue_finishCancel (h : QueuedIn r e) : (e.finishCancel w r).readyQueue = [] := by
  refine List.filter_eq_nil_iff.mpr ?_
  intro k hk
  obtain ⟨job, hjob, hr⟩ := h k hk
  simp [hjob, hr]

theorem queuedIn_cancelJobs (h : QueuedIn r e) :
    QueuedIn r (((e.jobsToCancel w r).foldl (cancelJob w) (e, 0)).1) := by
  have hjobs : ∀ entry ∈ e.jobsToCancel w r,
      ∃ job, e.store.getJob entry.1 = some job ∧ job.runId = r := by
    intro entry hmem
    obtain ⟨job, hjob, rfl⟩ := List.mem_map.mp hmem
    obtain ⟨hget, hr⟩ := RunStore.mem_listRunJobs.mp hjob
    exact ⟨job, hget, hr⟩
  refine (cancelJobs_keep (P := fun e' => QueuedIn r e' ∧
    ∀ entry ∈ e.jobsToCancel w r, ∃ job, e'.store.getJob entry.1 = some job ∧ job.runId = r) _
    ?_ e 0 ⟨h, hjobs⟩).1
  intro e' entry hmem _ he'
  refine ⟨queuedIn_markFailed he'.1 _ (he'.2 entry hmem), ?_⟩
  intro entry' hmem'
  obtain ⟨job, hjob, hr⟩ := he'.2 entry' hmem'
  obtain ⟨job', hjob', hr'⟩ := getJob_markFailed_some (w := w) entry.1 "cancelled by user" hjob
  exact ⟨job', hjob', hr'.trans hr⟩

theorem maxConcurrency_cancelJobs (l : List (JobId × JobStatus)) :
    ((l.foldl (cancelJob w) (e, 0)).1).maxConcurrency = e.maxConcurrency := by
  refine cancelJobs_keep (P := fun e' => e'.maxConcurrency = e.maxConcurrency) l ?_ e 0 rfl
  intro e' entry _ _ hsame
  rw [maxConcurrency_markFailed, hsame]

theorem filled_cancelRun (h : Filled e) (hc : e.CancelsQuietly r) : Filled (e.cancelRun w r).2 := by
  refine ⟨steady_cancelRun h.1 r, ?_⟩
  rcases cancelRun_open w e r with heq | ⟨⟨run, hrun, hopen⟩, heq⟩ <;> rw [heq]
  · exact h.2
  · rcases hc with hover | hfree | hqueued
    · exact absurd hopen (not_or.mpr (hover run hrun))
    · -- the slots stay as they are, and the queue only shrinks
      have hactive := activeJobs_cancelJobs (w := w) (e := e) (e.jobsToCancel w r) (by
        intro entry hmem hst
        apply hfree
        rw [← cancels_jobsToCancel (w := w)]
        exact ⟨entry.2, hmem, hst⟩)
      rcases h.2 with hfull | hempty
      · left
        show (((e.jobsToCancel w r).foldl (cancelJob w) (e, 0)).1).maxConcurrency ≤
          (((e.jobsToCancel w r).foldl (cancelJob w) (e, 0)).1).activeJobs.len
        rw [hactive, maxConcurrency_cancelJobs]
        exact hfull
      · right
        refine readyQueue_finishCancel (queuedIn_cancelJobs ?_)
        intro k hk
        rw [hempty] at hk
        cases hk
    · exact Or.inr (readyQueue_finishCancel (queuedIn_cancelJobs hqueued))

/-- A cancellation leaves a queued job waiting exactly if it frees a slot and leaves a job
queued. -/
theorem conserving_cancelRun_iff (h : Filled e) (hhome : e.Home) :
    Conserving (e.cancelRun w r).2 ↔ e.CancelsQuietly r := by
  refine ⟨?_, fun hc => (filled_cancelRun h hc).conserving⟩
  intro hconserving
  rcases cancelRun_cases w hhome r with ⟨err, heq⟩ | ⟨_, _, _, _, _, hcan⟩
  · refine Or.inl ?_
    intro run hrun
    unfold OrchestratorEngine.cancelRun at heq
    rw [hrun] at heq
    constructor <;>
    · intro hst
      simp [hst] at heq
  · by_contra hno
    unfold CancelsQuietly at hno
    push Not at hno
    obtain ⟨_, ⟨k, hk, hslot⟩, j, hj, hother⟩ := hno
    obtain ⟨r', hr'⟩ := Option.ne_none_iff_exists'.mp hslot
    obtain ⟨job, hjob⟩ := h.1.known j hj
    have hqueued : j ∈ (e.cancelRun w r).2.readyQueue := by
      rw [hcan.queue, List.mem_filter]
      exact ⟨hj, by simp [hjob, hother job hjob]⟩
    have hfreed : (e.cancelRun w r).2.activeJobs.len < e.activeJobs.len := by
      refine HashMap.len_lt_len ?_ hr' (hcan.active_cancelled k hk)
      intro k' r'' hk'
      by_cases hc : e.Cancels r k'
      · rw [hcan.active_cancelled k' hc] at hk'
        cases hk'
      · exact ⟨r'', (hcan.active_other k' hc).symm.trans hk'⟩
    rcases hconserving with hempty | hfull
    · rw [hempty] at hqueued
      cases hqueued
    · have hbound := h.1.bound
      rw [hcan.maxConcurrency] at hfull
      omega

theorem filled_daemonCancel (h : Filled d.engine) (hc : d.engine.CancelsQuietly r) :
    Filled (d.cancelRun w r).2.engine := by
  unfold Daemon.cancelRun
  split
  · exact h
  · have hstop : (d.stopWorkersOf w r).engine = d.engine := (untouched_stopWorkersOf w d r).engine
    show Filled ((d.stopWorkersOf w r).engine.cancelRun w r).2
    rw [hstop]
    exact filled_cancelRun h hc

theorem filled_handleCommand (h : Filled d.engine) {command : DaemonCommand}
    (hc : ∀ r, command = .cancelRun r → d.engine.CancelsQuietly r) :
    Filled (d.handleCommand w command).engine := by
  unfold handleCommand
  split
  · exact h.untouched (untouched_startAgent d _)
  · exact h.untouched (untouched_restartAgent d _)
  · rename_i task
    have hdone := filled_finishes h.1 ((elementary_steady w).skeleton.submitRun d task)
    exact hdone.untouched (untouched_send _ _)
  · rename_i r
    have hcancel := filled_daemonCancel (w := w) h (hc r rfl)
    split
    · rename_i d₂ heq
      rw [heq] at hcancel
      exact hcancel.act (a := .persistRunState r) rfl (.refl _)
    · rename_i d₂ heq
      rw [heq] at hcancel
      exact hcancel
  all_goals exact h

end
/-! ## Poll ticks -/

theorem elementary_traced (w : World) : Elementary w Traced where
  refl := .refl
  trans := .trans
  act := fun d a _ => .act d a
  send := fun d effect => (untouched_send d effect).traced
  removeWorker := fun _ _ => Untouched.traced ⟨rfl, rfl⟩
  spawnJobWorker := fun d job => (untouched_spawnJobWorker w d job).traced
  startAgent := fun d name => (untouched_startAgent d name).traced
  restartAgent := fun d name => (untouched_restartAgent d name).traced
  reloadConfig := fun d => (untouched_reloadConfig w d).traced
  cleaned := fun _ _ => Untouched.traced ⟨rfl, rfl⟩
  restartAgents := fun d => (untouched_restartAgents w d).traced

/-- The actions from one daemon to the other are allowed. -/
def Allowed (G : Core → World × Action → Prop) (d d' : Daemon) : Prop :=
  ∀ l, d'.calls = d.calls ++ l → Meets coreStep G d.core l

section
variable {w : World} {r : RunId} {d d₁ d₂ : Daemon} {G : Core → World × Action → Prop}

theorem Allowed.later (h : Allowed G d d₂) (ht : Traced d d₁) : Allowed G d₁ d₂ := by
  obtain ⟨l₁, hcalls, hcore⟩ := ht
  intro l hl
  have hall := h (l₁ ++ l) (by rw [hl, hcalls, List.append_assoc])
  rw [hcore]
  exact (Meets.append.mp hall).2

theorem Allowed.earlier (h : Allowed G d d₂) (ht : Traced d₁ d₂) : Allowed G d d₁ := by
  obtain ⟨l₂, hcalls, _⟩ := ht
  intro l hl
  have hall := h (l ++ l₂) (by rw [hcalls, hl, List.append_assoc])
  exact (Meets.append.mp hall).1

theorem allowed_foldl {α : Type} {P : Daemon → Prop} {g : Daemon → α → Daemon}
    (ht : ∀ d a, Traced d (g d a)) (hP : ∀ d a, P d → Allowed G d (g d a) → P (g d a))
    (l : List α) : ∀ d, P d → Allowed G d (l.foldl g d) → P (l.foldl g d) := by
  have htraced : ∀ (l : List α) d, Traced d (l.foldl g d) := by
    intro l
    induction l with
    | nil => exact .refl
    | cons a l ih => exact fun d => (ht d a).trans (ih (g d a))
  induction l with
  | nil => exact fun _ h _ => h
  | cons a l ih =>
    intro d h hall
    exact ih (g d a) (hP d a h (hall.earlier (htraced l _))) (hall.later (ht d a))

theorem traced_expireRun (d : Daemon) (r : RunId) : Traced d (d.expireRun w r) :=
  (untouched_foldl (fun d path => untouched_send d (.removeFile path)) _ d).traced.trans
    (.act _ _)

theorem filled_expireRun (h : Filled d.engine) (hall : Allowed KeepsQueued d (d.expireRun w r)) :
    Filled (d.expireRun w r).engine := by
  have hu : Untouched d ((d.engine.store.removeRun w r).1.foldl
      (fun d path => d.send (.removeFile path)) d) :=
    untouched_foldl (fun d path => untouched_send d (.removeFile path)) _ d
  have hcalls : (d.expireRun w r).calls = d.calls ++ [(w, .expire r)] := by
    unfold expireRun act
    rw [hu.2]
  have hnone : d.engine.NoneQueued r := (hall _ hcalls).1
  have hengine : (d.expireRun w r).engine = d.engine.removeRun w r := by
    show (Daemon.act w _ (.expire r)).core.engine = _
    unfold act
    rw [hu.1]
    rfl
  rw [hengine]
  exact ⟨steady_expire h.1 hnone, SameSlots.idle ⟨rfl, rfl, rfl⟩ h.2⟩

theorem filled_cleanup (h : Filled d.engine) (hall : Allowed KeepsQueued d (cleanup w d)) :
    Filled (cleanup w d).engine := by
  unfold cleanup at hall ⊢
  split at hall
  · rename_i hdue
    rw [if_pos hdue]
    exact allowed_foldl (P := fun d => Filled d.engine) traced_expireRun
      (fun d r h hr => filled_expireRun h hr) _ { d with lastCleanup := w.instant } h hall
  · rename_i hdue
    rw [if_neg hdue]
    exact h

theorem filled_tick (h : Filled d.engine) (hall : Allowed KeepsQueued d (tick w d)) :
    Filled (tick w d).engine := by
  have hreload : Filled (d.reloadConfig w).engine := h.untouched (untouched_reloadConfig w d)
  have hrefresh : Filled (refreshHeartbeats w (d.reloadConfig w)).engine := by
    refine filled_foldl _ ?_ _ hreload
    intro d jobId h
    split
    · exact filled_heartbeat h jobId
    · exact h
  have hstale : Filled (handleStaleJobs w (refreshHeartbeats w (d.reloadConfig w))).engine :=
    filled_foldl _ (fun d jobId h =>
      filled_finishes h.1 ((elementary_steady w).skeleton.failStaleJob d jobId)) _ hrefresh
  have htraced : Traced d (handleStaleJobs w (refreshHeartbeats w (d.reloadConfig w))) :=
    (elementary_traced w).trans ((elementary_traced w).reloadConfig d)
      ((elementary_traced w).trans ((elementary_traced w).skeleton.refreshHeartbeats _)
        ((elementary_traced w).skeleton.handleStaleJobs _))
  have hclean := filled_cleanup (w := w) hstale
    ((hall.earlier (untouched_restartAgents w _).traced).later htraced)
  exact hclean.untouched (untouched_restartAgents w _)

/-! ## The start of the process -/

theorem engine_boot {config : Config} (hconfig : w.startConfig = some config) (d : Daemon) :
    (d.boot w).engine = (d.core.act w .hydrate).engine := by
  have hspawn : ∀ (d : Daemon) (agent : AgentConfig), Untouched d (d.spawnManagedAgent agent) :=
    fun _ _ => ⟨rfl, rfl⟩
  unfold boot
  rw [hconfig]
  exact (untouched_foldl hspawn _ _).engine

theorem resumes_iff (w : World) (job : Job) :
    job.resumes = true ↔ (job.recover w).status = .ready := by
  unfold Job.resumes
  rw [Job.recover_status]
  cases hst : job.status <;> cases job.retries <;> simp

/-- The start leaves jobs queued while every slot is free, unless it queues none. -/
theorem conserving_boot_iff {config : Config} (hconfig : w.startConfig = some config)
    (d : Daemon) : Conserving (d.boot w).engine ↔
      ∀ db, d.core.db = some db → ∀ k job, db.getJob k = some job → job.resumes = false := by
  rw [engine_boot hconfig]
  rcases hc : d.core with ⟨e, db⟩
  cases db with
  | none => exact iff_of_true (Or.inl rfl) (fun db hdb => (by cases hdb))
  | some db =>
    have hslots : ¬ (hydrate w (some db) e.ids).activeJobs.len =
        (hydrate w (some db) e.ids).maxConcurrency := by
      show ¬ (HashMap.empty : HashMap JobId RunId).len = 4
      simp
    show (hydrate w (some db) e.ids).readyQueue = [] ∨
      (hydrate w (some db) e.ids).activeJobs.len = (hydrate w (some db) e.ids).maxConcurrency ↔ _
    rw [or_iff_left hslots, List.eq_nil_iff_forall_not_mem]
    refine ⟨?_, ?_⟩
    · intro h db' hdb k job hjob
      cases hdb
      by_contra hresumes
      refine h k (mem_readyQueue_hydrate.mpr ⟨job.recover w, ?_, ?_⟩)
      · rw [getJob_hydrate, hjob]
        rfl
      · exact (resumes_iff w job).mp (by simpa using hresumes)
    · intro h k hk
      obtain ⟨job', hjob', hst⟩ := mem_readyQueue_hydrate.mp hk
      rw [getJob_hydrate] at hjob'
      obtain ⟨job, hjob, rfl⟩ := Option.map_eq_some_iff.mp hjob'
      have hno := h db rfl k job hjob
      rw [(resumes_iff w job).mpr hst] at hno
      cases hno

theorem filled_boot (h : LeavesNoneWaiting d (w, .start)) {d₀ : Daemon}
    (hcore : d₀.core = d.core) (halive : (d₀.boot w).alive = true) : Filled (d₀.boot w).engine := by
  cases hconfig : w.startConfig with
  | none =>
    unfold boot at halive
    rw [hconfig] at halive
    cases halive
  | some config =>
    have hsteady : Steady (d₀.boot w).engine := by
      rw [engine_boot hconfig]
      exact steady_hydrate d₀.core
    refine ⟨hsteady, ?_⟩
    have hconserving := (conserving_boot_iff hconfig d₀).mpr (by
      rw [hcore]
      exact fun db hdb => h config db hconfig hdb)
    rcases hconserving with hempty | hfull
    · exact Or.inr hempty
    · exact Or.inl (Nat.le_of_eq hfull.symm)

/-! ## Runs -/

theorem filled_step_alive {d₀ : Daemon} (hd₀ : d₀ = { d with sent := [], calls := [] })
    (hd : d.alive = true) (h : Filled d.engine) (i : Input) (hx : LeavesNoneWaiting d (w, i)) :
    (d.step (w, i)).alive = true → Filled (d.step (w, i)).engine := by
  have hcore : d₀.core = d.core := by rw [hd₀]
  have hfilled : Filled d₀.engine := by
    rw [hd₀]
    exact h
  rw [step_of_alive hd₀ hd w i]
  intro halive
  cases i with
  | update u => exact hfilled.untouched (untouched_agentUpdate w d₀ u)
  | command c =>
    refine filled_handleCommand hfilled ?_
    intro r hr
    subst hr
    rw [hd₀]
    exact hx hd
  | event v =>
    cases hv : d₀.handleEvent w v with
    | ok d' =>
      dsimp only [handle]
      rw [hv]
      exact filled_handleEvent hfilled hv
    | error d' =>
      dsimp only [handle] at halive
      rw [hv] at halive
      cases halive
  | tick =>
    refine filled_tick hfilled ?_
    intro l hl
    have hguard := hx hd
    rw [step_of_alive hd₀ hd w .tick] at hguard
    have hcalls : (tick w d₀).calls = l := by
      rw [hl, hd₀]
      rfl
    rw [hcore, ← hcalls]
    exact hguard
  | shutdown => cases halive
  | start => exact filled_boot hx hcore halive

theorem filled_step (h : d.alive = true → Filled d.engine) (x : World × Input)
    (hx : LeavesNoneWaiting d x) : (d.step x).alive = true → Filled (d.step x).engine := by
  obtain ⟨w, i⟩ := x
  obtain ⟨d₀, hd₀⟩ : ∃ d₀, d₀ = { d with sent := [], calls := [] } := ⟨_, rfl⟩
  cases hd : d.alive with
  | true => exact filled_step_alive hd₀ hd (h hd) i hx
  | false =>
    rw [step_of_dead hd₀ hd]
    intro halive
    cases i with
    | start => exact filled_boot hx (by rw [hd₀]) halive
    | _ =>
      have hdead : d₀.alive = false := by
        rw [hd₀]
        exact hd
      rw [hdead] at halive
      cases halive

/-- In every run in which no start finds a job to queue, no cancellation frees a slot for a
queued job and no run is removed while a job of it is queued, no queued job ever waits
while a slot is free. -/
theorem conserving_run (persistent : Bool) (sandboxOverride : Option Bool) (capsule : Bool)
    (is : List (World × Input))
    (h : Meets Daemon.step LeavesNoneWaiting (Daemon.off persistent sandboxOverride capsule) is) :
    (run Daemon.step (Daemon.off persistent sandboxOverride capsule) is).alive = true →
      Conserving (run Daemon.step (Daemon.off persistent sandboxOverride capsule) is).engine := by
  intro halive
  have hfilled := run_invariant (P := fun d => d.alive = true → Filled d.engine)
    (fun d x hd hx => filled_step hd x hx) (fun hoff => (by cases hoff)) h halive
  exact hfilled.conserving

end

/-- Four planners have the slots and a fifth one waits. -/
def fiveSubmitted : List (World × Input) :=
  (plannerWorld soloPlan, .start) ::
    List.replicate 5 (plannerWorld soloPlan, .command (.submitRun "task"))

/-- A run with a planner in a slot is cancelled, and the fifth planner stays queued. -/
theorem not_conserving_cancelled :
    (run Daemon.step (Daemon.off false none false)
      (fiveSubmitted ++ [(plannerWorld soloPlan, .command (.cancelRun "run_1_0"))])).alive = true ∧
      ¬ Conserving (run Daemon.step (Daemon.off false none false)
        (fiveSubmitted ++ [(plannerWorld soloPlan, .command (.cancelRun "run_1_0"))])).engine := by
  refine ⟨by decide, ?_⟩
  intro h
  rcases h with hempty | hfull
  · exact absurd hempty (by decide)
  · exact absurd hfull (by decide)

/-- The run whose planner waits is cancelled. -/
theorem conserving_run_waiting :
    Conserving (run Daemon.step (Daemon.off false none false)
      (fiveSubmitted ++ [(plannerWorld soloPlan, .command (.cancelRun "run_1_8"))])).engine := by
  refine conserving_run false none false _ (Meets.append.mpr ⟨?_, ?_, trivial⟩) (by decide)
  · exact ⟨fun _ db _ hdb => (by cases hdb), trivial, trivial, trivial, trivial, trivial, trivial⟩
  · intro _
    refine Or.inr (Or.inr ?_)
    intro k hk
    have hq : (run Daemon.step (Daemon.off false none false) fiveSubmitted).engine.readyQueue =
      ["job_1_9"] := by decide
    rw [hq, List.mem_singleton] at hk
    subst hk
    have hjob : ((run Daemon.step (Daemon.off false none false) fiveSubmitted).engine.store.getJob
        "job_1_9").map (fun job => job.runId) = some "run_1_8" := by decide
    exact Option.map_eq_some_iff.mp hjob

end ZeptoPM
