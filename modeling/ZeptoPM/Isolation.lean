import ZeptoPM.Runs

/- Runs do not touch each other. Every operation works on tables that all runs share
   and reaches records through ids kept in other records, so what carries the frame
   is that an id is given to the jobs of one run only: `Homed home` says that all the
   references agree with one assignment `home` of runs to job ids. `SameFor r` says
   that a step has left alone all there is of the run `r`. -/
namespace ZeptoPM
open OrchestratorEngine

/-! ## What there is of a run -/

/-- The jobs of the run in the order in which they are queued. -/
def OrchestratorEngine.queueOf (e : OrchestratorEngine) (r : RunId) : List JobId :=
  e.readyQueue.filter (fun k => (e.store.getJob k).any (fun job => job.runId == r))

/-- Nothing of the run `r` differs between the two engines. -/
structure SameFor (r : RunId) (e e' : OrchestratorEngine) : Prop where
  run : e'.store.getRun r = e.store.getRun r
  job : ∀ k job, job.runId = r → (e'.store.getJob k = some job ↔ e.store.getJob k = some job)
  channel : ∀ k ch, ch.runId = r →
    (e'.store.getChannel k = some ch ↔ e.store.getChannel k = some ch)
  artifact : ∀ k a, a.runId = r →
    (e'.store.getArtifact k = some a ↔ e.store.getArtifact k = some a)
  active : ∀ k job, e.store.getJob k = some job → job.runId = r →
    e'.activeJobs.get k = e.activeJobs.get k
  heartbeat : ∀ k job, e.store.getJob k = some job → job.runId = r →
    e'.lastHeartbeat.get k = e.lastHeartbeat.get k
  queue : e'.queueOf r = e.queueOf r

section
variable {r : RunId} {e e' e'' : OrchestratorEngine}

theorem SameFor.refl (r : RunId) (e : OrchestratorEngine) : SameFor r e e :=
  ⟨rfl, fun _ _ _ => .rfl, fun _ _ _ => .rfl, fun _ _ _ => .rfl, fun _ _ _ _ => rfl,
    fun _ _ _ _ => rfl, rfl⟩

theorem SameFor.trans (h₁ : SameFor r e e') (h₂ : SameFor r e' e'') : SameFor r e e'' := by
  refine ⟨?_, ?_, ?_, ?_, ?_, ?_, ?_⟩
  · exact h₂.run.trans h₁.run
  · exact fun k job hr => (h₂.job k job hr).trans (h₁.job k job hr)
  · exact fun k ch hr => (h₂.channel k ch hr).trans (h₁.channel k ch hr)
  · exact fun k a hr => (h₂.artifact k a hr).trans (h₁.artifact k a hr)
  · intro k job hk hr
    exact (h₂.active k job ((h₁.job k job hr).mpr hk) hr).trans (h₁.active k job hk hr)
  · intro k job hk hr
    exact (h₂.heartbeat k job ((h₁.job k job hr).mpr hk) hr).trans (h₁.heartbeat k job hk hr)
  · exact h₂.queue.trans h₁.queue

/-- Ids of jobs of another run, put at the end of the queue, do not count. -/
theorem queueOf_append
    (hjob : ∀ k job, job.runId = r →
      (e'.store.getJob k = some job ↔ e.store.getJob k = some job))
    {l : List JobId} (hq : e'.readyQueue = e.readyQueue ++ l)
    (hl : ∀ k ∈ l, ∀ job, e'.store.getJob k = some job → job.runId ≠ r) :
    e'.queueOf r = e.queueOf r := by
  have hsame : (fun k => (e'.store.getJob k).any (fun job => job.runId == r)) =
      fun k => (e.store.getJob k).any (fun job => job.runId == r) := by
    funext k
    rw [Bool.eq_iff_iff, Option.any_eq_true, Option.any_eq_true]
    refine ⟨?_, ?_⟩
    · intro h
      obtain ⟨job, hk, hr⟩ := h
      exact ⟨job, (hjob k job (beq_iff_eq.mp hr)).mp hk, hr⟩
    · intro h
      obtain ⟨job, hk, hr⟩ := h
      exact ⟨job, (hjob k job (beq_iff_eq.mp hr)).mpr hk, hr⟩
  have hnone : l.filter (fun k => (e'.store.getJob k).any (fun job => job.runId == r)) = [] := by
    rw [List.filter_eq_nil_iff]
    intro k hk hany
    rw [Option.any_eq_true] at hany
    obtain ⟨job, hjob', hr⟩ := hany
    exact hl k hk job hjob' (beq_iff_eq.mp hr)
  unfold queueOf
  rw [hq, List.filter_append, hnone, List.append_nil, hsame]

end

/-! ## Every job id has one home -/

/-- All references of the engine agree with the assignment. -/
structure Homed (home : JobId → Option RunId) (e : OrchestratorEngine) : Prop where
  issued : ∀ k r, home k = some r → Issued e.ids k
  job : ∀ k job, e.store.getJob k = some job → home k = some job.runId
  active : ∀ k r, e.activeJobs.get k = some r → home k = some r
  participant : ∀ k ch, e.store.getChannel k = some ch → ∀ p ∈ ch.participants,
    home p = some ch.runId
  channel : ∀ k ch, e.store.getChannel k = some ch →
    (∃ local', k = ch.runId ++ ":" ++ local') ∧ ':' ∉ ch.runId.toList
  run : ∀ r run, e.store.getRun r = some run → ':' ∉ r.toList

/-- And so do those of the database. -/
structure HomedRows (home : JobId → Option RunId) (db : SqlitePersistence) : Prop where
  job : ∀ k job, db.getJob k = some job → home k = some job.runId
  participant : ∀ k ch, db.getChannel k = some ch → ∀ p ∈ ch.participants,
    home p = some ch.runId
  channel : ∀ k ch, db.getChannel k = some ch →
    (∃ local', k = ch.runId ++ ":" ++ local') ∧ ':' ∉ ch.runId.toList
  run : ∀ r run, db.getRun r = some run → ':' ∉ r.toList

/-- Later assignments know the homes earlier ones have given. -/
def Knows (home home' : JobId → Option RunId) : Prop :=
  ∀ k r, home k = some r → home' k = some r

theorem Knows.refl (home : JobId → Option RunId) : Knows home home := fun _ _ h => h

theorem HomedRows.mono {home home' : JobId → Option RunId} {db : SqlitePersistence}
    (h : HomedRows home db) (hk : Knows home home') : HomedRows home' db :=
  ⟨fun k job hj => hk k _ (h.job k job hj), fun k ch hc p hp => hk p _ (h.participant k ch hc p hp),
    h.channel, h.run⟩

section
variable {home : JobId → Option RunId} {w : World} {e e' : OrchestratorEngine} {r : RunId}

/-- What a step that gives no id has to keep. -/
theorem Homed.same (h : Homed home e) (hids : e'.ids = e.ids)
    (hjob : ∀ k job', e'.store.getJob k = some job' →
      ∃ job, e.store.getJob k = some job ∧ job'.runId = job.runId)
    (hactive : ∀ k r, e'.activeJobs.get k = some r → home k = some r)
    (hch : ∀ k ch', e'.store.getChannel k = some ch' → ∃ ch, e.store.getChannel k = some ch ∧
      ch'.runId = ch.runId ∧ ch'.participants = ch.participants)
    (hrun : ∀ r run', e'.store.getRun r = some run' → ∃ run, e.store.getRun r = some run) :
    Homed home e' := by
  refine ⟨?_, ?_, ?_, ?_, ?_, ?_⟩
  · rw [hids]
    exact h.issued
  · intro k job' hk
    obtain ⟨job, hold, hr⟩ := hjob k job' hk
    rw [hr]
    exact h.job k job hold
  · exact hactive
  · intro k ch' hk p hp
    obtain ⟨ch, hold, hr, hpart⟩ := hch k ch' hk
    rw [hr]
    rw [hpart] at hp
    exact h.participant k ch hold p hp
  · intro k ch' hk
    obtain ⟨ch, hold, hr, _⟩ := hch k ch' hk
    rw [hr]
    exact h.channel k ch hold
  · intro r run' hk
    obtain ⟨run, hold⟩ := hrun r run' hk
    exact h.run r run hold

theorem Homed.ofSame (h : Homed home e) (hs : Same e e')
    (hactive : ∀ k r, e'.activeJobs.get k = some r → home k = some r) : Homed home e' :=
  h.same hs.ids (fun _ _ hk => hs.job_before hk) hactive hs.channel
    (fun r run' hk => (hs.run_iff r).mp ⟨run', hk⟩)

theorem homed_channelStep {S : Channel → Prop} (h : Homed home e) (hs : ChannelStep e e' S) :
    Homed home e' := by
  refine h.ofSame (hs.frame.same fun k ch' hk => hs.before hk) ?_
  rw [hs.frame.activeJobs]
  exact h.active

theorem homed_markCompleted (h : Homed home e) (j : JobId) (o : List ArtifactId) :
    Homed home (e.markCompleted w j o) := by
  refine h.ofSame (same_markCompleted j o) ?_
  intro k r hk
  rw [activeJobs_markCompleted] at hk
  exact h.active k r (HashMap.get_of_get_remove hk).2

theorem homed_markFailed (h : Homed home e) (j : JobId) (err : String) :
    Homed home (e.markFailed w j err) := by
  refine h.ofSame (same_markFailed j err) ?_
  intro k r hk
  rw [activeJobs_markFailed] at hk
  exact h.active k r (HashMap.get_of_get_remove hk).2

theorem homed_nextJob (h : Homed home e) : Homed home e.nextJob.2 := by
  rcases nextJob_cases e with ⟨q, heq, _⟩ | ⟨job, q, _, _, hjob, heq⟩ <;> rw [heq]
  · exact ⟨h.issued, h.job, h.active, h.participant, h.channel, h.run⟩
  · refine ⟨h.issued, h.job, fun k r hk => ?_, h.participant, h.channel, h.run⟩
    change (e.activeJobs.insert job.jobId job.runId).get k = some r at hk
    rw [HashMap.get_insert] at hk
    split at hk
    · rename_i hkj
      cases hk
      exact hkj ▸ h.job job.jobId job hjob
    · exact h.active k r hk

theorem homed_markRunning (h : Homed home e) (j : JobId) : Homed home (e.markRunning w j) := by
  unfold markRunning
  split
  · exact h
  · rename_i r hr
    refine h.same rfl (fun k job' hk => ?_) h.active (fun k ch hk => ⟨ch, hk, rfl, rfl⟩)
      (fun r' run' hk => ?_)
    · change (e.store.alterJob j (Job.start w) (Job.start_jobId w)).getJob k = some job' at hk
      rw [RunStore.getJob_alterJob] at hk
      split at hk
      · rename_i hkj
        obtain ⟨job, hjob, rfl⟩ := Option.map_eq_some_iff.mp hk
        exact ⟨job, hkj ▸ hjob, rfl⟩
      · exact ⟨job', hk, rfl⟩
    · change ((e.store.alterJob j (Job.start w) (Job.start_jobId w)).alterRun r (Run.start w)
        (Run.start_runId w)).getRun r' = some run' at hk
      rw [RunStore.getRun_alterRun, RunStore.getRun_alterJob, RunStore.getRun_alterJob] at hk
      split at hk
      · rename_i hkr
        obtain ⟨run, hrun, _⟩ := Option.map_eq_some_iff.mp hk
        exact ⟨run, hkr ▸ hrun⟩
      · exact ⟨run', hk⟩

theorem homed_startNext (h : Homed home e) : Homed home (e.startNext w).2 := by
  have hnext := homed_nextJob h
  unfold startNext
  split
  · rename_i e' heq
    rwa [heq] at hnext
  · rename_i job e' heq
    rw [heq] at hnext
    exact homed_markRunning hnext job.jobId

theorem homed_removeRun (h : Homed home e) (r : RunId) : Homed home (e.removeRun w r) := by
  refine h.same rfl (fun k job hk => ⟨job, (getJob_expire.mp hk).1, rfl⟩) h.active
    (fun k ch hk => ⟨ch, (getChannel_expire.mp hk).1, rfl, rfl⟩) (fun r' run hk => ?_)
  rw [getRun_expire] at hk
  split at hk
  · cases hk
  · exact ⟨run, hk⟩

/-! ### New ids -/

/-- Ids that were never drawn before can be given a home. -/
theorem Homed.created (h : Homed home e) (r : RunId) (new : List JobId)
    (hle : e.ids.Le e'.ids) (hfresh : ∀ k ∈ new, ¬ Issued e.ids k ∧ Issued e'.ids k)
    (hjob : ∀ k job, e'.store.getJob k = some job →
      (k ∈ new ∧ job.runId = r) ∨ e.store.getJob k = some job)
    (hactive : e'.activeJobs = e.activeJobs)
    (hch : ∀ k ch, e'.store.getChannel k = some ch → e.store.getChannel k = some ch ∨
      (ch.runId = r ∧ ((∃ local', k = r ++ ":" ++ local') ∧ ':' ∉ r.toList) ∧
        ∀ p ∈ ch.participants, p ∈ new))
    (hrun : ∀ r' run, e'.store.getRun r' = some run →
      ':' ∉ r'.toList ∨ e.store.getRun r' = some run) :
    ∃ home', Knows home home' ∧ Homed home' e' := by
  let home' : JobId → Option RunId := fun k => if k ∈ new then some r else home k
  have hknows : Knows home home' := by
    intro k r' hk
    have hnot : k ∉ new := fun hmem => (hfresh k hmem).1 (h.issued k r' hk)
    exact (if_neg hnot).trans hk
  have hnew : ∀ k ∈ new, home' k = some r := fun k hk => if_pos hk
  refine ⟨home', hknows, ?_⟩
  refine ⟨?_, ?_, ?_, ?_, ?_, ?_⟩
  · intro k r' hk
    by_cases hmem : k ∈ new
    · exact (hfresh k hmem).2
    · have hold : home k = some r' := (if_neg hmem).symm.trans hk
      exact (h.issued k r' hold).mono hle
  · intro k job hk
    rcases hjob k job hk with ⟨hmem, hrun'⟩ | hold
    · rw [hrun']
      exact hnew k hmem
    · exact hknows k _ (h.job k job hold)
  · intro k r' hk
    rw [hactive] at hk
    exact hknows k r' (h.active k r' hk)
  · intro k ch hk p hp
    rcases hch k ch hk with hold | ⟨hrun', _, hpart⟩
    · exact hknows p _ (h.participant k ch hold p hp)
    · rw [hrun']
      exact hnew p (hpart p hp)
  · intro k ch hk
    rcases hch k ch hk with hold | ⟨hrun', hname, _⟩
    · exact h.channel k ch hold
    · rw [hrun']
      exact hname
  · intro r' run hk
    rcases hrun r' run hk with hcolon | hold
    · exact hcolon
    · exact h.run r' run hold

theorem colon_notMem_toString (n : Nat) : ':' ∉ (toString n).toList := by
  intro h
  have hd : ':' ∈ Nat.toDigits 10 n := by
    rwa [Nat.toString_eq_repr, Nat.toList_repr] at h
  exact absurd (Nat.isDigit_of_mem_toDigits (by decide) (by decide) hd) (by decide)

/-- No run is given an id with a colon in it. -/
theorem colon_notMem_runId (w : World) (ids : IdSupply) :
    ':' ∉ (genId w ids "run").1.toList := by
  have hparts : (genId w ids "run").1.toList = "run_".toList ++ (toString w.now).toList ++
      "_".toList ++ (toString ids.counter).toList := by
    simp [genId, stampedId]
  rw [hparts]
  simp only [List.mem_append, not_or]
  exact ⟨⟨⟨by decide, colon_notMem_toString _⟩, by decide⟩, colon_notMem_toString _⟩

theorem homed_submitRun (h : Homed home e) (hw : w.After e.ids) (task : String) :
    ∃ home', Knows home home' ∧ Homed home' (e.submitRun w task).2 := by
  have hnew := created_submitRun hw task
  refine h.created (e.submitIds w).1 [(e.submitIds w).2] hnew.le ?_ ?_ hnew.activeJobs
    (fun k ch hk => Or.inl hk) ?_
  · intro k hk
    rw [List.mem_singleton.mp hk]
    exact ⟨hnew.fresh _ (List.mem_singleton.mpr rfl), hnew.issued _ (List.mem_singleton.mpr rfl)⟩
  · intro k job hk
    rcases hnew.cases hk with ⟨hmem, hid⟩ | ⟨_, hold⟩
    · have heq := List.mem_singleton.mp hmem
      rw [heq] at hid ⊢
      exact Or.inl ⟨List.mem_singleton.mpr hid.symm, rfl⟩
    · exact Or.inr hold
  · intro r' run hk
    rw [getRun_submitRun] at hk
    split at hk
    · rename_i hr
      exact Or.inl (hr ▸ colon_notMem_runId w e.ids)
    · exact Or.inr hk

/-- What a plan leaves of the store, with its queued jobs or without. -/
theorem homed_plan (h : Homed home e) {p : JobId} {plan : ExecutionPlan} (hw : w.After e.ids)
    (hr : ':' ∉ r.toList)
    (hstore : e'.store = (materializePlan w e.store e.ids r p plan).2.1)
    (hids : e'.ids = (materializePlan w e.store e.ids r p plan).2.2)
    (hactive : e'.activeJobs = e.activeJobs) : ∃ home', Knows home home' ∧ Homed home' e' := by
  refine h.created r (materializePlan w e.store e.ids r p plan).1
    (hids ▸ materializePlan_le.1) ?_ ?_ hactive ?_ ?_
  · intro k hk
    rw [hids]
    exact materializePlan_fresh hw hk
  · intro k job hk
    rw [hstore] at hk
    rcases getJob_materializePlan_cases hk with ⟨hmem, hid⟩ | ⟨_, hold⟩
    · obtain ⟨spec, _, rfl⟩ := List.mem_map.mp hmem
      exact Or.inl ⟨hid, rfl⟩
    · exact Or.inr hold
  · intro k ch hk
    have hid := RunStore.channelId_of_getChannel hk
    rw [hstore] at hk
    rcases getChannel_materializePlan_cases hk with hmem | ⟨_, hold⟩
    · obtain ⟨hrun, _, _, hpart⟩ := participants_planChannels (p := p) hmem
      obtain ⟨planned, _, rfl⟩ := List.mem_map.mp hmem
      refine Or.inr ⟨hrun, ⟨⟨planned.channelId, hid.symm⟩, hr⟩, fun q hq => ?_⟩
      obtain ⟨job, hjob, rfl⟩ := hpart q hq
      rw [materializePlan_ids]
      exact List.mem_map_of_mem hjob
    · exact Or.inl hold
  · intro r' run hk
    rw [hstore] at hk
    exact Or.inr hk

theorem homed_review (h : Homed home e) (hw : w.After e.ids) (j : JobId) (d : ReviewDecision)
    (m : Nat) : ∃ home', Knows home home' ∧ Homed home' (e.handleReviewCompletion w j d m).2 := by
  rcases review_cases w e j d m with heq | ⟨rev, coder, feedback, hrev, _, _, _, heq⟩ <;> rw [heq]
  · exact ⟨home, .refl home, h⟩
  · have hnew := created_revised hw rev coder m feedback
    refine h.created rev.runId [(e.reviseIds w).1, (e.reviseIds w).2] hnew.le ?_
      (fun k job hk => ?_) rfl (fun k ch hk => Or.inl hk) (fun r' run hk => Or.inr hk)
    · intro k hk
      have hmem : k ∈ (e.reviseJobs w rev coder m feedback).map (·.jobId) := hk
      obtain ⟨job, hjob, rfl⟩ := List.mem_map.mp hmem
      exact ⟨hnew.fresh job hjob, hnew.issued job hjob⟩
    · rcases hnew.cases hk with ⟨hmem, rfl⟩ | ⟨_, hold⟩
      · exact Or.inl ⟨List.mem_map_of_mem (f := (·.jobId)) hmem, hnew.runId job hmem⟩
      · exact Or.inr hold

end

/-! ## One operation -/

section
variable {w : World} {e e' : OrchestratorEngine}

theorem artifacts_markCompleted (w : World) (e : OrchestratorEngine) (j : JobId)
    (o : List ArtifactId) : (e.markCompleted w j o).store.artifacts = e.store.artifacts := by
  unfold markCompleted
  split
  · rfl
  · rename_i r hr
    exact (artifacts_checkRunCompletion ..).trans (promoteScan_frame ..).2.2

theorem artifacts_markFailed (w : World) (e : OrchestratorEngine) (j : JobId) (err : String) :
    (e.markFailed w j err).store.artifacts = e.store.artifacts := by
  unfold markFailed
  dsimp only
  split
  · rfl
  · exact artifacts_checkRunCompletion ..

theorem artifacts_route (ch : ChannelId) (j : JobId) (content : String) :
    (e.routeChannelMessage w ch j content).2.store.artifacts = e.store.artifacts := by
  unfold routeChannelMessage
  split
  · rfl
  · dsimp only
    split
    · rfl
    · split
      · rfl
      · split
        · rfl
        · split
          · split <;> rfl
          · split <;> rfl

theorem artifacts_done (ch : ChannelId) (j : JobId) :
    (e.handleChannelDone ch j).2.store.artifacts = e.store.artifacts := by
  unfold handleChannelDone
  split
  · rfl
  · split
    · rfl
    · split <;> rfl

theorem artifacts_peerFailure (ch : ChannelId) (j : JobId) :
    (e.handleChannelPeerFailure ch j).2.store.artifacts = e.store.artifacts := by
  unfold handleChannelPeerFailure
  split
  · rfl
  · dsimp only
    split <;> rfl

theorem getArtifact_of_artifacts {s s' : RunStore} (h : s'.artifacts = s.artifacts)
    (k : ArtifactId) : s'.getArtifact k = s.getArtifact k := by
  unfold RunStore.getArtifact
  rw [h]

variable {home : JobId → Option RunId} {r r₁ : RunId} {j : JobId}

/-- A job of another run is not one of this run. -/
theorem Homed.ne_of_job (h : Homed home e) (hj : home j = some r₁) (hne : r₁ ≠ r) {k : JobId}
    {job : Job} (hk : e.store.getJob k = some job) (hr : job.runId = r) : k ≠ j := by
  intro heq
  subst heq
  have hhome := h.job k job hk
  rw [hj, hr] at hhome
  exact hne (Option.some.inj hhome)

theorem sameFor_markCompleted (h : Homed home e) (hj : home j = some r₁) (hne : r₁ ≠ r)
    (o : List ArtifactId) : SameFor r e (e.markCompleted w j o) := by
  have hother : ∀ r', e.activeJobs.get j = some r' → r' ≠ r := by
    intro r' hact
    have hhome := h.active j r' hact
    rw [hj] at hhome
    exact Option.some.inj hhome ▸ hne
  have hjob : ∀ k job, job.runId = r →
      ((e.markCompleted w j o).store.getJob k = some job ↔ e.store.getJob k = some job) := by
    intro k job' hr
    exact getJob_markCompleted_other w e j o hother
      (fun job hj' hr' => h.ne_of_job hj hne hj' hr' rfl) hr
  refine ⟨?_, ?_, ?_, ?_, ?_, ?_, ?_⟩
  · exact getRun_markCompleted_ne w e j o (fun hact => hother r hact rfl)
  · exact hjob
  · exact fun k ch _ => by rw [getChannel_markCompleted]
  · exact fun k a _ => by rw [getArtifact_of_artifacts (artifacts_markCompleted w e j o)]
  · intro k job hk hr
    rw [activeJobs_markCompleted, HashMap.get_remove, if_neg (h.ne_of_job hj hne hk hr)]
  · intro k job hk hr
    rw [lastHeartbeat_markCompleted, HashMap.get_remove, if_neg (h.ne_of_job hj hne hk hr)]
  · refine queueOf_append hjob (readyQueue_markCompleted w e j o) (fun k hk job hget hr => ?_)
    obtain ⟨r', job₀, hact, _, hold, hprom⟩ := (mem_promotedIds w e j o).mp hk
    have heq := hold.symm.trans ((hjob k job hr).mp hget)
    cases heq
    exact hother r' hact (hprom.1.symm.trans hr)

theorem sameFor_markFailed (h : Homed home e) (hj : home j = some r₁) (hne : r₁ ≠ r)
    (err : String) : SameFor r e (e.markFailed w j err) := by
  have hother : e.activeJobs.get j ≠ some r := by
    intro hact
    have hhome := h.active j r hact
    rw [hj] at hhome
    exact hne (Option.some.inj hhome)
  have hjob : ∀ k job, job.runId = r →
      ((e.markFailed w j err).store.getJob k = some job ↔ e.store.getJob k = some job) := by
    intro k job' hr
    rw [getJob_markFailed]
    by_cases hk : k = j
    · rw [if_pos hk, hk]
      refine ⟨?_, ?_⟩
      · intro hget
        obtain ⟨job, hold, rfl⟩ := Option.map_eq_some_iff.mp hget
        rw [Job.fail_runId] at hr
        exact absurd rfl (h.ne_of_job hj hne hold hr)
      · exact fun hget => absurd rfl (h.ne_of_job hj hne hget hr)
    · rw [if_neg hk]
  refine ⟨?_, ?_, ?_, ?_, ?_, ?_, ?_⟩
  · exact getRun_markFailed_ne w e j err hother
  · exact hjob
  · exact fun k ch _ => by rw [getChannel_markFailed]
  · exact fun k a _ => by rw [getArtifact_of_artifacts (artifacts_markFailed w e j err)]
  · intro k job hk hr
    rw [activeJobs_markFailed, HashMap.get_remove, if_neg (h.ne_of_job hj hne hk hr)]
  · intro k job hk hr
    rw [lastHeartbeat_markFailed, HashMap.get_remove, if_neg (h.ne_of_job hj hne hk hr)]
  · have hq : (e.markFailed w j err).readyQueue =
        e.readyQueue ++ (if e.requeues j then [j] else []) := by
      rw [readyQueue_markFailed]
      split
      · rfl
      · exact (List.append_nil _).symm
    refine queueOf_append hjob hq (fun k hk job hget hr => ?_)
    have hkj : k = j := by
      split at hk
      · exact List.mem_singleton.mp hk
      · cases hk
    exact h.ne_of_job hj hne ((hjob k job hr).mp hget) hr hkj

theorem sameFor_channelStep {k : ChannelId} (hs : ChannelStep e e' (fun c => c.channelId = k))
    (hart : e'.store.artifacts = e.store.artifacts) {ch : Channel}
    (hk : e.store.getChannel k = some ch) (hne : ch.runId ≠ r) : SameFor r e e' := by
  have hjob : ∀ k job, job.runId = r →
      (e'.store.getJob k = some job ↔ e.store.getJob k = some job) :=
    fun k job _ => by rw [hs.frame.getJob]
  refine ⟨?_, ?_, ?_, ?_, ?_, ?_, ?_⟩
  · exact hs.frame.getRun r
  · exact hjob
  · intro k' ch' hr
    rcases hs.channel k' with heq | ⟨c, c', hc, hc', hid, hrun, _⟩
    · rw [heq]
    · -- the channel that has changed is of another run, before and after
      have hkk : k' = k := (RunStore.channelId_of_getChannel hc).symm.trans hid
      rw [hkk] at hc hc' ⊢
      cases hk.symm.trans hc
      rw [hc, hc']
      refine ⟨?_, ?_⟩
      · intro heq
        refine absurd ?_ hne
        calc ch.runId = c'.runId := hrun.symm
          _ = ch'.runId := congrArg Channel.runId (Option.some.inj heq)
          _ = r := hr
      · intro heq
        exact absurd ((congrArg Channel.runId (Option.some.inj heq)).trans hr) hne
  · exact fun k a _ => by rw [getArtifact_of_artifacts hart]
  · exact fun k job _ _ => by rw [hs.frame.activeJobs]
  · exact fun k job _ _ => by rw [hs.lastHeartbeat]
  · exact queueOf_append hjob (hs.frame.readyQueue.trans (List.append_nil _).symm)
      (fun k hk => by cases hk)

/-- Jobs under new ids, in another run, and queued. -/
theorem sameFor_created (h : Homed home e) (new : List JobId) {queued : List JobId}
    (hfresh : ∀ k ∈ new, ¬ Issued e.ids k) (hold : ∀ k, k ∉ new →
      e'.store.getJob k = e.store.getJob k)
    (hnew : ∀ k ∈ new, ∀ job, e'.store.getJob k = some job → job.runId ≠ r)
    (hqueue : e'.readyQueue = e.readyQueue ++ queued) (hqueued : ∀ k ∈ queued, k ∈ new)
    (hactive : e'.activeJobs = e.activeJobs) (hheart : e'.lastHeartbeat = e.lastHeartbeat)
    (hrun : e'.store.getRun r = e.store.getRun r)
    (hart : e'.store.artifacts = e.store.artifacts)
    (hch : ∀ k ch, ch.runId = r →
      (e'.store.getChannel k = some ch ↔ e.store.getChannel k = some ch)) :
    SameFor r e e' := by
  have hjob : ∀ k job, job.runId = r →
      (e'.store.getJob k = some job ↔ e.store.getJob k = some job) := by
    intro k job hr
    by_cases hk : k ∈ new
    · refine ⟨?_, ?_⟩
      · exact fun hget => absurd hr (hnew k hk job hget)
      · exact fun hget => absurd (h.issued k _ (h.job k job hget)) (hfresh k hk)
    · rw [hold k hk]
  refine ⟨?_, ?_, ?_, ?_, ?_, ?_, ?_⟩
  · exact hrun
  · exact hjob
  · exact hch
  · exact fun k a _ => by rw [getArtifact_of_artifacts hart]
  · exact fun k job _ _ => by rw [hactive]
  · exact fun k job _ _ => by rw [hheart]
  · exact queueOf_append hjob hqueue (fun k hk job hget => hnew k (hqueued k hk) job hget)

theorem sameFor_review (h : Homed home e) (hw : w.After e.ids) {job : Job}
    (hj : e.store.getJob j = some job) (hne : job.runId ≠ r) (d : ReviewDecision) (m : Nat) :
    SameFor r e (e.handleReviewCompletion w j d m).2 := by
  rcases review_cases w e j d m with heq | ⟨rev, coder, feedback, hrev, _, _, _, heq⟩ <;> rw [heq]
  · exact .refl r e
  · cases hj.symm.trans hrev
    have hnew := created_revised hw job coder m feedback
    refine sameFor_created h ((e.reviseJobs w job coder m feedback).map (·.jobId))
      (fun k hk => ?_) (fun k hk => hnew.getJob_old k hk) (fun k hk job' hget => ?_)
      hnew.readyQueue (fun k hk => ?_) rfl rfl rfl rfl (fun k ch _ => .rfl)
    · obtain ⟨job', hjob', rfl⟩ := List.mem_map.mp hk
      exact hnew.fresh job' hjob'
    · rcases hnew.cases hget with ⟨hmem, _⟩ | ⟨hnot, _⟩
      · exact hnew.runId job' hmem ▸ hne
      · exact absurd hk hnot
    · obtain ⟨job', hjob', rfl⟩ := List.mem_map.mp hk
      exact List.mem_map_of_mem (List.mem_filter.mp hjob').1

theorem sameFor_plan (h : Homed home e) (hw : w.After e.ids) {p : JobId} {plan : ExecutionPlan}
    (hr₁ : ':' ∉ r₁.toList) (hne : r₁ ≠ r)
    (hstore : e'.store = (materializePlan w e.store e.ids r₁ p plan).2.1) (queued : List JobId)
    (hqueue : e'.readyQueue = e.readyQueue ++ queued)
    (hqueued : ∀ k ∈ queued, k ∈ (materializePlan w e.store e.ids r₁ p plan).1)
    (hactive : e'.activeJobs = e.activeJobs) (hheart : e'.lastHeartbeat = e.lastHeartbeat) :
    SameFor r e e' := by
  refine sameFor_created h (materializePlan w e.store e.ids r₁ p plan).1
    (fun k hk => (materializePlan_fresh hw hk).1) (fun k hk => ?_) (fun k hk job hget => ?_) hqueue
    hqueued hactive hheart ?_ ?_ (fun k ch hr => ?_)
  · rw [hstore]
    exact getJob_materializePlan_of_notMem hk
  · rw [hstore] at hget
    rcases getJob_materializePlan_cases hget with ⟨hmem, _⟩ | ⟨hnot, _⟩
    · obtain ⟨spec, _, rfl⟩ := List.mem_map.mp hmem
      exact hne
    · exact absurd hk hnot
  · rw [hstore]
    exact getRun_materializePlan r
  · rw [hstore]
    rfl
  · rw [hstore]
    refine ⟨?_, ?_⟩
    · intro hget
      rcases getChannel_materializePlan_cases hget with hmem | ⟨_, hold⟩
      · have hrun := (participants_planChannels (p := p) hmem).1
        exact absurd (hrun.symm.trans hr) hne
      · exact hold
    · intro hget
      rw [getChannel_materializePlan_of_notMem, hget]
      intro hmem
      obtain ⟨ch', hch', hid⟩ := List.mem_map.mp hmem
      obtain ⟨planned, _, rfl⟩ := List.mem_map.mp hch'
      obtain ⟨⟨local', hk⟩, hcolon⟩ := h.channel k ch hget
      have heq : r₁ = ch.runId := channelId_inj hr₁ hcolon (hid.trans hk)
      exact hne (heq.trans hr)

theorem sameFor_removeRun (hne : r₁ ≠ r) : SameFor r e (e.removeRun w r₁) := by
  have hjob : ∀ k job, job.runId = r →
      ((e.removeRun w r₁).store.getJob k = some job ↔ e.store.getJob k = some job) := by
    intro k job hr
    rw [getJob_expire]
    exact and_iff_left (fun heq => hne (heq.symm.trans hr))
  refine ⟨?_, ?_, ?_, ?_, ?_, ?_, ?_⟩
  · rw [getRun_expire, if_neg hne.symm]
  · exact hjob
  · intro k ch hr
    rw [getChannel_expire]
    exact and_iff_left (fun heq => hne (heq.symm.trans hr))
  · intro k a hr
    have hget : (e.removeRun w r₁).store.getArtifact k =
        (e.store.getArtifact k).filter (fun a => !(a.runId == r₁)) := Table.get_removeAll_filter ..
    rw [hget, Option.filter_eq_some_iff]
    refine and_iff_left ?_
    rw [Bool.not_eq_true', beq_eq_false_iff_ne]
    exact fun heq => hne (heq.symm.trans hr)
  · exact fun _ _ _ _ => rfl
  · exact fun _ _ _ _ => rfl
  · exact queueOf_append hjob (List.append_nil _).symm (fun k hk => by cases hk)

/-! ### Several jobs of one run -/

theorem homed_cancelLoop (l : List (JobId × JobStatus)) :
    ∀ {e : OrchestratorEngine} {n : Nat}, Homed home e →
      Homed home (l.foldl (cancelJob w) (e, n)).1 := by
  induction l with
  | nil => exact fun h => h
  | cons x l ih =>
    intro e n h
    rw [List.foldl_cons]
    unfold cancelJob
    split
    · exact ih (homed_markFailed h x.1 "cancelled by user")
    · exact ih h

theorem sameFor_cancelLoop (hne : r₁ ≠ r) (l : List (JobId × JobStatus)) :
    ∀ {e : OrchestratorEngine} {n : Nat}, Homed home e → (∀ x ∈ l, home x.1 = some r₁) →
      SameFor r e (l.foldl (cancelJob w) (e, n)).1 := by
  induction l with
  | nil => exact fun _ _ => .refl r _
  | cons x l ih =>
    intro e n h hl
    have hx := hl x List.mem_cons_self
    have hrest : ∀ y ∈ l, home y.1 = some r₁ := fun y hy => hl y (List.mem_cons_of_mem x hy)
    rw [List.foldl_cons]
    unfold cancelJob
    split
    · have hfail := sameFor_markFailed (w := w) h hx hne "cancelled by user"
      exact hfail.trans (ih (homed_markFailed h x.1 "cancelled by user") hrest)
    · exact ih h hrest

theorem jobsToCancel_home (h : Homed home e) : ∀ x ∈ e.jobsToCancel w r₁, home x.1 = some r₁ := by
  intro x hx
  obtain ⟨job, hjob, rfl⟩ := List.mem_map.mp hx
  obtain ⟨hget, rfl⟩ := RunStore.mem_listRunJobs.mp hjob
  exact h.job job.jobId job hget

theorem sameFor_finishCancel (hne : r₁ ≠ r) : SameFor r e (e.finishCancel w r₁) := by
  refine ⟨?_, fun _ _ _ => .rfl, fun _ _ _ => .rfl, fun _ _ _ => .rfl, fun _ _ _ _ => rfl,
    fun _ _ _ _ => rfl, ?_⟩
  · exact (RunStore.getRun_alterRun ..).trans (if_neg hne.symm)
  · unfold queueOf
    change (e.readyQueue.filter _).filter _ = e.readyQueue.filter _
    rw [List.filter_filter]
    refine List.filter_congr (fun k _ => ?_)
    change ((e.store.getJob k).any _ && _) = (e.store.getJob k).any _
    cases hk : e.store.getJob k with
    | none => rfl
    | some job =>
      rw [Option.any_some, Option.map_some, Option.getD_some, Bool.and_eq_left_iff_imp]
      intro hr
      rw [bne_iff_ne, beq_iff_eq.mp hr]
      exact hne.symm

theorem sameFor_cancelRun (h : Homed home e) (hne : r₁ ≠ r) :
    SameFor r e (e.cancelRun w r₁).2 := by
  unfold cancelRun
  split
  · exact .refl r e
  · split
    · exact .refl r e
    · exact (sameFor_cancelLoop hne _ h (jobsToCancel_home h)).trans (sameFor_finishCancel hne)

theorem homed_cancelRun (h : Homed home e) (r₁ : RunId) : Homed home (e.cancelRun w r₁).2 := by
  unfold cancelRun
  split
  · exact h
  · split
    · exact h
    · have hloop := homed_cancelLoop (w := w) (n := 0) (e.jobsToCancel w r₁) h
      refine hloop.same rfl (fun k job hk => ⟨job, hk, rfl⟩) hloop.active
        (fun k ch hk => ⟨ch, hk, rfl, rfl⟩) (fun r run hk => ?_)
      have hget := (RunStore.getRun_alterRun ..).symm.trans hk
      split at hget
      · rename_i hr
        obtain ⟨run₀, hrun₀, _⟩ := Option.map_eq_some_iff.mp hget
        exact ⟨run₀, hr ▸ hrun₀⟩
      · exact ⟨run, hget⟩

end

/-! ### The peers of a failed job -/

section
open Daemon
variable {home : JobId → Option RunId} {w : World} {r r₀ r₁ : RunId} {j : JobId}

theorem engine_killPeer (w : World) (r₀ : RunId) (j : JobId) (d : Daemon) (k : JobId) :
    (d.killPeer w r₀ j k).engine =
      d.engine.markFailed w k ("channel peer '" ++ j ++ "' failed (KillAll)") := by
  have hcore := (untouched_dropWorker d (Daemon.workerName k)).1
  unfold Daemon.killPeer Daemon.engine Daemon.act
  rw [hcore]
  rfl

theorem sameFor_killPeers (w : World) (r₀ : RunId) (j : JobId) (hne : r₁ ≠ r) (l : List JobId) :
    ∀ {d : Daemon},
    Homed home d.engine → (∀ k ∈ l, home k = some r₁) →
      SameFor r d.engine (l.foldl (Daemon.killPeer w r₀ j) d).engine := by
  induction l with
  | nil => exact fun _ _ => .refl r _
  | cons k l ih =>
    intro d h hl
    have hfail := sameFor_markFailed (w := w) h (hl k List.mem_cons_self) hne
      ("channel peer '" ++ j ++ "' failed (KillAll)")
    have hhome := homed_markFailed (w := w) h k ("channel peer '" ++ j ++ "' failed (KillAll)")
    rw [← engine_killPeer w r₀] at hfail hhome
    exact hfail.trans (ih hhome (fun k' hk' => hl k' (List.mem_cons_of_mem k hk')))

/-- The failure of a peer is passed on inside the channel's run only. -/
theorem sameFor_failChannel {d : Daemon} (h : Homed home d.engine) {k : ChannelId} {ch : Channel}
    (hk : d.engine.store.getChannel k = some ch) (hne : ch.runId ≠ r) :
    SameFor r d.engine (d.failChannel w r₀ j k).engine := by
  have hstep : SameFor r d.engine (d.engine.handleChannelPeerFailure k j).2 :=
    sameFor_channelStep (channelStep_peerFailure k j) (artifacts_peerFailure k j) hk hne
  have hhome : Homed home (d.engine.handleChannelPeerFailure k j).2 :=
    homed_channelStep h (channelStep_peerFailure k j)
  unfold Daemon.failChannel
  dsimp only
  split
  · rename_i jobIds haction
    obtain ⟨c, hc, hpart⟩ := killParticipants_mem haction
    cases hk.symm.trans hc
    have hkill := sameFor_killPeers w r₀ j hne jobIds
      (d := d.act w (.call r₀ (.handleChannelPeerFailure k j))) hhome
      (fun p hp => h.participant k ch hk p (hpart p hp).1)
    exact hstep.trans hkill
  · rename_i jobIds message _
    have hnotify := untouched_foldl (untouched_notifyPeer message) jobIds
      (d.act w (.call r₀ (.handleChannelPeerFailure k j)))
    rw [hnotify.engine]
    exact hstep
  · exact hstep

end

/-! ## Every reachable state -/

/-- Some assignment is agreed on by engine and database. -/
def Confined (c : Core) : Prop :=
  ∃ home, Homed home c.engine ∧ ∀ db, c.db = some db → HomedRows home db

/-- The clock has not fallen behind the start of the process where ids are drawn, and
a plan is made for a run that is there. All other actions are free. -/
def Permitted (c : Core) (x : World × Action) : Prop :=
  match x.2 with
  | .call _ (.submitRun _) | .call _ (.handleReviewCompletion _ _ _) => x.1.After c.engine.ids
  | .call _ (.materializePlan r _ _) | .call _ (.acceptPlan r _ _) =>
    x.1.After c.engine.ids ∧ (c.engine.store.getRun r).isSome = true
  | _ => True

instance (c : Core) (x : World × Action) : Decidable (Permitted c x) := by
  obtain ⟨w, ⟨r₀, f⟩ | _⟩ := x
  · rcases f with _ | _ <;> dsimp only [Permitted] <;> infer_instance
  all_goals
    dsimp only [Permitted]
    infer_instance

section
variable {home : JobId → Option RunId} {w : World} {e : OrchestratorEngine}

theorem homed_call {db : Option SqlitePersistence} {r : RunId} {f : Call} (h : Homed home e)
    (hp : Permitted ⟨e, db⟩ (w, .call r f)) :
    ∃ home', Knows home home' ∧ Homed home' (f.apply w e) := by
  have hkeep : ∀ {e'}, Homed home e' → ∃ home', Knows home home' ∧ Homed home' e' :=
    fun h' => ⟨home, .refl home, h'⟩
  have hrunOk : ∀ {r : RunId}, (e.store.getRun r).isSome = true → ':' ∉ r.toList := by
    intro r hr
    obtain ⟨run, hrun⟩ := Option.isSome_iff_exists.mp hr
    exact h.run r run hrun
  cases f with
  | submitRun task => exact homed_submitRun h hp task
  | nextJob => exact hkeep (homed_nextJob h)
  | markRunning j => exact hkeep (homed_markRunning h j)
  | startNext => exact hkeep (homed_startNext h)
  | recordHeartbeat j =>
    refine hkeep ?_
    change Homed home (e.recordHeartbeat w j)
    unfold recordHeartbeat
    split
    · exact ⟨h.issued, h.job, h.active, h.participant, h.channel, h.run⟩
    · exact h
  | markCompleted j o => exact hkeep (homed_markCompleted h j o)
  | markFailed j err => exact hkeep (homed_markFailed h j err)
  | materializePlan r p plan => exact homed_plan h hp.1 (hrunOk hp.2) rfl rfl rfl
  | acceptPlan r p plan => exact homed_plan h hp.1 (hrunOk hp.2) rfl rfl rfl
  | handleReviewCompletion j d m => exact homed_review h hp j d m
  | activateReadyChannels => exact hkeep (homed_channelStep h channelStep_activate)
  | routeChannelMessage ch j m => exact hkeep (homed_channelStep h (channelStep_route ch j m))
  | handleChannelDone ch j => exact hkeep (homed_channelStep h (channelStep_done ch j))
  | handleChannelPeerFailure ch j =>
    exact hkeep (homed_channelStep h (channelStep_peerFailure ch j))
  | createArtifact a =>
    exact hkeep ⟨h.issued, h.job, h.active, h.participant, h.channel, h.run⟩
  | cancelRun r => exact hkeep (homed_cancelRun h r)
  | removeRun r => exact hkeep (homed_removeRun h r)

theorem homedRows_persistRunState {db : SqlitePersistence} (h : Homed home e)
    (hdb : HomedRows home db) (r : RunId) :
    HomedRows home (db.persistRunState w e.store r) := by
  refine ⟨?_, ?_, ?_, ?_⟩
  · intro k job hk
    rw [SqlitePersistence.getJob_persistRunState] at hk
    split at hk
    · exact h.job k job hk
    · exact hdb.job k job hk
  · intro k ch hk
    rw [SqlitePersistence.getChannel_persistRunState] at hk
    split at hk
    · exact h.participant k ch hk
    · exact hdb.participant k ch hk
  · intro k ch hk
    rw [SqlitePersistence.getChannel_persistRunState] at hk
    split at hk
    · exact h.channel k ch hk
    · exact hdb.channel k ch hk
  · intro k run hk
    rw [SqlitePersistence.getRun_persistRunState] at hk
    split at hk
    · exact h.run k run hk
    · exact hdb.run k run hk

theorem homed_hydrate {db : SqlitePersistence} (h : Homed home e) (hdb : HomedRows home db) :
    Homed home (hydrate w (some db) e.ids) := by
  refine ⟨?_, ?_, ?_, ?_, ?_, ?_⟩
  · exact fun k r hk => (h.issued k r hk).restart
  · intro k job hk
    rw [getJob_hydrate] at hk
    obtain ⟨job₀, hjob, rfl⟩ := Option.map_eq_some_iff.mp hk
    rw [Job.recover_runId]
    exact hdb.job k job₀ hjob
  · exact fun k r hk => by cases hk
  · intro k ch hk
    rw [getChannel_hydrate] at hk
    obtain ⟨ch₀, hch, rfl⟩ := Option.map_eq_some_iff.mp hk
    rw [(Channel.recover_same ch₀).1, (Channel.recover_same ch₀).2]
    exact hdb.participant k ch₀ hch
  · intro k ch hk
    rw [getChannel_hydrate] at hk
    obtain ⟨ch₀, hch, rfl⟩ := Option.map_eq_some_iff.mp hk
    rw [(Channel.recover_same ch₀).1]
    exact hdb.channel k ch₀ hch
  · intro k run hk
    rw [getRun_hydrate] at hk
    exact hdb.run k run hk

theorem homed_empty (n : Nat) (ids : IdSupply) :
    Homed (fun _ => none) { OrchestratorEngine.new n with ids := ids } where
  issued := fun _ _ h => by cases h
  job := fun _ _ h => by cases h
  active := fun _ _ h => by cases h
  participant := fun _ _ h => by cases h
  channel := fun _ _ h => by cases h
  run := fun _ _ h => by cases h

theorem confined_act (c : Core) (x : World × Action) (h : Confined c) (hp : Permitted c x) :
    Confined (coreStep c x) := by
  obtain ⟨home, hhome, hrows⟩ := h
  obtain ⟨w, a⟩ := x
  obtain ⟨e, db⟩ := c
  cases a with
  | call r f =>
    obtain ⟨home', hknows, hhome'⟩ := homed_call hhome hp
    exact ⟨home', hhome', fun db' hdb' => (hrows db' hdb').mono hknows⟩
  | persistRunState r =>
    refine ⟨home, hhome, fun db' hdb' => ?_⟩
    obtain ⟨db₀, hdb₀, rfl⟩ := Option.map_eq_some_iff.mp hdb'
    exact homedRows_persistRunState hhome (hrows db₀ hdb₀) r
  | persistArtifact a =>
    refine ⟨home, hhome, fun db' hdb' => ?_⟩
    obtain ⟨db₀, hdb₀, rfl⟩ := Option.map_eq_some_iff.mp hdb'
    obtain ⟨hjob, hpart, hch, hrun⟩ := hrows db₀ hdb₀
    exact ⟨hjob, hpart, hch, hrun⟩
  | genId pre =>
    refine ⟨home, ⟨fun k r hk => ?_, hhome.job, hhome.active, hhome.participant, hhome.channel,
      hhome.run⟩, hrows⟩
    exact (hhome.issued k r hk).mono (IdSupply.le_genId w e.ids pre)
  | expire r =>
    refine ⟨home, homed_removeRun hhome r, fun db' hdb' => ?_⟩
    obtain ⟨db₀, hdb₀, rfl⟩ := Option.map_eq_some_iff.mp hdb'
    obtain ⟨hjob, hpart, hch, hrun⟩ := hrows db₀ hdb₀
    refine ⟨fun k job hk => hjob k job (SqlitePersistence.getJob_deleteRun.mp hk).1,
      fun k ch hk => hpart k ch (SqlitePersistence.getChannel_deleteRun.mp hk).1,
      fun k ch hk => hch k ch (SqlitePersistence.getChannel_deleteRun.mp hk).1, fun k run hk => ?_⟩
    rw [SqlitePersistence.getRun_deleteRun] at hk
    split at hk
    · cases hk
    · exact hrun k run hk
  | hydrate =>
    cases db with
    | none => exact ⟨fun _ => none, homed_empty 4 _, fun _ hdb => by cases hdb⟩
    | some db => exact ⟨home, homed_hydrate hhome (hrows db rfl), hrows⟩

end

theorem confined_off (persistent : Bool) (sandboxOverride : Option Bool) (capsule : Bool) :
    Confined (Daemon.off persistent sandboxOverride capsule).core := by
  refine ⟨fun _ => none, homed_empty 4 IdSupply.new, fun db hdb => ?_⟩
  have hnew : db = .new := by
    cases persistent <;> cases hdb
    rfl
  subst hnew
  exact ⟨fun _ _ h => (by cases h), fun _ _ h => (by cases h), fun _ _ h => (by cases h),
    fun _ _ h => (by cases h)⟩

/-- What the handlers of the daemon do is permitted. -/
theorem permitted_of_legal {c : Core} {x : World × Action} (hs : Sound c) (hl : Legal c x) :
    Permitted c x := by
  obtain ⟨w, a⟩ := x
  obtain ⟨hafter, hl⟩ := hl
  cases a with
  | call r f =>
    cases f with
    | submitRun task => exact hafter
    | handleReviewCompletion j d m => exact hafter
    | materializePlan r' p plan => exact absurd hl (fun h => h)
    | acceptPlan r' p plan =>
      obtain ⟨rfl, _, job, hjob, hrun⟩ := hl
      refine ⟨hafter, Option.isSome_iff_exists.mpr ?_⟩
      exact hrun ▸ hs.grounded.runOf p job hjob
    | _ => exact True.intro
  | _ => exact True.intro

/-- The states of the daemon are among those reached by permitted actions. -/
theorem confined_daemon (persistent : Bool) (sandboxOverride : Option Bool) (capsule : Bool)
    (is : List (World × Input))
    (h : Meets Daemon.step Clocked (Daemon.off persistent sandboxOverride capsule) is) :
    Confined (run Daemon.step (Daemon.off persistent sandboxOverride capsule) is).core := by
  refine (core_clocked (P := Confined) (fun c x hs hl hc => ?_) (sound_off ..)
    (confined_off ..) h).2
  exact confined_act c x hc (permitted_of_legal hs hl)

/-- The operations made for other runs, and what they do to the run `r`. -/
structure Isolated (r : RunId) (e : OrchestratorEngine) : Prop where
  markCompleted : ∀ w j o job, e.store.getJob j = some job → job.runId ≠ r →
    SameFor r e (e.markCompleted w j o)
  markFailed : ∀ w j err job, e.store.getJob j = some job → job.runId ≠ r →
    SameFor r e (e.markFailed w j err)
  review : ∀ w j d m job, w.After e.ids → e.store.getJob j = some job → job.runId ≠ r →
    SameFor r e (e.handleReviewCompletion w j d m).2
  plan : ∀ w r₁ p plan run, w.After e.ids → e.store.getRun r₁ = some run → r₁ ≠ r →
    SameFor r e (e.materialize w r₁ p plan) ∧ SameFor r e (e.acceptPlan w r₁ p plan)
  route : ∀ w k j content ch, e.store.getChannel k = some ch → ch.runId ≠ r →
    SameFor r e (e.routeChannelMessage w k j content).2
  done : ∀ k j ch, e.store.getChannel k = some ch → ch.runId ≠ r →
    SameFor r e (e.handleChannelDone k j).2
  peerFailure : ∀ k j ch, e.store.getChannel k = some ch → ch.runId ≠ r →
    SameFor r e (e.handleChannelPeerFailure k j).2
  killAll : ∀ (d : Daemon) w r₀ k j ch, d.engine = e → e.store.getChannel k = some ch →
    ch.runId ≠ r → SameFor r e (d.failChannel w r₀ j k).engine
  cancelRun : ∀ w r₁, r₁ ≠ r → SameFor r e (e.cancelRun w r₁).2
  removeRun : ∀ w r₁, r₁ ≠ r → SameFor r e (e.removeRun w r₁)

theorem Homed.isolated {home : JobId → Option RunId} {e : OrchestratorEngine}
    (h : Homed home e) (r : RunId) : Isolated r e where
  markCompleted := fun _ j o job hj hne => sameFor_markCompleted h (h.job j job hj) hne o
  markFailed := fun _ j err job hj hne => sameFor_markFailed h (h.job j job hj) hne err
  review := fun _ _ d m _ hw hj hne => sameFor_review h hw hj hne d m
  plan := by
    intro w r₁ p plan run hw hrun hne
    refine ⟨sameFor_plan h hw (h.run r₁ run hrun) hne rfl []
      (List.append_nil _).symm (fun k hk => by cases hk) rfl rfl, ?_⟩
    refine sameFor_plan h hw (h.run r₁ run hrun) hne rfl _ rfl (fun k hk => ?_) rfl rfl
    exact (List.mem_filter.mp hk).1
  route := fun _ k j content _ hk hne =>
    sameFor_channelStep (channelStep_route k j content) (artifacts_route k j content) hk hne
  done := fun k j _ hk hne =>
    sameFor_channelStep (channelStep_done k j) (artifacts_done k j) hk hne
  peerFailure := fun k j _ hk hne =>
    sameFor_channelStep (channelStep_peerFailure k j) (artifacts_peerFailure k j) hk hne
  killAll := by
    intro d w r₀ k j ch h hk hne
    obtain rfl := h
    exact sameFor_failChannel h hk hne
  cancelRun := fun _ _ hne => sameFor_cancelRun h hne
  removeRun := fun _ _ hne => sameFor_removeRun hne

/-- Runs are isolated from each other in every reachable state of the engine. -/
theorem isolated_run (persistent : Bool) (sandboxOverride : Option Bool) (capsule : Bool)
    (l : List (World × Action))
    (h : Meets coreStep Permitted (Daemon.off persistent sandboxOverride capsule).core l)
    (r : RunId) :
    Isolated r (run coreStep (Daemon.off persistent sandboxOverride capsule).core l).engine := by
  obtain ⟨home, hhome, _⟩ := run_invariant confined_act
    (confined_off persistent sandboxOverride capsule) h
  exact hhome.isolated r

/-- Two runs, the first of which has started. -/
def twoRuns : List (World × Action) :=
  [(World.bare, .call "run_0_0" (.submitRun "first")),
    (World.bare, .call "run_0_2" (.submitRun "second")),
    (World.bare, .call "run_0_0" .startNext)]

/-- Whatever is done for the first run, the second stays in the queue. -/
theorem isolated_twoRuns :
    Isolated "run_0_2" (run coreStep (Daemon.off false none false).core twoRuns).engine ∧
      (run coreStep (Daemon.off false none false).core twoRuns).engine.queueOf "run_0_2" =
        ["job_0_3"] :=
  ⟨isolated_run false none false twoRuns (by decide) "run_0_2", by decide⟩

end ZeptoPM
