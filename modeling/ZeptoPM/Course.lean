import ZeptoPM.Purpose

/- The course of a channel job. `Spares` says which actions leave a job to its channels:
   they may create, release and start it, but neither complete nor fail it, and its open and
   closed channels stay what they are. Under such actions a job is queued while it is ready
   (`Queues`), is in channels that are still to be opened until it is started, and then runs
   as long as one of them is not closed (`Course`). Actions that may complete it as well
   (`Tolerates`) still leave it in its channels (`Remains`). -/
namespace ZeptoPM
open OrchestratorEngine Daemon

/-! ## Completions -/

/-- The job that the action completes. -/
def completedBy (x : World × Action) : Option JobId :=
  match x.2 with
  | .call _ (.markCompleted k _) => some k
  | _ => none

/-- How often the actions complete the job. -/
def completionsOf (j : JobId) (l : List (World × Action)) : Nat := (l.filterMap completedBy).count j

/-- How often actions from `e` on complete the job, if it is there. -/
def completionsFrom (j : JobId) (e : OrchestratorEngine) (l : List (World × Action)) : Nat :=
  if e.statusOf j = none then 0 else completionsOf j l

/-- How often the job is completed in the steps of a run. -/
def Daemon.completions (j : JobId) : Daemon → List (World × Input) → Nat
  | _, [] => 0
  | d, x :: is => completionsFrom j d.engine (d.step x).calls + Daemon.completions j (d.step x) is

/-! ## The channels of a job -/

namespace OrchestratorEngine

/-- The job takes part in the channel, which is closed or is not. -/
def Standing (e : OrchestratorEngine) (j : JobId) (id : ChannelId) (closed : Bool) : Prop :=
  ∃ ch, e.store.getChannel id = some ch ∧ j ∈ ch.participants ∧ ch.closed = closed

/-- The job has taken part in channels, and all of them are closed. -/
def AllClosed (e : OrchestratorEngine) (j : JobId) : Prop :=
  (∃ id, e.Standing j id true) ∧ ∀ id, ¬ e.Standing j id false

/-- None of the job's channels has been opened so far. -/
def Unopened (e : OrchestratorEngine) (j : JobId) : Prop :=
  ∀ id ch, e.store.getChannel id = some ch → j ∈ ch.participants →
    ch.active = false ∧ ch.closed = false

/-- The job is not there yet, or has not been started. -/
def Unstarted (e : OrchestratorEngine) (j : JobId) : Prop :=
  e.statusOf j = none ∨ e.statusOf j = some .pending ∨ e.statusOf j = some .ready

/-- The job is queued once while it is ready, and otherwise not. -/
def Queues (e : OrchestratorEngine) (j : JobId) : Prop :=
  e.readyQueue.count j = if e.statusOf j = some .ready then 1 else 0

end OrchestratorEngine

/-! ## What leaves a job to its channels -/

/-- What makes a channel one of a job's open or closed ones. -/
def Channel.standing (c : Channel) : List JobId × Bool := (c.participants, c.closed)

/-- The action neither completes nor fails the job, and keeps it in its channels, the open
and the closed ones. -/
def Spares (j : JobId) (c : Core) (x : World × Action) : Prop :=
  match x.2 with
  | .call _ f => j ∉ f.stops x.1 c.engine ∧ ∀ ch ∈ c.engine.store.allChannelsForJob x.1 j,
      ((coreStep c x).engine.store.getChannel ch.channelId).map Channel.standing = some ch.standing
  | .expire r => ∀ job ∈ c.engine.store.getJob j, job.runId ≠ r
  | .hydrate => c.engine.store.getJob j = none
  | _ => True

instance (j : JobId) (c : Core) (x : World × Action) : Decidable (Spares j c x) := by
  obtain ⟨w, a⟩ := x
  cases a <;> dsimp only [Spares] <;> infer_instance

/-- An event about a channel. -/
def Input.overChannel : Input → Bool
  | .event v => v.strOr "type" "" == "channel_message" || v.strOr "type" "" == "channel_done"
  | _ => false

/-- The event that reports the job completed. -/
def Input.completes (j : JobId) : Input → Bool
  | .event v => v.strOr "type" "" == "job_completed" && v.strOr "job_id" "" == j
  | _ => false

/-- The action spares the job, or completes it. -/
def Tolerates (j : JobId) (c : Core) (x : World × Action) : Prop :=
  Spares j c x ∨ completedBy x = some j

instance (j : JobId) (c : Core) (x : World × Action) : Decidable (Tolerates j c x) :=
  inferInstanceAs (Decidable (_ ∨ _))

/-- No failure concerns the job, and nothing but what is said over its channels closes them: it
does not fail, none of its peers does, its run is not cancelled and the process is not started
again. -/
def Faultless (j : JobId) (d : Daemon) (x : World × Input) : Prop :=
  Clocked d x ∧ (x.2.overChannel = false → Meets coreStep (Tolerates j) d.core (d.step x).calls)

instance (j : JobId) (d : Daemon) (x : World × Input) : Decidable (Faultless j d x) :=
  inferInstanceAs (Decidable (_ ∧ (_ → _)))

/-- No worker reports the job completed while it takes part in a channel. -/
def Unreported (j : JobId) (d : Daemon) (x : World × Input) : Prop :=
  d.alive = true → x.2.completes j = true → d.engine.store.allChannelsForJob x.1 j = []

instance (j : JobId) (d : Daemon) (x : World × Input) : Decidable (Unreported j d x) :=
  inferInstanceAs (Decidable (_ → _ → _))

/-! ## One spared action -/

section
variable {w : World} {e e' : OrchestratorEngine} {db : Option SqlitePersistence} {j : JobId}

theorem standing_of_get {id : ChannelId} {ch : Channel} (hch : e.store.getChannel id = some ch)
    (hj : j ∈ ch.participants) : e.Standing j id ch.closed := ⟨ch, hch, hj, rfl⟩

/-- A channel is known to nobody but jobs that are there. -/
theorem not_standing_of_none (hg : Grounded e) (hnone : e.store.getJob j = none) (id : ChannelId)
    (b : Bool) : ¬ e.Standing j id b := by
  rintro ⟨ch, hch, hj, _⟩
  obtain ⟨job, hjob, _⟩ := (hg.channelHome id ch hch).2 j hj
  rw [hnone] at hjob
  cases hjob

theorem unopened_of_none (hg : Grounded e) (hnone : e.store.getJob j = none) : e.Unopened j := by
  intro id ch hch hj
  exact absurd (standing_of_get hch hj) (not_standing_of_none hg hnone id ch.closed)

/-- A spared job stays in its channels and gets into no others. -/
theorem standing_call {r : RunId} {f : Call} (hg : Grounded e) (hl : Legal ⟨e, db⟩ (w, .call r f))
    (h : Spares j ⟨e, db⟩ (w, .call r f)) {job : Job} (hjob : e.store.getJob j = some job)
    (id : ChannelId) (b : Bool) : (f.apply w e).Standing j id b ↔ e.Standing j id b := by
  have hkept : ∀ ch, e.store.getChannel id = some ch → j ∈ ch.participants →
      ∃ ch', (f.apply w e).store.getChannel id = some ch' ∧ ch'.standing = ch.standing := by
    intro ch hch hj
    have hid := RunStore.channelId_of_getChannel hch
    have hmap := h.2 ch (RunStore.mem_allChannelsForJob.mpr ⟨hid.symm ▸ hch, hj⟩)
    rw [hid] at hmap
    exact Option.map_eq_some_iff.mp hmap
  constructor
  · rintro ⟨ch', hch', hj', rfl⟩
    obtain ⟨ch, hch, hj⟩ := channel_before hg hl hch' hj' hjob
    obtain ⟨ch'', hch'', heq⟩ := hkept ch hch hj
    cases hch'.symm.trans hch''
    exact ⟨ch, hch, hj, (congrArg Prod.snd heq).symm⟩
  · rintro ⟨ch, hch, hj, rfl⟩
    obtain ⟨ch', hch', heq⟩ := hkept ch hch hj
    have hparts : ch'.participants = ch.participants := congrArg Prod.fst heq
    exact ⟨ch', hch', hparts ▸ hj, congrArg Prod.snd heq⟩

/-- Channels of a job that does not run are not opened. -/
theorem unopened_call {r : RunId} {f : Call} (hg : Grounded e) (hl : Legal ⟨e, db⟩ (w, .call r f))
    (h : Spares j ⟨e, db⟩ (w, .call r f)) (hrun : e.statusOf j ≠ some .running)
    (hun : e.Unopened j) : (f.apply w e).Unopened j := by
  intro id ch' hch' hj'
  rcases channel_change w e f hch' with ⟨ch, hch, hmoved, hact⟩ | hnew
  · have hj : j ∈ ch.participants := hmoved.between.2 ▸ hj'
    obtain ⟨job, hjob, _⟩ := (hg.channelHome id ch hch).2 j hj
    obtain ⟨hinactive, hopen⟩ := hun id ch hch hj
    refine ⟨Bool.eq_false_iff.mpr fun hactive => ?_, ?_⟩
    · rcases hact hactive with hbefore | ⟨_, hall⟩
      · rw [hinactive] at hbefore
        cases hbefore
      · rw [allRunning, List.all_eq_true] at hall
        have hrunning := hall j hj
        rw [hjob] at hrunning
        exact hrun ((statusOf_some hjob).trans (congrArg some (beq_iff_eq.mp hrunning)))
    · obtain ⟨ch₁, hch₁, _, hclosed⟩ :=
        (standing_call hg hl h hjob id ch'.closed).mp (standing_of_get hch' hj')
      cases hch.symm.trans hch₁
      rw [← hclosed, hopen]
  · exact ⟨hnew.new.active, hnew.new.closed⟩

/-! ## The queue -/

theorem queues_congr (h : e.Queues j) (hqueue : e'.readyQueue = e.readyQueue)
    (hst : e'.statusOf j = e.statusOf j) : e'.Queues j := by
  unfold Queues
  rw [hqueue, hst]
  exact h

theorem queues_created (hg : Grounded e) (h : e.Queues j) {r : RunId} {new : List Job}
    (hn : Created e e' r new) : e'.Queues j := by
  have hnd : ((new.filter (fun k => k.status == .ready)).map (·.jobId)).Nodup :=
    (List.filter_sublist.map _).nodup hn.nodup
  unfold Queues
  rw [hn.readyQueue, List.count_append, show e.readyQueue.count j = _ from h]
  by_cases hmem : j ∈ new.map (·.jobId)
  · obtain ⟨job, hjob, rfl⟩ := List.mem_map.mp hmem
    have hnone : e.store.getJob job.jobId = none := by
      cases hget : e.store.getJob job.jobId with
      | none => rfl
      | some old => exact absurd (hg.supervised.jobIssued _ old hget) (hn.fresh job hjob)
    rw [statusOf_none hnone, statusOf_some (hn.getJob_new job hjob), if_neg nofun, Nat.zero_add,
      hnd.count]
    refine if_congr ?_ rfl rfl
    rw [List.mem_map]
    constructor
    · rintro ⟨job', hjob', hid⟩
      obtain ⟨hmem', hready⟩ := List.mem_filter.mp hjob'
      have hget := (congrArg e'.store.getJob hid).symm.trans (hn.getJob_new job' hmem')
      rw [hn.getJob_new job hjob] at hget
      cases hget
      exact congrArg some (beq_iff_eq.mp hready)
    · intro hready
      exact ⟨job, List.mem_filter.mpr ⟨hjob, beq_iff_eq.mpr (Option.some.inj hready)⟩, rfl⟩
  · rw [statusOf_congr (hn.getJob_old j hmem), List.count_eq_zero_of_not_mem, Nat.add_zero]
    intro hin
    exact hmem ((List.filter_sublist.map _).mem hin)

theorem queues_markCompleted (k : JobId) (o : List ArtifactId) (h : e.Queues j)
    (hk : k = j → e.statusOf j ≠ some .ready) : (e.markCompleted w k o).Queues j := by
  unfold Queues
  rw [readyQueue_markCompleted, List.count_append, show e.readyQueue.count j = _ from h,
    (promotedIds_nodup w e k o).count]
  cases hjob : e.store.getJob j with
  | none =>
    have hafter : (e.markCompleted w k o).store.getJob j = none := by
      rw [getJob_markCompleted, hjob]
      rfl
    rw [statusOf_none hjob, statusOf_none hafter, if_neg nofun, if_neg]
    intro hmem
    obtain ⟨_, job, _, _, hget, _⟩ := (mem_promotedIds w e k o).mp hmem
    rw [hjob] at hget
    cases hget
  | some job =>
    have hget : (e.markCompleted w k o).store.getJob j = some (e.afterCompletion w k o j job) := by
      rw [getJob_markCompleted, hjob]
      rfl
    obtain ⟨job₀, hjob₀, hcases⟩ := markCompleted_job w e k o hget
    cases hjob.symm.trans hjob₀
    rw [statusOf_some hget]
    rcases hcases with ⟨hjk, heq⟩ | ⟨hjk, hmem, hpending, heq⟩ | ⟨hjk, hnot, heq⟩
    · have hno : j ∉ e.promotedIds w k o := by
        intro hmem
        obtain ⟨_, _, _, hne, _⟩ := (mem_promotedIds w e k o).mp hmem
        exact hne hjk
      rw [if_neg (hk hjk.symm), if_neg hno, heq, if_neg nofun]
    · rw [statusOf_some hjob, hpending, if_neg nofun, if_pos hmem, heq]
      rfl
    · rw [statusOf_some hjob, if_neg hnot, heq, Nat.add_zero]

theorem queues_markFailed (k : JobId) (err : String) (h : e.Queues j) (hk : k ≠ j) :
    (e.markFailed w k err).Queues j := by
  have hst : (e.markFailed w k err).statusOf j = e.statusOf j := by
    refine statusOf_congr ?_
    rw [getJob_markFailed, if_neg (Ne.symm hk)]
  unfold Queues
  rw [readyQueue_markFailed, hst]
  split
  · rw [List.count_append, List.count_singleton, if_neg (by simpa using hk)]
    exact h
  · exact h

/-- Of a run that is cancelled only those jobs stay as they are that were over. -/
theorem queues_cancelled {r : RunId} (hc : CancelledRun w e e' r) (h : e.Queues j)
    (hno : ¬ e.Cancels r j) : e'.Queues j := by
  have hst : e'.statusOf j = e.statusOf j := statusOf_congr (hc.getJob_other j hno)
  unfold Queues
  rw [hc.queue, hst]
  cases hjob : e.store.getJob j with
  | none =>
    rw [List.count_filter (by rw [hjob]; rfl)]
    exact h
  | some job =>
    by_cases hr : job.runId = r
    · have hover : e.statusOf j ≠ some .ready := by
        rw [statusOf_some hjob]
        intro hready
        refine hno ⟨job, hjob, hr, ?_⟩
        rw [Option.some.inj hready]
        rfl
      rw [if_neg hover]
      refine List.count_eq_zero_of_not_mem fun hmem => ?_
      have hkeep := (List.mem_filter.mp hmem).2
      rw [hjob, Option.map_some, Option.getD_some] at hkeep
      exact bne_iff_ne.mp hkeep hr
    · have hkeep : ((e.store.getJob j).map (fun job => job.runId != r)).getD true = true := by
        rw [hjob]
        exact bne_iff_ne.mpr hr
      exact (List.count_filter (p := fun jid =>
        ((e.store.getJob jid).map (fun job => job.runId != r)).getD true) hkeep).trans h

theorem queues_startNext (h : e.Queues j) : (e.startNext w).2.Queues j := by
  rcases startNext_cases w e with ⟨q, heq, hq⟩ | ⟨job, q, _, hq, hjob, heq⟩
  · have hst : (e.startNext w).2.statusOf j = e.statusOf j := by
      rw [heq]
      rfl
    unfold Queues at h ⊢
    rw [hst, heq]
    show q.count j = _
    rcases hq with rfl | ⟨k, hqueue, hnone⟩
    · exact h
    · rw [hqueue] at h
      by_cases hk : k = j
      · -- a job that is not there is not queued
        subst hk
        rw [List.count_cons_self, statusOf_none hnone, if_neg nofun] at h
        cases h
      · rwa [List.count_cons_of_ne hk] at h
  · unfold Queues at h ⊢
    rw [heq]
    show q.count j = _
    rw [hq] at h
    have hget := getJob_started w e job q j
    by_cases hk : j = job.jobId
    · subst hk
      rw [if_pos rfl, hjob] at hget
      rw [List.count_cons_self] at h
      rw [statusOf_some hget, if_neg nofun]
      split at h
      · exact Nat.succ.inj h
      · cases h
    · rw [if_neg hk] at hget
      rw [statusOf_congr hget]
      rwa [List.count_cons_of_ne (Ne.symm hk)] at h

/-- The queue is kept in order for a job that no call takes out of its run. -/
theorem queues_call {r : RunId} {f : Call} (hg : Grounded e) (hl : Legal ⟨e, db⟩ (w, .call r f))
    (hstop : j ∈ f.stops w e → (∃ o, f = .markCompleted j o) ∧ e.statusOf j = some .running)
    (h : e.Queues j) : (f.apply w e).Queues j := by
  cases outcome_call hg hl with
  | frame hf => exact queues_congr h hf.readyQueue (statusOf_congr (hf.getJob j))
  | submitted task hn _ => exact queues_created hg h hn
  | dropped q heq hq => exact queues_startNext h
  | started job q hq hjob heq => exact queues_startNext h
  | completed k o =>
    refine queues_markCompleted k o h fun hk => ?_
    rw [(hstop (List.mem_singleton.mpr hk.symm)).2]
    nofun
  | failed k err =>
    refine queues_markFailed k err h fun hk => ?_
    obtain ⟨⟨o, ho⟩, _⟩ := hstop (List.mem_singleton.mpr hk.symm)
    cases ho
  | planned r p plan hn => exact queues_created hg h hn.created
  | revised k d m rev new _ hn => exact queues_created hg h hn.created
  | cancelled r hc =>
    rcases cancelRun_cases w hg.supervised.home r with ⟨err, heq⟩ | ⟨msg, _, hok, _⟩
    · show (e.cancelRun w r).2.Queues j
      rw [heq]
      exact h
    · refine queues_cancelled hc h fun hcan => ?_
      obtain ⟨⟨o, ho⟩, _⟩ := hstop ((mem_stops_cancelRun hok).mpr hcan)
      cases ho

/-! ## Stages -/

/-- What a spared action makes of the job: it may be created, released and started. -/
structure Spared (j : JobId) (e e' : OrchestratorEngine) : Prop where
  queues : e'.Queues j
  status : e'.statusOf j = e.statusOf j ∨
    e.Unstarted j ∧ (e'.Unstarted j ∨ e'.statusOf j = some .running)
  standing : e.statusOf j ≠ none → ∀ id b, e'.Standing j id b ↔ e.Standing j id b
  unopened : e.statusOf j ≠ some .running → e.Unopened j → e'.Unopened j

theorem spared_call {r : RunId} {f : Call} (hg : Grounded e) (hl : Legal ⟨e, db⟩ (w, .call r f))
    (h : Spares j ⟨e, db⟩ (w, .call r f)) (hq : e.Queues j) : Spared j e (f.apply w e) where
  queues := queues_call hg hl (fun hstop => absurd hstop h.1) hq
  standing := by
    intro hknown
    cases hjob : e.store.getJob j with
    | none => exact absurd (statusOf_none hjob) hknown
    | some job => exact standing_call hg hl h hjob
  unopened := unopened_call hg hl h
  status := by
    have hmove := status_call hg hl j
    generalize hst : e.statusOf j = st at hmove
    generalize hst' : (f.apply w e).statusOf j = st' at hmove
    cases hmove with
    | kept => exact Or.inl rfl
    | completed _ hstop => exact absurd hstop h.1
    | failed _ _ hstop => exact absurd hstop h.1
    | released => exact Or.inr ⟨Or.inr (Or.inl hst), Or.inl (Or.inr (Or.inr hst'))⟩
    | made st' hready =>
      refine Or.inr ⟨Or.inl hst, Or.inl (Or.inr ?_)⟩
      rcases hready with rfl | rfl
      · exact Or.inr hst'
      · exact Or.inl hst'
    | started st' hstart =>
      -- only a ready job is at the head of the queue
      cases f with
      | startNext =>
        obtain ⟨job, hjob, rfl⟩ := Option.map_eq_some_iff.mp hstart
        obtain ⟨q, _, hqueue, _⟩ := startNext_job w e hjob
        unfold Queues at hq
        rw [hqueue, List.count_cons_self] at hq
        split at hq
        · rename_i hready
          exact Or.inr ⟨Or.inr (Or.inr hready), Or.inr rfl⟩
        · cases hq
      | _ => cases hstart

theorem spared_same (hq : e.Queues j) (hqueue : e'.readyQueue = e.readyQueue)
    (hjob : e'.store.getJob j = e.store.getJob j)
    (hchannel : ∀ id ch, j ∈ ch.participants →
      (e'.store.getChannel id = some ch ↔ e.store.getChannel id = some ch)) : Spared j e e' where
  queues := queues_congr hq hqueue (statusOf_congr hjob)
  status := Or.inl (statusOf_congr hjob)
  standing := by
    intro _ id b
    constructor
    · rintro ⟨ch, hch, hj, hb⟩
      exact ⟨ch, (hchannel id ch hj).mp hch, hj, hb⟩
    · rintro ⟨ch, hch, hj, hb⟩
      exact ⟨ch, (hchannel id ch hj).mpr hch, hj, hb⟩
  unopened := fun _ hun id ch hch hj => hun id ch ((hchannel id ch hj).mp hch) hj

/-- A spared action leads from one stage of the job to the next at most. -/
theorem spared_act {c : Core} {x : World × Action} (hs : Sound c) (hl : Legal c x)
    (h : Spares j c x) (hq : c.engine.Queues j) : Spared j c.engine (coreStep c x).engine := by
  have hs' : Sound (coreStep c x) := sound_act hs hl
  obtain ⟨e, db⟩ := c
  obtain ⟨w, a⟩ := x
  have hsame : ∀ e' : OrchestratorEngine, e'.store = e.store → e'.readyQueue = e.readyQueue →
      Spared j e e' := by
    intro e' hstore hqueue
    exact spared_same hq hqueue (by rw [hstore]) (fun _ _ _ => by rw [hstore])
  cases a with
  | call r f => exact spared_call hs.grounded hl h hq
  | persistRunState r => exact hsame _ rfl rfl
  | persistArtifact artifact => exact hsame _ rfl rfl
  | genId pre => exact hsame _ rfl rfl
  | expire r =>
    refine spared_same hq rfl ?_ ?_
    · cases hjob : e.store.getJob j with
      | some job => exact getJob_expire.mpr ⟨hjob, h job hjob⟩
      | none =>
        cases hjob' : (coreStep ⟨e, db⟩ (w, .expire r)).engine.store.getJob j with
        | none => rfl
        | some job =>
          rw [(getJob_expire.mp hjob').1] at hjob
          cases hjob
    · intro id ch hj
      refine ⟨fun hch => (getChannel_expire.mp hch).1, fun hch => getChannel_expire.mpr ⟨hch, ?_⟩⟩
      obtain ⟨job, hjob, hr⟩ := (hs.grounded.channelHome id ch hch).2 j hj
      exact hr ▸ h job hjob
  | hydrate =>
    have hnone : e.store.getJob j = none := h
    have hnone' : (coreStep ⟨e, db⟩ (w, .hydrate)).engine.store.getJob j = none := by
      cases db with
      | none => rfl
      | some db =>
        refine (getJob_hydrate j).trans ?_
        cases hrow : db.getJob j with
        | none => rfl
        | some row =>
          obtain ⟨⟨job, hjob, _⟩, _⟩ := (hs.image db rfl).job j row hrow
          rw [hnone] at hjob
          cases hjob
    refine ⟨?_, Or.inl ?_, fun hknown => absurd (statusOf_none hnone) hknown,
      fun _ _ => unopened_of_none hs'.grounded hnone'⟩
    · unfold Queues
      rw [statusOf_none hnone', if_neg nofun]
      refine List.count_eq_zero_of_not_mem fun hmem => ?_
      cases db with
      | none => cases hmem
      | some db =>
        obtain ⟨job, hjob, _⟩ := mem_readyQueue_hydrate.mp hmem
        cases hnone'.symm.trans hjob
    · rw [statusOf_none hnone, statusOf_none hnone']

end

/-! ## Actions that may complete the job -/

/-- The job is still there, in the same channels. -/
structure Remains (j : JobId) (e e' : OrchestratorEngine) : Prop where
  known : e'.statusOf j ≠ none
  standing : ∀ id b, e'.Standing j id b ↔ e.Standing j id b

/-- The job is there, and takes part in no channel. -/
structure OrchestratorEngine.Outside (e : OrchestratorEngine) (j : JobId) : Prop where
  known : e.statusOf j ≠ none
  standing : ∀ id b, ¬ e.Standing j id b

section
variable {e e' : OrchestratorEngine} {j : JobId} {c : Core} {x : World × Action}
  {l : List (World × Action)}

theorem statusOf_ne_none {job : Job} (h : e.store.getJob j = some job) : e.statusOf j ≠ none := by
  rw [statusOf_some h]
  nofun

/-- A job that is there is not taken away by a call. -/
theorem known_call {w : World} {db : Option SqlitePersistence} {r : RunId} {f : Call}
    (hg : Grounded e) (hl : Legal ⟨e, db⟩ (w, .call r f)) (h : e.statusOf j ≠ none) :
    (f.apply w e).statusOf j ≠ none := by
  have hmove := status_call hg hl j
  generalize e.statusOf j = st at h hmove
  generalize (f.apply w e).statusOf j = st' at hmove
  cases hmove with
  | kept => exact h
  | _ => nofun

theorem remains_act (hs : Sound c) (hl : Legal c x) (h : Tolerates j c x)
    (hknown : c.engine.statusOf j ≠ none) : Remains j c.engine (coreStep c x).engine := by
  obtain ⟨e, db⟩ := c
  obtain ⟨w, a⟩ := x
  obtain ⟨job, hjob⟩ : ∃ job, e.store.getJob j = some job := by
    cases hget : e.store.getJob j with
    | none => exact absurd (statusOf_none hget) hknown
    | some job => exact ⟨job, rfl⟩
  have hsame : ∀ e' : OrchestratorEngine, e'.store = e.store → Remains j e e' := by
    intro e' hstore
    refine ⟨?_, fun id b => ?_⟩
    · rw [statusOf, hstore]
      exact hknown
    · rw [Standing, hstore]
      rfl
  cases a with
  | call r f =>
    refine ⟨known_call hs.grounded hl hknown, fun id b => ?_⟩
    rcases h with h | h
    · exact standing_call hs.grounded hl h hjob id b
    · cases f with
      | markCompleted k o =>
        have hget := getChannel_spared w e (f := .markCompleted k o) rfl id
        show (Call.apply w e (.markCompleted k o)).Standing j id b ↔ _
        rw [Standing, hget]
        rfl
      | _ => cases h
  | persistRunState r => exact hsame _ rfl
  | persistArtifact artifact => exact hsame _ rfl
  | genId pre => exact hsame _ rfl
  | expire r =>
    have hr : job.runId ≠ r := by
      rcases h with h | h
      · exact h job hjob
      · cases h
    refine ⟨statusOf_ne_none (getJob_expire.mpr ⟨hjob, hr⟩), fun id b => ?_⟩
    constructor
    · rintro ⟨ch, hch, hj, hb⟩
      exact ⟨ch, (getChannel_expire.mp hch).1, hj, hb⟩
    · rintro ⟨ch, hch, hj, hb⟩
      obtain ⟨job', hjob', hrun⟩ := (hs.grounded.channelHome id ch hch).2 j hj
      cases hjob.symm.trans hjob'
      exact ⟨ch, getChannel_expire.mpr ⟨hch, hrun ▸ hr⟩, hj, hb⟩
  | hydrate =>
    rcases h with hnone | h
    · cases hjob.symm.trans hnone
    · cases h

/-- What such actions leave of a job that is there. -/
theorem remains_run : ∀ {c : Core}, Sound c →
    Meets coreStep (fun c x => Legal c x ∧ Tolerates j c x) c l → c.engine.statusOf j ≠ none →
      Remains j c.engine (run coreStep c l).engine := by
  induction l with
  | nil => exact fun _ _ hknown => ⟨hknown, fun _ _ => Iff.rfl⟩
  | cons x l ih =>
    intro c hs h hknown
    have hact := remains_act hs h.1.1 h.1.2 hknown
    have hrest := ih (sound_act hs h.1.1) h.2 hact.known
    exact ⟨hrest.known, fun id b => (hrest.standing id b).trans (hact.standing id b)⟩

theorem OrchestratorEngine.Outside.remains (h : e.Outside j) (hr : Remains j e e') :
    e'.Outside j where
  known := hr.known
  standing := fun id b hstanding => h.standing id b ((hr.standing id b).mp hstanding)

end

/-- Where the job stands, after so many completions. -/
inductive Course (j : JobId) (e : OrchestratorEngine) : Nat → Prop where
  | waiting (hst : e.Unstarted j) (hun : e.Unopened j) : Course j e 0
  | working (hst : e.statusOf j = some .running) (hopen : ¬ e.AllClosed j) : Course j e 0
  | done (hst : e.statusOf j = some .completed) (hover : e.AllClosed j) : Course j e 1

/-- The job still runs although its channels are closed. -/
structure Closing (j : JobId) (e : OrchestratorEngine) : Prop where
  status : e.statusOf j = some .running
  allClosed : e.AllClosed j

section
variable {e e' : OrchestratorEngine} {j : JobId} {n : Nat} {c : Core} {l : List (World × Action)}

theorem allClosed_congr (h : ∀ id b, e'.Standing j id b ↔ e.Standing j id b) :
    e'.AllClosed j ↔ e.AllClosed j := by
  unfold AllClosed
  simp only [h]

theorem not_allClosed_of_unopened (h : e.Unopened j) : ¬ e.AllClosed j := by
  rintro ⟨⟨id, ch, hch, hj, hclosed⟩, _⟩
  rw [(h id ch hch hj).2] at hclosed
  cases hclosed

theorem Course.spared (h : Course j e n) (hs : Spared j e e') : Course j e' n := by
  cases h with
  | waiting hst hun =>
    have hrun : e.statusOf j ≠ some .running := by
      rcases hst with hst | hst | hst <;> rw [hst] <;> nofun
    have hun' : e'.Unopened j := hs.unopened hrun hun
    rcases hs.status with heq | ⟨_, hawaited | hrunning⟩
    · refine .waiting ?_ hun'
      rw [Unstarted, heq]
      exact hst
    · exact .waiting hawaited hun'
    · exact .working hrunning (not_allClosed_of_unopened hun')
  | working hst hopen =>
    have hknown : e.statusOf j ≠ none := by
      rw [hst]
      nofun
    rcases hs.status with heq | ⟨hno | hno | hno, _⟩
    · refine .working (heq.trans hst) fun hover => hopen ?_
      exact (allClosed_congr (hs.standing hknown)).mp hover
    all_goals
      rw [hst] at hno
      cases hno
  | done hst hover =>
    have hknown : e.statusOf j ≠ none := by
      rw [hst]
      nofun
    rcases hs.status with heq | ⟨hno | hno | hno, _⟩
    · exact .done (heq.trans hst) ((allClosed_congr (hs.standing hknown)).mpr hover)
    all_goals
      rw [hst] at hno
      cases hno

theorem Spared.started (hs : Spared j e e') (h : ¬ e.Unstarted j) : ¬ e'.Unstarted j := by
  rcases hs.status with heq | ⟨hun, _⟩
  · rwa [Unstarted, heq]
  · exact absurd hun h

theorem not_unstarted (h : e.statusOf j = some .running ∨ e.statusOf j = some .completed) :
    ¬ e.Unstarted j := by
  rintro (hst | hst | hst)
  all_goals
    rw [hst] at h
    rcases h with h | h <;> cases h

theorem Closing.spared (h : Closing j e) (hs : Spared j e e') : Closing j e' := by
  have hknown : e.statusOf j ≠ none := by
    rw [h.status]
    nofun
  rcases hs.status with heq | ⟨hno | hno | hno, _⟩
  · exact ⟨heq.trans h.status, (allClosed_congr (hs.standing hknown)).mpr h.allClosed⟩
  all_goals
    rw [h.status] at hno
    cases hno

/-- What spared actions keep holds after a list of them. -/
theorem spared_run {P : OrchestratorEngine → Prop} (hP : ∀ e e', P e → Spared j e e' → P e')
    (hs : Sound c) (hq : c.engine.Queues j) (hp : P c.engine)
    (h : Meets coreStep (fun c x => Legal c x ∧ Spares j c x) c l) :
    Sound (run coreStep c l) ∧ (run coreStep c l).engine.Queues j ∧
      P (run coreStep c l).engine := by
  refine run_invariant (P := fun c => Sound c ∧ c.engine.Queues j ∧ P c.engine) ?_ ⟨hs, hq, hp⟩ h
  intro c x ⟨hs, hq, hp⟩ ⟨hl, hspares⟩
  have hspared := spared_act hs hl hspares hq
  exact ⟨sound_act hs hl, hspared.queues, hP _ _ hp hspared⟩

theorem completionsFrom_of_none (h : completionsOf j l = 0) : completionsFrom j e l = 0 := by
  unfold completionsFrom
  rw [h, ite_self]

theorem completionsFrom_of_known (h : e.statusOf j ≠ none) :
    completionsFrom j e l = completionsOf j l := if_neg h

/-- Tolerated actions that do not complete the job spare it. -/
theorem spares_of_tolerates (h : Meets coreStep (Tolerates j) c l)
    (hnone : ∀ x ∈ l, completedBy x ≠ some j) : Meets coreStep (Spares j) c l := by
  induction l generalizing c with
  | nil => exact True.intro
  | cons x l ih =>
    exact ⟨h.1.resolve_right (hnone x List.mem_cons_self),
      ih h.2 fun y hy => hnone y (List.mem_cons_of_mem x hy)⟩

/-- Spared actions do not complete the job. -/
theorem completionsOf_spared (h : Meets coreStep (Spares j) c l) : completionsOf j l = 0 := by
  induction l generalizing c with
  | nil => rfl
  | cons x l ih =>
    have hrest : completionsOf j (x :: l) = completionsOf j l := by
      obtain ⟨w, a⟩ := x
      cases a with
      | call r f =>
        cases f with
        | markCompleted k o =>
          have hk : k ≠ j := fun heq => h.1.1 (List.mem_singleton.mpr heq.symm)
          exact List.count_cons_of_ne hk
        | _ => rfl
      | _ => rfl
    rw [hrest]
    exact ih h.2

end

end ZeptoPM
