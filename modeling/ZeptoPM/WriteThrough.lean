import ZeptoPM.Outcomes
import ZeptoPM.Traversal

/- Whether the database is a write-through image of the store. Each handler
   persists one run when it is done, the run its calls are made for, and so the
   rows of that run are right. But the spawn loop inside it starts jobs of any
   run, and may make channels of any run active. `Flushed` says that the handler
   goes on to persist the runs of those too, and that what is hydrated needs no
   repair; `writtenThrough_run` shows that then no row is ever behind. Outside
   ticks a handler persists one run only, so there the condition can be read off
   each call and the state before it (`guardedRest_flushed_iff`). -/
namespace ZeptoPM
open OrchestratorEngine

/-! ## Rows and records -/

def RunRow.untimed (row : RunRow) : RunRow := { row with createdAt := 0, updatedAt := 0 }

def JobRow.untimed (row : JobRow) : JobRow :=
  { row with createdAt := 0, startedAt := none, finishedAt := none }

/-- The rows of each run in the store, of its jobs and of its channels are those of
the records, timestamps aside. -/
def WrittenThrough (c : Core) : Prop :=
  ∀ db, c.db = some db → ∀ r run, c.engine.store.getRun r = some run →
    (db.runs.get r).map RunRow.untimed = some run.toRow.untimed ∧
      (∀ k, ((db.jobs.get k).filter (fun row => row.runId == r)).map JobRow.untimed =
        ((c.engine.store.getJob k).filter (fun job => job.runId == r)).map
          (fun job => job.toRow.untimed)) ∧
      ∀ k, (db.channels.get k).filter (fun row => row.runId == r) =
        ((c.engine.store.getChannel k).filter (fun ch => ch.runId == r)).map Channel.toRow

/-! ## The condition -/

/-- The runs of jobs that are started and of channels that are activated are
persisted later in the step, and no row that is hydrated is of a running job or an
active channel. -/
def Flushed (c : Core) (x : World × Action) (rest : List (World × Action)) : Prop :=
  match x.2 with
  | .call _ .startNext => ∀ job ∈ c.engine.nextJob.1, Awaited job.runId rest
  | .call _ .activateReadyChannels => ∀ k ∈ (c.engine.activateReadyChannels x.1).1,
      ∀ ch ∈ c.engine.store.getChannel k, Awaited ch.runId rest
  | .hydrate => ∀ db ∈ c.db, (∀ job ∈ db.loadJobs x.1, job.status ≠ .running) ∧
      ∀ ch ∈ db.loadChannels x.1, ch.closed = true ∨ ch.active = false
  | _ => True

instance (c : Core) (x : World × Action) (rest : List (World × Action)) :
    Decidable (Flushed c x rest) := by
  obtain ⟨w, ⟨r₀, f⟩ | _⟩ := x
  · rcases f with _ | _ <;> dsimp only [Flushed] <;> infer_instance
  all_goals
    dsimp only [Flushed]
    infer_instance

/-! ## Steps for one run -/

/-- What is started or activated is of the run that the call is made for, and no row that is
hydrated is of a running job or an active channel. -/
def Own (c : Core) (x : World × Action) : Prop :=
  match x.2 with
  | .call r .startNext => ∀ job ∈ c.engine.nextJob.1, job.runId = r
  | .call r .activateReadyChannels => ∀ k ∈ (c.engine.activateReadyChannels x.1).1,
      ∀ ch ∈ c.engine.store.getChannel k, ch.runId = r
  | .hydrate => ∀ db ∈ c.db, (∀ job ∈ db.loadJobs x.1, job.status ≠ .running) ∧
      ∀ ch ∈ db.loadChannels x.1, ch.closed = true ∨ ch.active = false
  | _ => True

/-- The handler persists the run `r` and no other. -/
def PersistsOnly (r : RunId) (w : World) : Daemon → Daemon → Prop :=
  Did (fun a => ∀ r', a.persists = some r' → r' = r) w

section
open Daemon
variable {w : World} {d d' : Daemon} {r : RunId} {l : List (World × Action)} {i : Input}

theorem skeleton_persistsNone (w : World) : Skeleton w (Did (·.persists = none) w) true false :=
  skeleton_did (fun _ h => Action.persists_of_isPlain h) (fun _ => rfl) w

theorem persistsOnly_of_none (h : Did (·.persists = none) w d d') : PersistsOnly r w d d' :=
  h.mono fun a ha r' hr => by
    rw [ha] at hr
    cases hr

theorem persistsOnly_persist (d : Daemon) : PersistsOnly r w d (d.act w (.persistRunState r)) :=
  .act d fun _ hr => (Option.some.inj hr).symm

theorem persistsOnly_finishes (h : Finishes w (Did (·.persists = none) w) d d') :
    ∃ r, PersistsOnly r w d d' := by
  obtain ⟨r, d₁, hd₁, rfl⟩ := h
  have hfill : Did (·.persists = none) w d₁ (activateChannels w r (spawnLoop w r d₁)) :=
    (skeleton_persistsNone w).fill d₁
  exact ⟨r, (persistsOnly_of_none (hd₁.trans hfill)).trans (persistsOnly_persist _)⟩

theorem persistsOnly_handleEvent {event : Json} (h : d.handleEvent w event = .ok d') :
    ∃ r, PersistsOnly r w d d' := by
  have hk := skeleton_persistsNone w
  unfold handleEvent at h
  dsimp only at h
  split at h
  · cases h
    exact ⟨"", persistsOnly_of_none (.act d rfl)⟩
  · cases h
    exact ⟨"", persistsOnly_of_none (.act d rfl)⟩
  · exact persistsOnly_finishes ((hk.jobCompleted d _ _).1 h)
  · cases h
    exact persistsOnly_finishes (hk.jobFailed ..)
  · cases h
    exact persistsOnly_finishes (hk.channelMessage ..)
  · cases h
    exact persistsOnly_finishes (hk.channelDone ..)
  · cases h
    exact ⟨"", persistsOnly_of_none (hk.trans (.act d rfl) (.act _ rfl))⟩
  · cases h
    exact ⟨"", persistsOnly_of_none (Untouched.refl d).did⟩

theorem persistsOnly_handleCommand (d : Daemon) (command : DaemonCommand) :
    ∃ r, PersistsOnly r w d (d.handleCommand w command) := by
  have hk := skeleton_persistsNone w
  cases command with
  | submitRun task =>
    obtain ⟨r, hr⟩ := persistsOnly_finishes (hk.submitRun d task)
    exact ⟨r, hr.trans (untouched_send _ _).did⟩
  | cancelRun r =>
    refine ⟨r, ?_⟩
    have hcancel := hk.cancelRun d r
    rw [handleCommand_cancelRun]
    split
    · rename_i heq
      rw [heq] at hcancel
      exact ((persistsOnly_of_none hcancel).trans (persistsOnly_persist _)).trans
        (untouched_send _ _).did
    · rename_i heq
      rw [heq] at hcancel
      exact (persistsOnly_of_none hcancel).trans (untouched_send _ _).did
  | start name => exact ⟨"", (untouched_startAgent d name).did⟩
  | restart name => exact ⟨"", (untouched_restartAgent d name).did⟩
  | _ => exact ⟨"", (Untouched.refl d).did⟩

/-- But for ticks and the shutdown, a step that the process survives persists one run at most. -/
theorem persists_step (halive : (d.step (w, i)).alive = true) (htick : i ≠ .tick) :
    ∃ r, ∀ x ∈ (d.step (w, i)).calls, ∀ r', x.2.persists = some r' → r' = r := by
  have hof : ∀ {d₀ d' : Daemon}, d₀.calls = [] → (∃ r, PersistsOnly r w d₀ d') →
      ∃ r, ∀ x ∈ d'.calls, ∀ r', x.2.persists = some r' → r' = r := by
    intro d₀ d' hempty ⟨r, l, hcalls, hl⟩
    rw [hcalls, hempty, List.nil_append]
    exact ⟨r, fun x hx => (hl x hx).2⟩
  generalize hd₀ : ({ d with sent := [], calls := [] } : Daemon) = d₀
  have hempty : d₀.calls = [] := by rw [← hd₀]
  cases hd : d.alive with
  | false =>
    rw [calls_of_dead hd halive]
    refine ⟨"", fun x hx r' hr => ?_⟩
    rw [List.mem_singleton.mp hx] at hr
    cases hr
  | true =>
    rw [step_of_alive hd₀.symm hd] at halive ⊢
    cases i with
    | update u => exact hof hempty ⟨"", (untouched_agentUpdate w d₀ u).did⟩
    | command c => exact hof hempty (persistsOnly_handleCommand d₀ c)
    | event v =>
      cases hv : d₀.handle w (.event v) with
      | ok d' => exact hof hempty (persistsOnly_handleEvent hv)
      | error d' =>
        rw [hv] at halive
        cases halive
    | tick => exact absurd rfl htick
    | shutdown => cases halive
    | start =>
      obtain ⟨l, hcalls, _, hl⟩ := boot_calls w d₀
      show ∃ r, ∀ x ∈ (d₀.boot w).calls, _
      rw [hcalls, hempty, List.nil_append]
      refine ⟨"", fun x hx r' hr => ?_⟩
      rcases hl with ⟨rfl, _⟩ | rfl
      · cases hx
      · rw [List.mem_singleton.mp hx] at hr
        cases hr

theorem persists_of_awaited (h : Awaited r l) : ∃ x ∈ l, x.2.persists = some r := by
  induction l with
  | nil => cases h
  | cons x l ih =>
    rcases h with hx | ⟨_, hl⟩
    · exact ⟨x, List.mem_cons_self, hx⟩
    · obtain ⟨y, hy, hr⟩ := ih hl
      exact ⟨y, List.mem_cons_of_mem x hy, hr⟩

/-- Where one run is persisted, `Flushed` is a condition on the call and the state before it. -/
theorem flushed_iff_own (hone : ∀ x ∈ l, ∀ r', x.2.persists = some r' → r' = r) :
    ∀ {c : Core}, Settled l → (MeetsRest coreStep Flushed c l ↔ Meets coreStep Own c l) := by
  induction l with
  | nil => exact fun _ => Iff.rfl
  | cons x l ih =>
    intro c hset
    have hawaited : ∀ r₀, x.2.owes = some r₀ → ∀ r', Awaited r' l ↔ r' = r₀ := by
      have honly : ∀ r', Awaited r' l → r' = r := by
        intro r' h
        obtain ⟨y, hy, hr⟩ := persists_of_awaited h
        exact hone y (List.mem_cons_of_mem x hy) r' hr
      intro r₀ howes r'
      have howed := hset.1 r₀ howes
      refine ⟨fun h => (honly r' h).trans (honly r₀ howed).symm, ?_⟩
      rintro rfl
      exact howed
    refine and_congr ?_ (ih (fun y hy => hone y (List.mem_cons_of_mem x hy)) hset.2)
    obtain ⟨w, a⟩ := x
    cases a with
    | call r₀ f =>
      cases f with
      | startNext =>
        exact forall₂_congr fun job _ => hawaited r₀ rfl job.runId
      | activateReadyChannels =>
        exact forall₂_congr fun k _ => forall₂_congr fun ch _ => hawaited r₀ rfl ch.runId
      | _ => exact Iff.rfl
    | _ => exact Iff.rfl

/-- Outside ticks the database is a write-through image as long as all that is started or
activated is of the run that the step is about. -/
theorem guardedRest_flushed_iff (hs : Sound d.core) (htick : i ≠ .tick)
    (halive : (d.step (w, i)).alive = true) :
    GuardedRest Flushed d (w, i) ↔ Guarded Own d (w, i) := by
  refine and_congr_right fun hclocked => ?_
  obtain ⟨_, _, _, hset⟩ := step_takes i ⟨hs, hclocked⟩
  obtain ⟨r, hone⟩ := persists_step halive htick
  exact flushed_iff_own hone (hset halive)

end

/-! ## Which runs a call touches -/

/-- Records that differ are of runs in `R`. -/
structure Touches (R : RunId → Prop) (e e' : OrchestratorEngine) : Prop where
  run : ∀ k, e'.store.getRun k = e.store.getRun k ∨ (R k ∧ (e'.store.getRun k).isSome = true)
  job : ∀ k, e'.store.getJob k = e.store.getJob k ∨
    ∃ job, e'.store.getJob k = some job ∧ R job.runId
  channel : ∀ k, e'.store.getChannel k = e.store.getChannel k ∨
    ∃ ch, e'.store.getChannel k = some ch ∧ R ch.runId

/-- The runs whose records a call made for `r` may change. -/
def TouchedBy (w : World) (e : OrchestratorEngine) (r : RunId) : Call → RunId → Prop
  | .startNext => fun r' => ∃ job ∈ e.nextJob.1, job.runId = r'
  | .activateReadyChannels => fun r' => ∃ k ∈ (e.activateReadyChannels w).1,
      ∃ ch ∈ e.store.getChannel k, ch.runId = r'
  | .recordHeartbeat _ | .createArtifact _ => fun _ => False
  | _ => fun r' => r' = r

section
variable {w : World} {e e' : OrchestratorEngine} {r : RunId}

theorem touches_created {new : List Job} (hn : Created e e' r new)
    (hrun : ∀ k, e'.store.getRun k = e.store.getRun k ∨
      (k = r ∧ (e'.store.getRun k).isSome = true))
    (hch : ∀ k, e'.store.getChannel k = e.store.getChannel k ∨
      ∃ ch, e'.store.getChannel k = some ch ∧ ch.runId = r) :
    Touches (fun r' => r' = r) e e' := by
  refine ⟨hrun, fun k => ?_, hch⟩
  by_cases hk : k ∈ new.map (·.jobId)
  · obtain ⟨job, hjob, rfl⟩ := List.mem_map.mp hk
    exact Or.inr ⟨job, hn.getJob_new job hjob, hn.runId job hjob⟩
  · exact Or.inl (hn.getJob_old k hk)

theorem touches_channelStep {k : ChannelId} (hs : ChannelStep e e' (fun c => c.channelId = k))
    (hr : ∀ ch, e.store.getChannel k = some ch → ch.runId = r) :
    Touches (fun r' => r' = r) e e' := by
  refine ⟨fun k => Or.inl (hs.frame.getRun k), fun k => Or.inl (hs.frame.getJob k), fun k' => ?_⟩
  rcases hs.channel k' with heq | ⟨ch, ch', hch, hch', hid, hr', _⟩
  · exact Or.inl heq
  · have hkey := RunStore.channelId_of_getChannel hch
    have hkk : k' = k := hkey.symm.trans hid
    exact Or.inr ⟨ch', hch', hr'.trans (hr ch (hkk ▸ hch))⟩

/-- An active job whose run exists is a job of the run its outcome is for. -/
theorem run_of_active (hg : Grounded e) {j : JobId} (hof : e.OfRun r j) {r' : RunId}
    (hact : e.activeJobs.get j = some r') (hrun : (e.store.getRun r').isSome = true) : r' = r := by
  cases hjob : e.store.getJob j with
  | none =>
    rw [hg.activeGone j r' hact hjob] at hrun
    cases hrun
  | some job => exact (hg.supervised.home j r' job hact hjob).symm.trans (hof job hjob)

/-- The run of a job that is over has been checked, and no other. -/
theorem touched_checked (hg : Grounded e) {j : JobId} (hof : e.OfRun r j) {s' : RunStore}
    {k : RunId} (hact : e.activeJobs.get j = some k) (hc : Checked w e.store s' k) :
    s'.getRun k = e.store.getRun k ∨ (k = r ∧ (s'.getRun k).isSome = true) := by
  have hsame := hc.isSome k
  cases hrun : e.store.getRun k with
  | none =>
    rw [hrun] at hsame
    exact Or.inl (Option.not_isSome_iff_eq_none.mp (by simp [hsame]))
  | some run =>
    refine Or.inr ⟨run_of_active hg hof hact (by rw [hrun]; rfl), ?_⟩
    rw [hsame, hrun]
    rfl

theorem touches_startNext : Touches (TouchedBy w e r .startNext) e (e.startNext w).2 := by
  rcases startNext_cases w e with ⟨q, heq, _⟩ | ⟨job, q, hlen, hq, hjob, heq⟩ <;> rw [heq]
  · exact ⟨fun _ => Or.inl rfl, fun _ => Or.inl rfl, fun _ => Or.inl rfl⟩
  · have hnext : TouchedBy w e r .startNext job.runId := by
      refine ⟨job, ?_, rfl⟩
      simp only [nextJob, if_neg (Nat.not_le.mpr hlen), hq, hjob]
      rfl
    refine ⟨fun k => ?_, fun k => ?_, fun _ => Or.inl rfl⟩
    · rw [getRun_started]
      split
      · rename_i hk
        rw [hk]
        cases e.store.getRun job.runId with
        | none => exact Or.inl rfl
        | some run => exact Or.inr ⟨hnext, rfl⟩
      · exact Or.inl rfl
    · rw [getJob_started]
      split
      · rw [hjob]
        exact Or.inr ⟨_, rfl, hnext⟩
      · exact Or.inl rfl

theorem touches_activate :
    Touches (TouchedBy w e r .activateReadyChannels) e (e.activateReadyChannels w).2 := by
  have hs := channelStep_activate (w := w) (e := e)
  refine ⟨fun k => Or.inl (hs.frame.getRun k), fun k => Or.inl (hs.frame.getJob k), fun k => ?_⟩
  rcases hs.channel k with heq | ⟨ch, ch', hch, hch', hact, hr, _⟩
  · exact Or.inl heq
  · exact Or.inr ⟨ch', hch', k, mem_activateReadyChannels.mpr ⟨ch, hch, hact⟩, ch, hch, hr.symm⟩

theorem touches_markCompleted (hg : Grounded e) {j : JobId} (o : List ArtifactId)
    (hof : e.OfRun r j) : Touches (fun r' => r' = r) e (e.markCompleted w j o) := by
  refine ⟨fun k => ?_, fun k => ?_, fun k => Or.inl (getChannel_markCompleted w e j o k)⟩
  · by_cases hact : e.activeJobs.get j = some k
    · exact touched_checked hg hof hact (checked_markCompleted w e j o hact)
    · exact Or.inl (getRun_markCompleted_ne w e j o hact)
  · cases hafter : (e.markCompleted w j o).store.getJob k with
    | none =>
      rw [getJob_markCompleted, Option.map_eq_none_iff] at hafter
      exact Or.inl hafter.symm
    | some job' =>
      obtain ⟨job, hjob, hcases⟩ := markCompleted_job w e j o hafter
      rcases hcases with ⟨rfl, rfl⟩ | ⟨_, hmem, _, rfl⟩ | ⟨_, _, rfl⟩
      · exact Or.inr ⟨_, rfl, hof job hjob⟩
      · obtain ⟨r', job₀, hact, _, hjob₀, hp⟩ := (mem_promotedIds w e j o).mp hmem
        rw [hjob] at hjob₀
        cases hjob₀
        have hrun : (e.store.getRun r').isSome = true := by
          rw [← hp.1]
          exact Option.isSome_iff_exists.mpr (hg.runOf k job hjob)
        exact Or.inr ⟨_, rfl, hp.1.trans (run_of_active hg hof hact hrun)⟩
      · exact Or.inl hjob.symm

theorem touches_markFailed (hg : Grounded e) {j : JobId} (err : String) (hof : e.OfRun r j) :
    Touches (fun r' => r' = r) e (e.markFailed w j err) := by
  refine ⟨fun k => ?_, fun k => ?_, fun k => Or.inl (getChannel_markFailed w e j err k)⟩
  · by_cases hact : e.activeJobs.get j = some k
    · exact touched_checked hg hof hact (checked_markFailed w e j err hact)
    · exact Or.inl (getRun_markFailed_ne w e j err hact)
  · rw [getJob_markFailed]
    split
    · rename_i hk
      rw [hk]
      cases hjob : e.store.getJob j with
      | none => exact Or.inl rfl
      | some job => exact Or.inr ⟨_, rfl, (Job.fail_runId ..).trans (hof job hjob)⟩
    · exact Or.inl rfl

theorem touches_cancelRun (hg : Grounded e) :
    Touches (fun r' => r' = r) e (e.cancelRun w r).2 := by
  rcases cancelRun_cases w hg.supervised.home r with ⟨err, heq⟩ | ⟨_, _, _, _, _, hc⟩
  · rw [heq]
    exact ⟨fun _ => Or.inl rfl, fun _ => Or.inl rfl, fun _ => Or.inl rfl⟩
  · refine ⟨fun k => ?_, fun k => ?_, fun k => Or.inl (hc.getChannel k)⟩
    · by_cases hk : k = r
      · obtain ⟨run, hrun, _⟩ := hc.getRun_self
        exact Or.inr ⟨hk, by rw [hk, hrun]; rfl⟩
      · exact Or.inl (hc.getRun_ne k hk)
    · by_cases hcan : e.Cancels r k
      · obtain ⟨job, hjob, hr, _⟩ := id hcan
        refine Or.inr ⟨job.fail w "cancelled by user", ?_, (Job.fail_runId ..).trans hr⟩
        rw [hc.getJob_cancelled k hcan, hjob]
        rfl
      · exact Or.inl (hc.getJob_other k hcan)

theorem touches_acceptPlan {p : JobId} {plan : ExecutionPlan} (hw : w.After e.ids)
    (hok : plan.Ok) : Touches (fun r' => r' = r) e (e.acceptPlan w r p plan) := by
  refine touches_created (created_acceptPlan hw hok) (fun _ => Or.inl rfl) (fun k => ?_)
  by_cases hk : k ∈ (planChannels w e.ids r plan).map (·.channelId)
  · obtain ⟨ch, hch⟩ := Option.isSome_iff_exists.mp (Table.get_putAll_isSome hk)
    have hget : (e.acceptPlan w r p plan).store.getChannel k = some ch := hch
    rcases getChannel_acceptPlan_cases hget with hmem | ⟨hnot, _⟩
    · exact Or.inr ⟨ch, hget, (participants_planChannels (p := p) hmem).1⟩
    · exact absurd hk hnot
  · exact Or.inl (getChannel_materializePlan_of_notMem hk)

theorem touches_call {db : Option SqlitePersistence} {c : Call} (hg : Grounded e)
    (hl : Legal ⟨e, db⟩ (w, .call r c)) : Touches (TouchedBy w e r c) e (c.apply w e) := by
  obtain ⟨hw, hc⟩ := hl
  change w.After e.ids at hw
  have hnone : ∀ {R : RunId → Prop} {e' : OrchestratorEngine}, e'.store = e.store →
      Touches R e e' := by
    intro R e' hs
    exact ⟨fun k => Or.inl (by rw [hs]), fun k => Or.inl (by rw [hs]),
      fun k => Or.inl (by rw [hs])⟩
  cases c with
  | submitRun task =>
    have hr : r = (e.submitIds w).1 := hc
    subst hr
    refine touches_created (created_submitRun hw task) (fun k => ?_) (fun _ => Or.inl rfl)
    show (e.submitRun w task).2.store.getRun k = _ ∨ _
    rw [getRun_submitRun]
    split
    · rename_i hk
      refine Or.inr ⟨hk, ?_⟩
      show ((e.submitRun w task).2.store.getRun k).isSome = true
      rw [getRun_submitRun, if_pos hk]
      rfl
    · exact Or.inl rfl
  | startNext => exact touches_startNext
  | recordHeartbeat j =>
    refine hnone ?_
    show (e.recordHeartbeat w j).store = e.store
    unfold recordHeartbeat
    split <;> rfl
  | markCompleted j o => exact touches_markCompleted hg o hc
  | markFailed j err => exact touches_markFailed hg err hc
  | acceptPlan r' p plan =>
    obtain ⟨rfl, hval, _⟩ := hc
    exact touches_acceptPlan hw (validatePlan_eq_nil.mp hval)
  | handleReviewCompletion j d m =>
    show Touches _ e (e.handleReviewCompletion w j d m).2
    rcases review_cases w e j d m with heq | ⟨rev, coder, fb, hrev, _, _, _, heq⟩ <;> rw [heq]
    · exact hnone rfl
    · have hn := created_revised hw rev coder m fb
      rw [hc rev hrev] at hn
      exact touches_created hn (fun _ => Or.inl rfl) (fun _ => Or.inl rfl)
  | activateReadyChannels => exact touches_activate
  | routeChannelMessage ch j m => exact touches_channelStep (channelStep_route ch j m) hc
  | handleChannelDone ch j => exact touches_channelStep (channelStep_done ch j) hc
  | handleChannelPeerFailure ch j => exact touches_channelStep (channelStep_peerFailure ch j) hc
  | createArtifact a => exact ⟨fun _ => Or.inl rfl, fun _ => Or.inl rfl, fun _ => Or.inl rfl⟩
  | cancelRun r' =>
    obtain rfl : r' = r := hc
    exact touches_cancelRun hg
  | nextJob => exact absurd hc id
  | markRunning j => exact absurd hc id
  | materializePlan r' p plan => exact absurd hc id
  | removeRun r' => exact absurd hc id

end

/-! ## Rows that encode -/

/-- Every row is what is bound for the record that it is loaded as. -/
structure Encoded (db : SqlitePersistence) : Prop where
  run : ∀ k row, db.runs.get k = some row → (Run.ofRow row).toRow = row
  job : ∀ k row, db.jobs.get k = some row → (Job.ofRow row).toRow = row
  channel : ∀ k row, db.channels.get k = some row → (Channel.ofRow row).toRow = row

theorem encoded_persistRunState {w : World} {db : SqlitePersistence} (h : Encoded db)
    (s : RunStore) (r : RunId) : Encoded (db.persistRunState w s r) := by
  refine ⟨?_, ?_, ?_⟩
  · intro k row hrow
    rw [SqlitePersistence.runs_persistRunState] at hrow
    split at hrow
    · obtain ⟨run, _, rfl⟩ := Option.map_eq_some_iff.mp hrow
      rw [Run.ofRow_toRow]
    · exact h.run k row hrow
  · intro k row hrow
    rw [SqlitePersistence.jobs_persistRunState] at hrow
    split at hrow
    · obtain ⟨job, _, rfl⟩ := Option.map_eq_some_iff.mp hrow
      rw [Job.ofRow_toRow]
    · exact h.job k row hrow
  · intro k row hrow
    rw [SqlitePersistence.channels_persistRunState] at hrow
    split at hrow
    · obtain ⟨ch, _, rfl⟩ := Option.map_eq_some_iff.mp hrow
      rw [Channel.ofRow_toRow]
    · exact h.channel k row hrow

theorem encoded_deleteRun {w : World} {db : SqlitePersistence} (h : Encoded db) (r : RunId) :
    Encoded (db.deleteRun w r) := by
  refine ⟨?_, ?_, ?_⟩
  · intro k row hrow
    rw [SqlitePersistence.runs_deleteRun] at hrow
    split at hrow
    · cases hrow
    · exact h.run k row hrow
  · intro k row hrow
    rw [SqlitePersistence.jobs_deleteRun, Option.filter_eq_some_iff] at hrow
    exact h.job k row hrow.1
  · intro k row hrow
    rw [SqlitePersistence.channels_deleteRun, Option.filter_eq_some_iff] at hrow
    exact h.channel k row hrow.1

/-- Nothing but encodings is ever written. -/
theorem encoded_act {w : World} {c : Core} (h : ∀ db, c.db = some db → Encoded db) (a : Action) :
    ∀ db, (c.act w a).db = some db → Encoded db := by
  intro db hdb
  cases a with
  | call r f => exact h db hdb
  | genId pre => exact h db hdb
  | hydrate => exact h db hdb
  | persistRunState r =>
    obtain ⟨db₀, hdb₀, rfl⟩ := Option.map_eq_some_iff.mp hdb
    exact encoded_persistRunState (h db₀ hdb₀) ..
  | persistArtifact a =>
    obtain ⟨db₀, hdb₀, rfl⟩ := Option.map_eq_some_iff.mp hdb
    exact ⟨(h db₀ hdb₀).run, (h db₀ hdb₀).job, (h db₀ hdb₀).channel⟩
  | expire r =>
    obtain ⟨db₀, hdb₀, rfl⟩ := Option.map_eq_some_iff.mp hdb
    exact encoded_deleteRun (h db₀ hdb₀) r

/-! ## Rows that are behind -/

/-- A row that is not that of its record is of a run that is still to be persisted. -/
structure Current (rest : List (World × Action)) (db : SqlitePersistence)
    (e : OrchestratorEngine) : Prop where
  run : ∀ k, db.runs.get k = (e.store.getRun k).map Run.toRow ∨
    ((e.store.getRun k).isSome = true ∧ Awaited k rest)
  job : ∀ k, db.jobs.get k = (e.store.getJob k).map Job.toRow ∨
    ∃ job, e.store.getJob k = some job ∧ Awaited job.runId rest
  channel : ∀ k, db.channels.get k = (e.store.getChannel k).map Channel.toRow ∨
    ∃ ch, e.store.getChannel k = some ch ∧ Awaited ch.runId rest

section
variable {w : World} {e e' : OrchestratorEngine} {db : SqlitePersistence}
  {rest : List (World × Action)}

theorem Current.mono {l : List (World × Action)} (h : Current l db e)
    (hl : ∀ r, Awaited r l → Awaited r rest) : Current rest db e := by
  refine ⟨fun k => (h.run k).imp_right ?_, fun k => (h.job k).imp_right ?_,
    fun k => (h.channel k).imp_right ?_⟩
  · exact fun hk => ⟨hk.1, hl k hk.2⟩
  · exact fun ⟨job, hjob, ha⟩ => ⟨job, hjob, hl _ ha⟩
  · exact fun ⟨ch, hch, ha⟩ => ⟨ch, hch, hl _ ha⟩

/-- With nothing to come, every row is that of its record. -/
theorem Current.rows (h : Current [] db e) :
    (∀ k, db.runs.get k = (e.store.getRun k).map Run.toRow) ∧
      (∀ k, db.jobs.get k = (e.store.getJob k).map Job.toRow) ∧
      ∀ k, db.channels.get k = (e.store.getChannel k).map Channel.toRow :=
  ⟨fun k => (h.run k).resolve_right (fun hk => hk.2),
    fun k => (h.job k).resolve_right (fun ⟨_, _, ha⟩ => ha),
    fun k => (h.channel k).resolve_right (fun ⟨_, _, ha⟩ => ha)⟩

theorem current_of_rows (hrun : ∀ k, db.runs.get k = (e.store.getRun k).map Run.toRow)
    (hjob : ∀ k, db.jobs.get k = (e.store.getJob k).map Job.toRow)
    (hch : ∀ k, db.channels.get k = (e.store.getChannel k).map Channel.toRow) :
    Current rest db e :=
  ⟨fun k => Or.inl (hrun k), fun k => Or.inl (hjob k), fun k => Or.inl (hch k)⟩

/-- Records that change are of runs still to be persisted. -/
theorem current_touches {R : RunId → Prop} (h : Current rest db e) (ht : Touches R e e')
    (hR : ∀ r, R r → Awaited r rest) : Current rest db e' := by
  refine ⟨?_, ?_, ?_⟩
  · intro k
    rcases ht.run k with heq | ⟨hk, hsome⟩
    · rw [heq]
      exact h.run k
    · exact Or.inr ⟨hsome, hR k hk⟩
  · intro k
    rcases ht.job k with heq | ⟨job, hjob, hr⟩
    · rw [heq]
      exact h.job k
    · exact Or.inr ⟨job, hjob, hR _ hr⟩
  · intro k
    rcases ht.channel k with heq | ⟨ch, hch, hr⟩
    · rw [heq]
      exact h.channel k
    · exact Or.inr ⟨ch, hch, hR _ hr⟩

/-- Persisting a run brings its rows up to date, and only those. -/
theorem current_persistRunState {r : RunId}
    (h : Current ((w, .persistRunState r) :: rest) db e) :
    Current rest (db.persistRunState w e.store r) e := by
  have hlater : ∀ k, k ≠ r → Awaited k ((w, Action.persistRunState r) :: rest) →
      Awaited k rest := by
    intro k hk ha
    rcases ha with heq | ⟨_, ha⟩
    · cases heq
      exact absurd rfl hk
    · exact ha
  refine ⟨?_, ?_, ?_⟩
  · intro k
    rw [SqlitePersistence.runs_persistRunState]
    split
    · exact Or.inl rfl
    · rename_i hnot
      refine (h.run k).imp_right fun ⟨hsome, ha⟩ => ⟨hsome, hlater k ?_ ha⟩
      exact fun hk => hnot ⟨hk, hsome⟩
  · intro k
    rw [SqlitePersistence.jobs_persistRunState]
    split
    · exact Or.inl rfl
    · rename_i hr
      refine (h.job k).imp_right fun ⟨job, hjob, ha⟩ => ⟨job, hjob, hlater _ ?_ ha⟩
      exact fun hk => hr (by rw [hjob, ← hk]; rfl)
  · intro k
    rw [SqlitePersistence.channels_persistRunState]
    split
    · exact Or.inl rfl
    · rename_i hr
      refine (h.channel k).imp_right fun ⟨ch, hch, ha⟩ => ⟨ch, hch, hlater _ ?_ ha⟩
      exact fun hk => hr (by rw [hch, ← hk]; rfl)

/-- A run is removed from the store and from the database alike. -/
theorem current_expire {r : RunId} (h : Current [] db e) :
    Current rest (db.deleteRun w r) (e.removeRun w r) := by
  obtain ⟨hrun, hjob, hch⟩ := h.rows
  have hgone : ∀ {α β : Type} (f : α → β) (p : α → Bool) (q : β → Bool) (o : Option α),
      (∀ a, q (f a) = p a) → (o.map f).filter q = (o.filter p).map f := by
    intro α β f p q o hpq
    cases o with
    | none => rfl
    | some a =>
      simp only [Option.map_some, Option.filter_some, hpq]
      split <;> rfl
  refine current_of_rows (fun k => ?_) (fun k => ?_) (fun k => ?_)
  · rw [SqlitePersistence.runs_deleteRun, getRun_expire, hrun]
    split <;> rfl
  · have hget : (e.removeRun w r).store.getJob k =
        (e.store.getJob k).filter (fun job => !(job.runId == r)) := RunStore.getJob_removeRun ..
    rw [SqlitePersistence.jobs_deleteRun, hget, hjob]
    exact hgone Job.toRow _ _ _ (fun _ => rfl)
  · have hget : (e.removeRun w r).store.getChannel k =
        (e.store.getChannel k).filter (fun ch => !(ch.runId == r)) :=
      RunStore.getChannel_removeRun ..
    rw [SqlitePersistence.channels_deleteRun, hget, hch]
    exact hgone Channel.toRow _ _ _ (fun _ => rfl)

theorem Job.recover_of_notRunning {job : Job} (h : job.status ≠ .running) :
    job.recover w = job := if_neg h

theorem Channel.recover_of_idle {ch : Channel} (h : ch.closed = true ∨ ch.active = false) :
    ch.recover = ch := by
  unfold Channel.recover
  split
  · rfl
  · rename_i hopen
    have hidle := h.resolve_left hopen
    cases ch
    cases hidle
    rfl

/-- What is loaded without repair is what the rows encode. -/
theorem current_hydrate {ids : IdSupply} (h : Encoded db)
    (hjob : ∀ job ∈ db.loadJobs w, job.status ≠ .running)
    (hch : ∀ ch ∈ db.loadChannels w, ch.closed = true ∨ ch.active = false) :
    Current rest db (hydrate w (some db) ids) := by
  refine current_of_rows (fun k => ?_) (fun k => ?_) (fun k => ?_)
  · rw [getRun_hydrate, SqlitePersistence.getRun, Option.map_map]
    cases hrow : db.runs.get k with
    | none => rfl
    | some row => exact congrArg some (h.run k row hrow).symm
  · rw [getJob_hydrate, SqlitePersistence.getJob, Option.map_map, Option.map_map]
    cases hrow : db.jobs.get k with
    | none => rfl
    | some row =>
      have hkey : row.jobId = k := Table.key_of_get hrow
      have hidle := hjob _ (SqlitePersistence.mem_loadJobs.mpr ⟨row, hkey.symm ▸ hrow, rfl⟩)
      show some row = some ((Job.ofRow row).recover w).toRow
      rw [Job.recover_of_notRunning hidle, h.job k row hrow]
  · rw [getChannel_hydrate, SqlitePersistence.getChannel, Option.map_map, Option.map_map]
    cases hrow : db.channels.get k with
    | none => rfl
    | some row =>
      have hkey : row.channelId = k := Table.key_of_get hrow
      have hidle := hch _ (SqlitePersistence.mem_loadChannels.mpr ⟨row, hkey.symm ▸ hrow, rfl⟩)
      show some row = some (Channel.ofRow row).recover.toRow
      rw [Channel.recover_of_idle hidle, h.channel k row hrow]

/-- The runs that an allowed call touches are persisted later. -/
theorem awaited_touched {c : Core} {r : RunId} {f : Call} (hg : Flushed c (w, .call r f) rest)
    (hs : Settled ((w, .call r f) :: rest)) :
    ∀ r', TouchedBy w c.engine r f r' → Awaited r' rest := by
  intro r' hr
  cases f with
  | startNext =>
    obtain ⟨job, hjob, rfl⟩ := hr
    exact hg job hjob
  | activateReadyChannels =>
    obtain ⟨k, hk, ch, hch, rfl⟩ := hr
    exact hg k hk ch hch
  | recordHeartbeat j => exact absurd hr id
  | createArtifact a => exact absurd hr id
  | _ =>
    obtain rfl : r' = r := hr
    exact hs.1 r' rfl

end

/-- The rows that are behind, in view of the actions to come. -/
def Behind (c : Core) (rest : List (World × Action)) : Prop :=
  Sound c ∧ (∀ db, c.db = some db → Encoded db) ∧ Settled rest ∧
    ∀ db, c.db = some db → Current rest db c.engine

theorem behind_act (c : Core) (x : World × Action) (rest : List (World × Action))
    (h : Behind c (x :: rest)) (hg : Legal c x ∧ Flushed c x rest) :
    Behind (coreStep c x) rest := by
  obtain ⟨w, a⟩ := x
  obtain ⟨hs, henc, hset, hcur⟩ := h
  refine ⟨sound_act hs hg.1, encoded_act henc a, hset.2, ?_⟩
  intro db hdb
  cases a with
  | call r f =>
    obtain ⟨e, db₀⟩ := c
    have hskip : ∀ k, Awaited k ((w, Action.call r f) :: rest) → Awaited k rest :=
      fun k ha => (ha.resolve_left (fun h => by cases h)).2
    exact current_touches ((hcur db hdb).mono hskip) (touches_call hs.grounded hg.1)
      (awaited_touched hg.2 hset)
  | persistRunState r =>
    obtain ⟨db₀, hdb₀, rfl⟩ := Option.map_eq_some_iff.mp hdb
    exact current_persistRunState (hcur db₀ hdb₀)
  | persistArtifact art =>
    obtain ⟨db₀, hdb₀, rfl⟩ := Option.map_eq_some_iff.mp hdb
    have hold : Current rest db₀ c.engine := (hcur db₀ hdb₀).mono
      (fun k ha => (ha.resolve_left (fun h => by cases h)).2)
    exact ⟨hold.run, hold.job, hold.channel⟩
  | genId pre =>
    have hold : Current rest db c.engine := (hcur db hdb).mono
      (fun k ha => (ha.resolve_left (fun h => by cases h)).2)
    exact ⟨hold.run, hold.job, hold.channel⟩
  | expire r =>
    obtain ⟨db₀, hdb₀, rfl⟩ := Option.map_eq_some_iff.mp hdb
    -- nothing is awaited across a removal
    have hold : Current [] db₀ c.engine := (hcur db₀ hdb₀).mono
      (fun k ha => absurd (ha.resolve_left (fun h => by cases h)).1 (by simp [Action.removes]))
    exact current_expire hold
  | hydrate =>
    have hdb' : c.db = some db := hdb
    obtain ⟨hjob, hch⟩ := hg.2 db hdb'
    show Current rest db (hydrate w c.db c.engine.ids)
    rw [hdb']
    exact current_hydrate (henc db hdb') hjob hch

theorem writtenThrough_of_current {c : Core} (h : ∀ db, c.db = some db → Current [] db c.engine) :
    WrittenThrough c := by
  intro db hdb r run hrun
  obtain ⟨hruns, hjobs, hchannels⟩ := (h db hdb).rows
  refine ⟨by rw [hruns, hrun]; rfl, fun k => ?_, fun k => ?_⟩
  · rw [hjobs]
    cases hjob : c.engine.store.getJob k with
    | none => rfl
    | some job =>
      simp only [Option.map_some, Option.filter_some]
      split <;> rename_i hr <;> simp_all [Job.toRow]
  · rw [hchannels]
    cases hch : c.engine.store.getChannel k with
    | none => rfl
    | some ch =>
      simp only [Option.map_some, Option.filter_some]
      split <;> rename_i hr <;> simp_all [Channel.toRow]

/-! ## Runs of the daemon -/

/-- As long as the runs of all jobs started and channels activated in a step are
persisted in it, and nothing that is hydrated needs repair, the database is a
write-through image of the store. -/
theorem writtenThrough_run (persistent : Bool) (sandboxOverride : Option Bool) (capsule : Bool)
    (is : List (World × Input))
    (h : Meets Daemon.step (GuardedRest Flushed)
      (Daemon.off persistent sandboxOverride capsule) is)
    (halive : (run Daemon.step (Daemon.off persistent sandboxOverride capsule) is).alive = true) :
    WrittenThrough (run Daemon.step (Daemon.off persistent sandboxOverride capsule) is).core := by
  have hempty : ∀ db, (Daemon.off persistent sandboxOverride capsule).core.db = some db →
      Encoded db := by
    intro db hdb
    cases persistent with
    | false => cases hdb
    | true =>
      obtain rfl : SqlitePersistence.new = db := Option.some.inj hdb
      exact ⟨fun _ _ h => (by cases h), fun _ _ h => (by cases h), fun _ _ h => (by cases h)⟩
  have hboot : ∀ c w, Sound c → (∀ db, c.db = some db → Encoded db) →
      Flushed c (w, .hydrate) [] →
      ∀ db, (c.act w .hydrate).db = some db → Current [] db (c.act w .hydrate).engine := by
    intro c w hs henc hok db hdb
    have hdb' : c.db = some db := hdb
    obtain ⟨hjob, hch⟩ := hok db hdb'
    show Current [] db (hydrate w c.db c.engine.ids)
    rw [hdb']
    exact current_hydrate (henc db hdb') hjob hch
  have hstep : ∀ c l, Sound c → (∀ db, c.db = some db → Encoded db) →
      Meets coreStep Legal c l → Settled l →
      (∀ db, c.db = some db → Current [] db c.engine) → MeetsRest coreStep Flushed c l →
      ∀ db, (run coreStep c l).db = some db → Current [] db (run coreStep c l).engine := by
    intro c l hs henc hl hset hcur hok
    have hstart : Behind c l :=
      ⟨hs, henc, hset, fun db hdb => (hcur db hdb).mono (fun r ha => absurd ha id)⟩
    exact (run_invariant_rest behind_act hstart (MeetsRest.and_meets hl hok)).2.2.2
  exact writtenThrough_of_current (alive_run (fun c x _ _ hq => encoded_act hq x.2) hboot hstep
    (sound_off ..) hempty (fun h => by cases h) h halive)

/-! ## A run whose start is not written -/

/-- Four planners take the four slots, a fifth waits until the first is done. -/
def fifthWaits : List (World × Input) :=
  (plannerWorld soloPlan, .start) ::
    List.replicate 5 (plannerWorld soloPlan, .command (.submitRun "task")) ++
    [(plannerWorld soloPlan, completedEvent "job_1_1" [])]

/-- The event persists the first run. The fifth, which it starts, stays pending in
the database. -/
theorem not_writtenThrough_fifthWaits :
    Meets Daemon.step Clocked (Daemon.off true none false) fifthWaits ∧
      (run Daemon.step (Daemon.off true none false) fifthWaits).alive = true ∧
      ¬ WrittenThrough (run Daemon.step (Daemon.off true none false) fifthWaits).core := by
  refine ⟨by decide, by decide, fun h => ?_⟩
  have hrow : ((run Daemon.step (Daemon.off true none false) fifthWaits).core.db.bind
      (fun db => db.runs.get "run_1_8")).map (·.status) = some "Pending" := by decide
  have hrecord : ((run Daemon.step (Daemon.off true none false) fifthWaits).engine.store.getRun
      "run_1_8").map (·.status) = some .running := by decide
  obtain ⟨row, hget, hpending⟩ := Option.map_eq_some_iff.mp hrow
  obtain ⟨db, hdb, hget⟩ := Option.bind_eq_some_iff.mp hget
  obtain ⟨r, hrun, hrunning⟩ := Option.map_eq_some_iff.mp hrecord
  have hsame := (h db hdb "run_1_8" r hrun).1
  rw [hget, Option.map_some, Option.some.injEq] at hsame
  have hstatus : row.status = r.status.text := congrArg RunRow.status hsame
  rw [hpending, hrunning] at hstatus
  exact absurd hstatus (by decide)

/-- A single run is written through while its planner fails and is started again. -/
theorem writtenThrough_run_retried :
    WrittenThrough (run Daemon.step (Daemon.off true none false)
      [(plannerWorld soloPlan, .start), (plannerWorld soloPlan, .command (.submitRun "task")),
        (plannerWorld soloPlan, failedEvent "job_1_1")]).core :=
  writtenThrough_run true none false _ (by decide) (by decide)

end ZeptoPM
