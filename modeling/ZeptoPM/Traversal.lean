import ZeptoPM.Handlers

/- The handlers of the main loop are made of a few elementary steps: actions on engine
   and database, effects, and steps that spawn and drop workers. A relation that is
   reflexive, transitive and holds of these holds of every handler; those that may add
   to the queue or free a slot end in `finish` (`Finishes`), but for a cancellation. What
   a round of the spawn loop does to the engine belongs with the worker it spawns, so
   the traversal is made over `Skeleton`, which takes the loop as one step. A relation that
   does not hold of completions still holds of the handlers that make none. `Did` is the
   relation that says of which kind the actions of a handler are. -/
namespace ZeptoPM
open Daemon

/-- Whether the action takes no records away. -/
def Action.keeps : Action → Bool
  | .expire _ | .hydrate | .call _ (.removeRun _) => false
  | _ => true

/-- Whether the action may start a job. -/
def Action.starts : Action → Bool
  | .call _ .startNext => true
  | _ => false

/-- Whether the action completes a job. -/
def Action.completes : Action → Bool
  | .call _ (.markCompleted ..) => true
  | _ => false

/-- Whether the action takes no records away and starts no job, and neither completes a job nor
persists a run unless it may. -/
def Action.isPlain (completing persisting : Bool) (a : Action) : Bool :=
  a.keeps && !a.starts && (!a.completes || completing) && (a.persists.isNone || persisting)

/-- Whether the effect is an event on the daemon's own queue. -/
def Effect.isEvent : Effect → Bool
  | .event _ => true
  | _ => false

/-- A relation between daemons that holds of whatever handlers are made of, the spawn loop
being one step, but for the reload of a config, for completions unless `completing`, and for what
is persisted unless `persisting`. -/
structure Skeleton (w : World) (R : Daemon → Daemon → Prop) (completing persisting : Bool) :
    Prop where
  refl : ∀ d, R d d
  trans : ∀ {d₁ d₂ d₃}, R d₁ d₂ → R d₂ d₃ → R d₁ d₃
  act : ∀ d a, a.isPlain completing persisting = true → R d (d.act w a)
  send : ∀ d effect, effect.isEvent = false → R d (d.send effect)
  removeWorker : ∀ d jobId, R d (d.removeManaged (workerName jobId))
  spawnLoop : ∀ d r, R d (d.spawnLoop w r)
  startAgent : ∀ d name, R d (d.startAgent name)
  restartAgent : ∀ d name, R d (d.restartAgent name)
  cleaned : ∀ d t, R d { d with lastCleanup := t }
  restartAgents : ∀ d, R d (d.restartAgents w)

/-- A relation between daemons that holds of whatever handlers are made of, but for
the reload of a config. -/
structure Constituent (w : World) (R : Daemon → Daemon → Prop) : Prop where
  refl : ∀ d, R d d
  trans : ∀ {d₁ d₂ d₃}, R d₁ d₂ → R d₂ d₃ → R d₁ d₃
  act : ∀ d a, a.keeps = true → R d (d.act w a)
  send : ∀ d effect, R d (d.send effect)
  removeWorker : ∀ d jobId, R d (d.removeManaged (workerName jobId))
  spawnJobWorker : ∀ d job, R d (d.spawnJobWorker w job)
  startAgent : ∀ d name, R d (d.startAgent name)
  restartAgent : ∀ d name, R d (d.restartAgent name)
  cleaned : ∀ d t, R d { d with lastCleanup := t }
  restartAgents : ∀ d, R d (d.restartAgents w)

/-- A relation between daemons that holds of whatever handlers are made of. -/
structure Elementary (w : World) (R : Daemon → Daemon → Prop) : Prop extends Constituent w R where
  reloadConfig : ∀ d, R d (d.reloadConfig w)

/-- The daemon finishes a handler that has taken it to where `R` leads. -/
def Finishes (w : World) (R : Daemon → Daemon → Prop) (d d' : Daemon) : Prop :=
  ∃ r d₁, R d d₁ ∧ d' = finish w r d₁

/-- The spawn loop is made of the rounds of its own. -/
theorem Constituent.spawnReady {w : World} {R : Daemon → Daemon → Prop} (h : Constituent w R)
    (r : RunId) (fuel : Nat) : ∀ d, R d (Daemon.spawnReady w r fuel d) := by
  induction fuel with
  | zero => exact h.refl
  | succ fuel ih =>
    intro d
    unfold Daemon.spawnReady
    split
    · exact h.act d _ rfl
    · exact h.trans (h.act d _ rfl) (h.trans (h.spawnJobWorker _ _) (ih _))

/-- A property that the relation passes on is kept by whatever handlers are made of. -/
theorem Constituent.keeps {w : World} {R : Daemon → Daemon → Prop} {P : Daemon → Prop}
    (h : Constituent w R) (hP : ∀ {d d'}, R d d' → P d → P d') :
    Constituent w (fun d d' => P d → P d') where
  refl := fun _ hp => hp
  trans := fun h₁ h₂ hp => h₂ (h₁ hp)
  act := fun d a hkeeps => hP (h.act d a hkeeps)
  send := fun d effect => hP (h.send d effect)
  removeWorker := fun d jobId => hP (h.removeWorker d jobId)
  spawnJobWorker := fun d job => hP (h.spawnJobWorker d job)
  startAgent := fun d name => hP (h.startAgent d name)
  restartAgent := fun d name => hP (h.restartAgent d name)
  cleaned := fun d t => hP (h.cleaned d t)
  restartAgents := fun d => hP (h.restartAgents d)

section
variable {completing persisting : Bool} {a : Action}

theorem Action.isPlain_iff : a.isPlain completing persisting = true ↔
    a.keeps = true ∧ a.starts = false ∧ (a.completes = false ∨ completing = true) ∧
      (a.persists = none ∨ persisting = true) := by
  simp [Action.isPlain, and_assoc]

theorem Action.keeps_of_isPlain (h : a.isPlain completing persisting = true) : a.keeps = true :=
  (Action.isPlain_iff.mp h).1

theorem Action.starts_of_isPlain (h : a.isPlain completing persisting = true) :
    a.starts = false := (Action.isPlain_iff.mp h).2.1

theorem Action.completes_of_isPlain (h : a.isPlain false persisting = true) :
    a.completes = false :=
  (Action.isPlain_iff.mp h).2.2.1.resolve_right Bool.false_ne_true

theorem Action.persists_of_isPlain (h : a.isPlain completing false = true) : a.persists = none :=
  (Action.isPlain_iff.mp h).2.2.2.resolve_right Bool.false_ne_true

end

theorem Constituent.skeleton {w : World} {R : Daemon → Daemon → Prop} (h : Constituent w R) :
    Skeleton w R true true where
  refl := h.refl
  trans := h.trans
  act := fun d a hplain => h.act d a (Action.keeps_of_isPlain hplain)
  send := fun d effect _ => h.send d effect
  removeWorker := h.removeWorker
  spawnLoop := fun d r => h.spawnReady r _ d
  startAgent := h.startAgent
  restartAgent := h.restartAgent
  cleaned := h.cleaned
  restartAgents := h.restartAgents

namespace Skeleton

section
variable {w : World} {R : Daemon → Daemon → Prop} {completing persisting : Bool}
  (h : Skeleton w R completing persisting) {r : RunId}
include h

theorem foldl {α : Type} {g : Daemon → α → Daemon} (hg : ∀ d a, R d (g d a)) (l : List α)
    (d : Daemon) : R d (l.foldl g d) :=
  foldl_relates h.refl h.trans l (fun a _ d => hg d a) d

theorem stopWorker (d : Daemon) (worker : String) : R d (d.stopWorker worker) := by
  unfold Daemon.stopWorker
  split
  · exact h.send d _ rfl
  · exact h.refl d

theorem dropWorker (d : Daemon) (jobId : JobId) :
    R d ((d.stopWorker (workerName jobId)).removeManaged (workerName jobId)) :=
  h.trans (h.stopWorker d _) (h.removeWorker _ jobId)

/-! ## The end of a handler -/

theorem sendInitial (d : Daemon) (channelId : ChannelId) : R d (d.sendInitial channelId) := by
  unfold Daemon.sendInitial
  split
  · exact h.refl d
  · split
    · split
      · exact h.send d _ rfl
      · exact h.refl d
    · exact h.refl d

/-- What is done before the run is persisted. -/
theorem fill (d : Daemon) : R d (Daemon.activateChannels w r (Daemon.spawnLoop w r d)) :=
  h.trans (h.spawnLoop d r) (h.trans (h.act _ _ rfl) (h.foldl h.sendInitial _ _))

/-! ## Orchestrator events -/

theorem killPeer (jobId : JobId) (d : Daemon) (k : JobId) : R d (Daemon.killPeer w r jobId d k) :=
  h.trans (h.dropWorker d k) (h.act _ _ rfl)

theorem notifyPeer (message : String) (d : Daemon) (peerId : JobId) :
    R d (Daemon.notifyPeer message d peerId) := by
  unfold Daemon.notifyPeer
  split
  · exact h.send d _ rfl
  · exact h.refl d

theorem failChannel (jobId : JobId) (d : Daemon) (chId : ChannelId) :
    R d (Daemon.failChannel w r jobId d chId) := by
  unfold Daemon.failChannel
  dsimp only
  refine h.trans (h.act d (.call r (.handleChannelPeerFailure chId jobId)) rfl) ?_
  split
  · exact h.foldl (h.killPeer jobId) _ _
  · exact h.foldl (h.notifyPeer _) _ _
  · exact h.refl _

theorem handleChannelPeerFailures (jobId : JobId) (d : Daemon) :
    R d (Daemon.handleChannelPeerFailures w r jobId d) := h.foldl (h.failChannel jobId) _ d

theorem synthesizeChannelArtifact (d : Daemon) (jobId : JobId) (response : Option String) :
    R d (d.synthesizeChannelArtifact w r jobId response).2 := by
  unfold Daemon.synthesizeChannelArtifact
  split
  · exact h.refl d
  · unfold persistChannelArtifact
    dsimp only
    split
    · exact h.trans (h.act d _ rfl) (h.trans (h.act _ _ rfl) (h.act _ _ rfl))
    · exact h.act d _ rfl

theorem finalResponse (d : Daemon) (jobId : JobId) : R d (d.finalResponse w jobId).2 := by
  unfold Daemon.finalResponse
  split
  · split
    · exact h.send d _ rfl
    · exact h.refl d
  · exact h.refl d

theorem plannerOutput (d : Daemon) (jobId : JobId) (artifacts : List ArtifactId) {d' : Daemon}
    (hd : d.plannerOutput w r jobId artifacts = .ok d' ∨
      d.plannerOutput w r jobId artifacts = .error d') : R d d' := by
  unfold Daemon.plannerOutput at hd
  split at hd
  · rcases hd with hd | hd <;> cases hd
    exact h.refl d
  · split at hd
    · rcases hd with hd | hd <;> cases hd
      exact h.refl d
    · split at hd
      · rcases hd with hd | hd <;> cases hd
        exact h.act d _ rfl
      · split at hd <;> rcases hd with hd | hd <;> cases hd <;> exact h.act d _ rfl

theorem reviewerOutput (d : Daemon) (jobId : JobId) {d' : Daemon}
    (hd : d.reviewerOutput w r jobId = .ok d' ∨ d.reviewerOutput w r jobId = .error d') :
    R d d' := by
  unfold Daemon.reviewerOutput at hd
  split at hd
  · rcases hd with hd | hd <;> cases hd
    exact h.refl d
  · split at hd
    · rcases hd with hd | hd <;> cases hd
      exact h.refl d
    · split at hd
      · rcases hd with hd | hd <;> cases hd
        exact h.refl d
      · rcases hd with hd | hd <;> cases hd
        exact h.act d _ rfl
      · rcases hd with hd | hd <;> cases hd
        exact h.refl d

/-- What follows the completion of a job that is reported. -/
theorem reported (d : Daemon) (jobId : JobId) (artifacts : List ArtifactId) {d' : Daemon} :
    (d.jobCompleted w jobId artifacts = .ok d' →
      Finishes w R ((d.removeManaged (workerName jobId)).act w
        (.call (d.jobRunId jobId) (.markCompleted jobId artifacts))) d') ∧
      (d.jobCompleted w jobId artifacts = .error d' →
        R ((d.removeManaged (workerName jobId)).act w
          (.call (d.jobRunId jobId) (.markCompleted jobId artifacts))) d') := by
  rw [jobCompleted_eq]
  generalize (d.removeManaged (workerName jobId)).act w
    (.call (d.jobRunId jobId) (.markCompleted jobId artifacts)) = d₁
  -- the plan of a planner first, then the decision of a reviewer; either can abort the handler
  have hplanned : ∀ d₂, (if d.hasRole jobId "planner" then
      d₁.plannerOutput w (d.jobRunId jobId) jobId artifacts else .ok d₁) = .ok d₂ ∨
      (if d.hasRole jobId "planner" then
        d₁.plannerOutput w (d.jobRunId jobId) jobId artifacts else .ok d₁) = .error d₂ →
      R d₁ d₂ := by
    intro d₂ h₂
    split at h₂
    · exact h.plannerOutput d₁ jobId artifacts h₂
    · rcases h₂ with h₂ | h₂ <;> cases h₂
      exact h.refl d₁
  split
  · rename_i d₂ h₂
    refine ⟨fun hd => (by cases hd), fun hd => ?_⟩
    cases hd
    exact hplanned _ (Or.inr h₂)
  · rename_i d₂ h₂
    have hd₂ := hplanned d₂ (Or.inl h₂)
    have hreviewed : ∀ d₃, (if d₂.hasRole jobId "reviewer" then
        d₂.reviewerOutput w (d.jobRunId jobId) jobId else .ok d₂) = .ok d₃ ∨
        (if d₂.hasRole jobId "reviewer" then
          d₂.reviewerOutput w (d.jobRunId jobId) jobId else .ok d₂) = .error d₃ → R d₁ d₃ := by
      intro d₃ h₃
      split at h₃
      · exact h.trans hd₂ (h.reviewerOutput d₂ jobId h₃)
      · rcases h₃ with h₃ | h₃ <;> cases h₃
        exact hd₂
    split
    · rename_i d₃ h₃
      refine ⟨fun hd => (by cases hd), fun hd => ?_⟩
      cases hd
      exact hreviewed _ (Or.inr h₃)
    · rename_i d₃ h₃
      refine ⟨fun hd => ?_, fun hd => by cases hd⟩
      cases hd
      exact ⟨_, d₃, hreviewed _ (Or.inl h₃), rfl⟩

theorem jobFailed (d : Daemon) (jobId : JobId) (error : String) :
    Finishes w R d (d.jobFailed w jobId error) :=
  ⟨_, _, h.trans (h.removeWorker d jobId) (h.trans (h.handleChannelPeerFailures jobId _)
    (h.act _ _ rfl)), rfl⟩

theorem routeTo (channelId message : String) (d : Daemon) (jobId : JobId) :
    R d (Daemon.routeTo channelId message d jobId) := by
  unfold Daemon.routeTo
  split
  · exact h.send d _ rfl
  · exact h.refl d

/-! ## Commands and ticks -/

theorem cancelRun (d : Daemon) (r : RunId) : R d (d.cancelRun w r).2 := by
  unfold Daemon.cancelRun
  split
  · exact h.refl d
  · refine h.trans (h.foldl ?_ _ d) (h.act _ _ rfl)
    exact fun d (entry : JobId × JobStatus) => h.dropWorker d entry.1

/-- A submission, but for the reply. -/
theorem submitRun (d : Daemon) (task : String) :
    Finishes w R d (Daemon.finish w (d.engine.submitRun w task).1
      (d.act w (.call (d.engine.submitRun w task).1 (.submitRun task)))) :=
  ⟨_, _, h.act d _ rfl, rfl⟩

theorem failStaleJob (d : Daemon) (jobId : JobId) :
    Finishes w R d (Daemon.failStaleJob w d jobId) :=
  ⟨_, _, h.trans (h.dropWorker d jobId) (h.trans (h.handleChannelPeerFailures jobId _)
    (h.act _ _ rfl)), rfl⟩

theorem refreshHeartbeats (d : Daemon) : R d (Daemon.refreshHeartbeats w d) := by
  apply h.foldl
  intro d jobId
  split
  · exact h.act d _ rfl
  · exact h.refl d

theorem cleanup (hexpire : ∀ d r, R d (d.act w (.expire r))) (d : Daemon) :
    R d (Daemon.cleanup w d) := by
  unfold Daemon.cleanup
  split
  · refine h.trans (h.cleaned d w.instant) (h.foldl ?_ _ _)
    intro d r
    exact h.trans (h.foldl (fun d path => h.send d (.removeFile path) rfl) _ d) (hexpire _ r)
  · exact h.refl d

end

/-! ## Completions -/

section
variable {w : World} {R : Daemon → Daemon → Prop} {persisting : Bool}
  (h : Skeleton w R true persisting) {r : RunId}
include h

theorem completeParticipant (channelId : ChannelId) (d : Daemon) (jobId : JobId) :
    R d (Daemon.completeParticipant w r channelId d jobId) := by
  unfold Daemon.completeParticipant
  dsimp only
  split
  · exact h.trans (h.finalResponse d jobId) (h.trans (h.dropWorker _ jobId)
      (h.trans (h.synthesizeChannelArtifact _ jobId _) (h.act _ _ rfl)))
  · exact h.refl d

theorem completeClosedChannelParticipants (d : Daemon) (channelId : ChannelId) :
    R d (d.completeClosedChannelParticipants w r channelId) := by
  unfold Daemon.completeClosedChannelParticipants
  split
  · exact h.refl d
  · exact h.foldl (h.completeParticipant channelId) _ d

theorem jobCompleted (d : Daemon) (jobId : JobId) (artifacts : List ArtifactId) {d' : Daemon} :
    (d.jobCompleted w jobId artifacts = .ok d' → Finishes w R d d') ∧
      (d.jobCompleted w jobId artifacts = .error d' → R d d') := by
  have hcompleted : R d ((d.removeManaged (workerName jobId)).act w
      (.call (d.jobRunId jobId) (.markCompleted jobId artifacts))) :=
    h.trans (h.removeWorker d jobId) (h.act _ _ rfl)
  refine ⟨fun hd => ?_, fun hd => h.trans hcompleted ((h.reported d jobId artifacts).2 hd)⟩
  obtain ⟨r, d₁, hd₁, heq⟩ := (h.reported d jobId artifacts).1 hd
  exact ⟨r, d₁, h.trans hcompleted hd₁, heq⟩

theorem channelMessage (d : Daemon) (channelId fromJob content : String) :
    Finishes w R d (d.channelMessage w channelId fromJob content) := by
  refine ⟨_, _, h.trans (h.act d (.call (d.channelRunId channelId)
    (.routeChannelMessage channelId fromJob content)) rfl) ?_, rfl⟩
  split
  · exact h.routeTo ..
  · exact h.foldl (h.routeTo _ _) _ _
  · exact h.completeClosedChannelParticipants ..
  · exact h.refl _

theorem channelDone (d : Daemon) (channelId fromJob : String) :
    Finishes w R d (d.channelDone w channelId fromJob) := by
  refine ⟨_, _, h.trans (h.act d (.call (d.channelRunId channelId)
    (.handleChannelDone channelId fromJob)) rfl) ?_, rfl⟩
  split
  · exact h.completeClosedChannelParticipants ..
  · exact h.refl _

end

/-! ## Whole handlers -/

section
variable {w : World} {R : Daemon → Daemon → Prop} {completing : Bool}
  (h : Skeleton w R completing true) {r : RunId}
include h

theorem finish (d : Daemon) : R d (Daemon.finish w r d) := h.trans (h.fill d) (h.act _ _ rfl)

theorem finishes {d d' : Daemon} (hd : Finishes w R d d') : R d d' := by
  obtain ⟨r, d₁, hd₁, rfl⟩ := hd
  exact h.trans hd₁ (h.finish d₁)

/-- An event that does not report a job completed and is about no channel. -/
theorem otherEvent (d : Daemon) {event : Json} {d' : Daemon}
    (hcompleted : event.strOr "type" "" ≠ "job_completed")
    (hmessage : event.strOr "type" "" ≠ "channel_message")
    (hdone : event.strOr "type" "" ≠ "channel_done")
    (hd : d.handleEvent w event = .ok d' ∨ d.handleEvent w event = .error d') : R d d' := by
  unfold Daemon.handleEvent at hd
  dsimp only at hd
  split at hd
  · rcases hd with hd | hd <;> cases hd
    exact h.act d _ rfl
  · rcases hd with hd | hd <;> cases hd
    exact h.act d _ rfl
  · rename_i htype
    exact absurd htype hcompleted
  · rcases hd with hd | hd <;> cases hd
    exact h.finishes (h.jobFailed ..)
  · rename_i htype
    exact absurd htype hmessage
  · rename_i htype
    exact absurd htype hdone
  · rcases hd with hd | hd <;> cases hd
    exact h.trans (h.act d _ rfl) (h.act _ _ rfl)
  · rcases hd with hd | hd <;> cases hd
    exact h.refl d

theorem handleCommand (d : Daemon) (command : DaemonCommand) :
    R d (d.handleCommand w command) := by
  unfold Daemon.handleCommand
  split
  · exact h.startAgent d _
  · exact h.restartAgent d _
  · exact h.trans (h.finishes (h.submitRun d _)) (h.send _ _ rfl)
  · rename_i r
    have hcancel := h.cancelRun d r
    split
    · rename_i d₂ heq
      rw [heq] at hcancel
      exact h.trans hcancel (h.trans (h.act _ _ rfl) (h.send _ _ rfl))
    · rename_i d₂ heq
      rw [heq] at hcancel
      exact h.trans hcancel (h.send _ _ rfl)
  all_goals exact h.refl d

theorem handleStaleJobs (d : Daemon) : R d (Daemon.handleStaleJobs w d) :=
  h.foldl (fun d jobId => h.finishes (h.failStaleJob d jobId)) _ d

/-- The relation holds of what a tick does after the reload. -/
theorem tick (hexpire : ∀ d r, R d (d.act w (.expire r))) (d : Daemon) :
    R (d.reloadConfig w) (Daemon.tick w d) :=
  h.trans (h.refreshHeartbeats _) (h.trans (h.handleStaleJobs _)
    (h.trans (h.cleanup hexpire _) (h.restartAgents _)))

/-- Until the process exits, a shutdown is made of elementary steps. -/
theorem shutdown (d : Daemon) : ∃ d', R d d' ∧ d.shutdown w = { d' with alive := false } := by
  refine ⟨_, h.trans (h.foldl ?_ _ d) (h.foldl (fun d name => h.send d _ rfl) _ _), rfl⟩
  exact fun d r => h.trans (h.cancelRun d r) (h.act _ _ rfl)

end

section
variable {w : World} {R : Daemon → Daemon → Prop} (h : Skeleton w R true true)
include h

theorem handleEvent (d : Daemon) (event : Json) {d' : Daemon}
    (hd : d.handleEvent w event = .ok d' ∨ d.handleEvent w event = .error d') : R d d' := by
  by_cases hcompleted : event.strOr "type" "" = "job_completed"
  · unfold Daemon.handleEvent at hd
    simp only [hcompleted] at hd
    rcases hd with hd | hd
    · exact h.finishes ((h.jobCompleted d _ _).1 hd)
    · exact (h.jobCompleted d _ _).2 hd
  by_cases hmessage : event.strOr "type" "" = "channel_message"
  · unfold Daemon.handleEvent at hd
    simp only [hmessage] at hd
    rcases hd with hd | hd <;> cases hd
    exact h.finishes (h.channelMessage ..)
  by_cases hdone : event.strOr "type" "" = "channel_done"
  · unfold Daemon.handleEvent at hd
    simp only [hdone] at hd
    rcases hd with hd | hd <;> cases hd
    exact h.finishes (h.channelDone ..)
  exact h.otherEvent d hcompleted hmessage hdone hd

end

end Skeleton

/-- The relation holds of the handler of any command, event or tick. -/
theorem Elementary.handle {w : World} {R : Daemon → Daemon → Prop} (h : Elementary w R)
    (hexpire : ∀ d r, R d (d.act w (.expire r))) {i : Input}
    (hi : (∃ c, i = .command c) ∨ (∃ v, i = .event v) ∨ i = .tick) (d : Daemon) {d' : Daemon}
    (hd : d.handle w i = .ok d' ∨ d.handle w i = .error d') : R d d' := by
  rcases hi with ⟨c, rfl⟩ | ⟨v, rfl⟩ | rfl
  · rcases hd with hd | hd <;> cases hd
    exact h.skeleton.handleCommand d c
  · exact h.skeleton.handleEvent d v hd
  · rcases hd with hd | hd <;> cases hd
    exact h.trans (h.reloadConfig d) (h.skeleton.tick hexpire d)

/-- The relation holds of every step but a start, whether or not the process outlives it. -/
theorem Skeleton.step {w : World} {R : Daemon → Daemon → Prop} (h : Skeleton w R true true)
    (hexpire : ∀ d r, R d (d.act w (.expire r))) {i : Input} (hi : i ≠ .start)
    (hupdate : ∀ u, i = .update u → ∀ d, R d (d.agentUpdate w u))
    (hreload : i = .tick → ∀ d, R d (d.reloadConfig w)) (d : Daemon) :
    ∃ d' alive, R { d with sent := [], calls := [] } d' ∧
      d.step (w, i) = { d' with alive := alive } := by
  generalize hd₀ : ({ d with sent := [], calls := [] } : Daemon) = d₀
  cases hd : d.alive with
  | false =>
    rw [step_of_dead hd₀.symm hd]
    refine ⟨d₀, d₀.alive, h.refl d₀, ?_⟩
    cases i with
    | start => exact absurd rfl hi
    | _ => rfl
  | true =>
    rw [step_of_alive hd₀.symm hd]
    cases i with
    | update u => exact ⟨_, _, hupdate u rfl d₀, rfl⟩
    | command c => exact ⟨_, _, h.handleCommand d₀ c, rfl⟩
    | event v =>
      cases hv : d₀.handle w (.event v) with
      | ok d' => exact ⟨d', d'.alive, h.handleEvent d₀ v (Or.inl hv), rfl⟩
      | error d' => exact ⟨d', false, h.handleEvent d₀ v (Or.inr hv), rfl⟩
    | tick => exact ⟨_, _, h.trans (hreload rfl d₀) (h.tick hexpire d₀), rfl⟩
    | shutdown =>
      obtain ⟨d', hd', heq⟩ := h.shutdown d₀
      exact ⟨d', false, hd', heq⟩
    | start => exact absurd rfl hi

/-! ## What is in the calls of a step -/

/-- All that the handler did to engine and database it did in the world `w`, with actions that
satisfy `P`. -/
def Did (P : Action → Prop) (w : World) (d d' : Daemon) : Prop :=
  ∃ l, d'.calls = d.calls ++ l ∧ ∀ x ∈ l, x.1 = w ∧ P x.2

section
variable {P : Action → Prop} {w : World} {d d' : Daemon}

theorem Untouched.did (h : Untouched d d') : Did P w d d' :=
  ⟨[], by rw [h.2, List.append_nil], fun _ hx => absurd hx List.not_mem_nil⟩

theorem Did.act (d : Daemon) {a : Action} (h : P a) : Did P w d (d.act w a) :=
  ⟨[(w, a)], rfl, fun _ hx => List.mem_singleton.mp hx ▸ ⟨rfl, h⟩⟩

theorem Did.trans {d'' : Daemon} (h : Did P w d d') (h' : Did P w d' d'') : Did P w d d'' := by
  obtain ⟨l, hcalls, hl⟩ := h
  obtain ⟨l', hcalls', hl'⟩ := h'
  refine ⟨l ++ l', by rw [hcalls', hcalls, List.append_assoc], fun x hx => ?_⟩
  exact (List.mem_append.mp hx).elim (hl x) (hl' x)

theorem Did.mono {Q : Action → Prop} (hPQ : ∀ a, P a → Q a) (h : Did P w d d') : Did Q w d d' := by
  obtain ⟨l, hcalls, hl⟩ := h
  exact ⟨l, hcalls, fun x hx => ⟨(hl x hx).1, hPQ x.2 (hl x hx).2⟩⟩

theorem manning_did : Manning (Did P w) where
  refl := fun d => (Untouched.refl d).did
  trans := .trans
  send := fun d effect _ => (untouched_send d effect).did
  manage := fun _ _ => Untouched.did ⟨rfl, rfl⟩

/-- If `P` holds of the plain actions and of what starts jobs, all that a handler does is such. -/
theorem skeleton_did {completing persisting : Bool}
    (hP : ∀ a, a.isPlain completing persisting = true → P a)
    (hstart : ∀ r, P (.call r .startNext)) (w : World) :
    Skeleton w (Did P w) completing persisting where
  refl := fun d => (Untouched.refl d).did
  trans := .trans
  act := fun d a hplain => .act d (hP a hplain)
  send := fun d effect _ => (untouched_send d effect).did
  removeWorker := fun _ _ => Untouched.did ⟨rfl, rfl⟩
  spawnLoop := fun d r => manning_did.spawnReady (fun d => .act d (hstart r)) _ d
  startAgent := fun d name => (untouched_startAgent d name).did
  restartAgent := fun d name => (untouched_restartAgent d name).did
  cleaned := fun _ _ => Untouched.did ⟨rfl, rfl⟩
  restartAgents := fun d => (untouched_restartAgents w d).did

end

end ZeptoPM
