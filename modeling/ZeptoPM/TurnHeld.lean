import ZeptoPM.Passing

/- Runs of the daemon with its workers: the turn is held in every state of a run whose
   steps lose none. Three dialogs between two agents show it kept, not handed out where
   the plan has no initial message, and lost by a restart. -/
namespace ZeptoPM
open OrchestratorEngine Daemon

/-! ## One step of the network -/

/-- The turn is held while the daemon runs, and the channels are in order. -/
structure Network.InOrder (n : Network) : Prop where
  turns : EveryChannel Channel.TakesTurns n.daemon.core
  shut : EveryChannel Channel.Shut n.daemon.core
  held : n.daemon.alive = true → TurnHeld n

section
variable {n : Network}

theorem handleEvent_of_alive {d : Daemon} (halive : d.alive = true) {w : World} {v : Json}
    (h : (d.step (w, .event v)).alive = true) :
    d.fresh.handleEvent w v = .ok (d.step (w, .event v)) := by
  rw [step_of_alive d.fresh_eq halive] at h ⊢
  dsimp only [handle] at h ⊢
  cases hv : d.fresh.handleEvent w v with
  | ok d' => rfl
  | error d' =>
    rw [hv] at h
    cases h

/-- The daemon handles an input, and holds the turns afterwards. -/
theorem Network.InOrder.handled (h : n.InOrder) (m : Network) (w : World) (i : Input)
    (hheld : (n.daemon.step (w, i)).alive = true → ∀ id, TurnOn ((n.daemon.step (w, i)).channel id)
      (m.outstanding id ++ (n.daemon.step (w, i)).sentOn id)) :
    (m.handled (n.daemon.step (w, i))).InOrder := by
  have htraced := traced_step n.daemon w i
  refine ⟨everyChannel_traced kept_takesTurns htraced h.turns,
    everyChannel_traced kept_shut htraced h.shut, fun halive id => ?_⟩
  rw [outstanding_handled]
  exact hheld halive id

/-- What happens among the workers leaves the channels as they are. -/
theorem Network.InOrder.outside (h : n.InOrder) {m : Network} (hd : m.daemon = n.daemon)
    (hm : n.daemon.alive = true → ∀ id, TurnOn (n.daemon.channel id) (m.outstanding id)) :
    m.InOrder := by
  refine ⟨hd ▸ h.turns, hd ▸ h.shut, fun halive id => ?_⟩
  rw [hd] at halive ⊢
  exact hm halive id

theorem Network.InOrder.answered (h : n.InOrder) {jobId : JobId} {channelId : ChannelId}
    {event : QueuedEvent} (hevent : ∀ id, event.answersOn id =
      if channelId = id then some (workerName jobId) else none) :
    (n.answered jobId channelId event).InOrder := by
  refine h.outside ?_ (fun halive id => (h.held halive id).perm (outstanding_answered hevent))
  unfold Network.answered
  split <;> rfl

theorem Network.InOrder.deliver (h : n.InOrder) {w : World} (hk : n.Keeps (.deliver w)) :
    (n.step (.deliver w)).InOrder := by
  unfold Network.step
  cases hevents : n.events with
  | nil => exact h
  | cons v events =>
    dsimp only
    refine h.handled { n with events := events } w (.event v.json) (fun halive' id => ?_)
    cases halive : n.daemon.alive with
    | false =>
      rw [dead_step halive w (fun h => by cases h)] at halive'
      cases halive'
    | true =>
      obtain ⟨hpass, hopen⟩ := hk halive v (by rw [hevents]; rfl)
      exact turnOn_event (d := n.daemon.fresh) rfl hpass (handleEvent_of_alive halive halive') hopen
        (outstanding_cons hevents id) h.turns (h.held halive id)

theorem Network.InOrder.input (h : n.InOrder) {w : World} {i : Input} (hk : n.Keeps (.input w i)) :
    (n.step (.input w i)).InOrder := by
  have hother : (∀ v, i ≠ .event v) → i ≠ .start → (n.daemon.alive = true →
      OpensIn w n.outstanding n.daemon i) → (n.handled (n.daemon.step (w, i))).InOrder := by
    intro hev hstart hopen
    refine h.handled n w i (fun halive' id => ?_)
    cases halive : n.daemon.alive with
    | false =>
      rw [dead_step halive w hstart] at halive'
      cases halive'
    | true =>
      exact turnOn_step hev hstart halive (hopen halive) h.turns (h.held halive id) halive'
  cases i with
  | event v => exact h
  | start =>
    refine h.handled { n with messages := [], events := [] } w .start (fun halive' id => ?_)
    exact .of_inactive (fun c hc => inactive_start h.shut halive' hc) _
  | update u => exact hother (fun v h => by cases h) (fun h => by cases h) hk
  | command c => exact hother (fun v h => by cases h) (fun h => by cases h) hk
  | tick => exact hother (fun v h => by cases h) (fun h => by cases h) hk
  | shutdown => exact hother (fun v h => by cases h) (fun h => by cases h) hk

theorem Network.InOrder.lose (h : n.InOrder) {worker : String} {channelId : ChannelId}
    (hk : n.Keeps (.lose worker channelId)) : (n.step (.lose worker channelId)).InOrder := by
  refine h.outside rfl (fun halive id => ?_)
  by_cases hmem : (worker, channelId) ∈ n.messages
  · by_cases hid : channelId = id
    · intro c hc hactive hmode
      exact absurd ⟨hactive, hmode⟩ (hk (List.contains_iff_mem.mpr hmem) c (hid ▸ hc))
    · exact (h.held halive id).perm (outstanding_lose hid)
  · have hsame : n.step (.lose worker channelId) = n := by
      show { n with messages := n.messages.erase (worker, channelId) } = n
      rw [List.erase_of_not_mem hmem]
    rw [hsame]
    exact h.held halive id

theorem Network.InOrder.step (h : n.InOrder) (x : NetworkInput) (hk : n.Keeps x) :
    (n.step x).InOrder := by
  cases x with
  | deliver w => exact h.deliver hk
  | input w i => exact h.input hk
  | answer j channelId content => exact h.answered (fun id => rfl)
  | refuse j channelId err => exact h.answered (fun id => rfl)
  | lose worker channelId => exact h.lose hk
  | report event =>
    refine h.outside rfl (fun halive id => ?_)
    rw [outstanding_report]
    exact h.held halive id

theorem inOrder_off (persistent : Bool) (sandboxOverride : Option Bool) (capsule : Bool) :
    (Network.off persistent sandboxOverride capsule).InOrder where
  turns := everyChannel_off ..
  shut := everyChannel_off ..
  held := fun halive => by cases halive

end

/-- A profile that is started for jobs only. -/
def jobProfile (name : String) : AgentConfig where
  name := name
  provider := "local"
  model := none
  systemPrompt := none
  tools := []
  autoStart := false
  maxRestarts := 0
  restartBackoffMs := 1000
  maxIterations := none
  timeoutMs := none

/-- A world whose config has a profile for every job of the dialog. -/
def staffedWorld (plan : ExecutionPlan) : World :=
  { plannerWorld plan with
    startConfig := some { plainConfig with
      agents := ["planner", "writer", "critic"].map jobProfile } }

def reportOf : Input → List NetworkInput
  | .event v => [.report v]
  | _ => []

/-- The planner hands in the plan and both agents are started. -/
def dialogStarted (plan : ExecutionPlan) : List NetworkInput :=
  [.input (staffedWorld plan) .start, .input (staffedWorld plan) (.command (.submitRun "task"))] ++
    reportOf (artifactEvent "job_1_1" "plan") ++ reportOf (completedEvent "job_1_1" ["plan"]) ++
    [.deliver (staffedWorld plan), .deliver (staffedWorld plan)]

/-- The first agent answers the initial message, and the second one is asked. -/
def dialogSpoken : List NetworkInput :=
  dialogStarted dialogPlan ++ [.answer "job_1_2" "run_1_0:c" "hello",
    .deliver (staffedWorld dialogPlan)]

/-- The daemon starts again after the first answer, and another run is submitted. -/
def dialogResumed : List NetworkInput :=
  dialogSpoken ++ [.input { staffedWorld dialogPlan with now := 5 } .start,
    .input { staffedWorld dialogPlan with now := 5 } (.command (.submitRun "other"))]

/-- The plan of the dialog without an initial message. -/
def silentPlan : ExecutionPlan :=
  { dialogPlan with channels := dialogPlan.channels.map (fun c => { c with initialMessage := none }) }

end ZeptoPM
