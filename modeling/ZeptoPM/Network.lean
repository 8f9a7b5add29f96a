import ZeptoPM.Opening
import ZeptoPM.Runs

/- The daemon together with its workers. A channel message is on its way to a worker,
   or being answered by it, until the worker's bridge puts the answer, or the error,
   into the orchestrator's event queue; the daemon takes the events off the queue one
   at a time. A message of a worker that stops before it has answered is lost. -/
namespace ZeptoPM
open OrchestratorEngine Daemon

/-- An event in the orchestrator's queue. The bridge of a job's worker puts there what the
worker answers to a channel message; nothing else is a `channel_message`. -/
inductive QueuedEvent where
  | reply (jobId : JobId) (channelId : ChannelId) (content : String)
  | failure (jobId : JobId) (channelId : ChannelId) (error : String)
  | other (event : Json) (notMessage : event.strOr "type" "" ≠ "channel_message")

def QueuedEvent.json : QueuedEvent → Json
  | .reply jobId channelId content =>
    .obj [("type", .str "channel_message"), ("channel_id", .str channelId),
      ("from_job", .str jobId), ("content", .str content)]
  | .failure jobId _ error =>
    .obj [("type", .str "job_failed"), ("job_id", .str jobId),
      ("error", .str ("channel message failed: " ++ error)), ("retryable", .bool true)]
  | .other event _ => event

/-- The worker whose answer to a message on the channel the event is. -/
def QueuedEvent.answersOn (id : ChannelId) : QueuedEvent → Option String
  | .reply jobId channelId _ | .failure jobId channelId _ =>
    if channelId = id then some (workerName jobId) else none
  | .other .. => none

/-- A reported event, unless it is a `channel_message`. -/
def QueuedEvent.ofReport (event : Json) : Option QueuedEvent :=
  if h : event.strOr "type" "" ≠ "channel_message" then some (.other event h) else none

/-- What the daemon itself puts into the queue. -/
def Effect.queued : Effect → Option QueuedEvent
  | .event v => QueuedEvent.ofReport v
  | _ => none

/-- The worker to which a channel message is sent, and the channel. -/
def Effect.channelMessage : Effect → Option (String × ChannelId)
  | .sendChannelMessage worker channelId _ => some (worker, channelId)
  | _ => none

structure Network where
  daemon : Daemon
  /-- The channel messages sent and not yet answered. -/
  messages : List (String × ChannelId)
  events : List QueuedEvent

inductive NetworkInput where
  /-- The daemon handles the first event of the queue. -/
  | deliver (w : World)
  /-- The daemon handles an input that is not an event. -/
  | input (w : World) (i : Input)
  | answer (jobId : JobId) (channelId : ChannelId) (content : String)
  | refuse (jobId : JobId) (channelId : ChannelId) (error : String)
  /-- A worker stops, or its handle is dropped, before it has answered. -/
  | lose (worker : String) (channelId : ChannelId)
  /-- A worker reports an event of its own. -/
  | report (event : Json)

namespace Network

/-- The daemon has handled an input: what it sent is on its way. -/
def handled (n : Network) (d : Daemon) : Network where
  daemon := d
  messages := n.messages ++ d.sent.filterMap Effect.channelMessage
  events := n.events ++ d.sent.filterMap Effect.queued

/-- The message is answered by the event, if it is there. -/
def answered (n : Network) (jobId : JobId) (channelId : ChannelId) (event : QueuedEvent) :
    Network :=
  if (workerName jobId, channelId) ∈ n.messages then
    { n with
      messages := n.messages.erase (workerName jobId, channelId)
      events := n.events ++ [event] }
  else n

def step (n : Network) : NetworkInput → Network
  | .deliver w =>
    match n.events with
    | [] => n
    | v :: events => { n with events := events }.handled (n.daemon.step (w, .event v.json))
  | .input _ (.event _) => n
  -- neither the queue nor a worker outlives the process
  | .input w .start => { n with messages := [], events := [] }.handled (n.daemon.step (w, .start))
  | .input w i => n.handled (n.daemon.step (w, i))
  | .answer jobId channelId content => n.answered jobId channelId (.reply jobId channelId content)
  | .refuse jobId channelId error => n.answered jobId channelId (.failure jobId channelId error)
  | .lose worker channelId => { n with messages := n.messages.erase (worker, channelId) }
  | .report event => { n with events := n.events ++ (QueuedEvent.ofReport event).toList }

def off (persistent : Bool) (sandboxOverride : Option Bool) (capsule : Bool) : Network where
  daemon := Daemon.off persistent sandboxOverride capsule
  messages := []
  events := []

/-- Whose answers the channel waits for: the workers that have sent one, and those that
have been sent a message. -/
def outstanding (n : Network) (id : ChannelId) : List String :=
  n.events.filterMap (QueuedEvent.answersOn id) ++
    n.messages.filterMap (fun m => if m.2 = id then some m.1 else none)

end Network

/-- An active turn-based channel waits for one answer, that of its speaker. -/
def TurnOn (channel : Option Channel) (outstanding : List String) : Prop :=
  ∀ c, channel = some c → c.active = true → c.mode = .turnBased →
    ∃ p, c.speaker = some p ∧ outstanding = [workerName p]

def TurnHeld (n : Network) : Prop := ∀ id, TurnOn (n.daemon.channel id) (n.outstanding id)

/-! ## The outstanding answers -/

section
variable {n : Network} {id : ChannelId}

theorem TurnOn.perm {channel : Option Channel} {l l' : List String} (h : TurnOn channel l)
    (hl : List.Perm l' l) : TurnOn channel l' := by
  intro c hc hactive hmode
  obtain ⟨p, hp, rfl⟩ := h c hc hactive hmode
  exact ⟨p, hp, List.perm_singleton.mp hl⟩

theorem TurnOn.of_inactive {channel : Option Channel}
    (h : ∀ c, channel = some c → c.active = false) (l : List String) : TurnOn channel l := by
  intro c hc hactive
  rw [h c hc] at hactive
  cases hactive

theorem sentOn_eq (d : Daemon) (id : ChannelId) : d.sentOn id =
    (d.sent.filterMap Effect.channelMessage).filterMap
      (fun m => if m.2 = id then some m.1 else none) := by
  rw [List.filterMap_filterMap]
  unfold Daemon.sentOn
  congr 1
  funext effect
  cases effect <;> rfl

/-- A report answers nothing. -/
theorem answersOn_ofReport (event : Json) (id : ChannelId) :
    (QueuedEvent.ofReport event).bind (QueuedEvent.answersOn id) = none := by
  unfold QueuedEvent.ofReport
  split <;> rfl

theorem answersOn_queued (d : Daemon) (id : ChannelId) :
    (d.sent.filterMap Effect.queued).filterMap (QueuedEvent.answersOn id) = [] := by
  rw [List.filterMap_filterMap, List.filterMap_eq_nil_iff]
  intro effect _
  cases effect with
  | event v => exact answersOn_ofReport v id
  | _ => rfl

/-- What the daemon sends is outstanding, beside what was. -/
theorem outstanding_handled (n : Network) (d : Daemon) (id : ChannelId) :
    (n.handled d).outstanding id = n.outstanding id ++ d.sentOn id := by
  unfold Network.outstanding Network.handled
  rw [List.filterMap_append, List.filterMap_append, answersOn_queued, ← sentOn_eq,
    List.append_nil, List.append_assoc]

theorem outstanding_cons {v : QueuedEvent} {events : List QueuedEvent} (h : n.events = v :: events)
    (id : ChannelId) : n.outstanding id =
      (v.answersOn id).toList ++ ({ n with events := events } : Network).outstanding id := by
  unfold Network.outstanding
  rw [h, List.filterMap_cons, ← List.append_assoc]
  cases v.answersOn id <;> rfl

/-- An answer is outstanding as its message was. -/
theorem outstanding_answered {jobId : JobId} {channelId : ChannelId} {event : QueuedEvent}
    (hevent : ∀ id, event.answersOn id = if channelId = id then some (workerName jobId) else none) :
    List.Perm ((n.answered jobId channelId event).outstanding id) (n.outstanding id) := by
  unfold Network.answered
  split
  · rename_i hmem
    unfold Network.outstanding
    dsimp only
    rw [List.filterMap_append, List.append_assoc]
    refine List.Perm.append_left _ ?_
    refine List.Perm.trans ?_ ((List.perm_cons_erase hmem).filterMap _).symm
    rw [List.filterMap_cons, List.filterMap_cons, hevent]
    by_cases hid : channelId = id
    · rw [if_pos hid]
      exact List.Perm.refl _
    · rw [if_neg hid]
      exact List.Perm.refl _
  · exact List.Perm.refl _

/-- A lost message was outstanding on its channel only. -/
theorem outstanding_lose {worker : String} {channelId : ChannelId} (hne : channelId ≠ id) :
    List.Perm ((n.step (.lose worker channelId)).outstanding id) (n.outstanding id) := by
  show List.Perm (_ ++ (n.messages.erase (worker, channelId)).filterMap _) _
  refine List.Perm.append_left _ ?_
  by_cases hmem : (worker, channelId) ∈ n.messages
  · refine List.Perm.trans ?_ ((List.perm_cons_erase hmem).filterMap _).symm
    rw [List.filterMap_cons]
    dsimp only
    rw [if_neg hne]
  · rw [List.erase_of_not_mem hmem]

theorem outstanding_report (event : Json) :
    (n.step (.report event)).outstanding id = n.outstanding id := by
  show (n.events ++ (QueuedEvent.ofReport event).toList).filterMap _ ++ _ = _
  have hnone : (QueuedEvent.ofReport event).toList.filterMap (QueuedEvent.answersOn id) = [] := by
    have hbind := answersOn_ofReport event id
    cases hreport : QueuedEvent.ofReport event with
    | none => rfl
    | some v =>
      rw [hreport] at hbind
      exact List.filterMap_cons_none hbind
  rw [List.filterMap_append, hnone, List.append_nil]
  rfl

end

end ZeptoPM
