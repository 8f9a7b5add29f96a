import ZeptoPM.Daemon
import ZeptoPM.Machine

/- The bridge between the daemon and a worker process. Commands become lines for
   the worker, lines of the worker become answers, updates for the supervisor and
   events for the orchestrator. A reply sender that comes with a message is named
   by its number among those received; `resolved` lists what became of each, and
   what is given to a bridge that has left its loop is dropped. Whether a line
   reaches the worker is part of the input that has the bridge write it. -/
namespace ZeptoPM

inductive BridgeStart where
  | noExecutable (error : String)
  | spawnFailed (error : String)
  | spawned (pid : Option Nat)

inductive BridgeInput where
  /-- A message, with a reply sender if `reply` is set. -/
  | userMessage (message : String) (reply written : Bool)
  | channelMessage (channelId message : String) (written : Bool)
  | jobExecute (jobId instruction workspace : String) (inputArtifacts : List String) (written : Bool)
  | stop (written : Bool)
  /-- Every handle is gone. -/
  | closed
  /-- A line of the worker that is JSON. -/
  | output (msg : Json)
  | endOfOutput
  /-- The worker process has ended, with the text of its status if that is no success;
  `none` where waiting for it fails. -/
  | childExit (failure : Option (Option String))

inductive BridgePhase where
  | looping | waiting | ended
  deriving DecidableEq, Repr

/-- What a reply sender is used for. -/
inductive Resolution where
  | answered (reply : Except String String)
  /-- The bridge has left its loop. -/
  | exited (error : String)
  | dropped

structure Bridge where
  agentName : String
  /-- Whether there is a channel to the orchestrator. -/
  orchTx : Bool
  orchJobId : Option JobId
  childPid : Option Nat
  phase : BridgePhase
  reqCounter : Nat
  /-- Chat requests and the senders that wait for their responses. -/
  pending : HashMap String Nat
  /-- Requests that are messages of a channel. -/
  pendingChannel : HashMap String ChannelId
  received : Nat
  resolved : List (Nat × Resolution)
  toWorker : List Json
  updates : List AgentStateUpdate
  events : List Json

namespace Bridge

def reqId (n : Nat) : String := "req-" ++ toString n

/-- `n + 1` on a `u64`. -/
def u64Succ (n : Nat) : Nat := (n + 1) % 2 ^ 64

def update (b : Bridge) (status : AgentStatus) (error : Option String) : Bridge :=
  { b with updates := b.updates ++ [⟨b.agentName, status, error, 0, b.childPid⟩] }

/-- Sends an event to the orchestrator if there is a channel to it. -/
def forward (b : Bridge) (event : Json) : Bridge :=
  if b.orchTx then { b with events := b.events ++ [event] } else b

def resolve (b : Bridge) (sender : Nat) (r : Resolution) : Bridge :=
  { b with resolved := b.resolved ++ [(sender, r)] }

def exitError (agentName : String) : String := "agent '" ++ agentName ++ "' worker process exited"

/-- Leaves the loop: pending requests fail, the channels' are forgotten. -/
def leave (b : Bridge) : Bridge :=
  { b with
    phase := .waiting
    pending := .empty
    resolved := b.resolved ++
      (b.pending.keys.filterMap b.pending.get).map (fun n => (n, .exited (exitError b.agentName))) }

/-- Writes a line to the worker. -/
def write (b : Bridge) (line : Json) (written : Bool) : Bridge :=
  if written then { b with toWorker := b.toWorker ++ [line] } else b.leave

/-- Takes a reply sender. One that is pending under the same id is dropped. -/
def hold (b : Bridge) (id : String) : Bridge :=
  let b' := match b.pending.get id with
    | none => b
    | some sender => b.resolve sender .dropped
  { b' with
    pending := b.pending.insert id b.received
    received := b.received + 1 }

def chatCommand (orchJobId : Option JobId) (id message : String) : Json :=
  .obj ([("cmd", .str "chat"), ("id", .str id), ("message", .str message)] ++
    (orchJobId.map (fun jobId => ("job_id", Json.str jobId))).toList)

def jobCommand (jobId instruction workspace : String) (inputArtifacts : List String) : Json :=
  .obj [("cmd", .str "job_execute"), ("job_id", .str jobId), ("instruction", .str instruction),
    ("workspace", .str workspace), ("input_artifacts", .ofVec inputArtifacts)]

def nextId (b : Bridge) : Bridge := { b with reqCounter := u64Succ b.reqCounter }

def userMessage (b : Bridge) (message : String) (reply written : Bool) : Bridge :=
  let b := b.nextId
  let id := reqId b.reqCounter
  (if reply then b.hold id else b).write (chatCommand b.orchJobId id message) written

def channelMessage (b : Bridge) (channelId message : String) (written : Bool) : Bridge :=
  let b := b.nextId
  let id := reqId b.reqCounter
  ({ b with pendingChannel := b.pendingChannel.insert id channelId } : Bridge).write
    (chatCommand b.orchJobId id message) written

/-- `error` of a response, or else its `response`. -/
def replyOf (msg : Json) : Except String String :=
  match (msg.get "error").bind Json.asStr with
  | some error => .error error
  | none => .ok (msg.strOr "response" "")

/-- The event made of a response to a channel message. -/
def channelEvent (channelId jobId : String) : Except String String → Json
  | .error error =>
    .obj [("type", .str "job_failed"), ("job_id", .str jobId),
      ("error", .str ("channel message failed: " ++ error)), ("retryable", .bool true)]
  | .ok response =>
    .obj [("type", .str "channel_message"), ("channel_id", .str channelId),
      ("from_job", .str jobId), ("content", .str response)]

/-- A response for the channel's job. -/
def channelResponse (b : Bridge) (channelId : ChannelId) (reply : Except String String) : Bridge :=
  match b.orchJobId with
  | none => b
  | some jobId => b.forward (channelEvent channelId jobId reply)

def chatResponse (b : Bridge) (msg : Json) : Bridge :=
  let id := msg.strOr "id" ""
  match b.pending.get id with
  | some sender =>
    ({ b with pending := b.pending.remove id } : Bridge).resolve sender (.answered (replyOf msg))
  | none =>
    match b.pendingChannel.get id with
    | some channelId =>
      ({ b with pendingChannel := b.pendingChannel.remove id } : Bridge).channelResponse channelId
        (replyOf msg)
    | none => b

def parseStatus : String → AgentStatus
  | "idle" => .idle
  | "running" => .running
  | "error" => .error
  | "stopped" => .stopped
  | _ => .idle

def statusMessage (b : Bridge) (msg : Json) : Bridge :=
  let status := parseStatus (msg.strOr "status" "idle")
  let b := b.update status ((msg.get "error").bind Json.asStr)
  if status = .stopped then b.leave else b

/-- One message from the worker. Logs and job messages carry a filler status. -/
def handleOutput (b : Bridge) (msg : Json) : Bridge :=
  match msg.strOr "type" "" with
  | "chat_response" => b.chatResponse msg
  | "status" => b.statusMessage msg
  | "log" => b.update .idle none
  | "heartbeat" => b.forward msg
  | "progress" => b.forward msg
  | "artifact_produced" => (b.update .idle none).forward msg
  | "job_completed" => (b.update .idle none).forward msg
  | "job_failed" => (b.update .idle none).forward msg
  | _ => b

/-- The updates at the end of the bridge. -/
def exit (b : Bridge) (failure : Option (Option String)) : Bridge :=
  let b := match failure with
    | some (some status) => b.update .error (some ("worker exited with " ++ status))
    | _ => b
  { b.update .stopped none with phase := .ended }

/-- A bridge that has left its loop takes no command any more. -/
def refuse (b : Bridge) : BridgeInput → Bridge
  | .userMessage _ true _ => { b.resolve b.received .dropped with received := b.received + 1 }
  | _ => b

/-- Asks the worker to stop. The loop goes on until the worker says that it has. -/
def writeStop (b : Bridge) (written : Bool) : Bridge :=
  if written then { b with toWorker := b.toWorker ++ [.obj [("cmd", .str "stop")]] } else b

/-- One round of the loop. -/
def loopStep (b : Bridge) : BridgeInput → Bridge
  | .userMessage message reply written => b.userMessage message reply written
  | .channelMessage channelId message written => b.channelMessage channelId message written
  | .jobExecute jobId instruction workspace inputArtifacts written =>
    b.write (jobCommand jobId instruction workspace inputArtifacts) written
  | .stop written => b.writeStop written
  | .closed => b.leave
  | .output msg => b.handleOutput msg
  | .endOfOutput => b.leave
  -- the end of the process shows in the loop as the end of its output
  | .childExit _ => b

/-- Waiting for the worker process to end. -/
def waitStep (b : Bridge) : BridgeInput → Bridge
  | .childExit failure => b.exit failure
  | i => b.refuse i

def step (b : Bridge) (i : BridgeInput) : Bridge :=
  match b.phase with
  | .looping => b.loopStep i
  | .waiting => b.waitStep i
  | .ended => b.refuse i

theorem step_looping {b : Bridge} (h : b.phase = .looping) (i : BridgeInput) :
    b.step i = b.loopStep i := by
  unfold step
  rw [h]

theorem step_waiting {b : Bridge} (h : b.phase = .waiting) (i : BridgeInput) :
    b.step i = b.waitStep i := by
  unfold step
  rw [h]

theorem step_ended {b : Bridge} (h : b.phase = .ended) (i : BridgeInput) :
    b.step i = b.refuse i := by
  unfold step
  rw [h]

/-- `worker_bridge`, up to its loop. -/
def workerBridge (agentName : String) (orchTx : Bool) (orchJobId : Option JobId)
    (start : BridgeStart) : Bridge :=
  let b : Bridge :=
    { agentName := agentName
      orchTx := orchTx
      orchJobId := orchJobId
      childPid := none
      phase := .ended
      reqCounter := 0
      pending := .empty
      pendingChannel := .empty
      received := 0
      resolved := []
      toWorker := []
      updates := []
      events := [] }
  match start with
  | .noExecutable e => b.update .error (some ("cannot find executable: " ++ e))
  | .spawnFailed e => b.update .error (some ("spawn failed: " ++ e))
  | .spawned pid => ({ b with childPid := pid, phase := .looping } : Bridge).update .starting none

/-! ## What a step is made of -/

/-- The input is a message for the worker, and takes the next id. -/
def takesId : BridgeInput → Bool
  | .userMessage .. => true
  | .channelMessage .. => true
  | _ => false

theorem parseStatus_ne (text : String) : parseStatus text ≠ .restartPending := by
  unfold parseStatus
  split <;> simp

/-- A relation that each part of a step respects, but for the taking of an id. -/
structure Piecewise (R : Bridge → Bridge → Prop) : Prop where
  refl : ∀ b, R b b
  trans : ∀ {b b' b''}, R b b' → R b' b'' → R b b''
  update : ∀ b {status} error, status ≠ .restartPending → R b (b.update status error)
  emit : ∀ b event, R b { b with events := b.events ++ [event] }
  leave : ∀ b, R b b.leave
  tell : ∀ b line, R b { b with toWorker := b.toWorker ++ [line] }
  answer : ∀ b {id sender} r, b.pending.get id = some sender →
    R b (({ b with pending := b.pending.remove id } : Bridge).resolve sender r)
  forget : ∀ b id, R b { b with pendingChannel := b.pendingChannel.remove id }
  drop : ∀ b, b.phase ≠ .looping →
    R b { b.resolve b.received .dropped with received := b.received + 1 }
  finish : ∀ b, b.phase ≠ .looping → R b { b with phase := .ended }

namespace Piecewise

variable {R : Bridge → Bridge → Prop} (h : Piecewise R)
include h

theorem forward (b : Bridge) (event : Json) : R b (b.forward event) := by
  unfold Bridge.forward
  split
  · exact h.emit b event
  · exact h.refl b

theorem write (b : Bridge) (line : Json) (written : Bool) : R b (b.write line written) := by
  unfold Bridge.write
  split
  · exact h.tell b line
  · exact h.leave b

theorem writeStop (b : Bridge) (written : Bool) : R b (b.writeStop written) := by
  unfold Bridge.writeStop
  split
  · exact h.tell ..
  · exact h.refl b

theorem channelResponse (b : Bridge) (channelId : ChannelId) (reply : Except String String) :
    R b (b.channelResponse channelId reply) := by
  unfold Bridge.channelResponse
  split
  · exact h.refl b
  · exact h.forward ..

theorem chatResponse (b : Bridge) (msg : Json) : R b (b.chatResponse msg) := by
  unfold Bridge.chatResponse
  dsimp only
  split
  · rename_i sender hpending
    exact h.answer b _ hpending
  · split
    · exact h.trans (h.forget b _) (h.channelResponse ..)
    · exact h.refl b

theorem statusMessage (b : Bridge) (msg : Json) : R b (b.statusMessage msg) := by
  have hupdate := h.update b ((msg.get "error").bind Json.asStr)
    (parseStatus_ne (msg.strOr "status" "idle"))
  unfold Bridge.statusMessage
  dsimp only
  split
  · exact h.trans hupdate (h.leave _)
  · exact hupdate

theorem handleOutput (b : Bridge) (msg : Json) : R b (b.handleOutput msg) := by
  have hlog : R b (b.update .idle none) := h.update b none (by simp)
  unfold Bridge.handleOutput
  split
  · exact h.chatResponse b msg
  · exact h.statusMessage b msg
  · exact hlog
  · exact h.forward b msg
  · exact h.forward b msg
  · exact h.trans hlog (h.forward _ msg)
  · exact h.trans hlog (h.forward _ msg)
  · exact h.trans hlog (h.forward _ msg)
  · exact h.refl b

theorem refuse {b : Bridge} (hl : b.phase ≠ .looping) (i : BridgeInput) : R b (b.refuse i) := by
  unfold Bridge.refuse
  split
  · exact h.drop b hl
  · exact h.refl b

theorem exit {b : Bridge} (hl : b.phase ≠ .looping) (failure : Option (Option String)) :
    R b (b.exit failure) := by
  have hend : ∀ b : Bridge, b.phase ≠ .looping →
      R b { b.update .stopped none with phase := .ended } :=
    fun b hl => h.trans (h.update b none (by simp)) (h.finish _ hl)
  unfold Bridge.exit
  dsimp only
  split
  · exact h.trans (h.update b _ (by simp)) (hend _ hl)
  · exact hend b hl

/-- A step that takes no id. -/
theorem step {b : Bridge} {i : BridgeInput} (hi : ¬ (b.phase = .looping ∧ takesId i = true)) :
    R b (b.step i) := by
  cases hl : b.phase with
  | looping =>
    rw [step_looping hl]
    cases i with
    | userMessage message reply written => exact absurd ⟨hl, rfl⟩ hi
    | channelMessage channelId message written => exact absurd ⟨hl, rfl⟩ hi
    | jobExecute jobId instruction workspace inputArtifacts written => exact h.write ..
    | stop written => exact h.writeStop b written
    | closed => exact h.leave b
    | output msg => exact h.handleOutput b msg
    | endOfOutput => exact h.leave b
    | childExit failure => exact h.refl b
  | waiting =>
    have hne : b.phase ≠ .looping := by simp [hl]
    rw [step_waiting hl]
    unfold waitStep
    split
    · exact h.exit hne _
    · exact h.refuse hne _
  | ended =>
    rw [step_ended hl]
    exact h.refuse (by simp [hl]) i

end Piecewise
end Bridge
end ZeptoPM
