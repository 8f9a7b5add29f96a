import ZeptoPM.Replies
import ZeptoPM.Worker

/- A bridge and its worker process, with the two pipes between them. What the bridge
   writes the worker reads line by line, and what the worker writes the bridge takes line
   by line, each at its own pace; `posts` keeps what the lines were written for. However
   the two are interleaved, every answer is the agent's answer to the message that it is
   delivered for: `link_delivers`. With nothing left in between all is delivered, and so
   it is when the bridge ends after a stop: `link_settles` and `link_stops`. -/
namespace ZeptoPM

/-! ## The two ends -/

/-- What a line for the worker is written for. -/
inductive Post where
  /-- A message, with the sender that waits for its answer. -/
  | message (sender : Option Nat) (text : String)
  | channel (channelId : ChannelId) (text : String)
  | job (jobId : JobId) (instruction : String) (workspace : PathBuf)
      (inputArtifacts : List PathBuf)
  | stop

/-- The line that the bridge writes to its worker, if it does. -/
def Bridge.post (b : Bridge) : BridgeInput → Option Post
  | .userMessage message reply true =>
    some (.message (if reply then some b.received else none) message)
  | .channelMessage channelId message true => some (.channel channelId message)
  | .jobExecute jobId instruction workspace inputArtifacts true =>
    some (.job jobId instruction workspace inputArtifacts)
  | .stop true => some .stop
  | _ => none

structure Link (Message : Type) where
  bridge : Bridge
  worker : Worker Message
  posts : List Post
  /-- How many lines of the bridge the worker has read. -/
  read : Nat
  /-- How many lines of the worker the bridge has taken. -/
  fetched : Nat

inductive LinkInput where
  | userMessage (message : String) (reply written : Bool)
  | channelMessage (channelId message : String) (written : Bool)
  | jobExecute (jobId instruction workspace : String) (inputArtifacts : List String)
      (written : Bool)
  | stop (written : Bool)
  | closed
  /-- The bridge takes a line, or finds that there is no more to come. -/
  | deliver
  | endOfOutput
  | childExit (failure : Option (Option String))
  /-- The worker reads a line, or finds that there is no more to come. -/
  | read (readToString : PathBuf → Option String)
  | endOfInput
  | act (ok : Bool)
  | reply
  | tick (jobId : JobId)
  | exit
  | crash

/-- The input asks something of the agent under an id of its own. -/
def LinkInput.asks : LinkInput → Bool
  | .userMessage .. | .channelMessage .. => true
  | _ => false

section
variable {Message : Type}

namespace Link

def start (agentName : String) (orchTx : Bool) (orchJobId : Option JobId) (childPid : Option Nat)
    (setup : WorkerSetup Message) (pid : Nat) : Link Message where
  bridge := Bridge.workerBridge agentName orchTx orchJobId (.spawned childPid)
  worker := .start setup pid
  posts := []
  read := 0
  fetched := 0

/-- A command for the bridge. -/
def command (l : Link Message) (i : BridgeInput) : Link Message :=
  { l with
    bridge := l.bridge.step i
    posts := l.posts ++ if l.bridge.phase = .looping then (l.bridge.post i).toList else [] }

def move (l : Link Message) (m : WorkerMove) : Link Message :=
  { l with worker := l.worker.step m }

/-- The bridge takes the next line of the worker, as long as it is in its loop. -/
def deliver (l : Link Message) : Link Message :=
  match l.bridge.phase, l.worker.out[l.fetched]? with
  | .looping, some msg =>
    { l with
      bridge := l.bridge.step (.output msg)
      fetched := l.fetched + 1 }
  | _, _ => l

/-- The worker reads the next line of the bridge. -/
def readLine (l : Link Message) (readToString : PathBuf → Option String) : Link Message :=
  match l.worker.phase, l.worker.todo, l.bridge.toWorker[l.read]? with
  | .reading, [], some cmd =>
    { l.move (.line (some cmd) readToString) with read := l.read + 1 }
  | _, _, _ => l

def step (l : Link Message) : LinkInput → Link Message
  | .userMessage message reply written => l.command (.userMessage message reply written)
  | .channelMessage channelId message written =>
    l.command (.channelMessage channelId message written)
  | .jobExecute jobId instruction workspace inputArtifacts written =>
    l.command (.jobExecute jobId instruction workspace inputArtifacts written)
  | .stop written => l.command (.stop written)
  | .closed => l.command .closed
  | .deliver => l.deliver
  | .endOfOutput =>
    if l.worker.phase = .ended ∧ l.fetched = l.worker.out.length then l.command .endOfOutput
    else l
  | .childExit failure =>
    if l.worker.phase = .ended then l.command (.childExit failure) else l
  | .read readToString => l.readLine readToString
  | .endOfInput => if l.read = l.bridge.toWorker.length then l.move .endOfInput else l
  | .act ok => l.move (.act ok)
  | .reply => l.move .reply
  | .tick jobId => l.move (.tick jobId)
  | .exit => l.move .exit
  | .crash => l.move .crash

end Link

/-! ## What is to be delivered -/

/-- What a worker writes of the work it has done. -/
inductive News where
  | answer (id : String) (result : ChatResult)
  | artifact (jobId : JobId) (workspace : PathBuf) (response : String)
  | completed (jobId : JobId)
  | failed (jobId : JobId) (error : String)

def News.line : News → Json
  | .answer id result => chatResponse id result
  | .artifact jobId workspace response => artifactProduced jobId workspace response
  | .completed jobId => jobCompleted jobId
  | .failed jobId error => jobFailed jobId error

def isNews (msg : Json) : Bool :=
  ["chat_response", "artifact_produced", "job_completed", "job_failed"].contains
    (msg.strOr "type" "")

/-- Heartbeats and progress, which a worker may send at any time. -/
def isPulse (msg : Json) : Bool := ["heartbeat", "progress"].contains (msg.strOr "type" "")

namespace Post

/-- It is sent under an id. -/
def asks : Post → Bool
  | .message .. | .channel .. => true
  | _ => false

def sender : Post → Option Nat
  | .message sender _ => sender
  | _ => none

def channelId : Post → Option ChannelId
  | .channel channelId _ => some channelId
  | _ => none

/-- What the agent is told for it: the message, or the instruction with what could be read
of the artifacts. -/
def Prompts (prompt : String) : Post → Prop
  | .message _ text | .channel _ text => prompt = text
  | .job _ instruction _ inputArtifacts =>
    ∃ readToString, prompt = jobContext readToString instruction inputArtifacts
  | .stop => False

def line (orchJobId : Option JobId) (id : String) : Post → Json
  | .message _ text | .channel _ text => Bridge.chatCommand orchJobId id text
  | .job jobId instruction workspace inputArtifacts =>
    Bridge.jobCommand jobId instruction workspace inputArtifacts
  | .stop => .obj [("cmd", .str "stop")]

def workerCommand (orchJobId : Option JobId) (id : String) : Post → WorkerCommand
  | .message _ text | .channel _ text => .chat id orchJobId text
  | .job jobId instruction workspace inputArtifacts =>
    .jobExecute jobId instruction workspace inputArtifacts
  | .stop => .stop

def news (id : String) : Post → ChatResult → List News
  | .message .., result | .channel .., result => [.answer id result]
  | .job jobId _ workspace _, .ok response =>
    [.artifact jobId workspace response, .completed jobId]
  | .job jobId .., .error e => [.failed jobId e]
  | .stop, _ => []

/-- Whom a result is for, if somebody waits. -/
def replies : Post → ChatResult → List (Nat × ChatResult)
  | .message (some sender) _, result => [(sender, result)]
  | _, _ => []

/-- What a result has the orchestrator told, over a channel that there is. -/
def events (orchJobId : Option JobId) : Post → ChatResult → List Json
  | .channel channelId _, result =>
    (orchJobId.map (fun jobId => Bridge.channelEvent channelId jobId result)).toList
  | .job jobId _ workspace _, .ok response =>
    [artifactProduced jobId workspace response, jobCompleted jobId]
  | .job jobId .., .error e => [jobFailed jobId e]
  | _, _ => []

end Post

/-- The answer that a sender has got. -/
def Resolution.result : Nat × Resolution → Option (Nat × ChatResult)
  | (sender, .answered result) => some (sender, result)
  | _ => none

namespace Bridge

/-- The answers that senders have got. -/
def answered (b : Bridge) : List (Nat × ChatResult) := b.resolved.filterMap Resolution.result

/-- What the orchestrator was told, but for signs of life. -/
def told (b : Bridge) : List Json := b.events.filter (fun msg => !isPulse msg)

end Bridge

namespace Link

/-- The posts that the agent has dealt with, each with the result. -/
def served (l : Link Message) : List (Post × ChatResult) :=
  l.posts.zip (l.worker.transcript.map (·.2))

def repliesDue (l : Link Message) : List (Nat × ChatResult) :=
  l.served.flatMap (fun x => x.1.replies x.2)

def eventsDue (l : Link Message) : List Json :=
  if l.bridge.orchTx then l.served.flatMap (fun x => x.1.events l.bridge.orchJobId x.2) else []

/-- The agent has been told the first of what was posted, in that order, and answers for
itself; and of what it answered the senders and the orchestrator have got the first of theirs,
in that order, and nothing else. -/
structure Delivers (l : Link Message) : Prop where
  prompts : List.Forall₂ (fun p prompt => p.Prompts prompt)
    (l.posts.take l.worker.transcript.length) (l.worker.transcript.map (·.1))
  genuine : Genuine l.worker.agent.chat l.worker.transcript
  answers : l.bridge.answered <+: l.repliesDue
  told : l.bridge.told <+: l.eventsDue

end Link
end
end ZeptoPM
