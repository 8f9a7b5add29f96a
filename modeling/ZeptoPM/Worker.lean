import ZeptoPM.Bridge
import ZeptoPM.Dialogue
import ZeptoPM.Sessions

/- The worker process, `run` of the worker. It handles one command line after the other,
   and what it does for one is a list of effects, done one at a time, so that the lines of
   a heartbeat task may come between any two of them. A task that is aborted while it is
   sending may still get its line out. The library's agent is a responder: what it
   answers may depend on all that was said before. -/
namespace ZeptoPM

/-- The agent that `build` returns: its `chat`, and its history after what was said. -/
structure LibraryAgent (Message : Type) where
  chat : Responder String ChatResult
  history : Transcript String ChatResult → List Message

/-! ## Lines -/

def sendStatus (status : String) (error : Option String) : Json :=
  .obj ([("type", .str "status"), ("status", .str status)] ++
    (error.map (fun e => ("error", Json.str e))).toList)

def sendLog (level message : String) : Json :=
  .obj [("type", .str "log"), ("level", .str level), ("message", .str message)]

def sendHeartbeat (jobId : JobId) (phase : String) : Json :=
  .obj [("type", .str "heartbeat"), ("job_id", .str jobId), ("phase", .str phase)]

def sendProgress (jobId : JobId) (phase message : String) (percent : Option Nat) : Json :=
  .obj ([("type", .str "progress"), ("job_id", .str jobId), ("phase", .str phase),
    ("message", .str message)] ++ (percent.map (fun p => ("percent", Json.num p))).toList)

def chatResponse (id : String) : ChatResult → Json
  | .ok response =>
    .obj [("type", .str "chat_response"), ("id", .str id), ("response", .str response)]
  | .error e => .obj [("type", .str "chat_response"), ("id", .str id), ("error", .str e)]

/-- Where the output of a job is written. -/
def artifactPath (workspace : PathBuf) : PathBuf := workspace ++ "/output.md"

def artifactId (jobId : JobId) : ArtifactId := "art_" ++ jobId

def artifactProduced (jobId : JobId) (workspace : PathBuf) (response : String) : Json :=
  .obj [("type", .str "artifact_produced"), ("job_id", .str jobId),
    ("artifact_id", .str (artifactId jobId)), ("kind", .str "markdown"),
    ("path", .str (artifactPath workspace)),
    ("summary", .str (.ofList (response.toList.take 200)))]

def jobCompleted (jobId : JobId) : Json :=
  .obj [("type", .str "job_completed"), ("job_id", .str jobId),
    ("output_artifact_ids", .ofVec [artifactId jobId])]

def jobFailed (jobId : JobId) (error : String) : Json :=
  .obj [("type", .str "job_failed"), ("job_id", .str jobId), ("error", .str error),
    ("retryable", .bool true)]

/-! ## Commands -/

inductive WorkerCommand where
  | chat (id : String) (jobId : Option JobId) (message : String)
  | jobExecute (jobId : JobId) (instruction : String) (workspace : PathBuf)
      (inputArtifacts : List PathBuf)
  | stop
  | other
  deriving DecidableEq, Repr

def WorkerCommand.ofJson (cmd : Json) : WorkerCommand :=
  match (cmd.get "cmd").bind Json.asStr with
  | some "chat" =>
    .chat (cmd.strOr "id" "0") ((cmd.get "job_id").bind Json.asStr) (cmd.strOr "message" "")
  | some "job_execute" =>
    .jobExecute (cmd.strOr "job_id" "") (cmd.strOr "instruction" "")
      (cmd.strOr "workspace" "/tmp") (cmd.strings "input_artifacts")
  | some "stop" => .stop
  | _ => .other

/-- The instruction, and after it what can be read of the artifacts. -/
def jobContext (readToString : PathBuf → Option String) (instruction : String)
    (inputArtifacts : List PathBuf) : String :=
  inputArtifacts.foldl (fun context path =>
    match readToString path with
    | some content => context ++ ("\n\n--- Input from previous step ---\n" ++ content)
    | none => context) instruction

/-! ## The process -/

inductive WorkerEffect where
  | send (line : Json)
  | createDirAll (path : PathBuf)
  | write (path : PathBuf) (content : String)
  | saveHistory
  | beat (jobId : JobId)
  | abort

inductive WorkerPhase where
  | reading
  | chatting (id message : String)
  | executing (jobId : JobId) (workspace : PathBuf) (context : String)
  /-- Out of the loop, with the process to end when all is done. -/
  | leaving
  | ended
  deriving DecidableEq, Repr

structure Worker (Message : Type) where
  agent : LibraryAgent Message
  sessionFile : Option PathBuf
  maxHistory : Option Nat
  phase : WorkerPhase
  /-- The effects that are left to do. -/
  todo : List WorkerEffect
  transcript : Transcript String ChatResult
  /-- The heartbeat task, by the job it beats for. -/
  heartbeat : Option JobId
  /-- Tasks that were aborted, and may be sending still. -/
  aborted : List JobId
  out : List Json
  /-- The files written, and the histories saved, the first one first. -/
  files : List (PathBuf × String)
  saved : List (List Message)

/-- What `run` has when it enters its loop. -/
structure WorkerSetup (Message : Type) where
  agent : LibraryAgent Message
  sessionFile : Option PathBuf
  maxHistory : Option Nat
  model : String
  restored : Nat

section
variable {Message : Type}

/-- The text of the first log line. -/
def startedMessage (setup : WorkerSetup Message) (pid : Nat) : String :=
  if 0 < setup.restored then
    "worker started (model=" ++ setup.model ++ ", pid=" ++ toString pid ++ ", restored " ++
      toString setup.restored ++ " messages)"
  else "worker started (model=" ++ setup.model ++ ", pid=" ++ toString pid ++ ")"

/-- The worker as it enters its loop. -/
def Worker.start (setup : WorkerSetup Message) (pid : Nat) : Worker Message where
  agent := setup.agent
  sessionFile := setup.sessionFile
  maxHistory := setup.maxHistory
  phase := .reading
  todo :=
    [.send (.obj [("type", .str "ready")]), .send (sendLog "info" (startedMessage setup pid)),
      .send (sendStatus "idle" none)]
  transcript := []
  heartbeat := none
  aborted := []
  out := []
  files := []
  saved := []

namespace Worker

def savedHistory (worker : Worker Message) : List Message :=
  truncateHistory (worker.agent.history worker.transcript) worker.maxHistory

/-- Takes a command, with what the files of its artifacts hold. -/
def accept (worker : Worker Message) (readToString : PathBuf → Option String) :
    WorkerCommand → Worker Message
  | .chat id jobId message =>
    { worker with
      phase := .chatting id message
      todo := [.send (sendStatus "running" none), .send (sendLog "info" "processing message")] ++
        (jobId.map .beat).toList }
  | .jobExecute jobId instruction workspace inputArtifacts =>
    { worker with
      phase := .executing jobId workspace (jobContext readToString instruction inputArtifacts)
      todo :=
        [.send (sendStatus "running" none),
          .send (sendLog "info" ("executing job " ++ jobId)),
          .send (sendProgress jobId "preparing" "Building context from input artifacts" none),
          .createDirAll workspace, .beat jobId,
          .send (sendProgress jobId "llm_call" "Sending request to LLM" none)] }
  | .stop =>
    { worker with
      phase := .leaving
      todo :=
        (match worker.sessionFile with
        | none => []
        | some _ =>
          [.saveHistory,
            .send (sendLog "info" ("session saved (" ++ toString worker.savedHistory.length ++
              " messages)"))]) ++
        [.send (sendLog "info" "stop received"), .send (sendStatus "stopped" none)] }
  | .other => worker

/-- What follows when a chat returns. -/
def chatEffects (id : String) (result : ChatResult) : List WorkerEffect :=
  [.abort, .send (chatResponse id result),
    .send (match result with
      | .ok _ => sendLog "info" "response delivered"
      | .error e => sendLog "error" ("chat failed: " ++ e)),
    .saveHistory, .send (sendStatus "idle" none)]

/-- What follows when the chat of a job returns. -/
def jobEffects (jobId : JobId) (workspace : PathBuf) : ChatResult → List WorkerEffect
  | .ok response =>
    [.abort, .send (sendProgress jobId "writing_artifact" "Writing output artifact" (some 90)),
      .write (artifactPath workspace) response,
      .send (artifactProduced jobId workspace response), .send (jobCompleted jobId),
      .send (sendLog "info" ("job " ++ jobId ++ " completed")), .send (sendStatus "idle" none)]
  | .error e =>
    [.abort, .send (jobFailed jobId e),
      .send (sendLog "error" ("job " ++ jobId ++ " failed: " ++ e)),
      .send (sendStatus "idle" none)]

/-- The agent answers. -/
def reply (worker : Worker Message) : Worker Message :=
  match worker.phase with
  | .chatting id message =>
    let (result, transcript) := ask worker.agent.chat worker.transcript message
    { worker with
      phase := .reading
      transcript := transcript
      todo := chatEffects id result }
  | .executing jobId workspace context =>
    let (result, transcript) := ask worker.agent.chat worker.transcript context
    { worker with
      phase := .reading
      transcript := transcript
      todo := jobEffects jobId workspace result }
  | _ => worker

/-- One effect; `ok` tells whether the file system does what it is asked. -/
def perform (worker : Worker Message) (ok : Bool) : WorkerEffect → Worker Message
  | .send line => { worker with out := worker.out ++ [line] }
  | .createDirAll _ => worker
  | .write path content =>
    if ok then { worker with files := worker.files ++ [(path, content)] } else worker
  | .saveHistory =>
    if ok && worker.sessionFile.isSome then
      { worker with saved := worker.saved ++ [worker.savedHistory] }
    else worker
  | .beat jobId => { worker with heartbeat := some jobId }
  | .abort =>
    { worker with
      heartbeat := none
      aborted := worker.aborted ++ worker.heartbeat.toList }

end Worker

inductive WorkerMove where
  /-- A line is read, `none` if it is not JSON. -/
  | line (cmd : Option Json) (readToString : PathBuf → Option String)
  | endOfInput
  | act (ok : Bool)
  | reply
  /-- Ten seconds are over for the heartbeat of a job. -/
  | tick (jobId : JobId)
  /-- The process ends where `run` does. -/
  | exit
  /-- The process ends before. -/
  | crash

namespace Worker

def die (worker : Worker Message) : Worker Message :=
  { worker with
    phase := .ended
    todo := []
    heartbeat := none
    aborted := [] }

def tick (worker : Worker Message) (jobId : JobId) : Worker Message :=
  if worker.heartbeat = some jobId then
    { worker with out := worker.out ++ [sendHeartbeat jobId "running"] }
  else if jobId ∈ worker.aborted then
    { worker with
      out := worker.out ++ [sendHeartbeat jobId "running"]
      aborted := worker.aborted.erase jobId }
  else worker

def step (worker : Worker Message) : WorkerMove → Worker Message
  | .line cmd readToString =>
    match worker.phase, worker.todo, cmd with
    | .reading, [], some cmd => worker.accept readToString (.ofJson cmd)
    | _, _, _ => worker
  | .endOfInput =>
    match worker.phase, worker.todo with
    | .reading, [] => { worker with phase := .leaving }
    | _, _ => worker
  | .act ok =>
    match worker.todo with
    | [] => worker
    | effect :: todo => ({ worker with todo := todo } : Worker Message).perform ok effect
  | .reply =>
    match worker.todo with
    | [] => worker.reply
    | _ => worker
  | .tick jobId => worker.tick jobId
  | .exit =>
    match worker.phase, worker.todo with
    | .leaving, [] => worker.die
    | _, _ => worker
  | .crash => worker.die

theorem step_line {worker : Worker Message} (hphase : worker.phase = .reading)
    (htodo : worker.todo = []) (cmd : Json) (readToString : PathBuf → Option String) :
    worker.step (.line (some cmd) readToString) = worker.accept readToString (.ofJson cmd) := by
  unfold step
  dsimp only
  rw [hphase, htodo]

end Worker
end

end ZeptoPM
