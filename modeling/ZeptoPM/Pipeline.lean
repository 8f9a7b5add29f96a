import Mathlib.Data.List.Infix
import ZeptoPM.Json
import ZeptoPM.Orchestrate

/- `zeptopm pipeline`: agents chained from the command line, each told what the one before
   it answered. The client speaks to whatever listens on the address, one request after the
   other, and stops at the first that fails; the steps it then has are exactly those of which
   it read a response (`pipeline_chain`), which is what the agents responded if it is the daemon
   that listens (`response_postChat`). -/
namespace ZeptoPM

/-! ## The client's requests -/

/-- What comes of an HTTP request. -/
inductive HttpEnd where
  | failed
  /-- The text of the response, where it is JSON. -/
  | body (json : Option Json)

/-- The path and the message of a request to an agent. -/
abbrev HttpLog := Transcript (String × String) HttpEnd

def chatPath (agent : String) : String := "/agents/" ++ agent ++ "/chat"

structure CliError where
  message : String
  code : String
  deriving DecidableEq, Repr

namespace CliError

def daemonUnreachable (addr : String) : CliError where
  message := "Failed to connect to daemon at " ++ addr
  code := "DAEMON_UNREACHABLE"

def notFound (kind id : String) : CliError where
  message := kind ++ " '" ++ id ++ "' not found"
  code := match kind with
    | "run" => "RUN_NOT_FOUND"
    | "agent" => "AGENT_NOT_FOUND"
    | _ => "NOT_FOUND"

end CliError

/-- `post_chat`, by what the daemon finds under the name. -/
def postChat (name : String) : Option ChatEnd → Nat × Json
  | none => (404, .obj [("error", .str (agentNotFound name))])
  | some chatEnd =>
    match chatEnd.result name with
    | .ok content => (200, .obj [("agent", .str name), ("response", .str content)])
    | .error e => (500, .obj [("error", .str e)])

/-! ## The pipeline -/

structure PipelineStep where
  agent : String
  response : String
  deriving DecidableEq, Repr

/-- The names between the commas. -/
def pipelineAgents (agents : String) : List String :=
  (agents.toList.splitOn ',').map (fun name => .ofList (Text.trim name))

/-- The message for the agent after a step. -/
def handOver (task : String) (step : PipelineStep) : String :=
  "Previous step (from " ++ step.agent ++ "): " ++ step.response ++
    "\n\nContinue with the original task: " ++ task

/-- Runs the agents one after the other, from the current message on. -/
def pipelineLoop (daemon : Responder (String × String) HttpEnd) (addr task : String) :
    List String → String → List PipelineStep → HttpLog →
      Except CliError (List PipelineStep) × HttpLog
  | [], _, steps, t => (.ok steps, t)
  | agent :: rest, currentMessage, steps, t =>
    match ask daemon t (chatPath agent, currentMessage) with
    | (.failed, t) => (.error (.daemonUnreachable addr), t)
    | (.body json, t) =>
      -- a body that is no JSON reads as `null`, and so as an empty response
      let resp := json.getD .null
      match (resp.get "error").bind Json.asStr with
      | some _ => (.error (.notFound "agent" agent), t)
      | none =>
        let step : PipelineStep := ⟨agent, resp.strOr "response" ""⟩
        pipelineLoop daemon addr task rest
          (if rest = [] then currentMessage else handOver task step) (steps ++ [step]) t

/-- `Commands::Pipeline`. Splitting leaves one name at least, so that the check for an empty
list never fires. -/
def pipeline (daemon : Responder (String × String) HttpEnd) (addr agents message : String) :
    Except CliError (List PipelineStep) × HttpLog :=
  if pipelineAgents agents = [] then
    (.error ⟨"No agents specified", "INVALID_CONFIG"⟩, [])
  else pipelineLoop daemon addr message (pipelineAgents agents) message [] []

theorem pipelineAgents_ne_nil (agents : String) : pipelineAgents agents ≠ [] := by
  intro h
  exact List.splitOn_ne_nil ',' agents.toList (List.map_eq_nil_iff.mp h)

/-! ## Chains -/

/-- What the client reads as a response. It looks at no status: without an error in it any body
is one, and where there is no response in the body, or no JSON, it is empty. -/
def HttpEnd.response : HttpEnd → Option String
  | .failed => none
  | .body json =>
    match ((json.getD .null).get "error").bind Json.asStr with
    | some _ => none
    | none => some ((json.getD .null).strOr "response" "")

/-- What the next agent is told after the steps. -/
def messageAfter (task : String) (steps : List PipelineStep) : String :=
  (steps.getLast?.map (handOver task)).getD task

/-- The error of the step that failed. -/
def stepError (addr agent : String) : HttpEnd → CliError
  | .failed => .daemonUnreachable addr
  | .body _ => .notFound "agent" agent

/-- What the agents come to after the steps `done`: more steps as far as requests are
answered, and the requests made for them, each agent once, in order, with what the step
before it came to. -/
structure Chain (addr task : String) (done : List PipelineStep) (names : List String)
    (steps : List PipelineStep) (result : Except CliError (List PipelineStep)) (t : HttpLog) :
    Prop where
  asked : t.map (·.1) = List.zipWith
    (fun name before => (chatPath name, messageAfter task (done ++ before))) names steps.inits
  answered : (t.take steps.length).map (·.2.response) = steps.map (fun step => some step.response)
  agents : steps.map (·.agent) = names.take steps.length
  result : (result = .ok (done ++ steps) ∧ steps.length = names.length) ∨
    ∃ name httpEnd, names[steps.length]? = some name ∧
      (t[steps.length]?).map (·.2) = some httpEnd ∧ httpEnd.response = none ∧
      result = .error (stepError addr name httpEnd)

section
variable {daemon : Responder (String × String) HttpEnd} {addr task : String}
  {done : List PipelineStep} {names : List String} {name : String}

theorem Chain.nil : Chain addr task done [] [] (.ok done) [] where
  asked := rfl
  answered := rfl
  agents := rfl
  result := Or.inl ⟨by rw [List.append_nil], rfl⟩

/-- The request fails, and the other agents are not asked. -/
theorem Chain.stop {httpEnd : HttpEnd} (h : httpEnd.response = none) :
    Chain addr task done (name :: names) [] (.error (stepError addr name httpEnd))
      [((chatPath name, messageAfter task done), httpEnd)] where
  asked := by
    rw [List.inits, List.zipWith_cons_cons, List.append_nil, List.zipWith_nil_right]
    rfl
  answered := rfl
  agents := rfl
  result := Or.inr ⟨name, httpEnd, rfl, rfl, h, rfl⟩

theorem Chain.cons {httpEnd : HttpEnd} {response : String} {steps : List PipelineStep}
    {result : Except CliError (List PipelineStep)} {t : HttpLog}
    (hresponse : httpEnd.response = some response)
    (h : Chain addr task (done ++ [⟨name, response⟩]) names steps result t) :
    Chain addr task done (name :: names) (⟨name, response⟩ :: steps) result
      (((chatPath name, messageAfter task done), httpEnd) :: t) where
  asked := by
    rw [List.inits_cons, List.zipWith_cons_cons, List.zipWith_map_right, List.append_nil,
      List.map_cons, h.asked]
    simp only [List.append_assoc, List.singleton_append]
  answered := by
    rw [List.length_cons, List.take_succ_cons, List.map_cons, List.map_cons, h.answered, hresponse]
  agents := by
    rw [List.map_cons, List.length_cons, List.take_succ_cons, h.agents]
  result := by
    rcases h.result with ⟨hok, hlength⟩ | ⟨name', httpEnd', hname, hlast, hnone, herr⟩
    · refine Or.inl ⟨?_, congrArg (· + 1) hlength⟩
      rw [hok, List.append_assoc, List.singleton_append]
    · exact Or.inr ⟨name', httpEnd', hname, hlast, hnone, herr⟩

/-- The loop extends the transcript by a chain. -/
theorem pipelineLoop_chain (names : List String) (currentMessage : String)
    (done : List PipelineStep) (t : HttpLog)
    (hmessage : names ≠ [] → currentMessage = messageAfter task done) :
    ∃ steps t', (pipelineLoop daemon addr task names currentMessage done t).2 = t ++ t' ∧
      Chain addr task done names steps
        (pipelineLoop daemon addr task names currentMessage done t).1 t' := by
  induction names generalizing currentMessage done t with
  | nil => exact ⟨[], [], (List.append_nil t).symm, .nil⟩
  | cons name names ih =>
    obtain rfl := hmessage (List.cons_ne_nil name names)
    unfold pipelineLoop ask
    rcases hanswer : daemon t (chatPath name, messageAfter task done) with _ | json
    · exact ⟨[], _, rfl, .stop (show HttpEnd.failed.response = none from rfl)⟩
    · dsimp only
      rcases herror : ((json.getD .null).get "error").bind Json.asStr with _ | e
      · have hresponse : (HttpEnd.body json).response =
            some ((json.getD .null).strOr "response" "") := by
          unfold HttpEnd.response
          simp only [herror]
        dsimp only
        set step : PipelineStep := ⟨name, (json.getD .null).strOr "response" ""⟩ with hstep
        obtain ⟨steps, t', hlog, hchain⟩ := ih
          (if names = [] then messageAfter task done else handOver task step) (done ++ [step])
          (t ++ [((chatPath name, messageAfter task done), .body json)]) (by
            intro hne
            rw [if_neg hne, messageAfter, List.getLast?_concat]
            rfl)
        refine ⟨step :: steps, _, ?_, hchain.cons hresponse⟩
        rw [hlog, List.append_assoc]
        rfl
      · have hnone : (HttpEnd.body json).response = none := by
          unfold HttpEnd.response
          simp only [herror]
        exact ⟨[], _, rfl, .stop hnone⟩

end

/-- Whatever the requests come to, the agents are asked in the order they are listed, each at
most once and each with the response of the one before; the command succeeds exactly where
all that came was read as a response, with all the responses, and otherwise stops at the first
that was not. -/
theorem pipeline_chain (daemon : Responder (String × String) HttpEnd)
    (addr agents message : String) :
    ∃ steps, Chain addr message [] (pipelineAgents agents) steps
      (pipeline daemon addr agents message).1 (pipeline daemon addr agents message).2 := by
  unfold pipeline
  rw [if_neg (pipelineAgents_ne_nil agents)]
  obtain ⟨steps, t, hlog, hchain⟩ := @pipelineLoop_chain daemon addr message
    (pipelineAgents agents) message [] [] (fun _ => rfl)
  rw [List.nil_append] at hlog
  exact ⟨steps, hlog ▸ hchain⟩

/-- What the daemon replies reads as a response exactly where the agent gave one. -/
theorem response_postChat (name : String) (answer : Option ChatEnd) :
    (HttpEnd.body (some (postChat name answer).2)).response =
      answer.bind (fun chatEnd => (chatEnd.result name).toOption) := by
  cases answer with
  | none => rfl
  | some chatEnd =>
    unfold postChat
    cases h : chatEnd.result name with
    | ok content => simp only [Option.bind_some, h]; rfl
    | error e => simp only [Option.bind_some, h]; rfl

end ZeptoPM
