import ZeptoPM.Delegations
import ZeptoPM.Dialogue

/- The manager loop behind `/orchestrate/{name}`. A manager is asked, the markers in its
   response are chats with other agents, and what comes of these is its next message. The
   agents answer as they like and may come and go between two chats, so they are a
   responder; a whole request is a conversation of rounds, each opened by what the one
   before reported (`conversation_loop`). -/
namespace ZeptoPM

/-! ## Chats -/

/-- How a chat through an agent's handle ends. -/
inductive ChatEnd where
  /-- The command queue is closed. -/
  | closed
  /-- The reply sender is dropped. -/
  | dropped
  | replied (reply : Except String String)

/-- `AgentHandle::chat`. -/
def ChatEnd.result (agent : String) : ChatEnd → Except String String
  | .closed => .error ("agent '" ++ agent ++ "' channel closed")
  | .dropped => .error ("agent '" ++ agent ++ "' response channel dropped")
  | .replied reply => reply

theorem ChatEnd.result_ok {agent response : String} {chatEnd : ChatEnd}
    (h : chatEnd.result agent = .ok response) : chatEnd = .replied (.ok response) := by
  cases chatEnd with
  | closed => cases h
  | dropped => cases h
  | replied reply => exact congrArg ChatEnd.replied h

/-- A chat that the handler looks an agent up for. -/
inductive Chat where
  | manager (agent message : String)
  | delegate (agent message : String)
  deriving DecidableEq, Repr

/-- No answer where the shared state has no such agent. -/
abbrev ChatLog := Transcript Chat (Option ChatEnd)

abbrev Agents := Responder Chat (Option ChatEnd)

/-! ## The request -/

structure OrchestrateRequest where
  message : String
  maxRounds : Nat := 5

structure DelegationResult where
  /-- `to`. -/
  target : String
  query : String
  result : String
  deriving DecidableEq, Repr

structure OrchestrateResponse where
  agent : String
  response : String
  delegations : List DelegationResult
  rounds : Nat
  deriving DecidableEq, Repr

inductive OrchestrateReply where
  | ok (response : OrchestrateResponse)
  | error (status : Nat) (error : String)
  /-- A slice aborts the handler. -/
  | aborted
  deriving DecidableEq, Repr

def agentNotFound (name : String) : String := "agent '" ++ name ++ "' not found"

/-- What the manager is told of a delegation. -/
def delegationReport (d : String × String) : Option ChatEnd → String
  | none => "From @" ++ d.1 ++ ": [agent not found or not running]"
  | some chatEnd =>
    match chatEnd.result d.1 with
    | .ok result => "From @" ++ d.1 ++ ":\n" ++ result
    | .error e => "From @" ++ d.1 ++ ": [error: " ++ e ++ "]"

/-- What the client is told of it. -/
def delegationResult (d : String × String) (answer : Option ChatEnd) : Option DelegationResult :=
  answer.bind fun chatEnd =>
    match chatEnd.result d.1 with
    | .ok result => some ⟨d.1, d.2, result⟩
    | .error _ => none

/-- The manager's next message. -/
def delegationFeedback (results : List String) : String :=
  "Here are the results from the agents you delegated to:\n\n" ++
    String.intercalate "\n\n" results ++
    "\n\nNow provide your final answer incorporating these results. " ++
    "If you need more info, delegate again."

def delegateChat (d : String × String) : Chat := .delegate d.1 d.2

/-- The loop of `post_orchestrate`, with the delegations carried out and the rounds made so
far. -/
def orchestrateLoop (agents : Agents) (name : String) (maxRounds : Nat)
    (allDelegations : List DelegationResult) (message : String) (rounds : Nat) (t : ChatLog) :
    OrchestrateReply × ChatLog :=
  match ask agents t (.manager name message) with
  | (none, t) => (.error 404 (agentNotFound name), t)
  | (some chatEnd, t) =>
    match chatEnd.result name with
    | .error e => (.error 500 e, t)
    | .ok response =>
      match parseDelegations response with
      | none => (.aborted, t)
      | some delegations =>
        if delegations = [] ∨ maxRounds < rounds + 1 then
          (.ok ⟨name, response, allDelegations, rounds + 1⟩, t)
        else
          let (answers, t) := askAll agents t (delegations.map delegateChat)
          orchestrateLoop agents name maxRounds
            (allDelegations ++
              (List.zipWith delegationResult delegations answers).filterMap id)
            (delegationFeedback (List.zipWith delegationReport delegations answers)) (rounds + 1) t
termination_by maxRounds + 1 - rounds

/-- `post_orchestrate`. -/
def postOrchestrate (agents : Agents) (name : String) (body : OrchestrateRequest) :
    OrchestrateReply × ChatLog :=
  orchestrateLoop agents name (min body.maxRounds 10) [] body.message 0 []

/-! ## Conversations -/

/-- A round in which the manager delegates: all that its response asks for is answered. -/
structure Round where
  message : String
  response : String
  delegations : List (String × String)
  answers : List (Option ChatEnd)
  parsed : parseDelegations response = some delegations
  delegates : delegations ≠ []
  answered : answers.length = delegations.length

namespace Round

def exchanges (name : String) (round : Round) : ChatLog :=
  (.manager name round.message, some (.replied (.ok round.response))) ::
    (round.delegations.map delegateChat).zip round.answers

def results (round : Round) : List DelegationResult :=
  (List.zipWith delegationResult round.delegations round.answers).filterMap id

def feedback (round : Round) : String :=
  delegationFeedback (List.zipWith delegationReport round.delegations round.answers)

/-- Each round is opened by what the one before it reported. -/
def Chained : String → List Round → Prop
  | _, [] => True
  | message, round :: rounds => round.message = message ∧ Chained round.feedback rounds

/-- The message that comes after the rounds. -/
def closing (message : String) (rounds : List Round) : String :=
  rounds.foldl (fun _ round => round.feedback) message

end Round

/-- How a conversation ends after its rounds, by the manager's last answer. -/
inductive EndsBy (name : String) (maxRounds rounds : Nat) (delegations : List DelegationResult) :
    Option ChatEnd → OrchestrateReply → Prop where
  | missing : EndsBy name maxRounds rounds delegations none (.error 404 (agentNotFound name))
  | failed {chatEnd : ChatEnd} {e : String} (h : chatEnd.result name = .error e) :
    EndsBy name maxRounds rounds delegations (some chatEnd) (.error 500 e)
  /-- The manager asks for nothing more, or may not ask any more. -/
  | answered {response : String} (h : parseDelegations response = some [] ∨ rounds = maxRounds) :
    EndsBy name maxRounds rounds delegations (some (.replied (.ok response)))
      (.ok ⟨name, response, delegations, rounds + 1⟩)

/-- What becomes of a conversation that has a transcript and some delegations already: rounds
that follow one another, and a last answer of the manager. -/
def Converses (agents : Agents) (name : String) (maxRounds : Nat)
    (allDelegations : List DelegationResult) (message : String) (rounds : Nat) (t : ChatLog)
    (outcome : OrchestrateReply × ChatLog) : Prop :=
  ∃ (rs : List Round) (answer : Option ChatEnd),
    Round.Chained message rs ∧ rounds + rs.length ≤ maxRounds ∧
    outcome.2 = t ++ (rs.flatMap (Round.exchanges name) ++
      [(.manager name (Round.closing message rs), answer)]) ∧
    Genuine agents outcome.2 ∧
    EndsBy name maxRounds (rounds + rs.length) (allDelegations ++ rs.flatMap Round.results)
      answer outcome.1

section
variable {agents : Agents} {name : String} {maxRounds : Nat}
  {allDelegations : List DelegationResult} {message : String} {rounds : Nat} {t : ChatLog}

theorem Converses.endsBy {answer : Option ChatEnd} {reply : OrchestrateReply}
    (hr : rounds ≤ maxRounds) (ht : Genuine agents t)
    (ha : agents t (.manager name message) = answer)
    (h : EndsBy name maxRounds rounds allDelegations answer reply) :
    Converses agents name maxRounds allDelegations message rounds t
      (reply, t ++ [(.manager name message, answer)]) := by
  subst ha
  refine ⟨[], agents t (.manager name message), True.intro, hr, rfl, ht.ask _, ?_⟩
  rw [List.flatMap_nil, List.append_nil]
  exact h

/-- A round, and what follows it. -/
theorem Converses.round {round : Round} {outcome : OrchestrateReply × ChatLog}
    (hmessage : round.message = message)
    (h : Converses agents name maxRounds (allDelegations ++ round.results) round.feedback
      (rounds + 1) (t ++ round.exchanges name) outcome) :
    Converses agents name maxRounds allDelegations message rounds t outcome := by
  obtain ⟨rs, answer, hchain, hle, hlog, hgenuine, hends⟩ := h
  refine ⟨round :: rs, answer, ⟨hmessage, hchain⟩, ?_, ?_, hgenuine, ?_⟩
  · rw [List.length_cons]
    omega
  · rw [hlog, List.flatMap_cons, List.append_assoc, List.append_assoc]
    rfl
  · rw [List.flatMap_cons, ← List.append_assoc, List.length_cons, Nat.add_comm rs.length,
      ← Nat.add_assoc]
    exact hends

/-- A manager's response ends the loop, or begins a round of it. -/
theorem orchestrateLoop_response {response : String} {delegations : List (String × String)}
    (ha : agents t (.manager name message) = some (.replied (.ok response)))
    (hparsed : parseDelegations response = some delegations) :
    orchestrateLoop agents name maxRounds allDelegations message rounds t =
      if delegations = [] ∨ maxRounds < rounds + 1 then
        (.ok ⟨name, response, allDelegations, rounds + 1⟩,
          t ++ [(.manager name message, some (.replied (.ok response)))])
      else
        let asked := askAll agents (t ++ [(.manager name message, some (.replied (.ok response)))])
          (delegations.map delegateChat)
        orchestrateLoop agents name maxRounds
          (allDelegations ++ (List.zipWith delegationResult delegations asked.1).filterMap id)
          (delegationFeedback (List.zipWith delegationReport delegations asked.1)) (rounds + 1)
          asked.2 := by
  rw [orchestrateLoop]
  simp only [ask, ha, ChatEnd.result, hparsed]

/-- The loop holds a conversation. -/
theorem orchestrateLoop_converses (left : Nat) (allDelegations : List DelegationResult)
    (message : String) (rounds : Nat) (t : ChatLog) (hleft : maxRounds = rounds + left)
    (ht : Genuine agents t) :
    Converses agents name maxRounds allDelegations message rounds t
      (orchestrateLoop agents name maxRounds allDelegations message rounds t) := by
  -- every round leaves one round less
  induction left using Nat.strong_induction_on generalizing allDelegations message rounds t with
  | _ left ih =>
    have hr : rounds ≤ maxRounds := by omega
    rcases ha : agents t (.manager name message) with _ | chatEnd
    · have hloop : orchestrateLoop agents name maxRounds allDelegations message rounds t =
          (.error 404 (agentNotFound name), t ++ [(.manager name message, none)]) := by
        rw [orchestrateLoop]
        simp only [ask, ha]
      rw [hloop]
      exact .endsBy hr ht ha .missing
    · rcases hresult : chatEnd.result name with e | response
      · have hloop : orchestrateLoop agents name maxRounds allDelegations message rounds t =
            (.error 500 e, t ++ [(.manager name message, some chatEnd)]) := by
          rw [orchestrateLoop]
          simp only [ask, ha, hresult]
        rw [hloop]
        exact .endsBy hr ht ha (.failed hresult)
      · obtain rfl := ChatEnd.result_ok hresult
        obtain ⟨delegations, hparsed⟩ : ∃ ds, parseDelegations response = some ds :=
          ⟨_, parseDelegations_eq response⟩
        rw [orchestrateLoop_response ha hparsed]
        split
        · rename_i hlast
          refine .endsBy hr ht ha (.answered ?_)
          rcases hlast with rfl | hlast
          · exact Or.inl hparsed
          · exact Or.inr (by omega)
        · rename_i hmore
          obtain ⟨hne, hmax⟩ := not_or.mp hmore
          set asked := askAll agents
            (t ++ [(.manager name message, some (.replied (.ok response)))])
            (delegations.map delegateChat) with hasked
          let round : Round :=
            { message := message
              response := response
              delegations := delegations
              answers := asked.1
              parsed := hparsed
              delegates := hne
              answered := (askAll_length ..).trans (List.length_map ..) }
          have hlog : asked.2 = t ++ round.exchanges name := by
            rw [hasked, askAll_transcript, List.append_assoc]
            rfl
          have hgenuine : Genuine agents asked.2 := by
            refine askAll_genuine ?_ _
            rw [← ha]
            exact ht.ask _
          refine Converses.round (show round.message = message from rfl) ?_
          rw [← hlog]
          exact ih (left - 1) (by omega) _ _ _ _ (by omega) hgenuine

end

/-- Every request is a conversation: at most as many rounds as it allows, and never more than
ten, each opened by what all the agents of the round before it answered, and each asking
every agent that the manager's response names once and in order. -/
theorem orchestrate_conversation (agents : Agents) (name : String) (body : OrchestrateRequest) :
    Converses agents name (min body.maxRounds 10) [] body.message 0 []
      (postOrchestrate agents name body) :=
  orchestrateLoop_converses (min body.maxRounds 10) [] body.message 0 [] (Nat.zero_add _).symm
    genuine_nil

/-! ## Accounts -/

def Chat.isManager : Chat → Bool
  | .manager .. => true
  | .delegate .. => false

/-- How often the manager has been asked. -/
def managerChats (t : ChatLog) : Nat := t.countP (·.1.isManager)

/-- The delegation of an exchange, if it succeeded. -/
def succeeded : Chat × Option ChatEnd → Option DelegationResult
  | (.manager .., _) => none
  | (.delegate agent message, answer) => delegationResult (agent, message) answer

/-- The reply tells what is on the transcript; it is an error only where the manager's last
answer is one. -/
def Tallies (name : String) (maxRounds : Nat) (t : ChatLog) : OrchestrateReply → Prop
  | .ok r => r.rounds = managerChats t ∧ r.delegations = t.filterMap succeeded ∧
      (∃ message, t.getLast? = some (.manager name message, some (.replied (.ok r.response)))) ∧
      (parseDelegations r.response = some [] ∨ r.rounds = maxRounds + 1)
  | .error status e => ∃ message answer, t.getLast? = some (.manager name message, answer) ∧
      ((answer = none ∧ status = 404 ∧ e = agentNotFound name) ∨
        ∃ chatEnd, answer = some chatEnd ∧ chatEnd.result name = .error e ∧ status = 500)
  | .aborted => False

theorem zip_delegate (ds : List (String × String)) : ∀ answers : List (Option ChatEnd),
    ((ds.map delegateChat).zip answers).filterMap succeeded =
      (List.zipWith delegationResult ds answers).filterMap id ∧
    ((ds.map delegateChat).zip answers).countP (·.1.isManager) = 0 := by
  induction ds with
  | nil => exact fun _ => ⟨rfl, rfl⟩
  | cons d ds ih =>
    intro answers
    cases answers with
    | nil => exact ⟨rfl, rfl⟩
    | cons answer answers =>
      obtain ⟨hresults, hcount⟩ := ih answers
      refine ⟨?_, hcount⟩
      rw [List.map_cons, List.zip_cons_cons, List.zipWith_cons_cons, List.filterMap_cons,
        List.filterMap_cons, hresults]
      rfl

section
variable (name : String) (rounds : List Round)

theorem filterMap_rounds :
    (rounds.flatMap (Round.exchanges name)).filterMap succeeded = rounds.flatMap Round.results := by
  rw [List.filterMap_flatMap]
  congr 1
  funext round
  exact (zip_delegate round.delegations round.answers).1

theorem managerChats_rounds :
    managerChats (rounds.flatMap (Round.exchanges name)) = rounds.length := by
  induction rounds with
  | nil => rfl
  | cons round rounds ih =>
    unfold managerChats at ih ⊢
    rw [List.flatMap_cons, List.countP_append, ih, List.length_cons, Round.exchanges,
      List.countP_cons, (zip_delegate _ _).2]
    exact Nat.add_comm 1 _

end

/-- Rounds and delegations are reported as they were, an agent's failure fails no request,
and the manager is asked eleven times at most. -/
theorem orchestrate_accounts (agents : Agents) (name : String) (body : OrchestrateRequest) :
    managerChats (postOrchestrate agents name body).2 ≤ min body.maxRounds 10 + 1 ∧
      Tallies name (min body.maxRounds 10) (postOrchestrate agents name body).2
        (postOrchestrate agents name body).1 := by
  obtain ⟨rs, answer, _, hle, hlog, _, hends⟩ := @orchestrateLoop_converses agents
    name (min body.maxRounds 10) (min body.maxRounds 10) [] body.message 0 []
    (Nat.zero_add _).symm genuine_nil
  have hcount : managerChats (postOrchestrate agents name body).2 = rs.length + 1 := by
    show managerChats (orchestrateLoop ..).2 = _
    rw [hlog, managerChats, List.nil_append, List.countP_append]
    exact congrArg (· + 1) (managerChats_rounds name rs)
  have hresults : (postOrchestrate agents name body).2.filterMap succeeded =
      rs.flatMap Round.results := by
    show (orchestrateLoop ..).2.filterMap succeeded = _
    rw [hlog, List.nil_append, List.filterMap_append, filterMap_rounds]
    exact List.append_nil _
  have hlast : (postOrchestrate agents name body).2.getLast? =
      some (.manager name (Round.closing body.message rs), answer) := by
    show (orchestrateLoop ..).2.getLast? = _
    rw [hlog, List.nil_append, List.getLast?_append]
    rfl
  refine ⟨by omega, ?_⟩
  rw [Nat.zero_add, List.nil_append] at hends
  generalize hreply : (postOrchestrate agents name body).1 = reply
  rw [show (orchestrateLoop agents name (min body.maxRounds 10) [] body.message 0 []).1 = reply
    from hreply] at hends
  cases hends with
  | missing => exact ⟨_, _, hlast, Or.inl ⟨rfl, rfl, rfl⟩⟩
  | failed h => exact ⟨_, _, hlast, Or.inr ⟨_, rfl, h, rfl⟩⟩
  | answered h =>
    refine ⟨hcount.symm, hresults.symm, ⟨_, hlast⟩, h.imp_right ?_⟩
    intro hmax
    exact congrArg (· + 1) hmax

end ZeptoPM
