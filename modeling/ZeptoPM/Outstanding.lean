import ZeptoPM.Responses

/- Jobs and channel messages that a bridge has written to its worker. Nothing but a
   line of the worker makes the bridge send an event (`emits_iff`), and it leaves its
   loop without another one. So what it has written is settled exactly if the worker
   itself settles it while the bridge still listens: `settled_iff`. -/
namespace ZeptoPM.Bridge

/-- The event is an outcome of the job. -/
def EndsJob (jobId : String) (event : Json) : Prop :=
  (event.strOr "type" "" = "job_completed" ∨ event.strOr "type" "" = "job_failed") ∧
    event.strOr "job_id" "" = jobId

/-- The event is a failure of the job. -/
def FailsJob (jobId : String) (event : Json) : Prop :=
  event.strOr "type" "" = "job_failed" ∧ event.strOr "job_id" "" = jobId

/-- The bridge takes the input and sends the event. -/
def Emits (b : Bridge) (i : BridgeInput) (event : Json) : Prop :=
  (b.step i).events = b.events ++ [event]

/-- The event is sent while the inputs are taken. -/
def Emitted (b : Bridge) (is : List BridgeInput) (event : Json) : Prop :=
  ∃ mid i rest, is = mid ++ i :: rest ∧ Emits (run step b mid) i event

/-! ## What is claimed of a request -/

/-- A request that the bridge has written is settled by what it sends: by an outcome of
its job, by an event made of a response to the message, or by a failure of the bridge's
own job `jobId`. -/
def Settled (jobId : JobId) (c : Bridge) (cmd : BridgeInput) (post : List BridgeInput) : Prop :=
  match cmd with
  | .jobExecute job _ _ _ true =>
    ∃ event, Emitted (c.step cmd) post event ∧ (EndsJob job event ∨ FailsJob jobId event)
  | .channelMessage channelId _ true =>
    (∃ mid i rest reply, post = mid ++ i :: rest ∧
      answers (reqId (u64Succ c.reqCounter)) i = some reply ∧
      Emits (run step (c.step cmd) mid) i (channelEvent channelId jobId reply)) ∨
    ∃ event, Emitted (c.step cmd) post event ∧ FailsJob jobId event
  | _ => True

/-- Every request that the loop writes in the run is settled. -/
def AllSettled (jobId : JobId) (b₀ : Bridge) (is : List BridgeInput) : Prop :=
  ∀ pre cmd post, is = pre ++ cmd :: post → (run step b₀ pre).phase = .looping →
    Settled jobId (run step b₀ pre) cmd post

/-! ## What the worker says -/

/-- The id is that of a message of the channel that has not been answered. -/
def Expects (b : Bridge) (id : String) (channelId : ChannelId) : Prop :=
  b.pending.get id = none ∧ b.pendingChannel.get id = some channelId

/-- The line reports a failure of the bridge's own job: in so many words, or as an error
in response to a message of some channel. -/
def ReportsFailure (jobId : JobId) (b : Bridge) (msg : Json) : Prop :=
  FailsJob jobId msg ∨ ∃ id channelId error, answers id (.output msg) = some (.error error) ∧
    Expects b id channelId

/-- The line settles the request `cmd`, which took the id. -/
def SettlesRequest (jobId : JobId) (id : String) (cmd : BridgeInput) (b : Bridge) (msg : Json) :
    Prop :=
  (match cmd with
    | .jobExecute job _ _ _ _ => EndsJob job msg
    | .channelMessage channelId _ _ =>
      (∃ reply, answers id (.output msg) = some reply) ∧ Expects b id channelId
    | _ => False) ∨
  ReportsFailure jobId b msg

/-- A line of the worker settles the request before the bridge leaves its loop. -/
def WorkerSettles (jobId : JobId) (c : Bridge) (cmd : BridgeInput) (post : List BridgeInput) : Prop :=
  ∃ mid msg rest, post = mid ++ .output msg :: rest ∧
    (run step (c.step cmd) mid).phase = .looping ∧
    SettlesRequest jobId (reqId (u64Succ c.reqCounter)) cmd (run step (c.step cmd) mid) msg

/-- The bridge writes a job or a message of a channel. -/
def writesRequest : BridgeInput → Bool
  | .jobExecute _ _ _ _ written => written
  | .channelMessage _ _ written => written
  | _ => false

/-- The worker settles every request that the loop writes in the run. -/
def WorkerSettlesAll (jobId : JobId) (b₀ : Bridge) (is : List BridgeInput) : Prop :=
  ∀ pre cmd post, is = pre ++ cmd :: post → (run step b₀ pre).phase = .looping →
    writesRequest cmd = true → WorkerSettles jobId (run step b₀ pre) cmd post

section
variable {b : Bridge} {jobId : JobId} {event msg : Json} {i : BridgeInput}

/-! ## What a step sends -/

/-- The types of message that are passed on. -/
def passedOn (type : String) : Bool :=
  type = "heartbeat" ∨ type = "progress" ∨ type = "artifact_produced" ∨ type = "job_completed" ∨
    type = "job_failed"

theorem events_passedOn (htx : b.orchTx = true) (htype : passedOn (msg.strOr "type" "") = true) :
    (b.handleOutput msg).events = b.events ++ [msg] := by
  have hforward : ∀ b₁ : Bridge, b₁.orchTx = true → b₁.events = b.events →
      (b₁.forward msg).events = b.events ++ [msg] := by
    intro b₁ htx₁ hevents
    unfold forward
    rw [if_pos htx₁, hevents]
  unfold passedOn at htype
  rw [decide_eq_true_iff] at htype
  unfold handleOutput
  rcases htype with h | h | h | h | h
  all_goals simp only [h]
  all_goals exact hforward _ htx rfl

theorem events_expected (hl : b.phase = .looping) (htx : b.orchTx = true)
    (hjob : b.orchJobId = some jobId) {id : String} {channelId : ChannelId}
    {reply : Except String String} (hans : answers id (.output msg) = some reply)
    (hexp : Expects b id channelId) :
    (b.step (.output msg)).events = b.events ++ [channelEvent channelId jobId reply] :=
  (channel_forwarded hl hexp.1 hexp.2 hans).2 jobId htx hjob

/-- A line leads to itself as an event, to one for a channel's response, or to none. -/
theorem events_output (hl : b.phase = .looping) (msg : Json) :
    passedOn (msg.strOr "type" "") = true ∨
      (∃ id channelId reply, answers id (.output msg) = some reply ∧ Expects b id channelId) ∨
      (b.step (.output msg)).events = b.events := by
  rw [step_looping hl]
  show _ ∨ _ ∨ (b.handleOutput msg).events = b.events
  unfold handleOutput
  split
  · rename_i htype
    right
    unfold chatResponse
    dsimp only
    cases hp : b.pending.get (msg.strOr "id" "") with
    | some sender => exact Or.inr rfl
    | none =>
      cases hc : b.pendingChannel.get (msg.strOr "id" "") with
      | some channelId =>
        exact Or.inl ⟨msg.strOr "id" "", channelId, replyOf msg,
          by rw [answers_output, if_pos ⟨htype, rfl⟩], hp, hc⟩
      | none => exact Or.inr rfl
  · right
    right
    unfold statusMessage
    dsimp only
    split <;> rfl
  · exact Or.inr (Or.inr rfl)
  all_goals first
    | exact Or.inr (Or.inr rfl)
    | (rename_i htype; left; rw [htype]; decide)

/-- An event is sent exactly if the loop takes a line that is passed on, or the response to
a message of a channel. -/
theorem emits_iff (htx : b.orchTx = true) (hjob : b.orchJobId = some jobId) :
    Emits b i event ↔ b.phase = .looping ∧ ∃ msg, i = .output msg ∧
      ((passedOn (msg.strOr "type" "") = true ∧ event = msg) ∨
        ∃ id channelId reply, answers id (.output msg) = some reply ∧ Expects b id channelId ∧
          event = channelEvent channelId jobId reply) := by
  unfold Emits
  refine ⟨?_, ?_⟩
  · intro h
    by_cases hout : ∀ msg, b.phase = .looping → i ≠ .output msg
    · rw [events_step hout] at h
      exact absurd h (by simp)
    · simp only [not_forall, not_not] at hout
      obtain ⟨msg, hl, rfl⟩ := hout
      refine ⟨hl, msg, rfl, ?_⟩
      rcases events_output hl msg with hpass | ⟨id, channelId, reply, hans, hexp⟩ | hsame
      · rw [step_looping hl] at h
        have hmsg := (events_passedOn htx hpass).symm.trans h
        exact Or.inl ⟨hpass, by simpa using hmsg.symm⟩
      · have hsent := (events_expected hl htx hjob hans hexp).symm.trans h
        exact Or.inr ⟨id, channelId, reply, hans, hexp, by simpa using hsent.symm⟩
      · rw [hsame] at h
        exact absurd h (by simp)
  · intro h
    obtain ⟨hl, msg, rfl, h⟩ := h
    rcases h with ⟨hpass, rfl⟩ | ⟨id, channelId, reply, hans, hexp, rfl⟩
    · rw [step_looping hl]
      exact events_passedOn htx hpass
    · exact events_expected hl htx hjob hans hexp

theorem channelEvent_error (channelId jobId error : String) :
    FailsJob jobId (channelEvent channelId jobId (.error error)) := ⟨rfl, rfl⟩

theorem channelEvent_type (channelId jobId response : String) :
    (channelEvent channelId jobId (.ok response)).strOr "type" "" = "channel_message" := rfl

/-- A failure of the bridge's own job is sent exactly if a line reports one. -/
theorem emits_failsJob_iff (htx : b.orchTx = true) (hjob : b.orchJobId = some jobId) :
    (∃ event, Emits b i event ∧ FailsJob jobId event) ↔
      b.phase = .looping ∧ ∃ msg, i = .output msg ∧ ReportsFailure jobId b msg := by
  refine ⟨?_, ?_⟩
  · intro h
    obtain ⟨event, hemits, hfails⟩ := h
    obtain ⟨hl, msg, rfl, h⟩ := (emits_iff htx hjob).mp hemits
    refine ⟨hl, msg, rfl, ?_⟩
    rcases h with ⟨_, rfl⟩ | ⟨id, channelId, reply, hans, hexp, rfl⟩
    · exact Or.inl hfails
    · cases reply with
      | error error => exact Or.inr ⟨id, channelId, error, hans, hexp⟩
      | ok response =>
        have htype := (channelEvent_type channelId jobId response).symm.trans hfails.1
        exact absurd htype (by decide)
  · intro h
    obtain ⟨hl, msg, rfl, h⟩ := h
    rcases h with hfails | ⟨id, channelId, error, hans, hexp⟩
    · refine ⟨msg, (emits_iff htx hjob).mpr ⟨hl, msg, rfl, Or.inl ⟨?_, rfl⟩⟩, hfails⟩
      rw [hfails.1]
      decide
    · exact ⟨_, (emits_iff htx hjob).mpr ⟨hl, msg, rfl, Or.inr ⟨id, channelId, _, hans, hexp, rfl⟩⟩,
        channelEvent_error ..⟩

/-- An outcome of a job is sent exactly if the worker reports it, or a failure of the
bridge's own job where that is the job. -/
theorem emits_endsJob_iff (htx : b.orchTx = true) (hjob : b.orchJobId = some jobId) (job : JobId) :
    (∃ event, Emits b i event ∧ (EndsJob job event ∨ FailsJob jobId event)) ↔
      b.phase = .looping ∧ ∃ msg, i = .output msg ∧ (EndsJob job msg ∨ ReportsFailure jobId b msg) := by
  refine ⟨?_, ?_⟩
  · intro h
    obtain ⟨event, hemits, hends | hfails⟩ := h
    · obtain ⟨hl, msg, rfl, h⟩ := (emits_iff htx hjob).mp hemits
      refine ⟨hl, msg, rfl, ?_⟩
      rcases h with ⟨_, rfl⟩ | ⟨id, channelId, reply, hans, hexp, rfl⟩
      · exact Or.inl hends
      · cases reply with
        | error error => exact Or.inr (Or.inr ⟨id, channelId, error, hans, hexp⟩)
        | ok response =>
          have htype := channelEvent_type channelId jobId response
          rcases hends.1 with h | h
          · exact absurd (htype.symm.trans h) (by decide)
          · exact absurd (htype.symm.trans h) (by decide)
    · obtain ⟨hl, msg, hi, hreports⟩ := (emits_failsJob_iff htx hjob).mp ⟨event, hemits, hfails⟩
      exact ⟨hl, msg, hi, Or.inr hreports⟩
  · intro h
    obtain ⟨hl, msg, rfl, hends | hreports⟩ := h
    · refine ⟨msg, (emits_iff htx hjob).mpr ⟨hl, msg, rfl, Or.inl ⟨?_, rfl⟩⟩, Or.inl hends⟩
      rcases hends.1 with h | h <;> rw [h] <;> decide
    · obtain ⟨event, hemits, hfails⟩ := (emits_failsJob_iff htx hjob).mpr ⟨hl, msg, rfl, hreports⟩
      exact ⟨event, hemits, Or.inr hfails⟩

/-! ## Whole runs -/

variable {c : Bridge} {cmd : BridgeInput} {post : List BridgeInput}

/-- The bridge's job and its channel to the orchestrator are those it has been given. -/
theorem run_orch (htx : c.orchTx = true) (hjob : c.orchJobId = some jobId)
    (is : List BridgeInput) :
    (run step c is).orchTx = true ∧ (run step c is).orchJobId = some jobId :=
  ⟨(grows_run c is).orchTx.trans htx, (grows_run c is).orchJobId.trans hjob⟩

theorem step_orch (htx : c.orchTx = true) (hjob : c.orchJobId = some jobId) (i : BridgeInput) :
    (c.step i).orchTx = true ∧ (c.step i).orchJobId = some jobId :=
  ⟨(grows_step c i).orchTx.trans htx, (grows_step c i).orchJobId.trans hjob⟩

theorem mem_events_of_emitted (h : Emitted c post event) : event ∈ (run step c post).events := by
  obtain ⟨mid, i, rest, rfl, hemits⟩ := h
  rw [run_append, run_cons]
  refine (grows_run _ rest).events.subset ?_
  rw [hemits]
  exact List.mem_append_right _ (List.mem_singleton_self event)

/-- What some step of a run emits, in terms of the line it takes. -/
theorem emitted_iff {P : Json → Prop} {Q : Bridge → Json → Prop} (post : List BridgeInput)
    (htx : c.orchTx = true) (hjob : c.orchJobId = some jobId)
    (h : ∀ (b : Bridge) i, b.orchTx = true → b.orchJobId = some jobId →
      ((∃ event, Emits b i event ∧ P event) ↔
        b.phase = .looping ∧ ∃ msg, i = .output msg ∧ Q b msg)) :
    (∃ event, Emitted c post event ∧ P event) ↔
      ∃ mid msg rest, post = mid ++ .output msg :: rest ∧
        (run step c mid).phase = .looping ∧ Q (run step c mid) msg := by
  refine ⟨?_, ?_⟩
  · intro hex
    obtain ⟨event, ⟨mid, i, rest, hpost, hemits⟩, hevent⟩ := hex
    obtain ⟨htx', hjob'⟩ := run_orch htx hjob mid
    obtain ⟨hl, msg, rfl, hq⟩ := (h _ i htx' hjob').mp ⟨event, hemits, hevent⟩
    exact ⟨mid, msg, rest, hpost, hl, hq⟩
  · intro hex
    obtain ⟨mid, msg, rest, hpost, hl, hq⟩ := hex
    obtain ⟨htx', hjob'⟩ := run_orch htx hjob mid
    obtain ⟨event, hemits, hevent⟩ := (h _ _ htx' hjob').mpr ⟨hl, msg, rfl, hq⟩
    exact ⟨event, ⟨mid, _, rest, hpost, hemits⟩, hevent⟩

theorem settled_jobExecute_iff (htx : c.orchTx = true) (hjob : c.orchJobId = some jobId)
    (job instruction workspace : String) (inputArtifacts : List String) :
    Settled jobId c (.jobExecute job instruction workspace inputArtifacts true) post ↔
      WorkerSettles jobId c (.jobExecute job instruction workspace inputArtifacts true) post := by
  obtain ⟨htx', hjob'⟩ := step_orch htx hjob (.jobExecute job instruction workspace inputArtifacts true)
  exact emitted_iff post htx' hjob' (fun b i hb hb' => emits_endsJob_iff hb hb' job)

theorem answers_id {id id' : String} {reply reply' : Except String String}
    (h : answers id (.output msg) = some reply) (h' : answers id' (.output msg) = some reply') :
    id' = id ∧ reply' = reply ∧ passedOn (msg.strOr "type" "") = false := by
  rw [answers_output] at h h'
  split at h
  · rename_i hmsg
    split at h'
    · rename_i hmsg'
      cases h
      cases h'
      exact ⟨hmsg'.2.symm.trans hmsg.2, rfl, by rw [hmsg.1]; decide⟩
    · cases h'
  · cases h

/-- The response to a message of a channel is sent on exactly if the bridge expects it, or
it is an error that another channel's message is thought to have met. -/
theorem emits_response (htx : b.orchTx = true) (hjob : b.orchJobId = some jobId) {id : String}
    {channelId : ChannelId} {reply : Except String String}
    (hans : answers id i = some reply) (hemits : Emits b i (channelEvent channelId jobId reply)) :
    b.phase = .looping ∧ ∃ msg, i = .output msg ∧
      (Expects b id channelId ∨ ReportsFailure jobId b msg) := by
  obtain ⟨hl, msg, rfl, hcases⟩ := (emits_iff htx hjob).mp hemits
  refine ⟨hl, msg, rfl, ?_⟩
  rcases hcases with ⟨hpass, _⟩ | ⟨id', channelId', reply', hans', hexp, hevent⟩
  · obtain ⟨_, _, hno⟩ := answers_id hans hans
    rw [hpass] at hno
    cases hno
  · obtain ⟨rfl, rfl, _⟩ := answers_id hans hans'
    cases reply' with
    | error error => exact Or.inr (Or.inr ⟨id', channelId', error, hans', hexp⟩)
    | ok response =>
      have hch := congrArg (Json.strOr · "channel_id" "") hevent
      exact Or.inl ((show channelId = channelId' from hch) ▸ hexp)

theorem settled_channelMessage_iff (htx : c.orchTx = true) (hjob : c.orchJobId = some jobId)
    (channelId message : String) :
    Settled jobId c (.channelMessage channelId message true) post ↔
      WorkerSettles jobId c (.channelMessage channelId message true) post := by
  obtain ⟨htx', hjob'⟩ := step_orch htx hjob (.channelMessage channelId message true)
  have hfails := emitted_iff (P := FailsJob jobId) (Q := ReportsFailure jobId) post htx' hjob'
    (fun b i hb hb' => emits_failsJob_iff hb hb')
  refine ⟨?_, ?_⟩
  · intro h
    rcases h with ⟨mid, i, rest, reply, hpost, hans, hemits⟩ | h
    · obtain ⟨htx'', hjob''⟩ := run_orch htx' hjob' mid
      obtain ⟨hl, msg, rfl, hexp⟩ := emits_response htx'' hjob'' hans hemits
      exact ⟨mid, msg, rest, hpost, hl, hexp.imp_left (fun he => ⟨⟨reply, hans⟩, he⟩)⟩
    · obtain ⟨mid, msg, rest, hpost, hl, hreports⟩ := hfails.mp h
      exact ⟨mid, msg, rest, hpost, hl, Or.inr hreports⟩
  · intro h
    obtain ⟨mid, msg, rest, hpost, hl, ⟨⟨reply, hans⟩, hexp⟩ | hreports⟩ := h
    · obtain ⟨htx'', hjob''⟩ := run_orch htx' hjob' mid
      exact Or.inl ⟨mid, _, rest, reply, hpost, hans,
        (emits_iff htx'' hjob'').mpr ⟨hl, msg, rfl, Or.inr ⟨_, channelId, reply, hans, hexp, rfl⟩⟩⟩
    · exact Or.inr (hfails.mpr ⟨mid, msg, rest, hpost, hl, hreports⟩)

theorem settled_request_iff (htx : c.orchTx = true) (hjob : c.orchJobId = some jobId) :
    Settled jobId c cmd post ↔ (writesRequest cmd = true → WorkerSettles jobId c cmd post) := by
  cases cmd with
  | jobExecute job instruction workspace inputArtifacts written =>
    cases written with
    | true =>
      rw [settled_jobExecute_iff htx hjob]
      exact ⟨fun h _ => h, fun h => h rfl⟩
    | false => exact ⟨fun _ h => (by cases h), fun _ => True.intro⟩
  | channelMessage channelId message written =>
    cases written with
    | true =>
      rw [settled_channelMessage_iff htx hjob]
      exact ⟨fun h _ => h, fun h => h rfl⟩
    | false => exact ⟨fun _ h => (by cases h), fun _ => True.intro⟩
  | _ => exact ⟨fun _ h => (by cases h), fun _ => True.intro⟩

end

/-- In every run of a bridge that was started for a job, with a channel to the
orchestrator, what has been written is settled exactly if the worker settles it while
the bridge still listens. -/
theorem settled_iff (agentName : String) (jobId : JobId) (start : BridgeStart)
    (is : List BridgeInput) :
    AllSettled jobId (workerBridge agentName true (some jobId) start) is ↔
      WorkerSettlesAll jobId (workerBridge agentName true (some jobId) start) is := by
  have hstart : (workerBridge agentName true (some jobId) start).orchTx = true ∧
      (workerBridge agentName true (some jobId) start).orchJobId = some jobId := by
    cases start <;> exact ⟨rfl, rfl⟩
  refine forall₃_congr fun pre cmd post => ?_
  refine forall₂_congr fun _ _ => ?_
  obtain ⟨htx, hjob⟩ := run_orch hstart.1 hstart.2 pre
  exact settled_request_iff htx hjob

/-- The worker dies with the job in its hands, and the bridge says nothing. -/
theorem not_settled_exit :
    let b₀ := workerBridge "coder" true (some "job_1") (.spawned (some 7))
    let is : List BridgeInput :=
      [.jobExecute "job_1" "write" "/tmp/run/job" [] true, .endOfOutput,
        .childExit (some (some "signal: 9"))]
    (run step b₀ is).phase = .ended ∧ ¬ AllSettled "job_1" b₀ is := by
  intro b₀ is
  refine ⟨by decide, fun h => ?_⟩
  obtain ⟨event, hemitted, _⟩ := h [] _ _ rfl rfl
  exact List.not_mem_nil (mem_events_of_emitted hemitted)

end ZeptoPM.Bridge
