import ZeptoPM.Replies

/- Responses to channel messages. They go by the same counter as the replies to
   senders, in a table of their own, and the two tables never hold the same id
   unless the counter has gone round (`Numbered`). A response that carries the id of
   a channel message is forwarded under the channel of that message
   (`channel_forwarded`), and every channel message that the bridge sends to the
   orchestrator has come about like that (`ChannelOrigin`). `bridge_answers` puts
   senders and channels together. -/
namespace ZeptoPM.Bridge

section
variable {b b' : Bridge} {id : String} {n : Nat} {channelId : ChannelId}

/-! ## The two tables -/

/-- Nothing is added to the tables. -/
structure Shrinks (b b' : Bridge) : Prop where
  pending : ∀ id n, b'.pending.get id = some n → b.pending.get id = some n
  channel : ∀ id ch, b'.pendingChannel.get id = some ch → b.pendingChannel.get id = some ch

theorem Shrinks.of_eq (hp : b'.pending = b.pending) (hc : b'.pendingChannel = b.pendingChannel) :
    Shrinks b b' :=
  ⟨fun _ _ h => hp ▸ h, fun _ _ h => hc ▸ h⟩

theorem Shrinks.trans {b'' : Bridge} (h : Shrinks b b') (h' : Shrinks b' b'') : Shrinks b b'' :=
  ⟨fun id n hn => h.pending id n (h'.pending id n hn),
    fun id ch hc => h.channel id ch (h'.channel id ch hc)⟩

theorem piecewise_shrinks : Piecewise Shrinks where
  refl := fun _ => .of_eq rfl rfl
  trans := .trans
  update := fun _ _ _ _ => .of_eq rfl rfl
  emit := fun _ _ => .of_eq rfl rfl
  leave := fun _ => ⟨fun _ _ h => (by cases h), fun _ _ h => h⟩
  tell := fun _ _ => .of_eq rfl rfl
  answer := fun _ _ _ _ _ => ⟨fun _ _ h => (HashMap.get_of_get_remove h).2, fun _ _ h => h⟩
  forget := fun _ _ => ⟨fun _ _ h => h, fun _ _ h => (HashMap.get_of_get_remove h).2⟩
  drop := fun _ _ => .of_eq rfl rfl
  finish := fun _ _ => .of_eq rfl rfl

theorem hold_pending (b : Bridge) (id' : String) :
    (b.hold id').pending = b.pending.insert id' b.received := rfl

theorem hold_pendingChannel (b : Bridge) (id' : String) :
    (b.hold id').pendingChannel = b.pendingChannel := by
  unfold hold
  dsimp only
  split <;> rfl

/-- What is pending after a step was so before, or is the message just taken. -/
theorem step_pending {i : BridgeInput} (h : (b.step i).pending.get id = some n) :
    b.pending.get id = some n ∨
      b.phase = .looping ∧ id = reqId (u64Succ b.reqCounter) ∧
        ∃ message written, i = .userMessage message true written := by
  by_cases htakes : b.phase = .looping ∧ takesId i = true
  · rw [step_looping htakes.1] at h
    cases i with
    | userMessage message reply written =>
      cases reply with
      | false => exact Or.inl ((piecewise_shrinks.write b.nextId ..).pending id n h)
      | true =>
        have hheld :=
          (piecewise_shrinks.write (b.nextId.hold (reqId b.nextId.reqCounter)) ..).pending id n h
        rw [hold_pending, HashMap.get_insert] at hheld
        split at hheld
        · rename_i hid
          exact Or.inr ⟨htakes.1, hid, message, written, rfl⟩
        · exact Or.inl hheld
    | channelMessage ch message written =>
      exact Or.inl ((piecewise_shrinks.write { b.nextId with
        pendingChannel := b.nextId.pendingChannel.insert (reqId b.nextId.reqCounter) ch } ..).pending
          id n h)
    | _ => cases htakes.2
  · exact Or.inl ((piecewise_shrinks.step htakes).pending id n h)

theorem step_channel {i : BridgeInput} (h : (b.step i).pendingChannel.get id = some channelId) :
    (b.pendingChannel.get id = some channelId ∧
        ∀ ch message written, i = .channelMessage ch message written → b.phase = .looping →
          id ≠ reqId (u64Succ b.reqCounter)) ∨
      b.phase = .looping ∧ id = reqId (u64Succ b.reqCounter) ∧
        ∃ message written, i = .channelMessage channelId message written := by
  by_cases htakes : b.phase = .looping ∧ takesId i = true
  · rw [step_looping htakes.1] at h
    cases i with
    | userMessage message reply written =>
      have hold : b.pendingChannel.get id = some channelId := by
        have hheld := (piecewise_shrinks.write ..).channel id channelId h
        cases reply with
        | false => exact hheld
        | true =>
          rw [if_pos rfl, hold_pendingChannel] at hheld
          exact hheld
      exact Or.inl ⟨hold, fun _ _ _ hi => by cases hi⟩
    | channelMessage ch message written =>
      have hins : (b.pendingChannel.insert (reqId (u64Succ b.reqCounter)) ch).get id =
          some channelId := (piecewise_shrinks.write ..).channel id channelId h
      rw [HashMap.get_insert] at hins
      split at hins
      · rename_i hid
        cases hins
        exact Or.inr ⟨htakes.1, hid, message, written, rfl⟩
      · rename_i hid
        exact Or.inl ⟨hins, fun _ _ _ _ _ => hid⟩
    | _ => cases htakes.2
  · refine Or.inl ⟨(piecewise_shrinks.step htakes).channel id channelId h, ?_⟩
    intro ch message written hi hl
    exact absurd ⟨hl, by rw [hi]; rfl⟩ htakes

/-- The ids in the tables have been issued, and none is in both. -/
structure Numbered (b : Bridge) : Prop where
  pending : ∀ id n, b.pending.get id = some n → ∃ k, k ≤ b.reqCounter ∧ id = reqId k
  channel : ∀ id ch, b.pendingChannel.get id = some ch → ∃ k, k ≤ b.reqCounter ∧ id = reqId k
  apart : ∀ id ch, b.pendingChannel.get id = some ch → b.pending.get id = none

theorem numbered_step (hb : Numbered b) {i : BridgeInput}
    (hround : b.phase = .looping → takesId i = true → b.reqCounter + 1 < 2 ^ 64) :
    Numbered (b.step i) := by
  have hle : b.reqCounter ≤ (b.step i).reqCounter := by
    rw [step_reqCounter]
    split
    · rename_i h
      rw [u64Succ, Nat.mod_eq_of_lt (hround h.1 h.2)]
      exact Nat.le_succ _
    · exact Nat.le_refl _
  have hnew : b.phase = .looping → takesId i = true →
      u64Succ b.reqCounter = b.reqCounter + 1 ∧ (b.step i).reqCounter = u64Succ b.reqCounter := by
    intro hl htakes
    exact ⟨Nat.mod_eq_of_lt (hround hl htakes), by rw [step_reqCounter, if_pos ⟨hl, htakes⟩]⟩
  -- an id that is issued now is none of those issued before
  have hfresh : ∀ k, k ≤ b.reqCounter → b.phase = .looping → takesId i = true →
      reqId k ≠ reqId (u64Succ b.reqCounter) := by
    intro k hk hl htakes hid
    have heq := reqId_injective hid
    have := (hnew hl htakes).1
    omega
  refine ⟨?_, ?_, ?_⟩
  · intro id n h
    rcases step_pending h with hold | ⟨hl, hid, message, written, rfl⟩
    · obtain ⟨k, hk, hid⟩ := hb.pending id n hold
      exact ⟨k, hk.trans hle, hid⟩
    · exact ⟨_, ((hnew hl rfl).2).ge, hid⟩
  · intro id ch h
    rcases step_channel h with ⟨hold, _⟩ | ⟨hl, hid, message, written, rfl⟩
    · obtain ⟨k, hk, hid⟩ := hb.channel id ch hold
      exact ⟨k, hk.trans hle, hid⟩
    · exact ⟨_, ((hnew hl rfl).2).ge, hid⟩
  · intro id ch h
    by_contra hsome
    obtain ⟨n, hn⟩ := Option.ne_none_iff_exists'.mp hsome
    rcases step_channel h with ⟨hold, _⟩ | ⟨hl, hid, message, written, rfl⟩
    · rcases step_pending hn with hpold | ⟨hl, hid, message, written, rfl⟩
      · rw [hb.apart id ch hold] at hpold
        cases hpold
      · obtain ⟨k, hk, hkid⟩ := hb.channel id ch hold
        exact hfresh k hk hl rfl (hkid ▸ hid)
    · rcases step_pending hn with hpold | ⟨_, _, _, _, hi⟩
      · obtain ⟨k, hk, hkid⟩ := hb.pending id n hpold
        exact hfresh k hk hl rfl (hkid ▸ hid)
      · cases hi

/-! ## Forwarding -/

/-- The response of a channel message takes it off the table, and is forwarded. -/
theorem channel_forwarded {msg : Json} {reply : Except String String}
    (hl : b.phase = .looping) (hp : b.pending.get id = none)
    (hc : b.pendingChannel.get id = some channelId)
    (hans : answers id (.output msg) = some reply) :
    (b.step (.output msg)).pendingChannel.get id = none ∧
      ∀ jobId, b.orchTx = true → b.orchJobId = some jobId →
        (b.step (.output msg)).events = b.events ++ [channelEvent channelId jobId reply] := by
  rw [answers_output] at hans
  split at hans
  · rename_i hmsg
    obtain ⟨htype, hid⟩ := hmsg
    cases hans
    have hstep : b.step (.output msg) =
        ({ b with pendingChannel := b.pendingChannel.remove id } : Bridge).channelResponse channelId
          (replyOf msg) := by
      rw [step_looping hl]
      show b.handleOutput msg = _
      unfold handleOutput
      simp only [htype]
      unfold chatResponse
      dsimp only
      rw [hid, hp, hc]
    have hremoved : (b.pendingChannel.remove id).get id = none :=
      (HashMap.get_remove ..).trans (if_pos rfl)
    rw [hstep]
    refine ⟨?_, ?_⟩
    · cases hget : (({ b with pendingChannel := b.pendingChannel.remove id } :
          Bridge).channelResponse channelId (replyOf msg)).pendingChannel.get id with
      | none => rfl
      | some ch =>
        have hkept := (piecewise_shrinks.channelResponse _ channelId (replyOf msg)).channel id ch hget
        rw [show _ = _ from hremoved] at hkept
        cases hkept
    · intro jobId htx hjob
      unfold channelResponse forward
      dsimp only
      rw [hjob]
      dsimp only
      rw [if_pos htx]
  · cases hans

theorem events_write (b : Bridge) (line : Json) (written : Bool) :
    (b.write line written).events = b.events := by
  unfold write
  split <;> rfl

theorem events_hold (b : Bridge) (id : String) : (b.hold id).events = b.events := by
  unfold hold
  dsimp only
  split <;> rfl

theorem events_refuse (b : Bridge) (i : BridgeInput) : (b.refuse i).events = b.events := by
  unfold refuse
  split <;> rfl

theorem events_writeStop (b : Bridge) (written : Bool) :
    (b.writeStop written).events = b.events := by
  unfold writeStop
  split <;> rfl

theorem events_exit (b : Bridge) (failure : Option (Option String)) :
    (b.exit failure).events = b.events := by
  unfold exit
  split <;> rfl

theorem mem_events_forward {event e : Json} (h : event ∈ (b.forward e).events) :
    event ∈ b.events ∨ event = e := by
  unfold forward at h
  split at h
  · rcases List.mem_append.mp h with h | h
    · exact Or.inl h
    · exact Or.inr (List.mem_singleton.mp h)
  · exact Or.inl h

/-- Only what the worker says leads to events. -/
theorem events_step {i : BridgeInput} (h : ∀ msg, b.phase = .looping → i ≠ .output msg) :
    (b.step i).events = b.events := by
  cases hl : b.phase with
  | waiting =>
    rw [step_waiting hl]
    unfold waitStep
    split
    · exact events_exit ..
    · exact events_refuse ..
  | ended =>
    rw [step_ended hl]
    exact events_refuse ..
  | looping =>
    rw [step_looping hl]
    cases i with
    | userMessage message reply written =>
      cases reply with
      | false => exact events_write b.nextId ..
      | true => exact (events_write ..).trans (events_hold b.nextId _)
    | channelMessage ch message written => exact events_write ..
    | jobExecute jobId instruction workspace inputArtifacts written => exact events_write ..
    | stop written => exact events_writeStop ..
    | closed => rfl
    | output msg => exact absurd rfl (h msg hl)
    | endOfOutput => rfl
    | childExit failure => rfl

/-- The event is the response to a message of a channel. -/
def RespondsTo (b : Bridge) (msg event : Json) : Prop :=
  ∃ channelId jobId, msg.strOr "type" "" = "chat_response" ∧
    b.pending.get (msg.strOr "id" "") = none ∧
    b.pendingChannel.get (msg.strOr "id" "") = some channelId ∧ b.orchJobId = some jobId ∧
    event = channelEvent channelId jobId (replyOf msg)

/-- What the worker says leads to no event but the message itself, or the response to a
message of a channel. -/
theorem events_handleOutput {msg event : Json} (h : event ∈ (b.handleOutput msg).events) :
    event ∈ b.events ∨ (event = msg ∧ event.strOr "type" "" ≠ "channel_message") ∨
      RespondsTo b msg event := by
  have hmsg : ∀ t, msg.strOr "type" "" = t → t ≠ "channel_message" →
      event ∈ b.events ∨ event = msg →
      event ∈ b.events ∨ (event = msg ∧ event.strOr "type" "" ≠ "channel_message") ∨
        RespondsTo b msg event := by
    intro t ht hne h
    rcases h with h | h
    · exact Or.inl h
    · exact Or.inr (Or.inl ⟨h, by rw [h, ht]; exact hne⟩)
  unfold handleOutput at h
  split at h
  · rename_i htype
    unfold chatResponse at h
    dsimp only at h
    split at h
    · exact Or.inl h
    · rename_i hp
      split at h
      · rename_i channelId hc
        unfold channelResponse at h
        dsimp only at h
        split at h
        · exact Or.inl h
        · rename_i jobId hjob
          rcases mem_events_forward h with h | h
          · exact Or.inl h
          · exact Or.inr (Or.inr ⟨channelId, jobId, htype, hp, hc, hjob, h⟩)
      · exact Or.inl h
  · unfold statusMessage at h
    dsimp only at h
    left
    split at h <;> exact h
  · exact Or.inl h
  · rename_i htype
    exact hmsg _ htype (by decide) (mem_events_forward h)
  · rename_i htype
    exact hmsg _ htype (by decide) (mem_events_forward h)
  · rename_i htype
    exact hmsg _ htype (by decide) (mem_events_forward (b := b.update .idle none) h)
  · rename_i htype
    exact hmsg _ htype (by decide) (mem_events_forward (b := b.update .idle none) h)
  · rename_i htype
    exact hmsg _ htype (by decide) (mem_events_forward (b := b.update .idle none) h)
  · exact Or.inl h

end

/-! ## Whole runs -/

section
variable {b : Bridge} {id : String} {channelId : ChannelId}

theorem pendingChannel_write (b : Bridge) (line : Json) (written : Bool) :
    (b.write line written).pendingChannel = b.pendingChannel := by
  unfold write
  split <;> rfl

theorem pendingChannel_forward (b : Bridge) (event : Json) :
    (b.forward event).pendingChannel = b.pendingChannel := by
  unfold forward
  split <;> rfl

theorem pendingChannel_channelResponse (b : Bridge) (ch : ChannelId)
    (reply : Except String String) :
    (b.channelResponse ch reply).pendingChannel = b.pendingChannel := by
  unfold channelResponse
  split
  · rfl
  · exact pendingChannel_forward ..

theorem pendingChannel_output (hc : b.pendingChannel.get id = some channelId) {msg : Json}
    (hans : answers id (.output msg) = none) :
    (b.handleOutput msg).pendingChannel.get id = some channelId := by
  unfold handleOutput
  split
  · rename_i htype
    have hid : id ≠ msg.strOr "id" "" := by
      intro h
      rw [answers_output, if_pos ⟨htype, h.symm⟩] at hans
      cases hans
    unfold chatResponse
    dsimp only
    split
    · exact hc
    · split
      · rw [pendingChannel_channelResponse]
        exact (HashMap.get_remove ..).trans ((if_neg hid).trans hc)
      · exact hc
  · unfold statusMessage
    dsimp only
    split <;> exact hc
  · exact hc
  all_goals first
    | exact hc
    | (rw [pendingChannel_forward]; exact hc)

/-- A message of a channel stays in the table through an input that neither answers it
nor takes its id. -/
theorem pendingChannel_step (hl : b.phase = .looping)
    (hc : b.pendingChannel.get id = some channelId) {i : BridgeInput} (hans : answers id i = none)
    (hid : takesId i = true → id ≠ reqId (u64Succ b.reqCounter)) :
    (b.step i).pendingChannel.get id = some channelId := by
  rw [step_looping hl]
  cases i with
  | userMessage message reply written =>
    cases reply with
    | false => rwa [show (b.loopStep (.userMessage message false written)).pendingChannel =
        b.pendingChannel from pendingChannel_write ..]
    | true => rwa [show (b.loopStep (.userMessage message true written)).pendingChannel =
        b.pendingChannel from (pendingChannel_write ..).trans (hold_pendingChannel ..)]
  | channelMessage ch message written =>
    rw [show (b.loopStep (.channelMessage ch message written)).pendingChannel =
      b.pendingChannel.insert (reqId (u64Succ b.reqCounter)) ch from pendingChannel_write ..,
      HashMap.get_insert, if_neg (hid rfl), hc]
  | jobExecute jobId instruction workspace inputArtifacts written =>
    rwa [show (b.loopStep (.jobExecute jobId instruction workspace inputArtifacts
      written)).pendingChannel = b.pendingChannel from pendingChannel_write ..]
  | stop written =>
    show (b.writeStop written).pendingChannel.get id = some channelId
    unfold writeStop
    split <;> exact hc
  | closed => exact hc
  | output msg => exact pendingChannel_output hc hans
  | endOfOutput => exact hc
  | childExit failure => exact hc

end

section
variable {b₀ : Bridge}

/-- The id in a channel's table comes from the last message of that channel that took
it, and while the counter has not gone round no response has carried it since. -/
def IssuedTo (b₀ : Bridge) (hist : List BridgeInput) (id : String) (channelId : ChannelId) : Prop :=
  ∃ pre message written mid, hist = pre ++ .channelMessage channelId message written :: mid ∧
    (run step b₀ pre).phase = .looping ∧ id = reqId (u64Succ (run step b₀ pre).reqCounter) ∧
    (hist.countP takesId < 2 ^ 64 → ∀ x ∈ mid, answers id x = none)

/-- A channel message for the orchestrator answers a message of the same channel, in the
name of the bridge's own job: the response carries the id of the message, and is the
first that does while the counter has not gone round. -/
def ChannelOrigin (b₀ : Bridge) (hist : List BridgeInput) (event : Json) : Prop :=
  ∃ pre channelId message written mid msg rest jobId reply,
    hist = pre ++ .channelMessage channelId message written :: (mid ++ .output msg :: rest) ∧
    (run step b₀ pre).phase = .looping ∧
    answers (reqId (u64Succ (run step b₀ pre).reqCounter)) (.output msg) = some reply ∧
    b₀.orchJobId = some jobId ∧ event = channelEvent channelId jobId reply ∧
    (hist.countP takesId < 2 ^ 64 →
      ∀ x ∈ mid, answers (reqId (u64Succ (run step b₀ pre).reqCounter)) x = none)

/-- What the inputs so far say about the tables and the events. -/
structure Traced (b₀ : Bridge) (hist : List BridgeInput) (b : Bridge) : Prop where
  ran : b = run step b₀ hist
  numbered : hist.countP takesId < 2 ^ 64 → Numbered b
  issued : b.phase = .looping → ∀ id channelId, b.pendingChannel.get id = some channelId →
    IssuedTo b₀ hist id channelId
  origin : ∀ event ∈ b.events, event.strOr "type" "" = "channel_message" →
    ChannelOrigin b₀ hist event

theorem ChannelOrigin.snoc {hist : List BridgeInput} {event : Json} (i : BridgeInput)
    (h : ChannelOrigin b₀ hist event) : ChannelOrigin b₀ (hist ++ [i]) event := by
  obtain ⟨pre, channelId, message, written, mid, msg, rest, jobId, reply, rfl, hl, hans, hjob,
    hevent, hfirst⟩ := h
  refine ⟨pre, channelId, message, written, mid, msg, rest ++ [i], jobId, reply, by simp, hl, hans,
    hjob, hevent, fun hcount => hfirst ?_⟩
  rw [List.countP_append] at hcount
  omega

/-- A bridge that has just started. -/
structure Fresh (b₀ : Bridge) : Prop where
  reqCounter : b₀.reqCounter = 0
  pending : b₀.pending = .empty
  pendingChannel : b₀.pendingChannel = .empty
  events : b₀.events = []

theorem fresh_workerBridge (agentName : String) (orchTx : Bool) (orchJobId : Option JobId)
    (start : BridgeStart) : Fresh (workerBridge agentName orchTx orchJobId start) := by
  cases start <;> exact ⟨rfl, rfl, rfl, rfl⟩

theorem traced_nil (h₀ : Fresh b₀) : Traced b₀ [] b₀ where
  ran := rfl
  numbered := fun _ =>
    { pending := fun id n h => by rw [h₀.pending] at h; cases h
      channel := fun id ch h => by rw [h₀.pendingChannel] at h; cases h
      apart := fun id ch h => by rw [h₀.pendingChannel] at h; cases h }
  issued := fun _ id ch h => by rw [h₀.pendingChannel] at h; cases h
  origin := fun event h => by rw [h₀.events] at h; cases h

/-- The counter of a bridge in its loop shows how many messages it has taken. -/
theorem Traced.reqCounter (h₀ : Fresh b₀) {hist : List BridgeInput} {b : Bridge}
    (h : Traced b₀ hist b) (hl : b.phase = .looping) :
    b.reqCounter = hist.countP takesId % 2 ^ 64 := by
  have hzero : b₀.reqCounter < 2 ^ 64 := by
    rw [h₀.reqCounter]
    decide
  rw [h.ran] at hl ⊢
  rw [run_reqCounter hzero hl, h₀.reqCounter, Nat.zero_add]

theorem Traced.step (h₀ : Fresh b₀) {hist : List BridgeInput} {b : Bridge} {i : BridgeInput}
    (h : Traced b₀ hist b) : Traced b₀ (hist ++ [i]) (b.step i) := by
  have hcount : (hist ++ [i]).countP takesId < 2 ^ 64 → hist.countP takesId < 2 ^ 64 := by
    rw [List.countP_append]
    omega
  have hjob : b.orchJobId = b₀.orchJobId := by
    rw [h.ran]
    exact (grows_run b₀ hist).orchJobId
  refine ⟨by rw [run_append, ← h.ran]; rfl, ?_, ?_, ?_⟩
  · intro hlt
    refine numbered_step (h.numbered (hcount hlt)) ?_
    intro hl htakes
    rw [h.reqCounter h₀ hl, Nat.mod_eq_of_lt (hcount hlt)]
    rw [List.countP_append, List.countP_singleton, if_pos htakes] at hlt
    exact hlt
  · intro hl' id channelId hget
    have hl : b.phase = .looping := by
      by_contra hl
      exact step_phase hl i hl'
    rcases step_channel hget with ⟨hold, _⟩ | ⟨_, hid, message, written, rfl⟩
    · obtain ⟨pre, message, written, mid, rfl, hpre, hid, hfirst⟩ := h.issued hl id channelId hold
      refine ⟨pre, message, written, mid ++ [i], by simp, hpre, hid, ?_⟩
      intro hlt x hx
      rcases List.mem_append.mp hx with hx | hx
      · exact hfirst (hcount hlt) x hx
      · -- a response would have taken the id off the table
        rw [List.mem_singleton.mp hx]
        cases hans : answers id i with
        | none => rfl
        | some reply =>
          cases i with
          | output msg =>
            have hp := (h.numbered (hcount hlt)).apart id channelId hold
            rw [(channel_forwarded hl hp hold hans).1] at hget
            cases hget
          | _ => cases hans
    · refine ⟨hist, message, written, [], rfl, by rw [← h.ran]; exact hl, by rw [← h.ran]; exact hid,
        fun _ x hx => absurd hx List.not_mem_nil⟩
  · intro event hevent htype
    by_cases hout : ∀ msg, b.phase = .looping → i ≠ .output msg
    · rw [events_step hout] at hevent
      exact (h.origin event hevent htype).snoc i
    · simp only [not_forall, not_not] at hout
      obtain ⟨msg, hl, rfl⟩ := hout
      rw [step_looping hl] at hevent
      rcases events_handleOutput hevent with hold | ⟨_, hne⟩ | hresp
      · exact (h.origin event hold htype).snoc _
      · exact absurd htype hne
      · obtain ⟨channelId, jobId, hmsg, hp, hc, hj, rfl⟩ := hresp
        obtain ⟨pre, message, written, mid, rfl, hpre, hid, hfirst⟩ := h.issued hl _ channelId hc
        refine ⟨pre, channelId, message, written, mid, msg, [], jobId, replyOf msg, by simp, hpre, ?_,
          hjob ▸ hj, rfl, ?_⟩
        · rw [answers_output, if_pos ⟨hmsg, hid⟩]
        · intro hlt x hx
          rw [← hid]
          exact hfirst (hcount hlt) x hx

theorem traced_run (h₀ : Fresh b₀) (is : List BridgeInput) : Traced b₀ is (run step b₀ is) :=
  run_history (traced_nil h₀) (fun _ _ _ h => h.step h₀) is

/-- While the loop goes on and the counter has not gone round, a channel message keeps
its place in the table until a response carries its id. -/
theorem channel_waits (h₀ : Fresh b₀) {pre mid : List BridgeInput} {channelId : ChannelId}
    {message : String} {written : Bool}
    (hl : (run step b₀ (pre ++ .channelMessage channelId message written :: mid)).phase = .looping)
    (hcount : (pre ++ .channelMessage channelId message written :: mid).countP takesId < 2 ^ 64)
    (hnone : ∀ x ∈ mid, answers (reqId (u64Succ (run step b₀ pre).reqCounter)) x = none) :
    (run step b₀ (pre ++ .channelMessage channelId message written :: mid)).pendingChannel.get
      (reqId (u64Succ (run step b₀ pre).reqCounter)) = some channelId := by
  induction mid using List.reverseRecOn with
  | nil =>
    rw [run_append] at hl ⊢
    have hpre : (run step b₀ pre).phase = .looping := by
      by_contra h
      exact step_phase h _ hl
    show ((run step b₀ pre).step (.channelMessage channelId message written)).pendingChannel.get _ = _
    rw [step_looping hpre]
    show ((run step b₀ pre).channelMessage channelId message written).pendingChannel.get _ = _
    unfold channelMessage
    rw [pendingChannel_write]
    exact (HashMap.get_insert ..).trans (if_pos rfl)
  | append_singleton mid i ih =>
    have hsnoc : pre ++ .channelMessage channelId message written :: (mid ++ [i]) =
        (pre ++ .channelMessage channelId message written :: mid) ++ [i] := by simp
    rw [hsnoc] at hl hcount ⊢
    rw [run_append] at hl ⊢
    have hlt : (pre ++ .channelMessage channelId message written :: mid).countP takesId < 2 ^ 64 := by
      rw [List.countP_append] at hcount
      omega
    have hl' : (run step b₀ (pre ++ .channelMessage channelId message written :: mid)).phase =
        .looping := by
      by_contra h
      exact step_phase h i hl
    have hc := ih hl' hlt (fun x hx => hnone x (List.mem_append_left _ hx))
    refine pendingChannel_step hl' hc (hnone i (List.mem_append_right _ (List.mem_singleton_self i))) ?_
    intro htakes hid
    -- the counter has moved on since
    have hpre : (run step b₀ pre).phase = .looping := by
      rw [run_append] at hl'
      exact looping_of_run hl'
    have hstart := (traced_run h₀ pre).reqCounter h₀ hpre
    have hnow := (traced_run h₀ (pre ++ .channelMessage channelId message written :: mid)).reqCounter
      h₀ hl'
    have htotal : (pre ++ .channelMessage channelId message written :: mid).countP takesId =
        pre.countP takesId + (mid.countP takesId + 1) := by
      rw [List.countP_append, List.countP_cons_of_pos rfl]
    have heq := reqId_injective hid
    rw [List.countP_append, List.countP_singleton, if_pos htakes, htotal] at hcount
    rw [hstart, hnow, htotal] at heq
    unfold u64Succ at heq
    omega

/-- A response to a channel message is forwarded under the message's channel, in the name
of the bridge's own job. -/
theorem channel_answered (h₀ : Fresh b₀) {pre mid : List BridgeInput} (rest : List BridgeInput)
    {channelId jobId : String} {message : String} {written : Bool} {msg : Json}
    {reply : Except String String} (htx : b₀.orchTx = true) (hjob : b₀.orchJobId = some jobId)
    (hl : (run step b₀ (pre ++ .channelMessage channelId message written :: mid)).phase = .looping)
    (hcount : (pre ++ .channelMessage channelId message written :: mid).countP takesId < 2 ^ 64)
    (hnone : ∀ x ∈ mid, answers (reqId (u64Succ (run step b₀ pre).reqCounter)) x = none)
    (hans : answers (reqId (u64Succ (run step b₀ pre).reqCounter)) (.output msg) = some reply) :
    channelEvent channelId jobId reply ∈
      (run step b₀ (pre ++ .channelMessage channelId message written ::
        (mid ++ .output msg :: rest))).events := by
  have hc := channel_waits h₀ hl hcount hnone
  have htraced := traced_run h₀ (pre ++ .channelMessage channelId message written :: mid)
  have hgrows := grows_run b₀ (pre ++ .channelMessage channelId message written :: mid)
  obtain ⟨_, hsent⟩ := channel_forwarded hl ((htraced.numbered hcount).apart _ _ hc) hc hans
  have hmem : channelEvent channelId jobId reply ∈ (step (run step b₀
      (pre ++ .channelMessage channelId message written :: mid)) (.output msg)).events := by
    rw [hsent jobId (hgrows.orchTx.trans htx) (hgrows.orchJobId.trans hjob)]
    exact List.mem_append_right _ (List.mem_singleton_self _)
  have hsplit : pre ++ BridgeInput.channelMessage channelId message written ::
      (mid ++ .output msg :: rest) =
      (pre ++ .channelMessage channelId message written :: mid) ++ .output msg :: rest := by simp
  rw [hsplit, run_append, run_cons]
  exact (grows_run _ rest).events.subset hmem

end

/-! ## What comes with a message and what ends the loop -/

/-- The input gives the bridge a reply sender. -/
def givesSender : BridgeInput → Bool
  | .userMessage _ reply _ => reply
  | _ => false

/-- The input has the bridge leave its loop: every handle is gone, the worker's output is at its
end, the worker says that it has stopped, or a line cannot be written to it. -/
def endsLoop : BridgeInput → Bool
  | .userMessage _ _ written => !written
  | .channelMessage _ _ written => !written
  | .jobExecute _ _ _ _ written => !written
  | .output msg => msg.strOr "type" "" = "status" ∧ msg.strOr "status" "idle" = "stopped"
  | .closed => true
  | .endOfOutput => true
  | _ => false

section
variable {b : Bridge}

/-- The relation keeps phase and count of senders. -/
structure Stays (b b' : Bridge) : Prop where
  phase : b'.phase = b.phase
  received : b'.received = b.received

theorem stays_forward (b : Bridge) (event : Json) : Stays b (b.forward event) := by
  unfold Bridge.forward
  split <;> exact ⟨rfl, rfl⟩

theorem stays_chatResponse (b : Bridge) (msg : Json) : Stays b (b.chatResponse msg) := by
  unfold chatResponse
  dsimp only
  split
  · exact ⟨rfl, rfl⟩
  · split
    · unfold channelResponse
      split
      · exact ⟨rfl, rfl⟩
      · obtain ⟨hphase, hreceived⟩ := stays_forward
          { b with pendingChannel := b.pendingChannel.remove (msg.strOr "id" "") } (channelEvent ..)
        exact ⟨hphase, hreceived⟩
    · exact ⟨rfl, rfl⟩

theorem parseStatus_eq_stopped {text : String} :
    parseStatus text = .stopped ↔ text = "stopped" := by
  unfold parseStatus
  split <;> simp_all

theorem received_handleOutput (b : Bridge) (msg : Json) :
    (b.handleOutput msg).received = b.received := by
  unfold handleOutput
  split
  · exact (stays_chatResponse b msg).received
  · unfold statusMessage
    dsimp only
    split <;> rfl
  · rfl
  · exact (stays_forward ..).received
  · exact (stays_forward ..).received
  · exact (stays_forward (b.update .idle none) msg).received
  · exact (stays_forward (b.update .idle none) msg).received
  · exact (stays_forward (b.update .idle none) msg).received
  · rfl

theorem phase_handleOutput (hl : b.phase = .looping) (msg : Json) :
    (b.handleOutput msg).phase = .looping ↔ endsLoop (.output msg) = false := by
  have hkept : ∀ {b' : Bridge}, Stays b b' → msg.strOr "type" "" ≠ "status" →
      (b'.phase = .looping ↔ endsLoop (.output msg) = false) := by
    intro b' hstays htype
    refine iff_of_true (hstays.phase.trans hl) ?_
    exact decide_eq_false (fun h => htype h.1)
  have hupdate : Stays b (b.update .idle none) := ⟨rfl, rfl⟩
  have hforward : Stays b ((b.update .idle none).forward msg) := by
    obtain ⟨hphase, hreceived⟩ := stays_forward (b.update .idle none) msg
    exact ⟨hphase, hreceived⟩
  unfold handleOutput
  split
  · rename_i htype
    exact hkept (stays_chatResponse b msg) (by rw [htype]; decide)
  · rename_i htype
    have hends : endsLoop (.output msg) = decide (msg.strOr "status" "idle" = "stopped") := by
      unfold endsLoop
      simp [htype]
    rw [hends, decide_eq_false_iff_not, ← parseStatus_eq_stopped]
    unfold statusMessage
    dsimp only
    split
    · rename_i hstopped
      exact iff_of_false BridgePhase.noConfusion (not_not.mpr hstopped)
    · rename_i hgoes
      exact iff_of_true hl hgoes
  · rename_i htype
    exact hkept hupdate (by rw [htype]; decide)
  · rename_i htype
    exact hkept (stays_forward b msg) (by rw [htype]; decide)
  · rename_i htype
    exact hkept (stays_forward b msg) (by rw [htype]; decide)
  · rename_i htype
    exact hkept hforward (by rw [htype]; decide)
  · rename_i htype
    exact hkept hforward (by rw [htype]; decide)
  · rename_i htype
    exact hkept hforward (by rw [htype]; decide)
  · rename_i hno _ _ _ _ _ _
    exact hkept ⟨rfl, rfl⟩ (by assumption)

theorem received_write (b : Bridge) (line : Json) (written : Bool) :
    (b.write line written).received = b.received := by
  unfold write
  split <;> rfl

theorem phase_write (hl : b.phase = .looping) (line : Json) (written : Bool) :
    (b.write line written).phase = .looping ↔ written = true := by
  cases written with
  | true => exact iff_of_true hl rfl
  | false => exact iff_of_false BridgePhase.noConfusion Bool.false_ne_true

theorem stays_writeStop (b : Bridge) (written : Bool) : Stays b (b.writeStop written) := by
  unfold writeStop
  split <;> exact ⟨rfl, rfl⟩

theorem phase_hold (b : Bridge) (id : String) : (b.hold id).phase = b.phase := by
  unfold hold
  dsimp only
  split <;> rfl

theorem received_refuse (b : Bridge) (i : BridgeInput) :
    (b.refuse i).received = b.received + (givesSender i).toNat := by
  cases i with
  | userMessage message reply written => cases reply <;> rfl
  | _ => rfl

/-- Every sender that comes is received, whatever the bridge is doing. -/
theorem received_step (b : Bridge) (i : BridgeInput) :
    (b.step i).received = b.received + (givesSender i).toNat := by
  cases hl : b.phase with
  | looping =>
    rw [step_looping hl]
    cases i with
    | userMessage message reply written =>
      refine (received_write ..).trans ?_
      cases reply <;> rfl
    | channelMessage channelId message written => exact received_write ..
    | jobExecute jobId instruction workspace inputArtifacts written => exact received_write ..
    | stop written => exact (stays_writeStop b written).received
    | output msg => exact received_handleOutput b msg
    | _ => rfl
  | waiting =>
    rw [step_waiting hl]
    unfold waitStep
    split
    · rename_i failure
      unfold Bridge.exit
      dsimp only
      split <;> rfl
    · exact received_refuse ..
  | ended =>
    rw [step_ended hl]
    exact received_refuse ..

/-- The loop goes on unless the input ends it. -/
theorem phase_step (b : Bridge) (i : BridgeInput) :
    (b.step i).phase = .looping ↔ b.phase = .looping ∧ endsLoop i = false := by
  have hwritten : ∀ written : Bool, written = true ↔ (!written) = false := by decide
  by_cases hl : b.phase = .looping
  · rw [and_iff_right hl, step_looping hl]
    cases i with
    | userMessage message reply written =>
      refine (phase_write ?_ ..).trans (hwritten written)
      split
      · exact (phase_hold ..).trans hl
      · exact hl
    | channelMessage channelId message written =>
      refine (phase_write ?_ ..).trans (hwritten written)
      exact hl
    | jobExecute jobId instruction workspace inputArtifacts written =>
      exact (phase_write hl ..).trans (hwritten written)
    | stop written => exact iff_of_true ((stays_writeStop b written).phase.trans hl) rfl
    | closed => exact iff_of_false BridgePhase.noConfusion Bool.noConfusion
    | output msg => exact phase_handleOutput hl msg
    | endOfOutput => exact iff_of_false BridgePhase.noConfusion Bool.noConfusion
    | childExit failure => exact iff_of_true hl rfl
  · exact iff_of_false (step_phase hl i) (fun h => hl h.1)

theorem received_run (b : Bridge) (is : List BridgeInput) :
    (run step b is).received = b.received + is.countP givesSender := by
  induction is generalizing b with
  | nil => rfl
  | cons i is ih =>
    rw [run_cons, ih, received_step, List.countP_cons]
    cases givesSender i with
    | true => exact Nat.add_right_comm ..
    | false => rfl

theorem phase_run (b : Bridge) (is : List BridgeInput) :
    (run step b is).phase = .looping ↔
      b.phase = .looping ∧ ∀ i ∈ is, endsLoop i = false := by
  induction is generalizing b with
  | nil => simp
  | cons i is ih =>
    rw [run_cons, ih, phase_step, List.forall_mem_cons, and_assoc]

end

/-! ## Senders and channels -/

/-- In every run of a bridge each reply sender that has been given to it is used at most once
and, when the loop is over, has been used; the loop goes on until an input ends it. A sender is
used for what is right for its message. A channel message for
the orchestrator is a response to a message of that channel, in the name of the bridge's
own job, and while the counter has not gone round such responses are all forwarded. -/
theorem bridge_answers (agentName : String) (orchTx : Bool) (orchJobId : Option JobId)
    (start : BridgeStart) (is : List BridgeInput) :
    let b₀ := workerBridge agentName orchTx orchJobId start
    let b := run step b₀ is
    (b.used.Nodup ∧ b.received = is.countP givesSender ∧
      (b.phase ≠ .looping → ∀ n, n ∈ b.used ↔ n < b.received)) ∧
    (b.phase = .looping ↔ (∃ pid, start = .spawned pid) ∧ ∀ i ∈ is, endsLoop i = false) ∧
    (∀ pre message written post, is = pre ++ .userMessage message true written :: post →
      ∀ r, ((run step b₀ pre).received, r) ∈ b.resolved →
        if (run step b₀ pre).phase = .looping then
          Rightful (run step b₀ pre) (.userMessage message true written) post r
        else r = .dropped) ∧
    (∀ event ∈ b.events, event.strOr "type" "" = "channel_message" →
      ChannelOrigin b₀ is event) ∧
    (∀ pre channelId message written mid msg rest jobId reply,
      is = pre ++ .channelMessage channelId message written :: (mid ++ .output msg :: rest) →
      orchTx = true → orchJobId = some jobId →
      (run step b₀ (pre ++ .channelMessage channelId message written :: mid)).phase = .looping →
      (pre ++ .channelMessage channelId message written :: mid).countP takesId < 2 ^ 64 →
      (∀ x ∈ mid, answers (reqId (u64Succ (run step b₀ pre).reqCounter)) x = none) →
      answers (reqId (u64Succ (run step b₀ pre).reqCounter)) (.output msg) = some reply →
      channelEvent channelId jobId reply ∈ b.events) := by
  intro b₀ b
  have hb₀ : Accounted b₀ := accounted_workerBridge agentName orchTx orchJobId start
  have hfresh : Fresh b₀ := fresh_workerBridge agentName orchTx orchJobId start
  have hb : Accounted b := accounted_run hb₀ is
  have hreceived : b.received = is.countP givesSender := by
    refine (received_run b₀ is).trans ?_
    cases start <;> exact Nat.zero_add _
  have hloop : b₀.phase = .looping ↔ ∃ pid, start = .spawned pid := by
    cases start with
    | noExecutable error => exact iff_of_false BridgePhase.noConfusion nofun
    | spawnFailed error => exact iff_of_false BridgePhase.noConfusion nofun
    | spawned pid => exact iff_of_true rfl ⟨pid, rfl⟩
  refine ⟨⟨hb.nodup, hreceived, ?_⟩, (phase_run b₀ is).trans (and_congr_left' hloop), ?_,
    (traced_run hfresh is).origin, ?_⟩
  · intro hl n
    refine ⟨?_, ?_⟩
    · intro h
      exact hb.lt n h
    · intro h
      rcases hb.covered n h with hin | ⟨id, hid⟩
      · exact hin
      · rw [hb.closed hl id] at hid
        cases hid
  · intro pre message written post his r hr
    have hpre : Accounted (run step b₀ pre) := accounted_run hb₀ pre
    have hb' : b = run step ((run step b₀ pre).step (.userMessage message true written)) post := by
      show run step b₀ is = _
      rw [his, run_append, run_cons]
    rw [hb'] at hr
    split
    · rename_i hl
      exact rightful_looping hpre hl hr
    · rename_i hl
      exact dropped_of_left hpre hl hr
  · intro pre channelId message written mid msg rest jobId reply his htx hjob hl hcount hnone hans
    have hsame : b₀.orchTx = orchTx ∧ b₀.orchJobId = orchJobId := by
      cases start <;> exact ⟨rfl, rfl⟩
    have hsent := channel_answered hfresh rest (hsame.1.trans htx) (hsame.2.trans hjob) hl
      hcount hnone hans
    show _ ∈ (run step b₀ is).events
    rw [his]
    exact hsent

/-- Two messages are answered in the other order, one of them twice, and the handles go. -/
def crossedResponses : List BridgeInput :=
  let response (id text : String) : BridgeInput := .output (.obj [("type", .str "chat_response"),
    ("id", .str id), ("response", .str text)])
  [.userMessage "first" true true, .userMessage "second" true true, response "req-2" "two",
    response "req-2" "again", response "req-1" "one", .closed]

theorem bridge_answers_crossed :
    ∃ r, (0, r) ∈ (run step (workerBridge "coder" false none (.spawned none))
        crossedResponses).resolved ∧
      Rightful (workerBridge "coder" false none (.spawned none))
        (.userMessage "first" true true) crossedResponses.tail r := by
  obtain ⟨⟨_, hreceived, hused⟩, hloop, hright, _⟩ :=
    bridge_answers "coder" false none (.spawned none) crossedResponses
  have hleft : (run step (workerBridge "coder" false none (.spawned none))
      crossedResponses).phase ≠ .looping := by
    rw [ne_eq, hloop]
    exact fun h => absurd (h.2 .closed (by simp [crossedResponses])) (by decide)
  have hzero := (hused hleft 0).mpr (by rw [hreceived]; decide)
  obtain ⟨⟨n, r⟩, hmem, rfl⟩ := List.mem_map.mp hzero
  exact ⟨r, hmem, hright [] "first" true crossedResponses.tail rfl r hmem⟩

end ZeptoPM.Bridge
