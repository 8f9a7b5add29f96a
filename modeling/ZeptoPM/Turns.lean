import ZeptoPM.ChannelMoves
import ZeptoPM.Runs

/- Turn-based channels. The speaker's index, the round and the stamps of the history
   are all read off the number of messages recorded, and a channel with a last round
   closes on a message known in advance. The invariant `Turns` is about one channel;
   `everyChannel_run` carries such a property through all calls and restarts, for the
   channels of the engine and those of the database together. -/
namespace ZeptoPM
open OrchestratorEngine

/-! ## Properties of every channel -/

/-- The channels of the engine and the ones saved in the database have the property. -/
structure EveryChannel (P : Channel → Prop) (c : Core) : Prop where
  engine : ∀ k ch, c.engine.store.getChannel k = some ch → P ch
  db : ∀ db, c.db = some db → ∀ k ch, db.getChannel k = some ch → P ch

/-- A property that survives every change of a channel and a restart. -/
structure Kept (P : Channel → Prop) : Prop where
  new : ∀ ch : Channel, ch.New → P ch
  moved : ∀ w (ch ch' : Channel), P ch → ch.Moved w ch' → P ch'
  recover : ∀ ch : Channel, P ch → P ch.recover

section
variable {P : Channel → Prop}

theorem everyChannel_hydrate (hP : Kept P) {c : Core} (h : EveryChannel P c) (w : World) :
    EveryChannel P (c.act w .hydrate) := by
  obtain ⟨e, db⟩ := c
  refine ⟨fun k ch hk => ?_, h.db⟩
  cases db with
  | none => cases hk
  | some db =>
    have hget := (getChannel_hydrate k).symm.trans hk
    obtain ⟨ch₀, hch₀, rfl⟩ := Option.map_eq_some_iff.mp hget
    exact hP.recover ch₀ (h.db db rfl k ch₀ hch₀)

/-- Whatever is done to the engine and the database, in whatever order. -/
theorem everyChannel_act (hP : Kept P) (c : Core) (x : World × Action) (h : EveryChannel P c) :
    EveryChannel P (coreStep c x) := by
  obtain ⟨w, a⟩ := x
  cases a with
  | call r f =>
    refine ⟨fun k ch hk => ?_, h.db⟩
    rcases channel_call w c.engine f hk with ⟨ch₀, hch₀, hmoved⟩ | hnew
    · exact hP.moved w ch₀ ch (h.engine k ch₀ hch₀) hmoved
    · exact hP.new ch hnew
  | persistRunState r =>
    refine ⟨h.engine, fun db' hdb' k ch hk => ?_⟩
    obtain ⟨db, hdb, rfl⟩ := Option.map_eq_some_iff.mp hdb'
    rw [SqlitePersistence.getChannel_persistRunState] at hk
    split at hk
    · exact h.engine k ch hk
    · exact h.db db hdb k ch hk
  | persistArtifact a =>
    refine ⟨h.engine, fun db' hdb' k ch hk => ?_⟩
    obtain ⟨db, hdb, rfl⟩ := Option.map_eq_some_iff.mp hdb'
    exact h.db db hdb k ch hk
  | genId pre => exact ⟨h.engine, h.db⟩
  | expire r =>
    refine ⟨fun k ch hk => ?_, fun db' hdb' k ch hk => ?_⟩
    · have hget := (RunStore.getChannel_removeRun w c.engine.store r k).symm.trans hk
      rw [Option.filter_eq_some_iff] at hget
      exact h.engine k ch hget.1
    · obtain ⟨db, hdb, rfl⟩ := Option.map_eq_some_iff.mp hdb'
      exact h.db db hdb k ch (SqlitePersistence.getChannel_deleteRun.mp hk).1
  | hydrate => exact everyChannel_hydrate hP h w

theorem everyChannel_run (hP : Kept P) {c : Core} (l : List (World × Action))
    (h : EveryChannel P c) : EveryChannel P (run coreStep c l) :=
  run_invariant (G := fun _ _ => True) (fun c x hc _ => everyChannel_act hP c x hc) h
    (Meets.trivial c l)

end

/-! ## Arithmetic of the turns -/

section
variable {i n : Nat}

/-- The round counter steps when the turn comes back to the first participant. -/
theorem round_succ : (if (i + 1) % n = 0 then u32Succ (i / n % 2 ^ 32) else i / n % 2 ^ 32) =
    (i + 1) / n % 2 ^ 32 := by
  unfold u32Succ
  rw [Nat.succ_div]
  by_cases h : n ∣ i + 1
  · rw [if_pos (Nat.mod_eq_zero_of_dvd h), if_pos h, Nat.mod_add_mod]
  · rw [if_neg (fun h0 => h (Nat.dvd_of_mod_eq_zero h0)), if_neg h, Nat.add_zero]

/-- The number of messages after which a last round `m` closes the channel. -/
def lastCount (n m : Nat) : Nat := max 1 (n * m)

/-- Below the last count, the next message reaches round `m` exactly when it is the
last one. -/
theorem round_reached (hn : 0 < n) {m : Nat} (hm : m < 2 ^ 32) (hi : i < lastCount n m) :
    m ≤ (i + 1) / n % 2 ^ 32 ↔ i + 1 = lastCount n m := by
  unfold lastCount at hi ⊢
  cases m with
  | zero =>
    rw [Nat.mul_zero] at hi ⊢
    omega
  | succ m =>
    have hpos : 0 < n * (m + 1) := Nat.mul_pos hn (Nat.succ_pos m)
    have hmax : max 1 (n * (m + 1)) = n * (m + 1) := Nat.max_eq_right hpos
    rw [hmax] at hi ⊢
    have hle : (i + 1) / n ≤ m + 1 := by
      apply Nat.div_le_of_le_mul
      omega
    rw [Nat.mod_eq_of_lt (Nat.lt_of_le_of_lt hle hm), Nat.le_div_iff_mul_le hn, Nat.mul_comm]
    omega

end

/-! ## Turn-based channels -/

/-- The state of a turn-based channel with participants is read off its history. -/
structure Channel.Turns (c : Channel) : Prop where
  idx : c.currentSpeakerIdx = c.history.length % c.participants.length
  round : c.currentRound = c.history.length / c.participants.length % 2 ^ 32
  spoken : ∀ i m, c.history[i]? = some m →
    c.participants[i % c.participants.length]? = some m.fromJob ∧
      m.round = i / c.participants.length % 2 ^ 32
  shut : c.closed = true → c.active = false
  bounded : ∀ m, c.maxRounds = some m → m < 2 ^ 32 →
    c.history.length ≤ lastCount c.participants.length m ∧
      (c.closed = false → c.history.length < lastCount c.participants.length m)

theorem Channel.New.turns {c : Channel} (h : c.New) : c.Turns := by
  refine ⟨?_, ?_, ?_, ?_, ?_⟩
  · rw [h.currentSpeakerIdx, h.history, List.length_nil, Nat.zero_mod]
  · rw [h.currentRound, h.history, List.length_nil, Nat.zero_div, Nat.zero_mod]
  · intro i m hm
    rw [h.history] at hm
    cases hm
  · exact fun _ => h.active
  · intro m _ _
    have hpos : 0 < lastCount c.participants.length m := Nat.lt_of_lt_of_le Nat.zero_lt_one
      (Nat.le_max_left ..)
    rw [h.history, List.length_nil]
    exact ⟨Nat.zero_le _, fun _ => hpos⟩

section
variable {c : Channel} (h : c.Turns)
include h

theorem Channel.Turns.nextIdx : c.nextIdx = (c.history.length + 1) % c.participants.length := by
  rw [Channel.nextIdx, h.idx, Nat.mod_add_mod]

theorem Channel.Turns.nextRound :
    c.nextRound = (c.history.length + 1) / c.participants.length % 2 ^ 32 := by
  rw [Channel.nextRound, h.nextIdx, h.round, round_succ]

theorem Channel.Turns.speaker :
    c.speaker = c.participants[c.history.length % c.participants.length]? := by
  rw [Channel.speaker, h.idx]

/-- A channel that takes a message closes on it exactly when it is the last one due. -/
theorem Channel.Turns.lastMessage (hn : c.participants ≠ []) (hopen : c.closed = false)
    (hmax : ∀ m, c.maxRounds = some m → m < 2 ^ 32) : c.lastMessage = true ↔
      ∃ m, c.maxRounds = some m ∧
        c.history.length + 1 = lastCount c.participants.length m := by
  have hpos := List.length_pos_iff.mpr hn
  rw [Channel.lastMessage, Option.any_eq_true]
  refine ⟨?_, ?_⟩
  · intro h
    obtain ⟨m, hm, hge⟩ := h
    rw [decide_eq_true_eq, h.nextRound] at hge
    exact ⟨m, hm, (round_reached hpos (hmax m hm) ((h.bounded m hm (hmax m hm)).2 hopen)).mp hge⟩
  · intro h
    obtain ⟨m, hm, hlen⟩ := h
    refine ⟨m, hm, ?_⟩
    rw [decide_eq_true_eq, h.nextRound]
    exact (round_reached hpos (hmax m hm) ((h.bounded m hm (hmax m hm)).2 hopen)).mpr hlen

theorem Channel.Turns.close : c.close.Turns where
  idx := h.idx
  round := h.round
  spoken := h.spoken
  shut := fun _ => rfl
  bounded := fun m hm hlt => ⟨(h.bounded m hm hlt).1, fun hopen => by cases hopen⟩

theorem Channel.Turns.activate (hopen : c.closed = false) : c.activate.Turns where
  idx := h.idx
  round := h.round
  spoken := h.spoken
  shut := fun hclosed => absurd (hopen.symm.trans hclosed) Bool.false_ne_true
  bounded := h.bounded

theorem Channel.Turns.recover : c.recover.Turns := by
  unfold Channel.recover
  split
  · exact h
  · rename_i hopen
    exact ⟨h.idx, h.round, h.spoken, fun hclosed => absurd hclosed hopen, h.bounded⟩

/-- What the speaker says is stamped with the round of its turn. -/
theorem Channel.Turns.spoken_append {fromJob : JobId} (content : String) (t : SystemTime)
    (hspeaker : c.speaker = some fromJob) {i : Nat} {m : ChannelMessage}
    (hm : (c.history ++ [⟨fromJob, content, t, c.currentRound⟩])[i]? = some m) :
    c.participants[i % c.participants.length]? = some m.fromJob ∧
      m.round = i / c.participants.length % 2 ^ 32 := by
  rcases Nat.lt_trichotomy i c.history.length with hi | hi | hi
  · rw [List.getElem?_append_left hi] at hm
    exact h.spoken i m hm
  · rw [hi, List.getElem?_append_right (Nat.le_refl _), Nat.sub_self] at hm
    cases hm
    rw [hi]
    exact ⟨h.speaker.symm.trans hspeaker, h.round⟩
  · rw [List.getElem?_eq_none (by rw [List.length_append, List.length_singleton]; omega)] at hm
    cases hm

theorem Channel.Turns.routed (hn : c.participants ≠ []) (hmode : c.mode = .turnBased)
    (w : World) (fromJob : JobId) (content : String) : (c.routed w fromJob content).Turns := by
  have hpos := List.length_pos_iff.mpr hn
  unfold Channel.routed
  split
  · rename_i hears
    have hopen : c.closed = false := by
      rw [← Bool.not_eq_true]
      intro hclosed
      exact absurd ((h.shut hclosed).symm.trans hears.1) Bool.false_ne_true
    have hlen : (c.record w fromJob content c.nextIdx c.nextRound).history.length =
        c.history.length + 1 := List.length_append
    have hspoken := fun i m => h.spoken_append content w.now (hears.2.2 hmode)
      (i := i) (m := m)
    split
    · -- the channel closes: its history may have reached the last count, but no more
      refine ⟨hlen ▸ h.nextIdx, hlen ▸ h.nextRound, hspoken, fun _ => rfl, fun m hm hlt => ?_⟩
      refine ⟨?_, fun hnot => by cases hnot⟩
      exact hlen.trans_le ((h.bounded m hm hlt).2 hopen)
    · rename_i hlast
      refine ⟨hlen ▸ h.nextIdx, hlen ▸ h.nextRound, hspoken, ?_, fun m hm hlt => ?_⟩
      · exact fun hclosed => absurd (hopen.symm.trans hclosed) Bool.false_ne_true
      · have hbound := (h.bounded m hm hlt).2 hopen
        have hnext : c.history.length + 1 ≠ lastCount c.participants.length m := by
          intro heq
          apply hlast
          rw [Channel.lastMessage, Option.any_eq_true]
          refine ⟨m, hm, ?_⟩
          rw [decide_eq_true_eq, h.nextRound]
          exact (round_reached hpos hlt hbound).mpr heq
        have hless : (c.record w fromJob content c.nextIdx c.nextRound).history.length <
            lastCount c.participants.length m := by omega
        exact ⟨Nat.le_of_lt hless, fun _ => hless⟩
  · exact h

end

/-- The turn-based channels with participants are as their histories say. -/
def Channel.TakesTurns (c : Channel) : Prop :=
  c.mode = .turnBased → c.participants ≠ [] → c.Turns

theorem Channel.routed_mode (w : World) (j : JobId) (content : String) (c : Channel) :
    (c.routed w j content).mode = c.mode := by
  unfold Channel.routed
  split
  · split <;> rfl
  · rfl

theorem kept_takesTurns : Kept Channel.TakesTurns where
  new := fun _ hnew _ _ => hnew.turns
  moved := by
    intro w ch ch' h hmoved
    cases hmoved with
    | same => exact h
    | activated _ hopen => exact fun hmode hn => (h hmode hn).activate hopen
    | routed j content =>
      intro hmode hn
      rw [Channel.routed_mode] at hmode
      rw [(ch.routed_between w j content).2] at hn
      exact (h hmode hn).routed hn hmode w j content
    | closed => exact fun hmode hn => (h hmode hn).close
  recover := by
    intro ch h
    have hsame : ch.recover.mode = ch.mode := by
      unfold Channel.recover
      split <;> rfl
    intro hmode hn
    rw [hsame] at hmode
    rw [(Channel.recover_same ch).2] at hn
    exact (h hmode hn).recover

/-! ## Round-robin of exact length -/

section
variable {c : Channel} (w : World) (j : JobId) (content : String)

/-- A channel takes the message of its current speaker and no other. -/
theorem Channel.hears_iff (hmode : c.mode = .turnBased) :
    c.Hears j ↔ c.active = true ∧ c.participants[c.currentSpeakerIdx]? = some j := by
  refine ⟨?_, ?_⟩
  · intro h
    obtain ⟨hactive, _, hspeaker⟩ := h
    exact ⟨hactive, hspeaker hmode⟩
  · intro h
    obtain ⟨hactive, hspeaker⟩ := h
    exact ⟨hactive, List.mem_of_getElem? hspeaker, fun _ => hspeaker⟩

theorem Channel.routed_history (h : c.Hears j) : (c.routed w j content).history =
    c.history ++ [⟨j, content, w.now, c.currentRound⟩] := by
  rw [Channel.routed, if_pos h]
  split <;> rfl

theorem Channel.routed_closed (h : c.Hears j) (hopen : c.closed = false) :
    (c.routed w j content).closed = c.lastMessage := by
  rw [Channel.routed, if_pos h]
  split
  · rename_i hlast
    exact hlast.symm
  · rename_i hlast
    rw [Bool.not_eq_true] at hlast
    exact hopen.trans hlast.symm

end

/-- A call leaves the history of a channel as it is, or adds what its speaker says
while it is active, or replaces the channel by a new one. -/
theorem history_call (w : World) (e : OrchestratorEngine) (f : Call) {k : ChannelId}
    {c c' : Channel} (hk : e.store.getChannel k = some c) (hmode : c.mode = .turnBased)
    (hk' : (f.apply w e).store.getChannel k = some c') :
    c'.history = c.history ∨ c'.New ∨ (c.active = true ∧ ∃ m : ChannelMessage,
      c.participants[c.currentSpeakerIdx]? = some m.fromJob ∧
        c'.history = c.history ++ [m]) := by
  rcases channel_call w e f hk' with ⟨c₀, hc₀, hmoved⟩ | hnew
  · cases hk.symm.trans hc₀
    cases hmoved with
    | same => exact Or.inl rfl
    | activated => exact Or.inl rfl
    | closed => exact Or.inl rfl
    | routed j content =>
      by_cases hears : c.Hears j
      · obtain ⟨hactive, hspeaker⟩ := (Channel.hears_iff j hmode).mp hears
        exact Or.inr (Or.inr ⟨hactive, _, hspeaker, Channel.routed_history w j content hears⟩)
      · exact Or.inl (by rw [Channel.routed, if_neg hears])
  · exact Or.inr (Or.inl hnew)

theorem everyChannel_off (P : Channel → Prop) (persistent : Bool)
    (sandboxOverride : Option Bool) (capsule : Bool) :
    EveryChannel P (Daemon.off persistent sandboxOverride capsule).core := by
  refine ⟨fun k ch hk => ?_, fun db hdb k ch hk => ?_⟩
  · cases hk
  · cases persistent with
    | false => cases hdb
    | true =>
      cases hdb
      cases hk

/-- Whatever calls and restarts have been made in whatever order, a turn-based
channel of `n` participants has been spoken on in turns, hears its speaker only, and
with a last round `m` closes on the message number `max 1 (n * m)`. Rounds are `u32`. -/
theorem roundRobin_run (persistent : Bool) (sandboxOverride : Option Bool) (capsule : Bool)
    (l : List (World × Action)) {k : ChannelId} {c : Channel}
    (hk : (run coreStep (Daemon.off persistent sandboxOverride capsule).core
      l).engine.store.getChannel k = some c)
    (hmode : c.mode = .turnBased) (hn : c.participants ≠ [])
    (hmax : ∀ m, c.maxRounds = some m → m < 2 ^ 32) :
    c.currentSpeakerIdx = c.history.length % c.participants.length ∧
    c.currentRound = c.history.length / c.participants.length % 2 ^ 32 ∧
    (∀ i m, c.history[i]? = some m →
      c.participants[i % c.participants.length]? = some m.fromJob ∧
        m.round = i / c.participants.length % 2 ^ 32) ∧
    (∀ m, c.maxRounds = some m → c.history.length ≤ max 1 (c.participants.length * m)) ∧
    (∀ w f c', (Call.apply w (run coreStep (Daemon.off persistent sandboxOverride capsule).core
        l).engine f).store.getChannel k = some c' →
      c'.history = c.history ∨ c'.New ∨ (c.active = true ∧ ∃ m : ChannelMessage,
        c.participants[c.currentSpeakerIdx]? = some m.fromJob ∧
          c'.history = c.history ++ [m])) ∧
    ∀ w j content, ∃ c', ((run coreStep (Daemon.off persistent sandboxOverride capsule).core
        l).engine.routeChannelMessage w k j content).2.store.getChannel k = some c' ∧
      (¬ (c.active = true ∧ c.participants[c.currentSpeakerIdx]? = some j) → c' = c) ∧
      (c.active = true → c.participants[c.currentSpeakerIdx]? = some j →
        c'.history = c.history ++ [⟨j, content, w.now, c.currentRound⟩] ∧
          (c'.closed = true ↔ ∃ m, c.maxRounds = some m ∧
            c'.history.length = max 1 (c.participants.length * m))) := by
  have hturns : c.Turns := (everyChannel_run kept_takesTurns l
    (everyChannel_off _ persistent sandboxOverride capsule)).engine k c hk hmode hn
  refine ⟨hturns.idx, hturns.round, hturns.spoken,
    fun m hm => (hturns.bounded m hm (hmax m hm)).1,
    fun w f c' hk' => history_call w _ f hk hmode hk', fun w j content => ?_⟩
  · refine ⟨c.routed w j content, ?_, fun hno => ?_, fun hactive hspeaker => ?_⟩
    · rw [getChannel_route, if_pos rfl, hk]
      rfl
    · rw [← Channel.hears_iff j hmode] at hno
      rw [Channel.routed, if_neg hno]
    · have hears := (Channel.hears_iff j hmode).mpr ⟨hactive, hspeaker⟩
      have hopen : c.closed = false := by
        rw [← Bool.not_eq_true]
        intro hclosed
        exact absurd ((hturns.shut hclosed).symm.trans hactive) Bool.false_ne_true
      have hhistory := Channel.routed_history w j content hears
      refine ⟨hhistory, ?_⟩
      rw [Channel.routed_closed w j content hears hopen, hhistory, List.length_append]
      exact hturns.lastMessage hn hopen hmax

/-- Two agents with one turn each. -/
def dialogPlan : ExecutionPlan where
  jobs :=
    [{ localId := "a", role := "writer", profileId := "writer", instruction := "write",
       dependsOn := [] },
     { localId := "b", role := "critic", profileId := "critic", instruction := "read",
       dependsOn := [] }]
  channels :=
    [{ channelId := "c", participants := ["a", "b"], mode := .turnBased, maxRounds := some 1,
       onPeerFailure := .killAll, initialMessage := some "begin" }]

/-- Both agents run and the first one has spoken. -/
def dialogCalls : List (World × Action) :=
  [(World.bare, .call "r" (.acceptPlan "r" "p" dialogPlan)), (World.bare, .call "r" .startNext),
    (World.bare, .call "r" .startNext), (World.bare, .call "r" .activateReadyChannels),
    (World.bare, .call "r" (.routeChannelMessage "r:c" "job_0_0" "hello"))]

/-- The channel of the two agents after the first message. -/
def dialogChannel : Channel where
  channelId := "r:c"
  runId := "r"
  participants := ["job_0_0", "job_0_1"]
  mode := .turnBased
  maxRounds := some 1
  onPeerFailure := .killAll
  currentRound := 0
  currentSpeakerIdx := 1
  active := true
  closed := false
  history := [⟨"job_0_0", "hello", 0, 0⟩]
  initialMessage := some "begin"

/-- The answer of the second agent closes the channel. -/
theorem roundRobin_dialog : ∃ c', ((run coreStep (Daemon.off false none false).core
      dialogCalls).engine.routeChannelMessage World.bare "r:c" "job_0_1" "bye").2.store.getChannel
        "r:c" = some c' ∧ c'.closed = true ∧ c'.history.length = 2 := by
  have hk : (run coreStep (Daemon.off false none false).core
      dialogCalls).engine.store.getChannel "r:c" = some dialogChannel := by decide +kernel
  obtain ⟨_, _, _, _, _, hroute⟩ := roundRobin_run false none false dialogCalls hk rfl
    (by decide) (fun m hm => by cases hm; decide)
  obtain ⟨c', hc', _, htaken⟩ := hroute World.bare "job_0_1" "bye"
  obtain ⟨hhistory, hclosed⟩ := htaken rfl rfl
  refine ⟨c', hc', hclosed.mpr ⟨1, rfl, ?_⟩, ?_⟩ <;> rw [hhistory] <;> rfl

end ZeptoPM
