import ZeptoPM.Interrupt
import ZeptoPM.ChannelMoves

/- The end of a channel. Five operations and the start of the process write its two
   flags, and each of them looks at another one: routing and `channel_done` at `active`,
   the scan at both, a peer's failure and hydration at neither, or at `closed` alone. That
   a closed channel is not active is what makes them agree. `Follows` says what a
   channel may still become, and `closing_final` that nothing else happens to it over
   any sequence of operations and restarts. -/
namespace ZeptoPM
open OrchestratorEngine

/-- One operation on the channels, or a restart from a database in which every channel has
been persisted before. -/
inductive ChannelOp where
  | activate
  | route (channelId : ChannelId) (fromJob : JobId) (content : String)
  | done (channelId : ChannelId) (fromJob : JobId)
  | peerFailure (channelId : ChannelId) (failedJob : JobId)
  | restart (db : SqlitePersistence)

/-- `persist_channel` for every channel of the engine. -/
def SqlitePersistence.persistChannels (w : World) (db : SqlitePersistence)
    (e : OrchestratorEngine) : SqlitePersistence :=
  (e.store.channels.valuesIn (w.order .channels)).foldl SqlitePersistence.persistChannel db

def OrchestratorEngine.channelStep (e : OrchestratorEngine) (x : World × ChannelOp) :
    OrchestratorEngine :=
  match x.2 with
  | .activate => (e.activateReadyChannels x.1).2
  | .route channelId fromJob content => (e.routeChannelMessage x.1 channelId fromJob content).2
  | .done channelId fromJob => (e.handleChannelDone channelId fromJob).2
  | .peerFailure channelId failedJob => (e.handleChannelPeerFailure channelId failedJob).2
  | .restart db => hydrate x.1 (some (db.persistChannels x.1 e)) e.ids

/-- Not both active and closed. -/
def Channel.Settled (c : Channel) : Prop := ¬ (c.active = true ∧ c.closed = true)

instance (c : Channel) : Decidable c.Settled := inferInstanceAs (Decidable (¬ (_ ∧ _)))

/-- What `c` may have become. Its history is extended; if it is closed, it stays so and
history, round and turn stay as they are. -/
structure Channel.Follows (c c' : Channel) : Prop where
  history : c.history <+: c'.history
  closed : c.closed = true → c'.closed = true
  frozen : c.closed = true → c'.history = c.history ∧ c'.currentRound = c.currentRound ∧
    c'.currentSpeakerIdx = c.currentSpeakerIdx

section
variable {w : World} {e e' : OrchestratorEngine} {c c' : Channel} {k : ChannelId}

theorem Channel.Follows.refl (c : Channel) : c.Follows c :=
  ⟨List.prefix_refl _, id, fun _ => ⟨rfl, rfl, rfl⟩⟩

theorem Channel.Follows.trans {c'' : Channel} (h : c.Follows c') (h' : c'.Follows c'') :
    c.Follows c'' := by
  refine ⟨h.history.trans h'.history, fun hc => h'.closed (h.closed hc), fun hc => ?_⟩
  obtain ⟨hhistory, hround, hidx⟩ := h.frozen hc
  obtain ⟨hhistory', hround', hidx'⟩ := h'.frozen (h.closed hc)
  exact ⟨hhistory'.trans hhistory, hround'.trans hround, hidx'.trans hidx⟩

/-! ## One operation -/

theorem Channel.follows_close (c : Channel) : c.Follows c.close ∧ c.close.Settled :=
  ⟨⟨List.prefix_refl _, fun _ => rfl, fun _ => ⟨rfl, rfl, rfl⟩⟩, fun h => by cases h.1⟩

/-- A message is recorded by an active channel only, which is not a closed one. -/
theorem Channel.follows_routed (hc : c.Settled) (fromJob : JobId) (content : String) :
    c.Follows (c.routed w fromJob content) ∧ (c.routed w fromJob content).Settled := by
  unfold Channel.routed
  split
  · rename_i hears
    have hopen : c.closed ≠ true := fun h => hc ⟨hears.1, h⟩
    -- the last message closes the channel after it is recorded
    split
    · exact ⟨⟨List.prefix_append _ _, fun _ => rfl, fun h => absurd h hopen⟩, fun h => by cases h.1⟩
    · exact ⟨⟨List.prefix_append _ _, fun h => absurd h hopen, fun h => absurd h hopen⟩,
        fun h => hopen h.2⟩
  · exact ⟨.refl c, hc⟩

/-- One change keeps the flags apart. -/
theorem Channel.Moved.follows (h : c.Moved w c') (hc : c.Settled) : c.Follows c' ∧ c'.Settled := by
  cases h with
  | same => exact ⟨.refl c, hc⟩
  | activated hinactive hopen =>
    have hno : c.closed ≠ true := by
      rw [hopen]
      decide
    exact ⟨⟨List.prefix_refl _, fun h => absurd h hno, fun _ => ⟨rfl, rfl, rfl⟩⟩, fun h => hno h.2⟩
  | routed fromJob content => exact Channel.follows_routed hc fromJob content
  | closed => exact c.follows_close

/-- Hydration opens nothing: it makes an open channel inactive and leaves a closed one. -/
theorem Channel.follows_recover (hc : c.Settled) : c.Follows c.recover ∧ c.recover.Settled := by
  unfold Channel.recover
  split
  · exact ⟨.refl c, hc⟩
  · exact ⟨⟨List.prefix_refl _, id, fun _ => ⟨rfl, rfl, rfl⟩⟩, fun h => by cases h.1⟩

/-- A channel of the engine is on disk once all are persisted. -/
theorem getChannel_persistChannels (db : SqlitePersistence)
    (hc : e.store.getChannel k = some c) : (db.persistChannels w e).getChannel k = some c := by
  have hfold : ∀ (l : List Channel) (db : SqlitePersistence),
      (∀ ch ∈ l, e.store.getChannel ch.channelId = some ch) →
      c ∈ l ∨ db.getChannel k = some c →
      (l.foldl SqlitePersistence.persistChannel db).getChannel k = some c := by
    intro l
    induction l with
    | nil =>
      intro db _ h
      exact h.resolve_left (by simp)
    | cons ch l ih =>
      intro db hl h
      refine ih (db.persistChannel ch) (fun ch' h' => hl ch' (List.mem_cons_of_mem _ h')) ?_
      rw [SqlitePersistence.getChannel_persistChannel]
      have hch := hl ch List.mem_cons_self
      split
      · rename_i hk
        rw [hk, hch] at hc
        exact Or.inr hc
      · rename_i hk
        refine h.imp_left fun hmem => ?_
        rcases List.mem_cons.mp hmem with hcc | hmem
        · exact absurd (hcc ▸ (RunStore.channelId_of_getChannel hc).symm) hk
        · exact hmem
  refine hfold _ db (fun ch hch => Table.mem_valuesIn.mp hch) (Or.inl ?_)
  refine Table.mem_valuesIn.mpr ?_
  have hid : c.channelId = k := RunStore.channelId_of_getChannel hc
  show e.store.getChannel c.channelId = some c
  rw [hid, hc]

/-- What one operation makes of a channel. -/
theorem channelStep_follows (x : World × ChannelOp) (hget : e.store.getChannel k = some c)
    (hc : c.Settled) :
    ∃ c', (e.channelStep x).store.getChannel k = some c' ∧ c.Follows c' ∧ c'.Settled := by
  obtain ⟨w, op⟩ := x
  -- an operation that changes one channel, or some
  have hmapped : ∀ {e' : OrchestratorEngine} {g : Channel → Channel} {p : Prop} [Decidable p],
      e'.store.getChannel k =
        (if p then (e.store.getChannel k).map g else e.store.getChannel k) →
      c.Moved w (g c) →
      ∃ c', e'.store.getChannel k = some c' ∧ c.Follows c' ∧ c'.Settled := by
    intro e' g p _ heq hg
    rw [hget] at heq
    split at heq
    · exact ⟨g c, heq, hg.follows hc⟩
    · exact ⟨c, heq, .refl c, hc⟩
  cases op with
  | activate =>
    have heq := getChannel_activate w e k
    rw [hget] at heq
    refine ⟨_, heq, ?_⟩
    dsimp only
    split
    · rename_i hact
      simp only [Bool.and_eq_true, activatable, Bool.not_eq_true'] at hact
      exact (Channel.Moved.activated (w := w) c hact.2.1.1 hact.2.1.2).follows hc
    · exact ⟨.refl c, hc⟩
  | route channelId fromJob content =>
    have heq := getChannel_route w e channelId fromJob content k
    by_cases hk : k = channelId
    · subst hk
      exact hmapped heq (.routed c fromJob content)
    · rw [if_neg hk] at heq
      exact ⟨c, heq.trans hget, .refl c, hc⟩
  | done channelId fromJob =>
    have heq := getChannel_done e channelId fromJob k
    by_cases hk : k = channelId
    · subst hk
      refine hmapped heq ?_
      split
      · exact .closed c
      · exact .same c
    · rw [if_neg hk] at heq
      exact ⟨c, heq.trans hget, .refl c, hc⟩
  | peerFailure channelId failedJob =>
    have heq := getChannel_peerFailure e channelId failedJob k
    by_cases hk : k = channelId
    · subst hk
      exact hmapped heq (.closed c)
    · rw [if_neg hk] at heq
      exact ⟨c, heq.trans hget, .refl c, hc⟩
  | restart db =>
    refine ⟨c.recover, ?_, Channel.follows_recover hc⟩
    show (hydrate w (some (db.persistChannels w e)) e.ids).store.getChannel k = _
    rw [getChannel_hydrate, getChannel_persistChannels db hget]
    rfl

/-- What a run of operations makes of a channel. -/
theorem channelRun_follows (is : List (World × ChannelOp)) (hget : e.store.getChannel k = some c)
    (hc : c.Settled) :
    ∃ c', (run channelStep e is).store.getChannel k = some c' ∧ c.Follows c' ∧ c'.Settled := by
  induction is generalizing e c with
  | nil => exact ⟨c, hget, .refl c, hc⟩
  | cons x is ih =>
    obtain ⟨c₁, hget₁, hfollows, hc₁⟩ := channelStep_follows x hget hc
    obtain ⟨c₂, hget₂, hfollows', hc₂⟩ := ih hget₁ hc₁
    exact ⟨c₂, hget₂, hfollows.trans hfollows', hc₂⟩

/-- Closing is final. In every state that a channel reaches over operations and restarts it
is not both active and closed and its history has only grown; and if it is closed there, then
in every later state it is closed and not active, with the same history, round and turn. -/
theorem closing_final (is js : List (World × ChannelOp)) (hget : e.store.getChannel k = some c)
    (hc : c.Settled) :
    ∃ c₁ c₂, (run channelStep e is).store.getChannel k = some c₁ ∧
      (run channelStep e (is ++ js)).store.getChannel k = some c₂ ∧
      c₁.Settled ∧ c.history <+: c₁.history ∧ c₁.history <+: c₂.history ∧
      (c₁.closed = true → c₂.closed = true ∧ c₂.active = false ∧ c₂.history = c₁.history ∧
        c₂.currentRound = c₁.currentRound ∧ c₂.currentSpeakerIdx = c₁.currentSpeakerIdx) := by
  obtain ⟨c₁, hget₁, hfollows₁, hc₁⟩ := channelRun_follows is hget hc
  obtain ⟨c₂, hget₂, hfollows₂, hc₂⟩ := channelRun_follows js hget₁ hc₁
  rw [← run_append] at hget₂
  refine ⟨c₁, c₂, hget₁, hget₂, hc₁, hfollows₁.history, hfollows₂.history, ?_⟩
  intro hclosed
  have hclosed₂ := hfollows₂.closed hclosed
  refine ⟨hclosed₂, ?_, hfollows₂.frozen hclosed⟩
  rw [← Bool.not_eq_true]
  exact fun hactive => hc₂ ⟨hactive, hclosed₂⟩

end

/-- An active channel between two jobs. -/
def openChannel : Channel :=
  { channelId := "ch", runId := "run_1", participants := ["job_1", "job_2"], mode := .turnBased
    maxRounds := some 1, onPeerFailure := .continue, currentRound := 0, currentSpeakerIdx := 1
    active := true, closed := false, history := [], initialMessage := none }

def channelEngine : OrchestratorEngine :=
  { new 4 with store := { (new 4).store with channels := Table.empty.put openChannel } }

/-- The last message closes the channel, for the scan and a restart too. -/
theorem closing_final_last :
    let e := run channelStep channelEngine [(World.bare, .route "ch" "job_2" "over")]
    ∃ c₁ c₂, e.store.getChannel "ch" = some c₁ ∧ c₁.closed = true ∧
      (run channelStep e [(World.bare, .activate),
        (World.bare, .restart SqlitePersistence.new)]).store.getChannel "ch" = some c₂ ∧
      c₂.active = false ∧ c₂.history = c₁.history := by
  intro e
  obtain ⟨c₁, c₂, hget₁, hget₂, _, _, _, hfinal⟩ :=
    closing_final (e := channelEngine) (k := "ch") (c := openChannel)
      [(World.bare, .route "ch" "job_2" "over")]
      [(World.bare, .activate), (World.bare, .restart SqlitePersistence.new)] rfl (by decide)
  rw [run_append] at hget₂
  have hclosed : (e.store.getChannel "ch").map (·.closed) = some true := by decide
  rw [show e.store.getChannel "ch" = some c₁ from hget₁] at hclosed
  have hclosed' : c₁.closed = true := Option.some.inj hclosed
  obtain ⟨_, hactive, hhistory, _⟩ := hfinal hclosed'
  exact ⟨c₁, c₂, hget₁, hclosed', hget₂, hactive, hhistory⟩

end ZeptoPM
