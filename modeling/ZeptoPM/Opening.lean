import ZeptoPM.Quiet

/- The activation scan at the end of a handler. It lists every channel it activates
   once, so that each gets its initial message once, if it has one to send and its first
   participant has a worker. -/
namespace ZeptoPM
open OrchestratorEngine Daemon

/-! ## Every channel is activated once -/

/-- The channels listed so far are listed once, and are active. -/
structure ListedOnce (acc : List ChannelId × RunStore) : Prop where
  nodup : acc.1.Nodup
  active : ∀ k ∈ acc.1, ∃ c, acc.2.getChannel k = some c ∧ c.active = true

section
variable {w : World} {acc : List ChannelId × RunStore}

theorem getChannel_activateChannel {chId k : ChannelId} (hne : k ≠ chId) :
    (activateChannel acc chId).2.getChannel k = acc.2.getChannel k := by
  unfold activateChannel
  split
  · rfl
  · split
    · exact (RunStore.getChannel_alterChannel ..).trans (if_neg hne)
    · rfl

theorem ListedOnce.channel (h : ListedOnce acc) {chId : ChannelId}
    (hoff : ∀ c, acc.2.getChannel chId = some c → c.active = false) :
    ListedOnce (activateChannel acc chId) := by
  have hnew : chId ∉ acc.1 := by
    intro hmem
    obtain ⟨c, hc, hactive⟩ := h.active chId hmem
    rw [hoff c hc] at hactive
    cases hactive
  unfold activateChannel
  cases hget : acc.2.getChannel chId with
  | none => exact h
  | some ch =>
    dsimp only
    split
    · refine ⟨?_, ?_⟩
      · rw [List.nodup_append]
        refine ⟨h.nodup, List.nodup_singleton _, ?_⟩
        intro a ha b hb hab
        rw [List.mem_singleton] at hb
        exact hnew (hb ▸ hab ▸ ha)
      · intro k hk
        show ∃ c, (acc.2.alterChannel chId _ _).getChannel k = some c ∧ c.active = true
        rw [RunStore.getChannel_alterChannel, hget]
        by_cases heq : k = chId
        · exact ⟨ch.activate, if_pos heq, rfl⟩
        · rw [if_neg heq]
          rcases List.mem_append.mp hk with hk | hk
          · exact h.active k hk
          · exact absurd (List.mem_singleton.mp hk) heq
    · exact h

theorem ListedOnce.channels (l : List ChannelId) : ∀ {acc : List ChannelId × RunStore},
    ListedOnce acc → l.Nodup →
      (∀ k ∈ l, ∀ c, acc.2.getChannel k = some c → c.active = false) →
      ListedOnce (l.foldl activateChannel acc) := by
  induction l with
  | nil => exact fun h _ _ => h
  | cons chId l ih =>
    intro acc h hnd hoff
    rw [List.nodup_cons] at hnd
    refine ih (h.channel (hoff chId List.mem_cons_self)) hnd.2 ?_
    intro k hk c hc
    have hne : k ≠ chId := fun heq => hnd.1 (heq ▸ hk)
    rw [getChannel_activateChannel hne] at hc
    exact hoff k (List.mem_cons_of_mem _ hk) c hc

theorem ListedOnce.run (h : ListedOnce acc) (r : RunId) :
    ListedOnce (activateRunChannels w acc r) := by
  have hids : ((acc.2.listRunChannels w r).map (·.channelId)).Nodup :=
    ((List.filter_sublist).map _).nodup (acc.2.channels.valuesIn_nodup_keys _)
  unfold activateRunChannels
  refine ListedOnce.channels _ h (((List.filter_sublist).map _).nodup hids) ?_
  intro k hk c hc
  obtain ⟨c₀, hmem, rfl⟩ := List.mem_map.mp hk
  rw [List.mem_filter, RunStore.mem_listRunChannels] at hmem
  cases hmem.1.1.symm.trans hc
  have hflags := hmem.2
  simp only [Bool.and_eq_true, Bool.not_eq_true'] at hflags
  exact hflags.1

theorem nodup_activateReadyChannels (w : World) (e : OrchestratorEngine) :
    (e.activateReadyChannels w).1.Nodup := by
  have hloop : ∀ (rs : List RunId) (acc : List ChannelId × RunStore), ListedOnce acc →
      ListedOnce (rs.foldl (activateRunChannels w) acc) := by
    intro rs
    induction rs with
    | nil => exact fun _ h => h
    | cons r rs ih => exact fun acc h => ih _ (h.run r)
  exact (hloop (e.activeRunIds w) ([], e.store) ⟨List.nodup_nil, fun _ h => by cases h⟩).nodup

end

/-! ## The initial messages -/

/-- The worker that gets the initial message of an activated channel, if one does. -/
def Channel.opening (managed : HashMap String InternalAgent) (c : Channel) : List String :=
  match c.history, c.initialMessage, c.participants with
  | [], some _, jobId :: _ =>
    if managed.contains (workerName jobId) then [workerName jobId] else []
  | _, _, _ => []

section
variable {w : World} {id : ChannelId} {r : RunId} {d : Daemon}

theorem managed_sendInitial (d : Daemon) (chId : ChannelId) :
    (d.sendInitial chId).managed = d.managed := by
  unfold sendInitial
  split
  · rfl
  · split
    · split <;> rfl
    · rfl

theorem sentOn_sendInitial (d : Daemon) (chId id : ChannelId) :
    (d.sendInitial chId).sentOn id = d.sentOn id ++
      if id = chId then ((d.channel id).map (Channel.opening d.managed)).getD [] else [] := by
  unfold sendInitial
  by_cases hid : id = chId
  · rw [if_pos hid, ← hid]
    have hnone : d.sentOn id = d.sentOn id ++ [] := (List.append_nil _).symm
    show _ = _ ++ ((d.engine.store.getChannel id).map (Channel.opening d.managed)).getD []
    cases d.engine.store.getChannel id with
    | none => exact hnone
    | some ch =>
      show _ = _ ++ ch.opening d.managed
      unfold Channel.opening
      dsimp only
      generalize ch.history = history
      generalize ch.initialMessage = initial
      generalize ch.participants = participants
      cases history with
      | cons message history => exact hnone
      | nil =>
        cases initial with
        | none => exact hnone
        | some message =>
          cases participants with
          | nil => exact hnone
          | cons jobId participants =>
            dsimp only
            split
            · rw [sentOn_send, Effect.sendsOn, if_pos rfl]
              rfl
            · exact hnone
  · rw [if_neg hid, List.append_nil]
    have hother : ∀ worker message, (d.send (.sendChannelMessage worker chId message)).sentOn id =
        d.sentOn id := by
      intro worker message
      rw [sentOn_send, Effect.sendsOn, if_neg (Ne.symm hid)]
      exact List.append_nil _
    split
    · rfl
    · split
      · split
        · exact hother _ _
        · rfl
      · rfl

/-- Each channel of the list gets its initial message once. -/
theorem sentOn_sendInitials (id : ChannelId) (l : List ChannelId) : ∀ (d : Daemon), l.Nodup →
    (l.foldl sendInitial d).sentOn id = d.sentOn id ++
      if id ∈ l then ((d.channel id).map (Channel.opening d.managed)).getD [] else [] := by
  induction l with
  | nil => exact fun d _ => (List.append_nil _).symm
  | cons chId l ih =>
    intro d hnd
    rw [List.nodup_cons] at hnd
    rw [List.foldl_cons, ih _ hnd.2, sentOn_sendInitial, managed_sendInitial,
      (untouched_sendInitial d chId).channel, List.append_assoc]
    congr 1
    by_cases hid : id = chId
    · subst hid
      rw [if_pos rfl, if_neg hnd.1, if_pos List.mem_cons_self]
      exact List.append_nil _
    · simp only [hid, if_false, List.nil_append, List.mem_cons, false_or]

theorem managed_sendInitials (l : List ChannelId) : ∀ d : Daemon,
    (l.foldl sendInitial d).managed = d.managed := by
  induction l with
  | nil => exact fun _ => rfl
  | cons chId l ih => exact fun d => (ih _).trans (managed_sendInitial d chId)

/-- Nothing but the scan and the persisting follows the spawn loop. -/
theorem managed_finish (d : Daemon) : (finish w r d).managed = (spawnLoop w r d).managed :=
  managed_sendInitials _ _

theorem calls_finish (d : Daemon) : (finish w r d).calls = (spawnLoop w r d).calls ++
    [(w, .call r .activateReadyChannels), (w, .persistRunState r)] := by
  have hscan := untouched_foldl untouched_sendInitial
    ((spawnLoop w r d).engine.activateReadyChannels w).1
    ((spawnLoop w r d).act w (.call r .activateReadyChannels))
  show (activateChannels w r (spawnLoop w r d)).calls ++ _ = _
  unfold activateChannels
  rw [hscan.2]
  show (_ ++ [_]) ++ [_] = _
  rw [List.append_assoc]
  rfl

/-- The end of a handler activates the channel and sends its initial message, or leaves
the channel and its messages as the spawn loop has left them. -/
theorem finish_cases (id : ChannelId) (d : Daemon) :
    (∃ c, (spawnLoop w r d).channel id = some c ∧ (spawnLoop w r d).engine.Activates c ∧
      (finish w r d).channel id = some c.activate ∧ (finish w r d).sentOn id =
        (spawnLoop w r d).sentOn id ++ c.opening (finish w r d).managed) ∨
      (finish w r d).channel id = (spawnLoop w r d).channel id ∧
        (finish w r d).sentOn id = (spawnLoop w r d).sentOn id := by
  have hmanaged := managed_finish (w := w) (r := r) d
  generalize hd₁ : spawnLoop w r d = d₁ at hmanaged ⊢
  have hscan := untouched_foldl untouched_sendInitial (d₁.engine.activateReadyChannels w).1
    (d₁.act w (.call r .activateReadyChannels))
  have hsends : (finish w r d).sentOn id = d₁.sentOn id ++
      if id ∈ (d₁.engine.activateReadyChannels w).1 then
        (((d₁.act w (.call r .activateReadyChannels)).channel id).map
          (Channel.opening d₁.managed)).getD []
      else [] := by
    show ((activateChannels w r (spawnLoop w r d)).act w (.persistRunState r)).sentOn id = _
    rw [hd₁]
    exact sentOn_sendInitials id _ _ (nodup_activateReadyChannels w d₁.engine)
  have hchannel : (finish w r d).channel id =
      (d₁.act w (.call r .activateReadyChannels)).channel id := by
    show ((activateChannels w r (spawnLoop w r d)).act w (.persistRunState r)).channel id = _
    rw [hd₁]
    exact hscan.channel id
  have hget : (d₁.act w (.call r .activateReadyChannels)).channel id =
      (d₁.channel id).map (fun c => if (d₁.engine.activeRunIds w).contains c.runId &&
        activatable d₁.engine.store c then c.activate else c) := getChannel_activate w d₁.engine id
  by_cases hmem : id ∈ (d₁.engine.activateReadyChannels w).1
  · left
    obtain ⟨c, hc, hact⟩ := mem_activateReadyChannels.mp hmem
    have hafter : (d₁.act w (.call r .activateReadyChannels)).channel id = some c.activate := by
      rw [hget, show d₁.channel id = some c from hc, Option.map_some,
        if_pos ((activates_iff (w := w)).mpr hact)]
    refine ⟨c, hc, hact, hchannel.trans hafter, ?_⟩
    rw [hsends, if_pos hmem, hafter, hmanaged]
    rfl
  · right
    refine ⟨hchannel.trans (hget.trans ?_), ?_⟩
    · cases hc : d₁.channel id with
      | none => rfl
      | some c =>
        have hno : ¬ ((d₁.engine.activeRunIds w).contains c.runId &&
            activatable d₁.engine.store c) = true :=
          fun h => hmem (mem_activateReadyChannels.mpr ⟨c, hc, activates_iff.mp h⟩)
        rw [Option.map_some, if_neg hno]
    · rw [hsends, if_neg hmem]
      exact List.append_nil _

end

end ZeptoPM
