import ZeptoPM.Bridge

/- Every reply sender given to a bridge is used exactly once. `Accounted` is the
   invariant: a sender is either pending, under one id, or used up. While a sender
   is pending no response has carried its id (`pending_step`), so what uses it up is
   the first such response, or the end of the loop; only a counter that has come
   round to the same id can drop it before. -/
namespace ZeptoPM.Bridge

/-- The senders that have been used. -/
def used (b : Bridge) : List Nat := b.resolved.map (·.1)

/-- Every sender received is pending under one id or has been used, once. -/
structure Accounted (b : Bridge) : Prop where
  nodup : b.used.Nodup
  lt : ∀ n ∈ b.used, n < b.received
  pendingLt : ∀ id n, b.pending.get id = some n → n < b.received
  apart : ∀ id n, b.pending.get id = some n → n ∉ b.used
  inj : ∀ id id' n, b.pending.get id = some n → b.pending.get id' = some n → id = id'
  covered : ∀ n < b.received, n ∈ b.used ∨ ∃ id, b.pending.get id = some n
  closed : b.phase ≠ .looping → ∀ id, b.pending.get id = none

/-- What becomes of senders does not depend on the rest. -/
structure SameDesk (b b' : Bridge) : Prop where
  phase : b'.phase = b.phase
  pending : b'.pending = b.pending
  received : b'.received = b.received
  resolved : b'.resolved = b.resolved

section
variable {b b' : Bridge} {id : String} {n : Nat} {r : Resolution}

theorem SameDesk.refl (b : Bridge) : SameDesk b b := ⟨rfl, rfl, rfl, rfl⟩

theorem SameDesk.trans {b'' : Bridge} (h : SameDesk b b') (h' : SameDesk b' b'') :
    SameDesk b b'' :=
  ⟨h'.1.trans h.1, h'.2.trans h.2, h'.3.trans h.3, h'.4.trans h.4⟩

theorem SameDesk.used (h : SameDesk b b') : b'.used = b.used := by
  unfold Bridge.used
  rw [h.resolved]

theorem SameDesk.accounted (h : SameDesk b b') (hb : Accounted b) : Accounted b' where
  nodup := by rw [h.used]; exact hb.nodup
  lt := by rw [h.used, h.received]; exact hb.lt
  pendingLt := by rw [h.pending, h.received]; exact hb.pendingLt
  apart := by rw [h.pending, h.used]; exact hb.apart
  inj := by rw [h.pending]; exact hb.inj
  covered := by rw [h.pending, h.used, h.received]; exact hb.covered
  closed := by rw [h.phase, h.pending]; exact hb.closed

theorem sameDesk_update (b : Bridge) (status : AgentStatus) (error : Option String) :
    SameDesk b (b.update status error) := ⟨rfl, rfl, rfl, rfl⟩

theorem sameDesk_forward (b : Bridge) (event : Json) : SameDesk b (b.forward event) := by
  unfold forward
  split <;> exact ⟨rfl, rfl, rfl, rfl⟩

theorem sameDesk_channelResponse (b : Bridge) (channelId : ChannelId)
    (reply : Except String String) : SameDesk b (b.channelResponse channelId reply) := by
  unfold channelResponse
  split
  · exact .refl b
  · exact sameDesk_forward ..

theorem sameDesk_writeStop (b : Bridge) (written : Bool) : SameDesk b (b.writeStop written) := by
  unfold writeStop
  split <;> exact ⟨rfl, rfl, rfl, rfl⟩

theorem sameDesk_nextId (b : Bridge) : SameDesk b b.nextId := ⟨rfl, rfl, rfl, rfl⟩

@[simp] theorem used_resolve (b : Bridge) (n : Nat) (r : Resolution) :
    (b.resolve n r).used = b.used ++ [n] := by
  simp [used, resolve]

/-- The senders that are pending. -/
def waiting (b : Bridge) : List Nat := b.pending.keys.filterMap b.pending.get

theorem mem_waiting : n ∈ b.waiting ↔ ∃ id, b.pending.get id = some n := by
  unfold waiting
  rw [List.mem_filterMap]
  refine ⟨?_, ?_⟩
  · intro h
    obtain ⟨id, _, hid⟩ := h
    exact ⟨id, hid⟩
  · intro h
    obtain ⟨id, hid⟩ := h
    exact ⟨id, HashMap.mem_keys.mpr ⟨n, hid⟩, hid⟩

theorem waiting_nodup (hb : Accounted b) : b.waiting.Nodup := by
  refine List.Nodup.filterMap ?_ b.pending.keys_nodup
  intro id id' n hn hn'
  exact hb.inj id id' n hn hn'

theorem used_leave (b : Bridge) : b.leave.used = b.used ++ b.waiting := by
  simp [used, leave, waiting, Function.comp_def]

/-! ## The invariant -/

theorem accounted_leave (hb : Accounted b) : Accounted b.leave where
  nodup := by
    rw [used_leave, List.nodup_append]
    refine ⟨hb.nodup, waiting_nodup hb, ?_⟩
    intro n hn m hm hnm
    obtain ⟨id, hid⟩ := mem_waiting.mp hm
    exact hb.apart id m hid (hnm ▸ hn)
  lt := by
    intro n hn
    rw [used_leave] at hn
    rcases List.mem_append.mp hn with hmem | hmem
    · exact hb.lt n hmem
    · obtain ⟨id, hid⟩ := mem_waiting.mp hmem
      exact hb.pendingLt id n hid
  pendingLt := fun _ _ h => by cases h
  apart := fun _ _ h => by cases h
  inj := fun _ _ _ h => by cases h
  covered := by
    intro n hn
    rw [used_leave]
    left
    rcases hb.covered n hn with h | h
    · exact List.mem_append_left _ h
    · exact List.mem_append_right _ (mem_waiting.mpr h)
  closed := fun _ _ => rfl

/-- A pending sender is used. -/
theorem accounted_answer (hb : Accounted b) (hp : b.pending.get id = some n) (r : Resolution) :
    Accounted (({ b with pending := b.pending.remove id } : Bridge).resolve n r) where
  nodup := by
    rw [used_resolve]
    exact List.nodup_append.mpr ⟨hb.nodup, List.nodup_singleton n, fun m hm k hk hmk =>
      hb.apart id n hp (List.mem_singleton.mp hk ▸ hmk ▸ hm)⟩
  lt := by
    intro m hm
    rw [used_resolve] at hm
    rcases List.mem_append.mp hm with hmem | hmem
    · exact hb.lt m hmem
    · rw [List.mem_singleton.mp hmem]
      exact hb.pendingLt id n hp
  pendingLt := fun id' m h => hb.pendingLt id' m (HashMap.get_of_get_remove h).2
  apart := by
    intro id' m h hm
    obtain ⟨hne, hget⟩ := HashMap.get_of_get_remove h
    rw [used_resolve] at hm
    rcases List.mem_append.mp hm with hmem | hmem
    · exact hb.apart id' m hget hmem
    · rw [List.mem_singleton.mp hmem] at hget
      exact hne (hb.inj id' id n hget hp)
  inj := fun id₁ id₂ m h₁ h₂ =>
    hb.inj id₁ id₂ m (HashMap.get_of_get_remove h₁).2 (HashMap.get_of_get_remove h₂).2
  covered := by
    intro m hm
    rw [used_resolve]
    rcases hb.covered m hm with h | ⟨id', h⟩
    · exact Or.inl (List.mem_append_left _ h)
    · by_cases hid : id' = id
      · rw [hid, hp] at h
        cases h
        exact Or.inl (List.mem_append_right _ (List.mem_singleton_self n))
      · refine Or.inr ⟨id', ?_⟩
        show (b.pending.remove id).get id' = some m
        rw [HashMap.get_remove, if_neg hid, h]
  closed := by
    intro h id'
    show (b.pending.remove id).get id' = none
    rw [HashMap.get_remove, hb.closed h id', ite_self]

/-- A sender is received under an id that is free. -/
theorem accounted_receive (id : String) (hb : Accounted b) (hl : b'.phase = .looping)
    (hfree : b.pending.get id = none)
    (hp : ∀ k, b'.pending.get k = if k = id then some b.received else b.pending.get k)
    (hn : b'.received = b.received + 1) (hr : b'.used = b.used) : Accounted b' where
  nodup := by rw [hr]; exact hb.nodup
  lt := by
    intro m hm
    rw [hr] at hm
    have := hb.lt m hm
    omega
  pendingLt := by
    intro k m h
    rw [hp] at h
    split at h
    · cases h
      omega
    · have := hb.pendingLt k m h
      omega
  apart := by
    intro k m h
    rw [hp] at h
    rw [hr]
    split at h
    · cases h
      intro hm
      exact Nat.lt_irrefl _ (hb.lt _ hm)
    · exact hb.apart k m h
  inj := by
    intro k k' m h h'
    rw [hp] at h h'
    split at h <;> split at h'
    · rename_i hk hk'
      rw [hk, hk']
    · cases h
      exact absurd (hb.pendingLt k' _ h') (Nat.lt_irrefl _)
    · cases h'
      exact absurd (hb.pendingLt k _ h) (Nat.lt_irrefl _)
    · exact hb.inj k k' m h h'
  covered := by
    intro m hm
    rw [hr]
    by_cases hnew : m = b.received
    · exact Or.inr ⟨id, by rw [hp, if_pos rfl, hnew]⟩
    · rcases hb.covered m (by omega) with h | ⟨k, h⟩
      · exact Or.inl h
      · refine Or.inr ⟨k, ?_⟩
        rw [hp, if_neg, h]
        intro hk
        rw [hk, hfree] at h
        cases h
  closed := fun h => absurd hl h

theorem accounted_hold (hb : Accounted b) (hl : b.phase = .looping) (id : String) :
    Accounted (b.hold id) := by
  cases hp : b.pending.get id with
  | none =>
    refine accounted_receive id hb ?_ hp ?_ ?_ ?_
    all_goals unfold Bridge.hold; rw [hp]
    · exact hl
    · intro k
      exact HashMap.get_insert ..
    · rfl
  | some n =>
    -- the sender that waits under the id is dropped before the new one takes its place
    refine accounted_receive id (accounted_answer hb hp .dropped) ?_ ?_ ?_ ?_ ?_
    · unfold Bridge.hold
      rw [hp]
      exact hl
    · exact (HashMap.get_remove ..).trans (if_pos rfl)
    · intro k
      unfold Bridge.hold
      rw [hp]
      show (b.pending.insert id b.received).get k =
        if k = id then some b.received else (b.pending.remove id).get k
      rw [HashMap.get_insert, HashMap.get_remove]
      split <;> rfl
    · unfold Bridge.hold
      rw [hp]
      rfl
    · unfold Bridge.hold
      rw [hp]
      rfl

/-- A bridge that has left its loop drops what it is given. -/
theorem accounted_drop (hb : Accounted b) (hl : b.phase ≠ .looping) :
    Accounted { b.resolve b.received .dropped with received := b.received + 1 } := by
  have hnone := hb.closed hl
  have hused : ∀ m, m ∈ (b.resolve b.received .dropped).used ↔ m ∈ b.used ∨ m = b.received := by
    intro m
    rw [used_resolve, List.mem_append, List.mem_singleton]
  refine ⟨?_, ?_, ?_, ?_, ?_, ?_, fun _ => hnone⟩
  · show (b.resolve b.received .dropped).used.Nodup
    rw [used_resolve]
    exact List.nodup_append.mpr ⟨hb.nodup, List.nodup_singleton _, fun m hm k hk hmk =>
      Nat.lt_irrefl b.received (List.mem_singleton.mp hk ▸ hb.lt k (hmk ▸ hm))⟩
  · intro m hm
    show m < b.received + 1
    rcases (hused m).mp hm with h | h
    · exact Nat.lt_succ_of_lt (hb.lt m h)
    · omega
  · intro id m h
    cases (hnone id).symm.trans h
  · intro id m h
    cases (hnone id).symm.trans h
  · intro id id' m h
    cases (hnone id).symm.trans h
  · intro m hm
    refine Or.inl ((hused m).mpr ?_)
    rcases Nat.lt_succ_iff_lt_or_eq.mp hm with h | h
    · rcases hb.covered m h with hin | ⟨id, hid⟩
      · exact Or.inl hin
      · rw [hnone id] at hid
        cases hid
    · exact Or.inr h

theorem piecewise_accounted : Piecewise (fun b b' => Accounted b → Accounted b') where
  refl := fun _ hb => hb
  trans := fun h h' hb => h' (h hb)
  update := fun b _ _ _ => SameDesk.accounted (b := b) ⟨rfl, rfl, rfl, rfl⟩
  emit := fun b _ => SameDesk.accounted (b := b) ⟨rfl, rfl, rfl, rfl⟩
  leave := fun _ hb => accounted_leave hb
  tell := fun b _ => SameDesk.accounted (b := b) ⟨rfl, rfl, rfl, rfl⟩
  answer := fun _ _ _ r hp hb => accounted_answer hb hp r
  forget := fun b _ => SameDesk.accounted (b := b) ⟨rfl, rfl, rfl, rfl⟩
  drop := fun _ hl hb => accounted_drop hb hl
  finish := fun _ hl hb =>
    ⟨hb.nodup, hb.lt, hb.pendingLt, hb.apart, hb.inj, hb.covered, fun _ => hb.closed hl⟩

theorem accounted_userMessage (hb : Accounted b) (hl : b.phase = .looping) (message : String)
    (reply written : Bool) : Accounted (b.userMessage message reply written) := by
  unfold userMessage
  refine piecewise_accounted.write _ _ _ ?_
  have hnext := (sameDesk_nextId b).accounted hb
  split
  · exact accounted_hold hnext hl _
  · exact hnext

theorem accounted_channelMessage (hb : Accounted b) (channelId message : String)
    (written : Bool) : Accounted (b.channelMessage channelId message written) := by
  unfold channelMessage
  refine piecewise_accounted.write _ _ _ ?_
  have hsame : SameDesk b { b.nextId with
      pendingChannel := b.nextId.pendingChannel.insert (reqId b.nextId.reqCounter) channelId } :=
    ⟨rfl, rfl, rfl, rfl⟩
  exact hsame.accounted hb

theorem accounted_step (hb : Accounted b) (i : BridgeInput) : Accounted (b.step i) := by
  by_cases htakes : b.phase = .looping ∧ takesId i = true
  · obtain ⟨hl, hid⟩ := htakes
    rw [step_looping hl]
    cases i with
    | userMessage message reply written => exact accounted_userMessage hb hl ..
    | channelMessage channelId message written => exact accounted_channelMessage hb ..
    | _ => cases hid
  · exact piecewise_accounted.step htakes hb

theorem accounted_workerBridge (agentName : String) (orchTx : Bool) (orchJobId : Option JobId)
    (start : BridgeStart) : Accounted (workerBridge agentName orchTx orchJobId start) := by
  have hempty : ∀ b : Bridge, b.pending = .empty → b.received = 0 → b.resolved = [] →
      Accounted b := by
    intro b hp hn hr
    have hused : b.used = [] := by rw [used, hr]; rfl
    have hnone : ∀ id, b.pending.get id = none := fun id => by rw [hp]; rfl
    exact
      { nodup := by rw [hused]; exact List.nodup_nil
        lt := by rw [hused]; exact fun _ h => absurd h List.not_mem_nil
        pendingLt := fun id n h => by cases (hnone id).symm.trans h
        apart := fun id n h => by cases (hnone id).symm.trans h
        inj := fun id _ n h => by cases (hnone id).symm.trans h
        covered := by rw [hn]; exact fun _ h => absurd h (Nat.not_lt_zero _)
        closed := fun _ => hnone }
  cases start <;> exact hempty _ rfl rfl rfl

theorem accounted_run (hb : Accounted b) (is : List BridgeInput) : Accounted (run step b is) := by
  induction is generalizing b with
  | nil => exact hb
  | cons i is ih => exact ih (accounted_step hb i)

end

/-! ## What uses a sender up -/

/-- The reply in the input if that is a response with the id. -/
def answers (id : String) : BridgeInput → Option (Except String String)
  | .output msg =>
    if msg.strOr "type" "" = "chat_response" ∧ msg.strOr "id" "" = id then some (replyOf msg)
    else none
  | _ => none

/-- The loop goes on, and the sender waits for a response with the id. -/
def Waits (id : String) (n : Nat) (b : Bridge) : Prop :=
  b.phase = .looping ∧ b.pending.get id = some n

/-- What the input uses a sender for that waits for a response with the id. -/
def Uses (b : Bridge) (id : String) (i : BridgeInput) : Resolution → Prop
  | .answered reply => answers id i = some reply
  | .exited error =>
    error = exitError b.agentName ∧ answers id i = none ∧ (b.step i).phase ≠ .looping
  | .dropped => answers id i = none ∧ takesId i = true ∧ reqId (u64Succ b.reqCounter) = id

section
variable {b b' : Bridge} {id : String} {n : Nat}

theorem SameDesk.waits (h : SameDesk b b') (hw : Waits id n b) : Waits id n b' := by
  unfold Waits
  rw [h.phase, h.pending]
  exact hw

theorem exited_leave (hw : Waits id n b) :
    (n, .exited (exitError b.agentName)) ∈ b.leave.resolved :=
  List.mem_append_right _ (List.mem_map_of_mem (mem_waiting.mpr ⟨id, hw.2⟩))

theorem leave_phase (b : Bridge) : b.leave.phase ≠ .looping := BridgePhase.noConfusion

/-- Writing a line keeps a sender waiting unless the line cannot be written. -/
theorem waits_write (hw : Waits id n b) (line : Json) (written : Bool) :
    Waits id n (b.write line written) ∨
      (n, .exited (exitError b.agentName)) ∈ (b.write line written).resolved ∧
        (b.write line written).phase ≠ .looping := by
  unfold write
  cases written with
  | true => exact Or.inl hw
  | false => exact Or.inr ⟨exited_leave hw, leave_phase b⟩

theorem waits_hold (hw : Waits id n b) {id' : String} (hne : id ≠ id') :
    Waits id n (b.hold id') := by
  unfold hold
  refine ⟨?_, ?_⟩
  · split <;> exact hw.1
  · show (b.pending.insert id' b.received).get id = some n
    rw [HashMap.get_insert, if_neg hne]
    exact hw.2

theorem dropped_hold (hw : Waits id n b) : (n, .dropped) ∈ (b.hold id).resolved := by
  unfold hold
  rw [hw.2]
  exact List.mem_append_right _ (List.mem_singleton_self _)

/-- Senders that have been used stay so. -/
theorem resolved_leave (b : Bridge) : b.resolved <+: b.leave.resolved := List.prefix_append ..

theorem resolved_write (b : Bridge) (line : Json) (written : Bool) :
    b.resolved <+: (b.write line written).resolved := by
  unfold write
  split
  · exact List.prefix_rfl
  · exact resolved_leave b

theorem hold_agentName (b : Bridge) (id : String) : (b.hold id).agentName = b.agentName := by
  unfold hold
  dsimp only
  split <;> rfl

/-- A line that cannot be written ends the wait of every sender. -/
theorem waits_or_exited {b₁ : Bridge} (hw : Waits id n b₁) {i : BridgeInput} {line : Json}
    {written : Bool} (hstep : b.step i = b₁.write line written)
    (hname : b₁.agentName = b.agentName) (hi : answers id i = none) :
    (Waits id n (b.step i) ∧ answers id i = none) ∨
      ∃ r, (n, r) ∈ (b.step i).resolved ∧ Uses b id i r := by
  rw [hstep]
  rcases waits_write hw line written with h | ⟨h, hphase⟩
  · exact Or.inl ⟨h, hi⟩
  · rw [hname] at h
    refine Or.inr ⟨.exited (exitError b.agentName), h, rfl, hi, ?_⟩
    rw [hstep]
    exact hphase

theorem waits_userMessage (hw : Waits id n b) (message : String) (reply written : Bool) :
    (Waits id n (b.step (.userMessage message reply written)) ∧
        answers id (.userMessage message reply written) = none) ∨
      ∃ r, (n, r) ∈ (b.step (.userMessage message reply written)).resolved ∧
        Uses b id (.userMessage message reply written) r := by
  have hstep : b.step (.userMessage message reply written) = b.userMessage message reply written :=
    step_looping hw.1 _
  have hnext := (sameDesk_nextId b).waits hw
  cases reply with
  | false => exact waits_or_exited hnext hstep rfl rfl
  | true =>
    by_cases hid : id = reqId b.nextId.reqCounter
    · -- the message takes the very id
      have hdropped := dropped_hold hnext
      rw [hid] at hdropped
      refine Or.inr ⟨.dropped, ?_, rfl, rfl, hid.symm⟩
      rw [hstep]
      exact (resolved_write ..).subset hdropped
    · exact waits_or_exited (waits_hold hnext hid) hstep (hold_agentName ..) rfl

theorem waits_leave (hw : Waits id n b) {i : BridgeInput} (hi : answers id i = none)
    (hstep : b.step i = b.leave) :
    ∃ r, (n, r) ∈ (b.step i).resolved ∧ Uses b id i r := by
  rw [hstep]
  refine ⟨.exited (exitError b.agentName), exited_leave hw, rfl, hi, ?_⟩
  rw [hstep]
  exact leave_phase b

theorem answers_output (id : String) (msg : Json) : answers id (.output msg) =
    if msg.strOr "type" "" = "chat_response" ∧ msg.strOr "id" "" = id then some (replyOf msg)
    else none := rfl

theorem waits_chatResponse (hw : Waits id n b) {msg : Json}
    (htype : msg.strOr "type" "" = "chat_response") :
    (Waits id n (b.chatResponse msg) ∧ answers id (.output msg) = none) ∨
      (n, .answered (replyOf msg)) ∈ (b.chatResponse msg).resolved ∧
        answers id (.output msg) = some (replyOf msg) := by
  rw [answers_output]
  by_cases hid : msg.strOr "id" "" = id
  · refine Or.inr ⟨?_, if_pos ⟨htype, hid⟩⟩
    unfold chatResponse
    dsimp only
    rw [hid, hw.2]
    exact List.mem_append_right _ (List.mem_singleton_self _)
  · refine Or.inl ⟨?_, if_neg (fun h => hid h.2)⟩
    unfold chatResponse
    dsimp only
    split
    · refine ⟨hw.1, ?_⟩
      show (b.pending.remove (msg.strOr "id" "")).get id = some n
      rw [HashMap.get_remove, if_neg (Ne.symm hid)]
      exact hw.2
    · split
      · rename_i channelId _
        have hsame : SameDesk b
            { b with pendingChannel := b.pendingChannel.remove (msg.strOr "id" "") } :=
          ⟨rfl, rfl, rfl, rfl⟩
        exact (hsame.trans (sameDesk_channelResponse ..)).waits hw
      · exact hw

theorem waits_output (hw : Waits id n b) (msg : Json) :
    (Waits id n (b.step (.output msg)) ∧ answers id (.output msg) = none) ∨
      ∃ r, (n, r) ∈ (b.step (.output msg)).resolved ∧ Uses b id (.output msg) r := by
  have hstep : b.step (.output msg) = b.handleOutput msg := step_looping hw.1 _
  have hother : msg.strOr "type" "" ≠ "chat_response" → answers id (.output msg) = none :=
    fun h => if_neg (fun h' => h h'.1)
  rw [hstep]
  unfold handleOutput
  split
  · rename_i htype
    rcases waits_chatResponse hw htype with h | ⟨hmem, hans⟩
    · exact Or.inl h
    · exact Or.inr ⟨_, hmem, hans⟩
  · rename_i htype
    have hno := hother (by rw [htype]; decide)
    have hstatus := (sameDesk_update b (parseStatus (msg.strOr "status" "idle"))
      ((msg.get "error").bind Json.asStr)).waits hw
    have hleave : b.step (.output msg) = b.statusMessage msg := by
      rw [hstep]
      unfold handleOutput
      simp only [htype]
    unfold statusMessage at hleave ⊢
    dsimp only at hleave ⊢
    split
    · rename_i hstopped
      rw [if_pos hstopped] at hleave
      refine Or.inr ⟨.exited (exitError b.agentName), exited_leave hstatus, rfl, hno, ?_⟩
      rw [hleave]
      exact leave_phase _
    · exact Or.inl ⟨hstatus, hno⟩
  · rename_i htype
    exact Or.inl ⟨(sameDesk_update ..).waits hw, hother (by rw [htype]; decide)⟩
  · rename_i htype
    exact Or.inl ⟨(sameDesk_forward ..).waits hw, hother (by rw [htype]; decide)⟩
  · rename_i htype
    exact Or.inl ⟨(sameDesk_forward ..).waits hw, hother (by rw [htype]; decide)⟩
  · rename_i htype
    exact Or.inl ⟨((sameDesk_update ..).trans (sameDesk_forward ..)).waits hw,
      hother (by rw [htype]; decide)⟩
  · rename_i htype
    exact Or.inl ⟨((sameDesk_update ..).trans (sameDesk_forward ..)).waits hw,
      hother (by rw [htype]; decide)⟩
  · rename_i htype
    exact Or.inl ⟨((sameDesk_update ..).trans (sameDesk_forward ..)).waits hw,
      hother (by rw [htype]; decide)⟩
  · rename_i hno _ _ _ _ _ _ _
    exact Or.inl ⟨hw, hother hno⟩

/-- A waiting sender waits on and the input does not answer it, or the input uses it. -/
theorem waits_step (hw : Waits id n b) (i : BridgeInput) :
    (Waits id n (b.step i) ∧ answers id i = none) ∨
      ∃ r, (n, r) ∈ (b.step i).resolved ∧ Uses b id i r := by
  have hstep : b.step i = b.loopStep i := step_looping hw.1 i
  cases i with
  | userMessage message reply written => exact waits_userMessage hw ..
  | channelMessage channelId message written =>
    have hsame : SameDesk b { b.nextId with
        pendingChannel := b.nextId.pendingChannel.insert (reqId b.nextId.reqCounter) channelId } :=
      ⟨rfl, rfl, rfl, rfl⟩
    exact waits_or_exited (hsame.waits hw) hstep rfl rfl
  | jobExecute jobId instruction workspace inputArtifacts written =>
    exact waits_or_exited hw hstep rfl rfl
  | stop written =>
    rw [hstep]
    exact Or.inl ⟨(sameDesk_writeStop b written).waits hw, rfl⟩
  | closed => exact Or.inr (waits_leave hw rfl hstep)
  | output msg => exact waits_output hw msg
  | endOfOutput => exact Or.inr (waits_leave hw rfl hstep)
  | childExit failure =>
    rw [hstep]
    exact Or.inl ⟨hw, rfl⟩

/-! ## The counter -/

/-- What the loop leaves alone in a step. -/
structure Frame (b b' : Bridge) : Prop where
  agentName : b'.agentName = b.agentName
  orchTx : b'.orchTx = b.orchTx
  orchJobId : b'.orchJobId = b.orchJobId
  reqCounter : b'.reqCounter = b.reqCounter
  resolved : b.resolved <+: b'.resolved
  events : b.events <+: b'.events

theorem Frame.refl (b : Bridge) : Frame b b := ⟨rfl, rfl, rfl, rfl, List.prefix_rfl, List.prefix_rfl⟩

theorem Frame.trans {b'' : Bridge} (h : Frame b b') (h' : Frame b' b'') : Frame b b'' :=
  ⟨h'.1.trans h.1, h'.2.trans h.2, h'.3.trans h.3, h'.4.trans h.4, h.5.trans h'.5, h.6.trans h'.6⟩

theorem piecewise_frame : Piecewise Frame where
  refl := .refl
  trans := .trans
  update := fun _ _ _ _ => ⟨rfl, rfl, rfl, rfl, List.prefix_rfl, List.prefix_rfl⟩
  emit := fun _ _ => ⟨rfl, rfl, rfl, rfl, List.prefix_rfl, List.prefix_append ..⟩
  leave := fun _ => ⟨rfl, rfl, rfl, rfl, List.prefix_append .., List.prefix_rfl⟩
  tell := fun _ _ => ⟨rfl, rfl, rfl, rfl, List.prefix_rfl, List.prefix_rfl⟩
  answer := fun _ _ _ _ _ => ⟨rfl, rfl, rfl, rfl, List.prefix_append .., List.prefix_rfl⟩
  forget := fun _ _ => ⟨rfl, rfl, rfl, rfl, List.prefix_rfl, List.prefix_rfl⟩
  drop := fun _ _ => ⟨rfl, rfl, rfl, rfl, List.prefix_append .., List.prefix_rfl⟩
  finish := fun _ _ => ⟨rfl, rfl, rfl, rfl, List.prefix_rfl, List.prefix_rfl⟩

theorem frame_hold (b : Bridge) (id : String) : Frame b (b.hold id) := by
  unfold hold
  dsimp only
  split
  · exact ⟨rfl, rfl, rfl, rfl, List.prefix_rfl, List.prefix_rfl⟩
  · exact ⟨rfl, rfl, rfl, rfl, List.prefix_append .., List.prefix_rfl⟩

/-- The counter moves with every message that the loop takes, and with nothing else. -/
theorem frame_step (b : Bridge) (i : BridgeInput) :
    Frame (if b.phase = .looping ∧ takesId i = true then b.nextId else b) (b.step i) := by
  by_cases htakes : b.phase = .looping ∧ takesId i = true
  · rw [if_pos htakes]
    obtain ⟨hl, hid⟩ := htakes
    rw [step_looping hl]
    cases i with
    | userMessage message reply written =>
      cases reply with
      | false => exact piecewise_frame.write ..
      | true => exact (frame_hold ..).trans (piecewise_frame.write ..)
    | channelMessage channelId message written =>
      refine Frame.trans ?_ (piecewise_frame.write ..)
      exact ⟨rfl, rfl, rfl, rfl, List.prefix_rfl, List.prefix_rfl⟩
    | _ => cases hid
  · rw [if_neg htakes]
    exact piecewise_frame.step htakes

theorem step_reqCounter (b : Bridge) (i : BridgeInput) : (b.step i).reqCounter =
    if b.phase = .looping ∧ takesId i = true then u64Succ b.reqCounter else b.reqCounter := by
  rw [(frame_step b i).reqCounter]
  split <;> rfl

/-- What no step changes, or only adds to. -/
structure Grows (b b' : Bridge) : Prop where
  agentName : b'.agentName = b.agentName
  orchTx : b'.orchTx = b.orchTx
  orchJobId : b'.orchJobId = b.orchJobId
  resolved : b.resolved <+: b'.resolved
  events : b.events <+: b'.events

theorem grows_step (b : Bridge) (i : BridgeInput) : Grows b (b.step i) := by
  have h := frame_step b i
  split at h
  · exact ⟨h.1, h.2, h.3, h.5, h.6⟩
  · exact ⟨h.1, h.2, h.3, h.5, h.6⟩

theorem Grows.trans {b'' : Bridge} (h : Grows b b') (h' : Grows b' b'') : Grows b b'' :=
  ⟨h'.1.trans h.1, h'.2.trans h.2, h'.3.trans h.3, h.4.trans h'.4, h.5.trans h'.5⟩

theorem grows_run (b : Bridge) (is : List BridgeInput) : Grows b (run step b is) := by
  induction is generalizing b with
  | nil => exact ⟨rfl, rfl, rfl, List.prefix_rfl, List.prefix_rfl⟩
  | cons i is ih => exact (grows_step b i).trans (ih _)

/-- A bridge that has left its loop does not come back to it. -/
theorem step_phase (hl : b.phase ≠ .looping) (i : BridgeInput) : (b.step i).phase ≠ .looping := by
  cases hp : b.phase with
  | looping => exact absurd hp hl
  | waiting =>
    rw [step_waiting hp]
    unfold waitStep
    split
    · exact BridgePhase.noConfusion
    · unfold refuse
      split <;> exact hl
  | ended =>
    rw [step_ended hp]
    unfold refuse
    split <;> exact hl

theorem run_phase (hl : b.phase ≠ .looping) (is : List BridgeInput) :
    (run step b is).phase ≠ .looping := by
  induction is generalizing b with
  | nil => exact hl
  | cons i is ih => exact ih (step_phase hl i)

theorem looping_of_run {is : List BridgeInput} (h : (run step b is).phase = .looping) :
    b.phase = .looping := by
  by_contra hl
  exact run_phase hl is h

/-- Where the loop still goes on, the counter has moved once for each message. -/
theorem run_reqCounter (hb : b.reqCounter < 2 ^ 64) {is : List BridgeInput}
    (hl : (run step b is).phase = .looping) :
    (run step b is).reqCounter = (b.reqCounter + is.countP takesId) % 2 ^ 64 := by
  induction is generalizing b with
  | nil => exact (Nat.mod_eq_of_lt hb).symm
  | cons i is ih =>
    have hphase : b.phase = .looping := looping_of_run hl
    have hstep := step_reqCounter b i
    rw [hphase] at hstep
    have hlt : (b.step i).reqCounter < 2 ^ 64 := by
      rw [hstep]
      split
      · exact Nat.mod_lt _ (by decide)
      · exact hb
    rw [run_cons, ih hlt hl, hstep, List.countP_cons]
    by_cases hi : takesId i = true
    · simp only [hi, and_self, if_true, u64Succ]
      omega
    · simp only [hi, and_false, if_false, Bool.false_eq_true]
      omega

/-! ## The first response -/

/-- What the sender of the message `cmd`, issued in the state `c`, may be used for, in
view of the inputs that follow: the first response that carries the id of the message;
an exit error if none has come when the loop is over; nothing if none has come when the
counter has gone round. -/
def Rightful (c : Bridge) (cmd : BridgeInput) (post : List BridgeInput) (r : Resolution) : Prop :=
  let id := reqId (u64Succ c.reqCounter)
  match r with
  | .answered reply => ∃ mid i rest, post = mid ++ i :: rest ∧ (∀ x ∈ mid, answers id x = none) ∧
      answers id i = some reply
  | .exited error => error = exitError c.agentName ∧ ∃ mid rest, post = mid ++ rest ∧
      (∀ x ∈ mid, answers id x = none) ∧ (run step (c.step cmd) mid).phase ≠ .looping
  | .dropped => ∃ mid rest, post = mid ++ rest ∧ (∀ x ∈ mid, answers id x = none) ∧
      2 ^ 64 ≤ mid.countP takesId

theorem reqId_injective {m n : Nat} (h : reqId m = reqId n) : m = n :=
  toString_injective (String.append_right_inj _ |>.mp h)

/-- The sender of a message waits, or the message cannot be written. -/
theorem waits_issue (hl : b.phase = .looping) (message : String) (written : Bool) :
    Waits (reqId (u64Succ b.reqCounter)) b.received (b.step (.userMessage message true written)) ∨
      (b.received, .exited (exitError b.agentName)) ∈
          (b.step (.userMessage message true written)).resolved ∧
        (b.step (.userMessage message true written)).phase ≠ .looping := by
  rw [step_looping hl]
  have hheld : Waits (reqId (u64Succ b.reqCounter)) b.received
      (b.nextId.hold (reqId b.nextId.reqCounter)) := by
    unfold hold
    refine ⟨?_, ?_⟩
    · split <;> exact hl
    · exact (HashMap.get_insert ..).trans (if_pos rfl)
  have hname : (b.nextId.hold (reqId b.nextId.reqCounter)).agentName = b.agentName :=
    hold_agentName ..
  rw [← hname]
  exact waits_write hheld ..

theorem eq_of_mem_resolved (hb : Accounted b) {r r' : Resolution} (h : (n, r) ∈ b.resolved)
    (h' : (n, r') ∈ b.resolved) : r = r' := by
  have hinj := List.inj_on_of_nodup_map hb.nodup h h' rfl
  exact (Prod.mk.inj hinj).2

/-- A sender that waits before and after an input has not been answered by it. -/
theorem answers_of_waits (hb : Accounted b) (hw : Waits id n b) {i : BridgeInput}
    (hw' : Waits id n (b.step i)) : answers id i = none := by
  rcases waits_step hw i with h | ⟨r, hr, _⟩
  · exact h.2
  · exact absurd (List.mem_map_of_mem hr) ((accounted_step hb i).apart id n hw'.2)

theorem answers_of_waits_run (hb : Accounted b) {is : List BridgeInput}
    (h : Meets step (fun b i => Waits id n b ∧ Waits id n (b.step i)) b is) :
    ∀ x ∈ is, answers id x = none := by
  induction is generalizing b with
  | nil => exact fun x hx => absurd hx List.not_mem_nil
  | cons i is ih =>
    intro x hx
    rcases List.mem_cons.mp hx with rfl | hmem
    · exact answers_of_waits hb h.1.1 h.1.2
    · exact ih (accounted_step hb i) h.2 x hmem

/-- A sender that is used in a run waited for a response before some input, and that
input has used it; none before it has answered the sender. -/
theorem used_run (hb : Accounted b) (hw : Waits id n b) {is : List BridgeInput} {r : Resolution}
    (hr : (n, r) ∈ (run step b is).resolved) :
    ∃ mid i rest, is = mid ++ i :: rest ∧ (∀ x ∈ mid, answers id x = none) ∧
      (run step b mid).phase = .looping ∧ Uses (run step b mid) id i r := by
  rcases run_exits is hw with h | ⟨mid, i, rest, his, hmid, hlast, hend⟩
  · -- a sender that waits to the end has not been used
    have hwaits : Waits id n (run step b is) :=
      run_invariant (P := Waits id n) (fun _ _ _ h => h.2) hw h
    exact absurd (List.mem_map_of_mem hr) ((accounted_run hb is).apart id n hwaits.2)
  · rcases waits_step hlast i with h | ⟨r', hr', huse⟩
    · exact absurd h.1 hend
    · refine ⟨mid, i, rest, his, answers_of_waits_run hb hmid, hlast.1, ?_⟩
      have hmem : (n, r') ∈ (run step b is).resolved := by
        rw [his, run_append, run_cons]
        exact (grows_run _ rest).resolved.subset hr'
      rw [eq_of_mem_resolved (accounted_run hb is) hr hmem]
      exact huse

/-- The sender of a message that the loop takes is used rightfully. -/
theorem rightful_looping (hb : Accounted b) (hl : b.phase = .looping)
    {message : String} {written : Bool} {post : List BridgeInput}
    {r : Resolution}
    (hr : (b.received, r) ∈ (run step (b.step (.userMessage message true written)) post).resolved) :
    Rightful b (.userMessage message true written) post r := by
  have hb' := accounted_step hb (.userMessage message true written)
  rcases waits_issue hl message written with hw | ⟨hexited, hphase⟩
  · obtain ⟨mid, i, rest, hpost, hnone, hloop, huse⟩ := used_run hb' hw hr
    cases r with
    | answered reply => exact ⟨mid, i, rest, hpost, hnone, huse⟩
    | exited error =>
      obtain ⟨herror, hi, hend⟩ := huse
      have hname := ((grows_step b (.userMessage message true written)).trans
        (grows_run _ mid)).agentName
      refine ⟨herror.trans (congrArg exitError hname), mid ++ [i], rest, by simp [hpost], ?_, ?_⟩
      · intro x hx
        rcases List.mem_append.mp hx with h | h
        · exact hnone x h
        · rw [List.mem_singleton.mp h, hi]
      · rw [run_append]
        exact hend
    | dropped =>
      obtain ⟨hi, htakes, hid⟩ := huse
      have hstart : (b.step (.userMessage message true written)).reqCounter =
          u64Succ b.reqCounter := by
        rw [step_reqCounter, if_pos ⟨hl, rfl⟩]
      have hcount := run_reqCounter (b := b.step (.userMessage message true written))
        (by rw [hstart]; exact Nat.mod_lt _ (by decide)) hloop
      have hround := reqId_injective hid
      rw [hcount, hstart] at hround
      refine ⟨mid ++ [i], rest, by simp [hpost], ?_, ?_⟩
      · intro x hx
        rcases List.mem_append.mp hx with h | h
        · exact hnone x h
        · rw [List.mem_singleton.mp h, hi]
      · rw [List.countP_append, List.countP_singleton, if_pos htakes]
        unfold u64Succ at hround
        omega
  · have hr' := eq_of_mem_resolved (accounted_run hb' post) hr
      ((grows_run _ post).resolved.subset hexited)
    subst hr'
    exact ⟨rfl, [], post, rfl, fun x hx => absurd hx List.not_mem_nil, hphase⟩

/-- A sender given to a bridge that has left its loop is dropped. -/
theorem dropped_of_left (hb : Accounted b) (hl : b.phase ≠ .looping) {message : String}
    {written : Bool} {post : List BridgeInput} {r : Resolution}
    (hr : (b.received, r) ∈ (run step (b.step (.userMessage message true written)) post).resolved) :
    r = .dropped := by
  have hdropped : (b.received, .dropped) ∈
      (b.step (.userMessage message true written)).resolved := by
    cases hp : b.phase with
    | looping => exact absurd hp hl
    | waiting =>
      rw [step_waiting hp]
      exact List.mem_append_right _ (List.mem_singleton_self _)
    | ended =>
      rw [step_ended hp]
      exact List.mem_append_right _ (List.mem_singleton_self _)
  exact eq_of_mem_resolved (accounted_run (accounted_step hb _) post) hr
    ((grows_run _ post).resolved.subset hdropped)

end
end ZeptoPM.Bridge
