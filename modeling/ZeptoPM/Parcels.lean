import ZeptoPM.Link

/- What there is to deliver over a link, and what the bridge makes of a command and of a
   line. A post is sent under an id of its own (`stamp`), what the agent answers to it
   comes back in parcels, and a parcel with an answer is opened by looking the id up. What
   a step of the bridge does is one of three things: it changes nothing that matters here
   (`Quiet`), it writes a line for a post (`Posted`), or it takes a parcel (`Took`). -/
namespace ZeptoPM

/-! ## Posts and their ids -/

/-- The posts, each with the id that it is sent under. -/
def stamp : Nat → List Post → List (String × Post)
  | _, [] => []
  | n, p :: ps =>
    if p.asks then (Bridge.reqId (n + 1), p) :: stamp (n + 1) ps else ("", p) :: stamp n ps

theorem stamp_cons (n : Nat) (p : Post) (ps : List Post) :
    stamp n (p :: ps) =
      (if p.asks then Bridge.reqId (n + 1) else "", p) ::
        stamp (if p.asks then n + 1 else n) ps := by
  by_cases h : p.asks = true <;> simp [stamp, h]

theorem stamp_map_snd (n : Nat) (ps : List Post) : (stamp n ps).map (·.2) = ps := by
  induction ps generalizing n with
  | nil => rfl
  | cons p ps ih =>
    rw [stamp_cons, List.map_cons, ih]

theorem stamp_length (n : Nat) (ps : List Post) : (stamp n ps).length = ps.length := by
  rw [← List.length_map (·.2), stamp_map_snd]

theorem stamp_append (n : Nat) (ps qs : List Post) :
    stamp n (ps ++ qs) = stamp n ps ++ stamp (n + ps.countP (·.asks)) qs := by
  induction ps generalizing n with
  | nil => rfl
  | cons p ps ih =>
    rw [List.cons_append, stamp_cons, stamp_cons, ih, List.cons_append, List.countP_cons]
    by_cases h : p.asks = true
    · simp only [h, if_true]
      rw [show n + 1 + ps.countP (·.asks) = n + (ps.countP (·.asks) + 1) by omega]
    · simp [h]

/-- The ids in use. -/
def stampedIds (ps : List Post) : List String :=
  ((stamp 0 ps).filter (·.2.asks)).map (·.1)

theorem filter_stamp (n : Nat) (ps : List Post) :
    ((stamp n ps).filter (·.2.asks)).map (·.1) =
      (List.range' (n + 1) (ps.countP (·.asks))).map Bridge.reqId := by
  induction ps generalizing n with
  | nil => rfl
  | cons p ps ih =>
    rw [stamp_cons, List.countP_cons]
    by_cases h : p.asks = true
    · simp only [List.filter_cons, h, if_true, List.map_cons, ih, List.range'_succ]
    · simp only [List.filter_cons, h, if_false, Bool.false_eq_true, ih, Nat.add_zero]

theorem stampedIds_nodup (ps : List Post) : (stampedIds ps).Nodup := by
  unfold stampedIds
  rw [filter_stamp]
  exact (List.nodup_range' 1).map (fun _ _ h => Bridge.reqId_injective h)

/-- An id is used for one post. -/
theorem post_of_id {ps : List Post} {id : String} {p p' : Post} (h : (id, p) ∈ stamp 0 ps)
    (h' : (id, p') ∈ stamp 0 ps) (hp : p.asks = true) (hp' : p'.asks = true) : p = p' := by
  have hinj := List.inj_on_of_nodup_map (stampedIds_nodup ps)
    (List.mem_filter.mpr ⟨h, hp⟩) (List.mem_filter.mpr ⟨h', hp'⟩) rfl
  exact (Prod.mk.inj hinj).2

/-- The id after those in use is a new one. -/
theorem reqId_fresh (ps : List Post) (p : Post) (hp : p.asks = true) :
    (Bridge.reqId (ps.countP (·.asks) + 1), p) ∉ stamp 0 ps := by
  intro hmem
  have hid : Bridge.reqId (ps.countP (·.asks) + 1) ∈
      ((stamp 0 ps).filter (·.2.asks)).map (·.1) :=
    List.mem_map.mpr ⟨_, List.mem_filter.mpr ⟨hmem, hp⟩, rfl⟩
  rw [filter_stamp] at hid
  obtain ⟨k, hk, heq⟩ := List.mem_map.mp hid
  have hlt := (List.mem_range'_1.mp hk).2
  rw [Bridge.reqId_injective heq] at hlt
  omega

/-! ## Lines -/

section
variable (orchJobId : Option JobId) (id : String)

theorem strings_ofVec (key : String) (fields : List (String × Json)) (xs : List String)
    (h : fields.lookup key = some (.ofVec xs)) : (Json.obj fields).strings key = xs := by
  have hmap : (xs.map Json.str).filterMap Json.asStr = xs := by
    rw [List.filterMap_map]
    exact List.filterMap_some
  unfold Json.strings
  show (((fields.lookup key).bind Json.asArray).map _).getD [] = xs
  rw [h]
  exact hmap

/-- The worker reads back what the bridge has written. -/
theorem ofJson_line (p : Post) : WorkerCommand.ofJson (p.line orchJobId id) =
    p.workerCommand orchJobId id := by
  cases p with
  | message sender text => cases orchJobId <;> rfl
  | channel channelId text => cases orchJobId <;> rfl
  | job jobId instruction workspace inputArtifacts =>
    exact congrArg (WorkerCommand.jobExecute jobId instruction workspace)
      (strings_ofVec "input_artifacts" [("cmd", .str "job_execute"), ("job_id", .str jobId),
        ("instruction", .str instruction), ("workspace", .str workspace),
        ("input_artifacts", .ofVec inputArtifacts)] inputArtifacts rfl)
  | stop => rfl

end

theorem replyOf_chatResponse (id : String) (result : ChatResult) :
    Bridge.replyOf (chatResponse id result) = result := by
  cases result <;> rfl

/-- The lines that tell of work done. -/
def newsIn (lines : List Json) : List Json := lines.filter isNews

@[simp] theorem newsIn_nil : newsIn [] = [] := rfl

@[simp] theorem newsIn_append (lines lines' : List Json) :
    newsIn (lines ++ lines') = newsIn lines ++ newsIn lines' := List.filter_append ..

/-! ## Parcels -/

/-- A piece of news, with the post that it belongs to. -/
abbrev Parcel := News × Post

namespace Parcel

def reply : Parcel → Option (Nat × ChatResult)
  | (.answer _ result, .message (some sender) _) => some (sender, result)
  | _ => none

def event (orchJobId : Option JobId) : Parcel → List Json
  | (.answer _ result, .channel channelId _) =>
    (orchJobId.map (fun jobId => Bridge.channelEvent channelId jobId result)).toList
  | (.answer _ _, _) => []
  | (news, _) => [news.line]

/-- The id that it answers. -/
def id : Parcel → Option String
  | (.answer id _, _) => some id
  | _ => none

end Parcel

def outcome (x : (String × Post) × ChatResult) : List Parcel :=
  (x.1.2.news x.1.1 x.2).map (·, x.1.2)

theorem filterMap_reply_outcome (x : (String × Post) × ChatResult) :
    (outcome x).filterMap Parcel.reply = x.1.2.replies x.2 := by
  obtain ⟨⟨id, p⟩, result⟩ := x
  cases p with
  | message sender text => cases sender <;> rfl
  | channel channelId text => rfl
  | job jobId instruction workspace inputArtifacts => cases result <;> rfl
  | stop => rfl

theorem flatMap_event_outcome (orchJobId : Option JobId) (x : (String × Post) × ChatResult) :
    (outcome x).flatMap (Parcel.event orchJobId) = x.1.2.events orchJobId x.2 := by
  obtain ⟨⟨id, p⟩, result⟩ := x
  cases p with
  | message sender text => rfl
  | channel channelId text => exact List.append_nil _
  | job jobId instruction workspace inputArtifacts => cases result <;> rfl
  | stop => rfl

theorem filterMap_id_outcome (x : (String × Post) × ChatResult) :
    (outcome x).filterMap Parcel.id = if x.1.2.asks then [x.1.1] else [] := by
  obtain ⟨⟨id, p⟩, result⟩ := x
  cases p with
  | message sender text => rfl
  | channel channelId text => rfl
  | job jobId instruction workspace inputArtifacts => cases result <;> rfl
  | stop => rfl

/-- Whoever answers, answers a post that asks. -/
theorem asks_of_outcome {x : (String × Post) × ChatResult} {parcel : Parcel}
    (h : parcel ∈ outcome x) {id : String} (hid : parcel.id = some id) :
    x.1.2.asks = true ∧ x.1.1 = id ∧ parcel.2 = x.1.2 := by
  obtain ⟨⟨id', p⟩, result⟩ := x
  obtain ⟨news, hnews, rfl⟩ := List.mem_map.mp h
  cases p with
  | message sender text =>
    cases List.mem_singleton.mp hnews
    exact ⟨rfl, Option.some_inj.mp hid, rfl⟩
  | channel channelId text =>
    cases List.mem_singleton.mp hnews
    exact ⟨rfl, Option.some_inj.mp hid, rfl⟩
  | job jobId instruction workspace inputArtifacts =>
    cases result with
    | ok response =>
      rcases List.mem_cons.mp hnews with rfl | hnews
      · cases hid
      · cases List.mem_singleton.mp hnews
        cases hid
    | error e =>
      cases List.mem_singleton.mp hnews
      cases hid
  | stop => cases hnews

section
variable {Message : Type}

namespace Link

def stamped (l : Link Message) : List (String × Post) := stamp 0 l.posts

/-- All that is to be delivered of what the agent has said, in order. -/
def parcels (l : Link Message) : List Parcel :=
  (l.stamped.zip (l.worker.transcript.map (·.2))).flatMap outcome

variable (l : Link Message)

theorem flatMap_served {α : Type} (f : Post → ChatResult → List α) :
    (l.stamped.zip (l.worker.transcript.map (·.2))).flatMap (fun x => f x.1.2 x.2) =
      l.served.flatMap (fun x => f x.1 x.2) := by
  unfold served stamped
  conv_rhs => rw [← stamp_map_snd 0 l.posts]
  rw [List.zip_map_left, List.flatMap_map]
  rfl

theorem parcels_reply : l.parcels.filterMap Parcel.reply = l.repliesDue := by
  unfold parcels repliesDue
  rw [List.filterMap_flatMap, ← flatMap_served]
  simp only [filterMap_reply_outcome]

theorem parcels_event : l.parcels.flatMap (Parcel.event l.bridge.orchJobId) =
    l.served.flatMap (fun x => x.1.events l.bridge.orchJobId x.2) := by
  unfold parcels
  rw [List.flatMap_assoc, ← flatMap_served]
  simp only [flatMap_event_outcome]

/-- The ids answered are used for one answer each. -/
theorem parcels_id_nodup : (l.parcels.filterMap Parcel.id).Nodup := by
  have hids : l.parcels.filterMap Parcel.id =
      ((l.stamped.take (l.worker.transcript.map (·.2)).length).filter (·.2.asks)).map (·.1) := by
    unfold parcels
    rw [List.filterMap_flatMap]
    simp only [filterMap_id_outcome]
    generalize l.worker.transcript.map (·.2) = results
    generalize l.stamped = stamped
    induction stamped generalizing results with
    | nil => simp
    | cons x stamped ih =>
      cases results with
      | nil => simp
      | cons result results =>
        rw [List.zip_cons_cons, List.flatMap_cons, ih, List.length_cons, List.take_succ_cons]
        by_cases h : x.2.asks = true
        · simp [h]
        · simp [h]
  rw [hids]
  refine List.Sublist.nodup ?_ (stampedIds_nodup l.posts)
  exact ((List.take_sublist _ _).filter _).map _

/-- A parcel with an answer belongs to the post that was sent under the id. -/
theorem mem_stamped_of_parcel {l : Link Message} {parcel : Parcel} (h : parcel ∈ l.parcels)
    {id : String} (hid : parcel.id = some id) :
    (id, parcel.2) ∈ l.stamped ∧ parcel.2.asks = true := by
  obtain ⟨x, hx, hparcel⟩ := List.mem_flatMap.mp h
  obtain ⟨hasks, rfl, hpost⟩ := asks_of_outcome hparcel hid
  rw [hpost]
  exact ⟨(List.of_mem_zip hx).1, hasks⟩

end Link

end

/-! ## The bridge -/

namespace Bridge

/-- What keeps the lines written, the answers given and the news told. -/
structure Silent (b b' : Bridge) : Prop where
  toWorker : b'.toWorker = b.toWorker
  orchTx : b'.orchTx = b.orchTx
  orchJobId : b'.orchJobId = b.orchJobId
  answered : b'.answered = b.answered
  told : b'.told = b.told

/-- And, if the bridge is in its loop afterwards, what is pending. -/
structure Quiet (b b' : Bridge) : Prop extends Silent b b' where
  desk : b'.phase = .looping → b.phase = .looping ∧ b'.reqCounter = b.reqCounter ∧
    b'.received = b.received ∧ b'.pending = b.pending ∧ b'.pendingChannel = b.pendingChannel

section
variable {b b' b'' : Bridge}

theorem Silent.refl (b : Bridge) : Silent b b := ⟨rfl, rfl, rfl, rfl, rfl⟩

theorem Silent.trans (h : Silent b b') (h' : Silent b' b'') : Silent b b'' where
  toWorker := h'.toWorker.trans h.toWorker
  orchTx := h'.orchTx.trans h.orchTx
  orchJobId := h'.orchJobId.trans h.orchJobId
  answered := h'.answered.trans h.answered
  told := h'.told.trans h.told

/-- What is pending is of no matter outside the loop. -/
theorem Silent.quiet (h : Silent b b') (hl : b'.phase ≠ .looping) : Quiet b b' :=
  ⟨h, fun hl' => absurd hl' hl⟩

theorem Quiet.refl (b : Bridge) : Quiet b b :=
  ⟨Silent.refl b, fun h => ⟨h, rfl, rfl, rfl, rfl⟩⟩

theorem Quiet.trans (h : Quiet b b') (h' : Quiet b' b'') : Quiet b b'' where
  toSilent := h.toSilent.trans h'.toSilent
  desk := by
    intro hl
    obtain ⟨hl', h1', h2', h3', h4'⟩ := h'.desk hl
    obtain ⟨hl, h1, h2, h3, h4⟩ := h.desk hl'
    exact ⟨hl, h1'.trans h1, h2'.trans h2, h3'.trans h3, h4'.trans h4⟩

end

theorem quiet_update (b : Bridge) (status : AgentStatus) (error : Option String) :
    Quiet b (b.update status error) :=
  ⟨⟨rfl, rfl, rfl, rfl, rfl⟩, fun h => ⟨h, rfl, rfl, rfl, rfl⟩⟩

theorem told_forward (b : Bridge) (event : Json) : (b.forward event).told =
    b.told ++ if b.orchTx && !isPulse event then [event] else [] := by
  unfold forward
  cases b.orchTx with
  | true =>
    show (b.events ++ [event]).filter _ = b.events.filter _ ++ _
    rw [List.filter_append, List.filter_singleton, Bool.true_and, Bool.cond_eq_ite]
  | false => exact (List.append_nil _).symm

/-- Forwarding an event tells it, and changes nothing else. -/
theorem forward_rest (b : Bridge) (event : Json) : (b.forward event).toWorker = b.toWorker ∧
    (b.forward event).orchTx = b.orchTx ∧ (b.forward event).orchJobId = b.orchJobId ∧
    (b.forward event).answered = b.answered ∧ (b.forward event).phase = b.phase ∧
    (b.forward event).reqCounter = b.reqCounter ∧ (b.forward event).received = b.received ∧
    (b.forward event).pending = b.pending ∧
    (b.forward event).pendingChannel = b.pendingChannel := by
  unfold forward
  split <;> exact ⟨rfl, rfl, rfl, rfl, rfl, rfl, rfl, rfl, rfl⟩

theorem quiet_forward (b : Bridge) {event : Json} (h : isPulse event = true) :
    Quiet b (b.forward event) := by
  obtain ⟨h1, h2, h3, h4, h5, h6, h7, h8, h9⟩ := b.forward_rest event
  refine ⟨⟨h1, h2, h3, h4, ?_⟩, fun hl => ⟨h5 ▸ hl, h6, h7, h8, h9⟩⟩
  rw [told_forward, h, Bool.not_true, Bool.and_false]
  exact List.append_nil _

theorem answered_resolve (b : Bridge) (sender : Nat) (r : Resolution) :
    (b.resolve sender r).answered = b.answered ++ (Resolution.result (sender, r)).toList := by
  refine List.filterMap_append.trans ?_
  rw [List.filterMap_cons]
  cases Resolution.result (sender, r) <;> rfl

theorem silent_leave (b : Bridge) : Silent b b.leave := by
  have hnone : ∀ ns : List Nat, ns.filterMap
      (Resolution.result ∘ fun n => (n, .exited (exitError b.agentName))) = [] :=
    fun ns => List.filterMap_eq_nil_iff.mpr fun _ _ => rfl
  refine ⟨rfl, rfl, rfl, ?_, rfl⟩
  refine List.filterMap_append.trans ?_
  rw [List.filterMap_map, hnone]
  exact List.append_nil _

theorem quiet_leave (b : Bridge) : Quiet b b.leave := (silent_leave b).quiet (by simp [leave])

theorem silent_resolve_dropped (b : Bridge) (sender : Nat) :
    Silent b (b.resolve sender .dropped) :=
  ⟨rfl, rfl, rfl, (answered_resolve b sender .dropped).trans (List.append_nil _), rfl⟩

theorem silent_hold (b : Bridge) (id : String) : Silent b (b.hold id) := by
  unfold hold
  dsimp only
  split
  · exact ⟨rfl, rfl, rfl, rfl, rfl⟩
  · have h := silent_resolve_dropped b
    exact ⟨rfl, rfl, rfl, (h _).answered, rfl⟩

theorem quiet_refuse {b : Bridge} (hl : b.phase ≠ .looping) (i : BridgeInput) :
    Quiet b (b.refuse i) := by
  unfold refuse
  split
  · exact Silent.quiet ⟨rfl, rfl, rfl, (silent_resolve_dropped b _).answered, rfl⟩ hl
  · exact Quiet.refl b

theorem quiet_exit (b : Bridge) (failure : Option (Option String)) : Quiet b (b.exit failure) := by
  unfold exit
  dsimp only
  split
  · exact Silent.quiet ⟨rfl, rfl, rfl, rfl, rfl⟩ (by simp)
  · exact Silent.quiet ⟨rfl, rfl, rfl, rfl, rfl⟩ (by simp)

/-- A bridge that has left its loop does nothing more that matters. -/
theorem quiet_step_of_left {b : Bridge} (hl : b.phase ≠ .looping) (i : BridgeInput) :
    Quiet b (b.step i) := by
  cases hp : b.phase with
  | looping => exact absurd hp hl
  | waiting =>
    rw [step_waiting hp]
    unfold waitStep
    split
    · exact quiet_exit b _
    · exact quiet_refuse hl _
  | ended =>
    rw [step_ended hp]
    exact quiet_refuse hl i

/-- Nor does a command that comes to no line. -/
theorem quiet_step_of_unposted {b : Bridge} {i : BridgeInput} (hi : ∀ msg, i ≠ .output msg)
    (hpost : b.post i = none) : Quiet b (b.step i) := by
  by_cases hl : b.phase = .looping
  · have hfail : ∀ b', Silent b b' → Quiet b b'.leave := fun b' h =>
      (h.trans (silent_leave b')).quiet (by simp [leave])
    have hnext : Silent b b.nextId := ⟨rfl, rfl, rfl, rfl, rfl⟩
    rw [step_looping hl]
    cases i with
    | userMessage message reply written =>
      cases written with
      | true => cases hpost
      | false =>
        cases reply with
        | true => exact hfail _ (hnext.trans (silent_hold _ _))
        | false => exact hfail _ hnext
    | channelMessage channelId message written =>
      cases written with
      | true => cases hpost
      | false => exact hfail _ ⟨rfl, rfl, rfl, rfl, rfl⟩
    | jobExecute jobId instruction workspace inputArtifacts written =>
      cases written with
      | true => cases hpost
      | false => exact quiet_leave b
    | stop written =>
      cases written with
      | true => cases hpost
      | false => exact Quiet.refl b
    | closed => exact quiet_leave b
    | output msg => exact absurd rfl (hi msg)
    | endOfOutput => exact quiet_leave b
    | childExit failure => exact Quiet.refl b
  · exact quiet_step_of_left hl i

/-- A line that tells of no work done. -/
theorem quiet_output {b : Bridge} (hl : b.phase = .looping) {msg : Json}
    (hmsg : isNews msg = false) : Quiet b (b.step (.output msg)) := by
  rw [step_looping hl]
  show Quiet b (b.handleOutput msg)
  unfold isNews at hmsg
  unfold handleOutput
  split
  all_goals rename_i htype
  · rw [htype] at hmsg
    cases hmsg
  · unfold statusMessage
    dsimp only
    split
    · exact (quiet_update b _ _).trans (quiet_leave _)
    · exact quiet_update b _ _
  · exact quiet_update b _ _
  · exact quiet_forward b (by unfold isPulse; rw [htype]; rfl)
  · exact quiet_forward b (by unfold isPulse; rw [htype]; rfl)
  · rw [htype] at hmsg
    cases hmsg
  · rw [htype] at hmsg
    cases hmsg
  · rw [htype] at hmsg
    cases hmsg
  · exact Quiet.refl b

/-- The id that the next post is sent under. -/
def idOf (b : Bridge) (p : Post) : String := if p.asks then reqId (b.reqCounter + 1) else ""

/-- A line is written for a post, and the post is kept under its id. -/
structure Posted (b : Bridge) (p : Post) (b' : Bridge) : Prop where
  phase : b'.phase = .looping
  orchTx : b'.orchTx = b.orchTx
  orchJobId : b'.orchJobId = b.orchJobId
  toWorker : b'.toWorker = b.toWorker ++ [p.line b.orchJobId (b.idOf p)]
  answered : b'.answered = b.answered
  told : b'.told = b.told
  reqCounter : b'.reqCounter = b.reqCounter + if p.asks then 1 else 0
  received : b'.received = b.received + p.sender.toList.length
  sender : ∀ n, p.sender = some n → n = b.received
  pending : ∀ id n, b'.pending.get id = some n ↔
    b.pending.get id = some n ∨ p.sender = some n ∧ id = b.idOf p
  pendingChannel : ∀ id c, b'.pendingChannel.get id = some c ↔
    b.pendingChannel.get id = some c ∨ p.channelId = some c ∧ id = b.idOf p

theorem get_insert_fresh {V : Type} {m : HashMap String V} {id : String} (h : m.get id = none)
    (v : V) (k : String) (w : V) :
    (m.insert id v).get k = some w ↔ m.get k = some w ∨ some v = some w ∧ k = id := by
  rw [HashMap.get_insert]
  by_cases hk : k = id
  · subst hk
    simp [h]
  · simp [hk]

/-- A command that comes to a line, under an id that is not pending. -/
theorem posted_step {b : Bridge} (hl : b.phase = .looping) {i : BridgeInput} {p : Post}
    (hpost : b.post i = some p) (hbound : p.asks = true → b.reqCounter + 1 < 2 ^ 64)
    (hpending : b.pending.get (reqId (b.reqCounter + 1)) = none)
    (hchannel : b.pendingChannel.get (reqId (b.reqCounter + 1)) = none) :
    b.Posted p (b.step i) := by
  have hsucc : p.asks = true → u64Succ b.reqCounter = b.reqCounter + 1 :=
    fun hp => Nat.mod_eq_of_lt (hbound hp)
  rw [step_looping hl]
  cases i with
  | userMessage message reply written =>
    cases written with
    | false => cases hpost
    | true =>
      cases hpost
      have hnext := hsucc rfl
      cases reply with
      | true =>
        have hhold : b.nextId.hold (reqId (b.reqCounter + 1)) =
            { b with
              reqCounter := b.reqCounter + 1
              pending := b.pending.insert (reqId (b.reqCounter + 1)) b.received
              received := b.received + 1 } := by
          unfold hold nextId
          dsimp only
          rw [hnext, hpending]
        show Posted b _ ((b.nextId.hold (reqId (u64Succ b.reqCounter))).write
          (chatCommand b.orchJobId (reqId (u64Succ b.reqCounter)) message) true)
        rw [hnext, hhold]
        exact ⟨hl, rfl, rfl, rfl, rfl, rfl, rfl, rfl, fun n h => (Option.some_inj.mp h).symm,
          get_insert_fresh hpending _, fun id c => by simp [Post.channelId, write]⟩
      | false =>
        show Posted b _ (b.nextId.write
          (chatCommand b.orchJobId (reqId (u64Succ b.reqCounter)) message) true)
        rw [hnext]
        exact ⟨hl, rfl, rfl, rfl, rfl, rfl, hnext, rfl, fun n h => (nomatch h),
          fun id n => by simp [Post.sender, write, nextId],
          fun id c => by simp [Post.channelId, write, nextId]⟩
  | channelMessage channelId message written =>
    cases written with
    | false => cases hpost
    | true =>
      cases hpost
      have hnext := hsucc rfl
      show Posted b _ (({ b.nextId with
          pendingChannel := b.pendingChannel.insert (reqId (u64Succ b.reqCounter)) channelId } :
        Bridge).write (chatCommand b.orchJobId (reqId (u64Succ b.reqCounter)) message) true)
      rw [hnext]
      exact ⟨hl, rfl, rfl, rfl, rfl, rfl, hnext, rfl, fun n h => (nomatch h),
        fun id n => by simp [Post.sender, write, nextId], get_insert_fresh hchannel _⟩
  | jobExecute jobId instruction workspace inputArtifacts written =>
    cases written with
    | false => cases hpost
    | true =>
      cases hpost
      exact ⟨hl, rfl, rfl, rfl, rfl, rfl, rfl, rfl, fun n h => (nomatch h),
        fun id n => by simp [Post.sender, loopStep, write],
        fun id c => by simp [Post.channelId, loopStep, write]⟩
  | stop written =>
    cases written with
    | false => cases hpost
    | true =>
      cases hpost
      exact ⟨hl, rfl, rfl, rfl, rfl, rfl, rfl, rfl, fun n h => (nomatch h),
        fun id n => by simp [Post.sender, loopStep, writeStop],
        fun id c => by simp [Post.channelId, loopStep, writeStop]⟩
  | closed => cases hpost
  | output msg => cases hpost
  | endOfOutput => cases hpost
  | childExit failure => cases hpost

/-- What an answer that is taken was kept for. -/
structure Took (b : Bridge) (x : Parcel) (b' : Bridge) : Prop where
  phase : b'.phase = .looping
  toWorker : b'.toWorker = b.toWorker
  orchTx : b'.orchTx = b.orchTx
  orchJobId : b'.orchJobId = b.orchJobId
  answered : b'.answered = b.answered ++ x.reply.toList
  told : b'.told = b.told ++ if b.orchTx then x.event b.orchJobId else []
  reqCounter : b'.reqCounter = b.reqCounter
  received : b'.received = b.received
  pending : ∀ id n, b'.pending.get id = some n ↔ b.pending.get id = some n ∧ x.id ≠ some id
  pendingChannel : ∀ id c, b'.pendingChannel.get id = some c ↔
    b.pendingChannel.get id = some c ∧ x.id ≠ some id

/-- News of a job go to the orchestrator as they are. -/
theorem took_forward {b : Bridge} (hl : b.phase = .looping) {x : Parcel}
    (hpulse : isPulse x.1.line = false) (hreply : x.reply = none) (hid : x.id = none)
    (hevent : x.event b.orchJobId = [x.1.line]) :
    b.Took x ((b.update .idle none).forward x.1.line) := by
  obtain ⟨h1, h2, h3, h4, h5, h6, h7, h8, h9⟩ := (b.update .idle none).forward_rest x.1.line
  refine ⟨h5.trans hl, h1, h2, h3, ?_, ?_, h6, h7, ?_, ?_⟩
  · rw [hreply]
    exact h4.trans (List.append_nil _).symm
  · rw [told_forward, hpulse, hevent, Bool.not_false, Bool.and_true]
    rfl
  · intro id n
    rw [h8, hid]
    simp [update]
  · intro id c
    rw [h9, hid]
    simp [update]

theorem get_remove_iff {V : Type} (m : HashMap String V) (id k : String) (v : V) :
    (m.remove id).get k = some v ↔ m.get k = some v ∧ some id ≠ some k := by
  rw [HashMap.get_remove]
  by_cases hk : k = id
  · simp [hk]
  · simp [hk, Ne.symm hk]

theorem get_of_none {V : Type} {m : HashMap String V} {id : String} (h : m.get id = none)
    (k : String) (v : V) : m.get k = some v ↔ m.get k = some v ∧ some id ≠ some k := by
  refine ⟨fun hk => ⟨hk, ?_⟩, fun hk => hk.1⟩
  rintro heq
  rw [← Option.some_inj.mp heq, h] at hk
  cases hk

/-- A response is for the sender or the channel that waits under its id. -/
theorem took_answer {b : Bridge} (hl : b.phase = .looping) (id : String) (result : ChatResult)
    {p : Post} (hpending : b.pending.get id = p.sender)
    (hchannel : b.pendingChannel.get id = p.channelId) (hasks : p.asks = true) :
    b.Took (.answer id result, p) (b.chatResponse (ZeptoPM.chatResponse id result)) := by
  have hid : (ZeptoPM.chatResponse id result).strOr "id" "" = id := by cases result <;> rfl
  unfold chatResponse
  dsimp only
  rw [hid, replyOf_chatResponse, hpending, hchannel]
  cases p with
  | message sender text =>
    cases sender with
    | some sender =>
      refine ⟨hl, rfl, rfl, rfl, answered_resolve .., ?_, rfl, rfl, ?_, ?_⟩
      · cases b.orchTx <;> exact (List.append_nil _).symm
      · exact fun k n => get_remove_iff b.pending id k n
      · exact fun k c => get_of_none hchannel k c
    | none =>
      refine ⟨hl, rfl, rfl, rfl, (List.append_nil _).symm, ?_, rfl, rfl, ?_, ?_⟩
      · cases b.orchTx <;> exact (List.append_nil _).symm
      · exact fun k n => get_of_none hpending k n
      · exact fun k c => get_of_none hchannel k c
  | channel channelId text =>
    show b.Took _ (channelResponse _ channelId result)
    unfold channelResponse
    dsimp only
    split
    · rename_i hjob
      refine ⟨hl, rfl, rfl, rfl, (List.append_nil _).symm, ?_, rfl, rfl, ?_, ?_⟩
      · show b.told = _
        rw [show Parcel.event b.orchJobId (.answer id result, .channel channelId text) = [] by
          rw [hjob]; rfl, ite_self]
        exact (List.append_nil _).symm
      · exact fun k n => get_of_none hpending k n
      · exact fun k c => get_remove_iff b.pendingChannel id k c
    · rename_i jobId hjob
      have hpulse : isPulse (channelEvent channelId jobId result) = false := by
        cases result <;> rfl
      obtain ⟨h1, h2, h3, h4, h5, h6, h7, h8, h9⟩ :=
        ({ b with pendingChannel := b.pendingChannel.remove id } : Bridge).forward_rest
          (channelEvent channelId jobId result)
      refine ⟨h5.trans hl, h1, h2, h3, h4.trans (List.append_nil _).symm, ?_, h6, h7, ?_, ?_⟩
      · rw [told_forward, hpulse, Bool.not_false, Bool.and_true]
        show _ = b.told ++ if b.orchTx then
          (b.orchJobId.map (fun jobId => channelEvent channelId jobId result)).toList else []
        rw [show b.orchJobId = some jobId from hjob]
        rfl
      · rw [h8]
        exact fun k n => get_of_none hpending k n
      · rw [h9]
        exact fun k c => get_remove_iff b.pendingChannel id k c
  | job jobId instruction workspace inputArtifacts => cases hasks
  | stop => cases hasks

/-- The news of a parcel is taken in view of what its post was kept under. -/
theorem took_output {b : Bridge} (hl : b.phase = .looping) {x : Parcel}
    (hpending : ∀ id, x.id = some id → b.pending.get id = x.2.sender)
    (hchannel : ∀ id, x.id = some id → b.pendingChannel.get id = x.2.channelId)
    (hasks : ∀ id, x.id = some id → x.2.asks = true) :
    b.Took x (b.step (.output x.1.line)) := by
  rw [step_looping hl]
  show b.Took x (b.handleOutput x.1.line)
  obtain ⟨news, p⟩ := x
  cases news with
  | answer id result =>
    have hout : b.handleOutput (ZeptoPM.chatResponse id result) =
        b.chatResponse (ZeptoPM.chatResponse id result) := by cases result <;> rfl
    show b.Took _ (b.handleOutput (ZeptoPM.chatResponse id result))
    rw [hout]
    exact took_answer hl id result (hpending id rfl) (hchannel id rfl) (hasks id rfl)
  | artifact jobId workspace response => exact took_forward hl rfl rfl rfl rfl
  | completed jobId => exact took_forward hl rfl rfl rfl rfl
  | failed jobId error => exact took_forward hl rfl rfl rfl rfl

end Bridge

end ZeptoPM
