import ZeptoPM.Parcels

/- How the link delivers. The lines that tell of work done are, in the order in which the
   worker writes them, those that the posts call for (`Attends`), and the bridge has made
   of the first of them what they are meant for (`Follows`): an id is pending until the
   answer for it is taken, and no id is given twice. -/
namespace ZeptoPM

/-! ## The worker -/

def WorkerEffect.sent : WorkerEffect → Option Json
  | .send line => some line
  | _ => none

section
variable {Message : Type}

/-- The lines that the worker is going to send. -/
def Worker.unsent (worker : Worker Message) : List Json := worker.todo.filterMap WorkerEffect.sent

namespace Worker

/-- The same work, at the same point, with the same lines sent or to be sent. -/
structure Alike (worker worker' : Worker Message) : Prop where
  agent : worker'.agent = worker.agent
  transcript : worker'.transcript = worker.transcript
  phase : worker'.phase = worker.phase
  lines : newsIn (worker'.out ++ worker'.unsent) = newsIn (worker.out ++ worker.unsent)

theorem alike_act (worker : Worker Message) (ok : Bool) : worker.Alike (worker.step (.act ok)) := by
  unfold step
  dsimp only
  split
  · exact ⟨rfl, rfl, rfl, rfl⟩
  · rename_i effect todo htodo
    have hunsent : worker.unsent = (effect :: todo).filterMap WorkerEffect.sent := by
      unfold unsent
      rw [htodo]
    cases effect with
    | send line =>
      refine ⟨rfl, rfl, rfl, ?_⟩
      rw [hunsent]
      show newsIn (worker.out ++ [line] ++ todo.filterMap _) = newsIn (worker.out ++ (line :: _))
      rw [List.append_assoc]
      rfl
    | createDirAll path => exact ⟨rfl, rfl, rfl, by rw [hunsent]; rfl⟩
    | write path content =>
      show worker.Alike (if ok = true then _ else _)
      split <;> exact ⟨rfl, rfl, rfl, by rw [hunsent]; rfl⟩
    | saveHistory =>
      show worker.Alike (if (ok && worker.sessionFile.isSome) = true then _ else _)
      split <;> exact ⟨rfl, rfl, rfl, by rw [hunsent]; rfl⟩
    | beat jobId => exact ⟨rfl, rfl, rfl, by rw [hunsent]; rfl⟩
    | abort => exact ⟨rfl, rfl, rfl, by rw [hunsent]; rfl⟩

theorem alike_tick (worker : Worker Message) (jobId : JobId) :
    worker.Alike (worker.tick jobId) := by
  have hpulse : newsIn (worker.out ++ [sendHeartbeat jobId "running"] ++ worker.unsent) =
      newsIn (worker.out ++ worker.unsent) := by
    rw [newsIn_append, newsIn_append, newsIn_append]
    show newsIn worker.out ++ [] ++ _ = _
    rw [List.append_nil]
  unfold tick
  split
  · exact ⟨rfl, rfl, rfl, hpulse⟩
  · split
    · exact ⟨rfl, rfl, rfl, hpulse⟩
    · exact ⟨rfl, rfl, rfl, rfl⟩

end Worker

namespace Link

/-- What the worker is at, by the posts. -/
def AtWork (l : Link Message) : Prop :=
  let done := l.worker.transcript.length
  match l.worker.phase with
  | .reading => l.read = done
  | .chatting id message => l.read = done + 1 ∧
    ∃ p, l.stamped[done]? = some (id, p) ∧ p.asks = true ∧ p.Prompts message
  | .executing jobId workspace context => l.read = done + 1 ∧
    ∃ id p, l.stamped[done]? = some (id, p) ∧ p.Prompts context ∧
      ∃ instruction inputArtifacts, p = .job jobId instruction workspace inputArtifacts
  | .leaving | .ended => done ≤ l.read

/-- The worker does what is posted, in order, and writes what there is to deliver of it. -/
structure Attends (l : Link Message) : Prop where
  read_le : l.read ≤ l.posts.length
  atWork : l.AtWork
  prompts : List.Forall₂ (fun p prompt => p.Prompts prompt)
    (l.posts.take l.worker.transcript.length) (l.worker.transcript.map (·.1))
  genuine : Genuine l.worker.agent.chat l.worker.transcript
  lines : ∃ lost, newsIn (l.worker.out ++ l.worker.unsent) ++ lost =
    l.parcels.map (fun x => x.1.line) ∧ (l.worker.phase ≠ .ended → lost = [])

variable {l : Link Message}

theorem AtWork.done_le (h : l.AtWork) : l.worker.transcript.length ≤ l.read := by
  unfold AtWork at h
  dsimp only at h
  split at h
  · exact h.ge
  · exact Nat.le_of_lt (by omega)
  · exact Nat.le_of_lt (by omega)
  · exact h
  · exact h

theorem Attends.done_le (h : l.Attends) : l.worker.transcript.length ≤ l.posts.length :=
  Nat.le_trans h.atWork.done_le h.read_le

theorem Attends.of_alike (h : l.Attends) {worker : Worker Message} (ha : l.worker.Alike worker) :
    ({ l with worker := worker } : Link Message).Attends := by
  refine ⟨h.read_le, ?_, ?_, ?_, ?_⟩
  · have hwork := h.atWork
    unfold AtWork at hwork ⊢
    show (let done := worker.transcript.length; _)
    rw [ha.transcript, ha.phase]
    exact hwork
  · show List.Forall₂ _ (l.posts.take worker.transcript.length) (worker.transcript.map (·.1))
    rw [ha.transcript]
    exact h.prompts
  · show Genuine worker.agent.chat worker.transcript
    rw [ha.transcript, ha.agent]
    exact h.genuine
  · obtain ⟨lost, hlines, hlost⟩ := h.lines
    refine ⟨lost, ?_, ?_⟩
    · show newsIn (worker.out ++ worker.unsent) ++ lost = _
      rw [ha.lines, hlines]
      unfold parcels stamped
      show _ = (((stamp 0 l.posts).zip (worker.transcript.map (·.2))).flatMap outcome).map _
      rw [ha.transcript]
    · show worker.phase ≠ .ended → lost = []
      rw [ha.phase]
      exact hlost

theorem zip_append_left {α β : Type} {xs : List α} {zs : List β} (h : zs.length ≤ xs.length)
    (ys : List α) : (xs ++ ys).zip zs = xs.zip zs := by
  induction xs generalizing zs with
  | nil =>
    rw [List.length_eq_zero_iff.mp (Nat.le_zero.mp h)]
    simp
  | cons x xs ih =>
    cases zs with
    | nil => rfl
    | cons z zs =>
      rw [List.cons_append, List.zip_cons_cons, List.zip_cons_cons,
        ih (Nat.le_of_succ_le_succ h)]

theorem zip_mono {α β : Type} (xs : List α) {zs zs' : List β} (h : zs <+: zs') :
    xs.zip zs <+: xs.zip zs' := by
  induction xs generalizing zs zs' with
  | nil => exact List.prefix_refl _
  | cons x xs ih =>
    cases zs with
    | nil => exact List.nil_prefix
    | cons z zs =>
      obtain ⟨more, rfl⟩ := h
      exact (List.prefix_cons_inj (x, z)).mpr (ih (List.prefix_append zs more))

/-- Posts to come do not change what is to be delivered. -/
theorem parcels_append (h : l.worker.transcript.length ≤ l.posts.length) (bridge : Bridge)
    (more : List Post) :
    ({ l with
      bridge := bridge
      posts := l.posts ++ more } : Link Message).parcels = l.parcels := by
  unfold parcels stamped
  show ((stamp 0 (l.posts ++ more)).zip _).flatMap outcome = _
  rw [stamp_append, zip_append_left]
  rw [List.length_map, stamp_length]
  exact h

theorem Attends.command (h : l.Attends) (i : BridgeInput) : (l.command i).Attends := by
  unfold Link.command
  generalize (if l.bridge.phase = .looping then (l.bridge.post i).toList else []) = more
  refine ⟨?_, ?_, ?_, h.genuine, ?_⟩
  · show l.read ≤ (l.posts ++ more).length
    rw [List.length_append]
    exact Nat.le_add_right_of_le h.read_le
  · have hget : ∀ {k : Nat} {x : String × Post}, l.stamped[k]? = some x →
        (stamp 0 (l.posts ++ more))[k]? = some x := by
      intro k x hx
      rw [stamp_append]
      exact (List.getElem?_append_left (List.getElem?_eq_some_iff.mp hx).1).trans hx
    have hwork := h.atWork
    unfold AtWork at hwork ⊢
    dsimp only at hwork ⊢
    split
    all_goals
      rename_i hphase
      rw [hphase] at hwork
    · exact hwork
    · obtain ⟨hread, p, hp, hrest⟩ := hwork
      exact ⟨hread, p, hget hp, hrest⟩
    · obtain ⟨hread, id, p, hp, hrest⟩ := hwork
      exact ⟨hread, id, p, hget hp, hrest⟩
    · exact hwork
    · exact hwork
  · show List.Forall₂ _ ((l.posts ++ more).take _) _
    rw [List.take_append_of_le_length h.done_le]
    exact h.prompts
  · show ∃ lost, _ = List.map _ (Link.parcels _) ∧ _
    rw [parcels_append h.done_le]
    exact h.lines

/-- What one more exchange adds. -/
theorem parcels_reply_append {worker : Worker Message} {id : String} {p : Post} {prompt : String}
    {result : ChatResult} (hp : l.stamped[l.worker.transcript.length]? = some (id, p))
    (ht : worker.transcript = l.worker.transcript ++ [(prompt, result)]) :
    ({ l with worker := worker } : Link Message).parcels =
      l.parcels ++ outcome ((id, p), result) := by
  obtain ⟨hlt, hget⟩ := List.getElem?_eq_some_iff.mp hp
  unfold parcels
  show (l.stamped.zip (worker.transcript.map (·.2))).flatMap outcome = _
  have hsplit : l.stamped = l.stamped.take l.worker.transcript.length ++
      (id, p) :: l.stamped.drop (l.worker.transcript.length + 1) := by
    rw [← hget, List.getElem_cons_drop, List.take_append_drop]
  have hlen : (l.stamped.take l.worker.transcript.length).length =
      (l.worker.transcript.map (·.2)).length := by
    rw [List.length_take, List.length_map]
    omega
  rw [ht, List.map_append, hsplit, List.zip_append hlen, List.flatMap_append]
  have hleft : (l.stamped.take l.worker.transcript.length ++
      (id, p) :: l.stamped.drop (l.worker.transcript.length + 1)).zip
        (l.worker.transcript.map (·.2)) =
      (l.stamped.take l.worker.transcript.length).zip (l.worker.transcript.map (·.2)) :=
    zip_append_left hlen.ge _
  rw [hleft, List.map_cons, List.map_nil, List.zip_cons_cons, List.zip_nil_right,
    List.flatMap_singleton]

/-- The agent answers what it was told for the post it is at. -/
theorem Attends.answer (h : l.Attends) {id prompt : String} {p : Post} {worker : Worker Message}
    (htodo : l.worker.todo = []) (hended : l.worker.phase ≠ .ended)
    (hread : l.read = l.worker.transcript.length + 1)
    (hp : l.stamped[l.worker.transcript.length]? = some (id, p)) (hprompt : p.Prompts prompt)
    (hagent : worker.agent = l.worker.agent) (hphase : worker.phase = .reading)
    (htranscript : worker.transcript =
      (ask l.worker.agent.chat l.worker.transcript prompt).2)
    (hout : worker.out = l.worker.out)
    (hunsent : newsIn worker.unsent =
      (p.news id (ask l.worker.agent.chat l.worker.transcript prompt).1).map News.line) :
    ({ l with worker := worker } : Link Message).Attends := by
  have hlen : worker.transcript.length = l.worker.transcript.length + 1 := by
    rw [htranscript]
    exact List.length_append
  have hpost : l.posts[l.worker.transcript.length]? = some p := by
    rw [← stamp_map_snd 0 l.posts, List.getElem?_map]
    exact congrArg (Option.map (·.2)) hp
  obtain ⟨hlt, hget⟩ := List.getElem?_eq_some_iff.mp hpost
  refine ⟨h.read_le, ?_, ?_, ?_, [], ?_, fun _ => rfl⟩
  · unfold AtWork
    dsimp only
    rw [hphase, hlen]
    exact hread
  · show List.Forall₂ _ (l.posts.take worker.transcript.length) (worker.transcript.map (·.1))
    rw [hlen, ← List.take_append_getElem hlt, htranscript]
    show List.Forall₂ _ _ (List.map _ (l.worker.transcript ++ [_]))
    rw [List.map_append, hget]
    exact List.rel_append h.prompts (.cons hprompt .nil)
  · show Genuine worker.agent.chat worker.transcript
    rw [htranscript, hagent]
    exact h.genuine.ask prompt
  · obtain ⟨lost, hlines, hlost⟩ := h.lines
    rw [hlost hended, List.append_nil, show l.worker.unsent = [] by
      unfold Worker.unsent
      rw [htodo]
      rfl, List.append_nil] at hlines
    show newsIn (worker.out ++ worker.unsent) ++ [] = List.map _ (Link.parcels _)
    rw [parcels_reply_append hp htranscript, List.map_append, List.append_nil, newsIn_append, hout,
      hlines, hunsent]
    unfold outcome
    rw [List.map_map]
    rfl

theorem newsIn_chatEffects (id : String) (result : ChatResult) :
    newsIn ((Worker.chatEffects id result).filterMap WorkerEffect.sent) =
      [chatResponse id result] := by
  cases result <;> rfl

theorem newsIn_jobEffects (jobId : JobId) (workspace : PathBuf) (result : ChatResult) :
    newsIn ((Worker.jobEffects jobId workspace result).filterMap WorkerEffect.sent) =
      match result with
      | .ok response => [artifactProduced jobId workspace response, jobCompleted jobId]
      | .error e => [jobFailed jobId e] := by
  cases result <;> rfl

theorem Attends.reply (h : l.Attends) : (l.move .reply).Attends := by
  have hwork := h.atWork
  unfold AtWork at hwork
  unfold Link.move Worker.step
  dsimp only
  split
  · rename_i htodo
    unfold Worker.reply
    split
    · rename_i id message hphase
      rw [hphase] at hwork
      obtain ⟨hread, p, hp, hasks, hprompt⟩ := hwork
      refine h.answer htodo (by rw [hphase]; simp) hread hp hprompt rfl rfl rfl rfl ?_
      refine (newsIn_chatEffects id _).trans ?_
      cases p with
      | message sender text => rfl
      | channel channelId text => rfl
      | job jobId instruction workspace inputArtifacts => cases hasks
      | stop => cases hasks
    · rename_i jobId workspace context hphase
      rw [hphase] at hwork
      obtain ⟨hread, id, p, hp, hprompt, instruction, inputArtifacts, rfl⟩ := hwork
      refine h.answer htodo (by rw [hphase]; simp) hread hp hprompt rfl rfl rfl rfl ?_
      refine (newsIn_jobEffects jobId workspace _).trans ?_
      generalize (ask l.worker.agent.chat l.worker.transcript context).1 = result
      cases result <;> rfl
    · exact h
  · exact h

/-- The process ends, and with it what it has not sent. -/
theorem Attends.die (h : l.Attends) :
    ({ l with worker := l.worker.die } : Link Message).Attends := by
  refine ⟨h.read_le, h.atWork.done_le, h.prompts, h.genuine, ?_⟩
  obtain ⟨lost, hlines, -⟩ := h.lines
  refine ⟨newsIn l.worker.unsent ++ lost, ?_, fun hne => absurd rfl hne⟩
  show newsIn (l.worker.out ++ []) ++ (newsIn l.worker.unsent ++ lost) = _
  rw [List.append_nil, ← List.append_assoc, ← newsIn_append]
  exact hlines

/-- The bridge has written the lines of its posts. -/
def Written (l : Link Message) : Prop :=
  l.bridge.toWorker = l.stamped.map (fun x => x.2.line l.bridge.orchJobId x.1)

/-- A command leads to no news before the agent has answered. -/
theorem newsIn_accept (worker : Worker Message) (readToString : PathBuf → Option String)
    (cmd : WorkerCommand) (htodo : worker.todo = []) :
    newsIn (worker.accept readToString cmd).unsent = [] := by
  cases cmd with
  | chat id jobId message => cases jobId <;> rfl
  | jobExecute jobId instruction workspace inputArtifacts => rfl
  | stop =>
    unfold Worker.accept Worker.unsent
    dsimp only
    split <;> rfl
  | other =>
    unfold Worker.accept Worker.unsent
    rw [htodo]
    rfl

/-- What a command leaves as it is. -/
theorem accept_rest (worker : Worker Message) (readToString : PathBuf → Option String)
    (cmd : WorkerCommand) : (worker.accept readToString cmd).agent = worker.agent ∧
    (worker.accept readToString cmd).transcript = worker.transcript ∧
    (worker.accept readToString cmd).out = worker.out := by
  cases cmd <;> exact ⟨rfl, rfl, rfl⟩

theorem Attends.readLine (h : l.Attends) (hw : l.Written)
    (readToString : PathBuf → Option String) : (l.readLine readToString).Attends := by
  unfold Link.readLine
  split
  · rename_i cmd hphase htodo hline
    rw [hw, List.getElem?_map] at hline
    obtain ⟨⟨id, p⟩, hp, rfl⟩ := Option.map_eq_some_iff.mp hline
    have hread : l.read = l.worker.transcript.length := by
      have hwork := h.atWork
      unfold AtWork at hwork
      dsimp only at hwork
      rw [hphase] at hwork
      exact hwork
    have hstep : l.worker.step (.line (some (p.line l.bridge.orchJobId id)) readToString) =
        l.worker.accept readToString (p.workerCommand l.bridge.orchJobId id) := by
      rw [← ofJson_line]
      exact Worker.step_line hphase htodo _ readToString
    obtain ⟨hagent, htranscript, hout⟩ :=
      accept_rest l.worker readToString (p.workerCommand l.bridge.orchJobId id)
    have hnews := newsIn_accept l.worker readToString (p.workerCommand l.bridge.orchJobId id) htodo
    unfold Link.move
    rw [hstep]
    refine ⟨?_, ?_, ?_, ?_, ?_⟩
    · have hlt := (List.getElem?_eq_some_iff.mp hp).1
      unfold stamped at hlt
      rw [stamp_length] at hlt
      exact hlt
    · have hat : l.stamped[l.worker.transcript.length]? = some (id, p) := hread ▸ hp
      unfold AtWork
      dsimp only
      rw [htranscript]
      cases p with
      | message sender text =>
        exact ⟨congrArg (· + 1) hread, .message sender text, hat, rfl, rfl⟩
      | channel channelId text =>
        exact ⟨congrArg (· + 1) hread, .channel channelId text, hat, rfl, rfl⟩
      | job jobId instruction workspace inputArtifacts =>
        exact ⟨congrArg (· + 1) hread, id, .job jobId instruction workspace inputArtifacts, hat,
          ⟨readToString, rfl⟩, _, _, rfl⟩
      | stop => exact Nat.le_succ_of_le hread.ge
    · show List.Forall₂ _ (l.posts.take (Worker.transcript _).length)
        ((Worker.transcript _).map _)
      rw [htranscript]
      exact h.prompts
    · show Genuine (Worker.agent _).chat (Worker.transcript _)
      rw [htranscript, hagent]
      exact h.genuine
    · obtain ⟨lost, hlines, hlost⟩ := h.lines
      refine ⟨lost, ?_, fun _ => hlost (by rw [hphase]; simp)⟩
      show newsIn (Worker.out _ ++ Worker.unsent _) ++ lost =
        (((stamp 0 l.posts).zip ((Worker.transcript _).map (·.2))).flatMap outcome).map _
      rw [newsIn_append, hnews, hout, htranscript, List.append_nil]
      rw [newsIn_append, show l.worker.unsent = [] by
        unfold Worker.unsent
        rw [htodo]
        rfl, newsIn_nil, List.append_nil] at hlines
      exact hlines
  · exact h

/-- The worker leaves its loop at the end of its input. -/
theorem Attends.endOfInput (h : l.Attends) : (l.move .endOfInput).Attends := by
  unfold Link.move Worker.step
  dsimp only
  split
  · rename_i hphase htodo
    refine ⟨h.read_le, h.atWork.done_le, h.prompts, h.genuine, ?_⟩
    obtain ⟨lost, hlines, hlost⟩ := h.lines
    exact ⟨lost, hlines, fun _ => hlost (by rw [hphase]; simp)⟩
  · exact h

theorem Attends.exit (h : l.Attends) : (l.move .exit).Attends := by
  unfold Link.move Worker.step
  dsimp only
  split
  · exact h.die
  · exact h

theorem Attends.deliver (h : l.Attends) : l.deliver.Attends := by
  unfold Link.deliver
  split
  · exact ⟨h.read_le, h.atWork, h.prompts, h.genuine, h.lines⟩
  · exact h

/-- The worker keeps up whatever happens, given the lines it reads. -/
theorem Attends.step (h : l.Attends) (hw : l.Written) (i : LinkInput) : (l.step i).Attends := by
  cases i with
  | userMessage message reply written => exact h.command _
  | channelMessage channelId message written => exact h.command _
  | jobExecute jobId instruction workspace inputArtifacts written => exact h.command _
  | stop written => exact h.command _
  | closed => exact h.command _
  | deliver => exact h.deliver
  | endOfOutput =>
    unfold Link.step
    dsimp only
    split
    · exact h.command _
    · exact h
  | childExit failure =>
    unfold Link.step
    dsimp only
    split
    · exact h.command _
    · exact h
  | read readToString => exact h.readLine hw readToString
  | endOfInput =>
    unfold Link.step
    dsimp only
    split
    · exact h.endOfInput
    · exact h
  | act ok => exact h.of_alike (l.worker.alike_act ok)
  | reply => exact h.reply
  | tick jobId => exact h.of_alike (l.worker.alike_tick jobId)
  | exit => exact h.exit
  | crash => exact h.die

/-! ## Both ends -/

/-- What the bridge has taken of what there is to deliver. -/
def taken (l : Link Message) : List Parcel :=
  l.parcels.take (newsIn (l.worker.out.take l.fetched)).length

/-- What is pending is what was posted and is not answered. -/
structure Desk (l : Link Message) : Prop where
  reqCounter : l.bridge.reqCounter = l.posts.countP (·.asks)
  senders : l.posts.filterMap (·.sender) = List.range l.bridge.received
  pending : ∀ id n, l.bridge.pending.get id = some n ↔
    (∃ p, (id, p) ∈ l.stamped ∧ p.sender = some n) ∧ some id ∉ l.taken.map Parcel.id
  pendingChannel : ∀ id c, l.bridge.pendingChannel.get id = some c ↔
    (∃ p, (id, p) ∈ l.stamped ∧ p.channelId = some c) ∧ some id ∉ l.taken.map Parcel.id

/-- The bridge makes of what it takes what it is for. -/
structure Follows (l : Link Message) : Prop where
  fetched_le : l.fetched ≤ l.worker.out.length
  written : l.Written
  answered : l.bridge.answered = l.taken.filterMap Parcel.reply
  told : l.bridge.told =
    if l.bridge.orchTx then l.taken.flatMap (Parcel.event l.bridge.orchJobId) else []
  desk : l.bridge.phase = .looping → l.Desk

theorem asks_of_sender {p : Post} {n : Nat} (h : p.sender = some n) : p.asks = true := by
  cases p <;> first | rfl | cases h

theorem asks_of_channelId {p : Post} {c : ChannelId} (h : p.channelId = some c) :
    p.asks = true := by
  cases p <;> first | rfl | cases h

/-- Of the lines taken there are no more than there is to deliver. -/
theorem Attends.newsIn_prefix (h : l.Attends) (n : Nat) :
    newsIn (l.worker.out.take n) <+: l.parcels.map (fun x => x.1.line) := by
  obtain ⟨lost, hlines, -⟩ := h.lines
  rw [← hlines, newsIn_append, List.append_assoc]
  exact ((List.take_prefix n _).filter _).trans (List.prefix_append ..)

theorem Attends.taken_length (h : l.Attends) :
    (newsIn (l.worker.out.take l.fetched)).length ≤ l.parcels.length :=
  (h.newsIn_prefix _).length_le.trans (List.length_map _).le

/-- Work that is only added to leaves what was taken as it is. -/
theorem taken_of_prefix (h : l.Attends) (hf : l.fetched ≤ l.worker.out.length)
    {worker : Worker Message} (hout : l.worker.out <+: worker.out)
    (htranscript : l.worker.transcript <+: worker.transcript) :
    ({ l with worker := worker } : Link Message).taken = l.taken := by
  obtain ⟨lines, hlines⟩ := hout
  obtain ⟨more, hmore⟩ : l.parcels <+: ({ l with worker := worker } : Link Message).parcels :=
    (zip_mono l.stamped (htranscript.map _)).flatMap outcome
  unfold taken
  show List.take (newsIn (worker.out.take l.fetched)).length _ = _
  rw [← hlines, List.take_append_of_le_length hf, ← hmore,
    List.take_append_of_le_length h.taken_length]

/-- A worker only adds to what it has written and said. -/
theorem worker_adds (worker : Worker Message) (m : WorkerMove) :
    worker.out <+: (worker.step m).out ∧ worker.transcript <+: (worker.step m).transcript := by
  have hrefl : worker.out <+: worker.out ∧ worker.transcript <+: worker.transcript :=
    ⟨List.prefix_refl _, List.prefix_refl _⟩
  cases m with
  | line cmd readToString =>
    unfold Worker.step
    dsimp only
    split
    · rename_i cmd hphase htodo
      obtain ⟨-, htranscript, hout⟩ := accept_rest worker readToString (.ofJson cmd)
      rw [htranscript, hout]
      exact hrefl
    · exact hrefl
  | endOfInput =>
    unfold Worker.step
    dsimp only
    split <;> exact hrefl
  | act ok =>
    unfold Worker.step
    dsimp only
    split
    · exact hrefl
    · rename_i effect todo htodo
      cases effect with
      | send line => exact ⟨List.prefix_append .., List.prefix_refl _⟩
      | createDirAll path => exact hrefl
      | write path content =>
        unfold Worker.perform
        dsimp only
        split <;> exact hrefl
      | saveHistory =>
        unfold Worker.perform
        dsimp only
        split <;> exact hrefl
      | beat jobId => exact hrefl
      | abort => exact hrefl
  | reply =>
    unfold Worker.step Worker.reply
    dsimp only
    split
    · split
      · exact ⟨List.prefix_refl _, List.prefix_append ..⟩
      · exact ⟨List.prefix_refl _, List.prefix_append ..⟩
      · exact hrefl
    · exact hrefl
  | tick jobId =>
    unfold Worker.step Worker.tick
    dsimp only
    split
    · exact ⟨List.prefix_append .., List.prefix_refl _⟩
    · split
      · exact ⟨List.prefix_append .., List.prefix_refl _⟩
      · exact hrefl
  | exit =>
    unfold Worker.step
    dsimp only
    split <;> exact hrefl
  | crash => exact hrefl

theorem Follows.of_worker (hf : l.Follows) (h : l.Attends) {worker : Worker Message} {read : Nat}
    (hout : l.worker.out <+: worker.out)
    (htranscript : l.worker.transcript <+: worker.transcript) :
    ({ l with
      worker := worker
      read := read } : Link Message).Follows := by
  have htaken : ({ l with
      worker := worker
      read := read } : Link Message).taken = l.taken :=
    taken_of_prefix h hf.fetched_le hout htranscript
  refine ⟨hf.fetched_le.trans hout.length_le, hf.written, ?_, ?_, ?_⟩
  · rw [htaken]
    exact hf.answered
  · rw [htaken]
    exact hf.told
  · intro hl
    have hdesk := hf.desk hl
    refine ⟨hdesk.reqCounter, hdesk.senders, ?_, ?_⟩
    · rw [htaken]
      exact hdesk.pending
    · rw [htaken]
      exact hdesk.pendingChannel

theorem Follows.move (hf : l.Follows) (h : l.Attends) (m : WorkerMove) : (l.move m).Follows :=
  hf.of_worker h (worker_adds l.worker m).1 (worker_adds l.worker m).2

theorem Follows.readLine (hf : l.Follows) (h : l.Attends)
    (readToString : PathBuf → Option String) : (l.readLine readToString).Follows := by
  unfold Link.readLine
  split
  · exact hf.of_worker h (worker_adds l.worker _).1 (worker_adds l.worker _).2
  · exact hf

/-- A step of the bridge that is of no matter here. -/
theorem Follows.of_quiet (hf : l.Follows) {bridge : Bridge} (hq : l.bridge.Quiet bridge)
    {fetched : Nat} (hle : fetched ≤ l.worker.out.length)
    (hnews : newsIn (l.worker.out.take fetched) = newsIn (l.worker.out.take l.fetched)) :
    ({ l with
      bridge := bridge
      fetched := fetched } : Link Message).Follows := by
  have htaken : ({ l with
      bridge := bridge
      fetched := fetched } : Link Message).taken = l.taken := by
    unfold taken
    show List.take (newsIn (l.worker.out.take fetched)).length _ = _
    rw [hnews]
    rfl
  refine ⟨hle, ?_, ?_, ?_, ?_⟩
  · show bridge.toWorker = List.map (fun x => x.2.line bridge.orchJobId x.1) l.stamped
    rw [hq.toWorker, hq.orchJobId]
    exact hf.written
  · show bridge.answered = _
    rw [htaken, hq.answered]
    exact hf.answered
  · show bridge.told = if bridge.orchTx then List.flatMap (Parcel.event bridge.orchJobId) _ else []
    rw [htaken, hq.told, hq.orchTx, hq.orchJobId]
    exact hf.told
  · intro hl
    obtain ⟨hl, h1, h2, h3, h4⟩ := hq.desk hl
    have hdesk := hf.desk hl
    refine ⟨h1.trans hdesk.reqCounter, ?_, ?_, ?_⟩
    · show _ = List.range bridge.received
      rw [h2]
      exact hdesk.senders
    · show ∀ id n, bridge.pending.get id = some n ↔ _
      rw [htaken, h3]
      exact hdesk.pending
    · show ∀ id c, bridge.pendingChannel.get id = some c ↔ _
      rw [htaken, h4]
      exact hdesk.pendingChannel

/-- What was answered was posted. -/
theorem stamped_of_taken {id : String} (h : some id ∈ l.taken.map Parcel.id) :
    ∃ p, (id, p) ∈ l.stamped ∧ p.asks = true := by
  obtain ⟨x, hx, hid⟩ := List.mem_map.mp h
  obtain ⟨hmem, hasks⟩ := mem_stamped_of_parcel (List.mem_of_mem_take hx) hid
  exact ⟨x.2, hmem, hasks⟩

/-- A line for a post, with what it was written for. -/
theorem Follows.posted (hf : l.Follows) (h : l.Attends) (hl : l.bridge.phase = .looping)
    {p : Post} {bridge : Bridge} (hp : l.bridge.Posted p bridge) :
    ({ l with
      bridge := bridge
      posts := l.posts ++ [p] } : Link Message).Follows := by
  have hdesk := hf.desk hl
  have hstamped : stamp 0 (l.posts ++ [p]) = l.stamped ++ [(l.bridge.idOf p, p)] := by
    rw [stamp_append, stamp_cons, Nat.zero_add, ← hdesk.reqCounter]
    rfl
  have htaken : ({ l with
      bridge := bridge
      posts := l.posts ++ [p] } : Link Message).taken = l.taken := by
    unfold taken
    rw [parcels_append h.done_le]
  have hkept : ∀ {α : Type} (f : Post → Option α),
      (∀ q a, f q = some a → q.asks = true) →
      ∀ (id : String) (a : α),
      ((∃ q, (id, q) ∈ l.stamped ∧ f q = some a) ∧ some id ∉ l.taken.map Parcel.id ∨
        f p = some a ∧ id = l.bridge.idOf p) ↔
      (∃ q, (id, q) ∈ stamp 0 (l.posts ++ [p]) ∧ f q = some a) ∧
        some id ∉ l.taken.map Parcel.id := by
    intro α f hasks id a
    rw [hstamped]
    refine ⟨?_, ?_⟩
    · rintro (⟨⟨q, hq, ha⟩, hid⟩ | ⟨ha, rfl⟩)
      · exact ⟨⟨q, List.mem_append_left _ hq, ha⟩, hid⟩
      · refine ⟨⟨p, List.mem_append_right _ (List.mem_singleton.mpr rfl), ha⟩, ?_⟩
        intro hmem
        obtain ⟨q, hq, hqasks⟩ := stamped_of_taken hmem
        rw [Bridge.idOf, if_pos (hasks p a ha), hdesk.reqCounter] at hq
        exact reqId_fresh l.posts q hqasks hq
    · rintro ⟨⟨q, hq, ha⟩, hid⟩
      rcases List.mem_append.mp hq with hq | hq
      · exact Or.inl ⟨⟨q, hq, ha⟩, hid⟩
      · obtain ⟨rfl, rfl⟩ := Prod.mk.inj (List.mem_singleton.mp hq)
        exact Or.inr ⟨ha, rfl⟩
  refine ⟨hf.fetched_le, ?_, ?_, ?_, ?_⟩
  · show bridge.toWorker =
      List.map (fun x => x.2.line bridge.orchJobId x.1) (stamp 0 (l.posts ++ [p]))
    rw [hp.toWorker, hp.orchJobId, hstamped, List.map_append, hf.written]
    rfl
  · show bridge.answered = _
    rw [htaken, hp.answered]
    exact hf.answered
  · show bridge.told = if bridge.orchTx then List.flatMap (Parcel.event bridge.orchJobId) _ else []
    rw [htaken, hp.told, hp.orchTx, hp.orchJobId]
    exact hf.told
  · intro _
    refine ⟨?_, ?_, ?_, ?_⟩
    · show bridge.reqCounter = (l.posts ++ [p]).countP _
      rw [hp.reqCounter, hdesk.reqCounter, List.countP_append, List.countP_singleton]
    · show (l.posts ++ [p]).filterMap _ = List.range bridge.received
      rw [List.filterMap_append, hdesk.senders, hp.received, List.filterMap_cons]
      cases hsender : p.sender with
      | none => exact List.append_nil _
      | some n =>
        rw [hp.sender n hsender]
        exact List.range_succ.symm
    · intro id n
      show bridge.pending.get id = some n ↔ _
      rw [htaken, hp.pending, hdesk.pending]
      exact hkept (·.sender) (fun q _ => asks_of_sender) id n
    · intro id c
      show bridge.pendingChannel.get id = some c ↔ _
      rw [htaken, hp.pendingChannel, hdesk.pendingChannel]
      exact hkept (·.channelId) (fun q _ => asks_of_channelId) id c

/-- A command for the bridge, as long as there are ids left. -/
theorem Follows.command (hf : l.Follows) (h : l.Attends) {i : BridgeInput}
    (hi : ∀ msg, i ≠ .output msg)
    (hbound : Bridge.takesId i = true → l.posts.countP (·.asks) + 1 < 2 ^ 64) :
    (l.command i).Follows := by
  unfold Link.command
  by_cases hl : l.bridge.phase = .looping
  · rw [if_pos hl]
    cases hpost : l.bridge.post i with
    | none =>
      show ({ l with
        bridge := l.bridge.step i
        posts := l.posts ++ [] } : Link Message).Follows
      rw [List.append_nil]
      exact hf.of_quiet (Bridge.quiet_step_of_unposted hi hpost) hf.fetched_le rfl
    | some p =>
      have hdesk := hf.desk hl
      have hfresh : ∀ q, q.asks = true →
          (Bridge.reqId (l.bridge.reqCounter + 1), q) ∉ l.stamped := by
        intro q hq
        rw [hdesk.reqCounter]
        exact reqId_fresh l.posts q hq
      refine hf.posted h hl (Bridge.posted_step hl hpost ?_ ?_ ?_)
      · intro hasks
        rw [hdesk.reqCounter]
        refine hbound ?_
        unfold Bridge.post at hpost
        split at hpost <;> first | rfl | (cases hpost; cases hasks) | cases hpost
      · refine Option.eq_none_iff_forall_ne_some.mpr fun n hn => ?_
        obtain ⟨⟨q, hq, hsender⟩, -⟩ := (hdesk.pending _ n).mp hn
        exact hfresh q (asks_of_sender hsender) hq
      · refine Option.eq_none_iff_forall_ne_some.mpr fun c hc => ?_
        obtain ⟨⟨q, hq, hchannel⟩, -⟩ := (hdesk.pendingChannel _ c).mp hc
        exact hfresh q (asks_of_channelId hchannel) hq
  · rw [if_neg hl, List.append_nil]
    exact hf.of_quiet (Bridge.quiet_step_of_left hl i) hf.fetched_le rfl

/-- The next line of news is that of the next parcel. -/
theorem Attends.next_parcel (h : l.Attends) {msg : Json}
    (hmsg : l.worker.out[l.fetched]? = some msg) (hnews : isNews msg = true) :
    ∃ x, l.parcels[(newsIn (l.worker.out.take l.fetched)).length]? = some x ∧
      x.1.line = msg := by
  obtain ⟨rest, hrest⟩ := h.newsIn_prefix (l.fetched + 1)
  obtain ⟨hlt, hget⟩ := List.getElem?_eq_some_iff.mp hmsg
  rw [← List.take_append_getElem hlt, hget, newsIn_append, show newsIn [msg] = [msg] from
    List.filter_cons_of_pos hnews, List.append_assoc] at hrest
  have hat : (l.parcels.map (fun x => x.1.line))[(newsIn (l.worker.out.take l.fetched)).length]? =
      some msg := by
    rw [← hrest, List.getElem?_append_right (Nat.le_refl _), Nat.sub_self]
    rfl
  rw [List.getElem?_map] at hat
  obtain ⟨x, hx, hline⟩ := Option.map_eq_some_iff.mp hat
  exact ⟨x, hx, hline⟩

theorem Follows.took (hf : l.Follows) (hl : l.bridge.phase = .looping) {msg : Json}
    (hmsg : l.worker.out[l.fetched]? = some msg) (hnews : isNews msg = true) {x : Parcel}
    (hx : l.parcels[(newsIn (l.worker.out.take l.fetched)).length]? = some x)
    {bridge : Bridge} (ht : l.bridge.Took x bridge) :
    ({ l with
      bridge := bridge
      fetched := l.fetched + 1 } : Link Message).Follows := by
  have hdesk := hf.desk hl
  obtain ⟨hlt, hget⟩ := List.getElem?_eq_some_iff.mp hmsg
  obtain ⟨hxlt, hxget⟩ := List.getElem?_eq_some_iff.mp hx
  have htaken : ({ l with
      bridge := bridge
      fetched := l.fetched + 1 } : Link Message).taken = l.taken ++ [x] := by
    unfold taken
    show List.take (newsIn (l.worker.out.take (l.fetched + 1))).length l.parcels = _
    rw [← List.take_append_getElem hlt, hget, newsIn_append, show newsIn [msg] = [msg] from
      List.filter_cons_of_pos hnews, List.length_append, List.length_singleton,
      ← List.take_append_getElem hxlt, hxget]
  have hless : ∀ {α : Type} (f : Post → Option α) (id : String) (a : α),
      (((∃ q, (id, q) ∈ l.stamped ∧ f q = some a) ∧ some id ∉ l.taken.map Parcel.id) ∧
        x.id ≠ some id) ↔
      (∃ q, (id, q) ∈ l.stamped ∧ f q = some a) ∧
        some id ∉ (l.taken ++ [x]).map Parcel.id := by
    intro α f id a
    rw [List.map_append, List.mem_append, not_or, and_assoc]
    refine and_congr_right fun _ => and_congr_right fun _ => ?_
    rw [List.map_singleton, List.mem_singleton]
    exact ne_comm
  refine ⟨hlt, ?_, ?_, ?_, ?_⟩
  · show bridge.toWorker = List.map (fun x => x.2.line bridge.orchJobId x.1) l.stamped
    rw [ht.toWorker, ht.orchJobId]
    exact hf.written
  · show bridge.answered = _
    rw [htaken, ht.answered, hf.answered, List.filterMap_append]
    rw [List.filterMap_cons]
    cases x.reply <;> rfl
  · show bridge.told = if bridge.orchTx then List.flatMap (Parcel.event bridge.orchJobId) _ else []
    rw [htaken, ht.told, ht.orchTx, ht.orchJobId, hf.told, List.flatMap_append,
      List.flatMap_singleton]
    cases l.bridge.orchTx <;> rfl
  · intro _
    refine ⟨ht.reqCounter.trans hdesk.reqCounter, ?_, ?_, ?_⟩
    · show _ = List.range bridge.received
      rw [ht.received]
      exact hdesk.senders
    · intro id n
      show bridge.pending.get id = some n ↔ _
      rw [htaken, ht.pending, hdesk.pending]
      exact hless (·.sender) id n
    · intro id c
      show bridge.pendingChannel.get id = some c ↔ _
      rw [htaken, ht.pendingChannel, hdesk.pendingChannel]
      exact hless (·.channelId) id c

/-- What waits under the id of the next answer is what its post was written for. -/
theorem waiting_of_parcel {x : Parcel}
    (hx : l.parcels[(newsIn (l.worker.out.take l.fetched)).length]? = some x) {id : String}
    (hid : x.id = some id) {V : Type} {m : HashMap String V} (f : Post → Option V)
    (hf : ∀ q v, f q = some v → q.asks = true)
    (hm : ∀ id v, m.get id = some v ↔
      (∃ p, (id, p) ∈ l.stamped ∧ f p = some v) ∧ some id ∉ l.taken.map Parcel.id) :
    m.get id = f x.2 := by
  obtain ⟨hlt, hget⟩ := List.getElem?_eq_some_iff.mp hx
  obtain ⟨hmem, hasks⟩ := mem_stamped_of_parcel (hget ▸ List.getElem_mem hlt) hid
  have hnot : some id ∉ l.taken.map Parcel.id := by
    intro hold
    have hnodup := l.parcels_id_nodup
    rw [← List.take_append_drop (newsIn (l.worker.out.take l.fetched)).length l.parcels,
      List.drop_eq_getElem_cons hlt, hget, List.filterMap_append, List.filterMap_cons, hid]
      at hnodup
    have hin : id ∈ l.taken.filterMap Parcel.id := by
      obtain ⟨y, hy, hyid⟩ := List.mem_map.mp hold
      exact List.mem_filterMap.mpr ⟨y, hy, hyid⟩
    exact (List.disjoint_of_nodup_append hnodup) hin List.mem_cons_self
  refine Option.ext fun v => ?_
  rw [hm]
  refine ⟨?_, fun hv => ⟨⟨x.2, hmem, hv⟩, hnot⟩⟩
  rintro ⟨⟨q, hq, hv⟩, -⟩
  rwa [← post_of_id hq hmem (hf q v hv) hasks]

theorem Follows.deliver (hf : l.Follows) (h : l.Attends) : l.deliver.Follows := by
  unfold Link.deliver
  split
  · rename_i msg hl hmsg
    obtain ⟨hlt, hget⟩ := List.getElem?_eq_some_iff.mp hmsg
    cases hnews : isNews msg with
    | false =>
      refine hf.of_quiet (Bridge.quiet_output hl hnews) hlt ?_
      rw [← List.take_append_getElem hlt, hget, newsIn_append, show newsIn [msg] = [] from
        List.filter_cons_of_neg (by rw [hnews]; simp), List.append_nil]
    | true =>
      -- the line is the next parcel, and the tables have the post that it answers
      obtain ⟨x, hx, rfl⟩ := h.next_parcel hmsg hnews
      have hdesk := hf.desk hl
      refine hf.took hl hmsg hnews hx (Bridge.took_output hl ?_ ?_ ?_)
      · exact fun id hid => waiting_of_parcel hx hid (·.sender) (fun q _ => asks_of_sender)
          hdesk.pending
      · exact fun id hid => waiting_of_parcel hx hid (·.channelId) (fun q _ => asks_of_channelId)
          hdesk.pendingChannel
      · intro id hid
        obtain ⟨hxlt, hxget⟩ := List.getElem?_eq_some_iff.mp hx
        exact (mem_stamped_of_parcel (hxget ▸ List.getElem_mem hxlt) hid).2
  · exact hf

theorem Follows.step (hf : l.Follows) (h : l.Attends) (i : LinkInput)
    (hbound : i.asks = true → l.posts.countP (·.asks) + 1 < 2 ^ 64) : (l.step i).Follows := by
  cases i with
  | userMessage message reply written => exact hf.command h (by simp) (fun _ => hbound rfl)
  | channelMessage channelId message written => exact hf.command h (by simp) (fun _ => hbound rfl)
  | jobExecute jobId instruction workspace inputArtifacts written =>
    exact hf.command h (by simp) (fun hi => (nomatch hi))
  | stop written => exact hf.command h (by simp) (fun hi => (nomatch hi))
  | closed => exact hf.command h (by simp) (fun hi => (nomatch hi))
  | deliver => exact hf.deliver h
  | endOfOutput =>
    unfold Link.step
    dsimp only
    split
    · exact hf.command h (by simp) (fun hi => (nomatch hi))
    · exact hf
  | childExit failure =>
    unfold Link.step
    dsimp only
    split
    · exact hf.command h (by simp) (fun hi => (nomatch hi))
    · exact hf
  | read readToString => exact hf.readLine h readToString
  | endOfInput =>
    unfold Link.step
    dsimp only
    split
    · exact hf.move h .endOfInput
    · exact hf
  | act ok => exact hf.move h (.act ok)
  | reply => exact hf.move h .reply
  | tick jobId => exact hf.move h (.tick jobId)
  | exit => exact hf.move h .exit
  | crash => exact hf.move h .crash

/-- An input adds at most one post, and one that asks only if it does itself. -/
theorem step_posts (l : Link Message) (i : LinkInput) :
    (l.step i).posts.countP (·.asks) ≤
      l.posts.countP (·.asks) + if i.asks = true then 1 else 0 := by
  have hcommand : ∀ (j : BridgeInput) (n : Nat),
      (l.bridge.post j).toList.countP (·.asks) ≤ n →
      (l.command j).posts.countP (·.asks) ≤ l.posts.countP (·.asks) + n := by
    intro j n hn
    show (l.posts ++
      if l.bridge.phase = .looping then (l.bridge.post j).toList else []).countP _ ≤ _
    rw [List.countP_append]
    refine Nat.add_le_add_left ?_ _
    split
    · exact hn
    · exact Nat.zero_le n
  have hkeep : l.posts.countP (·.asks) ≤ l.posts.countP (·.asks) + 0 := Nat.le_refl _
  cases i with
  | userMessage message reply written =>
    exact hcommand _ _ (by cases written <;> simp [Bridge.post, Post.asks, LinkInput.asks])
  | channelMessage channelId message written =>
    exact hcommand _ _ (by cases written <;> simp [Bridge.post, Post.asks, LinkInput.asks])
  | jobExecute jobId instruction workspace inputArtifacts written =>
    exact hcommand _ _ (by cases written <;> simp [Bridge.post, Post.asks])
  | stop written => exact hcommand _ _ (by cases written <;> simp [Bridge.post, Post.asks])
  | closed => exact hcommand _ _ (Nat.le_refl 0)
  | deliver =>
    unfold Link.step Link.deliver
    dsimp only
    split <;> exact hkeep
  | endOfOutput =>
    unfold Link.step
    dsimp only
    split
    · exact hcommand _ _ (Nat.le_refl 0)
    · exact hkeep
  | childExit failure =>
    unfold Link.step
    dsimp only
    split
    · exact hcommand _ _ (Nat.le_refl 0)
    · exact hkeep
  | read readToString =>
    unfold Link.step Link.readLine
    dsimp only
    split <;> exact hkeep
  | endOfInput =>
    unfold Link.step
    dsimp only
    split <;> exact hkeep
  | act ok => exact hkeep
  | reply => exact hkeep
  | tick jobId => exact hkeep
  | exit => exact hkeep
  | crash => exact hkeep

/-- The ids do not run out. -/
def FewMessages (is : List LinkInput) : Prop := is.countP (·.asks) < 2 ^ 64

instance (is : List LinkInput) : Decidable (FewMessages is) := inferInstanceAs (Decidable (_ < _))

/-- What holds after the inputs, as long as the ids do not run out. -/
def Kept (hist : List LinkInput) (l : Link Message) : Prop :=
  FewMessages hist → l.Attends ∧ l.Follows ∧
    l.posts.countP (·.asks) ≤ hist.countP (·.asks)

theorem Kept.step {hist : List LinkInput} (hk : Kept hist l) (i : LinkInput) :
    Kept (hist ++ [i]) (l.step i) := by
  intro hfew
  have hcount : (hist ++ [i]).countP (·.asks) =
      hist.countP (·.asks) + if i.asks = true then 1 else 0 := by
    rw [List.countP_append, List.countP_singleton]
  unfold FewMessages at hfew
  rw [hcount] at hfew
  obtain ⟨h, hf, hle⟩ := hk (by unfold FewMessages; omega)
  refine ⟨h.step hf.written i, hf.step h i ?_, ?_⟩
  · intro hi
    rw [if_pos hi] at hfew
    omega
  · rw [hcount]
    exact (step_posts l i).trans (Nat.add_le_add_right hle _)

section
variable (agentName : String) (orchTx : Bool) (orchJobId : Option JobId) (childPid : Option Nat)
  (setup : WorkerSetup Message) (pid : Nat)

theorem start_attends : (start agentName orchTx orchJobId childPid setup pid).Attends := by
  refine ⟨Nat.le_refl 0, rfl, .nil, genuine_nil, [], ?_, fun _ => rfl⟩
  rfl

theorem start_follows : (start agentName orchTx orchJobId childPid setup pid).Follows := by
  refine ⟨Nat.le_refl 0, rfl, rfl, ?_, ?_⟩
  · cases orchTx <;> rfl
  · intro _
    refine ⟨rfl, rfl, ?_, ?_⟩
    · intro id n
      refine ⟨fun h => ?_, fun h => ?_⟩
      · cases h
      · obtain ⟨⟨p, hp, -⟩, -⟩ := h
        cases hp
    · intro id c
      refine ⟨fun h => ?_, fun h => ?_⟩
      · cases h
      · obtain ⟨⟨p, hp, -⟩, -⟩ := h
        cases hp

/-- Both invariants hold throughout a run. -/
theorem run_follows (is : List LinkInput) (hfew : FewMessages is) :
    let l := run step (start agentName orchTx orchJobId childPid setup pid) is
    l.Attends ∧ l.Follows := by
  have hstart : Kept [] (start agentName orchTx orchJobId childPid setup pid) :=
    fun _ => ⟨start_attends .., start_follows .., Nat.le_refl 0⟩
  have hall := run_history hstart (fun _ _ i h => h.step i) is
  exact ⟨(hall hfew).1, (hall hfew).2.1⟩

end

/-- What was taken is the first part of what is due. -/
theorem Follows.delivers (hf : l.Follows) (h : l.Attends) : l.Delivers := by
  refine ⟨h.prompts, h.genuine, ?_, ?_⟩
  · rw [hf.answered, ← parcels_reply]
    exact (List.take_prefix ..).filterMap _
  · unfold eventsDue
    rw [hf.told, ← parcels_event]
    cases l.bridge.orchTx with
    | true => exact (List.take_prefix ..).flatMap _
    | false => exact List.prefix_refl _

end Link
end

/-- Whatever the order in which the bridge takes commands and lines, the worker reads,
works, is heard to be alive and crashes: what the agent has been told is the first part of what
was posted, what the senders have been answered the first part of its answers to their own
messages, and what the orchestrator has been told the first part of the outcomes of channel
messages and jobs, all in that order and never twice. -/
theorem link_delivers {Message : Type} (agentName : String) (orchTx : Bool)
    (orchJobId : Option JobId) (childPid : Option Nat) (setup : WorkerSetup Message) (pid : Nat)
    (is : List LinkInput) (hfew : Link.FewMessages is) :
    (run Link.step (Link.start agentName orchTx orchJobId childPid setup pid) is).Delivers := by
  obtain ⟨h, hf⟩ := Link.run_follows agentName orchTx orchJobId childPid setup pid is hfew
  exact hf.delivers h

/-- An agent that says what it is told. -/
def echoSetup : WorkerSetup String where
  agent := ⟨fun _ message => .ok message, fun t => t.map (·.1)⟩
  sessionFile := none
  maxHistory := none
  model := "default"
  restored := 0

def echoLink (is : List LinkInput) : Link String :=
  run Link.step (Link.start "writer" true (some "job_1") (some 7) echoSetup 7) is

/-- The worker goes on for a while, and the bridge does. -/
def acts (n : Nat) : List LinkInput := List.replicate n (.act true)

def delivers (n : Nat) : List LinkInput := List.replicate n .deliver

/-- A message, a job, and a stop that is read after both. -/
def echoInputs : List LinkInput :=
  List.flatten
    [acts 3,
      [.userMessage "hello" true true, .jobExecute "job_1" "write" "/w" [] true, .stop true],
      [.read (fun _ => none)], acts 3, [.reply, .tick "job_1"], acts 5,
      [.read (fun _ => none)], acts 6, [.reply], acts 7,
      [.read (fun _ => none)], acts 2, [.exit], delivers 20, [.childExit none]]

theorem link_delivers_echo : (echoLink echoInputs).Delivers := by
  unfold echoLink
  exact link_delivers "writer" true (some "job_1") (some 7) echoSetup 7 echoInputs (by decide)

end ZeptoPM
