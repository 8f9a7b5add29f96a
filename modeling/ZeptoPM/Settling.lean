import ZeptoPM.Delivery

/- When all is delivered: when nothing is left between the bridge and its worker, and when
   the bridge ends because the worker was told to stop, which it is only after all that
   was posted before. And what the supervisor hears of the worker meanwhile, which is not
   that it is at work: the log line that follows the status has the bridge report it idle. -/
namespace ZeptoPM

section
variable {Message : Type}

namespace Link

variable {l : Link Message}

/-! ## With nothing left in between -/

/-- The worker waits for a line, and every line is read. -/
structure Settled (l : Link Message) : Prop where
  looping : l.bridge.phase = .looping
  reading : l.worker.phase = .reading
  done : l.worker.todo = []
  read : l.read = l.bridge.toWorker.length
  fetched : l.fetched = l.worker.out.length

/-- All that is due has been delivered. -/
structure Complete (l : Link Message) : Prop where
  answers : l.bridge.answered = l.repliesDue
  told : l.bridge.told = l.eventsDue

theorem complete_of_taken (hf : l.Follows) (htaken : l.taken = l.parcels) : l.Complete := by
  refine ⟨?_, ?_⟩
  · rw [hf.answered, htaken, parcels_reply]
  · unfold eventsDue
    rw [hf.told, htaken, parcels_event]

theorem unsent_of_done (h : l.worker.todo = []) : l.worker.unsent = [] := by
  unfold Worker.unsent
  rw [h]
  rfl

theorem taken_of_all (h : l.Attends) (hended : l.worker.phase ≠ .ended)
    (hunsent : l.worker.unsent = [])
    (hnews : newsIn (l.worker.out.take l.fetched) = newsIn l.worker.out) :
    l.taken = l.parcels := by
  obtain ⟨lost, hlines, hlost⟩ := h.lines
  rw [hlost hended, hunsent, List.append_nil, List.append_nil] at hlines
  unfold taken
  rw [hnews, hlines, List.length_map, List.take_length]

/-- The senders of the posts that were dealt with. -/
theorem senders_due (l : Link Message) : l.repliesDue.map (·.1) =
    (l.posts.take l.worker.transcript.length).filterMap (·.sender) := by
  have hone : ∀ x : Post × ChatResult, (x.1.replies x.2).map (·.1) = x.1.sender.toList := by
    rintro ⟨p, result⟩
    cases p with
    | message sender text => cases sender <;> rfl
    | channel channelId text => rfl
    | job jobId instruction workspace inputArtifacts => rfl
    | stop => rfl
  unfold repliesDue served
  rw [List.map_flatMap]
  simp only [hone]
  rw [← List.length_map (·.2)]
  generalize l.worker.transcript.map (·.2) = results
  generalize l.posts = posts
  induction posts generalizing results with
  | nil => simp
  | cons p posts ih =>
    cases results with
    | nil => simp
    | cons result results =>
      rw [List.zip_cons_cons, List.flatMap_cons, ih, List.length_cons, List.take_succ_cons,
        List.filterMap_cons]
      cases p.sender <;> rfl

theorem Settled.done_all (hs : l.Settled) (h : l.Attends) (hf : l.Follows) :
    l.worker.transcript.length = l.posts.length := by
  have hwork := h.atWork
  unfold AtWork at hwork
  dsimp only at hwork
  rw [hs.reading] at hwork
  have hread := hs.read
  rw [hf.written, List.length_map] at hread
  unfold stamped at hread
  rw [stamp_length] at hread
  exact hwork.symm.trans hread

end Link
end

/-- When the worker waits with every line read on both sides, the agent has dealt with all
that was posted, and every sender has its answer. -/
theorem link_settles {Message : Type} (agentName : String) (orchTx : Bool)
    (orchJobId : Option JobId) (childPid : Option Nat) (setup : WorkerSetup Message) (pid : Nat)
    (is : List LinkInput) (hfew : Link.FewMessages is) :
    let l := run Link.step (Link.start agentName orchTx orchJobId childPid setup pid) is
    l.Settled → l.worker.transcript.length = l.posts.length ∧ l.Complete ∧
      l.bridge.answered.map (·.1) = List.range l.bridge.received := by
  intro l hs
  obtain ⟨h, hf⟩ := Link.run_follows agentName orchTx orchJobId childPid setup pid is hfew
  have hall : l.worker.transcript.length = l.posts.length := hs.done_all h hf
  have hcomplete : l.Complete := by
    refine Link.complete_of_taken hf (Link.taken_of_all h ?_ (Link.unsent_of_done hs.done) ?_)
    · intro hended
      have hreading := hs.reading
      rw [hended] at hreading
      cases hreading
    · exact congrArg newsIn (by rw [hs.fetched, List.take_length])
  refine ⟨hall, hcomplete, ?_⟩
  rw [hcomplete.answers, Link.senders_due, hall, List.take_length, (hf.desk hs.looping).senders]

/-- A message, answered, with every line taken. -/
def echoStays : List LinkInput :=
  List.flatten
    [acts 3, [.userMessage "hello" true true, .read (fun _ => none)], acts 3, [.reply], acts 5,
      delivers 8]

theorem link_settles_echo : (echoLink echoStays).Complete ∧
    (echoLink echoStays).bridge.answered.map (·.1) = [0] := by
  have h := link_settles "writer" true (some "job_1") (some 7) echoSetup 7 echoStays (by decide)
    ⟨by decide +kernel, by decide +kernel, by decide +kernel, by decide +kernel, by decide +kernel⟩
  exact ⟨h.2.1, h.2.2.trans (by decide +kernel)⟩

/-! ## At a stop -/

/-- The line says that the worker has stopped. -/
def saysStopped (msg : Json) : Bool :=
  msg.strOr "type" "" == "status" && Bridge.parseStatus (msg.strOr "status" "idle") == .stopped

/-- The loop is left with the line that says so. -/
theorem Bridge.phase_output {b : Bridge} (hl : b.phase = .looping) (msg : Json) :
    (b.step (.output msg)).phase = .looping ↔ saysStopped msg = false := by
  have hforward : ∀ (b : Bridge) (event : Json), (b.forward event).phase = b.phase := by
    intro b event
    unfold forward
    split <;> rfl
  have hkept : ∀ {b' : Bridge}, b'.phase = b.phase → msg.strOr "type" "" ≠ "status" →
      (b'.phase = .looping ↔ saysStopped msg = false) := by
    intro b' hphase htype
    refine iff_of_true (hphase.trans hl) ?_
    unfold saysStopped
    rw [beq_eq_false_iff_ne.mpr htype]
    rfl
  rw [step_looping hl]
  show (b.handleOutput msg).phase = .looping ↔ _
  unfold handleOutput
  split
  all_goals rename_i htype
  · refine hkept ?_ (by rw [htype]; decide)
    unfold chatResponse
    dsimp only
    split
    · rfl
    · split
      · unfold channelResponse
        split
        · rfl
        · exact hforward _ _
      · rfl
  · unfold statusMessage saysStopped
    rw [htype]
    dsimp only
    split
    · rename_i hstopped
      rw [hstopped]
      exact iff_of_false (by simp [leave]) (by decide)
    · rename_i hstopped
      refine iff_of_true hl ?_
      rw [beq_eq_false_iff_ne.mpr hstopped]
      rfl
  · exact hkept rfl (by rw [htype]; decide)
  · exact hkept (hforward _ _) (by rw [htype]; decide)
  · exact hkept (hforward _ _) (by rw [htype]; decide)
  · exact hkept (hforward _ _) (by rw [htype]; decide)
  · exact hkept (hforward _ _) (by rw [htype]; decide)
  · exact hkept (hforward _ _) (by rw [htype]; decide)
  · rename_i h
    exact hkept rfl (fun heq => absurd heq (by assumption))

/-- Nothing is broken off: the lines are written, the agent's handles are not dropped, and the
worker ends only where it leaves its loop. -/
def LinkInput.unbroken : LinkInput → Bool
  | .userMessage _ _ written | .channelMessage _ _ written | .jobExecute _ _ _ _ written
  | .stop written => written
  | .closed | .endOfInput | .crash => false
  | _ => true

theorem Bridge.phase_written {b : Bridge} (hl : b.phase = .looping) {i : BridgeInput}
    (hi : (b.post i).isSome = true) : (b.step i).phase = .looping := by
  rw [step_looping hl]
  cases i with
  | userMessage message reply written =>
    cases written with
    | false => cases hi
    | true =>
      cases reply with
      | true =>
        show (hold _ _).phase = .looping
        unfold hold
        dsimp only
        split <;> exact hl
      | false => exact hl
  | channelMessage channelId message written =>
    cases written with
    | false => cases hi
    | true => exact hl
  | jobExecute jobId instruction workspace inputArtifacts written =>
    cases written with
    | false => cases hi
    | true => exact hl
  | stop written =>
    cases written with
    | false => cases hi
    | true => exact hl
  | closed => cases hi
  | output msg => cases hi
  | endOfOutput => cases hi
  | childExit failure => cases hi

/-- The lines that say so. -/
def stopsIn (lines : List Json) : List Json := lines.filter saysStopped

@[simp] theorem stopsIn_append (lines lines' : List Json) :
    stopsIn (lines ++ lines') = stopsIn lines ++ stopsIn lines' := List.filter_append ..

theorem stopsIn_take {lines : List Json} (h : stopsIn lines = []) (n : Nat) :
    stopsIn (lines.take n) = [] :=
  List.sublist_nil.mp (h ▸ (List.take_sublist n lines).filter _)

section
variable {Message : Type}

/-- What one effect does to the lines. -/
theorem Worker.act_lines (worker : Worker Message) (ok : Bool) :
    (worker.step (.act ok)).out = worker.out ∧ (worker.step (.act ok)).unsent = worker.unsent ∨
      ∃ line, worker.unsent = line :: (worker.step (.act ok)).unsent ∧
        (worker.step (.act ok)).out = worker.out ++ [line] := by
  unfold Worker.step
  dsimp only
  split
  · exact Or.inl ⟨rfl, rfl⟩
  · rename_i effect todo htodo
    have hunsent : worker.unsent = (effect :: todo).filterMap WorkerEffect.sent := by
      unfold unsent
      rw [htodo]
    rw [hunsent]
    cases effect with
    | send line => exact Or.inr ⟨line, rfl, rfl⟩
    | createDirAll path => exact Or.inl ⟨rfl, rfl⟩
    | write path content => exact Or.inl (by unfold perform; dsimp only; split <;> exact ⟨rfl, rfl⟩)
    | saveHistory => exact Or.inl (by unfold perform; dsimp only; split <;> exact ⟨rfl, rfl⟩)
    | beat jobId => exact Or.inl ⟨rfl, rfl⟩
    | abort => exact Or.inl ⟨rfl, rfl⟩

theorem Worker.tick_lines (worker : Worker Message) (jobId : JobId) :
    (worker.tick jobId).unsent = worker.unsent ∧ ((worker.tick jobId).out = worker.out ∨
      (worker.tick jobId).out = worker.out ++ [sendHeartbeat jobId "running"]) := by
  unfold Worker.tick
  split
  · exact ⟨rfl, Or.inr rfl⟩
  · split
    · exact ⟨rfl, Or.inr rfl⟩
    · exact ⟨rfl, Or.inl rfl⟩

/-- A line is about to be the last but for heartbeats, or it was. -/
def Worker.Stopped (worker : Worker Message) : Prop :=
  worker.unsent = [] ∧ ∃ before after, worker.out = before ++ sendStatus "stopped" none :: after ∧
    stopsIn before = [] ∧ newsIn after = []

def Worker.Stopping (worker : Worker Message) : Prop :=
  ∃ before, worker.unsent = before ++ [sendStatus "stopped" none] ∧
    stopsIn (worker.out ++ before) = [] ∧ newsIn before = []

theorem Worker.stopped_act {worker : Worker Message} (h : worker.Stopped) (ok : Bool) :
    (worker.step (.act ok)).Stopped := by
  obtain ⟨hunsent, hout⟩ := h
  rcases worker.act_lines ok with ⟨hout', hunsent'⟩ | ⟨line, hline, -⟩
  · unfold Stopped
    rw [hunsent', hout']
    exact ⟨hunsent, hout⟩
  · rw [hunsent] at hline
    cases hline

theorem Worker.stopping_act {worker : Worker Message} (h : worker.Stopping) (ok : Bool) :
    (worker.step (.act ok)).Stopping ∨ (worker.step (.act ok)).Stopped := by
  obtain ⟨before, hunsent, hstops, hnews⟩ := h
  rcases worker.act_lines ok with ⟨hout', hunsent'⟩ | ⟨line, hline, hout'⟩
  · refine Or.inl ⟨before, hunsent'.trans hunsent, ?_, hnews⟩
    rw [hout']
    exact hstops
  · rw [hunsent] at hline
    cases before with
    | nil =>
      obtain ⟨rfl, hnil⟩ := List.cons.inj hline
      refine Or.inr ⟨hnil.symm, worker.out, [], hout', ?_, rfl⟩
      rwa [List.append_nil] at hstops
    | cons line' before =>
      obtain ⟨rfl, hrest⟩ := List.cons.inj hline
      refine Or.inl ⟨before, hrest.symm, ?_, ?_⟩
      · rw [hout', List.append_assoc]
        exact hstops
      · rw [show line' :: before = [line'] ++ before from rfl, newsIn_append] at hnews
        exact (List.append_eq_nil_iff.mp hnews).2

theorem Worker.stopped_tick {worker : Worker Message} (h : worker.Stopped) (jobId : JobId) :
    (worker.tick jobId).Stopped := by
  obtain ⟨hunsent, before, after, hout, hstops, hnews⟩ := h
  obtain ⟨hunsent', hout' | hout'⟩ := worker.tick_lines jobId
  · exact ⟨hunsent'.trans hunsent, before, after, hout'.trans hout, hstops, hnews⟩
  · refine ⟨hunsent'.trans hunsent, before, after ++ [sendHeartbeat jobId "running"], ?_,
      hstops, ?_⟩
    · rw [hout', hout, List.append_assoc]
      rfl
    · rw [newsIn_append, hnews]
      rfl

theorem Worker.stopping_tick {worker : Worker Message} (h : worker.Stopping) (jobId : JobId) :
    (worker.tick jobId).Stopping := by
  obtain ⟨before, hunsent, hstops, hnews⟩ := h
  obtain ⟨hunsent', hout' | hout'⟩ := worker.tick_lines jobId
  · refine ⟨before, hunsent'.trans hunsent, ?_, hnews⟩
    rw [hout']
    exact hstops
  · refine ⟨before, hunsent'.trans hunsent, ?_, hnews⟩
    rw [hout', stopsIn_append, stopsIn_append]
    rw [stopsIn_append] at hstops
    obtain ⟨hstops1, hstops2⟩ := List.append_eq_nil_iff.mp hstops
    rw [hstops1, hstops2]
    rfl

namespace Link

variable {l : Link Message}

/-- How the end comes in an unbroken run: the worker stops where it is told to, with all
before that sent, and only then the loop of the bridge is over. -/
structure Closing (l : Link Message) : Prop where
  unclosed : l.worker.phase ≠ .leaving → l.worker.phase ≠ .ended →
    stopsIn (l.worker.out ++ l.worker.unsent) = []
  leaving : l.worker.phase = .leaving → l.worker.Stopping ∨ l.worker.Stopped
  ended : l.worker.phase = .ended → l.worker.Stopped ∧
    newsIn l.worker.out = l.parcels.map (fun x => x.1.line)
  told : l.worker.phase = .leaving ∨ l.worker.phase = .ended →
    l.posts[l.worker.transcript.length]? = some .stop
  looping : l.bridge.phase = .looping ↔ stopsIn (l.worker.out.take l.fetched) = []

theorem Closing.command (hc : l.Closing) (h : l.Attends) {i : BridgeInput}
    (hi : (l.bridge.step i).phase = .looping ↔ l.bridge.phase = .looping) :
    (l.command i).Closing := by
  refine ⟨hc.unclosed, hc.leaving, ?_, ?_, hi.trans hc.looping⟩
  · intro hended
    refine ⟨(hc.ended hended).1, ?_⟩
    unfold Link.command
    rw [parcels_append h.done_le]
    exact (hc.ended hended).2
  · intro hphase
    have hat := hc.told hphase
    exact (List.getElem?_append_left (List.getElem?_eq_some_iff.mp hat).1).trans hat

/-- A move of the worker at the same post. -/
theorem Closing.of_alike (hc : l.Closing) (hf : l.fetched ≤ l.worker.out.length)
    {worker : Worker Message} (ha : l.worker.Alike worker) (hout : l.worker.out <+: worker.out)
    (hunclosed : stopsIn (l.worker.out ++ l.worker.unsent) = [] →
      stopsIn (worker.out ++ worker.unsent) = [])
    (hstopping : l.worker.Stopping → worker.Stopping ∨ worker.Stopped)
    (hstopped : l.worker.Stopped → worker.Stopped) :
    ({ l with worker := worker } : Link Message).Closing := by
  refine ⟨?_, ?_, ?_, ?_, ?_⟩
  · intro hl he
    exact hunclosed (hc.unclosed (ha.phase ▸ hl) (ha.phase ▸ he))
  · intro hl
    exact (hc.leaving (ha.phase ▸ hl)).elim hstopping (fun h => Or.inr (hstopped h))
  · intro he
    obtain ⟨hover, hnews⟩ := hc.ended (ha.phase ▸ he)
    have hover' := hstopped hover
    refine ⟨hover', ?_⟩
    have hlines := ha.lines
    rw [hover.1, hover'.1, List.append_nil, List.append_nil] at hlines
    show newsIn worker.out = List.map _
      ((l.stamped.zip (worker.transcript.map (·.2))).flatMap outcome)
    rw [hlines, ha.transcript]
    exact hnews
  · intro hphase
    show l.posts[worker.transcript.length]? = some .stop
    rw [ha.transcript]
    exact hc.told (ha.phase ▸ hphase)
  · obtain ⟨more, hmore⟩ := hout
    show _ ↔ stopsIn (worker.out.take l.fetched) = []
    rw [← hmore, List.take_append_of_le_length hf]
    exact hc.looping

theorem Closing.act (hc : l.Closing) (hf : l.fetched ≤ l.worker.out.length) (ok : Bool) :
    (l.move (.act ok)).Closing := by
  refine hc.of_alike hf (l.worker.alike_act ok) (worker_adds l.worker (.act ok)).1 ?_
    (fun h => Worker.stopping_act h ok) (fun h => Worker.stopped_act h ok)
  rcases l.worker.act_lines ok with ⟨hout', hunsent'⟩ | ⟨line, hline, hout'⟩
  · rw [hout', hunsent']
    exact id
  · rw [hout', hline, List.append_assoc]
    exact id

theorem Closing.tick (hc : l.Closing) (hf : l.fetched ≤ l.worker.out.length) (jobId : JobId) :
    (l.move (.tick jobId)).Closing := by
  refine hc.of_alike hf (l.worker.alike_tick jobId) (worker_adds l.worker (.tick jobId)).1 ?_
    (fun h => Or.inl (Worker.stopping_tick h jobId)) (fun h => Worker.stopped_tick h jobId)
  intro hstops
  show stopsIn ((l.worker.tick jobId).out ++ (l.worker.tick jobId).unsent) = []
  obtain ⟨hunsent', hout' | hout'⟩ := l.worker.tick_lines jobId
  · rw [hunsent', hout']
    exact hstops
  · rw [stopsIn_append] at hstops
    obtain ⟨hstops1, hstops2⟩ := List.append_eq_nil_iff.mp hstops
    rw [hunsent', hout', stopsIn_append, stopsIn_append, hstops1, hstops2]
    rfl

/-- Back to reading after an answer. -/
theorem Closing.reply (hc : l.Closing) : (l.move .reply).Closing := by
  have hback : ∀ worker : Worker Message, l.worker.todo = [] → l.worker.phase ≠ .leaving →
      l.worker.phase ≠ .ended → worker.phase = .reading → worker.out = l.worker.out →
      stopsIn worker.unsent = [] → ({ l with worker := worker } : Link Message).Closing := by
    intro worker htodo hl he hphase hout hunsent
    have hstops := hc.unclosed hl he
    rw [unsent_of_done htodo, List.append_nil] at hstops
    refine ⟨?_, ?_, ?_, ?_, ?_⟩
    · intro _ _
      show stopsIn (worker.out ++ worker.unsent) = []
      rw [stopsIn_append, hout, hstops, hunsent]
      rfl
    · intro hl'
      exact absurd (hphase.symm.trans hl') (by simp)
    · intro he'
      exact absurd (hphase.symm.trans he') (by simp)
    · rintro (hl' | he')
      · exact absurd (hphase.symm.trans hl') (by simp)
      · exact absurd (hphase.symm.trans he') (by simp)
    · show _ ↔ stopsIn (worker.out.take l.fetched) = []
      rw [hout]
      exact hc.looping
  unfold Link.move Worker.step
  dsimp only
  split
  · rename_i htodo
    unfold Worker.reply
    split
    · rename_i id message hphase
      refine hback _ htodo (by rw [hphase]; simp) (by rw [hphase]; simp) rfl rfl ?_
      show stopsIn ((Worker.chatEffects id _).filterMap WorkerEffect.sent) = []
      generalize (ask l.worker.agent.chat l.worker.transcript message).1 = result
      cases result <;> rfl
    · rename_i jobId workspace context hphase
      refine hback _ htodo (by rw [hphase]; simp) (by rw [hphase]; simp) rfl rfl ?_
      show stopsIn ((Worker.jobEffects jobId workspace _).filterMap WorkerEffect.sent) = []
      generalize (ask l.worker.agent.chat l.worker.transcript context).1 = result
      cases result <;> rfl
    · exact hc
  · exact hc

/-- A command is taken up; with a stop the worker is about to say that it stops. -/
theorem Closing.readLine (hc : l.Closing) (h : l.Attends) (hw : l.Written)
    (readToString : PathBuf → Option String) : (l.readLine readToString).Closing := by
  unfold Link.readLine
  split
  · rename_i cmd hphase htodo hline
    rw [hw, List.getElem?_map] at hline
    obtain ⟨⟨id, p⟩, hp, rfl⟩ := Option.map_eq_some_iff.mp hline
    have hread : l.read = l.worker.transcript.length := by
      have hwork := h.atWork
      unfold AtWork at hwork
      dsimp only at hwork
      rw [hphase] at hwork
      exact hwork
    have hpost : l.posts[l.worker.transcript.length]? = some p := by
      rw [← hread, ← stamp_map_snd 0 l.posts, List.getElem?_map]
      exact congrArg (Option.map (·.2)) hp
    have hstep : l.worker.step (.line (some (p.line l.bridge.orchJobId id)) readToString) =
        l.worker.accept readToString (p.workerCommand l.bridge.orchJobId id) := by
      rw [← ofJson_line]
      exact Worker.step_line hphase htodo _ readToString
    have hstops := hc.unclosed (by rw [hphase]; simp) (by rw [hphase]; simp)
    rw [unsent_of_done htodo, List.append_nil] at hstops
    unfold Link.move
    rw [hstep]
    have hbusy : ∀ worker : Worker Message, worker.phase ≠ .leaving → worker.phase ≠ .ended →
        worker.out = l.worker.out → stopsIn worker.unsent = [] →
        ({ l with
          worker := worker
          read := l.read + 1 } : Link Message).Closing := by
      intro worker hl he hout hunsent
      refine ⟨?_, fun hl' => absurd hl' hl, fun he' => absurd he' he,
        fun hle => hle.elim (fun hl' => absurd hl' hl) (fun he' => absurd he' he), ?_⟩
      · intro _ _
        show stopsIn (worker.out ++ worker.unsent) = []
        rw [stopsIn_append, hout, hstops, hunsent]
        rfl
      · show _ ↔ stopsIn (worker.out.take l.fetched) = []
        rw [hout]
        exact hc.looping
    cases p with
    | message sender text =>
      refine hbusy _ (by simp [Post.workerCommand, Worker.accept])
        (by simp [Post.workerCommand, Worker.accept]) rfl ?_
      cases l.bridge.orchJobId <;> rfl
    | channel channelId text =>
      refine hbusy _ (by simp [Post.workerCommand, Worker.accept])
        (by simp [Post.workerCommand, Worker.accept]) rfl ?_
      cases l.bridge.orchJobId <;> rfl
    | job jobId instruction workspace inputArtifacts =>
      exact hbusy _ (by simp [Post.workerCommand, Worker.accept])
        (by simp [Post.workerCommand, Worker.accept]) rfl rfl
    | stop =>
      refine ⟨fun hl => absurd rfl hl, fun _ => Or.inl ?_, fun he => (by cases he), fun _ => hpost,
        hc.looping⟩
      have hsaying : ∀ before : List Json,
          (l.worker.accept readToString .stop).unsent =
            before ++ [sendStatus "stopped" none] → stopsIn before = [] → newsIn before = [] →
          (l.worker.accept readToString .stop).Stopping := by
        intro before hunsent hbefore hnews
        refine ⟨before, hunsent, ?_, hnews⟩
        show stopsIn (l.worker.out ++ before) = []
        rw [stopsIn_append, hstops, hbefore]
        rfl
      cases hfile : l.worker.sessionFile with
      | none =>
        refine hsaying [sendLog "info" "stop received"] ?_ rfl rfl
        unfold Worker.accept Worker.unsent
        dsimp only
        rw [hfile]
        rfl
      | some path =>
        refine hsaying [sendLog "info" ("session saved (" ++
          toString l.worker.savedHistory.length ++ " messages)"),
          sendLog "info" "stop received"] ?_ rfl rfl
        unfold Worker.accept Worker.unsent
        dsimp only
        rw [hfile]
        rfl
  · exact hc

theorem Closing.exit (hc : l.Closing) (h : l.Attends) : (l.move .exit).Closing := by
  unfold Link.move Worker.step
  dsimp only
  split
  · rename_i hphase htodo
    have hunsent := unsent_of_done htodo
    have hover : l.worker.Stopped := by
      rcases hc.leaving hphase with ⟨before, hbefore, -⟩ | hover
      · rw [hunsent] at hbefore
        cases before <;> cases hbefore
      · exact hover
    obtain ⟨-, before, after, hout, hstops, hnews⟩ := hover
    refine ⟨fun _ he => absurd rfl he, fun hl => (by cases hl), fun _ => ⟨?_, ?_⟩,
      fun _ => hc.told (Or.inl hphase), hc.looping⟩
    · exact ⟨rfl, before, after, hout, hstops, hnews⟩
    · obtain ⟨lost, hlines, hlost⟩ := h.lines
      rw [hlost (by rw [hphase]; simp), hunsent, List.append_nil, List.append_nil] at hlines
      exact hlines
  · exact hc

theorem Closing.deliver (hc : l.Closing) : l.deliver.Closing := by
  unfold Link.deliver
  split
  · rename_i msg hl hmsg
    obtain ⟨hlt, hget⟩ := List.getElem?_eq_some_iff.mp hmsg
    refine ⟨hc.unclosed, hc.leaving, hc.ended, hc.told, ?_⟩
    show (l.bridge.step (.output msg)).phase = .looping ↔
      stopsIn (l.worker.out.take (l.fetched + 1)) = []
    rw [Bridge.phase_output hl, ← List.take_append_getElem hlt, hget, stopsIn_append,
      hc.looping.mp hl, List.nil_append]
    unfold stopsIn
    cases hstopped : saysStopped msg <;> simp [hstopped]
  · exact hc

theorem Closing.step (hc : l.Closing) (h : l.Attends) (hf : l.Follows) {i : LinkInput}
    (hi : i.unbroken = true) : (l.step i).Closing := by
  have hleft : ∀ j, l.bridge.phase ≠ .looping → (l.bridge.step j).phase ≠ .looping :=
    fun j hl hl' => hl ((Bridge.quiet_step_of_left hl j).desk hl').1
  have hposted : ∀ j, (l.bridge.post j).isSome = true → (l.command j).Closing := by
    intro j hj
    refine hc.command h ⟨fun hl' => ?_, fun hl => Bridge.phase_written hl hj⟩
    by_contra hl
    exact hleft j hl hl'
  cases i with
  | userMessage message reply written =>
    cases written with
    | true => exact hposted _ rfl
    | false => cases hi
  | channelMessage channelId message written =>
    cases written with
    | true => exact hposted _ rfl
    | false => cases hi
  | jobExecute jobId instruction workspace inputArtifacts written =>
    cases written with
    | true => exact hposted _ rfl
    | false => cases hi
  | stop written =>
    cases written with
    | true => exact hposted _ rfl
    | false => cases hi
  | closed => cases hi
  | deliver => exact hc.deliver
  | endOfOutput =>
    unfold Link.step
    dsimp only
    split
    · rename_i hend
      obtain ⟨hended, hfetched⟩ := hend
      obtain ⟨⟨-, before, after, hout, -, -⟩, -⟩ := hc.ended hended
      have hl : l.bridge.phase ≠ .looping := by
        rw [Ne, hc.looping, hfetched, List.take_length, hout, stopsIn_append]
        exact fun hnil => (nomatch (List.append_eq_nil_iff.mp hnil).2)
      exact hc.command h (iff_of_false (hleft _ hl) hl)
    · exact hc
  | childExit failure =>
    unfold Link.step
    dsimp only
    split
    · refine hc.command h ?_
      by_cases hl : l.bridge.phase = .looping
      · rw [Bridge.step_looping hl]
        rfl
      · exact iff_of_false (hleft _ hl) hl
    · exact hc
  | read readToString => exact hc.readLine h hf.written readToString
  | endOfInput => cases hi
  | act ok => exact hc.act hf.fetched_le ok
  | reply => exact hc.reply
  | tick jobId => exact hc.tick hf.fetched_le jobId
  | exit => exact hc.exit h
  | crash => cases hi

/-- The agent is asked nothing for a stop. -/
theorem Attends.stop_notMem (h : l.Attends) :
    Post.stop ∉ l.posts.take l.worker.transcript.length := by
  intro hmem
  obtain ⟨k, hk, hget⟩ := List.getElem_of_mem hmem
  have hprompts := h.prompts.get hk (h.prompts.length_eq ▸ hk)
  have hstop : (l.posts.take l.worker.transcript.length).get ⟨k, hk⟩ = .stop := hget
  rw [hstop] at hprompts
  exact hprompts

/-- Once the loop of the bridge is over, it has taken all that there was. -/
theorem Closing.all_taken (hc : l.Closing) (h : l.Attends) (hl : l.bridge.phase ≠ .looping) :
    l.posts[l.worker.transcript.length]? = some .stop ∧ l.taken = l.parcels := by
  have hsome : stopsIn (l.worker.out.take l.fetched) ≠ [] := fun hnil => hl (hc.looping.mpr hnil)
  have hout : stopsIn l.worker.out ≠ [] := fun hnil => hsome (stopsIn_take hnil _)
  have hphase : l.worker.phase = .leaving ∨ l.worker.phase = .ended := by
    by_contra hnot
    obtain ⟨hnl, hne⟩ := not_or.mp hnot
    have hstops := hc.unclosed hnl hne
    rw [stopsIn_append] at hstops
    exact hout (List.append_eq_nil_iff.mp hstops).1
  have hover : l.worker.Stopped := by
    rcases hphase with hleaving | hended
    · rcases hc.leaving hleaving with ⟨before, -, hstops, -⟩ | hover
      · rw [stopsIn_append] at hstops
        exact absurd (List.append_eq_nil_iff.mp hstops).1 hout
      · exact hover
    · exact (hc.ended hended).1
  refine ⟨hc.told hphase, ?_⟩
  obtain ⟨hunsent, before, after, houteq, hbefore, hafter⟩ := hover
  -- the line of the stop is among those taken, and after it come no news
  have hlt : before.length < l.fetched := by
    by_contra hge
    refine hsome ?_
    rw [houteq, List.take_append_of_le_length (Nat.le_of_not_lt hge)]
    exact stopsIn_take hbefore _
  have hnews : newsIn (l.worker.out.take l.fetched) = newsIn l.worker.out := by
    obtain ⟨k, hk⟩ := Nat.exists_eq_add_of_lt hlt
    have htail : newsIn (after.take k) = [] :=
      List.sublist_nil.mp (hafter ▸ (List.take_sublist k after).filter _)
    have hstop : newsIn [sendStatus "stopped" none] = [] := rfl
    rw [houteq, hk, show before.length + k + 1 = before.length + (k + 1) from rfl,
      List.take_length_add_append, List.take_succ_cons, newsIn_append, newsIn_append]
    rw [show sendStatus "stopped" none :: after.take k = [sendStatus "stopped" none] ++ after.take k
      from rfl, show sendStatus "stopped" none :: after = [sendStatus "stopped" none] ++ after
      from rfl, newsIn_append, newsIn_append, htail, hafter]
  rcases hphase with hleaving | hended
  · exact taken_of_all h (by rw [hleaving]; simp) hunsent hnews
  · unfold taken
    rw [hnews, (hc.ended hended).2, List.length_map, List.take_length]

/-- What holds after the inputs, as long as nothing fails. -/
def Unbroken (hist : List LinkInput) (l : Link Message) : Prop :=
  Kept hist l ∧ (FewMessages hist → (∀ i ∈ hist, i.unbroken = true) → l.Closing)

theorem Unbroken.step {hist : List LinkInput} (ho : Unbroken hist l) (i : LinkInput) :
    Unbroken (hist ++ [i]) (l.step i) := by
  refine ⟨ho.1.step i, fun hfew hunbroken => ?_⟩
  have hfew' : FewMessages hist := by
    unfold FewMessages at hfew ⊢
    rw [List.countP_append] at hfew
    omega
  obtain ⟨h, hf, -⟩ := ho.1 hfew'
  exact (ho.2 hfew' (fun j hj => hunbroken j (List.mem_append_left _ hj))).step h hf
    (hunbroken i (List.mem_append_right _ (List.mem_singleton.mpr rfl)))

section
variable (agentName : String) (orchTx : Bool) (orchJobId : Option JobId) (childPid : Option Nat)
  (setup : WorkerSetup Message) (pid : Nat)

theorem start_closing : (start agentName orchTx orchJobId childPid setup pid).Closing :=
  ⟨fun _ _ => rfl, fun hl => (nomatch hl), fun he => (nomatch he),
    fun hle => hle.elim (fun hl => (nomatch hl)) (fun he => (nomatch he)),
    iff_of_true rfl rfl⟩

theorem run_closing (is : List LinkInput) (hfew : FewMessages is)
    (hunbroken : ∀ i ∈ is, i.unbroken = true) :
    (run step (start agentName orchTx orchJobId childPid setup pid) is).Closing := by
  have hstart : Unbroken [] (start agentName orchTx orchJobId childPid setup pid) :=
    ⟨fun _ => ⟨start_attends .., start_follows .., Nat.le_refl 0⟩, fun _ _ => start_closing ..⟩
  have hall := run_history hstart (fun _ _ i h => h.step i) is
  exact hall.2 hfew hunbroken

end
end Link
end

/-- In a run in which nothing fails and no handle is dropped the bridge leaves its loop when the
worker has stopped, and then the agent has dealt with all that was posted before the stop and
nothing else, and all of that is delivered. -/
theorem link_stops {Message : Type} (agentName : String) (orchTx : Bool)
    (orchJobId : Option JobId) (childPid : Option Nat) (setup : WorkerSetup Message) (pid : Nat)
    (is : List LinkInput) (hfew : Link.FewMessages is) (hunbroken : ∀ i ∈ is, i.unbroken = true) :
    let l := run Link.step (Link.start agentName orchTx orchJobId childPid setup pid) is
    l.bridge.phase ≠ .looping →
      l.posts[l.worker.transcript.length]? = some .stop ∧
      .stop ∉ l.posts.take l.worker.transcript.length ∧ l.Complete ∧
      l.bridge.answered.map (·.1) =
        (l.posts.take l.worker.transcript.length).filterMap (·.sender) := by
  intro l hl
  obtain ⟨h, hf⟩ := Link.run_follows agentName orchTx orchJobId childPid setup pid is hfew
  have hc := Link.run_closing agentName orchTx orchJobId childPid setup pid is hfew hunbroken
  obtain ⟨hstop, htaken⟩ := hc.all_taken h hl
  have hcomplete : l.Complete := Link.complete_of_taken hf htaken
  refine ⟨hstop, ?_, hcomplete, ?_⟩
  · exact h.stop_notMem
  · rw [hcomplete.answers, Link.senders_due]

theorem link_stops_echo : (echoLink echoInputs).Complete ∧
    (echoLink echoInputs).bridge.answered.map (·.1) = [0] := by
  have h := link_stops "writer" true (some "job_1") (some 7) echoSetup 7 echoInputs (by decide)
    (by decide) (by decide +kernel)
  exact ⟨h.2.2.1, h.2.2.2.trans (by decide +kernel)⟩

/-! ## What the supervisor hears -/

/-- The status that a line has the bridge report. -/
def reported (msg : Json) : Option AgentStatus :=
  match msg.strOr "type" "" with
  | "status" => some (Bridge.parseStatus (msg.strOr "status" "idle"))
  | "log" => some .idle
  | "artifact_produced" => some .idle
  | "job_completed" => some .idle
  | "job_failed" => some .idle
  | _ => none

namespace Bridge

def statuses (b : Bridge) : List AgentStatus := b.updates.map (·.status)

theorem statuses_update (b : Bridge) (status : AgentStatus) (error : Option String) :
    (b.update status error).statuses = b.statuses ++ [status] := List.map_append

theorem statuses_forward (b : Bridge) (event : Json) : (b.forward event).statuses = b.statuses := by
  unfold forward
  split <;> rfl

theorem statuses_output {b : Bridge} (hl : b.phase = .looping) (msg : Json) :
    (b.step (.output msg)).statuses = b.statuses ++ (reported msg).toList := by
  rw [step_looping hl]
  show (b.handleOutput msg).statuses = _
  unfold handleOutput reported
  split
  all_goals
    rename_i htype
    try rw [htype]
  · refine Eq.trans ?_ (List.append_nil _).symm
    unfold chatResponse
    dsimp only
    split
    · rfl
    · split
      · unfold channelResponse
        split
        · rfl
        · exact statuses_forward _ _
      · rfl
  · unfold statusMessage
    dsimp only
    split
    · exact statuses_update b _ _
    · exact statuses_update b _ _
  · exact statuses_update b _ _
  · exact (statuses_forward b msg).trans (List.append_nil _).symm
  · exact (statuses_forward b msg).trans (List.append_nil _).symm
  · exact (statuses_forward _ msg).trans (statuses_update b _ _)
  · exact (statuses_forward _ msg).trans (statuses_update b _ _)
  · exact (statuses_forward _ msg).trans (statuses_update b _ _)
  · split
    all_goals first | exact absurd (by assumption) (by assumption) | exact (List.append_nil _).symm

/-- A command reports nothing. -/
theorem statuses_command {b : Bridge} (hl : b.phase = .looping) {i : BridgeInput}
    (hi : ∀ msg, i ≠ .output msg) : (b.step i).statuses = b.statuses := by
  have hwrite : ∀ (b : Bridge) line written, (b.write line written).statuses = b.statuses := by
    intro b line written
    unfold write
    split <;> rfl
  rw [step_looping hl]
  cases i with
  | userMessage message reply written =>
    refine (hwrite _ _ written).trans ?_
    cases reply with
    | true =>
      show (hold _ _).statuses = _
      unfold hold
      dsimp only
      split <;> rfl
    | false => rfl
  | channelMessage channelId message written => exact hwrite _ _ written
  | jobExecute jobId instruction workspace inputArtifacts written => exact hwrite _ _ written
  | stop written => cases written <;> rfl
  | closed => rfl
  | output msg => exact absurd rfl (hi msg)
  | endOfOutput => rfl
  | childExit failure => rfl

end Bridge

section
variable {Message : Type}

/-- The statuses that the worker has the bridge report in the end. -/
def Worker.reports (worker : Worker Message) : List AgentStatus :=
  (worker.out ++ worker.unsent).filterMap reported

/-- A worker in its loop is reported idle in the end. -/
def Worker.EndsIdle (worker : Worker Message) : Prop :=
  worker.phase ≠ .leaving → worker.phase ≠ .ended → worker.reports.getLast? = some .idle

theorem Worker.endsIdle_of {worker : Worker Message} (statuses : List AgentStatus)
    (hunsent : worker.unsent.filterMap reported = statuses ++ [.idle]) : worker.EndsIdle := by
  intro _ _
  unfold reports
  rw [List.filterMap_append, hunsent, ← List.append_assoc]
  exact List.getLast?_concat

theorem Worker.endsIdle_step {worker : Worker Message} (h : worker.EndsIdle) (m : WorkerMove) :
    (worker.step m).EndsIdle := by
  cases m with
  | line cmd readToString =>
    unfold step
    dsimp only
    split
    · rename_i cmd hphase htodo
      cases WorkerCommand.ofJson cmd with
      | chat id jobId message =>
        refine endsIdle_of [.running] ?_
        cases jobId <;> rfl
      | jobExecute jobId instruction workspace inputArtifacts =>
        exact endsIdle_of [.running] rfl
      | stop => exact fun hl => absurd rfl hl
      | other => exact h
    · exact h
  | endOfInput =>
    unfold step
    dsimp only
    split
    · exact fun hl => absurd rfl hl
    · exact h
  | act ok =>
    intro hl he
    have ha := worker.alike_act ok
    have hreports : (worker.step (.act ok)).reports = worker.reports := by
      unfold reports
      rcases worker.act_lines ok with ⟨hout, hunsent⟩ | ⟨line, hline, hout⟩
      · rw [hout, hunsent]
      · rw [hout, hline, List.append_assoc]
        rfl
    rw [hreports]
    exact h (ha.phase ▸ hl) (ha.phase ▸ he)
  | reply =>
    unfold step reply
    dsimp only
    split
    · split
      · rename_i id message hphase
        show Worker.EndsIdle { worker with
          phase := .reading
          transcript := _
          todo := chatEffects id (ask worker.agent.chat worker.transcript message).1 }
        generalize (ask worker.agent.chat worker.transcript message).1 = result
        cases result with
        | ok response => exact endsIdle_of [.idle] rfl
        | error e => exact endsIdle_of [.idle] rfl
      · rename_i jobId workspace context hphase
        show Worker.EndsIdle { worker with
          phase := .reading
          transcript := _
          todo := jobEffects jobId workspace (ask worker.agent.chat worker.transcript context).1 }
        generalize (ask worker.agent.chat worker.transcript context).1 = result
        cases result with
        | ok response =>
          exact endsIdle_of [.idle, .idle, .idle] rfl
        | error e => exact endsIdle_of [.idle, .idle] rfl
      · exact h
    · exact h
  | tick jobId =>
    intro hl he
    have ha := worker.alike_tick jobId
    have hreports : (worker.tick jobId).reports = worker.reports := by
      unfold reports
      obtain ⟨hunsent, hout | hout⟩ := worker.tick_lines jobId
      · rw [hout, hunsent]
      · rw [hout, hunsent, List.filterMap_append, List.filterMap_append, List.filterMap_append]
        exact congrArg (· ++ _) (List.append_nil _)
    show (worker.tick jobId).reports.getLast? = _
    rw [hreports]
    exact h (ha.phase ▸ hl) (ha.phase ▸ he)
  | exit =>
    unfold step
    dsimp only
    split
    · exact fun _ he => absurd rfl he
    · exact h
  | crash => exact fun _ he => absurd rfl he

namespace Link

/-- The bridge reports what the lines that it has taken say. -/
structure Reports (l : Link Message) : Prop where
  fetched_le : l.fetched ≤ l.worker.out.length
  statuses : l.bridge.phase = .looping →
    l.bridge.statuses = .starting :: (l.worker.out.take l.fetched).filterMap reported
  endsIdle : l.worker.EndsIdle

variable {l : Link Message}

theorem Reports.move (h : l.Reports) (m : WorkerMove) (read : Nat) :
    ({ l.move m with read := read } : Link Message).Reports := by
  obtain ⟨more, hmore⟩ := (worker_adds l.worker m).1
  refine ⟨h.fetched_le.trans (worker_adds l.worker m).1.length_le, ?_,
    Worker.endsIdle_step h.endsIdle m⟩
  show _ → _ = _ :: ((l.worker.step m).out.take l.fetched).filterMap reported
  rw [← hmore, List.take_append_of_le_length h.fetched_le]
  exact h.statuses

theorem Reports.command (h : l.Reports) {i : BridgeInput} (hi : ∀ msg, i ≠ .output msg) :
    (l.command i).Reports := by
  refine ⟨h.fetched_le, ?_, h.endsIdle⟩
  intro hl'
  have hl : l.bridge.phase = .looping := by
    by_contra hl
    exact hl ((Bridge.quiet_step_of_left hl i).desk hl').1
  exact (Bridge.statuses_command hl hi).trans (h.statuses hl)

theorem Reports.step (h : l.Reports) (i : LinkInput) : (l.step i).Reports := by
  cases i with
  | userMessage message reply written => exact h.command (by simp)
  | channelMessage channelId message written => exact h.command (by simp)
  | jobExecute jobId instruction workspace inputArtifacts written => exact h.command (by simp)
  | stop written => exact h.command (by simp)
  | closed => exact h.command (by simp)
  | deliver =>
    unfold Link.step Link.deliver
    dsimp only
    split
    · rename_i msg hl hmsg
      obtain ⟨hlt, hget⟩ := List.getElem?_eq_some_iff.mp hmsg
      refine ⟨hlt, fun _ => ?_, h.endsIdle⟩
      show (l.bridge.step (.output msg)).statuses = _
      rw [Bridge.statuses_output hl, h.statuses hl]
      show _ = _ :: (l.worker.out.take (l.fetched + 1)).filterMap reported
      rw [← List.take_append_getElem hlt, hget, List.filterMap_append, List.cons_append]
      refine congrArg (fun xs => _ :: (_ ++ xs)) ?_
      rw [List.filterMap_cons]
      cases reported msg <;> rfl
    · exact h
  | endOfOutput =>
    unfold Link.step
    dsimp only
    split
    · exact h.command (by simp)
    · exact h
  | childExit failure =>
    unfold Link.step
    dsimp only
    split
    · exact h.command (by simp)
    · exact h
  | read readToString =>
    unfold Link.step Link.readLine
    dsimp only
    split
    · exact h.move _ _
    · exact h
  | endOfInput =>
    unfold Link.step
    dsimp only
    split
    · exact h.move .endOfInput l.read
    · exact h
  | act ok => exact h.move (.act ok) l.read
  | reply => exact h.move .reply l.read
  | tick jobId => exact h.move (.tick jobId) l.read
  | exit => exact h.move .exit l.read
  | crash => exact h.move .crash l.read

end Link
end

/-- Whenever the bridge has taken every line of a worker that is in its loop, the last
status it has reported is idle, also of a worker that is at work. -/
theorem link_shows_idle {Message : Type} (agentName : String) (orchTx : Bool)
    (orchJobId : Option JobId) (childPid : Option Nat) (setup : WorkerSetup Message) (pid : Nat)
    (is : List LinkInput) :
    let l := run Link.step (Link.start agentName orchTx orchJobId childPid setup pid) is
    l.bridge.phase = .looping → l.worker.todo = [] → l.worker.phase ≠ .leaving →
      l.worker.phase ≠ .ended → l.fetched = l.worker.out.length →
      l.bridge.statuses.getLast? = some .idle := by
  intro l hl htodo hleaving hended hfetched
  have h : l.Reports := run_invariant (P := Link.Reports) (fun l i h _ => h.step i)
    ⟨Nat.le_refl 0, fun _ => rfl, fun _ _ => rfl⟩ (Meets.trivial _ is)
  have hidle := h.endsIdle hleaving hended
  unfold Worker.reports at hidle
  rw [Link.unsent_of_done htodo, List.append_nil] at hidle
  rw [h.statuses hl, hfetched, List.take_length, List.getLast?_cons, hidle]
  rfl

/-- The agent is at a message, and every line so far is taken. -/
def echoWorks : List LinkInput :=
  List.flatten
    [acts 3, [.userMessage "hello" true true, .read (fun _ => none)], acts 3, delivers 5]

theorem link_shows_idle_echo : (echoLink echoWorks).worker.phase = .chatting "req-1" "hello" ∧
    (echoLink echoWorks).bridge.statuses.getLast? = some .idle :=
  ⟨by decide +kernel, link_shows_idle "writer" true (some "job_1") (some 7) echoSetup 7 echoWorks
    (by decide +kernel) (by decide +kernel) (by decide +kernel) (by decide +kernel)
    (by decide +kernel)⟩

end ZeptoPM
