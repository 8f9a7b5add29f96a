import ZeptoPM.Machine

/- A loop that is the only receiver of a bounded queue and may send to it. It takes an
   item or serves another input, one handler at a time; a handler ends once everything
   it sends is on the queue. Anyone else may put items on the queue at any time and
   waits while it is full. A handler that still has something to send while the queue
   is full waits for ever, as nobody else takes anything off (`blocked_run`). So the
   loop never waits on itself, whatever others put on the queue, exactly when no
   handler sends anything (`never_blocked_iff`). -/
namespace ZeptoPM

/-- What the loop runs: its handlers, with what they send in order. -/
structure Handlers (S E W J : Type) where
  /-- Whether the loop is still running. -/
  running : S → Bool
  onItem : S → W → E → S × List E
  onInput : S → J → S × List E

/-- The loop with the items on its queue, and what its handler has yet to send. -/
structure SelfQueue (S E : Type) (capacity : Nat) where
  state : S
  queue : List E
  outbox : List E
  bound : queue.length ≤ capacity

inductive QueueInput (E W J : Type) where
  /-- Somebody else puts an item on the queue, or waits. -/
  | produce (item : E)
  /-- The loop takes the next item. -/
  | take (w : W)
  /-- The loop serves something else. -/
  | serve (j : J)
  /-- The handler sends its next item, or waits. -/
  | emit

namespace SelfQueue
variable {S E W J : Type} {capacity : Nat}

/-- No item waits, and no handler is under way. -/
def idle (s : S) : SelfQueue S E capacity := ⟨s, [], [], Nat.zero_le _⟩

def push (l : SelfQueue S E capacity) (item : E) : SelfQueue S E capacity :=
  if h : l.queue.length < capacity then
    { l with
      queue := l.queue ++ [item]
      bound := by rw [List.length_append, List.length_singleton]; exact h }
  else l

section
variable (H : Handlers S E W J)

/-- Whether the loop is between two handlers. -/
def ready (l : SelfQueue S E capacity) : Bool := l.outbox.isEmpty && H.running l.state

/-- Takes the next item off the queue and begins its handler. -/
def takeItem (l : SelfQueue S E capacity) (w : W) : SelfQueue S E capacity :=
  match hqueue : l.queue with
  | [] => l
  | item :: rest =>
    if l.ready H then
      { state := (H.onItem l.state w item).1
        queue := rest
        outbox := (H.onItem l.state w item).2
        bound := by
          have hbound := l.bound
          rw [hqueue] at hbound
          exact Nat.le_of_succ_le hbound }
    else l

/-- Begins the handler of another input. -/
def serveInput (l : SelfQueue S E capacity) (j : J) : SelfQueue S E capacity :=
  if l.ready H then { l with state := (H.onInput l.state j).1, outbox := (H.onInput l.state j).2 }
  else l

/-- Sends the next item of the handler under way. -/
def emitItem (l : SelfQueue S E capacity) : SelfQueue S E capacity :=
  match l.outbox with
  | [] => l
  | item :: rest => if l.queue.length < capacity then { l.push item with outbox := rest } else l

def step (l : SelfQueue S E capacity) : QueueInput E W J → SelfQueue S E capacity
  | .produce item => l.push item
  | .take w => l.takeItem H w
  | .serve j => l.serveInput H j
  | .emit => l.emitItem

/-- The handler that the input begins sends nothing. -/
def Silent (l : SelfQueue S E capacity) : QueueInput E W J → Prop
  | .take w => l.ready H = true → ∀ item rest, l.queue = item :: rest →
      (H.onItem l.state w item).2 = []
  | .serve j => l.ready H = true → (H.onInput l.state j).2 = []
  | _ => True

/-- A handler waits to send to the queue that only it could empty. -/
def Blocked (l : SelfQueue S E capacity) : Prop := l.outbox ≠ [] ∧ l.queue.length = capacity

variable {H} {l : SelfQueue S E capacity}

@[simp] theorem push_outbox (l : SelfQueue S E capacity) (item : E) :
    (l.push item).outbox = l.outbox := by
  unfold push
  split <;> rfl

theorem push_full (h : l.queue.length = capacity) (item : E) : l.push item = l :=
  dif_neg (by omega)

theorem push_length (h : l.queue.length < capacity) (item : E) :
    (l.push item).queue.length = l.queue.length + 1 := by
  unfold push
  rw [dif_pos h, List.length_append, List.length_singleton]

theorem not_ready (h : l.outbox ≠ []) : l.ready H = false := by
  unfold ready
  rw [List.isEmpty_eq_false_iff.mpr h, Bool.false_and]

/-- A loop that waits on itself does so whatever comes. -/
theorem blocked_step (h : l.Blocked) (i : QueueInput E W J) : l.step H i = l := by
  cases i with
  | produce item => exact push_full h.2 item
  | take w =>
    show l.takeItem H w = l
    unfold takeItem
    split
    · rfl
    · rw [if_neg (by rw [not_ready h.1]; exact Bool.false_ne_true)]
  | serve j =>
    show l.serveInput H j = l
    unfold serveInput
    rw [if_neg (by rw [not_ready h.1]; exact Bool.false_ne_true)]
  | emit =>
    show l.emitItem = l
    unfold emitItem
    split
    · rfl
    · rw [if_neg (by rw [h.2]; exact Nat.lt_irrefl _)]

theorem blocked_run (h : l.Blocked) (is : List (QueueInput E W J)) : run (step H) l is = l := by
  induction is with
  | nil => rfl
  | cons i is ih => rw [run_cons, blocked_step h, ih]

/-! ## Filling the queue -/

theorem produce_outbox (items : List E) : ∀ l : SelfQueue S E capacity,
    (run (step H) l (items.map .produce)).outbox = l.outbox := by
  induction items with
  | nil => exact fun _ => rfl
  | cons item items ih => exact fun l => (ih _).trans (push_outbox l item)

theorem produce_state (items : List E) : ∀ l : SelfQueue S E capacity,
    (run (step H) l (items.map .produce)).state = l.state := by
  induction items with
  | nil => exact fun _ => rfl
  | cons item items ih =>
    intro l
    refine (ih _).trans ?_
    show (l.push item).state = l.state
    unfold push
    split <;> rfl

/-- Enough items fill the queue. -/
theorem produce_fills (items : List E) : ∀ l : SelfQueue S E capacity,
    capacity ≤ l.queue.length + items.length →
    (run (step H) l (items.map .produce)).queue.length = capacity := by
  induction items with
  | nil => exact fun l h => Nat.le_antisymm l.bound h
  | cons item items ih =>
    intro l h
    rw [List.length_cons] at h
    refine ih (l.push item) ?_
    by_cases hroom : l.queue.length < capacity
    · rw [push_length hroom]
      omega
    · rw [push_full (Nat.le_antisymm l.bound (Nat.le_of_not_lt hroom))]
      omega

/-- While a handler has something to send, others may fill the queue. -/
theorem produce_blocks (h : l.outbox ≠ []) (item : E) :
    (run (step H) l ((List.replicate capacity item).map .produce)).Blocked := by
  refine ⟨?_, produce_fills _ l ?_⟩
  · rw [produce_outbox]
    exact h
  · rw [List.length_replicate]
    omega

/-- A handler that sends something while the queue is full waits on itself. -/
theorem serve_blocks {j : J} (hready : l.ready H = true) (hfull : l.queue.length = capacity)
    (hsends : (H.onInput l.state j).2 ≠ []) : (l.step H (.serve j)).Blocked := by
  show (l.serveInput H j).Blocked
  unfold serveInput
  rw [if_pos hready]
  exact ⟨hsends, hfull⟩

/-! ## Runs -/

theorem silent_step (h : l.outbox = []) {i : QueueInput E W J} (hi : l.Silent H i) :
    (l.step H i).outbox = [] := by
  cases i with
  | produce item => exact (push_outbox l item).trans h
  | take w =>
    show (l.takeItem H w).outbox = []
    unfold takeItem
    split
    · exact h
    · rename_i item rest hqueue
      split
      · rename_i hready
        exact hi hready item rest hqueue
      · exact h
  | serve j =>
    show (l.serveInput H j).outbox = []
    unfold serveInput
    split
    · rename_i hready
      exact hi hready
    · exact h
  | emit =>
    show l.emitItem.outbox = []
    unfold emitItem
    rw [h]
    exact h

theorem silent_of_step {i : QueueInput E W J} (hi : (l.step H i).outbox = []) :
    l.Silent H i := by
  cases i with
  | take w =>
    intro hready item rest hqueue
    change (l.takeItem H w).outbox = [] at hi
    unfold takeItem at hi
    split at hi
    · rename_i hempty
      rw [hempty] at hqueue
      cases hqueue
    · rename_i item' rest' hqueue'
      rw [if_pos hready] at hi
      rw [hqueue', List.cons.injEq] at hqueue
      rw [← hqueue.1]
      exact hi
  | serve j =>
    intro hready
    change (l.serveInput H j).outbox = [] at hi
    unfold serveInput at hi
    rw [if_pos hready] at hi
    exact hi
  | _ => exact True.intro

/-- A loop that begins between two handlers never waits on itself, whatever others put on its
queue at any time, exactly when each handler of the run sends nothing. -/
theorem never_blocked_iff [Inhabited E] (is : List (QueueInput E W J))
    {l : SelfQueue S E capacity} (h : l.outbox = []) : Meets (step H) (Silent H) l is ↔
      ∀ pre, pre <+: is → ∀ items : List E,
        ¬ (run (step H) l (pre ++ items.map .produce)).Blocked := by
  induction is generalizing l with
  | nil =>
    refine iff_of_true True.intro ?_
    intro pre hpre items hblocked
    rw [List.prefix_nil.mp hpre, List.nil_append] at hblocked
    exact hblocked.1 ((produce_outbox items l).trans h)
  | cons i is ih =>
    refine ⟨?_, ?_⟩
    · intro hmeets pre hpre items hblocked
      cases pre with
      | nil => exact hblocked.1 ((produce_outbox items l).trans h)
      | cons i' pre =>
        obtain ⟨rfl, hrest⟩ := List.cons_prefix_cons.mp hpre
        exact (ih (silent_step h hmeets.1)).mp hmeets.2 pre hrest items hblocked
    · intro hnever
      have hout : (l.step H i).outbox = [] := by
        by_contra hsends
        -- the handler sends something, and others are faster
        exact hnever [i] (List.prefix_append [i] is) (List.replicate capacity default)
          (produce_blocks hsends default)
      refine ⟨silent_of_step hout, (ih hout).mpr ?_⟩
      intro pre hpre items
      exact hnever (i :: pre) ((List.prefix_cons_inj i).mpr hpre) items

end

end SelfQueue

end ZeptoPM
