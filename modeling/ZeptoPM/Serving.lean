import Mathlib.Data.List.Perm.Basic
import Mathlib.Data.List.Range
import ZeptoPM.Machine

/- A server behind a bounded queue. A client that asks waits until the queue has room for its
   command; the server takes one command after the other and answers it, one that it does not
   finish counting as not taken, and meets inputs of its own in between. An input that takes the
   server down, be it only to come up again, drops what waits, unanswered. No client is forgotten
   and none is answered twice (`conserved`), and what a client asks after a state was reached is
   answered in a later one (`answered_later`): so a property that the server keeps is one that
   its later answers show. -/
namespace ZeptoPM

/-- The server: what it answers to a command and what becomes of it, and the same for its own
inputs. -/
structure Service (S C R W I : Type) where
  handle : S → W → C → S × R
  other : S → I → S
  up : S → Bool
  /-- The input takes the server down, for good or for a moment. -/
  drops : S → I → Bool
  capacity : Nat
  handle_up : ∀ s w c, up s = true → up (handle s w c).1 = true
  down_drops : ∀ s i, up s = true → up (other s i) = false → drops s i = true

/-- A command, with the number of its request. -/
structure Ticket (C : Type) where
  number : Nat
  command : C

/-- What came of a request; nothing did where the server went down first. -/
structure Upshot (C R : Type) extends Ticket C where
  answer : Option R

structure Desk (S C R : Type) where
  server : S
  /-- How many requests there were. -/
  asked : Nat
  /-- Those that wait for room in the queue. -/
  waiting : List (Ticket C)
  queue : List (Ticket C)
  outcomes : List (Upshot C R)

inductive DeskInput (C W I : Type) where
  | ask (command : C)
  /-- One of those that wait comes into the queue. -/
  | enter (n : Nat)
  | take (w : W)
  | other (i : I)

namespace Service
variable {S C R W I : Type} (v : Service S C R W I)

/-- A server and no requests. -/
def opening (s : S) : Desk S C R := ⟨s, 0, [], [], []⟩

def enter (k : Desk S C R) (n : Nat) : Desk S C R :=
  match k.waiting[n]? with
  | none => k
  | some ticket =>
    if k.queue.length < v.capacity then
      { k with waiting := k.waiting.eraseIdx n, queue := k.queue ++ [ticket] }
    else k

def take (k : Desk S C R) (w : W) : Desk S C R :=
  match k.queue with
  | [] => k
  | ticket :: queue =>
    { k with
      server := (v.handle k.server w ticket.command).1
      queue := queue
      outcomes := k.outcomes ++ [⟨ticket, some (v.handle k.server w ticket.command).2⟩] }

def otherwise (k : Desk S C R) (i : I) : Desk S C R :=
  if v.drops k.server i then
    { server := v.other k.server i
      asked := k.asked
      waiting := []
      queue := []
      outcomes := k.outcomes ++ (k.queue ++ k.waiting).map (⟨·, none⟩) }
  else { k with server := v.other k.server i }

def step (k : Desk S C R) : DeskInput C W I → Desk S C R
  | .ask command =>
    if v.up k.server then
      { k with asked := k.asked + 1, waiting := k.waiting ++ [⟨k.asked, command⟩] }
    else k
  | .enter n => v.enter k n
  | .take w => v.take k w
  | .other i => v.otherwise k i

end Service

/-! ## No request is lost or answered twice -/

namespace Desk
variable {S C R : Type}

/-- The numbers of all requests, by where they are. -/
def numbers (k : Desk S C R) : List Nat :=
  (k.waiting ++ k.queue).map Ticket.number ++ k.outcomes.map (·.number)

end Desk

/-- Every request is at one place, the queue has its bound, and nobody waits at a server that
is down. -/
structure Service.Orderly {S C R W I : Type} (v : Service S C R W I) (k : Desk S C R) : Prop where
  conserved : k.numbers.Perm (List.range k.asked)
  room : k.queue.length ≤ v.capacity
  idle : v.up k.server = false → k.waiting = [] ∧ k.queue = []

namespace Service
section
variable {S C R W I : Type} {v : Service S C R W I} {k : Desk S C R}

theorem orderly_opening (v : Service S C R W I) (s : S) :
    v.Orderly (opening s : Desk S C R) := ⟨.refl _, Nat.zero_le _, fun _ => ⟨rfl, rfl⟩⟩

theorem orderly_ask (h : v.Orderly k) (command : C) : v.Orderly (v.step k (.ask command)) := by
  show v.Orderly (if v.up k.server then _ else k)
  split
  · rename_i hup
    refine ⟨?_, h.room, fun hdown => absurd (hup.symm.trans hdown) (by decide)⟩
    have hmove : (k.waiting ++ [Ticket.mk k.asked command] ++ k.queue).Perm
        (Ticket.mk k.asked command :: (k.waiting ++ k.queue)) := by
      rw [List.append_assoc]
      exact List.perm_middle
    rw [List.range_succ]
    calc ((k.waiting ++ [Ticket.mk k.asked command] ++ k.queue).map Ticket.number ++
          k.outcomes.map (·.number)).Perm (k.asked :: k.numbers) :=
          (hmove.map Ticket.number).append_right _
      _ |>.Perm (k.numbers ++ [k.asked]) := (List.perm_append_singleton ..).symm
      _ |>.Perm (List.range k.asked ++ [k.asked]) := h.conserved.append_right _
  · exact h

theorem orderly_enter (h : v.Orderly k) (n : Nat) : v.Orderly (v.step k (.enter n)) := by
  show v.Orderly (v.enter k n)
  unfold enter
  split
  · exact h
  · rename_i ticket hticket
    split
    · rename_i hroom
      obtain ⟨hn, hget⟩ := List.getElem?_eq_some_iff.mp hticket
      refine ⟨?_, ?_, fun hdown => ?_⟩
      · have hmove : (k.waiting.eraseIdx n ++ (k.queue ++ [ticket])).Perm
            (k.waiting ++ k.queue) := by
          have hback : (ticket :: k.waiting.eraseIdx n).Perm k.waiting := by
            rw [← hget]
            exact List.getElem_cons_eraseIdx_perm hn
          calc (k.waiting.eraseIdx n ++ (k.queue ++ [ticket])).Perm
                (k.queue ++ [ticket] ++ k.waiting.eraseIdx n) := List.perm_append_comm
            _ |>.Perm (k.queue ++ (ticket :: k.waiting.eraseIdx n)) := by
              rw [List.append_assoc]
              rfl
            _ |>.Perm (k.queue ++ k.waiting) := hback.append_left k.queue
            _ |>.Perm (k.waiting ++ k.queue) := List.perm_append_comm
        exact ((hmove.map _).append_right _).trans h.conserved
      · show (k.queue ++ [ticket]).length ≤ v.capacity
        rw [List.length_append, List.length_singleton]
        exact hroom
      · rw [(h.idle hdown).1] at hn
        exact absurd hn (Nat.not_lt_zero n)
    · exact h

theorem orderly_take (h : v.Orderly k) (w : W) : v.Orderly (v.step k (.take w)) := by
  show v.Orderly (v.take k w)
  unfold take
  split
  · exact h
  · rename_i ticket queue hqueue
    have hup : v.up k.server = true := by
      cases hdown : v.up k.server with
      | true => rfl
      | false =>
        rw [(h.idle hdown).2] at hqueue
        cases hqueue
    refine ⟨?_, ?_, fun hdown => ?_⟩
    · refine List.Perm.trans ?_ h.conserved
      unfold Desk.numbers
      rw [hqueue]
      have hqueued : (ticket :: (k.waiting ++ queue)).Perm (k.waiting ++ ticket :: queue) :=
        List.perm_middle.symm
      have hmoved : ((k.waiting ++ queue).map Ticket.number ++ (k.outcomes.map (·.number) ++
          [ticket.number])).Perm ((ticket :: (k.waiting ++ queue)).map Ticket.number ++
            k.outcomes.map (·.number)) := by
        rw [← List.append_assoc]
        exact List.perm_append_singleton ..
      have hadded : ∀ o : Upshot C R, (k.outcomes ++ [o]).map (·.number) =
          k.outcomes.map (·.number) ++ [o.number] := fun _ => List.map_append
      show ((k.waiting ++ queue).map Ticket.number ++
        (k.outcomes ++ [(Upshot.mk ticket _ : Upshot C R)]).map (·.number)).Perm _
      rw [hadded]
      exact hmoved.trans ((hqueued.map Ticket.number).append_right _)
    · have hroom := h.room
      rw [hqueue] at hroom
      exact (Nat.le_succ _).trans hroom
    · exact absurd (v.handle_up k.server w ticket.command hup) (by rw [hdown]; decide)

theorem orderly_other (h : v.Orderly k) (i : I) : v.Orderly (v.step k (.other i)) := by
  show v.Orderly (v.otherwise k i)
  unfold otherwise
  split
  · refine ⟨?_, Nat.zero_le _, fun _ => ⟨rfl, rfl⟩⟩
    refine List.Perm.trans ?_ h.conserved
    show ((k.outcomes ++ (k.queue ++ k.waiting).map (Upshot.mk (R := R) · none)).map
      (·.number)).Perm _
    rw [List.map_append, List.map_map]
    exact List.perm_append_comm.trans
      ((List.perm_append_comm.map Ticket.number).append_right _)
  · rename_i hkept
    -- a server that goes down lets go of its requests
    refine ⟨h.conserved, h.room, fun hdown => ?_⟩
    cases hup : v.up k.server with
    | true => exact absurd (v.down_drops k.server i hup hdown) hkept
    | false => exact h.idle hup

theorem orderly_step (h : v.Orderly k) (x : DeskInput C W I) : v.Orderly (v.step k x) := by
  cases x with
  | ask command => exact orderly_ask h command
  | enter n => exact orderly_enter h n
  | take w => exact orderly_take h w
  | other i => exact orderly_other h i

/-- A request has one outcome at most. -/
theorem Orderly.outcomes_nodup (h : v.Orderly k) : (k.outcomes.map (·.number)).Nodup :=
  (List.nodup_append.mp (h.conserved.nodup_iff.mpr List.nodup_range)).2.1

theorem Orderly.lt_asked (h : v.Orderly k) {o : Upshot C R} (ho : o ∈ k.outcomes) :
    o.number < k.asked :=
  List.mem_range.mp (h.conserved.subset
    (List.mem_append_right _ (List.mem_map_of_mem (f := fun o => o.number) ho)))

/-! ## Later answers -/

/-- A step adds outcomes that are none, or the answer to the command that is taken. -/
theorem outcomes_step (v : Service S C R W I) (k : Desk S C R) (x : DeskInput C W I) :
    (∃ tickets : List (Ticket C),
        (v.step k x).outcomes = k.outcomes ++ tickets.map (Upshot.mk · none)) ∨
      ∃ w ticket queue, x = .take w ∧ k.queue = ticket :: queue ∧
        (v.step k x).outcomes =
          k.outcomes ++ [⟨ticket, some (v.handle k.server w ticket.command).2⟩] := by
  have hsame : ∀ k' : Desk S C R, k'.outcomes = k.outcomes →
      ∃ tickets : List (Ticket C), k'.outcomes = k.outcomes ++ tickets.map (Upshot.mk · none) :=
    fun _ h => ⟨[], h.trans (List.append_nil _).symm⟩
  cases x with
  | ask command =>
    refine Or.inl (hsame _ ?_)
    show (if v.up k.server then _ else k).outcomes = _
    split <;> rfl
  | enter n =>
    refine Or.inl (hsame _ ?_)
    show (v.enter k n).outcomes = _
    unfold enter
    split
    · rfl
    · split <;> rfl
  | take w =>
    cases hqueue : k.queue with
    | nil =>
      refine Or.inl (hsame _ ?_)
      show (v.take k w).outcomes = _
      unfold take
      rw [hqueue]
    | cons ticket queue =>
      refine Or.inr ⟨w, ticket, queue, rfl, rfl, ?_⟩
      show (v.take k w).outcomes = _
      unfold take
      rw [hqueue]
  | other i =>
    refine Or.inl ?_
    show ∃ tickets : List (Ticket C), (v.otherwise k i).outcomes = _
    unfold otherwise
    split
    · exact ⟨k.queue ++ k.waiting, rfl⟩
    · exact hsame _ rfl

/-- An outcome that a step adds: the server has answered as it was, or it is none. -/
theorem outcome_cases (v : Service S C R W I) {k : Desk S C R} {x : DeskInput C W I}
    {o : Upshot C R} (ho : o ∈ (v.step k x).outcomes) :
    o ∈ k.outcomes ∨ o.answer = none ∨
      ∃ w ticket queue, x = .take w ∧ k.queue = ticket :: queue ∧
        o = ⟨ticket, some (v.handle k.server w ticket.command).2⟩ := by
  rcases outcomes_step v k x with ⟨tickets, hout⟩ | ⟨w, ticket, queue, hx, hqueue, hout⟩
  · rw [hout] at ho
    rcases List.mem_append.mp ho with ho | ho
    · exact Or.inl ho
    · obtain ⟨ticket, _, rfl⟩ := List.mem_map.mp ho
      exact Or.inr (Or.inl rfl)
  · rw [hout] at ho
    rcases List.mem_append.mp ho with ho | ho
    · exact Or.inl ho
    · exact Or.inr (Or.inr ⟨w, ticket, queue, hx, hqueue, List.mem_singleton.mp ho⟩)

/-- The server takes commands only while it is up. -/
theorem Orderly.up_of_queue (h : v.Orderly k) {ticket : Ticket C} {queue : List (Ticket C)}
    (hqueue : k.queue = ticket :: queue) : v.up k.server = true := by
  cases hdown : v.up k.server with
  | true => rfl
  | false =>
    rw [(h.idle hdown).2] at hqueue
    cases hqueue

/-- What is asked once the server has the property `P`, is answered by a server that has it. -/
theorem answered_later {P : S → Prop} {Q : C → R → Prop} {G : Desk S C R → DeskInput C W I → Prop}
    (hP : ∀ k x, v.Orderly k → P k.server → G k x → P (v.step k x).server)
    (hQ : ∀ k w c, P k.server → v.up k.server = true → G k (.take w) →
      Q c (v.handle k.server w c).2)
    (hk : v.Orderly k) (hp : P k.server) {xs : List (DeskInput C W I)}
    (hG : Meets v.step G k xs) :
    ∀ o ∈ (run v.step k xs).outcomes, k.asked ≤ o.number → ∀ r, o.answer = some r →
      Q o.command r := by
  refine (run_invariant (G := G) (P := fun k' => v.Orderly k' ∧ P k'.server ∧
    ∀ o ∈ k'.outcomes, k.asked ≤ o.number → ∀ r, o.answer = some r → Q o.command r) ?_
      ⟨hk, hp, fun o ho hle => absurd (hk.lt_asked ho) (Nat.not_lt.mpr hle)⟩ hG).2.2
  intro k' x h hg
  obtain ⟨hk', hp', hout⟩ := h
  -- an answer is new in this step, or was there before
  refine ⟨orderly_step hk' x, hP k' x hk' hp' hg, fun o ho hle r hr => ?_⟩
  rcases outcome_cases v ho with hold | hnone | ⟨w, ticket, queue, rfl, hqueue, rfl⟩
  · exact hout o hold hle r hr
  · rw [hnone] at hr
    cases hr
  · cases hr
    exact hQ k' w ticket.command hp' (hk'.up_of_queue hqueue) hg

end
end Service
end ZeptoPM
