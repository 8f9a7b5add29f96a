import Mathlib.Data.List.Sort
import Mathlib.Order.Defs.LinearOrder

/- A sliding-window limiter over any linearly ordered time. It keeps a log of the
   requests it accepted, drops from the front of the log what has gone stale, and
   accepts while fewer than `limit` entries are left. Dropping from the front is
   enough because the log is sorted, and what has been dropped never counts again:
   at every instant from the last request on, the log and the list of everything
   ever accepted have the same entries that still count (`Accounted.counted`). No
   window, wherever it ends, holds more than `limit` acceptances
   (`Accounted.bounded`). -/
namespace ZeptoPM

namespace SlidingWindow

section
variable {T : Type} (stale : T → T → Bool) (limit : Nat)

/-- The log that is left once the stale entries are dropped from its front. -/
def evict (log : List T) (now : T) : List T := log.dropWhile (fun t => stale t now)

/-- Whether a request is accepted, and the log after it. -/
def record (log : List T) (now : T) : Bool × List T :=
  let kept := evict stale log now
  if limit ≤ kept.length then (false, kept) else (true, kept ++ [now])

/-- The entries that still count at an instant. -/
def counting (log : List T) (now : T) : List T := log.filter (fun t => !stale t now)

variable {stale limit}

theorem record_refused {log : List T} {now : T} (h : (record stale limit log now).1 = false) :
    (record stale limit log now).2 = evict stale log now := by
  unfold record at h ⊢
  dsimp only at h ⊢
  split at h
  · rename_i hfull
    rw [if_pos hfull]
  · cases h

theorem record_accepted {log : List T} {now : T} (h : (record stale limit log now).1 = true) :
    (record stale limit log now).2 = evict stale log now ++ [now] ∧
      (evict stale log now).length < limit := by
  unfold record at h ⊢
  dsimp only at h ⊢
  split at h
  · cases h
  · rename_i hroom
    rw [if_neg hroom]
    exact ⟨rfl, Nat.lt_of_not_le hroom⟩

end

section
variable {T : Type} [LinearOrder T] (stale : T → T → Bool) (limit : Nat)

/-- An older entry goes stale first, a stale entry stays stale, and none is stale at once. -/
structure Expiry : Prop where
  older : ∀ t t' now, t ≤ t' → stale t' now = true → stale t now = true
  later : ∀ t now now', now ≤ now' → stale t now = true → stale t now' = true
  fresh : ∀ now, stale now now = false

/-- The entries of the closed window from `a` to `b`. -/
def within (log : List T) (a b : T) : List T := log.filter (fun t => a ≤ t ∧ t ≤ b)

/-- After the requests `seen`, of which `accepted` were accepted, the log is `log`. -/
structure Accounted (seen accepted log : List T) : Prop where
  sorted : log.Pairwise (· ≤ ·)
  subset : ∀ t ∈ log, t ∈ seen
  asked : ∀ t ∈ accepted, t ∈ seen
  len : log.length ≤ limit
  counted : ∀ now, (∀ t ∈ seen, t ≤ now) → counting stale log now = counting stale accepted now
  bounded : ∀ a b, stale a b = false → (within accepted a b).length ≤ limit

variable {stale limit}

theorem Accounted.start : Accounted stale limit [] [] [] where
  sorted := List.Pairwise.nil
  subset := fun _ h => h
  asked := fun _ h => h
  len := Nat.zero_le _
  counted := fun _ _ => rfl
  bounded := fun _ _ _ => Nat.zero_le _

variable (ex : Expiry stale)
include ex

/-- In a sorted log the stale entries stand in front. -/
theorem evict_eq_counting {log : List T} (hs : log.Pairwise (· ≤ ·)) (now : T) :
    evict stale log now = counting stale log now := by
  unfold evict counting
  induction log with
  | nil => rfl
  | cons t log ih =>
    rw [List.pairwise_cons] at hs
    rw [List.dropWhile_cons, List.filter_cons]
    by_cases ht : stale t now = true
    · rw [if_pos ht, ih hs.2, ht]
      rfl
    · rw [if_neg ht]
      rw [Bool.not_eq_true] at ht
      have hrest : ∀ t' ∈ log, (!stale t' now) = true := by
        intro t' ht'
        rw [Bool.not_eq_true', ← Bool.not_eq_true]
        intro hstale
        rw [ex.older t t' now (hs.1 t' ht') hstale] at ht
        cases ht
      rw [List.filter_eq_self.mpr hrest, ht]
      rfl

/-- What counts later is among what counts now. -/
theorem counting_counting {now now' : T} (h : now ≤ now') (log : List T) :
    counting stale (counting stale log now) now' = counting stale log now' := by
  unfold counting
  rw [List.filter_filter]
  refine List.filter_congr ?_
  intro t _
  cases hnow : stale t now with
  | false => simp
  | true => simp [ex.later t now now' h hnow]

/-- At the instant `now` a window that `now` lies in holds nothing stale. -/
theorem within_le_counting (accepted : List T) {a b now : T} (hab : stale a b = false)
    (hnow : now ≤ b) : (within accepted a b).length ≤ (counting stale accepted now).length := by
  refine List.Sublist.length_le (List.monotone_filter_right _ ?_)
  intro t ht
  rw [decide_eq_true_eq] at ht
  rw [Bool.not_eq_true', ← Bool.not_eq_true]
  intro hstale
  rw [ex.later a now b hnow (ex.older a t now ht.1 hstale)] at hab
  cases hab

/-- An accepted request counts at once. -/
theorem Accounted.counting_accept {seen accepted log : List T} {now : T}
    (h : Accounted stale limit seen accepted log)
    (hyes : (record stale limit log now).1 = true) :
    counting stale (record stale limit log now).2 now = counting stale log now ++ [now] := by
  have hkept := counting_counting ex (le_refl now) log
  rw [(record_accepted hyes).1, evict_eq_counting ex h.sorted]
  unfold counting at hkept ⊢
  rw [List.filter_append, hkept, List.filter_cons_of_pos (by simp [ex.fresh]), List.filter_nil]

section
variable {seen accepted log : List T} (h : Accounted stale limit seen accepted log)
  {now : T} (hnow : ∀ t ∈ seen, t ≤ now)
include h hnow

theorem Accounted.evict_eq : evict stale log now = counting stale accepted now :=
  (evict_eq_counting ex h.sorted now).trans (h.counted now hnow)

/-- A request is refused exactly when the limit is used up by what still counts. -/
theorem Accounted.refused_iff : (record stale limit log now).1 = false ↔
    (counting stale accepted now).length = limit := by
  have hle : (evict stale log now).length ≤ limit :=
    Nat.le_trans (List.dropWhile_sublist _).length_le h.len
  rw [← h.evict_eq ex hnow]
  unfold record
  dsimp only
  split
  · rename_i hfull
    exact iff_of_true rfl (Nat.le_antisymm hle hfull)
  · rename_i hroom
    refine iff_of_false (by simp) ?_
    omega

/-- A refusal only drops what no longer counts. -/
theorem Accounted.refuse (hno : (record stale limit log now).1 = false) :
    Accounted stale limit (seen ++ [now]) accepted (record stale limit log now).2 := by
  have hlog := record_refused hno
  have hsub : (evict stale log now).Sublist log := List.dropWhile_sublist _
  rw [hlog]
  refine ⟨h.sorted.sublist hsub, ?_, ?_, Nat.le_trans hsub.length_le h.len, ?_, h.bounded⟩
  · exact fun t ht => List.mem_append_left _ (h.subset t (hsub.subset ht))
  · exact fun t ht => List.mem_append_left _ (h.asked t ht)
  · intro now' hnow'
    rw [h.evict_eq ex hnow]
    exact counting_counting ex (hnow' now (by simp)) _

/-- An acceptance adds the request to the log and to what is accepted. -/
theorem Accounted.accept (hyes : (record stale limit log now).1 = true) :
    Accounted stale limit (seen ++ [now]) (accepted ++ [now])
      (record stale limit log now).2 := by
  obtain ⟨hlog, hroom⟩ := record_accepted hyes
  have hsub : (evict stale log now).Sublist log := List.dropWhile_sublist _
  rw [hlog]
  refine ⟨?_, ?_, ?_, ?_, ?_, ?_⟩
  · rw [List.pairwise_append]
    refine ⟨h.sorted.sublist hsub, List.pairwise_singleton _ _, ?_⟩
    intro t ht t' ht'
    rw [List.mem_singleton.mp ht']
    exact hnow t (h.subset t (hsub.subset ht))
  · intro t ht
    rcases List.mem_append.mp ht with ht | ht
    · exact List.mem_append_left _ (h.subset t (hsub.subset ht))
    · exact List.mem_append_right _ ht
  · intro t ht
    rcases List.mem_append.mp ht with ht | ht
    · exact List.mem_append_left _ (h.asked t ht)
    · exact List.mem_append_right _ ht
  · rw [List.length_append, List.length_singleton]
    exact hroom
  · intro now' hnow'
    have hkept := counting_counting ex (hnow' now (by simp)) accepted
    rw [h.evict_eq ex hnow]
    unfold counting at hkept ⊢
    rw [List.filter_append, List.filter_append, hkept]
  · intro a b hab
    unfold within
    rw [List.filter_append, List.length_append]
    by_cases hin : a ≤ now ∧ now ≤ b
    · -- everything else in the window still counts at `now`, where there was room
      have hle := within_le_counting ex accepted hab hin.2
      rw [← h.evict_eq ex hnow] at hle
      unfold within at hle
      rw [List.filter_cons_of_pos (by simpa using hin)]
      simp only [List.filter_nil, List.length_singleton]
      omega
    · rw [List.filter_cons_of_neg (by simpa using hin)]
      exact h.bounded a b hab

end

end

end SlidingWindow

end ZeptoPM
