import ZeptoPM.Server
import ZeptoPM.SlidingWindow

/- The rate limiter of the gateway. A bucket is a sliding window of 60 seconds: as
   long as its log is no longer than its limit, which fits 32 bits, counting it in
   32 bits loses nothing and `check_and_record` is `SlidingWindow.record`. What
   `remaining` tells is what is left of the limit after the acceptances of the last
   60 seconds. The gateway keeps one bucket for each agent, so a bucket sees the
   requests of one agent in the order they come (`bucket_run`). -/
namespace ZeptoPM
open SlidingWindow

/-- Whether an instant has left the last 60 seconds. -/
def expired (t now : Nat) : Bool := t + 60000 < now

theorem expired_expiry : Expiry expired where
  older := by
    intro t t' now h hold
    unfold expired at hold ⊢
    rw [decide_eq_true_eq] at hold ⊢
    omega
  later := by
    intro t now now' h hold
    unfold expired at hold ⊢
    rw [decide_eq_true_eq] at hold ⊢
    omega
  fresh := by
    intro now
    unfold expired
    rw [decide_eq_false_iff_not]
    omega

theorem not_expired {t now : Nat} (h : t ≤ now) :
    (!expired t now) = decide (now ≤ t + 60000 ∧ t ≤ now) := by
  unfold expired
  rw [← decide_not]
  refine decide_eq_decide.mpr ?_
  omega

namespace RateLimitBucket

def new (limit : Nat) : RateLimitBucket := ⟨[], limit⟩

/-- What is left of the limit, both counted in 32 bits. -/
def remaining (now : Instant) (bucket : RateLimitBucket) : Nat :=
  bucket.limit - (bucket.window.filter (fun t => now ≤ t + 60000)).length % 2 ^ 32

/-- The bucket after requests at the given instants. -/
def after (bucket : RateLimitBucket) (times : List Instant) : RateLimitBucket :=
  times.foldl (fun b now => (b.checkAndRecord now).2) bucket

/-- The instants at which a request was accepted. -/
def accepted : RateLimitBucket → List Instant → List Instant
  | _, [] => []
  | bucket, now :: times =>
    let (ok, bucket) := bucket.checkAndRecord now
    if ok then now :: accepted bucket times else accepted bucket times

theorem after_append (bucket : RateLimitBucket) (ts ts' : List Instant) :
    bucket.after (ts ++ ts') = (bucket.after ts).after ts' := List.foldl_append

theorem accepted_append (bucket : RateLimitBucket) (ts ts' : List Instant) :
    bucket.accepted (ts ++ ts') = bucket.accepted ts ++ (bucket.after ts).accepted ts' := by
  induction ts generalizing bucket with
  | nil => rfl
  | cons now ts ih =>
    have hstep : bucket.after (now :: ts) = ((bucket.checkAndRecord now).2).after ts := rfl
    rw [hstep]
    simp only [List.cons_append, accepted]
    rw [ih]
    split
    · rw [List.cons_append]
    · rfl

section
variable (bucket : RateLimitBucket) (h32 : bucket.limit < 2 ^ 32)
  (hlen : bucket.window.length ≤ bucket.limit)
include h32 hlen

/-- A log no longer than its limit is counted as it is. -/
theorem checkAndRecord_eq (now : Instant) : bucket.checkAndRecord now =
    ((record expired bucket.limit bucket.window now).1,
      ⟨(record expired bucket.limit bucket.window now).2, bucket.limit⟩) := by
  have hkept : (bucket.window.dropWhile (fun t => t + 60000 < now)).length % 2 ^ 32 =
      (evict expired bucket.window now).length := by
    refine Nat.mod_eq_of_lt (Nat.lt_of_le_of_lt ?_ h32)
    exact Nat.le_trans (List.dropWhile_sublist _).length_le hlen
  unfold checkAndRecord record
  dsimp only
  rw [hkept]
  split <;> rfl

theorem remaining_eq (now : Instant) :
    bucket.remaining now = bucket.limit - (counting expired bucket.window now).length := by
  have hactive : bucket.window.filter (fun t => now ≤ t + 60000) =
      counting expired bucket.window now := by
    unfold counting expired
    refine List.filter_congr ?_
    intro t _
    rw [← decide_not]
    exact decide_eq_decide.mpr Nat.not_lt.symm
  unfold remaining
  rw [hactive, Nat.mod_eq_of_lt]
  exact Nat.lt_of_le_of_lt (Nat.le_trans (List.filter_sublist).length_le hlen) h32

end

/-- In every run over times that do not go back, a bucket accounts for what it accepted. -/
theorem after_accounted {limit : Nat} (h32 : limit < 2 ^ 32) (times : List Instant)
    (hs : times.Pairwise (· ≤ ·)) :
    ((new limit).after times).limit = limit ∧
    Accounted expired limit times ((new limit).accepted times)
      ((new limit).after times).window := by
  induction times using List.reverseRecOn with
  | nil => exact ⟨rfl, Accounted.start⟩
  | append_singleton times now ih =>
    rw [List.pairwise_append] at hs
    obtain ⟨hlimit, hacc⟩ := ih hs.1
    have hnow : ∀ t ∈ times, t ≤ now := fun t ht => hs.2.2 t ht now (by simp)
    have hstep := checkAndRecord_eq ((new limit).after times) (by rw [hlimit]; exact h32)
      (by rw [hlimit]; exact hacc.len) now
    rw [hlimit] at hstep
    rw [after_append, accepted_append]
    show (((new limit).after times).checkAndRecord now).2.limit = limit ∧
      Accounted expired limit _ _ (((new limit).after times).checkAndRecord now).2.window
    simp only [accepted]
    rw [hstep]
    refine ⟨rfl, ?_⟩
    dsimp only
    cases hok : (record expired limit ((new limit).after times).window now).1 with
    | false =>
      have hno := hacc.refuse expired_expiry hnow hok
      simpa using hno
    | true => exact hacc.accept expired_expiry hnow hok

/-- For every limit and all times that do not go back: no closed window of 60 seconds holds more
acceptances than the limit, a request is refused exactly when the 60 seconds up to it hold as many
as the limit, and what remains is positive exactly when a request is accepted, which takes one. -/
theorem exact_sliding_window (limit : UInt32) (times : List Instant)
    (hs : times.Pairwise (· ≤ ·)) :
    (∀ a, (((new limit.toNat).accepted times).filter
      (fun t => a ≤ t ∧ t ≤ a + 60000)).length ≤ limit.toNat) ∧
    ∀ earlier now later, times = earlier ++ now :: later →
      let bucket := (new limit.toNat).after earlier
      ((bucket.checkAndRecord now).1 = false ↔
        (((new limit.toNat).accepted earlier).filter
          (fun t => now ≤ t + 60000 ∧ t ≤ now)).length = limit.toNat) ∧
      (0 < bucket.remaining now ↔ (bucket.checkAndRecord now).1 = true) ∧
      ((bucket.checkAndRecord now).1 = true →
        (bucket.checkAndRecord now).2.remaining now + 1 = bucket.remaining now) := by
  have h32 : limit.toNat < 2 ^ 32 := limit.toNat_lt
  refine ⟨?_, ?_⟩
  · intro a
    refine (after_accounted h32 times hs).2.bounded a (a + 60000) ?_
    unfold expired
    simp
  · intro earlier now later htimes
    rw [htimes, List.pairwise_append] at hs
    obtain ⟨hlimit, hacc⟩ := after_accounted h32 earlier hs.1
    have hnow : ∀ t ∈ earlier, t ≤ now := fun t ht => hs.2.2 t ht now List.mem_cons_self
    have hlen := hacc.len
    have hstep := checkAndRecord_eq ((new limit.toNat).after earlier)
      (by rw [hlimit]; exact h32) (by rw [hlimit]; exact hlen) now
    have hleft := remaining_eq ((new limit.toNat).after earlier)
      (by rw [hlimit]; exact h32) (by rw [hlimit]; exact hlen) now
    rw [hlimit] at hstep hleft
    have hrefused := hacc.refused_iff expired_expiry hnow
    have hcounted := hacc.counted now hnow
    have hle : (counting expired ((new limit.toNat).after earlier).window now).length ≤
        limit.toNat := Nat.le_trans (List.filter_sublist).length_le hlen
    dsimp only
    refine ⟨?_, ?_, ?_⟩
    · -- what counts at `now` is what was accepted in the 60 seconds up to `now`
      rw [hstep, hrefused]
      unfold counting
      rw [List.filter_congr (q := fun t => decide (now ≤ t + 60000 ∧ t ≤ now))]
      exact fun t ht => not_expired (hnow t (hacc.asked t ht))
    · rw [hleft, hstep]
      dsimp only
      rw [← Bool.not_eq_false, hrefused, ← hcounted]
      omega
    · intro hyes
      rw [hstep] at hyes ⊢
      have hafter := hacc.accept expired_expiry hnow hyes
      rw [remaining_eq _ h32 hafter.len, hleft, hacc.counting_accept expired_expiry hyes,
        List.length_append, List.length_singleton]
      have hroom : ¬ (counting expired ((new limit.toNat).after earlier).window now).length =
          limit.toNat := by
        rw [hcounted, ← hrefused, Bool.not_eq_false]
        exact hyes
      dsimp only
      omega

/-- Two at once, a third one exactly 60 seconds later, which is refused, and one just after it. -/
theorem exact_sliding_window_two :
    ((new (2 : UInt32).toNat).accepted [0, 0, 60000, 60001] = [0, 0, 60001]) ∧
    (((new (2 : UInt32).toNat).accepted [0, 0, 60000, 60001]).filter
      (fun t => 1 ≤ t ∧ t ≤ 1 + 60000)).length ≤ (2 : UInt32).toNat :=
  ⟨by decide, (exact_sliding_window 2 [0, 0, 60000, 60001] (by decide)).1 1⟩

end RateLimitBucket

/-! ## One bucket for each agent -/

/-- A request the gateway counts: the agent, the limit its config has then, the instant. -/
structure CountedRequest where
  name : String
  limit : Nat
  now : Instant

/-- The shared state after a counted request. -/
def countStep (s : DaemonState) (c : CountedRequest) : DaemonState :=
  (s.checkRate c.now c.name c.limit).2

/-- What a request that passes the key check of an agent with a limit does to the buckets is to
be counted. -/
theorem admitted_rateLimits (s : DaemonState) (m : ManagedAgentRef) (gw : ResolvedGatewayConfig)
    (now : Instant) (req : ChatRequest) (answer : Except String String) {limit : Nat}
    (hkey : gw.refusal req.headers = none) (hlimit : gw.rateLimit = some limit) :
    (s.admitted m gw now req answer).state = countStep s ⟨req.name, limit, now⟩ ∧
    ((s.admitted m gw now req answer).forwarded.isSome =
      (s.checkRate now req.name limit).1) := by
  unfold DaemonState.admitted countStep
  simp only [hkey, hlimit]
  cases hrate : s.checkRate now req.name limit with
  | mk ok s' =>
    cases ok with
    | false => exact ⟨rfl, rfl⟩
    | true => exact ⟨rfl, rfl⟩

/-- The bucket of an agent begins with the limit of the first request counted for it and then
sees the requests for it in their order, whatever else is counted in between. -/
theorem bucket_run (s : DaemonState) (name : String) (cs : List CountedRequest) :
    (run countStep s cs).rateLimits.get name =
      match cs.filter (fun c => c.name == name) with
      | [] => s.rateLimits.get name
      | c :: mine => some (((s.rateLimits.get name).getD (RateLimitBucket.new c.limit)).after
          ((c :: mine).map (·.now))) := by
  induction cs generalizing s with
  | nil => rfl
  | cons c cs ih =>
    have hget : (countStep s c).rateLimits.get name = if name = c.name then
        some (((s.rateLimits.get c.name).getD ⟨[], c.limit⟩).checkAndRecord c.now).2
        else s.rateLimits.get name := HashMap.get_insert ..
    rw [run_cons, ih, hget, List.filter_cons]
    by_cases hname : c.name = name
    · subst hname
      rw [if_pos rfl, if_pos (beq_self_eq_true _)]
      cases cs.filter (fun c' => c'.name == c.name) with
      | nil => rfl
      | cons c' mine => rfl
    · rw [if_neg (fun h => hname h.symm), if_neg (by simpa using hname)]

end ZeptoPM
