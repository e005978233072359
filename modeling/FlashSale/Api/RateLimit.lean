import FlashSale.Api.Responses
import FlashSale.Api.Validation

/-!
# The per-user rate limit

`PerUserRateLimitGuard` counts the requests of a user from an address in a bucket of Redis that a
script creates, with a time to live of one window, or increments. A key is alive up to and including
the millisecond at which it expires, and in that millisecond `PTTL` answers `0`.

The script and the guard disagree about that millisecond: the script sees a bucket that is alive and
increments it, the guard takes a time to live of `0` for a malformed reply and fails open. So the
requests that arrive then are admitted however many came before, and the quota of a bucket holds
exactly if no request meets a spent bucket at its last millisecond (`quotaKept_iff`). The double of
the unit tests creates a new bucket there.

The counters are integers without a bound: a window does not see as many requests as would leave the
integers a Lua number holds.
-/

namespace FlashSale

/-! ## The script -/

def RATE_LIMIT_USER_KEY_PREFIX : String := "rl:u:"
def UNKNOWN_IP_SEGMENT : String := "unknown-ip"

/-- The part of `ApiEnv` the guard reads. -/
structure PerUserRateLimitEnv where
  SALE_ID : String
  RATE_LIMIT_USER_MAX : ℕ
  RATE_LIMIT_USER_WINDOW_MS : ℕ
  max_pos : 0 < RATE_LIMIT_USER_MAX
  window_pos : 0 < RATE_LIMIT_USER_WINDOW_MS

def buildUserRateLimitKey (saleId : String) (ip : Option String) (userId : String) : String :=
  RATE_LIMIT_USER_KEY_PREFIX ++ saleId ++ ":" ++ ip.getD UNKNOWN_IP_SEGMENT ++ ":" ++ userId

/-- A counter with the time at which it expires, if it does. -/
structure Bucket where
  count : ℤ
  expiresAtMs : Option ℕ
  deriving DecidableEq, Repr

/-- The keys of the limiter. A key that has expired may still be stored. -/
abbrev LimiterKeys : Type := String → Option Bucket

/-- The bucket under a key, if it is alive. -/
def LimiterKeys.live (keys : LimiterKeys) (key : String) (now : ℕ) : Option Bucket :=
  (keys key).filter fun b => b.expiresAtMs.all fun e => decide (now ≤ e)

/-- `PTTL`. -/
def LimiterKeys.pttl (keys : LimiterKeys) (key : String) (now : ℕ) : ℤ :=
  match keys.live key now with
  | none => -2
  | some ⟨_, none⟩ => -1
  | some ⟨_, some expiresAtMs⟩ => expiresAtMs - now

/-- `INCR`; the time to live stays. -/
def LimiterKeys.incr (keys : LimiterKeys) (key : String) (now : ℕ) : ℤ × LimiterKeys :=
  match keys.live key now with
  | none => (1, Function.update keys key (some ⟨1, none⟩))
  | some b => (b.count + 1, Function.update keys key (some { b with count := b.count + 1 }))

/-- `RATE_LIMIT_USER_SCRIPT`. -/
def rateLimitUserScript (keys : LimiterKeys) (key : String) (windowMs now : ℕ) :
    (ℤ × ℤ) × LimiterKeys :=
  let ttl := keys.pttl key now
  if ttl < 0 then
    ((1, (windowMs : ℤ)), Function.update keys key (some ⟨1, some (now + windowMs)⟩))
  else
    let (count, keys) := keys.incr key now
    ((count, ttl), keys)

/-! ## The guard -/

/-- The check of the reply in `incrementAndBound`; the script replies with two integers. -/
def boundedReply (reply : ℤ × ℤ) : Except Failure (ℤ × ℤ) :=
  if reply.1 < 1 ∨ reply.2 ≤ 0 then
    .error (.error "rate limiter EVAL returned a non-numeric reply")
  else .ok reply

def incrementAndBound (keys : LimiterKeys) (key : String) (windowMs now : ℕ) :
    Except Failure (ℤ × ℤ) × LimiterKeys :=
  let (reply, keys) := rateLimitUserScript keys key windowMs now
  (boundedReply reply, keys)

def RATE_LIMITED_HTTP_STATUS : ℕ := 429

/-- The exception and the headers of `reject`. -/
structure RateLimitRejection where
  headers : List (String × String)
  outcome : AttemptOutcome
  userId : String
  status : ℕ

def reject (env : PerUserRateLimitEnv) (retryAfterSeconds : ℕ) (candidate : String) :
    RateLimitRejection where
  headers := [("retry-after", toString retryAfterSeconds),
    ("x-ratelimit-limit", toString env.RATE_LIMIT_USER_MAX),
    ("x-ratelimit-remaining", "0"),
    ("x-ratelimit-reset", toString retryAfterSeconds)]
  outcome := .rateLimited
  userId := candidate
  status := RATE_LIMITED_HTTP_STATUS

/-- `Math.max(1, Math.ceil(ttlMs / 1000))`. -/
def retryAfterSeconds (ttlMs : ℤ) : ℕ := max 1 ((ttlMs + 999) / 1000).toNat

/-- What the guard reads of a request. -/
structure GuardedRequest where
  body : JsValue
  ip : Option String

/-- The key a request counts under, if it names a plausible user. -/
def GuardedRequest.key (env : PerUserRateLimitEnv) (request : GuardedRequest) : Option String :=
  (extractRateLimitCandidateUserId request.body).map
    (buildUserRateLimitKey env.SALE_ID request.ip)

/-- `canActivate`: `.ok` admits. An error of the store admits as well. -/
def canActivate (env : PerUserRateLimitEnv) (keys : LimiterKeys) (now : ℕ)
    (request : GuardedRequest) : Except RateLimitRejection Unit × LimiterKeys :=
  match extractRateLimitCandidateUserId request.body with
  | none => (.ok (), keys)
  | some candidate =>
    let key := buildUserRateLimitKey env.SALE_ID request.ip candidate
    match incrementAndBound keys key env.RATE_LIMIT_USER_WINDOW_MS now with
    | (.error _, keys) => (.ok (), keys)
    | (.ok (count, ttlMs), keys) =>
      if count ≤ env.RATE_LIMIT_USER_MAX then (.ok (), keys)
      else (.error (reject env (retryAfterSeconds ttlMs) candidate), keys)

/-! ## Runs -/

/-- One request served: the keys before and after it and the answer of the guard. -/
structure Served where
  before : LimiterKeys
  now : ℕ
  key : Option String
  admitted : Bool
  after : LimiterKeys

def serve (env : PerUserRateLimitEnv) (keys : LimiterKeys) (now : ℕ) (request : GuardedRequest) :
    Served :=
  let (answer, after) := canActivate env keys now request
  ⟨keys, now, request.key env, answer.isOk, after⟩

/-- The requests of a run with the times at which the script saw them. -/
def serveAll (env : PerUserRateLimitEnv) : LimiterKeys → List (ℕ × GuardedRequest) → List Served
  | _, [] => []
  | keys, (now, request) :: rest =>
    let served := serve env keys now request
    served :: serveAll env served.after rest

namespace Served

/-- The script created the bucket of this key for the request. -/
def creates (s : Served) (key : String) : Bool :=
  decide (s.key = some key) && decide (s.before.pttl key s.now < 0)

/-- The request counts under this key and was admitted. -/
def admits (s : Served) (key : String) : Bool := decide (s.key = some key) && s.admitted

/-- The request meets a bucket whose quota is used up, in the millisecond in which it expires. -/
def MeetsSpent (env : PerUserRateLimitEnv) (s : Served) (key : String) : Prop :=
  s.key = some key ∧ ∃ b, s.before key = some b ∧ b.expiresAtMs = some s.now ∧
    (env.RATE_LIMIT_USER_MAX : ℤ) ≤ b.count

end Served

/-- Since the last creation of a bucket, and up to the next, at most the quota is admitted. -/
def QuotaKept (env : PerUserRateLimitEnv) (run : List Served) : Prop :=
  ∀ key earlier creation since later, run = earlier ++ creation :: (since ++ later) →
    Served.creates creation key = true → (∀ s ∈ since, Served.creates s key = false) →
    (creation :: since).countP (·.admits key) ≤ env.RATE_LIMIT_USER_MAX

/-- A request that does not create the bucket leaves its expiry. -/
def ExpiryKept (run : List Served) : Prop :=
  ∀ s ∈ run, ∀ key, Served.creates s key = false →
    (s.after key).map (·.expiresAtMs) = (s.before key).map (·.expiresAtMs)

/-- No request meets a spent bucket of the run in its last millisecond. -/
def NoneMeetsSpent (env : PerUserRateLimitEnv) (run : List Served) : Prop :=
  ∀ key earlier creation since s later, run = earlier ++ creation :: (since ++ s :: later) →
    Served.creates creation key = true → (∀ t ∈ since, Served.creates t key = false) →
    ¬ Served.MeetsSpent env s key

/-! ## One request -/

section

variable {env : PerUserRateLimitEnv} {keys : LimiterKeys} {now : ℕ} {key : String}

/-- What the script meets: no bucket to count in, or one with a time to live. -/
theorem pttl_cases (keys : LimiterKeys) (key : String) (now : ℕ) :
    keys.pttl key now < 0 ∨ ∃ n e, keys key = some ⟨n, some e⟩ ∧
      keys.live key now = some ⟨n, some e⟩ ∧ now ≤ e ∧ keys.pttl key now = (e : ℤ) - now := by
  cases hl : keys.live key now with
  | none =>
    refine .inl ?_
    unfold LimiterKeys.pttl
    rw [hl]
    show (-2 : ℤ) < 0
    decide
  | some b =>
    obtain ⟨n, expiry⟩ := b
    unfold LimiterKeys.live at hl
    obtain ⟨hb, halive⟩ := Option.filter_eq_some_iff.1 hl
    have hlive : keys.live key now = some ⟨n, expiry⟩ := hl
    cases expiry with
    | none =>
      refine .inl ?_
      unfold LimiterKeys.pttl
      rw [hlive]
      show (-1 : ℤ) < 0
      decide
    | some e =>
      refine .inr ⟨n, e, hb, rfl, by simpa using halive, ?_⟩
      unfold LimiterKeys.pttl
      rw [hlive]

theorem serve_of_no_key {request : GuardedRequest} (h : request.key env = none) :
    serve env keys now request = ⟨keys, now, none, true, keys⟩ := by
  unfold serve canActivate
  rw [h]
  rw [Option.map_eq_none_iff.1 h]
  rfl

theorem serve_of_key {request : GuardedRequest} (h : request.key env = some key) :
    serve env keys now request = ⟨keys, now, some key,
      match (incrementAndBound keys key env.RATE_LIMIT_USER_WINDOW_MS now).1 with
        | .error _ => true
        | .ok (count, _) => decide (count ≤ env.RATE_LIMIT_USER_MAX),
      (incrementAndBound keys key env.RATE_LIMIT_USER_WINDOW_MS now).2⟩ := by
  obtain ⟨candidate, hc, rfl⟩ := Option.map_eq_some_iff.1 h
  unfold serve canActivate
  rw [h, hc]
  dsimp only
  rcases incrementAndBound keys (buildUserRateLimitKey env.SALE_ID request.ip candidate)
    env.RATE_LIMIT_USER_WINDOW_MS now with ⟨⟨e⟩ | ⟨count, ttlMs⟩, after⟩
  · rfl
  · dsimp only
    by_cases hle : count ≤ env.RATE_LIMIT_USER_MAX
    · rw [if_pos hle, decide_eq_true hle]
      rfl
    · rw [if_neg hle, decide_eq_false hle]
      rfl

/-- A request that finds no bucket to count in creates one and is admitted. -/
theorem serve_creates {request : GuardedRequest} (h : request.key env = some key)
    (hp : keys.pttl key now < 0) : serve env keys now request = ⟨keys, now, some key, true,
      Function.update keys key (some ⟨1, some (now + env.RATE_LIMIT_USER_WINDOW_MS)⟩)⟩ := by
  have hmax := env.max_pos
  have hwindow := env.window_pos
  rw [serve_of_key h]
  unfold incrementAndBound rateLimitUserScript boundedReply
  rw [if_pos hp]
  dsimp only
  rw [if_neg (by omega)]
  dsimp only
  rw [decide_eq_true (by omega)]

/-- A request that finds a bucket increments it; it is admitted within the quota, or because the
guard rejects the reply. -/
theorem serve_counts {request : GuardedRequest} (h : request.key env = some key) {n e : ℕ}
    (hl : keys.live key now = some ⟨n, some e⟩) (hne : now ≤ e)
    (hp : keys.pttl key now = (e : ℤ) - now) :
    serve env keys now request = ⟨keys, now, some key,
      decide (now = e) || decide (n + 1 ≤ env.RATE_LIMIT_USER_MAX),
      Function.update keys key (some ⟨((n + 1 : ℕ) : ℤ), some e⟩)⟩ := by
  rw [serve_of_key h]
  unfold incrementAndBound rateLimitUserScript boundedReply
  rw [if_neg (by omega)]
  unfold LimiterKeys.incr
  rw [hl, hp]
  dsimp only
  by_cases hlast : now = e
  · rw [if_pos (by omega), decide_eq_true hlast]
    rfl
  · have hiff : ((n : ℤ) + 1 ≤ env.RATE_LIMIT_USER_MAX) ↔ n + 1 ≤ env.RATE_LIMIT_USER_MAX := by
      omega
    rw [if_neg (by omega), decide_eq_false hlast, Bool.false_or]
    dsimp only
    rw [decide_eq_decide.2 hiff]
    rfl

/-- A request leaves the buckets of other keys. -/
theorem serve_other {request : GuardedRequest} (h : request.key env ≠ some key) :
    (serve env keys now request).after key = keys key := by
  cases hk : request.key env with
  | none => rw [serve_of_no_key hk]
  | some key' =>
    have hne : key ≠ key' := by
      rintro rfl
      exact h hk
    rcases pttl_cases keys key' now with hp | ⟨n, e, hb, hl, hle, hp⟩
    · rw [serve_creates hk hp]
      exact Function.update_of_ne hne _ _
    · rw [serve_of_key hk]
      unfold incrementAndBound rateLimitUserScript
      rw [if_neg (by omega)]
      unfold LimiterKeys.incr
      rw [hl]
      exact Function.update_of_ne hne _ _

/-- A request that does not create the bucket of `key` leaves it as it is, or counts in it. -/
theorem serve_keeps_expiry (request : GuardedRequest)
    (hno : (serve env keys now request).creates key = false) :
    ((serve env keys now request).after key).map (·.expiresAtMs) =
      (keys key).map (·.expiresAtMs) := by
  by_cases hk : request.key env = some key
  · rcases pttl_cases keys key now with hp | ⟨n, e, hb, hl, hne, hp⟩
    · rw [serve_creates hk hp] at hno
      simp [Served.creates, hp] at hno
    · rw [serve_of_key hk]
      unfold incrementAndBound rateLimitUserScript
      rw [if_neg (by omega)]
      unfold LimiterKeys.incr
      rw [hl, hb]
      show (Function.update keys key _ key).map _ = _
      rw [Function.update_self]
      rfl
  · rw [serve_other hk]

/-! ## Runs from a creation on -/

theorem serveAll_split {reqs : List (ℕ × GuardedRequest)} {earlier rest : List Served}
    (h : serveAll env keys reqs = earlier ++ rest) :
    ∃ keys' reqs', rest = serveAll env keys' reqs' := by
  induction earlier generalizing keys reqs with
  | nil => exact ⟨keys, reqs, h.symm⟩
  | cons s earlier ih =>
    cases reqs with
    | nil => cases h
    | cons r reqs => exact ih (List.cons.inj h).2

theorem serveAll_cons {reqs : List (ℕ × GuardedRequest)} {s : Served} {rest : List Served}
    (h : serveAll env keys reqs = s :: rest) :
    ∃ request reqs', s = serve env keys s.now request ∧ rest = serveAll env s.after reqs' := by
  cases reqs with
  | nil => cases h
  | cons r reqs =>
    obtain ⟨hs, hrest⟩ := List.cons.inj h
    refine ⟨r.2, reqs, ?_, ?_⟩
    · rw [← hs]; rfl
    · rw [← hrest, ← hs]

/-- The bucket of a key counts its requests, and those within the quota are admitted; with no
request at its last millisecond once it is spent, no other is. The induction is on the requests since
a moment at which the bucket had counted `n`. -/
theorem bucket_counts (since : List Served) {reqs : List (ℕ × GuardedRequest)} {later : List Served}
    {n e : ℕ} (hrun : serveAll env keys reqs = since ++ later)
    (hb : keys key = some ⟨(n : ℤ), some e⟩) (hno : ∀ s ∈ since, s.creates key = false) :
    ∃ keys' reqs' m, later = serveAll env keys' reqs' ∧ keys' key = some ⟨((n + m : ℕ) : ℤ), some e⟩ ∧
      min (n + m) env.RATE_LIMIT_USER_MAX ≤
        min n env.RATE_LIMIT_USER_MAX + since.countP (·.admits key) ∧
      ((∀ s ∈ since, ¬ s.MeetsSpent env key) → min n env.RATE_LIMIT_USER_MAX +
        since.countP (·.admits key) ≤ min (n + m) env.RATE_LIMIT_USER_MAX) := by
  induction since generalizing keys reqs n with
  | nil => exact ⟨keys, reqs, 0, hrun.symm, hb, by simp, fun _ => by simp⟩
  | cons s since ih =>
    obtain ⟨request, reqs', hs, hrest⟩ := serveAll_cons hrun
    have hnoS := hno s List.mem_cons_self
    have hnoR : ∀ t ∈ since, t.creates key = false := fun t ht => hno t (List.mem_cons_of_mem _ ht)
    by_cases hkey : request.key env = some key
    · rcases pttl_cases keys key s.now with hp | ⟨n', e', hb', hl, hne, hp⟩
      · rw [hs, serve_creates hkey hp] at hnoS
        simp [Served.creates, hp] at hnoS
      · obtain ⟨rfl, rfl⟩ : n' = n ∧ e' = e := by
          rw [hb] at hb'
          simpa [eq_comm] using hb'
        have hserve := serve_counts hkey hl hne hp
        have hafter : s.after key = some ⟨((n + 1 : ℕ) : ℤ), some e'⟩ := by
          rw [hs, hserve]
          exact Function.update_self _ _ _
        have hadmits : s.admits key = (decide (s.now = e') ||
            decide (n + 1 ≤ env.RATE_LIMIT_USER_MAX)) := by
          have := congrArg Served.admitted (hs.trans hserve)
          have hk := congrArg Served.key (hs.trans hserve)
          unfold Served.admits
          rw [hk, this]
          simp
        obtain ⟨keys', reqs'', m, hlater, hbucket, hlow, hhigh⟩ := ih hrest.symm hafter hnoR
        refine ⟨keys', reqs'', m + 1, hlater, ?_, ?_, fun hspent => ?_⟩
        · rw [hbucket]
          congr 3
          omega
        · rw [List.countP_cons, hadmits]
          by_cases hle : n + 1 ≤ env.RATE_LIMIT_USER_MAX
          · simp only [hle, decide_true, Bool.or_true, if_true]
            omega
          · split_ifs <;> omega
        · have hrestHigh := hhigh fun t ht => hspent t (List.mem_cons_of_mem _ ht)
          have hnot := hspent s List.mem_cons_self
          rw [List.countP_cons, hadmits]
          by_cases hle : n + 1 ≤ env.RATE_LIMIT_USER_MAX
          · simp only [hle, decide_true, Bool.or_true, if_true]
            omega
          · have hlast : s.now ≠ e' := by
              intro hlast
              refine hnot ⟨congrArg Served.key (hs.trans hserve), ⟨n, some e'⟩, ?_, ?_, ?_⟩
              · rw [congrArg Served.before (hs.trans hserve)]
                exact hb
              · rw [hlast]
              · show (env.RATE_LIMIT_USER_MAX : ℤ) ≤ (n : ℤ)
                omega
            simp only [hle, hlast, decide_false, Bool.or_self, Bool.false_eq_true, if_false]
            omega
    · have hkeyS : s.key ≠ some key := by
        rw [hs]
        exact hkey
      have hafter : s.after key = keys key := by
        rw [hs]
        exact serve_other hkey
      have hadmits : s.admits key = false := by
        unfold Served.admits
        rw [decide_eq_false hkeyS]
        rfl
      obtain ⟨keys', reqs'', m, hlater, hbucket, hlow, hhigh⟩ :=
        ih hrest.symm (hafter.trans hb) hnoR
      refine ⟨keys', reqs'', m, hlater, hbucket, ?_, fun hspent => ?_⟩
      · rw [List.countP_cons_of_neg (by simp [hadmits])]
        exact hlow
      · rw [List.countP_cons_of_neg (by simp [hadmits])]
        exact hhigh fun t ht => hspent t (List.mem_cons_of_mem _ ht)

/-- A creation admits its request and leaves a bucket that has counted one. -/
theorem creation_counts {reqs : List (ℕ × GuardedRequest)} {creation : Served} {rest : List Served}
    (hrun : serveAll env keys reqs = creation :: rest) (hc : creation.creates key = true) :
    creation.admits key = true ∧ ∃ reqs' e, rest = serveAll env creation.after reqs' ∧
      creation.after key = some ⟨((1 : ℕ) : ℤ), some e⟩ := by
  obtain ⟨request, reqs', hs, hrest⟩ := serveAll_cons hrun
  unfold Served.creates at hc
  rw [Bool.and_eq_true, decide_eq_true_eq, decide_eq_true_eq] at hc
  obtain ⟨hkey, hp⟩ := hc
  have hkey' : request.key env = some key := by
    rw [hs] at hkey
    exact hkey
  rw [congrArg Served.before hs] at hp
  have hserve := hs.trans (serve_creates hkey' hp)
  refine ⟨?_, reqs', creation.now + env.RATE_LIMIT_USER_WINDOW_MS, hrest, ?_⟩
  · unfold Served.admits
    rw [hkey, congrArg Served.admitted hserve]
    simp
  · rw [congrArg Served.after hserve]
    exact Function.update_self _ _ _

/-- In the last millisecond of a bucket the guard fails open. -/
theorem meetsSpent_admits {reqs : List (ℕ × GuardedRequest)} {s : Served} {rest : List Served}
    {n e : ℕ}
    (hrun : serveAll env keys reqs = s :: rest) (hb : keys key = some ⟨(n : ℤ), some e⟩)
    (hspent : s.MeetsSpent env key) :
    s.admits key = true ∧ s.creates key = false ∧ env.RATE_LIMIT_USER_MAX ≤ n := by
  obtain ⟨request, reqs', hs, -⟩ := serveAll_cons hrun
  obtain ⟨hkey, b, hb', hlast, hmax⟩ := hspent
  have hbefore : s.before = keys := congrArg Served.before hs
  rw [hbefore, hb] at hb'
  obtain rfl := Option.some.inj hb'
  obtain rfl : e = s.now := Option.some.inj hlast
  have hkey' : request.key env = some key := by
    rw [hs] at hkey
    exact hkey
  have hl : keys.live key s.now = some ⟨(n : ℤ), some s.now⟩ := by
    unfold LimiterKeys.live
    rw [hb]
    simp
  have hp : keys.pttl key s.now = (s.now : ℤ) - s.now := by
    unfold LimiterKeys.pttl
    rw [hl]
  have hserve := hs.trans (serve_counts hkey' hl (le_refl _) hp)
  refine ⟨?_, ?_, by simpa using hmax⟩
  · unfold Served.admits
    rw [hkey, congrArg Served.admitted hserve]
    simp
  · unfold Served.creates
    rw [hbefore, hp]
    simp

/-- **The quota of a bucket.** In every run, from any keys, at most the quota is admitted between two
creations of a bucket and no request moves its expiry, if and only if no request meets a bucket of
the run, spent, in its last millisecond. -/
theorem quotaKept_iff (env : PerUserRateLimitEnv) (keys : LimiterKeys)
    (reqs : List (ℕ × GuardedRequest)) :
    QuotaKept env (serveAll env keys reqs) ∧ ExpiryKept (serveAll env keys reqs) ↔
      NoneMeetsSpent env (serveAll env keys reqs) := by
  have hmax := env.max_pos
  constructor
  · rintro ⟨hquota, -⟩ key earlier creation since s later hrun hc hno hspent
    obtain ⟨keys₁, reqs₁, hsplit⟩ := serveAll_split hrun
    obtain ⟨hadmits, reqs₂, e, hrest, hbucket⟩ := creation_counts hsplit.symm hc
    obtain ⟨keys₂, reqs₃, m, hlater, hcount, hlow, -⟩ :=
      bucket_counts since hrest.symm hbucket hno
    obtain ⟨hs, hnoS, hle⟩ := meetsSpent_admits hlater.symm hcount hspent
    have hsince : ∀ t ∈ since ++ [s], t.creates key = false := by
      intro t ht
      rcases List.mem_append.1 ht with ht | ht
      · exact hno t ht
      · rw [List.mem_singleton.1 ht]; exact hnoS
    have hbound := hquota key earlier creation (since ++ [s]) later (by simpa using hrun) hc hsince
    rw [List.countP_cons, if_pos hadmits, List.countP_append, List.countP_singleton, if_pos hs]
      at hbound
    omega
  · intro hnone
    constructor
    · intro key earlier creation since later hrun hc hno
      obtain ⟨keys₁, reqs₁, hsplit⟩ := serveAll_split hrun
      obtain ⟨hadmits, reqs₂, e, hrest, hbucket⟩ := creation_counts hsplit.symm hc
      obtain ⟨keys₂, reqs₃, m, -, -, -, hhigh⟩ := bucket_counts since hrest.symm hbucket hno
      have hle := hhigh fun s hs => by
        obtain ⟨since₁, since₂, rfl⟩ := List.append_of_mem hs
        exact hnone key earlier creation since₁ s (since₂ ++ later) (by simpa using hrun) hc
          fun t ht => hno t (List.mem_append_left _ ht)
      rw [List.countP_cons, if_pos hadmits]
      omega
    · intro s hs key hno
      obtain ⟨earlier, later, hrun⟩ := List.append_of_mem hs
      obtain ⟨keys₁, reqs₁, hsplit⟩ := serveAll_split hrun
      obtain ⟨request, reqs₂, hserve, -⟩ := serveAll_cons hsplit.symm
      rw [hserve] at hno ⊢
      exact serve_keeps_expiry request hno

end

/-- Five requests a second. -/
def fivePerSecond : PerUserRateLimitEnv := ⟨"flash-2026", 5, 1000, by decide, by decide⟩

/-- A request of Alice. -/
def aliceRequest : GuardedRequest := ⟨.object [("userId", .string "alice")], some "127.0.0.1"⟩

/-- Five requests at once and one more a second later, when the bucket expires: all six are admitted
in one bucket. -/
theorem sixth_request_admitted :
    ([0, 0, 0, 0, 0, 1000] : List ℕ).Pairwise (· ≤ ·) ∧
    ¬ QuotaKept fivePerSecond (serveAll fivePerSecond (fun _ => none)
      ([0, 0, 0, 0, 0, 1000].map fun now => (now, aliceRequest))) := by
  refine ⟨by decide, fun hquota => ?_⟩
  have hcount := hquota "rl:u:flash-2026:127.0.0.1:alice" []
    (serve fivePerSecond (fun _ => none) 0 aliceRequest)
    (serveAll fivePerSecond (serve fivePerSecond (fun _ => none) 0 aliceRequest).after
      ([0, 0, 0, 0, 1000].map fun now => (now, aliceRequest))) [] (by rw [List.append_nil]; rfl)
    (by decide +kernel) (by decide +kernel)
  exact absurd hcount (by decide +kernel)

end FlashSale
