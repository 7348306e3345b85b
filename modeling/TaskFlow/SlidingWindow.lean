import Mathlib.Data.Finset.Card
import TaskFlow.Binary64

/-! # The sliding-window rate limiter

`SlidingWindowLimiter` keeps a bucket for each key, in the order in which the keys
were last used, and drops the first when a new key comes to a full table.  A key is
never allowed more than its limit in an aligned window, `allowed_le_limit`, unless
that window sees more keys than the table holds.
-/
namespace TaskFlow
namespace SlidingWindow

/-- The limits are integers that a double holds exactly. -/
structure RateLimitRule where
  limit : ℕ
  windowMs : ℕ
  limit_le : limit ≤ 2 ^ 53
  windowMs_pos : 0 < windowMs
  deriving DecidableEq

structure RateLimitVerdict where
  allowed : Bool
  remaining : ℕ
  retryAfterSeconds : ℕ

structure Bucket where
  windowStart : ℕ
  count : ℕ
  previousCount : ℕ

/-- The insertion order of the source's map. -/
abbrev Buckets (κ : Type) := List (κ × Bucket)

/-- The arguments of one call of `check`. -/
structure Attempt (κ : Type) where
  key : κ
  rule : RateLimitRule
  now : ℕ

def RateLimitRule.windowStart (rule : RateLimitRule) (now : ℕ) : ℕ :=
  now / rule.windowMs * rule.windowMs

/-- `previousCount * (1 - elapsed) + count`, rounded after each operation. -/
def Bucket.estimate (bucket : Bucket) (rule : RateLimitRule) (now windowStart : ℕ) : ℚ :=
  let elapsed := Binary64.round ((now - windowStart) / rule.windowMs)
  Binary64.round
    (Binary64.round (bucket.previousCount * Binary64.round (1 - elapsed)) + bucket.count)

def retryAfter (bucket : Bucket) (rule : RateLimitRule) (now windowStart : ℕ) : ℕ :=
  let remainingWindowMs : ℚ := windowStart + rule.windowMs - now
  let boundary := max 1 (⌈Binary64.round (remainingWindowMs / 1000)⌉ + 1).toNat
  if bucket.count < rule.limit ∧ 0 < bucket.previousCount then
    let neededFraction := Binary64.round
      (1 - Binary64.round ((rule.limit - bucket.count) / bucket.previousCount))
    let targetMs := Binary64.round (windowStart + Binary64.round (neededFraction * rule.windowMs))
    if now < targetMs then
      max 1 ⌈Binary64.round (Binary64.round (targetMs - now) / 1000)⌉.toNat
    else boundary
  else boundary

variable {κ : Type} [DecidableEq κ] {maxKeys : ℕ} {buckets : Buckets κ} {key : κ} {w : ℕ}
  {rule : RateLimitRule} {a : Attempt κ}

def evictIfFull (maxKeys : ℕ) (buckets : Buckets κ) : Buckets κ :=
  if buckets.length < maxKeys then buckets else buckets.tail

/-- One window on, the count becomes the history; further on there is none. -/
def Bucket.rolled (existing : Bucket) (windowStart windowMs : ℕ) : Bucket :=
  if existing.windowStart = windowStart then existing
  else ⟨windowStart, 0, if windowStart = existing.windowStart + windowMs then existing.count else 0⟩

/-- The rest of the table, and the bucket that is put behind it. -/
def bucketFor (maxKeys : ℕ) (buckets : Buckets κ) (key : κ) (windowStart windowMs : ℕ) :
    Buckets κ × Bucket :=
  match buckets.lookup key with
  | some existing => (buckets.filter (·.1 != key), existing.rolled windowStart windowMs)
  | none => (evictIfFull maxKeys buckets, ⟨windowStart, 0, 0⟩)

/-- The rest of the table, and the bucket that an attempt is counted in. -/
def Attempt.found (a : Attempt κ) (maxKeys : ℕ) (buckets : Buckets κ) : Buckets κ × Bucket :=
  bucketFor maxKeys buckets a.key (a.rule.windowStart a.now) a.rule.windowMs

def check (maxKeys : ℕ) (buckets : Buckets κ) (a : Attempt κ) : RateLimitVerdict × Buckets κ :=
  let windowStart := a.rule.windowStart a.now
  let (rest, bucket) := a.found maxKeys buckets
  let estimate := bucket.estimate a.rule a.now windowStart
  if a.rule.limit ≤ estimate then
    (⟨false, 0, retryAfter bucket a.rule a.now windowStart⟩, rest ++ [(a.key, bucket)])
  else
    let remaining := ⌊Binary64.round (Binary64.round (a.rule.limit - estimate) - 1)⌋.toNat
    (⟨true, remaining, 0⟩, rest ++ [(a.key, { bucket with count := bucket.count + 1 })])

/-- The answers to a sequence of attempts, and the table they leave. -/
def run (maxKeys : ℕ) : Buckets κ → List (Attempt κ) →
    List (Attempt κ × RateLimitVerdict) × Buckets κ
  | buckets, [] => ([], buckets)
  | buckets, a :: attempts =>
    let (verdict, buckets) := check maxKeys buckets a
    let (log, buckets) := run maxKeys buckets attempts
    ((a, verdict) :: log, buckets)

abbrev keys (buckets : Buckets κ) : List κ := buckets.map Prod.fst

def allowedOn (key : κ) (log : List (Attempt κ × RateLimitVerdict)) : ℕ :=
  log.countP fun e => e.1.key = key ∧ e.2.allowed

/-! ### One attempt -/

/-- What was counted in the window is never weighted down. -/
theorem Bucket.limit_le_estimate {bucket : Bucket} (now : ℕ) (h : rule.limit ≤ bucket.count) :
    rule.limit ≤ bucket.estimate rule now (rule.windowStart now) := by
  have hexact (n : ℕ) (hn : n ≤ 2 ^ 53) : Binary64.round n = n := by
    simpa using Binary64.round_scaled (m := n) (e := 0) (by simpa using hn) (by norm_num)
  have hinside : (now : ℚ) ≤ rule.windowStart now + rule.windowMs := by
    have := Nat.div_add_mod' now rule.windowMs
    have := Nat.mod_lt now rule.windowMs_pos
    have : now ≤ rule.windowStart now + rule.windowMs := by
      unfold RateLimitRule.windowStart
      omega
    exact_mod_cast this
  have helapsed : Binary64.round ((now - rule.windowStart now) / rule.windowMs) ≤ 1 := by
    have hone : Binary64.round 1 = 1 := by simpa using hexact 1 (by norm_num)
    rw [← hone]
    apply Binary64.round_mono
    rw [div_le_one (by exact_mod_cast rule.windowMs_pos)]
    linarith
  rw [← hexact _ rule.limit_le]
  apply Binary64.round_mono
  have hcount : (rule.limit : ℚ) ≤ bucket.count := by exact_mod_cast h
  refine hcount.trans (le_add_of_nonneg_left (Binary64.round_nonneg (mul_nonneg ?_ ?_)))
  · exact Nat.cast_nonneg _
  · exact Binary64.round_nonneg (sub_nonneg.mpr helapsed)

theorem bucketFor_cases (maxKeys : ℕ) (buckets : Buckets κ) (key : κ) (w windowMs : ℕ) :
    (∃ existing, (key, existing) ∈ buckets ∧ bucketFor maxKeys buckets key w windowMs =
      (buckets.filter (·.1 != key), existing.rolled w windowMs)) ∨
    (key ∉ keys buckets ∧
      bucketFor maxKeys buckets key w windowMs = (evictIfFull maxKeys buckets, ⟨w, 0, 0⟩)) := by
  unfold bucketFor
  cases h : buckets.lookup key with
  | some existing =>
    obtain ⟨before, behind, rfl, -⟩ := List.lookup_eq_some_iff.mp h
    exact .inl ⟨existing, by simp, rfl⟩
  | none =>
    refine .inr ⟨fun hmem => ?_, rfl⟩
    obtain ⟨entry, hentry, rfl⟩ := List.mem_map.mp hmem
    simpa using List.lookup_eq_none_iff.mp h entry hentry

/-- What an attempt keeps of the table: entries of the other keys. -/
theorem mem_bucketFor {entry : κ × Bucket} {windowMs : ℕ}
    (h : entry ∈ (bucketFor maxKeys buckets key w windowMs).1) :
    entry ∈ buckets ∧ entry.1 ≠ key := by
  rcases bucketFor_cases maxKeys buckets key w windowMs with ⟨_, _, heq⟩ | ⟨hnew, heq⟩
  · simpa [heq] using h
  · have hmem : entry ∈ buckets := by
      rw [heq] at h
      unfold evictIfFull at h
      split at h
      · exact h
      · exact List.mem_of_mem_tail h
    exact ⟨hmem, fun heq => hnew (heq ▸ List.mem_map_of_mem hmem)⟩

theorem bucketFor_windowStart (windowMs : ℕ) :
    (bucketFor maxKeys buckets key w windowMs).2.windowStart = w := by
  rcases bucketFor_cases maxKeys buckets key w windowMs with ⟨existing, _, heq⟩ | ⟨_, heq⟩
  · rw [heq]
    show (existing.rolled w windowMs).windowStart = w
    unfold Bucket.rolled
    split <;> simp_all
  · rw [heq]

theorem check_snd (maxKeys : ℕ) (buckets : Buckets κ) (a : Attempt κ) :
    (check maxKeys buckets a).2 = (a.found maxKeys buckets).1 ++ [(a.key,
      { (a.found maxKeys buckets).2 with
        count := (a.found maxKeys buckets).2.count +
          (check maxKeys buckets a).1.allowed.toNat })] := by
  simp only [check]
  split <;> rfl

/-- Nothing is allowed that was not left in the window. -/
theorem count_lt_limit (h : (check maxKeys buckets a).1.allowed) :
    (a.found maxKeys buckets).2.count < a.rule.limit := by
  by_contra hle
  simp only [check, if_pos (Bucket.limit_le_estimate _ (not_lt.mp hle))] at h
  exact Bool.false_ne_true h

/-- **An attempt is counted if it is allowed**, on top of what was counted in its window. -/
theorem check_own {n : ℕ} (hle : n ≤ a.rule.limit)
    (h : n = 0 ∨ a.key ∈ keys buckets ∧ ∀ bucket, (a.key, bucket) ∈ buckets →
      bucket.windowStart = a.rule.windowStart a.now ∧ n ≤ bucket.count) :
    n + (check maxKeys buckets a).1.allowed.toNat ≤ a.rule.limit ∧
      ∀ bucket, (a.key, bucket) ∈ (check maxKeys buckets a).2 →
        bucket.windowStart = a.rule.windowStart a.now ∧
          n + (check maxKeys buckets a).1.allowed.toNat ≤ bucket.count := by
  have hfound : n ≤ (a.found maxKeys buckets).2.count := by
    rcases h with rfl | ⟨hmem, hbucket⟩
    · exact Nat.zero_le _
    rcases bucketFor_cases maxKeys buckets a.key (a.rule.windowStart a.now) a.rule.windowMs with
      ⟨existing, hin, heq⟩ | ⟨hnew, -⟩
    · obtain ⟨hstart, hcounted⟩ := hbucket existing hin
      rw [Attempt.found, heq]
      show n ≤ (existing.rolled _ _).count
      rwa [Bucket.rolled, if_pos hstart]
    · exact absurd hmem hnew
  constructor
  · cases hallowed : (check maxKeys buckets a).1.allowed with
    | false => exact hle
    | true => exact Nat.lt_of_le_of_lt hfound (count_lt_limit hallowed)
  · intro bucket hmem
    rw [check_snd] at hmem
    rcases List.mem_append.mp hmem with hmem | hmem
    · exact absurd rfl (mem_bucketFor hmem).2
    · cases List.mem_singleton.mp hmem
      exact ⟨bucketFor_windowStart _, Nat.add_le_add_right hfound _⟩

/-- An attempt keeps or drops what another key has. -/
theorem check_other {bucket : Bucket} (hkey : key ≠ a.key)
    (h : (key, bucket) ∈ (check maxKeys buckets a).2) : (key, bucket) ∈ buckets := by
  rw [check_snd] at h
  rcases List.mem_append.mp h with h | h
  · exact (mem_bucketFor h).1
  · exact absurd (Prod.mk.inj (List.mem_singleton.mp h)).1 hkey

/-! ### The order of the table -/

theorem keys_check (maxKeys : ℕ) (buckets : Buckets κ) (a : Attempt κ) :
    keys (check maxKeys buckets a).2 =
      (if a.key ∈ keys buckets then (keys buckets).filter (· != a.key)
        else if (keys buckets).length < maxKeys then keys buckets else (keys buckets).tail) ++
      [a.key] := by
  rw [check_snd, keys, List.map_append, List.map_singleton]
  congr 1
  rcases bucketFor_cases maxKeys buckets a.key (a.rule.windowStart a.now) a.rule.windowMs with
    ⟨existing, hmem, heq⟩ | ⟨hnew, heq⟩
  · rw [if_pos (List.mem_map_of_mem hmem), Attempt.found, heq, List.filter_map]
    rfl
  · rw [if_neg hnew, Attempt.found, heq, evictIfFull, List.length_map]
    split
    · rfl
    · exact List.map_tail

/-- The keys used since some point stand last in the table. -/
structure Recent (used : Finset κ) (buckets : Buckets κ) (recent : List κ) : Prop where
  nodup : recent.Nodup
  suffix : recent <:+ keys buckets
  mem_used : ∀ key ∈ recent, key ∈ used

/-- They are still there after an attempt, if the table holds as many. -/
theorem Recent.check {recent : List κ} {used : Finset κ} (h : Recent used buckets recent)
    (ha : a.key ∈ used) (hcard : used.card ≤ max 1 maxKeys) :
    Recent used (check maxKeys buckets a).2 (recent.filter (· != a.key) ++ [a.key]) := by
  refine ⟨by simp [List.nodup_append, h.nodup.filter], ?_, fun key hmem => ?_⟩
  · rw [keys_check]
    apply List.suffix_append_self_iff.mpr
    split
    · exact h.suffix.filter _
    rename_i hnew
    have hnot : a.key ∉ recent := fun hmem => hnew (h.suffix.subset hmem)
    rw [List.filter_eq_self.mpr fun x hx => by simpa using fun heq : x = a.key => hnot (heq ▸ hx)]
    split
    · exact h.suffix
    -- the first key of a full table is none of them
    have hlt : recent.length + 1 ≤ used.card := by
      rw [← List.length_cons (a := a.key), ← List.toFinset_card_of_nodup (h.nodup.cons hnot)]
      refine Finset.card_le_card fun x hx => ?_
      rcases List.mem_cons.mp (List.mem_toFinset.mp hx) with rfl | hx
      · exact ha
      · exact h.mem_used x hx
    obtain ⟨forgotten, heq⟩ := h.suffix
    cases forgotten with
    | nil =>
      have hlength : recent.length = (keys buckets).length := congrArg List.length heq
      obtain rfl : recent = [] := List.length_eq_zero_iff.mp (by omega)
      exact List.nil_suffix
    | cons oldest forgotten => exact heq ▸ List.suffix_append forgotten recent
  · rcases List.mem_append.mp hmem with hmem | hmem
    · exact h.mem_used key (List.mem_of_mem_filter hmem)
    · exact List.mem_singleton.mp hmem ▸ ha

/-! ### The limit over a run -/

theorem allowedOn_cons (e : Attempt κ × RateLimitVerdict)
    (log : List (Attempt κ × RateLimitVerdict)) : allowedOn key (e :: log) =
      allowedOn key log + if e.1.key = key then e.2.allowed.toNat else 0 := by
  rw [allowedOn, List.countP_cons, allowedOn]
  by_cases h : e.1.key = key <;> cases e.2.allowed <;> simp [h]

section
variable {attempts : List (Attempt κ)} {used : Finset κ}
  (hkey : ∀ a ∈ attempts, a.key = key → a.rule = rule ∧ rule.windowStart a.now = w)
  (hused : ∀ a ∈ attempts, a.key ∈ used) (hcard : used.card ≤ max 1 maxKeys)
include hkey hused hcard

/-- What is allowed adds up to what was counted in the key's bucket. -/
theorem allowed_run {recent : List κ} {n : ℕ} (hrecent : Recent used buckets recent)
    (hle : n ≤ rule.limit) (h : n = 0 ∨ key ∈ recent ∧ ∀ bucket, (key, bucket) ∈ buckets →
      bucket.windowStart = w ∧ n ≤ bucket.count) :
    n + allowedOn key (run maxKeys buckets attempts).1 ≤ rule.limit := by
  induction attempts generalizing buckets recent n with
  | nil => exact hle
  | cons a attempts ih =>
    rw [List.forall_mem_cons] at hkey hused
    have hnext (m : ℕ) := ih (n := m) hkey.2 hused.2 (hrecent.check hused.1 hcard)
    rw [run, allowedOn_cons]
    by_cases hin : a.key = key
    · obtain ⟨rfl, rfl⟩ := hkey.1 hin
      subst hin
      obtain ⟨hlimit, hbucket⟩ :=
        check_own hle (h.imp_right fun h => ⟨hrecent.suffix.subset h.1, h.2⟩)
      have := hnext _ hlimit (.inr ⟨by simp, hbucket⟩)
      rw [if_pos rfl]
      dsimp only
      omega
    · have := hnext _ hle (h.imp_right fun h => ⟨by simp [h.1, Ne.symm hin],
        fun bucket hmem => h.2 bucket (check_other (Ne.symm hin) hmem)⟩)
      rwa [if_neg hin]

/-- **No key is allowed more than its limit in an aligned window**, from any table and whatever
the other keys do, unless more keys than the table holds are used meanwhile. -/
theorem allowed_le_limit : allowedOn key (run maxKeys buckets attempts).1 ≤ rule.limit := by
  have h : 0 + allowedOn key (run maxKeys buckets attempts).1 ≤ rule.limit :=
    allowed_run hkey hused hcard ⟨List.nodup_nil, List.nil_suffix, by simp⟩ (Nat.zero_le _)
      (.inl rfl)
  rwa [Nat.zero_add] at h

end

def sampleRule : RateLimitRule := ⟨1, 1000, by norm_num, by norm_num⟩

theorem allowed_le_limit_sample :
    allowedOn "a" (run 2 [] [⟨"a", sampleRule, 10⟩, ⟨"b", sampleRule, 20⟩,
      ⟨"a", sampleRule, 900⟩]).1 ≤ 1 :=
  @allowed_le_limit _ _ 2 [] "a" 0 sampleRule _ {"a", "b"} (by decide) (by decide) (by decide)

end SlidingWindow
end TaskFlow
