import Mathlib.Data.List.AList
import Mathlib.Data.List.Dedup
import Mathlib.Data.Rat.Floor
import Licensing.Library.Machine
import Licensing.Library.TokenBucket

-- The rate limiter of the Go port: a map from keys to buckets and a list of the buckets by their last
-- use. Numbers of tokens are exact, and a time counts the nanoseconds since the zero `Time`.

namespace Licensing

namespace Go

open Machine TokenBucket

namespace RateLimit

def second : Int := 1_000_000_000

def seconds (d : Int) : ℚ := d / second

-- Out of range, the conversion is up to the platform. This is what amd64 answers.
def int64OfFloat (x : ℚ) : Int :=
  let truncated := if 0 ≤ x then ⌊x⌋ else ⌈x⌉
  if -2 ^ 63 ≤ truncated ∧ truncated < 2 ^ 63 then truncated else -2 ^ 63

-- `Time.Sub` saturates.
def sub (t u : Int) : Int :=
  max (-2 ^ 63) (min (2 ^ 63 - 1) (t - u))

structure RateLimitConfig where
  Capacity   : ℚ
  RefillRate : ℚ
  MaxKeys    : Int
  IdleTTL    : Int

namespace RateLimitConfig

variable (c : RateLimitConfig)

def capacity : ℚ :=
  if 0 < c.Capacity then c.Capacity else 30

def refill : ℚ :=
  if 0 < c.RefillRate then c.RefillRate else 10

def maxKeys : Int :=
  if 0 < c.MaxKeys then c.MaxKeys else 10_000

def idleTTL : Int :=
  if 0 < c.IdleTTL then c.IdleTTL
  else
    let ttl := (int64OfFloat (10 * c.capacity / c.refill) * second).bmod (2 ^ 64)
    if ttl < 300 * second then 300 * second else ttl

theorem capacity_pos : 0 < c.capacity := by
  unfold capacity
  split
  case isTrue h => exact h
  case isFalse  => decide +kernel

theorem refill_pos : 0 < c.refill := by
  unfold refill
  split
  case isTrue h => exact h
  case isFalse  => decide +kernel

theorem maxKeys_pos : 0 < c.maxKeys := by
  unfold maxKeys
  split <;> omega

end RateLimitConfig

structure Bucket where
  lastTick : Int
  key      : String
  tokens   : ℚ

-- The list has the least recently used bucket in front. An address stands for a bucket and for its
-- element of the list.
structure RateLimiter where
  cfg       : RateLimitConfig
  lastSwep  : Int := 0
  heap      : Nat → Bucket := fun _ => ⟨0, "", 0⟩
  allocated : Nat := 0
  buckets   : AList (fun _ : String => Nat) := ∅
  lru       : List Nat := []

def newRateLimiter (cfg : RateLimitConfig) : Option RateLimiter :=
  if cfg.Capacity < 0 then none
  else if cfg.RefillRate < 0 then none
  else some { cfg }

def maxRetryAfterSec : Int := 3600

namespace RateLimiter

variable (rl : RateLimiter) (now : Int)

-- Removes the bucket from the list and from the map.
def forget (a : Nat) : RateLimiter :=
  { rl with lru := rl.lru.erase a, buckets := rl.buckets.erase (rl.heap a).key }

def evictLRULocked : RateLimiter :=
  match rl.lru with
  | []        => rl
  | back :: _ => rl.forget back

def sweepFrom (cutoff : Int) : List Nat → RateLimiter → RateLimiter
  | [],           rl => rl
  | back :: rest, rl =>
    if (rl.heap back).lastTick < cutoff then sweepFrom cutoff rest (rl.forget back) else rl

def maybeSweepLocked : RateLimiter :=
  let ttl := rl.cfg.idleTTL
  if rl.lastSwep ≠ 0 ∧ sub now rl.lastSwep < ttl then rl
  else sweepFrom (now - ttl) rl.lru { rl with lastSwep := now }

def push (b : Bucket) : RateLimiter :=
  { rl with
    heap      := Function.update rl.heap rl.allocated b
    allocated := rl.allocated + 1
    lru       := rl.lru ++ [rl.allocated]
    buckets   := rl.buckets.insert b.key rl.allocated }

def makeRoom : RateLimiter :=
  if rl.cfg.maxKeys ≤ rl.buckets.keys.length then rl.evictLRULocked else rl

def refreshed (b : Bucket) : Bucket :=
  let elapsed := seconds (sub now b.lastTick)
  if 0 < elapsed then
    { b with tokens := min rl.cfg.capacity (b.tokens + elapsed * rl.cfg.refill), lastTick := now }
  else b

def touch (a : Nat) : RateLimiter :=
  { rl with
    heap := Function.update rl.heap a (rl.refreshed now (rl.heap a))
    lru  := if a ∈ rl.lru then rl.lru.erase a ++ [a] else rl.lru }

def retryAfter (tokens : ℚ) : Int :=
  let deficit := 1 - tokens
  let retryAfter := int64OfFloat ⌈deficit / rl.cfg.refill⌉
  let retryAfter := if retryAfter < 1 then 1 else retryAfter
  if maxRetryAfterSec < retryAfter then maxRetryAfterSec else retryAfter

def spend (a : Nat) : (Bool × Int) × RateLimiter :=
  let b := rl.heap a
  if 1 ≤ b.tokens then
    ((true, 0), { rl with heap := Function.update rl.heap a { b with tokens := b.tokens - 1 } })
  else ((false, rl.retryAfter b.tokens), rl)

-- The bucket of the key. A new one is full, and has the least recently used one evicted if there
-- are too many.
def bucketOf (key : String) : Nat × RateLimiter :=
  match rl.buckets.lookup key with
  | none   => let rl := rl.makeRoom; (rl.allocated, rl.push ⟨now, key, rl.cfg.capacity⟩)
  | some a => (a, rl.touch now a)

def take (key : String) : (Bool × Int) × RateLimiter :=
  let rl := rl.maybeSweepLocked now
  let (a, rl) := rl.bucketOf now key
  rl.spend a

end RateLimiter

-- A request with its key and the time of the clock.
structure Take where
  key : String
  now : Int

def step (rl : RateLimiter) (t : Take) : RateLimiter :=
  (rl.take t.now t.key).2

-- The times, in seconds, of the allowed requests of a key.
def allowed (key : String) : RateLimiter → List Take → List ℚ
  | _,  []      => []
  | rl, t :: ts =>
    if t.key = key ∧ (rl.take t.now t.key).1.1 then seconds t.now :: allowed key (step rl t) ts
    else allowed key (step rl t) ts

namespace RateLimiter

-- The map and the list hold the same buckets, there are not too many of them, and none is in debt.
structure Held (rl : RateLimiter) : Prop where
  mapped  : ∀ a ∈ rl.lru, rl.buckets.lookup (rl.heap a).key = some a
  listed  : ∀ {key a}, rl.buckets.lookup key = some a → a ∈ rl.lru ∧ (rl.heap a).key = key
  nodup   : rl.lru.Nodup
  old     : ∀ a ∈ rl.lru, a < rl.allocated
  few     : rl.lru.length ≤ rl.cfg.maxKeys
  solvent : ∀ a ∈ rl.lru, 0 ≤ (rl.heap a).tokens

variable {rl : RateLimiter} {now : Int} {key key' : String} {a : Nat}

def lruKeys (rl : RateLimiter) : List String :=
  rl.lru.map fun a => (rl.heap a).key

theorem Held.nodup_lruKeys (h : rl.Held) : rl.lruKeys.Nodup := by
  apply h.nodup.map_on
  intro a ha b hb e
  have hab := h.mapped a ha
  rw [e, h.mapped b hb] at hab
  exact (Option.some.inj hab).symm

theorem Held.mem_lruKeys (h : rl.Held) : key ∈ rl.lruKeys ↔ key ∈ rl.buckets.keys := by
  rw [← AList.mem_keys, ← AList.lookup_isSome, Option.isSome_iff_exists, lruKeys, List.mem_map]
  apply Iff.intro
  case mp =>
    intro ⟨a, ha, e⟩
    exact ⟨a, e ▸ h.mapped a ha⟩
  case mpr =>
    intro ⟨a, ha⟩
    exact ⟨a, h.listed ha⟩

theorem Held.keys_perm (h : rl.Held) : rl.lruKeys.Perm rl.buckets.keys :=
  (List.perm_ext_iff_of_nodup h.nodup_lruKeys rl.buckets.keys_nodup).mpr fun _ => h.mem_lruKeys

theorem Held.length_keys (h : rl.Held) : rl.buckets.keys.length = rl.lru.length := by
  rw [← h.keys_perm.length_eq, lruKeys, List.length_map]

theorem Held.forget (h : rl.Held) (ha : a ∈ rl.lru) : (rl.forget a).Held := by
  have other : ∀ b ∈ rl.lru.erase a, (rl.heap b).key ≠ (rl.heap a).key := by
    intro b hb e
    have hb := h.nodup.mem_erase_iff.mp hb
    have := h.mapped b hb.right
    rw [e, h.mapped a ha] at this
    exact hb.left (Option.some.inj this).symm
  constructor
  case mapped =>
    intro b hb
    rw [RateLimiter.forget, AList.lookup_erase_ne (other b hb)]
    exact h.mapped b (List.mem_of_mem_erase hb)
  case listed =>
    intro key b hb
    have hk : key ≠ (rl.heap a).key := by
      rintro rfl
      simp [RateLimiter.forget] at hb
    rw [RateLimiter.forget, AList.lookup_erase_ne hk] at hb
    have ⟨hm, e⟩ := h.listed hb
    refine ⟨h.nodup.mem_erase_iff.mpr ⟨?_, hm⟩, e⟩
    rintro rfl
    exact hk e.symm
  case nodup => exact h.nodup.erase a
  case old => exact fun b hb => h.old b (List.mem_of_mem_erase hb)
  case few =>
    have few := h.few
    have shorter := (List.erase_sublist (a := a) (l := rl.lru)).length_le
    simp only [RateLimiter.forget]
    omega
  case solvent => exact fun b hb => h.solvent b (List.mem_of_mem_erase hb)

section Sweep

-- Buckets may be gone, if so with a reason. The others are what they were.
structure Drops (gone : Nat → Prop) (rl rl' : RateLimiter) : Prop where
  cfg    : rl'.cfg = rl.cfg
  heap   : rl'.heap = rl.heap
  lookup : ∀ key, rl'.buckets.lookup key = rl.buckets.lookup key ∨
    rl'.buckets.lookup key = none ∧ ∃ a, rl.buckets.lookup key = some a ∧ gone a

variable {gone : Nat → Prop} {rl' : RateLimiter}

theorem Drops.refl : Drops gone rl rl :=
  ⟨rfl, rfl, fun _ => .inl rfl⟩

theorem Drops.among (d : Drops gone rl rl') (h : key ∈ rl'.buckets.keys) : key ∈ rl.buckets.keys := by
  rw [← AList.mem_keys, ← AList.lookup_isSome] at h ⊢
  rcases d.lookup key with hd | ⟨hd, _⟩
  · exact hd ▸ h
  · simp [hd] at h

theorem Drops.of_forget (h : rl.Held) (ha : a ∈ rl.lru) (hg : gone a) (d : Drops gone (rl.forget a) rl') :
    Drops gone rl rl' := by
  refine ⟨d.cfg, d.heap, fun key => ?_⟩
  by_cases hk : key = (rl.heap a).key
  case pos =>
    subst hk
    have erased : (rl.forget a).buckets.lookup (rl.heap a).key = none := AList.lookup_erase _ _
    right
    refine ⟨?_, a, h.mapped a ha, hg⟩
    rcases d.lookup (rl.heap a).key with hd | ⟨hd, _⟩
    · rw [hd, erased]
    · exact hd
  case neg =>
    have kept : (rl.forget a).buckets.lookup key = rl.buckets.lookup key := AList.lookup_erase_ne hk
    exact kept ▸ d.lookup key

def stale (rl : RateLimiter) (cutoff : Int) (a : Nat) : Prop :=
  (rl.heap a).lastTick < cutoff

theorem sweepFrom_drops (cutoff : Int) : (lru : List Nat) → (rl : RateLimiter) → rl.lru = lru → rl.Held →
    (sweepFrom cutoff lru rl).Held ∧ Drops (rl.stale cutoff) rl (sweepFrom cutoff lru rl)
  | [],           _,  _, h => ⟨h, .refl⟩
  | back :: rest, rl, e, h => by
    rw [sweepFrom]
    split
    case isFalse => exact ⟨h, .refl⟩
    case isTrue hs =>
      have ha : back ∈ rl.lru := by simp [e]
      have ih := sweepFrom_drops cutoff rest (rl.forget back) (by simp [forget, e]) (h.forget ha)
      exact ⟨ih.left, .of_forget h ha hs ih.right⟩

-- A sweep is due, and the bucket has not been used for longer than the limit.
structure Swept (rl : RateLimiter) (now : Int) (a : Nat) : Prop where
  due  : rl.lastSwep = 0 ∨ rl.cfg.idleTTL ≤ sub now rl.lastSwep
  idle : rl.stale (now - rl.cfg.idleTTL) a

theorem maybeSweepLocked_drops (h : rl.Held) (now : Int) :
    (rl.maybeSweepLocked now).Held ∧ Drops (rl.Swept now) rl (rl.maybeSweepLocked now) := by
  rw [maybeSweepLocked]
  split
  case isTrue => exact ⟨h, .refl⟩
  case isFalse hd =>
    have ⟨held, d⟩ := sweepFrom_drops (now - rl.cfg.idleTTL) rl.lru { rl with lastSwep := now } rfl
      ⟨h.mapped, h.listed, h.nodup, h.old, h.few, h.solvent⟩
    have due : rl.lastSwep = 0 ∨ rl.cfg.idleTTL ≤ sub now rl.lastSwep := by
      simpa [or_iff_not_imp_left] using hd
    refine ⟨held, d.cfg, d.heap, fun key => ?_⟩
    apply (d.lookup key).imp_right
    intro ⟨hn, a, ha, idle⟩
    exact ⟨hn, a, ha, due, idle⟩

-- An eviction makes room for one more bucket.
theorem makeRoom_drops (h : rl.Held) :
    rl.makeRoom.Held ∧ Drops (fun _ => rl.cfg.maxKeys ≤ rl.buckets.keys.length) rl rl.makeRoom ∧
      rl.makeRoom.lru.length < rl.cfg.maxKeys := by
  have pos := rl.cfg.maxKeys_pos
  have few := h.few
  rw [makeRoom]
  split
  case isFalse hm =>
    rw [h.length_keys] at hm
    exact ⟨h, .refl, not_le.mp hm⟩
  case isTrue hm =>
    rw [evictLRULocked]
    split
    case h_1 e =>
      rw [h.length_keys, e] at hm
      exact absurd pos (not_lt.mpr hm)
    case h_2 back rest e =>
      have ha : back ∈ rl.lru := by simp [e]
      refine ⟨h.forget ha, .of_forget h ha hm .refl, ?_⟩
      simp only [e, List.length_cons, Nat.cast_add, Nat.cast_one] at few
      simp only [forget, e, List.erase_cons_head]
      omega

end Sweep

theorem lookup_push_self (b : Bucket) : (rl.push b).buckets.lookup b.key = some rl.allocated :=
  AList.lookup_insert _

theorem lookup_push_ne {b : Bucket} (h : key ≠ b.key) : (rl.push b).buckets.lookup key = rl.buckets.lookup key :=
  AList.lookup_insert_ne h

theorem heap_push_self (b : Bucket) : (rl.push b).heap rl.allocated = b :=
  Function.update_self ..

theorem heap_push_of_mem (h : rl.Held) (ha : a ∈ rl.lru) (b : Bucket) : (rl.push b).heap a = rl.heap a :=
  Function.update_of_ne (h.old a ha).ne _ _

theorem Held.push (h : rl.Held) {b : Bucket} (fresh : rl.buckets.lookup b.key = none)
    (few : rl.lru.length < rl.cfg.maxKeys) (solvent : 0 ≤ b.tokens) : (rl.push b).Held := by
  constructor
  case mapped =>
    intro a ha
    rcases List.mem_append.mp ha with ha | ha
    · have hk : (rl.heap a).key ≠ b.key := by
        intro hk
        rw [← hk, h.mapped a ha] at fresh
        contradiction
      rw [heap_push_of_mem h ha, lookup_push_ne hk]
      exact h.mapped a ha
    · obtain rfl := List.mem_singleton.mp ha
      rw [heap_push_self, lookup_push_self]
  case listed =>
    intro key a ha
    by_cases hk : key = b.key
    case pos =>
      rw [hk, lookup_push_self, Option.some.injEq] at ha
      rw [← ha, heap_push_self]
      exact ⟨List.mem_append_right _ (List.mem_singleton_self _), hk.symm⟩
    case neg =>
      rw [lookup_push_ne hk] at ha
      have ⟨hm, e⟩ := h.listed ha
      rw [heap_push_of_mem h hm]
      exact ⟨List.mem_append_left _ hm, e⟩
  case nodup =>
    apply List.nodup_append.mpr
    refine ⟨h.nodup, List.nodup_singleton _, fun a ha b hb => ?_⟩
    exact List.mem_singleton.mp hb ▸ (h.old a ha).ne
  case old =>
    intro a ha
    rcases List.mem_append.mp ha with ha | ha
    · exact (h.old a ha).trans (Nat.lt_succ_self _)
    · exact List.mem_singleton.mp ha ▸ Nat.lt_succ_self _
  case few =>
    simp only [RateLimiter.push, List.length_append, List.length_singleton, Nat.cast_add, Nat.cast_one]
    omega
  case solvent =>
    intro a ha
    rcases List.mem_append.mp ha with ha | ha
    · simpa [heap_push_of_mem h ha] using h.solvent a ha
    · obtain rfl := List.mem_singleton.mp ha
      simpa [heap_push_self] using solvent

-- The contents of a bucket do not matter, as long as its key stays.
theorem Held.update (h : rl.Held) {b : Bucket} (hb : b.key = (rl.heap a).key) (solvent : 0 ≤ b.tokens) :
    Held { rl with heap := Function.update rl.heap a b } := by
  have keys : ∀ c, (Function.update rl.heap a b c).key = (rl.heap c).key := by
    intro c
    by_cases hc : c = a
    case pos => simp [hc, hb]
    case neg => simp [hc]
  constructor
  case mapped => exact fun c hc => keys c ▸ h.mapped c hc
  case listed => exact fun hc => ⟨(h.listed hc).left, keys _ ▸ (h.listed hc).right⟩
  case nodup  => exact h.nodup
  case old    => exact h.old
  case few    => exact h.few
  case solvent =>
    intro c hc
    by_cases hca : c = a
    case pos => simpa [hca] using solvent
    case neg => simpa [hca] using h.solvent c hc

theorem Held.reorder (h : rl.Held) {lru : List Nat} (perm : lru.Perm rl.lru) : Held { rl with lru } := by
  constructor
  case mapped => exact fun a ha => h.mapped a (perm.mem_iff.mp ha)
  case listed => exact fun ha => ⟨perm.mem_iff.mpr (h.listed ha).left, (h.listed ha).right⟩
  case nodup  => exact perm.nodup_iff.mpr h.nodup
  case old    => exact fun a ha => h.old a (perm.mem_iff.mp ha)
  case few    => exact perm.length_eq ▸ h.few
  case solvent => exact fun a ha => h.solvent a (perm.mem_iff.mp ha)

theorem refreshed_key (b : Bucket) : (rl.refreshed now b).key = b.key := by
  simp only [refreshed]
  split <;> rfl

theorem refreshed_solvent {b : Bucket} (h : 0 ≤ b.tokens) : 0 ≤ (rl.refreshed now b).tokens := by
  simp only [refreshed]
  split
  case isFalse => exact h
  case isTrue elapsed =>
    have gained := mul_nonneg elapsed.le rl.cfg.refill_pos.le
    exact le_min rl.cfg.capacity_pos.le (add_nonneg h gained)

theorem Held.touch (h : rl.Held) (ha : a ∈ rl.lru) : (rl.touch now a).Held := by
  rw [RateLimiter.touch, if_pos ha]
  apply (h.update (refreshed_key _) (refreshed_solvent (h.solvent a ha))).reorder
  calc
    (rl.lru.erase a ++ [a]).Perm (a :: rl.lru.erase a) := List.perm_append_singleton _ _
    List.Perm _ rl.lru := (List.perm_cons_erase ha).symm

theorem Held.spend (h : rl.Held) : (rl.spend a).2.Held := by
  simp only [RateLimiter.spend]
  split
  case isTrue enough => exact h.update rfl (sub_nonneg.mpr enough)
  case isFalse => exact h

theorem bucketOf_held (h : rl.Held) : (rl.bucketOf now key).2.Held := by
  rw [bucketOf]
  split
  case h_2 a found => exact h.touch (h.listed found).left
  case h_1 absent =>
    have ⟨held, d, few⟩ := makeRoom_drops h
    apply held.push
    case few     => exact d.cfg ▸ few
    case solvent => exact (RateLimitConfig.capacity_pos _).le
    case fresh =>
      rcases d.lookup key with hd | ⟨hd, _⟩
      · exact hd.trans absent
      · exact hd

theorem take_held (h : rl.Held) : (rl.take now key).2.Held :=
  (bucketOf_held (maybeSweepLocked_drops h _).left).spend

theorem bucketOf_cfg (h : rl.Held) : (rl.bucketOf now key).2.cfg = rl.cfg := by
  rw [bucketOf]
  split
  case h_1 => exact (makeRoom_drops h).right.left.cfg
  case h_2 => rfl

theorem spend_cfg : (rl.spend a).2.cfg = rl.cfg := by
  simp only [spend]
  split <;> rfl

theorem spend_buckets : (rl.spend a).2.buckets = rl.buckets := by
  simp only [spend]
  split <;> rfl

theorem take_cfg (h : rl.Held) : (rl.take now key).2.cfg = rl.cfg := by
  have ⟨held, d⟩ := maybeSweepLocked_drops h now
  rw [take, spend_cfg, bucketOf_cfg held, d.cfg]

end RateLimiter

theorem newRateLimiter_held {cfg : RateLimitConfig} {rl : RateLimiter} (h : newRateLimiter cfg = some rl) :
    rl.Held := by
  simp only [newRateLimiter, Option.ite_none_left_eq_some, Option.some.injEq] at h
  obtain ⟨_, _, rfl⟩ := h
  constructor
  case few => exact cfg.maxKeys_pos.le
  all_goals simp

theorem seconds_le {t u : Int} : seconds t ≤ seconds u ↔ t ≤ u := by
  have pos : (0 : ℚ) < second := by decide +kernel
  rw [seconds, seconds, div_le_div_iff_of_pos_right pos, Int.cast_le]

theorem seconds_sub (t u : Int) : seconds (t - u) = seconds t - seconds u := by
  simp only [seconds, Int.cast_sub, sub_div]

def Bucket.account (b : Bucket) : Account ℚ := ⟨b.tokens, seconds b.lastTick⟩

namespace RateLimiter

variable {rl rl' : RateLimiter} {now : Int} {key : String} {granted : List ℚ}

-- What the buckets tell about the requests that a key was granted. A key has no bucket if it would
-- be full by now.
inductive Paced (rl : RateLimiter) (now : Int) (key : String) (granted : List ℚ) : Prop
  | held {a : Nat} (found : rl.buckets.lookup key = some a)
      (metered : Metered rl.cfg.capacity rl.cfg.refill granted (rl.heap a).account)
      (past : (rl.heap a).lastTick ≤ now)
  | gone {account : Account ℚ} (absent : rl.buckets.lookup key = none)
      (metered : Metered rl.cfg.capacity rl.cfg.refill granted account) (past : account.time ≤ seconds now)
      (refilled : rl.cfg.capacity ≤ account.tokens + rl.cfg.refill * (seconds now - account.time))

-- The bucket would be full by now.
def Refilled (rl : RateLimiter) (now : Int) (a : Nat) : Prop :=
  rl.cfg.capacity ≤ (rl.heap a).tokens + rl.cfg.refill * (seconds now - seconds (rl.heap a).lastTick)

theorem Paced.later {later : Int} (h : Paced rl now key granted) (hl : now ≤ later) : Paced rl later key granted := by
  cases h
  case held found metered past => exact .held found metered (past.trans hl)
  case gone absent metered past refilled =>
    have hl := seconds_le.mpr hl
    refine .gone absent metered (past.trans hl) (refilled.trans ?_)
    apply add_le_add_right
    exact mul_le_mul_of_nonneg_left (sub_le_sub_right hl _) rl.cfg.refill_pos.le

theorem Paced.drops {gone : Nat → Prop} (h : Paced rl now key granted) (d : Drops gone rl rl')
    (full : ∀ a, rl.buckets.lookup key = some a → gone a → rl.Refilled now a) : Paced rl' now key granted := by
  rcases d.lookup key with same | ⟨absent', a, found, hg⟩
  · cases h
    case held found metered past =>
      refine .held (same.trans found) ?_ ?_
      · rwa [d.cfg, d.heap]
      · rwa [d.heap]
    case gone absent metered past refilled =>
      rw [← d.cfg] at metered refilled
      exact .gone (same.trans absent) metered past refilled
  · cases h
    case held b found' metered past =>
      obtain rfl := Option.some.inj (found'.symm.trans found)
      have full := full b found hg
      rw [Refilled, ← d.cfg] at full
      rw [← d.cfg] at metered
      exact .gone absent' metered (seconds_le.mpr past) full
    case gone absent _ _ _ =>
      rw [absent] at found
      contradiction

-- Nothing changes for a key if its bucket stays.
theorem Paced.frame (h : Paced rl now key granted) (cfg : rl'.cfg = rl.cfg)
    (lookup : rl'.buckets.lookup key = rl.buckets.lookup key)
    (heap : ∀ a, rl.buckets.lookup key = some a → rl'.heap a = rl.heap a) : Paced rl' now key granted := by
  cases h
  case held a found metered past =>
    refine .held (lookup.trans found) ?_ ?_
    · rwa [cfg, heap a found]
    · rwa [heap a found]
  case gone absent metered past refilled =>
    rw [← cfg] at metered refilled
    exact .gone (lookup.trans absent) metered past refilled

theorem Paced.past {a : Nat} (h : Paced rl now key granted) (found : rl.buckets.lookup key = some a) :
    (rl.heap a).lastTick ≤ now := by
  cases h
  case held found' metered past =>
    obtain rfl := Option.some.inj (found'.symm.trans found)
    exact past
  case gone absent _ _ _ =>
    rw [absent] at found
    contradiction

theorem sub_le_sub {t u : Int} (h : u ≤ t) : sub t u ≤ t - u := by
  simp only [sub]
  omega

theorem seconds_sub_pos {t u : Int} : 0 < seconds (sub t u) ↔ u < t := by
  have zero : seconds 0 = 0 := by simp [seconds]
  rw [← zero, ← not_le, seconds_le, not_le, sub]
  omega

theorem refreshed_lastTick {b : Bucket} (past : b.lastTick ≤ now) : (rl.refreshed now b).lastTick = now := by
  simp only [refreshed]
  split
  case isTrue     => rfl
  case isFalse he => exact past.antisymm (not_lt.mp (mt seconds_sub_pos.mpr he))

theorem refreshed_metered {b : Bucket} (past : b.lastTick ≤ now)
    (h : Metered rl.cfg.capacity rl.cfg.refill granted b.account) :
    Metered rl.cfg.capacity rl.cfg.refill granted (rl.refreshed now b).account := by
  simp only [refreshed]
  split
  case isFalse => exact h
  case isTrue =>
    refine h.wait (seconds_le.mpr past) (min_le_min_left _ (add_le_add_right ?_ _))
    have elapsed := seconds_le.mpr (sub_le_sub past)
    rw [seconds_sub] at elapsed
    rw [mul_comm]
    exact mul_le_mul_of_nonneg_left elapsed rl.cfg.refill_pos.le

-- The bucket that a request gets has the time of the request.
structure Acquired (rl : RateLimiter) (now : Int) (key : String) (a : Nat) (rl' : RateLimiter) : Prop where
  cfg    : rl'.cfg = rl.cfg
  held   : rl'.Held
  found  : rl'.buckets.lookup key = some a
  tick   : (rl'.heap a).lastTick = now
  self   : ∀ granted, Paced rl now key granted →
    Metered rl'.cfg.capacity rl'.cfg.refill granted (rl'.heap a).account
  others : ∀ key' granted, key' ≠ key → Paced rl now key' granted → Paced rl' now key' granted
  among  : ∀ key', key' ≠ key → key' ∈ rl'.buckets.keys → key' ∈ rl.buckets.keys

theorem Acquired.touch {a : Nat} (h : rl.Held) (found : rl.buckets.lookup key = some a)
    (past : (rl.heap a).lastTick ≤ now) : Acquired rl now key a (rl.touch now a) := by
  have self : (rl.touch now a).heap a = rl.refreshed now (rl.heap a) := Function.update_self ..
  constructor
  case cfg   => rfl
  case held  => exact h.touch (h.listed found).left
  case found => exact found
  case tick  =>
    rw [self]
    exact refreshed_lastTick past
  case self =>
    intro granted paced
    rw [self]
    cases paced
    case held found' metered _ =>
      obtain rfl := Option.some.inj (found'.symm.trans found)
      exact refreshed_metered past metered
    case gone absent _ _ _ =>
      rw [absent] at found
      contradiction
  case others =>
    intro key' granted hk paced
    have same : (rl.touch now a).buckets.lookup key' = rl.buckets.lookup key' := rfl
    refine paced.frame rfl same fun b hb => Function.update_of_ne ?_ _ _
    rintro rfl
    exact hk ((h.listed hb).right.symm.trans (h.listed found).right)
  case among => exact fun _ _ h => h

theorem Acquired.push (h : rl.Held) (absent : rl.buckets.lookup key = none)
    (few : rl.lru.length < rl.cfg.maxKeys) :
    Acquired rl now key rl.allocated (rl.push ⟨now, key, rl.cfg.capacity⟩) := by
  have self := rl.heap_push_self ⟨now, key, rl.cfg.capacity⟩
  constructor
  case cfg   => rfl
  case held  => exact h.push absent few rl.cfg.capacity_pos.le
  case found => exact lookup_push_self _
  case tick  => rw [self]
  case self =>
    intro granted paced
    rw [self]
    cases paced
    case held found _ _ =>
      rw [absent] at found
      contradiction
    case gone metered past refilled => exact metered.reborn past refilled
  case others =>
    intro key' granted hk paced
    exact paced.frame rfl (lookup_push_ne hk) fun a ha => heap_push_of_mem h (h.listed ha).left _
  case among =>
    intro key' hk hm
    exact ((AList.mem_insert _).mp hm).resolve_left hk

theorem Acquired.of_drops {gone : Nat → Prop} {rl₀ : RateLimiter} {a : Nat} (d : Drops gone rl₀ rl)
    (full : ∀ key a, rl₀.buckets.lookup key = some a → gone a → rl₀.Refilled now a)
    (h : Acquired rl now key a rl') : Acquired rl₀ now key a rl' where
  cfg    := h.cfg.trans d.cfg
  held   := h.held
  found  := h.found
  tick   := h.tick
  self   := fun granted paced => h.self granted (paced.drops d (full key))
  others := fun key' granted hk paced => h.others key' granted hk (paced.drops d (full key'))
  among  := fun key' hk hm => d.among (h.among key' hk hm)

-- There is room for the bucket of the key.
def Roomy (rl : RateLimiter) (key : String) : Prop :=
  rl.buckets.lookup key = none → rl.buckets.keys.length < rl.cfg.maxKeys

theorem bucketOf_acquired (h : rl.Held)
    (past : ∀ a, rl.buckets.lookup key = some a → (rl.heap a).lastTick ≤ now) (roomy : rl.Roomy key) :
    Acquired rl now key (rl.bucketOf now key).1 (rl.bucketOf now key).2 := by
  rw [bucketOf]
  split
  case h_2 a found => exact .touch h found (past a found)
  case h_1 absent =>
    have ⟨held, d, few⟩ := makeRoom_drops h
    refine .of_drops d ?_ (.push held ?_ ?_)
    case refine_1 => exact fun key a _ full => absurd full (not_le.mpr (roomy absent))
    case refine_3 => exact d.cfg ▸ few
    case refine_2 =>
      rcases d.lookup key with hd | ⟨hd, _⟩
      · exact hd.trans absent
      · exact hd

theorem spend_paced {a : Nat} (h : Acquired rl now key a rl') {key' : String} (paced : Paced rl now key' granted) :
    Paced (rl'.spend a).2 now key'
      (if key = key' ∧ (rl'.spend a).1.1 then seconds now :: granted else granted) := by
  by_cases hk : key = key'
  case neg =>
    rw [if_neg (fun h => hk h.left)]
    have paced := h.others key' granted (Ne.symm hk) paced
    simp only [spend]
    split
    case isFalse => exact paced
    case isTrue =>
      refine paced.frame rfl rfl fun b hb => Function.update_of_ne ?_ _ _
      rintro rfl
      exact hk ((h.held.listed h.found).right.symm.trans (h.held.listed hb).right)
  case pos =>
    subst hk
    have metered := h.self granted paced
    simp only [spend]
    split
    case isFalse =>
      rw [if_neg (by simp)]
      exact .held h.found metered h.tick.le
    case isTrue enough =>
      rw [if_pos (by simp)]
      have spent := metered.spend enough
      simp only [Bucket.account, h.tick] at spent
      refine .held (show _ = some a from h.found) ?_ ?_
      · simpa [Bucket.account, h.tick] using spent
      · simp [h.tick]

end RateLimiter

-- A bucket that the next sweep throws away would be full by then.
def SweepsRefilled (rl : RateLimiter) (t : Take) : Prop :=
  ∀ a ∈ rl.lru, rl.Swept t.now a → rl.Refilled t.now a

-- What a run keeps, with the times of the requests that each key was granted.
structure Metering (keys : List String) (rl : RateLimiter) (last : Int) (granted : String → List ℚ) : Prop where
  held   : rl.Held
  enough : keys.length ≤ rl.cfg.maxKeys
  among  : rl.buckets.keys ⊆ keys
  paced  : ∀ key, rl.Paced last key (granted key)

def grant (rl : RateLimiter) (t : Take) (granted : String → List ℚ) (key : String) : List ℚ :=
  if t.key = key ∧ (rl.take t.now t.key).1.1 then seconds t.now :: granted key else granted key

variable {keys : List String} {rl : RateLimiter} {last : Int} {granted : String → List ℚ} {t : Take}

theorem Metering.take_acquired (h : Metering keys rl last granted) (later : last ≤ t.now) (mem : t.key ∈ keys)
    (refilled : SweepsRefilled rl t) :
    let swept := rl.maybeSweepLocked t.now
    rl.Acquired t.now t.key (swept.bucketOf t.now t.key).1 (swept.bucketOf t.now t.key).2 := by
  have ⟨held, d⟩ := RateLimiter.maybeSweepLocked_drops h.held t.now
  have full : ∀ key a, rl.buckets.lookup key = some a → rl.Swept t.now a → rl.Refilled t.now a :=
    fun key a found => refilled a (h.held.listed found).left
  have paced := ((h.paced t.key).later later).drops d (full t.key)
  refine .of_drops d full (RateLimiter.bucketOf_acquired held (fun a => paced.past) fun absent => ?_)
  have missing : t.key ∉ (rl.maybeSweepLocked t.now).buckets.keys := by
    rw [← AList.mem_keys, ← AList.lookup_isSome, absent]
    simp
  have all : (t.key :: (rl.maybeSweepLocked t.now).buckets.keys).Subperm keys := by
    apply List.subperm_of_subset
    · exact List.nodup_cons.mpr ⟨missing, AList.keys_nodup _⟩
    · exact List.cons_subset.mpr ⟨mem, fun key hk => h.among (d.among hk)⟩
  have few := all.length_le
  have enough := h.enough
  rw [d.cfg]
  simp only [List.length_cons] at few
  omega

theorem Metering.step (h : Metering keys rl last granted) (later : last ≤ t.now) (mem : t.key ∈ keys)
    (refilled : SweepsRefilled rl t) : Metering keys (step rl t) t.now (grant rl t granted) := by
  have acquired := h.take_acquired later mem refilled
  constructor
  case held   => exact RateLimiter.take_held h.held
  case enough => exact (RateLimiter.take_cfg h.held).symm ▸ h.enough
  case paced  => exact fun key => RateLimiter.spend_paced acquired ((h.paced key).later later)
  case among =>
    intro key hk
    by_cases he : key = t.key
    case pos => exact he ▸ mem
    case neg => exact h.among (acquired.among key he (RateLimiter.spend_buckets ▸ hk))

theorem Metering.run {ts : List Take} (h : Metering keys rl last granted)
    (times : (last :: ts.map Take.now).Pairwise (· ≤ ·)) (mem : ∀ t ∈ ts, t.key ∈ keys)
    (refilled : Each RateLimit.step SweepsRefilled rl ts) (key : String) :
    ∃ account, Metered rl.cfg.capacity rl.cfg.refill ((allowed key rl ts).reverse ++ granted key) account := by
  induction ts generalizing rl last granted
  case nil =>
    cases h.paced key
    case held metered _     => exact ⟨_, metered⟩
    case gone _ metered _ _ => exact ⟨_, metered⟩
  case cons t ts ih =>
    have ⟨later, times⟩ := List.pairwise_cons.mp times
    have next := h.step (later t.now (by simp)) (mem t (by simp)) refilled.left
    have ⟨account, metered⟩ := ih next times (fun t ht => mem t (List.mem_cons_of_mem _ ht)) refilled.right
    refine ⟨account, ?_⟩
    have cfg : (RateLimit.step rl t).cfg = rl.cfg := RateLimiter.take_cfg h.held
    rw [cfg] at metered
    simp only [allowed, grant] at metered ⊢
    split
    case isTrue hg =>
      rw [if_pos hg] at metered
      simpa using metered
    case isFalse hg => rwa [if_neg hg] at metered

-- A sweep that waits long enough only throws away what would be full.
theorem sweepsRefilled_of_idleTTL (h : rl.Held) (long : rl.cfg.capacity ≤ rl.cfg.refill * seconds rl.cfg.idleTTL) :
    SweepsRefilled rl t := by
  intro a ha swept
  have idle := swept.idle
  rw [RateLimiter.stale, Int.lt_sub_right_iff_add_lt, add_comm, ← Int.lt_sub_right_iff_add_lt] at idle
  have idle := seconds_le.mpr idle.le
  rw [seconds_sub] at idle
  calc
    rl.cfg.capacity
    _ ≤ rl.cfg.refill * seconds rl.cfg.idleTTL := long
    _ ≤ rl.cfg.refill * (seconds t.now - seconds (rl.heap a).lastTick) :=
      mul_le_mul_of_nonneg_left idle rl.cfg.refill_pos.le
    _ ≤ (rl.heap a).tokens + rl.cfg.refill * (seconds t.now - seconds (rl.heap a).lastTick) :=
      le_add_of_nonneg_left (h.solvent a ha)

-- The map and the list hold the same keys, each once, and not too many.
structure SameKeys (maxKeys : Int) (rl : RateLimiter) : Prop where
  perm  : rl.lruKeys.Perm rl.buckets.keys
  nodup : rl.lruKeys.Nodup
  few   : rl.buckets.keys.length ≤ maxKeys

def WithinRate (cfg : RateLimitConfig) (rl : RateLimiter) (ts : List Take) : Prop :=
  ∀ key, ∀ s t : ℚ, s ≤ t → within s t (allowed key rl ts) ≤ cfg.capacity + cfg.refill * (t - s)

theorem cfg_of_newRateLimiter {cfg : RateLimitConfig} (accepted : newRateLimiter cfg = some rl) : rl.cfg = cfg := by
  simp only [newRateLimiter, Option.ite_none_left_eq_some, Option.some.injEq] at accepted
  exact accepted.right.right ▸ rfl

theorem held_always {cfg : RateLimitConfig} (accepted : newRateLimiter cfg = some rl) (ts : List Take) :
    Always step (fun rl => rl.Held ∧ rl.cfg = cfg) rl ts := by
  apply Always.of_keeps
  case h  => exact fun rl t ⟨held, e⟩ => ⟨RateLimiter.take_held held, (RateLimiter.take_cfg held).trans e⟩
  case hs => exact ⟨newRateLimiter_held accepted, cfg_of_newRateLimiter accepted⟩

theorem metering_of_newRateLimiter {cfg : RateLimitConfig} (accepted : newRateLimiter cfg = some rl)
    {keys : List String} (enough : keys.length ≤ cfg.maxKeys) (now : Int) : Metering keys rl now fun _ => [] := by
  have held := newRateLimiter_held accepted
  simp only [newRateLimiter, Option.ite_none_left_eq_some, Option.some.injEq] at accepted
  have ⟨_, _, e⟩ := accepted
  subst e
  constructor
  case held   => exact held
  case enough => exact enough
  case among  => simp
  case paced  =>
    intro key
    apply RateLimiter.Paced.gone (AList.lookup_empty _) (.fresh (seconds now)) (le_refl _)
    simp

theorem exists_start {ts : List Take} (times : (ts.map Take.now).Pairwise (· ≤ ·)) :
    ∃ last, (last :: ts.map Take.now).Pairwise (· ≤ ·) := by
  cases ts
  case nil       => exact ⟨0, by simp⟩
  case cons t ts =>
    refine ⟨t.now, List.pairwise_cons.mpr ⟨?_, times⟩⟩
    simpa using (List.pairwise_cons.mp times).left

-- The bound holds for the runs in which the limiter only forgets buckets that would be full. This is
-- so if a bucket refills within the time it may be idle.
theorem take_within_rate {cfg : RateLimitConfig} (accepted : newRateLimiter cfg = some rl) :
    (∀ ts, Always step (SameKeys cfg.maxKeys) rl ts) ∧
    (∀ ts, (ts.map Take.now).Pairwise (· ≤ ·) → (ts.map Take.key).dedup.length ≤ cfg.maxKeys →
      Each step SweepsRefilled rl ts → WithinRate cfg rl ts) ∧
    (cfg.capacity ≤ cfg.refill * seconds cfg.idleTTL → ∀ ts, Each step SweepsRefilled rl ts) := by
  refine ⟨fun ts => ?same, fun ts times enough refilled key s t hst => ?within, fun long ts => ?long⟩
  case same =>
    apply (held_always accepted ts).mono
    intro rl ⟨held, e⟩
    exact ⟨held.keys_perm, held.nodup_lruKeys, e ▸ held.length_keys ▸ held.few⟩
  case within =>
    have ⟨last, times⟩ := exists_start times
    have metering := metering_of_newRateLimiter accepted enough last
    have mem : ∀ t ∈ ts, t.key ∈ (ts.map Take.key).dedup :=
      fun t ht => List.mem_dedup.mpr (List.mem_map_of_mem ht)
    have ⟨_, metered⟩ := metering.run times mem refilled key
    have bound := metered.within_le (RateLimitConfig.capacity_pos _).le (RateLimitConfig.refill_pos _).le hst
    simpa [within, List.countP_reverse, cfg_of_newRateLimiter accepted] using bound
  case long =>
    apply (held_always accepted ts).each
    intro rl t ⟨held, e⟩
    subst e
    exact sweepsRefilled_of_idleTTL held long

def sampleConfig (idleTTL : Int) : RateLimitConfig where
  Capacity   := 1
  RefillRate := 1 / 10
  MaxKeys    := 0
  IdleTTL    := idleTTL

-- The second request comes when the bucket has only a tenth of a token again.
def burst : List Take :=
  [⟨"a", second⟩, ⟨"a", 2 * second + 1⟩]

theorem newRateLimiter_sample (idleTTL : Int) :
    newRateLimiter (sampleConfig idleTTL) = some { cfg := sampleConfig idleTTL } := by
  have capacity : ¬(sampleConfig idleTTL).Capacity < 0 := not_lt.mpr zero_le_one
  have refill : ¬(sampleConfig idleTTL).RefillRate < 0 := not_lt.mpr (by simp [sampleConfig])
  rw [newRateLimiter, if_neg capacity, if_neg refill]

-- By default, a bucket is kept for five minutes.
theorem take_within_rate_default : WithinRate (sampleConfig 0) { cfg := sampleConfig 0 } burst :=
  have limiter := take_within_rate (newRateLimiter_sample 0)
  limiter.right.left burst (by decide) (by decide) (limiter.right.right (by decide +kernel) burst)

-- A bucket that is kept for a second is forgotten before the second request, which gets a full one.
theorem not_take_within_rate : ¬∀ cfg rl, newRateLimiter cfg = some rl →
    ∀ ts, (ts.map Take.now).Pairwise (· ≤ ·) → (ts.map Take.key).dedup.length ≤ cfg.maxKeys →
      WithinRate cfg rl ts := by
  intro h
  have within := h _ _ (newRateLimiter_sample second) burst (by decide) (by decide) "a" 1 3 (by decide)
  have granted : allowed "a" { cfg := sampleConfig second } burst = [1, seconds (2 * second + 1)] := by
    decide +kernel
  rw [granted] at within
  revert within
  decide +kernel

end RateLimit

end Go

end Licensing
