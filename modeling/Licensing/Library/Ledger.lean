import Mathlib.Data.List.Nodup

-- Ledgers of keys that may be used once. An entry lapses when the ledger is pruned past its expiry.

namespace Ledger

variable {κ ν : Type} [DecidableEq κ]

-- What is asked of a ledger.
inductive Request (κ ν : Type)
  | use (key : κ) (expiry : ν)
  | prune (now : ν)

def record (key : κ) (expiry : ν) (entries : List (κ × ν)) : Bool × List (κ × ν) :=
  if key ∈ entries.map Prod.fst then (false, entries) else (true, entries ++ [(key, expiry)])

def prune (expired : ν → ν → Bool) (now : ν) (entries : List (κ × ν)) : List (κ × ν) :=
  entries.filter fun entry => !expired entry.2 now

variable (expired : ν → ν → Bool)

-- The entries after some requests, the last one first.
def entries : List (Request κ ν) → List (κ × ν)
  | []                => []
  | .use key e :: rs  => (record key e (entries rs)).2
  | .prune now :: rs  => prune expired now (entries rs)

-- The keys that were accepted.
def accepted : List (Request κ ν) → List κ
  | []               => []
  | .use key e :: rs => if (record key e (entries expired rs)).1 then key :: accepted rs else accepted rs
  | .prune _ :: rs   => accepted rs

-- The expiry that came with the first use of a key.
def expiry? (key : κ) : List (Request κ ν) → Option ν
  | []                => none
  | .use key' e :: rs => (expiry? key rs).or (if key' = key then some e else none)
  | .prune _ :: rs    => expiry? key rs

-- Since its first use, the ledger was pruned past the expiry of a key.
def Lapsed (key : κ) : List (Request κ ν) → Prop
  | []               => False
  | .use _ _ :: rs   => Lapsed key rs
  | .prune now :: rs => Lapsed key rs ∨ ∃ e, expiry? key rs = some e ∧ expired e now

-- No key is used that has lapsed.
def Settled : List (Request κ ν) → Prop
  | []               => True
  | .use key _ :: rs => ¬Lapsed expired key rs ∧ Settled rs
  | .prune _ :: rs   => Settled rs

variable {expired} {rs : List (Request κ ν)} {key : κ} {e : ν}

@[simp]
theorem record_fst {es : List (κ × ν)} : (record key e es).1 ↔ key ∉ es.map Prod.fst := by
  unfold record
  split <;> simp_all

theorem Lapsed.isSome (h : Lapsed expired key rs) : (expiry? key rs).isSome := by
  induction rs with
  | nil => contradiction
  | cons r rs ih =>
    cases r with
    | use key' e => simp [expiry?, ih h]
    | prune now =>
      obtain h | ⟨e, he, _⟩ := h
      case inl => exact ih h
      case inr => simp [expiry?, he]

theorem mem_accepted : key ∈ accepted expired rs → (expiry? key rs).isSome := by
  induction rs with
  | nil => nofun
  | cons r rs ih =>
    cases r with
    | prune now => exact ih
    | use key' e =>
      intro h
      by_cases hk : key' = key
      case pos => simp [expiry?, hk]
      case neg =>
        have hm : key ∈ accepted expired rs := by
          unfold accepted at h
          split at h <;> simp_all [Ne.symm hk]
        simp [expiry?, ih hm]

-- The entries are the first uses that have not lapsed.
theorem Settled.mem_entries (hs : Settled expired rs) :
    (key, e) ∈ entries expired rs ↔ expiry? key rs = some e ∧ ¬Lapsed expired key rs := by
  induction rs generalizing key e with
  | nil => simp [entries, expiry?]
  | cons r rs ih =>
    cases r with
    | prune now =>
      rw [entries, prune, List.mem_filter, ih hs, expiry?, Lapsed]
      cases expiry? key rs <;> simp_all
      all_goals grind
    | use key' e' =>
      obtain ⟨hn, hs⟩ := hs
      have hr : key' ∈ (entries expired rs).map Prod.fst ↔ (expiry? key' rs).isSome := by
        simp [ih hs, hn, Option.isSome_iff_exists]
      rw [entries, record, expiry?, Lapsed]
      by_cases hm : key' ∈ (entries expired rs).map Prod.fst
      case pos =>
        rw [if_pos hm, ih hs]
        obtain ⟨e₀, he₀⟩ := Option.isSome_iff_exists.mp (hr.mp hm)
        by_cases hk : key' = key
        case pos => simp [← hk, he₀]
        case neg => simp [hk]
      case neg =>
        rw [if_neg hm, List.mem_append, ih hs]
        have hnone : expiry? key' rs = none := by simpa using mt hr.mpr hm
        by_cases hk : key' = key
        case pos => simp [← hk, hnone, hn, eq_comm]
        case neg => simp [hk, Ne.symm hk]

theorem Settled.accepts_iff {e' : ν} (hs : Settled expired rs) (hn : ¬Lapsed expired key rs) :
    (record key e' (entries expired rs)).1 ↔ expiry? key rs = none := by
  simp [hs.mem_entries, hn, Option.eq_none_iff_forall_not_mem]

theorem Settled.mem_accepted (hs : Settled expired rs) (he : (expiry? key rs).isSome) :
    key ∈ accepted expired rs := by
  induction rs with
  | nil => contradiction
  | cons r rs ih =>
    cases r with
    | prune now => exact ih hs he
    | use key' e =>
      obtain ⟨hn, hs⟩ := hs
      unfold accepted
      by_cases hk : key' = key
      case neg =>
        have hm := ih hs (by simpa [expiry?, hk] using he)
        split <;> simp [hm]
      case pos =>
        subst hk
        split
        case isTrue => simp
        case isFalse ha =>
          rw [hs.accepts_iff hn, ← ne_eq, ← Option.isSome_iff_ne_none] at ha
          exact ih hs ha

-- No key is accepted twice if and only if none is used that has lapsed.
theorem nodup_accepted_iff : (accepted expired rs).Nodup ↔ Settled expired rs := by
  induction rs with
  | nil => simp [accepted, Settled]
  | cons r rs ih =>
    cases r with
    | prune now => exact ih
    | use key e =>
      rw [Settled, ← ih]
      refine ⟨fun hd => ?_, fun ⟨hn, hd⟩ => ?_⟩
      case refine_1 =>
        have htail : (accepted expired rs).Nodup := by
          unfold accepted at hd
          split at hd
          case isTrue  => exact hd.of_cons
          case isFalse => exact hd
        have hs := ih.mp htail
        refine ⟨fun hl => ?_, htail⟩
        have ha : (record key e (entries expired rs)).1 := by
          simp [hs.mem_entries, hl]
        rw [accepted, if_pos ha, List.nodup_cons] at hd
        exact hd.1 (hs.mem_accepted hl.isSome)
      case refine_2 =>
        have hs := ih.mp hd
        unfold accepted
        split
        case isFalse => exact hd
        case isTrue ha =>
          rw [hs.accepts_iff hn] at ha
          refine hd.cons fun hm => ?_
          have hsome := Ledger.mem_accepted hm
          rw [ha] at hsome
          contradiction

end Ledger
