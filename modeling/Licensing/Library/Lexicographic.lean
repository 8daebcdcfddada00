import Mathlib.Data.List.Pairwise
import Mathlib.Data.List.Sort
import Mathlib.Tactic.SplitIfs

-- The order of sequences of numbers, and lists that are sorted by keys of that kind.

-- The order of two sequences is that of the first elements that differ.
def lexicographic : List Nat → List Nat → Ordering
  | x :: xs, y :: ys => if x = y then lexicographic xs ys else if x < y then .lt else .gt
  | [],      []      => .eq
  | [],      _ :: _  => .lt
  | _ :: _,  []      => .gt

theorem lexicographic_eq {xs ys : List Nat} (h : lexicographic xs ys = .eq) : xs = ys := by
  induction xs, ys using lexicographic.induct <;> grind [lexicographic]

theorem lexicographic_swap (xs ys : List Nat) :
    lexicographic ys xs = (lexicographic xs ys).swap := by
  induction xs, ys using lexicographic.induct <;> grind [lexicographic, Ordering.swap]

theorem lexicographic_trans {xs ys zs : List Nat} (h : lexicographic xs ys ≠ .gt)
    (h' : lexicographic ys zs ≠ .gt) : lexicographic xs zs ≠ .gt := by
  induction xs, ys using lexicographic.induct generalizing zs <;> cases zs <;> grind [lexicographic]

theorem lexicographic_antisymm {xs ys : List Nat} (h : lexicographic xs ys ≠ .gt)
    (h' : lexicographic ys xs ≠ .gt) : xs = ys := by
  refine lexicographic_eq ?_
  rw [lexicographic_swap xs] at h'
  cases hl : lexicographic xs ys <;> simp_all

theorem lexicographic_append (cs xs ys : List Nat) :
    lexicographic (cs ++ xs) (cs ++ ys) = lexicographic xs ys := by
  induction cs
  case nil => rfl
  case cons c cs ih => simpa [lexicographic] using ih

theorem lexicographic_self (xs : List Nat) : lexicographic xs xs = .eq := by
  simpa [lexicographic] using lexicographic_append xs [] []

variable {α β : Type}

-- Codes that are ordered by where they first differ are ordered as the places of what they stand for.
theorem lexicographic_flatMap {code : α → List Nat} {place : α → Nat} (hp : Function.Injective place)
    (hn : ∀ a, code a ≠ [])
    (hlt : ∀ a b, place a < place b → ∀ xs ys, lexicographic (code a ++ xs) (code b ++ ys) = .lt)
    (as bs : List α) :
    lexicographic (as.flatMap code) (bs.flatMap code) = lexicographic (as.map place) (bs.map place) := by
  induction as generalizing bs
  case nil =>
    cases bs
    case nil => rfl
    case cons b bs =>
      have ⟨x, xs, hx⟩ := List.exists_cons_of_ne_nil (hn b)
      simp [hx, lexicographic]
  case cons a as ih =>
    cases bs
    case nil =>
      have ⟨x, xs, hx⟩ := List.exists_cons_of_ne_nil (hn a)
      simp [hx, lexicographic]
    case cons b bs =>
      rw [List.flatMap_cons, List.flatMap_cons, List.map_cons, List.map_cons, lexicographic]
      rcases Nat.lt_trichotomy (place a) (place b) with h | h | h
      case inl => rw [hlt a b h, if_neg (Nat.ne_of_lt h), if_pos h]
      case inr.inl => rw [if_pos h, hp h, lexicographic_append, ih]
      case inr.inr =>
        rw [lexicographic_swap, hlt b a h, if_neg (Nat.ne_of_gt h), if_neg (Nat.lt_asymm h)]
        rfl

-- Two orders of sequences differ where the first elements that differ are ordered differently.
theorem lexicographic_map_ne_iff {f g : α → Nat} (hf : Function.Injective f) (hg : Function.Injective g)
    (as bs : List α) :
    lexicographic (as.map f) (bs.map f) ≠ lexicographic (as.map g) (bs.map g) ↔
      ∃ cs a b as' bs', as = cs ++ a :: as' ∧ bs = cs ++ b :: bs' ∧
        (f a < f b ∧ g b < g a ∨ f b < f a ∧ g a < g b) := by
  induction as generalizing bs
  case nil => cases bs <;> simp [lexicographic]
  case cons a as ih =>
    cases bs
    case nil => simp [lexicographic]
    case cons b bs =>
      by_cases hab : a = b
      case pos =>
        cases hab
        rw [List.map_cons, List.map_cons, List.map_cons, List.map_cons, lexicographic, lexicographic, if_pos rfl,
          if_pos rfl, ih bs]
        constructor
        case mp =>
          intro ⟨cs, c, d, as', bs', ha, hb, h⟩
          exact ⟨a :: cs, c, d, as', bs', by rw [ha]; rfl, by rw [hb]; rfl, h⟩
        case mpr =>
          intro ⟨cs, c, d, as', bs', ha, hb, h⟩
          cases cs
          case nil =>
            cases ha
            cases hb
            omega
          case cons e cs => exact ⟨cs, c, d, as', bs', (List.cons.inj ha).2, (List.cons.inj hb).2, h⟩
      case neg =>
        have hfn : f a ≠ f b := fun h => hab (hf h)
        have hgn : g a ≠ g b := fun h => hab (hg h)
        have hcs : (∃ cs c d as' bs', a :: as = cs ++ c :: as' ∧ b :: bs = cs ++ d :: bs' ∧
            (f c < f d ∧ g d < g c ∨ f d < f c ∧ g c < g d)) ↔
              f a < f b ∧ g b < g a ∨ f b < f a ∧ g a < g b := by
          constructor
          case mp =>
            intro ⟨cs, c, d, as', bs', ha, hb, h⟩
            cases cs
            case nil =>
              cases ha
              cases hb
              exact h
            case cons e cs => exact absurd ((List.cons.inj ha).1.trans (List.cons.inj hb).1.symm) hab
          case mpr => exact fun h => ⟨[], a, b, as, bs, rfl, rfl, h⟩
        rw [hcs, List.map_cons, List.map_cons, List.map_cons, List.map_cons, lexicographic, lexicographic,
          if_neg hfn, if_neg hgn]
        split_ifs <;> simp <;> omega

def sortBy (cmp : α → α → Ordering) (as : List α) : List α :=
  as.insertionSort fun a b => cmp a b ≠ .gt

theorem sortBy_perm (cmp : α → α → Ordering) (as : List α) : (sortBy cmp as).Perm as :=
  List.perm_insertionSort _ as

theorem sortBy_map {cmp : α → α → Ordering} {cmp' : β → β → Ordering} {f : α → β}
    (h : ∀ a b, cmp' (f a) (f b) = cmp a b) (as : List α) :
    sortBy cmp' (as.map f) = (sortBy cmp as).map f :=
  (List.map_insertionSort _ _ f as fun a _ b _ => by rw [h]).symm

section

variable {key : α → List Nat}

theorem pairwise_sortBy (as : List α) :
    (sortBy (fun a b => lexicographic (key a) (key b)) as).Pairwise
      fun a b => lexicographic (key a) (key b) ≠ .gt := by
  have : Std.Total fun a b => lexicographic (key a) (key b) ≠ .gt := ⟨fun a b => by
    rw [lexicographic_swap (key a) (key b)]
    cases lexicographic (key a) (key b) <;> simp⟩
  have : IsTrans α fun a b => lexicographic (key a) (key b) ≠ .gt :=
    ⟨fun _ _ _ => lexicographic_trans⟩
  exact List.pairwise_insertionSort _ as

-- A list is sorted in one way only if its elements are told apart by their keys.
theorem sortBy_eq_of_perm_of_inj {as bs : List α} (h : as.Perm bs)
    (hk : ∀ a ∈ as, ∀ b ∈ as, key a = key b → a = b) :
    sortBy (fun a b => lexicographic (key a) (key b)) as =
      sortBy (fun a b => lexicographic (key a) (key b)) bs := by
  have perm := (sortBy_perm (fun a b => lexicographic (key a) (key b)) as).trans <|
    h.trans (sortBy_perm (fun a b => lexicographic (key a) (key b)) bs).symm
  refine perm.eq_of_pairwise (fun a b ha hb hab hba => ?_) (pairwise_sortBy as) (pairwise_sortBy bs)
  have he := lexicographic_antisymm hab hba
  have ha : a ∈ as := (sortBy_perm _ as).mem_iff.mp ha
  have hb : b ∈ as := h.mem_iff.mpr <| (sortBy_perm _ bs).mem_iff.mp hb
  exact hk a ha b hb he

-- Two keys sort a list alike if and only if they order all pairs of its elements alike.
theorem sortBy_eq_sortBy_iff {key' : α → List Nat} (hk : Function.Injective key) (hk' : Function.Injective key')
    (as : List α) :
    sortBy (fun a b => lexicographic (key a) (key b)) as =
        sortBy (fun a b => lexicographic (key' a) (key' b)) as ↔
      ∀ a ∈ as, ∀ b ∈ as, lexicographic (key a) (key b) = lexicographic (key' a) (key' b) := by
  have hp : (sortBy (fun a b => lexicographic (key a) (key b)) as).Pairwise
    fun a b => lexicographic (key a) (key b) ≠ .gt := pairwise_sortBy as
  have hp' : (sortBy (fun a b => lexicographic (key' a) (key' b)) as).Pairwise
    fun a b => lexicographic (key' a) (key' b) ≠ .gt := pairwise_sortBy as
  have hm : ∀ a, a ∈ sortBy (fun a b => lexicographic (key a) (key b)) as ↔ a ∈ as :=
    fun _ => (sortBy_perm _ as).mem_iff
  constructor
  case mp =>
    intro h
    rw [← h] at hp'
    have : Std.Symm fun a b => lexicographic (key a) (key b) = lexicographic (key' a) (key' b) :=
      ⟨fun a b h => by rw [lexicographic_swap (key a), lexicographic_swap (key' a), h]⟩
    have hs : ∀ a ∈ sortBy (fun a b => lexicographic (key a) (key b)) as,
        lexicographic (key a) (key a) = lexicographic (key' a) (key' a) :=
      fun a _ => by rw [lexicographic_self, lexicographic_self]
    have hboth := (hp.and hp').imp fun {a b} hab => by
      show lexicographic (key a) (key b) = lexicographic (key' a) (key' b)
      have hl := hab.left
      have hl' := hab.right
      by_cases he : a = b
      case pos => rw [he, lexicographic_self, lexicographic_self]
      case neg =>
        have hne : lexicographic (key a) (key b) ≠ .eq := fun h => he (hk (lexicographic_eq h))
        have hne' : lexicographic (key' a) (key' b) ≠ .eq := fun h => he (hk' (lexicographic_eq h))
        cases h₁ : lexicographic (key a) (key b) <;> cases h₂ : lexicographic (key' a) (key' b) <;> simp_all
    intro a ha b hb
    exact hboth.forall_of_forall hs ((hm a).mpr ha) ((hm b).mpr hb)
  case mpr =>
    intro h
    have hp := hp.imp_of_mem fun {a b} ha hb hab => h a ((hm a).mp ha) b ((hm b).mp hb) ▸ hab
    refine ((sortBy_perm _ as).trans (sortBy_perm _ as).symm).eq_of_pairwise ?_ hp hp'
    exact fun a b _ _ hab hba => hk' (lexicographic_antisymm hab hba)

theorem sortBy_sorted (as : List α) :
    sortBy (fun a b => lexicographic (key a) (key b))
      (sortBy (fun a b => lexicographic (key a) (key b)) as) =
        sortBy (fun a b => lexicographic (key a) (key b)) as :=
  (pairwise_sortBy as).insertionSort_eq

end
