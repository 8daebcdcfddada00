import Mathlib.Data.List.Sort
import Mathlib.Order.Basic

-- Sorting by a key of a linear order, and the elements that come first.

namespace Ranking

variable {α κ : Type} [LinearOrder κ] {key : α → κ} {as bs : List α} {after : α → α → Bool}

theorem merge_congr {r s : α → α → Bool} {as bs : List α} (h : ∀ a ∈ as, ∀ b ∈ bs, r a b = s a b) :
    as.merge bs r = as.merge bs s := by
  simpa using List.map_merge (f := id) h

-- A sort by merging compares an element with later ones only.
theorem mergeSort_congr {r s : α → α → Bool} : {as : List α} → (as.Pairwise fun a b => r a b = s a b) →
    as.mergeSort r = as.mergeSort s
  | [], _           => by rw [List.mergeSort, List.mergeSort]
  | [a], _          => by rw [List.mergeSort, List.mergeSort]
  | a :: b :: as, h => by
    have split := List.take_append_drop (((a :: b :: as).length + 1) / 2) (a :: b :: as)
    have apart := List.pairwise_append.mp (split.symm ▸ h)
    simp only [List.mergeSort, List.MergeSort.Internal.splitInTwo_fst, List.MergeSort.Internal.splitInTwo_snd]
    rw [mergeSort_congr apart.left, mergeSort_congr apart.right.left]
    refine merge_congr fun x hx y hy => ?_
    exact apart.right.right x (List.mem_mergeSort.mp hx) y (List.mem_mergeSort.mp hy)
  termination_by as => as.length

-- On the elements of a list, `after a b` says that `a` comes after `b`. It need not be right about an
-- element and itself.
def Ranks (after : α → α → Bool) (key : α → κ) (as : List α) : Prop :=
  ∀ a ∈ as, ∀ b ∈ as, a ≠ b → after a b = decide (key b < key a)

theorem Ranks.mergeSort (h : Ranks after key as) (hd : as.Nodup) :
    as.mergeSort (fun a b => !after a b) = as.mergeSort fun a b => key a ≤ key b := by
  refine mergeSort_congr (List.Pairwise.imp_of_mem (fun {a b} ha hb hab => ?_) hd)
  rw [h a ha b hb hab, ← decide_not]
  exact decide_eq_decide.mpr not_lt

theorem pairwise_sorted (as : List α) :
    (as.mergeSort fun a b => key a ≤ key b).Pairwise fun a b => key a ≤ key b := by
  have trans (a b c : α) (hab : decide (key a ≤ key b)) (hbc : decide (key b ≤ key c)) :
      decide (key a ≤ key c) :=
    decide_eq_true ((of_decide_eq_true hab).trans (of_decide_eq_true hbc))
  have total (a b : α) : decide (key a ≤ key b) || decide (key b ≤ key a) := by
    simpa using le_total (key a) (key b)
  exact (List.pairwise_mergeSort trans total as).imp of_decide_eq_true

-- Elements that their keys tell apart are sorted in one way.
theorem sorted_perm (h : as.Perm bs) (hk : ∀ a ∈ as, ∀ b ∈ as, key a = key b → a = b) :
    (as.mergeSort fun a b => key a ≤ key b) = bs.mergeSort fun a b => key a ≤ key b := by
  have perm := (List.mergeSort_perm as fun a b => key a ≤ key b).trans <|
    h.trans (List.mergeSort_perm bs fun a b => key a ≤ key b).symm
  refine perm.eq_of_pairwise (fun a b ha hb hab hba => ?_) (pairwise_sorted as) (pairwise_sorted bs)
  have ha : a ∈ as := List.mem_mergeSort.mp ha
  have hb : b ∈ as := h.mem_iff.mpr (List.mem_mergeSort.mp hb)
  exact hk a ha b hb (le_antisymm hab hba)

-- A list has the first `n` elements of another one in their order.
structure Top (n : Nat) (key : α → κ) (as top : List α) : Prop where
  length : top.length = min n as.length
  sorted : top.Pairwise fun a b => key a < key b
  first  : ∃ rest, (top ++ rest).Perm as ∧ ∀ a ∈ top, ∀ b ∈ rest, key a < key b

theorem top_take (n : Nat) (hd : as.Nodup) (hk : ∀ a ∈ as, ∀ b ∈ as, key a = key b → a = b) :
    Top n key as ((as.mergeSort fun a b => key a ≤ key b).take n) := by
  have perm := List.mergeSort_perm as fun a b => key a ≤ key b
  have strict : (as.mergeSort fun a b => key a ≤ key b).Pairwise fun a b => key a < key b := by
    refine ((pairwise_sorted as).and (perm.nodup_iff.mpr hd)).imp_of_mem fun {a b} ha hb hab => ?_
    exact lt_of_le_of_ne hab.left fun he => hab.right (hk a (perm.mem_iff.mp ha) b (perm.mem_iff.mp hb) he)
  have split := List.take_append_drop n (as.mergeSort fun a b => key a ≤ key b)
  have apart := List.pairwise_append.mp (split.symm ▸ strict)
  exact {
    length := by rw [List.length_take, List.length_mergeSort]
    sorted := apart.left
    first  := ⟨(as.mergeSort fun a b => key a ≤ key b).drop n, split.symm ▸ perm, apart.right.right⟩ }

end Ranking
