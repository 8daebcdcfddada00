import Mathlib.Data.List.Sort
import Mathlib.Order.Defs.LinearOrder

-- Queries that return rows in descending order of a key, a page at a time: the rows of a page come
-- strictly after the cursor.

namespace Keyset

variable {α β κ γ δ : Type}

-- The items of all pages from a cursor on, if the last one is among the first `n`.
def follow (fetch : Option γ → List α × Option γ) : Nat → Option γ → Option (List α)
  | 0,     _ => none
  | n + 1, c =>
    match fetch c with
    | (items, none)   => some items
    | (items, some c) => (follow fetch n (some c)).map (items ++ ·)

-- Cursors that stand for the same place lead to the same items.
theorem follow_congr {fetch : Option γ → List α × Option γ} {fetch' : Option δ → List α × Option δ}
    {r : γ → δ → Prop}
    (h : ∀ c d, Option.Rel r c d →
      (fetch c).1 = (fetch' d).1 ∧ Option.Rel r (fetch c).2 (fetch' d).2) :
    ∀ n c d, Option.Rel r c d → follow fetch n c = follow fetch' n d
  | 0,     _, _, _ => rfl
  | n + 1, c, d, hr => by
    obtain ⟨items, next⟩ := h c d hr
    simp only [follow]
    generalize fetch c = p at items next
    generalize fetch' d = q at items next
    obtain ⟨as, c'⟩ := p
    obtain ⟨bs, d'⟩ := q
    cases items
    cases next
    case none    => rfl
    case some hr => simp only [follow_congr h n _ _ (.some hr)]

variable [LinearOrder κ]

def sorted (key : α → κ) (rows : List α) : List α :=
  rows.insertionSort fun a b => key b ≤ key a

def isAfter (key : α → κ) : Option κ → α → Bool
  | some c, a => key a < c
  | none,   _ => true

def select (key : α → κ) (p : α → Bool) (cursor : Option κ) (n : Nat) (rows : List α) : List α :=
  (sorted key (rows.filter fun a => p a && isAfter key cursor a)).take n

-- The rows that come after a cursor.
def rest (key : α → κ) (cursor : Option κ) (rows : List α) : List α :=
  (sorted key rows).filter (isAfter key cursor)

variable {key : α → κ} {rows l : List α} {cursor : Option κ} {n : Nat} {a : α}

theorem sorted_perm : (sorted key rows).Perm rows :=
  List.perm_insertionSort _ _

def Descending (key : α → κ) (l : List α) : Prop :=
  l.Pairwise fun a b => key b < key a

theorem descending_sorted (nd : (rows.map key).Nodup) : Descending key (sorted key rows) := by
  have total : Std.Total fun a b => key b ≤ key a := ⟨fun a b => le_total (key b) (key a)⟩
  have trans : IsTrans α fun a b => key b ≤ key a := ⟨fun _ _ _ hab hbc => hbc.trans hab⟩
  have ne : (sorted key rows).Pairwise fun a b => key a ≠ key b :=
    List.pairwise_map.mp <| (sorted_perm.map key).nodup_iff.mpr nd
  refine ((List.pairwise_insertionSort _ rows).and ne).imp ?_
  intro a b h
  exact lt_of_le_of_ne h.left h.right.symm

-- Rows are in descending order in one way only.
theorem Descending.eq_of_perm {l' : List α} (h : Descending key l) (h' : Descending key l')
    (p : l.Perm l') : l = l' := by
  refine p.eq_of_pairwise ?_ h h'
  intro a b _ _ hab hba
  exact absurd hab hba.asymm

theorem sorted_filter (nd : (rows.map key).Nodup) (p : α → Bool) :
    sorted key (rows.filter p) = (sorted key rows).filter p := by
  refine (descending_sorted ?_).eq_of_perm ((descending_sorted nd).filter p) ?_
  case refine_1 => exact nd.sublist (List.filter_sublist.map key)
  case refine_2 => exact sorted_perm.trans (sorted_perm.symm.filter p)

theorem select_eq (nd : (rows.map key).Nodup) (p : α → Bool) :
    select key p cursor n rows = (rest key cursor (rows.filter p)).take n := by
  have nd' : ((rows.filter p).map key).Nodup := nd.sublist (List.filter_sublist.map key)
  rw [rest, ← sorted_filter nd', List.filter_filter, select]
  simp only [Bool.and_comm]

-- In descending order, what comes after a cursor is what remains when the rows before are dropped.
theorem Descending.dropWhile (h : Descending key l) (c : κ) :
    l.dropWhile (fun a => ¬key a < c) = l.filter (isAfter key (some c)) := by
  induction l
  case nil => rfl
  case cons a l ih =>
    obtain ⟨ha, hl⟩ := List.pairwise_cons.mp h
    by_cases hc : key a < c
    case pos =>
      have all : ∀ b ∈ a :: l, isAfter key (some c) b := by
        rw [List.forall_mem_cons]
        exact ⟨by simpa [isAfter] using hc, fun b hb => by simpa [isAfter] using (ha b hb).trans hc⟩
      rw [List.filter_eq_self.mpr all, List.dropWhile_cons_of_neg (by simpa using hc)]
    case neg => simp [isAfter, hc, ← ih hl, List.dropWhile_cons]

-- What comes after the last row of a part comes after that part.
theorem Descending.filter_append {l' : List α} (h : Descending key (l ++ a :: l')) :
    (l ++ a :: l').filter (isAfter key (some (key a))) = l' := by
  obtain ⟨-, hr, hc⟩ := List.pairwise_append.mp h
  obtain ⟨ha, -⟩ := List.pairwise_cons.mp hr
  have hl : l.filter (isAfter key (some (key a))) = [] := by
    refine List.filter_eq_nil_iff.mpr fun b hb => ?_
    simpa [isAfter] using (hc b hb a (List.mem_cons_self ..)).le
  have hl' : l'.filter (isAfter key (some (key a))) = l' :=
    List.filter_eq_self.mpr fun b hb => by simpa [isAfter] using ha b hb
  rw [List.filter_append, hl, List.filter_cons_of_neg (by simp [isAfter]), hl', List.nil_append]

theorem rest_none : rest key none rows = sorted key rows :=
  List.filter_eq_self.mpr fun _ _ => rfl

theorem rest_of_mem (h : isAfter key cursor a) :
    rest key (some (key a)) rows = (rest key cursor rows).filter (isAfter key (some (key a))) := by
  rw [rest, rest, List.filter_filter]
  refine List.filter_congr fun b _ => ?_
  cases cursor
  case none => simp [isAfter]
  case some c =>
    have ha : key a < c := by simpa [isAfter] using h
    rw [Bool.eq_iff_iff]
    simp only [isAfter, Bool.and_eq_true, decide_eq_true_eq]
    exact ⟨fun hb => ⟨hb, hb.trans ha⟩, And.left⟩

theorem rest_drop (nd : (rows.map key).Nodup) (h : ((rest key cursor rows).take n).getLast? = some a) :
    rest key (some (key a)) rows = (rest key cursor rows).drop n := by
  have ha : isAfter key cursor a :=
    (List.mem_filter.mp (List.mem_of_mem_take (List.mem_of_getLast? h))).right
  obtain ⟨l, hl⟩ := List.getLast?_eq_some_iff.mp h
  have split : rest key cursor rows = l ++ a :: (rest key cursor rows).drop n := by
    conv => lhs; rw [← List.take_append_drop n (rest key cursor rows), hl]
    rw [List.append_assoc, List.singleton_append]
  have desc : Descending key (rest key cursor rows) := (descending_sorted nd).filter _
  rw [rest_of_mem ha]
  conv => lhs; rw [split]
  exact Descending.filter_append (split ▸ desc)

theorem exists_getLast?_take (hn : 0 < n) (h : n < l.length) : ∃ a, (l.take n).getLast? = some a := by
  refine Option.isSome_iff_exists.mp (List.getLast?_isSome.mpr fun he => ?_)
  have hl := congrArg List.length he
  rw [List.length_take, List.length_nil] at hl
  omega

-- A walk that begins anew at a row whose cursor is not read back.
section Unread

variable {readable : α → Prop} [DecidablePred readable]

-- The last rows of the pages are readable, but for that of the last page.
def Resumes (readable : α → Prop) (n : Nat) (l : List α) : Prop :=
  ∀ k a, n < (l.drop (k * n)).length → ((l.drop (k * n)).take n).getLast? = some a → readable a

-- A page whose cursor stands for the place after its last row, or for the first page.
def pageOr (readable : α → Prop) [DecidablePred readable] (key : α → κ) (n : Nat) (rows : List α)
    (cursor : Option (Option κ)) : List α × Option (Option κ) :=
  let rest := rest key cursor.join rows
  (rest.take n,
    if n < rest.length then (rest.take n).getLast?.map fun a => if readable a then some (key a) else none else none)

theorem rest_next (nd : (rows.map key).Nodup) {k : Nat}
    (hr : rest key cursor rows = (sorted key rows).drop (k * n))
    (ha : ((rest key cursor rows).take n).getLast? = some a) :
    rest key (some (key a)) rows = (sorted key rows).drop ((k + 1) * n) := by
  rw [rest_drop nd ha, hr, List.drop_drop, Nat.succ_mul]

theorem follow_of_resumes (nd : (rows.map key).Nodup) (hn : 0 < n) (resumes : Resumes readable n (sorted key rows)) :
    ∀ m k cursor, rest key cursor.join rows = (sorted key rows).drop (k * n) →
      ((sorted key rows).drop (k * n)).length < m →
      follow (pageOr readable key n rows) m cursor = some ((sorted key rows).drop (k * n))
  | m + 1, k, cursor, hr, hm => by
    by_cases h : n < ((sorted key rows).drop (k * n)).length
    case neg => simp only [follow, pageOr, hr, if_neg h, List.take_of_length_le (Nat.not_lt.mp h)]
    case pos =>
      obtain ⟨a, ha⟩ := exists_getLast?_take hn h
      have next := rest_next nd hr (hr ▸ ha)
      have fewer : ((sorted key rows).drop ((k + 1) * n)).length < m := by
        rw [Nat.succ_mul, ← List.drop_drop, List.length_drop]
        omega
      have step := follow_of_resumes nd hn resumes m (k + 1) (some (some (key a))) next fewer
      simp only [follow, pageOr, hr, if_pos h, ha, Option.map_some, if_pos (resumes k a h ha)]
      rw [show follow _ m (some (some (key a))) = _ from step, Option.map_some, Nat.succ_mul, ← List.drop_drop,
        List.take_append_drop]

-- A page that ends with an unreadable row leads back to the first one.
theorem follow_of_unread (nd : (rows.map key).Nodup) {j : Nat} {u : α}
    (more : n < ((sorted key rows).drop (j * n)).length)
    (last : (((sorted key rows).drop (j * n)).take n).getLast? = some u) (unread : ¬readable u) :
    ∀ m k cursor, k ≤ j → rest key cursor.join rows = (sorted key rows).drop (k * n) →
      follow (pageOr readable key n rows) m cursor = none
  | 0,     _, _,      _,  _  => rfl
  | m + 1, k, cursor, hk, hr => by
    have h : n < ((sorted key rows).drop (k * n)).length := by
      have := Nat.mul_le_mul_right n hk
      rw [List.length_drop] at more ⊢
      omega
    obtain ⟨a, ha⟩ : ∃ a, (((sorted key rows).drop (k * n)).take n).getLast? = some a := by
      obtain rfl | pos := Nat.eq_zero_or_pos n
      case inl => simp at last
      case inr => exact exists_getLast?_take pos h
    simp only [follow, pageOr, hr, if_pos h, ha, Option.map_some]
    by_cases read : readable a
    case pos =>
      have hj : k ≠ j := fun e => unread (Option.some.inj ((e ▸ ha).symm.trans last) ▸ read)
      have next := rest_next nd hr (hr ▸ ha)
      rw [if_pos read]
      exact congrArg _ (follow_of_unread nd more last unread m (k + 1) (some (some (key a))) (by omega) next)
    case neg =>
      have first : rest key none rows = (sorted key rows).drop (0 * n) := by simp [rest_none]
      rw [if_neg read]
      exact congrArg _ (follow_of_unread nd more last unread m 0 (some none) (Nat.zero_le j) first)

-- The walk from the first page on ends with all rows, or it does not end.
variable (readable) in
theorem follow_pageOr (nd : (rows.map key).Nodup) (hn : 0 < n) :
    (Resumes readable n (sorted key rows) →
      follow (pageOr readable key n rows) (rows.length + 1) none = some (sorted key rows)) ∧
    (¬Resumes readable n (sorted key rows) → ∀ m, follow (pageOr readable key n rows) m none = none) := by
  have first : rest key none rows = (sorted key rows).drop (0 * n) := by simp [rest_none]
  constructor
  case left =>
    intro resumes
    have all : ((sorted key rows).drop (0 * n)).length < rows.length + 1 := by simp [sorted_perm.length_eq]
    simpa using follow_of_resumes nd hn resumes (rows.length + 1) 0 none first all
  case right =>
    intro stuck m
    simp only [Resumes, not_forall] at stuck
    obtain ⟨j, u, more, last, unread⟩ := stuck
    exact follow_of_unread nd more last unread m 0 none (Nat.zero_le j) first

-- A row that others follow has one after it that comes later still.
theorem Descending.exists_after (h : Descending key l) (hl : n < l.length) (ha : (l.take n).getLast? = some a) :
    ∃ b ∈ l, key b < key a := by
  obtain ⟨b, l', hd⟩ := List.exists_cons_of_length_pos (by rw [List.length_drop]; omega : 0 < (l.drop n).length)
  have split : Descending key (l.take n ++ l.drop n) := (List.take_append_drop n l).symm ▸ h
  refine ⟨b, List.mem_of_mem_drop (hd ▸ List.mem_cons_self), ?_⟩
  exact (List.pairwise_append.mp split).2.2 a (List.mem_of_getLast? ha) b (hd ▸ List.mem_cons_self)

variable (readable) in
-- The readable rows come first, if what follows an unreadable one is unreadable too.
theorem Descending.split (h : Descending key l) (inj : ∀ a ∈ l, ∀ b ∈ l, key a = key b → a = b)
    (last : ∀ a b, ¬readable a → key b < key a → ¬readable b) :
    l = l.filter (fun a => readable a) ++ l.filter fun a => ¬readable a := by
  have desc : Descending key (l.filter (fun a => readable a) ++ l.filter fun a => ¬readable a) := by
    refine List.pairwise_append.mpr ⟨h.filter _, h.filter _, fun a ha b hb => ?_⟩
    obtain ⟨ha, read⟩ := List.mem_filter.mp ha
    obtain ⟨hb, unread⟩ := List.mem_filter.mp hb
    simp only [decide_eq_true_eq] at read unread
    rcases lt_trichotomy (key a) (key b) with lt | eq | gt
    · exact absurd read (last b a unread lt)
    · exact absurd (inj a ha b hb eq ▸ read) unread
    · exact gt
  refine h.eq_of_perm desc ?_
  have perm := List.filter_append_perm (fun a => decide (readable a)) l
  simpa only [← decide_not] using perm.symm

-- A page that begins after a readable row, or with the first one, ends with an unreadable one if there are two of them
-- and the page does not hold all rows.
theorem exists_unread (hn : 0 < n) (hl : n < l.length)
    (split : l = l.filter (fun a => readable a) ++ l.filter fun a => ¬readable a)
    (two : 1 < (l.filter fun a => ¬readable a).length) :
    ∃ i a, (i = 0 ∨ ∃ r, readable r ∧ (l.take i).getLast? = some r) ∧ n < (l.drop i).length ∧
      ((l.drop i).take n).getLast? = some a ∧ ¬readable a := by
  generalize ht : l.filter (fun a => readable a) = front at split
  generalize hu : (l.filter fun a => ¬readable a) = back at split two
  have length : l.length = front.length + back.length := by rw [split, List.length_append]
  obtain ⟨i, hi⟩ : ∃ i, i = min front.length (l.length - 1 - n) := ⟨_, rfl⟩
  have more : n < (l.drop i).length := by rw [List.length_drop]; omega
  have hback : front.length ≤ i + (n - 1) := by omega
  have inside : i + (n - 1) - front.length < back.length := by omega
  have last : ((l.drop i).take n).getLast? = some back[i + (n - 1) - front.length] := by
    rw [List.getLast?_take, if_neg hn.ne', List.getElem?_drop, split, List.getElem?_append_right hback,
      List.getElem?_eq_getElem inside, Option.some_or]
  have mem : back[i + (n - 1) - front.length] ∈ l.filter fun a => ¬readable a := hu ▸ List.getElem_mem inside
  refine ⟨i, _, ?_, more, last, by simpa using (List.mem_filter.mp mem).right⟩
  obtain rfl | pos := Nat.eq_zero_or_pos i
  case inl => exact .inl rfl
  case inr =>
    have hfront : i - 1 < front.length := by omega
    have row : (l.take i).getLast? = some front[i - 1] := by
      rw [List.getLast?_take, if_neg pos.ne', split, List.getElem?_append_left hfront,
        List.getElem?_eq_getElem hfront, Option.some_or]
    have mem : front[i - 1] ∈ l.filter fun a => readable a := ht ▸ List.getElem_mem hfront
    exact .inr ⟨_, by simpa using (List.mem_filter.mp mem).right, row⟩

end Unread

-- A walk that takes the rows of each page out of the table.
section Removal

variable {f : α → β} [DecidableEq β]

theorem filter_notMem_take (nd : (l.map f).Nodup) (n : Nat) :
    l.filter (fun a => f a ∉ (l.take n).map f) = l.drop n := by
  rw [← List.take_append_drop n l, List.map_append] at nd
  obtain ⟨_, _, apart⟩ := List.nodup_append.mp nd
  conv => lhs; rhs; rw [← List.take_append_drop n l]
  have ht : (l.take n).filter (fun a => f a ∉ (l.take n).map f) = [] :=
    List.filter_eq_nil_iff.mpr fun a ha => by
      rw [decide_eq_true_eq, not_not]
      exact List.mem_map_of_mem ha
  have hd : (l.drop n).filter (fun a => f a ∉ (l.take n).map f) = l.drop n :=
    List.filter_eq_self.mpr fun a ha => by
      rw [decide_eq_true_eq]
      exact fun hm => apart _ hm _ (List.mem_map_of_mem ha) rfl
  rw [List.filter_append, ht, hd, List.nil_append]

theorem rest_of_forall (h : ∀ a ∈ rows, isAfter key cursor a) : rest key cursor rows = sorted key rows :=
  List.filter_eq_self.mpr fun a ha => h a (sorted_perm.mem_iff.mp ha)

-- The rows that are left when the first `n` are taken out.
theorem sorted_removed (nd : (rows.map key).Nodup) (nf : (rows.map f).Nodup) (n : Nat) :
    sorted key (rows.filter fun a => f a ∉ ((sorted key rows).take n).map f) = (sorted key rows).drop n := by
  have nf' : ((sorted key rows).map f).Nodup := (sorted_perm.map f).nodup_iff.mpr nf
  rw [← filter_notMem_take nf' n]
  exact sorted_filter nd _

-- They come after the last one of these.
omit [DecidableEq β] in
theorem isAfter_removed (nd : (rows.map key).Nodup) (h : ((sorted key rows).take n).getLast? = some a) {b : α}
    (hb : b ∈ rows) (hf : f b ∉ ((sorted key rows).take n).map f) : isAfter key (some (key a)) b := by
  have hd : b ∈ (sorted key rows).drop n := by
    have hm : b ∈ sorted key rows := sorted_perm.mem_iff.mpr hb
    rw [← List.take_append_drop n (sorted key rows)] at hm
    exact (List.mem_append.mp hm).resolve_left fun ht => hf (List.mem_map_of_mem ht)
  have hr : rest key (some (key a)) rows = (sorted key rows).drop n := by
    rw [rest_drop nd (by rwa [rest_none]), rest_none]
  rw [← hr] at hd
  exact (List.mem_filter.mp hd).right

end Removal

end Keyset
