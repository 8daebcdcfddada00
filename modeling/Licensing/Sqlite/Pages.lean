import Licensing.Library.Keyset
import Licensing.Library.Machine
import Licensing.Memory.Adapter

-- The list operations of the adapters that compare the texts of timestamps, and the walk through
-- their pages.

namespace Licensing

variable {α : Type}

namespace Sqlite

-- `SELECT * FROM … WHERE … AND (created_at, id) < (?, ?) ORDER BY created_at DESC, id DESC LIMIT …`
-- for one row more than the page holds.
def queryPage (tuple : α → CursorTuple) (wb : α → Bool) (page : PageRequest) (rows : List α) : Page α :=
  let limit := (max 1 (min page.limit 500)).toNat
  let cursor := (Go.cursors.decode page.cursor).map Go.cursors.keyOf
  let found := Keyset.select (Go.cursors.keyOf ∘ tuple) wb cursor (limit + 1) rows
  let hasMore := limit < found.length
  let items := if hasMore then found.take limit else found
  { items  := items
    cursor := if hasMore then items.getLast?.elim "" (Go.cursors.encode ∘ tuple) else "" }

end Sqlite

inductive Adapter
  | goMemory
  | goSqlite
  | tsMemory

def Adapter.cursors : Adapter → Cursors
  | goMemory | goSqlite => Go.cursors
  | tsMemory            => Ts.cursors

-- The number of rows that a page holds for a limit.
def Adapter.pageSize (limit : Int) : Adapter → Nat
  | goMemory => Go.memory.limit limit
  | goSqlite => (max 1 (min limit 500)).toNat
  | tsMemory => Ts.memory.limit limit

-- Whether the adapter reads back the cursor that it writes for a row: the Go port refuses one without a time.
def Adapter.Reads (t : CursorTuple) : Adapter → Prop
  | goMemory | goSqlite => t.createdAt ≠ ""
  | tsMemory            => True

instance (adapter : Adapter) (t : CursorTuple) : Decidable (adapter.Reads t) :=
  match adapter with
  | .goMemory | .goSqlite => inferInstanceAs (Decidable (t.createdAt ≠ ""))
  | .tsMemory             => .isTrue trivial

-- A list operation for one kind of rows, with the filter as the condition that it puts on a row.
def Adapter.list (tuple : α → CursorTuple) (filter : α → Bool) (rows : List α) (page : PageRequest) :
    Adapter → Page α
  | goMemory =>
    Memory.paginate Go.memory.cursors tuple (Go.memory.limit page.limit) page.cursor (rows.filter filter)
  | goSqlite => Sqlite.queryPage tuple filter page rows
  | tsMemory =>
    Memory.paginate Ts.memory.cursors tuple (Ts.memory.limit page.limit) page.cursor (rows.filter filter)

-- No cursor is the empty text in the Go port, and null in the other one.
def Page.next? (page : Page α) : Option String :=
  if page.cursor = "" then none else some page.cursor

-- The items of all pages, if there are not more than `n` of them.
def allPages (list : PageRequest → Page α) (limit : Int) (n : Nat) : Option (List α) :=
  let fetch (cursor : Option String) :=
    let page := list { limit := limit, cursor := cursor.getD "" }
    (page.items, page.next?)
  Keyset.follow fetch n none

-- A new id, and the time of the clock or, for an entry of the audit log, what its caller tells as the time.
structure Stamp where
  tuple : CursorTuple
  id    : tuple.id ≠ ""

-- The tables that come about from an empty one when rows are created, updated and deleted.
inductive Stored (tuple : α → CursorTuple) : Table (fun row => (tuple row).id) → Prop
  | empty : Stored tuple (.ofList [] List.nodup_nil)
  | create {t} {row : α} (stored : Stored tuple t) (stamp : Stamp) (stamped : tuple row = stamp.tuple) :
    Stored tuple (t.put row)
  | update {t} {old row : α} (stored : Stored tuple t) (found : t.find (tuple old).id = some old)
    (kept : tuple row = tuple old) : Stored tuple (t.replace row)
  | delete {t} (stored : Stored tuple t) (id : String) : Stored tuple (t.erase id)

variable {tuple : α → CursorTuple}

theorem Stored.id_ne_empty {t : Table fun row => (tuple row).id} (h : Stored tuple t) :
    ∀ row ∈ t.rows, (tuple row).id ≠ "" := by
  induction h
  case empty => exact nofun
  case create row _ stamp hs ih =>
    intro r hr
    obtain rfl | hr := Table.mem_of_mem_put hr
    · exact hs ▸ stamp.id
    · exact ih r hr
  case update found kept ih =>
    intro r hr
    obtain rfl | hr := Table.mem_of_mem_replace hr
    · exact kept ▸ ih _ (Rows.mem_of_find found)
    · exact ih r hr
  case delete ih => exact fun r hr => ih r (Table.mem_of_mem_erase hr)

-- Rows whose cursors both ports read back.
def Stamped (tuple : α → CursorTuple) (rows : List α) : Prop :=
  ∀ row ∈ rows, (tuple row).createdAt ≠ "" ∧ (tuple row).id ≠ ""

-- What the adapters have in common: the rows that come after the cursor, and the cursor of the last
-- one if there are more of them.
def pageAfter (cursors : Cursors) (tuple : α → CursorTuple) (limit : Nat) (rows : List α)
    (cursor : Option Cursors.Key) : Page α :=
  let rest := Keyset.rest (cursors.keyOf ∘ tuple) cursor rows
  let items := rest.take limit
  { items  := items
    cursor := if limit < rest.length then items.getLast?.elim "" (cursors.encode ∘ tuple) else "" }

variable {cursors : Cursors} {rows : List α} {limit : Nat}

theorem Cursors.nodup_keys (nd : (rows.map fun row => (tuple row).id).Nodup) :
    (rows.map (cursors.keyOf ∘ tuple)).Nodup := by
  rw [← List.map_map, List.nodup_map_iff cursors.keyOf_injective]
  refine .of_map CursorTuple.id ?_
  rw [List.map_map]
  exact nd

theorem Memory.paginate_eq (nd : (rows.map (cursors.keyOf ∘ tuple)).Nodup) (cursor : String) :
    Memory.paginate cursors tuple limit cursor rows =
      pageAfter cursors tuple limit rows ((cursors.decode cursor).map cursors.keyOf) := by
  have desc := Keyset.descending_sorted nd
  cases hc : cursors.decode cursor with
  | none   => simp [Memory.paginate, pageAfter, hc, Keyset.rest_none, Keyset.sorted]
  | some c =>
    have hr : Keyset.rest (cursors.keyOf ∘ tuple) (some (cursors.keyOf c)) rows = _ :=
      (desc.dropWhile (cursors.keyOf c)).symm
    simp [Memory.paginate, pageAfter, hc, hr, Keyset.sorted]

theorem Sqlite.queryPage_eq {wb : α → Bool} (nd : (rows.map (Go.cursors.keyOf ∘ tuple)).Nodup)
    (page : PageRequest) : Sqlite.queryPage tuple wb page rows =
      pageAfter Go.cursors tuple (max 1 (min page.limit 500)).toNat (rows.filter wb)
        ((Go.cursors.decode page.cursor).map Go.cursors.keyOf) := by
  generalize hl : (max 1 (min page.limit 500)).toNat = limit
  simp only [Sqlite.queryPage, pageAfter, hl, Keyset.select_eq nd]
  generalize Keyset.rest _ ((Go.cursors.decode page.cursor).map Go.cursors.keyOf) _ = rest
  by_cases h : limit < rest.length
  case pos => simp [h, List.take_take]
  case neg =>
    have ht : rest.take (limit + 1) = rest.take limit := by
      rw [List.take_of_length_le (by omega), List.take_of_length_le (by omega)]
    simp [h, ht]

theorem Adapter.pageSize_pos (adapter : Adapter) (limit : Int) : 0 < adapter.pageSize limit := by
  cases adapter
  case goMemory =>
    change 0 < if limit ≤ 0 ∨ 500 < limit then 500 else limit.toNat
    split <;> omega
  all_goals
    change 0 < (max 1 (min limit 500)).toNat
    omega

-- The adapters differ in the limits only.
theorem Adapter.list_eq (adapter : Adapter) (filter : α → Bool) (limit : Int)
    (nd : (rows.map fun row => (tuple row).id).Nodup) (cursor : String) :
    adapter.list tuple filter rows { limit := limit, cursor := cursor } =
      pageAfter adapter.cursors tuple (adapter.pageSize limit) (rows.filter filter)
        ((adapter.cursors.decode cursor).map adapter.cursors.keyOf) := by
  have nd' : ((rows.filter filter).map fun row => (tuple row).id).Nodup :=
    nd.sublist (List.filter_sublist.map _)
  cases adapter
  case goMemory => exact Memory.paginate_eq (Cursors.nodup_keys nd') _
  case goSqlite => exact Sqlite.queryPage_eq (Cursors.nodup_keys nd) _
  case tsMemory => exact Memory.paginate_eq (Cursors.nodup_keys nd') _

theorem Adapter.encode_ne_empty (adapter : Adapter) (t : CursorTuple) : adapter.cursors.encode t ≠ "" := by
  cases adapter
  case goMemory | goSqlite => exact encode_cursorJson_ne Go.escape t
  case tsMemory            => exact encode_cursorJson_ne Ts.escape t

theorem Adapter.decode_encode (adapter : Adapter) {t : CursorTuple} (id : t.id ≠ "") :
    adapter.cursors.decode (adapter.cursors.encode t) = if adapter.Reads t then some t else none := by
  cases adapter
  case goMemory | goSqlite =>
    refine (Go.decodeCursor_encodeCursor_eq t).trans ?_
    by_cases h : t.createdAt = "" <;> simp [Adapter.Reads, h, id]
  case tsMemory =>
    rw [if_pos (show Adapter.tsMemory.Reads t from trivial)]
    simp only [Adapter.cursors, Ts.cursors, Ts.decodeCursor_encodeCursor]

variable {c : Option Cursors.Key}

-- The cursor of a page that is not the last one stands for its last row.
theorem cursor_pageAfter (hs : Stamped tuple rows) (hn : 0 < limit)
    (hl : limit < (Keyset.rest (cursors.keyOf ∘ tuple) c rows).length) :
    ∃ row, ((Keyset.rest (cursors.keyOf ∘ tuple) c rows).take limit).getLast? = some row ∧
      (pageAfter cursors tuple limit rows c).cursor = cursors.encode (tuple row) ∧
      cursors.decode (cursors.encode (tuple row)) = some (tuple row) := by
  obtain ⟨row, hr⟩ := Keyset.exists_getLast?_take hn hl
  have hm : row ∈ rows := by
    have hm := List.mem_of_mem_take (List.mem_of_getLast? hr)
    exact Keyset.sorted_perm.mem_iff.mp (List.mem_of_mem_filter hm)
  obtain ⟨hc, hi⟩ := hs row hm
  exact ⟨row, hr, by simp [pageAfter, hl, hr], cursors.decode_encode hc hi⟩

theorem encode_ne_empty {t : CursorTuple} (h : cursors.decode (cursors.encode t) = some t) :
    cursors.encode t ≠ "" := by
  intro he
  rw [he, cursors.decode_empty] at h
  contradiction

section Walk

variable {adapter : Adapter} {filter : α → Bool} {limit : Int} {t : Table fun row => (tuple row).id}

-- The walk through the pages ends with every row that passes the filter, once and in descending order.
def Adapter.Walks (adapter : Adapter) (tuple : α → CursorTuple) (filter : α → Bool) (rows : List α) (limit : Int) :
    Prop :=
  ∃ n items, allPages (adapter.list tuple filter rows) limit n = some items ∧ items.Perm (rows.filter filter) ∧
    items.Pairwise fun a b => adapter.cursors.keyOf (tuple b) < adapter.cursors.keyOf (tuple a)

-- A cursor that a page returns is that of its last row, and is read back as it.
def Adapter.ReadsBack (adapter : Adapter) (tuple : α → CursorTuple) (filter : α → Bool) (rows : List α)
    (limit : Int) : Prop :=
  ∀ cursor, let page := adapter.list tuple filter rows { limit := limit, cursor := cursor }
    page.cursor ≠ "" → ∃ row, page.items.getLast? = some row ∧
      page.cursor = adapter.cursors.encode (tuple row) ∧ adapter.cursors.decode page.cursor = some (tuple row)

-- The rows that pass the filter, as the pages hold them.
def Adapter.sorted (adapter : Adapter) (tuple : α → CursorTuple) (filter : α → Bool) (rows : List α) : List α :=
  Keyset.sorted (adapter.cursors.keyOf ∘ tuple) (rows.filter filter)

-- They fit on one page, or one of them at most has a cursor that is not read back.
def Adapter.FewUnread (adapter : Adapter) (tuple : α → CursorTuple) (filter : α → Bool) (rows : List α)
    (limit : Int) : Prop :=
  (rows.filter filter).length ≤ adapter.pageSize limit ∨
    ((rows.filter filter).filter fun row => ¬adapter.Reads (tuple row)).length ≤ 1

abbrev Adapter.pageKey (adapter : Adapter) (tuple : α → CursorTuple) : α → Cursors.Key :=
  adapter.cursors.keyOf ∘ tuple

theorem nodup_pageKey (t : Table fun row => (tuple row).id) :
    ((t.rows.filter filter).map (adapter.pageKey tuple)).Nodup :=
  Cursors.nodup_keys (t.nodup.sublist (List.filter_sublist.map _))

-- The walk is one that begins anew at a row whose cursor is not read back.
theorem allPages_eq (stored : Stored tuple t) (n : Nat) :
    allPages (adapter.list tuple filter t.rows) limit n =
      Keyset.follow (Keyset.pageOr (adapter.Reads <| tuple ·) (adapter.pageKey tuple) (adapter.pageSize limit)
        (t.rows.filter filter)) n none := by
  let same (cursor : String) (key : Option Cursors.Key) : Prop :=
    (adapter.cursors.decode cursor).map adapter.cursors.keyOf = key
  suffices h : ∀ cursor key, Option.Rel same cursor key → _ from
    Keyset.follow_congr h _ _ _ .none
  intro cursor key hr
  have hk : (adapter.cursors.decode (cursor.getD "")).map adapter.cursors.keyOf = key.join := by
    cases hr
    case none   => exact congrArg _ adapter.cursors.decode_empty
    case some h => exact h
  dsimp only
  rw [adapter.list_eq filter limit t.nodup, hk]
  refine ⟨rfl, ?_⟩
  let rest := Keyset.rest (adapter.pageKey tuple) key.join (t.rows.filter filter)
  by_cases hl : adapter.pageSize limit < rest.length
  case neg =>
    rw [Page.next?, Keyset.pageOr, if_neg hl, if_pos (by simp [pageAfter, hl, rest])]
    exact .none
  case pos =>
    obtain ⟨row, hr⟩ := Keyset.exists_getLast?_take (adapter.pageSize_pos limit) hl
    have hm : row ∈ t.rows := by
      have hm := List.mem_of_mem_take (List.mem_of_getLast? hr)
      exact List.mem_of_mem_filter (Keyset.sorted_perm.mem_iff.mp (List.mem_of_mem_filter hm))
    have hc : (pageAfter adapter.cursors tuple (adapter.pageSize limit) (t.rows.filter filter) key.join).cursor =
        adapter.cursors.encode (tuple row) := by
      rw [pageAfter, if_pos hl]
      exact congrArg (Option.elim · "" _) hr
    rw [Page.next?, hc, if_neg (adapter.encode_ne_empty _), Keyset.pageOr, if_pos hl, hr]
    refine .some ?_
    change (adapter.cursors.decode _).map _ =
      if adapter.Reads (tuple row) then some (adapter.pageKey tuple row) else none
    rw [adapter.decode_encode (stored.id_ne_empty row hm)]
    split <;> rfl

theorem walks_iff (stored : Stored tuple t) : adapter.Walks tuple filter t.rows limit ↔
    Keyset.Resumes (adapter.Reads <| tuple ·) (adapter.pageSize limit) (adapter.sorted tuple filter t.rows) := by
  have nd : ((t.rows.filter filter).map (adapter.pageKey tuple)).Nodup := nodup_pageKey t
  obtain ⟨ends, stuck⟩ := Keyset.follow_pageOr (adapter.Reads <| tuple ·) nd (adapter.pageSize_pos limit)
  constructor
  case mp =>
    rintro ⟨n, items, h, -⟩
    by_contra hn
    rw [allPages_eq stored, stuck hn] at h
    contradiction
  case mpr =>
    intro resumes
    exact ⟨_, _, (allPages_eq stored _).trans (ends resumes), Keyset.sorted_perm, Keyset.descending_sorted nd⟩

theorem Adapter.unread_of_lt {u v : CursorTuple} (unread : ¬adapter.Reads u)
    (lt : adapter.cursors.keyOf v < adapter.cursors.keyOf u) : ¬adapter.Reads v := by
  have empty (untimed : ¬u.createdAt ≠ "") (lt : Go.cursors.keyOf v < Go.cursors.keyOf u) : ¬v.createdAt ≠ "" := by
    rw [not_not] at untimed ⊢
    have le : Go.bytes v.createdAt ≤ Go.bytes u.createdAt := (Prod.Lex.monotone_fst _ _ lt.le :)
    rw [untimed] at le
    refine Go.bytes_injective (?_ : Go.bytes v.createdAt = [])
    cases h : Go.bytes v.createdAt
    case nil       => rfl
    case cons b bs => exact absurd (h ▸ le) (not_le.mpr (List.nil_lt_cons b bs))
  cases adapter
  case goMemory | goSqlite => exact empty unread lt
  case tsMemory            => exact absurd trivial unread

-- The last row of a page is read back if few are not.
theorem reads_of_few (few : adapter.FewUnread tuple filter t.rows limit) {l : List α}
    (sub : l.Sublist (adapter.sorted tuple filter t.rows)) (hl : adapter.pageSize limit < l.length) {a : α}
    (ha : (l.take (adapter.pageSize limit)).getLast? = some a) : adapter.Reads (tuple a) := by
  by_contra unread
  have desc : Keyset.Descending (adapter.pageKey tuple) l :=
    List.Pairwise.sublist sub (Keyset.descending_sorted (nodup_pageKey t))
  obtain ⟨b, hb, lt⟩ := desc.exists_after hl ha
  have among {r : α} (hr : r ∈ l) (unread : ¬adapter.Reads (tuple r)) :
      r ∈ (t.rows.filter filter).filter fun row => ¬adapter.Reads (tuple row) :=
    List.mem_filter.mpr ⟨Keyset.sorted_perm.mem_iff.mp (sub.subset hr), by simpa using unread⟩
  obtain fits | few := few
  case inl =>
    have := sub.length_le
    rw [Adapter.sorted, Keyset.sorted_perm.length_eq] at this
    omega
  case inr =>
    have mem_a := among (List.mem_of_mem_take (List.mem_of_getLast? ha)) unread
    have mem_b := among hb (Adapter.unread_of_lt unread lt)
    have same : a = b := by
      match h : (t.rows.filter filter).filter fun row => ¬adapter.Reads (tuple row), few with
      | [],  _ => rw [h] at mem_a; contradiction
      | [r], _ =>
        rw [h, List.mem_singleton] at mem_a mem_b
        exact mem_a.trans mem_b.symm
    exact lt.ne (same ▸ rfl)

theorem resumes_of_few (few : adapter.FewUnread tuple filter t.rows limit) :
    Keyset.Resumes (adapter.Reads <| tuple ·) (adapter.pageSize limit) (adapter.sorted tuple filter t.rows) :=
  fun _ _ more last => reads_of_few few (List.drop_sublist _ _) more last

theorem readsBack_of_few (stored : Stored tuple t) (few : adapter.FewUnread tuple filter t.rows limit) :
    adapter.ReadsBack tuple filter t.rows limit := by
  intro cursor page hc
  rw [show page = _ from adapter.list_eq filter limit t.nodup cursor] at hc ⊢
  let key := (adapter.cursors.decode cursor).map adapter.cursors.keyOf
  let rest := Keyset.rest (adapter.pageKey tuple) key (t.rows.filter filter)
  by_cases more : adapter.pageSize limit < rest.length
  case neg => simp [pageAfter, more, rest, key] at hc
  case pos =>
    obtain ⟨row, hr⟩ := Keyset.exists_getLast?_take (adapter.pageSize_pos limit) more
    have reads := reads_of_few few List.filter_sublist more hr
    have hm : row ∈ t.rows := by
      have hm := List.mem_of_mem_take (List.mem_of_getLast? hr)
      exact List.mem_of_mem_filter (Keyset.sorted_perm.mem_iff.mp (List.mem_of_mem_filter hm))
    have emitted : (pageAfter adapter.cursors tuple (adapter.pageSize limit) (t.rows.filter filter) key).cursor =
        adapter.cursors.encode (tuple row) := by
      rw [pageAfter, if_pos more]
      exact congrArg (Option.elim · "" _) hr
    refine ⟨row, hr, emitted, ?_⟩
    rw [emitted, adapter.decode_encode (stored.id_ne_empty row hm), if_pos reads]

-- A cursor leads to every place after a row that is read back.
variable (adapter filter) in
theorem exists_cursor (stored : Stored tuple t) {i : Nat}
    (start : i = 0 ∨ ∃ r, adapter.Reads (tuple r) ∧ ((adapter.sorted tuple filter t.rows).take i).getLast? = some r) :
    ∃ cursor, Keyset.rest (adapter.pageKey tuple) ((adapter.cursors.decode cursor).map adapter.cursors.keyOf)
      (t.rows.filter filter) = (adapter.sorted tuple filter t.rows).drop i := by
  have all : Keyset.rest (adapter.pageKey tuple) none (t.rows.filter filter) = adapter.sorted tuple filter t.rows :=
    Keyset.rest_none
  obtain rfl | ⟨r, reads, last⟩ := start
  case inl => exact ⟨"", by rw [adapter.cursors.decode_empty]; exact all⟩
  case inr =>
    have hm : r ∈ t.rows := by
      have hm := List.mem_of_mem_take (List.mem_of_getLast? last)
      exact List.mem_of_mem_filter (Keyset.sorted_perm.mem_iff.mp hm)
    refine ⟨adapter.cursors.encode (tuple r), ?_⟩
    rw [adapter.decode_encode (stored.id_ne_empty r hm), if_pos reads, ← all]
    exact Keyset.rest_drop (nodup_pageKey t) (all.symm ▸ last)

theorem few_of_readsBack (stored : Stored tuple t) (back : adapter.ReadsBack tuple filter t.rows limit) :
    adapter.FewUnread tuple filter t.rows limit := by
  by_contra many
  obtain ⟨more, two⟩ := not_or.mp many
  have perm : (adapter.sorted tuple filter t.rows).Perm (t.rows.filter filter) := Keyset.sorted_perm
  have split := Keyset.Descending.split (adapter.Reads <| tuple ·) (Keyset.descending_sorted (nodup_pageKey t))
    (fun a ha b hb e => List.inj_on_of_nodup_map (nodup_pageKey t) (perm.mem_iff.mp ha) (perm.mem_iff.mp hb) e)
    fun a b unread lt => Adapter.unread_of_lt unread lt
  obtain ⟨i, a, start, longer, last, unread⟩ := Keyset.exists_unread (adapter.pageSize_pos limit)
    (perm.length_eq.symm ▸ Nat.lt_of_not_le more) split ((perm.filter _).length_eq.symm ▸ Nat.lt_of_not_le two)
  replace longer : adapter.pageSize limit < ((adapter.sorted tuple filter t.rows).drop i).length := longer
  replace last : (((adapter.sorted tuple filter t.rows).drop i).take (adapter.pageSize limit)).getLast? = some a := last
  obtain ⟨cursor, rest⟩ := exists_cursor adapter filter stored start
  have hm : a ∈ t.rows := by
    have hm := List.mem_of_mem_drop (List.mem_of_mem_take (List.mem_of_getLast? last))
    exact List.mem_of_mem_filter (perm.mem_iff.mp hm)
  have page : adapter.list tuple filter t.rows { limit := limit, cursor := cursor } =
      { items  := ((adapter.sorted tuple filter t.rows).drop i).take (adapter.pageSize limit)
        cursor := adapter.cursors.encode (tuple a) } := by
    rw [adapter.list_eq filter limit t.nodup, pageAfter]
    simp only [show Keyset.rest (adapter.cursors.keyOf ∘ tuple) _ _ = _ from rest, if_pos longer, last]
    rfl
  have refused := back cursor
  simp only [page, adapter.decode_encode (stored.id_ne_empty a hm), if_neg unread] at refused
  obtain ⟨_, _, _, h⟩ := refused (adapter.encode_ne_empty _)
  contradiction

-- What a walk through the pages of a list is to do, and the cursors of its pages.
structure Adapter.Listed (adapter : Adapter) (tuple : α → CursorTuple) (filter : α → Bool) (rows : List α)
    (limit : Int) : Prop where
  walks     : adapter.Walks tuple filter rows limit
  readsBack : adapter.ReadsBack tuple filter rows limit

-- Two rows without a time, which the tables for the audit log of the Go port can hold, are too many for the cursors;
-- the walk from the first page on does not end if one of them is the last row of a page.
theorem listed_iff (stored : Stored tuple t) (adapter : Adapter) (filter : α → Bool) (limit : Int) :
    (adapter.Listed tuple filter t.rows limit ↔ adapter.FewUnread tuple filter t.rows limit) ∧
    (adapter.Walks tuple filter t.rows limit ↔
      Keyset.Resumes (adapter.Reads <| tuple ·) (adapter.pageSize limit) (adapter.sorted tuple filter t.rows)) := by
  refine ⟨⟨fun h => few_of_readsBack stored h.readsBack, fun few => ?_⟩, walks_iff stored⟩
  exact ⟨(walks_iff stored).mpr (resumes_of_few few), readsBack_of_few stored few⟩

end Walk

def sampleScope (id : String) : LicenseScope := {
  id        := id
  slug      := id
  name      := id
  meta_     := []
  createdAt := "2026-01-01T00:00:00.000000Z"
  updatedAt := "2026-01-01T00:00:00.000000Z" }

def sampleScopes : Table fun c : LicenseScope => c.id :=
  ((Table.ofList [] List.nodup_nil).put (sampleScope "a")).put (sampleScope "b")

theorem stored_sampleScopes : Stored (fun c : LicenseScope => ⟨c.createdAt, c.id⟩) sampleScopes :=
  .create (.create .empty ⟨⟨_, "a"⟩, by decide⟩ rfl) ⟨⟨_, "b"⟩, by decide⟩ rfl

-- Two scopes of the same time, on pages of one.
theorem listed_sample :
    ∃ n items, allPages (Adapter.goSqlite.list (fun c : LicenseScope => ⟨c.createdAt, c.id⟩)
      (fun _ => true) sampleScopes.rows) 1 n = some items ∧
        items.Perm [sampleScope "a", sampleScope "b"] := by
  have few : Adapter.goSqlite.FewUnread (fun c : LicenseScope => ⟨c.createdAt, c.id⟩) (fun _ => true)
      sampleScopes.rows 1 := .inr (by decide)
  obtain ⟨n, items, h, perm, -⟩ :=
    ((listed_iff stored_sampleScopes .goSqlite (fun _ => true) 1).left.mpr few).walks
  exact ⟨n, items, h, perm⟩

namespace Memory

-- The tables of a store that come about from empty ones.
structure State.Stored (s : State) : Prop where
  licenses  : Licensing.Stored (fun l : License => ⟨l.createdAt, l.id⟩) s.licenses
  scopes    : Licensing.Stored (fun c : LicenseScope => ⟨c.createdAt, c.id⟩) s.scopes
  templates : Licensing.Stored (fun t : LicenseTemplate => ⟨t.createdAt, t.id⟩) s.templates
  usages    : Licensing.Stored (fun u : LicenseUsage => ⟨u.createdAt, u.id⟩) s.usages
  keys      : Licensing.Stored (fun k : LicenseKey => ⟨k.createdAt, k.id⟩) s.keys
  audit     : Licensing.Stored (fun e : AuditLogEntry => ⟨e.occurredAt, e.id⟩) s.audit

variable {port : Port} {s : State} {ω : Env}

theorem updateLicense_stored {unique : String → String → Error} {now id : String}
    {patch : LicensePatch} (h : s.Stored) : (updateLicense unique now id patch s).2.Stored := by
  unfold updateLicense
  cases row : getLicense id s with
  | none   => exact h
  | some l =>
    simp only
    split
    case h_1 => exact h
    case h_2 =>
      have row : s.licenses.find l.id = some l := (Table.key_of_find row) ▸ row
      exact { h with licenses := h.licenses.update row rfl }

theorem updateUsage_stored {unique : String → String → Error} {now id : String}
    {patch : LicenseUsagePatch} (h : s.Stored) : (updateUsage unique now id patch s).2.Stored := by
  unfold updateUsage
  cases row : getUsage id s with
  | none   => exact h
  | some u =>
    simp only
    split
    case isTrue => exact h
    case isFalse =>
      have row : s.usages.find u.id = some u := (Table.key_of_find row) ▸ row
      exact { h with usages := h.usages.update row rfl }

theorem State.Stored.putUsage {u : LicenseUsage} (id : u.id ≠ "") (h : s.Stored) :
    State.Stored { s with usages := s.usages.put u } :=
  { h with usages := h.usages.create ⟨⟨u.createdAt, u.id⟩, id⟩ rfl }

theorem State.Stored.putAudit {e : AuditLogEntry} (id : e.id ≠ "") (h : s.Stored) :
    State.Stored { s with audit := s.audit.put e } :=
  { h with audit := h.audit.create ⟨⟨e.occurredAt, e.id⟩, id⟩ rfl }

theorem createUsage_stored {unique : String → String → Error} {input : LicenseUsageInput} (freshId : ω.freshId ≠ "")
    (h : s.Stored) : (createUsage unique ω input s).2.Stored := by
  unfold createUsage
  split
  case isTrue  => exact h
  case isFalse => exact h.putUsage freshId

-- An operation keeps the tables so if it finds a new id.
theorem Port.exec_stored {o : Op} (freshId : ω.freshId ≠ "") (h : s.Stored) : (port.exec ω o s).2.Stored := by
  cases o with
  | tx o =>
    cases o
    case updateLicense => exact updateLicense_stored h
    case createUsage   => exact createUsage_stored freshId h
    case updateUsage   => exact updateUsage_stored h
    case appendAudit   => exact h.putAudit freshId
    all_goals exact h
  | nowISO             => exact h
  | generateLicenseKey => exact h

-- Seats whose cursors are read back. They have the time of the clock, so an operation keeps them so.
abbrev State.SeatsStamped (s : State) : Prop :=
  Stamped (fun u : LicenseUsage => ⟨u.createdAt, u.id⟩) s.usages.rows

theorem updateLicense_seatsStamped {unique : String → String → Error} {now id : String}
    {patch : LicensePatch} (h : s.SeatsStamped) : (updateLicense unique now id patch s).2.SeatsStamped := by
  unfold updateLicense
  repeat' split
  all_goals exact h

theorem createUsage_seatsStamped {unique : String → String → Error} {input : LicenseUsageInput}
    (freshId : ω.freshId ≠ "") (clock : ω.clock ≠ "") (h : s.SeatsStamped) :
    (createUsage unique ω input s).2.SeatsStamped := by
  unfold createUsage
  split
  case isTrue  => exact h
  case isFalse =>
    intro u hu
    obtain rfl | hu := Table.mem_of_mem_put hu
    · exact ⟨clock, freshId⟩
    · exact h u hu

theorem updateUsage_seatsStamped {unique : String → String → Error} {now id : String}
    {patch : LicenseUsagePatch} (h : s.SeatsStamped) : (updateUsage unique now id patch s).2.SeatsStamped := by
  unfold updateUsage
  cases row : getUsage id s with
  | none   => exact h
  | some u =>
    simp only
    split
    case isTrue  => exact h
    case isFalse =>
      intro v hv
      obtain rfl | hv := Table.mem_of_mem_replace hv
      · exact h u (Rows.mem_of_find row)
      · exact h v hv

theorem Port.exec_seatsStamped {o : Op} (freshId : ω.freshId ≠ "") (clock : ω.clock ≠ "") (h : s.SeatsStamped) :
    (port.exec ω o s).2.SeatsStamped := by
  cases o with
  | tx o =>
    cases o
    case updateLicense => exact updateLicense_seatsStamped h
    case createUsage   => exact createUsage_seatsStamped freshId clock h
    case updateUsage   => exact updateUsage_seatsStamped h
    all_goals exact h
  | nowISO             => exact h
  | generateLicenseKey => exact h

theorem State.stored_empty : State.Stored {} :=
  ⟨.empty, .empty, .empty, .empty, .empty, .empty⟩

-- So are the tables of every state that operations lead to, one after the other.
theorem Port.always_stored {calls : List (Env × Op)}
    (given : ∀ c ∈ calls, c.1.freshId ≠ "" ∧ c.1.clock ≠ "") :
    Machine.Always (fun s c => (port.exec c.1 c.2 s).2) (fun s => s.Stored ∧ s.SeatsStamped) {} calls := by
  apply Machine.Each.always (c := fun _ c => c.1.freshId ≠ "" ∧ c.1.clock ≠ "")
  case h =>
    intro s c kept fresh
    exact ⟨exec_stored fresh.left kept.left, exec_seatsStamped fresh.left fresh.right kept.right⟩
  case hs => exact ⟨State.stored_empty, fun _ h => absurd h List.not_mem_nil⟩
  case he => exact Machine.each_iff.mpr fun n h => given _ (List.getElem_mem h)

-- An entry whose caller tells no time, like two of them in a store that was empty.
def untimed : AuditLogInput where
  licenseId  := none
  scopeId    := none
  actor      := "system"
  event      := "custom"
  priorState := none
  newState   := none
  occurredAt := ""

def untimedState : State :=
  (Go.memory.exec { freshId := "b" } (.tx (.appendAudit untimed))
    (Go.memory.exec { freshId := "a" } (.tx (.appendAudit untimed)) {}).2).2

theorem not_listed : untimedState.Stored ∧ ¬Adapter.goMemory.Listed (fun e : AuditLogEntry => ⟨e.occurredAt, e.id⟩)
    (fun _ => true) untimedState.audit.rows 1 := by
  have stored : untimedState.Stored :=
    Port.exec_stored (by decide) (Port.exec_stored (by decide) State.stored_empty)
  refine ⟨stored, fun listed => ?_⟩
  obtain few | few := few_of_readsBack stored.audit listed.readsBack
  · exact absurd few (by decide)
  · exact absurd few (by decide)

end Memory

end Licensing
