import AsterForge.Library.Text
import Mathlib.Algebra.Order.Ring.Int
import Mathlib.Data.Prod.Lex

/-!
# Reading the audit log page by page

A page holds the newest rows that match and lie beyond the cursor; one row more is fetched to tell whether
there is a further page.  The cursor of the next page is the place of the last row.

* **`audit_log_walk`** — a walk from page to page misses no row and repeats none, also while rows come and
  go between the pages.
-/

namespace AsterForge.Db

open Library List Option

structure AuditLogRow where
  id : ℤ
  userId : ℤ
  action : Text
  entityType : Text
  entityId : Option ℤ
  createdAt : ℤ
  deriving DecidableEq

structure AuditLogQuery where
  userId : Option ℤ
  action : Option Text
  entityType : Option Text
  entityId : Option ℤ
  after : Option ℤ
  before : Option ℤ
  limit : ℕ
  cursor : Option (ℤ × ℤ)

structure AuditLogTable where
  rows : List AuditLogRow
  nodup_id : (rows.map AuditLogRow.id).Nodup

structure AuditLogCursorSlice where
  items : List AuditLogRow
  total : ℕ
  hasMore : Bool

/-- The limit is clamped, so no conversion of a length fails. -/
def AuditLogCursorSlice.fromOverfetch (items : List AuditLogRow) (total limit : ℕ) :
    AuditLogCursorSlice :=
  let hasMore := decide (limit < items.length)
  ⟨if hasMore then items.take limit else items, total, hasMore⟩

/-- The place of a row in the order of the pages. -/
def AuditLogRow.place (row : AuditLogRow) : ℤ ×ₗ ℤ := toLex (row.createdAt, row.id)

def newestFirst (left right : AuditLogRow) : Prop := right.place ≤ left.place
  deriving Decidable

def beyondCursor (cursor : Option (ℤ × ℤ)) (row : AuditLogRow) : Bool :=
  cursor.all fun (createdAt, id) =>
    row.createdAt < createdAt || (row.createdAt = createdAt && row.id < id)

def pageLimit (limit : ℕ) : ℕ := min (max limit 1) 200

section

-- the database's comparison of texts
variable (sameText : Text → Text → Bool)

def AuditLogQuery.filters (query : AuditLogQuery) (row : AuditLogRow) : Bool :=
  query.userId.all (row.userId = ·) && query.action.all (sameText row.action) &&
    query.entityType.all (sameText row.entityType) && query.entityId.all (row.entityId = some ·) &&
    query.after.all (· ≤ row.createdAt) && query.before.all (row.createdAt ≤ ·)

def AuditLogQuery.matching (query : AuditLogQuery) (table : AuditLogTable) : List AuditLogRow :=
  table.rows.filter (query.filters sameText)

/-- The rows that a query without a limit gives. -/
def AuditLogQuery.ordered (query : AuditLogQuery) (table : AuditLogTable) : List AuditLogRow :=
  ((query.matching sameText table).filter (beyondCursor query.cursor)).insertionSort newestFirst

def findAuditLogsWithFiltersCursor (query : AuditLogQuery) (table : AuditLogTable) :
    AuditLogCursorSlice :=
  let limit := pageLimit query.limit
  .fromOverfetch ((query.ordered sameText table).take (limit + 1))
    (query.matching sameText table).length limit

def AuditLogCursorSlice.nextCursor (slice : AuditLogCursorSlice) : Option (ℤ × ℤ) :=
  slice.items.getLast?.map fun row => (row.createdAt, row.id)

/-- The pages of a walk: each visit finds the table as it is then, and asks with a limit of its own. -/
def walk (query : AuditLogQuery) : Option (ℤ × ℤ) → List (AuditLogTable × ℕ) → List AuditLogCursorSlice
  | _, [] => []
  | cursor, (table, limit) :: visits =>
    let slice := findAuditLogsWithFiltersCursor sameText { query with limit, cursor } table
    slice :: if slice.hasMore then walk query slice.nextCursor visits else []

def Ended (slices : List AuditLogCursorSlice) : Prop := ∃ slice ∈ slices.getLast?, slice.hasMore = false

def collected (slices : List AuditLogCursorSlice) : List AuditLogRow :=
  slices.flatMap AuditLogCursorSlice.items

variable {sameText} {query : AuditLogQuery} {t : AuditLogTable} {row : AuditLogRow}
  {cr : Option (ℤ × ℤ)} {visits : List (AuditLogTable × ℕ)}

/-! ## One page -/

/-- The row comes after the cursor. -/
def Beyond (cursor : Option (ℤ × ℤ)) (row : AuditLogRow) : Prop := ∀ c ∈ cursor, row.place < toLex c

lemma beyondCursor_iff : beyondCursor cr row = true ↔ Beyond cr row := by
  cases cr with
  | none => simp [beyondCursor, Beyond]
  | some c => simp [beyondCursor, Beyond, AuditLogRow.place, Prod.Lex.lt_iff]

lemma place_injOn : ∀ a ∈ t.rows, ∀ b ∈ t.rows, a.place = b.place → a = b := by
  intro a ha b hb h
  refine inj_on_of_nodup_map t.nodup_id ha hb ?_
  exact congrArg (fun p => (ofLex p).2) h

lemma mem_ordered : row ∈ query.ordered sameText t ↔
    row ∈ query.matching sameText t ∧ Beyond query.cursor row := by
  rw [AuditLogQuery.ordered, mem_insertionSort, mem_filter, beyondCursor_iff]

lemma ordered_pairwise : (query.ordered sameText t).Pairwise fun a b => b.place < a.place := by
  have hsub : (query.matching sameText t).filter (beyondCursor query.cursor) <+ t.rows :=
    filter_sublist.trans filter_sublist
  have hnodup : (query.ordered sameText t).Nodup :=
    (perm_insertionSort _ _).nodup_iff.mpr (hsub.nodup (Nodup.of_map _ t.nodup_id))
  have : Std.Total newestFirst := ⟨fun a b => le_total b.place a.place⟩
  have : IsTrans AuditLogRow newestFirst := ⟨fun _ _ _ h h' => le_trans h' h⟩
  have hsorted : (query.ordered sameText t).Pairwise newestFirst := pairwise_insertionSort _ _
  refine (hsorted.and hnodup).imp_of_mem ?_
  rintro a b ha hb ⟨hle, hne⟩
  have hrow : ∀ {r}, r ∈ query.ordered sameText t → r ∈ t.rows := fun hr =>
    (mem_filter.mp (mem_ordered.mp hr).1).1
  exact lt_of_le_of_ne hle fun h => hne (place_injOn a (hrow ha) b (hrow hb) h.symm)

lemma pageLimit_pos (limit : ℕ) : 0 < pageLimit limit := by
  unfold pageLimit
  omega

lemma find_items : (findAuditLogsWithFiltersCursor sameText query t).items =
    (query.ordered sameText t).take (pageLimit query.limit) := by
  simp only [findAuditLogsWithFiltersCursor, AuditLogCursorSlice.fromOverfetch, length_take,
    decide_eq_true_eq]
  split
  · rw [take_take, min_eq_left (Nat.le_succ _)]
  · rw [take_of_length_le (by omega), take_of_length_le (by omega)]

lemma find_hasMore : (findAuditLogsWithFiltersCursor sameText query t).hasMore = true ↔
    pageLimit query.limit < (query.ordered sameText t).length := by
  simp only [findAuditLogsWithFiltersCursor, AuditLogCursorSlice.fromOverfetch, length_take,
    decide_eq_true_eq]
  omega

variable {slice : AuditLogCursorSlice}

/-- What the rows of a page and the cursor after it are. -/
lemma find_spec (h : findAuditLogsWithFiltersCursor sameText query t = slice) :
    slice.items.Pairwise (fun a b => b.place < a.place) ∧
      (∀ r ∈ slice.items, r ∈ query.matching sameText t ∧ Beyond query.cursor r) ∧
      (slice.hasMore = false → ∀ r ∈ query.ordered sameText t, r ∈ slice.items) ∧
      (slice.hasMore = true → slice.items.length = pageLimit query.limit ∧
        ∃ last ∈ slice.items, slice.nextCursor = some (last.createdAt, last.id) ∧
          (∀ r ∈ slice.items, last.place ≤ r.place) ∧
          ∀ r ∈ query.ordered sameText t, r ∈ slice.items ∨ r.place < last.place) := by
  subst h
  have hsplit := take_append_drop (pageLimit query.limit) (query.ordered sameText t)
  have hpairs := @ordered_pairwise sameText query t
  rw [← hsplit, pairwise_append] at hpairs
  rw [← find_items] at hpairs hsplit
  have hmem : ∀ {r}, r ∈ query.ordered sameText t →
      r ∈ (findAuditLogsWithFiltersCursor sameText query t).items ∨
        r ∈ (query.ordered sameText t).drop (pageLimit query.limit) := fun hr =>
    mem_append.mp (by rwa [hsplit])
  refine ⟨hpairs.1, fun r hr => mem_ordered.mp ?_, ?_, ?_⟩
  · rw [← hsplit]
    exact mem_append_left _ hr
  · intro hend r hr
    refine (hmem hr).resolve_right fun hdrop => ?_
    rw [← Bool.not_eq_true, find_hasMore, not_lt] at hend
    simp [drop_of_length_le hend] at hdrop
  · intro hmore
    have hlong := find_hasMore.mp hmore
    have hlen : (findAuditLogsWithFiltersCursor sameText query t).items.length = pageLimit query.limit := by
      rw [find_items, length_take, min_eq_left hlong.le]
    have hne : (findAuditLogsWithFiltersCursor sameText query t).items ≠ [] :=
      length_pos_iff.mp (hlen ▸ pageLimit_pos _)
    refine ⟨hlen, _, getLast_mem hne, ?_, ?_, ?_⟩
    · rw [AuditLogCursorSlice.nextCursor, getLast?_eq_some_getLast hne, map_some]
    · intro r hr
      have hinit := dropLast_append_getLast hne
      have hpw := hpairs.1
      rw [← hinit] at hr
      rcases mem_append.mp hr with hr | hr
      · rw [← hinit, pairwise_append] at hpw
        exact (hpw.2.2 r hr _ (mem_singleton_self _)).le
      · rw [mem_singleton.mp hr]
    · intro r hr
      exact (hmem hr).imp_right fun hr => hpairs.2.2 _ (getLast_mem hne) r hr

/-! ## A walk -/

lemma ended_cons {slices : List AuditLogCursorSlice}
    (h : slice.hasMore = true) (hend : Ended (slice :: slices)) : Ended slices := by
  obtain ⟨l, hl, hmore⟩ := hend
  cases slices with
  | nil =>
    cases hl
    simp [h] at hmore
  | cons s slices => exact ⟨l, by simpa using hl, hmore⟩

variable (cursor : Option (ℤ × ℤ))

/-- **A walk**: its rows descend from the cursor on, and none that stays is missed. -/
theorem walk_spec (vs : List (AuditLogTable × ℕ)) :
    (collected (walk sameText query cursor vs)).Pairwise (fun a b => b.place < a.place) ∧
      (∀ r ∈ collected (walk sameText query cursor vs), Beyond cursor r ∧
        ∃ v ∈ vs, r ∈ query.matching sameText v.1) ∧
      (Ended (walk sameText query cursor vs) → ∀ r, Beyond cursor r →
        (∀ v ∈ vs.take (walk sameText query cursor vs).length,
          r ∈ query.matching sameText v.1) → r ∈ collected (walk sameText query cursor vs)) := by
  induction vs generalizing cursor with
  | nil =>
    refine ⟨Pairwise.nil, by simp [walk, collected], ?_⟩
    rintro ⟨_, h, -⟩
    simp [walk] at h
  | cons visit vs ih =>
    obtain ⟨t, limit⟩ := visit
    cases hfind : findAuditLogsWithFiltersCursor sameText { query with limit, cursor } t with
    | mk items total hasMore =>
    obtain ⟨hpw, hrows, hall, hmore⟩ := find_spec hfind
    simp only [walk, hfind, collected, flatMap_cons, length_cons, take_succ_cons, forall_mem_cons]
    cases hasMore with
    | false =>
      refine ⟨by simpa using hpw, ?_, ?_⟩
      · intro r hr
        obtain ⟨hm, hb⟩ := hrows r (by simpa using hr)
        exact ⟨hb, _, mem_cons_self, hm⟩
      · rintro - r hb ⟨hm, -⟩
        simpa using hall rfl r (mem_ordered.mpr ⟨hm, hb⟩)
    | true =>
      obtain ⟨-, last, hlast, hnext, hleast, hrest⟩ := hmore rfl
      obtain ⟨hpw', hrows', hall'⟩ := ih (some (last.createdAt, last.id))
      have hbelow : ∀ {r}, Beyond (some (last.createdAt, last.id)) r ↔ r.place < last.place := by
        simp [Beyond, AuditLogRow.place]
      simp only [if_true, hnext]
      refine ⟨pairwise_append.mpr ⟨hpw, hpw', ?_⟩, ?_, ?_⟩
      · intro a ha b hb
        exact (hbelow.mp (hrows' b hb).1).trans_le (hleast a ha)
      · intro r hr
        rcases mem_append.mp hr with hr | hr
        · exact ⟨(hrows r hr).2, _, mem_cons_self, (hrows r hr).1⟩
        · obtain ⟨hb, v, hv, hm⟩ := hrows' r hr
          refine ⟨fun c hc => ?_, v, mem_cons_of_mem _ hv, hm⟩
          exact (hbelow.mp hb).trans ((hrows last hlast).2 c hc)
      · rintro hend r hb ⟨hm, hstays⟩
        refine mem_append.mpr ((hrest r (mem_ordered.mpr ⟨hm, hb⟩)).imp_right fun hlt => ?_)
        exact hall' (ended_cons rfl hend) r (hbelow.mpr hlt) hstays

lemma walk_pages (v : List (AuditLogTable × ℕ)) : (∀ p ∈ (walk sameText query cursor v).zip v,
      p.1.total = (query.matching sameText p.2.1).length) ∧
    (∀ p ∈ ((walk sameText query cursor v).zip v).dropLast, p.1.items.length = pageLimit p.2.2) ∧
    (walk sameText query cursor v).length ≤ v.length ∧
    (Ended (walk sameText query cursor v) ∨
      v.length ≤ (collected (walk sameText query cursor v)).length) := by
  induction v generalizing cursor with
  | nil => simp [walk]
  | cons visit v ih =>
    obtain ⟨t, limit⟩ := visit
    have htotal : (findAuditLogsWithFiltersCursor sameText { query with limit, cursor } t).total =
        (query.matching sameText t).length := rfl
    cases hfind : findAuditLogsWithFiltersCursor sameText { query with limit, cursor } t with
    | mk items total hasMore =>
    obtain ⟨-, -, -, hmore⟩ := find_spec hfind
    rw [hfind] at htotal
    simp only [walk, hfind, zip_cons_cons, collected, flatMap_cons, forall_mem_cons]
    cases hasMore with
    | false => exact ⟨⟨htotal, by simp⟩, by simp, by simp, .inl ⟨_, rfl, rfl⟩⟩
    | true =>
      obtain ⟨hlen, -⟩ := hmore rfl
      obtain ⟨htot, hfull, hle, hend⟩ :=
        ih (AuditLogCursorSlice.nextCursor ⟨items, total, true⟩)
      simp only [if_true]
      refine ⟨⟨htotal, htot⟩, ?_, by simpa using hle, ?_⟩
      · intro p hp
        cases hz : (walk sameText query (AuditLogCursorSlice.nextCursor ⟨items, total, true⟩) v).zip v with
        | nil => simp [hz] at hp
        | cons z zs =>
          rw [hz, dropLast_cons_cons] at hp
          rcases mem_cons.mp hp with rfl | hp
          · exact hlen
          · exact hfull p (hz ▸ hp)
      · rcases hend with ⟨l, hl, hmore⟩ | hlong
        · refine .inl ⟨l, ?_, hmore⟩
          rw [mem_def, getLast?_cons, mem_def.mp hl, getD_some]
        · have hpos := pageLimit_pos limit
          right
          simp only [length_append, length_cons]
          have hitems : items.length = pageLimit limit := hlen
          change v.length ≤ (flatMap _ _).length at hlong
          omega

lemma nodup_of_descending {rows : List AuditLogRow}
    (h : rows.Pairwise fun a b => b.place < a.place) : rows.Nodup :=
  h.imp fun hlt heq => hlt.ne (congrArg AuditLogRow.place heq.symm)

lemma nodup_matching : (query.matching sameText t).Nodup :=
  (Nodup.of_map _ t.nodup_id).filter _

end

/-- **Walking the audit log.**  On a table that does not change, the walk ends, its pages but the last are
full, and it gives the matching rows, newest first.  While the table changes, no row comes twice, and the
matching rows that stay come once. -/
theorem audit_log_walk (sameText : Text → Text → Bool) (query : AuditLogQuery) :
    (∀ (table : AuditLogTable) (limits : List ℕ),
      let matching := query.matching sameText table
      let slices := walk sameText query none (limits.map fun limit => (table, limit))
      (matching.length < limits.length → Ended slices) ∧ (∀ slice ∈ slices, slice.total = matching.length) ∧
        (∀ p ∈ (slices.zip limits).dropLast, p.1.items.length = pageLimit p.2) ∧
        (Ended slices → (collected slices).Perm matching) ∧
        (collected slices).Pairwise fun a b => b.place < a.place) ∧
    ∀ visits : List (AuditLogTable × ℕ),
      let slices := walk sameText query none visits
      (collected slices).Nodup ∧ (Ended slices → ∀ row,
          (∀ visit ∈ visits.take slices.length, row ∈ query.matching sameText visit.1) →
            (collected slices).count row = 1) := by
  refine ⟨fun table limits => ?_, fun visits => ?_⟩
  · obtain ⟨hpw, hrows, hall⟩ := @walk_spec sameText query none (limits.map fun limit => (table, limit))
    obtain ⟨htotal, hfull, hlen, hend⟩ := @walk_pages sameText query none
      (limits.map fun limit => (table, limit))
    have hnodup := nodup_of_descending hpw
    have hsub : collected (walk sameText query none (limits.map fun limit => (table, limit))) ⊆
        query.matching sameText table := by
      intro r hr
      obtain ⟨-, v, hv, hm⟩ := hrows r hr
      obtain ⟨l, -, rfl⟩ := mem_map.mp hv
      exact hm
    rw [zip_map_right] at htotal hfull
    refine ⟨fun hlong => ?_, fun slice hs => ?_, fun p hp => ?_, fun hended => ?_, hpw⟩
    · refine hend.resolve_right fun hle => ?_
      have hcount := (subperm_of_subset hnodup hsub).length_le
      rw [length_map] at hle
      omega
    · obtain ⟨i, hi, rfl⟩ := getElem_of_mem hs
      rw [length_map] at hlen
      refine htotal (_, table, limits[i]) (mem_map.mpr ⟨(_, limits[i]), ?_, rfl⟩)
      rw [← getElem_zip (h := by rw [length_zip]; omega)]
      exact getElem_mem _
    · refine hfull (p.1, table, p.2) ?_
      rw [← map_dropLast]
      exact mem_map.mpr ⟨p, hp, rfl⟩
    · refine (perm_ext_iff_of_nodup hnodup nodup_matching).mpr fun r => ⟨fun hr => hsub hr, ?_⟩
      intro hm
      refine hall hended r (fun c hc => nomatch hc) ?_
      rintro v hv
      obtain ⟨l, -, rfl⟩ := mem_map.mp (mem_of_mem_take hv)
      exact hm
  · obtain ⟨hpw, -, hall⟩ := @walk_spec sameText query none visits
    have hnodup := nodup_of_descending hpw
    refine ⟨hnodup, fun hended r hstays => ?_⟩
    exact count_eq_one_of_mem hnodup (hall hended r (fun c hc => nomatch hc) hstays)

end AsterForge.Db
