import SecureShare.Delivery.Repository
import SecureShare.Library.Interleaving
import SecureShare.Library.Paging
import Mathlib.Algebra.Order.Ring.Int
import Mathlib.Data.List.Sort

/-!
# Lists of deliveries

`List` counts and reads the deliveries that pass up to six optional filters. The WHERE
clause is built together with its arguments, and a placeholder refers to an argument by
its position.
-/
namespace SecureShare.Delivery
open Go Library
open Library.Interleaving (Reply)

structure ListOptions where
  page : Int64
  pageSize : Int64
  status : Text
  search : Text
  createdFrom : Option ℤ
  createdTo : Option ℤ
  expiresFrom : Option ℤ
  expiresTo : Option ℤ
  sort : Text
  order : Text
  deriving DecidableEq, Repr

structure Metadata where
  id : UUID
  title : Text
  description : Text
  recipientReference : Text
  status : Status
  expiresAt : ℤ
  consumedAt : Option ℤ
  revokedAt : Option ℤ
  createdBy : Text
  createdAt : ℤ
  updatedAt : ℤ
  passwordProtected : Bool
  failedAttempts : ℤ
  maxFailedAttempts : ℤ
  payloadType : Text
  payloadFieldCount : ℕ
  containsSensitive : Bool
  deriving DecidableEq, Repr

/-- The SELECT list of `List`. -/
def Row.metadata (r : Row) : Metadata where
  id := r.id
  title := r.title.getD []
  description := r.description.getD []
  recipientReference := r.recipientReference.getD []
  status := r.status
  expiresAt := r.expiresAt
  consumedAt := r.consumedAt
  revokedAt := r.revokedAt
  createdBy := r.createdBy
  createdAt := r.createdAt
  updatedAt := r.updatedAt
  passwordProtected := r.passwordHash.isSome
  failedAttempts := r.failedAttempts
  maxFailedAttempts := r.maxFailedAttempts
  payloadType := r.payloadType
  payloadFieldCount := r.payloadFieldCount
  containsSensitive := r.payloadContainsSensitive

structure Pagination where
  page : Int64
  pageSize : Int64
  totalItems : ℕ
  totalPages : ℤ
  deriving DecidableEq, Repr

structure ListResult where
  items : List Metadata
  pagination : Pagination
  deriving DecidableEq, Repr

def Status.text : Status → Text
  | .active => "active".toList
  | .consuming => "consuming".toList
  | .consumed => "consumed".toList
  | .expired => "expired".toList
  | .revoked => "revoked".toList

def normalizeListOptions (opts : ListOptions) : ListOptions :=
  { opts with
    page := if opts.page ≤ 0 then 1 else opts.page
    pageSize := if opts.pageSize ∈ [10, 25, 50, 100] then opts.pageSize else 25
    status :=
      if opts.status ∈ [Status.active, .consuming, .consumed, .expired, .revoked].map Status.text then
        opts.status
      else []
    sort := if opts.sort ≠ "expires_at".toList then "created_at".toList else opts.sort
    order := if opts.order ≠ "asc".toList then "desc".toList else opts.order
    search := trimSpace opts.search }

/-! ### The WHERE clause -/

inductive TimeColumn where
  | createdAt | expiresAt
  deriving DecidableEq, Repr

def TimeColumn.value (r : Row) : TimeColumn → ℤ
  | .createdAt => r.createdAt
  | .expiresAt => r.expiresAt

/-- An argument of a query. A time is one of Go. -/
inductive Arg where
  | text (s : Text)
  | time (t : ℤ)
  | int (n : Int64)
  deriving DecidableEq, Repr

/-- A condition with the numbers of its placeholders: `1=1`, `status = $i`,
`(title ILIKE '%' || $i || '%' OR recipient_reference ILIKE '%' || $j || '%')`, `c >= $i`
and `c <= $i`. -/
inductive Clause where
  | always
  | status (i : ℕ)
  | search (i j : ℕ)
  | atLeast (c : TimeColumn) (i : ℕ)
  | atMost (c : TimeColumn) (i : ℕ)
  deriving DecidableEq, Repr

/-- A condition with its values. -/
inductive Filter where
  | always
  | status (s : Text)
  | search (s s' : Text)
  | atLeast (c : TimeColumn) (t : ℤ)
  | atMost (c : TimeColumn) (t : ℤ)
  deriving DecidableEq, Repr

/-- What `$i` stands for. -/
def placeholder (args : List Arg) : ℕ → Option Arg
  | 0 => none
  | i + 1 => args[i]?

def Arg.asText : Arg → Option Text
  | .text s => some s
  | _ => none

def Arg.asTime : Arg → Option ℤ
  | .time t => some t
  | _ => none

def Arg.asInt : Arg → Option Int64
  | .int n => some n
  | _ => none

/-- The condition with these arguments, if they have the right types. -/
def Clause.bind (args : List Arg) : Clause → Option Filter
  | .always => some .always
  | .status i => ((placeholder args i).bind Arg.asText).map .status
  | .search i j => do
    let s ← (placeholder args i).bind Arg.asText
    let s' ← (placeholder args j).bind Arg.asText
    pure (.search s s')
  | .atLeast c i => ((placeholder args i).bind Arg.asTime).map (.atLeast c)
  | .atMost c i => ((placeholder args i).bind Arg.asTime).map (.atMost c)

/-- `ilike value pattern` is the operator of the database; on NULL no pattern matches. A
time is sent in whole microseconds. -/
def Filter.Holds (ilike : Text → Text → Bool) (r : Row) : Filter → Prop
  | .always => True
  | .status s => r.status.text = s
  | .search s s' =>
    (∃ title ∈ r.title, ilike title ('%' :: s ++ ['%']) = true) ∨
      ∃ reference ∈ r.recipientReference, ilike reference ('%' :: s' ++ ['%']) = true
  | .atLeast c t => t / 1000 ≤ c.value r
  | .atMost c t => c.value r ≤ t / 1000

instance (ilike : Text → Text → Bool) (r : Row) (f : Filter) : Decidable (f.Holds ilike r) := by
  cases f <;> unfold Filter.Holds <;> infer_instance

structure Where where
  clauses : List Clause
  args : List Arg
  deriving DecidableEq, Repr

namespace Where

/-- `add` of `listWhere` -/
def add (clause : ℕ → Clause) (value : Arg) (w : Where) : Where where
  clauses := w.clauses ++ [clause (w.args.length + 1)]
  args := w.args ++ [value]

def addTime (clause : ℕ → Clause) (value : Option ℤ) (w : Where) : Where :=
  match value with
  | none => w
  | some t => w.add clause (.time t)

end Where

def listWhere (opts : ListOptions) : Where :=
  let w : Where := ⟨[.always], []⟩
  let w := if opts.status ≠ [] then w.add .status (.text opts.status) else w
  let w := if opts.search ≠ [] then w.add (fun i => .search i i) (.text opts.search) else w
  let w := w.addTime (.atLeast .createdAt) opts.createdFrom
  let w := w.addTime (.atMost .createdAt) opts.createdTo
  let w := w.addTime (.atLeast .expiresAt) opts.expiresFrom
  w.addTime (.atMost .expiresAt) opts.expiresTo

/-- The filters that the options ask for. -/
def ListOptions.filters (opts : ListOptions) : List Filter :=
  [.always] ++ (if opts.status ≠ [] then [.status opts.status] else []) ++
    (if opts.search ≠ [] then [.search opts.search opts.search] else []) ++
    (opts.createdFrom.map (.atLeast .createdAt)).toList ++
    (opts.createdTo.map (.atMost .createdAt)).toList ++
    (opts.expiresFrom.map (.atLeast .expiresAt)).toList ++
    (opts.expiresTo.map (.atMost .expiresAt)).toList

/-- Every placeholder refers to its argument, whatever arguments are added. -/
def Where.Binds (w : Where) (filters : List Filter) : Prop :=
  ∀ extra, w.clauses.mapM (Clause.bind (w.args ++ extra)) = some filters

section clauses
variable {w : Where} {filters : List Filter} {clause : ℕ → Clause} {value : Arg} {f : Filter}

theorem placeholder_append (args extra : List Arg) (value : Arg) :
    placeholder (args ++ value :: extra) (args.length + 1) = some value := by
  rw [placeholder, List.getElem?_append_right le_rfl, Nat.sub_self, List.getElem?_cons_zero]

theorem placeholder_append_second (args : List Arg) (value value' : Arg) :
    placeholder (args ++ [value, value']) (args.length + 2) = some value' := by
  have h := placeholder_append (args ++ [value]) [] value'
  rwa [List.append_assoc, List.length_append] at h

theorem Where.Binds.add (h : w.Binds filters)
    (hf : ∀ args i, placeholder args i = some value → (clause i).bind args = some f) :
    (w.add clause value).Binds (filters ++ [f]) := by
  intro extra
  have hargs : w.args ++ [value] ++ extra = w.args ++ value :: extra := by
    rw [List.append_assoc, List.singleton_append]
  rw [Where.add, hargs, List.mapM_append, h (value :: extra), List.mapM_cons,
    hf _ _ (placeholder_append w.args extra value)]
  rfl

theorem Where.Binds.addTime (h : w.Binds filters) {f : ℤ → Filter}
    (hf : ∀ args i t, placeholder args i = some (.time t) → (clause i).bind args = some (f t))
    (value : Option ℤ) : (w.addTime clause value).Binds (filters ++ (value.map f).toList) := by
  cases value with
  | none => simpa [Where.addTime] using h
  | some t => exact h.add fun args i => hf args i t

theorem Where.Binds.addIf (h : w.Binds filters) (P : Prop) [Decidable P] (clause : ℕ → Clause)
    (value : Arg) (f : Filter)
    (hf : ∀ args i, placeholder args i = some value → (clause i).bind args = some f) :
    Where.Binds (if P then w.add clause value else w) (filters ++ if P then [f] else []) := by
  split_ifs
  · exact h.add hf
  · rwa [List.append_nil]

/-- The numbers of the placeholders are right for every subset of the filters. -/
theorem binds_listWhere (opts : ListOptions) : (listWhere opts).Binds opts.filters := by
  have halways : Where.Binds ⟨[.always], []⟩ [.always] := fun _ => rfl
  have hstatus := halways.addIf (opts.status ≠ []) .status (.text opts.status)
    (.status opts.status) fun args i h => by
      rw [Clause.bind, h]
      rfl
  have hsearch := hstatus.addIf (opts.search ≠ []) (fun i => .search i i) (.text opts.search)
    (.search opts.search opts.search) fun args i h => by
      rw [Clause.bind, h]
      rfl
  have hleast : ∀ c args i t, placeholder args i = some (.time t) →
      (Clause.atLeast c i).bind args = some (.atLeast c t) := by
    intro c args i t h
    rw [Clause.bind, h]
    rfl
  have hmost : ∀ c args i t, placeholder args i = some (.time t) →
      (Clause.atMost c i).bind args = some (.atMost c t) := by
    intro c args i t h
    rw [Clause.bind, h]
    rfl
  exact (((hsearch.addTime (hleast .createdAt) opts.createdFrom).addTime (hmost .createdAt)
    opts.createdTo).addTime (hleast .expiresAt) opts.expiresFrom).addTime (hmost .expiresAt)
    opts.expiresTo

end clauses

/-! ### The queries -/

/-- `SELECT … WHERE` with these conditions. -/
def select (ilike : Text → Text → Bool) (clauses : List Clause) (args : List Arg) (t : Table) :
    Option (List Row) :=
  (clauses.mapM (Clause.bind args)).map fun filters =>
    t.rows.filter fun r => ∀ f ∈ filters, f.Holds ilike r

/-- `r` comes before `r'` in ORDER BY `c` ASC or DESC, `id` DESC. -/
def ListedBefore (c : TimeColumn) (ascending : Bool) (r r' : Row) : Prop :=
  (if ascending then c.value r < c.value r' else c.value r' < c.value r) ∨
    c.value r = c.value r' ∧ r'.id < r.id

instance (c : TimeColumn) (ascending : Bool) (r r' : Row) :
    Decidable (ListedBefore c ascending r r') := by
  unfold ListedBefore
  infer_instance

def orderBy (c : TimeColumn) (ascending : Bool) (rows : List Row) : List Row :=
  rows.mergeSort fun r r' => ¬ListedBefore c ascending r' r

/-- The query for the rows; `limit` and `offset` are the numbers of placeholders. -/
structure ListQuery where
  clauses : List Clause
  args : List Arg
  column : TimeColumn
  ascending : Bool
  limit : ℕ
  offset : ℕ
  deriving DecidableEq, Repr

def listQuery (opts : ListOptions) : ListQuery :=
  let w := listWhere opts
  let args := w.args ++ [.int opts.pageSize, .int ((opts.page - 1) * opts.pageSize)]
  { clauses := w.clauses
    args
    column := if opts.sort = "expires_at".toList then .expiresAt else .createdAt
    ascending := opts.order = "asc".toList
    limit := args.length - 1
    offset := args.length }

/-- The database refuses a negative limit or offset. -/
def ListQuery.rows (ilike : Text → Text → Bool) (q : ListQuery) (t : Table) : Option (List Row) := do
  let rows ← select ilike q.clauses q.args t
  let limit ← (placeholder q.args q.limit).bind Arg.asInt
  let offset ← (placeholder q.args q.offset).bind Arg.asInt
  if limit < 0 ∨ offset < 0 then none
  else pure (((orderBy q.column q.ascending rows).drop offset.toInt.toNat).take limit.toInt.toNat)

/-- Whether the database answers the two queries. -/
structure ListReplies where
  counted : Reply
  listed : Reply
  deriving DecidableEq, Repr

/-- `int(math.Ceil(float64(total) / float64(opts.PageSize)))` -/
def totalPages (total : ℕ) (pageSize : Int64) : ℤ :=
  if total = 0 then 0 else ⌈float64 (float64 total / float64 pageSize.toInt)⌉

/-- `Repository.List` -/
def Repository.list (ilike : Text → Text → Bool) (replies : ListReplies) (t : Table)
    (opts : ListOptions) : Option ListResult :=
  let opts := normalizeListOptions opts
  let w := listWhere opts
  if replies.counted ≠ .answered then none
  else do
    let total ← (select ilike w.clauses w.args t).map List.length
    if replies.listed ≠ .answered then none
    else do
      let rows ← (listQuery opts).rows ilike t
      pure
        { items := rows.map Row.metadata
          pagination := ⟨opts.page, opts.pageSize, total, totalPages total opts.pageSize⟩ }

/-- The row passes every filter of the options. -/
def ListOptions.Matches (ilike : Text → Text → Bool) (opts : ListOptions) (r : Row) : Prop :=
  ∀ f ∈ opts.filters, f.Holds ilike r

instance (ilike : Text → Text → Bool) (opts : ListOptions) (r : Row) :
    Decidable (opts.Matches ilike r) := by
  unfold ListOptions.Matches
  infer_instance

/-- The placeholders of both queries refer to the arguments that are meant for them. -/
structure ListOptions.Placed (opts : ListOptions) : Prop where
  counted : (listWhere opts).clauses.mapM (Clause.bind (listWhere opts).args) = some opts.filters
  listed : (listQuery opts).clauses.mapM (Clause.bind (listQuery opts).args) = some opts.filters
  limit : placeholder (listQuery opts).args (listQuery opts).limit = some (.int opts.pageSize)
  offset : placeholder (listQuery opts).args (listQuery opts).offset =
    some (.int ((opts.page - 1) * opts.pageSize))

section queries
variable {ilike : Text → Text → Bool} {t : Table} {opts : ListOptions} {c : TimeColumn}
  {ascending : Bool} {rows : List Row}

theorem placed (opts : ListOptions) : opts.Placed := by
  have hlength : (listQuery opts).args.length = (listWhere opts).args.length + 2 :=
    List.length_append
  have hlimit : (listQuery opts).limit = (listWhere opts).args.length + 1 :=
    congrArg (· - 1) hlength
  have hoffset : (listQuery opts).offset = (listWhere opts).args.length + 2 := hlength
  constructor
  · have h := binds_listWhere opts []
    rwa [List.append_nil] at h
  · exact binds_listWhere opts _
  · rw [hlimit]
    exact placeholder_append _ _ _
  · rw [hoffset]
    exact placeholder_append_second _ _ _

theorem select_of_bind {clauses : List Clause} {args : List Arg}
    (h : clauses.mapM (Clause.bind args) = some opts.filters) :
    select ilike clauses args t = some (t.rows.filter fun r => opts.Matches ilike r) := by
  rw [select, h]
  rfl

theorem listedBefore_trans {r r' r'' : Row} (h : ¬ListedBefore c ascending r' r)
    (h' : ¬ListedBefore c ascending r'' r') : ¬ListedBefore c ascending r'' r := by
  unfold ListedBefore at h h' ⊢
  simp only [BitVec.lt_def] at h h' ⊢
  cases ascending <;> simp only [if_true, Bool.false_eq_true, if_false] at h h' ⊢ <;> omega

theorem listedBefore_total (r r' : Row) :
    ¬ListedBefore c ascending r' r ∨ ¬ListedBefore c ascending r r' := by
  unfold ListedBefore
  simp only [BitVec.lt_def]
  cases ascending <;> simp only [if_true, Bool.false_eq_true, if_false] <;> omega

/-- Only a row with the same ID stands neither before nor after. -/
theorem listedBefore_of_ne {r r' : Row} (hid : r.id ≠ r'.id) (h : ¬ListedBefore c ascending r' r) :
    ListedBefore c ascending r r' := by
  have hne : r.id.toNat ≠ r'.id.toNat := fun heq => hid (BitVec.eq_of_toNat_eq heq)
  unfold ListedBefore at h ⊢
  simp only [BitVec.lt_def] at h ⊢
  cases ascending <;> simp only [if_true, Bool.false_eq_true, if_false] at h ⊢ <;> omega

theorem orderBy_perm (c : TimeColumn) (ascending : Bool) (rows : List Row) :
    (orderBy c ascending rows).Perm rows := List.mergeSort_perm rows _

theorem orderBy_sorted (hids : (rows.map Row.id).Nodup) :
    (orderBy c ascending rows).Pairwise (ListedBefore c ascending) := by
  have hsorted : (orderBy c ascending rows).Pairwise fun r r' => ¬ListedBefore c ascending r' r := by
    have h : (rows.mergeSort fun r r' => ¬ListedBefore c ascending r' r).Pairwise fun r r' =>
        decide (¬ListedBefore c ascending r' r) = true :=
      List.pairwise_mergeSort (by simpa using fun _ _ _ => listedBefore_trans)
        (by simpa using listedBefore_total) rows
    simpa [orderBy] using h
  have hne : (orderBy c ascending rows).Pairwise fun r r' => r.id ≠ r'.id := by
    rw [← List.pairwise_map]
    exact ((orderBy_perm c ascending rows).map Row.id).nodup_iff.mpr hids
  exact (hsorted.and hne).imp fun h => listedBefore_of_ne h.2 h.1

/-- The rows of one page. -/
theorem rows_listQuery (ilike : Text → Text → Bool) (t : Table)
    (hlimit : 0 ≤ opts.pageSize.toInt)
    (hoffset : 0 ≤ ((opts.page - 1) * opts.pageSize).toInt) :
    (listQuery opts).rows ilike t = some
      (((orderBy (listQuery opts).column (listQuery opts).ascending
        (t.rows.filter fun r => opts.Matches ilike r)).drop
          ((opts.page - 1) * opts.pageSize).toInt.toNat).take opts.pageSize.toInt.toNat) := by
  have hfits : ¬(opts.pageSize < 0 ∨ (opts.page - 1) * opts.pageSize < 0) := by
    rw [Int64.lt_iff_toInt_lt, Int64.lt_iff_toInt_lt, Int64.toInt_zero]
    omega
  rw [ListQuery.rows, select_of_bind (placed opts).listed, (placed opts).limit, (placed opts).offset]
  exact if_neg hfits

theorem normalize_of_allowed (hpage : 0 < opts.page.toInt)
    (hsize : opts.pageSize ∈ [10, 25, 50, 100]) :
    (normalizeListOptions opts).page = opts.page ∧
      (normalizeListOptions opts).pageSize = opts.pageSize := by
  refine ⟨if_neg ?_, if_pos hsize⟩
  rw [Int64.le_iff_toInt_le, Int64.toInt_zero]
  omega

theorem column_normalize (opts : ListOptions) :
    (listQuery (normalizeListOptions opts)).column =
      if opts.sort = "expires_at".toList then .expiresAt else .createdAt := by
  change (if (normalizeListOptions opts).sort = "expires_at".toList then TimeColumn.expiresAt
    else .createdAt) = _
  by_cases h : opts.sort = "expires_at".toList
  · rw [normalizeListOptions, if_neg (not_not.mpr h)]
  · rw [normalizeListOptions, if_pos h, if_neg h]
    exact if_neg (by decide +kernel : "created_at".toList ≠ "expires_at".toList)

theorem ascending_normalize (opts : ListOptions) :
    (listQuery (normalizeListOptions opts)).ascending = decide (opts.order = "asc".toList) := by
  change decide ((normalizeListOptions opts).order = "asc".toList) = _
  by_cases h : opts.order = "asc".toList
  · rw [normalizeListOptions, if_neg (not_not.mpr h)]
  · rw [normalizeListOptions, if_pos h, decide_eq_false h]
    exact decide_eq_false (by decide +kernel : "desc".toList ≠ "asc".toList)

theorem toInt_of_allowed {n : Int64} (h : n ∈ ([10, 25, 50, 100] : List Int64)) :
    0 < n.toInt ∧ n.toInt ≤ 100 := by
  simp only [List.mem_cons, List.not_mem_nil, or_false] at h
  rcases h with rfl | rfl | rfl | rfl <;> decide

/-- The ceiling quotient, in spite of the floating-point division. -/
theorem totalPages_eq {n : Int64} (h : n ∈ ([10, 25, 50, 100] : List Int64))
    (hrows : rows.length < 2 ^ 53) :
    totalPages rows.length n = pageCount n.toInt.toNat rows := by
  obtain ⟨hpos, hle⟩ := toInt_of_allowed h
  obtain ⟨s, hs⟩ := Int.eq_ofNat_of_zero_le hpos.le
  have hs0 : 0 < s := by omega
  rw [totalPages, hs, Int.toNat_natCast, Int.cast_natCast, pageCount]
  split_ifs with hzero
  · rw [hzero, Nat.div_eq_of_lt (by omega)]
    rfl
  · have hlength : float64 (rows.length : ℚ) = rows.length := NearestEven.round_natCast hrows
    have hsize : float64 (s : ℚ) = s := NearestEven.round_natCast (by omega)
    rw [hlength, hsize, float64, NearestEven.ceil_round_div hrows hs0, NearestEven.ceil_div hs0]

/-- The rows that all pages together show. -/
def ListOptions.listed (ilike : Text → Text → Bool) (t : Table) (opts : ListOptions) : List Row :=
  orderBy (if opts.sort = "expires_at".toList then .expiresAt else .createdAt)
    (opts.order = "asc".toList)
    (t.rows.filter fun r => (normalizeListOptions opts).Matches ilike r)

theorem toInt_offset {p n : Int64} (hpage : 0 < p.toInt) (hsize : 0 ≤ n.toInt)
    (hoffset : (p.toInt - 1) * n.toInt < 2 ^ 63) :
    ((p - 1) * n).toInt = (p.toInt - 1) * n.toInt := by
  have hone : (p - 1).toInt = p.toInt - 1 := by
    rw [Int64.toInt_sub, Int64.toInt_one]
    have hlt := p.toInt_lt
    exact Int.bmod_eq_of_le (by omega) (by omega)
  have hnonneg : 0 ≤ (p.toInt - 1) * n.toInt := Int.mul_nonneg (by omega) hsize
  rw [Int64.toInt_mul, hone]
  exact Int.bmod_eq_of_le (by omega) (by omega)

/-- The answer of `List` when the database answers. -/
theorem list_answered (ilike : Text → Text → Bool) (t : Table) (opts : ListOptions) :
    Repository.list ilike ⟨.answered, .answered⟩ t opts =
      ((listQuery (normalizeListOptions opts)).rows ilike t).map fun rows =>
        { items := rows.map Row.metadata
          pagination := ⟨(normalizeListOptions opts).page, (normalizeListOptions opts).pageSize,
            (opts.listed ilike t).length,
            totalPages (opts.listed ilike t).length (normalizeListOptions opts).pageSize⟩ } := by
  have hlength : (opts.listed ilike t).length =
      (t.rows.filter fun r => (normalizeListOptions opts).Matches ilike r).length :=
    (orderBy_perm _ _ _).length_eq
  rw [hlength, Repository.list]
  generalize normalizeListOptions opts = o
  dsimp only
  rw [select_of_bind (placed o).counted]
  cases (listQuery o).rows ilike t <;> rfl

/-- What `List` answers for a page. -/
theorem list_page (ilike : Text → Text → Bool) (t : Table)
    (hsize : opts.pageSize ∈ [10, 25, 50, 100]) (hpage : 0 < opts.page.toInt)
    (hoffset : (opts.page.toInt - 1) * opts.pageSize.toInt < 2 ^ 63) :
    Repository.list ilike ⟨.answered, .answered⟩ t opts = some
      { items := (Library.page opts.pageSize.toInt.toNat (opts.listed ilike t)
          (opts.page.toInt - 1).toNat).map Row.metadata
        pagination := ⟨opts.page, opts.pageSize, (opts.listed ilike t).length,
          totalPages (opts.listed ilike t).length opts.pageSize⟩ } := by
  obtain ⟨hpos, hle⟩ := toInt_of_allowed hsize
  obtain ⟨hp, hs⟩ := normalize_of_allowed hpage hsize
  have hmul := toInt_offset hpage hpos.le hoffset
  have hnat : ((opts.page.toInt - 1) * opts.pageSize.toInt).toNat =
      (opts.page.toInt - 1).toNat * opts.pageSize.toInt.toNat :=
    Int.toNat_mul (by omega) hpos.le
  rw [list_answered, rows_listQuery ilike t (by rw [hs]; exact hpos.le)
    (by rw [hp, hs, hmul]; exact Int.mul_nonneg (by omega) hpos.le), Option.map_some, hp, hs, hmul,
    hnat, column_normalize, ascending_normalize, ListOptions.listed, Library.page]

end queries

/-- PostgreSQL's limit for a table: 2^32 - 1 blocks, each of at most 291 rows. -/
def postgresRows : ℕ := 4294967295 * 291

/-- The items of page `n`, counted from 1. -/
def pageItems (ilike : Text → Text → Bool) (t : Table) (opts : ListOptions) (n : ℕ) : List Metadata :=
  ((Repository.list ilike ⟨.answered, .answered⟩ t { opts with page := Int64.ofNat n }).map
    ListResult.items).getD []

/-- `rows` are the matching rows in their order, cut into the pages that `List` answers. -/
structure Partition (ilike : Text → Text → Bool) (t : Table) (opts : ListOptions)
    (rows : List Row) : Prop where
  matching : rows.Perm (t.rows.filter fun r => (normalizeListOptions opts).Matches ilike r)
  sorted : rows.Pairwise (ListedBefore
    (if opts.sort = "expires_at".toList then .expiresAt else .createdAt) (opts.order = "asc".toList))
  answered : ∀ p : Int64, 0 < p.toInt → (p.toInt - 1) * opts.pageSize.toInt < 2 ^ 63 →
    ∃ items, Repository.list ilike ⟨.answered, .answered⟩ t { opts with page := p } = some
        ⟨items, ⟨p, opts.pageSize, rows.length, pageCount opts.pageSize.toInt.toNat rows⟩⟩ ∧
      (p.toInt < pageCount opts.pageSize.toInt.toNat rows →
        items.length = opts.pageSize.toInt.toNat) ∧
      (pageCount opts.pageSize.toInt.toNat rows < p.toInt → items = [])
  whole : (List.range (pageCount opts.pageSize.toInt.toNat rows)).flatMap
    (fun k => pageItems ilike t opts (k + 1)) = rows.map Row.metadata

section partition
variable {ilike : Text → Text → Bool} {t : Table} {opts : ListOptions}

theorem filters_congr {o o' : ListOptions} (hstatus : o.status = o'.status)
    (hsearch : o.search = o'.search) (hcreatedFrom : o.createdFrom = o'.createdFrom)
    (hcreatedTo : o.createdTo = o'.createdTo) (hexpiresFrom : o.expiresFrom = o'.expiresFrom)
    (hexpiresTo : o.expiresTo = o'.expiresTo) : o.filters = o'.filters := by
  rw [ListOptions.filters, ListOptions.filters, hstatus, hsearch, hcreatedFrom, hcreatedTo,
    hexpiresFrom, hexpiresTo]

/-- The page does not matter for what all pages show. -/
theorem listed_page (ilike : Text → Text → Bool) (t : Table) (opts : ListOptions) (p : Int64) :
    ListOptions.listed ilike t { opts with page := p } = opts.listed ilike t := by
  have hfilters : (normalizeListOptions { opts with page := p }).filters =
      (normalizeListOptions opts).filters := by
    apply filters_congr <;> simp only [normalizeListOptions]
  simp only [ListOptions.listed, ListOptions.Matches, hfilters]

theorem length_listed_le (ilike : Text → Text → Bool) (t : Table) (opts : ListOptions) :
    (opts.listed ilike t).length ≤ t.rows.length := by
  rw [ListOptions.listed, (orderBy_perm _ _ _).length_eq]
  exact List.length_filter_le _ _

theorem listed_sorted (ilike : Text → Text → Bool) (t : Table) (opts : ListOptions) :
    (opts.listed ilike t).Pairwise (ListedBefore
      (if opts.sort = "expires_at".toList then .expiresAt else .createdAt)
      (opts.order = "asc".toList)) :=
  orderBy_sorted (t.ids.sublist (List.filter_sublist.map _))

theorem pageItems_eq (hrows : t.rows.length ≤ postgresRows)
    (hsize : opts.pageSize ∈ [10, 25, 50, 100]) {k : ℕ}
    (hk : k < pageCount opts.pageSize.toInt.toNat (opts.listed ilike t)) :
    pageItems ilike t opts (k + 1) =
      (Library.page opts.pageSize.toInt.toNat (opts.listed ilike t) k).map Row.metadata := by
  obtain ⟨hpos, hle⟩ := toInt_of_allowed hsize
  have hsmall := pageCount_mul_lt (by omega) hk
  have hlength := length_listed_le ilike t opts
  rw [postgresRows] at hrows
  have hkle : k ≤ k * opts.pageSize.toInt.toNat := Nat.le_mul_of_pos_right k (by omega)
  have hp : (Int64.ofNat (k + 1)).toInt = k + 1 := by
    rw [Int64.toInt_ofNat_of_lt (by omega)]
    rfl
  have hoffset : (k : ℤ) * opts.pageSize.toInt < 2 ^ 63 := by
    have hcast : (k : ℤ) * opts.pageSize.toInt = (k * opts.pageSize.toInt.toNat : ℕ) := by
      push_cast
      rw [Int.toNat_of_nonneg hpos.le]
    rw [hcast]
    omega
  have hpage := @list_page { opts with page := Int64.ofNat (k + 1) } ilike t hsize
    (by rw [hp]; omega) (by rw [hp, Int.add_sub_cancel]; exact hoffset)
  rw [pageItems, hpage, hp, Int.add_sub_cancel, listed_page]
  rfl

theorem partition_listed (ilike : Text → Text → Bool) (hrows : t.rows.length ≤ postgresRows)
    (hsize : opts.pageSize ∈ [10, 25, 50, 100]) :
    Partition ilike t opts (opts.listed ilike t) where
  matching := orderBy_perm _ _ _
  sorted := listed_sorted ilike t opts
  answered := by
    intro p hpage hoffset
    have hpos : 0 < opts.pageSize.toInt.toNat := by
      have h := (toInt_of_allowed hsize).1
      omega
    have htotal : (opts.listed ilike t).length < 2 ^ 53 :=
      lt_of_le_of_lt ((length_listed_le ilike t opts).trans hrows) (by decide)
    refine ⟨(Library.page opts.pageSize.toInt.toNat (opts.listed ilike t)
      (p.toInt - 1).toNat).map Row.metadata, ?_, ?_, ?_⟩
    · rw [@list_page { opts with page := p } ilike t hsize hpage hoffset, listed_page,
        totalPages_eq hsize htotal]
    · intro hp
      rw [List.length_map]
      exact length_page_of_lt hpos (by omega)
    · intro hp
      rw [page_eq_nil hpos (by omega), List.map_nil]
  whole := by
    have hpos : 0 < opts.pageSize.toInt.toNat := by
      have h := (toInt_of_allowed hsize).1
      omega
    have hpages : ∀ k ∈ List.range (pageCount opts.pageSize.toInt.toNat (opts.listed ilike t)),
        pageItems ilike t opts (k + 1) =
          (Library.page opts.pageSize.toInt.toNat (opts.listed ilike t) k).map Row.metadata :=
      fun k hk => pageItems_eq hrows hsize (List.mem_range.mp hk)
    rw [List.flatMap_congr hpages, ← List.map_flatMap, flatMap_page_pageCount hpos]

/-- All pages one after the other, as many as the first one tells. -/
def listing (ilike : Text → Text → Bool) (t : Table) (opts : ListOptions) : List Metadata :=
  let first := Repository.list ilike ⟨.answered, .answered⟩ t { opts with page := 1 }
  (List.range (first.elim 0 fun res => res.pagination.totalPages.toNat)).flatMap
    fun k => pageItems ilike t opts (k + 1)

theorem list_congr {o : ListOptions} (h : normalizeListOptions opts = normalizeListOptions o)
    (replies : ListReplies) :
    Repository.list ilike replies t opts = Repository.list ilike replies t o := by
  rw [Repository.list, h]
  rfl

theorem pageSize_normalize (opts : ListOptions) :
    (normalizeListOptions opts).pageSize ∈ ([10, 25, 50, 100] : List Int64) := by
  by_cases h : opts.pageSize ∈ ([10, 25, 50, 100] : List Int64)
  · have hsame : (normalizeListOptions opts).pageSize = opts.pageSize := if_pos h
    rwa [hsame]
  · have hdefault : (normalizeListOptions opts).pageSize = 25 := if_neg h
    rw [hdefault]
    decide

theorem normalize_pageSize (opts : ListOptions) (p : Int64) :
    normalizeListOptions
        { opts with page := p, pageSize := (normalizeListOptions opts).pageSize } =
      normalizeListOptions { opts with page := p } := by
  have hsize := pageSize_normalize opts
  simp only [normalizeListOptions] at hsize ⊢
  simp only [ListOptions.mk.injEq, and_true, true_and]
  exact if_pos hsize

theorem listing_of_allowed (ilike : Text → Text → Bool) (hrows : t.rows.length ≤ postgresRows)
    (hsize : opts.pageSize ∈ [10, 25, 50, 100]) :
    listing ilike t opts = (opts.listed ilike t).map Row.metadata := by
  have hpartition := partition_listed ilike hrows hsize
  have hone : (1 : Int64).toInt - 1 = 0 := by decide
  obtain ⟨items, hfirst, _⟩ := hpartition.answered 1 (by decide) (by rw [hone, zero_mul]; decide)
  rw [listing, hfirst]
  exact hpartition.whole

/-- Whatever page size is asked for, all pages show the matching rows in their order. -/
theorem listing_eq (ilike : Text → Text → Bool) (hrows : t.rows.length ≤ postgresRows)
    (opts : ListOptions) : listing ilike t opts = (opts.listed ilike t).map Row.metadata := by
  have hpages : ∀ p, Repository.list ilike ⟨.answered, .answered⟩ t
      { opts with page := p, pageSize := (normalizeListOptions opts).pageSize } =
      Repository.list ilike ⟨.answered, .answered⟩ t { opts with page := p } :=
    fun p => list_congr (normalize_pageSize opts p) _
  have hlisted : ListOptions.listed ilike t
      { opts with pageSize := (normalizeListOptions opts).pageSize } = opts.listed ilike t := by
    simp only [ListOptions.listed, normalize_pageSize opts opts.page]
  have hallowed := @listing_of_allowed t
    { opts with pageSize := (normalizeListOptions opts).pageSize } ilike hrows
    (pageSize_normalize opts)
  rw [hlisted] at hallowed
  rw [← hallowed]
  simp only [listing, pageItems, hpages]

def ListOptions.withoutDates (opts : ListOptions) : ListOptions :=
  { opts with createdFrom := none, createdTo := none, expiresFrom := none, expiresTo := none }

theorem matches_iff (opts : ListOptions) (r : Row) :
    (normalizeListOptions opts).Matches ilike r ↔
      (normalizeListOptions opts.withoutDates).Matches ilike r ∧
      (∀ u ∈ opts.createdFrom, u / 1000 ≤ r.createdAt) ∧
      (∀ u ∈ opts.createdTo, r.createdAt ≤ u / 1000) ∧
      (∀ u ∈ opts.expiresFrom, u / 1000 ≤ r.expiresAt) ∧
      ∀ u ∈ opts.expiresTo, r.expiresAt ≤ u / 1000 := by
  have hdate : ∀ (u : Option ℤ) (f : ℤ → Filter), (∀ x ∈ (u.map f).toList, x.Holds ilike r) ↔
      ∀ v ∈ u, (f v).Holds ilike r := by
    intro u f
    cases u <;> simp
  simp only [ListOptions.Matches, ListOptions.filters, normalizeListOptions, ListOptions.withoutDates,
    List.forall_mem_append, hdate, Option.map_none, Option.toList_none, List.not_mem_nil,
    false_implies, implies_true, and_true, and_assoc]
  rfl

/-- The listing shows exactly the rows that pass the filters. -/
theorem mem_listing_iff (hrows : t.rows.length ≤ postgresRows) (opts : ListOptions) {r : Row}
    (hr : r ∈ t.rows) :
    r.metadata ∈ listing ilike t opts ↔ (normalizeListOptions opts).Matches ilike r := by
  have hmem : ∀ x, x ∈ opts.listed ilike t ↔
      x ∈ t.rows ∧ (normalizeListOptions opts).Matches ilike x := by
    intro x
    rw [ListOptions.listed, (orderBy_perm _ _ _).mem_iff, List.mem_filter, decide_eq_true_iff]
  rw [listing_eq ilike hrows, List.mem_map]
  constructor
  · rintro ⟨x, hx, heq⟩
    have hid : x.id = r.id := congrArg Metadata.id heq
    rw [hmem] at hx
    rw [← List.inj_on_of_nodup_map t.ids hx.1 hr hid]
    exact hx.2
  · intro h
    exact ⟨r, (hmem r).mpr ⟨hr, h⟩, rfl⟩

end partition

def sampleOptions : ListOptions :=
  ⟨1, 10, "active".toList, [], none, none, none, some 0, "expires_at".toList, "asc".toList⟩

def sampleListed : Table where
  rows := [sampleParams.row 5, { sampleParams.row 5 with id := 1, tokenHash := List.replicate 32 1 }]
  ids := by decide +kernel
  tokenHashes := by decide +kernel
  checks := by decide +kernel

end SecureShare.Delivery
