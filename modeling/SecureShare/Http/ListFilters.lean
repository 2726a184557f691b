import SecureShare.Delivery.Listing
import SecureShare.Go.Date
import Mathlib.Algebra.Field.Rat
import Mathlib.Algebra.Order.Ring.Unbundled.Rat

/-!
# The filters of a list request

`parseListOptions` reads the options of a list from the query of the request. A date is one
of the layout `2006-01-02`; any other value stands for no date.
-/
namespace SecureShare.Http
open Go Library
open Delivery (ListOptions Row Metadata Table listing normalizeListOptions postgresRows)

/-- The parameters by the names `page`, `page_size`, `status`, `search`, `created_from`,
`created_to`, `expires_from`, `expires_to`, `sort` and `order`. -/
inductive ListParam where
  | page | pageSize | status | search | createdFrom | createdTo | expiresFrom | expiresTo | sort
  | order
  deriving DecidableEq, Repr

/-- `strconv.Atoi` -/
def atoi (s : Text) : Option ℤ :=
  let digits := if s.head? = some '+' ∨ s.head? = some '-' then s.tail else s
  if digits = [] ∨ digits.all Char.isDigit = false then none
  else
    let n : ℤ := if s.head? = some '-' then -Decimal.number digits else Decimal.number digits
    if -2 ^ 63 ≤ n ∧ n < 2 ^ 63 then some n else none

def parsePositiveInt (value : Text) (fallback : Int64) : Int64 :=
  if value = [] then fallback
  else
    match atoi value with
    | none => fallback
    | some parsed => if parsed ≤ 0 then fallback else Int64.ofInt parsed

def parseDate (value : Text) : Option ℤ := if value = [] then none else timeParse value

/-- `query` is `r.URL.Query().Get`. -/
def parseListOptions (query : ListParam → Text) : ListOptions where
  page := parsePositiveInt (query .page) 1
  pageSize := parsePositiveInt (query .pageSize) 25
  status := query .status
  search := query .search
  createdFrom := parseDate (query .createdFrom)
  createdTo := parseDate (query .createdTo)
  expiresFrom := parseDate (query .expiresFrom)
  expiresTo := parseDate (query .expiresTo)
  sort := query .sort
  order := query .order

/-! ### What a date filter asks for -/

inductive Zone where
  | utc (capital : Bool)
  | offset (west : Bool) (hours minutes : ℕ)
  deriving DecidableEq, Repr

namespace Zone

def text : Zone → Text
  | .utc true => ['Z']
  | .utc false => ['z']
  | .offset west hours minutes =>
    (if west then '-' else '+') :: (Decimal.padded 2 hours ++ (':' :: Decimal.padded 2 minutes))

/-- Seconds east of UTC. -/
def seconds : Zone → ℤ
  | .utc _ => 0
  | .offset west hours minutes =>
    (if west then -1 else 1) * (hours * 3600 + minutes * 60)

end Zone

/-- A date-time of RFC 3339; `fraction` are the digits after the point, if there are any. -/
structure DateTime where
  date : CalendarDate
  capital : Bool
  hour : ℕ
  minute : ℕ
  second : ℕ
  fraction : Text
  zone : Zone
  year_le : date.year ≤ 9999
  hour_lt : hour < 24
  minute_lt : minute < 60
  second_le : second ≤ 60
  digits : fraction.all Char.isDigit = true
  zone_ok : ∀ west hours minutes, zone = .offset west hours minutes → hours < 24 ∧ minutes < 60

namespace DateTime

def text (x : DateTime) : Text :=
  x.date.text ++ ((if x.capital then 'T' else 't') :: (Decimal.padded 2 x.hour ++ (':' ::
    (Decimal.padded 2 x.minute ++ (':' :: (Decimal.padded 2 x.second ++
      ((if x.fraction = [] then [] else '.' :: x.fraction) ++ x.zone.text)))))))

/-- In nanoseconds. -/
def instant (x : DateTime) : ℚ :=
  x.date.midnight + ((x.hour * 3600 + x.minute * 60 + x.second - x.zone.seconds : ℤ) +
    Decimal.number x.fraction / 10 ^ x.fraction.length) * 1000000000

end DateTime

inductive DateFilter where
  | date (d : CalendarDate)
  | dateTime (x : DateTime)

namespace DateFilter

def text : DateFilter → Text
  | .date d => d.text
  | .dateTime x => x.text

/-- The timestamp, in microseconds, is not before the lower bound. -/
def From (t : ℤ) : DateFilter → Prop
  | .date d => d.midnight ≤ t * 1000
  | .dateTime x => x.instant ≤ t * 1000

/-- The timestamp is not after the upper bound; a date includes its whole day. -/
def To (t : ℤ) : DateFilter → Prop
  | .date d => t * 1000 < d.next.midnight
  | .dateTime x => t * 1000 ≤ x.instant

/-- A date of four year digits. -/
def Plain : DateFilter → Prop
  | .date d => d.year ≤ 9999
  | .dateTime _ => False

/-- The timestamp is not after the first moment of the day. -/
def Midnight (t : ℤ) : DateFilter → Prop
  | .date d => t * 1000 ≤ d.midnight
  | .dateTime _ => True

end DateFilter

structure DateFilters where
  createdFrom : Option DateFilter
  createdTo : Option DateFilter
  expiresFrom : Option DateFilter
  expiresTo : Option DateFilter

namespace DateFilters

/-- The query with these dates. -/
def query (dates : DateFilters) (others : ListParam → Text) : ListParam → Text
  | .createdFrom => (dates.createdFrom.map DateFilter.text).getD []
  | .createdTo => (dates.createdTo.map DateFilter.text).getD []
  | .expiresFrom => (dates.expiresFrom.map DateFilter.text).getD []
  | .expiresTo => (dates.expiresTo.map DateFilter.text).getD []
  | p => others p

def Supplied (dates : DateFilters) (f : DateFilter) : Prop :=
  dates.createdFrom = some f ∨ dates.createdTo = some f ∨ dates.expiresFrom = some f ∨
    dates.expiresTo = some f

/-- The row lies in the ranges that are asked for. -/
structure Admits (dates : DateFilters) (r : Row) : Prop where
  createdFrom : ∀ f ∈ dates.createdFrom, f.From r.createdAt
  createdTo : ∀ f ∈ dates.createdTo, f.To r.createdAt
  expiresFrom : ∀ f ∈ dates.expiresFrom, f.From r.expiresAt
  expiresTo : ∀ f ∈ dates.expiresTo, f.To r.expiresAt

end DateFilters

/-- The options of the request apart from its dates. -/
def otherOptions (others : ListParam → Text) : ListOptions :=
  (parseListOptions others).withoutDates

/-- No date is ignored, and the listing shows exactly the rows in the ranges. -/
structure Honoured (ilike : Text → Text → Bool) (t : Table) (others : ListParam → Text)
    (dates : DateFilters) : Prop where
  used : ∀ f, dates.Supplied f → parseDate f.text ≠ none
  listed : ∀ r ∈ t.rows, r.metadata ∈ listing ilike t (parseListOptions (dates.query others)) ↔
    (normalizeListOptions (otherOptions others)).Matches ilike r ∧ dates.Admits r

/-- Every value is a date, and no row that is asked for lies after midnight of the day of an
upper bound. -/
structure PlainDates (ilike : Text → Text → Bool) (t : Table) (others : ListParam → Text)
    (dates : DateFilters) : Prop where
  plain : ∀ f, dates.Supplied f → f.Plain
  midnight : ∀ r ∈ t.rows, (normalizeListOptions (otherOptions others)).Matches ilike r →
    dates.Admits r → (∀ f ∈ dates.createdTo, f.Midnight r.createdAt) ∧
      ∀ f ∈ dates.expiresTo, f.Midnight r.expiresAt

section
variable {ilike : Text → Text → Bool} {t : Table} {others : ListParam → Text} {dates : DateFilters}

theorem text_ne_nil (d : CalendarDate) (rest : Text) : d.text ++ rest ≠ [] := by
  simp [CalendarDate.text]

/-- Only a plain date is read. -/
theorem parseDate_text (f : DateFilter) : parseDate f.text ≠ none ↔ f.Plain := by
  cases f with
  | date d =>
    have hne := text_ne_nil d []
    have hlong := d.timeParse_text_of_lt
    have hread := d.timeParse_text
    rw [List.append_nil] at hne
    rw [DateFilter.text, parseDate, if_neg hne, DateFilter.Plain]
    by_cases hyear : d.year ≤ 9999
    · have h := hread hyear []
      rw [List.append_nil] at h
      simp [h, hyear]
    · have h := hlong (by omega) []
      rw [List.append_nil] at h
      simp [h, hyear]
  | dateTime x =>
    rw [DateFilter.text, DateTime.text, parseDate, if_neg (text_ne_nil _ _),
      x.date.timeParse_text x.year_le, if_neg (List.cons_ne_nil _ _), DateFilter.Plain]
    simp

theorem parseDate_of_plain {d : CalendarDate} (h : d.year ≤ 9999) :
    parseDate d.text = some d.midnight := by
  have hne := text_ne_nil d []
  have hread := d.timeParse_text h []
  rw [List.append_nil] at hne hread
  rw [parseDate, if_neg hne, hread, if_pos rfl]

theorem midnight_dvd (d : CalendarDate) : ∃ m, d.midnight = 1000 * m :=
  ⟨daysSinceEpoch d.year d.month d.day * 86400000000, by
    rw [CalendarDate.midnight, nanosecondsPerDay]
    ring⟩

section bound
variable {bound : Option DateFilter} {u : ℤ}

theorem lower_iff (h : ∀ f ∈ bound, f.Plain) :
    (∀ x ∈ parseDate ((bound.map DateFilter.text).getD []), x / 1000 ≤ u) ↔
      ∀ f ∈ bound, f.From u := by
  cases bound with
  | none => simp [parseDate]
  | some f =>
    cases f with
    | date d =>
      obtain ⟨m, hm⟩ := midnight_dvd d
      have hplain : d.year ≤ 9999 := h _ rfl
      simp only [Option.map_some, Option.getD_some, DateFilter.text, parseDate_of_plain hplain,
        Option.mem_def, Option.some.injEq, forall_eq', DateFilter.From, hm]
      omega
    | dateTime x => exact absurd (h _ rfl) id

theorem upper_iff (h : ∀ f ∈ bound, f.Plain) :
    (∀ x ∈ parseDate ((bound.map DateFilter.text).getD []), u ≤ x / 1000) ↔
      ∀ f ∈ bound, f.Midnight u := by
  cases bound with
  | none => simp [parseDate]
  | some f =>
    cases f with
    | date d =>
      have hplain : d.year ≤ 9999 := h _ rfl
      simp only [Option.map_some, Option.getD_some, DateFilter.text, parseDate_of_plain hplain,
        Option.mem_def, Option.some.injEq, forall_eq', DateFilter.Midnight]
      omega
    | dateTime x => exact absurd (h _ rfl) id

theorem to_of_midnight {f : DateFilter} (h : f.Plain) (hu : f.Midnight u) : f.To u := by
  cases f with
  | date d =>
    have hnext := d.midnight_next
    have hmidnight : u * 1000 ≤ d.midnight := hu
    have hday : 0 < nanosecondsPerDay := by decide
    change u * 1000 < d.next.midnight
    omega
  | dateTime x => exact absurd h id

end bound

/-- What is listed when every date is read. -/
theorem mem_listing_of_plain (hrows : t.rows.length ≤ postgresRows)
    (h : ∀ f, dates.Supplied f → f.Plain) {r : Row} (hr : r ∈ t.rows) :
    r.metadata ∈ listing ilike t (parseListOptions (dates.query others)) ↔
      (normalizeListOptions (otherOptions others)).Matches ilike r ∧
      (∀ f ∈ dates.createdFrom, f.From r.createdAt) ∧
      (∀ f ∈ dates.createdTo, f.Midnight r.createdAt) ∧
      (∀ f ∈ dates.expiresFrom, f.From r.expiresAt) ∧
      ∀ f ∈ dates.expiresTo, f.Midnight r.expiresAt := by
  rw [Delivery.mem_listing_iff hrows _ hr, Delivery.matches_iff,
    ← lower_iff fun f hf => h f (.inl hf), ← upper_iff fun f hf => h f (.inr (.inl hf)),
    ← lower_iff fun f hf => h f (.inr (.inr (.inl hf))),
    ← upper_iff fun f hf => h f (.inr (.inr (.inr hf)))]
  rfl

/-- Date filters mean what they say exactly if they are plain dates and no row that is asked
for lies later than midnight on the day of an upper bound. -/
theorem honoured_iff (hrows : t.rows.length ≤ postgresRows) :
    Honoured ilike t others dates ↔ PlainDates ilike t others dates := by
  constructor
  · intro h
    have hplain : ∀ f, dates.Supplied f → f.Plain := fun f hf => (parseDate_text f).mp (h.used f hf)
    refine ⟨hplain, fun r hr hmatches hadmits => ?_⟩
    have hlisted := (h.listed r hr).mpr ⟨hmatches, hadmits⟩
    obtain ⟨_, _, hcreated, _, hexpires⟩ := (mem_listing_of_plain hrows hplain hr).mp hlisted
    exact ⟨hcreated, hexpires⟩
  · intro h
    refine ⟨fun f hf => (parseDate_text f).mpr (h.plain f hf), fun r hr => ?_⟩
    rw [mem_listing_of_plain hrows h.plain hr]
    constructor
    · rintro ⟨hmatches, hcreatedFrom, hcreatedTo, hexpiresFrom, hexpiresTo⟩
      exact ⟨hmatches, hcreatedFrom,
        fun f hf => to_of_midnight (h.plain f (.inr (.inl hf))) (hcreatedTo f hf), hexpiresFrom,
        fun f hf => to_of_midnight (h.plain f (.inr (.inr (.inr hf)))) (hexpiresTo f hf)⟩
    · rintro ⟨hmatches, hadmits⟩
      obtain ⟨hcreated, hexpires⟩ := h.midnight r hr hmatches hadmits
      exact ⟨hmatches, hadmits.createdFrom, hcreated, hadmits.expiresFrom, hexpires⟩

end

def sampleDay : CalendarDate :=
  ⟨1970, 1, 1, Nat.one_pos, Nat.succ_le_succ (Nat.zero_le 11), Nat.one_pos, daysIn_pos 1 1970⟩

def sampleMorning : DateTime where
  date := sampleDay
  capital := true
  hour := 9
  minute := 30
  second := 0
  fraction := []
  zone := .utc true
  year_le := by decide
  hour_lt := by decide
  minute_lt := by decide
  second_le := by decide
  digits := rfl
  zone_ok := by rintro _ _ _ ⟨⟩

theorem honoured_iff_sample :
    Honoured (fun _ _ => true) Delivery.sampleListed (fun _ => [])
      ⟨some (.date sampleDay), none, none, none⟩ := by
  refine (honoured_iff (by decide +kernel)).mpr ⟨?_, fun r _ _ _ => ⟨?_, ?_⟩⟩
  · rintro f (h | h | h | h)
    · cases h
      exact (by decide : 1970 ≤ 9999)
    all_goals cases h
  all_goals
    intro f hf
    cases hf

/-- A row of the first day is not listed up to that day, and a date-time is ignored. -/
theorem whole_day_missed :
    ¬Honoured (fun _ _ => true) Delivery.sampleListed (fun _ => [])
      ⟨none, some (.date sampleDay), none, none⟩ ∧
    ¬Honoured (fun _ _ => true) Delivery.sampleListed (fun _ => [])
      ⟨some (.dateTime sampleMorning), none, none, none⟩ := by
  constructor
  · intro h
    have hr : Delivery.sampleParams.row 5 ∈ Delivery.sampleListed.rows := List.mem_cons_self
    have hplain : ∀ f, DateFilters.Supplied ⟨none, some (.date sampleDay), none, none⟩ f →
        f.Plain := by
      rintro f (hf | hf | hf | hf)
      · cases hf
      · cases hf
        exact (by decide : 1970 ≤ 9999)
      all_goals cases hf
    have hlisted := (h.listed _ hr).mpr ⟨by decide +kernel, by rintro _ ⟨⟩, by
      rintro _ ⟨⟩
      exact (by decide +kernel : (5 : ℤ) * 1000 < sampleDay.next.midnight), by rintro _ ⟨⟩,
      by rintro _ ⟨⟩⟩
    have hmidnight := ((mem_listing_of_plain (by decide +kernel) hplain hr).mp hlisted).2.2.1 _ rfl
    exact absurd hmidnight (by decide +kernel : ¬(5 : ℤ) * 1000 ≤ sampleDay.midnight)
  · intro h
    exact (parseDate_text _).mp (h.used _ (.inl rfl))

end SecureShare.Http
