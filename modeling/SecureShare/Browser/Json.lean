import SecureShare.Library.JsonValue
import Mathlib.Data.List.Sort

/-!
# JSON in the browser

`JSON.parse` rounds every number to double precision and sets the properties of an object one
after the other. `JSON.stringify` writes the values that came out, numbers as
`Number.prototype.toString` has them and what is not finite as null. So a text that went through
both denotes the same value up to its numbers, and going through them again changes nothing.
-/
namespace SecureShare.Browser
open Library.Json Library.Binary64

/-- How numbers are printed: a decimal with as few digits as possible among those that are
rounded to the number. -/
structure NumberFormat where
  literal : ℚ → Number
  rounds : ∀ {n : Number} {x : ℚ}, double n.value = .finite x →
    double (literal x).value = .finite x
  shortest : ∀ {n : Number} {x : ℚ} {k : ℕ}, double n.value = .finite x → IsDecimal k n.value →
    IsDecimal k (literal x).value

/-- A value that `JSON.parse` returns, with the properties of an object in their order. -/
abbrev JSValue := Document Double

section properties
variable {β : Type}

/-- A property that is there already keeps its place. -/
@[grind =] def setProperty : List (Units × β) → Units × β → List (Units × β)
  | [], m => [m]
  | x :: xs, m => if x.1 = m.1 then m :: xs else x :: setProperty xs m

/-- The properties in the order in which they were created. -/
def createProperties (ms : List (Units × β)) : List (Units × β) := ms.foldl setProperty []

/-- The number of a name that is an array index. -/
def arrayIndex (k : Units) : Option ℕ :=
  let n := k.foldl (fun n u => n * 10 + (u.toNat - 48)) 0
  if k ≠ [] ∧ (k.all fun u => 48 ≤ u.toNat && u.toNat ≤ 57) = true ∧
      (k.head? = some 48 → k.length = 1) ∧ n < 2 ^ 32 - 1 then some n
  else none

/-- Array indices come first, in ascending order. -/
def orderProperties (ms : List (Units × β)) : List (Units × β) :=
  (ms.filter fun m => (arrayIndex m.1).isSome).insertionSort
      (fun m m' => (arrayIndex m.1).getD 0 ≤ (arrayIndex m'.1).getD 0) ++
    ms.filter fun m => !(arrayIndex m.1).isSome

variable {ms : List (Units × β)}

theorem lookup_setProperty (ms : List (Units × β)) (m : Units × β) (k : Units) :
    (setProperty ms m).lookup k = if k = m.1 then some m.2 else ms.lookup k := by
  induction ms with
  | nil => rw [setProperty, lookup_cons]
  | cons x xs ih =>
      rw [setProperty]
      split_ifs with hx hk hk
      · rw [lookup_cons, if_pos hk]
      · rw [lookup_cons, lookup_cons, if_neg hk, if_neg (hx ▸ hk)]
      · rw [lookup_cons, ih, if_pos hk, if_neg fun h => hx (h.symm.trans hk)]
      · rw [lookup_cons, lookup_cons, ih, if_neg hk]

/-- The last of the members with one name sets the value of the property. -/
theorem lookup_createProperties (ms : List (Units × β)) (k : Units) :
    (createProperties ms).lookup k = lookupLast ms k := by
  induction ms using List.reverseRecOn with
  | nil => rfl
  | append_singleton ms m ih =>
      rw [createProperties, List.foldl_append, List.foldl_cons, List.foldl_nil, lookup_setProperty,
        lookupLast_append, ← createProperties, ih]

theorem mem_names_setProperty {m : Units × β} {k : Units}
    (h : k ∈ (setProperty ms m).map Prod.fst) : k = m.1 ∨ k ∈ ms.map Prod.fst := by
  induction ms with
  | nil => exact .inl (List.mem_singleton.mp h)
  | cons x xs ih =>
      rw [setProperty] at h
      split_ifs at h with hx
      · exact (List.mem_cons.mp h).imp_right (List.mem_cons_of_mem _)
      · rcases List.mem_cons.mp h with rfl | h
        · exact .inr List.mem_cons_self
        · exact (ih h).imp_right (List.mem_cons_of_mem _)

theorem nodup_setProperty (h : (ms.map Prod.fst).Nodup) (m : Units × β) :
    ((setProperty ms m).map Prod.fst).Nodup := by
  induction ms with
  | nil => exact List.nodup_singleton _
  | cons x xs ih =>
      obtain ⟨hx, hxs⟩ := List.nodup_cons.mp h
      rw [setProperty]
      split_ifs with hname
      · exact List.nodup_cons.mpr ⟨hname ▸ hx, hxs⟩
      · refine List.nodup_cons.mpr ⟨fun hmem => ?_, ih hxs⟩
        rcases mem_names_setProperty hmem with heq | hmem
        · exact hname heq
        · exact hx hmem

theorem nodup_createProperties (ms : List (Units × β)) :
    ((createProperties ms).map Prod.fst).Nodup := by
  induction ms using List.reverseRecOn with
  | nil => exact List.nodup_nil
  | append_singleton ms m ih =>
      rw [createProperties, List.foldl_append]
      exact nodup_setProperty ih m

theorem orderProperties_perm (ms : List (Units × β)) : (orderProperties ms).Perm ms := by
  refine ((List.perm_insertionSort _ _).append_right _).trans ?_
  exact List.filter_append_perm _ ms

/-- An object of the language and the object of the text agree on every name. -/
theorem lookupLast_properties (ms : List (Units × β)) (k : Units) :
    lookupLast (orderProperties (createProperties ms)) k = lookupLast ms k := by
  rw [lookupLast_of_perm (orderProperties_perm _) (nodup_createProperties ms),
    lookup_createProperties]

theorem lookup_properties (ms : List (Units × β)) (k : Units) :
    (orderProperties (createProperties ms)).lookup k = lookupLast ms k := by
  rw [lookup_of_perm (orderProperties_perm _) (nodup_createProperties ms),
    lookup_createProperties]

end properties

section indentation

def newline (depth : ℕ) : Text := '\n' :: List.replicate (2 * depth) ' '

@[grind =] def joinLexemes : List (List Lexeme) → List Lexeme
  | [] => []
  | [v] => v
  | v :: vs => v ++ ⟨[], .comma⟩ :: joinLexemes vs

/-- The lexemes between two brackets, each item on a line of its own. -/
def bracketed (opening closing : Token) (depth : ℕ) (space : Text) (items : List (List Lexeme)) :
    List Lexeme :=
  if items.isEmpty then [⟨space, opening⟩, ⟨[], closing⟩]
  else ⟨space, opening⟩ :: (joinLexemes items ++ [⟨newline depth, closing⟩])

/-- Values with two blanks for each level, from this depth on and behind this white space. -/
def indentAlgebra : Algebra Number (ℕ → Text → List Lexeme) where
  null _ space := [⟨space, .null⟩]
  bool b _ space := [⟨space, .bool b⟩]
  number n _ space := [⟨space, .number n⟩]
  string s _ space := [⟨space, .string (quote s)⟩]
  array vs depth space := bracketed .beginArray .endArray depth space
    (vs.map fun v => v (depth + 1) (newline (depth + 1)))
  object ms depth space := bracketed .beginObject .endObject depth space
    (ms.map fun m => ⟨newline (depth + 1), .string (quote m.1)⟩ :: ⟨[], .colon⟩ ::
      m.2 (depth + 1) [' '])

def indented : Document Number → ℕ → Text → List Lexeme := Document.fold indentAlgebra

theorem indented_array (vs : List (Document Number)) (depth : ℕ) (space : Text) :
    indented (.array vs) depth space = bracketed .beginArray .endArray depth space
      (vs.map fun v => indented v (depth + 1) (newline (depth + 1))) := by
  rw [indented, Document.fold_array, ← indented]
  exact congrArg (bracketed .beginArray .endArray depth space) List.map_map

theorem indented_object (ms : List (Units × Document Number)) (depth : ℕ) (space : Text) :
    indented (.object ms) depth space = bracketed .beginObject .endObject depth space
      (ms.map fun m => ⟨newline (depth + 1), .string (quote m.1)⟩ :: ⟨[], .colon⟩ ::
        indented m.2 (depth + 1) [' ']) := by
  rw [indented, Document.fold_object, ← indented]
  exact congrArg (bracketed .beginObject .endObject depth space) List.map_map

theorem map_joinLexemes (items : List (List Lexeme)) : (joinLexemes items).map Lexeme.token =
    joinCommas (items.map fun item => item.map Lexeme.token) := by
  induction items with
  | nil => rfl
  | cons v vs ih =>
      cases vs with
      | nil => rfl
      | cons w ws =>
          rw [joinLexemes, List.map_append, List.map_cons, ih]
          · rfl
          · exact List.cons_ne_nil w ws

theorem map_bracketed (opening closing : Token) (depth : ℕ) (space : Text)
    (items : List (List Lexeme)) : (bracketed opening closing depth space items).map Lexeme.token =
      opening :: (joinCommas (items.map fun item => item.map Lexeme.token) ++ [closing]) := by
  rw [bracketed]
  split_ifs with h
  · rw [List.isEmpty_iff.mp h]
    rfl
  · rw [List.map_cons, List.map_append, map_joinLexemes]
    rfl

/-- Indentation adds nothing but white space. -/
theorem map_indented (v : Document Number) (depth : ℕ) (space : Text) :
    (indented v depth space).map Lexeme.token = v.write := by
  induction v generalizing depth space with
  | null | bool | number | string => rfl
  | array vs ih =>
      rw [indented_array, map_bracketed, write_array, List.map_map]
      exact congrArg (fun vs => Token.beginArray :: (joinCommas vs ++ [.endArray]))
        (List.map_congr_left fun v hv => ih v hv _ _)
  | object ms ih =>
      rw [indented_object, map_bracketed, write_object, List.map_map]
      refine congrArg (fun vs => Token.beginObject :: (joinCommas vs ++ [.endObject]))
        (List.map_congr_left fun m hm => ?_)
      rw [Function.comp_apply, List.map_cons, List.map_cons, ih m hm]
      rfl

/-- In front of each lexeme stands white space. -/
def Spaced (ls : List Lexeme) : Prop := ∀ l ∈ ls, ∀ c ∈ l.space, isSpace c = true

theorem spaced_cons {l : Lexeme} {ls : List Lexeme} (hl : ∀ c ∈ l.space, isSpace c = true)
    (h : Spaced ls) : Spaced (l :: ls) := List.forall_mem_cons.mpr ⟨hl, h⟩

theorem spaced_append {ls ls' : List Lexeme} (h : Spaced ls) (h' : Spaced ls') :
    Spaced (ls ++ ls') := List.forall_mem_append.mpr ⟨h, h'⟩

theorem spaced_joinLexemes {items : List (List Lexeme)} (h : ∀ item ∈ items, Spaced item) :
    Spaced (joinLexemes items) := by
  induction items with
  | nil => exact fun l hl => absurd hl List.not_mem_nil
  | cons v vs ih =>
      obtain ⟨hv, hvs⟩ := List.forall_mem_cons.mp h
      cases vs with
      | nil => exact hv
      | cons w ws =>
          rw [joinLexemes]
          · exact spaced_append hv (spaced_cons (by simp) (ih hvs))
          · exact List.cons_ne_nil w ws

theorem isSpace_newline (depth : ℕ) : ∀ c ∈ newline depth, isSpace c = true := by
  intro c hc
  rcases List.mem_cons.mp hc with rfl | hc
  · rfl
  · rw [List.eq_of_mem_replicate hc]
    rfl

theorem spaced_bracketed {opening closing : Token} {depth : ℕ} {space : Text}
    {items : List (List Lexeme)} (hspace : ∀ c ∈ space, isSpace c = true)
    (h : ∀ item ∈ items, Spaced item) : Spaced (bracketed opening closing depth space items) := by
  have hclosing : ∀ space : Text, (∀ c ∈ space, isSpace c = true) → Spaced [⟨space, closing⟩] :=
    fun space hspace => spaced_cons hspace fun l hl => absurd hl List.not_mem_nil
  rw [bracketed]
  split_ifs
  · exact spaced_cons hspace (hclosing [] (by simp))
  · exact spaced_cons hspace
      (spaced_append (spaced_joinLexemes h) (hclosing _ (isSpace_newline depth)))

theorem spaced_indented (v : Document Number) (depth : ℕ) {space : Text}
    (hspace : ∀ c ∈ space, isSpace c = true) : Spaced (indented v depth space) := by
  induction v generalizing depth space with
  | null | bool | number | string =>
      exact spaced_cons hspace fun l hl => absurd hl List.not_mem_nil
  | array vs ih =>
      rw [indented_array]
      refine spaced_bracketed hspace fun item hitem => ?_
      obtain ⟨v, hv, rfl⟩ := List.mem_map.mp hitem
      exact ih v hv _ (isSpace_newline _)
  | object ms ih =>
      rw [indented_object]
      refine spaced_bracketed hspace fun item hitem => ?_
      obtain ⟨m, hm, rfl⟩ := List.mem_map.mp hitem
      exact spaced_cons (isSpace_newline _)
        (spaced_cons (by simp) (ih m hm _ (List.forall_mem_singleton.mpr rfl)))

/-- The indented text of a value is read back. -/
theorem parse_indented (v : Document Number) : parse (spacedText (indented v 0 [])) = some v := by
  have hspaced : Spaced (indented v 0 []) := spaced_indented v 0 (by simp)
  have h := parse_spacedText (w := []) hspaced (by simp)
    ((map_indented v 0 []).symm ▸ separated_write v)
  rwa [List.append_nil, map_indented, readTokens_write] at h

end indentation

def parseAlgebra : Algebra Number JSValue where
  null := .null
  bool := .bool
  number n := .number (double n.value)
  string := .string
  array := .array
  object ms := .object (orderProperties (createProperties ms))

/-- What the language makes of a JSON value. -/
def ofDocument : Document Number → JSValue := Document.fold parseAlgebra

/-- `JSON.parse` -/
def parseJSON (s : Text) : Option JSValue := (parse s).map ofDocument

namespace NumberFormat
variable (fmt : NumberFormat)

/-- A number that is not finite is written as null. -/
def write : Double → Document Number
  | .finite x => .number (fmt.literal x)
  | .infinite _ => .null

def stringifyAlgebra : Algebra Double (Document Number) where
  null := .null
  bool := .bool
  number := fmt.write
  string := .string
  array := .array
  object := .object

/-- The value that is written for a value of the language. -/
def toDocument : JSValue → Document Number := Document.fold fmt.stringifyAlgebra

/-- `JSON.stringify` -/
def stringify (v : JSValue) : Text := textOf (fmt.toDocument v).write

/-- `JSON.stringify(v, null, 2)` -/
def stringifyIndented (v : JSValue) : Text := spacedText (indented (fmt.toDocument v) 0 [])

/-- What becomes of a number. -/
def through (f : Number → Value) (n : Number) : Value := (fmt.write (double n.value)).valueWith f

/-- Through the browser, a value keeps everything but its numbers. -/
theorem valueWith_toDocument_ofDocument (f : Number → Value) (v : Document Number) :
    (fmt.toDocument (ofDocument v)).valueWith f = v.valueWith (fmt.through f) := by
  induction v with
  | null | bool | number | string => rfl
  | array vs ih =>
      have harray : fmt.toDocument (ofDocument (.array vs)) =
          .array (vs.map fun v => fmt.toDocument (ofDocument v)) := by
        rw [ofDocument, Document.fold_array, toDocument]
        exact (Document.fold_array _).trans (congrArg Document.array List.map_map)
      rw [harray, Document.valueWith_array, Document.valueWith_array, List.map_map]
      exact congrArg Value.array (List.map_congr_left ih)
  | object ms ih =>
      have hobject : fmt.toDocument (ofDocument (.object ms)) =
          .object ((orderProperties (createProperties
            (ms.map fun m => (m.1, ofDocument m.2)))).map fun m => (m.1, fmt.toDocument m.2)) := by
        rw [ofDocument, Document.fold_object, toDocument]
        exact Document.fold_object _
      rw [hobject, Document.valueWith_object, Document.valueWith_object]
      refine congrArg Value.object (funext fun k => ?_)
      rw [lookupLast_map, lookupLast_properties, lookupLast_map, Option.map_map, Option.map_map]
      cases hk : lookupLast ms k with
      | none => rfl
      | some v => exact congrArg some (ih _ (mem_of_lookupLast hk))

/-- Numbers that were printed are printed again. -/
theorem through_through (n : Number) :
    fmt.through (fmt.through fun n => .number n.value) n = fmt.through (fun n => .number n.value) n := by
  rw [through, through]
  cases hn : double n.value with
  | infinite negative => rfl
  | finite x =>
      change fmt.through (fun n => .number n.value) (fmt.literal x) = .number (fmt.literal x).value
      rw [through, fmt.rounds hn]
      rfl

/-- Going through the browser a second time changes nothing more. -/
theorem value_twice (v : Document Number) :
    (fmt.toDocument (ofDocument (fmt.toDocument (ofDocument v)))).value =
      v.valueWith (fmt.through fun n => .number n.value) := by
  rw [Document.value, valueWith_toDocument_ofDocument, valueWith_toDocument_ofDocument,
    Document.valueWith_eq_iff]
  exact fun n _ => fmt.through_through n

/-- The number is one that the language prints. -/
def Prints (q : ℚ) : Prop :=
  ∃ (n : Number) (x : ℚ), double n.value = .finite x ∧ (fmt.literal x).value = q

/-- A number is kept exactly if it is printed for some double. -/
theorem through_eq_iff (n : Number) :
    fmt.through (fun n => .number n.value) n = .number n.value ↔ fmt.Prints n.value := by
  rw [through]
  cases hn : double n.value with
  | infinite negative =>
      refine iff_of_false (fun h => by cases h) ?_
      rintro ⟨m, x, hm, hx⟩
      have := fmt.rounds hm
      rw [hx, hn] at this
      cases this
  | finite x =>
      change Value.number (fmt.literal x).value = .number n.value ↔ _
      rw [Value.number.injEq]
      constructor
      · exact fun h => ⟨n, x, hn, h⟩
      · rintro ⟨m, y, hm, hy⟩
        have := fmt.rounds hm
        rw [hy, hn] at this
        rw [Double.finite.inj this, hy]

/-- The integers that the language calls safe are printed. -/
theorem prints_intCast {n : Number} {N : ℤ} (hn : n.value = N) (hN : |N| < 2 ^ 53) :
    fmt.Prints N := by
  have hdouble : double n.value = .finite N := by
    rw [hn]
    exact double_intCast hN.le
  refine ⟨n, N, hdouble, eq_of_double_of_shortest hN (fmt.rounds hdouble) fun k hk => ?_⟩
  rw [← hn] at hk
  exact fmt.shortest hdouble hk

/-- Some literal for a double is as short as possible. -/
theorem exists_shortest {n : Number} {x : ℚ} (h : double n.value = .finite x) :
    ∃ m : Number, double m.value = .finite x ∧ ∀ (m' : Number) (k : ℕ),
      double m'.value = .finite x → IsDecimal k m'.value → IsDecimal k m.value := by
  classical
  have hexists : ∃ k, ∃ m : Number, double m.value = .finite x ∧ IsDecimal k m.value := by
    obtain ⟨k, hk⟩ := n.exists_isDecimal
    exact ⟨k, n, h, hk⟩
  obtain ⟨m, hm, hdigits⟩ := Nat.find_spec hexists
  refine ⟨m, hm, fun m' k hm' hk => hdigits.mono ?_⟩
  exact Nat.find_min' hexists ⟨m', hm', hk⟩

open Classical in
/-- A format that meets the rules for every double. -/
noncomputable def shortestFormat : NumberFormat where
  literal x :=
    if h : ∃ n : Number, double n.value = .finite x then (exists_shortest h.choose_spec).choose
    else ⟨['0'], rfl⟩
  rounds := by
    intro n x hn
    have h : ∃ n : Number, double n.value = .finite x := ⟨n, hn⟩
    rw [dif_pos h]
    exact (exists_shortest h.choose_spec).choose_spec.1
  shortest := by
    intro n x k hn hk
    have h : ∃ n : Number, double n.value = .finite x := ⟨n, hn⟩
    rw [dif_pos h]
    exact (exists_shortest h.choose_spec).choose_spec.2 n k hn hk

/-- The same format, but with this literal for this integer. -/
def printing (N : ℤ) (hN : |N| ≤ 2 ^ 53) (n : Number) (hn : n.value = N) : NumberFormat where
  literal := Function.update fmt.literal N n
  rounds := by
    intro m x hm
    rcases eq_or_ne x N with rfl | hx
    · rw [Function.update_self, hn]
      exact double_intCast hN
    · rw [Function.update_of_ne hx]
      exact fmt.rounds hm
  shortest := by
    intro m x k hm hk
    rcases eq_or_ne x N with rfl | hx
    · rw [Function.update_self, hn]
      exact isDecimal_of_double hN hm hk
    · rw [Function.update_of_ne hx]
      exact fmt.shortest hm hk

variable {N : ℤ} {n : Number}

@[simp] theorem literal_printing_self (hN : |N| ≤ 2 ^ 53) (hn : n.value = N) :
    (fmt.printing N hN n hn).literal N = n := Function.update_self _ _ _

theorem literal_printing_of_ne (hN : |N| ≤ 2 ^ 53) (hn : n.value = N) {x : ℚ} (hx : x ≠ N) :
    (fmt.printing N hN n hn).literal x = fmt.literal x := Function.update_of_ne hx _ _

end NumberFormat
end SecureShare.Browser
